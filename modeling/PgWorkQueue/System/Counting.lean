import Mathlib.Algebra.BigOperators.Group.List.Lemmas
import Mathlib.Algebra.Group.Hom.Basic
import Mathlib.Algebra.Order.BigOperators.Group.List
import Mathlib.Algebra.Order.Group.Nat
import PgWorkQueue.Client.TaskSet
import PgWorkQueue.System.Execution

/-!
# Every task is counted at most once

The counters of a started worker are bumped by tasks that may be dropped at any
await, and by `abort_remaining_handlers`, which sorts the tasks it joins into
finished and cancelled ones.  What the counters gain is followed task by task:
a task that read the answer to its mark was not cancelled, so that one of the
two counts it and not both.
-/

namespace PgWorkQueue

open Library.Runs

/-- The marks that `completed` counts. -/
def Mark.isDone : Mark → Bool
  | done => true
  | _ => false

namespace Stage

/-- What a task in this stage has added to the counters for its mark. -/
def tally : Stage → Stats
  | ended (.marked mark answer) => mark.tally answer
  | _ => 0

/-- The statement of the mark moved its row, as far as the task knows. -/
def movedRow : Stage → Bool
  | executed _ result => result = .affected 1
  | ended (.marked _ answer) => answer = some (.affected 1)
  | _ => false

/-- The task ended after a mark of this kind returned one row. -/
def returnedOneRow (kind : Mark → Bool) : Stage → Bool
  | ended (.marked mark answer) => answer = some (.affected 1) && kind mark
  | _ => false

end Stage

/-! ## What a stage has counted -/

theorem Mark.counted_spec (mark : Mark) :
    mark.counted.completed = (if mark.isDone then 1 else 0) ∧
      mark.counted.failed = (if !mark.isDone then 1 else 0) ∧
      mark.counted.outcomes = 1 := by
  cases mark with
  | done => exact ⟨rfl, rfl, rfl⟩
  | retry reason delay => exact ⟨rfl, rfl, rfl⟩
  | dead reason => exact ⟨rfl, rfl, rfl⟩

/-- An answer other than one row is counted at most once, and neither as
completed nor as failed. -/
theorem Mark.tally_of_not_one_row {mark : Mark} {answer : Option MarkResult}
    (other : answer ≠ some (.affected 1)) :
    (mark.tally answer).completed = 0 ∧ (mark.tally answer).failed = 0 ∧
      (mark.tally answer).outcomes ≤ 1 := by
  rcases answer with _ | (_ | _ | rows) | _
  · exact ⟨rfl, rfl, Nat.le_refl 1⟩
  · exact ⟨rfl, rfl, Nat.le_refl 1⟩
  · exact absurd rfl other
  · exact ⟨rfl, rfl, Nat.le_refl 1⟩
  · exact ⟨rfl, rfl, Nat.zero_le 1⟩

/-- What a stage stands for in the counters. -/
structure Stage.Counts (stage : Stage) (counted : Stats) : Prop where
  completed : counted.completed =
    if stage.returnedOneRow Mark.isDone then 1 else 0
  failed : counted.failed =
    if stage.returnedOneRow (!Mark.isDone ·) then 1 else 0

theorem Stage.counts_tally (stage : Stage) :
    stage.Counts stage.tally ∧ stage.tally.outcomes ≤ 1 := by
  cases stage with
  | handling => exact ⟨⟨rfl, rfl⟩, Nat.zero_le _⟩
  | marking mark => exact ⟨⟨rfl, rfl⟩, Nat.zero_le _⟩
  | executed mark result => exact ⟨⟨rfl, rfl⟩, Nat.zero_le _⟩
  | ended how =>
      cases how with
      | unmarked => exact ⟨⟨rfl, rfl⟩, Nat.zero_le _⟩
      | panicked => exact ⟨⟨rfl, rfl⟩, Nat.zero_le _⟩
      | cancelled => exact ⟨⟨rfl, rfl⟩, Nat.zero_le _⟩
      | marked mark answer =>
          by_cases oneRow : answer = some (.affected 1)
          · subst oneRow
            obtain ⟨completed, failed, once⟩ := mark.counted_spec
            refine ⟨⟨?_, ?_⟩, once.le⟩
            · simpa [Stage.tally, Stage.returnedOneRow, Mark.tally]
                using completed
            · simpa [Stage.tally, Stage.returnedOneRow, Mark.tally]
                using failed
          · obtain ⟨completed, failed, once⟩ :=
              mark.tally_of_not_one_row oneRow
            refine ⟨⟨?_, ?_⟩, once⟩
            · simpa [Stage.tally, Stage.returnedOneRow, oneRow] using completed
            · simpa [Stage.tally, Stage.returnedOneRow, oneRow] using failed

/-- The two counters together count the tasks whose mark returned one row. -/
theorem Stage.Counts.total {stage : Stage} {counted : Stats}
    (counts : stage.Counts counted) :
    counted.completed + counted.failed =
      if stage.returnedOneRow (fun _ => true) then 1 else 0 := by
  rw [counts.completed, counts.failed]
  cases stage with
  | ended how =>
      cases how with
      | marked mark answer =>
          by_cases oneRow : answer = some (.affected 1)
          · cases mark <;> simp [Stage.returnedOneRow, Mark.isDone, oneRow]
          · simp [Stage.returnedOneRow, oneRow]
      | _ => rfl
  | _ => rfl

theorem Stage.movedRow_of_returnedOneRow {stage : Stage} {kind : Mark → Bool}
    (returned : stage.returnedOneRow kind = true) :
    stage.movedRow = true := by
  cases stage with
  | ended how =>
      cases how with
      | marked mark answer =>
          simp only [Stage.returnedOneRow, Bool.and_eq_true] at returned
          exact returned.1
      | _ => cases returned
  | _ => cases returned

theorem Stage.tally_of_unfinished {stage : Stage}
    (goesOn : stage.unfinished = true) : stage.tally = 0 := by
  cases stage with
  | ended how => cases goesOn
  | handling => rfl
  | marking mark => rfl
  | executed mark result => rfl

/-- A mark that answers one row has moved a row out of `running`. -/
theorem one_le_leftRunning {T : Type} {now : Int} {job : Job T} {mark : Mark}
    {jobs : Jobs} (answered : (sendMark now job mark jobs).2 = .affected 1) :
    1 ≤ leftRunning jobs (sendMark now job mark jobs).1 := by
  cases outcome : mark.execute jobs now job.id job.leaseToken with
  | error failure =>
      simp only [sendMark, outcome] at answered
      cases answered
  | ok sent =>
      simp only [sendMark, outcome, MarkResult.affected.injEq] at answered ⊢
      rcases Mark.execute_spec outcome with ⟨_, _, none⟩ |
        ⟨row, found, running, _, _, _, _, stored, _⟩
      · omega
      · have member := (Jobs.find_eq_some_iff.mp found).1
        apply List.one_le_countP_iff.mpr
        refine ⟨row, member, ?_⟩
        rw [Jobs.id_of_find found, stored]
        simp [running, Mark.status_ne_running]

/-! ## One task -/

section Task

variable {T : Type} {worker : StartedWorker T} {entry : Entry T}
  {progress : Progress}

theorem HandlerBehaviour.count_eq (behaviour : HandlerBehaviour)
    (stats : Stats) :
    behaviour.count stats = stats + behaviour.count 0 := by
  cases behaviour <;> rfl

theorem Stage.tally_issuing (decision : Option Mark) :
    (Stage.issuing decision).tally = 0 := by
  cases decision <;> rfl

/-- What a step of a task adds to the counters. -/
structure Progress.Adds (progress : Progress) (bump : Stats) : Prop where
  count : ∀ stats, progress.count stats = stats + bump
  completed : bump.completed = progress.stage.tally.completed
  failed : bump.failed = progress.stage.tally.failed
  outcomes : bump.outcomes = progress.stage.tally.outcomes

/-- A task that ends after its mark adds the tally of the mark; no other step
of a task bumps a counter other than `timed_out`. -/
theorem Entry.Advances.adds (advances : entry.Advances worker progress) :
    ∃ bump, progress.Adds bump := by
  cases advances with
  | handled behaviour backoffNext inStage =>
      refine ⟨behaviour.count 0, behaviour.count_eq, ?_, ?_, ?_⟩
      all_goals
        rw [Stage.tally_issuing]
        cases behaviour <;> rfl
  | innerCancelled inStage =>
      exact ⟨0, ⟨fun stats => (add_zero stats).symm, rfl, rfl, rfl⟩⟩
  | executed mark jobs now inStage =>
      exact ⟨0, ⟨fun stats => (add_zero stats).symm, rfl, rfl, rfl⟩⟩
  | settled mark answer answers =>
      exact ⟨mark.tally answer, ⟨fun stats =>
        Mark.flipState_stats worker.workerId stats mark answer,
        rfl, rfl, rfl⟩⟩
  | cancelled requested awaits =>
      exact ⟨0, ⟨fun stats => (add_zero stats).symm, rfl, rfl, rfl⟩⟩

theorem Mark.timedOut_tally (mark : Mark) (answer : Option MarkResult) :
    (mark.tally answer).timedOut = 0 := by
  rcases answer with _ | (_ | _ | rows) | _
  · rfl
  · rfl
  · cases mark <;> rfl
  · rfl
  · rfl

/-- `timed_out` is bumped when a task leaves its handler, and a task does not
go back to it. -/
theorem Entry.Advances.timedOut (advances : entry.Advances worker progress)
    (stats : Stats) :
    progress.stage ≠ .handling ∧
      (progress.count stats).timedOut ≤ stats.timedOut + 1 ∧
      (entry.stage ≠ .handling →
        (progress.count stats).timedOut = stats.timedOut) := by
  cases advances with
  | handled behaviour backoffNext inStage =>
      refine ⟨?_, ?_, fun elsewhere => absurd inStage elsewhere⟩
      · unfold Stage.issuing
        split <;> exact Stage.noConfusion
      · cases behaviour with
        | exceedsTimeout => exact Nat.le_refl _
        | _ => exact Nat.le_succ _
  | settled mark answer answers =>
      have same : (mark.flipState worker.workerId entry.job stats
          answer).1.timedOut = stats.timedOut := by
        rw [Mark.flipState_stats]
        exact congrArg (stats.timedOut + ·) (mark.timedOut_tally answer)
      exact ⟨Stage.noConfusion, same.le.trans (Nat.le_succ _), fun _ => same⟩
  | _ => exact ⟨Stage.noConfusion, Nat.le_succ _, fun _ => rfl⟩

theorem Stage.Answers.unfinished {stage : Stage} {mark : Mark}
    {answer : Option MarkResult} (answers : stage.Answers mark answer) :
    stage.unfinished = true := by
  cases answers <;> rfl

/-- A task does not take a row for moved that its statement did not move. -/
theorem Stage.Answers.movedRow {stage : Stage} {mark : Mark}
    {answer : Option MarkResult} (answers : stage.Answers mark answer)
    (oneRow : (Stage.ended (.marked mark answer)).movedRow = true) :
    stage.movedRow = true := by
  cases answers with
  | received mark result => simpa [Stage.movedRow] using oneRow
  | brokenBefore mark => cases oneRow
  | brokenAfter mark result => cases oneRow
  | elapsedBefore mark => cases oneRow
  | elapsedAfter mark result => cases oneRow

theorem Entry.Advances.unfinished (advances : entry.Advances worker progress) :
    entry.stage.unfinished = true := by
  cases advances with
  | handled behaviour backoffNext inStage => rw [inStage]; rfl
  | innerCancelled inStage => rw [inStage]; rfl
  | executed mark jobs now inStage => rw [inStage]; rfl
  | settled mark answer answers => exact answers.unfinished
  | cancelled requested awaits => exact awaits

/-- A task takes a row for moved only when its statement has moved one. -/
theorem Entry.Advances.moved (advances : entry.Advances worker progress)
    (oneRow : progress.stage.movedRow = true) :
    entry.stage.movedRow = true ∨ 1 ≤ progress.moved := by
  cases advances with
  | handled behaviour backoffNext inStage =>
      have unmoved (decision : Option Mark) :
          (Stage.issuing decision).movedRow = false := by
        cases decision <;> rfl
      rw [unmoved] at oneRow
      cases oneRow
  | innerCancelled inStage => cases oneRow
  | executed mark jobs now inStage =>
      exact Or.inr (one_le_leftRunning (of_decide_eq_true oneRow))
  | settled mark answer answers => exact Or.inl (answers.movedRow oneRow)
  | cancelled requested awaits => cases oneRow

/-- What the ledger of an entry may hold. -/
structure Entry.Fair (entry : Entry T) : Prop where
  counts : entry.stage.Counts entry.ledger
  once : entry.ledger.outcomes ≤ 1
  unjoined : entry.joined = false →
    entry.ledger.outcomes = entry.stage.tally.outcomes
  joinedEnded : entry.joined = true → entry.stage.unfinished = false
  timedOut : entry.ledger.timedOut ≤ 1
  handling : entry.stage = .handling → entry.ledger.timedOut = 0

theorem Entry.fair_spawned (job : Job T) : (Entry.spawned job).Fair where
  counts := ⟨rfl, rfl⟩
  once := Nat.zero_le _
  unjoined := fun _ => rfl
  joinedEnded := fun joined => by cases joined
  timedOut := Nat.zero_le _
  handling := fun _ => rfl

theorem Entry.Fair.after (fair : entry.Fair)
    (advances : entry.Advances worker progress) :
    (entry.after progress).Fair := by
  obtain ⟨bump, adds⟩ := advances.adds
  have unfinished := advances.unfinished
  have unjoined : entry.joined = false := by
    cases joined : entry.joined with
    | false => rfl
    | true =>
        have ended := fair.joinedEnded joined
        rw [unfinished] at ended
        cases ended
  have nothing : entry.ledger.outcomes = 0 := by
    rw [fair.unjoined unjoined, Stage.tally_of_unfinished unfinished]
    rfl
  obtain ⟨counts, atMostOnce⟩ := progress.stage.counts_tally
  have ledger : (entry.after progress).ledger = entry.ledger + bump :=
    adds.count _
  have completed : (entry.after progress).ledger.completed =
      progress.stage.tally.completed := by
    rw [ledger, Stats.completed_add, adds.completed]
    unfold Stats.outcomes at nothing
    omega
  have failed : (entry.after progress).ledger.failed =
      progress.stage.tally.failed := by
    rw [ledger, Stats.failed_add, adds.failed]
    unfold Stats.outcomes at nothing
    omega
  have outcomes : (entry.after progress).ledger.outcomes =
      progress.stage.tally.outcomes := by
    rw [ledger, Stats.outcomes_add, nothing, adds.outcomes, Nat.zero_add]
  obtain ⟨left, atMostOneMore, unchanged⟩ := advances.timedOut entry.ledger
  refine ⟨⟨completed.trans counts.completed, failed.trans counts.failed⟩,
    outcomes.le.trans atMostOnce, fun _ => outcomes, ?_, ?_,
    fun handling => absurd handling left⟩
  · intro joined
    exact absurd (joined.symm.trans unjoined) (by decide)
  · by_cases handling : entry.stage = .handling
    · have none := fair.handling handling
      rw [none] at atMostOneMore
      exact atMostOneMore
    · exact (unchanged handling).le.trans fair.timedOut

end Task

/-! ## The worker -/

/-- What a task gained is on its ledger, and the ledgers are the counters. -/
structure WorkerState.Fair {T : Type} (state : WorkerState T) : Prop where
  balanced : state.stats + state.teardown.pending =
    (state.entries.map Entry.ledger).sum
  entries : ∀ entry ∈ state.entries, entry.Fair
  moved : state.entries.countP (·.stage.movedRow) ≤ state.moved

section Step

variable {T : Type} {worker : StartedWorker T} {state target : WorkerState T}
  {label : WorkerLabel} {before after : List (Entry T)}
  {entry : Entry T} {progress : Progress}

theorem forall_replace {property : Entry T → Prop} {replaced : Entry T}
    (all : ∀ other ∈ before ++ entry :: after, property other)
    (new : property replaced) :
    ∀ other ∈ before ++ replaced :: after, property other := by
  intro other member
  rcases List.mem_append.mp member with earlier | rest
  · exact all other (List.mem_append_left _ earlier)
  · rcases List.mem_cons.mp rest with same | later
    · rw [same]
      exact new
    · exact all other
        (List.mem_append_right _ (List.mem_cons_of_mem _ later))

theorem sum_replace {Amount : Type} [AddCommMonoid Amount]
    {value : Entry T → Amount} {increase : Amount} {replaced : Entry T}
    (gained : value replaced = value entry + increase) :
    ((before ++ replaced :: after).map value).sum =
      ((before ++ entry :: after).map value).sum + increase := by
  simp only [List.map_append, List.map_cons, List.sum_append, List.sum_cons]
  rw [gained, add_right_comm]
  exact (add_assoc _ _ _).symm

/-- Replacing an entry adds at most what the replacement gains. -/
theorem countP_replace_le {kind : Entry T → Bool} {gain : Nat}
    {replaced : Entry T}
    (gained : kind replaced = true → kind entry = true ∨ 1 ≤ gain) :
    (before ++ replaced :: after).countP kind ≤
      (before ++ entry :: after).countP kind + gain := by
  have one : (if kind replaced then 1 else 0) ≤
      (if kind entry then 1 else 0) + gain := by
    by_cases new : kind replaced = true
    · rw [if_pos new]
      rcases gained new with old | enough
      · rw [if_pos old]
        exact Nat.le_add_right 1 gain
      · exact enough.trans (Nat.le_add_left gain _)
    · rw [if_neg new]
      exact Nat.zero_le _
  simp only [List.countP_append, List.countP_cons]
  omega

theorem WorkerState.Fair.advance (fair : state.Fair)
    (shape : state.entries = before ++ entry :: after)
    (advances : entry.Advances worker progress) :
    (state.advance before entry after progress).Fair := by
  obtain ⟨balanced, entries, moved⟩ := fair
  rw [shape] at balanced entries moved
  obtain ⟨bump, adds⟩ := advances.adds
  have stats : progress.count state.stats = state.stats + bump :=
    adds.count _
  have ledger : (entry.after progress).ledger = entry.ledger + bump :=
    adds.count _
  refine ⟨?_, ?_, ?_⟩
  · change progress.count state.stats + state.teardown.pending =
      ((before ++ entry.after progress :: after).map Entry.ledger).sum
    rw [stats, add_right_comm, balanced, sum_replace ledger]
  · exact forall_replace entries
      ((entries entry (by simp)).after advances)
  · exact (countP_replace_le advances.moved).trans
      (Nat.add_le_add_right moved _)

/-- Joining a task counts an abort when the task was cancelled, or nothing. -/
theorem Teardown.credit_cases (teardown : Teardown) (how : TaskEnd) :
    teardown.credit how = 0 ∨
      how = .cancelled ∧
        teardown.credit how = { Stats.zero with aborted := 1 } := by
  cases teardown with
  | aborting abortedCount =>
      cases how with
      | cancelled => exact Or.inr ⟨rfl, rfl⟩
      | _ => exact Or.inl rfl
  | _ => exact Or.inl rfl

theorem Teardown.pending_afterJoin (teardown : Teardown) (how : TaskEnd) :
    (teardown.afterJoin how).pending =
      teardown.pending + teardown.credit how := by
  cases teardown with
  | aborting abortedCount => cases how <;> rfl
  | _ => rfl

theorem Entry.Fair.join {teardown : Teardown} {how : TaskEnd}
    (fair : entry.Fair) (unjoined : entry.joined = false)
    (hasEnded : entry.stage = .ended how) :
    ({ entry with
        joined := true
        ledger := entry.ledger + teardown.credit how } : Entry T).Fair := by
  have ended : entry.stage.unfinished = false := by
    rw [hasEnded]
    rfl
  rcases teardown.credit_cases how with nothing | ⟨cancelled, credit⟩
  · rw [nothing, add_zero]
    exact ⟨fair.counts, fair.once, fun joined => Bool.noConfusion joined,
      fun _ => ended, fair.timedOut, fair.handling⟩
  · -- A cancelled task has read no answer, so its ledger is empty.
    have empty := fair.unjoined unjoined
    rw [hasEnded, cancelled] at empty
    rw [credit]
    refine ⟨⟨fair.counts.completed, fair.counts.failed⟩,
      ?_, fun joined => Bool.noConfusion joined, fun _ => ended,
      fair.timedOut, fair.handling⟩
    rw [Stats.outcomes_add, empty]
    exact Nat.le_refl 1

theorem WorkerState.Fair.join {how : TaskEnd} (fair : state.Fair)
    (shape : state.entries = before ++ entry :: after)
    (unjoined : entry.joined = false) (hasEnded : entry.stage = .ended how) :
    (state.join before entry after how).Fair := by
  obtain ⟨balanced, entries, moved⟩ := fair
  rw [shape] at balanced entries moved
  refine ⟨?_, ?_, ?_⟩
  · have pending := state.teardown.pending_afterJoin how
    change state.stats + (state.teardown.afterJoin how).pending = _
    rw [pending, ← add_assoc, balanced]
    exact (sum_replace rfl).symm
  · exact forall_replace entries
      ((entries entry (by simp)).join unjoined hasEnded)
  · simpa [WorkerState.join, List.countP_cons] using moved

/-- Moving on to a phase with the same pending aborts changes no account. -/
theorem WorkerState.Fair.proceed {next : Teardown} (fair : state.Fair)
    (same : next.pending = state.teardown.pending) :
    ({ state with teardown := next } : WorkerState T).Fair := by
  refine ⟨?_, fair.entries, fair.moved⟩
  dsimp only
  rw [same]
  exact fair.balanced

/-- `abort_all` asks the tasks to end and changes no account. -/
theorem WorkerState.Fair.abortAll (fair : state.Fair)
    (inPhase : state.teardown = .sweeping) : state.abortAll.Fair := by
  obtain ⟨balanced, entries, moved⟩ := fair
  rw [inPhase] at balanced
  refine ⟨?_, ?_, ?_⟩
  · rw [WorkerState.abortAll, List.map_map]
    exact balanced
  · intro entry member
    obtain ⟨before, earlier, rfl⟩ := List.mem_map.mp member
    obtain ⟨counts, once, unjoined, joinedEnded, timedOut, handling⟩ :=
      entries before earlier
    exact ⟨counts, once, unjoined, joinedEnded, timedOut, handling⟩
  · rw [WorkerState.abortAll, List.countP_map]
    exact moved

theorem WorkerState.Fair.step (fair : state.Fair)
    (taken : WorkerState.Step worker state label target) : target.Fair := by
  cases taken with
  | poll label loop polled alone unlocked =>
      exact ⟨fair.balanced, fair.entries, fair.moved⟩
  | spawn permit permits row rows inPhase =>
      refine ⟨?_, ?_, ?_⟩
      · simpa [Entry.spawned] using fair.balanced
      · intro entry member
        rcases List.mem_append.mp member with earlier | new
        · exact fair.entries entry earlier
        · rw [List.mem_singleton.mp new]
          exact Entry.fair_spawned row
      · simpa [Entry.spawned, Stage.movedRow] using fair.moved
  | task before entry after progress shape advances goesOn =>
      exact fair.advance shape advances
  | endTask before entry after progress loop shape advances ends released =>
      have advanced := fair.advance shape advances
      exact ⟨advanced.balanced, advanced.entries, advanced.moved⟩
  | executeOrphan before job mark after jobs now shape =>
      exact ⟨fair.balanced, fair.entries,
        fair.moved.trans (Nat.le_add_right _ _)⟩
  | join before entry after how inPhase shape unjoined hasEnded =>
      exact fair.join shape unjoined hasEnded
  | drain inPhase stopped lock => exact fair.proceed (by rw [inPhase]; rfl)
  | drained inPhase noneReady => exact fair.proceed (by rw [inPhase]; rfl)
  | sweep inPhase lock => exact fair.proceed (by rw [inPhase]; rfl)
  | nothingLeft inPhase empty => exact fair.proceed (by rw [inPhase]; rfl)
  | abortAll inPhase noneReady remains => exact fair.abortAll inPhase
  | counted abortedCount inPhase noneReady =>
      have balanced := fair.balanced
      rw [inPhase] at balanced
      refine ⟨?_, fair.entries, fair.moved⟩
      rw [← balanced]
      rfl

end Step

/-! ## The counters of a run -/

def Stats.completedHom : Stats →+ Nat where
  toFun := Stats.completed
  map_zero' := rfl
  map_add' := fun _ _ => rfl

def Stats.failedHom : Stats →+ Nat where
  toFun := Stats.failed
  map_zero' := rfl
  map_add' := fun _ _ => rfl

def Stats.outcomesHom : Stats →+ Nat where
  toFun := Stats.outcomes
  map_zero' := rfl
  map_add' := Stats.outcomes_add

def Stats.timedOutHom : Stats →+ Nat where
  toFun := Stats.timedOut
  map_zero' := rfl
  map_add' := fun _ _ => rfl

/-- The counters say what they are documented to say. -/
structure WorkerState.CountsOnce {T : Type} (state : WorkerState T) :
    Prop where
  /-- The counters, with the aborts not yet added to them, are what the tasks
  contributed. -/
  attributed : state.stats + state.teardown.pending =
    (state.entries.map Entry.ledger).sum
  atMostOnce : ∀ entry ∈ state.entries, entry.ledger.outcomes ≤ 1
  completed : state.stats.completed =
    state.entries.countP (·.stage.returnedOneRow Mark.isDone)
  failed : state.stats.failed =
    state.entries.countP (·.stage.returnedOneRow (!Mark.isDone ·))
  moved : state.stats.completed + state.stats.failed ≤ state.moved
  notAborted : ∀ entry ∈ state.entries,
    0 < entry.ledger.completed + entry.ledger.failed →
      entry.ledger.aborted = 0
  /-- The counters have not wrapped around, if the worker has spawned fewer
  than `2 ^ 64` tasks. -/
  unwrapped : state.entries.length < 2 ^ 64 →
    state.stats.wrapped = state.stats

section Run

variable {T : Type} {worker : StartedWorker T} {state : WorkerState T}
  {trace : List (Transition (WorkerState T) WorkerLabel)}

theorem fair_of_run
    (run : Run (WorkerState.Step worker) worker.initial trace state) :
    state.Fair := by
  refine run.invariant WorkerState.Fair ?_ ?_
  · exact ⟨rfl, fun entry member => absurd member List.not_mem_nil,
      Nat.le_refl _⟩
  · intro source label target fair taken
    exact fair.step taken

theorem sum_ledger_eq_countP (count : Stats →+ Nat) (kind : Entry T → Bool)
    {entries : List (Entry T)}
    (counts : ∀ entry ∈ entries,
      count entry.ledger = if kind entry then 1 else 0) :
    count (entries.map Entry.ledger).sum = entries.countP kind := by
  induction entries with
  | nil => exact map_zero count
  | cons entry rest later =>
      have first := counts entry List.mem_cons_self
      have others := later fun other member =>
        counts other (List.mem_cons_of_mem _ member)
      rw [List.map_cons, List.sum_cons, map_add, first, others,
        List.countP_cons, Nat.add_comm]

/-- What each task adds at most once, the tasks add at most as often as there
are tasks. -/
theorem le_length_of_balanced (count : Stats →+ Nat) {stats pending : Stats}
    {entries : List (Entry T)}
    (balanced : stats + pending = (entries.map Entry.ledger).sum)
    (once : ∀ entry ∈ entries, count entry.ledger ≤ 1) :
    count stats ≤ entries.length := by
  have bounded : ((entries.map Entry.ledger).map count).sum ≤
      ((entries.map Entry.ledger).map count).length • 1 := by
    apply List.sum_le_card_nsmul
    intro amount member
    obtain ⟨ledger, isLedger, rfl⟩ := List.mem_map.mp member
    obtain ⟨entry, listed, rfl⟩ := List.mem_map.mp isLedger
    exact once entry listed
  rw [List.length_map, List.length_map, Nat.nsmul_eq_mul, Nat.mul_one,
    ← map_list_sum, ← balanced, map_add] at bounded
  exact (Nat.le_add_right _ _).trans bounded

/-- What is pending is neither completed nor failed. -/
theorem completed_and_failed_of_balanced {teardown : Teardown}
    {stats total : Stats} (balanced : stats + teardown.pending = total) :
    stats.completed = total.completed ∧ stats.failed = total.failed := by
  rw [← balanced]
  cases teardown <;> exact ⟨rfl, rfl⟩

/-- Each task is counted at most once, and `completed` and `failed` count the
tasks whose mark returned one row. -/
theorem counters_count_once
    (run : Run (WorkerState.Step worker) worker.initial trace state) :
    state.CountsOnce := by
  have fair := fair_of_run run
  obtain ⟨completed, failed⟩ :=
    completed_and_failed_of_balanced fair.balanced
  refine ⟨fair.balanced, fun entry member => (fair.entries entry member).once,
    ?_, ?_, ?_, ?_, ?_⟩
  · rw [completed]
    exact sum_ledger_eq_countP Stats.completedHom _ fun entry member =>
      (fair.entries entry member).counts.completed
  · rw [failed]
    exact sum_ledger_eq_countP Stats.failedHom _ fun entry member =>
      (fair.entries entry member).counts.failed
  · have total := sum_ledger_eq_countP
      (Stats.completedHom + Stats.failedHom) _ fun entry member =>
        (fair.entries entry member).counts.total
    rw [completed, failed]
    refine (le_of_eq total).trans (le_trans ?_ fair.moved)
    exact List.countP_mono_left fun entry _ =>
      Stage.movedRow_of_returnedOneRow
  · intro entry member counted
    have once := (fair.entries entry member).once
    unfold Stats.outcomes at once
    omega
  · intro few
    have outcomes := le_length_of_balanced Stats.outcomesHom fair.balanced
      fun entry member => (fair.entries entry member).once
    have timedOut := le_length_of_balanced Stats.timedOutHom fair.balanced
      fun entry member => (fair.entries entry member).timedOut
    exact Stats.wrapped_eq_self (Nat.lt_of_le_of_lt outcomes few)
      (Nat.lt_of_le_of_lt timedOut few)

end Run

/-! ### A worker with one permit

Two jobs are pushed.  Each round claims one of them, its handler succeeds and
`mark_done` moves its row; the loop is then back where it started. -/

namespace OneSlot

theorem noLimits (key : String) (limit : Nat)
    (found : (∅ : HashMap Nat).lookup key = some limit) :
    1 ≤ key.length ∧ key.length ≤ maxConcurrencyKeyLen ∧ 1 ≤ limit ∧
      limit ≤ i32Max := by
  cases found

def worker : StartedWorker Unit where
  queue := "mail"
  codec := LateMark.pusher.codec
  maxAttempts := 2
  leaseTimeout := Duration.tenMicros
  batchSize := 1
  concurrency := 1
  concurrencyLimits := ∅
  batchSizeMin := by decide
  batchSizeMax := by decide
  concurrencyPos := by decide
  limitsAccepted := noLimits
  workerId := ⟨5⟩
  panicPolicy := .retry
  pollInterval := Duration.tenMicros

def pushed : Jobs :=
  ((DbState.initial 0).afterAll
    [⟨0, .push LateMark.pusher ⟨7⟩ () none⟩,
      ⟨0, .push LateMark.pusher ⟨8⟩ () none⟩]).jobs

def claim : Statement Unit :=
  .claim (worker.toWorker.claimParams 1 ∅) (fun id => ⟨id⟩) fun _ => false

def claimed : Jobs := (execute pushed 1 claim).1

def database (jobs : Jobs) (now : Int) : Database where
  jobs := jobs
  now := now
  gen := fun id => ⟨id⟩
  lockedElsewhere := fun _ => false

/-- The entry of a job whose `mark_done` moved its row. -/
def finished (job : Job Unit) : Entry Unit where
  job := job
  stage := .ended (.marked .done (some (.affected 1)))
  abortRequested := false
  joined := false
  ledger := { Stats.zero with completed := 1 }

/-- The only unfinished task ends. -/
theorem onlyTask_ends {loop : PollState Unit} {task : Task Unit}
    {entries : List (Entry Unit)}
    (idle : entries.countP (·.stage.unfinished) = 0)
    (only : loop.tasks = [task]) :
    PollState.Step worker.toWorker loop
      (.endTask (entries.countP (·.stage.unfinished)))
      (loop.endTask task []) := by
  rw [idle]
  exact .endTask loop [] [] task only

/-- One round, from a claim that returns one row to the end of its task. -/
theorem oneRound {earlier : WorkerState Unit} {jobs after : Jobs} {now : Int}
    {raw : RawClaimedRow} {job : Job Unit}
    (atRest : earlier.loop = worker.toWorker.initial)
    (serving : earlier.teardown = .serving)
    (idle : earlier.entries.countP (·.stage.unfinished) = 0)
    (answer : worker.toWorker.claimReply 1 ∅ (database jobs now) = .ok [raw])
    (decoded : decodeRow worker.codec raw = .ok job)
    (keyless : worker.toWorker.slotFor job = none)
    (moves : (sendMark (now + 1) job .done after).2 = .affected 1) :
    ∃ trace finish,
      Run (WorkerState.Step worker) earlier trace finish ∧
      finish.loop = worker.toWorker.initial ∧
      finish.teardown = .serving ∧
      finish.entries = earlier.entries ++ [finished job] ∧
      finish.stats = earlier.stats + { Stats.zero with completed := 1 } := by
  obtain ⟨loop, entries, teardown, stats, orphans, moved⟩ := earlier
  dsimp only at atRest serving idle
  subst atRest
  subst serving
  have start : Run (WorkerState.Step worker)
      ⟨worker.toWorker.initial, entries, .serving, stats, orphans, moved⟩ []
      ⟨worker.toWorker.initial, entries, .serving, stats, orphans, moved⟩ :=
    Run.refl
  have ticked := start.snoc (.poll _ _ _ (.tick _ rfl) rfl rfl)
  have acquired := ticked.snoc (.poll _ _ _ (.acquire _ 0 [] rfl rfl) rfl rfl)
  have ready := acquired.snoc
    (.poll _ _ _ (.gathered _ [0] rfl (Or.inr rfl)) rfl rfl)
  have claiming := ready.snoc (.poll _ _ _ (.snapshot _ [0] rfl) rfl rfl)
  have sent := claiming.snoc (.poll _ _ _ (.send _ [0] _ rfl) rfl rfl)
  have answered := sent.snoc
    (.poll _ _ _ (.execute _ [0] _ (database jobs now) rfl) rfl rfl)
  have received := answered.snoc (.poll _ _ _
    (.receive _ [0] [raw] (congrArg (Phase.answered [0]) answer)) rfl rfl)
  have decoding := received.snoc
    (.poll _ _ _ (.decode _ [0] raw [] [] job rfl decoded) rfl rfl)
  have batch := decoding.snoc
    (.poll _ _ _ (.finishDecode _ [0] [job] rfl) rfl rfl)
  have locked := batch.snoc (.poll _ _ _ (.lock _ [0] [job] rfl) rfl rfl)
  have spawned := locked.snoc (.spawn _ 0 [] job [] rfl)
  have back := spawned.snoc
    (.poll _ _ _ (.finishSpawn _ [] [] rfl (Or.inl rfl)) rfl rfl)
  have handled := back.snoc (.task _ entries (Entry.spawned job) [] _ rfl
    (.handled (.returns (.ok ())) (fun _ => Duration.tenMicros) rfl) rfl)
  have executed := handled.snoc (.task _ entries _ [] _ rfl
    (.executed .done after (now + 1) rfl) rfl)
  have answers : Stage.Answers
      (.executed .done (sendMark (now + 1) job .done after).2) .done
      (some (.affected 1)) := by
    rw [moves]
    exact .received _ _
  have ended := executed.snoc (.endTask _ entries _ [] _ _ rfl
    (.settled .done (some (.affected 1)) answers) rfl
    (onlyTask_ends idle rfl))
  refine ⟨_, _, ended, ?_, rfl, rfl, rfl⟩
  simp only [PollState.endTask, PollState.leave, PollState.spawn]
  rw [keyless]
  rfl

/-- What the claim of a job at time `now` returns. -/
def raw (id : Nat) (publicId : Uuid) (now : Int) : RawClaimedRow where
  id := id
  publicId := publicId
  queue := "mail"
  concurrencyKey := none
  payload := []
  attempts := 1
  maxAttempts := 2
  firstAttemptedAt := now
  leaseToken := ⟨id⟩
  leaseExpiresAt := now + 10

def job (id : Nat) (publicId : Uuid) (now : Int) : Job Unit where
  id := id
  publicId := publicId
  queue := "mail"
  concurrencyKey := none
  payload := ()
  attempts := 1
  maxAttempts := 2
  firstAttemptedAt := now
  leaseToken := ⟨id⟩
  leaseExpiresAt := now + 10

theorem firstRound :
    ∃ trace state,
      Run (WorkerState.Step worker) worker.initial trace state ∧
      state.loop = worker.toWorker.initial ∧ state.teardown = .serving ∧
      state.entries = [finished (job 1 ⟨7⟩ 1)] ∧
      state.stats = { Stats.zero with completed := 1 } := by
  have answer : worker.toWorker.claimReply 1 ∅ (database pushed 1) =
      .ok [raw 1 ⟨7⟩ 1] := rfl
  have moves : (sendMark (1 + 1) (job 1 ⟨7⟩ 1) .done claimed).2 =
      .affected 1 := by decide
  exact oneRound rfl rfl rfl answer rfl rfl moves

end OneSlot

theorem counters_count_once_on_oneSlot :
    ∃ trace state,
      Run (WorkerState.Step OneSlot.worker) OneSlot.worker.initial trace
        state ∧
      state.stats = { Stats.zero with completed := 1 } ∧
      state.CountsOnce := by
  obtain ⟨trace, state, run, _, _, _, stats⟩ := OneSlot.firstRound
  exact ⟨trace, state, run, stats, counters_count_once run⟩

end PgWorkQueue
