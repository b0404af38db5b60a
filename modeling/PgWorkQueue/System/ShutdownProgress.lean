import PgWorkQueue.System.Fleet
import PgWorkQueue.System.Shutdown

/-!
# `shutdown` does not wait for handlers

Whatever the worker and its handlers are doing, the call can go on by steps of
its own: it joins the tasks that have ended, its timers elapse, and what has not
ended by then is aborted and left behind.  Only the lock of the task set may
keep it waiting, and the poll loop holds that lock for no longer than it takes
to spawn the tasks of one batch.
-/

namespace PgWorkQueue

open Library.Runs

/-- The steps of the call, and those with which the poll loop spawns its tasks
and gives the lock back. -/
def ShutdownLabel.needsNoHandler : ShutdownLabel → Bool
  | call | worker .spawn | worker (.poll .finishSpawn) => true
  | _ => false

/-- How many tasks `join_next` can return. -/
def WorkerState.readyCount {T : Type} (state : WorkerState T) : Nat :=
  state.entries.countP Entry.ready

section Ready

variable {T : Type} {state : WorkerState T}

theorem WorkerState.noneReady_iff :
    state.NoneReady ↔ state.readyCount = 0 := by
  rw [readyCount, List.countP_eq_zero]
  simp only [NoneReady, Bool.not_eq_true]

/-- As long as a task is ready, one can be joined. -/
theorem WorkerState.exists_join (ready : state.readyCount ≠ 0) :
    ∃ before entry after how, state.entries = before ++ entry :: after ∧
      entry.joined = false ∧ entry.stage = .ended how := by
  obtain ⟨entry, member, isReady⟩ :=
    List.countP_pos_iff.mp (Nat.pos_of_ne_zero ready)
  obtain ⟨before, after, shape⟩ := List.mem_iff_append.mp member
  obtain ⟨unjoined, hasEnded⟩ := Bool.and_eq_true_iff.mp isReady
  cases stage : entry.stage with
  | ended how =>
      exact ⟨before, entry, after, how, shape, by simpa using unjoined, stage⟩
  | _ =>
      rw [stage] at hasEnded
      cases hasEnded

theorem WorkerState.readyCount_join {before after : List (Entry T)}
    {entry : Entry T} {how : TaskEnd}
    (shape : state.entries = before ++ entry :: after)
    (unjoined : entry.joined = false) (hasEnded : entry.stage = .ended how) :
    state.readyCount = (state.join before entry after how).readyCount + 1 := by
  simp [readyCount, shape, WorkerState.join, Entry.ready,
    unjoined, hasEnded, Stage.unfinished, Nat.add_assoc]

/-- A task that was just spawned is not ready. -/
theorem WorkerState.readyCount_spawn (loop : PollState T) (row : Job T) :
    ({ state with
        loop := loop
        entries := state.entries ++ [Entry.spawned row] } :
      WorkerState T).readyCount = state.readyCount := by
  rw [readyCount, List.countP_append]
  rfl

end Ready

namespace ShutdownState

variable {T : Type}

/-- The call can return within so many steps, and none of them is one of a
handler task or of the reaper. -/
def ReturnsWithin (worker : StartedWorker T) (call : ShutdownCall)
    (bound : Nat) (state : ShutdownState T) : Prop :=
  ∃ later finish result, Run (Step worker call) state later finish ∧
    finish.call = .left (.returned result) ∧
    (∀ taken ∈ later, taken.label.needsNoHandler = true) ∧
    later.length ≤ bound

theorem onCourse_of_run {worker : StartedWorker T} {call : ShutdownCall}
    {start state : ShutdownState T}
    {trace : List (Transition (ShutdownState T) ShutdownLabel)}
    (representable : ∃ deadline, call.deadline = some deadline)
    (entered : start.call = .entered) (present : start.inner = true)
    (run : Run (Step worker call) start trace state) : state.OnCourse := by
  apply run.invariant OnCourse
  · unfold OnCourse
    rw [entered]
    exact present
  · intro source label target onCourse taken
    exact onCourse.step representable taken

section Steps

variable {worker : StartedWorker T} {call : ShutdownCall}
  {state next : ShutdownState T} {label : ShutdownLabel} {bound more : Nat}

theorem ReturnsWithin.mono (within : state.ReturnsWithin worker call bound)
    (larger : bound ≤ more) : state.ReturnsWithin worker call more := by
  obtain ⟨later, finish, result, run, left, alone, short⟩ := within
  exact ⟨later, finish, result, run, left, alone, short.trans larger⟩

theorem ReturnsWithin.of_step (taken : Step worker call state label next)
    (alone : label.needsNoHandler = true)
    (within : next.ReturnsWithin worker call bound) :
    state.ReturnsWithin worker call (bound + 1) := by
  obtain ⟨later, finish, result, run, left, others, short⟩ := within
  refine ⟨_, finish, result, (Run.single taken).append run, left, ?_, ?_⟩
  · intro other member
    rcases List.mem_append.mp member with first | afterwards
    · rw [List.mem_singleton.mp first]
      exact alone
    · exact others other afterwards
  · rw [List.length_append, List.length_singleton]
    omega

/-! ## Taking the task set down -/

theorem returnsWithin_of_counting (inPhase : state.call = .counting) :
    state.ReturnsWithin worker call 1 := by
  refine ⟨_, _, _, Run.single (.finish state 0 inPhase), rfl, ?_, le_refl 1⟩
  intro taken member
  rw [List.mem_singleton.mp member]
  rfl

variable {deadline : Nat}

theorem returnsWithin_of_complete
    (inPhase : state.call = .drainingHandlers deadline)
    (complete : state.worker.teardown = .complete) :
    state.ReturnsWithin worker call 2 :=
  .of_step (.handlersDone state deadline inPhase complete) rfl
    (returnsWithin_of_counting rfl)

/-- What the call can do once no task is ready, it can do after it has joined
those that are. -/
theorem returnsWithin_of_joins {bound : Nat} (inTeardown : Teardown → Prop)
    (holdsLock : ∀ teardown, inTeardown teardown → teardown.holdsLock = true)
    (stays : ∀ teardown how, inTeardown teardown →
      inTeardown (teardown.afterJoin how))
    (afterwards : ∀ next : ShutdownState T,
      next.call = .drainingHandlers deadline →
      inTeardown next.worker.teardown →
      next.worker.loop = state.worker.loop → next.worker.NoneReady →
      next.ReturnsWithin worker call bound)
    (inPhase : state.call = .drainingHandlers deadline)
    (here : inTeardown state.worker.teardown) :
    state.ReturnsWithin worker call (bound + state.worker.readyCount) := by
  induction count : state.worker.readyCount generalizing state with
  | zero =>
      exact afterwards state inPhase here rfl
        (WorkerState.noneReady_iff.mpr count)
  | succ left inductionHypothesis =>
      have some : state.worker.readyCount ≠ 0 := by omega
      obtain ⟨before, entry, after, how, shape, unjoined, hasEnded⟩ :=
        WorkerState.exists_join some
      have rest : (state.worker.join before entry after how).readyCount =
          left := by
        have one := WorkerState.readyCount_join shape unjoined hasEnded
        omega
      have taken : Step worker call state .call _ :=
        .handlers state deadline .join _ inPhase
          (.join state.worker before entry after how (holdsLock _ here) shape
            unjoined hasEnded) rfl WorkerLabel.noConfusion
      exact .of_step taken rfl (inductionHypothesis afterwards inPhase
        (stays _ how here) rest)

theorem returnsWithin_of_aborted {aborted : Nat}
    (inPhase : state.call = .drainingHandlers deadline)
    (aborting : state.worker.teardown = .aborting aborted)
    (noneReady : state.worker.NoneReady) :
    state.ReturnsWithin worker call 3 := by
  have taken : Step worker call state .call _ :=
    .handlers state deadline .counted _ inPhase
      (.counted state.worker aborted aborting noneReady) rfl
      WorkerLabel.noConfusion
  exact .of_step taken rfl (returnsWithin_of_complete inPhase rfl)

theorem returnsWithin_of_aborting {aborted : Nat}
    (inPhase : state.call = .drainingHandlers deadline)
    (aborting : state.worker.teardown = .aborting aborted) :
    state.ReturnsWithin worker call (3 + state.worker.readyCount) := by
  refine returnsWithin_of_joins (fun teardown => ∃ count,
    teardown = .aborting count) ?_ ?_ ?_ inPhase ⟨aborted, aborting⟩
  · rintro _ ⟨count, rfl⟩
    rfl
  · rintro _ how ⟨count, rfl⟩
    exact ⟨_, rfl⟩
  · rintro next inCall ⟨count, atCount⟩ _ noneReady
    exact returnsWithin_of_aborted inCall atCount noneReady

variable (grace : ∃ now graceDeadline,
  call.range.add now (.fromSecs 1) = some graceDeadline)

include grace

/-- The sweep ends when nothing is left; what is left is aborted. -/
theorem returnsWithin_of_swept
    (inPhase : state.call = .drainingHandlers deadline)
    (sweeping : state.worker.teardown = .sweeping)
    (noneReady : state.worker.NoneReady) :
    state.ReturnsWithin worker call 4 := by
  by_cases remains : ∃ entry ∈ state.worker.entries, entry.joined = false
  · have taken : Step worker call state .call _ :=
      .handlers state deadline .abortAll _ inPhase
        (.abortAll state.worker sweeping noneReady remains) rfl fun _ => grace
    refine .of_step taken rfl (returnsWithin_of_aborted inPhase rfl ?_)
    intro entry member
    obtain ⟨old, listed, rfl⟩ := List.mem_map.mp member
    exact noneReady old listed
  · have empty : ∀ entry ∈ state.worker.entries, entry.joined = true := by
      intro entry member
      by_contra unjoined
      exact remains ⟨entry, member, Bool.eq_false_of_not_eq_true unjoined⟩
    have taken : Step worker call state .call _ :=
      .handlers state deadline .nothingLeft _ inPhase
        (.nothingLeft state.worker sweeping empty) rfl WorkerLabel.noConfusion
    have within : state.ReturnsWithin worker call 3 :=
      .of_step taken rfl (returnsWithin_of_complete inPhase rfl)
    exact within.mono (by decide)

theorem returnsWithin_of_sweeping
    (inPhase : state.call = .drainingHandlers deadline)
    (sweeping : state.worker.teardown = .sweeping) :
    state.ReturnsWithin worker call (4 + state.worker.readyCount) := by
  refine returnsWithin_of_joins (· = .sweeping) ?_ ?_ ?_ inPhase sweeping
  · rintro _ rfl
    rfl
  · rintro _ how rfl
    rfl
  · intro next inCall atSweep _ noneReady
    exact returnsWithin_of_swept grace inCall atSweep noneReady

theorem returnsWithin_of_drained
    (inPhase : state.call = .drainingHandlers deadline)
    (drained : state.worker.teardown = .drained)
    (unlocked : state.worker.loop.phase.holdsLock = false) :
    state.ReturnsWithin worker call (5 + state.worker.readyCount) := by
  have taken : Step worker call state .call _ :=
    .handlers state deadline .sweep _ inPhase
      (.sweep state.worker drained unlocked) rfl WorkerLabel.noConfusion
  have within : state.ReturnsWithin worker call _ :=
    .of_step taken rfl (returnsWithin_of_sweeping grace inPhase rfl)
  exact within.mono (by rw [Nat.add_right_comm]; exact Nat.le_refl _)

theorem returnsWithin_of_draining
    (inPhase : state.call = .drainingHandlers deadline)
    (draining : state.worker.teardown = .draining)
    (unlocked : state.worker.loop.phase.holdsLock = false) :
    state.ReturnsWithin worker call (6 + state.worker.readyCount) := by
  refine returnsWithin_of_joins (· = .draining) ?_ ?_ ?_ inPhase draining
  · rintro _ rfl
    rfl
  · rintro _ how rfl
    rfl
  · intro next inCall atDrain sameLoop noneReady
    have taken : Step worker call next .call _ :=
      .handlers next deadline .drained _ inCall
        (.drained next.worker atDrain noneReady) rfl WorkerLabel.noConfusion
    have unlockedNext : next.worker.loop.phase.holdsLock = false := by
      rw [sameLoop]
      exact unlocked
    have none : next.worker.readyCount = 0 :=
      WorkerState.noneReady_iff.mp noneReady
    have within : next.ReturnsWithin worker call
        (5 + next.worker.readyCount + 1) :=
      .of_step taken rfl
        (returnsWithin_of_drained grace inCall rfl unlockedNext)
    exact within.mono (by omega)

/-- With the lock at hand the call takes the task set down by itself. -/
theorem returnsWithin_of_unlocked
    (inPhase : state.call = .drainingHandlers deadline)
    (fired : state.token = true)
    (unlocked : state.worker.loop.phase.holdsLock = false) :
    state.ReturnsWithin worker call (7 + state.worker.readyCount) := by
  cases teardown : state.worker.teardown with
  | serving =>
      have taken : Step worker call state .call _ :=
        .handlers state deadline .drain _ inPhase
          (.drain state.worker teardown (Or.inl fired) unlocked) rfl
          WorkerLabel.noConfusion
      have within : state.ReturnsWithin worker call _ := .of_step taken rfl
        (returnsWithin_of_draining grace inPhase rfl unlocked)
      exact within.mono (by rw [Nat.add_right_comm]; exact Nat.le_refl _)
  | draining =>
      exact (returnsWithin_of_draining grace inPhase teardown unlocked).mono
        (by omega)
  | drained =>
      exact (returnsWithin_of_drained grace inPhase teardown unlocked).mono
        (by omega)
  | sweeping =>
      exact (returnsWithin_of_sweeping grace inPhase teardown).mono (by omega)
  | aborting aborted =>
      exact (returnsWithin_of_aborting inPhase teardown).mono (by omega)
  | complete =>
      exact (returnsWithin_of_complete inPhase teardown).mono (by omega)

/-- While the poll loop spawns, it has the lock; it gives it back when the batch
is spawned. -/
theorem returnsWithin_of_spawning {permits : List Nat} {rows : List (Job T)}
    (inPhase : state.call = .drainingHandlers deadline)
    (fired : state.token = true)
    (spawning : state.worker.loop.phase = .spawning permits rows) :
    state.ReturnsWithin worker call
      (rows.length + (8 + state.worker.readyCount)) := by
  have finishes (source : ShutdownState T) {left : List Nat}
      {jobs : List (Job T)}
      (stillDraining : source.call = .drainingHandlers deadline)
      (stillFired : source.token = true)
      (stillSpawning : source.worker.loop.phase = .spawning left jobs)
      (zipped : left = [] ∨ jobs = []) :
      source.ReturnsWithin worker call (8 + source.worker.readyCount) := by
    have taken : Step worker call source (.worker (.poll .finishSpawn)) _ :=
      .worker source (.poll .finishSpawn) _ (.poll source.worker .finishSpawn _
        (.finishSpawn source.worker.loop left jobs stillSpawning zipped) rfl
        rfl) rfl (by simp)
    have within : source.ReturnsWithin worker call _ := .of_step taken rfl
      (returnsWithin_of_unlocked grace stillDraining stillFired rfl)
    exact within.mono (by rw [Nat.add_right_comm]; exact Nat.le_refl _)
  induction rows generalizing state permits with
  | nil =>
      exact (finishes state inPhase fired spawning (Or.inr rfl)).mono
        (Nat.le_add_left _ _)
  | cons row rows inductionHypothesis =>
      cases permits with
      | nil =>
          exact (finishes state inPhase fired spawning (Or.inl rfl)).mono
            (Nat.le_add_left _ _)
      | cons permit permits =>
          have taken : Step worker call state (.worker .spawn) _ :=
            .worker state .spawn _ (.spawn state.worker permit permits row rows
              spawning) rfl (by simp)
          have within : state.ReturnsWithin worker call _ :=
            .of_step taken rfl (inductionHypothesis inPhase fired rfl)
          refine within.mono ?_
          rw [WorkerState.readyCount_spawn, List.length_cons]
          omega

theorem returnsWithin_of_drainingHandlers
    (inPhase : state.call = .drainingHandlers deadline)
    (fired : state.token = true) :
    state.ReturnsWithin worker call (state.worker.loop.phase.jobs.length +
      (8 + state.worker.readyCount)) := by
  by_cases locked : state.worker.loop.phase.holdsLock = true
  · cases phase : state.worker.loop.phase with
    | spawning permits rows =>
        exact returnsWithin_of_spawning grace inPhase fired phase
    | _ =>
        rw [phase] at locked
        cases locked
  · have within : state.ReturnsWithin worker call _ :=
      returnsWithin_of_unlocked grace inPhase fired
        (Bool.eq_false_iff.mpr locked)
    exact within.mono (by omega)

/-! ## From the beginning -/

theorem returnsWithin_of_softDrained
    (inPhase : state.call = .softDrained deadline)
    (fired : state.token = true) :
    state.ReturnsWithin worker call (state.worker.loop.phase.jobs.length +
      (8 + state.worker.readyCount) + 1) :=
  .of_step (.abortTasks state deadline inPhase) rfl
    (returnsWithin_of_drainingHandlers grace rfl fired)

theorem returnsWithin_of_softDraining
    (inPhase : state.call = .softDraining deadline)
    (fired : state.token = true) :
    state.ReturnsWithin worker call (state.worker.loop.phase.jobs.length +
      (8 + state.worker.readyCount) + 2) :=
  .of_step (.elapsed state deadline inPhase) rfl
    (returnsWithin_of_softDrained grace rfl fired)

theorem returnsWithin_of_dated (inPhase : state.call = .dated deadline) :
    state.ReturnsWithin worker call (state.worker.loop.phase.jobs.length +
      (8 + state.worker.readyCount) + 3) :=
  .of_step (.cancel state deadline inPhase) rfl
    (returnsWithin_of_softDraining grace rfl (Bool.or_true _))

theorem returnsWithin_of_taken (computed : call.deadline = some deadline)
    (inPhase : state.call = .taken) :
    state.ReturnsWithin worker call (state.worker.loop.phase.jobs.length +
      (8 + state.worker.readyCount) + 4) :=
  .of_step (.date state deadline inPhase computed) rfl
    (returnsWithin_of_dated grace rfl)

theorem returnsWithin_of_entered (computed : call.deadline = some deadline)
    (inPhase : state.call = .entered) (present : state.inner = true) :
    state.ReturnsWithin worker call (state.worker.loop.phase.jobs.length +
      (8 + state.worker.readyCount) + 5) :=
  .of_step (.take state inPhase present) rfl
    (returnsWithin_of_taken grace computed rfl)

end Steps

end ShutdownState

/-- However far the call has come and whatever the worker has done since: as
long as its deadline and a second's grace can be represented, the call can
return after thirteen steps, the spawns of the batch that the poll loop has in
hand and a join for each task that has ended, without one more step of a handler
task or of the reaper. -/
theorem shutdown_needs_no_handler {T : Type} {worker : StartedWorker T}
    {call : ShutdownCall} {start state : ShutdownState T}
    {trace : List (Transition (ShutdownState T) ShutdownLabel)}
    {deadline : Nat} (computed : call.deadline = some deadline)
    (grace : ∃ now graceDeadline,
      call.range.add now (.fromSecs 1) = some graceDeadline)
    (entered : start.call = .entered) (present : start.inner = true)
    (run : Run (ShutdownState.Step worker call) start trace state)
    (underWay : ∀ exit, state.call ≠ .left exit) :
    state.ReturnsWithin worker call
      (state.worker.loop.phase.jobs.length + state.worker.readyCount + 13) := by
  have onCourse := ShutdownState.onCourse_of_run ⟨deadline, computed⟩ entered
    present run
  unfold ShutdownState.OnCourse at onCourse
  cases inPhase : state.call with
  | entered =>
      rw [inPhase] at onCourse
      have within : state.ReturnsWithin worker call _ :=
        ShutdownState.returnsWithin_of_entered grace computed inPhase onCourse
      exact within.mono (by omega)
  | taken =>
      have within : state.ReturnsWithin worker call _ :=
        ShutdownState.returnsWithin_of_taken grace computed inPhase
      exact within.mono (by omega)
  | dated deadline =>
      have within : state.ReturnsWithin worker call _ :=
        ShutdownState.returnsWithin_of_dated grace inPhase
      exact within.mono (by omega)
  | softDraining deadline =>
      rw [inPhase] at onCourse
      have within : state.ReturnsWithin worker call _ :=
        ShutdownState.returnsWithin_of_softDraining grace inPhase onCourse
      exact within.mono (by omega)
  | softDrained deadline =>
      rw [inPhase] at onCourse
      have within : state.ReturnsWithin worker call _ :=
        ShutdownState.returnsWithin_of_softDrained grace inPhase onCourse
      exact within.mono (by omega)
  | drainingHandlers deadline =>
      rw [inPhase] at onCourse
      have within : state.ReturnsWithin worker call _ :=
        ShutdownState.returnsWithin_of_drainingHandlers grace inPhase onCourse.1
      exact within.mono (by omega)
  | counting =>
      exact (ShutdownState.returnsWithin_of_counting inPhase).mono (by omega)
  | left exit => exact absurd inPhase (underWay exit)

/-! ### A handler that never returns -/

namespace LinuxClock

/-- The call on a worker with a handler at work, beside a task that has ended
and was not joined. -/
def calledWhileBusy : ShutdownState Unit :=
  { OneSlot.worker.justCalled .empty with
    worker :=
      { TwoReplicas.busy (TwoReplicas.job 1 ⟨1⟩ 11) with
        entries :=
          OneSlot.finished (OneSlot.job 1 ⟨7⟩ 1) ::
            (TwoReplicas.busy (TwoReplicas.job 1 ⟨1⟩ 11)).entries } }

end LinuxClock

theorem shutdown_needs_no_handler_while_busy :
    LinuxClock.calledWhileBusy.worker.entries.map (·.stage.unfinished) =
        [false, true] ∧
      LinuxClock.calledWhileBusy.ReturnsWithin OneSlot.worker
        LinuxClock.shortCall 14 := by
  refine ⟨rfl, ?_⟩
  have computed : LinuxClock.shortCall.deadline = some 10000 := rfl
  have underWay : ∀ exit, LinuxClock.calledWhileBusy.call ≠ .left exit := by
    intro exit left
    cases left
  exact shutdown_needs_no_handler computed ⟨0, 1000000000, rfl⟩ rfl rfl Run.refl
    underWay

end PgWorkQueue
