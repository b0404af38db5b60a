import PgWorkQueue.Library.Loop
import PgWorkQueue.System.Transitions

/-!
# `reaper_loop`

The loop waits on its ticker, sends a `reap`, and sends the next one at once
when the reply was a full batch.  A round is what happens between two visits of
the head of the loop; the rounds from one tick to the next wait on the ticker
form a loop of their own, which is the one followed here.

What a round meets is arbitrary: what other sessions wrote before it, the clock,
the locks they hold, and how the spawned task ends.  A task that does not run to
its end may have executed its statement or not.
-/

namespace PgWorkQueue

open Library.Loop

/-- `REAPER_PANIC_ESCALATION_THRESHOLD`. -/
def reaperPanicEscalationThreshold : Nat := 3

/-- `is_fatal_sqlx` on the errors of a statement. -/
def SqlError.isFatal : SqlError → Bool
  | columnDecode => true
  | failure => failure.sqlState.any fun code =>
      code.startsWith "42" || code.startsWith "0A" || code.startsWith "23" ||
        ["57P01", "57P02", "57P03"].contains code

/-! ## A round -/

/-- How the task of a round ends. -/
inductive TickFate where
  | completes
  /-- sqlx lost the connection, before the statement was executed or after. -/
  | breaks (executed fatal : Bool)
  | panics (executed : Bool)
  | aborted (executed : Bool)
  /-- The arm `cancelled()` came first; the loop aborted the task. -/
  | stopped (executed : Bool)

def TickFate.executes : TickFate → Bool
  | completes => true
  | breaks executed _ | panics executed | aborted executed
  | stopped executed => executed

structure TickSetting where
  others : Jobs → Jobs
  now : Int
  tie : Nat → Nat
  lockedElsewhere : Nat → Bool
  fate : TickFate

/-- The `outcome` of the `select!`. -/
inductive TickOutcome where
  | reaped (rows : List ReapedRow)
  | failed (fatal : Bool)
  | panicked
  | cancelled
  | stopped

/-- A `reap` that the database executed. -/
structure ReapStatement where
  before : Jobs
  after : Jobs

/-- The variables of the loop and what it writes to the shared state. -/
structure ReaperState where
  jobs : Jobs
  skipNextTick : Bool
  consecutivePanics : Nat
  shutdown : Bool
  lastFatal : Bool
  lastPanicEscalation : Option Nat
  statements : List ReapStatement
  events : List TransitionEvent

def TickSetting.reap (setting : TickSetting) (queue : String) (jobs : Jobs) :
    Except SqlError (Jobs × List ReapedRow) :=
  PgWorkQueue.reap (setting.others jobs) setting.now setting.tie
    setting.lockedElsewhere queue reaperBatchSize

def TickSetting.outcome (setting : TickSetting) (queue : String)
    (jobs : Jobs) : TickOutcome :=
  match setting.fate with
  | .completes =>
      match setting.reap queue jobs with
      | .ok (_, rows) => .reaped rows
      | .error failure => .failed failure.isFatal
  | .breaks _ fatal => .failed fatal
  | .panics _ => .panicked
  | .aborted _ => .cancelled
  | .stopped _ => .stopped

namespace ReaperState

/-- What the round does to the table. -/
def sendReap (state : ReaperState) (setting : TickSetting) (queue : String) :
    ReaperState :=
  let before := setting.others state.jobs
  let after :=
    match setting.reap queue state.jobs with
    | .ok (updated, _) => updated
    | .error _ => before
  if setting.fate.executes then
    { state with
      jobs := after
      statements := state.statements ++ [⟨before, after⟩] }
  else
    { state with jobs := before }

/-- The `match outcome` of the loop, and whether the loop returns. -/
def afterTick {T : Type} (state : ReaperState) (worker : StartedWorker T) :
    TickOutcome → ReaperState × Bool
  | .reaped rows =>
      ({ state with
          consecutivePanics := 0
          skipNextTick := decide (reaperBatchSize ≤ rows.length)
          events := state.events ++ rows.map (reaperEvent worker) }, false)
  | .failed true =>
      ({ state with lastFatal := true, shutdown := true }, true)
  | .failed false =>
      ({ state with consecutivePanics := 0 }, false)
  | .panicked =>
      let panics := min (state.consecutivePanics + 1) u32Max
      if reaperPanicEscalationThreshold ≤ panics then
        ({ state with
            consecutivePanics := panics
            lastPanicEscalation := state.lastPanicEscalation.or (some panics)
            shutdown := true }, true)
      else
        ({ state with consecutivePanics := panics }, false)
  | .cancelled | .stopped => (state, true)

end ReaperState

/-- Where the rounds after a tick come to rest. -/
inductive ReaperPause where
  | awaitsTick
  | returned
  deriving DecidableEq

/-- One round of `reaper_loop`, after the ticker or without it. -/
def reaperBody {T : Type} (worker : StartedWorker T)
    (settings : Nat → TickSetting) (index : Nat) (state : ReaperState) :
    Flow ReaperState (ReaperState × ReaperPause) :=
  let reset := { state with skipNextTick := false }
  let sent := reset.sendReap (settings index) worker.queue
  let (handled, returns) :=
    sent.afterTick worker ((settings index).outcome worker.queue state.jobs)
  if returns then .leave (handled, .returned)
  else if handled.skipNextTick then .next handled
  else .leave (handled, .awaitsTick)

/-- The rounds from a tick to the next wait on the ticker, at most `fuel` of
them. -/
def reaperBurst {T : Type} (worker : StartedWorker T)
    (settings : Nat → TickSetting) (fuel : Nat) (state : ReaperState) :
    Option (ReaperState × ReaperPause) :=
  run (reaperBody worker settings) fuel 0 state

/-! ## A backlog that nobody touches -/

def ReapStatement.changes (id : Nat) (statement : ReapStatement) : Bool :=
  decide (statement.after.find id ≠ statement.before.find id)

/-- The row is taken from its worker and keeps its `run_at`. -/
structure ReapStatement.Moves (statement : ReapStatement) (row : Row) :
    Prop where
  before : statement.before.find row.id = some row
  after : ∃ moved, statement.after.find row.id = some moved ∧
    moved.status =
      (if row.maxAttempts ≤ row.attempts then .dead else .awaitingRetry) ∧
    moved.runAt = row.runAt

/-- The change that the event of a reaped row reports. -/
def Row.reapChange (row : Row) : StatusChange where
  id := row.id
  fromStatus := some .running
  toStatus := if row.maxAttempts ≤ row.attempts then .dead else .awaitingRetry
  attempts := row.attempts

/-- The rows whose lease has expired when the ticker fires. -/
def ReaperState.backlog {T : Type} (worker : StartedWorker T) (tick : Int)
    (state : ReaperState) : List Row :=
  state.jobs.rows.filter (Row.stale worker.queue tick)

/-- From the tick on the tasks run to their end, every `reap` succeeds, the
backlog is left alone by others, and no lease outside of it expires. -/
structure Undisturbed {T : Type} (worker : StartedWorker T) (tick : Int)
    (settings : Nat → TickSetting) (start : ReaperState) : Prop where
  clock : ∀ index, tick ≤ (settings index).now
  completes : ∀ index, (settings index).fate = .completes
  untouched : ∀ index jobs, ∀ row ∈ start.backlog worker tick,
    ((settings index).others jobs).find row.id = jobs.find row.id
  unlocked : ∀ index, ∀ row ∈ start.backlog worker tick,
    (settings index).lockedElsewhere row.id = false
  noFurther : ∀ index state,
    Reaches (reaperBody worker settings) start index state →
    ∀ row ∈ ((settings index).others state.jobs).rows,
      row.stale worker.queue (settings index).now = true →
      row.id ∈ (start.backlog worker tick).map Row.id
  succeeds : ∀ index state,
    Reaches (reaperBody worker settings) start index state →
    ∃ reply, (settings index).reap worker.queue state.jobs = .ok reply

section Drain

variable {T : Type} {worker : StartedWorker T} {tick : Int}
  {settings : Nat → TickSetting} {start state : ReaperState} {index : Nat}
  {updated : Jobs} {rows : List ReapedRow} {sent : List ReapStatement}
  {emitted : List TransitionEvent}

/-- The state after a `reap` that returned `rows`. -/
def ReaperState.reaped (state : ReaperState) (worker : StartedWorker T)
    (before updated : Jobs) (rows : List ReapedRow) : ReaperState :=
  { state with
    jobs := updated
    skipNextTick := decide (reaperBatchSize ≤ rows.length)
    consecutivePanics := 0
    statements := state.statements ++ [⟨before, updated⟩]
    events := state.events ++ rows.map (reaperEvent worker) }

/-- A round whose `reap` succeeds goes on exactly after a full batch. -/
theorem reaperBody_of_reap
    (completes : (settings index).fate = .completes)
    (outcome : (settings index).reap worker.queue state.jobs =
      .ok (updated, rows)) :
    reaperBody worker settings index state =
      if reaperBatchSize ≤ rows.length then
        .next (state.reaped worker ((settings index).others state.jobs)
          updated rows)
      else
        .leave (state.reaped worker ((settings index).others state.jobs)
          updated rows, .awaitsTick) := by
  have answered : (settings index).outcome worker.queue state.jobs =
      .reaped rows := by
    simp only [TickSetting.outcome, completes, outcome]
  simp only [reaperBody, answered, ReaperState.sendReap, completes,
    TickFate.executes, outcome, ReaperState.afterTick, Bool.false_eq_true,
    if_false, if_true, decide_eq_true_eq]
  rfl

/-- How far the rounds since the tick have come: each row of the backlog is
either as it was or reported by an event, and then one statement moved it. -/
structure Draining (worker : StartedWorker T) (tick : Int)
    (start state : ReaperState) (sent : List ReapStatement)
    (emitted : List TransitionEvent) : Prop where
  statements : state.statements = start.statements ++ sent
  events : state.events = start.events ++ emitted
  distinct : (emitted.map TransitionEvent.jobId).Nodup
  reported : ∀ event ∈ emitted, ∃ row ∈ start.backlog worker tick,
    event.change = row.reapChange
  waiting : ∀ row ∈ start.backlog worker tick,
    row.id ∉ emitted.map TransitionEvent.jobId →
    state.jobs.find row.id = some row
  released : ∀ id ∈ emitted.map TransitionEvent.jobId,
    ∃ row, state.jobs.find id = some row ∧ row.status ≠ .running
  movedOnce : ∀ id, sent.countP (ReapStatement.changes id) =
    if id ∈ emitted.map TransitionEvent.jobId then 1 else 0
  moved : ∀ row ∈ start.backlog worker tick,
    row.id ∈ emitted.map TransitionEvent.jobId →
    ∃ statement ∈ sent, statement.Moves row

theorem draining_start : Draining worker tick start start [] [] where
  statements := (List.append_nil _).symm
  events := (List.append_nil _).symm
  distinct := List.nodup_nil
  reported := by simp
  waiting := fun row member _ =>
    Jobs.find_id_of_mem (List.mem_filter.mp member).1
  released := by simp
  movedOnce := by simp
  moved := by simp

theorem backlog_ids_nodup :
    ((start.backlog worker tick).map Row.id).Nodup :=
  start.jobs.distinct.sublist (List.filter_sublist.map Row.id)

theorem Draining.jobIds_subset
    (draining : Draining worker tick start state sent emitted) :
    emitted.map TransitionEvent.jobId ⊆
      (start.backlog worker tick).map Row.id := by
  intro id listed
  obtain ⟨event, member, rfl⟩ := List.mem_map.mp listed
  obtain ⟨row, inBacklog, change⟩ := draining.reported event member
  have sameId : event.jobId = row.id := congrArg StatusChange.id change
  rw [sameId]
  exact List.mem_map_of_mem inBacklog

/-- What a `reap` finds is what is left of the backlog. -/
theorem Draining.stale_iff
    (draining : Draining worker tick start state sent emitted)
    (quiet : Undisturbed worker tick settings start)
    (reached : Reaches (reaperBody worker settings) start index state)
    {row : Row} :
    row ∈ ((settings index).others state.jobs).rows ∧
        row.stale worker.queue (settings index).now = true ↔
      row ∈ start.backlog worker tick ∧
        row.id ∉ emitted.map TransitionEvent.jobId := by
  constructor
  · rintro ⟨stored, stale⟩
    obtain ⟨old, inBacklog, sameId⟩ :=
      List.mem_map.mp (quiet.noFurther index state reached row stored stale)
    have found := Jobs.find_id_of_mem stored
    rw [← sameId, quiet.untouched index _ old inBacklog] at found
    have notEmitted : old.id ∉ emitted.map TransitionEvent.jobId := by
      intro listed
      obtain ⟨new, foundNew, notRunning⟩ := draining.released _ listed
      rw [found] at foundNew
      cases foundNew
      exact notRunning (Row.stale_iff.mp stale).2.1
    rw [draining.waiting old inBacklog notEmitted] at found
    cases found
    exact ⟨inBacklog, notEmitted⟩
  · rintro ⟨inBacklog, notEmitted⟩
    have found := draining.waiting row inBacklog notEmitted
    rw [← quiet.untouched index _ row inBacklog] at found
    refine ⟨(Jobs.find_eq_some_iff.mp found).1, ?_⟩
    obtain ⟨sameQueue, running, expiry, hasExpiry, expired⟩ :=
      Row.stale_iff.mp (List.mem_filter.mp inBacklog).2
    exact Row.stale_iff.mpr ⟨sameQueue, running, expiry, hasExpiry,
      expired.trans_le (quiet.clock index)⟩

/-- The number of rows a `reap` finds. -/
theorem Draining.length_stale
    (draining : Draining worker tick start state sent emitted)
    (quiet : Undisturbed worker tick settings start)
    (reached : Reaches (reaperBody worker settings) start index state) :
    (((settings index).others state.jobs).rows.filter
        (Row.stale worker.queue (settings index).now)).length +
      emitted.length = (start.backlog worker tick).length := by
  have left : (((settings index).others state.jobs).rows.filter
      (Row.stale worker.queue (settings index).now)).Perm
      ((start.backlog worker tick).filter fun row =>
        !(emitted.map TransitionEvent.jobId).contains row.id) := by
    rw [List.perm_ext_iff_of_nodup]
    · intro row
      rw [List.mem_filter, draining.stale_iff quiet reached, List.mem_filter]
      simp
    · exact List.Nodup.of_map Row.id (((settings index).others
        state.jobs).distinct.sublist (List.filter_sublist.map Row.id))
    · exact List.Nodup.of_map Row.id
        (backlog_ids_nodup.sublist (List.filter_sublist.map Row.id))
  have counted := Library.KeyedRows.length_filter_add_length
    backlog_ids_nodup draining.distinct draining.jobIds_subset
  rw [List.length_map] at counted
  rw [left.length_eq]
  exact counted

/-- The rows that the CTE of a round locks. -/
def TickSetting.stale (setting : TickSetting) (queue : String) (jobs : Jobs) :
    List Row :=
  staleCte (setting.others jobs) setting.now setting.tie
    setting.lockedElsewhere queue (min reaperBatchSize i32Max)

/-- A `reap` writes the rows of its CTE and no other. -/
theorem changes_reap {setting : TickSetting} {queue : String} {jobs : Jobs}
    (outcome : setting.reap queue jobs = .ok (updated, rows)) (id : Nat) :
    ReapStatement.changes id ⟨setting.others jobs, updated⟩ =
      decide (id ∈ (setting.stale queue jobs).map Row.id) := by
  obtain ⟨eachStale, others, _, _⟩ := reap_spec outcome
  rw [ReapStatement.changes, decide_eq_decide]
  constructor
  · intro changed
    by_contra notListed
    exact changed (others id notListed)
  · intro listed
    obtain ⟨row, member, rfl⟩ := List.mem_map.mp listed
    obtain ⟨stored, stale⟩ := mem_of_mem_staleCte member
    rw [(eachStale row member).2, Jobs.find_id_of_mem stored]
    intro same
    have sameStatus := congrArg Row.status (Option.some.inj same)
    rw [(Row.stale_iff.mp stale).2.1] at sameStatus
    exact reapedRow_status_ne_running _ row sameStatus

theorem moves_reap {setting : TickSetting} {queue : String} {jobs : Jobs}
    (outcome : setting.reap queue jobs = .ok (updated, rows)) {row : Row}
    (member : row ∈ setting.stale queue jobs) :
    (⟨setting.others jobs, updated⟩ : ReapStatement).Moves row := by
  obtain ⟨eachStale, _, _, _⟩ := reap_spec outcome
  refine ⟨Jobs.find_id_of_mem (mem_of_mem_staleCte member).1, _,
    (eachStale row member).2, ?_, rfl⟩
  rw [reapedRow_status]
  simp [Row.exhausted]

theorem change_of_mem_reap {setting : TickSetting} {queue : String}
    {jobs : Jobs} (outcome : setting.reap queue jobs = .ok (updated, rows))
    {event : TransitionEvent}
    (member : event ∈ rows.map (reaperEvent worker)) :
    ∃ row ∈ setting.stale queue jobs, event.change = row.reapChange := by
  obtain ⟨eachStale, _, _, returned⟩ := reap_spec outcome
  rw [returned, List.map_map] at member
  obtain ⟨row, inStale, rfl⟩ := List.mem_map.mp member
  refine ⟨row, inStale, ?_⟩
  rw [Function.comp_apply,
    change_reaperEvent worker (eachStale row inStale).1, reapedRow_status]
  simp [Row.reapChange, Row.exhausted, reapedRow, reapedVersion, setUpdatedAt]

/-- A row of the backlog that the CTE leaves out is as it was. -/
theorem Undisturbed.find_of_not_stale
    (quiet : Undisturbed worker tick settings start)
    (outcome : (settings index).reap worker.queue state.jobs =
      .ok (updated, rows)) {id : Nat}
    (inBacklog : id ∈ (start.backlog worker tick).map Row.id)
    (notListed : id ∉
      ((settings index).stale worker.queue state.jobs).map Row.id) :
    updated.find id = state.jobs.find id := by
  obtain ⟨row, member, rfl⟩ := List.mem_map.mp inBacklog
  obtain ⟨_, others, _, _⟩ := reap_spec outcome
  exact (others row.id notListed).trans
    (quiet.untouched index state.jobs row member)

section Round

variable (draining : Draining worker tick start state sent emitted)
  (quiet : Undisturbed worker tick settings start)
  (reached : Reaches (reaperBody worker settings) start index state)
  (outcome : (settings index).reap worker.queue state.jobs =
    .ok (updated, rows))

include draining quiet reached

theorem Draining.of_mem_stale {row : Row}
    (member : row ∈ (settings index).stale worker.queue state.jobs) :
    row ∈ start.backlog worker tick ∧
      row.id ∉ emitted.map TransitionEvent.jobId :=
  (draining.stale_iff quiet reached).mp (mem_of_mem_staleCte member)

include outcome

/-- A round takes a full batch, or all that is left. -/
theorem Draining.length_reap :
    rows.length = min reaperBatchSize
      ((start.backlog worker tick).length - emitted.length) := by
  have found := draining.length_stale quiet reached
  obtain ⟨_, _, _, returned⟩ := reap_spec outcome
  have free : ∀ row ∈ ((settings index).others state.jobs).rows.filter
      (Row.stale worker.queue (settings index).now),
      (settings index).lockedElsewhere row.id = false := by
    intro row member
    obtain ⟨inBacklog, _⟩ :=
      (draining.stale_iff quiet reached).mp (List.mem_filter.mp member)
    exact quiet.unlocked index row inBacklog
  have batch : min reaperBatchSize i32Max = reaperBatchSize := by decide
  rw [returned, List.length_map, staleCte, length_lockByTime free, batch]
  omega

/-- No row is moved a second time. -/
theorem Draining.movedOnce_after (id : Nat) :
    List.countP (ReapStatement.changes id)
        (sent ++ [⟨(settings index).others state.jobs, updated⟩]) =
      if id ∈ emitted.map TransitionEvent.jobId ++
          ((settings index).stale worker.queue state.jobs).map Row.id
        then 1 else 0 := by
  rw [List.countP_append, draining.movedOnce id, List.countP_singleton,
    changes_reap outcome id]
  by_cases listed : id ∈
      ((settings index).stale worker.queue state.jobs).map Row.id
  · obtain ⟨row, member, rfl⟩ := List.mem_map.mp listed
    have fresh := (draining.of_mem_stale quiet reached member).2
    simp [listed, fresh]
  · simp [listed]

theorem Draining.after :
    Draining worker tick start
      (state.reaped worker ((settings index).others state.jobs) updated rows)
      (sent ++ [⟨(settings index).others state.jobs, updated⟩])
      (emitted ++ rows.map (reaperEvent worker)) := by
  have ids : (emitted ++ rows.map (reaperEvent worker)).map
      TransitionEvent.jobId = emitted.map TransitionEvent.jobId ++
        ((settings index).stale worker.queue state.jobs).map Row.id := by
    rw [List.map_append, jobIds_reaperEvents worker outcome]
    rfl
  refine
    { statements := ?_, events := ?_, distinct := ?_, reported := ?_,
      waiting := ?_, released := ?_, movedOnce := ?_, moved := ?_ }
  · rw [ReaperState.reaped, draining.statements, List.append_assoc]
  · rw [ReaperState.reaped, draining.events, List.append_assoc]
  · rw [ids]
    refine List.nodup_append'.mpr
      ⟨draining.distinct, staleCte_ids_nodup, ?_⟩
    intro id earlier listed
    obtain ⟨row, member, rfl⟩ := List.mem_map.mp listed
    exact (draining.of_mem_stale quiet reached member).2 earlier
  · intro event member
    rcases List.mem_append.mp member with earlier | new
    · exact draining.reported event earlier
    · obtain ⟨row, inStale, change⟩ := change_of_mem_reap outcome new
      exact ⟨row, (draining.of_mem_stale quiet reached inStale).1, change⟩
  · intro row inBacklog notEmitted
    rw [ids, List.mem_append, not_or] at notEmitted
    exact (quiet.find_of_not_stale outcome
      (List.mem_map_of_mem inBacklog) notEmitted.2).trans
        (draining.waiting row inBacklog notEmitted.1)
  · intro id listed
    rw [ids, List.mem_append] at listed
    by_cases inStale : id ∈
        ((settings index).stale worker.queue state.jobs).map Row.id
    · obtain ⟨row, member, rfl⟩ := List.mem_map.mp inStale
      obtain ⟨eachStale, _, _, _⟩ := reap_spec outcome
      exact ⟨_, (eachStale row member).2, reapedRow_status_ne_running _ row⟩
    · have earlier := listed.resolve_right inStale
      obtain ⟨row, found, notRunning⟩ := draining.released id earlier
      exact ⟨row, (quiet.find_of_not_stale outcome
        (draining.jobIds_subset earlier) inStale).trans found, notRunning⟩
  · intro id
    rw [ids]
    exact draining.movedOnce_after quiet reached outcome id
  · intro row inBacklog listed
    rw [ids, List.mem_append] at listed
    rcases listed with earlier | new
    · obtain ⟨statement, member, moves⟩ := draining.moved row inBacklog earlier
      exact ⟨statement, List.mem_append_left _ member, moves⟩
    · obtain ⟨taken, inStale, sameId⟩ := List.mem_map.mp new
      have wasThere := (draining.of_mem_stale quiet reached inStale).1
      have same : taken = row := Jobs.eq_of_id_eq
        (List.mem_filter.mp wasThere).1 (List.mem_filter.mp inBacklog).1 sameId
      subst same
      exact ⟨_, List.mem_append_right _ List.mem_cons_self,
        moves_reap outcome inStale⟩

end Round

/-! ## From the tick to the next wait -/

/-- What the rounds from a tick to the next wait have done. -/
structure DrainedOnce (worker : StartedWorker T) (tick : Int)
    (start final : ReaperState) (sent : List ReapStatement)
    (emitted : List TransitionEvent) : Prop where
  statements : final.statements = start.statements ++ sent
  statementCount : sent.length =
    (start.backlog worker tick).length / reaperBatchSize + 1
  movedOnce : ∀ row ∈ start.backlog worker tick,
    sent.countP (ReapStatement.changes row.id) = 1 ∧
      ∃ statement ∈ sent, statement.Moves row
  othersUntouched : ∀ id, id ∉ (start.backlog worker tick).map Row.id →
    ∀ statement ∈ sent, statement.after.find id = statement.before.find id
  events : final.events = start.events ++ emitted
  oneEventEach : (emitted.map TransitionEvent.jobId).Perm
    ((start.backlog worker tick).map Row.id)
  reported : ∀ event ∈ emitted, ∃ row ∈ start.backlog worker tick,
    event.change = row.reapChange

/-- A round that goes on has taken a full batch. -/
theorem Undisturbed.of_next {following : ReaperState}
    (quiet : Undisturbed worker tick settings start)
    (reached : Reaches (reaperBody worker settings) start index state)
    (goesOn : reaperBody worker settings index state = .next following) :
    ∃ updated rows,
      (settings index).reap worker.queue state.jobs = .ok (updated, rows) ∧
        reaperBatchSize ≤ rows.length ∧
        following = state.reaped worker ((settings index).others state.jobs)
          updated rows := by
  obtain ⟨⟨updated, rows⟩, outcome⟩ := quiet.succeeds index state reached
  rw [reaperBody_of_reap (quiet.completes index) outcome] at goesOn
  by_cases full : reaperBatchSize ≤ rows.length
  · rw [if_pos full] at goesOn
    cases goesOn
    exact ⟨updated, rows, outcome, full, rfl⟩
  · rw [if_neg full] at goesOn
    cases goesOn

/-- The rounds so far have each taken a full batch. -/
theorem Undisturbed.draining
    (quiet : Undisturbed worker tick settings start)
    (reached : Reaches (reaperBody worker settings) start index state) :
    ∃ sent emitted, Draining worker tick start state sent emitted ∧
      sent.length = index ∧ emitted.length = reaperBatchSize * index := by
  refine reached.invariant (fun index state => ∃ sent emitted,
    Draining worker tick start state sent emitted ∧ sent.length = index ∧
      emitted.length = reaperBatchSize * index)
    ⟨[], [], draining_start, rfl, rfl⟩ ?_
  rintro index state following reached
    ⟨sent, emitted, draining, sentCount, emittedCount⟩ goesOn
  obtain ⟨updated, rows, outcome, full, rfl⟩ := quiet.of_next reached goesOn
  have size := draining.length_reap quiet reached outcome
  refine ⟨_, _, draining.after quiet reached outcome, ?_, ?_⟩
  · rw [List.length_append, sentCount]
    rfl
  · rw [List.length_append, List.length_map, emittedCount, Nat.mul_succ]
    omega

/-- The rounds come to an end: those that go on emit a batch of events each. -/
theorem Undisturbed.leaves
    (quiet : Undisturbed worker tick settings start) :
    ∃ last state result,
      Reaches (reaperBody worker settings) start last state ∧
        reaperBody worker settings last state = .leave result := by
  apply exists_leaves fun state =>
    start.events.length + (start.backlog worker tick).length -
      state.events.length
  intro index state following reached goesOn
  obtain ⟨sent, emitted, draining, _, _⟩ := quiet.draining reached
  obtain ⟨updated, rows, outcome, full, rfl⟩ := quiet.of_next reached goesOn
  have size := draining.length_reap quiet reached outcome
  have positive : 0 < reaperBatchSize := by decide
  have before := congrArg List.length draining.events
  have after := congrArg List.length
    (draining.after quiet reached outcome).events
  simp only [List.length_append, List.length_map] at before after
  omega

theorem Draining.drainedOnce {final : ReaperState}
    (draining : Draining worker tick start final sent emitted)
    (sentCount : sent.length =
      (start.backlog worker tick).length / reaperBatchSize + 1)
    (complete : emitted.length = (start.backlog worker tick).length) :
    DrainedOnce worker tick start final sent emitted := by
  have each : (emitted.map TransitionEvent.jobId).Perm
      ((start.backlog worker tick).map Row.id) := by
    apply (List.subperm_of_subset draining.distinct
      draining.jobIds_subset).perm_of_length_le
    rw [List.length_map, List.length_map, complete]
  refine ⟨draining.statements, sentCount, ?_, ?_, draining.events, each,
    draining.reported⟩
  · intro row inBacklog
    have listed := each.mem_iff.mpr (List.mem_map_of_mem inBacklog)
    exact ⟨(draining.movedOnce row.id).trans (if_pos listed),
      draining.moved row inBacklog listed⟩
  · intro id outside statement member
    have notListed := mt each.mem_iff.mp outside
    have none := (draining.movedOnce id).trans (if_neg notListed)
    have unchanged := List.countP_eq_zero.mp none statement member
    simpa [ReapStatement.changes] using unchanged

/-- From a tick on, a backlog that nobody else touches is drained without a
pause: one statement for each full batch and one more, every row of the backlog
moved and reported once, and nothing else written. -/
theorem reaper_drains_backlog_without_pause
    (worker : StartedWorker T) (tick : Int) (settings : Nat → TickSetting)
    (start : ReaperState) (quiet : Undisturbed worker tick settings start) :
    ∃ final sent emitted,
      (∀ fuel < (start.backlog worker tick).length / reaperBatchSize + 1,
        reaperBurst worker settings fuel start = none) ∧
      (∀ fuel ≥ (start.backlog worker tick).length / reaperBatchSize + 1,
        reaperBurst worker settings fuel start =
          some (final, .awaitsTick)) ∧
      DrainedOnce worker tick start final sent emitted := by
  obtain ⟨last, state, result, reached, leaves⟩ := quiet.leaves
  obtain ⟨sent, emitted, draining, sentCount, emittedCount⟩ :=
    quiet.draining reached
  obtain ⟨⟨updated, rows⟩, outcome⟩ := quiet.succeeds last state reached
  have decided := reaperBody_of_reap (quiet.completes last) outcome
  have size := draining.length_reap quiet reached outcome
  have within := draining.length_stale quiet reached
  have notFull : ¬ reaperBatchSize ≤ rows.length := by
    intro full
    rw [decided, if_pos full] at leaves
    cases leaves
  rw [if_neg notFull] at decided
  have batch : reaperBatchSize = 1024 := rfl
  have lastRound : (start.backlog worker tick).length / reaperBatchSize =
      last := by
    rw [batch] at notFull emittedCount size ⊢
    omega
  obtain ⟨unfinished, finished⟩ := reached.run_of_leaves decided
  refine ⟨_, _, _, ?_, ?_,
    (draining.after quiet reached outcome).drainedOnce ?_ ?_⟩
  · intro fuel few
    exact unfinished fuel (by omega)
  · intro fuel enough
    exact finished fuel (by omega)
  · rw [List.length_append, sentCount, lastRound]
    rfl
  · rw [List.length_append, List.length_map]
    omega

end Drain

/-! ### A full batch of expired leases -/

namespace ExpiredLeases

def row (id : Nat) : Row where
  id := id
  publicId := ⟨id⟩
  queue := OneSlot.worker.queue
  payload := []
  status := .running
  attempts := 1
  maxAttempts := 3
  leaseToken := some ⟨id⟩
  leaseExpiresAt := some 11
  lastError := none
  lastAttemptedAt := some 1
  firstAttemptedAt := some 1
  finishedAt := none
  runAt := 0
  createdAt := 0
  updatedAt := 1
  concurrencyKey := none

def rows (count : Nat) : List Row := (List.range count).map row

theorem ids_rows (count : Nat) :
    (rows count).map Row.id = List.range count := by
  rw [rows, List.map_map]
  exact List.map_id _

theorem distinct_rows (count : Nat) : ((rows count).map Row.id).Nodup := by
  rw [ids_rows]
  exact List.nodup_range

theorem drawn_rows (count : Nat) : ∀ row ∈ rows count, row.id < count := by
  intro row listed
  have isId := List.mem_map_of_mem (f := Row.id) listed
  rw [ids_rows] at isId
  exact List.mem_range.mp isId

def start (count : Nat) : ReaperState where
  jobs := ⟨rows count, count, distinct_rows count, drawn_rows count⟩
  skipNextTick := false
  consecutivePanics := 0
  shutdown := false
  lastFatal := false
  lastPanicEscalation := none
  statements := []
  events := []

def settings (_ : Nat) : TickSetting where
  others := id
  now := 20
  tie := id
  lockedElsewhere := fun _ => false
  fate := .completes

theorem backlog_start (count : Nat) :
    (start count).backlog OneSlot.worker 20 = rows count := by
  apply List.filter_eq_self.mpr
  intro stored listed
  obtain ⟨id, _, rfl⟩ := List.mem_map.mp listed
  rfl

/-- Every row that runs is one of the rows. -/
def Backlogged (count : Nat) (jobs : Jobs) : Prop :=
  ∀ stored ∈ jobs.rows, stored.status = .running → stored ∈ rows count

theorem passesChecks_reapedRow (id : Nat) :
    (reapedRow 20 (row id)).PassesChecks :=
  -- no CHECK reads the `id` or the token
  have passes : (reapedRow 20 (row 0)).PassesChecks := by decide
  passes

theorem reap_succeeds {count : Nat} {jobs : Jobs} (index : Nat)
    (backlogged : Backlogged count jobs) :
    ∃ reply, (settings index).reap OneSlot.worker.queue jobs = .ok reply := by
  cases outcome : (settings index).reap OneSlot.worker.queue jobs with
  | ok reply => exact ⟨reply, rfl⟩
  | error failure =>
      rcases reap_eq_error outcome with ⟨nul, _⟩ | ⟨stored, listed, stale, bad⟩
      · exact absurd nul (by decide)
      · have running := (Row.stale_iff.mp stale).2.1
        obtain ⟨id, _, rfl⟩ := List.mem_map.mp (backlogged _ listed running)
        exact absurd (passesChecks_reapedRow id) bad

/-- The rows that a `reap` leaves running were there before. -/
theorem Backlogged.reap {count : Nat} {jobs updated : Jobs}
    {reaped : List ReapedRow} (backlogged : Backlogged count jobs)
    (index : Nat) (outcome : (settings index).reap OneSlot.worker.queue jobs =
      .ok (updated, reaped)) : Backlogged count updated := by
  obtain ⟨moved, others, _, _⟩ := reap_spec outcome
  intro stored listed running
  have found := Jobs.find_id_of_mem listed
  by_cases taken : stored.id ∈ (staleCte jobs 20 id (fun _ => false)
      OneSlot.worker.queue (min reaperBatchSize i32Max)).map Row.id
  · obtain ⟨old, inStale, sameId⟩ := List.mem_map.mp taken
    have after := (moved old inStale).2
    rw [sameId, found, Option.some.injEq] at after
    have released : (reapedRow 20 old).status ≠ .running := by
      simp only [reapedRow, setUpdatedAt, reapedVersion]
      split <;> decide
    exact absurd (after ▸ running) released
  · rw [others stored.id taken] at found
    exact backlogged stored (Jobs.find_eq_some_iff.mp found).1 running

theorem backlogged_of_reaches {count index : Nat} {state : ReaperState}
    (reached : Reaches (reaperBody OneSlot.worker settings) (start count)
      index state) : Backlogged count state.jobs := by
  refine reached.invariant (fun _ state => Backlogged count state.jobs)
    (fun stored listed _ => listed) ?_
  intro index state following _ backlogged goesOn
  obtain ⟨⟨updated, reaped⟩, outcome⟩ := reap_succeeds index backlogged
  rw [reaperBody_of_reap rfl outcome] at goesOn
  split at goesOn
  · cases goesOn
    exact backlogged.reap index outcome
  · cases goesOn

theorem undisturbed (count : Nat) :
    Undisturbed OneSlot.worker 20 settings (start count) where
  clock := fun _ => Int.le_refl 20
  completes := fun _ => rfl
  untouched := fun _ _ _ _ => rfl
  unlocked := fun _ _ _ => rfl
  noFurther := by
    intro index state reached stored listed stale
    rw [backlog_start]
    have running := (Row.stale_iff.mp stale).2.1
    exact List.mem_map_of_mem
      (backlogged_of_reaches reached stored listed running)
  succeeds := fun index state reached =>
    reap_succeeds index (backlogged_of_reaches reached)

end ExpiredLeases

/-- The first statement takes a full batch, so that a second one follows at
once; it finds nothing. -/
theorem reaper_drains_full_batch :
    ((ExpiredLeases.start 1024).backlog OneSlot.worker 20).length = 1024 ∧
      ∃ final sent emitted,
        (∀ fuel < 2, reaperBurst OneSlot.worker ExpiredLeases.settings fuel
          (ExpiredLeases.start 1024) = none) ∧
        (∀ fuel ≥ 2, reaperBurst OneSlot.worker ExpiredLeases.settings fuel
          (ExpiredLeases.start 1024) = some (final, .awaitsTick)) ∧
        DrainedOnce OneSlot.worker 20 (ExpiredLeases.start 1024) final sent
          emitted := by
  have size : ((ExpiredLeases.start 1024).backlog OneSlot.worker 20).length =
      1024 := by
    rw [ExpiredLeases.backlog_start, ExpiredLeases.rows, List.length_map,
      List.length_range]
  have drained := reaper_drains_backlog_without_pause OneSlot.worker 20
    ExpiredLeases.settings (ExpiredLeases.start 1024)
    (ExpiredLeases.undisturbed 1024)
  rw [size] at drained
  exact ⟨size, drained⟩

end PgWorkQueue
