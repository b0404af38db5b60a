import PgWorkQueue.Client.TaskSet
import PgWorkQueue.System.Burial
import PgWorkQueue.System.Counting
import PgWorkQueue.System.MarkOrder

/-!
# Transition events

A worker changes the status of rows at four sites: the claim, the mark after a
handler, the `mark_dead` of a payload that does not decode, and the reaper.
The `flip_*` functions and the reaper emit an event for each row they moved.
`claim_and_decode` emits none, neither for the rows it claims nor for those it
buries.

The process is followed together with the table.  Statements of others, and
statements of the worker whose result it did not see, are executed as well;
they emit nothing and nothing is expected of them.
-/

namespace PgWorkQueue

open Library.Runs

/-! ## Changes and events -/

/-- A row went from one status to another. -/
structure StatusChange where
  id : Nat
  fromStatus : Option JobStatus
  toStatus : JobStatus
  attempts : Int
  deriving DecidableEq

/-- The change that an event reports. -/
def TransitionEvent.change (event : TransitionEvent) : StatusChange where
  id := event.jobId
  fromStatus := event.statusFrom
  toStatus := event.statusTo
  attempts := event.attempts

/-- What happened to the status of a row. -/
def changeOf (before after : Jobs) (id : Nat) : Option StatusChange :=
  match before.find id, after.find id with
  | some row, some new =>
      if row.status = new.status then none
      else some ⟨id, some row.status, new.status, new.attempts⟩
  | _, _ => none

/-- The event that `reaper_loop` emits for a row. -/
def reaperEvent {T : Type} (worker : StartedWorker T) (row : ReapedRow) :
    TransitionEvent :=
  let routed : JobStatus × String :=
    if row.status = .dead then (.dead, "lease_expired_max_attempts")
    else (.awaitingRetry, "lease_expired")
  emitTransition (some .running) routed.1 (some worker.workerId)
    { jobId := row.id
      publicId := row.publicId
      queue := worker.queue
      attempts := row.attempts
      source := .reaper
      reason := some routed.2
      lostRace := false }

/-- The rows that `reap` returns. -/
def Reply.reapedRows : Reply → List ReapedRow
  | reaped rows => rows
  | _ => []

/-! ## The process -/

/-- A statement, with the site of the worker that issued it and saw its
result.  `unobserved` stands for the statements of others and for those of the
worker whose result nobody looks at: a mark whose answer was lost or came after
its timeout, a claim that the loop no longer waits for, and a `reap` that the
arm `cancelled()` of `reaper_loop` drops together with its task. -/
inductive Site (T : Type) where
  | claim (want : Nat) (headroom : HashMap Nat) (gen : Nat → Uuid)
      (lockedElsewhere : Nat → Bool)
  | handlerMark (job : Job T) (mark : Mark)
  | decodeMark (raw : RawClaimedRow) (reason : String)
  | reap (tie : Nat → Nat) (lockedElsewhere : Nat → Bool)
  | unobserved (statement : Statement T)

namespace Site

variable {T : Type}

def statement (worker : StartedWorker T) : Site T → Statement T
  | claim want headroom gen lockedElsewhere =>
      .claim (worker.toWorker.claimParams want headroom) gen lockedElsewhere
  | handlerMark job mark => .mark job.id job.leaseToken mark
  | decodeMark raw reason => .mark raw.id raw.leaseToken (.dead reason)
  | reap tie lockedElsewhere =>
      .reap worker.queue reaperBatchSize tie lockedElsewhere
  | unobserved statement => statement

/-- The calls of `emit_transition` that follow a statement. -/
def emits (worker : StartedWorker T) (reply : Reply) :
    Site T → List TransitionEvent
  | handlerMark job mark =>
      (mark.flipState worker.workerId job .zero (some reply.markResult)).2
  | reap _ _ => reply.reapedRows.map (reaperEvent worker)
  -- `claim_and_decode` logs, but calls `emit_transition` nowhere.
  | claim _ _ _ _ | decodeMark _ _ => []
  | unobserved _ => []

def observed : Site T → Bool
  | unobserved _ => false
  | _ => true

theorem exists_of_not_observed {site : Site T}
    (unseen : site.observed = false) :
    ∃ statement, site = .unobserved statement := by
  cases site with
  | unobserved statement => exact ⟨statement, rfl⟩
  | _ => cases unseen

/-- The sites of a worker issue marks for rows it was handed by a claim. -/
inductive Issued (worker : StartedWorker T) (db : DbState) : Site T → Prop
  | claim (want : Nat) (headroom : HashMap Nat) (gen : Nat → Uuid)
      (lockedElsewhere : Nat → Bool) :
      Issued worker db (.claim want headroom gen lockedElsewhere)
  | handlerMark (raw : RawClaimedRow) (job : Job T) (config : RetryConfig)
      (outcome : HandlerOutcome) (mark : Mark)
      (member : raw ∈ db.returned)
      (decoded : decodeRow worker.codec raw = .ok job)
      (issued : handleJob config worker.panicPolicy job.attempts
        job.maxAttempts outcome = some mark) :
      Issued worker db (.handlerMark job mark)
  | decodeMark (raw : RawClaimedRow) (reason : String)
      (member : raw ∈ db.returned)
      (refused : decodeRow worker.codec raw = .error reason) :
      Issued worker db (.decodeMark raw reason)
  | reap (tie : Nat → Nat) (lockedElsewhere : Nat → Bool) :
      Issued worker db (.reap tie lockedElsewhere)
  | unobserved (statement : Statement T) :
      Issued worker db (.unobserved statement)

end Site

/-- A statement is executed at an instant. -/
structure Observation (T : Type) where
  now : Int
  site : Site T

/-- The table, the events emitted so far, and the statuses of the rows as far
as the process has seen them change. -/
structure ProcessState where
  db : DbState
  events : List TransitionEvent
  seen : Nat → Option JobStatus

namespace ProcessState

variable {T : Type}

def initial (clock : Int) (statuses : Nat → Option JobStatus) :
    ProcessState where
  db := .initial clock
  events := []
  seen := statuses

def event (worker : StartedWorker T) (observation : Observation T) :
    Event T where
  now := observation.now
  statement := observation.site.statement worker

/-- What the process has seen after a statement. -/
def see (state : ProcessState) (after : Jobs) (site : Site T) (id : Nat) :
    Option JobStatus :=
  if site.observed then
    match changeOf state.db.jobs after id with
    | some change => some change.toStatus
    | none => state.seen id
  else state.seen id

def after (worker : StartedWorker T) (state : ProcessState)
    (observation : Observation T) : ProcessState where
  db := state.db.after (event worker observation)
  events := state.events ++
    observation.site.emits worker (state.db.reply (event worker observation))
  seen := state.see (state.db.after (event worker observation)).jobs
    observation.site

def Step (worker : StartedWorker T) (state : ProcessState)
    (observation : Observation T) (next : ProcessState) : Prop :=
  observation.site.Issued worker state.db ∧
    state.db.Admissible (event worker observation) ∧
    next = state.after worker observation

end ProcessState

/-! ## What each statement changes -/

section Changes

variable {T : Type} {jobs updated : Jobs} {now : Int} {id : Nat} {row : Row}

theorem changeOf_of_same (same : updated.find id = jobs.find id) :
    changeOf jobs updated id = none := by
  unfold changeOf
  rw [same]
  cases jobs.find id with
  | none => rfl
  | some row => exact if_pos rfl

theorem changeOf_of_moved {new : Row} (before : jobs.find id = some row)
    (after : updated.find id = some new) (moved : row.status ≠ new.status) :
    changeOf jobs updated id =
      some ⟨id, some row.status, new.status, new.attempts⟩ := by
  unfold changeOf
  rw [before, after]
  exact if_neg moved

/-- A mark moves its row, and answers so, or it moves none. -/
theorem changeOf_mark (jobs : Jobs) (now : Int) (id : Nat) (token : Uuid)
    (mark : Mark) :
    let sent := execute (T := T) jobs now (.mark id token mark)
    (sent.2.markResult ≠ .affected 1 ∧ ∀ other,
        changeOf jobs sent.1 other = none) ∨
      sent.2.markResult = .affected 1 ∧
        (∃ row, jobs.find id = some row ∧ row.status = .running ∧
          row.leaseToken = some token ∧
          changeOf jobs sent.1 id =
            some ⟨id, some .running, mark.status, row.attempts⟩) ∧
        ∀ other, other ≠ id → changeOf jobs sent.1 other = none := by
  intro sent
  cases outcome : mark.execute jobs now id token with
  | error failure =>
      have refused : sent = (jobs, .failed failure) := by
        simp only [sent, execute, outcome, commitOr]
      rw [refused]
      exact Or.inl ⟨MarkResult.noConfusion, fun other => changeOf_of_same rfl⟩
  | ok reply =>
      have answered : sent = (reply.1, .affected reply.2) := by
        simp only [sent, execute, outcome, commitOr]
      rw [answered]
      rcases Mark.execute_spec outcome with ⟨_, unchanged, none⟩ |
        ⟨row, found, running, held, one, _, _, stored, others⟩
      · refine Or.inl ⟨?_, fun other => changeOf_of_same ?_⟩
        · intro one
          rw [none] at one
          cases one
        · rw [unchanged]
      · refine Or.inr ⟨?_, ⟨row, found, running, held, ?_⟩, ?_⟩
        · rw [one]
          rfl
        · have moved : row.status ≠ (mark.markedRow now row).status := by
            rw [running, Mark.markedRow_status]
            exact mark.status_ne_running.symm
          rw [changeOf_of_moved found stored moved, running,
            Mark.markedRow_status]
          cases mark <;> rfl
        · exact fun other differs => changeOf_of_same (others other differs)

/-- A claim moves the rows it hands out to `running` and no other row. -/
theorem changeOf_claim (jobs : Jobs) (now : Int) (params : ClaimParams)
    (gen : Nat → Uuid) (lockedElsewhere : Nat → Bool) (id : Nat) :
    let sent := execute (T := T) jobs now (.claim params gen lockedElsewhere)
    (id ∈ sent.2.claimedRows.map RawClaimedRow.id ∧
        ∃ change, changeOf jobs sent.1 id = some change ∧
          change.toStatus = .running) ∨
      id ∉ sent.2.claimedRows.map RawClaimedRow.id ∧
        changeOf jobs sent.1 id = none := by
  intro sent
  by_cases handedOut : id ∈ sent.2.claimedRows.map RawClaimedRow.id
  · obtain ⟨raw, member, rfl⟩ := List.mem_map.mp handedOut
    obtain ⟨_, _, _, row, _, _, found, runnable, _, _, stored⟩ :=
      (claimedRows_spec jobs now
        (Statement.claim (T := T) params gen lockedElsewhere)).2 raw member
    exact Or.inl ⟨handedOut, _, changeOf_of_moved found stored
      (Row.status_ne_running_of_runnable runnable), rfl⟩
  · refine Or.inr ⟨handedOut, ?_⟩
    have effect := execute_effect jobs now
      (Statement.claim (T := T) params gen lockedElsewhere) id
    cases effect with
    | same _ unchanged => exact changeOf_of_same unchanged
    | inserted _ _ inserts => cases inserts
    | claimed _ _ _ row _ before _ _ _ returned _ =>
        have rowId : row.id = id := Jobs.id_of_find before
        exact absurd (rowId ▸ List.mem_map_of_mem returned) handedOut

/-- A claim changes a status exactly when it hands out a row. -/
theorem changeOf_claim_iff (jobs : Jobs) (now : Int) (params : ClaimParams)
    (gen : Nat → Uuid) (lockedElsewhere : Nat → Bool) :
    let sent := execute (T := T) jobs now (.claim params gen lockedElsewhere)
    (∀ id, changeOf jobs sent.1 id = none) ↔ sent.2.claimedRows = [] := by
  intro sent
  constructor
  · intro unchanged
    rw [List.eq_nil_iff_forall_not_mem]
    intro raw member
    rcases changeOf_claim (T := T) jobs now params gen lockedElsewhere raw.id
      with ⟨_, change, changed, _⟩ | ⟨notListed, _⟩
    · rw [unchanged raw.id] at changed
      cases changed
    · exact notListed (List.mem_map_of_mem member)
  · intro none id
    rcases changeOf_claim (T := T) jobs now params gen lockedElsewhere id
      with ⟨listed, _⟩ | ⟨_, unchanged⟩
    · have member : id ∈ sent.2.claimedRows.map RawClaimedRow.id := listed
      rw [none] at member
      cases member
    · exact unchanged

/-- The event for a reaped row reports what happened to it. -/
theorem change_reaperEvent (worker : StartedWorker T)
    (passes : (reapedRow now row).PassesChecks) :
    (reaperEvent worker (ReapedRow.fromRow (reapedRow now row))).change =
      ⟨row.id, some .running, (reapedRow now row).status,
        (reapedRow now row).attempts⟩ := by
  have nonneg := ((reapedRow now row).passesChecks_iff.mp passes).1
  have attempts : (((reapedRow now row).attempts.toNat : Nat) : Int) =
      (reapedRow now row).attempts := Int.toNat_of_nonneg nonneg
  have status := reapedRow_status now row
  cases exhausted : row.exhausted with
  | true =>
      rw [exhausted, if_pos rfl] at status
      simp only [TransitionEvent.change, reaperEvent, emitTransition,
        ReapedRow.fromRow, status, attempts]
      rfl
  | false =>
      rw [exhausted, if_neg (by decide)] at status
      simp only [TransitionEvent.change, reaperEvent, emitTransition,
        ReapedRow.fromRow, status, attempts]
      rfl

/-- The events of a `reap` are those of the rows its CTE locked. -/
theorem jobIds_reaperEvents (worker : StartedWorker T) {tie : Nat → Nat}
    {lockedElsewhere : Nat → Bool} {queue : String} {limit : Nat}
    {rows : List ReapedRow}
    (outcome : reap jobs now tie lockedElsewhere queue limit =
      .ok (updated, rows)) :
    (rows.map (reaperEvent worker)).map TransitionEvent.jobId =
      (staleCte jobs now tie lockedElsewhere queue
        (min limit i32Max)).map Row.id := by
  obtain ⟨_, _, _, returned⟩ := reap_spec outcome
  rw [returned, List.map_map, List.map_map]
  rfl

/-- The reaper emits one event for each row it moved. -/
theorem changeOf_reap (worker : StartedWorker T) (jobs : Jobs) (now : Int)
    (tie : Nat → Nat) (lockedElsewhere : Nat → Bool) (id : Nat) :
    let sent := execute (T := T) jobs now
      (.reap worker.queue reaperBatchSize tie lockedElsewhere)
    ((sent.2.reapedRows.map (reaperEvent worker)).filter
        (·.jobId == id)).map TransitionEvent.change =
      (changeOf jobs sent.1 id).toList := by
  intro sent
  cases outcome : reap jobs now tie lockedElsewhere worker.queue
      reaperBatchSize with
  | error failure =>
      have refused : sent = (jobs, .failed failure) := by
        simp only [sent, execute, outcome, commitOr]
      rw [refused, changeOf_of_same rfl]
      rfl
  | ok reply =>
      have answered : sent = (reply.1, .reaped reply.2) := by
        simp only [sent, execute, outcome, commitOr]
      rw [answered]
      obtain ⟨eachStale, others, _, returned⟩ := reap_spec outcome
      have ids := jobIds_reaperEvents worker outcome
      by_cases listed : id ∈ (staleCte jobs now tie lockedElsewhere
          worker.queue (min reaperBatchSize i32Max)).map Row.id
      · obtain ⟨row, member, rfl⟩ := List.mem_map.mp listed
        obtain ⟨stored, stale⟩ := mem_of_mem_staleCte member
        obtain ⟨passes, after⟩ := eachStale row member
        have running := (Row.stale_iff.mp stale).2.1
        have emitted : reaperEvent worker
            (ReapedRow.fromRow (reapedRow now row)) ∈
              reply.2.map (reaperEvent worker) := by
          rw [returned, List.map_map]
          exact List.mem_map_of_mem member
        have only := Library.KeyedRows.filter_key_eq_singleton
          (ids ▸ staleCte_ids_nodup) emitted
        have moved : row.status ≠ (reapedRow now row).status := by
          rw [running]
          exact (reapedRow_status_ne_running now row).symm
        have changed := changeOf_of_moved (Jobs.find_id_of_mem stored) after
          moved
        rw [changed, running]
        exact (congrArg (List.map TransitionEvent.change) only).trans
          (congrArg (fun change => [change])
            (change_reaperEvent worker passes))
      · have silent : (reply.2.map (reaperEvent worker)).filter
            (·.jobId == id) = [] := by
          rw [List.filter_eq_nil_iff]
          intro event member same
          apply listed
          rw [← ids, ← eq_of_beq same]
          exact List.mem_map_of_mem member
        rw [changeOf_of_same (others id listed)]
        exact congrArg (List.map TransitionEvent.change) silent

end Changes

/-! ## Which steps are accompanied by their events -/

section Steps

variable {T : Type} {worker : StartedWorker T}
  {state next : ProcessState} {observation : Observation T}

/-- Each change of a status goes with exactly one event, which reports it, and
there is no other event. -/
def Accompanied (worker : StartedWorker T)
    (taken : Transition ProcessState (Observation T)) : Prop :=
  ∀ id, ((taken.label.site.emits worker (taken.source.db.reply
      (ProcessState.event worker taken.label))).filter
        (·.jobId == id)).map TransitionEvent.change =
    (changeOf taken.source.db.jobs taken.target.db.jobs id).toList

/-- A claim handed out rows, or a payload that did not decode was buried. -/
def MovesSilently (worker : StartedWorker T)
    (taken : Transition ProcessState (Observation T)) : Prop :=
  let reply := taken.source.db.reply (ProcessState.event worker taken.label)
  match taken.label.site with
  | .claim _ _ _ _ => reply.claimedRows ≠ []
  | .decodeMark _ _ => reply.markResult = .affected 1
  | _ => False

theorem events_handlerMark {reply : Reply} (job : Job T) (mark : Mark) :
    (Site.handlerMark job mark).emits worker reply =
      if reply.markResult = .affected 1 then
        [flipEvent (some worker.workerId) job mark.status mark.reason]
      else [] := by
  simp only [Site.emits, Mark.flipState_events, Option.some.injEq]

/-- The mark after a handler is reported as it happened: the fence makes sure
that the row is in the attempt in which the job was claimed. -/
theorem accompanied_handlerMark (consistent : state.db.Consistent)
    (fenced : state.db.Fenced) {raw : RawClaimedRow} {job : Job T}
    {mark : Mark} {now : Int} (member : raw ∈ state.db.returned)
    (decoded : decodeRow worker.codec raw = .ok job) :
    Accompanied worker ⟨state, ⟨now, .handlerMark job mark⟩,
      state.after worker ⟨now, .handlerMark job mark⟩⟩ := by
  intro id
  obtain ⟨payload, _, sameJob⟩ := job_of_decodeRow decoded
  rw [events_handlerMark]
  rcases changeOf_mark (T := T) state.db.jobs now job.id job.leaseToken mark
    with ⟨missed, unchanged⟩ | ⟨moved, ⟨row, found, running, held, changed⟩,
      others⟩
  · have silent : ¬ (state.db.reply (ProcessState.event worker
        ⟨now, .handlerMark job mark⟩)).markResult = .affected 1 := missed
    rw [if_neg silent]
    exact (congrArg Option.toList (unchanged id)).symm
  · have loud : (state.db.reply (ProcessState.event worker
        ⟨now, .handlerMark job mark⟩)).markResult = .affected 1 := moved
    rw [if_pos loud]
    by_cases own : job.id = id
    · subst own
      have attempts : row.attempts = job.attempts := by
        rw [sameJob] at found held ⊢
        exact DbState.attempts_of_held consistent fenced member found running
          held
      have reported : (changeOf state.db.jobs (state.after worker
          ⟨now, .handlerMark job mark⟩).db.jobs job.id) = _ := changed
      rw [reported, attempts]
      simp [flipEvent, emitTransition, TransitionEvent.change]
    · have silent : [flipEvent (some worker.workerId) job mark.status
          mark.reason].filter (·.jobId == id) = [] := by
        simp [flipEvent, emitTransition, own]
      rw [silent]
      exact (congrArg Option.toList (others id (Ne.symm own))).symm

/-- A site that emits nothing is accompanied when it changes nothing. -/
theorem accompanied_of_silent_iff
    {taken : Transition ProcessState (Observation T)}
    (silent : ∀ reply, taken.label.site.emits worker reply = []) :
    Accompanied worker taken ↔
      ∀ id, changeOf taken.source.db.jobs taken.target.db.jobs id = none := by
  unfold Accompanied
  rw [silent]
  refine forall_congr' fun id => ?_
  rw [List.filter_nil, List.map_nil, eq_comm, Option.toList_eq_nil_iff]

theorem accompanied_claim_iff {want : Nat} {headroom : HashMap Nat}
    {gen : Nat → Uuid} {lockedElsewhere : Nat → Bool} {now : Int} :
    let observation : Observation T :=
      ⟨now, .claim want headroom gen lockedElsewhere⟩
    Accompanied worker
        ⟨state, observation, state.after worker observation⟩ ↔
      (state.db.reply
        (ProcessState.event worker observation)).claimedRows = [] := by
  intro observation
  rw [accompanied_of_silent_iff fun _ => rfl]
  exact changeOf_claim_iff state.db.jobs now _ gen lockedElsewhere

theorem accompanied_decodeMark_iff {raw : RawClaimedRow} {reason : String}
    {now : Int} :
    let observation : Observation T := ⟨now, .decodeMark raw reason⟩
    Accompanied worker
        ⟨state, observation, state.after worker observation⟩ ↔
      ¬ (state.db.reply
        (ProcessState.event worker observation)).markResult =
          .affected 1 := by
  intro observation
  rw [accompanied_of_silent_iff fun _ => rfl]
  rcases changeOf_mark (T := T) state.db.jobs now raw.id raw.leaseToken
    (.dead reason) with ⟨missed, unchanged⟩ | ⟨moved, ⟨_, _, _, _, changed⟩, _⟩
  · exact ⟨fun _ => missed, fun _ => unchanged⟩
  · constructor
    · intro unchanged
      have impossible := changed.symm.trans (unchanged raw.id)
      cases impossible
    · intro missed
      exact absurd moved missed

/-- The sites of the `flip_*` functions and of the reaper report what they do;
those of `claim_and_decode` do only when they do nothing. -/
theorem accompanied_iff (consistent : state.db.Consistent)
    (fenced : state.db.Fenced)
    (taken : ProcessState.Step worker state observation next)
    (observed : observation.site.observed = true) :
    Accompanied worker ⟨state, observation, next⟩ ↔
      ¬ MovesSilently worker ⟨state, observation, next⟩ := by
  obtain ⟨issued, _, rfl⟩ := taken
  obtain ⟨now, site⟩ := observation
  cases issued with
  | claim want headroom gen lockedElsewhere =>
      exact accompanied_claim_iff.trans not_not.symm
  | handlerMark raw job config outcome mark member decoded issued =>
      exact iff_of_true
        (accompanied_handlerMark consistent fenced member decoded) id
  | decodeMark raw reason member refused =>
      exact accompanied_decodeMark_iff
  | reap tie lockedElsewhere =>
      exact iff_of_true
        (changeOf_reap worker state.db.jobs now tie lockedElsewhere) id
  | unobserved statement => cases observed

end Steps

/-! ## Replaying the events -/

/-- The statuses after a list of events. -/
def replay (statuses : Nat → Option JobStatus)
    (events : List TransitionEvent) : Nat → Option JobStatus :=
  events.foldl (fun statuses event =>
    Function.update statuses event.jobId (some event.statusTo)) statuses

section Replay

variable {T : Type} {worker : StartedWorker T}
  {statuses : Nat → Option JobStatus} {events : List TransitionEvent}

/-- The last event about a row decides. -/
theorem replay_apply (id : Nat) :
    replay statuses events id =
      ((events.filter (·.jobId == id)).map
        fun event => some event.statusTo).getLastD (statuses id) := by
  induction events generalizing statuses with
  | nil => rfl
  | cons event rest later =>
      have unfolded : replay statuses (event :: rest) id =
          replay (Function.update statuses event.jobId
            (some event.statusTo)) rest id := rfl
      rw [unfolded, later]
      by_cases same : event.jobId = id
      · subst same
        have kept : (event :: rest).filter (·.jobId == event.jobId) =
            event :: rest.filter (·.jobId == event.jobId) :=
          List.filter_cons_of_pos (by simp)
        rw [Function.update_self, kept, List.map_cons, List.getLastD_cons]
      · rw [Function.update_of_ne (Ne.symm same),
          List.filter_cons_of_neg (by simpa using same)]

/-- Replaying the events of an accompanied step gives what the process saw. -/
theorem replay_of_accompanied {state : ProcessState}
    {observation : Observation T}
    (accompanied : Accompanied worker ⟨state, observation,
      state.after worker observation⟩)
    (observed : observation.site.observed = true) :
    replay state.seen (observation.site.emits worker
        (state.db.reply (ProcessState.event worker observation))) =
      (state.after worker observation).seen := by
  funext id
  have reported := accompanied id
  have saw : (state.after worker observation).seen id =
      match changeOf state.db.jobs
        (state.after worker observation).db.jobs id with
      | some change => some change.toStatus
      | none => state.seen id := if_pos observed
  rw [replay_apply, saw]
  dsimp only at reported
  cases happened : changeOf state.db.jobs
      (state.after worker observation).db.jobs id with
  | none =>
      rw [happened, Option.toList_none, List.map_eq_nil_iff] at reported
      rw [reported]
      rfl
  | some change =>
      rw [happened, Option.toList_some, List.map_eq_singleton_iff] at reported
      obtain ⟨event, only, same⟩ := reported
      rw [only, ← same]
      rfl

end Replay

/-! ## Runs -/

section Runs

variable {T : Type} {worker : StartedWorker T} {clock : Int}
  {statuses : Nat → Option JobStatus} {state : ProcessState}
  {trace : List (Transition ProcessState (Observation T))}

/-- The table under the process runs by the rules of the database. -/
theorem dbRun_of_run (run : Run (ProcessState.Step worker)
      (ProcessState.initial clock statuses) trace state) :
    ∃ statements, Run (DbState.Step T) (DbState.initial clock) statements
      state.db := by
  refine run.invariant (fun state => ∃ statements,
    Run (DbState.Step T) (DbState.initial clock) statements state.db)
    ⟨[], Run.refl⟩ ?_
  rintro source observation _ ⟨statements, earlier⟩ ⟨_, admissible, rfl⟩
  exact ⟨_, earlier.snoc ⟨admissible, rfl⟩⟩

theorem accompanied_iff_of_run (run : Run (ProcessState.Step worker)
      (ProcessState.initial clock statuses) trace state)
    {taken : Transition ProcessState (Observation T)} (member : taken ∈ trace)
    (observed : taken.label.site.observed = true) :
    Accompanied worker taken ↔ ¬ MovesSilently worker taken := by
  obtain ⟨before, earlier, stepTaken⟩ := run.reaches_source member
  obtain ⟨statements, dbRun⟩ := dbRun_of_run earlier
  exact accompanied_iff (consistent_of_run dbRun) (DbState.fenced_of_run dbRun)
    stepTaken observed

/-- While no statement of `claim_and_decode` moves a row, the events tell the
statuses that the process has seen. -/
theorem replay_of_run (run : Run (ProcessState.Step worker)
      (ProcessState.initial clock statuses) trace state)
    (noneSilent : ∀ taken ∈ trace, ¬ MovesSilently worker taken) :
    replay statuses state.events = state.seen := by
  have accompanied : ∀ taken ∈ trace, taken.label.site.observed = true →
      Accompanied worker taken := fun taken member observed =>
    (accompanied_iff_of_run run member observed).mpr (noneSilent taken member)
  refine run.historyInvariant (fun history state =>
    (∀ taken ∈ history, taken.label.site.observed = true →
      Accompanied worker taken) → replay statuses state.events = state.seen)
    (fun _ => rfl) ?_ accompanied
  rintro history source observation _ _ soFar ⟨_, _, rfl⟩ allAccompanied
  have before := soFar fun taken member =>
    allAccompanied taken (List.mem_append_left _ member)
  have appended : replay statuses (source.after worker observation).events =
      replay (replay statuses source.events) (observation.site.emits worker
        (source.db.reply (ProcessState.event worker observation))) :=
    List.foldl_append
  rw [appended, before]
  cases observed : observation.site.observed with
  | true =>
      exact replay_of_accompanied
        (allAccompanied _ (by simp) observed) observed
  | false =>
      obtain ⟨now, site⟩ := observation
      obtain ⟨statement, rfl⟩ := Site.exists_of_not_observed observed
      rfl

/-- Every observed change is accompanied by its event, and nothing else is,
exactly in the runs in which no claim hands out a row and no payload that does
not decode is buried; the events of such a run replay what was seen. -/
theorem transition_events_complete_iff (run : Run (ProcessState.Step worker)
      (ProcessState.initial clock statuses) trace state) :
    ((∀ taken ∈ trace, taken.label.site.observed = true →
        Accompanied worker taken) ↔
      ∀ taken ∈ trace, ¬ MovesSilently worker taken) ∧
    ((∀ taken ∈ trace, ¬ MovesSilently worker taken) →
      replay statuses state.events = state.seen) := by
  refine ⟨⟨?_, ?_⟩, replay_of_run run⟩
  · intro accompanied taken member
    cases observed : taken.label.site.observed with
    | true =>
        exact (accompanied_iff_of_run run member observed).mp
          (accompanied taken member observed)
    | false =>
        obtain ⟨source, ⟨now, site⟩, target⟩ := taken
        obtain ⟨statement, rfl⟩ := Site.exists_of_not_observed observed
        exact id
  · intro noneSilent taken member observed
    exact (accompanied_iff_of_run run member observed).mpr
      (noneSilent taken member)

end Runs

/-! ### A reaped job and a buried one

A job is pushed.  In one run another worker claims it and is not heard of
again, so that the reaper takes it back.  In the other the worker claims it
itself and finds that it does not decode. -/

namespace OneJob

/-- No payload decodes. -/
def worker : StartedWorker Unit :=
  { OneSlot.worker with
    codec := ⟨fun _ => .ok [], fun _ => .failed "bad"⟩ }

def start : ProcessState := .initial 0 fun _ => none

def push : Observation Unit :=
  ⟨0, .unobserved (.push LateMark.pusher ⟨7⟩ () none)⟩

def foreignClaim : Observation Unit := ⟨1, .unobserved OneSlot.claim⟩

def reap : Observation Unit := ⟨20, .reap id fun _ => false⟩

def claim : Observation Unit :=
  ⟨1, .claim 1 ∅ (fun id => ⟨id⟩) fun _ => false⟩

def bury : Observation Unit :=
  ⟨2, .decodeMark (OneSlot.raw 1 ⟨7⟩ 1) (fmtErrTrimmed "codec decode: bad")⟩

def pushed : ProcessState := start.after worker push

def heldElsewhere : ProcessState := pushed.after worker foreignClaim

def claimed : ProcessState := pushed.after worker claim

theorem push_step : ProcessState.Step worker start push pushed := by
  refine ⟨.unobserved _, ⟨by decide, ?_, ?_, by decide⟩, rfl⟩
  all_goals rintro _ _ _ ⟨⟩

theorem foreignClaim_step :
    ProcessState.Step worker pushed foreignClaim heldElsewhere := by
  refine ⟨.unobserved _, ⟨by decide, ?_, ?_, by decide⟩, rfl⟩
  all_goals rintro _ _ _ ⟨⟩
  decide

theorem reap_step : ProcessState.Step worker heldElsewhere reap
    (heldElsewhere.after worker reap) := by
  refine ⟨.reap _ _, ⟨by decide, ?_, ?_, by decide⟩, rfl⟩
  all_goals rintro _ _ _ ⟨⟩

theorem claim_step : ProcessState.Step worker pushed claim claimed := by
  refine ⟨.claim _ _ _ _, ⟨by decide, ?_, ?_, by decide⟩, rfl⟩
  all_goals rintro _ _ _ ⟨⟩
  decide

theorem bury_step : ProcessState.Step worker claimed bury
    (claimed.after worker bury) := by
  refine ⟨.decodeMark _ _ (by decide) rfl,
    ⟨by decide, ?_, ?_, by decide⟩, rfl⟩
  all_goals rintro _ _ _ ⟨⟩
  rintro _ ⟨⟩
  exact ⟨_, rfl⟩

theorem reaped_run :
    Run (ProcessState.Step OneJob.worker) (.initial 0 fun _ => none)
      [⟨start, push, pushed⟩, ⟨pushed, foreignClaim, heldElsewhere⟩,
        ⟨heldElsewhere, reap, heldElsewhere.after worker reap⟩]
      (heldElsewhere.after worker reap) :=
  ((Run.refl.snoc push_step).snoc foreignClaim_step).snoc reap_step

theorem buried_run :
    Run (ProcessState.Step OneJob.worker) (.initial 0 fun _ => none)
      [⟨start, push, pushed⟩, ⟨pushed, claim, claimed⟩,
        ⟨claimed, bury, claimed.after worker bury⟩]
      (claimed.after worker bury) :=
  ((Run.refl.snoc push_step).snoc claim_step).snoc bury_step

end OneJob

theorem transition_events_complete_on_reaped :
    (replay (fun _ => none)
      (OneJob.heldElsewhere.after OneJob.worker OneJob.reap).events) 1 =
        some .awaitingRetry ∧
      replay (fun _ => none)
          (OneJob.heldElsewhere.after OneJob.worker OneJob.reap).events =
        (OneJob.heldElsewhere.after OneJob.worker OneJob.reap).seen := by
  refine ⟨by decide, (transition_events_complete_iff OneJob.reaped_run).2 ?_⟩
  intro taken member
  simp only [List.mem_cons, List.not_mem_nil, or_false] at member
  rcases member with rfl | rfl | rfl <;> exact id

theorem claim_and_decode_move_rows_silently :
    Run (ProcessState.Step OneJob.worker) (.initial 0 fun _ => none)
      [⟨OneJob.start, OneJob.push, OneJob.pushed⟩,
        ⟨OneJob.pushed, OneJob.claim, OneJob.claimed⟩,
        ⟨OneJob.claimed, OneJob.bury,
          OneJob.claimed.after OneJob.worker OneJob.bury⟩]
      (OneJob.claimed.after OneJob.worker OneJob.bury) ∧
    (OneJob.claimed.after OneJob.worker OneJob.bury).events = [] ∧
    changeOf OneJob.pushed.db.jobs OneJob.claimed.db.jobs 1 =
      some ⟨1, some .queued, .running, 1⟩ ∧
    ¬ Accompanied OneJob.worker
      ⟨OneJob.pushed, OneJob.claim, OneJob.claimed⟩ ∧
    changeOf OneJob.claimed.db.jobs
        (OneJob.claimed.after OneJob.worker OneJob.bury).db.jobs 1 =
      some ⟨1, some .running, .dead, 1⟩ ∧
    ¬ Accompanied OneJob.worker ⟨OneJob.claimed, OneJob.bury,
      OneJob.claimed.after OneJob.worker OneJob.bury⟩ := by
  have claimed : changeOf OneJob.pushed.db.jobs OneJob.claimed.db.jobs 1 =
      some ⟨1, some .queued, .running, 1⟩ := by decide
  have buried : changeOf OneJob.claimed.db.jobs
        (OneJob.claimed.after OneJob.worker OneJob.bury).db.jobs 1 =
      some ⟨1, some .running, .dead, 1⟩ := by decide
  refine ⟨OneJob.buried_run, rfl, claimed, ?_, buried, ?_⟩
  · intro accompanied
    have unchanged :=
      (accompanied_of_silent_iff fun _ => rfl).mp accompanied 1
    cases claimed.symm.trans unchanged
  · intro accompanied
    have unchanged :=
      (accompanied_of_silent_iff fun _ => rfl).mp accompanied 1
    cases buried.symm.trans unchanged

end PgWorkQueue
