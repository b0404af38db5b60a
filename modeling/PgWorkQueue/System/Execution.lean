import PgWorkQueue.Client.Claim
import PgWorkQueue.Client.Mark
import PgWorkQueue.Client.Pusher
import PgWorkQueue.Client.Reaper
import PgWorkQueue.Library.Runs

/-!
# The library as a transition system

Every call of the library that touches the database is one statement, executed
as one atomic step at an instant `now`.  Three things are assumed of Postgres
and stated in `Admissible`: `now()` never decreases from one statement to the
next, `gen_random_uuid()` never repeats a value, and a statement either commits
as a whole or leaves the table alone (the last is how `execute` is written).

Since `now()` is the start of the transaction, the first assumption leaves out a
`push` in a transaction of the caller that began before a statement that was
executed earlier.  That statements are atomic is justified for claims, marks,
reaps and purges by their interleaving, up to one thing: the keyed claim counts
the headroom of a key on its snapshot, so that a row which another transaction
takes before the claim has locked it still counts.

`RowEffect` lists everything a statement can do to one row.  The safety results
about whole runs are derived from it and not from the statements themselves.
-/

namespace PgWorkQueue

open Library.Runs

/-! ## Statements and replies -/

/-- The two statuses a purge can be asked for. -/
inductive TerminalStatus where
  | done
  | dead
  deriving DecidableEq, Repr

def TerminalStatus.toJobStatus : TerminalStatus → JobStatus
  | done => .done
  | dead => .dead

/-- A call of the library, with the choices Postgres makes for it: the rows
other transactions hold locked, the tokens it draws, the order of ties. -/
inductive Statement (T : Type) where
  | push (pusher : Pusher T) (publicId : Uuid) (payload : T)
      (concurrencyKey : Option String)
  | pushAt (pusher : Pusher T) (publicId : Uuid) (payload : T)
      (runAt : Int) (concurrencyKey : Option String)
  | pushBatch (pusher : Pusher T) (draw : Nat → Uuid)
      (items : List (T × Option String))
  | claim (params : ClaimParams) (gen : Nat → Uuid)
      (lockedElsewhere : Nat → Bool)
  | mark (id : Nat) (token : Uuid) (mark : Mark)
  | reap (queue : String) (batchLimit : Nat) (tie : Nat → Nat)
      (lockedElsewhere : Nat → Bool)
  | purge (status : TerminalStatus) (age : Duration) (tie : Nat → Nat)
      (lockedElsewhere : Nat → Bool)

/-- What the caller of a statement learns. -/
inductive Reply where
  | pushed (publicIds : List Uuid)
  | claimed (rows : List RawClaimedRow)
  | affected (count : Nat)
  | reaped (rows : List ReapedRow)
  | pushFailed (failure : PushError)
  | failed (failure : SqlError)

/-- The rows a claim handed out. -/
def Reply.claimedRows : Reply → List RawClaimedRow
  | claimed rows => rows
  | _ => []

/-- The statement was rejected by a CHECK. -/
def Reply.CheckRejected : Reply → Prop
  | pushFailed failure => failure.IsCheckViolation
  | failed failure => failure.IsCheckViolation
  | _ => False

/-- A statement that fails is rolled back. -/
def commitOr {Value Failure : Type} (jobs : Jobs)
    (outcome : Except Failure (Jobs × Value)) (reply : Value → Reply)
    (refusal : Failure → Reply) : Jobs × Reply :=
  match outcome with
  | .ok (updated, value) => (updated, reply value)
  | .error failure => (jobs, refusal failure)

/-- Executing one statement at time `now`. -/
def execute {T : Type} (jobs : Jobs) (now : Int) :
    Statement T → Jobs × Reply
  | .push pusher publicId payload concurrencyKey =>
      commitOr jobs (pusher.push jobs now publicId payload concurrencyKey)
        (fun publicId => .pushed [publicId]) .pushFailed
  | .pushAt pusher publicId payload runAt concurrencyKey =>
      commitOr jobs
        (pusher.pushAt jobs now publicId payload runAt concurrencyKey)
        (fun publicId => .pushed [publicId]) .pushFailed
  | .pushBatch pusher draw items =>
      commitOr jobs (pusher.pushBatch jobs now draw items)
        .pushed .pushFailed
  | .claim params gen lockedElsewhere =>
      commitOr jobs (claimBatchRaw jobs now gen lockedElsewhere params)
        .claimed .failed
  | .mark id token mark =>
      commitOr jobs (mark.execute jobs now id token) .affected .failed
  | .reap queue batchLimit tie lockedElsewhere =>
      commitOr jobs (reap jobs now tie lockedElsewhere queue batchLimit)
        .reaped .failed
  | .purge status age tie lockedElsewhere =>
      commitOr jobs
        (purgeChunk jobs now tie lockedElsewhere status.toJobStatus age
          purgeChunkSize)
        .affected .failed

/-! ## What a statement does to one row -/

/-- The statements that insert, with the `run_at` they ask for. -/
inductive Statement.Inserts {T : Type} : Statement T → Option Int → Prop
  | push (pusher : Pusher T) (publicId : Uuid) (payload : T)
      (concurrencyKey : Option String) :
      Inserts (.push pusher publicId payload concurrencyKey) none
  | pushAt (pusher : Pusher T) (publicId : Uuid) (payload : T)
      (runAt : Int) (concurrencyKey : Option String) :
      Inserts (.pushAt pusher publicId payload runAt concurrencyKey)
        (some runAt)
  | pushBatch (pusher : Pusher T) (draw : Nat → Uuid)
      (items : List (T × Option String)) :
      Inserts (.pushBatch pusher draw items) none

/-- Everything that executing a statement can do to the row `id`. -/
inductive RowEffect {T : Type} (jobs updated : Jobs) (now : Int)
    (reply : Reply) (id : Nat) : Statement T → Prop
  | same (statement : Statement T)
      (unchanged : updated.find id = jobs.find id) :
      RowEffect jobs updated now reply id statement
  | inserted (statement : Statement T) (new : NewJob)
      (inserts : statement.Inserts new.runAt)
      (fresh : jobs.nextId ≤ id)
      (validated : new.Validated)
      (queueText : textParam new.queue = .ok new.queue)
      (passes : (new.row id now).PassesChecks)
      (after : updated.find id = some (new.row id now)) :
      RowEffect jobs updated now reply id statement
  | claimed (params : ClaimParams) (gen : Nat → Uuid)
      (lockedElsewhere : Nat → Bool) (row : Row) (leaseMicros : Int)
      (before : jobs.find id = some row)
      (runnable : row.runnable params.queue now = true)
      (room : row.attempts + 1 ≤ i32Max)
      (interval : intervalParam params.leaseTimeout = .ok leaseMicros)
      (returned : claimedRaw now gen leaseMicros
        (min params.maxAttempts i32Max : Nat) row ∈ reply.claimedRows)
      (after : updated.find id = some (claimedRow now gen leaseMicros
        (min params.maxAttempts i32Max : Nat) row)) :
      RowEffect jobs updated now reply id
        (.claim params gen lockedElsewhere)
  | marked (token : Uuid) (mark : Mark) (row : Row)
      (before : jobs.find id = some row)
      (running : row.status = .running)
      (held : row.leaseToken = some token)
      (replied : reply = .affected 1)
      (after : updated.find id = some (mark.markedRow now row)) :
      RowEffect jobs updated now reply id (.mark id token mark)
  | reaped (queue : String) (batchLimit : Nat) (tie : Nat → Nat)
      (lockedElsewhere : Nat → Bool) (row : Row)
      (before : jobs.find id = some row)
      (stale : row.stale queue now = true)
      (after : updated.find id = some (reapedRow now row)) :
      RowEffect jobs updated now reply id
        (.reap queue batchLimit tie lockedElsewhere)
  | purged (status : TerminalStatus) (age : Duration) (tie : Nat → Nat)
      (lockedElsewhere : Nat → Bool) (row : Row) (finished : Int)
      (before : jobs.find id = some row)
      (terminal : row.status = status.toJobStatus)
      (finishedAt : row.finishedAt = some finished)
      (old : finished < now - age.asMicros)
      (after : updated.find id = none) :
      RowEffect jobs updated now reply id
        (.purge status age tie lockedElsewhere)

section Effect

variable {T : Type} {jobs updated : Jobs} {now : Int}

private theorem effect_of_insertAll
    {statement : Statement T} {news : List NewJob} (reply : Reply)
    (inserts : ∀ new ∈ news, statement.Inserts new.runAt)
    (validated : ∀ new ∈ news, new.Validated)
    (queueText : ∀ new ∈ news, textParam new.queue = .ok new.queue)
    (outcome : Jobs.insertAll now jobs news = .ok updated) (id : Nat) :
    RowEffect jobs updated now reply id statement := by
  rcases (Jobs.insertAll_spec outcome).2.2 id with
    same | ⟨fresh, new, member, found, passes⟩
  · exact .same _ same
  · exact .inserted _ new (inserts new member) fresh
      (validated new member) (queueText new member) passes found

private theorem effect_of_pushOne
    {statement : Statement T} {pusher : Pusher T} {publicId returned : Uuid}
    {payload : T} {runAt : Option Int} {concurrencyKey : Option String}
    (reply : Reply) (inserts : statement.Inserts runAt)
    (outcome : pusher.pushOne jobs now publicId payload runAt
      concurrencyKey = .ok (updated, returned)) (id : Nat) :
    RowEffect jobs updated now reply id statement := by
  obtain ⟨new, validated, rfl, queueText, inserted⟩ :=
    Pusher.pushOne_spec outcome
  have single : Jobs.insertAll now jobs [new] = .ok updated := by
    simp only [Jobs.insertAll, inserted, bind, Except.bind]
  refine effect_of_insertAll reply ?_ ?_ ?_ single id
  · intro added member
    rw [List.mem_singleton.mp member]
    exact inserts
  · intro added member
    rw [List.mem_singleton.mp member]
    exact validated
  · intro added member
    rw [List.mem_singleton.mp member]
    exact queueText

private theorem effect_of_claim
    {params : ClaimParams} {gen : Nat → Uuid}
    {lockedElsewhere : Nat → Bool} {raws : List RawClaimedRow}
    (outcome : claimBatchRaw jobs now gen lockedElsewhere params =
      .ok (updated, raws)) (id : Nat) :
    RowEffect (T := T) jobs updated now (.claimed raws) id
      (.claim params gen lockedElsewhere) := by
  obtain ⟨leaseMicros, chosen, interval, choice, rfl, eachChosen, others,
    _⟩ := claimBatchRaw_spec outcome
  by_cases listed : id ∈ chosen.map Row.id
  · obtain ⟨row, member, rfl⟩ := List.mem_map.mp listed
    obtain ⟨room, _, found⟩ := eachChosen row member
    exact .claimed params gen lockedElsewhere row leaseMicros
      (Jobs.find_id_of_mem (choice.stored row member))
      (choice.runnable row member) room interval
      (List.mem_map_of_mem member) found
  · exact .same _ (others id listed)

private theorem effect_of_mark
    {target : Nat} {token : Uuid} {mark : Mark} {count : Nat}
    (outcome : mark.execute jobs now target token = .ok (updated, count))
    (id : Nat) :
    RowEffect (T := T) jobs updated now (.affected count) id
      (.mark target token mark) := by
  rcases Mark.execute_spec outcome with
    ⟨_, rfl, _⟩ | ⟨row, before, running, held, rfl, _, _, found, others⟩
  · exact .same _ rfl
  · by_cases hit : id = target
    · subst hit
      exact .marked token mark row before running held rfl found
    · exact .same _ (others id hit)

private theorem effect_of_reap
    {queue : String} {batchLimit : Nat} {tie : Nat → Nat}
    {lockedElsewhere : Nat → Bool} {reaped : List ReapedRow}
    (outcome : reap jobs now tie lockedElsewhere queue batchLimit =
      .ok (updated, reaped)) (reply : Reply) (id : Nat) :
    RowEffect (T := T) jobs updated now reply id
      (.reap queue batchLimit tie lockedElsewhere) := by
  obtain ⟨eachStale, others, _⟩ := reap_spec outcome
  by_cases listed : id ∈ (staleCte jobs now tie lockedElsewhere queue
      (min batchLimit i32Max)).map Row.id
  · obtain ⟨row, member, rfl⟩ := List.mem_map.mp listed
    obtain ⟨stored, isStale⟩ := mem_of_mem_staleCte member
    exact .reaped queue batchLimit tie lockedElsewhere row
      (Jobs.find_id_of_mem stored) isStale (eachStale row member).2
  · exact .same _ (others id listed)

/-- Executing a statement does one of the listed things to each row. -/
theorem execute_effect (jobs : Jobs) (now : Int) (statement : Statement T)
    (id : Nat) :
    RowEffect jobs (execute jobs now statement).1 now
      (execute jobs now statement).2 id statement := by
  cases statement with
  | push pusher publicId payload concurrencyKey =>
      simp only [execute, commitOr]
      split
      · rename_i outcome
        exact effect_of_pushOne _ (.push ..) outcome id
      · exact .same _ rfl
  | pushAt pusher publicId payload runAt concurrencyKey =>
      simp only [execute, commitOr]
      split
      · rename_i outcome
        exact effect_of_pushOne _ (.pushAt ..) outcome id
      · exact .same _ rfl
  | pushBatch pusher draw items =>
      rcases Pusher.pushBatch_cases pusher jobs now draw items with
        ⟨failure, _, _, refused⟩ | ⟨updated, news, each, inserted, sent⟩
      · simp only [execute, commitOr, refused]
        exact .same _ rfl
      · simp only [execute, commitOr, sent]
        refine effect_of_insertAll _ ?_
          (fun new member => (each new member).1)
          (fun new member => (each new member).2.2) inserted id
        intro new member
        rw [(each new member).2.1]
        exact .pushBatch ..
  | claim params gen lockedElsewhere =>
      simp only [execute, commitOr]
      split
      · rename_i outcome
        exact effect_of_claim outcome id
      · exact .same _ rfl
  | mark target token mark =>
      simp only [execute, commitOr]
      split
      · rename_i outcome
        exact effect_of_mark outcome id
      · exact .same _ rfl
  | reap queue batchLimit tie lockedElsewhere =>
      simp only [execute, commitOr]
      split
      · rename_i outcome
        exact effect_of_reap outcome _ id
      · exact .same _ rfl
  | purge status age tie lockedElsewhere =>
      simp only [execute, commitOr]
      split
      · rename_i outcome
        rcases (purgeChunk_spec outcome).2 id with
          same | ⟨gone, row, finished, before, terminal, finishedAt, old⟩
        · exact .same _ same
        · exact .purged status age tie lockedElsewhere row finished before
            terminal finishedAt old gone
      · exact .same _ rfl

/-- The rows a statement hands out are the rows it claims, each once. -/
theorem claimedRows_spec (jobs : Jobs) (now : Int)
    (statement : Statement T) :
    ((execute jobs now statement).2.claimedRows.map
        RawClaimedRow.id).Nodup ∧
      ∀ raw ∈ (execute jobs now statement).2.claimedRows,
        ∃ params gen lockedElsewhere row leaseMicros,
          statement = .claim params gen lockedElsewhere ∧
          jobs.find raw.id = some row ∧
          row.runnable params.queue now = true ∧
          row.attempts + 1 ≤ i32Max ∧
          raw = claimedRaw now gen leaseMicros
            (min params.maxAttempts i32Max : Nat) row ∧
          (execute jobs now statement).1.find raw.id =
            some (claimedRow now gen leaseMicros
              (min params.maxAttempts i32Max : Nat) row) := by
  have noneClaimed {Value Failure : Type}
      (outcome : Except Failure (Jobs × Value)) (reply : Value → Reply)
      (refusal : Failure → Reply)
      (replyEmpty : ∀ value, (reply value).claimedRows = [])
      (refusalEmpty : ∀ failure, (refusal failure).claimedRows = []) :
      (commitOr jobs outcome reply refusal).2.claimedRows = [] := by
    cases outcome with
    | error failure => exact refusalEmpty failure
    | ok committed => exact replyEmpty committed.2
  by_cases noRows : (execute jobs now statement).2.claimedRows = []
  · simp [noRows]
  cases statement with
  | claim params gen lockedElsewhere =>
      simp only [execute, commitOr]
      split
      · rename_i updated raws outcome
        obtain ⟨leaseMicros, chosen, _, choice, rfl, eachChosen, _⟩ :=
          claimBatchRaw_spec outcome
        refine ⟨?_, ?_⟩
        · simpa [Reply.claimedRows, Function.comp_def, claimedRaw]
            using choice.distinct
        · intro raw member
          obtain ⟨row, isChosen, rfl⟩ := List.mem_map.mp member
          obtain ⟨room, _, found⟩ := eachChosen row isChosen
          exact ⟨params, gen, lockedElsewhere, row, leaseMicros, rfl,
            Jobs.find_id_of_mem (choice.stored row isChosen),
            choice.runnable row isChosen, room, rfl, found⟩
      · simp [Reply.claimedRows]
  | push => exact (noRows (noneClaimed _ _ _ (fun _ => rfl) fun _ => rfl)).elim
  | pushAt => exact (noRows (noneClaimed _ _ _ (fun _ => rfl) fun _ => rfl)).elim
  | pushBatch => exact (noRows (noneClaimed _ _ _ (fun _ => rfl) fun _ => rfl)).elim
  | mark => exact (noRows (noneClaimed _ _ _ (fun _ => rfl) fun _ => rfl)).elim
  | reap => exact (noRows (noneClaimed _ _ _ (fun _ => rfl) fun _ => rfl)).elim
  | purge => exact (noRows (noneClaimed _ _ _ (fun _ => rfl) fun _ => rfl)).elim

theorem nextId_le_commitOr {Value Failure : Type}
    (outcome : Except Failure (Jobs × Value)) (reply : Value → Reply)
    (refusal : Failure → Reply)
    (committed : ∀ updated value, outcome = .ok (updated, value) →
      jobs.nextId ≤ updated.nextId) :
    jobs.nextId ≤ (commitOr jobs outcome reply refusal).1.nextId := by
  cases outcome with
  | error failure => exact Nat.le_refl _
  | ok result => exact committed result.1 result.2 rfl

theorem nextId_le_of_pushOne
    {pusher : Pusher T} {publicId returned : Uuid} {payload : T}
    {runAt : Option Int} {concurrencyKey : Option String}
    (outcome : pusher.pushOne jobs now publicId payload runAt
      concurrencyKey = .ok (updated, returned)) :
    jobs.nextId ≤ updated.nextId := by
  obtain ⟨new, _, _, _, inserted⟩ := Pusher.pushOne_spec outcome
  obtain ⟨_, _, rfl⟩ := Jobs.insert_eq_ok_iff.mp inserted
  exact Nat.le_succ _

/-- The identity sequence only moves forward. -/
theorem nextId_le_execute (jobs : Jobs) (now : Int)
    (statement : Statement T) :
    jobs.nextId ≤ (execute jobs now statement).1.nextId := by
  cases statement with
  | push =>
      apply nextId_le_commitOr
      intro updated returned outcome
      exact nextId_le_of_pushOne outcome
  | pushAt =>
      apply nextId_le_commitOr
      intro updated returned outcome
      exact nextId_le_of_pushOne outcome
  | pushBatch pusher draw items =>
      apply nextId_le_commitOr
      intro updated publicIds outcome
      rcases Pusher.pushBatch_cases pusher jobs now draw items with
        ⟨failure, _, _, refused⟩ | ⟨committed, news, _, inserted, sent⟩
      · rw [refused] at outcome
        cases outcome
      · rw [sent] at outcome
        cases outcome
        have sequence := (Jobs.insertAll_spec inserted).1
        omega
  | claim =>
      apply nextId_le_commitOr
      intro updated raws outcome
      obtain ⟨_, _, _, _, _, _, _, sequence⟩ := claimBatchRaw_spec outcome
      exact sequence.ge
  | mark =>
      apply nextId_le_commitOr
      intro updated count outcome
      rcases Mark.execute_spec outcome with
        ⟨_, rfl, _⟩ | ⟨_, _, _, _, _, sequence, _⟩
      · exact Nat.le_refl _
      · exact sequence.ge
  | reap =>
      apply nextId_le_commitOr
      intro updated reaped outcome
      exact (reap_spec outcome).2.2.1.ge
  | purge =>
      apply nextId_le_commitOr
      intro updated count outcome
      exact (purgeChunk_spec outcome).1.ge

end Effect

/-! ## Runs -/

/-- A statement together with the instant at which it is executed. -/
structure Event (T : Type) where
  now : Int
  statement : Statement T

/-- The table, the instant of the latest statement, and every row that a claim
has handed out so far. -/
structure DbState where
  jobs : Jobs
  clock : Int
  returned : List RawClaimedRow

namespace DbState

/-- The empty table, at any instant. -/
def initial (clock : Int) : DbState where
  jobs := Jobs.empty
  clock := clock
  returned := []

variable {T : Type}

def reply (state : DbState) (event : Event T) : Reply :=
  (execute state.jobs event.now event.statement).2

def after (state : DbState) (event : Event T) : DbState where
  jobs := (execute state.jobs event.now event.statement).1
  clock := event.now
  returned := state.returned ++ (state.reply event).claimedRows

/-- What a statement does to each row, in terms of states. -/
theorem rowEffect (state : DbState) (now : Int) (statement : Statement T)
    (id : Nat) :
    RowEffect state.jobs (state.after ⟨now, statement⟩).jobs now
      (state.reply ⟨now, statement⟩) id statement :=
  execute_effect state.jobs now statement id

section Claims

variable {state : DbState} {event : Event T} {id : Nat} {row : Row}

/-- A row enters the table by an INSERT, under a new `id`. -/
theorem exists_insert_of_absent
    (absent : state.jobs.find id = none)
    (found : (state.after event).jobs.find id = some row) :
    ∃ new : NewJob, row = new.row id event.now ∧
      event.statement.Inserts new.runAt ∧ state.jobs.nextId ≤ id ∧
      textParam new.queue = .ok new.queue := by
  obtain ⟨now, statement⟩ := event
  cases state.rowEffect now statement id with
  | same _ unchanged => exact nomatch (unchanged.trans absent).symm.trans found
  | inserted _ new inserts fresh _ queueText _ after =>
      rw [after] at found
      cases found
      exact ⟨new, rfl, inserts, fresh, queueText⟩
  | claimed _ _ _ _ _ before => exact nomatch absent.symm.trans before
  | marked _ _ _ before => exact nomatch absent.symm.trans before
  | reaped _ _ _ _ _ before => exact nomatch absent.symm.trans before
  | purged _ _ _ _ _ _ before => exact nomatch absent.symm.trans before

/-- Only a stored row is claimed. -/
theorem no_claim_of_absent
    (absent : state.jobs.find id = none)
    (raw : RawClaimedRow) (member : raw ∈ (state.reply event).claimedRows) :
    raw.id ≠ id := by
  rintro rfl
  obtain ⟨_, _, _, _, _, _, before, _⟩ :=
    (claimedRows_spec state.jobs event.now event.statement).2 raw member
  rw [absent] at before
  cases before

/-- A claim changes the row. -/
theorem no_claim_of_unchanged
    (unchanged : (state.after event).jobs.find id = state.jobs.find id)
    (raw : RawClaimedRow) (member : raw ∈ (state.reply event).claimedRows) :
    raw.id ≠ id := by
  rintro rfl
  obtain ⟨_, _, _, claimed, _, _, before, runnable, _, _, after⟩ :=
    (claimedRows_spec state.jobs event.now event.statement).2 raw member
  have same := after.symm.trans (unchanged.trans before)
  rw [Option.some.injEq] at same
  rw [← same] at runnable
  simp [Row.runnable, Row.due, Row.waiting, claimedRow, claimedVersion,
    setUpdatedAt] at runnable

/-- Only a waiting row is claimed. -/
theorem no_claim_of_not_waiting
    (found : state.jobs.find id = some row) (notWaiting : row.waiting = false)
    (raw : RawClaimedRow) (member : raw ∈ (state.reply event).claimedRows) :
    raw.id ≠ id := by
  rintro rfl
  obtain ⟨params, _, _, claimed, _, _, before, runnable, _⟩ :=
    (claimedRows_spec state.jobs event.now event.statement).2 raw member
  rw [found] at before
  cases before
  simp [Row.runnable, Row.due, notWaiting] at runnable

/-- One statement claims a row at most once. -/
theorem filter_claimedRows_eq_singleton
    {raw : RawClaimedRow} (member : raw ∈ (state.reply event).claimedRows) :
    ((state.reply event).claimedRows.filter fun other =>
      other.id == raw.id) = [raw] :=
  Library.KeyedRows.filter_key_eq_singleton
    (claimedRows_spec state.jobs event.now event.statement).1 member

end Claims

/-- What is assumed of a statement about to be executed.  `returned` holds
every token drawn so far that was committed. -/
structure Admissible (state : DbState) (event : Event T) : Prop where
  clock : state.clock ≤ event.now
  maxAttempts : ∀ params gen lockedElsewhere,
    event.statement = .claim params gen lockedElsewhere →
      1 ≤ params.maxAttempts
  trimmed : ∀ id token mark, event.statement = .mark id token mark →
    ∀ reason, mark.reason = some reason →
      ∃ text, reason = fmtErrTrimmed text
  freshTokens : ((state.returned ++ (state.reply event).claimedRows).map
    RawClaimedRow.leaseToken).Nodup

/-- One step of the system. -/
def Step (T : Type) (state : DbState) (event : Event T)
    (next : DbState) : Prop :=
  state.Admissible event ∧ next = state.after event

/-- The rows a transition of a run handed out. -/
def claimsOf (taken : Transition DbState (Event T)) : List RawClaimedRow :=
  (taken.source.reply taken.label).claimedRows

section Run

variable {start finish : DbState}
  {trace : List (Transition DbState (Event T))}

/-- `returned` is the record of the claims of a run. -/
theorem returned_of_run (run : Run (Step T) start trace finish) :
    finish.returned = start.returned ++ trace.flatMap claimsOf := by
  refine run.historyInvariant
    (fun history state =>
      state.returned = start.returned ++ history.flatMap claimsOf) ?_ ?_
  · simp
  · rintro history source event _ _ recorded ⟨_, rfl⟩
    simp [after, recorded, claimsOf]

theorem mem_returned_of_run
    (run : Run (Step T) start trace finish)
    {raw : RawClaimedRow} (member : raw ∈ start.returned) :
    raw ∈ finish.returned := by
  rw [returned_of_run run]
  exact List.mem_append_left _ member

end Run

/-- Executing statements one after the other. -/
def afterAll : DbState → List (Event T) → DbState
  | state, [] => state
  | state, event :: rest => afterAll (state.after event) rest

/-- The transitions that executing statements one after the other takes. -/
def transitions :
    DbState → List (Event T) → List (Transition DbState (Event T))
  | _, [] => []
  | state, event :: rest =>
      ⟨state, event, state.after event⟩ ::
        transitions (state.after event) rest

/-- Each statement of the list is allowed when its turn comes. -/
def AllAllowed (allowed : DbState → Event T → Prop) :
    DbState → List (Event T) → Prop
  | _, [] => True
  | state, event :: rest =>
      allowed state event ∧ AllAllowed allowed (state.after event) rest

theorem run_of_allAllowed
    {allowed : DbState → Event T → Prop} {state : DbState}
    {events : List (Event T)} (all : AllAllowed allowed state events) :
    Run (fun source event target =>
        allowed source event ∧ target = source.after event)
      state (state.transitions events) (state.afterAll events) := by
  induction events generalizing state with
  | nil =>
      exact Run.refl
  | cons event rest inductionHypothesis =>
      exact (Run.single ⟨all.1, rfl⟩).append (inductionHypothesis all.2)

end DbState

/-! ## A run with a late mark

One job is pushed, claimed, reaped after its lease ran out and claimed again;
the mark of the first claim then arrives before that of the second. -/

/-- Ten microseconds, the lease of the small runs. -/
def Duration.tenMicros : Duration := ⟨10000, by decide⟩

namespace LateMark

def pusher : Pusher Unit where
  queue := "mail"
  codec :=
    { encode := fun _ => .ok []
      decode := fun _ => .value () }

def params : ClaimParams where
  queue := "mail"
  batchSize := 10
  leaseTimeout := Duration.tenMicros
  maxAttempts := 2
  headroom := ∅

def events : List (Event Unit) :=
  [⟨0, .push pusher ⟨7⟩ () none⟩,
    ⟨1, .claim params (fun _ => ⟨1⟩) fun _ => false⟩,
    ⟨20, .reap "mail" 100 id fun _ => false⟩,
    ⟨21, .claim params (fun _ => ⟨2⟩) fun _ => false⟩,
    ⟨22, .mark 1 ⟨1⟩ .done⟩,
    ⟨23, .mark 1 ⟨2⟩ .done⟩]

/-- The transition that the `index`-th statement takes. -/
def transition (index : Nat) (event : Event Unit) :
    Transition DbState (Event Unit) :=
  ⟨(DbState.initial 0).afterAll (events.take index), event,
    (DbState.initial 0).afterAll (events.take (index + 1))⟩

theorem admissible :
    DbState.AllAllowed DbState.Admissible (DbState.initial 0) events := by
  refine ⟨⟨by decide, ?_, ?_, by decide⟩, ⟨by decide, ?_, ?_, by decide⟩,
    ⟨by decide, ?_, ?_, by decide⟩, ⟨by decide, ?_, ?_, by decide⟩,
    ⟨by decide, ?_, ?_, by decide⟩, ⟨by decide, ?_, ?_, by decide⟩, trivial⟩
  all_goals rintro _ _ _ ⟨⟩
  · decide
  · decide
  · rintro _ ⟨⟩
  · rintro _ ⟨⟩

theorem run :
    Run (DbState.Step Unit) (DbState.initial 0)
      ((DbState.initial 0).transitions events)
      ((DbState.initial 0).afterAll events) :=
  DbState.run_of_allAllowed admissible

example :
    (((DbState.initial 0).afterAll events).jobs.find 1).map
      (fun row => (row.status, row.attempts)) = some (.done, 2) := by
  decide

end LateMark

end PgWorkQueue
