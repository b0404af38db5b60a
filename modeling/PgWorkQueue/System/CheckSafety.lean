import PgWorkQueue.System.Execution

/-!
# No statement of the library runs into a CHECK

The CHECKs relate timestamps that different statements write, so they are not
inductive by themselves: a claim writes `last_attempted_at = now()` and needs
`created_at` and `first_attempted_at` to lie in the past.  `Row.Consistent`
adds exactly these comparisons with the clock.  Each statement keeps it, and a
row that has it can be updated by every statement without violating a CHECK.
-/

namespace PgWorkQueue

open Library.Runs

/-- A stored row that passes the CHECKs and whose timestamps lie in the past
of `clock`. -/
structure Row.Consistent (clock : Int) (row : Row) : Prop where
  passes : row.PassesChecks
  created : row.createdAt ≤ clock
  first : ∀ first, row.firstAttemptedAt = some first → first ≤ clock
  last : ∀ last, row.lastAttemptedAt = some last → last ≤ clock

namespace Row.Consistent

variable {clock now : Int} {row : Row}

theorem mono (consistent : row.Consistent clock) (later : clock ≤ now) :
    row.Consistent now where
  passes := consistent.passes
  created := consistent.created.trans later
  first := fun first set => (consistent.first first set).trans later
  last := fun last set => (consistent.last last set).trans later

/-- An UPDATE that leaves `queue`, `payload` and `concurrency_key` alone only
has to answer for the other CHECKs. -/
private theorem passesChecks_of_update
    {old new : Row} (passes : old.PassesChecks)
    (sameQueue : new.queue = old.queue)
    (samePayload : new.payload = old.payload)
    (sameKey : new.concurrencyKey = old.concurrencyKey)
    (attempts : 0 ≤ new.attempts) (maxAttempts : 0 ≤ new.maxAttempts)
    (errorLength : ∀ text, new.lastError = some text → text.length ≤ 8192)
    (status : jobsStatusInvariants new = true)
    (temporal : jobsTemporal new = true) :
    new.PassesChecks := by
  obtain ⟨_, keyLength, _, _, payloadSize, queueShort, queueNonempty, _⟩ :=
    old.passesChecks_iff.mp passes
  exact new.passesChecks_iff.mpr ⟨attempts, sameKey ▸ keyLength,
    errorLength, maxAttempts, samePayload ▸ payloadSize,
    sameQueue ▸ queueShort, sameQueue ▸ queueNonempty, status, temporal⟩

theorem inserted
    {new : NewJob} {id : Nat} (passes : (new.row id now).PassesChecks) :
    (new.row id now).Consistent now where
  passes := passes
  created := le_refl now
  first := fun _ set => nomatch set
  last := fun _ set => nomatch set

/-- A row that waits has no `finished_at`. -/
theorem finishedAt_of_waiting
    (consistent : row.Consistent clock) (waiting : row.waiting = true) :
    row.finishedAt = none := by
  have invariants := consistent.passes .jobsStatusInvariants
  simp only [Row.waiting, Bool.or_eq_true, beq_iff_eq] at waiting
  rcases waiting with queued | awaitingRetry
  · exact ((jobsStatusInvariants_queued queued).mp invariants).2.2.2.1
  · exact ((jobsStatusInvariants_awaitingRetry awaitingRetry).mp
      invariants).2.2.2.1

theorem claimed
    (consistent : row.Consistent clock) (later : clock ≤ now)
    (waiting : row.waiting = true) (gen : Nat → Uuid) (leaseMicros : Int)
    (maxAttempts : Nat) :
    (claimedRow now gen leaseMicros maxAttempts row).Consistent now := by
  obtain ⟨firstAfter, _, _, _, runAfter⟩ :=
    (jobsTemporal_iff row).mp (consistent.passes .jobsTemporal)
  have attempts : 0 ≤ row.attempts :=
    (row.passesChecks_iff.mp consistent.passes).1
  have created := consistent.created
  have firstPast : row.firstAttemptedAt.getD now ≤ now := by
    cases first : row.firstAttemptedAt with
    | none => exact le_refl now
    | some value => exact (consistent.first value first).trans later
  have firstCreated :
      row.createdAt ≤ row.firstAttemptedAt.getD now := by
    cases first : row.firstAttemptedAt with
    | none => exact created.trans later
    | some value => exact firstAfter value first
  refine
    { passes := ?_
      created := created.trans later
      first := ?_
      last := ?_ }
  · refine passesChecks_of_update consistent.passes rfl rfl rfl
      ?_ ?_ ?_ ?_ ?_
    · change 0 ≤ row.attempts + 1
      omega
    · exact Int.natCast_nonneg maxAttempts
    · exact fun _ set => nomatch set
    · rw [jobsStatusInvariants_running rfl]
      refine ⟨?_, ⟨_, rfl⟩, ⟨_, rfl⟩,
        consistent.finishedAt_of_waiting waiting, ⟨_, rfl⟩, ⟨_, rfl⟩⟩
      change 0 < row.attempts + 1
      omega
    · rw [jobsTemporal_iff]
      refine ⟨?_, ?_, ?_, created.trans later, runAfter⟩
      · rintro _ ⟨⟩
        exact firstCreated
      · rintro _ ⟨⟩
        exact firstPast
      · intro finished set
        have none : row.finishedAt = some finished := set
        rw [consistent.finishedAt_of_waiting waiting] at none
        cases none
  · rintro _ ⟨⟩
    exact firstPast
  · rintro _ ⟨⟩
    exact le_refl now

/-- The version of a running row that `mark_done`, `mark_dead` and a reap of
an exhausted row write. -/
private theorem finished
    (consistent : row.Consistent clock) (later : clock ≤ now)
    (running : row.status = .running) (status : JobStatus)
    (terminal : status = .done ∨ status = .dead)
    (lastError : Option String)
    (short : ∀ text, lastError = some text → text.length ≤ 8192) :
    Row.Consistent now
      { row with
        status := status
        finishedAt := some now
        lastError := lastError
        leaseToken := none
        leaseExpiresAt := none
        updatedAt := now } := by
  obtain ⟨positive, ⟨last, lastSet⟩, _⟩ :=
    (jobsStatusInvariants_running running).mp
      (consistent.passes .jobsStatusInvariants)
  obtain ⟨firstAfter, lastAfter, _, _, runAfter⟩ :=
    (jobsTemporal_iff row).mp (consistent.passes .jobsTemporal)
  have lastPast := (consistent.last last lastSet).trans later
  refine
    { passes := ?_
      created := consistent.created.trans later
      first := fun first set => (consistent.first first set).trans later
      last := fun last set => (consistent.last last set).trans later }
  refine passesChecks_of_update consistent.passes rfl rfl rfl positive.le
    (row.passesChecks_iff.mp consistent.passes).2.2.2.1 short ?_ ?_
  · rw [jobsStatusInvariants_terminal terminal]
    exact ⟨⟨now, rfl⟩, rfl, rfl⟩
  · rw [jobsTemporal_iff]
    refine ⟨firstAfter, lastAfter, ?_, consistent.created.trans later,
      runAfter⟩
    rintro _ ⟨⟩
    change row.lastAttemptedAt.getD row.createdAt ≤ now
    rw [lastSet]
    exact lastPast

/-- The version of a running row that `mark_retry` and a reap of any other row
write. -/
private theorem requeued
    (consistent : row.Consistent clock) (later : clock ≤ now)
    (running : row.status = .running) (lastError : Option String)
    (short : ∀ text, lastError = some text → text.length ≤ 8192)
    (runAt : Int) (notBefore : row.createdAt ≤ runAt) :
    Row.Consistent now
      { row with
        status := .awaitingRetry
        lastError := lastError
        runAt := runAt
        leaseToken := none
        leaseExpiresAt := none
        updatedAt := now } := by
  obtain ⟨positive, last, first, unfinished, _⟩ :=
    (jobsStatusInvariants_running running).mp
      (consistent.passes .jobsStatusInvariants)
  obtain ⟨firstAfter, lastAfter, finishedAfter, _⟩ :=
    (jobsTemporal_iff row).mp (consistent.passes .jobsTemporal)
  refine
    { passes := ?_
      created := consistent.created.trans later
      first := fun first set => (consistent.first first set).trans later
      last := fun last set => (consistent.last last set).trans later }
  refine passesChecks_of_update consistent.passes rfl rfl rfl positive.le
    (row.passesChecks_iff.mp consistent.passes).2.2.2.1 short ?_ ?_
  · rw [jobsStatusInvariants_awaitingRetry rfl]
    exact ⟨positive, last, first, unfinished, rfl, rfl⟩
  · rw [jobsTemporal_iff]
    exact ⟨firstAfter, lastAfter, finishedAfter,
      consistent.created.trans later, notBefore⟩

theorem marked
    (consistent : row.Consistent clock) (later : clock ≤ now)
    (running : row.status = .running) (mark : Mark)
    (short : ∀ reason, mark.reason = some reason →
      reason.length ≤ maxLastErrorLen) :
    (mark.markedRow now row).Consistent now := by
  cases mark with
  | done =>
      exact consistent.finished later running .done (Or.inl rfl) none
        (fun _ stored => nomatch stored)
  | dead reason =>
      exact consistent.finished later running .dead (Or.inr rfl)
        (some reason) short
  | retry reason delay =>
      apply consistent.requeued later running (some reason) short
      have created := consistent.created
      change row.createdAt ≤ now + retryMicros delay
      omega

theorem reaped
    (consistent : row.Consistent clock) (later : clock ≤ now)
    (running : row.status = .running) :
    (reapedRow now row).Consistent now := by
  cases exhausted : row.exhausted with
  | true =>
      have version : reapedRow now row =
          { row with
            status := .dead
            finishedAt := some now
            lastError := some "lease_expired_max_attempts"
            leaseToken := none
            leaseExpiresAt := none
            updatedAt := now } := by
        simp [reapedRow, reapedVersion, setUpdatedAt, exhausted]
      rw [version]
      apply consistent.finished later running .dead (Or.inr rfl)
      rintro _ ⟨⟩
      decide
  | false =>
      have unfinished := ((jobsStatusInvariants_running running).mp
        (consistent.passes .jobsStatusInvariants)).2.2.2.1
      have version : reapedRow now row =
          { row with
            status := .awaitingRetry
            lastError := some "lease_expired"
            runAt := row.runAt
            leaseToken := none
            leaseExpiresAt := none
            updatedAt := now } := by
        simp [reapedRow, reapedVersion, setUpdatedAt, exhausted, unfinished]
      rw [version]
      apply consistent.requeued later running
      · rintro _ ⟨⟩
        decide
      · exact ((jobsTemporal_iff row).mp
          (consistent.passes .jobsTemporal)).2.2.2.2

end Row.Consistent

/-! ## One step -/

/-- Every stored row is consistent with the clock. -/
def DbState.Consistent (state : DbState) : Prop :=
  ∀ id row, state.jobs.find id = some row → row.Consistent state.clock

theorem DbState.consistent_initial (clock : Int) :
    (DbState.initial clock).Consistent := by
  intro id row found
  cases found

section Step

variable {T : Type} {state : DbState} {event : Event T}

/-- The reasons of an admissible mark fit into `last_error`. -/
theorem DbState.Admissible.short
    (admissible : state.Admissible event) {id : Nat} {token : Uuid}
    {mark : Mark} (isMark : event.statement = .mark id token mark) :
    ∀ reason, mark.reason = some reason →
      reason.length ≤ maxLastErrorLen := by
  intro reason stored
  obtain ⟨text, rfl⟩ := admissible.trimmed id token mark isMark reason stored
  exact length_fmtErrTrimmed_le text

theorem DbState.Consistent.step
    (consistent : state.Consistent) (admissible : state.Admissible event) :
    (state.after event).Consistent := by
  intro id row found
  have later := admissible.clock
  obtain ⟨now, statement⟩ := event
  cases state.rowEffect now statement id with
  | same _ unchanged =>
      rw [unchanged] at found
      exact (consistent id row found).mono later
  | inserted _ new _ _ _ _ passes after =>
      rw [after] at found
      cases found
      exact Row.Consistent.inserted passes
  | claimed params gen lockedElsewhere old leaseMicros before runnable
      _ _ _ after =>
      rw [after] at found
      cases found
      exact (consistent id old before).claimed later
        (Row.waiting_of_runnable runnable) gen leaseMicros _
  | marked token mark old before running _ _ after =>
      rw [after] at found
      cases found
      exact (consistent id old before).marked later running mark
        (admissible.short rfl)
  | reaped queue batchLimit tie lockedElsewhere old before stale after =>
      rw [after] at found
      cases found
      exact (consistent id old before).reaped later
        (Row.stale_iff.mp stale).2.1
  | purged _ _ _ _ _ _ _ _ _ _ after =>
      rw [after] at found
      cases found

/-- A statement that fails leaves the table as it was. -/
theorem jobs_of_checkRejected (jobs : Jobs) (now : Int)
    (statement : Statement T)
    (rejected : (execute jobs now statement).2.CheckRejected) :
    (execute jobs now statement).1 = jobs := by
  have kept {Value Failure : Type}
      (outcome : Except Failure (Jobs × Value)) (reply : Value → Reply)
      (refusal : Failure → Reply)
      (neverRejected : ∀ value, ¬ (reply value).CheckRejected)
      (isRejected : (commitOr jobs outcome reply refusal).2.CheckRejected) :
      (commitOr jobs outcome reply refusal).1 = jobs := by
    cases outcome with
    | error failure => rfl
    | ok committed => exact (neverRejected committed.2 isRejected).elim
  cases statement with
  | push => exact kept _ _ _ (fun _ => id) rejected
  | pushAt => exact kept _ _ _ (fun _ => id) rejected
  | pushBatch => exact kept _ _ _ (fun _ => id) rejected
  | claim => exact kept _ _ _ (fun _ => id) rejected
  | mark => exact kept _ _ _ (fun _ => id) rejected
  | reap => exact kept _ _ _ (fun _ => id) rejected
  | purge => exact kept _ _ _ (fun _ => id) rejected

/-- A `push_at` that reaches its INSERT with a `run_at` in the past. -/
def Event.IsLatePushAt (event : Event T) : Prop :=
  ∃ pusher publicId payload runAt concurrencyKey,
    event.statement =
      .pushAt pusher publicId payload runAt concurrencyKey ∧
    (∃ bytes, pusher.Sends payload (some runAt) concurrencyKey bytes) ∧
    runAt < event.now

theorem commitOr_checkRejected_iff
    {Value Failure : Type} {jobs : Jobs}
    {outcome : Except Failure (Jobs × Value)} {reply : Value → Reply}
    {refusal : Failure → Reply}
    (neverRejected : ∀ value, ¬ (reply value).CheckRejected) :
    (commitOr jobs outcome reply refusal).2.CheckRejected ↔
      ∃ failure, outcome = .error failure ∧
        (refusal failure).CheckRejected := by
  cases outcome with
  | error failure => simp [commitOr]
  | ok committed => simp [commitOr, neverRejected]

/-- In a consistent state only a late `push_at` is rejected by a CHECK. -/
theorem DbState.Consistent.checkRejected_iff
    (consistent : state.Consistent) (admissible : state.Admissible event) :
    (state.reply event).CheckRejected ↔ event.IsLatePushAt := by
  have later := admissible.clock
  unfold DbState.reply Event.IsLatePushAt
  cases shape : event.statement with
  | push pusher publicId payload concurrencyKey =>
      rw [execute, commitOr_checkRejected_iff (fun _ => id)]
      simp only [reduceCtorEq, false_and, exists_false, iff_false]
      intro rejected
      have late := (Pusher.pushOne_checkViolation_iff.mp rejected).2
      simp at late
  | pushAt pusher publicId payload runAt concurrencyKey =>
      rw [execute, commitOr_checkRejected_iff (fun _ => id)]
      refine Pusher.pushOne_checkViolation_iff.trans ?_
      constructor
      · rintro ⟨sends, late⟩
        exact ⟨pusher, publicId, payload, runAt, concurrencyKey, rfl, sends,
          late⟩
      · rintro ⟨_, _, _, _, _, same, sends, late⟩
        cases same
        exact ⟨sends, late⟩
  | pushBatch pusher draw items =>
      rw [execute, commitOr_checkRejected_iff (fun _ => id)]
      simp only [reduceCtorEq, false_and, exists_false, iff_false]
      rintro ⟨failure, refused, isCheck⟩
      rcases Pusher.pushBatch_cases pusher state.jobs event.now draw items
        with ⟨_, notCheck, _, result⟩ | ⟨_, _, _, _, result⟩
      · rw [result] at refused
        cases refused
        exact notCheck isCheck
      · rw [result] at refused
        cases refused
  | claim params gen lockedElsewhere =>
      rw [execute, commitOr_checkRejected_iff (fun _ => id)]
      simp only [reduceCtorEq, false_and, exists_false, iff_false]
      rintro ⟨failure, refused, isCheck⟩
      rcases claimBatchRaw_eq_error refused with
        notCheck | ⟨row, stored, runnable, leaseMicros, violates⟩
      · exact notCheck isCheck
      · exact violates ((consistent row.id row
          (Jobs.find_id_of_mem stored)).claimed later
            (Row.waiting_of_runnable runnable) gen leaseMicros _).passes
  | mark target token mark =>
      rw [execute, commitOr_checkRejected_iff (fun _ => id)]
      simp only [reduceCtorEq, false_and, exists_false, iff_false]
      rintro ⟨failure, refused, isCheck⟩
      rcases Mark.execute_eq_error refused with
        rfl | rfl | ⟨row, found, running, _, violates⟩
      · exact absurd isCheck (by decide : ¬ SqlError.IsCheckViolation _)
      · exact absurd isCheck (by decide : ¬ SqlError.IsCheckViolation _)
      · exact violates ((consistent target row found).marked later running mark
          (admissible.short shape)).passes
  | reap queue batchLimit tie lockedElsewhere =>
      rw [execute, commitOr_checkRejected_iff (fun _ => id)]
      simp only [reduceCtorEq, false_and, exists_false, iff_false]
      rintro ⟨failure, refused, isCheck⟩
      rcases reap_eq_error refused with
        ⟨_, rfl⟩ | ⟨row, stored, stale, violates⟩
      · exact absurd isCheck (by decide : ¬ SqlError.IsCheckViolation _)
      · exact violates ((consistent row.id row
          (Jobs.find_id_of_mem stored)).reaped later
            (Row.stale_iff.mp stale).2.1).passes
  | purge status age tie lockedElsewhere =>
      rw [execute, commitOr_checkRejected_iff (fun _ => id)]
      simp only [reduceCtorEq, false_and, exists_false, iff_false]
      rintro ⟨failure, refused, isCheck⟩
      rcases purgeChunk_eq_error refused with rfl | rfl
      · exact absurd isCheck (by decide : ¬ SqlError.IsCheckViolation _)
      · exact absurd isCheck (by decide : ¬ SqlError.IsCheckViolation _)

end Step

/-! ## Every run -/

section Run

variable {T : Type} {clock : Int}
  {trace : List (Transition DbState (Event T))} {finish : DbState}

theorem consistent_of_run
    (run : Run (DbState.Step T) (DbState.initial clock) trace finish) :
    finish.Consistent :=
  run.invariant DbState.Consistent (DbState.consistent_initial clock)
    fun _ _ _ consistent ⟨admissible, next⟩ =>
      next ▸ consistent.step admissible

/-- In every table the library can reach, every row passes every CHECK; and of
the statements executed there only a `push_at` with a `run_at` before its
`created_at` is rejected by a CHECK, and it leaves the table unchanged. -/
theorem checks_hold_and_reject_only_late_pushAt
    (run : Run (DbState.Step T) (DbState.initial clock) trace finish) :
    (∀ row ∈ finish.jobs.rows, row.PassesChecks) ∧
      ∀ event : Event T, finish.Admissible event →
        ((finish.reply event).CheckRejected ↔ event.IsLatePushAt) ∧
        ((finish.reply event).CheckRejected →
          (finish.after event).jobs = finish.jobs) := by
  have consistent := consistent_of_run run
  refine ⟨?_, ?_⟩
  · intro row stored
    exact (consistent row.id row (Jobs.find_id_of_mem stored)).passes
  · intro event admissible
    exact ⟨consistent.checkRejected_iff admissible,
      jobs_of_checkRejected finish.jobs event.now event.statement⟩

theorem checks_hold_on_lateMark :
    let finish := (DbState.initial 0).afterAll LateMark.events
    (∀ row ∈ finish.jobs.rows, row.PassesChecks) ∧
      ∀ event : Event Unit, finish.Admissible event →
        ((finish.reply event).CheckRejected ↔ event.IsLatePushAt) ∧
        ((finish.reply event).CheckRejected →
          (finish.after event).jobs = finish.jobs) :=
  checks_hold_and_reject_only_late_pushAt LateMark.run

end Run

end PgWorkQueue
