import Mathlib.Data.List.Basic

/-!
# The table `pgwq.jobs`

Columns, CHECK constraints and the two BEFORE UPDATE triggers of the two
migrations.  A column is a field of `Row` under its own name; a nullable
column is an `Option`.  A `TIMESTAMPTZ` is an `Int`, the microseconds since
2000-01-01 that Postgres stores.  Every CHECK of the schema is written with two-valued
connectives: each comparison with a nullable column stands behind an
`IS NULL` guard or a `COALESCE`, so no CHECK ever evaluates to NULL.
-/

namespace PgWorkQueue

/-- A UUID.  Nothing in the library looks inside one. -/
structure Uuid where
  bits : Nat
  deriving DecidableEq, Repr

/-- `BYTEA`. -/
abbrev Bytes := List UInt8

/-- `pgwq.job_status`. -/
inductive JobStatus where
  | queued
  | running
  | awaitingRetry
  | done
  | dead
  deriving DecidableEq, Repr

/-- One row of `pgwq.jobs`.  The `INTEGER` columns are signed; the CHECKs, not
the type, keep them nonnegative. -/
structure Row where
  id : Nat
  publicId : Uuid
  queue : String
  payload : Bytes
  status : JobStatus
  attempts : Int
  maxAttempts : Int
  leaseToken : Option Uuid
  leaseExpiresAt : Option Int
  lastError : Option String
  lastAttemptedAt : Option Int
  firstAttemptedAt : Option Int
  finishedAt : Option Int
  runAt : Int
  createdAt : Int
  updatedAt : Int
  concurrencyKey : Option String
  deriving DecidableEq, Repr

/-! ## CHECK constraints -/

/-- The CHECK constraints of the table, by name. -/
inductive CheckConstraint where
  | jobsAttemptsNonneg
  | jobsConcurrencyKeyLen
  | jobsLastErrorMaxLen
  | jobsMaxAttemptsNonneg
  | jobsPayloadMaxSize
  | jobsQueueMaxLen
  | jobsQueueNonempty
  | jobsStatusInvariants
  | jobsTemporal
  deriving DecidableEq, Repr

/-- `jobs_temporal`. -/
def jobsTemporal (row : Row) : Bool :=
  (row.firstAttemptedAt.all fun first =>
    decide (row.createdAt ≤ first)) &&
  (row.lastAttemptedAt.all fun last =>
    decide (row.firstAttemptedAt.getD row.createdAt ≤ last)) &&
  (row.finishedAt.all fun finished =>
    decide (row.lastAttemptedAt.getD row.createdAt ≤ finished)) &&
  decide (row.createdAt ≤ row.updatedAt) &&
  decide (row.createdAt ≤ row.runAt)

/-- `jobs_status_invariants`. -/
def jobsStatusInvariants (row : Row) : Bool :=
  (row.status == .queued &&
    row.attempts == 0 &&
    row.lastAttemptedAt.isNone &&
    row.firstAttemptedAt.isNone &&
    row.finishedAt.isNone &&
    row.leaseToken.isNone &&
    row.leaseExpiresAt.isNone) ||
  (row.status == .running &&
    decide (0 < row.attempts) &&
    row.lastAttemptedAt.isSome &&
    row.firstAttemptedAt.isSome &&
    row.finishedAt.isNone &&
    row.leaseToken.isSome &&
    row.leaseExpiresAt.isSome) ||
  (row.status == .awaitingRetry &&
    decide (0 < row.attempts) &&
    row.lastAttemptedAt.isSome &&
    row.firstAttemptedAt.isSome &&
    row.finishedAt.isNone &&
    row.leaseToken.isNone &&
    row.leaseExpiresAt.isNone) ||
  ((row.status == .done || row.status == .dead) &&
    row.finishedAt.isSome &&
    row.leaseToken.isNone &&
    row.leaseExpiresAt.isNone)

namespace CheckConstraint

/-- Whether a row passes a CHECK. -/
def holds (row : Row) : CheckConstraint → Bool
  | jobsAttemptsNonneg => decide (0 ≤ row.attempts)
  | jobsConcurrencyKeyLen =>
      row.concurrencyKey.all fun key =>
        decide (1 ≤ key.length) && decide (key.length ≤ 128)
  | jobsLastErrorMaxLen =>
      row.lastError.all fun text => decide (text.length ≤ 8192)
  | jobsMaxAttemptsNonneg => decide (0 ≤ row.maxAttempts)
  | jobsPayloadMaxSize => decide (row.payload.length ≤ 1048576)
  | jobsQueueMaxLen => decide (row.queue.length ≤ 64)
  | jobsQueueNonempty => decide (0 < row.queue.length)
  | jobsStatusInvariants => PgWorkQueue.jobsStatusInvariants row
  | jobsTemporal => PgWorkQueue.jobsTemporal row

/-- Postgres evaluates the CHECKs of a table in the order of their names. -/
def all : List CheckConstraint :=
  [jobsAttemptsNonneg, jobsConcurrencyKeyLen, jobsLastErrorMaxLen,
    jobsMaxAttemptsNonneg, jobsPayloadMaxSize, jobsQueueMaxLen,
    jobsQueueNonempty, jobsStatusInvariants, jobsTemporal]

theorem mem_all (constraint : CheckConstraint) : constraint ∈ all := by
  cases constraint <;> decide

end CheckConstraint

/-- A row that passes every CHECK of the table. -/
def Row.PassesChecks (row : Row) : Prop :=
  ∀ constraint, CheckConstraint.holds row constraint = true

/-- The CHECK a row is rejected for, if any. -/
def Row.violatedCheck (row : Row) : Option CheckConstraint :=
  CheckConstraint.all.find? fun constraint =>
    !CheckConstraint.holds row constraint

theorem Row.violatedCheck_eq_none_iff (row : Row) :
    row.violatedCheck = none ↔ row.PassesChecks := by
  simp only [violatedCheck, List.find?_eq_none, Bool.not_eq_true',
    Bool.not_eq_false, PassesChecks]
  constructor
  · intro none constraint
    exact none constraint (CheckConstraint.mem_all constraint)
  · intro passes constraint _
    exact passes constraint

instance (row : Row) : Decidable row.PassesChecks :=
  decidable_of_iff _ row.violatedCheck_eq_none_iff

/-- The CHECKs read as propositions. -/
theorem Row.passesChecks_iff (row : Row) :
    row.PassesChecks ↔
      0 ≤ row.attempts ∧
        (∀ key, row.concurrencyKey = some key →
          1 ≤ key.length ∧ key.length ≤ 128) ∧
        (∀ text, row.lastError = some text → text.length ≤ 8192) ∧
        0 ≤ row.maxAttempts ∧ row.payload.length ≤ 1048576 ∧
        row.queue.length ≤ 64 ∧ 0 < row.queue.length ∧
        jobsStatusInvariants row = true ∧ jobsTemporal row = true := by
  unfold PassesChecks
  constructor
  · intro passes
    refine ⟨of_decide_eq_true (passes .jobsAttemptsNonneg), ?_, ?_,
      of_decide_eq_true (passes .jobsMaxAttemptsNonneg),
      of_decide_eq_true (passes .jobsPayloadMaxSize),
      of_decide_eq_true (passes .jobsQueueMaxLen),
      of_decide_eq_true (passes .jobsQueueNonempty),
      passes .jobsStatusInvariants, passes .jobsTemporal⟩
    · intro key keyed
      simpa [CheckConstraint.holds, keyed] using
        passes .jobsConcurrencyKeyLen
    · intro text stored
      simpa [CheckConstraint.holds, stored] using
        passes .jobsLastErrorMaxLen
  · rintro ⟨attempts, keyLen, errorLen, maxAttempts, payload, queueShort,
      queueNonempty, status, temporal⟩ constraint
    cases constraint with
    | jobsAttemptsNonneg => exact decide_eq_true attempts
    | jobsConcurrencyKeyLen =>
        simpa [CheckConstraint.holds, Option.all_eq_true] using keyLen
    | jobsLastErrorMaxLen =>
        simpa [CheckConstraint.holds, Option.all_eq_true] using errorLen
    | jobsMaxAttemptsNonneg => exact decide_eq_true maxAttempts
    | jobsPayloadMaxSize => exact decide_eq_true payload
    | jobsQueueMaxLen => exact decide_eq_true queueShort
    | jobsQueueNonempty => exact decide_eq_true queueNonempty
    | jobsStatusInvariants => exact status
    | jobsTemporal => exact temporal

theorem jobsTemporal_iff (row : Row) :
    jobsTemporal row = true ↔
      (∀ first, row.firstAttemptedAt = some first → row.createdAt ≤ first) ∧
        (∀ last, row.lastAttemptedAt = some last →
          row.firstAttemptedAt.getD row.createdAt ≤ last) ∧
        (∀ finished, row.finishedAt = some finished →
          row.lastAttemptedAt.getD row.createdAt ≤ finished) ∧
        row.createdAt ≤ row.updatedAt ∧ row.createdAt ≤ row.runAt := by
  simp [jobsTemporal, Option.all_eq_true, and_assoc]

section StatusInvariants

variable {row : Row}

theorem jobsStatusInvariants_queued (status : row.status = .queued) :
    jobsStatusInvariants row = true ↔
      row.attempts = 0 ∧ row.lastAttemptedAt = none ∧
        row.firstAttemptedAt = none ∧ row.finishedAt = none ∧
        row.leaseToken = none ∧ row.leaseExpiresAt = none := by
  simp [jobsStatusInvariants, status, and_assoc]

theorem jobsStatusInvariants_running (status : row.status = .running) :
    jobsStatusInvariants row = true ↔
      0 < row.attempts ∧ (∃ last, row.lastAttemptedAt = some last) ∧
        (∃ first, row.firstAttemptedAt = some first) ∧
        row.finishedAt = none ∧ (∃ token, row.leaseToken = some token) ∧
        ∃ expiry, row.leaseExpiresAt = some expiry := by
  simp [jobsStatusInvariants, status, and_assoc, Option.isSome_iff_exists]

theorem jobsStatusInvariants_awaitingRetry
    (status : row.status = .awaitingRetry) :
    jobsStatusInvariants row = true ↔
      0 < row.attempts ∧ (∃ last, row.lastAttemptedAt = some last) ∧
        (∃ first, row.firstAttemptedAt = some first) ∧
        row.finishedAt = none ∧ row.leaseToken = none ∧
        row.leaseExpiresAt = none := by
  simp [jobsStatusInvariants, status, and_assoc, Option.isSome_iff_exists]

theorem jobsStatusInvariants_terminal
    (status : row.status = .done ∨ row.status = .dead) :
    jobsStatusInvariants row = true ↔
      (∃ finished, row.finishedAt = some finished) ∧
        row.leaseToken = none ∧ row.leaseExpiresAt = none := by
  rcases status with status | status <;>
    simp [jobsStatusInvariants, status, and_assoc, Option.isSome_iff_exists]

end StatusInvariants

/-! ## Triggers -/

/-- `pgwq.set_updated_at`. -/
def setUpdatedAt (now : Int) (new : Row) : Row :=
  { new with updatedAt := now }

/-- `pgwq.assert_concurrency_key_immutable`: whether the trigger lets the new
version pass. -/
def concurrencyKeyUnchanged (old new : Row) : Bool :=
  old.concurrencyKey == new.concurrencyKey

end PgWorkQueue
