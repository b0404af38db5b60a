import PgWorkQueue.Client.Claim
import PgWorkQueue.Client.Mark
import PgWorkQueue.Client.Pusher

/-!
# From a claimed row to its mark

`claim_and_decode` turns each claimed row into a `Job` or buries it;
`handle_job` runs the handler on the job and issues the mark its result asks
for.  A function that issues a mark is modelled by the mark it issues, with
`none` when the task panics before it gets there.

`BackoffPolicy::next` computes in `f64` and draws a jitter; it enters here as
the function `backoffNext` from the attempt number to the delay.
-/

namespace PgWorkQueue

/-- `Job<T>`. -/
structure Job (T : Type) where
  id : Nat
  publicId : Uuid
  queue : String
  concurrencyKey : Option String
  payload : T
  attempts : Nat
  maxAttempts : Nat
  firstAttemptedAt : Int
  leaseToken : Uuid
  leaseExpiresAt : Int

/-- `JobError`. -/
inductive JobError where
  | retry (reason : String) (retryIn : Option Duration)
  | abort (reason : String)

/-- `PanicPolicy`. -/
inductive PanicPolicy where
  | retry
  | dead
  deriving DecidableEq, Repr

/-! ## `claim_and_decode`, row by row -/

/-- The body of the loop of `claim_and_decode`: the job, or the reason under
which `mark_dead` is issued. -/
def decodeRow {T : Type} (codec : Codec T) (raw : RawClaimedRow) :
    Except String (Job T) :=
  match codec.decode raw.payload with
  | .value payload =>
      .ok
        { id := raw.id
          publicId := raw.publicId
          queue := raw.queue
          concurrencyKey := raw.concurrencyKey
          payload := payload
          attempts := raw.attempts
          maxAttempts := raw.maxAttempts
          firstAttemptedAt := raw.firstAttemptedAt
          leaseToken := raw.leaseToken
          leaseExpiresAt := raw.leaseExpiresAt }
  | .failed message => .error (fmtErrTrimmed ("codec decode: " ++ message))
  | .panicked message => .error (fmtErrTrimmed ("codec panic: " ++ message))

/-- The job has the columns of the row and the payload that the codec read. -/
theorem job_of_decodeRow {T : Type} {codec : Codec T}
    {raw : RawClaimedRow} {job : Job T}
    (decoded : decodeRow codec raw = .ok job) :
    ∃ payload, codec.decode raw.payload = .value payload ∧
      job =
        { id := raw.id
          publicId := raw.publicId
          queue := raw.queue
          concurrencyKey := raw.concurrencyKey
          payload := payload
          attempts := raw.attempts
          maxAttempts := raw.maxAttempts
          firstAttemptedAt := raw.firstAttemptedAt
          leaseToken := raw.leaseToken
          leaseExpiresAt := raw.leaseExpiresAt } := by
  unfold decodeRow at decoded
  split at decoded
  · rename_i payload read
    cases decoded
    exact ⟨payload, read, rfl⟩
  · cases decoded
  · cases decoded

/-! ## Retry delays -/

/-- `MIN_RETRY_IN`, 100 ms. -/
def minRetryIn : Duration := ⟨100 * 1000000, by decide⟩

/-- `MAX_RETRY_IN`, 24 h. -/
def maxRetryIn : Duration := ⟨24 * 3600 * 1000000000, by decide⟩

/-- The part of a worker's configuration that retry delays depend on. -/
structure RetryConfig where
  backoffNext : Nat → Duration
  pollInterval : Duration

/-- `Ord::clamp`, which panics when the bounds are out of order. -/
def Duration.clamp (requested floor ceiling : Duration) : Option Duration :=
  if ceiling.nanos < floor.nanos then none
  else if requested.nanos < floor.nanos then some floor
  else if ceiling.nanos < requested.nanos then some ceiling
  else some requested

def computeRetryDelay (config : RetryConfig) (retryIn : Option Duration)
    (attempts : Nat) : Option Duration :=
  match retryIn with
  | none => some (config.backoffNext attempts)
  | some requested =>
      let floor :=
        if config.pollInterval.nanos ≤ minRetryIn.nanos then minRetryIn
        else config.pollInterval
      requested.clamp floor maxRetryIn

/-! ## Handler results -/

/-- The mark that `apply_handler_result_state` issues, with the attempt
numbers of the job as it was claimed. -/
def applyHandlerResultState (config : RetryConfig)
    (attempts maxAttempts : Nat) : Except JobError Unit → Option Mark
  | .ok () => some .done
  | .error (.retry reason retryIn) =>
      let reason := fmtErrTrimmed reason
      if maxAttempts ≤ attempts then
        some (.dead reason)
      else
        (computeRetryDelay config retryIn attempts).map (.retry reason)
  | .error (.abort reason) => some (.dead (fmtErrTrimmed reason))

/-- The mark that `apply_handler_result`, its counterpart in `tick_once`,
issues. -/
def applyHandlerResult (config : RetryConfig)
    (attempts maxAttempts : Nat) : Except JobError Unit → Option Mark
  | .ok () => some .done
  | .error (.retry reason retryIn) =>
      let reason := fmtErrTrimmed reason
      if maxAttempts ≤ attempts then
        some (.dead reason)
      else
        (computeRetryDelay config retryIn attempts).map (.retry reason)
  | .error (.abort reason) => some (.dead (fmtErrTrimmed reason))

/-- How the inner task of `handle_job` ends. -/
inductive HandlerOutcome where
  | returned (result : Except JobError Unit)
  | elapsed
  | panicked (message : String)
  | cancelled

/-- The mark that `handle_job` issues. -/
def handleJob (config : RetryConfig) (policy : PanicPolicy)
    (attempts maxAttempts : Nat) : HandlerOutcome → Option Mark
  | .returned result =>
      applyHandlerResultState config attempts maxAttempts result
  | .elapsed =>
      applyHandlerResultState config attempts maxAttempts
        (.error (.retry "handler_timeout" none))
  | .panicked message =>
      let reason := fmtErrTrimmed ("panic: " ++ message)
      match policy with
      | .retry =>
          applyHandlerResultState config attempts maxAttempts
            (.error (.retry reason none))
      | .dead => some (.dead reason)
  | .cancelled => none

/-! ## The marks of the worker paths -/

/-- The marks a worker issues for a row it claimed as `raw`: after the handler
of a started worker, after the handler of `tick_once`, and for a payload that
does not decode. -/
inductive WorkerMark (raw : RawClaimedRow) : Mark → Prop
  | handled {config : RetryConfig} {policy : PanicPolicy}
      {outcome : HandlerOutcome} {mark : Mark}
      (issued : handleJob config policy raw.attempts raw.maxAttempts
        outcome = some mark) :
      WorkerMark raw mark
  | ticked {config : RetryConfig} {result : Except JobError Unit}
      {mark : Mark}
      (issued : applyHandlerResult config raw.attempts raw.maxAttempts
        result = some mark) :
      WorkerMark raw mark
  | undecodable {T : Type} {codec : Codec T} {reason : String}
      (refused : decodeRow codec raw = .error reason) :
      WorkerMark raw (.dead reason)

section Verdict

variable {config : RetryConfig} {attempts maxAttempts : Nat}
  {reason : String} {retryIn : Option Duration} {mark : Mark}

/-- On `Retry` the verdict is a function of the two numbers only. -/
theorem applyHandlerResultState_retry_status
    (issued : applyHandlerResultState config attempts maxAttempts
      (.error (.retry reason retryIn)) = some mark) :
    mark.status =
      if maxAttempts ≤ attempts then .dead else .awaitingRetry := by
  unfold applyHandlerResultState at issued
  by_cases exhausted : maxAttempts ≤ attempts
  · rw [if_pos exhausted]
    simp only [if_pos exhausted, Option.some.injEq] at issued
    rw [← issued]
    rfl
  · rw [if_neg exhausted]
    simp only [if_neg exhausted, Option.map_eq_some_iff] at issued
    obtain ⟨delay, _, rfl⟩ := issued
    rfl

/-- The two execution paths route results alike. -/
theorem applyHandlerResult_eq (config : RetryConfig)
    (attempts maxAttempts : Nat) (result : Except JobError Unit) :
    applyHandlerResult config attempts maxAttempts result =
      applyHandlerResultState config attempts maxAttempts result := by
  cases result with
  | ok done => rfl
  | error failure => cases failure <;> rfl

/-- A worker retries only a job that has attempts left. -/
theorem applyHandlerResultState_eq_retry
    {result : Except JobError Unit} {stored : String} {delay : Duration}
    (issued : applyHandlerResultState config attempts maxAttempts result =
      some (.retry stored delay)) :
    attempts < maxAttempts := by
  cases result with
  | ok done => simp [applyHandlerResultState] at issued
  | error failure =>
      cases failure with
      | abort reason => simp [applyHandlerResultState] at issued
      | retry reason retryIn =>
          have verdict := applyHandlerResultState_retry_status issued
          by_contra exhausted
          rw [if_pos (by omega)] at verdict
          cases verdict

/-- Every mark of a worker path is the verdict on a handler result or buries
the job under a trimmed reason. -/
theorem WorkerMark.routed
    {raw : RawClaimedRow} (issued : WorkerMark raw mark) :
    (∃ config result, applyHandlerResultState config raw.attempts
        raw.maxAttempts result = some mark) ∨
      ∃ text, mark = .dead (fmtErrTrimmed text) := by
  cases issued with
  | @handled config policy outcome _ issued =>
      cases outcome with
      | returned result =>
          exact Or.inl ⟨config, result, issued⟩
      | elapsed =>
          exact Or.inl ⟨config, .error (.retry "handler_timeout" none), issued⟩
      | cancelled =>
          cases issued
      | panicked message =>
          cases policy with
          | retry =>
              exact Or.inl ⟨config, .error (.retry
                (fmtErrTrimmed ("panic: " ++ message)) none), issued⟩
          | dead =>
              cases issued
              exact Or.inr ⟨"panic: " ++ message, rfl⟩
  | @ticked config result _ issued =>
      rw [applyHandlerResult_eq] at issued
      exact Or.inl ⟨config, result, issued⟩
  | undecodable refused =>
      unfold decodeRow at refused
      split at refused
      · cases refused
      · cases refused
        exact Or.inr ⟨_, rfl⟩
      · cases refused
        exact Or.inr ⟨_, rfl⟩

theorem WorkerMark.attempts_lt_of_retry
    {raw : RawClaimedRow} {stored : String} {delay : Duration}
    (issued : WorkerMark raw (.retry stored delay)) :
    raw.attempts < raw.maxAttempts := by
  rcases issued.routed with ⟨config, result, verdict⟩ | ⟨text, buried⟩
  · exact applyHandlerResultState_eq_retry verdict
  · cases buried

theorem applyHandlerResultState_trimmed
    {result : Except JobError Unit} {stored : String}
    (issued : applyHandlerResultState config attempts maxAttempts result =
      some mark)
    (hasReason : mark.reason = some stored) :
    ∃ text, stored = fmtErrTrimmed text := by
  cases result with
  | ok done =>
      cases issued
      cases hasReason
  | error failure =>
      cases failure with
      | abort reason =>
          cases issued
          cases hasReason
          exact ⟨reason, rfl⟩
      | retry reason retryIn =>
          unfold applyHandlerResultState at issued
          dsimp only at issued
          split at issued
          · cases issued
            cases hasReason
            exact ⟨reason, rfl⟩
          · obtain ⟨delay, _, rfl⟩ := Option.map_eq_some_iff.mp issued
            cases hasReason
            exact ⟨reason, rfl⟩

/-- Every reason a worker stores has been trimmed. -/
theorem WorkerMark.trimmed
    {raw : RawClaimedRow} {stored : String} (issued : WorkerMark raw mark)
    (hasReason : mark.reason = some stored) :
    ∃ text, stored = fmtErrTrimmed text := by
  rcases issued.routed with ⟨config, result, verdict⟩ | ⟨text, rfl⟩
  · exact applyHandlerResultState_trimmed verdict hasReason
  · cases hasReason
    exact ⟨text, rfl⟩

end Verdict

end PgWorkQueue
