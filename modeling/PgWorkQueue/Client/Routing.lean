import PgWorkQueue.Client.Knobs

/-!
# Which mark a handler's behaviour leads to

`handle_job` calls the handler, spawns the future it returns into a task set of
its own and awaits that task.  A panic while the future is polled ends the
inner task and is routed by the panic policy.  The call itself is made by
`handle_job`, outside that task: a panic there unwinds `handle_job`.
-/

namespace PgWorkQueue

/-- What a handler can do with a job. -/
inductive HandlerBehaviour where
  | returns (result : Except JobError Unit)
  | exceedsTimeout
  /-- A panic while the future is polled. -/
  | panicsPolled (message : String)
  /-- A panic in the call, before there is a future. -/
  | panicsInCall (message : String)

/-- What `set.join_next()` gives `handle_job`; `none` when `handler.call`
unwinds. -/
def HandlerBehaviour.joined : HandlerBehaviour → Option HandlerOutcome
  | returns result => some (.returned result)
  | exceedsTimeout => some .elapsed
  | panicsPolled message => some (.panicked message)
  | panicsInCall _ => none

/-- The mark that `handle_job` issues for a job whose handler behaves so. -/
def handleJobOf (config : RetryConfig) (policy : PanicPolicy)
    (attempts maxAttempts : Nat) (behaviour : HandlerBehaviour) :
    Option Mark :=
  behaviour.joined.bind (handleJob config policy attempts maxAttempts)

/-- The status after a retry: the budget of attempts decides. -/
def retryStatus (attempts maxAttempts : Nat) : JobStatus :=
  if maxAttempts ≤ attempts then .dead else .awaitingRetry

/-- The table of outcomes: the status that each behaviour asks for. -/
def outcomeTable (policy : PanicPolicy) (attempts maxAttempts : Nat) :
    HandlerBehaviour → JobStatus
  | .returns (.ok ()) => .done
  | .returns (.error (.abort _)) => .dead
  | .returns (.error (.retry _ _)) | .exceedsTimeout =>
      retryStatus attempts maxAttempts
  | .panicsPolled _ | .panicsInCall _ =>
      match policy with
      | .dead => .dead
      | .retry => retryStatus attempts maxAttempts

/-- `handle_job` issues the mark that the table asks for. -/
def Routed (config : RetryConfig) (policy : PanicPolicy)
    (attempts maxAttempts : Nat) (behaviour : HandlerBehaviour) : Prop :=
  ∃ mark, handleJobOf config policy attempts maxAttempts behaviour = some mark ∧
    mark.status = outcomeTable policy attempts maxAttempts behaviour

section Retries

variable {config : RetryConfig} {attempts maxAttempts : Nat}
  {reason : String} {retryIn : Option Duration}

theorem exists_clamp_iff {requested floor ceiling : Duration} :
    (∃ delay, requested.clamp floor ceiling = some delay) ↔
      floor.nanos ≤ ceiling.nanos := by
  unfold Duration.clamp
  split
  · rename_i disordered
    simp only [reduceCtorEq, exists_false, false_iff]
    omega
  · rename_i ordered
    have below : floor.nanos ≤ ceiling.nanos := by omega
    simp only [below, iff_true]
    split
    · exact ⟨_, rfl⟩
    · split
      · exact ⟨_, rfl⟩
      · exact ⟨_, rfl⟩

/-- The delay is computed unless a requested one would be clamped between
bounds that are out of order. -/
theorem exists_computeRetryDelay_iff :
    (∃ delay, computeRetryDelay config retryIn attempts = some delay) ↔
      (retryIn.isSome → config.pollInterval.nanos ≤ maxRetryIn.nanos) := by
  cases retryIn with
  | none => simp [computeRetryDelay]
  | some requested =>
      have ordered : minRetryIn.nanos ≤ maxRetryIn.nanos := by decide
      simp only [computeRetryDelay, exists_clamp_iff, Option.isSome_some,
        true_implies]
      split
      · rename_i below
        simp only [ordered, true_iff]
        omega
      · exact Iff.rfl

/-- A result of `Retry` is routed when the budget is used up or the delay can
be computed. -/
theorem routed_retry_iff :
    (∃ mark, applyHandlerResultState config attempts maxAttempts
        (.error (.retry reason retryIn)) = some mark ∧
      mark.status = retryStatus attempts maxAttempts) ↔
      (retryIn.isSome → attempts < maxAttempts →
        config.pollInterval.nanos ≤ maxRetryIn.nanos) := by
  by_cases exhausted : maxAttempts ≤ attempts
  · have spent : ¬ attempts < maxAttempts := by omega
    simp only [applyHandlerResultState, retryStatus, if_pos exhausted, spent,
      false_implies, implies_true, iff_true]
    exact ⟨_, rfl, rfl⟩
  · have left : attempts < maxAttempts := by omega
    simp only [left, true_implies]
    constructor
    · rintro ⟨mark, issued, _⟩
      simp only [applyHandlerResultState, if_neg exhausted,
        Option.map_eq_some_iff] at issued
      obtain ⟨delay, computed, _⟩ := issued
      exact exists_computeRetryDelay_iff.mp ⟨delay, computed⟩
    · intro ordered
      obtain ⟨delay, computed⟩ :
          ∃ delay, computeRetryDelay config retryIn attempts = some delay :=
        exists_computeRetryDelay_iff.mpr ordered
      refine ⟨.retry (fmtErrTrimmed reason) delay, ?_, ?_⟩
      · simp only [applyHandlerResultState, if_neg exhausted, computed,
          Option.map_some]
      · rw [retryStatus, if_neg exhausted]
        rfl

end Retries

/-- What a started worker computes retry delays from; `next` is
`BackoffPolicy::next` with the jitter it draws. -/
def BuiltWorker.retryConfig {T : Type} (worker : BuiltWorker T)
    (next : BackoffPolicy → Nat → Duration) : RetryConfig where
  backoffNext := next worker.retryBackoff
  pollInterval := worker.pollInterval

/-- `handle_job` routes a behaviour exactly when the handler does not panic in
the call and no requested delay meets a poll interval above 24 h while
attempts are left. -/
theorem handleJob_routes_iff {T : Type} {builder : WorkerBuilder T}
    {host : Host} {worker : BuiltWorker T}
    (built : builder.build host = .ok worker)
    (next : BackoffPolicy → Nat → Duration) (job : Job T)
    (behaviour : HandlerBehaviour) :
    Routed (worker.retryConfig next) worker.panicPolicy job.attempts
        job.maxAttempts behaviour ↔
      (∀ message, behaviour ≠ .panicsInCall message) ∧
      ∀ reason requested,
        behaviour = .returns (.error (.retry reason (some requested))) →
        job.attempts < job.maxAttempts →
          builder.pollInterval.nanos ≤ maxRetryIn.nanos := by
  have poll : (worker.retryConfig next).pollInterval = builder.pollInterval :=
    (WorkerBuilder.builds_of_build built).pollInterval
  rw [← poll]
  cases behaviour with
  | returns result =>
      simp only [ne_eq, reduceCtorEq, not_false_eq_true, implies_true, true_and,
        HandlerBehaviour.returns.injEq]
      cases result with
      | ok done =>
          simp only [reduceCtorEq, false_implies, implies_true, iff_true]
          exact ⟨.done, rfl, rfl⟩
      | error failure =>
          cases failure with
          | abort reason =>
              simp only [Except.error.injEq, reduceCtorEq, false_implies,
                implies_true, iff_true]
              exact ⟨_, rfl, rfl⟩
          | retry reason retryIn =>
              refine routed_retry_iff.trans ?_
              simp only [Option.isSome_iff_exists, Except.error.injEq,
                JobError.retry.injEq]
              constructor
              · rintro ordered _ requested ⟨_, asked⟩ left
                exact ordered ⟨requested, asked⟩ left
              · rintro ordered ⟨requested, asked⟩ left
                exact ordered reason requested ⟨rfl, asked⟩ left
  | exceedsTimeout =>
      simp only [ne_eq, reduceCtorEq, not_false_eq_true, implies_true,
        false_implies, and_self, iff_true]
      exact routed_retry_iff.mpr fun requested => absurd requested (by decide)
  | panicsPolled message =>
      simp only [ne_eq, reduceCtorEq, not_false_eq_true, implies_true,
        false_implies, and_self, iff_true]
      simp only [Routed, handleJobOf, HandlerBehaviour.joined, Option.bind_some,
        handleJob, outcomeTable]
      cases worker.panicPolicy with
      | dead => exact ⟨_, rfl, rfl⟩
      | retry =>
          exact routed_retry_iff.mpr fun requested =>
            absurd requested (by decide)
  | panicsInCall message =>
      constructor
      · rintro ⟨mark, issued, _⟩
        cases issued
      · rintro ⟨noPanic, _⟩
        exact absurd rfl (noPanic message)

namespace SmallWorker

/-- One poll every 25 hours under a lease of 125 hours. -/
def dailyPolls : WorkerBuilder Unit :=
  { builder with
    leaseTimeout := .fromSecs 450000
    pollInterval := .fromSecs 90000 }

theorem exists_build_dailyPolls :
    ∃ worker, dailyPolls.build host = .ok worker :=
  exists_of_isOk (by decide +kernel)

/-- A job in the first of three attempts. -/
def job : Job Unit where
  id := 1
  publicId := ⟨1⟩
  queue := "emails"
  concurrencyKey := none
  payload := ()
  attempts := 1
  maxAttempts := 3
  firstAttemptedAt := 0
  leaseToken := ⟨7⟩
  leaseExpiresAt := 30000000

end SmallWorker

theorem handleJob_routes_on_smallWorker :
    ∃ worker, SmallWorker.builder.build SmallWorker.host = .ok worker ∧
      ∀ next result, Routed (worker.retryConfig next) worker.panicPolicy
        SmallWorker.job.attempts SmallWorker.job.maxAttempts
        (.returns result) := by
  obtain ⟨worker, built⟩ := SmallWorker.exists_build
  refine ⟨worker, built, fun next result => ?_⟩
  refine (handleJob_routes_iff built next SmallWorker.job _).mpr ⟨?_, ?_⟩
  · intro message impossible
    cases impossible
  · intro reason requested _ _
    decide

/-- A panic in the call leaves the job without a mark under either policy, and
so does a requested delay under a poll interval of 25 h. -/
theorem handleJob_leaves_jobs_unmarked :
    (∃ worker, SmallWorker.builder.build SmallWorker.host = .ok worker ∧
      ∀ next policy message, handleJobOf (worker.retryConfig next) policy
        SmallWorker.job.attempts SmallWorker.job.maxAttempts
        (.panicsInCall message) = none) ∧
    ∃ worker, SmallWorker.dailyPolls.build SmallWorker.host = .ok worker ∧
      ∀ next policy reason requested,
        handleJobOf (worker.retryConfig next) policy
          SmallWorker.job.attempts SmallWorker.job.maxAttempts
          (.returns (.error (.retry reason (some requested)))) = none := by
  constructor
  · obtain ⟨worker, built⟩ := SmallWorker.exists_build
    exact ⟨worker, built, fun _ _ _ => rfl⟩
  · obtain ⟨worker, built⟩ := SmallWorker.exists_build_dailyPolls
    refine ⟨worker, built, fun next policy reason requested => ?_⟩
    have poll : (worker.retryConfig next).pollInterval = .fromSecs 90000 :=
      (WorkerBuilder.builds_of_build built).pollInterval
    cases issued : applyHandlerResultState (worker.retryConfig next)
        SmallWorker.job.attempts SmallWorker.job.maxAttempts
        (.error (.retry reason (some requested))) with
    | none => exact issued
    | some mark =>
        have ordered := routed_retry_iff.mp
          ⟨mark, issued, applyHandlerResultState_retry_status issued⟩ rfl
          (by decide)
        rw [poll] at ordered
        exact absurd ordered (by decide)

end PgWorkQueue
