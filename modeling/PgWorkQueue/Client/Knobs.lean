import PgWorkQueue.Client.Builder

/-!
# What an accepted configuration guarantees

The README lists invariants between the knobs that `build` enforces, and a
default for each timeout.  Here both are stated in exact arithmetic on
nanoseconds and connections and compared with what `build` does, up to the
ends of the ranges of `Duration`, `usize` and `u32`.
-/

namespace PgWorkQueue

variable {T : Type}

/-! ## The invariants between the knobs -/

/-- The cross-knob invariants. -/
structure BuiltWorker.CrossKnob (worker : BuiltWorker T) : Prop where
  pollsPerLease : 5 * worker.pollInterval.nanos ≤ worker.leaseTimeout.nanos
  leaseFloor : 2000000000 ≤ worker.leaseTimeout.nanos
  handlerFloor : 1000000000 ≤ worker.handlerTimeout.nanos
  handlerMargin :
    worker.handlerTimeout.nanos + 1000000000 ≤ worker.leaseTimeout.nanos
  markFloor : 100000000 ≤ worker.markTimeout.nanos
  markBudget :
    worker.markTimeout.nanos + worker.handlerTimeout.nanos
      ≤ worker.leaseTimeout.nanos
  reaperFloor : 1000000000 ≤ worker.reaperInterval.nanos
  reaperTwice : 2 * worker.reaperInterval.nanos ≤ worker.leaseTimeout.nanos
  connections : 2 * worker.concurrency + 2 ≤ worker.pool.maxConnections.toNat

/-- The lease covers five polls exactly when five polls are a `Duration`:
otherwise `checked_mul` gives `None` and nothing is compared. -/
theorem BuiltWorker.pollsPerLease_iff (worker : BuiltWorker T) :
    5 * worker.pollInterval.nanos ≤ worker.leaseTimeout.nanos ↔
      5 * worker.pollInterval.nanos < 18446744073709551616 * 1000000000 := by
  constructor
  · intro covered
    exact lt_of_le_of_lt covered worker.leaseTimeout.bounded
  · intro fits
    have product : worker.pollInterval.checkedMul 5 =
        some ⟨worker.pollInterval.nanos * 5, by omega⟩ := by
      rw [Duration.checkedMul, dif_pos (by omega)]
    have compared := worker.pollsPerLease _ product
    simp only at compared
    omega

/-- Where nothing saturates, `required` is what it says. -/
theorem requiredConnections_eq {concurrency : Nat}
    (fits : 2 * concurrency + 2 ≤ u32Max) :
    requiredConnections concurrency = 2 * concurrency + 2 := by
  have narrow : concurrency ≤ u32Max := by omega
  have doubled : Nat.min (concurrency * 2) u32Max = concurrency * 2 :=
    Nat.min_eq_left (by omega)
  rw [requiredConnections, if_pos narrow]
  simp only [doubled]
  exact (Nat.min_eq_left (by omega)).trans (by omega)

/-- The pool has the documented size exactly when that size is a `u32`. -/
theorem BuiltWorker.connections_iff (worker : BuiltWorker T) :
    2 * worker.concurrency + 2 ≤ worker.pool.maxConnections.toNat ↔
      2 * worker.concurrency + 2 ≤ u32Max := by
  constructor
  · intro enough
    have bounded := worker.pool.maxConnections.toNat_lt
    unfold u32Max
    omega
  · intro fits
    have required := worker.poolLargeEnough
    rwa [requiredConnections_eq fits] at required

/-- An accepted worker has the documented invariants exactly when neither the
product of the poll interval nor the number of connections leaves its range. -/
theorem crossKnob_of_build_iff {builder : WorkerBuilder T} {host : Host}
    {worker : BuiltWorker T} (built : builder.build host = .ok worker) :
    worker.CrossKnob ↔
      5 * builder.pollInterval.nanos < 18446744073709551616 * 1000000000 ∧
        2 * (builder.concurrencyOrDefault host).toNat + 2 ≤ u32Max := by
  have knobs := WorkerBuilder.builds_of_build built
  rw [← knobs.pollInterval, ← knobs.concurrency, ← worker.pollsPerLease_iff,
    ← worker.connections_iff]
  constructor
  · intro guarantees
    exact ⟨guarantees.pollsPerLease, guarantees.connections⟩
  · rintro ⟨polls, connections⟩
    have margin := worker.handlerMargin
    have budget := worker.markBudget
    have ceiling := worker.reaperCeiling
    simp only [nanos_fromSecs_one, Duration.div] at margin ceiling
    exact
      { pollsPerLease := polls
        leaseFloor := worker.leaseForReaper
        handlerFloor := by simpa using worker.handlerFloor
        handlerMargin := margin
        markFloor := by simpa using worker.markFloor
        markBudget := by omega
        reaperFloor := by simpa using worker.reaperFloor
        reaperTwice := by omega
        connections := connections }

/-! ### A small worker -/

namespace SmallWorker

def host : Host where
  availableParallelism := none
  mulF64 := Duration.fourFifths

/-- A queue, a pool of ten connections and a concurrency of four; the other
knobs keep their defaults. -/
def builder : WorkerBuilder Unit :=
  { WorkerBuilder.new ⟨fun _ => .ok [], fun _ => .value ()⟩ with
    pool := some ⟨10⟩
    queue := some "emails"
    concurrency := some 4 }

/-- A poll interval of four quintillion seconds, five of which overflow. -/
def slowPolls : WorkerBuilder Unit :=
  { builder with pollInterval := .fromSecs 4000000000000000000 }

theorem exists_of_isOk {α : Type} {result : Except BuildError α}
    (succeeds : result.isOk = true) : ∃ value, result = .ok value := by
  cases result with
  | error _ => cases succeeds
  | ok value => exact ⟨value, rfl⟩

theorem exists_build : ∃ worker, builder.build host = .ok worker :=
  exists_of_isOk (by decide +kernel)

theorem exists_build_slowPolls : ∃ worker, slowPolls.build host = .ok worker :=
  exists_of_isOk (by decide +kernel)

end SmallWorker

theorem crossKnob_smallWorker :
    ∃ worker, SmallWorker.builder.build SmallWorker.host = .ok worker ∧
      worker.CrossKnob := by
  obtain ⟨worker, built⟩ := SmallWorker.exists_build
  exact ⟨worker, built, (crossKnob_of_build_iff built).mpr (by decide)⟩

/-- `build` accepts a lease of 30 s with polls that are further apart. -/
theorem slowPolls_accepted_without_crossKnob :
    ∃ worker, SmallWorker.slowPolls.build SmallWorker.host = .ok worker ∧
      worker.leaseTimeout.nanos = 30000000000 ∧
      worker.pollInterval.nanos = 4000000000000000000000000000 ∧
      ¬ worker.CrossKnob := by
  obtain ⟨worker, built⟩ := SmallWorker.exists_build_slowPolls
  have knobs := WorkerBuilder.builds_of_build built
  have lease : worker.leaseTimeout.nanos = 30000000000 := by
    rw [knobs.leaseTimeout]
    rfl
  have poll : worker.pollInterval.nanos = 4000000000000000000000000000 := by
    rw [knobs.pollInterval]
    rfl
  refine ⟨worker, built, lease, poll, ?_⟩
  intro guarantees
  have covered := guarantees.pollsPerLease
  rw [lease, poll] at covered
  omega

/-! ## The checks of the timeouts within `build` -/

/-- The errors about `handler_timeout`, `mark_timeout` and
`reaper_interval`. -/
def BuildError.aboutTimeouts : BuildError → Bool
  | handlerTimeoutBelowFloor _ | handlerTimeoutTooLong _ _
  | markTimeoutTooShort | markTimeoutTooLong _ _
  | reaperIntervalTooShort | reaperIntervalTooLong _ _ => true
  | _ => false

theorem aboutTimeouts_of_checkConcurrencyLimits
    (entries : List (Sigma fun _ : String => UInt32)) :
    ∀ failure, checkConcurrencyLimits entries = .error failure →
      failure.aboutTimeouts = false := by
  induction entries with
  | nil =>
      intro _ impossible
      cases impossible
  | cons entry rest restErrors =>
      refine rejectIf_bind_error rfl fun _ => rejectIf_bind_error rfl fun _ =>
        bind_error restErrors ?_
      intro _ _ _ impossible
      cases impossible

/-- The loop passes entries that are all accepted. -/
theorem exists_checkConcurrencyLimits_eq_ok
    {entries : List (Sigma fun _ : String => UInt32)}
    (accepted : ∀ entry ∈ entries, LimitAccepted entry.1 entry.2) :
    ∃ passed, checkConcurrencyLimits entries = .ok passed := by
  induction entries with
  | nil => exact ⟨_, rfl⟩
  | cons entry rest restPasses =>
      obtain ⟨keyAccepted, limitAccepted⟩ := accepted entry List.mem_cons_self
      obtain ⟨passed, restPassed⟩ := restPasses fun other member =>
        accepted other (List.mem_cons_of_mem _ member)
      change ∃ passed, (rejectIf _ _ >>= fun _ => rejectIf _ _ >>= fun _ =>
        checkConcurrencyLimits rest >>= fun _ => .ok _) = .ok passed
      rw [rejectIf_bind_of_not keyAccepted,
        rejectIf_bind_of_not limitAccepted, restPassed]
      exact ⟨_, rfl⟩

namespace WorkerBuilder

variable {builder : WorkerBuilder T} {host : Host}

theorem checkTimeouts_of_pass (pass : builder.TimeoutsPass host) :
    builder.checkTimeouts host = .ok ⟨pass⟩ := by
  rw [checkTimeouts,
    rejectIf_bind_of_not (Nat.not_lt.mpr pass.handlerFloor),
    rejectIf_bind_of_not
      (Duration.not_forall_checkedAdd.mpr pass.handlerMargin),
    rejectIf_bind_of_not (Nat.not_lt.mpr pass.markFloor),
    rejectIf_bind_of_not (Nat.not_lt.mpr pass.markBudget),
    rejectIf_bind_of_not (Nat.not_lt.mpr pass.reaperFloor),
    rejectIf_bind_of_not (Nat.not_lt.mpr pass.reaperCeiling)]

/-- Timeouts that do not pass are refused with an error about them. -/
theorem exists_checkTimeouts_eq_error (fail : ¬ builder.TimeoutsPass host) :
    ∃ failure, builder.checkTimeouts host = .error failure ∧
      failure.aboutTimeouts = true := by
  have about : ∀ failure, builder.checkTimeouts host = .error failure →
      failure.aboutTimeouts = true := by
    refine rejectIf_bind_error rfl fun _ => rejectIf_bind_error rfl fun _ =>
      rejectIf_bind_error rfl fun _ => rejectIf_bind_error rfl fun _ =>
      rejectIf_bind_error rfl fun _ => rejectIf_bind_error rfl ?_
    intro _ _ impossible
    cases impossible
  cases checked : builder.checkTimeouts host with
  | error failure => exact ⟨failure, rfl, about failure checked⟩
  | ok pass => exact absurd pass.down fail

/-- A valid queue, pool, concurrency, batch size, number of attempts and
backoff, with a lease of two seconds and of five polls. -/
structure OthersValid (builder : WorkerBuilder T) (host : Host) : Prop where
  queue : ¬ ((builder.queue.getD "").length = 0 ∨
    maxQueueLen < (builder.queue.getD "").length)
  maxAttempts : builder.maxAttempts ≠ 0
  leaseFloor : 2000000000 ≤ builder.leaseTimeout.nanos
  batchSize :
    ¬ (builder.batchSize < batchSizeMin ∨ batchSizeMax < builder.batchSize)
  pollsPerLease : 5 * builder.pollInterval.nanos ≤ builder.leaseTimeout.nanos
  concurrency : builder.concurrencyOrDefault host ≠ 0
  pool : ∃ pool, builder.pool = some pool ∧
    requiredConnections (builder.concurrencyOrDefault host).toNat
      ≤ pool.maxConnections.toNat
  backoff : (builder.retryBackoff.getD .default).validate = .ok ()

theorem OthersValid.leaseTimeoutFloor (valid : builder.OthersValid host) :
    ¬ builder.leaseTimeout.nanos < minLeaseTimeout.nanos := by
  have floor := valid.leaseFloor
  change ¬ builder.leaseTimeout.nanos < 1000000000
  omega

theorem OthersValid.leaseForReaper (valid : builder.OthersValid host) :
    ¬ builder.leaseTimeout.nanos < (minReaperInterval.saturatingMul 2).nanos :=
  Nat.not_lt.mpr valid.leaseFloor

theorem OthersValid.polls (valid : builder.OthersValid host) :
    ¬ ∃ minLease ∈ builder.pollInterval.checkedMul 5,
      builder.leaseTimeout.nanos < minLease.nanos := by
  rw [Duration.not_exists_checkedMul]
  intro minLease product
  have covered := valid.pollsPerLease
  rw [Duration.checkedMul_eq_some product]
  omega

/-- With the rest valid, what `build` does is to check the timeouts and then
the limits. -/
theorem build_of_valid (valid : builder.OthersValid host)
    (pollFloor : minPollInterval.nanos ≤ builder.pollInterval.nanos) :
    ∃ finish : PLift (builder.TimeoutsPass host) →
        PLift (∀ entry ∈ builder.concurrencyLimits.entries,
          LimitAccepted entry.1 entry.2) → BuiltWorker T,
      builder.build host =
        (builder.checkTimeouts host >>= fun timeouts =>
          checkConcurrencyLimits builder.concurrencyLimits.entries >>=
            fun limits => .ok (finish timeouts limits)) := by
  obtain ⟨pool, present, enough⟩ := valid.pool
  rw [build, rejectIf_bind_of_not valid.queue,
    rejectIf_bind_of_not valid.maxAttempts,
    rejectIf_bind_of_not valid.leaseTimeoutFloor,
    rejectIf_bind_of_not valid.leaseForReaper,
    rejectIf_bind_of_not valid.batchSize,
    rejectIf_bind_of_not (Nat.not_lt.mpr pollFloor),
    rejectIf_bind_of_not valid.polls, present]
  dsimp only
  rw [valid.backoff]
  change ∃ finish, (rejectIf _ _ >>= fun _ => rejectIf _ _ >>= _) = _
  rw [rejectIf_bind_of_not valid.concurrency,
    rejectIf_bind_of_not (Nat.not_lt.mpr enough)]
  exact ⟨_, rfl⟩

/-- A poll interval below its floor is refused before the timeouts are looked
at. -/
theorem build_of_pollInterval_below (valid : builder.OthersValid host)
    (below : builder.pollInterval.nanos < minPollInterval.nanos) :
    builder.build host = .error (.pollIntervalTooShort minPollInterval) := by
  rw [build, rejectIf_bind_of_not valid.queue,
    rejectIf_bind_of_not valid.maxAttempts,
    rejectIf_bind_of_not valid.leaseTimeoutFloor,
    rejectIf_bind_of_not valid.leaseForReaper,
    rejectIf_bind_of_not valid.batchSize, rejectIf_bind_of below]

/-- With the rest valid, `build` refuses the timeouts exactly when they do not
pass. -/
theorem timeoutsPass_iff_of_valid (valid : builder.OthersValid host)
    (pollFloor : minPollInterval.nanos ≤ builder.pollInterval.nanos) :
    (∀ failure, builder.build host = .error failure →
      failure.aboutTimeouts = false) ↔ builder.TimeoutsPass host := by
  obtain ⟨finish, built⟩ := build_of_valid valid pollFloor
  rw [built]
  constructor
  · intro other
    by_contra fail
    obtain ⟨failure, refused, about⟩ := exists_checkTimeouts_eq_error fail
    rw [refused] at other
    rw [other failure rfl] at about
    cases about
  · intro pass
    rw [checkTimeouts_of_pass pass]
    change ∀ failure, (checkConcurrencyLimits _ >>= fun _ => .ok _) =
      .error failure → failure.aboutTimeouts = false
    refine bind_error (aboutTimeouts_of_checkConcurrencyLimits _) ?_
    intro _ _ _ impossible
    cases impossible

/-! ## The defaults -/

/-- None of the three timeouts is set. -/
structure Unset (builder : WorkerBuilder T) : Prop where
  handlerTimeout : builder.handlerTimeout = none
  markTimeout : builder.markTimeout = none
  reaperInterval : builder.reaperInterval = none

/-- A handler timeout within its bounds is set, the mark timeout is not, and
nothing else stands in the way of a worker. -/
structure HandlerSet (builder : WorkerBuilder T) (handler : Duration) :
    Prop where
  handlerTimeout : builder.handlerTimeout = some handler
  floor : 1000000000 ≤ handler.nanos
  margin : handler.nanos + 1000000000 ≤ builder.leaseTimeout.nanos
  markTimeout : builder.markTimeout = none
  pollFloor : minPollInterval.nanos ≤ builder.pollInterval.nanos
  reaperInterval : ∀ interval, builder.reaperInterval = some interval →
    1000000000 ≤ interval.nanos ∧
      2 * interval.nanos ≤ builder.leaseTimeout.nanos
  limits : ∀ entry ∈ builder.concurrencyLimits.entries,
    LimitAccepted entry.1 entry.2

/-- What the defaults promise: timeouts that are left unset are never the
reason of an error, and an unset mark timeout becomes what the handler timeout
leaves of the lease less one second, at least the floor. -/
structure DefaultsAdmissible (builder : WorkerBuilder T) (host : Host) :
    Prop where
  unset : builder.Unset → ∀ failure, builder.build host = .error failure →
    failure.aboutTimeouts = false
  mark : ∀ handler, builder.HandlerSet handler →
    ∃ worker, builder.build host = .ok worker ∧
      worker.markTimeout.nanos =
        max (builder.leaseTimeout.nanos - handler.nanos - 1000000000)
          100000000

/-- The default reaper interval, and one within its bounds, pass. -/
theorem reaper_passes (leaseFloor : 2000000000 ≤ builder.leaseTimeout.nanos)
    (within : ∀ interval, builder.reaperInterval = some interval →
      1000000000 ≤ interval.nanos ∧
        2 * interval.nanos ≤ builder.leaseTimeout.nanos) :
    1000000000 ≤ builder.reaperIntervalOrDefault.nanos ∧
      builder.reaperIntervalOrDefault.nanos
        ≤ (builder.leaseTimeout.div 2).nanos := by
  unfold reaperIntervalOrDefault
  cases set : builder.reaperInterval with
  | none =>
      rw [Option.getD_none, Duration.nanos_max, nanos_minReaperInterval]
      simp only [Duration.div]
      omega
  | some interval =>
      have bounds := within interval set
      simp only [Option.getD_some, Duration.div]
      omega

theorem nanos_markTimeout_default (unset : builder.markTimeout = none)
    (margin : (builder.handlerTimeoutOrDefault host).nanos
      + (Duration.fromSecs 1).nanos ≤ builder.leaseTimeout.nanos) :
    (builder.markTimeoutOrDefault host).nanos =
      builder.leaseTimeout.nanos - (builder.handlerTimeoutOrDefault host).nanos
        - 1000000000 := by
  have budget := nanos_budget margin
  rw [nanos_fromSecs_one] at margin
  rw [markTimeoutOrDefault, unset, Option.getD_none,
    Duration.nanos_checkedSub_getD, budget, nanos_fromSecs_one]
  rw [budget, nanos_fromSecs_one]
  omega

/-- A mark timeout that is left unset passes when the handler timeout leaves
1.1 s of the lease. -/
theorem timeoutsPass_iff_of_mark_unset
    (leaseFloor : 2000000000 ≤ builder.leaseTimeout.nanos)
    (unset : builder.markTimeout = none)
    (within : ∀ interval, builder.reaperInterval = some interval →
      1000000000 ≤ interval.nanos ∧
        2 * interval.nanos ≤ builder.leaseTimeout.nanos) :
    builder.TimeoutsPass host ↔
      1000000000 ≤ (builder.handlerTimeoutOrDefault host).nanos ∧
        (builder.handlerTimeoutOrDefault host).nanos + 1100000000
          ≤ builder.leaseTimeout.nanos := by
  constructor
  · intro pass
    have floor := pass.handlerFloor
    have margin := pass.handlerMargin
    have markFloor := pass.markFloor
    rw [nanos_markTimeout_default unset margin, nanos_minMarkTimeout]
      at markFloor
    rw [nanos_minHandlerTimeout] at floor
    omega
  · rintro ⟨floor, room⟩
    have margin : (builder.handlerTimeoutOrDefault host).nanos
        + (Duration.fromSecs 1).nanos ≤ builder.leaseTimeout.nanos := by
      rw [nanos_fromSecs_one]
      omega
    have mark := nanos_markTimeout_default unset margin
    obtain ⟨reaperFloor, reaperCeiling⟩ := reaper_passes leaseFloor within
    exact
      { handlerFloor := floor
        handlerMargin := margin
        markFloor := by
          rw [mark, nanos_minMarkTimeout]
          omega
        markBudget := by
          rw [mark, nanos_budget margin]
          omega
        reaperFloor := reaperFloor
        reaperCeiling := reaperCeiling }

/-- The default of 80% leaves 1.1 s from a lease of 5.5 s on, up to
rounding. -/
theorem timeoutsPass_iff_of_unset (rounds : host.mulF64 = Duration.fourFifths)
    (leaseFloor : 2000000000 ≤ builder.leaseTimeout.nanos)
    (unset : builder.Unset) :
    builder.TimeoutsPass host ↔ 5499999998 ≤ builder.leaseTimeout.nanos := by
  have within : ∀ interval, builder.reaperInterval = some interval →
      1000000000 ≤ interval.nanos ∧
        2 * interval.nanos ≤ builder.leaseTimeout.nanos := by
    intro interval set
    rw [unset.reaperInterval] at set
    cases set
  rw [timeoutsPass_iff_of_mark_unset leaseFloor unset.markTimeout within,
    handlerTimeoutOrDefault, unset.handlerTimeout, Option.getD_none, rounds,
    Duration.nanos_max, nanos_minHandlerTimeout]
  simp only [Duration.fourFifths]
  omega

theorem HandlerSet.handlerTimeoutOrDefault {handler : Duration}
    (set : builder.HandlerSet handler) :
    builder.handlerTimeoutOrDefault host = handler := by
  rw [WorkerBuilder.handlerTimeoutOrDefault, set.handlerTimeout,
    Option.getD_some]

/-- With a handler timeout set, a worker with the documented mark timeout is
built exactly when the documented value is not clamped. -/
theorem mark_admissible_iff (valid : builder.OthersValid host)
    {handler : Duration} (set : builder.HandlerSet handler) :
    (∃ worker, builder.build host = .ok worker ∧
      worker.markTimeout.nanos =
        max (builder.leaseTimeout.nanos - handler.nanos - 1000000000)
          100000000) ↔
      handler.nanos + 1100000000 ≤ builder.leaseTimeout.nanos := by
  have passIff : builder.TimeoutsPass host ↔ _ :=
    timeoutsPass_iff_of_mark_unset valid.leaseFloor set.markTimeout
      set.reaperInterval
  rw [set.handlerTimeoutOrDefault] at passIff
  constructor
  · rintro ⟨worker, built, _⟩
    have knobs := builds_of_build built
    have margin := worker.handlerMargin
    have markFloor := worker.markFloor
    rw [knobs.handlerTimeout, knobs.leaseTimeout] at margin
    rw [knobs.markTimeout, nanos_markTimeout_default set.markTimeout margin,
      set.handlerTimeoutOrDefault, nanos_minMarkTimeout] at markFloor
    omega
  · intro room
    have pass := passIff.mpr ⟨set.floor, room⟩
    obtain ⟨finish, built⟩ := build_of_valid valid set.pollFloor
    obtain ⟨limits, passed⟩ := exists_checkConcurrencyLimits_eq_ok set.limits
    rw [checkTimeouts_of_pass pass, passed] at built
    refine ⟨_, built, ?_⟩
    rw [(builds_of_build built).markTimeout,
      nanos_markTimeout_default set.markTimeout pass.handlerMargin,
      set.handlerTimeoutOrDefault]
    omega

/-- The defaults keep their promise exactly when they leave room for the
floor of the mark timeout: from a lease of 5.499999998 s on when nothing is
set, and of 1.1 s above the handler timeout when that is set. -/
theorem defaultsAdmissible_iff (valid : builder.OthersValid host)
    (rounds : host.mulF64 = Duration.fourFifths) :
    builder.DefaultsAdmissible host ↔
      (builder.Unset → minPollInterval.nanos ≤ builder.pollInterval.nanos →
        5499999998 ≤ builder.leaseTimeout.nanos) ∧
      ∀ handler, builder.HandlerSet handler →
        handler.nanos + 1100000000 ≤ builder.leaseTimeout.nanos := by
  constructor
  · intro admissible
    constructor
    · intro unset pollFloor
      have pass := (timeoutsPass_iff_of_valid valid pollFloor).mp
        (admissible.unset unset)
      exact (timeoutsPass_iff_of_unset rounds valid.leaseFloor unset).mp pass
    · intro handler set
      exact (mark_admissible_iff valid set).mp (admissible.mark handler set)
  · rintro ⟨unsetRoom, handlerRoom⟩
    refine ⟨?_, fun handler set =>
      (mark_admissible_iff valid set).mpr (handlerRoom handler set)⟩
    intro unset
    by_cases pollFloor : minPollInterval.nanos ≤ builder.pollInterval.nanos
    · have pass := (timeoutsPass_iff_of_unset rounds valid.leaseFloor unset).mpr
        (unsetRoom unset pollFloor)
      exact (timeoutsPass_iff_of_valid valid pollFloor).mpr pass
    · rw [build_of_pollInterval_below valid (Nat.lt_of_not_le pollFloor)]
      intro failure refused
      cases refused
      rfl

end WorkerBuilder

namespace SmallWorker

/-- The small worker with another lease, polling every 100 ms. -/
def leased (lease : Duration) : WorkerBuilder Unit :=
  { builder with
    leaseTimeout := lease
    pollInterval := .fromMillis 100 }

theorem validate_default : BackoffPolicy.default.validate = .ok () := by
  decide +kernel

-- What does not depend on the lease is decided on one lease.
theorem leased_valid {lease : Duration} (floor : 2000000000 ≤ lease.nanos) :
    (leased lease).OthersValid host := by
  have thirty : (leased (.fromSecs 30)).OthersValid host :=
    { queue := by decide
      maxAttempts := by decide
      leaseFloor := by decide
      batchSize := by decide
      pollsPerLease := by decide
      concurrency := by decide
      pool := ⟨⟨10⟩, rfl, by decide⟩
      backoff := validate_default }
  have polls : 5 * (Duration.fromMillis 100).nanos ≤ 2000000000 := by decide
  exact
    { queue := thirty.queue
      maxAttempts := thirty.maxAttempts
      leaseFloor := floor
      batchSize := thirty.batchSize
      pollsPerLease := le_trans polls floor
      concurrency := thirty.concurrency
      pool := thirty.pool
      backoff := thirty.backoff }

theorem leased_unset (lease : Duration) : (leased lease).Unset :=
  ⟨rfl, rfl, rfl⟩

theorem not_handlerSet_leased {lease handler : Duration} :
    ¬ (leased lease).HandlerSet handler := by
  intro set
  cases set.handlerTimeout

end SmallWorker

theorem defaultsAdmissible_smallWorker :
    (SmallWorker.leased (.fromSecs 30)).DefaultsAdmissible SmallWorker.host := by
  refine (WorkerBuilder.defaultsAdmissible_iff
    (SmallWorker.leased_valid (by decide)) rfl).mpr ⟨?_, ?_⟩
  · intro _ _
    decide
  · intro handler set
    exact absurd set SmallWorker.not_handlerSet_leased

/-- With a lease of 4 s the default handler timeout of 3.2 s is too long; with
one of 5.2 s the default mark timeout of 40 ms is too short. -/
theorem defaults_refused_below_five_and_a_half_seconds :
    (SmallWorker.leased (.fromSecs 4)).OthersValid SmallWorker.host ∧
      (SmallWorker.leased (.fromSecs 4)).build SmallWorker.host =
        .error (.handlerTimeoutTooLong (.fromMillis 3200) (.fromSecs 4)) ∧
      (SmallWorker.leased (.fromMillis 5200)).build SmallWorker.host =
        .error .markTimeoutTooShort ∧
      ¬ (SmallWorker.leased (.fromSecs 4)).DefaultsAdmissible
        SmallWorker.host := by
  have valid := @SmallWorker.leased_valid (.fromSecs 4) (by decide)
  have refused : (SmallWorker.leased (.fromSecs 4)).build SmallWorker.host =
      .error (.handlerTimeoutTooLong (.fromMillis 3200) (.fromSecs 4)) := rfl
  refine ⟨valid, refused, rfl, ?_⟩
  intro admissible
  have other := admissible.unset (SmallWorker.leased_unset _) _ refused
  cases other

end PgWorkQueue
