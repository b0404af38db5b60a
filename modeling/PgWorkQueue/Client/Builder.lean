import Mathlib.Data.Rat.Defs
import PgWorkQueue.Client.PollLoop

/-!
# `WorkerBuilder::build`

The builder holds the knobs of a worker as the setters leave them; `build`
fills in the defaults and makes its checks one after another, each an early
return.  `rejectIf` is such a return: when it is passed, it hands on the proof
that its condition is false, and the worker that `build` returns carries what
the checks have established.

Widths follow the source: `u32` is `UInt32`, `usize` is `UInt64`.  What the
host supplies is a parameter: the number of processors, and the product
`mul_f64(0.8)`, which is computed in floating point.
-/

namespace PgWorkQueue

/-! ## `std::time::Duration` -/

namespace Duration

/-- `Duration::from_secs`. -/
def fromSecs (secs : UInt64) : Duration :=
  ⟨secs.toNat * 1000000000, by have := secs.toNat_lt; omega⟩

/-- `Duration::from_millis`. -/
def fromMillis (millis : UInt64) : Duration :=
  ⟨millis.toNat * 1000000, by have := millis.toNat_lt; omega⟩

/-- `Duration::checked_add`. -/
def checkedAdd (left right : Duration) : Option Duration :=
  if fits : left.nanos + right.nanos < 18446744073709551616 * 1000000000 then
    some ⟨left.nanos + right.nanos, fits⟩
  else
    none

/-- `Duration::checked_sub`. -/
def checkedSub (left right : Duration) : Option Duration :=
  if right.nanos ≤ left.nanos then
    some ⟨left.nanos - right.nanos, lt_of_le_of_lt (Nat.sub_le _ _) left.bounded⟩
  else
    none

/-- `Duration::checked_mul`. -/
def checkedMul (duration : Duration) (factor : Nat) : Option Duration :=
  if fits : duration.nanos * factor < 18446744073709551616 * 1000000000 then
    some ⟨duration.nanos * factor, fits⟩
  else
    none

/-- `Duration::saturating_mul`. -/
def saturatingMul (duration : Duration) (factor : Nat) : Duration :=
  (duration.checkedMul factor).getD
    ⟨18446744073709551616 * 1000000000 - 1, Nat.sub_one_lt (by decide)⟩

/-- `Duration / divisor`. -/
def div (duration : Duration) (divisor : Nat) : Duration :=
  ⟨duration.nanos / divisor, lt_of_le_of_lt (Nat.div_le_self _ _) duration.bounded⟩

/-- `Ord::max`. -/
def max (left right : Duration) : Duration :=
  if left.nanos ≤ right.nanos then right else left

theorem nanos_max (left right : Duration) :
    (left.max right).nanos = Max.max left.nanos right.nanos := by
  unfold max
  split
  · rename_i below
    exact (Nat.max_eq_right below).symm
  · rename_i above
    exact (Nat.max_eq_left (Nat.le_of_not_le above)).symm

theorem checkedMul_eq_some {duration product : Duration} {factor : Nat}
    (multiplied : duration.checkedMul factor = some product) :
    product.nanos = duration.nanos * factor := by
  unfold checkedMul at multiplied
  split at multiplied
  · cases multiplied
    rfl
  · cases multiplied

/-- `handler_timeout + 1s` is checked: an overflow counts as too long. -/
theorem not_forall_checkedAdd {left right bound : Duration} :
    (¬ ∀ sum ∈ left.checkedAdd right, bound.nanos < sum.nanos) ↔
      left.nanos + right.nanos ≤ bound.nanos := by
  unfold checkedAdd
  have bounded := bound.bounded
  split
  · simp
  · simp
    omega

theorem not_exists_checkedMul {duration bound : Duration} {factor : Nat} :
    (¬ ∃ product ∈ duration.checkedMul factor, bound.nanos < product.nanos) ↔
      ∀ product, duration.checkedMul factor = some product →
        product.nanos ≤ bound.nanos := by
  simp only [Option.mem_def, not_exists, not_and, Nat.not_lt]

theorem nanos_checkedSub_getD {left right default : Duration}
    (fits : right.nanos ≤ left.nanos) :
    ((left.checkedSub right).getD default).nanos = left.nanos - right.nanos := by
  rw [checkedSub, if_pos fits]
  rfl

end Duration

/-! ## Constants -/

/-- `MIN_LEASE_TIMEOUT`. -/
def minLeaseTimeout : Duration := .fromSecs 1

/-- `MIN_REAPER_INTERVAL`. -/
def minReaperInterval : Duration := .fromSecs 1

/-- `BATCH_SIZE_MIN`. -/
def batchSizeMin : UInt32 := 1

/-- `BATCH_SIZE_MAX`. -/
def batchSizeMax : UInt32 := 1000

/-- `MIN_POLL_INTERVAL`. -/
def minPollInterval : Duration := .fromMillis 10

/-- `MIN_HANDLER_TIMEOUT`. -/
def minHandlerTimeout : Duration := .fromSecs 1

/-- `MIN_MARK_TIMEOUT`. -/
def minMarkTimeout : Duration := .fromMillis 100

/-- `MAX_BACKOFF_CAP`. -/
def maxBackoffCap : Duration := .fromSecs 86400

/-- `MIN_BACKOFF_BASE`. -/
def minBackoffBase : Duration := .fromMillis 100

section ConstantsInNanoseconds

@[simp]
theorem nanos_fromSecs_one : (Duration.fromSecs 1).nanos = 1000000000 := rfl

@[simp]
theorem nanos_minHandlerTimeout : minHandlerTimeout.nanos = 1000000000 := rfl

@[simp]
theorem nanos_minMarkTimeout : minMarkTimeout.nanos = 100000000 := rfl

@[simp]
theorem nanos_minReaperInterval : minReaperInterval.nanos = 1000000000 := rfl

end ConstantsInNanoseconds

/-! ## Errors and early returns -/

/-- `BuildError`. -/
inductive BuildError where
  | maxAttemptsZero
  | leaseTimeoutBelowFloor
  | leaseTimeoutTooShort
  | queueNameInvalid (queue : String)
  | poolMissing
  | batchSizeOutOfRange (actual min max : UInt32)
  | pollIntervalTooShort (min : Duration)
  | concurrencyZero
  | poolTooSmall (actual required : Nat)
  | handlerTimeoutBelowFloor (min : Duration)
  | handlerTimeoutTooLong (handler lease : Duration)
  | markTimeoutTooShort
  | markTimeoutTooLong (mark budget : Duration)
  | reaperIntervalTooShort
  | reaperIntervalTooLong (actual max : Duration)
  | leaseTimeoutTooShortForReaper (lease : Duration)
  | backoffInvalid (reason : String)
  | concurrencyKeyInvalid (key : String)
  | concurrencyLimitInvalid (key : String) (limit : UInt32)
  deriving DecidableEq

/-- `if condition { return Err(error); }`. -/
def rejectIf (condition : Prop) [Decidable condition] (error : BuildError) :
    Except BuildError (PLift (¬ condition)) :=
  if rejected : condition then .error error else .ok ⟨rejected⟩

/-- `Option::ok_or`. -/
def okOr {α : Type} (value : Option α) (error : BuildError) :
    Except BuildError α :=
  match value with
  | none => .error error
  | some found => .ok found

section EarlyReturns

variable {α : Type} {condition : Prop} [Decidable condition]
  {error : BuildError}

theorem rejectIf_bind_of_not
    {next : PLift (¬ condition) → Except BuildError α}
    (passes : ¬ condition) :
    (rejectIf condition error >>= next) = next ⟨passes⟩ := by
  rw [rejectIf, dif_neg passes]
  rfl

theorem rejectIf_bind_of
    {next : PLift (¬ condition) → Except BuildError α} (rejected : condition) :
    (rejectIf condition error >>= next) = .error error := by
  rw [rejectIf, dif_pos rejected]
  rfl

/-- What runs before a success has succeeded. -/
theorem bind_eq_ok {β : Type} {first : Except BuildError β}
    {next : β → Except BuildError α} {result : α} :
    (first >>= next) = .ok result ↔
      ∃ value, first = .ok value ∧ next value = .ok result := by
  cases first with
  | error _ =>
      constructor
      · intro impossible
        cases impossible
      · rintro ⟨_, impossible, _⟩
        cases impossible
  | ok present =>
      constructor
      · intro built
        exact ⟨present, rfl, built⟩
      · rintro ⟨_, same, built⟩
        cases same
        exact built

/-- What holds of the error of a check and of every later error holds of every
error. -/
theorem rejectIf_bind_error {accepts : BuildError → Prop}
    {next : PLift (¬ condition) → Except BuildError α}
    (own : accepts error)
    (later : ∀ passes failure, next passes = .error failure → accepts failure)
    (failure : BuildError)
    (failed : (rejectIf condition error >>= next) = .error failure) :
    accepts failure := by
  by_cases rejected : condition
  · rw [rejectIf_bind_of rejected] at failed
    cases failed
    exact own
  · rw [rejectIf_bind_of_not rejected] at failed
    exact later _ _ failed

theorem bind_error {β : Type} {accepts : BuildError → Prop}
    {first : Except BuildError β} {next : β → Except BuildError α}
    (own : ∀ failure, first = .error failure → accepts failure)
    (later : ∀ value, first = .ok value →
      ∀ failure, next value = .error failure → accepts failure)
    (failure : BuildError) (failed : (first >>= next) = .error failure) :
    accepts failure := by
  cases first with
  | error earlier =>
      cases failed
      exact own _ rfl
  | ok value => exact later value rfl failure failed

end EarlyReturns

/-! ## Backoff policies and concurrency limits -/

/-- An `f64`, as far as `validate` looks at it. -/
inductive Float64 where
  | finite (value : Rat)
  | infinite (negative : Bool)
  | nan

def Float64.isFinite : Float64 → Bool
  | finite _ => true
  | infinite _ | nan => false

/-- `value <= 1.0`, false of a NaN. -/
def Float64.leOne : Float64 → Bool
  | finite value => value ≤ 1
  | infinite negative => negative
  | nan => false

/-- `(0.0..=1.0).contains(&value)`. -/
def Float64.inUnitInterval : Float64 → Bool
  | finite value => 0 ≤ value && value ≤ 1
  | infinite _ | nan => false

inductive BackoffPolicy where
  | linear (base increment cap : Duration)
  | exponential (base : Duration) (factor : Float64) (cap : Duration)
      (jitter : Float64)

namespace BackoffPolicy

/-- `BackoffPolicy::default`.  The literal `0.2` is the nearest `f64`. -/
def default : BackoffPolicy :=
  .exponential (.fromSecs 1) (.finite 2) (.fromSecs 300)
    (.finite (3602879701896397 / 18014398509481984))

def base : BackoffPolicy → Duration
  | linear base _ _ | exponential base _ _ _ => base

def cap : BackoffPolicy → Duration
  | linear _ _ cap | exponential _ _ cap _ => cap

/-- The checks that `validate` makes on `Exponential` alone. -/
def validateCurve : BackoffPolicy → Except BuildError Unit
  | linear _ _ _ => .ok ()
  | exponential _ factor _ jitter => do
      let _ ← rejectIf (!factor.isFinite || factor.leOne)
        (.backoffInvalid "Exponential.factor must be finite and > 1.0")
      let _ ← rejectIf (!jitter.isFinite || !jitter.inUnitInterval)
        (.backoffInvalid "Exponential.jitter must be in [0.0, 1.0]")
      .ok ()

def validate (policy : BackoffPolicy) : Except BuildError Unit := do
  policy.validateCurve
  let _ ← rejectIf (policy.cap.nanos = 0) (.backoffInvalid "cap must be > 0")
  let _ ← rejectIf (maxBackoffCap.nanos < policy.cap.nanos)
    (.backoffInvalid "cap must be <= 24h")
  let _ ← rejectIf (policy.base.nanos < minBackoffBase.nanos)
    (.backoffInvalid "base must be >= 100ms")
  .ok ()

end BackoffPolicy

/-- What `build` accepts as an entry of `concurrency_limits`. -/
def LimitAccepted (key : String) (limit : UInt32) : Prop :=
  ¬ (key.length = 0 ∨ maxConcurrencyKeyLen < key.length) ∧
    ¬ (limit = 0 ∨ i32Max < limit.toNat)

/-- The loop of `build` over `concurrency_limits`.  The order of the entries is
the one in which the map happens to iterate. -/
def checkConcurrencyLimits :
    (entries : List (Sigma fun _ : String => UInt32)) →
      Except BuildError (PLift (∀ entry ∈ entries, LimitAccepted entry.1 entry.2))
  | [] => .ok ⟨fun _ member => absurd member List.not_mem_nil⟩
  | entry :: rest => do
      let keyAccepted ← rejectIf
        (entry.1.length = 0 ∨ maxConcurrencyKeyLen < entry.1.length)
        (.concurrencyKeyInvalid entry.1)
      let limitAccepted ← rejectIf (entry.2 = 0 ∨ i32Max < entry.2.toNat)
        (.concurrencyLimitInvalid entry.1 entry.2)
      let restAccepted ← checkConcurrencyLimits rest
      .ok ⟨List.forall_mem_cons.mpr
        ⟨⟨keyAccepted.down, limitAccepted.down⟩, restAccepted.down⟩⟩

/-- The entries that the loop has passed, as the poll loop reads them. -/
theorem limits_of_accepted {limits : HashMap UInt32}
    (accepted : ∀ entry ∈ limits.entries, LimitAccepted entry.1 entry.2)
    (key : String) (limit : Nat)
    (configured :
      (limits.mapValues fun _ value => value.toNat).lookup key = some limit) :
    1 ≤ key.length ∧ key.length ≤ maxConcurrencyKeyLen ∧
      1 ≤ limit ∧ limit ≤ i32Max := by
  rw [HashMap.lookup_mapValues, Option.map_eq_some_iff] at configured
  obtain ⟨value, found, rfl⟩ := configured
  have member : Sigma.mk key value ∈ limits.entries :=
    AList.mem_lookup_iff.mp found
  obtain ⟨keyAccepted, limitAccepted⟩ := accepted _ member
  have positive : value.toNat ≠ 0 := by
    intro zero
    exact limitAccepted (.inl (UInt32.toNat_inj.mp zero))
  have small : ¬ i32Max < value.toNat := fun large => limitAccepted (.inr large)
  simp only at keyAccepted
  omega

/-! ## The builder and the worker it builds -/

/-- The pool, as far as `build` looks at it: `get_max_connections()`. -/
structure Pool where
  maxConnections : UInt32

/-- `WorkerBuilder`, after `handler` was called. -/
structure WorkerBuilder (T : Type) where
  pool : Option Pool
  queue : Option String
  maxAttempts : UInt32
  leaseTimeout : Duration
  batchSize : UInt32
  retryBackoff : Option BackoffPolicy
  panicPolicy : PanicPolicy
  pollInterval : Duration
  concurrency : Option UInt64
  concurrencyLimits : HashMap UInt32
  handlerTimeout : Option Duration
  markTimeout : Option Duration
  reaperInterval : Option Duration
  codec : Codec T

/-- What the host decides: `available_parallelism()`, and the duration that
`mul_f64(0.8)` gives. -/
structure Host where
  availableParallelism : Option { processors : UInt64 // processors ≠ 0 }
  mulF64 : Duration → Duration

theorem Duration.fourFifths_bounded (duration : Duration) :
    (4 * duration.nanos + 2) / 5 < 18446744073709551616 * 1000000000 := by
  have bounded := duration.bounded
  omega

/-- Four fifths of a duration, to the nearest nanosecond: what `mul_f64(0.8)`
gives on a host whose product is not off by more than the rounding. -/
def Duration.fourFifths (duration : Duration) : Duration :=
  ⟨(4 * duration.nanos + 2) / 5, duration.fourFifths_bounded⟩

/-- `required` in `build`: `concurrency × 2 + 2` in saturating `u32`
arithmetic. -/
def requiredConnections (concurrency : Nat) : Nat :=
  let concU32 := if concurrency ≤ u32Max then concurrency else u32Max
  Nat.min (Nat.min (concU32 * 2) u32Max + 2) u32Max

/-- The `Worker` that `build` returns, with what the checks have
established. -/
structure BuiltWorker (T : Type) extends Worker T where
  pool : Pool
  retryBackoff : BackoffPolicy
  panicPolicy : PanicPolicy
  pollInterval : Duration
  handlerTimeout : Duration
  markTimeout : Duration
  reaperInterval : Duration
  queueAccepted : 0 < queue.length ∧ queue.length ≤ maxQueueLen
  maxAttemptsPos : 0 < maxAttempts
  leaseForReaper : (minReaperInterval.saturatingMul 2).nanos ≤ leaseTimeout.nanos
  pollFloor : minPollInterval.nanos ≤ pollInterval.nanos
  pollsPerLease : ∀ minLease, pollInterval.checkedMul 5 = some minLease →
    minLease.nanos ≤ leaseTimeout.nanos
  poolLargeEnough : requiredConnections concurrency ≤ pool.maxConnections.toNat
  handlerFloor : minHandlerTimeout.nanos ≤ handlerTimeout.nanos
  handlerMargin :
    handlerTimeout.nanos + (Duration.fromSecs 1).nanos ≤ leaseTimeout.nanos
  markFloor : minMarkTimeout.nanos ≤ markTimeout.nanos
  markBudget : markTimeout.nanos ≤ leaseTimeout.nanos - handlerTimeout.nanos
  reaperFloor : minReaperInterval.nanos ≤ reaperInterval.nanos
  reaperCeiling : reaperInterval.nanos ≤ (leaseTimeout.div 2).nanos

namespace WorkerBuilder

variable {T : Type}

/-- `Worker::builder()` with a codec and nothing else set. -/
def new (codec : Codec T) : WorkerBuilder T where
  pool := none
  queue := none
  maxAttempts := 3
  leaseTimeout := .fromSecs 30
  batchSize := 32
  retryBackoff := none
  panicPolicy := .retry
  pollInterval := .fromSecs 1
  concurrency := none
  concurrencyLimits := ∅
  handlerTimeout := none
  markTimeout := none
  reaperInterval := none
  codec := codec

/-- The handler timeout, or its default `lease_timeout × 80%`, at least the
floor. -/
def handlerTimeoutOrDefault (builder : WorkerBuilder T) (host : Host) :
    Duration :=
  builder.handlerTimeout.getD
    ((host.mulF64 builder.leaseTimeout).max minHandlerTimeout)

/-- What the lease leaves for the mark once the handler has timed out. -/
def budget (builder : WorkerBuilder T) (host : Host) : Duration :=
  (builder.leaseTimeout.checkedSub (builder.handlerTimeoutOrDefault host)).getD
    (.fromSecs 0)

/-- The mark timeout, or its default: the budget less one second. -/
def markTimeoutOrDefault (builder : WorkerBuilder T) (host : Host) : Duration :=
  builder.markTimeout.getD
    (((builder.budget host).checkedSub (.fromSecs 1)).getD minMarkTimeout)

/-- The reaper interval, or its default `lease_timeout / 4`, at least the
floor. -/
def reaperIntervalOrDefault (builder : WorkerBuilder T) : Duration :=
  builder.reaperInterval.getD
    ((builder.leaseTimeout.div 4).max minReaperInterval)

/-- The concurrency, or its default: the number of processors, else 4. -/
def concurrencyOrDefault (builder : WorkerBuilder T) (host : Host) : UInt64 :=
  builder.concurrency.getD (host.availableParallelism.elim 4 Subtype.val)

/-- A budget in which the handler fits, in exact arithmetic. -/
theorem nanos_budget {builder : WorkerBuilder T} {host : Host}
    (margin : (builder.handlerTimeoutOrDefault host).nanos
      + (Duration.fromSecs 1).nanos ≤ builder.leaseTimeout.nanos) :
    (builder.budget host).nanos =
      builder.leaseTimeout.nanos
        - (builder.handlerTimeoutOrDefault host).nanos :=
  Duration.nanos_checkedSub_getD (le_trans (Nat.le_add_right _ _) margin)

/-- What the checks of the three timeouts establish. -/
structure TimeoutsPass (builder : WorkerBuilder T) (host : Host) : Prop where
  handlerFloor :
    minHandlerTimeout.nanos ≤ (builder.handlerTimeoutOrDefault host).nanos
  handlerMargin : (builder.handlerTimeoutOrDefault host).nanos
    + (Duration.fromSecs 1).nanos ≤ builder.leaseTimeout.nanos
  markFloor : minMarkTimeout.nanos ≤ (builder.markTimeoutOrDefault host).nanos
  markBudget :
    (builder.markTimeoutOrDefault host).nanos ≤ (builder.budget host).nanos
  reaperFloor :
    minReaperInterval.nanos ≤ builder.reaperIntervalOrDefault.nanos
  reaperCeiling :
    builder.reaperIntervalOrDefault.nanos ≤ (builder.leaseTimeout.div 2).nanos

/-- The part of `build` that is about `handler_timeout`, `mark_timeout` and
`reaper_interval`. -/
def checkTimeouts (builder : WorkerBuilder T) (host : Host) :
    Except BuildError (PLift (builder.TimeoutsPass host)) := do
  let handlerTimeout := builder.handlerTimeoutOrDefault host
  let handlerOk ← rejectIf (handlerTimeout.nanos < minHandlerTimeout.nanos)
    (.handlerTimeoutBelowFloor minHandlerTimeout)
  let marginOk ← rejectIf
    (∀ sum ∈ handlerTimeout.checkedAdd (.fromSecs 1),
      builder.leaseTimeout.nanos < sum.nanos)
    (.handlerTimeoutTooLong handlerTimeout builder.leaseTimeout)
  let budget := builder.budget host
  let markTimeout := builder.markTimeoutOrDefault host
  let markOk ← rejectIf (markTimeout.nanos < minMarkTimeout.nanos)
    .markTimeoutTooShort
  let budgetOk ← rejectIf (budget.nanos < markTimeout.nanos)
    (.markTimeoutTooLong markTimeout budget)
  let leaseHalf := builder.leaseTimeout.div 2
  let reaperInterval := builder.reaperIntervalOrDefault
  let reaperOk ← rejectIf (reaperInterval.nanos < minReaperInterval.nanos)
    .reaperIntervalTooShort
  let halfOk ← rejectIf (leaseHalf.nanos < reaperInterval.nanos)
    (.reaperIntervalTooLong reaperInterval leaseHalf)
  .ok
    ⟨{ handlerFloor := Nat.not_lt.mp handlerOk.down
       handlerMargin := Duration.not_forall_checkedAdd.mp marginOk.down
       markFloor := Nat.not_lt.mp markOk.down
       markBudget := Nat.not_lt.mp budgetOk.down
       reaperFloor := Nat.not_lt.mp reaperOk.down
       reaperCeiling := Nat.not_lt.mp halfOk.down }⟩

def build (builder : WorkerBuilder T) (host : Host) :
    Except BuildError (BuiltWorker T) := do
  let queue := builder.queue.getD ""
  let queueOk ← rejectIf (queue.length = 0 ∨ maxQueueLen < queue.length)
    (.queueNameInvalid queue)
  let attemptsOk ← rejectIf (builder.maxAttempts = 0) .maxAttemptsZero
  let _ ← rejectIf (builder.leaseTimeout.nanos < minLeaseTimeout.nanos)
    .leaseTimeoutBelowFloor
  let leaseOk ← rejectIf
    (builder.leaseTimeout.nanos < (minReaperInterval.saturatingMul 2).nanos)
    (.leaseTimeoutTooShortForReaper builder.leaseTimeout)
  let batchOk ← rejectIf
    (builder.batchSize < batchSizeMin ∨ batchSizeMax < builder.batchSize)
    (.batchSizeOutOfRange builder.batchSize batchSizeMin batchSizeMax)
  let pollOk ← rejectIf (builder.pollInterval.nanos < minPollInterval.nanos)
    (.pollIntervalTooShort minPollInterval)
  -- An overflowing product is `None`, and the check is skipped.
  let pollsOk ← rejectIf
    (∃ minLease ∈ builder.pollInterval.checkedMul 5,
      builder.leaseTimeout.nanos < minLease.nanos)
    .leaseTimeoutTooShort
  let pool ← okOr builder.pool .poolMissing
  let concurrency := builder.concurrencyOrDefault host
  let concurrencyOk ← rejectIf (concurrency = 0) .concurrencyZero
  let required := requiredConnections concurrency.toNat
  let poolOk ← rejectIf (pool.maxConnections.toNat < required)
    (.poolTooSmall pool.maxConnections.toNat required)
  let timeouts ← builder.checkTimeouts host
  let retryBackoff := builder.retryBackoff.getD .default
  retryBackoff.validate
  let limitsOk ← checkConcurrencyLimits builder.concurrencyLimits.entries
  .ok
    { queue := queue
      codec := builder.codec
      maxAttempts := builder.maxAttempts.toNat
      leaseTimeout := builder.leaseTimeout
      batchSize := builder.batchSize.toNat
      concurrency := concurrency.toNat
      concurrencyLimits :=
        builder.concurrencyLimits.mapValues fun _ limit => limit.toNat
      pool := pool
      retryBackoff := retryBackoff
      panicPolicy := builder.panicPolicy
      pollInterval := builder.pollInterval
      handlerTimeout := builder.handlerTimeoutOrDefault host
      markTimeout := builder.markTimeoutOrDefault host
      reaperInterval := builder.reaperIntervalOrDefault
      batchSizeMin := by
        have small := UInt32.not_lt.mp (not_or.mp batchOk.down).1
        exact UInt32.le_iff_toNat_le.mp small
      batchSizeMax := by
        have large := UInt32.not_lt.mp (not_or.mp batchOk.down).2
        exact UInt32.le_iff_toNat_le.mp large
      concurrencyPos := Nat.pos_of_ne_zero fun zero =>
        concurrencyOk.down (UInt64.toNat_inj.mp zero)
      limitsAccepted := limits_of_accepted limitsOk.down
      queueAccepted := by have := queueOk.down; omega
      maxAttemptsPos := Nat.pos_of_ne_zero fun zero =>
        attemptsOk.down (UInt32.toNat_inj.mp zero)
      leaseForReaper := Nat.not_lt.mp leaseOk.down
      pollFloor := Nat.not_lt.mp pollOk.down
      pollsPerLease := Duration.not_exists_checkedMul.mp pollsOk.down
      poolLargeEnough := Nat.not_lt.mp poolOk.down
      handlerFloor := timeouts.down.handlerFloor
      handlerMargin := timeouts.down.handlerMargin
      markFloor := timeouts.down.markFloor
      markBudget := le_of_le_of_eq timeouts.down.markBudget
        (nanos_budget timeouts.down.handlerMargin)
      reaperFloor := timeouts.down.reaperFloor
      reaperCeiling := timeouts.down.reaperCeiling }

/-- How the worker depends on the knobs. -/
structure Builds (builder : WorkerBuilder T) (host : Host)
    (worker : BuiltWorker T) : Prop where
  queue : worker.queue = builder.queue.getD ""
  codec : worker.codec = builder.codec
  maxAttempts : worker.maxAttempts = builder.maxAttempts.toNat
  leaseTimeout : worker.leaseTimeout = builder.leaseTimeout
  batchSize : worker.batchSize = builder.batchSize.toNat
  concurrency : worker.concurrency = (builder.concurrencyOrDefault host).toNat
  concurrencyLimits : worker.concurrencyLimits =
    builder.concurrencyLimits.mapValues fun _ limit => limit.toNat
  pool : builder.pool = some worker.pool
  retryBackoff : worker.retryBackoff = builder.retryBackoff.getD .default
  panicPolicy : worker.panicPolicy = builder.panicPolicy
  pollInterval : worker.pollInterval = builder.pollInterval
  handlerTimeout : worker.handlerTimeout = builder.handlerTimeoutOrDefault host
  markTimeout : worker.markTimeout = builder.markTimeoutOrDefault host
  reaperInterval : worker.reaperInterval = builder.reaperIntervalOrDefault

theorem builds_of_build {builder : WorkerBuilder T} {host : Host}
    {worker : BuiltWorker T} (built : builder.build host = .ok worker) :
    builder.Builds host worker := by
  simp only [build, bind_eq_ok] at built
  obtain ⟨_, -, _, -, _, -, _, -, _, -, _, -, _, -, built⟩ := built
  obtain ⟨pool, found, _, -, _, -, _, -, _, -, _, -, worker⟩ := built
  have pooled : builder.pool = some pool := by
    cases present : builder.pool with
    | none =>
        rw [present] at found
        cases found
    | some _ =>
        rw [present] at found
        cases found
        rfl
  cases worker
  exact ⟨rfl, rfl, rfl, rfl, rfl, rfl, rfl, pooled, rfl, rfl, rfl, rfl, rfl, rfl⟩

end WorkerBuilder

end PgWorkQueue
