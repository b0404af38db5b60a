import Mathlib.Algebra.Order.Ring.Rat
import Mathlib.Data.Rat.Floor
import PgWorkQueue.Client.Routing
import PgWorkQueue.Library.Rounding

/-!
# Retry delays: `BackoffPolicy::next` and `compute_retry_delay`

`next` computes in `f64`.  Its arithmetic is read as exact rational arithmetic
here, with the infinities and NaNs that a policy may be built with; what it
draws for the jitter is a parameter.  A result of `none` is a panic.
-/

namespace PgWorkQueue

open Library.Rounding

/-! ## `f64` and `Duration` -/

namespace Float64

/-- `value.powi(exponent)` for an exponent that is not negative. -/
def powi (value : Float64) (exponent : Nat) : Float64 :=
  match value with
  | finite value => finite (value ^ exponent)
  | infinite negative =>
      if exponent = 0 then finite 1
      else infinite (negative && exponent % 2 = 1)
  | nan => if exponent = 0 then finite 1 else nan

/-- `secs * value` for a number of seconds. -/
def scale (secs : Rat) : Float64 → Float64
  | finite value => finite (secs * value)
  | infinite negative => if secs = 0 then nan else infinite negative
  | nan => nan

/-- `value <= 0.0`. -/
def leZero : Float64 → Bool
  | finite value => value ≤ 0
  | infinite negative => negative
  | nan => false

/-- `value.clamp(0.0, 1.0)`; a NaN stays one, and `random_range` refuses it. -/
def clampUnit : Float64 → Option Rat
  | finite value => some (max 0 (min value 1))
  | infinite negative => some (if negative then 0 else 1)
  | nan => none

end Float64

namespace Duration

/-- `Duration::as_secs_f64`. -/
def asSecsF64 (duration : Duration) : Rat := duration.nanos / 1000000000

/-- `Duration::from_secs_f64`, which rounds to the nearest nanosecond and
panics on what no `Duration` holds. -/
def fromSecsF64 (secs : Rat) : Option Duration :=
  if secs < 0 then none
  else if fits : (roundTiesEven (secs * 1000000000)).toNat <
      18446744073709551616 * 1000000000 then
    some ⟨(roundTiesEven (secs * 1000000000)).toNat, fits⟩
  else none

end Duration

/-! ## `BackoffPolicy::next` -/

namespace BackoffPolicy

/-- `raw_secs`. -/
def rawSecs (policy : BackoffPolicy) (attempt : UInt32) : Float64 :=
  match policy with
  | linear base increment _ =>
      .finite (increment.asSecsF64 * attempt.toNat + base.asSecsF64)
  | exponential base factor _ _ =>
      -- `i32::try_from(attempt).unwrap_or(i32::MAX)`
      (factor.powi (min attempt.toNat i32Max)).scale base.asSecsF64

/-- `clamped_secs`. -/
def clampedSecs (policy : BackoffPolicy) (attempt : UInt32) : Rat :=
  match policy.rawSecs attempt with
  | .finite value => max (min value policy.cap.asSecsF64) 0
  | .infinite _ | .nan => policy.cap.asSecsF64

/-- `apply_jitter`; `draw j` is what `random_range(-j..=j)` returns. -/
def applyJitter (policy : BackoffPolicy) (draw : Rat → Rat) (secs : Rat) :
    Option Rat :=
  match policy with
  | linear _ _ _ => some secs
  | exponential _ _ _ jitter =>
      if jitter.leZero then some secs
      else jitter.clampUnit.map fun ratio => secs * (1 + draw ratio)

def next (policy : BackoffPolicy) (draw : Rat → Rat) (attempt : UInt32) :
    Option Duration := do
  let jittered ← policy.applyJitter draw (policy.clampedSecs attempt)
  Duration.fromSecsF64 (max (min jittered policy.cap.asSecsF64) 0)

/-- The policies whose delays are not drawn. -/
def JitterFree : BackoffPolicy → Prop
  | linear _ _ _ => True
  | exponential _ _ _ jitter => jitter = .finite 0

end BackoffPolicy

/-! ## Seconds and nanoseconds -/

namespace Duration

theorem asSecsF64_nonneg (duration : Duration) : 0 ≤ duration.asSecsF64 := by
  unfold asSecsF64
  positivity

theorem asSecsF64_mul (duration : Duration) :
    duration.asSecsF64 * 1000000000 = ((duration.nanos : Int) : Rat) := by
  unfold asSecsF64
  rw [div_mul_cancel₀ _ (by norm_num)]
  norm_cast

/-- Rounding keeps a bound that is a `Duration`. -/
theorem roundTiesEven_le {secs : Rat} {bound : Duration}
    (below : secs ≤ bound.asSecsF64) :
    roundTiesEven (secs * 1000000000) ≤ bound.nanos := by
  have scaled : secs * 1000000000 ≤ ((bound.nanos : Int) : Rat) := by
    rw [← asSecsF64_mul]
    exact mul_le_mul_of_nonneg_right below (by norm_num)
  have rounded := roundTiesEven_mono scaled
  rwa [roundTiesEven_intCast] at rounded

theorem le_roundTiesEven {secs : Rat} {bound : Duration}
    (above : bound.asSecsF64 ≤ secs) :
    (bound.nanos : Int) ≤ roundTiesEven (secs * 1000000000) := by
  have scaled : ((bound.nanos : Int) : Rat) ≤ secs * 1000000000 := by
    rw [← asSecsF64_mul]
    exact mul_le_mul_of_nonneg_right above (by norm_num)
  have rounded := roundTiesEven_mono scaled
  rwa [roundTiesEven_intCast] at rounded

/-- Seconds between zero and a `Duration` are converted. -/
theorem fromSecsF64_of_le {secs : Rat} {bound : Duration}
    (nonneg : 0 ≤ secs) (below : secs ≤ bound.asSecsF64) :
    ∃ duration, fromSecsF64 secs = some duration ∧
      (duration.nanos : Int) = roundTiesEven (secs * 1000000000) := by
  have upper := roundTiesEven_le below
  have zero : ((0 : Int) : Rat) ≤ secs * 1000000000 := by
    rw [Int.cast_zero]
    exact mul_nonneg nonneg (by norm_num)
  have lower := roundTiesEven_mono zero
  rw [roundTiesEven_intCast] at lower
  have bounded := bound.bounded
  have fits : (roundTiesEven (secs * 1000000000)).toNat <
      18446744073709551616 * 1000000000 := by omega
  refine ⟨⟨_, fits⟩, ?_, Int.toNat_of_nonneg lower⟩
  rw [fromSecsF64, if_neg (not_lt.mpr nonneg), dif_pos fits]

end Duration

/-! ## Validated policies -/

namespace BackoffPolicy

variable {policy : BackoffPolicy}

/-- What `validate` establishes of the bounds. -/
theorem bounds_of_validate (valid : policy.validate = .ok ()) :
    policy.validateCurve = .ok () ∧
      policy.cap.nanos ≤ maxBackoffCap.nanos ∧
      minBackoffBase.nanos ≤ policy.base.nanos := by
  obtain ⟨_, curve, rest⟩ := bind_eq_ok.mp valid
  obtain ⟨_, _, rest⟩ := bind_eq_ok.mp rest
  obtain ⟨notLong, _, rest⟩ := bind_eq_ok.mp rest
  obtain ⟨notShort, _, _⟩ := bind_eq_ok.mp rest
  exact ⟨curve, Nat.le_of_not_lt notLong.down,
    Nat.le_of_not_lt notShort.down⟩

theorem factor_of_validateCurve {base cap : Duration}
    {factor jitter : Float64}
    (valid : (exponential base factor cap jitter).validateCurve = .ok ()) :
    ∃ growth : Rat, factor = .finite growth ∧ 1 < growth := by
  obtain ⟨grows, _, _⟩ := bind_eq_ok.mp valid
  have accepted := grows.down
  cases factor with
  | finite growth =>
      refine ⟨growth, rfl, ?_⟩
      simpa [Float64.isFinite, Float64.leOne] using accepted
  | infinite negative => simp [Float64.isFinite] at accepted
  | nan => simp [Float64.isFinite] at accepted

/-- The curve of a validated policy starts at its base and never falls. -/
theorem exists_curve (valid : policy.validate = .ok ()) :
    ∃ curve : UInt32 → Rat,
      (∀ attempt, policy.rawSecs attempt = .finite (curve attempt)) ∧
      (∀ attempt, policy.base.asSecsF64 ≤ curve attempt) ∧
      ∀ first later, first ≤ later → curve first ≤ curve later := by
  cases policy with
  | linear base increment cap =>
      refine ⟨fun attempt =>
        increment.asSecsF64 * attempt.toNat + base.asSecsF64,
        fun _ => rfl, ?_, ?_⟩
      · intro attempt
        have step : 0 ≤ increment.asSecsF64 * (attempt.toNat : Rat) :=
          mul_nonneg increment.asSecsF64_nonneg (Nat.cast_nonneg _)
        exact le_add_of_nonneg_left step
      · intro first later ordered
        have attempts : (first.toNat : Rat) ≤ later.toNat :=
          Nat.cast_le.mpr (UInt32.le_iff_toNat_le.mp ordered)
        exact add_le_add_left (mul_le_mul_of_nonneg_left attempts
          increment.asSecsF64_nonneg) _
  | exponential base factor cap jitter =>
      obtain ⟨growth, rfl, grows⟩ :=
        factor_of_validateCurve (bounds_of_validate valid).1
      refine ⟨fun attempt =>
        base.asSecsF64 * growth ^ min attempt.toNat i32Max,
        fun _ => rfl, ?_, ?_⟩
      · intro attempt
        exact le_mul_of_one_le_right base.asSecsF64_nonneg
          (one_le_pow₀ grows.le)
      · intro first later ordered
        have exponents : min first.toNat i32Max ≤ min later.toNat i32Max :=
          min_le_min_right _ (UInt32.le_iff_toNat_le.mp ordered)
        exact mul_le_mul_of_nonneg_left
          (pow_le_pow_right₀ grows.le exponents) base.asSecsF64_nonneg

theorem applyJitter_of_jitterFree (steady : policy.JitterFree)
    (draw : Rat → Rat) (secs : Rat) :
    policy.applyJitter draw secs = some secs := by
  cases policy with
  | linear base increment cap => rfl
  | exponential base factor cap jitter =>
      have zero : jitter = .finite 0 := steady
      subst zero
      rfl

/-- Clamping twice clamps once. -/
theorem next_of_jitterFree {draw : Rat → Rat} {attempt : UInt32} {secs : Rat}
    (steady : policy.JitterFree) (nonneg : 0 ≤ secs)
    (raw : policy.rawSecs attempt = .finite secs) :
    policy.next draw attempt =
      Duration.fromSecsF64 (min secs policy.cap.asSecsF64) := by
  have positive : 0 ≤ min secs policy.cap.asSecsF64 :=
    le_min nonneg policy.cap.asSecsF64_nonneg
  have clamped : policy.clampedSecs attempt =
      min secs policy.cap.asSecsF64 := by
    simp only [clampedSecs, raw]
    exact max_eq_left positive
  rw [next, applyJitter_of_jitterFree steady, clamped, Option.bind_eq_bind,
    Option.bind_some, min_eq_left (min_le_right _ _), max_eq_left positive]

/-- The delay of each attempt: at most the cap, and at least the base or the
cap. -/
theorem exists_next (valid : policy.validate = .ok ())
    (steady : policy.JitterFree) (draw : Rat → Rat) :
    ∃ delay : UInt32 → Duration,
      (∀ attempt, policy.next draw attempt = some (delay attempt)) ∧
      (∀ attempt, (delay attempt).nanos ≤ policy.cap.nanos) ∧
      (∀ attempt, min policy.base.nanos policy.cap.nanos ≤
        (delay attempt).nanos) ∧
      ∀ first later, first ≤ later →
        (delay first).nanos ≤ (delay later).nanos := by
  obtain ⟨curve, raw, fromBase, rises⟩ := exists_curve valid
  have nonneg (attempt : UInt32) : 0 ≤ curve attempt :=
    policy.base.asSecsF64_nonneg.trans (fromBase attempt)
  have computed (attempt : UInt32) :=
    Duration.fromSecsF64_of_le
      (le_min (nonneg attempt) policy.cap.asSecsF64_nonneg)
      (min_le_right (curve attempt) policy.cap.asSecsF64)
  choose delay converted rounded using computed
  refine ⟨delay, ?_, ?_, ?_, ?_⟩
  · intro attempt
    rw [next_of_jitterFree steady (nonneg attempt) (raw attempt)]
    exact converted attempt
  · intro attempt
    have upper := Duration.roundTiesEven_le
      (min_le_right (curve attempt) policy.cap.asSecsF64)
    rw [← rounded attempt] at upper
    exact Int.ofNat_le.mp upper
  · intro attempt
    rcases le_total (curve attempt) policy.cap.asSecsF64 with below | above
    · have lower := Duration.le_roundTiesEven (fromBase attempt)
      have equal := rounded attempt
      rw [min_eq_left below] at equal
      rw [← equal] at lower
      omega
    · have lower := Duration.le_roundTiesEven (le_refl policy.cap.asSecsF64)
      have equal := rounded attempt
      rw [min_eq_right above] at equal
      rw [← equal] at lower
      omega
  · intro first later ordered
    have scaled := roundTiesEven_mono (mul_le_mul_of_nonneg_right
      (min_le_min_right policy.cap.asSecsF64 (rises first later ordered))
      (by norm_num : (0 : Rat) ≤ 1000000000))
    rw [← rounded first, ← rounded later] at scaled
    exact Int.ofNat_le.mp scaled

/-- The delays of a policy start at 100 ms, never fall, and stay within the
cap, which is at most 24 h. -/
def Paced (policy : BackoffPolicy) (draw : Rat → Rat) : Prop :=
  ∀ first later : UInt32, first ≤ later → ∃ short long,
    policy.next draw first = some short ∧
    policy.next draw later = some long ∧
    minBackoffBase.nanos ≤ short.nanos ∧ short.nanos ≤ long.nanos ∧
    long.nanos ≤ policy.cap.nanos ∧ policy.cap.nanos ≤ maxBackoffCap.nanos

end BackoffPolicy

/-- `validate` compares the base with 100 ms and the cap with 24 h, but not the
cap with 100 ms: the delays are paced exactly when the cap leaves room. -/
theorem validated_backoff_paced_iff {policy : BackoffPolicy}
    (valid : policy.validate = .ok ()) (steady : policy.JitterFree)
    (draw : Rat → Rat) :
    policy.Paced draw ↔ minBackoffBase.nanos ≤ policy.cap.nanos := by
  obtain ⟨delay, computed, withinCap, fromFloor, rises⟩ :=
    BackoffPolicy.exists_next valid steady draw
  obtain ⟨_, capBounded, baseFloor⟩ := BackoffPolicy.bounds_of_validate valid
  constructor
  · intro paced
    obtain ⟨short, long, _, _, floor, ordered, ceiling, _⟩ :=
      paced 0 0 (UInt32.le_refl 0)
    exact floor.trans (ordered.trans ceiling)
  · intro room first later ordered
    exact ⟨delay first, delay later, computed first, computed later,
      (le_min baseFloor room).trans (fromFloor first),
      rises first later ordered, withinCap later, capBounded⟩

namespace SmallWorker

/-- From one second on, one more second for each attempt, up to thirty. -/
def linearBackoff : BackoffPolicy :=
  .linear (.fromSecs 1) (.fromSecs 1) (.fromSecs 30)

/-- A base of one second under a cap of one nanosecond. -/
def cappedBackoff : BackoffPolicy :=
  .exponential (.fromSecs 1) (.finite 2) ⟨1, by decide⟩ (.finite 0)

theorem validate_cappedBackoff : cappedBackoff.validate = .ok () := by
  decide +kernel

end SmallWorker

theorem linearBackoff_paced :
    SmallWorker.linearBackoff.validate = .ok () ∧
      ∀ draw, SmallWorker.linearBackoff.Paced draw := by
  have valid : SmallWorker.linearBackoff.validate = .ok () := rfl
  refine ⟨valid, ?_⟩
  intro draw
  exact (validated_backoff_paced_iff valid trivial draw).mpr (by decide)

/-- A validated policy that retries after one nanosecond, whatever the
attempt. -/
theorem cappedBackoff_retries_at_once :
    SmallWorker.cappedBackoff.validate = .ok () ∧
      SmallWorker.cappedBackoff.JitterFree ∧
      ∀ draw attempt, ∃ delay,
        SmallWorker.cappedBackoff.next draw attempt = some delay ∧
          delay.nanos = 1 := by
  refine ⟨SmallWorker.validate_cappedBackoff, rfl, fun draw attempt => ?_⟩
  obtain ⟨delay, computed, withinCap, fromFloor, _⟩ :=
    BackoffPolicy.exists_next SmallWorker.validate_cappedBackoff rfl draw
  exact ⟨delay attempt, computed attempt,
    le_antisymm (withinCap attempt) (fromFloor attempt)⟩

/-! ## `compute_retry_delay` -/

section RetryIn

variable {config : RetryConfig} {attempts : Nat}

/-- What is promised of a delay that a handler asks for. -/
structure RetryInClamped (config : RetryConfig) (attempts : Nat) : Prop where
  returns : ∀ requested, ∃ delay,
    computeRetryDelay config (some requested) attempts = some delay
  within : ∀ requested delay,
    computeRetryDelay config (some requested) attempts = some delay →
      min (max config.pollInterval.nanos minRetryIn.nanos) maxRetryIn.nanos ≤
          delay.nanos ∧
        delay.nanos ≤ maxRetryIn.nanos
  kept : ∀ requested,
    max config.pollInterval.nanos minRetryIn.nanos ≤ requested.nanos →
      requested.nanos ≤ maxRetryIn.nanos →
        computeRetryDelay config (some requested) attempts = some requested
  monotone : ∀ low high lowDelay highDelay, low.nanos ≤ high.nanos →
    computeRetryDelay config (some low) attempts = some lowDelay →
      computeRetryDelay config (some high) attempts = some highDelay →
        lowDelay.nanos ≤ highDelay.nanos

/-- Between bounds in order `clamp` is the nearest value within them. -/
theorem nanos_of_clamp {requested floor ceiling delay : Duration}
    (clamped : requested.clamp floor ceiling = some delay) :
    floor.nanos ≤ ceiling.nanos ∧
      delay.nanos = max floor.nanos (min requested.nanos ceiling.nanos) := by
  unfold Duration.clamp at clamped
  split_ifs at clamped <;> cases clamped <;> omega

theorem nanos_of_computeRetryDelay {requested delay : Duration}
    (computed : computeRetryDelay config (some requested) attempts =
      some delay) :
    max config.pollInterval.nanos minRetryIn.nanos ≤ maxRetryIn.nanos ∧
      delay.nanos =
        max (max config.pollInterval.nanos minRetryIn.nanos)
          (min requested.nanos maxRetryIn.nanos) := by
  have clamped := nanos_of_clamp computed
  split_ifs at clamped with below
  · rw [max_eq_right below]
    exact clamped
  · rw [max_eq_left (Nat.le_of_not_le below)]
    exact clamped

/-- Every promise but that there is a delay holds of the delays there are. -/
theorem retryInClamped_of_returns
    (returns : ∀ requested, ∃ delay,
      computeRetryDelay config (some requested) attempts = some delay) :
    RetryInClamped config attempts where
  returns := returns
  within := by
    intro requested delay computed
    obtain ⟨ordered, nanos⟩ := nanos_of_computeRetryDelay computed
    omega
  kept := by
    intro requested floor ceiling
    obtain ⟨delay, computed⟩ := returns requested
    have nanos := (nanos_of_computeRetryDelay computed).2
    rw [min_eq_left ceiling, max_eq_right floor] at nanos
    obtain ⟨delayNanos, _⟩ := delay
    obtain ⟨requestedNanos, _⟩ := requested
    cases nanos
    exact computed
  monotone := by
    intro low high lowDelay highDelay ordered computedLow computedHigh
    have lowNanos := (nanos_of_computeRetryDelay computedLow).2
    have highNanos := (nanos_of_computeRetryDelay computedHigh).2
    omega

end RetryIn

/-- A requested delay is clamped as promised exactly when the poll interval is
at most 24 h; above that `clamp` panics. -/
theorem retryIn_clamped_iff {T : Type} {builder : WorkerBuilder T}
    {host : Host} {worker : BuiltWorker T}
    (built : builder.build host = .ok worker)
    (next : BackoffPolicy → Nat → Duration) (attempts : Nat) :
    RetryInClamped (worker.retryConfig next) attempts ↔
      builder.pollInterval.nanos ≤ maxRetryIn.nanos := by
  have poll : (worker.retryConfig next).pollInterval = builder.pollInterval :=
    (WorkerBuilder.builds_of_build built).pollInterval
  rw [← poll]
  constructor
  · intro promised
    have computed := exists_computeRetryDelay_iff.mp
      (promised.returns minRetryIn)
    exact computed rfl
  · intro bounded
    exact retryInClamped_of_returns fun requested =>
      exists_computeRetryDelay_iff.mpr fun _ => bounded

theorem retryIn_clamped_smallWorker :
    ∃ worker, SmallWorker.builder.build SmallWorker.host = .ok worker ∧
      ∀ next attempts, RetryInClamped (worker.retryConfig next) attempts := by
  obtain ⟨worker, built⟩ := SmallWorker.exists_build
  exact ⟨worker, built, fun next attempts =>
    (retryIn_clamped_iff built next attempts).mpr (by decide)⟩

/-- With one poll every 25 hours no requested delay can be computed. -/
theorem retryIn_panics_on_dailyPolls :
    ∃ worker, SmallWorker.dailyPolls.build SmallWorker.host = .ok worker ∧
      ∀ next attempts requested,
        computeRetryDelay (worker.retryConfig next) (some requested)
          attempts = none := by
  obtain ⟨worker, built⟩ := SmallWorker.exists_build_dailyPolls
  refine ⟨worker, built, fun next attempts requested => ?_⟩
  have poll : (worker.retryConfig next).pollInterval = .fromSecs 90000 :=
    (WorkerBuilder.builds_of_build built).pollInterval
  cases computed : computeRetryDelay (worker.retryConfig next)
      (some requested) attempts with
  | none => rfl
  | some delay =>
      have ordered := (nanos_of_computeRetryDelay computed).1
      rw [poll] at ordered
      exact absurd ordered (by decide)

end PgWorkQueue
