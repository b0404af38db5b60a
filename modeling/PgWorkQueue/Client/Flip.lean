import Mathlib.Algebra.BigOperators.Group.List.Basic
import PgWorkQueue.Client.Handler

/-!
# What a worker records about its marks

After each mark a `flip_*` function reads how many rows the statement moved,
bumps one counter and, when its row moved, emits a transition event.  The six
functions come in two families: `flip_*_state` for a started worker, which
gives up on the statement after `mark_timeout`, and `flip_*_tick` for
`tick_once`, which waits for it.  Within a family they differ only in the
counter and in the event.
-/

namespace PgWorkQueue

/-! ## Transition events -/

/-- `TransitionSource`. -/
inductive TransitionSource where
  | worker
  | reaper
  | purge
  deriving DecidableEq, Repr

/-- The level at which `emit_transition` logs. -/
inductive Level where
  | error
  | info
  | debug
  deriving DecidableEq, Repr

/-- `TransitionCtx`. -/
structure TransitionCtx where
  jobId : Nat
  publicId : Uuid
  queue : String
  attempts : Nat
  source : TransitionSource
  reason : Option String
  lostRace : Bool
  deriving DecidableEq

/-- The attributes of an event on the target `pgwq.state.transition`;
`statusFrom` is logged as `none` when it is absent. -/
structure TransitionEvent where
  level : Level
  workerId : Option Uuid
  jobId : Nat
  publicId : Uuid
  queue : String
  attempts : Nat
  statusFrom : Option JobStatus
  statusTo : JobStatus
  source : TransitionSource
  lostRace : Bool
  reasonLength : Nat
  reasonPresent : Bool
  reason : Option String
  deriving DecidableEq

/-- The level is picked by the destination. -/
def transitionLevel : JobStatus → Level
  | .dead => .error
  | .done => .info
  | .awaitingRetry => .info
  | _ => .debug

def emitTransition (fromStatus : Option JobStatus) (toStatus : JobStatus)
    (worker : Option Uuid) (ctx : TransitionCtx) : TransitionEvent where
  level := transitionLevel toStatus
  workerId := worker
  jobId := ctx.jobId
  publicId := ctx.publicId
  queue := ctx.queue
  attempts := ctx.attempts
  statusFrom := fromStatus
  statusTo := toStatus
  source := ctx.source
  lostRace := ctx.lostRace
  reasonLength := ctx.reason.elim 0 String.utf8ByteSize
  reasonPresent := ctx.reason.isSome
  -- The body of the reason is withheld from the events of dead letters.
  reason :=
    match transitionLevel toStatus with
    | .error => none
    | _ => ctx.reason

/-! ## Counters -/

/-- `AtomicStats`, with the counts themselves; `Stats.wrapped` is what the
`AtomicU64`s hold of them. -/
structure Stats where
  completed : Nat
  failed : Nat
  fencedOut : Nat
  timedOut : Nat
  markTimedOut : Nat
  aborted : Nat
  deriving DecidableEq, Repr

/-- `AtomicStats::default`. -/
def Stats.zero : Stats where
  completed := 0
  failed := 0
  fencedOut := 0
  timedOut := 0
  markTimedOut := 0
  aborted := 0

/-- `fetch_add` wraps around. -/
def Stats.wrapped (stats : Stats) : Stats where
  completed := stats.completed % 2 ^ 64
  failed := stats.failed % 2 ^ 64
  fencedOut := stats.fencedOut % 2 ^ 64
  timedOut := stats.timedOut % 2 ^ 64
  markTimedOut := stats.markTimedOut % 2 ^ 64
  aborted := stats.aborted % 2 ^ 64

/-- `TickStats`. -/
structure TickStats where
  claimed : Nat
  completed : Nat
  failed : Nat
  fencedOut : Nat
  deriving DecidableEq, Repr

/-- What awaiting a `mark_*` gives; its error is only logged. -/
inductive MarkResult where
  | affected (rows : Nat)
  | failed
  deriving DecidableEq, Repr

/-- The statement of a mark, executed for a job. -/
def sendMark {T : Type} (now : Int) (job : Job T) (mark : Mark)
    (jobs : Jobs) : Jobs × MarkResult :=
  match mark.execute jobs now job.id job.leaseToken with
  | .ok (updated, rows) => (updated, .affected rows)
  | .error _ => (jobs, .failed)

/-! ## The `flip_*` functions -/

section Flip

variable {T : Type}

/-- The event of the `flip_*` functions, for a job as it was claimed. -/
def flipEvent (worker : Option Uuid) (job : Job T) (toStatus : JobStatus)
    (reason : Option String) : TransitionEvent :=
  emitTransition (some .running) toStatus worker
    { jobId := job.id
      publicId := job.publicId
      queue := job.queue
      attempts := job.attempts
      source := .worker
      reason := reason
      lostRace := false }

/-- The common body of `flip_*_state`; `none` stands for an elapsed
`mark_timeout`. -/
def flipState (bump : Stats → Stats) (event : TransitionEvent)
    (stats : Stats) : Option MarkResult → Stats × List TransitionEvent
  | some (.affected 1) => (bump stats, [event])
  | some (.affected _) =>
      ({ stats with fencedOut := stats.fencedOut + 1 }, [])
  | some .failed => (stats, [])
  | none => ({ stats with markTimedOut := stats.markTimedOut + 1 }, [])

def flipDoneState (identity : Uuid) (job : Job T) (stats : Stats) :
    Option MarkResult → Stats × List TransitionEvent :=
  flipState (fun stats => { stats with completed := stats.completed + 1 })
    (flipEvent (some identity) job .done none) stats

def flipRetryState (identity : Uuid) (job : Job T) (reason : String)
    (stats : Stats) : Option MarkResult → Stats × List TransitionEvent :=
  flipState (fun stats => { stats with failed := stats.failed + 1 })
    (flipEvent (some identity) job .awaitingRetry (some reason)) stats

def flipDeadState (identity : Uuid) (job : Job T) (reason : String)
    (stats : Stats) : Option MarkResult → Stats × List TransitionEvent :=
  flipState (fun stats => { stats with failed := stats.failed + 1 })
    (flipEvent (some identity) job .dead (some reason)) stats

/-- The common body of `flip_*_tick`, which has no timeout. -/
def flipTick (bump : TickStats → TickStats) (event : TransitionEvent)
    (stats : TickStats) : MarkResult → TickStats × List TransitionEvent
  | .affected 1 => (bump stats, [event])
  | .affected _ => ({ stats with fencedOut := stats.fencedOut + 1 }, [])
  | .failed => (stats, [])

def flipDoneTick (worker : Option Uuid) (job : Job T) (stats : TickStats) :
    MarkResult → TickStats × List TransitionEvent :=
  flipTick (fun stats => { stats with completed := stats.completed + 1 })
    (flipEvent worker job .done none) stats

def flipRetryTick (worker : Option Uuid) (job : Job T) (reason : String)
    (stats : TickStats) : MarkResult → TickStats × List TransitionEvent :=
  flipTick (fun stats => { stats with failed := stats.failed + 1 })
    (flipEvent worker job .awaitingRetry (some reason)) stats

def flipDeadTick (worker : Option Uuid) (job : Job T) (reason : String)
    (stats : TickStats) : MarkResult → TickStats × List TransitionEvent :=
  flipTick (fun stats => { stats with failed := stats.failed + 1 })
    (flipEvent worker job .dead (some reason)) stats

/-- The `flip_*_state` that issues a mark. -/
def Mark.flipState (identity : Uuid) (job : Job T) (stats : Stats) :
    Mark → Option MarkResult → Stats × List TransitionEvent
  | .done => flipDoneState identity job stats
  | .retry reason _ => flipRetryState identity job reason stats
  | .dead reason => flipDeadState identity job reason stats

/-- The `flip_*_tick` that issues a mark. -/
def Mark.flipTick (worker : Option Uuid) (job : Job T) (stats : TickStats) :
    Mark → MarkResult → TickStats × List TransitionEvent
  | .done => flipDoneTick worker job stats
  | .retry reason _ => flipRetryTick worker job reason stats
  | .dead reason => flipDeadTick worker job reason stats

end Flip

/-! ## What a mark adds to the counters

The counters form a commutative monoid, and each `flip_*_state` adds to them
an amount that depends on the mark and its result only. -/

namespace Stats

instance : Zero Stats := ⟨zero⟩

instance : Add Stats where
  add left right :=
    { completed := left.completed + right.completed
      failed := left.failed + right.failed
      fencedOut := left.fencedOut + right.fencedOut
      timedOut := left.timedOut + right.timedOut
      markTimedOut := left.markTimedOut + right.markTimedOut
      aborted := left.aborted + right.aborted }

@[ext]
theorem ext {left right : Stats} (completed : left.completed = right.completed)
    (failed : left.failed = right.failed)
    (fencedOut : left.fencedOut = right.fencedOut)
    (timedOut : left.timedOut = right.timedOut)
    (markTimedOut : left.markTimedOut = right.markTimedOut)
    (aborted : left.aborted = right.aborted) : left = right := by
  cases left
  cases right
  simp_all

instance : AddCommMonoid Stats where
  add_assoc := fun _ _ _ => by
    ext <;> exact Nat.add_assoc _ _ _
  zero_add := fun _ => by
    ext <;> exact Nat.zero_add _
  add_zero := fun _ => by
    ext <;> exact Nat.add_zero _
  add_comm := fun _ _ => by
    ext <;> exact Nat.add_comm _ _
  nsmul := nsmulRec

@[simp]
theorem completed_add (left right : Stats) :
    (left + right).completed = left.completed + right.completed := rfl

@[simp]
theorem failed_add (left right : Stats) :
    (left + right).failed = left.failed + right.failed := rfl

/-- The counters of which the marks and the aborts of tasks each take one. -/
def outcomes (stats : Stats) : Nat :=
  stats.completed + stats.failed + stats.fencedOut + stats.markTimedOut +
    stats.aborted

@[simp]
theorem outcomes_add (left right : Stats) :
    (left + right).outcomes = left.outcomes + right.outcomes := by
  change (left.completed + right.completed) + (left.failed + right.failed) +
    (left.fencedOut + right.fencedOut) +
    (left.markTimedOut + right.markTimedOut) +
    (left.aborted + right.aborted) = left.outcomes + right.outcomes
  unfold outcomes
  omega

/-- Counters that have not reached `2 ^ 64` have not wrapped around. -/
theorem wrapped_eq_self {stats : Stats} (outcomes : stats.outcomes < 2 ^ 64)
    (timedOut : stats.timedOut < 2 ^ 64) : stats.wrapped = stats := by
  unfold Stats.outcomes at outcomes
  ext <;>
    simp only [wrapped] <;>
    omega

end Stats

/-- The counter of a mark that moved its row. -/
def Mark.counted : Mark → Stats
  | .done => { Stats.zero with completed := 1 }
  | .retry _ _ => { Stats.zero with failed := 1 }
  | .dead _ => { Stats.zero with failed := 1 }

/-- What a mark adds to the counters; `none` stands for an elapsed
`mark_timeout`. -/
def Mark.tally (mark : Mark) : Option MarkResult → Stats
  | some (.affected 1) => mark.counted
  | some (.affected _) => { Stats.zero with fencedOut := 1 }
  | some .failed => 0
  | none => { Stats.zero with markTimedOut := 1 }

/-- The counters that `TickStats` shares with `Stats`, increased. -/
def TickStats.plus (tick : TickStats) (tally : Stats) : TickStats where
  claimed := tick.claimed
  completed := tick.completed + tally.completed
  failed := tick.failed + tally.failed
  fencedOut := tick.fencedOut + tally.fencedOut

section Tally

variable {T : Type} {job : Job T}

theorem Mark.flipState_stats (identity : Uuid) (stats : Stats) (mark : Mark)
    (result : Option MarkResult) :
    (mark.flipState identity job stats result).1 =
      stats + mark.tally result := by
  cases mark <;> rcases result with _ | (_ | _ | rows) | _ <;> rfl

theorem Mark.flipTick_stats (worker : Option Uuid) (tick : TickStats)
    (mark : Mark) (result : MarkResult) :
    (mark.flipTick worker job tick result).1 =
      tick.plus (mark.tally (some result)) := by
  cases mark <;> rcases result with (_ | _ | rows) | _ <;> rfl

/-- A mark whose row moved emits the event of its own transition, and no other
result emits anything. -/
theorem Mark.flipState_events (identity : Uuid) (stats : Stats) (mark : Mark)
    (result : Option MarkResult) :
    (mark.flipState identity job stats result).2 =
      if result = some (.affected 1) then
        [flipEvent (some identity) job mark.status mark.reason]
      else [] := by
  cases mark <;> rcases result with _ | (_ | _ | rows) | _ <;> rfl

end Tally

end PgWorkQueue
