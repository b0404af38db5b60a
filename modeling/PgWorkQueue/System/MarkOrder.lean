import PgWorkQueue.Client.Flip
import PgWorkQueue.Client.Routing
import PgWorkQueue.System.Locality

/-!
# The order of the marks of a batch

A started worker applies the handler results of a batch concurrently, in the
order in which the handlers finish; `tick_once` applies them one after the
other, in the order of the batch.  The jobs of one claim are distinct rows and
a mark reads and writes its own row only, so both paths leave the same table
and count the same marks.
-/

namespace PgWorkQueue

open Library.Footprint Library.Runs

/-! ## The two paths -/

/-- A claimed job with the result of its handler and the delays that
`BackoffPolicy::next` draws for it. -/
structure Handled (T : Type) where
  job : Job T
  result : Except JobError Unit
  backoffNext : Nat → Duration

/-- The jobs that `claim_and_decode` returns for the rows of a claim. -/
def decodedJobs {T : Type} (codec : Codec T) (raws : List RawClaimedRow) :
    List (Job T) :=
  raws.filterMap fun raw => (decodeRow codec raw).toOption

section Paths

variable {T : Type}

def Handled.retryConfig (pollInterval : Duration) (handled : Handled T) :
    RetryConfig where
  backoffNext := handled.backoffNext
  pollInterval := pollInterval

/-- `apply_handler_result_state` of one job, when its mark does not time out.
A task that panics leaves everything to the others. -/
def applyState (identity : Uuid) (pollInterval : Duration) (now : Int)
    (progress : Jobs × Stats) (handled : Handled T) : Jobs × Stats :=
  match applyHandlerResultState (handled.retryConfig pollInterval)
      handled.job.attempts handled.job.maxAttempts handled.result with
  | none => progress
  | some mark =>
      let sent := sendMark now handled.job mark progress.1
      (sent.1, (mark.flipState identity handled.job progress.2
        (some sent.2)).1)

/-- `apply_handler_result` of one job; a panic unwinds `tick_once`. -/
def applyTick (pollInterval : Duration) (now : Int)
    (progress : Jobs × TickStats) (handled : Handled T) :
    Option (Jobs × TickStats) :=
  match applyHandlerResult (handled.retryConfig pollInterval)
      handled.job.attempts handled.job.maxAttempts handled.result with
  | none => none
  | some mark =>
      let sent := sendMark now handled.job mark progress.1
      some (sent.1, (mark.flipTick none handled.job progress.2 sent.2).1)

/-- The handler results of a batch, applied by the tasks of a started worker
in the order in which their marks reach the table. -/
def concurrentPath (identity : Uuid) (pollInterval : Duration) (now : Int)
    (jobs : Jobs) (batch : List (Handled T)) : Jobs × Stats :=
  batch.foldl (applyState identity pollInterval now) (jobs, .zero)

/-- The loop of `tick_once` over a batch. -/
def tickPath (pollInterval : Duration) (now : Int) (jobs : Jobs)
    (batch : List (Handled T)) : Option (Jobs × TickStats) :=
  batch.foldlM (applyTick pollInterval now)
    (jobs, { claimed := batch.length, completed := 0, failed := 0,
             fencedOut := 0 })

end Paths

/-! ## Each path as a list of local operations -/

/-- What `mark_*` returns. -/
def Reply.markResult : Reply → MarkResult
  | .affected rows => .affected rows
  | _ => .failed

section Operations

variable {T : Type} {pollInterval : Duration} {now : Int}

/-- The mark of a handled job with its result, if a mark is issued. -/
def issueMark (pollInterval : Duration) (now : Int) (handled : Handled T)
    (jobs : Jobs) : Jobs × Option (Mark × MarkResult) :=
  match applyHandlerResultState (handled.retryConfig pollInterval)
      handled.job.attempts handled.job.maxAttempts handled.result with
  | none => (jobs, none)
  | some mark =>
      let sent := sendMark now handled.job mark jobs
      (sent.1, some (mark, sent.2))

/-- What the replies of the marks add to the counters. -/
def tallyOf (replies : List (Handled T × Option (Mark × MarkResult))) :
    Stats :=
  (replies.map fun reply => reply.2.elim 0 fun sent =>
    sent.1.tally (some sent.2)).sum

theorem sendMark_eq (job : Job T) (mark : Mark) (jobs : Jobs) :
    sendMark now job mark jobs =
      ((execute (T := T) jobs now (.mark job.id job.leaseToken mark)).1,
        (execute (T := T) jobs now
          (.mark job.id job.leaseToken mark)).2.markResult) := by
  simp only [sendMark, execute]
  cases mark.execute jobs now job.id job.leaseToken with
  | error failure => rfl
  | ok sent => rfl

theorem local_sendMark (job : Job T) (mark : Mark) :
    Local Jobs.view (fun _ location => location = job.id)
      (sendMark now job mark) := by
  rw [funext (sendMark_eq job mark)]
  exact local_mark.mapReply Reply.markResult

theorem allLocal_issueMark (pollInterval : Duration) (now : Int) :
    AllLocal Jobs.view (issueMark (T := T) pollInterval now)
      (fun handled _ location => location = handled.job.id) := by
  intro handled
  cases issued : applyHandlerResultState (handled.retryConfig pollInterval)
      handled.job.attempts handled.job.maxAttempts handled.result with
  | none =>
      have constant : issueMark pollInterval now handled =
          fun jobs => (jobs, none) := by
        funext jobs
        simp only [issueMark, issued]
      rw [constant]
      exact Local.unchanged _ _ _
  | some mark =>
      have sends : issueMark pollInterval now handled = fun jobs =>
          ((sendMark now handled.job mark jobs).1,
            some (mark, (sendMark now handled.job mark jobs).2)) := by
        funext jobs
        simp only [issueMark, issued]
      rw [sends]
      exact (local_sendMark handled.job mark).mapReply
        fun result => some (mark, result)

theorem applyState_eq (identity : Uuid) (progress : Jobs × Stats)
    (handled : Handled T) :
    applyState identity pollInterval now progress handled =
      ((issueMark pollInterval now handled progress.1).1,
        progress.2 + tallyOf [(handled,
          (issueMark pollInterval now handled progress.1).2)]) := by
  unfold applyState issueMark tallyOf
  split
  · simp
  · simp [Mark.flipState_stats]

/-- The tasks of a batch run its marks as operations on the table. -/
theorem foldl_applyState (identity : Uuid) (batch : List (Handled T))
    (progress : Jobs × Stats) :
    batch.foldl (applyState identity pollInterval now) progress =
      ((runAll (issueMark pollInterval now) progress.1 batch).1,
        progress.2 +
          tallyOf (runAll (issueMark pollInterval now) progress.1 batch).2) := by
  induction batch generalizing progress with
  | nil => simp [runAll, tallyOf]
  | cons handled rest later =>
      rw [List.foldl_cons, later, applyState_eq]
      simp [runAll, tallyOf, add_assoc]

/-- With a poll interval of at most 24 hours every result leads to a mark. -/
theorem exists_applyHandlerResultState {config : RetryConfig}
    (bounded : config.pollInterval.nanos ≤ maxRetryIn.nanos)
    (attempts maxAttempts : Nat) (result : Except JobError Unit) :
    ∃ mark, applyHandlerResultState config attempts maxAttempts result =
      some mark := by
  cases result with
  | ok done => exact ⟨.done, rfl⟩
  | error failure =>
      cases failure with
      | abort reason => exact ⟨.dead (fmtErrTrimmed reason), rfl⟩
      | retry reason retryIn =>
          obtain ⟨mark, issued, _⟩ := routed_retry_iff.mpr
            fun (_ : retryIn.isSome) (_ : attempts < maxAttempts) => bounded
          exact ⟨mark, issued⟩

theorem applyTick_eq (bounded : pollInterval.nanos ≤ maxRetryIn.nanos)
    (progress : Jobs × TickStats) (handled : Handled T) :
    applyTick pollInterval now progress handled =
      some ((issueMark pollInterval now handled progress.1).1,
        progress.2.plus (tallyOf [(handled,
          (issueMark pollInterval now handled progress.1).2)])) := by
  have polls : (handled.retryConfig pollInterval).pollInterval.nanos ≤
      maxRetryIn.nanos := bounded
  obtain ⟨mark, issued⟩ := exists_applyHandlerResultState polls
    handled.job.attempts handled.job.maxAttempts handled.result
  simp [applyTick, issueMark, applyHandlerResult_eq, issued, tallyOf,
    Mark.flipTick_stats]

theorem TickStats.plus_plus (tick : TickStats) (first second : Stats) :
    (tick.plus first).plus second = tick.plus (first + second) := by
  have completed := Nat.add_assoc tick.completed first.completed second.completed
  have failed := Nat.add_assoc tick.failed first.failed second.failed
  have fencedOut := Nat.add_assoc tick.fencedOut first.fencedOut second.fencedOut
  simp only [TickStats.plus, completed, failed, fencedOut]
  rfl

/-- The loop of `tick_once` runs the same operations. -/
theorem foldlM_applyTick (bounded : pollInterval.nanos ≤ maxRetryIn.nanos)
    (batch : List (Handled T)) (progress : Jobs × TickStats) :
    batch.foldlM (applyTick pollInterval now) progress =
      some ((runAll (issueMark pollInterval now) progress.1 batch).1,
        progress.2.plus
          (tallyOf (runAll (issueMark pollInterval now) progress.1 batch).2)) := by
  induction batch generalizing progress with
  | nil => rfl
  | cons handled rest later =>
      rw [List.foldlM_cons, applyTick_eq bounded, Option.bind_eq_bind,
        Option.bind_some, later, TickStats.plus_plus]
      simp [runAll, tallyOf]

end Operations

/-! ## Both paths agree -/

/-- Each job of a batch has an id of its own. -/
theorem decodedJobs_ids_sublist {T : Type} (codec : Codec T)
    (raws : List RawClaimedRow) :
    ((decodedJobs codec raws).map Job.id).Sublist
      (raws.map RawClaimedRow.id) := by
  induction raws with
  | nil => exact .slnil
  | cons raw rest later =>
      cases decoded : decodeRow codec raw with
      | error reason =>
          simp only [decodedJobs, List.filterMap_cons, decoded,
            Except.toOption, List.map_cons]
          exact later.cons _
      | ok job =>
          obtain ⟨payload, _, rfl⟩ := job_of_decodeRow decoded
          simp only [decodedJobs, List.filterMap_cons, decoded,
            Except.toOption, List.map_cons]
          exact later.cons_cons _

section Agreement

variable {T : Type} {earlier jobs : Jobs} {claimedAt now : Int}
  {claim : Statement T} {codec : Codec T} {batch reordered : List (Handled T)}
  {pollInterval : Duration}

/-- The marks of a batch are pairwise apart. -/
theorem apart_of_claimed (shape : Jobs.Shape)
    (claimed : (batch.map Handled.job).Sublist
      (decodedJobs codec (execute earlier claimedAt claim).2.claimedRows)) :
    batch.Pairwise (Apart (fun handled _ location =>
      location = handled.job.id) shape) := by
  have rawIds := (claimedRows_spec earlier claimedAt claim).1
  have jobIds : ((batch.map Handled.job).map Job.id).Nodup :=
    rawIds.sublist ((claimed.map Job.id).trans
      (decodedJobs_ids_sublist codec _))
  rw [List.map_map, List.Nodup, List.pairwise_map] at jobIds
  refine jobIds.imp ?_
  intro left right differ location isLeft isRight
  exact differ (isLeft.symm.trans isRight)

theorem tallyOf_perm
    {replies others : List (Handled T × Option (Mark × MarkResult))}
    (permuted : replies.Perm others) : tallyOf replies = tallyOf others :=
  (permuted.map _).sum_eq

/-- Applying the results of a batch concurrently, in whatever order, gives the
table that `tick_once` gives and the same counters.  The batch was claimed from
an earlier table, and anything may have happened to its rows since. -/
theorem concurrent_path_agrees_with_tick (identity : Uuid)
    (bounded : pollInterval.nanos ≤ maxRetryIn.nanos)
    (claimed : (batch.map Handled.job).Sublist
      (decodedJobs codec (execute earlier claimedAt claim).2.claimedRows))
    (permuted : batch.Perm reordered) :
    ∃ updated stats tick,
      concurrentPath identity pollInterval now jobs reordered =
        (updated, stats) ∧
      tickPath pollInterval now jobs batch = some (updated, tick) ∧
      stats.completed = tick.completed ∧ stats.failed = tick.failed ∧
      stats.fencedOut = tick.fencedOut := by
  have anyOrder := runAll_perm (allLocal_issueMark pollInterval now) permuted
    (apart_of_claimed (Jobs.view.shape jobs) claimed)
  have concurrent : concurrentPath identity pollInterval now jobs reordered =
      _ := foldl_applyState identity reordered _
  have sequential : tickPath pollInterval now jobs batch = _ :=
    foldlM_applyTick bounded batch _
  rw [anyOrder.1, tallyOf_perm anyOrder.2] at sequential
  exact ⟨_, _, _, concurrent, sequential, rfl, rfl, rfl⟩

end Agreement

/-! ### A batch of which one lease was taken over

Two jobs are claimed together; both leases run out, one of the rows is reaped
and claimed again, and then both handlers of the first claim succeed. -/

namespace Overtaken

def events : List (Event Unit) :=
  [⟨0, .push LateMark.pusher ⟨7⟩ () none⟩,
    ⟨0, .push LateMark.pusher ⟨8⟩ () none⟩,
    ⟨1, .claim LateMark.params (fun id => ⟨id⟩) fun _ => false⟩,
    ⟨20, .reap "mail" 1 id fun _ => false⟩,
    ⟨21, .claim LateMark.params (fun _ => ⟨9⟩) fun _ => false⟩]

def claim : Statement Unit :=
  .claim LateMark.params (fun id => ⟨id⟩) fun _ => false

/-- The table from which the batch is claimed. -/
def earlier : Jobs := ((DbState.initial 0).afterAll (events.take 2)).jobs

def table : Jobs := ((DbState.initial 0).afterAll events).jobs

def batch : List (Handled Unit) :=
  (decodedJobs LateMark.pusher.codec
    (execute earlier 1 claim).2.claimedRows).map fun job =>
      { job := job
        result := .ok ()
        backoffNext := fun _ => Duration.tenMicros }

theorem claimed :
    (batch.map Handled.job).Sublist (decodedJobs LateMark.pusher.codec
      (execute earlier 1 claim).2.claimedRows) := by
  rw [batch, List.map_map]
  exact (List.map_id _).symm ▸ List.Sublist.refl _

end Overtaken

theorem concurrent_path_agrees_on_overtaken :
    (concurrentPath ⟨5⟩ Duration.tenMicros 30 Overtaken.table
        Overtaken.batch.reverse).2 =
      { Stats.zero with completed := 1, fencedOut := 1 } ∧
    ∃ updated stats tick,
      concurrentPath ⟨5⟩ Duration.tenMicros 30 Overtaken.table
        Overtaken.batch.reverse = (updated, stats) ∧
      tickPath Duration.tenMicros 30 Overtaken.table Overtaken.batch =
        some (updated, tick) ∧
      stats.completed = tick.completed ∧ stats.failed = tick.failed ∧
      stats.fencedOut = tick.fencedOut := by
  exact ⟨by decide, concurrent_path_agrees_with_tick ⟨5⟩ (by decide)
    Overtaken.claimed (List.reverse_perm _).symm⟩

end PgWorkQueue
