import PgWorkQueue.Client.Flip
import PgWorkQueue.Client.PollLoop
import PgWorkQueue.Client.Routing

/-!
# The handler tasks of a started worker

`poll_loop` spawns a `handle_job` task for each job into the `JoinSet`
`state.tasks`; `join` and `shutdown` take the finished tasks out of it, and
`shutdown` aborts those that are left.  An entry stays in the set until it is
joined, whether or not its task has finished.

A task advances from one await to the next in one step, so that it is dropped
at an await or not at all.  In particular a `flip_*_state` reads the answer of
its statement and bumps the counter in the same step.  The statement of a mark
may be executed after its task stopped waiting for it.

`join_next` and `try_join_next` return a finished task as long as there is one,
so the loops around them are left only when none is in the set.  A task that
ends between their last look and the step they take on it ends after that step
here.  The cooperative budget, which makes `join_next` wait in spite of a
finished task, is left out.

Each entry carries a `ledger`: what the counters of the worker gained on its
account.
-/

namespace PgWorkQueue

open Library.Runs

/-- What the loop and the handler tasks read of a started worker. -/
structure StartedWorker (T : Type) extends Worker T where
  workerId : Uuid
  panicPolicy : PanicPolicy
  pollInterval : Duration

/-- `Worker::start`, which draws the identity. -/
def BuiltWorker.start {T : Type} (worker : BuiltWorker T) (workerId : Uuid) :
    StartedWorker T where
  toWorker := worker.toWorker
  workerId := workerId
  panicPolicy := worker.panicPolicy
  pollInterval := worker.pollInterval

/-! ## Tasks -/

/-- How a `handle_job` task ends. -/
inductive TaskEnd where
  /-- It returned after a `flip_*_state` to which the mark answered so; `none`
  stands for an elapsed `mark_timeout`. -/
  | marked (mark : Mark) (answer : Option MarkResult)
  /-- It returned without a mark. -/
  | unmarked
  | panicked
  /-- It was dropped at an await. -/
  | cancelled
  deriving DecidableEq

/-- Where a task is. -/
inductive Stage where
  /-- Awaiting the handler. -/
  | handling
  /-- Awaiting a mark that was not executed yet. -/
  | marking (mark : Mark)
  /-- Awaiting a mark that was executed with this result. -/
  | executed (mark : Mark) (result : MarkResult)
  | ended (how : TaskEnd)
  deriving DecidableEq

namespace Stage

def unfinished : Stage → Bool
  | ended _ => false
  | _ => true

/-- Where `handle_job` is once it has issued a mark, or has unwound. -/
def issuing : Option Mark → Stage
  | some mark => marking mark
  | none => ended .panicked

/-- The mark whose statement is on its way. -/
def unexecuted : Stage → Option Mark
  | marking mark => some mark
  | _ => none

/-- What awaiting the mark can give: the result of the statement, an error of
the connection, or `Elapsed`. -/
inductive Answers : Stage → Mark → Option MarkResult → Prop
  | received (mark : Mark) (result : MarkResult) :
      Answers (executed mark result) mark (some result)
  | brokenBefore (mark : Mark) : Answers (marking mark) mark (some .failed)
  | brokenAfter (mark : Mark) (result : MarkResult) :
      Answers (executed mark result) mark (some .failed)
  | elapsedBefore (mark : Mark) : Answers (marking mark) mark none
  | elapsedAfter (mark : Mark) (result : MarkResult) :
      Answers (executed mark result) mark none

end Stage

/-- An entry of the `JoinSet`, kept on record after it was joined. -/
structure Entry (T : Type) where
  job : Job T
  stage : Stage
  abortRequested : Bool
  joined : Bool
  ledger : Stats

/-- What `join_next` can return: a finished task that was not joined. -/
def Entry.ready {T : Type} (entry : Entry T) : Bool :=
  !entry.joined && !entry.stage.unfinished

/-- The entry of a task that was just spawned. -/
def Entry.spawned {T : Type} (job : Job T) : Entry T where
  job := job
  stage := .handling
  abortRequested := false
  joined := false
  ledger := 0

/-- What one step of a task does: the stage it leads to, the counters it bumps,
the rows its statement moves out of `running`, and the statement it no longer
waits for. -/
structure Progress where
  stage : Stage
  count : Stats → Stats
  moved : Nat
  orphan : Option Mark

/-- `timed_out` is bumped when the handler exceeds its timeout. -/
def HandlerBehaviour.count : HandlerBehaviour → Stats → Stats
  | exceedsTimeout, stats => { stats with timedOut := stats.timedOut + 1 }
  | _, stats => stats

/-- The rows that are `running` in a table and no longer so in a later one. -/
def leftRunning (before after : Jobs) : Nat :=
  before.rows.countP fun row =>
    row.status = .running ∧
      (after.find row.id).map Row.status ≠ some .running

/-- The steps of a task. -/
inductive Entry.Advances {T : Type} (worker : StartedWorker T)
    (entry : Entry T) : Progress → Prop
  /-- `handle_job` issues the mark for what the handler did, or unwinds. -/
  | handled (behaviour : HandlerBehaviour) (backoffNext : Nat → Duration)
      (inStage : entry.stage = .handling) :
      Advances worker entry
        { stage := .issuing
            (handleJobOf ⟨backoffNext, worker.pollInterval⟩
              worker.panicPolicy entry.job.attempts entry.job.maxAttempts
              behaviour)
          count := behaviour.count
          moved := 0
          orphan := none }
  /-- The inner task was cancelled. -/
  | innerCancelled (inStage : entry.stage = .handling) :
      Advances worker entry
        { stage := .ended .unmarked
          count := id
          moved := 0
          orphan := none }
  | executed (mark : Mark) (jobs : Jobs) (now : Int)
      (inStage : entry.stage = .marking mark) :
      Advances worker entry
        { stage := .executed mark (sendMark now entry.job mark jobs).2
          count := id
          moved := leftRunning jobs (sendMark now entry.job mark jobs).1
          orphan := none }
  | settled (mark : Mark) (answer : Option MarkResult)
      (answers : entry.stage.Answers mark answer) :
      Advances worker entry
        { stage := .ended (.marked mark answer)
          count := fun stats =>
            (mark.flipState worker.workerId entry.job stats answer).1
          moved := 0
          orphan := entry.stage.unexecuted }
  | cancelled (requested : entry.abortRequested = true)
      (awaits : entry.stage.unfinished = true) :
      Advances worker entry
        { stage := .ended .cancelled
          count := id
          moved := 0
          orphan := entry.stage.unexecuted }

/-- The entry after a step of its task. -/
def Entry.after {T : Type} (entry : Entry T) (progress : Progress) :
    Entry T :=
  { entry with
    stage := progress.stage
    ledger := progress.count entry.ledger }

/-! ## Shutdown -/

/-- Where `join` or `shutdown` is with the task set. -/
inductive Teardown where
  | serving
  /-- `drain_handlers` or `drain_handlers_until`. -/
  | draining
  | drained
  /-- The `try_join_next` loop of `abort_remaining_handlers`. -/
  | sweeping
  /-- Its loop after `abort_all`, with `aborted_count`. -/
  | aborting (abortedCount : Nat)
  | complete
  deriving DecidableEq

namespace Teardown

/-- The phases that hold the lock of the task set. -/
def holdsLock : Teardown → Bool
  | draining | sweeping | aborting _ => true
  | _ => false

/-- What joining a task counts: `aborted_count` counts the tasks that
`abort_all` cancelled. -/
def credit : Teardown → TaskEnd → Stats
  | aborting _, .cancelled => { Stats.zero with aborted := 1 }
  | _, _ => 0

/-- What is counted and not yet added to the counters. -/
def pending : Teardown → Stats
  | aborting abortedCount => { Stats.zero with aborted := abortedCount }
  | _ => 0

/-- The phase after joining a task. -/
def afterJoin (teardown : Teardown) (how : TaskEnd) : Teardown :=
  match teardown with
  | aborting abortedCount =>
      aborting (abortedCount + (teardown.credit how).aborted)
  | _ => teardown

end Teardown

/-- A started worker: its loop, its task set, what shuts it down, its counters,
the marks in flight that nobody waits for, and the rows its marks have moved
out of `running`. -/
structure WorkerState (T : Type) where
  loop : PollState T
  entries : List (Entry T)
  teardown : Teardown
  stats : Stats
  orphans : List (Job T × Mark)
  moved : Nat

/-- The state in which `start` leaves a worker. -/
def StartedWorker.initial {T : Type} (worker : StartedWorker T) :
    WorkerState T where
  loop := worker.toWorker.initial
  entries := []
  teardown := .serving
  stats := .zero
  orphans := []
  moved := 0

/-- The steps of the loop that a task takes part in. -/
def PollLabel.involvesTask : PollLabel → Bool
  | spawn | endTask _ => true
  | _ => false

/-- The step of the loop that takes the lock of the task set. -/
def PollLabel.takesLock : PollLabel → Bool
  | lock => true
  | _ => false

/-- The loop holds the lock of the task set. -/
def Phase.holdsLock {T : Type} : Phase T → Bool
  | spawning _ _ => true
  | _ => false

inductive WorkerLabel where
  | poll (label : PollLabel)
  | spawn
  | task
  | executeOrphan
  | drain
  | join
  | drained
  | sweep
  | nothingLeft
  | abortAll
  | counted

namespace WorkerState

variable {T : Type}

/-- A task advanced. -/
def advance (state : WorkerState T) (before : List (Entry T))
    (entry : Entry T) (after : List (Entry T)) (progress : Progress) :
    WorkerState T :=
  { state with
    entries := before ++ entry.after progress :: after
    stats := progress.count state.stats
    orphans := state.orphans ++ progress.orphan.toList.map (entry.job, ·)
    moved := state.moved + progress.moved }

/-- The entry of a finished task is taken out of the set. -/
def join (state : WorkerState T) (before : List (Entry T))
    (entry : Entry T) (after : List (Entry T)) (how : TaskEnd) :
    WorkerState T :=
  { state with
    entries := before ++
      { entry with
        joined := true
        ledger := entry.ledger + state.teardown.credit how } :: after
    teardown := state.teardown.afterJoin how }

/-- `join_next` and `try_join_next` have nothing to return. -/
def NoneReady (state : WorkerState T) : Prop :=
  ∀ entry ∈ state.entries, entry.ready = false

theorem noneReady_of_joined {state : WorkerState T}
    (joined : ∀ entry ∈ state.entries, entry.joined = true) :
    state.NoneReady := by
  intro entry member
  rw [Entry.ready, joined entry member]
  rfl

/-- `abort_all`. -/
def abortAll (state : WorkerState T) : WorkerState T :=
  { state with
    entries := state.entries.map fun entry =>
      { entry with abortRequested := entry.abortRequested || !entry.joined }
    teardown := .aborting 0 }

inductive Step (worker : StartedWorker T) :
    WorkerState T → WorkerLabel → WorkerState T → Prop
  | poll (state : WorkerState T) (label : PollLabel) (loop : PollState T)
      (taken : PollState.Step worker.toWorker state.loop label loop)
      (alone : label.involvesTask = false)
      (unlocked : (label.takesLock && state.teardown.holdsLock) = false) :
      Step worker state (.poll label) { state with loop := loop }
  | spawn (state : WorkerState T) (permit : Nat) (permits : List Nat)
      (row : Job T) (rows : List (Job T))
      (inPhase : state.loop.phase =
        .spawning (permit :: permits) (row :: rows)) :
      Step worker state .spawn
        { state with
          loop := state.loop.spawn worker.toWorker row permit rows permits
          entries := state.entries ++ [Entry.spawned row] }
  | task (state : WorkerState T) (before : List (Entry T)) (entry : Entry T)
      (after : List (Entry T)) (progress : Progress)
      (shape : state.entries = before ++ entry :: after)
      (advances : entry.Advances worker progress)
      (goesOn : progress.stage.unfinished = true) :
      Step worker state .task (state.advance before entry after progress)
  /-- When a task ends it drops its permit and its slot. -/
  | endTask (state : WorkerState T) (before : List (Entry T))
      (entry : Entry T) (after : List (Entry T)) (progress : Progress)
      (loop : PollState T)
      (shape : state.entries = before ++ entry :: after)
      (advances : entry.Advances worker progress)
      (ends : progress.stage.unfinished = false)
      (released : PollState.Step worker.toWorker state.loop
        (.endTask (before.countP (·.stage.unfinished))) loop) :
      Step worker state .task
        { state.advance before entry after progress with loop := loop }
  | executeOrphan (state : WorkerState T) (before : List (Job T × Mark))
      (job : Job T) (mark : Mark) (after : List (Job T × Mark))
      (jobs : Jobs) (now : Int)
      (shape : state.orphans = before ++ (job, mark) :: after) :
      Step worker state .executeOrphan
        { state with
          orphans := before ++ after
          moved := state.moved +
            leftRunning jobs (sendMark now job mark jobs).1 }
  /-- `join` first awaits the end of the loop, `shutdown` first fires the
  token. -/
  | drain (state : WorkerState T) (inPhase : state.teardown = .serving)
      (stopped : state.loop.shutdown = true ∨ state.loop.phase = .exited)
      (lock : state.loop.phase.holdsLock = false) :
      Step worker state .drain { state with teardown := .draining }
  | join (state : WorkerState T) (before : List (Entry T))
      (entry : Entry T) (after : List (Entry T)) (how : TaskEnd)
      (inPhase : state.teardown.holdsLock = true)
      (shape : state.entries = before ++ entry :: after)
      (unjoined : entry.joined = false)
      (hasEnded : entry.stage = .ended how) :
      Step worker state .join (state.join before entry after how)
  /-- The set is empty, or the deadline has passed. -/
  | drained (state : WorkerState T) (inPhase : state.teardown = .draining)
      (noneReady : state.NoneReady) :
      Step worker state .drained { state with teardown := .drained }
  | sweep (state : WorkerState T) (inPhase : state.teardown = .drained)
      (lock : state.loop.phase.holdsLock = false) :
      Step worker state .sweep { state with teardown := .sweeping }
  | nothingLeft (state : WorkerState T)
      (inPhase : state.teardown = .sweeping)
      (empty : ∀ entry ∈ state.entries, entry.joined = true) :
      Step worker state .nothingLeft { state with teardown := .complete }
  | abortAll (state : WorkerState T) (inPhase : state.teardown = .sweeping)
      (noneReady : state.NoneReady)
      (remains : ∃ entry ∈ state.entries, entry.joined = false) :
      Step worker state .abortAll state.abortAll
  /-- The set is empty, or the grace is over. -/
  | counted (state : WorkerState T) (abortedCount : Nat)
      (inPhase : state.teardown = .aborting abortedCount)
      (noneReady : state.NoneReady) :
      Step worker state .counted
        { state with
          teardown := .complete
          stats :=
            { state.stats with
              aborted := state.stats.aborted + abortedCount } }

end WorkerState

end PgWorkQueue
