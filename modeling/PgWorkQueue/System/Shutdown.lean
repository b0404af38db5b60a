import PgWorkQueue.System.ReaperLoop
import PgWorkQueue.System.TaskSetSize

/-!
# `WorkerHandle::shutdown`

The call moves the inner part out of its handle, adds the timeout to the
current instant, fires the token, waits for the poll and the reaper task,
aborts them, and takes the task set down.  It runs beside the worker, so that
the loops and the handler tasks may take any of their steps between two of its
own.  The timers it waits for may fire at any time.

The call is left by a return or by a panic, and then `Drop` runs on what the
handle still holds.
-/

namespace PgWorkQueue

open Library.Loop Library.Runs

/-! ## Instants -/

/-- The instants of a platform: nanoseconds below `limit`. -/
structure InstantRange where
  limit : Nat

/-- `Instant + Duration`, which panics when the sum cannot be represented. -/
def InstantRange.add (range : InstantRange) (instant : Nat)
    (duration : Duration) : Option Nat :=
  if instant + duration.nanos < range.limit then
    some (instant + duration.nanos)
  else
    none

/-- A call of `shutdown`; `start` is what `Instant::now()` returned to it. -/
structure ShutdownCall where
  range : InstantRange
  start : Nat
  timeout : Duration

def ShutdownCall.deadline (call : ShutdownCall) : Option Nat :=
  call.range.add call.start call.timeout

/-! ## The handle and its call -/

inductive ShutdownError where
  | fatal
  | reaperPanicEscalation (consecutivePanics : Nat)
  deriving DecidableEq

/-- How the call is left: with the counters and `pending_recovery`, with an
error, or by a panic. -/
inductive ShutdownExit where
  | returned (result : Except ShutdownError (Stats × Nat))
  | unwound

/-- Where the call is. -/
inductive CallPhase where
  | entered
  /-- `inner` was taken; the deadline is computed next. -/
  | taken
  /-- Before `cancel_shutdown`. -/
  | dated (deadline : Nat)
  /-- In the `timeout` around the two `JoinHandle`s. -/
  | softDraining (deadline : Nat)
  /-- Before the two `abort`s. -/
  | softDrained (deadline : Nat)
  /-- In `drain_handlers_until` and `abort_remaining_handlers`. -/
  | drainingHandlers (deadline : Nat)
  /-- In `count_pending_recovery`. -/
  | counting
  | left (exit : ShutdownExit)

/-- The task of `reaper_loop`. -/
structure ReaperTask where
  state : ReaperState
  exited : Bool

/-- The task after one round of the loop. -/
def ReaperTask.after :
    Flow ReaperState (ReaperState × ReaperPause) → ReaperTask
  | .next state | .leave (state, .awaitsTick) => ⟨state, false⟩
  | .leave (state, .returned) => ⟨state, true⟩

/-- A started worker with its reaper, its handle and a call of `shutdown`.  The
token is the one of the poll loop. -/
structure ShutdownState (T : Type) where
  worker : WorkerState T
  reaper : ReaperTask
  inner : Bool
  pollAbort : Bool
  reaperAbort : Bool
  call : CallPhase

/-- The steps of the worker that `join` and `shutdown` take. -/
def WorkerLabel.ofTeardown : WorkerLabel → Bool
  | drain | join | drained | sweep | nothingLeft | abortAll | counted => true
  | _ => false

namespace ShutdownState

variable {T : Type}

def token (state : ShutdownState T) : Bool :=
  state.worker.loop.shutdown

/-- The token after a write of `fired`; nothing unfires it. -/
def fire (state : ShutdownState T) (fired : Bool) : ShutdownState T :=
  { state with
    worker :=
      { state.worker with
        loop :=
          { state.worker.loop with
            shutdown := state.worker.loop.shutdown || fired } } }

/-- One round of `reaper_loop`, which may fire the token. -/
def reap (state : ShutdownState T) (worker : StartedWorker T)
    (setting : TickSetting) : ShutdownState T :=
  let reaper := ReaperTask.after
    (reaperBody worker (fun _ => setting) 0 state.reaper.state)
  { state.fire reaper.state.shutdown with reaper := reaper }

/-- `poll_abort.abort()` and `reaper_abort.abort()`. -/
def abortTasks (state : ShutdownState T) : ShutdownState T :=
  { state with pollAbort := true, reaperAbort := true }

/-- `Drop for WorkerHandle`. -/
def dropHandle (state : ShutdownState T) : ShutdownState T :=
  if state.inner then
    { (state.fire true).abortTasks with inner := false }
  else
    state

/-- The call is left, and the handle is dropped. -/
def leave (state : ShutdownState T) (exit : ShutdownExit) :
    ShutdownState T :=
  { state.dropHandle with call := .left exit }

/-- What the call returns in the end. -/
def result (state : ShutdownState T) (pendingRecovery : Nat) :
    Except ShutdownError (Stats × Nat) :=
  if state.worker.loop.lastFatal || state.reaper.state.lastFatal then
    .error .fatal
  else
    match state.reaper.state.lastPanicEscalation with
    | some panics => .error (.reaperPanicEscalation panics)
    | none => .ok (state.worker.stats, pendingRecovery)

end ShutdownState

inductive ShutdownLabel where
  | worker (label : WorkerLabel)
  | reaper
  | call

namespace ShutdownState

variable {T : Type}

/-- The steps of the call and of the worker beside it. -/
inductive Step (worker : StartedWorker T) (shutdown : ShutdownCall) :
    ShutdownState T → ShutdownLabel → ShutdownState T → Prop
  | worker (state : ShutdownState T) (label : WorkerLabel)
      (target : WorkerState T)
      (taken : WorkerState.Step worker state.worker label target)
      (notTeardown : label.ofTeardown = false)
      (aborted : label = .poll .abort → state.pollAbort = true) :
      Step worker shutdown state (.worker label)
        { state with worker := target }
  | reaperRound (state : ShutdownState T) (setting : TickSetting)
      (running : state.reaper.exited = false)
      (stopped : ∀ executed, setting.fate = .stopped executed →
        state.token = true) :
      Step worker shutdown state .reaper (state.reap worker setting)
  /-- The reaper leaves at its ticker when the token fired, or at an await when
  it was aborted. -/
  | reaperEnds (state : ShutdownState T)
      (told : state.token = true ∨ state.reaperAbort = true) :
      Step worker shutdown state .reaper
        { state with reaper := { state.reaper with exited := true } }
  | take (state : ShutdownState T) (inPhase : state.call = .entered)
      (present : state.inner = true) :
      Step worker shutdown state .call
        { state with inner := false, call := .taken }
  | nothingToTake (state : ShutdownState T) (inPhase : state.call = .entered)
      (absent : state.inner = false) :
      Step worker shutdown state .call
        (state.leave (.returned (.ok (.zero, 0))))
  | date (state : ShutdownState T) (deadline : Nat)
      (inPhase : state.call = .taken)
      (computed : shutdown.deadline = some deadline) :
      Step worker shutdown state .call { state with call := .dated deadline }
  | overflow (state : ShutdownState T) (inPhase : state.call = .taken)
      (panics : shutdown.deadline = none) :
      Step worker shutdown state .call (state.leave .unwound)
  | cancel (state : ShutdownState T) (deadline : Nat)
      (inPhase : state.call = .dated deadline) :
      Step worker shutdown state .call
        { state.fire true with call := .softDraining deadline }
  | joined (state : ShutdownState T) (deadline : Nat)
      (inPhase : state.call = .softDraining deadline)
      (pollExited : state.worker.loop.phase = .exited)
      (reaperExited : state.reaper.exited = true) :
      Step worker shutdown state .call
        { state with call := .softDrained deadline }
  | elapsed (state : ShutdownState T) (deadline : Nat)
      (inPhase : state.call = .softDraining deadline) :
      Step worker shutdown state .call
        { state with call := .softDrained deadline }
  | abortTasks (state : ShutdownState T) (deadline : Nat)
      (inPhase : state.call = .softDrained deadline) :
      Step worker shutdown state .call
        { state.abortTasks with call := .drainingHandlers deadline }
  /-- The steps of the call on the task set; `abort_all` is followed by the
  computation of `grace_deadline`. -/
  | handlers (state : ShutdownState T) (deadline : Nat) (label : WorkerLabel)
      (target : WorkerState T)
      (inPhase : state.call = .drainingHandlers deadline)
      (taken : WorkerState.Step worker state.worker label target)
      (teardown : label.ofTeardown = true)
      (grace : label = .abortAll → ∃ now graceDeadline,
        shutdown.range.add now (.fromSecs 1) = some graceDeadline) :
      Step worker shutdown state .call { state with worker := target }
  | graceOverflow (state : ShutdownState T) (deadline now : Nat)
      (inPhase : state.call = .drainingHandlers deadline)
      (inTeardown : state.worker.teardown = .sweeping)
      (noneReady : state.worker.NoneReady)
      (remains : ∃ entry ∈ state.worker.entries, entry.joined = false)
      (panics : shutdown.range.add now (.fromSecs 1) = none) :
      Step worker shutdown state .call
        ({ state with worker := state.worker.abortAll }.leave .unwound)
  | handlersDone (state : ShutdownState T) (deadline : Nat)
      (inPhase : state.call = .drainingHandlers deadline)
      (complete : state.worker.teardown = .complete) :
      Step worker shutdown state .call { state with call := .counting }
  | finish (state : ShutdownState T) (pendingRecovery : Nat)
      (inPhase : state.call = .counting) :
      Step worker shutdown state .call
        (state.leave (.returned (state.result pendingRecovery)))

/-- The worker is stopped: its token fired, and each of its two tasks has ended
or is aborted. -/
structure Stopped (state : ShutdownState T) : Prop where
  token : state.token = true
  poll : state.pollAbort = true ∨ state.worker.loop.phase = .exited
  reaper : state.reaperAbort = true ∨ state.reaper.exited = true

end ShutdownState

/-- Whatever the worker was doing, a call that is left has stopped it. -/
def ShutdownCall.StopsWorker {T : Type} (call : ShutdownCall)
    (worker : StartedWorker T) : Prop :=
  ∀ (start finish : ShutdownState T)
    (trace : List (Transition (ShutdownState T) ShutdownLabel)),
    start.call = .entered → start.inner = true →
    Run (ShutdownState.Step worker call) start trace finish →
    ∀ exit, finish.call = .left exit → finish.Stopped

/-! ## What holds at each point of the call -/

section Call

variable {T : Type} {worker : StartedWorker T} {call : ShutdownCall}
  {state target : ShutdownState T} {label : ShutdownLabel}

theorem WorkerState.shutdown_of_step {state target : WorkerState T}
    {label : WorkerLabel} (fired : state.loop.shutdown = true)
    (taken : WorkerState.Step worker state label target) :
    target.loop.shutdown = true := by
  cases taken with
  | poll label loop polled alone unlocked =>
      exact PollState.shutdown_of_step fired polled
  | endTask before entry after progress loop shape advances ends released =>
      exact PollState.shutdown_of_step fired released
  | _ => exact fired

/-- What the call has done by the time it is in a phase. -/
def ShutdownState.OnCourse (state : ShutdownState T) : Prop :=
  match state.call with
  | .entered => state.inner = true
  | .taken | .dated _ => True
  | .softDraining _ | .softDrained _ => state.token = true
  | .drainingHandlers _ | .counting | .left _ =>
      state.token = true ∧ state.pollAbort = true ∧ state.reaperAbort = true

/-- A handle that is dropped leaves alone what was stopped before. -/
theorem ShutdownState.onCourse_leave (exit : ShutdownExit)
    (stopped : state.token = true ∧ state.pollAbort = true ∧
      state.reaperAbort = true) : (state.leave exit).OnCourse := by
  obtain ⟨fired, poll, reaper⟩ := stopped
  cases present : state.inner with
  | true =>
      simp [OnCourse, leave, dropHandle, present, ShutdownState.abortTasks,
        token, fire]
  | false =>
      have kept : state.leave exit = { state with call := .left exit } := by
        simp [leave, dropHandle, present]
      rw [kept]
      exact ⟨fired, poll, reaper⟩

/-- A step beside the call keeps its account. -/
theorem ShutdownState.OnCourse.beside (onCourse : state.OnCourse)
    (sameCall : target.call = state.call) (sameInner : target.inner = state.inner)
    (fired : state.token = true → target.token = true)
    (poll : target.pollAbort = state.pollAbort)
    (reaper : target.reaperAbort = state.reaperAbort) : target.OnCourse := by
  unfold OnCourse at onCourse ⊢
  rw [sameCall, sameInner, poll, reaper]
  cases phase : state.call with
  | entered =>
      rw [phase] at onCourse
      exact onCourse
  | taken => trivial
  | dated deadline => trivial
  | softDraining deadline =>
      rw [phase] at onCourse
      exact fired onCourse
  | softDrained deadline =>
      rw [phase] at onCourse
      exact fired onCourse
  | drainingHandlers deadline =>
      rw [phase] at onCourse
      exact ⟨fired onCourse.1, onCourse.2⟩
  | counting =>
      rw [phase] at onCourse
      exact ⟨fired onCourse.1, onCourse.2⟩
  | left exit =>
      rw [phase] at onCourse
      exact ⟨fired onCourse.1, onCourse.2⟩

/-- When the deadline can be represented the call stays on course. -/
theorem ShutdownState.OnCourse.step (onCourse : state.OnCourse)
    (representable : ∃ deadline, call.deadline = some deadline)
    (taken : ShutdownState.Step worker call state label target) :
    target.OnCourse := by
  have account := onCourse
  unfold OnCourse at account
  cases taken with
  | worker label target taken notTeardown aborted =>
      exact onCourse.beside rfl rfl
        (fun fired => WorkerState.shutdown_of_step fired taken) rfl rfl
  | reaperRound setting running stopped =>
      refine onCourse.beside rfl rfl ?_ rfl rfl
      intro fired
      exact Bool.or_eq_true_iff.mpr (Or.inl fired)
  | reaperEnds told => exact onCourse.beside rfl rfl id rfl rfl
  | take inPhase present => trivial
  | nothingToTake inPhase absent =>
      rw [inPhase] at account
      rw [absent] at account
      cases account
  | date deadline inPhase computed => trivial
  | overflow inPhase panics =>
      obtain ⟨deadline, computed⟩ := representable
      rw [panics] at computed
      cases computed
  | cancel deadline inPhase => exact Bool.or_true _
  | joined deadline inPhase pollExited reaperExited =>
      rw [inPhase] at account
      exact account
  | elapsed deadline inPhase =>
      rw [inPhase] at account
      exact account
  | abortTasks deadline inPhase =>
      rw [inPhase] at account
      exact ⟨account, rfl, rfl⟩
  | handlers deadline label target inPhase taken teardown grace =>
      exact onCourse.beside rfl rfl
        (fun fired => WorkerState.shutdown_of_step fired taken) rfl rfl
  | graceOverflow deadline now inPhase inTeardown noneReady remains panics =>
      rw [inPhase] at account
      exact onCourse_leave .unwound account
  | handlersDone deadline inPhase complete =>
      rw [inPhase] at account
      exact account
  | finish pendingRecovery inPhase =>
      rw [inPhase] at account
      exact onCourse_leave _ account

/-- A state in which `shutdown` is called on a worker that was just started. -/
def StartedWorker.justCalled (worker : StartedWorker T) (jobs : Jobs) :
    ShutdownState T where
  worker := worker.initial
  reaper :=
    { state :=
        { jobs := jobs
          skipNextTick := false
          consecutivePanics := 0
          shutdown := false
          lastFatal := false
          lastPanicEscalation := none
          statements := []
          events := [] }
      exited := false }
  inner := true
  pollAbort := false
  reaperAbort := false
  call := .entered

/-- Without a deadline the call unwinds with nothing left to cancel the
worker. -/
theorem unwinds_of_overflow (worker : StartedWorker T) (jobs : Jobs)
    (panics : call.deadline = none) :
    ∃ trace finish,
      Run (ShutdownState.Step worker call) (worker.justCalled jobs) trace
        finish ∧
      finish.call = .left .unwound ∧ finish.token = false ∧
      finish.inner = false ∧ finish.pollAbort = false ∧
      finish.reaperAbort = false ∧ finish.reaper.exited = false ∧
      finish.worker.loop.phase = .ticking := by
  have begun : Run (ShutdownState.Step worker call) (worker.justCalled jobs) []
      (worker.justCalled jobs) := Run.refl
  have taken := begun.snoc (.take _ rfl rfl)
  exact ⟨_, _, taken.snoc (.overflow _ rfl panics), rfl, rfl, rfl, rfl, rfl,
    rfl, rfl⟩

end Call

/-- `shutdown` stops the worker whatever it was doing exactly when the deadline
can be represented: the sum is computed after the handle has given up its inner
part and before the token is fired. -/
theorem shutdown_stops_worker_iff {T : Type} (worker : StartedWorker T)
    (call : ShutdownCall) :
    call.StopsWorker worker ↔ ∃ deadline, call.deadline = some deadline := by
  constructor
  · intro stops
    cases computed : call.deadline with
    | some deadline => exact ⟨deadline, rfl⟩
    | none =>
        obtain ⟨trace, finish, run, left, unfired, _⟩ :=
          unwinds_of_overflow worker .empty computed
        have stopped := stops _ _ _ rfl rfl run _ left
        rw [stopped.token] at unfired
        cases unfired
  · intro representable start finish trace entered present run exit left
    have initial : start.OnCourse := by
      unfold ShutdownState.OnCourse
      rw [entered]
      exact present
    have onCourse := run.invariant ShutdownState.OnCourse initial
      fun _ _ _ holds taken => holds.step representable taken
    unfold ShutdownState.OnCourse at onCourse
    rw [left] at onCourse
    exact ⟨onCourse.1, Or.inl onCourse.2.1, Or.inl onCourse.2.2⟩

/-! ### Ten microseconds and forever -/

namespace LinuxClock

/-- On Linux an `Instant` counts its seconds in an `i64`. -/
def range : InstantRange := ⟨9223372036854775808 * 1000000000⟩

/-- `Duration::MAX`, by which callers mean that they want to wait forever. -/
def forever : Duration :=
  ⟨18446744073709551615 * 1000000000 + 999999999, by decide⟩

def shortCall : ShutdownCall := ⟨range, 0, .tenMicros⟩

def foreverCall (start : Nat) : ShutdownCall := ⟨range, start, forever⟩

/-- A call on an idle worker, step by step. -/
theorem shortCall_returns :
    ∃ trace finish,
      Run (ShutdownState.Step OneSlot.worker shortCall)
        (OneSlot.worker.justCalled .empty) trace finish ∧
      finish.call = .left (.returned (.ok (.zero, 0))) := by
  have begun : Run (ShutdownState.Step OneSlot.worker shortCall)
      (OneSlot.worker.justCalled .empty) []
      (OneSlot.worker.justCalled .empty) := Run.refl
  have taken := begun.snoc (.take _ rfl rfl)
  have dated := taken.snoc (.date _ 10000 rfl rfl)
  have cancelled := dated.snoc (.cancel _ 10000 rfl)
  have elapsed := cancelled.snoc (.elapsed _ 10000 rfl)
  have aborted := elapsed.snoc (.abortTasks _ 10000 rfl)
  have draining := aborted.snoc (.handlers _ 10000 .drain _ rfl
    (.drain _ rfl (Or.inl rfl) rfl) rfl WorkerLabel.noConfusion)
  have drained := draining.snoc (.handlers _ 10000 .drained _ rfl
    (.drained _ rfl fun _ absent => absurd absent List.not_mem_nil) rfl
    WorkerLabel.noConfusion)
  have sweeping := drained.snoc (.handlers _ 10000 .sweep _ rfl
    (.sweep _ rfl rfl) rfl WorkerLabel.noConfusion)
  have complete := sweeping.snoc (.handlers _ 10000 .nothingLeft _ rfl
    (.nothingLeft _ rfl (by simp [OneSlot.worker, StartedWorker.justCalled,
      StartedWorker.initial, ShutdownState.fire, ShutdownState.abortTasks]))
    rfl WorkerLabel.noConfusion)
  have counting := complete.snoc (.handlersDone _ 10000 rfl rfl)
  exact ⟨_, _, counting.snoc (.finish _ 0 rfl), rfl⟩

end LinuxClock

theorem shutdown_stops_worker_after_tenMicros :
    (∃ trace finish,
      Run (ShutdownState.Step OneSlot.worker LinuxClock.shortCall)
        (OneSlot.worker.justCalled .empty) trace finish ∧
      finish.call = .left (.returned (.ok (.zero, 0)))) ∧
      LinuxClock.shortCall.StopsWorker OneSlot.worker :=
  ⟨LinuxClock.shortCall_returns,
    (shutdown_stops_worker_iff OneSlot.worker _).mpr ⟨10000, rfl⟩⟩

theorem LinuxClock.deadline_foreverCall (start : Nat) :
    (LinuxClock.foreverCall start).deadline = none := by
  have above : ¬ start + LinuxClock.forever.nanos < LinuxClock.range.limit := by
    have nanos : LinuxClock.forever.nanos =
      18446744073709551615 * 1000000000 + 999999999 := rfl
    have limit : LinuxClock.range.limit =
      9223372036854775808 * 1000000000 := rfl
    omega
  rw [ShutdownCall.deadline, InstantRange.add, LinuxClock.foreverCall]
  dsimp only
  rw [if_neg above]

/-- A caller that waits forever leaves the worker running: the call panics, the
token is not fired, no task is aborted, and the handle is empty. -/
theorem shutdown_forever_leaves_worker_running :
    ∃ trace finish,
      Run (ShutdownState.Step OneSlot.worker (LinuxClock.foreverCall 0))
        (OneSlot.worker.justCalled .empty) trace finish ∧
      finish.call = .left .unwound ∧ finish.token = false ∧
      finish.inner = false ∧ finish.pollAbort = false ∧
      finish.reaperAbort = false ∧ finish.reaper.exited = false ∧
      finish.worker.loop.phase = .ticking :=
  unwinds_of_overflow OneSlot.worker .empty (LinuxClock.deadline_foreverCall 0)

end PgWorkQueue
