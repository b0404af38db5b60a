import PgWorkQueue.Library.Streak
import PgWorkQueue.System.KeyLimits
import PgWorkQueue.System.Shutdown

/-!
# `WorkerHandle::join`

The call waits for the end of the poll loop, then for the end of the reaper,
then for every handler task, and reports what made the loops end.  It has no
timeout and aborts nothing.  As in `Shutdown`, the worker takes its own steps
beside the call.

What the call reports is read off the run: the outcomes of the claims and those
of the reaper's ticks.
-/

namespace PgWorkQueue

open Library.Runs Library.Streak

/-! ## The call beside the worker -/

/-- Where a call of `join` is. -/
inductive JoinPhase where
  | entered
  | awaitsPoll
  | awaitsReaper
  /-- In `drain_handlers`. -/
  | drains
  | left (result : Except ShutdownError Unit)

/-- A started worker with its reaper, and a call of `join` on its handle. -/
structure JoinState (T : Type) where
  worker : WorkerState T
  reaper : ReaperTask
  inner : Bool
  call : JoinPhase

inductive JoinLabel where
  | worker (label : WorkerLabel)
  /-- A round of `reaper_loop` with its outcome, or the end of the loop at its
  ticker. -/
  | reaper (outcome : Option TickOutcome)
  | call

/-- The token after a write of `fired`; nothing unfires it. -/
def WorkerState.fire {T : Type} (state : WorkerState T) (fired : Bool) :
    WorkerState T :=
  { state with
    loop := { state.loop with shutdown := state.loop.shutdown || fired } }

/-- A step of the worker that neither takes the task set down nor is an
abort. -/
def WorkerLabel.IsOwn (label : WorkerLabel) : Prop :=
  label.ofTeardown = false ∧ label ≠ .poll .abort

/-- A worker that was just started, and a call of `join` on its handle. -/
def StartedWorker.justJoined {T : Type} (worker : StartedWorker T)
    (jobs : Jobs) : JoinState T where
  worker := worker.initial
  reaper := (worker.justCalled jobs).reaper
  inner := true
  call := .entered

namespace JoinState

variable {T : Type}

def token (state : JoinState T) : Bool :=
  state.worker.loop.shutdown

/-- One round of `reaper_loop`, which may fire the token. -/
def reap (state : JoinState T) (worker : StartedWorker T)
    (setting : TickSetting) : JoinState T :=
  let reaper := ReaperTask.after
    (reaperBody worker (fun _ => setting) 0 state.reaper.state)
  { state with
    worker := state.worker.fire reaper.state.shutdown
    reaper := reaper }

/-- What the call returns in the end. -/
def result (state : JoinState T) : Except ShutdownError Unit :=
  if state.worker.loop.lastFatal || state.reaper.state.lastFatal then
    .error .fatal
  else
    match state.reaper.state.lastPanicEscalation with
    | some panics => .error (.reaperPanicEscalation panics)
    | none => .ok ()

/-- The steps of the call and of the worker beside it. -/
inductive Step (worker : StartedWorker T) :
    JoinState T → JoinLabel → JoinState T → Prop
  | worker (state : JoinState T) (label : WorkerLabel)
      (target : WorkerState T)
      (taken : WorkerState.Step worker state.worker label target)
      (own : label.IsOwn) :
      Step worker state (.worker label) { state with worker := target }
  | reaperRound (state : JoinState T) (setting : TickSetting)
      (running : state.reaper.exited = false)
      (stopped : ∀ executed, setting.fate = .stopped executed →
        state.token = true) :
      Step worker state
        (.reaper (some (setting.outcome worker.queue
          state.reaper.state.jobs)))
        (state.reap worker setting)
  /-- The reaper leaves at its ticker when the token has fired. -/
  | reaperEnds (state : JoinState T)
      (running : state.reaper.exited = false)
      (told : state.token = true) :
      Step worker state (.reaper none)
        { state with reaper := { state.reaper with exited := true } }
  | take (state : JoinState T) (inPhase : state.call = .entered)
      (present : state.inner = true) :
      Step worker state .call
        { state with inner := false, call := .awaitsPoll }
  | nothingToTake (state : JoinState T) (inPhase : state.call = .entered)
      (absent : state.inner = false) :
      Step worker state .call { state with call := .left (.ok ()) }
  | pollJoined (state : JoinState T) (inPhase : state.call = .awaitsPoll)
      (exited : state.worker.loop.phase = .exited) :
      Step worker state .call { state with call := .awaitsReaper }
  | reaperJoined (state : JoinState T)
      (inPhase : state.call = .awaitsReaper)
      (exited : state.reaper.exited = true) :
      Step worker state .call { state with call := .drains }
  /-- `drain_handlers` takes the lock and joins one task after the other. -/
  | handlers (state : JoinState T) (label : WorkerLabel)
      (target : WorkerState T) (inPhase : state.call = .drains)
      (taken : WorkerState.Step worker state.worker label target)
      (drains : label = .drain ∨ label = .join) :
      Step worker state .call { state with worker := target }
  | finish (state : JoinState T) (inPhase : state.call = .drains)
      (locked : state.worker.teardown = .draining)
      (empty : ∀ entry ∈ state.worker.entries, entry.joined = true) :
      Step worker state .call
        { state with
          worker := { state.worker with teardown := .drained }
          call := .left state.result }

end JoinState

/-! ## The worker beside the call -/

section Beside

variable {T : Type} {worker : StartedWorker T} {state target : WorkerState T}
  {label : WorkerLabel}

theorem WorkerState.teardown_of_step
    (taken : WorkerState.Step worker state label target)
    (notTeardown : label.ofTeardown = false) :
    target.teardown = state.teardown := by
  cases taken with
  | poll => rfl
  | spawn => rfl
  | task => rfl
  | endTask => rfl
  | executeOrphan => rfl
  | _ => cases notTeardown

theorem WorkerState.exited_of_step (exited : state.loop.phase = .exited)
    (taken : WorkerState.Step worker state label target) :
    target.loop.phase = .exited := by
  cases taken with
  | poll label loop polled alone unlocked =>
      exact PollState.exited_of_step exited polled
  | spawn permit permits row rows inPhase =>
      rw [exited] at inPhase
      cases inPhase
  | endTask before entry after progress loop shape advances ends released =>
      exact PollState.exited_of_step exited released
  | _ => exact exited

/-- Once the loop has ended, the tasks that are joined stay all the tasks. -/
theorem WorkerState.allJoined_of_step (exited : state.loop.phase = .exited)
    (joined : ∀ entry ∈ state.entries, entry.joined = true)
    (taken : WorkerState.Step worker state label target) :
    ∀ entry ∈ target.entries, entry.joined = true := by
  cases taken with
  | spawn permit permits row rows inPhase =>
      rw [exited] at inPhase
      cases inPhase
  | task before entry after progress shape advances goesOn =>
      rw [shape] at joined
      exact forall_replace joined (joined entry (by simp))
  | endTask before entry after progress loop shape advances ends released =>
      rw [shape] at joined
      exact forall_replace joined (joined entry (by simp))
  | join before entry after how inPhase shape unjoined hasEnded =>
      rw [shape] at joined
      exact forall_replace joined rfl
  | abortAll inPhase noneReady remains =>
      intro entry member
      obtain ⟨old, listed, rfl⟩ := List.mem_map.mp member
      exact joined old listed
  | _ => exact joined

/-- A run of the worker is a run of its loop. -/
theorem WorkerState.exists_loop_run
    {trace : List (Transition (WorkerState T) WorkerLabel)}
    (run : Run (WorkerState.Step worker) worker.initial trace state) :
    ∃ image, Run (PollState.Step worker.toWorker) worker.toWorker.initial
      image state.loop := by
  apply run.exists_image WorkerState.loop
  intro history source label target earlier taken
  cases taken with
  | poll label loop polled alone unlocked => exact Or.inr ⟨label, polled⟩
  | spawn permit permits row rows inPhase =>
      exact Or.inr ⟨.spawn, .spawn source.loop permit permits row rows inPhase⟩
  | endTask before entry after progress loop shape advances ends released =>
      exact Or.inr ⟨_, released⟩
  | _ => exact Or.inl rfl

end Beside

namespace JoinState

section Projection

variable {T : Type} {worker : StartedWorker T} {state target : JoinState T}
  {label : JoinLabel} {jobs : Jobs}
  {trace : List (Transition (JoinState T) JoinLabel)}

/-- The token fires, or the worker is left alone. -/
theorem worker_of_fire (worker : StartedWorker T) (state : WorkerState T)
    (fired : Bool) :
    state.fire fired = state ∨
      WorkerState.Step worker state (.poll .cancel) (state.fire fired) := by
  cases fired with
  | false =>
      left
      unfold WorkerState.fire
      rw [Bool.or_false]
  | true =>
      right
      unfold WorkerState.fire
      rw [Bool.or_true]
      exact .poll state .cancel _ (.cancel state.loop) rfl rfl

theorem worker_of_step (taken : Step worker state label target) :
    target.worker = state.worker ∨
      ∃ seen, WorkerState.Step worker state.worker seen target.worker := by
  cases taken with
  | worker label next taken own =>
      exact Or.inr ⟨label, taken⟩
  | reaperRound setting running stopped =>
      rcases worker_of_fire worker state.worker _ with same | fired
      · exact Or.inl same
      · exact Or.inr ⟨_, fired⟩
  | handlers label next inPhase taken drains => exact Or.inr ⟨label, taken⟩
  | finish inPhase locked empty =>
      exact Or.inr ⟨.drained,
        .drained state.worker locked (WorkerState.noneReady_of_joined empty)⟩
  | _ => exact Or.inl rfl

theorem exists_worker_run
    (run : Run (Step worker) (worker.justJoined jobs) trace state) :
    ∃ image, Run (WorkerState.Step worker) worker.initial image
      state.worker :=
  run.exists_image JoinState.worker
    fun _ _ _ _ _ taken => worker_of_step taken

/-- What the worker does on its own, it may do beside the call. -/
theorem exists_run_of_worker {start finish : WorkerState T}
    {steps : List (Transition (WorkerState T) WorkerLabel)}
    (workerRun : Run (WorkerState.Step worker) start steps finish)
    (own : ∀ taken ∈ steps, taken.label.IsOwn)
    (atStart : state.worker = start) :
    ∃ trace, Run (Step worker) state trace
      { state with worker := finish } := by
  induction workerRun with
  | refl =>
      subst atStart
      exact ⟨[], Run.refl⟩
  | @snoc steps middle finish label earlier taken inductionHypothesis =>
      have before := inductionHypothesis fun other member =>
        own other (List.mem_append_left _ member)
      obtain ⟨trace, run⟩ := before
      have last := own _ (List.mem_append_right _ List.mem_cons_self)
      exact ⟨_, run.snoc (.worker _ label finish taken last)⟩

end Projection

/-! ## What has ended at each point of the call -/

/-- The loop has ended and every task was joined. -/
structure WorkerDone {T : Type} (state : WorkerState T) : Prop where
  exited : state.loop.phase = .exited
  joined : ∀ entry ∈ state.entries, entry.joined = true

/-- What the call knows by the time it is in a phase. -/
def OnCourse {T : Type} (state : JoinState T) : Prop :=
  match state.call with
  | .entered => state.inner = true ∧ state.worker.teardown = .serving
  | .awaitsPoll => state.worker.teardown = .serving
  | .awaitsReaper =>
      state.worker.teardown = .serving ∧ state.worker.loop.phase = .exited
  | .drains =>
      (state.worker.teardown = .serving ∨
        state.worker.teardown = .draining) ∧
      state.worker.loop.phase = .exited ∧ state.reaper.exited = true
  | .left _ => WorkerDone state.worker ∧ state.reaper.exited = true

section Course

variable {T : Type} {worker : StartedWorker T} {state target : JoinState T}
  {label : JoinLabel} {jobs : Jobs}
  {trace : List (Transition (JoinState T) JoinLabel)}

theorem WorkerDone.step {state target : WorkerState T} {label : WorkerLabel}
    (done : WorkerDone state)
    (taken : WorkerState.Step worker state label target) :
    WorkerDone target :=
  ⟨WorkerState.exited_of_step done.exited taken,
    WorkerState.allJoined_of_step done.exited done.joined taken⟩

/-- A step beside the call keeps its account. -/
theorem OnCourse.beside (onCourse : state.OnCourse)
    (sameCall : target.call = state.call)
    (sameInner : target.inner = state.inner)
    (teardown : target.worker.teardown = state.worker.teardown)
    (exited : state.worker.loop.phase = .exited →
      target.worker.loop.phase = .exited)
    (done : WorkerDone state.worker → WorkerDone target.worker)
    (reaper : state.reaper.exited = true → target.reaper.exited = true) :
    target.OnCourse := by
  unfold OnCourse at onCourse ⊢
  rw [sameCall, sameInner, teardown]
  cases phase : state.call with
  | entered =>
      rw [phase] at onCourse
      exact onCourse
  | awaitsPoll =>
      rw [phase] at onCourse
      exact onCourse
  | awaitsReaper =>
      rw [phase] at onCourse
      exact ⟨onCourse.1, exited onCourse.2⟩
  | drains =>
      rw [phase] at onCourse
      exact ⟨onCourse.1, exited onCourse.2.1, reaper onCourse.2.2⟩
  | left result =>
      rw [phase] at onCourse
      exact ⟨done onCourse.1, reaper onCourse.2⟩

theorem OnCourse.step (onCourse : state.OnCourse)
    (taken : Step worker state label target) : target.OnCourse := by
  have account := onCourse
  unfold OnCourse at account
  cases taken with
  | worker label next taken own =>
      refine onCourse.beside rfl rfl ?_ ?_ ?_ id
      · exact WorkerState.teardown_of_step taken own.1
      · exact fun exited => WorkerState.exited_of_step exited taken
      · exact fun done => done.step taken
  | reaperRound setting running stopped =>
      refine onCourse.beside rfl rfl rfl id ?_ ?_
      · exact fun done => ⟨done.exited, done.joined⟩
      · intro exited
        rw [running] at exited
        cases exited
  | reaperEnds running told =>
      exact onCourse.beside rfl rfl rfl id id fun _ => rfl
  | take inPhase present =>
      rw [inPhase] at account
      exact account.2
  | nothingToTake inPhase absent =>
      rw [inPhase, absent] at account
      cases account.1
  | pollJoined inPhase exited =>
      rw [inPhase] at account
      exact ⟨account, exited⟩
  | reaperJoined inPhase exited =>
      rw [inPhase] at account
      exact ⟨Or.inl account.1, account.2, exited⟩
  | handlers label next inPhase taken drains =>
      rw [inPhase] at account
      unfold OnCourse
      rw [inPhase]
      refine ⟨?_, WorkerState.exited_of_step account.2.1 taken, account.2.2⟩
      rcases drains with rfl | rfl
      · cases taken
        exact Or.inr rfl
      · cases taken with
        | join before entry after how inTeardown shape unjoined hasEnded =>
            rcases account.1 with serving | draining
            · rw [serving] at inTeardown
              cases inTeardown
            · right
              simp only [WorkerState.join, draining, Teardown.afterJoin]
  | finish inPhase locked empty =>
      rw [inPhase] at account
      exact ⟨⟨account.2.1, empty⟩, account.2.2⟩

theorem onCourse_of_run
    (run : Run (Step worker) (worker.justJoined jobs) trace state) :
    state.OnCourse := by
  apply run.invariant OnCourse
  · exact ⟨rfl, rfl⟩
  · intro source label target onCourse taken
    exact onCourse.step taken

end Course

end JoinState

/-! ## A worker that has come to rest -/

/-- Nothing of the worker is left: its loop and its tasks have ended, all permits
and slots are back, and of its steps only statements that nobody waits for may
still follow. -/
structure WorkerState.AtRest {T : Type} (worker : StartedWorker T)
    (state : WorkerState T) : Prop where
  exited : state.loop.phase = .exited
  ended : ∀ entry ∈ state.entries,
    entry.joined = true ∧ entry.stage.unfinished = false
  permits : state.loop.free.Perm (List.range worker.concurrency)
  slots : ∀ key limit, worker.concurrencyLimits.lookup key = some limit →
    state.loop.running.lookup key = some 0
  silent : ∀ label target, WorkerState.Step worker state label target →
    label.ofTeardown = true ∨ label = .executeOrphan ∨
      label = .poll .cancel ∨
      ∃ orphan, label = .poll orphan ∧ orphan.ofOrphan = true

section AtRest

variable {T : Type} {worker : StartedWorker T} {state : WorkerState T}
  {trace : List (Transition (WorkerState T) WorkerLabel)}

/-- A loop that has ended takes no step of its own any more. -/
theorem PollState.silent_of_exited {state target : PollState T}
    {label : PollLabel} (exited : state.phase = .exited)
    (taken : PollState.Step worker.toWorker state label target)
    (alone : label.involvesTask = false) :
    label = .cancel ∨ label.ofOrphan = true := by
  cases taken with
  | cancel => exact Or.inl rfl
  | executeOrphan | executeOrphanMark | loseOrphanMark => exact Or.inr rfl
  | endTask before after task shape => cases alone
  | stop fired inPhase =>
      rw [exited] at inPhase
      cases inPhase
  | abort inPhase =>
      rw [exited] at inPhase
      cases inPhase
  | refuse permits headroom fatal inPhase =>
      rw [exited] at inPhase
      rcases inPhase with inPhase | inPhase
      · cases inPhase
      · cases inPhase
  | refuseMark permits raw raws out inPhase =>
      rw [exited] at inPhase
      rcases inPhase with inPhase | inPhase
      · cases inPhase
      · cases inPhase
  | tick inPhase | acquire _ _ inPhase | tryAcquire _ _ _ inPhase
  | gathered _ inPhase | snapshot _ inPhase | send _ _ inPhase
  | execute _ _ _ inPhase | receive _ _ inPhase | receiveError _ _ _ inPhase
  | loseReply _ _ _ inPhase | decode _ _ _ _ _ inPhase
  | mark _ _ _ _ _ inPhase | sendMark _ _ _ _ inPhase
  | executeMark _ _ _ _ inPhase | marked _ _ _ inPhase
  | finishDecode _ _ inPhase | lock _ _ inPhase | spawn _ _ _ _ inPhase
  | finishSpawn _ _ inPhase =>
      rw [exited] at inPhase
      cases inPhase

theorem WorkerState.atRest_of_done
    (run : Run (WorkerState.Step worker) worker.initial trace state)
    (done : JoinState.WorkerDone state) : state.AtRest worker := by
  have aligned := aligned_of_run run
  have fair := fair_of_run run
  obtain ⟨_, loopRun⟩ := WorkerState.exists_loop_run run
  have keys := keysKept_of_run loopRun
  have ended : ∀ entry ∈ state.entries,
      entry.joined = true ∧ entry.stage.unfinished = false := by
    intro entry member
    have joined := done.joined entry member
    exact ⟨joined, (fair.entries entry member).joinedEnded joined⟩
  have noTasks : state.loop.tasks = [] := by
    have none : state.entries.countP (·.stage.unfinished) = 0 := by
      rw [List.countP_eq_zero]
      intro entry member unfinished
      rw [(ended entry member).2] at unfinished
      cases unfinished
    exact List.length_eq_zero_iff.mp (aligned.unfinished.trans none)
  refine ⟨done.exited, ended, ?_, ?_, ?_⟩
  · have conserved := aligned.permits.conserved
    rw [noTasks, done.exited] at conserved
    simpa [Phase.permits] using conserved
  · intro key limit configured
    have counted := keys.counted key limit configured
    rw [noTasks] at counted
    exact counted
  · intro label target taken
    cases taken with
    | poll label loop polled alone unlocked =>
        rcases PollState.silent_of_exited done.exited polled alone with
          rfl | ofOrphan
        · exact Or.inr (Or.inr (Or.inl rfl))
        · exact Or.inr (Or.inr (Or.inr ⟨_, rfl, ofOrphan⟩))
    | spawn permit permits row rows inPhase =>
        rw [done.exited] at inPhase
        cases inPhase
    | task before entry after progress shape advances goesOn =>
        have unfinished := advances.unfinished
        rw [(ended entry (by rw [shape]; simp)).2] at unfinished
        cases unfinished
    | endTask before entry after progress loop shape advances ends released =>
        have unfinished := advances.unfinished
        rw [(ended entry (by rw [shape]; simp)).2] at unfinished
        cases unfinished
    | executeOrphan => exact Or.inr (Or.inl rfl)
    | _ => exact Or.inl rfl

end AtRest

/-- When the call returns, both loops have ended, every handler task has ended
and was joined, every permit and every slot of a key is free, and the worker
starts nothing any more. -/
theorem join_returns_at_rest {T : Type} {worker : StartedWorker T}
    {jobs : Jobs} {finish : JoinState T} {result : Except ShutdownError Unit}
    {trace : List (Transition (JoinState T) JoinLabel)}
    (run : Run (JoinState.Step worker) (worker.justJoined jobs) trace finish)
    (left : finish.call = .left result) :
    finish.worker.AtRest worker ∧ finish.reaper.exited = true := by
  have onCourse := JoinState.onCourse_of_run run
  unfold JoinState.OnCourse at onCourse
  rw [left] at onCourse
  obtain ⟨_, workerRun⟩ := JoinState.exists_worker_run run
  exact ⟨WorkerState.atRest_of_done workerRun onCourse.1, onCourse.2⟩

namespace OneSlot

/-- The worker has spawned the handler of its first job when the token fires. -/
theorem firedAtWork :
    ∃ trace state,
      Run (JoinState.Step worker) (worker.justJoined pushed) trace state ∧
      state.token = true ∧ state.call = .entered ∧ state.inner = true ∧
      state.reaper.exited = false ∧ state.worker.teardown = .serving ∧
      state.worker.loop.phase = .ticking ∧
      state.worker.loop.tasks = [⟨job 1 ⟨7⟩ 1, 0, none⟩] ∧
      state.worker.entries = [Entry.spawned (job 1 ⟨7⟩ 1)] := by
  have answer : worker.toWorker.claimReply 1 ∅ (database pushed 1) =
      .ok [raw 1 ⟨7⟩ 1] := rfl
  have start : Run (WorkerState.Step worker) worker.initial [] worker.initial :=
    Run.refl
  have ticked := start.snoc (.poll _ _ _ (.tick _ rfl) rfl rfl)
  have acquired := ticked.snoc (.poll _ _ _ (.acquire _ 0 [] rfl rfl) rfl rfl)
  have ready := acquired.snoc
    (.poll _ _ _ (.gathered _ [0] rfl (Or.inr rfl)) rfl rfl)
  have claiming := ready.snoc (.poll _ _ _ (.snapshot _ [0] rfl) rfl rfl)
  have sent := claiming.snoc (.poll _ _ _ (.send _ [0] _ rfl) rfl rfl)
  have answered := sent.snoc
    (.poll _ _ _ (.execute _ [0] _ (database pushed 1) rfl) rfl rfl)
  have received := answered.snoc (.poll _ _ _
    (.receive _ [0] [raw 1 ⟨7⟩ 1] (congrArg (Phase.answered [0]) answer))
      rfl rfl)
  have decoding := received.snoc (.poll _ _ _
    (.decode _ [0] (raw 1 ⟨7⟩ 1) [] [] (job 1 ⟨7⟩ 1) rfl rfl) rfl rfl)
  have batch := decoding.snoc
    (.poll _ _ _ (.finishDecode _ [0] [job 1 ⟨7⟩ 1] rfl) rfl rfl)
  have locked := batch.snoc
    (.poll _ _ _ (.lock _ [0] [job 1 ⟨7⟩ 1] rfl) rfl rfl)
  have spawned := locked.snoc (.spawn _ 0 [] (job 1 ⟨7⟩ 1) [] rfl)
  have back := spawned.snoc
    (.poll _ _ _ (.finishSpawn _ [] [] rfl (Or.inl rfl)) rfl rfl)
  have cancelled := back.snoc (.poll _ _ _ (.cancel _) rfl rfl)
  have beside : ∃ trace, Run (JoinState.Step worker)
      (worker.justJoined pushed) trace
      { worker.justJoined pushed with worker := _ } :=
    JoinState.exists_run_of_worker cancelled
      (by simp [WorkerLabel.IsOwn, WorkerLabel.ofTeardown]) rfl
  obtain ⟨trace, run⟩ := beside
  exact ⟨trace, _, run, rfl, rfl, rfl, rfl, rfl, rfl, rfl, rfl⟩

/-- The call waits for the loops, and then for the handler. -/
theorem joinedAtWork :
    ∃ trace finish,
      Run (JoinState.Step worker) (worker.justJoined pushed) trace finish ∧
      finish.call = .left finish.result ∧
      finish.worker.entries.length = 1 := by
  obtain ⟨before, ⟨⟨loop, entries, teardown, stats, orphans, moved⟩, reaper,
    inner, call⟩, run, fired, inPhase, present, running, serving, phase, tasks,
    spawned⟩ := firedAtWork
  dsimp only [JoinState.token]
    at fired inPhase present running serving phase tasks spawned
  subst inPhase present serving spawned
  have selects : loop.phase.selects = true := by
    rw [phase]
    rfl
  have stopped := run.snoc (.worker _ (.poll .stop) _
    (.poll _ _ _ (.stop loop fired selects) rfl rfl) ⟨rfl, by simp⟩)
  have waits := stopped.snoc (.take _ rfl rfl)
  have pollJoined := waits.snoc (.pollJoined _ rfl rfl)
  have reaperEnded := pollJoined.snoc (.reaperEnds _ running fired)
  have reaperJoined := reaperEnded.snoc (.reaperJoined _ rfl rfl)
  have locked := reaperJoined.snoc (.handlers _ .drain _ rfl
    (.drain _ rfl (Or.inr rfl) rfl) (Or.inl rfl))
  have handled := locked.snoc (.worker _ .task _
    (.task _ [] _ [] _ rfl
      (.handled (.returns (.ok ())) (fun _ => Duration.tenMicros) rfl) rfl)
    ⟨rfl, by simp⟩)
  have ended := handled.snoc (.worker _ .task _
    (.endTask _ [] _ [] _ _ rfl (.settled .done none (.elapsedBefore .done)) rfl
      (.endTask _ [] [] _ tasks))
    ⟨rfl, by simp⟩)
  have joined := ended.snoc (.handlers _ .join _ rfl
    (.join _ [] _ [] _ rfl rfl rfl rfl) (Or.inr rfl))
  have finished := joined.snoc
    (.finish _ rfl rfl (by simp [WorkerState.join]))
  exact ⟨_, _, finished, rfl, rfl⟩

end OneSlot

theorem join_returns_at_rest_on_oneSlot :
    ∃ trace finish,
      Run (JoinState.Step OneSlot.worker)
        (OneSlot.worker.justJoined OneSlot.pushed) trace finish ∧
      finish.worker.entries.length = 1 ∧
      finish.worker.AtRest OneSlot.worker := by
  obtain ⟨trace, finish, run, left, handlers⟩ := OneSlot.joinedAtWork
  exact ⟨trace, finish, run, handlers, (join_returns_at_rest run left).1⟩

end PgWorkQueue
