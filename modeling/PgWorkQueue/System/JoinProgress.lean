import PgWorkQueue.System.Join

/-!
# `join` is never stuck

The call waits without a timeout, and on its way it takes the lock of the task
set, which the poll loop takes as well.  Once the token has fired there is a way
to the end from every state: the poll loop comes to an await that the token
interrupts, the reaper leaves at its ticker, and after that every handler that
returns lets one more task be joined.
-/

namespace PgWorkQueue

open Library.Runs

/-! ## The poll loop leaves -/

section Leaving

variable {T : Type} {worker : StartedWorker T} {state next : WorkerState T}
  {label : WorkerLabel}

/-- The worker can take steps of its own after which its loop has ended. -/
def WorkerState.CanExit (worker : StartedWorker T) (state : WorkerState T) :
    Prop :=
  ∃ trace finish, Run (WorkerState.Step worker) state trace finish ∧
    (∀ taken ∈ trace, taken.label.IsOwn) ∧ finish.loop.phase = .exited

theorem WorkerState.CanExit.of_step
    (taken : WorkerState.Step worker state label next) (own : label.IsOwn)
    (canExit : next.CanExit worker) : state.CanExit worker := by
  obtain ⟨trace, finish, run, owned, exited⟩ := canExit
  refine ⟨_, finish, (Run.single taken).append run, ?_, exited⟩
  intro other member
  rcases List.mem_append.mp member with first | later
  · rw [List.mem_singleton.mp first]
    exact own
  · exact owned other later

theorem PollLabel.isOwn {label : PollLabel} (notAborted : label ≠ .abort) :
    (WorkerLabel.poll label).IsOwn := by
  refine ⟨rfl, ?_⟩
  intro same
  apply notAborted
  cases same
  rfl

/-- At an await that the token interrupts. -/
theorem WorkerState.canExit_of_selects (fired : state.loop.shutdown = true)
    (selects : state.loop.phase.selects = true) : state.CanExit worker := by
  have taken : WorkerState.Step worker state (.poll .stop) _ :=
    .poll state .stop _ (.stop state.loop fired selects) rfl rfl
  refine ⟨_, _, Run.single taken, ?_, rfl⟩
  intro other member
  rw [List.mem_singleton.mp member]
  exact PollLabel.isOwn (by simp)

theorem WorkerState.canExit_of_ready {permits : List Nat}
    (fired : state.loop.shutdown = true)
    (inPhase : state.loop.phase = .ready permits) : state.CanExit worker := by
  have taken : WorkerState.Step worker state (.poll .snapshot) _ :=
    .poll state .snapshot _ (.snapshot state.loop permits inPhase) rfl rfl
  apply WorkerState.CanExit.of_step taken (PollLabel.isOwn (by simp))
  exact WorkerState.canExit_of_selects fired rfl

/-- The loop takes the free permits it wants, then goes on. -/
theorem WorkerState.canExit_of_gathering {free permits : List Nat}
    (fired : state.loop.shutdown = true)
    (inPhase : state.loop.phase = .gathering permits)
    (available : state.loop.free = free) : state.CanExit worker := by
  induction free generalizing state permits with
  | nil =>
      have taken : WorkerState.Step worker state (.poll .gathered) _ :=
        .poll state .gathered _
          (.gathered state.loop permits inPhase (Or.inr available)) rfl rfl
      apply WorkerState.CanExit.of_step taken (PollLabel.isOwn (by simp))
      exact WorkerState.canExit_of_ready fired rfl
  | cons permit rest inductionHypothesis =>
      by_cases wanted : permits.length < worker.batchSize
      · have taken : WorkerState.Step worker state (.poll .tryAcquire) _ :=
          .poll state .tryAcquire _ (.tryAcquire state.loop permits permit rest
            inPhase wanted available) rfl rfl
        apply WorkerState.CanExit.of_step taken (PollLabel.isOwn (by simp))
        exact inductionHypothesis fired rfl rfl
      · have taken : WorkerState.Step worker state (.poll .gathered) _ :=
          .poll state .gathered _ (.gathered state.loop permits inPhase
            (Or.inl (Nat.le_of_not_lt wanted))) rfl rfl
        apply WorkerState.CanExit.of_step taken (PollLabel.isOwn (by simp))
        exact WorkerState.canExit_of_ready fired rfl

/-- The loop spawns its tasks, which gives the lock back. -/
theorem WorkerState.canExit_of_spawning {permits : List Nat}
    {rows : List (Job T)} (fired : state.loop.shutdown = true)
    (inPhase : state.loop.phase = .spawning permits rows) :
    state.CanExit worker := by
  have finishes (source : WorkerState T) {left : List Nat}
      {jobs : List (Job T)} (stillFired : source.loop.shutdown = true)
      (spawning : source.loop.phase = .spawning left jobs)
      (zipped : left = [] ∨ jobs = []) : source.CanExit worker := by
    have taken : WorkerState.Step worker source (.poll .finishSpawn) _ :=
      .poll source .finishSpawn _
        (.finishSpawn source.loop left jobs spawning zipped) rfl rfl
    apply WorkerState.CanExit.of_step taken (PollLabel.isOwn (by simp))
    exact WorkerState.canExit_of_selects stillFired rfl
  induction rows generalizing state permits with
  | nil => exact finishes state fired inPhase (Or.inr rfl)
  | cons row rows inductionHypothesis =>
      cases permits with
      | nil => exact finishes state fired inPhase (Or.inl rfl)
      | cons permit permits =>
          have taken : WorkerState.Step worker state .spawn _ :=
            .spawn state permit permits row rows inPhase
          apply WorkerState.CanExit.of_step taken ⟨rfl, by simp⟩
          exact inductionHypothesis fired rfl

theorem WorkerState.canExit_of_locking {permits : List Nat}
    {rows : List (Job T)} (fired : state.loop.shutdown = true)
    (unlocked : state.teardown.holdsLock = false)
    (inPhase : state.loop.phase = .locking permits rows) :
    state.CanExit worker := by
  have taken : WorkerState.Step worker state (.poll .lock) _ :=
    .poll state .lock _ (.lock state.loop permits rows inPhase) rfl
      (by rw [unlocked]; rfl)
  apply WorkerState.CanExit.of_step taken (PollLabel.isOwn (by simp))
  exact WorkerState.canExit_of_spawning fired rfl

/-- The loop decodes row after row; a row that does not decode brings it to an
await. -/
theorem WorkerState.canExit_of_decoding {permits : List Nat}
    {raws : List RawClaimedRow} {out : List (Job T)}
    (fired : state.loop.shutdown = true)
    (unlocked : state.teardown.holdsLock = false)
    (inPhase : state.loop.phase = .decoding permits raws out) :
    state.CanExit worker := by
  induction raws generalizing state out with
  | nil =>
      have taken : WorkerState.Step worker state (.poll .finishDecode) _ :=
        .poll state .finishDecode _
          (.finishDecode state.loop permits out inPhase) rfl rfl
      apply WorkerState.CanExit.of_step taken (PollLabel.isOwn (by simp))
      by_cases empty : out.isEmpty = true
      · apply WorkerState.canExit_of_selects
        · rw [PollState.claimSucceeded, if_pos empty]
          exact fired
        · rw [PollState.claimSucceeded, if_pos empty]
          rfl
      · apply WorkerState.canExit_of_locking
        · rw [PollState.claimSucceeded, if_neg empty]
          exact fired
        · exact unlocked
        · rw [PollState.claimSucceeded, if_neg empty]
  | cons raw raws inductionHypothesis =>
      cases decoded : decodeRow worker.codec raw with
      | ok job =>
          have taken : WorkerState.Step worker state (.poll .decode) _ :=
            .poll state .decode _ (.decode state.loop permits raw raws out job
              inPhase decoded) rfl rfl
          apply WorkerState.CanExit.of_step taken (PollLabel.isOwn (by simp))
          exact inductionHypothesis fired unlocked rfl
      | error reason =>
          have taken : WorkerState.Step worker state (.poll .mark) _ :=
            .poll state .mark _ (.mark state.loop permits raw raws out reason
              inPhase decoded) rfl rfl
          apply WorkerState.CanExit.of_step taken (PollLabel.isOwn (by simp))
          exact WorkerState.canExit_of_selects fired rfl

/-- Once the token has fired, the loop can leave from wherever it is. -/
theorem WorkerState.canExit (fired : state.loop.shutdown = true)
    (unlocked : state.teardown.holdsLock = false) :
    state.CanExit worker := by
  by_cases selects : state.loop.phase.selects = true
  · exact WorkerState.canExit_of_selects fired selects
  · cases inPhase : state.loop.phase with
    | gathering permits =>
        exact WorkerState.canExit_of_gathering fired inPhase rfl
    | ready permits => exact WorkerState.canExit_of_ready fired inPhase
    | decoding permits raws out =>
        exact WorkerState.canExit_of_decoding fired unlocked inPhase
    | locking permits rows =>
        exact WorkerState.canExit_of_locking fired unlocked inPhase
    | spawning permits rows =>
        exact WorkerState.canExit_of_spawning fired inPhase
    | exited =>
        refine ⟨[], state, Run.refl, ?_, inPhase⟩
        intro other member
        cases member
    | _ =>
        rw [inPhase] at selects
        exact absurd rfl selects

end Leaving

/-! ## The tasks end -/

section Ending

variable {T : Type} {worker : StartedWorker T} {state : WorkerState T}
  {before after : List (Entry T)} {entry : Entry T}

/-- A task that ends finds its permit and its slot in the loop. -/
theorem WorkerState.Aligned.exists_endTask (aligned : state.Aligned worker)
    (shape : state.entries = before ++ entry :: after)
    (unfinished : entry.stage.unfinished = true) :
    ∃ loop, PollState.Step worker.toWorker state.loop
      (.endTask (before.countP (·.stage.unfinished))) loop := by
  have size := aligned.unfinished
  rw [shape, List.countP_append, List.countP_cons, if_pos unfinished] at size
  have inside : before.countP (·.stage.unfinished) <
      state.loop.tasks.length := by
    omega
  have split : state.loop.tasks =
      state.loop.tasks.take (before.countP (·.stage.unfinished)) ++
        state.loop.tasks.get ⟨_, inside⟩ ::
          state.loop.tasks.drop (before.countP (·.stage.unfinished) + 1) := by
    rw [List.get_eq_getElem, List.getElem_cons_drop, List.take_append_drop]
  have taken : PollState.Step worker.toWorker state.loop _ _ :=
    .endTask state.loop _ _ _ split
  rw [List.length_take, Nat.min_eq_left (Nat.le_of_lt inside)] at taken
  exact ⟨_, taken⟩

/-- The task of the entry can end, and nothing else changes for the call. -/
def WorkerState.CanEnd (worker : StartedWorker T) (state : WorkerState T)
    (before : List (Entry T)) (entry : Entry T) (after : List (Entry T)) :
    Prop :=
  ∃ trace finish how ended, Run (WorkerState.Step worker) state trace finish ∧
    (∀ taken ∈ trace, taken.label.IsOwn) ∧
    finish.loop.phase = state.loop.phase ∧
    finish.teardown = state.teardown ∧ finish.Aligned worker ∧
    finish.entries = before ++ ended :: after ∧
    ended.stage = .ended how ∧ ended.joined = entry.joined

/-- A task that waits for its mark can stop waiting. -/
theorem WorkerState.canEnd_of_answers {mark : Mark}
    {answer : Option MarkResult} (aligned : state.Aligned worker)
    (shape : state.entries = before ++ entry :: after)
    (answers : entry.stage.Answers mark answer) :
    state.CanEnd worker before entry after := by
  obtain ⟨loop, released⟩ := aligned.exists_endTask shape answers.unfinished
  have taken : WorkerState.Step worker state .task _ :=
    .endTask state before entry after _ loop shape
      (.settled mark answer answers) rfl released
  refine ⟨_, _, _, _, Run.single taken, ?_, phase_of_endTask released, rfl,
    aligned.step taken, rfl, rfl, rfl⟩
  intro other member
  rw [List.mem_singleton.mp member]
  exact ⟨rfl, by simp⟩

/-- A handler that still works can return `Ok`. -/
theorem WorkerState.canEnd_of_handling (aligned : state.Aligned worker)
    (shape : state.entries = before ++ entry :: after)
    (inStage : entry.stage = .handling) :
    state.CanEnd worker before entry after := by
  have taken : WorkerState.Step worker state .task _ :=
    .task state before entry after _ shape
      (.handled (.returns (.ok ())) (fun _ => worker.pollInterval) inStage) rfl
  have ends := WorkerState.canEnd_of_answers (aligned.step taken) rfl
    (.elapsedBefore .done)
  obtain ⟨trace, finish, how, ended, run, own, rest⟩ := ends
  refine ⟨_, finish, how, ended, (Run.single taken).append run, ?_, rest⟩
  intro other member
  rcases List.mem_append.mp member with first | later
  · rw [List.mem_singleton.mp first]
    exact ⟨rfl, by simp⟩
  · exact own other later

theorem WorkerState.canEnd (aligned : state.Aligned worker)
    (shape : state.entries = before ++ entry :: after) :
    state.CanEnd worker before entry after := by
  cases inStage : entry.stage with
  | handling => exact WorkerState.canEnd_of_handling aligned shape inStage
  | marking mark =>
      apply WorkerState.canEnd_of_answers aligned shape
      rw [inStage]
      exact .elapsedBefore mark
  | executed mark result =>
      apply WorkerState.canEnd_of_answers aligned shape
      rw [inStage]
      exact .received mark result
  | ended how =>
      refine ⟨[], state, how, entry, Run.refl, ?_, rfl, rfl, aligned, shape,
        inStage, rfl⟩
      intro other member
      cases member

end Ending

/-! ## The call returns -/

namespace JoinState

variable {T : Type} {worker : StartedWorker T} {state : JoinState T}
  {jobs : Jobs} {trace : List (Transition (JoinState T) JoinLabel)}

/-- The call can return from here. -/
def CanReturn (worker : StartedWorker T) (state : JoinState T) : Prop :=
  ∃ trace finish result, Run (Step worker) state trace finish ∧
    finish.call = .left result

theorem CanReturn.of_run {middle : JoinState T}
    (run : Run (Step worker) state trace middle)
    (canReturn : middle.CanReturn worker) : state.CanReturn worker := by
  obtain ⟨later, finish, result, further, left⟩ := canReturn
  exact ⟨_, finish, result, run.append further, left⟩

/-- The tasks that are left are ended and joined one by one. -/
theorem canReturn_of_draining (inPhase : state.call = .drains)
    (locked : state.worker.teardown = .draining)
    (aligned : state.worker.Aligned worker) :
    state.CanReturn worker := by
  generalize left : state.worker.entries.countP (!·.joined) = size
  induction size generalizing state with
  | zero =>
      have empty : ∀ entry ∈ state.worker.entries, entry.joined = true := by
        intro entry member
        have none := List.countP_eq_zero.mp left entry member
        simpa using none
      exact ⟨_, _, _, Run.single (.finish state inPhase locked empty), rfl⟩
  | succ size inductionHypothesis =>
      have some : 0 < state.worker.entries.countP (!·.joined) := by
        omega
      obtain ⟨entry, member, unjoined⟩ := List.countP_pos_iff.mp some
      obtain ⟨before, after, shape⟩ := List.append_of_mem member
      obtain ⟨steps, resting, how, ended, run, own, _, sameTeardown,
        alignedThen, entries, hasEnded, sameJoined⟩ :=
          WorkerState.canEnd aligned shape
      obtain ⟨first, toEnd⟩ := exists_run_of_worker run own rfl
      have stillUnjoined : ended.joined = false := by
        rw [sameJoined]
        simpa using unjoined
      have holds : resting.teardown.holdsLock = true := by
        rw [sameTeardown, locked]
        rfl
      have joins : WorkerState.Step worker resting .join _ :=
        .join resting before ended after how holds entries stillUnjoined
          hasEnded
      have joined : Step worker { state with worker := resting } .call _ :=
        .handlers _ .join _ inPhase joins (Or.inr rfl)
      apply CanReturn.of_run (toEnd.snoc joined)
      apply inductionHypothesis
      · exact inPhase
      · simp only [WorkerState.join, sameTeardown, locked, Teardown.afterJoin]
      · exact alignedThen.step joins
      · rw [shape, List.countP_append, List.countP_cons, if_pos unjoined] at left
        simp only [WorkerState.join, List.countP_append, List.countP_cons,
          Bool.not_true, Bool.false_eq_true, if_false]
        omega

theorem canReturn_of_drains (inPhase : state.call = .drains)
    (onCourse : state.OnCourse) (aligned : state.worker.Aligned worker) :
    state.CanReturn worker := by
  unfold OnCourse at onCourse
  rw [inPhase] at onCourse
  obtain ⟨teardown, exited, _⟩ := onCourse
  rcases teardown with serving | draining
  · have unlocked : state.worker.loop.phase.holdsLock = false := by
      rw [exited]
      rfl
    have drain : WorkerState.Step worker state.worker .drain _ :=
      .drain state.worker serving (Or.inr exited) unlocked
    have taken : Step worker state .call _ :=
      .handlers state .drain _ inPhase drain (Or.inl rfl)
    apply CanReturn.of_run (Run.single taken)
    exact canReturn_of_draining inPhase rfl (aligned.step drain)
  · exact canReturn_of_draining inPhase draining aligned

theorem canReturn_of_awaitsReaper (inPhase : state.call = .awaitsReaper)
    (onCourse : state.OnCourse) (fired : state.token = true)
    (aligned : state.worker.Aligned worker) : state.CanReturn worker := by
  have joins (source : JoinState T) (awaits : source.call = .awaitsReaper)
      (account : source.OnCourse) (alignedThen : source.worker.Aligned worker)
      (exited : source.reaper.exited = true) : source.CanReturn worker := by
    have taken : Step worker source .call _ :=
      .reaperJoined source awaits exited
    apply CanReturn.of_run (Run.single taken)
    exact canReturn_of_drains rfl (account.step taken) alignedThen
  by_cases running : state.reaper.exited = false
  · have ends : Step worker state (.reaper none) _ :=
      .reaperEnds state running fired
    apply CanReturn.of_run (Run.single ends)
    exact joins _ inPhase (onCourse.step ends) aligned rfl
  · apply joins state inPhase onCourse aligned
    simpa using running

theorem canReturn_of_awaitsPoll (inPhase : state.call = .awaitsPoll)
    (onCourse : state.OnCourse) (fired : state.token = true)
    (aligned : state.worker.Aligned worker) : state.CanReturn worker := by
  have serving := onCourse
  unfold OnCourse at serving
  rw [inPhase] at serving
  have unlocked : state.worker.teardown.holdsLock = false := by
    rw [serving]
    rfl
  have canExit : state.worker.CanExit worker :=
    WorkerState.canExit fired unlocked
  obtain ⟨steps, resting, workerRun, own, exited⟩ := canExit
  obtain ⟨trace, run⟩ := exists_run_of_worker workerRun own rfl
  have account := run.invariant OnCourse onCourse
    fun _ _ _ holds taken => holds.step taken
  have stillFired := workerRun.invariant (·.loop.shutdown = true) fired
    fun _ _ _ holds taken => WorkerState.shutdown_of_step holds taken
  have alignedThen := workerRun.invariant (WorkerState.Aligned worker) aligned
    fun _ _ _ holds taken => holds.step taken
  have joined : Step worker { state with worker := resting } .call _ :=
    .pollJoined _ inPhase exited
  apply CanReturn.of_run (run.snoc joined)
  exact canReturn_of_awaitsReaper rfl (account.step joined) stillFired
    alignedThen

end JoinState

/-- From every state that a call can be in once the token has fired, whatever
the loops and the handlers are doing, the call can still return. -/
theorem join_can_always_return {T : Type} {worker : StartedWorker T}
    {jobs : Jobs} {state : JoinState T}
    {trace : List (Transition (JoinState T) JoinLabel)}
    (run : Run (JoinState.Step worker) (worker.justJoined jobs) trace state)
    (fired : state.token = true) :
    ∃ further finish result,
      Run (JoinState.Step worker) state further finish ∧
        finish.call = .left result := by
  have onCourse := JoinState.onCourse_of_run run
  obtain ⟨_, workerRun⟩ := JoinState.exists_worker_run run
  have aligned := aligned_of_run workerRun
  cases inPhase : state.call with
  | entered =>
      have account := onCourse
      unfold JoinState.OnCourse at account
      rw [inPhase] at account
      have taken : JoinState.Step worker state .call _ :=
        .take state inPhase account.1
      apply JoinState.CanReturn.of_run (Run.single taken)
      exact JoinState.canReturn_of_awaitsPoll rfl (onCourse.step taken) fired
        aligned
  | awaitsPoll =>
      exact JoinState.canReturn_of_awaitsPoll inPhase onCourse fired aligned
  | awaitsReaper =>
      exact JoinState.canReturn_of_awaitsReaper inPhase onCourse fired aligned
  | drains => exact JoinState.canReturn_of_drains inPhase onCourse aligned
  | left result => exact ⟨[], state, result, Run.refl, inPhase⟩

/-- The token fires while a handler works. -/
theorem join_can_always_return_on_oneSlot :
    ∃ trace state further finish result,
      Run (JoinState.Step OneSlot.worker)
        (OneSlot.worker.justJoined OneSlot.pushed) trace state ∧
      state.worker.entries = [Entry.spawned (OneSlot.job 1 ⟨7⟩ 1)] ∧
      Run (JoinState.Step OneSlot.worker) state further finish ∧
      finish.call = .left result := by
  obtain ⟨trace, state, run, fired, _, _, _, _, _, _, working⟩ :=
    OneSlot.firedAtWork
  obtain ⟨further, finish, result, rest, left⟩ :=
    join_can_always_return run fired
  exact ⟨trace, state, further, finish, result, run, working, rest, left⟩

end PgWorkQueue
