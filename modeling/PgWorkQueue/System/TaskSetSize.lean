import PgWorkQueue.System.Counting
import PgWorkQueue.System.Permits

/-!
# The size of the task set

The unfinished tasks of a worker hold a permit each, so that there are at most
`concurrency` of them.  The task set also keeps the entries of finished tasks
until they are joined.  The loop joins none; `join` and `shutdown` do, once the
worker has been told to stop.  Until then the set has an entry for each row that
the claims have handed to the worker and that decodes.
-/

namespace PgWorkQueue

open Library.Runs

/-- The `JoinSet`: the entries that were not joined. -/
def WorkerState.taskSet {T : Type} (state : WorkerState T) : List (Entry T) :=
  state.entries.filter (!·.joined)

def WorkerLabel.isSpawn : WorkerLabel → Bool
  | spawn => true
  | _ => false

section Accounts

variable {T : Type} {worker : StartedWorker T} {state target : WorkerState T}
  {label : WorkerLabel}
  {trace : List (Transition (WorkerState T) WorkerLabel)}

theorem entries_of_advance {before after : List (Entry T)} {entry : Entry T}
    {progress : Progress} (shape : state.entries = before ++ entry :: after) :
    (state.advance before entry after progress).entries.length =
        state.entries.length ∧
      (state.advance before entry after progress).entries.countP (·.joined) =
        state.entries.countP (·.joined) := by
  rw [shape]
  simp [WorkerState.advance, Entry.after, List.countP_cons]

/-- Each spawn adds an entry to the record, and no other step does. -/
theorem length_entries_of_step
    (taken : WorkerState.Step worker state label target) :
    target.entries.length =
      state.entries.length + (if label.isSpawn then 1 else 0) := by
  cases taken with
  | spawn permit permits row rows inPhase =>
      simp [WorkerLabel.isSpawn]
  | task before entry after progress shape advances goesOn =>
      exact (entries_of_advance shape).1
  | endTask before entry after progress loop shape advances ends released =>
      exact (entries_of_advance shape).1
  | join before entry after how inPhase shape unjoined hasEnded =>
      simp [shape, WorkerState.join, WorkerLabel.isSpawn]
  | abortAll inPhase noneReady remains =>
      simp [WorkerState.abortAll, WorkerLabel.isSpawn]
  | _ => rfl

/-- Every entry that was not joined is in the set. -/
theorem length_taskSet (state : WorkerState T) :
    state.taskSet.length + state.entries.countP (·.joined) =
      state.entries.length := by
  rw [WorkerState.taskSet, ← List.countP_eq_length_filter, Nat.add_comm,
    List.length_eq_countP_add_countP (·.joined)]
  simp

end Accounts

/-! ## The loop and its tasks -/

section Loop

variable {T : Type} {worker : Worker T} {state target : PollState T}
  {label : PollLabel}

theorem PollState.tasks_claimFailed (fatal : Bool) :
    (state.claimFailed fatal).tasks = state.tasks := by
  unfold PollState.claimFailed
  split
  · rfl
  · split <;> rfl

theorem PollState.tasks_claimSucceeded (rows : List (Job T)) :
    (state.claimSucceeded rows).tasks = state.tasks := by
  unfold PollState.claimSucceeded
  split <;> rfl

/-- The loop leaves its tasks alone except when it spawns one. -/
theorem PollState.tasks_of_step
    (taken : PollState.Step worker state label target)
    (alone : label.involvesTask = false) : target.tasks = state.tasks := by
  cases taken with
  | refuse permits headroom fatal inPhase => exact tasks_claimFailed fatal
  | receiveError permits failure fatal inPhase =>
      exact tasks_claimFailed fatal
  | loseReply permits reply fatal inPhase => exact tasks_claimFailed fatal
  | finishDecode permits out inPhase => exact tasks_claimSucceeded out
  | spawn permit permits row rows inPhase => cases alone
  | endTask before after task shape => cases alone
  | _ => rfl

/-- The worker was told to stop, or its loop has ended. -/
def PollState.Stopped (state : PollState T) : Prop :=
  state.shutdown = true ∨ state.phase = .exited

theorem PollState.shutdown_claimFailed (fired : state.shutdown = true)
    (fatal : Bool) : (state.claimFailed fatal).shutdown = true := by
  unfold PollState.claimFailed
  split
  · rfl
  · split
    · rfl
    · exact fired

theorem PollState.shutdown_claimSucceeded (rows : List (Job T)) :
    (state.claimSucceeded rows).shutdown = state.shutdown := by
  unfold PollState.claimSucceeded
  split <;> rfl

/-- The token stays fired. -/
theorem PollState.shutdown_of_step (fired : state.shutdown = true)
    (taken : PollState.Step worker state label target) :
    target.shutdown = true := by
  cases taken with
  | cancel => rfl
  | refuse permits headroom fatal inPhase =>
      exact shutdown_claimFailed fired fatal
  | receiveError permits failure fatal inPhase =>
      exact shutdown_claimFailed fired fatal
  | loseReply permits reply fatal inPhase =>
      exact shutdown_claimFailed fired fatal
  | finishDecode permits out inPhase =>
      rw [shutdown_claimSucceeded]
      exact fired
  | _ => exact fired

/-- A loop that has ended takes no step of its own. -/
theorem PollState.exited_of_step (exited : state.phase = .exited)
    (taken : PollState.Step worker state label target) :
    target.phase = .exited := by
  cases taken <;>
    simp_all [Phase.selects, Phase.awaits, PollState.endTask]

theorem PollState.Stopped.step (stopped : state.Stopped)
    (taken : PollState.Step worker state label target) : target.Stopped := by
  rcases stopped with fired | exited
  · exact Or.inl (shutdown_of_step fired taken)
  · exact Or.inr (exited_of_step exited taken)

end Loop

/-! ## Unfinished tasks hold permits -/

/-- What relates the task set to the loop: the unfinished entries are the
tasks that hold permits, and nothing is joined before the worker stops. -/
structure WorkerState.Aligned {T : Type} (worker : StartedWorker T)
    (state : WorkerState T) : Prop where
  permits : state.loop.PermitsKept worker.toWorker
  unfinished : state.loop.tasks.length =
    state.entries.countP (·.stage.unfinished)
  unjoined : state.loop.Stopped ∨
    state.teardown = .serving ∧ state.entries.countP (·.joined) = 0

section Aligned

variable {T : Type} {worker : StartedWorker T} {state target : WorkerState T}
  {label : WorkerLabel}
  {trace : List (Transition (WorkerState T) WorkerLabel)}

theorem WorkerState.Aligned.stopped (aligned : state.Aligned worker)
    (left : state.teardown ≠ .serving) : state.loop.Stopped := by
  rcases aligned.unjoined with stopped | ⟨serving, _⟩
  · exact stopped
  · exact absurd serving left

/-- A worker that has stopped stays so. -/
theorem stopped_of_step (stopped : state.loop.Stopped)
    (taken : WorkerState.Step worker state label target) :
    target.loop.Stopped := by
  cases taken with
  | poll label loop polled alone unlocked => exact stopped.step polled
  | spawn permit permits row rows inPhase =>
      exact stopped.step (.spawn state.loop permit permits row rows inPhase)
  | endTask before entry after progress loop shape advances ends released =>
      exact stopped.step released
  | _ => exact stopped

theorem WorkerState.Aligned.advance {before after : List (Entry T)}
    {entry : Entry T} {progress : Progress} (aligned : state.Aligned worker)
    (shape : state.entries = before ++ entry :: after) :
    state.loop.Stopped ∨
      (state.advance before entry after progress).teardown = .serving ∧
        (state.advance before entry after progress).entries.countP
          (·.joined) = 0 := by
  rw [(entries_of_advance shape).2]
  exact aligned.unjoined

/-- Once the worker has stopped, its teardown goes on without the loop. -/
theorem WorkerState.Aligned.proceed {next : Teardown} {stats : Stats}
    (aligned : state.Aligned worker) (left : state.teardown ≠ .serving) :
    ({ state with teardown := next, stats := stats } : WorkerState T).Aligned
      worker :=
  ⟨aligned.permits, aligned.unfinished, Or.inl (aligned.stopped left)⟩

theorem length_tasks_of_endTask {loop released : PollState T} {index : Nat}
    (taken : PollState.Step worker.toWorker loop (.endTask index) released) :
    loop.tasks.length = released.tasks.length + 1 := by
  cases taken with
  | endTask before after task shape =>
      simp [shape, PollState.endTask, Nat.add_assoc]

theorem phase_of_endTask {loop released : PollState T} {index : Nat}
    (taken : PollState.Step worker.toWorker loop (.endTask index) released) :
    released.phase = loop.phase := by
  cases taken with
  | endTask before after task shape => rfl

theorem WorkerState.Aligned.step (aligned : state.Aligned worker)
    (taken : WorkerState.Step worker state label target) :
    target.Aligned worker := by
  cases taken with
  | poll label loop polled alone unlocked =>
      refine ⟨aligned.permits.step polled, ?_, ?_⟩
      · rw [PollState.tasks_of_step polled alone]
        exact aligned.unfinished
      · exact aligned.unjoined.imp (fun stopped => stopped.step polled) id
  | spawn permit permits row rows inPhase =>
      refine ⟨aligned.permits.spawn inPhase, ?_, ?_⟩
      · simp [PollState.spawn, aligned.unfinished, Entry.spawned,
          Stage.unfinished]
      · have polled : PollState.Step worker.toWorker state.loop .spawn _ :=
          .spawn state.loop permit permits row rows inPhase
        refine aligned.unjoined.imp (fun stopped => stopped.step polled) ?_
        rintro ⟨serving, none⟩
        simpa [Entry.spawned, serving] using none
  | task before entry after progress shape advances goesOn =>
      refine ⟨aligned.permits, ?_, aligned.advance shape⟩
      have unfinished := aligned.unfinished
      rw [shape] at unfinished
      simpa [WorkerState.advance, Entry.after, goesOn, advances.unfinished]
        using unfinished
  | endTask before entry after progress loop shape advances ends released =>
      refine ⟨aligned.permits.step released, ?_, ?_⟩
      · have unfinished := aligned.unfinished
        rw [shape, length_tasks_of_endTask released] at unfinished
        simp only [List.countP_append, List.countP_cons,
          advances.unfinished, if_pos] at unfinished
        simp only [WorkerState.advance, Entry.after, List.countP_append,
          List.countP_cons, ends, Bool.false_eq_true, if_false]
        omega
      · exact (aligned.advance shape).imp
          (fun stopped => stopped.step released) id
  | executeOrphan before job mark after jobs now shape =>
      exact ⟨aligned.permits, aligned.unfinished, aligned.unjoined⟩
  | drain inPhase stopped lock =>
      exact ⟨aligned.permits, aligned.unfinished, Or.inl stopped⟩
  | join before entry after how inPhase shape unjoined hasEnded =>
      refine ⟨aligned.permits, ?_, ?_⟩
      · have unfinished := aligned.unfinished
        rw [shape] at unfinished
        simpa [WorkerState.join, List.countP_cons] using unfinished
      · refine Or.inl (aligned.stopped ?_)
        intro serving
        rw [serving] at inPhase
        cases inPhase
  | drained inPhase noneReady =>
      exact aligned.proceed (inPhase.trans_ne (by decide))
  | sweep inPhase lock => exact aligned.proceed (inPhase.trans_ne (by decide))
  | nothingLeft inPhase empty =>
      exact aligned.proceed (inPhase.trans_ne (by decide))
  | abortAll inPhase noneReady remains =>
      have stopped := aligned.stopped (inPhase.trans_ne (by decide))
      refine ⟨aligned.permits, ?_, Or.inl stopped⟩
      rw [WorkerState.abortAll, List.countP_map]
      exact aligned.unfinished
  | counted abortedCount inPhase noneReady =>
      exact aligned.proceed (inPhase.trans_ne Teardown.noConfusion)

theorem aligned_of_run
    (run : Run (WorkerState.Step worker) worker.initial trace state) :
    state.Aligned worker := by
  refine run.invariant (WorkerState.Aligned worker) ?_ ?_
  · exact ⟨permitsKept_of_run Run.refl, rfl, Or.inr ⟨rfl, rfl⟩⟩
  · intro source label target aligned taken
    exact aligned.step taken

/-- Permits bound the tasks that are still at work. -/
theorem WorkerState.Aligned.unfinished_le (aligned : state.Aligned worker) :
    state.entries.countP (·.stage.unfinished) ≤ worker.concurrency := by
  have conserved := aligned.permits.conserved.length_eq
  rw [List.length_append, List.length_map, List.length_range,
    aligned.unfinished] at conserved
  omega

end Aligned

/-! ## The rows that a worker is handed -/

section Rows

variable {T : Type}

/-- The rows of a reply that reaches the loop. -/
def handedRows (taken : Transition (WorkerState T) WorkerLabel) :
    List RawClaimedRow :=
  match taken.label with
  | .poll .receive => taken.source.loop.phase.raws
  | _ => []

/-- The rows that a run has handed to the worker and that decode. -/
def decodableRows (worker : StartedWorker T)
    (trace : List (Transition (WorkerState T) WorkerLabel)) :
    List RawClaimedRow :=
  (trace.flatMap handedRows).filter fun raw =>
    (decodeRow worker.codec raw).isOk

/-- The rows of the current claim that the loop has yet to decode. -/
def Phase.undecoded : Phase T → List RawClaimedRow
  | decoding _ raws _ | markExecuted _ raws _ => raws
  | marking _ _ raws _ | markSent _ _ raws _ => raws
  | _ => []

/-- How many tasks the loop is going to spawn for the current claim. -/
def Phase.toSpawn (codec : Codec T) (phase : Phase T) : Nat :=
  phase.jobs.length +
    phase.undecoded.countP fun raw => (decodeRow codec raw).isOk

variable {worker : StartedWorker T}

theorem PollState.toSpawn_claimFailed (state : PollState T) (fatal : Bool) :
    (state.claimFailed fatal).phase.toSpawn worker.codec = 0 := by
  unfold PollState.claimFailed
  split
  · rfl
  · split <;> rfl

theorem PollState.toSpawn_claimSucceeded (state : PollState T)
    (rows : List (Job T)) :
    (state.claimSucceeded rows).phase.toSpawn worker.codec = rows.length := by
  unfold PollState.claimSucceeded
  split
  · rename_i empty
    rw [List.isEmpty_iff.mp empty]
    rfl
  · rfl

/-- A step of the loop that receives no rows and spawns no task leaves it with
the same tasks to spawn, or ends it. -/
theorem PollState.toSpawn_of_step {state target : PollState T}
    {label : PollLabel} (kept : state.PermitsKept worker.toWorker)
    (taken : PollState.Step worker.toWorker state label target)
    (notReceived : label ≠ .receive) (notSpawned : label ≠ .spawn) :
    target.phase.toSpawn worker.codec = state.phase.toSpawn worker.codec ∨
      target.phase = .exited := by
  cases taken with
  | stop | abort => exact Or.inr rfl
  | receive => exact absurd rfl notReceived
  | spawn => exact absurd rfl notSpawned
  | cancel | executeOrphan | executeOrphanMark | loseOrphanMark | endTask =>
      exact Or.inl rfl
  | refuse permits headroom fatal inPhase =>
      rw [toSpawn_claimFailed]
      rcases inPhase with inPhase | inPhase
      · rw [inPhase]
        exact Or.inl rfl
      · rw [inPhase]
        exact Or.inl rfl
  | receiveError permits failure fatal inPhase =>
      rw [toSpawn_claimFailed, inPhase]
      exact Or.inl rfl
  | loseReply permits reply fatal inPhase =>
      rw [toSpawn_claimFailed, inPhase]
      exact Or.inl rfl
  | decode permits raw raws out job inPhase decoded =>
      have counted : (decodeRow worker.codec raw).isOk = true := by
        rw [decoded]
        rfl
      refine Or.inl ?_
      rw [inPhase]
      simp only [Phase.toSpawn, Phase.jobs, Phase.undecoded,
        List.length_append, List.length_singleton, List.countP_cons, counted,
        if_true]
      omega
  | mark permits raw raws out reason inPhase undecodable =>
      have skipped : (decodeRow worker.codec raw).isOk = false := by
        rw [undecodable]
        rfl
      refine Or.inl ?_
      rw [inPhase]
      simp only [Phase.toSpawn, Phase.jobs, Phase.undecoded,
        List.countP_cons, skipped, Bool.false_eq_true, if_false, Nat.add_zero]
  | refuseMark permits raw raws out inPhase =>
      rcases inPhase with inPhase | inPhase
      · rw [inPhase]
        exact Or.inl rfl
      · rw [inPhase]
        exact Or.inl rfl
  | finishDecode permits out inPhase =>
      rw [toSpawn_claimSucceeded, inPhase]
      exact Or.inl rfl
  | finishSpawn permits rows inPhase zipped =>
      rw [inPhase, jobs_eq_nil_of_finishSpawn kept inPhase zipped]
      exact Or.inl rfl
  | tick inPhase | snapshot _ inPhase | send _ _ inPhase
  | execute _ _ _ inPhase | marked _ _ _ inPhase | lock _ _ inPhase
  | acquire _ _ inPhase _ | tryAcquire _ _ _ inPhase _ _
  | gathered _ inPhase _ | sendMark _ _ _ _ inPhase
  | executeMark _ _ _ _ inPhase =>
      rw [inPhase]
      exact Or.inl rfl

end Rows

section Handed

variable {T : Type} {worker : StartedWorker T} {state target : WorkerState T}
  {label : WorkerLabel}
  {trace : List (Transition (WorkerState T) WorkerLabel)}

/-- The tasks a worker has spawned and those its loop is going to spawn. -/
def WorkerState.dealt (worker : StartedWorker T) (state : WorkerState T) :
    Nat :=
  state.entries.length + state.loop.phase.toSpawn worker.codec

/-- The record of a step that hands the worker nothing and leaves its loop
where it is. -/
theorem dealt_unchanged (sameEntries : target.entries.length =
      state.entries.length) (samePhase : target.loop.phase = state.loop.phase) :
    target.dealt worker = state.dealt worker := by
  rw [WorkerState.dealt, WorkerState.dealt, sameEntries, samePhase]

/-- A step of the loop adds what it is handed, or it ends the loop. -/
theorem dealt_of_poll {label : PollLabel} {loop : PollState T}
    (kept : state.loop.PermitsKept worker.toWorker)
    (polled : PollState.Step worker.toWorker state.loop label loop)
    (alone : label.involvesTask = false) :
    WorkerState.dealt worker { state with loop := loop } =
        state.dealt worker + (decodableRows worker
          [⟨state, .poll label, { state with loop := loop }⟩]).length ∨
      loop.phase = .exited := by
  by_cases received : label = .receive
  · subst received
    cases polled with
    | receive permits raws inPhase =>
        refine Or.inl ?_
        simp [WorkerState.dealt, decodableRows, handedRows, inPhase,
          Phase.toSpawn, Phase.jobs, Phase.undecoded, Phase.raws,
          List.countP_eq_length_filter]
  · have notSpawned : label ≠ .spawn := by
      rintro rfl
      cases alone
    have nothing : decodableRows worker
        [⟨state, .poll label, { state with loop := loop }⟩] = [] := by
      cases label with
      | receive => exact absurd rfl received
      | _ => rfl
    refine (PollState.toSpawn_of_step kept polled received notSpawned).imp
      (fun same => ?_) id
    rw [nothing, WorkerState.dealt, same]
    rfl

/-- A step of the worker adds what it is handed, or it ends the loop. -/
theorem dealt_of_step (kept : state.loop.PermitsKept worker.toWorker)
    (taken : WorkerState.Step worker state label target) :
    target.dealt worker = state.dealt worker +
        (decodableRows worker [⟨state, label, target⟩]).length ∨
      target.loop.phase = .exited ∧
        target.dealt worker ≤ state.dealt worker := by
  have record := length_entries_of_step taken
  cases taken with
  | poll label loop polled alone unlocked =>
      refine (dealt_of_poll kept polled alone).imp id fun exited => ?_
      refine ⟨exited, ?_⟩
      simp only [WorkerState.dealt, exited, Phase.toSpawn, Phase.jobs,
        Phase.undecoded, List.length_nil, List.countP_nil]
      omega
  | spawn permit permits row rows inPhase =>
      refine Or.inl ?_
      simp [WorkerState.dealt, decodableRows, handedRows, inPhase,
        PollState.spawn, Phase.toSpawn, Phase.jobs, Phase.undecoded]
      omega
  | endTask before entry after progress loop shape advances ends released =>
      exact Or.inl (dealt_unchanged record (phase_of_endTask released))
  | _ => exact Or.inl (dealt_unchanged record rfl)

/-- A worker that was not told to stop has a task, spawned or to be spawned,
for each row that it was handed and that decodes; a worker told to stop has no
more. -/
theorem dealt_of_run
    (run : Run (WorkerState.Step worker) worker.initial trace state) :
    state.dealt worker ≤ (decodableRows worker trace).length ∧
      (state.loop.Stopped ∨
        state.dealt worker = (decodableRows worker trace).length) := by
  refine run.historyInvariant (fun history state =>
    state.dealt worker ≤ (decodableRows worker history).length ∧
      (state.loop.Stopped ∨
        state.dealt worker = (decodableRows worker history).length))
    ⟨Nat.le_refl 0, Or.inr rfl⟩ ?_
  intro history source label target before ⟨bounded, exact⟩ taken
  have grown : (decodableRows worker
      (history ++ [⟨source, label, target⟩])).length =
      (decodableRows worker history).length +
        (decodableRows worker [⟨source, label, target⟩]).length := by
    rw [decodableRows, List.flatMap_append, List.filter_append,
      List.length_append]
    rfl
  rw [grown]
  rcases dealt_of_step (aligned_of_run before).permits taken with
    added | ⟨exited, fewer⟩
  · rw [added]
    refine ⟨by omega, exact.imp (fun stopped => ?_) fun same => by rw [same]⟩
    exact stopped_of_step stopped taken
  · exact ⟨by omega, Or.inl (Or.inr exited)⟩

/-- The set is within `concurrency` when the worker was handed no more rows
that decode than that.  Between two iterations of a worker that was not told to
stop the converse holds too, however few of the tasks are still at work. -/
theorem taskSet_bounded_iff
    (run : Run (WorkerState.Step worker) worker.initial trace state) :
    ((decodableRows worker trace).length ≤ worker.concurrency →
        state.taskSet.length ≤ worker.concurrency) ∧
      (state.loop.phase = .ticking → ¬ state.loop.Stopped →
        (state.taskSet.length ≤ worker.concurrency ↔
          (decodableRows worker trace).length ≤ worker.concurrency)) ∧
      state.taskSet.countP (·.stage.unfinished) ≤ worker.concurrency := by
  have aligned := aligned_of_run run
  have size := length_taskSet state
  obtain ⟨bounded, exact⟩ := dealt_of_run run
  rw [WorkerState.dealt] at bounded exact
  refine ⟨fun few => by omega, ?_, ?_⟩
  · intro atRest goesOn
    have spawned := exact.resolve_left goesOn
    have unjoined := (aligned.unjoined.resolve_left goesOn).2
    simp only [atRest, Phase.toSpawn, Phase.jobs, Phase.undecoded,
      List.length_nil, List.countP_nil] at spawned
    omega
  · refine le_trans ?_ aligned.unfinished_le
    exact List.filter_sublist.countP_le

end Handed

/-! ### Two rounds of a worker with one permit -/

namespace OneSlot

def marked : Jobs := (execute (T := Unit) claimed 2 (.mark 1 ⟨1⟩ .done)).1

def claimedLater : Jobs := (execute marked 3 claim).1

/-- After its second job the worker is at the top of its loop, told nothing,
with two entries in the set. -/
theorem secondRound :
    ∃ trace state,
      Run (WorkerState.Step worker) worker.initial trace state ∧
      state.loop = worker.toWorker.initial ∧
      state.entries = [finished (job 1 ⟨7⟩ 1), finished (job 2 ⟨8⟩ 3)] := by
  obtain ⟨before, middle, firstRun, atRest, serving, entries, _⟩ := firstRound
  have idle : middle.entries.countP (·.stage.unfinished) = 0 := by
    rw [entries]
    rfl
  have answer : worker.toWorker.claimReply 1 ∅ (database marked 3) =
      .ok [raw 2 ⟨8⟩ 3] := rfl
  have moves : (sendMark (3 + 1) (job 2 ⟨8⟩ 3) .done claimedLater).2 =
      .affected 1 := by decide
  obtain ⟨after, state, secondRun, back, _, more, _⟩ :=
    oneRound atRest serving idle answer rfl rfl moves
  refine ⟨before ++ after, state, firstRun.append secondRun, back, ?_⟩
  rw [more, entries]
  rfl

end OneSlot

theorem taskSet_bounded_on_oneSlot :
    ∃ trace state,
      Run (WorkerState.Step OneSlot.worker) OneSlot.worker.initial trace
        state ∧
      state.taskSet.length = 1 ∧ ¬ state.loop.Stopped ∧
      (decodableRows OneSlot.worker trace).length ≤ 1 := by
  obtain ⟨trace, state, run, atRest, _, entries, _⟩ := OneSlot.firstRound
  have size : state.taskSet.length = 1 := by
    rw [WorkerState.taskSet, entries]
    rfl
  have goesOn : ¬ state.loop.Stopped := by
    rw [atRest]
    rintro (⟨⟨⟩⟩ | ⟨⟨⟩⟩)
  have ticking : state.loop.phase = .ticking := by
    rw [atRest]
    rfl
  obtain ⟨_, exact, _⟩ := taskSet_bounded_iff run
  exact ⟨trace, state, run, size, goesOn, (exact ticking goesOn).mp size.le⟩

theorem taskSet_outgrows_concurrency :
    ∃ trace state,
      Run (WorkerState.Step OneSlot.worker) OneSlot.worker.initial trace
        state ∧
      state.loop = OneSlot.worker.toWorker.initial ∧
      OneSlot.worker.concurrency = 1 ∧ state.taskSet.length = 2 := by
  obtain ⟨trace, state, run, atRest, entries⟩ := OneSlot.secondRound
  refine ⟨trace, state, run, atRest, rfl, ?_⟩
  rw [WorkerState.taskSet, entries]
  rfl

end PgWorkQueue
