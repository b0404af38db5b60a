import PgWorkQueue.System.Exclusion

/-!
# No job is finished twice

A handler may run twice for one job, on two replicas even at the same time, since
delivery is at least once.  What does not happen twice is the end of the job: of
all the tasks of the fleet at most one is told that its `mark_done` or
`mark_dead` has moved the row.
-/

namespace PgWorkQueue

open Library.Runs

/-- The marks that end a job. -/
def Mark.finishes : Mark → Bool
  | retry _ _ => false
  | _ => true

/-- The mark of the task has ended its job, as far as the task knows. -/
def Stage.finished : Stage → Bool
  | executed mark result => mark.finishes && result = .affected 1
  | ended (.marked mark answer) =>
      mark.finishes && answer = some (.affected 1)
  | _ => false

/-- The row of the job is terminal, or has been purged. -/
def DbState.Over (db : DbState) (id : Nat) : Prop :=
  id < db.jobs.nextId ∧
    ∀ row, db.jobs.find id = some row → row.status.IsTerminal

section Over

variable {T : Type} {db : DbState} {id : Nat}

theorem DbState.Over.after (ended : db.Over id) (event : Event T) :
    (db.after event).Over id := by
  obtain ⟨drawn, terminal⟩ := ended
  refine ⟨Nat.lt_of_lt_of_le drawn (nextId_le_execute _ _ _), ?_⟩
  intro row found
  cases before : db.jobs.find id with
  | none =>
      rw [absent_step event before drawn] at found
      cases found
  | some old =>
      rcases rowLaw_of_step event before with ⟨new, stored, law⟩ | ⟨gone, _⟩
      · rw [stored] at found
        cases found
        rw [law.frozen (terminal old before)]
        exact terminal old before
      · rw [gone] at found
        cases found

theorem DbState.Over.not_held (ended : db.Over id) (token : Uuid) :
    ¬ HeldUnder db.jobs id token := by
  rintro ⟨row, found, running, _⟩
  exact not_isTerminal_of_running running (ended.2 row found)

/-- A mark that moves its row and ends the job. -/
theorem DbState.over_of_markEvent {job : Job T} {mark : Mark} {now : Int}
    (finishes : mark.finishes = true)
    (moves : (sendMark now job mark db.jobs).2 = .affected 1) :
    HeldUnder db.jobs job.id job.leaseToken ∧
      (db.after (job.markEvent mark now)).Over job.id := by
  have stored : (db.after (job.markEvent mark now)).jobs =
      (sendMark now job mark db.jobs).1 := by
    rw [sendMark_eq]
    rfl
  unfold sendMark at moves stored
  cases outcome : mark.execute db.jobs now job.id job.leaseToken with
  | error failure =>
      rw [outcome] at moves
      cases moves
  | ok reply =>
      obtain ⟨updated, count⟩ := reply
      rw [outcome] at moves stored
      cases moves
      rcases Mark.execute_spec outcome with
        ⟨_, _, none⟩ | ⟨row, found, running, held, _, sequence, _, after, _⟩
      · cases none
      · refine ⟨⟨row, found, running, held⟩, ?_, ?_⟩
        · rw [stored, sequence]
          exact Jobs.lt_nextId_of_find found
        · intro new foundNew
          rw [stored, after] at foundNew
          cases foundNew
          rw [Mark.markedRow_status]
          cases mark with
          | done => exact Or.inl rfl
          | dead reason => exact Or.inr rfl
          | retry reason delay => cases finishes

end Over

/-! ## The jobs that a replica has finished -/

section Finished

variable {T : Type}

/-- The claims under which the replica has finished a job. -/
def WorkerState.finished (state : WorkerState T) : List Lease :=
  (state.entries.filter (·.stage.finished)).map (·.job.lease)

variable {worker : StartedWorker T} {state next : WorkerState T}
  {before after : List (Entry T)} {entry : Entry T} {progress : Progress}

/-- Only the execution of its mark makes a task finish its job. -/
theorem finished_of_advances (advances : entry.Advances worker progress)
    (unsent : progress.stage.isExecuted = false)
    (finished : progress.stage.finished = true) :
    entry.stage.finished = true := by
  cases advances with
  | handled behaviour backoffNext inStage =>
      cases decision : handleJobOf ⟨backoffNext, worker.pollInterval⟩
          worker.panicPolicy entry.job.attempts entry.job.maxAttempts
          behaviour with
      | none =>
          rw [decision] at finished
          cases finished
      | some mark =>
          rw [decision] at finished
          cases finished
  | innerCancelled inStage => cases finished
  | executed mark jobs now inStage => cases unsent
  | settled mark answer answers =>
      simp only [Stage.finished, Bool.and_eq_true, decide_eq_true_eq]
        at finished
      obtain ⟨finishes, rfl⟩ := finished
      generalize inStage : entry.stage = stage at answers
      cases answers with
      | received => simp [Stage.finished, finishes]
  | cancelled requested awaits => cases finished

/-- A step of the worker that touches no table. -/
theorem WorkerState.finished_of_inside {label : WorkerLabel}
    (taken : WorkerState.Step worker state label next)
    (offTable : label.awaitsTable = false) :
    next.finished ⊆ state.finished := by
  intro lease member
  cases taken with
  | spawn permit permits row rows inPhase =>
      simpa [WorkerState.finished, Entry.spawned, Stage.finished] using member
  | task before entry after progress shape advances goesOn => cases offTable
  | endTask before entry after progress loop shape advances ends released =>
      cases offTable
  | executeOrphan before job mark after jobs now shape => cases offTable
  | join before entry after how inPhase shape unjoined hasEnded =>
      rw [WorkerState.finished, shape]
      refine WorkerState.mem_leases_replace ?_ ?_ member
      · rfl
      · exact id
  | abortAll inPhase noneReady remains =>
      simpa [WorkerState.finished, WorkerState.abortAll, List.filter_map,
        Function.comp_def] using member
  | _ => exact member

/-- A step of a task. -/
theorem WorkerState.finished_of_advance {loop : PollState T}
    (shape : state.entries = before ++ entry :: after)
    (forward : progress.stage.finished = true →
      entry.stage.finished = true) :
    ({ state.advance before entry after progress with
        loop := loop } : WorkerState T).finished ⊆ state.finished := by
  intro lease member
  rw [WorkerState.finished, shape]
  refine WorkerState.mem_leases_replace ?_ ?_ member
  · rfl
  · exact forward

end Finished

namespace FleetState

variable {T : Type} {fleet : Fleet T} {state target : FleetState T}
  {label : FleetLabel T} {clock : Int}
  {trace : List (Transition (FleetState T) (FleetLabel T))}

/-- The statement that is executed ends a job under this claim. -/
structure Ends (state : FleetState T) (label : FleetLabel T)
    (target : FleetState T) (lease : Lease) : Prop where
  shown : ∃ event, label.event = some event ∧
    event.statement.shown = some lease
  held : HeldUnder state.db.jobs lease.1 lease.2
  ended : target.db.Over lease.1

/-- A replica has finished what it had finished before, and the job whose mark
was just executed. -/
theorem finished_of_step (taken : Step fleet state label target) (index : Nat) :
    ∀ lease ∈ (target.worker index).finished,
      lease ∈ (state.worker index).finished ∨
        state.Ends label target lease := by
  have ofSet {changed : Nat} {next : WorkerState T}
      (fewer : next.finished ⊆ (state.worker changed).finished) :
      ∀ lease ∈ ((state.setWorker changed next).worker index).finished,
        lease ∈ (state.worker index).finished ∨
          state.Ends label target lease := by
    intro lease member
    by_cases same : index = changed
    · subst same
      rw [worker_setWorker_self] at member
      exact Or.inl (fewer member)
    · rw [worker_setWorker_of_ne next same] at member
      exact Or.inl member
  cases taken with
  | inside index label next taken offTable =>
      exact ofSet (WorkerState.finished_of_inside taken offTable)
  | task index before entry after progress shape advances goesOn unsent =>
      exact ofSet (WorkerState.finished_of_advance shape
        (finished_of_advances advances unsent))
  | endTask index before entry after progress loop shape advances ends
      released =>
      refine ofSet (WorkerState.finished_of_advance shape
        (finished_of_advances advances ?_))
      cases inStage : progress.stage with
      | ended how => rfl
      | _ =>
          rw [inStage] at ends
          cases ends
  | poll index label loop event taken sends admits =>
      exact ofSet fun _ member => member
  | mark changed before entry after mark now shape inStage admits =>
      intro lease member
      by_cases same : index = changed
      · subst same
        rw [worker_send, worker_setWorker_self] at member
        rcases WorkerState.mem_leases_replaced entry member with
          old | ⟨isFinished, rfl⟩
        · rw [WorkerState.finished, shape]
          exact Or.inl old
        · simp only [Entry.after, Progress.ofMark, Stage.finished,
            Bool.and_eq_true, decide_eq_true_eq] at isFinished
          obtain ⟨held, ended⟩ :=
            DbState.over_of_markEvent isFinished.1 isFinished.2
          exact Or.inr ⟨⟨_, rfl, rfl⟩, held, ended⟩
      · rw [worker_send, worker_setWorker_of_ne _ same] at member
        exact Or.inl member
  | markOrphan index before job mark after now shape admits =>
      exact ofSet fun _ member => member
  | reap index now tie lockedElsewhere admits =>
      exact fun _ member => Or.inl member
  | client event ofClient admits => exact fun _ member => Or.inl member

/-- What is finished is over, and finished under one claim. -/
structure FinishedOnce (state : FleetState T) : Prop where
  ended : ∀ index, ∀ lease ∈ (state.worker index).finished,
    state.db.Over lease.1
  once : ∀ index other, ∀ lease ∈ (state.worker index).finished,
    ∀ rival ∈ (state.worker other).finished,
      lease.1 = rival.1 → lease = rival

/-- A job that is over is not ended again. -/
theorem FinishedOnce.not_ends (once : state.FinishedOnce) {index : Nat}
    {lease rival : Lease} (ends : state.Ends label target lease)
    (finished : rival ∈ (state.worker index).finished) :
    lease.1 ≠ rival.1 := by
  intro sameJob
  exact (once.ended index rival finished).not_held lease.2
    (sameJob ▸ ends.held)

theorem Ends.unique {lease rival : Lease}
    (ends : state.Ends label target lease)
    (rivalEnds : state.Ends label target rival) : lease = rival := by
  obtain ⟨event, visible, shows⟩ := ends.shown
  obtain ⟨other, otherVisible, otherShows⟩ := rivalEnds.shown
  rw [visible, Option.some.injEq] at otherVisible
  subst otherVisible
  exact Option.some.inj (shows.symm.trans otherShows)

/-- The end of a job is final. -/
theorem over_of_step (rooted : state.Rooted fleet)
    (taken : Step fleet state label target) {id : Nat}
    (ended : state.db.Over id) : target.db.Over id := by
  cases visible : label.event with
  | none =>
      rw [taken.db_of_inside visible]
      exact ended
  | some event =>
      rw [(rooted.fleetStep taken visible).2]
      exact ended.after event

theorem FinishedOnce.step (once : state.FinishedOnce)
    (rooted : state.Rooted fleet) (taken : Step fleet state label target) :
    target.FinishedOnce where
  ended := by
    intro index lease member
    rcases finished_of_step taken index lease member with old | ends
    · exact over_of_step rooted taken (once.ended index lease old)
    · exact ends.ended
  once := by
    intro index other lease member rival rivalMember sameJob
    rcases finished_of_step taken index lease member with old | ends
    · rcases finished_of_step taken other rival rivalMember with
        rivalOld | rivalEnds
      · exact once.once index other lease old rival rivalOld sameJob
      · exact absurd sameJob.symm (once.not_ends rivalEnds old)
    · rcases finished_of_step taken other rival rivalMember with
        rivalOld | rivalEnds
      · exact absurd sameJob (once.not_ends ends rivalOld)
      · exact ends.unique rivalEnds

theorem finishedOnce_of_run
    (run : Run (Step fleet) (fleet.initial clock) trace state) :
    state.FinishedOnce := by
  refine run.historyInvariant (fun _ state => state.FinishedOnce) ?_ ?_
  · exact ⟨fun _ _ member => absurd member List.not_mem_nil,
      fun _ _ _ member => absurd member List.not_mem_nil⟩
  · intro history source label target earlier once taken
    exact once.step (rooted_of_run earlier) taken

/-- The tasks of a replica that have finished their job. -/
def finishedTasks (state : FleetState T) (index : Nat) : List (Entry T) :=
  (state.worker index).entries.filter (·.stage.finished)

end FleetState

section Completion

variable {T : Type} {fleet : Fleet T} {clock : Int} {state : FleetState T}
  {trace : List (Transition (FleetState T) (FleetLabel T))}

/-- The tasks that were told of the end of their job, on any replicas, are tasks
of different jobs, and none of these jobs is waiting or running any more. -/
theorem no_job_is_finished_twice
    (run : Run (FleetState.Step fleet) (fleet.initial clock) trace state)
    {indices : List Nat} (apart : indices.Nodup) :
    ((indices.flatMap state.finishedTasks).map (·.job.id)).Nodup ∧
      ∀ task ∈ indices.flatMap state.finishedTasks, ∀ row,
        state.db.jobs.find task.job.id = some row →
          row.status.IsTerminal := by
  have once := FleetState.finishedOnce_of_run run
  have leases : (indices.flatMap fun index =>
      (state.worker index).finished).Nodup :=
    (FleetState.distinct_of_run run).nodup_flatMap (·.stage.finished) apart
  have mapped : (indices.flatMap fun index =>
      (state.worker index).finished).map Prod.fst =
        (indices.flatMap state.finishedTasks).map (·.job.id) := by
    simp only [List.map_flatMap, WorkerState.finished, List.map_map]
    rfl
  constructor
  · rw [← mapped]
    refine leases.map_on ?_
    intro lease member rival rivalMember sameJob
    obtain ⟨index, _, inIndex⟩ := List.mem_flatMap.mp member
    obtain ⟨other, _, inOther⟩ := List.mem_flatMap.mp rivalMember
    exact once.once index other lease inIndex rival inOther sameJob
  · intro task member
    obtain ⟨index, _, listed⟩ := List.mem_flatMap.mp member
    exact (once.ended index task.job.lease (List.mem_map_of_mem listed)).2

end Completion

namespace TwoReplicas

/-- Both handlers of `rivals` succeed; the second replica marks first. -/
theorem run_both_marked :
    ∃ trace state,
      Run (FleetState.Step fleet) (fleet.initial 0) trace state ∧
      (state.worker 0).entries.map Entry.stage =
        [.executed .done (.affected 0)] ∧
      (state.worker 1).entries.map Entry.stage =
        [.executed .done (.affected 1)] := by
  obtain ⟨trace, run⟩ := run_rivals
  have second := run.snoc (.task _ 1 [] (Entry.spawned (job 2 ⟨2⟩ 31)) [] _ rfl
    (.handled (.returns (.ok ())) (fun _ => Duration.tenMicros) rfl) rfl rfl)
  have first := second.snoc (.task _ 0 [] (Entry.spawned (job 1 ⟨1⟩ 11)) [] _
    rfl (.handled (.returns (.ok ())) (fun _ => Duration.tenMicros) rfl) rfl
    rfl)
  have done := first.snoc
    (.mark _ 1 [] _ [] .done 22 rfl rfl ⟨by decide, by decide⟩)
  have fenced := done.snoc
    (.mark _ 0 [] _ [] .done 23 rfl rfl ⟨by decide, by decide⟩)
  exact ⟨_, _, fenced, by decide, by decide⟩

end TwoReplicas

theorem no_job_is_finished_twice_by_rivals :
    ∃ trace state,
      Run (FleetState.Step TwoReplicas.fleet) (TwoReplicas.fleet.initial 0)
        trace state ∧
      (state.worker 0).entries.length = 1 ∧
      (state.worker 1).entries.length = 1 ∧
      ((([0, 1] : List Nat).flatMap state.finishedTasks).map
        (·.job.id)).Nodup := by
  obtain ⟨trace, state, run, first, second⟩ := TwoReplicas.run_both_marked
  refine ⟨trace, state, run, ?_, ?_,
    (no_job_is_finished_twice run (by decide)).1⟩
  · simpa using congrArg List.length first
  · simpa using congrArg List.length second

end PgWorkQueue
