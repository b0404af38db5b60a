import Mathlib.Data.Set.Basic
import PgWorkQueue.Library.Lease
import PgWorkQueue.System.MarkOrder
import PgWorkQueue.System.Polling
import PgWorkQueue.System.RetryBudget
import PgWorkQueue.System.TaskSetSize

/-!
# A fleet of replicas over one table

Any number of processes run a started worker each and share one table.  The
parts have their own modules: the table with its statements, the poll loop, the
handler tasks.  Here they are put together.  A step is a step of one replica
that touches no table, or a statement, which the database executes in one step
and whose result the replica that sent it finds when it looks.

Nothing is assumed of the replicas' progress.  A replica that has crashed is one
that takes no further step; what it had sent may still be executed.

A run of the fleet is, for the database, a run of statements in which marks come
from the worker paths only, and for each replica a run of its worker; for the
loop of the worker it is a run beside the table.  What is proved of them carries
over.
-/

namespace PgWorkQueue

open Library.Runs

/-! ## The fleet -/

/-- The workers of a fleet, one for each replica, with what `build` has checked
about them. -/
structure Fleet (T : Type) where
  worker : Nat → StartedWorker T
  maxAttemptsPos : ∀ index, 1 ≤ (worker index).maxAttempts

/-- The values of `max_attempts` in a fleet. -/
def Fleet.budgets {T : Type} (fleet : Fleet T) : Set Nat :=
  Set.range fun index => (fleet.worker index).maxAttempts

/-- The table, and the worker of each replica. -/
structure FleetState (T : Type) where
  db : DbState
  worker : Nat → WorkerState T

/-- The empty table, and every replica just started. -/
def Fleet.initial {T : Type} (fleet : Fleet T) (clock : Int) :
    FleetState T where
  db := .initial clock
  worker := fun index => (fleet.worker index).initial

inductive FleetLabel (T : Type) where
  | inside (index : Nat)
  | statement (event : Event T)

/-- The steps of a worker in which a statement is executed. -/
def WorkerLabel.awaitsTable : WorkerLabel → Bool
  | poll label => label.executes
  | task | executeOrphan => true
  | _ => false

/-- While a statement of the loop is executed, the loop neither spawns nor sees
the end of a task, and takes no lock. -/
theorem Worker.Sends.alone {T : Type} {worker : Worker T} {jobs : Jobs}
    {loop : PollState T} {label : PollLabel} {event : Event T}
    (sends : worker.Sends jobs loop label event) :
    label.involvesTask = false ∧ label.takesLock = false := by
  cases sends with
  | claim => exact ⟨rfl, rfl⟩
  | claimOrphan => exact ⟨rfl, rfl⟩
  | bury => exact ⟨rfl, rfl⟩
  | buryOrphan => exact ⟨rfl, rfl⟩

/-- The mark of the task has been executed. -/
def Stage.isExecuted : Stage → Bool
  | executed _ _ => true
  | _ => false

/-- The mark of a job, executed at `now`. -/
def Job.markEvent {T : Type} (job : Job T) (mark : Mark) (now : Int) :
    Event T where
  now := now
  statement := .mark job.id job.leaseToken mark

def StartedWorker.reapEvent {T : Type} (worker : StartedWorker T) (now : Int)
    (tie : Nat → Nat) (lockedElsewhere : Nat → Bool) : Event T where
  now := now
  statement := .reap worker.queue reaperBatchSize tie lockedElsewhere

/-- What the execution of its mark does to a task. -/
def Progress.ofMark {T : Type} (job : Job T) (mark : Mark) (now : Int)
    (jobs : Jobs) : Progress where
  stage := .executed mark (sendMark now job mark jobs).2
  count := id
  moved := leftRunning jobs (sendMark now job mark jobs).1
  orphan := none

/-- The statements of those who push jobs and purge them. -/
def Statement.ofClient {T : Type} : Statement T → Bool
  | push .. | pushAt .. | pushBatch .. | purge .. => true
  | _ => false

namespace FleetState

variable {T : Type}

def setWorker (state : FleetState T) (index : Nat) (worker : WorkerState T) :
    FleetState T :=
  { state with worker := Function.update state.worker index worker }

def setLoop (state : FleetState T) (index : Nat) (loop : PollState T) :
    FleetState T :=
  state.setWorker index { state.worker index with loop := loop }

/-- The database executes a statement. -/
def send (state : FleetState T) (event : Event T) : FleetState T :=
  { state with db := state.db.after event }

inductive Step (fleet : Fleet T) :
    FleetState T → FleetLabel T → FleetState T → Prop
  | inside (state : FleetState T) (index : Nat) (label : WorkerLabel)
      (target : WorkerState T)
      (taken : WorkerState.Step (fleet.worker index) (state.worker index)
        label target)
      (offTable : label.awaitsTable = false) :
      Step fleet state (.inside index) (state.setWorker index target)
  /-- A task whose mark is not executed by this step goes on, or ends. -/
  | task (state : FleetState T) (index : Nat) (before : List (Entry T))
      (entry : Entry T) (after : List (Entry T)) (progress : Progress)
      (shape : (state.worker index).entries = before ++ entry :: after)
      (advances : entry.Advances (fleet.worker index) progress)
      (goesOn : progress.stage.unfinished = true)
      (unsent : progress.stage.isExecuted = false) :
      Step fleet state (.inside index) (state.setWorker index
        ((state.worker index).advance before entry after progress))
  | endTask (state : FleetState T) (index : Nat) (before : List (Entry T))
      (entry : Entry T) (after : List (Entry T)) (progress : Progress)
      (loop : PollState T)
      (shape : (state.worker index).entries = before ++ entry :: after)
      (advances : entry.Advances (fleet.worker index) progress)
      (ends : progress.stage.unfinished = false)
      (released : PollState.Step (fleet.worker index).toWorker
        (state.worker index).loop
        (.endTask (before.countP (·.stage.unfinished))) loop) :
      Step fleet state (.inside index) (state.setWorker index
        { (state.worker index).advance before entry after progress with
          loop := loop })
  /-- A claim of the poll loop is executed, or the `mark_dead` of a row that
  does not decode. -/
  | poll (state : FleetState T) (index : Nat) (label : PollLabel)
      (loop : PollState T) (event : Event T)
      (taken : PollState.Step (fleet.worker index).toWorker
        (state.worker index).loop label loop)
      (sends : (fleet.worker index).toWorker.Sends state.db.jobs
        (state.worker index).loop label event)
      (admits : state.db.Admits event) :
      Step fleet state (.statement event)
        ((state.setLoop index loop).send event)
  | mark (state : FleetState T) (index : Nat) (before : List (Entry T))
      (entry : Entry T) (after : List (Entry T)) (mark : Mark) (now : Int)
      (shape : (state.worker index).entries = before ++ entry :: after)
      (inStage : entry.stage = .marking mark)
      (admits : state.db.Admits (entry.job.markEvent mark now)) :
      Step fleet state (.statement (entry.job.markEvent mark now))
        ((state.setWorker index ((state.worker index).advance before entry
          after (.ofMark entry.job mark now state.db.jobs))).send
          (entry.job.markEvent mark now))
  | markOrphan (state : FleetState T) (index : Nat)
      (before : List (Job T × Mark)) (job : Job T) (mark : Mark)
      (after : List (Job T × Mark)) (now : Int)
      (shape : (state.worker index).orphans = before ++ (job, mark) :: after)
      (admits : state.db.Admits (job.markEvent mark now)) :
      Step fleet state (.statement (job.markEvent mark now))
        ((state.setWorker index
          { state.worker index with
            orphans := before ++ after
            moved := (state.worker index).moved + leftRunning state.db.jobs
              (sendMark now job mark state.db.jobs).1 }).send
          (job.markEvent mark now))
  /-- A reaper sends its statement.  Its loop may do so at any time. -/
  | reap (state : FleetState T) (index : Nat) (now : Int) (tie : Nat → Nat)
      (lockedElsewhere : Nat → Bool)
      (admits : state.db.Admits ((fleet.worker index).reapEvent now tie
        lockedElsewhere)) :
      Step fleet state
        (.statement ((fleet.worker index).reapEvent now tie lockedElsewhere))
        (state.send ((fleet.worker index).reapEvent now tie lockedElsewhere))
  | client (state : FleetState T) (event : Event T)
      (ofClient : event.statement.ofClient = true)
      (admits : state.db.Admits event) :
      Step fleet state (.statement event) (state.send event)

/-! ## What a step changes -/

section Views

variable {state : FleetState T} {index other : Nat}

@[simp]
theorem worker_setWorker_self (target : WorkerState T) :
    (state.setWorker index target).worker index = target :=
  Function.update_self ..

theorem worker_setWorker_of_ne (target : WorkerState T)
    (differs : other ≠ index) :
    (state.setWorker index target).worker other = state.worker other :=
  Function.update_of_ne differs ..

@[simp]
theorem worker_send (event : Event T) :
    (state.send event).worker = state.worker :=
  rfl

theorem setWorker_send (event : Event T) (target : WorkerState T) :
    (state.send event).setWorker index target =
      (state.setWorker index target).send event :=
  rfl

theorem setWorker_self :
    state.setWorker index (state.worker index) = state := by
  rw [setWorker, Function.update_eq_self]

theorem setWorker_setWorker (middle finish : WorkerState T) :
    (state.setWorker index middle).setWorker index finish =
      state.setWorker index finish := by
  rw [setWorker, setWorker, setWorker, Function.update_idem]

end Views

section Projections

variable {fleet : Fleet T} {state target : FleetState T}
  {label : FleetLabel T} {clock : Int}
  {trace : List (Transition (FleetState T) (FleetLabel T))}

/-- A change of one replica that is a step of its worker. -/
private theorem worker_of_set {index : Nat} {next : WorkerState T}
    {workerLabel : WorkerLabel}
    (taken : WorkerState.Step (fleet.worker index) (state.worker index)
      workerLabel next) (other : Nat) :
    (state.setWorker index next).worker other = state.worker other ∨
      ∃ seen, WorkerState.Step (fleet.worker other) (state.worker other) seen
        ((state.setWorker index next).worker other) := by
  by_cases same : other = index
  · subst same
    rw [worker_setWorker_self]
    exact Or.inr ⟨workerLabel, taken⟩
  · exact Or.inl (worker_setWorker_of_ne next same)

/-- A step of the fleet is for each replica a step of its worker, or none. -/
theorem worker_of_step (taken : Step fleet state label target)
    (other : Nat) :
    target.worker other = state.worker other ∨
      ∃ seen, WorkerState.Step (fleet.worker other) (state.worker other) seen
        (target.worker other) := by
  cases taken with
  | inside index label target taken offTable =>
      exact worker_of_set taken other
  | task index before entry after progress shape advances goesOn unsent =>
      exact worker_of_set
        (.task _ before entry after progress shape advances goesOn) other
  | endTask index before entry after progress loop shape advances ends
      released =>
      exact worker_of_set
        (.endTask _ before entry after progress loop shape advances ends
          released) other
  | poll index label loop event taken sends admits =>
      refine worker_of_set (.poll _ label loop taken sends.alone.1 ?_) other
      rw [sends.alone.2]
      rfl
  | mark index before entry after mark now shape inStage admits =>
      exact worker_of_set (.task _ before entry after _ shape
        (.executed mark state.db.jobs now inStage) rfl) other
  | markOrphan index before job mark after now shape admits =>
      exact worker_of_set
        (.executeOrphan _ before job mark after state.db.jobs now shape) other
  | reap index now tie lockedElsewhere admits => exact Or.inl rfl
  | client event ofClient admits => exact Or.inl rfl

/-- A run of the fleet is for each replica a run of its worker. -/
theorem exists_worker_run
    (run : Run (Step fleet) (fleet.initial clock) trace state)
    (index : Nat) :
    ∃ image, Run (WorkerState.Step (fleet.worker index))
      (fleet.worker index).initial image (state.worker index) :=
  run.exists_image (fun state => state.worker index)
    fun _ _ _ _ _ taken => worker_of_step taken index

/-- The loop of a replica, beside the table of the fleet. -/
def loopState (state : FleetState T) (index : Nat) : LoopState T where
  loop := (state.worker index).loop
  db := state.db

theorem loop_setWorker {index : Nat} {next : WorkerState T}
    (sameLoop : next.loop = (state.worker index).loop) (other : Nat) :
    ((state.setWorker index next).worker other).loop =
      (state.worker other).loop := by
  by_cases same : other = index
  · subst same
    rw [worker_setWorker_self, sameLoop]
  · rw [worker_setWorker_of_ne next same]

/-- A statement that the loop of a replica does not send is to it a statement of
somebody else. -/
private theorem loop_of_other {event : Event T}
    (admits : state.db.Admits event) (other : Nat)
    (sameLoop : (target.worker other).loop = (state.worker other).loop)
    (executed : target.db = state.db.after event) :
    ∃ seen, LoopState.Step (fleet.worker other).toWorker
      (state.loopState other) seen (target.loopState other) := by
  rw [loopState, loopState, sameLoop, executed]
  exact ⟨_, .other ⟨_, _⟩ event admits⟩

/-- A step of a loop that executes nothing. -/
private theorem loop_of_quiet {index : Nat} {next : WorkerState T}
    {pollLabel : PollLabel}
    (taken : PollState.Step (fleet.worker index).toWorker
      (state.worker index).loop pollLabel next.loop)
    (offTable : pollLabel.executes = false) (other : Nat) :
    (state.setWorker index next).loopState other = state.loopState other ∨
      ∃ seen, LoopState.Step (fleet.worker other).toWorker
        (state.loopState other) seen
        ((state.setWorker index next).loopState other) := by
  by_cases same : other = index
  · subst same
    rw [loopState, worker_setWorker_self]
    exact Or.inr ⟨_, .inside _ pollLabel _ taken offTable⟩
  · rw [loopState, worker_setWorker_of_ne next same]
    exact Or.inl rfl

/-- A step of the fleet is for the loop of each replica a step beside the table,
or none. -/
theorem loop_of_step (taken : Step fleet state label target) (other : Nat) :
    target.loopState other = state.loopState other ∨
      ∃ seen, LoopState.Step (fleet.worker other).toWorker
        (state.loopState other) seen (target.loopState other) := by
  have unmoved {index : Nat} {next : WorkerState T}
      (sameLoop : next.loop = (state.worker index).loop) :
      (state.setWorker index next).loopState other =
        state.loopState other := by
    rw [loopState, loop_setWorker sameLoop]
    rfl
  cases taken with
  | inside index label target taken offTable =>
      cases taken with
      | poll pollLabel loop polled alone unlocked =>
          exact loop_of_quiet polled offTable other
      | spawn permit permits row rows inPhase =>
          exact loop_of_quiet (.spawn _ permit permits row rows inPhase) rfl
            other
      | task => cases offTable
      | endTask => cases offTable
      | _ => exact Or.inl (unmoved rfl)
  | task index before entry after progress shape advances goesOn unsent =>
      exact Or.inl (unmoved rfl)
  | endTask index before entry after progress loop shape advances ends
      released =>
      exact loop_of_quiet released rfl other
  | poll index pollLabel loop event taken sends admits =>
      by_cases same : other = index
      · subst same
        rw [loopState, worker_send, setLoop, worker_setWorker_self]
        exact Or.inr ⟨_, .statement _ pollLabel loop event taken sends admits⟩
      · refine Or.inr (loop_of_other admits other ?_ rfl)
        rw [worker_send, setLoop, worker_setWorker_of_ne _ same]
  | mark index before entry after mark now shape inStage admits =>
      exact Or.inr (loop_of_other admits other
        (loop_setWorker (by rfl) other) rfl)
  | markOrphan index before job mark after now shape admits =>
      exact Or.inr (loop_of_other admits other
        (loop_setWorker (by rfl) other) rfl)
  | reap index now tie lockedElsewhere admits =>
      exact Or.inr (loop_of_other admits other rfl rfl)
  | client event ofClient admits =>
      exact Or.inr (loop_of_other admits other rfl rfl)

/-- A run of the fleet is for the loop of each replica a run beside the table:
to the loop, the other replicas are the others. -/
theorem exists_run_beside_table
    (run : Run (Step fleet) (fleet.initial clock) trace state)
    (index : Nat) :
    ∃ image, Run (LoopState.Step (fleet.worker index).toWorker)
      (.initial (fleet.worker index).toWorker (DbState.initial clock)) image
      (state.loopState index) :=
  run.exists_image (fun state => state.loopState index)
    fun _ _ _ _ _ taken => loop_of_step taken index

/-- What a worker does on its own, its replica may do in the fleet. -/
theorem exists_run_of_inside (fleet : Fleet T) {index : Nat}
    {start finish : WorkerState T}
    {steps : List (Transition (WorkerState T) WorkerLabel)}
    (workerRun : Run (WorkerState.Step (fleet.worker index)) start steps finish)
    (offTable : ∀ taken ∈ steps, taken.label.awaitsTable = false)
    (atStart : state.worker index = start) :
    ∃ trace, Run (Step fleet) state trace (state.setWorker index finish) := by
  induction workerRun with
  | refl =>
      rw [← atStart, setWorker_self]
      exact ⟨[], Run.refl⟩
  | @snoc steps middle finish label earlier taken inductionHypothesis =>
      obtain ⟨trace, run⟩ := inductionHypothesis fun other member =>
        offTable other (List.mem_append_left _ member)
      have quiet := offTable _ (List.mem_append_right _ List.mem_cons_self)
      have next : Step fleet (state.setWorker index middle) (.inside index)
          ((state.setWorker index middle).setWorker index finish) := by
        refine .inside _ index label finish ?_ quiet
        rw [worker_setWorker_self]
        exact taken
      rw [setWorker_setWorker] at next
      exact ⟨_, run.snoc next⟩

end Projections

end FleetState

/-! ## Where jobs and marks come from -/

section Roots

variable {T : Type}

/-- A claim handed out the row, which is of the worker's queue. -/
structure DbState.HandedTo (db : DbState) (worker : StartedWorker T)
    (raw : RawClaimedRow) : Prop where
  returned : raw ∈ db.returned
  queue : raw.queue = worker.queue

/-- The job is what the worker made of a row that a claim handed out. -/
def DbState.HandedOut (db : DbState) (worker : StartedWorker T) (job : Job T) :
    Prop :=
  ∃ raw, db.HandedTo worker raw ∧ decodeRow worker.codec raw = .ok job

/-- `handle_job` issues the mark for the job. -/
def StartedWorker.Issues (worker : StartedWorker T) (job : Job T)
    (mark : Mark) : Prop :=
  ∃ config outcome, handleJob config worker.panicPolicy job.attempts
    job.maxAttempts outcome = some mark

/-- The rows and jobs in the hands of the loop come from the database, and the
rows it buries. -/
structure PollState.Rooted (worker : StartedWorker T) (db : DbState)
    (loop : PollState T) : Prop where
  raws : ∀ raw ∈ loop.phase.raws, db.HandedTo worker raw
  jobs : ∀ job ∈ loop.phase.jobs, db.HandedOut worker job
  burials : ∀ raw ∈ loop.burials, db.HandedTo worker raw

/-- Everything a replica works on comes from the database, and every mark it
has sent was issued for its job. -/
structure WorkerState.Rooted (worker : StartedWorker T) (db : DbState)
    (state : WorkerState T) : Prop where
  loop : state.loop.Rooted worker db
  entries : ∀ entry ∈ state.entries, db.HandedOut worker entry.job
  marks : ∀ entry ∈ state.entries, ∀ mark,
    entry.stage.unexecuted = some mark → worker.Issues entry.job mark
  orphans : ∀ sent ∈ state.orphans,
    db.HandedOut worker sent.1 ∧ worker.Issues sent.1 sent.2

variable {worker : StartedWorker T} {db later : DbState}

theorem DbState.HandedTo.mono {raw : RawClaimedRow}
    (grows : ∀ raw ∈ db.returned, raw ∈ later.returned)
    (handedTo : db.HandedTo worker raw) : later.HandedTo worker raw :=
  ⟨grows raw handedTo.returned, handedTo.queue⟩

theorem DbState.HandedOut.mono {job : Job T}
    (grows : ∀ raw ∈ db.returned, raw ∈ later.returned)
    (handedOut : db.HandedOut worker job) : later.HandedOut worker job := by
  obtain ⟨raw, handedTo, decoded⟩ := handedOut
  exact ⟨raw, handedTo.mono grows, decoded⟩

theorem WorkerState.Rooted.mono {state : WorkerState T}
    (grows : ∀ raw ∈ db.returned, raw ∈ later.returned)
    (rooted : state.Rooted worker db) : state.Rooted worker later where
  loop := ⟨fun raw member => (rooted.loop.raws raw member).mono grows,
    fun job member => (rooted.loop.jobs job member).mono grows,
    fun raw member => (rooted.loop.burials raw member).mono grows⟩
  entries := fun entry member => (rooted.entries entry member).mono grows
  marks := rooted.marks
  orphans := fun sent member =>
    ⟨(rooted.orphans sent member).1.mono grows, (rooted.orphans sent member).2⟩

/-- The loop works on what its claims were answered with. -/
theorem PollState.Rooted.of_step {state target : PollState T}
    {label : PollLabel} (rooted : state.Rooted worker db)
    (taken : PollState.Step worker.toWorker state label target)
    (raws : ∀ raw ∈ target.phase.raws, db.HandedTo worker raw) :
    target.Rooted worker db where
  raws := raws
  jobs := by
    intro job member
    rcases jobs_of_step taken member with earlier | ⟨raw, isRaw, decoded⟩
    · exact rooted.jobs job earlier
    · exact ⟨raw, rooted.raws raw isRaw, decoded⟩
  burials := by
    intro raw member
    rcases burials_of_step taken member with earlier | new
    · exact rooted.burials raw earlier
    · exact rooted.raws raw (markedRows_subset _ new)

theorem PollState.Rooted.step {state target : PollState T} {label : PollLabel}
    (rooted : state.Rooted worker db)
    (taken : PollState.Step worker.toWorker state label target)
    (unanswered : ∀ database, label ≠ .execute database) :
    target.Rooted worker db :=
  rooted.of_step taken fun raw member =>
    rooted.raws raw (raws_of_step taken unanswered member)

/-- A task issues the mark for its own job. -/
theorem StartedWorker.issues_of_advances {entry : Entry T}
    {progress : Progress} {mark : Mark}
    (advances : entry.Advances worker progress)
    (issued : progress.stage.unexecuted = some mark) :
    worker.Issues entry.job mark := by
  cases advances with
  | handled behaviour backoffNext inStage =>
      cases decision : handleJobOf ⟨backoffNext, worker.pollInterval⟩
          worker.panicPolicy entry.job.attempts entry.job.maxAttempts
          behaviour with
      | none =>
          rw [decision] at issued
          cases issued
      | some decided =>
          rw [decision] at issued
          cases issued
          obtain ⟨outcome, _, handled⟩ := Option.bind_eq_some_iff.mp decision
          exact ⟨_, outcome, handled⟩
  | innerCancelled inStage => cases issued
  | executed mark jobs now inStage => cases issued
  | settled mark answer answers => cases issued
  | cancelled requested awaits => cases issued

/-- A task stops waiting only for a mark it has issued. -/
theorem Entry.Advances.orphan {entry : Entry T} {progress : Progress}
    {mark : Mark} (advances : entry.Advances worker progress)
    (left : progress.orphan = some mark) :
    entry.stage.unexecuted = some mark := by
  cases advances with
  | handled behaviour backoffNext inStage => cases left
  | innerCancelled inStage => cases left
  | executed mark jobs now inStage => cases left
  | settled mark answer answers => exact left
  | cancelled requested awaits => exact left

section Worker

variable {state target : WorkerState T} {label : WorkerLabel}
  {before after : List (Entry T)} {entry : Entry T} {progress : Progress}

theorem WorkerState.Rooted.advance (rooted : state.Rooted worker db)
    (shape : state.entries = before ++ entry :: after)
    (advances : entry.Advances worker progress) :
    (state.advance before entry after progress).Rooted worker db := by
  have entries := rooted.entries
  have marks := rooted.marks
  rw [shape] at entries marks
  have member : entry ∈ before ++ entry :: after :=
    List.mem_append_right _ List.mem_cons_self
  refine ⟨rooted.loop, forall_replace entries (entries entry member),
    forall_replace marks ?_, ?_⟩
  · intro mark issued
    have own : worker.Issues entry.job mark :=
      StartedWorker.issues_of_advances advances issued
    exact own
  · intro sent isOrphan
    rcases List.mem_append.mp isOrphan with earlier | new
    · exact rooted.orphans sent earlier
    · obtain ⟨mark, left, rfl⟩ := List.mem_map.mp new
      exact ⟨entries entry member, marks entry member mark
        (advances.orphan (Option.mem_toList.mp left))⟩

/-- A step of the worker that touches no table. -/
theorem WorkerState.Rooted.inside (rooted : state.Rooted worker db)
    (taken : WorkerState.Step worker state label target)
    (offTable : label.awaitsTable = false) :
    target.Rooted worker db := by
  cases taken with
  | poll label loop polled alone unlocked =>
      refine ⟨rooted.loop.step polled ?_, rooted.entries, rooted.marks,
        rooted.orphans⟩
      rintro database rfl
      cases offTable
  | spawn permit permits row rows inPhase =>
      have polled : PollState.Step worker.toWorker state.loop .spawn
          _ := .spawn state.loop permit permits row rows inPhase
      have jobs := rooted.loop.jobs
      rw [inPhase] at jobs
      refine ⟨rooted.loop.step polled fun _ => PollLabel.noConfusion, ?_, ?_,
        rooted.orphans⟩
      · intro entry member
        rcases List.mem_append.mp member with earlier | new
        · exact rooted.entries entry earlier
        · rw [List.mem_singleton.mp new]
          exact jobs row List.mem_cons_self
      · intro entry member mark issued
        rcases List.mem_append.mp member with earlier | new
        · exact rooted.marks entry earlier mark issued
        · rw [List.mem_singleton.mp new] at issued
          cases issued
  | task before entry after progress shape advances goesOn => cases offTable
  | endTask before entry after progress loop shape advances ends released =>
      cases offTable
  | executeOrphan before job mark after jobs now shape => cases offTable
  | join before entry after how inPhase shape unjoined hasEnded =>
      have entries := rooted.entries
      have marks := rooted.marks
      rw [shape] at entries marks
      have member : entry ∈ before ++ entry :: after :=
        List.mem_append_right _ List.mem_cons_self
      exact ⟨rooted.loop, forall_replace entries (entries entry member),
        forall_replace marks (marks entry member), rooted.orphans⟩
  | abortAll inPhase noneReady remains =>
      refine ⟨rooted.loop, ?_, ?_, rooted.orphans⟩
      · intro entry member
        obtain ⟨old, stored, rfl⟩ := List.mem_map.mp member
        exact rooted.entries old stored
      · intro entry member mark issued
        obtain ⟨old, stored, rfl⟩ := List.mem_map.mp member
        exact rooted.marks old stored mark issued
  | _ =>
      exact ⟨rooted.loop, rooted.entries, rooted.marks, rooted.orphans⟩

end Worker

end Roots

namespace FleetState

variable {T : Type}

def Rooted (fleet : Fleet T) (state : FleetState T) : Prop :=
  ∀ index, (state.worker index).Rooted (fleet.worker index) state.db

section Runs

variable {fleet : Fleet T} {state target : FleetState T} {index : Nat}
  {next : WorkerState T} {label : FleetLabel T} {clock : Int}
  {trace : List (Transition (FleetState T) (FleetLabel T))}

theorem Rooted.setWorker (rooted : state.Rooted fleet)
    (new : next.Rooted (fleet.worker index) state.db) :
    (state.setWorker index next).Rooted fleet := by
  intro other
  by_cases same : other = index
  · subst same
    rw [worker_setWorker_self]
    exact new
  · rw [worker_setWorker_of_ne next same]
    exact rooted other

theorem Rooted.send (rooted : state.Rooted fleet) (event : Event T) :
    (state.send event).Rooted fleet := fun other =>
  (rooted other).mono fun _ member => List.mem_append_left _ member

/-- The rows of the reply to a claim are on record once it was executed. -/
theorem Rooted.poll (rooted : state.Rooted fleet) {pollLabel : PollLabel}
    {loop : PollState T} {event : Event T}
    (taken : PollState.Step (fleet.worker index).toWorker
      (state.worker index).loop pollLabel loop)
    (sends : (fleet.worker index).toWorker.Sends state.db.jobs
      (state.worker index).loop pollLabel event) :
    ((state.setLoop index loop).send event).Rooted fleet := by
  have later := rooted.send event
  refine later.setWorker ⟨?_, (later index).entries, (later index).marks,
    (later index).orphans⟩
  refine (later index).loop.of_step taken ?_
  intro raw member
  rcases raws_of_sends taken sends member with earlier | claimed
  · exact (later index).loop.raws raw earlier
  · exact ⟨List.mem_append_right _ claimed, sends.queue claimed⟩

theorem Rooted.step (rooted : state.Rooted fleet)
    (taken : Step fleet state label target) : target.Rooted fleet := by
  cases taken with
  | inside index label target taken offTable =>
      exact rooted.setWorker ((rooted index).inside taken offTable)
  | task index before entry after progress shape advances goesOn unsent =>
      exact rooted.setWorker ((rooted index).advance shape advances)
  | endTask index before entry after progress loop shape advances ends
      released =>
      have advanced := (rooted index).advance shape advances
      exact rooted.setWorker ⟨(rooted index).loop.step released
        fun _ => PollLabel.noConfusion, advanced.entries, advanced.marks,
        advanced.orphans⟩
  | poll index label loop event taken sends admits =>
      exact rooted.poll taken sends
  | mark index before entry after mark now shape inStage admits =>
      exact (rooted.setWorker ((rooted index).advance shape
        (.executed mark state.db.jobs now inStage))).send _
  | markOrphan index before job mark after now shape admits =>
      refine (rooted.setWorker ?_).send _
      refine ⟨(rooted index).loop, (rooted index).entries,
        (rooted index).marks, ?_⟩
      intro sent member
      refine (rooted index).orphans sent ?_
      rw [shape]
      rcases List.mem_append.mp member with earlier | later
      · exact List.mem_append_left _ earlier
      · exact List.mem_append_right _ (List.mem_cons_of_mem _ later)
  | reap index now tie lockedElsewhere admits => exact rooted.send _
  | client event ofClient admits => exact rooted.send _

theorem rooted_of_run
    (run : Run (Step fleet) (fleet.initial clock) trace state) :
    state.Rooted fleet := by
  refine run.invariant (Rooted fleet) ?_ ?_
  · intro index
    have loop : ((fleet.initial clock).worker index).loop.Rooted
        (fleet.worker index) (fleet.initial clock).db :=
      ⟨fun _ => nofun, fun _ => nofun, fun _ => nofun⟩
    exact ⟨loop, by simp [Fleet.initial, StartedWorker.initial],
      by simp [Fleet.initial, StartedWorker.initial],
      by simp [Fleet.initial, StartedWorker.initial]⟩
  · intro source label target rooted taken
    exact rooted.step taken

end Runs

end FleetState

/-! ## The statements of a run -/

/-- The statement that a step of the fleet executes. -/
def FleetLabel.event {T : Type} : FleetLabel T → Option (Event T)
  | inside _ => none
  | statement event => some event

/-- What the database sees of a run of the fleet. -/
def statementsOf {T : Type}
    (trace : List (Transition (FleetState T) (FleetLabel T))) :
    List (Transition DbState (Event T)) :=
  trace.filterMap fun taken => taken.label.event.map fun event =>
    ⟨taken.source.db, event, taken.target.db⟩

section Statements

variable {T : Type} {fleet : Fleet T} {state target finish : FleetState T}
  {label : FleetLabel T} {clock : Int} {event : Event T}
  {trace : List (Transition (FleetState T) (FleetLabel T))}

theorem fleetAdmissible_of_admits {db : DbState} (admits : db.Admits event)
    (budget : ∀ params gen lockedElsewhere,
      event.statement = .claim params gen lockedElsewhere →
        params.maxAttempts ∈ fleet.budgets)
    (issued : ∀ id token mark, event.statement = .mark id token mark →
      ∃ raw ∈ db.returned, raw.id = id ∧ raw.leaseToken = token ∧
        WorkerMark raw mark) :
    db.FleetAdmissible fleet.budgets event :=
  ⟨admits.clock, budget, issued, admits.freshTokens⟩

theorem fleetAdmissible_claim {db : DbState} {database : Database}
    {index want : Nat} {headroom : HashMap Nat}
    (admits : db.Admits (database.claimEvent (fleet.worker index).toWorker
      want headroom)) :
    db.FleetAdmissible fleet.budgets
      (database.claimEvent (fleet.worker index).toWorker want headroom) := by
  refine fleetAdmissible_of_admits admits ?_ ?_
  · intro params gen lockedElsewhere isClaim
    cases isClaim
    exact ⟨index, rfl⟩
  · intro id token mark isMark
    cases isMark

/-- A mark that `handle_job` issues is a mark of the worker paths, for the row
the job was made of. -/
theorem DbState.HandedOut.exists_workerMark {db : DbState} {job : Job T}
    {mark : Mark} {worker : StartedWorker T}
    (handedOut : db.HandedOut worker job) (issues : worker.Issues job mark) :
    ∃ raw ∈ db.returned, raw.id = job.id ∧ raw.leaseToken = job.leaseToken ∧
      WorkerMark raw mark := by
  obtain ⟨raw, handedTo, decoded⟩ := handedOut
  obtain ⟨payload, _, rfl⟩ := job_of_decodeRow decoded
  obtain ⟨config, outcome, issued⟩ := issues
  exact ⟨raw, handedTo.returned, rfl, rfl, .handled issued⟩

theorem fleetAdmissible_mark {db : DbState} {job : Job T} {mark : Mark}
    {now : Int} {worker : StartedWorker T}
    (handedOut : db.HandedOut worker job) (issues : worker.Issues job mark)
    (admits : db.Admits (job.markEvent mark now)) :
    db.FleetAdmissible fleet.budgets (job.markEvent mark now) := by
  refine fleetAdmissible_of_admits admits ?_ ?_
  · intro params gen lockedElsewhere isClaim
    cases isClaim
  · intro id token other isMark
    cases isMark
    exact handedOut.exists_workerMark issues

theorem fleetAdmissible_burial {db : DbState} {raw : RawClaimedRow}
    {reason : String} {now : Int} {worker : StartedWorker T}
    (handedTo : db.HandedTo worker raw)
    (refused : decodeRow worker.codec raw = .error reason)
    (admits : db.Admits (raw.burialEvent T reason now)) :
    db.FleetAdmissible fleet.budgets (raw.burialEvent T reason now) := by
  refine fleetAdmissible_of_admits admits ?_ ?_
  · intro params gen lockedElsewhere isClaim
    cases isClaim
  · intro id token mark isMark
    cases isMark
    exact ⟨raw, handedTo.returned, rfl, rfl, .undecodable refused⟩

/-- A step inside a replica leaves the table alone. -/
theorem FleetState.Step.db_of_inside (taken : Step fleet state label target)
    (unseen : label.event = none) : target.db = state.db := by
  cases taken with
  | inside => rfl
  | task => rfl
  | endTask => rfl
  | _ => cases unseen

/-- A step that sends a statement has it executed. -/
theorem FleetState.Step.db_of_statement (taken : Step fleet state label target)
    (visible : label.event = some event) :
    target.db = state.db.after event := by
  cases taken with
  | inside | task | endTask => cases visible
  | _ =>
      cases visible
      rfl

theorem FleetState.Step.clock_le (taken : Step fleet state label target) :
    state.db.clock ≤ target.db.clock := by
  cases taken with
  | inside | task | endTask => exact le_refl _
  | _ => exact DbState.Admits.clock (by assumption)

theorem FleetState.clock_le_of_run (run : Run (Step fleet) state trace finish) :
    state.db.clock ≤ finish.db.clock := by
  apply run.invariant (fun later => state.db.clock ≤ later.db.clock) (le_refl _)
  intro source label target before taken
  exact before.trans taken.clock_le

/-- What a fleet sends, a fleet may send: the marks come from the worker paths,
with the numbers their job was claimed with. -/
theorem FleetState.Rooted.fleetStep (rooted : state.Rooted fleet)
    (taken : Step fleet state label target) (visible : label.event = some event) :
    DbState.FleetStep T fleet.budgets state.db event target.db := by
  cases taken with
  | inside => cases visible
  | task => cases visible
  | endTask => cases visible
  | poll index label loop event taken sends admits =>
      cases visible
      refine ⟨?_, rfl⟩
      cases sends with
      | claim | claimOrphan => exact fleetAdmissible_claim admits
      | bury permits raw raws out reason now inPhase refused =>
          refine fleetAdmissible_burial ((rooted index).loop.burials raw ?_)
            refused admits
          rw [PollState.burials, inPhase]
          exact List.mem_cons_self
      | buryOrphan raw reason now waiting refused =>
          refine fleetAdmissible_burial ((rooted index).loop.burials raw ?_)
            refused admits
          rw [PollState.burials, waiting]
          exact List.mem_append_right _ List.mem_cons_self
  | mark index before entry after mark now shape inStage admits =>
      cases visible
      have member : entry ∈ (state.worker index).entries := by
        rw [shape]
        exact List.mem_append_right _ List.mem_cons_self
      refine ⟨fleetAdmissible_mark ((rooted index).entries entry member)
        ((rooted index).marks entry member mark ?_) admits, rfl⟩
      rw [inStage]
      rfl
  | markOrphan index before job mark after now shape admits =>
      cases visible
      have member : (job, mark) ∈ (state.worker index).orphans := by
        rw [shape]
        exact List.mem_append_right _ List.mem_cons_self
      have orphan := (rooted index).orphans _ member
      exact ⟨fleetAdmissible_mark orphan.1 orphan.2 admits, rfl⟩
  | reap index now tie lockedElsewhere admits =>
      cases visible
      refine ⟨fleetAdmissible_of_admits admits ?_ ?_, rfl⟩
      · intro params gen lockedElsewhere isClaim
        cases isClaim
      · intro id token mark isMark
        cases isMark
  | client event ofClient admits =>
      cases visible
      refine ⟨fleetAdmissible_of_admits admits ?_ ?_, rfl⟩
      · intro params gen lockedElsewhere isClaim
        rw [isClaim] at ofClient
        cases ofClient
      · intro id token mark isMark
        rw [isMark] at ofClient
        cases ofClient

/-- A run of the fleet is for the database a run of statements. -/
theorem FleetState.database_run
    (run : Run (Step fleet) (fleet.initial clock) trace finish) :
    Run (DbState.FleetStep T fleet.budgets) (DbState.initial clock)
      (statementsOf trace) finish.db :=
  run.image FleetState.db
    (fun taken : Transition (FleetState T) (FleetLabel T) => taken.label.event)
    (fun _ _ _ _ _ taken unseen => taken.db_of_inside unseen)
    fun _ _ _ _ _ earlier taken visible =>
      (rooted_of_run earlier).fleetStep taken visible

theorem Fleet.budgets_pos (fleet : Fleet T) :
    ∀ budget ∈ fleet.budgets, 1 ≤ budget := by
  rintro _ ⟨index, rfl⟩
  exact fleet.maxAttemptsPos index

theorem FleetState.statement_run
    (run : Run (Step fleet) (fleet.initial clock) trace finish) :
    Run (DbState.Step T) (DbState.initial clock) (statementsOf trace)
      finish.db :=
  DbState.run_of_fleetRun fleet.budgets_pos (database_run run)

end Statements

/-! ### Two replicas and one job

The lease of the first replica runs out while its handler works, and the second
replica claims the job as well. -/

namespace TwoReplicas

def fleet : Fleet Unit where
  worker := fun _ => OneSlot.worker
  maxAttemptsPos := fun _ => by decide

/-- The worker with its claim on the way. -/
def asking : WorkerState Unit :=
  { OneSlot.worker.initial with
    loop :=
      { OneSlot.worker.toWorker.initial with
        phase := .sent [0] ∅
        free := [] } }

/-- The worker with the reply to its claim. -/
def answered (reply : Except SqlError (List RawClaimedRow)) :
    WorkerState Unit :=
  { OneSlot.worker.initial with
    loop :=
      { OneSlot.worker.toWorker.initial with
        phase := .answered [0] reply
        free := [] } }

/-- The worker with the task of a job. -/
def busy (job : Job Unit) : WorkerState Unit :=
  { OneSlot.worker.initial with
    loop :=
      { OneSlot.worker.toWorker.initial with
        free := []
        tasks := [⟨job, 0, none⟩] }
    entries := [Entry.spawned job] }

theorem asks :
    ∃ steps, Run (WorkerState.Step OneSlot.worker) OneSlot.worker.initial steps
      asking ∧ ∀ taken ∈ steps, taken.label.awaitsTable = false := by
  have start : Run (WorkerState.Step OneSlot.worker) OneSlot.worker.initial []
      OneSlot.worker.initial := Run.refl
  have ticked := start.snoc (.poll _ _ _ (.tick _ rfl) rfl rfl)
  have acquired := ticked.snoc (.poll _ _ _ (.acquire _ 0 [] rfl rfl) rfl rfl)
  have ready := acquired.snoc
    (.poll _ _ _ (.gathered _ [0] rfl (Or.inr rfl)) rfl rfl)
  have claiming := ready.snoc (.poll _ _ _ (.snapshot _ [0] rfl) rfl rfl)
  have sent := claiming.snoc (.poll _ _ _ (.send _ [0] _ rfl) rfl rfl)
  exact ⟨_, sent, by simp [WorkerLabel.awaitsTable, PollLabel.executes]⟩

theorem takes {raw : RawClaimedRow} {job : Job Unit}
    (decoded : decodeRow OneSlot.worker.codec raw = .ok job)
    (keyless : OneSlot.worker.toWorker.slotFor job = none) :
    ∃ steps, Run (WorkerState.Step OneSlot.worker) (answered (.ok [raw])) steps
      (busy job) ∧ ∀ taken ∈ steps, taken.label.awaitsTable = false := by
  have start : Run (WorkerState.Step OneSlot.worker) (answered (.ok [raw])) []
      (answered (.ok [raw])) := Run.refl
  have received := start.snoc (.poll _ _ _ (.receive _ [0] [raw] rfl) rfl rfl)
  have decoding := received.snoc
    (.poll _ _ _ (.decode _ [0] raw [] [] job rfl decoded) rfl rfl)
  have batch := decoding.snoc
    (.poll _ _ _ (.finishDecode _ [0] [job] rfl) rfl rfl)
  have locked := batch.snoc (.poll _ _ _ (.lock _ [0] [job] rfl) rfl rfl)
  have spawned := locked.snoc (.spawn _ 0 [] job [] rfl)
  have back := spawned.snoc
    (.poll _ _ _ (.finishSpawn _ [] [] rfl (Or.inl rfl)) rfl rfl)
  simp only [PollState.leave, PollState.spawn, keyless] at back
  exact ⟨_, back, by simp [WorkerLabel.awaitsTable, PollLabel.executes]⟩

/-- An idle replica claims a job and starts its task. -/
theorem starts (state : FleetState Unit) (index : Nat) (database : Database)
    {raw : RawClaimedRow} {job : Job Unit}
    (idle : state.worker index = OneSlot.worker.initial)
    (shared : database.jobs = state.db.jobs)
    (admits : state.db.Admits (database.claimEvent OneSlot.worker.toWorker 1 ∅))
    (answer : OneSlot.worker.toWorker.claimReply 1 ∅ database = .ok [raw])
    (decoded : decodeRow OneSlot.worker.codec raw = .ok job)
    (keyless : OneSlot.worker.toWorker.slotFor job = none) :
    ∃ trace, Run (FleetState.Step fleet) state trace
      ((state.setWorker index (busy job)).send
        (database.claimEvent OneSlot.worker.toWorker 1 ∅)) := by
  obtain ⟨_, asking, askingQuiet⟩ := asks
  obtain ⟨_, taking, takingQuiet⟩ := takes decoded keyless
  obtain ⟨first, sent⟩ :=
    FleetState.exists_run_of_inside fleet asking askingQuiet idle
  have asked : (state.setWorker index TwoReplicas.asking).worker index =
      TwoReplicas.asking := FleetState.worker_setWorker_self _
  have inPhase : ((state.setWorker index TwoReplicas.asking).worker
      index).loop.phase = .sent [0] ∅ := congrArg (·.loop.phase) asked
  have claims : FleetState.Step fleet
      (state.setWorker index TwoReplicas.asking)
      (.statement (database.claimEvent OneSlot.worker.toWorker 1 ∅))
      ((state.setWorker index (answered (.ok [raw]))).send
        (database.claimEvent OneSlot.worker.toWorker 1 ∅)) := by
    have taken : FleetState.Step fleet _ _ _ :=
      .poll _ index _ _ _ (.execute _ [0] ∅ database inPhase)
        (.claim [0] ∅ database inPhase shared) admits
    rw [FleetState.setLoop, asked, FleetState.setWorker_setWorker] at taken
    exact answer ▸ taken
  have atAnswer : ((state.setWorker index (answered (.ok [raw]))).send
      (database.claimEvent OneSlot.worker.toWorker 1 ∅)).worker index =
        answered (.ok [raw]) := FleetState.worker_setWorker_self _
  obtain ⟨second, begun⟩ :=
    FleetState.exists_run_of_inside fleet taking takingQuiet atAnswer
  rw [FleetState.setWorker_send, FleetState.setWorker_setWorker] at begun
  exact ⟨_, (sent.snoc claims).append begun⟩

/-- What the claim at `now` finds and draws. -/
def database (state : FleetState Unit) (now : Int) (token : Uuid) :
    Database where
  jobs := state.db.jobs
  now := now
  gen := fun _ => token
  lockedElsewhere := fun _ => false

def job (attempts : Nat) (token : Uuid) (expiry : Int) : Job Unit where
  id := 1
  publicId := ⟨7⟩
  queue := "mail"
  concurrencyKey := none
  payload := ()
  attempts := attempts
  maxAttempts := 2
  firstAttemptedAt := 1
  leaseToken := token
  leaseExpiresAt := expiry

def pushed : FleetState Unit :=
  (fleet.initial 0).send ⟨0, .push LateMark.pusher ⟨7⟩ () none⟩

/-- The first replica works on the job, until time 11. -/
def working : FleetState Unit :=
  (pushed.setWorker 0 (busy (job 1 ⟨1⟩ 11))).send
    ((database pushed 1 ⟨1⟩).claimEvent OneSlot.worker.toWorker 1 ∅)

/-- A reaper has found the lease expired. -/
def reaped : FleetState Unit :=
  working.send (OneSlot.worker.reapEvent 20 id fun _ => false)

/-- Both replicas work on the job. -/
def rivals : FleetState Unit :=
  (reaped.setWorker 1 (busy (job 2 ⟨2⟩ 31))).send
    ((database reaped 21 ⟨2⟩).claimEvent OneSlot.worker.toWorker 1 ∅)

theorem run_working :
    ∃ trace, Run (FleetState.Step fleet) (fleet.initial 0) trace working := by
  have start : Run (FleetState.Step fleet) (fleet.initial 0) []
      (fleet.initial 0) := Run.refl
  have isPushed : Run (FleetState.Step fleet) (fleet.initial 0) _ pushed :=
    start.snoc (.client _ _ rfl ⟨by decide, by decide⟩)
  have answer : OneSlot.worker.toWorker.claimReply 1 ∅
      (database pushed 1 ⟨1⟩) = .ok [OneSlot.raw 1 ⟨7⟩ 1] := rfl
  obtain ⟨trace, begun⟩ := starts pushed 0 (database pushed 1 ⟨1⟩) rfl rfl
    ⟨by decide, by decide⟩ answer rfl rfl
  exact ⟨_, isPushed.append begun⟩

/-- What the second claim returns. -/
def secondRaw : RawClaimedRow :=
  { OneSlot.raw 1 ⟨7⟩ 1 with
    attempts := 2
    leaseToken := ⟨2⟩
    leaseExpiresAt := 31 }

theorem run_rivals :
    ∃ trace, Run (FleetState.Step fleet) (fleet.initial 0) trace rivals := by
  obtain ⟨first, isWorking⟩ := run_working
  have isReaped : Run (FleetState.Step fleet) (fleet.initial 0) _ reaped :=
    isWorking.snoc (.reap _ 0 20 id (fun _ => false) ⟨by decide, by decide⟩)
  have answer : OneSlot.worker.toWorker.claimReply 1 ∅
      (database reaped 21 ⟨2⟩) = .ok [secondRaw] := rfl
  obtain ⟨second, begun⟩ := starts reaped 1 (database reaped 21 ⟨2⟩) rfl rfl
    ⟨by decide, by decide⟩ answer rfl rfl
  exact ⟨_, isReaped.append begun⟩

end TwoReplicas

end PgWorkQueue
