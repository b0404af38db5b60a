import PgWorkQueue.Client.PollLoop

/-!
# Permits and batches

Each permit of the semaphore is in one hand: that of a handler task, that of the
loop, or the semaphore's.  The claim never returns more rows than the loop holds
permits, so that the `zip` of rows and permits loses no row.
-/

namespace PgWorkQueue

open Library.Runs

/-- The invariant.  The rows of the current claim, decoded or not, fit the
permits held for it. -/
structure PermitsKept {T : Type} (worker : Worker T) (tasks : List (Task T))
    (free : List Nat) (phase : Phase T) : Prop where
  conserved : (tasks.map Task.permit ++ (phase.permits ++ free)).Perm
    (List.range worker.concurrency)
  bounded : phase.permits.length ≤ worker.batchSize
  fits : phase.raws.length + phase.jobs.length ≤ phase.permits.length

def PollState.PermitsKept {T : Type} (worker : Worker T)
    (state : PollState T) : Prop :=
  PgWorkQueue.PermitsKept worker state.tasks state.free state.phase

section Step

variable {T : Type} {worker : Worker T} {tasks : List (Task T)}
  {free : List Nat} {phase next : Phase T}

theorem PermitsKept.move
    (kept : PermitsKept worker tasks free phase)
    (samePermits : next.permits = phase.permits)
    (fits : next.raws.length + next.jobs.length ≤ next.permits.length) :
    PermitsKept worker tasks free next where
  conserved := by
    rw [samePermits]
    exact kept.conserved
  bounded := by
    rw [samePermits]
    exact kept.bounded
  fits := fits

/-- The loop drops its permits and has no rows left. -/
theorem PermitsKept.leave
    (kept : PermitsKept worker tasks free phase)
    (noPermits : next.permits = []) (noRaws : next.raws = [])
    (noJobs : next.jobs = []) :
    PermitsKept worker tasks (free ++ phase.permits) next where
  conserved := by
    have swapped : (free ++ phase.permits).Perm (phase.permits ++ free) :=
      List.perm_append_comm
    rw [noPermits, List.nil_append]
    exact (swapped.append_left _).trans kept.conserved
  bounded := by
    simp [noPermits]
  fits := by
    simp [noPermits, noRaws, noJobs]

/-- The loop takes a permit of the semaphore. -/
theorem PermitsKept.take
    {permits : List Nat} {permit : Nat}
    (kept : PermitsKept worker tasks (permit :: free) phase)
    (before : phase.permits = permits)
    (after : next.permits = permits ++ [permit])
    (room : permits.length < worker.batchSize)
    (noRaws : next.raws = []) (noJobs : next.jobs = []) :
    PermitsKept worker tasks free next where
  conserved := by
    have conserved := kept.conserved
    rw [before] at conserved
    rw [after, List.append_assoc]
    exact conserved
  bounded := by
    rw [after, List.length_append]
    exact room
  fits := by
    simp [noRaws, noJobs]

theorem PollState.PermitsKept.claimFailed
    {state : PollState T} (kept : state.PermitsKept worker) (fatal : Bool) :
    (state.claimFailed fatal).PermitsKept worker := by
  unfold PollState.claimFailed
  split
  · exact kept.leave rfl rfl rfl
  · split
    · exact kept.leave rfl rfl rfl
    · exact kept.leave rfl rfl rfl

theorem PollState.PermitsKept.claimSucceeded
    {state : PollState T} (kept : state.PermitsKept worker)
    {out : List (Job T)} (fits : out.length ≤ state.phase.permits.length) :
    (state.claimSucceeded out).PermitsKept worker := by
  unfold PollState.claimSucceeded
  split
  · exact kept.leave rfl rfl rfl
  · refine kept.move rfl ?_
    simpa [Phase.raws, Phase.jobs, Phase.permits] using fits

theorem PollState.PermitsKept.spawn
    {state : PollState T} {permit : Nat} {permits : List Nat} {row : Job T}
    {rows : List (Job T)} (kept : state.PermitsKept worker)
    (inPhase : state.phase = .spawning (permit :: permits) (row :: rows)) :
    (state.spawn worker row permit rows permits).PermitsKept worker := by
  unfold PollState.PermitsKept at kept
  rw [inPhase] at kept
  obtain ⟨conserved, bounded, fits⟩ := kept
  refine ⟨?_, ?_, ?_⟩
  · simpa [PollState.spawn, Phase.permits] using conserved
  · simp only [Phase.permits, List.length_cons] at bounded
    change permits.length ≤ worker.batchSize
    omega
  · simp only [Phase.raws, Phase.jobs, Phase.permits, List.length_cons,
      List.length_nil] at fits
    change 0 + rows.length ≤ permits.length
    omega

theorem PollState.PermitsKept.endTask
    {state : PollState T} {before after : List (Task T)} {task : Task T}
    (kept : state.PermitsKept worker)
    (shape : state.tasks = before ++ task :: after) :
    (state.endTask task (before ++ after)).PermitsKept worker := by
  unfold PollState.PermitsKept at kept
  rw [shape] at kept
  refine ⟨?_, kept.bounded, kept.fits⟩
  refine List.Perm.trans ?_ kept.conserved
  rw [List.perm_iff_count]
  intro permit
  simp only [PollState.endTask, List.map_append, List.map_cons,
    List.count_append, List.count_cons, List.count_nil]
  omega

theorem PollState.PermitsKept.step
    {state target : PollState T} {label : PollLabel}
    (kept : state.PermitsKept worker)
    (taken : PollState.Step worker state label target) :
    target.PermitsKept worker := by
  have fits := kept.fits
  have bounded := kept.bounded
  cases taken with
  | cancel => exact kept
  | tick inPhase =>
      refine kept.move ?_ (Nat.zero_le _)
      rw [inPhase]
      rfl
  | stop | abort => exact kept.leave rfl rfl rfl
  | acquire permit free inPhase available =>
      unfold PollState.PermitsKept at kept
      rw [available, inPhase] at kept
      exact kept.take rfl rfl worker.batchSizeMin rfl rfl
  | tryAcquire permits permit free inPhase wanted available =>
      unfold PollState.PermitsKept at kept
      rw [available, inPhase] at kept
      exact kept.take rfl rfl wanted rfl rfl
  | gathered permits inPhase =>
      refine kept.move ?_ (Nat.zero_le _)
      rw [inPhase]
      rfl
  | snapshot permits inPhase =>
      refine kept.move ?_ (Nat.zero_le _)
      rw [inPhase]
      rfl
  | send permits headroom inPhase =>
      refine kept.move ?_ (Nat.zero_le _)
      rw [inPhase]
      rfl
  | execute permits headroom database inPhase =>
      refine kept.move ?_ ?_
      · rw [inPhase]
        rfl
      · cases answer : worker.claimReply permits.length headroom database with
        | error failure =>
            exact Nat.zero_le _
        | ok raws =>
            exact (Worker.claimReply_eq_ok answer).1
  | executeOrphan => exact kept
  | refuse permits headroom fatal => exact kept.claimFailed fatal
  | receive permits raws inPhase =>
      rw [inPhase] at fits
      refine kept.move ?_ fits
      rw [inPhase]
      rfl
  | receiveError permits failure fatal => exact kept.claimFailed fatal
  | loseReply permits reply fatal => exact kept.claimFailed fatal
  | decode permits raw raws out job inPhase _ =>
      rw [inPhase] at fits
      refine kept.move ?_ ?_
      · rw [inPhase]
        rfl
      · simp only [Phase.raws, Phase.jobs, Phase.permits, List.length_cons,
          List.length_append, List.length_nil] at fits ⊢
        omega
  | mark permits raw raws out reason inPhase _ =>
      rw [inPhase] at fits
      refine kept.move ?_ ?_
      · rw [inPhase]
        rfl
      · simp only [Phase.raws, Phase.jobs, Phase.permits, List.length_cons]
          at fits ⊢
        omega
  | sendMark permits raw raws out inPhase
  | executeMark permits raw raws out inPhase =>
      rw [inPhase] at fits
      refine kept.move ?_ fits
      rw [inPhase]
      rfl
  | executeOrphanMark | loseOrphanMark => exact kept
  | refuseMark permits raw raws out inPhase =>
      rcases inPhase with inPhase | inPhase
      · rw [inPhase] at fits
        refine kept.move ?_ fits
        rw [inPhase]
        rfl
      · rw [inPhase] at fits
        refine kept.move ?_ fits
        rw [inPhase]
        rfl
  | marked permits raws out inPhase =>
      rw [inPhase] at fits
      refine kept.move ?_ fits
      rw [inPhase]
      rfl
  | finishDecode permits out inPhase =>
      rw [inPhase] at fits
      refine kept.claimSucceeded ?_
      rw [inPhase]
      simpa [Phase.raws, Phase.jobs] using fits
  | lock permits rows inPhase =>
      rw [inPhase] at fits
      refine kept.move ?_ fits
      rw [inPhase]
      rfl
  | spawn permit permits row rows inPhase => exact kept.spawn inPhase
  | finishSpawn => exact kept.leave rfl rfl rfl
  | endTask before after task shape => exact kept.endTask shape

end Step

/-! ## Batches -/

section Batches

variable {T : Type} {worker : Worker T} {finish : PollState T}
  {trace : List (Transition (PollState T) PollLabel)}

/-- The jobs that `claim_and_decode` returned to the loop in a transition. -/
def returnedJobs (taken : Transition (PollState T) PollLabel) :
    List (Job T) :=
  match taken.label with
  | .finishDecode => taken.source.phase.jobs
  | _ => []

/-- The jobs for which a transition spawned a task. -/
def spawnedJobs (taken : Transition (PollState T) PollLabel) :
    List (Job T) :=
  match taken.label with
  | .spawn => taken.source.phase.jobs.take 1
  | _ => []

/-- The jobs of the returned list that are not spawned yet. -/
def Phase.batch : Phase T → List (Job T)
  | .locking _ rows | .spawning _ rows => rows
  | _ => []

theorem permitsKept_of_run
    (run : Run (PollState.Step worker) worker.initial trace finish) :
    finish.PermitsKept worker := by
  refine run.invariant (fun state => state.PermitsKept worker) ?_ ?_
  · refine ⟨?_, Nat.zero_le _, Nat.le_refl _⟩
    exact List.Perm.refl _
  · intro source label target kept taken
    exact kept.step taken

/-- The `zip` ends with the rows, not before them. -/
theorem jobs_eq_nil_of_finishSpawn
    {state : PollState T} {permits : List Nat} {rows : List (Job T)}
    (kept : state.PermitsKept worker)
    (inPhase : state.phase = .spawning permits rows)
    (zipped : permits = [] ∨ rows = []) :
    rows = [] := by
  rcases zipped with noPermits | noRows
  · have fits := kept.fits
    rw [inPhase, noPermits] at fits
    simp only [Phase.raws, Phase.jobs, Phase.permits, List.length_nil]
      at fits
    exact List.length_eq_zero_iff.mp (by omega)
  · exact noRows

theorem batch_eq_nil_of_selects
    {phase : Phase T} (waits : phase.selects = true) : phase.batch = [] := by
  cases phase <;> first | rfl | cases waits

theorem claimFailed_batch (state : PollState T) (fatal : Bool) :
    (state.claimFailed fatal).phase.batch = [] := by
  unfold PollState.claimFailed
  split
  · rfl
  · split <;> rfl

theorem claimSucceeded_batch (state : PollState T) (out : List (Job T)) :
    (state.claimSucceeded out).phase.batch = out := by
  unfold PollState.claimSucceeded
  split
  · rename_i empty
    exact (List.isEmpty_iff.mp empty).symm
  · rfl

/-- What a step adds to the returned jobs, it adds to the spawned ones or to
those that wait to be spawned. -/
theorem batch_of_step
    {state target : PollState T} {label : PollLabel}
    (kept : state.PermitsKept worker) (notAborted : label ≠ .abort)
    (taken : PollState.Step worker state label target) :
    state.phase.batch ++ returnedJobs ⟨state, label, target⟩ =
      spawnedJobs ⟨state, label, target⟩ ++ target.phase.batch := by
  cases taken with
  | cancel => simp [returnedJobs, spawnedJobs]
  | tick inPhase => simp [returnedJobs, spawnedJobs, inPhase, Phase.batch]
  | stop _ inPhase =>
      rw [batch_eq_nil_of_selects inPhase]
      rfl
  | acquire permit free inPhase _ =>
      simp [returnedJobs, spawnedJobs, inPhase, Phase.batch]
  | tryAcquire permits permit free inPhase _ _ =>
      simp [returnedJobs, spawnedJobs, inPhase, Phase.batch]
  | gathered permits inPhase _ =>
      simp [returnedJobs, spawnedJobs, inPhase, Phase.batch]
  | snapshot permits inPhase =>
      simp [returnedJobs, spawnedJobs, inPhase, Phase.batch]
  | send permits headroom inPhase =>
      simp [returnedJobs, spawnedJobs, inPhase, Phase.batch]
  | execute permits headroom database inPhase =>
      simp [returnedJobs, spawnedJobs, inPhase, Phase.batch]
  | executeOrphan => simp [returnedJobs, spawnedJobs]
  | refuse permits headroom fatal inPhase =>
      rw [claimFailed_batch]
      rcases inPhase with inPhase | inPhase
      · simp [returnedJobs, spawnedJobs, inPhase, Phase.batch]
      · simp [returnedJobs, spawnedJobs, inPhase, Phase.batch]
  | receive permits raws inPhase =>
      simp [returnedJobs, spawnedJobs, inPhase, Phase.batch]
  | receiveError permits failure fatal inPhase =>
      rw [claimFailed_batch]
      simp [returnedJobs, spawnedJobs, inPhase, Phase.batch]
  | loseReply permits reply fatal inPhase =>
      rw [claimFailed_batch]
      simp [returnedJobs, spawnedJobs, inPhase, Phase.batch]
  | decode permits raw raws out job inPhase _ =>
      simp [returnedJobs, spawnedJobs, inPhase, Phase.batch]
  | mark permits raw raws out reason inPhase _ =>
      simp [returnedJobs, spawnedJobs, inPhase, Phase.batch]
  | sendMark permits raw raws out inPhase =>
      simp [returnedJobs, spawnedJobs, inPhase, Phase.batch]
  | executeMark permits raw raws out inPhase =>
      simp [returnedJobs, spawnedJobs, inPhase, Phase.batch]
  | executeOrphanMark => simp [returnedJobs, spawnedJobs]
  | refuseMark permits raw raws out inPhase =>
      rcases inPhase with inPhase | inPhase
      · simp [returnedJobs, spawnedJobs, inPhase, Phase.batch]
      · simp [returnedJobs, spawnedJobs, inPhase, Phase.batch]
  | loseOrphanMark => simp [returnedJobs, spawnedJobs]
  | marked permits raws out inPhase =>
      simp [returnedJobs, spawnedJobs, inPhase, Phase.batch]
  | finishDecode permits out inPhase =>
      rw [claimSucceeded_batch]
      simp [returnedJobs, spawnedJobs, inPhase, Phase.batch, Phase.jobs]
  | lock permits rows inPhase =>
      simp [returnedJobs, spawnedJobs, inPhase, Phase.batch]
  | spawn permit permits row rows inPhase =>
      simp [returnedJobs, spawnedJobs, inPhase, Phase.batch, Phase.jobs,
        PollState.spawn]
  | finishSpawn permits rows inPhase zipped =>
      have noRows := jobs_eq_nil_of_finishSpawn kept inPhase zipped
      simp [returnedJobs, spawnedJobs, inPhase, noRows, Phase.batch,
        PollState.leave]
  | endTask => simp [returnedJobs, spawnedJobs, PollState.endTask]
  | abort => exact (notAborted rfl).elim

/-- Every job that was returned to the loop is spawned, once and in order. -/
theorem returnedJobs_eq_of_run
    (run : Run (PollState.Step worker) worker.initial trace finish)
    (noAbort : ∀ taken ∈ trace, taken.label ≠ .abort) :
    trace.flatMap returnedJobs =
      trace.flatMap spawnedJobs ++ finish.phase.batch := by
  revert noAbort
  refine run.historyInvariant
    (fun history state => (∀ taken ∈ history, taken.label ≠ .abort) →
      history.flatMap returnedJobs =
        history.flatMap spawnedJobs ++ state.phase.batch) ?_ ?_
  · intro _
    rfl
  · intro history source label target earlier accounted taken noAbort
    have kept := permitsKept_of_run earlier
    have before := accounted fun other member =>
      noAbort other (List.mem_append_left _ member)
    have notAborted := noAbort ⟨source, label, target⟩ (by simp)
    rw [List.flatMap_append, List.flatMap_append, before,
      List.flatMap_singleton, List.flatMap_singleton, List.append_assoc,
      List.append_assoc, batch_of_step kept notAborted taken]

/-- A task takes a permit of the loop that no other task has. -/
def SpawnsOnOwnPermit (taken : Transition (PollState T) PollLabel) : Prop :=
  ∃ task, taken.target.tasks = taken.source.tasks ++ [task] ∧
    spawnedJobs taken = [task.job] ∧
    task.permit ∈ taken.source.phase.permits ∧
    task.permit ∉ taken.source.tasks.map Task.permit

theorem PollState.PermitsKept.spawnsOnOwnPermit
    {state target : PollState T} (kept : state.PermitsKept worker)
    (taken : PollState.Step worker state .spawn target) :
    SpawnsOnOwnPermit ⟨state, .spawn, target⟩ := by
  cases taken with
  | spawn permit permits row rows inPhase =>
      have held : permit ∈ state.phase.permits := by
        rw [inPhase]
        exact List.mem_cons_self
      refine ⟨⟨row, permit, worker.slotFor row⟩, rfl, ?_, held, ?_⟩
      · simp [spawnedJobs, inPhase, Phase.jobs]
      · intro taken
        have distinct := kept.conserved.nodup_iff.mpr List.nodup_range
        exact (List.nodup_append.mp distinct).2.2 permit taken permit
          (List.mem_append_left _ held) rfl

/-- What holds of permits and rows along a run of the loop. -/
structure PermitLaw (worker : Worker T)
    (trace : List (Transition (PollState T) PollLabel))
    (state : PollState T) : Prop where
  conserved : state.tasks.length + state.phase.permits.length +
    state.free.length = worker.concurrency
  distinct : (state.tasks.map Task.permit ++
    (state.phase.permits ++ state.free)).Nodup
  claimed : ∀ want headroom database raws,
    worker.claimReply want headroom database = .ok raws →
      raws.length ≤ want
  returned : ∀ taken ∈ trace,
    (returnedJobs taken).length ≤ taken.source.phase.permits.length ∧
      taken.source.phase.permits.length ≤ worker.batchSize
  zipped : ∀ taken ∈ trace, taken.label = .finishSpawn →
    taken.source.phase.jobs = []
  ownPermit : ∀ taken ∈ trace, taken.label = .spawn →
    SpawnsOnOwnPermit taken
  spawned : (∀ taken ∈ trace, taken.label ≠ .abort) →
    trace.flatMap returnedJobs =
      trace.flatMap spawnedJobs ++ state.phase.batch

/-- Permits are conserved and no row is dropped.  The conclusion about the
spawned rows excepts runs in which the loop's own task is aborted while it
waits for the task set. -/
theorem permits_are_conserved
    (run : Run (PollState.Step worker) worker.initial trace finish) :
    PermitLaw worker trace finish := by
  have kept := permitsKept_of_run run
  have atSource : ∀ taken ∈ trace,
      taken.source.PermitsKept worker ∧
        PollState.Step worker taken.source taken.label taken.target := by
    intro taken member
    obtain ⟨before, reached, step⟩ := run.reaches_source member
    exact ⟨permitsKept_of_run reached, step⟩
  have total := kept.conserved.length_eq
  simp only [List.length_append, List.length_map, List.length_range]
    at total
  refine ⟨by omega, kept.conserved.nodup_iff.mpr List.nodup_range,
    fun _ _ _ _ answer => (Worker.claimReply_eq_ok answer).1, ?_, ?_, ?_,
    returnedJobs_eq_of_run run⟩
  · intro taken member
    have source := (atSource taken member).1
    refine ⟨?_, source.bounded⟩
    have fits := source.fits
    unfold returnedJobs
    split
    · omega
    · exact Nat.zero_le _
  · intro taken member isFinish
    obtain ⟨source, step⟩ := atSource taken member
    obtain ⟨state, label, target⟩ := taken
    change PollState.Step worker state label target at step
    subst isFinish
    cases step with
    | finishSpawn permits rows inPhase zipped =>
        have noRows := jobs_eq_nil_of_finishSpawn source inPhase zipped
        simp [inPhase, noRows, Phase.jobs]
  · intro taken member isSpawn
    obtain ⟨source, step⟩ := atSource taken member
    obtain ⟨state, label, target⟩ := taken
    change PollState.Step worker state label target at step
    subst isSpawn
    exact source.spawnsOnOwnPermit step

end Batches

/-! ## One tick of a worker with a limited key

Two permits and one slot for the key `a`: the tick claims the first row of the
key and the next row of another, spawns both, and one task ends. -/

namespace LimitedTick

def worker : Worker Unit where
  queue := "mail"
  codec := ⟨fun _ => .ok [], fun _ => .value ()⟩
  maxAttempts := 3
  leaseTimeout := minRetryIn
  batchSize := 2
  concurrency := 2
  concurrencyLimits := KeyedTable.headroomOf 1
  batchSizeMin := by decide
  batchSizeMax := by decide
  concurrencyPos := by decide
  limitsAccepted := by
    intro key limit found
    rw [KeyedTable.headroomOf] at found
    by_cases same : key = "a"
    · subst same
      rw [AList.lookup_insert] at found
      cases found
      decide
    · rw [AList.lookup_insert_ne same] at found
      cases found

def database : Database where
  jobs := KeyedTable.table
  now := 5
  gen := fun id => ⟨id⟩
  lockedElsewhere := fun _ => false

def job (id : Nat) (key : Option String) : Job Unit where
  id := id
  publicId := ⟨id⟩
  queue := "mail"
  concurrencyKey := key
  payload := ()
  attempts := 1
  maxAttempts := 3
  firstAttemptedAt := 5
  leaseToken := ⟨id⟩
  leaseExpiresAt := 100005

theorem exists_run :
    ∃ trace finish,
      Run (PollState.Step worker) worker.initial trace finish ∧
      finish.tasks = [⟨job 3 (some "b"), 1, none⟩] ∧
      finish.free = [0] ∧
      trace.flatMap spawnedJobs = [job 1 (some "a"), job 3 (some "b")] := by
  have start : Run (PollState.Step worker) worker.initial [] worker.initial :=
    Run.refl
  have ticked := start.snoc (.tick _ rfl)
  have acquired := ticked.snoc (.acquire _ 0 [1] rfl rfl)
  have gathering := acquired.snoc (.tryAcquire _ [0] 1 [] rfl (by decide) rfl)
  have ready := gathering.snoc (.gathered _ [0, 1] rfl (Or.inr rfl))
  have claiming := ready.snoc (.snapshot _ [0, 1] rfl)
  have sent := claiming.snoc (.send _ [0, 1] _ rfl)
  have answered := sent.snoc (.execute _ [0, 1] _ database rfl)
  have received := answered.snoc (.receive _ [0, 1] _ rfl)
  have first := received.snoc (.decode _ [0, 1] _ _ _ _ rfl rfl)
  have second := first.snoc (.decode _ [0, 1] _ _ _ _ rfl rfl)
  have decoded := second.snoc (.finishDecode _ [0, 1] _ rfl)
  have locked := decoded.snoc (.lock _ [0, 1] _ rfl)
  have firstTask := locked.snoc (.spawn _ 0 [1] _ _ rfl)
  have secondTask := firstTask.snoc (.spawn _ 1 [] _ _ rfl)
  have finished := secondTask.snoc (.finishSpawn _ [] [] rfl (Or.inl rfl))
  have ended := finished.snoc
    (.endTask _ [] [⟨job 3 (some "b"), 1, none⟩]
      ⟨job 1 (some "a"), 0, some "a"⟩ rfl)
  exact ⟨_, _, ended, rfl, rfl, rfl⟩

end LimitedTick

theorem permits_are_conserved_on_limitedTick :
    ∃ trace finish,
      finish.tasks.length = 1 ∧
        PermitLaw LimitedTick.worker trace finish := by
  obtain ⟨trace, finish, run, tasks, _⟩ := LimitedTick.exists_run
  exact ⟨trace, finish, by rw [tasks]; rfl, permits_are_conserved run⟩

end PgWorkQueue
