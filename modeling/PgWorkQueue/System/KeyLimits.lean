import PgWorkQueue.System.Permits

/-!
# Limits per concurrency key

The bound rests on three pieces: the headroom snapshot of a tick, the keyed
claim that returns no more rows of a key than the snapshot leaves, and the
counter that `KeySlotGuard` keeps.  The invariant adds to the live tasks of a
key the rows of the key that the current tick may still spawn; tasks that end
meanwhile only lower the sum.
-/

namespace PgWorkQueue

open Library.Runs

section Model

variable {T : Type}

/-- The live tasks whose job carries the key. -/
def liveOf (tasks : List (Task T)) (key : String) : Nat :=
  tasks.countP (·.job.concurrencyKey == some key)

/-- The headroom that a claim under way was given for the key. -/
def Phase.promised (key : String) : Phase T → Nat
  | .claiming _ headroom | .sent _ headroom => (headroom.lookup key).getD 0
  | _ => 0

/-- The rows of the key that the current tick may still spawn. -/
def Phase.reserved (phase : Phase T) (key : String) : Nat :=
  phase.promised key + phase.raws.countP (·.concurrencyKey == some key) +
    phase.jobs.countP (·.concurrencyKey == some key)

/-- The headroom map of a claim under way has an entry for every configured
key. -/
def Phase.Covers (worker : Worker T) : Phase T → Prop
  | .claiming _ headroom | .sent _ headroom =>
      ∀ key limit, worker.concurrencyLimits.lookup key = some limit →
        ∃ room, headroom.lookup key = some room
  | _ => True

/-- The invariant. -/
structure KeysKept (worker : Worker T) (tasks : List (Task T))
    (running : HashMap Nat) (phase : Phase T) : Prop where
  slots : ∀ task ∈ tasks, task.slot = worker.slotFor task.job
  counted : ∀ key limit,
    worker.concurrencyLimits.lookup key = some limit →
      running.lookup key = some (liveOf tasks key)
  bounded : ∀ key limit,
    worker.concurrencyLimits.lookup key = some limit →
      liveOf tasks key + phase.reserved key ≤ limit
  covers : phase.Covers worker

def PollState.KeysKept (worker : Worker T) (state : PollState T) : Prop :=
  PgWorkQueue.KeysKept worker state.tasks state.running state.phase

end Model

section Step

variable {T : Type} {worker : Worker T} {tasks : List (Task T)}
  {running : HashMap Nat} {phase next : Phase T}

/-- The slot of a job is its key, when the key is configured. -/
theorem Worker.slotFor_eq_some_iff {job : Job T} {key : String} :
    worker.slotFor job = some key ↔
      job.concurrencyKey = some key ∧
        ∃ limit, worker.concurrencyLimits.lookup key = some limit := by
  unfold Worker.slotFor
  cases jobKey : job.concurrencyKey with
  | none =>
      simp
  | some name =>
      dsimp only
      by_cases configured : (worker.concurrencyLimits.lookup name).isSome
      · rw [if_pos configured]
        obtain ⟨limit, found⟩ := Option.isSome_iff_exists.mp configured
        constructor
        · intro same
          cases same
          exact ⟨rfl, limit, found⟩
        · intro same
          exact same.1
      · rw [if_neg configured]
        constructor
        · intro absurdity
          cases absurdity
        · rintro ⟨same, limit, found⟩
          cases same
          rw [found] at configured
          exact (configured rfl).elim

theorem KeysKept.move
    (kept : KeysKept worker tasks running phase)
    (reserves : ∀ key limit,
      worker.concurrencyLimits.lookup key = some limit →
        next.reserved key ≤ phase.reserved key)
    (covers : next.Covers worker) :
    KeysKept worker tasks running next where
  slots := kept.slots
  counted := kept.counted
  bounded := by
    intro key limit configured
    have before := kept.bounded key limit configured
    have lower := reserves key limit configured
    omega
  covers := covers

/-- The loop goes on with the same rows. -/
theorem KeysKept.proceed
    (kept : KeysKept worker tasks running phase)
    (same : next.reserved = phase.reserved) (covers : next.Covers worker) :
    KeysKept worker tasks running next :=
  kept.move (fun key _ _ => (congrFun same key).le) covers

/-- The loop has no rows left. -/
theorem KeysKept.leave
    (kept : KeysKept worker tasks running phase)
    (empty : ∀ key, next.reserved key = 0) (covers : next.Covers worker) :
    KeysKept worker tasks running next :=
  kept.move (fun key _ _ => by rw [empty key]; exact Nat.zero_le _) covers

/-- The snapshot leaves for a key what its limit leaves beside the live
tasks. -/
theorem KeysKept.snapshot
    {permits : List Nat} (kept : KeysKept worker tasks running phase) :
    KeysKept worker tasks running
      (.claiming permits
        (headroomSnapshot worker.concurrencyLimits running)) where
  slots := kept.slots
  counted := kept.counted
  bounded := by
    intro key limit configured
    have room := lookup_headroomSnapshot configured
      (kept.counted key limit configured)
    have before := kept.bounded key limit configured
    simp only [Phase.reserved, Phase.promised, Phase.raws, Phase.jobs, room,
      Option.getD_some, List.countP_nil]
    omega
  covers := by
    intro key limit configured
    exact ⟨_, lookup_headroomSnapshot configured
      (kept.counted key limit configured)⟩

theorem liveOf_append (tasks : List (Task T)) (task : Task T) (key : String) :
    liveOf (tasks ++ [task]) key =
      liveOf tasks key +
        if task.job.concurrencyKey = some key then 1 else 0 := by
  unfold liveOf
  rw [List.countP_append, List.countP_singleton]
  simp

theorem liveOf_middle (before after : List (Task T)) (task : Task T)
    (key : String) :
    liveOf (before ++ task :: after) key =
      liveOf (before ++ after) key +
        if task.job.concurrencyKey = some key then 1 else 0 := by
  unfold liveOf
  rw [List.countP_append, List.countP_append, List.countP_cons]
  simp [Nat.add_assoc]

theorem spawn_running_of_slot
    {state : PollState T} {permit : Nat} {permits : List Nat} {row : Job T}
    {rows : List (Job T)} {key : String}
    (slot : worker.slotFor row = some key) :
    (state.spawn worker row permit rows permits).running =
      acquireSlot state.running key := by
  simp only [PollState.spawn, slot]

theorem spawn_running_of_none
    {state : PollState T} {permit : Nat} {permits : List Nat} {row : Job T}
    {rows : List (Job T)} (slot : worker.slotFor row = none) :
    (state.spawn worker row permit rows permits).running = state.running := by
  simp only [PollState.spawn, slot]

/-- Spawning the next row turns one reserved row of its key into a live
task. -/
theorem PollState.KeysKept.spawn
    {state : PollState T} {permit : Nat} {permits : List Nat} {row : Job T}
    {rows : List (Job T)} (kept : state.KeysKept worker)
    (inPhase : state.phase = .spawning (permit :: permits) (row :: rows)) :
    (state.spawn worker row permit rows permits).KeysKept worker := by
  have reservedBefore (key : String) : state.phase.reserved key =
      rows.countP (·.concurrencyKey == some key) +
        if row.concurrencyKey = some key then 1 else 0 := by
    rw [inPhase]
    simp [Phase.reserved, Phase.promised, Phase.raws, Phase.jobs,
      List.countP_cons]
  refine ⟨?_, ?_, ?_, trivial⟩
  · intro task member
    rcases List.mem_append.mp member with earlier | new
    · exact kept.slots task earlier
    · rw [List.mem_singleton.mp new]
  · intro key limit configured
    have counted := kept.counted key limit configured
    have bounded := kept.bounded key limit configured
    rw [reservedBefore] at bounded
    have limits := worker.limitsAccepted key limit configured
    change (state.spawn worker row permit rows permits).running.lookup key =
      some (liveOf (_ ++ [_]) key)
    rw [liveOf_append]
    by_cases carries : row.concurrencyKey = some key
    · have slot : worker.slotFor row = some key :=
        Worker.slotFor_eq_some_iff.mpr ⟨carries, limit, configured⟩
      have small : liveOf state.tasks key < u32Max := by
        rw [if_pos carries] at bounded
        have most : i32Max < u32Max := by decide
        omega
      rw [spawn_running_of_slot slot, if_pos carries]
      exact lookup_acquireSlot counted small
    · rw [if_neg carries, Nat.add_zero]
      cases slot : worker.slotFor row with
      | none =>
          rw [spawn_running_of_none slot]
          exact counted
      | some other =>
          have differs : key ≠ other := by
            intro same
            rw [same] at carries
            exact carries (Worker.slotFor_eq_some_iff.mp slot).1
          rw [spawn_running_of_slot slot, lookup_acquireSlot_ne differs]
          exact counted
  · intro key limit configured
    have bounded := kept.bounded key limit configured
    rw [reservedBefore] at bounded
    change liveOf (_ ++ [_]) key + Phase.reserved (.spawning permits rows) key
      ≤ limit
    rw [liveOf_append]
    simp only [Phase.reserved, Phase.promised, Phase.raws, Phase.jobs,
      List.countP_nil]
    omega

theorem PollState.KeysKept.endTask
    {state : PollState T} {before after : List (Task T)} {task : Task T}
    (kept : state.KeysKept worker)
    (shape : state.tasks = before ++ task :: after) :
    (state.endTask task (before ++ after)).KeysKept worker := by
  have split (key : String) := liveOf_middle before after task key
  rw [← shape] at split
  have slot : task.slot = worker.slotFor task.job :=
    kept.slots task (by simp [shape])
  refine ⟨?_, ?_, ?_, kept.covers⟩
  · intro other member
    refine kept.slots other ?_
    rw [shape]
    have fewer : (before ++ after).Sublist (before ++ task :: after) :=
      (List.sublist_cons_self task after).append_left before
    exact fewer.subset member
  · intro key limit configured
    have counted := kept.counted key limit configured
    change (dropSlot state.running task.slot).lookup key =
      some (liveOf (before ++ after) key)
    by_cases carries : task.job.concurrencyKey = some key
    · have hasSlot : task.slot = some key := by
        rw [slot]
        exact Worker.slotFor_eq_some_iff.mpr ⟨carries, limit, configured⟩
      rw [hasSlot, lookup_dropSlot counted, split key, if_pos carries,
        Nat.add_sub_cancel]
    · have otherSlot : task.slot ≠ some key := by
        rw [slot]
        intro same
        exact carries (Worker.slotFor_eq_some_iff.mp same).1
      rw [lookup_dropSlot_ne otherSlot, counted, split key, if_neg carries,
        Nat.add_zero]
  · intro key limit configured
    have bounded := kept.bounded key limit configured
    change liveOf (before ++ after) key + state.phase.reserved key ≤ limit
    rw [split key] at bounded
    omega

theorem PollState.KeysKept.claimFailed
    {state : PollState T} (kept : state.KeysKept worker) (fatal : Bool) :
    (state.claimFailed fatal).KeysKept worker := by
  unfold PollState.claimFailed
  split
  · exact kept.leave (fun _ => rfl) trivial
  · split
    · exact kept.leave (fun _ => rfl) trivial
    · exact kept.leave (fun _ => rfl) trivial

theorem PollState.KeysKept.claimSucceeded
    {state : PollState T} {permits : List Nat} {out : List (Job T)}
    (kept : state.KeysKept worker)
    (inPhase : state.phase = .decoding permits [] out) :
    (state.claimSucceeded out).KeysKept worker := by
  unfold PollState.claimSucceeded
  split
  · exact kept.leave (fun _ => rfl) trivial
  · refine kept.move ?_ trivial
    intro key limit _
    rw [inPhase]
    simp [Phase.reserved, Phase.promised, Phase.raws, Phase.jobs]

theorem PollState.KeysKept.step
    {state target : PollState T} {label : PollLabel}
    (kept : state.KeysKept worker)
    (taken : PollState.Step worker state label target) :
    target.KeysKept worker := by
  have covers := kept.covers
  cases taken with
  | cancel => exact kept
  | tick => exact kept.leave (fun _ => rfl) trivial
  | stop | abort => exact kept.leave (fun _ => rfl) trivial
  | acquire => exact kept.leave (fun _ => rfl) trivial
  | tryAcquire => exact kept.leave (fun _ => rfl) trivial
  | gathered => exact kept.leave (fun _ => rfl) trivial
  | snapshot => exact kept.snapshot
  | send permits headroom inPhase =>
      rw [inPhase] at covers
      exact kept.proceed (by rw [inPhase]; rfl) covers
  | execute permits headroom database inPhase =>
      rw [inPhase] at covers
      refine kept.move ?_ trivial
      intro key limit configured
      obtain ⟨room, found⟩ := covers key limit configured
      rw [inPhase]
      simp only [Phase.reserved, Phase.promised, Phase.raws, Phase.jobs,
        found, Option.getD_some, List.countP_nil]
      cases answer : worker.claimReply permits.length headroom database with
      | error failure =>
          simp
      | ok raws =>
          have atMost := (Worker.claimReply_eq_ok answer).2 key room found
          simpa using atMost
  | executeOrphan => exact kept
  | refuse permits headroom fatal => exact kept.claimFailed fatal
  | receive permits raws inPhase =>
      exact kept.proceed (by rw [inPhase]; rfl) trivial
  | receiveError permits failure fatal => exact kept.claimFailed fatal
  | loseReply permits reply fatal => exact kept.claimFailed fatal
  | decode permits raw raws out job inPhase decoded =>
      obtain ⟨payload, _, rfl⟩ := job_of_decodeRow decoded
      refine kept.move ?_ trivial
      intro key limit _
      rw [inPhase]
      simp only [Phase.reserved, Phase.promised, Phase.raws, Phase.jobs,
        List.countP_cons, List.countP_append, List.countP_nil]
      omega
  | mark permits raw raws out reason inPhase _ =>
      refine kept.move ?_ trivial
      intro key limit _
      rw [inPhase]
      simp only [Phase.reserved, Phase.promised, Phase.raws, Phase.jobs,
        List.countP_cons]
      omega
  | sendMark permits raw raws out inPhase =>
      exact kept.proceed (by rw [inPhase]; rfl) trivial
  | executeMark permits raw raws out inPhase =>
      exact kept.proceed (by rw [inPhase]; rfl) trivial
  | executeOrphanMark | loseOrphanMark => exact kept
  | refuseMark permits raw raws out inPhase =>
      rcases inPhase with inPhase | inPhase
      · exact kept.proceed (by rw [inPhase]; rfl) trivial
      · exact kept.proceed (by rw [inPhase]; rfl) trivial
  | marked permits raws out inPhase =>
      exact kept.proceed (by rw [inPhase]; rfl) trivial
  | finishDecode permits out inPhase => exact kept.claimSucceeded inPhase
  | lock permits rows inPhase =>
      exact kept.proceed (by rw [inPhase]; rfl) trivial
  | spawn permit permits row rows inPhase => exact kept.spawn inPhase
  | finishSpawn => exact kept.leave (fun _ => rfl) trivial
  | endTask before after task shape => exact kept.endTask shape

end Step

/-! ## The limit -/

section Limit

variable {T : Type} {worker : Worker T} {finish : PollState T}
  {trace : List (Transition (PollState T) PollLabel)}

theorem keysKept_of_run
    (run : Run (PollState.Step worker) worker.initial trace finish) :
    finish.KeysKept worker := by
  refine run.invariant (fun state => state.KeysKept worker) ?_ ?_
  · refine ⟨fun _ member => (List.not_mem_nil member).elim, ?_, ?_, trivial⟩
    · intro key limit configured
      exact lookup_initialCounter configured
    · intro key limit configured
      exact Nat.zero_le _
  · intro source label target kept taken
    exact kept.step taken

/-- None of the saturating operations of the step saturates: the subtraction of
the snapshot, the addition of `acquire`, the subtraction of `drop`. -/
def NeverSaturates (worker : Worker T)
    (taken : Transition (PollState T) PollLabel) : Prop :=
  match taken.label with
  | .snapshot =>
      ∀ key limit, worker.concurrencyLimits.lookup key = some limit →
        ∃ count, taken.source.running.lookup key = some count ∧
          count ≤ limit
  | .spawn =>
      ∀ job ∈ spawnedJobs taken, ∀ key, worker.slotFor job = some key →
        ∃ count, taken.source.running.lookup key = some count ∧
          count + 1 ≤ u32Max
  | .endTask index =>
      ∀ task, taken.source.tasks[index]? = some task →
        ∀ key, task.slot = some key →
          ∃ count, taken.source.running.lookup key = some count ∧ 1 ≤ count
  | _ => True

theorem PollState.KeysKept.spawn_below
    {state : PollState T} {permit : Nat} {permits : List Nat} {row : Job T}
    {rows : List (Job T)} {key : String} (kept : state.KeysKept worker)
    (inPhase : state.phase = .spawning (permit :: permits) (row :: rows))
    (slot : worker.slotFor row = some key) :
    ∃ count, state.running.lookup key = some count ∧ count + 1 ≤ u32Max := by
  obtain ⟨carries, limit, configured⟩ := Worker.slotFor_eq_some_iff.mp slot
  have bounded := kept.bounded key limit configured
  have limits := worker.limitsAccepted key limit configured
  have small : i32Max < u32Max := by decide
  rw [inPhase] at bounded
  simp only [Phase.reserved, Phase.promised, Phase.raws, Phase.jobs,
    List.countP_cons, carries, beq_self_eq_true, if_true] at bounded
  exact ⟨_, kept.counted key limit configured, by omega⟩

theorem PollState.KeysKept.live_pos
    {state : PollState T} {task : Task T} {key : String}
    (kept : state.KeysKept worker) (member : task ∈ state.tasks)
    (slot : task.slot = some key) :
    ∃ count, state.running.lookup key = some count ∧ 1 ≤ count := by
  rw [kept.slots task member] at slot
  obtain ⟨carries, limit, configured⟩ := Worker.slotFor_eq_some_iff.mp slot
  refine ⟨_, kept.counted key limit configured, ?_⟩
  exact List.countP_pos_iff.mpr ⟨task, member, by simp [carries]⟩

/-- In every reachable state the counter of a configured key is the number of
live tasks that carry it, that number is within the limit, and no step of the
run saturates the counter. -/
theorem key_limit_holds
    (run : Run (PollState.Step worker) worker.initial trace finish) :
    (∀ key limit, worker.concurrencyLimits.lookup key = some limit →
      finish.running.lookup key = some (liveOf finish.tasks key) ∧
        liveOf finish.tasks key ≤ limit) ∧
    ∀ taken ∈ trace, NeverSaturates worker taken := by
  have kept := keysKept_of_run run
  refine ⟨?_, ?_⟩
  · intro key limit configured
    have bounded := kept.bounded key limit configured
    exact ⟨kept.counted key limit configured, by omega⟩
  · intro taken member
    obtain ⟨before, reached, step⟩ := run.reaches_source member
    have source := keysKept_of_run reached
    obtain ⟨state, label, target⟩ := taken
    change PollState.Step worker state label target at step
    change state.KeysKept worker at source
    cases step with
    | snapshot permits inPhase =>
        intro key limit configured
        have bounded := source.bounded key limit configured
        exact ⟨_, source.counted key limit configured, by omega⟩
    | spawn permit permits row rows inPhase =>
        intro job isSpawned key slot
        have isRow : job = row := by
          simpa [spawnedJobs, inPhase, Phase.jobs] using isSpawned
        rw [isRow] at slot
        exact source.spawn_below inPhase slot
    | endTask before after task shape =>
        intro ended atIndex key slot
        refine source.live_pos ?_ slot
        exact List.mem_of_getElem? atIndex
    | _ => trivial

end Limit

/-- The tick with one slot for the key: one live task of the key was spawned
and has ended. -/
theorem key_limit_holds_on_limitedTick :
    ∃ (trace : List (Transition (PollState Unit) PollLabel))
      (finish : PollState Unit),
      trace.flatMap spawnedJobs =
          [LimitedTick.job 1 (some "a"), LimitedTick.job 3 (some "b")] ∧
        (∀ key limit,
          LimitedTick.worker.concurrencyLimits.lookup key = some limit →
            finish.running.lookup key = some (liveOf finish.tasks key) ∧
              liveOf finish.tasks key ≤ limit) ∧
        ∀ taken ∈ trace, NeverSaturates LimitedTick.worker taken := by
  obtain ⟨trace, finish, run, _, _, spawned⟩ := LimitedTick.exists_run
  obtain ⟨limits, saturates⟩ := key_limit_holds run
  exact ⟨trace, finish, spawned, limits, saturates⟩

end PgWorkQueue
