import PgWorkQueue.Client.Knobs
import PgWorkQueue.System.Exclusion

/-!
# A fleet in real time

`build` relates the lease to the timeouts of a worker: `handler_timeout` and a
second, and `handler_timeout` and `mark_timeout`, fit in a lease.  Here time is
added to the fleet.  Postgres reads the time as its `now()`; the workers only
measure how long something takes.  Two things are assumed of the runtime, each
up to a given lateness: a task starts soon after its row was claimed, and no
task outlives its timeouts.

Times are in microseconds, as in Postgres, and durations in nanoseconds.
-/

namespace PgWorkQueue

open Library.Runs

/-! ## Time -/

/-- The workers of a fleet as `build` returned them, and their identities. -/
structure BuiltFleet (T : Type) where
  worker : Nat → BuiltWorker T
  workerId : Nat → Uuid

def BuiltFleet.started {T : Type} (built : BuiltFleet T) : Fleet T where
  worker := fun index => (built.worker index).start (built.workerId index)
  maxAttemptsPos := fun index => (built.worker index).maxAttemptsPos

/-- How late the runtime is at most: how much of its lease has passed when a
task starts, and by how much a timeout is missed. -/
structure Lateness where
  start : Nat
  stop : Nat

/-- How long after its start a task may be in a stage: `handler_timeout` while
it awaits the handler, and `mark_timeout` more while it awaits a mark. -/
def Stage.allowance {T : Type} (worker : BuiltWorker T) : Stage → Option Nat
  | handling => some worker.handlerTimeout.nanos
  | marking _ => some (worker.handlerTimeout.nanos + worker.markTimeout.nanos)
  | executed _ _ | ended _ => none

/-- A task that starts at this time starts with its lease almost whole. -/
def Entry.Prompt {T : Type} (worker : BuiltWorker T) (lateness : Lateness)
    (began : Int) (entry : Entry T) : Prop :=
  1000 * began + worker.leaseTimeout.nanos ≤
    1000 * (entry.job.leaseExpiresAt + lateness.start)

/-- A task that began at this time has not outlived its timeouts. -/
def Entry.Punctual {T : Type} (worker : BuiltWorker T) (lateness : Lateness)
    (time began : Int) (entry : Entry T) : Prop :=
  ∀ allowance, entry.stage.allowance worker = some allowance →
    1000 * time ≤ 1000 * (began + lateness.stop) + allowance

/-- A fleet, the time, and when the tasks of each replica began. -/
structure TimedState (T : Type) where
  fleet : FleetState T
  time : Int
  begun : Nat → List Int

inductive TimedLabel where
  | act
  | pass

namespace TimedState

variable {T : Type}

/-- The tasks that a step of the fleet has spawned. -/
def spawned (source target : FleetState T) (index : Nat) : List (Entry T) :=
  (target.worker index).entries.drop (source.worker index).entries.length

inductive Step (built : BuiltFleet T) (lateness : Lateness) :
    TimedState T → TimedLabel → TimedState T → Prop
  /-- A step of the fleet takes no time. -/
  | act (source : TimedState T) (label : FleetLabel T) (target : FleetState T)
      (taken : FleetState.Step built.started source.fleet label target)
      (atOnce : ∀ event, label.event = some event → event.now = source.time)
      (prompt : ∀ index, ∀ entry ∈ spawned source.fleet target index,
        entry.Prompt (built.worker index) lateness source.time) :
      Step built lateness source .act
        { fleet := target
          time := source.time
          begun := fun index => source.begun index ++
            (spawned source.fleet target index).map fun _ => source.time }
  /-- Time passes, but not past the end of a timeout. -/
  | pass (source : TimedState T) (time : Int) (later : source.time ≤ time)
      (punctual : ∀ index, List.Forall₂
        (Entry.Punctual (built.worker index) lateness time)
        (source.begun index) (source.fleet.worker index).entries) :
      Step built lateness source .pass { source with time := time }

/-- Every replica just started. -/
def initial (built : BuiltFleet T) (clock : Int) : TimedState T where
  fleet := built.started.initial clock
  time := clock
  begun := fun _ => []

end TimedState

/-! ## What a step does to a task -/

section Tasks

variable {T : Type} {worker : StartedWorker T} {source target : WorkerState T}
  {label : WorkerLabel}

/-- The task goes on with the same job and has no less time left. -/
structure Entry.Continues (built : BuiltWorker T) (old new : Entry T) :
    Prop where
  job : new.job = old.job
  allowance : ∀ allowance, new.stage.allowance built = some allowance →
    ∃ less ≤ allowance, old.stage.allowance built = some less

theorem Entry.Continues.refl (built : BuiltWorker T) (entry : Entry T) :
    entry.Continues built entry where
  job := rfl
  allowance := fun allowance current => ⟨allowance, le_refl _, current⟩

/-- From awaiting the handler a task goes to awaiting a mark, and on. -/
theorem Entry.continues_after {entry : Entry T} {progress : Progress}
    (built : BuiltWorker T) (advances : entry.Advances worker progress) :
    entry.Continues built (entry.after progress) where
  job := rfl
  allowance := by
    intro allowance current
    change progress.stage.allowance built = some allowance at current
    cases advances with
    | handled behaviour backoffNext inStage =>
        refine ⟨built.handlerTimeout.nanos, ?_, by rw [inStage]; rfl⟩
        cases issued : handleJobOf ⟨backoffNext, worker.pollInterval⟩
            worker.panicPolicy entry.job.attempts entry.job.maxAttempts
            behaviour with
        | none =>
            rw [issued] at current
            cases current
        | some mark =>
            rw [issued] at current
            cases current
            exact Nat.le_add_right _ _
    | innerCancelled inStage => cases current
    | executed mark jobs now inStage => cases current
    | settled mark answer answers => cases current
    | cancelled requested awaits => cases current

theorem forall₂_continues_refl (built : BuiltWorker T)
    (entries : List (Entry T)) :
    List.Forall₂ (Entry.Continues built) entries entries :=
  List.forall₂_same.mpr fun entry _ => Entry.Continues.refl built entry

theorem forall₂_continues_middle {before after : List (Entry T)}
    {old new : Entry T} (built : BuiltWorker T)
    (continues : old.Continues built new) :
    List.Forall₂ (Entry.Continues built) (before ++ old :: after)
      (before ++ new :: after) :=
  List.rel_append (forall₂_continues_refl built before)
    (.cons continues (forall₂_continues_refl built after))

/-- The tasks of a worker stay where they are in the record; new ones come at
its end. -/
theorem WorkerState.exists_continues (built : BuiltWorker T)
    (taken : WorkerState.Step worker source label target) :
    ∃ kept new, target.entries = kept ++ new ∧
      List.Forall₂ (Entry.Continues built) source.entries kept := by
  cases taken with
  | spawn permit permits row rows inPhase =>
      exact ⟨_, _, rfl, forall₂_continues_refl built _⟩
  | task before entry after progress shape advances goesOn =>
      refine ⟨_, [], (List.append_nil _).symm, ?_⟩
      rw [shape]
      exact forall₂_continues_middle built
        (Entry.continues_after built advances)
  | endTask before entry after progress loop shape advances ends released =>
      refine ⟨_, [], (List.append_nil _).symm, ?_⟩
      rw [shape]
      exact forall₂_continues_middle built
        (Entry.continues_after built advances)
  | join before entry after how inPhase shape unjoined hasEnded =>
      refine ⟨_, [], (List.append_nil _).symm, ?_⟩
      rw [shape]
      refine forall₂_continues_middle built ⟨rfl, ?_⟩
      intro allowance current
      exact ⟨allowance, le_refl _, current⟩
  | abortAll inPhase noneReady remains =>
      refine ⟨_, [], (List.append_nil _).symm, ?_⟩
      apply List.forall₂_map_right_iff.mpr
      apply List.forall₂_same.mpr
      intro entry _
      refine ⟨rfl, ?_⟩
      intro allowance current
      exact ⟨allowance, le_refl _, current⟩
  | _ =>
      exact ⟨_, [], (List.append_nil _).symm, forall₂_continues_refl built _⟩

end Tasks

/-! ## What holds at any time -/

section Lists

variable {First Second Third : Type} {left right : First → Second → Prop}
  {firsts : List First} {seconds : List Second}

theorem forall₂_through {middle : Second → Third → Prop}
    {outer : First → Third → Prop} {thirds : List Third}
    (first : List.Forall₂ left firsts seconds)
    (second : List.Forall₂ middle seconds thirds)
    (through : ∀ x y z, left x y → middle y z → outer x z) :
    List.Forall₂ outer firsts thirds := by
  induction first generalizing thirds with
  | nil =>
      cases second
      exact .nil
  | cons related _ inductionHypothesis =>
      cases second with
      | cons further others =>
          exact .cons (through _ _ _ related further)
            (inductionHypothesis others)

theorem exists_of_forall₂ {item : Second}
    (first : List.Forall₂ left firsts seconds)
    (second : List.Forall₂ right firsts seconds) (listed : item ∈ seconds) :
    ∃ partner, left partner item ∧ right partner item := by
  induction first with
  | nil => cases listed
  | cons related _ inductionHypothesis =>
      cases second with
      | cons alsoRelated others =>
          rcases List.mem_cons.mp listed with rfl | later
          · exact ⟨_, related, alsoRelated⟩
          · exact inductionHypothesis others later

end Lists

namespace TimedState

variable {T : Type} {built : BuiltFleet T} {lateness : Lateness}
  {source target state : TimedState T} {label : TimedLabel} {clock : Int}
  {trace : List (Transition (TimedState T) TimedLabel)}

/-- The invariant. -/
structure Timely (built : BuiltFleet T) (lateness : Lateness)
    (state : TimedState T) : Prop where
  clock : state.fleet.db.clock ≤ state.time
  prompt : ∀ index, List.Forall₂
    (fun began entry => entry.Prompt (built.worker index) lateness began)
    (state.begun index) (state.fleet.worker index).entries
  punctual : ∀ index, List.Forall₂
    (Entry.Punctual (built.worker index) lateness state.time)
    (state.begun index) (state.fleet.worker index).entries

/-- What the record of a replica is after a step of the fleet. -/
theorem exists_spawned {first second : FleetState T} {label : FleetLabel T}
    (taken : FleetState.Step built.started first label second)
    (index : Nat) :
    ∃ kept, (second.worker index).entries =
        kept ++ spawned first second index ∧
      List.Forall₂ (Entry.Continues (built.worker index))
        (first.worker index).entries kept := by
  have record : ∃ kept new, (second.worker index).entries = kept ++ new ∧
      List.Forall₂ (Entry.Continues (built.worker index))
        (first.worker index).entries kept := by
    rcases FleetState.worker_of_step taken index with same | ⟨_, step⟩
    · rw [same]
      exact ⟨_, [], (List.append_nil _).symm, forall₂_continues_refl _ _⟩
    · exact WorkerState.exists_continues _ step
  obtain ⟨kept, new, shape, continues⟩ := record
  refine ⟨kept, ?_, continues⟩
  rw [spawned, shape, continues.length_eq, List.drop_left]

theorem clock_of_step {first second : FleetState T} {label : FleetLabel T}
    (taken : FleetState.Step built.started first label second) {time : Int}
    (before : first.db.clock ≤ time)
    (atOnce : ∀ event, label.event = some event → event.now = time) :
    second.db.clock ≤ time := by
  cases visible : label.event with
  | none =>
      rw [taken.db_of_inside visible]
      exact before
  | some event =>
      rw [taken.db_of_statement visible]
      exact (atOnce event visible).le

theorem Timely.step (timely : source.Timely built lateness)
    (taken : Step built lateness source label target) :
    target.Timely built lateness := by
  cases taken with
  | act label target taken atOnce prompt =>
      refine ⟨clock_of_step taken timely.clock atOnce, ?_, ?_⟩
      · intro index
        obtain ⟨kept, shape, continues⟩ := exists_spawned taken index
        change List.Forall₂ _ (_ ++ _) (target.worker index).entries
        rw [shape]
        apply List.rel_append
        · apply forall₂_through (timely.prompt index) continues
          intro began old new wasPrompt goesOn
          rw [Entry.Prompt, goesOn.job]
          exact wasPrompt
        · apply List.forall₂_map_left_iff.mpr
          exact List.forall₂_same.mpr (prompt index)
      · intro index
        obtain ⟨kept, shape, continues⟩ := exists_spawned taken index
        change List.Forall₂ _ (_ ++ _) (target.worker index).entries
        rw [shape]
        apply List.rel_append
        · apply forall₂_through (timely.punctual index) continues
          intro began old new wasPunctual goesOn allowance current
          obtain ⟨less, within, before⟩ := goesOn.allowance allowance current
          have bound := wasPunctual less before
          change 1000 * source.time ≤ _
          omega
        · apply List.forall₂_map_left_iff.mpr
          apply List.forall₂_same.mpr
          intro entry _ allowance _
          change 1000 * source.time ≤ _
          omega
  | pass time later punctual =>
      exact ⟨timely.clock.trans later, timely.prompt, punctual⟩

theorem timely_of_run
    (run : Run (Step built lateness) (initial built clock) trace state) :
    state.Timely built lateness := by
  apply run.invariant (Timely built lateness)
  · refine ⟨le_refl clock, ?_, ?_⟩
    · intro index
      exact .nil
    · intro index
      exact .nil
  · intro source label target timely taken
    exact timely.step taken

/-- Without the time, a run is one of the fleet. -/
theorem exists_fleet_run
    (run : Run (Step built lateness) (initial built clock) trace state) :
    ∃ image, Run (FleetState.Step built.started) (built.started.initial clock)
      image state.fleet := by
  apply run.exists_image TimedState.fleet
  intro history source label target earlier taken
  cases taken with
  | act label target taken atOnce prompt => exact Or.inr ⟨label, taken⟩
  | pass time later punctual => exact Or.inl rfl

/-- A task whose timeouts fit in its lease, with what the runtime is late, has
its lease. -/
theorem Timely.inTime (timely : state.Timely built lateness) {index : Nat}
    {task : Entry T} {allowance : Nat}
    (listed : task ∈ (state.fleet.worker index).entries)
    (current : task.stage.allowance (built.worker index) = some allowance)
    (fits : allowance + 1000 * (lateness.start + lateness.stop) ≤
      (built.worker index).leaseTimeout.nanos) :
    state.time ≤ task.job.leaseExpiresAt := by
  obtain ⟨began, prompt, punctual⟩ :=
    exists_of_forall₂ (timely.prompt index) (timely.punctual index) listed
  have bound := punctual allowance current
  unfold Entry.Prompt at prompt
  omega

/-! ### Many steps at one time -/

theorem entries_le_of_run {first second : FleetState T}
    {steps : List (Transition (FleetState T) (FleetLabel T))}
    (run : Run (FleetState.Step built.started) first steps second)
    (index : Nat) :
    (first.worker index).entries.length ≤
      (second.worker index).entries.length := by
  apply run.invariant (fun state => (first.worker index).entries.length ≤
    (state.worker index).entries.length) (le_refl _)
  intro source label target before taken
  obtain ⟨kept, shape, continues⟩ := exists_spawned taken index
  rw [shape, List.length_append, ← continues.length_eq]
  exact before.trans (Nat.le_add_right _ _)

/-- What a run and one more step have spawned. -/
theorem spawned_snoc {first middle last : FleetState T}
    {label : FleetLabel T}
    {steps : List (Transition (FleetState T) (FleetLabel T))}
    (run : Run (FleetState.Step built.started) first steps middle)
    (taken : FleetState.Step built.started middle label last)
    (index : Nat) :
    ∃ kept, spawned first last index = kept ++ spawned middle last index ∧
      (spawned first middle index).map Entry.job = kept.map Entry.job := by
  obtain ⟨kept, shape, continues⟩ := exists_spawned taken index
  have within := entries_le_of_run run index
  rw [continues.length_eq] at within
  refine ⟨kept.drop (first.worker index).entries.length, ?_, ?_⟩
  · rw [spawned, shape, List.drop_append_of_le_length within]
  · have sameJobs : List.Forall₂ Eq
        ((spawned first middle index).map Entry.job)
        ((kept.drop (first.worker index).entries.length).map Entry.job) := by
      apply List.forall₂_map_left_iff.mpr
      apply List.forall₂_map_right_iff.mpr
      apply (List.forall₂_drop _ continues).imp
      intro old new goesOn
      exact goesOn.job.symm
    rwa [List.forall₂_eq_eq_eq] at sameJobs

/-- A run of the fleet during which the clock stands still is a run in real
time, if the tasks that it spawns start promptly. -/
theorem exists_run_at_once {last : FleetState T}
    {steps : List (Transition (FleetState T) (FleetLabel T))}
    (run : Run (FleetState.Step built.started) source.fleet steps last)
    (before : source.fleet.db.clock = source.time)
    (after : last.db.clock = source.time)
    (prompt : ∀ index, ∀ entry ∈ spawned source.fleet last index,
      entry.Prompt (built.worker index) lateness source.time) :
    ∃ image, Run (Step built lateness) source image
      { fleet := last
        time := source.time
        begun := fun index => source.begun index ++
          (spawned source.fleet last index).map fun _ => source.time } := by
  induction run with
  | refl =>
      refine ⟨[], ?_⟩
      simp only [spawned, List.drop_length, List.map_nil, List.append_nil]
      exact Run.refl
  | @snoc steps middle last label earlier taken inductionHypothesis =>
      have reached := FleetState.clock_le_of_run earlier
      have stays := taken.clock_le
      have promptBefore : ∀ index, ∀ entry ∈ spawned source.fleet middle index,
          entry.Prompt (built.worker index) lateness source.time := by
        intro index entry member
        obtain ⟨kept, shape, sameJobs⟩ := spawned_snoc earlier taken index
        have listed := sameJobs ▸ List.mem_map_of_mem (f := Entry.job) member
        obtain ⟨later, further, sameJob⟩ := List.mem_map.mp listed
        have isPrompt := prompt index later
          (shape ▸ List.mem_append_left _ further)
        rw [Entry.Prompt, sameJob] at isPrompt
        exact isPrompt
      obtain ⟨image, timed⟩ := inductionHypothesis (by omega) promptBefore
      have atOnce : ∀ event, label.event = some event →
          event.now = source.time := by
        intro event visible
        rw [taken.db_of_statement visible] at after
        exact after
      have promptNow : ∀ index, ∀ entry ∈ spawned middle last index,
          entry.Prompt (built.worker index) lateness source.time := by
        intro index entry member
        obtain ⟨kept, shape, _⟩ := spawned_snoc earlier taken index
        exact prompt index entry (shape ▸ List.mem_append_right _ member)
      have next := timed.snoc (Step.act _ label last taken atOnce promptNow)
      have begun (index : Nat) : source.begun index ++
          (spawned source.fleet middle index).map (fun _ => source.time) ++
          (spawned middle last index).map (fun _ => source.time) =
            source.begun index ++
              (spawned source.fleet last index).map fun _ => source.time := by
        obtain ⟨kept, shape, sameJobs⟩ := spawned_snoc earlier taken index
        have sameLength := congrArg List.length sameJobs
        rw [List.length_map, List.length_map] at sameLength
        simp only [shape, List.map_append, List.append_assoc, List.map_const',
          sameLength]
      simp only [begun] at next
      exact ⟨_, next⟩

end TimedState

/-- In a fleet of workers that `build` accepted no two tasks await the handler
of one job at the same time, as long as the starts and the stops of tasks are
late by no more than a second in all. -/
theorem one_handler_at_a_time {T : Type} {built : BuiltFleet T}
    {lateness : Lateness} {state : TimedState T} {clock : Int}
    {trace : List (Transition (TimedState T) TimedLabel)}
    (margin : lateness.start + lateness.stop ≤ 1000000)
    (run : Run (TimedState.Step built lateness) (.initial built clock) trace
      state)
    {index other first second : Nat} {task rival : Entry T}
    (isTask : (state.fleet.worker index).entries[first]? = some task)
    (isRival : (state.fleet.worker other).entries[second]? = some rival)
    (sameJob : task.job.id = rival.job.id)
    (working : task.stage = .handling)
    (rivalWorking : rival.stage = .handling) :
    (index, first) = (other, second) := by
  have timely := TimedState.timely_of_run run
  obtain ⟨_, fleetRun⟩ := TimedState.exists_fleet_run run
  -- Either task holds the row, so they hold it under one token.
  have holds {place position : Nat} {entry : Entry T}
      (listed : (state.fleet.worker place).entries[position]? = some entry)
      (handling : entry.stage = .handling) :
      state.fleet.db.leases.holder entry.job.id =
        some (entry.job.leaseToken, entry.job.leaseExpiresAt) := by
    have member := List.mem_of_getElem? listed
    have current : entry.stage.allowance (built.worker place) =
        some (built.worker place).handlerTimeout.nanos := by
      rw [handling]
      rfl
    have fits := (built.worker place).handlerMargin
    rw [nanos_fromSecs_one] at fits
    have inTime := timely.inTime member current (by omega)
    exact FleetState.holder_of_task fleetRun member (by rw [handling]; rfl)
      (timely.clock.trans inTime)
  have held := holds isTask working
  have rivalHeld := holds isRival rivalWorking
  rw [sameJob, rivalHeld, Option.some.injEq, Prod.mk.injEq] at held
  obtain ⟨sameReplica, samePosition⟩ :=
    (FleetState.distinct_of_run fleetRun).same_position isTask isRival
      (Prod.ext sameJob held.1.symm)
  exact Prod.ext sameReplica samePosition

/-! ### A worker that takes half a minute

A job is pushed and claimed at time 0; its handler works for twenty seconds. -/

namespace HalfMinute

theorem batchSize_min : 1 ≤ 1 := le_refl 1

theorem batchSize_max : 1 ≤ 1000 := by decide

theorem concurrency_pos : 0 < 1 := by decide

theorem maxAttempts_pos : 0 < 2 := by decide

def worker : BuiltWorker Unit where
  queue := "mail"
  codec := LateMark.pusher.codec
  maxAttempts := 2
  leaseTimeout := .fromSecs 30
  batchSize := 1
  concurrency := 1
  concurrencyLimits := ∅
  batchSizeMin := batchSize_min
  batchSizeMax := batchSize_max
  concurrencyPos := concurrency_pos
  limitsAccepted := OneSlot.noLimits
  pool := ⟨4⟩
  retryBackoff := .default
  panicPolicy := .retry
  pollInterval := .fromSecs 1
  handlerTimeout := .fromSecs 24
  markTimeout := .fromSecs 5
  reaperInterval := .fromSecs 10
  queueAccepted := by decide
  maxAttemptsPos := maxAttempts_pos
  leaseForReaper := by decide
  pollFloor := by decide
  pollsPerLease := by
    intro minLease product
    cases product
    decide
  poolLargeEnough := by decide
  handlerFloor := by decide
  handlerMargin := by decide
  markFloor := by decide
  markBudget := by decide
  reaperFloor := by decide
  reaperCeiling := by decide

def built : BuiltFleet Unit where
  worker := fun _ => worker
  workerId := fun index => ⟨index⟩

/-- Half a second late to start, and half a second late to stop. -/
def lateness : Lateness := ⟨500000, 500000⟩

def job : Job Unit where
  id := 1
  publicId := ⟨7⟩
  queue := "mail"
  concurrencyKey := none
  payload := ()
  attempts := 1
  maxAttempts := 2
  firstAttemptedAt := 0
  leaseToken := ⟨1⟩
  leaseExpiresAt := 30000000

def raw : RawClaimedRow where
  id := 1
  publicId := ⟨7⟩
  queue := "mail"
  concurrencyKey := none
  payload := []
  attempts := 1
  maxAttempts := 2
  firstAttemptedAt := 0
  leaseToken := ⟨1⟩
  leaseExpiresAt := 30000000

def started : StartedWorker Unit := worker.start ⟨0⟩

def pushed : FleetState Unit :=
  (built.started.initial 0).send ⟨0, .push LateMark.pusher ⟨7⟩ () none⟩

def database : Database where
  jobs := pushed.db.jobs
  now := 0
  gen := fun _ => ⟨1⟩
  lockedElsewhere := fun _ => false

/-- The first replica with the task of the job. -/
def busy : WorkerState Unit :=
  { started.initial with
    loop :=
      { started.toWorker.initial with
        phase := .spawning [] []
        free := []
        tasks := [⟨job, 0, none⟩] }
    entries := [Entry.spawned job] }

def working : FleetState Unit :=
  (pushed.setWorker 0 busy).send (database.claimEvent started.toWorker 1 ∅)

theorem run_working :
    ∃ trace, Run (FleetState.Step built.started) (built.started.initial 0)
      trace working := by
  have start : Run (FleetState.Step built.started) (built.started.initial 0) []
      (built.started.initial 0) := Run.refl
  have isPushed : Run (FleetState.Step built.started) _ _ pushed :=
    start.snoc (.client _ _ rfl ⟨by decide, by decide⟩)
  have ticked := isPushed.snoc
    (.inside _ 0 _ _ (.poll _ _ _ (.tick _ rfl) rfl rfl) rfl)
  have acquired := ticked.snoc
    (.inside _ 0 _ _ (.poll _ _ _ (.acquire _ 0 [] rfl rfl) rfl rfl) rfl)
  have ready := acquired.snoc (.inside _ 0 _ _
    (.poll _ _ _ (.gathered _ [0] rfl (Or.inr rfl)) rfl rfl) rfl)
  have claiming := ready.snoc
    (.inside _ 0 _ _ (.poll _ _ _ (.snapshot _ [0] rfl) rfl rfl) rfl)
  have sent := claiming.snoc
    (.inside _ 0 _ _ (.poll _ _ _ (.send _ [0] _ rfl) rfl rfl) rfl)
  have answered := sent.snoc (.poll _ 0 _ _ _ (.execute _ [0] ∅ database rfl)
    (.claim [0] ∅ database rfl rfl) ⟨by decide, by decide⟩)
  have received := answered.snoc (.inside _ 0 _ _
    (.poll _ _ _ (.receive _ [0] [raw] rfl) rfl rfl) rfl)
  have decoding := received.snoc (.inside _ 0 _ _
    (.poll _ _ _ (.decode _ [0] raw [] [] job rfl rfl) rfl rfl) rfl)
  have batch := decoding.snoc (.inside _ 0 _ _
    (.poll _ _ _ (.finishDecode _ [0] [job] rfl) rfl rfl) rfl)
  have locked := batch.snoc (.inside _ 0 _ _
    (.poll _ _ _ (.lock _ [0] [job] rfl) rfl rfl) rfl)
  have spawned := locked.snoc
    (.inside _ 0 _ _ (.spawn _ 0 [] job [] rfl) rfl)
  simp only [FleetState.setWorker_send, FleetState.setLoop,
    FleetState.setWorker_setWorker] at spawned
  exact ⟨_, spawned⟩

/-- The replicas at a time, with every task begun at time 0. -/
def timed (fleet : FleetState Unit) (time : Int) : TimedState Unit where
  fleet := fleet
  time := time
  begun := fun index => (fleet.worker index).entries.map fun _ => 0

theorem run_claimed :
    ∃ trace, Run (TimedState.Step built lateness) (.initial built 0) trace
      (timed working 0) := by
  obtain ⟨_, run⟩ := run_working
  have prompt : ∀ index,
      ∀ entry ∈ TimedState.spawned (built.started.initial 0) working index,
        entry.Prompt (built.worker index) lateness 0 := by
    intro index entry member
    cases index with
    | zero =>
        rw [List.mem_singleton.mp member]
        unfold Entry.Prompt
        decide
    | succ => cases member
  have fromInitial : Run (FleetState.Step built.started)
      (TimedState.initial built 0).fleet _ working := run
  exact TimedState.exists_run_at_once fromInitial rfl rfl prompt

/-- The handler has been at work for twenty seconds. -/
def afterTwenty : TimedState Unit := timed working 20000000

theorem run_afterTwenty :
    ∃ trace, Run (TimedState.Step built lateness) (.initial built 0) trace
      afterTwenty := by
  obtain ⟨_, run⟩ := run_claimed
  refine ⟨_, run.snoc (.pass _ 20000000 (by decide) ?_)⟩
  intro index
  cases index with
  | zero =>
      refine .cons ?_ .nil
      intro allowance current
      cases current
      decide
  | succ => exact .nil

end HalfMinute

/-- Whoever else works on the job after twenty seconds is the first task. -/
theorem one_handler_after_twenty :
    let state := HalfMinute.afterTwenty
    (∃ trace, Run (TimedState.Step HalfMinute.built HalfMinute.lateness)
        (.initial HalfMinute.built 0) trace state) ∧
      (state.fleet.worker 0).entries[0]? =
        some (Entry.spawned HalfMinute.job) ∧
      ∀ other second rival,
        (state.fleet.worker other).entries[second]? = some rival →
        rival.job.id = 1 → rival.stage = .handling →
        (0, 0) = (other, second) := by
  intro state
  obtain ⟨trace, run⟩ := HalfMinute.run_afterTwenty
  have isTask : (state.fleet.worker 0).entries[0]? =
      some (Entry.spawned HalfMinute.job) := rfl
  refine ⟨⟨trace, run⟩, isTask, ?_⟩
  intro other second rival isRival sameJob working
  exact one_handler_at_a_time (by decide) run isTask isRival sameJob.symm rfl
    working

/-- If the timeouts of a worker and the lateness of the runtime fit in its
lease, then every mark that is executed while its task still awaits it moves
the row, unless Postgres does not accept it. -/
theorem no_mark_is_fenced_out_in_time {T : Type} {built : BuiltFleet T}
    {lateness : Lateness} {state : TimedState T} {clock : Int}
    {trace : List (Transition (TimedState T) TimedLabel)}
    (run : Run (TimedState.Step built lateness) (.initial built clock) trace
      state)
    {index : Nat} {task : Entry T} {mark : Mark}
    (fits : (built.worker index).handlerTimeout.nanos +
        (built.worker index).markTimeout.nanos +
        1000 * (lateness.start + lateness.stop) ≤
      (built.worker index).leaseTimeout.nanos)
    (listed : task ∈ (state.fleet.worker index).entries)
    (inStage : task.stage = .marking mark) :
    (mark.Accepted state.time ∧ ∃ updated row,
      sendMark state.time task.job mark state.fleet.db.jobs =
          (updated, .affected 1) ∧
        updated.find task.job.id = some row ∧ row.status = mark.status) ∨
    (¬ mark.Accepted state.time ∧
      sendMark state.time task.job mark state.fleet.db.jobs =
        (state.fleet.db.jobs, .failed)) := by
  have timely := TimedState.timely_of_run run
  obtain ⟨_, fleetRun⟩ := TimedState.exists_fleet_run run
  have inTime := timely.inTime listed (by rw [inStage]; rfl) fits
  apply FleetState.sendMark_of_holder fleetRun listed inStage timely.clock
  exact FleetState.holder_of_task fleetRun listed (by rw [inStage]; rfl)
    (timely.clock.trans inTime)

namespace HalfMinute

/-- The task with its `mark_done` on the way. -/
def markingTask : Entry Unit :=
  { Entry.spawned job with stage := .marking .done }

/-- The handler has succeeded after twenty seconds. -/
def succeeded : FleetState Unit :=
  working.setWorker 0 { busy with entries := [markingTask] }

/-- The mark has been on the way for four seconds. -/
def afterTwentyFour : TimedState Unit := timed succeeded 24000000

theorem run_afterTwentyFour :
    ∃ trace, Run (TimedState.Step built lateness) (.initial built 0) trace
      afterTwentyFour := by
  obtain ⟨_, run⟩ := run_afterTwenty
  have taken : FleetState.Step built.started working (.inside 0) succeeded :=
    .task _ 0 [] (Entry.spawned job) [] _ rfl
      (.handled (.returns (.ok ())) (fun _ => Duration.tenMicros) rfl) rfl rfl
  have nothingSpawned (index : Nat) :
      TimedState.spawned working succeeded index = [] := by
    cases index <;> rfl
  have prompt : ∀ index,
      ∀ entry ∈ TimedState.spawned afterTwenty.fleet succeeded index,
        entry.Prompt (built.worker index) lateness afterTwenty.time := by
    intro index entry member
    have member : entry ∈ TimedState.spawned working succeeded index := member
    rw [nothingSpawned] at member
    cases member
  have unseen : ∀ event, (FleetLabel.inside (T := Unit) 0).event = some event →
      event.now = afterTwenty.time := by
    intro event visible
    cases visible
  have acted := run.snoc (.act _ _ succeeded taken unseen prompt)
  have sameBegun : (fun index => afterTwenty.begun index ++
      (TimedState.spawned afterTwenty.fleet succeeded index).map
        fun _ => afterTwenty.time) = afterTwentyFour.begun := by
    funext index
    cases index <;> rfl
  rw [sameBegun] at acted
  refine ⟨_, acted.snoc (.pass _ 24000000 (by decide) ?_)⟩
  intro index
  cases index with
  | zero =>
      refine .cons ?_ .nil
      intro allowance current
      cases current
      decide
  | succ => exact .nil

end HalfMinute

/-- The mark that arrives after twenty-four seconds moves the row. -/
theorem no_mark_fenced_out_after_twentyFour :
    let state := HalfMinute.afterTwentyFour
    let task := HalfMinute.markingTask
    let jobs := state.fleet.db.jobs
    (∃ trace, Run (TimedState.Step HalfMinute.built HalfMinute.lateness)
        (.initial HalfMinute.built 0) trace state) ∧
      task ∈ (state.fleet.worker 0).entries ∧
      ((Mark.done.Accepted 24000000 ∧ ∃ updated row,
        sendMark 24000000 task.job .done jobs = (updated, .affected 1) ∧
          updated.find task.job.id = some row ∧ row.status = .done) ∨
      (¬ Mark.done.Accepted 24000000 ∧
        sendMark 24000000 task.job .done jobs = (jobs, .failed))) := by
  intro state task jobs
  obtain ⟨trace, run⟩ := HalfMinute.run_afterTwentyFour
  have fits : (HalfMinute.built.worker 0).handlerTimeout.nanos +
      (HalfMinute.built.worker 0).markTimeout.nanos +
      1000 * (HalfMinute.lateness.start + HalfMinute.lateness.stop) ≤
        (HalfMinute.built.worker 0).leaseTimeout.nanos := by decide
  have listed : task ∈ (state.fleet.worker 0).entries :=
    List.mem_singleton.mpr rfl
  exact ⟨⟨trace, run⟩, listed,
    no_mark_is_fenced_out_in_time run fits listed rfl⟩

end PgWorkQueue
