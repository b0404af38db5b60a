import PgWorkQueue.System.Fleet
import PgWorkQueue.System.Join
import PgWorkQueue.System.KeyLimits
import PgWorkQueue.System.Overtaking
import PgWorkQueue.System.Recovery

/-!
# What a claim leaves behind

No row of a reachable table makes a claim or a reap of its queue fail, so one
job cannot keep the others of its queue waiting.  And a claim that goes through
leaves a runnable job behind only for want of permits or because the key of the
job is at its limit; rows that other transactions hold locked count as taken.
-/

namespace PgWorkQueue

open Library.Runs Library.CappedScan

/-! ## The headroom of a claim under way -/

section Headroom

variable {T : Type} {worker : Worker T} {state source target : PollState T}
  {label : PollLabel} {given : HashMap Nat}
  {trace : List (Transition (PollState T) PollLabel)}

/-- The headroom that the claim under way was given. -/
def Phase.headroom : Phase T → Option (HashMap Nat)
  | claiming _ headroom | sent _ headroom => some headroom
  | _ => none

theorem PollState.headroom_claimFailed (fatal : Bool) :
    (state.claimFailed fatal).phase.headroom = none := by
  unfold claimFailed
  split
  · rfl
  · split
    · rfl
    · rfl

theorem PollState.headroom_claimSucceeded (rows : List (Job T)) :
    (state.claimSucceeded rows).phase.headroom = none := by
  unfold claimSucceeded
  split
  · rfl
  · rfl

/-- The headroom of a claim comes from the snapshot before it. -/
theorem PollState.Step.headroom (taken : Step worker source label target)
    (asked : target.phase.headroom = some given) :
    source.phase.headroom = some given ∨
      label = .snapshot ∧
        given = headroomSnapshot worker.concurrencyLimits source.running := by
  cases taken with
  | cancel | executeOrphan | executeOrphanMark | loseOrphanMark | endTask =>
      exact Or.inl asked
  | snapshot permits inPhase =>
      cases asked
      exact Or.inr ⟨rfl, rfl⟩
  | send permits headroom inPhase =>
      cases asked
      rw [inPhase]
      exact Or.inl rfl
  | refuse permits headroom fatal inPhase =>
      rw [headroom_claimFailed] at asked
      cases asked
  | receiveError permits failure fatal inPhase =>
      rw [headroom_claimFailed] at asked
      cases asked
  | loseReply permits reply fatal inPhase =>
      rw [headroom_claimFailed] at asked
      cases asked
  | finishDecode permits out inPhase =>
      rw [headroom_claimSucceeded] at asked
      cases asked
  | _ => cases asked

theorem exists_snapshot_of_run
    (run : Run (PollState.Step worker) worker.initial trace state)
    (asked : state.phase.headroom = some given) :
    ∃ running, given = headroomSnapshot worker.concurrencyLimits running := by
  induction run with
  | refl => cases asked
  | @snoc trace middle finish label earlier taken inductionHypothesis =>
      rcases taken.headroom asked with before | ⟨_, fresh⟩
      · exact inductionHypothesis before
      · exact ⟨middle.running, fresh⟩

/-- Until the next snapshot the claim goes by the last one. -/
theorem headroom_since_snapshot {running : HashMap Nat}
    (run : Run (PollState.Step worker) source trace state)
    (latest : ∀ taken ∈ trace, taken.label ≠ .snapshot)
    (snapshot : source.phase.headroom =
      some (headroomSnapshot worker.concurrencyLimits running))
    (asked : state.phase.headroom = some given) :
    given = headroomSnapshot worker.concurrencyLimits running := by
  induction run with
  | refl =>
      rw [snapshot] at asked
      cases asked
      rfl
  | @snoc trace middle finish label earlier taken inductionHypothesis =>
      rcases taken.headroom asked with before | ⟨isSnapshot, _⟩
      · apply inductionHypothesis _ before
        intro transition member
        exact latest transition (List.mem_append_left _ member)
      · exact absurd isSnapshot (latest ⟨middle, label, finish⟩ (by simp))

end Headroom

/-! ## Claims and reaps go through -/

section GoesThrough

variable {T : Type} {fleet : Fleet T} {clock : Int} {state : FleetState T}
  {trace : List (Transition (FleetState T) (FleetLabel T))}

theorem textParam_of_claimBatchRaw {jobs updated : Jobs} {now : Int}
    {gen : Nat → Uuid} {lockedElsewhere : Nat → Bool} {params : ClaimParams}
    {raws : List RawClaimedRow}
    (outcome : claimBatchRaw jobs now gen lockedElsewhere params =
      .ok (updated, raws)) : textParam params.queue = .ok params.queue := by
  cases text : textParam params.queue with
  | error failure =>
      rw [claimBatchRaw, claimStatement, text] at outcome
      cases outcome
  | ok queue =>
      unfold textParam at text
      split at text
      · cases text
      · exact text.symm

/-- In a reachable table every runnable row can be claimed. -/
theorem FleetState.advances_of_run
    (run : Run (Step fleet) (fleet.initial clock) trace state) {now : Int}
    (later : state.db.clock ≤ now) {queue : String} {row : Row}
    (stored : row ∈ state.db.jobs.rows)
    (runnable : row.runnable queue now = true) (gen : Nat → Uuid)
    (maxAttempts : Nat) : row.Advances now gen maxAttempts := by
  have found := Jobs.find_id_of_mem stored
  have waiting := Row.waiting_of_runnable runnable
  have budget := budgetKept_of_run fleet.budgets_pos
    (fun _ _ => Nat.min_le_right _ i32Max) (by decide) (database_run run)
  have consistent := consistent_of_run (statement_run run) row.id row found
  constructor
  · have room := (budget.within row.id row found).waiting waiting
    omega
  · exact (consistent.claimed later waiting gen 0 maxAttempts).passes

/-- Whatever the fleet has done, and whatever rows are in the table: a claim
that a replica has in flight is answered with rows, and so is a reap of its
queue, as long as the configuration of the worker can be sent at all. -/
theorem no_job_blocks_its_queue
    (run : Run (FleetState.Step fleet) (fleet.initial clock) trace state)
    {index : Nat} {now : Int} (later : state.db.clock ≤ now)
    (canClaim : (fleet.worker index).toWorker.CanClaim now) :
    (∀ permits headroom gen lockedElsewhere,
      (state.worker index).loop.phase = .sent permits headroom →
        ∃ raws, (fleet.worker index).toWorker.claimReply permits.length
          headroom ⟨state.db.jobs, now, gen, lockedElsewhere⟩ = .ok raws) ∧
    ∀ tie lockedElsewhere, ∃ updated reaped,
      reap state.db.jobs now tie lockedElsewhere (fleet.worker index).queue
        reaperBatchSize = .ok (updated, reaped) := by
  have claims (gen : Nat → Uuid) (lockedElsewhere : Nat → Bool) (want : Nat)
      (running : HashMap Nat) :=
    canClaim.statement state.db.jobs gen lockedElsewhere want running
      fun row stored runnable =>
        FleetState.advances_of_run run later stored runnable gen _
  constructor
  · intro permits headroom gen lockedElsewhere inPhase
    obtain ⟨_, workerRun⟩ := FleetState.exists_worker_run run index
    obtain ⟨_, loopRun⟩ := WorkerState.exists_loop_run workerRun
    have asked : (state.worker index).loop.phase.headroom = some headroom := by
      rw [inPhase]
      rfl
    obtain ⟨running, rfl⟩ := exists_snapshot_of_run loopRun asked
    obtain ⟨updated, raws, outcome⟩ :=
      claims gen lockedElsewhere permits.length running
    refine ⟨raws, ?_⟩
    simp only [Worker.claimReply, outcome]
  · intro tie lockedElsewhere
    obtain ⟨_, _, outcome⟩ := claims (fun id => ⟨id⟩) lockedElsewhere 1 ∅
    exact exists_reap_eq_ok reaperBatchSize tie lockedElsewhere
      (consistent_of_run (FleetState.statement_run run)) later
      (textParam_of_claimBatchRaw outcome)

end GoesThrough

namespace TwoReplicas

theorem canClaim_oneSlot : OneSlot.worker.toWorker.CanClaim 20 := by
  have accepted (running : HashMap Nat) :
      JsonAccepted (headroomSnapshot OneSlot.worker.concurrencyLimits running) :=
    (jsonAccepted_headroomSnapshot_iff fun key limit configured =>
      (OneSlot.noLimits key limit configured).2.2.2).mpr
        fun key limit configured => by cases configured
  have interval : intervalParam OneSlot.worker.leaseTimeout = .ok 10 := rfl
  refine ⟨⟨10, interval⟩, accepted, ?_⟩
  intro jobs gen lockedElsewhere want running advances
  have queueText : '\x00' ∉ OneSlot.worker.queue.toList := by decide
  apply exists_claimBatchRaw_eq_ok queueText interval
    (jsonAccepted_iff.mp (accepted running))
  intro row stored runnable
  exact Row.claimable_iff.mpr ⟨advances row stored runnable, by decide⟩

/-- While the first replica works, the second asks for jobs. -/
theorem exists_run_asking :
    ∃ trace, Run (FleetState.Step fleet) (fleet.initial 0) trace
      (working.setWorker 1 asking) := by
  obtain ⟨_, isWorking⟩ := run_working
  obtain ⟨_, asks, quiet⟩ := asks
  have idle : working.worker 1 = OneSlot.worker.initial := rfl
  obtain ⟨_, inside⟩ := FleetState.exists_run_of_inside fleet asks quiet idle
  exact ⟨_, isWorking.append inside⟩

end TwoReplicas

theorem no_job_blocks_its_queue_on_twoReplicas :
    let state := TwoReplicas.working.setWorker 1 TwoReplicas.asking
    (∃ raws, OneSlot.worker.toWorker.claimReply 1 ∅
      ⟨state.db.jobs, 20, fun id => ⟨id⟩, fun _ => false⟩ = .ok raws) ∧
    ∃ updated reaped, reap state.db.jobs 20 id (fun _ => false)
      OneSlot.worker.queue reaperBatchSize = .ok (updated, reaped) := by
  obtain ⟨_, run⟩ := TwoReplicas.exists_run_asking
  have later : (TwoReplicas.working.setWorker 1 TwoReplicas.asking).db.clock ≤
      20 := by decide
  have able : (TwoReplicas.fleet.worker 1).toWorker.CanClaim 20 :=
    TwoReplicas.canClaim_oneSlot
  obtain ⟨claims, reaps⟩ := no_job_blocks_its_queue run later able
  exact ⟨claims [0] ∅ (fun id => ⟨id⟩) (fun _ => false) rfl,
    reaps id fun _ => false⟩

/-! ## What is left behind -/

section LeftBehind

variable {jobs updated : Jobs} {now : Int} {gen : Nat → Uuid}
  {lockedElsewhere : Nat → Bool} {params : ClaimParams}
  {raws : List RawClaimedRow} {row : Row} {limit : Nat} {queue : String}
  {headroom : HashMap Nat}

/-- The runnable rows that other transactions hold locked. -/
def heldElsewhere (jobs : Jobs) (now : Int) (lockedElsewhere : Nat → Bool)
    (queue : String) : List Row :=
  (runnableInOrder jobs now queue).filter fun row => lockedElsewhere row.id

/-- A claim that passes over a row it might lock has all it wants. -/
theorem length_lockInOrder_of_left {rows : List Row} (listed : row ∈ rows)
    (unlocked : lockedElsewhere row.id = false)
    (left : row ∉ lockInOrder lockedElsewhere limit rows) :
    (lockInOrder lockedElsewhere limit rows).length = limit := by
  apply length_take_of_left _ left
  apply List.mem_filter.mpr
  exact ⟨mem_orderByRunAtId.mpr listed, by simp [unlocked]⟩

theorem mem_lockable_of_eligible
    (runnable : row ∈ runnableInOrder jobs now queue)
    (eligible : row.id ∈ eligibleIds jobs now queue limit (hrRows headroom)) :
    row ∈ jobs.rows.filter (Row.lockable
      (eligibleIds jobs now queue limit (hrRows headroom)) now) := by
  obtain ⟨stored, isRunnable⟩ := mem_runnableInOrder.mp runnable
  apply List.mem_filter.mpr
  refine ⟨stored, Bool.and_eq_true_iff.mpr ⟨?_, ?_⟩⟩
  · exact List.contains_iff_mem.mpr eligible
  · exact (Bool.and_eq_true_iff.mp isRunnable).2

/-- The runnable rows that a claim ranks together with a key. -/
def rankMates (jobs : Jobs) (now : Int) (queue : String)
    (headroom : HashMap Nat) (key : Option String) : List Row :=
  (runnableInOrder jobs now queue).filter fun other =>
    decide (rankKey headroom other.concurrencyKey = rankKey headroom key)

theorem mem_rankMates {key : Option String} :
    row ∈ rankMates jobs now queue headroom key ↔
      row ∈ runnableInOrder jobs now queue ∧
        rankKey headroom row.concurrencyKey = rankKey headroom key := by
  rw [rankMates, List.mem_filter, decide_eq_true_iff]

theorem mem_rankMates_self (headroom : HashMap Nat)
    (runnable : row ∈ runnableInOrder jobs now queue) :
    row ∈ rankMates jobs now queue headroom row.concurrencyKey :=
  mem_rankMates.mpr ⟨runnable, rfl⟩

theorem rankMates_nodup {key : Option String} :
    (rankMates jobs now queue headroom key).Nodup :=
  runnableInOrder_nodup.filter _

/-- The first rows of a rank are eligible. -/
theorem eligible_iff_of_rank {key : Option String}
    (listed : row ∈ rankMates jobs now queue headroom key) :
    row.id ∈ eligibleIds jobs now queue limit (hrRows headroom) ↔
      row ∈ (rankMates jobs now queue headroom key).take
        (lower limit (keyCap headroom key)) := by
  obtain ⟨runnable, together⟩ := mem_rankMates.mp listed
  rw [id_mem_eligibleIds_iff runnable, together, keyCap_rankKey]
  rfl

/-- A keyed claim with permits to spare that leaves a row has, of the rows that
it ranks together with it, as many as it was allowed, up to those that are
locked. -/
theorem lower_le_of_left
    (runnable : row ∈ runnableInOrder jobs now queue)
    (unlocked : lockedElsewhere row.id = false)
    (left : row ∉ lockedCte jobs now lockedElsewhere queue limit
      (hrRows headroom))
    (spare : (lockedCte jobs now lockedElsewhere queue limit
      (hrRows headroom)).length ≠ limit) :
    lower limit (keyCap headroom row.concurrencyKey) ≤
      ((lockedCte jobs now lockedElsewhere queue limit
          (hrRows headroom)).filter fun other =>
        decide (rankKey headroom other.concurrencyKey =
          rankKey headroom row.concurrencyKey)).length +
      ((heldElsewhere jobs now lockedElsewhere queue).filter fun other =>
        decide (rankKey headroom other.concurrencyKey =
          rankKey headroom row.concurrencyKey)).length := by
  -- With permits to spare, whatever is eligible and unlocked is taken.
  have taken {other : Row} (otherRunnable : other ∈ runnableInOrder jobs now queue)
      (otherUnlocked : lockedElsewhere other.id = false)
      (eligible : other.id ∈
        eligibleIds jobs now queue limit (hrRows headroom)) :
      other ∈ lockedCte jobs now lockedElsewhere queue limit
        (hrRows headroom) := by
    by_contra isLeft
    exact spare (length_lockInOrder_of_left
      (mem_lockable_of_eligible otherRunnable eligible) otherUnlocked isLeft)
  have listed := mem_rankMates_self headroom runnable
  have notFirst := fun first => left
    (taken runnable unlocked ((eligible_iff_of_rank listed).mpr first))
  rw [← length_take_of_left listed notFirst, ← List.length_append]
  apply List.Subperm.length_le
  apply List.subperm_of_subset
  · exact rankMates_nodup.sublist (List.take_sublist _ _)
  · intro other first
    have mate := List.mem_of_mem_take first
    obtain ⟨otherRunnable, together⟩ := mem_rankMates.mp mate
    rw [List.mem_append]
    by_cases locked : lockedElsewhere other.id = true
    · apply Or.inr
      exact List.mem_filter.mpr
        ⟨List.mem_filter.mpr ⟨otherRunnable, locked⟩, decide_eq_true together⟩
    · apply Or.inl
      have isTaken := taken otherRunnable (Bool.eq_false_iff.mpr locked)
        ((eligible_iff_of_rank mate).mpr first)
      exact List.mem_filter.mpr ⟨isTaken, decide_eq_true together⟩

/-- Rows ranked together with a row of a capped key have its key. -/
theorem length_sameRank_le {key : String} {room : Nat}
    (capped : keyCap headroom (some key) = some room) (rows : List Row) :
    (rows.filter fun other =>
      decide (rankKey headroom other.concurrencyKey =
        rankKey headroom (some key))).length ≤
      rows.countP (·.concurrencyKey == some key) := by
  rw [← List.countP_eq_length_filter]
  apply List.countP_mono_left
  intro other _ together
  rw [eq_of_rankKey_eq capped (of_decide_eq_true together)]
  exact beq_self_eq_true _

/-- A claim leaves a row because it has all it wants, or because the key of the
row has used up its headroom. -/
theorem saturated_of_left
    (runnable : row ∈ runnableInOrder jobs now params.queue)
    (unlocked : lockedElsewhere row.id = false)
    (left : row ∉ chosenRows jobs now lockedElsewhere params) :
    min params.batchSize i32Max ≤
        (chosenRows jobs now lockedElsewhere params).length +
          (heldElsewhere jobs now lockedElsewhere params.queue).length ∨
      ∃ key room, row.concurrencyKey = some key ∧
        params.headroom.lookup key = some room ∧
        room ≤ (chosenRows jobs now lockedElsewhere params).countP
            (·.concurrencyKey == some key) +
          (heldElsewhere jobs now lockedElsewhere params.queue).countP
            (·.concurrencyKey == some key) := by
  unfold chosenRows at left ⊢
  by_cases plain : params.headroom.entries.isEmpty = true
  · rw [if_pos plain] at left ⊢
    have full := length_lockInOrder_of_left
      (mem_orderByRunAtId.mp runnable) unlocked left
    apply Or.inl
    rw [claimedCte, full]
    exact Nat.le_add_right _ _
  · rw [if_neg plain] at left ⊢
    by_cases full : (lockedCte jobs now lockedElsewhere params.queue
        (min params.batchSize i32Max) (hrRows params.headroom)).length =
      min params.batchSize i32Max
    · exact Or.inl (by omega)
    · have allowed := lower_le_of_left runnable unlocked left full
      cases capped : keyCap params.headroom row.concurrencyKey with
      | none =>
          rw [capped] at allowed
          apply Or.inl
          exact allowed.trans (Nat.add_le_add (List.length_filter_le _ _)
            (List.length_filter_le _ _))
      | some room =>
          obtain ⟨key, hasKey, found⟩ := Option.bind_eq_some_iff.mp capped
          rw [hasKey] at allowed capped
          have claimed := length_sameRank_le capped (lockedCte jobs now
            lockedElsewhere params.queue (min params.batchSize i32Max)
            (hrRows params.headroom))
          have held := length_sameRank_le capped
            (heldElsewhere jobs now lockedElsewhere params.queue)
          rw [capped, lower] at allowed
          rcases min_le_iff.mp allowed with spent | full
          · apply Or.inr
            exact ⟨key, room, hasKey, found,
              spent.trans (Nat.add_le_add claimed held)⟩
          · apply Or.inl
            exact full.trans (Nat.add_le_add (List.length_filter_le _ _)
              (List.length_filter_le _ _))

theorem saturated_of_claim
    (outcome : claimBatchRaw jobs now gen lockedElsewhere params =
      .ok (updated, raws))
    (stored : row ∈ jobs.rows)
    (runnable : row.runnable params.queue now = true)
    (unlocked : lockedElsewhere row.id = false)
    (left : row.id ∉ raws.map RawClaimedRow.id) :
    min params.batchSize i32Max ≤ raws.length +
        (heldElsewhere jobs now lockedElsewhere params.queue).length ∨
      ∃ key room, row.concurrencyKey = some key ∧
        params.headroom.lookup key = some room ∧
        room ≤ raws.countP (·.concurrencyKey == some key) +
          (heldElsewhere jobs now lockedElsewhere params.queue).countP
            (·.concurrencyKey == some key) := by
  obtain ⟨leaseMicros, rfl⟩ := claimBatchRaw_chosen outcome
  have notChosen : row ∉ chosenRows jobs now lockedElsewhere params := by
    intro isChosen
    apply left
    rw [List.map_map]
    exact List.mem_map_of_mem isChosen
  have saturated := saturated_of_left
    (mem_runnableInOrder.mpr ⟨stored, runnable⟩) unlocked notChosen
  simp only [List.length_map, List.countP_map]
  exact saturated

theorem exists_limit_of_headroomSnapshot {limits running : HashMap Nat}
    {key : String} {room : Nat}
    (found : (headroomSnapshot limits running).lookup key = some room) :
    ∃ limit, limits.lookup key = some limit := by
  unfold headroomSnapshot at found
  split at found
  · cases found
  · rw [HashMap.lookup_mapValues] at found
    obtain ⟨limit, configured, _⟩ := Option.map_eq_some_iff.mp found
    exact ⟨limit, configured⟩

/-- What a claim of the loop leaves, in terms of the tasks that were live at the
snapshot. -/
theorem Worker.saturated_of_claimReply {T : Type} {worker : Worker T}
    {source : PollState T} {database : Database} {want : Nat}
    (kept : source.KeysKept worker)
    (answer : worker.claimReply want
      (headroomSnapshot worker.concurrencyLimits source.running) database =
        .ok raws)
    (stored : row ∈ database.jobs.rows)
    (runnable : row.runnable worker.queue database.now = true)
    (unlocked : database.lockedElsewhere row.id = false)
    (left : row.id ∉ raws.map RawClaimedRow.id) :
    min want i32Max ≤ raws.length + (heldElsewhere database.jobs database.now
        database.lockedElsewhere worker.queue).length ∨
      ∃ key limit, row.concurrencyKey = some key ∧
        worker.concurrencyLimits.lookup key = some limit ∧
        limit ≤ liveOf source.tasks key +
          raws.countP (·.concurrencyKey == some key) +
          (heldElsewhere database.jobs database.now database.lockedElsewhere
            worker.queue).countP (·.concurrencyKey == some key) := by
  unfold claimReply at answer
  split at answer
  · rename_i updated returned outcome
    cases answer
    rcases saturated_of_claim outcome stored runnable unlocked left with
      full | ⟨key, room, hasKey, found, spent⟩
    · exact Or.inl full
    · apply Or.inr
      obtain ⟨limit, configured⟩ := exists_limit_of_headroomSnapshot found
      change (headroomSnapshot _ _).lookup key = some room at found
      rw [lookup_headroomSnapshot configured
        (kept.counted key limit configured)] at found
      cases found
      refine ⟨key, limit, hasKey, configured, ?_⟩
      rw [Nat.add_assoc]
      exact Nat.sub_le_iff_le_add'.mp spent
  · cases answer

/-- When the claim of a tick passes over a runnable row that nobody holds
locked, then the batch is as large as the permits of the tick allow, or the key
of the row is at its limit, counting the tasks that were live at the snapshot
and the rows of the key that the claim has just taken.  Runnable rows that
other transactions hold locked count as taken.  The claim is one step: no other
transaction takes a row between its snapshot and its locks. -/
theorem ready_jobs_are_left_only_at_a_limit {T : Type} {worker : Worker T}
    {finish : PollState T} {trace before between after :
      List (Transition (PollState T) PollLabel)}
    {snapshot execution : Transition (PollState T) PollLabel}
    {database : Database} {permits : List Nat}
    (run : Run (PollState.Step worker) worker.initial trace finish)
    (parts : trace =
      before ++ snapshot :: (between ++ execution :: after))
    (isSnapshot : snapshot.label = .snapshot)
    (latest : ∀ taken ∈ between, taken.label ≠ .snapshot)
    (executes : execution.label = .execute database)
    (answered : execution.target.phase = .answered permits (.ok raws))
    (stored : row ∈ database.jobs.rows)
    (runnable : row.runnable worker.queue database.now = true)
    (unlocked : database.lockedElsewhere row.id = false)
    (left : row.id ∉ raws.map RawClaimedRow.id) :
    permits.length ≤ raws.length + (heldElsewhere database.jobs database.now
        database.lockedElsewhere worker.queue).length ∨
      ∃ key limit, row.concurrencyKey = some key ∧
        worker.concurrencyLimits.lookup key = some limit ∧
        limit ≤ liveOf snapshot.source.tasks key +
          raws.countP (·.concurrencyKey == some key) +
          (heldElsewhere database.jobs database.now database.lockedElsewhere
            worker.queue).countP (·.concurrencyKey == some key) := by
  rw [parts] at run
  obtain ⟨earlier, taken, rest⟩ := run.splitAt
  obtain ⟨sending, executed, _⟩ := rest.splitAt
  obtain ⟨source, label, target⟩ := snapshot
  obtain ⟨asking, asked, reply⟩ := execution
  cases isSnapshot
  cases executes
  change PollState.Step worker source .snapshot target at taken
  change PollState.Step worker asking (.execute database) reply at executed
  have kept := keysKept_of_run earlier
  have bounded :=
    (permitsKept_of_run ((earlier.snoc taken).append sending)).bounded
  have fromSnapshot : ∀ headroom, asking.phase.headroom = some headroom →
      headroom =
        headroomSnapshot worker.concurrencyLimits source.running := by
    intro headroom asked
    apply headroom_since_snapshot sending latest _ asked
    cases taken with
    | snapshot held inPhase => rfl
  cases executed with
  | execute held headroom _ inPhase =>
      obtain ⟨rfl, answer⟩ := Phase.answered.inj answered
      rw [inPhase] at bounded fromSnapshot
      rw [fromSnapshot headroom rfl] at answer
      have small : held.length ≤ i32Max :=
        bounded.trans (worker.batchSizeMax.trans (by decide))
      have saturated := Worker.saturated_of_claimReply kept answer stored
        runnable unlocked left
      rw [Nat.min_eq_left small] at saturated
      exact saturated

end LeftBehind

namespace LimitedTick

/-- Two rows of the key that has one slot. -/
def crowded : Database where
  jobs :=
    { rows := [KeyedTable.waitingRow 1 0 (some "a"),
        KeyedTable.waitingRow 2 0 (some "a")]
      nextId := 3
      distinct := by decide
      drawn := by decide }
  now := 5
  gen := fun id => ⟨id⟩
  lockedElsewhere := fun _ => false

/-- What the claim returns. -/
def taken : List RawClaimedRow :=
  [claimedRaw 5 (fun id => ⟨id⟩) 10 3 (KeyedTable.waitingRow 1 0 (some "a"))]

end LimitedTick

/-- There is a permit for the second row, and no slot. -/
theorem ready_jobs_are_left_only_at_a_limit_on_limitedTick :
    2 ≤ LimitedTick.taken.length + (heldElsewhere LimitedTick.crowded.jobs 5
        (fun _ => false) "mail").length ∨
      ∃ key limit, some "a" = some key ∧
        LimitedTick.worker.concurrencyLimits.lookup key = some limit ∧
        limit ≤ liveOf LimitedTick.worker.initial.tasks key +
          LimitedTick.taken.countP (·.concurrencyKey == some key) +
          (heldElsewhere LimitedTick.crowded.jobs 5 (fun _ => false)
            "mail").countP (·.concurrencyKey == some key) := by
  have start : Run (PollState.Step LimitedTick.worker)
      LimitedTick.worker.initial [] LimitedTick.worker.initial := Run.refl
  have ticked := start.snoc (.tick _ rfl)
  have acquired := ticked.snoc (.acquire _ 0 [1] rfl rfl)
  have gathering := acquired.snoc (.tryAcquire _ [0] 1 [] rfl (by decide) rfl)
  have ready := gathering.snoc (.gathered _ [0, 1] rfl (Or.inr rfl))
  have claiming := ready.snoc (.snapshot _ [0, 1] rfl)
  have sent := claiming.snoc (.send _ [0, 1] _ rfl)
  have answered := sent.snoc (.execute _ [0, 1] _ LimitedTick.crowded rfl)
  have stored : KeyedTable.waitingRow 2 0 (some "a") ∈
      LimitedTick.crowded.jobs.rows := by decide
  have left : (KeyedTable.waitingRow 2 0 (some "a")).id ∉
      LimitedTick.taken.map RawClaimedRow.id := by decide
  have parts (before : List (Transition (PollState Unit) PollLabel))
      (first second third : Transition (PollState Unit) PollLabel) :
      before ++ [first] ++ [second] ++ [third] =
        before ++ first :: ([second] ++ [third]) := by simp
  exact ready_jobs_are_left_only_at_a_limit answered (parts _ _ _ _) rfl
    (by simp) rfl rfl stored rfl rfl left

end PgWorkQueue
