import PgWorkQueue.System.ClaimBooks
import PgWorkQueue.System.Fleet

/-!
# One handler per job

A claim hands a row to one replica, and the token of the claim stays with the
row through the decode loop, the task and its mark.  So no two tasks of the fleet
share a token, and a mark with the token of a task is sent by that task alone.
The table is a table of leases (`Library.Lease`), and a task that has not sent
its mark is entitled to its row: the row is held under its token, or its lease
has run out.

Two tasks may work on one job at the same time.  Then the lease of one of them
has run out.
-/

namespace PgWorkQueue

open Library.Runs

/-! ## The table of leases -/

/-- The lease under which a row is held. -/
def Row.lease (row : Row) : Option (Uuid × Int) :=
  if row.status = .running then
    row.leaseToken.bind fun token => row.leaseExpiresAt.map (token, ·)
  else none

/-- The table as a table of leases. -/
def DbState.leases (db : DbState) : Library.Lease.Table Nat Uuid Int where
  holder := fun id => (db.jobs.find id).bind Row.lease
  clock := db.clock

/-- The token that a statement shows. -/
def Statement.shown {T : Type} : Statement T → Option (Nat × Uuid)
  | mark id token _ => some (id, token)
  | _ => none

section Leases

variable {T : Type} {db : DbState} {event : Event T} {id : Nat} {row : Row}

theorem Row.lease_of_not_running (notRunning : row.status ≠ .running) :
    row.lease = none :=
  if_neg notRunning

theorem DbState.holder_of_not_running (found : db.jobs.find id = some row)
    (notRunning : row.status ≠ .running) : db.leases.holder id = none := by
  have free : (db.jobs.find id).bind Row.lease = none := by
    rw [found]
    exact Row.lease_of_not_running notRunning
  exact free

/-- What a row held under a token says as a lease. -/
theorem DbState.holder_of_running (found : db.jobs.find id = some row)
    (running : row.status = .running) {token : Uuid}
    (held : row.leaseToken = some token) :
    db.leases.holder id = row.leaseExpiresAt.map (token, ·) := by
  have lent : (db.jobs.find id).bind Row.lease =
      row.leaseExpiresAt.map (token, ·) := by
    rw [found, Option.bind_some, Row.lease, if_pos running, held,
      Option.bind_some]
  exact lent

/-- A row that is lent is held under the token of the lease. -/
theorem DbState.heldUnder_of_holder {token : Uuid} {expiry : Int}
    (lent : db.leases.holder id = some (token, expiry)) :
    HeldUnder db.jobs id token := by
  obtain ⟨row, found, leased⟩ := Option.bind_eq_some_iff.mp lent
  by_cases running : row.status = .running
  · rw [Row.lease, if_pos running] at leased
    obtain ⟨stored, held, expires⟩ := Option.bind_eq_some_iff.mp leased
    obtain ⟨_, _, same⟩ := Option.map_eq_some_iff.mp expires
    rw [Prod.mk.injEq] at same
    exact ⟨row, found, running, same.1 ▸ held⟩
  · rw [Row.lease_of_not_running running] at leased
    cases leased

/-- Statements follow the protocol of leases: a claim takes a row that nobody
holds, a mark gives back the row whose token it shows, a reap takes back a row
whose lease has run out. -/
theorem DbState.leases_follow (clock : db.clock ≤ event.now) :
    Library.Lease.Follows event.statement.shown db.leases
      (db.after event).leases where
  clock := clock
  change := by
    intro id
    obtain ⟨now, statement⟩ := event
    cases db.rowEffect now statement id with
    | same _ unchanged =>
        exact .kept (congrArg (Option.bind · Row.lease) unchanged)
    | inserted _ new _ fresh _ _ _ _ =>
        have absent : (db.jobs.find id).bind Row.lease = none := by
          rw [Jobs.find_eq_none_of_nextId_le fresh]
          rfl
        exact .lent absent
    | claimed params gen lockedElsewhere old leaseMicros before runnable =>
        exact .lent (holder_of_not_running before
          (Row.status_ne_running_of_runnable runnable))
    | marked token mark old before running held =>
        have lent := holder_of_running before running held
        cases expires : old.leaseExpiresAt with
        | none =>
            rw [expires] at lent
            exact .lent lent
        | some expiry =>
            rw [expires] at lent
            exact .returned token expiry lent rfl
    | reaped queue batchLimit tie lockedElsewhere old before stale =>
        obtain ⟨_, running, expiry, expires, late⟩ := Row.stale_iff.mp stale
        cases held : old.leaseToken with
        | none =>
            have free : (db.jobs.find id).bind Row.lease = none := by
              rw [before, Option.bind_some, Row.lease, if_pos running, held]
              rfl
            exact .lent free
        | some token =>
            have lent := holder_of_running before running held
            rw [expires] at lent
            exact .revoked token expiry lent late
    | purged status age tie lockedElsewhere old finished before terminal =>
        refine .lent (holder_of_not_running before ?_)
        rw [terminal]
        cases status <;> exact JobStatus.noConfusion

end Leases

/-! ## What a replica has in hand -/

/-- The mark of the task was neither executed nor given up. -/
def Stage.awaitsMark : Stage → Bool
  | handling | marking _ => true
  | _ => false

namespace WorkerState

variable {T : Type}

/-- The claims that the replica still works on. -/
def pending (state : WorkerState T) : List Lease :=
  state.loop.phase.undealt ++
    (state.entries.filter (·.stage.awaitsMark)).map (·.job.lease)

/-- The claims of tasks whose mark was executed or given up. -/
def settled (state : WorkerState T) : List Lease :=
  (state.entries.filter (!·.stage.awaitsMark)).map (·.job.lease)

/-- Every claim the replica has to do with, as often as it has. -/
def hands (state : WorkerState T) : List Lease :=
  state.pending ++ state.settled ++
    state.loop.burials.map RawClaimedRow.lease

theorem count_hands (state : WorkerState T) (lease : Lease) :
    state.hands.count lease =
      state.loop.phase.undealt.count lease +
        (state.entries.map (·.job.lease)).count lease +
        (state.loop.burials.map RawClaimedRow.lease).count lease := by
  have split := ((List.filter_append_perm (·.stage.awaitsMark)
    state.entries).map (·.job.lease)).count_eq lease
  rw [List.map_append, List.count_append] at split
  simp only [hands, pending, settled, List.count_append]
  omega

/-- A replica goes on: it has to do with nothing but what it had and the claims
in `new`, what is settled stays settled, and the marks it no longer waits for are
those of settled claims. -/
structure Becomes (new : List Lease) (state target : WorkerState T) : Prop where
  held : ∀ lease, target.hands.count lease ≤
    state.hands.count lease + new.count lease
  pending : ∀ lease ∈ target.pending, lease ∈ state.pending ∨ lease ∈ new
  settled : state.settled ⊆ target.settled
  orphans : ∀ sent ∈ target.orphans,
    sent ∈ state.orphans ∨ sent.1.lease ∈ target.settled

section Steps

variable {worker : StartedWorker T} {state target : WorkerState T}
  {new : List Lease} {before after : List (Entry T)}
  {entry replaced : Entry T} {progress : Progress}

theorem mem_hands_of_pending {lease : Lease} (member : lease ∈ state.pending) :
    lease ∈ state.hands :=
  List.mem_append_left _ (List.mem_append_left _ member)

theorem mem_hands_of_settled {lease : Lease} (member : lease ∈ state.settled) :
    lease ∈ state.hands :=
  List.mem_append_left _ (List.mem_append_right _ member)

theorem mem_hands_of_entry (listed : entry ∈ state.entries) :
    entry.job.lease ∈ state.hands := by
  rw [← List.count_pos_iff, count_hands]
  have counted := List.count_pos_iff.mpr
    (List.mem_map_of_mem (f := fun entry : Entry T => entry.job.lease) listed)
  omega

theorem Becomes.mem_hands {lease : Lease} (becomes : state.Becomes new target)
    (member : lease ∈ target.hands) : lease ∈ state.hands ∨ lease ∈ new := by
  have held := becomes.held lease
  have positive := List.count_pos_iff.mpr member
  by_cases isNew : lease ∈ new
  · exact Or.inr isNew
  · rw [List.count_eq_zero_of_not_mem isNew] at held
    exact Or.inl (List.count_pos_iff.mp (by omega))

/-- The loop goes on and may issue `mark_dead` for rows in its hands; the tasks
are not concerned. -/
theorem Becomes.of_loop (marked : List RawClaimedRow)
    (undealt : ∀ lease, target.loop.phase.undealt.count lease +
      (marked.map RawClaimedRow.lease).count lease ≤
        state.loop.phase.undealt.count lease + new.count lease)
    (entries : target.entries = state.entries)
    (orphans : target.orphans ⊆ state.orphans)
    (burials : target.loop.burials.Sublist (marked ++ state.loop.burials)) :
    state.Becomes new target where
  held := by
    intro lease
    have more := undealt lease
    have fewer := (burials.map RawClaimedRow.lease).count_le lease
    rw [List.map_append, List.count_append] at fewer
    rw [count_hands, count_hands, entries]
    omega
  pending := by
    intro lease member
    rw [WorkerState.pending, entries] at member
    rcases List.mem_append.mp member with inLoop | inTask
    · have positive := List.count_pos_iff.mpr inLoop
      have more := undealt lease
      by_cases isNew : lease ∈ new
      · exact Or.inr isNew
      · rw [List.count_eq_zero_of_not_mem isNew] at more
        exact Or.inl (List.mem_append_left _
          (List.count_pos_iff.mp (by omega)))
    · exact Or.inl (List.mem_append_right _ inTask)
  settled := by
    rw [WorkerState.settled, WorkerState.settled, entries]
    exact fun _ member => member
  orphans := fun _ member => Or.inl (orphans member)

theorem Becomes.refl (state : WorkerState T) : state.Becomes [] state :=
  .of_loop [] (fun _ => Nat.le_refl _) rfl (fun _ member => member)
    (List.Sublist.refl _)

/-- The claims of the tasks of a kind, when one task is replaced. -/
theorem mem_leases_replaced {kind : Entry T → Bool} {lease : Lease}
    (entry : Entry T)
    (member : lease ∈
      ((before ++ replaced :: after).filter kind).map (·.job.lease)) :
    lease ∈ ((before ++ entry :: after).filter kind).map (·.job.lease) ∨
      kind replaced = true ∧ replaced.job.lease = lease := by
  obtain ⟨task, kept, rfl⟩ := List.mem_map.mp member
  obtain ⟨listed, ofKind⟩ := List.mem_filter.mp kept
  rw [List.mem_append, List.mem_cons] at listed
  rcases listed with early | same | late
  · exact Or.inl (List.mem_map_of_mem (List.mem_filter.mpr
      ⟨List.mem_append_left _ early, ofKind⟩))
  · subst same
    exact Or.inr ⟨ofKind, rfl⟩
  · exact Or.inl (List.mem_map_of_mem (List.mem_filter.mpr
      ⟨List.mem_append_right _ (List.mem_cons_of_mem _ late), ofKind⟩))

theorem mem_leases_replace {kind : Entry T → Bool} {lease : Lease}
    (sameJob : replaced.job = entry.job)
    (forward : kind replaced = true → kind entry = true)
    (member : lease ∈
      ((before ++ replaced :: after).filter kind).map (·.job.lease)) :
    lease ∈ ((before ++ entry :: after).filter kind).map (·.job.lease) := by
  rcases mem_leases_replaced entry member with old | ⟨ofKind, rfl⟩
  · exact old
  · refine List.mem_map.mpr ⟨entry, List.mem_filter.mpr
      ⟨List.mem_append_right _ List.mem_cons_self, forward ofKind⟩, ?_⟩
    rw [sameJob]

/-- A task goes on; it does not take its mark back. -/
theorem Becomes.of_entry
    (undealt : target.loop.phase.undealt =
      state.loop.phase.undealt)
    (shape : state.entries = before ++ entry :: after)
    (entries : target.entries = before ++ replaced :: after)
    (sameJob : replaced.job = entry.job)
    (forward : replaced.stage.awaitsMark = true →
      entry.stage.awaitsMark = true)
    (orphans : ∀ sent ∈ target.orphans,
      sent ∈ state.orphans ∨ sent.1.lease ∈ target.settled)
    (burials : target.loop.burials = state.loop.burials) :
    state.Becomes [] target where
  held := by
    intro lease
    rw [count_hands, count_hands, undealt, shape, entries, burials]
    simp [sameJob]
  pending := by
    intro lease member
    rw [WorkerState.pending, undealt, entries] at member
    rw [WorkerState.pending, shape]
    rcases List.mem_append.mp member with inLoop | inTask
    · exact Or.inl (List.mem_append_left _ inLoop)
    · exact Or.inl (List.mem_append_right _
        (mem_leases_replace sameJob forward inTask))
  settled := by
    intro lease member
    rw [WorkerState.settled, shape] at member
    rw [WorkerState.settled, entries]
    refine mem_leases_replace sameJob.symm ?_ member
    intro settled
    cases awaits : replaced.stage.awaitsMark with
    | false => rfl
    | true =>
        rw [forward awaits] at settled
        cases settled
  orphans := orphans

theorem mem_settled_of_entry (entry : Entry T)
    (listed : entry ∈ state.entries)
    (settled : entry.stage.awaitsMark = false) :
    entry.job.lease ∈ state.settled :=
  List.mem_map.mpr ⟨entry, List.mem_filter.mpr ⟨listed, by simp [settled]⟩, rfl⟩

theorem mem_pending_of_entry (listed : entry ∈ state.entries)
    (awaits : entry.stage.awaitsMark = true) :
    entry.job.lease ∈ state.pending :=
  List.mem_append_right _
    (List.mem_map.mpr ⟨entry, List.mem_filter.mpr ⟨listed, awaits⟩, rfl⟩)

/-- A task that no longer awaits its mark never does so again. -/
theorem awaitsMark_of_advances (advances : entry.Advances worker progress)
    (awaits : progress.stage.awaitsMark = true) :
    entry.stage.awaitsMark = true ∧ progress.orphan = none := by
  cases advances with
  | handled behaviour backoffNext inStage =>
      rw [inStage]
      exact ⟨rfl, rfl⟩
  | innerCancelled inStage => cases awaits
  | executed mark jobs now inStage => cases awaits
  | settled mark answer answers => cases awaits
  | cancelled requested stillAwaits => cases awaits

theorem burials_of_endTask {loop released : PollState T} {index : Nat}
    (taken : PollState.Step worker.toWorker loop (.endTask index) released) :
    released.burials = loop.burials := by
  cases taken with
  | endTask before after task shape => rfl

/-- A task advances, and may release its permit on the way. -/
theorem becomes_of_advance {loop : PollState T}
    (shape : state.entries = before ++ entry :: after)
    (advances : entry.Advances worker progress)
    (samePhase : loop.phase = state.loop.phase)
    (burials : loop.burials = state.loop.burials) :
    state.Becomes []
      { state.advance before entry after progress with loop := loop } := by
  refine .of_entry (congrArg Phase.undealt samePhase) shape rfl rfl
    (fun awaits => (awaitsMark_of_advances advances awaits).1) ?_ burials
  intro sent member
  rcases List.mem_append.mp member with earlier | new
  · exact Or.inl earlier
  · obtain ⟨mark, left, rfl⟩ := List.mem_map.mp new
    refine Or.inr (mem_settled_of_entry (entry.after progress)
      (List.mem_append_right _ List.mem_cons_self) ?_)
    cases awaits : (entry.after progress).stage.awaitsMark with
    | false => rfl
    | true =>
        rw [(awaitsMark_of_advances advances awaits).2] at left
        cases left

/-- A step of the loop that spawns no task; nobody waits for the rows that a
claim moves once the loop has ended. -/
theorem becomes_of_poll {label : PollLabel} {loop : PollState T}
    (kept : state.loop.PermitsKept worker.toWorker)
    (taken : PollState.Step worker.toWorker state.loop label loop)
    (alone : label.involvesTask = false)
    (received : ∀ lease,
      (movedBy worker.toWorker ⟨state.loop, label, loop⟩).count lease ≤
        new.count lease +
          (strandedBy worker.toWorker ⟨state.loop, label, loop⟩).count lease) :
    state.Becomes new { state with loop := loop } := by
  have noneHanded : handedBy ⟨state.loop, label, loop⟩ = [] := by
    cases label with
    | spawn => cases alone
    | _ => rfl
  refine .of_loop (markedRows ⟨state.loop, label, loop⟩) ?_ rfl
    (fun _ member => member) (burials_sublist_of_step taken)
  intro lease
  have balanced := (undealt_of_step kept taken).count_eq lease
  have moved := received lease
  rw [noneHanded] at balanced
  simp only [List.nil_append, List.count_append, markedBy] at balanced
  dsimp only
  omega

/-- Spawning hands a claim from the loop to its task. -/
theorem becomes_of_spawn {permit : Nat} {permits : List Nat} {row : Job T}
    {rows : List (Job T)}
    (inPhase : state.loop.phase =
      .spawning (permit :: permits) (row :: rows)) :
    state.Becomes []
      { state with
        loop := state.loop.spawn worker.toWorker row permit rows permits
        entries := state.entries ++ [Entry.spawned row] } := by
  have burials : (state.loop.spawn worker.toWorker row permit rows
      permits).burials = state.loop.burials := by
    rw [PollState.burials, PollState.burials, inPhase]
    rfl
  refine ⟨?_, ?_, ?_, fun _ member => Or.inl member⟩
  · intro lease
    rw [count_hands, count_hands, burials, inPhase]
    simp only [PollState.spawn, Phase.undealt, Phase.raws, Phase.jobs,
      Entry.spawned, List.map_append, List.map_cons, List.map_nil,
      List.nil_append, List.count_append, List.count_cons, List.count_nil]
    omega
  · intro lease member
    simp only [pending, inPhase, PollState.spawn, Phase.undealt, Phase.raws,
      Phase.jobs, List.map_nil, List.nil_append, List.map_cons,
      List.filter_append, List.map_append, List.mem_append,
      List.mem_cons] at member ⊢
    rcases member with later | earlier | new
    · exact Or.inl (Or.inl (Or.inr later))
    · exact Or.inl (Or.inr earlier)
    · exact Or.inl (Or.inl (Or.inl (List.mem_singleton.mp new)))
  · intro lease member
    rw [settled, List.filter_append, List.map_append]
    exact List.mem_append_left _ member

/-- A step of the worker that touches no table. -/
theorem becomes_of_inside {label : WorkerLabel}
    (aligned : state.Aligned worker)
    (taken : WorkerState.Step worker state label target)
    (offTable : label.awaitsTable = false) :
    state.Becomes [] target := by
  cases taken with
  | poll label loop polled alone unlocked =>
      refine becomes_of_poll aligned.permits polled alone ?_
      cases label with
      | execute database => cases offTable
      | executeOrphan database => cases offTable
      | _ => exact fun _ => Nat.zero_le _
  | spawn permit permits row rows inPhase => exact becomes_of_spawn inPhase
  | task before entry after progress shape advances goesOn => cases offTable
  | endTask before entry after progress loop shape advances ends released =>
      cases offTable
  | executeOrphan before job mark after jobs now shape => cases offTable
  | join before entry after how inPhase shape unjoined hasEnded =>
      exact .of_entry rfl shape rfl rfl id (fun _ member => Or.inl member) rfl
  | abortAll inPhase noneReady remains =>
      refine ⟨?_, ?_, ?_, fun _ member => Or.inl member⟩
      · intro lease
        rw [count_hands, count_hands]
        simp [WorkerState.abortAll, Function.comp_def]
      · intro lease member
        simpa [pending, WorkerState.abortAll, List.filter_map,
          Function.comp_def] using member
      · intro lease member
        simpa [settled, WorkerState.abortAll, List.filter_map,
          Function.comp_def] using member
  | _ =>
      exact .of_loop [] (fun _ => Nat.le_refl _) rfl (fun _ member => member)
        (List.Sublist.refl _)

end Steps

end WorkerState

/-! ## No claim in two hands -/

namespace FleetState

variable {T : Type}

/-- One step, for the claims: every replica goes on with what it had, and one of
them with the claims in `new`, which the table has just handed out. -/
structure Goes (claimer : Nat) (new : List Lease) (state target : FleetState T) :
    Prop where
  becomes : ∀ index, (state.worker index).Becomes
    (if index = claimer then new else []) (target.worker index)
  kept : ∀ raw ∈ state.db.returned, raw ∈ target.db.returned
  recorded : ∀ lease ∈ new, ∃ raw ∈ target.db.returned, raw.lease = lease
  distinct : new.Nodup
  fresh : ∀ raw ∈ state.db.returned, raw.lease ∉ new

/-- No claim is in two hands, or twice in the same hands. -/
structure Distinct (state : FleetState T) : Prop where
  once : ∀ index lease, (state.worker index).hands.count lease ≤ 1
  apart : ∀ index other lease, lease ∈ (state.worker index).hands →
    lease ∈ (state.worker other).hands → index = other
  recorded : ∀ index, ∀ lease ∈ (state.worker index).hands,
    ∃ raw ∈ state.db.returned, raw.lease = lease
  orphans : ∀ index, ∀ sent ∈ (state.worker index).orphans,
    sent.1.lease ∈ (state.worker index).settled

section Goes

variable {fleet : Fleet T} {state target : FleetState T} {index : Nat}
  {next : WorkerState T} {db : DbState} {event : Event T}

/-- One replica goes on, and the others are not concerned. -/
theorem becomes_of_setWorker {new : List Lease}
    (becomes : (state.worker index).Becomes new next) (other : Nat) :
    (state.worker other).Becomes (if other = index then new else [])
      ((state.setWorker index next).worker other) := by
  by_cases same : other = index
  · subst same
    rw [if_pos rfl, worker_setWorker_self]
    exact becomes
  · rw [if_neg same, worker_setWorker_of_ne next same]
    exact WorkerState.Becomes.refl _

/-- One replica goes on, without a claim. -/
theorem Goes.of_becomes
    (becomes : (state.worker index).Becomes [] next)
    (kept : ∀ raw ∈ state.db.returned, raw ∈ db.returned) :
    Goes index [] state { state.setWorker index next with db := db } where
  becomes := becomes_of_setWorker becomes
  kept := kept
  recorded := fun _ member => absurd member List.not_mem_nil
  distinct := List.nodup_nil
  fresh := fun _ _ => List.not_mem_nil

/-- The replies of the database stay on record. -/
theorem kept_after (db : DbState) (event : Event T) :
    ∀ raw ∈ db.returned, raw ∈ (db.after event).returned :=
  fun _ member => List.mem_append_left _ member

/-- A statement that concerns no replica. -/
theorem Goes.of_send (state : FleetState T) (event : Event T) :
    Goes 0 [] state (state.send event) where
  becomes := by
    intro other
    rw [ite_self]
    exact WorkerState.Becomes.refl _
  kept := kept_after state.db event
  recorded := fun _ member => absurd member List.not_mem_nil
  distinct := List.nodup_nil
  fresh := fun _ _ => List.not_mem_nil

/-- The rows of a claim carry tokens that were never handed out before. -/
theorem fresh_leases (admits : state.db.Admits event) :
    ((state.db.reply event).claimedRows.map RawClaimedRow.lease).Nodup ∧
      ∀ raw ∈ state.db.returned, raw.lease ∉
        (state.db.reply event).claimedRows.map RawClaimedRow.lease := by
  have fresh := admits.freshTokens
  rw [List.map_append, List.nodup_append] at fresh
  obtain ⟨_, newDistinct, apart⟩ := fresh
  constructor
  · refine List.Nodup.of_map Prod.snd ?_
    rw [List.map_map]
    exact newDistinct
  · intro raw member isNew
    obtain ⟨other, claimed, same⟩ := List.mem_map.mp isNew
    exact apart _ (List.mem_map_of_mem member) _ (List.mem_map_of_mem claimed)
      (congrArg Prod.snd same).symm

/-- A replica receives the rows of its claim, if it waits for them. -/
theorem goes_of_poll {label : PollLabel} {loop : PollState T}
    (kept : (state.worker index).loop.PermitsKept
      (fleet.worker index).toWorker)
    (taken : PollState.Step (fleet.worker index).toWorker
      (state.worker index).loop label loop)
    (sends : (fleet.worker index).toWorker.Sends state.db.jobs
      (state.worker index).loop label event)
    (admits : state.db.Admits event) :
    Goes index ((state.db.reply event).claimedRows.map RawClaimedRow.lease)
      state ((state.setLoop index loop).send event) where
  becomes := by
    refine becomes_of_setWorker (WorkerState.becomes_of_poll kept taken
      sends.alone.1 ?_)
    intro lease
    rw [movedBy_of_sends sends]
    exact Nat.le_add_right _ _
  kept := kept_after state.db event
  recorded := by
    intro lease member
    obtain ⟨raw, claimed, same⟩ := List.mem_map.mp member
    exact ⟨raw, List.mem_append_right _ claimed, same⟩
  distinct := (fresh_leases admits).1
  fresh := (fresh_leases admits).2

theorem goes_of_step {label : FleetLabel T}
    (aligned : ∀ index, (state.worker index).Aligned (fleet.worker index))
    (taken : Step fleet state label target) :
    ∃ claimer new, Goes claimer new state target := by
  cases taken with
  | inside index label target taken offTable =>
      exact ⟨index, [], .of_becomes
        (WorkerState.becomes_of_inside (aligned index) taken offTable)
        fun _ member => member⟩
  | task index before entry after progress shape advances goesOn unsent =>
      exact ⟨index, [], .of_becomes
        (WorkerState.becomes_of_advance shape advances rfl rfl)
        fun _ member => member⟩
  | endTask index before entry after progress loop shape advances ends
      released =>
      exact ⟨index, [], .of_becomes
        (WorkerState.becomes_of_advance shape advances
          (phase_of_endTask released) (WorkerState.burials_of_endTask released))
        fun _ member => member⟩
  | poll index label loop event taken sends admits =>
      exact ⟨index, _, goes_of_poll (aligned index).permits taken sends admits⟩
  | mark index before entry after mark now shape inStage admits =>
      have advances : entry.Advances (fleet.worker index) _ :=
        .executed mark state.db.jobs now inStage
      exact ⟨index, [], .of_becomes
        (WorkerState.becomes_of_advance shape advances rfl rfl)
        (kept_after state.db _)⟩
  | markOrphan index before job mark after now shape admits =>
      refine ⟨index, [], .of_becomes
        (.of_loop [] (fun _ => Nat.le_refl _) rfl ?_ (List.Sublist.refl _))
        (kept_after state.db _)⟩
      rw [shape]
      intro sent member
      rcases List.mem_append.mp member with earlier | later
      · exact List.mem_append_left _ earlier
      · exact List.mem_append_right _ (List.mem_cons_of_mem _ later)
  | reap index now tie lockedElsewhere admits =>
      exact ⟨0, [], .of_send state _⟩
  | client event ofClient admits => exact ⟨0, [], .of_send state _⟩

end Goes

namespace Distinct

variable {state target : FleetState T} {index other : Nat}
  {lease : Lease} {claimer : Nat} {new : List Lease}

/-- What a replica has in hand after a step, it had before, or has claimed. -/
theorem mem_hands_of_goes (goes : Goes claimer new state target)
    (member : lease ∈ (target.worker index).hands) :
    lease ∈ (state.worker index).hands ∨ index = claimer ∧ lease ∈ new := by
  rcases (goes.becomes index).mem_hands member with old | isNew
  · exact Or.inl old
  · by_cases same : index = claimer
    · rw [if_pos same] at isNew
      exact Or.inr ⟨same, isNew⟩
    · rw [if_neg same] at isNew
      cases isNew

/-- What was in hand before a step is not claimed in it. -/
theorem not_new (distinct : state.Distinct) (goes : Goes claimer new state target)
    (held : lease ∈ (state.worker index).hands) : lease ∉ new := by
  obtain ⟨raw, member, rfl⟩ := distinct.recorded index lease held
  exact goes.fresh raw member

theorem step (distinct : state.Distinct)
    (goes : Goes claimer new state target) : target.Distinct where
  once := by
    intro index lease
    have held := (goes.becomes index).held lease
    have before := distinct.once index lease
    by_cases inHand : lease ∈ (state.worker index).hands
    · have notNew := List.count_eq_zero_of_not_mem (distinct.not_new goes inHand)
      split at held
      · omega
      · rw [List.count_nil] at held
        omega
    · rw [List.count_eq_zero_of_not_mem inHand] at held
      have atMostOnce := List.nodup_iff_count_le_one.mp goes.distinct lease
      split at held
      · omega
      · rw [List.count_nil] at held
        omega
  apart := by
    intro index other lease first second
    rcases mem_hands_of_goes goes first with inFirst | ⟨isClaimer, isNew⟩
    · rcases mem_hands_of_goes goes second with inSecond | ⟨_, isNew⟩
      · exact distinct.apart index other lease inFirst inSecond
      · exact absurd isNew (distinct.not_new goes inFirst)
    · rcases mem_hands_of_goes goes second with inSecond | ⟨alsoClaimer, _⟩
      · exact absurd isNew (distinct.not_new goes inSecond)
      · exact isClaimer.trans alsoClaimer.symm
  recorded := by
    intro index lease member
    rcases mem_hands_of_goes goes member with old | ⟨_, isNew⟩
    · obtain ⟨raw, returned, same⟩ := distinct.recorded index lease old
      exact ⟨raw, goes.kept raw returned, same⟩
    · exact goes.recorded lease isNew
  orphans := by
    intro index sent member
    rcases (goes.becomes index).orphans sent member with old | settled
    · exact (goes.becomes index).settled (distinct.orphans index sent old)
    · exact settled

/-- A claim that is settled or being buried is not pending anywhere. -/
theorem not_pending (distinct : state.Distinct) (index : Nat)
    (done : lease ∈ (state.worker index).settled ∨
      lease ∈ (state.worker index).loop.burials.map RawClaimedRow.lease) :
    lease ∉ (state.worker other).pending := by
  intro pending
  have inHand : lease ∈ (state.worker index).hands :=
    done.elim WorkerState.mem_hands_of_settled (List.mem_append_right _)
  have same := distinct.apart index other lease inHand
    (WorkerState.mem_hands_of_pending pending)
  subst same
  have once := distinct.once index lease
  rw [WorkerState.hands, List.count_append, List.count_append] at once
  have inPending := List.count_pos_iff.mpr pending
  rcases done with settled | burial
  · have inSettled := List.count_pos_iff.mpr settled
    omega
  · have inBurials := List.count_pos_iff.mpr burial
    omega

theorem nodup_leases (distinct : state.Distinct) (index : Nat) :
    ((state.worker index).entries.map (·.job.lease)).Nodup := by
  rw [List.nodup_iff_count_le_one]
  intro lease
  have once := distinct.once index lease
  rw [WorkerState.count_hands] at once
  omega

/-- No two tasks of a kind share a claim, on any replicas. -/
theorem nodup_flatMap (distinct : state.Distinct) (kind : Entry T → Bool)
    {indices : List Nat} (apart : indices.Nodup) :
    (indices.flatMap fun index =>
      ((state.worker index).entries.filter kind).map (·.job.lease)).Nodup := by
  refine List.nodup_flatMap.mpr ⟨?_, ?_⟩
  · intro index _
    exact (List.filter_sublist.map _).nodup (distinct.nodup_leases index)
  · refine List.Pairwise.imp ?_ apart
    intro index other differ lease first second
    have inHands {place : Nat} (member : lease ∈
        ((state.worker place).entries.filter kind).map (·.job.lease)) :
        lease ∈ (state.worker place).hands := by
      obtain ⟨entry, kept, rfl⟩ := List.mem_map.mp member
      exact WorkerState.mem_hands_of_entry (List.mem_filter.mp kept).1
    exact differ (distinct.apart index other lease (inHands first)
      (inHands second))

/-- Two tasks with one claim are one task. -/
theorem same_position (distinct : state.Distinct) {first second : Nat}
    {task rival : Entry T}
    (isTask : (state.worker index).entries[first]? = some task)
    (isRival : (state.worker other).entries[second]? = some rival)
    (same : task.job.lease = rival.job.lease) :
    index = other ∧ first = second := by
  have inHand := WorkerState.mem_hands_of_entry (List.mem_of_getElem? isTask)
  have rivalInHand := WorkerState.mem_hands_of_entry (List.mem_of_getElem? isRival)
  have sameReplica := distinct.apart index other task.job.lease inHand
    (same ▸ rivalInHand)
  subst sameReplica
  refine ⟨rfl, ?_⟩
  have short : first < ((state.worker index).entries.map
      (·.job.lease)).length := by
    rw [List.length_map]
    exact (List.getElem?_eq_some_iff.mp isTask).1
  refine (List.getElem?_inj short (distinct.nodup_leases index)).mp ?_
  rw [List.getElem?_map, List.getElem?_map, isTask, isRival]
  exact congrArg some same

end Distinct

section Runs

variable {fleet : Fleet T} {state target : FleetState T} {clock : Int}
  {label : FleetLabel T} {event : Event T}
  {trace : List (Transition (FleetState T) (FleetLabel T))}

theorem aligned_of_fleetRun
    (run : Run (Step fleet) (fleet.initial clock) trace state) (index : Nat) :
    (state.worker index).Aligned (fleet.worker index) := by
  obtain ⟨image, workerRun⟩ := exists_worker_run run index
  exact aligned_of_run workerRun

theorem distinct_initial (fleet : Fleet T) (clock : Int) :
    (fleet.initial clock).Distinct where
  once := fun _ _ => Nat.zero_le _
  apart := fun _ _ _ member => absurd member List.not_mem_nil
  recorded := fun _ _ member => absurd member List.not_mem_nil
  orphans := fun _ _ member => absurd member List.not_mem_nil

theorem distinct_of_run
    (run : Run (Step fleet) (fleet.initial clock) trace state) :
    state.Distinct := by
  refine run.historyInvariant (fun _ state => state.Distinct)
    (distinct_initial fleet clock) ?_
  intro history source label target earlier distinct taken
  obtain ⟨claimer, new, goes⟩ :=
    goes_of_step (aligned_of_fleetRun earlier) taken
  exact distinct.step goes

/-! ## Who is entitled to a row -/

/-- Every claim that is still worked on is entitled to its row. -/
def Entitled (state : FleetState T) : Prop :=
  ∀ raw ∈ state.db.returned, ∀ index,
    raw.lease ∈ (state.worker index).pending →
      state.db.leases.Entitled raw.id raw.leaseToken raw.leaseExpiresAt

/-- A claim that is pending after a step and was on record before it was pending
then. -/
theorem pending_of_goes {claimer : Nat} {new : List Lease}
    (goes : Goes claimer new state target) {raw : RawClaimedRow}
    (onRecord : raw ∈ state.db.returned) {index : Nat}
    (pending : raw.lease ∈ (target.worker index).pending) :
    raw.lease ∈ (state.worker index).pending := by
  rcases (goes.becomes index).pending raw.lease pending with old | isNew
  · exact old
  · split at isNew
    · exact absurd isNew (goes.fresh raw onRecord)
    · cases isNew

/-- A replica that shows the token of a claim has settled or buried it. -/
theorem not_pending_of_shown {claimer : Nat} {new : List Lease}
    (distinct : state.Distinct) (goes : Goes claimer new state target)
    (taken : Step fleet state label target) (visible : label.event = some event)
    {raw : RawClaimedRow} (onRecord : raw ∈ state.db.returned)
    (shows : event.statement.shown = some raw.lease) (index : Nat) :
    raw.lease ∉ (target.worker index).pending := by
  have after := distinct.step goes
  cases taken with
  | inside => cases visible
  | task => cases visible
  | endTask => cases visible
  | reap => cases visible; cases shows
  | client event ofClient admits =>
      cases visible
      cases isStatement : event.statement with
      | mark id token mark =>
          rw [isStatement] at ofClient
          cases ofClient
      | _ =>
          rw [isStatement] at shows
          cases shows
  | mark marker before entry tasks mark now shape inStage admits =>
      cases visible
      rw [← Option.some.inj shows]
      refine after.not_pending marker (Or.inl ?_)
      rw [worker_send, worker_setWorker_self]
      exact WorkerState.mem_settled_of_entry
        (entry.after (.ofMark entry.job mark now state.db.jobs))
        (List.mem_append_right _ List.mem_cons_self) rfl
  | markOrphan marker before job mark sent now shape admits =>
      cases visible
      have isOrphan : (job, mark) ∈ (state.worker marker).orphans := by
        rw [shape]
        exact List.mem_append_right _ List.mem_cons_self
      rw [← Option.some.inj shows]
      exact after.not_pending marker (Or.inl ((goes.becomes marker).settled
        (distinct.orphans marker (job, mark) isOrphan)))
  | poll digger label loop event taken sends admits =>
      cases visible
      intro pending
      have buried (inBurials : raw.lease ∈
          (state.worker digger).loop.burials.map RawClaimedRow.lease) : False :=
        distinct.not_pending digger (Or.inr inBurials)
          (pending_of_goes goes onRecord pending)
      cases sends with
      | claim | claimOrphan => cases shows
      | bury permits dead raws out reason now inPhase refused =>
          refine buried ?_
          rw [← Option.some.inj shows, PollState.burials, inPhase]
          exact List.mem_cons_self
      | buryOrphan dead reason now waiting refused =>
          refine buried ?_
          rw [← Option.some.inj shows, PollState.burials, waiting]
          exact List.mem_map_of_mem
            (List.mem_append_right _ List.mem_cons_self)

/-- A row that was just claimed is held under the token of the claim. -/
theorem entitled_of_claimed {raw : RawClaimedRow}
    (claimed : raw ∈ (state.db.reply event).claimedRows) :
    (state.db.after event).leases.Entitled raw.id raw.leaseToken
      raw.leaseExpiresAt := by
  obtain ⟨params, gen, lockedElsewhere, row, leaseMicros, _, _, _, _, read,
    found⟩ := (claimedRows_spec state.db.jobs event.now event.statement).2 raw
      claimed
  have stored : (state.db.after event).jobs.find raw.id = _ := found
  have held := DbState.holder_of_running stored rfl rfl
  rw [read] at held ⊢
  exact Or.inl held

theorem Entitled.step {claimer : Nat} {new : List Lease}
    (entitled : state.Entitled) (distinct : state.Distinct)
    (goes : Goes claimer new state target) (rooted : state.Rooted fleet)
    (taken : Step fleet state label target) : target.Entitled := by
  intro raw onRecord index pending
  cases visible : label.event with
  | none =>
      rw [taken.db_of_inside visible] at onRecord ⊢
      exact entitled raw onRecord index (pending_of_goes goes onRecord pending)
  | some event =>
      obtain ⟨admissible, next⟩ := rooted.fleetStep taken visible
      rw [next] at onRecord ⊢
      rcases List.mem_append.mp onRecord with old | claimed
      · have before := entitled raw old index (pending_of_goes goes old pending)
        refine before.follows (fun _ _ _ => Int.lt_of_lt_of_le)
          (DbState.leases_follow admissible.clock) ?_
        intro shows
        exact not_pending_of_shown distinct goes taken visible old shows index
          pending
      · exact entitled_of_claimed claimed

theorem entitled_of_run
    (run : Run (Step fleet) (fleet.initial clock) trace state) :
    state.Entitled := by
  refine run.historyInvariant (fun _ state => state.Entitled) ?_ ?_
  · intro raw onRecord
    cases onRecord
  · intro history source label target earlier entitled taken
    obtain ⟨claimer, new, goes⟩ :=
      goes_of_step (aligned_of_fleetRun earlier) taken
    exact entitled.step (distinct_of_run earlier) goes (rooted_of_run earlier)
      taken

/-- A task that awaits its mark is entitled to its row. -/
theorem entitled_of_task (entitled : state.Entitled) (rooted : state.Rooted fleet)
    {index : Nat} {task : Entry T}
    (listed : task ∈ (state.worker index).entries)
    (awaits : task.stage.awaitsMark = true) :
    state.db.leases.Entitled task.job.id task.job.leaseToken
      task.job.leaseExpiresAt := by
  obtain ⟨raw, onRecord, decoded⟩ := (rooted index).entries task listed
  obtain ⟨payload, _, sameJob⟩ := job_of_decodeRow decoded
  have pending := WorkerState.mem_pending_of_entry listed awaits
  rw [lease_of_decodeRow decoded] at pending
  rw [sameJob]
  exact entitled raw onRecord.returned index pending

/-- A task that awaits its mark holds its row as long as its lease lasts. -/
theorem holder_of_task
    (run : Run (Step fleet) (fleet.initial clock) trace state)
    {index : Nat} {task : Entry T}
    (listed : task ∈ (state.worker index).entries)
    (awaits : task.stage.awaitsMark = true)
    (inTime : state.db.clock ≤ task.job.leaseExpiresAt) :
    state.db.leases.holder task.job.id =
      some (task.job.leaseToken, task.job.leaseExpiresAt) := by
  rcases entitled_of_task (entitled_of_run run) (rooted_of_run run) listed
    awaits with held | late
  · exact held
  · have expired : task.job.leaseExpiresAt < state.db.clock := late
    omega

/-- The mark of a task that holds its row moves the row, unless Postgres does
not accept the mark. -/
theorem sendMark_of_holder
    (run : Run (Step fleet) (fleet.initial clock) trace state)
    {index : Nat} {task : Entry T} {mark : Mark} {now : Int}
    (listed : task ∈ (state.worker index).entries)
    (inStage : task.stage = .marking mark) (later : state.db.clock ≤ now)
    (lent : state.db.leases.holder task.job.id =
      some (task.job.leaseToken, task.job.leaseExpiresAt)) :
    (mark.Accepted now ∧ ∃ updated row,
      sendMark now task.job mark state.db.jobs = (updated, .affected 1) ∧
        updated.find task.job.id = some row ∧ row.status = mark.status) ∨
    (¬ mark.Accepted now ∧
      sendMark now task.job mark state.db.jobs = (state.db.jobs, .failed)) := by
  have rooted := rooted_of_run run
  obtain ⟨row, found, running, held⟩ := DbState.heldUnder_of_holder lent
  obtain ⟨raw, _, _, _, ofWorker⟩ :=
    ((rooted index).entries task listed).exists_workerMark
      ((rooted index).marks task listed mark (by rw [inStage]; rfl))
  have short : ∀ reason, mark.reason = some reason →
      reason.length ≤ maxLastErrorLen := by
    intro reason hasReason
    obtain ⟨text, rfl⟩ := ofWorker.trimmed hasReason
    exact length_fmtErrTrimmed_le text
  have consistent :=
    consistent_of_run (statement_run run) task.job.id row found
  have passes := (consistent.marked later running mark short).passes
  unfold sendMark
  by_cases accepted : mark.Accepted now
  · obtain ⟨updated, executed, after⟩ :=
      accepted.exists_execute_eq_ok found running held passes
    rw [executed]
    exact Or.inl ⟨accepted, updated, _, rfl, after, mark.markedRow_status now row⟩
  · refine Or.inr ⟨accepted, ?_⟩
    cases outcome : mark.execute state.db.jobs now task.job.id
        task.job.leaseToken with
    | error failure => rfl
    | ok reply =>
        exact absurd (Mark.accepted_of_execute_eq_ok found running held outcome)
          accepted

end Runs

end FleetState

section Exclusion

variable {T : Type} {fleet : Fleet T} {clock : Int} {state : FleetState T}
  {trace : List (Transition (FleetState T) (FleetLabel T))}

/-- Two tasks of a fleet that work on one job and have not sent their marks:
the lease of one of them has run out. -/
theorem handlers_exclude_each_other
    (run : Run (FleetState.Step fleet) (fleet.initial clock) trace state)
    {index other first second : Nat} {task rival : Entry T}
    (isTask : (state.worker index).entries[first]? = some task)
    (isRival : (state.worker other).entries[second]? = some rival)
    (differ : (index, first) ≠ (other, second))
    (sameJob : task.job.id = rival.job.id)
    (awaits : task.stage.awaitsMark = true)
    (rivalAwaits : rival.stage.awaitsMark = true) :
    task.job.leaseExpiresAt < state.db.clock ∨
      rival.job.leaseExpiresAt < state.db.clock := by
  have entitled := FleetState.entitled_of_run run
  have rooted := FleetState.rooted_of_run run
  have distinct := FleetState.distinct_of_run run
  have first := FleetState.entitled_of_task entitled rooted
    (List.mem_of_getElem? isTask) awaits
  have second := FleetState.entitled_of_task entitled rooted
    (List.mem_of_getElem? isRival) rivalAwaits
  rw [← sameJob] at second
  refine first.exclusive second ?_
  intro sameToken
  obtain ⟨sameReplica, samePosition⟩ :=
    distinct.same_position isTask isRival (Prod.ext sameJob sameToken)
  exact differ (Prod.ext sameReplica samePosition)

/-- A mark that is executed before the lease of its task has run out is not
fenced out: if Postgres accepts it, it moves the row, and if not, it fails and
leaves the table alone. -/
theorem mark_in_time_reaches_its_row
    (run : Run (FleetState.Step fleet) (fleet.initial clock) trace state)
    {index : Nat} {task : Entry T} {mark : Mark} {now : Int}
    (listed : task ∈ (state.worker index).entries)
    (inStage : task.stage = .marking mark)
    (later : state.db.clock ≤ now)
    (inTime : now ≤ task.job.leaseExpiresAt) :
    (mark.Accepted now ∧ ∃ updated row,
      sendMark now task.job mark state.db.jobs = (updated, .affected 1) ∧
        updated.find task.job.id = some row ∧ row.status = mark.status) ∨
    (¬ mark.Accepted now ∧
      sendMark now task.job mark state.db.jobs = (state.db.jobs, .failed)) := by
  apply FleetState.sendMark_of_holder run listed inStage later
  exact FleetState.holder_of_task run listed (by rw [inStage]; rfl)
    (later.trans inTime)

end Exclusion

/-- Both tasks of `rivals` are at work, and the first lease has run out. -/
theorem handlers_exclude_on_rivals :
    let rivals := TwoReplicas.rivals
    let first := Entry.spawned (TwoReplicas.job 1 ⟨1⟩ 11)
    let second := Entry.spawned (TwoReplicas.job 2 ⟨2⟩ 31)
    (∃ trace, Run (FleetState.Step TwoReplicas.fleet)
        (TwoReplicas.fleet.initial 0) trace rivals) ∧
      (rivals.worker 0).entries[0]? = some first ∧
      (rivals.worker 1).entries[0]? = some second ∧
      (first.job.leaseExpiresAt < rivals.db.clock ∨
        second.job.leaseExpiresAt < rivals.db.clock) := by
  intro rivals first second
  obtain ⟨trace, run⟩ := TwoReplicas.run_rivals
  have isTask : (rivals.worker 0).entries[0]? = some first := rfl
  have isRival : (rivals.worker 1).entries[0]? = some second := rfl
  exact ⟨⟨trace, run⟩, isTask, isRival,
    handlers_exclude_each_other run isTask isRival (by decide) rfl rfl rfl⟩

namespace TwoReplicas

/-- The first replica waits for its `mark_done`. -/
def markingEntry : Entry Unit :=
  { Entry.spawned (job 1 ⟨1⟩ 11) with stage := .marking .done }

/-- The handler of the first replica has succeeded and its mark is sent. -/
def marking : FleetState Unit :=
  working.setWorker 0
    { busy (job 1 ⟨1⟩ 11) with entries := [markingEntry] }

theorem run_marking :
    ∃ trace, Run (FleetState.Step fleet) (fleet.initial 0) trace marking := by
  obtain ⟨trace, run⟩ := run_working
  exact ⟨_, run.snoc (.task _ 0 [] (Entry.spawned (job 1 ⟨1⟩ 11)) [] _ rfl
    (.handled (.returns (.ok ())) (fun _ => Duration.tenMicros) rfl) rfl rfl)⟩

theorem markingEntry_listed :
    markingEntry ∈ (marking.worker 0).entries :=
  List.mem_singleton.mpr rfl

end TwoReplicas

/-- At the last instant of its lease the first replica still moves its row. -/
theorem mark_in_time_on_marking :
    let task := TwoReplicas.markingEntry
    let jobs := TwoReplicas.marking.db.jobs
    (∃ trace, Run (FleetState.Step TwoReplicas.fleet)
        (TwoReplicas.fleet.initial 0) trace TwoReplicas.marking) ∧
      task.job.leaseExpiresAt = 11 ∧
      ((Mark.done.Accepted 11 ∧ ∃ updated row,
        sendMark 11 task.job .done jobs = (updated, .affected 1) ∧
          updated.find task.job.id = some row ∧ row.status = .done) ∨
      (¬ Mark.done.Accepted 11 ∧
        sendMark 11 task.job .done jobs = (jobs, .failed))) := by
  intro task jobs
  obtain ⟨trace, run⟩ := TwoReplicas.run_marking
  exact ⟨⟨trace, run⟩, rfl, mark_in_time_reaches_its_row run
    TwoReplicas.markingEntry_listed rfl (by decide) (by decide)⟩

end PgWorkQueue
