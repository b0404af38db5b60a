import PgWorkQueue.Client.KeyedClaim
import PgWorkQueue.System.History

/-!
# Snapshots

A claim at READ COMMITTED takes a snapshot first: it fixes `now()`, the ids that
survive the limits of `SQL_KEYED`, and the ordered candidates.  The rows are
locked later, in their latest versions.  Here is what a snapshot proposes and
what is left of it in a later table.

The locking CTE of `SQL_KEYED` tests neither `queue` nor `concurrency_key`
again.  That is harmless because no statement writes these columns and no `id`
is used twice.
-/

namespace PgWorkQueue


/-! ## Claims after their snapshot -/

/-- A claim after its snapshot: its parameters as bound and, for `SQL_KEYED`,
the ids that survived the limits of the `eligible` CTEs. -/
structure OpenClaim where
  params : ClaimParams
  now : Int
  gen : Nat → Uuid
  leaseMicros : Int
  eligible : Option (List Nat)

namespace OpenClaim

def limit (claim : OpenClaim) : Nat :=
  min claim.params.batchSize i32Max

def maxAttempts (claim : OpenClaim) : Int :=
  (min claim.params.maxAttempts i32Max : Nat)

/-- The predicate of the locking CTE: `claimed` of `SQL_PLAIN`, `locked` of
`SQL_KEYED`. -/
def test (claim : OpenClaim) (row : Row) : Bool :=
  match claim.eligible with
  | none => row.runnable claim.params.queue claim.now
  | some ids => row.lockable ids claim.now

/-- The candidates in the order in which they are visited. -/
def candidates (claim : OpenClaim) (jobs : Jobs) : List Row :=
  orderByRunAtId (jobs.rows.filter claim.test)

/-- The UPDATE of the rows the claim has locked. -/
def update (claim : OpenClaim) (jobs : Jobs) (locked : List Row) :
    Except SqlError (Jobs × List Row) :=
  updateChosen jobs claim.now claim.gen claim.leaseMicros claim.maxAttempts
    locked

/-- The version of a row that the claim writes, and the row it returns. -/
def writes (claim : OpenClaim) (row : Row) : Row :=
  claimedRow claim.now claim.gen claim.leaseMicros claim.maxAttempts row

def returns (claim : OpenClaim) (row : Row) : RawClaimedRow :=
  claimedRaw claim.now claim.gen claim.leaseMicros claim.maxAttempts row

end OpenClaim

/-- Binding the parameters and, for `SQL_KEYED`, ranking the rows of the
snapshot. -/
def openClaim (jobs : Jobs) (now : Int) (gen : Nat → Uuid)
    (params : ClaimParams) : Except SqlError OpenClaim := do
  let queue ← textParam params.queue
  let leaseMicros ← intervalParam params.leaseTimeout
  if params.headroom.entries.isEmpty then
    .ok ⟨params, now, gen, leaseMicros, none⟩
  else
    let hr ← hrCte params.headroom
    .ok ⟨params, now, gen, leaseMicros,
      some (eligibleIds jobs now queue (min params.batchSize i32Max) hr)⟩

/-! ## The snapshot -/

section Snapshot

variable {jobs : Jobs} {now : Int} {gen : Nat → Uuid} {params : ClaimParams}
  {claim : OpenClaim} {row : Row}

/-- What holds of the candidates of a claim from its snapshot on. -/
structure SnapshotOf (claim : OpenClaim) (candidates : List Row) : Prop where
  distinct : (candidates.map Row.id).Nodup
  inQueue : ∀ candidate ∈ candidates,
    candidate.queue = claim.params.queue
  capped : ∀ key room, claim.params.headroom.lookup key = some room →
    candidates.countP (·.concurrencyKey == some key) ≤ room

theorem OpenClaim.due_of_test (passes : claim.test row = true) :
    row.due claim.now = true := by
  unfold OpenClaim.test at passes
  cases eligible : claim.eligible with
  | none =>
      rw [eligible] at passes
      exact (Bool.and_eq_true_iff.mp passes).2
  | some ids =>
      rw [eligible] at passes
      exact (Bool.and_eq_true_iff.mp passes).2

theorem OpenClaim.waiting_of_test (passes : claim.test row = true) :
    row.waiting = true :=
  (Bool.and_eq_true_iff.mp (OpenClaim.due_of_test passes)).1

theorem OpenClaim.mem_candidates :
    row ∈ claim.candidates jobs ↔
      row ∈ jobs.rows ∧ claim.test row = true := by
  rw [OpenClaim.candidates, mem_orderByRunAtId, List.mem_filter]

/-- The two forms an open claim takes. -/
theorem openClaim_cases
    (outcome : openClaim jobs now gen params = .ok claim) :
    ∃ leaseMicros, textParam params.queue = .ok params.queue ∧
      intervalParam params.leaseTimeout = .ok leaseMicros ∧
      ((params.headroom.entries.isEmpty = true ∧
          claim = ⟨params, now, gen, leaseMicros, none⟩) ∨
        params.headroom.entries.isEmpty = false ∧
          HeadroomAccepted params.headroom ∧
          claim = ⟨params, now, gen, leaseMicros,
            some (eligibleIds jobs now params.queue
              (min params.batchSize i32Max) (hrRows params.headroom))⟩) := by
  unfold openClaim textParam at outcome
  unfold textParam
  split at outcome
  · cases outcome
  · rename_i noNul
    cases interval : intervalParam params.leaseTimeout with
    | error failure =>
        rw [interval] at outcome
        cases outcome
    | ok leaseMicros =>
        simp only [interval, bind, Except.bind] at outcome
        refine ⟨leaseMicros, if_neg noNul, rfl, ?_⟩
        split at outcome
        · rename_i plain
          cases outcome
          exact Or.inl ⟨plain, rfl⟩
        · rename_i keyed
          cases cast : hrCte params.headroom with
          | error failure =>
              rw [cast] at outcome
              cases outcome
          | ok hr =>
              obtain ⟨accepted, rfl⟩ := hrCte_eq_ok_iff.mp cast
              rw [cast] at outcome
              cases outcome
              exact Or.inr ⟨by simpa using keyed, accepted, rfl⟩

theorem snapshotOf_openClaim
    (outcome : openClaim jobs now gen params = .ok claim) :
    SnapshotOf claim (claim.candidates jobs) := by
  have distinct : ((claim.candidates jobs).map Row.id).Nodup :=
    ((orderByRunAtId_perm _).map Row.id).nodup_iff.mpr
      (jobs.distinct.sublist (List.filter_sublist.map Row.id))
  obtain ⟨leaseMicros, _, _, ⟨plain, rfl⟩ | ⟨_, _, rfl⟩⟩ :=
    openClaim_cases outcome
  · refine ⟨distinct, ?_, ?_⟩
    · intro candidate member
      have runnable := (OpenClaim.mem_candidates.mp member).2
      exact (Row.runnable_iff.mp runnable).1
    · intro key room found
      rw [← Option.mem_def, AList.mem_lookup_iff,
        List.isEmpty_iff.mp plain] at found
      cases found
  · refine ⟨distinct, ?_, ?_⟩
    · intro candidate member
      obtain ⟨stored, lockable⟩ := OpenClaim.mem_candidates.mp member
      exact (Row.runnable_iff.mp (runnable_of_lockable stored lockable)).1
    · intro key room found
      change (orderByRunAtId (jobs.rows.filter (Row.lockable _ now))).countP
        _ ≤ room
      rw [orderByRunAtId_lockable]
      exact countP_eligibleInOrder_le found

end Snapshot

/-! ## Later tables -/

/-- How far a row has come: every write adds one, for a claim starts an attempt
and a mark or a reap ends it. -/
def Row.progress (row : Row) : Int :=
  2 * row.attempts + if row.status = .running then 0 else 1

/-- A later version of a row: it is the same job, it has moved on if it has
changed, and it has not changed if the job was finished. -/
structure Row.Succeeds (new old : Row) : Prop where
  sameJob : SameJob old new
  moved : new = old ∨ old.progress < new.progress
  frozen : old.status.IsTerminal → new = old

/-- A later table: no `id` is used twice, and the rows that are left are later
versions. -/
structure Follows (jobs later : Jobs) : Prop where
  sequence : jobs.nextId ≤ later.nextId
  versions : ∀ id new, id < jobs.nextId → later.find id = some new →
    ∃ old, jobs.find id = some old ∧ new.Succeeds old

section Follows

variable {T : Type} {jobs middle later : Jobs} {now : Int}
  {first second third old new row : Row}

theorem Row.progress_of_running (running : row.status = .running) :
    row.progress = 2 * row.attempts := by
  rw [Row.progress, if_pos running, Int.add_zero]

theorem Row.progress_of_not_running (notRunning : row.status ≠ .running) :
    row.progress = 2 * row.attempts + 1 := by
  rw [Row.progress, if_neg notRunning]

theorem Row.not_running_of_waiting (waiting : row.waiting = true) :
    row.status ≠ .running := by
  intro running
  simp [Row.waiting, running] at waiting

theorem Row.Succeeds.refl (row : Row) : row.Succeeds row :=
  ⟨SameJob.refl row, Or.inl rfl, fun _ => rfl⟩

theorem Row.Succeeds.trans (left : second.Succeeds first)
    (right : third.Succeeds second) : third.Succeeds first where
  sameJob := left.sameJob.trans right.sameJob
  moved := by
    rcases right.moved with rfl | further
    · exact left.moved
    · rcases left.moved with rfl | moved
      · exact Or.inr further
      · exact Or.inr (Int.lt_trans moved further)
  frozen := by
    intro terminal
    have same := left.frozen terminal
    subst same
    exact right.frozen terminal

theorem Follows.refl (jobs : Jobs) : Follows jobs jobs where
  sequence := Nat.le_refl _
  versions := fun _ new _ found => ⟨new, found, .refl new⟩

theorem Follows.trans (left : Follows jobs middle)
    (right : Follows middle later) : Follows jobs later where
  sequence := Nat.le_trans left.sequence right.sequence
  versions := by
    intro id new known found
    obtain ⟨between, wasThere, succeeds⟩ := right.versions id new
      (Nat.lt_of_lt_of_le known left.sequence) found
    obtain ⟨old, before, earlier⟩ := left.versions id between known wasThere
    exact ⟨old, before, earlier.trans succeeds⟩

theorem Follows.succeeds {id : Nat} (follows : Follows jobs later)
    (before : jobs.find id = some old) (after : later.find id = some new) :
    new.Succeeds old := by
  obtain ⟨same, found, succeeds⟩ :=
    follows.versions id new (Jobs.lt_nextId_of_find before) after
  rw [before] at found
  cases found
  exact succeeds

/-- One statement leaves a row alone, moves it on, or deletes it. -/
theorem moved_of_execute {statement : Statement T} {id : Nat}
    (before : jobs.find id = some old)
    (after : (execute jobs now statement).1.find id = some new) :
    new = old ∨ old.progress < new.progress := by
  cases execute_effect jobs now statement id with
  | same _ unchanged =>
      rw [unchanged, before] at after
      cases after
      exact Or.inl rfl
  | inserted _ _ _ fresh =>
      rw [Jobs.find_eq_none_of_nextId_le fresh] at before
      cases before
  | claimed _ _ _ row _ found runnable _ _ _ written =>
      rw [found] at before
      cases before
      rw [written] at after
      cases after
      have waiting := Row.not_running_of_waiting
        (Bool.and_eq_true_iff.mp (Bool.and_eq_true_iff.mp runnable).2).1
      rw [Row.progress_of_not_running waiting, Row.progress_of_running rfl]
      right
      change _ < 2 * (old.attempts + 1)
      omega
  | marked _ mark row found running _ _ written =>
      rw [found] at before
      cases before
      rw [written] at after
      cases after
      have ended : (mark.markedRow now old).status ≠ .running := by
        rw [Mark.markedRow_status]
        exact mark.status_ne_running
      have attempts : (mark.markedRow now old).attempts = old.attempts := by
        cases mark <;> rfl
      rw [Row.progress_of_running running, Row.progress_of_not_running ended,
        attempts]
      exact Or.inr (Int.lt_add_one_of_le (Int.le_refl _))
  | reaped _ _ _ _ row found stale written =>
      rw [found] at before
      cases before
      rw [written] at after
      cases after
      have running := (Row.stale_iff.mp stale).2.1
      rw [Row.progress_of_running running,
        Row.progress_of_not_running (reapedRow_status_ne_running now old)]
      exact Or.inr (Int.lt_add_one_of_le (Int.le_refl _))
  | purged _ _ _ _ _ _ _ _ _ _ gone =>
      rw [gone] at after
      cases after

theorem follows_execute (jobs : Jobs) (now : Int)
    (statement : Statement T) :
    Follows jobs (execute jobs now statement).1 where
  sequence := nextId_le_execute jobs now statement
  versions := by
    intro id new known after
    have atState : ((DbState.mk jobs now []).after
        ⟨now, statement⟩).jobs.find id = some new := after
    cases before : jobs.find id with
    | none =>
        have absent : (DbState.mk jobs now []).jobs.find id = none := before
        obtain ⟨_, _, _, fresh, _⟩ :=
          DbState.exists_insert_of_absent absent atState
        have drawn : jobs.nextId ≤ id := fresh
        omega
    | some old =>
        have stored : (DbState.mk jobs now []).jobs.find id = some old :=
          before
        rcases rowLaw_of_step ⟨now, statement⟩ stored with
          ⟨kept, found, law⟩ | ⟨gone, _⟩
        · rw [atState] at found
          cases found
          exact ⟨old, rfl, law.sameJob, moved_of_execute before after,
            law.frozen⟩
        · rw [atState] at gone
          cases gone

end Follows

end PgWorkQueue
