import Mathlib.Data.List.Sort
import PgWorkQueue.Database.Statements

/-!
# Expired leases and retention: `reap`, one chunk of `purge_terminal`

Both statements order their candidates by one timestamp.  Postgres returns
candidates with equal timestamps in an order of its own; the argument `tie`
ranks them by `id` and stands for that order.
-/

namespace PgWorkQueue

/-- `ORDER BY` a timestamp, ties in the order of `tie`. -/
def TimedBefore (time : Row → Option Int) (tie : Nat → Nat)
    (left right : Row) : Prop :=
  (time left).getD 0 < (time right).getD 0 ∨
    ((time left).getD 0 = (time right).getD 0 ∧ tie left.id ≤ tie right.id)

instance (time : Row → Option Int) (tie : Nat → Nat) :
    DecidableRel (TimedBefore time tie) := fun left right =>
  inferInstanceAs (Decidable
    ((time left).getD 0 < (time right).getD 0 ∨
      ((time left).getD 0 = (time right).getD 0 ∧
        tie left.id ≤ tie right.id)))

/-- `ORDER BY time LIMIT limit FOR UPDATE SKIP LOCKED`. -/
def lockByTime (time : Row → Option Int) (tie : Nat → Nat)
    (lockedElsewhere : Nat → Bool) (limit : Nat) (rows : List Row) :
    List Row :=
  ((rows.insertionSort (TimedBefore time tie)).filter fun row =>
    !lockedElsewhere row.id).take limit

/-! ## `reap` -/

/-- `ReapedRow`. -/
structure ReapedRow where
  id : Nat
  publicId : Uuid
  status : JobStatus
  attempts : Nat
  deriving DecidableEq, Repr

/-- `queue = $1 AND status = 'running' AND lease_expires_at < now()`. -/
def Row.stale (queue : String) (now : Int) (row : Row) : Bool :=
  row.queue == queue && row.status == .running &&
    row.leaseExpiresAt.any fun expiry => decide (expiry < now)

/-- The CTE `stale`. -/
def staleCte (jobs : Jobs) (now : Int) (tie : Nat → Nat)
    (lockedElsewhere : Nat → Bool) (queue : String) (limit : Nat) :
    List Row :=
  lockByTime Row.leaseExpiresAt tie lockedElsewhere limit
    (jobs.rows.filter (Row.stale queue now))

/-- The test all three CASEs of the SET clause share. -/
def Row.exhausted (row : Row) : Bool :=
  decide (row.maxAttempts ≤ row.attempts)

def reapedVersion (now : Int) (row : Row) : Row :=
  { row with
    status := if row.exhausted then .dead else .awaitingRetry
    finishedAt := if row.exhausted then some now else none
    lastError :=
      some (if row.exhausted then "lease_expired_max_attempts"
        else "lease_expired")
    leaseToken := none
    leaseExpiresAt := none }

def ReapedRow.fromRow (row : Row) : ReapedRow where
  id := row.id
  publicId := row.publicId
  status := row.status
  attempts := row.attempts.toNat

/-- `reap`. -/
def reap (jobs : Jobs) (now : Int) (tie : Nat → Nat)
    (lockedElsewhere : Nat → Bool) (queue : String) (batchLimit : Nat) :
    Except SqlError (Jobs × List ReapedRow) := do
  let queue ← textParam queue
  let limit := min batchLimit i32Max
  let stale := staleCte jobs now tie lockedElsewhere queue limit
  let updated ← jobs.update now
    (fun row => (stale.map Row.id).contains row.id &&
      row.status == .running)
    fun row => .ok (reapedVersion now row)
  .ok (updated, stale.filterMap fun row =>
    (updated.find row.id).map ReapedRow.fromRow)

/-! ## `purge_terminal` -/

/-- `status = $1 AND finished_at < cutoff`. -/
def Row.expired (status : JobStatus) (cutoff : Int) (row : Row) : Bool :=
  row.status == status &&
    row.finishedAt.any fun finished => decide (finished < cutoff)

/-- The CTE `victims`. -/
def victimsCte (jobs : Jobs) (tie : Nat → Nat)
    (lockedElsewhere : Nat → Bool) (status : JobStatus) (cutoff : Int)
    (limit : Nat) : List Row :=
  lockByTime Row.finishedAt tie lockedElsewhere limit
    (jobs.rows.filter (Row.expired status cutoff))

/-- One DELETE of the loop of `purge_terminal`, with the number of rows it
deleted. -/
def purgeChunk (jobs : Jobs) (now : Int) (tie : Nat → Nat)
    (lockedElsewhere : Nat → Bool) (status : JobStatus) (age : Duration)
    (chunkLimit : Nat) : Except SqlError (Jobs × Nat) := do
  let ageMicros ← intervalParam age
  let cutoff ← timestampAdd now (-ageMicros)
  let victims := victimsCte jobs tie lockedElsewhere status cutoff chunkLimit
  let doomed := fun row : Row => (victims.map Row.id).contains row.id
  .ok (jobs.delete doomed, jobs.rows.countP doomed)

/-! ## What the two statements change -/

section Effect

variable {jobs updated : Jobs} {now : Int} {tie : Nat → Nat}
  {lockedElsewhere : Nat → Bool} {queue : String}
  {batchLimit limit : Nat} {row : Row} {rows : List Row}
  {time : Row → Option Int} {failure : SqlError}

theorem mem_of_mem_lockByTime
    (member : row ∈ lockByTime time tie lockedElsewhere limit rows) :
    row ∈ rows ∧ lockedElsewhere row.id = false := by
  obtain ⟨inOrder, free⟩ :=
    List.mem_filter.mp (List.mem_of_mem_take member)
  exact ⟨(List.mem_insertionSort _).mp inOrder, by simpa using free⟩

theorem lockByTime_of_free
    (free : ∀ row ∈ rows, lockedElsewhere row.id = false) :
    lockByTime time tie lockedElsewhere limit rows =
      (rows.insertionSort (TimedBefore time tie)).take limit := by
  have allFree :
      ((rows.insertionSort (TimedBefore time tie)).filter fun row =>
        !lockedElsewhere row.id) =
        rows.insertionSort (TimedBefore time tie) :=
    List.filter_eq_self.mpr fun row member => by
      simp [free row ((List.mem_insertionSort _).mp member)]
  rw [lockByTime, allFree]

theorem length_lockByTime
    (free : ∀ row ∈ rows, lockedElsewhere row.id = false) :
    (lockByTime time tie lockedElsewhere limit rows).length =
      min limit rows.length := by
  rw [lockByTime_of_free free, List.length_take, List.length_insertionSort]

/-- With no foreign lock and a limit that covers all candidates, every
candidate is locked. -/
theorem mem_lockByTime_of_covers
    (member : row ∈ rows) (free : ∀ id, lockedElsewhere id = false)
    (covers : rows.length ≤ limit) :
    row ∈ lockByTime time tie lockedElsewhere limit rows := by
  rw [lockByTime_of_free fun row _ => free row.id, List.take_of_length_le]
  · exact (List.mem_insertionSort _).mpr member
  · rw [List.length_insertionSort]
    exact covers

theorem Row.stale_iff :
    row.stale queue now = true ↔
      row.queue = queue ∧ row.status = .running ∧
        ∃ expiry, row.leaseExpiresAt = some expiry ∧ expiry < now := by
  simp [Row.stale, and_assoc, Option.any_eq_true]

theorem mem_of_mem_staleCte
    (member : row ∈ staleCte jobs now tie lockedElsewhere queue limit) :
    row ∈ jobs.rows ∧ row.stale queue now = true :=
  List.mem_filter.mp (mem_of_mem_lockByTime member).1

/-- No row is listed twice. -/
theorem staleCte_ids_nodup :
    ((staleCte jobs now tie lockedElsewhere queue limit).map
      Row.id).Nodup := by
  have candidates : ((jobs.rows.filter (Row.stale queue now)).map
      Row.id).Nodup :=
    jobs.distinct.sublist (List.filter_sublist.map Row.id)
  have ordered := ((List.perm_insertionSort (TimedBefore Row.leaseExpiresAt
    tie) _).map Row.id).nodup_iff.mpr candidates
  exact ordered.sublist
    (((List.take_sublist _ _).trans List.filter_sublist).map Row.id)

/-- The stored version of a reaped row: the SET clause, then the trigger. -/
def reapedRow (now : Int) (row : Row) : Row :=
  setUpdatedAt now (reapedVersion now row)

theorem updateRow_reapedVersion_eq_ok_iff {new : Row} :
    Jobs.updateRow now (fun row => .ok (reapedVersion now row)) row =
        .ok new ↔
      new = reapedRow now row ∧ new.PassesChecks := by
  rw [Jobs.updateRow_eq_ok_iff]
  constructor
  · rintro ⟨_, written, _, _, rfl, passes⟩
    cases written
    exact ⟨rfl, passes⟩
  · rintro ⟨rfl, passes⟩
    exact ⟨_, rfl, rfl, rfl, rfl, passes⟩

/-- What a successful `reap` did to each row. -/
theorem reap_spec
    {reaped : List ReapedRow}
    (outcome : reap jobs now tie lockedElsewhere queue batchLimit =
      .ok (updated, reaped)) :
    let stale := staleCte jobs now tie lockedElsewhere queue
      (min batchLimit i32Max)
    (∀ row ∈ stale, (reapedRow now row).PassesChecks ∧
        updated.find row.id = some (reapedRow now row)) ∧
      (∀ id, id ∉ stale.map Row.id → updated.find id = jobs.find id) ∧
      updated.nextId = jobs.nextId ∧
      reaped = stale.map fun row =>
        ReapedRow.fromRow (reapedRow now row) := by
  intro stale
  unfold reap textParam at outcome
  split at outcome
  · cases outcome
  · cases result : jobs.update now
        (fun row => (stale.map Row.id).contains row.id &&
          row.status == .running)
        (fun row => .ok (reapedVersion now row)) with
    | error failure =>
        simp only [bind, Except.bind] at outcome
        rw [result] at outcome
        cases outcome
    | ok written =>
        simp only [bind, Except.bind] at outcome
        rw [result] at outcome
        cases outcome
        have eachStale : ∀ row ∈ stale, (reapedRow now row).PassesChecks ∧
            updated.find row.id = some (reapedRow now row) := by
          intro row member
          obtain ⟨stored, isStale⟩ := mem_of_mem_staleCte member
          obtain ⟨_, running, _⟩ := Row.stale_iff.mp isStale
          rcases Jobs.find_update_of_some result
              (Jobs.find_id_of_mem stored) with
            ⟨_, new, updatedRow, foundNew⟩ | ⟨skipped, _⟩
          · obtain ⟨rfl, passes⟩ :=
              updateRow_reapedVersion_eq_ok_iff.mp updatedRow
            exact ⟨passes, foundNew⟩
          · have listed : row.id ∈ stale.map Row.id :=
              List.mem_map_of_mem member
            simp [running, listed] at skipped
        refine ⟨eachStale, ?_, (Jobs.mapM_of_update result).2, ?_⟩
        · intro id notStale
          cases found : jobs.find id with
          | none =>
              exact Jobs.find_update_of_none result found
          | some row =>
              rcases Jobs.find_update_of_some result found with
                ⟨selected, _⟩ | ⟨_, same⟩
              · obtain ⟨listed, _⟩ := Bool.and_eq_true_iff.mp selected
                rw [Jobs.id_of_find found, List.contains_iff_mem] at listed
                exact (notStale listed).elim
              · exact same
        · rw [← List.filterMap_eq_map]
          apply List.filterMap_congr
          intro row member
          rw [(eachStale row member).2]
          rfl

/-- A reap fails on its parameter or on a CHECK that the new version of a
stale row violates. -/
theorem reap_eq_error
    (outcome : reap jobs now tie lockedElsewhere queue batchLimit =
      .error failure) :
    '\x00' ∈ queue.toList ∧ failure = .characterNotInRepertoire ∨
      ∃ row ∈ jobs.rows, row.stale queue now = true ∧
        ¬ (reapedRow now row).PassesChecks := by
  unfold reap textParam at outcome
  split at outcome
  · rename_i hasNul
    cases outcome
    exact Or.inl ⟨hasNul, rfl⟩
  · right
    simp only [bind, Except.bind] at outcome
    split at outcome
    · rename_i result
      obtain ⟨row, member, selected, rowFailed⟩ :=
        Jobs.exists_of_update_eq_error result
      obtain ⟨listed, _⟩ := Bool.and_eq_true_iff.mp selected
      obtain ⟨candidate, inStale, sameId⟩ :=
        List.mem_map.mp (List.contains_iff_mem.mp listed)
      obtain ⟨stored, isStale⟩ := mem_of_mem_staleCte inStale
      rw [Jobs.eq_of_id_eq stored member sameId] at isStale
      refine ⟨row, member, isStale, ?_⟩
      intro passes
      rw [updateRow_reapedVersion_eq_ok_iff.mpr ⟨rfl, passes⟩] at rowFailed
      cases rowFailed
    · cases outcome

section Purge

variable {status : JobStatus} {age : Duration} {count : Nat} {cutoff : Int}

theorem Row.expired_iff :
    row.expired status cutoff = true ↔ row.status = status ∧
      ∃ finished, row.finishedAt = some finished ∧ finished < cutoff := by
  simp [Row.expired, Option.any_eq_true]

/-- A stored row is named by the victims exactly when it is one of them. -/
theorem contains_victims_iff (stored : row ∈ jobs.rows) :
    ((victimsCte jobs tie lockedElsewhere status cutoff limit).map
        Row.id).contains row.id = true ↔
      row ∈ victimsCte jobs tie lockedElsewhere status cutoff limit := by
  rw [List.contains_iff_mem]
  constructor
  · intro named
    obtain ⟨victim, inVictims, sameId⟩ := List.mem_map.mp named
    have member := (List.mem_filter.mp
      (mem_of_mem_lockByTime inVictims).1).1
    rw [← Jobs.eq_of_id_eq member stored sameId]
    exact inVictims
  · exact List.mem_map_of_mem

theorem expired_of_mem_victimsCte
    (member : row ∈ victimsCte jobs tie lockedElsewhere status cutoff limit) :
    row ∈ jobs.rows ∧ row.expired status cutoff = true :=
  List.mem_filter.mp (mem_of_mem_lockByTime member).1

/-- A chunk that succeeds deletes its victims and counts them. -/
theorem purgeChunk_eq_ok
    (outcome : purgeChunk jobs now tie lockedElsewhere status age limit =
      .ok (updated, count)) :
    let victims := victimsCte jobs tie lockedElsewhere status
      (now - age.asMicros) limit
    let doomed := fun row : Row => (victims.map Row.id).contains row.id
    updated = jobs.delete doomed ∧ count = jobs.rows.countP doomed := by
  unfold purgeChunk intervalParam timestampAdd at outcome
  split at outcome
  · simp only [bind, Except.bind] at outcome
    split at outcome
    · cases outcome
    · rename_i cutoff cutoffOk
      split at cutoffOk
      · cases cutoffOk
        cases outcome
        exact ⟨rfl, rfl⟩
      · cases cutoffOk
  · cases outcome

/-- What one chunk of a purge did to each row. -/
theorem purgeChunk_spec
    (outcome : purgeChunk jobs now tie lockedElsewhere status age limit =
      .ok (updated, count)) :
    updated.nextId = jobs.nextId ∧
      ∀ id, updated.find id = jobs.find id ∨
        updated.find id = none ∧
          ∃ row finished, jobs.find id = some row ∧ row.status = status ∧
            row.finishedAt = some finished ∧
            finished < now - age.asMicros := by
  obtain ⟨rfl, _⟩ := purgeChunk_eq_ok outcome
  refine ⟨rfl, ?_⟩
  intro id
  rw [Jobs.find_delete]
  cases found : jobs.find id with
  | none =>
      exact Or.inl rfl
  | some row =>
      rw [Option.filter_some]
      split
      · exact Or.inl rfl
      · rename_i doomed
        right
        rw [Bool.not_eq_true', Bool.not_eq_false,
          contains_victims_iff (Jobs.find_eq_some_iff.mp found).1] at doomed
        obtain ⟨sameStatus, finished, isFinished, early⟩ :=
          Row.expired_iff.mp (expired_of_mem_victimsCte doomed).2
        exact ⟨rfl, row, finished, rfl, sameStatus, isFinished, early⟩

theorem purgeChunk_eq_error
    (outcome : purgeChunk jobs now tie lockedElsewhere status age limit =
      .error failure) :
    failure = .encode ∨ failure = .datetimeFieldOverflow := by
  unfold purgeChunk intervalParam timestampAdd at outcome
  split at outcome
  · simp only [bind, Except.bind] at outcome
    split at outcome
    · rename_i refused
      split at refused
      · cases refused
      · cases refused
        cases outcome
        exact Or.inr rfl
    · cases outcome
  · cases outcome
    exact Or.inl rfl

end Purge

end Effect

end PgWorkQueue
