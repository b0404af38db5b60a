import Mathlib.Data.List.AList
import PgWorkQueue.Client.Limits
import PgWorkQueue.Database.Statements
import PgWorkQueue.Library.CappedScan

/-!
# Claiming: `SQL_PLAIN`, `SQL_KEYED`, `claim_batch_raw`

Each statement first chooses rows and then updates them.  The choice is written
out CTE by CTE.  `FOR UPDATE SKIP LOCKED` skips the rows that other transactions
hold; which rows these are is an argument, `lockedElsewhere`.  The values of
`gen_random_uuid()` are an argument too: `gen id` is the value drawn for the
row `id`.
-/

namespace PgWorkQueue

open Library

/-- `HashMap<String, V>`. -/
abbrev HashMap (V : Type) := AList fun _ : String => V

/-- `RawClaimedRow`. -/
structure RawClaimedRow where
  id : Nat
  publicId : Uuid
  queue : String
  concurrencyKey : Option String
  payload : Bytes
  attempts : Nat
  maxAttempts : Nat
  firstAttemptedAt : Int
  leaseToken : Uuid
  leaseExpiresAt : Int
  deriving DecidableEq, Repr

/-! ## Order and predicates -/

/-- `ORDER BY run_at, id`. -/
def Row.Precedes (left right : Row) : Prop :=
  left.runAt < right.runAt ∨ (left.runAt = right.runAt ∧ left.id ≤ right.id)

instance : DecidableRel Row.Precedes := fun left right =>
  inferInstanceAs (Decidable
    (left.runAt < right.runAt ∨
      (left.runAt = right.runAt ∧ left.id ≤ right.id)))

instance : Std.Total Row.Precedes where
  total left right := by
    unfold Row.Precedes
    omega

instance : IsTrans Row Row.Precedes where
  trans left middle right := by
    unfold Row.Precedes
    omega

theorem Row.id_eq_of_precedes
    {left right : Row} (forward : left.Precedes right)
    (backward : right.Precedes left) :
    left.id = right.id := by
  unfold Precedes at forward backward
  omega

def orderByRunAtId (rows : List Row) : List Row :=
  rows.insertionSort Row.Precedes

/-- `status IN ('queued', 'awaiting_retry')`. -/
def Row.waiting (row : Row) : Bool :=
  row.status == .queued || row.status == .awaitingRetry

/-- `status IN ('queued', 'awaiting_retry') AND run_at <= now()`. -/
def Row.due (now : Int) (row : Row) : Bool :=
  row.waiting && decide (row.runAt ≤ now)

/-- The predicate of `SQL_PLAIN`: a due row of the queue. -/
def Row.runnable (queue : String) (now : Int) (row : Row) : Bool :=
  row.queue == queue && row.due now

/-- `ORDER BY run_at, id LIMIT $2 FOR UPDATE SKIP LOCKED`. -/
def lockInOrder (lockedElsewhere : Nat → Bool) (limit : Nat)
    (rows : List Row) : List Row :=
  ((orderByRunAtId rows).filter fun row => !lockedElsewhere row.id).take limit

/-! ## The CTEs -/

/-- The CTE `claimed` of `SQL_PLAIN`. -/
def claimedCte (jobs : Jobs) (now : Int)
    (lockedElsewhere : Nat → Bool) (queue : String) (limit : Nat) :
    List Row :=
  lockInOrder lockedElsewhere limit
    (jobs.rows.filter (Row.runnable queue now))

/-- The CTE `hr`: `$5::jsonb` refuses the escape of U+0000 in a key, and
`value::int` refuses a value above `i32::MAX`. -/
def hrCte (headroom : HashMap Nat) : Except SqlError (List (String × Nat)) :=
  if headroom.entries.any fun entry => decide ('\x00' ∈ entry.1.toList) then
    .error .untranslatableCharacter
  else if headroom.entries.any fun entry => decide (i32Max < entry.2) then
    .error .numericValueOutOfRange
  else
    .ok (headroom.entries.map fun entry => (entry.1, entry.2))

/-- The LATERAL of `eligible_keyed` for one row of `hr`. -/
def eligibleOfKey (jobs : Jobs) (now : Int) (queue : String)
    (limit : Nat) (entry : String × Nat) : List Row :=
  (orderByRunAtId (jobs.rows.filter fun row =>
      row.runnable queue now && row.concurrencyKey == some entry.1)).take
    (min (max entry.2 0) limit)

def eligibleKeyed (jobs : Jobs) (now : Int) (queue : String)
    (limit : Nat) (hr : List (String × Nat)) : List Nat :=
  hr.flatMap fun entry =>
    (eligibleOfKey jobs now queue limit entry).map Row.id

/-- The anti-join of `eligible_unlimited`: no row of `hr` matches the key.  A
NULL key matches none. -/
def unmatched (hr : List (String × Nat)) (row : Row) : Bool :=
  hr.all fun entry => row.concurrencyKey != some entry.1

def eligibleUnlimited (jobs : Jobs) (now : Int) (queue : String)
    (limit : Nat) (hr : List (String × Nat)) : List Nat :=
  ((orderByRunAtId (jobs.rows.filter fun row =>
      row.runnable queue now && unmatched hr row)).take limit).map Row.id

/-- The ids `locked` draws from. -/
def eligibleIds (jobs : Jobs) (now : Int) (queue : String)
    (limit : Nat) (hr : List (String × Nat)) : List Nat :=
  eligibleKeyed jobs now queue limit hr ++
    eligibleUnlimited jobs now queue limit hr

/-- The predicate of the CTE `locked`; neither `queue` nor `concurrency_key`
is tested again. -/
def Row.lockable (ids : List Nat) (now : Int) (row : Row) : Bool :=
  ids.contains row.id && row.due now

/-- The CTE `locked` of `SQL_KEYED`. -/
def lockedCte (jobs : Jobs) (now : Int)
    (lockedElsewhere : Nat → Bool) (queue : String) (limit : Nat)
    (hr : List (String × Nat)) : List Row :=
  lockInOrder lockedElsewhere limit
    (jobs.rows.filter
      (Row.lockable (eligibleIds jobs now queue limit hr) now))

/-! ## The UPDATE -/

/-- The version of a row the SET clause writes, when neither sum overflows. -/
def claimedVersion (now : Int) (gen : Nat → Uuid) (leaseMicros : Int)
    (maxAttempts : Int) (row : Row) : Row :=
  { row with
    status := .running
    attempts := row.attempts + 1
    maxAttempts := maxAttempts
    lastAttemptedAt := some now
    firstAttemptedAt := some (row.firstAttemptedAt.getD now)
    leaseToken := some (gen row.id)
    leaseExpiresAt := some (now + leaseMicros)
    lastError := none }

/-- The SET clause shared by the two statements. -/
def claimSet (now : Int) (gen : Nat → Uuid) (leaseMicros : Int)
    (maxAttempts : Int) (row : Row) : Except SqlError Row := do
  let _attempts ← int4Succ row.attempts
  let _leaseExpiresAt ← timestampAdd now leaseMicros
  .ok (claimedVersion now gen leaseMicros maxAttempts row)

/-- `UPDATE pgwq.jobs j SET .. FROM chosen WHERE j.id = chosen.id RETURNING ..`:
the new table and the new versions in claim order. -/
def updateChosen (jobs : Jobs) (now : Int) (gen : Nat → Uuid)
    (leaseMicros : Int) (maxAttempts : Int) (chosen : List Row) :
    Except SqlError (Jobs × List Row) := do
  let updated ← jobs.update now
    (fun row => (chosen.map Row.id).contains row.id)
    (claimSet now gen leaseMicros maxAttempts)
  .ok (updated, chosen.filterMap fun row => updated.find row.id)

/-- `SQL_PLAIN`. -/
def sqlPlain (jobs : Jobs) (now : Int) (gen : Nat → Uuid)
    (lockedElsewhere : Nat → Bool) (queue : String) (limit : Nat)
    (leaseMicros : Int) (maxAttempts : Int) :
    Except SqlError (Jobs × List Row) :=
  updateChosen jobs now gen leaseMicros maxAttempts
    (claimedCte jobs now lockedElsewhere queue limit)

/-- `SQL_KEYED`. -/
def sqlKeyed (jobs : Jobs) (now : Int) (gen : Nat → Uuid)
    (lockedElsewhere : Nat → Bool) (queue : String) (limit : Nat)
    (leaseMicros : Int) (maxAttempts : Int) (headroom : HashMap Nat) :
    Except SqlError (Jobs × List Row) := do
  let hr ← hrCte headroom
  updateChosen jobs now gen leaseMicros maxAttempts
    (lockedCte jobs now lockedElsewhere queue limit hr)

/-! ## `claim_batch_raw` -/

/-- What `claim_batch_raw` is called with, besides the pool. -/
structure ClaimParams where
  queue : String
  batchSize : Nat
  leaseTimeout : Duration
  maxAttempts : Nat
  headroom : HashMap Nat

/-- Reading one returned row: `try_get` refuses a NULL in a column the struct
needs; `u32::try_from(..).unwrap_or(0)` turns a negative count into 0. -/
def RawClaimedRow.fromRow (row : Row) : Except SqlError RawClaimedRow :=
  match row.firstAttemptedAt, row.leaseToken, row.leaseExpiresAt with
  | some firstAttemptedAt, some leaseToken, some leaseExpiresAt =>
      .ok
        { id := row.id
          publicId := row.publicId
          queue := row.queue
          concurrencyKey := row.concurrencyKey
          payload := row.payload
          attempts := row.attempts.toNat
          maxAttempts := row.maxAttempts.toNat
          firstAttemptedAt := firstAttemptedAt
          leaseToken := leaseToken
          leaseExpiresAt := leaseExpiresAt }
  | _, _, _ => .error .columnDecode

/-- The statement `claim_batch_raw` sends. -/
def claimStatement (jobs : Jobs) (now : Int) (gen : Nat → Uuid)
    (lockedElsewhere : Nat → Bool) (params : ClaimParams) :
    Except SqlError (Jobs × List Row) := do
  let queue ← textParam params.queue
  let leaseMicros ← intervalParam params.leaseTimeout
  let limit := min params.batchSize i32Max
  let maxAttempts := min params.maxAttempts i32Max
  if params.headroom.entries.isEmpty then
    sqlPlain jobs now gen lockedElsewhere queue limit leaseMicros maxAttempts
  else
    sqlKeyed jobs now gen lockedElsewhere queue limit leaseMicros maxAttempts
      params.headroom

/-- `claim_batch_raw`. -/
def claimBatchRaw (jobs : Jobs) (now : Int) (gen : Nat → Uuid)
    (lockedElsewhere : Nat → Bool) (params : ClaimParams) :
    Except SqlError (Jobs × List RawClaimedRow) := do
  let (updated, rows) ← claimStatement jobs now gen lockedElsewhere params
  let out ← rows.mapM RawClaimedRow.fromRow
  .ok (updated, out)

/-! ## What the choice guarantees -/

section Choice

variable {jobs : Jobs} {now : Int} {lockedElsewhere : Nat → Bool}
  {queue : String} {limit : Nat} {rows : List Row} {row : Row}

theorem Row.runnable_iff :
    row.runnable queue now = true ↔
      row.queue = queue ∧
        (row.status = .queued ∨ row.status = .awaitingRetry) ∧
        row.runAt ≤ now := by
  simp [Row.runnable, Row.due, Row.waiting]

theorem Row.waiting_of_runnable
    (runnable : row.runnable queue now = true) : row.waiting = true := by
  rcases (Row.runnable_iff.mp runnable).2.1 with queued | awaitingRetry
  · simp [Row.waiting, queued]
  · simp [Row.waiting, awaitingRetry]

@[simp]
theorem mem_orderByRunAtId : row ∈ orderByRunAtId rows ↔ row ∈ rows :=
  List.mem_insertionSort Row.Precedes

theorem orderByRunAtId_perm (rows : List Row) :
    (orderByRunAtId rows).Perm rows :=
  List.perm_insertionSort Row.Precedes rows

theorem mem_of_mem_lockInOrder
    (member : row ∈ lockInOrder lockedElsewhere limit rows) :
    row ∈ rows ∧ lockedElsewhere row.id = false := by
  obtain ⟨inOrder, free⟩ :=
    List.mem_filter.mp (List.mem_of_mem_take member)
  exact ⟨mem_orderByRunAtId.mp inOrder, by simpa using free⟩

theorem lockInOrder_ids_nodup
    (distinct : (rows.map Row.id).Nodup) :
    ((lockInOrder lockedElsewhere limit rows).map Row.id).Nodup := by
  have ordered : ((orderByRunAtId rows).map Row.id).Nodup :=
    ((orderByRunAtId_perm rows).map Row.id).nodup_iff.mpr distinct
  exact ordered.sublist
    (((List.take_sublist _ _).trans List.filter_sublist).map Row.id)

theorem length_lockInOrder_le :
    (lockInOrder lockedElsewhere limit rows).length ≤ limit :=
  List.length_take_le _ _

/-- With no foreign lock and a limit that covers all candidates, every
candidate is locked. -/
theorem mem_lockInOrder_of_covers
    (member : row ∈ rows) (free : ∀ id, lockedElsewhere id = false)
    (covers : rows.length ≤ limit) :
    row ∈ lockInOrder lockedElsewhere limit rows := by
  have allFree :
      ((orderByRunAtId rows).filter fun row => !lockedElsewhere row.id) =
        orderByRunAtId rows :=
    List.filter_eq_self.mpr fun row _ => by simp [free row.id]
  rw [lockInOrder, allFree, List.take_of_length_le]
  · exact mem_orderByRunAtId.mpr member
  · rw [(orderByRunAtId_perm rows).length_eq]
    exact covers

/-- What both statements guarantee about the rows they choose. -/
structure Chosen (jobs : Jobs) (now : Int) (lockedElsewhere : Nat → Bool)
    (queue : String) (limit : Nat) (chosen : List Row) : Prop where
  stored : ∀ row ∈ chosen, row ∈ jobs.rows
  runnable : ∀ row ∈ chosen, row.runnable queue now = true
  unlocked : ∀ row ∈ chosen, lockedElsewhere row.id = false
  distinct : (chosen.map Row.id).Nodup
  bounded : chosen.length ≤ limit

theorem chosen_claimedCte :
    Chosen jobs now lockedElsewhere queue limit
      (claimedCte jobs now lockedElsewhere queue limit) where
  stored := fun _ member =>
    List.mem_of_mem_filter (mem_of_mem_lockInOrder member).1
  runnable := fun _ member =>
    (List.mem_filter.mp (mem_of_mem_lockInOrder member).1).2
  unlocked := fun _ member => (mem_of_mem_lockInOrder member).2
  distinct := lockInOrder_ids_nodup
    (jobs.distinct.sublist (List.filter_sublist.map Row.id))
  bounded := length_lockInOrder_le

/-- Every id that `locked` may draw belongs to a runnable row of the queue,
with its key among the rows of `hr` or unmatched by all of them. -/
theorem exists_runnable_of_mem_eligibleIds
    {hr : List (String × Nat)} {id : Nat}
    (member : id ∈ eligibleIds jobs now queue limit hr) :
    ∃ row ∈ jobs.rows, row.id = id ∧ row.runnable queue now = true := by
  rcases List.mem_append.mp member with keyed | unlimited
  · obtain ⟨entry, _, inEntry⟩ := List.mem_flatMap.mp keyed
    obtain ⟨row, inTake, rfl⟩ := List.mem_map.mp inEntry
    have inOrder := mem_orderByRunAtId.mp (List.mem_of_mem_take inTake)
    obtain ⟨stored, passes⟩ := List.mem_filter.mp inOrder
    exact ⟨row, stored, rfl, (Bool.and_eq_true_iff.mp passes).1⟩
  · obtain ⟨row, inTake, rfl⟩ := List.mem_map.mp unlimited
    have inOrder := mem_orderByRunAtId.mp (List.mem_of_mem_take inTake)
    obtain ⟨stored, passes⟩ := List.mem_filter.mp inOrder
    exact ⟨row, stored, rfl, (Bool.and_eq_true_iff.mp passes).1⟩

/-- `queue` need not be tested again in `locked`: an `id` names one row. -/
theorem runnable_of_lockable
    {hr : List (String × Nat)} (stored : row ∈ jobs.rows)
    (lockable :
      row.lockable (eligibleIds jobs now queue limit hr) now = true) :
    row.runnable queue now = true := by
  obtain ⟨eligible, _⟩ := Bool.and_eq_true_iff.mp lockable
  obtain ⟨other, otherStored, sameId, runnable⟩ :=
    exists_runnable_of_mem_eligibleIds (List.contains_iff_mem.mp eligible)
  exact Jobs.eq_of_id_eq otherStored stored sameId ▸ runnable

theorem chosen_lockedCte (hr : List (String × Nat)) :
    Chosen jobs now lockedElsewhere queue limit
      (lockedCte jobs now lockedElsewhere queue limit hr) where
  stored := fun _ member =>
    List.mem_of_mem_filter (mem_of_mem_lockInOrder member).1
  runnable := fun _ member => by
    obtain ⟨stored, lockable⟩ :=
      List.mem_filter.mp (mem_of_mem_lockInOrder member).1
    exact runnable_of_lockable stored lockable
  unlocked := fun _ member => (mem_of_mem_lockInOrder member).2
  distinct := lockInOrder_ids_nodup
    (jobs.distinct.sublist (List.filter_sublist.map Row.id))
  bounded := length_lockInOrder_le

end Choice

/-! ## What the UPDATE writes -/

section Write

variable {jobs updated : Jobs} {now : Int} {gen : Nat → Uuid}
  {leaseMicros maxAttempts : Int} {chosen rows : List Row} {row : Row}

/-- The stored version of a claimed row: the SET clause, then the trigger. -/
def claimedRow (now : Int) (gen : Nat → Uuid) (leaseMicros : Int)
    (maxAttempts : Int) (row : Row) : Row :=
  setUpdatedAt now (claimedVersion now gen leaseMicros maxAttempts row)

/-- The row `claim_batch_raw` returns for it. -/
def claimedRaw (now : Int) (gen : Nat → Uuid) (leaseMicros : Int)
    (maxAttempts : Int) (row : Row) : RawClaimedRow where
  id := row.id
  publicId := row.publicId
  queue := row.queue
  concurrencyKey := row.concurrencyKey
  payload := row.payload
  attempts := (row.attempts + 1).toNat
  maxAttempts := maxAttempts.toNat
  firstAttemptedAt := row.firstAttemptedAt.getD now
  leaseToken := gen row.id
  leaseExpiresAt := now + leaseMicros

theorem fromRow_claimedRow (row : Row) :
    RawClaimedRow.fromRow
        (claimedRow now gen leaseMicros maxAttempts row) =
      .ok (claimedRaw now gen leaseMicros maxAttempts row) :=
  rfl

theorem columns_of_fromRow
    {raw : RawClaimedRow} (read : RawClaimedRow.fromRow row = .ok raw) :
    raw.id = row.id ∧ row.leaseToken = some raw.leaseToken ∧
      row.leaseExpiresAt = some raw.leaseExpiresAt ∧
      raw.attempts = row.attempts.toNat ∧
      raw.maxAttempts = row.maxAttempts.toNat := by
  unfold RawClaimedRow.fromRow at read
  split at read
  · rename_i token expiry
    cases read
    exact ⟨rfl, token, expiry, rfl, rfl⟩
  · cases read

theorem claimSet_eq_ok_iff {written : Row} :
    claimSet now gen leaseMicros maxAttempts row = .ok written ↔
      row.attempts + 1 ≤ i32Max ∧
        timestampInRange (now + leaseMicros) = true ∧
        written = claimedVersion now gen leaseMicros maxAttempts row := by
  unfold claimSet int4Succ timestampAdd
  by_cases room : row.attempts + 1 ≤ i32Max
  · by_cases inRange : timestampInRange (now + leaseMicros) = true
    · simp [room, inRange, bind, Except.bind, eq_comm]
    · simp [room, inRange, bind, Except.bind]
  · simp [room, bind, Except.bind]

theorem updateRow_claimSet_eq_ok_iff {new : Row} :
    Jobs.updateRow now (claimSet now gen leaseMicros maxAttempts) row =
        .ok new ↔
      row.attempts + 1 ≤ i32Max ∧
        timestampInRange (now + leaseMicros) = true ∧
        new = claimedRow now gen leaseMicros maxAttempts row ∧
        new.PassesChecks := by
  rw [Jobs.updateRow_eq_ok_iff]
  constructor
  · rintro ⟨written, set, _, _, rfl, passes⟩
    obtain ⟨room, inRange, rfl⟩ := claimSet_eq_ok_iff.mp set
    exact ⟨room, inRange, rfl, passes⟩
  · rintro ⟨room, inRange, rfl, passes⟩
    exact ⟨_, claimSet_eq_ok_iff.mpr ⟨room, inRange, rfl⟩, rfl, rfl, rfl,
      passes⟩

/-- What a successful claim UPDATE did to each row, and what it returned. -/
theorem updateChosen_spec
    (stored : ∀ row ∈ chosen, row ∈ jobs.rows)
    (outcome : updateChosen jobs now gen leaseMicros maxAttempts chosen =
      .ok (updated, rows)) :
    rows = chosen.map (claimedRow now gen leaseMicros maxAttempts) ∧
      (∀ row ∈ chosen, row.attempts + 1 ≤ i32Max ∧
        (claimedRow now gen leaseMicros maxAttempts row).PassesChecks ∧
        updated.find row.id =
          some (claimedRow now gen leaseMicros maxAttempts row)) ∧
      (∀ id, id ∉ chosen.map Row.id → updated.find id = jobs.find id) ∧
      updated.nextId = jobs.nextId := by
  unfold updateChosen at outcome
  cases result : jobs.update now
      (fun row => (chosen.map Row.id).contains row.id)
      (claimSet now gen leaseMicros maxAttempts) with
  | error failure =>
      rw [result] at outcome
      cases outcome
  | ok written =>
      rw [result] at outcome
      cases outcome
      have eachChosen : ∀ row ∈ chosen, row.attempts + 1 ≤ i32Max ∧
          (claimedRow now gen leaseMicros maxAttempts row).PassesChecks ∧
          updated.find row.id =
            some (claimedRow now gen leaseMicros maxAttempts row) := by
        intro row member
        have found := Jobs.find_id_of_mem (stored row member)
        rcases Jobs.find_update_of_some result found with
          ⟨_, new, updatedRow, foundNew⟩ | ⟨skipped, _⟩
        · obtain ⟨room, _, rfl, passes⟩ :=
            updateRow_claimSet_eq_ok_iff.mp updatedRow
          exact ⟨room, passes, foundNew⟩
        · have selected :
              (chosen.map Row.id).contains row.id = true :=
            List.contains_iff_mem.mpr (List.mem_map_of_mem member)
          rw [selected] at skipped
          cases skipped
      refine ⟨?_, eachChosen, ?_, (Jobs.mapM_of_update result).2⟩
      · rw [← List.filterMap_eq_map]
        apply List.filterMap_congr
        intro row member
        exact (eachChosen row member).2.2
      · intro id notChosen
        cases found : jobs.find id with
        | none =>
            exact Jobs.find_update_of_none result found
        | some row =>
            rcases Jobs.find_update_of_some result found with
              ⟨selected, _⟩ | ⟨_, foundSame⟩
            · rw [Jobs.id_of_find found] at selected
              exact (notChosen (List.contains_iff_mem.mp selected)).elim
            · exact foundSame

theorem mapM_fromRow_claimed (chosen : List Row) :
    (chosen.map (claimedRow now gen leaseMicros maxAttempts)).mapM
        RawClaimedRow.fromRow =
      .ok (chosen.map (claimedRaw now gen leaseMicros maxAttempts)) := by
  induction chosen with
  | nil =>
      rfl
  | cons row rest inductionHypothesis =>
      rw [List.map_cons, List.mapM_cons, fromRow_claimedRow,
        inductionHypothesis]
      rfl

end Write

/-! ## The statement as a whole -/

section Statement

variable {jobs updated : Jobs} {now : Int} {gen : Nat → Uuid}
  {lockedElsewhere : Nat → Bool} {params : ClaimParams}

/-- Whichever statement is sent, it updates rows chosen under the guarantees of
`Chosen`. -/
theorem claimStatement_eq_ok
    {rows : List Row}
    (outcome : claimStatement jobs now gen lockedElsewhere params =
      .ok (updated, rows)) :
    ∃ leaseMicros chosen,
      intervalParam params.leaseTimeout = .ok leaseMicros ∧
      Chosen jobs now lockedElsewhere params.queue
        (min params.batchSize i32Max) chosen ∧
      updateChosen jobs now gen leaseMicros
        (min params.maxAttempts i32Max : Nat) chosen =
          .ok (updated, rows) := by
  unfold claimStatement textParam at outcome
  split at outcome
  · cases outcome
  · cases interval : intervalParam params.leaseTimeout with
    | error failure =>
        rw [interval] at outcome
        cases outcome
    | ok leaseMicros =>
        simp only [interval, bind, Except.bind] at outcome
        split at outcome
        · exact ⟨leaseMicros, _, rfl, chosen_claimedCte, outcome⟩
        · unfold sqlKeyed at outcome
          cases cast : hrCte params.headroom with
          | error failure =>
              rw [cast] at outcome
              cases outcome
          | ok hr =>
              rw [cast] at outcome
              exact ⟨leaseMicros, _, rfl, chosen_lockedCte hr, outcome⟩

/-- The rows that the UPDATE returns are read without an error. -/
theorem claimBatchRaw_of_update
    {leaseMicros maxAttempts : Int} {chosen rows : List Row}
    (stored : ∀ row ∈ chosen, row ∈ jobs.rows)
    (sent : claimStatement jobs now gen lockedElsewhere params =
      updateChosen jobs now gen leaseMicros maxAttempts chosen)
    (result : updateChosen jobs now gen leaseMicros maxAttempts chosen =
      .ok (updated, rows)) :
    claimBatchRaw jobs now gen lockedElsewhere params =
      .ok (updated,
        chosen.map (claimedRaw now gen leaseMicros maxAttempts)) := by
  obtain ⟨rfl, _⟩ := updateChosen_spec stored result
  rw [claimBatchRaw, sent, result]
  simp only [bind, Except.bind, mapM_fromRow_claimed]

/-- The effect of `claim_batch_raw` on every row, and what it returns. -/
theorem claimBatchRaw_spec
    {raws : List RawClaimedRow}
    (outcome : claimBatchRaw jobs now gen lockedElsewhere params =
      .ok (updated, raws)) :
    ∃ leaseMicros chosen,
      intervalParam params.leaseTimeout = .ok leaseMicros ∧
      Chosen jobs now lockedElsewhere params.queue
        (min params.batchSize i32Max) chosen ∧
      raws = chosen.map (claimedRaw now gen leaseMicros
        (min params.maxAttempts i32Max : Nat)) ∧
      (∀ row ∈ chosen, row.attempts + 1 ≤ i32Max ∧
        (claimedRow now gen leaseMicros
          (min params.maxAttempts i32Max : Nat) row).PassesChecks ∧
        updated.find row.id = some (claimedRow now gen leaseMicros
          (min params.maxAttempts i32Max : Nat) row)) ∧
      (∀ id, id ∉ chosen.map Row.id → updated.find id = jobs.find id) ∧
      updated.nextId = jobs.nextId := by
  cases result : claimStatement jobs now gen lockedElsewhere params with
  | error failure =>
      rw [claimBatchRaw, result] at outcome
      cases outcome
  | ok reply =>
      obtain ⟨written, rows⟩ := reply
      obtain ⟨leaseMicros, chosen, interval, choice, update⟩ :=
        claimStatement_eq_ok result
      obtain ⟨_, eachChosen, others, sequence⟩ :=
        updateChosen_spec choice.stored update
      rw [claimBatchRaw_of_update choice.stored (result.trans update.symm)
        update] at outcome
      cases outcome
      exact ⟨leaseMicros, chosen, interval, choice, rfl, eachChosen, others,
        sequence⟩

/-- Reading the reply never fails, so a claim fails exactly when its statement
does, and then no row has moved. -/
theorem claimBatchRaw_eq_error_iff {failure : SqlError} :
    claimBatchRaw jobs now gen lockedElsewhere params = .error failure ↔
      claimStatement jobs now gen lockedElsewhere params =
        .error failure := by
  cases result : claimStatement jobs now gen lockedElsewhere params with
  | error refusal =>
      rw [claimBatchRaw, result]
      simp [bind, Except.bind]
  | ok reply =>
      obtain ⟨written, rows⟩ := reply
      obtain ⟨leaseMicros, chosen, _, choice, update⟩ :=
        claimStatement_eq_ok result
      have read := claimBatchRaw_of_update choice.stored
        (result.trans update.symm) update
      simp only [read, reduceCtorEq]

theorem hrCte_eq_error
    {headroom : HashMap Nat} {failure : SqlError}
    (refused : hrCte headroom = .error failure) :
    failure = .untranslatableCharacter ∨
      failure = .numericValueOutOfRange := by
  unfold hrCte at refused
  split at refused
  · cases refused
    exact Or.inl rfl
  · split at refused
    · cases refused
      exact Or.inr rfl
    · cases refused

theorem updateChosen_eq_error
    {leaseMicros maxAttempts : Int} {chosen : List Row}
    {failure : SqlError} {queue : String} {limit : Nat}
    (choice : Chosen jobs now lockedElsewhere queue limit chosen)
    (refused : updateChosen jobs now gen leaseMicros maxAttempts chosen =
      .error failure) :
    ∃ row ∈ chosen,
      (¬ row.attempts + 1 ≤ i32Max ∧ failure = .numericValueOutOfRange) ∨
      (timestampInRange (now + leaseMicros) = false ∧
        failure = .datetimeFieldOverflow) ∨
      ¬ (claimedRow now gen leaseMicros maxAttempts row).PassesChecks := by
  unfold updateChosen at refused
  cases result : jobs.update now
      (fun row => (chosen.map Row.id).contains row.id)
      (claimSet now gen leaseMicros maxAttempts) with
  | ok written =>
      rw [result] at refused
      cases refused
  | error refusal =>
      rw [result] at refused
      cases refused
      obtain ⟨row, stored, selected, rowFailed⟩ :=
        Jobs.exists_of_update_eq_error result
      obtain ⟨candidate, member, sameId⟩ :=
        List.mem_map.mp (List.contains_iff_mem.mp selected)
      rw [Jobs.eq_of_id_eq (choice.stored candidate member) stored sameId]
        at member
      refine ⟨row, member, ?_⟩
      by_cases room : row.attempts + 1 ≤ i32Max
      · by_cases inRange : timestampInRange (now + leaseMicros) = true
        · refine Or.inr (Or.inr ?_)
          intro passes
          rw [updateRow_claimSet_eq_ok_iff.mpr
            ⟨room, inRange, rfl, passes⟩] at rowFailed
          cases rowFailed
        · refine Or.inr (Or.inl ⟨by simpa using inRange, ?_⟩)
          simp only [Jobs.updateRow, claimSet, int4Succ, timestampAdd, room,
            inRange, if_true, Bool.false_eq_true, if_false, bind,
            Except.bind] at rowFailed
          cases rowFailed
          rfl
      · refine Or.inl ⟨room, ?_⟩
        simp only [Jobs.updateRow, claimSet, int4Succ, room, if_false, bind,
          Except.bind] at rowFailed
        cases rowFailed
        rfl

/-- The UPDATE of a claim goes through for the row: neither sum overflows and
no CHECK is violated. -/
def Row.Claimable (now : Int) (gen : Nat → Uuid)
    (leaseMicros maxAttempts : Int) (row : Row) : Prop :=
  row.attempts + 1 ≤ i32Max ∧
    timestampInRange (now + leaseMicros) = true ∧
    (claimedRow now gen leaseMicros maxAttempts row).PassesChecks

instance {leaseMicros maxAttempts : Int} {row : Row} :
    Decidable (row.Claimable now gen leaseMicros maxAttempts) :=
  inferInstanceAs (Decidable (_ ∧ _ ∧ Row.PassesChecks _))

theorem exists_updateChosen_eq_ok
    {leaseMicros maxAttempts : Int} {chosen : List Row}
    {queue : String} {limit : Nat}
    (choice : Chosen jobs now lockedElsewhere queue limit chosen)
    (claimable : ∀ row ∈ chosen,
      row.Claimable now gen leaseMicros maxAttempts) :
    ∃ updated rows,
      updateChosen jobs now gen leaseMicros maxAttempts chosen =
        .ok (updated, rows) := by
  cases result : updateChosen jobs now gen leaseMicros maxAttempts chosen with
  | ok reply =>
      exact ⟨reply.1, reply.2, rfl⟩
  | error failure =>
      obtain ⟨row, member, ⟨overflow, _⟩ | ⟨outOfRange, _⟩ | violates⟩ :=
        updateChosen_eq_error choice result
      · exact (overflow (claimable row member).1).elim
      · rw [(claimable row member).2.1] at outOfRange
        cases outOfRange
      · exact (violates (claimable row member).2.2).elim

/-- A claim fails on a parameter, on an overflow, or on a CHECK that the new
version of a runnable row violates. -/
theorem claimBatchRaw_eq_error
    {failure : SqlError}
    (refused : claimBatchRaw jobs now gen lockedElsewhere params =
      .error failure) :
    ¬ failure.IsCheckViolation ∨
      ∃ row ∈ jobs.rows, row.runnable params.queue now = true ∧
        ∃ leaseMicros, ¬ (claimedRow now gen leaseMicros
          (min params.maxAttempts i32Max : Nat) row).PassesChecks := by
  rw [claimBatchRaw_eq_error_iff] at refused
  have refusedUpdate {leaseMicros : Int} {chosen : List Row}
      (choice : Chosen jobs now lockedElsewhere params.queue
        (min params.batchSize i32Max) chosen)
      (updateRefused : updateChosen jobs now gen leaseMicros
        (min params.maxAttempts i32Max : Nat) chosen = .error failure) :
      ¬ failure.IsCheckViolation ∨
        ∃ row ∈ jobs.rows, row.runnable params.queue now = true ∧
          ∃ leaseMicros, ¬ (claimedRow now gen leaseMicros
            (min params.maxAttempts i32Max : Nat) row).PassesChecks := by
    obtain ⟨row, member, ⟨_, rfl⟩ | ⟨_, rfl⟩ | violates⟩ :=
      updateChosen_eq_error choice updateRefused
    · exact Or.inl (by decide)
    · exact Or.inl (by decide)
    · exact Or.inr ⟨row, choice.stored row member,
        choice.runnable row member, leaseMicros, violates⟩
  unfold claimStatement textParam at refused
  split at refused
  · cases refused
    exact Or.inl (by decide)
  · cases interval : intervalParam params.leaseTimeout with
    | error refusal =>
        simp only [interval, bind, Except.bind] at refused
        cases refused
        unfold intervalParam at interval
        split at interval
        · cases interval
        · cases interval
          exact Or.inl (by decide)
    | ok leaseMicros =>
        simp only [interval, bind, Except.bind] at refused
        split at refused
        · exact refusedUpdate chosen_claimedCte refused
        · unfold sqlKeyed at refused
          cases cast : hrCte params.headroom with
          | ok hr =>
              rw [cast] at refused
              exact refusedUpdate (chosen_lockedCte hr) refused
          | error refusal =>
              rw [cast] at refused
              cases refused
              left
              rcases hrCte_eq_error cast with rfl | rfl
              · decide
              · decide

/-- The plain claim succeeds when no candidate overflows or violates a CHECK,
and then claims what `claimed` chose. -/
theorem claimBatchRaw_plain
    {leaseMicros : Int} (gen : Nat → Uuid) (lockedElsewhere : Nat → Bool)
    (plain : params.headroom.entries.isEmpty = true)
    (queueText : textParam params.queue = .ok params.queue)
    (interval : intervalParam params.leaseTimeout = .ok leaseMicros)
    (inRange : timestampInRange (now + leaseMicros) = true)
    (room : ∀ row ∈ jobs.rows, row.runnable params.queue now = true →
      row.attempts + 1 ≤ i32Max)
    (passes : ∀ row ∈ jobs.rows, row.runnable params.queue now = true →
      (claimedRow now gen leaseMicros
        (min params.maxAttempts i32Max : Nat) row).PassesChecks) :
    ∃ updated raws,
      claimBatchRaw jobs now gen lockedElsewhere params =
        .ok (updated, raws) ∧
      (∀ row ∈ claimedCte jobs now lockedElsewhere params.queue
          (min params.batchSize i32Max),
        updated.find row.id = some (claimedRow now gen leaseMicros
          (min params.maxAttempts i32Max : Nat) row)) ∧
      ∀ id row, jobs.find id = some row →
        row.runnable params.queue now = false →
          updated.find id = some row := by
  have choice : Chosen jobs now lockedElsewhere params.queue
      (min params.batchSize i32Max)
      (claimedCte jobs now lockedElsewhere params.queue
        (min params.batchSize i32Max)) := chosen_claimedCte
  have sent : claimStatement jobs now gen lockedElsewhere params =
      updateChosen jobs now gen leaseMicros
        (min params.maxAttempts i32Max : Nat)
        (claimedCte jobs now lockedElsewhere params.queue
          (min params.batchSize i32Max)) := by
    simp only [claimStatement, queueText, interval, plain, if_true, bind,
      Except.bind, sqlPlain]
  obtain ⟨updated, rows, result⟩ := exists_updateChosen_eq_ok choice
    fun row member => (⟨room row (choice.stored row member)
        (choice.runnable row member), inRange,
      passes row (choice.stored row member)
        (choice.runnable row member)⟩ :
      row.Claimable now gen leaseMicros (min params.maxAttempts i32Max : Nat))
  obtain ⟨_, eachChosen, others, _⟩ := updateChosen_spec choice.stored result
  have read := claimBatchRaw_of_update choice.stored sent result
  refine ⟨updated, _, read, fun row member =>
    (eachChosen row member).2.2, ?_⟩
  intro id row found notRunnable
  rw [others id, found]
  intro listed
  obtain ⟨candidate, member, sameId⟩ := List.mem_map.mp listed
  have runnable := choice.runnable candidate member
  have same : candidate = row := Jobs.eq_of_id_eq
    (choice.stored candidate member)
    (Jobs.find_eq_some_iff.mp found).1
    (sameId.trans (Jobs.id_of_find found).symm)
  rw [same, notRunnable] at runnable
  cases runnable

end Statement

end PgWorkQueue
