import PgWorkQueue.Database.Schema
import PgWorkQueue.Library.KeyedRows

/-!
# Executing statements against `pgwq.jobs`

The three write statements the library sends (INSERT, UPDATE, DELETE) as
functions on the stored table.  Each of them either succeeds as a whole or
fails with the error Postgres raises, in which case no row is written.  A
row that an UPDATE selects passes through its SET clause, the two triggers and
the CHECKs, in this order; an inserted row passes through the column defaults,
the CHECKs and the UNIQUE index on `public_id`.
-/

namespace PgWorkQueue

open Library

/-- What a statement fails with: an error of the server, or one that sqlx
raises on the client, before sending a parameter (`encode`) or on reading a
column of the reply (`columnDecode`). -/
inductive SqlError where
  | checkViolation (constraint : CheckConstraint)
  | concurrencyKeyImmutable (id : Nat)
  | generatedAlways
  | uniqueViolation
  | numericValueOutOfRange
  | datetimeFieldOverflow
  | characterNotInRepertoire
  | untranslatableCharacter
  | encode
  | columnDecode
  deriving DecidableEq, Repr

/-- The SQLSTATE the server reports. -/
def SqlError.sqlState : SqlError → Option String
  | .checkViolation _ => some "23514"
  | .concurrencyKeyImmutable _ => some "23514"
  | .generatedAlways => some "428C9"
  | .uniqueViolation => some "23505"
  | .numericValueOutOfRange => some "22003"
  | .datetimeFieldOverflow => some "22008"
  | .characterNotInRepertoire => some "22021"
  | .untranslatableCharacter => some "22P05"
  | .encode => none
  | .columnDecode => none

/-- The statement produced a row that a CHECK, or the trigger that raises
`check_violation` itself, rejects. -/
def SqlError.IsCheckViolation (failure : SqlError) : Prop :=
  failure.sqlState = some "23514"

instance : DecidablePred SqlError.IsCheckViolation := fun failure =>
  inferInstanceAs (Decidable (failure.sqlState = some "23514"))

/-! ## Parameters and arithmetic -/

/-- `i32::MAX`, the largest `INTEGER`. -/
def i32Max : Nat := 2147483647

/-- `i64::MAX`. -/
def i64Max : Nat := 9223372036854775807

/-- A `std::time::Duration`: nanoseconds, below `2^64` whole seconds. -/
structure Duration where
  nanos : Nat
  bounded : nanos < 18446744073709551616 * 1000000000
  deriving DecidableEq

/-- `Duration::as_micros`. -/
def Duration.asMicros (duration : Duration) : Nat :=
  duration.nanos / 1000

/-- Binding a `Duration` as an `INTERVAL` parameter: sqlx refuses one that is
not a whole number of microseconds or does not fit in an `i64`. -/
def intervalParam (duration : Duration) : Except SqlError Int :=
  if duration.nanos % 1000 = 0 ∧ duration.asMicros ≤ i64Max then
    .ok duration.asMicros
  else
    .error .encode

/-- Binding a `TEXT` parameter: Postgres refuses U+0000. -/
def textParam (text : String) : Except SqlError String :=
  if '\x00' ∈ text.toList then
    .error .characterNotInRepertoire
  else
    .ok text

/-- `INTEGER + 1`. -/
def int4Succ (value : Int) : Except SqlError Int :=
  if value + 1 ≤ i32Max then
    .ok (value + 1)
  else
    .error .numericValueOutOfRange

/-- The timestamps Postgres can store: `MIN_TIMESTAMP` inclusive to
`END_TIMESTAMP` exclusive. -/
def timestampInRange (time : Int) : Bool :=
  decide (-211813488000000000 ≤ time) && decide (time < 9223371331200000000)

/-- Binding a `TIMESTAMPTZ` parameter: the server refuses one it cannot
store. -/
def timestampParam (time : Int) : Except SqlError Int :=
  if timestampInRange time then
    .ok time
  else
    .error .datetimeFieldOverflow

/-- `TIMESTAMPTZ + INTERVAL`, the interval given in microseconds. -/
def timestampAdd (time : Int) (micros : Int) :
    Except SqlError Int :=
  if timestampInRange (time + micros) then
    .ok (time + micros)
  else
    .error .datetimeFieldOverflow

/-! ## The stored table -/

/-- The columns an INSERT of the library supplies; every other column takes its
default.  `runAt` is `none` when the statement leaves `run_at` out. -/
structure NewJob where
  queue : String
  payload : Bytes
  publicId : Uuid
  runAt : Option Int
  concurrencyKey : Option String

/-- The row an INSERT produces at time `now`. -/
def NewJob.row (new : NewJob) (id : Nat) (now : Int) : Row where
  id := id
  publicId := new.publicId
  queue := new.queue
  payload := new.payload
  status := .queued
  attempts := 0
  maxAttempts := 0
  leaseToken := none
  leaseExpiresAt := none
  lastError := none
  lastAttemptedAt := none
  firstAttemptedAt := none
  finishedAt := none
  runAt := new.runAt.getD now
  createdAt := now
  updatedAt := now
  concurrencyKey := new.concurrencyKey

/-- The rows of `pgwq.jobs` together with the identity sequence of `id`.  The
primary key and the sequence are part of the type: no two rows share an `id`
and every `id` was drawn from the sequence. -/
structure Jobs where
  rows : List Row
  nextId : Nat
  distinct : (rows.map Row.id).Nodup
  drawn : ∀ row ∈ rows, row.id < nextId

namespace Jobs

/-- The table right after the migrations. -/
def empty : Jobs where
  rows := []
  nextId := 1
  distinct := List.nodup_nil
  drawn := by simp

/-- The row with the given `id`. -/
def find (jobs : Jobs) (id : Nat) : Option Row :=
  KeyedRows.lookup Row.id id jobs.rows

variable {jobs updated : Jobs} {id : Nat} {row : Row}

theorem find_eq_some_iff :
    jobs.find id = some row ↔ row ∈ jobs.rows ∧ row.id = id :=
  KeyedRows.lookup_eq_some_iff jobs.distinct

theorem find_id_of_mem (member : row ∈ jobs.rows) :
    jobs.find row.id = some row :=
  KeyedRows.lookup_eq_some_of_mem jobs.distinct member

theorem id_of_find (found : jobs.find id = some row) : row.id = id :=
  (find_eq_some_iff.mp found).2

theorem lt_nextId_of_find (found : jobs.find id = some row) :
    id < jobs.nextId := by
  obtain ⟨member, rfl⟩ := find_eq_some_iff.mp found
  exact jobs.drawn row member

theorem find_eq_none_of_nextId_le (fresh : jobs.nextId ≤ id) :
    jobs.find id = none := by
  cases found : jobs.find id with
  | none =>
      rfl
  | some row =>
      have drawn := lt_nextId_of_find found
      omega

theorem eq_of_id_eq
    {other : Row} (member : row ∈ jobs.rows)
    (otherMember : other ∈ jobs.rows) (same : row.id = other.id) :
    row = other :=
  KeyedRows.eq_of_mem_of_key_eq jobs.distinct member otherMember same

/-! ## INSERT -/

/-- The table with one more row, under the next value of the sequence. -/
def append (jobs : Jobs) (row : Row) (fresh : row.id = jobs.nextId) :
    Jobs where
  rows := jobs.rows ++ [row]
  nextId := jobs.nextId + 1
  distinct := by
    rw [List.map_append, List.nodup_append]
    refine ⟨jobs.distinct, by simp, ?_⟩
    intro id member other otherMember same
    obtain ⟨old, oldMember, rfl⟩ := List.mem_map.mp member
    simp only [List.map_cons, List.map_nil, List.mem_singleton]
      at otherMember
    have bound := jobs.drawn old oldMember
    omega
  drawn := by
    intro candidate member
    rcases List.mem_append.mp member with old | new
    · exact Nat.lt_succ_of_lt (jobs.drawn candidate old)
    · rw [List.mem_singleton.mp new]
      omega

/-- INSERT of one row. -/
def insert (jobs : Jobs) (now : Int) (new : NewJob) :
    Except SqlError Jobs :=
  match (new.row jobs.nextId now).violatedCheck with
  | some constraint => .error (.checkViolation constraint)
  | none =>
      if jobs.rows.any fun row => row.publicId == new.publicId then
        .error .uniqueViolation
      else
        .ok (jobs.append (new.row jobs.nextId now) rfl)

/-- INSERT of several rows by one statement. -/
def insertAll (now : Int) : Jobs → List NewJob → Except SqlError Jobs
  | jobs, [] => .ok jobs
  | jobs, new :: rest => do
      let jobs ← jobs.insert now new
      insertAll now jobs rest

/-! ## UPDATE -/

/-- The new version of a row that an UPDATE selects.  `id` is
`GENERATED ALWAYS`, so a SET clause cannot change it. -/
def updateRow (now : Int) (set : Row → Except SqlError Row)
    (old : Row) : Except SqlError Row := do
  let new ← set old
  if new.id ≠ old.id then
    .error .generatedAlways
  else if !concurrencyKeyUnchanged old new then
    .error (.concurrencyKeyImmutable old.id)
  else
    let new := setUpdatedAt now new
    match new.violatedCheck with
    | some constraint => .error (.checkViolation constraint)
    | none => .ok new

/-- What an UPDATE does to one row of the table. -/
def updateSelected (now : Int) (selected : Row → Bool)
    (set : Row → Except SqlError Row) (row : Row) : Except SqlError Row :=
  if selected row then updateRow now set row else .ok row

theorem updateRow_eq_ok_iff
    {now : Int} {set : Row → Except SqlError Row} {old new : Row} :
    updateRow now set old = .ok new ↔
      ∃ written, set old = .ok written ∧ written.id = old.id ∧
        written.concurrencyKey = old.concurrencyKey ∧
        new = setUpdatedAt now written ∧ new.PassesChecks := by
  unfold updateRow
  cases outcome : set old with
  | error failure =>
      simp [bind, Except.bind]
  | ok written =>
      simp only [bind, Except.bind, Except.ok.injEq]
      constructor
      · intro result
        split at result
        · cases result
        · split at result
          · cases result
          · split at result
            · cases result
            · cases result
              rename_i sameId unchanged _ passes
              rw [Row.violatedCheck_eq_none_iff] at passes
              refine ⟨written, rfl, not_not.mp sameId, ?_, rfl, passes⟩
              simp only [concurrencyKeyUnchanged, Bool.not_eq_true',
                Bool.not_eq_false, beq_iff_eq] at unchanged
              exact unchanged.symm
      · rintro ⟨_, rfl, sameId, sameKey, rfl, passes⟩
        rw [← Row.violatedCheck_eq_none_iff] at passes
        simp [sameId, concurrencyKeyUnchanged, sameKey, passes]

theorem updateSelected_id
    {now : Int} {selected : Row → Bool}
    {set : Row → Except SqlError Row} (old new : Row)
    (outcome : updateSelected now selected set old = .ok new) :
    new.id = old.id := by
  unfold updateSelected at outcome
  split at outcome
  · obtain ⟨written, _, sameId, _, rfl, _⟩ :=
      updateRow_eq_ok_iff.mp outcome
    exact sameId
  · cases outcome
    rfl

/-- UPDATE of the selected rows. -/
def update (jobs : Jobs) (now : Int) (selected : Row → Bool)
    (set : Row → Except SqlError Row) : Except SqlError Jobs :=
  match outcome : jobs.rows.mapM (updateSelected now selected set) with
  | .error failure => .error failure
  | .ok rows =>
      .ok
        { rows := rows
          nextId := jobs.nextId
          distinct := by
            rw [KeyedRows.map_key_eq_of_mapM updateSelected_id outcome]
            exact jobs.distinct
          drawn := by
            intro row member
            have sameIds :=
              KeyedRows.map_key_eq_of_mapM updateSelected_id outcome
            have idMember : row.id ∈ jobs.rows.map Row.id :=
              sameIds ▸ List.mem_map_of_mem member
            obtain ⟨old, oldMember, sameId⟩ := List.mem_map.mp idMember
            exact sameId ▸ jobs.drawn old oldMember }

section Update

variable {now : Int} {selected : Row → Bool}
  {set : Row → Except SqlError Row}

theorem mapM_of_update
    (outcome : jobs.update now selected set = .ok updated) :
    jobs.rows.mapM (updateSelected now selected set) = .ok updated.rows ∧
      updated.nextId = jobs.nextId := by
  unfold update at outcome
  split at outcome
  · cases outcome
  · cases outcome
    exact ⟨by assumption, rfl⟩

theorem exists_of_update_eq_error
    {failure : SqlError}
    (outcome : jobs.update now selected set = .error failure) :
    ∃ row ∈ jobs.rows, selected row = true ∧
      updateRow now set row = .error failure := by
  unfold update at outcome
  split at outcome
  · rename_i failed
    cases outcome
    obtain ⟨row, member, rowFailed⟩ :=
      KeyedRows.exists_of_mapM_eq_error failed
    unfold updateSelected at rowFailed
    split at rowFailed
    · exact ⟨row, member, by assumption, rowFailed⟩
    · cases rowFailed
  · cases outcome

/-- An UPDATE that selects no row changes nothing. -/
theorem update_eq_self
    (noneSelected : ∀ row ∈ jobs.rows, selected row = false) :
    jobs.update now selected set = .ok jobs := by
  have kept : jobs.rows.mapM (updateSelected now selected set) =
      .ok jobs.rows := by
    rw [KeyedRows.mapM_eq_ok_iff_forall₂, List.forall₂_same]
    intro row member
    simp [updateSelected, noneSelected row member]
  unfold update
  split
  · rename_i failed
    rw [kept] at failed
    cases failed
  · rename_i written
    rw [kept] at written
    cases written
    rfl

theorem find_update_of_none
    (outcome : jobs.update now selected set = .ok updated)
    (absent : jobs.find id = none) :
    updated.find id = none :=
  KeyedRows.lookup_mapM_eq_none updateSelected_id
    (mapM_of_update outcome).1 absent

/-- What an UPDATE leaves under an `id`: the new version of a selected row,
the old version of any other. -/
theorem find_update_of_some
    (outcome : jobs.update now selected set = .ok updated)
    (found : jobs.find id = some row) :
    (selected row = true ∧ ∃ new, updateRow now set row = .ok new ∧
        updated.find id = some new) ∨
      (selected row = false ∧ updated.find id = some row) := by
  obtain ⟨new, rowOutcome, foundNew⟩ :=
    KeyedRows.lookup_mapM_eq_some updateSelected_id
      (mapM_of_update outcome).1 found
  unfold updateSelected at rowOutcome
  split at rowOutcome
  · exact Or.inl ⟨by assumption, new, rowOutcome, foundNew⟩
  · cases rowOutcome
    exact Or.inr ⟨by simpa using ‹¬ selected row = true›, foundNew⟩

end Update

/-! ## DELETE -/

/-- DELETE of the selected rows. -/
def delete (jobs : Jobs) (selected : Row → Bool) : Jobs where
  rows := jobs.rows.filter fun row => !selected row
  nextId := jobs.nextId
  distinct := jobs.distinct.sublist (List.filter_sublist.map Row.id)
  drawn := fun row member => jobs.drawn row (List.mem_of_mem_filter member)

theorem find_delete (selected : Row → Bool) :
    (jobs.delete selected).find id =
      (jobs.find id).filter fun row => !selected row :=
  KeyedRows.lookup_filter jobs.distinct _

/-! ## INSERT, row by row -/

theorem find_append
    (fresh : row.id = jobs.nextId) :
    (jobs.append row fresh).find id =
      if id = jobs.nextId then some row else jobs.find id := by
  unfold find append
  rw [KeyedRows.lookup_append, KeyedRows.lookup_cons,
    KeyedRows.lookup_nil, fresh]
  by_cases new : id = jobs.nextId
  · have absent : KeyedRows.lookup Row.id id jobs.rows = none := by
      rw [KeyedRows.lookup_eq_none_iff]
      intro member
      obtain ⟨old, oldMember, sameId⟩ := List.mem_map.mp member
      have bound := jobs.drawn old oldMember
      omega
    rw [absent, if_pos new.symm, if_pos new]
    rfl
  · rw [if_neg (Ne.symm new), if_neg new]
    simp

/-- A successful INSERT adds exactly the row it describes. -/
theorem insert_eq_ok_iff
    {now : Int} {new : NewJob} :
    jobs.insert now new = .ok updated ↔
      (new.row jobs.nextId now).PassesChecks ∧
        (∀ row ∈ jobs.rows, row.publicId ≠ new.publicId) ∧
        updated = jobs.append (new.row jobs.nextId now) rfl := by
  unfold insert
  rw [← Row.violatedCheck_eq_none_iff]
  cases violated : (new.row jobs.nextId now).violatedCheck with
  | some constraint =>
      simp
  | none =>
      by_cases duplicate :
          (jobs.rows.any fun row => row.publicId == new.publicId) = true
      · simp only [duplicate, if_true, true_and]
        constructor
        · intro result
          cases result
        · rintro ⟨unused, _⟩
          obtain ⟨row, member, same⟩ := List.any_eq_true.mp duplicate
          exact (unused row member (by simpa using same)).elim
      · simp only [if_neg duplicate, Except.ok.injEq, true_and]
        constructor
        · rintro rfl
          refine ⟨?_, rfl⟩
          intro row member same
          apply duplicate
          exact List.any_eq_true.mpr ⟨row, member, by simpa using same⟩
        · rintro ⟨_, rfl⟩
          rfl

/-- An INSERT is rejected by a CHECK exactly when its row violates one. -/
theorem insert_checkViolation_iff
    (jobs : Jobs) (now : Int) (new : NewJob) :
    (∃ failure, jobs.insert now new = .error failure ∧
        failure.IsCheckViolation) ↔
      ¬ (new.row jobs.nextId now).PassesChecks := by
  unfold insert
  rw [← Row.violatedCheck_eq_none_iff]
  cases violated : (new.row jobs.nextId now).violatedCheck with
  | some constraint =>
      simp [SqlError.IsCheckViolation, SqlError.sqlState]
  | none =>
      simp only [not_true_eq_false, iff_false]
      rintro ⟨failure, result, isCheck⟩
      split at result
      · cases result
        exact absurd isCheck (by decide)
      · cases result

/-- What an INSERT of several rows leaves under each `id`. -/
theorem insertAll_spec
    {now : Int} {news : List NewJob}
    (outcome : insertAll now jobs news = .ok updated) :
    updated.nextId = jobs.nextId + news.length ∧
      updated.rows.length = jobs.rows.length + news.length ∧
      ∀ id, updated.find id = jobs.find id ∨
        jobs.nextId ≤ id ∧ ∃ new ∈ news,
          updated.find id = some (new.row id now) ∧
            (new.row id now).PassesChecks := by
  induction news generalizing jobs with
  | nil =>
      cases outcome
      exact ⟨rfl, rfl, fun _ => Or.inl rfl⟩
  | cons new rest inductionHypothesis =>
      unfold insertAll at outcome
      cases first : jobs.insert now new with
      | error failure =>
          rw [first] at outcome
          cases outcome
      | ok middle =>
          rw [first] at outcome
          obtain ⟨passes, _, rfl⟩ := insert_eq_ok_iff.mp first
          obtain ⟨sequence, size, others⟩ := inductionHypothesis outcome
          have nextId : (jobs.append (new.row jobs.nextId now) rfl).nextId =
              jobs.nextId + 1 := rfl
          have oneMore :
              (jobs.append (new.row jobs.nextId now) rfl).rows.length =
                jobs.rows.length + 1 := by
            simp [append]
          rw [nextId] at sequence others
          rw [oneMore] at size
          rw [List.length_cons]
          refine ⟨by omega, by omega, ?_⟩
          intro id
          rcases others id with
            same | ⟨later, added, member, found, passesAdded⟩
          · have same := same.trans (find_append _)
            by_cases isNew : id = jobs.nextId
            · subst isNew
              rw [if_pos rfl] at same
              exact Or.inr ⟨Nat.le_refl _, new, List.mem_cons_self, same, passes⟩
            · rw [if_neg isNew] at same
              exact Or.inl same
          · exact Or.inr ⟨by omega, added, List.mem_cons_of_mem _ member,
              found, passesAdded⟩

/-- The rows that an INSERT of several rows adds, under consecutive values of
the sequence. -/
def newRows (now : Int) : Nat → List NewJob → List Row
  | _, [] => []
  | id, new :: rest => new.row id now :: newRows now (id + 1) rest

theorem getElem?_newRows (now : Int) (id : Nat) (news : List NewJob)
    (position : Nat) :
    (newRows now id news)[position]? =
      news[position]?.map fun new => new.row (id + position) now := by
  induction news generalizing id position with
  | nil => rfl
  | cons new rest inductionHypothesis =>
      cases position with
      | zero => rfl
      | succ position =>
          rw [newRows, List.getElem?_cons_succ, List.getElem?_cons_succ,
            inductionHypothesis, Nat.succ_add_eq_add_succ]

/-- An INSERT of several rows appends them in order; their `public_id`s are new
and distinct. -/
theorem rows_of_insertAll
    {now : Int} {news : List NewJob}
    (outcome : insertAll now jobs news = .ok updated) :
    updated.rows = jobs.rows ++ newRows now jobs.nextId news ∧
      (news.map NewJob.publicId).Nodup ∧
      ∀ new ∈ news, ∀ row ∈ jobs.rows, row.publicId ≠ new.publicId := by
  induction news generalizing jobs with
  | nil =>
      cases outcome
      simp [newRows]
  | cons new rest inductionHypothesis =>
      unfold insertAll at outcome
      cases first : jobs.insert now new with
      | error failure =>
          rw [first] at outcome
          cases outcome
      | ok middle =>
          rw [first] at outcome
          obtain ⟨_, unused, rfl⟩ := insert_eq_ok_iff.mp first
          obtain ⟨appended, distinct, fresh⟩ := inductionHypothesis outcome
          have rows : (jobs.append (new.row jobs.nextId now) rfl).rows =
              jobs.rows ++ [new.row jobs.nextId now] := rfl
          rw [rows] at appended fresh
          refine ⟨?_, ?_, ?_⟩
          · rw [appended, List.append_assoc]
            rfl
          · rw [List.map_cons, List.nodup_cons]
            refine ⟨?_, distinct⟩
            intro repeated
            obtain ⟨other, member, same⟩ := List.mem_map.mp repeated
            exact fresh other member (new.row jobs.nextId now) (by simp)
              same.symm
          · intro added member row stored
            rcases List.mem_cons.mp member with rfl | later
            · exact unused row stored
            · exact fresh added later row (List.mem_append_left _ stored)

/-- Rows that pass the CHECKs can only be refused for their `public_id`. -/
theorem insertAll_eq_error
    {now : Int} {news : List NewJob} {failure : SqlError}
    (passes : ∀ new ∈ news, ∀ id, (new.row id now).PassesChecks)
    (outcome : insertAll now jobs news = .error failure) :
    failure = .uniqueViolation := by
  induction news generalizing jobs with
  | nil =>
      cases outcome
  | cons new rest inductionHypothesis =>
      unfold insertAll at outcome
      cases first : jobs.insert now new with
      | ok middle =>
          rw [first] at outcome
          exact inductionHypothesis
            (fun added member => passes added (List.mem_cons_of_mem _ member))
            outcome
      | error refused =>
          rw [first] at outcome
          cases outcome
          unfold insert at first
          rw [(Row.violatedCheck_eq_none_iff _).mpr
            (passes new List.mem_cons_self jobs.nextId)] at first
          dsimp only at first
          split at first
          · cases first
            rfl
          · cases first

end Jobs

end PgWorkQueue
