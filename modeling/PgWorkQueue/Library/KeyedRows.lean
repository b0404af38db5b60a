import Mathlib.Data.List.Forall2
import Mathlib.Data.List.Nodup

/-!
# Rows addressed by a key

A table is a list of rows whose keys are pairwise different.  Three kinds of
writes occur: appending rows with new keys, filtering rows out, and replacing
rows one by one through a function that may fail and that keeps the key.  For
each of them this module says what a lookup by key returns afterwards, so that
a proof about one row never has to look at the list again.
-/

namespace Library.KeyedRows

universe u v w

variable {Row : Type u} {Key : Type v} {Error : Type w}

section Replace

/-- Replacing rows one by one succeeds exactly when every replacement does,
and then relates the two lists position by position. -/
theorem mapM_eq_ok_iff_forall₂
    (replace : Row → Except Error Row) (rows updated : List Row) :
    rows.mapM replace = .ok updated ↔
      List.Forall₂ (fun row row' => replace row = .ok row')
        rows updated := by
  induction rows generalizing updated with
  | nil =>
      simp only [List.mapM_nil, List.forall₂_nil_left_iff]
      constructor
      · intro equal
        cases equal
        rfl
      · rintro rfl
        rfl
  | cons row rest inductionHypothesis =>
      rw [List.mapM_cons, List.forall₂_cons_left_iff]
      cases headResult : replace row with
      | error failure =>
          simp [bind, Except.bind]
      | ok row' =>
          cases tailResult : rest.mapM replace with
          | error failure =>
              have noTail : ∀ rest', ¬ List.Forall₂
                  (fun row row' => replace row = .ok row') rest rest' := by
                intro rest' related
                rw [← inductionHypothesis, tailResult] at related
                cases related
              simp [bind, Except.bind, noTail]
          | ok rest' =>
              simp only [tailResult, Except.ok.injEq] at inductionHypothesis
              simp [bind, Except.bind, pure, Except.pure,
                ← inductionHypothesis, eq_comm]

/-- A failing replacement fails with the error of one of the rows. -/
theorem exists_of_mapM_eq_error
    {replace : Row → Except Error Row} {rows : List Row} {failure : Error}
    (failed : rows.mapM replace = .error failure) :
    ∃ row ∈ rows, replace row = .error failure := by
  induction rows with
  | nil =>
      cases failed
  | cons row rest inductionHypothesis =>
      rw [List.mapM_cons] at failed
      cases headResult : replace row with
      | error headFailure =>
          rw [headResult] at failed
          cases failed
          exact ⟨row, by simp, headResult⟩
      | ok row' =>
          rw [headResult] at failed
          cases tailResult : rest.mapM replace with
          | error tailFailure =>
              rw [tailResult] at failed
              cases failed
              obtain ⟨culprit, member, culpritFailed⟩ :=
                inductionHypothesis tailResult
              exact ⟨culprit, List.mem_cons_of_mem row member,
                culpritFailed⟩
          | ok rest' =>
              rw [tailResult] at failed
              cases failed

theorem map_key_eq_of_mapM
    {key : Row → Key} {replace : Row → Except Error Row}
    {rows updated : List Row}
    (keepsKey : ∀ row row', replace row = .ok row' → key row' = key row)
    (replaced : rows.mapM replace = .ok updated) :
    updated.map key = rows.map key := by
  rw [mapM_eq_ok_iff_forall₂] at replaced
  induction replaced with
  | nil =>
      rfl
  | cons related _ inductionHypothesis =>
      simp [keepsKey _ _ related, inductionHypothesis]

end Replace

section Lookup

variable [DecidableEq Key]

/-- The first row carrying the wanted key. -/
def lookup (key : Row → Key) (wanted : Key) (rows : List Row) :
    Option Row :=
  rows.find? fun row => key row = wanted

variable {key : Row → Key} {wanted : Key} {rows : List Row} {row : Row}

@[simp]
theorem lookup_nil : lookup key wanted [] = none :=
  rfl

theorem lookup_cons (head : Row) (tail : List Row) :
    lookup key wanted (head :: tail) =
      if key head = wanted then some head
      else lookup key wanted tail := by
  unfold lookup
  by_cases same : key head = wanted
  · simp [same]
  · simp [same]

theorem mem_of_lookup_eq_some
    (found : lookup key wanted rows = some row) :
    row ∈ rows ∧ key row = wanted := by
  refine ⟨List.mem_of_find?_eq_some found, ?_⟩
  simpa using List.find?_some found

theorem lookup_eq_none_iff :
    lookup key wanted rows = none ↔ wanted ∉ rows.map key := by
  simp [lookup]

theorem lookup_eq_some_of_mem
    (distinct : (rows.map key).Nodup) (member : row ∈ rows) :
    lookup key (key row) rows = some row := by
  induction rows with
  | nil =>
      cases member
  | cons head tail inductionHypothesis =>
      simp only [List.map_cons, List.nodup_cons] at distinct
      rw [lookup_cons]
      rcases List.mem_cons.mp member with rfl | inTail
      · simp
      · have different : key head ≠ key row := by
          intro same
          exact distinct.1 (same ▸ List.mem_map_of_mem inTail)
        rw [if_neg different]
        exact inductionHypothesis distinct.2 inTail

/-- With distinct keys, a lookup finds a row exactly when the row is in the
table under that key. -/
theorem lookup_eq_some_iff
    (distinct : (rows.map key).Nodup) :
    lookup key wanted rows = some row ↔ row ∈ rows ∧ key row = wanted := by
  constructor
  · exact mem_of_lookup_eq_some
  · rintro ⟨member, rfl⟩
    exact lookup_eq_some_of_mem distinct member

theorem eq_of_mem_of_key_eq
    {other : Row} (distinct : (rows.map key).Nodup)
    (member : row ∈ rows) (otherMember : other ∈ rows)
    (same : key row = key other) :
    row = other := by
  have first := lookup_eq_some_of_mem distinct member
  rw [same, lookup_eq_some_of_mem distinct otherMember] at first
  exact (Option.some.inj first).symm

theorem lookup_append (added : List Row) :
    lookup key wanted (rows ++ added) =
      (lookup key wanted rows).or (lookup key wanted added) := by
  simp [lookup]

/-- Filtering keeps a lookup exactly when the row found passes the test. -/
theorem lookup_filter
    (distinct : (rows.map key).Nodup) (keep : Row → Bool) :
    lookup key wanted (rows.filter keep) =
      (lookup key wanted rows).filter keep := by
  have distinctKept : ((rows.filter keep).map key).Nodup :=
    distinct.sublist (List.filter_sublist.map key)
  cases found : lookup key wanted rows with
  | none =>
      rw [lookup_eq_none_iff] at found
      rw [Option.filter_none, lookup_eq_none_iff]
      intro member
      exact found ((List.filter_sublist.map key).subset member)
  | some row =>
      rw [lookup_eq_some_iff distinct] at found
      by_cases kept : keep row = true
      · rw [Option.filter_some_pos kept, lookup_eq_some_iff distinctKept]
        exact ⟨List.mem_filter.mpr ⟨found.1, kept⟩, found.2⟩
      · rw [Option.filter_some_neg (by simpa using kept),
          lookup_eq_none_iff]
        intro member
        obtain ⟨other, otherMember, sameKey⟩ := List.mem_map.mp member
        obtain ⟨otherInRows, otherKept⟩ := List.mem_filter.mp otherMember
        have equal : other = row :=
          eq_of_mem_of_key_eq distinct otherInRows found.1
            (sameKey.trans found.2.symm)
        exact kept (equal ▸ otherKept)

/-- A test that pins the key passes for the row under that key only. -/
theorem countP_eq_of_key
    (distinct : (rows.map key).Nodup) {test : Row → Bool}
    (pinned : ∀ row, test row = true → key row = wanted) :
    rows.countP test = if (lookup key wanted rows).any test then 1 else 0 := by
  induction rows with
  | nil =>
      rfl
  | cons head tail inductionHypothesis =>
      simp only [List.map_cons, List.nodup_cons] at distinct
      rw [lookup_cons]
      by_cases same : key head = wanted
      · have restFails : tail.countP test = 0 := by
          rw [List.countP_eq_zero]
          intro row member passes
          apply distinct.1
          rw [same, ← pinned row passes]
          exact List.mem_map_of_mem member
        rw [if_pos same, List.countP_cons, restFails]
        simp
      · have headFails : ¬ test head = true := fun passes =>
          same (pinned head passes)
        rw [if_neg same, List.countP_cons_of_neg headFails]
        exact inductionHypothesis distinct.2

/-- One row only carries the key of a member. -/
theorem filter_key_eq_singleton
    (distinct : (rows.map key).Nodup) (member : row ∈ rows) :
    (rows.filter fun other => key other == key row) = [row] := by
  induction rows with
  | nil =>
      simp at member
  | cons head tail inductionHypothesis =>
      simp only [List.map_cons, List.nodup_cons] at distinct
      rcases List.mem_cons.mp member with rfl | inTail
      · have noneElse :
            (tail.filter fun other => key other == key row) = [] := by
          rw [List.filter_eq_nil_iff]
          intro other otherMember same
          apply distinct.1
          rw [← beq_iff_eq.mp same]
          exact List.mem_map_of_mem otherMember
        rw [List.filter_cons_of_pos (by simp), noneElse]
      · have different : key head ≠ key row := by
          intro same
          apply distinct.1
          rw [same]
          exact List.mem_map_of_mem inTail
        rw [List.filter_cons_of_neg (by simpa using different)]
        exact inductionHypothesis distinct.2 inTail

/-- The rows under chosen keys are as many as the keys. -/
theorem length_filter_contains
    {chosen : List Key} (distinct : (rows.map key).Nodup)
    (chosenDistinct : chosen.Nodup) (included : chosen ⊆ rows.map key) :
    (rows.filter fun row => chosen.contains (key row)).length =
      chosen.length := by
  have picked : ((rows.filter fun row => chosen.contains (key row)).map
      key).Perm chosen := by
    rw [List.perm_ext_iff_of_nodup
      (distinct.sublist (List.filter_sublist.map key)) chosenDistinct]
    intro wanted
    simp only [List.mem_map, List.mem_filter, List.contains_iff_mem]
    constructor
    · rintro ⟨row, ⟨_, among⟩, rfl⟩
      exact among
    · intro among
      obtain ⟨row, member, rfl⟩ := List.mem_map.mp (included among)
      exact ⟨row, ⟨member, among⟩, rfl⟩
  have sameLength := picked.length_eq
  rw [List.length_map] at sameLength
  exact sameLength

theorem length_filter_add_length
    {chosen : List Key} (distinct : (rows.map key).Nodup)
    (chosenDistinct : chosen.Nodup) (included : chosen ⊆ rows.map key) :
    (rows.filter fun row => !chosen.contains (key row)).length +
      chosen.length = rows.length := by
  have picked := length_filter_contains distinct chosenDistinct included
  have split := List.length_eq_length_filter_add (l := rows)
    fun row => chosen.contains (key row)
  omega

variable {replace : Row → Except Error Row} {updated : List Row}

theorem lookup_mapM_eq_none
    (keepsKey : ∀ row row', replace row = .ok row' → key row' = key row)
    (replaced : rows.mapM replace = .ok updated)
    (absent : lookup key wanted rows = none) :
    lookup key wanted updated = none := by
  rw [lookup_eq_none_iff] at absent ⊢
  rwa [map_key_eq_of_mapM keepsKey replaced]

/-- After a successful replacement, a key leads to the replacement of the row
it led to before. -/
theorem lookup_mapM_eq_some
    (keepsKey : ∀ row row', replace row = .ok row' → key row' = key row)
    (replaced : rows.mapM replace = .ok updated)
    (found : lookup key wanted rows = some row) :
    ∃ row', replace row = .ok row' ∧
      lookup key wanted updated = some row' := by
  rw [mapM_eq_ok_iff_forall₂] at replaced
  induction replaced with
  | nil =>
      cases found
  | @cons head head' tail tail' related _ inductionHypothesis =>
      rw [lookup_cons] at found
      rw [lookup_cons, keepsKey _ _ related]
      by_cases same : key head = wanted
      · rw [if_pos same] at found ⊢
        cases found
        exact ⟨head', related, rfl⟩
      · rw [if_neg same] at found ⊢
        exact inductionHypothesis found

end Lookup

end Library.KeyedRows
