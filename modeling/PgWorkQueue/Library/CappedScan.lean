import Mathlib.Data.List.Sort

/-!
# Capped selection from an ordered list

Items are scanned in a fixed order.  Each belongs to a class, and a class may
have a cap.  Two ways of choosing at most `n` items are compared:

* `greedyScan` walks the list once and admits an item while fewer than its cap
  were admitted from its class, until `n` items are admitted;
* the truncating selection cuts every class down to its first `min cap n` items
  (an uncapped class to its first `n`), merges what is left in scan order and
  keeps the first `n`.

Both choose the same items in the same order.  The link is `withinCap`, which
decides about an item by the number of earlier items of its class alone,
whatever was done with them.
-/

namespace Library.CappedScan

universe u v

variable {Item : Type u} {Class : Type v} [DecidableEq Class]

/-- A cap allows one more when fewer than it are used; no cap always does. -/
def allows : Option Nat → Nat → Bool
  | none, _ => true
  | some cap, used => decide (used < cap)

/-- How many of `seen` items a cap lets through. -/
def clip : Option Nat → Nat → Nat
  | none, seen => seen
  | some cap, seen => min cap seen

/-- A cap lowered to a batch limit; an uncapped class gets the limit itself. -/
def lower (limit : Nat) : Option Nat → Nat
  | none => limit
  | some cap => min cap limit

/-- One pass over the list: `admitted` holds the classes of the items admitted
so far, the first argument counts the admissions that are left. -/
def greedyScan (classOf : Item → Class) (cap : Class → Option Nat) :
    Nat → List Class → List Item → List Item
  | 0, _, _ => []
  | _ + 1, _, [] => []
  | budget + 1, admitted, item :: rest =>
      if allows (cap (classOf item)) (admitted.count (classOf item)) then
        item :: greedyScan classOf cap budget
          (classOf item :: admitted) rest
      else
        greedyScan classOf cap (budget + 1) admitted rest

/-- The items whose rank within their class is below the cap.  `seen` holds the
classes of all earlier items. -/
def withinCap (classOf : Item → Class) (cap : Class → Option Nat) :
    List Class → List Item → List Item
  | _, [] => []
  | seen, item :: rest =>
      if allows (cap (classOf item)) (seen.count (classOf item)) then
        item :: withinCap classOf cap (classOf item :: seen) rest
      else
        withinCap classOf cap (classOf item :: seen) rest

variable {classOf : Item → Class} {cap : Class → Option Nat}

theorem allows_clip (bound : Option Nat) (seen : Nat) :
    allows bound (clip bound seen) = allows bound seen := by
  cases bound with
  | none =>
      rfl
  | some cap =>
      exact decide_eq_decide.mpr (by simp only [clip]; omega)

theorem clip_succ (bound : Option Nat) (seen : Nat) :
    clip bound (seen + 1) =
      clip bound seen + if allows bound seen then 1 else 0 := by
  cases bound with
  | none =>
      simp [allows, clip]
  | some cap =>
      by_cases room : seen < cap
      · simp [allows, clip, room]
        omega
      · simp [allows, clip, room]
        omega

/-- The number of items of a class that pass is the clipped number of items of
the class. -/
theorem countP_withinCap
    (tested : Class) (seen : List Class) (items : List Item) :
    (withinCap classOf cap seen items).countP (classOf · = tested) +
        clip (cap tested) (seen.count tested) =
      clip (cap tested)
        (seen.count tested + items.countP (classOf · = tested)) := by
  induction items generalizing seen with
  | nil =>
      simp [withinCap]
  | cons item rest inductionHypothesis =>
      have tail := inductionHypothesis (classOf item :: seen)
      by_cases same : classOf item = tested
      · subst same
        have next := clip_succ (cap (classOf item))
          (seen.count (classOf item))
        rw [List.count_cons_self, Nat.add_right_comm] at tail
        rw [withinCap, List.countP_cons_of_pos (by simp), ← Nat.add_assoc,
          ← tail]
        split
        · rename_i room
          rw [List.countP_cons_of_pos (by simp)]
          rw [if_pos room] at next
          omega
        · rename_i full
          rw [if_neg full] at next
          omega
      · rw [List.count_cons_of_ne same] at tail
        rw [List.countP_cons_of_neg (by simpa using same), ← tail]
        rw [withinCap]
        split
        · rw [List.countP_cons_of_neg (by simpa using same)]
        · rfl

theorem countP_withinCap_le
    {tested : Class} {bound : Nat} (capped : cap tested = some bound)
    (items : List Item) :
    (withinCap classOf cap [] items).countP (classOf · = tested) ≤ bound := by
  have counted :
      (withinCap classOf cap [] items).countP (classOf · = tested) +
          clip (cap tested) 0 =
        clip (cap tested) (0 + items.countP (classOf · = tested)) :=
    countP_withinCap tested [] items
  rw [capped] at counted
  simp only [clip] at counted
  omega

/-- Deciding by what was admitted and deciding by what was seen agree. -/
theorem greedyScan_eq_take_withinCap
    (budget : Nat) (admitted seen : List Class) (items : List Item)
    (clipped : ∀ tested,
      admitted.count tested = clip (cap tested) (seen.count tested)) :
    greedyScan classOf cap budget admitted items =
      (withinCap classOf cap seen items).take budget := by
  induction items generalizing budget admitted seen with
  | nil =>
      cases budget <;> simp [greedyScan, withinCap]
  | cons item rest inductionHypothesis =>
      cases budget with
      | zero =>
          simp [greedyScan]
      | succ budget =>
          rw [greedyScan, withinCap, clipped, allows_clip]
          have next := clip_succ (cap (classOf item))
            (seen.count (classOf item))
          split
          · rename_i room
            rw [if_pos room] at next
            rw [List.take_succ_cons]
            refine congrArg (item :: ·) (inductionHypothesis budget _ _ ?_)
            intro tested
            by_cases same : classOf item = tested
            · subst same
              rw [List.count_cons_self, List.count_cons_self, next, clipped]
            · rw [List.count_cons_of_ne same, List.count_cons_of_ne same,
                clipped]
          · rename_i full
            rw [if_neg full] at next
            refine inductionHypothesis (budget + 1) _ _ ?_
            intro tested
            by_cases same : classOf item = tested
            · subst same
              rw [List.count_cons_self, next, clipped]
              rfl
            · rw [List.count_cons_of_ne same, clipped]

theorem allows_of_lt_lower
    {limit rank : Nat} {bound : Option Nat}
    (lowered : rank < lower limit bound) : allows bound rank = true := by
  cases bound with
  | none =>
      rfl
  | some cap =>
      simp only [lower] at lowered
      simp only [allows, decide_eq_true_eq]
      omega

/-- What only the lowered cap rejects has a rank past the limit. -/
theorem limit_le_of_allows
    {limit rank : Nat} {bound : Option Nat}
    (lowered : ¬ rank < lower limit bound)
    (room : allows bound rank = true) :
    limit ≤ min (lower limit bound) rank := by
  cases bound with
  | none =>
      simp only [lower] at lowered ⊢
      omega
  | some cap =>
      simp only [lower] at lowered ⊢
      simp only [allows, decide_eq_true_eq] at room
      omega

/-- Lowering every cap to the batch limit does not change the first `limit`
items: an item that only the lowered cap rejects has `limit` admitted items of
its own class before it. -/
theorem take_withinCap_lower
    (limit : Nat) (seen : List Class) (items : List Item) (earlier : Nat)
    (enough : ∀ tested,
      min (lower limit (cap tested)) (seen.count tested) ≤ earlier) :
    (withinCap classOf cap seen items).take (limit - earlier) =
      (withinCap classOf (fun tested => some (lower limit (cap tested)))
        seen items).take (limit - earlier) := by
  induction items generalizing seen earlier with
  | nil =>
      rfl
  | cons item rest inductionHypothesis =>
      rw [withinCap, withinCap]
      set rank := seen.count (classOf item)
      by_cases lowered : rank < lower limit (cap (classOf item))
      · -- both caps admit the item
        have room : allows (cap (classOf item)) rank = true :=
          allows_of_lt_lower lowered
        rw [if_pos room, if_pos (by simpa [allows] using lowered)]
        cases remaining : limit - earlier with
        | zero => simp
        | succ budget =>
            rw [List.take_succ_cons, List.take_succ_cons]
            have tail := inductionHypothesis
              (classOf item :: seen) (earlier + 1) (by
                intro tested
                have bound := enough tested
                by_cases same : classOf item = tested
                · subst same
                  rw [List.count_cons_self]
                  omega
                · rw [List.count_cons_of_ne same]
                  omega)
            rw [show limit - (earlier + 1) = budget by omega] at tail
            rw [tail]
      · rw [if_neg (c := allows (some _) _ = true)
          (by simpa [allows] using lowered)]
        by_cases room : allows (cap (classOf item)) rank = true
        · -- the limit is already reached by earlier items of this class
          have reached : limit ≤ earlier :=
            (limit_le_of_allows lowered room).trans (enough (classOf item))
          rw [show limit - earlier = 0 by omega]
          simp
        · rw [if_neg room]
          refine inductionHypothesis (classOf item :: seen) earlier ?_
          intro tested
          have bound := enough tested
          by_cases same : classOf item = tested
          · subst same
            rw [List.count_cons_self]
            omega
          · rw [List.count_cons_of_ne same]
            exact bound

/-- Items of a class whose cap is zero may be left out before the scan. -/
theorem greedyScan_filter_full
    {full : Class} (capped : cap full = some 0)
    (budget : Nat) (admitted : List Class) (items : List Item) :
    greedyScan classOf cap budget admitted
        (items.filter fun item => decide (classOf item ≠ full)) =
      greedyScan classOf cap budget admitted items := by
  induction items generalizing budget admitted with
  | nil =>
      rfl
  | cons item rest inductionHypothesis =>
      cases budget with
      | zero =>
          simp [greedyScan]
      | succ budget =>
          by_cases isFull : classOf item = full
          · have refused : ¬ allows (cap (classOf item))
                (admitted.count (classOf item)) = true := by
              simp [isFull, capped, allows]
            rw [List.filter_cons_of_neg (by simpa using isFull),
              inductionHypothesis, greedyScan, if_neg refused]
          · rw [List.filter_cons_of_pos (by simpa using isFull), greedyScan,
              greedyScan, inductionHypothesis, inductionHypothesis]

/-- When no cap of an occurring class is below the admissions made and left,
the scan keeps the first items of the list. -/
theorem greedyScan_eq_take
    (budget : Nat) (admitted : List Class) (items : List Item)
    (roomy : ∀ item ∈ items, ∀ bound, cap (classOf item) = some bound →
      admitted.length + budget ≤ bound) :
    greedyScan classOf cap budget admitted items = items.take budget := by
  induction items generalizing budget admitted with
  | nil =>
      cases budget <;> simp [greedyScan]
  | cons item rest inductionHypothesis =>
      cases budget with
      | zero =>
          simp [greedyScan]
      | succ budget =>
          have room : allows (cap (classOf item))
              (admitted.count (classOf item)) = true := by
            cases capped : cap (classOf item) with
            | none =>
                rfl
            | some bound =>
                have enough := roomy item List.mem_cons_self bound capped
                have counted : admitted.count (classOf item) ≤
                    admitted.length := List.count_le_length
                simp only [allows, decide_eq_true_eq]
                omega
          have tail := inductionHypothesis budget (classOf item :: admitted)
            (by
              intro other member bound capped
              have enough := roomy other (List.mem_cons_of_mem item member)
                bound capped
              rw [List.length_cons]
              omega)
          rw [greedyScan, if_pos room, List.take_succ_cons, tail]

/-- Classes without a cap may be merged into one. -/
theorem withinCap_merge
    {Merged : Type*} [DecidableEq Merged] {merge : Class → Merged}
    {mergedCap : Merged → Option Nat}
    (sameCap : ∀ tested, mergedCap (merge tested) = cap tested)
    (separated : ∀ tested bound, cap tested = some bound →
      ∀ other, merge other = merge tested → other = tested)
    (seen : List Class) (items : List Item) :
    withinCap (fun item => merge (classOf item)) mergedCap
        (seen.map merge) items =
      withinCap classOf cap seen items := by
  induction items generalizing seen with
  | nil =>
      rfl
  | cons item rest inductionHypothesis =>
      have sameVerdict :
          allows (mergedCap (merge (classOf item)))
              ((seen.map merge).count (merge (classOf item))) =
            allows (cap (classOf item)) (seen.count (classOf item)) := by
        rw [sameCap]
        cases capped : cap (classOf item) with
        | none =>
            rfl
        | some bound =>
            have sameCount :
                (seen.map merge).count (merge (classOf item)) =
                  seen.count (classOf item) := by
              rw [List.count, List.countP_map]
              refine List.countP_congr fun other _ => ?_
              have only := separated (classOf item) bound capped other
              simp only [Function.comp_apply, beq_iff_eq]
              exact ⟨only, fun same => same ▸ rfl⟩
            rw [sameCount]
      have tail := inductionHypothesis (classOf item :: seen)
      rw [List.map_cons] at tail
      rw [withinCap, withinCap, sameVerdict, tail]

/-! ## Truncated class lists -/

/-- An item is among the first `m` items that pass a test exactly when fewer
than `m` earlier items pass it. -/
theorem mem_take_filter_iff
    {before after : List Item} {item : Item}
    (distinct : (before ++ item :: after).Nodup)
    (test : Item → Bool) (passes : test item = true) (limit : Nat) :
    item ∈ ((before ++ item :: after).filter test).take limit ↔
      before.countP test < limit := by
  have absent : item ∉ before := by
    intro member
    exact (List.nodup_append.mp distinct).2.2
      item member item (by simp) rfl
  rw [List.filter_append, List.filter_cons_of_pos passes, List.take_append,
    List.mem_append, ← List.countP_eq_length_filter]
  constructor
  · rintro (inBefore | inRest)
    · exact (absent
        (List.mem_of_mem_filter (List.mem_of_mem_take inBefore))).elim
    · by_contra full
      rw [show limit - before.countP test = 0 by omega] at inRest
      simp at inRest
  · intro room
    right
    rw [show limit - before.countP test =
      (limit - before.countP test - 1) + 1 by omega, List.take_succ_cons]
    exact List.mem_cons_self

/-- Cutting every class of a duplicate-free list down to its first
`bound` items and merging the rest in order is `withinCap`. -/
theorem filter_eq_withinCap
    (bound : Class → Nat) (keep : Item → Bool) (before items : List Item)
    (distinct : (before ++ items).Nodup)
    (truncated : ∀ item ∈ items, keep item = true ↔
      item ∈ ((before ++ items).filter
        (classOf · = classOf item)).take (bound (classOf item))) :
    items.filter keep =
      withinCap classOf (fun tested => some (bound tested))
        (before.reverse.map classOf) items := by
  induction items generalizing before with
  | nil =>
      rfl
  | cons item rest inductionHypothesis =>
      have tail := inductionHypothesis (before ++ [item])
        (by simpa using distinct)
        (by
          intro other member
          simpa using truncated other (List.mem_cons_of_mem item member))
      have chosen := (truncated item List.mem_cons_self).trans
        (mem_take_filter_iff distinct (classOf · = classOf item) (by simp)
          (bound (classOf item)))
      have rank : (before.reverse.map classOf).count (classOf item) =
          before.countP (classOf · = classOf item) := by
        rw [List.count, List.countP_map, List.countP_reverse]
        rfl
      rw [withinCap, rank]
      simp only [List.reverse_append, List.reverse_cons, List.reverse_nil,
        List.nil_append, List.map_cons, List.cons_append] at tail
      by_cases room : before.countP (classOf · = classOf item) <
          bound (classOf item)
      · rw [if_pos (by simpa [allows] using room),
          List.filter_cons_of_pos (chosen.mpr room), tail]
      · rw [if_neg (by simpa [allows] using room),
          List.filter_cons_of_neg (mt chosen.mp room), tail]

/-! ## Sorting -/

/-- Sorting commutes with filtering when the order separates the items. -/
theorem insertionSort_filter
    {before : Item → Item → Prop} [DecidableRel before]
    [Std.Total before] [IsTrans Item before]
    {items : List Item}
    (separated : ∀ left ∈ items, ∀ right ∈ items,
      before left right → before right left → left = right)
    (keep : Item → Bool) :
    (items.filter keep).insertionSort before =
      (items.insertionSort before).filter keep := by
  refine List.Perm.eq_of_pairwise ?_
    (List.pairwise_insertionSort before _)
    ((List.pairwise_insertionSort before _).filter _) ?_
  · intro left right leftMember rightMember
    rw [List.mem_insertionSort] at leftMember
    have rightInSorted := List.mem_of_mem_filter rightMember
    rw [List.mem_insertionSort] at rightInSorted
    exact separated left (List.mem_of_mem_filter leftMember)
      right rightInSorted
  · exact (List.perm_insertionSort before _).trans
      ((List.perm_insertionSort before _).filter keep).symm

/-- A cut of an ordered list takes, with an item, all that is not behind it. -/
theorem mem_take_of_not_behind
    {before : Item → Item → Prop} {items : List Item}
    (sorted : items.Pairwise before) {limit : Nat} {taken other : Item}
    (isTaken : taken ∈ items.take limit) (listed : other ∈ items)
    (notBehind : ¬ before taken other) : other ∈ items.take limit := by
  rw [← List.take_append_drop limit items] at sorted listed
  rcases List.mem_append.mp listed with inTake | inDrop
  · exact inTake
  · have behind := (List.pairwise_append.mp sorted).2.2 taken isTaken other
      inDrop
    exact absurd behind notBehind

/-- A cut that leaves an item behind is full. -/
theorem length_take_of_left
    {items : List Item} {limit : Nat} {item : Item} (listed : item ∈ items)
    (left : item ∉ items.take limit) : (items.take limit).length = limit := by
  apply List.length_take_of_le
  by_contra short
  apply left
  rw [List.take_of_length_le (Nat.le_of_not_le short)]
  exact listed

/-! ## Counting by class -/

/-- Items of few classes, with few of each, are few. -/
theorem length_le_of_classes (bound : Nat) (classes : List Class)
    (items : List Item) (inClasses : ∀ item ∈ items, classOf item ∈ classes)
    (few : ∀ tested, (items.filter (classOf · = tested)).length ≤ bound) :
    items.length ≤ bound * classes.length := by
  induction classes generalizing items with
  | nil =>
      cases items with
      | nil => exact Nat.zero_le _
      | cons item rest => cases inClasses item List.mem_cons_self
  | cons first rest inductionHypothesis =>
      have others := inductionHypothesis
        (items.filter fun item => !decide (classOf item = first)) ?_ ?_
      · have split := List.length_eq_length_filter_add
          (l := items) fun item => decide (classOf item = first)
        have ofFirst := few first
        rw [List.length_cons, Nat.mul_succ]
        omega
      · intro item member
        obtain ⟨listed, differs⟩ := List.mem_filter.mp member
        rcases List.mem_cons.mp (inClasses item listed) with same | later
        · simp [same] at differs
        · exact later
      · intro tested
        refine Nat.le_trans (List.Sublist.length_le ?_) (few tested)
        exact List.filter_sublist.filter _

/-- Items that each contribute something are no more than what they
contribute. -/
theorem countP_le_length_flatMap {Part : Type v} (tested : Item → Bool)
    (parts : Item → List Part) (items : List Item)
    (contributes : ∀ item ∈ items, tested item = true → parts item ≠ []) :
    items.countP tested ≤ (items.flatMap parts).length := by
  induction items with
  | nil => exact Nat.zero_le _
  | cons item rest inductionHypothesis =>
      have others := inductionHypothesis fun other member =>
        contributes other (List.mem_cons_of_mem _ member)
      rw [List.flatMap_cons, List.length_append]
      by_cases isTested : tested item = true
      · have some := List.length_pos_of_ne_nil
          (contributes item List.mem_cons_self isTested)
        rw [List.countP_cons_of_pos isTested]
        omega
      · rw [List.countP_cons_of_neg isTested]
        omega

end Library.CappedScan
