import Mathlib.Data.List.Basic
import Mathlib.Data.List.Pairwise

/-!
# Operations with disjoint footprints

A state is looked at through a `View`: its shape, which the operations in
question keep, and the content of each location.  An operation is `Local` to a
region when it writes nothing outside, and when what it writes inside and what
it replies depend on nothing outside.  Operations that are local to disjoint
regions commute, each with the reply it would have given alone; and a list of
them gives the same state and the same replies in every order.
-/

namespace Library.Footprint

variable {State Shape Location Content Reply Name : Type}

/-- A state is determined by its shape and the contents of its locations. -/
structure View (State Shape Location Content : Type) where
  shape : State → Shape
  read : State → Location → Content
  ext : ∀ {left right : State}, shape left = shape right →
    (∀ location, read left location = read right location) → left = right

/-- The operation reads and writes only the region. -/
structure Local (view : View State Shape Location Content)
    (region : Shape → Location → Prop)
    (operation : State → State × Reply) : Prop where
  shape : ∀ state, view.shape (operation state).1 = view.shape state
  frame : ∀ state location, ¬ region (view.shape state) location →
    view.read (operation state).1 location = view.read state location
  reads : ∀ {left right}, view.shape left = view.shape right →
    (∀ location, region (view.shape left) location →
      view.read left location = view.read right location) →
    (operation left).2 = (operation right).2 ∧
      ∀ location, region (view.shape left) location →
        view.read (operation left).1 location =
          view.read (operation right).1 location

/-- An operation that leaves every state as it is. -/
theorem Local.unchanged (view : View State Shape Location Content)
    (region : Shape → Location → Prop) (reply : Reply) :
    Local view region fun state => (state, reply) where
  shape := fun _ => rfl
  frame := fun _ _ _ => rfl
  reads := fun _ agree => ⟨rfl, agree⟩

/-- Reading the reply differently changes nothing about the footprint. -/
theorem Local.mapReply {Answer : Type}
    {view : View State Shape Location Content}
    {region : Shape → Location → Prop} {operation : State → State × Reply}
    (localOp : Local view region operation) (answer : Reply → Answer) :
    Local view region
      (fun state => ((operation state).1, answer (operation state).2)) where
  shape := localOp.shape
  frame := localOp.frame
  reads := fun shape agree =>
    ⟨congrArg answer (localOp.reads shape agree).1,
      (localOp.reads shape agree).2⟩

section TwoOperations

variable {view : View State Shape Location Content}
  {region other : Shape → Location → Prop}
  {first second : State → State × Reply} {state : State}

/-- An operation does not notice one that is local to a disjoint region. -/
theorem Local.unaffected (local₁ : Local view region first)
    (local₂ : Local view other second)
    (disjoint : ∀ location, region (view.shape state) location →
      ¬ other (view.shape state) location) :
    (first (second state).1).2 = (first state).2 ∧
      ∀ location, region (view.shape state) location →
        view.read (first (second state).1).1 location =
          view.read (first state).1 location := by
  have same := local₂.shape state
  have agree : ∀ location, region (view.shape (second state).1) location →
      view.read (second state).1 location = view.read state location := by
    intro location inside
    rw [same] at inside
    exact local₂.frame state location (disjoint location inside)
  obtain ⟨reply, contents⟩ := local₁.reads same agree
  rw [same] at contents
  exact ⟨reply, contents⟩

/-- Operations with disjoint footprints commute. -/
theorem Local.commute (local₁ : Local view region first)
    (local₂ : Local view other second)
    (disjoint : ∀ location, region (view.shape state) location →
      ¬ other (view.shape state) location) :
    (second (first state).1).1 = (first (second state).1).1 := by
  have apart : ∀ location, other (view.shape state) location →
      ¬ region (view.shape state) location :=
    fun location inside outside => disjoint location outside inside
  have shape₁ := local₁.shape state
  have shape₂ := local₂.shape state
  have shape₁₂ := local₂.shape (first state).1
  have shape₂₁ := local₁.shape (second state).1
  apply view.ext
  · rw [shape₁₂, shape₁, shape₂₁, shape₂]
  · intro location
    by_cases inFirst : region (view.shape state) location
    · have outside : ¬ other (view.shape (first state).1) location := by
        rw [shape₁]
        exact disjoint location inFirst
      rw [local₂.frame _ location outside]
      exact ((local₁.unaffected local₂ disjoint).2 location inFirst).symm
    · have outside : ¬ region (view.shape (second state).1) location := by
        rw [shape₂]
        exact inFirst
      rw [local₁.frame _ location outside]
      by_cases inSecond : other (view.shape state) location
      · exact (local₂.unaffected local₁ apart).2 location inSecond
      · have neither : ¬ other (view.shape (first state).1) location := by
          rw [shape₁]
          exact inSecond
        rw [local₂.frame _ location neither, local₁.frame _ location inFirst,
          local₂.frame _ location inSecond]

end TwoOperations

/-! ## Lists of operations -/

/-- The final state, and each operation with its reply. -/
def runAll (operation : Name → State → State × Reply) :
    State → List Name → State × List (Name × Reply)
  | state, [] => (state, [])
  | state, name :: rest =>
      let later := runAll operation (operation name state).1 rest
      (later.1, (name, (operation name state).2) :: later.2)

section ManyOperations

variable {view : View State Shape Location Content}
  {operation : Name → State → State × Reply}
  {region : Name → Shape → Location → Prop}

/-- Each operation is local to its region. -/
def AllLocal (view : View State Shape Location Content)
    (operation : Name → State → State × Reply)
    (region : Name → Shape → Location → Prop) : Prop :=
  ∀ name, Local view (region name) (operation name)

/-- The regions of two operations are disjoint in a shape. -/
def Apart (region : Name → Shape → Location → Prop) (shape : Shape)
    (left right : Name) : Prop :=
  ∀ location, region left shape location → ¬ region right shape location

theorem Apart.symm {shape : Shape} {left right : Name}
    (apart : Apart region shape left right) :
    Apart region shape right left :=
  fun location inside outside => apart location outside inside

/-- Operations that are pairwise apart give the same state and the same replies
in every order. -/
theorem runAll_perm (allLocal : AllLocal view operation region)
    {names reordered : List Name} (permuted : names.Perm reordered)
    {state : State}
    (apart : names.Pairwise (Apart region (view.shape state))) :
    (runAll operation state names).1 = (runAll operation state reordered).1 ∧
      (runAll operation state names).2.Perm
        (runAll operation state reordered).2 := by
  induction permuted generalizing state with
  | nil => exact ⟨rfl, .nil⟩
  | @cons name names reordered _ later =>
      have kept : names.Pairwise
          (Apart region (view.shape (operation name state).1)) := by
        rw [(allLocal name).shape]
        exact (List.pairwise_cons.mp apart).2
      obtain ⟨sameState, sameReplies⟩ := later kept
      exact ⟨sameState, sameReplies.cons _⟩
  | swap left right names =>
      have disjoint : Apart region (view.shape state) right left :=
        (List.pairwise_cons.mp apart).1 left List.mem_cons_self
      have commute := (allLocal right).commute (allLocal left) disjoint
      have replyLeft :=
        ((allLocal left).unaffected (allLocal right) disjoint.symm).1
      have replyRight :=
        ((allLocal right).unaffected (allLocal left) disjoint).1
      simp only [runAll, commute, replyLeft, replyRight]
      exact ⟨trivial, .swap _ _ _⟩
  | trans forward _ first second =>
      have kept := (forward.pairwise_iff Apart.symm).mp apart
      obtain ⟨state₁, replies₁⟩ := first apart
      obtain ⟨state₂, replies₂⟩ := second kept
      exact ⟨state₁.trans state₂, replies₁.trans replies₂⟩

end ManyOperations

end Library.Footprint
