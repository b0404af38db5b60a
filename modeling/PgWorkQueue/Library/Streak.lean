import Mathlib.Data.List.Basic

/-!
# Streaks

A sequence of events that grows at its end, and a counter that a kind of event
raises and every other event resets.
-/

namespace Library.Streak

universe u

variable {Event : Type u}

/-- How many of the latest events are of the kind, back to the last one that is
not. -/
def streak (kind : Event → Bool) (events : List Event) : Nat :=
  (events.reverse.takeWhile kind).length

/-- The latest event is of the kind. -/
def endsWith (kind : Event → Bool) (events : List Event) : Bool :=
  events.getLast?.any kind

variable (kind : Event → Bool) (events : List Event) (event : Event)

@[simp]
theorem streak_nil : streak kind [] = 0 :=
  rfl

theorem streak_snoc :
    streak kind (events ++ [event]) =
      if kind event then streak kind events + 1 else 0 := by
  unfold streak
  rw [List.reverse_append, List.reverse_singleton, List.singleton_append,
    List.takeWhile_cons]
  by_cases counts : kind event = true
  · rw [if_pos counts, if_pos counts, List.length_cons]
  · rw [if_neg counts, if_neg counts, List.length_nil]

@[simp]
theorem endsWith_nil : endsWith kind [] = false :=
  rfl

@[simp]
theorem endsWith_snoc : endsWith kind (events ++ [event]) = kind event := by
  unfold endsWith
  rw [List.getLast?_append, List.getLast?_singleton, Option.some_or,
    Option.any_some]

end Library.Streak
