import Mathlib.Data.Nat.Basic

/-!
# Loops that may not end

A loop is given by its body: round `index` takes the state and either goes on
with a new one or leaves with a result.  `run` is the loop cut off after a
number of rounds, so that a loop that does not end is still a function.  What a
loop does is stated over the states it reaches: an invariant of the rounds, and
a measure that every further round decreases.
-/

namespace Library.Loop

universe u v

/-- What a round decides. -/
inductive Flow (State : Type u) (Result : Type v) where
  | next (state : State)
  | leave (result : Result)

section Rounds

variable {State : Type u} {Result : Type v}

/-- The loop from round `index` on, for at most `fuel` rounds. -/
def run (body : Nat → State → Flow State Result) :
    Nat → Nat → State → Option Result
  | 0, _, _ => none
  | fuel + 1, index, state =>
      match body index state with
      | .leave result => some result
      | .next following => run body fuel (index + 1) following

/-- Round `index` is begun in `state`. -/
inductive Reaches (body : Nat → State → Flow State Result) (start : State) :
    Nat → State → Prop
  | refl : Reaches body start 0 start
  | next {index : Nat} {state following : State} :
      Reaches body start index state →
      body index state = .next following →
      Reaches body start (index + 1) following

variable {body : Nat → State → Flow State Result} {start state : State}
  {index : Nat} {result : Result}

theorem run_of_next {fuel : Nat} {following : State}
    (goesOn : body index state = .next following) :
    run body (fuel + 1) index state = run body fuel (index + 1) following := by
  rw [run, goesOn]

theorem run_of_leave {fuel : Nat} (leaves : body index state = .leave result) :
    run body (fuel + 1) index state = some result := by
  rw [run, leaves]

namespace Reaches

/-- An invariant of the rounds holds whenever a round begins. -/
theorem invariant (reached : Reaches body start index state)
    (property : Nat → State → Prop) (initial : property 0 start)
    (preserved : ∀ index state following, Reaches body start index state →
      property index state → body index state = .next following →
      property (index + 1) following) :
    property index state := by
  induction reached with
  | refl => exact initial
  | next previous goesOn inductionHypothesis =>
      exact preserved _ _ _ previous inductionHypothesis goesOn

theorem run_eq (reached : Reaches body start index state) (fuel : Nat) :
    run body (index + fuel) 0 start = run body fuel index state := by
  induction reached generalizing fuel with
  | refl => rw [Nat.zero_add]
  | next _ goesOn inductionHypothesis =>
      rw [Nat.add_assoc, Nat.add_comm 1 fuel, inductionHypothesis,
        run_of_next goesOn]

theorem exists_earlier (reached : Reaches body start index state)
    {earlier : Nat} (before : earlier ≤ index) :
    ∃ state, Reaches body start earlier state := by
  induction reached with
  | refl =>
      rw [Nat.le_zero.mp before]
      exact ⟨start, .refl⟩
  | next previous goesOn inductionHypothesis =>
      rcases Nat.le_or_eq_of_le_succ before with within | rfl
      · exact inductionHypothesis within
      · exact ⟨_, previous.next goesOn⟩

/-- The round that leaves decides the result, and how many rounds it takes. -/
theorem run_of_leaves (reached : Reaches body start index state)
    (leaves : body index state = .leave result) :
    (∀ fuel ≤ index, run body fuel 0 start = none) ∧
      ∀ fuel > index, run body fuel 0 start = some result := by
  constructor
  · intro fuel within
    obtain ⟨earlier, reachedEarlier⟩ := reached.exists_earlier within
    exact reachedEarlier.run_eq 0
  · intro fuel enough
    obtain ⟨more, rfl⟩ := Nat.exists_eq_add_of_lt enough
    rw [Nat.add_assoc, reached.run_eq, run_of_leave leaves]

end Reaches

/-- A loop whose rounds decrease a measure as long as they go on leaves. -/
theorem exists_leaves (measure : State → Nat)
    (decreases : ∀ index state following, Reaches body start index state →
      body index state = .next following →
      measure following < measure state) :
    ∃ last state result, Reaches body start last state ∧
      body last state = .leave result := by
  have fromRound (bound : Nat) : ∀ index state,
      Reaches body start index state → measure state < bound →
      ∃ last state result, Reaches body start last state ∧
        body last state = .leave result := by
    induction bound with
    | zero =>
        intro index state _ below
        exact absurd below (Nat.not_lt_zero _)
    | succ bound inductionHypothesis =>
        intro index state reached below
        cases decided : body index state with
        | leave result => exact ⟨index, state, result, reached, decided⟩
        | next following =>
            have smaller := decreases index state following reached decided
            exact inductionHypothesis _ _ (reached.next decided) (by omega)
  exact fromRound _ 0 start .refl (Nat.lt_succ_self _)

end Rounds

end Library.Loop
