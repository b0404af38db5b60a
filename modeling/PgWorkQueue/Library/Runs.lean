import Mathlib.Data.List.Induction

/-!
# Finite runs of labelled transition systems

A run is recorded as the list of its transitions, each with the state it
started from, its label and the state it led to.  Keeping both end states in
the record lets a statement about a run speak of "the state in which this
step was taken" without a separate indexing of states.

The module supplies the induction rules used for safety properties: an
invariant of one step is an invariant of a run, a run splits at each of its
transitions, a run of one system is seen as a run of another that simulates it,
and a property that is lost somewhere along a run is lost by one transition of
it.
-/

namespace Library.Runs

universe u v

/-- One recorded transition: where it started, its label, where it led. -/
structure Transition (State : Type u) (Label : Type v) where
  source : State
  label : Label
  target : State

/-- `Run step start trace finish`: the transitions of `trace` are taken one
after the other from `start` and end in `finish`. -/
inductive Run {State : Type u} {Label : Type v}
    (step : State → Label → State → Prop) (start : State) :
    List (Transition State Label) → State → Prop
  | refl : Run step start [] start
  | snoc {trace : List (Transition State Label)}
      {middle finish : State} {label : Label} :
      Run step start trace middle →
      step middle label finish →
      Run step start (trace ++ [⟨middle, label, finish⟩]) finish

/-- What a sequence shows of its events grows with it. -/
theorem filterMap_snoc {Event : Type u} {Seen : Type v}
    (seen : Event → Option Seen) (events : List Event) (event : Event) :
    (events ++ [event]).filterMap seen =
      events.filterMap seen ++ (seen event).toList := by
  rw [List.filterMap_append]
  cases shown : seen event with
  | none => rw [List.filterMap_cons_none shown, List.filterMap_nil,
      Option.toList_none]
  | some value => rw [List.filterMap_cons_some shown, List.filterMap_nil,
      Option.toList_some]

namespace Run

variable {State : Type u} {Label : Type v}
  {step : State → Label → State → Prop}
  {start finish : State} {trace : List (Transition State Label)}

/-- A property of the initial state that each step preserves holds at the
end of every run. -/
theorem invariant
    (run : Run step start trace finish)
    (property : State → Prop)
    (initial : property start)
    (preserved : ∀ source label target,
      property source → step source label target → property target) :
    property finish := by
  induction run with
  | refl =>
      exact initial
  | snoc _ taken inductionHypothesis =>
      exact preserved _ _ _ inductionHypothesis taken

/-- The same rule for a property of the state together with the transitions
that led to it. -/
theorem historyInvariant
    (run : Run step start trace finish)
    (property : List (Transition State Label) → State → Prop)
    (initial : property [] start)
    (preserved : ∀ history source label target,
      Run step start history source →
      property history source →
      step source label target →
      property (history ++ [⟨source, label, target⟩]) target) :
    property trace finish := by
  induction run with
  | refl =>
      exact initial
  | snoc earlier taken inductionHypothesis =>
      exact preserved _ _ _ _ earlier inductionHypothesis taken

theorem single
    {label : Label} (taken : step start label finish) :
    Run step start [⟨start, label, finish⟩] finish := by
  simpa using Run.snoc Run.refl taken

theorem append
    {middle : State} {later : List (Transition State Label)}
    (first : Run step start trace middle)
    (second : Run step middle later finish) :
    Run step start (trace ++ later) finish := by
  induction second with
  | refl =>
      simpa using first
  | snoc _ taken inductionHypothesis =>
      rw [← List.append_assoc]
      exact Run.snoc inductionHypothesis taken

/-- A run over a concatenated trace passes through an intermediate state. -/
theorem split
    {later : List (Transition State Label)} :
    ∀ {finish : State},
      Run step start (trace ++ later) finish →
      ∃ middle, Run step start trace middle ∧
        Run step middle later finish := by
  induction later using List.reverseRecOn with
  | nil =>
      intro finish run
      exact ⟨finish, by simpa using run, Run.refl⟩
  | append_singleton initial last inductionHypothesis =>
      intro finish run
      rw [← List.append_assoc] at run
      generalize shape :
        (trace ++ initial) ++ [last] = whole at run
      cases run with
      | refl =>
          simp at shape
      | snoc earlier taken =>
          obtain ⟨sameInitial, sameLast⟩ :=
            List.append_inj' shape rfl
          rw [List.singleton_inj] at sameLast
          subst sameInitial
          subst sameLast
          obtain ⟨middle, before, between⟩ :=
            inductionHypothesis earlier
          exact ⟨middle, before, Run.snoc between taken⟩

/-- A run splits at each transition it contains. -/
theorem splitAt
    {before after : List (Transition State Label)}
    {taken : Transition State Label}
    (run : Run step start (before ++ taken :: after) finish) :
    Run step start before taken.source ∧
      step taken.source taken.label taken.target ∧
      Run step taken.target after finish := by
  have regrouped :
      Run step start ((before ++ [taken]) ++ after) finish := by
    simpa using run
  obtain ⟨middle, first, second⟩ := split regrouped
  generalize shape : before ++ [taken] = whole at first
  cases first with
  | refl =>
      simp at shape
  | snoc earlier stepTaken =>
      obtain ⟨sameInitial, sameLast⟩ := List.append_inj' shape rfl
      rw [List.singleton_inj] at sameLast
      subst sameInitial
      subst sameLast
      exact ⟨earlier, stepTaken, second⟩

/-- Every transition of a run is taken from a state that the run reaches. -/
theorem reaches_source
    (run : Run step start trace finish)
    {taken : Transition State Label} (member : taken ∈ trace) :
    ∃ before, Run step start before taken.source ∧
      step taken.source taken.label taken.target := by
  obtain ⟨before, after, shape⟩ := List.mem_iff_append.mp member
  subst shape
  obtain ⟨earlier, stepTaken, _⟩ := run.splitAt
  exact ⟨before, earlier, stepTaken⟩

/-- A run of a system is a run of every system that allows more steps. -/
theorem mono
    {wider : State → Label → State → Prop}
    (run : Run step start trace finish)
    (included : ∀ source label target,
      step source label target → wider source label target) :
    Run wider start trace finish := by
  induction run with
  | refl =>
      exact Run.refl
  | snoc _ taken inductionHypothesis =>
      exact Run.snoc inductionHypothesis (included _ _ _ taken)

/-- Simulation: when each step a run takes is, in the eyes of another system,
a step of that system or no step at all, the run is a run of that system. -/
theorem exists_image
    {View : Type u} {ViewLabel : Type v}
    {viewStep : View → ViewLabel → View → Prop} (view : State → View)
    (run : Run step start trace finish)
    (simulated : ∀ history source label target,
      Run step start history source → step source label target →
      view target = view source ∨
        ∃ viewLabel, viewStep (view source) viewLabel (view target)) :
    ∃ image, Run viewStep (view start) image (view finish) := by
  induction run with
  | refl =>
      exact ⟨[], Run.refl⟩
  | snoc earlier taken inductionHypothesis =>
      obtain ⟨image, seen⟩ := inductionHypothesis
      rcases simulated _ _ _ _ earlier taken with unseen | ⟨label, step⟩
      · rw [unseen]
        exact ⟨image, seen⟩
      · exact ⟨_, seen.snoc step⟩

/-- The same with the labels given: `seen` says which step of the other system
a transition stands for, if any. -/
theorem image
    {View : Type u} {ViewLabel : Type v}
    {viewStep : View → ViewLabel → View → Prop} (view : State → View)
    (seen : Transition State Label → Option ViewLabel)
    (run : Run step start trace finish)
    (stutters : ∀ history source label target,
      Run step start history source → step source label target →
      seen ⟨source, label, target⟩ = none → view target = view source)
    (simulated : ∀ history source label target viewLabel,
      Run step start history source → step source label target →
      seen ⟨source, label, target⟩ = some viewLabel →
      viewStep (view source) viewLabel (view target)) :
    Run viewStep (view start)
      (trace.filterMap fun taken => (seen taken).map fun viewLabel =>
        ⟨view taken.source, viewLabel, view taken.target⟩)
      (view finish) := by
  induction run with
  | refl =>
      exact Run.refl
  | @snoc trace middle finish label earlier taken inductionHypothesis =>
      rw [List.filterMap_append]
      cases visible : seen ⟨middle, label, finish⟩ with
      | none =>
          rw [stutters _ _ _ _ earlier taken visible]
          simpa [visible] using inductionHypothesis
      | some viewLabel =>
          simpa [visible] using inductionHypothesis.snoc
            (simulated _ _ _ _ _ earlier taken visible)

/-- A property that holds at the start of a run and fails at its end is lost
by one of the transitions of the run. -/
theorem exists_crossing
    (run : Run step start trace finish)
    (property : State → Prop)
    (initial : property start) (lost : ¬ property finish) :
    ∃ taken ∈ trace, property taken.source ∧ ¬ property taken.target := by
  classical
  induction run with
  | refl =>
      exact (lost initial).elim
  | @snoc trace middle finish label _ taken inductionHypothesis =>
      by_cases kept : property middle
      · exact ⟨⟨middle, label, finish⟩, by simp, kept, lost⟩
      · obtain ⟨crossing, member, before, after⟩ :=
          inductionHypothesis kept
        exact ⟨crossing, List.mem_append_left _ member, before, after⟩

end Run

end Library.Runs
