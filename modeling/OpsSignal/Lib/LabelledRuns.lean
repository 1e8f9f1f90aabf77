import Mathlib.Data.List.Basic
import Mathlib.Data.List.Induction

/-!
# Labelled runs

Runs of a system whose step takes a label and may refuse it.  A run is
kept with its labels, oldest first, and with a condition that each of its
steps met in the state it was taken from.
-/

namespace LabelledRuns

universe u v

variable {State : Type u} {Label : Type v}

/-- The runs from `start` all of whose steps meet `condition`. -/
inductive Reaches
    (step : State → Label → Option State) (condition : State → Label → Prop)
    (start : State) : List Label → State → Prop
  | nil : Reaches step condition start [] start
  | snoc {labels : List Label} {state next : State} {label : Label} :
      Reaches step condition start labels state →
        condition state label → step state label = some next →
          Reaches step condition start (labels ++ [label]) next

/-- The condition every step meets. -/
def anyStep (_ : State) (_ : Label) : Prop :=
  True

instance (state : State) (label : Label) :
    Decidable (anyStep state label) :=
  inferInstanceAs (Decidable True)

variable {step : State → Label → Option State}
  {condition weaker : State → Label → Prop}

/-- What holds at the start and is kept by every step of the run holds at
its end. -/
theorem Reaches.invariant
    {holds : State → Prop} {start state : State} {labels : List Label}
    (reached : Reaches step condition start labels state)
    (initially : holds start)
    (kept : ∀ state label next, holds state → condition state label →
      step state label = some next → holds next) :
    holds state := by
  induction reached with
  | nil => exact initially
  | snoc _ met stepped inductionHypothesis =>
      exact kept _ _ _ inductionHypothesis met stepped

theorem Reaches.weaken
    {start state : State} {labels : List Label}
    (reached : Reaches step condition start labels state)
    (implied : ∀ state label, condition state label → weaker state label) :
    Reaches step weaker start labels state := by
  induction reached with
  | nil => exact Reaches.nil
  | snoc _ met stepped inductionHypothesis =>
      exact Reaches.snoc inductionHypothesis (implied _ _ met) stepped

theorem Reaches.append
    {start middle state : State} {first second : List Label}
    (before : Reaches step condition start first middle)
    (after : Reaches step condition middle second state) :
    Reaches step condition start (first ++ second) state := by
  induction after with
  | nil => simpa using before
  | snoc _ met stepped inductionHypothesis =>
      rw [← List.append_assoc]
      exact Reaches.snoc inductionHypothesis met stepped

theorem Reaches.single
    {state next : State} {label : Label}
    (met : condition state label) (stepped : step state label = some next) :
    Reaches step condition state [label] next :=
  Reaches.snoc Reaches.nil met stepped

/-! ## Every step of a run -/

theorem Reaches.anyStep
    {start state : State} {labels : List Label}
    (reached : Reaches step condition start labels state) :
    Reaches step anyStep start labels state :=
  reached.weaken fun _ _ _ => trivial

/-- The last step of a run. -/
theorem reaches_snoc_iff
    {start final : State} {labels : List Label} {label : Label} :
    Reaches step condition start (labels ++ [label]) final ↔
      ∃ state, Reaches step condition start labels state ∧
        condition state label ∧ step state label = some final := by
  constructor
  · intro reached
    generalize isWhole : labels ++ [label] = whole at reached
    cases reached with
    | nil => simp at isWhole
    | snoc earlier met stepped =>
        obtain ⟨rfl, sameLabel⟩ := List.append_inj' isWhole rfl
        cases sameLabel
        exact ⟨_, earlier, met, stepped⟩
  · rintro ⟨state, earlier, met, stepped⟩
    exact Reaches.snoc earlier met stepped

/-- The labels decide where a run leads. -/
theorem Reaches.unique
    {start first second : State} {labels : List Label}
    (one : Reaches step condition start labels first)
    (other : Reaches step weaker start labels second) : first = second := by
  induction one generalizing second with
  | nil =>
      generalize same : ([] : List Label) = labels at other
      cases other with
      | nil => rfl
      | snoc => simp at same
  | @snoc labels state next label _ _ stepped inductionHypothesis =>
      obtain ⟨middle, before, _, otherStepped⟩ := reaches_snoc_iff.mp other
      rw [inductionHypothesis before, otherStepped] at stepped
      exact (Option.some.inj stepped).symm

/-- A run in two parts. -/
theorem Reaches.split
    {start final : State} {first second : List Label}
    (reached : Reaches step condition start (first ++ second) final) :
    ∃ middle, Reaches step condition start first middle ∧
      Reaches step condition middle second final := by
  induction second using List.reverseRecOn generalizing final with
  | nil =>
      rw [List.append_nil] at reached
      exact ⟨final, reached, Reaches.nil⟩
  | append_singleton labels label inductionHypothesis =>
      rw [← List.append_assoc] at reached
      obtain ⟨state, before, met, stepped⟩ := reaches_snoc_iff.mp reached
      obtain ⟨middle, early, late⟩ := inductionHypothesis before
      exact ⟨middle, early, Reaches.snoc late met stepped⟩

/-- The first step of a run. -/
theorem reaches_cons_iff
    {start final : State} {label : Label} {rest : List Label} :
    Reaches step condition start (label :: rest) final ↔
      ∃ next, condition start label ∧ step start label = some next ∧
        Reaches step condition next rest final := by
  constructor
  · intro reached
    rw [← List.singleton_append] at reached
    obtain ⟨next, early, late⟩ := reached.split
    rw [← List.nil_append [label]] at early
    obtain ⟨state, before, met, stepped⟩ := reaches_snoc_iff.mp early
    have same : state = start :=
      before.unique (Reaches.nil : Reaches step condition start [] start)
    subst same
    exact ⟨next, met, stepped, late⟩
  · rintro ⟨next, met, stepped, later⟩
    exact (Reaches.single met stepped).append later

/-- What holds of every step of the run, from the state before it and the
state after it. -/
def EveryStep
    (step : State → Label → Option State) (start : State)
    (labels : List Label) (holds : State → Label → State → Prop) : Prop :=
  ∀ before label after state next, labels = before ++ label :: after →
    Reaches step LabelledRuns.anyStep start before state →
      step state label = some next → holds state label next

theorem everyStep_nil
    {start : State} {holds : State → Label → State → Prop} :
    EveryStep step start [] holds := by
  intro before label after state next split
  simp at split

/-- One more step. -/
theorem everyStep_snoc_iff
    {start final : State} {labels : List Label} {label : Label}
    {holds : State → Label → State → Prop}
    (reached : Reaches step LabelledRuns.anyStep start labels final) :
    EveryStep step start (labels ++ [label]) holds ↔
      EveryStep step start labels holds ∧
        ∀ next, step final label = some next → holds final label next := by
  constructor
  · intro every
    refine ⟨?_, fun next stepped =>
      every labels label [] final next rfl reached stepped⟩
    intro before other after state next split
    apply every before other (after ++ [label])
    rw [split, List.append_assoc]
    rfl
  · rintro ⟨earlier, last⟩ before other after state next split here stepped
    rcases List.eq_nil_or_concat after with rfl | ⟨rest, final, rfl⟩
    · obtain ⟨rfl, sameLabel⟩ := List.append_inj' split rfl
      cases sameLabel
      have sameState := here.unique reached
      subst sameState
      exact last next stepped
    · rw [List.concat_eq_append, ← List.cons_append,
        ← List.append_assoc] at split
      have shorter := (List.append_inj' split rfl).1
      exact earlier before other rest state next shorter here stepped

/-- If a step does what it should exactly when it meets the condition, all
steps of a run do exactly when the run meets it throughout. -/
theorem everyStep_iff
    {start final : State} {labels : List Label}
    {holds : State → Label → State → Prop}
    (reached : Reaches step LabelledRuns.anyStep start labels final)
    (same : ∀ before state label next,
      Reaches step LabelledRuns.anyStep start before state →
        step state label = some next →
          (holds state label next ↔ condition state label)) :
    EveryStep step start labels holds ↔
      Reaches step condition start labels final := by
  induction reached with
  | nil => exact iff_of_true everyStep_nil Reaches.nil
  | @snoc labels state next label reached _ stepped inductionHypothesis =>
      rw [everyStep_snoc_iff reached, inductionHypothesis]
      have lastSame := same labels state label next reached stepped
      constructor
      · rintro ⟨earlier, last⟩
        exact Reaches.snoc earlier (lastSame.mp (last next stepped)) stepped
      · intro met
        obtain ⟨other, earlier, lastMet, _⟩ := reaches_snoc_iff.mp met
        have sameState := earlier.unique reached
        subst sameState
        refine ⟨earlier, ?_⟩
        intro other otherStep
        rw [stepped] at otherStep
        cases otherStep
        exact lastSame.mpr lastMet

/-- A run each of whose steps does something more. -/
theorem Reaches.strengthen
    {start final : State} {labels : List Label}
    {more : State → Label → Prop}
    (reached : Reaches step condition start labels final)
    (every : EveryStep step start labels fun state label _ =>
      more state label) :
    Reaches step (fun state label => condition state label ∧
      more state label) start labels final := by
  induction reached with
  | nil => exact Reaches.nil
  | snoc earlier met stepped inductionHypothesis =>
      obtain ⟨before, last⟩ :=
        (everyStep_snoc_iff earlier.anyStep).mp every
      exact Reaches.snoc (inductionHypothesis before)
        ⟨met, last _ stepped⟩ stepped

/-! ## Computing a run -/

/-- The state after a list of labels, if no step refuses and each meets the
condition. -/
def run (step : State → Label → Option State)
    (condition : State → Label → Prop)
    [∀ state label, Decidable (condition state label)] :
    State → List Label → Option State
  | state, [] => some state
  | state, label :: rest =>
      if condition state label then
        (step state label).bind fun next => run step condition next rest
      else
        none

/-- What `run` computes is a run. -/
theorem reaches_of_run
    [∀ state label, Decidable (condition state label)] :
    ∀ {labels : List Label} {start state : State},
      run step condition start labels = some state →
        Reaches step condition start labels state
  | [], start, state, computed => by
      cases computed
      exact Reaches.nil
  | label :: rest, start, state, computed => by
      rw [run] at computed
      split at computed
      · rename_i met
        obtain ⟨next, stepped, later⟩ :=
          Option.bind_eq_some_iff.mp computed
        exact Reaches.append (Reaches.single met stepped)
          (reaches_of_run later)
      · cases computed

theorem reaches_of_isSome
    [∀ state label, Decidable (condition state label)]
    {start : State} {labels : List Label} (default : State)
    (computed : (run step condition start labels).isSome = true) :
    Reaches step condition start labels
      ((run step condition start labels).getD default) := by
  obtain ⟨final, isFinal⟩ := Option.isSome_iff_exists.mp computed
  rw [isFinal]
  exact reaches_of_run isFinal

theorem run_snoc
    [∀ state label, Decidable (condition state label)] (label : Label) :
    ∀ (labels : List Label) (start : State),
      run step condition start (labels ++ [label]) =
        (run step condition start labels).bind fun state =>
          if condition state label then step state label else none
  | [], start => by
      rw [List.nil_append, run, run, Option.bind_some]
      split
      · cases step start label with
        | none => rfl
        | some next => rfl
      · rfl
  | first :: rest, start => by
      rw [List.cons_append, run, run]
      split
      · cases step start first with
        | none => rfl
        | some next => exact run_snoc label rest next
      · rfl

/-- And every run can be computed. -/
theorem run_of_reaches
    [∀ state label, Decidable (condition state label)]
    {start state : State} {labels : List Label}
    (reached : Reaches step condition start labels state) :
    run step condition start labels = some state := by
  induction reached with
  | nil => rfl
  | snoc _ met stepped inductionHypothesis =>
      rw [run_snoc, inductionHypothesis, Option.bind_some, if_pos met]
      exact stepped

/-! ## Forgetting a part of the state -/

/-- If a step commutes with forgetting a part of the state, so does a run. -/
theorem map_run
    {Image : Type*} {small : Image → Label → Option Image}
    (forget : State → Image)
    (same : ∀ state label,
      (step state label).map forget = small (forget state) label)
    (labels : List Label) :
    ∀ start : State,
      (run step LabelledRuns.anyStep start labels).map forget =
        run small LabelledRuns.anyStep (forget start) labels := by
  induction labels with
  | nil => exact fun _ => rfl
  | cons label rest inductionHypothesis =>
      intro start
      have always : ∀ state : State, LabelledRuns.anyStep state label :=
        fun _ => trivial
      have alwaysSmall : LabelledRuns.anyStep (forget start) label := trivial
      rw [run, run, if_pos (always start), if_pos alwaysSmall, ← same]
      cases step start label with
      | none => rfl
      | some next => exact inductionHypothesis next

end LabelledRuns
