import Mathlib.Data.DFinsupp.WellFounded
import OpsSignal.Lib.LabelledRuns

/-!
# Systems that come to rest

A system may have work of several tiers.  If every step settles some work
at one tier and adds none at the tiers before it, however much it adds at
the tiers after it, then no run goes on forever, and every run can be
continued until no step is possible.
-/

namespace Quiescing

open LabelledRuns

universe u v

variable {State : Type u} {Label : Type v} {tiers : Nat}

/-- Some tier has less left than before, and none before it has more. -/
def Descends
    (left : State → Fin tiers → Nat) (state next : State) : Prop :=
  ∃ tier, left next tier < left state tier ∧
    ∀ earlier < tier, left next earlier ≤ left state earlier

/-- The first tier that differs has less left. -/
theorem lex_of_descends
    {left : State → Fin tiers → Nat} {state next : State}
    (descends : Descends left state next) :
    Pi.Lex (· < ·) (fun {_} => (· < ·)) (left next) (left state) := by
  obtain ⟨tier, less, bounded⟩ := descends
  have ordered := wellFounded_lt (α := Fin tiers)
  let smaller := { tier | left next tier < left state tier }
  have nonempty : smaller.Nonempty := ⟨tier, less⟩
  have isSmaller : ordered.min smaller nonempty ∈ smaller :=
    ordered.min_mem smaller nonempty
  refine ⟨ordered.min smaller nonempty, ?_, isSmaller⟩
  intro earlier before
  have notSmaller : earlier ∉ smaller := fun member =>
    ordered.not_lt_min smaller member before
  have first : earlier < tier :=
    Nat.lt_of_lt_of_le before
      (not_lt.mp (ordered.not_lt_min smaller (show tier ∈ smaller from less)))
  exact Nat.le_antisymm (bounded earlier first) (not_lt.mp notSmaller)

theorem wellFounded_descends (left : State → Fin tiers → Nat) :
    WellFounded fun next state => Descends left state next := by
  have lexicographic : WellFounded fun first second : Fin tiers → Nat =>
      Pi.Lex (· < ·) (fun {_} => (· < ·)) first second :=
    Pi.Lex.wellFounded (· < ·) fun _ => wellFounded_lt
  have inverse := InvImage.wf left lexicographic
  exact Subrelation.wf lex_of_descends inverse

/-! ## Runs -/

section Runs

variable (step : State → Label → Option State)
  (condition : State → Label → Prop)

/-- A run that never ends. -/
def Endless (start : State) : Prop :=
  ∃ (states : Nat → State) (labels : Nat → Label), states 0 = start ∧
    ∀ place, condition (states place) (labels place) ∧
      step (states place) (labels place) = some (states (place + 1))

/-- No step that meets the condition is possible. -/
def Resting (state : State) : Prop :=
  ∀ label, condition state label → step state label = none

variable {step condition} {left : State → Fin tiers → Nat}

theorem not_endless
    (descends : ∀ state label next, condition state label →
      step state label = some next → Descends left state next)
    (start : State) : ¬ Endless step condition start := by
  rintro ⟨states, labels, _, goes⟩
  have falls : ∀ place,
      Descends left (states place) (states (place + 1)) := by
    intro place
    obtain ⟨met, stepped⟩ := goes place
    exact descends _ _ _ met stepped
  have ordered := wellFounded_descends left
  have noChain := wellFounded_iff_isEmpty_descending_chain.mp ordered
  exact noChain.false ⟨states, falls⟩

/-- Every state can come to rest. -/
theorem exists_resting
    (descends : ∀ state label next, condition state label →
      step state label = some next → Descends left state next)
    (start : State) :
    ∃ labels final, Reaches step condition start labels final ∧
      Resting step condition final := by
  induction start using (wellFounded_descends left).induction with
  | _ state inductionHypothesis =>
      by_cases resting : Resting step condition state
      · exact ⟨[], state, Reaches.nil, resting⟩
      · simp only [Resting, not_forall] at resting
        obtain ⟨label, met, possible⟩ := resting
        obtain ⟨next, stepped⟩ := Option.ne_none_iff_exists'.mp possible
        obtain ⟨labels, final, later, rests⟩ :=
          inductionHypothesis next (descends _ _ _ met stepped)
        exact ⟨label :: labels, final,
          reaches_cons_iff.mpr ⟨next, met, stepped, later⟩, rests⟩

end Runs

/-! ## Work that is shared out -/

section Total

variable {Worker : Type u}

/-- What all workers have left together. -/
def total (measure : Worker → Nat) (workers : List Worker) : Nat :=
  (workers.map measure).sum

variable {measure : Worker → Nat} {workers : List Worker} {index : Nat}
  {worker moved : Worker}

theorem total_set
    (found : workers[index]? = some worker) :
    total measure (workers.set index moved) + measure worker =
      total measure workers + measure moved := by
  induction workers generalizing index with
  | nil => simp at found
  | cons head rest inductionHypothesis =>
      cases index with
      | zero =>
          simp only [List.getElem?_cons_zero, Option.some.injEq] at found
          subst found
          simp only [total, List.set_cons_zero, List.map_cons, List.sum_cons]
          omega
      | succ index =>
          rw [List.getElem?_cons_succ] at found
          have later := inductionHypothesis found
          simp only [total, List.set_cons_succ, List.map_cons,
            List.sum_cons] at later ⊢
          omega

theorem total_set_lt
    (found : workers[index]? = some worker)
    (less : measure moved < measure worker) :
    total measure (workers.set index moved) < total measure workers := by
  have balance := @total_set _ measure _ _ _ moved found
  omega

theorem total_set_le
    (found : workers[index]? = some worker)
    (less : measure moved ≤ measure worker) :
    total measure (workers.set index moved) ≤ total measure workers := by
  have balance := @total_set _ measure _ _ _ moved found
  omega

end Total

end Quiescing
