import Mathlib.Data.List.Basic

/-!
# Sequences of checks

A check is `.ok ()` or the error it reports.  A sequence of checks reports
the first error.
-/

namespace Checks

universe u v

variable {Error : Type u} {Item : Type v}

/-- Refuse with `error` where `condition` holds. -/
def refuseIf (condition : Bool) (error : Error) : Except Error Unit :=
  if condition then .error error else .ok ()

/-- The first error of a list of checks. -/
def allOf : List (Except Error Unit) → Except Error Unit
  | [] => .ok ()
  | .error error :: _ => .error error
  | .ok () :: rest => allOf rest

/-- One check made of every item, in order. -/
def checkEach (check : Item → Except Error Unit) (items : List Item) :
    Except Error Unit :=
  allOf (items.map check)

@[simp]
theorem refuseIf_eq_ok {condition : Bool} {error : Error} :
    refuseIf condition error = .ok () ↔ condition = false := by
  cases condition with
  | false => simp [refuseIf]
  | true => simp [refuseIf]

theorem allOf_eq_ok :
    ∀ {checks : List (Except Error Unit)},
      allOf checks = .ok () ↔ ∀ check ∈ checks, check = .ok ()
  | [] => by simp [allOf]
  | .error error :: rest => by simp [allOf]
  | .ok () :: rest => by
      have tail := @allOf_eq_ok rest
      simp [allOf, tail]

theorem checkEach_eq_ok
    {check : Item → Except Error Unit} {items : List Item} :
    checkEach check items = .ok () ↔ ∀ item ∈ items, check item = .ok () := by
  rw [checkEach, allOf_eq_ok, List.forall_mem_map]

theorem error_of_refuseIf {condition : Bool} {error refusal : Error}
    (refused : refuseIf condition refusal = .error error) :
    error = refusal := by
  cases condition with
  | false => simp [refuseIf] at refused
  | true =>
      simp only [refuseIf, if_true, Except.error.injEq] at refused
      exact refused.symm

theorem mem_of_allOf_eq_error {error : Error} :
    ∀ {checks : List (Except Error Unit)},
      allOf checks = .error error → .error error ∈ checks
  | [], failed => by simp [allOf] at failed
  | .error first :: rest, failed => by
      simp only [allOf, Except.error.injEq] at failed
      simp [failed]
  | .ok () :: rest, failed =>
      List.mem_cons_of_mem _ (mem_of_allOf_eq_error failed)

/-- The error reported is that of the first item that fails. -/
theorem checkEach_eq_error
    {check : Item → Except Error Unit} {items : List Item} {error : Error}
    (failed : checkEach check items = .error error) :
    ∃ passed item rest, items = passed ++ item :: rest ∧
      (∀ earlier ∈ passed, check earlier = .ok ()) ∧
        check item = .error error := by
  induction items with
  | nil => simp [checkEach, allOf] at failed
  | cons first items inductionHypothesis =>
      cases verdict : check first with
      | error other =>
          simp only [checkEach, List.map_cons, verdict, allOf,
            Except.error.injEq] at failed
          exact ⟨[], first, items, rfl, by simp, by rw [verdict, failed]⟩
      | ok result =>
          simp only [checkEach, List.map_cons, verdict, allOf] at failed
          obtain ⟨passed, item, rest, spelled, before, here⟩ :=
            inductionHypothesis failed
          refine ⟨first :: passed, item, rest, by rw [spelled]; rfl, ?_,
            here⟩
          intro earlier member
          rcases List.mem_cons.1 member with rfl | member
          · exact verdict
          · exact before earlier member

/-! ## Successful computations -/

section

variable {Value Result : Type v} {result : Result}
  {value : Except Error Value}

theorem map_eq_ok {convert : Value → Result}
    (mapped : value.map convert = .ok result) :
    ∃ inner, value = .ok inner ∧ convert inner = result := by
  cases value with
  | error message => cases mapped
  | ok inner => exact ⟨inner, rfl, Except.ok.inj mapped⟩

theorem bind_eq_ok {after : Value → Except Error Result}
    (bound : (value >>= after) = .ok result) :
    ∃ inner, value = .ok inner ∧ after inner = .ok result := by
  cases value with
  | error message => cases bound
  | ok inner => exact ⟨inner, rfl, bound⟩

end

end Checks
