import Mathlib.Algebra.GroupWithZero.Nat
import Mathlib.Data.List.Basic

/-!
# Fields joined with a separator

Fields are written one after the other, each ended by a separator that is
not escaped.  The joined text determines the fields only together with the
number of separators inside each of them.
-/

namespace Framing

universe u

variable {Symbol : Type u}

/-- The fields, each ended by the separator. -/
def terminated (separator : Symbol) (fields : List (List Symbol)) :
    List Symbol :=
  fields.flatMap fun field => field ++ [separator]

@[simp]
theorem terminated_nil (separator : Symbol) : terminated separator [] = [] :=
  rfl

@[simp]
theorem terminated_cons
    (separator : Symbol) (field : List Symbol)
    (fields : List (List Symbol)) :
    terminated separator (field :: fields) =
      field ++ separator :: terminated separator fields := by
  simp [terminated]

section Profile

variable [DecidableEq Symbol] {separator : Symbol}

/-- How many separators stand inside each field. -/
def profile (separator : Symbol) (fields : List (List Symbol)) : List Nat :=
  fields.map (List.count separator)

/-- The first field ends at the separator after as many as it holds. -/
theorem eq_of_append_separator
    {left right leftRest rightRest : List Symbol}
    (sameCount : left.count separator = right.count separator)
    (same : left ++ separator :: leftRest =
      right ++ separator :: rightRest) :
    left = right ∧ leftRest = rightRest := by
  induction left generalizing right with
  | nil =>
      cases right with
      | nil => simpa using same
      | cons symbol right =>
          simp only [List.nil_append, List.cons_append, List.cons.injEq]
            at same
          simp [← same.1] at sameCount
  | cons symbol left inductionHypothesis =>
      cases right with
      | nil =>
          simp only [List.nil_append, List.cons_append, List.cons.injEq]
            at same
          simp [same.1] at sameCount
      | cons other right =>
          simp only [List.cons_append, List.cons.injEq] at same
          obtain ⟨rfl, rest⟩ := same
          have fewer : left.count separator = right.count separator := by
            simp only [List.count_cons] at sameCount
            omega
          obtain ⟨rfl, rfl⟩ := inductionHypothesis fewer rest
          exact ⟨rfl, rfl⟩

/-- Fields with the same profile are read back from what they are joined
to, whatever follows. -/
theorem eq_of_terminated_append
    {left right : List (List Symbol)} {leftTail rightTail : List Symbol}
    (sameProfile : profile separator left = profile separator right)
    (same : terminated separator left ++ leftTail =
      terminated separator right ++ rightTail) :
    left = right ∧ leftTail = rightTail := by
  induction left generalizing right with
  | nil =>
      cases right with
      | nil => exact ⟨rfl, by simpa using same⟩
      | cons field right => simp [profile] at sameProfile
  | cons field left inductionHypothesis =>
      cases right with
      | nil => simp [profile] at sameProfile
      | cons other right =>
          simp only [profile, List.map_cons, List.cons.injEq] at sameProfile
          simp only [terminated_cons, List.append_assoc, List.cons_append]
            at same
          obtain ⟨rfl, rest⟩ :=
            eq_of_append_separator sameProfile.1 same
          obtain ⟨rfl, rfl⟩ := inductionHypothesis sameProfile.2 rest
          exact ⟨rfl, rfl⟩

end Profile

/-! ## One text, many readings -/

/-- A letter, then a separator and a letter as often as `count` says. -/
def beads (letter separator : Symbol) : Nat → List Symbol
  | 0 => [letter]
  | count + 1 => letter :: separator :: beads letter separator count

theorem beads_append (letter separator : Symbol) (first second : Nat) :
    beads letter separator first ++
        separator :: beads letter separator second =
      beads letter separator (first + second + 1) := by
  induction first with
  | zero => simp [beads]
  | succ first inductionHypothesis =>
      have shift : first + 1 + second = first + second + 1 := by
        omega
      simp only [beads, List.cons_append, inductionHypothesis, shift]

/-- Strings of beads join to a string of beads, wherever they are cut. -/
theorem terminated_beads_append
    (letter separator : Symbol) (counts : List Nat) (last : Nat) :
    terminated separator (counts.map (beads letter separator)) ++
        beads letter separator last =
      beads letter separator (counts.sum + counts.length + last) := by
  induction counts with
  | nil => simp
  | cons count counts inductionHypothesis =>
      simp only [List.map_cons, terminated_cons, List.append_assoc,
        List.cons_append, inductionHypothesis, beads_append,
        List.sum_cons, List.length_cons]
      congr 1
      omega

theorem profile_beads
    [DecidableEq Symbol] {letter separator : Symbol}
    (different : letter ≠ separator) (counts : List Nat) :
    profile separator (counts.map (beads letter separator)) = counts := by
  have one : ∀ count, (beads letter separator count).count separator =
      count := by
    intro count
    induction count with
    | zero => simp [beads, different]
    | succ count inductionHypothesis =>
        simp [beads, different, inductionHypothesis]
  simp [profile, Function.comp_def, one]

end Framing
