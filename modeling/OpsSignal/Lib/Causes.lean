import Mathlib.Data.List.Basic

/-!
# Causes

Logs whose entries may need something before them.  A log is grounded when
each of its entries has what it needs among the entries that precede it.
-/

namespace Causes

universe u

variable {Entry : Type u} {needs : Entry → List Entry → Prop}
  {log more : List Entry}

/-- Every entry of the log has what it needs before it. -/
def Grounded (needs : Entry → List Entry → Prop) (log : List Entry) : Prop :=
  ∀ before entry after, log = before ++ entry :: after → needs entry before

/-- What an entry needs is not lost when more comes to stand before it. -/
def Lasting (needs : Entry → List Entry → Prop) : Prop :=
  ∀ entry before more, needs entry before → needs entry (before ++ more)

theorem grounded_nil : Grounded needs [] := by
  intro before entry after shape
  simp at shape

/-- A grounded log goes on with entries that have what they need. -/
theorem Grounded.append
    (grounded : Grounded needs log)
    (new : ∀ before entry after, more = before ++ entry :: after →
      needs entry (log ++ before)) :
    Grounded needs (log ++ more) := by
  intro before entry after shape
  rcases List.append_eq_append_iff.mp shape with
    ⟨rest, beforeShape, moreShape⟩ | ⟨rest, logShape, entryShape⟩
  · rw [beforeShape]
    exact new rest entry after moreShape
  · cases rest with
    | nil =>
        rw [List.append_nil] at logShape
        have here := new [] entry after (by simpa using entryShape.symm)
        rwa [List.append_nil, logShape] at here
    | cons head rest =>
        simp only [List.cons_append, List.cons.injEq] at entryShape
        obtain ⟨rfl, _⟩ := entryShape
        exact grounded before entry rest logShape

/-- It is enough that the entries have what they need in the log they
continue. -/
theorem Grounded.append_of_log
    (lasting : Lasting needs) (grounded : Grounded needs log)
    (new : ∀ entry ∈ more, needs entry log) :
    Grounded needs (log ++ more) := by
  apply grounded.append
  intro before entry after shape
  apply lasting entry log before
  apply new entry
  rw [shape]
  exact List.mem_append_right _ List.mem_cons_self

/-- What an entry of a grounded log needs stands in the log. -/
theorem Grounded.needs_of_mem
    (lasting : Lasting needs) (grounded : Grounded needs log)
    {entry : Entry} (member : entry ∈ log) : needs entry log := by
  obtain ⟨before, after, shape⟩ := List.append_of_mem member
  have here := grounded before entry after shape
  have whole := lasting entry before (entry :: after) here
  rwa [← shape] at whole

end Causes
