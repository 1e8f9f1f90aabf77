import Mathlib.Algebra.BigOperators.Group.Multiset.Basic
import Mathlib.Data.Multiset.AddSub

/-!
# Holdings

A list of holders, each with a bag of items, and the bag of everything
they hold together.  Changing one holder changes the total by what that
holder gains or gives up.
-/

namespace Holdings

universe u v

variable {Holder : Type u} {Item : Type v}

/-- Everything the holders hold. -/
def held (share : Holder → Multiset Item) (holders : List Holder) :
    Multiset Item :=
  (holders.map share).sum

variable {share : Holder → Multiset Item}

@[simp]
theorem held_nil : held share [] = 0 :=
  rfl

@[simp]
theorem held_cons (holder : Holder) (rest : List Holder) :
    held share (holder :: rest) = share holder + held share rest := by
  simp [held]

@[simp]
theorem held_append (left right : List Holder) :
    held share (left ++ right) = held share left + held share right := by
  simp [held]

/-- The order of the holders does not matter. -/
theorem held_perm {left right : List Holder} (perm : left.Perm right) :
    held share left = held share right :=
  (perm.map share).sum_eq

/-- Holders with empty hands. -/
theorem held_eq_zero {holders : List Holder}
    (empty : ∀ holder ∈ holders, share holder = 0) :
    held share holders = 0 := by
  induction holders with
  | nil => rfl
  | cons holder rest inductionHypothesis =>
      rw [held_cons, empty holder List.mem_cons_self, zero_add]
      exact inductionHypothesis fun other member =>
        empty other (List.mem_cons_of_mem _ member)

/-- Holders of holders. -/
theorem held_flatMap {Group : Type u} (parts : Group → List Holder)
    (groups : List Group) :
    held share (groups.flatMap parts) =
      held (fun group => held share (parts group)) groups := by
  induction groups with
  | nil => rfl
  | cons group rest inductionHypothesis =>
      rw [List.flatMap_cons, held_append, held_cons, inductionHypothesis]

/-- One holder's part, and what replacing that holder does. -/
theorem exists_rest {old : Holder} :
    ∀ {holders : List Holder} {index : Nat}, holders[index]? = some old →
      ∃ rest, held share holders = share old + rest ∧
        ∀ new, held share (holders.set index new) = share new + rest
  | [], _, found => by
      simp at found
  | holder :: holders, 0, found => by
      simp only [List.getElem?_cons_zero, Option.some.injEq] at found
      subst found
      exact ⟨held share holders, by simp, by simp⟩
  | holder :: holders, index + 1, found => by
      rw [List.getElem?_cons_succ] at found
      obtain ⟨rest, before, after⟩ := exists_rest found
      refine ⟨share holder + rest, ?_, ?_⟩
      · rw [held_cons, before, add_left_comm]
      · intro new
        rw [List.set_cons_succ, held_cons, after, add_left_comm]

/-- One holder's part, and the others'. -/
theorem held_eraseIdx {old : Holder} {holders : List Holder} {index : Nat}
    (found : holders[index]? = some old) :
    held share holders =
      share old + held share (holders.eraseIdx index) := by
  obtain ⟨inside, rfl⟩ := List.getElem?_eq_some_iff.mp found
  rw [← held_perm (List.getElem_cons_eraseIdx_perm inside), held_cons]

/-- What somebody holds is held. -/
theorem mem_held {item : Item} {holder : Holder} {holders : List Holder}
    (member : holder ∈ holders) (here : item ∈ share holder) :
    item ∈ held share holders := by
  induction member with
  | head rest =>
      rw [held_cons, Multiset.mem_add]
      exact Or.inl here
  | tail first _ inductionHypothesis =>
      rw [held_cons, Multiset.mem_add]
      exact Or.inr inductionHypothesis

/-- Everything held is held by somebody. -/
theorem exists_holder {item : Item} {holders : List Holder}
    (member : item ∈ held share holders) :
    ∃ holder ∈ holders, item ∈ share holder := by
  induction holders with
  | nil => simp at member
  | cons holder rest inductionHypothesis =>
      rw [held_cons, Multiset.mem_add] at member
      rcases member with here | later
      · exact ⟨holder, List.mem_cons_self, here⟩
      · obtain ⟨other, otherMember, holds⟩ := inductionHypothesis later
        exact ⟨other, List.mem_cons_of_mem _ otherMember, holds⟩

end Holdings
