import Mathlib.Data.List.Nodup
import Mathlib.Data.List.Perm.Basic

/-!
# Allotments

A list of items, each of which goes to one numbered owner.  What an owner
gets keeps its order, and together the owners get every item once.
-/

namespace Allotment

universe u

variable {Item : Type u}

/-- The items that go to one owner, in their order. -/
def allotted (number : Nat) : List Item → List Nat → List Item
  | item :: items, owner :: owners =>
      if owner = number then item :: allotted number items owners
      else allotted number items owners
  | _, _ => []

variable {number : Nat}

@[simp]
theorem allotted_nil (owners : List Nat) :
    allotted number ([] : List Item) owners = [] := by
  cases owners <;> rfl

theorem allotted_snoc
    (item : Item) (owner : Nat) {items : List Item} {owners : List Nat}
    (aligned : owners.length = items.length) :
    allotted number (items ++ [item]) (owners ++ [owner]) =
      allotted number items owners ++
        if owner = number then [item] else [] := by
  induction items generalizing owners with
  | nil =>
      rw [List.length_nil, List.length_eq_zero_iff] at aligned
      subst aligned
      simp [allotted]
  | cons first items inductionHypothesis =>
      cases owners with
      | nil => simp at aligned
      | cons head owners =>
          have shorter : owners.length = items.length := by
            simpa using aligned
          have later := inductionHypothesis shorter
          simp only [List.cons_append, allotted, later]
          split
          · rfl
          · rfl

/-- The share of an owner that gets nothing more. -/
theorem allotted_snoc_of_ne
    {item : Item} {owner : Nat} {items : List Item} {owners : List Nat}
    (aligned : owners.length = items.length) (other : owner ≠ number) :
    allotted number (items ++ [item]) (owners ++ [owner]) =
      allotted number items owners := by
  rw [allotted_snoc item owner aligned, if_neg other, List.append_nil]

/-- The share of the owner of the last item. -/
theorem allotted_snoc_self
    {item : Item} {items : List Item} {owners : List Nat}
    (aligned : owners.length = items.length) :
    allotted number (items ++ [item]) (owners ++ [number]) =
      allotted number items owners ++ [item] := by
  rw [allotted_snoc item number aligned, if_pos rfl]

theorem allotted_sublist (items : List Item) (owners : List Nat) :
    (allotted number items owners).Sublist items := by
  induction items generalizing owners with
  | nil => simp
  | cons item items inductionHypothesis =>
      cases owners with
      | nil => simp [allotted]
      | cons owner owners =>
          rw [allotted]
          split
          · exact (inductionHypothesis owners).cons_cons item
          · exact (inductionHypothesis owners).cons item

theorem allotted_eq_nil
    {owners : List Nat} (absent : number ∉ owners) (items : List Item) :
    allotted number items owners = [] := by
  induction items generalizing owners with
  | nil => simp
  | cons item items inductionHypothesis =>
      cases owners with
      | nil => rfl
      | cons owner owners =>
          rw [List.mem_cons, not_or] at absent
          rw [allotted, if_neg (Ne.symm absent.1)]
          exact inductionHypothesis absent.2

/-- The first item of an owner. -/
theorem head?_allotted
    {items : List Item} {owners : List Nat} {index : Nat}
    (isOwner : owners[index]? = some number)
    (first : ∀ earlier < index, owners[earlier]? ≠ some number) :
    (allotted number items owners).head? = items[index]? := by
  induction items generalizing owners index with
  | nil => simp
  | cons item items inductionHypothesis =>
      cases owners with
      | nil => simp at isOwner
      | cons owner owners =>
          cases index with
          | zero =>
              simp only [List.getElem?_cons_zero,
                Option.some.injEq] at isOwner
              rw [allotted, if_pos isOwner]
              rfl
          | succ index =>
              have other : owner ≠ number := by
                intro same
                exact first 0 (Nat.succ_pos _) (by simp [same])
              rw [List.getElem?_cons_succ] at isOwner
              rw [allotted, if_neg other, List.getElem?_cons_succ]
              apply inductionHypothesis isOwner
              intro earlier before
              have later := first (earlier + 1) (Nat.succ_lt_succ before)
              rwa [List.getElem?_cons_succ] at later

private theorem flatMap_allotted_cons
    (item : Item) (owner : Nat) (items : List Item) (owners : List Nat) :
    ∀ {numbers : List Nat}, numbers.Nodup → owner ∈ numbers →
      (numbers.flatMap fun number =>
          allotted number (item :: items) (owner :: owners)).Perm
        (item :: numbers.flatMap fun number =>
          allotted number items owners)
  | [], _, listed => by
      cases listed
  | first :: numbers, distinct, listed => by
      rw [List.nodup_cons] at distinct
      rw [List.flatMap_cons, List.flatMap_cons]
      by_cases here : owner = first
      · have others : (numbers.flatMap fun number =>
            allotted number (item :: items) (owner :: owners)) =
              numbers.flatMap fun number => allotted number items owners := by
          apply List.flatMap_congr
          intro number member
          have different : owner ≠ number := by
            intro same
            exact distinct.1 (here ▸ same ▸ member)
          rw [allotted, if_neg different]
        rw [allotted, if_pos here, others, List.cons_append]
      · have later := flatMap_allotted_cons item owner items owners
          distinct.2 ((List.mem_cons.mp listed).resolve_left here)
        rw [allotted, if_neg here]
        exact (List.Perm.append_left _ later).trans List.perm_middle

/-- Together the owners get every item, each once. -/
theorem flatMap_allotted_perm
    {numbers : List Nat} (distinct : numbers.Nodup) :
    ∀ {items : List Item} {owners : List Nat},
      owners.length = items.length → (∀ owner ∈ owners, owner ∈ numbers) →
        (numbers.flatMap fun number => allotted number items owners).Perm
          items
  | [], owners, aligned, _ => by
      simp
  | item :: items, [], aligned, _ => by
      simp at aligned
  | item :: items, owner :: owners, aligned, listed => by
      have shorter : owners.length = items.length := by
        simpa using aligned
      have rest := flatMap_allotted_perm distinct shorter
        fun other member => listed other (List.mem_cons_of_mem _ member)
      exact (flatMap_allotted_cons item owner items owners distinct
        (listed owner List.mem_cons_self)).trans (rest.cons item)

end Allotment
