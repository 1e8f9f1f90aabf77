import Mathlib.Data.List.Basic

/-!
# Delimited lists

Items are written one after the other with a separator between them and a
closing symbol at the end.  If the code of an item shows where it ends, a
list can be read back, and what follows it too.
-/

namespace Delimited

universe u v

variable {Item : Type u} {Symbol : Type v}

/-- Before anything that stops them, the codes of two items are equal only
if the items are. -/
def Reads
    (code : Item → List Symbol) (stops : List Symbol → Prop)
    (item other : Item) : Prop :=
  ∀ left right, stops left → stops right →
    code item ++ left = code other ++ right → item = other ∧ left = right

/-- A list with its closing symbol. -/
def closed
    (code : Item → List Symbol) (separator close : Symbol) :
    List Item → List Symbol
  | [] => [close]
  | [item] => code item ++ [close]
  | item :: next :: rest =>
      code item ++ separator :: closed code separator close (next :: rest)

variable {code : Item → List Symbol} {separator close : Symbol}

theorem closed_eq (items : List Item) :
    closed code separator close items =
      List.intercalate [separator] (items.map code) ++ [close] := by
  induction items with
  | nil => simp [closed, List.intercalate_nil]
  | cons item rest inductionHypothesis =>
      cases rest with
      | nil => simp [closed]
      | cons next rest =>
          rw [closed, inductionHypothesis]
          simp [List.intercalate_cons_cons]

/-- What follows an item of a list: the rest, or the end. -/
theorem closed_cons (item : Item) (rest : List Item) :
    ∃ symbol later,
      closed code separator close (item :: rest) =
        code item ++ symbol :: later ∧
      (rest = [] ∧ symbol = close ∧ later = [] ∨
        rest ≠ [] ∧ symbol = separator ∧
          later = closed code separator close rest) := by
  cases rest with
  | nil => exact ⟨close, [], rfl, Or.inl ⟨rfl, rfl, rfl⟩⟩
  | cons next rest =>
      exact ⟨separator, _, rfl, Or.inr ⟨List.cons_ne_nil _ _, rfl, rfl⟩⟩

/-- A list is read back, and what follows it. -/
theorem closed_injective
    {stops : List Symbol → Prop} (apart : separator ≠ close)
    (stopsSeparator : ∀ rest, stops (separator :: rest))
    (stopsClose : ∀ rest, stops (close :: rest)) :
    ∀ {items others : List Item} {left right : List Symbol},
      (∀ item ∈ items, ∀ rest, (code item ++ rest).head? ≠ some close) →
        (∀ item ∈ others, ∀ rest, (code item ++ rest).head? ≠ some close) →
          (∀ item ∈ items, ∀ other ∈ others,
            Reads code stops item other) →
            closed code separator close items ++ left =
              closed code separator close others ++ right →
                items = others ∧ left = right := by
  intro items
  induction items with
  | nil =>
      intro others left right _ opens _ same
      cases others with
      | nil => exact ⟨rfl, List.append_cancel_left same⟩
      | cons other others =>
          obtain ⟨symbol, later, isClosed, _⟩ :=
            @closed_cons _ _ code separator close other others
          rw [isClosed, closed, List.append_assoc] at same
          have heads := congrArg List.head? same
          exact absurd heads.symm (opens other List.mem_cons_self _)
  | cons item items inductionHypothesis =>
      intro others left right opens otherOpens reads same
      obtain ⟨symbol, later, isClosed, tail⟩ :=
        @closed_cons _ _ code separator close item items
      cases others with
      | nil =>
          rw [isClosed, closed, List.append_assoc] at same
          have heads := congrArg List.head? same
          exact absurd heads (opens item List.mem_cons_self _)
      | cons other others =>
          obtain ⟨otherSymbol, otherLater, isOther, otherTail⟩ :=
            @closed_cons _ _ code separator close other others
          have stopped : ∀ {items : List Item} {symbol later},
              (items = [] ∧ symbol = close ∧ later = [] ∨
                items ≠ [] ∧ symbol = separator ∧
                  later = closed code separator close items) →
                ∀ rest, stops (symbol :: rest) := by
            rintro _ _ _ (⟨_, rfl, _⟩ | ⟨_, rfl, _⟩)
            · exact stopsClose
            · exact stopsSeparator
          rw [isClosed, isOther, List.append_assoc, List.append_assoc,
            List.cons_append, List.cons_append] at same
          obtain ⟨rfl, rest⟩ := reads item List.mem_cons_self other
            List.mem_cons_self _ _ (stopped tail _) (stopped otherTail _)
            same
          obtain ⟨sameSymbol, rest⟩ := List.cons.inj rest
          rcases tail with ⟨rfl, isSymbol, rfl⟩ | ⟨more, isSymbol, rfl⟩
          · rcases otherTail with ⟨rfl, _, rfl⟩ | ⟨_, isSeparator, _⟩
            · exact ⟨rfl, rest⟩
            · exact absurd (isSeparator.symm.trans
                (sameSymbol.symm.trans isSymbol)) apart
          · rcases otherTail with ⟨_, isClose, _⟩ | ⟨_, _, rfl⟩
            · exact absurd (isSymbol.symm.trans
                (sameSymbol.trans isClose)) apart
            · obtain ⟨rfl, after⟩ := inductionHypothesis
                (fun item member => opens item
                  (List.mem_cons_of_mem _ member))
                (fun item member => otherOpens item
                  (List.mem_cons_of_mem _ member))
                (fun item member other otherMember => reads item
                  (List.mem_cons_of_mem _ member) other
                  (List.mem_cons_of_mem _ otherMember)) rest
              exact ⟨rfl, after⟩

end Delimited
