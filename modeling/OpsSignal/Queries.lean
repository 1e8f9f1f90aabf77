import Mathlib.Algebra.GroupWithZero.Nat
import OpsSignal.SourceKeys

/-!
# Queries

`write_query` prints the parameters of a URL in the order of their names,
`split_query` reads them in any order.
-/

namespace OpsSignal

open Checks

/-! ## Texts -/

theorem splitOnce_of_fresh {separator : Char} {text : List Char}
    (fresh : separator ∉ text) : splitOnce separator text = none := by
  induction text with
  | nil => rfl
  | cons c text inductionHypothesis =>
      simp only [List.mem_cons, not_or] at fresh
      rw [splitOnce, if_neg (Ne.symm fresh.1), inductionHypothesis fresh.2]
      rfl

theorem fresh_of_splitOnce {separator : Char} {text : List Char}
    (whole : splitOnce separator text = none) : separator ∉ text := by
  intro member
  obtain ⟨before, after, rfl, fresh⟩ := List.eq_append_cons_of_mem member
  rw [splitOnce_append fresh] at whole
  cases whole

theorem splitOn_of_fresh {separator : Char} {text : List Char}
    (fresh : separator ∉ text) : splitOn separator text = [text] := by
  induction text with
  | nil => rfl
  | cons c text inductionHypothesis =>
      simp only [List.mem_cons, not_or] at fresh
      rw [splitOn, if_neg (Ne.symm fresh.1), inductionHypothesis fresh.2]

theorem intercalate_append_cons (separator : Char) (first : List Char)
    (rest : List (List Char)) :
    List.intercalate [separator] (first :: rest) =
      first ++ rest.flatMap fun piece => separator :: piece := by
  induction rest generalizing first with
  | nil => simp
  | cons second rest inductionHypothesis =>
      rw [List.intercalate_cons_cons, inductionHypothesis]
      simp

/-- Pieces without the separator are read back. -/
theorem splitOn_intercalate {separator : Char} {first : List Char}
    {rest : List (List Char)}
    (fresh : ∀ piece ∈ first :: rest, separator ∉ piece) :
    splitOn separator (List.intercalate [separator] (first :: rest)) =
      first :: rest := by
  induction rest generalizing first with
  | nil => simpa using splitOn_of_fresh (fresh first List.mem_cons_self)
  | cons second rest inductionHypothesis =>
      have firstFresh := fresh first List.mem_cons_self
      have restFresh := inductionHypothesis fun piece member =>
        fresh piece (List.mem_cons_of_mem _ member)
      rw [List.intercalate_cons_cons, List.append_assoc,
        List.singleton_append, splitOn_append_cons, restFresh,
        splitOn_of_fresh firstFresh]
      rfl

theorem length_intercalate (separator : Char) {pieces : List (List Char)}
    (full : pieces ≠ []) :
    (List.intercalate [separator] pieces).length + 1 =
      (pieces.map fun piece => piece.length + 1).sum := by
  obtain ⟨first, rest, rfl⟩ := List.exists_cons_of_ne_nil full
  induction rest generalizing first with
  | nil => simp
  | cons second rest inductionHypothesis =>
      have later := inductionHypothesis second (List.cons_ne_nil _ _)
      rw [List.intercalate_cons_cons, List.map_cons, List.sum_cons,
        ← later]
      simp only [List.length_append, List.length_singleton]
      omega

theorem trim_of_length {text : List Char}
    (same : (trim text).length = text.length) : trim text = text := by
  have front := (List.dropWhile_suffix isWhitespace (l := text)).sublist
  have back := (List.rdropWhile_prefix isWhitespace
    (l := text.dropWhile isWhitespace)).sublist
  exact (back.trans front).eq_of_length same

theorem back_of_trim (text : List Char) :
    ∀ c ∈ (trim text).getLast?, isWhitespace c = false := by
  intro c isLast
  have full : trim text ≠ [] := by
    rintro empty
    simp [empty] at isLast
  have visible := List.rdropWhile_last_not isWhitespace
    (text.dropWhile isWhitespace) full
  rw [List.getLast?_eq_getLast_of_ne_nil full, Option.mem_some_iff]
    at isLast
  rw [← isLast]
  exact Bool.not_eq_true _ |>.mp visible

theorem front_of_trim (text : List Char) :
    ∀ c ∈ (trim text).head?, isWhitespace c = false := by
  intro c isFirst
  have inFront : c ∈ (text.dropWhile isWhitespace).head? := by
    obtain ⟨more, isFront⟩ := List.rdropWhile_prefix isWhitespace
      (l := text.dropWhile isWhitespace)
    rw [← isFront, List.head?_append]
    rw [trim] at isFirst
    rw [isFirst]
    rfl
  have visible := List.head?_dropWhile_not isWhitespace text
  rw [inFront] at visible
  simpa using visible

theorem trim_trim (text : List Char) : trim (trim text) = trim text :=
  trim_of_visible (front_of_trim text) (back_of_trim text)

/-! ## Queries -/

/-- The parameters of a query that have a value, as they are printed. -/
def written (pairs : List (String × Option (List Char))) :
    List (List Char) :=
  pairs.filterMap fun pair =>
    pair.2.map fun value => pair.1.toList ++ '=' :: value

theorem queryText_of_nil {pairs : List (String × Option (List Char))}
    (none : written pairs = []) : ConfigSource.queryText pairs = [] := by
  rw [written] at none
  simp only [ConfigSource.queryText, none]

theorem queryText_of_ne_nil {pairs : List (String × Option (List Char))}
    (some : written pairs ≠ []) :
    ConfigSource.queryText pairs =
      '?' :: List.intercalate ['&'] (written pairs) := by
  cases shape : written pairs with
  | nil => exact absurd shape some
  | cons first rest =>
      rw [intercalate_append_cons]
      rw [written] at shape
      simp only [ConfigSource.queryText, shape]
      rfl

/-- What a query may hold: values that are not empty and stay in one
piece. -/
def Carried (values : List (Option (List Char))) : Prop :=
  ∀ value, some value ∈ values → value ≠ [] ∧ '&' ∉ value

/-- The names of a query are told apart, from each other and from the
text around them. -/
structure Distinct (allowed : List String) : Prop where
  nodup : (allowed.map String.toList).Nodup
  plain : ∀ name ∈ allowed, '=' ∉ name.toList ∧ '&' ∉ name.toList

theorem findIdx_name {before : List String} {name : String}
    (fresh : name.toList ∉ before.map String.toList)
    (after : List String) :
    ((before ++ name :: after).findIdx? fun other =>
      other.toList = name.toList) = some before.length := by
  induction before with
  | nil => simp [List.findIdx?_cons]
  | cons first before inductionHypothesis =>
      simp only [List.map_cons, List.mem_cons, not_or] at fresh
      rw [List.cons_append, List.findIdx?_cons,
        inductionHypothesis fresh.2]
      simp [Ne.symm fresh.1]

/-- A parameter fills the slot of its name. -/
theorem takeParameter_named {before after : List String} {name : String}
    {raw value : List Char} {values : List (Option (List Char))}
    (distinct : Distinct (before ++ name :: after))
    (free : values.getD before.length none = none) (full : value ≠ []) :
    takeParameter raw (before ++ name :: after) values
        (name.toList ++ '=' :: value) =
      .ok (values.set before.length (some value)) := by
  have plain := (distinct.plain name (by simp)).1
  have fresh : name.toList ∉ before.map String.toList := by
    have apart := distinct.nodup
    rw [List.map_append, List.map_cons] at apart
    exact fun member => (List.nodup_append.mp apart).2.2 _ member _
      List.mem_cons_self rfl
  simp only [takeParameter, splitOnce_append plain, Option.getD_some,
    findIdx_name fresh, Option.filter_some, free, full, ne_eq,
    not_false_eq_true, and_self, decide_true, if_true]

/-- Printed parameters are put back where they came from. -/
theorem takeParameters {raw : List Char}
    (done todo : List (String × Option (List Char)))
    (distinct : Distinct ((done ++ todo).map Prod.fst))
    (carried : Carried (todo.map Prod.snd)) :
    (written todo).foldlM
        (takeParameter raw ((done ++ todo).map Prod.fst))
        (done.map Prod.snd ++ todo.map fun _ => none) =
      .ok ((done ++ todo).map Prod.snd) := by
  induction todo generalizing done with
  | nil => simp [written, pure, Except.pure]
  | cons pair todo inductionHypothesis =>
      obtain ⟨name, value⟩ := pair
      have whole : done ++ (name, value) :: todo =
          (done ++ [(name, value)]) ++ todo := by
        simp
      have later : Carried (todo.map Prod.snd) := fun other member =>
        carried other (List.mem_cons_of_mem _ member)
      have rest := inductionHypothesis (done ++ [(name, value)])
        (whole ▸ distinct) later
      rw [← whole] at rest
      cases value with
      | none =>
          simpa [written] using rest
      | some value =>
          have full := (carried value List.mem_cons_self).1
          have step := @takeParameter_named (done.map Prod.fst)
            (todo.map Prod.fst) name raw value
            (done.map Prod.snd ++ none :: todo.map fun _ => none)
            (by simpa using distinct) (by simp) full
          simp only [written, List.filterMap_cons, Option.map_some,
            List.foldlM_cons]
          simp only [List.map_append, List.map_cons] at step rest ⊢
          rw [step]
          simpa [written, bind, Except.bind] using rest

/-- A printed query is split into what was printed. -/
theorem splitQuery_written {raw path : List Char}
    {pairs : List (String × Option (List Char))}
    (fresh : '?' ∉ path) (distinct : Distinct (pairs.map Prod.fst))
    (carried : Carried (pairs.map Prod.snd)) :
    splitQuery (path ++ ConfigSource.queryText pairs) raw
        (pairs.map Prod.fst) =
      .ok (path, pairs.map Prod.snd) := by
  have filled := @takeParameters raw [] pairs distinct carried
  rw [List.nil_append, List.map_nil, List.nil_append] at filled
  by_cases empty : written pairs = []
  · rw [empty] at filled
    rw [queryText_of_nil empty, List.append_nil, splitQuery,
      splitOnce_of_fresh fresh, List.map_map]
    exact congrArg (fun values => Except.ok (path, values))
      (Except.ok.inj filled)
  · have whole : ∀ piece ∈ written pairs, '&' ∉ piece := by
      intro piece member
      obtain ⟨pair, listed, isPiece⟩ := List.mem_filterMap.mp member
      obtain ⟨value, isValue, rfl⟩ := Option.map_eq_some_iff.mp isPiece
      have name := (distinct.plain pair.1 (List.mem_map_of_mem listed)).2
      have plain := (carried value
        (isValue ▸ List.mem_map_of_mem listed)).2
      simp [name, plain]
    obtain ⟨first, rest, shape⟩ := List.exists_cons_of_ne_nil empty
    rw [queryText_of_ne_nil empty, splitQuery, splitOnce_append fresh,
      List.map_map]
    simp only
    rw [shape] at whole filled ⊢
    rw [splitOn_intercalate whole]
    exact congrArg (Except.map fun values => (path, values)) filled

/-- A parameter put into a free slot is printed, among the others. -/
theorem written_set {name : String} {value : List Char} :
    ∀ {allowed : List String} {values : List (Option (List Char))}
      {index : Nat},
      values.length = allowed.length → allowed[index]? = some name →
        values.getD index none = none →
          (written (allowed.zip (values.set index (some value)))).Perm
            ((name.toList ++ '=' :: value) :: written (allowed.zip values))
  | [], _, _, _, named, _ => by
      simp at named
  | _ :: _, [], _, sized, _, _ => by
      simp at sized
  | first :: allowed, held :: values, 0, _, named, free => by
      simp only [List.getElem?_cons_zero, Option.some.injEq] at named
      simp only [List.getD_cons_zero] at free
      subst named free
      simp [written]
  | first :: allowed, held :: values, index + 1, sized, named, free => by
      have later := @written_set name value allowed values index
        (by simpa using sized) (by simpa using named) (by simpa using free)
      cases held with
      | none => simpa [written] using later
      | some other =>
          have swapped := (later.cons (first.toList ++ '=' :: other)).trans
            (List.Perm.swap _ _ _)
          simpa [written] using swapped

/-- What a parameter that was taken said. -/
theorem takeParameter_read {allowed : List String} {raw pair : List Char}
    {values updated : List (Option (List Char))}
    (taken : takeParameter raw allowed values pair = .ok updated)
    (sized : values.length = allowed.length) :
    updated.length = allowed.length ∧
      (written (allowed.zip updated)).Perm
        (pair :: written (allowed.zip values)) ∧
      ∀ value, some value ∈ updated →
        some value ∈ values ∨ value ≠ [] ∧ ∃ name, pair = name ++ '=' :: value := by
  simp only [takeParameter, configError] at taken
  split at taken
  · rename_i index isSlot
    cases taken
    obtain ⟨found, free⟩ := Option.filter_eq_some_iff.mp isSlot
    simp only [ne_eq, Bool.decide_and, Bool.and_eq_true,
      decide_eq_true_eq] at free
    obtain ⟨inside, isName, _⟩ :=
      List.findIdx?_eq_some_iff_getElem.mp found
    simp only [decide_eq_true_eq] at isName
    cases parted : splitOnce '=' pair with
    | none =>
        rw [parted] at free
        exact absurd rfl free.2
    | some parts =>
        obtain ⟨name, value⟩ := parts
        rw [parted] at isName free
        simp only [Option.getD_some] at isName free ⊢
        have spelled := (eq_append_of_splitOnce parted).1
        refine ⟨by simpa using sized, ?_, ?_⟩
        · rw [spelled, ← isName]
          apply written_set sized _ free.1
          rw [List.getElem?_eq_getElem inside]
        · intro other member
          rcases List.mem_or_eq_of_mem_set member with before | same
          · exact Or.inl before
          · cases same
            exact Or.inr ⟨free.2, name, spelled⟩
  · cases taken

theorem takeParameters_read {allowed : List String} {raw : List Char} :
    ∀ {pieces : List (List Char)}
      {values updated : List (Option (List Char))},
      pieces.foldlM (takeParameter raw allowed) values = .ok updated →
        values.length = allowed.length → Carried values →
          (∀ piece ∈ pieces, '&' ∉ piece) →
            updated.length = allowed.length ∧ Carried updated ∧
              (written (allowed.zip updated)).Perm
                (pieces ++ written (allowed.zip values)) := by
  intro pieces
  induction pieces with
  | nil =>
      intro values updated taken sized carried _
      cases taken
      exact ⟨sized, carried, List.Perm.refl _⟩
  | cons piece pieces inductionHypothesis =>
      intro values updated taken sized carried whole
      rw [List.foldlM_cons] at taken
      obtain ⟨next, first, rest⟩ := bind_eq_ok taken
      obtain ⟨nextSized, nextWritten, nextHolds⟩ :=
        takeParameter_read first sized
      have nextCarried : Carried next := by
        intro value member
        rcases nextHolds value member with before | ⟨full, name, spelled⟩
        · exact carried value before
        · refine ⟨full, fun inside => ?_⟩
          apply whole piece List.mem_cons_self
          simp [spelled, inside]
      obtain ⟨updatedSized, updatedCarried, updatedWritten⟩ :=
        inductionHypothesis rest nextSized nextCarried
          fun other member => whole other (List.mem_cons_of_mem _ member)
      refine ⟨updatedSized, updatedCarried, updatedWritten.trans ?_⟩
      exact (nextWritten.append_left pieces).trans List.perm_middle

/-- Printing what a query says takes as much room as the query. -/
theorem splitQuery_read {rest raw path : List Char}
    {allowed : List String} {values : List (Option (List Char))}
    (split : splitQuery rest raw allowed = .ok (path, values)) :
    values.length = allowed.length ∧ Carried values ∧ '?' ∉ path ∧
      (path ++ ConfigSource.queryText (allowed.zip values)).length =
        rest.length := by
  have unsetCarried : Carried (allowed.map fun _ => none) := by
    intro value member
    simp at member
  have unsetWritten : written (allowed.zip (allowed.map fun _ => none)) =
      [] := by
    rw [written, List.filterMap_eq_nil_iff]
    intro pair member
    obtain ⟨_, _, isNone⟩ := List.mem_map.mp (List.of_mem_zip member).2
    rw [← isNone]
    rfl
  rw [splitQuery] at split
  cases parted : splitOnce '?' rest with
  | none =>
      rw [parted] at split
      cases split
      refine ⟨by simp, unsetCarried, fresh_of_splitOnce parted, ?_⟩
      rw [queryText_of_nil unsetWritten, List.append_nil]
  | some parts =>
      obtain ⟨before, query⟩ := parts
      rw [parted] at split
      obtain ⟨updated, taken, same⟩ := map_eq_ok split
      cases same
      obtain ⟨sized, carried, same⟩ := takeParameters_read taken
        (by simp) unsetCarried (not_mem_splitOn '&' query)
      rw [unsetWritten, List.append_nil] at same
      obtain ⟨spelled, fresh⟩ := eq_append_of_splitOnce parted
      refine ⟨sized, carried, fresh, ?_⟩
      have pieces := splitOn_ne_nil '&' query
      have some : written (allowed.zip values) ≠ [] := by
        intro empty
        rw [empty] at same
        exact pieces same.nil_eq.symm
      have asRead := length_intercalate '&' pieces
      have asWritten := length_intercalate '&' some
      rw [(same.map _).sum_nat, ← asRead, intercalate_splitOn] at asWritten
      rw [queryText_of_ne_nil some, spelled]
      simp only [List.length_append, List.length_cons]
      omega

end OpsSignal
