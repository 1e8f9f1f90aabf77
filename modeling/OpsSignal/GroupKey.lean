import OpsSignal.Group

/-!
# Group keys

A group is kept under its route's key and the JSON text of its values.
The text can be read back, and it has no line break, so two groups with
the same key have the same route and the same values.
-/

namespace OpsSignal

namespace Json

/-! ## Reading an escaped text back -/

/-- The value of a hexadecimal digit. -/
def hexValue (digit : Char) : Nat :=
  "0123456789abcdef".toList.idxOf digit

/-- The first character of an escaped text, and what follows it. -/
def readChar : List Char → Option (Char × List Char)
  | '\\' :: 'n' :: rest => some ('\n', rest)
  | '\\' :: 'r' :: rest => some ('\r', rest)
  | '\\' :: 't' :: rest => some ('\t', rest)
  | '\\' :: 'b' :: rest => some (Char.ofNat 8, rest)
  | '\\' :: 'f' :: rest => some (Char.ofNat 12, rest)
  | '\\' :: 'u' :: '0' :: '0' :: high :: low :: rest =>
      some (Char.ofNat (16 * hexValue high + hexValue low), rest)
  | '\\' :: other :: rest => some (other, rest)
  | c :: rest => some (c, rest)
  | [] => none

private theorem hexValue_digits :
    ∀ code < 32,
      16 * hexValue (hexDigit (code / 16)) +
        hexValue (hexDigit (code % 16)) = code := by
  decide

/-- Every escaped character can be read back. -/
theorem readChar_escapeChar (c : Char) (rest : List Char) :
    readChar (escapeChar c ++ rest) = some (c, rest) := by
  rw [escapeChar]
  split
  · rename_i quote
    rw [quote]
    rfl
  · split
    · rename_i backslash
      rw [backslash]
      rfl
    · rename_i notBackslash
      split
      · rename_i line
        rw [line]
        rfl
      · split
        · rename_i carriage
          rw [carriage]
          rfl
        · split
          · rename_i tab
            rw [tab]
            rfl
          · split
            · rename_i code
              have isChar : Char.ofNat 8 = c := code ▸ Char.ofNat_toNat c
              rw [← isChar]
              rfl
            · split
              · rename_i code
                have isChar : Char.ofNat 12 = c := code ▸ Char.ofNat_toNat c
                rw [← isChar]
                rfl
              · split
                · rename_i small
                  have value := hexValue_digits c.toNat small
                  simp [readChar, value]
                · simp [readChar, notBackslash]

private theorem quote_not_escaped
    {c : Char} {rest later : List Char}
    (same : '"' :: later = escapeChar c ++ rest) : False := by
  have read := readChar_escapeChar c rest
  rw [← same] at read
  have isQuote : '"' = c := by
    simpa [readChar] using congrArg (Option.map Prod.fst) read
  rw [← isQuote] at same
  have heads := congrArg List.head? same
  revert heads
  simp [escapeChar]

private theorem escaped_injective :
    ∀ {first second left right : List Char},
      first.flatMap escapeChar ++ '"' :: left =
          second.flatMap escapeChar ++ '"' :: right →
        first = second ∧ left = right
  | [], [], left, right, same => by
      simpa using same
  | [], c :: second, left, right, same => by
      rw [List.flatMap_cons, List.append_assoc] at same
      exact (quote_not_escaped same).elim
  | c :: first, [], left, right, same => by
      rw [List.flatMap_cons, List.append_assoc] at same
      exact (quote_not_escaped same.symm).elim
  | c :: first, d :: second, left, right, same => by
      rw [List.flatMap_cons, List.append_assoc, List.flatMap_cons,
        List.append_assoc] at same
      have read := congrArg readChar same
      rw [readChar_escapeChar, readChar_escapeChar] at read
      obtain ⟨sameChar, sameRest⟩ := Prod.mk.inj (Option.some.inj read)
      obtain ⟨sameTail, sameLater⟩ := escaped_injective sameRest
      exact ⟨by rw [sameChar, sameTail], sameLater⟩

theorem toList_quoted (text : String) :
    (quoted text).toList =
      '"' :: (text.toList.flatMap escapeChar ++ ['"']) := by
  simp [quoted, String.toList_append]

/-- A string is read back up to its closing quote. -/
theorem quoted_injective
    {first second : String} {left right : List Char}
    (same : (quoted first).toList ++ left =
      (quoted second).toList ++ right) :
    first = second ∧ left = right := by
  rw [toList_quoted, toList_quoted] at same
  simp only [List.cons_append, List.append_assoc, List.nil_append,
    List.cons.injEq, true_and] at same
  obtain ⟨sameChars, sameRest⟩ := escaped_injective same
  exact ⟨String.toList_inj.mp sameChars, sameRest⟩

theorem optionalText_text_injective
    {first second : Option String} {left right : List Char}
    (same : (optionalText first).text.toList ++ left =
      (optionalText second).text.toList ++ right) :
    first = second ∧ left = right := by
  cases first with
  | none =>
      cases second with
      | none => exact ⟨rfl, by simpa [optionalText, text] using same⟩
      | some content =>
          simp [optionalText, text, toList_quoted] at same
  | some content =>
      cases second with
      | none => simp [optionalText, text, toList_quoted] at same
      | some other =>
          obtain ⟨sameContent, sameRest⟩ := quoted_injective same
          exact ⟨congrArg some sameContent, sameRest⟩

/-! ## No line breaks -/

private theorem line_not_mem_digits :
    ∀ code < 32,
      '\n' ≠ hexDigit (code / 16) ∧ '\n' ≠ hexDigit (code % 16) := by
  decide

theorem line_not_mem_escapeChar (c : Char) : '\n' ∉ escapeChar c := by
  rw [escapeChar]
  split
  · decide
  · split
    · decide
    · split
      · decide
      · rename_i notLine
        split
        · decide
        · split
          · decide
          · split
            · decide
            · split
              · decide
              · split
                · rename_i small
                  have digits := line_not_mem_digits c.toNat small
                  simp [digits.1, digits.2]
                · simpa using Ne.symm notLine

theorem line_not_mem_quoted (text : String) :
    '\n' ∉ (quoted text).toList := by
  rw [toList_quoted]
  simp only [List.mem_cons, List.mem_append, List.mem_flatMap,
    List.not_mem_nil, or_false, not_or, not_exists, not_and]
  refine ⟨by decide, ?_, by decide⟩
  intro c _
  exact line_not_mem_escapeChar c

theorem line_not_mem_optionalText (value : Option String) :
    '\n' ∉ (optionalText value).text.toList := by
  cases value with
  | none => decide
  | some content => exact line_not_mem_quoted content

end Json

/-! ## The text of a group's values -/

namespace GroupValues

open Json

/-- One field and its value. -/
def pairText (pair : String × Option String) : List Char :=
  '[' :: ((quoted pair.1).toList ++
    ',' :: ((optionalText pair.2).text.toList ++ [']']))

/-- The pairs, with commas between them. -/
def pairsText : GroupValues → List Char
  | [] => []
  | [pair] => pairText pair
  | pair :: other :: rest => pairText pair ++ ',' :: pairsText (other :: rest)

/-- One field and its value as JSON. -/
def pairJson (pair : String × Option String) : Json :=
  .array [.string pair.1, optionalText pair.2]

theorem toList_pairJson (pair : String × Option String) :
    (pairJson pair).text.toList = pairText pair := by
  simp [pairJson, Json.text, itemTexts, String.intercalate_cons_cons,
    pairText]

private theorem toList_itemTexts :
    ∀ values : GroupValues,
      (String.intercalate "," (itemTexts (values.map pairJson))).toList =
        pairsText values
  | [] => by
      simp [itemTexts, pairsText]
  | [pair] => by
      simp [itemTexts, pairsText, toList_pairJson]
  | pair :: other :: rest => by
      have later := toList_itemTexts (other :: rest)
      rw [List.map_cons, itemTexts] at later ⊢
      rw [List.map_cons, itemTexts, String.intercalate_cons_cons,
        String.toList_append, String.toList_append, later,
        toList_pairJson, pairsText]
      simp

theorem toList_serialize (values : GroupValues) :
    values.serialize.text.toList = '[' :: (pairsText values ++ [']']) := by
  have isArray : values.serialize = .array (values.map pairJson) := rfl
  rw [isArray, Json.text, String.toList_append, String.toList_append,
    toList_itemTexts]
  rfl

private theorem pairText_injective
    {first second : String × Option String} {left right : List Char}
    (same : pairText first ++ left = pairText second ++ right) :
    first = second ∧ left = right := by
  simp only [pairText, List.cons_append, List.append_assoc,
    List.nil_append, List.cons.injEq, true_and] at same
  obtain ⟨sameField, sameValues⟩ := quoted_injective same
  rw [List.cons.injEq] at sameValues
  obtain ⟨sameValue, sameRest⟩ := optionalText_text_injective sameValues.2
  rw [List.cons.injEq] at sameRest
  exact ⟨Prod.ext sameField sameValue, sameRest.2⟩

private theorem pairsText_injective :
    ∀ {first second : GroupValues},
      pairsText first ++ [']'] = pairsText second ++ [']'] → first = second
  | [], [], _ => rfl
  | [], [pair], same => by
      simp [pairsText, pairText] at same
  | [], pair :: other :: rest, same => by
      simp [pairsText, pairText] at same
  | [pair], [], same => by
      simp [pairsText, pairText] at same
  | pair :: other :: rest, [], same => by
      simp [pairsText, pairText] at same
  | [pair], [pair'], same => by
      rw [(pairText_injective same).1]
  | [pair], pair' :: other :: rest, same => by
      rw [pairsText, pairsText, List.append_assoc] at same
      have tails := (pairText_injective same).2
      simp at tails
  | pair :: other :: rest, [pair'], same => by
      rw [pairsText, pairsText, List.append_assoc] at same
      have tails := (pairText_injective same).2
      simp at tails
  | pair :: other :: rest, pair' :: other' :: rest', same => by
      rw [pairsText, pairsText, List.append_assoc,
        List.append_assoc] at same
      obtain ⟨samePair, tails⟩ := pairText_injective same
      simp only [List.cons_append, List.cons.injEq, true_and] at tails
      rw [samePair, pairsText_injective tails]

/-- The values can be read back from their text. -/
theorem serialize_text_injective {first second : GroupValues}
    (same : first.serialize.text.toList = second.serialize.text.toList) :
    first = second := by
  rw [toList_serialize, toList_serialize, List.cons.injEq] at same
  exact pairsText_injective same.2

private theorem line_not_mem_pairText (pair : String × Option String) :
    '\n' ∉ pairText pair := by
  simp only [pairText, List.mem_cons, List.mem_append, List.not_mem_nil,
    or_false, not_or]
  exact ⟨by decide, line_not_mem_quoted _, by decide,
    line_not_mem_optionalText _, by decide⟩

private theorem line_not_mem_pairsText :
    ∀ values : GroupValues, '\n' ∉ pairsText values
  | [] => by
      simp [pairsText]
  | [pair] => line_not_mem_pairText pair
  | pair :: other :: rest => by
      have later := line_not_mem_pairsText (other :: rest)
      rw [pairsText]
      simp only [List.mem_append, List.mem_cons, not_or]
      exact ⟨line_not_mem_pairText pair, by decide, later⟩

theorem line_not_mem_serialize (values : GroupValues) :
    '\n' ∉ values.serialize.text.toList := by
  rw [toList_serialize]
  simp only [List.mem_cons, List.mem_append, List.not_mem_nil, or_false,
    not_or]
  exact ⟨by decide, line_not_mem_pairsText values, by decide⟩

end GroupValues

/-! ## Keys -/

private theorem nothing_before_line
    {between left right : List Char} (leftLine : '\n' ∉ left)
    (same : '\n' :: left = between ++ '\n' :: right) :
    between = [] ∧ left = right := by
  cases between with
  | nil => exact ⟨rfl, (List.cons.inj same).2⟩
  | cons c between =>
      rw [List.cons_append, List.cons.injEq] at same
      rw [same.2] at leftLine
      simp at leftLine

/-- Two texts with the same last line. -/
private theorem split_at_last_line
    {first second left right : List Char}
    (leftLine : '\n' ∉ left) (rightLine : '\n' ∉ right)
    (same : first ++ '\n' :: left = second ++ '\n' :: right) :
    first = second ∧ left = right := by
  rcases List.append_eq_append_iff.mp same with
    ⟨between, isSecond, rest⟩ | ⟨between, isFirst, rest⟩
  · obtain ⟨rfl, sameLine⟩ := nothing_before_line leftLine rest
    exact ⟨by rw [isSecond, List.append_nil], sameLine⟩
  · obtain ⟨rfl, sameLine⟩ := nothing_before_line rightLine rest
    exact ⟨by rw [isFirst, List.append_nil], sameLine.symm⟩

/-- A group's key tells the key of its route and the text of its values. -/
theorem parts_of_groupKey_eq
    {platform : Platform} {left right : Route}
    {leftValues rightValues : GroupValues}
    (same : groupKey platform left leftValues =
      groupKey platform right rightValues) :
    routeKey platform left = routeKey platform right ∧
      leftValues.serialize.text.toList =
        rightValues.serialize.text.toList := by
  have chars := congrArg String.toList same
  simp only [groupKey, String.toList_append, List.append_assoc] at chars
  obtain ⟨sameKey, sameText⟩ := split_at_last_line
    leftValues.line_not_mem_serialize rightValues.line_not_mem_serialize
    chars
  exact ⟨String.toList_inj.mp sameKey, sameText⟩

/-- A group's key tells its route and its values. -/
theorem eq_of_groupKey_eq
    {platform : Platform} {routes : List Route}
    (keys : KeysApart platform routes) {left right : Route}
    (leftMember : left ∈ routes) (rightMember : right ∈ routes)
    {leftValues rightValues : GroupValues}
    (same : groupKey platform left leftValues =
      groupKey platform right rightValues) :
    left = right ∧ leftValues = rightValues := by
  obtain ⟨sameKey, sameText⟩ := parts_of_groupKey_eq same
  exact ⟨eq_of_routeKey_eq keys leftMember rightMember sameKey,
    GroupValues.serialize_text_injective sameText⟩

end OpsSignal
