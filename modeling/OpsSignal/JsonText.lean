import OpsSignal.GroupKey
import OpsSignal.Lib.Delimited

/-!
# JSON text determines its value

Every value shows where its text ends, a number by what follows it.  Two
values are therefore equal if their texts are, and so are two routes.
-/

namespace OpsSignal

open Delimited

namespace Json

mutual

/-- Every number is written with digits. -/
def Plain : Json → Prop
  | .number digits =>
      digits.toList ≠ [] ∧ ∀ c ∈ digits.toList, c.isDigit = true
  | .array items => PlainItems items
  | .object fields => PlainFields fields
  | _ => True

def PlainItems : List Json → Prop
  | [] => True
  | item :: rest => Plain item ∧ PlainItems rest

def PlainFields : List (String × Json) → Prop
  | [] => True
  | (_, value) :: rest => Plain value ∧ PlainFields rest

end

theorem plainItems_iff {items : List Json} :
    PlainItems items ↔ ∀ item ∈ items, Plain item := by
  induction items with
  | nil => simp [PlainItems]
  | cons item rest inductionHypothesis =>
      rw [PlainItems, List.forall_mem_cons, inductionHypothesis]

theorem plainFields_iff {fields : List (String × Json)} :
    PlainFields fields ↔ ∀ field ∈ fields, Plain field.2 := by
  induction fields with
  | nil => simp [PlainFields]
  | cons field rest inductionHypothesis =>
      rw [PlainFields, List.forall_mem_cons, inductionHypothesis]

/-! ## The text as a list of characters -/

def chars (value : Json) : List Char :=
  value.text.toList

def fieldChars (field : String × Json) : List Char :=
  (quoted field.1).toList ++ ':' :: chars field.2

theorem itemTexts_eq (items : List Json) :
    itemTexts items = items.map text := by
  induction items with
  | nil => rfl
  | cons item rest inductionHypothesis =>
      rw [itemTexts, inductionHypothesis, List.map_cons]

theorem toList_fieldTexts (fields : List (String × Json)) :
    (fieldTexts fields).map String.toList = fields.map fieldChars := by
  induction fields with
  | nil => rfl
  | cons field rest inductionHypothesis =>
      rw [fieldTexts, List.map_cons, List.map_cons, inductionHypothesis]
      simp [fieldChars, chars, String.toList_append]

theorem chars_array (items : List Json) :
    chars (.array items) = '[' :: closed chars ',' ']' items := by
  rw [chars, text, closed_eq, itemTexts_eq]
  simp [String.toList_append, String.toList_intercalate, List.map_map]
  rfl

theorem chars_object (fields : List (String × Json)) :
    chars (.object fields) = '\x7b' :: closed fieldChars ',' '\x7d' fields := by
  rw [chars, text, closed_eq, ← toList_fieldTexts]
  simp [String.toList_append, String.toList_intercalate]

/-! ## Where a text begins and ends -/

/-- What the first character of a text tells. -/
inductive Kind where
  | null
  | bool (value : Bool)
  | number
  | string
  | array
  | object

def kind : Json → Kind
  | .null => .null
  | .bool value => .bool value
  | .number _ => .number
  | .string _ => .string
  | .array _ => .array
  | .object _ => .object

def kindOf (c : Char) : Kind :=
  if c.isDigit then .number
  else if c = 'n' then .null
  else if c = 't' then .bool true
  else if c = 'f' then .bool false
  else if c = '"' then .string
  else if c = '[' then .array
  else .object

theorem notDigit_of_mem {symbols : List Char}
    (none_ : symbols.all (fun c => !c.isDigit) = true) {c : Char}
    (member : c ∈ symbols) : c.isDigit = false := by
  simpa using List.all_eq_true.mp none_ c member

theorem kindOf_chars {value : Json} (plain : value.Plain) :
    ∃ c rest, value.chars = c :: rest ∧ kindOf c = value.kind ∧
      c ∉ [']', '\x7d'] := by
  cases value with
  | null => exact ⟨'n', _, rfl, rfl, by decide⟩
  | bool value =>
      cases value with
      | false => exact ⟨'f', _, rfl, rfl, by decide⟩
      | true => exact ⟨'t', _, rfl, rfl, by decide⟩
  | number digits =>
      obtain ⟨nonempty, digit⟩ := plain
      obtain ⟨c, rest, same⟩ := List.exists_cons_of_ne_nil nonempty
      have isDigit := digit c (same ▸ List.mem_cons_self)
      refine ⟨c, rest, same, if_pos isDigit, ?_⟩
      intro closes
      rw [notDigit_of_mem (by decide) closes] at isDigit
      cases isDigit
  | string content =>
      exact ⟨'"', _, toList_quoted content, rfl, by decide⟩
  | array items => exact ⟨'[', _, chars_array items, rfl, by decide⟩
  | object fields => exact ⟨'\x7b', _, chars_object fields, rfl, by decide⟩

/-- Nothing that continues a number. -/
def EndsNumber (rest : List Char) : Prop :=
  ∀ c, rest.head? = some c → c.isDigit = false

theorem endsNumber_cons {c : Char} (notDigit : c.isDigit = false)
    (rest : List Char) : EndsNumber (c :: rest) := by
  rintro other ⟨⟩
  exact notDigit

theorem digits_injective {first second left right : List Char}
    (firstDigits : ∀ c ∈ first, c.isDigit = true)
    (secondDigits : ∀ c ∈ second, c.isDigit = true)
    (leftEnds : EndsNumber left) (rightEnds : EndsNumber right)
    (same : first ++ left = second ++ right) :
    first = second ∧ left = right := by
  induction first generalizing second with
  | nil =>
      cases second with
      | nil => exact ⟨rfl, same⟩
      | cons c second =>
          have digit := secondDigits c List.mem_cons_self
          rw [leftEnds c (by rw [← List.nil_append left, same]; rfl)] at digit
          cases digit
  | cons c first inductionHypothesis =>
      cases second with
      | nil =>
          have digit := firstDigits c List.mem_cons_self
          rw [rightEnds c (by rw [← List.nil_append right, ← same]; rfl)]
            at digit
          cases digit
      | cons d second =>
          obtain ⟨rfl, rest⟩ := List.cons.inj same
          obtain ⟨rfl, after⟩ := inductionHypothesis
            (fun c member => firstDigits c (List.mem_cons_of_mem _ member))
            (fun c member => secondDigits c (List.mem_cons_of_mem _ member))
            rest
          exact ⟨rfl, after⟩

theorem kind_eq_of_chars_eq
    {value other : Json} {left right : List Char}
    (plain : value.Plain) (otherPlain : other.Plain)
    (same : chars value ++ left = chars other ++ right) :
    value.kind = other.kind := by
  obtain ⟨c, rest, isValue, kindOfValue, _⟩ := kindOf_chars plain
  obtain ⟨d, more, isOther, kindOfOther, _⟩ := kindOf_chars otherPlain
  rw [isValue, isOther] at same
  rw [← kindOfValue, ← kindOfOther, (List.cons.inj same).1]

theorem reads_atom {value other : Json} (plain : value.Plain)
    (otherPlain : other.Plain) (notArray : value.kind ≠ .array)
    (notObject : value.kind ≠ .object) :
    Reads chars EndsNumber value other := by
  intro left right leftEnds rightEnds same
  have sameKind := kind_eq_of_chars_eq plain otherPlain same
  cases value with
  | null =>
      cases other with
      | null => exact ⟨rfl, List.append_cancel_left same⟩
      | bool | number | string | array | object => cases sameKind
  | bool value =>
      cases other with
      | bool other =>
          cases sameKind
          exact ⟨rfl, List.append_cancel_left same⟩
      | null | number | string | array | object => cases sameKind
  | number digits =>
      cases other with
      | number others =>
          obtain ⟨sameDigits, after⟩ := digits_injective plain.2
            otherPlain.2 leftEnds rightEnds same
          exact ⟨congrArg Json.number (String.toList_inj.mp sameDigits),
            after⟩
      | null | bool | string | array | object => cases sameKind
  | string content =>
      cases other with
      | string others =>
          obtain ⟨sameContent, after⟩ := quoted_injective same
          exact ⟨congrArg Json.string sameContent, after⟩
      | null | bool | number | array | object => cases sameKind
  | array => exact absurd rfl notArray
  | object => exact absurd rfl notObject

theorem endsNumber_closing :
    ∀ c ∈ [',', ']', '\x7d'], ∀ rest, EndsNumber (c :: rest) := by
  intro c member
  exact endsNumber_cons (notDigit_of_mem (by decide) member)

/-- The items of an array are told apart one after the other. -/
theorem reads_array {items : List Json} {other : Json}
    (plain : ∀ item ∈ items, item.Plain) (otherPlain : other.Plain)
    (reads : ∀ item ∈ items, ∀ other : Json, other.Plain →
      Reads chars EndsNumber item other) :
    Reads chars EndsNumber (.array items) other := by
  intro left right leftEnds rightEnds same
  have plainArray : (Json.array items).Plain := plainItems_iff.mpr plain
  have sameKind := kind_eq_of_chars_eq plainArray otherPlain same
  cases other with
  | array others =>
      have otherPlainItem := plainItems_iff.mp otherPlain
      rw [chars_array, chars_array, List.cons_append,
        List.cons_append] at same
      have opens : ∀ {items : List Json}, (∀ item ∈ items, item.Plain) →
          ∀ item ∈ items, ∀ rest,
            (chars item ++ rest).head? ≠ some ']' := by
        intro items plain item member rest
        obtain ⟨c, later, isItem, _, open_⟩ :=
          kindOf_chars (plain item member)
        rw [isItem]
        rintro ⟨⟩
        exact open_ (by decide)
      obtain ⟨rfl, after⟩ := closed_injective (by decide)
        (endsNumber_closing ',' (by decide))
        (endsNumber_closing ']' (by decide)) (opens plain)
        (opens otherPlainItem)
        (fun item member other otherMember =>
          reads item member other (otherPlainItem other otherMember))
        (List.cons.inj same).2
      exact ⟨rfl, after⟩
  | null | bool | number | string | object => cases sameKind

theorem reads_field {field other : String × Json}
    (reads : Reads chars EndsNumber field.2 other.2) :
    Reads fieldChars EndsNumber field other := by
  intro left right leftEnds rightEnds same
  rw [fieldChars, fieldChars, List.append_assoc, List.append_assoc] at same
  obtain ⟨sameName, after⟩ := quoted_injective same
  obtain ⟨sameValue, rest⟩ :=
    reads left right leftEnds rightEnds (List.cons.inj after).2
  exact ⟨Prod.ext sameName sameValue, rest⟩

/-- And so are the fields of an object. -/
theorem reads_object {fields : List (String × Json)} {other : Json}
    (plain : ∀ field ∈ fields, field.2.Plain) (otherPlain : other.Plain)
    (reads : ∀ field ∈ fields, ∀ other : Json, other.Plain →
      Reads chars EndsNumber field.2 other) :
    Reads chars EndsNumber (.object fields) other := by
  intro left right leftEnds rightEnds same
  have plainObject : (Json.object fields).Plain := plainFields_iff.mpr plain
  have sameKind := kind_eq_of_chars_eq plainObject otherPlain same
  cases other with
  | object others =>
      have otherPlainField := plainFields_iff.mp otherPlain
      rw [chars_object, chars_object, List.cons_append,
        List.cons_append] at same
      have opens : ∀ fields : List (String × Json), ∀ field ∈ fields,
          ∀ rest, (fieldChars field ++ rest).head? ≠ some '\x7d' := by
        intro fields field _ rest
        rw [fieldChars, toList_quoted]
        rintro ⟨⟩
      obtain ⟨rfl, after⟩ := closed_injective (by decide)
        (endsNumber_closing ',' (by decide))
        (endsNumber_closing '\x7d' (by decide)) (opens fields)
        (opens others)
        (fun field member other otherMember =>
          reads_field (reads field member other.2
            (otherPlainField other otherMember)))
        (List.cons.inj same).2
      exact ⟨rfl, after⟩
  | null | bool | number | string | array => cases sameKind

/-- A value can be read back from its text, and what follows it. -/
theorem reads_chars :
    ∀ (value other : Json), value.Plain → other.Plain →
      Reads chars EndsNumber value other
  | .null, _, plain, otherPlain => reads_atom plain otherPlain nofun nofun
  | .bool _, _, plain, otherPlain => reads_atom plain otherPlain nofun nofun
  | .number _, _, plain, otherPlain =>
      reads_atom plain otherPlain nofun nofun
  | .string _, _, plain, otherPlain =>
      reads_atom plain otherPlain nofun nofun
  | .array _, _, plain, otherPlain =>
      reads_array (plainItems_iff.mp plain) otherPlain
        fun item member other otherPlain =>
          reads_chars item other (plainItems_iff.mp plain item member)
            otherPlain
  | .object _, _, plain, otherPlain =>
      reads_object (plainFields_iff.mp plain) otherPlain
        fun field member other otherPlain =>
          reads_chars field.2 other (plainFields_iff.mp plain field member)
            otherPlain
termination_by value => sizeOf value
decreasing_by
  · have smaller := List.sizeOf_lt_of_mem member
    simp only [Json.array.sizeOf_spec]
    omega
  · have smaller := List.sizeOf_lt_of_mem member
    obtain ⟨name, inner⟩ := field
    simp only [Json.object.sizeOf_spec, Prod.mk.sizeOf_spec] at smaller ⊢
    omega

/-- Equal texts are the texts of equal values. -/
theorem text_injective {value other : Json} (plain : value.Plain)
    (otherPlain : other.Plain) (same : value.text = other.text) :
    value = other := by
  have ends : EndsNumber [] := nofun
  exact (reads_chars value other plain otherPlain [] [] ends ends
    (by rw [chars, chars, same])).1

end Json

/-! ## The text of a route -/

theorem plain_optionalText (value : Option String) :
    (optionalText value).Plain := by
  cases value with
  | none => trivial
  | some content => trivial

theorem plain_strings {Item : Type} (display : Item → String)
    (items : List Item) :
    (Json.array (items.map fun item => .string (display item))).Plain := by
  refine Json.plainItems_iff.mpr ?_
  intro value member
  obtain ⟨item, _, rfl⟩ := List.mem_map.mp member
  trivial

theorem plain_optionalField {name : String} {value : Option Json}
    (plain : ∀ inner ∈ value, inner.Plain) :
    ∀ field ∈ optionalField name value, field.2.Plain := by
  cases value with
  | none => nofun
  | some inner =>
      intro field member
      rw [List.mem_singleton.mp member]
      exact plain inner rfl

theorem plain_limit (limit : RateLimit) : limit.serialize.Plain := by
  have digits : (toString limit.max.toNat).toList =
      Nat.toDigits 10 limit.max.toNat := by
    rw [Nat.toString_eq_repr, Nat.toList_repr]
  refine Json.plainFields_iff.mpr ?_
  intro field member
  rcases List.mem_cons.mp member with rfl | member
  · refine ⟨?_, ?_⟩
    · rw [digits]
      exact Nat.toDigits_ne_nil
    · intro c isDigit
      rw [digits] at isDigit
      exact Nat.isDigit_of_mem_toDigits (by decide) (by decide) isDigit
  · rw [List.mem_singleton.mp member]
    trivial

/-- The numbers of a route are written with digits. -/
theorem plain_serialize (route : Route) : route.serialize.Plain := by
  refine Json.plainFields_iff.mpr ?_
  intro field member
  simp only [List.mem_append] at member
  rcases member with (((member | dedup) | limit) | fields) | wait
  · simp only [List.mem_cons, List.not_mem_nil, or_false] at member
    rcases member with rfl | rfl | rfl
    · refine Json.plainFields_iff.mpr ?_
      intro field member
      simp only [List.mem_cons, List.not_mem_nil, or_false] at member
      rcases member with rfl | rfl | rfl
      · exact plain_strings _ _
      · exact plain_optionalText _
      · exact plain_optionalText _
    · exact plain_strings id route.providers
    · trivial
  · apply plain_optionalField _ field dedup
    rintro inner isInner
    obtain ⟨window, _, rfl⟩ := Option.map_eq_some_iff.mp isInner
    trivial
  · apply plain_optionalField _ field limit
    rintro inner isInner
    obtain ⟨limit, _, rfl⟩ := Option.map_eq_some_iff.mp isInner
    exact plain_limit limit
  · apply plain_optionalField _ field fields
    rintro inner isInner
    obtain ⟨names, _, rfl⟩ := Option.map_eq_some_iff.mp isInner
    exact plain_strings id names
  · apply plain_optionalField _ field wait
    rintro inner isInner
    obtain ⟨window, _, rfl⟩ := Option.map_eq_some_iff.mp isInner
    trivial

/-- Two routes have one text only if they are the same route. -/
theorem route_eq_of_text_eq {left right : Route}
    (same : left.serialize.text = right.serialize.text) : left = right :=
  serialize_injective (Json.text_injective (plain_serialize left)
    (plain_serialize right) same)

end OpsSignal
