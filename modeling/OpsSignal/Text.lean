import Mathlib.Data.List.DropRight
import Mathlib.Data.List.Infix

/-!
# Text helpers of the Rust standard library

The few `str` operations the core relies on, over lists of characters.
-/

namespace OpsSignal

/-- `char::is_whitespace`: the Unicode `White_Space` property. -/
def isWhitespace (c : Char) : Bool :=
  (9 ≤ c.toNat && c.toNat ≤ 13) || c.toNat == 0x20 || c.toNat == 0x85 ||
    c.toNat == 0xA0 || c.toNat == 0x1680 ||
    (0x2000 ≤ c.toNat && c.toNat ≤ 0x200A) || c.toNat == 0x2028 ||
    c.toNat == 0x2029 || c.toNat == 0x202F || c.toNat == 0x205F ||
    c.toNat == 0x3000

/-- `str::trim`. -/
def trim (text : List Char) : List Char :=
  (text.dropWhile isWhitespace).rdropWhile isWhitespace

/-- A text that starts and ends in visible characters is left as it is. -/
theorem trim_of_visible {text : List Char}
    (front : ∀ c ∈ text.head?, isWhitespace c = false)
    (back : ∀ c ∈ text.getLast?, isWhitespace c = false) :
    trim text = text := by
  have noFront : text.dropWhile isWhitespace = text := by
    cases text with
    | nil => rfl
    | cons c text => simp [front c rfl]
  rw [trim, noFront, List.rdropWhile_eq_self_iff]
  intro full
  rw [back _ (List.getLast?_eq_getLast_of_ne_nil full)]
  exact Bool.false_ne_true

/-- `s.trim().is_empty()`. -/
def isBlank (text : String) : Bool :=
  text.toList.all isWhitespace

/-- `str::strip_prefix`. -/
def stripPrefix : List Char → List Char → Option (List Char)
  | [], text => some text
  | _ :: _, [] => none
  | expected :: rest, c :: text =>
      if expected = c then stripPrefix rest text else none

/-- `str::split` on one character; there is always a first piece. -/
def splitOn (separator : Char) : List Char → List (List Char)
  | [] => [[]]
  | c :: text =>
      if c = separator then
        [] :: splitOn separator text
      else
        match splitOn separator text with
        | [] => [[c]]
        | piece :: pieces => (c :: piece) :: pieces

/-- `str::split_once` on one character. -/
def splitOnce (separator : Char) :
    List Char → Option (List Char × List Char)
  | [] => none
  | c :: text =>
      if c = separator then
        some ([], text)
      else
        (splitOnce separator text).map fun (before, after) =>
          (c :: before, after)

theorem stripPrefix_append (expected text : List Char) :
    stripPrefix expected (expected ++ text) = some text := by
  induction expected with
  | nil => rfl
  | cons c rest inductionHypothesis =>
      simpa [stripPrefix] using inductionHypothesis

theorem eq_append_of_stripPrefix :
    ∀ {expected text rest : List Char},
      stripPrefix expected text = some rest →
        text = expected ++ rest
  | [], text, rest, found => by
      simpa [stripPrefix] using found
  | _ :: _, [], rest, found => by
      simp [stripPrefix] at found
  | expected :: more, c :: text, rest, found => by
      by_cases same : expected = c
      · subst same
        simp only [stripPrefix, if_true] at found
        rw [eq_append_of_stripPrefix found, List.cons_append]
      · simp [stripPrefix, same] at found

theorem stripPrefix_append_left (first second text : List Char) :
    stripPrefix (first ++ second) text =
      (stripPrefix first text).bind fun rest => stripPrefix second rest := by
  induction first generalizing text with
  | nil => simp [stripPrefix]
  | cons expected rest inductionHypothesis =>
      cases text with
      | nil => rfl
      | cons c text =>
          by_cases same : expected = c
          · simp [stripPrefix, same, inductionHypothesis]
          · simp [stripPrefix, same]

theorem stripPrefix_eq_none_iff (expected text : List Char) :
    stripPrefix expected text = none ↔ ¬ expected <+: text := by
  constructor
  · rintro absent ⟨rest, rfl⟩
    rw [stripPrefix_append] at absent
    cases absent
  · intro apart
    rw [Option.eq_none_iff_forall_ne_some]
    intro rest stripped
    exact apart ⟨rest, (eq_append_of_stripPrefix stripped).symm⟩

theorem splitOnce_append
    {separator : Char} {before : List Char}
    (fresh : separator ∉ before) (after : List Char) :
    splitOnce separator (before ++ separator :: after) =
      some (before, after) := by
  induction before with
  | nil => simp [splitOnce]
  | cons c before inductionHypothesis =>
      simp only [List.mem_cons, not_or] at fresh
      simp [splitOnce, Ne.symm fresh.1, inductionHypothesis fresh.2]

theorem eq_append_of_splitOnce
    {separator : Char} {text before after : List Char}
    (found : splitOnce separator text = some (before, after)) :
    text = before ++ separator :: after ∧ separator ∉ before := by
  induction text generalizing before with
  | nil => simp [splitOnce] at found
  | cons c text inductionHypothesis =>
      by_cases same : c = separator
      · subst same
        simp only [splitOnce, if_true, Option.some.injEq, Prod.mk.injEq]
          at found
        obtain ⟨rfl, rfl⟩ := found
        simp
      · simp only [splitOnce, same, if_false] at found
        obtain ⟨⟨earlier, rest⟩, further, rebuilt⟩ :=
          Option.map_eq_some_iff.1 found
        cases rebuilt
        obtain ⟨spelled, fresh⟩ := inductionHypothesis further
        exact ⟨by rw [spelled, List.cons_append],
          by simp [fresh, Ne.symm same]⟩

/-- The first piece of `splitOn` is what stands before the separator. -/
theorem head_splitOn (separator : Char) (text : List Char) :
    (splitOn separator text).head? =
      some (text.takeWhile (· ≠ separator)) := by
  induction text with
  | nil => rfl
  | cons c text inductionHypothesis =>
      by_cases same : c = separator
      · simp [splitOn, same]
      · cases pieces : splitOn separator text with
        | nil =>
            simp [pieces] at inductionHypothesis
        | cons piece more =>
            rw [pieces] at inductionHypothesis
            simp only [List.head?_cons, Option.some.injEq] at inductionHypothesis
            simp [splitOn, same, pieces, inductionHypothesis]

theorem splitOn_ne_nil (separator : Char) (text : List Char) :
    splitOn separator text ≠ [] := by
  intro empty
  have head := head_splitOn separator text
  simp [empty] at head

theorem splitOn_append_cons
    (separator : Char) (first second : List Char) :
    splitOn separator (first ++ separator :: second) =
      splitOn separator first ++ splitOn separator second := by
  induction first with
  | nil => simp [splitOn]
  | cons c first inductionHypothesis =>
      by_cases same : c = separator
      · simp [splitOn, same, inductionHypothesis]
      · simp only [List.cons_append, splitOn, same, if_false,
          inductionHypothesis]
        cases pieces : splitOn separator first with
        | nil => exact absurd pieces (splitOn_ne_nil separator first)
        | cons piece more => rfl

/-- A text is read back from its pieces. -/
theorem intercalate_splitOn (separator : Char) (text : List Char) :
    List.intercalate [separator] (splitOn separator text) = text := by
  induction text with
  | nil => rfl
  | cons c text inductionHypothesis =>
      cases pieces : splitOn separator text with
      | nil => exact absurd pieces (splitOn_ne_nil separator text)
      | cons piece more =>
          rw [pieces] at inductionHypothesis
          by_cases same : c = separator
          · simp only [splitOn, same, if_true, pieces,
              List.intercalate_cons_cons, inductionHypothesis]
            simp
          · simp only [splitOn, same, if_false, pieces]
            rw [← inductionHypothesis]
            cases more with
            | nil => simp
            | cons next more => simp [List.intercalate_cons_cons]

end OpsSignal
