import OpsSignal.RouteKey

/-!
# The text of a window

A window is read as a number and a unit, and printed in the largest unit
that divides it.  What is printed is read back as the same window, and the
product of number and unit never saturates.
-/

namespace OpsSignal

/-- Why a text is no window. -/
inductive WindowError where
  | duration (text : List Char)
  | unit (other text : List Char)
  deriving DecidableEq, Repr

/-- The message of an error; `debug` quotes a text. -/
def WindowError.display (debug : List Char → String) :
    WindowError → String
  | .duration text =>
      "invalid duration " ++ debug text ++
        "; expected e.g. 30s, 10m, 2h or 1d"
  | .unit other text =>
      "invalid duration unit " ++ debug other ++ " in " ++ debug text ++
        "; expected s, m, h or d"

/-- `str::parse::<u64>` on a text of decimal digits. -/
def parseU64 (digits : List Char) : Option UInt64 :=
  if digits.isEmpty then none
  else
    let value := Nat.ofDigitChars 10 digits 0
    if value < UInt64.size then some (UInt64.ofNat value) else none

/-- `u64::saturating_mul`. -/
def saturatingMul (left right : UInt64) : UInt64 :=
  if left.toNat * right.toNat < UInt64.size then left * right
  else UInt64.ofNat (UInt64.size - 1)

namespace Window

/-- The seconds in a unit. -/
def unitSecs : List Char → Option UInt64
  | [] => some 1
  | ['s'] => some 1
  | ['m'] => some 60
  | ['h'] => some 3600
  | ['d'] => some 86400
  | _ => none

/-- The number and the unit of a text, the unit in seconds. -/
def parts (text : List Char) : Except WindowError (UInt64 × UInt64) :=
  let text := trim text
  match parseU64 (text.takeWhile Char.isDigit) with
  | none => .error (.duration text)
  | some number =>
      let unit := trim (text.dropWhile Char.isDigit)
      match unitSecs unit with
      | some secs => .ok (number, secs)
      | none => .error (.unit unit text)

/-- `from_str`. -/
def fromStr (text : List Char) : Except WindowError Window :=
  (parts text).map fun (number, secs) => ⟨saturatingMul number secs⟩

/-- How a window is written in a configuration. -/
inductive Raw where
  | secs (number : UInt64)
  | text (text : List Char)

/-- `deserialize`. -/
def deserialize : Raw → Except WindowError Window
  | .secs number => .ok ⟨number⟩
  | .text text => fromStr text

/-! ## Reading a printed window -/

theorem parseU64_toDigits {number : Nat} (small : number < UInt64.size) :
    parseU64 (Nat.toDigits 10 number) = some (UInt64.ofNat number) := by
  have nonempty : (Nat.toDigits 10 number).isEmpty = false := by
    simp [Nat.toDigits_ne_nil]
  rw [parseU64, nonempty]
  simp [Nat.ofDigitChars_ten_toDigits, small]

theorem unitSecs_of_mem :
    ∀ entry ∈ windowUnits,
      unitSecs (trim [entry.2]) = some (UInt64.ofNat entry.1) ∧
        entry.2.isDigit = false ∧ isWhitespace entry.2 = false ∧
        entry.1 < UInt64.size := by
  decide

theorem not_isWhitespace_of_isDigit {c : Char} (digit : c.isDigit = true) :
    isWhitespace c = false := by
  have bounds : 48 ≤ c.toNat ∧ c.toNat ≤ 57 := by
    simpa [Char.isDigit, UInt32.le_iff_toNat_le] using digit
  simp [isWhitespace]
  omega

/-- A number and a unit are read digit by digit. -/
theorem parts_number_unit {number size : Nat} {unit : Char}
    (small : number < UInt64.size)
    (listed : (size, unit) ∈ windowUnits) :
    parts (Nat.toDigits 10 number ++ [unit]) =
      .ok (UInt64.ofNat number, UInt64.ofNat size) := by
  obtain ⟨isSecs, notDigit, visible, _⟩ := unitSecs_of_mem _ listed
  have digits : ∀ c ∈ Nat.toDigits 10 number, c.isDigit = true :=
    fun c member =>
      Nat.isDigit_of_mem_toDigits (by decide) (by decide) member
  have trimmed : trim (Nat.toDigits 10 number ++ [unit]) =
      Nat.toDigits 10 number ++ [unit] := by
    apply trim_of_visible
    · intro c isHead
      rw [List.head?_append_of_ne_nil _ Nat.toDigits_ne_nil] at isHead
      exact not_isWhitespace_of_isDigit
        (digits c (List.mem_of_mem_head? isHead))
    · intro c isLast
      rw [List.getLast?_concat] at isLast
      cases isLast
      exact visible
  have front : (Nat.toDigits 10 number ++ [unit]).takeWhile Char.isDigit =
      Nat.toDigits 10 number := by
    rw [List.takeWhile_append_of_pos digits]
    simp [notDigit]
  have back : (Nat.toDigits 10 number ++ [unit]).dropWhile Char.isDigit =
      [unit] := by
    rw [List.dropWhile_append_of_pos digits]
    simp [notDigit]
  rw [parts, trimmed, front, back, parseU64_toDigits small]
  simp only [isSecs]

theorem toNat_saturatingMul {left right : UInt64}
    (small : left.toNat * right.toNat < UInt64.size) :
    (saturatingMul left right).toNat = left.toNat * right.toNat := by
  rw [saturatingMul, if_pos small, UInt64.toNat_mul,
    Nat.mod_eq_of_lt small]

/-- Every window is read back from the text it prints, and the product of
the printed number and unit is its length. -/
theorem parts_display (window : Window) :
    ∃ number secs, parts window.display.toList = .ok (number, secs) ∧
      number.toNat * secs.toNat = window.secs.toNat := by
  obtain ⟨size, unit, listed, printed, whole⟩ :=
    unit_cases window.secs.toNat
  have bound := window.secs.toNat_lt
  have number : window.secs.toNat / size < UInt64.size :=
    Nat.lt_of_le_of_lt (Nat.div_le_self _ _) bound
  refine ⟨UInt64.ofNat (window.secs.toNat / size), UInt64.ofNat size, ?_,
    ?_⟩
  · rw [← parts_number_unit number listed, display]
    simp [printed, Nat.toString_eq_repr, Nat.toList_repr]
  · rw [UInt64.toNat_ofNat_of_lt' number,
      UInt64.toNat_ofNat_of_lt' (unitSecs_of_mem _ listed).2.2.2, whole]

theorem fromStr_display (window : Window) :
    fromStr window.display.toList = .ok window := by
  obtain ⟨number, secs, read, whole⟩ := window.parts_display
  have small : number.toNat * secs.toNat < UInt64.size := by
    rw [whole]
    exact window.secs.toNat_lt
  rw [fromStr, read]
  have same : saturatingMul number secs = window.secs :=
    UInt64.toNat_inj.mp ((toNat_saturatingMul small).trans whole)
  simp only [Except.map, same]

end Window

end OpsSignal
