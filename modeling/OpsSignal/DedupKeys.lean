import Mathlib.Logic.Equiv.Basic
import OpsSignal.Lib.Framing
import OpsSignal.Signal

/-!
# Which incidents share a dedup key

A computed key is the digest of four fields with a bar between them.  A
bar inside a field is not marked, so fields that put their bars in
different places can be joined to one text.
-/

namespace OpsSignal

open Framing

/-! ## Pieces of a text -/

theorem flatMap_splitOn
    (separator : Char) (fields : List (List Char)) (last : List Char) :
    splitOn separator (terminated separator fields ++ last) =
      (fields ++ [last]).flatMap (splitOn separator) := by
  induction fields with
  | nil => simp
  | cons field fields inductionHypothesis =>
      rw [terminated_cons, List.append_assoc, List.cons_append,
        splitOn_append_cons, inductionHypothesis]
      simp

/-! ## What the key is computed from -/

namespace SignalInput

/-- The fields that end in a bar. -/
def barred (input : SignalInput) : List (List Char) :=
  [input.source.toList, input.eventType.toList, input.title.toList]

/-- An absent environment is an empty one. -/
def environmentText (input : SignalInput) : List Char :=
  (input.environment.getD "").toList

/-- How many bars stand inside the source, the event type and the
title. -/
def bars (input : SignalInput) : List Nat :=
  profile '|' input.barred

/-- The pieces between the bars of the four fields, in order. -/
def pieces (input : SignalInput) : List (List Char) :=
  (input.barred ++ [input.environmentText]).flatMap (splitOn '|')

/-- A trigger that passed validation and brings no key of its own. -/
structure Computed (input : SignalInput) : Prop where
  action : input.action = .trigger
  dedupKey : input.dedupKey = none
  accepted : validate input = .ok ()

/-- The four identifying fields agree. -/
structure SameIncident (left right : SignalInput) : Prop where
  source : left.source = right.source
  eventType : left.eventType = right.eventType
  title : left.title = right.title
  environment : left.environment.getD "" = right.environment.getD ""

end SignalInput

theorem computeDedupKey_eq (platform : Platform) (input : SignalInput) :
    computeDedupKey platform input =
      platform.sha256 (String.ofList
        (terminated '|' input.barred ++ input.environmentText)) := by
  rw [computeDedupKey]
  congr 1
  apply String.toList_inj.1
  simp [SignalInput.barred, SignalInput.environmentText]

theorem sameIncident_iff (left right : SignalInput) :
    left.SameIncident right ↔
      left.barred = right.barred ∧
        left.environmentText = right.environmentText := by
  constructor
  · intro same
    simp [SignalInput.barred, SignalInput.environmentText, same.source,
      same.eventType, same.title, same.environment]
  · rintro ⟨fields, environment⟩
    simp only [SignalInput.barred, List.cons.injEq, String.toList_inj,
      and_true] at fields
    exact ⟨fields.1, fields.2.1, fields.2.2,
      String.toList_inj.1 environment⟩

section

variable {platform : Platform}

/-- Keys are equal exactly where the joined texts are. -/
theorem computeDedupKey_eq_iff
    (collisionFree : Function.Injective platform.sha256)
    (left right : SignalInput) :
    computeDedupKey platform left = computeDedupKey platform right ↔
      left.pieces = right.pieces := by
  rw [computeDedupKey_eq, computeDedupKey_eq, collisionFree.eq_iff,
    String.ofList_inj]
  constructor
  · intro same
    rw [SignalInput.pieces, SignalInput.pieces, ← flatMap_splitOn, same,
      flatMap_splitOn]
  · intro same
    rw [SignalInput.pieces, SignalInput.pieces, ← flatMap_splitOn,
      ← flatMap_splitOn] at same
    rw [← intercalate_splitOn '|' (terminated '|' left.barred ++ _), same,
      intercalate_splitOn]

theorem sameIncident_of_bars
    {left right : SignalInput}
    (sameBars : left.bars = right.bars)
    (samePieces : left.pieces = right.pieces) :
    left.SameIncident right := by
  rw [SignalInput.pieces, SignalInput.pieces, ← flatMap_splitOn,
    ← flatMap_splitOn] at samePieces
  have joined :
      terminated '|' left.barred ++ left.environmentText =
        terminated '|' right.barred ++ right.environmentText := by
    rw [← intercalate_splitOn '|' (terminated '|' left.barred ++ _),
      samePieces, intercalate_splitOn]
  exact (sameIncident_iff left right).2
    (eq_of_terminated_append sameBars joined)

end

/-! ## Bars in different places -/

/-- An input whose fields are beads on the given numbers of bars. -/
def beadInput (first second third last : Nat) : SignalInput where
  source := String.ofList (beads 'a' '|' first)
  eventType := String.ofList (beads 'a' '|' second)
  title := String.ofList (beads 'a' '|' third)
  environment := some (String.ofList (beads 'a' '|' last))

theorem not_isBlank_beads (count : Nat) :
    isBlank (String.ofList (beads 'a' '|' count)) = false := by
  cases count with
  | zero => simp [isBlank, beads, isWhitespace]
  | succ count => simp [isBlank, beads, isWhitespace]

theorem computed_beadInput (first second third last : Nat) :
    (beadInput first second third last).Computed where
  action := rfl
  dedupKey := rfl
  accepted := by
    simp [validate, beadInput, not_isBlank_beads, Action.isLifecycle]

theorem barred_beadInput (first second third last : Nat) :
    (beadInput first second third last).barred =
      [first, second, third].map (beads 'a' '|') := by
  simp [SignalInput.barred, beadInput]

theorem bars_beadInput (first second third last : Nat) :
    (beadInput first second third last).bars = [first, second, third] := by
  rw [SignalInput.bars, barred_beadInput]
  exact profile_beads (by decide) _

/-- The key depends only on how many bars there are in all. -/
theorem computeDedupKey_beadInput
    (platform : Platform) (first second third last : Nat) :
    computeDedupKey platform (beadInput first second third last) =
      platform.sha256 (String.ofList
        (beads 'a' '|' (first + second + third + 3 + last))) := by
  rw [computeDedupKey_eq, barred_beadInput, SignalInput.environmentText]
  have joined := terminated_beads_append 'a' '|' [first, second, third] last
  have total :
      [first, second, third].sum + [first, second, third].length + last =
        first + second + third + 3 + last := by
    simp
    omega
  rw [total] at joined
  simpa [beadInput] using congrArg (platform.sha256 ∘ String.ofList) joined

/-! ## Different incidents, different keys -/

/-- The signals of two incidents have equal keys only where their
identifying fields agree, provided these fields hold their bars in the
same places; where they do not, the pieces between the bars decide.  No
two different placements of bars are safe. -/
theorem dedupKey_identifies_iff
    {platform : Platform}
    (collisionFree : Function.Injective platform.sha256) :
    (∀ (left right : SignalInput) leftId rightId leftTime rightTime,
      left.Computed → right.Computed →
        (((Signal.fromInput platform leftId leftTime left).dedupKey =
              (Signal.fromInput platform rightId rightTime right).dedupKey ↔
            left.SameIncident right) ↔
          (left.bars = right.bars ∨ left.pieces ≠ right.pieces))) ∧
      ∀ (leftBars rightBars : List Nat), leftBars.length = 3 →
        rightBars.length = 3 →
          ((∀ (left right : SignalInput) leftId rightId leftTime rightTime,
            left.Computed → right.Computed → left.bars = leftBars →
              right.bars = rightBars →
                ((Signal.fromInput platform leftId leftTime left).dedupKey =
                    (Signal.fromInput platform rightId rightTime
                      right).dedupKey ↔
                  left.SameIncident right)) ↔
            leftBars = rightBars) := by
  have key : ∀ input : SignalInput, input.Computed →
      input.effectiveDedupKey platform = computeDedupKey platform input := by
    intro input computed
    simp [SignalInput.effectiveDedupKey, computed.dedupKey]
  have agree : ∀ left right : SignalInput, left.SameIncident right →
      left.bars = right.bars ∧ left.pieces = right.pieces := by
    intro left right same
    obtain ⟨fields, environment⟩ := (sameIncident_iff left right).1 same
    simp [SignalInput.bars, SignalInput.pieces, fields, environment]
  have decided : ∀ (left right : SignalInput)
      leftId rightId leftTime rightTime, left.Computed → right.Computed →
      (((Signal.fromInput platform leftId leftTime left).dedupKey =
            (Signal.fromInput platform rightId rightTime right).dedupKey ↔
          left.SameIncident right) ↔
        (left.bars = right.bars ∨ left.pieces ≠ right.pieces)) := by
    intro left right leftId rightId leftTime rightTime one other
    rw [dedupKey_fromInput, dedupKey_fromInput, Option.some.injEq,
      key left one, key right other,
      computeDedupKey_eq_iff collisionFree]
    constructor
    · intro exact
      by_cases samePieces : left.pieces = right.pieces
      · exact .inl (agree left right (exact.1 samePieces)).1
      · exact .inr samePieces
    · rintro (sameBars | different)
      · exact ⟨sameIncident_of_bars sameBars,
          fun same => (agree left right same).2⟩
      · exact ⟨fun same => absurd same different,
          fun same => absurd (agree left right same).2 different⟩
  refine ⟨decided, ?_⟩
  intro leftBars rightBars three alsoThree
  constructor
  · intro exact
    obtain ⟨first, second, third, rfl⟩ := List.length_eq_three.1 three
    obtain ⟨first', second', third', rfl⟩ := List.length_eq_three.1 alsoThree
    have same := (exact
      (beadInput first second third (first' + second' + third'))
      (beadInput first' second' third' (first + second + third))
      "" "" 0 0 (computed_beadInput _ _ _ _) (computed_beadInput _ _ _ _)
      (bars_beadInput _ _ _ _) (bars_beadInput _ _ _ _)).1 (by
        rw [dedupKey_fromInput, dedupKey_fromInput,
          key _ (computed_beadInput _ _ _ _),
          key _ (computed_beadInput _ _ _ _), computeDedupKey_beadInput,
          computeDedupKey_beadInput]
        have total :
            first + second + third + 3 + (first' + second' + third') =
              first' + second' + third' + 3 + (first + second + third) := by
          omega
        rw [total])
    simpa only [bars_beadInput] using (agree _ _ same).1
  · rintro rfl left right leftId rightId leftTime rightTime one other
      isLeft isRight
    exact (decided left right leftId rightId leftTime rightTime one other).2
      (.inl (isLeft.trans isRight.symm))

/-- The type `c` of the source `a|b`. -/
def barInSource : SignalInput where
  source := "a|b"
  eventType := "c"
  title := "t"

/-- The type `b|c` of the source `a`. -/
def barInType : SignalInput where
  source := "a"
  eventType := "b|c"
  title := "t"

theorem computed_barInSource : barInSource.Computed :=
  ⟨rfl, rfl, by decide⟩

theorem computed_barInType : barInType.Computed :=
  ⟨rfl, rfl, by decide⟩

/-- Two incidents with one key, whatever the digest. -/
theorem dedupKey_shared :
    barInSource.Computed ∧ barInType.Computed ∧
      (∀ (platform : Platform) leftId rightId leftTime rightTime,
        (Signal.fromInput platform leftId leftTime barInSource).dedupKey =
          (Signal.fromInput platform rightId rightTime
            barInType).dedupKey) ∧
      ¬ barInSource.SameIncident barInType := by
  refine ⟨computed_barInSource, computed_barInType, ?_, ?_⟩
  · intro platform leftId rightId leftTime rightTime
    simp [SignalInput.effectiveDedupKey, computeDedupKey, barInSource,
      barInType]
  · intro same
    exact absurd same.source (by decide)

/-- A digest without collisions that is the SHA-256 digest of
`a|b|c|t|`. -/
def barPlatform : Platform where
  sha256 := Equiv.swap "a|b|c|t|"
    "21939c0841bcdd18c62301f1faec9a75f5157ac255ef39e92099ce2f958f032b"
  showTime _ := ""

theorem dedupKey_identifies_iff_bars :
    (((Signal.fromInput barPlatform "l" 0 barInSource).dedupKey =
          (Signal.fromInput barPlatform "r" 1 barInType).dedupKey ↔
        barInSource.SameIncident barInType) ↔
      (barInSource.bars = barInType.bars ∨
        barInSource.pieces ≠ barInType.pieces)) ∧
      ∃ left right : SignalInput, left.Computed ∧ right.Computed ∧
        left.bars = [1, 0, 0] ∧ right.bars = [0, 1, 0] ∧
        ¬ ((Signal.fromInput barPlatform "l" 0 left).dedupKey =
            (Signal.fromInput barPlatform "r" 1 right).dedupKey ↔
          left.SameIncident right) := by
  have collisionFree : Function.Injective barPlatform.sha256 :=
    (Equiv.swap _ _).injective
  refine ⟨(dedupKey_identifies_iff collisionFree).1 _ _ _ _ _ _
    computed_barInSource computed_barInType, ?_⟩
  refine ⟨barInSource, barInType, computed_barInSource, computed_barInType,
    by decide, by decide, ?_⟩
  rw [(dedupKey_identifies_iff collisionFree).1 _ _ _ _ _ _
    computed_barInSource computed_barInType]
  decide

end OpsSignal
