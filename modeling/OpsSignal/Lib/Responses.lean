import Mathlib.Data.List.Basic

/-!
# Requests and responses in a trace

Some items of a trace ask for something, and some answer.  A trace is
answered if every item that asks has an item that answers after it.
-/

namespace Responses

universe u

variable {Item : Type u}

/-- Every item that asks is answered later on. -/
def Answered (asks answers : Item → Bool) : List Item → Prop
  | [] => True
  | item :: rest =>
      (asks item = true → ∃ later ∈ rest, answers later = true) ∧
        Answered asks answers rest

variable {asks answers : Item → Bool}

/-- Wherever the trace is split at an item that asks, the rest answers. -/
theorem answered_iff {trace : List Item} :
    Answered asks answers trace ↔
      ∀ before item after, trace = before ++ item :: after →
        asks item = true → ∃ later ∈ after, answers later = true := by
  induction trace with
  | nil => simp [Answered]
  | cons first rest inductionHypothesis =>
      rw [Answered, inductionHypothesis]
      constructor
      · rintro ⟨here, later⟩ before item after split asking
        cases before with
        | nil =>
            cases split
            exact here asking
        | cons head before =>
            cases split
            exact later before item after rfl asking
      · intro every
        refine ⟨every [] first rest rfl, ?_⟩
        intro before item after split
        exact every (first :: before) item after (by rw [split]; rfl)

/-- Where nothing asks there is nothing to answer. -/
theorem answered_of_quiet
    {trace : List Item} (quiet : ∀ item ∈ trace, asks item = false) :
    Answered asks answers trace := by
  rw [answered_iff]
  rintro before item after rfl asking
  rw [quiet item (by simp)] at asking
  cases asking

/-- What was answered stays answered while nothing asks. -/
theorem Answered.append
    {trace more : List Item} (answered : Answered asks answers trace)
    (quiet : ∀ item ∈ more, asks item = false) :
    Answered asks answers (trace ++ more) := by
  induction trace with
  | nil => exact answered_of_quiet quiet
  | cons item rest inductionHypothesis =>
      obtain ⟨here, later⟩ := answered
      refine ⟨fun asking => ?_, inductionHypothesis later⟩
      obtain ⟨answer, member, answering⟩ := here asking
      exact ⟨answer, List.mem_append_left _ member, answering⟩

/-- An answer answers everything before it. -/
theorem answered_of_answer
    {trace more : List Item} (quiet : ∀ item ∈ more, asks item = false)
    (answer : ∃ item ∈ more, answers item = true) :
    Answered asks answers (trace ++ more) := by
  induction trace with
  | nil => exact answered_of_quiet quiet
  | cons item rest inductionHypothesis =>
      refine ⟨fun _ => ?_, inductionHypothesis⟩
      obtain ⟨later, member, answering⟩ := answer
      exact ⟨later, List.mem_append_right _ member, answering⟩

end Responses
