import Mathlib.Data.Multiset.AddSub
import Mathlib.Data.Multiset.Filter
import Mathlib.Data.Multiset.Count

/-!
# A log that forgets

Entries stand in lanes and carry a time.  Each lane forgets its entries up
to a cutoff.  Questions that only look past the cutoff have the same
answer with and without the forgotten entries, and taking entries back
commutes with forgetting.

A log is spaced if any two entries of one kind are a gap apart, and
bounded if no window of one length holds too many entries of one lane.
Both survive taking entries back, and adding an entry that the respective
check lets through.
-/

namespace PrunedLog

universe u v

variable {Entry : Type u} {Lane : Type v} {lane : Entry → Lane}
  {time : Entry → Int}

instance decidableExistsEntry {log : Multiset Entry}
    {wanted : Entry → Prop} [DecidablePred wanted] :
    Decidable (∃ entry ∈ log, wanted entry) :=
  Multiset.decidableExistsMultiset

/-! ## Forgetting -/

/-- What is left once each lane has forgotten everything up to its
cutoff. -/
def kept
    (lane : Entry → Lane) (time : Entry → Int) (cutoff : Lane → Int)
    (log : Multiset Entry) : Multiset Entry :=
  log.filter fun entry => cutoff (lane entry) < time entry

theorem mem_kept {cutoff : Lane → Int} {log : Multiset Entry}
    {entry : Entry} :
    entry ∈ kept lane time cutoff log ↔
      entry ∈ log ∧ cutoff (lane entry) < time entry :=
  Multiset.mem_filter

/-- Counting entries past the cutoff. -/
theorem countP_kept
    {cutoff : Lane → Int} {log : Multiset Entry} {wanted : Entry → Prop}
    [DecidablePred wanted]
    (past : ∀ entry, wanted entry → cutoff (lane entry) < time entry) :
    (kept lane time cutoff log).countP wanted = log.countP wanted := by
  rw [kept, Multiset.countP_filter]
  apply Multiset.countP_congr rfl
  intro entry _
  rw [eq_iff_iff]
  constructor
  · intro both
    exact both.1
  · intro holds
    exact ⟨holds, past entry holds⟩

/-- Taking entries back from what is left is taking them back from the
whole log. -/
theorem kept_sub [DecidableEq Entry]
    (cutoff : Lane → Int) (log taken : Multiset Entry) :
    kept lane time cutoff log - taken =
      kept lane time cutoff (log - taken) := by
  ext entry
  rw [kept, kept, Multiset.count_sub, Multiset.count_filter,
    Multiset.count_filter, Multiset.count_sub]
  split
  · rfl
  · exact Nat.zero_sub _

/-- The cutoffs after one lane has forgotten up to a bound. -/
def raise [DecidableEq Lane]
    (cutoff : Lane → Int) (changed : Lane) (bound : Int) (other : Lane) :
    Int :=
  if other = changed then bound else cutoff other

/-- A new entry is added and its lane then forgets up to a later bound. -/
theorem kept_raise [DecidableEq Lane]
    {cutoff : Lane → Int} {log : Multiset Entry} {entry : Entry}
    {bound : Int} (later : cutoff (lane entry) ≤ bound)
    (fresh : bound < time entry) :
    (entry ::ₘ kept lane time cutoff log).filter
        (fun other => ¬ (lane other = lane entry ∧ time other ≤ bound)) =
      kept lane time (raise cutoff (lane entry) bound) (entry ::ₘ log) := by
  have stays : ¬ (lane entry = lane entry ∧ time entry ≤ bound) := by
    omega
  have newer : raise cutoff (lane entry) bound (lane entry) <
      time entry := by
    rw [raise, if_pos rfl]
    exact fresh
  have left : (entry ::ₘ kept lane time cutoff log).filter
      (fun other => ¬ (lane other = lane entry ∧ time other ≤ bound)) =
        entry ::ₘ (kept lane time cutoff log).filter
          fun other => ¬ (lane other = lane entry ∧ time other ≤ bound) :=
    Multiset.filter_cons_of_pos _ stays
  have right :
      kept lane time (raise cutoff (lane entry) bound) (entry ::ₘ log) =
        entry ::ₘ
          kept lane time (raise cutoff (lane entry) bound) log :=
    Multiset.filter_cons_of_pos _ newer
  rw [left, right, kept, kept, Multiset.filter_filter]
  congr 1
  apply Multiset.filter_congr
  intro other _
  by_cases same : lane other = lane entry
  · rw [raise, if_pos same, same]
    simp only [true_and, not_le]
    omega
  · rw [raise, if_neg same]
    simp [same]

/-! ## Spacing -/

/-- Any two entries of one kind are at least `gap` apart. -/
def Spaced
    (time : Entry → Int) (alike : Entry → Entry → Prop) (gap : Int)
    (log : Multiset Entry) : Prop :=
  ∀ first second, {first, second} ≤ log → alike first second →
    time first + gap ≤ time second ∨ time second + gap ≤ time first

variable {alike : Entry → Entry → Prop} {gap : Int}

theorem Spaced.of_le {log part : Multiset Entry}
    (spaced : Spaced time alike gap log) (le : part ≤ log) :
    Spaced time alike gap part :=
  fun first second pair same =>
    spaced first second (le_trans pair le) same

theorem spaced_zero : Spaced time alike gap 0 := by
  intro first second pair _
  have none := Multiset.card_le_card pair
  simp at none

/-- A new entry that is a gap away from each of its kind. -/
theorem Spaced.cons
    {log : Multiset Entry} {entry : Entry}
    (spaced : Spaced time alike gap log)
    (symmetric : ∀ first second, alike first second → alike second first)
    (apart : ∀ other ∈ log, alike other entry →
      time other + gap ≤ time entry ∨ time entry + gap ≤ time other) :
    Spaced time alike gap (entry ::ₘ log) := by
  intro first second pair same
  by_cases isFirst : first = entry
  · subst isFirst
    have rest : {second} ≤ log := (Multiset.cons_le_cons_iff first).mp pair
    have either := apart second (Multiset.singleton_le.mp rest)
      (symmetric _ _ same)
    exact either.symm
  · by_cases isSecond : second = entry
    · subst isSecond
      rw [Multiset.pair_comm] at pair
      have rest : {first} ≤ log :=
        (Multiset.cons_le_cons_iff second).mp pair
      exact apart first (Multiset.singleton_le.mp rest) same
    · have absent : entry ∉ ({first, second} : Multiset Entry) := by
        simp [Ne.symm isFirst, Ne.symm isSecond]
      exact spaced first second
        ((Multiset.le_cons_of_notMem absent).mp pair) same

/-! ## Windows -/

/-- How many entries of a lane lie in the window of length `length` that
ends at, and includes, `stop`. -/
def inWindow [DecidableEq Lane]
    (lane : Entry → Lane) (time : Entry → Int) (wanted : Lane)
    (length stop : Int) (log : Multiset Entry) : Nat :=
  log.countP fun entry =>
    lane entry = wanted ∧ stop - length < time entry ∧ time entry ≤ stop

/-- No window of the lane holds more than `most` entries. -/
def Bounded [DecidableEq Lane]
    (lane : Entry → Lane) (time : Entry → Int) (wanted : Lane)
    (length : Int) (most : Nat) (log : Multiset Entry) : Prop :=
  ∀ stop, inWindow lane time wanted length stop log ≤ most

variable [DecidableEq Lane] {wanted : Lane} {length : Int} {most : Nat}

theorem bounded_zero : Bounded lane time wanted length most 0 := by
  intro stop
  simp [inWindow]

theorem Bounded.of_le {log part : Multiset Entry}
    (bounded : Bounded lane time wanted length most log)
    (le : part ≤ log) : Bounded lane time wanted length most part :=
  fun stop => le_trans (Multiset.countP_le_of_le _ le) (bounded stop)

/-- A new last entry, let in while the window that ends with it has room. -/
theorem Bounded.cons
    {log : Multiset Entry} {entry : Entry}
    (bounded : Bounded lane time wanted length most log)
    (room : lane entry = wanted →
      log.countP (fun other => lane other = wanted ∧
        time entry - length < time other) < most) :
    Bounded lane time wanted length most (entry ::ₘ log) := by
  intro stop
  have before := bounded stop
  rw [inWindow] at before ⊢
  rw [Multiset.countP_cons]
  split
  · rename_i inside
    have fewer := room inside.1
    have covered :
        log.countP (fun other => lane other = wanted ∧
            stop - length < time other ∧ time other ≤ stop) ≤
          log.countP (fun other => lane other = wanted ∧
            time entry - length < time other) := by
      rw [Multiset.countP_eq_card_filter, Multiset.countP_eq_card_filter]
      apply Multiset.card_le_card
      apply Multiset.monotone_filter_right
      intro other within
      exact ⟨within.1, by omega⟩
    omega
  · omega

end PrunedLog
