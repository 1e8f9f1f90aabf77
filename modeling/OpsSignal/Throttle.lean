import OpsSignal.Lib.PrunedLog
import OpsSignal.RouteKey

/-!
# The throttle table

Route `dedup` and `rate_limit`.  Each admitted send is one row: the key of
the route, the signal's dedup key and the time in Unix milliseconds.  An
admission decides from the table, adds its row, and deletes the rows that
are older than both windows.
-/

namespace OpsSignal

open PrunedLog

structure Row where
  route : String
  dedupKey : String
  sentAt : Int
  deriving DecidableEq, Repr

/-- The rows in the order they were inserted. -/
abbrev Table := List Row

/-- The largest `i64`. -/
def i64Max : Int := 9223372036854775807

/-- The length of a window in milliseconds. -/
def Window.duration (window : Window) : Int :=
  1000 * window.secs.toNat

/-- `millis`: the length as an `i64`, which saturates. -/
def Window.millis (window : Window) : Int :=
  if window.duration ≤ i64Max then window.duration else i64Max

/-- `ago`. -/
def ago (ms : Int) : String :=
  let secs := (max ms 0 / 1000).toNat
  if secs ≤ 59 then toString secs ++ "s"
  else if secs ≤ 3599 then toString (secs / 60) ++ "m"
  else toString (secs / 3600) ++ "h"

/-- What one admission checks: the key its sends are kept under, and the
windows it reads. -/
structure Check where
  routeKey : String
  dedup : Option Window
  rate : Option RateLimit
  deriving DecidableEq, Repr

/-- `admit`: the rate limit of a grouped route counts its digests, so it
is not checked here. -/
def signalCheck (platform : Platform) (route : Route) : Check where
  routeKey := routeKey platform route
  dedup := route.dedup
  rate := if route.isGrouped then none else route.rateLimit

/-- `admit_digest`: digests are counted apart from the signals they
hold. -/
def digestCheck (platform : Platform) (route : Route) : Check where
  routeKey := routeKey platform route ++ "#digest"
  dedup := none
  rate := route.rateLimit

namespace Check

/-- The time of the newest row of a route and key. -/
def newest (check : Check) (key : String) (table : Table) : Option Int :=
  ((table.filter fun row =>
    row.route == check.routeKey && row.dedupKey == key).map
      Row.sentAt).max?

/-- The rows of a route that are newer than a time. -/
def sentSince (check : Check) (since : Int) (table : Table) : Nat :=
  table.countP fun row =>
    decide (row.route = check.routeKey ∧ since < row.sentAt)

def duplicateReason (window : Window) (elapsed : Int) : String :=
  "duplicate of a signal sent " ++ ago elapsed ++ " ago (dedup " ++
    window.display ++ ")"

def limitReason (limit : RateLimit) : String :=
  "rate limit of " ++ toString limit.max.toNat ++ " per " ++
    limit.per.display ++ " reached"

/-- Why the dedup window turns a signal down, if it does. -/
def duplicateOf
    (check : Check) (key : String) (now : Int) (table : Table) :
    Option String :=
  match check.dedup, check.newest key table with
  | some window, some last =>
      if now - last < window.millis then
        some (duplicateReason window (now - last))
      else
        none
  | _, _ => none

/-- Why the rate limit turns a signal down, if it does. -/
def overLimit (check : Check) (now : Int) (table : Table) :
    Option String :=
  match check.rate with
  | some limit =>
      if limit.max.toNat ≤
          check.sentSince (now - limit.per.millis) table then
        some (limitReason limit)
      else
        none
  | none => none

/-- Why a signal is turned down, if it is.  The dedup window is looked at
first. -/
def refusal
    (check : Check) (key : String) (now : Int) (table : Table) :
    Option String :=
  (check.duplicateOf key now table).or (check.overLimit now table)

/-- The longer of the two windows. -/
def keep (check : Check) : Window :=
  match check.dedup, check.rate with
  | some window, some limit =>
      if window.secs < limit.per.secs then limit.per else window
  | some window, none => window
  | none, some limit => limit.per
  | none, none => ⟨0⟩

/-- Rows older than both windows are deleted. -/
def prune (check : Check) (now : Int) (table : Table) : Table :=
  table.filter fun row =>
    ¬ (row.route = check.routeKey ∧ row.sentAt ≤ now - check.keep.millis)

/-- `try_admit`: one transaction, without storage errors. -/
def tryAdmit
    (check : Check) (key : String) (now : Int) (table : Table) :
    Except String Table :=
  match check.refusal key now table with
  | some reason => .error reason
  | none =>
      .ok (check.prune now (table ++ [⟨check.routeKey, key, now⟩]))

end Check

/-- The sends recorded for one signal, so they can be taken back if
delivery fails. -/
structure Admission where
  rows : List Row := []
  deriving DecidableEq, Repr

/-- `split_off`: what is left, and the sends recorded for the route. -/
def Admission.splitOff
    (platform : Platform) (route : Route) (admission : Admission) :
    Admission × Admission :=
  let mine := fun row : Row => row.route == routeKey platform route
  (⟨admission.rows.filter fun row => !mine row⟩,
    ⟨admission.rows.filter mine⟩)

/-- What an admission works on: the table, and the sends of the signal so
far. -/
abbrev Ledger := Table × Admission

/-- `check`: a route without windows is not looked up at all. -/
def Check.run
    (check : Check) (key : String) (now : Int) (ledger : Ledger) :
    Except String Unit × Ledger :=
  if check.dedup.isNone && check.rate.isNone then
    (.ok (), ledger)
  else
    match check.tryAdmit key now ledger.1 with
    | .ok table =>
        (.ok (),
          (table,
            ⟨ledger.2.rows ++ [⟨check.routeKey, key, now⟩]⟩))
    | .error reason => (.error reason, ledger)

/-- `release`: each recorded send takes one equal row out of the table. -/
def release (admission : Admission) (table : Table) : Table :=
  admission.rows.foldl List.erase table

/-- The key a signal's sends are recorded under. -/
def throttleKey (signal : Signal) : String :=
  signal.dedupKey.getD ""

/-- The gate of `plan_signal`: every route is asked at the same time. -/
def throttleGate
    (platform : Platform) (signal : Signal) (now : Int) : Gate Ledger :=
  fun route ledger =>
    (signalCheck platform route).run (throttleKey signal) now ledger

/-! ## What the operations do -/

theorem coe_release (admission : Admission) (table : Table) :
    ((release admission table : Table) : Multiset Row) =
      (table : Multiset Row) - (admission.rows : Multiset Row) := by
  rw [release]
  induction admission.rows generalizing table with
  | nil => simp
  | cons row rest inductionHypothesis =>
      rw [List.foldl_cons, inductionHypothesis, ← Multiset.coe_erase,
        ← Multiset.cons_coe, ← Multiset.sub_cons]

/-- Splitting an admission keeps all of its sends. -/
theorem coe_splitOff
    (platform : Platform) (route : Route) (admission : Admission) :
    ((admission.splitOff platform route).1.rows : Multiset Row) +
        ((admission.splitOff platform route).2.rows : Multiset Row) =
      (admission.rows : Multiset Row) := by
  rw [Multiset.coe_add, Multiset.coe_eq_coe]
  exact List.perm_append_comm.trans (List.filter_append_perm _ _)

private theorem mem_sameKey
    {check : Check} {key : String} {table : Table} {moment : Int} :
    moment ∈ (table.filter fun row =>
        row.route == check.routeKey && row.dedupKey == key).map
          Row.sentAt ↔
      ⟨check.routeKey, key, moment⟩ ∈ table := by
  constructor
  · intro member
    obtain ⟨row, inTable, rfl⟩ := List.mem_map.mp member
    rw [List.mem_filter, Bool.and_eq_true, beq_iff_eq,
      beq_iff_eq] at inTable
    obtain ⟨member, sameRoute, sameKey⟩ := inTable
    rw [← sameRoute, ← sameKey]
    exact member
  · intro member
    exact List.mem_map.mpr ⟨_, List.mem_filter.mpr ⟨member, by simp⟩, rfl⟩

/-- Whether some row of the same route and key is younger than the dedup
window. -/
def Duplicated
    (check : Check) (key : String) (now : Int) (rows : Multiset Row) :
    Prop :=
  ∃ window, check.dedup = some window ∧
    ∃ row ∈ rows, row.route = check.routeKey ∧ row.dedupKey = key ∧
      now - row.sentAt < window.millis

/-- Whether the rate limit is used up by the rows younger than its
window. -/
def LimitReached
    (check : Check) (now : Int) (rows : Multiset Row) : Prop :=
  ∃ limit, check.rate = some limit ∧
    limit.max.toNat ≤
      rows.countP fun row =>
        row.route = check.routeKey ∧ now - limit.per.millis < row.sentAt

instance (check : Check) (key : String) (now : Int)
    (rows : Multiset Row) : Decidable (Duplicated check key now rows) :=
  decidable_of_iff
    (∃ window ∈ check.dedup, ∃ row ∈ rows,
      row.route = check.routeKey ∧ row.dedupKey = key ∧
        now - row.sentAt < window.millis)
    Iff.rfl

instance (check : Check) (now : Int) (rows : Multiset Row) :
    Decidable (LimitReached check now rows) :=
  decidable_of_iff
    (∃ limit ∈ check.rate, limit.max.toNat ≤
      rows.countP fun row =>
        row.route = check.routeKey ∧ now - limit.per.millis < row.sentAt)
    Iff.rfl

theorem isSome_duplicateOf
    (check : Check) (key : String) (now : Int) (table : Table) :
    (check.duplicateOf key now table).isSome = true ↔
      Duplicated check key now table := by
  constructor
  · intro refused
    cases window : check.dedup with
    | none => simp [Check.duplicateOf, window] at refused
    | some window' =>
        cases last : check.newest key table with
        | none => simp [Check.duplicateOf, window, last] at refused
        | some moment =>
            have newest := (List.max?_eq_some_iff.mp last).1
            have inTable := mem_sameKey.mp newest
            rw [Check.duplicateOf, window, last] at refused
            dsimp only at refused
            split at refused
            · rename_i young
              exact ⟨window', window, _, inTable, rfl, rfl, young⟩
            · cases refused
  · rintro ⟨window, isWindow, row, member, sameRoute, sameKey, young⟩
    have inTable : ⟨check.routeKey, key, row.sentAt⟩ ∈ table := by
      rw [← sameRoute, ← sameKey]
      exact member
    have listed := mem_sameKey.mpr inTable
    cases last : check.newest key table with
    | none =>
        rw [Check.newest, List.max?_eq_none_iff] at last
        rw [last] at listed
        cases listed
    | some moment =>
        have newest := (List.max?_eq_some_iff.mp last).2 _ listed
        have alsoYoung : now - moment < window.millis := by omega
        simp [Check.duplicateOf, isWindow, last, alsoYoung]

theorem isSome_overLimit
    (check : Check) (now : Int) (table : Table) :
    (check.overLimit now table).isSome = true ↔
      LimitReached check now table := by
  have counted : ∀ since : Int, check.sentSince since table =
      (table : Multiset Row).countP fun row =>
        row.route = check.routeKey ∧ since < row.sentAt := by
    intro since
    rw [Multiset.coe_countP]
    rfl
  rw [Check.overLimit, LimitReached]
  cases check.rate with
  | none => simp
  | some limit =>
      dsimp only
      rw [counted]
      constructor
      · intro refused
        split at refused
        · rename_i reached
          exact ⟨limit, rfl, reached⟩
        · cases refused
      · rintro ⟨other, same, reached⟩
        cases same
        rw [if_pos reached]
        rfl

/-- A signal is turned down exactly as a duplicate or over the limit. -/
theorem isSome_refusal
    (check : Check) (key : String) (now : Int) (table : Table) :
    (check.refusal key now table).isSome = true ↔
      Duplicated check key now table ∨ LimitReached check now table := by
  rw [Check.refusal, Option.isSome_or, Bool.or_eq_true,
    isSome_duplicateOf, isSome_overLimit]

theorem not_refused_of_no_windows
    {check : Check} (none : (check.dedup.isNone && check.rate.isNone) = true)
    (key : String) (now : Int) (rows : Multiset Row) :
    ¬ (Duplicated check key now rows ∨ LimitReached check now rows) := by
  rw [Bool.and_eq_true, Option.isNone_iff_eq_none,
    Option.isNone_iff_eq_none] at none
  rintro (⟨window, isWindow, _⟩ | ⟨limit, isLimit, _⟩)
  · rw [none.1] at isWindow
    cases isWindow
  · rw [none.2] at isLimit
    cases isLimit

/-- Everything one check does: it lets the signal through without a
record because there is nothing to check, or it turns it down and changes
nothing, or it records the send and prunes. -/
theorem run_cases
    (check : Check) (key : String) (now : Int) (ledger : Ledger) :
    ((check.dedup.isNone && check.rate.isNone) = true ∧
        check.run key now ledger = (.ok (), ledger)) ∨
      (∃ reason, check.refusal key now ledger.1 = some reason ∧
        check.run key now ledger = (.error reason, ledger)) ∨
      ((check.dedup.isNone && check.rate.isNone) = false ∧
        check.refusal key now ledger.1 = none ∧
        check.run key now ledger =
          (.ok (),
            (check.prune now
                (ledger.1 ++ [⟨check.routeKey, key, now⟩]),
              ⟨ledger.2.rows ++ [⟨check.routeKey, key, now⟩]⟩))) := by
  cases windows : check.dedup.isNone && check.rate.isNone with
  | true => exact Or.inl ⟨rfl, by simp [Check.run, windows]⟩
  | false =>
      cases decided : check.refusal key now ledger.1 with
      | some reason =>
          refine Or.inr (Or.inl ⟨reason, rfl, ?_⟩)
          simp [Check.run, windows, Check.tryAdmit, decided]
      | none =>
          refine Or.inr (Or.inr ⟨rfl, rfl, ?_⟩)
          simp [Check.run, windows, Check.tryAdmit, decided]

/-- Pruning and inserting, on the bag of rows. -/
theorem coe_prune_append
    (check : Check) (key : String) (now : Int) (table : Table) :
    ((check.prune now (table ++ [⟨check.routeKey, key, now⟩]) : Table) :
        Multiset Row) =
      ((⟨check.routeKey, key, now⟩ : Row) ::ₘ
          (table : Multiset Row)).filter
        fun row => ¬ (row.route = check.routeKey ∧
          row.sentAt ≤ now - check.keep.millis) := by
  have moved :
      ((table ++ [⟨check.routeKey, key, now⟩] : Table) : Multiset Row) =
        (⟨check.routeKey, key, now⟩ : Row) ::ₘ (table : Multiset Row) := by
    rw [← Multiset.coe_add, Multiset.coe_singleton, Multiset.add_comm]
    rfl
  rw [Check.prune, ← moved, Multiset.filter_coe]

/-! ## Lengths of windows -/

/-- Saturation does not matter for a difference of times. -/
theorem lt_millis_iff {window : Window} {elapsed : Int}
    (short : elapsed < i64Max) :
    elapsed < window.millis ↔ elapsed < window.duration := by
  rw [Window.millis]
  split <;> omega

theorem millis_le_i64Max (window : Window) : window.millis ≤ i64Max := by
  rw [Window.millis]
  split <;> omega

theorem millis_le_millis {shorter longer : Window}
    (le : shorter.secs.toNat ≤ longer.secs.toNat) :
    shorter.millis ≤ longer.millis := by
  have durations : shorter.duration ≤ longer.duration := by
    rw [Window.duration, Window.duration]
    omega
  rw [Window.millis, Window.millis]
  split <;> split <;> omega

theorem millis_pos {window : Window} (positive : 0 < window.duration) :
    0 < window.millis := by
  have largest : 0 < i64Max := by decide
  rw [Window.millis]
  split <;> omega

namespace Check

/-- Rows are kept for as long as either window. -/
theorem dedup_le_keep {check : Check} {window : Window}
    (isWindow : check.dedup = some window) :
    window.millis ≤ check.keep.millis := by
  rw [keep, isWindow]
  cases check.rate with
  | none => exact le_rfl
  | some limit =>
      dsimp only
      split
      · rename_i longer
        have less := UInt64.lt_iff_toNat_lt.mp longer
        exact millis_le_millis (Nat.le_of_lt less)
      · exact le_rfl

theorem rate_le_keep {check : Check} {limit : RateLimit}
    (isLimit : check.rate = some limit) :
    limit.per.millis ≤ check.keep.millis := by
  rw [keep, isLimit]
  cases check.dedup with
  | none => exact le_rfl
  | some window =>
      dsimp only
      split
      · exact le_rfl
      · rename_i notLonger
        have notLess := mt UInt64.lt_iff_toNat_lt.mpr notLonger
        exact millis_le_millis (Nat.le_of_not_lt notLess)

theorem keep_pos {check : Check}
    (someWindow : (check.dedup.isNone && check.rate.isNone) = false)
    (positiveDedup : ∀ window ∈ check.dedup, 0 < window.duration)
    (positiveRate : ∀ limit ∈ check.rate, 0 < limit.per.duration) :
    0 < check.keep.millis := by
  cases isWindow : check.dedup with
  | some window =>
      have longer := dedup_le_keep isWindow
      have positive := millis_pos (positiveDedup window isWindow)
      omega
  | none =>
      cases isLimit : check.rate with
      | some limit =>
          have longer := rate_le_keep isLimit
          have positive := millis_pos (positiveRate limit isLimit)
          omega
      | none => simp [isWindow, isLimit] at someWindow

end Check

end OpsSignal
