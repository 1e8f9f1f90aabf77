import OpsSignal.Lib.Holdings
import OpsSignal.Lib.LabelledRuns
import OpsSignal.Throttle

/-!
# Histories of the throttle

Any sequence of admissions, splits and releases, one transaction at a
time.  The sends that count are those of the admissions that were not
released.  The table holds exactly these, apart from sends so old that no
window reaches them, so the table decides as the full history would.
-/

namespace OpsSignal

open Holdings LabelledRuns PrunedLog

/-- One call.  A slot is an `Admission` some caller holds. -/
inductive ThrottleCall where
  /-- `Admission::default()`. -/
  | fresh
  | signal (slot : Nat) (route : Route) (key : String) (now : Int)
  | digest (slot : Nat) (route : Route) (key : String) (now : Int)
  | split (slot : Nat) (route : Route)
  | release (slot : Nat)

structure Slot where
  admission : Admission := {}
  released : Bool := false
  deriving DecidableEq, Repr

/-- The sends of a slot that count. -/
def Slot.sends (slot : Slot) : Multiset Row :=
  if slot.released then 0 else (slot.admission.rows : Multiset Row)

structure History where
  table : Table := []
  slots : List Slot := []
  /-- The time of the latest admission that was asked for. -/
  last : Int := 0

/-- Admitted sends that were not released. -/
def History.sends (history : History) : Multiset Row :=
  held Slot.sends history.slots

/-- What an admission asks: the check, the slot, the key and the time. -/
def ThrottleCall.asks (platform : Platform) :
    ThrottleCall → Option (Check × Nat × String × Int)
  | .signal slot route key now =>
      some (signalCheck platform route, slot, key, now)
  | .digest slot route key now =>
      some (digestCheck platform route, slot, key, now)
  | _ => none

/-- The answer of an admission and the history after it. -/
def History.ask
    (check : Check) (slot : Nat) (key : String) (now : Int)
    (history : History) : Option (Except String Unit × History) :=
  match history.slots[slot]? with
  | none => none
  | some current =>
      let result := check.run key now (history.table, current.admission)
      some (result.1,
        { table := result.2.1
          slots := history.slots.set slot
            { current with admission := result.2.2 }
          last := now })

def History.step (platform : Platform) (history : History) :
    ThrottleCall → Option History
  | .fresh => some { history with slots := history.slots ++ [{}] }
  | .signal slot route key now =>
      (history.ask (signalCheck platform route) slot key now).map Prod.snd
  | .digest slot route key now =>
      (history.ask (digestCheck platform route) slot key now).map Prod.snd
  | .split slot route =>
      match history.slots[slot]? with
      | none => none
      | some current =>
          let parts := current.admission.splitOff platform route
          some
            { history with
              slots :=
                history.slots.set slot { current with admission := parts.1 }
                  ++ [{ admission := parts.2 }] }
  | .release slot =>
      match history.slots[slot]? with
      | none => none
      | some current =>
          some
            { history with
              table := release current.admission history.table
              slots :=
                history.slots.set slot { current with released := true } }

/-! ## What callers promise -/

/-- The clock does not go back, and stays below the largest `i64`. -/
def Timely (history : History) (now : Int) : Prop :=
  history.last ≤ now ∧ now < i64Max

/-- The admission of the slot was not released before. -/
def Live (history : History) (slot : Nat) : Prop :=
  ∀ current, history.slots[slot]? = some current →
    current.released = false

def Orderly (routes : List Route) (history : History) :
    ThrottleCall → Prop
  | .fresh => True
  | .signal slot route _ now =>
      route ∈ routes ∧ Timely history now ∧ Live history slot
  | .digest slot route _ now =>
      route ∈ routes ∧ Timely history now ∧ Live history slot
  | .split slot _ => Live history slot
  | .release slot => Live history slot

instance (history : History) (now : Int) :
    Decidable (Timely history now) :=
  inferInstanceAs (Decidable (_ ∧ _))

instance (history : History) (slot : Nat) :
    Decidable (Live history slot) :=
  decidable_of_iff
    ((history.slots[slot]?.all fun current => !current.released) = true)
    (by simp [Live, Option.all_eq_true])

instance (routes : List Route) (history : History) :
    ∀ call, Decidable (Orderly routes history call)
  | .fresh => inferInstanceAs (Decidable True)
  | .signal .. => inferInstanceAs (Decidable (_ ∧ _ ∧ _))
  | .digest .. => inferInstanceAs (Decidable (_ ∧ _ ∧ _))
  | .split slot _ => inferInstanceAs (Decidable (Live history slot))
  | .release slot => inferInstanceAs (Decidable (Live history slot))

/-- Every window is longer than nothing. -/
def PositiveWindows (routes : List Route) : Prop :=
  ∀ route ∈ routes, (∀ window ∈ route.dedup, 0 < window.duration) ∧
    ∀ limit ∈ route.rateLimit, 0 < limit.per.duration

/-- The checks the routes can ask for. -/
def checksOf (platform : Platform) (routes : List Route) : List Check :=
  routes.map (signalCheck platform) ++ routes.map (digestCheck platform)

/-- A key belongs to one check. -/
theorem eq_of_mem_checksOf
    {platform : Platform} {routes : List Route}
    (keys : KeysApart platform routes) {left right : Check}
    (leftMember : left ∈ checksOf platform routes)
    (rightMember : right ∈ checksOf platform routes)
    (same : left.routeKey = right.routeKey) : left = right := by
  have noHash : ∀ route ∈ routes, ∀ other ∈ routes,
      routeKey platform route ≠ routeKey platform other ++ "#digest" := by
    intro route member other _ equal
    apply keys.hexadecimal route member
    rw [show platform.sha256 route.serialize.text =
      routeKey platform route from rfl, equal, String.toList_append]
    simp
  simp only [checksOf, List.mem_append,
    List.mem_map] at leftMember rightMember
  rcases leftMember with ⟨leftRoute, leftListed, rfl⟩ |
    ⟨leftRoute, leftListed, rfl⟩
  · rcases rightMember with ⟨rightRoute, rightListed, rfl⟩ |
      ⟨rightRoute, rightListed, rfl⟩
    · have sameRoute :=
        eq_of_routeKey_eq keys leftListed rightListed same
      rw [sameRoute]
    · exact absurd same (noHash _ leftListed _ rightListed)
  · rcases rightMember with ⟨rightRoute, rightListed, rfl⟩ |
      ⟨rightRoute, rightListed, rfl⟩
    · exact absurd same.symm (noHash _ rightListed _ leftListed)
    · have chars := congrArg String.toList same
      simp only [digestCheck, String.toList_append] at chars
      have sameKey := String.toList_inj.mp (List.append_cancel_right chars)
      have sameRoute :=
        eq_of_routeKey_eq keys leftListed rightListed sameKey
      rw [sameRoute]

theorem positive_of_mem_checksOf
    {platform : Platform} {routes : List Route}
    (positive : PositiveWindows routes) {check : Check}
    (member : check ∈ checksOf platform routes) :
    (∀ window ∈ check.dedup, 0 < window.duration) ∧
      ∀ limit ∈ check.rate, 0 < limit.per.duration := by
  simp only [checksOf, List.mem_append, List.mem_map] at member
  rcases member with ⟨route, listed, rfl⟩ | ⟨route, listed, rfl⟩
  · refine ⟨(positive route listed).1, ?_⟩
    intro limit isLimit
    rw [signalCheck] at isLimit
    dsimp only at isLimit
    split at isLimit
    · cases isLimit
    · exact (positive route listed).2 limit isLimit
  · refine ⟨?_, (positive route listed).2⟩
    intro window isWindow
    cases isWindow

theorem check_mem_of_orderly
    {platform : Platform} {routes : List Route} {history : History}
    {call : ThrottleCall} {check : Check} {slot : Nat} {key : String}
    {now : Int} (orderly : Orderly routes history call)
    (asks : call.asks platform = some (check, slot, key, now)) :
    check ∈ checksOf platform routes ∧ Timely history now ∧
      Live history slot := by
  cases call with
  | fresh | split | release => cases asks
  | signal slot route key now =>
      cases asks
      obtain ⟨listed, timely, live⟩ := orderly
      exact ⟨List.mem_append_left _ (List.mem_map_of_mem listed), timely,
        live⟩
  | digest slot route key now =>
      cases asks
      obtain ⟨listed, timely, live⟩ := orderly
      exact ⟨List.mem_append_right _ (List.mem_map_of_mem listed), timely,
        live⟩

/-! ## The specification -/

/-- When an admission has to be refused, from the sends that count. -/
def Refused
    (check : Check) (key : String) (now : Int) (sends : Multiset Row) :
    Prop :=
  (∃ window, check.dedup = some window ∧
      ∃ row ∈ sends, row.route = check.routeKey ∧ row.dedupKey = key ∧
        now - row.sentAt < window.duration) ∨
    ∃ limit, check.rate = some limit ∧
      limit.max.toNat ≤
        sends.countP fun row =>
          row.route = check.routeKey ∧
            now - limit.per.duration < row.sentAt

instance (check : Check) (key : String) (now : Int)
    (sends : Multiset Row) : Decidable (Refused check key now sends) :=
  decidable_of_iff
    ((∃ window ∈ check.dedup, ∃ row ∈ sends,
        row.route = check.routeKey ∧ row.dedupKey = key ∧
          now - row.sentAt < window.duration) ∨
      ∃ limit ∈ check.rate, limit.max.toNat ≤
        sends.countP fun row =>
          row.route = check.routeKey ∧
            now - limit.per.duration < row.sentAt)
    Iff.rfl

/-- Two sends of one route and one dedup key. -/
def SameSend (routeKey : String) (first second : Row) : Prop :=
  first.route = routeKey ∧ second.route = routeKey ∧
    first.dedupKey = second.dedupKey

/-- The table and the history agree, and the windows are kept. -/
structure Faithful
    (platform : Platform) (routes : List Route) (history : History) :
    Prop where
  started : 0 ≤ history.last
  times : ∀ row ∈ history.sends,
    0 ≤ row.sentAt ∧ row.sentAt ≤ history.last
  pruned : ∃ cutoff : String → Int,
    (history.table : Multiset Row) =
        kept Row.route Row.sentAt cutoff history.sends ∧
      ∀ check ∈ checksOf platform routes,
        cutoff check.routeKey + check.keep.millis ≤ history.last
  spaced : ∀ check ∈ checksOf platform routes,
    ∀ window ∈ check.dedup,
      Spaced Row.sentAt (SameSend check.routeKey) window.duration
        history.sends
  bounded : ∀ check ∈ checksOf platform routes, ∀ limit ∈ check.rate,
    Bounded Row.route Row.sentAt check.routeKey limit.per.duration
      limit.max.toNat history.sends

section Histories

variable {platform : Platform} {routes : List Route} {history : History}

theorem faithful_initial : Faithful platform routes {} where
  started := le_rfl
  times row member := by
    simp [History.sends] at member
  pruned := by
    refine ⟨fun _ => -i64Max, by simp [History.sends, kept], ?_⟩
    intro check _
    have most := millis_le_i64Max check.keep
    show -i64Max + check.keep.millis ≤ 0
    omega
  spaced check _ window _ := spaced_zero
  bounded check _ limit _ := bounded_zero

/-- The table decides as the full history does. -/
theorem refusal_iff
    (faithful : Faithful platform routes history)
    {check : Check} (listed : check ∈ checksOf platform routes)
    {now : Int} (timely : Timely history now) (key : String) :
    (check.refusal key now history.table).isSome = true ↔
      Refused check key now history.sends := by
  obtain ⟨cutoff, table, old⟩ := faithful.pruned
  have past := old check listed
  obtain ⟨notBefore, belowMax⟩ := timely
  have duplicated : Duplicated check key now history.table ↔
      ∃ window, check.dedup = some window ∧
        ∃ row ∈ history.sends, row.route = check.routeKey ∧
          row.dedupKey = key ∧ now - row.sentAt < window.duration := by
    apply exists_congr
    intro window
    apply and_congr_right
    intro isWindow
    have shorter := Check.dedup_le_keep isWindow
    rw [table]
    constructor
    · rintro ⟨row, inTable, sameRoute, sameKey, young⟩
      have inSends := (mem_kept.mp inTable).1
      have times := faithful.times row inSends
      have short : now - row.sentAt < i64Max := by omega
      exact ⟨row, inSends, sameRoute, sameKey,
        (lt_millis_iff short).mp young⟩
    · rintro ⟨row, inSends, sameRoute, sameKey, young⟩
      have times := faithful.times row inSends
      have short : now - row.sentAt < i64Max := by omega
      have youngMillis := (lt_millis_iff short).mpr young
      refine ⟨row, mem_kept.mpr ⟨inSends, ?_⟩, sameRoute, sameKey,
        youngMillis⟩
      rw [sameRoute]
      omega
  have limited : LimitReached check now history.table ↔
      ∃ limit, check.rate = some limit ∧
        limit.max.toNat ≤
          history.sends.countP fun row =>
            row.route = check.routeKey ∧
              now - limit.per.duration < row.sentAt := by
    apply exists_congr
    intro limit
    apply and_congr_right
    intro isLimit
    have shorter := Check.rate_le_keep isLimit
    have counted :
        (history.table : Multiset Row).countP (fun row =>
            row.route = check.routeKey ∧
              now - limit.per.millis < row.sentAt) =
          history.sends.countP (fun row =>
            row.route = check.routeKey ∧
              now - limit.per.duration < row.sentAt) := by
      rw [table, countP_kept]
      · apply Multiset.countP_congr rfl
        intro row member
        have times := faithful.times row member
        have short : now - row.sentAt < i64Max := by omega
        have same := @lt_millis_iff limit.per _ short
        rw [eq_iff_iff]
        apply and_congr_right
        intro _
        omega
      · rintro row ⟨sameRoute, young⟩
        rw [sameRoute]
        omega
    rw [counted]
  rw [isSome_refusal, duplicated, limited]
  rfl

/-- Nothing changes but the clock, or nothing at all. -/
theorem Faithful.of_same
    {next : History} (faithful : Faithful platform routes history)
    (sameTable : next.table = history.table)
    (sameSends : next.sends = history.sends)
    (later : history.last ≤ next.last) :
    Faithful platform routes next where
  started := le_trans faithful.started later
  times row member := by
    rw [sameSends] at member
    have times := faithful.times row member
    exact ⟨times.1, le_trans times.2 later⟩
  pruned := by
    obtain ⟨cutoff, table, old⟩ := faithful.pruned
    refine ⟨cutoff, by rw [sameTable, sameSends, table], ?_⟩
    intro check listed
    exact le_trans (old check listed) later
  spaced check listed window isWindow := by
    rw [sameSends]
    exact faithful.spaced check listed window isWindow
  bounded check listed limit isLimit := by
    rw [sameSends]
    exact faithful.bounded check listed limit isLimit

/-- A send that was let through joins the history. -/
theorem Faithful.of_recorded
    (keys : KeysApart platform routes) (positive : PositiveWindows routes)
    {next : History} (faithful : Faithful platform routes history)
    {check : Check} (listed : check ∈ checksOf platform routes)
    {key : String} {now : Int} (timely : Timely history now)
    (someWindow : (check.dedup.isNone && check.rate.isNone) = false)
    (accepted : check.refusal key now history.table = none)
    (table : next.table =
      check.prune now (history.table ++ [⟨check.routeKey, key, now⟩]))
    (sends : next.sends =
      (⟨check.routeKey, key, now⟩ : Row) ::ₘ history.sends)
    (last : next.last = now) :
    Faithful platform routes next := by
  have decided := refusal_iff faithful listed timely key
  rw [accepted] at decided
  have notRefused : ¬ Refused check key now history.sends := by
    intro refused
    cases decided.mpr refused
  have windows := positive_of_mem_checksOf positive listed
  have longKeep := Check.keep_pos someWindow windows.1 windows.2
  obtain ⟨notBefore, _⟩ := timely
  have started := faithful.started
  refine
    { started := by omega
      times := ?_
      pruned := ?_
      spaced := ?_
      bounded := ?_ }
  · intro row member
    rw [sends, Multiset.mem_cons] at member
    rcases member with rfl | earlier
    · exact ⟨le_trans started notBefore, le_of_eq last.symm⟩
    · have times := faithful.times row earlier
      exact ⟨times.1, by omega⟩
  · obtain ⟨cutoff, tableBefore, old⟩ := faithful.pruned
    have past := old check listed
    refine ⟨raise cutoff check.routeKey (now - check.keep.millis), ?_, ?_⟩
    · have added := @kept_raise Row String Row.route Row.sentAt _ cutoff
        history.sends ⟨check.routeKey, key, now⟩ (now - check.keep.millis)
        (by dsimp only; omega) (by dsimp only; omega)
      rw [table, coe_prune_append, tableBefore, sends]
      exact added
    · intro other otherListed
      by_cases same : other.routeKey = check.routeKey
      · have sameCheck := eq_of_mem_checksOf keys otherListed listed same
        rw [sameCheck, raise, if_pos rfl]
        omega
      · have otherPast := old other otherListed
        rw [raise, if_neg same]
        omega
  · intro other otherListed window isWindow
    rw [sends]
    apply (faithful.spaced other otherListed window isWindow).cons
    · intro first second same
      exact ⟨same.2.1, same.1, same.2.2.symm⟩
    · intro row member same
      have sameCheck :=
        eq_of_mem_checksOf keys otherListed listed same.2.1.symm
      rw [sameCheck] at isWindow same
      left
      by_contra young
      apply notRefused
      refine Or.inl ⟨window, isWindow, row, member, same.1, same.2.2, ?_⟩
      dsimp only at young
      omega
  · intro other otherListed limit isLimit
    rw [sends]
    apply (faithful.bounded other otherListed limit isLimit).cons
    intro sameRoute
    have sameCheck :=
      eq_of_mem_checksOf keys otherListed listed sameRoute.symm
    rw [sameCheck] at isLimit ⊢
    by_contra full
    exact notRefused (Or.inr ⟨limit, isLimit, Nat.le_of_not_lt full⟩)

/-- Releasing an admission takes its sends, and no others, out of the
history and out of the table. -/
theorem Faithful.of_released
    {next : History} (faithful : Faithful platform routes history)
    {admission : Admission}
    (table : next.table = release admission history.table)
    (sends : next.sends =
      history.sends - (admission.rows : Multiset Row))
    (last : next.last = history.last) :
    Faithful platform routes next := by
  have fewer : next.sends ≤ history.sends := by
    rw [sends]
    exact Multiset.sub_le_self _ _
  refine
    { started := by rw [last]; exact faithful.started
      times := ?_
      pruned := ?_
      spaced := ?_
      bounded := ?_ }
  · intro row member
    rw [last]
    exact faithful.times row (Multiset.mem_of_le fewer member)
  · obtain ⟨cutoff, tableBefore, old⟩ := faithful.pruned
    refine ⟨cutoff, ?_, by rw [last]; exact old⟩
    rw [table, coe_release, tableBefore, kept_sub, sends]
  · intro check listed window isWindow
    exact (faithful.spaced check listed window isWindow).of_le fewer
  · intro check listed limit isLimit
    exact (faithful.bounded check listed limit isLimit).of_le fewer

/-! ## One step -/

private theorem sends_set_live
    {slot : Nat} {current : Slot}
    (found : history.slots[slot]? = some current)
    (live : current.released = false) :
    ∃ rest, history.sends = (current.admission.rows : Multiset Row) + rest ∧
      ∀ new, held Slot.sends (history.slots.set slot new) =
        new.sends + rest := by
  obtain ⟨rest, before, after⟩ := @exists_rest _ _ Slot.sends _ _ _ found
  refine ⟨rest, ?_, after⟩
  rw [History.sends, before, Slot.sends, live]
  rfl

/-- Everything an admission can do. -/
theorem ask_cases
    {check : Check} {slot : Nat} {key : String} {now : Int}
    {answer : Except String Unit} {next : History}
    (live : Live history slot)
    (asked : history.ask check slot key now = some (answer, next)) :
    next.last = now ∧
      (((check.dedup.isNone && check.rate.isNone) = true ∧
          answer = .ok () ∧ next.table = history.table ∧
          next.sends = history.sends) ∨
        (∃ reason, check.refusal key now history.table = some reason ∧
          answer = .error reason ∧ next.table = history.table ∧
          next.sends = history.sends) ∨
        ((check.dedup.isNone && check.rate.isNone) = false ∧
          check.refusal key now history.table = none ∧
          answer = .ok () ∧
          next.table = check.prune now
            (history.table ++ [⟨check.routeKey, key, now⟩]) ∧
          next.sends =
            (⟨check.routeKey, key, now⟩ : Row) ::ₘ history.sends)) := by
  rw [History.ask] at asked
  cases found : history.slots[slot]? with
  | none =>
      rw [found] at asked
      cases asked
  | some current =>
      rw [found] at asked
      simp only [Option.some.injEq, Prod.mk.injEq] at asked
      obtain ⟨rfl, rfl⟩ := asked
      have unreleased := live current found
      obtain ⟨rest, before, after⟩ := sends_set_live found unreleased
      refine ⟨rfl, ?_⟩
      rcases run_cases check key now (history.table, current.admission) with
        ⟨none, ran⟩ | ⟨reason, refused, ran⟩ | ⟨some, accepted, ran⟩
      · refine Or.inl ⟨none, ?_, ?_, ?_⟩
        · rw [ran]
        · rw [ran]
        · rw [ran, History.sends, after, before, Slot.sends, unreleased]
          rfl
      · refine Or.inr (Or.inl ⟨reason, refused, ?_, ?_, ?_⟩)
        · rw [ran]
        · rw [ran]
        · rw [ran, History.sends, after, before, Slot.sends, unreleased]
          rfl
      · refine Or.inr (Or.inr ⟨some, accepted, ?_, ?_, ?_⟩)
        · rw [ran]
        · rw [ran]
        · rw [ran, History.sends, after, before, Slot.sends, unreleased]
          simp only [Bool.false_eq_true, if_false]
          rw [← Multiset.coe_add, Multiset.coe_singleton,
            Multiset.add_comm (current.admission.rows : Multiset Row),
            Multiset.singleton_add, Multiset.cons_add]

/-- What a release does. -/
theorem release_cases
    {slot : Nat} {next : History} (live : Live history slot)
    (stepped : history.step platform (.release slot) = some next) :
    ∃ current, history.slots[slot]? = some current ∧
      next.table = release current.admission history.table ∧
      next.sends =
        history.sends - (current.admission.rows : Multiset Row) ∧
      (current.admission.rows : Multiset Row) ≤ history.sends ∧
      next.last = history.last := by
  rw [History.step] at stepped
  cases found : history.slots[slot]? with
  | none =>
      rw [found] at stepped
      cases stepped
  | some current =>
      rw [found] at stepped
      simp only [Option.some.injEq] at stepped
      subst stepped
      obtain ⟨rest, before, after⟩ :=
        sends_set_live found (live current found)
      refine ⟨current, rfl, rfl, ?_, ?_, rfl⟩
      · rw [before, add_tsub_cancel_left, History.sends, after, Slot.sends]
        simp
      · rw [before]
        exact Multiset.le_add_right _ _

private theorem faithful_ask
    (keys : KeysApart platform routes) (positive : PositiveWindows routes)
    (faithful : Faithful platform routes history)
    {check : Check} (listed : check ∈ checksOf platform routes)
    {slot : Nat} {key : String} {now : Int}
    (timely : Timely history now) (live : Live history slot)
    {next : History}
    (asked : (history.ask check slot key now).map Prod.snd = some next) :
    Faithful platform routes next := by
  obtain ⟨⟨answer, _⟩, result, rfl⟩ := Option.map_eq_some_iff.mp asked
  obtain ⟨last, cases⟩ := ask_cases live result
  have later : history.last ≤ now := timely.1
  rcases cases with ⟨_, _, table, sends⟩ | ⟨_, _, _, table, sends⟩ |
    ⟨some, accepted, _, table, sends⟩
  · exact faithful.of_same table sends (last ▸ later)
  · exact faithful.of_same table sends (last ▸ later)
  · exact faithful.of_recorded keys positive listed timely some accepted
      table sends last

/-- Every orderly call keeps the table faithful. -/
theorem faithful_step
    (keys : KeysApart platform routes) (positive : PositiveWindows routes)
    (faithful : Faithful platform routes history)
    {call : ThrottleCall} (orderly : Orderly routes history call)
    {next : History} (stepped : history.step platform call = some next) :
    Faithful platform routes next := by
  cases call with
  | fresh =>
      cases stepped
      have sameSends :
          ({ history with slots := history.slots ++ [{}] } :
            History).sends = history.sends := by
        simp [History.sends, Slot.sends]
      exact Faithful.of_same faithful rfl sameSends le_rfl
  | signal slot route key now =>
      obtain ⟨listed, timely, live⟩ := check_mem_of_orderly orderly rfl
      exact faithful_ask keys positive faithful listed timely live stepped
  | digest slot route key now =>
      obtain ⟨listed, timely, live⟩ := check_mem_of_orderly orderly rfl
      exact faithful_ask keys positive faithful listed timely live stepped
  | split slot route =>
      rw [History.step] at stepped
      cases found : history.slots[slot]? with
      | none =>
          rw [found] at stepped
          cases stepped
      | some current =>
          rw [found] at stepped
          simp only [Option.some.injEq] at stepped
          subst stepped
          have unreleased := orderly current found
          obtain ⟨rest, before, after⟩ := sends_set_live found unreleased
          refine @Faithful.of_same platform routes history _ faithful rfl
            ?_ le_rfl
          rw [before, History.sends, held_append, after, held_cons,
            held_nil, add_zero, Slot.sends, Slot.sends, unreleased,
            ← coe_splitOff platform route current.admission]
          exact add_right_comm _ _ _
  | release slot =>
      obtain ⟨current, _, table, sends, _, last⟩ :=
        release_cases orderly stepped
      exact faithful.of_released table sends last

theorem faithful_of_reaches
    (keys : KeysApart platform routes) (positive : PositiveWindows routes)
    {calls : List ThrottleCall}
    (reached :
      Reaches (History.step platform) (Orderly routes) {} calls history) :
    Faithful platform routes history :=
  reached.invariant faithful_initial
    fun _ _ _ faithful orderly stepped =>
      faithful_step keys positive faithful orderly stepped

/-! ## Main result -/

/-- What holds in every history of orderly calls. -/
structure KeepsWindows
    (platform : Platform) (routes : List Route) (history : History) :
    Prop where
  /-- A refusal is what the sends that count ask for, and changes
  nothing. -/
  refuses : ∀ call check slot key now answer next,
    Orderly routes history call →
      call.asks platform = some (check, slot, key, now) →
        history.ask check slot key now = some (answer, next) →
          ((∃ reason, answer = .error reason) ↔
              Refused check key now history.sends) ∧
            ((∃ reason, answer = .error reason) →
              next.table = history.table)
  spaced : ∀ check ∈ checksOf platform routes, ∀ window ∈ check.dedup,
    Spaced Row.sentAt (SameSend check.routeKey) window.duration
      history.sends
  bounded : ∀ check ∈ checksOf platform routes, ∀ limit ∈ check.rate,
    Bounded Row.route Row.sentAt check.routeKey limit.per.duration
      limit.max.toNat history.sends
  /-- A release takes back the sends of its admission, which counted until
  then, and the table still holds the others. -/
  releases : ∀ slot next, Live history slot →
    history.step platform (.release slot) = some next →
      ∃ current, history.slots[slot]? = some current ∧
        next.sends + (current.admission.rows : Multiset Row) =
          history.sends ∧
        (next.table : Multiset Row) =
          (history.table : Multiset Row) -
            (current.admission.rows : Multiset Row) ∧
        ∃ cutoff : String → Int,
          (history.table : Multiset Row) =
              kept Row.route Row.sentAt cutoff history.sends ∧
            (next.table : Multiset Row) =
              kept Row.route Row.sentAt cutoff next.sends

theorem throttle_keeps_windows
    (keys : KeysApart platform routes) (positive : PositiveWindows routes)
    {calls : List ThrottleCall}
    (reached :
      Reaches (History.step platform) (Orderly routes) {} calls history) :
    KeepsWindows platform routes history := by
  have faithful := faithful_of_reaches keys positive reached
  refine
    { refuses := ?_
      spaced := faithful.spaced
      bounded := faithful.bounded
      releases := ?_ }
  · intro call check slot key now answer next orderly asks asked
    obtain ⟨listed, timely, live⟩ := check_mem_of_orderly orderly asks
    have decided := refusal_iff faithful listed timely key
    obtain ⟨_, cases⟩ := ask_cases live asked
    rcases cases with ⟨none, rfl, table, _⟩ |
      ⟨reason, refused, rfl, table, _⟩ | ⟨_, accepted, rfl, _⟩
    · have allowed := not_refused_of_no_windows none key now
        (history.table : Multiset Row)
      rw [← isSome_refusal, decided] at allowed
      exact ⟨⟨by simp, fun refused => absurd refused allowed⟩,
        fun _ => table⟩
    · rw [refused] at decided
      exact ⟨⟨fun _ => decided.mp rfl, fun _ => ⟨reason, rfl⟩⟩,
        fun _ => table⟩
    · rw [accepted] at decided
      refine ⟨⟨by simp, fun refused => ?_⟩, by simp⟩
      cases decided.mpr refused
  · intro slot next live stepped
    obtain ⟨current, found, table, sends, held, _⟩ :=
      release_cases live stepped
    obtain ⟨cutoff, before, _⟩ := faithful.pruned
    refine ⟨current, found, ?_, ?_, cutoff, before, ?_⟩
    · rw [sends, Multiset.sub_add_cancel held]
    · rw [table, coe_release]
    · rw [table, coe_release, before, kept_sub, sends]

end Histories

/-! ## Sample histories -/

/-- Ten minutes of dedup and two sends an hour. -/
def pagedRoute : Route where
  providers := ["pagerduty"]
  dedup := some ⟨600⟩
  rateLimit := some ⟨2, ⟨3600⟩⟩

/-- Two sends an hour. -/
def chattyRoute : Route where
  providers := ["slack"]
  rateLimit := some ⟨2, ⟨3600⟩⟩

/-- A dedup window longer than an `i64` of milliseconds. -/
def endlessRoute : Route where
  providers := ["pagerduty"]
  dedup := some ⟨9223372036854776⟩

/-- The digests of the sample routes. -/
def throttlePlatform : Platform where
  sha256 text :=
    if text = pagedRoute.serialize.text then
      "852e73983d6ec0fd14b27bdabc49c7c18c8edaa22c6b0f68f957acecb0896ca8"
    else if text = chattyRoute.serialize.text then
      "f3160eaefca0003e665dac4f44a7590cb72ad65f9a12d6d9d33897edab12d279"
    else
      "b056dbba63aa53c79e86ee3e90863c27c20701f24386e8f29bbdc7df8d870a1e"
  showTime _ := ""

/-- A duplicate is refused, a failed send is taken back, and a limit is
reached. -/
def pagedCalls : List ThrottleCall :=
  [.fresh, .signal 0 pagedRoute "disk" 1000,
    .fresh, .signal 1 pagedRoute "disk" 2000,
    .release 0, .signal 1 pagedRoute "disk" 2500,
    .fresh, .signal 2 pagedRoute "cpu" 700000,
    .split 2 pagedRoute, .signal 2 pagedRoute "net" 800000,
    .signal 2 pagedRoute "disk" 3700000]

def pagedHistory : History :=
  (run (History.step throttlePlatform) (Orderly [pagedRoute]) {}
    pagedCalls).getD {}

theorem throttle_keeps_windows_paged :
    KeepsWindows throttlePlatform [pagedRoute] pagedHistory := by
  have keys : KeysApart throttlePlatform [pagedRoute] := by
    refine ⟨?_, by decide +kernel⟩
    intro left leftMember right rightMember _
    rw [List.mem_singleton.mp leftMember, List.mem_singleton.mp rightMember]
  have positive : PositiveWindows [pagedRoute] := by
    intro route member
    rw [List.mem_singleton.mp member]
    decide
  have ran : run (History.step throttlePlatform) (Orderly [pagedRoute]) {}
      pagedCalls = some pagedHistory := rfl
  exact throttle_keeps_windows keys positive (reaches_of_run ran)

/-- After these calls a signal is let through that has to be refused. -/
def LetsThrough
    (calls : List ThrottleCall) (slot : Nat) (route : Route) (key : String)
    (now : Int) : Prop :=
  let check := signalCheck throttlePlatform route
  ∃ history ∈ run (History.step throttlePlatform) anyStep {} calls,
    (history.ask check slot key now).map Prod.fst = some (.ok ()) ∧
      Refused check key now history.sends

instance (calls : List ThrottleCall) (slot : Nat) (route : Route)
    (key : String) (now : Int) :
    Decidable (LetsThrough calls slot route key now) :=
  inferInstanceAs (Decidable (∃ _ ∈ run _ _ _ _, _ ∧ _))

/-- An admission that is released twice takes back another signal's send
of the same millisecond, and at the largest `i64` a window that does not
fit into an `i64` ends. -/
theorem lets_through :
    LetsThrough
        [.fresh, .fresh, .fresh, .signal 0 chattyRoute "disk" 1000,
          .signal 1 chattyRoute "disk" 1000, .release 0, .release 0,
          .signal 2 chattyRoute "disk" 1000]
        2 chattyRoute "disk" 1000 ∧
      LetsThrough [.fresh, .signal 0 endlessRoute "disk" 0]
        0 endlessRoute "disk" i64Max := by
  constructor
  · decide +kernel
  · decide +kernel

end OpsSignal
