import OpsSignal.ThrottleHistory

/-!
# Processes that share one throttle file

An admission reads the clock first and runs its transaction later.  The
transactions of several threads or processes therefore need not come in
the order of their stamps: one of them may prune the rows that another one,
stamped earlier, would have been refused by.
-/

namespace OpsSignal

open Holdings LabelledRuns PrunedLog

/-- An admission that has read the clock and not run its transaction. -/
structure Stamped where
  check : Check
  key : String
  now : Int
  deriving DecidableEq, Repr

/-- A send one transaction recorded. -/
structure Send where
  check : Check
  row : Row
  released : Bool := false
  deriving DecidableEq, Repr

/-- What the processes share, and what they are about to do.  The sends
stand in the order of their transactions. -/
structure Shared where
  clock : Int := 0
  table : Table := []
  stamped : List Stamped := []
  sends : List Send := []
  deriving DecidableEq, Repr

/-- One step of some process. -/
inductive ProcessStep where
  | clock (millis : Nat)
  | stamp (digest : Bool) (route : Nat) (key : String)
  | transact (index : Nat)
  | release (index : Nat)
  deriving DecidableEq, Repr

/-- Takes back one send. -/
def Send.takeBack (send : Send) : Send :=
  { send with released := true }

namespace Shared

/-- The transaction of a stamped admission. -/
def transact (shared : Shared) (index : Nat) (stamped : Stamped) :
    Shared :=
  let result := stamped.check.run stamped.key stamped.now (shared.table, {})
  { shared with
    table := result.2.1
    stamped := shared.stamped.eraseIdx index
    sends := shared.sends ++
      result.2.2.rows.map fun row => ⟨stamped.check, row, false⟩ }

def step (platform : Platform) (routes : List Route) (shared : Shared) :
    ProcessStep → Option Shared
  | .clock millis => some { shared with clock := millis }
  | .stamp digest index key =>
      routes[index]?.map fun route =>
        let check :=
          if digest then digestCheck platform route
          else signalCheck platform route
        { shared with
          stamped := shared.stamped ++ [⟨check, key, shared.clock⟩] }
  | .transact index => shared.stamped[index]?.map (shared.transact index)
  | .release index =>
      (shared.sends[index]?.filter fun send => !send.released).map
        fun send =>
          { shared with
            table := OpsSignal.release ⟨[send.row]⟩ shared.table
            sends := shared.sends.set index send.takeBack }

end Shared

/-! ## Sends that count -/

def Send.counts (send : Send) : Multiset Row :=
  if send.released then 0 else {send.row}

/-- The admitted sends that were not released. -/
def unreleased (sends : List Send) : Multiset Row :=
  held Send.counts sends

/-- Whether a row of the same route is old by the longer window of the
send. -/
def Send.outdates (send : Send) (row : Row) : Bool :=
  decide (row.route = send.check.routeKey ∧
    row.sentAt ≤ send.row.sentAt - send.check.keep.millis)

/-- A send is overtaken once a later transaction outdates it. -/
def overtaken (later : List Send) (row : Row) : Bool :=
  later.any fun send => send.outdates row

/-- The sends that were neither released nor overtaken. -/
def standing : List Send → Multiset Row
  | [] => 0
  | send :: later =>
      (if overtaken later send.row then 0 else send.counts) +
        standing later

/-- The dedup windows of the routes are kept. -/
def Separated
    (platform : Platform) (routes : List Route) (shared : Shared) : Prop :=
  ∀ route ∈ routes, ∀ window ∈ route.dedup,
    Spaced Row.sentAt (SameSend (routeKey platform route)) window.duration
      (unreleased shared.sends)

/-- Whether some row of the route and key is less than the window away,
before or after. -/
def Near
    (check : Check) (key : String) (now : Int) (rows : Multiset Row) :
    Prop :=
  ∃ window, check.dedup = some window ∧
    ∃ row ∈ rows, row.route = check.routeKey ∧ row.dedupKey = key ∧
      now - row.sentAt < window.duration ∧
      row.sentAt - now < window.duration

/-- A transaction comes in time if every send near its stamp leaves one
that was not overtaken and asks for a refusal. -/
def InTime (shared : Shared) : ProcessStep → Prop
  | .transact index =>
      ∀ stamped ∈ shared.stamped[index]?,
        Near stamped.check stamped.key stamped.now
            (unreleased shared.sends) →
          Duplicated stamped.check stamped.key stamped.now
              (standing shared.sends) ∨
            LimitReached stamped.check stamped.now (standing shared.sends)
  | _ => True

instance (check : Check) (key : String) (now : Int)
    (rows : Multiset Row) : Decidable (Near check key now rows) :=
  decidable_of_iff
    (∃ window ∈ check.dedup, ∃ row ∈ rows,
      row.route = check.routeKey ∧ row.dedupKey = key ∧
        now - row.sentAt < window.duration ∧
        row.sentAt - now < window.duration)
    Iff.rfl

instance (shared : Shared) : ∀ step, Decidable (InTime shared step)
  | .clock _ => inferInstanceAs (Decidable True)
  | .stamp .. => inferInstanceAs (Decidable True)
  | .transact _ => inferInstanceAs (Decidable (∀ _ ∈ _, _ → _ ∨ _))
  | .release _ => inferInstanceAs (Decidable True)

/-- The rows of one route. -/
def lane (key : String) (rows : Multiset Row) : Multiset Row :=
  rows.filter fun row => row.route = key

/-- In the lane of a dedup route the table holds the standing sends. -/
def Mirrored
    (platform : Platform) (routes : List Route) (shared : Shared) : Prop :=
  ∀ route ∈ routes, ∀ window ∈ route.dedup, 0 < window.duration →
    lane (routeKey platform route) (standing shared.sends) =
      lane (routeKey platform route) shared.table

/-! ## Standing sends -/

theorem overtaken_append (later : List Send) (new : Send) (row : Row) :
    overtaken (later ++ [new]) row =
      (overtaken later row || new.outdates row) := by
  simp [overtaken]

private theorem overtaken_set (row : Row) {send : Send} :
    ∀ {later : List Send} {index : Nat}, later[index]? = some send →
      overtaken (later.set index send.takeBack) row = overtaken later row
  | [], _, found => by
      simp at found
  | _ :: later, 0, found => by
      simp only [List.getElem?_cons_zero, Option.some.injEq] at found
      subst found
      rfl
  | other :: later, index + 1, found => by
      rw [List.getElem?_cons_succ] at found
      have rest := overtaken_set row found
      simp only [overtaken, List.set_cons_succ, List.any_cons] at rest ⊢
      rw [rest]

theorem standing_le : ∀ sends, standing sends ≤ unreleased sends
  | [] => le_rfl
  | send :: later => by
      have rest := standing_le later
      rw [standing, unreleased, held_cons]
      refine add_le_add ?_ rest
      split
      · exact Multiset.zero_le _
      · exact le_rfl

/-- A new send outdates what its transaction prunes. -/
theorem standing_append (new : Send) :
    ∀ sends, standing (sends ++ [new]) =
      (standing sends).filter (fun row => ¬ new.outdates row) + new.counts
  | [] => by
      simp [standing, overtaken]
  | send :: later => by
      have rest := standing_append new later
      rw [List.cons_append, standing, standing, overtaken_append, rest,
        Multiset.filter_add, add_assoc]
      congr 1
      cases overtaken later send.row with
      | true => simp
      | false =>
          cases released : send.released with
          | true => simp [Send.counts, released]
          | false =>
              cases outdated : new.outdates send.row <;>
                simp [Send.counts, released, outdated,
                  Multiset.filter_singleton]

/-- Taking back a send only takes away its own row, if that stands. -/
theorem standing_takeBack {send : Send}
    (counts : send.released = false) :
    ∀ {sends : List Send} {index : Nat}, sends[index]? = some send →
      ∃ rest, standing (sends.set index send.takeBack) = rest ∧
        (standing sends = {send.row} + rest ∨ standing sends = rest)
  | [], _, found => by
      simp at found
  | _ :: later, 0, found => by
      simp only [List.getElem?_cons_zero, Option.some.injEq] at found
      subst found
      refine ⟨standing later, ?_, ?_⟩
      · simp [standing, Send.takeBack, Send.counts]
      · rw [standing]
        split
        · exact Or.inr (zero_add _)
        · left
          rw [Send.counts, counts]
          rfl
  | other :: later, index + 1, found => by
      rw [List.getElem?_cons_succ] at found
      obtain ⟨rest, after, before⟩ := standing_takeBack counts found
      refine ⟨_, rfl, ?_⟩
      rw [List.set_cons_succ, standing, standing, overtaken_set _ found,
        after]
      rcases before with stands | fell
      · left
        rw [stands, add_left_comm]
      · right
        rw [fell]

theorem unreleased_append (sends : List Send) (check : Check) (row : Row) :
    unreleased (sends ++ [⟨check, row, false⟩]) =
      row ::ₘ unreleased sends := by
  rw [unreleased, held_append, held_cons, held_nil, add_zero, add_comm]
  rfl

theorem unreleased_takeBack {sends : List Send} {index : Nat} {send : Send}
    (found : sends[index]? = some send) (counts : send.released = false) :
    unreleased sends =
      send.row ::ₘ unreleased (sends.set index send.takeBack) := by
  obtain ⟨rest, before, after⟩ := @exists_rest _ _ Send.counts _ _ _ found
  rw [unreleased, unreleased, before, after, Send.counts, Send.counts,
    counts, Send.takeBack]
  simp

/-! ## Lanes -/

theorem lane_add (key : String) (first second : Multiset Row) :
    lane key (first + second) = lane key first + lane key second :=
  Multiset.filter_add _ _ _

theorem lane_filter (key : String) (wanted : Row → Prop)
    [DecidablePred wanted] (rows : Multiset Row) :
    lane key (rows.filter wanted) = (lane key rows).filter wanted :=
  Multiset.filter_comm _ _ _

theorem mem_lane {key : String} {rows : Multiset Row} {row : Row} :
    row ∈ lane key rows ↔ row ∈ rows ∧ row.route = key :=
  Multiset.mem_filter

section Lanes

variable {check : Check} {rows others : Multiset Row}

theorem duplicated_of_lane
    (same : lane check.routeKey rows = lane check.routeKey others)
    {key : String} {now : Int}
    (duplicated : Duplicated check key now rows) :
    Duplicated check key now others := by
  obtain ⟨window, isWindow, row, member, sameRoute, sameKey, young⟩ :=
    duplicated
  have inLane := mem_lane.mpr ⟨member, sameRoute⟩
  rw [same] at inLane
  exact ⟨window, isWindow, row, (mem_lane.mp inLane).1, sameRoute,
    sameKey, young⟩

theorem limitReached_of_lane
    (same : lane check.routeKey rows = lane check.routeKey others)
    {now : Int} (reached : LimitReached check now rows) :
    LimitReached check now others := by
  obtain ⟨limit, isLimit, full⟩ := reached
  refine ⟨limit, isLimit, ?_⟩
  have counted : ∀ some : Multiset Row,
      some.countP (fun row => row.route = check.routeKey ∧
          now - limit.per.millis < row.sentAt) =
        (lane check.routeKey some).countP
          fun row => now - limit.per.millis < row.sentAt := by
    intro some
    rw [lane, Multiset.countP_filter]
    apply Multiset.countP_congr rfl
    intro row _
    rw [eq_iff_iff]
    exact and_comm
  rw [counted] at full ⊢
  rw [← same]
  exact full

/-- The check answers the same where the lanes are the same. -/
theorem refused_iff_of_lane
    (same : lane check.routeKey rows = lane check.routeKey others)
    (key : String) (now : Int) :
    (Duplicated check key now rows ∨ LimitReached check now rows) ↔
      (Duplicated check key now others ∨
        LimitReached check now others) := by
  constructor
  · intro refused
    exact refused.imp (duplicated_of_lane same) (limitReached_of_lane same)
  · intro refused
    exact refused.imp (duplicated_of_lane same.symm)
      (limitReached_of_lane same.symm)

end Lanes

/-! ## One step -/

structure Tracked
    (platform : Platform) (routes : List Route) (shared : Shared) :
    Prop where
  known : ∀ stamped ∈ shared.stamped,
    stamped.check ∈ checksOf platform routes
  separated : Separated platform routes shared
  mirrored : Mirrored platform routes shared

section Processes

variable {platform : Platform} {routes : List Route}
  {shared next : Shared}

theorem tracked_initial : Tracked platform routes {} where
  known stamped member := by
    cases member
  separated route _ window _ := spaced_zero
  mirrored route _ window _ _ := rfl

/-- Everything a transaction does. -/
theorem transact_cases (shared : Shared) (index : Nat) (stamped : Stamped) :
    (((stamped.check.dedup.isNone && stamped.check.rate.isNone) = true ∨
          (stamped.check.refusal stamped.key stamped.now
            shared.table).isSome = true) ∧
        (shared.transact index stamped).table = shared.table ∧
        (shared.transact index stamped).sends = shared.sends) ∨
      (stamped.check.refusal stamped.key stamped.now shared.table = none ∧
        (shared.transact index stamped).table =
          stamped.check.prune stamped.now
            (shared.table ++
              [⟨stamped.check.routeKey, stamped.key, stamped.now⟩]) ∧
        (shared.transact index stamped).sends = shared.sends ++
          [⟨stamped.check,
            ⟨stamped.check.routeKey, stamped.key, stamped.now⟩,
            false⟩]) := by
  rcases run_cases stamped.check stamped.key stamped.now
      (shared.table, {}) with
    ⟨none, ran⟩ | ⟨reason, refused, ran⟩ | ⟨_, accepted, ran⟩
  · refine Or.inl ⟨Or.inl none, ?_, ?_⟩ <;> simp [Shared.transact, ran]
  · refine Or.inl ⟨Or.inr ?_, ?_, ?_⟩
    · rw [refused]
      rfl
    · simp [Shared.transact, ran]
    · simp [Shared.transact, ran]
  · refine Or.inr ⟨accepted, ?_, ?_⟩ <;> simp [Shared.transact, ran]

/-- A check with a dedup window is the check of a route's signals. -/
theorem route_of_dedup_check {check : Check} {window : Window}
    (listed : check ∈ checksOf platform routes)
    (isWindow : check.dedup = some window) :
    ∃ route ∈ routes, route.dedup = some window ∧
      check = signalCheck platform route := by
  simp only [checksOf, List.mem_append, List.mem_map] at listed
  rcases listed with ⟨route, member, rfl⟩ | ⟨route, member, rfl⟩
  · exact ⟨route, member, isWindow, rfl⟩
  · cases isWindow

theorem signalCheck_mem {route : Route} (member : route ∈ routes) :
    signalCheck platform route ∈ checksOf platform routes :=
  List.mem_append_left _ (List.mem_map_of_mem member)

/-- Where a send is near, the table refuses exactly if the standing sends
ask for it. -/
theorem refusal_iff_of_near
    (tracked : Tracked platform routes shared) {check : Check}
    (listed : check ∈ checksOf platform routes) {key : String} {now : Int}
    {rows : Multiset Row} (near : Near check key now rows) :
    (check.refusal key now shared.table).isSome = true ↔
      (Duplicated check key now (standing shared.sends) ∨
        LimitReached check now (standing shared.sends)) := by
  obtain ⟨window, isWindow, row, _, _, _, before, after⟩ := near
  obtain ⟨route, member, hasWindow, rfl⟩ :=
    route_of_dedup_check listed isWindow
  have positive : 0 < window.duration := by omega
  have same := tracked.mirrored route member window hasWindow positive
  rw [isSome_refusal]
  exact (refused_iff_of_lane same key now).symm

/-- A transaction keeps the sends apart exactly if it comes in time. -/
theorem separated_transact_iff
    (keys : KeysApart platform routes)
    (tracked : Tracked platform routes shared) {index : Nat}
    {stamped : Stamped} (found : shared.stamped[index]? = some stamped) :
    Separated platform routes (shared.transact index stamped) ↔
      InTime shared (.transact index) := by
  have listed := tracked.known stamped (List.mem_of_getElem? found)
  have decided : ∀ near : Near stamped.check stamped.key stamped.now
      (unreleased shared.sends), _ := fun near =>
    refusal_iff_of_near tracked listed near
  rcases transact_cases shared index stamped with
    ⟨kept, _, sends⟩ | ⟨accepted, _, sends⟩
  · constructor
    · intro _ other isOther near
      rw [found] at isOther
      cases isOther
      rcases kept with none | refused
      · obtain ⟨window, isWindow, _⟩ := near
        rw [isWindow] at none
        cases none
      · exact (decided near).mp refused
    · intro _ route member window isWindow
      rw [sends]
      exact tracked.separated route member window isWindow
  · constructor
    · intro separated other isOther near
      rw [found] at isOther
      cases isOther
      obtain ⟨window, isWindow, row, inSends, sameRoute, sameKey, before,
        after⟩ := near
      obtain ⟨route, member, hasWindow, isCheck⟩ :=
        route_of_dedup_check listed isWindow
      have spaced := separated route member window hasWindow
      rw [sends, unreleased_append] at spaced
      have pair := spaced row
        ⟨stamped.check.routeKey, stamped.key, stamped.now⟩
        (by
          rw [Multiset.pair_comm, Multiset.insert_eq_cons]
          exact Multiset.cons_le_cons _ (Multiset.singleton_le.mpr inSends))
        ⟨by rw [sameRoute, isCheck]; rfl, by rw [isCheck]; rfl, sameKey⟩
      dsimp only at pair
      omega
    · intro inTime route member window isWindow
      rw [sends, unreleased_append]
      apply (tracked.separated route member window isWindow).cons
      · intro first second same
        exact ⟨same.2.1, same.1, same.2.2.symm⟩
      · intro other inSends same
        have sameCheck := eq_of_mem_checksOf keys listed
          (signalCheck_mem member) same.2.1
        by_contra young
        have near : Near stamped.check stamped.key stamped.now
            (unreleased shared.sends) := by
          refine ⟨window, by rw [sameCheck]; exact isWindow, other, inSends,
            same.1.trans same.2.1.symm, same.2.2, ?_, ?_⟩
          · dsimp only at young
            omega
          · dsimp only at young
            omega
        have refused := (decided near).mpr (inTime stamped found near)
        rw [accepted] at refused
        cases refused

private theorem mirrored_transact
    (keys : KeysApart platform routes)
    (tracked : Tracked platform routes shared) {index : Nat}
    {stamped : Stamped} (found : shared.stamped[index]? = some stamped) :
    Mirrored platform routes (shared.transact index stamped) := by
  have listed := tracked.known stamped (List.mem_of_getElem? found)
  intro route member window isWindow positive
  have same := tracked.mirrored route member window isWindow positive
  rcases transact_cases shared index stamped with
    ⟨_, table, sends⟩ | ⟨_, table, sends⟩
  · rw [table, sends]
    exact same
  · rw [table, sends, standing_append, coe_prune_append]
    have fresh : (lane (routeKey platform route)
          {⟨stamped.check.routeKey, stamped.key, stamped.now⟩}).filter
        (fun row => ¬ (row.route = stamped.check.routeKey ∧
          row.sentAt ≤ stamped.now - stamped.check.keep.millis)) =
        lane (routeKey platform route)
          {⟨stamped.check.routeKey, stamped.key, stamped.now⟩} := by
      rw [Multiset.filter_eq_self]
      intro row inLane
      obtain ⟨isNew, sameRoute⟩ := mem_lane.mp inLane
      rw [Multiset.mem_singleton.mp isNew] at sameRoute ⊢
      have sameCheck := eq_of_mem_checksOf keys listed
        (signalCheck_mem member) sameRoute
      have isDedup : stamped.check.dedup = some window := by
        rw [sameCheck]
        exact isWindow
      have longer := Check.dedup_le_keep isDedup
      have positiveMillis := millis_pos positive
      dsimp only
      omega
    have outdated :
        (standing shared.sends).filter (fun row =>
            ¬ (⟨stamped.check,
              ⟨stamped.check.routeKey, stamped.key, stamped.now⟩,
              false⟩ : Send).outdates row) =
          (standing shared.sends).filter fun row =>
            ¬ (row.route = stamped.check.routeKey ∧
              row.sentAt ≤ stamped.now - stamped.check.keep.millis) := by
      apply Multiset.filter_congr
      intro row _
      simp [Send.outdates]
    rw [outdated, lane_add, lane_filter, same, lane_filter,
      ← Multiset.singleton_add, lane_add, Multiset.filter_add, fresh]
    exact add_comm _ _

/-- A twin of an unreleased send is never unreleased too. -/
private theorem not_standing_of_released
    (tracked : Tracked platform routes shared) {index : Nat} {send : Send}
    (found : shared.sends[index]? = some send)
    (counts : send.released = false) {route : Route}
    (member : route ∈ routes) {window : Window}
    (isWindow : window ∈ route.dedup) (positive : 0 < window.duration)
    (sameRoute : send.row.route = routeKey platform route) :
    send.row ∉ standing (shared.sends.set index send.takeBack) := by
  intro stands
  have inRest := Multiset.mem_of_le (standing_le _) stands
  have spaced := tracked.separated route member window isWindow
  rw [unreleased_takeBack found counts] at spaced
  have pair := spaced send.row send.row
    (Multiset.cons_le_cons _ (Multiset.singleton_le.mpr inRest))
    ⟨sameRoute, sameRoute, rfl⟩
  omega

private theorem mirrored_release
    (tracked : Tracked platform routes shared) {index : Nat} {send : Send}
    (found : shared.sends[index]? = some send)
    (counts : send.released = false)
    (table : next.table = release ⟨[send.row]⟩ shared.table)
    (sends : next.sends = shared.sends.set index send.takeBack) :
    Mirrored platform routes next := by
  intro route member window isWindow positive
  have same := tracked.mirrored route member window isWindow positive
  obtain ⟨rest, after, before⟩ := standing_takeBack counts found
  have taken : lane (routeKey platform route) next.table =
      lane (routeKey platform route) shared.table -
        lane (routeKey platform route) {send.row} := by
    rw [table, coe_release, Multiset.coe_singleton, lane, lane, lane,
      Multiset.filter_sub]
  rw [taken, ← same, sends, after]
  by_cases sameRoute : send.row.route = routeKey platform route
  · have ownRow : lane (routeKey platform route) {send.row} =
        {send.row} := by
      rw [lane, Multiset.filter_singleton, if_pos sameRoute]
    rcases before with stands | fell
    · rw [stands, lane_add, add_tsub_cancel_left]
    · have gone := not_standing_of_released tracked found counts member
        isWindow positive sameRoute
      rw [after] at gone
      have notInLane : send.row ∉ lane (routeKey platform route) rest :=
        fun inLane => gone (mem_lane.mp inLane).1
      rw [fell, ownRow, Multiset.sub_singleton,
        Multiset.erase_of_notMem notInLane]
  · have noRow : lane (routeKey platform route) {send.row} = 0 := by
      rw [lane, Multiset.filter_singleton, if_neg sameRoute]
      rfl
    rcases before with stands | fell
    · rw [stands, lane_add, noRow, zero_add, tsub_zero]
    · rw [fell, noRow, tsub_zero]

private theorem separated_release
    (tracked : Tracked platform routes shared) {index : Nat} {send : Send}
    (found : shared.sends[index]? = some send)
    (counts : send.released = false)
    (sends : next.sends = shared.sends.set index send.takeBack) :
    Separated platform routes next := by
  intro route member window isWindow
  have spaced := tracked.separated route member window isWindow
  rw [unreleased_takeBack found counts] at spaced
  rw [sends]
  exact spaced.of_le (Multiset.le_cons_self _ _)

/-- What each step does, by its kind. -/
private theorem tracked_step_iff
    (keys : KeysApart platform routes)
    (tracked : Tracked platform routes shared) {step : ProcessStep}
    (stepped : shared.step platform routes step = some next) :
    (Separated platform routes next ↔ InTime shared step) ∧
      (Separated platform routes next → Tracked platform routes next) := by
  cases step with
  | clock millis =>
      cases stepped
      have separated := tracked.separated
      exact ⟨⟨fun _ => True.intro, fun _ => separated⟩,
        fun _ => ⟨tracked.known, separated, tracked.mirrored⟩⟩
  | stamp digest index key =>
      obtain ⟨route, found, rfl⟩ := Option.map_eq_some_iff.mp stepped
      have separated := tracked.separated
      refine ⟨⟨fun _ => True.intro, fun _ => separated⟩, fun _ =>
        ⟨?_, separated, tracked.mirrored⟩⟩
      intro stamped member
      rcases List.mem_append.mp member with earlier | new
      · exact tracked.known stamped earlier
      · rw [List.mem_singleton.mp new]
        have listed := List.mem_of_getElem? found
        cases digest with
        | false => exact signalCheck_mem listed
        | true =>
            exact List.mem_append_right _ (List.mem_map_of_mem listed)
  | transact index =>
      obtain ⟨stamped, found, rfl⟩ := Option.map_eq_some_iff.mp stepped
      refine ⟨separated_transact_iff keys tracked found, fun separated =>
        ⟨?_, separated, mirrored_transact keys tracked found⟩⟩
      intro other member
      exact tracked.known other (List.mem_of_mem_eraseIdx member)
  | release index =>
      obtain ⟨send, live, isNext⟩ := Option.map_eq_some_iff.mp stepped
      obtain ⟨found, counts⟩ := Option.filter_eq_some_iff.mp live
      have unreleased : send.released = false := by
        simpa using counts
      have sends : next.sends = shared.sends.set index send.takeBack := by
        rw [← isNext]
      have table : next.table = release ⟨[send.row]⟩ shared.table := by
        rw [← isNext]
      have stamped : next.stamped = shared.stamped := by
        rw [← isNext]
      have separated := separated_release tracked found unreleased sends
      refine ⟨⟨fun _ => True.intro, fun _ => separated⟩, fun _ =>
        ⟨?_, separated, mirrored_release tracked found unreleased table
          sends⟩⟩
      rw [stamped]
      exact tracked.known

private theorem in_time_of_separated
    (keys : KeysApart platform routes) {steps : List ProcessStep}
    (reached : Reaches (Shared.step platform routes)
      (fun state _ => Separated platform routes state) {} steps shared)
    (separated : Separated platform routes shared) :
    Reaches (Shared.step platform routes) InTime {} steps shared ∧
      Tracked platform routes shared := by
  induction reached with
  | nil => exact ⟨Reaches.nil, tracked_initial⟩
  | snoc _ met stepped inductionHypothesis =>
      obtain ⟨ran, tracked⟩ := inductionHypothesis met
      obtain ⟨decides, keeps⟩ := tracked_step_iff keys tracked stepped
      exact ⟨Reaches.snoc ran (decides.mp separated) stepped,
        keeps separated⟩

private theorem separated_of_in_time
    (keys : KeysApart platform routes) {steps : List ProcessStep}
    (reached :
      Reaches (Shared.step platform routes) InTime {} steps shared) :
    Reaches (Shared.step platform routes)
        (fun state _ => Separated platform routes state) {} steps shared ∧
      Tracked platform routes shared := by
  induction reached with
  | nil => exact ⟨Reaches.nil, tracked_initial⟩
  | snoc _ inTime stepped inductionHypothesis =>
      obtain ⟨ran, tracked⟩ := inductionHypothesis
      obtain ⟨decides, keeps⟩ := tracked_step_iff keys tracked stepped
      exact ⟨Reaches.snoc ran tracked.separated stepped,
        keeps (decides.mpr inTime)⟩

/-! ## Main result -/

/-- A run keeps the dedup windows in all of its states exactly if each of
its transactions comes in time. -/
theorem separated_iff_in_time
    (keys : KeysApart platform routes) (steps : List ProcessStep)
    (shared : Shared) :
    (Reaches (Shared.step platform routes)
          (fun state _ => Separated platform routes state) {} steps shared ∧
        Separated platform routes shared) ↔
      Reaches (Shared.step platform routes) InTime {} steps shared := by
  constructor
  · intro throughout
    exact (in_time_of_separated keys throughout.1 throughout.2).1
  · intro inTime
    obtain ⟨ran, tracked⟩ := separated_of_in_time keys inTime
    exact ⟨ran, tracked.separated⟩

end Processes

/-! ## Sample runs -/

/-- One second of dedup. -/
def briefRoute : Route where
  providers := ["pagerduty"]
  dedup := some ⟨1⟩

def processPlatform : Platform where
  sha256 text :=
    if text = briefRoute.serialize.text then
      "ae2426a95d4b23629798c594176fcd1d52bb90f2b7999fee158bdc54674fbc8c"
    else
      ""
  showTime _ := ""

private theorem keysApart_brief : KeysApart processPlatform [briefRoute] := by
  refine ⟨?_, by decide +kernel⟩
  intro left leftMember right rightMember _
  rw [List.mem_singleton.mp leftMember, List.mem_singleton.mp rightMember]

/-- Two transactions in the wrong order, whose stamps are far enough from
the sends of the other key. -/
def orderlySteps : List ProcessStep :=
  [.clock 300, .stamp false 0 "disk", .transact 0,
    .clock 350, .stamp false 0 "disk",
    .clock 1200, .stamp false 0 "cpu", .transact 1, .transact 0,
    .release 1, .stamp false 0 "cpu", .transact 0]

def orderlyShared : Shared :=
  (run (Shared.step processPlatform [briefRoute]) InTime {}
    orderlySteps).getD {}

theorem separated_iff_in_time_orderly :
    Reaches (Shared.step processPlatform [briefRoute])
        (fun state _ => Separated processPlatform [briefRoute] state) {}
        orderlySteps orderlyShared ∧
      Separated processPlatform [briefRoute] orderlyShared := by
  have ran : run (Shared.step processPlatform [briefRoute]) InTime {}
      orderlySteps = some orderlyShared := by decide +kernel
  exact (separated_iff_in_time keysApart_brief _ _).mpr (reaches_of_run ran)

/-- One process stamps its admission and then waits.  Meanwhile another
key is admitted a window after the send that should have refused it, and
prunes that send. -/
def overtakenSteps : List ProcessStep :=
  [.clock 300, .stamp false 0 "disk", .transact 0,
    .clock 350, .stamp false 0 "disk",
    .clock 1300, .stamp false 0 "cpu", .transact 1, .transact 0]

def overtakenShared : Shared :=
  (run (Shared.step processPlatform [briefRoute]) anyStep {}
    overtakenSteps).getD {}

theorem overtaken_not_separated :
    Reaches (Shared.step processPlatform [briefRoute]) anyStep {}
        overtakenSteps overtakenShared ∧
      ¬ Separated processPlatform [briefRoute] overtakenShared := by
  have ran : run (Shared.step processPlatform [briefRoute]) anyStep {}
      overtakenSteps = some overtakenShared := by decide +kernel
  refine ⟨reaches_of_run ran, fun separated => ?_⟩
  have spaced := separated briefRoute List.mem_cons_self ⟨1⟩ rfl
  have pair := spaced
    ⟨routeKey processPlatform briefRoute, "disk", 300⟩
    ⟨routeKey processPlatform briefRoute, "disk", 350⟩
    (by decide +kernel) ⟨rfl, rfl, rfl⟩
  revert pair
  decide

end OpsSignal
