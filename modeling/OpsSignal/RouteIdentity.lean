import OpsSignal.GroupRuns
import OpsSignal.JsonText
import OpsSignal.RouteHistories
import OpsSignal.Windows

/-!
# The identity of a route

Windows are read back from their texts and texts of routes tell the routes
apart, so a digest that tells texts apart tells routes apart.  Nothing that
is kept under the key of one route is ever mixed with what is kept for
another one.
-/

namespace OpsSignal

open Allotment LabelledRuns

variable {platform : Platform} {routes : List Route}

/-- A lowercase hexadecimal digit. -/
def isHexDigit (c : Char) : Bool :=
  c.isDigit || ('a' ≤ c && c ≤ 'f')

/-- Different texts of the routes have different digests, and a digest is
hexadecimal. -/
structure DigestsApart (platform : Platform) (routes : List Route) :
    Prop where
  apart : ∀ left ∈ routes, ∀ right ∈ routes,
    platform.sha256 left.serialize.text =
        platform.sha256 right.serialize.text →
      left.serialize.text = right.serialize.text
  hexadecimal : ∀ route ∈ routes,
    (platform.sha256 route.serialize.text).toList.all isHexDigit = true

/-! ## Keys -/

theorem keysApart_of_digestsApart
    (digests : DigestsApart platform routes) :
    KeysApart platform routes where
  apart left leftMember right rightMember same :=
    congrArg Route.serialize (route_eq_of_text_eq
      (digests.apart left leftMember right rightMember same))
  hexadecimal route member marked := by
    have digit := List.all_eq_true.mp (digests.hexadecimal route member)
      '#' marked
    revert digit
    decide

/-- A key is the key of one route. -/
theorem routeKey_eq_iff
    (digests : DigestsApart platform routes) {left right : Route}
    (leftMember : left ∈ routes) (rightMember : right ∈ routes) :
    routeKey platform left = routeKey platform right ↔
      left.matchRule = right.matchRule ∧
        left.providers = right.providers ∧ left.mode = right.mode ∧
        left.dedup = right.dedup ∧ left.rateLimit = right.rateLimit ∧
        left.groupBy = right.groupBy ∧ left.groupWait = right.groupWait := by
  constructor
  · intro same
    have sameRoute := eq_of_routeKey_eq (keysApart_of_digestsApart digests)
      leftMember rightMember same
    subst sameRoute
    exact ⟨rfl, rfl, rfl, rfl, rfl, rfl, rfl⟩
  · rintro ⟨rule, providers, mode, dedup, limit, fields, wait⟩
    have same : left = right := by
      cases left
      cases right
      simp_all
    rw [same]

theorem digestKey_ne_routeKey
    (digests : DigestsApart platform routes) (left : Route) {right : Route}
    (rightMember : right ∈ routes) :
    routeKey platform left ++ "#digest" ≠ routeKey platform right := by
  intro same
  apply (keysApart_of_digestsApart digests).hexadecimal right rightMember
  have marked := congrArg String.toList same
  rw [String.toList_append] at marked
  rw [← routeKey, ← marked]
  exact List.mem_append_right _ (by decide)

/-! ## Throttle histories -/

/-- Whether a key is one of the two a route's history is kept under. -/
def isKeyOf (platform : Platform) (route : Route) (key : String) : Bool :=
  key == routeKey platform route ||
    key == routeKey platform route ++ "#digest"

/-- The routes that are asked for admission. -/
def ThrottleCall.routeIn (routes : List Route) : ThrottleCall → Prop
  | .signal _ route _ _ => route ∈ routes
  | .digest _ route _ _ => route ∈ routes
  | _ => True

/-- Whether a call is no admission of another route. -/
def ThrottleCall.isOf (route : Route) : ThrottleCall → Bool
  | .signal _ other _ _ => decide (other = route)
  | .digest _ other _ _ => decide (other = route)
  | _ => true

theorem isKeyOf_routeKey
    (digests : DigestsApart platform routes) {route other : Route}
    (member : route ∈ routes) (otherMember : other ∈ routes) :
    isKeyOf platform route (routeKey platform other) =
      decide (other = route) := by
  have notDigest := digestKey_ne_routeKey digests route otherMember
  by_cases same : other = route
  · simp [isKeyOf, same]
  · have different : routeKey platform other ≠ routeKey platform route :=
      fun sameKey => same (eq_of_routeKey_eq
        (keysApart_of_digestsApart digests) otherMember member sameKey)
    simp [isKeyOf, same, different, notDigest.symm]

theorem isKeyOf_digestKey
    (digests : DigestsApart platform routes) {route other : Route}
    (member : route ∈ routes) (otherMember : other ∈ routes) :
    isKeyOf platform route (routeKey platform other ++ "#digest") =
      decide (other = route) := by
  have notRoute := digestKey_ne_routeKey digests other member
  by_cases same : other = route
  · simp [isKeyOf, same]
  · have different : routeKey platform other ++ "#digest" ≠
        routeKey platform route ++ "#digest" := by
      intro sameKey
      have chars := congrArg String.toList sameKey
      rw [String.toList_append, String.toList_append] at chars
      exact same (eq_of_routeKey_eq (keysApart_of_digestsApart digests)
        otherMember member
        (String.toList_inj.mp (List.append_cancel_right chars)))
    simp [isKeyOf, same, different, notRoute]

/-- The calls that work under the keys of a route are its own. -/
theorem concerns_eq_isOf
    (digests : DigestsApart platform routes) {route : Route}
    (member : route ∈ routes) {call : ThrottleCall}
    (listed : call.routeIn routes) :
    call.concerns (isKeyOf platform route) platform = call.isOf route := by
  cases call with
  | fresh => rfl
  | signal slot other key now =>
      exact isKeyOf_routeKey digests member listed
  | digest slot other key now =>
      exact isKeyOf_digestKey digests member listed
  | split slot other => rfl
  | release slot => rfl

theorem routeIn_of_reaches {calls : List ThrottleCall} {history : History}
    (reached : Reaches (History.step platform)
      (fun _ call => call.routeIn routes) {} calls history) :
    ∀ call ∈ calls, call.routeIn routes := by
  induction reached with
  | nil => nofun
  | snoc _ listed _ inductionHypothesis =>
      intro call isCall
      rcases List.mem_append.mp isCall with old | new
      · exact inductionHypothesis call old
      · rw [List.mem_singleton.mp new]
        exact listed

/-- What is kept for a route, and every answer it gets, is as if there
were no other routes. -/
theorem history_of_own_calls
    (digests : DigestsApart platform routes) {route : Route}
    (member : route ∈ routes) {calls : List ThrottleCall}
    {history : History}
    (reached : Reaches (History.step platform)
      (fun _ call => call.routeIn routes) {} calls history) :
    ∃ own,
      Reaches (History.step platform) anyStep {}
        (calls.filter (ThrottleCall.isOf route)) own ∧
      own.table = rowsOf (isKeyOf platform route) history.table ∧
      ∀ check ∈ [signalCheck platform route, digestCheck platform route],
        ∀ slot key now, (own.ask check slot key now).map Prod.fst =
          (history.ask check slot key now).map Prod.fst := by
  obtain ⟨own, restricts, ownReached⟩ :=
    @restricts_of_reaches (isKeyOf platform route) _ _ _ _ reached
  have sameCalls :
      calls.filter (ThrottleCall.concerns (isKeyOf platform route)
        platform) = calls.filter (ThrottleCall.isOf route) := by
    apply List.filter_congr
    intro call isCall
    exact concerns_eq_isOf digests member
      (routeIn_of_reaches reached call isCall)
  refine ⟨own, sameCalls ▸ ownReached, restricts.table, ?_⟩
  intro check isCheck slot key now
  apply fst_ask_of_restricts restricts
  rw [List.mem_pair] at isCheck
  rcases isCheck with rfl | rfl
  · simp [isKeyOf, signalCheck]
  · simp [isKeyOf, digestCheck]

/-! ## Groups -/

/-- A group has members of its own route only. -/
def OfOneRoute (arrivals : List Arrival) (closed : Closed) : Prop :=
  ∃ own : List Arrival, own.Sublist arrivals ∧
    closed.members = own.map Arrival.member ∧
      ∀ arrival ∈ own, arrival.route = closed.route

theorem ofOneRoute_of_gathers
    {arrivals : List Arrival} {owners : List Nat} {number : Nat}
    {closed : Closed}
    (gathers : Gathers (allotted number arrivals owners) closed) :
    OfOneRoute arrivals closed :=
  ⟨_, allotted_sublist _ _, gathers.members,
    fun arrival member => (gathers.same arrival member).1⟩

theorem groups_of_one_route
    (digests : DigestsApart platform routes) {calls : List GroupCall}
    {history : GroupHistory}
    (reached : Reaches (GroupHistory.step platform)
      (fun _ call => call.routeIn routes) {} calls history) :
    (∀ entry ∈ history.groups.opened,
        OfOneRoute history.arrivals entry.2.toClosed) ∧
      ∀ closed ∈ history.closed, OfOneRoute history.arrivals closed := by
  obtain ⟨⟨owners, batches, placed⟩, _⟩ :=
    accountedFor_of_reaches (keysApart_of_digestsApart digests) reached
  refine ⟨?_, ?_⟩
  · intro entry member
    exact ofOneRoute_of_gathers (placed.open_ entry member)
  · intro closed member
    rw [← placed.batched] at member
    obtain ⟨batch, isBatch, rfl⟩ := List.mem_map.mp member
    exact ofOneRoute_of_gathers (placed.closed batch isBatch)

/-! ## The identity of a route -/

/-- Every window is read back from its text without saturation.  Routes
have one key exactly if they are equal in every field, and no digest key is
a route's key.  In every run the history of a route is the one its own
calls leave, with the same answers, and every group has members of one
route. -/
theorem route_identity (digests : DigestsApart platform routes) :
    (∀ window : Window,
      (∃ number secs,
        Window.parts window.display.toList = .ok (number, secs) ∧
          number.toNat * secs.toNat = window.secs.toNat) ∧
        Window.fromStr window.display.toList = .ok window) ∧
      (∀ left ∈ routes, ∀ right ∈ routes,
        (routeKey platform left = routeKey platform right ↔
          left.matchRule = right.matchRule ∧
            left.providers = right.providers ∧ left.mode = right.mode ∧
            left.dedup = right.dedup ∧ left.rateLimit = right.rateLimit ∧
            left.groupBy = right.groupBy ∧
            left.groupWait = right.groupWait) ∧
          routeKey platform left ++ "#digest" ≠
            routeKey platform right) ∧
      (∀ route ∈ routes, ∀ calls history,
        Reaches (History.step platform)
            (fun _ call => call.routeIn routes) {} calls history →
          ∃ own,
            Reaches (History.step platform) anyStep {}
              (calls.filter (ThrottleCall.isOf route)) own ∧
            own.table = rowsOf (isKeyOf platform route) history.table ∧
            ∀ check ∈ [signalCheck platform route,
                digestCheck platform route],
              ∀ slot key now, (own.ask check slot key now).map Prod.fst =
                (history.ask check slot key now).map Prod.fst) ∧
      ∀ calls history,
        Reaches (GroupHistory.step platform)
            (fun _ call => call.routeIn routes) {} calls history →
          (∀ entry ∈ history.groups.opened,
            OfOneRoute history.arrivals entry.2.toClosed) ∧
            ∀ closed ∈ history.closed,
              OfOneRoute history.arrivals closed := by
  refine ⟨?_, ?_, ?_, ?_⟩
  · intro window
    exact ⟨window.parts_display, window.fromStr_display⟩
  · intro left leftMember right rightMember
    exact ⟨routeKey_eq_iff digests leftMember rightMember,
      digestKey_ne_routeKey digests left rightMember⟩
  · intro route member calls history reached
    exact history_of_own_calls digests member reached
  · intro calls history reached
    exact groups_of_one_route digests reached

/-- Two routes that differ in their window. -/
def slackWithin (secs : UInt64) : Route where
  providers := ["slack"]
  dedup := some ⟨secs⟩

/-- The digests of the sample routes. -/
def slackPlatform : Platform where
  sha256 text :=
    if text = (slackWithin 600).serialize.text then
      "883590a5fed4e8a0d25b7703457940c04a395ea7168a92ee4c0ab5ab69bca5bb"
    else
      "ae53c3dafcdbc8fd01e772b779363c5d20c6b1b523b7631c3bff335ec08d0c69"
  showTime _ := ""

private theorem digestsApart_slack :
    DigestsApart slackPlatform [slackWithin 600, slackWithin 3600] where
  apart := by decide +kernel
  hexadecimal := by decide +kernel

theorem route_identity_slack :
    routeKey slackPlatform (slackWithin 600) ≠
        routeKey slackPlatform (slackWithin 3600) ∧
      Window.fromStr "18446744073709551615s".toList =
        .ok ⟨18446744073709551615⟩ := by
  obtain ⟨windows, keys, _⟩ := route_identity digestsApart_slack
  refine ⟨?_, ?_⟩
  · intro same
    have fields := (keys (slackWithin 600) (by decide) (slackWithin 3600)
      (by decide)).1.mp same
    exact absurd fields.2.2.2.1 (by decide)
  · exact (windows ⟨18446744073709551615⟩).2

end OpsSignal
