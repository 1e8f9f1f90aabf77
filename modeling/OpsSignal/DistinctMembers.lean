import OpsSignal.Coverage
import OpsSignal.GroupKey
import OpsSignal.SignalOwner

/-!
# How often a group holds a signal

The plan of a signal lists grouped routes by their place in the config,
but groups go by the definition of their route.  A signal whose plan
lists two places with one definition joins one group twice.  If no plan
lists a definition twice, no group holds a signal twice.
-/

namespace OpsSignal

open LabelledRuns

variable {platform : Platform}

/-! ## The groups a call is still to join -/

/-- The grouped routes that the call has listed and not yet joined. -/
def Call.pending (call : Call) : List (Nat × String) :=
  match call.stage with
  | .preparing | .planning => call.loop.grouped
  | .recording => call.plan.grouped
  | .unsent | .holding => call.holds
  | _ => []

/-- The routes of the call's config that stand at the listed places. -/
def Call.routesOf (call : Call) (entries : List (Nat × String)) :
    List Route :=
  entries.filterMap fun entry => call.pipeline.routing.routes[entry.1]?

/-- The planning of the call comes to a grouped route that accepts the
signal and that the gate lets through, and it has listed a route of the
same definition before. -/
def Call.takesAgain (platform : Platform) (table : Table) (call : Call) :
    Bool :=
  match call.stage, call.routes with
  | .planning, (route, _) :: _ =>
      route.isGrouped && route.matchRule.accepts call.signal &&
        (askGate (throttleGate platform call.signal call.now) route
          (table, call.admission)).1.toBool &&
        (call.routesOf call.loop.grouped).any fun other =>
          routeKey platform other == routeKey platform route
  | _, _ => false

/-- No definition is pending twice. -/
structure Call.Once (platform : Platform) (call : Call) : Prop where
  placed : ∀ entry ∈ call.routes,
    call.pipeline.routing.routes[entry.2]? = some entry.1
  keys :
    ((call.routesOf call.pending).map (routeKey platform)).Nodup

section Calls

variable {call : Call} {stores : Stores} {moved : Call × Stores}

theorem grouped_planRoute
    {State : Type} (signal : Signal) (admits : Gate State)
    (current : PlanState × State) (route : Route) (index : Nat) :
    (planRoute signal admits current (route, index)).1.grouped =
        current.1.grouped ∨
      (route.isGrouped = true ∧ route.matchRule.accepts signal = true ∧
        (askGate admits route current.2).1.toBool = true ∧
        ∃ line,
          (planRoute signal admits current (route, index)).1.grouped =
            current.1.grouped ++ [(index, line)]) := by
  by_cases accepted : route.matchRule.accepts signal = true
  · rcases asked : askGate admits route current.2 with ⟨answer, state⟩
    cases answer with
    | error reason =>
        left
        simp [planRoute, accepted, asked]
    | ok =>
        by_cases grouped : route.isGrouped = true
        · right
          refine ⟨grouped, accepted, rfl, ?_⟩
          simp [planRoute, accepted, asked, Route.groupWindow, grouped]
        · left
          simp [planRoute, accepted, asked, Route.groupWindow, grouped]
  · left
    simp [planRoute, accepted]

theorem once_newCall
    (client : Client) (input : SignalInput) (waits : Bool) :
    (client.newCall platform input waits).Once platform where
  placed _ member := absurd member List.not_mem_nil
  keys := List.nodup_nil

private theorem once_prepare
    (moment : Moment) (book : AlertBook) (once : call.Once platform)
    (stage : call.stage = .preparing) :
    (call.prepare platform moment book).Once platform := by
  rw [Call.prepare]
  split
  · exact ⟨once.placed, List.nodup_nil⟩
  · refine ⟨?_, ?_⟩
    · intro entry member
      exact List.mem_zipIdx_iff_getElem?.mp member
    · have keys := once.keys
      simp only [Call.pending, stage] at keys
      exact keys

private theorem once_ask
    {entry : Route × Nat} {rest : List (Route × Nat)}
    (once : call.Once platform)
    (single : call.takesAgain platform stores.table = false)
    (stage : call.stage = .planning) (routes : call.routes = entry :: rest) :
    (call.plan_ platform stores).1.Once platform := by
  obtain ⟨route, index⟩ := entry
  have placed := once.placed
  have keys := once.keys
  rw [routes] at placed
  simp only [Call.pending, stage] at keys
  rw [Call.plan_, routes]
  refine ⟨?_, ?_⟩
  · intro entry member
    exact placed entry (List.mem_cons_of_mem _ member)
  · simp only [Call.pending, stage]
    rcases grouped_planRoute call.signal
        (throttleGate platform call.signal call.now)
        (call.loop, (stores.table, call.admission)) route index with
      same | ⟨grouped, accepted, admitted, line, more⟩
    · rw [same]
      exact keys
    · have here : call.pipeline.routing.routes[index]? = some route :=
        placed (route, index) List.mem_cons_self
      have fresh : routeKey platform route ∉
          (call.routesOf call.loop.grouped).map (routeKey platform) := by
        intro listed
        obtain ⟨other, member, same⟩ := List.mem_map.mp listed
        have again : call.takesAgain platform stores.table = true := by
          simp only [Call.takesAgain, stage, routes, grouped, accepted,
            admitted, Bool.true_and, List.any_eq_true, beq_iff_eq]
          exact ⟨other, member, same⟩
        rw [single] at again
        cases again
      rw [more, Call.routesOf, List.filterMap_append, List.map_append]
      refine List.nodup_append_comm.mp ?_
      simp only [List.filterMap_cons, here, List.filterMap_nil,
        List.map_cons, List.map_nil, List.singleton_append,
        List.nodup_cons]
      exact ⟨fresh, keys⟩

/-- A call that takes no definition again has none pending twice. -/
theorem once_callMove
    (once : call.Once platform)
    (single : call.takesAgain platform stores.table = false)
    (moves : CallMove platform call stores moved) :
    moved.1.Once platform := by
  have keys := once.keys
  cases moves with
  | prepare moment stage =>
      exact once_prepare moment stores.book once stage
  | ask entry rest stage routes => exact once_ask once single stage routes
  | planned stage =>
      simp only [Call.pending, stage] at keys
      exact ⟨once.placed, keys⟩
  | record stage =>
      simp only [Call.pending, stage] at keys
      refine ⟨once.placed, ?_⟩
      rw [Call.record]
      dsimp only [Call.pending]
      split
      · exact keys
      · exact keys
  | unsent stage =>
      simp only [Call.pending, stage] at keys
      exact ⟨once.placed, keys⟩
  | leave | send | finish | cut | settle | note | complete =>
      exact ⟨once.placed, List.nodup_nil⟩
  | skip entry rest stage holds absent =>
      simp only [Call.pending, stage, holds] at keys
      refine ⟨once.placed, ?_⟩
      simp only [Call.pending, stage]
      simpa [Call.routesOf, absent] using keys
  | join route entry rest stage holds listed =>
      simp only [Call.pending, stage, holds] at keys
      refine ⟨once.placed, ?_⟩
      simp only [Call.pending, stage]
      simp only [Call.routesOf, List.filterMap_cons, listed, List.map_cons,
        List.nodup_cons] at keys
      exact keys.2
  | deliver chain system stage =>
      refine ⟨once.placed, ?_⟩
      simp only [Call.pending, stage]
      exact List.nodup_nil

/-- From the time the plan is stored no route becomes pending. -/
theorem pending_callMove
    (planned : 3 < call.stage.rank)
    (moves : CallMove platform call stores moved) :
    ∀ route ∈ moved.1.routesOf moved.1.pending,
      route ∈ call.routesOf call.pending := by
  intro route member
  cases moves with
  | prepare _ stage | ask _ _ stage | planned stage | record stage
  | unsent stage =>
      rw [stage] at planned
      exact absurd planned (by decide)
  | leave | send | finish | cut | settle | note | complete =>
      exact absurd member List.not_mem_nil
  | skip entry rest stage holds absent =>
      simp only [Call.pending, stage] at member
      simp only [Call.pending, stage, holds]
      simp only [Call.routesOf, List.filterMap_cons, absent]
      exact member
  | join route entry rest stage holds listed =>
      simp only [Call.pending, stage] at member
      simp only [Call.pending, stage, holds]
      simp only [Call.routesOf, List.filterMap_cons, listed]
      exact List.mem_cons_of_mem _ member
  | deliver chain system stage =>
      simp only [Call.pending, stage] at member
      exact absurd member List.not_mem_nil

end Calls

/-! ## What joining and closing do to each group -/

section Groups

variable {groups : Groups} {kept : String → List Member → Prop}

/-- What holds of every open group, of a group of one, and of a group that
is joined holds of every group after a signal is added. -/
theorem kept_add
    {route : Route} {member : Member}
    (all : ∀ entry ∈ groups.opened, kept entry.1 entry.2.members)
    (first : kept (groupKey platform route
      (groupValues route member.signal)) [member])
    (joins : ∀ entry ∈ groups.opened,
      entry.1 = groupKey platform route (groupValues route member.signal) →
        kept entry.1 (entry.2.members ++ [member])) :
    (∀ entry ∈ (groups.add platform route member).1.opened,
        kept entry.1 entry.2.members) ∧
      ∀ closed ∈
          Stores.closedBy (groups.add platform route member).2,
        ∃ key, kept key closed.members := by
  have added := Groups.add_eq platform route member groups
  cases found : groups.lookup (groupKey platform route
      (groupValues route member.signal)) with
  | none =>
      simp only [found] at added
      rw [added]
      refine ⟨?_, fun closed listed => absurd listed List.not_mem_nil⟩
      intro entry listed
      rcases List.mem_append.mp listed with old | new
      · exact all entry old
      · rw [List.mem_singleton.mp new]
        exact first
  | some place =>
      obtain ⟨index, group⟩ := place
      have here := List.mem_of_getElem? (Groups.lookup_eq_some found)
      have pushed := joins _ here rfl
      simp only [found, Groups.joinAt] at added
      rw [added]
      split
      · refine ⟨?_, fun closed listed => absurd listed List.not_mem_nil⟩
        intro entry listed
        rcases List.mem_or_eq_of_mem_set listed with old | rfl
        · exact all entry old
        · exact pushed
      · refine ⟨?_, ?_⟩
        · intro entry listed
          exact all entry (List.mem_of_mem_eraseIdx listed)
        · intro closed listed
          rw [List.mem_singleton.mp listed]
          exact ⟨_, pushed⟩

theorem kept_take
    {key : String} {seq : Nat} {rest : Groups} {closed : Closed}
    (all : ∀ entry ∈ groups.opened, kept entry.1 entry.2.members)
    (taken : groups.take key seq = some (rest, closed)) :
    (∀ entry ∈ rest.opened, kept entry.1 entry.2.members) ∧
      ∃ key, kept key closed.members := by
  rw [Groups.take_eq] at taken
  cases found : groups.lookup key with
  | none =>
      rw [found] at taken
      cases taken
  | some place =>
      obtain ⟨index, group⟩ := place
      simp only [found] at taken
      split at taken
      · cases taken
        refine ⟨?_, key, ?_⟩
        · intro entry listed
          exact all entry (List.mem_of_mem_eraseIdx listed)
        · exact all _ (List.mem_of_getElem? (Groups.lookup_eq_some found))
      · cases taken

end Groups

/-! ## One step -/

/-- The id that a call's step stamps is on no signal of another call. -/
def StampsFresh (client : Client) : ClientStep → Bool
  | .call index moment =>
      client.calls[index]?.all fun call =>
        call.stage ≠ .preparing || client.calls.all fun other =>
          other.stage.rank = 0 || other.signal.id ≠ moment.id
  | _ => true

/-- The step takes no definition again. -/
def TakesOnce (platform : Platform) (client : Client) : ClientStep → Bool
  | .call index _ => client.calls[index]?.all fun call =>
      !call.takesAgain platform client.stores.table
  | _ => true

def memberIds (members : List Member) : List String :=
  members.map fun member => member.signal.id

/-- A member is from a call that is not going to join its group again. -/
def Owned
    (platform : Platform) (client : Client) (key : String)
    (member : Member) : Prop :=
  ∃ (index : Nat) (call : Call), client.calls[index]? = some call ∧
    3 < call.stage.rank ∧ member.signal = call.signal ∧
      ∀ route ∈ call.routesOf call.pending,
        groupKey platform route (groupValues route call.signal) ≠ key

/-- The signals of a client's calls are told apart by their ids, and its
groups hold each of them at most once. -/
structure HoldsOnce (platform : Platform) (client : Client) : Prop where
  calls : ∀ call ∈ client.calls, call.Once platform
  apart : ∀ (left right : Nat) (one other : Call),
    client.calls[left]? = some one → client.calls[right]? = some other →
      0 < one.stage.rank → 0 < other.stage.rank →
        one.signal.id = other.signal.id → left = right
  owned : ∀ entry ∈ client.stores.groups.opened,
    ∀ member ∈ entry.2.members, Owned platform client entry.1 member
  opened : ∀ entry ∈ client.stores.groups.opened,
    (memberIds entry.2.members).Nodup
  sent : ∀ sender ∈ client.stores.senders,
    (memberIds sender.closed.members).Nodup

theorem holdsOnce_fromPipeline (pipeline : Pipeline) :
    HoldsOnce platform (Client.fromPipeline pipeline) where
  calls _ member := absurd member List.not_mem_nil
  apart _ _ _ _ found := by
    simp [Client.fromPipeline] at found
  owned _ member := absurd member List.not_mem_nil
  opened _ member := absurd member List.not_mem_nil
  sent _ member := absurd member List.not_mem_nil

section Steps

variable {client next : Client} {label : ClientStep}

/-- A prepared call was prepared before the step, or the step stamped
it. -/
private theorem prepared_before
    {index : Nat} {later : Call} (found : next.calls[index]? = some later)
    (prepared : 0 < later.stage.rank)
    (stepped : client.step platform label = some next) :
    (∃ call, client.calls[index]? = some call ∧ 0 < call.stage.rank ∧
        later.signal = call.signal) ∨
      ∃ moment call, label = .call index moment ∧
        client.calls[index]? = some call ∧ call.stage = .preparing ∧
          later.signal.id = moment.id := by
  rcases call_of_step found stepped with ⟨input, waits, _, rfl⟩ |
    ⟨call, isCall, same | ⟨moved, moves, rfl⟩⟩
  · cases prepared
  · subst same
    exact Or.inl ⟨later, isCall, prepared, rfl⟩
  · by_cases stage : call.stage = .preparing
    · right
      obtain ⟨moment, rfl, rfl⟩ := moves.prepares stage
      refine ⟨moment, call, rfl, isCall, stage, ?_⟩
      rw [Call.prepare]
      split
      · rfl
      · rfl
    · left
      have ranked := rank_pos_of_ne stage
      exact ⟨call, isCall, ranked, signal_callMove ranked moves.move⟩

/-- Fresh ids keep the calls apart. -/
private theorem apart_step
    (once : HoldsOnce platform client)
    (fresh : StampsFresh client label = true)
    (stepped : client.step platform label = some next)
    {left right : Nat} {one other : Call}
    (isOne : next.calls[left]? = some one)
    (isOther : next.calls[right]? = some other)
    (onePrepared : 0 < one.stage.rank) (otherPrepared : 0 < other.stage.rank)
    (same : one.signal.id = other.signal.id) : left = right := by
  have unused : ∀ {index place : Nat} {moment : Moment} {call old : Call},
      label = .call index moment → client.calls[index]? = some call →
        call.stage = .preparing → client.calls[place]? = some old →
          0 < old.stage.rank → old.signal.id ≠ moment.id := by
    intro index place moment call old isLabel found stage isOld prepared
    subst isLabel
    simp only [StampsFresh, found, Option.all_some, stage, ne_eq,
      not_true_eq_false, decide_false, Bool.false_or,
      List.all_eq_true] at fresh
    have apart := fresh old (List.mem_of_getElem? isOld)
    simp only [Bool.or_eq_true, decide_eq_true_eq] at apart
    exact apart.resolve_left (by omega)
  rcases prepared_before isOne onePrepared stepped with
    ⟨old, isOld, oldPrepared, oldSignal⟩ |
    ⟨moment, call, isLabel, found, stage, stamped⟩
  · rcases prepared_before isOther otherPrepared stepped with
      ⟨past, isPast, pastPrepared, pastSignal⟩ |
      ⟨moment, call, isLabel, found, stage, stamped⟩
    · exact once.apart left right old past isOld isPast oldPrepared
        pastPrepared (by rw [← oldSignal, ← pastSignal, same])
    · exact absurd (by rw [← oldSignal, same, stamped])
        (unused isLabel found stage isOld oldPrepared)
  · rcases prepared_before isOther otherPrepared stepped with
      ⟨past, isPast, pastPrepared, pastSignal⟩ |
      ⟨again, call, sameLabel, _, _, _⟩
    · exact absurd (by rw [← pastSignal, ← same, stamped])
        (unused isLabel found stage isPast pastPrepared)
    · rw [isLabel] at sameLabel
      cases sameLabel
      rfl

/-- A member stays owned while no call joins its group. -/
private theorem owned_step
    {key : String} {member : Member}
    (owned : Owned platform client key member)
    (stepped : client.step platform label = some next) :
    Owned platform next key member := by
  obtain ⟨index, call, found, planned, same, apart⟩ := owned
  obtain ⟨later, isLater, moved⟩ := call_step found stepped
  rcases moved with rfl | ⟨moved, moves, rfl⟩
  · exact ⟨index, later, isLater, planned, same, apart⟩
  · have move := moves.move
    have ranked := rank_callMove move
    have signal : moved.1.signal = call.signal :=
      signal_callMove (by omega) move
    refine ⟨index, moved.1, isLater, by omega, same.trans signal.symm, ?_⟩
    intro route pending
    rw [signal]
    exact apart route (pending_callMove planned move route pending)

/-- What a signal that joins its group may rely on. -/
private theorem fresh_of_owned
    (once : HoldsOnce platform client) {index : Nat} {call : Call}
    (found : client.calls[index]? = some call)
    (stage : call.stage = .holding) {key : String} {members : List Member}
    (owned : ∀ member ∈ members, Owned platform client key member)
    {route : Route} (pending : route ∈ call.routesOf call.pending)
    (same : key = groupKey platform route
      (groupValues route call.signal)) :
    call.signal.id ∉ memberIds members := by
  intro listed
  obtain ⟨member, isMember, sameId⟩ := List.mem_map.mp listed
  obtain ⟨other, owner, isOwner, ranked, signal, apart⟩ :=
    owned member isMember
  have sameIndex : other = index := by
    refine once.apart other index owner call isOwner found (by omega)
      (by simp [stage, CallStage.rank]) ?_
    rw [← signal]
    exact sameId
  subst sameIndex
  cases found.symm.trans isOwner
  exact apart route pending same.symm

/-- A group as it may be after a step. -/
private def GroupAfter
    (platform : Platform) (next : Client) (key : String)
    (members : List Member) : Prop :=
  (∀ member ∈ members, Owned platform next key member) ∧
    (memberIds members).Nodup

/-- A call that joins a group is not a member of it yet. -/
private theorem groupAfter_join
    (once : HoldsOnce platform client)
    (all : ∀ entry ∈ client.stores.groups.opened,
      GroupAfter platform next entry.1 entry.2.members)
    {index : Nat} {call : Call} {route : Route} {entry : Nat × String}
    {rest : List (Nat × String)} (stage : call.stage = .holding)
    (holds : call.holds = entry :: rest)
    (listed : call.pipeline.routing.routes[entry.1]? = some route)
    (member : Member) (same : member.signal = call.signal)
    (found : client.calls[index]? = some call) {later : Call}
    (isLater : next.calls[index]? = some later)
    (laterStage : later.stage = .holding) (laterHolds : later.holds = rest)
    (laterSignal : later.signal = call.signal)
    (laterPipeline : later.pipeline = call.pipeline) :
    (∀ entry ∈
        (client.stores.groups.add platform route member).1.opened,
        GroupAfter platform next entry.1 entry.2.members) ∧
      ∀ closed ∈ Stores.closedBy
          (client.stores.groups.add platform route member).2,
        ∃ key, GroupAfter platform next key closed.members := by
  have pending : call.routesOf call.pending =
      route :: call.routesOf rest := by
    simp only [Call.pending, stage, holds]
    simp only [Call.routesOf, List.filterMap_cons, listed]
  have keys := (once.calls call (List.mem_of_getElem? found)).keys
  rw [pending, List.map_cons, List.nodup_cons] at keys
  have owned : Owned platform next
      (groupKey platform route (groupValues route member.signal))
      member := by
    refine ⟨index, later, isLater, ?_, same.trans laterSignal.symm, ?_⟩
    · simp [laterStage, CallStage.rank]
    · intro other isOther sameKey
      simp only [Call.pending, laterStage, laterHolds, Call.routesOf,
        laterPipeline] at isOther
      apply keys.1
      rw [← (parts_of_groupKey_eq sameKey).1]
      exact List.mem_map_of_mem isOther
  apply kept_add all
  · refine ⟨?_, List.nodup_singleton _⟩
    intro other isOther
    rw [List.mem_singleton.mp isOther]
    exact owned
  · intro opened isOpened sameKey
    obtain ⟨allOwned, distinct⟩ := all opened isOpened
    refine ⟨?_, ?_⟩
    · intro other isOther
      rcases List.mem_append.mp isOther with old | new
      · exact allOwned other old
      · rw [List.mem_singleton.mp new, sameKey]
        exact owned
    · have fresh : call.signal.id ∉ memberIds opened.2.members := by
        apply fresh_of_owned once found stage
          (once.owned opened isOpened)
        · rw [pending]
          exact List.mem_cons_self
        · rw [sameKey, same]
      rw [memberIds, List.map_append]
      refine List.nodup_append_comm.mp ?_
      rw [List.map_cons, List.map_nil, List.singleton_append, same]
      exact List.nodup_cons.mpr ⟨fresh, distinct⟩

/-- The groups after a step of a call. -/
private theorem groupAfter_call
    (once : HoldsOnce platform client)
    (all : ∀ entry ∈ client.stores.groups.opened,
      GroupAfter platform next entry.1 entry.2.members)
    {index : Nat} {call : Call} {moved : Call × Stores}
    (found : client.calls[index]? = some call)
    (isNext : next = client.putCall index moved)
    (moves : CallMove platform call client.stores moved) :
    (∀ entry ∈ moved.2.groups.opened,
        GroupAfter platform next entry.1 entry.2.members) ∧
      ∀ sender ∈ moved.2.senders, sender ∈ client.stores.senders ∨
        ∃ key, GroupAfter platform next key sender.closed.members := by
  have unchanged : moved.2.groups = client.stores.groups ∧
      moved.2.senders = client.stores.senders →
        (∀ entry ∈ moved.2.groups.opened,
            GroupAfter platform next entry.1 entry.2.members) ∧
          ∀ sender ∈ moved.2.senders, sender ∈ client.stores.senders ∨
            ∃ key, GroupAfter platform next key sender.closed.members := by
    rintro ⟨groups, senders⟩
    rw [groups, senders]
    exact ⟨all, fun _ old => Or.inl old⟩
  by_cases stage : call.stage = .holding
  · cases moves with
    | leave | send | skip => exact unchanged ⟨rfl, rfl⟩
    | join route entry rest holding holds listed =>
        obtain ⟨_, _, _, groups, senders⟩ := client.stores.hold_facts
          platform route
          ⟨call.signal, (call.admission.splitOff platform route).2,
            call.plan.targets.isEmpty⟩
        have bound := (List.getElem?_eq_some_iff.mp found).1
        have isLater : next.calls[index]? = some
            { call with
              holds := rest
              admission := (call.admission.splitOff platform route).1 } := by
          rw [isNext]
          exact List.getElem?_set_self bound
        obtain ⟨opened, closed⟩ := groupAfter_join once all stage holds listed
          ⟨call.signal, (call.admission.splitOff platform route).2,
            call.plan.targets.isEmpty⟩
          rfl found isLater stage rfl rfl rfl
        refine ⟨?_, ?_⟩
        · dsimp only
          rw [groups]
          exact opened
        · intro sender member
          dsimp only at member
          rw [senders] at member
          rcases List.mem_append.mp member with old | new
          · exact Or.inl old
          · obtain ⟨group, isGroup, rfl⟩ := List.mem_map.mp new
            exact Or.inr (closed group isGroup)
    | prepare _ other | ask _ _ other | planned other | record other
    | unsent other | finish other | cut _ other | deliver _ _ other
    | settle other | note other | complete other =>
        rw [stage] at other
        cases other
  · exact unchanged (groups_callMove stage moves)

/-- The groups after any step. -/
private theorem groupAfter_step
    (once : HoldsOnce platform client)
    (stepped : client.step platform label = some next) :
    (∀ entry ∈ next.stores.groups.opened,
        GroupAfter platform next entry.1 entry.2.members) ∧
      ∀ sender ∈ next.stores.senders,
        (memberIds sender.closed.members).Nodup := by
  have all : ∀ entry ∈ client.stores.groups.opened,
      GroupAfter platform next entry.1 entry.2.members := fun entry member =>
    ⟨fun other isOther =>
        owned_step (once.owned entry member other isOther) stepped,
      once.opened entry member⟩
  have started : ∀ {closed : List Closed},
      (∀ group ∈ closed, ∃ key, GroupAfter platform next key group.members) →
        ∀ sender ∈ client.stores.senders ++ closed.map Sender.start,
          (memberIds sender.closed.members).Nodup := by
    intro closed kept sender member
    rcases List.mem_append.mp member with old | new
    · exact once.sent sender old
    · obtain ⟨group, isGroup, rfl⟩ := List.mem_map.mp new
      obtain ⟨_, _, distinct⟩ := kept group isGroup
      exact distinct
  have taken : ∀ {key seq rest closed},
      client.stores.groups.take key seq = some (rest, closed) →
        (∀ entry ∈ rest.opened,
          GroupAfter platform next entry.1 entry.2.members) ∧
          ∃ key, GroupAfter platform next key closed.members :=
    fun isTaken => kept_take all isTaken
  rcases step_cases stepped with ⟨input, waits, rfl, _, rfl⟩ |
    ⟨index, call, moved, found, moves, isNext⟩ |
    ⟨index, sender, moved, found, moves, rfl⟩ | ⟨index, rfl, elapsed⟩ |
    ⟨rfl, rfl⟩ | ⟨pipeline, rfl, rfl⟩
  · exact ⟨all, once.sent⟩
  · obtain ⟨opened, sent⟩ := groupAfter_call once all found isNext moves.move
    rw [isNext] at opened sent ⊢
    refine ⟨opened, ?_⟩
    intro sender member
    rcases sent sender member with old | ⟨_, _, distinct⟩
    · exact once.sent sender old
    · exact distinct
  · refine ⟨?_, ?_⟩
    · have groups := groups_senderMove moves.move
      dsimp only [Client.putSender]
      rw [groups]
      exact all
    · intro later member
      have closed := closed_putSender found moves.move
      have listed : later.closed ∈
          client.stores.senders.map Sender.closed := by
        rw [← closed]
        exact List.mem_map_of_mem member
      obtain ⟨old, isOld, same⟩ := List.mem_map.mp listed
      rw [← same]
      exact once.sent old isOld
  · obtain ⟨timer, _, isNext⟩ := Option.map_eq_some_iff.mp elapsed
    cases isTaken : client.stores.groups.take timer.1 timer.2 with
    | none =>
        simp only [isTaken] at isNext
        rw [← isNext] at all ⊢
        exact ⟨all, once.sent⟩
    | some result =>
        obtain ⟨groups, closed⟩ := result
        obtain ⟨opened, sent⟩ := taken isTaken
        simp only [isTaken] at isNext
        rw [← isNext] at opened sent started ⊢
        refine ⟨opened, @started [closed] ?_⟩
        intro group listed
        rw [List.mem_singleton.mp listed]
        exact sent
  · refine ⟨fun entry member => absurd member List.not_mem_nil,
      started ?_⟩
    intro group listed
    obtain ⟨entry, member, rfl⟩ := List.mem_map.mp listed
    exact ⟨entry.1, all entry member⟩
  · exact ⟨all, once.sent⟩

/-- A step that stamps a fresh id and takes no definition again leaves
every group with one copy of each signal. -/
theorem holdsOnce_step
    (once : HoldsOnce platform client)
    (fresh : StampsFresh client label = true)
    (single : TakesOnce platform client label = true)
    (stepped : client.step platform label = some next) :
    HoldsOnce platform next := by
  obtain ⟨opened, sent⟩ := groupAfter_step once stepped
  refine ⟨?_, ?_, fun entry member => (opened entry member).1,
    fun entry member => (opened entry member).2, sent⟩
  · intro later member
    obtain ⟨index, found⟩ := List.mem_iff_getElem?.mp member
    rcases call_of_step found stepped with ⟨input, waits, _, rfl⟩ |
      ⟨call, isCall, same | ⟨moved, moves, rfl⟩⟩
    · exact once_newCall client input waits
    · rw [same]
      exact once.calls call (List.mem_of_getElem? isCall)
    · have before := once.calls call (List.mem_of_getElem? isCall)
      apply once_callMove before ?_ moves.move
      rcases moves with ⟨moment, rfl, _⟩ | ⟨chain, rfl, moves⟩ |
        ⟨message, rfl, ended, moves, _⟩
      · simpa [TakesOnce, isCall] using single
      · simp [Call.takesAgain, stage_of_deliver moves]
      · simp [Call.takesAgain, stage_of_cut moves]
  · intro left right one other isOne isOther onePrepared otherPrepared same
    exact apart_step once fresh stepped isOne isOther onePrepared
      otherPrepared same

end Steps

/-! ## Runs -/

/-- The digest of a group counts each of its signals once, and a group of
one signal is sent as that signal. -/
structure Closed.Distinct (platform : Platform) (closed : Closed) : Prop where
  once : (memberIds closed.members).Nodup
  counted :
    ((closed.metadata platform).get "digest").bind (Json.get "count") =
      some (.number (toString (memberIds closed.members).dedup.length))
  alone :
    (∀ member ∈ closed.members, member.signal.id = closed.first.id) →
      ∀ moment stores,
        ((Sender.start closed).open_ platform moment stores).1.signal =
          closed.first

/-- No signal twice is enough. -/
theorem distinct_of_nodup
    {closed : Closed} (once : (memberIds closed.members).Nodup) :
    closed.Distinct platform where
  once := once
  counted := by
    rw [once.dedup, memberIds, List.length_map]
    rfl
  alone same moment stores := by
    have one : closed.members.length = 1 := by
      have all : memberIds closed.members =
          List.replicate closed.members.length closed.first.id :=
        List.eq_replicate_iff.mpr
          ⟨by rw [memberIds, List.length_map], by
            simpa [memberIds] using same⟩
      rw [all, List.nodup_replicate] at once
      have some : 0 < closed.members.length :=
        List.length_pos_iff.mpr closed.nonempty
      omega
    have single : closed.single = true := by
      rw [Closed.single, one]
      rfl
    rw [Sender.open_]
    simp [Sender.start, single]

/-- The step stamps a fresh id and takes no definition again. -/
def StampsAndTakesOnce
    (platform : Platform) (client : Client) (label : ClientStep) : Prop :=
  StampsFresh client label = true ∧ TakesOnce platform client label = true

instance decidableStampsAndTakesOnce
    (platform : Platform) (client : Client) (label : ClientStep) :
    Decidable (StampsAndTakesOnce platform client label) :=
  inferInstanceAs (Decidable (_ ∧ _))

/-- While no plan takes one definition of a grouped route twice, no group
holds a signal twice. -/
theorem groups_hold_signals_once
    {pipeline : Pipeline} {labels : List ClientStep} {final : Client}
    (reached : Runs platform (StampsAndTakesOnce platform) pipeline labels
      final) :
    ∀ sender ∈ final.stores.senders, sender.closed.Distinct platform := by
  have once : HoldsOnce platform final :=
    reached.invariant (holdsOnce_fromPipeline pipeline)
      fun _ _ _ once met stepped =>
        holdsOnce_step once met.1 met.2 stepped
  intro sender member
  exact distinct_of_nodup (once.sent sender member)

/-! ## One definition in two layers -/

def repeatPlatform : Platform where
  sha256 text :=
    if text = digestRoute.serialize.text then
      "11f4eced6ba6d6cd92563601551d9799c19faf3c6d241e4defabecc1f1cc4c60"
    else
      ""
  showTime _ := ""

/-- A base file and, before it, a team file that may repeat its route. -/
def repeatLayers (team : List Route) : List (Option String × Layer) :=
  [(some "base.yaml",
      { providers := { slack := sampleProviders.slack }
        routes := [digestRoute] }),
    (some "team.yaml", { routes := team })]

def repeatConfig (team : List Route) : Config where
  providers := { slack := sampleProviders.slack }
  routes := team ++ [digestRoute]

theorem fromLayers_repeatLayers :
    Config.fromLayers sampleLibraries (repeatLayers [digestRoute]) =
      .ok (repeatConfig [digestRoute]) :=
  rfl

/-- A trigger of one service. -/
def serviceInput : SignalInput where
  source := "airflow"
  service := some "orders"
  eventType := "task_failed"
  title := "load_orders failed"

def momentOf (id : String) : Moment where
  now := 0
  id := id
  timestamp := 0
  answers _ _ := .ok none

/-- A trigger is held by all of its groups. -/
def heldCall (index turns : Nat) (id : String) : List ClientStep :=
  .start serviceInput false ::
    List.replicate turns (.call index (momentOf id))

/-- Two signals in one digest. -/
theorem groups_hold_signals_once_two :
    ∃ client sender,
      run (Client.step repeatPlatform) (StampsAndTakesOnce repeatPlatform)
          (Client.fromPipeline (Pipeline.fromConfig (repeatConfig [])))
          (heldCall 0 7 "signal-1" ++ heldCall 1 7 "signal-2" ++
            [.timer 0]) = some client ∧
        sender ∈ client.stores.senders ∧
        memberIds sender.closed.members = ["signal-1", "signal-2"] ∧
        sender.closed.Distinct repeatPlatform := by
  have computed : ((run (Client.step repeatPlatform)
      (StampsAndTakesOnce repeatPlatform)
      (Client.fromPipeline (Pipeline.fromConfig (repeatConfig [])))
      (heldCall 0 7 "signal-1" ++ heldCall 1 7 "signal-2" ++
        [.timer 0])).any fun client =>
          client.stores.senders.any fun sender =>
            memberIds sender.closed.members = ["signal-1", "signal-2"]) =
        true := by
    decide +kernel
  obtain ⟨client, ran, computed⟩ := Option.any_eq_true _ _ |>.mp computed
  obtain ⟨sender, member, ids⟩ := List.any_eq_true.mp computed
  exact ⟨client, sender, ran, member, of_decide_eq_true ids,
    groups_hold_signals_once (reaches_of_run ran) sender member⟩

/-- The team file repeats the base file's grouped route, and one signal
becomes a digest of two. -/
theorem repeated_route_holds_twice :
    ¬ ∀ libraries layers config,
        Config.fromLayers libraries layers = .ok config →
          ∀ platform labels client,
            (∀ input waits, .start input waits ∈ labels →
              input.action = .trigger) →
            Runs platform (fun client label =>
                StampsFresh client label = true)
              (Pipeline.fromConfig config) labels client →
              ∀ sender ∈ client.stores.senders,
                sender.closed.Distinct platform := by
  intro claimed
  have computed : ((run (Client.step repeatPlatform)
      (fun client label => StampsFresh client label = true)
      (Client.fromPipeline
        (Pipeline.fromConfig (repeatConfig [digestRoute])))
      (heldCall 0 9 "signal-1" ++ [.timer 0])).any fun client =>
        client.stores.senders.any fun sender =>
          memberIds sender.closed.members = ["signal-1", "signal-1"]) =
        true := by
    decide +kernel
  obtain ⟨client, ran, computed⟩ := Option.any_eq_true _ _ |>.mp computed
  obtain ⟨sender, member, ids⟩ := List.any_eq_true.mp computed
  have triggers : ∀ input waits,
      ClientStep.start input waits ∈
        heldCall 0 9 "signal-1" ++ [.timer 0] →
          input.action = .trigger := by
    intro input waits listed
    have isInput : input = serviceInput := by
      simpa [heldCall] using And.left (by simpa [heldCall] using listed)
    rw [isInput]
    rfl
  have distinct := (claimed _ _ _ fromLayers_repeatLayers repeatPlatform _
    client triggers (reaches_of_run ran) sender member).once
  rw [of_decide_eq_true ids] at distinct
  simp at distinct

end OpsSignal
