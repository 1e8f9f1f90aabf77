import OpsSignal.CutDelivery
import OpsSignal.RecordedSends
import OpsSignal.ResolvedAlerts
import OpsSignal.SignalOwner

/-!
# Where a duplicate comes from

A signal that `dedup` turns down is a duplicate of one that is on record.
Where every route sends at once, that one is still being delivered, or
some provider of its plan delivered it: a signal is taken back as a whole,
only when no provider delivered it.
-/

namespace OpsSignal

open Holdings LabelledRuns

variable {platform : Platform}

/-! ## Routes that send at once -/

/-- Every route is ungrouped, and lists a provider. -/
def Pipeline.SendsAtOnce (pipeline : Pipeline) : Prop :=
  ∀ route ∈ pipeline.routing.routes,
    route.isGrouped = false ∧ route.providers ≠ []

instance decidableSendsAtOnce (pipeline : Pipeline) :
    Decidable pipeline.SendsAtOnce :=
  inferInstanceAs (Decidable (∀ route ∈ _, _))

/-- A reload keeps to routes that send at once. -/
def StaysAtOnce (_ : Client) : ClientStep → Prop
  | .reload pipeline => pipeline.SendsAtOnce
  | _ => True

instance decidableStaysAtOnce (client : Client) (label : ClientStep) :
    Decidable (StaysAtOnce client label) := by
  unfold StaysAtOnce
  split <;> infer_instance

/-- A call holds nothing for groups; what it has on record was admitted by
its routes, which gave it targets. -/
structure Call.AtOnce (platform : Platform) (call : Call) : Prop where
  ready : call.pipeline.SendsAtOnce
  routes : ∀ entry ∈ call.routes,
    entry.1 ∈ call.pipeline.routing.routes
  loop : call.loop.grouped = []
  plan : call.plan.grouped = []
  holds : call.holds = []
  gathered : call.loop.Gathered
  fresh : call.stage = .preparing → call.admission.rows = []
  rows : ∀ row ∈ call.admission.rows,
    row.dedupKey = throttleKey call.signal ∧ row.sentAt = call.now ∧
      ∃ route ∈ call.pipeline.routing.routes,
        row.route = routeKey platform route
  placed : call.stage = .planning → call.admission.rows ≠ [] →
    call.loop.placement.targets ≠ []
  sent : call.stage ≠ .planning → call.admission.rows ≠ [] →
    call.plan.targets ≠ []

theorem targets_foldl_place_ne_nil
    {entries : List (DeliveryMode × String)} (nonempty : entries ≠ []) :
    (entries.foldl Placement.place {}).targets ≠ [] := by
  obtain ⟨entry, member⟩ := List.exists_mem_of_ne_nil _ nonempty
  have named : entry.2 ∈
      (entries.foldl Placement.place {}).targets.flatten := by
    rw [targets_foldl_place]
    exact mem_flatten_layout_firsts.mpr (List.mem_map_of_mem member)
  obtain ⟨target, listed, _⟩ := List.mem_flatten.mp named
  exact List.ne_nil_of_mem listed

/-- One turn of the loop over ungrouped routes: it leaves the plan's
providers and the record alone, or the route gives the signal targets. -/
theorem planRoute_ungrouped
    {signal : Signal} {now : Int} {loop : PlanState} {ledger : Ledger}
    {entry : Route × Nat} (gathered : loop.Gathered)
    (ungrouped : entry.1.isGrouped = false)
    (nonempty : entry.1.providers ≠ [])
    {result : PlanState × Ledger}
    (planned : result = planRoute signal (throttleGate platform signal now)
      (loop, ledger) entry) :
    result.1.grouped = loop.grouped ∧
      ((result.1.placement = loop.placement ∧
          result.2.2.rows = ledger.2.rows) ∨
        (result.1.placement.targets ≠ [] ∧
          (result.2.2.rows = ledger.2.rows ∨
            result.2.2.rows = ledger.2.rows ++
              [⟨routeKey platform entry.1, throttleKey signal, now⟩]))) := by
  have placed : (entry.1.entries.foldl Placement.place
      loop.placement).targets ≠ [] := by
    obtain ⟨entries, placement⟩ := gathered
    rw [placement, ← List.foldl_append]
    apply targets_foldl_place_ne_nil
    simp [Route.entries, nonempty]
  have window : entry.1.groupWindow = none := by
    simp [Route.groupWindow, ungrouped]
  rw [planRoute] at planned
  split at planned
  · subst planned
    exact ⟨rfl, Or.inl ⟨rfl, rfl⟩⟩
  · dsimp only at planned
    rw [askGate] at planned
    by_cases gates : entry.1.gatesSignals = true
    · rw [if_pos gates, throttleGate] at planned
      rcases run_cases (signalCheck platform entry.1) (throttleKey signal) now
        ledger with ⟨_, same⟩ | ⟨reason, _, same⟩ | ⟨_, _, same⟩
      · simp only [same, window] at planned
        subst planned
        exact ⟨rfl, Or.inr ⟨placed, Or.inl rfl⟩⟩
      · simp only [same] at planned
        subst planned
        exact ⟨rfl, Or.inl ⟨rfl, rfl⟩⟩
      · simp only [same, window] at planned
        subst planned
        exact ⟨rfl, Or.inr ⟨placed, Or.inr rfl⟩⟩
    · simp only [if_neg gates, window] at planned
      subst planned
      exact ⟨rfl, Or.inr ⟨placed, Or.inl rfl⟩⟩

section Move

variable {call : Call} {stores : Stores} {moved : Call × Stores}

theorem atOnce_prepare
    (atOnce : call.AtOnce platform) (stage : call.stage = .preparing)
    (moment : Moment) (book : AlertBook) :
    (call.prepare platform moment book).AtOnce platform := by
  have empty := atOnce.fresh stage
  rw [Call.prepare]
  split
  · exact
      { atOnce with
        plan := rfl
        fresh := fun _ => empty
        rows := by simp [empty]
        placed := by simp
        sent := by simp [empty] }
  · refine
      { atOnce with
        routes := ?_
        fresh := fun _ => empty
        rows := by simp [empty]
        placed := by simp [empty]
        sent := by simp }
    intro entry member
    obtain ⟨_, _, same⟩ := List.mem_zipIdx member
    exact same ▸ List.getElem_mem _

theorem atOnce_ask
    (atOnce : call.AtOnce platform) (stage : call.stage = .planning)
    {entry : Route × Nat} {rest : List (Route × Nat)}
    (routes : call.routes = entry :: rest) (stores : Stores) :
    (call.plan_ platform stores).1.AtOnce platform := by
  have listed := atOnce.routes entry (routes ▸ List.mem_cons_self)
  obtain ⟨ungrouped, nonempty⟩ := atOnce.ready entry.1 listed
  obtain ⟨grouped, recorded⟩ := @planRoute_ungrouped platform call.signal
    call.now call.loop (stores.table, call.admission) entry atOnce.gathered
    ungrouped nonempty _ rfl
  rw [Call.plan_, routes]
  exact
    { atOnce with
      routes := fun other member =>
        atOnce.routes other (routes ▸ List.mem_cons_of_mem _ member)
      loop := grouped.trans atOnce.loop
      gathered := gathered_planRoute atOnce.gathered
      fresh := fun preparing => absurd preparing (by simp [stage])
      rows := by
        intro row member
        rcases recorded with ⟨_, same⟩ | ⟨_, same | same⟩
        · exact atOnce.rows row (same ▸ member)
        · exact atOnce.rows row (same ▸ member)
        · rw [same] at member
          rcases List.mem_append.mp member with old | new
          · exact atOnce.rows row old
          · rw [List.mem_singleton.mp new]
            exact ⟨rfl, rfl, entry.1, listed, rfl⟩
      placed := by
        intro _ filled
        rcases recorded with ⟨same, sameRows⟩ | ⟨targets, _⟩
        · dsimp only at filled ⊢
          rw [sameRows] at filled
          rw [same]
          exact atOnce.placed stage filled
        · exact targets
      sent := fun notPlanning => absurd stage notPlanning }

theorem atOnce_callMove
    (atOnce : call.AtOnce platform)
    (moves : CallMove platform call stores moved) :
    moved.1.AtOnce platform := by
  cases moves with
  | prepare moment stage => exact atOnce_prepare atOnce stage moment _
  | ask entry rest stage routes => exact atOnce_ask atOnce stage routes stores
  | planned stage routes =>
      refine
        { atOnce with
          plan := atOnce.loop
          fresh := by simp
          placed := by simp
          sent := ?_ }
      intro _ filled
      rw [PlanState.finish]
      dsimp only
      split
      · exact List.cons_ne_nil _ _
      · exact atOnce.placed stage filled
  | record stage =>
      have sent := atOnce.sent (by simp [stage])
      refine
        { atOnce with
          holds := atOnce.plan
          fresh := ?_
          placed := ?_
          sent := fun _ => sent }
      · intro preparing
        rw [Call.record] at preparing
        dsimp only at preparing
        split at preparing
        · cases preparing
        · cases preparing
      · intro planning
        rw [Call.record] at planning
        dsimp only at planning
        split at planning
        · cases planning
        · cases planning
  | skip entry rest stage holds absent
  | join route entry rest stage holds listed =>
      rw [atOnce.holds] at holds
      cases holds
  | deliver chain system stage advanced =>
      exact
        { atOnce with
          fresh := atOnce.fresh
          placed := atOnce.placed
          sent := atOnce.sent }
  | unsent stage | leave stage | send stage | finish stage | cut _ stage
  | settle stage | note stage | complete stage =>
      exact
        { atOnce with
          fresh := by simp [Call.settleUnsent, Call.finish]
          placed := by simp [Call.settleUnsent, Call.finish]
          sent := fun _ => atOnce.sent (by simp [stage]) }

end Move

/-! ## Runs -/

/-- Nothing is held. -/
structure Client.AtOnce (platform : Platform) (client : Client) : Prop where
  pipeline : client.pipeline.SendsAtOnce
  calls : ∀ call ∈ client.calls, call.AtOnce platform
  groups : client.stores.groups.opened = []
  senders : client.stores.senders = []

section Runs

variable {pipeline : Pipeline} {labels : List ClientStep}
  {client next : Client} {label : ClientStep}

theorem atOnce_newCall
    (ready : client.pipeline.SendsAtOnce) (input : SignalInput)
    (waits : Bool) : (client.newCall platform input waits).AtOnce platform where
  ready := ready
  routes _ member := absurd member List.not_mem_nil
  loop := rfl
  plan := rfl
  holds := rfl
  gathered := ⟨[], rfl⟩
  fresh _ := rfl
  rows _ member := absurd member List.not_mem_nil
  placed _ filled := absurd rfl filled
  sent _ filled := absurd rfl filled

theorem groups_of_atOnce
    {call : Call} {stores : Stores} {moved : Call × Stores}
    (atOnce : call.AtOnce platform)
    (moves : CallMove platform call stores moved) :
    moved.2.groups = stores.groups ∧ moved.2.senders = stores.senders := by
  by_cases stage : call.stage = .holding
  · cases moves with
    | leave | send | skip => exact ⟨rfl, rfl⟩
    | join route entry rest _ holds listed =>
        rw [atOnce.holds] at holds
        cases holds
    | prepare _ other | ask _ _ other | planned other | record other
    | unsent other | finish other | cut _ other | deliver _ _ other
    | settle other | note other | complete other =>
        exact absurd (stage.symm.trans other) (by simp)
  · exact groups_callMove stage moves

theorem atOnce_step
    (atOnce : client.AtOnce platform) (stays : StaysAtOnce client label)
    (stepped : client.step platform label = some next) :
    next.AtOnce platform := by
  have calls : ∀ call ∈ next.calls, call.AtOnce platform := by
    intro later isLater
    obtain ⟨index, found⟩ := List.mem_iff_getElem?.mp isLater
    rcases call_of_step found stepped with ⟨input, waits, _, rfl⟩ |
      ⟨call, isCall, same | ⟨moved, moves, rfl⟩⟩
    · exact atOnce_newCall atOnce.pipeline input waits
    · exact same ▸ atOnce.calls call (List.mem_of_getElem? isCall)
    · exact atOnce_callMove
        (atOnce.calls call (List.mem_of_getElem? isCall)) moves.move
  rcases step_cases stepped with ⟨input, waits, rfl, _, rfl⟩ |
    ⟨index, call, moved, found, moves, rfl⟩ |
    ⟨index, sender, moved, found, _, _⟩ | ⟨index, rfl, elapsed⟩ |
    ⟨rfl, rfl⟩ | ⟨pipeline, rfl, rfl⟩
  · exact ⟨atOnce.pipeline, calls, atOnce.groups, atOnce.senders⟩
  · obtain ⟨groups, senders⟩ := groups_of_atOnce
      (atOnce.calls call (List.mem_of_getElem? found)) moves.move
    exact ⟨atOnce.pipeline, calls,
      (congrArg Groups.opened groups).trans atOnce.groups,
      senders.trans atOnce.senders⟩
  · rw [atOnce.senders] at found
    cases found
  · obtain ⟨timer, found, rfl⟩ := Option.map_eq_some_iff.mp elapsed
    have none : client.stores.groups.take timer.1 timer.2 = none := by
      simp [Groups.take, atOnce.groups]
    dsimp only at calls ⊢
    rw [none] at calls ⊢
    exact ⟨atOnce.pipeline, calls, atOnce.groups, atOnce.senders⟩
  · refine ⟨atOnce.pipeline, calls, rfl, ?_⟩
    simp [Client.flush, Stores.spawn, Groups.takeAll, atOnce.groups,
      atOnce.senders]
  · exact ⟨stays, calls, atOnce.groups, atOnce.senders⟩

theorem atOnce_runs
    (ready : pipeline.SendsAtOnce)
    (reached : Runs platform StaysAtOnce pipeline labels client) :
    client.AtOnce platform := by
  induction reached with
  | nil =>
      exact ⟨ready, fun _ member => absurd member List.not_mem_nil, rfl, rfl⟩
  | snoc _ stays stepped inductionHypothesis =>
      exact atOnce_step inductionHypothesis stays stepped

/-! ## Main result -/

/-- The call's signal was admitted by a route with this key. -/
structure Call.AdmittedBy
    (platform : Platform) (route : Route) (call : Call) : Prop where
  recorded : ⟨routeKey platform route, throttleKey call.signal, call.now⟩ ∈
    call.admission.rows
  listed : ∃ same ∈ call.pipeline.routing.routes,
    routeKey platform same = routeKey platform route

/-- The delivery of the call's signal is not settled yet. -/
def Call.UnderDelivery (call : Call) : Prop :=
  call.stage.rank ≤ CallStage.settling.rank

/-- One of these providers delivered the call's signal. -/
def Call.DeliveredBy (names : List String) (call : Call) : Prop :=
  ∃ outcome ∈ call.result.deliveries,
    outcome.provider ∈ names ∧ outcome.status = .delivered

/-- What is on record for a settled call was delivered. -/
theorem delivered_of_sends
    {call : Call} (sound : call.Sound) (atOnce : call.AtOnce platform)
    {row : Row} (recorded : row ∈ call.sends) :
    row ∈ call.admission.rows ∧
      (call.UnderDelivery ∨ call.DeliveredBy call.plan.providers) := by
  have kept : ¬ call.Released := by
    intro released
    rw [Call.sends, if_pos released] at recorded
    exact absurd recorded (Multiset.notMem_zero row)
  rw [sends_of_early kept] at recorded
  refine ⟨recorded, ?_⟩
  have filled : call.admission.rows ≠ [] := List.ne_nil_of_mem recorded
  have delivered (ended : call.Ended)
      (notFailed : call.result.status ≠ .failed) :
      call.DeliveredBy call.plan.providers := by
    obtain ⟨nonempty, _, cutOff, result⟩ := sound.ended ended
    rw [result] at notFailed
    rw [Call.DeliveredBy, result]
    exact exists_delivered_outcome nonempty notFailed
  cases stage : call.stage with
  | noting | completing =>
      simp only [Call.Released, stage] at kept
      exact Or.inr (delivered (by simp [Call.Ended, stage]) kept)
  | done =>
      have nonempty := atOnce.sent (by simp [stage]) filled
      simp only [Call.Released, stage] at kept
      refine Or.inr (delivered (by simp [Call.Ended, stage, nonempty]) ?_)
      exact fun failed => kept ⟨failed, nonempty⟩
  | preparing | planning | recording | unsent | holding | delivering
  | settling =>
      left
      simp [Call.UnderDelivery, stage, CallStage.rank]

/-- Whenever a route turns a signal down as a duplicate, a signal with the
same key that the route admitted inside the window is still being
delivered, or was delivered by a provider of its plan. -/
theorem duplicate_was_delivered
    (ready : pipeline.SendsAtOnce)
    (reached : Runs platform StaysAtOnce pipeline labels client)
    {route : Route} {signal : Signal} {now : Int} {reason : String}
    (refused : (signalCheck platform route).duplicateOf
      (throttleKey signal) now client.stores.table = some reason) :
    ∃ window, route.dedup = some window ∧
      ∃ other ∈ client.calls, other.AdmittedBy platform route ∧
        throttleKey other.signal = throttleKey signal ∧
        now - other.now < window.millis ∧
          (other.UnderDelivery ∨
            other.DeliveredBy other.plan.providers) := by
  have atOnce := atOnce_runs ready reached
  have duplicated := (isSome_duplicateOf (signalCheck platform route)
    (throttleKey signal) now client.stores.table).mp
      (Option.isSome_iff_exists.mpr ⟨reason, refused⟩)
  obtain ⟨window, isWindow, row, listed, sameRoute, sameKey, young⟩ :=
    duplicated
  have accounted := accounted_runs reached
  have none : client.stores.sends = 0 := by
    simp [Stores.sends, Groups.members, atOnce.groups, atOnce.senders]
  rw [Client.Accounted, Client.sends, none, add_zero] at accounted
  obtain ⟨other, isOther, recorded⟩ :=
    exists_holder (Multiset.mem_of_le accounted listed)
  obtain ⟨inRows, settled⟩ := delivered_of_sends
    (sound_calls reached other isOther) (atOnce.calls other isOther) recorded
  obtain ⟨ownKey, ownTime, same, isSame, itsKey⟩ :=
    (atOnce.calls other isOther).rows row inRows
  refine ⟨window, isWindow, other, isOther, ⟨?_, same, isSame, ?_⟩, ?_, ?_,
    settled⟩
  · have isKey : row.route = routeKey platform route := sameRoute
    rw [← ownKey, ← ownTime, ← isKey]
    exact inRows
  · exact itsKey.symm.trans sameRoute
  · exact ownKey.symm.trans sameKey
  · rw [← ownTime]
    exact young

end Runs

/-! ## Sample runs -/

/-- PagerDuty is paged once an hour. -/
def hourlyPages : Route where
  providers := ["pagerduty"]
  mode := .fanout
  dedup := some ⟨3600⟩

def hourlyPlatform : Platform where
  sha256 text :=
    if text = hourlyPages.serialize.text then
      "9ecee75db07532a55b59fe785f0dc784f0614764785f636cd58d66ce1ab2677f"
    else
      ""
  showTime _ := ""

/-- Slack has everything besides. -/
def hourlyPipeline : Pipeline where
  routing := ⟨[hourlyPages, { providers := ["slack"], mode := .fanout }]⟩
  providers :=
    [("slack", ⟨"slack", true⟩), ("pagerduty", ⟨"pagerduty", true⟩)]

/-- PagerDuty answers nothing but errors. -/
def pagerDown : Moment :=
  { plainMoment with
    answers := fun name _ =>
      if name = "pagerduty" then .error "HTTP 500" else .ok none }

/-- The call is sent to both, and ends. -/
def sentToBothRoutes (moment : Moment) (attempts : Nat) : List ClientStep :=
  .start (diskInput .trigger) false :: .call 0 moment ::
    List.replicate 5 (.call 0 plainMoment) ++
      List.replicate attempts (.deliver 0 0) ++
        List.replicate 3 (.deliver 0 1) ++
          List.replicate 4 (.call 0 plainMoment)

/-- The same signal again: the hourly pages are asked first. -/
def askedAgain : List ClientStep :=
  [.start (diskInput .trigger) false, .call 1 plainMoment]

def repeatedPage : Option Client :=
  run (Client.step hourlyPlatform) StaysAtOnce
    (Client.fromPipeline hourlyPipeline)
    (sentToBothRoutes plainMoment 3 ++ askedAgain)

theorem duplicate_was_delivered_page :
    ∃ client reason signal other, repeatedPage = some client ∧
      (signalCheck hourlyPlatform hourlyPages).duplicateOf
        (throttleKey signal) 0 client.stores.table = some reason ∧
      other ∈ client.calls ∧
        (other.UnderDelivery ∨
          other.DeliveredBy other.plan.providers) := by
  have computed : (repeatedPage.any fun client =>
      client.calls[1]?.any fun call =>
        ((signalCheck hourlyPlatform hourlyPages).duplicateOf
          (throttleKey call.signal) 0 client.stores.table).isSome) =
        true := by
    decide +kernel
  obtain ⟨client, ran, computed⟩ := Option.any_eq_true _ _ |>.mp computed
  obtain ⟨call, _, computed⟩ := Option.any_eq_true _ _ |>.mp computed
  obtain ⟨reason, refused⟩ := Option.isSome_iff_exists.mp computed
  obtain ⟨_, _, other, isOther, _, _, _, delivered⟩ :=
    duplicate_was_delivered (by decide) (reaches_of_run ran) refused
  exact ⟨client, reason, call.signal, other, ran, refused, isOther,
    delivered⟩

/-- PagerDuty failed, Slack did not, and the next page is suppressed. -/
theorem suppressed_after_failed_page :
    ¬ ∀ platform pipeline labels client,
        Pipeline.SendsAtOnce pipeline →
          Runs platform StaysAtOnce pipeline labels client →
            ∀ (route : Route) (signal : Signal) (now : Int)
              (reason : String),
              (signalCheck platform route).duplicateOf
                  (throttleKey signal) now client.stores.table =
                some reason →
              ∃ other ∈ client.calls,
                other.AdmittedBy platform route ∧
                  (other.UnderDelivery ∨
                    other.DeliveredBy route.providers) := by
  intro claimed
  have computed : ((run (Client.step hourlyPlatform) StaysAtOnce
      (Client.fromPipeline hourlyPipeline)
      (sentToBothRoutes pagerDown 9 ++ askedAgain)).any fun client =>
        (client.calls[1]?.any fun call =>
          ((signalCheck hourlyPlatform hourlyPages).duplicateOf
            (throttleKey call.signal) 0 client.stores.table).isSome) &&
          client.calls.all fun other =>
            decide (other.admission.rows = []) ||
              decide (CallStage.settling.rank < other.stage.rank) &&
                other.result.deliveries.all fun outcome =>
                  decide (outcome.provider ≠ "pagerduty") ||
                    decide (outcome.status ≠ .delivered)) = true := by
    decide +kernel
  obtain ⟨client, ran, computed⟩ := Option.any_eq_true _ _ |>.mp computed
  rw [Bool.and_eq_true] at computed
  obtain ⟨repeated, failed⟩ := computed
  obtain ⟨call, _, repeated⟩ := Option.any_eq_true _ _ |>.mp repeated
  obtain ⟨reason, refused⟩ := Option.isSome_iff_exists.mp repeated
  obtain ⟨other, isOther, admitted, delivered⟩ := claimed _ _ _ client
    (by decide) (reaches_of_run ran) hourlyPages call.signal 0 reason refused
  have unpaged := List.all_eq_true.mp failed other isOther
  rw [Bool.or_eq_true, Bool.and_eq_true, decide_eq_true_eq,
    decide_eq_true_eq, List.all_eq_true] at unpaged
  rcases unpaged with nothing | ⟨settled, unpaged⟩
  · have recorded := admitted.recorded
    rw [nothing] at recorded
    cases recorded
  · rcases delivered with under | ⟨outcome, listed, named, received⟩
    · exact absurd under (Nat.not_le.mpr settled)
    · have isPager := List.mem_singleton.mp named
      have one := unpaged outcome listed
      simp [isPager, received] at one

end OpsSignal
