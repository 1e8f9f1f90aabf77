import OpsSignal.RoutingPlan

/-!
# The shape of a delivery plan

`RoutingPlan` gives the targets as the `layout` of the first mentions.
Here the layout is described without computing it: which names are alone,
where the shared failover target stands, and in what order the targets
come.  The gate is followed through the loop with a log of the routes it
is asked about, and a route alone is compared with its own `targets`.
-/

namespace OpsSignal

open FirstMention

/-! ## The shape of a layout -/

private theorem firsts_ne_nil {name : String} {names : List String}
    (listed : name ∈ names) : firsts id names ≠ [] := by
  have ⟨_, member, _⟩ : ∃ first ∈ firsts id names, id first = id name :=
    exists_mem_firsts listed
  exact List.ne_nil_of_mem member

/-- How targets follow from mentions that name every provider once. -/
structure Shaped
    (mentions : List (DeliveryMode × String))
    (targets : List (List String)) : Prop where
  /-- No provider stands twice. -/
  distinct : targets.flatten.Nodup
  /-- The targets name the providers that are mentioned. -/
  named : ∀ name, name ∈ targets.flatten ↔ name ∈ mentions.map Prod.snd
  /-- A provider a fanout route mentions first is a target of its own. -/
  alone : ∀ name, (DeliveryMode.fanout, name) ∈ mentions →
    [name] ∈ targets
  /-- The providers failover routes mention first are one target, which
  stands where the earliest of them does. -/
  shared : ∀ before name after,
    mentions = before ++ (DeliveryMode.failover, name) :: after →
    (∀ mention ∈ before, mention.1 = DeliveryMode.fanout) →
      targets =
        before.map (fun mention => [mention.2]) ++
          (name :: failoverNames after) :: fanoutTargets after
  /-- Every target names somebody. -/
  inhabited : ∀ target ∈ targets, target ≠ []
  /-- The targets come in the order of the mentions of their first
  providers. -/
  ordered :
    (targets.filterMap List.head?).Sublist (mentions.map Prod.snd)

private theorem layout_append_failover
    {before after : List (DeliveryMode × String)} {name : String}
    (fanout : ∀ mention ∈ before, mention.1 = DeliveryMode.fanout) :
    layout (before ++ (.failover, name) :: after) =
      before.map (fun mention => [mention.2]) ++
        (name :: failoverNames after) :: fanoutTargets after := by
  induction before with
  | nil => simp [layout]
  | cons mention rest inductionHypothesis =>
      rcases mention with ⟨mode, other⟩
      have first : mode = .fanout := fanout _ List.mem_cons_self
      subst first
      have tail := inductionHypothesis fun mention member =>
        fanout mention (List.mem_cons_of_mem _ member)
      simp [layout, tail]

private theorem heads_fanoutTargets
    (entries : List (DeliveryMode × String)) :
    ((fanoutTargets entries).filterMap List.head?).Sublist
      (entries.map Prod.snd) := by
  induction entries with
  | nil => simp [fanoutTargets]
  | cons entry rest inductionHypothesis =>
      rcases entry with ⟨mode, name⟩
      cases mode with
      | failover =>
          have tail := inductionHypothesis.cons name
          simpa [fanoutTargets] using tail
      | fanout =>
          have tail := inductionHypothesis.cons_cons name
          simpa [fanoutTargets] using tail

private theorem heads_layout
    (entries : List (DeliveryMode × String)) :
    ((layout entries).filterMap List.head?).Sublist
      (entries.map Prod.snd) := by
  induction entries with
  | nil => simp [layout]
  | cons entry rest inductionHypothesis =>
      rcases entry with ⟨mode, name⟩
      cases mode with
      | failover =>
          have tail := (heads_fanoutTargets rest).cons_cons name
          simpa [layout] using tail
      | fanout =>
          have tail := inductionHypothesis.cons_cons name
          simpa [layout] using tail

/-- The layout of the first mentions has the shape. -/
theorem shaped_layout (entries : List (DeliveryMode × String)) :
    Shaped (firsts Prod.snd entries)
      (layout (firsts Prod.snd entries)) where
  distinct := nodup_flatten_layout_firsts entries
  named name := by
    rw [(flatten_layout_perm _).mem_iff]
  alone name member := mem_layout.mpr (Or.inl ⟨name, member, rfl⟩)
  shared before name after shape fanout := by
    rw [shape, layout_append_failover fanout]
  inhabited _ member := ne_nil_of_mem_layout member
  ordered := heads_layout _

/-- Names of failover routes are one target. -/
theorem layout_of_failover {names : List String} (some : names ≠ []) :
    layout (names.map fun name => (DeliveryMode.failover, name)) =
      [names] := by
  cases names with
  | nil => exact absurd rfl some
  | cons name rest =>
      have shared : failoverNames
          (rest.map fun name => (DeliveryMode.failover, name)) = rest := by
        clear some
        induction rest with
        | nil => simp [failoverNames]
        | cons other rest inductionHypothesis =>
            simpa [failoverNames] using inductionHypothesis
      have alone : fanoutTargets
          (rest.map fun name => (DeliveryMode.failover, name)) = [] := by
        simp [fanoutTargets]
      simp [layout, shared, alone]

/-- Names of fanout routes are a target each. -/
theorem layout_of_fanout (names : List String) :
    layout (names.map fun name => (DeliveryMode.fanout, name)) =
      names.map fun name => [name] := by
  induction names with
  | nil => simp [layout]
  | cons name rest inductionHypothesis =>
      simpa [layout] using inductionHypothesis

/-! ## The routes that are sent -/

section Planned

variable {State : Type}

/-- The matching routes that the gate does not refuse and that do not
group, in route order. -/
def plannedRoutes
    (signal : Signal) (admits : Gate State) (routes : List (Route × Nat))
    (state : State) : List Route :=
  ((accounts signal admits routes state).filter fun account =>
    account.fate = .sent).map Account.route

private theorem sentEntries_eq (accounted : List Account) :
    sentEntries accounted =
      ((accounted.filter fun account => account.fate = .sent).map
        Account.route).flatMap Route.entries := by
  induction accounted with
  | nil => simp [sentEntries]
  | cons account rest inductionHypothesis =>
      rw [sentEntries] at inductionHypothesis
      rw [sentEntries, List.flatMap_cons, inductionHypothesis]
      cases fate : account.fate with
      | suppressed reason => simp [Account.sentEntries, fate]
      | held wait => simp [Account.sentEntries, fate]
      | sent => simp [Account.sentEntries, fate]

private theorem mem_routes_of_mem_plannedRoutes
    {signal : Signal} {admits : Gate State}
    {config : RoutingConfig} {state : State} {route : Route}
    (member : route ∈ plannedRoutes signal admits config.routes.zipIdx state) :
    route ∈ config.routes ∧ route.matchRule.accepts signal = true := by
  simp only [plannedRoutes, List.mem_map, List.mem_filter] at member
  obtain ⟨account, ⟨listed, _⟩, rfl⟩ := member
  have paired : (account.route, account.index) ∈
      config.routes.zipIdx.filter
        fun entry => entry.1.matchRule.accepts signal := by
    rw [← accounts_map signal admits _ state]
    exact List.mem_map_of_mem listed
  have ⟨indexed, accepted⟩ := List.mem_filter.mp paired
  exact ⟨List.fst_mem_of_mem_zipIdx indexed, accepted⟩

/-- The targets of a plan that sends something are the layout of what the
sent routes mention. -/
theorem targets_planWith
    {signal : Signal} {admits : Gate State}
    {config : RoutingConfig} {state : State}
    (named : ∀ route ∈ config.routes, route.providers ≠ [])
    (sends : plannedRoutes signal admits config.routes.zipIdx state ≠ []) :
    (config.planWith signal admits state).1.targets =
      layout (firsts Prod.snd
        ((plannedRoutes signal admits config.routes.zipIdx state).flatMap
          Route.entries)) := by
  have placed :
      (planRoutes signal admits config.routes.zipIdx
          ({}, state)).1.placement.targets =
        layout (firsts Prod.snd
          ((plannedRoutes signal admits config.routes.zipIdx state).flatMap
            Route.entries)) := by
    rw [planRoutes_eq, targets_foldl_place, sentEntries_eq]
    rfl
  obtain ⟨route, routeSent⟩ := List.exists_mem_of_ne_nil _ sends
  obtain ⟨name, listed⟩ := List.exists_mem_of_ne_nil _
    (named route (mem_routes_of_mem_plannedRoutes routeSent).1)
  have somebody : name ∈
      (layout (firsts Prod.snd
        ((plannedRoutes signal admits config.routes.zipIdx state).flatMap
          Route.entries))).flatten := by
    rw [mem_flatten_layout_firsts]
    refine List.mem_map.mpr ⟨(route.mode, name), ?_, rfl⟩
    refine List.mem_flatMap.mpr ⟨route, routeSent, ?_⟩
    exact List.mem_map.mpr ⟨name, listed, rfl⟩
  have nonempty : (planRoutes signal admits config.routes.zipIdx
      ({}, state)).1.isEmpty = false := by
    rw [← placed] at somebody
    cases targets : (planRoutes signal admits config.routes.zipIdx
        ({}, state)).1.placement.targets with
    | nil => simp [targets] at somebody
    | cons target rest => simp [PlanState.isEmpty, targets]
  rw [← placed]
  simp [RoutingConfig.planWith, PlanState.finish, nonempty]

/-! ## The routes the gate is asked about -/

/-- A gate that writes down the routes it is asked about. -/
def Gate.logged (admits : Gate State) : Gate (State × List Route) :=
  fun route state =>
    ((admits route state.1).1,
      ((admits route state.1).2, state.2 ++ [route]))

/-- Whether a signal makes the loop ask the gate about a route. -/
def Route.asksGate (route : Route) (signal : Signal) : Bool :=
  route.matchRule.accepts signal && route.gatesSignals

private theorem planRoute_logged
    (signal : Signal) (admits : Gate State) (current : PlanState)
    (state : State) (log : List Route) (entry : Route × Nat) :
    planRoute signal admits.logged (current, (state, log)) entry =
      ((planRoute signal admits (current, state) entry).1,
        ((planRoute signal admits (current, state) entry).2,
          log ++ [entry.1].filter fun route => route.asksGate signal)) := by
  rcases entry with ⟨route, index⟩
  by_cases accepted : route.matchRule.accepts signal = true
  · by_cases gated : route.gatesSignals = true
    · rcases answered : admits route state with ⟨answer, next⟩
      cases answer with
      | error reason =>
          simp [planRoute, askGate, Gate.logged, Route.asksGate, accepted,
            gated, answered]
      | ok =>
          cases window : route.groupWindow with
          | none =>
              simp [planRoute, askGate, Gate.logged, Route.asksGate,
                accepted, gated, answered, window]
          | some wait =>
              simp [planRoute, askGate, Gate.logged, Route.asksGate,
                accepted, gated, answered, window]
    · cases window : route.groupWindow with
      | none =>
          simp [planRoute, askGate, Route.asksGate, accepted, gated, window]
      | some wait =>
          simp [planRoute, askGate, Route.asksGate, accepted, gated, window]
  · simp [planRoute, Route.asksGate, accepted]

private theorem planRoutes_logged
    (signal : Signal) (admits : Gate State) :
    ∀ (routes : List (Route × Nat)) (current : PlanState)
      (state : State) (log : List Route),
      planRoutes signal admits.logged routes (current, (state, log)) =
        ((planRoutes signal admits routes (current, state)).1,
          ((planRoutes signal admits routes (current, state)).2,
            log ++ (routes.map Prod.fst).filter
              fun route => route.asksGate signal))
  | [], _, _, _ => by simp [planRoutes]
  | entry :: rest, current, state, log => by
      have tail := planRoutes_logged signal admits rest
      simp only [planRoutes] at tail
      simp only [planRoutes, List.foldl_cons, planRoute_logged, tail]
      simp [List.filter_cons, List.append_assoc]
      split <;> simp

/-- Logging changes no plan, and the log holds the matching routes that
keep a history, in route order. -/
theorem planWith_logged
    (config : RoutingConfig) (signal : Signal) (admits : Gate State)
    (state : State) :
    config.planWith signal admits.logged (state, []) =
      ((config.planWith signal admits state).1,
        ((config.planWith signal admits state).2,
          config.routes.filter fun route => route.asksGate signal)) := by
  have logged := planRoutes_logged signal admits config.routes.zipIdx {}
    state []
  have indexed : config.routes.zipIdx.map Prod.fst = config.routes := by
    simp
  rw [List.nil_append, indexed] at logged
  simp only [RoutingConfig.planWith, logged]

/-! ## Plans that send something -/

/-- A plan that sends something has the shape of what its sent routes
mention, is one list if no matching route is `fanout`, and asked the gate
once about each matching route that keeps a history. -/
theorem plan_shape
    (config : RoutingConfig) (signal : Signal) (admits : Gate State)
    (state : State)
    (named : ∀ route ∈ config.routes, route.providers ≠ [])
    (sends : plannedRoutes signal admits config.routes.zipIdx state ≠ []) :
    let sent := plannedRoutes signal admits config.routes.zipIdx state
    let planned := config.planWith signal admits state
    Shaped (firsts Prod.snd (sent.flatMap Route.entries))
        planned.1.targets ∧
      ((∀ route ∈ config.routes,
          route.matchRule.accepts signal = true →
            route.mode = .failover) →
        planned.1.targets =
          [firsts id (sent.flatMap Route.providers)]) ∧
      config.planWith signal admits.logged (state, []) =
        (planned.1,
          (planned.2,
            config.routes.filter fun route => route.asksGate signal)) := by
  intro sent planned
  have targets : planned.1.targets =
      layout (firsts Prod.snd (sent.flatMap Route.entries)) :=
    targets_planWith named sends
  refine ⟨?_, ?_, planWith_logged config signal admits state⟩
  · rw [targets]
    exact shaped_layout _
  · intro failover
    have entries : sent.flatMap Route.entries =
        (sent.flatMap Route.providers).map fun name =>
          (DeliveryMode.failover, name) := by
      rw [List.map_flatMap]
      refine List.flatMap_congr ?_
      intro route member
      have listed := mem_routes_of_mem_plannedRoutes member
      rw [Route.entries, failover route listed.1 listed.2]
    have somebody : firsts id (sent.flatMap Route.providers) ≠ [] := by
      obtain ⟨route, routeSent⟩ := List.exists_mem_of_ne_nil _ sends
      obtain ⟨name, listed⟩ := List.exists_mem_of_ne_nil _
        (named route (mem_routes_of_mem_plannedRoutes routeSent).1)
      have mentioned : name ∈ sent.flatMap Route.providers :=
        List.mem_flatMap.mpr ⟨route, routeSent, listed⟩
      exact firsts_ne_nil mentioned
    have mentions : firsts Prod.snd (sent.flatMap Route.entries) =
        (firsts id (sent.flatMap Route.providers)).map fun name =>
          (DeliveryMode.failover, name) := by
      rw [entries]
      exact fresh_map (fun _ => rfl) [] _
    rw [targets, mentions, layout_of_failover somebody]

/-- Two failover routes around a fanout route, after a route the gate
refuses. -/
def mixedRoutes : RoutingConfig where
  routes :=
    [{ providers := ["opsgenie"], dedup := some ⟨600⟩ },
      { providers := ["teams"] },
      { providers := ["slack", "pagerduty", "teams"], mode := .fanout },
      { providers := ["pagerduty", "email"] }]

/-- A gate that refuses everything and counts how often it is asked. -/
def countingGate : Gate Nat :=
  fun _ asked => (.error "duplicate", asked + 1)

def mixedSignal : Signal :=
  Signal.fromInput ⟨id, fun _ => ""⟩ "signal-1" 0
    { source := "airflow"
      eventType := "task_failed"
      title := "load_orders failed" }

/-- The shared target stands where `teams` is first mentioned. -/
theorem plan_shape_mixed :
    let sent :=
      plannedRoutes mixedSignal countingGate mixedRoutes.routes.zipIdx 0
    let planned := mixedRoutes.planWith mixedSignal countingGate 0
    planned.1.targets =
        [["teams", "email"], ["slack"], ["pagerduty"]] ∧
      planned.2 = 1 ∧
      Shaped (firsts Prod.snd (sent.flatMap Route.entries))
        planned.1.targets :=
  ⟨by decide, by decide,
    (plan_shape mixedRoutes mixedSignal countingGate 0 (by decide)
      (by decide)).1⟩

end Planned

/-! ## A route alone -/

/-- The route without its `dedup`, `rate_limit`, `group_by` and
`group_wait`. -/
def Route.plain (route : Route) : Route :=
  { route with
    dedup := none
    rateLimit := none
    groupBy := none
    groupWait := none }

private theorem distinctProviders_eq (route : Route) :
    route.distinctProviders = firsts id route.providers := by
  rw [Route.distinctProviders, foldl_collect, List.nil_append]
  rfl

/-- A digest goes where its route alone would send a signal. -/
theorem targets_eq_plan_plain
    (route : Route) (signal : Signal)
    (named : route.providers ≠ [])
    (accepted : route.matchRule.accepts signal = true) :
    route.targets =
      (RoutingConfig.plan ⟨[route.plain]⟩ signal).targets := by
  have sent : plannedRoutes signal (fun _ state => (.ok (), state))
      [(route.plain, 0)] () = [route.plain] := by
    simp [plannedRoutes, accounts, Route.plain, accepted, gateAnswer,
      Route.gatesSignals, Route.isGrouped, Route.isThrottled,
      Account.fate, Route.groupWindow]
  have planned :
      (RoutingConfig.plan ⟨[route.plain]⟩ signal).targets =
        layout (firsts Prod.snd
          ((plannedRoutes signal (fun _ state => (.ok (), state))
            [(route.plain, 0)] ()).flatMap Route.entries)) := by
    refine targets_planWith ?_ ?_
    · simpa [Route.plain] using named
    · rw [List.zipIdx_singleton, sent]
      exact List.cons_ne_nil _ _
  rw [sent] at planned
  have mentions : firsts Prod.snd ([route.plain].flatMap Route.entries) =
      (firsts id route.providers).map fun name => (route.mode, name) := by
    rw [List.flatMap_singleton]
    exact fresh_map (fun _ => rfl) [] _
  have somebody : firsts id route.providers ≠ [] := by
    obtain ⟨name, listed⟩ := List.exists_mem_of_ne_nil _ named
    exact firsts_ne_nil listed
  rw [planned, mentions, Route.targets, distinctProviders_eq]
  cases route.mode with
  | failover => exact (layout_of_failover somebody).symm
  | fanout => exact (layout_of_fanout _).symm

/-- A grouped fanout route that repeats a provider. -/
theorem targets_eq_plan_plain_repeated :
    ({ providers := ["teams", "slack", "teams"], mode := .fanout,
       groupWait := some ⟨30⟩ } : Route).targets =
        [["teams"], ["slack"]] ∧
      (RoutingConfig.plan
        ⟨[({ providers := ["teams", "slack", "teams"], mode := .fanout,
             groupWait := some ⟨30⟩ } : Route).plain]⟩
        mixedSignal).targets = [["teams"], ["slack"]] := by
  refine ⟨by decide, ?_⟩
  rw [← targets_eq_plan_plain _ mixedSignal (by decide) (by decide)]
  decide

end OpsSignal
