import OpsSignal.DeliveryOutcome
import OpsSignal.RoutingPlan

/-!
# What routing covers

Two results on plans of a checked config.  No matching route is dropped:
each leaves a line, a group or targets, and every name in the plan is a
registered provider.  And a fanout route reaches all of its providers
exactly when none of them was placed as a fallback by an earlier route.
-/

namespace OpsSignal

open FirstMention Interleaving LabelledRuns

section Coverage

variable {State : Type} {config : Config} {signal : Signal}
  {admits : Gate State} {state : State}

/-- The routes that match a signal, each with what became of it. -/
def routeAccounts
    (config : Config) (signal : Signal) (admits : Gate State)
    (state : State) : List Account :=
  accounts signal admits config.routes.zipIdx state

/-- The plan of a signal. -/
def signalPlan
    (config : Config) (signal : Signal) (admits : Gate State)
    (state : State) : DeliveryPlan :=
  (config.routing.planWith signal admits state).1

/-- What the loop over the routes leaves before the fallback. -/
def routeLoop
    (config : Config) (signal : Signal) (admits : Gate State)
    (state : State) : PlanState :=
  (planRoutes signal admits config.routes.zipIdx ({}, state)).1

/-! ## Reading the plan off the accounts -/

private theorem routeLoop_eq :
    routeLoop config signal admits state =
      { placement :=
          (sentEntries
            (routeAccounts config signal admits state)).foldl
              Placement.place {}
        suppressed :=
          (routeAccounts config signal admits state).filterMap
            Account.suppressedLine
        grouped :=
          (routeAccounts config signal admits state).filterMap
            Account.heldEntry } := by
  rw [routeLoop, planRoutes_eq]
  simp [routeAccounts]

theorem suppressed_signalPlan :
    (signalPlan config signal admits state).suppressed =
      (routeAccounts config signal admits state).filterMap
        Account.suppressedLine := by
  have loop := @routeLoop_eq State config signal admits state
  exact congrArg PlanState.suppressed loop

theorem grouped_signalPlan :
    (signalPlan config signal admits state).grouped =
      (routeAccounts config signal admits state).filterMap
        Account.heldEntry := by
  have loop := @routeLoop_eq State config signal admits state
  exact congrArg PlanState.grouped loop

private theorem targets_routeLoop :
    (routeLoop config signal admits state).placement.targets =
      layout (firsts Prod.snd
        (sentEntries (routeAccounts config signal admits state))) := by
  rw [routeLoop_eq]
  exact targets_foldl_place _

theorem targets_signalPlan :
    (signalPlan config signal admits state).targets =
      if (routeLoop config signal admits state).isEmpty then [["console"]]
      else
        layout (firsts Prod.snd
          (sentEntries (routeAccounts config signal admits state))) := by
  rw [← targets_routeLoop]
  rfl

/-- An account is about a route of the config at its index. -/
theorem route_of_mem_accounts
    {account : Account}
    (member : account ∈ routeAccounts config signal admits state) :
    config.routes[account.index]? = some account.route ∧
      account.route.matchRule.accepts signal = true := by
  have mapped := accounts_map signal admits config.routes.zipIdx state
  have listed := List.mem_map_of_mem
    (f := fun account : Account => (account.route, account.index)) member
  rw [routeAccounts, mapped, List.mem_filter] at listed
  exact ⟨List.mk_mem_zipIdx_iff_getElem?.mp listed.1, listed.2⟩

/-- No two accounts are about the same route of the config. -/
theorem nodup_index_accounts :
    ((routeAccounts config signal admits state).map
      Account.index).Nodup := by
  have mapped := accounts_map signal admits config.routes.zipIdx state
  have indices : (routeAccounts config signal admits state).map
      Account.index =
        (config.routes.zipIdx.filter
          fun entry => entry.1.matchRule.accepts signal).map Prod.snd := by
    rw [routeAccounts, ← mapped, List.map_map]
    rfl
  have all : (config.routes.zipIdx.map Prod.snd).Nodup := by
    rw [List.zipIdx_map_snd]
    exact List.nodup_range'
  rw [indices]
  exact all.sublist (List.filter_sublist.map Prod.snd)

/-! ## Every route leaves a trace -/

private theorem mem_sentEntries_of_sent
    {account : Account}
    (member : account ∈ routeAccounts config signal admits state)
    (sent : account.fate = .sent) {name : String}
    (listed : name ∈ account.route.providers) :
    (account.route.mode, name) ∈
      sentEntries (routeAccounts config signal admits state) := by
  rw [sentEntries, List.mem_flatMap]
  refine ⟨account, member, ?_⟩
  rw [Account.sentEntries, sent]
  exact List.mem_map_of_mem listed

private theorem sent_of_mem_sentEntries
    {entry : DeliveryMode × String}
    (member : entry ∈
      sentEntries (routeAccounts config signal admits state)) :
    ∃ account ∈ routeAccounts config signal admits state,
      account.fate = .sent ∧ account.route.mode = entry.1 ∧
        entry.2 ∈ account.route.providers := by
  rw [sentEntries, List.mem_flatMap] at member
  obtain ⟨account, accounted, inEntries⟩ := member
  rw [Account.sentEntries] at inEntries
  split at inEntries
  · rename_i sent
    obtain ⟨name, listed, rfl⟩ := List.mem_map.mp inEntries
    exact ⟨account, accounted, sent, rfl, listed⟩
  · cases inEntries

/-- The loop comes out empty exactly when no route matches. -/
theorem isEmpty_routeLoop
    (nonempty : ∀ route ∈ config.routes, route.providers ≠ []) :
    (routeLoop config signal admits state).isEmpty = true ↔
      ∀ route ∈ config.routes,
        route.matchRule.accepts signal = false := by
  have targets := @targets_routeLoop State config signal admits state
  have loop := @routeLoop_eq State config signal admits state
  have noAccount : (routeLoop config signal admits state).isEmpty = true ↔
      routeAccounts config signal admits state = [] := by
    constructor
    · intro empty
      rw [PlanState.isEmpty, Bool.and_eq_true, Bool.and_eq_true,
        List.isEmpty_iff, List.isEmpty_iff, List.isEmpty_iff, targets,
        loop] at empty
      obtain ⟨⟨noTargets, noSuppressed⟩, noGrouped⟩ := empty
      rw [List.eq_nil_iff_forall_not_mem]
      intro account member
      cases fate : account.fate with
      | suppressed reason =>
          have line := List.filterMap_eq_nil_iff.mp noSuppressed account
            member
          rw [Account.suppressedLine, fate] at line
          cases line
      | held wait =>
          have line := List.filterMap_eq_nil_iff.mp noGrouped account member
          rw [Account.heldEntry, fate] at line
          cases line
      | sent =>
          have route := (route_of_mem_accounts member).1
          have inConfig := List.mem_of_getElem? route
          obtain ⟨name, listed⟩ :=
            List.exists_mem_of_ne_nil _ (nonempty _ inConfig)
          have entry := mem_sentEntries_of_sent member fate listed
          have placed := mem_flatten_layout_firsts.mpr
            (List.mem_map_of_mem (f := Prod.snd) entry)
          rw [noTargets] at placed
          cases placed
    · intro none
      rw [loop, none]
      rfl
  have mapped := accounts_map signal admits config.routes.zipIdx state
  rw [noAccount, ← List.map_eq_nil_iff
    (f := fun account : Account => (account.route, account.index)),
    routeAccounts, mapped, List.filter_eq_nil_iff]
  constructor
  · intro none route member
    obtain ⟨index, found⟩ := List.mem_iff_getElem?.mp member
    have refused := none (route, index)
      (List.mk_mem_zipIdx_iff_getElem?.mpr found)
    simpa using refused
  · rintro none ⟨route, index⟩ member
    have found := List.mk_mem_zipIdx_iff_getElem?.mp member
    have refused := none route (List.mem_of_getElem? found)
    simpa using refused

/-- What routing promises about the plan of a signal. -/
structure RoutingCoverage
    (config : Config) (signal : Signal) (accounted : List Account)
    (fellBack : Bool) (plan : DeliveryPlan) (providers : Registry) :
    Prop where
  /-- Every matching route has one account, in route order. -/
  matching : accounted.map (fun account => (account.route, account.index)) =
    config.routes.zipIdx.filter
      fun entry => entry.1.matchRule.accepts signal
  suppressed : plan.suppressed =
    accounted.filterMap Account.suppressedLine
  grouped : plan.grouped = accounted.filterMap Account.heldEntry
  indices : (accounted.map Account.index).Nodup
  /-- A route is suppressed only by a refusal, held only if it groups, and
  otherwise all of its providers are in the plan. -/
  accounted : ∀ account ∈ accounted,
    match account.fate with
    | .suppressed reason => account.answer = some (.error reason)
    | .held _ => account.route.isGrouped = true
    | .sent => ∀ name ∈ account.route.providers, name ∈ plan.providers
  emptyTargets : plan.targets = [] →
    plan.suppressed ≠ [] ∨ plan.grouped ≠ []
  fallback :
    (∀ route ∈ config.routes, route.matchRule.accepts signal = false) →
      plan = ⟨[["console"]], [], []⟩
  fallbackOnly : fellBack = true ↔
    ∀ route ∈ config.routes, route.matchRule.accepts signal = false
  noEmptyTarget : ∀ target ∈ plan.targets, target ≠ []
  registered : ∀ name ∈ plan.providers, providers.contains name = true
  groupedRegistered : ∀ entry ∈ plan.grouped,
    ∃ route, config.routes[entry.1]? = some route ∧
      ∀ name ∈ route.providers, providers.contains name = true
  neverUnknown : ∀ priorRef answers schedule system,
    Delivering plan providers priorRef answers schedule system →
      ∀ name, .unknown name ∉ events system

private theorem accounted_for
    {account : Account}
    (placed : account.fate = .sent →
      ∀ name ∈ account.route.providers,
        name ∈ (signalPlan config signal admits state).providers) :
    match account.fate with
    | .suppressed reason => account.answer = some (.error reason)
    | .held _ => account.route.isGrouped = true
    | .sent => ∀ name ∈ account.route.providers,
        name ∈ (signalPlan config signal admits state).providers := by
  cases fate : account.fate with
  | suppressed reason =>
      rw [Account.fate] at fate
      split at fate
      · cases fate
        assumption
      · split at fate <;> cases fate
  | held wait =>
      rw [Account.fate] at fate
      split at fate
      · cases fate
      · split at fate
        · rename_i window
          rw [Route.groupWindow] at window
          split at window
          · assumption
          · cases window
        · cases fate
  | sent => exact placed fate

/-- No signal is lost by routing: for every accepted config, every signal
and every pattern of the gate's answers. -/
theorem routing_covers
    {libraries : Libraries} {layers : List (Option String × Layer)}
    (accepted : Config.fromLayers libraries layers = .ok config)
    (signal : Signal) (admits : Gate State) (state : State) :
    RoutingCoverage config signal (routeAccounts config signal admits state)
      (routeLoop config signal admits state).isEmpty
      (signalPlan config signal admits state)
      (Pipeline.fromConfig config).providers := by
  obtain ⟨origins, aligned, checked⟩ :=
    Config.checkRoutes_of_fromLayers accepted
  have listsProviders : ∀ route ∈ config.routes, route.providers ≠ [] :=
    fun route member =>
      Config.providers_ne_nil_of_checkRoutes aligned checked member
  have routeRegistered : ∀ route ∈ config.routes,
      ∀ name ∈ route.providers,
        (Pipeline.fromConfig config).providers.contains name = true := by
    intro route member name listed
    rw [Pipeline.contains_fromConfig]
    exact Config.mem_providerNames_of_checkRoutes aligned checked member
      listed
  have console :
      (Pipeline.fromConfig config).providers.contains "console" = true := by
    rw [Pipeline.contains_fromConfig]
    simp [Config.providerNames]
  have empty := @isEmpty_routeLoop State config signal admits state
    listsProviders
  have targets := @targets_signalPlan State config signal admits state
  have registered :
      ∀ name ∈ (signalPlan config signal admits state).providers,
        (Pipeline.fromConfig config).providers.contains name = true := by
    intro name member
    rw [DeliveryPlan.providers, targets] at member
    split at member
    · have same : name = "console" := by simpa using member
      rw [same]
      exact console
    · have entry := mem_flatten_layout_firsts.mp member
      obtain ⟨⟨mode, mentioned⟩, inEntries, rfl⟩ := List.mem_map.mp entry
      obtain ⟨account, accounted, _, _, listed⟩ :=
        sent_of_mem_sentEntries inEntries
      have route := (route_of_mem_accounts accounted).1
      exact routeRegistered _ (List.mem_of_getElem? route) _ listed
  refine
    { matching := accounts_map signal admits config.routes.zipIdx state
      suppressed := suppressed_signalPlan
      grouped := grouped_signalPlan
      indices := nodup_index_accounts
      accounted := ?_
      emptyTargets := ?_
      fallback := ?_
      fallbackOnly := empty
      noEmptyTarget := ?_
      registered := registered
      groupedRegistered := ?_
      neverUnknown := ?_ }
  · intro account member
    apply accounted_for
    intro sent name listed
    have entry := mem_sentEntries_of_sent member sent listed
    have placed := mem_flatten_layout_firsts.mpr
      (List.mem_map_of_mem (f := Prod.snd) entry)
    rw [DeliveryPlan.providers, targets]
    split
    · rename_i fellBack
      have route := route_of_mem_accounts member
      have refused := empty.mp fellBack _ (List.mem_of_getElem? route.1)
      rw [route.2] at refused
      cases refused
    · exact placed
  · intro noTargets
    rw [targets] at noTargets
    split at noTargets
    · cases noTargets
    · rename_i notEmpty
      have left := @targets_routeLoop State config signal admits state
      rw [noTargets] at left
      rw [PlanState.isEmpty, left] at notEmpty
      have either :
          (routeLoop config signal admits state).suppressed ≠ [] ∨
            (routeLoop config signal admits state).grouped ≠ [] := by
        by_contra neither
        rw [not_or, not_not, not_not] at neither
        rw [neither.1, neither.2] at notEmpty
        exact notEmpty rfl
      exact either
  · intro none
    have fellBack := empty.mpr none
    have noAccounts : routeAccounts config signal admits state = [] := by
      rw [List.eq_nil_iff_forall_not_mem]
      intro account member
      have route := route_of_mem_accounts member
      have refused := none _ (List.mem_of_getElem? route.1)
      rw [route.2] at refused
      cases refused
    have suppressed := @suppressed_signalPlan State config signal admits
      state
    have grouped := @grouped_signalPlan State config signal admits state
    rw [fellBack, if_pos rfl] at targets
    rw [noAccounts] at suppressed grouped
    cases plan : signalPlan config signal admits state
    rw [plan] at targets suppressed grouped
    cases targets
    cases suppressed
    cases grouped
    rfl
  · intro target member
    rw [targets] at member
    split at member
    · have same : target = ["console"] := by simpa using member
      rw [same]
      exact List.cons_ne_nil _ _
    · exact ne_nil_of_mem_layout member
  · intro entry member
    rw [grouped_signalPlan, List.mem_filterMap] at member
    obtain ⟨account, accounted, held⟩ := member
    have route := (route_of_mem_accounts accounted).1
    rw [Account.heldEntry] at held
    split at held
    · cases held
      exact ⟨account.route, route,
        routeRegistered _ (List.mem_of_getElem? route)⟩
    · cases held
  · intro priorRef answers schedule system reached name member
    obtain ⟨rest, final, later, carried, finished, same⟩ :=
      exists_delivered reached
    have inFinal : .unknown name ∈ events final := by
      rw [same]
      exact List.mem_append_left _ member
    obtain ⟨chain, chainMember, inChain⟩ :=
      name_mem_of_mem_events carried finished inFinal
    have listed := name_mem_of_mem_chainEvents inChain
    exact unregistered_of_unknown inChain
      (registered name (List.mem_flatten.mpr ⟨chain, chainMember, listed⟩))

/-! ## Reaching every provider of a fanout route -/

/-- The provider is first mentioned by a failover route, behind another
provider that a failover route mentioned first. -/
def FallbackOnly
    (name : String) (entries : List (DeliveryMode × String)) : Prop :=
  ∃ before after, entries = before ++ (.failover, name) :: after ∧
    name ∉ before.map Prod.snd ∧
    failoverNames (firsts Prod.snd before) ≠ []

private theorem failoverNames_firsts
    {before : List (DeliveryMode × String)} {name : String}
    (after : List (DeliveryMode × String))
    (unmentioned : name ∉ before.map Prod.snd) :
    ∃ rest, failoverNames
        (firsts Prod.snd (before ++ (.failover, name) :: after)) =
      failoverNames (firsts Prod.snd before) ++ name :: rest := by
  have extended : ∃ rest,
      firsts Prod.snd (before ++ (DeliveryMode.failover, name) :: after) =
        firsts Prod.snd before ++ (DeliveryMode.failover, name) :: rest :=
    firsts_append_cons unmentioned
  obtain ⟨rest, same⟩ := extended
  refine ⟨failoverNames rest, ?_⟩
  rw [same]
  simp [failoverNames]

/-- A mentioned provider stands first in some target, or it is a
fallback. -/
private theorem heads_target
    {entries : List (DeliveryMode × String)} {name : String}
    (mentioned : name ∈ entries.map Prod.snd)
    (notFallback : ¬ FallbackOnly name entries) :
    ∃ rest, name :: rest ∈ layout (firsts Prod.snd entries) := by
  obtain ⟨⟨mode, other⟩, member, rfl⟩ := List.mem_map.mp mentioned
  have found : ∃ first ∈ firsts Prod.snd entries, first.2 = other :=
    exists_mem_firsts member
  obtain ⟨⟨firstMode, first⟩, inFirsts, rfl⟩ := found
  obtain ⟨before, after, shape, unmentioned⟩ := mem_firsts_iff.mp inFirsts
  cases firstMode with
  | fanout =>
      exact ⟨[], mem_layout.mpr (Or.inl ⟨first, inFirsts, rfl⟩)⟩
  | failover =>
      have none : failoverNames (firsts Prod.snd before) = [] := by
        by_contra some
        exact notFallback ⟨before, after, shape, unmentioned, some⟩
      obtain ⟨rest, placed⟩ := failoverNames_firsts after
        unmentioned
      rw [none, List.nil_append, ← shape] at placed
      exact ⟨rest, mem_layout.mpr
        (Or.inr ⟨placed.symm, List.cons_ne_nil _ _⟩)⟩

/-- A fallback stands behind another provider in its target. -/
private theorem follows_in_target
    {entries : List (DeliveryMode × String)} {name : String}
    (fallback : FallbackOnly name entries) :
    ∃ head between rest,
      head :: between ++ name :: rest ∈
        layout (firsts Prod.snd entries) := by
  obtain ⟨before, after, rfl, unmentioned, some⟩ := fallback
  obtain ⟨rest, placed⟩ := failoverNames_firsts after
    unmentioned
  cases earlier : failoverNames (firsts Prod.snd before) with
  | nil => exact absurd earlier some
  | cons head between =>
      rw [earlier] at placed
      exact ⟨head, between, rest, mem_layout.mpr
        (Or.inr ⟨placed.symm, by simp⟩)⟩

/-- The live fanout providers of a signal. -/
def LiveFanout (accounted : List Account) (name : String) : Prop :=
  ∃ account ∈ accounted, account.fate = .sent ∧
    account.route.mode = .fanout ∧ name ∈ account.route.providers

private theorem targets_of_accounts
    (some : routeAccounts config signal admits state ≠ [])
    (nonempty : ∀ route ∈ config.routes, route.providers ≠ []) :
    (signalPlan config signal admits state).targets =
      layout (firsts Prod.snd
        (sentEntries (routeAccounts config signal admits state))) := by
  rw [targets_signalPlan]
  split
  · rename_i fellBack
    exfalso
    obtain ⟨account, member⟩ := List.exists_mem_of_ne_nil _ some
    have route := route_of_mem_accounts member
    have refused := (isEmpty_routeLoop nonempty).mp fellBack _
      (List.mem_of_getElem? route.1)
    rw [route.2] at refused
    cases refused
  · rfl

/-- Whatever the answers and the schedule, every live fanout provider is
sent the signal. -/
def FanoutReaches
    (config : Config) (signal : Signal) (admits : Gate State)
    (state : State) : Prop :=
  ∀ priorRef answers schedule system,
    Delivering (signalPlan config signal admits state)
        (Pipeline.fromConfig config).providers priorRef answers schedule
        system →
      Delivered (Pipeline.fromConfig config).providers priorRef answers
          system →
        ∀ name, LiveFanout (routeAccounts config signal admits state) name →
          wasTried name (events system) = true

/-- Fanout routes reach all of their providers exactly when none of them
is a fallback of an earlier route. -/
theorem fanout_reaches_iff
    {origins : List Origin} (aligned : origins.length = config.routes.length)
    (checked : config.checkRoutes origins = .ok ())
    (signal : Signal) (admits : Gate State) (state : State) :
    FanoutReaches config signal admits state ↔
      ∀ name, LiveFanout (routeAccounts config signal admits state) name →
        ¬ FallbackOnly name
          (sentEntries (routeAccounts config signal admits state)) := by
  have nonempty : ∀ route ∈ config.routes, route.providers ≠ [] :=
    fun route member =>
      Config.providers_ne_nil_of_checkRoutes aligned checked member
  have registered : ∀ entry ∈
      sentEntries (routeAccounts config signal admits state),
      (Pipeline.fromConfig config).providers.contains entry.2 = true := by
    intro entry member
    obtain ⟨account, accounted, _, _, listed⟩ :=
      sent_of_mem_sentEntries member
    have route := (route_of_mem_accounts accounted).1
    rw [Pipeline.contains_fromConfig]
    exact Config.mem_providerNames_of_checkRoutes aligned checked
      (List.mem_of_getElem? route) listed
  have placed : ∀ chain ∈ layout (firsts Prod.snd
      (sentEntries (routeAccounts config signal admits state))),
      ∀ name ∈ chain,
        (Pipeline.fromConfig config).providers.contains name = true := by
    intro chain member name listed
    have mentioned := mem_flatten_layout_firsts.mp
      (List.mem_flatten.mpr ⟨chain, member, listed⟩)
    obtain ⟨entry, inEntries, rfl⟩ := List.mem_map.mp mentioned
    exact registered entry inEntries
  have planned : ∀ name,
      LiveFanout (routeAccounts config signal admits state) name →
        (signalPlan config signal admits state).targets =
          layout (firsts Prod.snd
            (sentEntries (routeAccounts config signal admits state))) := by
    rintro name ⟨account, accounted, _⟩
    exact targets_of_accounts (List.ne_nil_of_mem accounted) nonempty
  have distinct : ∀ name,
      LiveFanout (routeAccounts config signal admits state) name →
        (signalPlan config signal admits state).providers.Nodup := by
    intro name live
    rw [DeliveryPlan.providers, planned name live]
    exact nodup_flatten_layout_firsts _
  constructor
  · intro reaches name live fallback
    obtain ⟨head, between, rest, member⟩ := follows_in_target fallback
    obtain ⟨schedule, system, reached, finished⟩ := exists_finished
      (rank_deliverChain (Pipeline.fromConfig config).providers
        (fun _ => none) (fun _ _ => .ok none))
      (deliverStart (signalPlan config signal admits state))
    have tried := reaches _ _ schedule system reached finished name live
    rw [← planned name live] at member
    rw [wasTried_events (distinct name live) reached finished member
      (by simp)] at tried
    have known := placed _ (planned name live ▸ member) head (by simp)
    have only : triedNames (Pipeline.fromConfig config).providers
        (fun _ _ => .ok none) (head :: between ++ name :: rest) =
          [head] := by
      rw [List.cons_append, triedNames, if_pos known]
      rfl
    rw [only, decide_eq_true_eq, List.mem_singleton] at tried
    have chainDistinct :=
      (List.nodup_flatten.mp (distinct name live)).1 _ member
    rw [List.cons_append, List.nodup_cons] at chainDistinct
    apply chainDistinct.1
    rw [← tried]
    simp
  · intro notFallback priorRef answers schedule system reached finished name
      live
    obtain ⟨account, accounted, sent, _, listed⟩ := id live
    have entry := mem_sentEntries_of_sent accounted sent listed
    obtain ⟨rest, member⟩ := heads_target
      (List.mem_map_of_mem (f := Prod.snd) entry) (notFallback name live)
    have known := placed _ member name List.mem_cons_self
    rw [← planned name live] at member
    rw [wasTried_events (distinct name live) reached finished member
      List.mem_cons_self, triedNames, if_pos known]
    simp

end Coverage

/-! ## Three configs -/

def sampleLibraries : Libraries where
  mailbox _ := .ok ()
  quote text := "\"" ++ text ++ "\""
  undeclared _ := .ok []
  isGlobal _ := false
  cloudSupported _ := false

def sampleProviders : ProvidersConfig where
  slack := some { webhookUrl := some "https://hooks.slack.com/services/T/B" }
  pagerduty := some { routingKey := "R012345" }

def sampleSignal : Signal :=
  Signal.fromInput ⟨id, fun _ => ""⟩ "signal-1" 0
    { source := "airflow"
      eventType := "task_failed"
      title := "load_orders failed"
      severity := .critical }

def backupRoute : Route where
  providers := ["slack", "pagerduty"]

def pagerRoute : Route where
  providers := ["pagerduty"]
  mode := .fanout

def digestRoute : Route where
  providers := ["slack"]
  groupBy := some ["service"]

/-- A team layer over a base layer. -/
def sampleLayers : List (Option String × Layer) :=
  [(some "base.yaml",
      { providers := sampleProviders, routes := [pagerRoute, digestRoute] }),
    (none, { routes := [backupRoute] })]

def sampleConfig : Config where
  providers := sampleProviders
  routes := [backupRoute, pagerRoute, digestRoute]

/-- A gate that lets everything through. -/
def openGate : Gate Unit :=
  fun _ state => (.ok (), state)

theorem routing_covers_layers :
    RoutingCoverage sampleConfig sampleSignal
      (routeAccounts sampleConfig sampleSignal openGate ())
      (routeLoop sampleConfig sampleSignal openGate ()).isEmpty
      (signalPlan sampleConfig sampleSignal openGate ())
      (Pipeline.fromConfig sampleConfig).providers := by
  have accepted :
      Config.fromLayers sampleLibraries sampleLayers = .ok sampleConfig := by
    rfl
  exact routing_covers accepted sampleSignal openGate ()

/-- The origins of two routes of one text. -/
def ownOrigins : List Origin :=
  [(none, 0), (none, 1)]

/-- The fanout route stands before the failover route. -/
def pagerFirst : Config where
  providers := sampleProviders
  routes := [pagerRoute, backupRoute]

theorem fanout_reaches_pagerFirst :
    FanoutReaches pagerFirst sampleSignal openGate () := by
  have aligned : ownOrigins.length = pagerFirst.routes.length := rfl
  have checked : pagerFirst.checkRoutes ownOrigins = .ok () := rfl
  refine (fanout_reaches_iff aligned checked sampleSignal openGate ()).mpr ?_
  have entries :
      sentEntries (routeAccounts pagerFirst sampleSignal openGate ()) =
        [(.fanout, "pagerduty"), (.failover, "slack"),
          (.failover, "pagerduty")] := by
    rfl
  have accounted : routeAccounts pagerFirst sampleSignal openGate () =
      [⟨pagerRoute, 0, none⟩, ⟨backupRoute, 1, none⟩] := by
    rfl
  rintro name ⟨account, member, _, mode, listed⟩ ⟨before, after, shape,
    unmentioned, _⟩
  rw [accounted] at member
  have named : name = "pagerduty" := by
    rcases List.mem_cons.mp member with rfl | other
    · simpa [pagerRoute] using listed
    · rw [List.mem_singleton.mp other] at mode
      cases mode
  rw [entries, named] at shape
  rw [named] at unmentioned
  rcases before with _ | ⟨first, before⟩
  · cases shape
  · rw [List.cons_append, List.cons.injEq] at shape
    rw [← shape.1] at unmentioned
    exact unmentioned List.mem_cons_self

/-- PagerDuty is a fallback of the first route, so the fanout route that
lists it sends it nothing once Slack has the signal. -/
def backupFirst : Config where
  providers := sampleProviders
  routes := [backupRoute, pagerRoute]

theorem fanout_provider_not_sent :
    backupFirst.checkRoutes ownOrigins = .ok () ∧
      ¬ FanoutReaches backupFirst sampleSignal openGate () := by
  have reached : Delivering
      (signalPlan backupFirst sampleSignal openGate ())
      (Pipeline.fromConfig backupFirst).providers (fun _ => none)
      (fun _ _ => .ok none) [0, 0, 0]
      ⟨[.idle []],
        [(0, .reported ⟨"slack", .pending, none, 0⟩),
          (0, .sent "slack" none), (0, .answered "slack" (.ok none)),
          (0, .reported ⟨"slack", .delivered, none, 1⟩)]⟩ :=
    reaches_of_run rfl
  refine ⟨rfl, fun reaches => ?_⟩
  have live : LiveFanout
      (routeAccounts backupFirst sampleSignal openGate ()) "pagerduty" :=
    ⟨⟨pagerRoute, 1, none⟩, List.mem_cons_of_mem _ List.mem_cons_self,
      rfl, rfl, List.mem_cons_self⟩
  have tried := reaches _ _ _ _ reached
    (by
      intro task member
      rw [List.mem_singleton.mp member]
      rfl)
    "pagerduty" live
  cases tried

end OpsSignal
