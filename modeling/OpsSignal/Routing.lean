import OpsSignal.Signal

/-!
# Routes and the delivery plan

The routing configuration and `plan_with`, the loop that turns the routes
a signal matches into delivery targets.  The gate that `dedup` and
`rate_limit` answer through is a parameter with a state of its own.
-/

namespace OpsSignal

/-- A length of time.  Every `Window` the source builds is a whole number
of seconds. -/
structure Window where
  secs : UInt64
  deriving DecidableEq, Repr

namespace Window

def isZero (window : Window) : Bool :=
  window.secs == 0

/-- The number and the unit `Display` prints. -/
def printed (secs : Nat) : Nat × String :=
  if 0 < secs ∧ secs % 86400 = 0 then (secs / 86400, "d")
  else if 0 < secs ∧ secs % 3600 = 0 then (secs / 3600, "h")
  else if 0 < secs ∧ secs % 60 = 0 then (secs / 60, "m")
  else (secs, "s")

def display (window : Window) : String :=
  let shown := printed window.secs.toNat
  toString shown.1 ++ shown.2

end Window

/-- At most `max` signals per `per`, counted over a sliding window. -/
structure RateLimit where
  max : UInt32
  per : Window
  deriving DecidableEq, Repr

structure RouteMatch where
  severity : List Severity := []
  environment : Option String := none
  source : Option String := none
  deriving DecidableEq, Repr

/-- How a route delivers to the providers it lists. -/
inductive DeliveryMode where
  | failover
  | fanout
  deriving DecidableEq, Repr

def DeliveryMode.display : DeliveryMode → String
  | .failover => "failover"
  | .fanout => "fanout"

structure Route where
  matchRule : RouteMatch := {}
  providers : List String
  mode : DeliveryMode := .failover
  dedup : Option Window := none
  rateLimit : Option RateLimit := none
  groupBy : Option (List String) := none
  groupWait : Option Window := none
  deriving DecidableEq, Repr

/-- How long a group waits when a route sets `group_by` but no
`group_wait`. -/
def defaultGroupWait : Window := ⟨30⟩

/-- The signal fields a route can `group_by`, besides `metadata.<key>`. -/
def groupFields : List String :=
  ["source", "service", "component", "event_type", "severity", "title",
    "environment", "team", "run_id", "correlation_id", "dedup_key"]

namespace RouteMatch

def matchesAnySeverity (rule : RouteMatch) (signal : Signal) : Bool :=
  (match rule.environment with
    | some environment => signal.environment == some environment
    | none => true) &&
  (match rule.source with
    | some source => signal.source == source
    | none => true)

def accepts (rule : RouteMatch) (signal : Signal) : Bool :=
  if !rule.severity.isEmpty && !rule.severity.contains signal.severity then
    false
  else
    rule.matchesAnySeverity signal

end RouteMatch

namespace Route

/-- Whether the route keeps any dedup or rate-limit state. -/
def isThrottled (route : Route) : Bool :=
  route.dedup.isSome || route.rateLimit.isSome

/-- Whether the route sends digests instead of single signals. -/
def isGrouped (route : Route) : Bool :=
  route.groupBy.isSome || route.groupWait.isSome

/-- How long this route's groups stay open, if it groups. -/
def groupWindow (route : Route) : Option Window :=
  if route.isGrouped then some (route.groupWait.getD defaultGroupWait)
  else none

/-- Whether a signal must be checked against the route's history while
the plan is built. -/
def gatesSignals (route : Route) : Bool :=
  if route.isGrouped then route.dedup.isSome else route.isThrottled

/-- The providers the route lists, each once. -/
def distinctProviders (route : Route) : List String :=
  route.providers.foldl
    (fun names name => if name ∈ names then names else names ++ [name]) []

/-- This route's providers as delivery targets, on their own. -/
def targets (route : Route) : List (List String) :=
  match route.mode with
  | .failover => [route.distinctProviders]
  | .fanout => route.distinctProviders.map fun name => [name]

/-- The route's providers, as `[slack, pagerduty]`, for messages. -/
def describe (route : Route) : String :=
  "[" ++ String.intercalate ", " route.providers ++ "]"

/-- The line a refused route leaves in the plan. -/
def suppressedLine (route : Route) (reason : String) : String :=
  "route " ++ route.describe ++ ": " ++ reason

/-- The line a grouped route leaves in the plan. -/
def heldLine (route : Route) (wait : Window) : String :=
  "route " ++ route.describe ++ ": held for a digest (group_wait " ++
    wait.display ++ ")"

end Route

structure RoutingConfig where
  routes : List Route
  deriving DecidableEq, Repr

/-- Where one signal goes.  Every target is delivered on its own; within
a target the providers are tried in order until one succeeds. -/
structure DeliveryPlan where
  targets : List (List String)
  suppressed : List String
  grouped : List (Nat × String)
  deriving DecidableEq, Repr

/-- Every provider of the plan, in plan order. -/
def DeliveryPlan.providers (plan : DeliveryPlan) : List String :=
  plan.targets.flatten

/-- Where the providers named so far were put: the names seen, the
targets, and the index of the target the failover routes share. -/
structure Placement where
  seen : List String := []
  targets : List (List String) := []
  failover : Option Nat := none
  deriving DecidableEq, Repr

/-- One turn of the loop over a route's providers.  A provider already
seen is left where it is. -/
def Placement.place
    (placement : Placement) (entry : DeliveryMode × String) : Placement :=
  if entry.2 ∈ placement.seen then
    placement
  else
    let seen := placement.seen ++ [entry.2]
    match entry.1, placement.failover with
    | .fanout, _ =>
        { placement with
          seen := seen
          targets := placement.targets ++ [[entry.2]] }
    | .failover, some index =>
        { placement with
          seen := seen
          targets := placement.targets.modify index (· ++ [entry.2]) }
    | .failover, none =>
        { seen := seen
          targets := placement.targets ++ [[entry.2]]
          failover := some placement.targets.length }

/-- The loop variables of `plan_with`. -/
structure PlanState where
  placement : Placement := {}
  suppressed : List String := []
  grouped : List (Nat × String) := []
  deriving DecidableEq, Repr

/-- The route's providers as loop entries, each with the route's mode. -/
def Route.entries (route : Route) : List (DeliveryMode × String) :=
  route.providers.map fun name => (route.mode, name)

section Planning

variable {State : Type}

/-- What `dedup` and `rate_limit` answer through: a refusal carries its
reason. -/
abbrev Gate (State : Type) :=
  Route → State → Except String Unit × State

/-- The gate's answer for one route, which is asked only where it has to
be. -/
def askGate
    (admits : Gate State) (route : Route) (state : State) :
    Except String Unit × State :=
  if route.gatesSignals then admits route state else (.ok (), state)

/-- One turn of the loop over the routes. -/
def planRoute
    (signal : Signal) (admits : Gate State)
    (current : PlanState × State) (entry : Route × Nat) :
    PlanState × State :=
  if !entry.1.matchRule.accepts signal then
    current
  else
    match askGate admits entry.1 current.2 with
    | (.error reason, state) =>
        ({ current.1 with
            suppressed :=
              current.1.suppressed ++ [entry.1.suppressedLine reason] },
          state)
    | (.ok (), state) =>
        match entry.1.groupWindow with
        | some wait =>
            ({ current.1 with
                grouped :=
                  current.1.grouped ++ [(entry.2, entry.1.heldLine wait)] },
              state)
        | none =>
            ({ current.1 with
                placement :=
                  entry.1.entries.foldl Placement.place
                    current.1.placement },
              state)

/-- The whole loop over the routes. -/
def planRoutes
    (signal : Signal) (admits : Gate State) (routes : List (Route × Nat))
    (current : PlanState × State) : PlanState × State :=
  routes.foldl (planRoute signal admits) current

/-- Whether the loop left nothing at all. -/
def PlanState.isEmpty (current : PlanState) : Bool :=
  current.placement.targets.isEmpty && current.suppressed.isEmpty &&
    current.grouped.isEmpty

/-- A signal that matches nothing must never silently disappear: it goes
to the console. -/
def PlanState.finish (current : PlanState) : DeliveryPlan where
  targets :=
    if current.isEmpty then [["console"]] else current.placement.targets
  suppressed := current.suppressed
  grouped := current.grouped

namespace RoutingConfig

/-- `plan_with`: the plan, and the gate's state afterwards. -/
def planWith
    (config : RoutingConfig) (signal : Signal) (admits : Gate State)
    (state : State) : DeliveryPlan × State :=
  let final := planRoutes signal admits config.routes.zipIdx ({}, state)
  (final.1.finish, final.2)

/-- `plan`: no route is held back. -/
def plan (config : RoutingConfig) (signal : Signal) : DeliveryPlan :=
  (config.planWith signal (fun _ state => (.ok (), state)) ()).1

/-- The providers of every route that matches `signal` apart from its
severity, in route order, each once. -/
def providersAnySeverity
    (config : RoutingConfig) (signal : Signal) : List String :=
  ((config.routes.filter fun route =>
      route.matchRule.matchesAnySeverity signal).flatMap
    Route.providers).foldl
    (fun names name => if name ∈ names then names else names ++ [name]) []

end RoutingConfig

end Planning

end OpsSignal
