import OpsSignal.Text

/-!
# Signals

The generic signal model: what a caller constructs, what the core stamps,
and the checks every input passes before anything else happens.

The time formatter and the SHA-256 digest are library code; they are the
fields of `Platform`.
-/

namespace OpsSignal

/-- A JSON value.  A number is kept as the text it is written with. -/
inductive Json where
  | null
  | bool (value : Bool)
  | number (text : String)
  | string (text : String)
  | array (items : List Json)
  | object (fields : List (String × Json))
  deriving Repr

/-- Library functions the core calls on text and time. -/
structure Platform where
  /-- The lowercase hexadecimal SHA-256 digest of a text. -/
  sha256 : String → String
  /-- How an instant is written in JSON. -/
  showTime : Int → String

inductive Severity where
  | info
  | success
  | warning
  | error
  | critical
  deriving DecidableEq, Repr

namespace Severity

def display : Severity → String
  | .info => "info"
  | .success => "success"
  | .warning => "warning"
  | .error => "error"
  | .critical => "critical"

end Severity

/-- What a signal does to the alert its dedup key names. -/
inductive Action where
  | trigger
  | acknowledge
  | resolve
  deriving DecidableEq, Repr

namespace Action

/-- Whether the signal acts on an existing alert rather than raising one. -/
def isLifecycle (action : Action) : Bool :=
  action ≠ .trigger

def display : Action → String
  | .trigger => "trigger"
  | .acknowledge => "acknowledge"
  | .resolve => "resolve"

end Action

structure Signal where
  id : String
  source : String
  service : Option String
  component : Option String
  eventType : String
  severity : Severity
  title : String
  message : Option String
  environment : Option String
  team : Option String
  runId : Option String
  correlationId : Option String
  traceId : Option String
  logUrl : Option String
  metadata : Json
  timestamp : Int
  dedupKey : Option String
  action : Action
  deriving Repr

/-- What callers construct.  The id and the timestamp are not theirs to
set. -/
structure SignalInput where
  source : String := ""
  service : Option String := none
  component : Option String := none
  eventType : String := ""
  severity : Severity := .info
  title : String := ""
  message : Option String := none
  environment : Option String := none
  team : Option String := none
  runId : Option String := none
  correlationId : Option String := none
  traceId : Option String := none
  logUrl : Option String := none
  metadata : Option Json := none
  dedupKey : Option String := none
  action : Action := .trigger
  deriving Repr

inductive SignalError where
  | validation (message : String)
  | config (message : String)
  | delivery (message : String)
  | sink (message : String)
  | timeout (millis : Nat)
  | internal (message : String)
  deriving DecidableEq, Repr

def computeDedupKey (platform : Platform) (input : SignalInput) : String :=
  platform.sha256
    (input.source ++ "|" ++ input.eventType ++ "|" ++ input.title ++ "|" ++
      input.environment.getD "")

namespace SignalInput

/-- The dedup key this input's signal gets: the given one, or the one
computed from its fields. -/
def effectiveDedupKey (platform : Platform) (input : SignalInput) : String :=
  input.dedupKey.getD (computeDedupKey platform input)

/-- Gives an `acknowledge` or `resolve` sent with only its dedup key the
fields every provider needs. -/
def fillLifecycleDefaults
    (input : SignalInput) (knownTitle : Option String) : SignalInput :=
  { input with
    source := if isBlank input.source then "opssignal" else input.source
    eventType :=
      if isBlank input.eventType then input.action.display
      else input.eventType
    title :=
      if isBlank input.title then
        (knownTitle.or input.dedupKey).getD ""
      else
        input.title }

end SignalInput

/-- Checks the fields a signal needs. -/
def validate (input : SignalInput) : Except SignalError Unit :=
  let fields : Except SignalError Unit :=
    if isBlank input.source then
      .error (.validation "source must not be empty")
    else if isBlank input.eventType then
      .error (.validation "event_type must not be empty")
    else if isBlank input.title then
      .error (.validation "title must not be empty")
    else
      .ok ()
  if input.action.isLifecycle then
    match input.dedupKey with
    | some key =>
        if isBlank key then
          .error (.validation
            ("dedup_key must not be blank for " ++ input.action.display))
        else
          .ok ()
    -- The key is computed from the fields, so they are needed.
    | none => fields
  else
    fields

/-- `Signal::from_input`, with the id and the clock reading it stamps. -/
def Signal.fromInput
    (platform : Platform) (id : String) (timestamp : Int)
    (input : SignalInput) : Signal where
  id := id
  source := input.source
  service := input.service
  component := input.component
  eventType := input.eventType
  severity := input.severity
  title := input.title
  message := input.message
  environment := input.environment
  team := input.team
  runId := input.runId
  correlationId := input.correlationId
  traceId := input.traceId
  logUrl := input.logUrl
  metadata := input.metadata.getD (.object [])
  timestamp := timestamp
  dedupKey := some (input.effectiveDedupKey platform)
  action := input.action

/-- A stamped signal always carries the key its input names. -/
@[simp]
theorem dedupKey_fromInput
    (platform : Platform) (id : String) (timestamp : Int)
    (input : SignalInput) :
    (Signal.fromInput platform id timestamp input).dedupKey =
      some (input.effectiveDedupKey platform) :=
  rfl

@[simp]
theorem action_fromInput
    (platform : Platform) (id : String) (timestamp : Int)
    (input : SignalInput) :
    (Signal.fromInput platform id timestamp input).action = input.action :=
  rfl

end OpsSignal
