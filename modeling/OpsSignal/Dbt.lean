import OpsSignal.Signal

/-!
# The dbt adapter

`signals_from_run_results` turns a parsed `run_results.json` into one
signal for each failed or warned node, and rolls the nodes past a maximum
into one summary.  The document is a Python value, so a field of another
type than expected raises or is skipped where Python does.
-/

namespace OpsSignal

/-- What the adapter asks of Python about a value. -/
structure Python where
  /-- `str` of a value that is no string. -/
  str : Json → String
  /-- Whether a number is not zero, by the text it is written with. -/
  nonzero : String → Bool

inductive PythonError where
  | attributeError
  | typeError
  deriving DecidableEq, Repr

/-- The fields of a dict; each name stands there once. -/
abbrev Dict := List (String × Json)

/-- `dict.get`: a field that is absent is `None`. -/
def dictGet (name : String) (dict : Dict) : Json :=
  (dict.lookup name).getD .null

namespace Json

/-- `bool`. -/
def truthy (python : Python) : Json → Bool
  | .null => false
  | .bool value => value
  | .number text => python.nonzero text
  | .string text => text != ""
  | .array items => !items.isEmpty
  | .object fields => !fields.isEmpty

/-- `value or default`. -/
def orElse (python : Python) (value default : Json) : Json :=
  if value.truthy python then value else default

/-- `str`. -/
def str (python : Python) : Json → String
  | .string text => text
  | value => python.str value

/-- `value.get(name)`: only a dict has this method. -/
def getOf (name : String) : Json → Except PythonError Json
  | .object dict => .ok (dictGet name dict)
  | _ => .error .attributeError

/-- What a `for` loop runs over. -/
def iterate : Json → Except PythonError (List Json)
  | .array items => .ok items
  | .string text => .ok (text.toList.map fun c => .string (String.singleton c))
  | .object dict => .ok (dict.map fun field => .string field.1)
  | _ => .error .typeError

def isNone : Json → Bool
  | .null => true
  | _ => false

end Json

/-- `str.lower`, of which only the letters of the statuses matter: no other
character is lowered to one of these. -/
def lower (text : String) : String :=
  text.map Char.toLower

/-! ## One node -/

inductive Outcome where
  | failed
  | warned
  deriving DecidableEq, Repr

namespace Outcome

def severity : Outcome → Severity
  | .failed => .error
  | .warned => .warning

def display : Outcome → String
  | .failed => "failed"
  | .warned => "warned"

end Outcome

/-- `_FAILED` and `_WARNED`. -/
def statusOutcome (status : String) : Option Outcome :=
  if status ∈ ["error", "fail", "runtime error"] then some .failed
  else if status ∈ ["warn"] then some .warned
  else none

/-- The components of a dotted id; there is at least one. -/
def idParts (uniqueId : String) : List (List Char) :=
  splitOn '.' uniqueId.toList

def resourceType (uniqueId : String) (fallback : Option String) : String :=
  match fallback.filter fun kind => kind != "" with
  | some kind => kind
  | none =>
      if '.' ∈ uniqueId.toList then
        String.ofList ((idParts uniqueId).headD [])
      else
        "node"

/-- Tests carry a hash suffix after the name. -/
def nodeName (uniqueId : String) : String :=
  let parts := idParts uniqueId
  let kind := parts.headD []
  if (kind = "test".toList ∨ kind = "unit_test".toList) ∧
      4 ≤ parts.length then
    String.ofList (parts.getD 2 [])
  else
    String.ofList (parts.getLastD uniqueId.toList)

def project (uniqueId : String) : Option String :=
  let parts := idParts uniqueId
  if 3 ≤ parts.length then some (String.ofList (parts.getD 1 [])) else none

/-- What `notify` is called with for one node.  `None` is the `null` of a
JSON value. -/
structure NodeSignal where
  source : String
  eventType : String
  title : String
  severity : Severity
  message : Json
  environment : Option String
  service : Option String
  component : String
  runId : Json
  metadata : Dict
  deriving Repr

/-- The fields that are not `None`. -/
def present (dict : Dict) : Dict :=
  dict.filter fun field => !field.2.isNone

/-- `_node_signal`.  The extra fields have names of their own. -/
def nodeSignal
    (python : Python) (uniqueId status : String) (message : Json)
    (fallback : Option String) (invocationId : Json)
    (environment : Option String) (extra : Dict) : Option NodeSignal :=
  let status := lower status
  (statusOutcome status).map fun outcome =>
    let kind := resourceType uniqueId fallback
    { source := "dbt"
      eventType := "dbt_" ++ kind ++ "_" ++ outcome.display
      title := "dbt " ++
        kind.map (fun c => if c = '_' then ' ' else c) ++ " " ++
          outcome.display ++ ": " ++ nodeName uniqueId
      severity := outcome.severity
      message := message.orElse python .null
      environment := environment
      service := project uniqueId
      component := uniqueId
      runId := invocationId
      metadata :=
        [("unique_id", .string uniqueId), ("resource_type", .string kind),
          ("status", .string status)] ++ present extra }

/-! ## A run -/

/-- What is read of the document before the nodes are. -/
structure DbtRun where
  invocationId : Json
  common : Dict
  results : List Json

/-- The head of `signals_from_run_results`. -/
def DbtRun.open_ (python : Python) (runResults : Json) :
    Except PythonError DbtRun := do
  let meta_ := (← runResults.getOf "metadata").orElse python (.object [])
  let args := (← runResults.getOf "args").orElse python (.object [])
  let invocationId ← meta_.getOf "invocation_id"
  let version ← meta_.getOf "dbt_version"
  let command ← args.getOf "which"
  let target ← args.getOf "target"
  let results ←
    ((← runResults.getOf "results").orElse python (.array [])).iterate
  return {
    invocationId := invocationId
    common :=
      [("dbt_version", version), ("command", command), ("target", target)]
    results := results }

/-- The id of a result. -/
def resultId (python : Python) (result : Dict) : String :=
  ((dictGet "unique_id" result).orElse python (.string "unknown")).str python

/-- The status of a result. -/
def resultStatus (python : Python) (result : Dict) : String :=
  ((dictGet "status" result).orElse python (.string "")).str python

/-- The signal of one result.  What is no dict is skipped. -/
def DbtRun.resultSignal
    (python : Python) (environment : Option String) (run : DbtRun) :
    Json → Option NodeSignal
  | .object result =>
      nodeSignal python (resultId python result)
        (resultStatus python result) (dictGet "message" result) none
        run.invocationId environment
        (run.common ++
          [("failures", dictGet "failures" result),
            ("execution_time", dictGet "execution_time" result),
            ("relation_name", dictGet "relation_name" result)])
  | _ => none

/-- The signal that stands for the nodes past the maximum.  Its metadata
are the common fields and the last three. -/
structure RunSummary where
  source : String
  eventType : String
  title : String
  severity : Severity
  message : String
  environment : Option String
  service : Option String
  runId : Json
  common : Dict
  failed : Nat
  warned : Nat
  uniqueIds : List String
  deriving Repr

inductive DbtSignal where
  | node (signal : NodeSignal)
  | summary (summary : RunSummary)
  deriving Repr

def DbtRun.summarize
    (environment : Option String) (run : DbtRun)
    (kept rest : List NodeSignal) : RunSummary :=
  let failed := rest.countP fun signal => signal.severity == .error
  { source := "dbt"
    eventType := "dbt_run_degraded"
    title := "dbt run had " ++ toString rest.length ++
      " more failing or warning nodes"
    severity := if failed = 0 then .warning else .error
    message :=
      String.intercalate "\n" (rest.map fun signal => signal.component)
    environment := environment
    service := kept.head?.bind fun signal => signal.service
    runId := run.invocationId
    common := present run.common
    failed := failed
    warned := rest.length - failed
    uniqueIds := rest.map fun signal => signal.component }

/-- The cap of `signals_from_run_results`: one place of it is the
summary's. -/
def DbtRun.rollUp
    (environment : Option String) (maxSignals : Int) (run : DbtRun)
    (signals : List NodeSignal) : List DbtSignal :=
  if 0 < maxSignals ∧ maxSignals < signals.length then
    let kept := signals.take (maxSignals - 1).toNat
    let rest := signals.drop (maxSignals - 1).toNat
    kept.map DbtSignal.node ++
      [DbtSignal.summary (run.summarize environment kept rest)]
  else
    signals.map DbtSignal.node

def signalsFromRunResults
    (python : Python) (environment : Option String) (maxSignals : Int)
    (runResults : Json) : Except PythonError (List DbtSignal) := do
  let run ← DbtRun.open_ python runResults
  return run.rollUp environment maxSignals
    (run.results.filterMap (run.resultSignal python environment))

end OpsSignal
