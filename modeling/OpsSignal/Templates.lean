import OpsSignal.Config
import OpsSignal.JsonObjects

/-!
# Message templates

The `template` map of a provider replaces the text of parts of what it
sends.  The template engine is library code: what it makes of a source in
a context is a parameter.
-/

namespace OpsSignal

open Checks

/-- Library functions that the messages are written with. -/
structure Renderer where
  platform : Platform
  libraries : Libraries
  /-- Renders a template source; the error is only logged. -/
  template : String → Fields → Except String String
  /-- `DateTime::to_rfc3339`. -/
  rfc3339 : Int → String
  /-- `serde_json::to_string_pretty`. -/
  pretty : Json → String
  /-- `serde_json::from_str` into a value. -/
  readJson : String → Except String Json

/-! ## A signal as JSON -/

/-- The fields of a serialized signal, in the order they are declared. -/
def Signal.entries (platform : Platform) (signal : Signal) : Fields :=
  [("id", .string signal.id),
    ("source", .string signal.source),
    ("service", optionalText signal.service),
    ("component", optionalText signal.component),
    ("event_type", .string signal.eventType),
    ("severity", .string signal.severity.display),
    ("title", .string signal.title),
    ("message", optionalText signal.message),
    ("environment", optionalText signal.environment),
    ("team", optionalText signal.team),
    ("run_id", optionalText signal.runId),
    ("correlation_id", optionalText signal.correlationId),
    ("trace_id", optionalText signal.traceId),
    ("log_url", optionalText signal.logUrl),
    ("metadata", signal.metadata),
    ("timestamp", .string (platform.showTime signal.timestamp)),
    ("dedup_key", optionalText signal.dedupKey),
    ("action", .string signal.action.display)]

/-- `serde_json::to_value`. -/
def Signal.toValue (platform : Platform) (signal : Signal) : Json :=
  .record (signal.entries platform)

def Json.isNull : Json → Bool
  | .null => true
  | _ => false

/-! ## Templates -/

/-- One provider's compiled templates. -/
structure Templates where
  provider : String
  env : TemplateConfig
  deriving DecidableEq, Repr

namespace Templates

/-- Compiles and checks a provider's templates; `none` when it has
none. -/
def compile
    (libraries : Libraries) (provider : String) (config : TemplateConfig) :
    Except SignalError (Option Templates) :=
  if config.isEmpty then
    .ok none
  else
    match checkTemplateMap libraries provider (some config) with
    | .ok () => .ok (some ⟨provider, config⟩)
    | .error e => .error e

/-- Like `compile`, but an error is logged and the provider keeps its
built-in format. -/
def load
    (libraries : Libraries) (provider : String) (config : TemplateConfig) :
    Option Templates :=
  match compile libraries provider config with
  | .ok templates => templates
  | .error _ => none

end Templates

/-- The fields a template sees: those of the signal that are set, and what
the provider adds. -/
def templateContext
    (platform : Platform) (signal : Signal) (extras : Fields) : Fields :=
  let set := (Fields.of (signal.entries platform)).filter
    fun entry => !entry.2.isNull
  extras.foldl (fun fields entry => fields.insert entry.1 entry.2) set

section Rendering

variable (renderer : Renderer)

/-- `Templates::render`: nothing when there is no template for the part,
or it fails, or it renders to only whitespace. -/
def Templates.render
    (templates : Templates) (part : String) (signal : Signal)
    (extras : Fields) : Option String :=
  match templates.env.lookup part with
  | none => none
  | some source =>
      match renderer.template source
          (templateContext renderer.platform signal extras) with
      | .ok text => if isBlank text then none else some text
      | .error _ => none

/-- `template::render`. -/
def renderPart
    (templates : Option Templates) (part : String) (signal : Signal)
    (extras : Fields) : Option String :=
  templates.bind fun templates =>
    templates.render renderer part signal extras

variable {renderer}

/-- What a template renders to says something. -/
theorem not_blank_of_renderPart
    {templates : Option Templates} {part text : String} {signal : Signal}
    {extras : Fields}
    (rendered : renderPart renderer templates part signal extras =
      some text) : isBlank text = false := by
  rw [renderPart, Option.bind_eq_some_iff] at rendered
  obtain ⟨own, _, rendered⟩ := rendered
  rw [Templates.render] at rendered
  split at rendered
  · cases rendered
  · split at rendered
    · split at rendered
      · cases rendered
      · rename_i visible
        cases rendered
        simpa using visible
    · cases rendered

end Rendering

end OpsSignal
