import OpsSignal.Chain
import OpsSignal.CosmosReads
import OpsSignal.Delivery
import OpsSignal.Templates

/-!
# Providers

What each provider makes of a signal: the request it sends, what it shows
in a preview, and what it tells the core of the reply.  The HTTP client,
the mail transport and the URL parser are library code.
-/

namespace OpsSignal

/-! ## Requests and replies -/

/-- A `POST` of JSON. -/
structure HttpRequest where
  url : String
  authorization : Option String := none
  body : Json

/-- How the HTTP client comes back. -/
inductive HttpReply where
  | unreachable (error : String)
  /-- The status, how it is written, and the JSON of the body. -/
  | answered (status : Nat) (shown : String) (body : Except String Json)

/-- `StatusCode::is_success`. -/
def isSuccessStatus (status : Nat) : Bool :=
  200 ≤ status && status < 300

def deliveryError (message : String) : SignalError :=
  .delivery message

/-- Sends that need nothing of a reply but a success: `what` returned a
status. -/
def expectSuccess (what : String) : HttpReply → Except SignalError Unit
  | .unreachable error => .error (deliveryError error)
  | .answered status shown _ =>
      if isSuccessStatus status then .ok ()
      else .error (deliveryError (what ++ " returned status " ++ shown))

/-- The first characters of a text. -/
def truncate (text : String) (maxChars : Nat) : String :=
  String.ofList (text.toList.take maxChars)

/-- `trim_end_matches('/')`. -/
def trimEndSlashes (text : String) : String :=
  String.ofList (text.toList.rdropWhile (· = '/'))

/-- How messages announce an `acknowledge` or `resolve`. -/
def Action.label : Action → Option String
  | .trigger => none
  | .acknowledge => some "Acknowledged"
  | .resolve => some "Resolved"

/-- `Value::as_bool`. -/
def Json.asBool : Json → Option Bool
  | .bool value => some value
  | _ => none

/-- Whether the metadata is an object with something in it. -/
def Json.hasFields : Json → Bool
  | .object fields => !fields.isEmpty
  | _ => false

/-! ## Console -/

structure ConsoleProvider where
  templates : Option Templates := none
  deriving DecidableEq, Repr

def ConsoleProvider.lineFor
    (renderer : Renderer) (provider : ConsoleProvider) (signal : Signal) :
    String :=
  (renderPart renderer provider.templates "text" signal []).getD
    (let tag :=
      match signal.action.label with
      | some label => label.toLower
      | none => signal.severity.display
    "[signal:" ++ signal.source ++ "] " ++ tag ++ " " ++
      signal.eventType ++ " — " ++ signal.title)

/-! ## Slack -/

inductive SlackTarget where
  | webhook (url : String)
  | bot (token channel apiUrl : String)
  deriving DecidableEq, Repr

structure SlackProvider where
  target : SlackTarget
  templates : Option Templates := none
  deriving DecidableEq, Repr

namespace SlackProvider

def defaultApiUrl : String := "https://slack.com/api"

/-- `SlackProvider::new`. -/
def new (webhookUrl : String) : SlackProvider :=
  ⟨.webhook webhookUrl, none⟩

def withBot (token channel : String) (apiUrl : Option String) :
    SlackProvider :=
  ⟨.bot token channel (trimEndSlashes (apiUrl.getD defaultApiUrl)), none⟩

def emojiFor : Severity → String
  | .info => ":information_source:"
  | .success => ":white_check_mark:"
  | .warning => ":warning:"
  | .error => ":x:"
  | .critical => ":rotating_light:"

/-- The emoji a message starts with. -/
def emojiForSignal (signal : Signal) : String :=
  match signal.action with
  | .trigger => emojiFor signal.severity
  | .acknowledge => ":eyes:"
  | .resolve => ":white_check_mark:"

section Messages

variable (renderer : Renderer) (provider : SlackProvider)

def bodyFor (signal : Signal) : Fields :=
  let emoji := emojiForSignal signal
  let text :=
    (renderPart renderer provider.templates "text" signal
      [("emoji", .string emoji)]).getD
      (let announced :=
        match signal.action with
        | .trigger => ""
        | .acknowledge => "Acknowledged: "
        | .resolve => "Resolved: "
      emoji ++ " *" ++ announced ++ signal.title ++ "*\n" ++
        signal.message.getD "")
  .of [("text", .string text)]

/-- The message an earlier reference names, where the signal acts on
it. -/
def earlier (signal : Signal) (alertRef : Option String) :
    Option (String × String) :=
  (alertRef.filter fun _ => signal.action.isLifecycle).bind fun ref =>
    (splitOnce '/' ref.toList).map fun parts =>
      (String.ofList parts.1, String.ofList parts.2)

/-- Where the message goes, and what. -/
def request (signal : Signal) (alertRef : Option String) : HttpRequest :=
  let body := provider.bodyFor renderer signal
  match provider.target with
  | .webhook url => { url := url, body := .object body }
  | .bot token own apiUrl =>
      match earlier signal alertRef with
      | some (channel, ts) =>
          { url := apiUrl ++ "/chat.update"
            authorization := some ("Bearer " ++ token)
            body := .object ((body.insert "channel" (.string channel)).insert
              "ts" (.string ts)) }
      | none =>
          { url := apiUrl ++ "/chat.postMessage"
            authorization := some ("Bearer " ++ token)
            body := .object (body.insert "channel" (.string own)) }

/-- What `post` makes of the reply of the Web API, which answers 200 with
`ok: false` on errors. -/
def webApiReply : HttpReply → Except SignalError Json
  | .unreachable error => .error (deliveryError error)
  | .answered status shown body =>
      if isSuccessStatus status then
        match body with
        | .error e => .error (deliveryError ("slack web API reply: " ++ e))
        | .ok reply =>
            if (reply.get "ok").bind Json.asBool = some true then
              .ok reply
            else
              .error (deliveryError ("slack web API error: " ++
                ((reply.get "error").bind Json.asStr).getD "unknown"))
      else
        .error (deliveryError
          ("slack web API returned status " ++ shown))

/-- The channel and the timestamp of a message that was posted. -/
def posted (reply : Json) : Option (String × String) :=
  match (reply.get "channel").bind Json.asStr,
    (reply.get "ts").bind Json.asStr with
  | some channel, some ts => some (channel, ts)
  | _, _ => none

/-- What `send_with_ref` returns for a reply. -/
def receive
    (signal : Signal) (alertRef : Option String) (reply : HttpReply) :
    Except SignalError (Option String) :=
  match provider.target with
  | .webhook _ => (expectSuccess "slack webhook" reply).map fun _ => none
  | .bot _ _ _ =>
      match earlier signal alertRef with
      | some _ => (webApiReply reply).map fun _ => alertRef
      | none =>
          (webApiReply reply).map fun answer =>
            (posted answer).map fun parts => parts.1 ++ "/" ++ parts.2

end Messages

end SlackProvider

/-! ## Webhook -/

structure WebhookProvider where
  url : String
  templates : Option Templates := none
  deriving DecidableEq, Repr

namespace WebhookProvider

variable (renderer : Renderer) (provider : WebhookProvider)

/-- The templated `body` when it renders to valid JSON, else the signal
itself. -/
def bodyFor (signal : Signal) : Json :=
  match renderPart renderer provider.templates "body" signal [] with
  | none => signal.toValue renderer.platform
  | some text =>
      match renderer.readJson text with
      | .ok body => body
      | .error _ => signal.toValue renderer.platform

def request (signal : Signal) : HttpRequest :=
  { url := provider.url, body := provider.bodyFor renderer signal }

end WebhookProvider

/-! ## PagerDuty -/

structure PagerDutyProvider where
  routingKey : String
  url : String
  templates : Option Templates := none
  deriving DecidableEq, Repr

namespace PagerDutyProvider

def defaultEventsUrl : String :=
  "https://events.pagerduty.com/v2/enqueue"

def maxSummaryChars : Nat := 1024

def maxDedupKeyChars : Nat := 255

/-- `PagerDutyProvider::new`. -/
def new (routingKey : String) (url : Option String) : PagerDutyProvider :=
  ⟨routingKey, url.getD defaultEventsUrl, none⟩

/-- PagerDuty has no `success` severity. -/
def severityFor : Severity → String
  | .info | .success => "info"
  | .warning => "warning"
  | .error => "error"
  | .critical => "critical"

section Events

variable (renderer : Renderer) (provider : PagerDutyProvider)

/-- The details of the payload of a trigger. -/
def customDetails (signal : Signal) : Fields :=
  let always := ((Fields.insert "signal_id" (.string signal.id)
    []).insert "event_type" (.string signal.eventType)).insert "severity"
      (.string signal.severity.display)
  let details :=
    [("message", signal.message), ("environment", signal.environment),
      ("team", signal.team), ("run_id", signal.runId),
      ("correlation_id", signal.correlationId),
      ("trace_id", signal.traceId)].foldl Fields.insertSome always
  if signal.metadata.hasFields then
    details.insert "metadata" signal.metadata
  else
    details

def payload (signal : Signal) : Fields :=
  let summary :=
    (renderPart renderer provider.templates "summary" signal []).getD
      signal.title
  let always := Fields.of
    [("summary", .string (truncate summary maxSummaryChars)),
      ("source", .string signal.source),
      ("severity", .string (severityFor signal.severity)),
      ("timestamp", .string (renderer.rfc3339 signal.timestamp)),
      ("class", .string signal.eventType),
      ("custom_details", .object (customDetails signal))]
  (always.insertSome ("component", signal.component)).insertSome
    ("group", signal.service)

def eventFor (signal : Signal) : Fields :=
  if signal.action.isLifecycle then
    -- The key says which alert.
    .of
      [("routing_key", .string provider.routingKey),
        ("event_action", .string
          (match signal.action with
          | .acknowledge => "acknowledge"
          | _ => "resolve")),
        ("dedup_key", .string
          (truncate (signal.dedupKey.getD "") maxDedupKeyChars))]
  else
    let event := (Fields.of
      [("routing_key", .string provider.routingKey),
        ("event_action", .string "trigger"),
        ("payload", .object (provider.payload renderer signal))]).insertSome
          ("dedup_key", signal.dedupKey.map fun key =>
            truncate key maxDedupKeyChars)
    match signal.logUrl with
    | some logUrl =>
        event.insert "links"
          (.array [.record [("href", .string logUrl),
            ("text", .string "Logs")]])
    | none => event

def request (signal : Signal) : HttpRequest :=
  { url := provider.url
    body := .object (provider.eventFor renderer signal) }

end Events

end PagerDutyProvider

/-! ## Teams -/

structure TeamsProvider where
  webhookUrl : String
  templates : Option Templates := none
  deriving DecidableEq, Repr

namespace TeamsProvider

def colorFor : Severity → String
  | .info => "default"
  | .success => "good"
  | .warning => "warning"
  | .error | .critical => "attention"

def fact (title value : String) : Json :=
  .record [("title", .string title), ("value", .string value)]

section Cards

variable (renderer : Renderer) (provider : TeamsProvider)

def facts (signal : Signal) : List Json :=
  [fact "Severity" signal.severity.display, fact "Source" signal.source,
    fact "Event" signal.eventType] ++
    [("Environment", signal.environment), ("Service", signal.service),
      ("Component", signal.component), ("Team", signal.team),
      ("Run ID", signal.runId)].filterMap fun entry =>
        entry.2.map fun value => fact entry.1 value

def cardFor (signal : Signal) : Json :=
  let title :=
    (renderPart renderer provider.templates "title" signal []).getD
      (match signal.action.label with
      | some label => label ++ ": " ++ signal.title
      | none => signal.title)
  let message :=
    (renderPart renderer provider.templates "text" signal []).or
      signal.message
  let heading := Json.record
    [("type", .string "TextBlock"), ("text", .string title),
      ("weight", .string "bolder"), ("size", .string "medium"),
      ("color", .string
        (match signal.action with
        | .trigger => colorFor signal.severity
        | _ => "good")),
      ("wrap", .bool true)]
  let texts := message.toList.map fun text => Json.record
    [("type", .string "TextBlock"), ("text", .string text),
      ("wrap", .bool true)]
  let body := heading :: texts ++
    [.record [("type", .string "FactSet"), ("facts", .array (facts signal))]]
  let card := Fields.of
    [("$schema", .string
        "http://adaptivecards.io/schemas/adaptive-card.json"),
      ("type", .string "AdaptiveCard"), ("version", .string "1.4"),
      ("body", .array body)]
  let content :=
    match signal.logUrl with
    | some logUrl =>
        card.insert "actions" (.array [.record
          [("type", .string "Action.OpenUrl"),
            ("title", .string "View logs"), ("url", .string logUrl)]])
    | none => card
  .record
    [("type", .string "message"),
      ("attachments", .array [.record
        [("contentType", .string
            "application/vnd.microsoft.card.adaptive"),
          ("contentUrl", .null), ("content", .object content)]])]

def request (signal : Signal) : HttpRequest :=
  { url := provider.webhookUrl, body := provider.cardFor renderer signal }

end Cards

end TeamsProvider

/-! ## Opsgenie -/

/-- The parts of the URL library that the Opsgenie provider uses. -/
structure AlertUrls where
  Url : Type
  parse : String → Except String Url
  /-- `path_segments_mut`, `pop_if_empty` and a `push` of each segment;
  nothing when the URL cannot be a base. -/
  pushPath : Url → List String → Option Url
  /-- `query_pairs_mut().append_pair`. -/
  appendPair : Url → String → String → Url
  display : Url → String

structure OpsgenieProvider where
  apiKey : String
  url : String
  tags : List String
  templates : Option Templates := none
  deriving DecidableEq, Repr

namespace OpsgenieProvider

def defaultAlertsUrl : String := "https://api.opsgenie.com/v2/alerts"

def maxMessageChars : Nat := 130

def maxAliasChars : Nat := 512

def maxDescriptionChars : Nat := 15000

def maxSourceChars : Nat := 100

def maxEntityChars : Nat := 512

def maxTags : Nat := 20

def maxTagChars : Nat := 50

def maxNoteChars : Nat := 25000

/-- `OpsgenieProvider::new`. -/
def new (apiKey : String) (url : Option String) (tags : List String) :
    OpsgenieProvider :=
  ⟨apiKey, url.getD defaultAlertsUrl, tags, none⟩

def priorityFor : Severity → String
  | .critical => "P1"
  | .error => "P2"
  | .warning => "P3"
  | .info | .success => "P5"

/-- The metadata as flat details, under names of their own. -/
def metadataDetails (metadata : Json) (details : Fields) : Fields :=
  match metadata with
  | .object fields =>
      fields.foldl
        (fun details entry =>
          let text :=
            match entry.2 with
            | .string text => text
            | other => other.text
          details.orInsert ("metadata." ++ entry.1) (.string text))
        details
  | _ => details

section Alerts

variable (renderer : Renderer) (provider : OpsgenieProvider)

/-- The details that are not metadata. -/
def signalDetails (signal : Signal) : Fields :=
  let always := (((Fields.insert "signal_id" (.string signal.id)
    []).insert "event_type" (.string signal.eventType)).insert "severity"
      (.string signal.severity.display)).insert "timestamp"
        (.string (renderer.rfc3339 signal.timestamp))
  [("environment", signal.environment), ("service", signal.service),
    ("component", signal.component), ("team", signal.team),
    ("run_id", signal.runId), ("correlation_id", signal.correlationId),
    ("trace_id", signal.traceId), ("log_url", signal.logUrl)].foldl
      Fields.insertSome always

def details (signal : Signal) : Fields :=
  metadataDetails signal.metadata (signalDetails renderer signal)

/-- One turn of the loop over the tags: the texts seen so far, and those
that pass. -/
def keepTag (kept : List String) (tag : String) : List String :=
  let short := truncate tag maxTagChars
  if short = "" ∨ short ∈ kept then kept else kept ++ [short]

/-- The tags of an alert, each once. -/
def alertTags (signal : Signal) : List String :=
  let all := provider.tags ++ [signal.severity.display] ++
    signal.environment.toList
  (all.foldl keepTag []).take maxTags

def description (signal : Signal) : String :=
  (renderPart renderer provider.templates "description" signal []).getD
    (let message := signal.message.getD ""
    match signal.logUrl with
    | some logUrl =>
        message ++ (if message = "" then "" else "\n\n") ++ "Logs: " ++
          logUrl
    | none => message)

def entity (signal : Signal) : Option String :=
  match signal.service, signal.component with
  | some service, some component => some (service ++ "/" ++ component)
  | some one, none | none, some one => some one
  | none, none => none

def alertFor (signal : Signal) : Fields :=
  let message :=
    (renderPart renderer provider.templates "message" signal []).getD
      signal.title
  let alert := (Fields.of
    [("message", .string (truncate message maxMessageChars)),
      ("source", .string (truncate signal.source maxSourceChars)),
      ("priority", .string (priorityFor signal.severity)),
      ("tags", .array ((provider.alertTags signal).map Json.string)),
      ("details", .object (details renderer signal))]).insertSome
        ("alias", signal.dedupKey.map fun key => truncate key maxAliasChars)
  let text := provider.description renderer signal
  let described :=
    if text = "" then alert
    else
      alert.insert "description"
        (.string (truncate text maxDescriptionChars))
  described.insertSome
    ("entity", (entity signal).map fun name =>
      truncate name maxEntityChars)

/-- The verb of an action on an alert. -/
def verb : Action → Option String
  | .trigger => none
  | .acknowledge => some "acknowledge"
  | .resolve => some "close"

def note (signal : Signal) : Json :=
  .record
    [("source", .string (truncate signal.source maxSourceChars)),
      ("note", .string
        (truncate (signal.message.getD signal.title) maxNoteChars))]

/-- Where to POST the signal and what. -/
def requestFor (urls : AlertUrls) (signal : Signal) :
    Except SignalError (String × Json) :=
  match verb signal.action with
  | none => .ok (provider.url, .object (provider.alertFor renderer signal))
  | some verb =>
      let alias_ := truncate (signal.dedupKey.getD "") maxAliasChars
      match urls.parse provider.url with
      | .error e =>
          .error (deliveryError ("invalid opsgenie url: " ++ e))
      | .ok url =>
          match urls.pushPath url [alias_, verb] with
          | none => .error (deliveryError "invalid opsgenie url")
          | some url =>
              .ok (urls.display
                (urls.appendPair url "identifierType" "alias"),
                note signal)

def request (urls : AlertUrls) (signal : Signal) :
    Except SignalError HttpRequest :=
  (provider.requestFor renderer urls signal).map fun parts =>
    { url := parts.1
      authorization := some ("GenieKey " ++ provider.apiKey)
      body := parts.2 }

/-- An action on an alert that is not there leaves what it should
leave. -/
def receive (signal : Signal) (reply : HttpReply) :
    Except SignalError Unit :=
  match reply with
  | .answered 404 shown body =>
      if signal.action.isLifecycle then .ok ()
      else expectSuccess "opsgenie alert API" (.answered 404 shown body)
  | reply => expectSuccess "opsgenie alert API" reply

end Alerts

end OpsgenieProvider

end OpsSignal
