import OpsSignal.Lib.Checks
import OpsSignal.Routing

/-!
# The configuration

The typed form of `signal.yaml`, the merge of a chain of layers, and the
checks a merged configuration passes.  The mailbox parser, the template
engine and the registry of cloud add-ons are library code; they are the
fields of `Libraries`.
-/

namespace OpsSignal

open Checks

/-- Library code the checks call. -/
structure Libraries where
  /-- The mailbox parser: the error text of an invalid address. -/
  mailbox : String → Except String Unit
  /-- The debug form of a text, in quotes. -/
  quote : String → String
  /-- Compiles a template source to the variables it leaves undeclared. -/
  undeclared : String → Except String (List String)
  /-- Whether the template engine defines a name itself. -/
  isGlobal : String → Bool
  /-- Whether this build, or a registered add-on, serves a cloud. -/
  cloudSupported : String → Bool

/-- A provider's `template` map: part name to template source. -/
abbrev TemplateConfig := List (String × String)

structure ConsoleConfig where
  enabled : Option Bool := none
  template : TemplateConfig := []
  deriving DecidableEq, Repr

structure SlackConfig where
  webhookUrl : Option String := none
  botToken : Option String := none
  channel : Option String := none
  apiUrl : Option String := none
  template : TemplateConfig := []
  deriving DecidableEq, Repr

structure WebhookConfig where
  url : String
  template : TemplateConfig := []
  deriving DecidableEq, Repr

structure PagerDutyConfig where
  routingKey : String
  url : Option String := none
  template : TemplateConfig := []
  deriving DecidableEq, Repr

structure TeamsConfig where
  webhookUrl : String
  template : TemplateConfig := []
  deriving DecidableEq, Repr

structure OpsgenieConfig where
  apiKey : String
  url : Option String := none
  tags : List String := []
  template : TemplateConfig := []
  deriving DecidableEq, Repr

structure SesConfig where
  region : Option String := none
  configurationSet : Option String := none
  deriving DecidableEq, Repr

inductive SmtpTls where
  | starttls
  | tls
  | none
  deriving DecidableEq, Repr

structure SmtpConfig where
  host : String
  port : Option UInt16 := none
  username : Option String := none
  password : Option String := none
  tls : SmtpTls := .starttls
  deriving DecidableEq, Repr

structure EmailConfig where
  /-- The field `from`. -/
  sender : String
  /-- The field `to`. -/
  recipients : List String
  cc : List String := []
  subjectPrefix : Option String := none
  smtp : Option SmtpConfig := none
  ses : Option SesConfig := none
  template : TemplateConfig := []
  deriving DecidableEq, Repr

structure ProvidersConfig where
  console : Option ConsoleConfig := none
  slack : Option SlackConfig := none
  webhook : Option WebhookConfig := none
  pagerduty : Option PagerDutyConfig := none
  teams : Option TeamsConfig := none
  opsgenie : Option OpsgenieConfig := none
  email : Option EmailConfig := none
  deriving DecidableEq, Repr

inductive SinkKind where
  | sqlite
  deriving DecidableEq, Repr

structure StorageConfig where
  sink : SinkKind := .sqlite
  path : String := "./signals.db"
  deriving DecidableEq, Repr

/-- One file of a layered config: what it sets itself, plus the files it
builds on. -/
structure Layer where
  extending : List String := []
  providers : ProvidersConfig := {}
  routes : List Route := []
  storage : Option StorageConfig := none
  deriving DecidableEq, Repr

structure Config where
  providers : ProvidersConfig := {}
  routes : List Route := []
  storage : StorageConfig := {}
  deriving DecidableEq, Repr

/-- The file a merged route came from and its index within that file. -/
abbrev Origin := Option String × Nat

def configErr (message : String) : SignalError :=
  .config message

/-! ## Provider checks -/

def SlackConfig.check (slack : SlackConfig) : Except SignalError Unit :=
  match slack.webhookUrl, slack.botToken, slack.channel with
  | some _, none, none => .ok ()
  | none, some _, some _ => .ok ()
  | some _, some _, _ =>
      .error (configErr
        "providers.slack: set webhook_url or bot_token, not both")
  | none, some _, none =>
      .error (configErr
        "providers.slack.bot_token needs a channel to post to")
  | some _, none, some _ =>
      .error (configErr
        ("providers.slack.channel is used only with bot_token; " ++
          "a webhook posts to its own channel"))
  | none, none, _ =>
      .error (configErr "providers.slack needs webhook_url or bot_token")

/-- How an email provider sends. -/
inductive EmailTransport where
  | smtp (config : SmtpConfig)
  | ses (config : SesConfig)

namespace EmailConfig

def transport (email : EmailConfig) : Option EmailTransport :=
  match email.smtp, email.ses with
  | some smtp, none => some (.smtp smtp)
  | none, some ses => some (.ses ses)
  | _, _ => none

/-- The text of `external::missing_support`. -/
def missingSupport (what cloud : String) : String :=
  what ++ " needs the " ++ cloud ++ " add-on: pip install 'opssignal[" ++
    cloud ++ "]' for Python, or a CLI or C library built with " ++
    "`--features " ++ cloud ++ "`"

def checkAddress (libraries : Libraries) (address : String) :
    Except SignalError Unit :=
  match libraries.mailbox address with
  | .ok () => .ok ()
  | .error e =>
      .error (configErr
        ("providers.email: invalid address " ++ libraries.quote address ++
          ": " ++ e))

def checkTransport (libraries : Libraries) (email : EmailConfig) :
    Except SignalError Unit :=
  match email.transport with
  | some (.smtp smtp) =>
      refuseIf (smtp.username.isSome != smtp.password.isSome)
        (configErr
          ("providers.email.smtp needs both username and password, " ++
            "or neither"))
  | some (.ses _) =>
      refuseIf (!libraries.cloudSupported "aws")
        (configErr
          ("providers.email: " ++
            missingSupport "email over Amazon SES" "aws"))
  | none =>
      .error (configErr "providers.email needs exactly one of smtp and ses")

/-- Addresses are checked at load time, since a bad one would fail every
send. -/
def check (libraries : Libraries) (email : EmailConfig) :
    Except SignalError Unit :=
  allOf
    [refuseIf email.recipients.isEmpty
        (configErr "providers.email.to lists no recipients"),
      checkEach (checkAddress libraries)
        (email.sender :: email.recipients ++ email.cc),
      checkTransport libraries email]

end EmailConfig

/-! ## Template checks -/

/-- Signal fields a template can use. -/
def signalVariables : List String :=
  ["id", "source", "service", "component", "event_type", "severity",
    "title", "message", "environment", "team", "run_id",
    "correlation_id", "trace_id", "log_url", "metadata", "timestamp",
    "dedup_key", "action"]

/-- The parts each provider lets a template replace, and the variables it
adds to the signal fields. -/
def providerSpec : String → List String × List String
  | "console" => (["text"], [])
  | "slack" => (["text"], ["emoji"])
  | "webhook" => (["body"], [])
  | "pagerduty" => (["summary"], [])
  | "teams" => (["title", "text"], [])
  | "opsgenie" => (["message", "description"], [])
  | "email" => (["subject", "body"], [])
  | _ => ([], [])

/-- `Templates::compile` for one part. -/
def checkTemplate
    (libraries : Libraries) (provider : String)
    (entry : String × String) : Except SignalError Unit :=
  let place := "providers." ++ provider ++ ".template." ++ entry.1
  let parts := (providerSpec provider).1
  let known := signalVariables ++ (providerSpec provider).2
  if !parts.contains entry.1 then
    .error (configErr
      (place ++ ": " ++ provider ++ " has no part '" ++ entry.1 ++
        "' (templatable: " ++ String.intercalate ", " parts ++ ")"))
  else
    match libraries.undeclared entry.2 with
    | .error e => .error (configErr (place ++ ": " ++ e))
    | .ok names =>
        let unknown :=
          names.filter fun name =>
            !known.contains name && !libraries.isGlobal name
        refuseIf (!unknown.isEmpty)
          (configErr
            (place ++ ": unknown variable " ++
              String.intercalate ", "
                (unknown.mergeSort fun left right => left ≤ right) ++
              " (available: " ++ String.intercalate ", " known ++ ")"))

def checkTemplateMap
    (libraries : Libraries) (provider : String)
    (template : Option TemplateConfig) : Except SignalError Unit :=
  checkEach (checkTemplate libraries provider) (template.getD [])

namespace ProvidersConfig

/-- A later layer's entry replaces an earlier one's. -/
def overlay (later earlier : ProvidersConfig) : ProvidersConfig where
  console := later.console.or earlier.console
  slack := later.slack.or earlier.slack
  webhook := later.webhook.or earlier.webhook
  pagerduty := later.pagerduty.or earlier.pagerduty
  teams := later.teams.or earlier.teams
  opsgenie := later.opsgenie.or earlier.opsgenie
  email := later.email.or earlier.email

/-- Compiles every provider's templates once. -/
def checkTemplates
    (libraries : Libraries) (providers : ProvidersConfig) :
    Except SignalError Unit :=
  allOf
    [checkTemplateMap libraries "console"
        (providers.console.map (·.template)),
      checkTemplateMap libraries "slack"
        (providers.slack.map (·.template)),
      checkTemplateMap libraries "webhook"
        (providers.webhook.map (·.template)),
      checkTemplateMap libraries "pagerduty"
        (providers.pagerduty.map (·.template)),
      checkTemplateMap libraries "teams"
        (providers.teams.map (·.template)),
      checkTemplateMap libraries "opsgenie"
        (providers.opsgenie.map (·.template)),
      checkTemplateMap libraries "email"
        (providers.email.map (·.template))]

end ProvidersConfig

/-! ## Route checks -/

/-- Whether `field` can be used in `group_by`. -/
def isGroupField (field : String) : Bool :=
  groupFields.contains field ||
    match stripPrefix "metadata.".toList field.toList with
    | none => false
    | some path =>
        !path.isEmpty && (splitOn '.' path).all fun part => !part.isEmpty

/-- Where a route stands, for error messages. -/
def Origin.display (origin : Origin) : String :=
  match origin.1 with
  | some file => file ++ ": routes[" ++ toString origin.2 ++ "]"
  | none => "routes[" ++ toString origin.2 ++ "]"

def checkGroupField (place field : String) : Except SignalError Unit :=
  refuseIf (!isGroupField field)
    (configErr
      (place ++ ": cannot group_by '" ++ field ++ "' (use one of " ++
        String.intercalate ", " groupFields ++ ", or metadata.<key>)"))

def checkProviderName (known : List String) (place name : String) :
    Except SignalError Unit :=
  refuseIf (!known.contains name)
    (configErr
      (place ++ " references provider '" ++ name ++
        "', which is not configured under providers (configured: " ++
        String.intercalate ", " known ++ ")"))

/-- The checks of one merged route, in the order they are made. -/
def checkRoute (known : List String) (entry : Route × Origin) :
    Except SignalError Unit :=
  let route := entry.1
  let place := Origin.display entry.2
  allOf
    [refuseIf route.providers.isEmpty
        (configErr (place ++ " lists no providers")),
      refuseIf (route.dedup.any Window.isZero)
        (configErr (place ++ ": dedup must be longer than 0s")),
      refuseIf
        (route.rateLimit.any fun limit =>
          limit.max == 0 || limit.per.isZero)
        (configErr (place ++ ": rate_limit needs max and per above 0")),
      refuseIf (route.groupWait.any Window.isZero)
        (configErr (place ++ ": group_wait must be longer than 0s")),
      checkEach (checkGroupField place) (route.groupBy.getD []),
      checkEach (checkProviderName known place) route.providers]

namespace Config

def routing (config : Config) : RoutingConfig :=
  ⟨config.routes⟩

/-- Names of the providers this config makes available.  `console` is
always present because routing falls back to it. -/
def providerNames (config : Config) : List String :=
  let p := config.providers
  ["console"] ++
    (if p.slack.isSome then ["slack"] else []) ++
    (if p.webhook.isSome then ["webhook"] else []) ++
    (if p.pagerduty.isSome then ["pagerduty"] else []) ++
    (if p.teams.isSome then ["teams"] else []) ++
    (if p.opsgenie.isSome then ["opsgenie"] else []) ++
    (if p.email.isSome then ["email"] else [])

def checkRoutes (config : Config) (origins : List Origin) :
    Except SignalError Unit :=
  checkEach (checkRoute config.providerNames) (config.routes.zip origins)

/-- One turn of the merge: the config so far and the origin of each of
its routes. -/
def mergeLayer
    (merged : Config × List Origin) (named : Option String × Layer) :
    Config × List Origin :=
  let layer := named.2
  ({ providers := layer.providers.overlay merged.1.providers
     routes := layer.routes ++ merged.1.routes
     storage := layer.storage.getD merged.1.storage },
    (List.range layer.routes.length).map (fun i => (named.1, i)) ++
      merged.2)

/-- Merges a chain of layers, lowest priority first. -/
def mergeLayers (layers : List (Option String × Layer)) :
    Config × List Origin :=
  layers.foldl mergeLayer ({}, [])

/-- Merges a chain of layers and checks the result. -/
def fromLayers
    (libraries : Libraries) (layers : List (Option String × Layer)) :
    Except SignalError Config :=
  let merged := mergeLayers layers
  let config := merged.1
  let checked :=
    allOf
      [match config.providers.email with
        | some email => email.check libraries
        | none => .ok (),
        match config.providers.slack with
        | some slack => slack.check
        | none => .ok (),
        config.providers.checkTemplates libraries,
        config.checkRoutes merged.2]
  match checked with
  | .ok () => .ok config
  | .error e => .error e

/-! ## What acceptance means -/

/-- The origins stay aligned with the routes through every merge. -/
theorem length_origins_mergeLayers
    (layers : List (Option String × Layer)) :
    (mergeLayers layers).2.length = (mergeLayers layers).1.routes.length := by
  have aligned : ∀ (layers : List (Option String × Layer))
      (merged : Config × List Origin),
      merged.2.length = merged.1.routes.length →
        (layers.foldl mergeLayer merged).2.length =
          (layers.foldl mergeLayer merged).1.routes.length := by
    intro layers
    induction layers with
    | nil =>
        intro merged same
        exact same
    | cons layer rest inductionHypothesis =>
        intro merged same
        apply inductionHypothesis
        simp [mergeLayer, same]
  exact aligned layers ({}, []) rfl

/-- A config that was accepted is the merge, and its routes were checked
against aligned origins. -/
theorem checkRoutes_of_fromLayers
    {libraries : Libraries} {layers : List (Option String × Layer)}
    {config : Config}
    (accepted : fromLayers libraries layers = .ok config) :
    ∃ origins, origins.length = config.routes.length ∧
      config.checkRoutes origins = .ok () := by
  unfold fromLayers at accepted
  dsimp only at accepted
  split at accepted
  · rename_i passed
    cases accepted
    refine ⟨(mergeLayers layers).2, length_origins_mergeLayers layers, ?_⟩
    exact allOf_eq_ok.mp passed _ (by simp)
  · cases accepted

/-- Every route of a checked config passed every check. -/
theorem checkRoute_of_checkRoutes
    {config : Config} {origins : List Origin}
    (aligned : origins.length = config.routes.length)
    (checked : config.checkRoutes origins = .ok ())
    {route : Route} (member : route ∈ config.routes) :
    ∃ origin, checkRoute config.providerNames (route, origin) = .ok () := by
  obtain ⟨index, inside, rfl⟩ := List.mem_iff_getElem.mp member
  have insideOrigins : index < origins.length := by
    omega
  refine ⟨origins[index], checkEach_eq_ok.mp checked _ ?_⟩
  rw [List.mem_iff_getElem]
  exact ⟨index, by rw [List.length_zip]; omega, by simp⟩

/-- A checked config lists at least one provider on every route. -/
theorem providers_ne_nil_of_checkRoutes
    {config : Config} {origins : List Origin}
    (aligned : origins.length = config.routes.length)
    (checked : config.checkRoutes origins = .ok ())
    {route : Route} (member : route ∈ config.routes) :
    route.providers ≠ [] := by
  obtain ⟨origin, passed⟩ :=
    checkRoute_of_checkRoutes aligned checked member
  have nonempty :=
    refuseIf_eq_ok.mp (allOf_eq_ok.mp passed _ List.mem_cons_self)
  simpa using nonempty

/-- A checked config names only providers it configures. -/
theorem mem_providerNames_of_checkRoutes
    {config : Config} {origins : List Origin}
    (aligned : origins.length = config.routes.length)
    (checked : config.checkRoutes origins = .ok ())
    {route : Route} (member : route ∈ config.routes)
    {name : String} (listed : name ∈ route.providers) :
    name ∈ config.providerNames := by
  obtain ⟨origin, passed⟩ :=
    checkRoute_of_checkRoutes aligned checked member
  have named :
      checkEach
          (checkProviderName config.providerNames (Origin.display origin))
          route.providers = .ok () :=
    allOf_eq_ok.mp passed _ (by simp)
  have known := refuseIf_eq_ok.mp (checkEach_eq_ok.mp named name listed)
  simpa using known

end Config

end OpsSignal
