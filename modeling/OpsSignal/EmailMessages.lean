import OpsSignal.Providers

/-!
# Emails

The plain-text email of a signal: its subject, its body, and the headers
that mail clients thread by.  The mailbox parser, the builder of a message
and the transports are library code.
-/

namespace OpsSignal

/-- An email before it is encoded. -/
structure EmailMessage where
  sender : String
  recipients : List String
  cc : List String
  subject : String
  /-- `In-Reply-To` and `References`. -/
  thread : Option String
  body : String
  deriving DecidableEq, Repr

/-- The parts of the mail library that can fail. -/
structure Mailer where
  /-- `MessageBuilder::body`. -/
  build : EmailMessage → Except String Unit
  /-- The relay of a host. -/
  relay : SmtpConfig → Except String Unit

/-- `str::split_whitespace`. -/
def splitWhitespace (text : List Char) : List (List Char) :=
  (text.splitOnP isWhitespace).filter fun word => !word.isEmpty

/-- A text as one line. -/
def oneLine (text : String) : String :=
  String.intercalate " "
    ((splitWhitespace text.toList).map String.ofList)

structure EmailProvider where
  config : EmailConfig
  templates : Option Templates
  deriving DecidableEq, Repr

namespace EmailProvider

/-- `EmailProvider::new`. -/
def new (libraries : Libraries) (config : EmailConfig) : EmailProvider :=
  ⟨config, Templates.load libraries "email" config.template⟩

section Messages

variable (renderer : Renderer) (provider : EmailProvider)

/-- The prefix goes before a templated subject too.  A subject is one
line. -/
def subjectFor (signal : Signal) : String :=
  let subject :=
    match renderPart renderer provider.templates "subject" signal [] with
    | some text => oneLine text
    | none =>
        let tag :=
          match signal.action.label with
          | some label => label.toUpper
          | none => signal.severity.display.toUpper
        "[" ++ tag ++ "] " ++ signal.title
  match provider.config.subjectPrefix with
  | some leading =>
      if leading = "" then subject else leading ++ " " ++ subject
  | none => subject

/-- `{:<16}`. -/
def pad (text : String) : String :=
  text ++ String.ofList (List.replicate (16 - text.length) ' ')

def defaultBodyFor (signal : Signal) : String :=
  let message :=
    match signal.message with
    | some message => "\n" ++ message ++ "\n"
    | none => ""
  let fields :=
    [("Severity", signal.severity.display), ("Source", signal.source),
      ("Event", signal.eventType)] ++
      [("Environment", signal.environment), ("Service", signal.service),
        ("Component", signal.component), ("Team", signal.team),
        ("Run ID", signal.runId),
        ("Correlation ID", signal.correlationId),
        ("Trace ID", signal.traceId), ("Logs", signal.logUrl)].filterMap
          fun entry => entry.2.map fun value => (entry.1, value)
  let lines := fields.map fun field =>
    pad (field.1 ++ ":") ++ field.2 ++ "\n"
  let metadata :=
    if signal.metadata.hasFields then
      "\nMetadata:\n" ++ renderer.pretty signal.metadata ++ "\n"
    else
      ""
  signal.title ++ "\n" ++ message ++ "\n" ++ String.join lines ++
    metadata ++ "\n--\nSignal " ++ signal.id ++ " at " ++
      renderer.rfc3339 signal.timestamp ++ "\nSent by OpsSignal\n"

def bodyFor (signal : Signal) : String :=
  (renderPart renderer provider.templates "body" signal []).getD
    (defaultBodyFor renderer signal)

/-- `mailbox`. -/
def mailbox (address : String) : Except SignalError Unit :=
  match renderer.libraries.mailbox address with
  | .ok () => .ok ()
  | .error e =>
      .error (deliveryError ("invalid email address " ++
        renderer.libraries.quote address ++ ": " ++ e))

/-- A message id that every email for the same dedup key refers to. -/
def threadId (dedupKey : String) : String :=
  "<" ++ String.ofList
    ((renderer.platform.sha256 dedupKey).toList.take 32) ++ "@opssignal>"

def messageFor (mailer : Mailer) (signal : Signal) :
    Except SignalError EmailMessage :=
  match Checks.checkEach (mailbox renderer)
      (provider.config.sender :: provider.config.recipients ++
        provider.config.cc) with
  | .error e => .error e
  | .ok () =>
      let message : EmailMessage :=
        { sender := provider.config.sender
          recipients := provider.config.recipients
          cc := provider.config.cc
          subject := provider.subjectFor renderer signal
          thread := signal.dedupKey.map (threadId renderer)
          body := provider.bodyFor renderer signal }
      match mailer.build message with
      | .ok () => .ok message
      | .error e =>
          .error (deliveryError ("cannot build the email: " ++ e))

/-- What goes to which transport. -/
def outgoing (mailer : Mailer) (signal : Signal) :
    Except SignalError (EmailTransport × EmailMessage) :=
  match provider.config.transport with
  | some (.smtp smtp) =>
      match provider.messageFor renderer mailer signal with
      | .error e => .error e
      | .ok message =>
          match mailer.relay smtp with
          | .ok () => .ok (.smtp smtp, message)
          | .error e => .error (deliveryError ("smtp: " ++ e))
  | some (.ses ses) =>
      (provider.messageFor renderer mailer signal).map fun message =>
        (.ses ses, message)
  | none =>
      .error (deliveryError "email needs exactly one of smtp and ses")

end Messages

end EmailProvider

end OpsSignal
