import OpsSignal.Client
import OpsSignal.NotifyAndSend

/-!
# A client whose sink fails

Every call of the sink may fail.  The steps of the client are written out
again around these calls, with what each of them does about the error.
Only `send` hands one to its caller: that of the last `complete`.
-/

namespace OpsSignal

open Interleaving

/-- A call of the trait `SignalSink`. -/
inductive SinkCall where
  | record (signal : Signal)
  | providerOutcome (signal : Signal) (outcome : ProviderOutcome)
  | complete (signal : Signal) (result : DeliveryResult)

/-- What a call that does not fail writes. -/
def SinkCall.effect : SinkCall → Effect
  | .record signal => .recorded signal
  | .providerOutcome signal outcome => .delivering signal (.reported outcome)
  | .complete signal result => .completed signal result

/-- Which calls fail, by the calls made before. -/
abbrev Failures : Type :=
  List SinkCall → SinkCall → Option SignalError

/-- The stores, and how the sink was called so far. -/
structure Port where
  stores : Stores
  asked : List SinkCall := []

/-! ## Calls of the sink -/

namespace Port

variable (failures : Failures)

/-- One call of the sink.  A call that fails writes nothing. -/
def ask (call : SinkCall) (port : Port) : Except SignalError Unit × Port :=
  match failures port.asked call with
  | some error =>
      (.error error, { port with asked := port.asked ++ [call] })
  | none =>
      (.ok (),
        { stores := port.stores.emit [call.effect]
          asked := port.asked ++ [call] })

/-- An error of the sink that is logged, and no more. -/
def logged : Except SignalError Unit × Port → Port
  | (.error _, port) => port
  | (.ok (), port) => port

/-- `record`: a sink that can't record must not stop the alert. -/
def record (signal : Signal) (port : Port) : Port :=
  logged (port.ask failures (.record signal))

/-- What `report` of the tracker does with the sink. -/
def report
    (signal : Signal) (outcome : ProviderOutcome) (port : Port) : Port :=
  logged (port.ask failures (.providerOutcome signal outcome))

/-- A `complete` whose error is logged. -/
def complete
    (signal : Signal) (result : DeliveryResult) (port : Port) : Port :=
  logged (port.ask failures (.complete signal result))

/-- What a target did, in order. -/
def deliver
    (signal : Signal) (events : List ChainEvent) (port : Port) : Port :=
  events.foldl
    (fun port event =>
      match event with
      | .reported outcome => port.report failures signal outcome
      | other =>
          { port with stores := port.stores.emit [.delivering signal other] })
    port

/-- A step that does not call the sink. -/
def quietly {Party : Type} (port : Port) (moved : Party × Stores) :
    Party × Port :=
  (moved.1, { port with stores := moved.2 })

end Port

/-! ## Steps of a call -/

/-- What `send` returns at a step, if it returns there. -/
abbrev Returned : Type :=
  Option (Except SignalError SendReport)

namespace Call

variable (failures : Failures)

def report (call : Call) : SendReport :=
  ⟨call.signal.id, call.signal.dedupKey, call.result⟩

/-- What the caller of `send` is given. -/
def handBack (answer : Except SignalError SendReport) (call : Call) :
    Returned :=
  if call.waits then some answer else none

def askRecord (call : Call) (port : Port) : Call × Port :=
  ({ call with
      stage := if call.plan.targets.isEmpty then .unsent else .holding
      holds := call.plan.grouped },
    port.record failures call.signal)

def askUnsent (call : Call) (port : Port) : Call × Port :=
  let result := summarize call.plan [] none
  ({ call with stage := .holding, result := result },
    port.complete failures call.signal result)

/-- The last `complete` of a signal with targets: `send` returns its
error, the background task of `notify_async` logs it. -/
def askComplete (call : Call) (port : Port) : (Call × Port) × Returned :=
  let ended := { call with stage := .done }
  if call.waits then
    match port.ask failures (.complete call.signal call.result) with
    | (.error error, asked) => ((ended, asked), some (.error error))
    | (.ok (), asked) => ((ended, asked), some (.ok call.report))
  else
    ((ended, port.complete failures call.signal call.result), none)

def askNext
    (platform : Platform) (moment : Moment) (call : Call) (port : Port) :
    Option ((Call × Port) × Returned) :=
  match call.stage with
  | .recording => some (call.askRecord failures port, none)
  | .unsent => some (call.askUnsent failures port, none)
  | .completing => some (call.askComplete failures port)
  | .holding =>
      let returned :=
        if call.holds.isEmpty && call.plan.targets.isEmpty then
          call.handBack (.ok call.report)
        else none
      some (port.quietly (call.hold platform port.stores), returned)
  | _ =>
      (call.next platform moment port.stores).map fun moved =>
        (port.quietly moved, none)

def askDeliver (chain : Nat) (call : Call) (port : Port) :
    Option (Call × Port) :=
  if call.stage = .delivering then
    (advance call.program call.system chain).map fun system =>
      ({ call with system := system },
        port.deliver failures call.signal
          ((system.log.drop call.system.log.length).map Prod.snd))
  else
    none

end Call

/-! ## Steps of a group sender -/

namespace Sender

variable (failures : Failures)

def askOpen
    (platform : Platform) (moment : Moment) (sender : Sender)
    (port : Port) : Sender × Port :=
  if sender.closed.single then
    ({ sender with stage := .gating, answers := moment.answers }, port)
  else
    let digest :=
      sender.closed.digest platform moment.id moment.timestamp
    ({ sender with
        stage := .gating
        signal := digest
        answers := moment.answers },
      port.record failures digest)

def askComplete (sender : Sender) (port : Port) : Sender × Port :=
  ({ sender with
      stage := .completingMembers
      members := sender.closed.members.filter Member.ownsRow },
    if sender.closed.single then port
    else port.complete failures sender.signal sender.result)

def askCompleteMembers (sender : Sender) (port : Port) : Sender × Port :=
  match sender.members with
  | [] => ({ sender with stage := .done }, port)
  | member :: rest =>
      ({ sender with members := rest },
        port.complete failures member.signal sender.result)

def askNext
    (platform : Platform) (moment : Moment) (pipeline : Pipeline)
    (sender : Sender) (port : Port) : Option (Sender × Port) :=
  match sender.stage with
  | .opening => some (sender.askOpen failures platform moment port)
  | .completing => some (sender.askComplete failures port)
  | .completingMembers => some (sender.askCompleteMembers failures port)
  | _ =>
      (sender.next platform moment pipeline port.stores).map port.quietly

def askDeliver (chain : Nat) (sender : Sender) (port : Port) :
    Option (Sender × Port) :=
  if sender.stage = .delivering then
    (advance sender.program sender.system chain).map fun system =>
      ({ sender with system := system },
        port.deliver failures sender.signal
          ((system.log.drop sender.system.log.length).map Prod.snd))
  else
    none

end Sender

/-! ## The client -/

/-- A client, the calls of its sink, and what every `send` returned. -/
structure FailingClient where
  client : Client
  asked : List SinkCall := []
  returned : List (Nat × Except SignalError SendReport) := []

namespace FailingClient

variable (failures : Failures)

def port (failing : FailingClient) : Port :=
  ⟨failing.client.stores, failing.asked⟩

def putCall (index : Nat) (failing : FailingClient)
    (moved : (Call × Port) × Returned) : FailingClient where
  client := failing.client.putCall index (moved.1.1, moved.1.2.stores)
  asked := moved.1.2.asked
  returned :=
    failing.returned ++ (moved.2.map fun answer => (index, answer)).toList

def putSender (index : Nat) (failing : FailingClient) (moved : Sender × Port) :
    FailingClient :=
  { failing with
    client := failing.client.putSender index (moved.1, moved.2.stores)
    asked := moved.2.asked }

def step (platform : Platform) (failing : FailingClient) :
    ClientStep → Option FailingClient
  | .call index moment =>
      failing.client.calls[index]?.bind fun call =>
        (call.askNext failures platform moment failing.port).map
          (failing.putCall index)
  | .deliver index chain =>
      failing.client.calls[index]?.bind fun call =>
        (call.askDeliver failures chain failing.port).map fun moved =>
          failing.putCall index (moved, none)
  | .sender index moment =>
      failing.client.stores.senders[index]?.bind fun sender =>
        (sender.askNext failures platform moment failing.client.pipeline
          failing.port).map (failing.putSender index)
  | .deliverGroup index chain =>
      failing.client.stores.senders[index]?.bind fun sender =>
        (sender.askDeliver failures chain failing.port).map
          (failing.putSender index)
  | label =>
      (failing.client.step platform label).map fun client =>
        { failing with client := client }

/-- Nothing has been sent through the client yet. -/
def opened (pipeline : Pipeline) (stores : Stores) : FailingClient where
  client := { pipeline := pipeline, stores := stores }

end FailingClient

end OpsSignal
