import OpsSignal.Group
import OpsSignal.Lifecycle

/-!
# The client

`notify_async` and `send`, the group senders and the reloads of one
client.  Calls, group senders and timers run concurrently; a step of the
client is what one of them does between two points where the others may
run.  The throttle table, the alert book and the groups are shared; each
of their operations is one step.
-/

namespace OpsSignal

open Interleaving

/-- What others can see of a client. -/
inductive Effect where
  | recorded (signal : Signal)
  | delivering (signal : Signal) (event : ChainEvent)
  | completed (signal : Signal) (result : DeliveryResult)

/-- What the surroundings supply to a step: the clock in Unix
milliseconds, the id and the time a new signal is stamped with, and what
the providers will answer. -/
structure Moment where
  now : Int
  id : String
  timestamp : Int
  answers : Answers

/-! ## Calls -/

inductive CallStage where
  | preparing
  | planning
  | recording
  | unsent
  | holding
  | delivering
  | settling
  | noting
  | completing
  | done
  deriving DecidableEq, Repr

/-- A signal on its way through `notify_async`, or through `send`, which
waits for the outcome up to a timeout. -/
structure Call where
  waits : Bool
  pipeline : Pipeline
  input : SignalInput
  stage : CallStage := .preparing
  signal : Signal
  answers : Answers
  now : Int := 0
  /-- The routes that are still to be asked. -/
  routes : List (Route × Nat) := []
  loop : PlanState := {}
  plan : DeliveryPlan := ⟨[], [], []⟩
  admission : Admission := {}
  priorRefs : List (String × String) := []
  /-- The grouped routes whose group is still to be joined. -/
  holds : List (Nat × String) := []
  system : System ChainTask ChainEvent := ⟨[], []⟩
  result : DeliveryResult := summarize ⟨[], [], []⟩ [] none

/-- Where a delivery's chains look up the alert they act on. -/
def refOf (refs : List (String × String)) (name : String) : Option String :=
  refs.lookup name

/-- How the tasks of a delivery move. -/
abbrev Call.program (call : Call) : Program ChainTask ChainEvent :=
  deliverChain call.pipeline.providers (refOf call.priorRefs) call.answers

/-! ## Group senders -/

inductive SenderStage where
  | opening
  | gating
  | starting
  | delivering
  | settling
  | settlingMembers
  | completing
  | completingMembers
  | done
  deriving DecidableEq, Repr

/-- A closed group on its way out. -/
structure Sender where
  closed : Closed
  stage : SenderStage := .opening
  signal : Signal
  answers : Answers := fun _ _ => .ok none
  providers : Registry := []
  plan : DeliveryPlan := ⟨[], [], []⟩
  admission : Admission := {}
  /-- The members that the loop at this stage still has to visit. -/
  members : List Member := []
  system : System ChainTask ChainEvent := ⟨[], []⟩
  result : DeliveryResult := summarize ⟨[], [], []⟩ [] none

abbrev Sender.program (sender : Sender) : Program ChainTask ChainEvent :=
  deliverChain sender.providers (fun _ => none) sender.answers

def Sender.start (closed : Closed) : Sender where
  closed := closed
  signal := closed.first

/-! ## What they share -/

structure Stores where
  table : Table := []
  book : AlertBook := .empty
  groups : Groups := {}
  /-- The timers of the groups that were opened. -/
  timers : List (String × Nat) := []
  senders : List Sender := []
  trace : List Effect := []

namespace Stores

/-- `settle`: a signal that reached no provider must not count as sent. -/
def settle
    (admission : Admission) (result : DeliveryResult) (stores : Stores) :
    Stores :=
  if result.status = .failed then
    { stores with table := release admission stores.table }
  else
    stores

def emit (effects : List Effect) (stores : Stores) : Stores :=
  { stores with trace := stores.trace ++ effects }

/-- `spawn_group`. -/
def spawn (closed : List Closed) (stores : Stores) : Stores :=
  { stores with senders := stores.senders ++ closed.map Sender.start }

/-- One turn of `hold`: joins a group of the route, and starts the timer
of a group that was opened or sends one that is full. -/
def hold
    (platform : Platform) (route : Route) (member : Member)
    (stores : Stores) : Stores :=
  let result := stores.groups.add platform route member
  let held := { stores with groups := result.1 }
  match result.2 with
  | .joined => held
  | .full closed => held.spawn [closed]
  | .opened key seq _ => { held with timers := held.timers ++ [(key, seq)] }

end Stores

/-! ## Steps of a call -/

namespace Call

/-- `prepare`: stamps the signal.  A trigger goes on to ask the routes; an
`acknowledge` or `resolve` is planned from the alert book. -/
def prepare
    (platform : Platform) (moment : Moment) (book : AlertBook)
    (call : Call) : Call :=
  if call.input.action.isLifecycle then
    let opened := book.openAlerts (call.input.effectiveDedupKey platform)
    let input := call.input.fillLifecycleDefaults
      (opened.head?.map OpenAlert.title)
    let signal :=
      Signal.fromInput platform moment.id moment.timestamp input
    { call with
      stage := .recording
      signal := signal
      answers := moment.answers
      plan := lifecyclePlan call.pipeline signal opened
      priorRefs := OpsSignal.priorRefs opened }
  else
    { call with
      stage := .planning
      signal :=
        Signal.fromInput platform moment.id moment.timestamp call.input
      answers := moment.answers
      now := moment.now
      routes := call.pipeline.routing.routes.zipIdx }

/-- One turn of `plan_with`, or its end. -/
def plan_
    (platform : Platform) (call : Call) (stores : Stores) : Call × Stores :=
  match call.routes with
  | [] => ({ call with stage := .recording, plan := call.loop.finish }, stores)
  | entry :: rest =>
      let result := planRoute call.signal
        (throttleGate platform call.signal call.now)
        (call.loop, (stores.table, call.admission)) entry
      ({ call with
          routes := rest
          loop := result.1
          admission := result.2.2 },
        { stores with table := result.2.1 })

/-- The signal is stored before anything is sent. -/
def record (call : Call) (stores : Stores) : Call × Stores :=
  ({ call with
      stage := if call.plan.targets.isEmpty then .unsent else .holding
      holds := call.plan.grouped },
    stores.emit [.recorded call.signal])

/-- `settle_unsent`, up to the groups. -/
def settleUnsent (call : Call) (stores : Stores) : Call × Stores :=
  let result := summarize call.plan [] none
  ({ call with stage := .holding, result := result },
    stores.emit [.completed call.signal result])

/-- One turn of `hold`, or its end. -/
def hold
    (platform : Platform) (call : Call) (stores : Stores) : Call × Stores :=
  match call.holds with
  | [] =>
      if call.plan.targets.isEmpty then ({ call with stage := .done }, stores)
      else
        ({ call with
            stage := .delivering
            system := deliverStart call.plan },
          stores)
  | (index, _) :: rest =>
      match call.pipeline.routing.routes[index]? with
      | none => ({ call with holds := rest }, stores)
      | some route =>
          let parts := call.admission.splitOff platform route
          let member : Member :=
            ⟨call.signal, parts.2, call.plan.targets.isEmpty⟩
          ({ call with holds := rest, admission := parts.1 },
            stores.hold platform route member)

/-- The end of a delivery, or of the wait for it. -/
def finish (cutOff : Option String) (call : Call) : Call :=
  { call with
    stage := .settling
    result := deliveryResult call.plan call.system cutOff }

/-- The references the providers returned. -/
def refs (call : Call) : List (String × String) :=
  (Tracker.after (events call.system)).refs

/-- The next step of the call itself. -/
def next
    (platform : Platform) (moment : Moment) (call : Call)
    (stores : Stores) : Option (Call × Stores) :=
  match call.stage with
  | .preparing => some (call.prepare platform moment stores.book, stores)
  | .planning => some (call.plan_ platform stores)
  | .recording => some (call.record stores)
  | .unsent => some (call.settleUnsent stores)
  | .holding => some (call.hold platform stores)
  | .delivering =>
      if (call.system.tasks.all fun task => (call.program task).isNone) then
        some (call.finish none, stores)
      else
        none
  | .settling =>
      some ({ call with stage := .noting },
        stores.settle call.admission call.result)
  | .noting =>
      some ({ call with stage := .completing },
        { stores with
          book := stores.book.record call.signal call.result call.refs })
  | .completing =>
      some ({ call with stage := .done },
        stores.emit [.completed call.signal call.result])
  | .done => none

/-- A step of one of the call's targets. -/
def deliver (chain : Nat) (call : Call) (stores : Stores) :
    Option (Call × Stores) :=
  if call.stage = .delivering then
    (advance call.program call.system chain).map fun system =>
      ({ call with system := system },
        stores.emit ((system.log.drop call.system.log.length).map
          fun entry => .delivering call.signal entry.2))
  else
    none

/-- The timeout of `send` cuts the delivery off. -/
def cut (message : String) (call : Call) : Option Call :=
  if call.stage = .delivering ∧ call.waits then
    some (call.finish (some message))
  else
    none

end Call

/-! ## Steps of a group sender -/

namespace Sender

/-- The signal to send: the only member's, or a digest, which is stored
first. -/
def open_
    (platform : Platform) (moment : Moment) (sender : Sender)
    (stores : Stores) : Sender × Stores :=
  if sender.closed.single then
    ({ sender with stage := .gating, answers := moment.answers }, stores)
  else
    let digest :=
      sender.closed.digest platform moment.id moment.timestamp
    ({ sender with
        stage := .gating
        signal := digest
        answers := moment.answers },
      stores.emit [.recorded digest])

/-- The plan of a digest, from the answer of its gate. -/
def planOf (route : Route) : Except String Unit → DeliveryPlan
  | .ok () => ⟨route.targets, [], []⟩
  | .error reason => ⟨[], [route.suppressedLine reason], []⟩

/-- `admit_digest`. -/
def gate
    (platform : Platform) (moment : Moment) (sender : Sender)
    (stores : Stores) : Sender × Stores :=
  let result := (digestCheck platform sender.closed.route).run
    (throttleKey sender.signal) moment.now (stores.table, {})
  ({ sender with
      stage := .starting
      plan := planOf sender.closed.route result.1
      admission := result.2.2 },
    { stores with table := result.2.1 })

/-- The loop that settles the members, or its end. -/
def settleMembers (sender : Sender) (stores : Stores) : Sender × Stores :=
  match sender.members with
  | [] => ({ sender with stage := .completing }, stores)
  | member :: rest =>
      ({ sender with members := rest },
        stores.settle member.admission sender.result)

/-- The loop that completes the members, or its end. -/
def completeMembers (sender : Sender) (stores : Stores) : Sender × Stores :=
  match sender.members with
  | [] => ({ sender with stage := .done }, stores)
  | member :: rest =>
      ({ sender with members := rest },
        stores.emit [.completed member.signal sender.result])

/-- The next step of `GroupSender::send` itself. -/
def next
    (platform : Platform) (moment : Moment) (pipeline : Pipeline)
    (sender : Sender) (stores : Stores) : Option (Sender × Stores) :=
  match sender.stage with
  | .opening => some (sender.open_ platform moment stores)
  | .gating => some (sender.gate platform moment stores)
  | .starting =>
      some ({ sender with
          stage := .delivering
          providers := pipeline.providers
          system := deliverStart sender.plan },
        stores)
  | .delivering =>
      if (sender.system.tasks.all fun task =>
          (sender.program task).isNone) then
        some ({ sender with
            stage := .settling
            result := deliveryResult sender.plan sender.system none },
          stores)
      else
        none
  | .settling =>
      some ({ sender with
          stage := .settlingMembers
          members := sender.closed.members },
        stores.settle sender.admission sender.result)
  | .settlingMembers => some (sender.settleMembers stores)
  | .completing =>
      some ({ sender with
          stage := .completingMembers
          members := sender.closed.members.filter Member.ownsRow },
        if sender.closed.single then stores
        else stores.emit [.completed sender.signal sender.result])
  | .completingMembers => some (sender.completeMembers stores)
  | .done => none

/-- A step of one of the sender's targets. -/
def deliver (chain : Nat) (sender : Sender) (stores : Stores) :
    Option (Sender × Stores) :=
  if sender.stage = .delivering then
    (advance sender.program sender.system chain).map fun system =>
      ({ sender with system := system },
        stores.emit ((system.log.drop sender.system.log.length).map
          fun entry => .delivering sender.signal entry.2))
  else
    none

end Sender

/-! ## The client -/

structure Client where
  pipeline : Pipeline
  calls : List Call := []
  stores : Stores := {}

inductive ClientStep where
  /-- A validated input arrives. -/
  | start (input : SignalInput) (waits : Bool)
  | call (index : Nat) (moment : Moment)
  | deliver (index chain : Nat)
  | cut (index : Nat) (message : String)
  /-- A group's timer runs out. -/
  | timer (index : Nat)
  /-- Every open group is sent now. -/
  | flush
  | sender (index : Nat) (moment : Moment)
  | deliverGroup (index chain : Nat)
  | reload (pipeline : Pipeline)

namespace Client

/-- A call that has taken its pipeline and done nothing else. -/
def newCall
    (platform : Platform) (input : SignalInput) (waits : Bool)
    (client : Client) : Call where
  waits := waits
  pipeline := client.pipeline
  input := input
  signal := Signal.fromInput platform "" 0 input
  answers := fun _ _ => .ok none

/-- Puts what a call did back. -/
def putCall (index : Nat) (client : Client) (moved : Call × Stores) :
    Client :=
  { client with calls := client.calls.set index moved.1, stores := moved.2 }

/-- Puts what a sender did back.  It may have changed the stores, but not
the list of senders. -/
def putSender (index : Nat) (client : Client) (moved : Sender × Stores) :
    Client :=
  { client with
    stores :=
      { moved.2 with senders := moved.2.senders.set index moved.1 } }

/-- The closed group of a timer that runs out, if it is still open. -/
def elapse (index : Nat) (client : Client) : Option Client :=
  client.stores.timers[index]?.map fun timer =>
    let stores :=
      { client.stores with timers := client.stores.timers.eraseIdx index }
    match stores.groups.take timer.1 timer.2 with
    | none => { client with stores := stores }
    | some (groups, closed) =>
        { client with stores := { stores with groups }.spawn [closed] }

def flush (client : Client) : Client :=
  let result := client.stores.groups.takeAll
  { client with
    stores := { client.stores with groups := result.1 }.spawn result.2 }

def step (platform : Platform) (client : Client) :
    ClientStep → Option Client
  | .start input waits =>
      match validate input with
      | .error _ => none
      | .ok () =>
          some { client with
            calls := client.calls ++ [client.newCall platform input waits] }
  | .call index moment =>
      client.calls[index]?.bind fun call =>
        (call.next platform moment client.stores).map (client.putCall index)
  | .deliver index chain =>
      client.calls[index]?.bind fun call =>
        (call.deliver chain client.stores).map (client.putCall index)
  | .cut index message =>
      client.calls[index]?.bind fun call =>
        (call.cut message).map fun moved =>
          client.putCall index (moved, client.stores)
  | .timer index => client.elapse index
  | .flush => some client.flush
  | .sender index moment =>
      client.stores.senders[index]?.bind fun sender =>
        (sender.next platform moment client.pipeline client.stores).map
          (client.putSender index)
  | .deliverGroup index chain =>
      client.stores.senders[index]?.bind fun sender =>
        (sender.deliver chain client.stores).map (client.putSender index)
  | .reload pipeline => some { client with pipeline := pipeline }

end Client

end OpsSignal
