import OpsSignal.ClientRuns
import OpsSignal.FailingSink

/-!
# A failing sink does not show

What a client does is the same whichever calls of its sink fail: the
writes that failed are all that is missing.  The proof forgets what was
written; after that, every step is a step of the client whose sink works.
-/

namespace OpsSignal

open Interleaving LabelledRuns

variable {platform : Platform} {moment : Moment} {failures : Failures}

/-! ## Without what was written -/

/-- A call of the sink wrote it. -/
def Effect.written : Effect → Bool
  | .recorded _ => true
  | .delivering _ (.reported _) => true
  | .delivering _ _ => false
  | .completed _ _ => true

theorem SinkCall.written_effect (call : SinkCall) :
    call.effect.written = true := by
  cases call with
  | record | providerOutcome | complete => rfl

namespace Stores

/-- The stores without what was written to the sink. -/
def unwritten (stores : Stores) : Stores :=
  { stores with trace := stores.trace.filter fun effect => !effect.written }

theorem unwritten_emit (effects : List Effect) (stores : Stores) :
    (stores.unwritten.emit effects).unwritten =
      (stores.emit effects).unwritten := by
  simp [unwritten, emit, List.filter_append, List.filter_filter]

theorem unwritten_emit_written
    {effects : List Effect}
    (written : ∀ effect ∈ effects, effect.written = true)
    (stores : Stores) :
    (stores.emit effects).unwritten = stores.unwritten := by
  have nothing : (effects.filter fun effect => !effect.written) = [] := by
    apply List.filter_eq_nil_iff.mpr
    intro effect member
    simp [written effect member]
  simp [unwritten, emit, List.filter_append, nothing]

@[simp]
theorem unwritten_emit_recorded (signal : Signal) (stores : Stores) :
    (stores.emit [.recorded signal]).unwritten = stores.unwritten :=
  unwritten_emit_written (by simp [Effect.written]) stores

@[simp]
theorem unwritten_emit_completed
    (signal : Signal) (result : DeliveryResult) (stores : Stores) :
    (stores.emit [.completed signal result]).unwritten = stores.unwritten :=
  unwritten_emit_written (by simp [Effect.written]) stores

@[simp]
theorem unwritten_unwritten (stores : Stores) :
    stores.unwritten.unwritten = stores.unwritten := by
  simp [unwritten, List.filter_filter]

@[simp]
theorem unwritten_settle
    (admission : Admission) (result : DeliveryResult) (stores : Stores) :
    stores.unwritten.settle admission result =
      (stores.settle admission result).unwritten := by
  rw [settle_eq, settle_eq]
  rfl

@[simp]
theorem unwritten_hold
    (platform : Platform) (route : Route) (member : Member)
    (stores : Stores) :
    stores.unwritten.hold platform route member =
      (stores.hold platform route member).unwritten := by
  rw [hold, hold]
  dsimp only [unwritten]
  cases (stores.groups.add platform route member).2 with
  | joined => rfl
  | full closed => rfl
  | opened key seq wait => rfl

end Stores

/-- What a party of the client did, without what it wrote. -/
def forgetWritten {Party : Type} (moved : Party × Stores) : Party × Stores :=
  (moved.1, moved.2.unwritten)

namespace Port

variable {port : Port}

theorem unwritten_ask (call : SinkCall) :
    (port.ask failures call).2.stores.unwritten = port.stores.unwritten := by
  rw [ask]
  cases failures port.asked call with
  | some error => rfl
  | none =>
      apply Stores.unwritten_emit_written
      intro effect member
      rw [List.mem_singleton.mp member]
      exact call.written_effect

theorem logged_eq (asked : Except SignalError Unit × Port) :
    logged asked = asked.2 := by
  obtain ⟨error | _, port⟩ := asked
  · rfl
  · rfl

@[simp]
theorem unwritten_record (signal : Signal) :
    (port.record failures signal).stores.unwritten =
      port.stores.unwritten := by
  rw [record, logged_eq, unwritten_ask]

@[simp]
theorem unwritten_report (signal : Signal) (outcome : ProviderOutcome) :
    (port.report failures signal outcome).stores.unwritten =
      port.stores.unwritten := by
  rw [report, logged_eq, unwritten_ask]

@[simp]
theorem unwritten_complete (signal : Signal) (result : DeliveryResult) :
    (port.complete failures signal result).stores.unwritten =
      port.stores.unwritten := by
  rw [complete, logged_eq, unwritten_ask]

/-- Only the reports of a delivery may be missing. -/
theorem unwritten_deliver (signal : Signal) (events : List ChainEvent) :
    (port.deliver failures signal events).stores.unwritten =
      (port.stores.emit (events.map (.delivering signal))).unwritten := by
  induction events generalizing port with
  | nil => simp [deliver, Stores.emit]
  | cons event rest inductionHypothesis =>
      have split : ∀ stores : Stores,
          stores.emit ((event :: rest).map (.delivering signal)) =
            (stores.emit [.delivering signal event]).emit
              (rest.map (.delivering signal)) := by
        intro stores
        simp [Stores.emit]
      rw [split, deliver, List.foldl_cons, ← deliver, inductionHypothesis,
        ← Stores.unwritten_emit]
      cases event with
      | reported outcome =>
          have kept : ∀ effect ∈
              [Effect.delivering signal (.reported outcome)],
              effect.written = true := by
            intro effect member
            rw [List.mem_singleton.mp member]
            rfl
          conv_rhs => rw [← Stores.unwritten_emit]
          rw [unwritten_report, Stores.unwritten_emit_written kept]
      | unknown | sent | answered | kept =>
          conv_rhs => rw [← Stores.unwritten_emit]

end Port

/-! ## Every step of a call and of a sender -/

/-- Forgetting may come before a step of a call or after it. -/
theorem Call.forget_next (call : Call) (stores : Stores) :
    (call.next platform moment stores.unwritten).map forgetWritten =
      (call.next platform moment stores).map forgetWritten := by
  rw [Call.next, Call.next]
  cases call.stage with
  | preparing =>
      simp [forgetWritten, Stores.unwritten]
  | planning => 
      simp only [Call.plan_]
      cases call.routes with
      | nil => simp [forgetWritten]
      | cons entry rest => simp [forgetWritten, Stores.unwritten]
  | recording | unsent | completing =>
      simp [forgetWritten, Call.record, Call.settleUnsent,
        Stores.unwritten_emit]
  | holding => 
      simp only [Call.hold]
      split
      · split
        · simp [forgetWritten]
        · simp [forgetWritten]
      · split
        · simp [forgetWritten]
        · simp [forgetWritten]
  | delivering => 
      dsimp only
      split
      · simp [forgetWritten]
      · rfl
  | settling => simp [forgetWritten]
  | noting => simp [forgetWritten, Stores.unwritten]
  | done => rfl

theorem Call.forget_deliver (chain : Nat) (call : Call) (stores : Stores) :
    (call.deliver chain stores.unwritten).map forgetWritten =
      (call.deliver chain stores).map forgetWritten := by
  rw [Call.deliver, Call.deliver]
  split
  · cases advance call.program call.system chain with
    | none => rfl
    | some system => simp [forgetWritten, Stores.unwritten_emit]
  · rfl

theorem Sender.forget_next
    (pipeline : Pipeline) (sender : Sender) (stores : Stores) :
    (sender.next platform moment pipeline stores.unwritten).map
        forgetWritten =
      (sender.next platform moment pipeline stores).map forgetWritten := by
  rw [Sender.next, Sender.next]
  cases sender.stage with
  | opening =>
      simp only [Sender.open_]
      split
      · simp [forgetWritten]
      · simp [forgetWritten, Stores.unwritten_emit]
  | gating => simp [forgetWritten, Sender.gate, Stores.unwritten]
  | starting => simp [forgetWritten]
  | delivering =>
      dsimp only
      split
      · simp [forgetWritten]
      · rfl
  | settling => simp [forgetWritten]
  | settlingMembers =>
      simp only [Sender.settleMembers]
      cases sender.members with
      | nil => simp [forgetWritten]
      | cons member rest => simp [forgetWritten]
  | completing =>
      dsimp only
      split
      · simp [forgetWritten]
      · simp [forgetWritten, Stores.unwritten_emit]
  | completingMembers =>
      simp only [Sender.completeMembers]
      cases sender.members with
      | nil => simp [forgetWritten]
      | cons member rest => simp [forgetWritten, Stores.unwritten_emit]
  | done => rfl

theorem Sender.forget_deliver
    (chain : Nat) (sender : Sender) (stores : Stores) :
    (sender.deliver chain stores.unwritten).map forgetWritten =
      (sender.deliver chain stores).map forgetWritten := by
  rw [Sender.deliver, Sender.deliver]
  split
  · cases advance sender.program sender.system chain with
    | none => rfl
    | some system => simp [forgetWritten, Stores.unwritten_emit]
  · rfl

/-! ## Every step with a failing sink -/

/-- What a party did with a failing sink, without what it wrote. -/
def forgetAsked {Party : Type} (moved : Party × Port) : Party × Stores :=
  (moved.1, moved.2.stores.unwritten)

theorem Call.forget_askNext (call : Call) (port : Port) :
    (call.askNext failures platform moment port).map
        (fun moved => forgetAsked moved.1) =
      (call.next platform moment port.stores).map forgetWritten := by
  rw [Call.askNext]
  cases stage : call.stage with
  | recording =>
      simp [Call.next, stage, forgetAsked, forgetWritten, Call.askRecord,
        Call.record]
  | unsent =>
      simp [Call.next, stage, forgetAsked, forgetWritten, Call.askUnsent,
        Call.settleUnsent]
  | completing =>
      have wrote := @Port.unwritten_ask failures port
        (.complete call.signal call.result)
      simp only [Call.next, stage, Call.askComplete, Option.map_some,
        Option.some.injEq, forgetAsked, forgetWritten,
        Stores.unwritten_emit_completed]
      split
      · split
        · rename_i answered
          rw [← wrote, answered]
        · rename_i answered
          rw [← wrote, answered]
      · simp
  | holding =>
      simp [Call.next, stage, forgetAsked, forgetWritten, Port.quietly]
  | preparing | planning | delivering | settling | noting | done =>
      dsimp only
      rw [Option.map_map]
      rfl

theorem Call.forget_askDeliver (chain : Nat) (call : Call) (port : Port) :
    (call.askDeliver failures chain port).map forgetAsked =
      (call.deliver chain port.stores).map forgetWritten := by
  rw [Call.askDeliver, Call.deliver]
  split
  · cases advance call.program call.system chain with
    | none => rfl
    | some system =>
        simp [forgetAsked, forgetWritten, Port.unwritten_deliver]
        rfl
  · rfl

theorem Sender.forget_askNext
    (pipeline : Pipeline) (sender : Sender) (port : Port) :
    (sender.askNext failures platform moment pipeline port).map
        forgetAsked =
      (sender.next platform moment pipeline port.stores).map
        forgetWritten := by
  rw [Sender.askNext]
  cases stage : sender.stage with
  | opening =>
      simp only [Sender.next, stage, Sender.askOpen, Sender.open_]
      split
      · rfl
      · simp [forgetAsked, forgetWritten]
  | completing =>
      simp only [Sender.next, stage, Sender.askComplete]
      split
      · rfl
      · simp [forgetAsked, forgetWritten]
  | completingMembers =>
      simp only [Sender.next, stage, Sender.askCompleteMembers,
        Sender.completeMembers]
      cases sender.members with
      | nil => rfl
      | cons member rest => simp [forgetAsked, forgetWritten]
  | gating | starting | delivering | settling | settlingMembers | done =>
      dsimp only
      rw [Option.map_map]
      rfl

theorem Sender.forget_askDeliver
    (chain : Nat) (sender : Sender) (port : Port) :
    (sender.askDeliver failures chain port).map forgetAsked =
      (sender.deliver chain port.stores).map forgetWritten := by
  rw [Sender.askDeliver, Sender.deliver]
  split
  · cases advance sender.program sender.system chain with
    | none => rfl
    | some system =>
        simp [forgetAsked, forgetWritten, Port.unwritten_deliver]
        rfl
  · rfl

/-! ## Every step of the client -/

namespace Client

def unwritten (client : Client) : Client :=
  { client with stores := client.stores.unwritten }

theorem unwritten_putCall
    (index : Nat) (client : Client) (moves : Option (Call × Stores)) :
    (moves.map (client.putCall index)).map unwritten =
      (moves.map forgetWritten).map (client.putCall index) := by
  rw [Option.map_map, Option.map_map]
  rfl

theorem unwritten_putSender
    (index : Nat) (client : Client) (moves : Option (Sender × Stores)) :
    (moves.map (client.putSender index)).map unwritten =
      (moves.map forgetWritten).map (client.putSender index) := by
  rw [Option.map_map, Option.map_map]
  rfl

theorem forget_elapse (index : Nat) (client : Client) :
    (client.unwritten.elapse index).map unwritten =
      (client.elapse index).map unwritten := by
  rw [elapse, elapse]
  dsimp only [unwritten, Stores.unwritten]
  cases client.stores.timers[index]? with
  | none => rfl
  | some timer =>
      simp only [Option.map_some, Option.some.injEq]
      cases client.stores.groups.take timer.1 timer.2 with
      | none => simp [unwritten, Stores.unwritten, List.filter_filter]
      | some taken =>
          simp [unwritten, Stores.unwritten, Stores.spawn,
            List.filter_filter]

/-- Forgetting may come before a step or after it. -/
theorem forget_step (client : Client) (label : ClientStep) :
    (client.unwritten.step platform label).map unwritten =
      (client.step platform label).map unwritten := by
  have samePut : ∀ index,
      client.unwritten.putCall index = client.putCall index :=
    fun _ => rfl
  have samePutSender : ∀ index,
      client.unwritten.putSender index = client.putSender index :=
    fun _ => rfl
  have sameCalls : client.unwritten.calls = client.calls := rfl
  have sameSenders :
      client.unwritten.stores.senders = client.stores.senders := rfl
  cases label with
  | start input waits =>
      rw [step, step]
      cases validate input with
      | error error => rfl
      | ok valid => simp [unwritten, newCall]
  | call index moment =>
      rw [step, step, sameCalls]
      cases client.calls[index]? with
      | none => rfl
      | some call =>
          rw [Option.bind_some, Option.bind_some, samePut,
            unwritten_putCall, unwritten_putCall]
          exact congrArg _ (call.forget_next client.stores)
  | deliver index chain =>
      rw [step, step, sameCalls]
      cases client.calls[index]? with
      | none => rfl
      | some call =>
          rw [Option.bind_some, Option.bind_some, samePut,
            unwritten_putCall, unwritten_putCall]
          exact congrArg _ (call.forget_deliver chain client.stores)
  | cut index message =>
      rw [step, step, sameCalls]
      cases client.calls[index]? with
      | none => rfl
      | some call =>
          rw [Option.bind_some, Option.bind_some]
          cases call.cut message with
          | none => rfl
          | some moved => simp [unwritten, putCall]
  | timer index => exact client.forget_elapse index
  | flush =>
      simp [step, flush, unwritten, Stores.unwritten, Stores.spawn,
        List.filter_filter]
  | sender index moment =>
      rw [step, step, sameSenders]
      cases client.stores.senders[index]? with
      | none => rfl
      | some sender =>
          rw [Option.bind_some, Option.bind_some, samePutSender,
            unwritten_putSender, unwritten_putSender]
          exact congrArg _
            (sender.forget_next client.pipeline client.stores)
  | deliverGroup index chain =>
      rw [step, step, sameSenders]
      cases client.stores.senders[index]? with
      | none => rfl
      | some sender =>
          rw [Option.bind_some, Option.bind_some, samePutSender,
            unwritten_putSender, unwritten_putSender]
          exact congrArg _ (sender.forget_deliver chain client.stores)
  | reload pipeline => simp [step, unwritten]

end Client

namespace FailingClient

/-- The client without what it wrote to its sink. -/
def unwritten (failing : FailingClient) : Client :=
  failing.client.unwritten

theorem unwritten_putCall
    (index : Nat) (failing : FailingClient)
    (moves : Option ((Call × Port) × Returned)) :
    (moves.map (failing.putCall index)).map unwritten =
      (moves.map fun moved => forgetAsked moved.1).map
        (failing.client.putCall index) := by
  rw [Option.map_map, Option.map_map]
  rfl

theorem unwritten_putSender
    (index : Nat) (failing : FailingClient)
    (moves : Option (Sender × Port)) :
    (moves.map (failing.putSender index)).map unwritten =
      (moves.map forgetAsked).map (failing.client.putSender index) := by
  rw [Option.map_map, Option.map_map]
  rfl

/-- A step is the step of the client whose sink works, but for what was
written. -/
theorem forget_step (failing : FailingClient) (label : ClientStep) :
    (failing.step failures platform label).map unwritten =
      (failing.client.step platform label).map Client.unwritten := by
  cases label with
  | start | cut | timer | flush | reload =>
      simp only [step, Option.map_map]
      rfl
  | call index moment =>
      rw [step, Client.step]
      cases failing.client.calls[index]? with
      | none => rfl
      | some call =>
          rw [Option.bind_some, Option.bind_some, unwritten_putCall,
            Client.unwritten_putCall]
          exact congrArg _ (call.forget_askNext failing.port)
  | deliver index chain =>
      rw [step, Client.step]
      cases failing.client.calls[index]? with
      | none => rfl
      | some call =>
          rw [Option.bind_some, Option.bind_some,
            Client.unwritten_putCall]
          have same := @Call.forget_askDeliver failures chain call
            failing.port
          rw [port] at same
          rw [← same, Option.map_map, Option.map_map]
          rfl
  | sender index moment =>
      rw [step, Client.step]
      cases failing.client.stores.senders[index]? with
      | none => rfl
      | some sender =>
          rw [Option.bind_some, Option.bind_some, unwritten_putSender,
            Client.unwritten_putSender]
          exact congrArg _
            (sender.forget_askNext failing.client.pipeline failing.port)
  | deliverGroup index chain =>
      rw [step, Client.step]
      cases failing.client.stores.senders[index]? with
      | none => rfl
      | some sender =>
          rw [Option.bind_some, Option.bind_some, unwritten_putSender,
            Client.unwritten_putSender]
          exact congrArg _ (sender.forget_askDeliver chain failing.port)

end FailingClient

/-! ## A sink that never fails -/

/-- No call of the sink fails. -/
def unfailing : Failures :=
  fun _ _ => none

theorem Port.deliver_unfailing
    (signal : Signal) (events : List ChainEvent) :
    ∀ port : Port,
      (port.deliver unfailing signal events).stores =
        port.stores.emit (events.map (.delivering signal)) := by
  induction events with
  | nil =>
      intro port
      simp [deliver, Stores.emit]
  | cons event rest inductionHypothesis =>
      intro port
      rw [deliver, List.foldl_cons, ← deliver, inductionHypothesis]
      cases event with
      | reported | unknown | sent | answered | kept =>
          simp [report, logged, ask, unfailing, Stores.emit,
            SinkCall.effect]

theorem Call.askNext_unfailing (call : Call) (port : Port) :
    (call.askNext unfailing platform moment port).map
        (fun moved => (moved.1.1, moved.1.2.stores)) =
      call.next platform moment port.stores := by
  rw [Call.askNext]
  cases stage : call.stage with
  | recording | unsent =>
      simp only [Call.next, stage]
      rfl
  | completing =>
      simp only [Call.next, stage, Call.askComplete]
      split
      · rfl
      · rfl
  | holding =>
      simp only [Call.next, stage]
      rfl
  | preparing | planning | delivering | settling | noting | done =>
      dsimp only
      rw [Option.map_map]
      exact Option.map_id'

theorem Sender.askNext_unfailing
    (pipeline : Pipeline) (sender : Sender) (port : Port) :
    (sender.askNext unfailing platform moment pipeline port).map
        (fun moved => (moved.1, moved.2.stores)) =
      sender.next platform moment pipeline port.stores := by
  rw [Sender.askNext]
  cases stage : sender.stage with
  | opening =>
      simp only [Sender.next, stage, Sender.askOpen, Sender.open_]
      split
      · rfl
      · rfl
  | completing =>
      simp only [Sender.next, stage, Sender.askComplete]
      split
      · rfl
      · rfl
  | completingMembers =>
      simp only [Sender.next, stage, Sender.askCompleteMembers,
        Sender.completeMembers]
      cases sender.members with
      | nil => rfl
      | cons member rest => rfl
  | gating | starting | delivering | settling | settlingMembers | done =>
      dsimp only
      rw [Option.map_map]
      exact Option.map_id'

/-- A client whose sink never fails is the client. -/
theorem FailingClient.step_unfailing
    (failing : FailingClient) (label : ClientStep) :
    (failing.step unfailing platform label).map FailingClient.client =
      failing.client.step platform label := by
  cases label with
  | start | cut | timer | flush | reload =>
      simp only [step, Option.map_map]
      exact Option.map_id'
  | call index moment =>
      rw [step, Client.step]
      cases failing.client.calls[index]? with
      | none => rfl
      | some call =>
          have same := @Call.askNext_unfailing platform moment call
            failing.port
          rw [port] at same
          rw [Option.bind_some, Option.bind_some, ← same, Option.map_map,
            Option.map_map]
          rfl
  | deliver index chain =>
      rw [step, Client.step]
      cases failing.client.calls[index]? with
      | none => rfl
      | some call =>
          rw [Option.bind_some, Option.bind_some, Call.askDeliver,
            Call.deliver]
          split
          · simp only [Option.map_map]
            congr 1
            funext system
            simp [putCall, Port.deliver_unfailing, port]
            rfl
          · rfl
  | sender index moment =>
      rw [step, Client.step]
      cases failing.client.stores.senders[index]? with
      | none => rfl
      | some sender =>
          have same := @Sender.askNext_unfailing platform moment
            failing.client.pipeline sender failing.port
          rw [port] at same
          rw [Option.bind_some, Option.bind_some, ← same, Option.map_map,
            Option.map_map]
          rfl
  | deliverGroup index chain =>
      rw [step, Client.step]
      cases failing.client.stores.senders[index]? with
      | none => rfl
      | some sender =>
          rw [Option.bind_some, Option.bind_some, Sender.askDeliver,
            Sender.deliver]
          split
          · simp only [Option.map_map]
            congr 1
            funext system
            simp [putSender, Port.deliver_unfailing, port]
            rfl
          · rfl

/-! ## Two runs -/

/-- The same was sent, and all but the sink is the same. -/
structure SameWork (left right : Client) : Prop where
  sends : ∀ name, left.stores.sendsTo name = right.stores.sendsTo name
  calls : left.calls = right.calls
  pipeline : left.pipeline = right.pipeline
  table : left.stores.table = right.stores.table
  book : left.stores.book = right.stores.book
  groups : left.stores.groups = right.stores.groups
  timers : left.stores.timers = right.stores.timers
  senders : left.stores.senders = right.stores.senders

/-- Nothing that was written is a send. -/
theorem Stores.sendsTo_unwritten (name : String) (stores : Stores) :
    stores.unwritten.sendsTo name = stores.sendsTo name := by
  rw [sendsTo, sendsTo, unwritten]
  dsimp only
  induction stores.trace with
  | nil => rfl
  | cons effect rest inductionHypothesis =>
      by_cases written : effect.written = true
      · have silent : sendTo name effect = none := by
          cases effect with
          | recorded | completed => rfl
          | delivering signal event =>
              cases event with
              | reported outcome => rfl
              | unknown | sent | answered | kept => cases written
        rw [List.filter_cons_of_neg (by simp [written]),
          List.filterMap_cons_none silent, inductionHypothesis]
      · rw [List.filter_cons_of_pos (by simp [written]),
          List.filterMap_cons, List.filterMap_cons, inductionHypothesis]

theorem sameWork_of_unwritten {left right : Client}
    (same : left.unwritten = right.unwritten) : SameWork left right := by
  have stores : left.stores.unwritten = right.stores.unwritten :=
    (congrArg Client.stores same :)
  refine ⟨?_, (congrArg Client.calls same :),
    (congrArg Client.pipeline same :), (congrArg Stores.table stores :),
    (congrArg Stores.book stores :), (congrArg Stores.groups stores :),
    (congrArg Stores.timers stores :), (congrArg Stores.senders stores :)⟩
  intro name
  rw [← Stores.sendsTo_unwritten, stores, Stores.sendsTo_unwritten]

namespace FailingClient

/-- The runs of a client whose sink fails. -/
abbrev Runs
    (platform : Platform) (failures : Failures) (start : FailingClient)
    (labels : List ClientStep) (failing : FailingClient) : Prop :=
  Reaches (step failures platform) anyStep start labels failing

theorem forget_run
    (platform : Platform) (failures : Failures) (labels : List ClientStep)
    (start : FailingClient) :
    (run (step failures platform) anyStep start labels).map unwritten =
      run
        (fun client label =>
          (Client.step platform client label).map Client.unwritten)
        anyStep start.unwritten labels := by
  apply map_run
  intro failing label
  rw [forget_step, unwritten, Client.forget_step]

/-- Whatever fails, the same labels lead to the same work. -/
theorem sameWork_run
    {first second : Failures} {start one : FailingClient}
    {labels : List ClientStep}
    (reached : Runs platform first start labels one) :
    ∃ other, Runs platform second start labels other ∧
      SameWork one.client other.client := by
  have both := (forget_run platform first labels start).trans
    (forget_run platform second labels start).symm
  rw [run_of_reaches reached, Option.map_some] at both
  obtain ⟨other, isOther, same⟩ := Option.map_eq_some_iff.mp both.symm
  exact ⟨other, reaches_of_run isOther, sameWork_of_unwritten same.symm⟩

end FailingClient

end OpsSignal
