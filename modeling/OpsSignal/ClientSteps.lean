import OpsSignal.Client

/-!
# What a step of the client changes

Each step of the client moves one call or one group sender, or it is a
new call, a timer, a flush or a reload.  The lemmas below say this once,
and what each kind of step leaves alone.
-/

namespace OpsSignal

open Interleaving

/-- A client that has just been built. -/
def Client.fromPipeline (pipeline : Pipeline) : Client where
  pipeline := pipeline

/-! ## The stores -/

namespace Stores

variable (stores : Stores)

section Emit

variable (effects : List Effect)

@[simp]
theorem table_emit : (stores.emit effects).table = stores.table :=
  rfl

@[simp]
theorem book_emit : (stores.emit effects).book = stores.book :=
  rfl

@[simp]
theorem groups_emit : (stores.emit effects).groups = stores.groups :=
  rfl

@[simp]
theorem timers_emit : (stores.emit effects).timers = stores.timers :=
  rfl

@[simp]
theorem senders_emit : (stores.emit effects).senders = stores.senders :=
  rfl

@[simp]
theorem trace_emit : (stores.emit effects).trace = stores.trace ++ effects :=
  rfl

end Emit

section Settle

variable (admission : Admission) (result : DeliveryResult)

theorem settle_eq :
    stores.settle admission result =
      { stores with
        table :=
          if result.status = .failed then release admission stores.table
          else stores.table } := by
  rw [settle]
  split
  · rfl
  · rfl

@[simp]
theorem book_settle : (stores.settle admission result).book = stores.book :=
  by rw [settle_eq]

@[simp]
theorem groups_settle :
    (stores.settle admission result).groups = stores.groups := by
  rw [settle_eq]

@[simp]
theorem senders_settle :
    (stores.settle admission result).senders = stores.senders := by
  rw [settle_eq]

@[simp]
theorem trace_settle :
    (stores.settle admission result).trace = stores.trace := by
  rw [settle_eq]

end Settle

section Hold

variable (platform : Platform) (route : Route) (member : Member)

/-- The groups that a held member closed. -/
def closedBy : Added → List Closed
  | .full closed => [closed]
  | _ => []

theorem hold_facts :
    (stores.hold platform route member).table = stores.table ∧
      (stores.hold platform route member).book = stores.book ∧
      (stores.hold platform route member).trace = stores.trace ∧
      (stores.hold platform route member).groups =
        (stores.groups.add platform route member).1 ∧
      (stores.hold platform route member).senders = stores.senders ++
        (closedBy (stores.groups.add platform route member).2).map
          Sender.start := by
  rw [hold]
  cases added : (stores.groups.add platform route member).2 with
  | joined => simp [closedBy]
  | opened key seq wait => simp [closedBy]
  | full closed => simp [closedBy, spawn]

end Hold

end Stores

/-! ## Steps of a call and of a sender -/

/-- What a call can do, by the stage it is at. -/
inductive CallMove (platform : Platform) (call : Call) (stores : Stores) :
    Call × Stores → Prop
  | prepare (moment : Moment) (stage : call.stage = .preparing) :
      CallMove platform call stores
        (call.prepare platform moment stores.book, stores)
  | ask (entry : Route × Nat) (rest : List (Route × Nat))
      (stage : call.stage = .planning) (routes : call.routes = entry :: rest) :
      CallMove platform call stores (call.plan_ platform stores)
  | planned (stage : call.stage = .planning) (routes : call.routes = []) :
      CallMove platform call stores
        ({ call with stage := .recording, plan := call.loop.finish }, stores)
  | record (stage : call.stage = .recording) :
      CallMove platform call stores (call.record stores)
  | unsent (stage : call.stage = .unsent) :
      CallMove platform call stores (call.settleUnsent stores)
  | leave (stage : call.stage = .holding) (holds : call.holds = [])
      (empty : call.plan.targets = []) :
      CallMove platform call stores ({ call with stage := .done }, stores)
  | send (stage : call.stage = .holding) (holds : call.holds = [])
      (nonempty : call.plan.targets ≠ []) :
      CallMove platform call stores
        ({ call with
            stage := .delivering
            system := deliverStart call.plan },
          stores)
  | skip (entry : Nat × String) (rest : List (Nat × String))
      (stage : call.stage = .holding) (holds : call.holds = entry :: rest)
      (absent : call.pipeline.routing.routes[entry.1]? = none) :
      CallMove platform call stores ({ call with holds := rest }, stores)
  | join (route : Route) (entry : Nat × String)
      (rest : List (Nat × String)) (stage : call.stage = .holding)
      (holds : call.holds = entry :: rest)
      (listed : call.pipeline.routing.routes[entry.1]? = some route) :
      CallMove platform call stores
        ({ call with
            holds := rest
            admission := (call.admission.splitOff platform route).1 },
          stores.hold platform route
            ⟨call.signal, (call.admission.splitOff platform route).2,
              call.plan.targets.isEmpty⟩)
  | finish (stage : call.stage = .delivering)
      (finished : ∀ task ∈ call.system.tasks, call.program task = none) :
      CallMove platform call stores (call.finish none, stores)
  | cut (message : String) (stage : call.stage = .delivering)
      (waits : call.waits = true) :
      CallMove platform call stores (call.finish (some message), stores)
  | deliver (chain : Nat) (system : System ChainTask ChainEvent)
      (stage : call.stage = .delivering)
      (advanced : advance call.program call.system chain = some system) :
      CallMove platform call stores
        ({ call with system := system },
          stores.emit ((system.log.drop call.system.log.length).map
            fun entry => .delivering call.signal entry.2))
  | settle (stage : call.stage = .settling) :
      CallMove platform call stores
        ({ call with stage := .noting },
          stores.settle call.admission call.result)
  | note (stage : call.stage = .noting) :
      CallMove platform call stores
        ({ call with stage := .completing },
          { stores with
            book := stores.book.record call.signal call.result call.refs })
  | complete (stage : call.stage = .completing) :
      CallMove platform call stores
        ({ call with stage := .done },
          stores.emit [.completed call.signal call.result])

/-- What a group sender can do, by the stage it is at. -/
inductive SenderMove
    (platform : Platform) (pipeline : Pipeline) (sender : Sender)
    (stores : Stores) : Sender × Stores → Prop
  | open_ (moment : Moment) (stage : sender.stage = .opening) :
      SenderMove platform pipeline sender stores
        (sender.open_ platform moment stores)
  | gate (moment : Moment) (stage : sender.stage = .gating) :
      SenderMove platform pipeline sender stores
        (sender.gate platform moment stores)
  | start (stage : sender.stage = .starting) :
      SenderMove platform pipeline sender stores
        ({ sender with
            stage := .delivering
            providers := pipeline.providers
            system := deliverStart sender.plan },
          stores)
  | deliver (chain : Nat) (system : System ChainTask ChainEvent)
      (stage : sender.stage = .delivering)
      (advanced :
        advance sender.program sender.system chain = some system) :
      SenderMove platform pipeline sender stores
        ({ sender with system := system },
          stores.emit ((system.log.drop sender.system.log.length).map
            fun entry => .delivering sender.signal entry.2))
  | finish (stage : sender.stage = .delivering)
      (finished :
        ∀ task ∈ sender.system.tasks, sender.program task = none) :
      SenderMove platform pipeline sender stores
        ({ sender with
            stage := .settling
            result := deliveryResult sender.plan sender.system none },
          stores)
  | settle (stage : sender.stage = .settling) :
      SenderMove platform pipeline sender stores
        ({ sender with
            stage := .settlingMembers
            members := sender.closed.members },
          stores.settle sender.admission sender.result)
  | settleMember (member : Member) (rest : List Member)
      (stage : sender.stage = .settlingMembers)
      (members : sender.members = member :: rest) :
      SenderMove platform pipeline sender stores
        ({ sender with members := rest },
          stores.settle member.admission sender.result)
  | settled (stage : sender.stage = .settlingMembers)
      (members : sender.members = []) :
      SenderMove platform pipeline sender stores
        ({ sender with stage := .completing }, stores)
  | complete (stage : sender.stage = .completing) :
      SenderMove platform pipeline sender stores
        ({ sender with
            stage := .completingMembers
            members := sender.closed.members.filter Member.ownsRow },
          if sender.closed.single then stores
          else stores.emit [.completed sender.signal sender.result])
  | completeMember (member : Member) (rest : List Member)
      (stage : sender.stage = .completingMembers)
      (members : sender.members = member :: rest) :
      SenderMove platform pipeline sender stores
        ({ sender with members := rest },
          stores.emit [.completed member.signal sender.result])
  | completed (stage : sender.stage = .completingMembers)
      (members : sender.members = []) :
      SenderMove platform pipeline sender stores
        ({ sender with stage := .done }, stores)

section Moves

variable {platform : Platform} {moment : Moment} {stores : Stores}

private theorem finished_of_all
    {Task Event : Type} {system : System Task Event}
    {program : Program Task Event}
    (all : (system.tasks.all fun task => (program task).isNone) = true) :
    ∀ task ∈ system.tasks, program task = none := by
  intro task member
  exact Option.isNone_iff_eq_none.mp (List.all_eq_true.mp all task member)

private theorem callMove_of_hold {call : Call} (stage : call.stage = .holding) :
    CallMove platform call stores (call.hold platform stores) := by
  cases holds : call.holds with
  | nil =>
      by_cases empty : call.plan.targets = []
      · have same : call.hold platform stores =
            ({ call with stage := .done }, stores) := by
          simp [Call.hold, holds, empty]
        exact same ▸ CallMove.leave stage holds empty
      · have same : call.hold platform stores =
            ({ call with
                stage := .delivering
                system := deliverStart call.plan },
              stores) := by
          simp [Call.hold, holds, empty]
        exact same ▸ CallMove.send stage holds empty
  | cons entry rest =>
      cases listed : call.pipeline.routing.routes[entry.1]? with
      | none =>
          have same : call.hold platform stores =
              ({ call with holds := rest }, stores) := by
            simp [Call.hold, holds, listed]
          exact same ▸ CallMove.skip entry rest stage holds listed
      | some route =>
          have same : call.hold platform stores =
              ({ call with
                  holds := rest
                  admission := (call.admission.splitOff platform route).1 },
                stores.hold platform route
                  ⟨call.signal, (call.admission.splitOff platform route).2,
                    call.plan.targets.isEmpty⟩) := by
            simp [Call.hold, holds, listed]
          exact same ▸ CallMove.join route entry rest stage holds listed

theorem callMove_of_next
    {call : Call} {moved : Call × Stores}
    (moves : call.next platform moment stores = some moved) :
    CallMove platform call stores moved := by
  rw [Call.next] at moves
  cases stage : call.stage with
  | preparing =>
      simp only [stage, Option.some.injEq] at moves
      exact moves ▸ CallMove.prepare moment stage
  | planning =>
      simp only [stage, Option.some.injEq] at moves
      subst moves
      cases routes : call.routes with
      | nil =>
          have same : call.plan_ platform stores =
              ({ call with stage := .recording, plan := call.loop.finish },
                stores) := by
            rw [Call.plan_, routes]
          exact same ▸ CallMove.planned stage routes
      | cons entry rest => exact CallMove.ask entry rest stage routes
  | recording =>
      simp only [stage, Option.some.injEq] at moves
      exact moves ▸ CallMove.record stage
  | unsent =>
      simp only [stage, Option.some.injEq] at moves
      exact moves ▸ CallMove.unsent stage
  | holding =>
      simp only [stage, Option.some.injEq] at moves
      subst moves
      exact callMove_of_hold stage
  | delivering =>
      simp only [stage] at moves
      split at moves
      · rename_i all
        cases moves
        exact CallMove.finish stage (finished_of_all all)
      · cases moves
  | settling =>
      simp only [stage, Option.some.injEq] at moves
      exact moves ▸ CallMove.settle stage
  | noting =>
      simp only [stage, Option.some.injEq] at moves
      exact moves ▸ CallMove.note stage
  | completing =>
      simp only [stage, Option.some.injEq] at moves
      exact moves ▸ CallMove.complete stage
  | done =>
      simp only [stage] at moves
      cases moves

theorem callMove_of_deliver
    {chain : Nat} {call : Call} {moved : Call × Stores}
    (moves : call.deliver chain stores = some moved) :
    CallMove platform call stores moved := by
  rw [Call.deliver] at moves
  split at moves
  · rename_i stage
    obtain ⟨system, advanced, rfl⟩ := Option.map_eq_some_iff.mp moves
    exact CallMove.deliver chain system stage advanced
  · cases moves

theorem stage_of_deliver
    {chain : Nat} {call : Call} {moved : Call × Stores}
    (moves : call.deliver chain stores = some moved) :
    call.stage = .delivering := by
  rw [Call.deliver] at moves
  split at moves
  · assumption
  · cases moves

theorem stage_of_cut
    {message : String} {call ended : Call}
    (moves : call.cut message = some ended) :
    call.stage = .delivering := by
  rw [Call.cut] at moves
  split at moves
  · rename_i may
    exact may.1
  · cases moves

theorem callMove_of_cut
    {message : String} {call ended : Call}
    (moves : call.cut message = some ended) :
    CallMove platform call stores (ended, stores) := by
  rw [Call.cut] at moves
  split at moves
  · rename_i may
    cases moves
    exact CallMove.cut message may.1 may.2
  · cases moves

theorem senderMove_of_next
    {pipeline : Pipeline} {sender : Sender} {moved : Sender × Stores}
    (moves : sender.next platform moment pipeline stores = some moved) :
    SenderMove platform pipeline sender stores moved := by
  rw [Sender.next] at moves
  cases stage : sender.stage with
  | opening =>
      simp only [stage, Option.some.injEq] at moves
      exact moves ▸ SenderMove.open_ moment stage
  | gating =>
      simp only [stage, Option.some.injEq] at moves
      exact moves ▸ SenderMove.gate moment stage
  | starting =>
      simp only [stage, Option.some.injEq] at moves
      exact moves ▸ SenderMove.start stage
  | delivering =>
      simp only [stage] at moves
      split at moves
      · rename_i all
        cases moves
        exact SenderMove.finish stage (finished_of_all all)
      · cases moves
  | settling =>
      simp only [stage, Option.some.injEq] at moves
      exact moves ▸ SenderMove.settle stage
  | settlingMembers =>
      simp only [stage, Option.some.injEq] at moves
      subst moves
      rw [Sender.settleMembers]
      split
      · rename_i members
        exact SenderMove.settled stage members
      · rename_i member rest members
        exact SenderMove.settleMember member rest stage members
  | completing =>
      simp only [stage, Option.some.injEq] at moves
      exact moves ▸ SenderMove.complete stage
  | completingMembers =>
      simp only [stage, Option.some.injEq] at moves
      subst moves
      rw [Sender.completeMembers]
      split
      · rename_i members
        exact SenderMove.completed stage members
      · rename_i member rest members
        exact SenderMove.completeMember member rest stage members
  | done =>
      simp only [stage] at moves
      cases moves

theorem senderMove_of_deliver
    {chain : Nat} {pipeline : Pipeline} {sender : Sender}
    {moved : Sender × Stores}
    (moves : sender.deliver chain stores = some moved) :
    SenderMove platform pipeline sender stores moved := by
  rw [Sender.deliver] at moves
  split at moves
  · rename_i stage
    obtain ⟨system, advanced, rfl⟩ := Option.map_eq_some_iff.mp moves
    exact SenderMove.deliver chain system stage advanced
  · cases moves

end Moves

/-! ## Steps of the client -/

/-- A step of one call, whichever kind it is. -/
def CallMoves
    (platform : Platform) (label : ClientStep) (index : Nat) (call : Call)
    (stores : Stores) (moved : Call × Stores) : Prop :=
  (∃ moment, label = .call index moment ∧
      call.next platform moment stores = some moved) ∨
    (∃ chain, label = .deliver index chain ∧
      call.deliver chain stores = some moved) ∨
    ∃ message, label = .cut index message ∧
      ∃ ended, call.cut message = some ended ∧ moved = (ended, stores)

/-- A step of one group sender. -/
def SenderMoves
    (platform : Platform) (label : ClientStep) (index : Nat)
    (pipeline : Pipeline) (sender : Sender) (stores : Stores)
    (moved : Sender × Stores) : Prop :=
  (∃ moment, label = .sender index moment ∧
      sender.next platform moment pipeline stores = some moved) ∨
    ∃ chain, label = .deliverGroup index chain ∧
      sender.deliver chain stores = some moved

variable {platform : Platform} {client next : Client} {label : ClientStep}

theorem CallMoves.move
    {index : Nat} {call : Call} {stores : Stores} {moved : Call × Stores}
    (moves : CallMoves platform label index call stores moved) :
    CallMove platform call stores moved := by
  obtain ⟨_, _, moves⟩ | ⟨_, _, moves⟩ | ⟨_, _, ended, moves, rfl⟩ := moves
  · exact callMove_of_next moves
  · exact callMove_of_deliver moves
  · exact callMove_of_cut moves

/-- A call that is not delivering is moved by a step of its own. -/
theorem CallMoves.own
    {index : Nat} {call : Call} {stores : Stores} {moved : Call × Stores}
    (moves : CallMoves platform label index call stores moved)
    (stage : call.stage ≠ .delivering) :
    ∃ moment, label = .call index moment ∧
      call.next platform moment stores = some moved := by
  obtain own | ⟨_, _, moves⟩ | ⟨_, _, ended, moves, _⟩ := moves
  · exact own
  · exact absurd (stage_of_deliver moves) stage
  · exact absurd (stage_of_cut moves) stage

/-- A call that takes its first step is prepared by it. -/
theorem CallMoves.prepares
    {index : Nat} {call : Call} {stores : Stores} {moved : Call × Stores}
    (moves : CallMoves platform label index call stores moved)
    (stage : call.stage = .preparing) :
    ∃ moment, label = .call index moment ∧
      moved = (call.prepare platform moment stores.book, stores) := by
  obtain ⟨moment, isLabel, moves⟩ := moves.own (by simp [stage])
  rw [Call.next, stage] at moves
  exact ⟨moment, isLabel, (Option.some.inj moves).symm⟩

theorem SenderMoves.move
    {index : Nat} {pipeline : Pipeline} {sender : Sender} {stores : Stores}
    {moved : Sender × Stores}
    (moves :
      SenderMoves platform label index pipeline sender stores moved) :
    SenderMove platform pipeline sender stores moved := by
  obtain ⟨_, _, moves⟩ | ⟨_, _, moves⟩ := moves
  · exact senderMove_of_next moves
  · exact senderMove_of_deliver moves

/-- Everything a step of the client can be. -/
theorem step_cases (stepped : client.step platform label = some next) :
    (∃ input waits, label = .start input waits ∧ validate input = .ok () ∧
        next = { client with
          calls := client.calls ++
            [client.newCall platform input waits] }) ∨
      (∃ index call moved, client.calls[index]? = some call ∧
        CallMoves platform label index call client.stores moved ∧
        next = client.putCall index moved) ∨
      (∃ index sender moved, client.stores.senders[index]? = some sender ∧
        SenderMoves platform label index client.pipeline sender
          client.stores moved ∧
        next = client.putSender index moved) ∨
      (∃ index, label = .timer index ∧ client.elapse index = some next) ∨
      (label = .flush ∧ next = client.flush) ∨
      ∃ pipeline, label = .reload pipeline ∧
        next = { client with pipeline := pipeline } := by
  cases label with
  | start input waits =>
      left
      rw [Client.step] at stepped
      split at stepped
      · cases stepped
      · rename_i valid
        cases stepped
        exact ⟨input, waits, rfl, valid, rfl⟩
  | call index moment =>
      right; left
      obtain ⟨call, found, moves⟩ := Option.bind_eq_some_iff.mp stepped
      obtain ⟨moved, isMoved, rfl⟩ := Option.map_eq_some_iff.mp moves
      exact ⟨index, call, moved, found, Or.inl ⟨moment, rfl, isMoved⟩, rfl⟩
  | deliver index chain =>
      right; left
      obtain ⟨call, found, moves⟩ := Option.bind_eq_some_iff.mp stepped
      obtain ⟨moved, isMoved, rfl⟩ := Option.map_eq_some_iff.mp moves
      exact ⟨index, call, moved, found,
        Or.inr (Or.inl ⟨chain, rfl, isMoved⟩), rfl⟩
  | cut index message =>
      right; left
      obtain ⟨call, found, moves⟩ := Option.bind_eq_some_iff.mp stepped
      obtain ⟨moved, isMoved, rfl⟩ := Option.map_eq_some_iff.mp moves
      exact ⟨index, call, _, found,
        Or.inr (Or.inr ⟨message, rfl, moved, isMoved, rfl⟩), rfl⟩
  | timer index =>
      right; right; right; left
      exact ⟨index, rfl, stepped⟩
  | flush =>
      right; right; right; right; left
      exact ⟨rfl, (Option.some.inj stepped).symm⟩
  | sender index moment =>
      right; right; left
      obtain ⟨sender, found, moves⟩ := Option.bind_eq_some_iff.mp stepped
      obtain ⟨moved, isMoved, rfl⟩ := Option.map_eq_some_iff.mp moves
      exact ⟨index, sender, moved, found, Or.inl ⟨moment, rfl, isMoved⟩,
        rfl⟩
  | deliverGroup index chain =>
      right; right; left
      obtain ⟨sender, found, moves⟩ := Option.bind_eq_some_iff.mp stepped
      obtain ⟨moved, isMoved, rfl⟩ := Option.map_eq_some_iff.mp moves
      exact ⟨index, sender, moved, found, Or.inr ⟨chain, rfl, isMoved⟩, rfl⟩
  | reload pipeline =>
      right; right; right; right; right
      exact ⟨pipeline, rfl, (Option.some.inj stepped).symm⟩

/-! ## The alert book -/

/-- The call that records its delivery with this step. -/
def notes (client : Client) : ClientStep → Option Call
  | .call index _ =>
      client.calls[index]?.filter fun call => call.stage = .noting
  | _ => none

theorem book_callMove
    {call : Call} {stores : Stores} {moved : Call × Stores}
    (moves : CallMove platform call stores moved) :
    moved.2.book =
      if call.stage = .noting then
        stores.book.record call.signal call.result call.refs
      else stores.book := by
  cases moves with
  | ask entry rest stage routes =>
      rw [Call.plan_, routes, if_neg (by simp [stage])]
  | join route entry rest stage holds listed =>
      rw [if_neg (by simp [stage])]
      exact (stores.hold_facts platform _ _).2.1
  | settle stage =>
      rw [if_neg (by simp [stage])]
      exact stores.book_settle _ _
  | note stage => rw [if_pos stage]
  | prepare moment stage | planned stage _ | record stage | unsent stage
  | leave stage _ _ | send stage _ _ | skip _ _ stage _ _ | finish stage _
  | cut _ stage _ | deliver _ _ stage _ | complete stage =>
      simp [stage, Call.record, Call.settleUnsent]

theorem book_senderMove
    {pipeline : Pipeline} {sender : Sender} {stores : Stores}
    {moved : Sender × Stores}
    (moves : SenderMove platform pipeline sender stores moved) :
    moved.2.book = stores.book := by
  cases moves with
  | open_ moment stage =>
      rw [Sender.open_]
      split
      · rfl
      · rfl
  | settle stage => exact stores.book_settle _ _
  | settleMember member rest stage members => exact stores.book_settle _ _
  | complete stage =>
      dsimp only
      split
      · rfl
      · rfl
  | gate | start | deliver | finish | settled | completeMember
  | completed => rfl

theorem book_elapse {index : Nat} (elapsed : client.elapse index = some next) :
    next.stores.book = client.stores.book := by
  obtain ⟨timer, _, rfl⟩ := Option.map_eq_some_iff.mp elapsed
  dsimp only
  split
  · rfl
  · rfl

/-- Only a call that records its delivery changes the book. -/
theorem book_step (stepped : client.step platform label = some next) :
    next.stores.book =
      match notes client label with
      | some call =>
          client.stores.book.record call.signal call.result call.refs
      | none => client.stores.book := by
  rcases step_cases stepped with ⟨input, waits, rfl, _, rfl⟩ |
    ⟨index, call, moved, found, moves, rfl⟩ |
    ⟨index, sender, moved, _, moves, rfl⟩ | ⟨index, rfl, elapsed⟩ |
    ⟨rfl, rfl⟩ | ⟨pipeline, rfl, rfl⟩
  · rfl
  · rcases moves with ⟨moment, rfl, moves⟩ | ⟨chain, rfl, moves⟩ |
      ⟨message, rfl, ended, _, rfl⟩
    · have book := book_callMove (callMove_of_next moves)
      rw [Client.putCall, book, notes, found]
      by_cases noting : call.stage = .noting
      · simp [noting, Option.filter]
      · simp [noting, Option.filter]
    · have move : CallMove platform call client.stores moved :=
        callMove_of_deliver moves
      have book := book_callMove move
      rw [if_neg (by simp [stage_of_deliver moves])] at book
      exact book
    · rfl
  · have book := book_senderMove moves.move
    have silent : notes client label = none := by
      rcases moves with ⟨moment, rfl, _⟩ | ⟨chain, rfl, _⟩
      · rfl
      · rfl
    rw [silent]
    exact book
  · exact book_elapse elapsed
  · rfl
  · rfl

/-! ## Surroundings for sample runs -/

def plainPlatform : Platform where
  sha256 _ := ""
  showTime _ := ""

/-- Every send succeeds. -/
def plainMoment : Moment where
  now := 0
  id := ""
  timestamp := 0
  answers _ _ := .ok none

end OpsSignal
