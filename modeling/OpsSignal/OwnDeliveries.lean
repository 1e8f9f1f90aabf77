import OpsSignal.CutDelivery
import OpsSignal.GroupedRows

/-!
# The deliveries of a signal that is sent at once and held

The immediate delivery and every group of one that holds the signal store
their outcomes under the same id.  Whoever stores an outcome of a provider
last decides its row.
-/

namespace OpsSignal

open FirstMention Interleaving LabelledRuns

variable {platform : Platform} {id name : String}

/-! ## What is stored about a provider -/

def Effect.signal : Effect → Signal
  | .recorded signal | .delivering signal _ | .completed signal _ => signal

/-- The row of a provider after everything that the client did. -/
def Stores.outcome (id name : String) (stores : Stores) :
    Option DeliveryRow :=
  (Sink.after stores.trace).outcome id name

/-- The row that a delivery leaves of what it last reported. -/
def reportedRow
    (name : String) (signal : Signal)
    (system : System ChainTask ChainEvent) : Option DeliveryRow :=
  (lastReport name (events system)).map (deliveryRow signal)

/-- The row that the end of a call stores. -/
def Call.storedOutcome (name : String) (call : Call) : Option DeliveryRow :=
  ((call.result.deliveries.filter fun outcome =>
    outcome.provider = name).getLast?).map (deliveryRow call.signal)

/-- The row that a call alone leaves of a provider. -/
def Call.standing (name : String) (call : Call) : Option DeliveryRow :=
  if call.stage = .done then call.storedOutcome name
  else reportedRow name call.signal call.system

section Effects

variable {stores : Stores} {signal : Signal}

theorem outcome_emit (effects : List Effect) :
    (stores.emit effects).outcome id name =
      (effects.foldl Sink.apply (Sink.after stores.trace)).outcome id
        name := by
  rw [Stores.outcome, Stores.trace_emit, Sink.after_append]

/-- Effects of other signals leave the rows of an id alone. -/
theorem outcome_elsewhere
    {effects : List Effect}
    (elsewhere : ∀ effect ∈ effects, effect.signal.id ≠ id) :
    (stores.emit effects).outcome id name = stores.outcome id name := by
  rw [outcome_emit]
  change _ = (Sink.after stores.trace).outcome id name
  generalize Sink.after stores.trace = sink
  induction effects generalizing sink with
  | nil => rfl
  | cons effect rest inductionHypothesis =>
      have others : ∀ effect ∈ rest, effect.signal.id ≠ id :=
        fun other member => elsewhere other (List.mem_cons_of_mem _ member)
      have here := elsewhere effect List.mem_cons_self
      rw [List.foldl_cons, inductionHypothesis others]
      cases effect with
      | recorded signal => exact Sink.outcome_record
      | completed signal result =>
          exact (Sink.outcome_complete result).trans (if_neg here)
      | delivering signal event =>
          have one := outcome_deliverEvents signal [event] sink id name
          exact one.trans (if_neg here)

/-- A step of a delivery stores what it reports. -/
theorem outcome_delivering
    {program : Program ChainTask ChainEvent}
    {system next : System ChainTask ChainEvent} {chain : Nat}
    (named : signal.id = id)
    (advanced : advance program system chain = some next) :
    ((stores.emit ((next.log.drop system.log.length).map
          fun entry => .delivering signal entry.2)).outcome id name =
        stores.outcome id name ∧
      reportedRow name signal next = reportedRow name signal system) ∨
    ((stores.emit ((next.log.drop system.log.length).map
          fun entry => .delivering signal entry.2)).outcome id name =
        reportedRow name signal next ∧
      (reportedRow name signal next).isSome = true) := by
  obtain ⟨task, later, now, _, _, rfl⟩ :=
    advance_eq_some.mp advanced
  have written := outcome_deliverEvents signal now
    (Sink.after stores.trace) id name
  rw [if_pos named] at written
  have whole : events ⟨system.tasks.set chain later,
      system.log ++ now.map fun event => (chain, event)⟩ =
        events system ++ now := by
    simp [events]
  have emitted : (stores.emit (((system.log ++ now.map
      fun event => (chain, event)).drop system.log.length).map
        fun entry => .delivering signal entry.2)).outcome id name =
      ((lastReport name now).map (deliveryRow signal)).or
        (stores.outcome id name) := by
    rw [outcome_emit, List.drop_left, List.map_map, List.foldl_map]
    exact written
  rw [emitted, reportedRow, reportedRow, whole, lastReport_append]
  cases lastReport name now with
  | none => exact Or.inl ⟨rfl, rfl⟩
  | some outcome => exact Or.inr ⟨rfl, rfl⟩

end Effects

/-! ## Before a delivery starts -/

/-- A call that is not sending has reported nothing yet. -/
def Call.Quiet (call : Call) : Prop :=
  call.stage.rank < 5 → call.system = ⟨[], []⟩

/-- A group that is not being sent has reported nothing yet. -/
def Sender.Quiet (sender : Sender) : Prop :=
  sender.stage = .opening ∨ sender.stage = .gating ∨
      sender.stage = .starting → sender.system = ⟨[], []⟩

theorem quiet_callMove
    {call : Call} {stores : Stores} {moved : Call × Stores}
    (quiet : call.Quiet) (moves : CallMove platform call stores moved) :
    moved.1.Quiet := by
  have before := rank_callMove moves
  intro early
  have silent := quiet (by omega)
  cases moves with
  | prepare moment stage =>
      rw [Call.prepare]
      split
      · exact silent
      · exact silent
  | ask entry rest stage routes =>
      rw [Call.plan_, routes]
      exact silent
  | send | settle | note | complete =>
      simp [CallStage.rank] at early
  | finish | cut => simp [Call.finish, CallStage.rank] at early
  | deliver chain system stage advanced =>
      simp [stage, CallStage.rank] at early
  | planned | record | unsent | leave | skip | join => exact silent

theorem quiet_senderMove
    {pipeline : Pipeline} {sender : Sender} {stores : Stores}
    {moved : Sender × Stores} (quiet : sender.Quiet)
    (moves : SenderMove platform pipeline sender stores moved) :
    moved.1.Quiet := by
  intro early
  cases moves with
  | open_ moment stage =>
      rw [Sender.open_]
      split
      · exact quiet (Or.inl stage)
      · exact quiet (Or.inl stage)
  | gate moment stage => exact quiet (Or.inr (Or.inl stage))
  | start | finish | settle | settled | complete | completed =>
      simp at early
  | deliver _ _ stage | settleMember _ _ stage
  | completeMember _ _ stage =>
      simp [stage] at early

theorem quiet_calls
    {condition : Client → ClientStep → Prop} {pipeline : Pipeline}
    {labels : List ClientStep} {client : Client}
    (reached : Runs platform condition pipeline labels client) :
    ∀ call ∈ client.calls, call.Quiet := by
  apply calls_keep Call.Quiet reached
  · intro client input waits _ _
    rfl
  · intro call stores moved
    exact quiet_callMove

theorem quiet_senders
    {condition : Client → ClientStep → Prop} {pipeline : Pipeline}
    {labels : List ClientStep} {client : Client}
    (reached : Runs platform condition pipeline labels client) :
    ∀ sender ∈ client.stores.senders, sender.Quiet := by
  apply senders_keep Sender.Quiet reached
  · intro closed _
    rfl
  · intro pipeline sender stores moved
    exact quiet_senderMove

/-! ## What a move leaves in the row of a provider -/

/-- What a call tells the sink is about its own signal. -/
theorem outcome_otherCall
    {call : Call} {stores : Stores} {moved : Call × Stores}
    (elsewhere : call.signal.id ≠ id)
    (moves : CallMove platform call stores moved) :
    moved.2.outcome id name = stores.outcome id name := by
  cases moves with
  | record stage =>
      apply outcome_elsewhere
      intro effect member
      rw [List.mem_singleton.mp member]
      exact elsewhere
  | unsent stage =>
      apply outcome_elsewhere
      intro effect member
      rw [List.mem_singleton.mp member]
      exact elsewhere
  | complete stage =>
      apply outcome_elsewhere
      intro effect member
      rw [List.mem_singleton.mp member]
      exact elsewhere
  | deliver chain system stage advanced =>
      apply outcome_elsewhere
      intro effect member
      obtain ⟨entry, _, rfl⟩ := List.mem_map.mp member
      exact elsewhere
  | ask entry rest stage routes =>
      rw [Call.plan_, routes]
      rfl
  | join route entry rest stage holds listed =>
      rw [Stores.outcome, (stores.hold_facts platform _ _).2.2.1]
      rfl
  | settle stage =>
      rw [Stores.outcome, Stores.trace_settle]
      rfl
  | prepare | planned | leave | send | skip | finish | cut | note => rfl

/-- A move of the call itself leaves the row, or leaves in it what the call
alone would. -/
theorem outcome_ownCall
    {call : Call} {stores : Stores} {moved : Call × Stores}
    (sound : call.Sound) (quiet : call.Quiet) (named : call.signal.id = id)
    (prepared : 0 < call.stage.rank)
    (sent : 2 < moved.1.stage.rank → moved.1.plan.targets ≠ [])
    (unsent : call.stage = .unsent → call.plan.targets = [])
    (moves : CallMove platform call stores moved) :
    (moved.2.outcome id name = stores.outcome id name ∧
        moved.1.standing name = call.standing name) ∨
      moved.2.outcome id name = moved.1.standing name := by
  cases moves with
  | prepare moment stage =>
      rw [stage] at prepared
      cases prepared
  | ask entry rest stage routes =>
      rw [Call.plan_, routes]
      exact Or.inl ⟨rfl, rfl⟩
  | planned stage routes =>
      left
      refine ⟨rfl, ?_⟩
      simp [Call.standing, stage]
  | record stage =>
      left
      refine ⟨?_, ?_⟩
      · rw [Call.record, outcome_emit]
        exact Sink.outcome_record
      · simp only [Call.standing, stage, reduceCtorEq, if_false]
        apply if_neg
        rw [Call.record]
        dsimp only
        split
        · simp
        · simp
  | unsent stage =>
      have past : 2 < (call.settleUnsent stores).1.stage.rank := by
        simp [Call.settleUnsent, CallStage.rank]
      exact absurd (unsent stage) (sent past)
  | leave stage holds empty =>
      exact absurd empty (sent (by simp [CallStage.rank]))
  | send stage holds nonempty =>
      have silent := quiet (by simp [stage, CallStage.rank])
      left
      refine ⟨rfl, ?_⟩
      simp [Call.standing, stage, silent, reportedRow, deliverStart, initial,
        events]
  | skip entry rest stage holds absent => exact Or.inl ⟨rfl, rfl⟩
  | join route entry rest stage holds listed =>
      left
      refine ⟨?_, rfl⟩
      rw [Stores.outcome, (stores.hold_facts platform _ _).2.2.1]
      rfl
  | finish stage finished | cut message stage waits =>
      left
      refine ⟨rfl, ?_⟩
      simp [Call.standing, Call.finish, stage]
  | deliver chain system stage advanced =>
      simp only [Call.standing, stage, reduceCtorEq, if_false]
      rcases @outcome_delivering id name stores call.signal _ _ _ _ named
        advanced with kept | written
      · exact Or.inl kept
      · exact Or.inr written.1
  | settle stage =>
      left
      refine ⟨?_, by simp [Call.standing, stage]⟩
      rw [Stores.outcome, Stores.trace_settle]
      rfl
  | note stage => exact Or.inl ⟨rfl, by simp [Call.standing, stage]⟩
  | complete stage =>
      obtain ⟨_, ⟨schedule, reached⟩, cutOff, result⟩ :=
        sound.ended (by simp [Call.Ended, stage])
      have written : (stores.emit
          [.completed call.signal call.result]).outcome id name =
            (call.storedOutcome name).or (stores.outcome id name) := by
        rw [outcome_emit]
        exact (Sink.outcome_complete call.result).trans (if_pos named)
      simp only [Call.standing, stage, reduceCtorEq, if_false, if_true]
      change _ ∨ (stores.emit _).outcome id name = call.storedOutcome name
      rw [written]
      cases stored : call.storedOutcome name with
      | some row => exact Or.inr rfl
      | none =>
          left
          refine ⟨rfl, ?_⟩
          change call.storedOutcome name = _
          rw [stored, eq_comm, reportedRow, Option.map_eq_none_iff]
          -- A provider that was reported has its outcome in the result.
          cases reported : lastReport name (events call.system) with
          | none => rfl
          | some outcome =>
              obtain ⟨listed, member, isName⟩ := mem_deliveries_of_lastReport
                sound.distinct reached cutOff reported
              rw [← result] at member
              rw [Call.storedOutcome, Option.map_eq_none_iff,
                List.getLast?_eq_none_iff, List.filter_eq_nil_iff] at stored
              exact absurd (decide_eq_true isName) (stored listed member)

/-- The row that a group of one leaves of a provider. -/
def Sender.standing (name : String) (sender : Sender) :
    Option DeliveryRow :=
  reportedRow name sender.signal sender.system

/-- A sender that completes no row of the id leaves the row of a provider
alone, or is a group of one that stores what it reports. -/
theorem outcome_senderMove
    {pipeline : Pipeline} {sender : Sender} {stores : Stores}
    {moved : Sender × Stores} (quiet : sender.Quiet)
    (others : ∀ member, sender.completing = some member →
      member.signal.id ≠ id)
    (digest : moved.1.closed.single = false → moved.1.stage ≠ .opening →
      moved.1.signal.id ≠ id)
    (moves : SenderMove platform pipeline sender stores moved) :
    (moved.2.outcome id name = stores.outcome id name ∧
        (sender.closed.single = true → sender.signal.id = id →
          moved.1.signal = sender.signal ∧
            moved.1.standing name = sender.standing name)) ∨
      (moved.1.closed.single = true ∧ moved.1.signal.id = id ∧
        moved.2.outcome id name = moved.1.standing name ∧
          (moved.1.standing name).isSome = true) := by
  cases moves with
  | open_ moment stage =>
      left
      rw [Sender.open_]
      split
      · exact ⟨rfl, fun _ _ => ⟨rfl, rfl⟩⟩
      · rename_i several
        refine ⟨?_, fun single => absurd single several⟩
        rw [outcome_emit]
        exact Sink.outcome_record
  | start stage =>
      have silent := quiet (Or.inr (Or.inr stage))
      left
      refine ⟨rfl, fun _ _ => ⟨rfl, ?_⟩⟩
      simp [Sender.standing, silent, reportedRow, deliverStart, initial,
        events]
  | deliver chain system stage advanced =>
      by_cases named : sender.signal.id = id
      · rcases @outcome_delivering id name stores sender.signal _ _ _ _ named
          advanced with kept | written
        · exact Or.inl ⟨kept.1, fun _ _ => ⟨rfl, kept.2⟩⟩
        · right
          refine ⟨?_, named, written⟩
          by_contra several
          exact digest (by simpa using several) (by simp [stage]) named
      · left
        refine ⟨?_, fun _ same => absurd same named⟩
        apply outcome_elsewhere
        intro effect member
        obtain ⟨entry, _, rfl⟩ := List.mem_map.mp member
        exact named
  | settle stage | settleMember member rest stage members =>
      left
      refine ⟨?_, fun _ _ => ⟨rfl, rfl⟩⟩
      rw [Stores.outcome, Stores.trace_settle]
      rfl
  | complete stage =>
      left
      refine ⟨?_, fun _ _ => ⟨rfl, rfl⟩⟩
      dsimp only at digest ⊢
      split
      · rfl
      · rename_i several
        apply outcome_elsewhere
        intro effect member
        rw [List.mem_singleton.mp member]
        exact digest (by simpa using several) (by simp)
  | completeMember member rest stage members =>
      left
      refine ⟨?_, fun _ _ => ⟨rfl, rfl⟩⟩
      apply outcome_elsewhere
      intro effect isEffect
      rw [List.mem_singleton.mp isEffect]
      apply others member
      rw [Sender.completing, if_pos stage, members]
      rfl
  | gate | finish | settled | completed =>
      exact Or.inl ⟨rfl, fun _ _ => ⟨rfl, rfl⟩⟩

/-! ## Who stored the row last -/

/-- A group of one that holds the id has stored the row. -/
def Written (id name : String) (stores : Stores) : Prop :=
  ∃ sender ∈ stores.senders, sender.closed.single = true ∧
    sender.signal.id = id ∧ stores.outcome id name = sender.standing name ∧
      (sender.standing name).isSome = true

/-- The row of a provider while the call goes on, unless only groups take
the signal. -/
def DeliveryCourse (id name : String) (call : Call) (stores : Stores) :
    Prop :=
  call.plan.targets = [] ∧ 2 < call.stage.rank ∨
    stores.outcome id name = call.standing name ∨ Written id name stores

theorem written_append
    {stores later : Stores} {more : List Sender}
    (senders : later.senders = stores.senders ++ more)
    (same : later.outcome id name = stores.outcome id name)
    (written : Written id name stores) : Written id name later := by
  obtain ⟨sender, isSender, single, named, stored, some⟩ := written
  refine ⟨sender, ?_, single, named, same.trans stored, some⟩
  rw [senders]
  exact List.mem_append_left more isSender

theorem deliveryCourse_append
    {call : Call} {stores later : Stores} {more : List Sender}
    (senders : later.senders = stores.senders ++ more)
    (same : later.outcome id name = stores.outcome id name)
    (course : DeliveryCourse id name call stores) :
    DeliveryCourse id name call later := by
  rcases course with held | standing | written
  · exact Or.inl held
  · exact Or.inr (Or.inl (same.trans standing))
  · exact Or.inr (Or.inr (written_append senders same written))

/-- A move of a sender that completes no row of the id. -/
theorem deliveryCourse_sender
    {call : Call} {client : Client} {index : Nat} {sender : Sender}
    {moved : Sender × Stores}
    (found : client.stores.senders[index]? = some sender)
    (quiet : sender.Quiet)
    (others : ∀ member, sender.completing = some member →
      member.signal.id ≠ id)
    (digest : moved.1.closed.single = false → moved.1.stage ≠ .opening →
      moved.1.signal.id ≠ id)
    (moves : SenderMove platform client.pipeline sender client.stores
      moved)
    (course : DeliveryCourse id name call client.stores) :
    DeliveryCourse id name call (client.putSender index moved).stores := by
  have bound := (List.getElem?_eq_some_iff.mp found).1
  have here : moved.1 ∈ (client.putSender index moved).stores.senders := by
    rw [Client.putSender, senders_senderMove moves]
    exact List.mem_set bound moved.1
  rcases @outcome_senderMove platform id name _ _ _ _ quiet others digest
    moves with ⟨same, kept⟩ | ⟨single, named, stored, some⟩
  · rcases course with held | standing | written
    · exact Or.inl held
    · exact Or.inr (Or.inl (same.trans standing))
    · right; right
      obtain ⟨writer, isWriter, single, named, stored, some⟩ := written
      obtain ⟨place, atPlace⟩ := List.mem_iff_getElem?.mp isWriter
      by_cases own : place = index
      · subst own
        cases found.symm.trans atPlace
        obtain ⟨sameSignal, sameStanding⟩ := kept single named
        refine ⟨moved.1, here, ?_, sameSignal ▸ named, ?_, ?_⟩
        · rw [closed_senderMove moves]
          exact single
        · rw [sameStanding, ← stored]
          exact same
        · rw [sameStanding]
          exact some
      · refine ⟨writer, ?_, single, named, same.trans stored, some⟩
        apply @List.mem_of_getElem? _ _ place
        rw [Client.putSender, senders_senderMove moves,
          List.getElem?_set_ne (Ne.symm own)]
        exact atPlace
  · exact Or.inr (Or.inr ⟨moved.1, here, single, named, stored, some⟩)

/-! ## One step -/

section Step

variable {index : Nat} {call : Call} {client next : Client}
  {label : ClientStep}

/-- A call that was not stamped with the id leaves its rows alone. -/
theorem outcome_unstampedCall
    {another : Call} {stores : Stores} {moved : Call × Stores}
    (elsewhere : 0 < another.stage.rank → another.signal.id ≠ id)
    (moves : CallMove platform another stores moved) :
    moved.2.outcome id name = stores.outcome id name := by
  by_cases stage : another.stage = .preparing
  · cases moves with
    | prepare => rfl
    | ask _ _ other | planned other | record other | unsent other
    | leave other | send other | skip _ _ other | join _ _ _ other
    | finish other | cut _ other | deliver _ _ other | settle other
    | note other | complete other =>
        cases other.symm.trans stage
  · apply outcome_otherCall (elsewhere ?_) moves
    cases isStage : another.stage with
    | preparing => exact absurd isStage stage
    | planning | recording | unsent | holding | delivering | settling
    | noting | completing | done => exact Nat.zero_lt_succ _

/-- A digest that carries the id would be stamped with it. -/
theorem digest_of_noDigest
    {other : Nat} {sender : Sender} {moved : Sender × Stores}
    (digests : NoDigest id client) (fresh : Unstamping id client label)
    (found : client.stores.senders[other]? = some sender)
    (moves : SenderMoves platform label other client.pipeline sender
      client.stores moved) :
    moved.1.closed.single = false → moved.1.stage ≠ .opening →
      moved.1.signal.id ≠ id := by
  intro several _ named
  rw [closed_senderMove moves.move] at several
  obtain ⟨notOpening, same⟩ :=
    signal_senderMoves found moves fresh several named
  exact digests sender (List.mem_of_getElem? found) several notOpening same

/-- A timer stores nothing. -/
private theorem stores_elapse
    {other : Nat} (elapsed : client.elapse other = some next) :
    next.calls = client.calls ∧
      next.stores.outcome id name = client.stores.outcome id name := by
  obtain ⟨timer, _, rfl⟩ := Option.map_eq_some_iff.mp elapsed
  dsimp only
  split
  · exact ⟨rfl, rfl⟩
  · exact ⟨rfl, rfl⟩

/-- A move of the call itself. -/
theorem deliveryCourse_own
    {stores : Stores} {moved : Call × Stores}
    (sound : call.Sound) (quiet : call.Quiet) (named : call.signal.id = id)
    (prepared : 0 < call.stage.rank)
    (unsent : call.stage = .unsent → call.plan.targets = [])
    (moves : CallMove platform call stores moved)
    (course : DeliveryCourse id name call stores) :
    DeliveryCourse id name moved.1 moved.2 := by
  by_cases held : moved.1.plan.targets = [] ∧ 2 < moved.1.stage.rank
  · exact Or.inl held
  have sent : 2 < moved.1.stage.rank → moved.1.plan.targets ≠ [] :=
    fun past empty => held ⟨empty, past⟩
  obtain ⟨closed, senders⟩ := senders_callMove moves
  right
  rcases @outcome_ownCall platform id name _ _ _ sound quiet named prepared
    sent unsent moves with ⟨kept, sameStanding⟩ | stored
  · rcases course with ⟨empty, past⟩ | standing | written
    · have further := rank_callMove moves
      have samePlan := plan_callMove (by omega) moves
      exact absurd (samePlan ▸ empty) (sent (by omega))
    · left
      rw [kept, standing, sameStanding]
    · exact Or.inr (written_append senders kept written)
  · exact Or.inl stored

theorem deliveryCourse_step
    (owner : Owner id index call client) (sound : call.Sound)
    (quiet : call.Quiet)
    (unsent : call.stage = .unsent → call.plan.targets = [])
    (quietAll : ∀ sender ∈ client.stores.senders, sender.Quiet)
    (owesAll : ∀ sender ∈ client.stores.senders, sender.OwesMembers)
    (fresh : Unstamping id client label)
    (stepped : client.step platform label = some next)
    (course : DeliveryCourse id name call client.stores) :
    ∃ later, Owner id index later next ∧
      DeliveryCourse id name later next.stores := by
  obtain ⟨later, laterOwner, _⟩ := owner_step owner fresh stepped
  have bound := (List.getElem?_eq_some_iff.mp owner.found).1
  refine ⟨later, laterOwner, ?_⟩
  have found : next.calls[index]? = some call → later = call :=
    fun same => Option.some.inj (laterOwner.found.symm.trans same)
  rcases step_cases stepped with ⟨input, waits, rfl, _, rfl⟩ |
    ⟨other, another, moved, isCall, moves, rfl⟩ |
    ⟨other, sender, moved, isSender, moves, rfl⟩ | ⟨other, rfl, elapsed⟩ |
    ⟨rfl, rfl⟩ | ⟨pipeline, rfl, rfl⟩
  · rw [found (by rw [List.getElem?_append_left bound, owner.found])]
    exact course
  · obtain ⟨closed, senders⟩ := senders_callMove moves.move
    by_cases own : other = index
    · subst own
      cases isCall.symm.trans owner.found
      have same : later = moved.1 := by
        have isLater := laterOwner.found
        rw [Client.putCall, List.getElem?_set, if_pos rfl,
          if_pos bound] at isLater
        exact (Option.some.inj isLater).symm
      rw [same]
      exact deliveryCourse_own sound quiet owner.named owner.prepared unsent
        moves.move course
    · have stays : (client.putCall other moved).calls[index]? =
          some call := by
        rw [Client.putCall, List.getElem?_set_ne own]
        exact owner.found
      rw [found stays]
      apply deliveryCourse_append senders _ course
      apply outcome_unstampedCall _ moves.move
      intro prepared named
      exact own (owner.alone other another isCall prepared named)
  · rw [found owner.found]
    rcases course with held | notHeld
    · exact Or.inl held
    by_cases held : call.plan.targets = [] ∧ 2 < call.stage.rank
    · exact Or.inl held
    have listed := List.mem_of_getElem? isSender
    have digest := digest_of_noDigest owner.digests fresh isSender moves
    apply deliveryCourse_sender isSender (quietAll sender listed) _ digest
      moves.move (Or.inr notHeld)
    -- A member with the id would own its row only if no route sent it.
    intro member completing named
    obtain ⟨inGroup, ownsRow⟩ :=
      owesAll sender listed member (mem_owes_of_completing completing)
    obtain ⟨_, isEmpty, past⟩ := owner.members member
      (mem_members_of_sender listed inGroup) named
    rw [ownsRow] at isEmpty
    exact held ⟨List.isEmpty_iff.mp isEmpty.symm, by omega⟩
  · obtain ⟨sameCalls, same⟩ := @stores_elapse id name _ _ _ elapsed
    obtain ⟨closed, senders⟩ := senders_elapse elapsed
    rw [found (sameCalls ▸ owner.found)]
    exact deliveryCourse_append senders same course
  · rw [found owner.found]
    exact deliveryCourse_append rfl rfl course
  · rw [found owner.found]
    exact course

/-- Nothing is stored about an id that nothing carries. -/
theorem outcome_unstamped_step
    (unstamped : Unstamped id client)
    (soundAll : ∀ sender ∈ client.stores.senders, sender.Sound)
    (quietAll : ∀ sender ∈ client.stores.senders, sender.Quiet)
    (owesAll : ∀ sender ∈ client.stores.senders, sender.OwesMembers)
    (fresh : Unstamping id client label)
    (stepped : client.step platform label = some next) :
    next.stores.outcome id name = client.stores.outcome id name := by
  rcases step_cases stepped with ⟨input, waits, rfl, _, rfl⟩ |
    ⟨other, another, moved, isCall, moves, rfl⟩ |
    ⟨other, sender, moved, isSender, moves, rfl⟩ | ⟨other, rfl, elapsed⟩ |
    ⟨rfl, rfl⟩ | ⟨pipeline, rfl, rfl⟩
  · rfl
  · exact outcome_unstampedCall
      (unstamped.calls another (List.mem_of_getElem? isCall)) moves.move
  · have listed := List.mem_of_getElem? isSender
    have digest := digest_of_noDigest unstamped.digests fresh isSender moves
    have others : ∀ member, sender.completing = some member →
        member.signal.id ≠ id := by
      intro member completing
      have inGroup := (owesAll sender listed member
        (mem_owes_of_completing completing)).1
      exact unstamped.members member (mem_members_of_sender listed inGroup)
    rcases @outcome_senderMove platform id name _ _ _ _
      (quietAll sender listed) others digest moves.move with
        ⟨same, _⟩ | ⟨single, named, _⟩
    · exact same
    · exfalso
      have sound := sound_senderMove (soundAll sender listed) moves.move
      rw [sound.alone single, closed_senderMove moves.move] at named
      have first : sender.closed.members.head sender.closed.nonempty ∈
          sender.closed.members := List.head_mem _
      exact unstamped.members _ (mem_members_of_sender listed first) named
  · exact (@stores_elapse id name _ _ _ elapsed).2
  · rfl
  · rfl

end Step

/-! ## Runs -/

section Runs

variable {index : Nat} {pipeline : Pipeline} {labels : List ClientStep}
  {client : Client}

private theorem outcome_unstamped_runs
    (reached : Runs platform (Unstamping id) pipeline labels client) :
    client.stores.outcome id name = none := by
  induction reached with
  | nil => rfl
  | snoc earlier fresh stepped inductionHypothesis =>
      rw [outcome_unstamped_step (unstamped_runs earlier).1
        (sound_senders earlier) (quiet_senders earlier)
        (owesMembers_senders earlier) fresh stepped]
      exact inductionHypothesis

/-- The row of a provider has come as far as the call that the run stamps
with the id, unless a group of one wrote it. -/
theorem deliveryCourse_of_stampedOnce
    (stamped : StampedOnce platform pipeline id index labels client) :
    ∃ call, Owner id index call client ∧
      DeliveryCourse id name call client.stores := by
  obtain ⟨before, moment, after, first, call, prepared, rfl, earlier, found,
    stage, stamp, stepped, later⟩ := stamped
  have middle := earlier.anyStep.append (Reaches.single trivial stepped)
  induction later with
  | nil =>
      obtain ⟨owner, sameStores⟩ := owner_of_stamp (unstamped_runs earlier).1
        found stage stamp stepped
      refine ⟨_, owner, Or.inr (Or.inl ?_)⟩
      have quiet := quiet_calls middle _ (List.mem_of_getElem? owner.found)
      have early : (call.prepare platform moment
          first.stores.book).stage.rank < 3 := by
        rw [Call.prepare]
        split
        · simp [CallStage.rank]
        · simp [CallStage.rank]
      have unfinished : (call.prepare platform moment
          first.stores.book).stage ≠ .done := by
        intro done
        simp [done, CallStage.rank] at early
      rw [sameStores, outcome_unstamped_runs earlier, Call.standing,
        if_neg unfinished, reportedRow, quiet (by omega)]
      rfl
  | @snoc labels state final label reached fresh laterStep
      inductionHypothesis =>
      obtain ⟨current, owner, course⟩ := inductionHypothesis
      have whole := middle.append reached.anyStep
      have isCall := List.mem_of_getElem? owner.found
      have stampedOnce :
          StampedOnce platform pipeline id index
            (before ++ .call index moment :: labels) state :=
        ⟨before, moment, labels, first, call, prepared, rfl, earlier, found,
          stage, stamp, stepped, reached⟩
      obtain ⟨same, sameOwner, row⟩ := course_of_stampedOnce stampedOnce
      cases owner.found.symm.trans sameOwner.found
      apply deliveryCourse_step owner (sound_calls whole current isCall)
        (quiet_calls whole current isCall) _ (quiet_senders whole)
        (owesMembers_senders whole) fresh laterStep course
      intro unsent
      simp only [RowCourse, unsent] at row
      exact row.2.1

/-! ## Main result -/

/-- No group of one that holds the signal has reported on a provider of the
immediate plan. -/
def Unreported (id : String) (call : Call) (client : Client) : Prop :=
  ∀ sender ∈ client.stores.senders, sender.closed.single = true →
    sender.signal.id = id → ∀ name ∈ call.plan.providers,
      sender.standing name = none

/-- A group sends to providers of its route, each once. -/
theorem providers_planOf
    (route : Route) (answer : Except String Unit) :
    (Sender.planOf route answer).providers.Nodup ∧
      ∀ name ∈ (Sender.planOf route answer).providers,
        name ∈ route.providers := by
  cases answer with
  | error reason => exact ⟨List.nodup_nil, nofun⟩
  | ok =>
      have same : (Sender.planOf route (.ok ())).providers =
          route.distinctProviders := by
        rw [DeliveryPlan.providers, Sender.planOf, Route.targets]
        cases route.mode with
        | failover => exact List.append_nil _
        | fanout => exact flatten_singles _
      rw [same]
      refine ⟨nodup_collect route.providers, ?_⟩
      intro name
      exact (mem_collect route.providers).mp

/-- A group reports on providers of its route only. -/
theorem mem_providers_of_standing
    {sender : Sender} {row : DeliveryRow} (sound : sender.Sound)
    (quiet : sender.Quiet) (stored : sender.standing name = some row) :
    name ∈ sender.closed.route.providers := by
  obtain ⟨outcome, reported, _⟩ := Option.map_eq_some_iff.mp stored
  have loud : sender.system ≠ ⟨[], []⟩ := by
    intro silent
    rw [silent] at reported
    cases reported
  have planned : sender.Planned :=
    ⟨fun stage => loud (quiet (Or.inl stage)),
      fun stage => loud (quiet (Or.inr (Or.inl stage)))⟩
  have started : sender.stage ≠ .starting :=
    fun stage => loud (quiet (Or.inr (Or.inr stage)))
  have underWay : sender.UnderWay := by
    by_cases stage : sender.stage = .delivering
    · exact sound.begun stage
    · exact (sound.ended ⟨planned, started, stage⟩).1
  obtain ⟨answer, plan⟩ := sound.planned planned
  obtain ⟨distinct, listed⟩ :=
    providers_planOf sender.closed.route answer
  rw [← plan] at distinct listed
  obtain ⟨schedule, reached⟩ := underWay
  obtain ⟨chain, member, inChain⟩ :=
    listed_of_lastReport distinct reached reported
  exact listed name (List.mem_flatten.mpr ⟨chain, member, inChain⟩)

/-- Groups of one whose routes share no provider with the immediate plan
report on none of its providers. -/
theorem unreported_of_apart
    {condition : Client → ClientStep → Prop} {call : Call}
    (reached : Runs platform condition pipeline labels client)
    (apart : ∀ sender ∈ client.stores.senders,
      sender.closed.single = true → sender.signal.id = id →
        ∀ name ∈ call.plan.providers,
          name ∉ sender.closed.route.providers) :
    Unreported id call client := by
  intro sender isSender single named name listed
  cases stored : sender.standing name with
  | none => rfl
  | some row =>
      have shared := mem_providers_of_standing
        (sound_senders reached sender isSender)
        (quiet_senders reached sender isSender) stored
      exact absurd shared (apart sender isSender single named name listed)

/-- What a group of one reports replaces the row, whenever it reports
it. -/
theorem outcome_of_report
    {next : Client} {label : ClientStep} {place : Nat}
    {sender later : Sender} {call : Call}
    (stamped : StampedOnce platform pipeline id index labels client)
    (found : client.calls[index]? = some call)
    (sent : call.plan.targets ≠ [])
    (fresh : Unstamping id client label)
    (stepped : client.step platform label = some next)
    (before : client.stores.senders[place]? = some sender)
    (after : next.stores.senders[place]? = some later)
    (single : sender.closed.single = true) (named : sender.signal.id = id)
    (reports : later.standing name ≠ sender.standing name) :
    next.stores.outcome id name = later.standing name := by
  have reached := runs_of_stampedOnce stamped
  obtain ⟨current, owner, _⟩ := course_of_stampedOnce stamped
  cases found.symm.trans owner.found
  have isSender := List.mem_of_getElem? before
  obtain ⟨same, isSame, unchanged | ⟨moved, moves, rfl⟩⟩ :=
    sender_step before stepped
  · cases after.symm.trans isSame
    rw [unchanged] at reports
    exact absurd rfl reports
  · cases after.symm.trans isSame
    have digest := digest_of_noDigest owner.digests fresh before moves
    have others : ∀ member, sender.completing = some member →
        member.signal.id ≠ id := by
      intro member completing memberNamed
      obtain ⟨inGroup, ownsRow⟩ := owesMembers_senders reached sender
        isSender member (mem_owes_of_completing completing)
      obtain ⟨_, isEmpty, _⟩ := owner.members member
        (mem_members_of_sender isSender inGroup) memberNamed
      rw [ownsRow] at isEmpty
      exact sent (List.isEmpty_iff.mp isEmpty.symm)
    have nextStores : next.stores.outcome id name =
        moved.2.outcome id name := by
      rcases moves with ⟨moment, rfl, moves⟩ | ⟨chain, rfl, moves⟩
      · rw [Client.step, before, Option.bind_some, moves] at stepped
        cases stepped
        rfl
      · rw [Client.step, before, Option.bind_some, moves] at stepped
        cases stepped
        rfl
    rw [nextStores]
    rcases @outcome_senderMove platform id name _ _ _ _
      (quiet_senders reached sender isSender) others digest moves.move with
        ⟨_, kept⟩ | ⟨_, _, stored, _⟩
    · exact absurd (kept single named).2 reports
    · exact stored

/-- The rows of a signal that an ungrouped route sends at once: once its
call is done, the row of the signal is that of the immediate delivery, and
so are the rows of the providers of its plan if no group of one that holds
the signal reports on them; what such a group reports replaces the row. -/
theorem immediate_rows_kept
    {call : Call}
    (stamped : StampedOnce platform pipeline id index labels client)
    (found : client.calls[index]? = some call)
    (sent : call.plan.targets ≠ []) (done : call.stage = .done) :
    client.stores.verdict id = some call.result.verdict ∧
      (Unreported id call client → ∀ name ∈ call.plan.providers,
        client.stores.outcome id name = call.storedOutcome name) ∧
      ∀ (label : ClientStep) (next : Client) (place : Nat)
        (sender later : Sender) (name : String),
        Unstamping id client label →
          client.step platform label = some next →
          client.stores.senders[place]? = some sender →
          next.stores.senders[place]? = some later →
          sender.closed.single = true → sender.signal.id = id →
          later.standing name ≠ sender.standing name →
            next.stores.outcome id name = later.standing name := by
  refine ⟨?_, ?_, ?_⟩
  · obtain ⟨current, owner, course⟩ := course_of_stampedOnce stamped
    cases found.symm.trans owner.found
    simpa only [RowCourse, done, if_neg sent] using course
  · intro unreported name listed
    obtain ⟨current, owner, course⟩ :=
      @deliveryCourse_of_stampedOnce platform id name _ _ _ _ stamped
    cases found.symm.trans owner.found
    rcases course with ⟨empty, _⟩ | standing | written
    · exact absurd empty sent
    · rw [standing, Call.standing, if_pos done]
    · obtain ⟨sender, isSender, single, named, stored, some⟩ := written
      rw [unreported sender isSender single named name listed] at some
      cases some
  · intro label next place sender later name fresh stepped before after
      single named reports
    exact outcome_of_report stamped found sent fresh stepped before after
      single named reports

end Runs

/-! ## Sample runs -/

/-- PagerDuty gets everything at once, and a digest. -/
def pagedAndHeld (held : Route) : Pipeline where
  routing := ⟨[{ providers := ["pagerduty"] }, held]⟩
  providers :=
    [("slack", ⟨"slack", true⟩), ("pagerduty", ⟨"pagerduty", true⟩)]

/-- The call joins its group, is sent at once and ends. -/
def sentAndHeld : List ClientStep :=
  List.replicate 6 (.call 0 plainMoment) ++
    List.replicate 3 (.deliver 0 0) ++
      List.replicate 4 (.call 0 plainMoment)

/-- A group of one that its only provider delivers, and that completes no
row. -/
def loneGroup (index : Nat) : List ClientStep :=
  List.replicate 3 (.sender index plainMoment) ++
    List.replicate 3 (.deliverGroup index 0) ++
      List.replicate 6 (.sender index plainMoment)

def sentToBoth : Option Client :=
  stampedRun digestsPlatform (pagedAndHeld slackDigests) 0
    [.start (diskInput .trigger) false] twiceMoment
    (sentAndHeld ++ .timer 0 :: loneGroup 0)

theorem immediate_rows_kept_both :
    ∃ client call, sentToBoth = some client ∧
      client.calls[0]? = some call ∧
      client.stores.verdict "twice" = some call.result.verdict ∧
        ∀ name ∈ call.plan.providers,
          client.stores.outcome "twice" name = call.storedOutcome name := by
  have computed : (sentToBoth.any fun client =>
      client.calls[0]?.any fun call =>
        decide (call.plan.targets ≠ []) && decide (call.stage = .done) &&
          client.stores.senders.all fun sender =>
            call.plan.providers.all fun name =>
              decide (name ∉ sender.closed.route.providers)) = true := by
    decide +kernel
  obtain ⟨client, ran, computed⟩ := Option.any_eq_true _ _ |>.mp computed
  obtain ⟨call, found, computed⟩ := Option.any_eq_true _ _ |>.mp computed
  simp only [Bool.and_eq_true, decide_eq_true_eq, List.all_eq_true]
    at computed
  obtain ⟨⟨sent, done⟩, apart⟩ := computed
  have stamped := stampedOnce_of_run ran
  have unreported : Unreported "twice" call client :=
    unreported_of_apart (runs_of_stampedOnce stamped)
      fun sender isSender _ _ => apart sender isSender
  have kept := immediate_rows_kept stamped found sent done
  exact ⟨client, call, ran, found, kept.1, kept.2.1 unreported⟩

/-- The provider of the group answers nothing but errors. -/
def failingGroup (index : Nat) : List ClientStep :=
  .sender index { plainMoment with answers := fun _ _ => .error "HTTP 500" } ::
    List.replicate 2 (.sender index plainMoment) ++
      List.replicate 9 (.deliverGroup index 0) ++
        List.replicate 6 (.sender index plainMoment)

/-- PagerDuty has the signal, and its row says that it failed. -/
theorem delivered_row_replaced :
    ¬ ∀ pipeline id index labels client call,
        StampedOnce digestsPlatform pipeline id index labels client →
          client.calls[index]? = some call → call.plan.targets ≠ [] →
            call.plan.grouped ≠ [] → call.stage = .done →
              (∀ sender ∈ client.stores.senders, sender.stage = .done) →
                client.stores.verdict id = some call.result.verdict ∧
                  ∀ name ∈ call.plan.providers,
                    client.stores.outcome id name =
                      call.storedOutcome name := by
  intro claimed
  have computed : ((stampedRun digestsPlatform (pagedAndHeld cappedDigests)
      0 [.start (diskInput .trigger) false] twiceMoment
      (sentAndHeld ++ .timer 0 :: failingGroup 0)).any fun client =>
        client.calls[0]?.any fun call =>
          decide (call.plan.targets ≠ []) &&
            decide (call.plan.grouped ≠ []) &&
            decide (call.stage = .done) &&
            (client.stores.senders.all fun sender =>
              decide (sender.stage = .done)) &&
            decide ("pagerduty" ∈ call.plan.providers) &&
            decide (client.stores.outcome "twice" "pagerduty" ≠
              call.storedOutcome "pagerduty")) = true := by
    decide +kernel
  obtain ⟨client, ran, computed⟩ := Option.any_eq_true _ _ |>.mp computed
  obtain ⟨call, found, computed⟩ := Option.any_eq_true _ _ |>.mp computed
  simp only [Bool.and_eq_true, decide_eq_true_eq, List.all_eq_true]
    at computed
  obtain ⟨⟨⟨⟨⟨sent, held⟩, done⟩, ended⟩, listed⟩, replaced⟩ := computed
  exact replaced ((claimed _ _ _ _ _ call (stampedOnce_of_run ran) found sent
    held done ended).2 "pagerduty" listed)

end OpsSignal
