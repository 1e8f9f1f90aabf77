import OpsSignal.AlertOrigins
import OpsSignal.HeldMembers
import OpsSignal.OwnDeliveries

/-!
# The stored outcomes are true

An outcome is stored while a delivery runs, when it ends, and for every
member of a group that waits for it.  Whichever of these wrote a row last:
a provider that is stored as delivered took the signal or the digest it is
part of, and a stored failure is an answer of the provider or a timeout.
-/

namespace OpsSignal

open Interleaving LabelledRuns

variable {platform : Platform}

/-! ## What a row says -/

/-- The message is that of a timeout. -/
def CutWith (labels : List ClientStep) (message : String) : Prop :=
  ∃ index, .cut index message ∈ labels

/-- What an outcome says about its provider happened, with this signal. -/
def ProviderOutcome.Told
    (outcome : ProviderOutcome) (carrier : Signal)
    (labels : List ClientStep) (trace : List Effect) : Prop :=
  match outcome.status with
  | .delivered => ∃ alertRef,
      .delivering carrier (.answered outcome.provider (.ok alertRef)) ∈ trace
  | .failed => ∃ error, outcome.error = some error ∧
      (.delivering carrier (.answered outcome.provider (.error error)) ∈
          trace ∨ CutWith labels error)
  | .pending => True
  | .partly | .skipped | .grouped => False

/-- The signal is how the group went out. -/
def Closed.SentAs
    (platform : Platform) (closed : Closed) (carrier : Signal) : Prop :=
  if closed.single then carrier = closed.first
  else ∃ id timestamp, carrier = closed.digest platform id timestamp

/-- What has this id went out as the carrier: as itself, or as a member of
one of the groups. -/
def WentOutAs
    (platform : Platform) (id : String) (carrier : Signal)
    (groups : List Closed) : Prop :=
  carrier.id = id ∨
    ∃ closed ∈ groups, closed.SentAs platform carrier ∧
      ∃ member ∈ closed.members, member.signal.id = id

/-- The outcome that a row stores. -/
def DeliveryRow.told (row : DeliveryRow) : ProviderOutcome :=
  ⟨row.provider, row.status, row.error, row.attempts⟩

/-- The row tells what happened to its signal. -/
def DeliveryRow.Truthful
    (platform : Platform) (labels : List ClientStep) (client : Client)
    (row : DeliveryRow) : Prop :=
  ∃ carrier : Signal,
    WentOutAs platform row.signalId carrier
        (client.stores.senders.map Sender.closed) ∧
      row.told.Told carrier labels client.stores.trace

theorem ProviderOutcome.Told.append
    {outcome : ProviderOutcome} {carrier : Signal}
    {labels : List ClientStep} {trace : List Effect}
    (told : outcome.Told carrier labels trace)
    (laterLabels : List ClientStep) (more : List Effect) :
    outcome.Told carrier (labels ++ laterLabels) (trace ++ more) := by
  rw [Told] at told ⊢
  cases status : outcome.status with
  | delivered =>
      rw [status] at told
      obtain ⟨alertRef, answered⟩ := told
      exact ⟨alertRef, List.mem_append_left _ answered⟩
  | failed =>
      rw [status] at told
      obtain ⟨error, isError, answered | ⟨index, cut⟩⟩ := told
      · exact ⟨error, isError, Or.inl (List.mem_append_left _ answered)⟩
      · exact ⟨error, isError,
          Or.inr ⟨index, List.mem_append_left _ cut⟩⟩
  | pending => trivial
  | partly | skipped | grouped =>
      rw [status] at told
      exact told.elim

/-! ## What a delivery reports -/

/-- What is reported of a delivery whose events are in the trace is told
by the trace. -/
theorem told_of_reported
    {events : List ChainEvent} (replies : Replies events)
    {carrier : Signal} {trace : List Effect}
    (logged : ∀ event ∈ events, .delivering carrier event ∈ trace)
    {outcome : ProviderOutcome} (reported : .reported outcome ∈ events)
    (labels : List ClientStep) : outcome.Told carrier labels trace := by
  rw [ProviderOutcome.Told]
  rcases replies.plain outcome reported with status | status | status
  · rw [status]
    trivial
  · rw [status]
    obtain ⟨alertRef, answered⟩ :=
      replies.delivered outcome reported status
    exact ⟨alertRef, logged _ answered⟩
  · rw [status]
    obtain ⟨error, isError, answered⟩ :=
      replies.failed outcome reported status
    exact ⟨error, isError, Or.inl (logged _ answered)⟩

/-! ## Who stored it -/

/-- The effect stores the row. -/
def Effect.Stores : Effect → DeliveryRow → Prop
  | .delivering signal (.reported outcome), row =>
      row = deliveryRow signal outcome
  | .completed signal result, row =>
      ∃ outcome ∈ result.deliveries, row = deliveryRow signal outcome
  | _, _ => False

/-- Every stored row is from one of the effects. -/
theorem stores_of_outcome {id name : String} {row : DeliveryRow} :
    ∀ {trace : List Effect},
      (Sink.after trace).outcome id name = some row →
        ∃ effect ∈ trace, effect.Stores row := by
  intro trace
  induction trace using List.reverseRecOn with
  | nil => exact fun found => by cases found
  | append_singleton trace effect inductionHypothesis =>
      intro found
      have older : (Sink.after trace).outcome id name = some row →
          ∃ other ∈ trace ++ [effect], other.Stores row := by
        intro before
        obtain ⟨other, member, stores⟩ := inductionHypothesis before
        exact ⟨other, List.mem_append_left _ member, stores⟩
      have here : effect.Stores row →
          ∃ other ∈ trace ++ [effect], other.Stores row :=
        fun stores => ⟨effect, List.mem_append_right _ List.mem_cons_self,
          stores⟩
      rw [Sink.after_snoc] at found
      cases effect with
      | recorded signal => exact older (Sink.outcome_record ▸ found)
      | completed signal result =>
          rw [Sink.apply, Sink.outcome_complete] at found
          split at found
          · rcases Option.or_eq_some_iff.mp found with new | ⟨_, before⟩
            · obtain ⟨outcome, last, rfl⟩ := Option.map_eq_some_iff.mp new
              have listed := List.mem_of_getLast? last
              exact here ⟨outcome, (List.mem_filter.mp listed).1, rfl⟩
            · exact older before
          · exact older found
      | delivering signal event =>
          cases event with
          | reported outcome =>
              rw [Sink.apply, Sink.deliverEvent,
                Sink.outcome_providerOutcome] at found
              split at found
              · exact here (Option.some.inj found).symm
              · exact older found
          | unknown | sent | answered | kept => exact older found

/-- The result of a call whose delivery is over is what the delivery came
to, or what it was cut off at by one of the steps. -/
def Call.CutBy (labels : List ClientStep) (call : Call) : Prop :=
  call.Ended → ∃ cutOff : Option String,
    call.result = deliveryResult call.plan call.system cutOff ∧
      ∀ message, cutOff = some message → CutWith labels message

/-- A group sender has sent its group, and what it did is in the trace. -/
structure Sender.Traced
    (platform : Platform) (sender : Sender) (trace : List Effect) :
    Prop where
  begins : sender.stage = .opening → sender.system.log = []
  sent : sender.stage ≠ .opening →
    sender.closed.SentAs platform sender.signal
  logged : ∀ event ∈ events sender.system,
    .delivering sender.signal event ∈ trace

section Call

variable {call : Call} {stores : Stores} {moved : Call × Stores}

/-- A move that does not end the delivery. -/
private theorem cutBy_callMove
    {labels : List ClientStep} (before : call.CutBy labels)
    (stage : call.stage ≠ .delivering)
    (moves : CallMove platform call stores moved) :
    moved.1.CutBy labels := by
  cases moves with
  | prepare moment isStage =>
      rw [Call.prepare]
      split
      · exact fun ended => ended.elim
      · exact fun ended => ended.elim
  | ask entry rest isStage routes =>
      rw [Call.plan_, routes]
      intro ended
      rw [Call.Ended] at ended
      simp only [isStage] at ended
  | record isStage =>
      intro ended
      rw [Call.Ended, Call.record] at ended
      by_cases empty : call.plan.targets.isEmpty = true
      · simp [empty] at ended
      · simp [empty] at ended
  | leave isStage holds empty => exact fun ended => absurd empty ended
  | skip entry rest isStage | join route entry rest isStage =>
      intro ended
      rw [Call.Ended] at ended
      simp only [isStage] at ended
  | planned | unsent | send => exact fun ended => ended.elim
  | finish isStage | cut message isStage | deliver chain system isStage =>
      exact absurd isStage stage
  | settle isStage | note isStage | complete isStage =>
      exact fun _ => before (by simp [Call.Ended, isStage])

theorem cutBy_callMoves
    {labels : List ClientStep} {label : ClientStep} {index : Nat}
    (before : call.CutBy labels)
    (moves : CallMoves platform label index call stores moved) :
    moved.1.CutBy (labels ++ [label]) := by
  have longer : ∀ other : Call, other.CutBy labels →
      other.CutBy (labels ++ [label]) := by
    intro other told ended
    obtain ⟨cutOff, isResult, cuts⟩ := told ended
    refine ⟨cutOff, isResult, fun message isMessage => ?_⟩
    obtain ⟨index, member⟩ := cuts message isMessage
    exact ⟨index, List.mem_append_left _ member⟩
  by_cases stage : call.stage = .delivering
  · rcases moves with ⟨moment, rfl, moves⟩ | ⟨chain, rfl, moves⟩ |
      ⟨message, rfl, ended, moves, rfl⟩
    · simp only [Call.next, stage] at moves
      split at moves
      · cases moves
        exact fun _ => ⟨none, rfl, fun _ same => by cases same⟩
      · cases moves
    · rw [Call.deliver, if_pos stage] at moves
      obtain ⟨system, _, rfl⟩ := Option.map_eq_some_iff.mp moves
      intro ended
      rw [Call.Ended] at ended
      simp only [stage] at ended
    · rw [Call.cut] at moves
      split at moves
      · cases moves
        intro _
        refine ⟨some message, rfl, fun other same => ?_⟩
        cases same
        exact ⟨index, List.mem_append_right _ List.mem_cons_self⟩
      · cases moves
  · exact longer _ (cutBy_callMove before stage moves.move)

/-- What a move of a call stores: what its delivery reports, or its
result. -/
theorem stores_callMove
    (moves : CallMove platform call stores moved) :
    ∃ more, moved.2.trace = stores.trace ++ more ∧
      ∀ effect ∈ more, ∀ row, effect.Stores row →
        (moved.1.stage = .delivering ∧ ∃ outcome : ProviderOutcome,
            .reported outcome ∈ events moved.1.system ∧
              row = deliveryRow moved.1.signal outcome) ∨
          (call.stage = .completing ∧
            ∃ outcome ∈ call.result.deliveries,
              row = deliveryRow call.signal outcome) := by
  have silent : ∀ {stored : Effect → DeliveryRow → Prop},
      ∀ effect ∈ ([] : List Effect), ∀ row, effect.Stores row →
        stored effect row :=
    fun _ member => absurd member List.not_mem_nil
  cases moves with
  | ask entry rest stage routes =>
      rw [Call.plan_, routes]
      exact ⟨[], (List.append_nil _).symm, silent⟩
  | record stage =>
      refine ⟨_, rfl, fun effect member row stores => ?_⟩
      rw [List.mem_singleton.mp member] at stores
      exact stores.elim
  | unsent stage =>
      refine ⟨_, rfl, fun effect member row stores => ?_⟩
      rw [List.mem_singleton.mp member] at stores
      obtain ⟨outcome, listed, _⟩ := stores
      rw [deliveries_summarize] at listed
      obtain ⟨chain, _, tried⟩ := List.mem_flatMap.mp listed
      simp [triedOutcomes] at tried
  | join route entry rest stage holds listed =>
      refine ⟨[], ?_, silent⟩
      rw [(stores.hold_facts platform route _).2.2.1, List.append_nil]
  | settle stage =>
      refine ⟨[], ?_, silent⟩
      rw [Stores.trace_settle, List.append_nil]
  | deliver chain system stage advanced =>
      refine ⟨_, rfl, fun effect member row stores => ?_⟩
      obtain ⟨entry, isNew, rfl⟩ := List.mem_map.mp member
      left
      refine ⟨stage, ?_⟩
      obtain ⟨place, event⟩ := entry
      cases event with
      | reported outcome =>
          exact ⟨outcome, List.mem_map.mpr
            ⟨_, List.mem_of_mem_drop isNew, rfl⟩, stores⟩
      | unknown | sent | answered | kept => exact stores.elim
  | complete stage =>
      refine ⟨_, rfl, fun effect member row stores => ?_⟩
      rw [List.mem_singleton.mp member] at stores
      exact Or.inr ⟨stage, stores⟩
  | prepare | planned | leave | send | skip | finish | cut | note =>
      exact ⟨[], (List.append_nil _).symm, silent⟩

end Call

section Sender

variable {pipeline : Pipeline} {sender : Sender} {stores : Stores}
  {moved : Sender × Stores}

theorem Sender.Traced.append
    {trace : List Effect} (traced : sender.Traced platform trace)
    (more : List Effect) : sender.Traced platform (trace ++ more) where
  begins := traced.begins
  sent := traced.sent
  logged event member := List.mem_append_left _ (traced.logged event member)

theorem traced_start (closed : Closed) (trace : List Effect) :
    (Sender.start closed).Traced platform trace where
  begins _ := rfl
  sent stage := absurd rfl stage
  logged _ member := absurd member List.not_mem_nil

/-- A move after the signal is made and before its delivery, or after
it. -/
private theorem Sender.Traced.still
    {trace : List Effect} {later : Sender}
    (traced : sender.Traced platform trace)
    (opened : sender.stage ≠ .opening) (stage : later.stage ≠ .opening)
    (closed : later.closed = sender.closed)
    (signal : later.signal = sender.signal)
    (system : later.system = sender.system) :
    later.Traced platform trace where
  begins isStage := absurd isStage stage
  sent _ := by
    rw [closed, signal]
    exact traced.sent opened
  logged := by
    rw [system, signal]
    exact traced.logged

/-- What a move of a group sender stores. -/
theorem stores_senderMove
    (traced : sender.Traced platform stores.trace)
    (alone : sender.closed.single = true →
      sender.signal = sender.closed.first)
    (moves : SenderMove platform pipeline sender stores moved) :
    ∃ more, moved.2.trace = stores.trace ++ more ∧
      moved.1.Traced platform moved.2.trace ∧
      ∀ effect ∈ more, ∀ row, effect.Stores row →
        (moved.1.stage = .delivering ∧ ∃ outcome : ProviderOutcome,
            .reported outcome ∈ events moved.1.system ∧
              row = deliveryRow moved.1.signal outcome) ∨
          (sender.stage = .completing ∧
            ∃ outcome ∈ sender.result.deliveries,
              row = deliveryRow sender.signal outcome) ∨
          (sender.stage = .completingMembers ∧
            ∃ member, sender.completing = some member ∧
              ∃ outcome ∈ sender.result.deliveries,
                row = deliveryRow member.signal outcome) := by
  have silent : ∀ {stored : Effect → DeliveryRow → Prop},
      ∀ effect ∈ ([] : List Effect), ∀ row, effect.Stores row →
        stored effect row :=
    fun _ member => absurd member List.not_mem_nil
  cases moves with
  | open_ moment stage =>
      have unlogged := traced.begins stage
      rw [Sender.open_]
      split
      · rename_i single
        refine ⟨[], (List.append_nil _).symm, ?_, silent⟩
        refine ⟨SenderStage.noConfusion, fun _ => ?_, traced.logged⟩
        exact (if_pos single).mpr (alone single)
      · rename_i several
        refine ⟨_, rfl, ?_, fun effect member row stores => ?_⟩
        · refine ⟨SenderStage.noConfusion, fun _ => ?_, ?_⟩
          · rw [Closed.SentAs, if_neg several]
            exact ⟨moment.id, moment.timestamp, rfl⟩
          · intro event member
            rw [events, unlogged] at member
            exact absurd member List.not_mem_nil
        · rw [List.mem_singleton.mp member] at stores
          exact stores.elim
  | gate moment stage | settled stage members | completed stage members
  | finish stage finished =>
      refine ⟨[], (List.append_nil _).symm, ?_, silent⟩
      exact traced.still (by simp [stage]) SenderStage.noConfusion rfl rfl
        rfl
  | start stage =>
      refine ⟨[], (List.append_nil _).symm, ?_, silent⟩
      exact
        { begins := SenderStage.noConfusion
          sent := fun _ => traced.sent (by simp [stage])
          logged := fun _ member => absurd member List.not_mem_nil }
  | deliver chain system stage advanced =>
      refine ⟨_, rfl, ?_, fun effect member row stores => ?_⟩
      · obtain ⟨task, other, now, _, _, rfl⟩ := advance_eq_some.mp advanced
        dsimp only
        rw [List.drop_left, List.map_map]
        have sofar := traced.append
          (now.map fun event => Effect.delivering sender.signal event)
        refine ⟨fun early => ?_, fun _ => ?_, fun event member => ?_⟩
        · exact absurd (stage.symm.trans early) SenderStage.noConfusion
        · exact traced.sent (by simp [stage])
        · simp only [events, List.map_append, List.map_map,
            List.mem_append] at member
          rcases member with earlier | new
          · exact sofar.logged event earlier
          · obtain ⟨same, isNew, rfl⟩ := List.mem_map.mp new
            exact List.mem_append_right _ (List.mem_map_of_mem isNew)
      · obtain ⟨entry, isNew, rfl⟩ := List.mem_map.mp member
        left
        refine ⟨stage, ?_⟩
        obtain ⟨place, event⟩ := entry
        cases event with
        | reported outcome =>
            exact ⟨outcome, List.mem_map.mpr
              ⟨_, List.mem_of_mem_drop isNew, rfl⟩, stores⟩
        | unknown | sent | answered | kept => exact stores.elim
  | settle stage =>
      refine ⟨[], ?_, ?_, silent⟩
      · rw [Stores.trace_settle, List.append_nil]
      · rw [Stores.trace_settle]
        exact traced.still (by simp [stage]) SenderStage.noConfusion rfl
          rfl rfl
  | settleMember member rest stage members =>
      refine ⟨[], ?_, ?_, silent⟩
      · rw [Stores.trace_settle, List.append_nil]
      · rw [Stores.trace_settle]
        exact traced.still (by simp [stage]) (by simp [stage]) rfl rfl rfl
  | complete stage =>
      dsimp only
      split
      · refine ⟨[], (List.append_nil _).symm, ?_, silent⟩
        exact traced.still (by simp [stage]) SenderStage.noConfusion rfl
          rfl rfl
      · refine ⟨_, rfl, ?_, fun effect member row stores => ?_⟩
        · exact (traced.append _).still (by simp [stage])
            SenderStage.noConfusion rfl rfl rfl
        · rw [List.mem_singleton.mp member] at stores
          exact Or.inr (Or.inl ⟨stage, stores⟩)
  | completeMember member rest stage members =>
      refine ⟨_, rfl, ?_, fun effect listed row stores => ?_⟩
      · exact (traced.append _).still (by simp [stage]) (by simp [stage])
          rfl rfl rfl
      · rw [List.mem_singleton.mp listed] at stores
        refine Or.inr (Or.inr ⟨stage, member, ?_, stores⟩)
        simp [Sender.completing, stage, members]

end Sender

/-! ## Runs -/

theorem cutBy_calls
    {condition : Client → ClientStep → Prop} {pipeline : Pipeline}
    {labels : List ClientStep} {client : Client}
    (reached : Runs platform condition pipeline labels client) :
    ∀ call ∈ client.calls, call.CutBy labels := by
  induction reached with
  | nil => exact fun _ member => absurd member List.not_mem_nil
  | @snoc labels before next label _ _ stepped inductionHypothesis =>
      have still : ∀ call : Call, call.stage = .delivering →
          call.CutBy labels := by
        intro call stage ended
        rw [Call.Ended] at ended
        simp only [stage] at ended
      intro later member
      obtain ⟨index, found⟩ := List.mem_iff_getElem?.mp member
      rcases call_of_step found stepped with ⟨input, waits, _, rfl⟩ |
        ⟨call, isCall, rfl | ⟨moved, moves, rfl⟩⟩
      · exact fun ended => ended.elim
      · intro ended
        obtain ⟨cutOff, isResult, cuts⟩ :=
          inductionHypothesis later (List.mem_of_getElem? isCall) ended
        refine ⟨cutOff, isResult, fun message same => ?_⟩
        obtain ⟨place, listed⟩ := cuts message same
        exact ⟨place, List.mem_append_left _ listed⟩
      · exact cutBy_callMoves
          (inductionHypothesis call (List.mem_of_getElem? isCall)) moves

/-- The result of a delivery is told by the trace. -/
theorem told_of_result
    {plan : DeliveryPlan} {system : System ChainTask ChainEvent}
    {cutOff : Option String} {carrier : Signal} {labels : List ClientStep}
    {trace : List Effect} {outcome : ProviderOutcome}
    (replies : Replies (events system))
    (logged : ∀ event ∈ events system, .delivering carrier event ∈ trace)
    (cuts : ∀ message, cutOff = some message → CutWith labels message)
    (listed : outcome ∈ (deliveryResult plan system cutOff).deliveries) :
    outcome.Told carrier labels trace := by
  rcases reported_or_cut listed with reported |
    ⟨message, isMessage, status, isError⟩
  · exact told_of_reported replies logged reported labels
  · rw [ProviderOutcome.Told, status]
    exact ⟨message, isError, Or.inr (cuts message isMessage)⟩

/-- What the client stored so far is true. -/
structure Client.Truthful
    (platform : Platform) (labels : List ClientStep) (client : Client) :
    Prop where
  senders : ∀ sender ∈ client.stores.senders,
    sender.Traced platform client.stores.trace
  stored : ∀ effect ∈ client.stores.trace, ∀ row, effect.Stores row →
    row.Truthful platform labels client

section Step

variable {condition : Client → ClientStep → Prop} {pipeline : Pipeline}
  {labels : List ClientStep} {client next : Client} {label : ClientStep}

/-- What is true stays true. -/
theorem DeliveryRow.Truthful.step
    {row : DeliveryRow} (truthful : row.Truthful platform labels client)
    {more : List Effect}
    (trace : next.stores.trace = client.stores.trace ++ more)
    (stepped : client.step platform label = some next) :
    row.Truthful platform (labels ++ [label]) next := by
  obtain ⟨carrier, carried, told⟩ := truthful
  refine ⟨carrier, ?_, ?_⟩
  · rw [(takes_step stepped).sent]
    refine carried.imp_right ?_
    rintro ⟨closed, listed, sentAs⟩
    exact ⟨closed, List.mem_append_left _ listed, sentAs⟩
  · rw [trace]
    exact told.append [label] more

/-- What a call stores is true. -/
theorem truthful_call
    (reached : Runs platform condition pipeline labels client)
    (stepped : client.step platform label = some next)
    (met : condition client label) {index : Nat} {call : Call}
    {moved : Call × Stores} (found : client.calls[index]? = some call)
    (isNext : next = client.putCall index moved) {row : DeliveryRow}
    (stored : (moved.1.stage = .delivering ∧
        ∃ outcome : ProviderOutcome,
          .reported outcome ∈ events moved.1.system ∧
            row = deliveryRow moved.1.signal outcome) ∨
      (call.stage = .completing ∧ ∃ outcome ∈ call.result.deliveries,
        row = deliveryRow call.signal outcome)) :
    row.Truthful platform (labels ++ [label]) next := by
  have later := reached.snoc met stepped
  rcases stored with ⟨stage, outcome, reported, rfl⟩ |
    ⟨stage, outcome, listed, rfl⟩
  · have member : moved.1 ∈ next.calls := by
      have bound := (List.getElem?_eq_some_iff.mp found).1
      rw [isNext]
      exact List.mem_set bound moved.1
    obtain ⟨_, schedule, delivering⟩ :=
      (sound_calls later _ member).begun stage
    refine ⟨moved.1.signal, Or.inl rfl, ?_⟩
    exact told_of_reported (replies_of_delivering delivering)
      ((vouched_runs later).calls _ member).logged reported _
  · have member := List.mem_of_getElem? found
    have ended : call.Ended := by
      rw [Call.Ended, stage]
      trivial
    obtain ⟨_, ⟨schedule, delivering⟩, _⟩ :=
      (sound_calls reached _ member).ended ended
    obtain ⟨cutOff, isResult, cuts⟩ := cutBy_calls reached _ member ended
    rw [isResult] at listed
    obtain ⟨more, trace, _⟩ := trace_step (vouched_runs reached) stepped
    apply DeliveryRow.Truthful.step _ trace stepped
    exact ⟨call.signal, Or.inl rfl,
      told_of_result (replies_of_delivering delivering)
        ((vouched_runs reached).calls _ member).logged cuts listed⟩

/-- What a group sender stores is true. -/
theorem truthful_sender
    (reached : Runs platform condition pipeline labels client)
    (truthful : client.Truthful platform labels)
    (stepped : client.step platform label = some next)
    (met : condition client label) {index : Nat} {sender : Sender}
    {moved : Sender × Stores}
    (found : client.stores.senders[index]? = some sender)
    (moves : SenderMove platform client.pipeline sender client.stores moved)
    (isNext : next = client.putSender index moved)
    (traced : moved.1.Traced platform moved.2.trace) {row : DeliveryRow}
    (stored : (moved.1.stage = .delivering ∧
        ∃ outcome : ProviderOutcome,
          .reported outcome ∈ events moved.1.system ∧
            row = deliveryRow moved.1.signal outcome) ∨
      (sender.stage = .completing ∧ ∃ outcome ∈ sender.result.deliveries,
        row = deliveryRow sender.signal outcome) ∨
      (sender.stage = .completingMembers ∧
        ∃ member, sender.completing = some member ∧
          ∃ outcome ∈ sender.result.deliveries,
            row = deliveryRow member.signal outcome)) :
    row.Truthful platform (labels ++ [label]) next := by
  have member := List.mem_of_getElem? found
  have later := reached.snoc met stepped
  -- The result of a delivery that is over was reported.
  have results : sender.Ended → ∀ outcome ∈ sender.result.deliveries,
      outcome.Told sender.signal labels client.stores.trace := by
    intro ended outcome listed
    obtain ⟨⟨schedule, delivering⟩, _, isResult⟩ :=
      (sound_senders reached _ member).ended ended
    rw [isResult] at listed
    exact told_of_result (replies_of_delivering delivering)
      (truthful.senders _ member).logged (fun _ same => by cases same)
      listed
  obtain ⟨more, trace, _⟩ := trace_step (vouched_runs reached) stepped
  rcases stored with ⟨stage, outcome, reported, rfl⟩ |
    ⟨stage, outcome, listed, rfl⟩ |
    ⟨stage, held, completing, outcome, listed, rfl⟩
  · have placed : moved.1 ∈ next.stores.senders := by
      have bound := (List.getElem?_eq_some_iff.mp found).1
      rw [isNext, Client.putSender]
      dsimp only
      rw [senders_senderMove moves]
      exact List.mem_set bound moved.1
    obtain ⟨schedule, delivering⟩ :=
      (sound_senders later _ placed).begun stage
    refine ⟨moved.1.signal, Or.inl rfl, ?_⟩
    rw [isNext]
    exact told_of_reported (replies_of_delivering delivering)
      traced.logged reported _
  · apply DeliveryRow.Truthful.step _ trace stepped
    exact ⟨sender.signal, Or.inl rfl,
      results (by simp [Sender.Ended, Sender.Planned, stage]) _ listed⟩
  · have inGroup : held ∈ sender.closed.members := by
      have owed : held ∈ sender.owes := by
        rw [Sender.completing, if_pos stage] at completing
        rw [Sender.owes, stage]
        exact List.mem_of_mem_head? completing
      exact (owesMembers_senders reached _ member held owed).1
    apply DeliveryRow.Truthful.step _ trace stepped
    refine ⟨sender.signal, Or.inr ⟨sender.closed, ?_, ?_, held, inGroup,
      rfl⟩, ?_⟩
    · exact List.mem_map_of_mem member
    · exact (truthful.senders _ member).sent (by simp [stage])
    · exact results (by simp [Sender.Ended, Sender.Planned, stage]) _
        listed

theorem truthful_step
    (reached : Runs platform condition pipeline labels client)
    (truthful : client.Truthful platform labels)
    (met : condition client label)
    (stepped : client.step platform label = some next) :
    next.Truthful platform (labels ++ [label]) := by
  -- A step that stores nothing and moves no sender.
  have still : next.stores.trace = client.stores.trace →
      (∃ closed : List Closed, next.stores.senders =
        client.stores.senders ++ closed.map Sender.start) →
      next.Truthful platform (labels ++ [label]) := by
    rintro same ⟨closed, senders⟩
    have trace : next.stores.trace = client.stores.trace ++ [] := by
      rw [same, List.append_nil]
    refine ⟨fun sender member => ?_, fun effect member row stores => ?_⟩
    · rw [same]
      rw [senders] at member
      rcases List.mem_append.mp member with old | new
      · exact truthful.senders sender old
      · obtain ⟨opened, _, rfl⟩ := List.mem_map.mp new
        exact traced_start opened _
    · rw [same] at member
      exact (truthful.stored effect member row stores).step trace stepped
  rcases step_cases stepped with ⟨input, waits, _, _, isNext⟩ |
    ⟨index, call, moved, found, moves, isNext⟩ |
    ⟨index, sender, moved, found, moves, isNext⟩ | ⟨index, _, elapsed⟩ |
    ⟨_, isNext⟩ | ⟨pipeline, _, isNext⟩
  · apply still
    · rw [isNext]
    · exact ⟨[], by simp [isNext]⟩
  · obtain ⟨more, trace, stored⟩ := stores_callMove moves.move
    obtain ⟨closed, senders⟩ := senders_callMove moves.move
    have sameTrace : next.stores.trace = client.stores.trace ++ more := by
      rw [isNext]
      exact trace
    refine ⟨fun sender member => ?_, fun effect member row stores => ?_⟩
    · rw [sameTrace]
      have isSender : sender ∈ moved.2.senders := by
        rw [isNext] at member
        exact member
      rw [senders] at isSender
      rcases List.mem_append.mp isSender with old | new
      · exact (truthful.senders sender old).append more
      · obtain ⟨opened, _, rfl⟩ := List.mem_map.mp new
        exact traced_start opened _
    · rw [sameTrace] at member
      rcases List.mem_append.mp member with old | new
      · exact (truthful.stored effect old row stores).step sameTrace stepped
      · exact truthful_call reached stepped met found isNext
          (stored effect new row stores)
  · obtain ⟨more, trace, traced, stored⟩ := stores_senderMove
      (truthful.senders _ (List.mem_of_getElem? found))
      (sound_senders reached _ (List.mem_of_getElem? found)).alone
      moves.move
    have sameTrace : next.stores.trace = client.stores.trace ++ more := by
      rw [isNext]
      exact trace
    refine ⟨fun other member => ?_, fun effect member row stores => ?_⟩
    · rw [isNext, Client.putSender] at member
      dsimp only at member
      rw [senders_senderMove moves.move] at member
      rcases List.mem_or_eq_of_mem_set member with old | rfl
      · rw [sameTrace]
        exact (truthful.senders other old).append more
      · rw [isNext]
        exact traced
    · rw [sameTrace] at member
      rcases List.mem_append.mp member with old | new
      · exact (truthful.stored effect old row stores).step sameTrace stepped
      · exact truthful_sender reached truthful stepped met found moves.move
          isNext traced (stored effect new row stores)
  · apply still _ (senders_elapse elapsed)
    obtain ⟨timer, _, rfl⟩ := Option.map_eq_some_iff.mp elapsed
    dsimp only
    split
    · rfl
    · rfl
  · apply still
    · rw [isNext]
      rfl
    · exact ⟨_, by rw [isNext]; rfl⟩
  · apply still
    · rw [isNext]
    · exact ⟨[], by simp [isNext]⟩

end Step

/-! ## Main result -/

/-- In every state of a run: a provider that is stored as delivered took
the signal of the row, or the digest that the signal went out in, and a
failure that is stored is an answer of the provider or the message of a
timeout. -/
theorem stored_outcomes_are_truthful
    {condition : Client → ClientStep → Prop} {pipeline : Pipeline}
    {labels : List ClientStep} {client : Client}
    (reached : Runs platform condition pipeline labels client)
    {id name : String} {row : DeliveryRow}
    (found : client.stores.outcome id name = some row) :
    row.Truthful platform labels client := by
  have truthful : client.Truthful platform labels := by
    clear found
    induction reached with
    | nil =>
        exact
          { senders := fun _ member => absurd member List.not_mem_nil
            stored := fun _ member => absurd member List.not_mem_nil }
    | snoc before met stepped inductionHypothesis =>
        exact truthful_step before inductionHypothesis met stepped
  obtain ⟨effect, member, stores⟩ := stores_of_outcome found
  exact truthful.stored effect member row stores

/-! ## A sample run -/

/-- Two triggers join a group, and their digest is sent. -/
def digestSent : List ClientStep :=
  let joins (index : Nat) (id : String) : List ClientStep :=
    .start (diskInput .trigger) false ::
      List.replicate 7 (.call index { plainMoment with id := id })
  joins 0 "first" ++ joins 1 "second" ++
    .timer 0 :: List.replicate 3 (.sender 0 plainMoment) ++
      List.replicate 3 (.deliverGroup 0 0) ++
        List.replicate 9 (.sender 0 plainMoment)

/-- A member's row says delivered, because its digest was. -/
theorem stored_outcomes_are_truthful_digest :
    ∃ row, (clientAfter heldPipeline digestSent).stores.outcome "first"
        "pagerduty" = some row ∧ row.status = .delivered ∧
      row.Truthful plainPlatform digestSent
        (clientAfter heldPipeline digestSent) := by
  have computed : (((clientAfter heldPipeline digestSent).stores.outcome
      "first" "pagerduty").any fun row =>
        decide (row.status = .delivered)) = true := by
    decide +kernel
  obtain ⟨row, found, delivered⟩ := Option.any_eq_true _ _ |>.mp computed
  refine ⟨row, found, of_decide_eq_true delivered, ?_⟩
  exact stored_outcomes_are_truthful
    (runs_clientAfter (by decide +kernel)) found

end OpsSignal
