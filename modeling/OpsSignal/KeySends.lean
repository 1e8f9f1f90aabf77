import OpsSignal.AlertSends

/-!
# The sends of a key in the trace

Which provider was sent what under a dedup key, and by whom: a step adds
sends of one call that is delivering, or of one group.
-/

namespace OpsSignal

open Interleaving LabelledRuns

variable {platform : Platform}

/-- A provider is sent a signal with this key and action. -/
def Effect.sends (key : String) (action : Action) (name : String) :
    Effect → Bool
  | .delivering signal (.sent other _) =>
      decide (signal.dedupKey = some key) &&
        decide (signal.action = action) && other == name
  | _ => false

theorem sends_delivering
    {key : String} {action : Action} {name : String} {signal : Signal}
    {event : ChainEvent} :
    (Effect.delivering signal event).sends key action name = true ↔
      signal.dedupKey = some key ∧ signal.action = action ∧
        (event.isSend && event.name == name) = true := by
  cases event with
  | sent other prior =>
      simp [Effect.sends, ChainEvent.isSend, ChainEvent.name, and_assoc]
  | unknown | reported | answered | kept =>
      simp [Effect.sends, ChainEvent.isSend]

/-- The call has sent to the provider. -/
def Call.SentTo (name : String) (call : Call) : Prop :=
  wasTried name (events call.system) = true

/-- What a move of a call adds to the trace, and to its own sends. -/
structure Call.Adds (call later : Call) (more : List Effect) : Prop where
  own : ∀ effect ∈ more, ∀ key action name,
    effect.sends key action name = true →
      call.stage = .delivering ∧ call.signal.dedupKey = some key ∧
        call.signal.action = action ∧ later.SentTo name
  kept : ∀ name, call.SentTo name → later.SentTo name
  new : ∀ name, later.SentTo name →
    call.SentTo name ∨ ∃ effect ∈ more, ∀ key,
      call.signal.dedupKey = some key →
        effect.sends key call.signal.action name = true

section Call

variable {call later : Call} {stores : Stores} {moved : Call × Stores}

/-- A move that sends nothing. -/
theorem adds_of_same
    {more : List Effect} (system : later.system = call.system)
    (silent : ∀ effect ∈ more, ∀ key action name,
      effect.sends key action name = false) :
    call.Adds later more where
  own effect member key action name sent := by
    rw [silent effect member] at sent
    cases sent
  kept name sent := by
    rw [Call.SentTo, system]
    exact sent
  new name sent := by
    rw [Call.SentTo, system] at sent
    exact Or.inl sent

/-- What a move that sends nothing leaves in the trace. -/
private theorem adds_single
    (system : later.system = call.system) {effect : Effect}
    (silent : ∀ key action name, effect.sends key action name = false) :
    call.Adds later [effect] := by
  apply adds_of_same system
  intro other member
  rw [List.mem_singleton.mp member]
  exact silent

theorem adds_deliver
    {chain : Nat} {system : System ChainTask ChainEvent}
    (stage : call.stage = .delivering)
    (advanced : advance call.program call.system chain = some system) :
    call.Adds { call with system := system }
      ((system.log.drop call.system.log.length).map fun entry =>
        .delivering call.signal entry.2) := by
  obtain ⟨task, other, now, _, _, rfl⟩ := advance_eq_some.mp advanced
  dsimp only
  rw [List.drop_left, List.map_map]
  have all : events
      { tasks := call.system.tasks.set chain other
        log := call.system.log ++ now.map fun event => (chain, event) } =
      events call.system ++ now := by
    simp [events, Function.comp_def]
  constructor
  · intro effect member key action name sent
    obtain ⟨event, isNew, rfl⟩ := List.mem_map.mp member
    obtain ⟨keyed, acts, sends⟩ := sends_delivering.mp sent
    refine ⟨stage, keyed, acts, ?_⟩
    rw [Call.SentTo, all, wasTried, List.any_append, Bool.or_eq_true]
    exact Or.inr (List.any_eq_true.mpr ⟨event, isNew, sends⟩)
  · intro name sent
    rw [Call.SentTo, all, wasTried, List.any_append, Bool.or_eq_true]
    exact Or.inl sent
  · intro name sent
    rw [Call.SentTo, all, wasTried, List.any_append, Bool.or_eq_true] at sent
    refine sent.imp_right fun inNew => ?_
    obtain ⟨event, isNew, sends⟩ := List.any_eq_true.mp inNew
    refine ⟨_, List.mem_map.mpr ⟨event, isNew, rfl⟩, ?_⟩
    intro key keyed
    exact sends_delivering.mpr ⟨keyed, rfl, sends⟩

theorem adds_callMove
    (unsent : call.stage.rank ≤ 4 → call.system.log = [])
    (moves : CallMove platform call stores moved) :
    ∃ more, moved.2.trace = stores.trace ++ more ∧
      call.Adds moved.1 more := by
  have silent : ∀ effect ∈ ([] : List Effect), ∀ key action name,
      effect.sends key action name = false :=
    fun _ member => absurd member List.not_mem_nil
  cases moves with
  | prepare moment stage =>
      refine ⟨[], (List.append_nil _).symm, adds_of_same ?_ silent⟩
      rw [Call.prepare]
      split
      · rfl
      · rfl
  | ask entry rest stage routes =>
      rw [Call.plan_, routes]
      exact ⟨[], (List.append_nil _).symm, adds_of_same rfl silent⟩
  | record stage =>
      refine ⟨_, rfl, adds_single ?_ fun _ _ _ => rfl⟩
      rfl
  | unsent stage =>
      refine ⟨_, rfl, adds_single ?_ fun _ _ _ => rfl⟩
      rfl
  | complete stage =>
      refine ⟨_, rfl, adds_single ?_ fun _ _ _ => rfl⟩
      rfl
  | send stage holds nonempty =>
      have none := unsent (by simp [stage, CallStage.rank])
      refine ⟨[], (List.append_nil _).symm, ?_, ?_, ?_⟩
      · exact fun _ member => absurd member List.not_mem_nil
      · intro name sent
        simp [Call.SentTo, events, none, wasTried] at sent
      · intro name sent
        simp [Call.SentTo, events, deliverStart, initial, wasTried] at sent
  | join route entry rest stage holds listed =>
      refine ⟨[], ?_, adds_of_same rfl silent⟩
      rw [(stores.hold_facts platform route _).2.2.1, List.append_nil]
  | settle stage =>
      refine ⟨[], ?_, adds_of_same rfl silent⟩
      rw [Stores.trace_settle, List.append_nil]
  | deliver chain system stage advanced =>
      exact ⟨_, rfl, adds_deliver stage advanced⟩
  | planned | leave | skip | finish | cut | note =>
      exact ⟨[], (List.append_nil _).symm, adds_of_same rfl silent⟩

end Call

section Sender

variable {pipeline : Pipeline} {sender : Sender} {stores : Stores}
  {moved : Sender × Stores}

/-- Only a group that is delivering sends. -/
theorem sends_senderMove
    (moves : SenderMove platform pipeline sender stores moved) :
    ∃ more, moved.2.trace = stores.trace ++ more ∧
      ∀ effect ∈ more, ∀ key action name,
        effect.sends key action name = true →
          sender.stage = .delivering ∧ sender.signal.dedupKey = some key ∧
            sender.signal.action = action := by
  cases moves with
  | open_ moment stage =>
      rw [Sender.open_]
      split
      · exact ⟨[], (List.append_nil _).symm,
          fun _ member => absurd member List.not_mem_nil⟩
      · refine ⟨_, rfl, fun effect member key action name sent => ?_⟩
        rw [List.mem_singleton.mp member] at sent
        cases sent
  | deliver chain system stage advanced =>
      refine ⟨_, rfl, fun effect member key action name sent => ?_⟩
      obtain ⟨entry, _, rfl⟩ := List.mem_map.mp member
      obtain ⟨keyed, acts, _⟩ := sends_delivering.mp sent
      exact ⟨stage, keyed, acts⟩
  | settle stage =>
      refine ⟨[], ?_, fun _ member => absurd member List.not_mem_nil⟩
      rw [Stores.trace_settle, List.append_nil]
  | settleMember member rest stage members =>
      refine ⟨[], ?_, fun _ member => absurd member List.not_mem_nil⟩
      rw [Stores.trace_settle, List.append_nil]
  | complete stage =>
      dsimp only
      split
      · exact ⟨[], (List.append_nil _).symm,
          fun _ member => absurd member List.not_mem_nil⟩
      · refine ⟨_, rfl, fun effect member key action name sent => ?_⟩
        rw [List.mem_singleton.mp member] at sent
        cases sent
  | completeMember member rest stage members =>
      refine ⟨_, rfl, fun effect listed key action name sent => ?_⟩
      rw [List.mem_singleton.mp listed] at sent
      cases sent
  | gate | start | finish | settled | completed =>
      exact ⟨[], (List.append_nil _).symm,
          fun _ member => absurd member List.not_mem_nil⟩

end Sender

/-! ## Steps of the client -/

/-- What a step of the client adds to the trace. -/
structure Client.Adds (client next : Client) (more : List Effect) : Prop where
  trace : next.stores.trace = client.stores.trace ++ more
  own : ∀ effect ∈ more, ∀ key action name,
    effect.sends key action name = true →
      (∃ (index : Nat) (call later : Call),
        client.calls[index]? = some call ∧
          next.calls[index]? = some later ∧
          call.stage = .delivering ∧ call.signal.dedupKey = some key ∧
          call.signal.action = action ∧ later.SentTo name) ∨
        ∃ sender ∈ client.stores.senders, sender.stage = .delivering ∧
          sender.signal.dedupKey = some key ∧ sender.signal.action = action
  calls : ∀ (index : Nat) (call later : Call),
    client.calls[index]? = some call → next.calls[index]? = some later →
      (∀ name, call.SentTo name → later.SentTo name) ∧
        ∀ name, later.SentTo name →
          call.SentTo name ∨ ∃ effect ∈ more, ∀ key,
            call.signal.dedupKey = some key →
              effect.sends key call.signal.action name = true

variable {client next : Client} {label : ClientStep}

/-- A step that moves no call. -/
theorem adds_of_calls
    {more : List Effect} (calls : next.calls = client.calls)
    (trace : next.stores.trace = client.stores.trace ++ more)
    (own : ∀ effect ∈ more, ∀ key action name,
      effect.sends key action name = true →
        ∃ sender ∈ client.stores.senders, sender.stage = .delivering ∧
          sender.signal.dedupKey = some key ∧
            sender.signal.action = action) :
    client.Adds next more where
  trace := trace
  own effect member key action name sent :=
    Or.inr (own effect member key action name sent)
  calls index call later found isLater := by
    rw [calls, found] at isLater
    cases isLater
    exact ⟨fun _ sent => sent, fun _ sent => Or.inl sent⟩

theorem adds_step
    (unsent : ∀ call ∈ client.calls, call.stage.rank ≤ 4 →
      call.system.log = [])
    (stepped : client.step platform label = some next) :
    ∃ more, client.Adds next more := by
  have silent : ∀ effect ∈ ([] : List Effect), ∀ key action name,
      effect.sends key action name = true →
        ∃ sender ∈ client.stores.senders, sender.stage = .delivering ∧
          sender.signal.dedupKey = some key ∧
            sender.signal.action = action :=
    fun _ member => absurd member List.not_mem_nil
  rcases step_cases stepped with ⟨input, waits, rfl, _, rfl⟩ |
    ⟨index, call, moved, found, moves, rfl⟩ |
    ⟨index, sender, moved, found, moves, rfl⟩ | ⟨index, rfl, elapsed⟩ |
    ⟨rfl, rfl⟩ | ⟨pipeline, rfl, rfl⟩
  · refine ⟨[], (List.append_nil _).symm,
      fun _ member => absurd member List.not_mem_nil, ?_⟩
    intro index call later found isLater
    have bound := (List.getElem?_eq_some_iff.mp found).1
    dsimp only at isLater
    rw [List.getElem?_append_left bound, found] at isLater
    cases isLater
    exact ⟨fun _ sent => sent, fun _ sent => Or.inl sent⟩
  · obtain ⟨more, trace, adds⟩ :=
      adds_callMove (unsent call (List.mem_of_getElem? found)) moves.move
    have here : (client.putCall index moved).calls[index]? =
        some moved.1 := by
      have bound := (List.getElem?_eq_some_iff.mp found).1
      rw [Client.putCall, List.getElem?_set_self bound]
    refine ⟨more, trace, ?_, ?_⟩
    · intro effect member key action name sent
      obtain ⟨stage, keyed, acts, sentTo⟩ :=
        adds.own effect member key action name sent
      exact Or.inl ⟨index, call, moved.1, found, here, stage, keyed, acts,
        sentTo⟩
    · intro other another later isOther isLater
      by_cases same : index = other
      · subst same
        cases found.symm.trans isOther
        cases here.symm.trans isLater
        exact ⟨adds.kept, adds.new⟩
      · rw [Client.putCall] at isLater
        dsimp only at isLater
        rw [List.getElem?_set_ne same, isOther] at isLater
        cases isLater
        exact ⟨fun _ sent => sent, fun _ sent => Or.inl sent⟩
  · obtain ⟨more, trace, own⟩ := sends_senderMove moves.move
    refine ⟨more, adds_of_calls rfl trace ?_⟩
    intro effect member key action name sent
    exact ⟨sender, List.mem_of_getElem? found,
      own effect member key action name sent⟩
  · obtain ⟨timer, _, rfl⟩ := Option.map_eq_some_iff.mp elapsed
    refine ⟨[], adds_of_calls ?_ ?_ silent⟩
    · dsimp only
      split
      · rfl
      · rfl
    · rw [List.append_nil]
      dsimp only
      split
      · rfl
      · rfl
  · exact ⟨[], adds_of_calls rfl (List.append_nil _).symm silent⟩
  · exact ⟨[], adds_of_calls rfl (List.append_nil _).symm silent⟩

end OpsSignal
