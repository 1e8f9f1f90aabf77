import OpsSignal.AlertOrigins
import OpsSignal.OwnDeliveries

/-!
# Who sends what

Whatever the trace says was sent or answered is part of the delivery of a
call or of a group.  The events of a delivery name providers of its plan;
its sends carry the references it looked up, and its answers are those of
the providers.
-/

namespace OpsSignal

open Interleaving LabelledRuns

variable {platform : Platform}

/-! ## What the events of a delivery say -/

section Chain

variable {plan : DeliveryPlan} {providers : Registry}
  {priorRef : String → Option String} {answers : Answers}
  {schedule : List Nat} {system : System ChainTask ChainEvent}

/-- Only providers of the plan are sent to. -/
theorem mem_providers_of_delivering
    (reached :
      Delivering plan providers priorRef answers schedule system)
    {event : ChainEvent} (member : event ∈ events system) :
    event.name ∈ plan.providers := by
  obtain ⟨rest, final, later, carried, finished, same⟩ :=
    exists_delivered reached
  have inFinal : event ∈ events final := by
    rw [same]
    exact List.mem_append_left _ member
  obtain ⟨chain, isTarget, inChain⟩ :=
    name_mem_of_mem_events carried finished inFinal
  exact List.mem_flatten.mpr
    ⟨chain, isTarget, name_mem_of_mem_chainEvents inChain⟩

/-- What a delivery sends with, and what it is answered. -/
structure TrueTo
    (priorRef : String → Option String) (answers : Answers)
    (events : List ChainEvent) : Prop where
  sent : ∀ name prior, .sent name prior ∈ events → prior = priorRef name
  answered : ∀ name answer, .answered name answer ∈ events →
    ∃ attempt, answers name attempt = answer

/-- An answer is one to an attempt. -/
theorem answers_of_answered {task next : ChainTask}
    {now : List ChainEvent}
    (stepped : deliverChain providers priorRef answers task =
      some (next, now)) {name : String} {answer : Answer}
    (answered : .answered name answer ∈ now) :
    ∃ attempt, answers name attempt = answer := by
  cases task with
  | idle rest =>
      cases rest with
      | nil => cases stepped
      | cons head rest =>
          rw [deliverChain] at stepped
          split at stepped
          · cases stepped
            simp at answered
          · cases stepped
            simp at answered
  | calling head attempt rest =>
      cases stepped
      simp at answered
  | sleeping head attempt rest =>
      cases stepped
      exact absurd answered List.not_mem_nil
  | awaiting head attempt rest =>
      cases replied : answers head attempt with
      | ok alertRef =>
          rw [deliverChain, replied] at stepped
          cases stepped
          have same : name = head ∧ answer = .ok alertRef := by
            cases alertRef <;> simpa [keepRef] using answered
          exact ⟨attempt, by rw [same.1, same.2, replied]⟩
      | error e =>
          rw [deliverChain, replied] at stepped
          dsimp only at stepped
          have same : name = head ∧ answer = .error e := by
            split at stepped
            · cases stepped
              simpa using answered
            · cases stepped
              simpa using answered
          exact ⟨attempt, by rw [same.1, same.2, replied]⟩

theorem trueTo_of_delivering
    (reached :
      Delivering plan providers priorRef answers schedule system) :
    TrueTo priorRef answers (events system) := by
  have begins : TrueTo priorRef answers (events (deliverStart plan)) :=
    ⟨fun _ _ member => absurd member List.not_mem_nil,
      fun _ _ member => absurd member List.not_mem_nil⟩
  apply reached.invariant begins
  intro system chain next earlierTrue _ stepped
  obtain ⟨task, moved, now, _, moves, rfl⟩ := advance_eq_some.mp stepped
  have all : events
      { tasks := system.tasks.set chain moved
        log := system.log ++ now.map fun event => (chain, event) } =
      events system ++ now := by
    simp [events, Function.comp_def]
  rw [all]
  constructor
  · intro name prior member
    rcases List.mem_append.mp member with earlier | new
    · exact earlierTrue.sent name prior earlier
    · exact prior_of_sent moves new
  · intro name answer member
    rcases List.mem_append.mp member with earlier | new
    · exact earlierTrue.answered name answer earlier
    · exact answers_of_answered moves new

end Chain

/-! ## Calls -/

/-- A call that sent nothing has nothing in its log. -/
def Call.Unsent (call : Call) : Prop :=
  call.stage = .done → call.plan.targets = [] → call.system = ⟨[], []⟩

/-- Where a call that has done something stands. -/
structure Call.Active (call : Call) : Prop where
  sound : call.Sound
  quiet : call.Quiet
  unsent : call.Unsent

theorem active_callMove
    {call : Call} {stores : Stores} {moved : Call × Stores}
    (active : call.Active) (moves : CallMove platform call stores moved) :
    moved.1.Active where
  sound := sound_callMove active.sound moves
  quiet := quiet_callMove active.quiet moves
  unsent := by
    have sound := sound_callMove active.sound moves
    have before := rank_callMove moves
    intro done empty
    cases moves with
    | leave stage holds noTargets =>
        exact active.quiet (by simp [stage, CallStage.rank])
    | complete stage =>
        have ended : call.Ended := by simp [Call.Ended, stage]
        exact absurd empty (active.sound.ended ended).1
    | prepare moment stage =>
        rw [Call.prepare] at done
        split at done
        · cases done
        · cases done
    | ask entry rest stage routes =>
        rw [Call.plan_, routes] at done
        exact absurd (stage.symm.trans done) CallStage.noConfusion
    | record stage =>
        dsimp only [Call.record] at done
        split at done
        · cases done
        · cases done
    | planned | unsent | send | finish | cut | settle | note => cases done
    | skip _ _ stage | join _ _ _ stage | deliver _ _ stage =>
        exact absurd (stage.symm.trans done) CallStage.noConfusion

theorem active_calls
    {condition : Client → ClientStep → Prop} {pipeline : Pipeline}
    {labels : List ClientStep} {client : Client}
    (reached : Runs platform condition pipeline labels client) :
    ∀ call ∈ client.calls, call.Active := by
  apply calls_keep Call.Active reached
  · intro client input waits valid
    exact
      { sound := sound_newCall client input waits
        quiet := fun _ => rfl
        unsent := fun _ _ => rfl }
  · intro call stores moved
    exact active_callMove

/-- What a call has in its log is from its delivery. -/
theorem Call.Active.underWay
    {call : Call} (active : call.Active) {event : ChainEvent}
    (member : event ∈ events call.system) : call.UnderWay := by
  have loud : call.system ≠ ⟨[], []⟩ := by
    intro silent
    rw [silent] at member
    exact absurd member List.not_mem_nil
  have late : ¬ call.stage.rank < 5 := fun early =>
    loud (active.quiet early)
  by_cases stage : call.stage = .delivering
  · exact (active.sound.begun stage).2
  · have ended : call.Ended := by
      rw [Call.Ended]
      cases isStage : call.stage with
      | settling | noting | completing => trivial
      | done => exact fun empty => loud (active.unsent isStage empty)
      | delivering => exact stage isStage
      | preparing | planning | recording | unsent | holding =>
          rw [isStage] at late
          exact late (by decide)
    exact (active.sound.ended ended).2.1

/-- And so is what a group sender has. -/
theorem underWay_of_event
    {sender : Sender} (sound : sender.Sound) (quiet : sender.Quiet)
    {event : ChainEvent} (member : event ∈ events sender.system) :
    sender.Planned ∧ sender.UnderWay := by
  have loud : sender.system ≠ ⟨[], []⟩ := by
    intro silent
    rw [silent] at member
    exact absurd member List.not_mem_nil
  have planned : sender.Planned :=
    ⟨fun stage => loud (quiet (Or.inl stage)),
      fun stage => loud (quiet (Or.inr (Or.inl stage)))⟩
  have started : sender.stage ≠ .starting :=
    fun stage => loud (quiet (Or.inr (Or.inr stage)))
  refine ⟨planned, ?_⟩
  by_cases stage : sender.stage = .delivering
  · exact sound.begun stage
  · exact (sound.ended ⟨planned, started, stage⟩).1

/-! ## The trace -/

/-- The event is part of the delivery of a call or of a group, for this
signal. -/
def Client.Emitted
    (signal : Signal) (event : ChainEvent) (client : Client) : Prop :=
  (∃ call ∈ client.calls,
      call.signal = signal ∧ event ∈ events call.system) ∨
    ∃ sender ∈ client.stores.senders,
      sender.signal = signal ∧ event ∈ events sender.system

/-- What has been added to a log by a step of one of its tasks. -/
theorem events_advanced {Task Event : Type} {program : Program Task Event}
    {system next : System Task Event} {chain : Nat}
    (advanced : advance program system chain = some next) :
    ∃ now : List (Nat × Event), next.log = system.log ++ now ∧
      next.log.drop system.log.length = now := by
  obtain ⟨task, other, now, _, _, rfl⟩ := advance_eq_some.mp advanced
  exact ⟨_, rfl, List.drop_left⟩

/-- A call keeps what is in its log, and adds to the trace what it adds to
its log. -/
theorem emitted_callMove
    {call : Call} {stores : Stores} {moved : Call × Stores}
    (quiet : call.Quiet) (moves : CallMove platform call stores moved) :
    (∀ event ∈ events call.system,
        moved.1.signal = call.signal ∧ event ∈ events moved.1.system) ∧
      ∃ more, moved.2.trace = stores.trace ++ more ∧
        ∀ signal event, Effect.delivering signal event ∈ more →
          moved.1.signal = signal ∧ event ∈ events moved.1.system := by
  have silent : ∀ signal event, Effect.delivering signal event ∈
      ([] : List Effect) → moved.1.signal = signal ∧
        event ∈ events moved.1.system :=
    fun _ _ member => absurd member List.not_mem_nil
  have early : call.stage.rank < 5 → ∀ event ∈ events call.system,
      moved.1.signal = call.signal ∧ event ∈ events moved.1.system := by
    intro early event member
    rw [quiet early] at member
    exact absurd member List.not_mem_nil
  cases moves with
  | prepare moment stage =>
      exact ⟨early (by simp [stage, CallStage.rank]), [],
        (List.append_nil _).symm, silent⟩
  | ask entry rest stage routes =>
      refine ⟨early (by simp [stage, CallStage.rank]), [], ?_, silent⟩
      rw [Call.plan_, routes]
      exact (List.append_nil _).symm
  | record stage | unsent stage =>
      refine ⟨early (by simp [stage, CallStage.rank]), _, rfl, ?_⟩
      intro signal event member
      exact absurd (List.mem_singleton.mp member) Effect.noConfusion
  | complete stage =>
      refine ⟨fun event member => ⟨rfl, member⟩, _, rfl, ?_⟩
      intro signal event member
      exact absurd (List.mem_singleton.mp member) Effect.noConfusion
  | send stage holds nonempty =>
      exact ⟨early (by simp [stage, CallStage.rank]), [],
        (List.append_nil _).symm, silent⟩
  | join route entry rest stage holds listed =>
      refine ⟨fun event member => ⟨rfl, member⟩, [], ?_, silent⟩
      rw [List.append_nil]
      exact (stores.hold_facts platform route
        ⟨call.signal, (call.admission.splitOff platform route).2,
          call.plan.targets.isEmpty⟩).2.2.1
  | settle stage =>
      refine ⟨fun event member => ⟨rfl, member⟩, [], ?_, silent⟩
      rw [Stores.trace_settle, List.append_nil]
  | deliver chain system stage advanced =>
      obtain ⟨now, log, dropped⟩ := events_advanced advanced
      refine ⟨fun event member => ⟨rfl, ?_⟩, _, rfl, ?_⟩
      · rw [events, log, List.map_append]
        exact List.mem_append_left _ member
      · intro signal event member
        rw [dropped] at member
        obtain ⟨entry, isNew, same⟩ := List.mem_map.mp member
        rw [Effect.delivering.injEq] at same
        refine ⟨same.1, ?_⟩
        rw [events, log, ← same.2]
        exact List.mem_map_of_mem (List.mem_append_right _ isNew)
  | planned | leave | skip | finish | cut | note =>
      exact ⟨fun event member => ⟨rfl, member⟩, [],
        (List.append_nil _).symm, silent⟩

/-- The same for a group sender. -/
theorem emitted_senderMove
    {pipeline : Pipeline} {sender : Sender} {stores : Stores}
    {moved : Sender × Stores} (quiet : sender.Quiet)
    (moves : SenderMove platform pipeline sender stores moved) :
    (∀ event ∈ events sender.system,
        moved.1.signal = sender.signal ∧ event ∈ events moved.1.system) ∧
      ∃ more, moved.2.trace = stores.trace ++ more ∧
        ∀ signal event, Effect.delivering signal event ∈ more →
          moved.1.signal = signal ∧ event ∈ events moved.1.system := by
  have silent : ∀ signal event, Effect.delivering signal event ∈
      ([] : List Effect) → moved.1.signal = signal ∧
        event ∈ events moved.1.system :=
    fun _ _ member => absurd member List.not_mem_nil
  have single : ∀ effect : Effect,
      (∀ signal event, effect ≠ .delivering signal event) →
        ∀ signal event, Effect.delivering signal event ∈ [effect] →
          moved.1.signal = signal ∧ event ∈ events moved.1.system :=
    fun effect other signal event member =>
      absurd (List.mem_singleton.mp member).symm (other signal event)
  cases moves with
  | open_ moment stage =>
      have none_ : ∀ event, event ∉ events sender.system := by
        intro event
        rw [quiet (Or.inl stage)]
        exact List.not_mem_nil
      refine ⟨fun event member => absurd member (none_ event), ?_⟩
      revert single silent
      rw [Sender.open_]
      split
      · exact fun silent _ => ⟨[], (List.append_nil _).symm, silent⟩
      · exact fun _ single => ⟨_, rfl, single _ fun _ _ =>
          Effect.noConfusion⟩
  | start stage =>
      refine ⟨fun event member => ?_, [], (List.append_nil _).symm, silent⟩
      rw [quiet (Or.inr (Or.inr stage))] at member
      exact absurd member List.not_mem_nil
  | deliver chain system stage advanced =>
      obtain ⟨now, log, dropped⟩ := events_advanced advanced
      refine ⟨fun event member => ⟨rfl, ?_⟩, _, rfl, ?_⟩
      · rw [events, log, List.map_append]
        exact List.mem_append_left _ member
      · intro signal event member
        rw [dropped] at member
        obtain ⟨entry, isNew, same⟩ := List.mem_map.mp member
        rw [Effect.delivering.injEq] at same
        refine ⟨same.1, ?_⟩
        rw [events, log, ← same.2]
        exact List.mem_map_of_mem (List.mem_append_right _ isNew)
  | settle stage | settleMember member rest stage members =>
      refine ⟨fun event member => ⟨rfl, member⟩, [], ?_, silent⟩
      rw [Stores.trace_settle, List.append_nil]
  | complete stage =>
      refine ⟨fun event member => ⟨rfl, member⟩, ?_⟩
      dsimp only
      split
      · exact ⟨[], (List.append_nil _).symm, silent⟩
      · exact ⟨_, rfl, single _ fun _ _ => Effect.noConfusion⟩
  | completeMember member rest stage members =>
      exact ⟨fun event member => ⟨rfl, member⟩, _, rfl,
        single _ fun _ _ => Effect.noConfusion⟩
  | gate | finish | settled | completed =>
      exact ⟨fun event member => ⟨rfl, member⟩, [],
        (List.append_nil _).symm, silent⟩

section Step

variable {client next : Client} {label : ClientStep}

/-- A step keeps what was emitted, and what it adds to the trace is
emitted. -/
theorem emitted_step
    (quietCalls : ∀ call ∈ client.calls, call.Quiet)
    (quietSenders : ∀ sender ∈ client.stores.senders, sender.Quiet)
    (emitted : ∀ signal event,
      .delivering signal event ∈ client.stores.trace →
        client.Emitted signal event)
    (stepped : client.step platform label = some next) :
    ∀ signal event, .delivering signal event ∈ next.stores.trace →
      next.Emitted signal event := by
  -- Whatever stands in a log before the step stands in it afterwards.
  have keeps : ∀ signal event, client.Emitted signal event →
      next.Emitted signal event := by
    rintro signal event (⟨call, member, same, logged⟩ |
      ⟨sender, member, same, logged⟩)
    · left
      obtain ⟨index, found⟩ := List.mem_iff_getElem?.mp member
      obtain ⟨later, isLater, unchanged | ⟨moved, moves, rfl⟩⟩ :=
        call_step found stepped
      · exact ⟨later, List.mem_of_getElem? isLater,
          unchanged ▸ same, unchanged ▸ logged⟩
      · obtain ⟨kept, _⟩ :=
          emitted_callMove (quietCalls call member) moves.move
        obtain ⟨signed, still⟩ := kept event logged
        exact ⟨moved.1, List.mem_of_getElem? isLater, signed.trans same,
          still⟩
    · right
      obtain ⟨index, found⟩ := List.mem_iff_getElem?.mp member
      obtain ⟨later, isLater, unchanged | ⟨moved, moves, rfl⟩⟩ :=
        sender_step found stepped
      · exact ⟨later, List.mem_of_getElem? isLater,
          unchanged ▸ same, unchanged ▸ logged⟩
      · obtain ⟨kept, _⟩ :=
          emitted_senderMove (quietSenders sender member) moves.move
        obtain ⟨signed, still⟩ := kept event logged
        exact ⟨moved.1, List.mem_of_getElem? isLater, signed.trans same,
          still⟩
  have old : ∀ signal event,
      .delivering signal event ∈ client.stores.trace →
        next.Emitted signal event :=
    fun signal event member => keeps signal event
      (emitted signal event member)
  rcases step_cases stepped with ⟨input, waits, rfl, valid, rfl⟩ |
    ⟨index, call, moved, found, moves, rfl⟩ |
    ⟨index, sender, moved, found, moves, rfl⟩ | ⟨index, rfl, elapsed⟩ |
    ⟨rfl, rfl⟩ | ⟨pipeline, rfl, rfl⟩
  · exact old
  · intro signal event member
    have isCall := List.mem_of_getElem? found
    obtain ⟨_, more, trace, new⟩ :=
      emitted_callMove (quietCalls call isCall) moves.move
    change _ ∈ moved.2.trace at member
    rw [trace] at member
    rcases List.mem_append.mp member with earlier | added
    · exact old signal event earlier
    · obtain ⟨same, logged⟩ := new signal event added
      refine Or.inl ⟨moved.1, ?_, same, logged⟩
      exact List.mem_set (List.getElem?_eq_some_iff.mp found).1 moved.1
  · intro signal event member
    have isSender := List.mem_of_getElem? found
    obtain ⟨_, more, trace, new⟩ :=
      emitted_senderMove (quietSenders sender isSender) moves.move
    change _ ∈ moved.2.trace at member
    rw [trace] at member
    rcases List.mem_append.mp member with earlier | added
    · exact old signal event earlier
    · obtain ⟨same, logged⟩ := new signal event added
      refine Or.inr ⟨moved.1, ?_, same, logged⟩
      change moved.1 ∈ moved.2.senders.set index moved.1
      rw [senders_senderMove moves.move]
      exact List.mem_set (List.getElem?_eq_some_iff.mp found).1 moved.1
  · intro signal event member
    obtain ⟨timer, _, rfl⟩ := Option.map_eq_some_iff.mp elapsed
    apply old signal event
    dsimp only at member
    split at member
    · exact member
    · exact member
  · exact old
  · exact old

end Step

/-- In every state of a run, what went out is part of the delivery of a
call or of a group. -/
theorem emitted_runs
    {condition : Client → ClientStep → Prop} {pipeline : Pipeline}
    {labels : List ClientStep} {client : Client}
    (reached : Runs platform condition pipeline labels client) :
    ∀ signal event, .delivering signal event ∈ client.stores.trace →
      client.Emitted signal event := by
  induction reached with
  | nil => exact fun _ _ member => absurd member List.not_mem_nil
  | snoc before _ stepped inductionHypothesis =>
      exact emitted_step (quiet_calls before) (quiet_senders before)
        inductionHypothesis stepped

end OpsSignal
