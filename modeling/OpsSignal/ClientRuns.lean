import OpsSignal.ClientSteps
import OpsSignal.DeliveryOutcome
import OpsSignal.Lib.LabelledRuns
import OpsSignal.LifecycleCalls
import OpsSignal.RoutingPlan

/-!
# What the calls and senders of a run keep

A property of one call that a new call has and that its steps keep is a
property of every call of every run, and the same holds for the group
senders.  From this: how far the delivery of a call or a group has come,
and where its result is from.
-/

namespace OpsSignal

open FirstMention Interleaving LabelledRuns

variable {platform : Platform}

/-- The runs of a client that has just been built. -/
abbrev Runs
    (platform : Platform) (condition : Client → ClientStep → Prop)
    (pipeline : Pipeline) (labels : List ClientStep) (client : Client) :
    Prop :=
  Reaches (Client.step platform) condition (Client.fromPipeline pipeline)
    labels client

/-! ## The rules -/

section Rules

variable {client next : Client} {label : ClientStep}

/-- The senders after a move of a call are those before it, and new
ones. -/
theorem senders_callMove
    {call : Call} {stores : Stores} {moved : Call × Stores}
    (moves : CallMove platform call stores moved) :
    ∃ closed : List Closed,
      moved.2.senders = stores.senders ++ closed.map Sender.start := by
  cases moves with
  | ask entry rest stage routes =>
      refine ⟨[], ?_⟩
      rw [Call.plan_, routes]
      simp
  | join route entry rest stage holds listed =>
      exact ⟨_, (stores.hold_facts platform _ _).2.2.2.2⟩
  | settle stage => exact ⟨[], by simp⟩
  | prepare | planned | record | unsent | leave | send | skip | finish
  | cut | deliver | note | complete =>
      exact ⟨[], by simp [Call.record, Call.settleUnsent]⟩

theorem senders_senderMove
    {pipeline : Pipeline} {sender : Sender} {stores : Stores}
    {moved : Sender × Stores}
    (moves : SenderMove platform pipeline sender stores moved) :
    moved.2.senders = stores.senders := by
  cases moves with
  | open_ moment stage =>
      rw [Sender.open_]
      split
      · rfl
      · rfl
  | settle stage => exact stores.senders_settle _ _
  | settleMember member rest stage members =>
      exact stores.senders_settle _ _
  | complete stage =>
      dsimp only
      split
      · rfl
      · rfl
  | gate | start | deliver | finish | settled | completeMember
  | completed => rfl

/-- Only a call that joins its groups changes them. -/
theorem groups_callMove
    {call : Call} {stores : Stores} {moved : Call × Stores}
    (notHolding : call.stage ≠ .holding)
    (moves : CallMove platform call stores moved) :
    moved.2.groups = stores.groups ∧ moved.2.senders = stores.senders := by
  cases moves with
  | ask entry rest stage routes =>
      rw [Call.plan_, routes]
      exact ⟨rfl, rfl⟩
  | leave stage | send stage | skip _ _ stage | join _ _ _ stage =>
      exact absurd stage notHolding
  | settle stage =>
      exact ⟨stores.groups_settle _ _, stores.senders_settle _ _⟩
  | prepare | planned | record | unsent | finish | cut | deliver | note
  | complete => exact ⟨rfl, rfl⟩

theorem groups_senderMove
    {pipeline : Pipeline} {sender : Sender} {stores : Stores}
    {moved : Sender × Stores}
    (moves : SenderMove platform pipeline sender stores moved) :
    moved.2.groups = stores.groups := by
  cases moves with
  | open_ moment stage =>
      rw [Sender.open_]
      split
      · rfl
      · rfl
  | settle stage => exact stores.groups_settle _ _
  | settleMember member rest stage members =>
      exact stores.groups_settle _ _
  | complete stage =>
      dsimp only
      split
      · rfl
      · rfl
  | gate | start | deliver | finish | settled | completeMember
  | completed => rfl

/-- A sender keeps its group. -/
theorem closed_senderMove
    {pipeline : Pipeline} {sender : Sender} {stores : Stores}
    {moved : Sender × Stores}
    (moves : SenderMove platform pipeline sender stores moved) :
    moved.1.closed = sender.closed := by
  cases moves with
  | open_ moment stage =>
      rw [Sender.open_]
      split
      · rfl
      · rfl
  | gate | start | deliver | finish | settle | settleMember | settled
  | complete | completeMember | completed => rfl

/-- The senders after a move of one of them have the same groups. -/
theorem closed_putSender
    {index : Nat} {sender : Sender} {moved : Sender × Stores}
    (found : client.stores.senders[index]? = some sender)
    (moves : SenderMove platform client.pipeline sender client.stores
      moved) :
    (client.putSender index moved).stores.senders.map Sender.closed =
      client.stores.senders.map Sender.closed := by
  have same : (client.stores.senders.map Sender.closed)[index]? =
      some moved.1.closed := by
    rw [List.getElem?_map, found, closed_senderMove moves]
    rfl
  obtain ⟨_, here⟩ := List.getElem?_eq_some_iff.mp same
  rw [Client.putSender, senders_senderMove moves, List.map_set, ← here]
  exact List.set_getElem_self _

/-- A call keeps the pipeline that it took. -/
theorem pipeline_callMove
    {call : Call} {stores : Stores} {moved : Call × Stores}
    (moves : CallMove platform call stores moved) :
    moved.1.pipeline = call.pipeline := by
  cases moves with
  | prepare moment stage =>
      rw [Call.prepare]
      split
      · rfl
      · rfl
  | ask entry rest stage routes =>
      rw [Call.plan_, routes]
  | planned | record | unsent | leave | send | skip | join | finish | cut
  | deliver | settle | note | complete => rfl

theorem input_callMove
    {call : Call} {stores : Stores} {moved : Call × Stores}
    (moves : CallMove platform call stores moved) :
    moved.1.input = call.input := by
  cases moves with
  | prepare moment stage =>
      rw [Call.prepare]
      split
      · rfl
      · rfl
  | ask entry rest stage routes =>
      rw [Call.plan_, routes]
  | planned | record | unsent | leave | send | skip | join | finish | cut
  | deliver | settle | note | complete => rfl

theorem senders_elapse
    {index : Nat} (elapsed : client.elapse index = some next) :
    ∃ closed : List Closed, next.stores.senders =
      client.stores.senders ++ closed.map Sender.start := by
  obtain ⟨timer, _, rfl⟩ := Option.map_eq_some_iff.mp elapsed
  dsimp only
  split
  · exact ⟨[], by simp⟩
  · exact ⟨_, rfl⟩

/-- Where the calls after a step are from. -/
theorem call_of_step
    {index : Nat} {later : Call} (found : next.calls[index]? = some later)
    (stepped : client.step platform label = some next) :
    (∃ input waits, validate input = .ok () ∧
        later = client.newCall platform input waits) ∨
      ∃ call, client.calls[index]? = some call ∧
        (later = call ∨ ∃ moved,
          CallMoves platform label index call client.stores moved ∧
            later = moved.1) := by
  rcases step_cases stepped with ⟨input, waits, rfl, valid, rfl⟩ |
    ⟨other, call, moved, isCall, moves, rfl⟩ |
    ⟨other, sender, moved, _, moves, rfl⟩ | ⟨other, rfl, elapsed⟩ |
    ⟨rfl, rfl⟩ | ⟨pipeline, rfl, rfl⟩
  · dsimp only at found
    rw [List.getElem?_append] at found
    split at found
    · exact Or.inr ⟨later, found, Or.inl rfl⟩
    · left
      have listed := List.mem_of_getElem? found
      exact ⟨input, waits, valid, List.mem_singleton.mp listed⟩
  · rw [Client.putCall, List.getElem?_set] at found
    right
    split at found
    · rename_i same
      subst same
      split at found
      · cases found
        exact ⟨call, isCall, Or.inr ⟨moved, moves, rfl⟩⟩
      · cases found
    · exact ⟨later, found, Or.inl rfl⟩
  · exact Or.inr ⟨later, found, Or.inl rfl⟩
  · obtain ⟨timer, _, rfl⟩ := Option.map_eq_some_iff.mp elapsed
    refine Or.inr ⟨later, ?_, Or.inl rfl⟩
    dsimp only at found
    split at found
    · exact found
    · exact found
  · exact Or.inr ⟨later, found, Or.inl rfl⟩
  · exact Or.inr ⟨later, found, Or.inl rfl⟩

theorem mem_calls_step {kept : Call → Prop}
    (begins : ∀ client : Client, ∀ input waits, validate input = .ok () →
      kept (client.newCall platform input waits))
    (moves : ∀ call stores moved, kept call →
      CallMove platform call stores moved → kept moved.1)
    (all : ∀ call ∈ client.calls, kept call)
    (stepped : client.step platform label = some next) :
    ∀ call ∈ next.calls, kept call := by
  intro later member
  obtain ⟨index, found⟩ := List.mem_iff_getElem?.mp member
  rcases call_of_step found stepped with ⟨input, waits, valid, rfl⟩ |
    ⟨call, isCall, same | ⟨moved, move, rfl⟩⟩
  · exact begins client input waits valid
  · rw [same]
    exact all call (List.mem_of_getElem? isCall)
  · exact moves call client.stores moved
      (all call (List.mem_of_getElem? isCall)) move.move

/-- Where the senders after a step are from. -/
theorem sender_of_step
    {index : Nat} {later : Sender}
    (found : next.stores.senders[index]? = some later)
    (stepped : client.step platform label = some next) :
    (∃ closed, later = Sender.start closed) ∨
      ∃ sender, client.stores.senders[index]? = some sender ∧
        (later = sender ∨ ∃ moved,
          SenderMoves platform label index client.pipeline sender
            client.stores moved ∧ later = moved.1) := by
  have split : ∀ closed : List Closed,
      (client.stores.senders ++ closed.map Sender.start)[index]? =
          some later →
        (∃ closed, later = Sender.start closed) ∨
          client.stores.senders[index]? = some later := by
    intro closed found
    rw [List.getElem?_append] at found
    split at found
    · exact Or.inr found
    · obtain ⟨opened, _, rfl⟩ :=
        List.mem_map.mp (List.mem_of_getElem? found)
      exact Or.inl ⟨opened, rfl⟩
  have kept : (∃ closed, later = Sender.start closed) ∨
      client.stores.senders[index]? = some later →
        (∃ closed, later = Sender.start closed) ∨
          ∃ sender, client.stores.senders[index]? = some sender ∧
            (later = sender ∨ ∃ moved,
              SenderMoves platform label index client.pipeline sender
                client.stores moved ∧ later = moved.1) :=
    Or.imp_right fun old => ⟨later, old, Or.inl rfl⟩
  rcases step_cases stepped with ⟨input, waits, rfl, _, rfl⟩ |
    ⟨other, call, moved, _, moves, rfl⟩ |
    ⟨other, sender, moved, isSender, moves, rfl⟩ | ⟨other, rfl, elapsed⟩ |
    ⟨rfl, rfl⟩ | ⟨pipeline, rfl, rfl⟩
  · exact kept (Or.inr found)
  · obtain ⟨closed, same⟩ := senders_callMove moves.move
    rw [Client.putCall, same] at found
    exact kept (split closed found)
  · rw [Client.putSender, senders_senderMove moves.move,
      List.getElem?_set] at found
    split at found
    · rename_i same
      subst same
      split at found
      · cases found
        exact Or.inr ⟨sender, isSender, Or.inr ⟨moved, moves, rfl⟩⟩
      · cases found
    · exact kept (Or.inr found)
  · obtain ⟨closed, same⟩ := senders_elapse elapsed
    rw [same] at found
    exact kept (split closed found)
  · exact kept (split _ found)
  · exact kept (Or.inr found)

theorem mem_senders_step {kept : Sender → Prop}
    (begins : ∀ closed, kept (Sender.start closed))
    (moves : ∀ pipeline sender stores moved, kept sender →
      SenderMove platform pipeline sender stores moved → kept moved.1)
    (all : ∀ sender ∈ client.stores.senders, kept sender)
    (stepped : client.step platform label = some next) :
    ∀ sender ∈ next.stores.senders, kept sender := by
  intro later member
  obtain ⟨index, found⟩ := List.mem_iff_getElem?.mp member
  rcases sender_of_step found stepped with ⟨closed, rfl⟩ |
    ⟨sender, isSender, same | ⟨moved, move, rfl⟩⟩
  · exact begins closed
  · rw [same]
    exact all sender (List.mem_of_getElem? isSender)
  · exact moves client.pipeline sender client.stores moved
      (all sender (List.mem_of_getElem? isSender)) move.move

/-- A call stays at its place, and moves by its own moves only. -/
theorem call_step
    {index : Nat} {call : Call} (found : client.calls[index]? = some call)
    (stepped : client.step platform label = some next) :
    ∃ later, next.calls[index]? = some later ∧
      (later = call ∨ ∃ moved,
        CallMoves platform label index call client.stores moved ∧
          later = moved.1) := by
  rcases step_cases stepped with ⟨input, waits, rfl, _, rfl⟩ |
    ⟨other, mover, moved, isMover, moves, rfl⟩ |
    ⟨other, sender, moved, _, moves, rfl⟩ | ⟨other, rfl, elapsed⟩ |
    ⟨rfl, rfl⟩ | ⟨pipeline, rfl, rfl⟩
  · refine ⟨call, ?_, Or.inl rfl⟩
    exact List.getElem?_append_left
      (List.getElem?_eq_some_iff.mp found).1 ▸ found
  · rw [Client.putCall, List.getElem?_set]
    by_cases same : other = index
    · subst same
      have bound := (List.getElem?_eq_some_iff.mp found).1
      cases found.symm.trans isMover
      rw [if_pos rfl, if_pos bound]
      exact ⟨moved.1, rfl, Or.inr ⟨moved, moves, rfl⟩⟩
    · rw [if_neg same]
      exact ⟨call, found, Or.inl rfl⟩
  · exact ⟨call, found, Or.inl rfl⟩
  · obtain ⟨timer, _, rfl⟩ := Option.map_eq_some_iff.mp elapsed
    refine ⟨call, ?_, Or.inl rfl⟩
    dsimp only
    split
    · exact found
    · exact found
  · exact ⟨call, found, Or.inl rfl⟩
  · exact ⟨call, found, Or.inl rfl⟩

/-- A sender stays at its place, and moves by its own moves only. -/
theorem sender_step
    {index : Nat} {sender : Sender}
    (found : client.stores.senders[index]? = some sender)
    (stepped : client.step platform label = some next) :
    ∃ later, next.stores.senders[index]? = some later ∧
      (later = sender ∨ ∃ moved,
        SenderMoves platform label index client.pipeline sender
          client.stores moved ∧ later = moved.1) := by
  have bound := (List.getElem?_eq_some_iff.mp found).1
  have kept : ∀ more : List Sender,
      (client.stores.senders ++ more)[index]? = some sender := by
    intro more
    rw [List.getElem?_append_left bound]
    exact found
  rcases step_cases stepped with ⟨input, waits, rfl, _, rfl⟩ |
    ⟨other, call, moved, _, moves, rfl⟩ |
    ⟨other, mover, moved, isMover, moves, rfl⟩ | ⟨other, rfl, elapsed⟩ |
    ⟨rfl, rfl⟩ | ⟨pipeline, rfl, rfl⟩
  · exact ⟨sender, found, Or.inl rfl⟩
  · obtain ⟨closed, same⟩ := senders_callMove moves.move
    refine ⟨sender, ?_, Or.inl rfl⟩
    rw [Client.putCall, same]
    exact kept _
  · rw [Client.putSender, senders_senderMove moves.move, List.getElem?_set]
    by_cases same : other = index
    · subst same
      cases found.symm.trans isMover
      rw [if_pos rfl, if_pos bound]
      exact ⟨moved.1, rfl, Or.inr ⟨moved, moves, rfl⟩⟩
    · rw [if_neg same]
      exact ⟨sender, found, Or.inl rfl⟩
  · obtain ⟨closed, same⟩ := senders_elapse elapsed
    refine ⟨sender, ?_, Or.inl rfl⟩
    rw [same]
    exact kept _
  · exact ⟨sender, kept _, Or.inl rfl⟩
  · exact ⟨sender, found, Or.inl rfl⟩

/-- The rule for calls. -/
theorem calls_keep
    {condition : Client → ClientStep → Prop} {pipeline : Pipeline}
    {labels : List ClientStep} (kept : Call → Prop)
    (reached : Runs platform condition pipeline labels client)
    (begins : ∀ client : Client, ∀ input waits, validate input = .ok () →
      kept (client.newCall platform input waits))
    (moves : ∀ call stores moved, kept call →
      CallMove platform call stores moved → kept moved.1) :
    ∀ call ∈ client.calls, kept call := by
  induction reached with
  | nil =>
      intro call member
      exact absurd member List.not_mem_nil
  | snoc _ _ stepped inductionHypothesis =>
      exact mem_calls_step begins moves inductionHypothesis stepped

/-- The rule for group senders. -/
theorem senders_keep
    {condition : Client → ClientStep → Prop} {pipeline : Pipeline}
    {labels : List ClientStep} (kept : Sender → Prop)
    (reached : Runs platform condition pipeline labels client)
    (begins : ∀ closed, kept (Sender.start closed))
    (moves : ∀ pipeline sender stores moved, kept sender →
      SenderMove platform pipeline sender stores moved → kept moved.1) :
    ∀ sender ∈ client.stores.senders, kept sender := by
  induction reached with
  | nil =>
      intro sender member
      exact absurd member List.not_mem_nil
  | snoc _ _ stepped inductionHypothesis =>
      exact mem_senders_step begins moves inductionHypothesis stepped

end Rules

/-! ## Where the delivery of a call stands -/

/-- Whether the result of the delivery is known. -/
def Call.Ended (call : Call) : Prop :=
  match call.stage with
  | .settling | .noting | .completing => True
  | .done => call.plan.targets ≠ []
  | _ => False

/-- How far the delivery has come. -/
def Call.UnderWay (call : Call) : Prop :=
  ∃ schedule, Delivering call.plan call.pipeline.providers
    (refOf call.priorRefs) call.answers schedule call.system

/-- The loop has placed the providers of some entries. -/
def PlanState.Gathered (loop : PlanState) : Prop :=
  ∃ entries : List (DeliveryMode × String),
    loop.placement = entries.foldl Placement.place {}

/-- What is true of a call at every moment. -/
structure Call.Sound (call : Call) : Prop where
  keyed : call.signal.dedupKey.isSome = true
  gathered : call.loop.Gathered
  distinct : call.plan.providers.Nodup
  begun : call.stage = .delivering →
    call.plan.targets ≠ [] ∧ call.UnderWay
  ended : call.Ended →
    call.plan.targets ≠ [] ∧ call.UnderWay ∧
      ∃ cutOff, call.result = deliveryResult call.plan call.system cutOff

/-- The plan of the loop names no provider twice. -/
theorem nodup_providers_finish
    {loop : PlanState} (gathered : loop.Gathered) :
    loop.finish.providers.Nodup := by
  obtain ⟨entries, placement⟩ := gathered
  rw [DeliveryPlan.providers, PlanState.finish]
  dsimp only
  split
  · exact List.nodup_singleton _
  · rw [placement, targets_foldl_place]
    exact nodup_flatten_layout_firsts entries

theorem gathered_planRoute
    {State : Type} {signal : Signal} {admits : Gate State}
    {loop : PlanState} {state : State} {entry : Route × Nat}
    (gathered : loop.Gathered) :
    (planRoute signal admits (loop, state) entry).1.Gathered := by
  obtain ⟨entries, placement⟩ := gathered
  rw [planRoute]
  split
  · exact ⟨entries, placement⟩
  · split
    · exact ⟨entries, placement⟩
    · split
      · exact ⟨entries, placement⟩
      · refine ⟨entries ++ entry.1.entries, ?_⟩
        rw [List.foldl_append, ← placement]

theorem sound_newCall
    (client : Client) (input : SignalInput) (waits : Bool) :
    (client.newCall platform input waits).Sound where
  keyed := rfl
  gathered := ⟨[], rfl⟩
  distinct := List.nodup_nil
  begun stage := nomatch stage
  ended ended := ended.elim

/-- A move before the delivery changes neither the plan nor what was
gathered, except where it plans. -/
private theorem Call.Sound.early
    {call moved : Call} (sound : call.Sound)
    (signal : moved.signal = call.signal)
    (loop : moved.loop = call.loop) (plan : moved.plan = call.plan)
    (notBegun : moved.stage ≠ .delivering) (notEnded : ¬ moved.Ended) :
    moved.Sound where
  keyed := signal ▸ sound.keyed
  gathered := loop ▸ sound.gathered
  distinct := plan ▸ sound.distinct
  begun stage := absurd stage notBegun
  ended ended := absurd ended notEnded

theorem sound_prepare
    {call : Call} (sound : call.Sound) (moment : Moment)
    (book : AlertBook) : (call.prepare platform moment book).Sound := by
  rw [Call.prepare]
  split
  · exact
      { keyed := rfl
        gathered := sound.gathered
        distinct := nodup_providers_lifecyclePlan _ _ book _
        begun := by rintro ⟨⟩
        ended := fun ended => ended.elim }
  · exact
      { keyed := rfl
        gathered := sound.gathered
        distinct := sound.distinct
        begun := by rintro ⟨⟩
        ended := fun ended => ended.elim }

/-- The delivery is over, one way or the other. -/
theorem sound_finish
    {call : Call} (sound : call.Sound) (stage : call.stage = .delivering)
    (cutOff : Option String) : (call.finish cutOff).Sound where
  keyed := sound.keyed
  gathered := sound.gathered
  distinct := sound.distinct
  begun stage := nomatch stage
  ended _ := ⟨(sound.begun stage).1, (sound.begun stage).2, cutOff, rfl⟩

theorem sound_callMove
    {call : Call} {stores : Stores} {moved : Call × Stores}
    (sound : call.Sound) (moves : CallMove platform call stores moved) :
    moved.1.Sound := by
  cases moves with
  | prepare moment stage => exact sound_prepare sound moment stores.book
  | ask entry rest stage routes =>
      rw [Call.plan_, routes]
      exact
        { keyed := sound.keyed
          gathered := gathered_planRoute sound.gathered
          distinct := sound.distinct
          begun := fun begun => absurd begun (by simp [stage])
          ended := by
            intro ended
            rw [Call.Ended] at ended
            simp only [stage] at ended }
  | planned stage routes =>
      exact
        { keyed := sound.keyed
          gathered := sound.gathered
          distinct := nodup_providers_finish sound.gathered
          begun := by rintro ⟨⟩
          ended := fun ended => ended.elim }
  | record stage =>
      refine sound.early rfl rfl rfl ?_ ?_
      · dsimp only [Call.record]
        split
        · simp
        · simp
      · rw [Call.Ended, Call.record]
        by_cases empty : call.plan.targets.isEmpty = true
        · simp [empty]
        · simp [empty]
  | unsent stage => exact sound.early rfl rfl rfl (by rintro ⟨⟩) id
  | leave stage holds empty =>
      exact sound.early rfl rfl rfl (by rintro ⟨⟩) fun ended => ended empty
  | send stage holds nonempty =>
      exact
        { keyed := sound.keyed
          gathered := sound.gathered
          distinct := sound.distinct
          begun := fun _ => ⟨nonempty, [], Reaches.nil⟩
          ended := fun ended => ended.elim }
  | skip entry rest stage holds absent
  | join route entry rest stage holds listed =>
      refine sound.early rfl rfl rfl ?_ ?_
      · simp [stage]
      · simp [Call.Ended, stage]
  | finish stage finished => exact sound_finish sound stage none
  | cut message stage waits => exact sound_finish sound stage (some message)
  | deliver chain system stage advanced =>
      obtain ⟨nonempty, schedule, reached⟩ := sound.begun stage
      exact
        { keyed := sound.keyed
          gathered := sound.gathered
          distinct := sound.distinct
          begun := fun _ =>
            ⟨nonempty, _, Reaches.snoc reached trivial advanced⟩
          ended := by
            intro ended
            rw [Call.Ended] at ended
            simp only [stage] at ended }
  | settle stage | note stage | complete stage =>
      have known := sound.ended (by simp [Call.Ended, stage])
      exact
        { keyed := sound.keyed
          gathered := sound.gathered
          distinct := sound.distinct
          begun := by rintro ⟨⟩
          ended := fun _ => known }

/-- Every call of a run is sound. -/
theorem sound_calls
    {condition : Client → ClientStep → Prop} {pipeline : Pipeline}
    {labels : List ClientStep} {client : Client}
    (reached : Runs platform condition pipeline labels client) :
    ∀ call ∈ client.calls, call.Sound :=
  calls_keep Call.Sound reached
    (fun client input waits _ => sound_newCall client input waits)
    (fun _ _ _ => sound_callMove)

/-! ## Where the sending of a group stands -/

/-- Whether the plan of the group is made. -/
def Sender.Planned (sender : Sender) : Prop :=
  sender.stage ≠ .opening ∧ sender.stage ≠ .gating

/-- Whether the result of the delivery is known. -/
def Sender.Ended (sender : Sender) : Prop :=
  sender.Planned ∧ sender.stage ≠ .starting ∧ sender.stage ≠ .delivering

def Sender.UnderWay (sender : Sender) : Prop :=
  ∃ schedule, Delivering sender.plan sender.providers (fun _ => none)
    sender.answers schedule sender.system

/-- What is true of a group sender at every moment. -/
structure Sender.Sound (sender : Sender) : Prop where
  alone : sender.closed.single = true →
    sender.signal = sender.closed.first
  planned : sender.Planned →
    ∃ answer, sender.plan = Sender.planOf sender.closed.route answer
  begun : sender.stage = .delivering → sender.UnderWay
  ended : sender.Ended → sender.UnderWay ∧
    Delivered sender.providers (fun _ => none) sender.answers
      sender.system ∧
    sender.result = deliveryResult sender.plan sender.system none

theorem sound_start (closed : Closed) : (Sender.start closed).Sound where
  alone _ := rfl
  planned planned := absurd rfl planned.1
  begun stage := nomatch stage
  ended ended := absurd rfl ended.1.1

theorem sound_senderMove
    {pipeline : Pipeline} {sender : Sender} {stores : Stores}
    {moved : Sender × Stores} (sound : sender.Sound)
    (moves : SenderMove platform pipeline sender stores moved) :
    moved.1.Sound := by
  cases moves with
  | open_ moment stage =>
      rw [Sender.open_]
      split
      · exact
          { alone := sound.alone
            planned := fun planned => absurd rfl planned.2
            begun := by rintro ⟨⟩
            ended := fun ended => absurd rfl ended.1.2 }
      · rename_i several
        exact
          { alone := fun single => absurd single several
            planned := fun planned => absurd rfl planned.2
            begun := by rintro ⟨⟩
            ended := fun ended => absurd rfl ended.1.2 }
  | gate moment stage =>
      exact
        { alone := sound.alone
          planned := fun _ => ⟨_, rfl⟩
          begun := by rintro ⟨⟩
          ended := fun ended => absurd rfl ended.2.1 }
  | start stage =>
      have planned : sender.Planned := by simp [Sender.Planned, stage]
      exact
        { alone := sound.alone
          planned := fun _ => sound.planned planned
          begun := fun _ => ⟨[], Reaches.nil⟩
          ended := fun ended => absurd rfl ended.2.2 }
  | deliver chain system stage advanced =>
      obtain ⟨schedule, reached⟩ := sound.begun stage
      exact
        { alone := sound.alone
          planned := sound.planned
          begun := fun _ => ⟨_, Reaches.snoc reached trivial advanced⟩
          ended := fun ended => absurd stage ended.2.2 }
  | finish stage finished =>
      have planned : sender.Planned := by simp [Sender.Planned, stage]
      exact
        { alone := sound.alone
          planned := fun _ => sound.planned planned
          begun := by rintro ⟨⟩
          ended := fun _ => ⟨sound.begun stage, finished, rfl⟩ }
  | settle stage | settled stage members | complete stage
  | completed stage members =>
      have ended : sender.Ended := by
        simp [Sender.Ended, Sender.Planned, stage]
      exact
        { alone := sound.alone
          planned := fun _ => sound.planned ended.1
          begun := by rintro ⟨⟩
          ended := fun _ => sound.ended ended }
  | settleMember member rest stage members
  | completeMember member rest stage members =>
      exact
        { alone := sound.alone
          planned := sound.planned
          begun := sound.begun
          ended := sound.ended }

/-- Every group sender of a run is sound. -/
theorem sound_senders
    {condition : Client → ClientStep → Prop} {pipeline : Pipeline}
    {labels : List ClientStep} {client : Client}
    (reached : Runs platform condition pipeline labels client) :
    ∀ sender ∈ client.stores.senders, sender.Sound :=
  senders_keep Sender.Sound reached sound_start
    (fun _ _ _ _ => sound_senderMove)

end OpsSignal
