import OpsSignal.KeySends
import OpsSignal.Lib.Responses

/-!
# The last word on an alert

A resolve is planned from the alert book on the caller's thread, and what a
trigger did is recorded there once it is delivered.  Where no trigger of
the key is in flight when a resolve is planned, and no resolve when a
trigger is, the last resolve leaves nobody with an alert.
-/

namespace OpsSignal

open Interleaving LabelledRuns Responses

variable {platform : Platform} {pipeline : Pipeline} {key : String}

/-! ## Orderly runs -/

/-- The call is prepared, and what it sends may not be recorded yet. -/
def Call.InFlight (key : String) (call : Call) : Prop :=
  0 < call.stage.rank ∧ call.stage.rank < 8 ∧
    call.signal.dedupKey = some key

/-- A call with the first action in flight gets in the way of one with the
second action: what the second goes by is not recorded yet, or will be
overwritten. -/
def Action.disturbs : Action → Action → Bool
  | .trigger, .resolve | .acknowledge, .resolve | .resolve, .trigger => true
  | _, _ => false

/-- The step prepares a call of the key. -/
def Prepares
    (platform : Platform) (key : String) (client : Client)
    (label : ClientStep) : Prop :=
  ∃ index moment call, label = .call index moment ∧
    client.calls[index]? = some call ∧ call.stage = .preparing ∧
      call.input.effectiveDedupKey platform = key

/-- No call is prepared while one that disturbs it is in flight, and no
group delivers a trigger of the key. -/
structure OrderlyCalls
    (platform : Platform) (key : String) (client : Client)
    (label : ClientStep) : Prop where
  apart : ∀ (index : Nat) (moment : Moment) (call : Call),
    label = .call index moment → client.calls[index]? = some call →
      call.stage = .preparing →
        call.input.effectiveDedupKey platform = key →
          ∀ other ∈ client.calls, other.InFlight key →
            other.signal.action.disturbs call.input.action = false
  groups : ∀ sender ∈ client.stores.senders, sender.stage = .delivering →
    sender.signal.dedupKey = some key → sender.signal.action ≠ .trigger

/-- The signals of the key end with a resolve: it is prepared after all
others of the key. -/
def EndsResolved
    (platform : Platform) (pipeline : Pipeline) (key : String)
    (labels : List ClientStep) : Prop :=
  ∃ before index moment after middle next call,
    labels = before ++ .call index moment :: after ∧
      Runs platform anyStep pipeline before middle ∧
      middle.calls[index]? = some call ∧ call.stage = .preparing ∧
      call.input.action = .resolve ∧
      call.input.effectiveDedupKey platform = key ∧
      middle.step platform (.call index moment) = some next ∧
      EveryStep (Client.step platform) next after fun client label _ =>
        ¬ Prepares platform key client label

/-- Every provider that was sent a trigger of the key was sent a resolve
after it. -/
def Resolved (key name : String) (trace : List Effect) : Prop :=
  Answered (Effect.sends key .trigger name) (Effect.sends key .resolve name)
    trace

/-! ## What an orderly run keeps -/

/-- Every trigger that was sent is resolved, on record, or in flight. -/
structure Kept
    (platform : Platform) (pipeline : Pipeline) (key : String)
    (client : Client) : Prop where
  current : client.pipeline = pipeline
  fired : ∀ call ∈ client.calls, call.Fired platform pipeline
  listed : ∀ name, client.stores.book.stateOf (key, name) ≠ none →
    pipeline.providers.contains name = true
  apart : ∀ first ∈ client.calls, ∀ second ∈ client.calls,
    first.InFlight key → second.InFlight key →
      first.signal.action = .resolve → second.signal.action ≠ .trigger
  accounted : ∀ name, Resolved key name client.stores.trace ∨
    client.stores.book.Lists key name ∨
      ∃ call ∈ client.calls, call.InFlight key ∧
        call.signal.action = .trigger ∧ call.SentTo name
  resolving : ∀ call ∈ client.calls, call.InFlight key →
    call.signal.action = .resolve →
      ∀ name, call.SentTo name → Resolved key name client.stores.trace

theorem kept_fromPipeline :
    Kept platform pipeline key (Client.fromPipeline pipeline) where
  current := rfl
  fired _ member := absurd member List.not_mem_nil
  listed _ stored := absurd AlertBook.stateOf_empty stored
  apart _ member := absurd member List.not_mem_nil
  accounted _ := Or.inl trivial
  resolving _ member := absurd member List.not_mem_nil

/-! ## One step of one call -/

section Step

variable {client next : Client} {label : ClientStep}

theorem fired_callMoves
    {index : Nat} {call : Call} {stores : Stores} {moved : Call × Stores}
    (fired : call.Fired platform pipeline) (async : FireAndForget label)
    (moves : CallMoves platform label index call stores moved) :
    moved.1.Fired platform pipeline := by
  by_cases stage : call.stage = .preparing
  · obtain ⟨moment, rfl, rfl⟩ := moves.prepares stage
    exact fired_prepare fired stage async stores.book
  · exact fired_callMove fired (rank_pos_of_ne stage) moves.move

theorem fired_step
    (kept : Kept platform pipeline key client) (async : FireAndForget label)
    (stepped : client.step platform label = some next) :
    ∀ call ∈ next.calls, call.Fired platform pipeline := by
  rcases step_cases stepped with ⟨input, waits, rfl, valid, rfl⟩ |
    ⟨index, call, moved, found, moves, rfl⟩ |
    ⟨index, sender, moved, _, _, rfl⟩ | ⟨index, rfl, elapsed⟩ |
    ⟨rfl, rfl⟩ | ⟨pipeline, rfl, rfl⟩
  · intro later member
    rcases List.mem_append.mp member with old | new
    · exact kept.fired later old
    · rw [List.mem_singleton.mp new, show waits = false from async,
        ← kept.current]
      exact fired_newCall valid
  · intro later member
    rcases List.mem_or_eq_of_mem_set member with old | rfl
    · exact kept.fired later old
    · have fired := kept.fired call (List.mem_of_getElem? found)
      exact fired_callMoves fired async moves
  · exact kept.fired
  · obtain ⟨timer, _, rfl⟩ := Option.map_eq_some_iff.mp elapsed
    dsimp only
    split
    · exact kept.fired
    · exact kept.fired
  · exact kept.fired
  · exact async.elim

/-- A call in flight after a step was in flight before, or is prepared by
the step. -/
theorem inFlight_of_step
    (stepped : client.step platform label = some next)
    {index : Nat} {later : Call} (found : next.calls[index]? = some later)
    (inFlight : later.InFlight key) :
    (∃ call, client.calls[index]? = some call ∧ call.InFlight key ∧
        later.signal = call.signal) ∨
      ∃ moment call, label = .call index moment ∧
        client.calls[index]? = some call ∧ call.stage = .preparing ∧
          later = call.prepare platform moment client.stores.book := by
  obtain ⟨prepared, unrecorded, keyed⟩ := inFlight
  rcases call_of_step found stepped with ⟨input, waits, _, rfl⟩ |
    ⟨call, isCall, same | ⟨moved, moves, rfl⟩⟩
  · cases prepared
  · subst same
    exact Or.inl ⟨later, isCall, ⟨prepared, unrecorded, keyed⟩, rfl⟩
  · by_cases stage : call.stage = .preparing
    · obtain ⟨moment, rfl, rfl⟩ := moves.prepares stage
      exact Or.inr ⟨moment, call, rfl, isCall, stage, rfl⟩
    · have before := rank_pos_of_ne stage
      have signal := signal_callMove before moves.move
      refine Or.inl ⟨call, isCall, ⟨before, ?_, signal ▸ keyed⟩, signal⟩
      exact Nat.lt_of_le_of_lt (rank_callMove moves.move) unrecorded

theorem currentPipeline_step
    (kept : Kept platform pipeline key client) (async : FireAndForget label)
    (stepped : client.step platform label = some next) :
    next.pipeline = pipeline := by
  rcases step_cases stepped with ⟨input, waits, rfl, valid, rfl⟩ |
    ⟨index, call, moved, found, moves, rfl⟩ |
    ⟨index, sender, moved, _, _, rfl⟩ | ⟨index, rfl, elapsed⟩ |
    ⟨rfl, rfl⟩ | ⟨pipeline, rfl, rfl⟩
  · exact kept.current
  · exact kept.current
  · exact kept.current
  · obtain ⟨timer, _, rfl⟩ := Option.map_eq_some_iff.mp elapsed
    dsimp only
    split
    · exact kept.current
    · exact kept.current
  · exact kept.current
  · exact async.elim

/-- What a call is prepared with. -/
theorem signal_prepare
    {call : Call} (fired : call.Fired platform pipeline)
    (stage : call.stage = .preparing) {moment : Moment}
    (willing : moment.answers.Willing) (book : AlertBook) :
    (call.prepare platform moment book).signal.action =
        call.input.action ∧
      (call.prepare platform moment book).signal.dedupKey =
        some (call.input.effectiveDedupKey platform) := by
  have later := fired_prepare fired stage willing book
  have moves : CallMove platform call { book := book }
      (call.prepare platform moment book, { book := book }) :=
    .prepare moment stage
  have input := input_callMove moves
  have prepared : 0 < (call.prepare platform moment book).stage.rank := by
    rw [Call.prepare]
    split
    · exact rank_pos_of_ne CallStage.noConfusion
    · exact rank_pos_of_ne CallStage.noConfusion
  rw [← input]
  exact ⟨later.action prepared, later.key prepared⟩

/-- No trigger and resolve of the key are in flight together. -/
theorem apartFlights_step
    (kept : Kept platform pipeline key client) (async : FireAndForget label)
    (orderly : OrderlyCalls platform key client label)
    (stepped : client.step platform label = some next) :
    ∀ first ∈ next.calls, ∀ second ∈ next.calls,
      first.InFlight key → second.InFlight key →
        first.signal.action = .resolve →
          second.signal.action ≠ .trigger := by
  intro first isFirst second isSecond firstFlies secondFlies resolve trigger
  obtain ⟨one, firstAt⟩ := List.mem_iff_getElem?.mp isFirst
  obtain ⟨two, secondAt⟩ := List.mem_iff_getElem?.mp isSecond
  rcases inFlight_of_step stepped firstAt firstFlies with
    ⟨older, olderAt, olderFlies, same⟩ |
      ⟨moment, call, rfl, callAt, stage, rfl⟩
  · rw [same] at resolve
    have listed := List.mem_of_getElem? olderAt
    rcases inFlight_of_step stepped secondAt secondFlies with
      ⟨other, otherAt, otherFlies, same⟩ |
        ⟨moment, call, rfl, callAt, stage, rfl⟩
    · rw [same] at trigger
      exact kept.apart older listed other (List.mem_of_getElem? otherAt)
        olderFlies otherFlies resolve trigger
    · have fired := kept.fired call (List.mem_of_getElem? callAt)
      obtain ⟨acts, keyed⟩ :=
        signal_prepare fired stage async client.stores.book
      have calm := orderly.apart two moment call rfl callAt stage
        (Option.some.inj (keyed.symm.trans secondFlies.2.2)) older listed
          olderFlies
      rw [resolve, ← acts, trigger] at calm
      cases calm
  · have fired := kept.fired call (List.mem_of_getElem? callAt)
    obtain ⟨acts, keyed⟩ :=
      signal_prepare fired stage async client.stores.book
    rcases inFlight_of_step stepped secondAt secondFlies with
      ⟨other, otherAt, otherFlies, same⟩ |
        ⟨_, another, sameLabel, anotherAt, _, rfl⟩
    · have calm := orderly.apart one moment call rfl callAt stage
        (Option.some.inj (keyed.symm.trans firstFlies.2.2)) other
          (List.mem_of_getElem? otherAt) otherFlies
      rw [← same, trigger, ← acts, resolve] at calm
      cases calm
    · cases sameLabel
      have same := Option.some.inj (firstAt.symm.trans secondAt)
      rw [same, trigger] at resolve
      cases resolve

/-! ## The record -/

/-- A call that records its delivery is in flight, and was sent to the
providers that its result says have delivered. -/
theorem deliveredBy_of_noting
    {call : Call} (fired : call.Fired platform pipeline)
    (stage : call.stage = .noting) {name : String} :
    call.result.deliveredBy name = true ↔ call.SentTo name := by
  have ended : call.Ended := by
    simp [Call.Ended, stage]
  obtain ⟨_, ⟨schedule, reached⟩, cutOff, result⟩ := fired.sound.ended ended
  have willing := fired.willing (by simp [stage, CallStage.rank])
  rw [result]
  exact deliveredBy_iff_wasTried willing fired.sound.distinct reached
    (fired.finished ended) cutOff

/-- A configured provider that is a target of its own has delivered. -/
theorem deliveredBy_of_target
    {call : Call} (fired : call.Fired platform pipeline)
    (stage : call.stage = .noting) {name : String}
    (target : [name] ∈ call.plan.targets)
    (configured : pipeline.providers.contains name = true) :
    call.result.deliveredBy name = true := by
  have ended : call.Ended := by
    simp [Call.Ended, stage]
  obtain ⟨_, ⟨schedule, reached⟩, _⟩ := fired.sound.ended ended
  rw [deliveredBy_of_noting fired stage]
  exact wasTried_of_target fired.sound.distinct reached
    (fired.finished ended) target (fired.pipeline.symm ▸ configured)

theorem notes_eq_some
    {client : Client} {label : ClientStep} {call : Call}
    (noted : notes client label = some call) :
    ∃ index moment, label = .call index moment ∧
      client.calls[index]? = some call ∧ call.stage = .noting := by
  cases label with
  | call index moment =>
      obtain ⟨found, stage⟩ := Option.filter_eq_some_iff.mp noted
      exact ⟨index, moment, rfl, found, of_decide_eq_true stage⟩
  | start | deliver | cut | timer | flush | sender | deliverGroup | reload =>
      cases noted

theorem notes_of_noting
    {index : Nat} {call : Call} {moved : Call × Stores}
    (found : client.calls[index]? = some call) (stage : call.stage = .noting)
    (moves : CallMoves platform label index call client.stores moved) :
    notes client label = some call := by
  obtain ⟨moment, rfl, _⟩ := moves.own (by simp [stage])
  rw [notes, found]
  simp [Option.filter, stage]

/-- Only configured providers have a row. -/
theorem listed_step
    (kept : Kept platform pipeline key client)
    (stepped : client.step platform label = some next) (name : String)
    (stored : next.stores.book.stateOf (key, name) ≠ none) :
    pipeline.providers.contains name = true := by
  rw [stateOf_step stepped] at stored
  cases noted : notes client label with
  | none =>
      rw [noted] at stored
      exact kept.listed name stored
  | some call =>
      rw [noted] at stored
      dsimp only at stored
      split at stored
      · rename_i both
        obtain ⟨index, moment, rfl, found, stage⟩ := notes_eq_some noted
        have fired := kept.fired call (List.mem_of_getElem? found)
        have ended : call.Ended := by
          simp [Call.Ended, stage]
        obtain ⟨_, ⟨schedule, reached⟩, _⟩ := fired.sound.ended ended
        rw [← fired.pipeline]
        exact configured_of_wasTried fired.sound.distinct reached
          (fired.finished ended)
          ((deliveredBy_of_noting fired stage).mp both.2)
      · exact kept.listed name stored

/-! ## The sends -/

/-- A call leaves its flight by recording its delivery, unless it has
nothing to deliver. -/
theorem crossing_callMove
    {call : Call} {stores : Stores} {moved : Call × Stores}
    (moves : CallMove platform call stores moved)
    (before : call.stage.rank < 8) (after : 8 ≤ moved.1.stage.rank) :
    call.stage = .noting ∨
      call.stage = .holding ∧ call.plan.targets = [] := by
  cases moves with
  | note stage => exact Or.inl stage
  | leave stage holds empty => exact Or.inr ⟨stage, empty⟩
  | prepare moment stage =>
      rw [Call.prepare] at after
      split at after
      · simp [CallStage.rank] at after
      · simp [CallStage.rank] at after
  | ask entry rest stage routes =>
      rw [Call.plan_, routes] at after
      exact absurd before (Nat.not_lt.mpr after)
  | record stage =>
      rw [Call.record] at after
      dsimp only at after
      split at after
      · simp [CallStage.rank] at after
      · simp [CallStage.rank] at after
  | skip | join | deliver => exact absurd before (Nat.not_lt.mpr after)
  | planned | unsent | send | finish | cut | settle =>
      simp [CallStage.rank, Call.settleUnsent, Call.finish] at after
  | complete stage => simp [stage, CallStage.rank] at before

/-- A call that is delivering stays in flight. -/
theorem inFlight_of_delivering
    {index : Nat} {call later : Call}
    (found : client.calls[index]? = some call)
    (isLater : next.calls[index]? = some later)
    (stage : call.stage = .delivering)
    (keyed : call.signal.dedupKey = some key)
    (stepped : client.step platform label = some next) :
    later.InFlight key ∧ later.signal = call.signal := by
  have prepared : 0 < call.stage.rank := by
    simp [stage, CallStage.rank]
  have unrecorded : call.stage.rank < 8 := by
    simp [stage, CallStage.rank]
  obtain ⟨other, isOther, became⟩ := call_step found stepped
  cases isLater.symm.trans isOther
  rcases became with rfl | ⟨moved, moves, rfl⟩
  · exact ⟨⟨prepared, unrecorded, keyed⟩, rfl⟩
  · have signal := signal_callMove prepared moves.move
    have further := rank_callMove moves.move
    refine ⟨⟨Nat.lt_of_lt_of_le prepared further, ?_, signal ▸ keyed⟩,
      signal⟩
    by_contra recorded
    rcases crossing_callMove moves.move unrecorded
      (Nat.not_lt.mp recorded) with noting | ⟨holding, _⟩
    · cases stage.symm.trans noting
    · cases stage.symm.trans holding

/-- A trigger of the key is sent by a call that stays in flight. -/
theorem trigger_of_sends
    {more : List Effect} (adds : client.Adds next more)
    (orderly : OrderlyCalls platform key client label)
    (stepped : client.step platform label = some next) {name : String}
    {effect : Effect} (member : effect ∈ more)
    (sends : effect.sends key .trigger name = true) :
    ∃ call ∈ client.calls, ∃ later ∈ next.calls, call.InFlight key ∧
      later.InFlight key ∧ call.signal.action = .trigger ∧
        later.signal.action = .trigger ∧ later.SentTo name := by
  rcases adds.own effect member key .trigger name sends with
    ⟨index, call, later, found, isLater, stage, keyed, acts, sentTo⟩ |
      ⟨sender, isSender, stage, keyed, acts⟩
  · obtain ⟨flies, signal⟩ :=
      inFlight_of_delivering found isLater stage keyed stepped
    have before : call.InFlight key :=
      ⟨by simp [stage, CallStage.rank], by simp [stage, CallStage.rank],
        keyed⟩
    exact ⟨call, List.mem_of_getElem? found, later,
      List.mem_of_getElem? isLater, before, flies, acts,
      signal ▸ acts, sentTo⟩
  · exact absurd acts (orderly.groups sender isSender stage keyed)

/-- A step leaves a listed provider listed, unless it records that a
resolve was sent to it. -/
theorem lists_step
    (kept : Kept platform pipeline key client)
    (stepped : client.step platform label = some next) {name : String}
    (lists : client.stores.book.Lists key name) :
    next.stores.book.Lists key name ∨
      ∃ call ∈ client.calls, call.InFlight key ∧
        call.signal.action = .resolve ∧ call.SentTo name := by
  rw [AlertBook.Lists, AlertBook.mem_openAlerts] at lists ⊢
  rw [stateOf_step stepped]
  cases noted : notes client label with
  | none => exact Or.inl lists
  | some call =>
      dsimp only
      split
      · rename_i both
        obtain ⟨state, stored, open_⟩ := lists
        obtain ⟨index, moment, rfl, found, stage⟩ := notes_eq_some noted
        have isCall := List.mem_of_getElem? found
        rw [stored]
        cases acts : call.signal.action with
        | trigger => exact Or.inl ⟨.opened, rfl, AlertState.noConfusion⟩
        | acknowledge =>
            exact Or.inl ⟨.acknowledged, rfl, AlertState.noConfusion⟩
        | resolve =>
            right
            have flies : call.InFlight key :=
              ⟨by simp [stage, CallStage.rank],
                by simp [stage, CallStage.rank], both.1⟩
            exact ⟨call, isCall, flies, acts,
              (deliveredBy_of_noting (kept.fired call isCall) stage).mp
                both.2⟩
      · exact Or.inl lists

/-- A trigger in flight stays in flight, or is recorded. -/
theorem trigger_step
    (kept : Kept platform pipeline key client)
    {more : List Effect} (adds : client.Adds next more)
    (stepped : client.step platform label = some next) {name : String}
    {call : Call} (isCall : call ∈ client.calls)
    (flies : call.InFlight key) (trigger : call.signal.action = .trigger)
    (sentTo : call.SentTo name) :
    next.stores.book.Lists key name ∨
      ∃ later ∈ next.calls, later.InFlight key ∧
        later.signal.action = .trigger ∧ later.SentTo name := by
  obtain ⟨index, found⟩ := List.mem_iff_getElem?.mp isCall
  obtain ⟨later, isLater, became⟩ := call_step found stepped
  have laterSent := (adds.calls index call later found isLater).1 name sentTo
  have stays : later.InFlight key → later.signal = call.signal →
      next.stores.book.Lists key name ∨
        ∃ later ∈ next.calls, later.InFlight key ∧
          later.signal.action = .trigger ∧ later.SentTo name :=
    fun laterFlies signal => Or.inr ⟨later, List.mem_of_getElem? isLater,
      laterFlies, signal ▸ trigger, laterSent⟩
  rcases became with rfl | ⟨moved, moves, rfl⟩
  · exact stays flies rfl
  · obtain ⟨prepared, unrecorded, keyed⟩ := flies
    have signal := signal_callMove prepared moves.move
    have further := rank_callMove moves.move
    by_cases recorded : 8 ≤ moved.1.stage.rank
    · rcases crossing_callMove moves.move unrecorded recorded with
        stage | ⟨stage, _⟩
      · left
        have fired := kept.fired call isCall
        rw [book_step stepped, notes_of_noting found stage moves]
        exact lists_record trigger keyed
          ((deliveredBy_of_noting fired stage).mpr sentTo) _ _
      · have unsent := (kept.fired call isCall).unsent
          (by simp [stage, CallStage.rank])
        simp [Call.SentTo, events, unsent, wasTried] at sentTo
    · exact stays ⟨Nat.lt_of_lt_of_le prepared further,
        Nat.not_le.mp recorded, signal ▸ keyed⟩ signal

/-- What a step adds asks for nothing if it sends no trigger. -/
theorem resolved_append
    {more : List Effect} (adds : client.Adds next more) {name : String}
    (quiet : ∀ effect ∈ more, effect.sends key .trigger name ≠ true)
    (resolved : Resolved key name client.stores.trace) :
    Resolved key name next.stores.trace := by
  rw [Resolved, adds.trace]
  apply resolved.append
  intro effect member
  exact Bool.eq_false_iff.mpr (quiet effect member)

theorem resolving_step
    (kept : Kept platform pipeline key client) (async : FireAndForget label)
    (orderly : OrderlyCalls platform key client label)
    {more : List Effect} (adds : client.Adds next more)
    (stepped : client.step platform label = some next) :
    ∀ call ∈ next.calls, call.InFlight key →
      call.signal.action = .resolve →
        ∀ name, call.SentTo name →
          Resolved key name next.stores.trace := by
  intro later isLater flies resolve name sentTo
  obtain ⟨index, found⟩ := List.mem_iff_getElem?.mp isLater
  rcases inFlight_of_step stepped found flies with
    ⟨call, isCall, callFlies, same⟩ |
      ⟨moment, call, rfl, isCall, stage, rfl⟩
  · have member := List.mem_of_getElem? isCall
    have acts : call.signal.action = .resolve := same ▸ resolve
    have quiet : ∀ effect ∈ more,
        effect.sends key .trigger name ≠ true := by
      intro effect inMore sends
      obtain ⟨other, isOther, _, _, otherFlies, _, trigger, _⟩ :=
        trigger_of_sends adds orderly stepped inMore sends
      exact kept.apart call member other isOther callFlies otherFlies acts
        trigger
    rcases (adds.calls index call later isCall found).2 name sentTo with
      before | ⟨effect, inMore, sends⟩
    · exact resolved_append adds quiet
        (kept.resolving call member callFlies acts name before)
    · rw [Resolved, adds.trace]
      apply answered_of_answer
      · intro effect inMore
        exact Bool.eq_false_iff.mpr (quiet effect inMore)
      · have answers := sends key callFlies.2.2
        rw [acts] at answers
        exact ⟨effect, inMore, answers⟩
  · have fired := kept.fired call (List.mem_of_getElem? isCall)
    have unsent := (fired_prepare fired stage async
      client.stores.book).unsent (by
        rw [Call.prepare]
        split
        · simp [CallStage.rank]
        · simp [CallStage.rank])
    simp [Call.SentTo, events, unsent, wasTried] at sentTo

theorem accountedSends_step
    (kept : Kept platform pipeline key client)
    (orderly : OrderlyCalls platform key client label)
    {more : List Effect} (adds : client.Adds next more)
    (stepped : client.step platform label = some next) (name : String) :
    Resolved key name next.stores.trace ∨
      next.stores.book.Lists key name ∨
        ∃ call ∈ next.calls, call.InFlight key ∧
          call.signal.action = .trigger ∧ call.SentTo name := by
  by_cases sent : ∃ effect ∈ more, effect.sends key .trigger name = true
  · obtain ⟨effect, member, sends⟩ := sent
    obtain ⟨_, _, later, isLater, _, flies, _, trigger, sentTo⟩ :=
      trigger_of_sends adds orderly stepped member sends
    exact Or.inr (Or.inr ⟨later, isLater, flies, trigger, sentTo⟩)
  · have quiet : ∀ effect ∈ more,
        effect.sends key .trigger name ≠ true :=
      fun effect member sends => sent ⟨effect, member, sends⟩
    rcases kept.accounted name with
      resolved | lists | ⟨call, isCall, flies, trigger, sentTo⟩
    · exact Or.inl (resolved_append adds quiet resolved)
    · rcases lists_step kept stepped lists with
        still | ⟨call, isCall, flies, resolve, sentTo⟩
      · exact Or.inr (Or.inl still)
      · exact Or.inl (resolved_append adds quiet
          (kept.resolving call isCall flies resolve name sentTo))
    · exact Or.inr
        (trigger_step kept adds stepped isCall flies trigger sentTo)

theorem keptSends_step
    (kept : Kept platform pipeline key client) (async : FireAndForget label)
    (orderly : OrderlyCalls platform key client label)
    (stepped : client.step platform label = some next) :
    Kept platform pipeline key next := by
  obtain ⟨more, adds⟩ := adds_step
    (fun call member => (kept.fired call member).unsent) stepped
  exact
    { current := currentPipeline_step kept async stepped
      fired := fired_step kept async stepped
      listed := listed_step kept stepped
      apart := apartFlights_step kept async orderly stepped
      accounted := accountedSends_step kept orderly adds stepped
      resolving := resolving_step kept async orderly adds stepped }

/-! ## After the last resolve is prepared -/

/-- The last call of the key resolves it: it goes to every provider that
is listed, and none is listed once it has recorded that. -/
structure Closing
    (key : String) (index : Nat) (client : Client) : Prop where
  resolves : ∀ call ∈ client.calls, call.InFlight key →
    call.signal.action = .resolve
  last : ∃ call, client.calls[index]? = some call ∧
    1 < call.stage.rank ∧ call.signal.dedupKey = some key ∧
      call.signal.action = .resolve ∧
        ∀ name, client.stores.book.Lists key name →
          call.stage.rank < 8 ∧ [name] ∈ call.plan.targets

theorem closing_prepare
    (kept : Kept platform pipeline key client)
    {index : Nat} {moment : Moment} {call : Call}
    (async : FireAndForget (.call index moment))
    (orderly : OrderlyCalls platform key client (.call index moment))
    (found : client.calls[index]? = some call)
    (stage : call.stage = .preparing)
    (resolve : call.input.action = .resolve)
    (keyed : call.input.effectiveDedupKey platform = key)
    (stepped : client.step platform (.call index moment) = some next) :
    Closing key index next := by
  have fired := kept.fired call (List.mem_of_getElem? found)
  obtain ⟨acts, named⟩ := signal_prepare fired stage async client.stores.book
  have lifecycle : call.input.action.isLifecycle = true := by
    rw [resolve]
    rfl
  have bound := (List.getElem?_eq_some_iff.mp found).1
  have isNext : next = client.putCall index
      (call.prepare platform moment client.stores.book, client.stores) := by
    rw [Client.step, found, Option.bind_some, Call.next, stage] at stepped
    exact (Option.some.inj stepped).symm
  refine ⟨?_, call.prepare platform moment client.stores.book, ?_, ?_,
    named.trans (congrArg some keyed), acts.trans resolve, ?_⟩
  · intro later isLater flies
    obtain ⟨place, placed⟩ := List.mem_iff_getElem?.mp isLater
    rcases inFlight_of_step stepped placed flies with
      ⟨other, isOther, otherFlies, same⟩ |
        ⟨_, another, sameLabel, isAnother, _, rfl⟩
    · have calm := orderly.apart index moment call rfl found stage keyed
        other (List.mem_of_getElem? isOther) otherFlies
      rw [resolve] at calm
      rw [same]
      cases action : other.signal.action with
      | resolve => rfl
      | trigger | acknowledge =>
          rw [action] at calm
          cases calm
    · cases sameLabel
      cases found.symm.trans isAnother
      exact acts.trans resolve
  · rw [isNext, Client.putCall]
    exact List.getElem?_set_self bound
  · rw [Call.prepare, if_pos lifecycle]
    exact Nat.one_lt_two
  · intro name lists
    rw [isNext] at lists
    change client.stores.book.Lists key name at lists
    obtain ⟨alert, listed, rfl⟩ := lists
    have configured := kept.listed alert.provider (by
      obtain ⟨state, stored, _⟩ :=
        AlertBook.mem_openAlerts.mp ⟨alert, listed, rfl⟩
      rw [stored]
      exact Option.some_ne_none state)
    have held : alert ∈ holders call.pipeline client.stores.book key := by
      rw [← fired.pipeline] at configured
      exact List.mem_filter.mpr ⟨listed, configured⟩
    rw [Call.prepare, if_pos lifecycle]
    refine ⟨by simp [CallStage.rank], ?_⟩
    dsimp only
    rw [keyed, targets_lifecyclePlan_of_holders (List.ne_nil_of_mem held)]
    exact List.mem_map.mpr ⟨alert, held, rfl⟩

/-- While only resolves are in flight nobody is listed anew, and nobody
stays listed that a recorded delivery reached. -/
theorem lists_of_lists_step
    (resolves : ∀ call ∈ client.calls, call.InFlight key →
      call.signal.action = .resolve)
    (stepped : client.step platform label = some next) {name : String}
    (lists : next.stores.book.Lists key name) :
    client.stores.book.Lists key name ∧
      ∀ call, notes client label = some call →
        call.signal.dedupKey = some key →
          call.result.deliveredBy name ≠ true := by
  rw [AlertBook.Lists, AlertBook.mem_openAlerts] at lists ⊢
  rw [stateOf_step stepped] at lists
  cases noted : notes client label with
  | none =>
      rw [noted] at lists
      refine ⟨lists, ?_⟩
      intro call same
      cases same
  | some call =>
      rw [noted] at lists
      dsimp only at lists
      split at lists
      · rename_i both
        obtain ⟨index, moment, rfl, found, stage⟩ := notes_eq_some noted
        have flies : call.InFlight key :=
          ⟨by simp [stage, CallStage.rank], by simp [stage, CallStage.rank],
            both.1⟩
        rw [resolves call (List.mem_of_getElem? found) flies] at lists
        obtain ⟨state, stored, open_⟩ := lists
        obtain ⟨_, _, rfl⟩ := Option.map_eq_some_iff.mp stored
        exact absurd rfl open_
      · rename_i notBoth
        refine ⟨lists, ?_⟩
        rintro other same keyed delivered
        cases same
        exact notBoth ⟨keyed, delivered⟩

theorem closing_step
    {index : Nat} (kept : Kept platform pipeline key client)
    (closing : Closing key index client)
    (silent : ¬ Prepares platform key client label)
    (async : FireAndForget label)
    (stepped : client.step platform label = some next) :
    Closing key index next := by
  obtain ⟨resolves, call, found, planned, keyed, acts, listed⟩ := closing
  obtain ⟨later, isLater, became⟩ := call_step found stepped
  have fired := kept.fired call (List.mem_of_getElem? found)
  refine ⟨?_, later, isLater, ?_⟩
  · intro other isOther flies
    obtain ⟨place, placed⟩ := List.mem_iff_getElem?.mp isOther
    rcases inFlight_of_step stepped placed flies with
      ⟨older, isOlder, olderFlies, same⟩ |
        ⟨moment, another, rfl, isAnother, stage, rfl⟩
    · rw [same]
      exact resolves older (List.mem_of_getElem? isOlder) olderFlies
    · obtain ⟨_, named⟩ := signal_prepare
        (kept.fired another (List.mem_of_getElem? isAnother)) stage async
          client.stores.book
      exact absurd ⟨place, moment, another, rfl, isAnother, stage,
        Option.some.inj (named.symm.trans flies.2.2)⟩ silent
  · rcases became with rfl | ⟨moved, moves, rfl⟩
    · refine ⟨planned, keyed, acts, fun name lists => ?_⟩
      exact listed name (lists_of_lists_step resolves stepped lists).1
    · have further := rank_callMove moves.move
      have signal := signal_callMove (Nat.zero_lt_of_lt planned) moves.move
      refine ⟨Nat.lt_of_lt_of_le planned further, signal ▸ keyed,
        signal ▸ acts, fun name lists => ?_⟩
      obtain ⟨before, unreached⟩ :=
        lists_of_lists_step resolves stepped lists
      obtain ⟨unrecorded, target⟩ := listed name before
      rw [plan_callMove planned moves.move]
      refine ⟨?_, target⟩
      by_contra recorded
      rcases crossing_callMove moves.move unrecorded
        (Nat.not_lt.mp recorded) with stage | ⟨_, empty⟩
      · have configured : pipeline.providers.contains name = true := by
          obtain ⟨state, stored, _⟩ := AlertBook.mem_openAlerts.mp before
          exact kept.listed name (stored ▸ Option.some_ne_none state)
        exact unreached call (notes_of_noting found stage moves) keyed
          (deliveredBy_of_target fired stage target configured)
      · rw [empty] at target
        cases target

end Step

/-! ## Main result -/

/-- If the signals of a key end with a resolve, and each was prepared while
none that disturbs it was in flight, then in the end nobody is left with an
alert: no alert of the key is open, and every provider that was sent a
trigger was sent a resolve after it. -/
theorem last_resolve_wins
    {labels : List ClientStep} {final : Client}
    (reached : Runs platform (fun client label =>
        FireAndForget label ∧ OrderlyCalls platform key client label)
      pipeline labels final)
    (ends : EndsResolved platform pipeline key labels)
    (finished : ∀ call ∈ final.calls, call.stage = .done) :
    final.stores.book.openAlerts key = [] ∧
      ∀ name, Resolved key name final.stores.trace := by
  obtain ⟨before, index, moment, after, middle, next, call, rfl, earlier,
    found, stage, resolve, keyed, prepared, silent⟩ := ends
  obtain ⟨state, first, later⟩ := reached.split
  obtain rfl := first.unique earlier
  obtain ⟨other, ⟨async, orderly⟩, stepped, rest⟩ :=
    reaches_cons_iff.mp later
  cases stepped.symm.trans prepared
  have keptMiddle : Kept platform pipeline key state :=
    first.invariant kept_fromPipeline fun _ _ _ kept met stepped =>
      keptSends_step kept met.1 met.2 stepped
  have keptNext := keptSends_step keptMiddle async orderly prepared
  have closingNext := closing_prepare keptMiddle async orderly found stage
    resolve keyed prepared
  have both : Kept platform pipeline key final ∧
      Closing key index final := by
    have quiet := rest.strengthen silent
    clear finished reached later rest silent
    induction quiet with
    | nil => exact ⟨keptNext, closingNext⟩
    | snoc _ met stepped inductionHypothesis =>
        obtain ⟨kept, closing⟩ := inductionHypothesis
        exact ⟨keptSends_step kept met.1.1 met.1.2 stepped,
          closing_step kept closing met.2 met.1.1 stepped⟩
  obtain ⟨kept, _, last, isLast, _, _, _, listed⟩ := both
  have nobody : ∀ name, ¬ final.stores.book.Lists key name := by
    intro name lists
    have unrecorded := (listed name lists).1
    rw [finished last (List.mem_of_getElem? isLast)] at unrecorded
    exact absurd unrecorded (by decide)
  constructor
  · rw [List.eq_nil_iff_forall_not_mem]
    intro alert member
    exact nobody alert.provider ⟨alert, member, rfl⟩
  · intro name
    rcases kept.accounted name with
      resolved | lists | ⟨call, isCall, flies, _⟩
    · exact resolved
    · exact absurd lists (nobody name)
    · have unrecorded := flies.2.1
      rw [finished call isCall] at unrecorded
      exact absurd unrecorded (by decide)

/-! ## Sample runs -/

theorem willing_plainMoment : plainMoment.answers.Willing :=
  fun _ _ => ⟨none, rfl⟩

instance (key : String) (call : Call) : Decidable (call.InFlight key) :=
  inferInstanceAs (Decidable (_ ∧ _ ∧ _))

theorem orderly_call_iff
    {client : Client} {index : Nat} {moment : Moment} :
    OrderlyCalls platform key client (.call index moment) ↔
      (∀ call ∈ client.calls[index]?, call.stage = .preparing →
        call.input.effectiveDedupKey platform = key →
          ∀ other ∈ client.calls, other.InFlight key →
            other.signal.action.disturbs call.input.action = false) ∧
        ∀ sender ∈ client.stores.senders, sender.stage = .delivering →
          sender.signal.dedupKey = some key →
            sender.signal.action ≠ .trigger := by
  constructor
  · rintro ⟨apart, groups⟩
    exact ⟨fun call found => apart index moment call rfl found, groups⟩
  · rintro ⟨apart, groups⟩
    refine ⟨?_, groups⟩
    intro other _ call same found
    cases same
    exact apart call found

instance decidableOrderly (client : Client) :
    ∀ label, Decidable (OrderlyCalls platform key client label)
  | .call _ _ => decidable_of_iff' _ orderly_call_iff
  | .start _ _ | .deliver _ _ | .cut _ _ | .timer _ | .flush | .sender _ _
  | .deliverGroup _ _ | .reload _ =>
      decidable_of_iff
        (∀ sender ∈ client.stores.senders, sender.stage = .delivering →
          sender.signal.dedupKey = some key →
            sender.signal.action ≠ .trigger)
        ⟨fun groups => ⟨fun _ _ _ same => (nomatch same), groups⟩,
          OrderlyCalls.groups⟩

theorem prepares_iff {client : Client} {label : ClientStep} :
    Prepares platform key client label ↔
      (match label with
        | .call index _ => client.calls[index]?.any fun call =>
            decide (call.stage = .preparing) &&
              decide (call.input.effectiveDedupKey platform = key)
        | _ => false) = true := by
  constructor
  · rintro ⟨index, moment, call, rfl, found, stage, keyed⟩
    simp [found, stage, keyed]
  · intro computed
    cases label with
    | call index moment =>
        obtain ⟨call, found, both⟩ :=
          Option.any_eq_true _ _ |>.mp computed
        rw [Bool.and_eq_true, decide_eq_true_eq, decide_eq_true_eq] at both
        exact ⟨index, moment, call, rfl, found, both⟩
    | start | deliver | cut | timer | flush | sender | deliverGroup
    | reload => cases computed

instance (client : Client) (label : ClientStep) :
    Decidable (Prepares platform key client label) :=
  decidable_of_iff' _ prepares_iff

/-- A run whose labels are all fire-and-forget. -/
theorem async_of_run
    {condition : Client → ClientStep → Prop} {labels : List ClientStep}
    {start final : Client} (async : ∀ label ∈ labels, FireAndForget label)
    (reached : Reaches (Client.step platform) condition start labels final) :
    Reaches (Client.step platform) (fun client label =>
      FireAndForget label ∧ condition client label) start labels final := by
  induction reached with
  | nil => exact Reaches.nil
  | @snoc labels state next label _ met stepped inductionHypothesis =>
      have early := inductionHypothesis fun other member =>
        async other (List.mem_append_left _ member)
      exact Reaches.snoc early
        ⟨async label (by simp), met⟩ stepped

/-- The call with this index is about to be prepared, and resolves. -/
def Client.resolvesNext
    (client : Client) (platform : Platform) (key : String) (index : Nat) :
    Bool :=
  client.calls[index]?.any fun call =>
    decide (call.stage = .preparing) &&
      decide (call.input.action = .resolve) &&
        decide (call.input.effectiveDedupKey platform = key)

theorem endsResolved_of_run
    {before after : List ClientStep} {index : Nat} {moment : Moment}
    (computed : ((run (Client.step platform) anyStep
      (Client.fromPipeline pipeline) before).any fun middle =>
        middle.resolvesNext platform key index &&
          (middle.step platform (.call index moment)).any fun next =>
            (run (Client.step platform) (fun client label =>
              ¬ Prepares platform key client label) next after).isSome) =
        true) :
    EndsResolved platform pipeline key
      (before ++ .call index moment :: after) := by
  obtain ⟨middle, earlier, computed⟩ := Option.any_eq_true _ _ |>.mp computed
  rw [Bool.and_eq_true, Option.any_eq_true] at computed
  obtain ⟨resolves, next, prepared, later⟩ := computed
  obtain ⟨call, found, both⟩ := Option.any_eq_true _ _ |>.mp resolves
  simp only [Bool.and_eq_true, decide_eq_true_eq] at both
  obtain ⟨⟨stage, isResolve⟩, keyed⟩ := both
  obtain ⟨final, isFinal⟩ := Option.isSome_iff_exists.mp later
  have silent := reaches_of_run isFinal
  have every := @everyStep_iff _ _ (Client.step platform)
    (fun client label => ¬ Prepares platform key client label) _ _ _
    (fun client label _ => ¬ Prepares platform key client label)
    silent.anyStep fun _ _ _ _ _ _ => Iff.rfl
  exact ⟨before, index, moment, after, middle, next, call, rfl,
    reaches_of_run earlier, found, stage, isResolve, keyed, prepared,
    every.mpr silent⟩

/-- The disk alert is raised, and its resolve is called for after that. -/
def raisedDisk : List ClientStep :=
  wholeCall .trigger 0 5 ++ [.start (diskInput .resolve) false]

/-- The rest of the resolve, once it is prepared. -/
def lastResolve : List ClientStep :=
  List.replicate 2 (.call 1 plainMoment) ++
    List.replicate 3 (.deliver 1 0) ++
      List.replicate 4 (.call 1 plainMoment)

def OrderlyDisk (client : Client) (label : ClientStep) : Prop :=
  OrderlyCalls plainPlatform "disk" client label

instance decidableOrderlyDisk (client : Client) (label : ClientStep) :
    Decidable (OrderlyDisk client label) :=
  decidableOrderly client label

theorem async_disk :
    ∀ label ∈ raisedDisk ++ .call 1 plainMoment :: lastResolve,
      FireAndForget label := by
  simp [raisedDisk, lastResolve, wholeCall, or_imp, forall_and,
    FireAndForget, willing_plainMoment]

theorem ends_disk :
    EndsResolved plainPlatform pagedPipeline "disk"
      (raisedDisk ++ .call 1 plainMoment :: lastResolve) :=
  endsResolved_of_run (by decide +kernel)

/-- The general theorem where the resolve is called for in time. -/
theorem last_resolve_wins_disk :
    ∃ final, Runs plainPlatform (fun client label =>
        FireAndForget label ∧ OrderlyCalls plainPlatform "disk" client label)
      pagedPipeline
      (raisedDisk ++ .call 1 plainMoment :: lastResolve) final ∧
        final.stores.book.openAlerts "disk" = [] ∧
          ∀ name, Resolved "disk" name final.stores.trace := by
  have computed : ((run (Client.step plainPlatform) OrderlyDisk
      (Client.fromPipeline pagedPipeline)
      (raisedDisk ++ .call 1 plainMoment :: lastResolve)).any fun client =>
        client.calls.all fun call => decide (call.stage = .done)) = true := by
    decide +kernel
  obtain ⟨final, ran, finished⟩ := Option.any_eq_true _ _ |>.mp computed
  have orderly := async_of_run async_disk (reaches_of_run ran)
  have done : ∀ call ∈ final.calls, call.stage = .done :=
    fun call member => of_decide_eq_true (List.all_eq_true.mp finished _ member)
  exact ⟨final, orderly, last_resolve_wins orderly ends_disk done⟩

/-! A resolve that overtakes the trigger -/

/-- Everything goes to Slack. -/
def slackPipeline : Pipeline where
  routing := ⟨[{ providers := ["slack"] }]⟩
  providers := [("slack", ⟨"slack", false⟩)]

/-- The trigger is about to be sent when its resolve is called for. -/
def triggerInFlight : List ClientStep :=
  .start (diskInput .trigger) false ::
    List.replicate 5 (.call 0 plainMoment) ++
      [.start (diskInput .resolve) false]

/-- The resolve finds no alert, and the trigger is sent after it. -/
def overtakenResolve : List ClientStep :=
  List.replicate 3 (.call 1 plainMoment) ++
    List.replicate 3 (.deliver 0 0) ++
      List.replicate 4 (.call 0 plainMoment)

theorem async_overtaken :
    ∀ label ∈ triggerInFlight ++ .call 1 plainMoment :: overtakenResolve,
      FireAndForget label := by
  simp [triggerInFlight, overtakenResolve, or_imp, forall_and, FireAndForget,
    willing_plainMoment]

theorem ends_overtaken :
    EndsResolved plainPlatform slackPipeline "disk"
      (triggerInFlight ++ .call 1 plainMoment :: overtakenResolve) :=
  endsResolved_of_run (by decide +kernel)

/-- The alert stays open: the resolve was sent to nobody. -/
theorem overtaken_resolve_leaves_alert :
    ¬ ∀ (pipeline : Pipeline) (labels : List ClientStep) (final : Client),
        Runs plainPlatform (fun _ label => FireAndForget label) pipeline
            labels final →
          EndsResolved plainPlatform pipeline "disk" labels →
            (∀ call ∈ final.calls, call.stage = .done) →
              final.stores.book.openAlerts "disk" = [] ∧
                ∀ name, Resolved "disk" name final.stores.trace := by
  intro claimed
  have computed : ((run (Client.step plainPlatform) anyStep
      (Client.fromPipeline slackPipeline)
      (triggerInFlight ++ .call 1 plainMoment :: overtakenResolve)).any
        fun client =>
          (client.calls.all fun call => decide (call.stage = .done)) &&
            !(client.stores.book.openAlerts "disk").isEmpty) = true := by
    decide +kernel
  obtain ⟨final, ran, computed⟩ := Option.any_eq_true _ _ |>.mp computed
  rw [Bool.and_eq_true, List.all_eq_true] at computed
  obtain ⟨finished, listed⟩ := computed
  have reached := async_of_run async_overtaken (reaches_of_run ran)
  obtain ⟨nobody, _⟩ := claimed _ _ _ (reached.weaken fun _ _ met => met.1)
    ends_overtaken fun call member => of_decide_eq_true (finished call member)
  rw [nobody] at listed
  cases listed

end OpsSignal
