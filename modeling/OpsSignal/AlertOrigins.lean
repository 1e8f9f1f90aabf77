import OpsSignal.ClientRuns
import OpsSignal.CutDelivery
import OpsSignal.Lib.Causes
import OpsSignal.ResolvedAlerts

/-!
# Where the alert book is from

Every row of the book goes back to a trigger that its provider took, with
the reference that the provider returned for it, and to the delivered
signal that left it in its state.  A provider is called with a reference
only where it returned that reference for a trigger of the same key.
-/

namespace OpsSignal

open Causes Interleaving LabelledRuns

variable {platform : Platform}

/-! ## What a delivery says about its providers -/

/-- A reported outcome was answered, and the references that are kept are
those that were returned. -/
structure Replies (events : List ChainEvent) : Prop where
  plain : ∀ outcome : ProviderOutcome, .reported outcome ∈ events →
    outcome.status = .pending ∨ outcome.status = .delivered ∨
      outcome.status = .failed
  delivered : ∀ outcome : ProviderOutcome, .reported outcome ∈ events →
    outcome.status = .delivered →
      ∃ alertRef, .answered outcome.provider (.ok alertRef) ∈ events
  failed : ∀ outcome : ProviderOutcome, .reported outcome ∈ events →
    outcome.status = .failed → ∃ error, outcome.error = some error ∧
      .answered outcome.provider (.error error) ∈ events
  returned : ∀ name alertRef, .kept name alertRef ∈ events →
    .answered name (.ok (some alertRef)) ∈ events
  kept : ∀ name alertRef, .answered name (.ok (some alertRef)) ∈ events →
    .kept name alertRef ∈ events

theorem replies_nil : Replies [] := by
  constructor <;> simp

theorem Replies.append
    {first second : List ChainEvent} (before : Replies first)
    (after : Replies second) : Replies (first ++ second) where
  plain outcome member :=
    (List.mem_append.mp member).elim (before.plain outcome)
      (after.plain outcome)
  delivered outcome member status := by
    rcases List.mem_append.mp member with earlier | later
    · obtain ⟨alertRef, answered⟩ := before.delivered outcome earlier status
      exact ⟨alertRef, List.mem_append_left _ answered⟩
    · obtain ⟨alertRef, answered⟩ := after.delivered outcome later status
      exact ⟨alertRef, List.mem_append_right _ answered⟩
  failed outcome member status := by
    rcases List.mem_append.mp member with earlier | later
    · obtain ⟨error, isError, answered⟩ :=
        before.failed outcome earlier status
      exact ⟨error, isError, List.mem_append_left _ answered⟩
    · obtain ⟨error, isError, answered⟩ := after.failed outcome later status
      exact ⟨error, isError, List.mem_append_right _ answered⟩
  returned name alertRef member := by
    rcases List.mem_append.mp member with earlier | later
    · exact List.mem_append_left _ (before.returned name alertRef earlier)
    · exact List.mem_append_right _ (after.returned name alertRef later)
  kept name alertRef member := by
    rcases List.mem_append.mp member with earlier | later
    · exact List.mem_append_left _ (before.kept name alertRef earlier)
    · exact List.mem_append_right _ (after.kept name alertRef later)

section Chain

variable {providers : Registry} {priorRef : String → Option String}
  {answers : Answers} {task next : ChainTask} {now : List ChainEvent}

/-- What one step of a target emits answers for itself. -/
theorem replies_step
    (stepped : deliverChain providers priorRef answers task =
      some (next, now)) : Replies now := by
  cases task with
  | idle rest =>
      cases rest with
      | nil => cases stepped
      | cons name rest =>
          rw [deliverChain] at stepped
          split at stepped
          · cases stepped
            constructor <;> simp
          · cases stepped
            constructor <;> simp
  | calling name attempt rest =>
      cases stepped
      constructor <;> simp
  | sleeping name attempt rest =>
      cases stepped
      exact replies_nil
  | awaiting name attempt rest =>
      cases answer : answers name attempt with
      | ok alertRef =>
          rw [deliverChain, answer] at stepped
          cases stepped
          cases alertRef with
          | none => constructor <;> simp [keepRef]
          | some alertRef => constructor <;> simp [keepRef]
      | error e =>
          rw [deliverChain, answer] at stepped
          dsimp only at stepped
          split at stepped
          · cases stepped
            constructor <;> simp
          · cases stepped
            constructor <;> simp

/-- A target sends with the reference that it looked up. -/
theorem prior_of_sent
    (stepped : deliverChain providers priorRef answers task =
      some (next, now)) {name : String} {prior : Option String}
    (sent : .sent name prior ∈ now) : prior = priorRef name := by
  cases task with
  | idle rest =>
      cases rest with
      | nil => cases stepped
      | cons head rest =>
          rw [deliverChain] at stepped
          split at stepped
          · cases stepped
            simp at sent
          · cases stepped
            simp at sent
  | calling head attempt rest =>
      cases stepped
      rw [List.mem_singleton, ChainEvent.sent.injEq] at sent
      rw [sent.1, sent.2]
  | sleeping head attempt rest =>
      cases stepped
      exact absurd sent List.not_mem_nil
  | awaiting head attempt rest =>
      cases answer : answers head attempt with
      | ok alertRef =>
          rw [deliverChain, answer] at stepped
          cases stepped
          cases alertRef <;> simp [keepRef] at sent
      | error e =>
          rw [deliverChain, answer] at stepped
          dsimp only at stepped
          split at stepped
          · cases stepped
            simp at sent
          · cases stepped
            simp at sent

variable {plan : DeliveryPlan} {schedule : List Nat}
  {system : System ChainTask ChainEvent}

theorem replies_of_delivering
    (reached :
      Delivering plan providers priorRef answers schedule system) :
    Replies (events system) := by
  have begins : Replies (events (deliverStart plan)) := replies_nil
  apply reached.invariant begins
  intro system chain next replies _ stepped
  obtain ⟨task, moved, now, _, moves, rfl⟩ := advance_eq_some.mp stepped
  have whole := replies.append (replies_step moves)
  simpa [events] using whole

end Chain

/-! ## The references of a delivery -/

/-- The references on record are some that were kept. -/
theorem kept_of_mem_refs {name alertRef : String}
    {events : List ChainEvent} :
    (name, alertRef) ∈ (Tracker.after events).refs →
      .kept name alertRef ∈ events := by
  induction events using List.reverseRecOn with
  | nil => exact fun member => absurd member List.not_mem_nil
  | append_singleton events event inductionHypothesis =>
      rw [Tracker.after, List.foldl_append, ← Tracker.after]
      cases event with
      | kept other otherRef =>
          intro member
          rcases List.mem_append.mp member with earlier | new
          · exact List.mem_append_left _
              (inductionHypothesis (List.mem_filter.mp earlier).1)
          · rw [List.mem_singleton.mp new |> Prod.mk.inj |>.1,
              List.mem_singleton.mp new |> Prod.mk.inj |>.2]
            exact List.mem_append_right _ List.mem_cons_self
      | unknown | sent | answered | reported =>
          exact fun member =>
            List.mem_append_left _ (inductionHypothesis member)

/-- Where a reference was kept, there is one on record. -/
theorem exists_ref_of_kept {name alertRef : String}
    {events : List ChainEvent} :
    .kept name alertRef ∈ events →
      ∃ last, (name, last) ∈ (Tracker.after events).refs := by
  induction events using List.reverseRecOn with
  | nil => exact fun member => absurd member List.not_mem_nil
  | append_singleton events event inductionHypothesis =>
      rw [Tracker.after, List.foldl_append, ← Tracker.after]
      intro member
      cases event with
      | kept other otherRef =>
          by_cases same : other = name
          · subst same
            exact ⟨otherRef, List.mem_append_right _ List.mem_cons_self⟩
          · have earlier : ChainEvent.kept name alertRef ∈ events := by
              rcases List.mem_append.mp member with earlier | new
              · exact earlier
              · have sameEvent := List.mem_singleton.mp new
                rw [ChainEvent.kept.injEq] at sameEvent
                exact absurd sameEvent.1.symm same
            obtain ⟨last, listed⟩ := inductionHypothesis earlier
            refine ⟨last, List.mem_append_left _ ?_⟩
            exact List.mem_filter.mpr ⟨listed, by simpa using Ne.symm same⟩
      | unknown | sent | answered | reported =>
          simp only [List.mem_append, List.mem_singleton, reduceCtorEq,
            or_false] at member
          exact inductionHypothesis member

/-- What a provider that delivered returned is what is on record. -/
theorem answered_lookup {events : List ChainEvent} (replies : Replies events)
    {name : String} {alertRef : Option String}
    (answered : .answered name (.ok alertRef) ∈ events) :
    .answered name (.ok ((Tracker.after events).refs.lookup name)) ∈
      events := by
  cases found : (Tracker.after events).refs.lookup name with
  | some last =>
      obtain ⟨before, after, shape, _⟩ := List.lookup_eq_some_iff.mp found
      apply replies.returned name last
      apply kept_of_mem_refs
      rw [shape]
      exact List.mem_append_right _ List.mem_cons_self
  | none =>
      cases alertRef with
      | none => exact answered
      | some alertRef =>
          obtain ⟨last, listed⟩ :=
            exists_ref_of_kept (replies.kept name alertRef answered)
          have absent := List.lookup_eq_none_iff.mp found _ listed
          simp at absent

/-! ## What the trace says about a row -/

/-- The provider took a trigger of the key, and returned this for it. -/
def Raised
    (key name : String) (alertRef : Option String) (trace : List Effect) :
    Prop :=
  ∃ signal : Signal, signal.action = .trigger ∧
    signal.dedupKey = some key ∧
      .delivering signal (.answered name (.ok alertRef)) ∈ trace

/-- A row is from a trigger that its provider took, and its state from a
signal that its provider took. -/
structure AlertRow.Vouched (row : AlertRow) (trace : List Effect) :
    Prop where
  raised : ∃ signal : Signal, signal.action = .trigger ∧
    signal.dedupKey = some row.dedupKey ∧ signal.id = row.signalId ∧
      signal.title = row.title ∧
      .delivering signal (.answered row.provider (.ok row.alertRef)) ∈ trace
  moved : ∃ (signal : Signal) (alertRef : Option String),
    signal.dedupKey = some row.dedupKey ∧
      stateAfter signal.action = row.state ∧
      .delivering signal (.answered row.provider (.ok alertRef)) ∈ trace

theorem AlertRow.Vouched.append
    {row : AlertRow} {trace : List Effect} (vouched : row.Vouched trace)
    (more : List Effect) : row.Vouched (trace ++ more) where
  raised := by
    obtain ⟨signal, trigger, keyed, named, titled, answered⟩ :=
      vouched.raised
    exact ⟨signal, trigger, keyed, named, titled,
      List.mem_append_left _ answered⟩
  moved := by
    obtain ⟨signal, alertRef, keyed, left, answered⟩ := vouched.moved
    exact ⟨signal, alertRef, keyed, left, List.mem_append_left _ answered⟩

theorem raised_append
    {key name : String} {alertRef : Option String} {trace : List Effect}
    (raised : Raised key name alertRef trace) (more : List Effect) :
    Raised key name alertRef (trace ++ more) := by
  obtain ⟨signal, trigger, keyed, answered⟩ := raised
  exact ⟨signal, trigger, keyed, List.mem_append_left _ answered⟩

theorem mem_upsertRow {row new : AlertRow} :
    ∀ {rows : List AlertRow}, row ∈ upsertRow new rows →
      row = new ∨ row ∈ rows
  | [], member => Or.inl (List.mem_singleton.mp member)
  | existing :: rest, member => by
      rw [upsertRow] at member
      split at member
      · exact (List.mem_cons.mp member).imp_right (List.mem_cons_of_mem _)
      · rcases List.mem_cons.mp member with rfl | later
        · exact Or.inr List.mem_cons_self
        · exact (mem_upsertRow later).imp_right (List.mem_cons_of_mem _)

section Record

variable {signal : Signal} {key : String} {refs : List (String × String)}
  {trace : List Effect}

/-- Recording an outcome that was answered keeps every row vouched. -/
private theorem vouched_recordOutcome
    {book : AlertBook} (all : ∀ row ∈ book.rows, row.Vouched trace)
    (keyed : signal.dedupKey = some key) {outcome : ProviderOutcome}
    (answered : .delivering signal (.answered outcome.provider
      (.ok (refs.lookup outcome.provider))) ∈ trace) :
    ∀ row ∈ (AlertBook.recordOutcome signal key refs book outcome).rows,
      row.Vouched trace := by
  have moves : ∀ state : AlertState, stateAfter signal.action = state →
      ∀ row ∈ (book.setState (key, outcome.provider) state).rows,
        row.Vouched trace := by
    intro state left row member
    obtain ⟨old, isOld, rfl⟩ := List.mem_map.mp member
    have vouched := all old isOld
    rw [setStateRow]
    split
    · rename_i same
      obtain ⟨sameKey, sameName⟩ := Prod.mk.inj same
      refine ⟨vouched.raised, signal, refs.lookup outcome.provider, ?_,
        left, ?_⟩
      · exact keyed.trans (congrArg some sameKey.symm)
      · exact sameName ▸ answered
    · exact vouched
  intro row member
  rw [AlertBook.recordOutcome] at member
  cases action : signal.action with
  | trigger =>
      rw [action] at member
      rcases mem_upsertRow member with rfl | old
      · refine ⟨⟨signal, action, keyed, rfl, rfl, answered⟩,
          signal, _, keyed, ?_, answered⟩
        rw [action]
        rfl
      · exact all row old
  | acknowledge =>
      rw [action] at member
      exact moves _ (by rw [action]) row member
  | resolve =>
      rw [action] at member
      exact moves _ (by rw [action]) row member

/-- So does recording a delivery whose successes were answered. -/
theorem vouched_record
    {book : AlertBook} (all : ∀ row ∈ book.rows, row.Vouched trace)
    {result : DeliveryResult}
    (answered : ∀ outcome ∈ result.deliveries,
      outcome.status = .delivered →
        .delivering signal (.answered outcome.provider
          (.ok (refs.lookup outcome.provider))) ∈ trace) :
    ∀ row ∈ (book.record signal result refs).rows, row.Vouched trace := by
  rw [AlertBook.record]
  cases keyed : signal.dedupKey with
  | none => exact all
  | some key =>
      dsimp only
      have each : ∀ outcome ∈ result.deliveries.filter fun outcome =>
          outcome.status = .delivered,
          .delivering signal (.answered outcome.provider
            (.ok (refs.lookup outcome.provider))) ∈ trace := by
        intro outcome member
        obtain ⟨listed, status⟩ := List.mem_filter.mp member
        exact answered outcome listed (by simpa using status)
      generalize (result.deliveries.filter fun outcome =>
        outcome.status = .delivered) = outcomes at each
      clear answered
      induction outcomes generalizing book with
      | nil => exact all
      | cons outcome rest inductionHypothesis =>
          apply inductionHypothesis
          · exact vouched_recordOutcome all keyed
              (each outcome List.mem_cons_self)
          · exact fun other member =>
              each other (List.mem_cons_of_mem _ member)

end Record

/-! ## What a call knows -/

/-- An outcome in the result of a delivery was reported, or it was pending
when the delivery was cut off. -/
theorem reported_or_cut
    {plan : DeliveryPlan} {system : System ChainTask ChainEvent}
    {cutOff : Option String} {outcome : ProviderOutcome}
    (member : outcome ∈ (deliveryResult plan system cutOff).deliveries) :
    .reported outcome ∈ events system ∨
      ∃ message, cutOff = some message ∧ outcome.status = .failed ∧
        outcome.error = some message := by
  rw [deliveryResult, deliveries_summarize] at member
  obtain ⟨chain, _, tried⟩ := List.mem_flatMap.mp member
  obtain ⟨recorded, isRecorded, rfl⟩ := List.mem_map.mp tried
  obtain ⟨name, _, found⟩ := List.mem_filterMap.mp isRecorded
  have reported : ChainEvent.reported recorded ∈ events system := by
    rw [find?_outcomes_after] at found
    obtain ⟨event, logged, reports⟩ :=
      List.mem_filterMap.mp (List.mem_of_getLast? found)
    cases event with
    | reported other =>
        rw [reportOf] at reports
        split at reports
        · cases reports
          exact logged
        · cases reports
    | unknown | sent | answered | kept => cases reports
  cases cutOff with
  | none => exact Or.inl reported
  | some message =>
      rw [cutShort]
      split
      · exact Or.inr ⟨message, rfl, rfl, rfl⟩
      · exact Or.inl reported

/-- What a call has done is in the trace, and the references that it was
given were returned for triggers of its key. -/
structure Call.Traced (call : Call) (trace : List Effect) : Prop where
  valid : validate call.input = .ok ()
  begins : call.stage = .preparing →
    call.system.log = [] ∧ call.priorRefs = []
  logged : ∀ event ∈ events call.system,
    .delivering call.signal event ∈ trace
  referred : ∀ name alertRef, (name, alertRef) ∈ call.priorRefs →
    call.signal.action.isLifecycle = true ∧
      ∃ key, call.signal.dedupKey = some key ∧
        Raised key name (some alertRef) trace

theorem Call.Traced.append
    {call : Call} {trace : List Effect} (traced : call.Traced trace)
    (more : List Effect) : call.Traced (trace ++ more) where
  valid := traced.valid
  begins := traced.begins
  logged event member := List.mem_append_left _ (traced.logged event member)
  referred name alertRef member := by
    obtain ⟨lifecycle, key, keyed, raised⟩ :=
      traced.referred name alertRef member
    exact ⟨lifecycle, key, keyed, raised_append raised more⟩

theorem traced_newCall
    (client : Client) {input : SignalInput} (waits : Bool)
    (valid : validate input = .ok ()) (trace : List Effect) :
    (client.newCall platform input waits).Traced trace where
  valid := valid
  begins _ := ⟨rfl, rfl⟩
  logged _ member := absurd member List.not_mem_nil
  referred _ _ member := absurd member List.not_mem_nil

/-- The references of the open alerts are those of their rows. -/
theorem mem_priorRefs_openAlerts
    {book : AlertBook} {key name alertRef : String}
    (member : (name, alertRef) ∈ priorRefs (book.openAlerts key)) :
    ∃ row ∈ book.rows, row.dedupKey = key ∧ row.provider = name ∧
      row.alertRef = some alertRef ∧ row.state ≠ .resolved := by
  obtain ⟨alert, listed, paired⟩ := List.mem_filterMap.mp member
  obtain ⟨row, open_, rfl⟩ := List.mem_map.mp listed
  obtain ⟨isRow, holds⟩ := List.mem_filter.mp open_
  simp only [Bool.and_eq_true, beq_iff_eq, decide_eq_true_eq] at holds
  obtain ⟨returned, isRef, same⟩ := Option.map_eq_some_iff.mp paired
  obtain ⟨sameName, sameRef⟩ := Prod.mk.inj same
  exact ⟨row, isRow, holds.1, sameName, isRef.trans (congrArg some sameRef), holds.2⟩

/-- A call reads its references out of a book that is vouched for. -/
theorem traced_prepare
    {call : Call} {book : AlertBook} {trace : List Effect}
    (traced : call.Traced trace) (stage : call.stage = .preparing)
    (rows : ∀ row ∈ book.rows, row.Vouched trace) (moment : Moment) :
    (call.prepare platform moment book).Traced trace := by
  have silent : ∀ event ∈ events call.system,
      ∀ signal : Signal, .delivering signal event ∈ trace := by
    intro event member
    rw [events, (traced.begins stage).1] at member
    exact absurd member List.not_mem_nil
  rw [Call.prepare]
  split
  · rename_i lifecycle
    refine ⟨traced.valid, CallStage.noConfusion,
      fun event member => silent event member _, ?_⟩
    intro name alertRef member
    obtain ⟨row, isRow, sameKey, rfl, isRef, _⟩ :=
      mem_priorRefs_openAlerts member
    obtain ⟨signal, trigger, keyed, _, _, answered⟩ :=
      (rows row isRow).raised
    refine ⟨lifecycle, row.dedupKey, ?_, signal, trigger, keyed, ?_⟩
    · rw [dedupKey_fromInput,
        effectiveDedupKey_fill traced.valid lifecycle, sameKey]
    · rw [← isRef]
      exact answered
  · refine ⟨traced.valid, CallStage.noConfusion,
      fun event member => silent event member _, ?_⟩
    intro name alertRef member
    dsimp only at member
    rw [(traced.begins stage).2] at member
    exact absurd member List.not_mem_nil

/-! ## What a step adds -/

/-- What stands before a send that carries a reference. -/
def Effect.Referenced : Effect → List Effect → Prop
  | .delivering signal (.sent name (some alertRef)), before =>
      signal.action.isLifecycle = true ∧
        ∃ key, signal.dedupKey = some key ∧
          Raised key name (some alertRef) before
  | _, _ => True

theorem lasting_referenced : Lasting Effect.Referenced := by
  intro effect before more referenced
  cases effect with
  | recorded signal => trivial
  | completed signal result => trivial
  | delivering signal event =>
      cases event with
      | sent name prior =>
          cases prior with
          | none => trivial
          | some alertRef =>
              obtain ⟨lifecycle, key, keyed, raised⟩ := referenced
              exact ⟨lifecycle, key, keyed, raised_append raised more⟩
      | unknown | answered | reported | kept => trivial

/-- A delivery sends with references that were returned. -/
theorem referenced_deliver
    {providers : Registry} {priorRef : String → Option String}
    {answers : Answers} {signal : Signal} {trace : List Effect}
    {system next : System ChainTask ChainEvent} {chain : Nat}
    (referred : ∀ name alertRef, priorRef name = some alertRef →
      Effect.Referenced (.delivering signal (.sent name (some alertRef)))
        trace)
    (advanced : advance (deliverChain providers priorRef answers) system
      chain = some next) :
    ∀ effect ∈ (next.log.drop system.log.length).map
        fun entry => Effect.delivering signal entry.2,
      effect.Referenced trace := by
  obtain ⟨task, moved, now, _, moves, rfl⟩ := advance_eq_some.mp advanced
  dsimp only
  rw [List.drop_left, List.map_map]
  intro effect member
  obtain ⟨event, isNew, rfl⟩ := List.mem_map.mp member
  cases event with
  | sent name prior =>
      cases prior with
      | none => trivial
      | some alertRef =>
          exact referred name alertRef (prior_of_sent moves isNew).symm
  | unknown | answered | reported | kept => trivial

section Moves

variable {call : Call} {sender : Sender} {stores : Stores}

/-- A move that delivers nothing. -/
private theorem Call.Traced.still
    {trace : List Effect} {later : Call} (traced : call.Traced trace)
    (input : later.input = call.input) (signal : later.signal = call.signal)
    (system : later.system = call.system)
    (priorRefs : later.priorRefs = call.priorRefs)
    (prepared : later.stage ≠ .preparing) : later.Traced trace where
  valid := input ▸ traced.valid
  begins stage := absurd stage prepared
  logged := by
    rw [system, signal]
    exact traced.logged
  referred := by
    rw [priorRefs, signal]
    exact traced.referred

theorem traced_callMove
    {moved : Call × Stores} (traced : call.Traced stores.trace)
    (rows : ∀ row ∈ stores.book.rows, row.Vouched stores.trace)
    (moves : CallMove platform call stores moved) :
    ∃ more, moved.2.trace = stores.trace ++ more ∧
      moved.1.Traced moved.2.trace ∧
        ∀ effect ∈ more, effect.Referenced stores.trace := by
  have silent : ∀ effect ∈ ([] : List Effect),
      effect.Referenced stores.trace :=
    fun _ member => absurd member List.not_mem_nil
  cases moves with
  | prepare moment stage =>
      exact ⟨[], (List.append_nil _).symm,
        traced_prepare traced stage rows moment, silent⟩
  | ask entry rest stage routes =>
      rw [Call.plan_, routes]
      refine ⟨[], (List.append_nil _).symm, ?_, silent⟩
      exact traced.still rfl rfl rfl rfl (by simp [stage])
  | record stage =>
      refine ⟨_, rfl, ?_, fun effect member => ?_⟩
      · have later : (call.record stores).1.stage ≠ .preparing := by
          dsimp only [Call.record]
          split
          · exact CallStage.noConfusion
          · exact CallStage.noConfusion
        exact (traced.append _).still rfl rfl rfl rfl later
      · rw [List.mem_singleton.mp member]
        trivial
  | unsent stage | complete stage =>
      refine ⟨_, rfl, ?_, fun effect member => ?_⟩
      · exact (traced.append _).still rfl rfl rfl rfl CallStage.noConfusion
      · rw [List.mem_singleton.mp member]
        trivial
  | send stage holds nonempty =>
      refine ⟨[], (List.append_nil _).symm, ?_, silent⟩
      exact
        { valid := traced.valid
          begins := CallStage.noConfusion
          logged := fun _ member => absurd member List.not_mem_nil
          referred := traced.referred }
  | skip entry rest stage holds absent =>
      refine ⟨[], (List.append_nil _).symm, ?_, silent⟩
      exact traced.still rfl rfl rfl rfl (by simp [stage])
  | join route entry rest stage holds listed =>
      have same := (stores.hold_facts platform route
        ⟨call.signal, (call.admission.splitOff platform route).2,
          call.plan.targets.isEmpty⟩).2.2.1
      refine ⟨[], ?_, ?_, silent⟩
      · rw [same, List.append_nil]
      · rw [same]
        exact traced.still rfl rfl rfl rfl (by simp [stage])
  | settle stage =>
      refine ⟨[], ?_, ?_, silent⟩
      · rw [Stores.trace_settle, List.append_nil]
      · rw [Stores.trace_settle]
        exact traced.still rfl rfl rfl rfl CallStage.noConfusion
  | deliver chain system stage advanced =>
      refine ⟨_, rfl, ?_, ?_⟩
      · obtain ⟨task, other, now, _, _, rfl⟩ := advance_eq_some.mp advanced
        have sofar := traced.append
          (now.map fun event => Effect.delivering call.signal event)
        dsimp only
        rw [List.drop_left, List.map_map]
        refine ⟨traced.valid, fun early => ?_, fun event member => ?_,
          sofar.referred⟩
        · exact absurd (stage.symm.trans early) CallStage.noConfusion
        · simp only [events, List.map_append, List.map_map,
            List.mem_append] at member
          rcases member with earlier | new
          · exact sofar.logged event earlier
          · obtain ⟨same, isNew, rfl⟩ := List.mem_map.mp new
            exact List.mem_append_right _ (List.mem_map_of_mem isNew)
      · apply referenced_deliver _ advanced
        intro name alertRef found
        obtain ⟨before, after, shape, _⟩ :=
          List.lookup_eq_some_iff.mp found
        apply traced.referred name alertRef
        rw [shape]
        exact List.mem_append_right _ List.mem_cons_self
  | planned stage | leave stage | finish stage | cut message stage
  | note stage =>
      refine ⟨[], (List.append_nil _).symm, ?_, silent⟩
      exact traced.still rfl rfl rfl rfl CallStage.noConfusion

/-- A group never sends with a reference. -/
theorem referenced_senderMove
    {pipeline : Pipeline} {moved : Sender × Stores}
    (moves : SenderMove platform pipeline sender stores moved) :
    ∃ more, moved.2.trace = stores.trace ++ more ∧
      ∀ effect ∈ more, effect.Referenced stores.trace := by
  have silent : ∀ effect ∈ ([] : List Effect),
      effect.Referenced stores.trace :=
    fun _ member => absurd member List.not_mem_nil
  cases moves with
  | open_ moment stage =>
      rw [Sender.open_]
      split
      · exact ⟨[], (List.append_nil _).symm, silent⟩
      · refine ⟨_, rfl, fun effect member => ?_⟩
        rw [List.mem_singleton.mp member]
        trivial
  | deliver chain system stage advanced =>
      refine ⟨_, rfl, ?_⟩
      apply referenced_deliver _ advanced
      intro name alertRef found
      cases found
  | settle stage | settleMember member rest stage members =>
      refine ⟨[], ?_, silent⟩
      rw [Stores.trace_settle, List.append_nil]
  | complete stage =>
      dsimp only
      split
      · exact ⟨[], (List.append_nil _).symm, silent⟩
      · refine ⟨_, rfl, fun effect member => ?_⟩
        rw [List.mem_singleton.mp member]
        trivial
  | completeMember member rest stage members =>
      refine ⟨_, rfl, fun effect listed => ?_⟩
      rw [List.mem_singleton.mp listed]
      trivial
  | gate | start | finish | settled | completed =>
      exact ⟨[], (List.append_nil _).symm, silent⟩

end Moves

/-! ## Runs -/

/-- The client has not forgotten where its references are from. -/
structure Client.Vouched (client : Client) : Prop where
  calls : ∀ call ∈ client.calls, call.Traced client.stores.trace
  rows : ∀ row ∈ client.stores.book.rows, row.Vouched client.stores.trace
  grounded : Grounded Effect.Referenced client.stores.trace

section Step

variable {client next : Client} {label : ClientStep}

/-- A step adds sends whose references were returned. -/
theorem trace_step
    (vouched : client.Vouched)
    (stepped : client.step platform label = some next) :
    ∃ more, next.stores.trace = client.stores.trace ++ more ∧
      (∀ call ∈ next.calls, call.Traced next.stores.trace) ∧
        ∀ effect ∈ more, effect.Referenced client.stores.trace := by
  have silent : ∀ effect ∈ ([] : List Effect),
      effect.Referenced client.stores.trace :=
    fun _ member => absurd member List.not_mem_nil
  rcases step_cases stepped with ⟨input, waits, rfl, valid, rfl⟩ |
    ⟨index, call, moved, found, moves, rfl⟩ |
    ⟨index, sender, moved, found, moves, rfl⟩ | ⟨index, rfl, elapsed⟩ |
    ⟨rfl, rfl⟩ | ⟨pipeline, rfl, rfl⟩
  · refine ⟨[], (List.append_nil _).symm, ?_, silent⟩
    intro call member
    rcases List.mem_append.mp member with old | new
    · exact vouched.calls call old
    · rw [List.mem_singleton.mp new]
      exact traced_newCall client waits valid _
  · obtain ⟨more, trace, traced, referenced⟩ := traced_callMove
      (vouched.calls call (List.mem_of_getElem? found)) vouched.rows
      moves.move
    refine ⟨more, trace, ?_, referenced⟩
    intro other member
    rcases List.mem_or_eq_of_mem_set member with old | rfl
    · change other.Traced moved.2.trace
      rw [trace]
      exact (vouched.calls other old).append more
    · exact traced
  · obtain ⟨more, trace, referenced⟩ := referenced_senderMove moves.move
    refine ⟨more, trace, ?_, referenced⟩
    intro call member
    change call.Traced moved.2.trace
    rw [trace]
    exact (vouched.calls call member).append more
  · obtain ⟨timer, _, rfl⟩ := Option.map_eq_some_iff.mp elapsed
    refine ⟨[], ?_, ?_, silent⟩
    · dsimp only
      split
      · exact (List.append_nil _).symm
      · exact (List.append_nil _).symm
    · dsimp only
      split
      · exact vouched.calls
      · exact vouched.calls
  · exact ⟨[], (List.append_nil _).symm, vouched.calls, silent⟩
  · exact ⟨[], (List.append_nil _).symm, vouched.calls, silent⟩

/-- What a call records of its delivery was answered. -/
theorem rows_step
    (vouched : client.Vouched) (sound : ∀ call ∈ client.calls, call.Sound)
    (stepped : client.step platform label = some next) :
    ∀ row ∈ next.stores.book.rows, row.Vouched client.stores.trace := by
  have book := book_step stepped
  cases noted : notes client label with
  | none =>
      rw [noted] at book
      rw [book]
      exact vouched.rows
  | some call =>
      rw [noted] at book
      rw [book]
      obtain ⟨member, stage⟩ : call ∈ client.calls ∧ call.stage = .noting := by
        cases label with
        | call index moment =>
            obtain ⟨found, noting⟩ := Option.filter_eq_some_iff.mp noted
            exact ⟨List.mem_of_getElem? found, by simpa using noting⟩
        | start | deliver | cut | timer | flush | sender | deliverGroup
        | reload => cases noted
      have ended : call.Ended := by
        rw [Call.Ended, stage]
        trivial
      obtain ⟨_, ⟨schedule, reached⟩, cutOff, isResult⟩ :=
        (sound call member).ended ended
      have replies := replies_of_delivering reached
      apply vouched_record vouched.rows
      intro outcome listed status
      rw [isResult] at listed
      have reported : .reported outcome ∈ events call.system := by
        rcases reported_or_cut listed with reported | ⟨_, _, failed, _⟩
        · exact reported
        · exact absurd (status.symm.trans failed) DeliveryStatus.noConfusion
      obtain ⟨alertRef, answered⟩ :=
        replies.delivered outcome reported status
      exact (vouched.calls call member).logged _
        (answered_lookup replies answered)

end Step

/-- Every run keeps track of where its references are from. -/
theorem vouched_runs
    {condition : Client → ClientStep → Prop} {pipeline : Pipeline}
    {labels : List ClientStep} {client : Client}
    (reached : Runs platform condition pipeline labels client) :
    client.Vouched := by
  induction reached with
  | nil =>
      exact
        { calls := fun _ member => absurd member List.not_mem_nil
          rows := fun _ member => absurd member List.not_mem_nil
          grounded := grounded_nil }
  | snoc before _ stepped inductionHypothesis =>
      obtain ⟨more, trace, calls, referenced⟩ :=
        trace_step inductionHypothesis stepped
      have rows := rows_step inductionHypothesis (sound_calls before) stepped
      refine ⟨calls, ?_, ?_⟩
      · intro row member
        rw [trace]
        exact (rows row member).append more
      · rw [trace]
        exact inductionHypothesis.grounded.append_of_log lasting_referenced
          referenced

/-! ## Main results -/

/-- In every state of a run, each row of the alert book names a trigger
that its provider took and what the provider returned for it, and stands
in the state that a delivered signal of its key left it in. -/
theorem alert_rows_are_vouched
    {condition : Client → ClientStep → Prop} {pipeline : Pipeline}
    {labels : List ClientStep} {client : Client}
    (reached : Runs platform condition pipeline labels client) :
    ∀ row ∈ client.stores.book.rows, row.Vouched client.stores.trace :=
  (vouched_runs reached).rows

/-- Wherever a provider is called with a reference, it is called for an
`acknowledge` or `resolve`, and it returned that reference before for a
trigger with the same key. -/
theorem references_return_to_their_alert
    {condition : Client → ClientStep → Prop} {pipeline : Pipeline}
    {labels : List ClientStep} {client : Client}
    (reached : Runs platform condition pipeline labels client)
    {before after : List Effect} {signal : Signal}
    {name alertRef : String}
    (called : client.stores.trace =
      before ++ .delivering signal (.sent name (some alertRef)) :: after) :
    signal.action.isLifecycle = true ∧
      ∃ key, signal.dedupKey = some key ∧
        Raised key name (some alertRef) before :=
  (vouched_runs reached).grounded before _ after called

/-! ## Sample runs -/

/-- The provider returns a reference. -/
def postedMoment : Moment :=
  { plainMoment with answers := fun _ _ => .ok (some "C1/1.2") }

/-- A call whose one provider returns a reference. -/
def postedCall (action : Action) (index turns : Nat) : List ClientStep :=
  .start (diskInput action) false ::
    List.replicate turns (.call index postedMoment) ++
      List.replicate 3 (.deliver index 0) ++
        List.replicate 4 (.call index postedMoment)

/-- The alert is raised, and its resolve is sent. -/
def postedThenResolved : Client :=
  (run (Client.step plainPlatform) anyStep
    (Client.fromPipeline pagedPipeline)
    (postedCall .trigger 0 5 ++ postedCall .resolve 1 3)).getD
      (Client.fromPipeline pagedPipeline)

theorem runs_postedThenResolved :
    Runs plainPlatform anyStep pagedPipeline
      (postedCall .trigger 0 5 ++ postedCall .resolve 1 3)
      postedThenResolved :=
  reaches_of_isSome (Client.fromPipeline pagedPipeline) (by decide +kernel)

theorem alert_rows_are_vouched_posted :
    ∃ row ∈ postedThenResolved.stores.book.rows,
      row.state = .resolved ∧ row.alertRef = some "C1/1.2" ∧
        row.Vouched postedThenResolved.stores.trace := by
  have computed : (postedThenResolved.stores.book.rows.any fun row =>
      decide (row.state = .resolved) &&
        decide (row.alertRef = some "C1/1.2")) = true := by
    decide +kernel
  obtain ⟨row, member, holds⟩ := List.any_eq_true.mp computed
  rw [Bool.and_eq_true, decide_eq_true_eq, decide_eq_true_eq] at holds
  exact ⟨row, member, holds.1, holds.2,
    alert_rows_are_vouched runs_postedThenResolved row member⟩

/-- The signal of the call at this place. -/
def Client.signalAt (index : Nat) (client : Client) : Signal :=
  (client.calls[index]?.map Call.signal).getD
    (Signal.fromInput plainPlatform "" 0 (diskInput .resolve))

/-- The resolve is sent with what was returned for the trigger. -/
theorem references_return_to_their_alert_posted :
    (postedThenResolved.signalAt 1).action.isLifecycle = true ∧
      ∃ key, (postedThenResolved.signalAt 1).dedupKey = some key ∧
        Raised key "pagerduty" (some "C1/1.2")
          (postedThenResolved.stores.trace.take 9) :=
  @references_return_to_their_alert plainPlatform anyStep pagedPipeline _
    postedThenResolved runs_postedThenResolved _
    (postedThenResolved.stores.trace.drop 10) _ _ _ rfl

end OpsSignal
