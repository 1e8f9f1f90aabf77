import OpsSignal.CutDelivery
import OpsSignal.LifecycleCalls
import OpsSignal.PlanShape
import OpsSignal.ResolvedAlerts

/-!
# Notify and send

`notify_async` and `send` are two bodies that do the same work: one hands
the delivery to a background task, the other waits for it.  Here each is
written out from beginning to end, with nothing else going on.  Only the
targets of the delivery run at once, in the order of a schedule, which may
differ from one body to the other.
-/

namespace OpsSignal

open Interleaving LabelledRuns

/-- A signal ready to deliver. -/
structure Prepared where
  signal : Signal
  plan : DeliveryPlan
  admission : Admission := {}
  priorRefs : List (String × String) := []

/-- What `send` returns. -/
structure SendReport where
  signalId : String
  dedupKey : Option String
  result : DeliveryResult

/-! ## What both call -/

section Bodies

variable (platform : Platform) (moment : Moment) (pipeline : Pipeline)

/-- `prepare`, with `plan_signal`. -/
def prepareInput (input : SignalInput) (stores : Stores) :
    Prepared × Stores :=
  if !input.action.isLifecycle then
    let signal :=
      Signal.fromInput platform moment.id moment.timestamp input
    let planned := pipeline.routing.planWith signal
      (throttleGate platform signal moment.now) (stores.table, {})
    ({ signal := signal, plan := planned.1, admission := planned.2.2 },
      { stores with table := planned.2.1 })
  else
    let opened :=
      stores.book.openAlerts (input.effectiveDedupKey platform)
    let filled :=
      input.fillLifecycleDefaults (opened.head?.map OpenAlert.title)
    let signal :=
      Signal.fromInput platform moment.id moment.timestamp filled
    ({ signal := signal
       plan := lifecyclePlan pipeline signal opened
       priorRefs := priorRefs opened },
      stores)

/-- `hold`, for every grouped route. -/
def holdGrouped
    (plan : DeliveryPlan) (signal : Signal) (ownsRow : Bool)
    (admission : Admission) (stores : Stores) : Admission × Stores :=
  plan.grouped.foldl
    (fun held entry =>
      match pipeline.routing.routes[entry.1]? with
      | none => held
      | some route =>
          let parts := held.1.splitOff platform route
          (parts.1,
            held.2.hold platform route ⟨signal, parts.2, ownsRow⟩))
    (admission, stores)

/-- `settle_unsent`. -/
def settleUnsentNow (prepared : Prepared) (stores : Stores) :
    DeliveryResult × Stores :=
  let result := summarize prepared.plan [] none
  let completed := stores.emit [.completed prepared.signal result]
  (result,
    (holdGrouped platform pipeline prepared.plan prepared.signal true
      prepared.admission completed).2)

/-- How the targets of a prepared signal move. -/
abbrev Prepared.program (prepared : Prepared) :
    Program ChainTask ChainEvent :=
  deliverChain pipeline.providers (refOf prepared.priorRefs)
    moment.answers

/-- Every target has come to its end. -/
def Prepared.allDone
    (prepared : Prepared) (system : System ChainTask ChainEvent) : Bool :=
  system.tasks.all fun task =>
    (prepared.program moment pipeline task).isNone

/-- The tasks of the delivery after a schedule. -/
def Prepared.tasksAfter
    (prepared : Prepared) (schedule : List Nat) :
    Option (System ChainTask ChainEvent) :=
  run (advance (prepared.program moment pipeline)) anyStep
    (deliverStart prepared.plan) schedule

/-- What the delivery did, seen from outside. -/
def Prepared.effects
    (prepared : Prepared) (system : System ChainTask ChainEvent) :
    List Effect :=
  (events system).map (.delivering prepared.signal)

/-- `record` of the alert book. -/
def recordAlerts
    (prepared : Prepared) (system : System ChainTask ChainEvent)
    (result : DeliveryResult) (stores : Stores) : Stores :=
  { stores with
    book := stores.book.record prepared.signal result
      (Tracker.after (events system)).refs }

/-! ## The two bodies -/

/-- `notify_async`, and then its background task.  It has no outcome for a
schedule that does not complete the delivery. -/
def notifyAsync
    (schedule : List Nat) (input : SignalInput) (stores : Stores) :
    Option Stores :=
  match validate input with
  | .error _ => some stores
  | .ok () =>
      let (prepared, stores) :=
        prepareInput platform moment pipeline input stores
      let stores := stores.emit [.recorded prepared.signal]
      if prepared.plan.targets.isEmpty then
        some (settleUnsentNow platform pipeline prepared stores).2
      else
        let (admission, stores) := holdGrouped platform pipeline
          prepared.plan prepared.signal false prepared.admission stores
        -- From here on in the background.
        match prepared.tasksAfter moment pipeline schedule with
        | none => none
        | some system =>
            if prepared.allDone moment pipeline system then
              let stores := stores.emit (prepared.effects system)
              let result := deliveryResult prepared.plan system none
              let stores := stores.settle admission result
              let stores := recordAlerts prepared system result stores
              some (stores.emit [.completed prepared.signal result])
            else
              none

/-- `send`, whose wait is cut off where there is a message. -/
def send
    (schedule : List Nat) (cutOff : Option String) (input : SignalInput)
    (stores : Stores) : Option (Except SignalError SendReport × Stores) :=
  match validate input with
  | .error error => some (.error error, stores)
  | .ok () =>
      let (prepared, stores) :=
        prepareInput platform moment pipeline input stores
      let stores := stores.emit [.recorded prepared.signal]
      let report := fun result : DeliveryResult =>
        (⟨prepared.signal.id, prepared.signal.dedupKey, result⟩ :
          SendReport)
      if prepared.plan.targets.isEmpty then
        let (result, stores) :=
          settleUnsentNow platform pipeline prepared stores
        some (.ok (report result), stores)
      else
        let (admission, stores) := holdGrouped platform pipeline
          prepared.plan prepared.signal false prepared.admission stores
        match prepared.tasksAfter moment pipeline schedule with
        | none => none
        | some system =>
            if cutOff.isSome || prepared.allDone moment pipeline system then
              let stores := stores.emit (prepared.effects system)
              let result := deliveryResult prepared.plan system cutOff
              let stores := stores.settle admission result
              let stores := recordAlerts prepared system result stores
              some (.ok (report result),
                stores.emit [.completed prepared.signal result])
            else
              none

end Bodies

/-! ## Plans name a provider once -/

theorem nodup_planWith
    {State : Type} (config : RoutingConfig) (signal : Signal)
    (admits : Gate State) (state : State) :
    (config.planWith signal admits state).1.providers.Nodup := by
  have placed : (planRoutes signal admits config.routes.zipIdx
      ({}, state)).1.placement.targets.flatten.Nodup := by
    rw [planRoutes_eq, targets_foldl_place]
    exact nodup_flatten_layout_firsts _
  rw [RoutingConfig.planWith, DeliveryPlan.providers, PlanState.finish]
  dsimp only
  split
  · exact List.nodup_singleton "console"
  · exact placed

theorem nodup_prepareInput
    (platform : Platform) (moment : Moment) (pipeline : Pipeline)
    (input : SignalInput) (stores : Stores) :
    (prepareInput platform moment pipeline input
      stores).1.plan.providers.Nodup := by
  rw [prepareInput]
  split
  · exact nodup_planWith _ _ _ _
  · exact nodup_providers_lifecyclePlan _ _ _ _

/-! ## Schedules do not show -/

/-- What is done about one provider. -/
def aboutProvider (name : String) (events : List ChainEvent) :
    List ChainEvent :=
  events.filter fun event => event.name == name

section Schedules

variable {plan : DeliveryPlan} {providers : Registry}
  {priorRef : String → Option String} {answers : Answers}

/-- Two completed deliveries do the same about each provider. -/
theorem aboutProvider_unique
    (distinct : plan.providers.Nodup)
    {firstSchedule secondSchedule : List Nat}
    {first second : System ChainTask ChainEvent}
    (reachedFirst :
      Delivering plan providers priorRef answers firstSchedule first)
    (finishedFirst : Delivered providers priorRef answers first)
    (reachedSecond :
      Delivering plan providers priorRef answers secondSchedule second)
    (finishedSecond : Delivered providers priorRef answers second)
    (name : String) :
    aboutProvider name (events first) =
      aboutProvider name (events second) := by
  by_cases planned : name ∈ plan.providers
  · obtain ⟨chain, member, listed⟩ := List.mem_flatten.mp planned
    have within : ∀ event : ChainEvent, (event.name == name) = true →
        event.name ∈ chain := by
      intro event chosen
      rw [beq_iff_eq.mp chosen]
      exact listed
    rw [aboutProvider, aboutProvider,
      filter_events distinct reachedFirst finishedFirst member within,
      filter_events distinct reachedSecond finishedSecond member within]
  · have nothing : ∀ {schedule : List Nat}
        {system : System ChainTask ChainEvent},
        Delivering plan providers priorRef answers schedule system →
          Delivered providers priorRef answers system →
            aboutProvider name (events system) = [] := by
      intro schedule system reached finished
      rw [aboutProvider, List.filter_eq_nil_iff]
      intro event member chosen
      obtain ⟨chain, isChain, inChain⟩ :=
        name_mem_of_mem_events reached finished member
      apply planned
      rw [← beq_iff_eq.mp chosen]
      exact List.mem_flatten.mpr
        ⟨chain, isChain, name_mem_of_mem_chainEvents inChain⟩
    rw [nothing reachedFirst finishedFirst,
      nothing reachedSecond finishedSecond]

end Schedules

/-! ## References -/

private theorem lookup_filter_ne {Value : Type} (name dropped : String) :
    ∀ refs : List (String × Value),
      (refs.filter (·.1 ≠ dropped)).lookup name =
        if name = dropped then none else refs.lookup name
  | [] => by simp
  | entry :: rest => by
      have later := lookup_filter_ne name dropped rest
      by_cases gone : entry.1 = dropped
      · rw [List.filter_cons_of_neg (by simp [gone]), later]
        by_cases same : name = dropped
        · simp [same]
        · have different : (name == entry.1) = false := by
            simp [gone, same]
          rw [if_neg same, if_neg same, List.lookup_cons, different]
      · rw [List.filter_cons_of_pos (by simp [gone]), List.lookup_cons,
          List.lookup_cons, later]
        by_cases here : name = entry.1
        · have kept : name ≠ dropped := here ▸ gone
          simp [here, gone]
        · have different : (name == entry.1) = false := by
            simp [here]
          rw [different]

/-- What an event says about the reference of its provider. -/
theorem lookup_apply (name : String) (tracker : Tracker)
    (event : ChainEvent) :
    (tracker.apply event).refs.lookup name =
      if event.name = name then
        ((({} : Tracker).apply event).refs.lookup name).or
          (tracker.refs.lookup name)
      else tracker.refs.lookup name := by
  cases event with
  | kept other alertRef =>
      simp only [Tracker.apply, ChainEvent.name, List.lookup_append,
        lookup_filter_ne]
      by_cases same : other = name
      · simp [same]
      · have different : (name == other) = false := by
          simp [Ne.symm same]
        simp [same, Ne.symm same, different]
  | unknown | reported | sent | answered => simp [Tracker.apply]

/-- The references depend on what is done about each provider. -/
theorem lookup_refs_after (name : String) (events : List ChainEvent) :
    (Tracker.after events).refs.lookup name =
      (Tracker.after (aboutProvider name events)).refs.lookup name := by
  induction events using List.reverseRecOn with
  | nil => rfl
  | append_singleton events event inductionHypothesis =>
      rw [aboutProvider] at inductionHypothesis
      rw [aboutProvider, List.filter_append, Tracker.after,
        List.foldl_append, ← Tracker.after, List.foldl_cons,
        List.foldl_nil, lookup_apply, inductionHypothesis]
      by_cases same : event.name = name
      · rw [if_pos same, List.filter_cons_of_pos (by simp [same]),
          List.filter_nil, Tracker.after, Tracker.after,
          List.foldl_append, List.foldl_cons, List.foldl_nil]
        conv_rhs => rw [lookup_apply, if_pos same]
      · rw [if_neg same, List.filter_cons_of_neg (by simp [same]),
          List.filter_nil, List.append_nil]

/-- The alert book reads the references by provider only. -/
theorem record_congr
    (signal : Signal) (result : DeliveryResult) (book : AlertBook)
    {first second : List (String × String)}
    (same : ∀ name, first.lookup name = second.lookup name) :
    book.record signal result first = book.record signal result second := by
  have sameTurn : ∀ key book outcome,
      AlertBook.recordOutcome signal key first book outcome =
        AlertBook.recordOutcome signal key second book outcome := by
    intro key book outcome
    rw [AlertBook.recordOutcome, AlertBook.recordOutcome,
      same outcome.provider]
  rw [AlertBook.record, AlertBook.record]
  cases signal.dedupKey with
  | none => rfl
  | some key => exact List.foldl_ext _ _ book fun _ _ _ => sameTurn _ _ _

/-! ## Rows -/

section Rows

variable {signal : Signal} {id name : String}

theorem row_delivering (events : List ChainEvent) (sink : Sink) :
    (events.foldl (Sink.deliverEvent signal) sink).row id =
      sink.row id := by
  induction events generalizing sink with
  | nil => rfl
  | cons event rest inductionHypothesis =>
      rw [List.foldl_cons, inductionHypothesis, Sink.row_deliverEvent]

/-- The row of a provider depends on what is done about it. -/
theorem outcome_congr {first second : List ChainEvent}
    (same : aboutProvider name first = aboutProvider name second)
    (sink : Sink) :
    (first.foldl (Sink.deliverEvent signal) sink).outcome id name =
      (second.foldl (Sink.deliverEvent signal) sink).outcome id name := by
  have about : ∀ event : ChainEvent,
      event.name = name → (event.name == name) = true :=
    fun _ named => beq_iff_eq.mpr named
  have lastSame : lastReport name first = lastReport name second := by
    rw [← lastReport_filter about first, ← lastReport_filter about second]
    exact congrArg (lastReport name) same
  rw [outcome_deliverEvents, outcome_deliverEvents, lastSame]

end Rows

/-! ## The same afterwards -/

/-- A send to a provider: the signal, and the reference it went with. -/
def sendTo (name : String) : Effect → Option (Signal × Option String)
  | .delivering signal (.sent other prior) =>
      if other = name then some (signal, prior) else none
  | _ => none

/-- The sends to a provider, in order. -/
def Stores.sendsTo (name : String) (stores : Stores) :
    List (Signal × Option String) :=
  stores.trace.filterMap (sendTo name)

/-- Nobody can tell the stores apart, except by the order in which
different providers were served. -/
structure SameStores (left right : Stores) : Prop where
  sends : ∀ name, left.sendsTo name = right.sendsTo name
  signals : ∀ id,
    (Sink.after left.trace).row id = (Sink.after right.trace).row id
  deliveries : ∀ id name,
    (Sink.after left.trace).outcome id name =
      (Sink.after right.trace).outcome id name
  table : left.table = right.table
  book : left.book = right.book
  groups : left.groups = right.groups
  timers : left.timers = right.timers
  senders : left.senders = right.senders

theorem SameStores.refl (stores : Stores) : SameStores stores stores :=
  ⟨fun _ => rfl, fun _ => rfl, fun _ _ => rfl, rfl, rfl, rfl, rfl, rfl⟩

/-- The sends among the events of a delivery. -/
private theorem filterMap_sendTo (name : String) (signal : Signal)
    (events : List ChainEvent) :
    (events.map (Effect.delivering signal)).filterMap (sendTo name) =
      ((aboutProvider name events).map
        (Effect.delivering signal)).filterMap (sendTo name) := by
  induction events with
  | nil => rfl
  | cons event rest inductionHypothesis =>
      rw [aboutProvider] at inductionHypothesis ⊢
      by_cases about : event.name = name
      · rw [List.filter_cons_of_pos (by simp [about]), List.map_cons,
          List.map_cons, List.filterMap_cons, List.filterMap_cons,
          inductionHypothesis]
      · have silent : sendTo name (.delivering signal event) = none := by
          cases event with
          | sent other prior => exact if_neg about
          | unknown | reported | answered | kept => rfl
        rw [List.filter_cons_of_neg (by simp [about]), List.map_cons,
          List.filterMap_cons_none silent, inductionHypothesis]

/-- The end of a delivery, as both bodies write it. -/
def afterDelivery
    (prepared : Prepared) (admission : Admission)
    (system : System ChainTask ChainEvent) (cutOff : Option String)
    (stores : Stores) : Stores :=
  let result := deliveryResult prepared.plan system cutOff
  (recordAlerts prepared system result
    ((stores.emit (prepared.effects system)).settle admission result)).emit
      [.completed prepared.signal result]

theorem after_effects
    (trace : List Effect) (prepared : Prepared)
    (system : System ChainTask ChainEvent) :
    Sink.after (trace ++ prepared.effects system) =
      (events system).foldl (Sink.deliverEvent prepared.signal)
        (Sink.after trace) := by
  rw [Sink.after_append, Prepared.effects, List.foldl_map]
  rfl

theorem trace_afterDelivery
    (prepared : Prepared) (admission : Admission)
    (system : System ChainTask ChainEvent) (cutOff : Option String)
    (stores : Stores) :
    (afterDelivery prepared admission system cutOff stores).trace =
      stores.trace ++ prepared.effects system ++
        [.completed prepared.signal
          (deliveryResult prepared.plan system cutOff)] := by
  simp only [afterDelivery, Stores.emit, recordAlerts,
    Stores.trace_settle]

/-- After two deliveries that did the same about each provider. -/
theorem sameStores_afterDelivery
    (prepared : Prepared) (admission : Admission) (stores : Stores)
    {first second : System ChainTask ChainEvent}
    (sameResult : deliveryResult prepared.plan first none =
      deliveryResult prepared.plan second none)
    (sameEvents : ∀ name, aboutProvider name (events first) =
      aboutProvider name (events second)) :
    SameStores (afterDelivery prepared admission first none stores)
      (afterDelivery prepared admission second none stores) := by
  have sameRefs : ∀ name,
      (Tracker.after (events first)).refs.lookup name =
        (Tracker.after (events second)).refs.lookup name := by
    intro name
    rw [lookup_refs_after, sameEvents, ← lookup_refs_after]
  refine ⟨?_, ?_, ?_, ?_, ?_, ?_, ?_, ?_⟩
  · intro name
    simp only [Stores.sendsTo, trace_afterDelivery, List.filterMap_append,
      Prepared.effects]
    rw [filterMap_sendTo, sameEvents, ← filterMap_sendTo, sameResult]
  · intro id
    rw [trace_afterDelivery, trace_afterDelivery, sameResult,
      Sink.after_snoc, Sink.after_snoc, Sink.apply, Sink.apply,
      Sink.row_complete, Sink.row_complete, after_effects, after_effects,
      row_delivering, row_delivering]
  · intro id name
    rw [trace_afterDelivery, trace_afterDelivery, sameResult,
      Sink.after_snoc, Sink.after_snoc, Sink.apply, Sink.apply,
      Sink.outcome_complete, Sink.outcome_complete, after_effects,
      after_effects, outcome_congr (sameEvents name)]
  · simp only [afterDelivery, recordAlerts, Stores.emit,
      Stores.settle_eq, sameResult]
  · simp only [afterDelivery, recordAlerts, Stores.emit,
      Stores.settle_eq, sameResult]
    exact record_congr _ _ _ sameRefs
  · simp only [afterDelivery, recordAlerts, Stores.emit,
      Stores.settle_eq]
  · simp only [afterDelivery, recordAlerts, Stores.emit,
      Stores.settle_eq]
  · simp only [afterDelivery, recordAlerts, Stores.emit,
      Stores.settle_eq]

/-! ## Main result -/

section Same

variable {platform : Platform} {moment : Moment} {pipeline : Pipeline}
  {input : SignalInput} {stores : Stores}

/-- What both bodies come to before they deliver. -/
def prepareAndRecord
    (platform : Platform) (moment : Moment) (pipeline : Pipeline)
    (input : SignalInput) (stores : Stores) : Prepared × Stores :=
  let prepared := prepareInput platform moment pipeline input stores
  (prepared.1, prepared.2.emit [.recorded prepared.1.signal])

/-- What is held, and the admission that is left. -/
def heldBefore
    (platform : Platform) (pipeline : Pipeline)
    (recorded : Prepared × Stores) : Admission × Stores :=
  holdGrouped platform pipeline recorded.1.plan recorded.1.signal false
    recorded.1.admission recorded.2

theorem notifyAsync_eq (valid : validate input = .ok ())
    (schedule : List Nat) :
    notifyAsync platform moment pipeline schedule input stores =
      let recorded := prepareAndRecord platform moment pipeline input stores
      if recorded.1.plan.targets.isEmpty then
        some (settleUnsentNow platform pipeline recorded.1 recorded.2).2
      else
        let held := heldBefore platform pipeline recorded
        (recorded.1.tasksAfter moment pipeline schedule).bind fun system =>
          if recorded.1.allDone moment pipeline system then
            some (afterDelivery recorded.1 held.1 system none held.2)
          else none := by
  rw [notifyAsync, valid]
  dsimp only [prepareAndRecord, heldBefore]
  congr 1
  cases (prepareInput platform moment pipeline input
      stores).1.tasksAfter moment pipeline schedule with
  | none => rfl
  | some system => rfl

theorem send_eq (valid : validate input = .ok ())
    (schedule : List Nat) :
    send platform moment pipeline schedule none input stores =
      let recorded := prepareAndRecord platform moment pipeline input stores
      let report := fun result : DeliveryResult =>
        (⟨recorded.1.signal.id, recorded.1.signal.dedupKey, result⟩ :
          SendReport)
      if recorded.1.plan.targets.isEmpty then
        let settled :=
          settleUnsentNow platform pipeline recorded.1 recorded.2
        some (.ok (report settled.1), settled.2)
      else
        let held := heldBefore platform pipeline recorded
        (recorded.1.tasksAfter moment pipeline schedule).bind fun system =>
          if recorded.1.allDone moment pipeline system then
            some
              (.ok (report
                (deliveryResult recorded.1.plan system none)),
                afterDelivery recorded.1 held.1 system none held.2)
          else none := by
  rw [send, valid]
  dsimp only [prepareAndRecord, heldBefore]
  congr 1
  cases (prepareInput platform moment pipeline input
      stores).1.tasksAfter moment pipeline schedule with
  | none => rfl
  | some system => rfl

/-- A schedule that completes the delivery. -/
theorem delivered_of_tasksAfter {prepared : Prepared}
    {schedule : List Nat} {system : System ChainTask ChainEvent}
    (computed : prepared.tasksAfter moment pipeline schedule =
      some system)
    (done : prepared.allDone moment pipeline system = true) :
    Delivering prepared.plan pipeline.providers (refOf prepared.priorRefs)
        moment.answers schedule system ∧
      Delivered pipeline.providers (refOf prepared.priorRefs)
        moment.answers system := by
  refine ⟨reaches_of_run computed, ?_⟩
  intro task member
  have ended := List.all_eq_true.mp done task member
  exact Option.isNone_iff_eq_none.mp ended

theorem exists_tasksAfter (prepared : Prepared) :
    ∃ schedule system,
      prepared.tasksAfter moment pipeline schedule = some system ∧
        prepared.allDone moment pipeline system = true := by
  obtain ⟨schedule, system, _, reached, finished⟩ :=
    @exists_sequential_delivery pipeline.providers
      (refOf prepared.priorRefs) moment.answers prepared.plan
  refine ⟨schedule, system, run_of_reaches reached, ?_⟩
  rw [Prepared.allDone, List.all_eq_true]
  intro task member
  exact Option.isNone_iff_eq_none.mpr (finished task member)

/-- Once its background task has finished, `notify_async` has done what
`send` does that is not cut off, and both come to an end. -/
theorem notify_as_send
    (platform : Platform) (moment : Moment) (pipeline : Pipeline)
    {input : SignalInput} (valid : validate input = .ok ())
    (stores : Stores) :
    (∀ first second notified result sent,
      notifyAsync platform moment pipeline first input stores =
          some notified →
        send platform moment pipeline second none input stores =
            some (result, sent) →
          SameStores notified sent ∧ ∃ report, result = .ok report) ∧
      ∃ schedule notified report sent,
        notifyAsync platform moment pipeline schedule input stores =
            some notified ∧
          send platform moment pipeline schedule none input stores =
            some (.ok report, sent) := by
  have distinct :
      (prepareAndRecord platform moment pipeline input
        stores).1.plan.providers.Nodup :=
    nodup_prepareInput platform moment pipeline input stores
  simp only [notifyAsync_eq valid, send_eq valid]
  generalize prepareAndRecord platform moment pipeline input stores =
    recorded at distinct
  by_cases unsent : recorded.1.plan.targets.isEmpty = true
  · simp only [unsent, if_true]
    refine ⟨?_, [], _, _, _, rfl, rfl⟩
    intro _ _ notified result sent isNotified isSent
    cases isNotified
    cases isSent
    exact ⟨SameStores.refl _, _, rfl⟩
  · simp only [unsent, if_false, Bool.false_eq_true]
    constructor
    · intro first second notified result sent isNotified isSent
      obtain ⟨one, isOne, oneEnds⟩ := Option.bind_eq_some_iff.mp isNotified
      obtain ⟨other, isOther, otherEnds⟩ :=
        Option.bind_eq_some_iff.mp isSent
      by_cases oneDone : recorded.1.allDone moment pipeline one = true
      · by_cases otherDone :
            recorded.1.allDone moment pipeline other = true
        · rw [if_pos oneDone] at oneEnds
          rw [if_pos otherDone] at otherEnds
          cases oneEnds
          cases otherEnds
          obtain ⟨reachedOne, finishedOne⟩ :=
            delivered_of_tasksAfter isOne oneDone
          obtain ⟨reachedOther, finishedOther⟩ :=
            delivered_of_tasksAfter isOther otherDone
          refine ⟨sameStores_afterDelivery _ _ _ ?_ ?_, _, rfl⟩
          · exact deliveryResult_unique distinct reachedOne finishedOne
              reachedOther finishedOther
          · exact aboutProvider_unique distinct reachedOne finishedOne
              reachedOther finishedOther
        · rw [if_neg otherDone] at otherEnds
          cases otherEnds
      · rw [if_neg oneDone] at oneEnds
        cases oneEnds
    · obtain ⟨schedule, system, computed, done⟩ :=
        @exists_tasksAfter moment pipeline recorded.1
      refine ⟨schedule, ?_⟩
      simp only [computed, Option.bind_some, done, if_true]
      exact ⟨_, _, _, rfl, rfl⟩

end Same

/-- One body serves PagerDuty first, the other Slack. -/
theorem notify_as_send_fanned :
    ((notifyAsync plainPlatform plainMoment fannedPipeline [0, 0, 0, 1, 1, 1]
        (diskInput .trigger) {}).isSome = true ∧
      (send plainPlatform plainMoment fannedPipeline [1, 1, 1, 0, 0, 0] none
        (diskInput .trigger) {}).isSome = true) ∧
      ∀ notified result sent,
        notifyAsync plainPlatform plainMoment fannedPipeline
            [0, 0, 0, 1, 1, 1] (diskInput .trigger) {} = some notified →
          send plainPlatform plainMoment fannedPipeline [1, 1, 1, 0, 0, 0]
              none (diskInput .trigger) {} = some (result, sent) →
            SameStores notified sent := by
  refine ⟨by decide +kernel, ?_⟩
  intro notified result sent isNotified isSent
  have valid : validate (diskInput .trigger) = .ok () := by decide
  have same := (notify_as_send plainPlatform plainMoment fannedPipeline
    valid {}).1
  exact (same _ _ notified result sent isNotified isSent).1

end OpsSignal
