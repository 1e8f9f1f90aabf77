import OpsSignal.ClientRuns
import OpsSignal.CutDelivery
import OpsSignal.ResolvedAlerts

/-!
# Who can be told that an alert is over

A resolve goes to the providers that the alert book lists.  A call records
its delivery in the book; a group of one does not, although its only
signal goes out as it is.
-/

namespace OpsSignal

open Interleaving LabelledRuns

variable {platform : Platform}

/-! ## What is recorded of a delivery -/

/-- A provider that delivered is in the result, whether the delivery came
to its end or was cut off. -/
theorem deliveredBy_of_hasDelivered
    {plan : DeliveryPlan} {providers : Registry}
    {priorRef : String → Option String} {answers : Answers}
    {schedule : List Nat} {system : System ChainTask ChainEvent}
    (distinct : plan.providers.Nodup)
    (reached : Delivering plan providers priorRef answers schedule system)
    (cutOff : Option String) {name : String}
    (delivered : hasDelivered name (events system) = true) :
    (deliveryResult plan system cutOff).deliveredBy name = true := by
  obtain ⟨chain, member, _, outcome, tried, isName, isDelivered⟩ :=
    decided_of_hasDelivered distinct reached cutOff delivered
  rw [DeliveryResult.deliveredBy, List.any_eq_true]
  refine ⟨outcome, ?_, ?_⟩
  · rw [deliveryResult, deliveries_summarize, List.mem_flatMap]
    exact ⟨chain, member, tried⟩
  · rw [decide_eq_true_eq]
    exact ⟨isDelivered, isName⟩

/-- The book lists a provider for a key. -/
def AlertBook.Lists (book : AlertBook) (key name : String) : Prop :=
  ∃ alert ∈ book.openAlerts key, alert.provider = name

/-- A recorded trigger opens the alert of each provider that delivered. -/
theorem lists_record
    {signal : Signal} {result : DeliveryResult} {key name : String}
    (trigger : signal.action = .trigger)
    (keyed : signal.dedupKey = some key)
    (delivered : result.deliveredBy name = true)
    (refs : List (String × String)) (book : AlertBook) :
    (book.record signal result refs).Lists key name := by
  rw [AlertBook.Lists, AlertBook.mem_openAlerts,
    AlertBook.stateOf_record, if_pos ⟨keyed, delivered⟩, trigger]
  exact ⟨.opened, rfl, nofun⟩

/-- A listed provider that is configured is a target of every resolve. -/
theorem mem_targets_of_lists
    {client : Client} {book : AlertBook} {key name : String}
    (lists : book.Lists key name)
    (configured : client.pipeline.providers.contains name = true)
    {input : SignalInput} (resolve : input.action = .resolve)
    (sameKey : input.effectiveDedupKey platform = key)
    (waits : Bool) (moment : Moment) :
    [name] ∈ ((client.newCall platform input waits).prepare platform moment
      book).plan.targets := by
  obtain ⟨alert, listed, rfl⟩ := lists
  have held : alert ∈ holders client.pipeline book key :=
    List.mem_filter.mpr ⟨listed, configured⟩
  have lifecycle : input.action.isLifecycle = true := by
    rw [resolve]
    rfl
  have targets : ∀ signal, [alert.provider] ∈
      (lifecyclePlan client.pipeline signal (book.openAlerts key)).targets := by
    intro signal
    rw [targets_lifecyclePlan_of_holders (List.ne_nil_of_mem held)]
    exact List.mem_map.mpr ⟨alert, held, rfl⟩
  rw [prepare_of_lifecycle lifecycle, sameKey]
  exact targets _

/-! ## Settled deliveries -/

/-- The step settles a delivery of a trigger that is not part of a digest,
and the provider delivered it: the call records the delivery, or the
sending of a group of one ends. -/
inductive Settles (client : Client) : ClientStep → Signal → String → Prop
  | call {index : Nat} {moment : Moment} {call : Call} {name : String}
      (found : client.calls[index]? = some call)
      (stage : call.stage = .noting)
      (trigger : call.signal.action = .trigger)
      (delivered : hasDelivered name (events call.system) = true) :
      Settles client (.call index moment) call.signal name
  | group {index : Nat} {moment : Moment} {sender : Sender} {name : String}
      (found : client.stores.senders[index]? = some sender)
      (stage : sender.stage = .completingMembers)
      (last : sender.members = [])
      (single : sender.closed.single = true)
      (trigger : sender.signal.action = .trigger)
      (delivered : hasDelivered name (events sender.system) = true) :
      Settles client (.sender index moment) sender.signal name

/-- The provider is listed under the signal's key, and a resolve with that
key goes to it while it is configured. -/
def CanBeResolved
    (platform : Platform) (signal : Signal) (name : String)
    (client : Client) : Prop :=
  ∃ key, signal.dedupKey = some key ∧
    client.stores.book.Lists key name ∧
      ∀ input : SignalInput, input.action = .resolve →
        input.effectiveDedupKey platform = key →
          client.pipeline.providers.contains name = true →
            ∀ waits moment, [name] ∈
              ((client.newCall platform input waits).prepare platform
                moment client.stores.book).plan.targets

/-- Where the sending of a group of one ends, the book lists the providers
that delivered already. -/
def ListedBefore (client : Client) (label : ClientStep) : Prop :=
  ∀ index moment sender name, label = .sender index moment →
    client.stores.senders[index]? = some sender →
      sender.stage = .completingMembers → sender.members = [] →
        sender.closed.single = true → sender.signal.action = .trigger →
          hasDelivered name (events sender.system) = true →
            ∃ key, sender.signal.dedupKey = some key ∧
              client.stores.book.Lists key name

theorem canBeResolved_iff {signal : Signal} {name : String}
    {client : Client} :
    CanBeResolved platform signal name client ↔
      ∃ key, signal.dedupKey = some key ∧
        client.stores.book.Lists key name := by
  constructor
  · rintro ⟨key, keyed, lists, _⟩
    exact ⟨key, keyed, lists⟩
  · rintro ⟨key, keyed, lists⟩
    refine ⟨key, keyed, lists, ?_⟩
    intro input resolve sameKey configured waits moment
    exact mem_targets_of_lists lists configured resolve sameKey waits moment

/-- A call's own record lists the providers that delivered. -/
private theorem lists_of_noting
    {client next : Client} {index : Nat} {moment : Moment} {call : Call}
    {name : String} (sound : call.Sound)
    (found : client.calls[index]? = some call)
    (stage : call.stage = .noting)
    (trigger : call.signal.action = .trigger)
    (delivered : hasDelivered name (events call.system) = true)
    (stepped : client.step platform (.call index moment) = some next) :
    ∃ key, call.signal.dedupKey = some key ∧
      next.stores.book.Lists key name := by
  obtain ⟨key, keyed⟩ := Option.isSome_iff_exists.mp sound.keyed
  have ended : call.Ended := by
    rw [Call.Ended, stage]
    trivial
  obtain ⟨_, ⟨schedule, reached⟩, cutOff, isResult⟩ := sound.ended ended
  have noted : notes client (.call index moment) = some call := by
    rw [notes, found]
    simp [stage, Option.filter]
  have book := book_step stepped
  rw [noted] at book
  refine ⟨key, keyed, ?_⟩
  rw [book]
  apply lists_record trigger keyed
  rw [isResult]
  exact deliveredBy_of_hasDelivered sound.distinct reached cutOff delivered

/-- Sending a group leaves the book alone. -/
private theorem book_sender
    {client next : Client} {index : Nat} {moment : Moment}
    (stepped : client.step platform (.sender index moment) = some next) :
    next.stores.book = client.stores.book :=
  book_step stepped

/-! ## Main result -/

/-- In a run, every provider that delivered a trigger itself can be
resolved as soon as the delivery is settled, if and only if the groups of
one are only ever delivered by providers that are listed already. -/
theorem alerted_can_be_resolved_iff
    {pipeline : Pipeline} {labels : List ClientStep} {final : Client}
    (reached : Runs platform anyStep pipeline labels final) :
    EveryStep (Client.step platform) (Client.fromPipeline pipeline) labels
        (fun client label next => ∀ signal name,
          Settles client label signal name →
            CanBeResolved platform signal name next) ↔
      Runs platform ListedBefore pipeline labels final := by
  refine everyStep_iff reached ?_
  intro before client label next here stepped
  constructor
  · intro resolvable index moment sender name isLabel found stage last
      single trigger delivered
    subst isLabel
    have settles : Settles client (.sender index moment) sender.signal
        name :=
      Settles.group found stage last single trigger delivered
    have listed := canBeResolved_iff.mp
      (resolvable sender.signal name settles)
    rw [book_sender stepped] at listed
    exact listed
  · intro listed signal name settles
    rw [canBeResolved_iff]
    cases settles with
    | call found stage trigger delivered =>
        have sound := sound_calls here _ (List.mem_of_getElem? found)
        exact lists_of_noting sound found stage trigger delivered stepped
    | group found stage last single trigger delivered =>
        rw [book_sender stepped]
        exact listed _ _ _ _ rfl found stage last single trigger delivered

/-! ## Sample runs -/

/-- The client after these steps. -/
def clientAfter (pipeline : Pipeline) (labels : List ClientStep) : Client :=
  (run (Client.step plainPlatform) anyStep (Client.fromPipeline pipeline)
    labels).getD (Client.fromPipeline pipeline)

theorem runs_clientAfter
    {pipeline : Pipeline} {labels : List ClientStep}
    (computed : (run (Client.step plainPlatform) anyStep
      (Client.fromPipeline pipeline) labels).isSome = true) :
    Runs plainPlatform anyStep pipeline labels
      (clientAfter pipeline labels) :=
  reaches_of_isSome _ computed

/-- A call that alerts PagerDuty at once, in a run that sends no group. -/
theorem alerted_can_be_resolved_paged :
    EveryStep (Client.step plainPlatform)
      (Client.fromPipeline pagedPipeline) (wholeCall .trigger 0 5)
      (fun client label next => ∀ signal name,
        Settles client label signal name →
          CanBeResolved plainPlatform signal name next) := by
  have ungrouped := @reaches_of_isSome Client ClientStep
    (Client.step plainPlatform)
    (fun client _ => client.stores.senders.isEmpty = true) _
    (Client.fromPipeline pagedPipeline) (wholeCall .trigger 0 5)
    (Client.fromPipeline pagedPipeline) (by decide +kernel)
  apply (alerted_can_be_resolved_iff ungrouped.anyStep).mpr
  apply ungrouped.weaken
  intro client label noSenders index moment sender name _ found
  rw [List.isEmpty_iff.mp noSenders] at found
  cases found

/-- Everything is grouped on its way to PagerDuty. -/
def heldPipeline : Pipeline where
  routing := ⟨[{ providers := ["pagerduty"], groupBy := some ["service"] }]⟩
  providers := [("pagerduty", ⟨"pagerduty", true⟩)]

/-- A trigger is held, its group's timer runs out, and it is sent. -/
def heldTrigger : List ClientStep :=
  .start (diskInput .trigger) false ::
    List.replicate 7 (.call 0 plainMoment) ++
      .timer 0 :: List.replicate 3 (.sender 0 plainMoment) ++
        List.replicate 3 (.deliverGroup 0 0) ++
          List.replicate 6 (.sender 0 plainMoment)

/-- A trigger that was sent as a group of one cannot be resolved. -/
theorem lone_group_not_listed :
    ¬ ∀ pipeline labels final,
        Runs plainPlatform anyStep pipeline labels final →
          EveryStep (Client.step plainPlatform)
            (Client.fromPipeline pipeline) labels
            (fun client label next => ∀ signal name,
              Settles client label signal name →
                CanBeResolved plainPlatform signal name next) := by
  intro claimed
  have reached := @runs_clientAfter heldPipeline heldTrigger
    (by decide +kernel)
  have sent : ((clientAfter heldPipeline heldTrigger).stores.senders[0]?.any
      fun sender => decide (sender.stage = .completingMembers) &&
        sender.members.isEmpty && sender.closed.single &&
        decide (sender.signal.action = .trigger) &&
        hasDelivered "pagerduty" (events sender.system)) = true := by
    decide +kernel
  have goesOn : ((clientAfter heldPipeline heldTrigger).step plainPlatform
      (.sender 0 plainMoment)).isSome = true := by
    decide +kernel
  have noRows :
      (clientAfter heldPipeline heldTrigger).stores.book.rows = [] := by
    decide +kernel
  obtain ⟨next, stepped⟩ := Option.isSome_iff_exists.mp goesOn
  rw [Option.any_eq_true] at sent
  obtain ⟨sender, found, holds⟩ := sent
  simp only [Bool.and_eq_true, decide_eq_true_eq,
    List.isEmpty_iff] at holds
  obtain ⟨⟨⟨⟨stage, last⟩, single⟩, trigger⟩, delivered⟩ := holds
  have longer := reached.append (Reaches.single trivial stepped)
  have resolvable := claimed _ _ _ longer heldTrigger _ [] _ _ rfl reached
    stepped sender.signal "pagerduty"
    (Settles.group found stage last single trigger delivered)
  obtain ⟨key, _, lists⟩ := canBeResolved_iff.mp resolvable
  rw [book_sender stepped] at lists
  obtain ⟨alert, listed, _⟩ := lists
  rw [AlertBook.openAlerts, noRows] at listed
  cases listed

end OpsSignal
