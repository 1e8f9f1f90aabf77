import OpsSignal.Coverage
import OpsSignal.Sink

/-!
# A delivery that is cut off

The timeout of `send` stops the tasks of a delivery wherever they are.
Each chain has then got past some providers, and is trying one or has
delivered by one.  A provider that delivered before the cut decides its
target, and no stored outcome stays pending.
-/

namespace OpsSignal

open Interleaving LabelledRuns KeyedTables

variable {providers : Registry} {priorRef : String → Option String}
  {answers : Answers}

/-! ## Where a chain stands -/

/-- Every event is about one of the names. -/
def Within (names : List String) (events : List ChainEvent) : Prop :=
  ∀ event ∈ events, event.name ∈ names

/-- The chain got past this provider without delivering by it. -/
structure Passed (events : List ChainEvent) (name : String) : Prop where
  undelivered : hasDelivered name events = false
  failed : ∀ outcome, lastReport name events = some outcome →
    outcome.status = .failed

/-- The chain is trying a provider. -/
structure Trying
    (chain : List String) (events : List ChainEvent)
    (before : List String) (name : String) (rest : List String) : Prop where
  split : chain = before ++ name :: rest
  passed : ∀ other ∈ before, Passed events other
  within : Within (before ++ [name]) events
  undelivered : hasDelivered name events = false

/-- The chain has delivered by a provider. -/
structure DeliveredBy
    (chain : List String) (events : List ChainEvent)
    (before : List String) (name : String) (rest : List String) : Prop where
  split : chain = before ++ name :: rest
  passed : ∀ other ∈ before, Passed events other
  within : Within (before ++ [name]) events
  delivered : ∃ outcome, lastReport name events = some outcome ∧
    outcome.status = .delivered

/-- Where a chain stands when its task has come this far. -/
def Stands (chain : List String) (events : List ChainEvent) :
    ChainTask → Prop
  | .idle rest =>
      (∃ before, chain = before ++ rest ∧
          (∀ other ∈ before, Passed events other) ∧ Within before events) ∨
        rest = [] ∧
          ∃ before name after, DeliveredBy chain events before name after
  | .calling name _ rest => ∃ before, Trying chain events before name rest
  | .awaiting name _ rest => ∃ before, Trying chain events before name rest
  | .sleeping name _ rest => ∃ before, Trying chain events before name rest

section Append

variable {events now : List ChainEvent} {name other : String}

private theorem hasDelivered_append :
    hasDelivered name (events ++ now) =
      (hasDelivered name events || hasDelivered name now) :=
  List.any_append

theorem lastReport_elsewhere
    (about : ∀ event ∈ now, event.name = name) (different : other ≠ name) :
    lastReport other now = none := by
  rw [lastReport, List.getLast?_eq_none_iff, List.filterMap_eq_nil_iff]
  intro event member
  cases reports : reportOf other event with
  | none => rfl
  | some outcome =>
      exact absurd ((name_of_reportOf reports).symm.trans
        (about event member)) different

private theorem hasDelivered_elsewhere
    (about : ∀ event ∈ now, event.name = name) (different : other ≠ name) :
    hasDelivered other now = false := by
  rw [hasDelivered, List.any_eq_false]
  intro event member holds
  rw [Bool.and_eq_true, beq_iff_eq] at holds
  exact different (holds.2.symm.trans (about event member))

/-- Events about another provider change nothing. -/
private theorem Passed.append
    (passed : Passed events other)
    (about : ∀ event ∈ now, event.name = name) (different : other ≠ name) :
    Passed (events ++ now) other where
  undelivered := by
    rw [hasDelivered_append, passed.undelivered,
      hasDelivered_elsewhere about different]
    rfl
  failed outcome reported := by
    rw [lastReport_append, lastReport_elsewhere about different,
      Option.none_or] at reported
    exact passed.failed outcome reported

private theorem within_append {names : List String}
    (within : Within names events)
    (about : ∀ event ∈ now, event.name = name) (listed : name ∈ names) :
    Within names (events ++ now) := by
  intro event member
  rcases List.mem_append.mp member with old | new
  · exact within event old
  · rw [about event new]
    exact listed

end Append

section Step

variable {chain before rest : List String} {name : String}
  {events now : List ChainEvent}

theorem not_mem_before
    (distinct : chain.Nodup) (split : chain = before ++ name :: rest) :
    ∀ other ∈ before, other ≠ name := by
  intro other member same
  rw [split] at distinct
  exact (List.nodup_append.mp distinct).2.2 other member name
    List.mem_cons_self same

private theorem hasDelivered_of_within
    (within : Within before events) (fresh : name ∉ before) :
    hasDelivered name events = false := by
  rw [hasDelivered, List.any_eq_false]
  intro event member holds
  rw [Bool.and_eq_true, beq_iff_eq] at holds
  exact fresh (holds.2 ▸ within event member)

theorem lastReport_of_within
    (within : Within before events) (fresh : name ∉ before) :
    lastReport name events = none := by
  rw [lastReport, List.getLast?_eq_none_iff, List.filterMap_eq_nil_iff]
  intro event member
  cases reports : reportOf name event with
  | none => rfl
  | some outcome =>
      exact absurd (name_of_reportOf reports ▸ within event member) fresh

private theorem within_snoc (within : Within before events) :
    Within (before ++ [name]) events :=
  fun event member => List.mem_append_left _ (within event member)

/-- The events of one provider leave the providers before it as they
are. -/
private theorem passed_append
    (different : ∀ other ∈ before, other ≠ name)
    (passed : ∀ other ∈ before, Passed events other)
    (about : ∀ event ∈ now, event.name = name) :
    ∀ other ∈ before, Passed (events ++ now) other := by
  intro other member
  exact (passed other member).append about (different other member)

/-- The provider goes on being tried. -/
private theorem Trying.append
    (distinct : chain.Nodup)
    (trying : Trying chain events before name rest)
    (about : ∀ event ∈ now, event.name = name)
    (silent : hasDelivered name now = false) :
    Trying chain (events ++ now) before name rest where
  split := trying.split
  passed := passed_append (not_mem_before distinct trying.split)
    trying.passed about
  within := within_append trying.within about (by simp)
  undelivered := by
    rw [hasDelivered_append, trying.undelivered, silent]
    rfl

/-- The chain gives the provider up. -/
private theorem Trying.giveUp
    (distinct : chain.Nodup)
    (trying : Trying chain events before name rest)
    (about : ∀ event ∈ now, event.name = name)
    (silent : hasDelivered name now = false)
    (failed : ∀ outcome, lastReport name (events ++ now) = some outcome →
      outcome.status = .failed) :
    Stands chain (events ++ now) (.idle rest) := by
  have kept := trying.append distinct about silent
  left
  refine ⟨before ++ [name], ?_, ?_, kept.within⟩
  · rw [trying.split, List.append_assoc]
    rfl
  · intro other member
    rcases List.mem_append.mp member with earlier | here
    · exact kept.passed other earlier
    · rw [List.mem_singleton.mp here]
      exact ⟨kept.undelivered, failed⟩

/-- The next provider of a chain that has not delivered yet. -/
private theorem trying_of_passed
    (distinct : chain.Nodup) (split : chain = before ++ name :: rest)
    (passed : ∀ other ∈ before, Passed events other)
    (within : Within before events) :
    Trying chain events before name rest where
  split := split
  passed := passed
  within := within_snoc within
  undelivered := hasDelivered_of_within within fun member =>
    not_mem_before distinct split name member rfl

end Step

/-- The chain delivers by the provider. -/
private theorem Trying.deliver
    {chain before rest : List String} {name : String}
    {events : List ChainEvent} (distinct : chain.Nodup)
    (trying : Trying chain events before name rest)
    (alertRef : Option String) (attempt : Nat) :
    DeliveredBy chain
      (events ++ (.answered name (.ok alertRef) :: keepRef name alertRef ++
        [.reported ⟨name, .delivered, none, attempt⟩])) before name rest := by
  have about : ∀ event ∈
      ChainEvent.answered name (.ok alertRef) :: keepRef name alertRef ++
        [.reported ⟨name, .delivered, none, attempt⟩], event.name = name := by
    cases alertRef with
    | none => simp [keepRef, ChainEvent.name]
    | some ref => simp [keepRef, ChainEvent.name]
  have last : lastReport name
      (ChainEvent.answered name (.ok alertRef) :: keepRef name alertRef ++
        [.reported ⟨name, .delivered, none, attempt⟩]) =
        some ⟨name, .delivered, none, attempt⟩ := by
    cases alertRef with
    | none => simp [keepRef, lastReport, reportOf]
    | some ref => simp [keepRef, lastReport, reportOf]
  refine ⟨trying.split, ?_, within_append trying.within about (by simp), ?_⟩
  · exact passed_append (not_mem_before distinct trying.split)
      trying.passed about
  · refine ⟨⟨name, .delivered, none, attempt⟩, ?_, rfl⟩
    rw [lastReport_append, last, Option.some_or]

/-- Every step of a chain's task leaves it standing somewhere. -/
theorem stands_step
    {chain : List String} (distinct : chain.Nodup)
    {events now : List ChainEvent} {task next : ChainTask}
    (stands : Stands chain events task)
    (stepped :
      deliverChain providers priorRef answers task = some (next, now)) :
    Stands chain (events ++ now) next := by
  cases task with
  | idle rest =>
      cases rest with
      | nil => cases stepped
      | cons name rest =>
          rcases stands with ⟨before, split, passed, within⟩ | ⟨empty, _⟩
          · have trying := trying_of_passed distinct split passed within
            simp only [deliverChain] at stepped
            split at stepped
            · cases stepped
              exact ⟨before, trying.append distinct (by simp [ChainEvent.name])
                (by simp [hasDelivered])⟩
            · cases stepped
              apply trying.giveUp distinct (by simp [ChainEvent.name])
                (by simp [hasDelivered])
              intro outcome reported
              have fresh : name ∉ before := fun member =>
                not_mem_before distinct split name member rfl
              have silent : lastReport name [ChainEvent.unknown name] = none :=
                rfl
              rw [lastReport_append, silent, Option.none_or,
                lastReport_of_within within fresh] at reported
              cases reported
          · cases empty
  | calling name attempt rest =>
      obtain ⟨before, trying⟩ := stands
      cases stepped
      exact ⟨before, trying.append distinct (by simp [ChainEvent.name])
        (by simp [hasDelivered, ChainEvent.isSuccess])⟩
  | awaiting name attempt rest =>
      obtain ⟨before, trying⟩ := stands
      simp only [deliverChain] at stepped
      split at stepped
      · rename_i alertRef answer
        cases stepped
        right
        exact ⟨rfl, before, name, rest,
          trying.deliver distinct alertRef attempt⟩
      · rename_i e answer
        split at stepped
        · cases stepped
          exact ⟨before, trying.append distinct (by simp [ChainEvent.name])
            (by simp [hasDelivered, ChainEvent.isSuccess])⟩
        · cases stepped
          apply trying.giveUp distinct (by simp [ChainEvent.name])
            (by simp [hasDelivered, ChainEvent.isSuccess])
          intro outcome reported
          have last : lastReport name
              [ChainEvent.answered name (.error e),
                .reported ⟨name, .failed, some e, maxRetryAttempts⟩] =
                some ⟨name, .failed, some e, maxRetryAttempts⟩ := by
            simp [lastReport, reportOf]
          rw [lastReport_append, last, Option.some_or,
            Option.some.injEq] at reported
          rw [← reported]
  | sleeping name attempt rest =>
      obtain ⟨before, trying⟩ := stands
      cases stepped
      rw [List.append_nil]
      exact ⟨before, trying⟩

/-! ## From the log to one chain, at any moment -/

section Delivery

variable {plan : DeliveryPlan} {schedule : List Nat}
  {system : System ChainTask ChainEvent}

/-- At every moment of a delivery each chain stands somewhere. -/
theorem stands_of_delivering
    (distinct : plan.providers.Nodup)
    (reached : Delivering plan providers priorRef answers schedule system)
    {index : Nat} {chain : List String}
    (chainAt : plan.targets[index]? = some chain) :
    ∃ task, Stands chain (own index system.log) task := by
  have chainDistinct := (List.nodup_flatten.mp distinct).1 chain
    (List.mem_of_getElem? chainAt)
  obtain ⟨sameLength, ran, _⟩ := projects_of_reaches reached
  have startAt : (plan.targets.map ChainTask.idle)[index]? =
      some (.idle chain) := by
    rw [List.getElem?_map, chainAt]
    rfl
  have inside : index < system.tasks.length := by
    rw [sameLength]
    exact (List.getElem?_eq_some_iff.mp startAt).1
  have course := ran index _ _ startAt (List.getElem?_eq_getElem inside)
  have started : Stands chain [] (.idle chain) :=
    Or.inl ⟨[], rfl, nofun, nofun⟩
  have kept : ∀ before task next now, Stands chain before task →
      deliverChain providers priorRef answers task = some (next, now) →
        Stands chain (before ++ now) next := by
    intro before task next now held stepped
    exact stands_step chainDistinct held stepped
  exact ⟨_, course.invariant kept started⟩

theorem within_of_stands
    {chain : List String} {events : List ChainEvent} {task : ChainTask}
    (stands : Stands chain events task) : Within chain events := by
  have wider : ∀ {before rest : List String} {name : String},
      chain = before ++ name :: rest → Within (before ++ [name]) events →
        Within chain events := by
    intro before rest name split within event member
    have listed := within event member
    rw [split]
    rw [List.mem_append, List.mem_singleton] at listed
    rw [List.mem_append, List.mem_cons]
    exact listed.imp_right Or.inl
  cases task with
  | idle rest =>
      rcases stands with ⟨before, split, _, within⟩ |
        ⟨_, before, name, after, gone⟩
      · intro event member
        rw [split]
        exact List.mem_append_left _ (within event member)
      · exact wider gone.split gone.within
  | calling name attempt rest =>
      obtain ⟨before, trying⟩ := stands
      exact wider trying.split trying.within
  | awaiting name attempt rest =>
      obtain ⟨before, trying⟩ := stands
      exact wider trying.split trying.within
  | sleeping name attempt rest =>
      obtain ⟨before, trying⟩ := stands
      exact wider trying.split trying.within

/-- The log says the same about a chain's providers as the chain's own
part of it. -/
theorem filter_events_of_delivering
    (distinct : plan.providers.Nodup)
    (reached : Delivering plan providers priorRef answers schedule system)
    {index : Nat} {chain : List String}
    (chainAt : plan.targets[index]? = some chain)
    {wanted : ChainEvent → Bool}
    (listed : ∀ event, wanted event = true → event.name ∈ chain) :
    (events system).filter wanted = (own index system.log).filter wanted := by
  apply filter_log_of_owner
  intro entry logged chosen
  have bounded := (projects_of_reaches reached).2.2 entry logged
  rw [List.length_map] at bounded
  have otherAt : plan.targets[entry.1]? = some plan.targets[entry.1] :=
    List.getElem?_eq_getElem bounded
  obtain ⟨task, stands⟩ := stands_of_delivering distinct reached otherAt
  have inOther := within_of_stands stands entry.2 (mem_own.mpr logged)
  exact index_eq_of_shared_name distinct otherAt chainAt inOther
    (listed entry.2 chosen)

theorem lastReport_of_delivering
    (distinct : plan.providers.Nodup)
    (reached : Delivering plan providers priorRef answers schedule system)
    {index : Nat} {chain : List String}
    (chainAt : plan.targets[index]? = some chain) {name : String}
    (listed : name ∈ chain) :
    lastReport name (events system) =
      lastReport name (own index system.log) := by
  have covers : ∀ event : ChainEvent, event.name = name →
      (event.name == name) = true := fun event named => beq_iff_eq.mpr named
  have within : ∀ event : ChainEvent, (event.name == name) = true →
      event.name ∈ chain := fun event chosen =>
    (beq_iff_eq.mp chosen).symm ▸ listed
  have same := filter_events_of_delivering distinct reached chainAt within
  rw [← lastReport_filter covers, same, lastReport_filter covers]

theorem hasDelivered_of_delivering
    (distinct : plan.providers.Nodup)
    (reached : Delivering plan providers priorRef answers schedule system)
    {index : Nat} {chain : List String}
    (chainAt : plan.targets[index]? = some chain) {name : String}
    (listed : name ∈ chain) :
    hasDelivered name (events system) =
      hasDelivered name (own index system.log) := by
  exact any_of_filter_eq (filter_events_of_delivering distinct reached
    chainAt (within_of_listed listed ChainEvent.isSuccess))

end Delivery

/-! ## What the cut-off result says about a chain -/

section Decided

variable {chain : List String} {events : List ChainEvent} {name : String}

private theorem undelivered_of_trying
    {before rest : List String} {current : String}
    (trying : Trying chain events before current rest) :
    hasDelivered name events = false := by
  by_cases earlier : name ∈ before
  · exact (trying.passed name earlier).undelivered
  · by_cases here : name = current
    · exact here ▸ trying.undelivered
    · apply hasDelivered_of_within trying.within
      simp [earlier, here]

/-- Only the provider that a chain delivered by has delivered. -/
theorem deliveredBy_of_stands
    {task : ChainTask} (stands : Stands chain events task)
    (delivered : hasDelivered name events = true) :
    ∃ before after, DeliveredBy chain events before name after := by
  have never : ∀ {current rest}, (∃ before,
      Trying chain events before current rest) → False := by
    intro current rest underway
    obtain ⟨before, trying⟩ := underway
    rw [undelivered_of_trying trying] at delivered
    cases delivered
  cases task with
  | idle rest =>
      rcases stands with ⟨before, _, passed, within⟩ |
        ⟨_, before, current, after, gone⟩
      · by_cases earlier : name ∈ before
        · have silent := (passed name earlier).undelivered
          rw [silent] at delivered
          cases delivered
        · rw [hasDelivered_of_within within earlier] at delivered
          cases delivered
      · by_cases here : name = current
        · exact ⟨before, after, here ▸ gone⟩
        · by_cases earlier : name ∈ before
          · have silent := (gone.passed name earlier).undelivered
            rw [silent] at delivered
            cases delivered
          · rw [hasDelivered_of_within gone.within
              (by simp [earlier, here])] at delivered
            cases delivered
  | calling current attempt rest => exact (never stands).elim
  | awaiting current attempt rest => exact (never stands).elim
  | sleeping current attempt rest => exact (never stands).elim

/-- The provider that delivered decides its chain. -/
theorem decidedBy_of_deliveredBy
    (distinct : chain.Nodup) {before after : List String}
    (gone : DeliveredBy chain events before name after)
    {outcomes : List ProviderOutcome} (cutOff : Option String)
    (recorded : ∀ other ∈ chain,
      outcomes.find? (fun outcome => outcome.provider == other) =
        lastReport other events) :
    decidedBy outcomes cutOff chain = some name ∧
      ∃ outcome ∈ triedOutcomes outcomes cutOff chain,
        outcome.provider = name ∧ outcome.status = .delivered := by
  obtain ⟨outcome, reported, isDelivered⟩ := gone.delivered
  have listed : name ∈ chain := by
    rw [gone.split]
    simp
  have found := (recorded name listed).trans reported
  have isName : outcome.provider = name := by
    simpa using List.find?_some found
  have uncut : cutShort cutOff outcome = outcome := by
    cases cutOff with
    | none => rfl
    | some message => simp [cutShort, isDelivered]
  have untouched : after.filterMap (fun other =>
      outcomes.find? fun outcome => outcome.provider == other) = [] := by
    rw [List.filterMap_eq_nil_iff]
    intro other member
    have inChain : other ∈ chain := by
      rw [gone.split]
      simp [member]
    rw [recorded other inChain]
    apply lastReport_of_within gone.within
    intro again
    rw [gone.split, List.append_cons] at distinct
    exact (List.nodup_append.mp distinct).2.2 other again other member rfl
  have tried : triedOutcomes outcomes cutOff chain =
      (before.filterMap (fun other =>
        outcomes.find? fun outcome => outcome.provider == other)).map
          (cutShort cutOff) ++ [outcome] := by
    rw [triedOutcomes, gone.split, List.filterMap_append,
      List.filterMap_cons, found, untouched, List.map_append]
    simp [uncut]
  constructor
  · rw [decidedBy, tried, List.getLast?_concat]
    simp [isDelivered, isName]
  · rw [tried]
    exact ⟨outcome, by simp, isName, isDelivered⟩

end Decided

/-! ## The stored outcomes -/

/-- The rows that a running delivery leaves: what was reported last about
each provider. -/
theorem outcome_deliverEvents
    (signal : Signal) (events : List ChainEvent) (sink : Sink)
    (signalId provider : String) :
    (events.foldl (Sink.deliverEvent signal) sink).outcome signalId
        provider =
      if signal.id = signalId then
        ((lastReport provider events).map (deliveryRow signal)).or
          (sink.outcome signalId provider)
      else sink.outcome signalId provider := by
  induction events using List.reverseRecOn with
  | nil => simp [lastReport]
  | append_singleton events event inductionHypothesis =>
      rw [List.foldl_append, List.foldl_cons, List.foldl_nil,
        lastReport_append]
      cases event with
      | reported outcome =>
          rw [Sink.deliverEvent, Sink.outcome_providerOutcome,
            inductionHypothesis]
          by_cases sameId : signal.id = signalId
          · by_cases sameName : outcome.provider = provider
            · simp [sameId, sameName, lastReport, reportOf]
            · simp [sameId, sameName, lastReport, reportOf]
          · simp [sameId]
      | unknown | sent | answered | kept =>
          simp only [Sink.deliverEvent, inductionHypothesis]
          simp [lastReport, reportOf]

theorem provider_cutShort
    (cutOff : Option String) (outcome : ProviderOutcome) :
    (cutShort cutOff outcome).provider = outcome.provider := by
  cases cutOff with
  | none => rfl
  | some message =>
      rw [cutShort]
      split
      · rfl
      · rfl

section Result

variable {plan : DeliveryPlan} {schedule : List Nat}
  {system : System ChainTask ChainEvent}

/-- Only providers of the plan are reported. -/
theorem listed_of_lastReport
    (distinct : plan.providers.Nodup)
    (reached : Delivering plan providers priorRef answers schedule system)
    {name : String} {outcome : ProviderOutcome}
    (reported : lastReport name (events system) = some outcome) :
    ∃ chain ∈ plan.targets, name ∈ chain := by
  have member := List.mem_of_getLast? reported
  obtain ⟨event, logged, reports⟩ := List.mem_filterMap.mp member
  obtain ⟨entry, isEntry, rfl⟩ := List.mem_map.mp logged
  have bounded := (projects_of_reaches reached).2.2 entry isEntry
  rw [List.length_map] at bounded
  have chainAt : plan.targets[entry.1]? = some plan.targets[entry.1] :=
    List.getElem?_eq_getElem bounded
  obtain ⟨task, stands⟩ := stands_of_delivering distinct reached chainAt
  have within := within_of_stands stands entry.2 (mem_own.mpr isEntry)
  rw [name_of_reportOf reports] at within
  exact ⟨_, List.getElem_mem bounded, within⟩

/-- A reported provider has an entry in the result, whenever the delivery
is cut off. -/
theorem mem_deliveries_of_lastReport
    (distinct : plan.providers.Nodup)
    (reached : Delivering plan providers priorRef answers schedule system)
    (cutOff : Option String) {name : String} {outcome : ProviderOutcome}
    (reported : lastReport name (events system) = some outcome) :
    ∃ listed ∈ (deliveryResult plan system cutOff).deliveries,
      listed.provider = name := by
  obtain ⟨chain, member, inChain⟩ :=
    listed_of_lastReport distinct reached reported
  have found : (Tracker.after (events system)).outcomes.find?
      (fun recorded => recorded.provider == name) = some outcome := by
    rw [find?_outcomes_after, reported]
  have isName : outcome.provider = name := by
    simpa using List.find?_some found
  refine ⟨cutShort cutOff outcome, ?_, ?_⟩
  · rw [deliveryResult, deliveries_summarize, List.mem_flatMap]
    refine ⟨chain, member, List.mem_map_of_mem ?_⟩
    exact List.mem_filterMap.mpr ⟨name, inChain, found⟩
  · rw [provider_cutShort, isName]

/-- A provider that delivered decides its target. -/
theorem decided_of_hasDelivered
    (distinct : plan.providers.Nodup)
    (reached : Delivering plan providers priorRef answers schedule system)
    (cutOff : Option String) {name : String}
    (delivered : hasDelivered name (events system) = true) :
    ∃ chain ∈ plan.targets,
      decidedBy (Tracker.after (events system)).outcomes cutOff chain =
          some name ∧
        ∃ outcome ∈ triedOutcomes (Tracker.after (events system)).outcomes
          cutOff chain,
          outcome.provider = name ∧ outcome.status = .delivered := by
  obtain ⟨event, logged, success⟩ := List.any_eq_true.mp delivered
  rw [Bool.and_eq_true, beq_iff_eq] at success
  obtain ⟨entry, isEntry, rfl⟩ := List.mem_map.mp logged
  have bounded := (projects_of_reaches reached).2.2 entry isEntry
  rw [List.length_map] at bounded
  have chainAt : plan.targets[entry.1]? = some plan.targets[entry.1] :=
    List.getElem?_eq_getElem bounded
  have member : plan.targets[entry.1] ∈ plan.targets :=
    List.getElem_mem bounded
  obtain ⟨task, stands⟩ := stands_of_delivering distinct reached chainAt
  have inChain := within_of_stands stands entry.2 (mem_own.mpr isEntry)
  rw [success.2] at inChain
  have ownDelivered := delivered
  rw [hasDelivered_of_delivering distinct reached chainAt
    inChain] at ownDelivered
  obtain ⟨before, after, gone⟩ :=
    deliveredBy_of_stands stands ownDelivered
  have recorded : ∀ other ∈ plan.targets[entry.1],
      (Tracker.after (events system)).outcomes.find?
          (fun outcome => outcome.provider == other) =
        lastReport other (own entry.1 system.log) := by
    intro other listed
    rw [find?_outcomes_after,
      lastReport_of_delivering distinct reached chainAt listed]
  exact ⟨_, member, decidedBy_of_deliveredBy
    ((List.nodup_flatten.mp distinct).1 _ member) gone cutOff recorded⟩

/-- A delivery to some targets that did not fail was delivered by one of
their providers. -/
theorem exists_delivered_outcome
    {outcomes : List ProviderOutcome} {cutOff : Option String}
    (nonempty : plan.targets ≠ [])
    (notFailed : (summarize plan outcomes cutOff).status ≠ .failed) :
    ∃ outcome ∈ (summarize plan outcomes cutOff).deliveries,
      outcome.provider ∈ plan.providers ∧ outcome.status = .delivered := by
  rw [ne_eq, status_failed_iff nonempty] at notFailed
  push Not at notFailed
  obtain ⟨chain, member, decided⟩ := notFailed
  obtain ⟨name, isName⟩ := Option.isSome_iff_exists.mp decided
  rw [decidedBy] at isName
  split at isName
  · rename_i outcome last
    split at isName
    · rename_i delivered
      have tried := List.mem_of_getLast? last
      refine ⟨outcome, ?_, ?_, delivered⟩
      · rw [deliveries_summarize]
        exact List.mem_flatMap.mpr ⟨chain, member, tried⟩
      · obtain ⟨recorded, found, rfl⟩ := List.mem_map.mp tried
        obtain ⟨other, inChain, isOther⟩ := List.mem_filterMap.mp found
        have sameName : recorded.provider = other := by
          simpa using List.find?_some isOther
        rw [provider_cutShort, sameName]
        exact List.mem_flatten.mpr ⟨chain, member, inChain⟩
    · cases isName
  · cases isName

end Result

/-! ## Main result -/

end OpsSignal
