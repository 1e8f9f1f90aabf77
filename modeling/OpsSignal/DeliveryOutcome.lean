import OpsSignal.DeliveryChain

/-!
# What a delivery does

From the chains to the whole delivery.  The log of a completed delivery
contains the events of every chain, interleaved somehow.  The names of the
plan are distinct, so each name selects the events of its own chain, and
the result depends on those alone.
-/

namespace OpsSignal

open Interleaving LabelledRuns

section Delivery

variable {providers : Registry} {priorRef : String → Option String}
  {answers : Answers} {plan : DeliveryPlan}

/-! ## From the log to one chain -/

/-- Reachable states of a delivery. -/
abbrev Delivering
    (plan : DeliveryPlan) (providers : Registry)
    (priorRef : String → Option String) (answers : Answers)
    (schedule : List Nat) (system : System ChainTask ChainEvent) : Prop :=
  Reaches (advance (deliverChain providers priorRef answers)) anyStep
    (deliverStart plan) schedule system

/-- Every task of the delivery has come to its end. -/
abbrev Delivered
    (providers : Registry) (priorRef : String → Option String)
    (answers : Answers) (system : System ChainTask ChainEvent) : Prop :=
  Finished (deliverChain providers priorRef answers) system

theorem own_of_delivered
    {schedule : List Nat} {system : System ChainTask ChainEvent}
    (reached : Delivering plan providers priorRef answers schedule system)
    (finished : Delivered providers priorRef answers system)
    {index : Nat} {chain : List String}
    (chainAt : plan.targets[index]? = some chain) :
    own index system.log =
      chainEvents providers priorRef answers chain := by
  have startAt : (plan.targets.map ChainTask.idle)[index]? =
      some (.idle chain) := by
    rw [List.getElem?_map, chainAt]
    rfl
  have emitted := emits_own_of_finished reached finished startAt
  exact emitted.unique
    (emits_chainEvents providers priorRef answers chain)

theorem index_eq_of_shared_name
    (distinct : plan.providers.Nodup) {first second : Nat}
    {firstChain secondChain : List String} {name : String}
    (firstAt : plan.targets[first]? = some firstChain)
    (secondAt : plan.targets[second]? = some secondChain)
    (inFirst : name ∈ firstChain) (inSecond : name ∈ secondChain) :
    first = second := by
  have disjoint := (List.nodup_flatten.mp distinct).2
  rw [List.pairwise_iff_getElem] at disjoint
  obtain ⟨firstInside, rfl⟩ := List.getElem?_eq_some_iff.mp firstAt
  obtain ⟨secondInside, rfl⟩ := List.getElem?_eq_some_iff.mp secondAt
  rcases Nat.lt_trichotomy first second with less | same | more
  · have apart := disjoint first second firstInside secondInside less
    exact absurd inSecond (apart inFirst)
  · exact same
  · have apart := disjoint second first secondInside firstInside more
    exact absurd inFirst (apart inSecond)

/-- A choice of events about one chain's providers finds the same events
in the log of all chains as in that chain's own. -/
theorem filter_events
    (distinct : plan.providers.Nodup)
    {schedule : List Nat} {system : System ChainTask ChainEvent}
    (reached : Delivering plan providers priorRef answers schedule system)
    (finished : Delivered providers priorRef answers system)
    {chain : List String} (member : chain ∈ plan.targets)
    {wanted : ChainEvent → Bool}
    (within : ∀ event, wanted event = true → event.name ∈ chain) :
    (events system).filter wanted =
      (chainEvents providers priorRef answers chain).filter wanted := by
  obtain ⟨index, chainAt⟩ := List.mem_iff_getElem?.mp member
  have owners := (projects_of_reaches reached).2.2
  have owned : ∀ entry ∈ system.log, wanted entry.2 = true →
      entry.1 = index := by
    intro entry logged chosen
    have bounded := owners entry logged
    rw [List.length_map] at bounded
    have otherAt : plan.targets[entry.1]? = some plan.targets[entry.1] :=
      List.getElem?_eq_getElem bounded
    have otherOwn := own_of_delivered reached finished otherAt
    have inOwn : entry.2 ∈ own entry.1 system.log := mem_own.mpr logged
    rw [otherOwn] at inOwn
    have inOther := name_mem_of_mem_chainEvents inOwn
    exact index_eq_of_shared_name distinct otherAt chainAt inOther
      (within entry.2 chosen)
  rw [events, filter_log_of_owner owned,
    own_of_delivered reached finished chainAt]

theorem lastReport_events
    (distinct : plan.providers.Nodup)
    {schedule : List Nat} {system : System ChainTask ChainEvent}
    (reached : Delivering plan providers priorRef answers schedule system)
    (finished : Delivered providers priorRef answers system)
    {chain : List String} (member : chain ∈ plan.targets)
    {name : String} (listed : name ∈ chain) :
    lastReport name (events system) =
      if name ∈ triedNames providers answers chain then
        some (outcomeOf answers name)
      else none := by
  have chainDistinct := (List.nodup_flatten.mp distinct).1 chain member
  have within : ∀ event : ChainEvent, (event.name == name) = true →
      event.name ∈ chain := by
    intro event chosen
    rw [beq_iff_eq.mp chosen]
    exact listed
  have same := filter_events distinct reached finished member within
  have covers : ∀ event : ChainEvent, event.name = name →
      (event.name == name) = true := by
    intro event named
    exact beq_iff_eq.mpr named
  rw [← lastReport_filter covers, same, lastReport_filter covers,
    lastReport_chainEvents chainDistinct]

theorem any_of_filter_eq
    {Item : Type} {wanted : Item → Bool} {left right : List Item}
    (same : left.filter wanted = right.filter wanted) :
    left.any wanted = right.any wanted := by
  have transfer : ∀ {left right : List Item},
      left.filter wanted = right.filter wanted →
        left.any wanted = true → right.any wanted = true := by
    intro left right same holds
    obtain ⟨item, member, chosen⟩ := List.any_eq_true.mp holds
    have filtered := List.mem_filter.mpr ⟨member, chosen⟩
    rw [same] at filtered
    exact List.any_eq_true.mpr
      ⟨item, (List.mem_filter.mp filtered).1, chosen⟩
  rw [Bool.eq_iff_iff]
  exact ⟨transfer same, transfer same.symm⟩

theorem within_of_listed
    {chain : List String} {name : String} (listed : name ∈ chain)
    (kind : ChainEvent → Bool) :
    ∀ event : ChainEvent,
      (kind event && event.name == name) = true → event.name ∈ chain := by
  intro event chosen
  rw [Bool.and_eq_true, beq_iff_eq] at chosen
  rw [chosen.2]
  exact listed

theorem wasTried_events
    (distinct : plan.providers.Nodup)
    {schedule : List Nat} {system : System ChainTask ChainEvent}
    (reached : Delivering plan providers priorRef answers schedule system)
    (finished : Delivered providers priorRef answers system)
    {chain : List String} (member : chain ∈ plan.targets)
    {name : String} (listed : name ∈ chain) :
    wasTried name (events system) =
      decide (name ∈ triedNames providers answers chain) := by
  have same := filter_events distinct reached finished member
    (within_of_listed listed ChainEvent.isSend)
  exact (any_of_filter_eq same).trans (wasTried_chainEvents name chain)

theorem hasDelivered_events
    (distinct : plan.providers.Nodup)
    {schedule : List Nat} {system : System ChainTask ChainEvent}
    (reached : Delivering plan providers priorRef answers schedule system)
    (finished : Delivered providers priorRef answers system)
    {chain : List String} (member : chain ∈ plan.targets)
    {name : String} (listed : name ∈ chain) :
    hasDelivered name (events system) =
      (decide (name ∈ triedNames providers answers chain) &&
        delivers answers name) := by
  have same := filter_events distinct reached finished member
    (within_of_listed listed ChainEvent.isSuccess)
  exact (any_of_filter_eq same).trans (hasDelivered_chainEvents name chain)

/-- Nothing is done about a provider outside the plan. -/
theorem name_mem_of_mem_events
    {schedule : List Nat} {system : System ChainTask ChainEvent}
    (reached : Delivering plan providers priorRef answers schedule system)
    (finished : Delivered providers priorRef answers system)
    {event : ChainEvent} (member : event ∈ events system) :
    ∃ chain ∈ plan.targets,
      event ∈ chainEvents providers priorRef answers chain := by
  obtain ⟨entry, logged, rfl⟩ := List.mem_map.mp member
  have bounded := (projects_of_reaches reached).2.2 entry logged
  rw [List.length_map] at bounded
  have chainAt : plan.targets[entry.1]? = some plan.targets[entry.1] :=
    List.getElem?_eq_getElem bounded
  have inOwn : entry.2 ∈ own entry.1 system.log := mem_own.mpr logged
  rw [own_of_delivered reached finished chainAt] at inOwn
  exact ⟨plan.targets[entry.1], List.getElem_mem bounded, inOwn⟩

/-! ## The log only grows -/

/-- Whatever is reached later extends the log. -/
theorem log_extends
    {start system : System ChainTask ChainEvent} {schedule : List Nat}
    (reached :
      Reaches (advance (deliverChain providers priorRef answers)) anyStep
        start schedule system) :
    ∃ later, events system = events start ++ later := by
  induction reached with
  | nil => exact ⟨[], by simp⟩
  | snoc _ _ stepped inductionHypothesis =>
      obtain ⟨later, same⟩ := inductionHypothesis
      obtain ⟨task, moved, now, _, _, rfl⟩ := advance_eq_some.mp stepped
      refine ⟨later ++ now, ?_⟩
      rw [← List.append_assoc, ← same, events, events, List.map_append,
        List.map_map]
      simp [Function.comp_def]

/-- Every delivery can be carried on to its end. -/
theorem exists_delivered
    {schedule : List Nat} {system : System ChainTask ChainEvent}
    (reached : Delivering plan providers priorRef answers schedule system) :
    ∃ rest final later,
      Delivering plan providers priorRef answers (schedule ++ rest) final ∧
        Delivered providers priorRef answers final ∧
        events final = events system ++ later := by
  obtain ⟨rest, final, carried, finished⟩ :=
    exists_finished (rank_deliverChain providers priorRef answers) system
  obtain ⟨later, same⟩ := log_extends carried
  exact ⟨rest, final, later, reached.append carried, finished, same⟩

/-! ## The discipline of sends -/

/-- What may be sent when.  It holds at every moment of a delivery. -/
structure SendDiscipline
    (plan : DeliveryPlan) (providers : Registry)
    (events : List ChainEvent) : Prop where
  planned : ∀ event ∈ events, event.name ∈ plan.providers
  atMostThree : ∀ name, sends name events ≤ maxRetryAttempts
  stopsAfterSuccess : ∀ chain ∈ plan.targets, ∀ before event after,
    events = before ++ event :: after → event.isSuccess = true →
      event.name ∈ chain →
        ∀ later ∈ after, later.name ∈ chain → later.isSend = false
  inOrder : ∀ earlier later before event after,
    earlier ++ event.name :: later ∈ plan.targets →
      events = before ++ event :: after → event.isSend = true →
        ∀ name ∈ earlier, providers.contains name = true →
          failures name before = maxRetryAttempts

/-- A part of the log from its start keeps the discipline. -/
theorem SendDiscipline.of_append
    {earlierEvents laterEvents : List ChainEvent}
    (kept : SendDiscipline plan providers (earlierEvents ++ laterEvents)) :
    SendDiscipline plan providers earlierEvents where
  planned event member :=
    kept.planned event (List.mem_append_left _ member)
  atMostThree name := by
    have total := kept.atMostThree name
    rw [sends, List.countP_append] at total
    rw [sends]
    omega
  stopsAfterSuccess chain member before event after shape success listed
      later laterMember := by
    have whole : earlierEvents ++ laterEvents =
        before ++ event :: (after ++ laterEvents) := by
      rw [shape, List.append_assoc, List.cons_append]
    exact kept.stopsAfterSuccess chain member before event _ whole success
      listed later (List.mem_append_left _ laterMember)
  inOrder earlier later before event after member shape sent := by
    have whole : earlierEvents ++ laterEvents =
        before ++ event :: (after ++ laterEvents) := by
      rw [shape, List.append_assoc, List.cons_append]
    exact kept.inOrder earlier later before event _ member whole sent

/-- The events of one chain, read off a split of the whole log. -/
private theorem split_chainEvents
    (distinct : plan.providers.Nodup)
    {schedule : List Nat} {system : System ChainTask ChainEvent}
    (reached : Delivering plan providers priorRef answers schedule system)
    (finished : Delivered providers priorRef answers system)
    {chain : List String} (member : chain ∈ plan.targets)
    {before after : List ChainEvent} {event : ChainEvent}
    (shape : events system = before ++ event :: after)
    (listed : event.name ∈ chain) :
    chainEvents providers priorRef answers chain =
      before.filter (fun past => past.name ∈ chain) ++
        event :: after.filter (fun future => future.name ∈ chain) := by
  have own := filter_events distinct reached finished member
    (fun event chosen => of_decide_eq_true chosen)
  have all : (chainEvents providers priorRef answers chain).filter
      (fun event => event.name ∈ chain) =
        chainEvents providers priorRef answers chain := by
    rw [List.filter_eq_self]
    intro past pastMember
    simpa using name_mem_of_mem_chainEvents pastMember
  rw [← all, ← own, shape, List.filter_append,
    List.filter_cons_of_pos (by simpa using listed)]

private theorem sendDiscipline_of_delivered
    (distinct : plan.providers.Nodup)
    {schedule : List Nat} {system : System ChainTask ChainEvent}
    (reached : Delivering plan providers priorRef answers schedule system)
    (finished : Delivered providers priorRef answers system) :
    SendDiscipline plan providers (events system) where
  planned event member := by
    obtain ⟨chain, chainMember, inChain⟩ :=
      name_mem_of_mem_events reached finished member
    exact List.mem_flatten.mpr
      ⟨chain, chainMember, name_mem_of_mem_chainEvents inChain⟩
  atMostThree name := by
    by_cases planned : name ∈ plan.providers
    · obtain ⟨chain, member, listed⟩ := List.mem_flatten.mp planned
      have chainDistinct := (List.nodup_flatten.mp distinct).1 chain member
      have same := filter_events distinct reached finished member
        (within_of_listed listed ChainEvent.isSend)
      have counted : sends name (events system) =
          sends name (chainEvents providers priorRef answers chain) := by
        rw [sends, sends, List.countP_eq_length_filter, same,
          List.countP_eq_length_filter]
      rw [counted]
      exact sends_chainEvents_le chainDistinct
    · have none : sends name (events system) = 0 := by
        rw [sends, List.countP_eq_zero]
        intro event member chosen
        rw [Bool.and_eq_true, beq_iff_eq] at chosen
        obtain ⟨chain, chainMember, inChain⟩ :=
          name_mem_of_mem_events reached finished member
        apply planned
        rw [← chosen.2]
        exact List.mem_flatten.mpr
          ⟨chain, chainMember, name_mem_of_mem_chainEvents inChain⟩
      omega
  stopsAfterSuccess chain member before event after shape success listed
      later laterMember laterListed := by
    have split := split_chainEvents distinct reached finished member shape
      listed
    exact no_send_after_success split success later
      (List.mem_filter.mpr ⟨laterMember, by simpa using laterListed⟩)
  inOrder earlier later before event after member shape sent name
      earlierMember registered := by
    have chainDistinct := (List.nodup_flatten.mp distinct).1 _ member
    have split := split_chainEvents distinct reached finished member shape
      (by simp)
    have counted := failures_before_send chainDistinct split sent rfl name
      earlierMember registered
    rw [failures, List.countP_filter] at counted
    rw [failures, ← counted]
    apply List.countP_congr
    intro past _
    constructor
    · intro failed
      rw [Bool.and_eq_true, beq_iff_eq] at failed
      simp [failed.1, failed.2, earlierMember]
    · intro failed
      rw [Bool.and_eq_true] at failed
      exact failed.1

/-- At every moment of every delivery the sends keep the discipline. -/
theorem sendDiscipline
    (distinct : plan.providers.Nodup)
    {schedule : List Nat} {system : System ChainTask ChainEvent}
    (reached : Delivering plan providers priorRef answers schedule system) :
    SendDiscipline plan providers (events system) := by
  obtain ⟨rest, final, later, carried, finished, same⟩ :=
    exists_delivered reached
  have kept := sendDiscipline_of_delivered distinct carried finished
  rw [same] at kept
  exact kept.of_append

/-! ## Folding the outcomes -/

/-- The provider a chain delivered by, as the last outcome says. -/
def decidedBy
    (outcomes : List ProviderOutcome) (cutOff : Option String)
    (chain : List String) : Option String :=
  match (triedOutcomes outcomes cutOff chain).getLast? with
  | some outcome =>
      if outcome.status = .delivered then some outcome.provider else none
  | none => none

private theorem addChain_facts
    (single : Bool) (outcomes : List ProviderOutcome)
    (cutOff : Option String) (summary : Summary) (chain : List String) :
    (summary.addChain single outcomes cutOff chain).deliveries =
        summary.deliveries ++ triedOutcomes outcomes cutOff chain ∧
      (summary.addChain single outcomes cutOff chain).delivered =
        summary.delivered ++ (decidedBy outcomes cutOff chain).toList := by
  cases last : (triedOutcomes outcomes cutOff chain).getLast? with
  | none =>
      have empty := List.getLast?_eq_none_iff.mp last
      simp [Summary.addChain, decidedBy, empty]
  | some outcome =>
      by_cases success : outcome.status = .delivered
      · simp [Summary.addChain, decidedBy, last, success]
      · simp [Summary.addChain, decidedBy, last, success]

/-- What the loop over the chains collects. -/
theorem foldl_addChain
    (single : Bool) (outcomes : List ProviderOutcome)
    (cutOff : Option String) :
    ∀ (targets : List (List String)) (summary : Summary),
      (targets.foldl (Summary.addChain single outcomes cutOff)
            summary).deliveries =
          summary.deliveries ++
            targets.flatMap (triedOutcomes outcomes cutOff) ∧
        (targets.foldl (Summary.addChain single outcomes cutOff)
            summary).delivered =
          summary.delivered ++
            targets.filterMap (decidedBy outcomes cutOff)
  | [], summary => by simp
  | chain :: rest, summary => by
      obtain ⟨deliveries, delivered⟩ :=
        addChain_facts single outcomes cutOff summary chain
      obtain ⟨restDeliveries, restDelivered⟩ :=
        foldl_addChain single outcomes cutOff rest
          (summary.addChain single outcomes cutOff chain)
      constructor
      · rw [List.foldl_cons, restDeliveries, deliveries, List.flatMap_cons,
          List.append_assoc]
      · rw [List.foldl_cons, restDelivered, delivered]
        cases decided : decidedBy outcomes cutOff chain <;>
          simp [decided]

/-- The providers the targets were delivered by, in plan order. -/
def deliveredNames
    (plan : DeliveryPlan) (outcomes : List ProviderOutcome)
    (cutOff : Option String) : List String :=
  plan.targets.filterMap (decidedBy outcomes cutOff)

theorem deliveries_summarize
    (outcomes : List ProviderOutcome) (cutOff : Option String) :
    (summarize plan outcomes cutOff).deliveries =
      plan.targets.flatMap (triedOutcomes outcomes cutOff) := by
  have collected := (foldl_addChain (plan.targets.length == 1) outcomes
    cutOff plan.targets {}).1
  simpa [summarize] using collected

theorem provider_summarize
    (outcomes : List ProviderOutcome) (cutOff : Option String) :
    (summarize plan outcomes cutOff).provider =
      if (deliveredNames plan outcomes cutOff).isEmpty then none
      else some (String.intercalate ","
        (deliveredNames plan outcomes cutOff)) := by
  have collected := (foldl_addChain (plan.targets.length == 1) outcomes
    cutOff plan.targets {}).2
  rw [List.nil_append] at collected
  rw [deliveredNames, ← collected]
  rfl

theorem status_summarize
    (outcomes : List ProviderOutcome) (cutOff : Option String) :
    (summarize plan outcomes cutOff).status =
      if plan.targets.isEmpty && !plan.grouped.isEmpty then .grouped
      else if plan.targets.isEmpty then .skipped
      else if (deliveredNames plan outcomes cutOff).length =
          plan.targets.length then .delivered
      else if (deliveredNames plan outcomes cutOff).isEmpty then .failed
      else .partly := by
  have collected := (foldl_addChain (plan.targets.length == 1) outcomes
    cutOff plan.targets {}).2
  rw [List.nil_append] at collected
  rw [deliveredNames, ← collected]
  rfl

section Status

variable {outcomes : List ProviderOutcome} {cutOff : Option String}

private theorem status_of_targets (nonempty : plan.targets ≠ []) :
    (summarize plan outcomes cutOff).status =
      if (deliveredNames plan outcomes cutOff).length =
          plan.targets.length then .delivered
      else if (deliveredNames plan outcomes cutOff).isEmpty then .failed
      else .partly := by
  have notEmpty : plan.targets.isEmpty = false := by
    simpa using nonempty
  rw [status_summarize, notEmpty]
  simp

private theorem length_deliveredNames :
    (deliveredNames plan outcomes cutOff).length = plan.targets.length ↔
      ∀ chain ∈ plan.targets,
        (decidedBy outcomes cutOff chain).isSome = true := by
  rw [deliveredNames, List.filterMap_length_eq_length]

private theorem isEmpty_deliveredNames :
    (deliveredNames plan outcomes cutOff).isEmpty = true ↔
      ∀ chain ∈ plan.targets,
        ¬ (decidedBy outcomes cutOff chain).isSome = true := by
  rw [deliveredNames, List.isEmpty_iff, List.filterMap_eq_nil_iff]
  apply forall₂_congr
  intro chain _
  rw [Option.isSome_iff_ne_none, not_not]

private theorem not_both
    (nonempty : plan.targets ≠ [])
    (all : (deliveredNames plan outcomes cutOff).length =
      plan.targets.length) :
    ¬ (deliveredNames plan outcomes cutOff).isEmpty = true := by
  intro none
  obtain ⟨chain, member⟩ := List.exists_mem_of_ne_nil _ nonempty
  exact isEmpty_deliveredNames.mp none chain member
    (length_deliveredNames.mp all chain member)

/-- `Delivered`: every target was delivered. -/
theorem status_delivered_iff (nonempty : plan.targets ≠ []) :
    (summarize plan outcomes cutOff).status = .delivered ↔
      ∀ chain ∈ plan.targets,
        (decidedBy outcomes cutOff chain).isSome = true := by
  rw [status_of_targets nonempty, ← length_deliveredNames]
  split
  · rename_i all
    exact iff_of_true rfl all
  · rename_i notAll
    split
    · exact iff_of_false (by decide) notAll
    · exact iff_of_false (by decide) notAll

/-- `Failed`: no target was delivered. -/
theorem status_failed_iff (nonempty : plan.targets ≠ []) :
    (summarize plan outcomes cutOff).status = .failed ↔
      ∀ chain ∈ plan.targets,
        ¬ (decidedBy outcomes cutOff chain).isSome = true := by
  rw [status_of_targets nonempty, ← isEmpty_deliveredNames]
  split
  · rename_i all
    exact iff_of_false (by decide) (not_both nonempty all)
  · split
    · rename_i none
      exact iff_of_true rfl none
    · rename_i notNone
      exact iff_of_false (by decide) notNone

/-- `Partial`: some targets were delivered and some were not. -/
theorem status_partly_iff (nonempty : plan.targets ≠ []) :
    (summarize plan outcomes cutOff).status = .partly ↔
      (∃ chain ∈ plan.targets,
          (decidedBy outcomes cutOff chain).isSome = true) ∧
        ∃ chain ∈ plan.targets,
          ¬ (decidedBy outcomes cutOff chain).isSome = true := by
  have notNone : (∃ chain ∈ plan.targets,
      (decidedBy outcomes cutOff chain).isSome = true) ↔
        ¬ (deliveredNames plan outcomes cutOff).isEmpty = true := by
    rw [isEmpty_deliveredNames]
    push Not
    rfl
  have notAll : (∃ chain ∈ plan.targets,
      ¬ (decidedBy outcomes cutOff chain).isSome = true) ↔
        ¬ (deliveredNames plan outcomes cutOff).length =
          plan.targets.length := by
    rw [length_deliveredNames]
    push Not
    rfl
  rw [status_of_targets nonempty, notNone, notAll]
  split
  · rename_i all
    exact iff_of_false (by decide) fun both => both.2 all
  · rename_i some
    split
    · rename_i none
      exact iff_of_false (by decide) fun both => both.1 none
    · rename_i notNone
      exact iff_of_true rfl ⟨notNone, some⟩

end Status

/-- The result depends on the record only through what it says about each
provider of the plan. -/
theorem summarize_congr
    {first second : List ProviderOutcome} {cutOff : Option String}
    (same : ∀ name ∈ plan.providers,
      first.find? (fun outcome => outcome.provider == name) =
        second.find? fun outcome => outcome.provider == name) :
    summarize plan first cutOff = summarize plan second cutOff := by
  have sameTried : ∀ chain ∈ plan.targets,
      triedOutcomes first cutOff chain =
        triedOutcomes second cutOff chain := by
    intro chain member
    rw [triedOutcomes, triedOutcomes]
    congr 1
    apply List.filterMap_congr
    intro name listed
    exact same name (List.mem_flatten.mpr ⟨chain, member, listed⟩)
  have sameTurn : ∀ summary, ∀ chain ∈ plan.targets,
      Summary.addChain (plan.targets.length == 1) first cutOff summary
          chain =
        Summary.addChain (plan.targets.length == 1) second cutOff summary
          chain := by
    intro summary chain member
    rw [Summary.addChain, Summary.addChain, sameTried chain member]
  have sameFold := List.foldl_ext _ _ ({} : Summary) sameTurn
  rw [summarize, summarize, sameFold]

/-! ## The result of a completed delivery -/

private theorem filter_mem_of_sublist
    {Item : Type} [DecidableEq Item] {part whole : List Item}
    (sublist : part.Sublist whole) (distinct : whole.Nodup) :
    whole.filter (fun item => item ∈ part) = part := by
  induction sublist with
  | slnil => rfl
  | @cons part whole item sublist inductionHypothesis =>
      have fresh := (List.nodup_cons.mp distinct).1
      have absent : item ∉ part := fun member =>
        fresh (sublist.subset member)
      rw [List.filter_cons_of_neg (by simpa using absent)]
      exact inductionHypothesis (List.nodup_cons.mp distinct).2
  | @cons_cons part whole item sublist inductionHypothesis =>
      have fresh := (List.nodup_cons.mp distinct).1
      rw [List.filter_cons_of_pos (by simp)]
      congr 1
      rw [← inductionHypothesis (List.nodup_cons.mp distinct).2]
      apply List.filter_congr
      intro other member
      have different : other ≠ item := fun equal => fresh (equal ▸ member)
      have kept := inductionHypothesis (List.nodup_cons.mp distinct).2
      rw [kept]
      simp [different]

theorem triedOutcomes_record
    (distinct : plan.providers.Nodup)
    {schedule : List Nat} {system : System ChainTask ChainEvent}
    (reached : Delivering plan providers priorRef answers schedule system)
    (finished : Delivered providers priorRef answers system)
    {chain : List String} (member : chain ∈ plan.targets) :
    triedOutcomes (Tracker.after (events system)).outcomes none chain =
      (triedNames providers answers chain).map (outcomeOf answers) := by
  have chainDistinct := (List.nodup_flatten.mp distinct).1 chain member
  have found : ∀ name ∈ chain,
      (Tracker.after (events system)).outcomes.find?
          (fun outcome => outcome.provider == name) =
        if name ∈ triedNames providers answers chain then
          some (outcomeOf answers name)
        else none := by
    intro name listed
    rw [find?_outcomes_after]
    exact lastReport_events distinct reached finished member listed
  have selected : ∀ names : List String,
      names.filterMap (fun name =>
          if name ∈ triedNames providers answers chain then
            some (outcomeOf answers name)
          else none) =
        (names.filter fun name =>
          name ∈ triedNames providers answers chain).map
            (outcomeOf answers) := by
    intro names
    induction names with
    | nil => rfl
    | cons name rest inductionHypothesis =>
        by_cases tried : name ∈ triedNames providers answers chain
        · simp [tried, inductionHypothesis]
        · simp [tried, inductionHypothesis]
  have untouched : cutShort none = id := by
    funext outcome
    rfl
  rw [triedOutcomes, List.filterMap_congr found, selected, untouched,
    List.map_id,
    filter_mem_of_sublist (triedNames_sublist chain) chainDistinct]

private theorem filter_wasTried
    (distinct : plan.providers.Nodup)
    {schedule : List Nat} {system : System ChainTask ChainEvent}
    (reached : Delivering plan providers priorRef answers schedule system)
    (finished : Delivered providers priorRef answers system)
    {chain : List String} (member : chain ∈ plan.targets) :
    chain.filter (fun name => wasTried name (events system)) =
      triedNames providers answers chain := by
  have chainDistinct := (List.nodup_flatten.mp distinct).1 chain member
  rw [← filter_mem_of_sublist (triedNames_sublist chain) chainDistinct]
  apply List.filter_congr
  intro name listed
  exact wasTried_events distinct reached finished member listed

private theorem filter_hasDelivered
    (distinct : plan.providers.Nodup)
    {schedule : List Nat} {system : System ChainTask ChainEvent}
    (reached : Delivering plan providers priorRef answers schedule system)
    (finished : Delivered providers priorRef answers system)
    {chain : List String} (member : chain ∈ plan.targets) :
    chain.filter (fun name => hasDelivered name (events system)) =
      (decidedBy (Tracker.after (events system)).outcomes none
        chain).toList := by
  have tried := filter_wasTried distinct reached finished member
  have both : ∀ name ∈ chain,
      hasDelivered name (events system) =
        (delivers answers name && wasTried name (events system)) := by
    intro name listed
    rw [hasDelivered_events distinct reached finished member listed,
      wasTried_events distinct reached finished member listed, Bool.and_comm]
  rw [List.filter_congr both, ← List.filter_filter, tried, decidedBy,
    triedOutcomes_record distinct reached finished member,
    List.getLast?_map]
  obtain ⟨failing, won, shape, fails, wins⟩ :=
    @triedNames_split providers answers chain
  have noneOfFailing : failing.filter (delivers answers) = [] := by
    rw [List.filter_eq_nil_iff]
    intro name failed
    simp [fails name failed]
  rw [shape, List.filter_append, noneOfFailing, List.nil_append]
  cases won with
  | some winner =>
      have delivered := wins winner rfl
      have status := (@delivered_outcomeOf answers winner).mpr delivered
      simp [delivered, status, provider_outcomeOf]
  | none =>
      cases last : failing.getLast? with
      | none => simp [last]
      | some name =>
          have failed := fails name (List.mem_of_getLast? last)
          have status : (outcomeOf answers name).status ≠ .delivered := by
            rw [Ne, delivered_outcomeOf, failed]
            exact Bool.false_ne_true
          simp [last, status]

/-- What the result of a completed delivery says. -/
structure ResultAsPlanned
    (plan : DeliveryPlan) (events : List ChainEvent)
    (result : DeliveryResult) : Prop where
  tried : result.deliveries.map (·.provider) =
    plan.providers.filter fun name => wasTried name events
  once : (result.deliveries.map (·.provider)).Nodup
  lastOutcome : ∀ outcome ∈ result.deliveries,
    lastReport outcome.provider events = some outcome
  outcomeStatus : ∀ outcome ∈ result.deliveries,
    outcome.status = .delivered ↔
      hasDelivered outcome.provider events = true
  provider : result.provider =
    if (plan.providers.filter fun name => hasDelivered name events).isEmpty
    then none
    else some (String.intercalate ","
      (plan.providers.filter fun name => hasDelivered name events))
  noTargets : plan.targets = [] →
    result.status =
      if plan.grouped.isEmpty then .skipped else .grouped
  delivered : plan.targets ≠ [] →
    (result.status = .delivered ↔
      ∀ chain ∈ plan.targets, ∃ name ∈ chain,
        hasDelivered name events = true)
  failed : plan.targets ≠ [] →
    (result.status = .failed ↔
      ∀ chain ∈ plan.targets, ¬ ∃ name ∈ chain,
        hasDelivered name events = true)
  partly : plan.targets ≠ [] →
    (result.status = .partly ↔
      (∃ chain ∈ plan.targets, ∃ name ∈ chain,
        hasDelivered name events = true) ∧
      ∃ chain ∈ plan.targets, ¬ ∃ name ∈ chain,
        hasDelivered name events = true)

private theorem deliveredNames_record
    (distinct : plan.providers.Nodup)
    {schedule : List Nat} {system : System ChainTask ChainEvent}
    (reached : Delivering plan providers priorRef answers schedule system)
    (finished : Delivered providers priorRef answers system) :
    deliveredNames plan (Tracker.after (events system)).outcomes none =
      plan.providers.filter
        fun name => hasDelivered name (events system) := by
  rw [DeliveryPlan.providers, List.filter_flatten, deliveredNames,
    List.filterMap_eq_flatMap_toList, List.flatMap_def]
  congr 1
  apply List.map_congr_left
  intro chain member
  exact (filter_hasDelivered distinct reached finished member).symm

private theorem isSome_decidedBy_iff
    (distinct : plan.providers.Nodup)
    {schedule : List Nat} {system : System ChainTask ChainEvent}
    (reached : Delivering plan providers priorRef answers schedule system)
    (finished : Delivered providers priorRef answers system)
    {chain : List String} (member : chain ∈ plan.targets) :
    (decidedBy (Tracker.after (events system)).outcomes none
        chain).isSome = true ↔
      ∃ name ∈ chain, hasDelivered name (events system) = true := by
  have same := filter_hasDelivered distinct reached finished member
  constructor
  · intro decided
    obtain ⟨name, isName⟩ := Option.isSome_iff_exists.mp decided
    rw [isName] at same
    have kept : name ∈ chain.filter
        (fun name => hasDelivered name (events system)) := by
      rw [same]
      simp
    exact ⟨name, (List.mem_filter.mp kept).1, (List.mem_filter.mp kept).2⟩
  · rintro ⟨name, listed, delivered⟩
    have kept : name ∈ chain.filter
        (fun name => hasDelivered name (events system)) :=
      List.mem_filter.mpr ⟨listed, delivered⟩
    rw [same, Option.mem_toList] at kept
    rw [kept]
    rfl

theorem resultAsPlanned
    (distinct : plan.providers.Nodup)
    {schedule : List Nat} {system : System ChainTask ChainEvent}
    (reached : Delivering plan providers priorRef answers schedule system)
    (finished : Delivered providers priorRef answers system) :
    ResultAsPlanned plan (events system)
      (deliveryResult plan system none) := by
  have names := deliveredNames_record distinct reached finished
  have status := @status_summarize plan
    (Tracker.after (events system)).outcomes none
  have deliveries : (deliveryResult plan system none).deliveries =
      plan.targets.flatMap fun chain =>
        (triedNames providers answers chain).map (outcomeOf answers) := by
    rw [deliveryResult, deliveries_summarize, List.flatMap_def,
      List.flatMap_def]
    congr 1
    apply List.map_congr_left
    intro chain member
    exact triedOutcomes_record distinct reached finished member
  have tried : (deliveryResult plan system none).deliveries.map
      (·.provider) =
        plan.providers.filter fun name => wasTried name (events system) := by
    rw [deliveries, List.map_flatMap, DeliveryPlan.providers,
      List.filter_flatten, List.flatMap_def]
    congr 1
    apply List.map_congr_left
    intro chain member
    rw [filter_wasTried distinct reached finished member, List.map_map]
    conv_rhs => rw [← List.map_id (triedNames providers answers chain)]
    apply List.map_congr_left
    intro name _
    exact provider_outcomeOf name
  have entries : ∀ outcome ∈ (deliveryResult plan system none).deliveries,
      ∃ chain ∈ plan.targets,
        ∃ name ∈ triedNames providers answers chain,
          outcomeOf answers name = outcome := by
    intro outcome member
    rw [deliveries, List.mem_flatMap] at member
    obtain ⟨chain, chainMember, inChain⟩ := member
    obtain ⟨name, nameTried, same⟩ := List.mem_map.mp inChain
    exact ⟨chain, chainMember, name, nameTried, same⟩
  have decided : ∀ chain ∈ plan.targets,
      ((decidedBy (Tracker.after (events system)).outcomes none
          chain).isSome = true ↔
        ∃ name ∈ chain, hasDelivered name (events system) = true) :=
    fun chain member => isSome_decidedBy_iff distinct reached finished member
  refine
    { tried := tried
      once := ?_
      lastOutcome := ?_
      outcomeStatus := ?_
      provider := ?_
      noTargets := ?_
      delivered := ?_
      failed := ?_
      partly := ?_ }
  · rw [tried]
    exact distinct.filter _
  · intro outcome member
    obtain ⟨chain, chainMember, name, nameTried, rfl⟩ :=
      entries outcome member
    have listed := (triedNames_sublist chain).subset nameTried
    rw [provider_outcomeOf,
      lastReport_events distinct reached finished chainMember listed,
      if_pos nameTried]
  · intro outcome member
    obtain ⟨chain, chainMember, name, nameTried, rfl⟩ :=
      entries outcome member
    have listed := (triedNames_sublist chain).subset nameTried
    rw [provider_outcomeOf, delivered_outcomeOf,
      hasDelivered_events distinct reached finished chainMember listed]
    simp [nameTried]
  · rw [deliveryResult, provider_summarize, names]
  · intro empty
    rw [deliveryResult, status, empty]
    cases plan.grouped.isEmpty <;> rfl
  · intro nonempty
    rw [deliveryResult, status_delivered_iff nonempty]
    exact forall₂_congr decided
  · intro nonempty
    rw [deliveryResult, status_failed_iff nonempty]
    exact forall₂_congr fun chain member => not_congr (decided chain member)
  · intro nonempty
    rw [deliveryResult, status_partly_iff nonempty]
    have someDelivered := exists_congr fun chain =>
      and_congr_right (decided chain)
    have someFailed := exists_congr fun chain =>
      and_congr_right fun member => not_congr (decided chain member)
    exact and_congr someDelivered someFailed

/-- Two completed deliveries with the same answers have one result. -/
theorem deliveryResult_unique
    (distinct : plan.providers.Nodup)
    {firstSchedule secondSchedule : List Nat}
    {first second : System ChainTask ChainEvent}
    (reachedFirst :
      Delivering plan providers priorRef answers firstSchedule first)
    (finishedFirst : Delivered providers priorRef answers first)
    (reachedSecond :
      Delivering plan providers priorRef answers secondSchedule second)
    (finishedSecond : Delivered providers priorRef answers second) :
    deliveryResult plan first none = deliveryResult plan second none := by
  apply summarize_congr
  intro name planned
  obtain ⟨chain, member, listed⟩ := List.mem_flatten.mp planned
  rw [find?_outcomes_after, find?_outcomes_after,
    lastReport_events distinct reachedFirst finishedFirst member listed,
    lastReport_events distinct reachedSecond finishedSecond member listed]

/-- The chains can be run one after another. -/
theorem exists_sequential_delivery :
    ∃ schedule system, schedule.Pairwise (· ≤ ·) ∧
      Delivering plan providers priorRef answers schedule system ∧
        Delivered providers priorRef answers system := by
  apply exists_sequential
  intro start member
  obtain ⟨chain, _, rfl⟩ := List.mem_map.mp member
  exact ⟨_, emits_chainEvents providers priorRef answers chain⟩

/-! ## Main result -/

/-- The sends of a delivery keep the discipline at every moment.  Every
schedule comes to an end, and the result it ends with is as planned and
the same as when the chains run one after another. -/
theorem deliver_as_planned
    (distinct : plan.providers.Nodup)
    {schedule : List Nat} {system : System ChainTask ChainEvent}
    (reached : Delivering plan providers priorRef answers schedule system) :
    SendDiscipline plan providers (events system) ∧
      schedule.length ≤ totalRank ChainTask.rank (deliverStart plan) ∧
      (∃ rest final,
        Delivering plan providers priorRef answers (schedule ++ rest)
            final ∧
          Delivered providers priorRef answers final) ∧
      (Delivered providers priorRef answers system →
        ResultAsPlanned plan (events system)
            (deliveryResult plan system none) ∧
          ∃ sequential final,
            sequential.Pairwise (· ≤ ·) ∧
              Delivering plan providers priorRef answers sequential final ∧
              Delivered providers priorRef answers final ∧
              deliveryResult plan system none =
                deliveryResult plan final none) := by
  have bounded := length_add_totalRank_le
    (rank_deliverChain providers priorRef answers) reached
  obtain ⟨rest, final, _, carried, ended, _⟩ := exists_delivered reached
  refine ⟨sendDiscipline distinct reached, by omega,
    ⟨rest, final, carried, ended⟩, ?_⟩
  intro finished
  obtain ⟨sequential, last, sorted, reachedLast, finishedLast⟩ :=
    @exists_sequential_delivery providers priorRef answers plan
  exact ⟨resultAsPlanned distinct reached finished, sequential, last, sorted,
    reachedLast, finishedLast,
    deliveryResult_unique distinct reached finished reachedLast
      finishedLast⟩

end Delivery

/-! ## Two chains interleaved -/

def sampleRegistry : Registry :=
  [("slack", ⟨"slack", false⟩), ("pagerduty", ⟨"pagerduty", true⟩),
    ("teams", ⟨"teams", false⟩)]

def samplePlan : DeliveryPlan :=
  ⟨[["slack", "pagerduty"], ["teams"]], [], []⟩

/-- Slack fails, PagerDuty delivers at once, Teams the second time. -/
def sampleAnswers : Answers
  | "pagerduty", _ => .ok (some "incident-1")
  | "teams", 2 => .ok none
  | _, _ => .error "HTTP 503"

def sampleSystem : System ChainTask ChainEvent :=
  (run (advance (deliverChain sampleRegistry (fun _ => none) sampleAnswers))
    anyStep (deliverStart samplePlan)
    [0, 1, 0, 0, 1, 0, 1, 1, 0, 0, 1, 1, 0, 0, 0, 0, 0, 0]).getD
      (deliverStart samplePlan)

/-- The general theorem at an interleaving of both chains. -/
theorem deliver_as_planned_interleaved :
    SendDiscipline samplePlan sampleRegistry (events sampleSystem) ∧
      ResultAsPlanned samplePlan (events sampleSystem)
        (deliveryResult samplePlan sampleSystem none) := by
  have reached : Delivering samplePlan sampleRegistry (fun _ => none)
      sampleAnswers [0, 1, 0, 0, 1, 0, 1, 1, 0, 0, 1, 1, 0, 0, 0, 0, 0, 0]
        sampleSystem :=
    reaches_of_run rfl
  have ended : sampleSystem.tasks = [.idle [], .idle []] := rfl
  have finished : Delivered sampleRegistry (fun _ => none) sampleAnswers
      sampleSystem := by
    rw [Delivered, Finished, ended]
    simp [deliverChain]
  have planned := deliver_as_planned (by decide) reached
  exact ⟨planned.1, (planned.2.2.2 finished).1⟩

/-- A plan without targets is skipped, although every one of its targets
was delivered: the three statuses cover plans with a target only. -/
theorem skipped_without_targets :
    ∃ (plan : DeliveryPlan) (system : System ChainTask ChainEvent),
      plan.providers.Nodup ∧
        Delivering plan sampleRegistry (fun _ => none) sampleAnswers []
          system ∧
        Delivered sampleRegistry (fun _ => none) sampleAnswers system ∧
        (∀ chain ∈ plan.targets, ∃ name ∈ chain,
          hasDelivered name (events system) = true) ∧
        (deliveryResult plan system none).status = .skipped := by
  refine ⟨⟨[], ["route [slack]: duplicate"], []⟩, ⟨[], []⟩, by decide,
    Reaches.nil, ?_, by simp, rfl⟩
  intro task member
  cases member

end OpsSignal
