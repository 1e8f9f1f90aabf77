import OpsSignal.CutDelivery

/-!
# Attempts

A provider's outcome is reported when its turn begins, with no attempts,
and when it ends, with all of them.  Between two retries the record does
not know of the attempts that were answered already.
-/

namespace OpsSignal

open Interleaving LabelledRuns

/-! ## Counting -/

namespace ChainEvent

/-- Whether an event completes a call of this provider. -/
def answers (name : String) : ChainEvent → Bool
  | .answered other _ => other == name
  | _ => false

end ChainEvent

/-- The completed calls of a provider. -/
def completed (name : String) (events : List ChainEvent) : Nat :=
  events.countP (ChainEvent.answers name)

theorem completed_append (name : String) (first second : List ChainEvent) :
    completed name (first ++ second) =
      completed name first + completed name second :=
  List.countP_append

theorem name_of_answers {name : String} {event : ChainEvent}
    (isAnswer : event.answers name = true) : event.name = name := by
  cases event with
  | answered other answer => exact beq_iff_eq.mp isAnswer
  | _ => cases isAnswer

/-- Events about other providers complete no call of this one. -/
theorem completed_elsewhere {name other : String}
    {now : List ChainEvent} (about : ∀ event ∈ now, event.name = name)
    (different : other ≠ name) : completed other now = 0 := by
  rw [completed, List.countP_eq_zero]
  intro event member isAnswer
  exact different ((name_of_answers isAnswer).symm.trans
    (about event member))

theorem completed_of_within {before : List String} {name : String}
    {events : List ChainEvent} (within : Within before events)
    (fresh : name ∉ before) : completed name events = 0 := by
  rw [completed, List.countP_eq_zero]
  intro event member isAnswer
  exact fresh (name_of_answers isAnswer ▸ within event member)

/-- What was reported last of a provider has its completed calls. -/
def AttemptsKnown (events : List ChainEvent) (name : String) : Prop :=
  ((lastReport name events).map ProviderOutcome.attempts).getD 0 =
    completed name events

theorem AttemptsKnown.append {events now : List ChainEvent}
    {name other : String} (counted : AttemptsKnown events other)
    (about : ∀ event ∈ now, event.name = name) (different : other ≠ name) :
    AttemptsKnown (events ++ now) other := by
  rw [AttemptsKnown, lastReport_append, lastReport_elsewhere about different,
    Option.none_or, completed_append, completed_elsewhere about different]
  exact counted

/-! ## One chain -/

/-- A turn that has not ended: the record knows of no attempt. -/
structure Underway (events : List ChainEvent) (name : String)
    (attempt : Nat) : Prop where
  others : ∀ other, other ≠ name → AttemptsKnown events other
  reported : ∃ outcome, lastReport name events = some outcome ∧
    outcome.attempts = 0
  count : completed name events + 1 = attempt
  bounded : attempt ≤ maxRetryAttempts

/-- What a task's record knows of its calls. -/
def Counts (events : List ChainEvent) : ChainTask → Prop
  | .idle _ => ∀ name, AttemptsKnown events name
  | .calling name attempt _ => Underway events name attempt
  | .awaiting name attempt _ => Underway events name attempt
  | .sleeping name attempt _ => Underway events name attempt

/-- The turn goes on, with or without another completed call. -/
theorem Underway.append {events now : List ChainEvent} {name : String}
    {attempt next : Nat} (underway : Underway events name attempt)
    (about : ∀ event ∈ now, event.name = name)
    (silent : lastReport name now = none)
    (more : attempt + completed name now = next)
    (bounded : next ≤ maxRetryAttempts) :
    Underway (events ++ now) name next where
  others other different := (underway.others other different).append about
    different
  reported := by
    rw [lastReport_append, silent, Option.none_or]
    exact underway.reported
  count := by
    have counted := underway.count
    rw [completed_append]
    omega
  bounded := bounded

/-- The turn ends, and all of its attempts are reported. -/
theorem Underway.finish {events now : List ChainEvent} {name : String}
    {attempt : Nat} {outcome : ProviderOutcome}
    (underway : Underway events name attempt)
    (about : ∀ event ∈ now, event.name = name)
    (reported : lastReport name now = some outcome)
    (once : completed name now = 1) (all : outcome.attempts = attempt) :
    ∀ other, AttemptsKnown (events ++ now) other := by
  intro other
  by_cases here : other = name
  · subst here
    have counted := underway.count
    rw [AttemptsKnown, lastReport_append, reported, Option.some_or,
      Option.map_some, Option.getD_some, completed_append, once, all]
    exact counted.symm
  · exact (underway.others other here).append about here

/-- Every step of a chain's task keeps its record's count. -/
theorem counts_step {providers : Registry}
    {priorRef : String → Option String} {answers : Answers}
    {chain : List String} (distinct : chain.Nodup)
    {events now : List ChainEvent} {task next : ChainTask}
    (stands : Stands chain events task) (counts : Counts events task)
    (stepped :
      deliverChain providers priorRef answers task = some (next, now)) :
    Counts (events ++ now) next := by
  cases task with
  | idle rest =>
      cases rest with
      | nil => cases stepped
      | cons name rest =>
          rcases stands with ⟨before, split, passed, within⟩ | ⟨empty, _⟩
          · have fresh : name ∉ before := fun member =>
              not_mem_before distinct split name member rfl
            have unanswered := completed_of_within within fresh
            simp only [deliverChain] at stepped
            split at stepped
            · cases stepped
              refine ⟨?_, ?_, ?_, by decide⟩
              · intro other different
                exact (counts other).append (by simp [ChainEvent.name])
                  different
              · refine ⟨⟨name, .pending, none, 0⟩, ?_, rfl⟩
                simp [lastReport, reportOf]
              · rw [completed_append, unanswered]
                rfl
            · cases stepped
              intro other
              by_cases here : other = name
              · subst here
                rw [AttemptsKnown, lastReport_append, completed_append]
                exact counts other
              · exact (counts other).append (by simp [ChainEvent.name]) here
          · cases empty
  | calling name attempt rest =>
      cases stepped
      exact counts.append (by simp [ChainEvent.name]) rfl rfl counts.bounded
  | awaiting name attempt rest =>
      simp only [deliverChain] at stepped
      split at stepped
      · rename_i alertRef answer
        cases stepped
        cases alertRef with
        | none =>
            exact counts.finish (by simp [keepRef, ChainEvent.name])
              (by simp [keepRef, lastReport, reportOf]; rfl)
              (by simp [keepRef, completed, ChainEvent.answers]) rfl
        | some ref =>
            exact counts.finish (by simp [keepRef, ChainEvent.name])
              (by simp [keepRef, lastReport, reportOf]; rfl)
              (by simp [keepRef, completed, ChainEvent.answers]) rfl
      · rename_i e answer
        split at stepped
        · rename_i more
          cases stepped
          exact counts.append (by simp [ChainEvent.name]) rfl
            (by simp [completed, ChainEvent.answers]) more
        · rename_i last
          cases stepped
          have third : attempt = maxRetryAttempts := by
            have bounded := counts.bounded
            omega
          exact counts.finish (by simp [ChainEvent.name])
            (by simp [lastReport, reportOf]; rfl)
            (by simp [completed, ChainEvent.answers]) third.symm
  | sleeping name attempt rest =>
      cases stepped
      rw [List.append_nil]
      exact counts

/-- Whether a task is past the first attempt of a turn that goes on. -/
def ChainTask.retrying : ChainTask → Bool
  | .idle _ => false
  | .calling _ attempt _ => decide (1 < attempt)
  | .awaiting _ attempt _ => decide (1 < attempt)
  | .sleeping _ attempt _ => decide (1 < attempt)

/-- Between retries, and only then, a provider has calls that the record
does not know of. -/
theorem counted_iff_of_counts {chain : List String}
    {events : List ChainEvent} {task : ChainTask}
    (stands : Stands chain events task) (counts : Counts events task) :
    (∀ name ∈ chain, AttemptsKnown events name) ↔ task.retrying = false := by
  have tried : ∀ {name : String} {attempt : Nat} {rest : List String},
      Underway events name attempt →
        (∃ before, Trying chain events before name rest) →
          ((∀ other ∈ chain, AttemptsKnown events other) ↔ attempt ≤ 1) := by
    rintro name attempt rest underway ⟨before, trying⟩
    obtain ⟨outcome, reported, unattempted⟩ := underway.reported
    have count := underway.count
    have here : AttemptsKnown events name ↔ attempt ≤ 1 := by
      rw [AttemptsKnown, reported, Option.map_some, Option.getD_some,
        unattempted]
      omega
    rw [← here]
    constructor
    · intro all
      apply all
      rw [trying.split]
      simp
    · intro counted other _
      by_cases same : other = name
      · exact same ▸ counted
      · exact underway.others other same
  cases task with
  | idle rest => exact iff_of_true (fun name _ => counts name) rfl
  | calling name attempt rest =>
      rw [tried counts stands, ChainTask.retrying, decide_eq_false_iff_not,
        Nat.not_lt]
  | awaiting name attempt rest =>
      rw [tried counts stands, ChainTask.retrying, decide_eq_false_iff_not,
        Nat.not_lt]
  | sleeping name attempt rest =>
      rw [tried counts stands, ChainTask.retrying, decide_eq_false_iff_not,
        Nat.not_lt]

/-! ## The whole delivery -/

section Delivery

variable {plan : DeliveryPlan} {providers : Registry}
  {priorRef : String → Option String} {answers : Answers}
  {schedule : List Nat} {system : System ChainTask ChainEvent}

/-- At every moment of a delivery each chain's task stands somewhere and
its record counts. -/
theorem counts_of_delivering
    (distinct : plan.providers.Nodup)
    (reached : Delivering plan providers priorRef answers schedule system)
    {index : Nat} {chain : List String}
    (chainAt : plan.targets[index]? = some chain) :
    ∃ task, system.tasks[index]? = some task ∧
      Stands chain (own index system.log) task ∧
        Counts (own index system.log) task := by
  have chainDistinct := (List.nodup_flatten.mp distinct).1 chain
    (List.mem_of_getElem? chainAt)
  obtain ⟨sameLength, ran, _⟩ := projects_of_reaches reached
  have startAt : (plan.targets.map ChainTask.idle)[index]? =
      some (.idle chain) := by
    rw [List.getElem?_map, chainAt]
    rfl
  have inside : index < system.tasks.length := by
    rw [sameLength]
    exact (List.getElem?_eq_some_iff.mp startAt).1
  have taskAt : system.tasks[index]? = some system.tasks[index] :=
    List.getElem?_eq_getElem inside
  have started : Stands chain [] (.idle chain) ∧ Counts [] (.idle chain) :=
    ⟨Or.inl ⟨[], rfl, by simp, by simp [Within]⟩, fun _ => rfl⟩
  have kept : ∀ before task next now,
      Stands chain before task ∧ Counts before task →
        deliverChain providers priorRef answers task = some (next, now) →
          Stands chain (before ++ now) next ∧ Counts (before ++ now) next := by
    rintro before task next now ⟨stands, counts⟩ stepped
    exact ⟨stands_step chainDistinct stands stepped,
      counts_step chainDistinct stands counts stepped⟩
  have course := ran index _ _ startAt taskAt
  exact ⟨_, taskAt, course.invariant kept started⟩

theorem completed_of_delivering
    (distinct : plan.providers.Nodup)
    (reached : Delivering plan providers priorRef answers schedule system)
    {index : Nat} {chain : List String}
    (chainAt : plan.targets[index]? = some chain) {name : String}
    (listed : name ∈ chain) :
    completed name (events system) =
      completed name (own index system.log) := by
  have within : ∀ event : ChainEvent, event.answers name = true →
      event.name ∈ chain := fun event chosen =>
    (name_of_answers chosen).symm ▸ listed
  have same := filter_events_of_delivering distinct reached chainAt within
  rw [completed, completed, List.countP_eq_length_filter,
    List.countP_eq_length_filter, same]

/-- The record of a delivery counts just when no task is between two
attempts. -/
theorem counted_iff
    (distinct : plan.providers.Nodup)
    (reached : Delivering plan providers priorRef answers schedule system) :
    (∀ chain ∈ plan.targets, ∀ name ∈ chain,
        AttemptsKnown (events system) name) ↔
      ∀ task ∈ system.tasks, task.retrying = false := by
  have ofChain : ∀ {index : Nat} {chain : List String} {task : ChainTask},
      plan.targets[index]? = some chain →
        system.tasks[index]? = some task →
          ((∀ name ∈ chain, AttemptsKnown (events system) name) ↔
            task.retrying = false) := by
    intro index chain task chainAt taskAt
    obtain ⟨current, currentAt, stands, counts⟩ :=
      counts_of_delivering distinct reached chainAt
    rw [taskAt, Option.some.injEq] at currentAt
    subst currentAt
    rw [← counted_iff_of_counts stands counts]
    apply forall₂_congr
    intro name listed
    rw [AttemptsKnown, AttemptsKnown,
      lastReport_of_delivering distinct reached chainAt listed,
      completed_of_delivering distinct reached chainAt listed]
  have sameLength := (projects_of_reaches reached).1
  rw [List.length_map] at sameLength
  constructor
  · intro counted task member
    obtain ⟨index, taskAt⟩ := List.mem_iff_getElem?.mp member
    have inside := (List.getElem?_eq_some_iff.mp taskAt).1
    rw [sameLength] at inside
    have chainAt := List.getElem?_eq_getElem inside
    exact (ofChain chainAt taskAt).mp
      (counted _ (List.getElem_mem inside))
  · intro settled chain member
    obtain ⟨index, chainAt⟩ := List.mem_iff_getElem?.mp member
    have inside := (List.getElem?_eq_some_iff.mp chainAt).1
    rw [← sameLength] at inside
    have taskAt := List.getElem?_eq_getElem inside
    exact (ofChain chainAt taskAt).mpr
      (settled _ (List.getElem_mem inside))

end Delivery

/-! ## The result -/

/-- The provider that decides a target: the last of its chain that was
tried. -/
def decider (events : List ChainEvent) (chain : List String) :
    Option String :=
  (chain.filter fun name => (lastReport name events).isSome).getLast?

/-- The attempts of a result are the calls that were completed. -/
structure AttemptsReported (plan : DeliveryPlan)
    (events : List ChainEvent) (result : DeliveryResult) : Prop where
  each : ∀ outcome ∈ result.deliveries,
    outcome.attempts = completed outcome.provider events
  most : result.attempts =
    ((plan.targets.filterMap (decider events)).map fun name =>
      completed name events).foldl Nat.max 0

theorem attempts_cutShort (cutOff : Option String)
    (outcome : ProviderOutcome) :
    (cutShort cutOff outcome).attempts = outcome.attempts := by
  cases cutOff with
  | none => rfl
  | some message =>
      rw [cutShort]
      split <;> rfl

/-- The outcome tried last is what was reported of the deciding
provider. -/
theorem getLast_triedOutcomes {recorded : List ProviderOutcome}
    {events : List ChainEvent}
    (record : ∀ name, recorded.find? (fun outcome =>
      outcome.provider == name) = lastReport name events)
    (cutOff : Option String) (chain : List String) :
    (triedOutcomes recorded cutOff chain).getLast? =
      (decider events chain).bind fun name =>
        (lastReport name events).map (cutShort cutOff) := by
  induction chain using List.reverseRecOn with
  | nil => rfl
  | append_singleton chain name inductionHypothesis =>
      simp only [triedOutcomes, decider, record] at inductionHypothesis ⊢
      cases reported : lastReport name events with
      | none => simpa [reported] using inductionHypothesis
      | some outcome => simp [reported]

theorem attempts_addChain (single : Bool)
    (recorded : List ProviderOutcome) (cutOff : Option String)
    (summary : Summary) (chain : List String) :
    (summary.addChain single recorded cutOff chain).attempts =
      Nat.max summary.attempts
        (((triedOutcomes recorded cutOff chain).getLast?.map
          ProviderOutcome.attempts).getD 0) := by
  cases last : (triedOutcomes recorded cutOff chain).getLast? with
  | none =>
      have empty := List.getLast?_eq_none_iff.mp last
      simp [Summary.addChain, empty]
  | some outcome =>
      by_cases success : outcome.status = .delivered
      · simp [Summary.addChain, last, success]
      · simp [Summary.addChain, last, success]

theorem attempts_foldl {recorded : List ProviderOutcome}
    {events : List ChainEvent}
    (record : ∀ name, recorded.find? (fun outcome =>
      outcome.provider == name) = lastReport name events)
    (single : Bool) (cutOff : Option String) :
    ∀ {targets : List (List String)} (summary : Summary),
      (∀ chain ∈ targets, ∀ name ∈ chain, AttemptsKnown events name) →
        (targets.foldl (Summary.addChain single recorded cutOff)
            summary).attempts =
          ((targets.filterMap (decider events)).map fun name =>
            completed name events).foldl Nat.max summary.attempts := by
  intro targets
  induction targets with
  | nil => exact fun _ _ => rfl
  | cons chain targets inductionHypothesis =>
      intro summary counted
      rw [List.forall_mem_cons] at counted
      rw [List.foldl_cons, inductionHypothesis _ counted.2,
        attempts_addChain, getLast_triedOutcomes record]
      cases deciding : decider events chain with
      | none => simp [deciding]
      | some name =>
          have tried := List.mem_of_getLast? deciding
          rw [List.mem_filter, Option.isSome_iff_exists] at tried
          obtain ⟨listed, outcome, reported⟩ := tried
          have count := counted.1 name listed
          rw [AttemptsKnown, reported, Option.map_some,
            Option.getD_some] at count
          simp [deciding, reported, attempts_cutShort, count]

/-- A provider that nothing was reported of has completed no call. -/
theorem counted_of_unreported {events : List ChainEvent}
    {task : ChainTask} (counts : Counts events task) {name : String}
    (unreported : lastReport name events = none) :
    AttemptsKnown events name := by
  have elsewhere : ∀ {current : String} {attempt : Nat},
      Underway events current attempt → AttemptsKnown events name := by
    intro current attempt underway
    apply underway.others
    rintro rfl
    obtain ⟨outcome, reported, _⟩ := underway.reported
    rw [unreported] at reported
    cases reported
  cases task with
  | idle rest => exact counts name
  | calling current attempt rest => exact elsewhere counts
  | awaiting current attempt rest => exact elsewhere counts
  | sleeping current attempt rest => exact elsewhere counts

/-- Wherever a delivery ends, its result has the attempts that were made
just when no provider is between two of its attempts. -/
theorem attempts_reported_iff {plan : DeliveryPlan} {providers : Registry}
    {priorRef : String → Option String} {answers : Answers}
    {schedule : List Nat} {system : System ChainTask ChainEvent}
    (distinct : plan.providers.Nodup)
    (reached : Delivering plan providers priorRef answers schedule system)
    (cutOff : Option String) :
    AttemptsReported plan (events system)
        (deliveryResult plan system cutOff) ↔
      ∀ task ∈ system.tasks, task.retrying = false := by
  have record := fun name => find?_outcomes_after name (events system)
  rw [← counted_iff distinct reached]
  constructor
  · intro told chain member name listed
    cases reported : lastReport name (events system) with
    | none =>
        obtain ⟨index, chainAt⟩ := List.mem_iff_getElem?.mp member
        obtain ⟨task, _, _, counts⟩ :=
          counts_of_delivering distinct reached chainAt
        have ownReport := lastReport_of_delivering distinct reached chainAt
          listed
        have count := counted_of_unreported counts
          (ownReport.symm.trans reported)
        rw [AttemptsKnown, ← ownReport,
          ← completed_of_delivering distinct reached chainAt listed] at count
        exact count
    | some outcome =>
        have found := (record name).trans reported
        have isName : outcome.provider = name := by
          simpa using List.find?_some found
        have inResult : cutShort cutOff outcome ∈
            (deliveryResult plan system cutOff).deliveries := by
          rw [deliveryResult, deliveries_summarize, List.mem_flatMap]
          exact ⟨chain, member, List.mem_map_of_mem
            (List.mem_filterMap.mpr ⟨name, listed, found⟩)⟩
        have count := told.each _ inResult
        rw [attempts_cutShort, provider_cutShort, isName] at count
        rw [AttemptsKnown, reported]
        exact count
  · intro counted
    constructor
    · intro outcome member
      rw [deliveryResult, deliveries_summarize, List.mem_flatMap] at member
      obtain ⟨chain, isTarget, tried⟩ := member
      obtain ⟨last, found, rfl⟩ := List.mem_map.mp tried
      obtain ⟨name, listed, isLast⟩ := List.mem_filterMap.mp found
      have isName : last.provider = name := by
        simpa using List.find?_some isLast
      have count := counted chain isTarget name listed
      rw [AttemptsKnown, ← record, isLast] at count
      rw [attempts_cutShort, provider_cutShort, isName]
      exact count
    · exact attempts_foldl record _ cutOff {} counted

/-! ## A cut between two attempts -/

/-- Slack fails three times, PagerDuty delivers at once, and Teams at its
second attempt. -/
theorem attempts_reported_interleaved :
    AttemptsReported samplePlan (events sampleSystem)
      (deliveryResult samplePlan sampleSystem none) := by
  have reached : Delivering samplePlan sampleRegistry (fun _ => none)
      sampleAnswers [0, 1, 0, 0, 1, 0, 1, 1, 0, 0, 1, 1, 0, 0, 0, 0, 0, 0]
        sampleSystem :=
    reaches_of_run rfl
  exact (attempts_reported_iff (by decide) reached none).mpr (by decide)

/-- The delivery after Slack's first answer. -/
def retriedSystem : System ChainTask ChainEvent :=
  (run (advance (deliverChain sampleRegistry (fun _ => none) sampleAnswers))
    anyStep (deliverStart samplePlan) [0, 0, 0]).getD
      (deliverStart samplePlan)

/-- Slack has answered once, and the result says that no attempt was
made. -/
theorem attempts_lost :
    Delivering samplePlan sampleRegistry (fun _ => none) sampleAnswers
        [0, 0, 0] retriedSystem ∧
      completed "slack" (events retriedSystem) = 1 ∧
      (deliveryResult samplePlan retriedSystem
        (some "timed out after 100ms")).deliveries =
          [⟨"slack", .failed, some "timed out after 100ms", 0⟩] ∧
      ¬ AttemptsReported samplePlan (events retriedSystem)
        (deliveryResult samplePlan retriedSystem
          (some "timed out after 100ms")) := by
  have answered : completed "slack" (events retriedSystem) = 1 := by
    decide
  have result : (deliveryResult samplePlan retriedSystem
      (some "timed out after 100ms")).deliveries =
        [⟨"slack", .failed, some "timed out after 100ms", 0⟩] := by
    decide
  refine ⟨reaches_of_run rfl, answered, result, ?_⟩
  intro told
  have count := told.each ⟨"slack", .failed, some "timed out after 100ms", 0⟩
    (by rw [result]; exact List.mem_cons_self)
  rw [answered] at count
  cases count

end OpsSignal
