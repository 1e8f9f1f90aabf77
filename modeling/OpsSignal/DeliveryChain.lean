import OpsSignal.Delivery

/-!
# What one chain does

Facts about the events of a single chain, and about the outcomes that the
shared record keeps of any events.  `triedNames` are the providers a chain
gets to, and `finalOutcome` is what it reports last about each of them.
-/

namespace OpsSignal

/-! ## Looking up an outcome -/

/-- The outcome an event reports for this provider. -/
def reportOf (name : String) : ChainEvent → Option ProviderOutcome
  | .reported outcome =>
      if outcome.provider = name then some outcome else none
  | _ => none

/-- What was reported last about a provider. -/
def lastReport (name : String) (events : List ChainEvent) :
    Option ProviderOutcome :=
  (events.filterMap (reportOf name)).getLast?

theorem lastReport_append
    (name : String) (first second : List ChainEvent) :
    lastReport name (first ++ second) =
      (lastReport name second).or (lastReport name first) := by
  simp [lastReport]

theorem lastReport_cons_silent
    {name : String} {event : ChainEvent}
    (silent : reportOf name event = none) (rest : List ChainEvent) :
    lastReport name (event :: rest) = lastReport name rest := by
  rw [lastReport, List.filterMap_cons_none silent, lastReport]

theorem name_of_reportOf
    {name : String} {event : ChainEvent} {outcome : ProviderOutcome}
    (reports : reportOf name event = some outcome) :
    event.name = name := by
  cases event with
  | reported reportedOutcome =>
      simp only [reportOf] at reports
      split at reports
      · rename_i same
        exact same
      · cases reports
  | unknown | sent | answered | kept => simp [reportOf] at reports

/-- Only the events about a provider matter for what was reported last. -/
theorem lastReport_filter
    {name : String} {wanted : ChainEvent → Bool}
    (covers : ∀ event : ChainEvent, event.name = name → wanted event = true)
    (events : List ChainEvent) :
    lastReport name (events.filter wanted) = lastReport name events := by
  unfold lastReport
  congr 1
  induction events with
  | nil => rfl
  | cons event rest inductionHypothesis =>
      by_cases keeps : wanted event = true
      · simp [keeps, List.filterMap_cons, inductionHypothesis]
      · have silent : reportOf name event = none := by
          cases reports : reportOf name event with
          | none => rfl
          | some outcome =>
              exact absurd (covers event (name_of_reportOf reports)) keeps
        simp [keeps, silent, inductionHypothesis]

theorem find?_reportOutcome (name : String) (outcome : ProviderOutcome) :
    ∀ outcomes : List ProviderOutcome,
      (reportOutcome outcome outcomes).find?
          (fun recorded => recorded.provider == name) =
        if outcome.provider = name then some outcome
        else outcomes.find? fun recorded => recorded.provider == name
  | [] => by
      by_cases same : outcome.provider = name <;>
        simp [reportOutcome, same]
  | existing :: rest => by
      by_cases replaces : existing.provider = outcome.provider
      · by_cases same : outcome.provider = name
        · simp [reportOutcome, replaces, same]
        · simp [reportOutcome, replaces, same]
      · by_cases same : outcome.provider = name
        · have other : existing.provider ≠ name := by
            rwa [← same]
          simp [reportOutcome, same, other,
            find?_reportOutcome name outcome rest]
        · simp [reportOutcome, replaces, same, List.find?_cons,
            find?_reportOutcome name outcome rest]

/-- The record keeps what was reported last about each provider. -/
theorem find?_outcomes_after (name : String) (events : List ChainEvent) :
    (Tracker.after events).outcomes.find?
        (fun recorded => recorded.provider == name) =
      lastReport name events := by
  induction events using List.reverseRecOn with
  | nil => rfl
  | append_singleton events event inductionHypothesis =>
      rw [Tracker.after, List.foldl_append, ← Tracker.after,
        lastReport_append, ← inductionHypothesis]
      cases event with
      | reported outcome =>
          by_cases same : outcome.provider = name
          · simp [Tracker.apply, find?_reportOutcome, lastReport, reportOf,
              same]
          · simp [Tracker.apply, find?_reportOutcome, lastReport, reportOf,
              same]
      | unknown | sent | answered | kept =>
          simp [Tracker.apply, lastReport, reportOf]

/-! ## The events of a turn -/

section Chain

variable {providers : Registry} {priorRef : String → Option String}
  {answers : Answers}

theorem name_of_mem_turnEvents
    {name : String} {event : ChainEvent} :
    ∀ {attempt left : Nat},
      event ∈ turnEvents priorRef answers name attempt left →
        event.name = name := by
  intro attempt left member
  cases answer : answers name attempt with
  | ok alertRef =>
      rw [turnEvents_ok answer] at member
      cases alertRef with
      | none =>
          simp only [keepRef, List.nil_append, List.mem_cons,
            List.not_mem_nil, or_false] at member
          rcases member with rfl | rfl | rfl <;> rfl
      | some alertRef =>
          simp only [keepRef, List.cons_append, List.nil_append,
            List.mem_cons, List.not_mem_nil, or_false] at member
          rcases member with rfl | rfl | rfl | rfl <;> rfl
  | error e =>
      cases left with
      | zero =>
          rw [turnEvents_last answer] at member
          simp only [List.mem_cons, List.not_mem_nil, or_false] at member
          rcases member with rfl | rfl | rfl <;> rfl
      | succ left =>
          rw [turnEvents_again answer] at member
          simp only [List.mem_cons] at member
          rcases member with rfl | rfl | later
          · rfl
          · rfl
          · exact name_of_mem_turnEvents later

private theorem unknown_not_mem_turnEvents {other name : String} :
    ∀ attempt left : Nat,
      .unknown other ∉ turnEvents priorRef answers name attempt left := by
  intro attempt left
  cases answer : answers name attempt with
  | ok alertRef =>
      rw [turnEvents_ok answer]
      cases alertRef <;> simp [keepRef]
  | error e =>
      cases left with
      | zero =>
          rw [turnEvents_last answer]
          simp
      | succ left =>
          rw [turnEvents_again answer]
          simpa using unknown_not_mem_turnEvents (attempt + 1) left

/-- What a provider's turn reports last. -/
def finalOutcome (answers : Answers) (name : String) :
    Nat → Nat → ProviderOutcome
  | attempt, left =>
      match answers name attempt, left with
      | .ok _, _ => ⟨name, .delivered, none, attempt⟩
      | .error e, 0 => ⟨name, .failed, some e, maxRetryAttempts⟩
      | .error _, left + 1 => finalOutcome answers name (attempt + 1) left

/-- What a provider that is tried ends up with. -/
def outcomeOf (answers : Answers) (name : String) : ProviderOutcome :=
  finalOutcome answers name 1 (maxRetryAttempts - 1)

private theorem finalOutcome_facts (name : String) :
    ∀ attempt left : Nat,
      (finalOutcome answers name attempt left).provider = name ∧
        ((finalOutcome answers name attempt left).status = .delivered ↔
          succeeds answers name attempt left = true) := by
  intro attempt left
  cases answer : answers name attempt with
  | ok alertRef =>
      rw [succeeds_ok answer]
      cases left <;> simp [finalOutcome, answer]
  | error e =>
      cases left with
      | zero =>
          rw [succeeds_last answer]
          simp [finalOutcome, answer]
      | succ left =>
          rw [succeeds_again answer]
          simpa [finalOutcome, answer] using
            finalOutcome_facts name (attempt + 1) left

theorem provider_outcomeOf (name : String) :
    (outcomeOf answers name).provider = name :=
  (finalOutcome_facts name 1 _).1

theorem delivered_outcomeOf (name : String) :
    (outcomeOf answers name).status = .delivered ↔
      delivers answers name = true :=
  (finalOutcome_facts name 1 _).2

/-- The last report of a turn stands at its end. -/
private theorem lastReport_turnEvents (name : String) :
    ∀ attempt left : Nat,
      lastReport name (turnEvents priorRef answers name attempt left) =
        some (finalOutcome answers name attempt left) := by
  intro attempt left
  cases answer : answers name attempt with
  | ok alertRef =>
      rw [turnEvents_ok answer]
      cases alertRef <;> cases left <;>
        simp [lastReport, reportOf, keepRef, finalOutcome, answer]
  | error e =>
      cases left with
      | zero =>
          rw [turnEvents_last answer]
          simp [lastReport, reportOf, finalOutcome, answer]
      | succ left =>
          rw [turnEvents_again answer, lastReport_cons_silent rfl,
            lastReport_cons_silent rfl, lastReport_turnEvents]
          simp [finalOutcome, answer]

/-- A turn makes no more sends than it has attempts. -/
private theorem countP_isSend_turnEvents (name : String) :
    ∀ attempt left : Nat,
      (turnEvents priorRef answers name attempt left).countP
          ChainEvent.isSend ≤ left + 1 := by
  intro attempt left
  cases answer : answers name attempt with
  | ok alertRef =>
      rw [turnEvents_ok answer]
      cases alertRef <;>
        simp [keepRef, ChainEvent.isSend, List.countP_cons]
  | error e =>
      cases left with
      | zero =>
          rw [turnEvents_last answer]
          simp [ChainEvent.isSend, List.countP_cons]
      | succ left =>
          rw [turnEvents_again answer]
          simpa [ChainEvent.isSend, List.countP_cons] using
            countP_isSend_turnEvents name (attempt + 1) left

/-- A turn that does not succeed fails every attempt it has. -/
private theorem countP_isFailure_turnEvents {name : String} :
    ∀ {attempt left : Nat}, succeeds answers name attempt left = false →
      (turnEvents priorRef answers name attempt left).countP
          ChainEvent.isFailure = left + 1 := by
  intro attempt left failing
  cases answer : answers name attempt with
  | ok alertRef =>
      rw [succeeds_ok answer] at failing
      cases failing
  | error e =>
      cases left with
      | zero =>
          rw [turnEvents_last answer]
          simp [ChainEvent.isFailure, List.countP_cons]
      | succ left =>
          rw [succeeds_again answer] at failing
          rw [turnEvents_again answer]
          simpa [ChainEvent.isFailure, List.countP_cons] using
            countP_isFailure_turnEvents failing

/-- A turn has a success among its events exactly when it succeeds. -/
private theorem any_isSuccess_turnEvents (name : String) :
    ∀ attempt left : Nat,
      (turnEvents priorRef answers name attempt left).any
          ChainEvent.isSuccess =
        succeeds answers name attempt left := by
  intro attempt left
  cases answer : answers name attempt with
  | ok alertRef =>
      rw [turnEvents_ok answer, succeeds_ok answer]
      simp [ChainEvent.isSuccess]
  | error e =>
      cases left with
      | zero =>
          rw [turnEvents_last answer, succeeds_last answer]
          simp [ChainEvent.isSuccess]
      | succ left =>
          rw [turnEvents_again answer, succeeds_again answer]
          simpa [ChainEvent.isSuccess] using
            any_isSuccess_turnEvents name (attempt + 1) left

/-- Nothing is sent in a turn once a send has succeeded. -/
private theorem no_send_after_success_turnEvents {name : String} :
    ∀ {attempt left : Nat} {before after : List ChainEvent}
      {event : ChainEvent},
      turnEvents priorRef answers name attempt left =
          before ++ event :: after →
        event.isSuccess = true →
          ∀ later ∈ after, later.isSend = false := by
  intro attempt left before after event shape success
  have silentKeep : ∀ alertRef, ∀ later ∈ keepRef name alertRef ++
      [ChainEvent.reported ⟨name, .delivered, none, attempt⟩],
      later.isSend = false ∧ later.isSuccess = false := by
    intro alertRef later member
    cases alertRef with
    | none =>
        simp only [keepRef, List.nil_append, List.mem_singleton] at member
        subst member
        exact ⟨rfl, rfl⟩
    | some alertRef =>
        simp only [keepRef, List.cons_append, List.nil_append,
          List.mem_cons, List.not_mem_nil, or_false] at member
        rcases member with rfl | rfl <;> exact ⟨rfl, rfl⟩
  cases answer : answers name attempt with
  | ok alertRef =>
      rw [turnEvents_ok answer] at shape
      rcases before with _ | ⟨first, _ | ⟨second, before⟩⟩
      · simp only [List.nil_append, List.cons.injEq] at shape
        rw [← shape.1] at success
        cases success
      · simp only [List.cons_append, List.nil_append,
          List.cons.injEq] at shape
        intro later member
        rw [← shape.2.2] at member
        exact (silentKeep alertRef later member).1
      · simp only [List.cons_append, List.cons.injEq] at shape
        intro later member
        have inside : later ∈ before ++ event :: after := by
          simp [member]
        rw [← shape.2.2] at inside
        exact (silentKeep alertRef later inside).1
  | error e =>
      cases left with
      | zero =>
          rw [turnEvents_last answer] at shape
          have silent : ∀ other ∈ before ++ event :: after,
              other.isSuccess = false := by
            rw [← shape]
            simp [ChainEvent.isSuccess]
          rw [silent event (by simp)] at success
          cases success
      | succ left =>
          rw [turnEvents_again answer] at shape
          rcases before with _ | ⟨first, _ | ⟨second, before⟩⟩
          · simp only [List.nil_append, List.cons.injEq] at shape
            rw [← shape.1] at success
            cases success
          · simp only [List.cons_append, List.nil_append,
              List.cons.injEq] at shape
            rw [← shape.2.1] at success
            cases success
          · simp only [List.cons_append, List.cons.injEq] at shape
            exact no_send_after_success_turnEvents shape.2.2 success

/-! ## The events of a chain -/

theorem name_mem_of_mem_chainEvents {event : ChainEvent} :
    ∀ {chain : List String},
      event ∈ chainEvents providers priorRef answers chain →
        event.name ∈ chain
  | [], member => by
      simp [chainEvents] at member
  | name :: rest, member => by
      rw [chainEvents] at member
      split at member
      · rcases List.mem_append.mp member with head | tail
        · rcases List.mem_cons.mp head with rfl | turn
          · exact List.mem_cons_self
          · rw [name_of_mem_turnEvents turn]
            exact List.mem_cons_self
        · split at tail
          · cases tail
          · exact List.mem_cons_of_mem _ (name_mem_of_mem_chainEvents tail)
      · rcases List.mem_cons.mp member with rfl | tail
        · exact List.mem_cons_self
        · exact List.mem_cons_of_mem _ (name_mem_of_mem_chainEvents tail)

/-- Only a provider that is not registered is ever found unknown. -/
theorem unregistered_of_unknown {name : String} :
    ∀ {chain : List String},
      .unknown name ∈ chainEvents providers priorRef answers chain →
        ¬ providers.contains name = true
  | [], member => by
      simp [chainEvents] at member
  | head :: rest, member => by
      by_cases known : providers.contains head = true
      · rw [chainEvents, if_pos known] at member
        rcases List.mem_append.mp member with turn | tail
        · simp [unknown_not_mem_turnEvents] at turn
        · split at tail
          · cases tail
          · exact unregistered_of_unknown tail
      · rw [chainEvents, if_neg known] at member
        rcases List.mem_cons.mp member with same | tail
        · cases same
          exact known
        · exact unregistered_of_unknown tail

/-- The providers of a chain that are tried. -/
def triedNames (providers : Registry) (answers : Answers) :
    List String → List String
  | [] => []
  | name :: rest =>
      if providers.contains name then
        name :: if delivers answers name then []
          else triedNames providers answers rest
      else
        triedNames providers answers rest

theorem triedNames_sublist :
    ∀ chain : List String, (triedNames providers answers chain).Sublist chain
  | [] => List.Sublist.refl []
  | name :: rest => by
      rw [triedNames]
      split
      · split
        · exact (List.nil_sublist rest).cons_cons name
        · exact (triedNames_sublist rest).cons_cons name
      · exact (triedNames_sublist rest).cons name

/-- Only the provider tried last can have delivered. -/
theorem triedNames_split :
    ∀ chain : List String,
      ∃ (failing : List String) (won : Option String),
        triedNames providers answers chain = failing ++ won.toList ∧
          (∀ name ∈ failing, delivers answers name = false) ∧
          ∀ name ∈ won, delivers answers name = true
  | [] => ⟨[], none, rfl, by simp, by simp⟩
  | name :: rest => by
      by_cases known : providers.contains name = true
      · by_cases success : delivers answers name = true
        · refine ⟨[], some name, ?_, by simp, by simpa using success⟩
          simp [triedNames, known, success]
        · obtain ⟨failing, won, shape, fails, wins⟩ := triedNames_split rest
          refine ⟨name :: failing, won, ?_, ?_, wins⟩
          · simp [triedNames, known, success, shape]
          · simpa [success] using fails
      · obtain ⟨failing, won, shape, fails, wins⟩ := triedNames_split rest
        exact ⟨failing, won, by simp [triedNames, known, shape], fails, wins⟩

/-- A chain reports an outcome for each provider it tries and for no
other. -/
theorem lastReport_chainEvents {name : String} :
    ∀ {chain : List String}, chain.Nodup →
      lastReport name (chainEvents providers priorRef answers chain) =
        if name ∈ triedNames providers answers chain then
          some (outcomeOf answers name)
        else none
  | [], _ => rfl
  | head :: rest, distinct => by
      have fresh := (List.nodup_cons.mp distinct).1
      have tail := @lastReport_chainEvents name rest
        (List.nodup_cons.mp distinct).2
      by_cases same : name = head
      · subst same
        have untried : name ∉ triedNames providers answers rest :=
          fun member => fresh ((triedNames_sublist rest).subset member)
        rw [if_neg untried] at tail
        by_cases known : providers.contains name = true
        · have turn := @lastReport_turnEvents priorRef answers name 1
            (maxRetryAttempts - 1)
          rw [chainEvents, if_pos known, lastReport_append,
            ← List.singleton_append, lastReport_append, turn]
          by_cases success : delivers answers name = true
          · simp [success, triedNames, known, outcomeOf, lastReport]
          · simp [success, triedNames, known, outcomeOf, tail]
        · rw [chainEvents, if_neg known, lastReport_cons_silent rfl, tail,
            triedNames, if_neg known, if_neg untried]
      · have silentTurn : lastReport name
            (.reported ⟨head, .pending, none, 0⟩ ::
              turnEvents priorRef answers head 1 (maxRetryAttempts - 1)) =
              none := by
          rw [lastReport, List.filterMap_eq_nil_iff.mpr]
          · rfl
          · intro event member
            cases reports : reportOf name event with
            | none => rfl
            | some outcome =>
                have named := name_of_reportOf reports
                rcases List.mem_cons.mp member with rfl | turn
                · exact absurd named.symm same
                · rw [name_of_mem_turnEvents turn] at named
                  exact absurd named.symm same
        by_cases known : providers.contains head = true
        · rw [chainEvents, if_pos known, lastReport_append, silentTurn,
            triedNames, if_pos known]
          by_cases success : delivers answers head = true
          · simp [success, same, lastReport]
          · simp [success, same, tail]
        · rw [chainEvents, if_neg known, lastReport_cons_silent rfl, tail,
            triedNames, if_neg known]

/-! ## Sends and successes -/

/-- How often a provider was sent to. -/
def sends (name : String) (events : List ChainEvent) : Nat :=
  events.countP fun event => event.isSend && event.name == name

/-- How often a provider failed. -/
def failures (name : String) (events : List ChainEvent) : Nat :=
  events.countP fun event => event.isFailure && event.name == name

/-- Whether a provider was tried. -/
def wasTried (name : String) (events : List ChainEvent) : Bool :=
  events.any fun event => event.isSend && event.name == name

/-- Whether a send to a provider succeeded. -/
def hasDelivered (name : String) (events : List ChainEvent) : Bool :=
  events.any fun event => event.isSuccess && event.name == name

private theorem any_turnEvents_other
    {name head : String} (different : head ≠ name)
    (kind : ChainEvent → Bool) (attempt left : Nat) :
    (turnEvents priorRef answers head attempt left).any
        (fun event => kind event && event.name == name) = false := by
  rw [List.any_eq_false]
  intro event member
  simp [name_of_mem_turnEvents member, different]

private theorem countP_turnEvents_other
    {name head : String} (different : head ≠ name)
    (kind : ChainEvent → Bool) (attempt left : Nat) :
    (turnEvents priorRef answers head attempt left).countP
        (fun event => kind event && event.name == name) = 0 := by
  rw [List.countP_eq_zero]
  intro event member
  simp [name_of_mem_turnEvents member, different]

private theorem countP_turnEvents_same
    (name : String) (kind : ChainEvent → Bool) (attempt left : Nat) :
    (turnEvents priorRef answers name attempt left).countP
        (fun event => kind event && event.name == name) =
      (turnEvents priorRef answers name attempt left).countP kind := by
  apply List.countP_congr
  intro event member
  simp [name_of_mem_turnEvents member]

private theorem any_turnEvents_same
    (name : String) (kind : ChainEvent → Bool) (attempt left : Nat) :
    (turnEvents priorRef answers name attempt left).any
        (fun event => kind event && event.name == name) =
      (turnEvents priorRef answers name attempt left).any kind := by
  rw [Bool.eq_iff_iff, List.any_eq_true, List.any_eq_true]
  constructor
  · rintro ⟨event, member, holds⟩
    exact ⟨event, member, by simpa [name_of_mem_turnEvents member] using holds⟩
  · rintro ⟨event, member, holds⟩
    exact ⟨event, member, by simpa [name_of_mem_turnEvents member] using holds⟩

private theorem any_isSend_turnEvents (name : String) (attempt left : Nat) :
    (turnEvents priorRef answers name attempt left).any
      ChainEvent.isSend = true := by
  rw [turnEvents.eq_def]
  simp [ChainEvent.isSend]

/-- A provider is tried exactly when it is sent to. -/
theorem wasTried_chainEvents (name : String) :
    ∀ chain : List String,
      wasTried name (chainEvents providers priorRef answers chain) =
        decide (name ∈ triedNames providers answers chain)
  | [] => rfl
  | head :: rest => by
      have tail := wasTried_chainEvents name rest
      simp only [wasTried] at tail ⊢
      by_cases known : providers.contains head = true
      · rw [chainEvents, if_pos known, triedNames, if_pos known,
          List.any_append, List.any_cons]
        by_cases same : head = name
        · subst same
          rw [any_turnEvents_same, any_isSend_turnEvents]
          simp
        · rw [any_turnEvents_other same]
          by_cases success : delivers answers head = true
          · simp [success, Ne.symm same]
          · simp [success, Ne.symm same, tail]
      · rw [chainEvents, if_neg known, triedNames, if_neg known,
          List.any_cons, tail]
        simp

/-- A provider has delivered exactly when it is tried and answers one of
its attempts with a success. -/
theorem hasDelivered_chainEvents (name : String) :
    ∀ chain : List String,
      hasDelivered name (chainEvents providers priorRef answers chain) =
        (decide (name ∈ triedNames providers answers chain) &&
          delivers answers name)
  | [] => rfl
  | head :: rest => by
      have tail := hasDelivered_chainEvents name rest
      simp only [hasDelivered] at tail ⊢
      by_cases known : providers.contains head = true
      · rw [chainEvents, if_pos known, triedNames, if_pos known,
          List.any_append, List.any_cons]
        by_cases same : head = name
        · subst same
          rw [any_turnEvents_same, any_isSuccess_turnEvents]
          by_cases success : delivers answers head = true
          · have wins : succeeds answers head 1 (maxRetryAttempts - 1) =
                true := success
            simp [success, wins]
          · have failing : succeeds answers head 1 (maxRetryAttempts - 1) =
                false := by
              simpa [delivers] using success
            simp [success, failing, tail]
        · rw [any_turnEvents_other same]
          by_cases success : delivers answers head = true
          · simp [success, Ne.symm same]
          · simp [success, Ne.symm same, tail]
      · rw [chainEvents, if_neg known, triedNames, if_neg known,
          List.any_cons, tail]
        simp

private theorem countP_chainEvents_of_not_mem
    {name : String} {chain : List String} (absent : name ∉ chain)
    (kind : ChainEvent → Bool) :
    (chainEvents providers priorRef answers chain).countP
        (fun event => kind event && event.name == name) = 0 := by
  rw [List.countP_eq_zero]
  intro event member
  have different : event.name ≠ name := fun same =>
    absent (same ▸ name_mem_of_mem_chainEvents member)
  simp [different]

/-- No provider of a chain gets more than three sends. -/
theorem sends_chainEvents_le {name : String} :
    ∀ {chain : List String}, chain.Nodup →
      sends name (chainEvents providers priorRef answers chain) ≤
        maxRetryAttempts
  | [], _ => by
      simp [sends, chainEvents]
  | head :: rest, distinct => by
      have fresh := (List.nodup_cons.mp distinct).1
      have tail := @sends_chainEvents_le name rest
        (List.nodup_cons.mp distinct).2
      simp only [sends] at tail ⊢
      by_cases known : providers.contains head = true
      · rw [chainEvents, if_pos known, List.countP_append,
          List.countP_cons_of_neg (by simp)]
        by_cases same : head = name
        · subst same
          have turn := @countP_isSend_turnEvents priorRef answers head 1
            (maxRetryAttempts - 1)
          have none := @countP_chainEvents_of_not_mem providers priorRef
            answers head rest fresh ChainEvent.isSend
          rw [countP_turnEvents_same]
          split
          · simpa [maxRetryAttempts] using turn
          · rw [none]
            simpa [maxRetryAttempts] using turn
        · rw [countP_turnEvents_other same, Nat.zero_add]
          split
          · simp
          · exact tail
      · rw [chainEvents, if_neg known,
          List.countP_cons_of_neg (by simp)]
        exact tail

/-- Where an element of an append stands. -/
theorem split_of_append_eq
    {α : Type} {left right before after : List α} {item : α}
    (same : left ++ right = before ++ item :: after) :
    (∃ rest, left = before ++ item :: rest ∧ after = rest ++ right) ∨
      ∃ rest, before = left ++ rest ∧ right = rest ++ item :: after := by
  rcases List.append_eq_append_iff.mp same with
    ⟨rest, beforeShape, rightShape⟩ | ⟨rest, leftShape, itemShape⟩
  · exact Or.inr ⟨rest, beforeShape, rightShape⟩
  · cases rest with
    | nil =>
        refine Or.inr ⟨[], by simpa using leftShape.symm, ?_⟩
        simpa using itemShape.symm
    | cons head rest =>
        simp only [List.cons_append, List.cons.injEq] at itemShape
        obtain ⟨rfl, rfl⟩ := itemShape
        exact Or.inl ⟨rest, leftShape, rfl⟩

/-- Once a send has succeeded, its chain sends nothing more. -/
theorem no_send_after_success {event : ChainEvent} :
    ∀ {chain : List String} {before after : List ChainEvent},
      chainEvents providers priorRef answers chain =
          before ++ event :: after →
        event.isSuccess = true → ∀ later ∈ after, later.isSend = false
  | [], before, after, shape, _ => by
      simp [chainEvents] at shape
  | head :: rest, before, after, shape, success => by
      by_cases known : providers.contains head = true
      · rw [chainEvents, if_pos known] at shape
        rcases split_of_append_eq shape with
          ⟨turnRest, turnShape, rfl⟩ | ⟨restBefore, rfl, tailShape⟩
        · cases before with
          | nil =>
              simp only [List.nil_append, List.cons.injEq] at turnShape
              rw [← turnShape.1] at success
              cases success
          | cons first before =>
              simp only [List.cons_append, List.cons.injEq] at turnShape
              have any : (turnEvents priorRef answers head 1
                  (maxRetryAttempts - 1)).any ChainEvent.isSuccess =
                    true := by
                rw [turnShape.2]
                simp [success]
              rw [any_isSuccess_turnEvents] at any
              intro later member
              rw [if_pos (show delivers answers head = true from any),
                List.append_nil] at member
              exact no_send_after_success_turnEvents turnShape.2 success
                later member
        · split at tailShape
          · simp at tailShape
          · exact no_send_after_success tailShape success
      · rw [chainEvents, if_neg known] at shape
        cases before with
        | nil =>
            simp only [List.nil_append, List.cons.injEq] at shape
            rw [← shape.1] at success
            cases success
        | cons first before =>
            simp only [List.cons_append, List.cons.injEq] at shape
            exact no_send_after_success shape.2 success

/-- A provider is sent to only after every registered provider before it
in the chain has failed three times. -/
theorem failures_before_send {event : ChainEvent} :
    ∀ {chain earlier later : List String} {before after : List ChainEvent},
      chain.Nodup →
        chainEvents providers priorRef answers chain =
            before ++ event :: after →
          event.isSend = true → chain = earlier ++ event.name :: later →
            ∀ name ∈ earlier, providers.contains name = true →
              failures name before = maxRetryAttempts
  | [], earlier, later, before, after, _, _, _, listed => by
      simp at listed
  | head :: rest, earlier, later, before, after, distinct, shape, sent,
      listed => by
      intro name member registered
      cases earlier with
      | nil => cases member
      | cons first earlier =>
          simp only [List.cons_append, List.cons.injEq] at listed
          obtain ⟨rfl, restShape⟩ := listed
          have fresh := (List.nodup_cons.mp distinct).1
          have other : event.name ≠ head := by
            rintro same
            apply fresh
            rw [restShape, same]
            simp
          by_cases known : providers.contains head = true
          · rw [chainEvents, if_pos known] at shape
            rcases split_of_append_eq shape with
              ⟨turnRest, turnShape, _⟩ | ⟨restBefore, rfl, tailShape⟩
            · have inside : event ∈ ChainEvent.reported
                  ⟨head, .pending, none, 0⟩ ::
                    turnEvents priorRef answers head 1
                      (maxRetryAttempts - 1) := by
                rw [turnShape]
                simp
              rcases List.mem_cons.mp inside with rfl | turn
              · cases sent
              · exact absurd (name_of_mem_turnEvents turn) other
            · split at tailShape
              · simp at tailShape
              · rename_i failing
                simp only [failures, List.countP_append]
                rw [List.countP_cons_of_neg (by simp)]
                by_cases same : name = head
                · subst same
                  have turn := @countP_isFailure_turnEvents priorRef
                    answers name 1 (maxRetryAttempts - 1)
                    (by simpa [delivers] using failing)
                  have none : restBefore.countP
                      (fun event => event.isFailure && event.name == name) =
                        0 := by
                    rw [List.countP_eq_zero]
                    intro past pastMember
                    have happened : past ∈
                        chainEvents providers priorRef answers rest := by
                      rw [tailShape]
                      exact List.mem_append_left _ pastMember
                    have pastListed := name_mem_of_mem_chainEvents happened
                    have different : past.name ≠ name := fun equal =>
                      fresh (equal ▸ pastListed)
                    simp [different]
                  rw [countP_turnEvents_same, turn, none]
                  rfl
                · have earlierMember : name ∈ earlier := by
                    simpa [same] using member
                  rw [countP_turnEvents_other (Ne.symm same), Nat.zero_add]
                  exact failures_before_send (List.nodup_cons.mp distinct).2
                    tailShape sent restShape name earlierMember registered
          · rw [chainEvents, if_neg known] at shape
            have different : name ≠ head := by
              rintro rfl
              exact known registered
            have earlierMember : name ∈ earlier := by
              simpa [different] using member
            cases before with
            | nil =>
                simp only [List.nil_append, List.cons.injEq] at shape
                rw [← shape.1] at sent
                cases sent
            | cons first before =>
                simp only [List.cons_append, List.cons.injEq] at shape
                obtain ⟨rfl, tailShape⟩ := shape
                have tail := failures_before_send
                  (List.nodup_cons.mp distinct).2 tailShape sent restShape
                  name earlierMember registered
                simpa [failures] using tail

end Chain

end OpsSignal
