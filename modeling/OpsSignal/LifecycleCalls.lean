import OpsSignal.AlertStates
import OpsSignal.ClientSteps
import OpsSignal.Lib.FirstMention

/-!
# Where an acknowledge or a resolve goes

It goes to the configured providers that hold the alert.  If there is
none, it goes to the providers of the matching routes that resolve by
key.  It passes no gate and joins no group.
-/

namespace OpsSignal

open FirstMention Interleaving

variable {platform : Platform}

/-! ## The key -/

/-- The key that is looked up is the key that is recorded: the defaults
fill no field that the key is computed from. -/
theorem effectiveDedupKey_fill
    {input : SignalInput} (valid : validate input = .ok ())
    (lifecycle : input.action.isLifecycle = true)
    (title : Option String) :
    (input.fillLifecycleDefaults title).effectiveDedupKey platform =
      input.effectiveDedupKey platform := by
  cases given : input.dedupKey with
  | some key =>
      simp [SignalInput.effectiveDedupKey, SignalInput.fillLifecycleDefaults,
        given]
  | none =>
      rw [validate] at valid
      simp only [lifecycle, if_true, given] at valid
      split at valid
      · cases valid
      · rename_i source
        split at valid
        · cases valid
        · rename_i eventType
          split at valid
          · cases valid
          · rename_i title'
            simp [SignalInput.effectiveDedupKey,
              SignalInput.fillLifecycleDefaults, given, computeDedupKey,
              source, eventType, title']

/-! ## The holders of an alert -/

namespace AlertBook

/-- A provider holds one alert for each key. -/
theorem nodup_openAlerts (key : String) (book : AlertBook) :
    ((book.openAlerts key).map OpenAlert.provider).Nodup := by
  have sameKeys : ∀ rows : List AlertRow,
      (∀ row ∈ rows, row.dedupKey = key) →
        (rows.map AlertRow.provider).map (fun name => (key, name)) =
          rows.map AlertRow.key := by
    intro rows same
    rw [List.map_map]
    apply List.map_congr_left
    intro row member
    rw [AlertRow.key, same row member]
    rfl
  rw [openAlerts, List.map_map]
  apply List.Nodup.of_map (fun name => (key, name))
  have kept : (book.rows.filter fun row =>
      row.dedupKey == key && row.state ≠ .resolved).Sublist book.rows :=
    List.filter_sublist
  have keys := sameKeys
    (book.rows.filter fun row => row.dedupKey == key && row.state ≠ .resolved)
    (by
      intro row member
      have holds := (List.mem_filter.mp member).2
      simp only [Bool.and_eq_true, beq_iff_eq] at holds
      exact holds.1)
  exact keys ▸ (kept.map AlertRow.key).nodup book.keyed

end AlertBook

private theorem lookup_priorRefs_of_absent {name : String} :
    ∀ {opened : List OpenAlert}, name ∉ opened.map OpenAlert.provider →
      (priorRefs opened).lookup name = none
  | [], _ => rfl
  | alert :: rest, absent => by
      rw [List.map_cons, List.mem_cons, not_or] at absent
      have later := lookup_priorRefs_of_absent absent.2
      rw [priorRefs] at later ⊢
      rw [List.filterMap_cons]
      cases alert.alertRef with
      | none => exact later
      | some alertRef =>
          have different : (name == alert.provider) = false :=
            beq_eq_false_iff_ne.mpr absent.1
          rw [Option.map_some, List.lookup_cons, different]
          exact later

/-- Each provider gets the reference to its own alert. -/
theorem lookup_priorRefs :
    ∀ {opened : List OpenAlert},
      (opened.map OpenAlert.provider).Nodup →
        ∀ alert ∈ opened,
          (priorRefs opened).lookup alert.provider = alert.alertRef
  | [], _, _, member => by
      cases member
  | first :: rest, distinct, alert, member => by
      rw [List.map_cons, List.nodup_cons] at distinct
      rcases List.mem_cons.mp member with rfl | later
      · have absent := lookup_priorRefs_of_absent distinct.1
        rw [priorRefs] at absent ⊢
        rw [List.filterMap_cons]
        cases alert.alertRef with
        | none => exact absent
        | some alertRef => simp
      · have found := lookup_priorRefs distinct.2 alert later
        have different : (alert.provider == first.provider) = false := by
          apply beq_eq_false_iff_ne.mpr
          intro same
          exact distinct.1 (same ▸ List.mem_map_of_mem later)
        rw [priorRefs] at found ⊢
        rw [List.filterMap_cons]
        cases first.alertRef with
        | none => exact found
        | some alertRef =>
            rw [Option.map_some, List.lookup_cons, different]
            exact found

/-- The alerts of a key whose providers are still configured. -/
def holders (pipeline : Pipeline) (book : AlertBook) (key : String) :
    List OpenAlert :=
  (book.openAlerts key).filter fun alert =>
    pipeline.providers.contains alert.provider

theorem nodup_holders
    (pipeline : Pipeline) (book : AlertBook) (key : String) :
    ((holders pipeline book key).map OpenAlert.provider).Nodup :=
  (List.filter_sublist.map OpenAlert.provider).nodup
    (book.nodup_openAlerts key)

/-! ## The providers that resolve by key -/

theorem nodup_resolvingProviders (pipeline : Pipeline) (signal : Signal) :
    (resolvingProviders pipeline signal).Nodup :=
  (nodup_collect _).filter _

theorem mem_resolvingProviders
    {pipeline : Pipeline} {signal : Signal} {name : String} :
    name ∈ resolvingProviders pipeline signal ↔
      (∃ route ∈ pipeline.routing.routes,
        route.matchRule.matchesAnySeverity signal = true ∧
          name ∈ route.providers) ∧
        ∃ provider, pipeline.providers.get name = some provider ∧
          provider.resolvesByKey = true := by
  rw [resolvingProviders, List.mem_filter, RoutingConfig.providersAnySeverity,
    mem_collect, List.mem_flatMap, Option.any_eq_true]
  simp only [List.mem_filter, and_assoc]

/-! ## The plan -/

section Plan

variable {pipeline : Pipeline} {signal : Signal} {book : AlertBook}
  {key : String}

theorem targets_lifecyclePlan_of_holders
    (holding : holders pipeline book key ≠ []) :
    (lifecyclePlan pipeline signal (book.openAlerts key)).targets =
      (holders pipeline book key).map fun alert => [alert.provider] := by
  have nonempty : ((holders pipeline book key).map
      fun alert => [alert.provider]).isEmpty = false := by
    rw [List.isEmpty_map]
    exact List.isEmpty_eq_false_iff.mpr holding
  rw [holders] at nonempty ⊢
  simp only [lifecyclePlan, nonempty]
  rfl

theorem targets_lifecyclePlan_of_none
    (nobody : holders pipeline book key = []) :
    (lifecyclePlan pipeline signal (book.openAlerts key)).targets =
      (resolvingProviders pipeline signal).map fun name => [name] := by
  rw [holders] at nobody
  simp only [lifecyclePlan, nobody, List.map_nil]
  rfl

theorem suppressed_lifecyclePlan {opened : List OpenAlert} :
    (lifecyclePlan pipeline signal opened).suppressed =
      if (lifecyclePlan pipeline signal opened).targets.isEmpty then
        [noAlertLine signal]
      else [] :=
  rfl

end Plan

/-- Targets with one provider each. -/
theorem flatten_singles (names : List String) :
    (names.map fun name => [name]).flatten = names := by
  rw [← List.flatMap_def, List.flatMap_singleton']

theorem nodup_providers_lifecyclePlan
    (pipeline : Pipeline) (signal : Signal) (book : AlertBook)
    (key : String) :
    (lifecyclePlan pipeline signal (book.openAlerts key)).providers.Nodup :=
  by
    rw [DeliveryPlan.providers]
    by_cases holding : holders pipeline book key = []
    · rw [targets_lifecyclePlan_of_none holding, flatten_singles]
      exact nodup_resolvingProviders pipeline signal
    · rw [targets_lifecyclePlan_of_holders holding]
      have alerts := flatten_singles
        ((holders pipeline book key).map OpenAlert.provider)
      rw [List.map_map] at alerts
      exact alerts ▸ nodup_holders pipeline book key

/-- What `prepare` makes of a call that acts on an alert. -/
def Call.lifecycleCall
    (platform : Platform) (moment : Moment) (opened : List OpenAlert)
    (call : Call) : Call :=
  let signal := Signal.fromInput platform moment.id moment.timestamp
    (call.input.fillLifecycleDefaults (opened.head?.map OpenAlert.title))
  { call with
    stage := .recording
    signal := signal
    answers := moment.answers
    plan := lifecyclePlan call.pipeline signal opened
    priorRefs := OpsSignal.priorRefs opened }

theorem prepare_of_lifecycle
    {input : SignalInput} (lifecycle : input.action.isLifecycle = true)
    (client : Client) (waits : Bool) (moment : Moment) (book : AlertBook) :
    (client.newCall platform input waits).prepare platform moment book =
      (client.newCall platform input waits).lifecycleCall platform moment
        (book.openAlerts (input.effectiveDedupKey platform)) := by
  simp [Call.prepare, Call.lifecycleCall, Client.newCall, lifecycle]

/-! ## The call after its plan -/

/-- What a call can become, whatever the others do to the stores in
between. -/
inductive Call.Later (platform : Platform) (start : Call) : Call → Prop
  | start : Later platform start start
  | move {call : Call} {stores : Stores} {moved : Call × Stores} :
      Later platform start call → CallMove platform call stores moved →
        Later platform start moved.1

/-- The call passes no gate and joins no group. -/
structure Ungated (plan : DeliveryPlan) (call : Call) : Prop where
  plan_eq : call.plan = plan
  grouped : plan.grouped = []
  admission : call.admission = {}
  holds : call.holds = []
  planned : call.stage ≠ .preparing ∧ call.stage ≠ .planning
  unsent : plan.targets = [] →
    call.stage = .recording ∨ call.stage = .unsent ∨
      (call.stage = .holding ∨ call.stage = .done) ∧
        call.result = summarize plan [] none

theorem ungated_move
    {plan : DeliveryPlan} {call : Call} {stores : Stores}
    {moved : Call × Stores} (ungated : Ungated plan call)
    (moves : CallMove platform call stores moved) :
    Ungated plan moved.1 ∧ moved.2.table = stores.table ∧
      moved.2.groups = stores.groups := by
  obtain ⟨samePlan, grouped, admission, noHolds, planned, unsent⟩ := ungated
  have elsewhere : ∀ {stage : CallStage}, call.stage = stage →
      stage ∉ [.recording, .unsent, .holding, .done] →
        plan.targets ≠ [] := by
    intro stage isStage notThere empty
    subst isStage
    rcases unsent empty with same | same | ⟨same | same, _⟩
    · simp [same] at notThere
    · simp [same] at notThere
    · simp [same] at notThere
    · simp [same] at notThere
  cases moves with
  | prepare moment stage => exact absurd stage planned.1
  | ask entry rest stage routes => exact absurd stage planned.2
  | planned stage routes => exact absurd stage planned.2
  | record stage =>
      refine ⟨⟨samePlan, grouped, admission, ?_, ?_, ?_⟩, rfl, rfl⟩
      · exact (congrArg DeliveryPlan.grouped samePlan).trans grouped
      · dsimp only [Call.record]
        split
        · simp
        · simp
      · intro empty
        right; left
        simp [Call.record, samePlan, empty]
  | unsent stage =>
      refine ⟨⟨samePlan, grouped, admission, noHolds,
        by simp [Call.settleUnsent], ?_⟩, rfl, rfl⟩
      intro _
      right; right
      exact ⟨Or.inl rfl,
        congrArg (fun plan => summarize plan [] none) samePlan⟩
  | leave stage holds empty =>
      refine ⟨⟨samePlan, grouped, admission, noHolds, by simp, ?_⟩,
        rfl, rfl⟩
      intro noTargets
      rcases unsent noTargets with other | other | result
      · cases other.symm.trans stage
      · cases other.symm.trans stage
      · exact Or.inr (Or.inr ⟨Or.inr rfl, result.2⟩)
  | send stage holds nonempty =>
      refine ⟨⟨samePlan, grouped, admission, noHolds, by simp, ?_⟩,
        rfl, rfl⟩
      intro noTargets
      exact absurd (samePlan ▸ noTargets) nonempty
  | skip entry rest stage holds absent => cases noHolds.symm.trans holds
  | join route entry rest stage holds listed =>
      cases noHolds.symm.trans holds
  | finish stage finished =>
      have never := elsewhere stage (by decide)
      exact ⟨⟨samePlan, grouped, admission, noHolds, by simp [Call.finish],
        fun noTargets => absurd noTargets never⟩, rfl, rfl⟩
  | cut message stage waits =>
      have never := elsewhere stage (by decide)
      exact ⟨⟨samePlan, grouped, admission, noHolds, by simp [Call.finish],
        fun noTargets => absurd noTargets never⟩, rfl, rfl⟩
  | deliver chain system stage advanced =>
      exact ⟨⟨samePlan, grouped, admission, noHolds, planned, unsent⟩,
        rfl, rfl⟩
  | settle stage =>
      have never := elsewhere stage (by decide)
      refine ⟨⟨samePlan, grouped, admission, noHolds, by simp,
        fun noTargets => absurd noTargets never⟩, ?_,
        stores.groups_settle _ _⟩
      rw [Stores.settle_eq, admission]
      split
      · rfl
      · rfl
  | note stage =>
      have never := elsewhere stage (by decide)
      exact ⟨⟨samePlan, grouped, admission, noHolds, by simp,
        fun noTargets => absurd noTargets never⟩, rfl, rfl⟩
  | complete stage =>
      have never := elsewhere stage (by decide)
      exact ⟨⟨samePlan, grouped, admission, noHolds, by simp,
        fun noTargets => absurd noTargets never⟩, rfl, rfl⟩

theorem ungated_later
    {plan : DeliveryPlan} {start later : Call}
    (became : Call.Later platform start later)
    (ungated : Ungated plan start) : Ungated plan later := by
  induction became with
  | start => exact ungated
  | move _ moves inductionHypothesis =>
      exact (ungated_move inductionHypothesis moves).1

/-! ## Main result -/

theorem status_summarize_skipped
    {plan : DeliveryPlan} (targets : plan.targets = [])
    (grouped : plan.grouped = []) :
    (summarize plan [] none).status = .skipped := by
  simp [summarize, targets, grouped]

/-- An accepted `acknowledge` or `resolve` goes to the holders of its
alert, each with its own reference, or else to the providers that resolve
by key, or else nowhere.  Whatever happens until it is done, it leaves the
throttle table and the groups alone. -/
theorem lifecycle_reaches_holders
    {input : SignalInput} (valid : validate input = .ok ())
    (lifecycle : input.action.isLifecycle = true) (client : Client)
    (waits : Bool) (moment : Moment) (book : AlertBook) :
    let call := (client.newCall platform input waits).prepare platform
      moment book
    let key := input.effectiveDedupKey platform
    let holding := holders client.pipeline book key
    call.signal.dedupKey = some key ∧
      (holding ≠ [] →
        call.plan.targets = holding.map (fun alert => [alert.provider]) ∧
          (holding.map OpenAlert.provider).Nodup ∧
          ∀ alert ∈ holding,
            refOf call.priorRefs alert.provider = alert.alertRef) ∧
      (holding = [] →
        ∃ names, call.plan.targets = names.map (fun name => [name]) ∧
          names.Nodup ∧
          (∀ name, name ∈ names ↔
            (∃ route ∈ client.pipeline.routing.routes,
              route.matchRule.matchesAnySeverity call.signal = true ∧
                name ∈ route.providers) ∧
              ∃ provider,
                client.pipeline.providers.get name = some provider ∧
                  provider.resolvesByKey = true) ∧
          (names = [] → ∃ line, call.plan.suppressed = [line])) ∧
      ∀ later, Call.Later platform call later →
        later.plan = call.plan ∧ later.plan.grouped = [] ∧
          later.admission = {} ∧ later.stage ≠ .planning ∧
          (call.plan.targets = [] → later.stage = .done →
            later.result.status = .skipped) ∧
          ∀ stores moved, CallMove platform later stores moved →
            moved.2.table = stores.table ∧ moved.2.groups = stores.groups := by
  intro call key holding
  have prepared : call = (client.newCall platform input waits).lifecycleCall
      platform moment (book.openAlerts key) :=
    prepare_of_lifecycle lifecycle client waits moment book
  have sameKey : call.signal.dedupKey = some key := by
    rw [prepared]
    exact congrArg some (effectiveDedupKey_fill valid lifecycle _)
  have plan : call.plan = lifecyclePlan client.pipeline call.signal
      (book.openAlerts key) := by
    rw [prepared]
    rfl
  have refs : call.priorRefs = priorRefs (book.openAlerts key) := by
    rw [prepared]
    rfl
  have grouped : call.plan.grouped = [] := by
    rw [plan]
    rfl
  have ungated : Ungated call.plan call := by
    refine ⟨rfl, grouped, ?_, ?_, ?_, ?_⟩
    · rw [prepared]
      rfl
    · rw [prepared]
      rfl
    · rw [prepared]
      exact ⟨nofun, nofun⟩
    · intro _
      left
      rw [prepared]
      rfl
  refine ⟨sameKey, ?_, ?_, ?_⟩
  · intro some
    refine ⟨?_, nodup_holders _ _ _, ?_⟩
    · rw [plan]
      exact targets_lifecyclePlan_of_holders some
    · intro alert member
      rw [refOf, refs]
      exact lookup_priorRefs (book.nodup_openAlerts key) alert
        (List.mem_filter.mp member).1
  · intro none
    have targets := @targets_lifecyclePlan_of_none _ call.signal _ _ none
    refine ⟨resolvingProviders client.pipeline call.signal, ?_,
      nodup_resolvingProviders _ _, fun _ => mem_resolvingProviders, ?_⟩
    · rw [plan]
      exact targets
    · intro nobody
      rw [plan]
      refine ⟨noAlertLine call.signal, ?_⟩
      rw [suppressed_lifecyclePlan, targets, nobody]
      rfl
  · intro later became
    have still := ungated_later became ungated
    refine ⟨still.plan_eq, still.plan_eq ▸ grouped, still.admission,
      still.planned.2, ?_, ?_⟩
    · intro noTargets done
      rcases still.unsent noTargets with other | other | result
      · cases other.symm.trans done
      · cases other.symm.trans done
      · rw [result.2]
        exact status_summarize_skipped noTargets grouped
    · intro stores moved moves
      exact (ungated_move still moves).2

/-! ## A sample call -/

/-- Everything goes to PagerDuty and Slack. -/
def fannedPipeline : Pipeline where
  routing := ⟨[{ providers := ["pagerduty", "slack"], mode := .fanout }]⟩
  providers :=
    [("pagerduty", ⟨"pagerduty", true⟩), ("slack", ⟨"slack", false⟩)]

/-- Slack holds the disk alert. -/
def slackBook : AlertBook :=
  AlertBook.empty.upsert
    { dedupKey := "disk"
      provider := "slack"
      state := .opened
      alertRef := some "C1/17.4"
      title := "disk full"
      signalId := "1" }

def resolveDisk : SignalInput where
  dedupKey := some "disk"
  action := .resolve

/-- The call that resolves the disk alert. -/
def resolveCall : Call :=
  ((Client.fromPipeline fannedPipeline).newCall plainPlatform resolveDisk
    false).prepare plainPlatform plainMoment slackBook

theorem lifecycle_reaches_holders_slack :
    resolveCall.plan.targets =
        (holders fannedPipeline slackBook "disk").map
          (fun alert => [alert.provider]) ∧
      resolveCall.signal.dedupKey = some "disk" := by
  have valid : validate resolveDisk = .ok () := by decide
  have reaches := @lifecycle_reaches_holders plainPlatform resolveDisk
    valid (by decide) (Client.fromPipeline fannedPipeline) false plainMoment
    slackBook
  exact ⟨(reaches.2.1 (by decide)).1, reaches.1⟩

end OpsSignal
