import OpsSignal.Config

/-!
# The pipeline

The part of a client that a config reload replaces: the routing rules and
the providers they name.  Of a provider the core itself reads only its
name and whether it resolves alerts by dedup key.
-/

namespace OpsSignal

structure Provider where
  name : String
  resolvesByKey : Bool := false
  deriving DecidableEq, Repr

/-- The registered providers by name. -/
abbrev Registry := List (String × Provider)

namespace Registry

/-- `HashMap::insert`. -/
def register (registry : Registry) (name : String) (provider : Provider) :
    Registry :=
  registry.filter (·.1 ≠ name) ++ [(name, provider)]

/-- `HashMap::get`. -/
def get (registry : Registry) (name : String) : Option Provider :=
  registry.lookup name

/-- `HashMap::contains_key`. -/
def contains (registry : Registry) (name : String) : Bool :=
  (registry.get name).isSome

theorem contains_eq_any (registry : Registry) (name : String) :
    registry.contains name = registry.any (·.1 == name) := by
  induction registry with
  | nil => rfl
  | cons entry rest inductionHypothesis =>
      by_cases same : name = entry.1
      · simp [contains, get, same]
      · have different : (name == entry.1) = false :=
          beq_eq_false_iff_ne.mpr same
        have otherWay : (entry.1 == name) = false :=
          beq_eq_false_iff_ne.mpr (Ne.symm same)
        simp only [contains, get] at inductionHypothesis ⊢
        rw [List.lookup_cons, different, List.any_cons, otherWay]
        exact inductionHypothesis

theorem contains_register
    (registry : Registry) (added name : String) (provider : Provider) :
    (registry.register added provider).contains name = true ↔
      name = added ∨ registry.contains name = true := by
  simp only [contains_eq_any, register, List.any_append, List.any_filter,
    Bool.or_eq_true, List.any_eq_true, List.any_cons, List.any_nil,
    Bool.or_false, Bool.and_eq_true, decide_eq_true_eq, beq_iff_eq]
  constructor
  · rintro (⟨entry, member, _, same⟩ | same)
    · exact Or.inr ⟨entry, member, same⟩
    · exact Or.inl same.symm
  · rintro (same | ⟨entry, member, same⟩)
    · exact Or.inr same.symm
    · by_cases replaced : entry.1 = added
      · exact Or.inr (replaced.symm.trans same)
      · exact Or.inl ⟨entry, member, replaced, same⟩

/-- Registering a provider only where its section is configured. -/
def registerIf
    (registry : Registry) (configured : Bool) (name : String)
    (resolvesByKey : Bool) : Registry :=
  if configured then registry.register name ⟨name, resolvesByKey⟩
  else registry

theorem contains_registerIf
    (registry : Registry) (configured : Bool) (added name : String)
    (resolvesByKey : Bool) :
    (registry.registerIf configured added resolvesByKey).contains name =
        true ↔
      registry.contains name = true ∨
        (configured = true ∧ name = added) := by
  cases configured with
  | false => simp [registerIf]
  | true => simp [registerIf, contains_register, or_comm]

end Registry

structure Pipeline where
  routing : RoutingConfig
  providers : Registry
  deriving DecidableEq, Repr

namespace Pipeline

/-- Registers the configured providers.  `console` is always present
because routing falls back to it. -/
def fromConfig (config : Config) : Pipeline where
  routing := config.routing
  providers :=
    let p := config.providers
    (((((((Registry.register [] "console" ⟨"console", false⟩).registerIf
      p.slack.isSome "slack" false).registerIf
      p.webhook.isSome "webhook" false).registerIf
      p.pagerduty.isSome "pagerduty" true).registerIf
      p.teams.isSome "teams" false).registerIf
      p.opsgenie.isSome "opsgenie" true).registerIf
      p.email.isSome "email" false)

/-- The two hand-written lists of providers agree: what the checks accept
as a provider name is what the pipeline registers. -/
theorem contains_fromConfig (config : Config) (name : String) :
    (fromConfig config).providers.contains name = true ↔
      name ∈ config.providerNames := by
  have console :
      Registry.contains
          (Registry.register [] "console" ⟨"console", false⟩) name = true ↔
        name = "console" := by
    rw [Registry.contains_register]
    simp [Registry.contains, Registry.get]
  have optional : ∀ (configured : Bool) (added : String),
      name ∈ (if configured then [added] else []) ↔
        configured = true ∧ name = added := by
    intro configured added
    cases configured with
    | false => simp
    | true => simp
  simp only [fromConfig, Registry.contains_registerIf, console,
    Config.providerNames, List.mem_append, List.mem_singleton, optional]

end Pipeline

end OpsSignal
