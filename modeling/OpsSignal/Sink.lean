import OpsSignal.Client
import OpsSignal.Lib.KeyedTable

/-!
# The sink

The `signals` and `deliveries` tables: every signal with the status of its
delivery, and one row for each signal and provider.  The time of the last
update of a row is left out; nothing reads it.
-/

namespace OpsSignal

open KeyedTables

/-- A row of `signals`.  The columns that describe the signal are written
once. -/
structure SignalRow where
  signal : Signal
  status : DeliveryStatus
  provider : Option String
  error : Option String

def SignalRow.id (row : SignalRow) : String :=
  row.signal.id

/-- A row of `deliveries`. -/
structure DeliveryRow where
  signalId : String
  provider : String
  status : DeliveryStatus
  error : Option String
  attempts : Nat
  deriving DecidableEq, Repr

def DeliveryRow.key (row : DeliveryRow) : String × String :=
  (row.signalId, row.provider)

structure Sink where
  signals : KeyedTable SignalRow.id := .empty
  deliveries : KeyedTable DeliveryRow.key := .empty

/-- The outcome columns of an existing row are updated. -/
def SignalRow.merge (existing row : SignalRow) : SignalRow :=
  { existing with
    status := row.status
    provider := row.provider
    error := row.error }

def DeliveryRow.merge (existing row : DeliveryRow) : DeliveryRow :=
  { existing with
    status := row.status
    error := row.error
    attempts := row.attempts }

theorem SignalRow.id_merge (existing row : SignalRow) :
    (existing.merge row).id = existing.id :=
  rfl

theorem DeliveryRow.key_merge (existing row : DeliveryRow) :
    (existing.merge row).key = existing.key :=
  rfl

/-- The row that stores an outcome. -/
def deliveryRow (signal : Signal) (outcome : ProviderOutcome) : DeliveryRow :=
  ⟨signal.id, outcome.provider, outcome.status, outcome.error,
    outcome.attempts⟩

/-- `upsert_outcome`. -/
def upsertOutcome
    (signal : Signal) (deliveries : KeyedTable DeliveryRow.key)
    (outcome : ProviderOutcome) : KeyedTable DeliveryRow.key :=
  deliveries.upsert DeliveryRow.merge DeliveryRow.key_merge
    (deliveryRow signal outcome)

namespace Sink

/-- `record`: a signal that is stored already is left alone. -/
def record (signal : Signal) (sink : Sink) : Sink :=
  match sink.signals.find signal.id with
  | some _ => sink
  | none =>
      { sink with
        signals := sink.signals.upsert SignalRow.merge SignalRow.id_merge
          ⟨signal, .pending, none, none⟩ }

/-- `provider_outcome`. -/
def providerOutcome
    (signal : Signal) (outcome : ProviderOutcome) (sink : Sink) : Sink :=
  { sink with deliveries := upsertOutcome signal sink.deliveries outcome }

/-- `complete`. -/
def complete
    (signal : Signal) (result : DeliveryResult) (sink : Sink) : Sink where
  signals := sink.signals.upsert SignalRow.merge SignalRow.id_merge
    ⟨signal, result.status, result.provider, result.error⟩
  deliveries := result.deliveries.foldl (upsertOutcome signal)
    sink.deliveries

/-- What a delivery writes while it runs: the outcomes that `report`
stores. -/
def deliverEvent (signal : Signal) (sink : Sink) : ChainEvent → Sink
  | .reported outcome => sink.providerOutcome signal outcome
  | _ => sink

/-- What the sink is told by an effect of the client. -/
def apply (sink : Sink) : Effect → Sink
  | .recorded signal => sink.record signal
  | .delivering signal event => sink.deliverEvent signal event
  | .completed signal result => sink.complete signal result

/-- The sink after everything the client did. -/
def after (trace : List Effect) : Sink :=
  trace.foldl apply {}

theorem after_snoc (trace : List Effect) (effect : Effect) :
    after (trace ++ [effect]) = (after trace).apply effect := by
  rw [after, List.foldl_append]
  rfl

theorem after_append (first second : List Effect) :
    after (first ++ second) = second.foldl apply (after first) := by
  rw [after, List.foldl_append, after]

/-! ## Looking rows up -/

/-- The stored outcome of one provider. -/
def outcome (signalId provider : String) (sink : Sink) :
    Option DeliveryRow :=
  sink.deliveries.find (signalId, provider)

/-- The stored row of a signal. -/
def row (signalId : String) (sink : Sink) : Option SignalRow :=
  sink.signals.find signalId

variable {signal : Signal} {sink : Sink} {signalId provider : String}

@[simp]
theorem row_providerOutcome (outcome : ProviderOutcome) :
    (sink.providerOutcome signal outcome).row signalId =
      sink.row signalId :=
  rfl

@[simp]
theorem row_deliverEvent (event : ChainEvent) :
    (sink.deliverEvent signal event).row signalId = sink.row signalId := by
  cases event <;> rfl

theorem row_complete (result : DeliveryResult) :
    (sink.complete signal result).row signalId =
      if signal.id = signalId then
        some (((sink.row signalId).map fun existing =>
          existing.merge
            ⟨signal, result.status, result.provider, result.error⟩).getD
              ⟨signal, result.status, result.provider, result.error⟩)
      else sink.row signalId :=
  KeyedTable.find_upsert SignalRow.id_merge _ _ _

theorem row_record :
    (sink.record signal).row signalId =
      if signal.id = signalId then
        some ((sink.row signalId).getD ⟨signal, .pending, none, none⟩)
      else sink.row signalId := by
  by_cases same : signal.id = signalId
  · subst same
    rw [if_pos rfl, record]
    cases found : sink.signals.find signal.id with
    | some existing => simp [row, found]
    | none =>
        rw [row, row, KeyedTable.find_upsert, found]
        exact if_pos rfl
  · rw [if_neg same, record]
    cases found : sink.signals.find signal.id with
    | some existing => rfl
    | none =>
        rw [row, KeyedTable.find_upsert]
        exact if_neg same

theorem outcome_record :
    (sink.record signal).outcome signalId provider =
      sink.outcome signalId provider := by
  rw [record]
  split
  · rfl
  · rfl

/-- What one stored outcome does to the row of a provider. -/
theorem find_upsertOutcome
    (deliveries : KeyedTable DeliveryRow.key) (outcome : ProviderOutcome) :
    (upsertOutcome signal deliveries outcome).find (signalId, provider) =
      if signal.id = signalId ∧ outcome.provider = provider then
        some (deliveryRow signal outcome)
      else deliveries.find (signalId, provider) := by
  rw [upsertOutcome, KeyedTable.find_upsert]
  by_cases same : signal.id = signalId ∧ outcome.provider = provider
  · obtain ⟨rfl, rfl⟩ := same
    have sameRow : (deliveryRow signal outcome).key =
        (signal.id, outcome.provider) := rfl
    rw [if_pos sameRow, if_pos ⟨rfl, rfl⟩]
    cases found : deliveries.find (signal.id, outcome.provider) with
    | none => rfl
    | some existing =>
        have sameKey := KeyedTable.key_of_find found
        simp only [DeliveryRow.key, Prod.mk.injEq] at sameKey
        simp [DeliveryRow.merge, deliveryRow, sameKey]
  · rw [if_neg same]
    apply if_neg
    intro sameKey
    exact same (Prod.mk.inj sameKey)

theorem outcome_providerOutcome (outcome : ProviderOutcome) :
    (sink.providerOutcome signal outcome).outcome signalId provider =
      if signal.id = signalId ∧ outcome.provider = provider then
        some (deliveryRow signal outcome)
      else sink.outcome signalId provider :=
  find_upsertOutcome _ _

/-- The rows that a list of outcomes leaves: the last outcome of each
provider counts. -/
theorem find_foldl_upsertOutcome
    (outcomes : List ProviderOutcome)
    (deliveries : KeyedTable DeliveryRow.key) :
    (outcomes.foldl (upsertOutcome signal) deliveries).find
        (signalId, provider) =
      if signal.id = signalId then
        (((outcomes.filter fun outcome =>
          outcome.provider = provider).getLast?).map
            (deliveryRow signal)).or (deliveries.find (signalId, provider))
      else deliveries.find (signalId, provider) := by
  induction outcomes using List.reverseRecOn with
  | nil => simp
  | append_singleton outcomes outcome inductionHypothesis =>
      rw [List.foldl_append, List.foldl_cons, List.foldl_nil,
        find_upsertOutcome, inductionHypothesis]
      by_cases sameId : signal.id = signalId
      · by_cases sameName : outcome.provider = provider
        · simp [sameId, sameName]
        · simp [sameId, sameName]
      · simp [sameId]

theorem outcome_complete (result : DeliveryResult) :
    (sink.complete signal result).outcome signalId provider =
      if signal.id = signalId then
        (((result.deliveries.filter fun outcome =>
          outcome.provider = provider).getLast?).map
            (deliveryRow signal)).or (sink.outcome signalId provider)
      else sink.outcome signalId provider :=
  find_foldl_upsertOutcome _ _

end Sink

end OpsSignal
