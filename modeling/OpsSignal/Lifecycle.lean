import OpsSignal.Delivery

/-!
# The alert lifecycle

Which providers hold an alert for each dedup key: one row for each key and
provider, raised as open, then acknowledged or resolved.  A trigger opens
it again.  An `acknowledge` or `resolve` is planned from these rows.
-/

namespace OpsSignal

inductive AlertState where
  | opened
  | acknowledged
  | resolved
  deriving DecidableEq, Repr

def AlertState.display : AlertState → String
  | .opened => "open"
  | .acknowledged => "acknowledged"
  | .resolved => "resolved"

/-- A row of the `alerts` table. -/
structure AlertRow where
  dedupKey : String
  provider : String
  state : AlertState
  alertRef : Option String
  title : String
  signalId : String
  deriving DecidableEq, Repr

/-- The primary key of a row. -/
def AlertRow.key (row : AlertRow) : String × String :=
  (row.dedupKey, row.provider)

/-- The rows in the order they were inserted. -/
structure AlertBook where
  rows : List AlertRow
  keyed : (rows.map AlertRow.key).Nodup

/-- A provider holding an alert that is not resolved yet. -/
structure OpenAlert where
  provider : String
  alertRef : Option String
  title : String
  deriving DecidableEq, Repr

/-- What an action leaves an alert in. -/
def stateAfter : Action → AlertState
  | .trigger => .opened
  | .acknowledge => .acknowledged
  | .resolve => .resolved

/-- `INSERT … ON CONFLICT DO UPDATE`: an existing row keeps its place. -/
def upsertRow (row : AlertRow) : List AlertRow → List AlertRow
  | [] => [row]
  | existing :: rest =>
      if existing.key = row.key then row :: rest
      else existing :: upsertRow row rest

theorem keys_upsertRow (row : AlertRow) :
    ∀ rows, (upsertRow row rows).map AlertRow.key =
      if row.key ∈ rows.map AlertRow.key then rows.map AlertRow.key
      else rows.map AlertRow.key ++ [row.key]
  | [] => by
      simp [upsertRow]
  | existing :: rest => by
      have later := keys_upsertRow row rest
      rw [upsertRow]
      by_cases same : existing.key = row.key
      · simp [same]
      · rw [if_neg same, List.map_cons, later, List.map_cons]
        have listed : row.key ∈ existing.key :: rest.map AlertRow.key ↔
            row.key ∈ rest.map AlertRow.key := by
          simp [Ne.symm same]
        rw [if_congr listed rfl rfl]
        split
        · rfl
        · rfl

/-- `UPDATE … SET state`. -/
def setStateRow (key : String × String) (state : AlertState)
    (row : AlertRow) : AlertRow :=
  if row.key = key then { row with state := state } else row

@[simp]
theorem key_setStateRow
    (key : String × String) (state : AlertState) (row : AlertRow) :
    (setStateRow key state row).key = row.key := by
  rw [setStateRow]
  split
  · rfl
  · rfl

namespace AlertBook

def empty : AlertBook where
  rows := []
  keyed := List.nodup_nil

/-- `open_alerts`, in the order the providers got the alert. -/
def openAlerts (key : String) (book : AlertBook) : List OpenAlert :=
  (book.rows.filter fun row =>
    row.dedupKey == key && row.state ≠ .resolved).map fun row =>
      ⟨row.provider, row.alertRef, row.title⟩

def upsert (row : AlertRow) (book : AlertBook) : AlertBook where
  rows := upsertRow row book.rows
  keyed := by
    rw [keys_upsertRow]
    split
    · exact book.keyed
    · rename_i unlisted
      rw [List.nodup_append]
      refine ⟨book.keyed, List.nodup_singleton _, ?_⟩
      intro first firstMember second secondMember same
      rw [List.mem_singleton.mp secondMember] at same
      exact unlisted (same ▸ firstMember)

def setState (key : String × String) (state : AlertState)
    (book : AlertBook) : AlertBook where
  rows := book.rows.map (setStateRow key state)
  keyed := by
    rw [List.map_map]
    have same : AlertRow.key ∘ setStateRow key state = AlertRow.key :=
      funext (key_setStateRow key state)
    rw [same]
    exact book.keyed

/-- One delivered outcome of a signal. -/
def recordOutcome
    (signal : Signal) (key : String) (refs : List (String × String))
    (book : AlertBook) (outcome : ProviderOutcome) : AlertBook :=
  match signal.action with
  | .trigger =>
      book.upsert
        { dedupKey := key
          provider := outcome.provider
          state := .opened
          alertRef := refs.lookup outcome.provider
          title := signal.title
          signalId := signal.id }
  | .acknowledge | .resolve =>
      book.setState (key, outcome.provider) (stateAfter signal.action)

/-- `record`: what delivering a signal did to the alerts. -/
def record
    (signal : Signal) (result : DeliveryResult)
    (refs : List (String × String)) (book : AlertBook) : AlertBook :=
  match signal.dedupKey with
  | none => book
  | some key =>
      (result.deliveries.filter fun outcome =>
        outcome.status = .delivered).foldl (recordOutcome signal key refs)
          book

end AlertBook

/-- The line of a lifecycle signal that goes nowhere. -/
def noAlertLine (signal : Signal) : String :=
  "no open alert with dedup key " ++ signal.dedupKey.getD "" ++ " to " ++
    signal.action.display ++
    ", and no route to a provider that resolves by key"

/-- Providers of matching routes that resolve by key themselves. -/
def resolvingProviders (pipeline : Pipeline) (signal : Signal) :
    List String :=
  (pipeline.routing.providersAnySeverity signal).filter fun name =>
    (pipeline.providers.get name).any Provider.resolvesByKey

/-- `lifecycle_plan`: every provider holding the alert, each on its own;
with no record of the alert, the providers that resolve by key. -/
def lifecyclePlan
    (pipeline : Pipeline) (signal : Signal) (opened : List OpenAlert) :
    DeliveryPlan :=
  let holding := (opened.filter fun alert =>
    pipeline.providers.contains alert.provider).map fun alert =>
      [alert.provider]
  let targets :=
    if holding.isEmpty then
      (resolvingProviders pipeline signal).map fun name => [name]
    else
      holding
  { targets := targets
    suppressed := if targets.isEmpty then [noAlertLine signal] else []
    grouped := [] }

/-- Each provider's reference to the alert a lifecycle signal acts on. -/
def priorRefs (opened : List OpenAlert) : List (String × String) :=
  opened.filterMap fun alert =>
    alert.alertRef.map fun alertRef => (alert.provider, alertRef)

end OpsSignal
