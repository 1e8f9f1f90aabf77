import OpsSignal.Lib.Interleaving
import OpsSignal.Pipeline

/-!
# Delivery

`deliver` runs one task per target of a plan, all at once.  A task tries
its providers in order, each up to three times, until one succeeds.  What
every provider answers to every attempt is a parameter.
-/

namespace OpsSignal

open Interleaving

inductive DeliveryStatus where
  | pending
  | delivered
  | partly
  | failed
  | skipped
  | grouped
  deriving DecidableEq, Repr

def DeliveryStatus.display : DeliveryStatus → String
  | .pending => "pending"
  | .delivered => "delivered"
  | .partly => "partial"
  | .failed => "failed"
  | .skipped => "skipped"
  | .grouped => "grouped"

/-- How delivery to one provider went. -/
structure ProviderOutcome where
  provider : String
  status : DeliveryStatus
  error : Option String
  attempts : Nat
  deriving DecidableEq, Repr

/-- The overall outcome of delivering one signal. -/
structure DeliveryResult where
  status : DeliveryStatus
  provider : Option String
  error : Option String
  attempts : Nat
  deliveries : List ProviderOutcome
  suppressed : List String
  grouped : List String
  deriving DecidableEq, Repr

/-- What `send_with_ref` returns: the provider's reference to the alert,
if it has one. -/
abbrev Answer := Except String (Option String)

/-- What each provider answers to each of its attempts. -/
abbrev Answers := String → Nat → Answer

def maxRetryAttempts : Nat := 3

/-! ## One target -/

/-- Where the task of a target stands. -/
inductive ChainTask where
  /-- Before the next provider of the chain. -/
  | idle (rest : List String)
  /-- About to send. -/
  | calling (name : String) (attempt : Nat) (rest : List String)
  /-- The send is on its way. -/
  | awaiting (name : String) (attempt : Nat) (rest : List String)
  /-- Backing off before the attempt. -/
  | sleeping (name : String) (attempt : Nat) (rest : List String)
  deriving DecidableEq, Repr

/-- What a target's task does that others can see. -/
inductive ChainEvent where
  | unknown (name : String)
  | reported (outcome : ProviderOutcome)
  | sent (name : String) (prior : Option String)
  | answered (name : String) (answer : Answer)
  | kept (name : String) (alertRef : String)

namespace ChainEvent

/-- The provider an event is about. -/
def name : ChainEvent → String
  | .unknown name => name
  | .reported outcome => outcome.provider
  | .sent name _ => name
  | .answered name _ => name
  | .kept name _ => name

def isSend : ChainEvent → Bool
  | .sent _ _ => true
  | _ => false

def isSuccess : ChainEvent → Bool
  | .answered _ (.ok _) => true
  | _ => false

def isFailure : ChainEvent → Bool
  | .answered _ (.error _) => true
  | _ => false

section Quiet

variable (name : String) (outcome : ProviderOutcome)

@[simp]
theorem isSend_reported : (reported outcome).isSend = false :=
  rfl

@[simp]
theorem isSend_unknown : (unknown name).isSend = false :=
  rfl

@[simp]
theorem isSuccess_reported : (reported outcome).isSuccess = false :=
  rfl

@[simp]
theorem isSuccess_unknown : (unknown name).isSuccess = false :=
  rfl

@[simp]
theorem isFailure_reported : (reported outcome).isFailure = false :=
  rfl

@[simp]
theorem isFailure_unknown : (unknown name).isFailure = false :=
  rfl

end Quiet

end ChainEvent

/-- `keep_ref`, where the provider returned a reference. -/
def keepRef (name : String) : Option String → List ChainEvent
  | some alertRef => [.kept name alertRef]
  | none => []

section Chain

variable (providers : Registry) (priorRef : String → Option String)
  (answers : Answers)

/-- `deliver_chain`, one step at a time.  A step is what happens between
two points where other tasks may run. -/
def deliverChain : Program ChainTask ChainEvent
  | .idle [] => none
  | .idle (name :: rest) =>
      if providers.contains name then
        some (.calling name 1 rest,
          [.reported ⟨name, .pending, none, 0⟩])
      else
        some (.idle rest, [.unknown name])
  | .calling name attempt rest =>
      some (.awaiting name attempt rest, [.sent name (priorRef name)])
  | .awaiting name attempt rest =>
      match answers name attempt with
      | .ok alertRef =>
          some (.idle [],
            .answered name (.ok alertRef) :: keepRef name alertRef ++
              [.reported ⟨name, .delivered, none, attempt⟩])
      | .error e =>
          if attempt < maxRetryAttempts then
            some (.sleeping name (attempt + 1) rest,
              [.answered name (.error e)])
          else
            some (.idle rest,
              [.answered name (.error e),
                .reported ⟨name, .failed, some e, maxRetryAttempts⟩])
  | .sleeping name attempt rest =>
      some (.calling name attempt rest, [])

/-- An upper bound on the steps a task has left. -/
def ChainTask.rank : ChainTask → Nat
  | .idle rest => 10 * rest.length
  | .calling _ attempt rest =>
      10 * rest.length + 3 * (maxRetryAttempts - attempt) + 2
  | .awaiting _ attempt rest =>
      10 * rest.length + 3 * (maxRetryAttempts - attempt) + 1
  | .sleeping _ attempt rest =>
      10 * rest.length + 3 * (maxRetryAttempts - attempt) + 3

/-- Every task comes to an end. -/
theorem rank_deliverChain :
    ∀ task next now,
      deliverChain providers priorRef answers task = some (next, now) →
        next.rank < task.rank := by
  intro task next now stepped
  cases task with
  | idle rest =>
      cases rest with
      | nil => cases stepped
      | cons name rest =>
          simp only [deliverChain] at stepped
          split at stepped
          · cases stepped
            simp only [ChainTask.rank, maxRetryAttempts, List.length_cons]
            omega
          · cases stepped
            simp only [ChainTask.rank, List.length_cons]
            omega
  | calling name attempt rest =>
      cases stepped
      simp only [ChainTask.rank]
      omega
  | awaiting name attempt rest =>
      simp only [deliverChain] at stepped
      split at stepped
      · cases stepped
        simp only [ChainTask.rank, List.length_nil]
        omega
      · split at stepped
        · cases stepped
          simp only [ChainTask.rank]
          omega
        · cases stepped
          simp only [ChainTask.rank]
          omega
  | sleeping name attempt rest =>
      cases stepped
      simp only [ChainTask.rank]
      omega

/-- The events of one provider's turn: the attempt, and up to `left` more
after it. -/
def turnEvents (name : String) : Nat → Nat → List ChainEvent
  | attempt, left =>
      .sent name (priorRef name) :: .answered name (answers name attempt) ::
        match answers name attempt, left with
        | .ok alertRef, _ =>
            keepRef name alertRef ++
              [.reported ⟨name, .delivered, none, attempt⟩]
        | .error e, 0 =>
            [.reported ⟨name, .failed, some e, maxRetryAttempts⟩]
        | .error _, left + 1 => turnEvents name (attempt + 1) left

/-- Whether the attempt, or one of the `left` after it, succeeds. -/
def succeeds (name : String) : Nat → Nat → Bool
  | attempt, left =>
      match answers name attempt, left with
      | .ok _, _ => true
      | .error _, 0 => false
      | .error _, left + 1 => succeeds name (attempt + 1) left

/-- Whether a provider's turn ends in a success. -/
def delivers (name : String) : Bool :=
  succeeds answers name 1 (maxRetryAttempts - 1)

section Turn

variable {providers priorRef answers} {name : String} {attempt : Nat}

theorem turnEvents_ok
    {alertRef : Option String}
    (answer : answers name attempt = .ok alertRef) (left : Nat) :
    turnEvents priorRef answers name attempt left =
      .sent name (priorRef name) :: .answered name (.ok alertRef) ::
        (keepRef name alertRef ++
          [.reported ⟨name, .delivered, none, attempt⟩]) := by
  cases left <;> simp [turnEvents, answer]

theorem turnEvents_last
    {e : String} (answer : answers name attempt = .error e) :
    turnEvents priorRef answers name attempt 0 =
      [.sent name (priorRef name), .answered name (.error e),
        .reported ⟨name, .failed, some e, maxRetryAttempts⟩] := by
  simp [turnEvents, answer]

theorem turnEvents_again
    {e : String} (answer : answers name attempt = .error e) (left : Nat) :
    turnEvents priorRef answers name attempt (left + 1) =
      .sent name (priorRef name) :: .answered name (.error e) ::
        turnEvents priorRef answers name (attempt + 1) left := by
  simp [turnEvents, answer]

theorem succeeds_ok
    {alertRef : Option String}
    (answer : answers name attempt = .ok alertRef) (left : Nat) :
    succeeds answers name attempt left = true := by
  cases left <;> simp [succeeds, answer]

theorem succeeds_last
    {e : String} (answer : answers name attempt = .error e) :
    succeeds answers name attempt 0 = false := by
  simp [succeeds, answer]

theorem succeeds_again
    {e : String} (answer : answers name attempt = .error e) (left : Nat) :
    succeeds answers name attempt (left + 1) =
      succeeds answers name (attempt + 1) left := by
  simp [succeeds, answer]

end Turn

/-- Everything the task of a chain does. -/
def chainEvents : List String → List ChainEvent
  | [] => []
  | name :: rest =>
      if providers.contains name then
        .reported ⟨name, .pending, none, 0⟩ ::
          turnEvents priorRef answers name 1 (maxRetryAttempts - 1) ++
            if delivers answers name then [] else chainEvents rest
      else
        .unknown name :: chainEvents rest

private theorem step_awaiting_ok
    {name : String} {attempt : Nat} {alertRef : Option String}
    (answer : answers name attempt = .ok alertRef) (rest : List String) :
    deliverChain providers priorRef answers (.awaiting name attempt rest) =
      some (.idle [],
        .answered name (.ok alertRef) :: keepRef name alertRef ++
          [.reported ⟨name, .delivered, none, attempt⟩]) := by
  simp [deliverChain, answer]

private theorem step_awaiting_again
    {name e : String} {attempt : Nat}
    (answer : answers name attempt = .error e)
    (more : attempt < maxRetryAttempts) (rest : List String) :
    deliverChain providers priorRef answers (.awaiting name attempt rest) =
      some (.sleeping name (attempt + 1) rest,
        [.answered name (.error e)]) := by
  simp [deliverChain, answer, more]

private theorem step_awaiting_last
    {name e : String} {attempt : Nat}
    (answer : answers name attempt = .error e)
    (last : ¬ attempt < maxRetryAttempts) (rest : List String) :
    deliverChain providers priorRef answers (.awaiting name attempt rest) =
      some (.idle rest,
        [.answered name (.error e),
          .reported ⟨name, .failed, some e, maxRetryAttempts⟩]) := by
  simp [deliverChain, answer, last]

private theorem emits_turn
    (name : String) (rest : List String) {later : List ChainEvent}
    (tail : Emits (deliverChain providers priorRef answers)
      (.idle rest) later) :
    ∀ (attempt left : Nat), attempt + left = maxRetryAttempts →
      Emits (deliverChain providers priorRef answers)
        (.calling name attempt rest)
        (turnEvents priorRef answers name attempt left ++
          if succeeds answers name attempt left then [] else later) := by
  intro attempt left total
  have called : deliverChain providers priorRef answers
      (.calling name attempt rest) =
        some (.awaiting name attempt rest, [.sent name (priorRef name)]) :=
    rfl
  have slept : deliverChain providers priorRef answers
      (.sleeping name (attempt + 1) rest) =
        some (.calling name (attempt + 1) rest, []) :=
    rfl
  have finished :
      Emits (deliverChain providers priorRef answers) (.idle []) [] :=
    emits_of_finished rfl
  cases answer : answers name attempt with
  | ok alertRef =>
      rw [turnEvents_ok answer, succeeds_ok answer]
      simpa using emits_of_step called
        (emits_of_step
          (step_awaiting_ok providers priorRef answers answer rest) finished)
  | error e =>
      cases left with
      | zero =>
          have last : ¬ attempt < maxRetryAttempts := by omega
          rw [turnEvents_last answer, succeeds_last answer]
          simpa using emits_of_step called
            (emits_of_step
              (step_awaiting_last providers priorRef answers answer last
                rest) tail)
      | succ left =>
          have more : attempt < maxRetryAttempts := by omega
          have again := emits_of_step slept
            (emits_turn name rest tail (attempt + 1) left (by omega))
          rw [turnEvents_again answer, succeeds_again answer]
          simpa using emits_of_step called
            (emits_of_step
              (step_awaiting_again providers priorRef answers answer more
                rest) again)

/-- The closed form is what the task does when it is left alone. -/
theorem emits_chainEvents :
    ∀ chain : List String,
      Emits (deliverChain providers priorRef answers) (.idle chain)
        (chainEvents providers priorRef answers chain)
  | [] => emits_of_finished rfl
  | name :: rest => by
      by_cases known : providers.contains name = true
      · have turn := emits_turn providers priorRef answers name rest
          (emits_chainEvents rest) 1 (maxRetryAttempts - 1) rfl
        have begun : deliverChain providers priorRef answers
            (.idle (name :: rest)) =
              some (.calling name 1 rest,
                [.reported ⟨name, .pending, none, 0⟩]) := by
          simp [deliverChain, known]
        rw [chainEvents, if_pos known, List.cons_append]
        exact emits_of_step begun turn
      · rw [chainEvents, if_neg known]
        have skipped : deliverChain providers priorRef answers
            (.idle (name :: rest)) =
              some (.idle rest, [.unknown name]) := by
          simp [deliverChain, known]
        exact emits_of_step skipped (emits_chainEvents rest)

end Chain

/-! ## The shared record of outcomes -/

/-- The outcomes and references of one delivery. -/
structure Tracker where
  outcomes : List ProviderOutcome := []
  refs : List (String × String) := []
  deriving DecidableEq, Repr

/-- `report`: the first outcome of the same provider is replaced. -/
def reportOutcome (outcome : ProviderOutcome) :
    List ProviderOutcome → List ProviderOutcome
  | [] => [outcome]
  | existing :: rest =>
      if existing.provider = outcome.provider then
        outcome :: rest
      else
        existing :: reportOutcome outcome rest

namespace Tracker

def apply (tracker : Tracker) : ChainEvent → Tracker
  | .reported outcome =>
      { tracker with outcomes := reportOutcome outcome tracker.outcomes }
  | .kept name alertRef =>
      { tracker with
        refs :=
          tracker.refs.filter (·.1 ≠ name) ++ [(name, alertRef)] }
  | _ => tracker

/-- The record after these events. -/
def after (events : List ChainEvent) : Tracker :=
  events.foldl apply {}

end Tracker

/-! ## Folding the outcomes into one result -/

/-- Providers still pending when delivery is cut off count as failed. -/
def cutShort (cutOff : Option String) (outcome : ProviderOutcome) :
    ProviderOutcome :=
  match cutOff with
  | some message =>
      if outcome.status = .pending then
        { outcome with status := .failed, error := some message }
      else
        outcome
  | none => outcome

/-- The recorded outcomes of a chain's providers, in chain order. -/
def triedOutcomes
    (outcomes : List ProviderOutcome) (cutOff : Option String)
    (chain : List String) : List ProviderOutcome :=
  (chain.filterMap fun name =>
    outcomes.find? fun outcome => outcome.provider == name).map
      (cutShort cutOff)

/-- The loop variables of `summarize`. -/
structure Summary where
  deliveries : List ProviderOutcome := []
  delivered : List String := []
  errors : List String := []
  attempts : Nat := 0

/-- One turn of the loop over the chains.  The provider tried last decides
how the target went. -/
def Summary.addChain
    (single : Bool) (outcomes : List ProviderOutcome)
    (cutOff : Option String) (summary : Summary) (chain : List String) :
    Summary :=
  let tried := triedOutcomes outcomes cutOff chain
  match tried.getLast? with
  | some outcome =>
      if outcome.status = .delivered then
        { deliveries := summary.deliveries ++ tried
          delivered := summary.delivered ++ [outcome.provider]
          errors := summary.errors
          attempts := Nat.max summary.attempts outcome.attempts }
      else
        let error := outcome.error.getD outcome.status.display
        { deliveries := summary.deliveries ++ tried
          delivered := summary.delivered
          errors :=
            if single then [error]
            else summary.errors ++ [outcome.provider ++ ": " ++ error]
          attempts := Nat.max summary.attempts outcome.attempts }
  | none =>
      { summary with
        errors := summary.errors ++ ["no provider delivered successfully"] }

/-- `summarize`. -/
def summarize
    (plan : DeliveryPlan) (outcomes : List ProviderOutcome)
    (cutOff : Option String) : DeliveryResult :=
  let summary :=
    plan.targets.foldl
      (Summary.addChain (plan.targets.length == 1) outcomes cutOff) {}
  let status : DeliveryStatus :=
    if plan.targets.isEmpty && !plan.grouped.isEmpty then .grouped
    else if plan.targets.isEmpty then .skipped
    else if summary.delivered.length = plan.targets.length then .delivered
    else if summary.delivered.isEmpty then .failed
    else .partly
  let errors :=
    if status = .skipped then plan.suppressed else summary.errors
  { status := status
    provider :=
      if summary.delivered.isEmpty then none
      else some (String.intercalate "," summary.delivered)
    error :=
      if errors.isEmpty then none
      else some (String.intercalate "; " errors)
    attempts := summary.attempts
    deliveries := summary.deliveries
    suppressed := plan.suppressed
    grouped := plan.grouped.map Prod.snd }

/-! ## The whole delivery -/

/-- The tasks of a plan before any of them has moved. -/
def deliverStart (plan : DeliveryPlan) : System ChainTask ChainEvent :=
  initial (plan.targets.map ChainTask.idle)

/-- Everything done so far, in the order it was done. -/
def events (system : System ChainTask ChainEvent) : List ChainEvent :=
  system.log.map Prod.snd

/-- The result of a delivery: `none` for `cutOff` once all tasks have
finished, and a message if a timeout stops them. -/
def deliveryResult
    (plan : DeliveryPlan) (system : System ChainTask ChainEvent)
    (cutOff : Option String) : DeliveryResult :=
  summarize plan (Tracker.after (events system)).outcomes cutOff

end OpsSignal
