import OpsSignal.AlertStates
import OpsSignal.ClientSteps
import OpsSignal.Lib.LabelledRuns

/-!
# Resolved alerts

A trigger opens an alert again after it was resolved.  An `acknowledge`
that is delivered after the resolve moves the alert back too: the book
takes the state of the last signal, whatever the state before it was.
-/

namespace OpsSignal

open Interleaving LabelledRuns

/-- The step records that the provider delivered a trigger of the key. -/
def Retriggers
    (name provider : String) (client : Client) (label : ClientStep) : Prop :=
  ∃ call ∈ notes client label,
    call.signal.action = .trigger ∧ call.signal.dedupKey = some name ∧
      call.result.deliveredBy provider = true

/-- The step records that a provider whose alert is resolved delivered an
`acknowledge` of its key. -/
def AcknowledgesResolved (client : Client) (label : ClientStep) : Prop :=
  ∃ call ∈ notes client label, call.signal.action = .acknowledge ∧
    ∃ name ∈ call.signal.dedupKey,
      ∃ outcome ∈ call.result.deliveries, outcome.status = .delivered ∧
        client.stores.book.stateOf (name, outcome.provider) =
          some .resolved

instance decidableRetriggers
    (name provider : String) (client : Client) (label : ClientStep) :
    Decidable (Retriggers name provider client label) := by
  unfold Retriggers
  infer_instance

instance decidableAcknowledgesResolved
    (client : Client) (label : ClientStep) :
    Decidable (AcknowledgesResolved client label) := by
  unfold AcknowledgesResolved
  infer_instance

theorem deliveredBy_iff {result : DeliveryResult} {name : String} :
    result.deliveredBy name = true ↔
      ∃ outcome ∈ result.deliveries,
        outcome.status = .delivered ∧ outcome.provider = name := by
  simp [DeliveryResult.deliveredBy]

variable {platform : Platform} {client next : Client} {label : ClientStep}

/-! ## One step -/

section OneStep

variable {name provider : String}

/-- What a step does to one alert. -/
theorem stateOf_step (stepped : client.step platform label = some next) :
    next.stores.book.stateOf (name, provider) =
      match notes client label with
      | some call =>
          if call.signal.dedupKey = some name ∧
              call.result.deliveredBy provider = true then
            AlertBook.afterDelivery call.signal.action
              (client.stores.book.stateOf (name, provider))
          else
            client.stores.book.stateOf (name, provider)
      | none => client.stores.book.stateOf (name, provider) := by
  rw [book_step stepped]
  cases notes client label with
  | none => rfl
  | some call => exact AlertBook.stateOf_record _ _ _ _ _ _

/-- A resolved alert stays resolved. -/
theorem resolved_step
    (stepped : client.step platform label = some next)
    (settled : ¬ AcknowledgesResolved client label)
    (untriggered : ¬ Retriggers name provider client label)
    (resolved :
      client.stores.book.stateOf (name, provider) = some .resolved) :
    next.stores.book.stateOf (name, provider) = some .resolved := by
  rw [stateOf_step stepped]
  cases noted : notes client label with
  | none => exact resolved
  | some call =>
      dsimp only
      split
      · rename_i received
        obtain ⟨sameKey, delivered⟩ := received
        rw [resolved]
        cases action : call.signal.action with
        | trigger =>
            exact absurd ⟨call, noted, action, sameKey, delivered⟩
              untriggered
        | acknowledge =>
            obtain ⟨outcome, member, isDelivered, rfl⟩ :=
              deliveredBy_iff.mp delivered
            exact absurd
              ⟨call, noted, action, name, sameKey, outcome, member,
                isDelivered, resolved⟩ settled
        | resolve => rfl
      · exact resolved

/-- A step leaves all resolved alerts that it does not trigger again
resolved exactly if it acknowledges none of them. -/
theorem keeps_resolved_iff
    (stepped : client.step platform label = some next) :
    (∀ name provider, ¬ Retriggers name provider client label →
        client.stores.book.stateOf (name, provider) = some .resolved →
        next.stores.book.stateOf (name, provider) = some .resolved) ↔
      ¬ AcknowledgesResolved client label := by
  constructor
  · intro keeps late
    obtain ⟨call, noted, action, name, sameKey, outcome, member, isDelivered,
      resolved⟩ := late
    have untriggered :
        ¬ Retriggers name outcome.provider client label := by
      intro retriggers
      obtain ⟨other, otherNoted, triggers, _⟩ := retriggers
      rw [noted] at otherNoted
      rw [← Option.some.inj otherNoted, action] at triggers
      cases triggers
    have kept := keeps name outcome.provider untriggered resolved
    have delivered : call.result.deliveredBy outcome.provider = true :=
      deliveredBy_iff.mpr ⟨outcome, member, isDelivered, rfl⟩
    rw [stateOf_step stepped, noted] at kept
    dsimp only at kept
    rw [if_pos ⟨sameKey, delivered⟩, action, resolved] at kept
    cases kept
  · intro settled name provider untriggered resolved
    exact resolved_step stepped settled untriggered resolved

end OneStep

/-! ## Runs -/

/-- Until it is triggered again, a resolved alert stays resolved and is
not listed, through every run that acknowledges no resolved alert. -/
theorem resolved_until_triggered
    {name provider : String} {labels : List ClientStep} {final : Client}
    (reached :
      Reaches (Client.step platform)
        (fun state label => ¬ AcknowledgesResolved state label ∧
          ¬ Retriggers name provider state label)
        client labels final)
    (resolved :
      client.stores.book.stateOf (name, provider) = some .resolved) :
    final.stores.book.stateOf (name, provider) = some .resolved ∧
      ∀ alert ∈ final.stores.book.openAlerts name,
        alert.provider ≠ provider := by
  have stays :
      final.stores.book.stateOf (name, provider) = some .resolved := by
    refine @Reaches.invariant _ _ _ _
      (fun state : Client =>
        state.stores.book.stateOf (name, provider) = some .resolved)
      _ _ _ reached resolved ?_
    intro state label after held met stepped
    exact resolved_step stepped met.1 met.2 held
  refine ⟨stays, ?_⟩
  intro alert listed same
  obtain ⟨state, found, unresolved⟩ :=
    AlertBook.mem_openAlerts.mp ⟨alert, listed, same⟩
  rw [stays] at found
  exact unresolved (Option.some.inj found).symm

/-! ## Sample runs -/

/-- Everything goes to PagerDuty. -/
def pagedPipeline : Pipeline where
  routing := ⟨[{ providers := ["pagerduty"] }]⟩
  providers := [("pagerduty", ⟨"pagerduty", true⟩)]

/-- A signal about the disk. -/
def diskInput (action : Action) : SignalInput where
  source := "host"
  eventType := "disk"
  title := "disk full"
  dedupKey := some "disk"
  action := action

/-- A call that is sent to one provider, from its start to its end. -/
def wholeCall (action : Action) (index turns : Nat) : List ClientStep :=
  .start (diskInput action) false ::
    List.replicate turns (.call index plainMoment) ++
      List.replicate 3 (.deliver index 0) ++
        List.replicate 4 (.call index plainMoment)

/-- The disk alert is raised and resolved. -/
def resolvedClient : Client :=
  (run (Client.step plainPlatform) anyStep
    (Client.fromPipeline pagedPipeline)
    (wholeCall .trigger 0 5 ++ wholeCall .resolve 1 3)).getD
      (Client.fromPipeline pagedPipeline)

/-- The alert is not triggered again. -/
def untriggered (client : Client) (label : ClientStep) : Prop :=
  ¬ Retriggers "disk" "pagerduty" client label

/-- And it is not acknowledged either. -/
def undisturbed (client : Client) (label : ClientStep) : Prop :=
  ¬ AcknowledgesResolved client label ∧ untriggered client label

instance decidableUntriggered (client : Client) (label : ClientStep) :
    Decidable (untriggered client label) :=
  inferInstanceAs (Decidable (¬ _))

instance decidableUndisturbed (client : Client) (label : ClientStep) :
    Decidable (undisturbed client label) :=
  inferInstanceAs (Decidable (_ ∧ _))

def resolvedAgain : Client :=
  (run (Client.step plainPlatform) undisturbed resolvedClient
    (wholeCall .resolve 2 3)).getD resolvedClient

theorem resolved_until_triggered_disk :
    resolvedAgain.stores.book.stateOf ("disk", "pagerduty") =
        some .resolved ∧
      ∀ alert ∈ resolvedAgain.stores.book.openAlerts "disk",
        alert.provider ≠ "pagerduty" :=
  resolved_until_triggered
    (reaches_of_isSome resolvedClient (by decide +kernel))
    (by decide +kernel)

def acknowledgedClient : Client :=
  (run (Client.step plainPlatform) untriggered resolvedClient
    (wholeCall .acknowledge 2 3)).getD resolvedClient

/-- An `acknowledge` after the resolve goes to the provider, because that
matches the key itself, and the alert is listed as open again. -/
theorem acknowledge_reopens :
    ¬ ∀ before middle after final,
        Reaches (Client.step plainPlatform) anyStep
          (Client.fromPipeline pagedPipeline) before middle →
        middle.stores.book.stateOf ("disk", "pagerduty") =
          some .resolved →
        Reaches (Client.step plainPlatform) untriggered middle after final →
        ∀ alert ∈ final.stores.book.openAlerts "disk",
          alert.provider ≠ "pagerduty" := by
  intro claimed
  have first : Reaches (Client.step plainPlatform) anyStep
      (Client.fromPipeline pagedPipeline)
      (wholeCall .trigger 0 5 ++ wholeCall .resolve 1 3) resolvedClient :=
    reaches_of_isSome _ (by decide +kernel)
  have second : Reaches (Client.step plainPlatform) untriggered
      resolvedClient (wholeCall .acknowledge 2 3) acknowledgedClient :=
    reaches_of_isSome _ (by decide +kernel)
  have unlisted := claimed _ _ _ _ first (by decide +kernel) second
  revert unlisted
  decide +kernel

end OpsSignal
