import OpsSignal.AlertedProviders
import OpsSignal.InFlight

/-!
# What a fire-and-forget call has sent

Where every provider takes what it is sent, a delivery that has come to its
end was delivered by exactly the providers that it was sent to.
-/

namespace OpsSignal

open Interleaving LabelledRuns

variable {platform : Platform}

/-! ## Providers that take everything -/

/-- Every send succeeds. -/
def Answers.Willing (answers : Answers) : Prop :=
  ∀ name attempt, ∃ alertRef, answers name attempt = .ok alertRef

theorem delivers_of_willing
    {answers : Answers} (willing : answers.Willing) (name : String) :
    delivers answers name = true := by
  obtain ⟨alertRef, answer⟩ := willing name 1
  exact succeeds_ok answer _

section Delivery

variable {plan : DeliveryPlan} {providers : Registry}
  {priorRef : String → Option String} {answers : Answers}
  {schedule : List Nat} {system : System ChainTask ChainEvent}
  {name : String}

private theorem exists_chain_of_wasTried
    (reached : Delivering plan providers priorRef answers schedule system)
    (finished : Delivered providers priorRef answers system)
    (tried : wasTried name (events system) = true) :
    ∃ chain ∈ plan.targets, name ∈ chain := by
  obtain ⟨event, member, chosen⟩ := List.any_eq_true.mp tried
  rw [Bool.and_eq_true, beq_iff_eq] at chosen
  obtain ⟨chain, isTarget, inChain⟩ :=
    name_mem_of_mem_events reached finished member
  exact ⟨chain, isTarget, chosen.2 ▸ name_mem_of_mem_chainEvents inChain⟩

/-- A provider is in the result as delivered exactly if it was sent to. -/
theorem deliveredBy_iff_wasTried
    (willing : answers.Willing) (distinct : plan.providers.Nodup)
    (reached : Delivering plan providers priorRef answers schedule system)
    (finished : Delivered providers priorRef answers system)
    (cutOff : Option String) :
    (deliveryResult plan system cutOff).deliveredBy name = true ↔
      wasTried name (events system) = true := by
  constructor
  · intro delivered
    obtain ⟨outcome, member, _, named⟩ := deliveredBy_iff.mp delivered
    rw [deliveryResult, deliveries_summarize, List.mem_flatMap] at member
    obtain ⟨chain, isTarget, inChain⟩ := member
    obtain ⟨recorded, found, rfl⟩ := List.mem_map.mp inChain
    obtain ⟨other, listed, found⟩ := List.mem_filterMap.mp found
    have isOther : recorded.provider = other := by
      simpa using List.find?_some found
    rw [provider_cutShort, isOther] at named
    subst named
    rw [find?_outcomes_after,
      lastReport_events distinct reached finished isTarget listed] at found
    rw [wasTried_events distinct reached finished isTarget listed,
      decide_eq_true_iff]
    by_contra untried
    rw [if_neg untried] at found
    cases found
  · intro tried
    obtain ⟨chain, isTarget, listed⟩ :=
      exists_chain_of_wasTried reached finished tried
    apply deliveredBy_of_hasDelivered distinct reached
    rw [hasDelivered_events distinct reached finished isTarget listed,
      ← wasTried_events distinct reached finished isTarget listed, tried,
      delivers_of_willing willing]
    rfl

theorem contains_of_mem_triedNames :
    ∀ {chain : List String}, name ∈ triedNames providers answers chain →
      providers.contains name = true
  | [], member => by
      cases member
  | head :: rest, member => by
      rw [triedNames] at member
      split at member
      · rename_i configured
        rcases List.mem_cons.mp member with rfl | later
        · exact configured
        · split at later
          · cases later
          · exact contains_of_mem_triedNames later
      · exact contains_of_mem_triedNames member

/-- Only a configured provider is sent to. -/
theorem configured_of_wasTried
    (distinct : plan.providers.Nodup)
    (reached : Delivering plan providers priorRef answers schedule system)
    (finished : Delivered providers priorRef answers system)
    (tried : wasTried name (events system) = true) :
    providers.contains name = true := by
  obtain ⟨chain, isTarget, listed⟩ :=
    exists_chain_of_wasTried reached finished tried
  rw [wasTried_events distinct reached finished isTarget listed,
    decide_eq_true_iff] at tried
  exact contains_of_mem_triedNames tried

/-- The provider of a target of its own is sent to. -/
theorem wasTried_of_target
    (distinct : plan.providers.Nodup)
    (reached : Delivering plan providers priorRef answers schedule system)
    (finished : Delivered providers priorRef answers system)
    (target : [name] ∈ plan.targets)
    (configured : providers.contains name = true) :
    wasTried name (events system) = true := by
  rw [wasTried_events distinct reached finished target
    List.mem_cons_self]
  simp [triedNames, configured]

end Delivery

/-! ## Fire-and-forget calls -/

/-- The call waits for nobody, took this pipeline, and all its providers
take what they are sent. -/
structure Call.Fired
    (platform : Platform) (pipeline : Pipeline) (call : Call) : Prop where
  sound : call.Sound
  valid : validate call.input = .ok ()
  waits : call.waits = false
  pipeline : call.pipeline = pipeline
  action : 0 < call.stage.rank → call.signal.action = call.input.action
  key : 0 < call.stage.rank →
    call.signal.dedupKey = some (call.input.effectiveDedupKey platform)
  willing : 0 < call.stage.rank → call.answers.Willing
  unsent : call.stage.rank ≤ 4 → call.system.log = []
  finished : call.Ended →
    Delivered call.pipeline.providers (refOf call.priorRefs) call.answers
      call.system

/-- What a fire-and-forget call is, and that every send succeeds. -/
def FireAndForget : ClientStep → Prop
  | .start _ waits => waits = false
  | .call _ moment => moment.answers.Willing
  | .reload _ => False
  | _ => True

theorem fired_newCall
    {client : Client} {input : SignalInput}
    (valid : validate input = .ok ()) :
    (client.newCall platform input false).Fired platform
      client.pipeline where
  sound := sound_newCall client input false
  valid := valid
  waits := rfl
  pipeline := rfl
  action prepared := absurd prepared (Nat.lt_irrefl 0)
  key prepared := absurd prepared (Nat.lt_irrefl 0)
  willing prepared := absurd prepared (Nat.lt_irrefl 0)
  unsent _ := rfl
  finished ended := ended.elim

theorem fired_prepare
    {pipeline : Pipeline} {call : Call} (fired : call.Fired platform pipeline)
    (stage : call.stage = .preparing) {moment : Moment}
    (willing : moment.answers.Willing) (book : AlertBook) :
    (call.prepare platform moment book).Fired platform pipeline := by
  have unsent := fired.unsent (by simp [stage, CallStage.rank])
  have sound := @sound_prepare platform _ fired.sound moment book
  rw [Call.prepare] at sound ⊢
  split
  · rename_i lifecycle
    rw [if_pos lifecycle] at sound
    exact
      { sound := sound
        valid := fired.valid
        waits := fired.waits
        pipeline := fired.pipeline
        action := fun _ => rfl
        key := fun _ => congrArg some
          (effectiveDedupKey_fill fired.valid lifecycle _)
        willing := fun _ => willing
        unsent := fun _ => unsent
        finished := fun ended => ended.elim }
  · rename_i trigger
    rw [if_neg trigger] at sound
    exact
      { sound := sound
        valid := fired.valid
        waits := fired.waits
        pipeline := fired.pipeline
        action := fun _ => rfl
        key := fun _ => rfl
        willing := fun _ => willing
        unsent := fun _ => unsent
        finished := fun ended => ended.elim }

section Move

variable {pipeline : Pipeline} {call : Call} {stores : Stores}
  {moved : Call × Stores}

theorem answers_callMove
    (prepared : 0 < call.stage.rank)
    (moves : CallMove platform call stores moved) :
    moved.1.answers = call.answers := by
  cases moves with
  | prepare moment stage =>
      rw [stage] at prepared
      cases prepared
  | ask entry rest stage routes =>
      rw [Call.plan_, routes]
  | planned | record | unsent | leave | send | skip | join | finish | cut
  | deliver | settle | note | complete => rfl

private theorem unsent_callMove
    (unsent : call.stage.rank ≤ 4 → call.system.log = [])
    (moves : CallMove platform call stores moved)
    (early : moved.1.stage.rank ≤ 4) : moved.1.system.log = [] := by
  have before := unsent (Nat.le_trans (rank_callMove moves) early)
  cases moves with
  | prepare moment stage =>
      rw [Call.prepare]
      split
      · exact before
      · exact before
  | ask entry rest stage routes =>
      rw [Call.plan_, routes]
      exact before
  | deliver chain system stage advanced =>
      simp [stage, CallStage.rank] at early
  | send => rfl
  | planned | record | unsent | leave | skip | join | finish | cut
  | settle | note | complete => exact before

private theorem finished_callMove
    (fired : call.Fired platform pipeline)
    (moves : CallMove platform call stores moved) (ended : moved.1.Ended) :
    Delivered moved.1.pipeline.providers (refOf moved.1.priorRefs)
      moved.1.answers moved.1.system := by
  cases moves with
  | prepare moment stage =>
      rw [Call.prepare] at ended
      split at ended
      · exact ended.elim
      · exact ended.elim
  | ask entry rest stage routes =>
      rw [Call.plan_, routes] at ended
      simp [Call.Ended, stage] at ended
  | record stage =>
      have notEnded : ¬ (call.record stores).1.Ended := by
        by_cases empty : call.plan.targets = []
        · simp [Call.Ended, Call.record, empty]
        · simp [Call.Ended, Call.record, empty]
      exact absurd ended notEnded
  | leave stage holds empty => exact absurd empty ended
  | cut message stage waits =>
      rw [fired.waits] at waits
      cases waits
  | finish stage finished => exact finished
  | skip _ _ stage | join _ _ _ stage | deliver _ _ stage =>
      simp [Call.Ended, stage] at ended
  | planned | unsent | send => exact ended.elim
  | settle stage | note stage | complete stage =>
      exact fired.finished (by simp [Call.Ended, stage])

theorem fired_callMove
    (fired : call.Fired platform pipeline)
    (prepared : 0 < call.stage.rank)
    (moves : CallMove platform call stores moved) :
    moved.1.Fired platform pipeline where
  sound := sound_callMove fired.sound moves
  valid := by
    rw [input_callMove moves]
    exact fired.valid
  waits := (waits_callMove moves).trans fired.waits
  pipeline := (pipeline_callMove moves).trans fired.pipeline
  action _ := by
    rw [signal_callMove prepared moves, input_callMove moves]
    exact fired.action prepared
  key _ := by
    rw [signal_callMove prepared moves, input_callMove moves]
    exact fired.key prepared
  willing _ := by
    rw [answers_callMove prepared moves]
    exact fired.willing prepared
  unsent := unsent_callMove fired.unsent moves
  finished := finished_callMove fired moves

end Move

end OpsSignal
