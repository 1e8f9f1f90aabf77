import OpsSignal.SinkFailures

/-!
# The errors of `send`

`send` returns an error of the sink only for its last `complete`.  By then
the delivery has ended, the admission is settled and the alert recorded:
each stage of a call is passed by a step of its own, one after the other.
-/

namespace OpsSignal

open Interleaving LabelledRuns

variable {platform : Platform} {moment : Moment} {failures : Failures}

/-! ## What went before an error -/

/-- The stages a call with targets has passed since its delivery began. -/
def CallStage.passed : CallStage → List CallStage
  | .settling => [.delivering]
  | .noting => [.delivering, .settling]
  | .completing => [.delivering, .settling, .noting]
  | _ => []

/-- The call is on its way to its targets. -/
def CallStage.targeted : CallStage → Bool
  | .delivering | .settling | .noting | .completing => true
  | _ => false

theorem targets_callMove {call : Call} {stores : Stores}
    {moved : Call × Stores} (move : CallMove platform call stores moved)
    (targets : call.stage.targeted = true → call.plan.targets ≠ []) :
    moved.1.stage.targeted = true → moved.1.plan.targets ≠ [] := by
  cases move with
  | send stage holds nonempty => exact fun _ => nonempty
  | finish stage | cut _ stage | deliver _ _ stage | settle stage
  | note stage =>
      intro _
      exact targets (by rw [stage]; rfl)
  | prepare moment stage =>
      rw [Call.prepare]
      split
      · simp [CallStage.targeted]
      · simp [CallStage.targeted]
  | ask entry rest stage routes =>
      rw [Call.plan_, routes]
      simp [CallStage.targeted, stage]
  | record stage =>
      rw [Call.record]
      dsimp only
      split
      · simp [CallStage.targeted]
      · simp [CallStage.targeted]
  | skip _ _ stage | join _ _ _ stage =>
      simp [CallStage.targeted, stage]
  | planned | unsent | leave | complete =>
      simp [CallStage.targeted, Call.settleUnsent]

/-- One stage is passed after the other. -/
theorem passed_callMove {call : Call} {stores : Stores}
    {moved : Call × Stores} (move : CallMove platform call stores moved) :
    moved.1.stage = call.stage ∨ moved.1.stage.passed = [] ∨
      moved.1.stage.passed = call.stage.passed ++ [call.stage] := by
  cases move with
  | finish stage | cut _ stage | settle stage | note stage =>
      right
      right
      rw [stage]
      rfl
  | deliver | skip | join => exact Or.inl rfl
  | ask entry rest stage routes =>
      left
      rw [Call.plan_, routes]
  | prepare moment stage =>
      rw [Call.prepare]
      split
      · exact Or.inr (Or.inl rfl)
      · exact Or.inr (Or.inl rfl)
  | record stage =>
      rw [Call.record]
      dsimp only
      split
      · exact Or.inr (Or.inl rfl)
      · exact Or.inr (Or.inl rfl)
  | planned | unsent | leave | send | complete => exact Or.inr (Or.inl rfl)

/-- A step of the call itself, or its timeout. -/
def ClientStep.ofCall (index : Nat) : ClientStep → Prop
  | .call other _ => other = index
  | .cut other _ => other = index
  | _ => False

theorem ofCall_of_moves {label : ClientStep} {index : Nat} {call : Call}
    {stores : Stores} {moved : Call × Stores}
    (moves : CallMoves platform label index call stores moved) :
    moved.1.stage = call.stage ∨ label.ofCall index := by
  obtain ⟨_, rfl, _⟩ | ⟨_, _, delivers⟩ | ⟨_, rfl, _⟩ := moves
  · exact Or.inr rfl
  · obtain ⟨_, _, isMoved⟩ : ∃ system,
        advance call.program call.system _ = some system ∧ _ = moved := by
      rw [Call.deliver, if_pos (stage_of_deliver delivers)] at delivers
      exact Option.map_eq_some_iff.mp delivers
    rw [← isMoved]
    exact Or.inl rfl
  · exact Or.inr rfl

namespace FailingClient

section History

variable (platform failures) (start : FailingClient)
  (labels : List ClientStep) (index : Nat)

/-- At this position of the run the call stood at the stage and took a
step of its own. -/
def StepsFrom (stage : CallStage) (position : Nat) : Prop :=
  ∃ failing call label,
    Runs platform failures start (labels.take position) failing ∧
      failing.client.calls[index]? = some call ∧ call.stage = stage ∧
        labels[position]? = some label ∧ label.ofCall index

/-- The call took steps of its own from these stages, one later than the
other. -/
def PassedAt (stages : List CallStage) (positions : List Nat) : Prop :=
  positions.Pairwise (· < ·) ∧
    List.Forall₂ (StepsFrom platform failures start labels index) stages
      positions

/-- At this position the last write of the call failed. -/
def FailsAt (error : SignalError) (position : Nat) : Prop :=
  ∃ failing call moment,
    Runs platform failures start (labels.take position) failing ∧
      failing.client.calls[index]? = some call ∧
        call.stage = .completing ∧ call.waits = true ∧
          call.plan.targets ≠ [] ∧
            labels[position]? = some (.call index moment) ∧
              failures failing.asked (.complete call.signal call.result) =
                some error

/-- The last write failed, after the delivery had ended, the admission was
settled and the alert was recorded. -/
def FailedLast (error : SignalError) : Prop :=
  ∃ positions completed,
    PassedAt platform failures start labels index
        [.delivering, .settling, .noting] positions ∧
      (∀ position ∈ positions, position < completed) ∧
        FailsAt platform failures start labels index error completed

end History

section Extend

variable {start : FailingClient} {labels : List ClientStep} {index : Nat}

theorem StepsFrom.lt {stage : CallStage} {position : Nat}
    (steps : StepsFrom platform failures start labels index stage position) :
    position < labels.length := by
  obtain ⟨_, _, _, _, _, _, labelAt, _⟩ := steps
  exact (List.getElem?_eq_some_iff.mp labelAt).1

theorem StepsFrom.snoc {stage : CallStage} {position : Nat}
    (steps : StepsFrom platform failures start labels index stage position)
    (label : ClientStep) :
    StepsFrom platform failures start (labels ++ [label]) index stage
      position := by
  have earlier := steps.lt
  obtain ⟨failing, call, own, reached, isCall, isStage, labelAt, ofCall⟩ :=
    steps
  refine ⟨failing, call, own, ?_, isCall, isStage, ?_, ofCall⟩
  · rw [List.take_append_of_le_length (by omega)]
    exact reached
  · rw [List.getElem?_append_left earlier]
    exact labelAt

theorem PassedAt.snoc {stages : List CallStage} {positions : List Nat}
    (passed :
      PassedAt platform failures start labels index stages positions)
    (label : ClientStep) :
    PassedAt platform failures start (labels ++ [label]) index stages
      positions :=
  ⟨passed.1, passed.2.imp fun _ _ steps => steps.snoc label⟩

/-- All that was passed lies before the end. -/
theorem PassedAt.lt {stages : List CallStage} {positions : List Nat}
    (passed :
      PassedAt platform failures start labels index stages positions) :
    ∀ position ∈ positions, position < labels.length := by
  obtain ⟨ordered, steps⟩ := passed
  clear ordered
  induction steps with
  | nil => simp
  | cons first _ inductionHypothesis =>
      intro position member
      rcases List.mem_cons.mp member with rfl | later
      · exact first.lt
      · exact inductionHypothesis position later

/-- One more stage is passed. -/
theorem PassedAt.step {stages : List CallStage} {positions : List Nat}
    (passed :
      PassedAt platform failures start labels index stages positions)
    {failing : FailingClient} {call : Call} {label : ClientStep}
    (reached : Runs platform failures start labels failing)
    (isCall : failing.client.calls[index]? = some call)
    (ofCall : label.ofCall index) :
    PassedAt platform failures start (labels ++ [label]) index
      (stages ++ [call.stage]) (positions ++ [labels.length]) := by
  refine ⟨?_, ?_⟩
  · rw [List.pairwise_append]
    refine ⟨passed.1, List.pairwise_singleton _ _, ?_⟩
    intro position member last isLast
    rw [List.mem_singleton.mp isLast]
    exact passed.lt position member
  · apply List.rel_append (passed.snoc label).2
    refine List.Forall₂.cons ?_ List.Forall₂.nil
    refine ⟨failing, call, label, ?_, isCall, rfl, ?_, ofCall⟩
    · rw [List.take_left]
      exact reached
    · simp

theorem FailedLast.snoc {error : SignalError}
    (failed : FailedLast platform failures start labels index error)
    (label : ClientStep) :
    FailedLast platform failures start (labels ++ [label]) index error := by
  obtain ⟨positions, completed, passed, later, failing, call, moment,
    reached, isCall, stage, waits, targets, labelAt, fails⟩ := failed
  have earlier : completed < labels.length :=
    (List.getElem?_eq_some_iff.mp labelAt).1
  refine ⟨positions, completed, passed.snoc label, later, failing, call,
    moment, ?_, isCall, stage, waits, targets, ?_, fails⟩
  · rw [List.take_append_of_le_length (by omega)]
    exact reached
  · rw [List.getElem?_append_left earlier]
    exact labelAt

end Extend

/-! ## The errors of a run -/

/-- Only the last `complete` of a call that waits returns an error. -/
theorem error_of_askNext {call : Call} {port : Port} {moved : Call × Port}
    {error : SignalError}
    (moves : call.askNext failures platform moment port =
      some (moved, some (.error error))) :
    call.stage = .completing ∧ call.waits = true ∧
      failures port.asked (.complete call.signal call.result) =
        some error := by
  rw [Call.askNext] at moves
  cases stage : call.stage with
  | completing =>
      simp only [stage, Call.askComplete, Option.some.injEq] at moves
      split at moves
      · rename_i waits
        rw [Port.ask] at moves
        cases fails : failures port.asked
            (.complete call.signal call.result) with
        | some other =>
            simp only [fails, Prod.mk.injEq, Option.some.injEq,
              Except.error.injEq] at moves
            rw [moves.2]
            exact ⟨rfl, waits, rfl⟩
        | none => simp [fails] at moves
      · simp at moves
  | recording | unsent => simp [stage] at moves
  | holding =>
      simp only [stage, Option.some.injEq, Prod.mk.injEq] at moves
      have returned := moves.2
      split at returned
      · rw [Call.handBack] at returned
        split at returned
        · cases returned
        · cases returned
      · cases returned
  | preparing | planning | delivering | settling | noting | done =>
      simp [stage] at moves

/-- What a step adds to the answers. -/
theorem returned_of_step {failing next : FailingClient}
    {label : ClientStep} {index : Nat}
    {answer : Except SignalError SendReport}
    (stepped : failing.step failures platform label = some next)
    (listed : (index, answer) ∈ next.returned) :
    (index, answer) ∈ failing.returned ∨
      ∃ moment call moved, label = .call index moment ∧
        failing.client.calls[index]? = some call ∧
          call.askNext failures platform moment failing.port =
            some (moved, some answer) := by
  cases label with
  | call other moment =>
      obtain ⟨call, isCall, moves⟩ := Option.bind_eq_some_iff.mp stepped
      obtain ⟨⟨moved, returned⟩, isMoved, rfl⟩ :=
        Option.map_eq_some_iff.mp moves
      rcases List.mem_append.mp listed with before | now
      · exact Or.inl before
      · right
        cases returned with
        | none => simp at now
        | some given =>
            simp only [Option.map_some, Option.toList_some,
              List.mem_singleton, Prod.mk.injEq] at now
            obtain ⟨rfl, rfl⟩ := now
            exact ⟨moment, call, moved, rfl, isCall, isMoved⟩
  | deliver other chain =>
      obtain ⟨call, _, moves⟩ := Option.bind_eq_some_iff.mp stepped
      obtain ⟨moved, _, rfl⟩ := Option.map_eq_some_iff.mp moves
      left
      simpa [putCall] using listed
  | sender other moment =>
      obtain ⟨sender, _, moves⟩ := Option.bind_eq_some_iff.mp stepped
      obtain ⟨moved, _, rfl⟩ := Option.map_eq_some_iff.mp moves
      exact Or.inl listed
  | deliverGroup other chain =>
      obtain ⟨sender, _, moves⟩ := Option.bind_eq_some_iff.mp stepped
      obtain ⟨moved, _, rfl⟩ := Option.map_eq_some_iff.mp moves
      exact Or.inl listed
  | start | cut | timer | flush | reload =>
      simp only [step] at stepped
      obtain ⟨client, _, rfl⟩ := Option.map_eq_some_iff.mp stepped
      exact Or.inl listed

/-- Where the calls after a step are from. -/
theorem call_of_step {failing next : FailingClient} {label : ClientStep}
    {index : Nat} {later : Call}
    (stepped : failing.step failures platform label = some next)
    (found : next.client.calls[index]? = some later) :
    (∃ input waits, validate input = .ok () ∧
        later = failing.client.newCall platform input waits) ∨
      ∃ call, failing.client.calls[index]? = some call ∧
        (later = call ∨ ∃ moved,
          CallMoves platform label index call failing.client.stores moved ∧
            later = moved.1) := by
  have same := @forget_step platform failures failing label
  rw [stepped, Option.map_some] at same
  obtain ⟨plain, isPlain, unwritten⟩ := Option.map_eq_some_iff.mp same.symm
  have calls : plain.calls = next.client.calls :=
    (congrArg Client.calls unwritten :)
  rw [← calls] at found
  exact OpsSignal.call_of_step found isPlain

/-- What is known of a run. -/
structure Recorded
    (platform : Platform) (failures : Failures) (start : FailingClient)
    (labels : List ClientStep) (failing : FailingClient) : Prop where
  passed : ∀ (index : Nat) (call : Call),
    failing.client.calls[index]? = some call →
    ∃ positions, PassedAt platform failures start labels index
      call.stage.passed positions
  targets : ∀ (index : Nat) (call : Call),
    failing.client.calls[index]? = some call →
    call.stage.targeted = true → call.plan.targets ≠ []
  returned : ∀ index error, (index, .error error) ∈ failing.returned →
    FailedLast platform failures start labels index error

theorem passedAt_nil
    (start : FailingClient) (labels : List ClientStep) (index : Nat) :
    PassedAt platform failures start labels index [] [] :=
  ⟨List.Pairwise.nil, List.Forall₂.nil⟩

section Step

variable {start failing next : FailingClient} {labels : List ClientStep}
  {label : ClientStep}

theorem passed_step
    (reached : Runs platform failures start labels failing)
    (recorded : Recorded platform failures start labels failing)
    (stepped : failing.step failures platform label = some next)
    {index : Nat} {later : Call}
    (found : next.client.calls[index]? = some later) :
    ∃ positions, PassedAt platform failures start (labels ++ [label]) index
      later.stage.passed positions := by
  rcases call_of_step stepped found with ⟨input, waits, _, rfl⟩ |
    ⟨call, isCall, rfl | ⟨moved, moves, rfl⟩⟩
  · exact ⟨[], passedAt_nil _ _ _⟩
  · obtain ⟨positions, passed⟩ := recorded.passed index later isCall
    exact ⟨positions, passed.snoc label⟩
  · obtain ⟨positions, passed⟩ := recorded.passed index call isCall
    rcases passed_callMove moves.move with same | none | further
    · exact ⟨positions, same ▸ passed.snoc label⟩
    · exact ⟨[], none ▸ passedAt_nil _ _ _⟩
    · rcases ofCall_of_moves moves with same | own
      · exact ⟨positions, same ▸ passed.snoc label⟩
      · exact ⟨_, further ▸ passed.step reached isCall own⟩

theorem targets_step
    (recorded : Recorded platform failures start labels failing)
    (stepped : failing.step failures platform label = some next)
    {index : Nat} {later : Call}
    (found : next.client.calls[index]? = some later) :
    later.stage.targeted = true → later.plan.targets ≠ [] := by
  rcases call_of_step stepped found with ⟨input, waits, _, rfl⟩ |
    ⟨call, isCall, rfl | ⟨moved, moves, rfl⟩⟩
  · intro targeted
    cases targeted
  · exact recorded.targets index later isCall
  · exact targets_callMove moves.move (recorded.targets index call isCall)

/-- An error is returned once all else is done. -/
theorem failedLast_step
    (reached : Runs platform failures start labels failing)
    (recorded : Recorded platform failures start labels failing)
    (stepped : failing.step failures platform label = some next)
    {index : Nat} {error : SignalError}
    (listed : (index, .error error) ∈ next.returned) :
    FailedLast platform failures start (labels ++ [label]) index error := by
  rcases returned_of_step stepped listed with before |
    ⟨moment, call, moved, rfl, isCall, moves⟩
  · exact (recorded.returned index error before).snoc label
  · obtain ⟨stage, waits, fails⟩ := error_of_askNext moves
    obtain ⟨positions, passed⟩ := recorded.passed index call isCall
    rw [stage] at passed
    have targets := recorded.targets index call isCall (by rw [stage]; rfl)
    refine ⟨positions, labels.length, passed.snoc _, passed.lt, failing,
      call, moment, ?_, isCall, stage, waits, targets, ?_, fails⟩
    · rw [List.take_left]
      exact reached
    · simp

end Step

theorem recorded_of_reached
    {start failing : FailingClient} {labels : List ClientStep}
    (noCalls : start.client.calls = []) (noAnswers : start.returned = [])
    (reached : Runs platform failures start labels failing) :
    Recorded platform failures start labels failing := by
  induction reached with
  | nil =>
      refine ⟨?_, ?_, ?_⟩
      · intro index call isCall
        simp [noCalls] at isCall
      · intro index call isCall
        simp [noCalls] at isCall
      · intro index error listed
        simp [noAnswers] at listed
  | snoc reached _ stepped inductionHypothesis =>
      refine ⟨?_, ?_, ?_⟩
      · intro index call isCall
        exact passed_step reached inductionHypothesis stepped isCall
      · intro index call isCall
        exact targets_step inductionHypothesis stepped isCall
      · intro index error listed
        exact failedLast_step reached inductionHypothesis stepped listed

end FailingClient

/-- Whichever calls of the sink fail, a client does the same work; and
`send` returns an error only when the last write of a signal with targets
fails, with all else done. -/
theorem sink_failures_unseen
    (platform : Platform) (pipeline : Pipeline) (stores : Stores)
    (first second : Failures) (labels : List ClientStep) :
    ∀ one, FailingClient.Runs platform first
        (FailingClient.opened pipeline stores) labels one →
      (∃ other, FailingClient.Runs platform second
          (FailingClient.opened pipeline stores) labels other ∧
        SameWork one.client other.client) ∧
      ∀ index error, (index, .error error) ∈ one.returned →
        FailingClient.FailedLast platform first
          (FailingClient.opened pipeline stores) labels index error := by
  intro one reached
  refine ⟨FailingClient.sameWork_run reached, ?_⟩
  exact (FailingClient.recorded_of_reached rfl rfl reached).returned

/-- The disk is full when the outcome of a signal is stored. -/
def completesFail : Failures :=
  fun _ call =>
    match call with
    | .complete _ _ => some (.sink "disk full")
    | _ => none

/-- A `send` from its start to its end. -/
def sentLabels : List ClientStep :=
  .start (diskInput .trigger) true ::
    List.replicate 5 (.call 0 plainMoment) ++
      List.replicate 3 (.deliver 0 0) ++
        List.replicate 4 (.call 0 plainMoment)

/-- PagerDuty has the alert, and the caller an error. -/
def failedSend : FailingClient :=
  (run (FailingClient.step completesFail plainPlatform) anyStep
    (FailingClient.opened pagedPipeline {}) sentLabels).getD
      (FailingClient.opened pagedPipeline {})

theorem sink_failures_unseen_disk :
    (∃ other, FailingClient.Runs plainPlatform unfailing
        (FailingClient.opened pagedPipeline {}) sentLabels other ∧
      SameWork failedSend.client other.client) ∧
      FailingClient.FailedLast plainPlatform completesFail
        (FailingClient.opened pagedPipeline {}) sentLabels 0
          (.sink "disk full") := by
  have reached : FailingClient.Runs plainPlatform completesFail
      (FailingClient.opened pagedPipeline {}) sentLabels failedSend :=
    reaches_of_isSome _ (by decide +kernel)
  have unseen := sink_failures_unseen plainPlatform pagedPipeline {}
    completesFail unfailing sentLabels failedSend reached
  refine ⟨unseen.1, unseen.2 0 _ ?_⟩
  have answered : failedSend.returned[0]? =
      some (0, .error (.sink "disk full")) := by
    rfl
  exact List.mem_of_getElem? answered

end OpsSignal
