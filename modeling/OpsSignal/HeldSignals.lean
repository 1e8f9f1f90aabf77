import OpsSignal.Lib.Holdings
import OpsSignal.Quiescence

/-!
# Held signals go out once

A call hands its signal to one group for each grouped route of its plan.
No step loses a held signal or copies it, so once the client is at rest
each call's signal has gone out with exactly one group for each of these
routes.
-/

namespace OpsSignal

open Holdings LabelledRuns Quiescing

variable {platform : Platform} {pipeline : Pipeline}

/-! ## What a call has handed out -/

/-- How many groups the call has joined. -/
def Call.joinedGroups (call : Call) : Nat :=
  if call.stage.rank < 4 then 0
  else call.plan.grouped.length - call.holds.length

/-- The call's signal, once for each group it has joined. -/
def Call.heldSignals (call : Call) : Multiset Signal :=
  Multiset.replicate call.joinedGroups call.signal

/-- What a call keeps of the grouped routes of its plan. -/
structure Call.Hands (call : Call) : Prop where
  indexed : call.Indexed
  fits : 2 < call.stage.rank →
    call.holds.length ≤ call.plan.grouped.length
  waits : call.stage = .unsent → call.holds = call.plan.grouped
  handed : 4 < call.stage.rank → call.holds = []

theorem hands_newCall
    (client : Client) (input : SignalInput) (waits : Bool) :
    (client.newCall platform input waits).Hands where
  indexed := indexed_newCall client input waits
  fits late := absurd late (Nat.not_lt_zero 2)
  waits unsent := CallStage.noConfusion unsent
  handed late := absurd late (Nat.not_lt_zero 4)

section Moves

variable {call : Call} {stores : Stores} {moved : Call × Stores}

theorem hands_callMove
    (hands : call.Hands) (moves : CallMove platform call stores moved) :
    moved.1.Hands := by
  have indexed := indexed_callMove hands.indexed moves
  cases moves with
  | prepare moment stage =>
      rw [Call.prepare] at indexed ⊢
      split at indexed
      · rename_i lifecycle
        rw [if_pos lifecycle]
        exact ⟨indexed, fun late => absurd late (by simp [CallStage.rank]),
          CallStage.noConfusion,
          fun late => absurd late (by simp [CallStage.rank])⟩
      · rename_i trigger
        rw [if_neg trigger]
        exact ⟨indexed, fun late => absurd late (by simp [CallStage.rank]),
          CallStage.noConfusion,
          fun late => absurd late (by simp [CallStage.rank])⟩
  | ask entry rest stage routes =>
      rw [Call.plan_, routes] at indexed ⊢
      refine ⟨indexed, fun late => absurd late ?_, fun unsent => ?_,
        fun late => absurd late ?_⟩
      · simp [stage, CallStage.rank]
      · cases stage.symm.trans unsent
      · simp [stage, CallStage.rank]
  | planned stage routes =>
      exact ⟨indexed, fun late => absurd late (by simp [CallStage.rank]),
        CallStage.noConfusion,
        fun late => absurd late (by simp [CallStage.rank])⟩
  | record stage =>
      rw [Call.record] at indexed ⊢
      refine ⟨indexed, fun _ => le_refl _, fun _ => rfl,
        fun late => absurd late ?_⟩
      dsimp only
      split
      · decide
      · decide
  | unsent stage =>
      exact ⟨indexed, fun _ => hands.fits (by simp [stage, CallStage.rank]),
        CallStage.noConfusion,
        fun late => absurd late (by simp [Call.settleUnsent,
          CallStage.rank])⟩
  | leave stage holds empty | send stage holds nonempty =>
      exact ⟨indexed, fun _ => hands.fits (by simp [stage, CallStage.rank]),
        CallStage.noConfusion, fun _ => holds⟩
  | skip entry rest stage holds | join route entry rest stage holds =>
      have fits := hands.fits (by simp [stage, CallStage.rank])
      rw [holds, List.length_cons] at fits
      refine ⟨indexed, fun _ => Nat.le_of_succ_le fits, fun unsent => ?_,
        fun late => absurd late ?_⟩
      · cases stage.symm.trans unsent
      · simp [stage, CallStage.rank]
  | deliver chain system stage advanced =>
      have late : 4 < call.stage.rank := by simp [stage, CallStage.rank]
      exact ⟨indexed, fun _ => hands.fits (by omega),
        fun unsent => CallStage.noConfusion (stage.symm.trans unsent),
        fun _ => hands.handed late⟩
  | finish stage | cut _ stage | settle stage | note stage
  | complete stage =>
      have late : 4 < call.stage.rank := by simp [stage, CallStage.rank]
      exact ⟨indexed, fun _ => hands.fits (by omega),
        CallStage.noConfusion, fun _ => hands.handed late⟩

/-- Before the groups nothing is handed out. -/
theorem heldSignals_of_early (early : call.stage.rank < 4) :
    call.heldSignals = 0 := by
  rw [Call.heldSignals, Call.joinedGroups, if_pos early]
  rfl

private theorem heldSignals_idle
    {later : Call} (early : call.stage.rank < 4) (after : later.heldSignals = 0)
    (idle : call.joining = none) :
    later.heldSignals = call.heldSignals +
      (call.joining.map fun _ => call.signal).toList := by
  rw [idle, after, heldSignals_of_early early]
  rfl

/-- A step hands out the signal if the call joins a group, and only then. -/
theorem heldSignals_callMove
    (hands : call.Hands) (moves : CallMove platform call stores moved) :
    moved.1.heldSignals = call.heldSignals +
      (call.joining.map fun _ => call.signal).toList := by
  have idle : call.stage ≠ .holding → call.joining = none := by
    intro elsewhere
    rw [Call.joining, if_neg elsewhere]
  cases moves with
  | prepare moment stage =>
      apply heldSignals_idle (by simp [stage, CallStage.rank]) ?_
        (idle (by simp [stage]))
      apply heldSignals_of_early
      rw [Call.prepare]
      split
      · exact Nat.lt_of_sub_eq_succ rfl
      · exact Nat.lt_of_sub_eq_succ rfl
  | ask entry rest stage routes =>
      apply heldSignals_idle (by simp [stage, CallStage.rank]) ?_
        (idle (by simp [stage]))
      apply heldSignals_of_early
      rw [Call.plan_, routes]
      simp [stage, CallStage.rank]
  | planned stage routes =>
      exact heldSignals_idle (by simp [stage, CallStage.rank])
        (heldSignals_of_early (Nat.lt_of_sub_eq_succ rfl))
        (idle (by simp [stage]))
  | record stage =>
      apply heldSignals_idle (by simp [stage, CallStage.rank]) ?_
        (idle (by simp [stage]))
      simp [Call.heldSignals, Call.joinedGroups, Call.record]
  | unsent stage =>
      apply heldSignals_idle (by simp [stage, CallStage.rank]) ?_
        (idle (by simp [stage]))
      simp [Call.heldSignals, Call.joinedGroups, Call.settleUnsent,
        hands.waits stage]
  | leave stage holds empty | send stage holds nonempty =>
      simp [Call.heldSignals, Call.joinedGroups, Call.joining, stage, holds,
        CallStage.rank]
  | skip entry rest stage holds absent =>
      have present := hands.indexed.holds entry (by simp [holds])
      rw [absent] at present
      cases present
  | join route entry rest stage holds listed =>
      have fits := hands.fits (by simp [stage, CallStage.rank])
      rw [holds, List.length_cons] at fits
      have one : call.plan.grouped.length - rest.length =
          call.plan.grouped.length - (rest.length + 1) + 1 := by
        omega
      simp only [Call.heldSignals, Call.joinedGroups, Call.joining, stage,
        holds, CallStage.rank, List.length_cons, List.head?_cons,
        Option.bind_some, listed, if_true, Option.map_some,
        Option.toList_some, lt_self_iff_false, if_false]
      rw [one, Multiset.replicate_add]
      rfl
  | finish stage | cut _ stage | deliver _ _ stage | settle stage
  | note stage | complete stage =>
      rw [idle (by simp [stage])]
      simp [Call.heldSignals, Call.joinedGroups, Call.finish, stage,
        CallStage.rank]

theorem joined_of_callMoves
    {client : Client} {label : ClientStep} {index : Nat}
    (found : client.calls[index]? = some call)
    (moves : CallMoves platform label index call stores moved) :
    (client.joined platform label).map Member.signal =
      call.joining.map fun _ => call.signal := by
  rcases moves with ⟨moment, rfl, _⟩ | ⟨chain, rfl, moves⟩ |
    ⟨message, rfl, ended, moves, _⟩
  · rw [Client.joined, found, Option.bind_some, Option.map_map]
    rfl
  · rw [Call.joining, if_neg (by simp [stage_of_deliver moves])]
    rfl
  · rw [Call.joining, if_neg (by simp [stage_of_cut moves])]
    rfl

end Moves

/-! ## What is held -/

/-- The signals of all members, in open groups and in those that are being
or have been sent. -/
def Stores.heldSignals (stores : Stores) : Multiset Signal :=
  stores.members.map Member.signal

theorem heldSignals_step
    {client next : Client} {label : ClientStep}
    (stepped : client.step platform label = some next) :
    next.stores.heldSignals = client.stores.heldSignals +
      ((client.joined platform label).map Member.signal).toList := by
  have perm := (members_step stepped).map Member.signal
  rw [List.map_append] at perm
  rw [Stores.heldSignals, Stores.heldSignals, Option.toList_map]
  exact Multiset.coe_eq_coe.mpr perm

/-- The calls hand out what the groups have. -/
theorem held_calls_step
    {client next : Client} {label : ClientStep}
    (hands : ∀ call ∈ client.calls, call.Hands)
    (balanced : client.stores.heldSignals =
      held Call.heldSignals client.calls)
    (stepped : client.step platform label = some next) :
    next.stores.heldSignals = held Call.heldSignals next.calls := by
  rw [heldSignals_step stepped, balanced]
  rcases step_cases stepped with ⟨input, waits, rfl, _, rfl⟩ |
    ⟨index, call, moved, found, moves, rfl⟩ |
    ⟨index, sender, moved, _, moves, rfl⟩ | ⟨index, rfl, elapsed⟩ |
    ⟨rfl, rfl⟩ | ⟨pipeline, rfl, rfl⟩
  · have silent : (client.newCall platform input waits).heldSignals = 0 :=
      heldSignals_of_early (Nat.lt_of_sub_eq_succ rfl)
    simp [Client.joined, silent]
  · rw [joined_of_callMoves found moves]
    obtain ⟨rest, before, after⟩ :=
      @exists_rest _ _ Call.heldSignals _ _ _ found
    have handed := heldSignals_callMove
      (hands call (List.mem_of_getElem? found)) moves.move
    rw [Client.putCall, before]
    dsimp only
    rw [after, handed]
    exact add_right_comm _ _ _
  · have none : client.joined platform label = none := by
      rcases moves with ⟨moment, rfl, _⟩ | ⟨chain, rfl, _⟩
      · rfl
      · rfl
    rw [none]
    exact add_zero _
  · obtain ⟨timer, _, rfl⟩ := Option.map_eq_some_iff.mp elapsed
    dsimp only
    split
    · exact add_zero _
    · exact add_zero _
  · exact add_zero _
  · exact add_zero _

theorem hands_calls
    {labels : List ClientStep} {client : Client}
    (reached : Runs platform anyStep pipeline labels client) :
    ∀ call ∈ client.calls, call.Hands := by
  apply calls_keep Call.Hands reached
  · intro client input waits _
    exact hands_newCall client input waits
  · intro call stores moved
    exact hands_callMove

/-! ## Main result -/

/-- In every reachable state the groups have the signals that the calls
have handed out, each once for each group the call has joined.  At rest
these are all the grouped routes of the plans, and every one of the
signals is a member of a group that has been sent. -/
theorem held_signals_go_out_once
    {labels : List ClientStep} {client : Client}
    (reached : Runs platform anyStep pipeline labels client) :
    client.stores.heldSignals = held Call.heldSignals client.calls ∧
      (client.AtRest →
        held (fun sender => (sender.closed.members.map Member.signal :
            Multiset Signal)) client.stores.senders =
          held (fun call => Multiset.replicate call.plan.grouped.length
            call.signal) client.calls ∧
        ∀ call ∈ client.calls, call.plan.grouped ≠ [] →
          ∃ sender ∈ client.stores.senders, sender.stage = .done ∧
            call.signal ∈ sender.closed.members.map Member.signal) := by
  have balanced : client.stores.heldSignals =
      held Call.heldSignals client.calls := by
    induction reached with
    | nil => rfl
    | snoc earlier _ stepped inductionHypothesis =>
        exact held_calls_step (hands_calls earlier.anyStep)
          inductionHypothesis stepped
  refine ⟨balanced, fun atRest => ?_⟩
  have sent : client.stores.heldSignals =
      held (fun sender => (sender.closed.members.map Member.signal :
        Multiset Signal)) client.stores.senders := by
    rw [Stores.heldSignals, Stores.members, Groups.members, atRest.groups,
      List.flatMap_nil, List.nil_append, Stores.sentMembers]
    induction client.stores.senders with
    | nil => rfl
    | cons sender rest inductionHypothesis =>
        rw [List.flatMap_cons, List.map_append, ← Multiset.coe_add,
          inductionHypothesis, held_cons]
  have whole : held Call.heldSignals client.calls =
      held (fun call => Multiset.replicate call.plan.grouped.length
        call.signal) client.calls := by
    rw [held, held]
    congr 1
    apply List.map_congr_left
    intro call member
    have done := atRest.calls call member
    have handed := (hands_calls reached call member).handed
      (by simp [done, CallStage.rank])
    simp [Call.heldSignals, Call.joinedGroups, done, handed,
      CallStage.rank]
  have same := sent.symm.trans (balanced.trans whole)
  refine ⟨same, ?_⟩
  intro call member grouped
  have listed : call.signal ∈ held (fun call =>
      Multiset.replicate call.plan.grouped.length call.signal)
        client.calls := by
    apply mem_held member
    rw [Multiset.mem_replicate]
    exact ⟨fun empty => grouped (List.length_eq_zero_iff.mp empty), rfl⟩
  rw [← same] at listed
  obtain ⟨sender, isSender, inGroup⟩ := exists_holder listed
  exact ⟨sender, isSender, atRest.senders sender isSender,
    Multiset.mem_coe.mp inGroup⟩

/-- One signal that two grouped routes take is a member of two groups that
have been sent. -/
theorem held_signals_go_out_once_twice :
    ∃ client signal, bothDelivered = some client ∧ client.AtRest ∧
      held (fun sender => (sender.closed.members.map Member.signal :
        Multiset Signal)) client.stores.senders = {signal, signal} := by
  have computed : (bothDelivered.any fun client =>
      decide client.AtRest && decide (client.calls.length = 1) &&
        client.calls[0]?.any fun call =>
          decide (call.plan.grouped.length = 2)) = true := by
    decide +kernel
  obtain ⟨client, ran, computed⟩ := Option.any_eq_true _ _ |>.mp computed
  simp only [Bool.and_eq_true, decide_eq_true_eq] at computed
  obtain ⟨⟨atRest, single⟩, twice⟩ := computed
  obtain ⟨call, found, grouped⟩ := Option.any_eq_true _ _ |>.mp twice
  obtain ⟨only, calls⟩ := List.length_eq_one_iff.mp single
  rw [calls, List.getElem?_cons_zero, Option.some.injEq] at found
  have reached := runs_of_stampedOnce (stampedOnce_of_run ran)
  have sent := ((held_signals_go_out_once reached).2 atRest).1
  refine ⟨client, call.signal, ran, atRest, ?_⟩
  rw [sent, calls, found, held_cons, held_nil, of_decide_eq_true grouped]
  rfl

end OpsSignal
