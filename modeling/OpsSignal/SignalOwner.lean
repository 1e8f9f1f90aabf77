import OpsSignal.HeldMembers
import OpsSignal.Sink

/-!
# The owner of an id

Ids are stamped by `prepare` and on digests.  In a run in which one call
alone is stamped with an id, the id belongs to its signal: no other call
and no digest carries it, and every held member that does is a copy of
the call's signal.
-/

namespace OpsSignal

open LabelledRuns

variable {platform : Platform}

/-! ## The course of a call -/

/-- How far a call has come. -/
def CallStage.rank : CallStage → Nat
  | .preparing => 0
  | .planning => 1
  | .recording => 2
  | .unsent => 3
  | .holding => 4
  | .delivering => 5
  | .settling => 6
  | .noting => 7
  | .completing => 8
  | .done => 9

theorem rank_pos_of_ne {stage : CallStage} (begun : stage ≠ .preparing) :
    0 < stage.rank := by
  cases stage with
  | preparing => exact absurd rfl begun
  | planning | recording | unsent | holding | delivering | settling
  | noting | completing | done => decide

section Course

variable {call : Call} {stores : Stores} {moved : Call × Stores}

theorem rank_callMove (moves : CallMove platform call stores moved) :
    call.stage.rank ≤ moved.1.stage.rank := by
  cases moves with
  | prepare moment stage =>
      rw [stage]
      exact Nat.zero_le _
  | ask entry rest stage routes =>
      rw [Call.plan_, routes]
  | record stage =>
      rw [stage, Call.record]
      dsimp only
      split
      · decide
      · decide
  | skip | join | deliver => exact Nat.le_refl _
  | planned stage | unsent stage | leave stage | send stage | finish stage
  | cut _ stage | settle stage | note stage | complete stage =>
      simp [stage, CallStage.rank, Call.settleUnsent, Call.finish]

/-- The signal is stamped once. -/
theorem signal_callMove
    (prepared : 0 < call.stage.rank)
    (moves : CallMove platform call stores moved) :
    moved.1.signal = call.signal := by
  cases moves with
  | prepare moment stage =>
      rw [stage] at prepared
      cases prepared
  | ask entry rest stage routes =>
      rw [Call.plan_, routes]
  | planned | record | unsent | leave | send | skip | join | finish | cut
  | deliver | settle | note | complete => rfl

/-- The plan is made once. -/
theorem plan_callMove
    (planned : 1 < call.stage.rank)
    (moves : CallMove platform call stores moved) :
    moved.1.plan = call.plan := by
  cases moves with
  | prepare moment stage =>
      rw [stage] at planned
      cases planned
  | ask entry rest stage routes =>
      rw [Call.plan_, routes]
  | planned stage routes =>
      rw [stage] at planned
      exact absurd planned (Nat.lt_irrefl 1)
  | record | unsent | leave | send | skip | join | finish | cut
  | deliver | settle | note | complete => rfl

end Course

/-! ## Stamps -/

/-- The step stamps a signal or a digest with the id. -/
def Stamps (id : String) (client : Client) : ClientStep → Prop
  | .call index moment => moment.id = id ∧
      ∃ call, client.calls[index]? = some call ∧ call.stage = .preparing
  | .sender index moment => moment.id = id ∧
      ∃ sender, client.stores.senders[index]? = some sender ∧
        sender.stage = .opening ∧ sender.closed.single = false
  | _ => False

/-- No step stamps the id. -/
def Unstamping (id : String) (client : Client) (label : ClientStep) :
    Prop :=
  ¬ Stamps id client label

theorem stamps_iff {id : String} {client : Client} {label : ClientStep} :
    Stamps id client label ↔
      (match label with
        | .call index moment => decide (moment.id = id) &&
            client.calls[index]?.any fun call =>
              decide (call.stage = .preparing)
        | .sender index moment => decide (moment.id = id) &&
            client.stores.senders[index]?.any fun sender =>
              decide (sender.stage = .opening) && !sender.closed.single
        | _ => false) = true := by
  cases label with
  | call index moment => simp [Stamps, Option.any_eq_true]
  | sender index moment => simp [Stamps, Option.any_eq_true]
  | start | deliver | cut | timer | flush | deliverGroup | reload =>
      simp [Stamps]

instance decidableUnstamping
    (id : String) (client : Client) (label : ClientStep) :
    Decidable (Unstamping id client label) :=
  decidable_of_iff _ (not_congr stamps_iff).symm

section Stamp

variable {client : Client} {label : ClientStep} {id : String}

/-- A call that was not stamped by the step had its signal before. -/
theorem signal_callMoves
    {index : Nat} {call : Call} {moved : Call × Stores}
    (found : client.calls[index]? = some call)
    (moves : CallMoves platform label index call client.stores moved)
    (fresh : Unstamping id client label)
    (named : moved.1.signal.id = id) (prepared : 0 < moved.1.stage.rank) :
    0 < call.stage.rank ∧ moved.1.signal = call.signal := by
  by_cases stage : call.stage = .preparing
  · exfalso
    obtain ⟨moment, rfl, rfl⟩ := moves.prepares stage
    apply fresh
    refine ⟨?_, call, found, stage⟩
    rw [← named, Call.prepare]
    split
    · rfl
    · rfl
  · have ranked := rank_pos_of_ne stage
    exact ⟨ranked, signal_callMove ranked moves.move⟩

/-- A digest that was not stamped by the step had its signal before. -/
theorem signal_senderMoves
    {index : Nat} {sender : Sender} {moved : Sender × Stores}
    (found : client.stores.senders[index]? = some sender)
    (moves : SenderMoves platform label index client.pipeline sender
      client.stores moved)
    (fresh : Unstamping id client label)
    (several : sender.closed.single = false)
    (named : moved.1.signal.id = id) :
    sender.stage ≠ .opening ∧ sender.signal.id = id := by
  by_cases stage : sender.stage = .opening
  · exfalso
    rcases moves with ⟨moment, rfl, moves⟩ | ⟨chain, rfl, moves⟩
    · simp only [Sender.next, stage, Option.some.injEq] at moves
      subst moves
      apply fresh
      refine ⟨?_, sender, found, stage, several⟩
      rw [← named, Sender.open_, if_neg (by simp [several])]
      rfl
    · rw [Sender.deliver, if_neg (by simp [stage])] at moves
      cases moves
  · refine ⟨stage, ?_⟩
    rw [← named]
    cases moves.move with
    | open_ moment isOpening => exact absurd isOpening stage
    | gate | start | deliver | finish | settle | settleMember | settled
    | complete | completeMember | completed => rfl

theorem joined_eq_some {member : Member}
    (joined : client.joined platform label = some member) :
    ∃ (index : Nat) (call : Call) (route : Route),
      client.calls[index]? = some call ∧ call.stage = .holding ∧
        member = call.member platform route := by
  cases label with
  | call index moment =>
      obtain ⟨call, found, joins⟩ := Option.bind_eq_some_iff.mp joined
      obtain ⟨route, joining, rfl⟩ := Option.map_eq_some_iff.mp joins
      rw [Call.joining] at joining
      split at joining
      · rename_i stage
        exact ⟨index, call, route, found, stage, rfl⟩
      · cases joining
  | start | deliver | cut | timer | flush | sender | deliverGroup
  | reload => cases joined

end Stamp

/-! ## Before the stamp and after it -/

/-- No digest carries the id. -/
def NoDigest (id : String) (client : Client) : Prop :=
  ∀ sender ∈ client.stores.senders, sender.closed.single = false →
    sender.stage ≠ .opening → sender.signal.id ≠ id

/-- Nothing carries the id. -/
structure Unstamped (id : String) (client : Client) : Prop where
  calls : ∀ call ∈ client.calls, 0 < call.stage.rank →
    call.signal.id ≠ id
  members : ∀ member ∈ client.stores.members, member.signal.id ≠ id
  digests : NoDigest id client

/-- The id belongs to the signal of one call. -/
structure Owner
    (id : String) (index : Nat) (call : Call) (client : Client) : Prop where
  found : client.calls[index]? = some call
  prepared : 0 < call.stage.rank
  named : call.signal.id = id
  alone : ∀ (other : Nat) (another : Call),
    client.calls[other]? = some another → 0 < another.stage.rank →
      another.signal.id = id → other = index
  members : ∀ member ∈ client.stores.members, member.signal.id = id →
    member.signal = call.signal ∧
      member.ownsRow = call.plan.targets.isEmpty ∧ 3 < call.stage.rank
  digests : NoDigest id client

section Steps

variable {id : String} {client next : Client} {label : ClientStep}

theorem noDigest_step
    (digests : NoDigest id client) (fresh : Unstamping id client label)
    (stepped : client.step platform label = some next) :
    NoDigest id next := by
  intro later member several opened named
  obtain ⟨index, found⟩ := List.mem_iff_getElem?.mp member
  rcases sender_of_step found stepped with ⟨closed, rfl⟩ |
    ⟨sender, isSender, same | ⟨moved, moves, rfl⟩⟩
  · exact opened rfl
  · subst same
    exact digests later (List.mem_of_getElem? isSender) several opened named
  · rw [closed_senderMove moves.move] at several
    obtain ⟨notOpening, sameName⟩ :=
      signal_senderMoves isSender moves fresh several named
    exact digests sender (List.mem_of_getElem? isSender) several notOpening
      sameName

theorem mem_members_step
    (stepped : client.step platform label = some next) {member : Member} :
    member ∈ next.stores.members ↔
      member ∈ client.stores.members ∨
        client.joined platform label = some member := by
  rw [(members_step stepped).mem_iff, List.mem_append, Option.mem_toList]

theorem unstamped_fromPipeline (pipeline : Pipeline) :
    Unstamped id (Client.fromPipeline pipeline) where
  calls _ member := absurd member List.not_mem_nil
  members _ member := absurd member List.not_mem_nil
  digests _ member := absurd member List.not_mem_nil

theorem unstamped_step
    (unstamped : Unstamped id client) (fresh : Unstamping id client label)
    (stepped : client.step platform label = some next) :
    Unstamped id next where
  calls later member prepared named := by
    obtain ⟨index, found⟩ := List.mem_iff_getElem?.mp member
    rcases call_of_step found stepped with ⟨input, waits, _, rfl⟩ |
      ⟨call, isCall, same | ⟨moved, moves, rfl⟩⟩
    · cases prepared
    · subst same
      exact unstamped.calls later (List.mem_of_getElem? isCall) prepared
        named
    · obtain ⟨ranked, same⟩ :=
        signal_callMoves isCall moves fresh named prepared
      exact unstamped.calls call (List.mem_of_getElem? isCall) ranked
        (same ▸ named)
  members member listed named := by
    rcases (mem_members_step stepped).mp listed with old | joined
    · exact unstamped.members member old named
    · obtain ⟨index, call, route, found, stage, rfl⟩ :=
        joined_eq_some joined
      exact unstamped.calls call (List.mem_of_getElem? found)
        (by simp [stage, CallStage.rank]) named
  digests := noDigest_step unstamped.digests fresh stepped

/-- The owner keeps the id. -/
theorem owner_step
    {index : Nat} {call : Call} (owner : Owner id index call client)
    (fresh : Unstamping id client label)
    (stepped : client.step platform label = some next) :
    ∃ later, Owner id index later next ∧
      (later = call ∨ ∃ moved,
        CallMoves platform label index call client.stores moved ∧
          later = moved.1) := by
  obtain ⟨later, isLater, became⟩ := call_step owner.found stepped
  have signal : later.signal = call.signal := by
    rcases became with rfl | ⟨moved, moves, rfl⟩
    · rfl
    · exact signal_callMove owner.prepared moves.move
  have rank : call.stage.rank ≤ later.stage.rank := by
    rcases became with rfl | ⟨moved, moves, rfl⟩
    · exact Nat.le_refl _
    · exact rank_callMove moves.move
  have plan : 1 < call.stage.rank → later.plan = call.plan := by
    intro planned
    rcases became with rfl | ⟨moved, moves, rfl⟩
    · rfl
    · exact plan_callMove planned moves.move
  refine ⟨later, ?_, became⟩
  exact
    { found := isLater
      prepared := by
        have prepared := owner.prepared
        omega
      named := signal ▸ owner.named
      alone := by
        intro other another found prepared named
        rcases call_of_step found stepped with ⟨input, waits, _, rfl⟩ |
          ⟨before, isBefore, same | ⟨moved, moves, rfl⟩⟩
        · cases prepared
        · subst same
          exact owner.alone other another isBefore prepared named
        · obtain ⟨ranked, same⟩ :=
            signal_callMoves isBefore moves fresh named prepared
          exact owner.alone other before isBefore ranked (same ▸ named)
      members := by
        intro member listed named
        rcases (mem_members_step stepped).mp listed with old | joined
        · obtain ⟨sameSignal, ownsRow, past⟩ :=
            owner.members member old named
          have samePlan := plan (by omega)
          refine ⟨sameSignal.trans signal.symm, ?_, by omega⟩
          rw [ownsRow, samePlan]
        · obtain ⟨other, another, route, found, stage, rfl⟩ :=
            joined_eq_some joined
          have ranked : another.stage.rank = 4 := by
            simp [stage, CallStage.rank]
          have same := owner.alone other another found (by omega) named
          subst same
          cases found.symm.trans owner.found
          refine ⟨signal.symm, ?_, by omega⟩
          rw [plan (by omega)]
          rfl
      digests := noDigest_step owner.digests fresh stepped }

/-- The call that is stamped with the id becomes its owner. -/
theorem owner_of_stamp
    {index : Nat} {moment : Moment} {call : Call}
    (unstamped : Unstamped id client)
    (found : client.calls[index]? = some call)
    (stage : call.stage = .preparing) (stamp : moment.id = id)
    (stepped : client.step platform (.call index moment) = some next) :
    Owner id index (call.prepare platform moment client.stores.book) next ∧
      next.stores = client.stores := by
  obtain ⟨other, isOther, moves⟩ := Option.bind_eq_some_iff.mp stepped
  cases found.symm.trans isOther
  simp only [Call.next, stage, Option.map_some, Option.some.injEq] at moves
  subst moves
  have bound := (List.getElem?_eq_some_iff.mp found).1
  refine ⟨?_, rfl⟩
  exact
    { found := by
        rw [Client.putCall, List.getElem?_set, if_pos rfl, if_pos bound]
      prepared := by
        rw [Call.prepare]
        split
        · exact Nat.zero_lt_succ _
        · exact Nat.zero_lt_succ _
      named := by
        rw [← stamp, Call.prepare]
        split
        · rfl
        · rfl
      alone := by
        intro other another isAnother prepared named
        by_contra different
        rw [Client.putCall, List.getElem?_set,
          if_neg (Ne.symm different)] at isAnother
        exact unstamped.calls another (List.mem_of_getElem? isAnother)
          prepared named
      members := fun member listed named =>
        absurd named (unstamped.members member listed)
      digests := unstamped.digests }

end Steps

end OpsSignal
