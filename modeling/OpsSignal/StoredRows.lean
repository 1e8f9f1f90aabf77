import OpsSignal.SignalOwner

/-!
# The stored row of a signal

The row of a signal is written by its own call and, where the row waits
for a group, by the senders of its groups.  Its outcome is followed here
from the first write to the last.
-/

namespace OpsSignal

open LabelledRuns

variable {platform : Platform}

/-! ## What a row says -/

/-- The outcome columns of a row. -/
structure Verdict where
  status : DeliveryStatus
  provider : Option String
  error : Option String
  deriving DecidableEq, Repr

def DeliveryResult.verdict (result : DeliveryResult) : Verdict where
  status := result.status
  provider := result.provider
  error := result.error

/-- A row that was just recorded. -/
def Verdict.pending : Verdict :=
  ⟨.pending, none, none⟩

namespace Sink

/-- What the row of an id says. -/
def verdict (id : String) (sink : Sink) : Option Verdict :=
  (sink.row id).map fun row => ⟨row.status, row.provider, row.error⟩

variable {id : String} {sink : Sink} {signal : Signal}

theorem verdict_complete (result : DeliveryResult) :
    (sink.complete signal result).verdict id =
      if signal.id = id then some result.verdict else sink.verdict id := by
  rw [verdict, row_complete]
  split
  · cases sink.row id with
    | none => rfl
    | some existing => rfl
  · rfl

theorem verdict_record :
    (sink.record signal).verdict id =
      if signal.id = id then some ((sink.verdict id).getD .pending)
      else sink.verdict id := by
  rw [verdict, row_record]
  split
  · rw [verdict]
    cases sink.row id with
    | none => rfl
    | some existing => rfl
  · rfl

theorem verdict_delivering (events : List (Nat × ChainEvent)) :
    ((events.map fun entry => Effect.delivering signal entry.2).foldl
        Sink.apply sink).verdict id = sink.verdict id := by
  induction events generalizing sink with
  | nil => rfl
  | cons entry rest inductionHypothesis =>
      rw [List.map_cons, List.foldl_cons, inductionHypothesis, apply,
        verdict, row_deliverEvent]
      rfl

end Sink

/-- What the rows say after everything that the client did. -/
def Stores.verdict (id : String) (stores : Stores) : Option Verdict :=
  (Sink.after stores.trace).verdict id

/-! ## What a move writes -/

/-- What a call's next step leaves in the row of its own signal. -/
def Call.writes (call : Call) (old : Option Verdict) : Option Verdict :=
  match call.stage with
  | .recording => some (old.getD .pending)
  | .unsent => some (summarize call.plan [] none).verdict
  | .completing => some call.result.verdict
  | _ => old

/-- The member that a sender completes with its next step. -/
def Sender.completing (sender : Sender) : Option Member :=
  if sender.stage = .completingMembers then sender.members.head? else none

/-- What a sender's next step leaves in the row of an id. -/
def Sender.writes (id : String) (sender : Sender) (old : Option Verdict) :
    Option Verdict :=
  match sender.completing with
  | some member =>
      if member.signal.id = id then some sender.result.verdict else old
  | none => old

section Moves

variable {id : String} {stores : Stores}

theorem verdict_emit (effects : List Effect) :
    (stores.emit effects).verdict id =
      (effects.foldl Sink.apply (Sink.after stores.trace)).verdict id := by
  rw [Stores.verdict, Stores.trace_emit, Sink.after_append]

theorem verdict_callMove
    {call : Call} {moved : Call × Stores}
    (moves : CallMove platform call stores moved) :
    moved.2.verdict id =
      if call.signal.id = id then call.writes (stores.verdict id)
      else stores.verdict id := by
  have silent : ∀ {old new : Option Verdict}, new = old →
      call.writes old = old →
        new = if call.signal.id = id then call.writes old else old := by
    intro old new same writes
    rw [writes, ite_self, same]
  cases moves with
  | record stage =>
      rw [Call.record, verdict_emit, Call.writes, stage]
      exact Sink.verdict_record
  | unsent stage =>
      rw [Call.settleUnsent, verdict_emit, Call.writes, stage]
      exact Sink.verdict_complete _
  | complete stage =>
      rw [verdict_emit, Call.writes, stage]
      exact Sink.verdict_complete _
  | ask entry rest stage routes =>
      apply silent
      · rw [Call.plan_, routes]
        rfl
      · rw [Call.writes, stage]
  | join route entry rest stage holds listed =>
      apply silent
      · rw [Stores.verdict, (stores.hold_facts platform _ _).2.2.1]
        rfl
      · rw [Call.writes, stage]
  | deliver chain system stage advanced =>
      apply silent
      · rw [verdict_emit, Sink.verdict_delivering]
        rfl
      · rw [Call.writes, stage]
  | settle stage =>
      apply silent
      · rw [Stores.verdict, Stores.trace_settle]
        rfl
      · rw [Call.writes, stage]
  | prepare moment stage | planned stage _ | leave stage _ _
  | send stage _ _ | skip _ _ stage _ _ | finish stage _ | cut _ stage _
  | note stage =>
      apply silent
      · rfl
      · rw [Call.writes, stage]

theorem verdict_senderMove
    {pipeline : Pipeline} {sender : Sender} {moved : Sender × Stores}
    (digest : moved.1.closed.single = false → moved.1.stage ≠ .opening →
      moved.1.signal.id ≠ id)
    (moves : SenderMove platform pipeline sender stores moved) :
    moved.2.verdict id = sender.writes id (stores.verdict id) := by
  have silent : sender.stage ≠ .completingMembers → ∀ old,
      sender.writes id old = old := by
    intro elsewhere old
    rw [Sender.writes, Sender.completing, if_neg elsewhere]
  cases moves with
  | open_ moment stage =>
      rw [silent (by simp [stage])]
      rw [Sender.open_] at digest ⊢
      split
      · rfl
      · rename_i several
        rw [if_neg several] at digest
        rw [verdict_emit]
        exact Sink.verdict_record.trans
          (if_neg (digest (by simpa using several) (by simp)))
  | deliver chain system stage advanced =>
      rw [silent (by simp [stage]), verdict_emit, Sink.verdict_delivering]
      rfl
  | settle stage =>
      rw [silent (by simp [stage]), Stores.verdict, Stores.trace_settle]
      rfl
  | settleMember member rest stage members =>
      rw [silent (by simp [stage]), Stores.verdict, Stores.trace_settle]
      rfl
  | complete stage =>
      rw [silent (by simp [stage])]
      dsimp only at digest ⊢
      split
      · rfl
      · rename_i several
        rw [verdict_emit]
        exact (Sink.verdict_complete _).trans
          (if_neg (digest (by simpa using several) (by simp)))
  | completeMember member rest stage members =>
      rw [verdict_emit, Sender.writes, Sender.completing, if_pos stage,
        members]
      exact Sink.verdict_complete _
  | completed stage members =>
      rw [Sender.writes, Sender.completing, if_pos stage, members]
      rfl
  | gate moment stage =>
      rw [silent (by simp [stage])]
      rfl
  | start stage | finish stage _ | settled stage _ =>
      rw [silent (by simp [stage])]

end Moves

/-- What a step leaves in the row of an id that has an owner. -/
def rowAfter
    (id : String) (index : Nat) (client : Client) (label : ClientStep)
    (old : Option Verdict) : Option Verdict :=
  match label with
  | .call other _ =>
      if other = index then
        (client.calls[other]?.map fun call => call.writes old).getD old
      else old
  | .sender other _ =>
      (client.stores.senders[other]?.map fun sender =>
        sender.writes id old).getD old
  | _ => old

section Step

variable {id : String} {index : Nat} {call : Call} {client next : Client}
  {label : ClientStep}

/-- A call that is not the owner leaves the row alone. -/
private theorem writes_other
    (owner : Owner id index call client) {other : Nat} {another : Call}
    (found : client.calls[other]? = some another)
    (different : other ≠ index) {moved : Call × Stores}
    (moves : CallMove platform another client.stores moved) :
    moved.2.verdict id = client.stores.verdict id := by
  have written := @verdict_callMove platform id _ _ _ moves
  by_cases named : another.signal.id = id
  · have unprepared : another.stage = .preparing := by
      cases stage : another.stage with
      | preparing => rfl
      | planning | recording | unsent | holding | delivering | settling
      | noting | completing | done =>
          exact absurd (owner.alone other another found
            (by simp [stage, CallStage.rank]) named) different
    rw [written, if_pos named, Call.writes, unprepared]
  · rw [written, if_neg named]

theorem verdict_step
    (owner : Owner id index call client)
    (fresh : Unstamping id client label)
    (stepped : client.step platform label = some next) :
    next.stores.verdict id =
      rowAfter id index client label (client.stores.verdict id) := by
  rcases step_cases stepped with ⟨input, waits, rfl, _, rfl⟩ |
    ⟨other, another, moved, found, moves, rfl⟩ |
    ⟨other, sender, moved, found, moves, rfl⟩ | ⟨other, rfl, elapsed⟩ |
    ⟨rfl, rfl⟩ | ⟨pipeline, rfl, rfl⟩
  · rfl
  · by_cases same : other = index
    · subst same
      cases found.symm.trans owner.found
      have written := @verdict_callMove platform id _ _ _ moves.move
      rw [if_pos owner.named] at written
      rcases moves with ⟨moment, rfl, _⟩ | ⟨chain, rfl, moves⟩ |
        ⟨message, rfl, ended, moves, rfl⟩
      · rw [rowAfter, if_pos rfl, found]
        exact written
      · rw [Call.writes, stage_of_deliver moves] at written
        exact written
      · rfl
    · have kept := writes_other owner found same moves.move
      rcases moves with ⟨moment, rfl, _⟩ | ⟨chain, rfl, _⟩ |
        ⟨message, rfl, ended, moves, rfl⟩
      · rw [rowAfter, if_neg same]
        exact kept
      · exact kept
      · rfl
  · have digest : moved.1.closed.single = false →
        moved.1.stage ≠ .opening → moved.1.signal.id ≠ id := by
      intro several opened named
      have later := noDigest_step owner.digests fresh stepped
      have bound := (List.getElem?_eq_some_iff.mp found).1
      have member : moved.1 ∈
          (client.putSender other moved).stores.senders := by
        rw [Client.putSender, senders_senderMove moves.move]
        exact List.mem_set bound moved.1
      exact later moved.1 member several opened named
    have written := verdict_senderMove digest moves.move
    rcases moves with ⟨moment, rfl, _⟩ | ⟨chain, rfl, moves⟩
    · rw [rowAfter, found]
      exact written
    · have stage : sender.stage ≠ .completingMembers := by
        rw [Sender.deliver] at moves
        split at moves
        · rename_i delivering
          simp [delivering]
        · cases moves
      rw [Sender.writes, Sender.completing, if_neg stage] at written
      exact written
  · obtain ⟨timer, _, rfl⟩ := Option.map_eq_some_iff.mp elapsed
    dsimp only
    split
    · rfl
    · rfl
  · rfl
  · rfl

end Step

/-! ## What is still to be completed -/

/-- The members whose rows a sender still has to complete. -/
def Sender.owes (sender : Sender) : List Member :=
  match sender.stage with
  | .completingMembers => sender.members
  | .done => []
  | _ => sender.closed.members.filter Member.ownsRow

theorem owes_senderMove
    {pipeline : Pipeline} {sender : Sender} {stores : Stores}
    {moved : Sender × Stores}
    (moves : SenderMove platform pipeline sender stores moved) :
    sender.owes = sender.completing.toList ++ moved.1.owes := by
  cases moves with
  | open_ moment stage =>
      rw [Sender.open_]
      split
      · simp [Sender.owes, Sender.completing, stage]
      · simp [Sender.owes, Sender.completing, stage]
  | gate moment stage =>
      simp [Sender.owes, Sender.completing, Sender.gate, stage]
  | completeMember member rest stage members =>
      simp [Sender.owes, Sender.completing, stage, members]
  | completed stage members =>
      simp [Sender.owes, Sender.completing, stage, members]
  | settleMember _ _ stage _ | deliver _ _ stage _ | start stage
  | finish stage _ | settle stage | settled stage _ | complete stage =>
      simp [Sender.owes, Sender.completing, stage]

/-- A sender completes members of its group that own their rows. -/
def Sender.OwesMembers (sender : Sender) : Prop :=
  ∀ member ∈ sender.owes,
    member ∈ sender.closed.members ∧ member.ownsRow = true

theorem owesMembers_senders
    {condition : Client → ClientStep → Prop} {pipeline : Pipeline}
    {labels : List ClientStep} {client : Client}
    (reached : Runs platform condition pipeline labels client) :
    ∀ sender ∈ client.stores.senders, sender.OwesMembers := by
  apply senders_keep Sender.OwesMembers reached
  · intro closed member owed
    exact List.mem_filter.mp owed
  · intro pipeline sender stores moved kept moves member owed
    rw [closed_senderMove moves]
    apply kept member
    rw [owes_senderMove moves]
    exact List.mem_append_right _ owed

/-- Some group that holds the id has not completed it yet. -/
def Owed (id : String) (stores : Stores) : Prop :=
  (∃ member ∈ stores.groups.members, member.signal.id = id) ∨
    ∃ sender ∈ stores.senders, ∃ member ∈ sender.owes,
      member.signal.id = id

/-- The step completes a member with the id. -/
def CompletesMember
    (id : String) (client : Client) (label : ClientStep) : Prop :=
  ∃ index moment sender member, label = .sender index moment ∧
    client.stores.senders[index]? = some sender ∧
      sender.completing = some member ∧ member.signal.id = id

theorem owed_step
    {id : String} {client next : Client} {label : ClientStep}
    (stepped : client.step platform label = some next)
    (owns : ∀ member ∈ next.stores.members, member.signal.id = id →
      member.ownsRow = true)
    (owed : Owed id client.stores ∨
      ∃ member, client.joined platform label = some member ∧
        member.signal.id = id) :
    Owed id next.stores ∨ CompletesMember id client label := by
  have inGroups : ∀ member : Member, member.signal.id = id →
      (member ∈ client.stores.groups.members ∨
        client.joined platform label = some member) →
          Owed id next.stores := by
    intro member named held
    rcases mem_groups_step stepped held with opened |
      ⟨closed, started, listed⟩
    · exact Or.inl ⟨member, opened, named⟩
    · have inNext := mem_members_of_sender started listed
      refine Or.inr ⟨_, started, member, ?_, named⟩
      exact List.mem_filter.mpr ⟨listed, owns member inNext named⟩
  rcases owed with (⟨member, listed, named⟩ |
    ⟨sender, isSender, member, listed, named⟩) | ⟨member, joined, named⟩
  · exact Or.inl (inGroups member named (Or.inl listed))
  · obtain ⟨index, found⟩ := List.mem_iff_getElem?.mp isSender
    obtain ⟨later, isLater, same | ⟨moved, moves, rfl⟩⟩ :=
      sender_step found stepped
    · subst same
      exact Or.inl (Or.inr
        ⟨later, List.mem_of_getElem? isLater, member, listed, named⟩)
    · rw [owes_senderMove moves.move, List.mem_append,
        Option.mem_toList] at listed
      rcases listed with completing | still
      · right
        rcases moves with ⟨moment, rfl, _⟩ | ⟨chain, rfl, moves⟩
        · exact ⟨index, moment, sender, member, rfl, found, completing,
            named⟩
        · rw [Sender.completing] at completing
          rw [Sender.deliver] at moves
          split at moves
          · rename_i delivering
            simp [delivering] at completing
          · cases moves
      · exact Or.inl (Or.inr
          ⟨moved.1, List.mem_of_getElem? isLater, member, still, named⟩)
  · exact Or.inl (inGroups member named (Or.inr joined))

end OpsSignal
