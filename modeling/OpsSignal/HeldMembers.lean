import Mathlib.Data.List.Perm.Basic
import OpsSignal.ClientRuns
import OpsSignal.GroupRuns

/-!
# The members that a client holds

A held signal is a member of an open group or of a group that is being
sent.  A step adds the member that joins with it, and loses none.
-/

namespace OpsSignal

open LabelledRuns

variable {platform : Platform}

/-- The route whose group a call joins next. -/
def Call.joining (call : Call) : Option Route :=
  if call.stage = .holding then
    call.holds.head?.bind fun entry =>
      call.pipeline.routing.routes[entry.1]?
  else
    none

/-- The signal of the call as a member of the route's group. -/
def Call.member (platform : Platform) (call : Call) (route : Route) :
    Member where
  signal := call.signal
  admission := (call.admission.splitOff platform route).2
  ownsRow := call.plan.targets.isEmpty

/-- The member that joins a group with a step. -/
def Client.joined (platform : Platform) (client : Client) :
    ClientStep → Option Member
  | .call index _ => client.calls[index]?.bind fun call =>
      call.joining.map (call.member platform)
  | _ => none

/-- The groups that a step closes. -/
def Client.closes (platform : Platform) (client : Client) :
    ClientStep → List Closed
  | .call index _ =>
      match client.calls[index]? with
      | none => []
      | some call =>
          match call.joining with
          | none => []
          | some route => Stores.closedBy
              (client.stores.groups.add platform route
                (call.member platform route)).2
  | .timer index =>
      match client.stores.timers[index]? with
      | none => []
      | some timer =>
          ((client.stores.groups.take timer.1 timer.2).map Prod.snd).toList
  | .flush => client.stores.groups.takeAll.2
  | _ => []

def Groups.members (groups : Groups) : List Member :=
  groups.opened.flatMap fun entry => entry.2.members

def Stores.sentMembers (stores : Stores) : List Member :=
  stores.senders.flatMap fun sender => sender.closed.members

/-- Every held member, in an open group or in a closed one. -/
def Stores.members (stores : Stores) : List Member :=
  stores.groups.members ++ stores.sentMembers

/-- The members of a closed group are held. -/
theorem mem_members_of_sender
    {stores : Stores} {sender : Sender} {member : Member}
    (isSender : sender ∈ stores.senders)
    (listed : member ∈ sender.closed.members) : member ∈ stores.members := by
  rw [Stores.members, List.mem_append, Stores.sentMembers,
    List.mem_flatMap]
  exact Or.inr ⟨sender, isSender, listed⟩

/-! ## The groups -/

section Groups

variable {Item Part : Type} {parts : Item → List Part}

private theorem flatMap_eraseIdx_perm
    {items : List Item} {index : Nat} {item : Item}
    (found : items[index]? = some item) :
    (parts item ++ (items.eraseIdx index).flatMap parts).Perm
      (items.flatMap parts) := by
  obtain ⟨inside, rfl⟩ := List.getElem?_eq_some_iff.mp found
  exact (List.getElem_cons_eraseIdx_perm inside).flatMap_right parts

private theorem flatMap_set_perm
    {items : List Item} {index : Nat} {item grown : Item}
    {more : List Part} (found : items[index]? = some item)
    (grows : parts grown = parts item ++ more) :
    ((items.set index grown).flatMap parts).Perm
      (items.flatMap parts ++ more) := by
  have inside := (List.getElem?_eq_some_iff.mp found).1
  have replaced := (List.set_perm_cons_eraseIdx inside
    grown).flatMap_right parts
  rw [List.flatMap_cons, grows, List.append_assoc] at replaced
  apply replaced.trans
  have rest := @flatMap_eraseIdx_perm _ _ parts _ _ _ found
  have moved : (more ++ (items.eraseIdx index).flatMap parts).Perm
      ((items.eraseIdx index).flatMap parts ++ more) :=
    List.perm_append_comm
  apply (moved.append_left (parts item)).trans
  rw [← List.append_assoc]
  exact rest.append_right more

end Groups

namespace Groups

variable {groups : Groups}

/-- Adding a member adds that one. -/
theorem members_add
    (platform : Platform) (route : Route) (member : Member)
    (groups : Groups) :
    ((groups.add platform route member).1.members ++
        (Stores.closedBy (groups.add platform route member).2).flatMap
          Closed.members).Perm
      (groups.members ++ [member]) := by
  have added := add_eq platform route member groups
  cases found : groups.lookup (groupKey platform route
      (groupValues route member.signal)) with
  | none =>
      simp only [found] at added
      rw [added]
      simp [openNew, Stores.closedBy, members, OpenGroup.start]
  | some place =>
      obtain ⟨index, group⟩ := place
      have here := lookup_eq_some found
      simp only [found, joinAt] at added
      rw [added]
      split
      · simp only [Stores.closedBy, List.flatMap_nil, List.append_nil]
        exact @flatMap_set_perm _ _ (fun entry => entry.2.members) _ _ _
          (groupKey platform route (groupValues route member.signal),
            group.push member) [member] here rfl
      · simp only [Stores.closedBy, List.flatMap_cons, List.flatMap_nil,
          List.append_nil, remove, members]
        have rest := @flatMap_eraseIdx_perm _ _
          (fun entry : String × OpenGroup => entry.2.members) _ _ _ here
        have pushed : (group.push member).toClosed.members =
            group.members ++ [member] := rfl
        rw [pushed, ← List.append_assoc]
        exact (List.perm_append_comm.trans rest).append_right [member]

/-- Taking a group moves its members out. -/
theorem members_take
    {key : String} {seq : Nat} {rest : Groups} {closed : Closed}
    (taken : groups.take key seq = some (rest, closed)) :
    (rest.members ++ closed.members).Perm groups.members := by
  rw [take_eq] at taken
  cases found : groups.lookup key with
  | none =>
      rw [found] at taken
      cases taken
  | some place =>
      obtain ⟨index, group⟩ := place
      simp only [found] at taken
      split at taken
      · cases taken
        exact List.perm_append_comm.trans (@flatMap_eraseIdx_perm _ _
          (fun entry : String × OpenGroup => entry.2.members) _ _ _
          (lookup_eq_some found))
      · cases taken

theorem members_takeAll :
    groups.takeAll.1.members ++ groups.takeAll.2.flatMap Closed.members =
      groups.members := by
  simp [takeAll, members, List.flatMap_map]

end Groups

/-! ## The client -/

/-- What a step does to the groups: it adds a member, or not, and closes
some of them. -/
structure Takes
    (before after : Stores) (joined : Option Member)
    (closed : List Closed) : Prop where
  members :
    (after.groups.members ++ closed.flatMap Closed.members).Perm
      (before.groups.members ++ joined.toList)
  sent : after.senders.map Sender.closed =
    before.senders.map Sender.closed ++ closed
  started : ∀ group ∈ closed, Sender.start group ∈ after.senders

private theorem takes_none
    {before after : Stores} (groups : after.groups = before.groups)
    (sent : after.senders.map Sender.closed =
      before.senders.map Sender.closed) :
    Takes before after none [] where
  members := by
    rw [groups]
    simp
  sent := by
    rw [sent, List.append_nil]
  started _ member := absurd member List.not_mem_nil

private theorem takes_spawn
    {before after : Stores} {joined : Option Member}
    {closed : List Closed}
    (members :
      (after.groups.members ++ closed.flatMap Closed.members).Perm
        (before.groups.members ++ joined.toList))
    (senders : after.senders =
      before.senders ++ closed.map Sender.start) :
    Takes before after joined closed where
  members := members
  sent := by
    rw [senders, List.map_append, List.map_map]
    exact congrArg (before.senders.map Sender.closed ++ ·) (List.map_id _)
  started group member := by
    rw [senders]
    exact List.mem_append_right _ (List.mem_map_of_mem member)

private theorem takes_hold
    (route : Route) (member : Member) (stores : Stores) :
    Takes stores (stores.hold platform route member) (some member)
      (Stores.closedBy (stores.groups.add platform route member).2) := by
  obtain ⟨_, _, _, groups, senders⟩ := stores.hold_facts platform route member
  apply takes_spawn _ senders
  rw [groups]
  exact Groups.members_add platform route member stores.groups

private theorem takes_next
    {client : Client} {index : Nat} {moment : Moment} {call : Call}
    {moved : Call × Stores} (found : client.calls[index]? = some call)
    (moves : call.next platform moment client.stores = some moved) :
    Takes client.stores moved.2
      (client.joined platform (.call index moment))
      (client.closes platform (.call index moment)) := by
  by_cases holding : call.stage = .holding
  · simp only [Call.next, holding, Option.some.injEq] at moves
    subst moves
    simp only [Client.joined, Client.closes, found, Option.bind_some,
      Call.joining, holding, if_true]
    rw [Call.hold]
    cases holds : call.holds with
    | nil =>
        dsimp only [List.head?_nil, Option.bind_none]
        split
        · exact takes_none rfl rfl
        · exact takes_none rfl rfl
    | cons entry rest =>
        simp only [List.head?_cons, Option.bind_some]
        cases listed : call.pipeline.routing.routes[entry.1]? with
        | none => exact takes_none rfl rfl
        | some route => exact takes_hold route _ client.stores
  · obtain ⟨groups, senders⟩ :=
      groups_callMove holding (callMove_of_next moves)
    have none : client.joined platform (.call index moment) = none := by
      simp [Client.joined, found, Call.joining, holding]
    have silent : client.closes platform (.call index moment) = [] := by
      simp [Client.closes, found, Call.joining, holding]
    rw [none, silent]
    exact takes_none groups (congrArg _ senders)

private theorem takes_elapse
    {client next : Client} {index : Nat}
    (elapsed : client.elapse index = some next) :
    Takes client.stores next.stores none
      (client.closes platform (.timer index)) := by
  obtain ⟨timer, found, rfl⟩ := Option.map_eq_some_iff.mp elapsed
  simp only [Client.closes, found]
  cases taken : client.stores.groups.take timer.1 timer.2 with
  | none => exact takes_none rfl rfl
  | some result =>
      obtain ⟨groups, closed⟩ := result
      apply takes_spawn _ rfl
      change (groups.members ++ [closed].flatMap Closed.members).Perm _
      rw [List.flatMap_singleton, Option.toList_none, List.append_nil]
      exact Groups.members_take taken

/-- What a step does to the groups. -/
theorem takes_step
    {client next : Client} {label : ClientStep}
    (stepped : client.step platform label = some next) :
    Takes client.stores next.stores (client.joined platform label)
      (client.closes platform label) := by
  rcases step_cases stepped with ⟨input, waits, rfl, _, rfl⟩ |
    ⟨index, call, moved, found, moves, rfl⟩ |
    ⟨index, sender, moved, found, moves, rfl⟩ | ⟨index, rfl, elapsed⟩ |
    ⟨rfl, rfl⟩ | ⟨pipeline, rfl, rfl⟩
  · exact takes_none rfl rfl
  · rcases moves with ⟨moment, rfl, moves⟩ | ⟨chain, rfl, moves⟩ |
      ⟨message, rfl, ended, moves, rfl⟩
    · exact takes_next found moves
    · have stage : call.stage ≠ .holding := by
        simp [stage_of_deliver moves]
      obtain ⟨groups, senders⟩ := @groups_callMove platform _ _ _
        stage (callMove_of_deliver moves)
      exact takes_none groups (congrArg _ senders)
    · exact takes_none rfl rfl
  · have joined : client.joined platform label = none ∧
        client.closes platform label = [] := by
      rcases moves with ⟨moment, rfl, _⟩ | ⟨chain, rfl, _⟩
      · exact ⟨rfl, rfl⟩
      · exact ⟨rfl, rfl⟩
    rw [joined.1, joined.2]
    exact takes_none (groups_senderMove moves.move)
      (closed_putSender found moves.move)
  · exact takes_elapse elapsed
  · apply takes_spawn _ rfl
    exact List.Perm.of_eq
      (Groups.members_takeAll.trans (List.append_nil _).symm)
  · exact takes_none rfl rfl

theorem sentMembers_eq (stores : Stores) :
    stores.sentMembers =
      (stores.senders.map Sender.closed).flatMap Closed.members := by
  rw [List.flatMap_map]
  rfl

/-- A step adds the member that joins with it, and loses none. -/
theorem members_step
    {client next : Client} {label : ClientStep}
    (stepped : client.step platform label = some next) :
    next.stores.members.Perm (client.stores.members ++
      (client.joined platform label).toList) := by
  have takes := takes_step stepped
  rw [Stores.members, Stores.members, sentMembers_eq, takes.sent,
    List.flatMap_append, ← sentMembers_eq]
  apply (List.perm_append_comm.append_left _).trans
  rw [← List.append_assoc]
  apply (takes.members.append_right _).trans
  rw [List.append_assoc, List.append_assoc]
  exact List.perm_append_comm.append_left _

/-- A member of an open group stays there, or its group is about to be
sent. -/
theorem mem_groups_step
    {client next : Client} {label : ClientStep} {member : Member}
    (stepped : client.step platform label = some next)
    (held : member ∈ client.stores.groups.members ∨
      client.joined platform label = some member) :
    member ∈ next.stores.groups.members ∨
      ∃ closed, Sender.start closed ∈ next.stores.senders ∧
        member ∈ closed.members := by
  have takes := takes_step stepped
  have listed : member ∈ client.stores.groups.members ++
      (client.joined platform label).toList := by
    rw [List.mem_append, Option.mem_toList]
    exact held
  rw [← takes.members.mem_iff, List.mem_append, List.mem_flatMap] at listed
  rcases listed with opened | ⟨group, isGroup, inGroup⟩
  · exact Or.inl opened
  · exact Or.inr ⟨group, takes.started group isGroup, inGroup⟩

end OpsSignal
