import OpsSignal.Flush

/-!
# What a flush waits for

A group that is open when a flush begins is closed by the time it waits,
and a flush that finishes has waited for every group and every task that
there was when it began.
-/

namespace OpsSignal

open LabelledRuns

variable {platform : Platform}

/-! ## Groups grow until they are sent -/

/-- The group is the same, and may have more members. -/
structure Closed.Grows (before after : Closed) : Prop where
  route : after.route = before.route
  values : after.by_ = before.by_
  members : before.members <+: after.members

theorem Closed.Grows.refl (group : Closed) : group.Grows group :=
  ⟨rfl, rfl, List.prefix_refl _⟩

theorem Closed.Grows.trans
    {first second third : Closed} (earlier : first.Grows second)
    (later : second.Grows third) : first.Grows third where
  route := later.route.trans earlier.route
  values := later.values.trans earlier.values
  members := earlier.members.trans later.members

theorem OpenGroup.grows_push (group : OpenGroup) (member : Member) :
    group.toClosed.Grows (group.push member).toClosed :=
  ⟨rfl, rfl, List.prefix_append _ _⟩

/-- The group is among the open groups. -/
def Groups.Opened (group : Closed) (groups : Groups) : Prop :=
  ∃ entry ∈ groups.opened, group.Grows entry.2.toClosed

section Groups

variable {groups : Groups} {entry : String × OpenGroup}

/-- Joining a group leaves every group open, or closes it. -/
theorem opened_add
    (route : Route) (member : Member) (open_ : entry ∈ groups.opened) :
    (groups.add platform route member).1.Opened entry.2.toClosed ∨
      ∃ closed ∈ Stores.closedBy (groups.add platform route member).2,
        entry.2.toClosed.Grows closed := by
  have added := Groups.add_eq platform route member groups
  cases found : groups.lookup (groupKey platform route
      (groupValues route member.signal)) with
  | none =>
      simp only [found] at added
      rw [added]
      exact Or.inl ⟨entry, List.mem_append_left _ open_,
        Closed.Grows.refl _⟩
  | some place =>
      obtain ⟨index, group⟩ := place
      have here := Groups.lookup_eq_some found
      have bound := (List.getElem?_eq_some_iff.mp here).1
      obtain ⟨place, atPlace⟩ := List.mem_iff_getElem?.mp open_
      simp only [found, Groups.joinAt] at added
      rw [added]
      by_cases own : place = index
      · subst own
        cases here.symm.trans atPlace
        split
        · left
          exact ⟨_, List.mem_set bound _, group.grows_push member⟩
        · right
          exact ⟨_, List.mem_singleton_self _, group.grows_push member⟩
      · left
        refine ⟨entry, ?_, Closed.Grows.refl _⟩
        split
        · apply @List.mem_of_getElem? _ _ place
          rw [List.getElem?_set_ne (Ne.symm own)]
          exact atPlace
        · exact List.mem_eraseIdx_iff_getElem?.mpr ⟨place, own, atPlace⟩

/-- A timer leaves every group open, or closes it. -/
theorem opened_take
    {key : String} {seq : Nat} {rest : Groups} {closed : Closed}
    (taken : groups.take key seq = some (rest, closed))
    (open_ : entry ∈ groups.opened) :
    rest.Opened entry.2.toClosed ∨ entry.2.toClosed.Grows closed := by
  rw [Groups.take_eq] at taken
  cases found : groups.lookup key with
  | none =>
      rw [found] at taken
      cases taken
  | some place =>
      obtain ⟨index, group⟩ := place
      have here := Groups.lookup_eq_some found
      obtain ⟨place, atPlace⟩ := List.mem_iff_getElem?.mp open_
      simp only [found] at taken
      split at taken
      · cases taken
        by_cases own : place = index
        · subst own
          cases here.symm.trans atPlace
          exact Or.inr (Closed.Grows.refl _)
        · left
          refine ⟨entry, ?_, Closed.Grows.refl _⟩
          exact List.mem_eraseIdx_iff_getElem?.mpr ⟨place, own, atPlace⟩
      · cases taken

end Groups

section Step

variable {client next : Client} {label : ClientStep} {group : Closed}

private theorem opened_same
    {before after : Stores} (same : after.groups = before.groups)
    (open_ : before.groups.Opened group) : after.groups.Opened group :=
  same ▸ open_

private theorem opened_call
    {index : Nat} {moment : Moment} {call : Call} {moved : Call × Stores}
    (found : client.calls[index]? = some call)
    (moves : call.next platform moment client.stores = some moved)
    (open_ : client.stores.groups.Opened group) :
    moved.2.groups.Opened group ∨
      ∃ closed ∈ client.closes platform (.call index moment),
        group.Grows closed := by
  by_cases holding : call.stage = .holding
  · simp only [Call.next, holding, Option.some.injEq] at moves
    subst moves
    simp only [Client.closes, found, Call.joining, holding, if_true]
    rw [Call.hold]
    cases holds : call.holds with
    | nil =>
        dsimp only [List.head?_nil, Option.bind_none]
        split
        · exact Or.inl open_
        · exact Or.inl open_
    | cons entry rest =>
        simp only [List.head?_cons, Option.bind_some]
        cases listed : call.pipeline.routing.routes[entry.1]? with
        | none => exact Or.inl open_
        | some route =>
            obtain ⟨before, isOpen, grows⟩ := open_
            dsimp only
            rw [(client.stores.hold_facts platform route _).2.2.2.1]
            rcases @opened_add platform _ _ route (call.member platform route)
              isOpen with ⟨after, isAfter, later⟩ | ⟨closed, isClosed, later⟩
            · exact Or.inl ⟨after, isAfter, grows.trans later⟩
            · exact Or.inr ⟨closed, isClosed, grows.trans later⟩
  · have same := groups_callMove holding (callMove_of_next moves)
    exact Or.inl (opened_same same.1 open_)

/-- A group that is open stays open, or is closed. -/
theorem opened_step
    (stepped : client.step platform label = some next)
    (open_ : client.stores.groups.Opened group) :
    next.stores.groups.Opened group ∨
      ∃ closed ∈ client.closes platform label, group.Grows closed := by
  rcases step_cases stepped with ⟨input, waits, rfl, _, rfl⟩ |
    ⟨index, call, moved, found, moves, rfl⟩ |
    ⟨index, sender, moved, found, moves, rfl⟩ | ⟨index, rfl, elapsed⟩ |
    ⟨rfl, rfl⟩ | ⟨pipeline, rfl, rfl⟩
  · exact Or.inl open_
  · rcases moves with ⟨moment, rfl, moves⟩ | ⟨chain, rfl, moves⟩ |
      ⟨message, rfl, ended, moves, rfl⟩
    · exact opened_call found moves open_
    · have stage : call.stage ≠ .holding := by
        simp [stage_of_deliver moves]
      have same := @groups_callMove platform _ _ _ stage
        (callMove_of_deliver moves)
      exact Or.inl (opened_same same.1 open_)
    · exact Or.inl open_
  · exact Or.inl (opened_same (groups_senderMove moves.move) open_)
  · obtain ⟨timer, found, rfl⟩ := Option.map_eq_some_iff.mp elapsed
    simp only [Client.closes, found]
    cases taken : client.stores.groups.take timer.1 timer.2 with
    | none => exact Or.inl open_
    | some result =>
        obtain ⟨before, isOpen, grows⟩ := open_
        rcases opened_take taken isOpen with ⟨after, isAfter, later⟩ | later
        · exact Or.inl ⟨after, isAfter, grows.trans later⟩
        · exact Or.inr ⟨result.2, List.mem_singleton_self _,
            grows.trans later⟩
  · obtain ⟨before, isOpen, grows⟩ := open_
    right
    exact ⟨before.2.toClosed, List.mem_map.mpr ⟨before, isOpen, rfl⟩, grows⟩
  · exact Or.inl open_

end Step

/-! ## What a session keeps of a flush -/

/-- `notify_async` has returned for the call. -/
def Call.Returned (call : Call) : Prop :=
  call.waits = false ∧ 4 < call.stage.rank

namespace Session

/-- The task of the call has ended, or has panicked. -/
def Over (session : Session) : Holder → Prop
  | .call index => ∃ call, session.client.calls[index]? = some call ∧
      call.Returned ∧
        (call.stage = .done ∨ .call index ∈ session.panicked)
  | .sender index => ∃ sender,
      session.client.stores.senders[index]? = some sender ∧
        (sender.stage = .done ∨ .sender index ∈ session.panicked)

end Session

/-- What there was when a flush began is still there: a call that had
returned, a group that was being sent, and a group that was open and has
been closed since then, at the latest by the flush. -/
structure Flush.Kept (flush : Flush) (client : Client) : Prop where
  calls : ∀ (index : Nat) (call : Call),
    flush.began.calls[index]? = some call → call.Returned →
      ∃ later : Call, client.calls[index]? = some later ∧ later.Returned
  sent : ∀ (place : Nat) (sender : Sender),
    flush.began.stores.senders[place]? = some sender →
      ∃ later : Sender, client.stores.senders[place]? = some later
  groups : ∀ entry ∈ flush.began.stores.groups.opened,
    (flush.stage = .begun ∧
        client.stores.groups.Opened entry.2.toClosed) ∨
      ∃ (place : Nat) (sender : Sender),
        client.stores.senders[place]? = some sender ∧
          entry.2.toClosed.Grows sender.closed

/-- What a flush that finished has waited for is over. -/
structure Flush.Finished (flush : Flush) (session : Session) : Prop where
  calls : ∀ (index : Nat) (call : Call),
    flush.began.calls[index]? = some call → call.Returned →
      session.Over (.call index)
  sent : ∀ (place : Nat) (sender : Sender),
    flush.began.stores.senders[place]? = some sender →
      session.Over (.sender place)
  groups : ∀ entry ∈ flush.began.stores.groups.opened,
    ∃ (place : Nat) (sender : Sender),
      session.client.stores.senders[place]? = some sender ∧
        entry.2.toClosed.Grows sender.closed ∧ session.Over (.sender place)

section Steps

variable {client next : Client} {label : ClientStep} {flush : Flush}

theorem returned_step
    {index : Nat} {call : Call} (found : client.calls[index]? = some call)
    (returned : call.Returned)
    (stepped : client.step platform label = some next) :
    ∃ later, next.calls[index]? = some later ∧ later.Returned ∧
      (call.stage = .done → later.stage = .done) := by
  obtain ⟨later, isLater, same | ⟨moved, moves, rfl⟩⟩ :=
    call_step found stepped
  · subst same
    exact ⟨later, isLater, returned, id⟩
  · have further := rank_callMove moves.move
    refine ⟨moved.1, isLater, ⟨?_, ?_⟩, ?_⟩
    · rw [waits_callMove moves.move]
      exact returned.1
    · have past := returned.2
      omega
    · intro done
      rw [done] at further
      cases stage : moved.1.stage with
      | done => rfl
      | preparing | planning | recording | unsent | holding | delivering
      | settling | noting | completing =>
          rw [stage] at further
          simp [CallStage.rank] at further

theorem done_step
    {place : Nat} {sender : Sender}
    (found : client.stores.senders[place]? = some sender)
    (stepped : client.step platform label = some next) :
    ∃ later, next.stores.senders[place]? = some later ∧
      later.closed = sender.closed ∧
        (sender.stage = .done → later.stage = .done) := by
  obtain ⟨later, isLater, same | ⟨moved, moves, rfl⟩⟩ :=
    sender_step found stepped
  · subst same
    exact ⟨later, isLater, rfl, id⟩
  · refine ⟨moved.1, isLater, closed_senderMove moves.move, ?_⟩
    intro done
    by_contra unfinished
    exact ((done_senderMove moves.move).mp unfinished).1 done

theorem kept_begin : Flush.Kept { began := client } client where
  calls _ call found returned := ⟨call, found, returned⟩
  sent _ sender found := ⟨sender, found⟩
  groups entry member := Or.inl ⟨rfl, entry, member, Closed.Grows.refl _⟩

/-- A closed group is sent. -/
theorem sender_of_closed
    {closed group : Closed} (isClosed : closed ∈ client.closes platform label)
    (grows : group.Grows closed)
    (stepped : client.step platform label = some next) :
    ∃ (place : Nat) (sender : Sender),
      next.stores.senders[place]? = some sender ∧
        group.Grows sender.closed := by
  have started := (takes_step stepped).started closed isClosed
  obtain ⟨place, found⟩ := List.mem_iff_getElem?.mp started
  exact ⟨place, Sender.start closed, found, grows⟩

theorem kept_step
    (kept : flush.Kept client)
    (stepped : client.step platform label = some next) :
    flush.Kept next where
  calls index call found returned := by
    obtain ⟨later, isLater, laterReturned⟩ :=
      kept.calls index call found returned
    obtain ⟨last, isLast, lastReturned, _⟩ :=
      returned_step isLater laterReturned stepped
    exact ⟨last, isLast, lastReturned⟩
  sent place sender found := by
    obtain ⟨later, isLater⟩ := kept.sent place sender found
    obtain ⟨last, isLast, _⟩ := done_step isLater stepped
    exact ⟨last, isLast⟩
  groups entry member := by
    rcases kept.groups entry member with ⟨begun, open_⟩ |
      ⟨place, sender, found, grows⟩
    · rcases opened_step stepped open_ with still | ⟨closed, isClosed, grows⟩
      · exact Or.inl ⟨begun, still⟩
      · exact Or.inr (sender_of_closed isClosed grows stepped)
    · obtain ⟨later, isLater, same, _⟩ := done_step found stepped
      exact Or.inr ⟨place, later, isLater, same ▸ grows⟩

/-- The groups that were open are closed when the flush has taken them
all. -/
theorem kept_takeAll
    (kept : flush.Kept client)
    (stepped : client.step platform .flush = some next) :
    Flush.Kept { flush with stage := .waiting } next where
  calls := (kept_step kept stepped).calls
  sent := (kept_step kept stepped).sent
  groups entry member := by
    rcases (kept_step kept stepped).groups entry member with ⟨_, open_⟩ | sent
    · cases stepped
      obtain ⟨_, isOpen, _⟩ := open_
      exact absurd isOpen List.not_mem_nil
    · exact Or.inr sent

theorem kept_return
    (kept : flush.Kept client) (waiting : flush.stage = .waiting)
    (finished : Bool) :
    Flush.Kept { flush with stage := .returned finished } client where
  calls := kept.calls
  sent := kept.sent
  groups entry member := by
    rcases kept.groups entry member with ⟨begun, _⟩ | sent
    · cases waiting.symm.trans begun
    · exact Or.inr sent

end Steps

/-! ## What is over stays over -/

section Over

variable {session : Session} {flush : Flush}

/-- With a count of zero everything is over. -/
theorem over_of_idle
    (counted : Counted session) (idle : session.inFlight.count = 0) :
    (∀ (index : Nat) (call : Call),
        session.client.calls[index]? = some call → call.Returned →
          session.Over (.call index)) ∧
      ∀ (place : Nat) (sender : Sender),
        session.client.stores.senders[place]? = some sender →
          session.Over (.sender place) := by
  have none : session.inFlight.guards = [] := by
    rw [← List.length_eq_zero_iff, ← counted.exact_.count, idle]
  have lost : ∀ holder, Unfinished session.client holder →
      holder ∈ session.panicked := by
    intro holder unfinished
    by_contra notPanicked
    have held := (counted.guards holder).mpr ⟨unfinished, notPanicked⟩
    rw [none] at held
    cases held
  constructor
  · intro index call found returned
    refine ⟨call, found, returned, ?_⟩
    by_cases done : call.stage = .done
    · exact Or.inl done
    · exact Or.inr (lost _ ⟨call, found, returned.1, returned.2, done⟩)
  · intro place sender found
    refine ⟨sender, found, ?_⟩
    by_cases done : sender.stage = .done
    · exact Or.inl done
    · exact Or.inr (lost _ ⟨sender, found, done⟩)

theorem finished_of_idle
    (counted : Counted session) (idle : session.inFlight.count = 0)
    (kept : flush.Kept session.client) (waiting : flush.stage = .waiting) :
    flush.Finished session where
  calls index call found returned := by
    obtain ⟨later, isLater, laterReturned⟩ :=
      kept.calls index call found returned
    exact (over_of_idle counted idle).1 index later isLater laterReturned
  sent place sender found := by
    obtain ⟨later, isLater⟩ := kept.sent place sender found
    exact (over_of_idle counted idle).2 place later isLater
  groups entry member := by
    rcases kept.groups entry member with ⟨begun, _⟩ |
      ⟨place, sender, found, grows⟩
    · cases waiting.symm.trans begun
    · exact ⟨place, sender, found, grows,
        (over_of_idle counted idle).2 place sender found⟩

/-- The session goes on. -/
structure Follows (platform : Platform) (session later : Session) : Prop where
  client : later.client = session.client ∨
    ∃ label, session.client.step platform label = some later.client
  panicked : ∀ holder ∈ session.panicked, holder ∈ later.panicked

theorem over_follows
    {later : Session} (follows : Follows platform session later)
    {holder : Holder} (ended : session.Over holder) : later.Over holder := by
  have panicked := follows.panicked holder
  cases holder with
  | call index =>
      obtain ⟨call, found, returned, ended⟩ := ended
      rcases follows.client with same | ⟨label, stepped⟩
      · exact ⟨call, same ▸ found, returned, ended.imp_right panicked⟩
      · obtain ⟨last, isLast, lastReturned, done⟩ :=
          returned_step found returned stepped
        exact ⟨last, isLast, lastReturned, ended.imp done panicked⟩
  | sender place =>
      obtain ⟨sender, found, ended⟩ := ended
      rcases follows.client with same | ⟨label, stepped⟩
      · exact ⟨sender, same ▸ found, ended.imp_right panicked⟩
      · obtain ⟨last, isLast, _, done⟩ := done_step found stepped
        exact ⟨last, isLast, ended.imp done panicked⟩

theorem finished_follows
    {later : Session} (follows : Follows platform session later)
    (finished : flush.Finished session) : flush.Finished later where
  calls index call found returned :=
    over_follows follows (finished.calls index call found returned)
  sent place sender found :=
    over_follows follows (finished.sent place sender found)
  groups entry member := by
    obtain ⟨place, sender, found, grows, ended⟩ :=
      finished.groups entry member
    have laterOver := over_follows follows ended
    rcases follows.client with same | ⟨label, stepped⟩
    · exact ⟨place, sender, same ▸ found, grows, laterOver⟩
    · obtain ⟨last, isLast, same, _⟩ := done_step found stepped
      exact ⟨place, last, isLast, same ▸ grows, laterOver⟩

end Over

end OpsSignal
