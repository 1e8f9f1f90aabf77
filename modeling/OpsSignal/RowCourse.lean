import OpsSignal.StoredRows

/-!
# The course of a stored row

A signal's row is pending until its own delivery completes it, or, where
only groups take the signal, grouped until a group completes it.  As long
as a group still owes the row its outcome, the group is open or being
sent.
-/

namespace OpsSignal

open LabelledRuns

variable {platform : Platform}

/-! ## Grouped routes exist -/

/-- The routes that a call asks and holds its signal for are routes of its
pipeline. -/
structure Call.Indexed (call : Call) : Prop where
  routes : ∀ entry ∈ call.routes,
    call.pipeline.routing.routes[entry.2]? = some entry.1
  loop : ∀ entry ∈ call.loop.grouped,
    (call.pipeline.routing.routes[entry.1]?).isSome = true
  plan : ∀ entry ∈ call.plan.grouped,
    (call.pipeline.routing.routes[entry.1]?).isSome = true
  holds : ∀ entry ∈ call.holds,
    (call.pipeline.routing.routes[entry.1]?).isSome = true

theorem mem_grouped_planRoute
    {State : Type} {signal : Signal} {admits : Gate State}
    {loop : PlanState} {state : State} {entry : Route × Nat}
    {held : Nat × String}
    (member :
      held ∈ (planRoute signal admits (loop, state) entry).1.grouped) :
    held ∈ loop.grouped ∨ held.1 = entry.2 := by
  rw [planRoute] at member
  split at member
  · exact Or.inl member
  · split at member
    · exact Or.inl member
    · split at member
      · rcases List.mem_append.mp member with old | new
        · exact Or.inl old
        · rw [List.mem_singleton.mp new]
          exact Or.inr rfl
      · exact Or.inl member

theorem indexed_callMove
    {call : Call} {stores : Stores} {moved : Call × Stores}
    (indexed : call.Indexed) (moves : CallMove platform call stores moved) :
    moved.1.Indexed := by
  obtain ⟨routes, loop, plan, holds⟩ := indexed
  cases moves with
  | prepare moment stage =>
      rw [Call.prepare]
      split
      · exact ⟨routes, loop, fun entry member => absurd member
          List.not_mem_nil, holds⟩
      · refine ⟨?_, loop, plan, holds⟩
        intro entry member
        exact List.mem_zipIdx_iff_getElem?.mp member
  | ask entry rest stage isRoutes =>
      rw [Call.plan_, isRoutes]
      refine ⟨?_, ?_, plan, holds⟩
      · intro other member
        exact routes other (isRoutes ▸ List.mem_cons_of_mem _ member)
      · intro held member
        rcases mem_grouped_planRoute member with old | new
        · exact loop held old
        · rw [new]
          have listed := routes entry (isRoutes ▸ List.mem_cons_self)
          rw [listed]
          rfl
  | planned stage isRoutes => exact ⟨routes, loop, loop, holds⟩
  | record stage => exact ⟨routes, loop, plan, plan⟩
  | skip entry rest stage isHolds absent
  | join route entry rest stage isHolds listed =>
      refine ⟨routes, loop, plan, ?_⟩
      intro other member
      exact holds other (isHolds ▸ List.mem_cons_of_mem _ member)
  | unsent | leave | send | finish | cut | deliver | settle | note
  | complete => exact ⟨routes, loop, plan, holds⟩

theorem indexed_newCall
    (client : Client) (input : SignalInput) (waits : Bool) :
    (client.newCall platform input waits).Indexed where
  routes _ member := absurd member List.not_mem_nil
  loop _ member := absurd member List.not_mem_nil
  plan _ member := absurd member List.not_mem_nil
  holds _ member := absurd member List.not_mem_nil

theorem indexed_calls
    {condition : Client → ClientStep → Prop} {pipeline : Pipeline}
    {labels : List ClientStep} {client : Client}
    (reached : Runs platform condition pipeline labels client) :
    ∀ call ∈ client.calls, call.Indexed := by
  apply calls_keep Call.Indexed reached
  · intro client input waits _
    exact indexed_newCall client input waits
  · intro call stores moved
    exact indexed_callMove

/-! ## What the row says -/

/-- A group that holds the id has come to this outcome. -/
def Told (id : String) (stores : Stores) (verdict : Verdict) : Prop :=
  ∃ sender ∈ stores.senders, sender.Ended ∧
    (∃ member ∈ sender.closed.members, member.signal.id = id) ∧
      verdict = sender.result.verdict

/-- The row of a signal that only groups take: still grouped, and waiting
for one of them, or completed by one. -/
def HeldRow (id : String) (call : Call) (stores : Stores) : Prop :=
  ∃ verdict, stores.verdict id = some verdict ∧
    ((verdict = (summarize call.plan [] none).verdict ∧
        (call.plan.grouped = [] ∨
          call.stage = .holding ∧ call.holds ≠ [] ∨ Owed id stores)) ∨
      Told id stores verdict)

/-- How the row stands while its call goes on. -/
def RowCourse (id : String) (call : Call) (stores : Stores) : Prop :=
  match call.stage with
  | .preparing | .planning | .recording => stores.verdict id = none
  | .unsent => stores.verdict id = some .pending ∧
      call.plan.targets = [] ∧ call.holds = call.plan.grouped
  | .holding =>
      if call.plan.targets = [] then HeldRow id call stores
      else stores.verdict id = some .pending
  | .delivering | .settling | .noting | .completing =>
      stores.verdict id = some .pending
  | .done =>
      if call.plan.targets = [] then HeldRow id call stores
      else stores.verdict id = some call.result.verdict

theorem rowCourse_of_empty
    {id : String} {call : Call} {stores : Stores}
    (empty : call.plan.targets = [])
    (stage : call.stage = .holding ∨ call.stage = .done) :
    RowCourse id call stores ↔ HeldRow id call stores := by
  rcases stage with stage | stage
  · simp [RowCourse, stage, empty]
  · simp [RowCourse, stage, empty]

section Step

variable {id : String} {index : Nat} {call : Call} {client next : Client}
  {label : ClientStep}

/-- A delivery that has ended stays as it ended. -/
theorem ended_senderMove
    {pipeline : Pipeline} {sender : Sender} {stores : Stores}
    {moved : Sender × Stores} (ended : sender.Ended)
    (moves : SenderMove platform pipeline sender stores moved) :
    moved.1.Ended ∧ moved.1.result = sender.result := by
  obtain ⟨⟨notOpening, notGating⟩, notStarting, notDelivering⟩ := ended
  cases moves with
  | open_ moment stage => exact absurd stage notOpening
  | gate moment stage => exact absurd stage notGating
  | start stage => exact absurd stage notStarting
  | deliver chain system stage => exact absurd stage notDelivering
  | finish stage => exact absurd stage notDelivering
  | settle | settled | complete | completed =>
      exact ⟨⟨⟨nofun, nofun⟩, nofun, nofun⟩, rfl⟩
  | settleMember | completeMember =>
      exact ⟨⟨⟨notOpening, notGating⟩, notStarting, notDelivering⟩, rfl⟩

theorem told_step
    (stepped : client.step platform label = some next) {verdict : Verdict}
    (told : Told id client.stores verdict) :
    Told id next.stores verdict := by
  obtain ⟨sender, isSender, ended, holds, same⟩ := told
  obtain ⟨other, found⟩ := List.mem_iff_getElem?.mp isSender
  obtain ⟨later, isLater, unchanged | ⟨moved, moves, rfl⟩⟩ :=
    sender_step found stepped
  · subst unchanged
    exact ⟨later, List.mem_of_getElem? isLater, ended, holds, same⟩
  · have still := ended_senderMove ended moves.move
    refine ⟨moved.1, List.mem_of_getElem? isLater, still.1, ?_, ?_⟩
    · rw [closed_senderMove moves.move]
      exact holds
    · rw [still.2]
      exact same

theorem mem_owes_of_completing
    {sender : Sender} {member : Member}
    (completing : sender.completing = some member) :
    member ∈ sender.owes := by
  rw [Sender.completing] at completing
  split at completing
  · rename_i stage
    simp only [Sender.owes, stage]
    exact List.mem_of_head? completing
  · cases completing

/-- A call without targets is never at the stages of a delivery. -/
theorem stage_of_empty
    (sound : call.Sound) (empty : call.plan.targets = [])
    (past : 3 < call.stage.rank) :
    call.stage = .holding ∨ call.stage = .done := by
  cases stage : call.stage with
  | holding => exact Or.inl rfl
  | done => exact Or.inr rfl
  | delivering => exact absurd empty (sound.begun stage).1
  | settling | noting | completing =>
      exact absurd empty (sound.ended (by simp [Call.Ended, stage])).1
  | preparing | planning | recording | unsent =>
      simp [stage, CallStage.rank] at past

/-- A member that a sender completes tells its row the sender's result. -/
theorem told_of_completes
    {other : Nat} {moment : Moment} {sender : Sender} {member : Member}
    (found : client.stores.senders[other]? = some sender)
    (owes : sender.OwesMembers)
    (completing : sender.completing = some member)
    (named : member.signal.id = id)
    (stepped : client.step platform (.sender other moment) = some next) :
    Told id next.stores sender.result.verdict := by
  have stage : sender.stage = .completingMembers := by
    rw [Sender.completing] at completing
    split at completing
    · assumption
    · cases completing
  have ended : sender.Ended := by
    simp [Sender.Ended, Sender.Planned, stage]
  have listed : member ∈ sender.owes := mem_owes_of_completing completing
  apply told_step stepped
  exact ⟨sender, List.mem_of_getElem? found, ended,
    ⟨member, (owes member listed).1, named⟩, rfl⟩

/-- Where no group completes the row, a group that waits goes on
waiting. -/
theorem heldRow_step
    (stepped : client.step platform label = some next)
    (owns : ∀ member ∈ next.stores.members, member.signal.id = id →
      member.ownsRow = true)
    (silent : ¬ CompletesMember id client label)
    (same : next.stores.verdict id = client.stores.verdict id)
    {later : Call} (plan : later.plan = call.plan)
    (waits : call.stage = .holding ∧ call.holds ≠ [] →
      (later.stage = .holding ∧ later.holds ≠ []) ∨
        ∃ member, client.joined platform label = some member ∧
          member.signal.id = id)
    (held : HeldRow id call client.stores) : HeldRow id later next.stores := by
  obtain ⟨verdict, found, waiting | told⟩ := held
  · refine ⟨verdict, same.trans found, Or.inl ?_⟩
    rw [plan]
    refine ⟨waiting.1, ?_⟩
    rcases waiting.2 with ungrouped | holding | owed
    · exact Or.inl ungrouped
    · rcases waits holding with later | joined
      · exact Or.inr (Or.inl later)
      · have owed := owed_step stepped owns (Or.inr joined)
        exact Or.inr (Or.inr (owed.resolve_right silent))
    · have still := owed_step stepped owns (Or.inl owed)
      exact Or.inr (Or.inr (still.resolve_right silent))
  · exact ⟨verdict, same.trans found, Or.inr (told_step stepped told)⟩

theorem step_call
    {moment : Moment} (found : client.calls[index]? = some call)
    (stepped : client.step platform (.call index moment) = some next) :
    ∃ moved, call.next platform moment client.stores = some moved ∧
      next = client.putCall index moved ∧
        next.calls[index]? = some moved.1 := by
  obtain ⟨other, isOther, moves⟩ := Option.bind_eq_some_iff.mp stepped
  cases found.symm.trans isOther
  obtain ⟨moved, isMoved, rfl⟩ := Option.map_eq_some_iff.mp moves
  have bound := (List.getElem?_eq_some_iff.mp found).1
  refine ⟨moved, isMoved, rfl, ?_⟩
  rw [Client.putCall, List.getElem?_set, if_pos rfl, if_pos bound]

/-- The course of the row over a step of its own call. -/
private theorem course_own
    {moment : Moment} {moved : Call × Stores}
    (owner : Owner id index call client) (sound : call.Sound)
    (indexed : call.Indexed) (course : RowCourse id call client.stores)
    (owns : call.plan.targets = [] → 3 < call.stage.rank →
      ∀ member ∈ next.stores.members, member.signal.id = id →
        member.ownsRow = true)
    (moves : CallMove platform call client.stores moved)
    (joins : ∀ route, call.joining = some route →
      client.joined platform (.call index moment) =
        some (call.member platform route))
    (stepped : client.step platform (.call index moment) = some next)
    (written : next.stores.verdict id =
      call.writes (client.stores.verdict id)) :
    RowCourse id moved.1 next.stores := by
  have silent : ¬ CompletesMember id client (.call index moment) := by
    rintro ⟨_, _, _, _, isSender, _⟩
    cases isSender
  have prepared := owner.prepared
  rw [Call.writes] at written
  rw [RowCourse] at course
  cases moves with
  | prepare moment stage =>
      rw [stage] at prepared
      cases prepared
  | ask entry rest stage routes =>
      simp only [stage] at written course
      rw [Call.plan_, routes]
      simp only [RowCourse, stage]
      exact written.trans course
  | planned stage routes =>
      simp only [stage] at written course
      exact written.trans course
  | record stage =>
      simp only [stage] at written course
      rw [course] at written
      by_cases empty : call.plan.targets = []
      · simp only [RowCourse, Call.record, empty, List.isEmpty_nil, if_true]
        exact ⟨written, trivial, trivial⟩
      · have nonempty : call.plan.targets.isEmpty = false := by
          simpa using empty
        simp only [RowCourse, Call.record, nonempty, Bool.false_eq_true,
          if_false, if_neg empty]
        exact written
  | unsent stage =>
      simp only [stage] at written course
      obtain ⟨_, empty, holds⟩ := course
      refine (rowCourse_of_empty ?_ (Or.inl ?_)).mpr ?_
      · exact empty
      · rfl
      refine ⟨_, written, Or.inl ⟨rfl, ?_⟩⟩
      by_cases ungrouped : call.plan.grouped = []
      · exact Or.inl ungrouped
      · exact Or.inr (Or.inl ⟨rfl, holds ▸ ungrouped⟩)
  | leave stage holds empty =>
      simp only [stage, if_pos empty] at written course
      refine (rowCourse_of_empty ?_ (Or.inr ?_)).mpr ?_
      · exact empty
      · rfl
      refine heldRow_step stepped
        (owns empty (by simp [stage, CallStage.rank])) silent written ?_ ?_
        course
      · rfl
      · intro holding
        exact absurd holds holding.2
  | send stage holds nonempty =>
      simp only [stage, if_neg nonempty] at written course
      exact written.trans course
  | skip entry rest stage holds absent =>
      have listed := indexed.holds entry (holds ▸ List.mem_cons_self)
      rw [absent] at listed
      cases listed
  | join route entry rest stage holds listed =>
      simp only [stage] at written course
      simp only [RowCourse, stage]
      split
      · rename_i empty
        rw [if_pos empty] at course
        refine heldRow_step stepped
          (owns empty (by simp [stage, CallStage.rank])) silent written ?_
          ?_ course
        · rfl
        · intro _
          have joining : call.joining = some route := by
            simp [Call.joining, stage, holds, listed]
          exact Or.inr ⟨_, joins route joining, owner.named⟩
      · rename_i nonempty
        rw [if_neg nonempty] at course
        exact written.trans course
  | finish stage finished | cut message stage waits | settle stage
  | note stage =>
      simp only [stage] at written course
      exact written.trans course
  | deliver chain system stage advanced =>
      simp only [stage] at written course
      simp only [RowCourse, stage]
      exact written.trans course
  | complete stage =>
      simp only [stage] at written
      have nonempty := (sound.ended (by simp [Call.Ended, stage])).1
      simp only [RowCourse, if_neg nonempty]
      exact written

/-- Where no member is completed, another step than the call's own leaves
the row alone. -/
theorem rowAfter_silent
    (silent : ¬ CompletesMember id client label)
    (notOwn : ∀ moment, label ≠ .call index moment)
    (old : Option Verdict) : rowAfter id index client label old = old := by
  cases label with
  | call other moment =>
      have different : other ≠ index := by
        rintro rfl
        exact notOwn moment rfl
      rw [rowAfter, if_neg different]
  | sender other moment =>
      rw [rowAfter]
      cases found : client.stores.senders[other]? with
      | none => rfl
      | some sender =>
          rw [Option.map_some, Option.getD_some, Sender.writes]
          cases completing : sender.completing with
          | none => rfl
          | some member =>
              apply if_neg
              intro named
              exact silent
                ⟨other, moment, sender, member, rfl, found, completing,
                  named⟩
  | start | deliver | cut | timer | flush | deliverGroup | reload => rfl

/-- The course of the row over a step of anything else. -/
private theorem course_other
    (sound : call.Sound) (course : RowCourse id call client.stores)
    (owner : Owner id index call client)
    (owesAll : ∀ sender ∈ client.stores.senders, sender.OwesMembers)
    (owns : call.plan.targets = [] → 3 < call.stage.rank →
      ∀ member ∈ next.stores.members, member.signal.id = id →
        member.ownsRow = true)
    (notOwn : ∀ moment, label ≠ .call index moment) {later : Call}
    (became : later = call ∨ ∃ moved,
      CallMoves platform label index call client.stores moved ∧
        later = moved.1)
    (stepped : client.step platform label = some next)
    (written : next.stores.verdict id =
      rowAfter id index client label (client.stores.verdict id)) :
    RowCourse id later next.stores := by
  by_cases completes : CompletesMember id client label
  · have again := completes
    obtain ⟨other, moment, sender, member, rfl, found, completing, named⟩ :=
      again
    have isSender := List.mem_of_getElem? found
    have owes := owesAll sender isSender
    have owed : member ∈ sender.owes := mem_owes_of_completing completing
    obtain ⟨listed, ownsRow⟩ := owes member owed
    have held := mem_members_of_sender isSender listed
    obtain ⟨_, isEmpty, past⟩ := owner.members member held named
    have empty : call.plan.targets = [] := by
      rw [ownsRow] at isEmpty
      exact List.isEmpty_iff.mp isEmpty.symm
    have same : later = call := by
      rcases became with same | ⟨moved, ⟨_, isCall, _⟩ | ⟨_, isCall, _⟩ |
        ⟨_, isCall, _⟩, _⟩
      · exact same
      · cases isCall
      · cases isCall
      · cases isCall
    rw [same, rowCourse_of_empty empty (stage_of_empty sound empty past)]
    rw [rowAfter, found, Option.map_some, Option.getD_some, Sender.writes,
      completing] at written
    simp only [named, if_true] at written
    exact ⟨_, written, Or.inr
      (told_of_completes found owes completing named stepped)⟩
  · rw [rowAfter_silent completes notOwn] at written
    rcases became with rfl | ⟨moved, moves, rfl⟩
    · have kept : HeldRow id later client.stores →
          later.plan.targets = [] → 3 < later.stage.rank →
            HeldRow id later next.stores := by
        intro held empty past
        exact heldRow_step stepped (owns empty past) completes written rfl
          Or.inl held
      rw [RowCourse] at course ⊢
      cases stage : later.stage with
      | holding | done =>
          simp only [stage] at course ⊢
          split
          · rename_i empty
            rw [if_pos empty] at course
            exact kept course empty (by simp [stage, CallStage.rank])
          · rename_i nonempty
            rw [if_neg nonempty] at course
            exact written.trans course
      | unsent =>
          simp only [stage] at course ⊢
          exact ⟨written.trans course.1, course.2⟩
      | preparing | planning | recording | delivering | settling | noting
      | completing =>
          simp only [stage] at course ⊢
          exact written.trans course
    · rw [RowCourse] at course
      rcases moves with ⟨moment, own, _⟩ | ⟨chain, _, moves⟩ |
        ⟨message, _, ended, moves, rfl⟩
      · exact absurd own (notOwn moment)
      · have stage := stage_of_deliver moves
        simp only [stage] at course
        rw [Call.deliver, if_pos stage] at moves
        obtain ⟨system, _, rfl⟩ := Option.map_eq_some_iff.mp moves
        simp only [RowCourse, stage]
        exact written.trans course
      · rw [Call.cut] at moves
        split at moves
        · rename_i may
          cases moves
          simp only [may.1] at course
          exact written.trans course
        · cases moves

/-- The course of the row over a step. -/
theorem course_step
    (owner : Owner id index call client) (sound : call.Sound)
    (indexed : call.Indexed) (course : RowCourse id call client.stores)
    (owesAll : ∀ sender ∈ client.stores.senders, sender.OwesMembers)
    (fresh : Unstamping id client label)
    (stepped : client.step platform label = some next) :
    ∃ later, Owner id index later next ∧ RowCourse id later next.stores := by
  obtain ⟨later, laterOwner, became⟩ := owner_step owner fresh stepped
  have written := verdict_step owner fresh stepped
  have owns : call.plan.targets = [] → 3 < call.stage.rank →
      ∀ member ∈ next.stores.members, member.signal.id = id →
        member.ownsRow = true := by
    intro empty past member listed named
    obtain ⟨_, ownsRow, _⟩ := laterOwner.members member listed named
    have samePlan : later.plan = call.plan := by
      rcases became with rfl | ⟨moved, moves, rfl⟩
      · rfl
      · exact plan_callMove (by omega) moves.move
    rw [ownsRow, samePlan, empty]
    rfl
  refine ⟨later, laterOwner, ?_⟩
  by_cases own : ∃ moment, label = .call index moment
  · obtain ⟨moment, rfl⟩ := own
    obtain ⟨moved, moves, rfl, isLater⟩ := step_call owner.found stepped
    have same : later = moved.1 :=
      Option.some.inj (laterOwner.found.symm.trans isLater)
    rw [rowAfter, if_pos rfl, owner.found, Option.map_some,
      Option.getD_some] at written
    rw [same]
    apply course_own owner sound indexed course owns
      (callMove_of_next moves) _ stepped written
    intro route joining
    rw [Client.joined, owner.found, Option.bind_some, joining]
    rfl
  · exact course_other sound course owner owesAll owns
      (fun moment isOwn => own ⟨moment, isOwn⟩) became stepped written

/-- Nothing is stored under an id that nothing carries. -/
theorem verdict_unstamped_step
    (unstamped : Unstamped id client)
    (owesAll : ∀ sender ∈ client.stores.senders, sender.OwesMembers)
    (fresh : Unstamping id client label)
    (stepped : client.step platform label = some next) :
    next.stores.verdict id = client.stores.verdict id := by
  rcases step_cases stepped with ⟨input, waits, rfl, _, rfl⟩ |
    ⟨other, another, moved, found, moves, rfl⟩ |
    ⟨other, sender, moved, found, moves, rfl⟩ | ⟨other, rfl, elapsed⟩ |
    ⟨rfl, rfl⟩ | ⟨pipeline, rfl, rfl⟩
  · rfl
  · have written := @verdict_callMove platform id _ _ _ moves.move
    by_cases named : another.signal.id = id
    · have unprepared : another.stage = .preparing := by
        cases stage : another.stage with
        | preparing => rfl
        | planning | recording | unsent | holding | delivering | settling
        | noting | completing | done =>
            exact absurd named (unstamped.calls another
              (List.mem_of_getElem? found) (by simp [stage, CallStage.rank]))
      rw [if_pos named, Call.writes, unprepared] at written
      exact written
    · rw [if_neg named] at written
      exact written
  · have isSender := List.mem_of_getElem? found
    have digest : moved.1.closed.single = false →
        moved.1.stage ≠ .opening → moved.1.signal.id ≠ id := by
      intro several opened named
      have later := noDigest_step unstamped.digests fresh stepped
      have bound := (List.getElem?_eq_some_iff.mp found).1
      have member : moved.1 ∈
          (client.putSender other moved).stores.senders := by
        rw [Client.putSender, senders_senderMove moves.move]
        exact List.mem_set bound moved.1
      exact later moved.1 member several opened named
    have written := verdict_senderMove digest moves.move
    rw [Sender.writes] at written
    cases completing : sender.completing with
    | none =>
        rw [completing] at written
        exact written
    | some member =>
        have listed := (owesAll sender isSender member
          (mem_owes_of_completing completing)).1
        have held := mem_members_of_sender isSender listed
        simp only [completing,
          if_neg (unstamped.members member held)] at written
        exact written
  · obtain ⟨timer, _, rfl⟩ := Option.map_eq_some_iff.mp elapsed
    dsimp only
    split
    · rfl
    · rfl
  · rfl
  · rfl

end Step

/-! ## Runs in which one call is stamped with the id -/

/-- The call at this place is stamped with the id in this run, and nothing
else is. -/
def StampedOnce
    (platform : Platform) (pipeline : Pipeline) (id : String)
    (index : Nat) (labels : List ClientStep) (client : Client) : Prop :=
  ∃ before moment after first call prepared,
    labels = before ++ .call index moment :: after ∧
      Runs platform (Unstamping id) pipeline before first ∧
      first.calls[index]? = some call ∧ call.stage = .preparing ∧
      moment.id = id ∧
      first.step platform (.call index moment) = some prepared ∧
      Reaches (Client.step platform) (Unstamping id) prepared after client

section Runs

variable {id : String} {index : Nat} {pipeline : Pipeline}
  {labels : List ClientStep} {client : Client}

theorem runs_of_stampedOnce
    (stamped : StampedOnce platform pipeline id index labels client) :
    Runs platform anyStep pipeline labels client := by
  obtain ⟨before, moment, after, first, call, prepared, rfl, earlier, _, _,
    _, stepped, later⟩ := stamped
  have middle := earlier.anyStep.append (Reaches.single trivial stepped)
  have whole := middle.append later.anyStep
  rwa [List.append_assoc] at whole

theorem unstamped_runs
    (reached : Runs platform (Unstamping id) pipeline labels client) :
    Unstamped id client ∧ client.stores.verdict id = none := by
  induction reached with
  | nil => exact ⟨unstamped_fromPipeline pipeline, rfl⟩
  | snoc earlier fresh stepped inductionHypothesis =>
      obtain ⟨unstamped, none⟩ := inductionHypothesis
      have owesAll := owesMembers_senders earlier
      exact ⟨unstamped_step unstamped fresh stepped,
        (verdict_unstamped_step unstamped owesAll fresh stepped).trans none⟩

theorem stampedOnce_append
    {first : Client} {more : List ClientStep}
    (stamped : StampedOnce platform pipeline id index labels first)
    (rest : Reaches (Client.step platform) (Unstamping id) first more
      client) :
    StampedOnce platform pipeline id index (labels ++ more) client := by
  obtain ⟨before, moment, after, start, call, prepared, rfl, earlier, found,
    stage, stamp, stepped, later⟩ := stamped
  refine ⟨before, moment, after ++ more, start, call, prepared, ?_, earlier,
    found, stage, stamp, stepped, later.append rest⟩
  rw [List.append_assoc]
  rfl

/-- Before its last step, a run that stamps the id has stamped it already,
or has not yet. -/
theorem stampedOnce_of_snoc
    {label : ClientStep} {before next : Client}
    (reached : Runs platform anyStep pipeline labels before)
    (stepped : before.step platform label = some next)
    (stamped :
      StampedOnce platform pipeline id index (labels ++ [label]) next) :
    (StampedOnce platform pipeline id index labels before ∧
        Unstamping id before label) ∨
      Runs platform (Unstamping id) pipeline labels before := by
  obtain ⟨earlier, moment, after, first, call, prepared, same, toFirst,
    found, stage, stamp, toPrepared, later⟩ := stamped
  rcases List.eq_nil_or_concat after with rfl | ⟨rest, last, rfl⟩
  · right
    obtain ⟨rfl, _⟩ := List.append_inj' same rfl
    have sameState := toFirst.unique reached
    exact sameState ▸ toFirst
  · left
    rw [List.concat_eq_append, ← List.cons_append,
      ← List.append_assoc] at same
    obtain ⟨rfl, sameLabel⟩ := List.append_inj' same rfl
    cases sameLabel
    rw [List.concat_eq_append] at later
    obtain ⟨state, toState, fresh, _⟩ := reaches_snoc_iff.mp later
    have middle : StampedOnce platform pipeline id index
        (earlier ++ .call index moment :: rest) state :=
      ⟨earlier, moment, rest, first, call, prepared, rfl, toFirst, found,
        stage, stamp, toPrepared, toState⟩
    have sameState := (runs_of_stampedOnce middle).unique reached
    subst sameState
    exact ⟨middle, fresh⟩

/-- The call that a run stamps with an id owns it, and the row has come as
far as the call. -/
theorem course_of_stampedOnce
    (stamped : StampedOnce platform pipeline id index labels client) :
    ∃ call, Owner id index call client ∧ RowCourse id call client.stores := by
  obtain ⟨before, moment, after, first, call, prepared, rfl, earlier, found,
    stage, stamp, stepped, later⟩ := stamped
  have middle := earlier.anyStep.append (Reaches.single trivial stepped)
  obtain ⟨unstamped, none⟩ := unstamped_runs earlier
  obtain ⟨owner, sameStores⟩ :=
    owner_of_stamp unstamped found stage stamp stepped
  induction later with
  | nil =>
      refine ⟨_, owner, ?_⟩
      rw [sameStores, Call.prepare]
      by_cases lifecycle : call.input.action.isLifecycle = true
      · rw [if_pos lifecycle]
        exact none
      · rw [if_neg lifecycle]
        exact none
  | snoc reached fresh laterStep inductionHypothesis =>
      obtain ⟨current, currentOwner, course⟩ := inductionHypothesis
      have whole := middle.append reached.anyStep
      have isCall := List.mem_of_getElem? currentOwner.found
      exact course_step currentOwner (sound_calls whole current isCall)
        (indexed_calls whole current isCall) course
        (owesMembers_senders whole) fresh laterStep

/-- A run that stamps the call at this place with the moment's id, and
nothing else. -/
def stampedRun
    (platform : Platform) (pipeline : Pipeline) (index : Nat)
    (before : List ClientStep) (moment : Moment) (after : List ClientStep) :
    Option Client :=
  (run (Client.step platform) (Unstamping moment.id)
      (Client.fromPipeline pipeline) before).bind fun first =>
    if first.calls[index]?.any fun call =>
        decide (call.stage = .preparing) then
      (first.step platform (.call index moment)).bind fun prepared =>
        run (Client.step platform) (Unstamping moment.id) prepared after
    else
      none

theorem stampedOnce_of_run
    {before after : List ClientStep} {moment : Moment}
    (computed :
      stampedRun platform pipeline index before moment after = some client) :
    StampedOnce platform pipeline moment.id index
      (before ++ .call index moment :: after) client := by
  obtain ⟨first, earlier, computed⟩ := Option.bind_eq_some_iff.mp computed
  split at computed
  · rename_i stamped
    obtain ⟨call, found, stage⟩ := Option.any_eq_true _ _ |>.mp stamped
    obtain ⟨prepared, stepped, later⟩ :=
      Option.bind_eq_some_iff.mp computed
    exact ⟨before, moment, after, first, call, prepared, rfl,
      reaches_of_run earlier, found, of_decide_eq_true stage, rfl, stepped,
      reaches_of_run later⟩
  · cases computed

end Runs

end OpsSignal
