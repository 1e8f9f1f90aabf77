import OpsSignal.FlushedGroups
import OpsSignal.GroupedRows

/-!
# The rows of flushed signals

When a flush has finished, no group owes its outcome to a signal whose
`notify_async` had returned before, and the stored row of the signal is
its last.
-/

namespace OpsSignal

open LabelledRuns

variable {platform : Platform} {pipeline : Pipeline} {id : String}
  {index : Nat}

/-! ## Every flush of a session -/

/-- What a session keeps of all its flushes. -/
def KeepsFlushes (session : Session) : Prop :=
  ∀ flush ∈ session.flushes, flush.Kept session.client ∧
    (flush.stage = .returned true → flush.Finished session)

section Sessions

variable {session later : Session} {label : SessionStep}

theorem follows_step
    (counted : Counted session)
    (stepped : session.step platform label = some later) :
    Follows platform session later := by
  obtain ⟨_, ⟨moves, next, inFlight, _, moved, rfl⟩ |
    ⟨holder, inFlight, _, rfl⟩ | ⟨_, rfl⟩ |
    ⟨index, flush, next, inFlight, _, _, _, moved, rfl⟩ |
    ⟨index, timedOut, flush, finished, _, _, _, _, rfl⟩⟩ :=
      session_cases counted stepped
  · exact ⟨Or.inr ⟨moves, moved⟩, fun _ lost => lost⟩
  · exact ⟨Or.inl rfl, fun _ lost => List.mem_cons_of_mem _ lost⟩
  · exact ⟨Or.inl rfl, fun _ lost => lost⟩
  · exact ⟨Or.inr ⟨.flush, moved⟩, fun _ lost => lost⟩
  · exact ⟨Or.inl rfl, fun _ lost => lost⟩

private theorem kept_follows
    {flush : Flush} (follows : Follows platform session later)
    (kept : flush.Kept session.client) : flush.Kept later.client := by
  rcases follows.client with same | ⟨label, stepped⟩
  · exact same ▸ kept
  · exact kept_step kept stepped

theorem keepsFlushes_step
    (counted : Counted session) (keeps : KeepsFlushes session)
    (stepped : session.step platform label = some later) :
    KeepsFlushes later := by
  have follows := follows_step counted stepped
  have old : ∀ flush ∈ session.flushes, flush.Kept later.client ∧
      (flush.stage = .returned true → flush.Finished later) := by
    intro flush member
    obtain ⟨kept, finished⟩ := keeps flush member
    exact ⟨kept_follows follows kept,
      fun returned => finished_follows follows (finished returned)⟩
  obtain ⟨_, ⟨moves, next, inFlight, _, moved, rfl⟩ |
    ⟨holder, inFlight, _, rfl⟩ | ⟨_, rfl⟩ |
    ⟨index, flush, next, inFlight, _, found, begun, moved, rfl⟩ |
    ⟨index, timedOut, flush, finished, _, found, waiting, idle, rfl⟩⟩ :=
      session_cases counted stepped
  · exact old
  · exact old
  · intro flush member
    rcases List.mem_append.mp member with isOld | isNew
    · exact old flush isOld
    · rw [List.mem_singleton.mp isNew]
      exact ⟨kept_begin, nofun⟩
  · intro other member
    rcases List.mem_or_eq_of_mem_set member with isOld | rfl
    · exact old other isOld
    · have kept := (keeps flush (List.mem_of_getElem? found)).1
      exact ⟨kept_takeAll kept moved, nofun⟩
  · intro other member
    rcases List.mem_or_eq_of_mem_set member with isOld | rfl
    · exact old other isOld
    · have kept := (keeps flush (List.mem_of_getElem? found)).1
      refine ⟨kept_return kept waiting finished, ?_⟩
      intro returned
      have isTrue : finished = true := FlushStage.returned.inj returned
      have over_ := finished_of_idle counted (idle isTrue) kept waiting
      exact ⟨over_.calls, over_.sent, over_.groups⟩

/-- The counter stays exact, and what there was when a flush began is
kept. -/
theorem counted_runs
    {labels : List SessionStep}
    (reached : Reaches (Session.step platform) anyStep
      (Session.start pipeline) labels session) :
    Counted session ∧ KeepsFlushes session := by
  induction reached with
  | nil =>
      exact ⟨counted_start pipeline,
        fun _ member => absurd member List.not_mem_nil⟩
  | snoc _ _ stepped inductionHypothesis =>
      obtain ⟨counted, keeps⟩ := inductionHypothesis
      exact ⟨(session_cases counted stepped).1,
        keepsFlushes_step counted keeps stepped⟩

/-- A session is a run of its client. -/
theorem client_runs
    {labels : List SessionStep}
    (reached : Reaches (Session.step platform) anyStep
      (Session.start pipeline) labels session) :
    Runs platform anyStep pipeline (labels.flatMap SessionStep.clientSteps)
      session.client := by
  induction reached with
  | nil => exact Reaches.nil
  | snoc earlier _ stepped inductionHypothesis =>
      rw [List.flatMap_append, List.flatMap_singleton]
      have counted := (counted_runs earlier).1
      obtain ⟨_, ⟨moves, next, inFlight, rfl, moved, rfl⟩ |
        ⟨holder, inFlight, rfl, rfl⟩ | ⟨rfl, rfl⟩ |
        ⟨index, flush, next, inFlight, rfl, _, _, moved, rfl⟩ |
        ⟨index, timedOut, flush, finished, rfl, _, _, _, rfl⟩⟩ :=
          session_cases counted stepped
      · exact Reaches.snoc inductionHypothesis trivial moved
      · exact (List.append_nil _).symm ▸ inductionHypothesis
      · exact (List.append_nil _).symm ▸ inductionHypothesis
      · exact Reaches.snoc inductionHypothesis trivial moved
      · exact (List.append_nil _).symm ▸ inductionHypothesis

end Sessions

/-! ## The members of a signal -/

/-- The call had returned when the flush began. -/
def Flush.Covers (index : Nat) (flush : Flush) : Prop :=
  ∃ call : Call, flush.began.calls[index]? = some call ∧ call.Returned

/-- After a flush has taken the groups, no open group holds the id, and
once it has finished every group that holds the id is over. -/
structure Flush.Clear (id : String) (flush : Flush) (session : Session) :
    Prop where
  groups : flush.stage ≠ .begun →
    ∀ member ∈ session.client.stores.groups.members, member.signal.id ≠ id
  sent : flush.stage = .returned true →
    ∀ (place : Nat) (sender : Sender),
      session.client.stores.senders[place]? = some sender →
        (∃ member ∈ sender.closed.members, member.signal.id = id) →
          session.Over (.sender place)

theorem clear_of_unstamped
    {flush : Flush} {session : Session}
    (unstamped : Unstamped id session.client) : flush.Clear id session where
  groups _ member listed :=
    unstamped.members member (List.mem_append_left _ listed)
  sent _ place sender found holds := by
    obtain ⟨member, listed, named⟩ := holds
    have isSender := List.mem_of_getElem? found
    exact absurd named
      (unstamped.members member (mem_members_of_sender isSender listed))

section Step

variable {client next : Client} {label : ClientStep} {call : Call}

/-- A member that joins a group is not one of a call that has returned. -/
theorem joined_elsewhere
    (owner : Owner id index call client) (returned : call.Returned)
    {member : Member}
    (joined : client.joined platform label = some member) :
    member.signal.id ≠ id := by
  obtain ⟨other, another, route, found, stage, rfl⟩ := joined_eq_some joined
  intro named
  have same := owner.alone other another found
    (by simp [stage, CallStage.rank]) named
  subst same
  cases found.symm.trans owner.found
  have past := returned.2
  simp [stage, CallStage.rank] at past

/-- What is in the open groups after a step, or in those it closes, was in
an open group or has joined one. -/
theorem mem_groups_of_step
    (stepped : client.step platform label = some next) {member : Member}
    (held : member ∈ next.stores.groups.members ∨
      ∃ closed ∈ client.closes platform label, member ∈ closed.members) :
    member ∈ client.stores.groups.members ∨
      client.joined platform label = some member := by
  have listed : member ∈ next.stores.groups.members ++
      (client.closes platform label).flatMap Closed.members := by
    rw [List.mem_append, List.mem_flatMap]
    exact held
  rw [(takes_step stepped).members.mem_iff, List.mem_append,
    Option.mem_toList] at listed
  exact listed

/-- A sender after a step has the group of a sender before it, or one that
the step closed. -/
theorem closed_of_step
    {place : Nat} {later : Sender}
    (found : next.stores.senders[place]? = some later)
    (stepped : client.step platform label = some next) :
    (∃ sender, client.stores.senders[place]? = some sender ∧
        later.closed = sender.closed) ∨
      later.closed ∈ client.closes platform label := by
  have isClosed : (next.stores.senders.map Sender.closed)[place]? =
      some later.closed := by
    rw [List.getElem?_map, found]
    rfl
  rw [(takes_step stepped).sent, List.getElem?_append] at isClosed
  split at isClosed
  · rw [List.getElem?_map] at isClosed
    obtain ⟨sender, isSender, same⟩ := Option.map_eq_some_iff.mp isClosed
    exact Or.inl ⟨sender, isSender, same.symm⟩
  · exact Or.inr (List.mem_of_getElem? isClosed)

/-- A step of the client keeps a flush clear of an id whose call has
returned. -/
theorem clear_client
    {session later : Session} {flush : Flush}
    (owner : Owner id index call session.client) (returned : call.Returned)
    (follows : Follows platform session later)
    (stepped : session.client.step platform label = some later.client)
    (clear : flush.Clear id session) : flush.Clear id later := by
  have elsewhere : flush.stage ≠ .begun → ∀ member : Member,
      member ∈ session.client.stores.groups.members ∨
        session.client.joined platform label = some member →
          member.signal.id ≠ id := by
    intro begun member held
    rcases held with listed | joined
    · exact clear.groups begun member listed
    · exact joined_elsewhere owner returned joined
  constructor
  · intro begun member listed
    exact elsewhere begun member
      (mem_groups_of_step stepped (Or.inl listed))
  · intro finished place sender found holds
    rcases closed_of_step found stepped with ⟨before, isBefore, same⟩ |
      isClosed
    · rw [same] at holds
      exact over_follows follows
        (clear.sent finished place before isBefore holds)
    · obtain ⟨member, listed, named⟩ := holds
      have begun : flush.stage ≠ .begun := by simp [finished]
      exact absurd named (elsewhere begun member
        (mem_groups_of_step stepped (Or.inr ⟨_, isClosed, listed⟩)))

end Step

/-! ## Runs -/

/-- Up to here the run has stamped the id once or not at all. -/
def Stamping
    (platform : Platform) (pipeline : Pipeline) (id : String)
    (index : Nat) (labels : List ClientStep) (client : Client) : Prop :=
  StampedOnce platform pipeline id index labels client ∨
    Runs platform (Unstamping id) pipeline labels client

theorem stamping_of_snoc
    {labels : List ClientStep} {client next : Client} {label : ClientStep}
    (reached : Runs platform anyStep pipeline labels client)
    (stepped : client.step platform label = some next)
    (stamping :
      Stamping platform pipeline id index (labels ++ [label]) next) :
    Stamping platform pipeline id index labels client := by
  rcases stamping with stamped | unstamped
  · exact (stampedOnce_of_snoc reached stepped stamped).imp_left And.left
  · obtain ⟨state, earlier, _, _⟩ := reaches_snoc_iff.mp unstamped
    exact Or.inr (earlier.anyStep.unique reached ▸ earlier)

/-- A flush that covers the call is clear, whatever its client does
next. -/
theorem clear_follows
    {labels : List ClientStep} {label : ClientStep}
    {session later : Session} {flush : Flush}
    (reached : Runs platform anyStep pipeline labels session.client)
    (kept : flush.Kept session.client) (covers : flush.Covers index)
    (follows : Follows platform session later)
    (stepped : session.client.step platform label = some later.client)
    (stamping : Stamping platform pipeline id index (labels ++ [label])
      later.client)
    (clear : flush.Clear id session) : flush.Clear id later := by
  obtain ⟨began, isBegan, beganReturned⟩ := covers
  obtain ⟨current, isCurrent, returned⟩ :=
    kept.calls index began isBegan beganReturned
  rcases stamping with stamped | unstamped
  · rcases stampedOnce_of_snoc reached stepped stamped with
      ⟨before, _⟩ | before
    · obtain ⟨call, owner, _⟩ := course_of_stampedOnce before
      cases isCurrent.symm.trans owner.found
      exact clear_client owner returned follows stepped clear
    · -- A call that has returned is not the one that is stamped now.
      exfalso
      obtain ⟨call, owner, _⟩ := course_of_stampedOnce stamped
      have past := returned.2
      have other := (unstamped_runs before).1.calls current
        (List.mem_of_getElem? isCurrent) (by omega)
      obtain ⟨last, isLast, same | ⟨moved, moves, rfl⟩⟩ :=
        call_step isCurrent stepped
      · cases isLast.symm.trans owner.found
        exact other (same ▸ owner.named)
      · cases isLast.symm.trans owner.found
        apply other
        rw [← signal_callMove (by omega) moves.move]
        exact owner.named
  · exact clear_of_unstamped (unstamped_runs unstamped).1

theorem clear_runs
    {labels : List SessionStep} {session : Session}
    (reached : Reaches (Session.step platform) anyStep
      (Session.start pipeline) labels session)
    (stamping : Stamping platform pipeline id index
      (labels.flatMap SessionStep.clientSteps) session.client) :
    ∀ flush ∈ session.flushes, flush.Covers index →
      flush.Clear id session := by
  induction reached with
  | nil => exact fun _ member => absurd member List.not_mem_nil
  | @snoc labels session later label earlier _ stepped
      inductionHypothesis =>
      obtain ⟨counted, keeps⟩ := counted_runs earlier
      have runs := client_runs earlier
      have follows := follows_step counted stepped
      rw [List.flatMap_append, List.flatMap_singleton] at stamping
      have idle (same : label.clientSteps = []) :
          Stamping platform pipeline id index
            (labels.flatMap SessionStep.clientSteps) later.client := by
        rw [same, List.append_nil] at stamping
        exact stamping
      obtain ⟨_, ⟨moves, next, inFlight, rfl, moved, rfl⟩ |
        ⟨holder, inFlight, rfl, rfl⟩ | ⟨rfl, rfl⟩ |
        ⟨place, flush, next, inFlight, rfl, found, begun, moved, rfl⟩ |
        ⟨place, timedOut, flush, finished, rfl, found, waiting, none_,
          rfl⟩⟩ := session_cases counted stepped
      · have before := inductionHypothesis
          (stamping_of_snoc runs moved stamping)
        intro other member covers
        exact clear_follows runs (keeps other member).1 covers follows moved
          stamping (before other member covers)
      · replace stamping := idle rfl
        intro other member covers
        have before := inductionHypothesis stamping other member covers
        refine ⟨before.groups, ?_⟩
        intro returned sender place isSender holds
        exact over_follows follows
          (before.sent returned sender place isSender holds)
      · replace stamping := idle rfl
        intro other member covers
        rcases List.mem_append.mp member with isOld | isNew
        · have before := inductionHypothesis stamping other isOld covers
          exact ⟨before.groups, before.sent⟩
        · rw [List.mem_singleton.mp isNew]
          exact ⟨fun begun => absurd rfl begun, nofun⟩
      · have before := inductionHypothesis
          (stamping_of_snoc runs moved stamping)
        intro other member covers
        rcases List.mem_or_eq_of_mem_set member with isOld | rfl
        · exact clear_follows runs (keeps other isOld).1 covers follows
            moved stamping (before other isOld covers)
        · cases moved
          exact ⟨fun _ _ listed => absurd listed List.not_mem_nil, nofun⟩
      · replace stamping := idle rfl
        intro other member covers
        rcases List.mem_or_eq_of_mem_set member with isOld | rfl
        · have before := inductionHypothesis stamping other isOld covers
          exact ⟨before.groups, before.sent⟩
        · have before := inductionHypothesis stamping flush
            (List.mem_of_getElem? found) covers
          refine ⟨fun _ => before.groups (by simp [waiting]), ?_⟩
          intro returned sender place isSender _
          have isTrue : finished = true := FlushStage.returned.inj returned
          exact (over_of_idle counted (none_ isTrue)).2 sender place isSender

/-! ## The stored row -/

/-- The row says how a delivery ended. -/
def Verdict.Final (verdict : Verdict) : Prop :=
  verdict.status ≠ .pending ∧ verdict.status ≠ .grouped

instance decidableFinal (verdict : Verdict) : Decidable verdict.Final :=
  inferInstanceAs (Decidable (_ ∧ _))

/-- Only a plan without targets that groups take leaves a row grouped. -/
theorem final_summarize
    {plan : DeliveryPlan} (outcomes : List ProviderOutcome)
    (cutOff : Option String) (sent : plan.targets ≠ [] ∨ plan.grouped = []) :
    (summarize plan outcomes cutOff).verdict.Final := by
  have notHeld : (plan.targets.isEmpty && !plan.grouped.isEmpty) = false := by
    rcases sent with nonempty | ungrouped
    · simp [nonempty]
    · simp [ungrouped]
  rw [Verdict.Final, DeliveryResult.verdict]
  dsimp only
  rw [status_summarize, notHeld]
  simp only [Bool.false_eq_true, if_false]
  constructor
  · split_ifs <;> simp
  · split_ifs <;> simp

theorem grouped_planOf (route : Route) (answer : Except String Unit) :
    (Sender.planOf route answer).grouped = [] := by
  cases answer with
  | error reason => rfl
  | ok => rfl

/-- What a group tells a row is final. -/
theorem final_of_told
    {stores : Stores} {verdict : Verdict}
    (sound : ∀ sender ∈ stores.senders, sender.Sound)
    (told : Told id stores verdict) : verdict.Final := by
  obtain ⟨sender, isSender, ended, _, rfl⟩ := told
  obtain ⟨answer, plan⟩ := (sound sender isSender).planned ended.1
  obtain ⟨_, _, result⟩ := (sound sender isSender).ended ended
  rw [result, deliveryResult]
  apply final_summarize
  rw [plan]
  exact Or.inr (grouped_planOf _ answer)

/-- Once no group holds the signal any more, its row is final. -/
theorem final_row
    {labels : List ClientStep} {client : Client} {call : Call}
    (stamped : StampedOnce platform pipeline id index labels client)
    (found : client.calls[index]? = some call) (done : call.stage = .done)
    (closed : ∀ member ∈ client.stores.groups.members,
      member.signal.id ≠ id)
    (sent : ∀ sender ∈ client.stores.senders,
      (∃ member ∈ sender.closed.members, member.signal.id = id) →
        sender.stage = .done) :
    ∃ verdict, client.stores.verdict id = some verdict ∧ verdict.Final := by
  have reached := runs_of_stampedOnce stamped
  obtain ⟨current, owner, course⟩ := course_of_stampedOnce stamped
  cases found.symm.trans owner.found
  by_cases empty : call.plan.targets = []
  · rw [rowCourse_of_empty empty (Or.inr done)] at course
    obtain ⟨verdict, stored, ⟨rfl, ungrouped | holding | owed⟩ | told⟩ :=
      course
    · exact ⟨_, stored, final_summarize _ _ (Or.inr ungrouped)⟩
    · cases done.symm.trans holding.1
    · exfalso
      rcases owed with ⟨member, listed, named⟩ |
        ⟨sender, isSender, member, owes, named⟩
      · exact closed member listed named
      · have listed :=
          (owesMembers_senders reached sender isSender member owes).1
        have over_ := sent sender isSender ⟨member, listed, named⟩
        simp [Sender.owes, over_] at owes
    · exact ⟨verdict, stored, final_of_told (sound_senders reached) told⟩
  · simp only [RowCourse, done, if_neg empty] at course
    have sound := sound_calls reached call (List.mem_of_getElem? found)
    obtain ⟨_, _, cutOff, result⟩ :=
      sound.ended (by simpa [Call.Ended, done] using empty)
    refine ⟨_, course, ?_⟩
    rw [result]
    exact final_summarize _ _ (Or.inl empty)

/-! ## Main result -/

/-- In every session the counter is the number of live guards, and no step
is refused because of it; and when a flush has returned `true`, the calls
that had returned before it and the groups that were being sent or open are
over, and the rows of their signals are final unless a task panicked. -/
theorem flush_is_complete
    {labels : List SessionStep} {session : Session}
    (reached : Reaches (Session.step platform) anyStep
      (Session.start pipeline) labels session) :
    session.inFlight.Exact ∧
      (∀ holder, holder ∈ session.inFlight.guards ↔
        Unfinished session.client holder ∧ holder ∉ session.panicked) ∧
      (∀ label next, ¬ session.Blocked label →
        session.client.step platform label = some next →
          (session.step platform (.client label)).isSome = true) ∧
      (∀ holder ∈ session.inFlight.guards,
        (session.step platform (.panic holder)).isSome = true) ∧
      ∀ flush ∈ session.flushes, flush.stage = .returned true →
        flush.Finished session ∧
          ∀ (id : String) (index : Nat),
            StampedOnce platform pipeline id index
                (labels.flatMap SessionStep.clientSteps) session.client →
              flush.Covers index → session.panicked = [] →
                ∃ verdict, session.client.stores.verdict id = some verdict ∧
                  verdict.Final := by
  obtain ⟨counted, keeps⟩ := counted_runs reached
  refine ⟨counted.exact_, counted.guards, ?_, ?_, ?_⟩
  · intro label next free stepped
    obtain ⟨inFlight, ticked, _⟩ := tick_spec counted free stepped
    rw [Session.step, if_neg free, ticked]
    rfl
  · intro holder held
    obtain ⟨dropped, isDropped, _⟩ := counted_panic counted held
    rw [Session.step, if_pos held, isDropped]
    rfl
  · intro flush member returned
    have finished := (keeps flush member).2 returned
    refine ⟨finished, ?_⟩
    intro id index stamped covers calm
    have clear := clear_runs reached (Or.inl stamped) flush member covers
    obtain ⟨began, isBegan, beganReturned⟩ := covers
    obtain ⟨call, found, _, ended⟩ :=
      finished.calls index began isBegan beganReturned
    rw [calm] at ended
    have done : call.stage = .done :=
      ended.resolve_right List.not_mem_nil
    apply final_row stamped found done
    · exact clear.groups (by simp [returned])
    · intro sender isSender holds
      obtain ⟨place, isPlace⟩ := List.mem_iff_getElem?.mp isSender
      obtain ⟨same, isSame, ended⟩ :=
        clear.sent returned place sender isPlace holds
      cases isPlace.symm.trans isSame
      rw [calm] at ended
      exact ended.resolve_right List.not_mem_nil

/-! ## Sample run -/

/-- Two groups hold the signal, and a flush sends both. -/
def flushedSteps : List SessionStep :=
  (.start (diskInput .trigger) false :: .call 0 twiceMoment ::
      List.replicate 8 (.call 0 plainMoment)).map SessionStep.client ++
    .flush :: .takeAll 0 ::
      (wholeGroup 0 ++ wholeGroup 1).map SessionStep.client ++
        [.wait 0 false]

def flushedSession : Option Session :=
  run (Session.step digestsPlatform) anyStep
    (Session.start (digestsPipeline titledDigests)) flushedSteps

theorem flush_is_complete_two_groups :
    ∃ session verdict, flushedSession = some session ∧
      session.inFlight.count = 0 ∧
      session.client.stores.verdict "twice" = some verdict ∧
        verdict.Final := by
  have computed : (flushedSession.any fun session =>
      session.flushes[0]?.any fun flush =>
        decide (flush.stage = .returned true) &&
          decide (session.inFlight.count = 0) &&
          decide (session.panicked = []) &&
          flush.began.calls[0]?.any fun call =>
            decide (call.waits = false) && decide (4 < call.stage.rank)) =
        true := by
    decide +kernel
  have stamping : (stampedRun digestsPlatform (digestsPipeline titledDigests)
      0 [.start (diskInput .trigger) false] twiceMoment
      (List.replicate 8 (.call 0 plainMoment) ++ .flush ::
        (wholeGroup 0 ++ wholeGroup 1))).isSome = true := by
    decide +kernel
  obtain ⟨session, ran, computed⟩ := Option.any_eq_true _ _ |>.mp computed
  obtain ⟨flush, found, computed⟩ := Option.any_eq_true _ _ |>.mp computed
  simp only [Bool.and_eq_true, decide_eq_true_eq] at computed
  obtain ⟨⟨⟨returned, idle⟩, calm⟩, computed⟩ := computed
  obtain ⟨call, began, computed⟩ := Option.any_eq_true _ _ |>.mp computed
  simp only [Bool.and_eq_true, decide_eq_true_eq] at computed
  obtain ⟨client, stamped⟩ := Option.isSome_iff_exists.mp stamping
  have reached := reaches_of_run ran
  have stampedOnce := stampedOnce_of_run stamped
  have same : session.client = client :=
    (client_runs reached).unique (runs_of_stampedOnce stampedOnce)
  obtain ⟨_, _, _, _, complete⟩ := flush_is_complete reached
  obtain ⟨verdict, stored, final⟩ :=
    (complete flush (List.mem_of_getElem? found) returned).2 "twice" 0
      (same ▸ stampedOnce) ⟨call, began, computed⟩ calm
  exact ⟨session, verdict, ran, idle, stored, final⟩

end OpsSignal
