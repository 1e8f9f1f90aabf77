import OpsSignal.AlertedProviders
import OpsSignal.RowCourse

/-!
# The row of a signal that several groups hold

Each group completes the row on its own, so the last one decides it.  The
row is the same in every order where all of the groups come to the same
outcome.
-/

namespace OpsSignal

open LabelledRuns

variable {platform : Platform} {pipeline : Pipeline} {id : String}
  {index : Nat} {labels : List ClientStep} {client next : Client}
  {label : ClientStep}

/-- All groups that hold the id end alike. -/
def Agree (id : String) (client : Client) (verdict : Verdict) : Prop :=
  ∀ other, Told id client.stores other → other = verdict

/-- A stored outcome that reached somebody stays. -/
def KeepsDelivered
    (id : String) (before : Client) (_ : ClientStep) (after : Client) :
    Prop :=
  ∀ old, before.stores.verdict id = some old →
    old.status = .delivered ∨ old.status = .partly →
      after.stores.verdict id = some old

/-! ## One step -/

theorem agree_of_step
    (stepped : client.step platform label = some next) {verdict : Verdict}
    (agree : Agree id next verdict) : Agree id client verdict := by
  intro other told
  exact agree other (told_step stepped told)

/-- A row that no delivery has completed yet says that nobody was
reached. -/
theorem status_summarize_unsent
    {plan : DeliveryPlan} (empty : plan.targets = []) :
    (summarize plan [] none).status = .grouped ∨
      (summarize plan [] none).status = .skipped := by
  rw [status_summarize, empty]
  cases plan.grouped with
  | nil => exact Or.inr rfl
  | cons entry rest => exact Or.inl rfl

/-- A held row that reached somebody was completed by a group. -/
theorem told_of_heldRow
    {call : Call} {old : Verdict} (held : HeldRow id call client.stores)
    (empty : call.plan.targets = [])
    (stored : client.stores.verdict id = some old)
    (reached : old.status = .delivered ∨ old.status = .partly) :
    Told id client.stores old := by
  obtain ⟨verdict, found, waiting | told⟩ := held
  · cases stored.symm.trans found
    have status := status_summarize_unsent empty
    rw [waiting.1] at reached
    change (summarize call.plan [] none).status = .delivered ∨
      (summarize call.plan [] none).status = .partly at reached
    rcases status with grouped | skipped
    · simp [grouped] at reached
    · simp [skipped] at reached
  · cases stored.symm.trans found
    exact told

/-- Before its end no call has stored that somebody was reached. -/
theorem writes_of_reached
    {call : Call} {old : Verdict}
    (course : RowCourse id call client.stores)
    (stored : client.stores.verdict id = some old)
    (reached : old.status = .delivered ∨ old.status = .partly) :
    call.writes (some old) = some old := by
  have notPending : old ≠ .pending := by
    rintro rfl
    rcases reached with status | status
    · cases status
    · cases status
  rw [RowCourse, stored] at course
  rw [Call.writes]
  cases stage : call.stage with
  | preparing | planning | holding | delivering | settling | noting
  | done => rfl
  | recording =>
      simp [stage] at course
  | unsent =>
      simp only [stage, Option.some.injEq] at course
      exact absurd course.1 notPending
  | completing =>
      simp only [stage, Option.some.injEq] at course
      exact absurd course notPending

/-- Where the groups agree, no step replaces an outcome that reached
somebody. -/
theorem keepsDelivered_step
    {call : Call} {verdict : Verdict} (owner : Owner id index call client)
    (sound : call.Sound) (course : RowCourse id call client.stores)
    (owesAll : ∀ sender ∈ client.stores.senders, sender.OwesMembers)
    (fresh : Unstamping id client label)
    (stepped : client.step platform label = some next)
    (agree : Agree id next verdict) :
    KeepsDelivered id client label next := by
  intro old stored reached
  have written := verdict_step owner fresh stepped
  rw [stored] at written
  by_cases completes : CompletesMember id client label
  · obtain ⟨other, moment, sender, member, rfl, found, completing, named⟩ :=
      completes
    have isSender := List.mem_of_getElem? found
    have owes := owesAll sender isSender
    obtain ⟨listed, ownsRow⟩ :=
      owes member (mem_owes_of_completing completing)
    have held := mem_members_of_sender isSender listed
    obtain ⟨_, isEmpty, past⟩ := owner.members member held named
    have empty : call.plan.targets = [] := by
      rw [ownsRow] at isEmpty
      exact List.isEmpty_iff.mp isEmpty.symm
    rw [rowCourse_of_empty empty (stage_of_empty sound empty past)] at course
    have before := told_of_heldRow course empty stored reached
    have after := told_of_completes found owes completing named stepped
    rw [rowAfter, found, Option.map_some, Option.getD_some, Sender.writes,
      completing] at written
    simp only [named, if_true] at written
    rw [written, agree _ after, agree _ (told_step stepped before)]
  · by_cases own : ∃ moment, label = .call index moment
    · obtain ⟨moment, rfl⟩ := own
      rw [written, rowAfter, if_pos rfl, owner.found, Option.map_some,
        Option.getD_some]
      exact writes_of_reached course stored reached
    · rw [written]
      exact rowAfter_silent completes
        (fun moment isOwn => own ⟨moment, isOwn⟩) (some old)

/-! ## Runs -/

/-- Nothing is stored before the stamp. -/
private theorem keepsDelivered_unstamped
    (reached : Runs platform (Unstamping id) pipeline labels client) :
    EveryStep (Client.step platform) (Client.fromPipeline pipeline) labels
      (KeepsDelivered id) := by
  induction reached with
  | nil => exact everyStep_nil
  | snoc earlier _ _ inductionHypothesis =>
      rw [everyStep_snoc_iff earlier.anyStep]
      refine ⟨inductionHypothesis, ?_⟩
      intro next _ old stored
      rw [(unstamped_runs earlier).2] at stored
      cases stored

theorem keepsDelivered_of_agree
    {verdict : Verdict}
    (stamped : StampedOnce platform pipeline id index labels client)
    (agree : Agree id client verdict) :
    EveryStep (Client.step platform) (Client.fromPipeline pipeline) labels
      (KeepsDelivered id) := by
  obtain ⟨before, moment, after, first, call, prepared, rfl, earlier, found,
    stage, stamp, stepped, later⟩ := stamped
  have stampedRun := earlier.anyStep.append (Reaches.single trivial stepped)
  induction later with
  | nil =>
      rw [everyStep_snoc_iff earlier.anyStep]
      refine ⟨keepsDelivered_unstamped earlier, ?_⟩
      intro next _ old stored
      rw [(unstamped_runs earlier).2] at stored
      cases stored
  | @snoc labels state final label reached fresh laterStep
      inductionHypothesis =>
      have whole := stampedRun.append reached.anyStep
      have stampedOnce :
          StampedOnce platform pipeline id index
            (before ++ .call index moment :: labels) state :=
        ⟨before, moment, labels, first, call, prepared, rfl, earlier, found,
          stage, stamp, stepped, reached⟩
      obtain ⟨current, owner, course⟩ := course_of_stampedOnce stampedOnce
      have sound := sound_calls whole current
        (List.mem_of_getElem? owner.found)
      have same : before ++ .call index moment :: (labels ++ [label]) =
          (before ++ .call index moment :: labels) ++ [label] := by
        rw [List.append_assoc]
        rfl
      rw [same, everyStep_snoc_iff (runs_of_stampedOnce stampedOnce)]
      refine ⟨inductionHypothesis (agree_of_step laterStep agree), ?_⟩
      intro next isNext
      cases laterStep.symm.trans isNext
      exact keepsDelivered_step owner sound course
        (owesMembers_senders whole) fresh laterStep agree

/-- Once all of the groups have completed it, the row is what they agree
on. -/
theorem verdict_of_agree
    {verdict : Verdict} {call : Call}
    (stamped : StampedOnce platform pipeline id index labels client)
    (found : client.calls[index]? = some call)
    (ungrouped : call.plan.targets = [])
    (several : 2 ≤ call.plan.grouped.length) (done : call.stage = .done)
    (settled : ¬ Owed id client.stores)
    (agree : Agree id client verdict) :
    client.stores.verdict id = some verdict := by
  obtain ⟨current, owner, course⟩ := course_of_stampedOnce stamped
  cases found.symm.trans owner.found
  rw [rowCourse_of_empty ungrouped (Or.inr done)] at course
  obtain ⟨stored, isStored, ⟨_, waiting⟩ | told⟩ := course
  · rcases waiting with none | holding | owed
    · simp [none] at several
    · rw [done] at holding
      cases holding.1
    · exact absurd owed settled
  · rw [isStored, agree stored told]

/-- An outcome that no step of the rest of a run replaces stays to the
end. -/
theorem verdict_to_end
    {first final : Client} {before after : List ClientStep} {old : Verdict}
    (every : EveryStep (Client.step platform) (Client.fromPipeline pipeline)
      (before ++ after) (KeepsDelivered id))
    (earlier : Runs platform anyStep pipeline before first)
    (later : Reaches (Client.step platform) anyStep first after final)
    (stored : first.stores.verdict id = some old)
    (reached : old.status = .delivered ∨ old.status = .partly) :
    final.stores.verdict id = some old := by
  induction later with
  | nil => exact stored
  | snoc rest _ stepped inductionHypothesis =>
      rw [← List.append_assoc,
        everyStep_snoc_iff (earlier.append rest)] at every
      obtain ⟨everyRest, last⟩ := every
      exact last _ stepped old (inductionHypothesis everyRest) reached

/-! ## Two groups in either order -/

/-- The sender is about to complete the member with the id, its last
one. -/
structure AboutToComplete
    (id : String) (client : Client) (index : Nat) (sender : Sender) :
    Prop where
  found : client.stores.senders[index]? = some sender
  stage : sender.stage = .completingMembers
  last : ∃ member, sender.members = [member] ∧ member.signal.id = id

/-- The order in which two groups complete the id does not matter. -/
def OrderFree (platform : Platform) (id : String) (client : Client) : Prop :=
  ∀ first second one other, first ≠ second →
    AboutToComplete id client first one →
      AboutToComplete id client second other →
        ∀ moment later before after,
          Reaches (Client.step platform) anyStep client
            [.sender first moment, .sender second later] before →
          Reaches (Client.step platform) anyStep client
            [.sender second later, .sender first moment] after →
          before.stores.verdict id = after.stores.verdict id

theorem step_of_aboutToComplete
    {sender : Sender} (about : AboutToComplete id client index sender)
    (moment : Moment) :
    ∃ next, client.step platform (.sender index moment) = some next ∧
      next.stores.verdict id = some sender.result.verdict ∧
        ∀ second other, index ≠ second →
          AboutToComplete id client second other →
            AboutToComplete id next second other := by
  obtain ⟨found, stage, member, members, named⟩ := about
  refine ⟨client.putSender index ({ sender with members := [] },
    client.stores.emit [.completed member.signal sender.result]), ?_, ?_,
    ?_⟩
  · have moves : sender.next platform moment client.pipeline
        client.stores = some (sender.completeMembers client.stores) := by
      simp only [Sender.next, stage]
    rw [Client.step, found, Option.bind_some, moves, Sender.completeMembers,
      members]
    rfl
  · change (client.stores.emit
      [.completed member.signal sender.result]).verdict id = _
    rw [verdict_emit]
    exact (Sink.verdict_complete sender.result).trans (if_pos named)
  · intro second other different waits
    refine ⟨?_, waits.stage, waits.last⟩
    rw [Client.putSender, List.getElem?_set, if_neg different]
    exact waits.found

/-- Two groups in a row leave the verdict of the second. -/
theorem two_aboutToComplete
    {first second : Nat} {one other : Sender} (different : first ≠ second)
    (aboutFirst : AboutToComplete id client first one)
    (aboutSecond : AboutToComplete id client second other)
    (moment later : Moment) :
    ∃ final,
      Reaches (Client.step platform) anyStep client
          [.sender first moment, .sender second later] final ∧
        final.stores.verdict id = some other.result.verdict := by
  obtain ⟨middle, firstStep, _, keeps⟩ :=
    @step_of_aboutToComplete platform _ _ _ _ aboutFirst moment
  obtain ⟨final, secondStep, written, _⟩ :=
    @step_of_aboutToComplete platform _ _ _ _
      (keeps second other different aboutSecond) later
  exact ⟨final, (Reaches.single trivial firstStep).append
    (Reaches.single trivial secondStep), written⟩

theorem orderFree_iff :
    OrderFree platform id client ↔
      ∀ first second one other, first ≠ second →
        AboutToComplete id client first one →
          AboutToComplete id client second other →
            one.result.verdict = other.result.verdict := by
  constructor
  · intro free first second one other different aboutFirst aboutSecond
    let answering : Moment := ⟨0, "", 0, fun _ _ => .ok none⟩
    obtain ⟨before, toBefore, isOther⟩ := @two_aboutToComplete platform
      _ _ _ _ _ _ different aboutFirst aboutSecond answering answering
    obtain ⟨after, toAfter, isOne⟩ := @two_aboutToComplete platform
      _ _ _ _ _ _ (Ne.symm different) aboutSecond aboutFirst answering
      answering
    have same := free first second one other different aboutFirst
      aboutSecond answering answering before after toBefore toAfter
    rw [isOther, isOne] at same
    exact (Option.some.inj same).symm
  · intro alike first second one other different aboutFirst aboutSecond
      moment later before after toBefore toAfter
    obtain ⟨firstEnd, toFirstEnd, isOther⟩ := @two_aboutToComplete platform
      _ _ _ _ _ _ different aboutFirst aboutSecond moment later
    obtain ⟨secondEnd, toSecondEnd, isOne⟩ := @two_aboutToComplete platform
      _ _ _ _ _ _ (Ne.symm different) aboutSecond aboutFirst later moment
    rw [toBefore.unique toFirstEnd, toAfter.unique toSecondEnd, isOther,
      isOne, alike first second one other different aboutFirst aboutSecond]

/-- The row of a signal that only grouped routes take: where the groups
that hold it come to one outcome, that outcome is its last word and
nothing that reached somebody is replaced; and two groups that are about
to complete it may do so in either order exactly where their outcomes are
the same. -/
theorem grouped_row_of_agreement
    {call : Call}
    (stamped : StampedOnce platform pipeline id index labels client)
    (found : client.calls[index]? = some call)
    (ungrouped : call.plan.targets = [])
    (several : 2 ≤ call.plan.grouped.length) :
    (∀ verdict, Agree id client verdict →
        (call.stage = .done → ¬ Owed id client.stores →
          client.stores.verdict id = some verdict) ∧
        EveryStep (Client.step platform) (Client.fromPipeline pipeline)
          labels (KeepsDelivered id)) ∧
      (OrderFree platform id client ↔
        ∀ first second one other, first ≠ second →
          AboutToComplete id client first one →
            AboutToComplete id client second other →
              one.result.verdict = other.result.verdict) := by
  refine ⟨?_, orderFree_iff⟩
  intro verdict agree
  refine ⟨?_, keepsDelivered_of_agree stamped agree⟩
  intro done settled
  exact verdict_of_agree stamped found ungrouped several done settled agree

/-! ## Sample runs -/

def slackDigests : Route where
  providers := ["slack"]
  groupBy := some ["service"]

def titledDigests : Route where
  providers := ["slack"]
  groupBy := some ["title"]

/-- One digest an hour. -/
def cappedDigests : Route where
  providers := ["pagerduty"]
  rateLimit := some ⟨1, ⟨3600⟩⟩
  groupBy := some ["service"]

/-- The digests of the sample routes. -/
def digestsPlatform : Platform where
  sha256 text :=
    if text = slackDigests.serialize.text then
      "11f4eced6ba6d6cd92563601551d9799c19faf3c6d241e4defabecc1f1cc4c60"
    else if text = titledDigests.serialize.text then
      "3d520c5e1a82a9dde20984b77ea9956045913a3a37eed5c9f67e1872a55298ed"
    else if text = cappedDigests.serialize.text then
      "2e195b12d08b2da649e4387d1d0f0451c72cf40b9d472d1575fe4c55b6904d15"
    else
      ""
  showTime _ := ""

/-- Everything is held by two routes. -/
def digestsPipeline (other : Route) : Pipeline where
  routing := ⟨[slackDigests, other]⟩
  providers :=
    [("slack", ⟨"slack", true⟩), ("pagerduty", ⟨"pagerduty", true⟩)]

def twiceMoment : Moment :=
  { plainMoment with id := "twice" }

/-- A group of one that its only provider delivers. -/
def wholeGroup (index : Nat) : List ClientStep :=
  List.replicate 3 (.sender index plainMoment) ++
    List.replicate 3 (.deliverGroup index 0) ++
      List.replicate 7 (.sender index plainMoment)

/-- A call joins two groups, and their timers run out. -/
def joinTwoGroups (index : Nat) : List ClientStep :=
  List.replicate 8 (.call index plainMoment) ++ [.timer 0, .timer 0]

/-- Both groups deliver the signal. -/
def bothDelivered : Option Client :=
  stampedRun digestsPlatform (digestsPipeline titledDigests) 0
    [.start (diskInput .trigger) false] twiceMoment
    (joinTwoGroups 0 ++ wholeGroup 0 ++ wholeGroup 1)

instance decidableOwed (id : String) (stores : Stores) :
    Decidable (Owed id stores) :=
  inferInstanceAs (Decidable (_ ∨ _))

theorem grouped_row_of_agreement_twice :
    ∃ client, bothDelivered = some client ∧
      client.stores.verdict "twice" =
        some ⟨.delivered, some "slack", none⟩ := by
  have computed : (bothDelivered.any fun client =>
      client.calls[0]?.any fun call =>
        decide (call.plan.targets = []) &&
          decide (2 ≤ call.plan.grouped.length) &&
          decide (call.stage = .done) &&
          decide (¬ Owed "twice" client.stores) &&
          client.stores.senders.all fun sender =>
            decide (sender.result.verdict =
              ⟨.delivered, some "slack", none⟩)) = true := by
    decide +kernel
  obtain ⟨client, ran, computed⟩ := Option.any_eq_true _ _ |>.mp computed
  obtain ⟨call, found, computed⟩ := Option.any_eq_true _ _ |>.mp computed
  simp only [Bool.and_eq_true, decide_eq_true_eq, List.all_eq_true]
    at computed
  obtain ⟨⟨⟨⟨ungrouped, several⟩, done⟩, settled⟩, alike⟩ := computed
  have agree : Agree "twice" client ⟨.delivered, some "slack", none⟩ := by
    rintro other ⟨sender, isSender, _, _, rfl⟩
    exact alike sender isSender
  refine ⟨client, ran, ?_⟩
  exact ((grouped_row_of_agreement (stampedOnce_of_run ran) found ungrouped
    several).1 _ agree).1 done settled

/-- The first digest of the capped route has used up its limit. -/
def cappedBefore : List ClientStep :=
  .start (diskInput .trigger) false :: .call 0 plainMoment ::
    joinTwoGroups 0 ++ wholeGroup 0 ++ wholeGroup 1 ++
      [.start (diskInput .trigger) false]

/-- The second signal's groups: one delivers, the other is refused. -/
def cappedAfter : List ClientStep :=
  joinTwoGroups 1 ++ wholeGroup 2

def cappedRest : List ClientStep :=
  List.replicate 10 (.sender 3 plainMoment)

/-- A signal that one group delivered is stored as skipped, because the
other group's digest was refused later. -/
theorem delivered_overwritten_by_skipped :
    ¬ ∀ pipeline id index labels client call,
        StampedOnce digestsPlatform pipeline id index labels client →
          client.calls[index]? = some call → call.plan.targets = [] →
            2 ≤ call.plan.grouped.length →
              OrderFree digestsPlatform id client ∧
                EveryStep (Client.step digestsPlatform)
                  (Client.fromPipeline pipeline) labels
                  (KeepsDelivered id) := by
  intro claimed
  have computed : ((stampedRun digestsPlatform
      (digestsPipeline cappedDigests) 1 cappedBefore twiceMoment
      (cappedAfter)).any fun first =>
        decide (first.stores.verdict "twice" =
          some ⟨.delivered, some "slack", none⟩) &&
        (run (Client.step digestsPlatform) (Unstamping "twice") first
          cappedRest).any fun final =>
            decide (final.stores.verdict "twice" ≠
              some ⟨.delivered, some "slack", none⟩) &&
            final.calls[1]?.any fun call =>
              decide (call.plan.targets = []) &&
                decide (2 ≤ call.plan.grouped.length)) = true := by
    decide +kernel
  obtain ⟨first, ran, computed⟩ := Option.any_eq_true _ _ |>.mp computed
  rw [Bool.and_eq_true, decide_eq_true_eq] at computed
  obtain ⟨stored, computed⟩ := computed
  obtain ⟨final, rest, computed⟩ := Option.any_eq_true _ _ |>.mp computed
  rw [Bool.and_eq_true, decide_eq_true_eq] at computed
  obtain ⟨replaced, computed⟩ := computed
  obtain ⟨call, found, computed⟩ := Option.any_eq_true _ _ |>.mp computed
  rw [Bool.and_eq_true, decide_eq_true_eq, decide_eq_true_eq] at computed
  obtain ⟨ungrouped, several⟩ := computed
  have earlier := stampedOnce_of_run ran
  have later := reaches_of_run rest
  have whole := stampedOnce_append earlier later
  have kept := (claimed _ _ _ _ _ call whole found ungrouped several).2
  exact replaced (verdict_to_end kept (runs_of_stampedOnce earlier)
    later.anyStep stored (Or.inl rfl))

end OpsSignal
