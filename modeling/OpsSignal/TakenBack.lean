import OpsSignal.CutDelivery
import OpsSignal.GroupedRows
import OpsSignal.RecordedSends

/-!
# Members of groups that nobody received

A group that every provider failed takes back what was on record for its
members.  A group that its route's rate limit refuses does not.
-/

namespace OpsSignal

open Holdings LabelledRuns

variable {platform : Platform}

/-! ## Groups that nobody received -/

/-- No provider delivered the group. -/
def Sender.Unreceived (sender : Sender) : Prop :=
  ∀ outcome ∈ sender.result.deliveries, outcome.status ≠ .delivered

/-- The group passes its gate, or has nothing on record for its
members. -/
def Sender.Passes
    (platform : Platform) (moment : Moment) (table : Table)
    (sender : Sender) : Prop :=
  (∀ member ∈ sender.closed.members, member.admission.rows = []) ∨
    sender.closed.route.providers ≠ [] ∧
      (digestCheck platform sender.closed.route).refusal
        (throttleKey sender.signal) moment.now table = none

instance decidablePasses
    (platform : Platform) (moment : Moment) (table : Table)
    (sender : Sender) : Decidable (sender.Passes platform moment table) :=
  inferInstanceAs (Decidable (_ ∨ _ ∧ _))

/-- No step has the gate refuse a group whose members have something on
record. -/
def PassesGate (platform : Platform) (client : Client) :
    ClientStep → Prop
  | .sender index moment => ∀ sender ∈ client.stores.senders[index]?,
      sender.stage = .gating →
        sender.Passes platform moment client.stores.table
  | _ => True

instance decidablePassesGate
    (platform : Platform) (client : Client) (label : ClientStep) :
    Decidable (PassesGate platform client label) := by
  unfold PassesGate
  split <;> infer_instance

/-- What is on record for everybody but the group at this place. -/
def Client.sendsExcept (place : Nat) (client : Client) : Multiset Row :=
  held Call.sends client.calls +
    (held Member.sends client.stores.groups.members +
      held Sender.sends (client.stores.senders.eraseIdx place))

/-! ## What a group sender keeps -/

/-- The group has targets, or nothing on record for its members. -/
def Sender.Sent (sender : Sender) : Prop :=
  sender.Planned → sender.plan.targets ≠ [] ∨
    ∀ member ∈ sender.closed.members, member.admission.rows = []

/-- The digest is on record under a key of its own. -/
def Sender.Digested (platform : Platform) (sender : Sender) : Prop :=
  ∀ row ∈ sender.admission.rows,
    row.route = (digestCheck platform sender.closed.route).routeKey

section Sender

variable {pipeline : Pipeline} {sender : Sender} {stores : Stores}
  {moved : Sender × Stores}

theorem targets_ne_nil {route : Route} (nonempty : route.providers ≠ []) :
    route.targets ≠ [] := by
  obtain ⟨name, listed⟩ := List.exists_mem_of_ne_nil _ nonempty
  have distinct : name ∈ route.distinctProviders :=
    (FirstMention.mem_collect route.providers).mpr listed
  rw [Route.targets]
  cases route.mode with
  | failover => exact List.cons_ne_nil _ _
  | fanout => exact List.ne_nil_of_mem (List.mem_map_of_mem distinct)

/-- A group that passes its gate has targets. -/
theorem targets_gate
    {moment : Moment} (nonempty : sender.closed.route.providers ≠ [])
    (passes : (digestCheck platform sender.closed.route).refusal
      (throttleKey sender.signal) moment.now stores.table = none) :
    (sender.gate platform moment stores).1.plan.targets ≠ [] := by
  have answer : ((digestCheck platform sender.closed.route).run
      (throttleKey sender.signal) moment.now (stores.table, {})).1 =
        .ok () := by
    rcases run_cases (digestCheck platform sender.closed.route)
      (throttleKey sender.signal) moment.now (stores.table, {}) with
        ⟨_, same⟩ | ⟨reason, refused, _⟩ | ⟨_, _, same⟩
    · rw [same]
    · rw [passes] at refused
      cases refused
    · rw [same]
  rw [Sender.gate]
  dsimp only
  rw [answer]
  exact targets_ne_nil nonempty

theorem sent_senderMove
    (sent : sender.Sent)
    (passes : sender.stage = .gating → moved.1.plan.targets ≠ [] ∨
      ∀ member ∈ sender.closed.members, member.admission.rows = [])
    (moves : SenderMove platform pipeline sender stores moved) :
    moved.1.Sent := by
  intro planned
  cases moves with
  | open_ moment stage =>
      rw [Sender.open_] at planned
      split at planned
      · exact absurd rfl planned.2
      · exact absurd rfl planned.2
  | gate moment stage => exact passes stage
  | start stage | deliver _ _ stage | finish stage | settle stage
  | settleMember _ _ stage | settled stage | complete stage
  | completeMember _ _ stage | completed stage =>
      exact sent ⟨by simp [stage], by simp [stage]⟩

theorem digested_senderMove
    (digested : sender.Digested platform)
    (moves : SenderMove platform pipeline sender stores moved) :
    moved.1.Digested platform := by
  cases moves with
  | open_ moment stage =>
      rw [Sender.open_]
      split
      · exact digested
      · exact digested
  | gate moment stage =>
      intro row listed
      rw [Sender.gate] at listed
      rcases run_cases (digestCheck platform sender.closed.route)
        (throttleKey sender.signal) moment.now (stores.table, {}) with
          ⟨_, same⟩ | ⟨_, _, same⟩ | ⟨_, _, same⟩
      · rw [same] at listed
        cases listed
      · rw [same] at listed
        cases listed
      · rw [same] at listed
        cases List.mem_singleton.mp listed
        rfl
  | start | deliver | finish | settle | settleMember | settled | complete
  | completeMember | completed => exact digested

/-- A group that has been sent without success has nothing on record. -/
theorem sends_of_unreceived
    (sound : sender.Sound) (sent : sender.Sent)
    (done : sender.stage = .done) (unreceived : sender.Unreceived) :
    sender.sends = 0 ∨
      ((∀ member ∈ sender.closed.members, member.admission.rows = []) ∧
        sender.sends ≤ sender.admission.rows) := by
  have ended : sender.Ended := by
    simp [Sender.Ended, Sender.Planned, done]
  by_cases failed : sender.result.status = .failed
  · left
    simp only [Sender.sends, done, if_pos failed]
  · right
    rcases sent ended.1 with nonempty | nothing
    · exfalso
      obtain ⟨_, _, result⟩ := sound.ended ended
      rw [Sender.Unreceived, result] at unreceived
      rw [result] at failed
      obtain ⟨outcome, listed, _, delivered⟩ :=
        exists_delivered_outcome nonempty failed
      exact unreceived outcome listed delivered
    · refine ⟨nothing, ?_⟩
      have none : held Member.sends sender.closed.members = 0 := by
        apply held_eq_zero
        intro member listed
        rw [Member.sends, nothing member listed, Multiset.coe_nil]
      simp only [Sender.sends, done, if_neg failed, none, add_zero]
      exact le_refl _

end Sender

/-! ## Runs -/

section Runs

variable {pipeline : Pipeline} {labels : List ClientStep} {client : Client}

theorem digested_senders
    {condition : Client → ClientStep → Prop}
    (reached : Runs platform condition pipeline labels client) :
    ∀ sender ∈ client.stores.senders, sender.Digested platform := by
  apply senders_keep (Sender.Digested platform) reached
  · intro closed row listed
    cases listed
  · intro pipeline sender stores moved
    exact digested_senderMove

/-- A group whose gate lets it through is sent, or has nothing on record
for its members. -/
theorem sent_senders
    (reached : Runs platform (PassesGate platform) pipeline labels client) :
    ∀ sender ∈ client.stores.senders, sender.Sent := by
  induction reached with
  | nil => exact fun _ member => absurd member List.not_mem_nil
  | snoc _ passes stepped inductionHypothesis =>
      intro later isLater
      obtain ⟨index, found⟩ := List.mem_iff_getElem?.mp isLater
      rcases sender_of_step found stepped with ⟨closed, rfl⟩ |
        ⟨sender, isSender, same | ⟨moved, moves, rfl⟩⟩
      · exact fun planned => absurd rfl planned.1
      · rw [same]
        exact inductionHypothesis sender (List.mem_of_getElem? isSender)
      · apply sent_senderMove
          (inductionHypothesis sender (List.mem_of_getElem? isSender)) _
          moves.move
        intro gating
        rcases moves with ⟨moment, rfl, moves⟩ | ⟨chain, _, moves⟩
        · simp only [Sender.next, gating, Option.some.injEq] at moves
          subst moves
          rcases passes sender isSender gating with nothing |
            ⟨nonempty, through⟩
          · exact Or.inr nothing
          · exact Or.inl (targets_gate nonempty through)
        · rw [Sender.deliver, if_neg (by simp [gating])] at moves
          cases moves

/-! ## Main result -/

/-- No row of the table is there only because of a member of the group:
the others have at least as many equal sends on record, and who is a
duplicate on the group's route is one of theirs. -/
structure TakenBack
    (platform : Platform) (client : Client) (place : Nat)
    (sender : Sender) : Prop where
  rows : ∀ member ∈ sender.closed.members,
    ∀ row ∈ member.admission.rows,
      (client.stores.table : Multiset Row).count row ≤
        (client.sendsExcept place).count row
  later : ∀ (key : String) (now : Int),
    Duplicated (signalCheck platform sender.closed.route) key now
        client.stores.table →
      Duplicated (signalCheck platform sender.closed.route) key now
        (client.sendsExcept place)

theorem sends_eq_except
    {place : Nat} {sender : Sender}
    (found : client.stores.senders[place]? = some sender) :
    client.sends = sender.sends + client.sendsExcept place := by
  rw [Client.sends, Stores.sends, held_eraseIdx found, Client.sendsExcept]
  abel

theorem append_ne_self (text : String) : text ++ "#digest" ≠ text := by
  intro same
  have lengths := congrArg String.length same
  rw [String.length_append] at lengths
  have positive : "#digest".length = 7 := by decide
  omega

/-- In every run in which the gates refuse no group that has something on
record for its members, a group that nobody received leaves no row of its
members behind. -/
theorem unreceived_group_taken_back
    (reached : Runs platform (PassesGate platform) pipeline labels client)
    {place : Nat} {sender : Sender}
    (found : client.stores.senders[place]? = some sender)
    (done : sender.stage = .done) (unreceived : sender.Unreceived) :
    TakenBack platform client place sender := by
  have isSender := List.mem_of_getElem? found
  have accounted := accounted_runs reached
  rw [Client.Accounted, sends_eq_except found] at accounted
  rcases sends_of_unreceived (sound_senders reached sender isSender)
    (sent_senders reached sender isSender) done unreceived with
      none | ⟨nothing, digestOnly⟩
  · rw [none, zero_add] at accounted
    constructor
    · intro member _ row _
      exact Multiset.count_le_of_le row accounted
    · rintro key now ⟨window, isWindow, row, listed, matching⟩
      exact ⟨window, isWindow, row,
        Multiset.mem_of_le accounted listed, matching⟩
  · constructor
    · intro member listed row recorded
      rw [nothing member listed] at recorded
      cases recorded
    · rintro key now ⟨window, isWindow, row, listed, sameRoute, matching⟩
      refine ⟨window, isWindow, row, ?_, sameRoute, matching⟩
      have counted := Multiset.mem_of_le accounted listed
      rcases Multiset.mem_add.mp counted with own | others
      · exfalso
        have digested := digested_senders reached sender isSender row
          (Multiset.mem_of_le digestOnly own)
        exact append_ne_self _ (digested.symm.trans sameRoute)
      · exact others

end Runs

/-! ## Sample runs -/

/-- One digest an hour, and no repeats within the hour. -/
def guardedDigests : Route where
  providers := ["pagerduty"]
  dedup := some ⟨3600⟩
  rateLimit := some ⟨1, ⟨3600⟩⟩
  groupBy := some ["service"]

def guardedPlatform : Platform where
  sha256 text :=
    if text = guardedDigests.serialize.text then
      "b79d83813ea8c99469b14142fb0d268d859c57769cf5545fbe69223c11f50087"
    else
      ""
  showTime _ := ""

def guardedPipeline : Pipeline where
  routing := ⟨[guardedDigests]⟩
  providers := [("pagerduty", ⟨"pagerduty", true⟩)]

/-- A signal with this key is held, and the timer of its group runs
out. -/
def heldAlone (index : Nat) (key : String) : List ClientStep :=
  .start { diskInput .trigger with dedupKey := some key } false ::
    List.replicate 7 (.call index plainMoment) ++ [.timer 0]

/-- The provider of the group answers nothing but errors. -/
def failedGroup (index : Nat) : List ClientStep :=
  .sender index { plainMoment with answers := fun _ _ => .error "HTTP 500" } ::
    List.replicate 2 (.sender index plainMoment) ++
      List.replicate 9 (.deliverGroup index 0) ++
        List.replicate 7 (.sender index plainMoment)

def failedDigest : Option Client :=
  run (Client.step guardedPlatform) (PassesGate guardedPlatform)
    (Client.fromPipeline guardedPipeline)
    (heldAlone 0 "disk" ++ failedGroup 0)

theorem unreceived_group_taken_back_failed :
    ∃ client sender, failedDigest = some client ∧
      client.stores.senders[0]? = some sender ∧
      sender.closed.members.map Member.admission ≠ [⟨[]⟩] ∧
        TakenBack guardedPlatform client 0 sender := by
  have computed : (failedDigest.any fun client =>
      client.stores.senders[0]?.any fun sender =>
        decide (sender.stage = .done) &&
          decide (sender.closed.members.map Member.admission ≠ [⟨[]⟩]) &&
          sender.result.deliveries.all fun outcome =>
            decide (outcome.status ≠ .delivered)) = true := by
    decide +kernel
  obtain ⟨client, ran, computed⟩ := Option.any_eq_true _ _ |>.mp computed
  obtain ⟨sender, found, computed⟩ := Option.any_eq_true _ _ |>.mp computed
  simp only [Bool.and_eq_true, decide_eq_true_eq, List.all_eq_true]
    at computed
  obtain ⟨⟨done, recorded⟩, unreceived⟩ := computed
  exact ⟨client, sender, ran, found, recorded,
    unreceived_group_taken_back (reaches_of_run ran) found done unreceived⟩

/-- The rate limit refuses the second group, and its member stays on
record. -/
theorem refused_member_stays :
    ¬ ∀ platform pipeline labels client place sender,
        Runs platform anyStep pipeline labels client →
          client.stores.senders[place]? = some sender →
            sender.stage = .done → sender.Unreceived →
              TakenBack platform client place sender := by
  intro claimed
  have computed : ((run (Client.step guardedPlatform) anyStep
      (Client.fromPipeline guardedPipeline)
      (heldAlone 0 "disk" ++ wholeGroup 0 ++ heldAlone 1 "cpu" ++
        List.replicate 10 (.sender 1 plainMoment))).any fun client =>
          client.stores.senders[1]?.any fun sender =>
            decide (sender.stage = .done) &&
              (sender.result.deliveries.all fun outcome =>
                decide (outcome.status ≠ .delivered)) &&
              sender.closed.members.any fun member =>
                member.admission.rows.any fun row =>
                  decide ((client.sendsExcept 1).count row <
                    (client.stores.table : Multiset Row).count row)) =
        true := by
    decide +kernel
  obtain ⟨client, ran, computed⟩ := Option.any_eq_true _ _ |>.mp computed
  obtain ⟨sender, found, computed⟩ := Option.any_eq_true _ _ |>.mp computed
  simp only [Bool.and_eq_true, decide_eq_true_eq, List.all_eq_true,
    List.any_eq_true] at computed
  obtain ⟨⟨done, unreceived⟩, member, listed, row, recorded, left_⟩ :=
    computed
  have taken := claimed guardedPlatform guardedPipeline _ client 1 sender
    (reaches_of_run ran) found done unreceived
  exact absurd (taken.rows member listed row recorded) (Nat.not_le.mpr left_)

end OpsSignal
