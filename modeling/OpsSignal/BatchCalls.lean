import OpsSignal.Batch
import OpsSignal.FlushedRows

/-!
# What a batch sends and reports

The lines of a file that is read are valid, and the exit code is zero if
there is nothing to complain about.  A call that ends held has its signal
in a group; calls and groups that are over stay as they are.
-/

namespace OpsSignal

open Checks LabelledRuns

variable {platform : Platform}

/-! ## The file -/

theorem validate_of_readLine
    {parse : String → Except String SignalInput} {file : String}
    {line : String × Nat} {input : SignalInput}
    (read : readLine parse file line = .ok (some input)) :
    validate input = .ok () := by
  rw [readLine] at read
  split at read
  · cases read
  · split at read
    · cases read
    · split at read
      · cases read
      · rename_i valid
        cases read
        exact valid

/-- Every signal of a file that is read is valid, so that no line is
refused later. -/
theorem validate_of_readBatch
    {parse : String → Except String SignalInput} {file : String}
    {lines : List String} {inputs : List SignalInput}
    (read : readBatch parse file lines = .ok inputs) :
    ∀ input ∈ inputs, validate input = .ok () := by
  obtain ⟨entries, mapped, rfl⟩ := map_eq_ok read
  intro input member
  have listed : some input ∈ entries :=
    List.reduceOption_mem_iff.mp member
  clear member read
  generalize lines.zipIdx = numbered at mapped
  induction numbered generalizing entries with
  | nil =>
      cases mapped
      cases listed
  | cons line rest inductionHypothesis =>
      rw [List.mapM_cons] at mapped
      obtain ⟨entry, first, mapped⟩ := bind_eq_ok mapped
      obtain ⟨others, later, same⟩ := bind_eq_ok mapped
      cases same
      rcases List.mem_cons.mp listed with rfl | inRest
      · exact validate_of_readLine first
      · exact inductionHypothesis others inRest later

/-! ## The report -/

theorem complaint_eq_none (status : DeliveryStatus) :
    complaint status = none ↔ status.isFine = true ∨ status = .grouped := by
  cases status <;> decide

/-- The exit code is zero if there is nothing to complain about. -/
theorem code_report (results : List DeliveryResult) :
    (report results).1 = 0 ↔
      ∀ result ∈ results, complaint result.status = none := by
  suffices general : ∀ reported : Nat × List String,
      (results.foldl reportOne reported).1 = 0 ↔
        reported.1 = 0 ∧
          ∀ result ∈ results, complaint result.status = none by
    simpa [report] using general (0, [])
  induction results with
  | nil => simp
  | cons result results inductionHypothesis =>
      intro reported
      rw [List.foldl_cons, inductionHypothesis, reportOne]
      cases complaining : complaint result.status with
      | none => simp [complaining]
      | some what => simp [complaining]

/-! ## Held signals -/

/-- A signal that ends held is held: by a group, unless it has still a
group to join. -/
structure Call.HeldIn (call : Call) (stores : Stores) : Prop where
  early : call.stage.rank ≤ 3 → call.result.status ≠ .grouped
  unsent : call.stage = .unsent → call.holds = call.plan.grouped
  held : call.result.status = .grouped →
    call.stage = .holding ∧ call.holds ≠ [] ∨
      ∃ member ∈ stores.members, member.signal = call.signal

theorem heldIn_of_notGrouped
    {call : Call} (notGrouped : call.result.status ≠ .grouped)
    (notUnsent : call.stage ≠ .unsent) (stores : Stores) :
    call.HeldIn stores where
  early _ := notGrouped
  unsent stage := absurd stage notUnsent
  held status := absurd status notGrouped

theorem heldIn_of_holder
    {call : Call} {stores : Stores} (late : 3 < call.stage.rank)
    (holder : call.result.status = .grouped →
      ∃ member ∈ stores.members, member.signal = call.signal) :
    call.HeldIn stores where
  early early := absurd early (Nat.not_le.mpr late)
  unsent stage := by simp [stage, CallStage.rank] at late
  held status := Or.inr (holder status)

theorem Call.HeldIn.mono
    {call : Call} {stores later : Stores} (held : call.HeldIn stores)
    (kept : ∀ member ∈ stores.members, member ∈ later.members) :
    call.HeldIn later where
  early := held.early
  unsent := held.unsent
  held status := by
    rcases held.held status with waiting | ⟨member, listed, named⟩
    · exact Or.inl waiting
    · exact Or.inr ⟨member, kept member listed, named⟩

theorem heldIn_newCall
    (client : Client) (input : SignalInput) (waits : Bool) (stores : Stores) :
    (client.newCall platform input waits).HeldIn stores := by
  apply heldIn_of_notGrouped
  · simp [Client.newCall, status_summarize]
  · exact CallStage.noConfusion

theorem status_finish
    {call : Call} (sound : call.Sound) (stage : call.stage = .delivering)
    (cutOff : Option String) :
    (call.finish cutOff).result.status ≠ .grouped :=
  (final_summarize _ cutOff (Or.inl (sound.begun stage).1)).2

/-- A call goes on holding its signal. -/
theorem heldIn_callMove
    {call : Call} {stores later : Stores} {moved : Call × Stores}
    (sound : call.Sound) (indexed : call.Indexed)
    (held : call.HeldIn stores)
    (moves : CallMove platform call stores moved)
    (kept : ∀ member ∈ stores.members, member ∈ later.members)
    (joins : ∀ route, call.joining = some route →
      call.member platform route ∈ later.members) :
    moved.1.HeldIn later := by
  -- Past the groups the holder does not change.
  have keeps : call.stage = .holding ∧ call.holds = [] ∨
      call.stage ≠ .holding → call.result.status = .grouped →
        ∃ member ∈ later.members, member.signal = call.signal := by
    intro past status
    rcases held.held status with ⟨stage, waiting⟩ |
      ⟨member, listed, named⟩
    · rcases past with ⟨_, none⟩ | notHolding
      · exact absurd none waiting
      · exact absurd stage notHolding
    · exact ⟨member, kept member listed, named⟩
  cases moves with
  | prepare moment stage =>
      have early := held.early (by simp [stage, CallStage.rank])
      rw [Call.prepare]
      split
      · apply heldIn_of_notGrouped
        · exact early
        · exact CallStage.noConfusion
      · apply heldIn_of_notGrouped
        · exact early
        · exact CallStage.noConfusion
  | ask entry rest stage routes =>
      have early := held.early (by simp [stage, CallStage.rank])
      rw [Call.plan_, routes]
      apply heldIn_of_notGrouped
      · exact early
      · simp [stage]
  | planned stage routes =>
      have early := held.early (by simp [stage, CallStage.rank])
      apply heldIn_of_notGrouped
      · exact early
      · exact CallStage.noConfusion
  | record stage =>
      have early := held.early (by simp [stage, CallStage.rank])
      exact
        { early := fun _ => early
          unsent := fun _ => rfl
          held := fun status => absurd status early }
  | unsent stage =>
      refine
        { early := fun early => absurd early (by
            simp [Call.settleUnsent, CallStage.rank])
          unsent := CallStage.noConfusion
          held := fun status => Or.inl ⟨rfl, fun none => ?_⟩ }
      have ungrouped := (held.unsent stage).symm.trans none
      exact (final_summarize [] Option.none (Or.inr ungrouped)).2 status
  | leave stage holds empty =>
      exact heldIn_of_holder (Nat.lt_of_sub_eq_succ rfl)
        (keeps (Or.inl ⟨stage, holds⟩))
  | send stage holds nonempty =>
      exact heldIn_of_holder (Nat.lt_of_sub_eq_succ rfl)
        (keeps (Or.inl ⟨stage, holds⟩))
  | skip entry rest stage holds absent =>
      have listed := indexed.holds entry (holds ▸ List.mem_cons_self)
      rw [absent] at listed
      cases listed
  | join route entry rest stage holds listed =>
      have joining : call.joining = some route := by
        rw [Call.joining, if_pos stage, holds]
        exact listed
      apply heldIn_of_holder
      · simp [stage, CallStage.rank]
      · exact fun _ => ⟨_, joins route joining, rfl⟩
  | finish stage finished =>
      exact heldIn_of_notGrouped (status_finish sound stage none)
        CallStage.noConfusion later
  | cut message stage waits =>
      exact heldIn_of_notGrouped (status_finish sound stage (some message))
        CallStage.noConfusion later
  | deliver chain system stage advanced =>
      apply heldIn_of_holder
      · simp [stage, CallStage.rank]
      · exact keeps (Or.inr (by simp [stage]))
  | settle stage | note stage | complete stage =>
      apply heldIn_of_holder
      · simp [CallStage.rank]
      · exact keeps (Or.inr (by simp [stage]))

/-- What is true of every call of a client. -/
structure Call.Tracked (call : Call) (stores : Stores) : Prop where
  sound : call.Sound
  indexed : call.Indexed
  held : call.HeldIn stores

section Client

variable {client next : Client} {label : ClientStep}

theorem joined_of_joining
    {index : Nat} {call : Call} {moved : Call × Stores} {route : Route}
    (found : client.calls[index]? = some call)
    (moves : CallMoves platform label index call client.stores moved)
    (joining : call.joining = some route) :
    client.joined platform label = some (call.member platform route) := by
  have holding : call.stage = .holding := by
    by_contra notHolding
    rw [Call.joining, if_neg notHolding] at joining
    cases joining
  obtain ⟨moment, rfl, _⟩ := moves.own (by simp [holding])
  rw [Client.joined, found, Option.bind_some, joining]
  rfl

theorem tracked_step
    (all : ∀ call ∈ client.calls, call.Tracked client.stores)
    (stepped : client.step platform label = some next) :
    ∀ call ∈ next.calls, call.Tracked next.stores := by
  have kept : ∀ member ∈ client.stores.members,
      member ∈ next.stores.members :=
    fun member listed => (mem_members_step stepped).mpr (Or.inl listed)
  intro later member
  obtain ⟨index, found⟩ := List.mem_iff_getElem?.mp member
  rcases call_of_step found stepped with ⟨input, waits, _, rfl⟩ |
    ⟨call, isCall, same | ⟨moved, moves, rfl⟩⟩
  · exact ⟨sound_newCall client input waits,
      indexed_newCall client input waits, heldIn_newCall client input waits _⟩
  · subst same
    have tracked := all later (List.mem_of_getElem? isCall)
    exact ⟨tracked.sound, tracked.indexed, tracked.held.mono kept⟩
  · have tracked := all call (List.mem_of_getElem? isCall)
    refine ⟨sound_callMove tracked.sound moves.move,
      indexed_callMove tracked.indexed moves.move,
      heldIn_callMove tracked.sound tracked.indexed tracked.held moves.move
        kept ?_⟩
    intro route joining
    exact (mem_members_step stepped).mpr
      (Or.inr (joined_of_joining isCall moves joining))

/-! ## What is over -/

theorem not_callMove_of_done
    {call : Call} {stores : Stores} {moved : Call × Stores}
    (done : call.stage = .done) :
    ¬ CallMove platform call stores moved := by
  intro moves
  cases moves <;> simp_all only [reduceCtorEq]

theorem not_senderMove_of_done
    {pipeline : Pipeline} {sender : Sender} {stores : Stores}
    {moved : Sender × Stores} (done : sender.stage = .done) :
    ¬ SenderMove platform pipeline sender stores moved := by
  intro moves
  cases moves <;> simp_all only [reduceCtorEq]

/-- A call that is over stays as it is. -/
theorem call_step_of_done
    {index : Nat} {call : Call} (found : client.calls[index]? = some call)
    (done : call.stage = .done)
    (stepped : client.step platform label = some next) :
    next.calls[index]? = some call := by
  obtain ⟨later, isLater, same | ⟨moved, moves, _⟩⟩ :=
    call_step found stepped
  · rw [isLater, same]
  · exact absurd moves.move (not_callMove_of_done done)

/-- A group that is over stays as it is. -/
theorem sender_step_of_done
    {index : Nat} {sender : Sender}
    (found : client.stores.senders[index]? = some sender)
    (done : sender.stage = .done)
    (stepped : client.step platform label = some next) :
    next.stores.senders[index]? = some sender := by
  obtain ⟨later, isLater, same | ⟨moved, moves, _⟩⟩ :=
    sender_step found stepped
  · rw [isLater, same]
  · exact absurd moves.move (not_senderMove_of_done done)

/-- What the client does by itself starts no call. -/
theorem inputs_step
    (unprompted : label.unprompted = true)
    (stepped : client.step platform label = some next) :
    next.calls.map Call.input = client.calls.map Call.input := by
  rcases step_cases stepped with ⟨input, waits, rfl, _, rfl⟩ |
    ⟨index, call, moved, found, moves, rfl⟩ |
    ⟨index, sender, moved, _, _, rfl⟩ | ⟨index, rfl, elapsed⟩ |
    ⟨rfl, rfl⟩ | ⟨pipeline, rfl, rfl⟩
  · cases unprompted
  · have same :
        (client.calls.map Call.input)[index]? = some moved.1.input := by
      rw [List.getElem?_map, found, input_callMove moves.move]
      rfl
    obtain ⟨_, here⟩ := List.getElem?_eq_some_iff.mp same
    rw [Client.putCall, List.map_set, ← here]
    exact List.set_getElem_self _
  · rfl
  · obtain ⟨timer, _, rfl⟩ := Option.map_eq_some_iff.mp elapsed
    dsimp only
    split
    · rfl
    · rfl
  · rfl
  · rfl

/-- Calls that are over open no group. -/
theorem opened_step_of_done
    (unprompted : label.unprompted = true)
    (done : ∀ call ∈ client.calls, call.stage = .done)
    (closed : client.stores.groups.opened = [])
    (stepped : client.step platform label = some next) :
    next.stores.groups.opened = [] := by
  rcases step_cases stepped with ⟨input, waits, rfl, _, rfl⟩ |
    ⟨index, call, moved, found, moves, rfl⟩ |
    ⟨index, sender, moved, _, moves, rfl⟩ | ⟨index, rfl, elapsed⟩ |
    ⟨rfl, rfl⟩ | ⟨pipeline, rfl, rfl⟩
  · cases unprompted
  · exact absurd moves.move
      (not_callMove_of_done (done call (List.mem_of_getElem? found)))
  · rw [Client.putSender]
    dsimp only
    rw [groups_senderMove moves.move, closed]
  · obtain ⟨timer, _, rfl⟩ := Option.map_eq_some_iff.mp elapsed
    have none : client.stores.groups.take timer.1 timer.2 = none := by
      rw [Groups.take, Groups.find, closed]
      rfl
    dsimp only
    rw [none]
    exact closed
  · rfl
  · exact closed

end Client

end OpsSignal
