import OpsSignal.BatchCalls

/-!
# What the exit code of a batch covers

A batch collects the result of every call, and of every group that the
final flush closes.  If no group is closed before and each is waited for,
nothing is left out.
-/

namespace OpsSignal

open LabelledRuns

variable {platform : Platform}

/-! ## Steps of the batch -/

/-- What a batch can do, by the phase it is in. -/
inductive BatchMove (platform : Platform) (batch : Batch) :
    BatchStep → Batch → Prop
  | client (label : ClientStep) (client : Client)
      (running : ∀ code output, batch.phase ≠ .exited code output)
      (unprompted : label.unprompted = true)
      (stepped : batch.client.step platform label = some client) :
      BatchMove platform batch (.client label)
        { batch with client := client }
  | next (input : SignalInput) (rest : List SignalInput) (client : Client)
      (phase : batch.phase = .ready)
      (remaining : batch.remaining = input :: rest)
      (stepped : batch.client.step platform (.start input true) =
        some client) :
      BatchMove platform batch .next
        { batch with
          client := client
          remaining := rest
          phase := .sending }
  | answered (call : Call) (phase : batch.phase = .sending)
      (last : batch.client.calls.getLast? = some call)
      (done : call.stage = .done) :
      BatchMove platform batch .answered
        { batch with
          results := batch.results ++ [call.result]
          phase := .ready }
  | flushGroups (phase : batch.phase = .ready)
      (remaining : batch.remaining = []) :
      BatchMove platform batch .flushGroups batch.flushGroups
  | join (handle : Nat) (rest : List Nat) (expired : Bool) (sender : Sender)
      (phase : batch.phase = .waiting (handle :: rest) expired)
      (found : batch.client.stores.senders[handle]? = some sender)
      (done : sender.stage = .done) :
      BatchMove platform batch .join
        { batch with
          digests := batch.digests ++ [(handle, sender.result)]
          phase := .waiting rest expired }
  | expire (handles : List Nat) (expired : Bool)
      (phase : batch.phase = .waiting handles expired) :
      BatchMove platform batch .expire
        { batch with phase := .waiting handles true }
  | giveUp (handle : Nat) (rest : List Nat)
      (phase : batch.phase = .waiting (handle :: rest) true) :
      BatchMove platform batch .giveUp
        { batch with phase := .waiting rest true }
  | exit (expired : Bool) (phase : batch.phase = .waiting [] expired) :
      BatchMove platform batch .exit batch.exit

theorem batchMove_of_step
    {batch next : Batch} {label : BatchStep}
    (stepped : batch.step platform label = some next) :
    BatchMove platform batch label next := by
  unfold Batch.step at stepped
  split at stepped
  · cases stepped
  · rename_i label running
    split at stepped
    · rename_i unprompted
      obtain ⟨client, moved, rfl⟩ := Option.map_eq_some_iff.mp stepped
      exact .client label client running unprompted moved
    · cases stepped
  · rename_i phase
    split at stepped
    · cases stepped
    · rename_i input rest remaining
      obtain ⟨client, moved, rfl⟩ := Option.map_eq_some_iff.mp stepped
      exact .next input rest client phase remaining moved
  · rename_i phase
    obtain ⟨call, last, answered⟩ := Option.bind_eq_some_iff.mp stepped
    split at answered
    · rename_i done
      cases answered
      exact .answered call phase last done
    · cases answered
  · rename_i phase
    split at stepped
    · rename_i remaining
      cases stepped
      exact .flushGroups phase (List.isEmpty_iff.mp remaining)
    · cases stepped
  · rename_i handle rest expired phase
    obtain ⟨sender, found, joined⟩ := Option.bind_eq_some_iff.mp stepped
    split at joined
    · rename_i done
      cases joined
      exact .join handle rest expired sender phase found done
    · cases joined
  · rename_i handles expired phase
    cases stepped
    exact .expire handles expired phase
  · rename_i handle rest phase
    obtain ⟨sender, _, given⟩ := Option.bind_eq_some_iff.mp stepped
    split at given
    · cases given
    · cases given
      exact .giveUp handle rest phase
  · rename_i expired phase
    cases stepped
    exact .exit expired phase
  · cases stepped

/-! ## Where a batch stands -/

namespace Batch

/-- What is true of the calls and the groups of a batch at every moment. -/
structure Tracked (inputs : List SignalInput) (batch : Batch) : Prop where
  sent : batch.client.calls.map Call.input ++ batch.remaining = inputs
  calls : ∀ call ∈ batch.client.calls, call.Tracked batch.client.stores
  senders : ∀ sender ∈ batch.client.stores.senders, sender.Sound

/-- The calls whose results are collected are over. -/
structure Answered (batch : Batch) : Prop where
  ended : ∀ call ∈ batch.client.calls.take batch.results.length,
    call.stage = .done
  results : batch.results =
    (batch.client.calls.take batch.results.length).map Call.result

/-- Every group that was sent is waited for, or is over and counted. -/
def Awaits (handles : List Nat) (batch : Batch) : Prop :=
  ∀ (index : Nat) (sender : Sender),
    batch.client.stores.senders[index]? = some sender →
      index ∈ handles ∨
        sender.stage = .done ∧ (index, sender.result) ∈ batch.digests

/-- Every line is sent, and every group. -/
structure Flushed (handles : List Nat) (batch : Batch) : Prop where
  remaining : batch.remaining = []
  opened : batch.client.stores.groups.opened = []
  answered : batch.client.calls.length = batch.results.length
  awaits : batch.Awaits handles

/-- What holds in each phase. -/
def Stands (batch : Batch) : Prop :=
  match batch.phase with
  | .ready => batch.client.stores.senders = [] ∧
      batch.client.calls.length = batch.results.length
  | .sending => batch.client.stores.senders = [] ∧
      batch.client.calls.length = batch.results.length + 1
  | .waiting handles _ => batch.Flushed handles
  | .exited code _ => batch.Flushed [] ∧ code = (report batch.counted).1

/-- The invariant of a batch whose steps are attended. -/
structure Sound (inputs : List SignalInput) (batch : Batch) : Prop where
  tracked : batch.Tracked inputs
  answered : batch.Answered
  stands : batch.Stands

theorem sound_of_start
    (pipeline : Pipeline) (table : Table) (book : AlertBook)
    (inputs : List SignalInput) :
    (start pipeline table book inputs).Sound inputs where
  tracked :=
    { sent := rfl
      calls := fun _ member => absurd member List.not_mem_nil
      senders := fun _ member => absurd member List.not_mem_nil }
  answered := ⟨fun _ member => absurd member List.not_mem_nil, rfl⟩
  stands := ⟨rfl, rfl⟩

/-! ## Steps -/

variable {inputs : List SignalInput} {batch : Batch} {client : Client}
  {label : ClientStep}

theorem tracked_client
    (tracked : batch.Tracked inputs) (unprompted : label.unprompted = true)
    (stepped : batch.client.step platform label = some client) :
    Tracked inputs { batch with client := client } where
  sent := by
    rw [← tracked.sent]
    exact congrArg (· ++ batch.remaining) (inputs_step unprompted stepped)
  calls := tracked_step tracked.calls stepped
  senders := mem_senders_step OpsSignal.sound_start
    (fun _ _ _ _ => sound_senderMove) tracked.senders stepped

theorem length_calls_step
    (unprompted : label.unprompted = true)
    (stepped : batch.client.step platform label = some client) :
    client.calls.length = batch.client.calls.length := by
  have same := congrArg List.length (inputs_step unprompted stepped)
  simpa using same

/-- The answered calls stay as they are. -/
theorem answered_client
    (answered : batch.Answered) (unprompted : label.unprompted = true)
    (stepped : batch.client.step platform label = some client) :
    Answered { batch with client := client } := by
  have same : client.calls.take batch.results.length =
      batch.client.calls.take batch.results.length := by
    apply List.ext_getElem?
    intro index
    rw [List.getElem?_take, List.getElem?_take]
    split
    · rename_i early
      cases found : batch.client.calls[index]? with
      | none =>
          rw [List.getElem?_eq_none_iff] at found ⊢
          rw [length_calls_step unprompted stepped]
          exact found
      | some call =>
          have inTake : call ∈
              batch.client.calls.take batch.results.length := by
            apply List.mem_of_getElem? (i := index)
            rw [List.getElem?_take, if_pos early, found]
          exact call_step_of_done found (answered.ended call inTake) stepped
    · rfl
  constructor
  · dsimp only
    rw [same]
    exact answered.ended
  · dsimp only
    rw [same]
    exact answered.results

/-- Where no group is closed, the groups that are waited for stay the
same, and those that are over. -/
theorem awaits_client
    {handles : List Nat} (awaits : batch.Awaits handles)
    (quiet : batch.client.closes platform label = [])
    (stepped : batch.client.step platform label = some client) :
    Awaits handles { batch with client := client } := by
  intro index later found
  have lengths := length_senders_step stepped
  rw [quiet] at lengths
  have bound := (List.getElem?_eq_some_iff.mp found).1
  dsimp only at bound
  have earlier : index < batch.client.stores.senders.length := by
    rw [lengths] at bound
    exact bound
  have isSender := List.getElem?_eq_getElem earlier
  rcases awaits index _ isSender with waited | ⟨done, counted⟩
  · exact Or.inl waited
  · cases found.symm.trans (sender_step_of_done isSender done stepped)
    exact Or.inr ⟨done, counted⟩

theorem flushed_client
    {handles : List Nat} (flushed : batch.Flushed handles)
    (answered : batch.Answered) (unprompted : label.unprompted = true)
    (quiet : batch.client.closes platform label = [])
    (stepped : batch.client.step platform label = some client) :
    Flushed handles { batch with client := client } where
  remaining := flushed.remaining
  opened := by
    apply opened_step_of_done unprompted _ flushed.opened stepped
    intro call member
    apply answered.ended call
    rw [← flushed.answered, List.take_length]
    exact member
  answered :=
    (length_calls_step unprompted stepped).trans flushed.answered
  awaits := awaits_client flushed.awaits quiet stepped

theorem stands_client
    (sound : batch.Sound inputs)
    (running : ∀ code output, batch.phase ≠ .exited code output)
    (unprompted : label.unprompted = true)
    (quiet : batch.client.closes platform label = [])
    (stepped : batch.client.step platform label = some client) :
    Stands { batch with client := client } := by
  have stands := sound.stands
  have calls := length_calls_step unprompted stepped
  have senders := length_senders_step stepped
  rw [quiet] at senders
  rw [Stands] at stands ⊢
  dsimp only
  cases phase : batch.phase with
  | ready | sending =>
      rw [phase] at stands
      rw [stands.1] at senders
      exact ⟨List.length_eq_zero_iff.mp senders, calls.trans stands.2⟩
  | waiting handles expired =>
      rw [phase] at stands
      have flushed :=
        flushed_client stands sound.answered unprompted quiet stepped
      exact ⟨flushed.remaining, flushed.opened, flushed.answered,
        flushed.awaits⟩
  | exited code output => exact absurd phase (running code output)

theorem start_eq_some
    {input : SignalInput}
    (stepped :
      batch.client.step platform (.start input true) = some client) :
    client = { batch.client with
      calls := batch.client.calls ++
        [batch.client.newCall platform input true] } := by
  rw [Client.step] at stepped
  split at stepped
  · cases stepped
  · exact (Option.some.inj stepped).symm

/-- Every step keeps track of the lines. -/
theorem tracked_move
    {next : Batch} {step : BatchStep} (tracked : batch.Tracked inputs)
    (moves : BatchMove platform batch step next) :
    next.Tracked inputs := by
  cases moves with
  | client label client running unprompted moved =>
      exact tracked_client tracked unprompted moved
  | next input rest client phase remaining moved =>
      refine
        { sent := ?_
          calls := tracked_step tracked.calls moved
          senders := ?_ }
      · rw [start_eq_some moved, ← tracked.sent, remaining]
        simp [Client.newCall]
      · rw [start_eq_some moved]
        exact tracked.senders
  | flushGroups phase remaining =>
      have stepped : batch.client.step platform .flush =
          some batch.client.flush := rfl
      exact
        { sent := tracked.sent
          calls := tracked_step tracked.calls stepped
          senders := mem_senders_step OpsSignal.sound_start
            (fun _ _ _ _ => sound_senderMove) tracked.senders stepped }
  | answered | join | expire | giveUp | exit =>
      exact ⟨tracked.sent, tracked.calls, tracked.senders⟩

/-- A line is sent. -/
theorem stands_next
    (sound : batch.Sound inputs) {input : SignalInput}
    {rest : List SignalInput} (phase : batch.phase = .ready)
    (stepped :
      batch.client.step platform (.start input true) = some client) :
    let next : Batch := { batch with
      client := client
      remaining := rest
      phase := .sending }
    next.Answered ∧ next.Stands := by
  have stands := sound.stands
  rw [Stands, phase] at stands
  have earlier : client.calls.take batch.results.length =
      batch.client.calls.take batch.results.length := by
    rw [start_eq_some stepped]
    exact List.take_append_of_le_length stands.2.ge
  refine ⟨⟨?_, ?_⟩, ?_, ?_⟩
  · dsimp only
    rw [earlier]
    exact sound.answered.ended
  · dsimp only
    rw [earlier]
    exact sound.answered.results
  · rw [start_eq_some stepped]
    exact stands.1
  · rw [start_eq_some stepped]
    dsimp only
    rw [List.length_append, stands.2]
    rfl

/-- The last call has returned. -/
theorem stands_answered
    (sound : batch.Sound inputs) {call : Call}
    (phase : batch.phase = .sending)
    (last : batch.client.calls.getLast? = some call)
    (done : call.stage = .done) :
    let next : Batch := { batch with
      results := batch.results ++ [call.result]
      phase := .ready }
    next.Answered ∧ next.Stands := by
  have stands := sound.stands
  rw [Stands, phase] at stands
  obtain ⟨earlier, calls⟩ := List.getLast?_eq_some_iff.mp last
  have lengths : earlier.length = batch.results.length := by
    have both := stands.2
    rw [calls, List.length_append] at both
    exact Nat.succ_inj.mp both
  have answered := sound.answered
  have before :
      batch.client.calls.take batch.results.length = earlier := by
    rw [calls, ← lengths, List.take_left']
    rfl
  have whole : batch.client.calls.take
      (batch.results ++ [call.result]).length = earlier ++ [call] := by
    rw [calls, List.length_append, ← lengths]
    exact List.take_of_length_le List.length_append.le
  refine ⟨⟨?_, ?_⟩, stands.1, ?_⟩
  · dsimp only
    rw [whole]
    intro member listed
    rcases List.mem_append.mp listed with old | new
    · exact answered.ended member (before.symm ▸ old)
    · rw [List.mem_singleton.mp new]
      exact done
  · dsimp only
    rw [whole, List.map_append, ← before, ← answered.results]
    rfl
  · dsimp only
    rw [stands.2, List.length_append]
    rfl

/-- A group that is sent by the flush is waited for. -/
theorem awaits_flushGroups
    (none : batch.client.stores.senders = []) :
    batch.flushGroups.Awaits
      (List.range' batch.client.stores.senders.length
        batch.client.stores.groups.opened.length) := by
  intro index sender found
  have bound := (List.getElem?_eq_some_iff.mp found).1
  left
  rw [List.mem_range'_1]
  constructor
  · rw [none]
    exact Nat.zero_le _
  · refine lt_of_lt_of_eq bound ?_
    rw [flushGroups, Client.flush, Stores.spawn]
    simp [Groups.takeAll]

/-- A group that is over is counted. -/
theorem awaits_join
    {handle : Nat} {rest : List Nat} {expired : Bool} {sender : Sender}
    (awaits : batch.Awaits (handle :: rest))
    (found : batch.client.stores.senders[handle]? = some sender)
    (done : sender.stage = .done) :
    Awaits rest { batch with
      digests := batch.digests ++ [(handle, sender.result)]
      phase := .waiting rest expired } := by
  intro index other isOther
  rcases awaits index other isOther with waited | ⟨ended, counted⟩
  · rcases List.mem_cons.mp waited with rfl | later
    · cases found.symm.trans isOther
      exact Or.inr
        ⟨done, List.mem_append_right _ (List.mem_singleton_self _)⟩
    · exact Or.inl later
  · exact Or.inr ⟨ended, List.mem_append_left _ counted⟩

/-- An attended step of a batch. -/
theorem sound_step
    {next : Batch} {step : BatchStep} (sound : batch.Sound inputs)
    (attended : Attended platform batch step)
    (stepped : batch.step platform step = some next) :
    next.Sound inputs := by
  have moves := batchMove_of_step stepped
  suffices both : next.Answered ∧ next.Stands from
    ⟨tracked_move sound.tracked moves, both.1, both.2⟩
  have stands := sound.stands
  have answered := sound.answered
  cases moves with
  | client label client running unprompted moved =>
      have quiet := List.isEmpty_iff.mp attended
      exact ⟨answered_client answered unprompted moved,
        stands_client sound running unprompted quiet moved⟩
  | next input rest client phase remaining moved =>
      exact stands_next sound phase moved
  | answered call phase last done =>
      exact stands_answered sound phase last done
  | flushGroups phase remaining =>
      rw [Stands, phase] at stands
      exact ⟨⟨answered.ended, answered.results⟩, remaining, rfl, stands.2,
        awaits_flushGroups stands.1⟩
  | join handle rest expired sender phase found done =>
      rw [Stands, phase] at stands
      exact ⟨⟨answered.ended, answered.results⟩, stands.remaining,
        stands.opened, stands.answered, awaits_join stands.awaits found done⟩
  | expire handles expired phase =>
      rw [Stands, phase] at stands
      exact ⟨⟨answered.ended, answered.results⟩, stands.remaining,
        stands.opened, stands.answered, stands.awaits⟩
  | giveUp => exact attended.elim
  | exit expired phase =>
      rw [Stands, phase] at stands
      exact ⟨⟨answered.ended, answered.results⟩, ⟨stands.remaining,
        stands.opened, stands.answered, stands.awaits⟩, rfl⟩

/-! ## The exit -/

/-- A group's result says how its delivery ended. -/
theorem status_of_done
    {sender : Sender} (sound : sender.Sound) (done : sender.stage = .done) :
    sender.result.status ≠ .grouped := by
  have ended : sender.Ended := by
    simp [Sender.Ended, Sender.Planned, done]
  obtain ⟨answer, plan⟩ := sound.planned ended.1
  obtain ⟨_, _, result⟩ := sound.ended ended
  rw [result]
  refine (final_summarize _ none (Or.inr ?_)).2
  rw [plan]
  exact grouped_planOf _ answer

theorem covered_of_sound
    {code : Nat} {output : List String} (sound : batch.Sound inputs)
    (exited : batch.phase = .exited code output) :
    batch.Covered inputs code := by
  obtain ⟨tracked, answered, stands⟩ := sound
  rw [Stands, exited] at stands
  obtain ⟨flushed, rfl⟩ := stands
  have over_ : ∀ (index : Nat) (sender : Sender),
      batch.client.stores.senders[index]? = some sender →
        sender.stage = .done ∧ (index, sender.result) ∈ batch.digests :=
    fun index sender found =>
      (flushed.awaits index sender found).resolve_left List.not_mem_nil
  have taken : batch.client.calls.take batch.results.length =
      batch.client.calls := by
    rw [← flushed.answered, List.take_length]
  have digestsFine : (report batch.counted).1 = 0 →
      ∀ sender ∈ batch.client.stores.senders,
        sender.stage = .done ∧ sender.result.status.isFine = true := by
    intro success sender isSender
    obtain ⟨index, found⟩ := List.mem_iff_getElem?.mp isSender
    obtain ⟨done, counted⟩ := over_ index sender found
    have quiet := (code_report _).mp success sender.result
      (List.mem_append_right _ (List.mem_map_of_mem counted))
    have notGrouped :=
      status_of_done (tracked.senders sender isSender) done
    exact ⟨done, ((complaint_eq_none _).mp quiet).resolve_right notGrouped⟩
  exact
    { sent := by
        rw [← tracked.sent, flushed.remaining, List.append_nil]
      closed := flushed.opened
      groups := fun index sender found => Or.inl (over_ index sender found)
      signals := by
        intro success call member
        have done := answered.ended call (taken.symm ▸ member)
        refine ⟨done, ?_⟩
        have isResult : call.result ∈ batch.results := by
          rw [answered.results, taken]
          exact List.mem_map_of_mem member
        have quiet := (code_report _).mp success call.result
          (List.mem_append_left _ isResult)
        refine ((complaint_eq_none _).mp quiet).imp_right fun grouped => ?_
        obtain ⟨_, _, held⟩ := tracked.calls call member
        obtain ⟨holding, _⟩ | ⟨holder, listed, named⟩ :=
          held.held grouped
        · cases done.symm.trans holding
        · have sent : holder ∈ batch.client.stores.sentMembers := by
            rw [Stores.members, Groups.members, flushed.opened] at listed
            exact listed
          obtain ⟨sender, isSender, inGroup⟩ := List.mem_flatMap.mp sent
          exact ⟨grouped, sender, isSender, ⟨holder, inGroup, named⟩,
            digestsFine success sender isSender⟩
      digests := digestsFine }

/-! ## Groups that are left out -/

/-- The groups that the flush still waits for. -/
def handles (batch : Batch) : List Nat :=
  match batch.phase with
  | .waiting handles _ => handles
  | _ => []

/-- A group is waited for once, and is not waited for any more once it is
counted. -/
structure Numbered (batch : Batch) : Prop where
  once : batch.handles.Nodup
  sent : ∀ handle ∈ batch.handles,
    handle < batch.client.stores.senders.length
  counted : ∀ entry ∈ batch.digests,
    entry.1 < batch.client.stores.senders.length ∧ entry.1 ∉ batch.handles

/-- A group that is sent and will not be counted. -/
structure Missed (index : Nat) (batch : Batch) : Prop where
  sent : index < batch.client.stores.senders.length
  unwaited : index ∉ batch.handles
  uncounted : ∀ entry ∈ batch.digests, entry.1 ≠ index

theorem length_senders_flushGroups :
    batch.flushGroups.client.stores.senders.length =
      batch.client.stores.senders.length +
        batch.client.stores.groups.opened.length := by
  rw [flushGroups, Client.flush, Stores.spawn]
  simp [Groups.takeAll]

theorem numbered_step
    {next : Batch} {step : BatchStep} (numbered : batch.Numbered)
    (stepped : batch.step platform step = some next) : next.Numbered := by
  obtain ⟨once, sent, counted⟩ := numbered
  cases batchMove_of_step stepped with
  | client label client running unprompted moved =>
      have lengths := length_senders_step moved
      refine ⟨once, fun handle member => ?_, fun entry member => ?_⟩
      · have bound := sent handle member
        dsimp only
        omega
      · have bound := (counted entry member).1
        refine ⟨?_, (counted entry member).2⟩
        dsimp only
        omega
  | next input rest client phase remaining moved =>
      rw [start_eq_some moved]
      refine ⟨List.nodup_nil, fun handle member => ?_,
        fun entry member => ?_⟩
      · exact absurd member List.not_mem_nil
      · exact ⟨(counted entry member).1, List.not_mem_nil⟩
  | answered call phase last done =>
      refine ⟨List.nodup_nil, fun handle member => ?_,
        fun entry member => ?_⟩
      · exact absurd member List.not_mem_nil
      · exact ⟨(counted entry member).1, List.not_mem_nil⟩
  | flushGroups phase remaining =>
      have lengths := @length_senders_flushGroups batch
      refine ⟨List.nodup_range', fun handle member => ?_,
        fun entry member => ?_⟩
      · have bound := (List.mem_range'_1.mp member).2
        omega
      · have bound := (counted entry member).1
        refine ⟨by omega, fun waited => ?_⟩
        have above := (List.mem_range'_1.mp waited).1
        omega
  | join handle rest expired sender phase found done =>
      have handles : batch.handles = handle :: rest := by
        rw [Batch.handles, phase]
      rw [handles] at once sent counted
      have fresh := List.nodup_cons.mp once
      refine ⟨fresh.2, fun other member => ?_, fun entry member => ?_⟩
      · exact sent other (List.mem_cons_of_mem _ member)
      · rcases List.mem_append.mp member with old | new
        · have both := counted entry old
          exact ⟨both.1, fun waited =>
            both.2 (List.mem_cons_of_mem _ waited)⟩
        · rw [List.mem_singleton.mp new]
          exact ⟨sent handle List.mem_cons_self, fresh.1⟩
  | expire handles expired phase =>
      have same : batch.handles = handles := by
        rw [Batch.handles, phase]
      rw [same] at once sent counted
      exact ⟨once, sent, counted⟩
  | giveUp handle rest phase =>
      have handles : batch.handles = handle :: rest := by
        rw [Batch.handles, phase]
      rw [handles] at once sent counted
      refine ⟨(List.nodup_cons.mp once).2, fun other member => ?_,
        fun entry member => ?_⟩
      · exact sent other (List.mem_cons_of_mem _ member)
      · have both := counted entry member
        exact ⟨both.1, fun waited => both.2 (List.mem_cons_of_mem _ waited)⟩
  | exit expired phase =>
      refine ⟨List.nodup_nil, fun handle member => ?_,
        fun entry member => ?_⟩
      · exact absurd member List.not_mem_nil
      · exact ⟨(counted entry member).1, List.not_mem_nil⟩

/-- What is left out stays left out. -/
theorem missed_step
    {next : Batch} {step : BatchStep} {index : Nat}
    (missed : batch.Missed index)
    (stepped : batch.step platform step = some next) :
    next.Missed index := by
  obtain ⟨sent, unwaited, uncounted⟩ := missed
  cases batchMove_of_step stepped with
  | client label client running unprompted moved =>
      have lengths := length_senders_step moved
      refine ⟨?_, unwaited, uncounted⟩
      dsimp only
      omega
  | next input rest client phase remaining moved =>
      rw [start_eq_some moved]
      exact ⟨sent, List.not_mem_nil, uncounted⟩
  | answered call phase last done =>
      exact ⟨sent, List.not_mem_nil, uncounted⟩
  | flushGroups phase remaining =>
      have lengths := @length_senders_flushGroups batch
      refine ⟨by omega, fun waited => ?_, uncounted⟩
      have above := (List.mem_range'_1.mp waited).1
      omega
  | join handle rest expired sender phase found done =>
      have handles : batch.handles = handle :: rest := by
        rw [Batch.handles, phase]
      rw [handles, List.mem_cons, not_or] at unwaited
      refine ⟨sent, unwaited.2, fun entry member => ?_⟩
      rcases List.mem_append.mp member with old | new
      · exact uncounted entry old
      · rw [List.mem_singleton.mp new]
        exact Ne.symm unwaited.1
  | expire handles expired phase =>
      have same : batch.handles = handles := by
        rw [Batch.handles, phase]
      rw [same] at unwaited
      exact ⟨sent, unwaited, uncounted⟩
  | giveUp handle rest phase =>
      have handles : batch.handles = handle :: rest := by
        rw [Batch.handles, phase]
      rw [handles, List.mem_cons, not_or] at unwaited
      exact ⟨sent, unwaited.2, uncounted⟩
  | exit expired phase => exact ⟨sent, List.not_mem_nil, uncounted⟩

/-- A step that is not attended leaves a group out. -/
theorem missed_of_unattended
    {next : Batch} {step : BatchStep} (numbered : batch.Numbered)
    (unattended : ¬ Attended platform batch step)
    (stepped : batch.step platform step = some next) :
    ∃ index, next.Missed index := by
  obtain ⟨once, sent, counted⟩ := numbered
  cases batchMove_of_step stepped with
  | client label client running unprompted moved =>
      -- The first group that the step closes gets the next sender.
      have lengths := length_senders_step moved
      have closes : 0 < (batch.client.closes platform label).length := by
        apply List.length_pos_of_ne_nil
        intro none
        exact unattended (List.isEmpty_iff.mpr none)
      refine ⟨batch.client.stores.senders.length, ?_, fun waited => ?_,
        fun entry member same => ?_⟩
      · dsimp only
        omega
      · exact absurd (sent _ waited) (Nat.lt_irrefl _)
      · have bound := (counted entry member).1
        omega
  | giveUp handle rest phase =>
      have handles : batch.handles = handle :: rest := by
        rw [Batch.handles, phase]
      rw [handles] at once sent counted
      refine ⟨handle, sent handle List.mem_cons_self,
        (List.nodup_cons.mp once).1, fun entry member same => ?_⟩
      exact (counted entry member).2 (same ▸ List.mem_cons_self)
  | next | answered | flushGroups | join | expire | exit =>
      exact absurd trivial unattended

theorem attended_or_missed
    {pipeline : Pipeline} {table : Table} {book : AlertBook}
    {labels : List BatchStep} {last : Batch}
    (reached : Batch.Runs platform anyStep
      (start pipeline table book inputs) labels last) :
    Batch.Runs platform (Attended platform)
        (start pipeline table book inputs) labels last ∨
      ∃ index, last.Missed index := by
  suffices both : last.Numbered ∧
      (Batch.Runs platform (Attended platform)
          (start pipeline table book inputs) labels last ∨
        ∃ index, last.Missed index) from both.2
  induction reached with
  | nil =>
      refine ⟨⟨List.nodup_nil, ?_, ?_⟩, Or.inl Reaches.nil⟩
      · exact fun _ member => absurd member List.not_mem_nil
      · exact fun _ member => absurd member List.not_mem_nil
  | @snoc labels batch next step _ _ stepped inductionHypothesis =>
      obtain ⟨numbered, course⟩ := inductionHypothesis
      refine ⟨numbered_step numbered stepped, ?_⟩
      rcases course with attended | ⟨index, missed⟩
      · by_cases met : Attended platform batch step
        · exact Or.inl (Reaches.snoc attended met stepped)
        · exact Or.inr (missed_of_unattended numbered met stepped)
      · exact Or.inr ⟨index, missed_step missed stepped⟩

/-- A batch that left a group out exits with zero although the group is not
covered. -/
theorem not_covered_of_missed
    {index : Nat} (missed : batch.Missed index) :
    ¬ batch.Covered inputs 0 := by
  intro covered
  have found := List.getElem?_eq_getElem missed.sent
  rcases covered.groups index _ found with ⟨_, counted⟩ | ⟨_, failed⟩
  · exact missed.uncounted _ counted rfl
  · exact failed rfl

end Batch

/-! ## Main result -/

/-- The lines of a valid file are never refused.  If no group is closed
before the flush and every group that it waits for finishes in time, the
exit code covers what the batch sent; and an exit code of zero covers it in
no other run. -/
theorem exit_covers_batch
    {parse : String → Except String SignalInput} {file : String}
    {lines : List String} {inputs : List SignalInput}
    (read : readBatch parse file lines = .ok inputs)
    {pipeline : Pipeline} {table : Table} {book : AlertBook}
    {labels : List BatchStep} {last : Batch}
    (reached : Batch.Runs platform anyStep
      (Batch.start pipeline table book inputs) labels last) :
    (last.phase = .ready → last.remaining ≠ [] →
        (last.step platform .next).isSome = true) ∧
      ∀ code output, last.phase = .exited code output →
        (Batch.Runs platform (Batch.Attended platform)
              (Batch.start pipeline table book inputs) labels last →
            last.Covered inputs code) ∧
          (code = 0 → last.Covered inputs code →
            Batch.Runs platform (Batch.Attended platform)
              (Batch.start pipeline table book inputs) labels last) := by
  have tracked : last.Tracked inputs := by
    induction reached with
    | nil => exact (Batch.sound_of_start pipeline table book inputs).tracked
    | snoc _ _ stepped inductionHypothesis =>
        exact Batch.tracked_move inductionHypothesis
          (batchMove_of_step stepped)
  constructor
  · intro phase waiting
    cases remaining : last.remaining with
    | nil => exact absurd remaining waiting
    | cons input rest =>
        have listed : input ∈ inputs := by
          rw [← tracked.sent, remaining]
          exact List.mem_append_right _ List.mem_cons_self
        have valid := validate_of_readBatch read input listed
        simp [Batch.step, phase, remaining, Client.step, valid]
  · intro code output exited
    constructor
    · intro attended
      exact Batch.covered_of_sound
        (attended.invariant (Batch.sound_of_start pipeline table book inputs)
          fun _ _ _ sound met stepped => Batch.sound_step sound met stepped)
        exited
    · rintro rfl covered
      rcases Batch.attended_or_missed reached with attended |
        ⟨index, missed⟩
      · exact attended
      · exact absurd covered (Batch.not_covered_of_missed missed)

/-! ## Sample files -/

instance (batch : Batch) :
    ∀ step, Decidable (Batch.Attended platform batch step)
  | .client _ => inferInstanceAs (Decidable (_ = true))
  | .giveUp => inferInstanceAs (Decidable False)
  | .next | .answered | .flushGroups | .join | .expire | .exit =>
      inferInstanceAs (Decidable True)

/-- Everything of no importance is held for a digest. -/
def infoDigests : Route where
  matchRule := { severity := [.info] }
  providers := ["slack"]
  groupBy := some ["service"]

def pages : Route where
  matchRule := { severity := [.critical] }
  providers := ["pagerduty"]

def batchPlatform : Platform where
  sha256 text :=
    if text = infoDigests.serialize.text then
      "15ebba0955bbc87852591f5c0226e66b96c14557f32d6db7685d1d7f1fb0b74a"
    else
      ""
  showTime _ := ""

def batchPipeline : Pipeline where
  routing := ⟨[infoDigests, pages]⟩
  providers :=
    [("slack", ⟨"slack", true⟩), ("pagerduty", ⟨"pagerduty", true⟩)]

def infoLine : String :=
  "\x7b\"source\":\"host\",\"event_type\":\"disk\"," ++
    "\"title\":\"disk full\",\"dedup_key\":\"disk\"\x7d"

def pageLine : String :=
  "\x7b\"source\":\"host\",\"event_type\":\"disk\"," ++
    "\"severity\":\"critical\"," ++
    "\"title\":\"disk full\",\"dedup_key\":\"disk\"\x7d"

def pageInput : SignalInput :=
  { diskInput .trigger with severity := .critical }

def parseLine (line : String) : Except String SignalInput :=
  if line = infoLine then .ok (diskInput .trigger)
  else if line = pageLine then .ok pageInput
  else .error "expected value at line 1 column 1"

/-- Nobody takes anything. -/
def refusing : Moment :=
  { plainMoment with answers := fun _ _ => .error "down" }

def callTurns (index turns : Nat) : List BatchStep :=
  List.replicate turns (.client (.call index plainMoment))

def senderTurns (moment : Moment) (turns : Nat) : List BatchStep :=
  List.replicate turns (.client (.sender 0 moment))

/-- While the second line is on its way to PagerDuty, the timer of the
group that holds the first one runs out, and Slack takes nothing. -/
def earlyGroup : List BatchStep :=
  .next :: callTurns 0 8 ++ [.answered, .next] ++ callTurns 1 6 ++
    .client (.timer 0) :: senderTurns refusing 3 ++
    List.replicate 9 (.client (.deliverGroup 0 0)) ++
    senderTurns refusing 7 ++
    List.replicate 3 (.client (.deliver 1 0)) ++ callTurns 1 4 ++
    [.answered, .flushGroups, .exit]

/-- The same file, with the group left to the flush. -/
def flushedGroup : List BatchStep :=
  .next :: callTurns 0 8 ++ [.answered, .next] ++ callTurns 1 6 ++
    List.replicate 3 (.client (.deliver 1 0)) ++ callTurns 1 4 ++
    [.answered, .flushGroups] ++ senderTurns plainMoment 3 ++
    List.replicate 3 (.client (.deliverGroup 0 0)) ++
    senderTurns plainMoment 7 ++ [.join, .exit]

def twoLines : Batch :=
  Batch.start batchPipeline [] .empty [diskInput .trigger, pageInput]

theorem read_twoLines :
    readBatch parseLine "signals.jsonl" [infoLine, "", pageLine] =
      .ok [diskInput .trigger, pageInput] := by
  rfl

/-- The exit code, once the process has exited. -/
def Batch.exitCode (batch : Batch) : Option Nat :=
  match batch.phase with
  | .exited code _ => some code
  | _ => none

theorem phase_of_exitCode
    {batch : Batch} {code : Nat} (exited : batch.exitCode = some code) :
    ∃ output, batch.phase = .exited code output := by
  rw [Batch.exitCode] at exited
  split at exited
  · rename_i code output phase
    cases exited
    exact ⟨output, phase⟩
  · cases exited

/-- The general theorem where the flush sends the group. -/
theorem exit_covers_batch_flushed :
    ∃ last output,
      Batch.Runs batchPlatform anyStep twoLines flushedGroup last ∧
        last.phase = .exited 0 output ∧
        last.Covered [diskInput .trigger, pageInput] 0 := by
  have computed : ((run (Batch.step batchPlatform)
      (Batch.Attended batchPlatform) twoLines flushedGroup).any fun batch =>
        decide (batch.exitCode = some 0)) = true := by
    decide +kernel
  obtain ⟨last, ran, exited⟩ := Option.any_eq_true _ _ |>.mp computed
  obtain ⟨output, phase⟩ := phase_of_exitCode (of_decide_eq_true exited)
  have attended := reaches_of_run ran
  have covers :=
    (exit_covers_batch read_twoLines attended.anyStep).2 0 output phase
  exact ⟨last, output, attended.anyStep, phase, covers.1 attended⟩

/-- The group has failed, nobody has got the first line, and the exit code
is zero. -/
theorem early_group_not_covered :
    readBatch parseLine "signals.jsonl" [infoLine, "", pageLine] =
        .ok [diskInput .trigger, pageInput] ∧
      ∃ last output,
        Batch.Runs batchPlatform anyStep twoLines earlyGroup last ∧
          last.phase = .exited 0 output ∧
          (∃ sender ∈ last.client.stores.senders,
            sender.stage = .done ∧ sender.result.status = .failed) ∧
          ¬ last.Covered [diskInput .trigger, pageInput] 0 := by
  have computed : ((run (Batch.step batchPlatform) anyStep twoLines
      earlyGroup).any fun batch =>
        decide (batch.exitCode = some 0) &&
          batch.client.stores.senders.any fun sender =>
            decide (sender.stage = .done) &&
              decide (sender.result.status = .failed)) = true := by
    decide +kernel
  obtain ⟨last, ran, computed⟩ := Option.any_eq_true _ _ |>.mp computed
  simp only [Bool.and_eq_true, decide_eq_true_eq, List.any_eq_true]
    at computed
  obtain ⟨exited, sender, isSender, done, failed⟩ := computed
  obtain ⟨output, phase⟩ := phase_of_exitCode exited
  refine ⟨read_twoLines, last, output, reaches_of_run ran, phase,
    ⟨sender, isSender, done, failed⟩, ?_⟩
  intro covered
  have fine := (covered.digests rfl sender isSender).2
  rw [failed] at fine
  cases fine

end OpsSignal
