import OpsSignal.SignalOwner

/-!
# Deliveries in flight

The counter that `flush` waits for.  A task of `notify_async` holds a guard
from its start to its end, and so does every closed group; the guard of a
task that panics is dropped as well.
-/

namespace OpsSignal

open LabelledRuns

variable {platform : Platform}

/-! ## The counter -/

/-- Who holds a guard. -/
inductive Holder where
  | call (index : Nat)
  | sender (index : Nat)
  deriving DecidableEq, Repr

/-- `InFlight`, with the holders of the guards that are alive. -/
structure InFlight where
  count : Nat := 0
  guards : List Holder := []

namespace InFlight

/-- `start`. -/
def start (inFlight : InFlight) (holder : Holder) : InFlight where
  count := inFlight.count + 1
  guards := inFlight.guards ++ [holder]

/-- `Guard::drop`.  A count of zero would underflow. -/
def drop (inFlight : InFlight) (holder : Holder) : Option InFlight :=
  match inFlight.count with
  | 0 => none
  | count + 1 => some ⟨count, inFlight.guards.erase holder⟩

/-- The count is the number of guards. -/
structure Exact (inFlight : InFlight) : Prop where
  count : inFlight.count = inFlight.guards.length
  distinct : inFlight.guards.Nodup

variable {inFlight : InFlight} {holder : Holder}

theorem guards_foldl_start (holders : List Holder) (inFlight : InFlight) :
    (holders.foldl start inFlight).guards =
      inFlight.guards ++ holders := by
  induction holders generalizing inFlight with
  | nil => exact (List.append_nil _).symm
  | cons holder rest inductionHypothesis =>
      rw [List.foldl_cons, inductionHypothesis, start, List.append_assoc]
      rfl

theorem exact_foldl_start
    {holders : List Holder} (exact_ : inFlight.Exact)
    (distinct : holders.Nodup)
    (fresh : ∀ holder ∈ holders, holder ∉ inFlight.guards) :
    (holders.foldl start inFlight).Exact where
  count := by
    have counted : (holders.foldl start inFlight).count =
        inFlight.count + holders.length := by
      clear fresh distinct exact_
      induction holders generalizing inFlight with
      | nil => rfl
      | cons holder rest inductionHypothesis =>
          rw [List.foldl_cons, inductionHypothesis, List.length_cons]
          simp only [start]
          omega
    rw [counted, guards_foldl_start, List.length_append, exact_.count]
  distinct := by
    rw [guards_foldl_start, List.nodup_append]
    refine ⟨exact_.distinct, distinct, ?_⟩
    rintro old isOld new isNew rfl
    exact fresh old isNew isOld

/-- The guard of a holder can be dropped. -/
theorem exact_drop
    (exact_ : inFlight.Exact) (held : holder ∈ inFlight.guards) :
    ∃ dropped, inFlight.drop holder = some dropped ∧ dropped.Exact ∧
      dropped.guards = inFlight.guards.erase holder := by
  have positive := List.length_pos_of_mem held
  rw [← exact_.count] at positive
  obtain ⟨count, isCount⟩ := Nat.exists_eq_add_of_lt positive
  refine ⟨⟨count, inFlight.guards.erase holder⟩, ?_, ?_, rfl⟩
  · rw [drop, isCount, Nat.zero_add]
  · refine ⟨?_, exact_.distinct.erase holder⟩
    have shorter := List.length_erase_of_mem held
    have same := exact_.count
    dsimp only
    omega

end InFlight

/-! ## The tasks -/

/-- The task of a `notify_async` call is running. -/
def Call.Running (call : Call) : Prop :=
  call.waits = false ∧ 4 < call.stage.rank ∧ call.stage ≠ .done

/-- The task or the group is not finished. -/
def Unfinished (client : Client) : Holder → Prop
  | .call index => ∃ call, client.calls[index]? = some call ∧ call.Running
  | .sender index => ∃ sender,
      client.stores.senders[index]? = some sender ∧ sender.stage ≠ .done

namespace Client

/-- The call whose task a step starts: `notify_async` has held the signal
where it has to, and there are targets. -/
def spawns (client : Client) : ClientStep → Option Holder
  | .call index _ => client.calls[index]?.bind fun call =>
      if call.waits = false ∧ call.stage = .holding ∧ call.holds = [] ∧
          call.plan.targets ≠ [] then
        some (.call index)
      else
        none
  | _ => none

/-- The guards that a step starts, one for each group that it closes. -/
def starts (platform : Platform) (client : Client) (label : ClientStep) :
    List Holder :=
  (client.spawns label).toList ++
    (List.range' client.stores.senders.length
      (client.closes platform label).length).map Holder.sender

/-- The task or the group that a step ends. -/
def ends (client : Client) : ClientStep → Option Holder
  | .call index _ => client.calls[index]?.bind fun call =>
      if call.waits = false ∧ call.stage = .completing then
        some (.call index)
      else
        none
  | .sender index _ => client.stores.senders[index]?.bind fun sender =>
      if sender.stage = .completingMembers ∧ sender.members = [] then
        some (.sender index)
      else
        none
  | _ => none

end Client

/-- The task that takes the step, if one does. -/
def ClientStep.mover : ClientStep → Option Holder
  | .call index _ | .deliver index _ | .cut index _ => some (.call index)
  | .sender index _ | .deliverGroup index _ => some (.sender index)
  | _ => none

section Step

variable {client next : Client} {label : ClientStep}

theorem waits_callMove
    {call : Call} {stores : Stores} {moved : Call × Stores}
    (moves : CallMove platform call stores moved) :
    moved.1.waits = call.waits := by
  cases moves with
  | prepare moment stage =>
      rw [Call.prepare]
      split
      · rfl
      · rfl
  | ask entry rest stage routes =>
      rw [Call.plan_, routes]
  | planned | record | unsent | leave | send | skip | join | finish | cut
  | deliver | settle | note | complete => rfl

/-- Where a call starts and ends running. -/
theorem running_callMove
    {call : Call} {stores : Stores} {moved : Call × Stores}
    (moves : CallMove platform call stores moved) :
    moved.1.Running ↔
      (call.Running ∧ call.stage ≠ .completing) ∨
        (call.waits = false ∧ call.stage = .holding ∧ call.holds = [] ∧
          call.plan.targets ≠ []) := by
  have waits := waits_callMove moves
  rw [Call.Running, Call.Running, waits]
  cases moves with
  | prepare moment stage =>
      rw [Call.prepare]
      split
      · simp [stage, CallStage.rank]
      · simp [stage, CallStage.rank]
  | ask entry rest stage routes =>
      rw [Call.plan_, routes]
      simp [stage, CallStage.rank]
  | record stage =>
      rw [Call.record]
      dsimp only
      split
      · simp [stage, CallStage.rank]
      · simp [stage, CallStage.rank]
  | send stage holds nonempty =>
      simp [stage, holds, nonempty, CallStage.rank]
  | leave stage holds empty =>
      simp [stage, holds, empty, CallStage.rank]
  | skip entry rest stage holds _ | join _ entry rest stage holds _ =>
      simp [stage, holds, CallStage.rank]
  | planned stage | unsent stage | finish stage | cut _ stage
  | deliver _ _ stage | settle stage | note stage | complete stage =>
      simp [stage, CallStage.rank, Call.settleUnsent, Call.finish]

/-- Where the sending of a group ends. -/
theorem done_senderMove
    {pipeline : Pipeline} {sender : Sender} {stores : Stores}
    {moved : Sender × Stores}
    (moves : SenderMove platform pipeline sender stores moved) :
    moved.1.stage ≠ .done ↔
      sender.stage ≠ .done ∧
        ¬ (sender.stage = .completingMembers ∧ sender.members = []) := by
  cases moves with
  | open_ moment stage =>
      rw [Sender.open_]
      split
      · simp [stage]
      · simp [stage]
  | gate moment stage => simp [stage, Sender.gate]
  | completeMember member rest stage members => simp [stage, members]
  | completed stage members => simp [stage, members]
  | start stage | deliver _ _ stage | finish stage | settle stage
  | settleMember _ _ stage | settled stage | complete stage => simp [stage]

private theorem mover_of_callMoves
    {index : Nat} {call : Call} {stores : Stores} {moved : Call × Stores}
    (moves : CallMoves platform label index call stores moved) :
    label.mover = some (.call index) := by
  rcases moves with ⟨_, rfl, _⟩ | ⟨_, rfl, _⟩ | ⟨_, rfl, _⟩
  · rfl
  · rfl
  · rfl

private theorem mover_of_senderMoves
    {index : Nat} {pipeline : Pipeline} {sender : Sender} {stores : Stores}
    {moved : Sender × Stores}
    (moves : SenderMoves platform label index pipeline sender stores
      moved) :
    label.mover = some (.sender index) := by
  rcases moves with ⟨_, rfl, _⟩ | ⟨_, rfl, _⟩
  · rfl
  · rfl

/-- What a move of a call ends and starts. -/
private theorem running_callMoves
    {index : Nat} {call : Call} {moved : Call × Stores}
    (found : client.calls[index]? = some call)
    (moves : CallMoves platform label index call client.stores moved) :
    moved.1.Running ↔
      (call.Running ∧ client.ends label ≠ some (.call index)) ∨
        client.spawns label = some (.call index) := by
  rw [running_callMove moves.move]
  rcases moves with ⟨moment, rfl, _⟩ | ⟨chain, rfl, moves⟩ |
    ⟨message, rfl, ended, moves, rfl⟩
  · simp only [Client.ends, Client.spawns, found, Option.bind_some]
    by_cases completing : call.waits = false ∧ call.stage = .completing
    · simp [completing]
    · rw [if_neg completing]
      have notCompleting : call.Running → call.stage ≠ .completing :=
        fun running stage => completing ⟨running.1, stage⟩
      simp only [ne_eq, reduceCtorEq, not_false_eq_true, and_true,
        Option.ite_none_right_eq_some]
      constructor
      · rintro (running | spawned)
        · exact Or.inl running.1
        · exact Or.inr spawned
      · rintro (running | spawned)
        · exact Or.inl ⟨running, notCompleting running⟩
        · exact Or.inr spawned
  · have stage := stage_of_deliver moves
    simp [Client.ends, Client.spawns, stage]
  · have stage := stage_of_cut moves
    simp [Client.ends, Client.spawns, stage]

/-- What a move of a group ends. -/
private theorem unfinished_senderMoves
    {index : Nat} {sender : Sender} {moved : Sender × Stores}
    (found : client.stores.senders[index]? = some sender)
    (moves : SenderMoves platform label index client.pipeline sender
      client.stores moved) :
    moved.1.stage ≠ .done ↔
      sender.stage ≠ .done ∧ client.ends label ≠ some (.sender index) := by
  rw [done_senderMove moves.move]
  rcases moves with ⟨moment, rfl, _⟩ | ⟨chain, rfl, moves⟩
  · simp only [Client.ends, found, Option.bind_some]
    by_cases last : sender.stage = .completingMembers ∧ sender.members = []
    · simp [last]
    · simp [last]
  · have stage : sender.stage = .delivering := by
      rw [Sender.deliver] at moves
      split at moves
      · assumption
      · cases moves
    simp [Client.ends, stage]

/-- A step moves, ends and starts nothing but what it says. -/
theorem mover_of_spawns {holder : Holder}
    (spawned : client.spawns label = some holder) :
    label.mover = some holder ∧ ∃ index, holder = .call index := by
  cases label with
  | call index moment =>
      obtain ⟨call, _, isHolder⟩ := Option.bind_eq_some_iff.mp spawned
      rw [Option.ite_none_right_eq_some] at isHolder
      cases isHolder.2
      exact ⟨rfl, index, rfl⟩
  | start | deliver | cut | timer | flush | sender | deliverGroup
  | reload => cases spawned

theorem mover_of_ends {holder : Holder}
    (ended : client.ends label = some holder) :
    label.mover = some holder := by
  cases label with
  | call index moment =>
      obtain ⟨call, _, isHolder⟩ := Option.bind_eq_some_iff.mp ended
      rw [Option.ite_none_right_eq_some] at isHolder
      exact isHolder.2
  | sender index moment =>
      obtain ⟨sender, _, isHolder⟩ := Option.bind_eq_some_iff.mp ended
      rw [Option.ite_none_right_eq_some] at isHolder
      exact isHolder.2
  | start | deliver | cut | timer | flush | deliverGroup | reload =>
      cases ended

/-- What ends was not finished before. -/
theorem unfinished_of_ends {holder : Holder}
    (ended : client.ends label = some holder) : Unfinished client holder := by
  cases label with
  | call index moment =>
      obtain ⟨call, found, isHolder⟩ := Option.bind_eq_some_iff.mp ended
      rw [Option.ite_none_right_eq_some] at isHolder
      obtain ⟨⟨waits, stage⟩, same⟩ := isHolder
      cases same
      exact ⟨call, found, waits, by simp [stage, CallStage.rank],
        by simp [stage]⟩
  | sender index moment =>
      obtain ⟨sender, found, isHolder⟩ := Option.bind_eq_some_iff.mp ended
      rw [Option.ite_none_right_eq_some] at isHolder
      obtain ⟨⟨stage, _⟩, same⟩ := isHolder
      cases same
      exact ⟨sender, found, by simp [stage]⟩
  | start | deliver | cut | timer | flush | deliverGroup | reload =>
      cases ended

/-- What a step starts was not there before. -/
theorem fresh_of_starts {holder : Holder}
    (started : holder ∈ client.starts platform label) :
    ¬ Unfinished client holder := by
  rcases List.mem_append.mp started with spawned | closed
  · rw [Option.mem_toList] at spawned
    cases label with
    | call index moment =>
        obtain ⟨call, found, isHolder⟩ := Option.bind_eq_some_iff.mp spawned
        rw [Option.ite_none_right_eq_some] at isHolder
        obtain ⟨⟨_, stage, _⟩, same⟩ := isHolder
        cases same
        rintro ⟨other, isOther, _, past, _⟩
        cases found.symm.trans isOther
        simp [stage, CallStage.rank] at past
    | start | deliver | cut | timer | flush | sender | deliverGroup
    | reload => cases spawned
  · obtain ⟨index, inRange, rfl⟩ := List.mem_map.mp closed
    rw [List.mem_range'_1] at inRange
    rintro ⟨sender, found, _⟩
    have bound := (List.getElem?_eq_some_iff.mp found).1
    omega

theorem nodup_starts :
    (client.starts platform label).Nodup := by
  rw [Client.starts, List.nodup_append]
  refine ⟨?_, ?_, ?_⟩
  · cases client.spawns label with
    | none => exact List.nodup_nil
    | some holder => exact List.nodup_singleton holder
  · apply List.Nodup.map _ List.nodup_range'
    intro first second same
    cases same
    rfl
  · rintro holder spawned other closed rfl
    rw [Option.mem_toList] at spawned
    obtain ⟨_, index, rfl⟩ := mover_of_spawns spawned
    obtain ⟨_, _, isSender⟩ := List.mem_map.mp closed
    cases isSender

/-- A call that does not take the step stays as it is. -/
theorem call_idle
    {index : Nat} {call : Call} (found : client.calls[index]? = some call)
    (idle : label.mover ≠ some (.call index))
    (stepped : client.step platform label = some next) :
    next.calls[index]? = some call := by
  obtain ⟨later, isLater, same | ⟨moved, moves, _⟩⟩ :=
    call_step found stepped
  · rw [isLater, same]
  · exact absurd (mover_of_callMoves moves) idle

/-- The call that takes the step moves. -/
theorem call_moves
    {index : Nat} {call : Call} (found : client.calls[index]? = some call)
    (mover : label.mover = some (.call index))
    (stepped : client.step platform label = some next) :
    ∃ moved, CallMoves platform label index call client.stores moved ∧
      next.calls[index]? = some moved.1 := by
  have bound := (List.getElem?_eq_some_iff.mp found).1
  have put : ∀ moved : Call × Stores,
      (client.putCall index moved).calls[index]? = some moved.1 := by
    intro moved
    rw [Client.putCall, List.getElem?_set, if_pos rfl, if_pos bound]
  cases label with
  | call other moment =>
      cases mover
      rw [Client.step, found, Option.bind_some, Option.map_eq_some_iff]
        at stepped
      obtain ⟨moved, moves, rfl⟩ := stepped
      exact ⟨moved, Or.inl ⟨moment, rfl, moves⟩, put moved⟩
  | deliver other chain =>
      cases mover
      rw [Client.step, found, Option.bind_some, Option.map_eq_some_iff]
        at stepped
      obtain ⟨moved, moves, rfl⟩ := stepped
      exact ⟨moved, Or.inr (Or.inl ⟨chain, rfl, moves⟩), put moved⟩
  | cut other message =>
      cases mover
      rw [Client.step, found, Option.bind_some, Option.map_eq_some_iff]
        at stepped
      obtain ⟨ended, moves, rfl⟩ := stepped
      exact ⟨(ended, client.stores),
        Or.inr (Or.inr ⟨message, rfl, ended, moves, rfl⟩), put _⟩
  | start | timer | flush | sender | deliverGroup | reload => cases mover

theorem sender_idle
    {index : Nat} {sender : Sender}
    (found : client.stores.senders[index]? = some sender)
    (idle : label.mover ≠ some (.sender index))
    (stepped : client.step platform label = some next) :
    next.stores.senders[index]? = some sender := by
  obtain ⟨later, isLater, same | ⟨moved, moves, _⟩⟩ :=
    sender_step found stepped
  · rw [isLater, same]
  · exact absurd (mover_of_senderMoves moves) idle

theorem sender_moves
    {index : Nat} {sender : Sender}
    (found : client.stores.senders[index]? = some sender)
    (mover : label.mover = some (.sender index))
    (stepped : client.step platform label = some next) :
    ∃ moved, SenderMoves platform label index client.pipeline sender
        client.stores moved ∧
      next.stores.senders[index]? = some moved.1 := by
  have bound := (List.getElem?_eq_some_iff.mp found).1
  have put : ∀ moved : Sender × Stores,
      SenderMove platform client.pipeline sender client.stores moved →
        (client.putSender index moved).stores.senders[index]? =
          some moved.1 := by
    intro moved moves
    rw [Client.putSender, senders_senderMove moves, List.getElem?_set,
      if_pos rfl, if_pos bound]
  cases label with
  | sender other moment =>
      cases mover
      rw [Client.step, found, Option.bind_some, Option.map_eq_some_iff]
        at stepped
      obtain ⟨moved, moves, rfl⟩ := stepped
      exact ⟨moved, Or.inl ⟨moment, rfl, moves⟩,
        put moved (senderMove_of_next moves)⟩
  | deliverGroup other chain =>
      cases mover
      rw [Client.step, found, Option.bind_some, Option.map_eq_some_iff]
        at stepped
      obtain ⟨moved, moves, rfl⟩ := stepped
      exact ⟨moved, Or.inr ⟨chain, rfl, moves⟩,
        put moved (senderMove_of_deliver moves)⟩
  | start | call | deliver | cut | timer | flush | reload => cases mover

/-- Each group that a step closes gets a sender. -/
theorem length_senders_step
    (stepped : client.step platform label = some next) :
    next.stores.senders.length = client.stores.senders.length +
      (client.closes platform label).length := by
  have sent := congrArg List.length (takes_step stepped).sent
  rwa [List.length_map, List.length_append, List.length_map] at sent

/-- What is unfinished after a step. -/
theorem unfinished_step
    (stepped : client.step platform label = some next) (holder : Holder) :
    Unfinished next holder ↔
      (Unfinished client holder ∧ client.ends label ≠ some holder) ∨
        holder ∈ client.starts platform label := by
  cases holder with
  | call index =>
      have started : Holder.call index ∈ client.starts platform label ↔
          client.spawns label = some (.call index) := by
        simp [Client.starts]
      rw [started]
      cases found : client.calls[index]? with
      | none =>
          constructor
          · rintro ⟨later, isLater, running⟩
            rcases call_of_step isLater stepped with ⟨_, _, _, rfl⟩ |
              ⟨call, isCall, _⟩
            · cases running.2.1
            · cases found.symm.trans isCall
          · rintro (⟨⟨call, isCall, _⟩, _⟩ | spawned)
            · cases found.symm.trans isCall
            · cases label with
              | call other moment =>
                  cases (mover_of_spawns spawned).1
                  rw [Client.spawns, found] at spawned
                  cases spawned
              | start | deliver | cut | timer | flush | sender
              | deliverGroup | reload => cases spawned
      | some call =>
          have here : Unfinished client (.call index) ↔ call.Running := by
            simp [Unfinished, found]
          rw [here]
          by_cases mover : label.mover = some (.call index)
          · obtain ⟨moved, moves, isMoved⟩ := call_moves found mover stepped
            rw [← running_callMoves found moves]
            simp [Unfinished, isMoved]
          · have same := call_idle found mover stepped
            have notEnded : client.ends label ≠ some (.call index) :=
              fun ended => mover (mover_of_ends ended)
            have notSpawned : client.spawns label ≠ some (.call index) :=
              fun spawned => mover (mover_of_spawns spawned).1
            simp [Unfinished, same, notEnded, notSpawned]
  | sender index =>
      have started : Holder.sender index ∈ client.starts platform label ↔
          client.stores.senders.length ≤ index ∧
            index < client.stores.senders.length +
              (client.closes platform label).length := by
        have notSpawned : client.spawns label ≠ some (.sender index) := by
          intro spawned
          obtain ⟨_, _, same⟩ := mover_of_spawns spawned
          cases same
        simp [Client.starts, notSpawned, List.mem_range'_1]
      rw [started, ← length_senders_step stepped]
      cases found : client.stores.senders[index]? with
      | none =>
          have outside := List.getElem?_eq_none_iff.mp found
          constructor
          · rintro ⟨later, isLater, _⟩
            exact Or.inr ⟨outside, (List.getElem?_eq_some_iff.mp isLater).1⟩
          · rintro (⟨⟨sender, isSender, _⟩, _⟩ | ⟨_, inside⟩)
            · cases found.symm.trans isSender
            · have isLater := List.getElem?_eq_getElem inside
              rcases sender_of_step isLater stepped with ⟨closed, isStart⟩ |
                ⟨sender, isSender, _⟩
              · refine ⟨_, isLater, ?_⟩
                rw [isStart]
                exact nofun
              · cases found.symm.trans isSender
      | some sender =>
          have bound := (List.getElem?_eq_some_iff.mp found).1
          have here : Unfinished client (.sender index) ↔
              sender.stage ≠ .done := by
            simp [Unfinished, found]
          have old : ¬ (client.stores.senders.length ≤ index ∧
              index < next.stores.senders.length) := by
            omega
          rw [here, or_iff_left old]
          by_cases mover : label.mover = some (.sender index)
          · obtain ⟨moved, moves, isMoved⟩ :=
              sender_moves found mover stepped
            rw [← unfinished_senderMoves found moves]
            simp [Unfinished, isMoved]
          · have same := sender_idle found mover stepped
            have notEnded : client.ends label ≠ some (.sender index) :=
              fun ended => mover (mover_of_ends ended)
            simp [Unfinished, same, notEnded]

end Step

end OpsSignal
