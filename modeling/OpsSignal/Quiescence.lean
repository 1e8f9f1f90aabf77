import OpsSignal.Batch
import OpsSignal.FlushedRows
import OpsSignal.Lib.Quiescing
import OpsSignal.ResolvedAlerts

/-!
# A client comes to rest

What a client does by itself ends: its calls are planned, held, delivered
and settled, its timers run out, and the groups that they or a full group
closed are sent.  It never stops halfway: as long as a call, a group or a
timer is left, some step is possible.
-/

namespace OpsSignal

open Interleaving LabelledRuns Quiescing

variable {platform : Platform} {pipeline : Pipeline}

/-- A step that the client takes by itself. -/
def Unprompted (_ : Client) (label : ClientStep) : Prop :=
  label.unprompted = true

/-- Nothing is under way and nothing is held. -/
structure Client.AtRest (client : Client) : Prop where
  calls : ∀ call ∈ client.calls, call.stage = .done
  senders : ∀ sender ∈ client.stores.senders, sender.stage = .done
  timers : client.stores.timers = []
  groups : client.stores.groups.opened = []

instance (client : Client) : Decidable client.AtRest :=
  decidable_of_iff
    ((∀ call ∈ client.calls, call.stage = .done) ∧
      (∀ sender ∈ client.stores.senders, sender.stage = .done) ∧
        client.stores.timers = [] ∧
          client.stores.groups.opened.isEmpty = true)
    ⟨fun ⟨calls, senders, timers, groups⟩ =>
        ⟨calls, senders, timers, List.isEmpty_iff.mp groups⟩,
      fun atRest => ⟨atRest.calls, atRest.senders, atRest.timers,
        List.isEmpty_iff.mpr atRest.groups⟩⟩

/-! ## What is left to do -/

def SenderStage.left : SenderStage → Nat
  | .opening => 8
  | .gating => 7
  | .starting => 6
  | .delivering => 5
  | .settling => 4
  | .settlingMembers => 3
  | .completing => 2
  | .completingMembers => 1
  | .done => 0

/-- What the targets of a delivery have left. -/
def Call.chainsLeft (call : Call) : Nat :=
  totalRank ChainTask.rank call.system

def Sender.chainsLeft (sender : Sender) : Nat :=
  totalRank ChainTask.rank sender.system

/-- The work of a client, the work that can cause other work first. -/
def Client.left (client : Client) : Fin 7 → Nat
  | 0 => total (fun call => 9 - call.stage.rank) client.calls
  | 1 => total (fun call => call.routes.length) client.calls
  | 2 => total (fun call => call.holds.length) client.calls
  | 3 => client.stores.timers.length
  | 4 => total (fun sender => sender.stage.left) client.stores.senders
  | 5 => total (fun sender => sender.members.length) client.stores.senders
  | 6 =>
      total Call.chainsLeft client.calls +
        total Sender.chainsLeft client.stores.senders

section Moves

variable {stores : Stores}

/-- A call moves on to a later stage, or gets on with the loop or the
delivery of its stage. -/
theorem left_callMove
    {call : Call} {moved : Call × Stores}
    (moves : CallMove platform call stores moved) :
    9 - moved.1.stage.rank < 9 - call.stage.rank ∨
      moved.1.stage = call.stage ∧
        (moved.1.routes.length < call.routes.length ∨
          moved.1.routes = call.routes ∧
            (moved.1.holds.length < call.holds.length ∨
              moved.1.holds = call.holds ∧
                moved.2.timers = stores.timers ∧
                  moved.2.senders = stores.senders ∧
                    moved.1.chainsLeft < call.chainsLeft)) := by
  cases moves with
  | prepare moment stage =>
      left
      rw [Call.prepare, stage]
      split
      · exact Nat.lt_of_sub_eq_succ rfl
      · exact Nat.lt_of_sub_eq_succ rfl
  | ask entry rest stage routes =>
      right
      rw [Call.plan_, routes]
      exact ⟨rfl, Or.inl (Nat.lt_succ_self _)⟩
  | planned stage | unsent stage | leave stage | send stage | finish stage
  | cut _ stage | settle stage | note stage | complete stage =>
      left
      rw [stage]
      exact Nat.lt_of_sub_eq_succ rfl
  | record stage =>
      left
      rw [Call.record, stage]
      dsimp only
      split
      · decide
      · decide
  | skip entry rest stage holds | join route entry rest stage holds =>
      right
      refine ⟨rfl, Or.inr ⟨rfl, Or.inl ?_⟩⟩
      rw [holds]
      exact Nat.lt_succ_self _
  | deliver chain system stage advanced =>
      right
      exact ⟨rfl, Or.inr ⟨rfl, Or.inr ⟨rfl, rfl, rfl,
        totalRank_advance (rank_deliverChain _ _ _) advanced⟩⟩⟩

/-- Likewise for the sender of a group. -/
theorem left_senderMove
    {sender : Sender} {moved : Sender × Stores}
    (moves : SenderMove platform pipeline sender stores moved) :
    moved.1.stage.left < sender.stage.left ∨
      moved.1.stage = sender.stage ∧
        (moved.1.members.length < sender.members.length ∨
          moved.1.members = sender.members ∧
            moved.1.chainsLeft < sender.chainsLeft) := by
  cases moves with
  | open_ moment stage =>
      left
      rw [Sender.open_, stage]
      split
      · exact Nat.lt_of_sub_eq_succ rfl
      · exact Nat.lt_of_sub_eq_succ rfl
  | gate moment stage | start stage | finish stage | settle stage
  | settled stage | complete stage | completed stage =>
      left
      rw [stage]
      exact Nat.lt_of_sub_eq_succ rfl
  | settleMember member rest stage members
  | completeMember member rest stage members =>
      right
      refine ⟨rfl, Or.inl ?_⟩
      rw [members]
      exact Nat.lt_succ_self _
  | deliver chain system stage advanced =>
      right
      exact ⟨rfl, Or.inr ⟨rfl,
        totalRank_advance (rank_deliverChain _ _ _) advanced⟩⟩

theorem timers_senderMove
    {sender : Sender} {moved : Sender × Stores}
    (moves : SenderMove platform pipeline sender stores moved) :
    moved.2.timers = stores.timers := by
  cases moves with
  | open_ moment stage =>
      rw [Sender.open_]
      split
      · rfl
      · rfl
  | complete stage =>
      dsimp only
      split
      · rfl
      · rfl
  | settle | settleMember =>
      rw [Stores.settle_eq]
  | gate | start | deliver | finish | settled | completeMember
  | completed => rfl

end Moves

section Steps

variable {client next : Client} {label : ClientStep}

/-- What a step of a call takes from the work of the client. -/
theorem descends_putCall
    {index : Nat} {call : Call} {moved : Call × Stores}
    (found : client.calls[index]? = some call)
    (moves : CallMove platform call client.stores moved) :
    Descends Client.left client (client.putCall index moved) := by
  rcases left_callMove moves with stage | ⟨stage, routes | ⟨routes,
    holds | ⟨holds, timers, senders, chains⟩⟩⟩
  · refine ⟨0, total_set_lt found stage, ?_⟩
    intro earlier before
    exact absurd before (Fin.not_lt_zero earlier)
  · refine ⟨1, total_set_lt found routes, ?_⟩
    intro earlier before
    obtain rfl : earlier = 0 := by omega
    exact total_set_le found (by rw [stage])
  · refine ⟨2, total_set_lt found holds, ?_⟩
    intro earlier before
    obtain rfl | rfl : earlier = 0 ∨ earlier = 1 := by omega
    · exact total_set_le found (by rw [stage])
    · exact total_set_le found (by rw [routes])
  · have delivered := total_set_lt found chains
    refine ⟨6, ?_, ?_⟩
    · simp only [Client.left, Client.putCall, senders]
      omega
    · intro earlier before
      obtain rfl | rfl | rfl | rfl | rfl | rfl : earlier = 0 ∨
          earlier = 1 ∨ earlier = 2 ∨ earlier = 3 ∨ earlier = 4 ∨
            earlier = 5 := by omega
      · exact total_set_le found (by rw [stage])
      · exact total_set_le found (by rw [routes])
      · exact total_set_le found (by rw [holds])
      · simp only [Client.left, Client.putCall, timers, le_refl]
      · simp only [Client.left, Client.putCall, senders, le_refl]
      · simp only [Client.left, Client.putCall, senders, le_refl]

theorem descends_putSender
    {index : Nat} {sender : Sender} {moved : Sender × Stores}
    (found : client.stores.senders[index]? = some sender)
    (moves : SenderMove platform client.pipeline sender client.stores
      moved) :
    Descends Client.left client (client.putSender index moved) := by
  have senders := senders_senderMove moves
  have timers : (client.putSender index moved).left 3 ≤ client.left 3 := by
    simp only [Client.left, Client.putSender, timers_senderMove moves,
      le_refl]
  have calls : ∀ earlier < (3 : Fin 7),
      (client.putSender index moved).left earlier ≤
        client.left earlier := by
    intro earlier before
    obtain rfl | rfl | rfl : earlier = 0 ∨ earlier = 1 ∨ earlier = 2 := by
      omega
    · exact le_refl _
    · exact le_refl _
    · exact le_refl _
  have early : ∀ earlier < (4 : Fin 7),
      (client.putSender index moved).left earlier ≤
        client.left earlier := by
    intro earlier before
    by_cases last : earlier = 3
    · rw [last]
      exact timers
    · exact calls earlier (by omega)
  rcases left_senderMove moves with stage | ⟨stage, members | ⟨members,
    chains⟩⟩
  · refine ⟨4, ?_, early⟩
    simp only [Client.left, Client.putSender, senders]
    exact total_set_lt found stage
  · have sameStage : (client.putSender index moved).left 4 ≤
        client.left 4 := by
      simp only [Client.left, Client.putSender, senders]
      exact total_set_le found (by rw [stage])
    refine ⟨5, ?_, ?_⟩
    · simp only [Client.left, Client.putSender, senders]
      exact total_set_lt found members
    · intro earlier before
      by_cases last : earlier = 4
      · rw [last]
        exact sameStage
      · exact early earlier (by omega)
  · have sameStage : (client.putSender index moved).left 4 ≤
        client.left 4 := by
      simp only [Client.left, Client.putSender, senders]
      exact total_set_le found (by rw [stage])
    have sameMembers : (client.putSender index moved).left 5 ≤
        client.left 5 := by
      simp only [Client.left, Client.putSender, senders]
      exact total_set_le found (by rw [members])
    refine ⟨6, ?_, ?_⟩
    · have delivered := total_set_lt found chains
      simp only [Client.left, Client.putSender, senders]
      omega
    · intro earlier before
      by_cases last : earlier = 5
      · rw [last]
        exact sameMembers
      · by_cases same : earlier = 4
        · rw [same]
          exact sameStage
        · exact early earlier (by omega)

/-- Every step that the client takes by itself settles something, and what
it causes comes later. -/
theorem descends_step
    (unprompted : Unprompted client label)
    (stepped : client.step platform label = some next) :
    Descends Client.left client next := by
  rcases step_cases stepped with ⟨input, waits, rfl, _, rfl⟩ |
    ⟨index, call, moved, found, moves, rfl⟩ |
    ⟨index, sender, moved, found, moves, rfl⟩ | ⟨index, rfl, elapsed⟩ |
    ⟨rfl, rfl⟩ | ⟨pipeline, rfl, rfl⟩
  · cases unprompted
  · exact descends_putCall found moves.move
  · exact descends_putSender found moves.move
  · obtain ⟨timer, found, isNext⟩ := Option.map_eq_some_iff.mp elapsed
    have shorter : (client.stores.timers.eraseIdx index).length <
        client.stores.timers.length := by
      have inside := (List.getElem?_eq_some_iff.mp found).1
      rw [List.length_eraseIdx_of_lt inside]
      omega
    refine ⟨3, ?_, ?_⟩
    · rw [← isNext]
      dsimp only [Client.left]
      split
      · exact shorter
      · exact shorter
    · intro earlier before
      have calls : next.calls = client.calls := by
        rw [← isNext]
        dsimp only
        split
        · rfl
        · rfl
      obtain rfl | rfl | rfl : earlier = 0 ∨ earlier = 1 ∨ earlier = 2 :=
        by omega
      · simp only [Client.left, calls, le_refl]
      · simp only [Client.left, calls, le_refl]
      · simp only [Client.left, calls, le_refl]
  · cases unprompted
  · cases unprompted

end Steps

/-! ## Nothing stops halfway -/

theorem exists_next_of_unfinished
    {call : Call} (stores : Stores) (unfinished : call.stage ≠ .done)
    (notDelivering : call.stage ≠ .delivering) (moment : Moment) :
    ∃ moved, call.next platform moment stores = some moved := by
  rw [Call.next]
  cases stage : call.stage with
  | delivering => exact absurd stage notDelivering
  | done => exact absurd stage unfinished
  | preparing | planning | recording | unsent | holding | settling | noting
  | completing => exact ⟨_, rfl⟩

theorem exists_next_of_unfinishedSender
    {sender : Sender} (stores : Stores) (unfinished : sender.stage ≠ .done)
    (notDelivering : sender.stage ≠ .delivering) (moment : Moment) :
    ∃ moved, sender.next platform moment pipeline stores = some moved := by
  rw [Sender.next]
  cases stage : sender.stage with
  | delivering => exact absurd stage notDelivering
  | done => exact absurd stage unfinished
  | opening | gating | starting | settling | settlingMembers | completing
  | completingMembers => exact ⟨_, rfl⟩

section Progress

variable {client : Client}

/-- A call that is not done can move, or one of its targets can. -/
theorem progress_call
    {index : Nat} {call : Call} (found : client.calls[index]? = some call)
    (unfinished : call.stage ≠ .done) :
    ∃ label, Unprompted client label ∧
      client.step platform label ≠ none := by
  by_cases delivering : call.stage = .delivering
  · by_cases finished : Finished call.program call.system
    · refine ⟨.call index plainMoment, rfl, ?_⟩
      simp only [Client.step, found, Option.bind_some, Call.next, delivering,
        ne_eq, Option.map_eq_none_iff, ite_eq_right_iff, reduceCtorEq,
        imp_false, not_not, List.all_eq_true, Option.isNone_iff_eq_none]
      exact finished
    · obtain ⟨chain, system, advanced⟩ := exists_advance finished
      refine ⟨.deliver index chain, rfl, ?_⟩
      simp [Client.step, found, Call.deliver, delivering, advanced]
  · obtain ⟨moved, moves⟩ := @exists_next_of_unfinished platform call
      client.stores unfinished delivering plainMoment
    refine ⟨.call index plainMoment, rfl, ?_⟩
    simp [Client.step, found, moves]

theorem progress_sender
    {index : Nat} {sender : Sender}
    (found : client.stores.senders[index]? = some sender)
    (unfinished : sender.stage ≠ .done) :
    ∃ label, Unprompted client label ∧
      client.step platform label ≠ none := by
  by_cases delivering : sender.stage = .delivering
  · by_cases finished : Finished sender.program sender.system
    · refine ⟨.sender index plainMoment, rfl, ?_⟩
      simp only [Client.step, found, Option.bind_some, Sender.next,
        delivering, ne_eq, Option.map_eq_none_iff, ite_eq_right_iff,
        reduceCtorEq, imp_false, not_not, List.all_eq_true,
        Option.isNone_iff_eq_none]
      exact finished
    · obtain ⟨chain, system, advanced⟩ := exists_advance finished
      refine ⟨.deliverGroup index chain, rfl, ?_⟩
      simp [Client.step, found, Sender.deliver, delivering, advanced]
  · obtain ⟨moved, moves⟩ := @exists_next_of_unfinishedSender platform
      client.pipeline sender client.stores unfinished delivering plainMoment
    refine ⟨.sender index plainMoment, rfl, ?_⟩
    simp [Client.step, found, moves]

theorem progress_timer (left : client.stores.timers ≠ []) :
    ∃ label, Unprompted client label ∧
      client.step platform label ≠ none := by
  obtain ⟨timer, rest, timers⟩ := List.exists_cons_of_ne_nil left
  refine ⟨.timer 0, rfl, ?_⟩
  simp [Client.step, Client.elapse, timers]

end Progress

/-! ## Every open group has its timer -/

/-- The open groups have keys of their own, and each has the timer that
was started when it was opened. -/
structure TimedGroups (stores : Stores) : Prop where
  keyed : (stores.groups.opened.map Prod.fst).Nodup
  timed : ∀ entry ∈ stores.groups.opened,
    (entry.1, entry.2.seq) ∈ stores.timers

section TimedGroups

variable {stores : Stores}

private theorem timed_of_same
    {later : Stores} (timed : TimedGroups stores)
    (groups : later.groups = stores.groups)
    (timers : later.timers = stores.timers) : TimedGroups later where
  keyed := by
    rw [groups]
    exact timed.keyed
  timed := by
    rw [groups, timers]
    exact timed.timed

private theorem timed_of_sublist
    {later : Stores} (timed : TimedGroups stores)
    (groups : later.groups.opened.Sublist stores.groups.opened)
    (timers : ∀ entry ∈ later.groups.opened,
      (entry.1, entry.2.seq) ∈ stores.timers →
        (entry.1, entry.2.seq) ∈ later.timers) : TimedGroups later where
  keyed := timed.keyed.sublist (groups.map Prod.fst)
  timed entry member :=
    timers entry member (timed.timed entry (groups.subset member))

/-- A group that is opened gets its timer. -/
theorem timed_hold
    (timed : TimedGroups stores) (platform : Platform) (route : Route)
    (member : Member) : TimedGroups (stores.hold platform route member) := by
  have added := Groups.add_eq platform route member stores.groups
  cases found : stores.groups.lookup
      (groupKey platform route (groupValues route member.signal)) with
  | none =>
      simp only [found] at added
      rw [Stores.hold, added]
      refine ⟨?_, ?_⟩
      · simp only [Groups.openNew, List.map_append, List.map_cons,
          List.map_nil]
        refine timed.keyed.append (List.nodup_singleton _) ?_
        intro key listed new
        rw [List.mem_singleton.mp new] at listed
        exact Groups.lookup_eq_none found listed
      · intro entry listed
        simp only [Groups.openNew, List.mem_append,
          List.mem_singleton] at listed ⊢
        rcases listed with old | rfl
        · exact Or.inl (timed.timed entry old)
        · exact Or.inr rfl
  | some place =>
      obtain ⟨index, group⟩ := place
      have here := Groups.lookup_eq_some found
      simp only [found] at added
      rw [Stores.hold, added, Groups.joinAt]
      by_cases room : (group.push member).members.length < maxGroupSize
      · simp only [if_pos room]
        refine ⟨?_, ?_⟩
        · obtain ⟨inside, isEntry⟩ := List.getElem?_eq_some_iff.mp here
          dsimp only
          rw [List.map_set]
          have same : (stores.groups.opened.map Prod.fst)[index]? =
              some (groupKey platform route
                (groupValues route member.signal)) := by
            rw [List.getElem?_map, here]
            rfl
          obtain ⟨_, isKey⟩ := List.getElem?_eq_some_iff.mp same
          rw [← isKey, List.set_getElem_self]
          exact timed.keyed
        · intro entry listed
          rcases List.mem_or_eq_of_mem_set listed with old | rfl
          · exact timed.timed entry old
          · have before := timed.timed _ (List.mem_of_getElem? here)
            exact before
      · simp only [if_neg room]
        exact timed_of_sublist timed (List.eraseIdx_sublist _ _)
          fun _ _ kept => kept

theorem timed_callMove
    {call : Call} {moved : Call × Stores} (timed : TimedGroups stores)
    (moves : CallMove platform call stores moved) : TimedGroups moved.2 := by
  cases moves with
  | ask entry rest stage routes =>
      rw [Call.plan_, routes]
      exact timed_of_same timed rfl rfl
  | settle stage =>
      rw [Stores.settle_eq]
      exact timed_of_same timed rfl rfl
  | join route entry rest stage holds listed =>
      exact timed_hold timed platform route _
  | prepare | planned | record | unsent | leave | send | skip | finish
  | cut | deliver | note | complete => exact timed_of_same timed rfl rfl

/-- A timer that runs out takes its group with it. -/
theorem timed_elapse
    {client next : Client} (timed : TimedGroups client.stores) {index : Nat}
    (elapsed : client.elapse index = some next) : TimedGroups next.stores := by
  obtain ⟨⟨key, seq⟩, found, isNext⟩ := Option.map_eq_some_iff.mp elapsed
  have kept : ∀ other ∈ client.stores.timers, other ≠ (key, seq) →
      other ∈ client.stores.timers.eraseIdx index := by
    intro other listed different
    obtain ⟨inside, isTimer⟩ := List.getElem?_eq_some_iff.mp found
    have whole := (List.getElem_cons_eraseIdx_perm inside).mem_iff.mpr listed
    rw [isTimer] at whole
    exact (List.mem_cons.mp whole).resolve_left different
  rw [← isNext]
  dsimp only
  rw [Groups.take_eq]
  cases isPlace : client.stores.groups.lookup key with
  | none =>
      refine timed_of_sublist timed (List.Sublist.refl _) ?_
      intro entry listed hasTimer
      apply kept _ hasTimer
      rintro same
      apply Groups.lookup_eq_none isPlace
      rw [← (Prod.mk.inj same).1]
      exact List.mem_map_of_mem listed
  | some place =>
      obtain ⟨position, group⟩ := place
      have here := Groups.lookup_eq_some isPlace
      dsimp only
      by_cases same : group.seq = seq
      · rw [if_pos same]
        refine timed_of_sublist timed (List.eraseIdx_sublist _ _) ?_
        intro entry listed hasTimer
        apply kept _ hasTimer
        intro isTimer
        obtain ⟨inside, isEntry⟩ := List.getElem?_eq_some_iff.mp here
        have keys := ((List.getElem_cons_eraseIdx_perm inside).map
          Prod.fst).nodup_iff.mpr timed.keyed
        rw [List.map_cons, isEntry] at keys
        have stays : entry.1 ∈ (client.stores.groups.opened.eraseIdx
            position).map Prod.fst := List.mem_map_of_mem listed
        rw [(Prod.mk.inj isTimer).1] at stays
        exact (List.nodup_cons.mp keys).1 stays
      · rw [if_neg same]
        refine timed_of_sublist timed (List.Sublist.refl _) ?_
        intro entry listed hasTimer
        apply kept _ hasTimer
        intro isTimer
        have sameEntry := List.inj_on_of_nodup_map timed.keyed listed
          (List.mem_of_getElem? here) (Prod.mk.inj isTimer).1
        apply same
        rw [← (Prod.mk.inj isTimer).2, sameEntry]

/-- Every step keeps the timers of the groups that stay open. -/
theorem timed_step
    {client next : Client} {label : ClientStep} (timed : TimedGroups client.stores)
    (stepped : client.step platform label = some next) :
    TimedGroups next.stores := by
  rcases step_cases stepped with ⟨input, waits, rfl, _, rfl⟩ |
    ⟨index, call, moved, found, moves, rfl⟩ |
    ⟨index, sender, moved, found, moves, rfl⟩ | ⟨index, rfl, elapsed⟩ |
    ⟨rfl, rfl⟩ | ⟨pipeline, rfl, rfl⟩
  · exact timed
  · exact timed_callMove timed moves.move
  · exact timed_of_same timed (groups_senderMove moves.move)
      (timers_senderMove moves.move)
  · exact timed_elapse timed elapsed
  · exact ⟨List.nodup_nil, fun _ member => absurd member List.not_mem_nil⟩
  · exact timed

end TimedGroups

/-- When no step is possible any more, everything is over. -/
theorem atRest_of_resting
    {client : Client} (timed : TimedGroups client.stores)
    (resting : Resting (Client.step platform) Unprompted client) :
    client.AtRest := by
  have idle : ¬ ∃ label, Unprompted client label ∧
      client.step platform label ≠ none := by
    rintro ⟨label, unprompted, possible⟩
    exact possible (resting label unprompted)
  have timers : client.stores.timers = [] := by
    by_contra left
    exact idle (progress_timer left)
  refine ⟨?_, ?_, timers, ?_⟩
  · intro call member
    obtain ⟨index, found⟩ := List.mem_iff_getElem?.mp member
    by_contra unfinished
    exact idle (progress_call found unfinished)
  · intro sender member
    obtain ⟨index, found⟩ := List.mem_iff_getElem?.mp member
    by_contra unfinished
    exact idle (progress_sender found unfinished)
  · rw [List.eq_nil_iff_forall_not_mem]
    intro entry listed
    have hasTimer := timed.timed entry listed
    rw [timers] at hasTimer
    exact List.not_mem_nil hasTimer

theorem timed_of_runs
    {labels : List ClientStep} {client : Client}
    (reached : Runs platform anyStep pipeline labels client) :
    TimedGroups client.stores :=
  reached.invariant
    (show TimedGroups (Client.fromPipeline pipeline).stores from
      ⟨List.nodup_nil, fun _ member => absurd member List.not_mem_nil⟩)
    fun _ _ _ timed _ stepped => timed_step timed stepped

/-- At rest the row of a signal is final. -/
theorem final_of_atRest
    {labels : List ClientStep} {client : Client} {id : String} {index : Nat}
    (stamped : StampedOnce platform pipeline id index labels client)
    (atRest : client.AtRest) :
    ∃ verdict, client.stores.verdict id = some verdict ∧ verdict.Final := by
  obtain ⟨call, owner, _⟩ := course_of_stampedOnce stamped
  have done := atRest.calls call (List.mem_of_getElem? owner.found)
  apply final_row stamped owner.found done
  · intro member listed
    rw [Groups.members, atRest.groups] at listed
    exact absurd listed List.not_mem_nil
  · exact fun sender isSender _ => atRest.senders sender isSender

/-- From every state that a client can reach: what it does by itself ends
in every order, it can be continued until nothing is possible any more,
and then every call and every group is over, no signal is held, and the
stored row of each signal is final. -/
theorem comes_to_rest
    {labels : List ClientStep} {client : Client}
    (reached : Runs platform anyStep pipeline labels client) :
    ¬ Endless (Client.step platform) Unprompted client ∧
      (∃ later final,
        Reaches (Client.step platform) Unprompted client later final ∧
          Resting (Client.step platform) Unprompted final) ∧
        ∀ later final,
          Reaches (Client.step platform) Unprompted client later final →
            Resting (Client.step platform) Unprompted final →
              final.AtRest ∧
                ∀ id index,
                  StampedOnce platform pipeline id index (labels ++ later)
                      final →
                    ∃ verdict, final.stores.verdict id = some verdict ∧
                      verdict.Final := by
  have descends : ∀ state label next, Unprompted state label →
      Client.step platform state label = some next →
        Descends Client.left state next :=
    fun _ _ _ unprompted stepped => descends_step unprompted stepped
  refine ⟨not_endless descends client, exists_resting descends client, ?_⟩
  intro later final continued resting
  have timed : TimedGroups final.stores :=
    continued.invariant (timed_of_runs reached)
      fun _ _ _ kept _ stepped => timed_step kept stepped
  have atRest := atRest_of_resting timed resting
  exact ⟨atRest, fun _ _ stamped => final_of_atRest stamped atRest⟩

/-- A disk alert has been called for. -/
def calledDisk : Client :=
  (run (Client.step plainPlatform) anyStep
    (Client.fromPipeline pagedPipeline)
    [.start (diskInput .trigger) false]).getD
      (Client.fromPipeline pagedPipeline)

theorem comes_to_rest_disk :
    ¬ calledDisk.AtRest ∧
      ∃ later final,
        Reaches (Client.step plainPlatform) Unprompted calledDisk later
          final ∧ final.AtRest := by
  have reached : Runs plainPlatform anyStep pagedPipeline
      [.start (diskInput .trigger) false] calledDisk :=
    reaches_of_isSome _ (by decide +kernel)
  obtain ⟨_, ⟨later, final, continued, resting⟩, ends⟩ :=
    comes_to_rest reached
  have rests := (ends later final continued resting).1
  exact ⟨by decide +kernel, later, final, continued, rests⟩

end OpsSignal
