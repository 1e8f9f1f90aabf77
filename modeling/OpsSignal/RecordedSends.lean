import Mathlib.Tactic.Abel
import OpsSignal.HeldMembers
import OpsSignal.Lib.Holdings

/-!
# The sends on record

Every row of the throttle table was recorded for a call, for a held member
or for a digest.  A delivery that fails takes back what was recorded for
it; the rows that are left belong to the others.
-/

namespace OpsSignal

open Holdings LabelledRuns

variable {platform : Platform}

/-! ## What is on record for whom -/

/-- The call has taken back its sends. -/
def Call.Released (call : Call) : Prop :=
  match call.stage with
  | .noting | .completing => call.result.status = .failed
  | .done => call.result.status = .failed ∧ call.plan.targets ≠ []
  | _ => False

instance decidableReleased (call : Call) : Decidable call.Released := by
  unfold Call.Released
  split <;> infer_instance

/-- The sends on record for a call. -/
def Call.sends (call : Call) : Multiset Row :=
  if call.Released then 0 else call.admission.rows

def Member.sends (member : Member) : Multiset Row :=
  member.admission.rows

/-- The sends on record for a group that is being sent: those of its
members, and that of the digest. -/
def Sender.sends (sender : Sender) : Multiset Row :=
  match sender.stage with
  | .opening | .gating => held Member.sends sender.closed.members
  | .starting | .delivering | .settling =>
      sender.admission.rows + held Member.sends sender.closed.members
  | .settlingMembers =>
      if sender.result.status = .failed then
        held Member.sends sender.members
      else
        sender.admission.rows + held Member.sends sender.closed.members
  | .completing | .completingMembers | .done =>
      if sender.result.status = .failed then 0
      else sender.admission.rows + held Member.sends sender.closed.members

/-- The sends on record for the groups, open or being sent. -/
def Stores.sends (stores : Stores) : Multiset Row :=
  held Member.sends stores.groups.members + held Sender.sends stores.senders

/-- Everything on record. -/
def Client.sends (client : Client) : Multiset Row :=
  held Call.sends client.calls + client.stores.sends

/-- Every row of the table is on record for somebody. -/
def Client.Accounted (client : Client) : Prop :=
  (client.stores.table : Multiset Row) ≤ client.sends

/-! ## The table -/

section Ledger

variable {rest : Multiset Row}

/-- A check adds to the table no more than to the admission. -/
theorem accounted_run
    (check : Check) (key : String) (now : Int) {ledger : Ledger}
    (accounted : (ledger.1 : Multiset Row) ≤ ledger.2.rows + rest) :
    ((check.run key now ledger).2.1 : Multiset Row) ≤
      (check.run key now ledger).2.2.rows + rest := by
  rcases run_cases check key now ledger with ⟨_, same⟩ |
    ⟨reason, _, same⟩ | ⟨_, _, same⟩
  · rw [same]
    exact accounted
  · rw [same]
    exact accounted
  · rw [same]
    dsimp only
    rw [coe_prune_append, ← Multiset.coe_add, add_right_comm,
      Multiset.coe_singleton, add_comm, Multiset.singleton_add]
    apply (Multiset.filter_le _ _).trans
    exact Multiset.cons_le_cons _ accounted

/-- Each route is asked through the gate, or not at all. -/
theorem ledger_planRoute
    {State : Type} (signal : Signal) (admits : Gate State)
    (loop : PlanState) (state : State) (entry : Route × Nat) :
    (planRoute signal admits (loop, state) entry).2 = state ∨
      (planRoute signal admits (loop, state) entry).2 =
        (admits entry.1 state).2 := by
  have asked : (askGate admits entry.1 state).2 = state ∨
      (askGate admits entry.1 state).2 = (admits entry.1 state).2 := by
    rw [askGate]
    split
    · exact Or.inr rfl
    · exact Or.inl rfl
  rw [planRoute]
  split
  · exact Or.inl rfl
  · dsimp only
    split
    · rename_i answered
      rw [answered] at asked
      exact asked
    · rename_i answered
      rw [answered] at asked
      split
      · exact asked
      · exact asked

/-- What is released is taken off the table. -/
theorem accounted_release
    {table : Table} {admission : Admission}
    (accounted : (table : Multiset Row) ≤ admission.rows + rest) :
    ((release admission table : Table) : Multiset Row) ≤ rest := by
  rw [coe_release]
  exact tsub_le_iff_left.mpr accounted

end Ledger

/-! ## Calls -/

section Call

variable {call : Call} {stores : Stores} {moved : Call × Stores}
  {rest : Multiset Row}

theorem sends_of_early (early : ¬ call.Released) :
    call.sends = call.admission.rows :=
  if_neg early

private theorem sends_congr
    {later : Call} (released : later.Released ↔ call.Released)
    (admission : later.admission = call.admission) :
    later.sends = call.sends := by
  rw [Call.sends, Call.sends, admission]
  by_cases gone : call.Released
  · rw [if_pos gone, if_pos (released.mpr gone)]
  · rw [if_neg gone, if_neg (fun later => gone (released.mp later))]

/-- A move of a call that joins no group. -/
theorem accounted_callMove
    (sound : call.Sound)
    (moves : CallMove platform call stores moved)
    (notJoining : call.joining = none)
    (accounted : (stores.table : Multiset Row) ≤ call.sends + rest) :
    (moved.2.table : Multiset Row) ≤ moved.1.sends + rest := by
  have early (stage : call.stage ≠ .noting ∧ call.stage ≠ .completing ∧
      call.stage ≠ .done) : call.sends = call.admission.rows := by
    apply sends_of_early
    rw [Call.Released]
    split <;> simp_all
  cases moves with
  | prepare moment stage =>
      rw [early (by simp [stage])] at accounted
      rw [Call.prepare]
      split
      · exact accounted
      · exact accounted
  | ask entry others stage routes =>
      rw [early (by simp [stage])] at accounted
      rw [Call.plan_, routes]
      dsimp only
      rw [sends_of_early (by simp [Call.Released, stage])]
      dsimp only
      rcases ledger_planRoute call.signal
        (throttleGate platform call.signal call.now) call.loop
        (stores.table, call.admission) entry with same | same
      · rw [same]
        exact accounted
      · rw [same]
        exact @accounted_run rest _ _ _ (stores.table, call.admission)
          accounted
  | planned stage routes | unsent stage | send stage holds nonempty
  | finish stage finished | cut message stage waits =>
      rw [early (by simp [stage])] at accounted
      exact accounted
  | record stage =>
      rw [early (by simp [stage])] at accounted
      rw [sends_of_early]
      · exact accounted
      · rw [Call.record, Call.Released]
        dsimp only
        cases call.plan.targets.isEmpty with
        | true => simp
        | false => simp
  | leave stage holds empty =>
      rw [early (by simp [stage])] at accounted
      rw [sends_of_early (by simp [Call.Released, empty])]
      exact accounted
  | join route entry others stage holds listed =>
      simp [Call.joining, stage, holds, listed] at notJoining
  | skip _ _ stage _ _ | deliver _ _ stage _ =>
      rw [early (by simp [stage])] at accounted
      rw [sends_of_early (by simp [Call.Released, stage])]
      exact accounted
  | settle stage =>
      rw [early (by simp [stage])] at accounted
      rw [Stores.settle_eq]
      dsimp only
      by_cases failed : call.result.status = .failed
      · have released : Call.Released { call with stage := .noting } :=
          failed
        rw [if_pos failed, Call.sends, if_pos released, zero_add]
        exact accounted_release accounted
      · have kept : ¬ Call.Released { call with stage := .noting } := failed
        rw [if_neg failed, sends_of_early kept]
        exact accounted
  | note stage =>
      have same : Call.sends { call with stage := .completing } =
          call.sends :=
        sends_congr (by simp [Call.Released, stage]) rfl
      rw [same]
      exact accounted
  | complete stage =>
      have nonempty := (sound.ended (by simp [Call.Ended, stage])).1
      have same : Call.sends { call with stage := .done } = call.sends :=
        sends_congr (by simp [Call.Released, stage, nonempty]) rfl
      rw [same]
      exact accounted

/-- What a call has on record is parted between it and the member that
joins a group. -/
theorem sends_join
    {route : Route} {others : List (Nat × String)}
    (stage : call.stage = .holding) :
    call.sends =
      Call.sends { call with
          holds := others
          admission := (call.admission.splitOff platform route).1 } +
        (call.member platform route).sends := by
  rw [sends_of_early (by simp [Call.Released, stage]),
    sends_of_early (by simp [Call.Released, stage])]
  exact (coe_splitOff platform route call.admission).symm

end Call

/-! ## Group senders -/

section Sender

variable {pipeline : Pipeline} {sender : Sender} {stores : Stores}
  {moved : Sender × Stores} {rest : Multiset Row}

/-- A move of a group that is being sent. -/
theorem accounted_senderMove
    (moves : SenderMove platform pipeline sender stores moved)
    (accounted : (stores.table : Multiset Row) ≤ sender.sends + rest) :
    (moved.2.table : Multiset Row) ≤ moved.1.sends + rest := by
  cases moves with
  | open_ moment stage =>
      simp only [Sender.sends, stage] at accounted
      rw [Sender.open_]
      split
      · exact accounted
      · exact accounted
  | gate moment stage =>
      simp only [Sender.sends, stage] at accounted
      simp only [Sender.sends, Sender.gate]
      rw [add_assoc]
      apply accounted_run
      rw [Multiset.coe_nil, zero_add]
      exact accounted
  | start stage | finish stage =>
      simp only [Sender.sends, stage] at accounted
      exact accounted
  | deliver chain system stage advanced =>
      simp only [Sender.sends, stage] at accounted ⊢
      exact accounted
  | settle stage =>
      simp only [Sender.sends, stage] at accounted
      rw [Stores.settle_eq]
      simp only [Sender.sends]
      split
      · rw [add_assoc] at accounted
        exact accounted_release accounted
      · exact accounted
  | settleMember member others stage members =>
      simp only [Sender.sends, stage, members, held_cons] at accounted
      rw [Stores.settle_eq]
      simp only [Sender.sends, stage]
      split
      · rename_i failed
        rw [if_pos failed, add_assoc] at accounted
        exact accounted_release accounted
      · rename_i kept
        rw [if_neg kept] at accounted
        exact accounted
  | settled stage members =>
      simp only [Sender.sends, stage, members, held_nil] at accounted
      exact accounted
  | complete stage =>
      simp only [Sender.sends, stage] at accounted
      dsimp only
      split
      · exact accounted
      · exact accounted
  | completeMember member others stage members =>
      simp only [Sender.sends, stage] at accounted ⊢
      exact accounted
  | completed stage members =>
      simp only [Sender.sends, stage] at accounted
      exact accounted

end Sender

/-! ## Groups -/

section Groups

variable {before after : Stores} {closed : List Closed}
  {joined : List Member}

/-- Groups that close keep what their members have on record. -/
theorem sends_spawn
    (members :
      (after.groups.members ++ closed.flatMap Closed.members).Perm
        (before.groups.members ++ joined))
    (senders : after.senders = before.senders ++ closed.map Sender.start) :
    after.sends = before.sends + held Member.sends joined := by
  have total := @held_perm _ _ Member.sends _ _ members
  rw [held_append, held_append, held_flatMap] at total
  have started : held Sender.sends (closed.map Sender.start) =
      held (fun group => held Member.sends group.members) closed := by
    rw [held, held, List.map_map]
    rfl
  rw [Stores.sends, Stores.sends, senders, held_append, started]
  calc _ = (held Member.sends after.groups.members +
          held (fun group => held Member.sends group.members) closed) +
            held Sender.sends before.senders := by
        abel
    _ = _ := by
        rw [total]
        abel

theorem sends_hold (route : Route) (member : Member) (stores : Stores) :
    (stores.hold platform route member).sends =
      stores.sends + member.sends := by
  obtain ⟨_, _, _, groups, senders⟩ := stores.hold_facts platform route member
  have members := Groups.members_add platform route member stores.groups
  rw [← groups] at members
  rw [sends_spawn members senders, held_cons, held_nil, add_zero]

/-- A timer leaves everything on record. -/
theorem sends_elapse
    {client next : Client} {index : Nat}
    (elapsed : client.elapse index = some next) :
    next.stores.table = client.stores.table ∧
      next.calls = client.calls ∧ next.stores.sends = client.stores.sends :=
  by
    obtain ⟨timer, found, rfl⟩ := Option.map_eq_some_iff.mp elapsed
    dsimp only
    split
    · exact ⟨rfl, rfl, rfl⟩
    · rename_i groups closed taken
      refine ⟨rfl, rfl, ?_⟩
      have members := Groups.members_take taken
      rw [← List.append_nil client.stores.groups.members,
        ← List.flatMap_singleton Closed.members closed] at members
      have same := @sends_spawn client.stores
        ({ client.stores with
            timers := client.stores.timers.eraseIdx index
            groups := groups }.spawn [closed]) [closed] [] members rfl
      rw [same, held_nil, add_zero]

/-- So does a flush. -/
theorem sends_flush (client : Client) :
    client.flush.stores.sends = client.stores.sends := by
  have members := @Groups.members_takeAll client.stores.groups
  have perm : (client.stores.groups.takeAll.1.members ++
      client.stores.groups.takeAll.2.flatMap Closed.members).Perm
        (client.stores.groups.members ++ []) := by
    rw [members, List.append_nil]
  have same := @sends_spawn client.stores client.flush.stores
    client.stores.groups.takeAll.2 [] perm rfl
  rw [same, held_nil, add_zero]

end Groups

/-! ## Runs -/

section Steps

variable {client next : Client} {label : ClientStep}

private theorem accounted_putCall
    {index : Nat} {call : Call} {moved : Call × Stores}
    (found : client.calls[index]? = some call) (sound : call.Sound)
    (accounted : client.Accounted)
    (moves : CallMove platform call client.stores moved) :
    (client.putCall index moved).Accounted := by
  obtain ⟨rest, before, after⟩ := @exists_rest _ _ Call.sends _ _ _ found
  rw [Client.Accounted, Client.sends, before, add_assoc] at accounted
  rw [Client.Accounted, Client.sends, Client.putCall]
  dsimp only
  rw [after, add_assoc]
  by_cases joining : call.joining = none
  · have table := accounted_callMove sound moves joining accounted
    have same : moved.2.sends = client.stores.sends := by
      by_cases stage : call.stage = .holding
      · cases moves with
        | join route entry others stage holds listed =>
            simp [Call.joining, stage, holds, listed] at joining
        | leave | send | skip => rfl
        | prepare _ other | ask _ _ other | planned other | record other
        | unsent other | finish other | cut _ other | deliver _ _ other
        | settle other | note other | complete other =>
            exact absurd (stage.symm.trans other) (by simp)
      · obtain ⟨groups, senders⟩ := groups_callMove stage moves
        rw [Stores.sends, groups, senders, Stores.sends]
    rw [same]
    exact table
  · cases moves with
    | join route entry others stage holds listed =>
        obtain ⟨table, _⟩ := client.stores.hold_facts platform route
          (call.member platform route)
        have parted := @sends_join platform call route others stage
        change ((client.stores.hold platform route
          (call.member platform route)).table : Multiset Row) ≤ _ + (_ +
            (client.stores.hold platform route
              (call.member platform route)).sends)
        rw [table, sends_hold]
        rw [parted] at accounted
        apply accounted.trans (le_of_eq _)
        abel
    | prepare _ stage | ask _ _ stage | planned stage | record stage
    | unsent stage | finish stage | cut _ stage | deliver _ _ stage
    | settle stage | note stage | complete stage =>
        simp [Call.joining, stage] at joining
    | leave stage holds | send stage holds =>
        simp [Call.joining, stage, holds] at joining
    | skip entry others stage holds absent =>
        simp [Call.joining, stage, holds, absent] at joining

theorem accounted_step
    (sound : ∀ call ∈ client.calls, call.Sound)
    (accounted : client.Accounted)
    (stepped : client.step platform label = some next) : next.Accounted := by
  rcases step_cases stepped with ⟨input, waits, rfl, _, rfl⟩ |
    ⟨index, call, moved, found, moves, rfl⟩ |
    ⟨index, sender, moved, found, moves, rfl⟩ | ⟨index, rfl, elapsed⟩ |
    ⟨rfl, rfl⟩ | ⟨pipeline, rfl, rfl⟩
  · rw [Client.Accounted, Client.sends] at accounted ⊢
    dsimp only
    rw [held_append]
    exact accounted.trans (add_le_add_left (Multiset.le_add_right _ _) _)
  · exact accounted_putCall found (sound call (List.mem_of_getElem? found))
      accounted moves.move
  · obtain ⟨rest, before, after⟩ :=
      @exists_rest _ _ Sender.sends _ _ _ found
    rw [Client.Accounted, Client.sends, Stores.sends, before] at accounted
    rw [Client.Accounted, Client.sends, Stores.sends, Client.putSender]
    dsimp only
    rw [senders_senderMove moves.move, after, groups_senderMove moves.move]
    have table := @accounted_senderMove platform _ _ _ _
      (held Call.sends client.calls +
        (held Member.sends client.stores.groups.members + rest)) moves.move
    have shifted : ∀ own : Multiset Row, held Call.sends client.calls +
        (held Member.sends client.stores.groups.members + (own + rest)) =
          own + (held Call.sends client.calls +
            (held Member.sends client.stores.groups.members + rest)) := by
      intro own
      abel
    rw [shifted] at accounted ⊢
    exact table accounted
  · obtain ⟨table, calls, sends⟩ := sends_elapse elapsed
    rw [Client.Accounted, Client.sends, table, calls, sends]
    exact accounted
  · rw [Client.Accounted, Client.sends, sends_flush]
    exact accounted
  · exact accounted

/-- Every row of the table is on record for somebody, at every moment. -/
theorem accounted_runs
    {condition : Client → ClientStep → Prop} {pipeline : Pipeline}
    {labels : List ClientStep}
    (reached : Runs platform condition pipeline labels client) :
    client.Accounted := by
  induction reached with
  | nil => exact Multiset.zero_le _
  | snoc earlier _ stepped inductionHypothesis =>
      exact accounted_step (sound_calls earlier) inductionHypothesis stepped

end Steps

end OpsSignal
