import OpsSignal.ThrottleHistory

/-!
# The throttle history of one route

A route keeps its history under keys of its own.  In every run the rows of
some keys are those of the run without the admissions under other keys, so
these admissions decide nothing.
-/

namespace OpsSignal

open LabelledRuns

variable {mine : String → Bool} {check : Check} {platform : Platform}

/-- The rows kept under some keys. -/
def rowsOf (mine : String → Bool) (rows : List Row) : List Row :=
  rows.filter fun row => mine row.route

/-! ## One admission -/

namespace Check

theorem newest_rowsOf (own : mine check.routeKey = true) (key : String)
    (table : Table) :
    check.newest key (rowsOf mine table) = check.newest key table := by
  rw [newest, newest, rowsOf, List.filter_filter]
  congr 2
  apply List.filter_congr
  intro row _
  by_cases same : row.route = check.routeKey
  · simp [same, own]
  · simp [same]

theorem sentSince_rowsOf (own : mine check.routeKey = true) (since : Int)
    (table : Table) :
    check.sentSince since (rowsOf mine table) =
      check.sentSince since table := by
  rw [sentSince, sentSince, rowsOf, List.countP_filter]
  apply List.countP_congr
  intro row _
  by_cases same : row.route = check.routeKey
  · simp [same, own]
  · simp [same]

/-- An admission decides from its own rows. -/
theorem refusal_rowsOf (own : mine check.routeKey = true) (key : String)
    (now : Int) (table : Table) :
    check.refusal key now (rowsOf mine table) =
      check.refusal key now table := by
  rw [refusal, refusal, duplicateOf, duplicateOf, overLimit, overLimit,
    newest_rowsOf own]
  simp only [sentSince_rowsOf own]

theorem rowsOf_prune_own (own : mine check.routeKey = true) (key : String)
    (now : Int) (table : Table) :
    rowsOf mine (check.prune now (table ++ [⟨check.routeKey, key, now⟩])) =
      check.prune now (rowsOf mine table ++
        [⟨check.routeKey, key, now⟩]) := by
  rw [prune, prune, rowsOf, rowsOf, List.filter_filter, List.filter_append,
    List.filter_append, List.filter_filter]
  congr 1
  · apply List.filter_congr
    intro row _
    exact Bool.and_comm _ _
  · apply List.filter_congr
    intro row member
    rw [List.mem_singleton.mp member, own, Bool.true_and]

theorem rowsOf_prune_foreign (foreign : mine check.routeKey = false)
    (key : String) (now : Int) (table : Table) :
    rowsOf mine (check.prune now (table ++ [⟨check.routeKey, key, now⟩])) =
      rowsOf mine table := by
  rw [prune, rowsOf, rowsOf, List.filter_filter, List.filter_append]
  rw [List.filter_singleton, foreign, Bool.false_and, cond_false,
    List.append_nil]
  apply List.filter_congr
  intro row _
  by_cases same : row.route = check.routeKey
  · simp [same, foreign]
  · simp [same]

/-- An admission under one of the keys works on their rows alone. -/
theorem run_own (own : mine check.routeKey = true) (key : String)
    (now : Int) (table : Table) (admission : Admission) :
    check.run key now (rowsOf mine table, ⟨rowsOf mine admission.rows⟩) =
      let result := check.run key now (table, admission)
      (result.1, (rowsOf mine result.2.1,
        ⟨rowsOf mine result.2.2.rows⟩)) := by
  rcases run_cases check key now (table, admission) with
    ⟨none, ran⟩ | ⟨reason, refused, ran⟩ | ⟨windows, admitted, ran⟩
  · rw [ran]
    simp [run, none]
  · have windows : (check.dedup.isNone && check.rate.isNone) = false := by
      by_contra none
      have still : (check.dedup.isNone && check.rate.isNone) = true := by
        simpa using none
      have no := not_refused_of_no_windows still key now
        (table : Multiset Row)
      exact no ((isSome_refusal check key now table).mp
        (by rw [refused]; rfl))
    rw [ran]
    rw [← refusal_rowsOf own] at refused
    simp [run, windows, tryAdmit, refused]
  · rw [ran]
    rw [← refusal_rowsOf own] at admitted
    simp only [run, windows, tryAdmit, admitted, Bool.false_eq_true,
      if_false]
    rw [rowsOf_prune_own own]
    simp [rowsOf, own]

/-- An admission under another key does not touch them. -/
theorem run_foreign (foreign : mine check.routeKey = false) (key : String)
    (now : Int) (table : Table) (admission : Admission) :
    rowsOf mine (check.run key now (table, admission)).2.1 =
        rowsOf mine table ∧
      rowsOf mine (check.run key now (table, admission)).2.2.rows =
        rowsOf mine admission.rows := by
  rcases run_cases check key now (table, admission) with
    ⟨_, ran⟩ | ⟨_, _, ran⟩ | ⟨_, _, ran⟩
  · rw [ran]
    exact ⟨rfl, rfl⟩
  · rw [ran]
    exact ⟨rfl, rfl⟩
  · rw [ran]
    refine ⟨rowsOf_prune_foreign foreign key now table, ?_⟩
    simp [rowsOf, foreign]

end Check

/-! ## Splitting and releasing -/

theorem rowsOf_splitOff (mine : String → Bool) (route : Route)
    (admission : Admission) :
    (⟨rowsOf mine admission.rows⟩ : Admission).splitOff platform route =
      (⟨rowsOf mine (admission.splitOff platform route).1.rows⟩,
        ⟨rowsOf mine (admission.splitOff platform route).2.rows⟩) := by
  simp only [Admission.splitOff, rowsOf, List.filter_filter, Bool.and_comm]

theorem rowsOf_erase (mine : String → Bool) (row : Row) (table : Table) :
    rowsOf mine (table.erase row) =
      if mine row.route then (rowsOf mine table).erase row
      else rowsOf mine table := by
  induction table with
  | nil => simp [rowsOf]
  | cons other rest inductionHypothesis =>
      simp only [rowsOf] at inductionHypothesis ⊢
      by_cases same : other = row
      · subst same
        cases own : mine other.route <;> simp [own]
      · have different : (other == row) = false := by simpa using same
        rw [List.erase_cons_tail (by simp [different])]
        cases kept : mine other.route with
        | false => simp [kept, inductionHypothesis]
        | true =>
            rw [List.filter_cons_of_pos (by simp [kept]),
              List.filter_cons_of_pos (by simp [kept]),
              inductionHypothesis]
            split
            · rw [List.erase_cons_tail (by simp [different])]
            · rfl

theorem rowsOf_release (mine : String → Bool) (admission : Admission)
    (table : Table) :
    rowsOf mine (release admission table) =
      release ⟨rowsOf mine admission.rows⟩ (rowsOf mine table) := by
  rw [release, release]
  induction admission.rows generalizing table with
  | nil => rfl
  | cons row rest inductionHypothesis =>
      rw [List.foldl_cons, inductionHypothesis, rowsOf_erase]
      cases own : mine row.route <;> simp [rowsOf, own]

/-! ## Runs -/

/-- The part of a slot that is kept under some keys. -/
def Slot.only (mine : String → Bool) (slot : Slot) : Slot :=
  { slot with admission := ⟨rowsOf mine slot.admission.rows⟩ }

/-- A history that holds the rows of some keys, and nothing else. -/
structure History.Restricts
    (mine : String → Bool) (own history : History) : Prop where
  table : own.table = rowsOf mine history.table
  slots : own.slots = history.slots.map (Slot.only mine)

theorem restricts_empty (mine : String → Bool) :
    History.Restricts mine {} {} := ⟨rfl, rfl⟩

/-- Whether a call is no admission under a key of another route. -/
def ThrottleCall.concerns (mine : String → Bool) (platform : Platform)
    (call : ThrottleCall) : Bool :=
  (call.asks platform).all fun asked => mine asked.1.routeKey

variable {own history next : History} {call : ThrottleCall}

theorem restricts_ask_own
    (restricts : History.Restricts mine own history)
    (isMine : mine check.routeKey = true) {slot : Nat} {key : String}
    {now : Int} {answer : Except String Unit}
    (asked : history.ask check slot key now = some (answer, next)) :
    ∃ after, own.ask check slot key now = some (answer, after) ∧
      History.Restricts mine after next := by
  rw [History.ask] at asked
  cases found : history.slots[slot]? with
  | none =>
      rw [found] at asked
      cases asked
  | some current =>
      rw [found] at asked
      cases asked
      have place : own.slots[slot]? = some (current.only mine) := by
        rw [restricts.slots, List.getElem?_map, found, Option.map_some]
      have ran := Check.run_own isMine key now history.table
        current.admission
      rw [History.ask, place, restricts.table]
      simp only [Slot.only, ran]
      refine ⟨_, rfl, rfl, ?_⟩
      dsimp only
      rw [restricts.slots, List.map_set]
      rfl

theorem restricts_ask_foreign
    (restricts : History.Restricts mine own history)
    (foreign : mine check.routeKey = false) {slot : Nat} {key : String}
    {now : Int} {answer : Except String Unit}
    (asked : history.ask check slot key now = some (answer, next)) :
    History.Restricts mine own next := by
  rw [History.ask] at asked
  cases found : history.slots[slot]? with
  | none =>
      rw [found] at asked
      cases asked
  | some current =>
      rw [found] at asked
      cases asked
      obtain ⟨sameTable, sameRows⟩ := Check.run_foreign foreign key now
        history.table current.admission
      refine ⟨restricts.table.trans sameTable.symm, ?_⟩
      dsimp only
      rw [restricts.slots, List.map_set]
      apply List.ext_getElem?
      intro place
      rw [List.getElem?_set]
      split
      · rename_i here
        subst here
        have bound := (List.getElem?_eq_some_iff.mp found).1
        rw [List.getElem?_map, found, List.length_map, if_pos bound,
          Option.map_some, Slot.only, Slot.only, sameRows]
      · rfl

/-- An admission is made in both histories, or leaves what is kept under
the keys as it is. -/
theorem restricts_ask
    (restricts : History.Restricts mine own history) {slot : Nat}
    {key : String} {now : Int}
    (asked : (history.ask check slot key now).map Prod.snd = some next) :
    (mine check.routeKey = true ∧
        ∃ after, (own.ask check slot key now).map Prod.snd = some after ∧
          History.Restricts mine after next) ∨
      (mine check.routeKey = false ∧ History.Restricts mine own next) := by
  obtain ⟨⟨answer, after⟩, answered, rfl⟩ :=
    Option.map_eq_some_iff.mp asked
  cases isMine : mine check.routeKey with
  | true =>
      obtain ⟨result, ownAsked, still⟩ :=
        restricts_ask_own restricts isMine answered
      exact Or.inl ⟨rfl, result, by rw [ownAsked, Option.map_some], still⟩
  | false =>
      exact Or.inr ⟨rfl, restricts_ask_foreign restricts isMine answered⟩

theorem restricts_split
    (restricts : History.Restricts mine own history) {slot : Nat}
    {route : Route}
    (stepped : history.step platform (.split slot route) = some next) :
    ∃ after, own.step platform (.split slot route) = some after ∧
      History.Restricts mine after next := by
  simp only [History.step] at stepped ⊢
  rw [restricts.slots, List.getElem?_map]
  cases found : history.slots[slot]? with
  | none =>
      rw [found] at stepped
      cases stepped
  | some current =>
      rw [found] at stepped
      cases stepped
      refine ⟨_, rfl, restricts.table, ?_⟩
      simp only [Slot.only, rowsOf_splitOff, List.map_append, List.map_set,
        List.map_cons, List.map_nil]

theorem restricts_release
    (restricts : History.Restricts mine own history) {slot : Nat}
    (stepped : history.step platform (.release slot) = some next) :
    ∃ after, own.step platform (.release slot) = some after ∧
      History.Restricts mine after next := by
  simp only [History.step] at stepped ⊢
  rw [restricts.slots, List.getElem?_map]
  cases found : history.slots[slot]? with
  | none =>
      rw [found] at stepped
      cases stepped
  | some current =>
      rw [found] at stepped
      cases stepped
      refine ⟨_, rfl, ?_, ?_⟩
      · dsimp only
        rw [restricts.table, rowsOf_release]
        rfl
      · simp only [Slot.only, List.map_set]

theorem restricts_step
    (restricts : History.Restricts mine own history)
    (stepped : history.step platform call = some next) :
    (call.concerns mine platform = true ∧
        ∃ after, own.step platform call = some after ∧
          History.Restricts mine after next) ∨
      (call.concerns mine platform = false ∧
        History.Restricts mine own next) := by
  cases call with
  | fresh =>
      cases stepped
      refine Or.inl ⟨rfl, _, rfl, restricts.table, ?_⟩
      simp only [restricts.slots, List.map_append, List.map_cons,
        List.map_nil]
      rfl
  | signal slot route key now => exact restricts_ask restricts stepped
  | digest slot route key now => exact restricts_ask restricts stepped
  | split slot route =>
      exact Or.inl ⟨rfl, restricts_split restricts stepped⟩
  | release slot =>
      exact Or.inl ⟨rfl, restricts_release restricts stepped⟩

/-- In every run the rows of some keys are those of the run without the
admissions under other keys. -/
theorem restricts_of_reaches {calls : List ThrottleCall}
    {ok : History → ThrottleCall → Prop}
    (reached : Reaches (History.step platform) ok {} calls history) :
    ∃ own, History.Restricts mine own history ∧
      Reaches (History.step platform) anyStep {}
        (calls.filter (ThrottleCall.concerns mine platform)) own := by
  induction reached with
  | nil => exact ⟨{}, restricts_empty mine, Reaches.nil⟩
  | snoc _ _ stepped inductionHypothesis =>
      obtain ⟨own, restricts, ownReached⟩ := inductionHypothesis
      rw [List.filter_append, List.filter_singleton]
      rcases restricts_step restricts stepped with
        ⟨concerns, after, ownStepped, still⟩ | ⟨foreign, still⟩
      · rw [concerns]
        exact ⟨after, still, Reaches.snoc ownReached trivial ownStepped⟩
      · rw [foreign, cond_false, List.append_nil]
        exact ⟨own, still, ownReached⟩

/-- An admission answers as it would without the other routes. -/
theorem fst_ask_of_restricts
    (restricts : History.Restricts mine own history)
    (isMine : mine check.routeKey = true) (slot : Nat) (key : String)
    (now : Int) :
    (own.ask check slot key now).map Prod.fst =
      (history.ask check slot key now).map Prod.fst := by
  cases asked : history.ask check slot key now with
  | some result =>
      obtain ⟨after, ownAsked, _⟩ := restricts_ask_own restricts isMine
        asked
      rw [ownAsked]
      rfl
  | none =>
      rw [History.ask] at asked ⊢
      rw [restricts.slots, List.getElem?_map]
      cases found : history.slots[slot]? with
      | none => rfl
      | some current =>
          rw [found] at asked
          cases asked

end OpsSignal
