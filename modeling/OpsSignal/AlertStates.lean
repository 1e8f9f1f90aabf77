import OpsSignal.Lifecycle

/-!
# The state of an alert

What the book says about one key and provider, and how recording a
delivery changes it: a delivered trigger opens the alert, and a delivered
`acknowledge` or `resolve` moves an alert that exists.
-/

namespace OpsSignal

/-- Whether a result says that a provider delivered. -/
def DeliveryResult.deliveredBy (result : DeliveryResult) (name : String) :
    Bool :=
  result.deliveries.any fun outcome =>
    outcome.status = .delivered ∧ outcome.provider = name

namespace AlertBook

/-- The state of the row with this primary key. -/
def stateOf (key : String × String) (book : AlertBook) :
    Option AlertState :=
  (book.rows.find? fun row => row.key = key).map AlertRow.state

variable {key : String × String}

theorem stateOf_empty : empty.stateOf key = none :=
  rfl

private theorem find_upsertRow (row : AlertRow) :
    ∀ rows, ((upsertRow row rows).find? fun other => other.key = key).map
        AlertRow.state =
      if row.key = key then some row.state
      else (rows.find? fun other => other.key = key).map AlertRow.state
  | [] => by
      by_cases same : row.key = key <;> simp [upsertRow, same]
  | existing :: rest => by
      have later := find_upsertRow row rest
      rw [upsertRow]
      by_cases replaced : existing.key = row.key
      · rw [if_pos replaced]
        by_cases same : row.key = key
        · simp [same]
        · have other : existing.key ≠ key := replaced ▸ same
          simp [same, other]
      · rw [if_neg replaced]
        by_cases here : existing.key = key
        · have different : row.key ≠ key := fun same =>
            replaced (here.trans same.symm)
          simp [here, different]
        · simp only [List.find?_cons, here, decide_false]
          exact later

theorem stateOf_upsert (row : AlertRow) (book : AlertBook) :
    (book.upsert row).stateOf key =
      if row.key = key then some row.state else book.stateOf key :=
  find_upsertRow row book.rows

private theorem find_setState
    (moved : String × String) (state : AlertState) :
    ∀ rows : List AlertRow,
      ((rows.map (setStateRow moved state)).find? fun row =>
          row.key = key).map AlertRow.state =
        if moved = key then
          ((rows.find? fun row => row.key = key).map AlertRow.state).map
            fun _ => state
        else
          (rows.find? fun row => row.key = key).map AlertRow.state
  | [] => by simp
  | row :: rest => by
      have later := find_setState moved state rest
      by_cases here : row.key = key
      · have moves : (setStateRow moved state row).key = key := by
          rw [key_setStateRow, here]
        rw [List.map_cons, List.find?_cons_of_pos (by simpa using moves),
          List.find?_cons_of_pos (by simpa using here), setStateRow, here]
        by_cases same : moved = key
        · rw [if_pos same, if_pos same.symm]
          rfl
        · rw [if_neg same, if_neg (Ne.symm same)]
      · simp only [List.map_cons, List.find?_cons, key_setStateRow, here,
          decide_false]
        exact later

theorem stateOf_setState
    (moved : String × String) (state : AlertState) (book : AlertBook) :
    (book.setState moved state).stateOf key =
      if moved = key then (book.stateOf key).map fun _ => state
      else book.stateOf key :=
  find_setState moved state book.rows

/-- What a delivered signal leaves the alert of its key in. -/
def afterDelivery (action : Action) (before : Option AlertState) :
    Option AlertState :=
  match action with
  | .trigger => some .opened
  | .acknowledge | .resolve => before.map fun _ => stateAfter action

theorem afterDelivery_twice (action : Action) (before : Option AlertState) :
    afterDelivery action (afterDelivery action before) =
      afterDelivery action before := by
  cases action <;> cases before <;> rfl

theorem stateOf_recordOutcome
    (signal : Signal) (name : String) (refs : List (String × String))
    (book : AlertBook) (outcome : ProviderOutcome) :
    (recordOutcome signal name refs book outcome).stateOf key =
      if (name, outcome.provider) = key then
        afterDelivery signal.action (book.stateOf key)
      else
        book.stateOf key := by
  rw [recordOutcome]
  cases signal.action with
  | trigger => rw [stateOf_upsert]; rfl
  | acknowledge => rw [stateOf_setState]; rfl
  | resolve => rw [stateOf_setState]; rfl

private theorem stateOf_foldl
    (signal : Signal) (name : String) (refs : List (String × String)) :
    ∀ (outcomes : List ProviderOutcome) (book : AlertBook),
      (outcomes.foldl (recordOutcome signal name refs) book).stateOf key =
        if (∃ outcome ∈ outcomes, (name, outcome.provider) = key) then
          afterDelivery signal.action (book.stateOf key)
        else
          book.stateOf key
  | [], book => by simp
  | outcome :: rest, book => by
      have later := stateOf_foldl signal name refs rest
        (recordOutcome signal name refs book outcome)
      rw [List.foldl_cons, later, stateOf_recordOutcome]
      by_cases here : (name, outcome.provider) = key
      · rw [if_pos here, afterDelivery_twice, ite_self,
          if_pos ⟨outcome, List.mem_cons_self, here⟩]
      · rw [if_neg here]
        apply if_congr _ rfl rfl
        simp [here]

/-- What recording a delivery does to one alert. -/
theorem stateOf_record
    (signal : Signal) (result : DeliveryResult)
    (refs : List (String × String)) (book : AlertBook)
    (name provider : String) :
    (book.record signal result refs).stateOf (name, provider) =
      if signal.dedupKey = some name ∧
          result.deliveredBy provider = true then
        afterDelivery signal.action (book.stateOf (name, provider))
      else
        book.stateOf (name, provider) := by
  rw [record]
  cases own : signal.dedupKey with
  | none => simp
  | some ownName =>
      rw [stateOf_foldl]
      apply if_congr _ rfl rfl
      simp only [DeliveryResult.deliveredBy, List.any_eq_true,
        List.mem_filter, decide_eq_true_eq, Prod.mk.injEq,
        Option.some.injEq]
      constructor
      · rintro ⟨outcome, ⟨member, delivered⟩, sameName, sameProvider⟩
        exact ⟨sameName, outcome, member, delivered, sameProvider⟩
      · rintro ⟨sameName, outcome, member, delivered, sameProvider⟩
        exact ⟨outcome, ⟨member, delivered⟩, sameName, sameProvider⟩

/-- A row can be looked up by its key. -/
theorem find_of_mem {row : AlertRow} :
    ∀ {rows : List AlertRow}, (rows.map AlertRow.key).Nodup →
      row ∈ rows → (rows.find? fun other => other.key = row.key) = some row
  | first :: rest, keyed, member => by
      rw [List.map_cons, List.nodup_cons] at keyed
      rcases List.mem_cons.mp member with rfl | later
      · simp
      · have different : first.key ≠ row.key := by
          intro same
          exact keyed.1 (same ▸ List.mem_map_of_mem later)
        simp only [List.find?_cons, different, decide_false]
        exact find_of_mem keyed.2 later

/-- The open alerts are the rows that are not resolved. -/
theorem mem_openAlerts {book : AlertBook} {name provider : String} :
    (∃ alert ∈ book.openAlerts name, alert.provider = provider) ↔
      ∃ state, book.stateOf (name, provider) = some state ∧
        state ≠ .resolved := by
  constructor
  · rintro ⟨alert, listed, rfl⟩
    obtain ⟨row, filtered, rfl⟩ := List.mem_map.mp listed
    obtain ⟨member, holds⟩ := List.mem_filter.mp filtered
    simp only [Bool.and_eq_true, beq_iff_eq, decide_eq_true_eq] at holds
    obtain ⟨sameName, unresolved⟩ := holds
    have found := find_of_mem book.keyed member
    have sameKey : row.key = (name, row.provider) := by
      rw [AlertRow.key, sameName]
    rw [sameKey] at found
    exact ⟨row.state, by rw [stateOf, found]; rfl, unresolved⟩
  · rintro ⟨state, found, unresolved⟩
    obtain ⟨row, isRow, rfl⟩ := Option.map_eq_some_iff.mp found
    have member := List.mem_of_find?_eq_some isRow
    have sameKey : row.key = (name, provider) := by
      simpa using List.find?_some isRow
    obtain ⟨sameName, sameProvider⟩ := Prod.mk.inj sameKey
    refine ⟨⟨row.provider, row.alertRef, row.title⟩, ?_, sameProvider⟩
    apply List.mem_map.mpr
    refine ⟨row, List.mem_filter.mpr ⟨member, ?_⟩, rfl⟩
    simp [sameName, unresolved]

end AlertBook

end OpsSignal
