import Mathlib.Data.List.Nodup

/-!
# Tables with a primary key

Rows in the order they were inserted, at most one for each key.  Writing a
row either inserts it or merges it into the row that has its key.
-/

namespace KeyedTables

universe u v

variable {Row : Type u} {Key : Type v} [DecidableEq Key]

/-- Inserts a row, or merges it into the row of the same key, which keeps
its place. -/
def mergeRow (key : Row → Key) (merge : Row → Row → Row) (row : Row) :
    List Row → List Row
  | [] => [row]
  | existing :: rest =>
      if key existing = key row then merge existing row :: rest
      else existing :: mergeRow key merge row rest

section Merge

variable {key : Row → Key} {merge : Row → Row → Row}

theorem keys_mergeRow
    (kept : ∀ existing row, key (merge existing row) = key existing)
    (row : Row) :
    ∀ rows, (mergeRow key merge row rows).map key =
      if key row ∈ rows.map key then rows.map key
      else rows.map key ++ [key row]
  | [] => by
      simp [mergeRow]
  | existing :: rest => by
      have later := keys_mergeRow kept row rest
      rw [mergeRow]
      by_cases same : key existing = key row
      · simp [same, kept]
      · rw [if_neg same, List.map_cons, later, List.map_cons]
        have listed : key row ∈ key existing :: rest.map key ↔
            key row ∈ rest.map key := by
          simp [Ne.symm same]
        rw [if_congr listed rfl rfl]
        split
        · rfl
        · rfl

/-- What a write does to the lookup of each key. -/
theorem find?_mergeRow
    (kept : ∀ existing row, key (merge existing row) = key existing)
    (row : Row) (wanted : Key) :
    ∀ rows, (mergeRow key merge row rows).find?
        (fun other => decide (key other = wanted)) =
      if key row = wanted then
        some (((rows.find? fun other =>
          decide (key other = wanted)).map fun existing =>
            merge existing row).getD row)
      else rows.find? fun other => decide (key other = wanted)
  | [] => by
      by_cases same : key row = wanted
      · simp [mergeRow, same]
      · simp [mergeRow, same]
  | existing :: rest => by
      have later := find?_mergeRow kept row wanted rest
      rw [mergeRow]
      by_cases merged : key existing = key row
      · rw [if_pos merged, List.find?_cons, List.find?_cons, kept]
        by_cases same : key row = wanted
        · simp [merged, same]
        · simp [merged, same]
      · rw [if_neg merged, List.find?_cons, List.find?_cons]
        by_cases here : key existing = wanted
        · have other : key row ≠ wanted := fun same =>
            merged (here.trans same.symm)
          simp [here, other]
        · simp only [here, decide_false]
          exact later

end Merge

/-- A table with a primary key. -/
structure KeyedTable (key : Row → Key) where
  rows : List Row
  keyed : (rows.map key).Nodup

namespace KeyedTable

variable {key : Row → Key}

def empty : KeyedTable key where
  rows := []
  keyed := List.nodup_nil

/-- The row of a key. -/
def find (wanted : Key) (table : KeyedTable key) : Option Row :=
  table.rows.find? fun row => decide (key row = wanted)

/-- `INSERT … ON CONFLICT DO UPDATE`. -/
def upsert
    (merge : Row → Row → Row)
    (kept : ∀ existing row, key (merge existing row) = key existing)
    (row : Row) (table : KeyedTable key) : KeyedTable key where
  rows := mergeRow key merge row table.rows
  keyed := by
    rw [keys_mergeRow kept]
    split
    · exact table.keyed
    · rename_i unlisted
      rw [List.nodup_append]
      refine ⟨table.keyed, List.nodup_singleton _, ?_⟩
      intro first firstMember second secondMember same
      rw [List.mem_singleton.mp secondMember] at same
      exact unlisted (same ▸ firstMember)

@[simp]
theorem find_empty (wanted : Key) :
    (empty : KeyedTable key).find wanted = none :=
  rfl

theorem find_upsert
    {merge : Row → Row → Row}
    (kept : ∀ existing row, key (merge existing row) = key existing)
    (row : Row) (table : KeyedTable key) (wanted : Key) :
    (table.upsert merge kept row).find wanted =
      if key row = wanted then
        some (((table.find wanted).map fun existing =>
          merge existing row).getD row)
      else table.find wanted :=
  find?_mergeRow kept row wanted table.rows

theorem key_of_find {wanted : Key} {table : KeyedTable key} {row : Row}
    (found : table.find wanted = some row) : key row = wanted := by
  simpa using List.find?_some found

/-- Each row is found under its key. -/
theorem find_of_mem {table : KeyedTable key} {row : Row}
    (member : row ∈ table.rows) : table.find (key row) = some row := by
  cases found : table.find (key row) with
  | none =>
      have absent := List.find?_eq_none.mp found row member
      simp at absent
  | some other =>
      have otherMember := List.mem_of_find?_eq_some found
      rw [List.inj_on_of_nodup_map table.keyed otherMember member
        (key_of_find found)]

end KeyedTable

end KeyedTables
