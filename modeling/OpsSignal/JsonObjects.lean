import OpsSignal.Group

/-!
# JSON objects

`serde_json::Map`, which keeps its fields sorted by name, and what the core
does with the objects it builds: literals, insertions and lookups.
-/

namespace OpsSignal

/-- The fields of an object, sorted by name. -/
abbrev Fields := List (String × Json)

namespace Fields

/-- `Map::insert`. -/
def insert (name : String) (value : Json) (fields : Fields) : Fields :=
  Closed.insertField (name, value) fields

/-- `Map::insert`, where there is a value. -/
def insertSome
    (fields : Fields) (entry : String × Option String) : Fields :=
  match entry.2 with
  | some value => fields.insert entry.1 (.string value)
  | none => fields

/-- `entry(name).or_insert(value)`. -/
def orInsert (name : String) (value : Json) (fields : Fields) : Fields :=
  match fields.lookup name with
  | some _ => fields
  | none => fields.insert name value

/-- `json!` on the fields of an object. -/
def of (entries : Fields) : Fields :=
  entries.foldl (fun fields entry => fields.insert entry.1 entry.2) []

/-! ## Lookups -/

theorem lookup_insert (name other : String) (value : Json) :
    ∀ fields : Fields, (fields.insert other value).lookup name =
      if name = other then some value else fields.lookup name
  | [] => by
      by_cases same : name = other
      · simp [insert, Closed.insertField, same]
      · have different : (name == other) = false :=
          beq_eq_false_iff_ne.mpr same
        simp [insert, Closed.insertField, List.lookup_cons, different, same]
  | (first, old) :: rest => by
      have tail := lookup_insert name other value rest
      rw [insert] at tail
      rw [insert, Closed.insertField]
      dsimp only
      split
      · rename_i replaced
        rw [List.lookup_cons, List.lookup_cons, ← replaced]
        by_cases same : name = other
        · simp [same]
        · simp [same, beq_eq_false_iff_ne.mpr same]
      · rename_i kept
        split
        · rw [List.lookup_cons]
          by_cases same : name = other
          · simp [same]
          · simp [same, beq_eq_false_iff_ne.mpr same]
        · rw [List.lookup_cons, List.lookup_cons, tail]
          by_cases found : name = first
          · subst found
            simp [Ne.symm kept]
          · simp [beq_eq_false_iff_ne.mpr found]

@[simp]
theorem lookup_insert_self
    (name : String) (value : Json) (fields : Fields) :
    (fields.insert name value).lookup name = some value := by
  rw [lookup_insert, if_pos rfl]

theorem lookup_insert_of_ne
    {name other : String} (different : name ≠ other) (value : Json)
    (fields : Fields) :
    (fields.insert other value).lookup name = fields.lookup name := by
  rw [lookup_insert, if_neg different]

theorem lookup_insertSome
    (name : String) (entry : String × Option String) (fields : Fields) :
    (fields.insertSome entry).lookup name =
      if name = entry.1 then (entry.2.map Json.string).or (fields.lookup name)
      else fields.lookup name := by
  obtain ⟨other, value⟩ := entry
  cases value with
  | none => simp [insertSome]
  | some value => simp [insertSome, lookup_insert]

theorem lookup_orInsert
    (name other : String) (value : Json) (fields : Fields) :
    (fields.orInsert other value).lookup name =
      if name = other then some ((fields.lookup name).getD value)
      else fields.lookup name := by
  rw [orInsert]
  cases found : fields.lookup other with
  | some present =>
      dsimp only
      split
      · rename_i same
        rw [same, found]
        rfl
      · rfl
  | none =>
      dsimp only
      rw [lookup_insert]
      split
      · rename_i same
        rw [same, found]
        rfl
      · rfl

/-- The last of the entries with a name is the field. -/
theorem lookup_of (name : String) (entries : Fields) :
    (of entries).lookup name = entries.reverse.lookup name := by
  induction entries using List.reverseRecOn with
  | nil => rfl
  | append_singleton entries entry inductionHypothesis =>
      rw [of, List.foldl_append, ← of, List.foldl_cons, List.foldl_nil,
        lookup_insert, inductionHypothesis, List.reverse_append,
        List.reverse_singleton, List.singleton_append, List.lookup_cons]
      by_cases same : name = entry.1
      · simp [same]
      · simp [same, beq_eq_false_iff_ne.mpr same]

/-! ## Order -/

/-- The names are in order, and none is there twice. -/
def Sorted (fields : Fields) : Prop :=
  fields.Pairwise fun first second => first.1 < second.1

theorem mem_insert {entry : String × Json} {name : String} {value : Json} :
    ∀ {fields : Fields}, entry ∈ fields.insert name value →
      entry = (name, value) ∨ entry ∈ fields
  | [], member => by
      rw [insert, Closed.insertField, List.mem_singleton] at member
      exact Or.inl member
  | (first, old) :: rest, member => by
      rw [insert, Closed.insertField] at member
      dsimp only at member
      split at member
      · exact (List.mem_cons.mp member).imp_right
          (List.mem_cons_of_mem _)
      · split at member
        · exact List.mem_cons.mp member
        · rcases List.mem_cons.mp member with rfl | later
          · exact Or.inr List.mem_cons_self
          · exact (mem_insert later).imp_right (List.mem_cons_of_mem _)

theorem sorted_insert {name : String} {value : Json} :
    ∀ {fields : Fields}, fields.Sorted → (fields.insert name value).Sorted
  | [], _ => List.pairwise_singleton _ _
  | (first, old) :: rest, sorted => by
      obtain ⟨before, tail⟩ := List.pairwise_cons.mp sorted
      rw [insert, Closed.insertField]
      dsimp only
      split
      · rename_i same
        subst same
        exact List.pairwise_cons.mpr ⟨before, tail⟩
      · rename_i different
        split
        · rename_i smaller
          refine List.pairwise_cons.mpr ⟨?_, sorted⟩
          intro entry member
          rcases List.mem_cons.mp member with rfl | later
          · exact smaller
          · exact String.lt_trans smaller (before entry later)
        · rename_i notSmaller
          refine List.pairwise_cons.mpr ⟨?_, sorted_insert tail⟩
          intro entry member
          rcases mem_insert member with rfl | later
          · refine Decidable.byContradiction fun notLarger => different ?_
            exact String.le_antisymm (String.not_lt.mp notLarger)
              (String.not_lt.mp notSmaller)
          · exact before entry later

theorem sorted_of (entries : Fields) : (of entries).Sorted := by
  induction entries using List.reverseRecOn with
  | nil => exact List.Pairwise.nil
  | append_singleton entries entry inductionHypothesis =>
      rw [of, List.foldl_append, ← of]
      exact sorted_insert inductionHypothesis

end Fields

/-- `json!` on an object. -/
def Json.record (entries : Fields) : Json :=
  .object (Fields.of entries)

theorem Json.get_record (name : String) (entries : Fields) :
    (Json.record entries).get name = entries.reverse.lookup name :=
  Fields.lookup_of name entries

end OpsSignal
