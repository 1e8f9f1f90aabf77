import Mathlib.Data.List.Nodup

/-!
# First mentions

The elements of a list whose key no earlier element has.  A loop that
carries the keys it has seen and skips a key it meets again computes
exactly this list.
-/

namespace FirstMention

universe u v w

variable {Item : Type u} {Key : Type v} [DecidableEq Key]

/-- The items whose key is neither in `seen` nor a key of an earlier
item. -/
def fresh (key : Item → Key) : List Key → List Item → List Item
  | _, [] => []
  | seen, item :: rest =>
      if key item ∈ seen then
        fresh key seen rest
      else
        item :: fresh key (seen ++ [key item]) rest

/-- The first mention of each key. -/
def firsts (key : Item → Key) (items : List Item) : List Item :=
  fresh key [] items

variable {key : Item → Key}

theorem mem_keys_fresh {wanted : Key} :
    ∀ {seen : List Key} {items : List Item},
      wanted ∈ (fresh key seen items).map key ↔
        wanted ∈ items.map key ∧ wanted ∉ seen
  | seen, [] => by simp [fresh]
  | seen, item :: rest => by
      by_cases known : key item ∈ seen
      · rw [fresh, if_pos known, mem_keys_fresh, List.map_cons,
          List.mem_cons]
        constructor
        · rintro ⟨member, unseen⟩
          exact ⟨Or.inr member, unseen⟩
        · rintro ⟨equal | member, unseen⟩
          · exact absurd (equal ▸ known) unseen
          · exact ⟨member, unseen⟩
      · rw [fresh, if_neg known, List.map_cons, List.mem_cons,
          mem_keys_fresh, List.map_cons, List.mem_cons]
        constructor
        · rintro (rfl | ⟨member, unseen⟩)
          · exact ⟨Or.inl rfl, known⟩
          · exact ⟨Or.inr member, fun seenBefore =>
              unseen (List.mem_append_left _ seenBefore)⟩
        · rintro ⟨equal | member, unseen⟩
          · exact Or.inl equal
          · by_cases equal : wanted = key item
            · exact Or.inl equal
            · exact Or.inr ⟨member, by simp [unseen, equal]⟩

/-- Taking keys first changes nothing. -/
theorem map_fresh :
    ∀ (seen : List Key) (items : List Item),
      (fresh key seen items).map key = fresh id seen (items.map key)
  | _, [] => by simp [fresh]
  | seen, item :: rest => by
      by_cases known : key item ∈ seen
      · rw [fresh, if_pos known, List.map_cons, fresh, id_eq, if_pos known,
          map_fresh seen rest]
      · rw [fresh, if_neg known, List.map_cons, List.map_cons, fresh,
          id_eq, if_neg known, map_fresh _ rest]

/-- Items that carry their key are mentioned as their keys are. -/
theorem fresh_map {carry : Key → Item}
    (carries : ∀ name, key (carry name) = name) :
    ∀ (seen names : List Key),
      fresh key seen (names.map carry) = (fresh id seen names).map carry
  | _, [] => by simp [fresh]
  | seen, name :: rest => by
      by_cases known : name ∈ seen
      · simp [fresh, carries, known, fresh_map carries seen rest]
      · simp [fresh, carries, known, fresh_map carries _ rest]

theorem mem_of_mem_fresh {item : Item} :
    ∀ {seen : List Key} {items : List Item},
      item ∈ fresh key seen items → item ∈ items
  | _, [], member => by
      simp [fresh] at member
  | seen, head :: rest, member => by
      by_cases known : key head ∈ seen
      · rw [fresh, if_pos known] at member
        exact List.mem_cons_of_mem _ (mem_of_mem_fresh member)
      · rw [fresh, if_neg known] at member
        rcases List.mem_cons.mp member with rfl | tailMember
        · exact List.mem_cons_self
        · exact List.mem_cons_of_mem _ (mem_of_mem_fresh tailMember)

theorem nodup_keys_fresh :
    ∀ (seen : List Key) (items : List Item),
      ((fresh key seen items).map key).Nodup
  | _, [] => by simp [fresh]
  | seen, item :: rest => by
      by_cases known : key item ∈ seen
      · rw [fresh, if_pos known]
        exact nodup_keys_fresh seen rest
      · rw [fresh, if_neg known, List.map_cons, List.nodup_cons]
        refine ⟨?_, nodup_keys_fresh _ rest⟩
        intro again
        have unseen := (mem_keys_fresh.mp again).2
        exact unseen (List.mem_append_right _ (List.mem_singleton_self _))

theorem fresh_append :
    ∀ (seen : List Key) (left right : List Item),
      fresh key seen (left ++ right) =
        fresh key seen left ++
          fresh key (seen ++ (fresh key seen left).map key) right
  | seen, [], right => by simp [fresh]
  | seen, item :: left, right => by
      by_cases known : key item ∈ seen
      · rw [List.cons_append, fresh, if_pos known, fresh, if_pos known,
          fresh_append]
      · rw [List.cons_append, fresh, if_neg known, fresh, if_neg known,
          fresh_append, List.cons_append, List.map_cons, List.append_assoc,
          List.singleton_append]

/-- A first mention keeps its place among the first mentions. -/
theorem firsts_append_cons
    {before after : List Item} {item : Item}
    (unmentioned : key item ∉ before.map key) :
    ∃ rest, firsts key (before ++ item :: after) =
      firsts key before ++ item :: rest := by
  have unseen : key item ∉ (fresh key [] before).map key := fun member =>
    unmentioned (mem_keys_fresh.mp member).1
  refine ⟨fresh key
    ((fresh key [] before).map key ++ [key item]) after, ?_⟩
  rw [firsts, fresh_append, List.nil_append, fresh, if_neg unseen]
  rfl

theorem mem_keys_firsts {wanted : Key} {items : List Item} :
    wanted ∈ (firsts key items).map key ↔ wanted ∈ items.map key := by
  simp [firsts, mem_keys_fresh]

theorem nodup_keys_firsts (items : List Item) :
    ((firsts key items).map key).Nodup :=
  nodup_keys_fresh [] items

/-- An item is a first mention exactly when it stands somewhere with no
earlier item of its key. -/
theorem mem_fresh_iff {item : Item} :
    ∀ {seen : List Key} {items : List Item},
      item ∈ fresh key seen items ↔
        key item ∉ seen ∧
          ∃ before after, items = before ++ item :: after ∧
            key item ∉ before.map key
  | seen, [] => by simp [fresh]
  | seen, head :: rest => by
      constructor
      · intro member
        refine ⟨(mem_keys_fresh.mp (List.mem_map_of_mem member)).2, ?_⟩
        by_cases known : key head ∈ seen
        · rw [fresh, if_pos known] at member
          obtain ⟨unseen, before, after, shape, unmentioned⟩ :=
            mem_fresh_iff.mp member
          refine ⟨head :: before, after, by rw [shape, List.cons_append], ?_⟩
          rw [List.map_cons, List.mem_cons]
          rintro (equal | earlier)
          · exact unseen (equal ▸ known)
          · exact unmentioned earlier
        · rw [fresh, if_neg known] at member
          rcases List.mem_cons.mp member with rfl | tailMember
          · exact ⟨[], rest, rfl, by simp⟩
          · obtain ⟨unseen, before, after, shape, unmentioned⟩ :=
              mem_fresh_iff.mp tailMember
            refine
              ⟨head :: before, after, by rw [shape, List.cons_append], ?_⟩
            rw [List.map_cons, List.mem_cons]
            rintro (equal | earlier)
            · exact unseen (by simp [equal])
            · exact unmentioned earlier
      · rintro ⟨unseen, before, after, shape, unmentioned⟩
        cases before with
        | nil =>
            simp only [List.nil_append, List.cons.injEq] at shape
            obtain ⟨rfl, rfl⟩ := shape
            rw [fresh, if_neg unseen]
            exact List.mem_cons_self
        | cons first before =>
            simp only [List.cons_append, List.cons.injEq] at shape
            obtain ⟨rfl, rfl⟩ := shape
            rw [List.map_cons, List.mem_cons, not_or] at unmentioned
            by_cases known : key head ∈ seen
            · rw [fresh, if_pos known]
              exact mem_fresh_iff.mpr
                ⟨unseen, before, after, rfl, unmentioned.2⟩
            · rw [fresh, if_neg known]
              refine List.mem_cons_of_mem _ (mem_fresh_iff.mpr ⟨?_,
                before, after, rfl, unmentioned.2⟩)
              simp [unseen, unmentioned.1]

theorem mem_firsts_iff {item : Item} {items : List Item} :
    item ∈ firsts key items ↔
      ∃ before after, items = before ++ item :: after ∧
        key item ∉ before.map key := by
  simp [firsts, mem_fresh_iff]

/-- Everything mentioned has a first mention. -/
theorem exists_mem_firsts
    {item : Item} {items : List Item} (member : item ∈ items) :
    ∃ first ∈ firsts key items, key first = key item := by
  have mentioned : key item ∈ (firsts key items).map key :=
    mem_keys_firsts.mpr (List.mem_map_of_mem member)
  simpa using mentioned

/-- A loop that skips the keys it has seen does its work on the first
mentions only. -/
theorem foldl_skip_seen {State : Type w}
    (seenOf : State → List Key) (work : State → Item → State)
    (seen_work : ∀ state item,
      seenOf (work state item) = seenOf state ++ [key item]) :
    ∀ (items : List Item) (state : State),
      items.foldl
          (fun state item =>
            if key item ∈ seenOf state then state else work state item)
          state =
        (fresh key (seenOf state) items).foldl work state
  | [], _ => rfl
  | item :: rest, state => by
      by_cases known : key item ∈ seenOf state
      · rw [List.foldl_cons, if_pos known, fresh, if_pos known]
        exact foldl_skip_seen seenOf work seen_work rest state
      · rw [List.foldl_cons, if_neg known, fresh, if_neg known,
          List.foldl_cons, ← seen_work]
        exact foldl_skip_seen seenOf work seen_work rest _

/-- Collecting each new key at the end of a list. -/
theorem foldl_collect (keys collected : List Key) :
    keys.foldl
        (fun collected key =>
          if key ∈ collected then collected else collected ++ [key])
        collected =
      collected ++ fresh id collected keys := by
  have skipping :
      keys.foldl
          (fun collected key =>
            if id key ∈ id collected then collected
            else collected ++ [key])
          collected =
        (fresh id (id collected) keys).foldl
          (fun collected key => collected ++ [key]) collected :=
    foldl_skip_seen id _ (fun _ _ => rfl) keys collected
  have appended : ∀ (fresh collected : List Key),
      fresh.foldl (fun collected key => collected ++ [key]) collected =
        collected ++ fresh := by
    intro fresh
    induction fresh with
    | nil => simp
    | cons key rest inductionHypothesis =>
        intro collected
        rw [List.foldl_cons, inductionHypothesis, List.append_assoc,
          List.singleton_append]
  rw [appended] at skipping
  exact skipping

theorem mem_collect {wanted : Key} (keys : List Key) :
    wanted ∈ keys.foldl
        (fun collected key =>
          if key ∈ collected then collected else collected ++ [key])
        [] ↔
      wanted ∈ keys := by
  have listed : wanted ∈ (fresh id [] keys).map id ↔
      wanted ∈ keys.map id ∧ wanted ∉ [] := mem_keys_fresh
  rw [foldl_collect, List.nil_append]
  simpa using listed

theorem nodup_collect (keys : List Key) :
    (keys.foldl
      (fun collected key =>
        if key ∈ collected then collected else collected ++ [key])
      []).Nodup := by
  have distinct : ((fresh id [] keys).map id).Nodup :=
    nodup_keys_fresh [] keys
  rw [foldl_collect, List.nil_append]
  simpa using distinct

end FirstMention
