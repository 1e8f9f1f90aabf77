import OpsSignal.Lib.PathWalk
import OpsSignal.SourceUrls

/-!
# Relative object keys

`join_key` walks from the directory of an object along the segments of a
reference.  It cannot leave the bucket, and what it reaches is named by
the object's directory and by names of the reference.
-/

namespace OpsSignal

open PathWalks

/-- What a segment of a reference asks for. -/
def turnOf (segment : List Char) : Turn (List Char) :=
  if segment = [] ∨ segment = ['.'] then .stay
  else if segment = ['.', '.'] then .up
  else .down segment

def turnsOf (reference : List Char) : List (Turn (List Char)) :=
  (splitOn '/' reference).map turnOf

/-- The directory that holds an object. -/
def directoryOf (key : List Char) : List (List Char) :=
  (splitOn '/' key).dropLast

/-- A name, and no more than a name. -/
def IsName (segment : List Char) : Prop :=
  segment ≠ [] ∧ segment ≠ ['.'] ∧ segment ≠ ['.', '.']

theorem isName_of_mem_downs {segments : List (List Char)}
    {name : List Char} (member : name ∈ downs (segments.map turnOf)) :
    name ∈ segments ∧ IsName name := by
  induction segments with
  | nil => cases member
  | cons segment segments inductionHypothesis =>
      rw [List.map_cons] at member
      by_cases stays : segment = [] ∨ segment = ['.']
      · rw [turnOf, if_pos stays, downs] at member
        · obtain ⟨listed, isName⟩ := inductionHypothesis member
          exact ⟨List.mem_cons_of_mem _ listed, isName⟩
        · simp
      · by_cases rises : segment = ['.', '.']
        · rw [turnOf, if_neg stays, if_pos rises, downs] at member
          · obtain ⟨listed, isName⟩ := inductionHypothesis member
            exact ⟨List.mem_cons_of_mem _ listed, isName⟩
          · simp
        · rw [turnOf, if_neg stays, if_neg rises, downs,
            List.mem_cons] at member
          rcases member with rfl | later
          · rw [not_or] at stays
            exact ⟨List.mem_cons_self, stays.1, stays.2, rises⟩
          · obtain ⟨listed, isName⟩ := inductionHypothesis later
            exact ⟨List.mem_cons_of_mem _ listed, isName⟩

namespace ConfigSource

variable (self : ConfigSource) (key reference : List Char)

/-- A reference that goes up from the root of the bucket. -/
def outsideBucket : SignalError :=
  .config (self.shown ++ ": '" ++ String.ofList reference ++
    "' points outside the bucket")

/-- A reference that ends at the root of the bucket. -/
def namesNoFile : SignalError :=
  .config (self.shown ++ ": '" ++ String.ofList reference ++
    "' does not name a file")

theorem outsideBucket_ne_namesNoFile :
    self.outsideBucket reference ≠ self.namesNoFile reference := by
  intro same
  have texts := congrArg String.toList (SignalError.config.inj same)
  simp only [String.toList_append] at texts
  exact absurd (List.append_cancel_left texts) (by decide)

/-- The stack of segments is a walk. -/
theorem joinSegments_eq (segments parts : List (List Char)) :
    segments.foldlM (self.joinSegment reference) parts =
      (walk parts (segments.map turnOf)).elim
        (.error (self.outsideBucket reference)) .ok := by
  induction segments generalizing parts with
  | nil =>
      rw [List.map_nil, walk]
      rfl
  | cons segment segments inductionHypothesis =>
      rw [List.foldlM_cons, List.map_cons, joinSegment, turnOf]
      by_cases stays : segment = [] ∨ segment = ['.']
      · rw [if_pos stays, if_pos stays, walk]
        exact inductionHypothesis parts
      · rw [if_neg stays, if_neg stays]
        by_cases rises : segment = ['.', '.']
        · rw [if_pos rises, if_pos rises]
          rcases List.eq_nil_or_concat parts with rfl | ⟨before, last, rfl⟩
          · rfl
          · rw [List.concat_eq_append, if_neg (by simp), walk_up,
              List.dropLast_concat]
            exact inductionHypothesis before
        · rw [if_neg rises, if_neg rises, walk]
          exact inductionHypothesis (parts ++ [segment])

theorem joinKey_eq :
    self.joinKey key reference =
      (walk (directoryOf key) (turnsOf reference)).elim
        (.error (self.outsideBucket reference))
        (fun path =>
          if path = [] then .error (self.namesNoFile reference)
          else .ok (List.intercalate ['/'] path)) := by
  rw [joinKey, joinSegments_eq, directoryOf, turnsOf]
  cases walk (splitOn '/' key).dropLast
      ((splitOn '/' reference).map turnOf) with
  | none => rfl
  | some path => rfl

variable {self key reference}

theorem joinKey_eq_ok_iff {joined : List Char} :
    self.joinKey key reference = .ok joined ↔
      ∃ path, Leads (directoryOf key) (turnsOf reference) path ∧
        path ≠ [] ∧ joined = List.intercalate ['/'] path := by
  rw [joinKey_eq]
  cases walked : walk (directoryOf key) (turnsOf reference) with
  | none =>
      refine iff_of_false nofun ?_
      rintro ⟨path, leads, _⟩
      rw [walk_of_leads leads] at walked
      cases walked
  | some reached =>
      have leads := leads_of_walk walked
      have only : ∀ path,
          Leads (directoryOf key) (turnsOf reference) path →
            path = reached := by
        intro path other
        exact Option.some.inj ((walk_of_leads other).symm.trans walked)
      rw [Option.elim_some]
      by_cases empty : reached = []
      · rw [if_pos empty]
        refine iff_of_false nofun ?_
        rintro ⟨path, other, nonempty, _⟩
        exact nonempty ((only path other).trans empty)
      · rw [if_neg empty, Except.ok.injEq]
        constructor
        · intro same
          exact ⟨reached, leads, empty, same.symm⟩
        · rintro ⟨path, other, _, same⟩
          rw [same, only path other]

theorem joinKey_leaves_iff :
    self.joinKey key reference = .error (self.outsideBucket reference) ↔
      Leaves (directoryOf key) (turnsOf reference) := by
  rw [joinKey_eq, ← walk_eq_none_iff]
  cases walk (directoryOf key) (turnsOf reference) with
  | none => exact iff_of_true rfl rfl
  | some reached =>
      rw [Option.elim_some]
      refine iff_of_false ?_ nofun
      split
      · intro same
        exact self.outsideBucket_ne_namesNoFile reference
          (Except.error.inj same).symm
      · nofun

theorem joinKey_ends_iff :
    self.joinKey key reference = .error (self.namesNoFile reference) ↔
      Leads (directoryOf key) (turnsOf reference) [] := by
  rw [joinKey_eq, ← walk_eq_some_iff]
  cases walk (directoryOf key) (turnsOf reference) with
  | none =>
      rw [Option.elim_none]
      refine iff_of_false ?_ nofun
      intro same
      exact self.outsideBucket_ne_namesNoFile reference
        (Except.error.inj same)
  | some reached =>
      rw [Option.elim_some, Option.some.injEq]
      by_cases empty : reached = []
      · exact iff_of_true (if_pos empty) empty
      · rw [if_neg empty]
        exact iff_of_false nofun empty

/-- There is no other error. -/
theorem joinKey_error_iff :
    (∃ error, self.joinKey key reference = .error error) ↔
      Leaves (directoryOf key) (turnsOf reference) ∨
        Leads (directoryOf key) (turnsOf reference) [] := by
  rw [← joinKey_leaves_iff, ← joinKey_ends_iff]
  constructor
  · rintro ⟨error, failed⟩
    rw [failed]
    rw [joinKey_eq] at failed
    cases walked : walk (directoryOf key) (turnsOf reference) with
    | none =>
        rw [walked] at failed
        exact Or.inl failed.symm
    | some reached =>
        rw [walked, Option.elim_some] at failed
        split at failed
        · exact Or.inr failed.symm
        · cases failed
  · rintro (leaves | ends)
    · exact ⟨_, leaves⟩
    · exact ⟨_, ends⟩

theorem slash_not_mem_path {path : List (List Char)}
    (leads : Leads (directoryOf key) (turnsOf reference) path) :
    ∀ segment ∈ path, '/' ∉ segment := by
  obtain ⟨kept, names, rfl, among⟩ := leads.form
  intro segment member
  rcases List.mem_append.mp member with old | new
  · exact not_mem_splitOn '/' key segment
      (List.dropLast_subset _ (List.take_subset _ _ old))
  · exact not_mem_splitOn '/' reference segment
      (isName_of_mem_downs (among.subset new)).1

/-- The segments of the key that a reference reaches. -/
theorem segments_of_joinKey {joined : List Char}
    (join : self.joinKey key reference = .ok joined) :
    ∃ kept names,
      splitOn '/' joined = (directoryOf key).take kept ++ names ∧
        ∀ name ∈ names, name ∈ splitOn '/' reference ∧ IsName name := by
  obtain ⟨path, leads, nonempty, rfl⟩ := joinKey_eq_ok_iff.mp join
  obtain ⟨first, rest, rfl⟩ := List.exists_cons_of_ne_nil nonempty
  rw [splitOn_intercalate (slash_not_mem_path leads)]
  obtain ⟨kept, names, isPath, among⟩ := leads.form
  refine ⟨kept, names, isPath, ?_⟩
  intro name member
  exact isName_of_mem_downs (among.subset member)

end ConfigSource

/-- A relative reference, which is resolved against the file that holds
it. -/
def IsRelative (reference : List Char) : Prop :=
  ¬ (containsText "://".toList reference = true ∨
    reference.head? = some '/')

/-- Joining a relative reference replaces the key of the object. -/
def StaysWith
    (within : List Char → ConfigSource) (key : List Char) : Prop :=
  ∀ (urls : UrlParser) (reference : List Char),
    IsRelative (trim reference) →
      (within key).join urls reference =
        ((within key).joinKey key (trim reference)).map within

theorem staysWith_of_joinRelative
    {within : List Char → ConfigSource} {key : List Char}
    (remote : ∀ key, (within key).isRemote = true)
    (relative : ∀ urls reference,
      (within key).joinRelative urls reference =
        ((within key).joinKey key reference).map within) :
    StaysWith within key := by
  intro urls reference isRelative
  rw [ConfigSource.join, ConfigSource.resolve, if_neg isRelative, relative]
  cases (within key).joinKey key (trim reference) with
  | error message => rfl
  | ok joined =>
      change (if _ ∧ _ then _ else _) = _
      rw [if_neg]
      · rfl
      · intro local_
        exact local_.2 (remote joined)

/-- `join_key` walks from the directory of the key: it fails where the
reference goes up from the root of the bucket or ends there, and otherwise
gives the key that the walk reaches.  Of the reference only names are left
in it, and a relative entry keeps its bucket or container. -/
theorem joinKey_resolves
    (self : ConfigSource) (key reference : List Char) :
    (∀ joined, self.joinKey key reference = .ok joined ↔
      ∃ path, Leads (directoryOf key) (turnsOf reference) path ∧
        path ≠ [] ∧ joined = List.intercalate ['/'] path) ∧
      (self.joinKey key reference =
          .error (self.outsideBucket reference) ↔
        Leaves (directoryOf key) (turnsOf reference)) ∧
      (self.joinKey key reference = .error (self.namesNoFile reference) ↔
        Leads (directoryOf key) (turnsOf reference) []) ∧
      ((∃ error, self.joinKey key reference = .error error) ↔
        Leaves (directoryOf key) (turnsOf reference) ∨
          Leads (directoryOf key) (turnsOf reference) []) ∧
      (∀ joined, self.joinKey key reference = .ok joined →
        (∃ kept names,
          splitOn '/' joined = (directoryOf key).take kept ++ names ∧
            ∀ name ∈ names,
              name ∈ splitOn '/' reference ∧ IsName name) ∧
        ((∀ segment ∈ splitOn '/' key, segment ≠ []) →
          joined ≠ [] ∧ ∀ segment ∈ splitOn '/' joined, segment ≠ [])) ∧
      (∀ bucket, StaysWith (.s3 bucket) key) ∧
      (∀ bucket, StaysWith (.gcs bucket) key) ∧
      ∀ container, StaysWith (.azure container) key := by
  refine ⟨fun joined => ConfigSource.joinKey_eq_ok_iff,
    ConfigSource.joinKey_leaves_iff, ConfigSource.joinKey_ends_iff,
    ConfigSource.joinKey_error_iff, ?_, ?_, ?_, ?_⟩
  · intro joined join
    refine ⟨ConfigSource.segments_of_joinKey join, ?_⟩
    intro full
    have segments := joinKey_segments join full
    refine ⟨?_, segments⟩
    rintro rfl
    exact segments [] List.mem_cons_self rfl
  · intro bucket
    exact staysWith_of_joinRelative (fun _ => rfl) fun _ _ => rfl
  · intro bucket
    exact staysWith_of_joinRelative (fun _ => rfl) fun _ _ => rfl
  · intro container
    exact staysWith_of_joinRelative (fun _ => rfl) fun _ _ => rfl

/-- An entry beside a file, and one above its directory. -/
example :
    (ConfigSource.s3 "b".toList "teams/a.yaml".toList).joinKey
        "teams/a.yaml".toList "../core/./base.yaml".toList =
      .ok "core/base.yaml".toList := by
  decide +kernel

end OpsSignal
