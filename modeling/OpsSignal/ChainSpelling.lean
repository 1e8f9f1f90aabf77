import OpsSignal.ChainOrder
import OpsSignal.SourceUrls

/-!
# One file, several spellings

A walk tells files apart by how they are written.  `normalize` gives every
path that a relative entry leads to its one spelling.  A root and an
absolute entry are taken as they are written, so that a file can be in a
chain twice when one of these is not normalized.
-/

namespace OpsSignal

open Checks

/-! ## Normalized paths -/

/-- A component as `components` makes them. -/
def Component.Proper (part : Component) : Prop :=
  ∀ name, part = .normal name →
    '/' ∉ name ∧ name ≠ [] ∧ name ≠ ['.'] ∧ name ≠ ['.', '.']

theorem proper_components (path : List Char) :
    ∀ part ∈ components path, part.Proper := by
  intro part member name isNormal
  subst isNormal
  rw [components] at member
  rcases List.mem_append.mp member with leading | piece
  · split at leading
    · cases List.mem_singleton.mp leading
    · split at leading
      · cases List.mem_singleton.mp leading
      · cases leading
  · obtain ⟨text, isText, isPart⟩ := List.mem_filterMap.mp piece
    have noSlash := not_mem_splitOn '/' path text isText
    rw [componentOf] at isPart
    split at isPart
    · cases isPart
    · rename_i full
      split at isPart
      · cases isPart
      · rename_i notParent
        cases isPart
        rw [not_or] at full
        exact ⟨noSlash, full.1, full.2, notParent⟩

/-- A list of components that `normalize` leaves as it is: nothing to drop
and nothing to fold. -/
structure Settled (parts : List Component) : Prop where
  noCurrent : .curDir ∉ parts
  noFold : List.IsChain (fun left right =>
    ¬(right = .parentDir ∧ ∃ name, left = .normal name)) parts

theorem Settled.nil : Settled [] :=
  ⟨List.not_mem_nil, List.isChain_nil⟩

theorem Settled.dropLast {parts : List Component}
    (settled : Settled parts) : Settled parts.dropLast :=
  ⟨fun member => settled.noCurrent (List.dropLast_subset _ member),
    settled.noFold.dropLast⟩

/-- A turn of `normalize` either drops or folds, or adds a part that fits. -/
theorem Settled.push {out : List Component} (settled : Settled out)
    (part : Component) : Settled (pushComponent out part) := by
  unfold pushComponent
  split
  · exact settled
  · exact settled.dropLast
  · rename_i notCurrent notFold
    refine ⟨?_, ?_⟩
    · rw [List.mem_append, not_or]
      refine ⟨settled.noCurrent, ?_⟩
      rw [List.mem_singleton]
      rintro rfl
      exact notCurrent rfl
    · rw [List.isChain_append]
      refine ⟨settled.noFold, List.isChain_singleton _, ?_⟩
      rintro left isLast right isFirst ⟨isParent, name, isNormal⟩
      cases isFirst
      subst isNormal
      exact notFold name isParent isLast

theorem Settled.pushes {parts out : List Component}
    (settled : Settled out) : Settled (parts.foldl pushComponent out) := by
  induction parts generalizing out with
  | nil => exact settled
  | cons part parts inductionHypothesis =>
      exact inductionHypothesis (settled.push part)

/-- Folding a settled list again changes nothing. -/
theorem Settled.foldl {parts : List Component} (settled : Settled parts) :
    parts.foldl pushComponent [] = parts := by
  induction parts using List.reverseRecOn with
  | nil => rfl
  | append_singleton before part inductionHypothesis =>
      have earlier := settled.dropLast
      rw [List.dropLast_concat] at earlier
      rw [List.foldl_append, inductionHypothesis earlier, List.foldl_cons,
        List.foldl_nil]
      unfold pushComponent
      split
      · exact absurd (by simp) settled.noCurrent
      · rename_i name isLast
        have fits := (List.isChain_append.mp settled.noFold).2.2 _ isLast
          .parentDir rfl
        exact absurd ⟨rfl, name, rfl⟩ fits
      · rfl

theorem mem_of_mem_pushes {parts out : List Component} {part : Component}
    (member : part ∈ parts.foldl pushComponent out) :
    part ∈ out ∨ part ∈ parts := by
  induction parts generalizing out with
  | nil => exact Or.inl member
  | cons first parts inductionHypothesis =>
      rcases inductionHypothesis member with pushed | later
      · unfold pushComponent at pushed
        split at pushed
        · exact Or.inl pushed
        · exact Or.inl (List.dropLast_subset _ pushed)
        · rcases List.mem_append.mp pushed with before | isFirst
          · exact Or.inl before
          · rw [List.mem_singleton.mp isFirst]
            exact Or.inr List.mem_cons_self
      · exact Or.inr (List.mem_cons_of_mem _ later)

/-- A part of a settled list is read back from its text. -/
theorem componentOf_text {part : Component} (plain : part.Plain)
    (proper : part.Proper) (notCurrent : part ≠ .curDir) :
    componentOf part.text = some part := by
  cases part with
  | rootDir => exact absurd rfl plain.2
  | curDir => exact absurd rfl notCurrent
  | parentDir => rfl
  | normal name =>
      obtain ⟨_, full, notDot, notDots⟩ := proper name rfl
      simp [componentOf, Component.text, full, notDot, notDots]

theorem filterMap_texts {parts : List Component}
    (plain : ∀ part ∈ parts, part.Plain)
    (proper : ∀ part ∈ parts, part.Proper)
    (noCurrent : .curDir ∉ parts) :
    (parts.map Component.text).filterMap componentOf = parts := by
  induction parts with
  | nil => rfl
  | cons part parts inductionHypothesis =>
      rw [List.forall_mem_cons] at plain proper
      rw [List.mem_cons, not_or] at noCurrent
      rw [List.map_cons, List.filterMap_cons_some
        (componentOf_text plain.1 proper.1 (Ne.symm noCurrent.1)),
        inductionHypothesis plain.2 proper.2 noCurrent.2]

/-- The text of a settled path has the components it was made of. -/
theorem components_pathText {parts : List Component}
    (rooted : Rooted parts) (proper : ∀ part ∈ parts, part.Proper)
    (noCurrent : .curDir ∉ parts) : components (pathText parts) = parts := by
  rcases rooted with rfl | ⟨first, rest, rfl, head, tail⟩
  · rfl
  · rw [List.forall_mem_cons] at proper
    rw [List.mem_cons, not_or] at noCurrent
    have restRead := filterMap_texts tail proper.2 noCurrent.2
    have fresh : '/' ∉ first.text → ∀ piece ∈
        first.text :: rest.map Component.text, '/' ∉ piece := by
      intro firstFresh piece member
      rcases List.mem_cons.mp member with rfl | later
      · exact firstFresh
      · obtain ⟨part, isPart, rfl⟩ := List.mem_map.mp later
        exact (tail part isPart).1
    rcases head with rfl | plain
    · cases rest with
      | nil => rfl
      | cons second others =>
          have pieces := splitOn_intercalate (fresh (by decide))
          have whole : pathText (.rootDir :: second :: others) =
              List.intercalate ['/'] (Component.rootDir.text ::
                (second :: others).map Component.text) := by
            simp [pathText]
          have starts : (List.intercalate ['/'] (Component.rootDir.text ::
              (second :: others).map Component.text)).head? =
                some '/' := by
            simp [Component.text, List.intercalate_cons_cons]
          rw [whole, components, pieces, if_pos starts,
            List.filterMap_cons_none (by rfl), restRead]
          rfl
    · have pieces := splitOn_intercalate (fresh plain.1)
      have notRoot : first ≠ .rootDir := by
        rintro rfl
        exact plain.2 rfl
      have whole : pathText (first :: rest) =
          List.intercalate ['/']
            (first.text :: rest.map Component.text) := by
        simp [pathText, notRoot]
      obtain ⟨c, more, isText⟩ := List.exists_cons_of_ne_nil plain.2
      have starts : (List.intercalate ['/']
          (first.text :: rest.map Component.text)).head? ≠ some '/' := by
        rw [intercalate_append_cons, isText]
        intro isSlash
        apply plain.1
        rw [isText, ← Option.some.inj isSlash]
        exact List.mem_cons_self
      have firstRead := componentOf_text plain proper.1
        (Ne.symm noCurrent.1)
      have notDot : (first.text :: rest.map Component.text).head? ≠
          some ['.'] := by
        intro isDot
        rw [Option.some.inj isDot] at firstRead
        cases firstRead
      rw [whole, components, pieces, if_neg starts, if_neg notDot,
        List.filterMap_cons_some firstRead, restRead]
      rfl

/-! ## One spelling -/

/-- The one spelling of a path: without `.` and with `dir/..` folded. -/
def lexical (path : List Char) : List Char :=
  normalize (components path)

/-- What is normalized once stays as it is. -/
theorem lexical_normalize {parts : List Component}
    (rooted : Rooted parts) (proper : ∀ part ∈ parts, part.Proper) :
    lexical (normalize parts) = normalize parts := by
  have settled := @Settled.pushes parts [] Settled.nil
  have folded : ∀ part ∈ parts.foldl pushComponent [], part.Proper := by
    intro part member
    rcases mem_of_mem_pushes member with none | earlier
    · cases none
    · exact proper part earlier
  rw [lexical, normalize, normalize,
    components_pathText rooted.fold folded settled.noCurrent, settled.foldl]

/-- A relative entry of a local file leads to a normalized path. -/
theorem lexical_joined (path : List Char) {reference : List Char}
    (relative : reference.head? ≠ some '/') :
    lexical (normalize (parentComponents path ++ components reference)) =
      normalize (parentComponents path ++ components reference) := by
  have parent : ∀ part ∈ parentComponents path, part ∈ components path := by
    intro part member
    rw [parentComponents] at member
    split at member
    · cases member
    · exact List.dropLast_subset _ member
  apply lexical_normalize
  · apply Rooted.append _ (plain_components relative)
    rw [parentComponents]
    split
    · exact Or.inl rfl
    · exact (rooted_components path).dropLast
  · intro part member
    rcases List.mem_append.mp member with above | below
    · exact proper_components path part (parent part above)
    · exact proper_components reference part below

namespace Chain

open DepthFirst

/-! ## Where the paths of a chain come from -/

/-- The paths of the local files of a chain, in order. -/
def localPaths (files : List File) : List (List Char) :=
  (sources files).filterMap fun source =>
    match source with
    | .file path => some path
    | _ => none

/-- No two local files of a chain are one file. -/
def LoadedOnce (files : List File) : Prop :=
  ((localPaths files).map lexical).Nodup

instance decidableLoadedOnce (files : List File) :
    Decidable (LoadedOnce files) :=
  inferInstanceAs (Decidable ((localPaths files).map lexical).Nodup)

theorem mem_localPaths {files : List File} {path : List Char} :
    path ∈ localPaths files ↔ .file path ∈ sources files := by
  rw [localPaths, List.mem_filterMap]
  constructor
  · rintro ⟨source, member, isPath⟩
    cases source with
    | file other =>
        cases isPath
        exact member
    | _ => cases isPath
  · exact fun member => ⟨.file path, member, rfl⟩

namespace Loading

variable {loading : Loading} {roots : List ConfigSource}

/-- Roots as `parse` makes them. -/
def Parsed (roots : List ConfigSource) : Prop :=
  ∀ root ∈ roots, ∃ raw, ConfigSource.parse raw = .ok root

/-- A path that is taken as someone wrote it: a root, or an absolute entry
of a file that the roots reach. -/
def AsWritten (loading : Loading) (roots : List ConfigSource)
    (path : List Char) : Prop :=
  .file path ∈ roots ∨
    path.head? = some '/' ∧ ∃ source built reference,
      Reached loading.parents roots source ∧
        loading.load source = .ok built ∧
          reference ∈ built.layer.extending ∧
            trim reference.toList = path

/-- A path that is written otherwise than normalized is the only spelling
of its file that the roots reach. -/
def SpelledOnce (loading : Loading) (roots : List ConfigSource) : Prop :=
  ∀ path other, Reached loading.parents roots (.file path) →
    loading.AsWritten roots path → lexical path ≠ path →
      Reached loading.parents roots (.file other) →
        lexical other = lexical path → other = path

theorem join_of_names {child parent : ConfigSource}
    (names : Names loading.parents child parent) :
    ∃ built reference, loading.load child = .ok built ∧
      reference ∈ built.layer.extending ∧
        child.join loading.host.urls reference.toList = .ok parent := by
  obtain ⟨above, isAbove, member⟩ := names
  obtain ⟨built, isBuilt, mapped⟩ := Option.bind_eq_some_iff.mp isAbove
  have wrote : ∀ {references : List String} {others : List ConfigSource},
      references.mapM (fun reference =>
        (child.join loading.host.urls reference.toList).toOption) =
          some others →
        parent ∈ others → ∃ reference ∈ references,
          child.join loading.host.urls reference.toList = .ok parent := by
    intro references
    induction references with
    | nil =>
        intro others isOthers inOthers
        cases isOthers
        cases inOthers
    | cons reference references inductionHypothesis =>
        intro others isOthers inOthers
        rw [List.mapM_cons] at isOthers
        obtain ⟨first, isFirst, isOthers⟩ :=
          Option.bind_eq_some_iff.mp isOthers
        obtain ⟨rest, isRest, isOthers⟩ :=
          Option.bind_eq_some_iff.mp isOthers
        cases isOthers
        rcases List.mem_cons.mp inOthers with rfl | later
        · exact ⟨reference, List.mem_cons_self, eq_ok_of_toOption isFirst⟩
        · obtain ⟨found, inRest, joined⟩ := inductionHypothesis isRest later
          exact ⟨found, List.mem_cons_of_mem _ inRest, joined⟩
  obtain ⟨reference, listed, joined⟩ := wrote mapped member
  exact ⟨built, reference, eq_ok_of_toOption isBuilt, listed, joined⟩

theorem named_of_reached (parsed : Parsed roots) {source : ConfigSource}
    (reached : Reached loading.parents roots source) :
    Named loading.host.urls source := by
  obtain ⟨root, isRoot, path⟩ := reached
  cases path with
  | refl =>
      obtain ⟨raw, isParsed⟩ := parsed source isRoot
      exact Named.parsed isParsed
  | tail _ names =>
      obtain ⟨_, _, _, _, joined⟩ := join_of_names names
      exact Named.joined joined

/-- What names a local file is a local file. -/
theorem local_of_names {child parent : ConfigSource}
    (names : Names loading.parents child parent)
    (isLocal : parent.isRemote = false) : child.isRemote = false := by
  obtain ⟨_, _, _, _, joined⟩ := join_of_names names
  obtain ⟨inner, found, checked⟩ := bind_eq_ok joined
  simp only [configError] at checked
  split at checked
  · cases checked
  · rename_i allowed
    cases checked
    rw [isLocal] at allowed
    simpa using allowed

/-- A local file is in the chain as it is written. -/
theorem local_of_walk {files : List File} (parsed : Parsed roots)
    (walked : loading.walk roots = .ok files) {source : ConfigSource}
    (reached : Reached loading.parents roots source)
    (isLocal : source.isRemote = false) : source ∈ sources files := by
  have flattened := flattened_of_walk walked
  have of_key : ∀ wanted, Reached loading.parents roots wanted →
      wanted.isRemote = false → wanted.shown ∈ files.map keyOf →
        wanted ∈ sources files := by
    intro wanted reach isLocal known
    obtain ⟨file, member, same⟩ := List.mem_map.mp known
    have found := flattened.reached file member
    rw [eq_of_shown_local (named_of_reached parsed reach)
      (named_of_reached parsed found) isLocal same.symm]
    exact List.mem_map_of_mem member
  obtain ⟨root, isRoot, path⟩ := reached
  induction path with
  | refl =>
      exact of_key root ⟨root, isRoot, Relation.ReflTransGen.refl⟩ isLocal
        (flattened.rooted root isRoot)
  | @tail middle last path names inductionHypothesis =>
      have inFiles := inductionHypothesis (local_of_names names isLocal)
      obtain ⟨file, member, isMiddle⟩ := List.mem_map.mp inFiles
      obtain ⟨before, after, split⟩ := List.append_of_mem member
      have known := flattened.parentsFirst before file after split last
        (isMiddle ▸ names)
      apply of_key last ⟨root, isRoot, path.tail names⟩ isLocal
      rw [split, List.map_append]
      exact List.mem_append_left _ known

/-- A path that is reached is normalized or taken as it was written. -/
theorem written_or_lexical {path : List Char}
    (reached : Reached loading.parents roots (.file path)) :
    loading.AsWritten roots path ∨ lexical path = path := by
  obtain ⟨root, isRoot, route⟩ := reached
  cases route with
  | refl => exact Or.inl (Or.inl isRoot)
  | @tail middle _ route names =>
      obtain ⟨built, reference, isBuilt, listed, joined⟩ :=
        join_of_names names
      have isLocal := local_of_names names rfl
      obtain ⟨inner, found, checked⟩ := bind_eq_ok joined
      simp only [configError] at checked
      split at checked
      · cases checked
      · cases checked
        rw [ConfigSource.resolve] at found
        split at found
        · rename_i absolute
          left
          have isText : path = trim reference.toList := by
            rcases read_of_parse found with file | http | ⟨cloud, _⟩
            · rw [trim_trim] at file
              exact ConfigSource.file.inj file
            · cases http
            · cases cloud
          have noScheme : containsText "://".toList path = false := by
            rcases parse_cases found with
              ⟨other, same, plain⟩ | ⟨url, http, _⟩ | ⟨remote, _⟩
            · rw [ConfigSource.file.inj same]
              exact plain
            · cases http
            · cases remote
          rw [← isText, noScheme] at absolute
          rcases absolute with scheme | rooted
          · cases scheme
          · exact Or.inr ⟨rooted, middle, built, reference,
              ⟨root, isRoot, route⟩, isBuilt, listed, isText.symm⟩
        · rename_i relative
          rw [not_or] at relative
          right
          cases middle with
          | file parent =>
              rw [← ConfigSource.file.inj (Except.ok.inj found)]
              exact lexical_joined parent relative.2
          | _ => cases isLocal

theorem nodup_localPaths {files : List File}
    (walked : loading.walk roots = .ok files) :
    (localPaths files).Nodup := by
  have keys := (flattened_of_walk walked).once
  rw [keys_eq] at keys
  apply keys.of_map.filterMap
  intro left right path isLeft isRight
  cases left with
  | file other =>
      cases right with
      | file another =>
          cases isLeft
          cases isRight
          rfl
      | _ => cases isRight
  | _ => cases isLeft

theorem reached_of_localPaths {files : List File} {path : List Char}
    (walked : loading.walk roots = .ok files)
    (member : path ∈ localPaths files) :
    Reached loading.parents roots (.file path) := by
  obtain ⟨file, isFile, same⟩ := List.mem_map.mp (mem_localPaths.mp member)
  rw [← same]
  exact (flattened_of_walk walked).reached file isFile

/-- A walk that succeeds loads every local file once just when no path
that someone wrote otherwise than normalized is another spelling of a file
it reaches. -/
theorem loaded_once_iff {files : List File} (parsed : Parsed roots)
    (walked : loading.walk roots = .ok files) :
    LoadedOnce files ↔ loading.SpelledOnce roots := by
  have different := nodup_localPaths walked
  constructor
  · intro once path other reached _ _ reachedOther same
    have isListed := mem_localPaths.mpr
      (local_of_walk parsed walked reached rfl)
    have otherListed := mem_localPaths.mpr
      (local_of_walk parsed walked reachedOther rfl)
    exact List.inj_on_of_nodup_map once otherListed isListed same
  · intro spelled
    apply different.map_on
    intro left inLeft right inRight same
    have reachedLeft := reached_of_localPaths walked inLeft
    have reachedRight := reached_of_localPaths walked inRight
    by_cases leftNormal : lexical left = left
    · by_cases rightNormal : lexical right = right
      · rw [← leftNormal, ← rightNormal, same]
      · have wrote := (written_or_lexical reachedRight).resolve_right
          rightNormal
        exact spelled right left reachedRight wrote rightNormal reachedLeft
          same
    · have wrote := (written_or_lexical reachedLeft).resolve_right
        leftNormal
      exact (spelled left right reachedLeft wrote leftNormal reachedRight
        same.symm).symm

end Loading

/-- The teams write every path normalized. -/
theorem loaded_once_teams :
    ∃ files, (localLoading teamFiles).walk teamRoots = .ok files ∧
      LoadedOnce files ∧ (localLoading teamFiles).SpelledOnce teamRoots := by
  have computed : ((localLoading teamFiles).walk teamRoots).toOption.any
      (fun files => decide (LoadedOnce files)) = true := by
    decide +kernel
  have parsed : Loading.Parsed teamRoots := by
    intro root isRoot
    rcases List.mem_cons.mp isRoot with rfl | later
    · exact ⟨"teams/a.yaml".toList, by decide +kernel⟩
    · rw [List.mem_singleton.mp later]
      exact ⟨"teams/b.yaml".toList, by decide +kernel⟩
  obtain ⟨files, isFiles, once⟩ := Option.any_eq_true _ _ |>.mp computed
  have walked := eq_ok_of_toOption isFiles
  have loadedOnce : LoadedOnce files := of_decide_eq_true once
  exact ⟨files, walked, loadedOnce,
    (Loading.loaded_once_iff parsed walked).mp loadedOnce⟩

/-- A directory with one file, however it is spelled. -/
def oneFileLoading : Loading where
  host := layeredHost
  world :=
    { fetch source :=
        if lexical source.display = "a.yaml".toList then .ok "routes: []"
        else .error (.config (source.shown ++ ": cannot read"))
      resolve _ := .ok []
      fromYaml _ _ := .ok {} }
  cache _ := none
  mode := .reload

/-- `SIGNAL_CONFIG=./a.yaml,a.yaml`. -/
theorem loaded_twice :
    ∃ roots files, ConfigSource.parseList "./a.yaml,a.yaml".toList =
        .ok roots ∧
      oneFileLoading.walk roots = .ok files ∧ ¬ LoadedOnce files := by
  have parsed : ConfigSource.parseList "./a.yaml,a.yaml".toList =
      .ok [localFile "./a.yaml", localFile "a.yaml"] := by
    decide +kernel
  have computed : (oneFileLoading.walk
      [localFile "./a.yaml", localFile "a.yaml"]).toOption.any
        (fun files => decide (¬ LoadedOnce files)) = true := by
    decide +kernel
  obtain ⟨files, isFiles, twice⟩ := Option.any_eq_true _ _ |>.mp computed
  exact ⟨_, files, parsed, eq_ok_of_toOption isFiles,
    of_decide_eq_true twice⟩

end Chain

end OpsSignal
