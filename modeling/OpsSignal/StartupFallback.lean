import OpsSignal.SharedCache
import OpsSignal.SourceKeys

/-!
# Starting after a remote edit

A client that has started once can start again on the copies of its last
good chain, whatever becomes of the remote files: unless they still load,
no longer fit together, and a local file is among them.
-/

namespace OpsSignal

open Checks

open Chain DepthFirst

/-! ## Where a walk stops -/

/-- Failures that neither a fetch, nor a parse, nor a merge can cause: a
person has put something into a file that no chain may have. -/
def Chain.ChainError.introduced : ChainError → Bool
  | .cycle _ _ | .tooDeep _ | .tooManyFiles _ | .unsupported _
  | .badReference _ => true
  | .secrets _ isFatal => isFatal
  | .localFile _ | .remoteFile _ | .unmerged _ _ => false

namespace Chain.Loading

variable {loading : Loading}

/-- A file names another one, whether or not its other entries can be
resolved. -/
def Refers (loading : Loading) (child parent : ConfigSource) : Prop :=
  ∃ built reference, loading.load child = .ok built ∧
    reference ∈ built.layer.extending ∧
    child.join loading.host.urls reference.toList = .ok parent

/-- The file at which a walk stops, below the one it came to. -/
def StopsBelow
    (loading : Loading) (source : ConfigSource) (error : ChainError) :
    Prop :=
  ∃ last, Relation.ReflTransGen loading.Refers source last ∧
    loading.load last = .error error

private theorem stop_of_foldlM
    {recur : Walk → ConfigSource → Except ChainError Walk}
    {source : ConfigSource} {error : ChainError} :
    ∀ (references : List String) (walk : Walk),
      references.foldlM (loading.visitParent recur source) walk =
          .error error →
        error.introduced = true ∨
          ∃ reference ∈ references, ∃ parent inner,
            source.join loading.host.urls reference.toList = .ok parent ∧
              recur inner parent = .error error
  | [], walk, folded => by cases folded
  | reference :: rest, walk, folded => by
      rw [List.foldlM_cons] at folded
      cases visited : loading.visitParent recur source walk reference with
      | error stopped =>
          rw [visited] at folded
          cases folded
          rw [visitParent] at visited
          split at visited
          · cases visited
            exact Or.inl rfl
          · rename_i parent joined
            exact Or.inr ⟨reference, List.mem_cons_self, parent, walk,
              joined, visited⟩
      | ok next =>
          rw [visited] at folded
          rcases stop_of_foldlM rest next folded with
            introduced | ⟨other, member, parent, inner, joined, stopped⟩
          · exact Or.inl introduced
          · exact Or.inr ⟨other, List.mem_cons_of_mem _ member, parent,
              inner, joined, stopped⟩

private theorem stop_of_visitBody
    {recur : Walk → ConfigSource → Except ChainError Walk}
    (stops : ∀ walk source error, recur walk source = .error error →
      error.introduced = true ∨ loading.StopsBelow source error)
    {walk : Walk} {source : ConfigSource} {error : ChainError}
    (visited : loading.visitBody recur walk source = .error error) :
    error.introduced = true ∨ loading.StopsBelow source error := by
  rw [visitBody] at visited
  split at visited
  · cases visited
    exact Or.inl rfl
  · split at visited
    · cases visited
    · split at visited
      · cases visited
        exact Or.inl rfl
      · split at visited
        · cases visited
          exact Or.inl rfl
        · split at visited
          · cases visited
            exact Or.inl rfl
          · split at visited
            · rename_i stopped loaded
              cases visited
              exact Or.inr
                ⟨source, Relation.ReflTransGen.refl, loaded⟩
            · rename_i built loaded
              split at visited
              · rename_i stopped folded
                cases visited
                rcases stop_of_foldlM _ _ folded with introduced |
                  ⟨reference, member, parent, inner, joined, again⟩
                · exact Or.inl introduced
                · refine (stops inner parent _ again).imp_right ?_
                  rintro ⟨last, path, failed⟩
                  exact ⟨last, Relation.ReflTransGen.head
                    ⟨built, reference, loaded, member, joined⟩ path,
                    failed⟩
              · cases visited

theorem stop_of_visitWithin :
    ∀ (room : Nat) (walk : Walk) (source : ConfigSource)
      (error : ChainError),
      loading.visitWithin room walk source = .error error →
        error.introduced = true ∨ loading.StopsBelow source error
  | 0, walk, source, error, visited => by
      rw [visitWithin] at visited
      apply stop_of_visitBody _ visited
      intro inner parent stopped failed
      cases failed
      exact Or.inl rfl
  | room + 1, walk, source, error, visited => by
      rw [visitWithin] at visited
      exact stop_of_visitBody (stop_of_visitWithin room) visited

/-- A walk stops because of what a file has in it, or at a file that
cannot be loaded. -/
theorem stop_of_walk {error : ChainError} :
    ∀ {roots : List ConfigSource},
      loading.walk roots = .error error →
        error.introduced = true ∨
          ∃ root ∈ roots, loading.StopsBelow root error := by
  have ofFold : ∀ (roots : List ConfigSource) (walk : Walk),
      roots.foldlM loading.visit walk = .error error →
        error.introduced = true ∨
          ∃ root ∈ roots, loading.StopsBelow root error := by
    intro roots
    induction roots with
    | nil =>
        intro walk folded
        cases folded
    | cons root rest inductionHypothesis =>
        intro walk folded
        rw [List.foldlM_cons] at folded
        cases visited : loading.visit walk root with
        | error stopped =>
            rw [visited] at folded
            cases folded
            exact (stop_of_visitWithin maxDepth walk root _ visited).imp_right
              fun below => ⟨root, List.mem_cons_self, below⟩
        | ok next =>
            rw [visited] at folded
            refine (inductionHypothesis next folded).imp_right ?_
            rintro ⟨other, member, below⟩
            exact ⟨other, List.mem_cons_of_mem _ member, below⟩
  intro roots walked
  rw [Loading.walk] at walked
  cases folded : roots.foldlM loading.visit {} with
  | error stopped =>
      rw [folded] at walked
      cases walked
      exact ofFold roots {} folded
  | ok final =>
      rw [folded] at walked
      cases walked

/-! ## Files that cannot be loaded -/

theorem secrets_of_build
    {source : ConfigSource} {text : String} {error : ChainError}
    (failed : loading.build source text = .error (.secrets error)) :
    error.fatal = error.introduced := by
  rw [build] at failed
  split at failed
  · cases failed
  · split at failed
    · cases failed
      rfl
    · split at failed
      · cases failed
      · cases failed

theorem secrets_of_readCache
    {opts : LoadOptions} {source : ConfigSource} {error : ChainError}
    (failed : loading.readCache opts source = .error (.secrets error)) :
    error.fatal = error.introduced := by
  rw [readCache] at failed
  split at failed
  · cases failed
  · split at failed
    · cases failed
    · rename_i text _
      cases copied : loading.build source text with
      | ok built =>
          rw [copied] at failed
          cases failed
      | error failure =>
          rw [copied] at failed
          cases failure with
          | text problem => cases failed
          | secrets problem =>
              cases failed
              exact secrets_of_build copied

theorem fatal_of_standIn
    {source : ConfigSource} {problem : SignalError} {error : ChainError}
    (failed : loading.standIn source problem = .error error) :
    error.fatal = error.introduced := by
  rw [standIn] at failed
  split at failed
  · rename_i opts _
    cases isCopy : loading.readCache opts source with
    | ok built =>
        rw [isCopy] at failed
        cases failed
    | error failure =>
        rw [isCopy] at failed
        cases failure with
        | text other =>
            cases failed
            rfl
        | secrets stopped =>
            cases failed
            exact secrets_of_readCache isCopy
  · cases failed
    rfl

theorem fatal_of_loadFresh {source : ConfigSource} {error : ChainError}
    (remote : source.isRemote = true)
    (failed : loading.loadFresh source = .error error) :
    error.fatal = error.introduced := by
  rw [loadFresh] at failed
  cases isRead : loading.readFresh source with
  | ok built =>
      rw [isRead] at failed
      cases failed
  | error failure =>
      rw [isRead] at failed
      cases failure with
      | secrets stopped =>
          cases failed
          rw [readFresh] at isRead
          split at isRead
          · exact secrets_of_build isRead
          · cases isRead
      | text problem =>
          dsimp only at failed
          rw [if_pos remote] at failed
          exact fatal_of_standIn failed

/-- A remote file that cannot be loaded does not stop startup, unless its
text names a secret that cannot exist. -/
theorem fatal_of_load {source : ConfigSource} {error : ChainError}
    (remote : source.isRemote = true)
    (failed : loading.load source = .error error) :
    error.fatal = error.introduced := by
  rw [load] at failed
  split at failed
  · rename_i opts _ _
    cases isCopy : loading.readCache opts source with
    | ok built =>
        rw [isCopy] at failed
        cases failed
    | error failure =>
        rw [isCopy] at failed
        cases failure with
        | text other =>
            cases failed
            rfl
        | secrets stopped =>
            cases failed
            exact secrets_of_readCache isCopy
  · exact fatal_of_loadFresh remote failed

end Chain.Loading

/-! ## The local files of a chain -/

/-- `mapM` gives what the entries give. -/
theorem mem_of_mapM_eq_some {Entry Value : Type}
    {convert : Entry → Option Value} :
    ∀ {entries : List Entry} {values : List Value},
      entries.mapM convert = some values →
        (∀ entry ∈ entries, ∃ value ∈ values, convert entry = some value) ∧
          ∀ value ∈ values, ∃ entry ∈ entries, convert entry = some value
  | [], values, mapped => by
      cases mapped
      simp
  | entry :: rest, values, mapped => by
      simp only [List.mapM_cons, Option.pure_def, Option.bind_eq_bind,
        Option.bind_eq_some_iff, Option.some.injEq] at mapped
      obtain ⟨first, isFirst, others, later, rfl⟩ := mapped
      obtain ⟨forth, back⟩ := mem_of_mapM_eq_some later
      refine ⟨?_, ?_⟩
      · intro wanted member
        rcases List.mem_cons.mp member with rfl | inRest
        · exact ⟨first, List.mem_cons_self, isFirst⟩
        · obtain ⟨value, isValue, given⟩ := forth wanted inRest
          exact ⟨value, List.mem_cons_of_mem _ isValue, given⟩
      · intro value member
        rcases List.mem_cons.mp member with rfl | inOthers
        · exact ⟨entry, List.mem_cons_self, isFirst⟩
        · obtain ⟨wanted, isEntry, given⟩ := back value inOthers
          exact ⟨wanted, List.mem_cons_of_mem _ isEntry, given⟩

theorem named_of_reached
    {loading : Loading} {roots : List ConfigSource} {source : ConfigSource}
    (named : ∀ root ∈ roots, Named loading.host.urls root)
    (reached : Reached loading.parents roots source) :
    Named loading.host.urls source := by
  obtain ⟨root, isRoot, path⟩ := reached
  induction path with
  | refl => exact named root isRoot
  | tail _ names _ =>
      obtain ⟨above, isAbove, member⟩ := names
      obtain ⟨built, _, mapped⟩ := Option.bind_eq_some_iff.mp isAbove
      obtain ⟨reference, _, joined⟩ :=
        (mem_of_mapM_eq_some mapped).2 _ member
      exact Named.joined (eq_ok_of_toOption joined)

/-- Only a local file may name a local file. -/
theorem local_of_join
    {urls : UrlParser} {child parent : ConfigSource}
    {reference : List Char}
    (joined : child.join urls reference = .ok parent)
    (isLocal : parent.isRemote = false) : child.isRemote = false := by
  rw [ConfigSource.join] at joined
  obtain ⟨inner, _, checked⟩ := bind_eq_ok joined
  by_cases refused : child.isRemote = true ∧ ¬ inner.isRemote = true
  · rw [if_pos refused] at checked
    cases checked
  · rw [if_neg refused] at checked
    cases checked
    simpa [isLocal] using refused

section Edits

variable {host : Host} {opts : LoadOptions} {outside : Outside}
  {cache : Cache} {roots : List ConfigSource} {good : Good}

/-- A local file below the roots is a file of the last good chain. -/
theorem mem_of_local
    (named : ∀ root ∈ roots, Named host.urls root)
    (built : good.Built host roots)
    {source : ConfigSource} (namedSource : Named host.urls source)
    (isLocal : source.isRemote = false)
    (known : source.shown ∈ good.files.map keyOf) :
    source ∈ sources good.files := by
  obtain ⟨isHost, chain⟩ := built
  obtain ⟨walked, _⟩ := walk_of_chain chain
  obtain ⟨file, member, same⟩ := List.mem_map.mp known
  have reached := (Loading.flattened_of_walk walked).reached file member
  rw [← isHost] at named namedSource
  have isFile := eq_of_shown_local namedSource
    (named_of_reached named reached) isLocal same.symm
  rw [isFile]
  exact List.mem_map_of_mem member

/-- Local files are found below local files only, which have not
changed. -/
theorem local_of_refers
    {after : Loading} (sameHost : after.host = good.loading.host)
    (unchanged : good.loading.world.Unchanged after.world)
    (named : ∀ root ∈ roots, Named host.urls root)
    (built : good.Built host roots)
    {root source : ConfigSource} (isRoot : root ∈ roots)
    (path : Relation.ReflTransGen after.Refers root source)
    (isLocal : source.isRemote = false) :
    source ∈ sources good.files := by
  have flattened :=
    Loading.flattened_of_walk (walk_of_chain built.2).1
  induction path with
  | refl =>
      exact mem_of_local named built (named root isRoot) isLocal
        (flattened.rooted root isRoot)
  | @tail child parent _ refers inductionHypothesis =>
      obtain ⟨now, reference, loaded, listed, joined⟩ := refers
      have childLocal := local_of_join joined isLocal
      obtain ⟨file, member, rfl⟩ :=
        List.mem_map.mp (inductionHypothesis childLocal)
      rw [load_local_of_unchanged sameHost unchanged childLocal] at loaded
      rw [sameHost] at joined
      obtain ⟨before, later, split⟩ := List.append_of_mem member
      have names : Names good.loading.parents file.1.source parent := by
        obtain ⟨above, isAbove⟩ := flattened.order.entered file.1.source
          (List.mem_map_of_mem member)
        refine ⟨above, isAbove, ?_⟩
        rw [Loading.parents, loaded] at isAbove
        obtain ⟨found, isFound, given⟩ :=
          (mem_of_mapM_eq_some isAbove).1 reference listed
        rw [joined] at given
        cases given
        exact isFound
      have known := flattened.parentsFirst before file later split parent
        names
      apply mem_of_local named built _ isLocal
      · rw [split, List.map_append]
        exact List.mem_append_left _ known
      · rw [← built.1]
        exact Named.joined joined

/-- Where no file introduces what no chain may have, a walk that stops at
startup stops at a remote file. -/
theorem fatal_of_walk {error : ChainError}
    (named : ∀ root ∈ roots, Named host.urls root)
    (built : good.Built host roots)
    (unchanged : good.loading.world.Unchanged outside.first)
    (walked : (startupLoading host opts outside cache).walk roots =
      .error error)
    (notIntroduced : error.introduced = false) :
    error.fatal = false := by
  rcases Loading.stop_of_walk walked with
    introduced | ⟨root, isRoot, last, path, failed⟩
  · rw [notIntroduced] at introduced
    cases introduced
  · by_cases remote : last.isRemote = true
    · rw [Loading.fatal_of_load remote failed]
      exact notIntroduced
    · have isLocal := Bool.not_eq_true _ |>.mp remote
      have sameHost : (startupLoading host opts outside cache).host =
          good.loading.host := built.1.symm
      have member := local_of_refers sameHost unchanged named built isRoot
        path isLocal
      obtain ⟨file, isFile, rfl⟩ := List.mem_map.mp member
      have entry := Loading.file_of_mem_walk (walk_of_chain built.2).1
        isFile
      obtain ⟨now, isNow, _⟩ := Option.map_eq_some_iff.mp entry
      have loads := load_local_of_unchanged sameHost unchanged isLocal
      rw [failed, eq_ok_of_toOption isNow] at loads
      cases loads

/-- The client starts, on the files as they are now or on the last good
chain. -/
def Restarts
    (host : Host) (opts : LoadOptions) (outside : Outside)
    (cache : Cache) (roots : List ConfigSource) (good : Good) : Prop :=
  ∃ loaded, (loadInitial host opts outside cache roots).1 = .ok loaded ∧
    ((∃ files, (startupLoading host opts outside cache).chain roots =
        .ok (loaded.config, files)) ∨
      loaded.config = good.config)

/-- After remote edits a client starts again exactly if it is not so that
the files load and do not merge and one of them is local. -/
theorem startup_restarts_iff
    (host : Host) (opts : LoadOptions) (roots : List ConfigSource)
    (named : ∀ root ∈ roots, Named host.urls root)
    (cacheOn : opts.cacheDir.isSome = true)
    {good : Good} (built : good.Built host roots)
    (supported : Supported host roots)
    {cache : Cache} (cached : Cached host opts cache good.files)
    {outside : Outside}
    (first : good.loading.world.Unchanged outside.first)
    (second : good.loading.world.Unchanged outside.second)
    (notIntroduced : ∀ error,
      (startupLoading host opts outside cache).walk roots =
        .error error → error.introduced = false) :
    Restarts host opts outside cache roots good ↔
      ¬ ∃ files error,
        (startupLoading host opts outside cache).walk roots = .ok files ∧
        merge host files = .error error ∧
        ∃ file ∈ files, file.1.source.isRemote = false := by
  have copies := @chain_of_copies good.loading
    (cacheOnlyLoading host opts outside cache) roots good.files
    good.config opts built.1.symm second cacheOn cached built.2 (Or.inl rfl)
  constructor
  · rintro ⟨loaded, started, _⟩ ⟨files, error, walked, unmerged, isLocal⟩
    have stopped := loadInitial_of_fatal supported
      (chain_of_unmerged walked unmerged)
      ((fatal_of_unmerged unmerged).mpr isLocal)
    rw [started] at stopped
    cases stopped
  · intro fits
    cases startup :
        (startupLoading host opts outside cache).chain roots with
    | ok fresh =>
        obtain ⟨config, files⟩ := fresh
        obtain ⟨checked, isChecked⟩ := mapM_of_supported supported
        refine ⟨⟨config, some (texts files)⟩, ?_, Or.inl ⟨files, startup⟩⟩
        rw [loadInitial, isChecked]
        simp only [builtInitial, startup]
    | error error =>
        have notFatal : error.fatal = false := by
          cases walked :
              (startupLoading host opts outside cache).walk roots with
          | error stopped =>
              have same : stopped = error := by
                rw [Loading.chain, walked] at startup
                exact Except.error.inj startup
              rw [← same]
              exact fatal_of_walk named built first walked
                (notIntroduced stopped walked)
          | ok files =>
              have unmerged : merge host files = .error error := by
                rw [chain_of_walk walked] at startup
                change (merge host files).map _ = _ at startup
                cases merged : merge host files with
                | ok config =>
                    rw [merged] at startup
                    cases startup
                | error other =>
                    rw [merged] at startup
                    cases startup
                    rfl
              rw [← Bool.not_eq_true, fatal_of_unmerged unmerged]
              intro isLocal
              exact fits ⟨files, error, walked, unmerged, isLocal⟩
        exact ⟨_, loadInitial_of_copied cacheOn supported startup notFatal
          copies, Or.inr rfl⟩

end Edits

/-! ## A local team file above a remote default -/

def localTeam : List ConfigSource :=
  [.file "team.yaml".toList]

def firstOutside : Outside :=
  ⟨servedAbove "slack", servedAbove "slack"⟩

/-- The cache after the team has started once. -/
def startedCache : Cache :=
  (loadInitial sharedHost sharedOptions firstOutside (fun _ => none)
    localTeam).2

private theorem good_localTeam :
    ∃ good : Good, good.Built sharedHost localTeam ∧
      Supported sharedHost localTeam ∧
      Cached sharedHost sharedOptions startedCache good.files ∧
      ∀ after, good.loading.world.Unchanged (sharedWorld after) := by
  have computed : (goodInitial sharedHost sharedOptions firstOutside
      (fun _ => none) localTeam).any (fun good =>
        pathsApart sharedHost sharedOptions good.files) = true := by
    decide +kernel
  obtain ⟨good, isGood, apart⟩ := Option.any_eq_true _ _ |>.mp computed
  rcases @loadInitial_cases sharedHost sharedOptions firstOutside
      (fun _ => none) localTeam with
    ⟨other, isOther, built, result⟩ | ⟨nothing, _⟩
  · rw [isGood] at isOther
    cases isOther
    refine ⟨good, built, ?_, ?_, ?_⟩
    · intro root isRoot
      rw [List.mem_singleton.mp isRoot]
      rfl
    · rw [startedCache, result]
      exact cached_writeCaches _ (once_of_built built)
        (apart_of_pathsApart apart)
    · intro after
      have shared := (origin_of_goodInitial isGood).2
      simp only [firstOutside, servedAbove, List.mem_cons,
        List.not_mem_nil, or_false, or_self] at shared
      rw [shared]
      exact unchanged_shared _ after
  · rw [isGood] at nothing
    cases nothing

/-- With nothing remote reachable the team starts again. -/
theorem startup_restarts_iff_unreachable :
    ∃ good : Good, good.Built sharedHost localTeam ∧
      Restarts sharedHost sharedOptions ⟨nothingServed, nothingServed⟩
        startedCache localTeam good := by
  obtain ⟨good, built, supported, cached, unchanged⟩ := good_localTeam
  have named : ∀ root ∈ localTeam, Named sharedHost.urls root := by
    intro root isRoot
    rw [List.mem_singleton.mp isRoot]
    exact Named.parsed (by decide +kernel :
      ConfigSource.parse "team.yaml".toList =
        .ok (.file "team.yaml".toList))
  have merges : ((startupLoading sharedHost sharedOptions
      ⟨nothingServed, nothingServed⟩ startedCache).chain
        localTeam).toOption.isSome = true := by
    decide +kernel
  obtain ⟨fresh, isFresh⟩ := Option.isSome_iff_exists.mp merges
  obtain ⟨walked, merged⟩ := walk_of_chain (eq_ok_of_toOption isFresh)
  refine ⟨good, built, (startup_restarts_iff sharedHost sharedOptions
    localTeam named rfl built supported cached (unchanged [])
    (unchanged []) ?_).mpr ?_⟩
  · intro error stopped
    rw [walked] at stopped
    cases stopped
  · rintro ⟨files, error, again, unmerged, _⟩
    rw [walked] at again
    cases again
    have merges := merged.symm.trans unmerged
    cases merges

/-- After slack is gone from the default it does not. -/
theorem startup_stopped :
    ∃ good : Good, good.Built sharedHost localTeam ∧
      Supported sharedHost localTeam ∧
      Cached sharedHost sharedOptions startedCache good.files ∧
      good.loading.world.Unchanged (servedAbove "plain") ∧
      (∃ files, (startupLoading sharedHost sharedOptions
        ⟨servedAbove "plain", servedAbove "plain"⟩ startedCache).walk
          localTeam = .ok files) ∧
      (∃ error, (loadInitial sharedHost sharedOptions
        ⟨servedAbove "plain", servedAbove "plain"⟩ startedCache
          localTeam).1 = .error error) ∧
      ¬ Restarts sharedHost sharedOptions
        ⟨servedAbove "plain", servedAbove "plain"⟩ startedCache localTeam
        good := by
  obtain ⟨good, built, supported, cached, unchanged⟩ := good_localTeam
  have walks : ((startupLoading sharedHost sharedOptions
      ⟨servedAbove "plain", servedAbove "plain"⟩ startedCache).walk
        localTeam).toOption.isSome = true := by
    decide +kernel
  have fails : (loadInitial sharedHost sharedOptions
      ⟨servedAbove "plain", servedAbove "plain"⟩ startedCache
        localTeam).1.toOption = none := by
    decide +kernel
  obtain ⟨files, isFiles⟩ := Option.isSome_iff_exists.mp walks
  refine ⟨good, built, supported, cached, unchanged _,
    ⟨files, eq_ok_of_toOption isFiles⟩, ?_, ?_⟩
  · cases loaded : (loadInitial sharedHost sharedOptions
        ⟨servedAbove "plain", servedAbove "plain"⟩ startedCache
        localTeam).1 with
    | error error => exact ⟨error, rfl⟩
    | ok started =>
        rw [loaded] at fails
        cases fails
  · rintro ⟨loaded, started, _⟩
    rw [started] at fails
    cases fails

end OpsSignal
