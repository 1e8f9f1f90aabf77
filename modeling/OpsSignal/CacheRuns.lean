import OpsSignal.ChainReplay
import OpsSignal.Lib.LabelledRuns

/-!
# Clients that share a cache directory

Clients start and poll one after the other, each from its own roots, with
one cache directory.  Beside the cache and the reloaders, the state
remembers for each list of roots the last chain that was walked and
merged.  The cache holds the copies of that chain until a chain of other
roots writes over one of them.
-/

namespace OpsSignal

open LabelledRuns

namespace Chain

/-! ## Writing copies -/

/-- Different files of the chain have different copies. -/
def PathsApart (host : Host) (opts : LoadOptions) (files : List File) :
    Prop :=
  ∀ left ∈ files, ∀ right ∈ files, ∀ path,
    opts.cachePath host left.1.source = some path →
      opts.cachePath host right.1.source = some path →
        keyOf left = keyOf right

section Copies

variable {host : Host} {opts : LoadOptions} {path text : String}

/-- A copy keeps its text while every file written to its path has that
text. -/
theorem writeCaches_keeps :
    ∀ (files : List File) (cache : Cache), cache path = some text →
      (∀ file ∈ files, opts.cachePath host file.1.source = some path →
        file.1.text = text) →
        writeCaches host opts files cache path = some text
  | [], _, held, _ => held
  | file :: rest, cache, held, same => by
      rw [writeCaches, List.foldl_cons]
      apply writeCaches_keeps rest
      · cases isPath : opts.cachePath host file.1.source with
        | none => exact held
        | some other =>
            dsimp only
            by_cases here : path = other
            · subst here
              rw [Cache.write, Function.update_self,
                same file List.mem_cons_self isPath]
            · rw [Cache.write, Function.update_of_ne here]
              exact held
      · intro other member
        exact same other (List.mem_cons_of_mem _ member)

/-- After a chain is written its copies are its texts. -/
theorem cached_writeCaches {files : List File} (cache : Cache)
    (once : (files.map keyOf).Nodup) (apart : PathsApart host opts files) :
    Cached host opts (writeCaches host opts files cache) files := by
  intro file member path isPath
  have same : ∀ other ∈ files,
      opts.cachePath host other.1.source = some path →
        other.1.text = file.1.text := by
    intro other isOther otherPath
    have sameKey := apart other isOther file member path otherPath isPath
    rw [List.inj_on_of_nodup_map once isOther member sameKey]
  obtain ⟨before, after, split⟩ := List.append_of_mem member
  have whole : writeCaches host opts files cache =
      writeCaches host opts after
        ((writeCaches host opts before cache).write path
          file.1.text) := by
    rw [split]
    simp only [writeCaches, List.foldl_append, List.foldl_cons, isPath]
  rw [whole]
  apply writeCaches_keeps
  · rw [Cache.write, Function.update_self]
  · intro other isOther
    apply same
    rw [split]
    exact List.mem_append_right _ (List.mem_cons_of_mem _ isOther)

end Copies

end Chain

open Chain

/-! ## The system -/

/-- A chain that was walked and merged, and how. -/
structure Good where
  loading : Loading
  config : Config
  files : List File

/-- The chain is what its walk found, and it merges. -/
def Good.Built (host : Host) (roots : List ConfigSource) (good : Good) :
    Prop :=
  good.loading.host = host ∧
    good.loading.chain roots = .ok (good.config, good.files)

structure Clients where
  cache : Cache
  reloaders : List Reloader := []
  /-- The last good chain of each list of roots. -/
  good : List ConfigSource → Option Good := fun _ => none

inductive LoadStep where
  /-- A client starts. -/
  | load (roots : List ConfigSource) (outside : Outside)
  /-- The reloader of a client polls. -/
  | poll (index : Nat) (world : World)

/-- A chain as it is built by one loading. -/
def Chain.Loading.good (loading : Loading) (roots : List ConfigSource) :
    Option Good :=
  (loading.chain roots).toOption.map fun built =>
    ⟨loading, built.1, built.2⟩

section System

variable (host : Host) (opts : LoadOptions)

/-- The chain that an initial load starts with. -/
def goodInitial
    (outside : Outside) (cache : Cache) (roots : List ConfigSource) :
    Option Good :=
  match roots.mapM (ConfigSource.checkSupported host) with
  | .error _ => none
  | .ok _ =>
      match (startupLoading host opts outside cache).chain roots with
      | .ok _ => (startupLoading host opts outside cache).good roots
      | .error error =>
          if !error.fatal && opts.cacheDir.isSome then
            (cacheOnlyLoading host opts outside cache).good roots
          else
            none

/-- The chain that a poll applies. -/
def goodPolled (world : World) (cache : Cache) (reloader : Reloader) :
    Option Good :=
  ((Reloader.loading host world cache).good reloader.roots).filter
    fun good => reloader.lastTexts ≠ some (texts good.files)

/-- The chain that a step walks and merges, with its roots. -/
def Clients.builds (clients : Clients) :
    LoadStep → Option (List ConfigSource × Good)
  | .load roots outside =>
      (goodInitial host opts outside clients.cache roots).map
        fun good => (roots, good)
  | .poll index world =>
      clients.reloaders[index]?.bind fun reloader =>
        (goodPolled host world clients.cache reloader).map
          fun good => (reloader.roots, good)

/-- Remembers the chain that was built. -/
def remember
    (built : Option (List ConfigSource × Good))
    (good : List ConfigSource → Option Good) :
    List ConfigSource → Option Good :=
  match built with
  | none => good
  | some (roots, chain) => Function.update good roots (some chain)

def Clients.step (clients : Clients) (label : LoadStep) : Option Clients :=
  let good := remember (clients.builds host opts label) clients.good
  match label with
  | .load roots outside =>
      let result := loadInitial host opts outside clients.cache roots
      some
        { cache := result.2
          reloaders := clients.reloaders ++
            (result.1.toOption.map (Reloader.start roots opts)).toList
          good := good }
  | .poll index world =>
      clients.reloaders[index]?.map fun reloader =>
        let result := reloader.check host world clients.cache
        { cache := result.2
          reloaders := clients.reloaders.set index result.1
          good := good }

end System

/-! ## What a load and a poll do -/

section Steps

variable {host : Host} {opts : LoadOptions}

theorem good_eq_some
    {loading : Loading} {roots : List ConfigSource} {good : Good}
    (isGood : loading.good roots = some good) :
    good.loading = loading ∧
      loading.chain roots = .ok (good.config, good.files) := by
  obtain ⟨built, isBuilt, rfl⟩ := Option.map_eq_some_iff.mp isGood
  exact ⟨rfl, eq_ok_of_toOption isBuilt⟩

theorem good_of_chain
    {loading : Loading} {roots : List ConfigSource} {config : Config}
    {files : List File}
    (built : loading.chain roots = .ok (config, files)) :
    loading.good roots = some ⟨loading, config, files⟩ := by
  rw [Loading.good, built]
  rfl

/-- An initial load starts with the chain it built and writes its copies,
or it writes nothing and does not start from a chain. -/
theorem loadInitial_cases
    (outside : Outside) (cache : Cache) (roots : List ConfigSource) :
    (∃ good, goodInitial host opts outside cache roots = some good ∧
        good.Built host roots ∧
        loadInitial host opts outside cache roots =
          (.ok ⟨good.config, some (texts good.files)⟩,
            writeCaches host opts good.files cache)) ∨
      (goodInitial host opts outside cache roots = none ∧
        (loadInitial host opts outside cache roots).2 = cache ∧
        ∀ loaded, (loadInitial host opts outside cache roots).1 =
          .ok loaded → loaded = ⟨{}, none⟩) := by
  rw [goodInitial, loadInitial]
  cases roots.mapM (ConfigSource.checkSupported host) with
  | error error =>
      right
      refine ⟨rfl, rfl, ?_⟩
      intro loaded isLoaded
      cases isLoaded
  | ok checked =>
      dsimp only
      rw [builtInitial]
      cases startup :
          (startupLoading host opts outside cache).chain roots with
      | ok built =>
          left
          exact ⟨_, good_of_chain startup, ⟨rfl, startup⟩, rfl⟩
      | error error =>
          have failed : ∀ loaded,
              (if error.fatal then
                ((.error error.err : Except SignalError Loaded), cache)
              else (.ok ⟨{}, none⟩, cache)).1 = .ok loaded →
                loaded = ⟨{}, none⟩ := by
            intro loaded isLoaded
            split at isLoaded
            · cases isLoaded
            · cases isLoaded
              rfl
          have unchanged :
              (if error.fatal then
                ((.error error.err : Except SignalError Loaded), cache)
              else (.ok ⟨{}, none⟩, cache)).2 = cache := by
            split
            · rfl
            · rfl
          by_cases again : (!error.fatal && opts.cacheDir.isSome) = true
          · simp only [again, if_true]
            cases cacheOnly :
                (cacheOnlyLoading host opts outside cache).chain roots with
            | ok built =>
                left
                exact ⟨_, good_of_chain cacheOnly, ⟨rfl, cacheOnly⟩, rfl⟩
            | error other =>
                right
                refine ⟨?_, unchanged, failed⟩
                rw [Loading.good, cacheOnly]
                rfl
          · simp only [again, Bool.false_eq_true, if_false]
            exact Or.inr ⟨trivial, unchanged, failed⟩

/-- A poll applies the chain it built and writes its copies, or it changes
nothing. -/
theorem check_cases (world : World) (cache : Cache) (reloader : Reloader) :
    (∃ good, goodPolled host world cache reloader = some good ∧
        good.Built host reloader.roots ∧
        reloader.check host world cache =
          ({ reloader with
              pipeline := Pipeline.fromConfig good.config
              lastTexts := some (texts good.files) },
            writeCaches host reloader.opts good.files cache)) ∨
      (goodPolled host world cache reloader = none ∧
        reloader.check host world cache = (reloader, cache)) := by
  rw [goodPolled, Reloader.check, Loading.good, Loading.chain]
  cases walked : (Reloader.loading host world cache).walk
      reloader.roots with
  | error error => exact Or.inr ⟨rfl, rfl⟩
  | ok files =>
      dsimp only
      by_cases same : reloader.lastTexts = some (texts files)
      · right
        refine ⟨?_, if_pos same⟩
        cases merge (Reloader.loading host world cache).host files with
        | error error => rfl
        | ok config => simp [Except.toOption, Option.filter, same]
      · rw [if_neg same]
        have isHost : (Reloader.loading host world cache).host = host :=
          rfl
        cases merged : merge host files with
        | error error =>
            right
            simp [isHost, merged, Except.toOption]
        | ok config =>
            left
            refine ⟨⟨Reloader.loading host world cache, config, files⟩,
              ?_, ⟨rfl, ?_⟩, rfl⟩
            · simp [isHost, merged, Except.toOption, Option.filter, same]
            · simp [Loading.chain, walked, isHost, merged]

end Steps

/-! ## Where a good chain is from -/

/-- What a step finds outside. -/
def LoadStep.worlds : LoadStep → List World
  | .load _ outside => [outside.first, outside.second]
  | .poll _ world => [world]

section Origins

variable {host : Host} {opts : LoadOptions}

theorem origin_of_goodInitial
    {outside : Outside} {cache : Cache} {roots : List ConfigSource}
    {good : Good}
    (isGood : goodInitial host opts outside cache roots = some good) :
    good.Built host roots ∧
      good.loading.world ∈ [outside.first, outside.second] := by
  rw [goodInitial] at isGood
  split at isGood
  · cases isGood
  · split at isGood
    · obtain ⟨isLoading, chain⟩ := good_eq_some isGood
      rw [Good.Built, isLoading]
      exact ⟨⟨rfl, chain⟩, List.mem_cons_self⟩
    · split at isGood
      · obtain ⟨isLoading, chain⟩ := good_eq_some isGood
        rw [Good.Built, isLoading]
        exact ⟨⟨rfl, chain⟩, List.mem_cons_of_mem _ List.mem_cons_self⟩
      · cases isGood

theorem origin_of_builds
    {clients : Clients} {label : LoadStep} {roots : List ConfigSource}
    {good : Good}
    (builds : clients.builds host opts label = some (roots, good)) :
    good.Built host roots ∧ good.loading.world ∈ label.worlds := by
  cases label with
  | load others outside =>
      obtain ⟨_, isGood, isPair⟩ := Option.map_eq_some_iff.mp builds
      cases isPair
      exact origin_of_goodInitial isGood
  | poll index world =>
      obtain ⟨reloader, _, polled⟩ := Option.bind_eq_some_iff.mp builds
      obtain ⟨_, isGood, isPair⟩ := Option.map_eq_some_iff.mp polled
      cases isPair
      obtain ⟨isLoading, chain⟩ :=
        good_eq_some (Option.mem_filter_iff.mp isGood).1
      rw [Good.Built, isLoading]
      exact ⟨⟨rfl, chain⟩, List.mem_cons_self⟩

theorem good_step {clients next : Clients} {label : LoadStep}
    (stepped : clients.step host opts label = some next) :
    next.good =
      remember (clients.builds host opts label) clients.good := by
  cases label with
  | load roots outside =>
      cases stepped
      rfl
  | poll index world =>
      obtain ⟨_, _, rfl⟩ := Option.map_eq_some_iff.mp stepped
      rfl

/-- A good chain was built by a step of the run. -/
theorem origin_of_good
    {condition : Clients → LoadStep → Prop} {cache : Cache}
    {labels : List LoadStep} {clients : Clients}
    (reached : Reaches (Clients.step host opts) condition
      { cache := cache } labels clients)
    {roots : List ConfigSource} {good : Good}
    (isGood : clients.good roots = some good) :
    good.Built host roots ∧
      ∃ label ∈ labels, good.loading.world ∈ label.worlds := by
  induction reached with
  | nil => cases isGood
  | @snoc labels state next label _ _ stepped inductionHypothesis =>
      rw [good_step stepped] at isGood
      have before : state.good roots = some good →
          good.Built host roots ∧ ∃ earlier ∈ labels ++ [label],
            good.loading.world ∈ earlier.worlds := by
        intro known
        obtain ⟨built, earlier, member, found⟩ :=
          inductionHypothesis known
        exact ⟨built, earlier, List.mem_append_left _ member, found⟩
      cases builds : state.builds host opts label with
      | none =>
          rw [builds] at isGood
          exact before isGood
      | some built =>
          obtain ⟨others, chain⟩ := built
          rw [builds, remember] at isGood
          by_cases same : roots = others
          · subst same
            rw [Function.update_self] at isGood
            cases isGood
            obtain ⟨isBuilt, found⟩ := origin_of_builds builds
            exact ⟨isBuilt, label, by simp, found⟩
          · rw [Function.update_of_ne same] at isGood
            exact before isGood

end Origins

/-! ## The copies of the last good chain -/

/-- The roots can all be read. -/
def Supported (host : Host) (roots : List ConfigSource) : Prop :=
  ∀ root ∈ roots, root.checkSupported host = .ok ()

theorem supported_of_mapM {host : Host} :
    ∀ {roots : List ConfigSource} {checked : List Unit},
      roots.mapM (ConfigSource.checkSupported host) = .ok checked →
        Supported host roots
  | [], _, _ => by
      intro root isRoot
      cases isRoot
  | root :: rest, checked, mapped => by
      rw [List.mapM_cons] at mapped
      cases first : root.checkSupported host with
      | error error =>
          rw [first] at mapped
          cases mapped
      | ok =>
          cases later : rest.mapM (ConfigSource.checkSupported host) with
          | error error =>
              rw [first, later] at mapped
              cases mapped
          | ok others =>
              intro wanted isRoot
              rcases List.mem_cons.mp isRoot with rfl | inRest
              · exact first
              · exact supported_of_mapM later wanted inRest

theorem mapM_of_supported {host : Host} :
    ∀ {roots : List ConfigSource}, Supported host roots →
      ∃ checked, roots.mapM (ConfigSource.checkSupported host) =
        .ok checked
  | [], _ => ⟨[], rfl⟩
  | root :: rest, supported => by
      obtain ⟨others, later⟩ := mapM_of_supported
        fun other member => supported other (List.mem_cons_of_mem _ member)
      refine ⟨() :: others, ?_⟩
      rw [List.mapM_cons, supported root List.mem_cons_self, later]
      rfl

/-- What is kept of the last good chain of some roots. -/
structure Remembered
    (host : Host) (opts : LoadOptions) (roots : List ConfigSource)
    (clients : Clients) (good : Good) : Prop where
  built : good.Built host roots
  supported : Supported host roots
  cached : PathsApart host opts good.files →
    Cached host opts clients.cache good.files

/-- The invariant: reloaders poll with the same options and roots that can
be read, and the last good chain of `roots` has its copies. -/
structure Copied
    (host : Host) (opts : LoadOptions) (roots : List ConfigSource)
    (clients : Clients) : Prop where
  reloaders : ∀ reloader ∈ clients.reloaders,
    reloader.opts = opts ∧ Supported host reloader.roots
  good : ∀ good, clients.good roots = some good →
    Remembered host opts roots clients good

/-- A chain of other roots is written only over copies that have the same
text. -/
def Harmless
    (host : Host) (opts : LoadOptions) (roots : List ConfigSource)
    (clients : Clients) (label : LoadStep) : Prop :=
  ∀ others good mine, clients.builds host opts label = some (others, good) →
    others ≠ roots → clients.good roots = some mine →
      ∀ file ∈ good.files, ∀ copy ∈ mine.files, ∀ path,
        opts.cachePath host file.1.source = some path →
          opts.cachePath host copy.1.source = some path →
            file.1.text = copy.1.text

section Invariant

variable {host : Host} {opts : LoadOptions} {roots : List ConfigSource}
  {clients next : Clients} {label : LoadStep}

theorem once_of_built {good : Good} (built : good.Built host roots) :
    (good.files.map keyOf).Nodup :=
  (Loading.flattened_of_walk (walk_of_chain built.2).1).once

/-- What a step does to the cache: it writes the copies of the chain that
it built, or nothing. -/
theorem cache_step (copied : Copied host opts roots clients)
    (stepped : clients.step host opts label = some next) :
    (clients.builds host opts label = none ∧
        next.cache = clients.cache) ∨
      ∃ others good,
        clients.builds host opts label = some (others, good) ∧
        good.Built host others ∧ Supported host others ∧
        next.cache =
          writeCaches host opts good.files clients.cache := by
  cases label with
  | load others outside =>
      cases stepped
      rcases @loadInitial_cases host opts outside
          clients.cache others with
        ⟨good, isGood, built, result⟩ | ⟨nothing, unchanged, _⟩
      · right
        refine ⟨others, good, ?_, built, ?_, ?_⟩
        · simp only [Clients.builds, isGood, Option.map_some]
        · rw [goodInitial] at isGood
          split at isGood
          · cases isGood
          · rename_i checked isChecked
            exact supported_of_mapM isChecked
        · simp only [result]
      · left
        exact ⟨by simp only [Clients.builds, nothing, Option.map_none],
          unchanged⟩
  | poll index world =>
      obtain ⟨reloader, found, rfl⟩ := Option.map_eq_some_iff.mp stepped
      obtain ⟨sameOpts, supported⟩ :=
        copied.reloaders reloader (List.mem_of_getElem? found)
      rcases @check_cases host world clients.cache reloader with
        ⟨good, isGood, built, result⟩ | ⟨nothing, unchanged⟩
      · right
        refine ⟨reloader.roots, good, ?_, built, supported, ?_⟩
        · simp only [Clients.builds, found, Option.bind_some, isGood,
            Option.map_some]
        · simp only [result, sameOpts]
      · left
        refine ⟨?_, by simp only [unchanged]⟩
        simp only [Clients.builds, found, Option.bind_some, nothing,
          Option.map_none]

private theorem reloaders_step (copied : Copied host opts roots clients)
    (stepped : clients.step host opts label = some next) :
    ∀ reloader ∈ next.reloaders,
      reloader.opts = opts ∧ Supported host reloader.roots := by
  cases label with
  | load others outside =>
      cases stepped
      intro reloader member
      rcases List.mem_append.mp member with old | new
      · exact copied.reloaders reloader old
      · rw [Option.mem_toList] at new
        obtain ⟨loaded, isLoaded, rfl⟩ := Option.map_eq_some_iff.mp new
        refine ⟨rfl, ?_⟩
        have started := eq_ok_of_toOption isLoaded
        rw [loadInitial] at started
        split at started
        · cases started
        · rename_i checked isChecked
          exact supported_of_mapM isChecked
  | poll index world =>
      obtain ⟨reloader, found, rfl⟩ := Option.map_eq_some_iff.mp stepped
      intro later member
      have before :=
        copied.reloaders reloader (List.mem_of_getElem? found)
      rcases List.mem_or_eq_of_mem_set member with old | rfl
      · exact copied.reloaders later old
      · rcases @check_cases host world clients.cache reloader with
          ⟨good, _, _, result⟩ | ⟨_, unchanged⟩
        · rw [result]
          exact before
        · rw [unchanged]
          exact before

/-- A harmless step keeps the copies of the last good chain. -/
theorem copied_step (copied : Copied host opts roots clients)
    (harmless : Harmless host opts roots clients label)
    (stepped : clients.step host opts label = some next) :
    Copied host opts roots next := by
  refine ⟨reloaders_step copied stepped, ?_⟩
  intro good remembered
  rw [good_step stepped] at remembered
  rcases cache_step copied stepped with ⟨nothing, unchanged⟩ |
    ⟨others, chain, isChain, built, supported, writes⟩
  · rw [nothing] at remembered
    obtain ⟨before, readable, cached⟩ := copied.good good remembered
    exact ⟨before, readable, fun apart => unchanged ▸ cached apart⟩
  · rw [isChain, remember] at remembered
    by_cases same : others = roots
    · subst same
      rw [Function.update_self, Option.some.injEq] at remembered
      subst remembered
      refine ⟨built, supported, fun apart => ?_⟩
      rw [writes]
      exact cached_writeCaches _ (once_of_built built) apart
    · rw [Function.update_of_ne (Ne.symm same)] at remembered
      obtain ⟨before, readable, cached⟩ := copied.good good remembered
      refine ⟨before, readable, fun apart => ?_⟩
      intro copy isCopy path isPath
      rw [writes]
      apply writeCaches_keeps _ _ (cached apart copy isCopy path isPath)
      intro file isFile filePath
      exact harmless others chain good isChain same remembered file isFile
        copy isCopy path filePath isPath

theorem copied_start (cache : Cache) :
    Copied host opts roots { cache := cache } where
  reloaders _ member := absurd member List.not_mem_nil
  good _ remembered := by cases remembered

/-! ## Starting from the copies -/

/-- No remote file can be fetched. -/
def World.Unreachable (world : World) : Prop :=
  ∀ source : ConfigSource, source.isRemote = true →
    ∃ error, world.fetch source = .error error

/-- With nothing remote reachable, a client starts on the last good
chain. -/
theorem loadInitial_of_copies {good : Good} {outside : Outside}
    (cacheOn : opts.cacheDir.isSome = true)
    (remembered : Remembered host opts roots clients good)
    (apart : PathsApart host opts good.files)
    (unchanged : good.loading.world.Unchanged outside.first)
    (unreachable : outside.first.Unreachable) :
    (loadInitial host opts outside clients.cache roots).1 =
      .ok ⟨good.config, some (texts good.files)⟩ := by
  obtain ⟨sameHost, built⟩ := remembered.built
  have startup :
      (startupLoading host opts outside clients.cache).chain roots =
        .ok (good.config, good.files) :=
    @chain_of_copies good.loading
      (startupLoading host opts outside clients.cache) roots good.files
      good.config opts sameHost.symm unchanged cacheOn
      (remembered.cached apart) built (Or.inr ⟨rfl, unreachable⟩)
  obtain ⟨checked, isChecked⟩ := mapM_of_supported remembered.supported
  rw [loadInitial, isChecked]
  simp only [builtInitial, startup]

/-- The copies of the last good chain give it again. -/
theorem cacheOnly_of_copies {good : Good} {outside : Outside}
    (cacheOn : opts.cacheDir.isSome = true)
    (remembered : Remembered host opts roots clients good)
    (apart : PathsApart host opts good.files)
    (unchanged : good.loading.world.Unchanged outside.second) :
    (cacheOnlyLoading host opts outside clients.cache).chain roots =
      .ok (good.config, good.files) := by
  obtain ⟨sameHost, built⟩ := remembered.built
  exact @chain_of_copies good.loading
    (cacheOnlyLoading host opts outside clients.cache) roots good.files
    good.config opts sameHost.symm unchanged cacheOn
    (remembered.cached apart) built (Or.inl rfl)

end Invariant

/-! ## One list of roots -/

/-- Every load is of these roots. -/
def LoadStep.OfRoots (roots : List ConfigSource) : LoadStep → Prop
  | .load others _ => others = roots
  | .poll _ _ => True

section SameRoots

variable {host : Host} {opts : LoadOptions} {roots : List ConfigSource}
  {clients next : Clients} {label : LoadStep}

/-- All clients have the same roots, so that no other chain is written. -/
structure Alone
    (host : Host) (opts : LoadOptions) (roots : List ConfigSource)
    (clients : Clients) : Prop where
  copied : Copied host opts roots clients
  same : ∀ reloader ∈ clients.reloaders, reloader.roots = roots

/-- What a step builds then is a chain of these roots. -/
theorem Alone.harmless (alone : Alone host opts roots clients)
    (ofRoots : label.OfRoots roots) :
    Harmless host opts roots clients label := by
  intro others good mine builds different
  exfalso
  apply different
  cases label with
  | load loaded outside =>
      obtain ⟨_, _, isPair⟩ := Option.map_eq_some_iff.mp builds
      cases isPair
      exact ofRoots
  | poll index world =>
      obtain ⟨reloader, found, polled⟩ := Option.bind_eq_some_iff.mp builds
      obtain ⟨_, _, isPair⟩ := Option.map_eq_some_iff.mp polled
      cases isPair
      exact alone.same reloader (List.mem_of_getElem? found)

theorem alone_step (alone : Alone host opts roots clients)
    (ofRoots : label.OfRoots roots)
    (stepped : clients.step host opts label = some next) :
    Alone host opts roots next := by
  refine ⟨copied_step alone.copied (alone.harmless ofRoots) stepped, ?_⟩
  cases label with
  | load others outside =>
      cases stepped
      intro reloader member
      rcases List.mem_append.mp member with old | new
      · exact alone.same reloader old
      · rw [Option.mem_toList] at new
        obtain ⟨loaded, _, rfl⟩ := Option.map_eq_some_iff.mp new
        exact ofRoots
  | poll index world =>
      obtain ⟨reloader, found, rfl⟩ := Option.map_eq_some_iff.mp stepped
      intro later member
      rcases List.mem_or_eq_of_mem_set member with old | rfl
      · exact alone.same later old
      · rcases @check_cases host world clients.cache reloader with
          ⟨_, _, _, result⟩ | ⟨_, unchanged⟩
        · rw [result]
          exact alone.same reloader (List.mem_of_getElem? found)
        · rw [unchanged]
          exact alone.same reloader (List.mem_of_getElem? found)

/-- The cache always holds the last good chain: its copies are the raw
texts of that chain, a load or a poll that fails leaves them, and with
nothing remote reachable they give that chain's config again. -/
theorem cache_holds_last_chain
    (host : Host) (opts : LoadOptions) (roots : List ConfigSource)
    (cacheOn : opts.cacheDir.isSome = true)
    {cache : Cache} {labels : List LoadStep} {clients : Clients}
    (reached : Reaches (Clients.step host opts)
      (fun _ label => label.OfRoots roots) { cache := cache } labels
      clients) :
    (∀ good, clients.good roots = some good →
      good.Built host roots ∧
        (PathsApart host opts good.files →
          Cached host opts clients.cache good.files ∧
            ∀ outside, good.loading.world.Unchanged outside.first →
              outside.first.Unreachable →
                (loadInitial host opts outside clients.cache roots).1 =
                  .ok ⟨good.config, some (texts good.files)⟩)) ∧
      (∀ outside,
        (∀ config files,
          (loadInitial host opts outside clients.cache roots).1 ≠
            .ok ⟨config, some files⟩) →
          (loadInitial host opts outside clients.cache roots).2 =
            clients.cache) ∧
      (∀ reloader ∈ clients.reloaders, ∀ world,
        (∀ built, (Reloader.loading host world clients.cache).chain
          roots ≠ .ok built) →
          reloader.check host world clients.cache =
            (reloader, clients.cache)) := by
  have alone : Alone host opts roots clients := by
    apply reached.invariant
    · exact ⟨copied_start cache, fun _ member =>
        absurd member List.not_mem_nil⟩
    · intro state label next before ofRoots stepped
      exact alone_step before ofRoots stepped
  refine ⟨?_, ?_, ?_⟩
  · intro good isGood
    have remembered := alone.copied.good good isGood
    refine ⟨remembered.built, fun apart => ⟨remembered.cached apart, ?_⟩⟩
    intro outside unchanged unreachable
    exact loadInitial_of_copies cacheOn remembered apart unchanged
      unreachable
  · intro outside failed
    rcases @loadInitial_cases host opts outside clients.cache roots with
      ⟨good, _, _, result⟩ | ⟨_, unchanged, _⟩
    · exact absurd (congrArg Prod.fst result) (failed _ _)
    · exact unchanged
  · intro reloader member world failed
    rcases @check_cases host world clients.cache reloader with
      ⟨good, isGood, _, _⟩ | ⟨_, unchanged⟩
    · obtain ⟨_, chain⟩ := good_eq_some
        (Option.mem_filter_iff.mp isGood).1
      rw [alone.same reloader member] at chain
      exact absurd chain (failed _)
    · exact unchanged

end SameRoots

/-! ## A default in a shared cache -/

def defaultUrl : String := "https://ops.example/default.yaml"

/-- The digests that name the copies. -/
def sharedDigests : List (String × String) :=
  [("https://ops.example/a.yaml",
      "ac062e4e85e90b3cafe3fdab2d88ce1bbfc70ad7eefb2ea9a0bd7da0c1aa5c22"),
    ("https://ops.example/b.yaml",
      "d25effcd98b4bbcf4d41f130f16711c80ca7236f53dbf76a4fa58946957aa67f"),
    (defaultUrl,
      "05e3450c3ba7aef49ad45ebb01734960f22cd5df45704f029d66decd1f6da586")]

def sharedHost : Host :=
  { layeredHost with
    platform := ⟨fun text => (sharedDigests.lookup text).getD "",
      fun _ => ""⟩ }

/-- The sample texts: a default with and without slack, and a team that
routes to it beside one that does not. -/
def sharedLayers : List (String × Layer) :=
  [("slack", { providers :=
      { slack := some
          { webhookUrl := some "https://hooks.example/ops" } } }),
    ("plain", {}),
    ("team a", { extending := [defaultUrl]
                 routes := [{ providers := ["slack"] }] }),
    ("team b", { extending := [defaultUrl]
                 routes := [{ providers := ["console"] }] })]

/-- The local files, by path. -/
def localTexts : List (String × String) :=
  [("team.yaml", "team a")]

/-- A world that serves these texts, by source. -/
def sharedWorld (served : List (String × String)) : World where
  fetch source :=
    let known := if source.isRemote then served else localTexts
    match known.lookup source.shown with
    | some text => .ok text
    | none => .error (.config (source.shown ++ ": cannot be read"))
  resolve _ := .ok []
  fromYaml text _ :=
    match sharedLayers.lookup text with
    | some layer => .ok layer
    | none => .error (.config "not a config")

def sharedOptions : LoadOptions := ⟨some "/var/cache/opssignal"⟩

def teamA : List ConfigSource :=
  [.http "https://ops.example/a.yaml".toList]

def teamB : List ConfigSource :=
  [.http "https://ops.example/b.yaml".toList]

/-- Both teams, above this default. -/
def servedAbove (text : String) : World :=
  sharedWorld [("https://ops.example/a.yaml", "team a"),
    ("https://ops.example/b.yaml", "team b"), (defaultUrl, text)]

def nothingServed : World := sharedWorld []

theorem unchanged_shared (before after : List (String × String)) :
    (sharedWorld before).Unchanged (sharedWorld after) := by
  refine ⟨?_, rfl, rfl⟩
  intro source isLocal
  simp only [sharedWorld, isLocal, Bool.false_eq_true, if_false]

theorem unreachable_nothing : nothingServed.Unreachable := by
  intro source remote
  simp only [nothingServed, sharedWorld, remote, if_true,
    List.lookup_nil]
  exact ⟨_, rfl⟩

/-- Different copies, as a check. -/
def pathsApart
    (host : Host) (opts : LoadOptions) (files : List File) : Bool :=
  files.all fun left => files.all fun right =>
    decide (keyOf left = keyOf right) ||
      decide (opts.cachePath host left.1.source ≠
        opts.cachePath host right.1.source)

theorem apart_of_pathsApart
    {host : Host} {opts : LoadOptions} {files : List File}
    (checked : pathsApart host opts files = true) :
    PathsApart host opts files := by
  intro left isLeft right isRight path leftPath rightPath
  have pair := List.all_eq_true.mp
    (List.all_eq_true.mp checked left isLeft) right isRight
  rcases Bool.or_eq_true _ _ |>.mp pair with same | different
  · exact of_decide_eq_true same
  · exact absurd (leftPath.trans rightPath.symm)
      (of_decide_eq_true different)

instance decidableOfRoots (roots : List ConfigSource)
    (label : LoadStep) : Decidable (label.OfRoots roots) :=
  match label with
  | .load others _ => inferInstanceAs (Decidable (others = roots))
  | .poll _ _ => inferInstanceAs (Decidable True)

/-- A start, an edit that does not merge, and another start. -/
def editedSteps : List LoadStep :=
  [.load teamA ⟨servedAbove "slack", servedAbove "slack"⟩,
    .poll 0 (servedAbove "plain"),
    .load teamA ⟨servedAbove "plain", servedAbove "plain"⟩]

def emptyCache : Clients :=
  { cache := fun _ => none }

def editedClients : Clients :=
  (run (Clients.step sharedHost sharedOptions)
    (fun _ label => label.OfRoots teamA) emptyCache editedSteps).getD
    emptyCache

/-- The copies are those of the chain before the edit. -/
theorem cache_holds_last_chain_edited :
    ∃ good, editedClients.good teamA = some good ∧
      good.files.map keyOf = [defaultUrl, "https://ops.example/a.yaml"] ∧
      Cached sharedHost sharedOptions editedClients.cache good.files ∧
      (loadInitial sharedHost sharedOptions ⟨nothingServed, nothingServed⟩
        editedClients.cache teamA).1 =
          .ok ⟨good.config, some (texts good.files)⟩ := by
  have reached : Reaches (Clients.step sharedHost sharedOptions)
      (fun _ label => label.OfRoots teamA)
      { cache := emptyCache.cache } editedSteps editedClients :=
    reaches_of_isSome emptyCache (by decide +kernel)
  have holds := (cache_holds_last_chain sharedHost sharedOptions teamA rfl
    reached).1
  have computed : (editedClients.good teamA).any (fun good =>
      decide (good.files.map keyOf =
          [defaultUrl, "https://ops.example/a.yaml"]) &&
        pathsApart sharedHost sharedOptions good.files) = true := by
    decide +kernel
  obtain ⟨good, isGood, checks⟩ := Option.any_eq_true _ _ |>.mp computed
  obtain ⟨names, apart⟩ := Bool.and_eq_true _ _ |>.mp checks
  obtain ⟨_, kept⟩ := holds good isGood
  obtain ⟨cached, restarts⟩ := kept (apart_of_pathsApart apart)
  refine ⟨good, isGood, of_decide_eq_true names, cached, ?_⟩
  have served : ∃ texts, good.loading.world = sharedWorld texts := by
    obtain ⟨_, label, isStep, found⟩ := origin_of_good reached isGood
    have shared : ∀ label ∈ editedSteps, ∀ world ∈ label.worlds,
        ∃ texts, world = sharedWorld texts := by
      simp [editedSteps, LoadStep.worlds, servedAbove]
    exact shared label isStep _ found
  obtain ⟨before, isShared⟩ := served
  apply restarts
  · rw [isShared]
    exact unchanged_shared before []
  · exact unreachable_nothing

end OpsSignal
