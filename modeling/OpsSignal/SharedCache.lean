import OpsSignal.CacheRuns

/-!
# Chains that share cached copies

The cache holds one copy of each file, whichever chain it was loaded for.
A chain that shares a file with another one may therefore write a newer
text over a copy that the other falls back on.  So long as none does, the
last good chain of some roots can always be built from its copies.
-/

namespace OpsSignal

open Chain LabelledRuns

section Fallback

variable {host : Host} {opts : LoadOptions} {roots : List ConfigSource}
  {outside : Outside}

/-- A failure that need not be fixed by a person leaves the cached
copies. -/
theorem loadInitial_of_copied
    {error : ChainError} {config : Config} {files : List File}
    (cacheOn : opts.cacheDir.isSome = true)
    (supported : Supported host roots) {cache : Cache}
    (startup : (startupLoading host opts outside cache).chain roots =
      .error error)
    (notFatal : error.fatal = false)
    (copies : (cacheOnlyLoading host opts outside cache).chain roots =
      .ok (config, files)) :
    (loadInitial host opts outside cache roots).1 =
      .ok ⟨config, some (texts files)⟩ := by
  obtain ⟨checked, isChecked⟩ := mapM_of_supported supported
  rw [loadInitial, isChecked]
  simp [builtInitial, startup, notFatal, cacheOn, copies]

theorem loadInitial_of_fatal
    {error : ChainError} (supported : Supported host roots) {cache : Cache}
    (startup : (startupLoading host opts outside cache).chain roots =
      .error error)
    (fatal : error.fatal = true) :
    (loadInitial host opts outside cache roots).1 = .error error.err := by
  obtain ⟨checked, isChecked⟩ := mapM_of_supported supported
  rw [loadInitial, isChecked]
  simp [builtInitial, startup, fatal]

/-- Files that load and do not merge. -/
theorem chain_of_unmerged {files : List File} {error : ChainError}
    {cache : Cache}
    (walked : (startupLoading host opts outside cache).walk roots =
      .ok files)
    (unmerged : merge host files = .error error) :
    (startupLoading host opts outside cache).chain roots =
      .error error := by
  rw [chain_of_walk walked]
  change (merge host files).map _ = _
  rw [unmerged]
  rfl

end Fallback

/-- In a run that writes no other text over its copies, the last good
chain of some roots stays within reach: a client starts on it when nothing
remote can be fetched, and when the fresh files, all of them remote, do not
merge. -/
theorem load_keeps_fallback
    (host : Host) (opts : LoadOptions) (roots : List ConfigSource)
    (cacheOn : opts.cacheDir.isSome = true)
    {cache : Cache} {labels : List LoadStep} {clients : Clients}
    (reached : Reaches (Clients.step host opts) (Harmless host opts roots)
      { cache := cache } labels clients)
    {good : Good} (isGood : clients.good roots = some good)
    (apart : PathsApart host opts good.files)
    {outside : Outside}
    (first : good.loading.world.Unchanged outside.first)
    (second : good.loading.world.Unchanged outside.second) :
    (cacheOnlyLoading host opts outside clients.cache).chain roots =
        .ok (good.config, good.files) ∧
      (outside.first.Unreachable →
        (loadInitial host opts outside clients.cache roots).1 =
          .ok ⟨good.config, some (texts good.files)⟩) ∧
      (∀ files error,
        (startupLoading host opts outside clients.cache).walk roots =
            .ok files →
          merge host files = .error error →
            ((∀ file ∈ files, file.1.source.isRemote = true) →
              (loadInitial host opts outside clients.cache roots).1 =
                .ok ⟨good.config, some (texts good.files)⟩) ∧
            ((∃ file ∈ files, file.1.source.isRemote = false) →
              (loadInitial host opts outside clients.cache roots).1 =
                .error error.err)) := by
  have copied : Copied host opts roots clients := by
    apply reached.invariant (copied_start cache)
    intro state label next before harmless stepped
    exact copied_step before harmless stepped
  have remembered := copied.good good isGood
  refine ⟨cacheOnly_of_copies cacheOn remembered apart second, ?_, ?_⟩
  · intro unreachable
    exact loadInitial_of_copies cacheOn remembered apart first unreachable
  · intro files error walked unmerged
    have startup := chain_of_unmerged walked unmerged
    have local_of_fatal := fatal_of_unmerged unmerged
    refine ⟨?_, ?_⟩
    · intro remote
      have notFatal : error.fatal = false := by
        rw [← Bool.not_eq_true, local_of_fatal]
        rintro ⟨file, member, isLocal⟩
        rw [remote file member] at isLocal
        cases isLocal
      exact loadInitial_of_copied cacheOn remembered.supported startup
        notFatal (cacheOnly_of_copies cacheOn remembered apart second)
    · intro isLocal
      exact loadInitial_of_fatal remembered.supported startup
        (local_of_fatal.mpr isLocal)

/-! ## A check of the condition -/

/-- Whether a step writes no other text over a copy of the last good
chain. -/
def writesSame
    (host : Host) (opts : LoadOptions) (roots : List ConfigSource)
    (clients : Clients) (label : LoadStep) : Bool :=
  (clients.builds host opts label).all fun built =>
    decide (built.1 = roots) ||
      (clients.good roots).all fun mine =>
        built.2.files.all fun file => mine.files.all fun copy =>
          decide (file.1.text = copy.1.text) ||
            (opts.cachePath host file.1.source).all fun path =>
              decide (opts.cachePath host copy.1.source ≠ some path)

theorem harmless_of_writesSame
    {host : Host} {opts : LoadOptions} {roots : List ConfigSource}
    {clients : Clients} {label : LoadStep}
    (checked : writesSame host opts roots clients label = true) :
    Harmless host opts roots clients label := by
  intro others good mine builds different isMine file isFile copy isCopy
    path filePath copyPath
  simp only [writesSame, builds, isMine, Option.all_some, different,
    decide_false, Bool.false_or, List.all_eq_true] at checked
  have pair := checked file isFile copy isCopy
  simp only [filePath, copyPath, Option.all_some, ne_eq, not_true,
    decide_false, Bool.or_false, decide_eq_true_eq] at pair
  exact pair

/-! ## Two teams above one default -/

/-- Both teams load the same default. -/
def sharedSteps : List LoadStep :=
  [.load teamA ⟨servedAbove "slack", servedAbove "slack"⟩,
    .load teamB ⟨servedAbove "slack", servedAbove "slack"⟩]

/-- The other team loads the default after slack is gone from it. -/
def spoilingSteps : List LoadStep :=
  [.load teamA ⟨servedAbove "slack", servedAbove "slack"⟩,
    .load teamB ⟨servedAbove "plain", servedAbove "plain"⟩]

def clientsAfter (steps : List LoadStep) : Clients :=
  (run (Clients.step sharedHost sharedOptions) anyStep emptyCache
    steps).getD emptyCache

private theorem built_teamA
    {steps : List LoadStep}
    (shared : ∀ label ∈ steps, ∀ world ∈ label.worlds,
      ∃ texts, world = sharedWorld texts)
    (reached : Reaches (Clients.step sharedHost sharedOptions) anyStep
      emptyCache steps (clientsAfter steps))
    {good : Good} (isGood : (clientsAfter steps).good teamA = some good) :
    good.Built sharedHost teamA ∧ ∀ after,
      good.loading.world.Unchanged (sharedWorld after) := by
  obtain ⟨built, label, isStep, found⟩ := origin_of_good reached isGood
  refine ⟨built, fun after => ?_⟩
  obtain ⟨before, isShared⟩ := shared label isStep _ found
  rw [isShared]
  exact unchanged_shared before after

/-- Where the other team has the same default, the first team keeps its
own. -/
theorem load_keeps_fallback_shared :
    ∃ good,
      (clientsAfter sharedSteps).good teamA = some good ∧
      (loadInitial sharedHost sharedOptions
        ⟨nothingServed, nothingServed⟩
        (clientsAfter sharedSteps).cache teamA).1 =
          .ok ⟨good.config, some (texts good.files)⟩ := by
  have reached : Reaches (Clients.step sharedHost sharedOptions)
      (fun state label => writesSame sharedHost sharedOptions teamA state
        label = true) emptyCache sharedSteps (clientsAfter sharedSteps) :=
    reaches_of_isSome emptyCache (by decide +kernel)
  have shared : ∀ label ∈ sharedSteps, ∀ world ∈ label.worlds,
      ∃ texts, world = sharedWorld texts := by
    simp [sharedSteps, LoadStep.worlds, servedAbove]
  have computed : ((clientsAfter sharedSteps).good teamA).any
      (fun good => pathsApart sharedHost sharedOptions good.files) =
        true := by
    decide +kernel
  obtain ⟨good, isGood, apart⟩ := Option.any_eq_true _ _ |>.mp computed
  have unchanged := (built_teamA shared reached.anyStep isGood).2 []
  have keeps := @load_keeps_fallback sharedHost sharedOptions teamA rfl
    _ _ _ (reached.weaken fun _ _ => harmless_of_writesSame) good isGood
    (apart_of_pathsApart apart) ⟨nothingServed, nothingServed⟩ unchanged
    unchanged
  exact ⟨good, isGood, keeps.2.1 unreachable_nothing⟩

/-- A client of the first team then starts on the default config, whether
the remote files cannot be fetched or no longer fit together. -/
theorem fallback_spoiled :
    ∃ good,
      Reaches (Clients.step sharedHost sharedOptions) anyStep emptyCache
        spoilingSteps (clientsAfter spoilingSteps) ∧
      (clientsAfter spoilingSteps).good teamA = some good ∧
      good.Built sharedHost teamA ∧
      PathsApart sharedHost sharedOptions good.files ∧
      (good.loading.world.Unchanged nothingServed ∧
        nothingServed.Unreachable ∧
        (loadInitial sharedHost sharedOptions
          ⟨nothingServed, nothingServed⟩
          (clientsAfter spoilingSteps).cache teamA).1 =
            .ok ⟨{}, none⟩) ∧
      (good.loading.world.Unchanged (servedAbove "plain") ∧
        (loadInitial sharedHost sharedOptions
          ⟨servedAbove "plain", servedAbove "plain"⟩
          (clientsAfter spoilingSteps).cache teamA).1 =
            .ok ⟨{}, none⟩) := by
  have reached : Reaches (Clients.step sharedHost sharedOptions) anyStep
      emptyCache spoilingSteps (clientsAfter spoilingSteps) :=
    reaches_of_isSome emptyCache (by decide +kernel)
  have shared : ∀ label ∈ spoilingSteps, ∀ world ∈ label.worlds,
      ∃ texts, world = sharedWorld texts := by
    simp [spoilingSteps, LoadStep.worlds, servedAbove]
  have computed : ((clientsAfter spoilingSteps).good teamA).any
      (fun good => pathsApart sharedHost sharedOptions good.files) =
        true := by
    decide +kernel
  have unfetched : (loadInitial sharedHost sharedOptions
      ⟨nothingServed, nothingServed⟩ (clientsAfter spoilingSteps).cache
      teamA).1.toOption = some ⟨{}, none⟩ := by
    decide +kernel
  have unmerged : (loadInitial sharedHost sharedOptions
      ⟨servedAbove "plain", servedAbove "plain"⟩
      (clientsAfter spoilingSteps).cache teamA).1.toOption =
        some ⟨{}, none⟩ := by
    decide +kernel
  obtain ⟨good, isGood, apart⟩ := Option.any_eq_true _ _ |>.mp computed
  obtain ⟨built, unchanged⟩ := built_teamA shared reached isGood
  exact ⟨good, reached, isGood, built, apart_of_pathsApart apart,
    ⟨unchanged [], unreachable_nothing, eq_ok_of_toOption unfetched⟩,
    ⟨unchanged _, eq_ok_of_toOption unmerged⟩⟩

end OpsSignal
