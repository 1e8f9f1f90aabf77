import OpsSignal.ChainOrder
import OpsSignal.ConfigLoad

/-!
# Loading a chain again

A chain depends on its own files only.  Where they load as they did, the
walk finds the same chain again, whatever else has changed.  Cached copies
stand in for the remote files of a chain, so long as the local files, the
environment and the secrets are what they were.
-/

namespace OpsSignal

namespace Chain

open DepthFirst

variable {loading other : Loading}

/-! ## The same files -/

/-- A walk depends only on the files of its chain. -/
theorem walk_replay
    {roots : List ConfigSource} {files : List File}
    (sameHost : other.host = loading.host)
    (walked : loading.walk roots = .ok files)
    (same : ∀ file ∈ files,
      other.load file.1.source = loading.load file.1.source) :
    other.walk roots = .ok files := by
  obtain ⟨searches, isFiles⟩ := Loading.searches_of_walk walked
  have loads : ∀ source ∈ sources files,
      other.load source = loading.load source := by
    intro source member
    obtain ⟨file, isFile, rfl⟩ := List.mem_map.mp member
    exact same file isFile
  refine Loading.walk_eq_ok_iff.mpr ⟨sources files, ?_, ?_⟩
  · apply searches.replay
    · intro source member
      rw [Loading.parents, Loading.parents, loads source member, sameHost]
    · intro stack seen source _ admits
      rw [Loading.Admits, sameHost]
      exact admits
  · conv_lhs => rw [isFiles]
    apply List.filterMap_congr
    intro source member
    rw [Loading.file, Loading.file, loads source member]

/-- And so does the config. -/
theorem chain_replay
    {roots : List ConfigSource} {files : List File} {config : Config}
    (sameHost : other.host = loading.host)
    (built : loading.chain roots = .ok (config, files))
    (same : ∀ file ∈ files,
      other.load file.1.source = loading.load file.1.source) :
    other.chain roots = .ok (config, files) := by
  rw [Loading.chain] at built
  cases walked : loading.walk roots with
  | error error =>
      rw [walked] at built
      cases built
  | ok others =>
      simp only [walked] at built
      cases merged : merge loading.host others with
      | error error =>
          rw [merged] at built
          cases built
      | ok merges =>
          rw [merged] at built
          cases built
          rw [Loading.chain, walk_replay sameHost walked same]
          simp only [sameHost, merged]

theorem walk_of_chain
    {roots : List ConfigSource} {files : List File} {config : Config}
    (built : loading.chain roots = .ok (config, files)) :
    loading.walk roots = .ok files ∧
      merge loading.host files = .ok config := by
  rw [Loading.chain] at built
  cases walked : loading.walk roots with
  | error error =>
      rw [walked] at built
      cases built
  | ok others =>
      simp only [walked] at built
      cases merged : merge loading.host others with
      | error error =>
          rw [merged] at built
          cases built
      | ok merges =>
          rw [merged] at built
          cases built
          exact ⟨rfl, merged⟩

theorem chain_of_walk
    {roots : List ConfigSource} {files : List File}
    (walked : loading.walk roots = .ok files) :
    loading.chain roots =
      (merge loading.host files).map fun config => (config, files) := by
  rw [Loading.chain, walked]
  dsimp only
  cases merge loading.host files with
  | error error => rfl
  | ok config => rfl

/-- A chain that does not merge stops startup only if one of its files is
local. -/
theorem fatal_of_unmerged
    {host : Host} {files : List File} {error : ChainError}
    (unmerged : merge host files = .error error) :
    error.fatal = true ↔
      ∃ file ∈ files, file.1.source.isRemote = false := by
  rw [merge] at unmerged
  split at unmerged
  · cases unmerged
  · cases unmerged
    simp [ChainError.fatal]

/-! ## What is read of one file -/

theorem text_of_build {source : ConfigSource} {text : String}
    {built : Built} (isBuilt : loading.build source text = .ok built) :
    built.text = text := by
  rw [Loading.build] at isBuilt
  split at isBuilt
  · cases isBuilt
  · split at isBuilt
    · cases isBuilt
    · split at isBuilt
      · cases isBuilt
      · cases isBuilt
        rfl

theorem build_of_readCache {opts : LoadOptions} {source : ConfigSource}
    {built : Built} (isRead : loading.readCache opts source = .ok built) :
    loading.build source built.text = .ok built := by
  rw [Loading.readCache] at isRead
  split at isRead
  · cases isRead
  · split at isRead
    · cases isRead
    · rename_i text _
      cases isBuilt : loading.build source text with
      | error failure =>
          rw [isBuilt] at isRead
          cases failure with
          | text error => cases isRead
          | secrets error => cases isRead
      | ok copy =>
          rw [isBuilt] at isRead
          cases isRead
          rw [text_of_build isBuilt]
          exact isBuilt

/-- A file that loads is what its own text builds to, fresh or cached. -/
theorem build_of_load {source : ConfigSource} {built : Built}
    (loaded : loading.load source = .ok built) :
    loading.build source built.text = .ok built := by
  have ofFresh : loading.loadFresh source = .ok built →
      loading.build source built.text = .ok built := by
    intro fresh
    rw [Loading.loadFresh] at fresh
    cases isRead : loading.readFresh source with
    | ok copy =>
        rw [isRead] at fresh
        cases fresh
        rw [Loading.readFresh] at isRead
        split at isRead
        · rw [text_of_build isRead]
          exact isRead
        · cases isRead
    | error failure =>
        rw [isRead] at fresh
        cases failure with
        | secrets error => cases fresh
        | text error =>
            dsimp only at fresh
            split at fresh
            · rw [Loading.standIn] at fresh
              split at fresh
              · rename_i opts _
                cases isCopy : loading.readCache opts source with
                | ok copy =>
                    rw [isCopy] at fresh
                    cases fresh
                    exact build_of_readCache isCopy
                | error failure =>
                    rw [isCopy] at fresh
                    cases failure with
                    | text error => cases fresh
                    | secrets error => cases fresh
              · cases fresh
            · cases fresh
  rw [Loading.load] at loaded
  split at loaded
  · rename_i opts _ _
    cases isCopy : loading.readCache opts source with
    | ok copy =>
        rw [isCopy] at loaded
        cases loaded
        exact build_of_readCache isCopy
    | error failure =>
        rw [isCopy] at loaded
        cases failure with
        | text error => cases loaded
        | secrets error => cases loaded
  · exact ofFresh loaded

/-- A local file is read as it is now in every mode. -/
theorem load_of_local {source : ConfigSource}
    (isLocal : source.isRemote = false) :
    loading.load source = loading.loadFresh source := by
  rw [Loading.load, isLocal]
  cases loading.mode with
  | startup opts | cacheOnly opts | reload => rfl

theorem loadFresh_of_local {source : ConfigSource}
    (isLocal : source.isRemote = false) :
    loading.loadFresh source =
      match loading.readFresh source with
      | .ok built => .ok built
      | .error (.secrets error) => .error error
      | .error (.text error) => .error (.localFile error) := by
  rw [Loading.loadFresh]
  cases loading.readFresh source with
  | ok built => rfl
  | error failure =>
      cases failure with
      | secrets error => rfl
      | text error => simp [isLocal]

/-- Where a remote file cannot be fetched, its cached copy is used. -/
theorem load_of_copy {opts : LoadOptions} {source : ConfigSource}
    {path text : String} {built : Built} (remote : source.isRemote = true)
    (isPath : opts.cachePath loading.host source = some path)
    (isText : loading.cache path = some text)
    (isBuilt : loading.build source text = .ok built)
    (mode : loading.mode = .cacheOnly opts ∨
      loading.mode = .startup opts ∧
        ∃ error, loading.world.fetch source = .error error) :
    loading.load source = .ok built := by
  have copied : loading.readCache opts source = .ok built := by
    simp [Loading.readCache, isPath, isText, isBuilt]
  rcases mode with cacheOnly | ⟨startup, error, failed⟩
  · simp [Loading.load, cacheOnly, remote, copied]
  · simp [Loading.load, Loading.loadFresh, Loading.readFresh,
      Loading.standIn, startup, failed, remote, copied]

end Chain

/-! ## What stays the same -/

/-- The local files, the environment and the secrets are what they
were. -/
structure World.Unchanged (before after : World) : Prop where
  locals : ∀ source : ConfigSource, source.isRemote = false →
    after.fetch source = before.fetch source
  resolve : after.resolve = before.resolve
  fromYaml : after.fromYaml = before.fromYaml

namespace Chain

/-- The cached copies of a chain's remote files are their texts. -/
def Cached
    (host : Host) (opts : LoadOptions) (cache : Cache)
    (files : List File) : Prop :=
  ∀ file ∈ files, ∀ path,
    opts.cachePath host file.1.source = some path →
      cache path = some file.1.text

section Copies

variable {before after : Loading}

theorem build_of_unchanged (sameHost : after.host = before.host)
    (unchanged : before.world.Unchanged after.world)
    (source : ConfigSource) (text : String) :
    after.build source text = before.build source text := by
  simp only [Loading.build, Loading.values, sameHost, unchanged.resolve,
    unchanged.fromYaml]

theorem load_local_of_unchanged (sameHost : after.host = before.host)
    (unchanged : before.world.Unchanged after.world)
    {source : ConfigSource} (isLocal : source.isRemote = false) :
    after.load source = before.load source := by
  rw [load_of_local isLocal, load_of_local isLocal,
    loadFresh_of_local isLocal, loadFresh_of_local isLocal]
  have sameRead : after.readFresh source = before.readFresh source := by
    simp only [Loading.readFresh, unchanged.locals source isLocal,
      build_of_unchanged sameHost unchanged]
  rw [sameRead]

/-- The copies of a good chain give the chain again. -/
theorem chain_of_copies
    {roots : List ConfigSource} {files : List File} {config : Config}
    {opts : LoadOptions} (sameHost : after.host = before.host)
    (unchanged : before.world.Unchanged after.world)
    (cacheOn : opts.cacheDir.isSome = true)
    (cached : Cached after.host opts after.cache files)
    (built : before.chain roots = .ok (config, files))
    (mode : after.mode = .cacheOnly opts ∨
      after.mode = .startup opts ∧
        ∀ source : ConfigSource, source.isRemote = true →
          ∃ error, after.world.fetch source = .error error) :
    after.chain roots = .ok (config, files) := by
  apply chain_replay sameHost built
  intro file member
  by_cases remote : file.1.source.isRemote = true
  · have isFile :=
      Loading.file_of_mem_walk (walk_of_chain built).1 member
    obtain ⟨copy, isCopy, isEntry⟩ := Option.map_eq_some_iff.mp isFile
    have loaded := eq_ok_of_toOption isCopy
    have sameText : copy.text = file.1.text := by
      rw [← isEntry]
    obtain ⟨dir, isDir⟩ := Option.isSome_iff_exists.mp cacheOn
    have onDisk : ∃ path, opts.cachePath after.host file.1.source =
        some path := by
      rw [LoadOptions.cachePath, if_pos remote, isDir]
      exact ⟨_, rfl⟩
    obtain ⟨path, isPath⟩ := onDisk
    rw [loaded]
    apply load_of_copy remote isPath (cached file member path isPath)
    · rw [build_of_unchanged sameHost unchanged, ← sameText]
      exact build_of_load loaded
    · exact mode.imp_right fun startup =>
        ⟨startup.1, startup.2 file.1.source remote⟩
  · exact load_local_of_unchanged sameHost unchanged
      (Bool.not_eq_true _ |>.mp remote)

end Copies

end Chain

end OpsSignal
