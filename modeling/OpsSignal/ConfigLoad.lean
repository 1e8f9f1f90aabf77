import OpsSignal.Chain
import OpsSignal.Pipeline

/-!
# Loading and reloading

`load_initial` loads the config a client starts with, and `check` is one
poll of its reloader.  Both keep a copy of each remote file of the chain
they loaded in the cache directory.
-/

namespace OpsSignal

open Chain

namespace Chain

/-- Walks the roots and merges what is found. -/
def Loading.chain (loading : Loading) (roots : List ConfigSource) :
    Except ChainError (Config × List File) :=
  match loading.walk roots with
  | .error error => .error error
  | .ok files =>
      match merge loading.host files with
      | .error error => .error error
      | .ok config => .ok (config, files)

/-- The copies of a chain's remote files. -/
def writeCaches
    (host : Host) (opts : LoadOptions) (files : List File) (cache : Cache) :
    Cache :=
  files.foldl
    (fun cache file =>
      match opts.cachePath host file.1.source with
      | some path => cache.write path file.1.text
      | none => cache)
    cache

end Chain

/-- The config a client starts with, and the texts it was built from. -/
structure Loaded where
  config : Config
  texts : Option Texts
  deriving DecidableEq, Repr

/-- What the two walks of an initial load find outside. -/
structure Outside where
  first : World
  second : World

section Initial

variable (host : Host) (opts : LoadOptions) (outside : Outside)
  (cache : Cache)

def startupLoading : Loading :=
  ⟨host, outside.first, cache, .startup opts⟩

def cacheOnlyLoading : Loading :=
  ⟨host, outside.second, cache, .cacheOnly opts⟩

/-- The chain as it is now, or the cached copies if it does not fit
together. -/
def builtInitial (roots : List ConfigSource) :
    Except ChainError (Config × List File) :=
  match (startupLoading host opts outside cache).chain roots with
  | .ok built => .ok built
  | .error error =>
      if !error.fatal && opts.cacheDir.isSome then
        match (cacheOnlyLoading host opts outside cache).chain roots with
        | .ok built => .ok built
        | .error _ => .error error
      else
        .error error

/-- `load_initial`. -/
def loadInitial (roots : List ConfigSource) :
    Except SignalError Loaded × Cache :=
  match roots.mapM (ConfigSource.checkSupported host) with
  | .error error => (.error error, cache)
  | .ok _ =>
      match builtInitial host opts outside cache roots with
      | .ok (config, files) =>
          (.ok ⟨config, some (texts files)⟩,
            writeCaches host opts files cache)
      | .error error =>
          if error.fatal then (.error error.err, cache)
          else (.ok ⟨{}, none⟩, cache)

end Initial

/-! ## The reloader -/

structure Reloader where
  roots : List ConfigSource
  opts : LoadOptions
  /-- The texts the current pipeline was built from.  `none` after a start
  on the default config. -/
  lastTexts : Option Texts
  storage : StorageConfig
  pipeline : Pipeline

namespace Reloader

/-- The reloader of a client that has just started. -/
def start
    (roots : List ConfigSource) (opts : LoadOptions) (loaded : Loaded) :
    Reloader where
  roots := roots
  opts := opts
  lastTexts := loaded.texts
  storage := loaded.config.storage
  pipeline := Pipeline.fromConfig loaded.config

def loading (host : Host) (world : World) (cache : Cache) : Loading :=
  ⟨host, world, cache, .reload⟩

/-- One poll.  Every failure keeps the pipeline already in place. -/
def check
    (host : Host) (world : World) (reloader : Reloader) (cache : Cache) :
    Reloader × Cache :=
  match (loading host world cache).walk reloader.roots with
  | .error _ => (reloader, cache)
  | .ok files =>
      if reloader.lastTexts = some (texts files) then (reloader, cache)
      else
        match merge host files with
        | .error _ => (reloader, cache)
        | .ok config =>
            ({ reloader with
                pipeline := Pipeline.fromConfig config
                lastTexts := some (texts files) },
              writeCaches host reloader.opts files cache)

end Reloader

end OpsSignal
