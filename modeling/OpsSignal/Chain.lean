import OpsSignal.Config
import OpsSignal.Source

/-!
# Layered configs

`walk` flattens the files that a list of roots extends, depth first, and
`merge` turns them into one config.  A walk runs in one of three modes,
which differ in how a remote file is read.

The YAML parser, the secret stores and the network are not part of the
core.  What they answer is a parameter, and may change from one walk to
the next.
-/

namespace OpsSignal

/-! ## Errors as text -/

/-- The digits after the point, without trailing zeros. -/
def fractionDigits (thousandths : Nat) : String :=
  if thousandths % 100 = 0 then toString (thousandths / 100)
  else if thousandths % 10 = 0 then
    toString (thousandths / 100) ++ toString (thousandths / 10 % 10)
  else
    toString (thousandths / 100) ++ toString (thousandths / 10 % 10) ++
      toString (thousandths % 10)

/-- The debug form of a duration in milliseconds. -/
def durationText (millis : Nat) : String :=
  if millis = 0 then "0ns"
  else if millis < 1000 then toString millis ++ "ms"
  else if millis % 1000 = 0 then toString (millis / 1000) ++ "s"
  else
    toString (millis / 1000) ++ "." ++ fractionDigits (millis % 1000) ++ "s"

namespace SignalError

def display : SignalError → String
  | .validation message => "validation failed: " ++ message
  | .config message => "config error: " ++ message
  | .delivery message => "delivery failed: " ++ message
  | .sink message => "sink write failed: " ++ message
  | .timeout millis => "timeout after " ++ durationText millis
  | .internal message =>
      "internal error (recovered from panic): " ++ message

/-- The message of a config error, without its heading. -/
def message : SignalError → String
  | .config message => message
  | other => other.display

end SignalError

/-! ## What a walk reads -/

/-- Resolved secrets, by placeholder name. -/
abbrev Values := List (String × String)

/-- A secret that could not be resolved.  A malformed reference or a
missing add-on is fatal; a store that cannot be reached is not. -/
structure ResolveError where
  err : SignalError
  fatal : Bool
  deriving DecidableEq, Repr

/-- What does not change while a process runs. -/
structure Host where
  platform : Platform
  urls : UrlParser
  libraries : Libraries
  /-- The secret placeholders of a text, each once. -/
  secretRefs : String → Except SignalError (List String)
  /-- Whether this build or a registered fetcher reads a scheme. -/
  reads : String → Bool
  /-- What the system says of a file that is missing. -/
  missing : String

/-- What one walk finds outside. -/
structure World where
  /-- The raw text of a source. -/
  fetch : ConfigSource → Except SignalError String
  resolve : List String → Except ResolveError Values
  /-- `from_yaml_str_with`, which also reads the environment. -/
  fromYaml : String → Values → Except SignalError Layer

/-- How a client loads its config, as far as a walk depends on it. -/
structure LoadOptions where
  cacheDir : Option String
  deriving DecidableEq, Repr

/-- The files of the cache directory, by path. -/
abbrev Cache := String → Option String

def Cache.write (path text : String) (cache : Cache) : Cache :=
  Function.update cache path (some text)

/-- `cache_path`: the first eight bytes of a digest name the copy of a
remote source. -/
def LoadOptions.cachePath
    (host : Host) (opts : LoadOptions) (source : ConfigSource) :
    Option String :=
  if source.isRemote then
    let name := ((host.platform.sha256 source.shown).toList.take 16)
    opts.cacheDir.map fun dir =>
      dir ++ "/signal-" ++ String.ofList name ++ ".yaml"
  else
    none

/-! ## Supported sources -/

def cloudSchemes : List (String × List String) :=
  [("aws", ["s3", "appconfig", "dynamodb", "aws-sm"]),
    ("gcp", ["gs", "firestore", "gcp-sm"]),
    ("azure", ["az", "azappconfig", "cosmos", "azure-kv"])]

def secretStores : List (String × String) :=
  [("aws-sm", "AWS Secrets Manager"), ("gcp-sm", "GCP Secret Manager"),
    ("azure-kv", "Azure Key Vault")]

/-- The cloud whose add-on reads a scheme, if any. -/
def cloudOf (scheme : String) : Option String :=
  (cloudSchemes.find? fun entry => scheme ∈ entry.2).map Prod.fst

def missingSupport (scheme : String) : String :=
  let cloud := (cloudOf scheme).getD "aws"
  let what :=
    match secretStores.lookup scheme with
    | some store => store ++ " secrets (" ++ scheme ++ ":)"
    | none => scheme ++ ":// configs"
  "this build cannot read " ++ what ++ "; install the " ++ cloud ++
    " add-on: pip install 'opssignal[" ++ cloud ++ "]' for Python, or a " ++
    "CLI or C library built with `--features " ++ cloud ++ "` (the `" ++
    cloud ++ "` cargo feature of opssignal-core)"

/-- A source that no part of this installation reads is an install
problem, not an outage. -/
def ConfigSource.checkSupported (host : Host) (source : ConfigSource) :
    Except SignalError Unit :=
  if (cloudOf source.scheme).isNone || host.reads source.scheme then
    .ok ()
  else
    configError (source.shown ++ ": " ++ missingSupport source.scheme)

namespace Chain

/-- Deepest `extends` chain accepted, counting the root. -/
def maxDepth : Nat := 8

/-- Most files one chain may load. -/
def maxFiles : Nat := 64

inductive Mode where
  /-- A remote file that cannot be fetched or parsed falls back to its
  cached copy. -/
  | startup (opts : LoadOptions)
  /-- Every remote file comes from its cached copy. -/
  | cacheOnly (opts : LoadOptions)
  | reload
  deriving DecidableEq, Repr

/-- One file of the chain, with the raw text it was built from. -/
structure Fetched where
  source : ConfigSource
  text : String
  /-- Fingerprint of the secrets the text referenced. -/
  secrets : String
  deriving DecidableEq, Repr

abbrev File := Fetched × Layer

/-- `(source, raw text, secrets digest)` of each file. -/
abbrev Texts := List (String × String × String)

/-- Why a chain could not be built. -/
inductive ChainError where
  | cycle (stack : List String) (key : String)
  | tooDeep (key : String)
  | tooManyFiles (key : String)
  | unsupported (error : SignalError)
  | badReference (error : SignalError)
  | secrets (error : SignalError) (isFatal : Bool)
  | localFile (error : SignalError)
  | remoteFile (error : SignalError)
  | unmerged (error : SignalError) (anyLocal : Bool)
  deriving DecidableEq, Repr

namespace ChainError

def err : ChainError → SignalError
  | .cycle stack key =>
      .config ("`extends` cycle: " ++
        String.intercalate " -> " (stack ++ [key]))
  | .tooDeep key =>
      .config (key ++ ": `extends` chain is deeper than " ++
        toString maxDepth ++ " files")
  | .tooManyFiles key =>
      .config (key ++ ": config chain loads more than " ++
        toString maxFiles ++ " files")
  | .unsupported error | .badReference error | .secrets error _
  | .localFile error | .remoteFile error | .unmerged error _ => error

/-- Whether a person has to fix it, so that startup stops. -/
def fatal : ChainError → Bool
  | .cycle _ _ | .tooDeep _ | .tooManyFiles _ | .unsupported _
  | .badReference _ | .localFile _ => true
  | .remoteFile _ => false
  | .secrets _ isFatal => isFatal
  | .unmerged _ anyLocal => anyLocal

end ChainError

/-- A file read, its secrets resolved and parsed. -/
structure Built where
  text : String
  layer : Layer
  secrets : String
  deriving DecidableEq, Repr

inductive Failure where
  /-- The text could not be read or parsed; a cached copy may do. -/
  | text (error : SignalError)
  /-- Its secrets could not be resolved, whichever copy is used. -/
  | secrets (error : ChainError)
  deriving DecidableEq, Repr

/-- `digest`: a fingerprint of the resolved values. -/
def secretsDigest (platform : Platform) (values : Values) : String :=
  if values.isEmpty then ""
  else
    let sorted := values.mergeSort fun left right =>
      decide (left.1 ≤ right.1)
    let ending := String.singleton (Char.ofNat 0)
    platform.sha256 (String.join (sorted.map fun entry =>
      entry.1 ++ ending ++ entry.2 ++ ending))

/-- What a walk works with. -/
structure Loading where
  host : Host
  world : World
  cache : Cache
  mode : Mode

def described (source : ConfigSource) (error : SignalError) :
    SignalError :=
  .config (source.shown ++ ": " ++ error.message)

/-! ## Reading one file -/

namespace Loading

variable (loading : Loading)

/-- The values of the placeholders; the stores are not asked if there are
none. -/
def values (names : List String) : Except ResolveError Values :=
  if names.isEmpty then .ok [] else loading.world.resolve names

def build (source : ConfigSource) (text : String) : Except Failure Built :=
  match loading.host.secretRefs text with
  | .error error => .error (.text (described source error))
  | .ok names =>
      match loading.values names with
      | .error error =>
          .error (.secrets
            (.secrets (described source error.err) error.fatal))
      | .ok values =>
          match loading.world.fromYaml text values with
          | .error error => .error (.text (described source error))
          | .ok layer =>
              .ok ⟨text, layer,
                secretsDigest loading.host.platform values⟩

def readCache (opts : LoadOptions) (source : ConfigSource) :
    Except Failure Built :=
  match opts.cachePath loading.host source with
  | none =>
      .error (.text (.config (source.shown ++ ": config cache is off")))
  | some path =>
      match loading.cache path with
      | none =>
          .error (.text (.config (source.shown ++
            ": no cached copy at " ++ path ++ ": " ++
            loading.host.missing)))
      | some text =>
          match loading.build source text with
          | .error (.text error) =>
              .error (.text (.config ("cached config at " ++ path ++
                " is unusable: " ++ error.message)))
          | other => other

/-- A file as it is now. -/
def readFresh (source : ConfigSource) : Except Failure Built :=
  match loading.world.fetch source with
  | .ok text => loading.build source text
  | .error error => .error (.text error)

/-- The cached copy that stands in for a remote file, if the mode has
one. -/
def standIn (source : ConfigSource) (error : SignalError) :
    Except ChainError Built :=
  match loading.mode with
  | .startup opts =>
      match loading.readCache opts source with
      | .ok built => .ok built
      | .error (.secrets secretError) => .error secretError
      | .error (.text _) => .error (.remoteFile error)
  | _ => .error (.remoteFile error)

/-- The file as it is now, or what stands in for it. -/
def loadFresh (source : ConfigSource) : Except ChainError Built :=
  match loading.readFresh source with
  | .ok built => .ok built
  | .error (.secrets error) => .error error
  | .error (.text error) =>
      if source.isRemote then loading.standIn source error
      else .error (.localFile error)

def load (source : ConfigSource) : Except ChainError Built :=
  match loading.mode, source.isRemote with
  | .cacheOnly opts, true =>
      match loading.readCache opts source with
      | .ok built => .ok built
      | .error (.secrets error) => .error error
      | .error (.text error) => .error (.remoteFile error)
  | _, _ => loading.loadFresh source

end Loading

/-! ## The walk -/

/-- The files that are open, those that are finished, and the chain so
far. -/
structure Walk where
  stack : List String := []
  seen : List String := []
  order : List File := []
  deriving DecidableEq, Repr

namespace Walk

def push (key : String) (walk : Walk) : Walk :=
  { walk with stack := walk.stack ++ [key] }

/-- The file on top of the stack is finished. -/
def finish (key : String) (file : File) (walk : Walk) : Walk where
  stack := walk.stack.dropLast
  seen := walk.seen ++ [key]
  order := walk.order ++ [file]

end Walk

namespace Loading

variable (loading : Loading)

/-- A parent, by the reference that names it. -/
def visitParent
    (recur : Walk → ConfigSource → Except ChainError Walk)
    (source : ConfigSource) (walk : Walk) (reference : String) :
    Except ChainError Walk :=
  match source.join loading.host.urls reference.toList with
  | .error error => .error (.badReference error)
  | .ok parent => recur walk parent

/-- One file on the way, with the visits of its parents as `recur`. -/
def visitBody
    (recur : Walk → ConfigSource → Except ChainError Walk)
    (walk : Walk) (source : ConfigSource) : Except ChainError Walk :=
  let key := source.shown
  if key ∈ walk.stack then .error (.cycle walk.stack key)
  else if key ∈ walk.seen then .ok walk
  else if maxDepth ≤ walk.stack.length then .error (.tooDeep key)
  else if maxFiles ≤ walk.seen.length then .error (.tooManyFiles key)
  else
    match source.checkSupported loading.host with
    | .error error => .error (.unsupported error)
    | .ok () =>
        match loading.load source with
        | .error error => .error error
        | .ok built =>
            match built.layer.extending.foldlM
                (loading.visitParent recur source) (walk.push key) with
            | .error error => .error error
            | .ok walk =>
                .ok (walk.finish key
                  (⟨source, built.text, built.secrets⟩, built.layer))

/-- Visits nested at most this deep. -/
def visitWithin : Nat → Walk → ConfigSource → Except ChainError Walk
  | 0 => loading.visitBody fun _ source => .error (.tooDeep source.shown)
  | room + 1 => loading.visitBody (visitWithin room)

def visit : Walk → ConfigSource → Except ChainError Walk :=
  loading.visitWithin maxDepth

/-- Every file reachable from the roots, lowest priority first. -/
def walk (roots : List ConfigSource) : Except ChainError (List File) :=
  (roots.foldlM loading.visit {}).map Walk.order

end Loading

/-! ## Chains -/

def texts (files : List File) : Texts :=
  files.map fun file => (file.1.source.shown, file.1.text, file.1.secrets)

/-- Merges a walked chain into one config. -/
def merge (host : Host) (files : List File) : Except ChainError Config :=
  let anyLocal := files.any fun file => !file.1.source.isRemote
  match Config.fromLayers host.libraries (files.map fun file =>
      (some file.1.source.shown, file.2)) with
  | .ok config => .ok config
  | .error error => .error (.unmerged error anyLocal)

end Chain

end OpsSignal
