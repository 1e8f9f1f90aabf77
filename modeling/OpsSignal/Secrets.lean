import OpsSignal.Chain
import OpsSignal.Group

/-!
# Secret references

A reference `store:path#field` names a secret of one of three stores.  What
is fetched and cached is its address without the field, printed and parsed
again on the way; `resolve` then reads the field.

What the stores answer is a parameter, and changes with time.  The JSON
parser is library code.
-/

namespace OpsSignal

/-- `STORES`. -/
inductive Store where
  | awsSm
  | gcpSm
  | azureKv
  deriving DecidableEq, Repr

namespace Store

def all : List Store :=
  [.awsSm, .gcpSm, .azureKv]

def scheme : Store → List Char
  | .awsSm => ['a', 'w', 's', '-', 's', 'm']
  | .gcpSm => ['g', 'c', 'p', '-', 's', 'm']
  | .azureKv => ['a', 'z', 'u', 'r', 'e', '-', 'k', 'v']

/-- What a path of the store looks like, for error messages. -/
def hint : Store → String
  | .awsSm => "aws-sm:<secret name or ARN>"
  | .gcpSm =>
      "gcp-sm:<project>/<secret>[/<version>] or " ++
        "gcp-sm:projects/<p>/secrets/<s>/versions/<v>"
  | .azureKv => "azure-kv:<vault>/<name>[/<version>]"

end Store

/-- `str::rsplit_once` on one character. -/
def rsplitOnce (separator : Char) (text : List Char) :
    Option (List Char × List Char) :=
  (splitOnce separator text.reverse).map fun (after, before) =>
    (before.reverse, after.reverse)

/-! ## Paths -/

/-- The version of a path that names none. -/
def latestVersion : List Char := ['l', 'a', 't', 'e', 's', 't']

/-- `(project, secret, version)` from either path form. -/
def gcpName (path : List Char) :
    Option (List Char × List Char × List Char) :=
  let named :=
    match splitOn '/' path with
    | [first, project, second, secret, third, version] =>
        if first = "projects".toList ∧ second = "secrets".toList ∧
            third = "versions".toList then
          some (project, secret, version)
        else
          none
    | [first, project, second, secret] =>
        if first = "projects".toList ∧ second = "secrets".toList then
          some (project, secret, latestVersion)
        else
          none
    | [project, secret, version] => some (project, secret, version)
    | [project, secret] => some (project, secret, latestVersion)
    | _ => none
  named.filter fun (project, secret, version) =>
    project ≠ [] ∧ secret ≠ [] ∧ version ≠ []

/-- `(vault, name, version)`; an empty version is the current one. -/
def azureName (path : List Char) :
    Option (List Char × List Char × List Char) :=
  let named :=
    match splitOn '/' path with
    | [vault, name] => some (vault, name, [])
    | [vault, name, version] =>
        if version ≠ [] then some (vault, name, version) else none
    | _ => none
  named.filter fun (vault, name, _) => vault ≠ [] ∧ name ≠ []

/-- What a store is asked for. -/
inductive Address where
  | aws (id : List Char)
  | gcp (project secret version : List Char)
  | azure (vault name version : List Char)
  deriving DecidableEq, Repr

/-- The address of a path, if the store has such paths. -/
def addressOf : Store → List Char → Option Address
  | .awsSm, path => if path = [] then none else some (.aws path)
  | .gcpSm, path =>
      (gcpName path).map fun (project, secret, version) =>
        .gcp project secret version
  | .azureKv, path =>
      (azureName path).map fun (vault, name, version) =>
        .azure vault name version

/-- A parsed reference; its path has passed `check_path`. -/
structure SecretRef where
  scheme : Store
  path : List Char
  field : Option (List Char)
  checked : (addressOf scheme path).isSome
  deriving DecidableEq, Repr

namespace SecretRef

/-- The reference without its field. -/
def urlOf (scheme : Store) (path : List Char) : List Char :=
  scheme.scheme ++ ':' :: path

def url (reference : SecretRef) : List Char :=
  urlOf reference.scheme reference.path

def address (reference : SecretRef) : Address :=
  (addressOf reference.scheme reference.path).get reference.checked

/-- `check_path`. -/
def checkPath (scheme : Store) (path : List Char)
    (field : Option (List Char)) : Except SignalError SecretRef :=
  if checked : (addressOf scheme path).isSome then
    .ok ⟨scheme, path, field, checked⟩
  else
    configError ("$\x7b" ++ String.ofList (urlOf scheme path) ++
      "\x7d: expected " ++ scheme.hint)

def parse (name : List Char) : Except SignalError SecretRef :=
  match splitOnce ':' name with
  | none =>
      configError ("'" ++ String.ofList name ++
        "' is not a secret reference")
  | some (scheme, rest) =>
      match Store.all.find? fun store => store.scheme = scheme with
      | none =>
          configError ("unknown secret store '" ++ String.ofList scheme ++
            "' in $\x7b" ++ String.ofList name ++
            "\x7d; use aws-sm, gcp-sm or azure-kv")
      | some store =>
          -- The last '#' starts the field.
          match rsplitOnce '#' rest with
          | some (path, field) =>
              if field = [] then
                configError ("empty #field in $\x7b" ++
                  String.ofList name ++ "\x7d")
              else
                checkPath store path (some field)
          | none => checkPath store rest none

end SecretRef

/-! ## Reading a secret -/

/-- The text of a secret. -/
abbrev SecretText := List Char

/-- Which stores this build reads itself, and for which an add-on is
registered. -/
structure Installation where
  native : Store → Bool
  addOn : Store → Bool

namespace Installation

variable (installation : Installation)

/-- A missing add-on is an install problem. -/
def checkSupported (reference : SecretRef) : Except SignalError Unit :=
  if installation.native reference.scheme ||
      installation.addOn reference.scheme then
    .ok ()
  else
    configError ("$\x7b" ++ String.ofList reference.url ++ "\x7d: " ++
      missingSupport (String.ofList reference.scheme.scheme))

/-- `fetch_blocking` of an add-on package, which reads the stores
itself. -/
def fetchBlocking
    (stored : Address → Except SignalError SecretText) (url : List Char) :
    Except String SecretText :=
  ((SecretRef.parse url).bind fun reference =>
    stored reference.address).mapError SignalError.message

/-- Reads one secret without the cache. -/
def read
    (stored : Address → Except SignalError SecretText) (url : List Char) :
    Except SignalError SecretText :=
  (SecretRef.parse url).bind fun reference =>
    if installation.native reference.scheme then
      stored reference.address
    else if installation.addOn reference.scheme then
      (fetchBlocking stored reference.url).mapError .config
    else
      configError
        (missingSupport (String.ofList reference.scheme.scheme))

end Installation

/-! ## The cache -/

/-- What was read at an address, and when. -/
abbrev SecretCache := List Char → Option (Nat × SecretText)

/-- What the stores answer, at each time. -/
abbrev StoreHistory := Nat → Address → Except SignalError SecretText

section

variable (installation : Installation) (stored : StoreHistory) (ttl : Nat)

def cachedRead (now : Nat) (url : List Char) (cache : SecretCache) :
    Except SignalError SecretText × SecretCache :=
  match (cache url).filter fun entry => now - entry.1 < ttl with
  | some (_, value) => (.ok value, cache)
  | none =>
      match installation.read (stored now) url with
      | .error error => (.error error, cache)
      | .ok value =>
          (.ok value,
            if ttl = 0 then cache
            else Function.update cache url (some (now, value)))

/-! ## Resolving names -/

/-- The JSON parser. -/
abbrev JsonParser := SecretText → Option Json

def jsonField (parseJson : JsonParser) (secret field : SecretText) :
    Except String SecretText :=
  match parseJson secret with
  | none =>
      .error ("the secret is not JSON, so it has no field '" ++
        String.ofList field ++ "'")
  | some value =>
      match value.get (String.ofList field) with
      | some (.string text) => .ok text.toList
      | some .null | none =>
          .error ("the secret has no field '" ++ String.ofList field ++ "'")
      | some other => .ok other.text.toList

/-- The value of a reference, of the whole text at its address. -/
def fieldOf (parseJson : JsonParser) (reference : SecretRef)
    (secret : SecretText) : Except String SecretText :=
  match reference.field with
  | some field => jsonField parseJson secret field
  | none => .ok secret

/-- What a resolution has read so far, by address, and the values so
far. -/
structure Resolving where
  raw : List (List Char × SecretText) := []
  values : Values := []
  cache : SecretCache

/-- `HashMap::insert`. -/
def insertValue (name value : String) (values : Values) : Values :=
  values.filter (fun entry => entry.1 ≠ name) ++ [(name, value)]

/-- The text at an address, read at most once. -/
def readRaw (now : Nat) (reference : SecretRef) (resolving : Resolving) :
    Except ResolveError SecretText × Resolving :=
  match resolving.raw.lookup reference.url with
  | some value => (.ok value, resolving)
  | none =>
      let (answer, cache) :=
        cachedRead installation stored ttl now reference.url resolving.cache
      match answer with
      | .error error =>
          (.error
            ⟨configErr ("$\x7b" ++ String.ofList reference.url ++ "\x7d: " ++
              error.message), false⟩,
            { resolving with cache := cache })
      | .ok value =>
          (.ok value,
            { resolving with
              raw := (reference.url, value) :: resolving.raw
              cache := cache })

/-- One turn of the second loop of `resolve`. -/
def resolveOne (parseJson : JsonParser) (now : Nat)
    (entry : String × SecretRef) (resolving : Resolving) :
    Except ResolveError Unit × Resolving :=
  match readRaw installation stored ttl now entry.2 resolving with
  | (.error error, resolving) => (.error error, resolving)
  | (.ok secret, resolving) =>
      match fieldOf parseJson entry.2 secret with
      | .error message =>
          (.error ⟨configErr ("$\x7b" ++ entry.1 ++ "\x7d: " ++ message),
            false⟩, resolving)
      | .ok value =>
          (.ok (), { resolving with
            values := insertValue entry.1 (String.ofList value)
              resolving.values })

/-- The second loop; each turn has its own time. -/
def resolveLoop (parseJson : JsonParser) :
    List (Nat × String × SecretRef) → Resolving →
      Except ResolveError Unit × Resolving
  | [], resolving => (.ok (), resolving)
  | (now, entry) :: rest, resolving =>
      match resolveOne installation stored ttl parseJson now entry
          resolving with
      | (.error error, resolving) => (.error error, resolving)
      | (.ok (), resolving) => resolveLoop parseJson rest resolving

/-- The first loop: a malformed reference and a missing add-on are
fatal. -/
def parseRefs (names : List String) :
    Except ResolveError (List (String × SecretRef)) :=
  names.mapM fun name =>
    match SecretRef.parse name.toList with
    | .error error => .error ⟨error, true⟩
    | .ok reference =>
        match installation.checkSupported reference with
        | .error error => .error ⟨error, true⟩
        | .ok () => .ok (name, reference)

/-- `resolve`, with the time of each turn. -/
def resolve (parseJson : JsonParser) (names : List String)
    (clock : Nat → Nat) (cache : SecretCache) :
    Except ResolveError Values × SecretCache :=
  match parseRefs installation names with
  | .error error => (.error error, cache)
  | .ok refs =>
      let turns := refs.zipIdx.map fun (entry, turn) => (clock turn, entry)
      match resolveLoop installation stored ttl parseJson turns
          { cache := cache } with
      | (.error error, resolving) => (.error error, resolving.cache)
      | (.ok (), resolving) => (.ok resolving.values, resolving.cache)

end

end OpsSignal
