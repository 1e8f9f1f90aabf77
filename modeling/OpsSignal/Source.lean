import OpsSignal.Signal

/-!
# Configuration sources

Where `signal.yaml` comes from: the values of `$SIGNAL_CONFIG`, its lists,
and the `extends` entries of a file, each parsed into a source.

The URL parser of the HTTP client is library code; it is a parameter.
-/

namespace OpsSignal

/-- What the core reads of a parsed URL. -/
structure Url where
  scheme : List Char
  hostStr : Option (List Char)
  asStr : List Char
  deriving DecidableEq, Repr

/-- The URL parser of the HTTP client.  Errors carry their text. -/
structure UrlParser where
  parse : List Char → Except String Url
  join : Url → List Char → Except String Url
  /-- How a host is read: a domain, an IPv4 address or an IPv6 address in
  brackets. -/
  parseHost : List Char → Option (List Char)

inductive ConfigSource where
  | file (path : List Char)
  | http (url : List Char)
  | s3 (bucket key : List Char)
  | gcs (bucket object : List Char)
  | azure (container blob : List Char)
  | appConfig (application environment profile : List Char)
  | azureAppConfig (store key : List Char) (label : Option (List Char))
  | dynamoDb (table id : List Char) (key value : Option (List Char))
  | firestore (project document : List Char)
      (database field : Option (List Char))
  | cosmos (account database container id : List Char)
      (pk field : Option (List Char))
  deriving DecidableEq, Repr

/-- The hosts plain HTTP is allowed for. -/
def loopbackHosts : List (List Char) :=
  ["localhost".toList, "127.0.0.1".toList, "[::1]".toList]

/-- `str::contains`. -/
def containsText (wanted : List Char) : List Char → Bool
  | [] => wanted.isEmpty
  | c :: text =>
      (stripPrefix wanted (c :: text)).isSome || containsText wanted text

def configError {Value : Type} (message : String) :
    Except SignalError Value :=
  .error (.config message)

/-! ## Parsing -/

/-- What follows a scheme, and the whole value for messages. -/
abbrev SchemeParser :=
  List Char → List Char → Except SignalError ConfigSource

def splitBucket (rest raw : List Char) :
    Except SignalError (List Char × List Char) :=
  let expected := configError
    (String.ofList raw ++
      ": expected <scheme>://<bucket>/<path to signal.yaml>")
  match splitOnce '/' rest with
  | some (bucket, key) =>
      if bucket ≠ [] ∧ key ≠ [] then .ok (bucket, key) else expected
  | none => expected

/-- One parameter of a query, put into its slot. -/
def takeParameter
    (raw : List Char) (allowed : List String)
    (values : List (Option (List Char))) (pair : List Char) :
    Except SignalError (List (Option (List Char))) :=
  let parts := (splitOnce '=' pair).getD (pair, [])
  let slot := (allowed.findIdx? fun name => name.toList = parts.1).filter
    fun index => values.getD index none = none ∧ parts.2 ≠ []
  match slot with
  | some index => .ok (values.set index (some parts.2))
  | none =>
      configError
        (String.ofList raw ++ ": unexpected '" ++ String.ofList pair ++
          "' (allowed once each, with a value: " ++
          String.intercalate ", " (allowed.map fun name => name ++ "=") ++
          ")")

/-- `split_query`. -/
def splitQuery (rest raw : List Char) (allowed : List String) :
    Except SignalError (List Char × List (Option (List Char))) :=
  let unset : List (Option (List Char)) := allowed.map fun _ => none
  match splitOnce '?' rest with
  | some (path, query) =>
      ((splitOn '&' query).foldlM (takeParameter raw allowed) unset).map
        fun values => (path, values)
  | none => .ok (rest, unset)

def parseS3 : SchemeParser := fun rest raw =>
  (splitBucket rest raw).map fun (bucket, key) => .s3 bucket key

def parseGcs : SchemeParser := fun rest raw =>
  (splitBucket rest raw).map fun (bucket, object) => .gcs bucket object

def parseAzure : SchemeParser := fun rest raw =>
  (splitBucket rest raw).map fun (container, blob) => .azure container blob

def parseAppConfig : SchemeParser := fun rest raw =>
  let expected := configError
    (String.ofList raw ++
      ": expected appconfig://<application>/<environment>/" ++
      "<configuration profile>")
  match splitOn '/' rest with
  | [application, environment, profile] =>
      if application ≠ [] ∧ environment ≠ [] ∧ profile ≠ [] then
        .ok (.appConfig application environment profile)
      else
        expected
  | _ => expected

def parseAzureAppConfig : SchemeParser := fun rest raw => do
  let (path, values) ← splitQuery rest raw ["label"]
  let (store, key) ← splitBucket path raw
  return .azureAppConfig store key (values.getD 0 none)

def parseDynamoDb : SchemeParser := fun rest raw => do
  let (path, values) ← splitQuery rest raw ["key", "value"]
  let expected := configError
    (String.ofList raw ++ ": expected dynamodb://<table>/<item id>")
  match splitOnce '/' path with
  | some (table, id) =>
      if table ≠ [] ∧ id ≠ [] ∧ '/' ∉ id then
        .ok (.dynamoDb table id (values.getD 0 none) (values.getD 1 none))
      else
        expected
  | none => expected

def parseFirestore : SchemeParser := fun rest raw => do
  let (path, values) ← splitQuery rest raw ["database", "field"]
  let (project, document) ← splitBucket path raw
  let segments := splitOn '/' document
  if segments.length % 2 ≠ 0 ∨ segments.any List.isEmpty then
    configError
      (String.ofList raw ++
        ": expected firestore://<project>/<collection>/<document>")
  else
    return .firestore project document (values.getD 0 none)
      (values.getD 1 none)

def parseCosmos : SchemeParser := fun rest raw => do
  let (path, values) ← splitQuery rest raw ["pk", "field"]
  let expected := configError
    (String.ofList raw ++
      ": expected cosmos://<account>/<database>/<container>/<item id>")
  match splitOn '/' path with
  | [account, database, container, id] =>
      if account ≠ [] ∧ database ≠ [] ∧ container ≠ [] ∧ id ≠ [] then
        .ok (.cosmos account database container id (values.getD 0 none)
          (values.getD 1 none))
      else
        expected
  | _ => expected

def parseHttps : SchemeParser := fun _ raw =>
  .ok (.http raw)

/-- The authority's host as `parse` reads it. -/
def plainHost (rest : List Char) : List Char :=
  let authority := (splitOn '/' rest).headD []
  match authority.idxOf? ']' with
  | some stop =>
      if authority.head? = some '[' then
        authority.take (stop + 1)
      else
        (splitOn ':' authority).headD []
  | none => (splitOn ':' authority).headD []

/-- Plain HTTP would let anyone on the path rewrite the routing rules, so
it is allowed only for local testing. -/
def parseHttp : SchemeParser := fun rest raw =>
  if plainHost rest ∈ loopbackHosts then
    .ok (.http raw)
  else
    configError
      (String.ofList raw ++
        ": plain http:// is only allowed for localhost; use https://")

/-- The schemes of cloud stores, in the order they are tried. -/
def cloudParsers : List (String × SchemeParser) :=
  [("s3://", parseS3), ("gs://", parseGcs), ("az://", parseAzure),
    ("appconfig://", parseAppConfig),
    ("azappconfig://", parseAzureAppConfig),
    ("dynamodb://", parseDynamoDb), ("firestore://", parseFirestore),
    ("cosmos://", parseCosmos)]

def schemeParsers : List (String × SchemeParser) :=
  cloudParsers ++ [("https://", parseHttps), ("http://", parseHttp)]

namespace ConfigSource

/-- What a trimmed value without a known scheme is. -/
def parsePath (raw : List Char) : Except SignalError ConfigSource :=
  if containsText "://".toList raw then
    configError
      (String.ofList raw ++
        ": unsupported scheme (use a local path, https://, s3://, gs://, " ++
        "az://, appconfig://, azappconfig://, dynamodb://, firestore:// " ++
        "or cosmos://)")
  else
    .ok (.file raw)

def parse (raw : List Char) : Except SignalError ConfigSource :=
  let raw := trim raw
  let known := schemeParsers.findSome? fun entry =>
    (stripPrefix entry.1.toList raw).map fun rest => entry.2 rest raw
  known.getD (parsePath raw)

def parseList (raw : List Char) :
    Except SignalError (List ConfigSource) := do
  let values := ((splitOn ',' raw).map trim).filter fun text => text ≠ []
  let sources ← values.mapM parse
  if sources = [] then
    configError ("'" ++ String.ofList raw ++ "' names no config file")
  else
    return sources

/-! ## Display -/

/-- `write_query`. -/
def queryText (pairs : List (String × Option (List Char))) : List Char :=
  let given := pairs.filterMap fun pair =>
    pair.2.map fun value => pair.1.toList ++ '=' :: value
  match given with
  | [] => []
  | first :: rest => '?' :: first ++ rest.flatMap fun text => '&' :: text

/-- The segments of a URL after its scheme. -/
def urlText (scheme : String) (segments : List (List Char)) : List Char :=
  scheme.toList ++ "://".toList ++ List.intercalate ['/'] segments

def display : ConfigSource → List Char
  | .file path => path
  | .http url => url
  | .s3 bucket key => urlText "s3" [bucket, key]
  | .gcs bucket object => urlText "gs" [bucket, object]
  | .azure container blob => urlText "az" [container, blob]
  | .appConfig application environment profile =>
      urlText "appconfig" [application, environment, profile]
  | .azureAppConfig store key label =>
      urlText "azappconfig" [store, key] ++ queryText [("label", label)]
  | .dynamoDb table id key value =>
      urlText "dynamodb" [table, id] ++
        queryText [("key", key), ("value", value)]
  | .firestore project document database field =>
      urlText "firestore" [project, document] ++
        queryText [("database", database), ("field", field)]
  | .cosmos account database container id pk field =>
      urlText "cosmos" [account, database, container, id] ++
        queryText [("pk", pk), ("field", field)]

/-- `to_string`. -/
def shown (source : ConfigSource) : String :=
  String.ofList source.display

def scheme : ConfigSource → String
  | .file _ => "file"
  | .http url =>
      if (stripPrefix "http://".toList url).isSome then "http" else "https"
  | .s3 .. => "s3"
  | .gcs .. => "gs"
  | .azure .. => "az"
  | .appConfig .. => "appconfig"
  | .azureAppConfig .. => "azappconfig"
  | .dynamoDb .. => "dynamodb"
  | .firestore .. => "firestore"
  | .cosmos .. => "cosmos"

def isRemote : ConfigSource → Bool
  | .file _ => false
  | _ => true

end ConfigSource

/-! ## Paths -/

/-- `std::path::Component`, on Unix. -/
inductive Component where
  | rootDir
  | curDir
  | parentDir
  | normal (name : List Char)
  deriving DecidableEq, Repr

/-- One piece of a path.  Empty pieces and `.` are dropped. -/
def componentOf (piece : List Char) : Option Component :=
  if piece = [] ∨ piece = ['.'] then none
  else if piece = ['.', '.'] then some .parentDir
  else some (.normal piece)

/-- `Path::components`: only a leading `.` is kept. -/
def components (path : List Char) : List Component :=
  let pieces := splitOn '/' path
  let first :=
    if path.head? = some '/' then [Component.rootDir]
    else if pieces.head? = some ['.'] then [Component.curDir]
    else []
  first ++ pieces.filterMap componentOf

/-- `Path::parent`, or the empty path. -/
def parentComponents (path : List Char) : List Component :=
  let parts := components path
  if parts.getLast? = some .rootDir then [] else parts.dropLast

/-- One turn of `normalize`. -/
def pushComponent (out : List Component) (part : Component) :
    List Component :=
  match part, out.getLast? with
  | .curDir, _ => out
  | .parentDir, some (.normal _) => out.dropLast
  | _, _ => out ++ [part]

def Component.text : Component → List Char
  | .rootDir => []
  | .curDir => ['.']
  | .parentDir => ['.', '.']
  | .normal name => name

/-- The path of normalized components. -/
def pathText (parts : List Component) : List Char :=
  if parts = [.rootDir] then ['/']
  else List.intercalate ['/'] (parts.map Component.text)

/-- `normalize`. -/
def normalize (parts : List Component) : List Char :=
  pathText (parts.foldl pushComponent [])

/-! ## Joining -/

namespace ConfigSource

/-- `flat_name`: a relative entry that names a sibling item. -/
def flatName (self : ConfigSource) (reference : List Char) :
    Except SignalError (List Char) :=
  if reference = [] ∨ '/' ∈ reference ∨ '?' ∈ reference then
    configError
      (self.shown ++ ": '" ++ String.ofList reference ++
        "' is not an item id; use a full " ++ self.scheme ++ ":// URL")
  else
    .ok reference

/-- One segment of a reference, against the segments so far. -/
def joinSegment
    (self : ConfigSource) (reference : List Char)
    (parts : List (List Char)) (segment : List Char) :
    Except SignalError (List (List Char)) :=
  if segment = [] ∨ segment = ['.'] then .ok parts
  else if segment = ['.', '.'] then
    if parts = [] then
      configError
        (self.shown ++ ": '" ++ String.ofList reference ++
          "' points outside the bucket")
    else
      .ok parts.dropLast
  else .ok (parts ++ [segment])

/-- `join_key`: a reference resolved against the directory of an
object. -/
def joinKey (self : ConfigSource) (key reference : List Char) :
    Except SignalError (List Char) := do
  let parts ← (splitOn '/' reference).foldlM
    (self.joinSegment reference) (splitOn '/' key).dropLast
  if parts = [] then
    configError
      (self.shown ++ ": '" ++ String.ofList reference ++
        "' does not name a file")
  else
    return List.intercalate ['/'] parts

/-- A relative entry of an HTTP file. -/
def joinUrl
    (urls : UrlParser) (self : ConfigSource) (url reference : List Char) :
    Except SignalError ConfigSource :=
  match (urls.parse url).bind fun base => urls.join base reference with
  | .ok joined => parse joined.asStr
  | .error message =>
      configError
        (self.shown ++ ": cannot resolve '" ++ String.ofList reference ++
          "': " ++ message)

/-- A relative entry, by the kind of the file that holds it. -/
def joinRelative
    (urls : UrlParser) (self : ConfigSource) (reference : List Char) :
    Except SignalError ConfigSource :=
  match self with
  | .file path =>
      .ok (.file (normalize
        (parentComponents path ++ components reference)))
  | .http url => joinUrl urls self url reference
  | .s3 bucket key => (self.joinKey key reference).map (.s3 bucket)
  | .gcs bucket object => (self.joinKey object reference).map (.gcs bucket)
  | .azure container blob =>
      (self.joinKey blob reference).map (.azure container)
  | .appConfig application environment _ =>
      if reference = [] ∨ '/' ∈ reference then
        configError
          (self.shown ++ ": '" ++ String.ofList reference ++
            "' is not a profile name; use a full appconfig:// URL")
      else
        .ok (.appConfig application environment reference)
  | .azureAppConfig store key label =>
      (self.joinKey key reference).map fun key =>
        .azureAppConfig store key label
  | .dynamoDb table _ key value =>
      (self.flatName reference).map fun id => .dynamoDb table id key value
  | .firestore project document database field => do
      let document ← self.joinKey document reference
      if (splitOn '/' document).length % 2 ≠ 0 then
        configError
          (self.shown ++ ": '" ++ String.ofList reference ++
            "' is a collection, not a document")
      else
        return .firestore project document database field
  | .cosmos account database container _ _ field =>
      (self.flatName reference).map fun id =>
        .cosmos account database container id none field

/-- A URL or an absolute path is taken as is. -/
def resolve
    (urls : UrlParser) (self : ConfigSource) (reference : List Char) :
    Except SignalError ConfigSource :=
  if containsText "://".toList reference ∨ reference.head? = some '/' then
    parse reference
  else
    joinRelative urls self reference

/-- `join`: a remote file may only extend other remote files. -/
def join
    (urls : UrlParser) (self : ConfigSource) (reference : List Char) :
    Except SignalError ConfigSource := do
  let joined ← resolve urls self (trim reference)
  if self.isRemote ∧ ¬ joined.isRemote then
    configError
      (self.shown ++ ": a remote config cannot extend the local file " ++
        joined.shown)
  else
    return joined

end ConfigSource

/-- `check_endpoint`: an override must be HTTPS, or plain HTTP to a
loopback host. -/
def checkEndpoint (urls : UrlParser) (url : List Char) :
    Except SignalError Unit :=
  match urls.parse url with
  | .error message => configError (String.ofList url ++ ": " ++ message)
  | .ok parsed =>
      let loopback := loopbackHosts.any fun host =>
        parsed.hostStr = some host
      if parsed.scheme = "https".toList ∨
          (parsed.scheme = "http".toList ∧ loopback) then
        .ok ()
      else
        configError
          (String.ofList url ++
            ": endpoints must use https:// (plain http:// only for " ++
            "localhost)")

/-- The host `fetch_http` sends its request to, if the URL is one. -/
def requestHost (urls : UrlParser) (url : List Char) :
    Option (List Char) :=
  (urls.parse url).toOption.bind Url.hostStr

/-- A source the configuration can name. -/
inductive Named (urls : UrlParser) : ConfigSource → Prop
  | parsed {raw : List Char} {source : ConfigSource} :
      ConfigSource.parse raw = .ok source → Named urls source
  | listed {raw : List Char} {sources : List ConfigSource}
      {source : ConfigSource} :
      ConfigSource.parseList raw = .ok sources → source ∈ sources →
        Named urls source
  | joined {self source : ConfigSource} {reference : List Char} :
      self.join urls reference = .ok source → Named urls source

end OpsSignal
