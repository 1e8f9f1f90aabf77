import OpsSignal.Throttle

/-!
# Groups

Route `group_by` and `group_wait`: the open groups of a client, and the
digest a closed group is sent as.
-/

namespace OpsSignal

def maxGroupSize : Nat := 500

/-- How many members a digest's message lists before "and N more". -/
def listedInMessage : Nat := 20

/-- How many members a digest lists in its metadata. -/
def listedInMetadata : Nat := 100

/-- A signal held in a group.  It owns its row if its stored outcome waits
on the digest. -/
structure Member where
  signal : Signal
  admission : Admission
  ownsRow : Bool

/-- The fields a group goes by, with the values its members share. -/
abbrev GroupValues := List (String × Option String)

/-- A group taken out of the open set.  It has a first member. -/
structure Closed where
  route : Route
  by_ : GroupValues
  members : List Member
  nonempty : members ≠ []

structure OpenGroup extends Closed where
  seq : Nat

/-! ## The group of a signal -/

/-- `Value::get` on a name. -/
def Json.get (name : String) : Json → Option Json
  | .object fields => fields.lookup name
  | _ => none

/-- `field_value`: a signal field, or a dotted path into its metadata. -/
def fieldValue (signal : Signal) (field : String) : Option String :=
  match stripPrefix "metadata.".toList field.toList with
  | some path =>
      let found := (splitOn '.' path).foldlM
        (fun value part => Json.get (String.ofList part) value)
        signal.metadata
      match found with
      | none | some .null => none
      | some (.string text) => some text
      | some other => some other.text
  | none =>
      match field with
      | "source" => some signal.source
      | "service" => signal.service
      | "component" => signal.component
      | "event_type" => some signal.eventType
      | "severity" => some signal.severity.display
      | "title" => some signal.title
      | "environment" => signal.environment
      | "team" => signal.team
      | "run_id" => signal.runId
      | "correlation_id" => signal.correlationId
      | "dedup_key" => signal.dedupKey
      | _ => none

def groupValues (route : Route) (signal : Signal) : GroupValues :=
  (route.groupBy.getD []).map fun field => (field, fieldValue signal field)

def GroupValues.serialize (values : GroupValues) : Json :=
  .array (values.map fun (field, value) =>
    .array [.string field, optionalText value])

def groupKey (platform : Platform) (route : Route) (values : GroupValues) :
    String :=
  routeKey platform route ++ "\n" ++ values.serialize.text

/-! ## Open groups -/

/-- The open groups by key, and the number of groups opened so far. -/
structure Groups where
  opened : List (String × OpenGroup) := []
  nextSeq : Nat := 0

/-- What adding a signal did. -/
inductive Added where
  | joined
  | opened (key : String) (seq : Nat) (wait : Window)
  | full (closed : Closed)

def OpenGroup.push (group : OpenGroup) (member : Member) : OpenGroup where
  route := group.route
  by_ := group.by_
  members := group.members ++ [member]
  nonempty := by simp
  seq := group.seq

/-- A group of its first member. -/
def OpenGroup.start
    (seq : Nat) (route : Route) (values : GroupValues) (member : Member) :
    OpenGroup where
  route := route
  by_ := values
  members := [member]
  nonempty := by simp
  seq := seq

namespace Groups

/-- Where the group of a key stands. -/
def find (key : String) (groups : Groups) : Option Nat :=
  groups.opened.findIdx? fun entry => entry.1 == key

/-- Takes one group out. -/
def remove (index : Nat) (groups : Groups) : Groups :=
  { groups with opened := groups.opened.eraseIdx index }

/-- Opens a group with its first member. -/
def openNew
    (key : String) (route : Route) (values : GroupValues) (member : Member)
    (groups : Groups) : Groups × Added :=
  let seq := groups.nextSeq + 1
  ({ opened := groups.opened ++
        [(key, OpenGroup.start seq route values member)]
     nextSeq := seq },
    .opened key seq (route.groupWindow.getD ⟨0⟩))

/-- Adds a member to an open group.  A group this full is sent at once. -/
def joinAt
    (index : Nat) (key : String) (group : OpenGroup) (member : Member)
    (groups : Groups) : Groups × Added :=
  let joined := group.push member
  if joined.members.length < maxGroupSize then
    ({ groups with opened := groups.opened.set index (key, joined) },
      .joined)
  else
    (groups.remove index, .full joined.toClosed)

def add
    (platform : Platform) (route : Route) (member : Member)
    (groups : Groups) : Groups × Added :=
  let values := groupValues route member.signal
  let key := groupKey platform route values
  match (groups.find key).bind fun index =>
      groups.opened[index]?.map fun entry => (index, entry.2) with
  | some (index, group) => groups.joinAt index key group member
  | none => groups.openNew key route values member

/-- `take`: closes the group if it is still the one opened as `seq`. -/
def take (key : String) (seq : Nat) (groups : Groups) :
    Option (Groups × Closed) :=
  match (groups.find key).bind fun index =>
      groups.opened[index]?.map fun entry => (index, entry.2) with
  | some (index, group) =>
      if group.seq = seq then
        some (groups.remove index, group.toClosed)
      else
        none
  | none => none

/-- `take_all`. -/
def takeAll (groups : Groups) : Groups × List Closed :=
  ({ groups with opened := [] },
    groups.opened.map fun entry => entry.2.toClosed)

end Groups

/-! ## The digest -/

def Severity.rank : Severity → Nat
  | .info => 0
  | .success => 1
  | .warning => 2
  | .error => 3
  | .critical => 4

/-- The higher of two severities; of equals, the later one. -/
def Severity.higher (first second : Severity) : Severity :=
  if first.rank ≤ second.rank then second else first

namespace Closed

/-- The member that opened the group. -/
def first (closed : Closed) : Signal :=
  (closed.members.head closed.nonempty).signal

def single (closed : Closed) : Bool :=
  closed.members.length == 1

/-- `common`: the value every member shares, if they all do. -/
def common (closed : Closed) (get : Signal → Option String) :
    Option String :=
  match get closed.first with
  | none => none
  | some value =>
      if closed.members.all fun member => get member.signal = some value then
        some value
      else
        none

def severity (closed : Closed) : Severity :=
  (closed.members.map fun member => member.signal.severity).foldl
    Severity.higher .info

/-- One line for each of the first members. -/
def lines (closed : Closed) : List String :=
  let listed := (closed.members.take listedInMessage).map fun member =>
    "- [" ++ member.signal.severity.display ++ "] " ++ member.signal.title
  if listedInMessage < closed.members.length then
    listed ++
      ["...and " ++ toString (closed.members.length - listedInMessage) ++
        " more"]
  else
    listed

/-- The first and the last time of the members. -/
def firstAt (closed : Closed) : Int :=
  (closed.members.map fun member => member.signal.timestamp).foldl min
    closed.first.timestamp

def lastAt (closed : Closed) : Int :=
  (closed.members.map fun member => member.signal.timestamp).foldl max
    closed.first.timestamp

/-- A field of a sorted map; a later value replaces an earlier one. -/
def insertField (field : String × Json) :
    List (String × Json) → List (String × Json)
  | [] => [field]
  | other :: rest =>
      if field.1 = other.1 then field :: rest
      else if field.1 < other.1 then field :: other :: rest
      else other :: insertField field rest

def memberJson (platform : Platform) (signal : Signal) : Json :=
  .object
    [("event_type", .string signal.eventType),
      ("id", .string signal.id),
      ("severity", .string signal.severity.display),
      ("source", .string signal.source),
      ("timestamp", .string (platform.showTime signal.timestamp)),
      ("title", .string signal.title)]

def metadata (platform : Platform) (closed : Closed) : Json :=
  let group := closed.by_.foldl
    (fun fields entry => insertField (entry.1, optionalText entry.2) fields)
    []
  .object
    [("digest", .object
      [("count", .number (toString closed.members.length)),
        ("first_at", .string (platform.showTime closed.firstAt)),
        ("group", .object group),
        ("last_at", .string (platform.showTime closed.lastAt)),
        ("signals", .array
          ((closed.members.take listedInMetadata).map fun member =>
            memberJson platform member.signal))])]

def digestKey (platform : Platform) (closed : Closed) : String :=
  "digest:" ++
    platform.sha256 (groupKey platform closed.route closed.by_)

/-- What the digest of a group of two or more is built from. -/
def digestInput (platform : Platform) (closed : Closed) : SignalInput where
  source :=
    (closed.common fun signal => some signal.source).getD "opssignal"
  service := closed.common Signal.service
  component := closed.common Signal.component
  eventType :=
    (closed.common fun signal => some signal.eventType).getD "digest"
  severity := closed.severity
  title := closed.first.title ++ " (+" ++
    toString (closed.members.length - 1) ++ " more)"
  message := some (String.intercalate "\n" closed.lines)
  environment := closed.common Signal.environment
  team := closed.common Signal.team
  runId := closed.common Signal.runId
  correlationId := closed.common Signal.correlationId
  traceId := closed.common Signal.traceId
  logUrl := closed.common Signal.logUrl
  metadata := some (closed.metadata platform)
  dedupKey := some (closed.digestKey platform)

/-- `digest`. -/
def digest
    (platform : Platform) (id : String) (timestamp : Int)
    (closed : Closed) : Signal :=
  Signal.fromInput platform id timestamp (closed.digestInput platform)

end Closed

end OpsSignal
