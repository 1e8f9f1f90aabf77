import OpsSignal.Group
import OpsSignal.SourceHost

/-!
# Conditional reads of Cosmos DB

`fetch_cosmos` keeps the last value and ETag of each item it has read, and
sends the ETag with the next read, so that an unchanged item costs a `304`.

The URL library, the JSON parser and what the account's server does are
parameters.  An ETag names one version of an item: the server changes it
with every write and puts it into the item as `_etag`.
-/

namespace OpsSignal

open Checks

/-! ## The read -/

/-- The arguments of `fetch_cosmos`. -/
structure CosmosRead where
  account : List Char
  database : List Char
  container : List Char
  id : List Char
  pk : Option (List Char)
  field : Option (List Char)
  deriving DecidableEq, Repr

namespace CosmosRead

/-- The property that holds the file. -/
def property (read : CosmosRead) : String :=
  String.ofList (read.field.getD "config".toList)

def partition (read : CosmosRead) : List Char :=
  read.pk.getD read.id

/-- `x-ms-documentdb-partitionkey`. -/
def partitionKey (read : CosmosRead) : Json :=
  .array [.string (String.ofList read.partition)]

end CosmosRead

/-- A request, as far as its answer can depend on it. -/
structure CosmosRequest where
  url : List Char
  authorization : List Char
  partitionKey : Json
  ifNoneMatch : Option String

/-- A response; reading its body can fail. -/
structure CosmosAnswer where
  status : Nat
  body : Except String (List UInt8)

/-- The libraries the read uses. -/
structure CosmosLibrary where
  urls : UrlParser
  /-- `path_segments_mut().extend`, then `to_string`; nothing when the URL
  cannot be a base. -/
  extendPath : Url → List (List Char) → Option (List Char)
  /-- `form_urlencoded::byte_serialize`. -/
  formEncode : List Char → List Char
  readJson : List UInt8 → Except String Json
  /-- `String::from_utf8_lossy`. -/
  lossyText : List UInt8 → List Char
  /-- How a status is written, such as `404 Not Found`. -/
  statusText : Nat → String

/-- What a call finds around it. -/
structure CosmosSetting where
  /-- `AZURE_COSMOS_ENDPOINT`. -/
  template : Option (List Char)
  token : List Char → Except SignalError (List Char)
  client : Except String Unit

/-- `str::replace`, with at most `fuel` characters to go. -/
def replaceText (wanted new : List Char) : Nat → List Char → List Char
  | 0, text => text
  | _ + 1, [] => []
  | fuel + 1, c :: text =>
      match stripPrefix wanted (c :: text) with
      | some rest => new ++ replaceText wanted new fuel rest
      | none => c :: replaceText wanted new fuel text

/-- The last value and ETag kept for each URL. -/
abbrev Etags := List Char → Option (String × String)

/-- What a call puts into the kept ETags. -/
structure KeptEtag where
  url : List Char
  etag : String
  value : String
  deriving DecidableEq, Repr

section Reading

variable (library : CosmosLibrary) (setting : CosmosSetting)

def cosmosEndpoint (account : List Char) :
    Except SignalError (List Char) :=
  match setting.template with
  | some template => do
      let endpoint :=
        replaceText "{account}".toList account template.length template
      checkEndpoint library.urls endpoint
      return endpoint.rdropWhile (· = '/')
  | none =>
      return "https://".toList ++ account ++ ".documents.azure.com".toList

/-- The URL of an item, which is also the key of its ETag. -/
def cosmosUrl (endpoint : List Char) (read : CosmosRead) :
    Except SignalError (List Char) :=
  match library.urls.parse endpoint with
  | .error message => configError message
  | .ok url =>
      match library.extendPath url
          ["dbs".toList, read.database, "colls".toList, read.container,
            "docs".toList, read.id] with
      | some url => .ok url
      | none =>
          configError
            (String.ofList endpoint ++ " cannot be a base URL")

/-- The request of a read, with the ETag that is kept for its URL. -/
def cosmosRequest (read : CosmosRead) (etags : Etags) :
    Except SignalError CosmosRequest := do
  let endpoint ← cosmosEndpoint library setting read.account
  let url ← cosmosUrl library endpoint read
  let token ← setting.token (endpoint ++ "/.default".toList)
  let authorization := library.formEncode
    ("type=aad&ver=1.0&sig=".toList ++ token)
  match setting.client with
  | .error message => configError message
  | .ok () =>
      return ⟨url, authorization, read.partitionKey,
        (etags url).map Prod.fst⟩

/-- `status_err`. -/
def statusError (status : Nat) (body : List UInt8) : SignalError :=
  let text := (trim (library.lossyText body)).take 300
  if text = [] then
    .config ("server returned " ++ library.statusText status)
  else
    .config ("server returned " ++ library.statusText status ++ ": " ++
      String.ofList text)

/-- `Value::as_str`. -/
def Json.asStr : Json → Option String
  | .string text => some text
  | _ => none

/-- The value of an item that was sent, and the ETag to keep it under. -/
def readItem (read : CosmosRead) (url : List Char) (item : Json) :
    Except SignalError (String × Option KeptEtag) :=
  match (item.get read.property).bind Json.asStr with
  | none =>
      configError
        ("item '" ++ String.ofList read.id ++ "' has no string property '" ++
          read.property ++ "' holding the config")
  | some value =>
      let etag := (item.get "_etag").bind Json.asStr
      .ok (value, etag.map fun etag => ⟨url, etag, value⟩)

/-- What the answer to a request gives, when something was kept for its
URL or not. -/
def readAnswer (read : CosmosRead) (url : List Char)
    (cached : Option (String × String)) (answer : CosmosAnswer) :
    Except SignalError (String × Option KeptEtag) :=
  match (if answer.status = 304 then cached else none) with
  | some kept => .ok (kept.2, none)
  | none =>
      match answer.body with
      | .error message => configError message
      | .ok body =>
          if answer.status = 404 then
            configError
              ("no item '" ++ String.ofList read.id ++
                "' with partition key '" ++ String.ofList read.partition ++
                "'")
          else if ¬ (200 ≤ answer.status ∧ answer.status < 300) then
            .error (statusError library answer.status body)
          else
            match library.readJson body with
            | .error message =>
                configError
                  ("unexpected Cosmos DB response: " ++ message)
            | .ok item => readItem read url item

/-- `fetch_cosmos`: the value, and what is kept of it.  `send` is the
network. -/
def fetchCosmos (send : CosmosRequest → Except String CosmosAnswer)
    (read : CosmosRead) (etags : Etags) :
    Except SignalError (String × Option KeptEtag) := do
  let request ← cosmosRequest library setting read etags
  match send request with
  | .error message => configError message
  | .ok answer =>
      readAnswer library read request.url (etags request.url) answer

/-- The URL a call reads. -/
def itemUrl (read : CosmosRead) : Except SignalError (List Char) := do
  let endpoint ← cosmosEndpoint library setting read.account
  cosmosUrl library endpoint read

end Reading

/-! ## The server -/

/-- An item is addressed by its URL and the partition key. -/
abbrev CosmosAddress := List Char × Json

/-- The versions an item ever has, by their ETags. -/
structure CosmosVersions where
  item : CosmosAddress → String → Json
  stamped : ∀ address etag,
    (item address etag).get "_etag" = some (.string etag)

/-- The value of a property in a version of an item. -/
def CosmosVersions.value (versions : CosmosVersions)
    (address : CosmosAddress) (etag property : String) : Option String :=
  ((versions.item address etag).get property).bind Json.asStr

/-- The ETag of every item that is there. -/
abbrev CosmosItems := CosmosAddress → Option String

/-- What a server that holds `items` can do with a request.  It answers
`304` only for the ETag the addressed item has now. -/
inductive CosmosAnswers (library : CosmosLibrary) (versions : CosmosVersions)
    (items : CosmosItems) (request : CosmosRequest) :
    Except String CosmosAnswer → Prop
  | unsent (message : String) :
      CosmosAnswers library versions items request (.error message)
  | notModified {etag : String} (body : Except String (List UInt8)) :
      items (request.url, request.partitionKey) = some etag →
        request.ifNoneMatch = some etag →
          CosmosAnswers library versions items request (.ok ⟨304, body⟩)
  | sent {etag : String} {status : Nat} {body : List UInt8} :
      items (request.url, request.partitionKey) = some etag →
        request.ifNoneMatch ≠ some etag → 200 ≤ status → status < 300 →
          library.readJson body = .ok (versions.item
            (request.url, request.partitionKey) etag) →
            CosmosAnswers library versions items request
              (.ok ⟨status, .ok body⟩)
  | cut {status : Nat} (message : String) : status ≠ 304 →
      CosmosAnswers library versions items request
        (.ok ⟨status, .error message⟩)
  | refused {status : Nat} (body : List UInt8) : status ≠ 304 →
      ¬(200 ≤ status ∧ status < 300) →
        CosmosAnswers library versions items request (.ok ⟨status, .ok body⟩)

/-! ## Runs -/

/-- The kept ETags, the read each of them was kept by, and the items of
the server. -/
structure CosmosWorld where
  etags : Etags
  keeper : List Char → Option CosmosRead
  items : CosmosItems

namespace CosmosWorld

/-- After a read. -/
def keep (world : CosmosWorld) (read : CosmosRead) :
    Option KeptEtag → CosmosWorld
  | none => world
  | some kept =>
      { world with
        etags := Function.update world.etags kept.url
          (some (kept.etag, kept.value))
        keeper := Function.update world.keeper kept.url (some read) }

/-- Every kept value is the one its keeper asked for, in the version the
kept ETag names. -/
def Sound (versions : CosmosVersions) (world : CosmosWorld) : Prop :=
  ∀ url kept, world.etags url = some kept →
    ∃ keeper, world.keeper url = some keeper ∧
      versions.value (url, keeper.partitionKey) kept.1 keeper.property =
        some kept.2

end CosmosWorld

/-- A call that was made: what it found and what it returned. -/
structure CosmosEvent where
  setting : CosmosSetting
  read : CosmosRead
  items : CosmosItems
  result : Except SignalError String

/-- What is returned is what the addressed item holds now. -/
def CosmosEvent.Current (library : CosmosLibrary)
    (versions : CosmosVersions) (event : CosmosEvent) : Prop :=
  ∀ value, event.result = .ok value →
    ∃ url etag, itemUrl library event.setting event.read = .ok url ∧
      event.items (url, event.read.partitionKey) = some etag ∧
      versions.value (url, event.read.partitionKey) etag
        event.read.property = some value

/-- The calls of a process, newest first, while the items change.  Every
call meets a condition. -/
inductive CosmosRun (library : CosmosLibrary) (versions : CosmosVersions)
    (meets : CosmosWorld → CosmosSetting → CosmosRead → Prop) :
    CosmosWorld → List CosmosEvent → Prop
  | start (items : CosmosItems) :
      CosmosRun library versions meets ⟨fun _ => none, fun _ => none, items⟩
        []
  | changed {world : CosmosWorld} {events : List CosmosEvent}
      (items : CosmosItems) :
      CosmosRun library versions meets world events →
        CosmosRun library versions meets { world with items } events
  | called {world : CosmosWorld} {events : List CosmosEvent}
      {setting : CosmosSetting} {read : CosmosRead}
      {send : CosmosRequest → Except String CosmosAnswer}
      {outcome : Except SignalError (String × Option KeptEtag)} :
      CosmosRun library versions meets world events →
        meets world setting read →
          (∀ request, CosmosAnswers library versions world.items request
            (send request)) →
            fetchCosmos library setting send read world.etags = outcome →
              CosmosRun library versions meets
                (world.keep read (outcome.toOption.bind Prod.snd))
                (⟨setting, read, world.items, outcome.map Prod.fst⟩ ::
                  events)

/-- The ETag kept for the read's URL, if it is the one the addressed item
has now, was kept by a read of the same property under the same partition
key. -/
def SameReading (library : CosmosLibrary) (world : CosmosWorld)
    (setting : CosmosSetting) (read : CosmosRead) : Prop :=
  ∀ url kept keeper, itemUrl library setting read = .ok url →
    world.etags url = some kept → world.keeper url = some keeper →
      world.items (url, read.partitionKey) = some kept.1 →
        keeper.partition = read.partition ∧
          keeper.property = read.property

/-! ## One call -/

theorem request_of_ok {library : CosmosLibrary} {setting : CosmosSetting}
    {read : CosmosRead} {etags : Etags} {request : CosmosRequest}
    (asked : cosmosRequest library setting read etags = .ok request) :
    itemUrl library setting read = .ok request.url ∧
      request.partitionKey = read.partitionKey ∧
      request.ifNoneMatch = (etags request.url).map Prod.fst := by
  obtain ⟨endpoint, isEndpoint, asked⟩ := bind_eq_ok asked
  obtain ⟨url, isUrl, asked⟩ := bind_eq_ok asked
  obtain ⟨token, _, asked⟩ := bind_eq_ok asked
  simp only [configError] at asked
  split at asked
  · cases asked
  · cases asked
    refine ⟨?_, rfl, rfl⟩
    rw [itemUrl, isEndpoint]
    exact isUrl

/-- A value is the kept one, when the server says so, or that of the item
the server sent, which is then kept. -/
theorem readAnswer_ok {library : CosmosLibrary} {versions : CosmosVersions}
    {items : CosmosItems} {read : CosmosRead} {request : CosmosRequest}
    {cached : Option (String × String)} {answer : CosmosAnswer}
    {value : String} {kept : Option KeptEtag}
    (answered : CosmosAnswers library versions items request (.ok answer))
    (conditional : request.ifNoneMatch = cached.map Prod.fst)
    (isRead : readAnswer library read request.url cached answer =
      .ok (value, kept)) :
    ∃ etag, items (request.url, request.partitionKey) = some etag ∧
      (cached = some (etag, value) ∧ kept = none ∨
        versions.value (request.url, request.partitionKey) etag
            read.property = some value ∧
          kept = some ⟨request.url, etag, value⟩) := by
  rw [readAnswer] at isRead
  cases answered with
  | @notModified etag body current matched =>
      obtain ⟨entry, isCached, isEtag⟩ :=
        Option.map_eq_some_iff.mp (conditional.symm.trans matched)
      simp only [if_true, isCached] at isRead
      cases isRead
      subst isEtag
      exact ⟨entry.1, current, Or.inl ⟨isCached, rfl⟩⟩
  | @sent etag status body current _ from200 below isItem =>
      have changed : status ≠ 304 := by omega
      have present : status ≠ 404 := by omega
      simp only [if_neg changed, if_neg present,
        if_neg (not_not.mpr (And.intro from200 below)), isItem, readItem,
        configError] at isRead
      refine ⟨etag, current, Or.inr ?_⟩
      split at isRead
      · cases isRead
      · rename_i found isFound
        rw [versions.stamped] at isRead
        cases isRead
        exact ⟨isFound, rfl⟩
  | cut message changed =>
      simp only [if_neg changed, configError] at isRead
      cases isRead
  | refused body changed failed =>
      simp only [if_neg changed, configError, if_pos failed] at isRead
      split at isRead <;> cases isRead

theorem fetch_ok {library : CosmosLibrary} {versions : CosmosVersions}
    {items : CosmosItems} {setting : CosmosSetting} {read : CosmosRead}
    {etags : Etags} {send : CosmosRequest → Except String CosmosAnswer}
    {value : String} {kept : Option KeptEtag}
    (answered : ∀ request, CosmosAnswers library versions items request
      (send request))
    (fetched : fetchCosmos library setting send read etags =
      .ok (value, kept)) :
    ∃ url etag, itemUrl library setting read = .ok url ∧
      items (url, read.partitionKey) = some etag ∧
      (etags url = some (etag, value) ∧ kept = none ∨
        versions.value (url, read.partitionKey) etag read.property =
            some value ∧
          kept = some ⟨url, etag, value⟩) := by
  obtain ⟨request, asked, fetched⟩ := bind_eq_ok fetched
  obtain ⟨isUrl, isKey, conditional⟩ := request_of_ok asked
  have isAnswered := answered request
  simp only [configError] at fetched
  split at fetched
  · cases fetched
  · rename_i answer isAnswer
    rw [isAnswer] at isAnswered
    have result := readAnswer_ok isAnswered conditional fetched
    rw [isKey] at result
    obtain ⟨etag, current, source⟩ := result
    exact ⟨request.url, etag, isUrl, current, source⟩

/-! ## Every run -/

theorem CosmosWorld.Sound.keep {versions : CosmosVersions}
    {world : CosmosWorld} {read : CosmosRead} {kept : KeptEtag}
    (sound : world.Sound versions)
    (right : versions.value (kept.url, read.partitionKey) kept.etag
      read.property = some kept.value) :
    (world.keep read (some kept)).Sound versions := by
  intro url entry isEntry
  simp only [CosmosWorld.keep] at isEntry ⊢
  by_cases same : url = kept.url
  · subst same
    rw [Function.update_self] at isEntry ⊢
    cases isEntry
    exact ⟨read, rfl, right⟩
  · rw [Function.update_of_ne same] at isEntry ⊢
    exact sound url entry isEntry

theorem sound_step {library : CosmosLibrary} {versions : CosmosVersions}
    {world : CosmosWorld} {setting : CosmosSetting} {read : CosmosRead}
    {send : CosmosRequest → Except String CosmosAnswer}
    {outcome : Except SignalError (String × Option KeptEtag)}
    (answered : ∀ request, CosmosAnswers library versions world.items request
      (send request))
    (fetched : fetchCosmos library setting send read world.etags = outcome)
    (sound : world.Sound versions) :
    (world.keep read (outcome.toOption.bind Prod.snd)).Sound versions := by
  cases outcome with
  | error message => exact sound
  | ok result =>
      obtain ⟨value, kept⟩ := result
      obtain ⟨url, etag, _, _, ⟨_, rfl⟩ | ⟨right, rfl⟩⟩ :=
        fetch_ok answered fetched
      · exact sound
      · exact sound.keep right

theorem sound_of_run {library : CosmosLibrary} {versions : CosmosVersions}
    {meets : CosmosWorld → CosmosSetting → CosmosRead → Prop}
    {world : CosmosWorld} {events : List CosmosEvent}
    (run : CosmosRun library versions meets world events) :
    world.Sound versions := by
  induction run with
  | start items =>
      intro url kept isKept
      cases isKept
  | changed items _ inductionHypothesis => exact inductionHypothesis
  | called _ _ answered fetched inductionHypothesis =>
      exact sound_step answered fetched inductionHypothesis

/-- A kept value is right for a read that asks what its keeper asked. -/
theorem current_step {library : CosmosLibrary} {versions : CosmosVersions}
    {world : CosmosWorld} {setting : CosmosSetting} {read : CosmosRead}
    {send : CosmosRequest → Except String CosmosAnswer}
    {outcome : Except SignalError (String × Option KeptEtag)}
    (same : SameReading library world setting read)
    (answered : ∀ request, CosmosAnswers library versions world.items request
      (send request))
    (fetched : fetchCosmos library setting send read world.etags = outcome)
    (sound : world.Sound versions) :
    CosmosEvent.Current library versions
      ⟨setting, read, world.items, outcome.map Prod.fst⟩ := by
  intro value returned
  obtain ⟨⟨inner, kept⟩, rfl, isValue⟩ := map_eq_ok returned
  subst isValue
  obtain ⟨url, etag, isUrl, current, ⟨isKept, _⟩ | ⟨right, _⟩⟩ :=
    fetch_ok answered fetched
  · obtain ⟨keeper, isKeeper, wasRight⟩ := sound url _ isKept
    obtain ⟨samePartition, sameProperty⟩ :=
      same url _ keeper isUrl isKept isKeeper current
    have sameKey : keeper.partitionKey = read.partitionKey := by
      rw [CosmosRead.partitionKey, samePartition, CosmosRead.partitionKey]
    rw [sameKey, sameProperty] at wasRight
    exact ⟨url, etag, isUrl, current, wasRight⟩
  · exact ⟨url, etag, isUrl, current, right⟩

/-- Reads that never meet another read's ETag return what the item they
address holds. -/
theorem cosmos_reads_current {library : CosmosLibrary}
    {versions : CosmosVersions} {world : CosmosWorld}
    {events : List CosmosEvent}
    (run : CosmosRun library versions (SameReading library) world events) :
    ∀ event ∈ events, event.Current library versions := by
  induction run with
  | start items =>
      intro event member
      cases member
  | changed items _ inductionHypothesis => exact inductionHypothesis
  | called run same answered fetched inductionHypothesis =>
      intro event member
      rcases List.mem_cons.mp member with rfl | earlier
      · exact current_step same answered fetched (sound_of_run run)
      · exact inductionHypothesis event earlier

/-! ## One item with two properties -/

/-- The versions of an item that holds a file and its draft. -/
def draftedItem : CosmosVersions where
  item _ etag := .object
    [("id", .string "core"), ("config", .string "routes: []"),
      ("draft", .string "routes: [team]"), ("_etag", .string etag)]
  stamped _ _ := rfl

def draftedBody : List UInt8 :=
  let text := "\x7b\"id\":\"core\",\"config\":\"routes: []\"," ++
    "\"draft\":\"routes: [team]\",\"_etag\":\"v1\"\x7d"
  text.toList.map fun c => c.toNat.toUInt8

/-- The libraries, on the texts of this item. -/
def draftedLibrary : CosmosLibrary where
  urls :=
    { parse text :=
        match stripPrefix "https://".toList text with
        | some host => .ok ⟨"https".toList, some host, text ++ ['/']⟩
        | none => .error "relative URL without a base"
      join _ _ := .error "relative URL without a base"
      parseHost := some }
  extendPath url segments :=
    some (url.asStr ++ List.intercalate ['/'] segments)
  formEncode text := text.flatMap fun c =>
    if c = '=' then "%3D".toList else if c = '&' then "%26".toList else [c]
  readJson body :=
    if body = draftedBody then .ok (draftedItem.item ([], .null) "v1")
    else .error "expected value at line 1 column 1"
  lossyText body := body.map fun byte => Char.ofNat byte.toNat
  statusText status := toString status

def draftedSetting : CosmosSetting where
  template := none
  token _ := .ok "t".toList
  client := .ok ()

/-- The server answers `304` for the ETag of the item. -/
def draftedSend (request : CosmosRequest) : Except String CosmosAnswer :=
  if request.ifNoneMatch = some "v1" then .ok ⟨304, .ok []⟩
  else .ok ⟨200, .ok draftedBody⟩

def draftedItems : CosmosItems :=
  fun _ => some "v1"

theorem draftedSend_answers (request : CosmosRequest) :
    CosmosAnswers draftedLibrary draftedItem draftedItems request
      (draftedSend request) := by
  rw [draftedSend]
  split
  · rename_i matched
    exact CosmosAnswers.notModified _ rfl matched
  · rename_i changed
    refine CosmosAnswers.sent rfl changed (by decide) (by decide) ?_
    simp [draftedLibrary, draftedItem]

/-- A read of the item's file, or of another property. -/
def draftedRead (field : Option (List Char)) : CosmosRead where
  account := "a".toList
  database := "d".toList
  container := "c".toList
  id := "core".toList
  pk := none
  field := field

def draftedStart : CosmosWorld :=
  ⟨fun _ => none, fun _ => none, draftedItems⟩

/-- After the file was read. -/
def draftedNext : CosmosWorld :=
  draftedStart.keep (draftedRead none)
    (some ⟨"https://a.documents.azure.com/dbs/d/colls/c/docs/core".toList,
      "v1", "routes: []"⟩)

theorem drafted_first :
    fetchCosmos draftedLibrary draftedSetting draftedSend (draftedRead none)
        draftedStart.etags =
      .ok ("routes: []",
        some ⟨"https://a.documents.azure.com/dbs/d/colls/c/docs/core".toList,
          "v1", "routes: []"⟩) := by
  decide +kernel

/-- Whatever property is read next, the file is returned. -/
theorem drafted_again :
    fetchCosmos draftedLibrary draftedSetting draftedSend (draftedRead none)
        draftedNext.etags = .ok ("routes: []", none) ∧
      fetchCosmos draftedLibrary draftedSetting draftedSend
        (draftedRead (some "draft".toList)) draftedNext.etags =
          .ok ("routes: []", none) := by
  constructor <;> decide +kernel

theorem keeper_of_drafted {url : List Char} {keeper : CosmosRead}
    (isKeeper : draftedNext.keeper url = some keeper) :
    keeper = draftedRead none := by
  simp only [draftedNext, CosmosWorld.keep, Function.update_apply] at isKeeper
  split at isKeeper
  · exact (Option.some.inj isKeeper).symm
  · cases isKeeper

/-- A read of the file that returns it. -/
def draftedEvent : CosmosEvent :=
  ⟨draftedSetting, draftedRead none, draftedItems, .ok "routes: []"⟩

/-- The file is read twice, and the second answer is a `304`. -/
theorem cosmos_reads_current_unchanged :
    draftedEvent.Current draftedLibrary draftedItem := by
  have start := @CosmosRun.start draftedLibrary draftedItem
    (SameReading draftedLibrary) draftedItems
  have sameFirst : SameReading draftedLibrary draftedStart draftedSetting
      (draftedRead none) := by
    intro url kept keeper _ isKept
    cases isKept
  have sameAgain : SameReading draftedLibrary draftedNext draftedSetting
      (draftedRead none) := by
    intro url kept keeper _ _ isKeeper _
    rw [keeper_of_drafted isKeeper]
    exact ⟨rfl, rfl⟩
  have first := start.called sameFirst draftedSend_answers drafted_first
  have second := first.called sameAgain draftedSend_answers drafted_again.1
  exact cosmos_reads_current second draftedEvent List.mem_cons_self

/-- The draft is asked for, and the file kept for the same URL returned. -/
theorem cosmos_reads_stale :
    ∃ world events, CosmosRun draftedLibrary draftedItem
        (fun _ _ _ => True) world events ∧
      ∃ event ∈ events, ¬ event.Current draftedLibrary draftedItem := by
  have start := @CosmosRun.start draftedLibrary draftedItem
    (fun _ _ _ => True) draftedItems
  have first := start.called trivial draftedSend_answers drafted_first
  have second := first.called trivial draftedSend_answers drafted_again.2
  refine ⟨_, _, second, _, List.mem_cons_self, ?_⟩
  intro current
  obtain ⟨url, etag, _, _, isDraft⟩ := current "routes: []" rfl
  have draft : draftedItem.value (url, (draftedRead
      (some "draft".toList)).partitionKey) etag "draft" =
        some "routes: [team]" := rfl
  have property : (draftedRead (some "draft".toList)).property = "draft" := by
    decide +kernel
  rw [property, draft] at isDraft
  exact absurd isDraft (by decide)

end OpsSignal
