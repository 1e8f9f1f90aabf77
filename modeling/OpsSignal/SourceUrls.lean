import OpsSignal.Queries

/-!
# A source and its URL

`to_string` of a remote source is its identity in a chain, its key in the
cache and the URL an add-on parses again.  Parsing checks every field it
reads.  `join` makes new names from the text of a reference and checks less.
-/

namespace OpsSignal

open Checks

/-! ## What a source prints -/

namespace ConfigSource

/-- The names of a source that may hold no slash. -/
def plainNames : ConfigSource → List (List Char)
  | .file _ | .http _ => []
  | .s3 bucket _ => [bucket]
  | .gcs bucket _ => [bucket]
  | .azure container _ => [container]
  | .appConfig application environment profile =>
      [application, environment, profile]
  | .azureAppConfig store _ _ => [store]
  | .dynamoDb table id _ _ => [table, id]
  | .firestore project _ _ _ => [project]
  | .cosmos account database container id _ _ =>
      [account, database, container, id]

/-- The name of a source that is read like a path. -/
def pathName : ConfigSource → Option (List Char)
  | .s3 _ key => some key
  | .gcs _ object => some object
  | .azure _ blob => some blob
  | .azureAppConfig _ key _ => some key
  | .firestore _ document _ _ => some document
  | .file _ | .http _ | .appConfig .. | .dynamoDb .. | .cosmos .. => none

/-- The parameters of a source, in the order they are printed. -/
def parameters : ConfigSource → List (String × Option (List Char))
  | .azureAppConfig _ _ label => [("label", label)]
  | .dynamoDb _ _ key value => [("key", key), ("value", value)]
  | .firestore _ _ database field =>
      [("database", database), ("field", field)]
  | .cosmos _ _ _ _ pk field => [("pk", pk), ("field", field)]
  | .file _ | .http _ | .s3 .. | .gcs .. | .azure .. | .appConfig .. => []

def segments (source : ConfigSource) : List (List Char) :=
  source.plainNames ++ source.pathName.toList

/-- The last name in the URL of a source. -/
def lastName : ConfigSource → List Char
  | .file path => path
  | .http url => url
  | source => source.segments.getLast?.getD []

/-- What stands last in the URL of a source: a parameter if it has one. -/
def lastField (source : ConfigSource) : List Char :=
  (source.parameters.filterMap Prod.snd).getLast?.getD source.lastName

/-- A source of a cloud store. -/
def isCloud : ConfigSource → Bool
  | .file _ | .http _ => false
  | _ => true

theorem display_of_cloud {source : ConfigSource}
    (cloud : source.isCloud = true) :
    source.display =
      urlText source.scheme source.segments ++
        queryText source.parameters := by
  cases source with
  | file path => cases cloud
  | http url => cases cloud
  | _ => simp [display, scheme, segments, plainNames, pathName, parameters,
      queryText]

/-- Every name and parameter is one that `parse` could have read, except
that the key of an object may be anything. -/
structure Writable (source : ConfigSource) : Prop where
  names : ∀ name ∈ source.plainNames, name ≠ [] ∧ '/' ∉ name ∧
    (source.parameters ≠ [] → '?' ∉ name)
  carried : Carried (source.parameters.map Prod.snd)
  document : ∀ project document database field,
    source = .firestore project document database field →
      (splitOn '/' document).length % 2 = 0 ∧
        ∀ segment ∈ splitOn '/' document, segment ≠ []
  web : ∀ url, source = .http url → parse url = .ok source

/-- The name that is read like a path is one that `parse` reads. -/
def Readable (source : ConfigSource) : Prop :=
  ∀ name ∈ source.pathName,
    name ≠ [] ∧ (source.parameters ≠ [] → '?' ∉ name)

end ConfigSource

theorem distinct_parameters (source : ConfigSource) :
    Distinct (source.parameters.map Prod.fst) := by
  cases source <;>
    simp only [ConfigSource.parameters, List.map_cons, List.map_nil] <;>
    exact ⟨by decide, by decide⟩

/-! ## The end of a URL -/

/-- A text that ends in a field, after a character of the URL's own. -/
def EndsIn (text field : List Char) : Prop :=
  ∃ before mark, isWhitespace mark = false ∧ text = before ++ mark :: field

theorem EndsIn.append {text field : List Char} (ends : EndsIn text field)
    (front : List Char) : EndsIn (front ++ text) field := by
  obtain ⟨before, mark, visible, rfl⟩ := ends
  exact ⟨front ++ before, mark, visible, by simp⟩

theorem EndsIn.back_iff {text field : List Char}
    (ends : EndsIn text field) :
    (∀ c ∈ text.getLast?, isWhitespace c = false) ↔
      ∀ c ∈ field.getLast?, isWhitespace c = false := by
  obtain ⟨before, mark, visible, rfl⟩ := ends
  rw [List.getLast?_append, List.getLast?_cons]
  cases field.getLast? with
  | none => simp [visible]
  | some last => simp

/-- Pieces between separators end in the last piece. -/
theorem endsIn_intercalate {mark separator : Char}
    (visibleMark : isWhitespace mark = false)
    (visible : isWhitespace separator = false) {field : List Char} :
    ∀ {pieces : List (List Char)}, pieces.getLast? = some field →
      EndsIn (mark :: List.intercalate [separator] pieces) field := by
  intro pieces
  induction pieces generalizing mark with
  | nil =>
      intro isLast
      cases isLast
  | cons piece pieces inductionHypothesis =>
      intro isLast
      cases pieces with
      | nil =>
          cases isLast
          exact ⟨[], mark, visibleMark, by simp⟩
      | cons second rest =>
          rw [List.getLast?_cons_cons] at isLast
          have later := inductionHypothesis visible isLast
          rw [List.intercalate_cons_cons]
          simpa using later.append (mark :: piece)

theorem getLast_written :
    ∀ {pairs : List (String × Option (List Char))} {value : List Char},
      (pairs.filterMap Prod.snd).getLast? = some value →
        ∃ name, (written pairs).getLast? = some (name ++ '=' :: value) := by
  intro pairs value isLast
  have values : pairs.filterMap Prod.snd =
      (pairs.filterMap fun pair =>
        pair.2.map fun value => (pair.1, value)).map Prod.snd := by
    rw [List.map_filterMap]
    congr 1
    funext pair
    cases pair.2 <;> rfl
  have texts : written pairs =
      (pairs.filterMap fun pair =>
        pair.2.map fun value => (pair.1, value)).map fun given =>
          given.1.toList ++ '=' :: given.2 := by
    rw [List.map_filterMap, written]
    congr 1
    funext pair
    cases pair.2 <;> rfl
  rw [values, List.getLast?_map] at isLast
  obtain ⟨given, isGiven, rfl⟩ := Option.map_eq_some_iff.mp isLast
  refine ⟨given.1.toList, ?_⟩
  rw [texts, List.getLast?_map, isGiven]
  rfl

theorem endsIn_query {pairs : List (String × Option (List Char))}
    {value : List Char}
    (isLast : (pairs.filterMap Prod.snd).getLast? = some value) :
    EndsIn (ConfigSource.queryText pairs) value := by
  obtain ⟨name, isWritten⟩ := getLast_written isLast
  have some : written pairs ≠ [] := by
    intro empty
    simp [empty] at isWritten
  obtain ⟨before, mark, visible, ends⟩ := endsIn_intercalate
    (by decide : isWhitespace '?' = false)
    (by decide : isWhitespace '&' = false) isWritten
  rw [queryText_of_ne_nil some]
  exact ⟨before ++ mark :: name, '=', by decide, by simp [ends]⟩

theorem endsIn_url {scheme : String} {segments : List (List Char)}
    {field : List Char} (isLast : segments.getLast? = some field) :
    EndsIn (ConfigSource.urlText scheme segments) field := by
  have ends := endsIn_intercalate (by decide : isWhitespace '/' = false)
    (by decide : isWhitespace '/' = false) isLast
  have whole := ends.append (scheme.toList ++ [':', '/'])
  rw [ConfigSource.urlText]
  simpa using whole

/-- The URL of a cloud source ends in the field printed last. -/
theorem endsIn_display {source : ConfigSource}
    (cloud : source.isCloud = true) :
    EndsIn source.display source.lastField := by
  rw [ConfigSource.display_of_cloud cloud, ConfigSource.lastField]
  cases given : (source.parameters.filterMap Prod.snd).getLast? with
  | some value => exact (endsIn_query given).append _
  | none =>
      have none : written source.parameters = [] := by
        rw [List.getLast?_eq_none_iff] at given
        rw [written, List.filterMap_eq_nil_iff]
        intro pair member
        rw [List.filterMap_eq_nil_iff.mp given pair member]
        rfl
      rw [queryText_of_nil none, List.append_nil, Option.getD_none]
      apply endsIn_url
      cases source with
      | file path => cases cloud
      | http url => cases cloud
      | _ => rfl

/-- A URL is trimmed away from its source when it ends in white space. -/
theorem trim_display_iff {source : ConfigSource}
    (cloud : source.isCloud = true) :
    trim source.display = source.display ↔
      ∀ c ∈ source.lastField.getLast?, isWhitespace c = false := by
  rw [← (endsIn_display cloud).back_iff]
  constructor
  · intro trimmed
    rw [← trimmed]
    exact back_of_trim source.display
  · intro back
    apply trim_of_visible _ back
    intro c isFirst
    cases source with
    | file path => cases cloud
    | http url => cases cloud
    | _ =>
        cases isFirst
        decide

/-! ## Reading a URL back -/

theorem splitBucket_printed {bucket key raw : List Char}
    (full : bucket ≠ []) (plain : '/' ∉ bucket) (named : key ≠ []) :
    splitBucket (bucket ++ '/' :: key) raw = .ok (bucket, key) := by
  simp only [splitBucket, splitOnce_append plain]
  rw [if_pos ⟨full, named⟩]

/-- The schemes are told apart by how they start. -/
theorem parse_of_scheme {entry : String × SchemeParser}
    (listed : entry ∈ schemeParsers) {rest : List Char}
    (trimmed : trim (entry.1.toList ++ rest) = entry.1.toList ++ rest) :
    ConfigSource.parse (entry.1.toList ++ rest) =
      entry.2 rest (entry.1.toList ++ rest) := by
  have found : schemeParsers.findSome? (fun other =>
      (stripPrefix other.1.toList (entry.1.toList ++ rest)).map fun after =>
        other.2 after (entry.1.toList ++ rest)) =
      some (entry.2 rest (entry.1.toList ++ rest)) := by
    simp only [schemeParsers, cloudParsers, List.cons_append,
      List.nil_append, List.mem_cons, List.not_mem_nil, or_false] at listed
    rcases listed with rfl | rfl | rfl | rfl | rfl | rfl | rfl | rfl | rfl |
      rfl <;> rfl
  rw [ConfigSource.parse]
  simp only [trimmed, found, Option.getD_some]

/-- What a cloud source prints after its scheme. -/
def printed (source : ConfigSource) : List Char :=
  List.intercalate ['/'] source.segments ++
    ConfigSource.queryText source.parameters

theorem splitOn_segments {source : ConfigSource} {first : List Char}
    {rest : List (List Char)} (writable : source.Writable)
    (plain : source.plainNames = first :: rest) :
    splitOn '/' (List.intercalate ['/'] source.plainNames) =
      first :: rest := by
  have fresh : ∀ name ∈ first :: rest, '/' ∉ name := fun name member =>
    (writable.names name (plain ▸ member)).2.1
  rw [plain]
  exact splitOn_intercalate fresh

theorem query_fresh {source : ConfigSource} (writable : source.Writable)
    (readable : source.Readable) (asked : source.parameters ≠ []) :
    '?' ∉ List.intercalate ['/'] source.segments := by
  have names : ∀ name ∈ source.segments, '?' ∉ name := by
    intro name member
    rcases List.mem_append.mp member with plain | path
    · exact (writable.names name plain).2.2 asked
    · exact (readable name (by simpa using path)).2 asked
  cases shape : source.segments with
  | nil => simp
  | cons first rest =>
      rw [intercalate_append_cons]
      rw [shape] at names
      simp only [List.mem_append, List.mem_flatMap, List.mem_cons,
        not_or, not_exists, not_and]
      refine ⟨names first List.mem_cons_self, ?_⟩
      intro name member
      exact ⟨by decide, names name (List.mem_cons_of_mem _ member)⟩

theorem splitQuery_printed {source : ConfigSource} {raw : List Char}
    (writable : source.Writable) (readable : source.Readable)
    (asked : source.parameters ≠ []) :
    splitQuery (printed source) raw (source.parameters.map Prod.fst) =
      .ok (List.intercalate ['/'] source.segments,
        source.parameters.map Prod.snd) :=
  splitQuery_written (query_fresh writable readable asked)
    (distinct_parameters source) writable.carried

/-- The parser of a cloud source's scheme. -/
def parserOf : ConfigSource → SchemeParser
  | .file _ | .http _ => parseHttps
  | .s3 .. => parseS3
  | .gcs .. => parseGcs
  | .azure .. => parseAzure
  | .appConfig .. => parseAppConfig
  | .azureAppConfig .. => parseAzureAppConfig
  | .dynamoDb .. => parseDynamoDb
  | .firestore .. => parseFirestore
  | .cosmos .. => parseCosmos

/-- What a cloud source prints is read by the parser of its scheme. -/
theorem parserOf_printed {source : ConfigSource}
    (cloud : source.isCloud = true) (writable : source.Writable)
    (readable : source.Readable) (raw : List Char) :
    parserOf source (printed source) raw = .ok source := by
  have query := @splitQuery_printed source raw writable readable
  have split := @splitOn_segments source
  have names := writable.names
  cases source with
  | file path => cases cloud
  | http url => cases cloud
  | s3 bucket key | gcs bucket key | azure bucket key =>
      obtain ⟨full, plain, _⟩ := names bucket List.mem_cons_self
      have parts := @splitBucket_printed bucket key raw full plain
        (readable key rfl).1
      simp [parserOf, parseS3, parseGcs, parseAzure, printed,
        ConfigSource.segments, ConfigSource.plainNames,
        ConfigSource.pathName, ConfigSource.parameters,
        ConfigSource.queryText, parts, Except.map]
  | appConfig application environment profile =>
      have parts := split writable rfl
      have fullNames : application ≠ [] ∧ environment ≠ [] ∧ profile ≠ [] :=
        ⟨(names application (by simp [ConfigSource.plainNames])).1,
          (names environment (by simp [ConfigSource.plainNames])).1,
          (names profile (by simp [ConfigSource.plainNames])).1⟩
      have whole : printed (.appConfig application environment profile) =
          List.intercalate ['/'] (ConfigSource.plainNames
            (.appConfig application environment profile)) := by
        simp [printed, ConfigSource.segments, ConfigSource.plainNames,
          ConfigSource.pathName, ConfigSource.parameters,
          ConfigSource.queryText]
      simp only [parserOf, parseAppConfig, whole, parts]
      rw [if_pos fullNames]
  | azureAppConfig store key label =>
      obtain ⟨full, plain, _⟩ := names store List.mem_cons_self
      have parts := @splitBucket_printed store key raw full plain
        (readable key rfl).1
      have asked : splitQuery (printed (.azureAppConfig store key label))
          raw ["label"] = .ok (store ++ '/' :: key, [label]) := by
        simpa [ConfigSource.segments, ConfigSource.plainNames,
          ConfigSource.pathName, ConfigSource.parameters] using
          query (by simp [ConfigSource.parameters])
      simp [parserOf, parseAzureAppConfig, asked, parts, bind, Except.bind,
        pure, Except.pure]
  | dynamoDb table id key value =>
      obtain ⟨full, plain, _⟩ := names table List.mem_cons_self
      obtain ⟨idFull, idPlain, _⟩ := names id
        (by simp [ConfigSource.plainNames])
      have asked : splitQuery (printed (.dynamoDb table id key value))
          raw ["key", "value"] =
            .ok (table ++ '/' :: id, [key, value]) := by
        simpa [ConfigSource.segments, ConfigSource.plainNames,
          ConfigSource.pathName, ConfigSource.parameters] using
          query (by simp [ConfigSource.parameters])
      simp [parserOf, parseDynamoDb, asked, splitOnce_append plain, full,
        idFull, idPlain, bind, Except.bind]
  | firestore project document database field =>
      obtain ⟨full, plain, _⟩ := names project List.mem_cons_self
      have parts := @splitBucket_printed project document raw full plain
        (readable document rfl).1
      obtain ⟨even, segments⟩ :=
        writable.document project document database field rfl
      have asked : splitQuery
          (printed (.firestore project document database field)) raw
          ["database", "field"] =
            .ok (project ++ '/' :: document, [database, field]) := by
        simpa [ConfigSource.segments, ConfigSource.plainNames,
          ConfigSource.pathName, ConfigSource.parameters] using
          query (by simp [ConfigSource.parameters])
      have noEmpty : ¬ ((splitOn '/' document).length % 2 ≠ 0 ∨
          (splitOn '/' document).any List.isEmpty = true) := by
        rw [not_or, not_not, List.any_eq_true]
        refine ⟨even, ?_⟩
        rintro ⟨segment, member, isEmpty⟩
        exact segments segment member (List.isEmpty_iff.mp isEmpty)
      simp only [parserOf, parseFirestore, asked, parts, bind, Except.bind,
        pure, Except.pure]
      rw [if_neg noEmpty]
      rfl
  | cosmos account database container id pk field =>
      have parts := split writable rfl
      have fullNames : account ≠ [] ∧ database ≠ [] ∧ container ≠ [] ∧
          id ≠ [] :=
        ⟨(names account (by simp [ConfigSource.plainNames])).1,
          (names database (by simp [ConfigSource.plainNames])).1,
          (names container (by simp [ConfigSource.plainNames])).1,
          (names id (by simp [ConfigSource.plainNames])).1⟩
      have asked : splitQuery
          (printed (.cosmos account database container id pk field)) raw
          ["pk", "field"] =
            .ok (List.intercalate ['/'] (ConfigSource.plainNames
              (.cosmos account database container id pk field)),
                [pk, field]) := by
        simpa [ConfigSource.segments, ConfigSource.plainNames,
          ConfigSource.pathName, ConfigSource.parameters] using
          query (by simp [ConfigSource.parameters])
      simp only [parserOf, parseCosmos, asked, bind, Except.bind, parts]
      rw [if_pos fullNames]
      rfl

theorem parserOf_listed {source : ConfigSource}
    (cloud : source.isCloud = true) :
    (source.scheme ++ "://", parserOf source) ∈ schemeParsers := by
  cases source with
  | file path => cases cloud
  | http url => cases cloud
  | _ => simp [schemeParsers, cloudParsers, ConfigSource.scheme, parserOf]

/-- A cloud source is read back when nothing is trimmed off its URL. -/
theorem parse_display {source : ConfigSource}
    (cloud : source.isCloud = true) (writable : source.Writable)
    (readable : source.Readable)
    (trimmed : trim source.display = source.display) :
    ConfigSource.parse source.display = .ok source := by
  have whole : source.display =
      (source.scheme ++ "://").toList ++ printed source := by
    rw [ConfigSource.display_of_cloud cloud, printed, ConfigSource.urlText,
      String.toList_append, List.append_assoc]
  rw [whole] at trimmed ⊢
  rw [parse_of_scheme (parserOf_listed cloud) trimmed]
  exact parserOf_printed cloud writable readable _

/-! ## What parsing checks -/

/-- A source as `parse` makes it. -/
structure AsRead (source : ConfigSource) (text : List Char) : Prop where
  writable : source.Writable
  readable : source.Readable
  length : source.display.length = text.length

theorem splitBucket_read {rest raw bucket key : List Char}
    (split : splitBucket rest raw = .ok (bucket, key)) :
    rest = bucket ++ '/' :: key ∧ bucket ≠ [] ∧ '/' ∉ bucket ∧
      key ≠ [] := by
  simp only [splitBucket, configError] at split
  split at split
  · rename_i before after parted
    split at split
    · rename_i full
      cases split
      obtain ⟨spelled, plain⟩ := eq_append_of_splitOnce parted
      exact ⟨spelled, full.1, plain, full.2⟩
    · cases split
  · cases split

theorem mem_intercalate {separator c : Char} {pieces : List (List Char)}
    {piece : List Char} (listed : piece ∈ pieces) (inside : c ∈ piece) :
    c ∈ List.intercalate [separator] pieces := by
  cases pieces with
  | nil => cases listed
  | cons first rest =>
      rw [intercalate_append_cons, List.mem_append, List.mem_flatMap]
      rcases List.mem_cons.mp listed with rfl | later
      · exact Or.inl inside
      · exact Or.inr ⟨piece, later, List.mem_cons_of_mem _ inside⟩

/-- The path of a URL, between its scheme and its query, as it is read. -/
structure PathRead (source : ConfigSource) (path : List Char) : Prop where
  spelled : path = List.intercalate ['/'] source.segments
  names : ∀ name ∈ source.plainNames, name ≠ [] ∧ '/' ∉ name
  named : ∀ name ∈ source.pathName, name ≠ []
  document : ∀ project document database field,
    source = .firestore project document database field →
      (splitOn '/' document).length % 2 = 0 ∧
        ∀ segment ∈ splitOn '/' document, segment ≠ []

theorem PathRead.asRead {source : ConfigSource} {path rest : List Char}
    (read : PathRead source path) (cloud : source.isCloud = true)
    (fresh : source.parameters ≠ [] → '?' ∉ path)
    (carried : Carried (source.parameters.map Prod.snd))
    (length : (path ++ ConfigSource.queryText source.parameters).length =
      rest.length) :
    AsRead source ((source.scheme ++ "://").toList ++ rest) := by
  have noQuery : source.parameters ≠ [] → ∀ name ∈ source.segments,
      '?' ∉ name := by
    intro asked name member inside
    apply fresh asked
    rw [read.spelled]
    exact mem_intercalate member inside
  refine ⟨⟨?_, carried, read.document, ?_⟩, ?_, ?_⟩
  · intro name member
    obtain ⟨full, plain⟩ := read.names name member
    exact ⟨full, plain, fun asked =>
      noQuery asked name (List.mem_append_left _ member)⟩
  · rintro url rfl
    cases cloud
  · intro name member
    refine ⟨read.named name member, fun asked => noQuery asked name ?_⟩
    exact List.mem_append_right _ (by simpa using member)
  · rw [ConfigSource.display_of_cloud cloud, ConfigSource.urlText,
      ← read.spelled, List.length_append, String.toList_append]
    simp only [List.length_append] at length ⊢
    omega

/-- A source whose URL has no query. -/
theorem PathRead.asRead_plain {source : ConfigSource} {path : List Char}
    (read : PathRead source path) (cloud : source.isCloud = true)
    (unasked : source.parameters = []) :
    AsRead source ((source.scheme ++ "://").toList ++ path) := by
  apply read.asRead cloud
  · intro asked
    exact absurd unasked asked
  · simp [unasked, Carried]
  · simp [unasked, ConfigSource.queryText]

/-- A source whose URL may have a query. -/
theorem PathRead.asRead_query {source : ConfigSource}
    {path rest raw : List Char} {allowed : List String}
    {values : List (Option (List Char))}
    (read : PathRead source path) (cloud : source.isCloud = true)
    (split : splitQuery rest raw allowed = .ok (path, values))
    (parameters : source.parameters = allowed.zip values) :
    AsRead source ((source.scheme ++ "://").toList ++ rest) := by
  obtain ⟨sized, carried, fresh, length⟩ := splitQuery_read split
  apply read.asRead cloud
  · exact fun _ => fresh
  · rw [parameters, List.map_snd_zip (Nat.le_of_eq sized)]
    exact carried
  · rw [parameters]
    exact length

/-- A path that is a bucket and a key. -/
theorem pathRead_of_bucket {source : ConfigSource}
    {rest raw bucket key : List Char}
    (split : splitBucket rest raw = .ok (bucket, key))
    (names : source.plainNames = [bucket])
    (isPath : source.pathName = some key)
    (document : ∀ project document database field,
      source = .firestore project document database field →
        (splitOn '/' document).length % 2 = 0 ∧
          ∀ segment ∈ splitOn '/' document, segment ≠ []) :
    PathRead source rest := by
  obtain ⟨rfl, full, plain, named⟩ := splitBucket_read split
  refine ⟨?_, ?_, ?_, document⟩
  · simp [ConfigSource.segments, names, isPath]
  · simp [names, full, plain]
  · simp [isPath, named]

/-- A path of names between slashes. -/
theorem pathRead_of_names {source : ConfigSource} {rest : List Char}
    (names : splitOn '/' rest = source.plainNames)
    (full : ∀ name ∈ source.plainNames, name ≠ [])
    (noPath : source.pathName = none) :
    PathRead source rest := by
  refine ⟨?_, ?_, ?_, ?_⟩
  · rw [ConfigSource.segments, noPath, ← names]
    simp [intercalate_splitOn]
  · intro name member
    exact ⟨full name member,
      not_mem_splitOn '/' rest name (names ▸ member)⟩
  · simp [noPath]
  · rintro project document database field rfl
    cases noPath

theorem asRead_of_cloud :
    ∀ entry ∈ cloudParsers, ∀ rest raw source,
      entry.2 rest raw = .ok source →
        AsRead source (entry.1.toList ++ rest) := by
  intro entry listed rest raw source parsed
  simp only [cloudParsers, List.mem_cons, List.not_mem_nil,
    or_false] at listed
  rcases listed with rfl | rfl | rfl | rfl | rfl | rfl | rfl | rfl
  · obtain ⟨⟨bucket, key⟩, split, isSource⟩ := map_eq_ok parsed
    cases isSource
    exact (pathRead_of_bucket split rfl rfl (by simp)).asRead_plain rfl rfl
  · obtain ⟨⟨bucket, key⟩, split, isSource⟩ := map_eq_ok parsed
    cases isSource
    exact (pathRead_of_bucket split rfl rfl (by simp)).asRead_plain rfl rfl
  · obtain ⟨⟨bucket, key⟩, split, isSource⟩ := map_eq_ok parsed
    cases isSource
    exact (pathRead_of_bucket split rfl rfl (by simp)).asRead_plain rfl rfl
  · simp only [parseAppConfig, configError] at parsed
    split at parsed
    · rename_i application environment profile names
      split at parsed
      · rename_i full
        cases parsed
        refine (pathRead_of_names names ?_ rfl).asRead_plain rfl rfl
        simpa [ConfigSource.plainNames] using full
      · cases parsed
    · cases parsed
  · obtain ⟨⟨path, values⟩, asked, parsed⟩ := bind_eq_ok parsed
    obtain ⟨⟨store, key⟩, split, isSource⟩ := bind_eq_ok parsed
    obtain ⟨label, rfl⟩ := List.length_eq_one_iff.mp
      (splitQuery_read asked).1
    cases isSource
    exact (pathRead_of_bucket split rfl rfl (by simp)).asRead_query rfl
      asked rfl
  · obtain ⟨⟨path, values⟩, asked, parsed⟩ := bind_eq_ok parsed
    obtain ⟨key, value, rfl⟩ := List.length_eq_two.mp
      (splitQuery_read asked).1
    simp only [configError] at parsed
    split at parsed
    · rename_i table id parted
      split at parsed
      · rename_i full
        cases parsed
        obtain ⟨rfl, plain⟩ := eq_append_of_splitOnce parted
        refine (pathRead_of_names ?_ ?_ rfl).asRead_query rfl asked rfl
        · rw [splitOn_append_cons, splitOn_of_fresh plain,
            splitOn_of_fresh full.2.2]
          rfl
        · simpa [ConfigSource.plainNames] using ⟨full.1, full.2.1⟩
      · cases parsed
    · cases parsed
  · obtain ⟨⟨path, values⟩, asked, parsed⟩ := bind_eq_ok parsed
    obtain ⟨⟨project, document⟩, split, parsed⟩ := bind_eq_ok parsed
    obtain ⟨database, field, rfl⟩ := List.length_eq_two.mp
      (splitQuery_read asked).1
    simp only [configError] at parsed
    split at parsed
    · cases parsed
    · rename_i shaped
      cases parsed
      rw [not_or, not_not] at shaped
      refine (pathRead_of_bucket split rfl rfl ?_).asRead_query rfl asked
        rfl
      rintro _ _ _ _ same
      cases same
      refine ⟨shaped.1, fun segment member empty => shaped.2 ?_⟩
      rw [List.any_eq_true]
      exact ⟨segment, member, List.isEmpty_iff.mpr empty⟩
  · obtain ⟨⟨path, values⟩, asked, parsed⟩ := bind_eq_ok parsed
    obtain ⟨pk, field, rfl⟩ := List.length_eq_two.mp
      (splitQuery_read asked).1
    simp only [configError] at parsed
    split at parsed
    · rename_i account database container id names
      split at parsed
      · rename_i full
        cases parsed
        refine (pathRead_of_names names ?_ rfl).asRead_query rfl asked rfl
        simpa [ConfigSource.plainNames] using full
      · cases parsed
    · cases parsed

/-- What `parse` returns is a path, the text itself, or a cloud source
with what it was read from. -/
theorem read_of_parse {raw : List Char} {source : ConfigSource}
    (parsed : ConfigSource.parse raw = .ok source) :
    source = .file (trim raw) ∨ source = .http (trim raw) ∨
      source.isCloud = true ∧ AsRead source (trim raw) := by
  rw [ConfigSource.parse] at parsed
  cases known : schemeParsers.findSome? fun entry =>
      (stripPrefix entry.1.toList (trim raw)).map fun rest =>
        entry.2 rest (trim raw) with
  | none =>
      simp only [known, Option.getD_none, ConfigSource.parsePath,
        configError] at parsed
      split at parsed
      · cases parsed
      · cases parsed
        exact Or.inl rfl
  | some result =>
      simp only [known, Option.getD_some] at parsed
      obtain ⟨entry, listed, found⟩ := List.exists_of_findSome?_eq_some known
      obtain ⟨after, stripped, isResult⟩ := Option.map_eq_some_iff.mp found
      rw [parsed] at isResult
      right
      rcases List.mem_append.mp listed with cloud | web
      · have read := asRead_of_cloud entry cloud _ _ _ isResult
        rw [← eq_append_of_stripPrefix stripped] at read
        obtain ⟨remote, notHttp⟩ := remote_of_cloud entry cloud _ _ _ isResult
        refine Or.inr ⟨?_, read⟩
        cases source with
        | file path => cases remote
        | http url => exact absurd rfl (notHttp url)
        | _ => rfl
      · left
        simp only [List.mem_cons, List.not_mem_nil, or_false] at web
        rcases web with rfl | rfl
        · cases isResult
          rfl
        · simp only [parseHttp, configError] at isResult
          split at isResult
          · cases isResult
            rfl
          · cases isResult

theorem parse_trim (raw : List Char) :
    ConfigSource.parse (trim raw) = ConfigSource.parse raw := by
  simp only [ConfigSource.parse, trim_trim]

theorem writable_of_parse {raw : List Char} {source : ConfigSource}
    (parsed : ConfigSource.parse raw = .ok source) : source.Writable := by
  rcases read_of_parse parsed with rfl | rfl | ⟨_, read⟩
  · exact ⟨by simp [ConfigSource.plainNames],
      by simp [Carried, ConfigSource.parameters], by simp, by simp⟩
  · refine ⟨by simp [ConfigSource.plainNames],
      by simp [Carried, ConfigSource.parameters], by simp, ?_⟩
    rintro url same
    cases same
    rw [parse_trim]
    exact parsed
  · exact read.writable

/-! ## What joining keeps -/

/-- The segments of a joined path. -/
theorem joinSegment_plain {self : ConfigSource} {reference segment : List Char}
    {parts joined : List (List Char)}
    (step : self.joinSegment reference parts segment = .ok joined)
    (fresh : '/' ∉ segment)
    (plain : ∀ part ∈ parts, part ≠ [] ∧ '/' ∉ part) :
    ∀ part ∈ joined, part ≠ [] ∧ '/' ∉ part := by
  simp only [ConfigSource.joinSegment, configError] at step
  split at step
  · cases step
    exact plain
  · rename_i named
    split at step
    · split at step
      · cases step
      · cases step
        exact fun part member => plain part (List.dropLast_subset _ member)
    · cases step
      intro part member
      rcases List.mem_append.mp member with before | last
      · exact plain part before
      · rw [List.mem_singleton.mp last]
        exact ⟨fun empty => named (Or.inl empty), fresh⟩

theorem joinSegments_plain {self : ConfigSource} {reference : List Char} :
    ∀ {segments parts joined : List (List Char)},
      segments.foldlM (self.joinSegment reference) parts = .ok joined →
        (∀ segment ∈ segments, '/' ∉ segment) →
          (∀ part ∈ parts, part ≠ [] ∧ '/' ∉ part) →
            ∀ part ∈ joined, part ≠ [] ∧ '/' ∉ part := by
  intro segments
  induction segments with
  | nil =>
      intro parts joined folded _ plain
      cases folded
      exact plain
  | cons segment segments inductionHypothesis =>
      intro parts joined folded fresh plain
      rw [List.foldlM_cons] at folded
      obtain ⟨next, step, rest⟩ := bind_eq_ok folded
      apply inductionHypothesis rest
      · exact fun other member => fresh other
          (List.mem_cons_of_mem _ member)
      · exact joinSegment_plain step (fresh segment List.mem_cons_self)
          plain

/-- A path without empty segments is joined to one. -/
theorem joinKey_segments {self : ConfigSource}
    {key reference joined : List Char}
    (join : self.joinKey key reference = .ok joined)
    (full : ∀ segment ∈ splitOn '/' key, segment ≠ []) :
    ∀ segment ∈ splitOn '/' joined, segment ≠ [] := by
  obtain ⟨parts, folded, named⟩ := bind_eq_ok join
  simp only [configError] at named
  split at named
  · cases named
  · rename_i some
    cases named
    have plain := joinSegments_plain folded (not_mem_splitOn '/' reference)
      fun part member =>
        ⟨full part (List.dropLast_subset _ member),
          not_mem_splitOn '/' key part (List.dropLast_subset _ member)⟩
    obtain ⟨first, rest, rfl⟩ := List.exists_cons_of_ne_nil some
    rw [splitOn_intercalate fun piece member => (plain piece member).2]
    exact fun segment member => (plain segment member).1

theorem writable_of_joinRelative {urls : UrlParser}
    {self source : ConfigSource} {reference : List Char}
    (joined : self.joinRelative urls reference = .ok source)
    (writable : self.Writable) : source.Writable := by
  obtain ⟨names, carried, document, web⟩ := writable
  cases self with
  | file path =>
      cases joined
      exact ⟨by simp [ConfigSource.plainNames],
        by simp [Carried, ConfigSource.parameters], by simp, by simp⟩
  | http url =>
      simp only [ConfigSource.joinRelative, ConfigSource.joinUrl,
        configError] at joined
      split at joined
      · exact writable_of_parse joined
      · cases joined
  | s3 | gcs | azure | azureAppConfig =>
      obtain ⟨key, _, isSource⟩ := map_eq_ok joined
      cases isSource
      exact ⟨names, carried, by simp, by simp⟩
  | appConfig application environment profile =>
      simp only [ConfigSource.joinRelative, configError] at joined
      split at joined
      · cases joined
      · rename_i flat
        cases joined
        rw [not_or] at flat
        simp only [ConfigSource.plainNames, List.forall_mem_cons] at names
        refine ⟨?_, carried, by simp, by simp⟩
        simp only [ConfigSource.plainNames, List.forall_mem_cons]
        exact ⟨names.1, names.2.1, ⟨flat.1, flat.2, by
          simp [ConfigSource.parameters]⟩, by simp⟩
  | dynamoDb table id key value =>
      obtain ⟨name, flat, isSource⟩ := map_eq_ok joined
      cases isSource
      simp only [ConfigSource.flatName, configError] at flat
      split at flat
      · cases flat
      · rename_i isName
        cases flat
        rw [not_or, not_or] at isName
        simp only [ConfigSource.plainNames, List.forall_mem_cons] at names
        refine ⟨?_, carried, by simp, by simp⟩
        simp only [ConfigSource.plainNames, List.forall_mem_cons]
        exact ⟨names.1, ⟨isName.1, isName.2.1, fun _ => isName.2.2⟩,
          by simp⟩
  | firestore project path database field =>
      obtain ⟨name, key, joined⟩ := bind_eq_ok joined
      simp only [configError] at joined
      split at joined
      · cases joined
      · rename_i even
        cases joined
        refine ⟨names, carried, ?_, by simp⟩
        rintro _ _ _ _ same
        cases same
        rw [not_not] at even
        exact ⟨even, joinKey_segments key
          (document project path database field rfl).2⟩
  | cosmos account database container id pk field =>
      obtain ⟨name, flat, isSource⟩ := map_eq_ok joined
      cases isSource
      simp only [ConfigSource.flatName, configError] at flat
      split at flat
      · cases flat
      · rename_i isName
        cases flat
        rw [not_or, not_or] at isName
        simp only [ConfigSource.plainNames, List.forall_mem_cons] at names
        refine ⟨?_, ?_, by simp, by simp⟩
        · simp only [ConfigSource.plainNames, List.forall_mem_cons]
          simp only [ConfigSource.parameters, ne_eq, reduceCtorEq,
            not_false_eq_true, forall_const] at names ⊢
          exact ⟨names.1, names.2.1, names.2.2.1, isName, by simp⟩
        · intro value member
          apply carried value
          simp only [ConfigSource.parameters, List.map_cons, List.map_nil,
            List.mem_cons, List.not_mem_nil, or_false] at member ⊢
          rcases member with absent | isField
          · cases absent
          · exact Or.inr isField

theorem writable_of_join {urls : UrlParser} {self source : ConfigSource}
    {reference : List Char}
    (joined : self.join urls reference = .ok source)
    (writable : self.Writable) : source.Writable := by
  obtain ⟨inner, found, checked⟩ := bind_eq_ok joined
  simp only [configError] at checked
  split at checked
  · cases checked
  · cases checked
    rw [ConfigSource.resolve] at found
    split at found
    · exact writable_of_parse found
    · exact writable_of_joinRelative found writable

/-! ## Sources named by their URL -/

/-- A source that parsing and joining lead to. -/
inductive Obtained (urls : UrlParser) : ConfigSource → Prop
  | parsed {raw : List Char} {source : ConfigSource} :
      ConfigSource.parse raw = .ok source → Obtained urls source
  | joined {self source : ConfigSource} {reference : List Char} :
      Obtained urls self → self.join urls reference = .ok source →
        Obtained urls source

theorem Obtained.writable {urls : UrlParser} {source : ConfigSource}
    (obtained : Obtained urls source) : source.Writable := by
  induction obtained with
  | parsed parsed => exact writable_of_parse parsed
  | joined _ joined inductionHypothesis =>
      exact writable_of_join joined inductionHypothesis

/-- The fields that survive being printed: a path that is not empty and
does not open a query, and no white space at the very end. -/
structure ConfigSource.NamedByUrl (source : ConfigSource) : Prop where
  readable : source.Readable
  visible : ∀ c ∈ source.lastField.getLast?, isWhitespace c = false

theorem cloud_or_http {source : ConfigSource}
    (remote : source.isRemote = true) :
    source.isCloud = true ∨ ∃ url, source = .http url := by
  cases source with
  | file path => cases remote
  | http url => exact Or.inr ⟨url, rfl⟩
  | _ => exact Or.inl rfl

/-- A remote source is read back from its URL just when its fields survive
being printed. -/
theorem remote_named_by_url_iff {urls : UrlParser} {source : ConfigSource}
    (obtained : Obtained urls source) (remote : source.isRemote = true) :
    ConfigSource.parse source.display = .ok source ↔ source.NamedByUrl := by
  have writable := obtained.writable
  rcases cloud_or_http remote with cloud | ⟨url, rfl⟩
  · constructor
    · intro parsed
      rcases read_of_parse parsed with file | http | ⟨_, read⟩
      · rw [file] at cloud
        cases cloud
      · rw [http] at cloud
        cases cloud
      · exact ⟨read.readable, (trim_display_iff cloud).mp
          (trim_of_length read.length.symm)⟩
    · rintro ⟨readable, visible⟩
      exact parse_display cloud writable readable
        ((trim_display_iff cloud).mpr visible)
  · have parsed := writable.web url rfl
    refine iff_of_true parsed ⟨by simp [ConfigSource.Readable,
      ConfigSource.pathName], ?_⟩
    have trimmed : url = trim url := by
      rcases read_of_parse parsed with file | same | ⟨cloud, _⟩
      · cases file
      · exact ConfigSource.http.inj same
      · cases cloud
    have back := back_of_trim url
    rw [← trimmed] at back
    exact back

/-- A table item read by its own key attribute. -/
def tableItem : ConfigSource :=
  .dynamoDb "rules".toList "payments".toList (some "team".toList) none

theorem tableItem_obtained : Obtained sampleUrls tableItem :=
  Obtained.joined
    (Obtained.parsed (by decide +kernel :
      ConfigSource.parse "dynamodb://rules/core?key=team".toList =
        .ok (.dynamoDb "rules".toList "core".toList (some "team".toList)
          none)))
    (by decide +kernel : ConfigSource.join sampleUrls
      (.dynamoDb "rules".toList "core".toList (some "team".toList) none)
      "payments".toList = .ok tableItem)

theorem remote_named_by_url_item :
    ConfigSource.parse tableItem.display = .ok tableItem := by
  have readable : tableItem.Readable := by
    simp [ConfigSource.Readable, tableItem, ConfigSource.pathName]
  have last : tableItem.lastField = ['t', 'e', 'a', 'm'] := by
    simp [tableItem, ConfigSource.lastField, ConfigSource.parameters]
  have visible : ∀ c ∈ tableItem.lastField.getLast?,
      isWhitespace c = false := by
    rw [last]
    intro c isLast
    cases isLast
    rfl
  exact (remote_named_by_url_iff tableItem_obtained rfl).mpr
    ⟨readable, visible⟩

/-- `azappconfig://st/k` extends `a?b`: the new key opens a query. -/
theorem remote_misnamed_by_url :
    ∃ source, Obtained sampleUrls source ∧ source.isRemote = true ∧
      ConfigSource.parse source.display ≠ .ok source := by
  have base : ConfigSource.parse "azappconfig://st/k".toList =
      .ok (.azureAppConfig "st".toList "k".toList none) := by
    decide +kernel
  have joined : ConfigSource.join sampleUrls
      (.azureAppConfig "st".toList "k".toList none) "a?b".toList =
        .ok (.azureAppConfig "st".toList "a?b".toList none) := by
    decide +kernel
  exact ⟨_, Obtained.joined (Obtained.parsed base) joined, rfl,
    by decide +kernel⟩

end OpsSignal
