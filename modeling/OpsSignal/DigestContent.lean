import Mathlib.Logic.Equiv.Basic
import OpsSignal.GroupKey

/-!
# What a digest tells of its members

A digest is built by several passes over the members of a closed group:
some look at all of them, the message and the metadata list the first few.
-/

namespace OpsSignal

/-! ## Passes over the members -/

theorem rank_higher_left (first second : Severity) :
    first.rank ≤ (first.higher second).rank := by
  rw [Severity.higher]
  split
  · assumption
  · omega

theorem rank_higher_right (first second : Severity) :
    second.rank ≤ (first.higher second).rank := by
  rw [Severity.higher]
  split
  · omega
  · omega

/-- The pass ends at the start or at one of the severities, and nothing it
met is higher. -/
theorem foldl_higher (severities : List Severity) (start : Severity) :
    (severities.foldl Severity.higher start = start ∨
        severities.foldl Severity.higher start ∈ severities) ∧
      start.rank ≤ (severities.foldl Severity.higher start).rank ∧
      ∀ severity ∈ severities,
        severity.rank ≤ (severities.foldl Severity.higher start).rank := by
  induction severities generalizing start with
  | nil => simp
  | cons severity rest inductionHypothesis =>
      obtain ⟨origin, above, all⟩ :=
        inductionHypothesis (start.higher severity)
      have left := rank_higher_left start severity
      have right := rank_higher_right start severity
      refine ⟨?_, by simpa using left.trans above, ?_⟩
      · rw [List.foldl_cons]
        rcases origin with same | member
        · rw [same, Severity.higher]
          split
          · exact .inr (by simp)
          · exact .inl rfl
        · exact .inr (List.mem_cons_of_mem _ member)
      · intro other member
        rcases List.mem_cons.1 member with rfl | member
        · simpa using right.trans above
        · simpa using all other member

/-- The least of some times. -/
theorem foldl_min (times : List Int) (start : Int) :
    (times.foldl min start = start ∨ times.foldl min start ∈ times) ∧
      times.foldl min start ≤ start ∧
      ∀ time ∈ times, times.foldl min start ≤ time := by
  induction times generalizing start with
  | nil => simp
  | cons time rest inductionHypothesis =>
      obtain ⟨origin, below, all⟩ := inductionHypothesis (min start time)
      have choice : min start time = start ∨ min start time = time := by
        omega
      rw [List.foldl_cons]
      refine ⟨?_, by omega, ?_⟩
      · rcases origin with same | member
        · rcases choice with isStart | isTime
          · exact .inl (by omega)
          · exact .inr (by rw [same, isTime]; simp)
        · exact .inr (List.mem_cons_of_mem _ member)
      · intro other member
        rcases List.mem_cons.1 member with rfl | member
        · omega
        · exact all other member

/-- The greatest of some times. -/
theorem foldl_max (times : List Int) (start : Int) :
    (times.foldl max start = start ∨ times.foldl max start ∈ times) ∧
      start ≤ times.foldl max start ∧
      ∀ time ∈ times, time ≤ times.foldl max start := by
  induction times generalizing start with
  | nil => simp
  | cons time rest inductionHypothesis =>
      obtain ⟨origin, above, all⟩ := inductionHypothesis (max start time)
      have choice : max start time = start ∨ max start time = time := by
        omega
      rw [List.foldl_cons]
      refine ⟨?_, by omega, ?_⟩
      · rcases origin with same | member
        · rcases choice with isStart | isTime
          · exact .inl (by omega)
          · exact .inr (by rw [same, isTime]; simp)
        · exact .inr (List.mem_cons_of_mem _ member)
      · intro other member
        rcases List.mem_cons.1 member with rfl | member
        · omega
        · exact all other member

namespace Closed

variable (closed : Closed)

theorem head_mem : closed.members.head closed.nonempty ∈ closed.members :=
  List.head_mem closed.nonempty

/-- A field is set to a value exactly when every member has it. -/
theorem common_eq_some_iff (get : Signal → Option String) (value : String) :
    closed.common get = some value ↔
      ∀ member ∈ closed.members, get member.signal = some value := by
  have firstMember := closed.head_mem
  simp only [common, first]
  constructor
  · intro shared
    split at shared
    · cases shared
    · next found held =>
        split at shared
        · next all =>
            cases shared
            simpa using all
        · cases shared
  · intro all
    simp only [all _ firstMember]
    rw [if_pos (by simpa using all)]

theorem severity_spec :
    (∃ member ∈ closed.members,
        member.signal.severity = closed.severity) ∧
      ∀ member ∈ closed.members,
        member.signal.severity.rank ≤ closed.severity.rank := by
  obtain ⟨origin, _, all⟩ := foldl_higher
    (closed.members.map fun member => member.signal.severity) .info
  have bounded : ∀ member ∈ closed.members,
      member.signal.severity.rank ≤ closed.severity.rank :=
    fun member inside => all _ (List.mem_map_of_mem inside)
  refine ⟨?_, bounded⟩
  rcases origin with same | member
  · -- The start of the pass is the lowest severity, and some member is at
    -- most that high.
    refine ⟨_, closed.head_mem, ?_⟩
    have low := bounded _ closed.head_mem
    have isInfo : closed.severity = .info := same
    rw [isInfo] at low ⊢
    cases held : (closed.members.head closed.nonempty).signal.severity with
    | info => rfl
    | success => simp [held, Severity.rank] at low
    | warning => simp [held, Severity.rank] at low
    | error => simp [held, Severity.rank] at low
    | critical => simp [held, Severity.rank] at low
  · obtain ⟨held, inside, isSeverity⟩ := List.mem_map.1 member
    exact ⟨held, inside, isSeverity⟩

theorem firstAt_spec :
    (∃ member ∈ closed.members,
        member.signal.timestamp = closed.firstAt) ∧
      ∀ member ∈ closed.members,
        closed.firstAt ≤ member.signal.timestamp := by
  obtain ⟨origin, _, all⟩ := foldl_min
    (closed.members.map fun member => member.signal.timestamp)
    closed.first.timestamp
  refine ⟨?_, fun member inside => all _ (List.mem_map_of_mem inside)⟩
  rcases origin with same | member
  · exact ⟨_, closed.head_mem, same.symm⟩
  · obtain ⟨held, inside, isTime⟩ := List.mem_map.1 member
    exact ⟨held, inside, isTime⟩

theorem lastAt_spec :
    (∃ member ∈ closed.members,
        member.signal.timestamp = closed.lastAt) ∧
      ∀ member ∈ closed.members,
        member.signal.timestamp ≤ closed.lastAt := by
  obtain ⟨origin, _, all⟩ := foldl_max
    (closed.members.map fun member => member.signal.timestamp)
    closed.first.timestamp
  refine ⟨?_, fun member inside => all _ (List.mem_map_of_mem inside)⟩
  rcases origin with same | member
  · exact ⟨_, closed.head_mem, same.symm⟩
  · obtain ⟨held, inside, isTime⟩ := List.mem_map.1 member
    exact ⟨held, inside, isTime⟩

/-! ## The two lists -/

/-- The line of one member. -/
def memberLine (member : Member) : String :=
  "- [" ++ member.signal.severity.display ++ "] " ++ member.signal.title

theorem length_lines :
    closed.lines.length =
      min closed.members.length listedInMessage +
        if listedInMessage < closed.members.length then 1 else 0 := by
  simp only [lines]
  split
  · next long =>
      simp only [List.length_append, List.length_map, List.length_take,
        List.length_singleton]
      omega
  · next short =>
      simp only [List.length_map, List.length_take]
      omega

theorem getElem?_lines {index : Nat}
    (listed : index < min closed.members.length listedInMessage) :
    closed.lines[index]? = closed.members[index]?.map memberLine := by
  have inside : index < (closed.members.take listedInMessage).length := by
    rw [List.length_take]
    omega
  have entry :
      ((closed.members.take listedInMessage).map memberLine)[index]? =
        closed.members[index]?.map memberLine := by
    rw [List.getElem?_map, List.getElem?_take_of_lt (by omega)]
  simp only [lines]
  split
  · rw [List.getElem?_append_left (by simpa using inside)]
    exact entry
  · exact entry

/-- The line after the members that are listed. -/
theorem getElem?_lines_last
    (long : listedInMessage < closed.members.length) :
    closed.lines[listedInMessage]? =
      some ("...and " ++
        toString (closed.members.length - listedInMessage) ++ " more") := by
  simp only [lines, if_pos long]
  have full :
      (closed.members.take listedInMessage).length = listedInMessage := by
    rw [List.length_take]
    omega
  rw [List.getElem?_append_right (by simp), List.length_map, full,
    Nat.sub_self]
  rfl

theorem getElem?_signals (platform : Platform) {index : Nat}
    (listed : index < min closed.members.length listedInMetadata) :
    ((closed.members.take listedInMetadata).map fun member =>
        memberJson platform member.signal)[index]? =
      closed.members[index]?.map fun member =>
        memberJson platform member.signal := by
  rw [List.getElem?_map, List.getElem?_take_of_lt (by omega)]

end Closed

/-! ## The digest as a whole -/

/-- `metadata.digest`, by the name of an entry. -/
def digestEntry (digest : Signal) (name : String) : Option Json :=
  (digest.metadata.get "digest").bind (Json.get name)

/-- What a field the members share is set to. -/
def SharedOr (members : List Member) (get : Signal → String)
    (fallback value : String) : Prop :=
  (∀ shared, (∀ member ∈ members, get member.signal = shared) →
      value = shared) ∧
    ((¬ ∃ shared, ∀ member ∈ members, get member.signal = shared) →
      value = fallback)

/-- An optional field is set exactly to a value that every member has. -/
def SharedByAll (members : List Member) (get : Signal → Option String)
    (value : Option String) : Prop :=
  ∀ shared, value = some shared ↔
    ∀ member ∈ members, get member.signal = some shared

/-- The digest accounts for all members of its group. -/
structure Accounts
    (platform : Platform) (members : List Member) (digest : Signal) :
    Prop where
  count : digestEntry digest "count" =
    some (.number (toString members.length))
  title : ∃ first rest, members = first :: rest ∧
    digest.title = first.signal.title ++ " (+" ++
      toString (members.length - 1) ++ " more)"
  severity : (∃ member ∈ members,
      member.signal.severity = digest.severity) ∧
    ∀ member ∈ members,
      member.signal.severity.rank ≤ digest.severity.rank
  message : ∃ lines,
    digest.message = some (String.intercalate "\n" lines) ∧
      lines.length =
        min members.length 20 + (if 20 < members.length then 1 else 0) ∧
      (∀ index < min members.length 20,
        lines[index]? = members[index]?.map Closed.memberLine) ∧
      (20 < members.length → ∃ more,
        lines[20]? = some ("...and " ++ toString more ++ " more") ∧
          20 + more = members.length)
  signals : ∃ items, digestEntry digest "signals" = some (.array items) ∧
    items.length = min members.length 100 ∧
    ∀ index < min members.length 100,
      items[index]? = members[index]?.map fun member =>
        Closed.memberJson platform member.signal
  firstAt : ∃ time,
    digestEntry digest "first_at" =
        some (.string (platform.showTime time)) ∧
      (∃ member ∈ members, member.signal.timestamp = time) ∧
      ∀ member ∈ members, time ≤ member.signal.timestamp
  lastAt : ∃ time,
    digestEntry digest "last_at" =
        some (.string (platform.showTime time)) ∧
      (∃ member ∈ members, member.signal.timestamp = time) ∧
      ∀ member ∈ members, member.signal.timestamp ≤ time
  service : SharedByAll members Signal.service digest.service
  component : SharedByAll members Signal.component digest.component
  environment : SharedByAll members Signal.environment digest.environment
  team : SharedByAll members Signal.team digest.team
  runId : SharedByAll members Signal.runId digest.runId
  correlationId : SharedByAll members Signal.correlationId digest.correlationId
  traceId : SharedByAll members Signal.traceId digest.traceId
  logUrl : SharedByAll members Signal.logUrl digest.logUrl
  source : SharedOr members Signal.source "opssignal" digest.source
  eventType : SharedOr members Signal.eventType "digest" digest.eventType

theorem sharedOr_common
    (closed : Closed) (get : Signal → String) (fallback : String) :
    SharedOr closed.members get fallback
      ((closed.common fun signal => some (get signal)).getD fallback) := by
  constructor
  · intro shared all
    have found := (closed.common_eq_some_iff (fun signal => some (get signal))
      shared).2 fun member inside => congrArg some (all member inside)
    rw [found, Option.getD_some]
  · intro apart
    cases found : closed.common fun signal => some (get signal) with
    | none => rfl
    | some shared =>
        have all := (closed.common_eq_some_iff _ shared).1 found
        exact absurd ⟨shared, fun member inside =>
          Option.some.inj (all member inside)⟩ apart

theorem accounts_digest
    (platform : Platform) (id : String) (timestamp : Int)
    (closed : Closed) :
    Accounts platform closed.members
      (closed.digest platform id timestamp) where
  count := rfl
  title := by
    refine ⟨closed.members.head closed.nonempty, closed.members.tail,
      (List.cons_head_tail closed.nonempty).symm, rfl⟩
  severity := closed.severity_spec
  message := by
    refine ⟨closed.lines, rfl, closed.length_lines,
      fun index listed => closed.getElem?_lines listed, ?_⟩
    intro long
    refine ⟨closed.members.length - 20, closed.getElem?_lines_last long, ?_⟩
    omega
  signals := by
    refine ⟨_, rfl, ?_, fun index listed =>
      closed.getElem?_signals platform listed⟩
    rw [List.length_map, List.length_take, min_comm]
    rfl
  firstAt := ⟨closed.firstAt, rfl, closed.firstAt_spec⟩
  lastAt := ⟨closed.lastAt, rfl, closed.lastAt_spec⟩
  service := closed.common_eq_some_iff Signal.service
  component := closed.common_eq_some_iff Signal.component
  environment := closed.common_eq_some_iff Signal.environment
  team := closed.common_eq_some_iff Signal.team
  runId := closed.common_eq_some_iff Signal.runId
  correlationId := closed.common_eq_some_iff Signal.correlationId
  traceId := closed.common_eq_some_iff Signal.traceId
  logUrl := closed.common_eq_some_iff Signal.logUrl
  source := sharedOr_common closed Signal.source "opssignal"
  eventType := sharedOr_common closed Signal.eventType "digest"

theorem digestKey_eq_iff
    {platform : Platform} {left right : Closed}
    (collisionFree : Function.Injective platform.sha256)
    (jsonTells : left.route.serialize.text = right.route.serialize.text →
      left.route.serialize = right.route.serialize) :
    left.digestKey platform = right.digestKey platform ↔
      left.route = right.route ∧ left.by_ = right.by_ := by
  constructor
  · intro same
    have chars := congrArg String.toList same
    simp only [Closed.digestKey, String.toList_append] at chars
    have digests := String.toList_inj.1 (List.append_cancel_left chars)
    obtain ⟨routeKeys, texts⟩ := parts_of_groupKey_eq (collisionFree digests)
    exact ⟨serialize_injective (jsonTells (collisionFree routeKeys)),
      GroupValues.serialize_text_injective texts⟩
  · rintro ⟨sameRoute, sameValues⟩
    simp only [Closed.digestKey, sameRoute, sameValues]

/-- The digest of a group of two or more accounts for all of its members,
and two digests have one dedup key exactly if their routes and group
values are the same. -/
theorem digest_accounts (platform : Platform) :
    (∀ id timestamp (closed : Closed), 2 ≤ closed.members.length →
      Accounts platform closed.members
        (closed.digest platform id timestamp)) ∧
      ∀ (left right : Closed) leftId rightId leftTime rightTime,
        2 ≤ left.members.length → 2 ≤ right.members.length →
        Function.Injective platform.sha256 →
        (left.route.serialize.text = right.route.serialize.text →
          left.route.serialize = right.route.serialize) →
          ((left.digest platform leftId leftTime).dedupKey =
              (right.digest platform rightId rightTime).dedupKey ↔
            left.route = right.route ∧ left.by_ = right.by_) := by
  refine ⟨fun id timestamp closed _ =>
    accounts_digest platform id timestamp closed, ?_⟩
  intro left right leftId rightId leftTime rightTime _ _ collisionFree
    jsonTells
  rw [← digestKey_eq_iff collisionFree jsonTells]
  simp [Closed.digest, Closed.digestInput, SignalInput.effectiveDedupKey]

/-! ## Two groups of test failures -/

def dbtRoute : Route where
  providers := ["slack"]
  groupBy := some ["run_id"]

def dbtValues (run : String) : GroupValues :=
  [("run_id", some run)]

/-- A digest without collisions that is the SHA-256 digest of the three
texts hashed here. -/
def dbtPlatform : Platform where
  sha256 :=
    ((Equiv.swap dbtRoute.serialize.text
      "e89db64d4e5ac4a83ab76361d9f4ce75d093a922794b369d68834b78d679a477").trans
    (Equiv.swap
      ("e89db64d4e5ac4a83ab76361d9f4ce75d093a922794b369d68834b78d679a477" ++
        "\n" ++ (dbtValues "9").serialize.text)
      "ed95e1ad6687484543bd4b5a6435506778510a7ffd98d4ec34fc9d3a67ef9cf7")).trans
    (Equiv.swap
      ("e89db64d4e5ac4a83ab76361d9f4ce75d093a922794b369d68834b78d679a477" ++
        "\n" ++ (dbtValues "8").serialize.text)
      "77788ffb164dfb775c7e0b7b0244101b814fda38daa59aac87c900fc5056a6e7")
  showTime _ := "2026-01-01T00:00:00Z"

def dbtMember (run title : String) (severity : Severity) : Member where
  signal := Signal.fromInput dbtPlatform title 0
    { source := "dbt", eventType := "test_failed", title := title,
      severity := severity, runId := some run }
  admission := {}
  ownsRow := false

def dbtGroup (run : String) : Closed where
  route := dbtRoute
  by_ := dbtValues run
  members :=
    [dbtMember run "test a failed" .warning,
      dbtMember run "test b failed" .error]
  nonempty := by simp

theorem digest_accounts_dbt :
    Accounts dbtPlatform (dbtGroup "9").members
        ((dbtGroup "9").digest dbtPlatform "digest" 1) ∧
      ((dbtGroup "9").digest dbtPlatform "first" 1).dedupKey ≠
        ((dbtGroup "8").digest dbtPlatform "second" 2).dedupKey := by
  have collisionFree : Function.Injective dbtPlatform.sha256 :=
    (Equiv.trans _ _).injective
  refine ⟨(digest_accounts dbtPlatform).1 _ _ _ (by simp [dbtGroup]), ?_⟩
  rw [Ne, (digest_accounts dbtPlatform).2 (dbtGroup "9") (dbtGroup "8") _ _ _
    _ (by simp [dbtGroup]) (by simp [dbtGroup]) collisionFree fun _ => rfl]
  rintro ⟨_, sameValues⟩
  simp [dbtGroup, dbtValues] at sameValues

end OpsSignal
