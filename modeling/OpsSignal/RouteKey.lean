import Mathlib.Data.List.Basic
import OpsSignal.Routing

/-!
# Route keys

A route's history is kept under a hash of its whole definition: the
SHA-256 digest of its JSON text.  The JSON value determines the route, so
two routes share a history only if they are the same route or the digest
of two different texts is the same.
-/

namespace OpsSignal

/-! ## JSON text -/

namespace Json

/-- A hexadecimal digit of an escape. -/
def hexDigit (value : Nat) : Char :=
  "0123456789abcdef".toList.getD value '0'

/-- How a character stands in a JSON string. -/
def escapeChar (c : Char) : List Char :=
  if c = '"' then ['\\', '"']
  else if c = '\\' then ['\\', '\\']
  else if c = '\n' then ['\\', 'n']
  else if c = '\r' then ['\\', 'r']
  else if c = '\t' then ['\\', 't']
  else if c.toNat = 8 then ['\\', 'b']
  else if c.toNat = 12 then ['\\', 'f']
  else if c.toNat < 32 then
    ['\\', 'u', '0', '0', hexDigit (c.toNat / 16), hexDigit (c.toNat % 16)]
  else [c]

def quoted (text : String) : String :=
  "\"" ++ String.ofList (text.toList.flatMap escapeChar) ++ "\""

mutual

/-- The compact text of a value. -/
def text : Json → String
  | .null => "null"
  | .bool value => if value then "true" else "false"
  | .number digits => digits
  | .string content => quoted content
  | .array items => "[" ++ String.intercalate "," (itemTexts items) ++ "]"
  | .object fields =>
      "\x7b" ++ String.intercalate "," (fieldTexts fields) ++ "\x7d"

def itemTexts : List Json → List String
  | [] => []
  | item :: rest => text item :: itemTexts rest

def fieldTexts : List (String × Json) → List String
  | [] => []
  | (name, value) :: rest =>
      (quoted name ++ ":" ++ text value) :: fieldTexts rest

end

end Json

/-! ## The JSON of a route -/

def optionalText : Option String → Json
  | some content => .string content
  | none => .null

def RouteMatch.serialize (rule : RouteMatch) : Json :=
  .object
    [("severity",
        .array (rule.severity.map fun severity =>
          .string severity.display)),
      ("environment", optionalText rule.environment),
      ("source", optionalText rule.source)]

def Window.serialize (window : Window) : Json :=
  .string window.display

def RateLimit.serialize (limit : RateLimit) : Json :=
  .object
    [("max", .number (toString limit.max.toNat)),
      ("per", limit.per.serialize)]

/-- A field that is left out where it is not set. -/
def optionalField (name : String) : Option Json → List (String × Json)
  | some value => [(name, value)]
  | none => []

def Route.serialize (route : Route) : Json :=
  .object
    ([("match", route.matchRule.serialize),
        ("providers", .array (route.providers.map Json.string)),
        ("mode", .string route.mode.display)] ++
      optionalField "dedup" (route.dedup.map Window.serialize) ++
      optionalField "rate_limit" (route.rateLimit.map RateLimit.serialize) ++
      optionalField "group_by"
        (route.groupBy.map fun names => .array (names.map Json.string)) ++
      optionalField "group_wait" (route.groupWait.map Window.serialize))

/-- `route_key`. -/
def routeKey (platform : Platform) (route : Route) : String :=
  platform.sha256 route.serialize.text

/-! ## The text of a window determines it -/

private theorem repr_injective_toList {first second : Nat}
    (same : Nat.toDigits 10 first = Nat.toDigits 10 second) :
    first = second := by
  have left := @Nat.ofDigitChars_ten_toDigits first
  have right := @Nat.ofDigitChars_ten_toDigits second
  rw [← left, ← right, same]

/-- The units a window is printed in, with their lengths in seconds. -/
def windowUnits : List (Nat × Char) :=
  [(86400, 'd'), (3600, 'h'), (60, 'm'), (1, 's')]

theorem unit_cases (secs : Nat) :
    ∃ size unit, (size, unit) ∈ windowUnits ∧
      Window.printed secs = (secs / size, String.singleton unit) ∧
      secs / size * size = secs := by
  unfold Window.printed
  split
  · rename_i days
    exact ⟨86400, 'd', by decide, rfl, by omega⟩
  · split
    · rename_i hours
      exact ⟨3600, 'h', by decide, rfl, by omega⟩
    · split
      · rename_i minutes
        exact ⟨60, 'm', by decide, rfl, by omega⟩
      · exact ⟨1, 's', by decide, by rw [Nat.div_one]; rfl, by omega⟩

/-- A window can be read back from the text it prints. -/
theorem display_injective {first second : Window}
    (same : first.display = second.display) : first = second := by
  obtain ⟨firstSize, firstUnit, firstListed, firstPrinted, firstWhole⟩ :=
    unit_cases first.secs.toNat
  obtain ⟨secondSize, secondUnit, secondListed, secondPrinted,
    secondWhole⟩ := unit_cases second.secs.toNat
  have chars := congrArg String.toList same
  simp only [Window.display, firstPrinted, secondPrinted,
    String.toList_append, Nat.toString_eq_repr, Nat.toList_repr,
    String.toList_singleton] at chars
  obtain ⟨digits, units⟩ := List.append_inj' chars rfl
  have sameCount := repr_injective_toList digits
  have sameUnit : firstUnit = secondUnit := by simpa using units
  have sizeOfUnit : ∀ left ∈ windowUnits, ∀ right ∈ windowUnits,
      left.2 = right.2 → left.1 = right.1 := by
    decide
  have sameSize : firstSize = secondSize :=
    sizeOfUnit _ firstListed _ secondListed sameUnit
  have sameSecs : first.secs.toNat = second.secs.toNat := by
    rw [← firstWhole, ← secondWhole, sameCount, sameSize]
  cases first
  cases second
  congr
  exact UInt64.toNat_inj.mp sameSecs

/-! ## The JSON of a route determines it -/

private theorem severity_display_injective :
    ∀ first second : Severity,
      first.display = second.display → first = second := by
  intro first second same
  cases first <;> cases second <;>
    first
      | rfl
      | exact absurd same (by decide)

private theorem mode_display_injective :
    ∀ first second : DeliveryMode,
      first.display = second.display → first = second := by
  intro first second same
  cases first <;> cases second <;>
    first
      | rfl
      | exact absurd same (by decide)

private theorem optionalText_injective :
    ∀ {first second : Option String},
      optionalText first = optionalText second → first = second
  | none, none, _ => rfl
  | some _, some _, same => by
      cases same
      rfl
  | none, some _, same => by cases same
  | some _, none, same => by cases same

private theorem matchRule_serialize_injective
    {first second : RouteMatch}
    (same : first.serialize = second.serialize) : first = second := by
  simp only [RouteMatch.serialize, Json.object.injEq, List.cons.injEq,
    Prod.mk.injEq, Json.array.injEq, true_and, and_true] at same
  obtain ⟨severities, environments, sources⟩ := same
  have sameSeverity : first.severity = second.severity := by
    apply List.map_injective_iff.mpr _ severities
    intro left right equal
    exact severity_display_injective left right (Json.string.inj equal)
  have sameEnvironment := optionalText_injective environments
  have sameSource := optionalText_injective sources
  cases first
  cases second
  simp_all

private theorem limit_serialize_injective
    {first second : RateLimit}
    (same : first.serialize = second.serialize) : first = second := by
  simp only [RateLimit.serialize, Window.serialize, Json.object.injEq,
    List.cons.injEq, Prod.mk.injEq, Json.number.injEq, Json.string.injEq,
    true_and, and_true] at same
  obtain ⟨counts, periods⟩ := same
  have samePer := display_injective periods
  have digits := congrArg String.toList counts
  simp only [Nat.toString_eq_repr, Nat.toList_repr] at digits
  have sameMax := UInt32.toNat_inj.mp (repr_injective_toList digits)
  cases first
  cases second
  simp_all

private theorem lookup_optionalField
    (name wanted : String) (value : Option Json) :
    (optionalField name value).lookup wanted =
      if wanted = name then value else none := by
  cases value with
  | none => simp [optionalField]
  | some content =>
      by_cases same : wanted = name
      · simp [optionalField, same]
      · have different : (wanted == name) = false := by simpa using same
        simp [optionalField, List.lookup_cons, same, different]

private theorem option_map_injective
    {Source Target : Type} {convert : Source → Target}
    (injective : ∀ left right, convert left = convert right → left = right) :
    ∀ {first second : Option Source},
      first.map convert = second.map convert → first = second
  | none, none, _ => rfl
  | some left, some right, same => by
      simp only [Option.map_some, Option.some.injEq] at same
      rw [injective left right same]
  | none, some _, same => by cases same
  | some _, none, same => by cases same

/-- Editing a route changes its JSON. -/
theorem serialize_injective {first second : Route}
    (same : first.serialize = second.serialize) : first = second := by
  simp only [Route.serialize, Json.object.injEq] at same
  have sameField : ∀ wanted, _ := fun wanted =>
    congrArg (List.lookup wanted) same
  simp only [List.lookup_append, lookup_optionalField] at sameField
  have rules : first.matchRule.serialize = second.matchRule.serialize := by
    simpa [List.lookup_cons] using sameField "match"
  have providers : first.providers.map Json.string =
      second.providers.map Json.string := by
    simpa [List.lookup_cons] using sameField "providers"
  have modes : first.mode.display = second.mode.display := by
    simpa [List.lookup_cons] using sameField "mode"
  have dedups : first.dedup.map Window.serialize =
      second.dedup.map Window.serialize := by
    simpa [List.lookup_cons] using sameField "dedup"
  have limits : first.rateLimit.map RateLimit.serialize =
      second.rateLimit.map RateLimit.serialize := by
    simpa [List.lookup_cons] using sameField "rate_limit"
  have fields :
      first.groupBy.map (fun names => Json.array (names.map Json.string)) =
        second.groupBy.map
          fun names => Json.array (names.map Json.string) := by
    simpa [List.lookup_cons] using sameField "group_by"
  have waits : first.groupWait.map Window.serialize =
      second.groupWait.map Window.serialize := by
    simpa [List.lookup_cons] using sameField "group_wait"
  have strings : ∀ left right : List String,
      left.map Json.string = right.map Json.string → left = right := by
    intro left right equal
    exact List.map_injective_iff.mpr (fun _ _ => Json.string.inj) equal
  have windows : ∀ left right : Window,
      left.serialize = right.serialize → left = right := by
    intro left right equal
    exact display_injective (Json.string.inj equal)
  have sameRule := matchRule_serialize_injective rules
  have sameProviders := strings _ _ providers
  have sameMode := mode_display_injective _ _ modes
  have sameDedup := option_map_injective windows dedups
  have sameLimit := option_map_injective
    (fun _ _ => limit_serialize_injective) limits
  have sameFields := option_map_injective
    (fun left right equal => strings left right (Json.array.inj equal))
    fields
  have sameWait := option_map_injective windows waits
  cases first
  cases second
  simp_all

/-- The digests of the routes' texts tell the routes apart, and a digest
is hexadecimal. -/
structure KeysApart (platform : Platform) (routes : List Route) : Prop where
  apart : ∀ left ∈ routes, ∀ right ∈ routes,
    platform.sha256 left.serialize.text =
        platform.sha256 right.serialize.text →
      left.serialize = right.serialize
  hexadecimal : ∀ route ∈ routes,
    '#' ∉ (platform.sha256 route.serialize.text).toList

theorem eq_of_routeKey_eq
    {platform : Platform} {routes : List Route}
    (keys : KeysApart platform routes) {left right : Route}
    (leftMember : left ∈ routes) (rightMember : right ∈ routes)
    (same : routeKey platform left = routeKey platform right) :
    left = right :=
  serialize_injective (keys.apart left leftMember right rightMember same)

end OpsSignal
