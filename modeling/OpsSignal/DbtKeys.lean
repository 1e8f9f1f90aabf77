import OpsSignal.DbtRollUp
import OpsSignal.DedupKeys
import OpsSignal.Throttle

/-!
# The dedup keys of dbt nodes

A node's key is computed from its type, its outcome and one component of
its id.  Nodes that agree in these have one key, so a route with `dedup`
takes the second of them for a repeat of the first.
-/

namespace OpsSignal

open Framing

variable {platform : Platform} {python : Python} {document : Json}
  {environment : Option String} {maxSignals : Int}

/-! ## The input of a signal -/

/-- A string argument; `notify` raises on any other value but `None`. -/
def Json.asText : Json → Option String
  | .string text => some text
  | _ => none

/-- The input `notify` builds. -/
def NodeSignal.input (signal : NodeSignal) : SignalInput where
  source := signal.source
  service := signal.service
  component := some signal.component
  eventType := signal.eventType
  severity := signal.severity
  title := signal.title
  message := signal.message.asText
  environment := signal.environment
  runId := signal.runId.asText
  metadata := some (.object signal.metadata)

/-- The key the sends of a node are recorded under. -/
def NodeSignal.throttleKey (platform : Platform) (id : String)
    (timestamp : Int) (signal : NodeSignal) : String :=
  OpsSignal.throttleKey
    (Signal.fromInput platform id timestamp signal.input)

theorem throttleKey_eq (id : String) (timestamp : Int)
    (signal : NodeSignal) :
    signal.throttleKey platform id timestamp =
      computeDedupKey platform signal.input :=
  rfl

/-- A send of the first never decides whether the second is a repeat. -/
def NeverRepeats (platform : Platform) (first second : NodeSignal) : Prop :=
  ∀ (route : Route) (table : Table) (firstId secondId : String)
    (firstTime secondTime sentAt now : Int),
    (signalCheck platform route).duplicateOf
        (second.throttleKey platform secondId secondTime) now
        (table ++ [⟨routeKey platform route,
          first.throttleKey platform firstId firstTime, sentAt⟩]) =
      (signalCheck platform route).duplicateOf
        (second.throttleKey platform secondId secondTime) now table

/-- The signals have keys of their own, and neither is a repeat of the
other. -/
structure TwoIncidents (platform : Platform) (left right : NodeSignal) :
    Prop where
  keys : computeDedupKey platform left.input ≠
    computeDedupKey platform right.input
  forth : NeverRepeats platform left right
  back : NeverRepeats platform right left

theorem neverRepeats_of_keys {first second : NodeSignal}
    (different : computeDedupKey platform first.input ≠
      computeDedupKey platform second.input) :
    NeverRepeats platform first second := by
  intro route table firstId secondId firstTime secondTime sentAt now
  rw [throttleKey_eq, throttleKey_eq, Check.duplicateOf, Check.duplicateOf,
    Check.newest, Check.newest, List.filter_append]
  simp [different]

theorem twoIncidents_iff {left right : NodeSignal} :
    TwoIncidents platform left right ↔
      computeDedupKey platform left.input ≠
        computeDedupKey platform right.input :=
  ⟨TwoIncidents.keys, fun different =>
    ⟨different, neverRepeats_of_keys different,
      neverRepeats_of_keys different.symm⟩⟩

/-! ## Ids -/

/-- `type.project.name`, and perhaps further components.  The type is a
word. -/
structure DbtForm (uniqueId : String) : Prop where
  three : 3 ≤ (idParts uniqueId).length
  word : ((idParts uniqueId).headD []).all
    (fun c => c.isAlpha || c == '_') = true

/-- Whether an id is a test's or a unit test's. -/
def IsTest (uniqueId : String) : Prop :=
  (idParts uniqueId).headD [] = "test".toList ∨
    (idParts uniqueId).headD [] = "unit_test".toList

instance (uniqueId : String) : Decidable (IsTest uniqueId) :=
  inferInstanceAs (Decidable (_ ∨ _))

/-- The component a node is called by: of a test the third one, of any
other node the last one. -/
def calledBy (uniqueId : String) : List Char :=
  if IsTest uniqueId then (idParts uniqueId).getD 2 []
  else (idParts uniqueId).getLastD []

/-- Nodes of one type that end alike and are called alike. -/
structure Alike (left right : DbtNode) : Prop where
  type : (idParts left.uniqueId).headD [] =
    (idParts right.uniqueId).headD []
  outcome : left.outcome = right.outcome
  name : calledBy left.uniqueId = calledBy right.uniqueId

theorem nodeName_eq {uniqueId : String} (form : DbtForm uniqueId) :
    nodeName uniqueId = String.ofList (calledBy uniqueId) := by
  have three := form.three
  rw [nodeName, calledBy]
  by_cases test : IsTest uniqueId
  · rw [if_pos test]
    split
    · rfl
    · rename_i short
      have exactly : (idParts uniqueId).length = 3 := by
        have notFour : ¬ 4 ≤ (idParts uniqueId).length :=
          fun four => short ⟨test, four⟩
        omega
      obtain ⟨first, second, third, parts⟩ :=
        List.length_eq_three.mp exactly
      rw [parts]
      rfl
  · rw [if_neg test, if_neg fun both => test both.1]
    cases parts : idParts uniqueId with
    | nil => exact absurd parts (splitOn_ne_nil _ _)
    | cons first rest => rfl

theorem mem_of_two_parts {separator : Char} {text : List Char}
    (two : 2 ≤ (splitOn separator text).length) : separator ∈ text := by
  induction text with
  | nil => simp [splitOn] at two
  | cons c text inductionHypothesis =>
      by_cases same : c = separator
      · exact same ▸ List.mem_cons_self
      · apply List.mem_cons_of_mem
        apply inductionHypothesis
        rw [splitOn, if_neg same] at two
        cases pieces : splitOn separator text with
        | nil => exact absurd pieces (splitOn_ne_nil _ _)
        | cons piece more =>
            rw [pieces] at two
            exact two

theorem resourceType_eq {uniqueId : String} (form : DbtForm uniqueId) :
    resourceType uniqueId none =
      String.ofList ((idParts uniqueId).headD []) := by
  have dotted : '.' ∈ uniqueId.toList :=
    mem_of_two_parts (Nat.le_of_succ_le form.three)
  simp [resourceType, dotted]

/-! ## Keys -/

/-- The event type of a node. -/
def typeText (node : DbtNode) : List Char :=
  "dbt_".toList ++ (idParts node.uniqueId).headD [] ++
    '_' :: node.outcome.display.toList

/-- The title of a node. -/
def titleText (node : DbtNode) : List Char :=
  "dbt ".toList ++
    ((idParts node.uniqueId).headD []).map
      (fun c => if c = '_' then ' ' else c) ++
    ' ' :: node.outcome.display.toList ++ ": ".toList ++
    calledBy node.uniqueId

/-- The fields a signal's key is computed from, as its node has them. -/
structure NodeSignal.Names
    (environment : Option String) (signal : NodeSignal) (node : DbtNode) :
    Prop where
  source : signal.source = "dbt"
  eventType : DbtForm node.uniqueId →
    signal.eventType.toList = typeText node
  title : DbtForm node.uniqueId → signal.title.toList = titleText node
  environment : signal.environment = environment

theorem resultSignal_names (run : DbtRun) (result : Json) :
    Option.Rel (NodeSignal.Names environment)
      (run.resultSignal python environment result)
      (dbtNode python result) := by
  cases result with
  | object result =>
      rw [DbtRun.resultSignal, dbtNode, nodeSignal]
      cases statusOutcome (lower (resultStatus python result)) with
      | none => exact Option.Rel.none
      | some outcome =>
          refine Option.Rel.some ⟨rfl, ?_, ?_, rfl⟩
          · intro form
            simp [resourceType_eq form, typeText]
          · intro form
            simp [resourceType_eq form, nodeName_eq form, titleText]
  | null | bool | number | string | array => exact Option.Rel.none

theorem bar_not_mem_typeText {node : DbtNode}
    (form : DbtForm node.uniqueId) : '|' ∉ typeText node := by
  have word : '|' ∉ (idParts node.uniqueId).headD [] := by
    intro member
    have letter := List.all_eq_true.mp form.word '|' member
    revert letter
    decide
  cases outcome : node.outcome <;>
    simp [typeText, outcome, Outcome.display] <;> simpa using word

/-- The type and the outcome are read back from the event type. -/
theorem typeText_injective {left right : DbtNode}
    (same : typeText left = typeText right) :
    (idParts left.uniqueId).headD [] = (idParts right.uniqueId).headD [] ∧
      left.outcome = right.outcome := by
  have lengths : ∀ first second : Outcome,
      ('_' :: first.display.toList).length =
        ('_' :: second.display.toList).length := by
    intro first second
    cases first <;> cases second <;> rfl
  have tails : ∀ first second : Outcome,
      '_' :: first.display.toList = '_' :: second.display.toList →
        first = second := by
    intro first second
    cases first <;> cases second <;> simp [Outcome.display]
  rw [typeText, typeText, List.append_assoc, List.append_assoc] at same
  obtain ⟨types, outcomes⟩ := List.append_inj'
    (List.append_cancel_left same) (lengths _ _)
  exact ⟨types, tails _ _ outcomes⟩

theorem titleText_eq_iff {left right : DbtNode}
    (type : (idParts left.uniqueId).headD [] =
      (idParts right.uniqueId).headD [])
    (outcome : left.outcome = right.outcome) :
    titleText left = titleText right ↔
      calledBy left.uniqueId = calledBy right.uniqueId := by
  rw [titleText, titleText, type, outcome]
  exact List.append_right_inj _

/-- Nodes have one key exactly if they are alike. -/
theorem key_eq_iff
    (collisionFree : Function.Injective platform.sha256)
    {left right : NodeSignal} {leftNode rightNode : DbtNode}
    (leftForm : DbtForm leftNode.uniqueId)
    (rightForm : DbtForm rightNode.uniqueId)
    (leftNames : left.Names environment leftNode)
    (rightNames : right.Names environment rightNode) :
    computeDedupKey platform left.input =
        computeDedupKey platform right.input ↔
      Alike leftNode rightNode := by
  have leftTexts : terminated '|' left.input.barred ++
      left.input.environmentText =
        "dbt".toList ++ '|' :: (typeText leftNode ++ '|' ::
          (titleText leftNode ++ '|' ::
            (environment.getD "").toList)) := by
    simp [SignalInput.barred, SignalInput.environmentText,
      NodeSignal.input, leftNames.source, leftNames.eventType leftForm,
      leftNames.title leftForm, leftNames.environment]
  have rightTexts : terminated '|' right.input.barred ++
      right.input.environmentText =
        "dbt".toList ++ '|' :: (typeText rightNode ++ '|' ::
          (titleText rightNode ++ '|' ::
            (environment.getD "").toList)) := by
    simp [SignalInput.barred, SignalInput.environmentText,
      NodeSignal.input, rightNames.source, rightNames.eventType rightForm,
      rightNames.title rightForm, rightNames.environment]
  rw [computeDedupKey_eq, computeDedupKey_eq, collisionFree.eq_iff,
    String.ofList_inj, leftTexts, rightTexts]
  constructor
  · intro same
    have noBars : (typeText leftNode).count '|' =
        (typeText rightNode).count '|' := by
      rw [List.count_eq_zero.mpr (bar_not_mem_typeText leftForm),
        List.count_eq_zero.mpr (bar_not_mem_typeText rightForm)]
    obtain ⟨types, rest⟩ := eq_of_append_separator noBars
      (List.cons.inj (List.append_cancel_left same)).2
    obtain ⟨type, outcome⟩ := typeText_injective types
    have titles := List.append_cancel_right rest
    exact ⟨type, outcome, (titleText_eq_iff type outcome).mp titles⟩
  · intro alike
    rw [(titleText_eq_iff alike.type alike.outcome).mpr alike.name,
      typeText, typeText, alike.type, alike.outcome]

/-! ## All nodes of a run -/

section

variable {Left Right : Type} {relation : Left → Right → Prop}
  {left : List Left} {right : List Right}

theorem forall_iff_of_forall₂
    {holds : Left → Prop} {needs : Right → Prop}
    (related : List.Forall₂ relation left right)
    (agree : ∀ {other second}, second ∈ right → relation other second →
      (holds other ↔ needs second)) :
    (∀ other ∈ left, holds other) ↔ ∀ second ∈ right, needs second := by
  induction related with
  | nil => exact iff_of_true nofun nofun
  | cons same rest inductionHypothesis =>
      rw [List.forall_mem_cons, List.forall_mem_cons,
        agree List.mem_cons_self same,
        inductionHypothesis fun member =>
          agree (List.mem_cons_of_mem _ member)]

theorem pairwise_iff_of_forall₂
    {holds : Left → Left → Prop} {needs : Right → Right → Prop}
    (related : List.Forall₂ relation left right)
    (agree : ∀ {one other first second}, first ∈ right → second ∈ right →
      relation one first → relation other second →
        (holds one other ↔ needs first second)) :
    left.Pairwise holds ↔ right.Pairwise needs := by
  induction related with
  | nil => exact iff_of_true List.Pairwise.nil List.Pairwise.nil
  | cons same rest inductionHypothesis =>
      rw [List.pairwise_cons, List.pairwise_cons,
        forall_iff_of_forall₂ rest fun member related =>
          agree List.mem_cons_self (List.mem_cons_of_mem _ member) same
            related,
        inductionHypothesis fun firstMember secondMember =>
          agree (List.mem_cons_of_mem _ firstMember)
            (List.mem_cons_of_mem _ secondMember)]

end

theorem pairwise_twoIncidents_iff
    (collisionFree : Function.Injective platform.sha256)
    (form : ∀ node ∈ dbtNodes python document, DbtForm node.uniqueId)
    (run : DbtRun) :
    ((documentResults document).filterMap
        (run.resultSignal python environment)).Pairwise
          (TwoIncidents platform) ↔
      (dbtNodes python document).Pairwise
        fun left right => ¬ Alike left right := by
  apply pairwise_iff_of_forall₂
    (forall₂_filterMap (resultSignal_names run) _)
  intro one other first second firstMember secondMember oneNames otherNames
  rw [twoIncidents_iff]
  exact not_congr (key_eq_iff collisionFree (form first firstMember)
    (form second secondMember) oneNames otherNames)

/-- Where the maximum is not exceeded, every node has its own signal. -/
theorem signals_of_few
    (wellFormed : IsRunResults python document)
    (few : ((dbtNodes python document).length : Int) ≤ maxSignals) :
    ∃ run : DbtRun,
      signalsFromRunResults python environment maxSignals document =
        .ok (((documentResults document).filterMap
          (run.resultSignal python environment)).map DbtSignal.node) := by
  obtain ⟨run, opened, shape⟩ := open_of_isRunResults wellFormed
  refine ⟨run, ?_⟩
  rw [signalsFromRunResults_eq opened shape]
  exact congrArg Except.ok ((rollsUp_rollUp
    (forall₂_filterMap (resultSignal_tells run) _)).whole (Or.inr few))

/-- The nodes of a run that is not cut are incidents of their own exactly
if no two of them are alike. -/
theorem dbt_nodes_apart_iff
    (collisionFree : Function.Injective platform.sha256)
    (wellFormed : IsRunResults python document)
    (form : ∀ node ∈ dbtNodes python document, DbtForm node.uniqueId)
    (few : ((dbtNodes python document).length : Int) ≤ maxSignals)
    (environment : Option String) :
    ∃ own : List NodeSignal,
      signalsFromRunResults python environment maxSignals document =
        .ok (own.map DbtSignal.node) ∧
      List.Forall₂ NodeSignal.Tells own (dbtNodes python document) ∧
      (own.Pairwise (TwoIncidents platform) ↔
        (dbtNodes python document).Pairwise
          fun left right => ¬ Alike left right) := by
  obtain ⟨run, built⟩ := signals_of_few wellFormed few
  exact ⟨_, built, forall₂_filterMap (resultSignal_tells run) _,
    pairwise_twoIncidents_iff collisionFree form run⟩

/-! ## Versioned models -/

/-- Second versions of two models, both failed. -/
def versionedModels : Json :=
  .object [("results", .array
    [dbtResult "model.shop.orders.v2" "error",
      dbtResult "model.shop.customers.v2" "error"])]

/-- A digest without collisions that is the SHA-256 digest of the text of
these models. -/
def versionedPlatform : Platform where
  sha256 := Equiv.swap "dbt|dbt_model_failed|dbt model failed: v2|prod"
    "7c6b19b80b9e00012a630ebd860142e1fb8252a3b6eb875392f2de44ee9be919"
  showTime _ := ""

theorem dbtNodes_versionedModels :
    dbtNodes plainPython versionedModels =
      [⟨"model.shop.orders.v2", .failed⟩,
        ⟨"model.shop.customers.v2", .failed⟩] := by
  decide +kernel

theorem isRunResults_versionedModels :
    IsRunResults plainPython versionedModels :=
  ⟨Or.inl rfl, Or.inl rfl, Or.inr (Or.inl ⟨_, rfl⟩)⟩

theorem dbtForm_versionedModels :
    ∀ node ∈ dbtNodes plainPython versionedModels,
      DbtForm node.uniqueId := by
  rw [dbtNodes_versionedModels]
  intro node member
  rcases List.mem_pair.mp member with rfl | rfl
  · exact ⟨by decide, by decide⟩
  · exact ⟨by decide, by decide⟩

theorem few_versionedModels :
    ((dbtNodes plainPython versionedModels).length : Int) ≤ 20 := by
  rw [dbtNodes_versionedModels]
  decide

theorem not_apart_versionedModels :
    ¬ (dbtNodes plainPython versionedModels).Pairwise
      fun left right => ¬ Alike left right := by
  rw [dbtNodes_versionedModels]
  intro apart
  apply List.rel_of_pairwise_cons apart List.mem_cons_self
  exact ⟨by decide, rfl, by decide⟩

theorem dbt_nodes_apart_iff_versioned :
    ∃ own : List NodeSignal,
      signalsFromRunResults plainPython (some "prod") 20 versionedModels =
        .ok (own.map DbtSignal.node) ∧
      ¬ own.Pairwise (TwoIncidents versionedPlatform) := by
  have collisionFree : Function.Injective versionedPlatform.sha256 :=
    (Equiv.swap _ _).injective
  obtain ⟨own, built, _, apart⟩ := dbt_nodes_apart_iff collisionFree
    isRunResults_versionedModels dbtForm_versionedModels
    few_versionedModels (some "prod")
  exact ⟨own, built, fun pairwise =>
    not_apart_versionedModels (apart.mp pairwise)⟩

/-- Two nodes with different ids have one key: the last component of both
is the version. -/
theorem versioned_models_share_key :
    ¬ ∀ (platform : Platform) (python : Python) (document : Json)
        (environment : Option String) (maxSignals : Int),
        Function.Injective platform.sha256 →
          IsRunResults python document →
          ((dbtNodes python document).map DbtNode.uniqueId).Nodup →
          (∀ node ∈ dbtNodes python document, DbtForm node.uniqueId) →
          ((dbtNodes python document).length : Int) ≤ maxSignals →
            ∀ own : List NodeSignal,
              signalsFromRunResults python environment maxSignals
                  document = .ok (own.map DbtSignal.node) →
                own.Pairwise (TwoIncidents platform) := by
  intro claimed
  have collisionFree : Function.Injective versionedPlatform.sha256 :=
    (Equiv.swap _ _).injective
  obtain ⟨run, built⟩ := @signals_of_few _ _ (some "prod") _
    isRunResults_versionedModels few_versionedModels
  have pairwise := claimed versionedPlatform plainPython versionedModels
    (some "prod") 20 collisionFree isRunResults_versionedModels
    (by rw [dbtNodes_versionedModels]; decide) dbtForm_versionedModels
    few_versionedModels _ built
  exact not_apart_versionedModels ((pairwise_twoIncidents_iff collisionFree
    dbtForm_versionedModels run).mp pairwise)

end OpsSignal
