import Mathlib.Data.List.Forall2
import OpsSignal.Dbt
import OpsSignal.Lib.Checks

/-!
# The summary of a dbt run

Every failed or warned node is told once: by its own signal, or in the
summary of the nodes past the maximum.
-/

namespace OpsSignal

open Checks

variable {python : Python} {document : Json} {environment : Option String}
  {maxSignals : Int}

/-! ## Documents -/

/-- What `(value or dict()).get` accepts. -/
def DictOrFalsy (python : Python) (value : Json) : Prop :=
  value.truthy python = false ∨ ∃ dict, value = .object dict

/-- What `for result in value or list()` accepts. -/
def IterableOrFalsy (python : Python) (value : Json) : Prop :=
  value.truthy python = false ∨ (∃ items, value = .array items) ∨
    (∃ text, value = .string text) ∨ ∃ dict, value = .object dict

/-- A dict whose `metadata` and `args` are dicts, and whose `results` can
be run over.  Each may be absent. -/
def IsRunResults (python : Python) : Json → Prop
  | .object dict =>
      DictOrFalsy python (dictGet "metadata" dict) ∧
        DictOrFalsy python (dictGet "args" dict) ∧
        IterableOrFalsy python (dictGet "results" dict)
  | _ => False

theorem getOf_orElse
    {value : Json} (accepted : DictOrFalsy python value) :
    ∃ dict, value.orElse python (.object []) = .object dict := by
  rw [Json.orElse]
  rcases accepted with falsy | ⟨dict, rfl⟩
  · exact ⟨[], by simp [falsy]⟩
  · split
    · exact ⟨dict, rfl⟩
    · exact ⟨[], rfl⟩

/-- The results of a document: what is no list has none. -/
def documentResults : Json → List Json
  | .object dict =>
      match dictGet "results" dict with
      | .array items => items
      | _ => []
  | _ => []

theorem iterate_orElse
    {dict : Dict}
    (accepted : IterableOrFalsy python (dictGet "results" dict)) :
    ∃ items,
      ((dictGet "results" dict).orElse python (.array [])).iterate =
        .ok items ∧
      (items = documentResults (.object dict) ∨
        documentResults (.object dict) = [] ∧
          ∀ result ∈ items, ∃ text, result = .string text) := by
  rw [Json.orElse, documentResults]
  cases value : dictGet "results" dict with
  | array items =>
      cases items with
      | nil => exact ⟨[], by simp [Json.truthy, Json.iterate], Or.inl rfl⟩
      | cons item rest =>
          exact ⟨item :: rest, by simp [Json.truthy, Json.iterate],
            Or.inl rfl⟩
  | string text =>
      split
      · refine ⟨_, rfl, Or.inr ⟨rfl, ?_⟩⟩
        intro result member
        obtain ⟨c, _, rfl⟩ := List.mem_map.mp member
        exact ⟨_, rfl⟩
      · exact ⟨[], rfl, Or.inl rfl⟩
  | object fields =>
      split
      · refine ⟨_, rfl, Or.inr ⟨rfl, ?_⟩⟩
        intro result member
        obtain ⟨field, _, rfl⟩ := List.mem_map.mp member
        exact ⟨_, rfl⟩
      · exact ⟨[], rfl, Or.inl rfl⟩
  | null | bool | number =>
      rw [value] at accepted
      rcases accepted with falsy | ⟨_, same⟩ | ⟨_, same⟩ | ⟨_, same⟩
      · rw [falsy]
        exact ⟨[], rfl, Or.inl rfl⟩
      all_goals cases same

/-! ## Nodes -/

/-- A failed or warned node, as its result tells it. -/
structure DbtNode where
  uniqueId : String
  outcome : Outcome
  deriving DecidableEq, Repr

/-- What is no dict, and what passed or was skipped, is no such node. -/
def dbtNode (python : Python) : Json → Option DbtNode
  | .object result =>
      (statusOutcome (lower (resultStatus python result))).map fun outcome =>
        ⟨resultId python result, outcome⟩
  | _ => none

/-- The failed and warned nodes in file order. -/
def dbtNodes (python : Python) (document : Json) : List DbtNode :=
  (documentResults document).filterMap (dbtNode python)

/-- The nodes a signal tells of. -/
def DbtSignal.mentioned : DbtSignal → List String
  | .node signal => [signal.component]
  | .summary rolled => rolled.uniqueIds

/-- A signal tells its node's id and outcome. -/
def NodeSignal.Tells (signal : NodeSignal) (node : DbtNode) : Prop :=
  signal.component = node.uniqueId ∧
    signal.severity = node.outcome.severity

/-- A node has one signal, any other result has none. -/
theorem resultSignal_tells (run : DbtRun) (result : Json) :
    Option.Rel NodeSignal.Tells
      (run.resultSignal python environment result)
      (dbtNode python result) := by
  cases result with
  | object result =>
      rw [DbtRun.resultSignal, dbtNode, nodeSignal]
      cases statusOutcome (lower (resultStatus python result)) with
      | none => exact Option.Rel.none
      | some outcome => exact Option.Rel.some ⟨rfl, rfl⟩
  | null | bool | number | string | array => exact Option.Rel.none

theorem forall₂_filterMap
    {Item Left Right : Type} {relation : Left → Right → Prop}
    {left : Item → Option Left} {right : Item → Option Right}
    (related : ∀ item, Option.Rel relation (left item) (right item))
    (items : List Item) :
    List.Forall₂ relation (items.filterMap left)
      (items.filterMap right) := by
  induction items with
  | nil => exact List.Forall₂.nil
  | cons item rest inductionHypothesis =>
      have here := related item
      rw [List.filterMap_cons, List.filterMap_cons]
      cases isLeft : left item with
      | none =>
          rw [isLeft] at here
          cases isRight : right item with
          | none => exact inductionHypothesis
          | some other =>
              rw [isRight] at here
              cases here
      | some one =>
          rw [isLeft] at here
          cases isRight : right item with
          | none =>
              rw [isRight] at here
              cases here
          | some other =>
              rw [isRight] at here
              cases here with
              | some same =>
                  exact List.Forall₂.cons same inductionHypothesis

theorem open_of_isRunResults
    (wellFormed : IsRunResults python document) :
    ∃ run, DbtRun.open_ python document = .ok run ∧
      (run.results = documentResults document ∨
        documentResults document = [] ∧
          ∀ result ∈ run.results, ∃ text, result = .string text) := by
  cases document with
  | object dict =>
      obtain ⟨metadata, args, results⟩ := wellFormed
      obtain ⟨metaDict, isMeta⟩ := getOf_orElse metadata
      obtain ⟨argsDict, isArgs⟩ := getOf_orElse args
      obtain ⟨items, isItems, shape⟩ := iterate_orElse results
      refine ⟨
        { invocationId := dictGet "invocation_id" metaDict
          common :=
            [("dbt_version", dictGet "dbt_version" metaDict),
              ("command", dictGet "which" argsDict),
              ("target", dictGet "target" argsDict)]
          results := items }, ?_, shape⟩
      simp only [DbtRun.open_, Json.getOf, isMeta, isArgs, isItems, bind,
        Except.bind, pure, Except.pure]
  | null | bool | number | string | array => exact wellFormed.elim

theorem dictOrFalsy_of_getOf
    {name : String} {value field : Json}
    (got : (value.orElse python (.object [])).getOf name = .ok field) :
    DictOrFalsy python value := by
  rw [Json.orElse] at got
  split at got
  · cases value with
    | object dict => exact Or.inr ⟨dict, rfl⟩
    | null | bool | number | string | array => cases got
  · rename_i falsy
    exact Or.inl (Bool.eq_false_iff.mpr falsy)

theorem iterableOrFalsy_of_iterate
    {value : Json} {items : List Json}
    (ran : (value.orElse python (.array [])).iterate = .ok items) :
    IterableOrFalsy python value := by
  rw [Json.orElse] at ran
  split at ran
  · cases value with
    | array items => exact Or.inr (Or.inl ⟨items, rfl⟩)
    | string text => exact Or.inr (Or.inr (Or.inl ⟨text, rfl⟩))
    | object dict => exact Or.inr (Or.inr (Or.inr ⟨dict, rfl⟩))
    | null | bool | number => cases ran
  · rename_i falsy
    exact Or.inl (Bool.eq_false_iff.mpr falsy)

theorem isRunResults_of_open
    {run : DbtRun} (opened : DbtRun.open_ python document = .ok run) :
    IsRunResults python document := by
  cases document with
  | object dict =>
      obtain ⟨_, ⟨⟩, opened⟩ := bind_eq_ok opened
      obtain ⟨_, ⟨⟩, opened⟩ := bind_eq_ok opened
      obtain ⟨_, metadata, opened⟩ := bind_eq_ok opened
      obtain ⟨_, _, opened⟩ := bind_eq_ok opened
      obtain ⟨_, args, opened⟩ := bind_eq_ok opened
      obtain ⟨_, _, opened⟩ := bind_eq_ok opened
      obtain ⟨_, ⟨⟩, opened⟩ := bind_eq_ok opened
      obtain ⟨_, results, _⟩ := bind_eq_ok opened
      exact ⟨dictOrFalsy_of_getOf metadata, dictOrFalsy_of_getOf args,
        iterableOrFalsy_of_iterate results⟩
  | null | bool | number | string | array => cases opened

/-- Anything else raises. -/
theorem isRunResults_iff :
    IsRunResults python document ↔
      ∃ signals, signalsFromRunResults python environment maxSignals
        document = .ok signals := by
  constructor
  · intro wellFormed
    obtain ⟨run, opened, _⟩ := open_of_isRunResults wellFormed
    exact ⟨_, by rw [signalsFromRunResults, opened]; rfl⟩
  · rintro ⟨signals, built⟩
    obtain ⟨run, opened, _⟩ := bind_eq_ok built
    exact isRunResults_of_open opened

/-- The nodes' own signals come from the results. -/
theorem resultSignals_of_open
    {run : DbtRun}
    (shape : run.results = documentResults document ∨
      documentResults document = [] ∧
        ∀ result ∈ run.results, ∃ text, result = .string text) :
    run.results.filterMap (run.resultSignal python environment) =
      (documentResults document).filterMap
        (run.resultSignal python environment) := by
  rcases shape with same | ⟨empty, strings⟩
  · rw [same]
  · rw [empty, List.filterMap_nil, List.filterMap_eq_nil_iff]
    intro result member
    obtain ⟨text, rfl⟩ := strings result member
    rfl

/-! ## The cap -/

/-- What is sent of a run: `own` are the signals of its nodes. -/
structure RollsUp
    (maxSignals : Int) (nodes : List DbtNode) (own : List NodeSignal)
    (signals : List DbtSignal) : Prop where
  whole : maxSignals ≤ 0 ∨ (nodes.length : Int) ≤ maxSignals →
    signals = own.map DbtSignal.node
  capped : 0 < maxSignals → maxSignals < nodes.length →
    (signals.length : Int) = maxSignals ∧
      ∃ summary, signals =
          (own.take (maxSignals - 1).toNat).map DbtSignal.node ++
            [DbtSignal.summary summary] ∧
        summary.uniqueIds =
          (nodes.drop (maxSignals - 1).toNat).map DbtNode.uniqueId ∧
        summary.message = String.intercalate "\n" summary.uniqueIds ∧
        summary.failed =
          (nodes.drop (maxSignals - 1).toNat).countP
            (fun node => node.outcome == .failed) ∧
        summary.failed + summary.warned =
          (nodes.drop (maxSignals - 1).toNat).length ∧
        (summary.severity = .error ↔
          ∃ node ∈ nodes.drop (maxSignals - 1).toNat,
            node.outcome.severity = .error)
  once : signals.flatMap DbtSignal.mentioned = nodes.map DbtNode.uniqueId

section

variable {run : DbtRun} {nodes : List DbtNode} {own : List NodeSignal}

theorem components_of_tells
    (tells : List.Forall₂ NodeSignal.Tells own nodes) :
    own.map NodeSignal.component = nodes.map DbtNode.uniqueId := by
  induction tells with
  | nil => rfl
  | cons same _ inductionHypothesis =>
      rw [List.map_cons, List.map_cons, inductionHypothesis, same.1]

theorem severity_eq_error_iff (outcome : Outcome) :
    outcome.severity = .error ↔ outcome = .failed := by
  cases outcome <;> decide

theorem failed_of_tells
    (tells : List.Forall₂ NodeSignal.Tells own nodes) :
    own.countP (fun signal => signal.severity == .error) =
      nodes.countP fun node => node.outcome == .failed := by
  induction tells with
  | nil => rfl
  | cons same _ inductionHypothesis =>
      rw [List.countP_cons, List.countP_cons, inductionHypothesis, same.2]
      congr 1
      simp only [beq_iff_eq, severity_eq_error_iff]

/-- The summary is an error exactly if some node in it is. -/
theorem severity_eq_error_of_count (nodes : List DbtNode) :
    (if nodes.countP (fun node => node.outcome == .failed) = 0 then
        Severity.warning else .error) = .error ↔
      ∃ node ∈ nodes, node.outcome.severity = .error := by
  split
  · rename_i noneFailed
    refine ⟨nofun, ?_⟩
    rintro ⟨node, member, isError⟩
    have failed := (severity_eq_error_iff node.outcome).mp isError
    exact absurd (by rw [failed]; rfl)
      (List.countP_eq_zero.mp noneFailed node member)
  · rename_i someFailed
    refine ⟨fun _ => ?_, fun _ => rfl⟩
    obtain ⟨node, member, failed⟩ :=
      List.countP_pos_iff.mp (Nat.pos_of_ne_zero someFailed)
    exact ⟨node, member,
      (severity_eq_error_iff node.outcome).mpr (eq_of_beq failed)⟩

theorem flatMap_mentioned_node (own : List NodeSignal) :
    (own.map DbtSignal.node).flatMap DbtSignal.mentioned =
      own.map NodeSignal.component := by
  rw [List.flatMap_map]
  exact (List.map_eq_flatMap).symm

/-- The cap keeps every node. -/
theorem rollsUp_rollUp
    (tells : List.Forall₂ NodeSignal.Tells own nodes) :
    RollsUp maxSignals nodes own
      (run.rollUp environment maxSignals own) := by
  have sameLength : own.length = nodes.length := tells.length_eq
  refine ⟨?_, ?_, ?_⟩
  · intro few
    rw [DbtRun.rollUp, if_neg]
    omega
  · intro positive many
    have restTells := List.forall₂_drop (maxSignals - 1).toNat tells
    have restLength := restTells.length_eq
    rw [DbtRun.rollUp, if_pos ⟨positive, by omega⟩]
    refine ⟨?_, _, rfl, components_of_tells restTells, rfl,
      failed_of_tells restTells, ?_, ?_⟩
    · simp only [List.length_append, List.length_map, List.length_take,
        List.length_singleton]
      omega
    · have most := @List.countP_le_length _
        (fun signal : NodeSignal => signal.severity == .error)
        (own.drop (maxSignals - 1).toNat)
      simp only [DbtRun.summarize]
      omega
    · simp only [DbtRun.summarize, failed_of_tells restTells]
      exact severity_eq_error_of_count _
  · rw [DbtRun.rollUp]
    split
    · rw [List.flatMap_append, flatMap_mentioned_node]
      simp only [List.flatMap_singleton, DbtSignal.mentioned,
        DbtRun.summarize]
      rw [← List.map_append, List.take_append_drop,
        components_of_tells tells]
    · rw [flatMap_mentioned_node, components_of_tells tells]

end

/-- The signals of a run, from those of its results. -/
theorem signalsFromRunResults_eq
    {run : DbtRun} (opened : DbtRun.open_ python document = .ok run)
    (shape : run.results = documentResults document ∨
      documentResults document = [] ∧
        ∀ result ∈ run.results, ∃ text, result = .string text) :
    signalsFromRunResults python environment maxSignals document =
      .ok (run.rollUp environment maxSignals
        ((documentResults document).filterMap
          (run.resultSignal python environment))) := by
  rw [← resultSignals_of_open shape, signalsFromRunResults, opened]
  rfl

/-- For every run and every maximum the failed and warned nodes are told in
file order, each once: by their own signals where the maximum is not
exceeded, else the first of them by their own signals and the others in one
summary. -/
theorem roll_up_keeps_nodes
    (wellFormed : IsRunResults python document)
    (environment : Option String) :
    ∃ run own, DbtRun.open_ python document = .ok run ∧
      own = (documentResults document).filterMap
        (run.resultSignal python environment) ∧
      List.Forall₂ NodeSignal.Tells own (dbtNodes python document) ∧
      ∀ maxSignals, ∃ signals,
        signalsFromRunResults python environment maxSignals document =
          .ok signals ∧
        RollsUp maxSignals (dbtNodes python document) own signals := by
  obtain ⟨run, opened, shape⟩ := open_of_isRunResults wellFormed
  have tells : List.Forall₂ NodeSignal.Tells
      ((documentResults document).filterMap
        (run.resultSignal python environment))
      (dbtNodes python document) :=
    forall₂_filterMap (resultSignal_tells run) _
  refine ⟨run, _, opened, rfl, tells, ?_⟩
  intro maxSignals
  exact ⟨_, signalsFromRunResults_eq opened shape, rollsUp_rollUp tells⟩

/-- A Python whose other values are not looked at. -/
def plainPython : Python where
  str _ := ""
  nonzero text := text != "0"

def dbtResult (uniqueId status : String) : Json :=
  .object [("unique_id", .string uniqueId), ("status", .string status)]

/-- A run in which three nodes fail or warn. -/
def threeNodes : Json :=
  .object [("results", .array
    [dbtResult "model.shop.orders" "error", .string "junk",
      dbtResult "model.shop.customers" "success",
      dbtResult "test.shop.unique_orders.c1" "warn",
      dbtResult "seed.shop.countries" "runtime error"])]

theorem roll_up_keeps_nodes_one :
    ∃ signals,
      signalsFromRunResults plainPython none 1 threeNodes = .ok signals ∧
      signals.flatMap DbtSignal.mentioned =
        ["model.shop.orders", "test.shop.unique_orders.c1",
          "seed.shop.countries"] ∧
      (signals.length : Int) = 1 := by
  have wellFormed : IsRunResults plainPython threeNodes :=
    ⟨Or.inl rfl, Or.inl rfl, Or.inr (Or.inl ⟨_, rfl⟩)⟩
  obtain ⟨_, _, _, _, _, rollsUp⟩ := roll_up_keeps_nodes wellFormed none
  obtain ⟨signals, built, rolled⟩ := rollsUp 1
  have nodes : (dbtNodes plainPython threeNodes).map DbtNode.uniqueId =
      ["model.shop.orders", "test.shop.unique_orders.c1",
        "seed.shop.countries"] := by
    decide +kernel
  have many : (dbtNodes plainPython threeNodes).length = 3 := by
    rw [← List.length_map DbtNode.uniqueId, nodes]
    rfl
  exact ⟨signals, built, rolled.once.trans nodes,
    (rolled.capped (by decide) (by rw [many]; decide)).1⟩

end OpsSignal
