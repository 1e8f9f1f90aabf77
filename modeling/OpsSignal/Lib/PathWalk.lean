import Mathlib.Data.List.Basic

/-!
# Walks in a tree of directories

A relative path is a list of turns: it stays, goes up, or goes down to a
name.  A walk starts at a directory, given by the names from the root, and
cannot go up from the root.
-/

namespace PathWalks

universe u

variable {Segment : Type u}

/-- What one segment of a relative path does. -/
inductive Turn (Segment : Type u) where
  | stay
  | up
  | down (name : Segment)

/-- Where the turns lead from a directory. -/
inductive Leads :
    List Segment → List (Turn Segment) → List Segment → Prop
  | here (directory : List Segment) : Leads directory [] directory
  | stay {directory path : List Segment} {turns : List (Turn Segment)} :
      Leads directory turns path → Leads directory (.stay :: turns) path
  | up {directory path : List Segment} {turns : List (Turn Segment)}
      (last : Segment) :
      Leads directory turns path →
        Leads (directory ++ [last]) (.up :: turns) path
  | down {directory path : List Segment} {turns : List (Turn Segment)}
      {name : Segment} :
      Leads (directory ++ [name]) turns path →
        Leads directory (.down name :: turns) path

/-- The names that a path goes down to. -/
def downs : List (Turn Segment) → List Segment
  | [] => []
  | .down name :: turns => name :: downs turns
  | _ :: turns => downs turns

/-- The walk, if it never leaves the root. -/
def walk : List Segment → List (Turn Segment) → Option (List Segment)
  | directory, [] => some directory
  | directory, .stay :: turns => walk directory turns
  | [], .up :: _ => none
  | first :: rest, .up :: turns => walk (first :: rest).dropLast turns
  | directory, .down name :: turns => walk (directory ++ [name]) turns

theorem walk_up (directory : List Segment) (last : Segment)
    (turns : List (Turn Segment)) :
    walk (directory ++ [last]) (.up :: turns) = walk directory turns := by
  cases directory with
  | nil => rfl
  | cons first rest =>
      rw [List.cons_append, walk, ← List.cons_append, List.dropLast_concat]

theorem walk_of_leads {directory path : List Segment}
    {turns : List (Turn Segment)} (leads : Leads directory turns path) :
    walk directory turns = some path := by
  induction leads with
  | here directory => rw [walk]
  | stay _ inductionHypothesis =>
      rw [walk]
      exact inductionHypothesis
  | up last _ inductionHypothesis =>
      rw [walk_up]
      exact inductionHypothesis
  | down _ inductionHypothesis =>
      rw [walk]
      exact inductionHypothesis

theorem leads_of_walk {path : List Segment} :
    ∀ {turns : List (Turn Segment)} {directory : List Segment},
      walk directory turns = some path → Leads directory turns path := by
  intro turns
  induction turns with
  | nil =>
      intro directory walked
      rw [walk] at walked
      cases walked
      exact Leads.here _
  | cons turn turns inductionHypothesis =>
      intro directory walked
      cases turn with
      | stay =>
          rw [walk] at walked
          exact (inductionHypothesis walked).stay
      | up =>
          rcases List.eq_nil_or_concat directory with rfl | ⟨before, last, rfl⟩
          · cases walked
          · rw [List.concat_eq_append, walk_up] at walked
            rw [List.concat_eq_append]
            exact (inductionHypothesis walked).up last
      | down name =>
          rw [walk] at walked
          exact (inductionHypothesis walked).down

/-- The walk computes where the turns lead. -/
theorem walk_eq_some_iff {directory path : List Segment}
    {turns : List (Turn Segment)} :
    walk directory turns = some path ↔ Leads directory turns path :=
  ⟨leads_of_walk, walk_of_leads⟩

/-- Some turn goes up from the root. -/
def Leaves (directory : List Segment) (turns : List (Turn Segment)) :
    Prop :=
  ∃ before after, turns = before ++ .up :: after ∧
    Leads directory before []

theorem leaves_cons {directory next : List Segment} {turn : Turn Segment}
    {turns : List (Turn Segment)}
    (step : ∀ {before path}, Leads next before path →
      Leads directory (turn :: before) path)
    (leaves : Leaves next turns) : Leaves directory (turn :: turns) := by
  obtain ⟨before, after, rfl, leads⟩ := leaves
  exact ⟨turn :: before, after, rfl, step leads⟩

theorem walk_append (directory : List Segment)
    (first second : List (Turn Segment)) :
    walk directory (first ++ second) =
      (walk directory first).bind fun path => walk path second := by
  induction first generalizing directory with
  | nil => rw [List.nil_append, walk, Option.bind_some]
  | cons turn first inductionHypothesis =>
      cases turn with
      | stay => rw [List.cons_append, walk, walk, inductionHypothesis]
      | up =>
          rcases List.eq_nil_or_concat directory with rfl | ⟨before, last, rfl⟩
          · rfl
          · rw [List.concat_eq_append, List.cons_append, walk_up, walk_up,
              inductionHypothesis]
      | down name => rw [List.cons_append, walk, walk, inductionHypothesis]

/-- A walk ends early exactly where a turn goes up from the root. -/
theorem walk_eq_none_iff :
    ∀ {turns : List (Turn Segment)} {directory : List Segment},
      walk directory turns = none ↔ Leaves directory turns := by
  intro turns directory
  constructor
  · intro ended
    induction turns generalizing directory with
    | nil =>
        rw [walk] at ended
        cases ended
    | cons turn turns inductionHypothesis =>
        cases turn with
        | stay =>
            rw [walk] at ended
            exact leaves_cons Leads.stay (inductionHypothesis ended)
        | up =>
            rcases List.eq_nil_or_concat directory with
              rfl | ⟨before, last, rfl⟩
            · exact ⟨[], turns, rfl, Leads.here []⟩
            · rw [List.concat_eq_append, walk_up] at ended
              rw [List.concat_eq_append]
              exact leaves_cons (Leads.up last) (inductionHypothesis ended)
        | down name =>
            rw [walk] at ended
            exact leaves_cons Leads.down (inductionHypothesis ended)
  · rintro ⟨before, after, rfl, leads⟩
    rw [walk_append, walk_of_leads leads]
    rfl

/-- What a walk reaches is a part of where it started, followed by some of
the names that it went down to. -/
theorem Leads.form {directory path : List Segment}
    {turns : List (Turn Segment)} (leads : Leads directory turns path) :
    ∃ kept names, path = directory.take kept ++ names ∧
      names.Sublist (downs turns) := by
  induction leads with
  | here directory =>
      exact ⟨directory.length, [], by simp, List.nil_sublist _⟩
  | stay _ inductionHypothesis => exact inductionHypothesis
  | @up directory path turns last _ inductionHypothesis =>
      obtain ⟨kept, names, isPath, among⟩ := inductionHypothesis
      refine ⟨min kept directory.length, names, ?_, among⟩
      rw [isPath, List.take_append_of_le_length (Nat.min_le_right _ _),
        ← List.take_eq_take_min]
  | @down directory path turns name _ inductionHypothesis =>
      obtain ⟨kept, names, isPath, among⟩ := inductionHypothesis
      rcases Nat.lt_or_ge directory.length kept with beyond | within
      · refine ⟨directory.length, name :: names, ?_, among.cons_cons name⟩
        have whole : (directory ++ [name]).length ≤ kept := by
          simpa using Nat.succ_le_of_lt beyond
        rw [isPath, List.take_of_length_le whole, List.take_length,
          List.append_assoc, List.singleton_append]
      · refine ⟨kept, names, ?_, among.cons name⟩
        rw [isPath, List.take_append_of_le_length within]

end PathWalks
