import Mathlib
import OpsSignal.Lib.LabelledRuns

/-!
# Interleaving deterministic tasks

Several tasks run concurrently.  Each is deterministic: its next step, if
it has one, is a new task and the events it emits.  A schedule picks which
task moves next.  The events of all tasks end up in one log.

Whatever the schedule, each task contributes to a completed log exactly
what it emits when it runs alone.
-/

namespace Interleaving

open LabelledRuns

universe u v

variable {Task : Type u} {Event : Type v}

/-- How one task moves: `none` once it has finished. -/
abbrev Program (Task : Type u) (Event : Type v) :=
  Task → Option (Task × List Event)

/-! ## One task on its own -/

/-- A task runs to another one and emits events on the way. -/
inductive Ran (program : Program Task Event) :
    Task → List Event → Task → Prop
  | nil (task : Task) : Ran program task [] task
  | cons {task next last : Task} {now later : List Event} :
      program task = some (next, now) → Ran program next later last →
        Ran program task (now ++ later) last

/-- A task left alone finishes and emits these events. -/
def Emits
    (program : Program Task Event) (task : Task) (events : List Event) :
    Prop :=
  ∃ last, Ran program task events last ∧ program last = none

variable {program : Program Task Event}

theorem Ran.trans
    {task middle last : Task} {before after : List Event}
    (first : Ran program task before middle)
    (second : Ran program middle after last) :
    Ran program task (before ++ after) last := by
  induction first with
  | nil => exact second
  | cons stepped _ inductionHypothesis =>
      rw [List.append_assoc]
      exact Ran.cons stepped (inductionHypothesis second)

theorem Ran.snoc
    {task middle last : Task} {before now : List Event}
    (first : Ran program task before middle)
    (stepped : program middle = some (last, now)) :
    Ran program task (before ++ now) last := by
  have final := Ran.cons stepped (Ran.nil last)
  rw [List.append_nil] at final
  exact first.trans final

/-- What each step of a task keeps, with the events so far, holds all
along. -/
theorem Ran.invariant
    {holds : List Event → Task → Prop} {start task : Task}
    {events : List Event} (ran : Ran program start events task)
    (kept : ∀ before task next now, holds before task →
      program task = some (next, now) → holds (before ++ now) next)
    {before : List Event} (held : holds before start) :
    holds (before ++ events) task := by
  induction ran generalizing before with
  | nil => rwa [List.append_nil]
  | cons stepped _ inductionHypothesis =>
      rw [← List.append_assoc]
      exact inductionHypothesis (kept _ _ _ _ held stepped)

theorem emits_of_finished {task : Task} (finished : program task = none) :
    Emits program task [] :=
  ⟨task, Ran.nil task, finished⟩

theorem emits_of_step
    {task next : Task} {now later : List Event}
    (stepped : program task = some (next, now))
    (rest : Emits program next later) :
    Emits program task (now ++ later) := by
  obtain ⟨last, ran, finished⟩ := rest
  exact ⟨last, Ran.cons stepped ran, finished⟩

/-- A task emits the same events every time. -/
theorem Emits.unique
    {task : Task} {left right : List Event}
    (first : Emits program task left) (second : Emits program task right) :
    left = right := by
  obtain ⟨last, ran, finished⟩ := first
  induction ran generalizing right with
  | nil task =>
      obtain ⟨_, other, _⟩ := second
      cases other with
      | nil => rfl
      | cons stepped _ => simp [finished] at stepped
  | cons stepped _ inductionHypothesis =>
      obtain ⟨final, other, otherFinished⟩ := second
      cases other with
      | nil => simp [otherFinished] at stepped
      | cons otherStepped otherRan =>
          rw [stepped] at otherStepped
          cases otherStepped
          rw [inductionHypothesis ⟨final, otherRan, otherFinished⟩ finished]

/-! ## Several tasks and one log -/

/-- The tasks and what they have emitted so far, each event with the index
of its task. -/
structure System (Task : Type u) (Event : Type v) where
  tasks : List Task
  log : List (Nat × Event)

/-- Before the first step. -/
def initial (tasks : List Task) : System Task Event :=
  ⟨tasks, []⟩

/-- One step of one task. -/
def advance
    (program : Program Task Event) (system : System Task Event)
    (index : Nat) : Option (System Task Event) :=
  match system.tasks[index]? with
  | none => none
  | some task =>
      match program task with
      | none => none
      | some (next, now) =>
          some
            { tasks := system.tasks.set index next
              log := system.log ++ now.map fun event => (index, event) }

/-- Every task has finished. -/
def Finished
    (program : Program Task Event) (system : System Task Event) : Prop :=
  ∀ task ∈ system.tasks, program task = none

/-- The events of one task. -/
def own (index : Nat) (log : List (Nat × Event)) : List Event :=
  (log.filter fun entry => entry.1 == index).map Prod.snd

@[simp]
theorem own_append (index : Nat) (left right : List (Nat × Event)) :
    own index (left ++ right) = own index left ++ own index right := by
  simp [own]

theorem own_map_same (index : Nat) (events : List Event) :
    own index (events.map fun event => (index, event)) = events := by
  simp [own, List.filter_map, Function.comp_def]

theorem own_map_other
    {index other : Nat} (different : other ≠ index) (events : List Event) :
    own index (events.map fun event => (other, event)) = [] := by
  simp [own, List.filter_map, Function.comp_def, different]

theorem mem_own {index : Nat} {event : Event} {log : List (Nat × Event)} :
    event ∈ own index log ↔ (index, event) ∈ log := by
  simp [own]

/-- What a step does: it moves one unfinished task and appends what that
task emits. -/
theorem advance_eq_some
    {system next : System Task Event} {index : Nat} :
    advance program system index = some next ↔
      ∃ task moved now, system.tasks[index]? = some task ∧
        program task = some (moved, now) ∧
        next =
          { tasks := system.tasks.set index moved
            log := system.log ++ now.map fun event => (index, event) } := by
  unfold advance
  cases found : system.tasks[index]? with
  | none => simp
  | some task =>
      cases stepped : program task with
      | none => simp [stepped]
      | some result =>
          rcases result with ⟨moved, now⟩
          simp [stepped, eq_comm]

/-- Until every task has finished, one of them can move. -/
theorem exists_advance
    {system : System Task Event} (unfinished : ¬ Finished program system) :
    ∃ index next, advance program system index = some next := by
  simp only [Finished, not_forall] at unfinished
  obtain ⟨task, member, moves⟩ := unfinished
  obtain ⟨index, taskAt⟩ := List.mem_iff_getElem?.mp member
  obtain ⟨⟨moved, now⟩, stepped⟩ := Option.ne_none_iff_exists'.mp moves
  exact ⟨index, _, advance_eq_some.mpr
    ⟨task, moved, now, taskAt, stepped, rfl⟩⟩

/-- Every task has run from where it started to where it is, emitting its
own part of the log. -/
def Projects
    (program : Program Task Event) (starts : List Task)
    (system : System Task Event) : Prop :=
  system.tasks.length = starts.length ∧
    (∀ index start task, starts[index]? = some start →
      system.tasks[index]? = some task →
        Ran program start (own index system.log) task) ∧
    ∀ entry ∈ system.log, entry.1 < starts.length

theorem projects_initial (tasks : List Task) :
    Projects program tasks (initial tasks) := by
  refine ⟨rfl, ?_, by simp [initial]⟩
  intro index start task startAt taskAt
  rw [show (initial tasks : System Task Event).tasks = tasks from rfl,
    startAt] at taskAt
  cases taskAt
  exact Ran.nil start

theorem projects_advance
    {starts : List Task} {system next : System Task Event} {index : Nat}
    (projected : Projects program starts system)
    (stepped : advance program system index = some next) :
    Projects program starts next := by
  obtain ⟨sameLength, ran, owners⟩ := projected
  obtain ⟨task, moved, now, taskAt, moves, rfl⟩ :=
    advance_eq_some.mp stepped
  have inside : index < starts.length := by
    rw [← sameLength]
    exact (List.getElem?_eq_some_iff.mp taskAt).1
  refine ⟨by simpa using sameLength, ?_, ?_⟩
  · intro other start current startAt currentAt
    by_cases same : index = other
    · subst same
      rw [List.getElem?_set_self (by omega)] at currentAt
      cases currentAt
      rw [own_append, own_map_same]
      exact (ran index start task startAt taskAt).snoc moves
    · rw [List.getElem?_set_ne same] at currentAt
      rw [own_append, own_map_other same, List.append_nil]
      exact ran other start current startAt currentAt
  · intro entry member
    rcases List.mem_append.mp member with earlier | new
    · exact owners entry earlier
    · obtain ⟨event, _, rfl⟩ := List.mem_map.mp new
      exact inside

/-- Along every schedule each task only ever runs its own course. -/
theorem projects_of_reaches
    {starts : List Task} {schedule : List Nat} {system : System Task Event}
    (reached :
      Reaches (advance program) anyStep (initial starts) schedule system) :
    Projects program starts system :=
  reached.invariant (projects_initial starts)
    fun _ _ _ projected _ stepped => projects_advance projected stepped

/-- In a completed log, a task's part is what it emits alone. -/
theorem emits_own_of_finished
    {starts : List Task} {schedule : List Nat} {system : System Task Event}
    (reached :
      Reaches (advance program) anyStep (initial starts) schedule system)
    (finished : Finished program system)
    {index : Nat} {start : Task} (startAt : starts[index]? = some start) :
    Emits program start (own index system.log) := by
  obtain ⟨sameLength, ran, _⟩ := projects_of_reaches reached
  have inside : index < system.tasks.length := by
    rw [sameLength]
    exact (List.getElem?_eq_some_iff.mp startAt).1
  have taskAt : system.tasks[index]? = some system.tasks[index] :=
    List.getElem?_eq_getElem inside
  exact ⟨_, ran index start _ startAt taskAt,
    finished _ (List.getElem_mem inside)⟩

/-- Events that only one task emits stand in the log in that task's
order. -/
theorem filter_log_of_owner
    {log : List (Nat × Event)} {index : Nat} {wanted : Event → Bool}
    (owned : ∀ entry ∈ log, wanted entry.2 = true → entry.1 = index) :
    (log.map Prod.snd).filter wanted = (own index log).filter wanted := by
  induction log with
  | nil => rfl
  | cons entry rest inductionHypothesis =>
      have tail := inductionHypothesis fun other member =>
        owned other (List.mem_cons_of_mem _ member)
      have head := owned entry List.mem_cons_self
      simp only [own] at tail ⊢
      by_cases chosen : wanted entry.2 = true
      · simp [chosen, head chosen, tail]
      · by_cases same : entry.1 = index
        · simp [chosen, same, tail]
        · simp [chosen, same, tail]

/-! ## Schedules that complete -/

section Ranked

variable {rank : Task → Nat}

/-- How many steps are left at most. -/
def totalRank (rank : Task → Nat) (system : System Task Event) : Nat :=
  (system.tasks.map rank).sum

private theorem sum_map_set_lt
    {task moved : Task} (less : rank moved < rank task) :
    ∀ {tasks : List Task} {index : Nat}, tasks[index]? = some task →
      ((tasks.set index moved).map rank).sum < (tasks.map rank).sum
  | [], _, found => by
      simp at found
  | head :: rest, 0, found => by
      simp only [List.getElem?_cons_zero, Option.some.injEq] at found
      subst found
      simpa using less
  | head :: rest, index + 1, found => by
      have tail : ((rest.set index moved).map rank).sum <
          (rest.map rank).sum :=
        sum_map_set_lt less (by simpa using found)
      simpa using tail

/-- Every step uses up some of the rank, so no schedule is longer than
the rank it starts with. -/
theorem totalRank_advance
    (decreases : ∀ task next now, program task = some (next, now) →
      rank next < rank task)
    {system next : System Task Event} {index : Nat}
    (stepped : advance program system index = some next) :
    totalRank rank next < totalRank rank system := by
  obtain ⟨task, moved, now, taskAt, moves, rfl⟩ :=
    advance_eq_some.mp stepped
  exact sum_map_set_lt (decreases task moved now moves) taskAt

theorem length_add_totalRank_le
    (decreases : ∀ task next now, program task = some (next, now) →
      rank next < rank task)
    {start system : System Task Event} {schedule : List Nat}
    (reached : Reaches (advance program) anyStep start schedule system) :
    schedule.length + totalRank rank system ≤ totalRank rank start := by
  induction reached with
  | nil => simp
  | snoc _ _ stepped inductionHypothesis =>
      have less := totalRank_advance decreases stepped
      rw [List.length_append, List.length_singleton]
      omega

/-- Every run can be continued until all tasks have finished. -/
theorem exists_finished
    (decreases : ∀ task next now, program task = some (next, now) →
      rank next < rank task)
    (system : System Task Event) :
    ∃ schedule final,
      Reaches (advance program) anyStep system schedule final ∧
        Finished program final := by
  induction measured : totalRank rank system using Nat.strongRecOn
      generalizing system with
  | ind bound inductionHypothesis =>
      by_cases finished : Finished program system
      · exact ⟨[], system, Reaches.nil, finished⟩
      · obtain ⟨index, next, stepped⟩ := exists_advance finished
        have less := totalRank_advance decreases stepped
        rw [measured] at less
        obtain ⟨schedule, final, later, done⟩ :=
          inductionHypothesis _ less _ rfl
        exact ⟨index :: schedule, final,
          Reaches.append (Reaches.single True.intro stepped) later, done⟩

end Ranked

/-- One task run to its end while the others wait. -/
theorem reaches_of_ran
    {task last : Task} {events : List Event}
    (ran : Ran program task events last) :
    ∀ (system : System Task Event) (index : Nat),
      system.tasks[index]? = some task →
        ∃ count,
          Reaches (advance program) anyStep system
            (List.replicate count index)
            { tasks := system.tasks.set index last
              log :=
                system.log ++ events.map fun event => (index, event) } := by
  induction ran with
  | nil task =>
      intro system index taskAt
      obtain ⟨inside, same⟩ := List.getElem?_eq_some_iff.mp taskAt
      refine ⟨0, ?_⟩
      have unchanged : system.tasks.set index task = system.tasks := by
        rw [← same, List.set_getElem_self]
      simpa [unchanged] using
        (Reaches.nil :
          Reaches (advance program) anyStep system [] system)
  | @cons task next last now later moves _ inductionHypothesis =>
      intro system index taskAt
      have inside := (List.getElem?_eq_some_iff.mp taskAt).1
      have stepped := advance_eq_some.mpr
        ⟨task, next, now, taskAt, moves, rfl⟩
      obtain ⟨count, rest⟩ := inductionHypothesis
        { tasks := system.tasks.set index next
          log := system.log ++ now.map fun event => (index, event) }
        index (List.getElem?_set_self inside)
      refine ⟨count + 1, ?_⟩
      rw [List.replicate_succ]
      have whole :=
        Reaches.append (Reaches.single True.intro stepped) rest
      simpa using whole

/-- The tasks can be run one after another. -/
theorem exists_sequential
    {starts : List Task}
    (terminates : ∀ start ∈ starts, ∃ events, Emits program start events) :
    ∃ schedule final,
      schedule.Pairwise (· ≤ ·) ∧
        Reaches (advance program) anyStep (initial starts) schedule final ∧
        Finished program final := by
  have upTo : ∀ count, count ≤ starts.length →
      ∃ schedule system,
        schedule.Pairwise (· ≤ ·) ∧ (∀ index ∈ schedule, index < count) ∧
          Reaches (advance program) anyStep (initial starts) schedule
            system ∧
          system.tasks.length = starts.length ∧
          (∀ index < count, ∀ task, system.tasks[index]? = some task →
            program task = none) ∧
          ∀ index, count ≤ index →
            system.tasks[index]? = starts[index]? := by
    intro count
    induction count with
    | zero =>
        intro _
        exact ⟨[], initial starts, List.Pairwise.nil, by simp, Reaches.nil,
          rfl, by simp, fun _ _ => rfl⟩
    | succ count inductionHypothesis =>
        intro bounded
        obtain ⟨schedule, system, sorted, below, reached, sameLength,
          finished, untouched⟩ := inductionHypothesis (by omega)
        have startAt : starts[count]? = some starts[count] :=
          List.getElem?_eq_getElem (by omega)
        have taskAt : system.tasks[count]? = some starts[count] := by
          rw [untouched count (Nat.le_refl count), startAt]
        obtain ⟨events, last, ran, ended⟩ :=
          terminates starts[count] (List.getElem_mem _)
        obtain ⟨steps, later⟩ := reaches_of_ran ran system count taskAt
        refine ⟨schedule ++ List.replicate steps count, _, ?_, ?_,
          reached.append later, by simpa using sameLength, ?_, ?_⟩
        · rw [List.pairwise_append]
          refine ⟨sorted, ?_, ?_⟩
          · exact List.pairwise_replicate.mpr (Or.inr (Nat.le_refl count))
          · intro left leftMember right rightMember
            have less := below left leftMember
            have same := List.eq_of_mem_replicate rightMember
            omega
        · intro index member
          rcases List.mem_append.mp member with earlier | new
          · exact Nat.lt_succ_of_lt (below index earlier)
          · rw [List.eq_of_mem_replicate new]
            exact Nat.lt_succ_self count
        · intro index less task taskAt'
          by_cases same : count = index
          · subst same
            rw [List.getElem?_set_self (by omega)] at taskAt'
            cases taskAt'
            exact ended
          · rw [List.getElem?_set_ne same] at taskAt'
            exact finished index (by omega) task taskAt'
        · intro index more
          rw [List.getElem?_set_ne (by omega)]
          exact untouched index (by omega)
  obtain ⟨schedule, system, sorted, _, reached, sameLength, finished, _⟩ :=
    upTo starts.length (Nat.le_refl _)
  refine ⟨schedule, system, sorted, reached, ?_⟩
  intro task member
  obtain ⟨index, inside, taskAt⟩ := List.mem_iff_getElem.mp member
  exact finished index (by omega) task
    (by rw [List.getElem?_eq_getElem inside, taskAt])

end Interleaving
