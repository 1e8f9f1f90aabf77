import OpsSignal.InFlight
import OpsSignal.RowCourse

/-!
# Flushing

A client with its counter of deliveries in flight, its calls of `flush`,
and tasks that may panic.  A task that panicked takes no more steps.
-/

namespace OpsSignal

open LabelledRuns

variable {platform : Platform}

/-! ## The session -/

inductive FlushStage where
  | begun
  | waiting
  | returned (finished : Bool)
  deriving DecidableEq, Repr

/-- A call of `flush`, with the client as it was when the call began. -/
structure Flush where
  began : Client
  stage : FlushStage := .begun

structure Session where
  client : Client
  inFlight : InFlight := {}
  panicked : List Holder := []
  flushes : List Flush := []

inductive SessionStep where
  | client (label : ClientStep)
  /-- A task panics, and its guard is dropped. -/
  | panic (holder : Holder)
  /-- A `flush` is called. -/
  | flush
  /-- It sends every open group. -/
  | takeAll (index : Nat)
  /-- It looks at the counter. -/
  | wait (index : Nat) (timedOut : Bool)

namespace Session

def start (pipeline : Pipeline) : Session where
  client := Client.fromPipeline pipeline

/-- A step of the client, with the guards that it starts and drops. -/
def tick (platform : Platform) (label : ClientStep) (session : Session) :
    Option Session :=
  (session.client.step platform label).bind fun next =>
    let started := (session.client.starts platform label).foldl
      InFlight.start session.inFlight
    match session.client.ends label with
    | none =>
        some { session with client := next, inFlight := started }
    | some holder =>
        (started.drop holder).map fun dropped =>
          { session with client := next, inFlight := dropped }

/-- The task that takes the step has panicked. -/
def Blocked (session : Session) (label : ClientStep) : Prop :=
  ∃ holder ∈ session.panicked, label.mover = some holder

instance decidableBlocked (session : Session) (label : ClientStep) :
    Decidable (session.Blocked label) :=
  inferInstanceAs (Decidable (∃ holder ∈ _, _))

/-- A flush goes on to a stage. -/
def advance (index : Nat) (flush : Flush) (stage : FlushStage)
    (session : Session) : Session :=
  { session with
    flushes := session.flushes.set index { flush with stage := stage } }

/-- `InFlight::wait`. -/
def wait (index : Nat) (timedOut : Bool) (session : Session) :
    Option Session :=
  session.flushes[index]?.bind fun flush =>
    if flush.stage ≠ .waiting then none
    else if session.inFlight.count = 0 then
      some (session.advance index flush (.returned true))
    else if timedOut then
      some (session.advance index flush (.returned false))
    else
      none

def step (platform : Platform) (session : Session) :
    SessionStep → Option Session
  | .client label =>
      if session.Blocked label then none else session.tick platform label
  | .panic holder =>
      if holder ∈ session.inFlight.guards then
        (session.inFlight.drop holder).map fun dropped =>
          { session with
            inFlight := dropped
            panicked := holder :: session.panicked }
      else
        none
  | .flush =>
      some { session with
        flushes := session.flushes ++ [{ began := session.client }] }
  | .takeAll index =>
      session.flushes[index]?.bind fun flush =>
        if flush.stage = .begun then
          (session.tick platform .flush).map fun taken =>
            taken.advance index flush .waiting
        else
          none
  | .wait index timedOut => session.wait index timedOut

end Session

/-- What the client does in a step of the session. -/
def SessionStep.clientSteps : SessionStep → List ClientStep
  | .client label => [label]
  | .takeAll _ => [.flush]
  | _ => []

/-! ## The guards -/

/-- The live guards are those of the tasks and groups that are unfinished
and have not panicked. -/
structure Counted (session : Session) : Prop where
  exact_ : session.inFlight.Exact
  guards : ∀ holder, holder ∈ session.inFlight.guards ↔
    Unfinished session.client holder ∧ holder ∉ session.panicked
  panicked : ∀ holder ∈ session.panicked, Unfinished session.client holder

section Step

variable {session later : Session}

/-- A step that the client can take is never refused by the counter. -/
theorem tick_spec
    {label : ClientStep} {next : Client} (counted : Counted session)
    (free : ¬ session.Blocked label)
    (stepped : session.client.step platform label = some next) :
    ∃ inFlight, session.tick platform label =
        some { session with client := next, inFlight := inFlight } ∧
      Counted { session with client := next, inFlight := inFlight } := by
  obtain ⟨exact_, guards, panicked⟩ := counted
  have fresh : ∀ holder ∈ session.client.starts platform label,
      holder ∉ session.inFlight.guards := by
    intro holder started held
    exact fresh_of_starts started ((guards holder).mp held).1
  have started := InFlight.exact_foldl_start exact_ nodup_starts fresh
  have startedGuards := InFlight.guards_foldl_start
    (session.client.starts platform label) session.inFlight
  have unmoved : ∀ holder ∈ session.panicked,
      session.client.ends label ≠ some holder := by
    intro holder lost ended
    exact free ⟨holder, lost, mover_of_ends ended⟩
  have stillLost : ∀ holder ∈ session.panicked, Unfinished next holder := by
    intro holder lost
    rw [unfinished_step stepped]
    exact Or.inl ⟨panicked holder lost, unmoved holder lost⟩
  have notLost : ∀ holder ∈ session.client.starts platform label,
      holder ∉ session.panicked := by
    intro holder started lost
    exact fresh_of_starts started (panicked holder lost)
  cases ended : session.client.ends label with
  | none =>
      refine ⟨_, ?_, started, ?_, stillLost⟩
      · rw [Session.tick, stepped, Option.bind_some]
        simp only [ended]
      · intro holder
        dsimp only
        rw [startedGuards, List.mem_append, guards holder,
          unfinished_step stepped, ended]
        constructor
        · rintro (⟨before, notPanicked⟩ | isStarted)
          · exact ⟨Or.inl ⟨before, nofun⟩, notPanicked⟩
          · exact ⟨Or.inr isStarted, notLost holder isStarted⟩
        · rintro ⟨⟨before, _⟩ | isStarted, notPanicked⟩
          · exact Or.inl ⟨before, notPanicked⟩
          · exact Or.inr isStarted
  | some last =>
      have held : last ∈ session.inFlight.guards := by
        rw [guards]
        refine ⟨unfinished_of_ends ended, ?_⟩
        intro lost
        exact unmoved last lost ended
      have heldStarted : last ∈ ((session.client.starts platform label).foldl
          InFlight.start session.inFlight).guards := by
        rw [startedGuards]
        exact List.mem_append_left _ held
      obtain ⟨dropped, isDropped, exactDropped, droppedGuards⟩ :=
        InFlight.exact_drop started heldStarted
      refine ⟨dropped, ?_, exactDropped, ?_, stillLost⟩
      · rw [Session.tick, stepped, Option.bind_some]
        simp only [ended, isDropped, Option.map_some]
      · intro holder
        dsimp only
        rw [droppedGuards, startedGuards]
        have distinct := started.distinct
        rw [startedGuards] at distinct
        have different : some last ≠ some holder ↔ holder ≠ last := by
          rw [ne_eq, Option.some.injEq, eq_comm]
        rw [distinct.mem_erase_iff, List.mem_append, guards holder,
          unfinished_step stepped, ended, different]
        constructor
        · rintro ⟨different, ⟨before, notPanicked⟩ | isStarted⟩
          · exact ⟨Or.inl ⟨before, different⟩, notPanicked⟩
          · exact ⟨Or.inr isStarted, notLost holder isStarted⟩
        · rintro ⟨⟨before, different⟩ | isStarted, notPanicked⟩
          · exact ⟨different, Or.inl ⟨before, notPanicked⟩⟩
          · refine ⟨?_, Or.inr isStarted⟩
            intro isLast
            exact fresh last (isLast ▸ isStarted) held

/-- What `tick` did. -/
theorem tick_cases
    {label : ClientStep} (counted : Counted session)
    (free : ¬ session.Blocked label)
    (ticked : session.tick platform label = some later) :
    ∃ next inFlight, session.client.step platform label = some next ∧
      later = { session with client := next, inFlight := inFlight } ∧
        Counted later := by
  obtain ⟨next, stepped, _⟩ := Option.bind_eq_some_iff.mp ticked
  obtain ⟨inFlight, same, countedLater⟩ := tick_spec counted free stepped
  cases ticked.symm.trans same
  exact ⟨next, inFlight, stepped, rfl, countedLater⟩

theorem counted_advance
    {index : Nat} {flush : Flush} {stage : FlushStage}
    (counted : Counted session) :
    Counted (session.advance index flush stage) :=
  ⟨counted.exact_, counted.guards, counted.panicked⟩

/-- The guard of a task that panics is dropped too. -/
theorem counted_panic
    {holder : Holder} (counted : Counted session)
    (held : holder ∈ session.inFlight.guards) :
    ∃ dropped, session.inFlight.drop holder = some dropped ∧
      Counted { session with
        inFlight := dropped
        panicked := holder :: session.panicked } := by
  obtain ⟨dropped, isDropped, exactDropped, droppedGuards⟩ :=
    InFlight.exact_drop counted.exact_ held
  refine ⟨dropped, isDropped, exactDropped, ?_, ?_⟩
  · intro other
    dsimp only
    rw [droppedGuards, counted.exact_.distinct.mem_erase_iff,
      counted.guards other, List.mem_cons]
    tauto
  · intro other lost
    rcases List.mem_cons.mp lost with rfl | lost
    · exact ((counted.guards other).mp held).1
    · exact counted.panicked other lost

theorem not_blocked_flush : ¬ session.Blocked .flush := by
  rintro ⟨holder, _, mover⟩
  cases mover

/-- Everything a step of a session can be.  The counter stays exact. -/
theorem session_cases
    {label : SessionStep} (counted : Counted session)
    (stepped : session.step platform label = some later) :
    Counted later ∧
      ((∃ moves next inFlight, label = .client moves ∧
          session.client.step platform moves = some next ∧
          later = { session with client := next, inFlight := inFlight }) ∨
        (∃ holder inFlight, label = .panic holder ∧
          later = { session with
            inFlight := inFlight
            panicked := holder :: session.panicked }) ∨
        (label = .flush ∧ later = { session with
            flushes := session.flushes ++ [{ began := session.client }] }) ∨
        (∃ index flush next inFlight, label = .takeAll index ∧
          session.flushes[index]? = some flush ∧ flush.stage = .begun ∧
          session.client.step platform .flush = some next ∧
          later = Session.advance index flush .waiting
            { session with client := next, inFlight := inFlight }) ∨
        ∃ index timedOut flush finished, label = .wait index timedOut ∧
          session.flushes[index]? = some flush ∧ flush.stage = .waiting ∧
          (finished = true → session.inFlight.count = 0) ∧
          later = session.advance index flush (.returned finished)) := by
  cases label with
  | client label =>
      rw [Session.step] at stepped
      split at stepped
      · cases stepped
      · rename_i free
        obtain ⟨next, inFlight, moves, same, countedLater⟩ :=
          tick_cases counted free stepped
        exact ⟨countedLater,
          Or.inl ⟨label, next, inFlight, rfl, moves, same⟩⟩
  | panic holder =>
      rw [Session.step] at stepped
      split at stepped
      · rename_i held
        obtain ⟨dropped, isDropped, countedLater⟩ :=
          counted_panic counted held
        rw [isDropped, Option.map_some] at stepped
        cases stepped
        exact ⟨countedLater, Or.inr (Or.inl ⟨holder, dropped, rfl, rfl⟩)⟩
      · cases stepped
  | flush =>
      cases stepped
      exact ⟨⟨counted.exact_, counted.guards, counted.panicked⟩,
        Or.inr (Or.inr (Or.inl ⟨rfl, rfl⟩))⟩
  | takeAll index =>
      obtain ⟨flush, found, stepped⟩ := Option.bind_eq_some_iff.mp stepped
      split at stepped
      · rename_i begun
        obtain ⟨taken, ticked, rfl⟩ := Option.map_eq_some_iff.mp stepped
        obtain ⟨next, inFlight, moves, same, countedTaken⟩ :=
          tick_cases counted not_blocked_flush ticked
        refine ⟨counted_advance countedTaken, ?_⟩
        right; right; right; left
        exact ⟨index, flush, next, inFlight, rfl, found, begun, moves,
          congrArg _ same⟩
      · cases stepped
  | wait index timedOut =>
      obtain ⟨flush, found, stepped⟩ := Option.bind_eq_some_iff.mp stepped
      split at stepped
      · cases stepped
      · rename_i waiting
        rw [not_not] at waiting
        split at stepped
        · rename_i idle
          cases stepped
          refine ⟨counted_advance counted, ?_⟩
          right; right; right; right
          exact ⟨index, timedOut, flush, true, rfl, found, waiting,
            fun _ => idle, rfl⟩
        · split at stepped
          · cases stepped
            refine ⟨counted_advance counted, ?_⟩
            right; right; right; right
            exact ⟨index, timedOut, flush, false, rfl, found, waiting,
              nofun, rfl⟩
          · cases stepped

theorem counted_start (pipeline : Pipeline) :
    Counted (Session.start pipeline) where
  exact_ := ⟨rfl, List.nodup_nil⟩
  guards holder := by
    cases holder with
    | call index => simp [Session.start, Unfinished, Client.fromPipeline]
    | sender index => simp [Session.start, Unfinished, Client.fromPipeline]
  panicked _ member := absurd member List.not_mem_nil

end Step

end OpsSignal
