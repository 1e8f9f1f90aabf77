import OpsSignal.CutDelivery
import OpsSignal.FailingSink

/-!
# The last write repairs the earlier ones

A call of the sink runs one SQL statement after the other, and where it
fails the statements before are kept.  Whatever was lost of the calls for a
signal, a `complete` that succeeds leaves the rows it would have left
without failures, if its result has every provider that was reported.
-/

namespace OpsSignal

open Interleaving LabelledRuns

/-! ## Statements -/

/-- The row of a signal is inserted, or its outcome columns are updated. -/
def Sink.put
    (signal : Signal) (result : DeliveryResult) (sink : Sink) : Sink :=
  { sink with
    signals := sink.signals.upsert SignalRow.merge SignalRow.id_merge
      ⟨signal, result.status, result.provider, result.error⟩ }

/-- An SQL statement.  It is a transaction of its own. -/
inductive Statement where
  | insert (signal : Signal)
  | put (signal : Signal) (result : DeliveryResult)
  | upsert (signal : Signal) (outcome : ProviderOutcome)

def Statement.run (sink : Sink) : Statement → Sink
  | .insert signal => sink.record signal
  | .put signal result => sink.put signal result
  | .upsert signal outcome => sink.providerOutcome signal outcome

namespace SinkCall

/-- What a call runs, in order. -/
def statements : SinkCall → List Statement
  | .record signal => [.insert signal]
  | .providerOutcome signal outcome => [.upsert signal outcome]
  | .complete signal result =>
      .put signal result :: result.deliveries.map (.upsert signal)

/-- The signal a call is about. -/
def signal : SinkCall → Signal
  | .record signal => signal
  | .providerOutcome signal _ => signal
  | .complete signal _ => signal

/-- The providers a call has outcomes of. -/
def providers : SinkCall → List String
  | .record _ => []
  | .providerOutcome _ outcome => [outcome.provider]
  | .complete _ result => result.deliveries.map ProviderOutcome.provider

end SinkCall

/-- A call, and how many of its statements were run before it failed or
returned. -/
structure Attempt where
  call : SinkCall
  done : Nat

/-- A call that fails at its first statement. -/
def Attempt.lost (call : SinkCall) : Attempt :=
  ⟨call, 0⟩

def Attempt.ran (attempt : Attempt) : List Statement :=
  attempt.call.statements.take attempt.done

/-- The sink after calls of which some failed. -/
def attempted (attempts : List Attempt) (sink : Sink) : Sink :=
  (attempts.flatMap Attempt.ran).foldl Statement.run sink

/-- The sink after calls of which none failed. -/
def unfailed (calls : List SinkCall) (sink : Sink) : Sink :=
  calls.foldl (fun sink call => sink.apply call.effect) sink

theorem foldl_upsert
    (signal : Signal) (outcomes : List ProviderOutcome) (sink : Sink) :
    (outcomes.map (Statement.upsert signal)).foldl Statement.run sink =
      { sink with
        deliveries :=
          outcomes.foldl (upsertOutcome signal) sink.deliveries } := by
  induction outcomes generalizing sink with
  | nil => rfl
  | cons outcome rest inductionHypothesis =>
      rw [List.map_cons, List.foldl_cons, inductionHypothesis]
      rfl

/-- A call that does not fail runs all of its statements. -/
theorem foldl_statements (call : SinkCall) (sink : Sink) :
    call.statements.foldl Statement.run sink = sink.apply call.effect := by
  cases call with
  | record signal => rfl
  | providerOutcome signal outcome => rfl
  | complete signal result =>
      rw [SinkCall.statements, List.foldl_cons, foldl_upsert]
      rfl

theorem unfailed_eq (calls : List SinkCall) (sink : Sink) :
    unfailed calls sink =
      (calls.flatMap SinkCall.statements).foldl Statement.run sink := by
  rw [unfailed, List.foldl_flatMap]
  congr
  funext before call
  exact (foldl_statements call before).symm

theorem call_lost (calls : List SinkCall) :
    (calls.map Attempt.lost).map Attempt.call = calls := by
  rw [List.map_map]
  exact List.map_id calls

theorem attempted_lost (calls : List SinkCall) (sink : Sink) :
    attempted (calls.map Attempt.lost) sink = sink := by
  rw [attempted, List.flatMap_map, List.flatMap_eq_nil_iff.mpr]
  · rfl
  · intro call _
    rfl

/-! ## What the statements of a signal touch -/

namespace Statement

/-- The signal of a statement. -/
def signal : Statement → Signal
  | .insert signal => signal
  | .put signal _ => signal
  | .upsert signal _ => signal

/-- The provider whose row a statement writes. -/
def provider : Statement → Option String
  | .insert _ => none
  | .put _ _ => none
  | .upsert _ outcome => some outcome.provider

end Statement

theorem signal_of_mem_statements
    {call : SinkCall} {statement : Statement}
    (member : statement ∈ call.statements) :
    statement.signal = call.signal := by
  cases call with
  | record signal =>
      rw [List.mem_singleton.mp member]
      rfl
  | providerOutcome signal outcome =>
      rw [List.mem_singleton.mp member]
      rfl
  | complete signal result =>
      rcases List.mem_cons.mp member with rfl | member
      · rfl
      · obtain ⟨outcome, _, rfl⟩ := List.mem_map.mp member
        rfl

theorem mem_providers_iff {call : SinkCall} {name : String} :
    name ∈ call.providers ↔
      ∃ statement ∈ call.statements, statement.provider = some name := by
  cases call with
  | record signal => simp [SinkCall.providers, SinkCall.statements,
      Statement.provider]
  | providerOutcome signal outcome => simp [SinkCall.providers,
      SinkCall.statements, Statement.provider, eq_comm]
  | complete signal result => simp [SinkCall.providers,
      SinkCall.statements, Statement.provider]

section

variable {signal : Signal} {sink start : Sink} {name : String}

/-- The columns that describe the signal, once there is a row. -/
def described (signal : Signal) (sink : Sink) : Signal :=
  ((sink.row signal.id).map SignalRow.signal).getD signal

theorem row_put (result : DeliveryResult) :
    (sink.put signal result).row signal.id =
      some ⟨described signal sink, result.status, result.provider,
        result.error⟩ := by
  refine (Sink.row_complete result).trans ?_
  rw [if_pos rfl, described]
  cases sink.row signal.id with
  | none => rfl
  | some row => rfl

/-- No statement changes how the signal is described. -/
theorem described_run {statement : Statement}
    (own : statement.signal = signal) :
    described signal (statement.run sink) = described signal sink := by
  cases statement with
  | insert other =>
      obtain rfl : other = signal := own
      rw [Statement.run, described, described, Sink.row_record, if_pos rfl]
      cases sink.row other.id with
      | none => rfl
      | some row => rfl
  | put other result =>
      obtain rfl : other = signal := own
      rw [Statement.run, described, row_put]
      rfl
  | upsert other outcome => rfl

theorem outcome_run {statement : Statement}
    (other : statement.provider ≠ some name) (id : String) :
    (statement.run sink).outcome id name = sink.outcome id name := by
  cases statement with
  | insert signal => exact Sink.outcome_record
  | put signal result => rfl
  | upsert signal outcome =>
      rw [Statement.run, Sink.outcome_providerOutcome, if_neg]
      rintro ⟨_, rfl⟩
      exact other rfl

/-- A statement about a provider leaves a row for it, and no statement
deletes one. -/
theorem isSome_outcome_run {statement : Statement}
    (own : statement.signal = signal)
    (present : statement.provider = some name ∨
      (sink.outcome signal.id name).isSome = true) :
    ((statement.run sink).outcome signal.id name).isSome = true := by
  cases statement with
  | insert other =>
      rcases present with same | present
      · cases same
      · rw [Statement.run, Sink.outcome_record]
        exact present
  | put other result =>
      rcases present with same | present
      · cases same
      · exact present
  | upsert other outcome =>
      obtain rfl : other = signal := own
      rw [Statement.run, Sink.outcome_providerOutcome]
      rcases present with same | present
      · rw [if_pos ⟨rfl, Option.some.inj same⟩]
        rfl
      · split
        · rfl
        · exact present

variable {statements : List Statement}

theorem described_foldl
    (own : ∀ statement ∈ statements, statement.signal = signal) :
    described signal (statements.foldl Statement.run sink) =
      described signal sink := by
  induction statements generalizing sink with
  | nil => rfl
  | cons statement rest inductionHypothesis =>
      rw [List.foldl_cons, inductionHypothesis
        fun other member => own other (List.mem_cons_of_mem _ member)]
      exact described_run (own statement List.mem_cons_self)

theorem outcome_foldl
    (others : ∀ statement ∈ statements, statement.provider ≠ some name)
    (id : String) :
    (statements.foldl Statement.run sink).outcome id name =
      sink.outcome id name := by
  induction statements generalizing sink with
  | nil => rfl
  | cons statement rest inductionHypothesis =>
      rw [List.foldl_cons, inductionHypothesis
        fun other member => others other (List.mem_cons_of_mem _ member)]
      exact outcome_run (others statement List.mem_cons_self) id

theorem isSome_outcome_foldl
    (own : ∀ statement ∈ statements, statement.signal = signal)
    (present : (∃ statement ∈ statements,
        statement.provider = some name) ∨
      (sink.outcome signal.id name).isSome = true) :
    ((statements.foldl Statement.run sink).outcome signal.id
      name).isSome = true := by
  induction statements generalizing sink with
  | nil =>
      rcases present with ⟨_, member, _⟩ | present
      · cases member
      · exact present
  | cons statement rest inductionHypothesis =>
      rw [List.foldl_cons]
      apply inductionHypothesis
        fun other member => own other (List.mem_cons_of_mem _ member)
      rcases present with ⟨other, member, named⟩ | present
      · rcases List.mem_cons.mp member with rfl | member
        · exact Or.inr (isSome_outcome_run
            (own other List.mem_cons_self) (Or.inl named))
        · exact Or.inl ⟨other, member, named⟩
      · exact Or.inr (isSome_outcome_run
          (own statement List.mem_cons_self) (Or.inr present))

end

/-! ## Repair -/

/-- The rows of the signal are the same after a last `complete`. -/
structure Repaired
    (signal : Signal) (result : DeliveryResult) (failed whole : Sink) :
    Prop where
  row : (failed.complete signal result).row signal.id =
    (whole.complete signal result).row signal.id
  outcomes : ∀ name,
    (failed.complete signal result).outcome signal.id name =
      (whole.complete signal result).outcome signal.id name

section

variable {signal : Signal} {result : DeliveryResult} {sink : Sink}
  {calls : List SinkCall} {attempts : List Attempt}

theorem row_completed :
    (sink.complete signal result).row signal.id =
      some ⟨described signal sink, result.status, result.provider,
        result.error⟩ :=
  row_put result

theorem outcome_of_unlisted {name : String}
    (unlisted : ∀ outcome ∈ result.deliveries, outcome.provider ≠ name) :
    (sink.complete signal result).outcome signal.id name =
      sink.outcome signal.id name := by
  have none_ : (result.deliveries.filter fun outcome =>
      outcome.provider = name) = [] := by
    simpa [List.filter_eq_nil_iff] using unlisted
  rw [Sink.outcome_complete, if_pos rfl, none_]
  rfl

/-- A listed provider's row is the result's. -/
theorem outcome_of_listed {name : String}
    (listed : ∃ outcome ∈ result.deliveries, outcome.provider = name)
    (other : Sink) :
    (sink.complete signal result).outcome signal.id name =
      (other.complete signal result).outcome signal.id name := by
  rw [Sink.outcome_complete, Sink.outcome_complete, if_pos rfl, if_pos rfl]
  cases last : (result.deliveries.filter fun outcome =>
      outcome.provider = name).getLast? with
  | some outcome => rfl
  | none =>
      obtain ⟨outcome, member, isName⟩ := listed
      rw [List.getLast?_eq_none_iff, List.filter_eq_nil_iff] at last
      exact absurd (by simpa using isName) (last outcome member)

/-- Statements about listed providers are overwritten. -/
theorem repaired_of_statements
    {statements : List Statement}
    (own : ∀ statement ∈ statements, statement.signal = signal)
    (listed : ∀ statement ∈ statements, ∀ name,
      statement.provider = some name →
        ∃ outcome ∈ result.deliveries, outcome.provider = name) :
    Repaired signal result (statements.foldl Statement.run sink) sink where
  row := by
    rw [row_completed, row_completed, described_foldl own]
  outcomes name := by
    by_cases inResult : ∃ outcome ∈ result.deliveries,
        outcome.provider = name
    · exact outcome_of_listed inResult sink
    · have unlisted : ∀ outcome ∈ result.deliveries,
          outcome.provider ≠ name :=
        fun outcome member same => inResult ⟨outcome, member, same⟩
      rw [outcome_of_unlisted unlisted, outcome_of_unlisted unlisted]
      exact outcome_foldl (fun statement member named =>
        inResult (listed statement member name named)) _

theorem repaired_of_attempts
    (own : ∀ call ∈ calls, call.signal = signal)
    (listed : ∀ call ∈ calls, ∀ name ∈ call.providers,
      ∃ outcome ∈ result.deliveries, outcome.provider = name)
    (called : attempts.map Attempt.call = calls) (sink : Sink) :
    Repaired signal result (attempted attempts sink)
      (unfailed calls sink) := by
  have ofCalls : ∀ {statements : List Statement},
      (∀ statement ∈ statements,
        ∃ call ∈ calls, statement ∈ call.statements) →
      Repaired signal result (statements.foldl Statement.run sink)
        sink := by
    intro statements ofCall
    apply repaired_of_statements
    · intro statement member
      obtain ⟨call, isCall, inCall⟩ := ofCall statement member
      rw [signal_of_mem_statements inCall, own call isCall]
    · intro statement member name named
      obtain ⟨call, isCall, inCall⟩ := ofCall statement member
      exact listed call isCall name
        (mem_providers_iff.mpr ⟨statement, inCall, named⟩)
  have failed : Repaired signal result (attempted attempts sink) sink := by
    apply ofCalls
    intro statement member
    obtain ⟨attempt, isAttempt, ran⟩ := List.mem_flatMap.mp member
    exact ⟨attempt.call, called ▸ List.mem_map_of_mem isAttempt,
      List.mem_of_mem_take ran⟩
  have whole : Repaired signal result (unfailed calls sink) sink := by
    rw [unfailed_eq]
    exact ofCalls fun statement member => List.mem_flatMap.mp member
  exact ⟨failed.row.trans whole.row.symm,
    fun name => (failed.outcomes name).trans (whole.outcomes name).symm⟩

/-- The last write repairs every failure exactly if its result has every
provider the calls before had an outcome of. -/
theorem repaired_iff
    (own : ∀ call ∈ calls, call.signal = signal) :
    (∀ sink attempts, attempts.map Attempt.call = calls →
        Repaired signal result (attempted attempts sink)
          (unfailed calls sink)) ↔
      ∀ call ∈ calls, ∀ name ∈ call.providers,
        ∃ outcome ∈ result.deliveries, outcome.provider = name := by
  constructor
  · intro repaired call member name named
    by_contra absent
    have unlisted : ∀ outcome ∈ result.deliveries,
        outcome.provider ≠ name :=
      fun outcome member same => absent ⟨outcome, member, same⟩
    -- None of the calls gets to its first statement.
    have lost := (repaired {} (calls.map Attempt.lost)
      (call_lost calls)).outcomes name
    rw [outcome_of_unlisted unlisted, outcome_of_unlisted unlisted,
      attempted_lost, unfailed_eq] at lost
    obtain ⟨statement, inCall, isName⟩ := mem_providers_iff.mp named
    have stored := @isSome_outcome_foldl signal {} name
      (calls.flatMap SinkCall.statements)
      (by
        intro statement member
        obtain ⟨call, isCall, inCall⟩ := List.mem_flatMap.mp member
        rw [signal_of_mem_statements inCall, own call isCall])
      (Or.inl ⟨statement, List.mem_flatMap.mpr ⟨call, member, inCall⟩,
        isName⟩)
    rw [← lost] at stored
    cases stored
  · intro listed sink attempts called
    exact repaired_of_attempts own listed called sink

end

/-! ## The calls of a client -/

end OpsSignal
