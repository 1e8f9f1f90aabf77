import OpsSignal.Chain
import OpsSignal.CutDelivery
import OpsSignal.RowCourse

/-!
# A batch

`opssignal notify-batch`: every line of a file is checked, the signals are
sent one after another, and then the groups that are still open.  Timers
and group senders run meanwhile.  The exit code is read off the results
that the command has collected.
-/

namespace OpsSignal

open Interleaving LabelledRuns

/-! ## Reading the file -/

/-- A line, with its place in the file; a blank one is passed over. -/
def readLine
    (parse : String → Except String SignalInput) (file : String)
    (line : String × Nat) : Except String (Option SignalInput) :=
  let place :=
    file ++ ":" ++ toString (line.2 + 1) ++ ": not a valid signal: "
  if isBlank line.1 then .ok none
  else
    match parse line.1 with
    | .error e => .error (place ++ e)
    | .ok input =>
        match validate input with
        | .error e => .error (place ++ e.display)
        | .ok () => .ok (some input)

/-- `read_batch`: every line is parsed before anything is sent. -/
def readBatch
    (parse : String → Except String SignalInput) (file : String)
    (lines : List String) : Except String (List SignalInput) :=
  (lines.zipIdx.mapM (readLine parse file)).map List.reduceOption

/-! ## The report -/

/-- What is printed about a signal that did not get through. -/
def complaint : DeliveryStatus → Option String
  | .delivered | .skipped | .grouped => none
  | .partly => some "signal only partly delivered"
  | _ => some "signal not delivered"

/-- One turn of `report`. -/
def reportOne
    (reported : Nat × List String) (result : DeliveryResult) :
    Nat × List String :=
  let lines := reported.2 ++
    result.suppressed.map fun line => "suppressed: " ++ line
  match complaint result.status with
  | none => (reported.1, lines)
  | some what =>
      (1, lines ++
        ["error: " ++ what ++ ": " ++
          result.error.getD result.status.display] ++
        result.deliveries.map fun outcome =>
          "  " ++ outcome.provider ++ ": " ++ outcome.status.display)

/-- `report`: the exit code, and what is printed. -/
def report (results : List DeliveryResult) : Nat × List String :=
  results.foldl reportOne (0, [])

/-- The line that is printed before the report. -/
def batchSummary
    (results : List DeliveryResult) (digests : Nat) : String :=
  let held := (results.filter fun result => result.status = .grouped).length
  "sent " ++ toString results.length ++ " signal(s); " ++ toString held ++
    " held for " ++ toString digests ++ " group send(s)"

/-! ## The command -/

inductive BatchPhase where
  /-- Between two lines. -/
  | ready
  /-- In `notify_sync`. -/
  | sending
  /-- In `flush_groups`, with the groups it still waits for. -/
  | waiting (handles : List Nat) (expired : Bool)
  | exited (code : Nat) (output : List String)

structure Batch where
  client : Client
  remaining : List SignalInput
  results : List DeliveryResult := []
  /-- The groups that `flush_groups` returned, by their senders. -/
  digests : List (Nat × DeliveryResult) := []
  phase : BatchPhase := .ready

inductive BatchStep where
  /-- The client moves on. -/
  | client (label : ClientStep)
  /-- The next line is sent. -/
  | next
  /-- `notify_sync` returns. -/
  | answered
  /-- `flush_groups` takes every open group. -/
  | flushGroups
  /-- The group that is waited for has finished. -/
  | join
  /-- The time for the groups runs out. -/
  | expire
  /-- The group that is waited for has not finished in time. -/
  | giveUp
  | exit

/-- What the client does by itself. -/
def ClientStep.unprompted : ClientStep → Bool
  | .start _ _ | .flush | .reload _ => false
  | _ => true

namespace Batch

/-- A client just built, with what earlier processes have stored. -/
def start
    (pipeline : Pipeline) (table : Table) (book : AlertBook)
    (inputs : List SignalInput) : Batch where
  client := { pipeline := pipeline, stores := { table, book } }
  remaining := inputs

def answered (batch : Batch) : Option Batch :=
  batch.client.calls.getLast?.bind fun call =>
    if call.stage = .done then
      some { batch with
        results := batch.results ++ [call.result]
        phase := .ready }
    else
      none

/-- One handle for each open group. -/
def flushGroups (batch : Batch) : Batch :=
  { batch with
    client := batch.client.flush
    phase := .waiting
      (List.range' batch.client.stores.senders.length
        batch.client.stores.groups.opened.length)
      false }

def join (handle : Nat) (rest : List Nat) (expired : Bool) (batch : Batch) :
    Option Batch :=
  batch.client.stores.senders[handle]?.bind fun sender =>
    if sender.stage = .done then
      some { batch with
        digests := batch.digests ++ [(handle, sender.result)]
        phase := .waiting rest expired }
    else
      none

def giveUp (handle : Nat) (rest : List Nat) (batch : Batch) :
    Option Batch :=
  batch.client.stores.senders[handle]?.bind fun sender =>
    if sender.stage = .done then none
    else some { batch with phase := .waiting rest true }

/-- All that is counted. -/
def counted (batch : Batch) : List DeliveryResult :=
  batch.results ++ batch.digests.map Prod.snd

def exit (batch : Batch) : Batch :=
  let reported := report batch.counted
  { batch with
    phase := .exited reported.1
      (batchSummary batch.results batch.digests.length :: reported.2) }

/-- Nothing runs once the process has exited. -/
def step (platform : Platform) (batch : Batch) (label : BatchStep) :
    Option Batch :=
  match label, batch.phase with
  | .client _, .exited _ _ => none
  | .client label, _ =>
      if label.unprompted then
        (batch.client.step platform label).map fun client =>
          { batch with client := client }
      else
        none
  | .next, .ready =>
      match batch.remaining with
      | [] => none
      | input :: rest =>
          (batch.client.step platform (.start input true)).map fun client =>
            { batch with
              client := client
              remaining := rest
              phase := .sending }
  | .answered, .sending => batch.answered
  | .flushGroups, .ready =>
      if batch.remaining.isEmpty then some batch.flushGroups else none
  | .join, .waiting (handle :: rest) expired =>
      batch.join handle rest expired
  | .expire, .waiting handles _ =>
      some { batch with phase := .waiting handles true }
  | .giveUp, .waiting (handle :: rest) true => batch.giveUp handle rest
  | .exit, .waiting [] _ => some batch.exit
  | _, _ => none

/-- While the lines are sent no group is closed, and every group that is
waited for finishes in time. -/
def Attended (platform : Platform) (batch : Batch) : BatchStep → Prop
  | .client label => (batch.client.closes platform label).isEmpty = true
  | .giveUp => False
  | _ => True

abbrev Runs
    (platform : Platform) (condition : Batch → BatchStep → Prop)
    (first : Batch) (labels : List BatchStep) (last : Batch) : Prop :=
  Reaches (step platform) condition first labels last

end Batch

/-! ## What the exit code should cover -/

/-- Delivered or skipped. -/
def DeliveryStatus.isFine (status : DeliveryStatus) : Bool :=
  status = .delivered || status = .skipped

/-- The group finished, and its result was counted; or it is unfinished,
and the exit code is an error. -/
def Batch.Accounts (batch : Batch) (code index : Nat) (sender : Sender) :
    Prop :=
  (sender.stage = .done ∧ (index, sender.result) ∈ batch.digests) ∨
    (sender.stage ≠ .done ∧ code ≠ 0)

/-- A group that holds the signal has ended well. -/
def Batch.HeldWell (batch : Batch) (signal : Signal) : Prop :=
  ∃ sender ∈ batch.client.stores.senders,
    (∃ member ∈ sender.closed.members, member.signal = signal) ∧
      sender.stage = .done ∧ sender.result.status.isFine = true

/-- The exit code covers what the batch sent. -/
structure Batch.Covered
    (inputs : List SignalInput) (batch : Batch) (code : Nat) : Prop where
  sent : batch.client.calls.map Call.input = inputs
  closed : batch.client.stores.groups.opened = []
  groups : ∀ (index : Nat) (sender : Sender),
    batch.client.stores.senders[index]? = some sender →
      batch.Accounts code index sender
  signals : code = 0 → ∀ call ∈ batch.client.calls,
    call.stage = .done ∧
      (call.result.status.isFine = true ∨
        call.result.status = .grouped ∧ batch.HeldWell call.signal)
  digests : code = 0 → ∀ sender ∈ batch.client.stores.senders,
    sender.stage = .done ∧ sender.result.status.isFine = true

end OpsSignal
