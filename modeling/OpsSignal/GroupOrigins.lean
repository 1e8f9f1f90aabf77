import Mathlib.Data.List.Forall2
import OpsSignal.Coverage
import OpsSignal.HeldMembers
import OpsSignal.ResolvedAlerts

/-!
# Where the route of a group is from

A call keeps the pipeline that it took when it began.  A group keeps the
route of the call that opened it, but its sender looks the providers up in
the pipeline of the moment it starts.  A run is followed here with the
pipeline that each group's route is from.
-/

namespace OpsSignal

open LabelledRuns

variable {platform : Platform}

/-! ## Related lists -/

section Related

variable {Left Right : Type} {related : Left → Right → Prop}
  {left : List Left} {right : List Right}

end Related

/-! ## The origin of a group -/

/-- What a step does to the open groups. -/
inductive GroupChange where
  | unchanged
  /-- A call of this pipeline opened a group. -/
  | opened (pipeline : Pipeline)
  /-- The group at this place was closed. -/
  | closed (place : Nat)
  | flushed

/-- A signal of the call joins a group of the route. -/
def joinChange
    (platform : Platform) (groups : Groups) (call : Call) (route : Route) :
    GroupChange :=
  match groups.lookup
      (groupKey platform route (groupValues route call.signal)) with
  | none => .opened call.pipeline
  | some (place, group) =>
      if group.members.length + 1 < maxGroupSize then .unchanged
      else .closed place

def timerChange (groups : Groups) (timer : String × Nat) : GroupChange :=
  match groups.lookup timer.1 with
  | none => .unchanged
  | some (place, group) =>
      if group.seq = timer.2 then .closed place else .unchanged

def groupChange (platform : Platform) (client : Client) :
    ClientStep → GroupChange
  | .call index _ =>
      match client.calls[index]? with
      | none => .unchanged
      | some call =>
          match call.joining with
          | none => .unchanged
          | some route =>
              joinChange platform client.stores.groups call route
  | .timer index =>
      match client.stores.timers[index]? with
      | none => .unchanged
      | some timer => timerChange client.stores.groups timer
  | .flush => .flushed
  | _ => .unchanged

/-- A client, with the pipeline that the route of each open group and of
each group sender is from, in their order. -/
structure Traced where
  client : Client
  openedFrom : List Pipeline := []
  sentFrom : List Pipeline := []

namespace Traced

def change (traced : Traced) (client : Client) : GroupChange → Traced
  | .unchanged => { traced with client := client }
  | .opened pipeline =>
      { traced with
        client := client
        openedFrom := traced.openedFrom ++ [pipeline] }
  | .closed place =>
      { client := client
        openedFrom := traced.openedFrom.eraseIdx place
        sentFrom := traced.sentFrom ++ traced.openedFrom[place]?.toList }
  | .flushed =>
      { client := client
        openedFrom := []
        sentFrom := traced.sentFrom ++ traced.openedFrom }

def step (platform : Platform) (traced : Traced) (label : ClientStep) :
    Option Traced :=
  (traced.client.step platform label).map fun client =>
    traced.change client (groupChange platform traced.client label)

def start (pipeline : Pipeline) : Traced where
  client := Client.fromPipeline pipeline

end Traced

/-! ## What a step does to the groups -/

def Groups.routes (groups : Groups) : List Route :=
  groups.opened.map fun entry => entry.2.route

namespace Traced

end Traced

/-! ## Main result -/

/-- `SameProviders`, where it can be computed. -/
def sameProviders (traced : Traced) : ClientStep → Bool
  | .sender index _ =>
      traced.client.stores.senders[index]?.all fun sender =>
        sender.stage ≠ .starting ||
          traced.sentFrom[index]?.all fun source =>
            traced.client.pipeline.providers = source.providers
  | _ => true

end OpsSignal
