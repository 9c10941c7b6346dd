import ContainerPorts.Daemon.Api
import ContainerPorts.Daemon.Deadline
import ContainerPorts.Daemon.PortCount
import ContainerPorts.Daemon.Reaper
/-!
# The daemon

A daemon brings together what handles the verbs, what is checked for health, and
the reaper. It answers requests and makes reaper passes, and keeps its metrics
from one to the next.
-/
namespace ContainerPorts

structure Daemon where
  hostname : String
  handler : Handler
  /-- The directory of the interface records. -/
  records : String
  requestLimit : Span := .ofSeconds 5
  checks : List Check := [.cloud]
  countsPorts : Bool := true
  reaper : ReaperConfig := {}

namespace Daemon

open Effect

/-- Handle a verb before the deadline. -/
def command (d : Daemon) (v : Verb) (i : Invocation) :
    Program effects (Except CommandFailure v.Reply) := do
  match ← within d.requestLimit (d.handler v i) with
  | none => return .error (.deadline d.requestLimit)
  | some (.error e) => return .error (.handler e)
  | some (.ok r) => return .ok r

def portTotal (d : Daemon) : Program effects (Option Nat) := do
  if d.countsPorts then return some (← onCloud (portCount d.hostname)) else return none

def service (d : Daemon) : (r : Service) → Program effects r.Answer
  | .command v i => d.command v i
  | .health => onCloud (checkHealth d.checks)
  | .portCount => d.portTotal
  | .file c => request (.file c)

/-- Answer a request. -/
def respond (d : Daemon) (r : ApiRequest) : StateT Metrics (Program effects) Http.Response :=
  fun m => (Api.respond d.records r m).expand d.service

/-- Make one pass of the reaper. -/
def reap (d : Daemon) : StateT Metrics (Program effects) (Except Cloud.Failure ReapSummary) :=
  fun m => do
    let outcome ← Reaper.pass d.reaper d.hostname
    return (outcome.map Reaper.summary, Reaper.countPass m outcome)

/-- Make several passes of the reaper, one after the other. -/
def reapTimes (d : Daemon) : Nat → StateT Metrics (Program effects) Unit
  | 0 => return ()
  | n + 1 => do
    let _ ← d.reap
    d.reapTimes n

end Daemon

end ContainerPorts
