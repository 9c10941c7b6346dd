import ContainerPorts.Cloud.Call
/-!
# Health

Every check is run for every report, in order, and the daemon is healthy when
all of them pass. The check of the cloud looks up a server that never exists:
that it is not found proves that the cloud answers.
-/
namespace ContainerPorts

open Json (Value Decoder)

structure CheckResult where
  name : String := ""
  isHealthy : Bool := false
  error : String := ""
  deriving DecidableEq, Repr, Inhabited

namespace CheckResult

def toJson (c : CheckResult) : Value := .object
  [("name", c.name), ("is_healthy", c.isHealthy), ("error", c.error)]

def decoder : Decoder CheckResult := .record {}
  [.required "name" .string fun s c => { c with name := s },
    .required "is_healthy" .bool fun b c => { c with isHealthy := b },
    .defaulted "error" .string fun s c => { c with error := s }]

end CheckResult

structure HealthReport where
  isHealthy : Bool := false
  checks : List CheckResult := []
  deriving DecidableEq, Repr, Inhabited

namespace HealthReport

def ofChecks (checks : List CheckResult) : HealthReport :=
  ⟨checks.all CheckResult.isHealthy, checks⟩

def toJson (r : HealthReport) : Value := .object
  [("is_healthy", r.isHealthy), ("checks", .array (r.checks.map CheckResult.toJson))]

def decoder : Decoder HealthReport := .record {}
  [.required "is_healthy" .bool fun b r => { r with isHealthy := b },
    .required "checks" (.list CheckResult.decoder) fun cs r => { r with checks := cs }]

end HealthReport

/-- A check that is registered with the daemon. -/
inductive Check where
  | cloud
  /-- A check whose outcome is known, `none` being a pass. -/
  | fixed (name : String) (error : Option String)
  deriving DecidableEq, Repr

namespace Check

/-- The name of a server that never exists. -/
def absentServer : String := "serverthatdoesntexist"

def name : Check → String
  | .cloud => "openstack"
  | .fixed name _ => name

/-- The error of a check, `none` being a pass. -/
def run : Check → Program Cloud.calls (Option String)
  | .cloud => do
    match ← Cloud.ask (.serverByName absentServer) with
    | .ok _ => return none
    | .error (.notFound .server) => return none
    | .error e => return some e.message
  | .fixed _ error => return error

def result (c : Check) : Program Cloud.calls CheckResult := do
  match ← c.run with
  | none => return ⟨c.name, true, ""⟩
  | some e => return ⟨c.name, false, e⟩

end Check

/-- Run the checks in order. -/
def checkHealth (checks : List Check) : Program Cloud.calls HealthReport :=
  return .ofChecks (← checks.mapM Check.result)

end ContainerPorts
