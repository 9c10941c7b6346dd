import ContainerPorts.Json.Value
import ContainerPorts.Verb
/-!
# Metrics

Counters of what the daemon did, and a gauge of the ports of this host's server.
They are written one after another in the order of their names, each with a
line of help and a line that tells its type.
-/
namespace ContainerPorts

structure Metrics where
  requests : Nat := 0
  invalid : Nat := 0
  addSuccess : Nat := 0
  addFailure : Nat := 0
  delSuccess : Nat := 0
  delFailure : Nat := 0
  checkSuccess : Nat := 0
  checkFailure : Nat := 0
  reaped : Nat := 0
  reapFailed : Nat := 0
  portTotal : Int := 0
  deriving DecidableEq, Repr, Inhabited

namespace Metrics

def countRequest (m : Metrics) : Metrics := { m with requests := m.requests + 1 }

def countInvalid (m : Metrics) : Metrics := { m with invalid := m.invalid + 1 }

def countReaped (m : Metrics) : Metrics := { m with reaped := m.reaped + 1 }

def countReapFailed (m : Metrics) : Metrics := { m with reapFailed := m.reapFailed + 1 }

/-- Count the outcome of a verb; VERSION has none. -/
def countOutcome (verb : Verb) (success : Bool) (m : Metrics) : Metrics :=
  match verb, success with
  | .add, true => { m with addSuccess := m.addSuccess + 1 }
  | .add, false => { m with addFailure := m.addFailure + 1 }
  | .del, true => { m with delSuccess := m.delSuccess + 1 }
  | .del, false => { m with delFailure := m.delFailure + 1 }
  | .check, true => { m with checkSuccess := m.checkSuccess + 1 }
  | .check, false => { m with checkFailure := m.checkFailure + 1 }
  | .version, _ => m

/-- The six counters of outcomes together. -/
def outcomes (m : Metrics) : Nat :=
  m.addSuccess + m.addFailure + m.delSuccess + m.delFailure + m.checkSuccess + m.checkFailure

@[simp] theorem outcomes_countOutcome (verb : Verb) (success : Bool) (m : Metrics)
    (h : verb ≠ .version) : (m.countOutcome verb success).outcomes = m.outcomes + 1 := by
  cases verb <;> cases success <;> simp_all [countOutcome, outcomes] <;> omega

/-! ### Text -/

structure Sample where
  name : String
  help : String
  type : String
  value : Int

/-- All metrics in the order of their names. -/
def samples (m : Metrics) : List Sample :=
  [⟨"cni_add_failure_count", "Number of failed ADD commands", "counter", m.addFailure⟩,
    ⟨"cni_add_success_count", "Number of successful ADD commands", "counter", m.addSuccess⟩,
    ⟨"cni_check_failure_count", "Number of failed CHECK commands", "counter", m.checkFailure⟩,
    ⟨"cni_check_success_count", "Number of successful CHECK commands", "counter", m.checkSuccess⟩,
    ⟨"cni_del_failure_count", "Number of failed DEL commands", "counter", m.delFailure⟩,
    ⟨"cni_del_success_count", "Number of successful DEL commands", "counter", m.delSuccess⟩,
    ⟨"cni_port_total", "Number of CNI ports attached to this host's server", "gauge",
      m.portTotal⟩,
    ⟨"cni_reaped_port_failure_count", "Number of orphaned ports the reaper failed to delete",
      "counter", m.reapFailed⟩,
    ⟨"cni_reaped_port_success_count", "Number of orphaned ports deleted by the reaper",
      "counter", m.reaped⟩,
    ⟨"cni_request_count", "Total number of CNI requests received", "counter", m.requests⟩,
    ⟨"cni_request_invalid_count", "Number of CNI requests rejected as malformed", "counter",
      m.invalid⟩]

/-- The names of the metrics that changed, and by how much. -/
def changes (before after : Metrics) : List (String × Int) :=
  (before.samples.zip after.samples).filterMap fun p =>
    if p.1.value = p.2.value then none else some (p.1.name, p.2.value - p.1.value)

def Sample.text (s : Sample) : String :=
  "# HELP " ++ s.name ++ " " ++ s.help ++ "\n# TYPE " ++ s.name ++ " " ++ s.type ++ "\n" ++
    s.name ++ " " ++ Json.Value.text (.integer s.value) ++ "\n"

def text (m : Metrics) : String := String.join (m.samples.map Sample.text)

end Metrics

end ContainerPorts
