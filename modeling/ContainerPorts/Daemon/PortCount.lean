import ContainerPorts.Cloud.Call
import ContainerPorts.PortTags
/-!
# Counting the ports of this host

The count takes the ports that are plugged into this host's server and were
created for containers. A cloud that cannot be asked counts as zero.
-/
namespace ContainerPorts

namespace PortCount

def isCounted (p : Cloud.Port) : Bool := PortTags.isMarked p.tags

def ofServer (hostname : String) : Program Cloud.calls (Except Cloud.Failure Nat) := do
  match ← Cloud.ask (.serverByName hostname) with
  | .error e => return .error e
  | .ok server =>
    match ← Cloud.ask (.portsByDevice server.id) with
    | .error e => return .error e
    | .ok ports => return .ok (ports.countP isCounted)

end PortCount

def portCount (hostname : String) : Program Cloud.calls Nat := do
  match ← PortCount.ofServer hostname with
  | .ok n => return n
  | .error _ => return 0

end ContainerPorts
