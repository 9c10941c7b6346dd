import ContainerPorts.Cloud.PortSetup
import ContainerPorts.Reply
/-!
# The reply that describes a port

A port that was set up completely is described by one interface and one address.
The first thing that is missing or unreadable is reported. Routes are different:
one that cannot be read is left out, because a container can do without it.
-/
namespace ContainerPorts

inductive ReplyError where
  | incomplete
  | invalidAddress (value reason : String)
  deriving DecidableEq, Repr

def ReplyError.message : ReplyError → String
  | .incomplete => "setup port result is incomplete"
  | .invalidAddress value reason => "invalid address " ++ value ++ ": " ++ reason

namespace PortReply

/-- Read a text, or report it with the reason why it is invalid. -/
def readOr {α : Type} (read? : String → Option α) (reason value : String) : Except ReplyError α :=
  match read? value with
  | some a => .ok a
  | none => .error (.invalidAddress value reason)

/-- The first address of the port. -/
def fixedIp (port : Cloud.Port) : Except ReplyError Cloud.FixedIp :=
  match port.fixedIps with
  | f :: _ => .ok f
  | [] => .error (.invalidAddress port.id "port has no fixed ips")

/-- The address of a port with the length of its subnet. -/
def address (ip : IpAddress) (cidr : String) : Except ReplyError Network := do
  let net ← readOr Network.read? (Network.unreadable cidr) cidr
  readOr (fun _ => Network.make? ip net.bits) Network.tooLong cidr

/-- An empty gateway is none. -/
def gateway (subnet : Cloud.Subnet) : Except ReplyError (Option IpAddress) :=
  match Cloud.nonempty? subnet.gatewayIp with
  | none => .ok none
  | some g => (readOr IpAddress.read? IpAddress.unreadable g).map some

def route? (r : Cloud.HostRoute) : Option Route := do
  return ⟨← Network.read? r.destination, some (← IpAddress.read? r.nexthop)⟩

def family (ip : IpAddress) : String := if ip.isV4 then "4" else "6"

/-- The reply to the invocation that a port was set up for. -/
def describe (r : Cloud.Resolved) (i : Invocation) : Except ReplyError AddReply :=
  match r.attachment, r.network, r.port, r.subnet with
  | some attachment, some _, some port, some subnet => do
    let fixed ← fixedIp port
    let ip ← readOr IpAddress.read? IpAddress.unreadable fixed.ipAddress
    let address ← address ip subnet.cidr
    let gateway ← gateway subnet
    return { cniVersion := replyVersion
             interfaces := [⟨i.ifname, attachment.macAddr, i.netns⟩]
             ips := [⟨some (family ip), some 0, address, gateway⟩]
             routes := subnet.hostRoutes.filterMap route?
             dns := { nameservers := subnet.dnsNameservers } }
  | _, _, _, _ => .error .incomplete

end PortReply

end ContainerPorts
