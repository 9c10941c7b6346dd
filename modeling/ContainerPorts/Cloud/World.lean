import ContainerPorts.Cloud.Call
import ContainerPorts.Cloud.PortTable
/-!
# A cloud in memory

A world holds all resources, remembers which calls were made, and can be told
to refuse a kind of call. Ports are listed by their ids; a new port is numbered
one higher than the last, and a number is used up even if no port comes of it.
-/
namespace ContainerPorts.Cloud

structure World where
  servers : List Server := []
  networks : List Network := []
  subnets : List Subnet := []
  projects : List Project := []
  securityGroups : List SecurityGroup := []
  ports : PortTable := .empty
  /-- The number of the last port that was asked for. -/
  lastNumber : Nat := 0
  /-- The kinds of calls that are refused, each with its message. -/
  refusals : List (Method × String) := []
  /-- The calls made so far, the latest first. -/
  history : List Method := []
  deriving Repr, Inhabited

namespace World

/-! ### Furnishing -/

def addServer (w : World) (s : Server) : World := { w with servers := w.servers ++ [s] }

def addNetwork (w : World) (n : Network) : World := { w with networks := w.networks ++ [n] }

/-- List a subnet's id in the first network that has the given id. -/
def listSubnet (networkId subnetId : String) : List Network → List Network
  | [] => []
  | n :: ns =>
    if n.id = networkId then { n with subnets := n.subnets ++ [subnetId] } :: ns
    else n :: listSubnet networkId subnetId ns

def addSubnet (w : World) (s : Subnet) : World :=
  { w with networks := listSubnet s.networkId s.id w.networks, subnets := w.subnets ++ [s] }

def addProject (w : World) (p : Project) : World := { w with projects := w.projects ++ [p] }

def addSecurityGroup (w : World) (g : SecurityGroup) : World :=
  { w with securityGroups := w.securityGroups ++ [g] }

def putPort (w : World) (p : Port) : World := { w with ports := w.ports.put p }

/-- Refuse all calls of a kind from now on. -/
def refuse (w : World) (m : Method) (message : String) : World :=
  { w with refusals := (m, message) :: w.refusals }

def refuseNothing (w : World) : World := { w with refusals := [] }

/-- One server, and one network with one subnet. -/
def basic : World :=
  ((({} : World).addServer ⟨"srv-1", "node-1"⟩).addNetwork ⟨"net-1", "netA", []⟩).addSubnet
    { id := "sub-1", name := "subA", networkId := "net-1", cidr := "10.0.0.0/24"
      gatewayIp := some "10.0.0.1", dnsNameservers := ["10.0.0.2"]
      hostRoutes := [⟨"192.168.0.0/16", "10.0.0.254"⟩] }

/-! ### Views -/

def port? (w : World) (id : String) : Option Port := w.ports.find? id

/-- All ports in the order of their ids. -/
def portList (w : World) : List Port := w.ports.toList

/-- The message of a refused kind of call. -/
def refusal? (w : World) (m : Method) : Option String :=
  (w.refusals.find? fun r => r.1 = m).map (·.2)

/-- How often a kind of call was made. -/
def count (w : World) (m : Method) : Nat := w.history.count m

/-! ### Answers -/

/-- The first item that passes, or that there is none. -/
def firstOr {α : Type} (kind : Kind) (p : α → Bool) (xs : List α) : Except Failure α :=
  match xs.find? p with
  | some x => .ok x
  | none => .error (.notFound kind)

/-- Change the port with this id, if there is one; the change keeps the id. -/
def onPort {α : Type} (w : World) (id : String) (change : Port → Port) (result : Port → α) :
    Except Failure α × World :=
  match w.port? id with
  | some p => (.ok (result (change p)), w.putPort (change p))
  | none => (.error (.notFound .port), w)

def attach (serverId : String) (p : Port) : Port :=
  { p with deviceId := serverId, deviceOwner := "compute:nova", status := Port.active }

def unplug (p : Port) : Port := { p with deviceId := "", deviceOwner := "", status := Port.down }

def attachmentOf (p : Port) : Attachment :=
  ⟨p.id, p.networkId, p.macAddress, p.status, p.fixedIps⟩

def portId (n : Nat) : String := "port-" ++ toString n

def portMac (n : Nat) : String := "fa:16:3e:00:00:" ++ String.ofList (Text.lowerHex 2 (n % 256))

def portAddress (n : Nat) : String := "10.0.0." ++ toString (10 + n % 200)

/-- The subnet of a new port: the one asked for, or the first one of the network. -/
def subnetFor (w : World) (r : PortRequest) : Except Failure String :=
  match r.fixedSubnets with
  | s :: _ => .ok s
  | [] => (firstOr .subnet (fun s => s.networkId = r.networkId) w.subnets).map Subnet.id

/-- The port with number `n` that a request asks for. -/
def newPort (now : Instant) (n : Nat) (r : PortRequest) (subnetId : String) : Port :=
  { id := portId n, name := r.name.getD "", networkId := r.networkId
    macAddress := r.macAddress.getD (portMac n), status := Port.down
    deviceId := r.deviceId.getD "", deviceOwner := r.deviceOwner.getD ""
    fixedIps := [⟨subnetId, portAddress n⟩], tags := [], createdAt := some now }

/-- Answer a call that is not refused. -/
def perform (now : Instant) (w : World) : (c : Call) → c.Answer × World
  | .assignPort portId serverId => w.onPort portId (attach serverId) attachmentOf
  | .createPort request _ =>
    let n := w.lastNumber + 1
    let w := { w with lastNumber := n }
    match w.subnetFor request with
    | .error e => (.error e, w)
    | .ok subnetId =>
      let p := newPort now n request subnetId
      (.ok p, w.putPort p)
  | .deletePort portId =>
    match w.port? portId with
    | some _ => (.ok (), { w with ports := w.ports.erase portId })
    | none => (.error (.notFound .port), w)
  | .detachPort portId _ => w.onPort portId unplug fun _ => ()
  | .setPortTags portId tags => w.onPort portId (fun p => { p with tags := tags }) fun _ => ()
  | .networkByName name => (firstOr .network (fun n => n.name = name) w.networks, w)
  | .portById portId =>
    match w.port? portId with
    | some p => (.ok p, w)
    | none => (.error (.notFound .port), w)
  | .portsByDevice deviceId => (.ok (w.portList.filter fun p => p.deviceId = deviceId), w)
  | .portByTags tags => (firstOr .port (fun p => p.carries tags) w.portList, w)
  | .portsByTags tags => (.ok (w.portList.filter fun p => p.carries tags), w)
  | .projectByName name => (firstOr .project (fun p => p.name = name) w.projects, w)
  | .serverByName name => (firstOr .server (fun s => s.name = name) w.servers, w)
  | .securityGroupByName name projectId =>
    (firstOr .securityGroup
      (fun g => g.name = name && projectId.all fun id => g.projectId = id) w.securityGroups, w)
  | .subnetById subnetId => (firstOr .subnet (fun s => s.id = subnetId) w.subnets, w)
  | .subnetByName name networkId =>
    (firstOr .subnet (fun s => s.name = name && s.networkId = networkId) w.subnets, w)

/-- The same world after a call was made. -/
def remember (w : World) (c : Call) : World := { w with history := c.method :: w.history }

/-- Answer a call at a given time, and remember it. -/
def answer (now : Instant) (w : World) (c : Call) : c.Answer × World :=
  match w.refusal? c.method with
  | some message => (.error (.api "MOCK" c.method.name 500 message), w.remember c)
  | none => (w.remember c).perform now c

end World

end ContainerPorts.Cloud
