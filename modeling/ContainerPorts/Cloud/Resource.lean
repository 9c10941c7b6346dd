import ContainerPorts.NetworkConf
import ContainerPorts.Time.Instant
/-!
# Resources of the cloud

The records of the compute, network and identity services, and what a port is
asked for with.
-/
namespace ContainerPorts.Cloud

open Json (Value Decoder)

structure Server where
  id : String := ""
  name : String := ""
  deriving DecidableEq, Repr, Inhabited

namespace Server

def toJson (s : Server) : Value := .object [("id", s.id), ("name", s.name)]

def decoder : Decoder Server := .record {}
  [.required "id" .string fun s x => { x with id := s },
    .required "name" .string fun s x => { x with name := s }]

end Server

structure Network where
  id : String := ""
  name : String := ""
  subnets : List String := []
  deriving DecidableEq, Repr, Inhabited

namespace Network

def toJson (n : Network) : Value := .object
  [("id", n.id), ("name", n.name), ("subnets", .strings n.subnets)]

def decoder : Decoder Network := .record {}
  [.required "id" .string fun s x => { x with id := s },
    .required "name" .string fun s x => { x with name := s },
    .defaulted "subnets" (.list .string) fun ss x => { x with subnets := ss }]

end Network

structure HostRoute where
  destination : String := ""
  nexthop : String := ""
  deriving DecidableEq, Repr, Inhabited

namespace HostRoute

def toJson (r : HostRoute) : Value := .object
  [("destination", r.destination), ("nexthop", r.nexthop)]

def decoder : Decoder HostRoute := .record {}
  [.required "destination" .string fun s x => { x with destination := s },
    .required "nexthop" .string fun s x => { x with nexthop := s }]

end HostRoute

structure Subnet where
  id : String := ""
  name : String := ""
  networkId : String := ""
  cidr : String := ""
  gatewayIp : Option String := none
  dnsNameservers : List String := []
  hostRoutes : List HostRoute := []
  deriving DecidableEq, Repr, Inhabited

namespace Subnet

def toJson (s : Subnet) : Value := .object
  [("id", s.id), ("name", s.name), ("network_id", s.networkId), ("cidr", s.cidr),
    ("gateway_ip", .optional s.gatewayIp), ("dns_nameservers", .strings s.dnsNameservers),
    ("host_routes", .array (s.hostRoutes.map HostRoute.toJson))]

def decoder : Decoder Subnet := .record {}
  [.required "id" .string fun s x => { x with id := s },
    .required "name" .string fun s x => { x with name := s },
    .required "network_id" .string fun s x => { x with networkId := s },
    .required "cidr" .string fun s x => { x with cidr := s },
    .defaulted "gateway_ip" (.option .string) fun o x => { x with gatewayIp := o },
    .defaulted "dns_nameservers" (.list .string) fun ss x => { x with dnsNameservers := ss },
    .defaulted "host_routes" (.list HostRoute.decoder) fun rs x => { x with hostRoutes := rs }]

end Subnet

structure FixedIp where
  subnetId : String := ""
  ipAddress : String := ""
  deriving DecidableEq, Repr, Inhabited

namespace FixedIp

def toJson (f : FixedIp) : Value := .object
  [("subnet_id", f.subnetId), ("ip_address", f.ipAddress)]

def decoder : Decoder FixedIp := .record {}
  [.required "subnet_id" .string fun s x => { x with subnetId := s },
    .required "ip_address" .string fun s x => { x with ipAddress := s }]

end FixedIp

structure Port where
  id : String := ""
  name : String := ""
  networkId : String := ""
  macAddress : String := ""
  status : String := ""
  deviceId : String := ""
  deviceOwner : String := ""
  fixedIps : List FixedIp := []
  tags : List String := []
  createdAt : Option Instant := none
  deriving DecidableEq, Repr, Inhabited

namespace Port

/-- The status of a port that is plugged in nowhere. -/
def down : String := "DOWN"

/-- The status of a port that is in use. -/
def active : String := "ACTIVE"

def isDown (p : Port) : Bool := p.status = down

def hasTag (p : Port) (tag : String) : Bool := tag ∈ p.tags

/-- Whether the port carries every one of the tags. -/
def carries (p : Port) (tags : List String) : Bool := tags.all p.hasTag

theorem carries_iff {p : Port} {tags : List String} : p.carries tags = true ↔ tags ⊆ p.tags := by
  simp [carries, hasTag, List.subset_def]

def toJson (p : Port) : Value := .object
  [("id", p.id), ("name", p.name), ("network_id", p.networkId), ("mac_address", p.macAddress),
    ("status", p.status), ("device_id", p.deviceId), ("device_owner", p.deviceOwner),
    ("fixed_ips", .array (p.fixedIps.map FixedIp.toJson)), ("tags", .strings p.tags),
    ("created_at", .optional (p.createdAt.map Instant.text))]

def decoder : Decoder Port := .record {}
  [.required "id" .string fun s x => { x with id := s },
    .defaulted "name" .string fun s x => { x with name := s },
    .required "network_id" .string fun s x => { x with networkId := s },
    .defaulted "mac_address" .string fun s x => { x with macAddress := s },
    .defaulted "status" .string fun s x => { x with status := s },
    .defaulted "device_id" .string fun s x => { x with deviceId := s },
    .defaulted "device_owner" .string fun s x => { x with deviceOwner := s },
    .defaulted "fixed_ips" (.list FixedIp.decoder) fun fs x => { x with fixedIps := fs },
    .defaulted "tags" (.list .string) fun ss x => { x with tags := ss },
    .defaulted "created_at" (.option (.filterMap Instant.read? .string))
      fun o x => { x with createdAt := o }]

end Port

structure Project where
  id : String := ""
  name : String := ""
  deriving DecidableEq, Repr, Inhabited

namespace Project

def toJson (p : Project) : Value := .object [("id", p.id), ("name", p.name)]

def decoder : Decoder Project := .record {}
  [.required "id" .string fun s x => { x with id := s },
    .required "name" .string fun s x => { x with name := s }]

end Project

structure SecurityGroup where
  id : String := ""
  name : String := ""
  projectId : String := ""
  deriving DecidableEq, Repr, Inhabited

namespace SecurityGroup

def toJson (g : SecurityGroup) : Value := .object
  [("id", g.id), ("name", g.name), ("project_id", g.projectId)]

def decoder : Decoder SecurityGroup := .record {}
  [.required "id" .string fun s x => { x with id := s },
    .required "name" .string fun s x => { x with name := s },
    .defaulted "project_id" .string fun s x => { x with projectId := s }]

end SecurityGroup

/-- The compute service's record of a port plugged into a server. -/
structure Attachment where
  portId : String := ""
  netId : String := ""
  macAddr : String := ""
  portState : String := ""
  fixedIps : List FixedIp := []
  deriving DecidableEq, Repr, Inhabited

namespace Attachment

def toJson (a : Attachment) : Value := .object
  [("port_id", a.portId), ("net_id", a.netId), ("mac_addr", a.macAddr),
    ("port_state", a.portState), ("fixed_ips", .array (a.fixedIps.map FixedIp.toJson))]

def decoder : Decoder Attachment := .record {}
  [.required "port_id" .string fun s x => { x with portId := s },
    .defaulted "net_id" .string fun s x => { x with netId := s },
    .required "mac_addr" .string fun s x => { x with macAddr := s },
    .defaulted "port_state" .string fun s x => { x with portState := s },
    .defaulted "fixed_ips" (.list FixedIp.decoder) fun fs x => { x with fixedIps := fs }]

end Attachment

/-- What a port is asked for with. -/
structure PortRequest where
  networkId : String := ""
  name : Option String := none
  description : Option String := none
  adminStateUp : Bool := false
  macAddress : Option String := none
  /-- Subnets that the port takes an address from. -/
  fixedSubnets : List String := []
  deviceId : Option String := none
  deviceOwner : Option String := none
  tenantId : Option String := none
  securityGroups : Option (List String) := none
  allowedAddressPairs : List AddressPair := []
  /-- Further members of the request; they win over the ones above. -/
  valueSpecs : Table String := []
  deriving DecidableEq, Repr, Inhabited

namespace PortRequest

/-- The members that have fields of their own; what is absent or empty is left out. -/
def ownMembers (r : PortRequest) : List (String × Value) :=
  [("network_id", .string r.networkId)] ++ Value.present "name" (r.name.map .string) ++
    Value.present "description" (r.description.map .string) ++
    [("admin_state_up", .bool r.adminStateUp)] ++
    Value.present "mac_address" (r.macAddress.map .string) ++
    Value.present "fixed_ips" (if r.fixedSubnets = [] then none
      else some (.array (r.fixedSubnets.map fun s => .object [("subnet_id", .string s)]))) ++
    Value.present "device_id" (r.deviceId.map .string) ++
    Value.present "device_owner" (r.deviceOwner.map .string) ++
    Value.present "tenant_id" (r.tenantId.map .string) ++
    Value.present "security_groups" (r.securityGroups.map .strings) ++
    Value.present "allowed_address_pairs" (if r.allowedAddressPairs = [] then none
      else some (.array (r.allowedAddressPairs.map AddressPair.toJson)))

def members (r : PortRequest) : Table Value :=
  Table.ofList (r.ownMembers ++ r.valueSpecs.map fun m => (m.1, .string m.2))

def toJson (r : PortRequest) : Value := .object r.members

end PortRequest

/-- The settings of a port that extensions of the network service know. -/
structure PortExtension where
  portSecurityEnabled : Option Bool := none
  hostId : Option String := none
  vnicType : Option String := none
  profile : Table Value := []
  deriving Repr, Inhabited

namespace PortExtension

def hasPortSecurity (e : PortExtension) : Bool := e.portSecurityEnabled.isSome

def hasPortBindings (e : PortExtension) : Bool :=
  e.hostId.getD "" ≠ "" || e.vnicType.getD "" ≠ "" || !e.profile.isEmpty

/-- An extension that sets nothing is not sent. -/
def isEmpty (e : PortExtension) : Bool := !e.hasPortSecurity && !e.hasPortBindings

def members (e : PortExtension) : List (String × Value) :=
  Value.present "port_security_enabled" (e.portSecurityEnabled.map .bool) ++
    Value.present "binding:host_id" (e.hostId.map .string) ++
    Value.present "binding:vnic_type" (e.vnicType.map .string) ++
    Value.present "binding:profile" (if e.profile.isEmpty then none else some (.object e.profile))

def toJson (e : PortExtension) : Value := .object e.members

def decoder : Decoder PortExtension := .record {}
  [.omissible "port_security_enabled" (.option .bool)
      fun o x => { x with portSecurityEnabled := o },
    .omissible "binding:host_id" (.option .string) fun o x => { x with hostId := o },
    .omissible "binding:vnic_type" (.option .string) fun o x => { x with vnicType := o },
    .defaulted "binding:profile" .valueTable fun t x => { x with profile := t }]

end PortExtension

/-- The body that asks for a port; a member of the extension wins over one of the request. -/
def portBody (r : PortRequest) (extra : Option PortExtension) : Value :=
  let members := match extra with
    | some e => if e.isEmpty then r.members
      else e.members.foldl (fun t m => Table.insert m.1 m.2 t) r.members
    | none => r.members
  .object [("port", .object members)]

end ContainerPorts.Cloud
