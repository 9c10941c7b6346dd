import ContainerPorts.Cloud.Call
import ContainerPorts.Context
/-!
# Setting up and tearing down a port

Setting up looks up the server, the network, the security groups and the
subnet, creates the port, tags it and plugs it in. Each step needs the ones
before it; the first failure ends the run and leaves what was found so far.
Tearing down finds the port by its tags, unplugs and deletes it, and is done
when there is no such port.
-/
namespace ContainerPorts.Cloud

/-- The steps whose failure is reported with its cause. -/
inductive Step where
  | getServer
  | getNetwork
  | getProject
  | getSecurityGroup
  | getSubnetByName
  | createPort
  | setPortTags
  | getSubnet
  | attachPort
  | getPortByTags
  | detachPort
  | deletePort
  deriving DecidableEq, Repr

def Step.name : Step → String
  | .getServer => "get server"
  | .getNetwork => "get network"
  | .getProject => "get project"
  | .getSecurityGroup => "get security group"
  | .getSubnetByName => "get subnet by name"
  | .createPort => "create port"
  | .setPortTags => "set port tags"
  | .getSubnet => "get subnet"
  | .attachPort => "attach port"
  | .getPortByTags => "get port by tags"
  | .detachPort => "detach port"
  | .deletePort => "delete port"

inductive PortError where
  | serverNotFound (name : String)
  | networkNotFound (name : String)
  | projectNotFound (name : String)
  | securityGroupNotFound (name : String)
  | subnetNotFound (name networkId : String)
  | noFixedIps (portId : String)
  | cloud (step : Step) (cause : Failure)
  deriving DecidableEq, Repr

def PortError.message : PortError → String
  | .serverNotFound name => "server " ++ name ++ " not found"
  | .networkNotFound name => "network " ++ name ++ " not found"
  | .projectNotFound name => "project " ++ name ++ " not found"
  | .securityGroupNotFound name => "security group " ++ name ++ " not found"
  | .subnetNotFound name networkId => "subnet " ++ name ++ " not found in network " ++ networkId
  | .noFixedIps portId => "port " ++ portId ++ " has no fixed ips"
  | .cloud step cause => step.name ++ ": " ++ cause.message

/-- What a run has found and made so far. -/
structure Resolved where
  server : Option Server := none
  network : Option Network := none
  subnet : Option Subnet := none
  port : Option Port := none
  attachment : Option Attachment := none
  deriving DecidableEq, Repr, Inhabited

/-- What was resolved, with null for what was not reached. -/
def Resolved.toJson (r : Resolved) : Json.Value :=
  let orNull {α : Type} (f : α → Json.Value) (o : Option α) := (o.map f).getD .null
  .object
    [("server", orNull Server.toJson r.server), ("network", orNull Network.toJson r.network),
      ("subnet", orNull Subnet.toJson r.subnet), ("port", orNull Port.toJson r.port),
      ("attachment", orNull Attachment.toJson r.attachment)]

structure SetupOptions where
  adminStateUp : Option Bool := none
  allowedAddressPairs : List AddressPair := []
  deviceId : Option String := none
  deviceOwner : Option String := none
  /-- Name of the server that this host is in the cloud. -/
  hostname : String := ""
  macAddress : Option String := none
  networkName : String := ""
  portDescription : Option String := none
  portName : Option String := none
  projectName : Option String := none
  securityGroups : Option (List String) := none
  subnetName : Option String := none
  skipAttach : Bool := false
  tags : List String := []
  tenantId : Option String := none
  valueSpecs : Table String := []
  extra : PortExtension := {}
  deriving Repr, Inhabited

def SetupOptions.ofContext (c : Context) (tags : List String) : SetupOptions :=
  { adminStateUp := c.conf.adminStateUp, allowedAddressPairs := c.conf.allowedAddressPairs
    deviceId := c.conf.deviceId, deviceOwner := c.conf.deviceOwner, hostname := c.hostname
    macAddress := c.conf.macAddress, networkName := c.conf.network
    portDescription := c.conf.portDescription, portName := c.conf.portName
    projectName := c.conf.projectName, securityGroups := c.conf.securityGroups
    subnetName := c.conf.subnetName, skipAttach := false, tags := tags
    tenantId := c.conf.tenantId, valueSpecs := c.conf.valueSpecs
    extra := ⟨c.conf.portSecurityEnabled, c.conf.hostId, c.conf.vnicType, c.conf.profile⟩ }

structure TeardownOptions where
  hostname : String := ""
  tags : List String := []
  skipDetach : Bool := false
  deriving DecidableEq, Repr, Inhabited

def TeardownOptions.ofContext (c : Context) (tags : List String) : TeardownOptions :=
  ⟨c.hostname, tags, false⟩

/-- The text, unless it is missing or empty. -/
def nonempty? (s : Option String) : Option String := s.filter fun s => s ≠ ""

/-- How a failure of a lookup is reported: as `missing` if nothing was found. -/
def lookupError (step : Step) (missing : PortError) (e : Failure) : PortError :=
  if e.isNotFound then missing else .cloud step e

/-! ### Setting up -/

/-- A run that may fail and keeps what it has resolved. -/
abbrev Setup (α : Type) : Type := ExceptT PortError (StateT Resolved (Program calls)) α

namespace Setup

/-- Put a call, and report its failure by `report`. -/
def attempt (report : Failure → PortError) (c : Call) : Setup c.Result := do
  match ← (ask c : Program calls _) with
  | .ok x => return x
  | .error e => throw (report e)

/-- The id of the project that owns the groups, if one is named. -/
def owner (projectName : Option String) : Setup (Option String) := do
  match nonempty? projectName with
  | none => return none
  | some name =>
    let project ← attempt (lookupError .getProject (.projectNotFound name)) (.projectByName name)
    return some project.id

/-- The ids of the named groups in their order; one that is missing fails the run. -/
def groupIds (projectName : Option String) (names : List String) : Setup (List String) := do
  let projectId ← owner projectName
  names.mapM fun name => do
    let group ← attempt (lookupError .getSecurityGroup (.securityGroupNotFound name))
      (.securityGroupByName name projectId)
    return group.id

/-- The groups to ask for; no names mean no groups. -/
def groups (o : SetupOptions) : Setup (Option (List String)) := do
  match o.securityGroups with
  | some (name :: names) => return some (← groupIds o.projectName (name :: names))
  | _ => return none

/-- The subnets that the port is pinned to. -/
def pinned (o : SetupOptions) (networkId : String) : Setup (List String) := do
  match nonempty? o.subnetName with
  | none => return []
  | some name =>
    let subnet ← attempt (lookupError .getSubnetByName (.subnetNotFound name networkId))
      (.subnetByName name networkId)
    return [subnet.id]

def request (o : SetupOptions) (networkId : String) (groups : Option (List String))
    (subnets : List String) : PortRequest :=
  { networkId := networkId, name := o.portName, description := o.portDescription
    adminStateUp := o.adminStateUp.getD true, macAddress := nonempty? o.macAddress
    fixedSubnets := subnets, deviceId := nonempty? o.deviceId
    deviceOwner := nonempty? o.deviceOwner, tenantId := nonempty? o.tenantId
    securityGroups := groups, allowedAddressPairs := o.allowedAddressPairs
    valueSpecs := o.valueSpecs }

/-- Tag the port, if there are tags. -/
def tagged (o : SetupOptions) (port : Port) : Setup Port := do
  if o.tags = [] then return port
  let _ ← attempt (.cloud .setPortTags) (.setPortTags port.id o.tags)
  let port := { port with tags := o.tags }
  modify fun r => { r with port := some port }
  return port

/-- Plug the port in, unless that is skipped. -/
def plugged (o : SetupOptions) (portId serverId : String) : Setup Unit := do
  if o.skipAttach then return ()
  let attachment ← attempt (.cloud .attachPort) (.assignPort portId serverId)
  modify fun r => { r with attachment := some attachment }

def all (o : SetupOptions) : Setup Unit := do
  let server ← attempt (lookupError .getServer (.serverNotFound o.hostname))
    (.serverByName o.hostname)
  modify fun r => { r with server := some server }
  let network ← attempt (lookupError .getNetwork (.networkNotFound o.networkName))
    (.networkByName o.networkName)
  modify fun r => { r with network := some network }
  let groups ← groups o
  let subnets ← pinned o network.id
  let extra := if o.extra.isEmpty then none else some o.extra
  let port ← attempt (.cloud .createPort)
    (.createPort (request o network.id groups subnets) extra)
  modify fun r => { r with port := some port }
  let port ← tagged o port
  match port.fixedIps with
  | [] => throw (.noFixedIps port.id)
  | ip :: _ =>
    let subnet ← attempt (.cloud .getSubnet) (.subnetById ip.subnetId)
    modify fun r => { r with subnet := some subnet }
    plugged o port.id server.id

end Setup

structure SetupError where
  /-- What was resolved before the failure. -/
  resolved : Resolved
  cause : PortError
  deriving DecidableEq, Repr

/-- Create, tag and plug in a port. -/
def setupPort (o : SetupOptions) : Program calls (Except SetupError Resolved) := do
  match ← ((Setup.all o).run).run {} with
  | (.ok (), r) => return .ok r
  | (.error e, r) => return .error ⟨r, e⟩

/-! ### Tearing down -/

/-- Put a call, and report its failure by `report`. -/
def attempt (report : Failure → PortError) (c : Call) :
    ExceptT PortError (Program calls) c.Result := do
  match ← (ask c : Program calls _) with
  | .ok x => return x
  | .error e => throw (report e)

/-- Unplug the port from this host's server, unless that is skipped. -/
def unplugged (o : TeardownOptions) (portId : String) : ExceptT PortError (Program calls) Unit := do
  if o.skipDetach then return ()
  let server ← attempt (lookupError .getServer (.serverNotFound o.hostname))
    (.serverByName o.hostname)
  attempt (.cloud .detachPort) (.detachPort portId server.id)

/-- Unplug and delete the first port that carries the tags. -/
def teardownPort (o : TeardownOptions) : Program calls (Except PortError Unit) := do
  match ← ask (.portByTags o.tags) with
  | .error (.notFound .port) => return .ok ()
  | .error e => return .error (.cloud .getPortByTags e)
  | .ok port => ExceptT.run do
    unplugged o port.id
    attempt (.cloud .deletePort) (.deletePort port.id)

end ContainerPorts.Cloud
