import ContainerPorts.Cloud.Resource
import ContainerPorts.Program
/-!
# Calls to the cloud

The one way in which everything else talks to the cloud: a call, and an answer
that is a value or a failure. That something was not found is told apart from
all other failures, because callers act on it.
-/
namespace ContainerPorts.Cloud

/-- The kinds of things that are looked up. -/
inductive Kind where
  | server
  | network
  | port
  | project
  | securityGroup
  | subnet
  deriving DecidableEq, Repr

def Kind.name : Kind → String
  | .server => "server"
  | .network => "network"
  | .port => "port"
  | .project => "project"
  | .securityGroup => "security group"
  | .subnet => "subnet"

inductive Failure where
  | notFound (kind : Kind)
  /-- The service answered with a status that is no success. -/
  | api (method url : String) (status : Nat) (body : String)
  /-- There was no usable answer. -/
  | http (url reason : String)
  | auth (reason : String)
  | missingEndpoint (service : String)
  | badUrl (reason : String)
  deriving DecidableEq, Repr

namespace Failure

def message : Failure → String
  | .notFound kind => kind.name ++ " not found"
  | .api method url status body =>
    method ++ " " ++ url ++ " returned " ++ toString status ++ ": " ++ body
  | .http url reason => "request to " ++ url ++ " failed: " ++ reason
  | .auth reason => "authentication failed: " ++ reason
  | .missingEndpoint service => "no " ++ service ++ " endpoint in the service catalog"
  | .badUrl reason => "invalid url: " ++ reason

def isNotFound : Failure → Bool
  | .notFound _ => true
  | _ => false

end Failure

inductive Call where
  /-- Plug a port into a server. -/
  | assignPort (portId serverId : String)
  | createPort (request : PortRequest) (extra : Option PortExtension)
  | deletePort (portId : String)
  /-- Unplug a port from a server. -/
  | detachPort (portId serverId : String)
  /-- Replace all tags of a port. -/
  | setPortTags (portId : String) (tags : List String)
  | networkByName (name : String)
  | portById (portId : String)
  | portsByDevice (deviceId : String)
  /-- The first port that carries all the tags. -/
  | portByTags (tags : List String)
  /-- Every port that carries all the tags. -/
  | portsByTags (tags : List String)
  | projectByName (name : String)
  | serverByName (name : String)
  | securityGroupByName (name : String) (projectId : Option String)
  | subnetById (subnetId : String)
  | subnetByName (name networkId : String)

/-- The calls without their arguments. -/
inductive Method where
  | assignPort
  | createPort
  | deletePort
  | detachPort
  | setPortTags
  | networkByName
  | portById
  | portsByDevice
  | portByTags
  | portsByTags
  | projectByName
  | serverByName
  | securityGroupByName
  | subnetById
  | subnetByName
  deriving DecidableEq, Repr

namespace Method

def all : List Method :=
  [.assignPort, .createPort, .deletePort, .detachPort, .setPortTags, .networkByName, .portById,
    .portsByDevice, .portByTags, .portsByTags, .projectByName, .serverByName,
    .securityGroupByName, .subnetById, .subnetByName]

theorem mem_all (m : Method) : m ∈ all := by cases m <;> decide

def name : Method → String
  | .assignPort => "assign_port"
  | .createPort => "create_port"
  | .deletePort => "delete_port"
  | .detachPort => "detach_port"
  | .setPortTags => "set_port_tags"
  | .networkByName => "get_network_by_name"
  | .portById => "get_port"
  | .portsByDevice => "get_ports_by_device_id"
  | .portByTags => "get_port_by_tags"
  | .portsByTags => "get_ports_by_tags"
  | .projectByName => "get_project_by_name"
  | .serverByName => "get_server_by_name"
  | .securityGroupByName => "get_security_group_by_name"
  | .subnetById => "get_subnet"
  | .subnetByName => "get_subnet_by_name"

def ofName? (s : String) : Option Method := all.find? fun m => m.name = s

end Method

namespace Call

def method : Call → Method
  | .assignPort .. => .assignPort
  | .createPort .. => .createPort
  | .deletePort .. => .deletePort
  | .detachPort .. => .detachPort
  | .setPortTags .. => .setPortTags
  | .networkByName .. => .networkByName
  | .portById .. => .portById
  | .portsByDevice .. => .portsByDevice
  | .portByTags .. => .portByTags
  | .portsByTags .. => .portsByTags
  | .projectByName .. => .projectByName
  | .serverByName .. => .serverByName
  | .securityGroupByName .. => .securityGroupByName
  | .subnetById .. => .subnetById
  | .subnetByName .. => .subnetByName

/-- What a call gives when it succeeds. -/
abbrev Result : Call → Type
  | .assignPort .. => Attachment
  | .createPort .. => Port
  | .deletePort .. => Unit
  | .detachPort .. => Unit
  | .setPortTags .. => Unit
  | .networkByName .. => Network
  | .portById .. => Port
  | .portsByDevice .. => List Port
  | .portByTags .. => Port
  | .portsByTags .. => List Port
  | .projectByName .. => Project
  | .serverByName .. => Server
  | .securityGroupByName .. => SecurityGroup
  | .subnetById .. => Subnet
  | .subnetByName .. => Subnet

/-- What a call gave, as JSON. -/
def resultJson : (c : Call) → c.Result → Json.Value
  | .assignPort .., x => Attachment.toJson x
  | .createPort .., x => Port.toJson x
  | .deletePort .., _ => .null
  | .detachPort .., _ => .null
  | .setPortTags .., _ => .null
  | .networkByName .., x => Network.toJson x
  | .portById .., x => Port.toJson x
  | .portsByDevice .., xs => .array (xs.map Port.toJson)
  | .portByTags .., x => Port.toJson x
  | .portsByTags .., xs => .array (xs.map Port.toJson)
  | .projectByName .., x => Project.toJson x
  | .serverByName .., x => Server.toJson x
  | .securityGroupByName .., x => SecurityGroup.toJson x
  | .subnetById .., x => Subnet.toJson x
  | .subnetByName .., x => Subnet.toJson x

abbrev Answer (c : Call) : Type := Except Failure c.Result

end Call

/-- The requests that can be put to a cloud. -/
abbrev calls : Signature := ⟨Call, Call.Answer⟩

/-- Put one call to the cloud. -/
def ask (c : Call) : Program calls (Except Failure c.Result) := Program.perform (S := calls) c

end ContainerPorts.Cloud
