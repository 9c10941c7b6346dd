import ContainerPorts.Json.Decode
/-!
# Network configurations

The configuration that the runtime hands to the plugin, and the defaults of the
daemon that fill what it leaves open.
-/
namespace ContainerPorts

/-- An address, perhaps with a MAC, that a port may use besides its own. -/
structure AddressPair where
  ipAddress : String := ""
  macAddress : Option String := none
  deriving DecidableEq, Repr, Inhabited

namespace AddressPair

def toJson (p : AddressPair) : Json.Value := .object
  (("ip_address", .string p.ipAddress) ::
    Json.Value.present "mac_address" (p.macAddress.map .string))

def decoder : Json.Decoder AddressPair := .record {}
  [.required "ip_address" .string fun s p => { p with ipAddress := s },
    .defaulted "mac_address" (.option .string) fun o p => { p with macAddress := o }]

end AddressPair

structure NetworkConf where
  cniVersion : String := ""
  name : String := ""
  pluginType : String := ""
  /-- Name of the network that the port is created in. -/
  network : String := ""
  /-- Name of the subnet that the port's address is taken from. -/
  subnetName : Option String := none
  /-- Project that owns the security groups. -/
  projectName : Option String := none
  securityGroups : Option (List String) := none
  tenantId : Option String := none
  macAddress : Option String := none
  adminStateUp : Option Bool := none
  deviceId : Option String := none
  deviceOwner : Option String := none
  portName : Option String := none
  portDescription : Option String := none
  allowedAddressPairs : List AddressPair := []
  valueSpecs : Table String := []
  portSecurityEnabled : Option Bool := some true
  hostId : Option String := none
  vnicType : Option String := none
  profile : Table Json.Value := []
  deriving Repr, Inhabited

structure PortDefaults where
  portName : String := "openstack-cni"
  projectName : Option String := none
  deviceOwner : Option String := none
  deriving DecidableEq, Repr, Inhabited

def PortDefaults.toJson (d : PortDefaults) : Json.Value := .object
  [("port_name", d.portName), ("project_name", .optional d.projectName),
    ("device_owner", .optional d.deviceOwner)]

namespace NetworkConf

open Json.Decoder in
def decoder : Json.Decoder NetworkConf := record {}
  [.defaulted "cniVersion" string fun s c => { c with cniVersion := s },
    .defaulted "name" string fun s c => { c with name := s },
    .defaulted "type" string fun s c => { c with pluginType := s },
    .defaulted "network" string fun s c => { c with network := s },
    .defaulted "subnet_name" (option string) fun o c => { c with subnetName := o },
    .defaulted "project_name" (option string) fun o c => { c with projectName := o },
    .defaulted "security_groups" (option (list string)) fun o c => { c with securityGroups := o },
    .defaulted "tenant_id" (option string) fun o c => { c with tenantId := o },
    .defaulted "mac_address" (option string) fun o c => { c with macAddress := o },
    .defaulted "admin_state_up" (option bool) fun o c => { c with adminStateUp := o },
    .defaulted "device_id" (option string) fun o c => { c with deviceId := o },
    .defaulted "device_owner" (option string) fun o c => { c with deviceOwner := o },
    .defaulted "port_name" (option string) fun o c => { c with portName := o },
    .defaulted "port_description" (option string) fun o c => { c with portDescription := o },
    .defaulted "allowed_address_pairs" (list AddressPair.decoder)
      fun ps c => { c with allowedAddressPairs := ps },
    .defaulted "value_specs" (table string) fun t c => { c with valueSpecs := t },
    .defaulted "port_security_enabled" (option bool)
      fun o c => { c with portSecurityEnabled := o },
    .defaulted "binding:host_id" (option string) fun o c => { c with hostId := o },
    .defaulted "binding:vnic_type" (option string) fun o c => { c with vnicType := o },
    .defaulted "binding:profile" valueTable fun t c => { c with profile := t }]

open Json (Value) in
def toJson (c : NetworkConf) : Value := .object
  [("cniVersion", c.cniVersion), ("name", c.name), ("type", c.pluginType), ("network", c.network),
    ("subnet_name", Value.optional c.subnetName), ("project_name", Value.optional c.projectName),
    ("security_groups", (c.securityGroups.map Value.strings).getD .null),
    ("tenant_id", Value.optional c.tenantId), ("mac_address", Value.optional c.macAddress),
    ("admin_state_up", (c.adminStateUp.map Value.bool).getD .null),
    ("device_id", Value.optional c.deviceId), ("device_owner", Value.optional c.deviceOwner),
    ("port_name", Value.optional c.portName),
    ("port_description", Value.optional c.portDescription),
    ("allowed_address_pairs", .array (c.allowedAddressPairs.map AddressPair.toJson)),
    ("value_specs", .object (c.valueSpecs.map fun m => (m.1, .string m.2))),
    ("port_security_enabled", (c.portSecurityEnabled.map Value.bool).getD .null),
    ("binding:host_id", Value.optional c.hostId), ("binding:vnic_type", Value.optional c.vnicType),
    ("binding:profile", .object c.profile)]

/-- Fill what is open: a port name that is missing or empty, and a project, an owner and a
port security setting that are missing. -/
def withDefaults (defaults : PortDefaults) (c : NetworkConf) : NetworkConf :=
  { c with
    portName := if c.portName.getD "" = "" then some defaults.portName else c.portName
    projectName := c.projectName <|> defaults.projectName
    deviceOwner := c.deviceOwner <|> defaults.deviceOwner
    portSecurityEnabled := c.portSecurityEnabled <|> some true }

def read (defaults : PortDefaults) (stdin : Bytes) : Except Json.Fault NetworkConf :=
  (decoder.ofBytes stdin).map (withDefaults defaults)

end NetworkConf

/-- The version that a configuration asks for; other members do not matter. -/
def requestedVersion (stdin : Bytes) : Except Json.Fault String :=
  Json.Decoder.ofBytes (.record "" [.defaulted "cniVersion" .string fun s _ => s]) stdin

end ContainerPorts
