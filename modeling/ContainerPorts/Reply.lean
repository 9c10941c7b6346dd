import ContainerPorts.Json.Decode
import ContainerPorts.Net.Network
/-!
# Replies to the runtime

The documents that answer an ADD, report an error and answer VERSION.
-/
namespace ContainerPorts

open Json (Value Decoder)

/-- The version in which the daemon writes its replies. -/
def replyVersion : String := "0.4.0"

def supportedVersions : List String := ["0.3.0", "0.3.1", "0.4.0", "1.0.0"]

/-- A list that is left out when it is empty. -/
def nonemptyStrings (name : String) (ss : List String) : List (String × Value) :=
  Value.present name (if ss = [] then none else some (.strings ss))

/-- A string that is left out when it is empty. -/
def nonemptyString (name s : String) : List (String × Value) :=
  Value.present name (if s = "" then none else some (.string s))

def addressDecoder : Decoder IpAddress := .filterMap IpAddress.read? .string

def networkDecoder : Decoder Network := .filterMap Network.read? .string

structure Interface where
  name : String := ""
  mac : String := ""
  sandbox : String := ""
  deriving DecidableEq, Repr, Inhabited

namespace Interface

def toJson (i : Interface) : Value := .object
  (("name", .string i.name) :: (nonemptyString "mac" i.mac ++ nonemptyString "sandbox" i.sandbox))

def decoder : Decoder Interface := .record {}
  [.required "name" .string fun s i => { i with name := s },
    .defaulted "mac" .string fun s i => { i with mac := s },
    .defaulted "sandbox" .string fun s i => { i with sandbox := s }]

end Interface

structure IpConfig where
  version : Option String := none
  /-- Position of the interface that has the address. -/
  interface : Option Nat := none
  address : Network := default
  gateway : Option IpAddress := none
  deriving DecidableEq, Repr, Inhabited

namespace IpConfig

def toJson (c : IpConfig) : Value := .object
  (Value.present "version" (c.version.map .string) ++
    Value.present "interface" (c.interface.map .nat) ++
    ("address", .string c.address.text) ::
    Value.present "gateway" (c.gateway.map fun g => .string g.text))

def decoder : Decoder IpConfig := .record {}
  [.defaulted "version" (.option .string) fun o c => { c with version := o },
    .defaulted "interface" (.option (.natural (Nat.pow 2 64 - 1))) fun o c => { c with interface := o },
    .required "address" networkDecoder fun n c => { c with address := n },
    .defaulted "gateway" (.option addressDecoder) fun o c => { c with gateway := o }]

end IpConfig

structure Route where
  dst : Network := default
  gw : Option IpAddress := none
  deriving DecidableEq, Repr, Inhabited

namespace Route

def toJson (r : Route) : Value := .object
  (("dst", .string r.dst.text) :: Value.present "gw" (r.gw.map fun g => .string g.text))

def decoder : Decoder Route := .record {}
  [.required "dst" networkDecoder fun n r => { r with dst := n },
    .defaulted "gw" (.option addressDecoder) fun o r => { r with gw := o }]

end Route

structure Dns where
  nameservers : List String := []
  domain : Option String := none
  search : List String := []
  options : List String := []
  deriving DecidableEq, Repr, Inhabited

namespace Dns

def toJson (d : Dns) : Value := .object
  (nonemptyStrings "nameservers" d.nameservers ++ Value.present "domain" (d.domain.map .string) ++
    nonemptyStrings "search" d.search ++ nonemptyStrings "options" d.options)

def decoder : Decoder Dns := .record {}
  [.defaulted "nameservers" (.list .string) fun ss d => { d with nameservers := ss },
    .defaulted "domain" (.option .string) fun o d => { d with domain := o },
    .defaulted "search" (.list .string) fun ss d => { d with search := ss },
    .defaulted "options" (.list .string) fun ss d => { d with options := ss }]

end Dns

/-- The answer to an ADD. -/
structure AddReply where
  cniVersion : String := ""
  interfaces : List Interface := []
  ips : List IpConfig := []
  routes : List Route := []
  dns : Dns := {}
  deriving DecidableEq, Repr, Inhabited

namespace AddReply

def toJson (r : AddReply) : Value := .object
  [("cniVersion", r.cniVersion), ("interfaces", .array (r.interfaces.map Interface.toJson)),
    ("ips", .array (r.ips.map IpConfig.toJson)), ("routes", .array (r.routes.map Route.toJson)),
    ("dns", r.dns.toJson)]

def decoder : Decoder AddReply := .record {}
  [.required "cniVersion" .string fun s r => { r with cniVersion := s },
    .defaulted "interfaces" (.list Interface.decoder) fun is r => { r with interfaces := is },
    .defaulted "ips" (.list IpConfig.decoder) fun is r => { r with ips := is },
    .defaulted "routes" (.list Route.decoder) fun rs r => { r with routes := rs },
    .defaulted "dns" Dns.decoder fun d r => { r with dns := d }]

/-- The first address, without its length. -/
def primaryIp? (r : AddReply) : Option IpAddress := r.ips.head?.map fun c => c.address.address

/-- The reply in the version that was asked for, if that is a supported one. From 1.0 on an
address does not tell its version. -/
def restamped (r : AddReply) (requested : String) : AddReply :=
  if requested ∉ supportedVersions then r
  else if "0.".toList.isPrefixOf requested.toList then { r with cniVersion := requested }
  else { r with cniVersion := requested, ips := r.ips.map fun c => { c with version := none } }

end AddReply

/-- What is reported to the runtime when an invocation fails. -/
structure ErrorReply where
  cniVersion : String := ""
  code : Nat := 0
  msg : String := ""
  details : String := ""
  deriving DecidableEq, Repr, Inhabited

namespace ErrorReply

/-- The code of every failure that has no code of its own. -/
def internalCode : Nat := 999

def internal (msg details : String) : ErrorReply := ⟨replyVersion, internalCode, msg, details⟩

def toJson (e : ErrorReply) : Value := .object
  ([("cniVersion", .string e.cniVersion), ("code", .nat e.code), ("msg", .string e.msg)] ++
    nonemptyString "details" e.details)

def decoder : Decoder ErrorReply := .record {}
  [.required "cniVersion" .string fun s e => { e with cniVersion := s },
    .required "code" (.natural (Nat.pow 2 32 - 1)) fun n e => { e with code := n },
    .required "msg" .string fun s e => { e with msg := s },
    .defaulted "details" .string fun s e => { e with details := s }]

def message (e : ErrorReply) : String :=
  e.msg ++ " (code " ++ toString e.code ++ ")" ++ (if e.details = "" then "" else ": " ++ e.details)

end ErrorReply

/-- The answer to VERSION. -/
structure VersionReply where
  cniVersion : String := replyVersion
  supported : List String := supportedVersions
  deriving DecidableEq, Repr, Inhabited

namespace VersionReply

def toJson (v : VersionReply) : Value := .object
  [("cniVersion", v.cniVersion), ("supportedVersions", .strings v.supported)]

def decoder : Decoder VersionReply := .record {}
  [.required "cniVersion" .string fun s v => { v with cniVersion := s },
    .required "supportedVersions" (.list .string) fun ss v => { v with supported := ss }]

end VersionReply

/-- A document on a line of its own. -/
def documentLine (v : Value) : String := v.text ++ "\n"

end ContainerPorts
