import ContainerPorts.Json.Decode
import ContainerPorts.Text.Base64
import ContainerPorts.Verb
/-!
# Invocations

One call of the container runtime as it is sent to the daemon: the verb, who it
is for, and the bytes of the network configuration, which travel in Base64.
-/
namespace ContainerPorts

structure Invocation where
  command : String := ""
  containerId : String := ""
  netns : String := ""
  ifname : String := ""
  args : String := ""
  path : String := ""
  stdin : Bytes := []
  deriving DecidableEq, Repr, Inhabited

/-- Why an invocation is turned away before anything is done for it. -/
inductive Rejection where
  | missingField (name : String)
  | unknownCommand (command : String)
  deriving DecidableEq, Repr

def Rejection.message : Rejection → String
  | .missingField name => "missing required field: " ++ name
  | .unknownCommand command => "unknown command: " ++ command

/-- The verb of that name, or the reason why there is none. -/
def Verb.named (s : String) : Except Rejection Verb :=
  match Verb.ofName? s with
  | some v => .ok v
  | none => .error (.unknownCommand s)

namespace Invocation

/-- The verb, provided that every field it needs is given. -/
def validate (i : Invocation) : Except Rejection Verb := do
  if i.command = "" then throw (.missingField "command")
  let verb ← Verb.named i.command
  if i.containerId = "" then throw (.missingField "container_id")
  if i.ifname = "" then throw (.missingField "ifname")
  if i.stdin = [] then throw (.missingField "stdindata")
  if verb.needsNetns && i.netns = "" then throw (.missingField "netns")
  return verb

/-- One line for messages; the network configuration is left out. -/
def summary (i : Invocation) : String :=
  "command=" ++ i.command ++ " container_id=" ++ i.containerId ++ " netns=" ++ i.netns ++
    " ifname=" ++ i.ifname ++ " args=" ++ i.args ++ " path=" ++ i.path

def toJson (i : Invocation) : Json.Value := .object
  [("command", i.command), ("container_id", i.containerId), ("netns", i.netns),
    ("ifname", i.ifname), ("args", i.args), ("path", i.path),
    ("stdindata", String.ofList (Base64.encode i.stdin))]

/-- Base64 text, or null for no bytes. -/
def bytesDecoder : Json.Decoder Bytes :=
  Json.Decoder.filterMap (fun o => match o with
    | some s => Base64.decode? s.toList
    | none => some []) (.option .string)

def decoder : Json.Decoder Invocation := .record {}
  [.defaulted "command" .string fun s i => { i with command := s },
    .defaulted "container_id" .string fun s i => { i with containerId := s },
    .defaulted "netns" .string fun s i => { i with netns := s },
    .defaulted "ifname" .string fun s i => { i with ifname := s },
    .defaulted "args" .string fun s i => { i with args := s },
    .defaulted "path" .string fun s i => { i with path := s },
    .defaulted "stdindata" bytesDecoder fun b i => { i with stdin := b }]

end Invocation

end ContainerPorts
