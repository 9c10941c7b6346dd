import ContainerPorts.Context
import ContainerPorts.Link.Binder
import ContainerPorts.Link.Retry
import ContainerPorts.Plugin.DaemonClient
/-!
# What the plugin does for a verb

ADD has the daemon set up a port, hands the port's link to the container and
then has the interface remembered; a record that cannot be stored does not fail
it. DEL has the port torn down and the record removed. CHECK only asks.
-/
namespace ContainerPorts

/-- What the plugin asks of its surroundings. -/
inductive PluginRequest where
  | http (r : Http.Request)
  | kernel (r : KernelRequest)

abbrev PluginRequest.Answer : PluginRequest → Type
  | .http _ => Except String Http.Response
  | .kernel r => r.Answer

abbrev pluginCalls : Signature := ⟨PluginRequest, PluginRequest.Answer⟩

inductive PluginError where
  | client (e : ClientError)
  | bind (e : BindError)
  | invalidConfig (fault : Json.Fault)
  /-- The daemon's reply lacks something. -/
  | incompleteResult (what : String)
  deriving DecidableEq, Repr

namespace PluginError

def message : PluginError → String
  | .client e => e.message
  | .bind e => "failed to configure interface: " ++ e.message
  | .invalidConfig fault => "invalid network configuration: " ++ fault.message
  | .incompleteResult what => "daemon result has no " ++ what

/-- What the runtime is told. A failure that the daemon reported is passed on as it is. -/
def document (verb : String) : PluginError → ErrorReply
  | .client (.daemon e) => e
  | e => .internal ("error during " ++ verb) e.message

end PluginError

namespace Plugin

/-- Run a program that only sends requests. -/
def onHttp {α : Type} (p : Program Http.exchanges α) : Program pluginCalls α :=
  p.expand fun r => Program.perform (S := pluginCalls) (.http r)

/-- Run a program that only talks to the kernel. -/
def onKernel {α : Type} (p : Program kernel α) : Program pluginCalls α :=
  p.expand fun r => Program.perform (S := pluginCalls) (.kernel r)

/-- What is remembered of an interface with an address. -/
def recordOf (i : Invocation) (address : Network) : InterfaceRecord :=
  let arguments := readArguments i.args
  { containerId := i.containerId, ifname := i.ifname, netns := i.netns
    ipAddress := address.text
    podName := (arguments.find? podNameArgument).getD ""
    podNamespace := (arguments.find? podNamespaceArgument).getD "" }

/-- What the plugin works with. -/
structure Tools where
  client : DaemonClient
  udev : UdevWait
  retry : Option RetryPolicy
  deriving DecidableEq, Repr

/-- The interface and the address that a reply begins with. -/
def target (r : AddReply) : Except PluginError (Interface × Network) :=
  match r.interfaces, r.ips with
  | [], _ => .error (.incompleteResult "interface")
  | _ :: _, [] => .error (.incompleteResult "ip")
  | interface :: _, ip :: _ => .ok (interface, ip.address)

def add (t : Tools) (i : Invocation) : Program pluginCalls (Except PluginError AddReply) := do
  match requestedVersion i.stdin with
  | .error f => return .error (.invalidConfig f)
  | .ok version =>
    match ← onHttp (t.client.add i) with
    | .error e => return .error (.client e)
    | .ok reply =>
      match target reply with
      | .error e => return .error e
      | .ok (interface, address) =>
        let bound ← onKernel (persisting t.retry
          (Binder.bind t.udev i.netns interface.mac interface.name address))
        match bound with
        | .error e => return .error (.bind e)
        | .ok _ =>
          let _ ← onHttp (t.client.putRecord (recordOf i address))
          return .ok (reply.restamped version)

def del (t : Tools) (i : Invocation) : Program pluginCalls (Except PluginError Unit) := do
  match ← onHttp (t.client.invoke i) with
  | .error e => return .error (.client e)
  | .ok _ =>
    let _ ← onHttp (t.client.deleteRecord i.containerId i.ifname)
    return .ok ()

def check (t : Tools) (i : Invocation) : Program pluginCalls (Except PluginError Unit) := do
  match ← onHttp (t.client.invoke i) with
  | .error e => return .error (.client e)
  | .ok _ => return .ok ()

end Plugin

end ContainerPorts
