import ContainerPorts.Daemon.Effects
import ContainerPorts.Daemon.PortReply
import ContainerPorts.PortTags
import ContainerPorts.RecordStore
/-!
# Handling the verbs

ADD sets up a port and describes it. DEL tears the port down; it never fails,
so that the runtime can always clean up, and when it comes without a network
namespace it takes the one that was stored for the interface. CHECK does nothing.
-/
namespace ContainerPorts

inductive HandlerError where
  | invalidConfig (fault : Json.Fault)
  | reply (error : ReplyError)
  | setup (error : Cloud.SetupError)
  | teardown (error : Cloud.PortError)
  deriving DecidableEq, Repr

def HandlerError.message : HandlerError → String
  | .invalidConfig fault => "invalid network configuration: " ++ fault.message
  | .reply error => error.message
  | .setup error => "failed to set up port: " ++ error.cause.message
  | .teardown error => "failed to tear down port: " ++ error.message

/-- What a verb is answered with when it succeeds. -/
abbrev Verb.Reply : Verb → Type
  | .add => AddReply
  | _ => Unit

/-- What the verbs are handled with. -/
structure HostSettings where
  /-- The name of this host, which is the name of its server in the cloud. -/
  hostname : String := ""
  defaults : PortDefaults := {}
  /-- The directory of the interface records, if a DEL may use them. -/
  records : Option String := none
  deriving DecidableEq, Repr, Inhabited

namespace HostSettings

open Effect

def context (h : HostSettings) (i : Invocation) : Except HandlerError Context :=
  match Context.make i h.hostname h.defaults with
  | .ok c => .ok c
  | .error f => .error (.invalidConfig f)

def tags (h : HostSettings) (i : Invocation) : List String :=
  (PortTags.ofInvocation i h.hostname).toList

def add (h : HostSettings) (i : Invocation) : Program effects (Except HandlerError AddReply) := do
  match h.context i with
  | .error e => return .error e
  | .ok c =>
    match ← onCloud (Cloud.setupPort (.ofContext c (h.tags i))) with
    | .error e => return .error (.setup e)
    | .ok r =>
      match PortReply.describe r i with
      | .error e => return .error (.reply e)
      | .ok reply => return .ok reply

/-- The invocation with the namespace of its stored record, if it has none of its own. -/
def recoverNetns (h : HostSettings) (i : Invocation) : Program effects Invocation := do
  match h.records with
  | none => return i
  | some dir =>
    if i.netns ≠ "" then return i
    match ← onFiles (RecordStore.get dir i.containerId i.ifname) with
    | .ok r => return { i with netns := r.netns }
    | .error _ => return i

/-- Tear the port down, once the namespace is known. -/
def teardownKnown (h : HostSettings) (i : Invocation) :
    Program effects (Except HandlerError Unit) := do
  match h.context i with
  | .error e => return .error e
  | .ok c =>
    match ← onCloud (Cloud.teardownPort (.ofContext c (h.tags i))) with
    | .error e => return .error (.teardown e)
    | .ok () => return .ok ()

def teardown (h : HostSettings) (i : Invocation) : Program effects (Except HandlerError Unit) := do
  h.teardownKnown (← h.recoverNetns i)

/-- Tear the port down; a failure is not reported. -/
def del (h : HostSettings) (i : Invocation) : Program effects (Except HandlerError Unit) := do
  let _ ← h.teardown i
  return .ok ()

def check (_ : HostSettings) (_ : Invocation) : Program effects (Except HandlerError Unit) :=
  return .ok ()

def handle (h : HostSettings) :
    (v : Verb) → Invocation → Program effects (Except HandlerError v.Reply)
  | .add, i => h.add i
  | .del, i => h.del i
  | .check, i => h.check i
  | .version, i => h.check i

end HostSettings

/-- Whatever handles the verbs. -/
abbrev Handler := (v : Verb) → Invocation → Program effects (Except HandlerError v.Reply)

/-- A handler that only waits, and then has nothing to reply. -/
def Handler.stalled (d : Span) : Handler := fun _ _ => do
  Effect.request (.pause d)
  return .error (.reply .incomplete)

end ContainerPorts
