import ContainerPorts.Http.Message
import ContainerPorts.InterfaceRecord
import ContainerPorts.Invocation
import ContainerPorts.Reply
import ContainerPorts.Url.Reader
/-!
# Talking to the daemon

The plugin posts invocations and interface records to the daemon and asks it to
remove records. The paths are relative to the URL that the plugin was given.
-/
namespace ContainerPorts

inductive ClientError where
  | invalidUrl (url : String) (cause : UrlError)
  | transport (url reason : String)
  /-- The daemon reports a failure of its own. -/
  | daemon (e : ErrorReply)
  | badStatus (status : Nat) (body : String)
  | decode (fault : Json.Fault)
  | emptyResult (status : Nat)
  deriving DecidableEq, Repr

def ClientError.message : ClientError → String
  | .invalidUrl url cause => "invalid daemon URL " ++ url ++ ": " ++ cause.message
  | .transport url reason => "request to " ++ url ++ " failed: " ++ reason
  | .daemon e => "daemon error: " ++ e.message
  | .badStatus status body => "daemon returned " ++ Http.statusText status ++ ": " ++ body
  | .decode fault => "failed to decode daemon response: " ++ fault.message
  | .emptyResult status => "daemon returned " ++ Http.statusText status ++ " without a result"

structure DaemonClient where
  base : Url
  deriving DecidableEq, Repr

namespace DaemonClient

open Http (Response exchanges)

def make (url : String) : Except ClientError DaemonClient :=
  match Url.read url with
  | .ok u => .ok ⟨u⟩
  | .error e => .error (.invalidUrl url e)

/-- The URL of a path of the daemon. -/
def url (c : DaemonClient) (path : String) : Except ClientError Url :=
  match c.base.join path with
  | .ok u => .ok u
  | .error e => .error (.invalidUrl (c.base.text ++ path) e)

/-- Send a request to a path. -/
def send (c : DaemonClient) (method path : String) (body : Option Json.Value) :
    Program exchanges (Except ClientError Response) := do
  match c.url path with
  | .error e => return .error e
  | .ok u =>
    match ← Http.send ⟨method, u, none, body⟩ with
    | .error reason => return .error (.transport u.text reason)
    | .ok r => return .ok r

def statusError (r : Response) : ClientError := .badStatus r.status r.text

/-- What the daemon answered to an invocation: a reply, or that it is done. -/
def readReply (r : Response) : Except ClientError (Option AddReply) :=
  match r.status with
  | 200 =>
    match AddReply.decoder.ofBytes r.body with
    | .ok reply => .ok (some reply)
    | .error f => .error (.decode f)
  | 204 => .ok none
  | 500 =>
    match ErrorReply.decoder.ofString r.text with
    | .ok e => .error (.daemon e)
    | .error _ => .error (statusError r)
  | _ => .error (statusError r)

/-- Hand an invocation to the daemon. -/
def invoke (c : DaemonClient) (i : Invocation) :
    Program exchanges (Except ClientError (Option AddReply)) := do
  match ← c.send "POST" "cni" (some i.toJson) with
  | .error e => return .error e
  | .ok r => return readReply r

/-- Hand an invocation to the daemon and insist on a reply. -/
def add (c : DaemonClient) (i : Invocation) :
    Program exchanges (Except ClientError AddReply) := do
  match ← c.invoke i with
  | .error e => return .error e
  | .ok (some reply) => return .ok reply
  | .ok none => return .error (.emptyResult 204)

def expectNoContent (r : Response) : Except ClientError Unit :=
  if r.status = 204 then .ok () else .error (statusError r)

def putRecord (c : DaemonClient) (record : InterfaceRecord) :
    Program exchanges (Except ClientError Unit) := do
  match ← c.send "POST" "state" (some record.toJson) with
  | .error e => return .error e
  | .ok r => return expectNoContent r

def recordPath (containerId ifname : String) : String := "state/" ++ containerId ++ "/" ++ ifname

/-- Remove a record; one that is missing is as good as removed. -/
def deleteRecord (c : DaemonClient) (containerId ifname : String) :
    Program exchanges (Except ClientError Unit) := do
  match ← c.send "DELETE" (recordPath containerId ifname) none with
  | .error e => return .error e
  | .ok r => return if r.status = 404 then .ok () else expectNoContent r

end DaemonClient

end ContainerPorts
