import ContainerPorts.Daemon.Handler
import ContainerPorts.Health
import ContainerPorts.Http.Message
import ContainerPorts.Metrics
import ContainerPorts.Text.Percent
/-!
# The interface of the daemon

The plugin posts invocations and interface records; operators ask for health and
metrics. Every posted invocation is counted once as a request and once by what
became of it: it is either turned away, or handled with success or failure.
-/
namespace ContainerPorts

/-- Why an invocation that was not turned away failed. -/
inductive CommandFailure where
  | handler (e : HandlerError)
  | deadline (limit : Span)
  deriving DecidableEq, Repr

def CommandFailure.message : CommandFailure → String
  | .handler e => e.message
  | .deadline limit => "timed out after " ++ limit.text

/-- What the interface needs from the rest of the daemon. -/
inductive Service where
  | command (verb : Verb) (i : Invocation)
  | health
  /-- The number of ports of this host; nothing if ports are not counted. -/
  | portCount
  | file (c : FileCall)

abbrev Service.Answer : Service → Type
  | .command v _ => Except CommandFailure v.Reply
  | .health => HealthReport
  | .portCount => Option Nat
  | .file c => c.Answer

abbrev services : Signature := ⟨Service, Service.Answer⟩

structure ApiRequest where
  method : String
  path : String
  body : Bytes := []
  deriving DecidableEq, Repr, Inhabited

/-- The resources that have paths. -/
inductive Resource where
  | command
  | health
  | ping
  | metrics
  | records
  /-- One record, with its names as they stand in the path. -/
  | record (containerId ifname : String)
  deriving DecidableEq, Repr

/-- The resource of a path. The last part of a path is never empty. -/
def Resource.ofSegments? : List String → Option Resource
  | ["", "cni"] => some .command
  | ["", "health"] => some .health
  | ["", "ping"] => some .ping
  | ["", "metrics"] => some .metrics
  | ["", "state"] => some .records
  | ["", "state", containerId, ifname] =>
    if ifname = "" then none else some (.record containerId ifname)
  | _ => none

/-- A path without its query and fragment. -/
def barePath (path : String) : String :=
  String.ofList (path.toList.takeWhile fun c => c ≠ '?' && c ≠ '#')

def Resource.ofPath? (path : String) : Option Resource := ofSegments? (Text.split '/' (barePath path))

/-- A program of the interface, which counts what it does. -/
abbrev Api (α : Type) := StateT Metrics (Program services) α

namespace Api

open Http (Response)

def ask (r : Service) : Api r.Answer := fun m => do
  return (← Program.perform (S := services) r, m)

def count (f : Metrics → Metrics) : Api Unit := modify f

/-- Run a program on the stored records. -/
def onRecords {α : Type} (p : Program fileCalls α) : Api α := fun m => do
  return (← p.expand fun c => Program.perform (S := services) (.file c), m)

/-! ### Invocations -/

/-- The verb to handle and its invocation, or why there is none. -/
def readCommand (body : Bytes) : Except String (Verb × Invocation) :=
  match Invocation.decoder.ofBytes body with
  | .error f => .error ("invalid request body: " ++ f.message)
  | .ok i =>
    match i.validate with
    | .error r => .error r.message
    | .ok .version => .error "VERSION is answered by the plugin itself"
    | .ok v => .ok (v, i)

/-- The answer to a verb that was handled. -/
def replyResponse : (v : Verb) → v.Reply → Response
  | .add, r => .ofJson 200 r.toJson
  | .del, _ => .empty 204
  | .check, _ => .empty 204
  | .version, _ => .empty 204

def failureReply (v : Verb) (i : Invocation) (e : CommandFailure) : ErrorReply :=
  .internal ("error during " ++ v.name) (e.message ++ "; " ++ i.summary)

def command (body : Bytes) : Api Response := do
  count Metrics.countRequest
  match readCommand body with
  | .error reason => do
    count Metrics.countInvalid
    return .ofText 400 reason
  | .ok (v, i) =>
    match ← ask (.command v i) with
    | .ok reply => do
      count (Metrics.countOutcome v true)
      return replyResponse v reply
    | .error e => do
      count (Metrics.countOutcome v false)
      return .ofJson 500 (failureReply v i e).toJson

/-! ### Health and metrics -/

def health : Api Response := do
  let report : HealthReport ← ask .health
  return .ofJson (if report.isHealthy then 200 else 500) report.toJson

def metrics : Api Response := do
  let total : Option Nat ← ask .portCount
  match total with
  | some n => modify fun m => { m with portTotal := n }
  | none => pure ()
  return .ofText 200 (← get).text

/-! ### Interface records -/

def storeErrorStatus : StoreError → Nat
  | .notFound .. => 404
  | .invalidKey _ => 400
  | .file .. => 500
  | .json .. => 500

def storeErrorResponse (e : StoreError) : Response := .ofText (storeErrorStatus e) e.message

/-- The names in a path, decoded; the first that is no text is reported. -/
def recordKey (containerId ifname : String) : Except Response (String × String) :=
  match Percent.decodeText? containerId, Percent.decodeText? ifname with
  | some c, some i => .ok (c, i)
  | none, _ => .error (unreadable "container_id")
  | _, none => .error (unreadable "ifname")
where
  unreadable (name : String) : Response :=
    .ofText 400 ("Invalid URL: Invalid UTF-8 in `" ++ name ++ "`")

def getRecord (dir containerId ifname : String) : Api Response := do
  match recordKey containerId ifname with
  | .error r => return r
  | .ok (c, i) =>
    match ← onRecords (RecordStore.get dir c i) with
    | .ok r => return .ofJson 200 r.toJson
    | .error e => return storeErrorResponse e

def deleteRecord (dir containerId ifname : String) : Api Response := do
  match recordKey containerId ifname with
  | .error r => return r
  | .ok (c, i) =>
    match ← onRecords (RecordStore.delete dir c i) with
    | .ok () => return .empty 204
    | .error e => return storeErrorResponse e

def putRecord (dir : String) (body : Bytes) : Api Response := do
  match InterfaceRecord.decoder.ofBytes body with
  | .error f => return .ofText 400 ("invalid state: " ++ f.message)
  | .ok r =>
    match ← onRecords (RecordStore.put dir r) with
    | .ok () => return .empty 204
    | .error e => return storeErrorResponse e

/-! ### Requests -/

/-- The answer to a method of a resource, if the resource has that method. -/
def answer? (dir : String) (body : Bytes) : Resource → String → Option (Api Response)
  | .command, "POST" => some (command body)
  | .health, "GET" => some health
  | .ping, "GET" => some (return .ofText 200 "PONG")
  | .metrics, "GET" => some metrics
  | .records, "POST" => some (putRecord dir body)
  | .record c i, "GET" => some (getRecord dir c i)
  | .record c i, "DELETE" => some (deleteRecord dir c i)
  | _, _ => none

/-- Answer a request. HEAD is answered like GET, without the content. -/
def respond (dir : String) (r : ApiRequest) : Api Response :=
  match Resource.ofPath? r.path with
  | none => return .empty 404
  | some resource =>
    let method := if r.method = "HEAD" then "GET" else r.method
    match answer? dir r.body resource method with
    | none => return .empty 405
    | some answer => do
      let response ← answer
      return if r.method = "HEAD" then response.withoutBody else response

end Api

end ContainerPorts
