import ContainerPorts.Files
import ContainerPorts.InterfaceRecord
import ContainerPorts.Text.Quoted
/-!
# The store of interface records

One file for each record, named after the container and the interface. A record
is written to a temporary file first and then renamed, so that a record that is
there is never half written.
-/
namespace ContainerPorts

inductive StoreError where
  | notFound (containerId ifname : String)
  | invalidKey (part : String)
  | file (path : String) (fault : FileFault)
  | json (path : String) (fault : Json.Fault)
  deriving DecidableEq, Repr

def StoreError.message : StoreError → String
  | .notFound containerId ifname => "no state for " ++ containerId ++ "/" ++ ifname
  | .invalidKey part => "invalid state key " ++ Text.quoted part
  | .file path fault => "state file " ++ path ++ ": " ++ fault.message
  | .json path fault => "state file " ++ path ++ " holds invalid JSON: " ++ fault.message

namespace RecordStore

/-- Whether a text may be part of a file name. -/
def isKey (part : String) : Bool :=
  part ≠ "" && part ≠ "." && part ≠ ".." && '/' ∉ part.toList

def checkKey (part : String) : Except StoreError Unit :=
  if isKey part then .ok () else .error (.invalidKey part)

def fileName (containerId ifname : String) : String := containerId ++ "-" ++ ifname ++ ".json"

/-- The name of the file of a record, if both parts may be part of it. -/
def fileName? (containerId ifname : String) : Except StoreError String := do
  checkKey containerId
  checkKey ifname
  return fileName containerId ifname

def temporary (name : String) : String := name ++ ".tmp"

def path (dir name : String) : String := dir ++ "/" ++ name

/-- A file that is missing means that there is no record. -/
def fileError (dir containerId ifname name : String) : FileFault → StoreError
  | .missing => .notFound containerId ifname
  | .refused => .file (path dir name) .refused

def get (dir containerId ifname : String) : Program fileCalls (Except StoreError InterfaceRecord) :=
  ExceptT.run do
    let name ← ExceptT.mk (pure (fileName? containerId ifname))
    match ← (fileCall (.read name) : Program fileCalls _) with
    | .error e => throw (fileError dir containerId ifname name e)
    | .ok b =>
      match InterfaceRecord.decoder.ofBytes b with
      | .error f => throw (.json (path dir name) f)
      | .ok r => return r

def put (dir : String) (r : InterfaceRecord) : Program fileCalls (Except StoreError Unit) :=
  ExceptT.run do
    let name ← ExceptT.mk (pure (fileName? r.containerId r.ifname))
    step dir .prepare
    step (path dir (temporary name)) (.write (temporary name) (Utf8.encode r.toJson.lines))
    step (path dir name) (.rename (temporary name) name)
where
  step (path : String) (c : FileCall) : ExceptT StoreError (Program fileCalls) Unit := do
    match ← (fileCall c : Program fileCalls _) with
    | .error e => throw (.file path e)
    | .ok _ => return ()

def delete (dir containerId ifname : String) : Program fileCalls (Except StoreError Unit) :=
  ExceptT.run do
    let name ← ExceptT.mk (pure (fileName? containerId ifname))
    match ← (fileCall (.remove name) : Program fileCalls _) with
    | .error e => throw (fileError dir containerId ifname name e)
    | .ok _ => return ()

end RecordStore

end ContainerPorts
