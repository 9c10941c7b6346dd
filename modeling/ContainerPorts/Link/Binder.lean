import ContainerPorts.Link.Kernel
import ContainerPorts.Text.Split
/-!
# Handing a link to a container

The link of a port shows up on the host some time after the port was plugged in,
and gets its final name later still. It is waited for by its hardware address,
moved into the container's namespace, renamed, given its address and set up. The
node's own interface is never touched.
-/
namespace ContainerPorts

/-- The node's own interface. -/
def reservedInterface : String := "eth0"

inductive BindStep where
  | lookUp
  | openNetns
  | move
  | enter
  | setDown
  | rename
  | setAddress
  | setUp
  deriving DecidableEq, Repr

def BindStep.name : BindStep → String
  | .lookUp => "look up link"
  | .openNetns => "open namespace"
  | .move => "move link into namespace"
  | .enter => "enter namespace"
  | .setDown => "set link down"
  | .rename => "rename link"
  | .setAddress => "replace address"
  | .setUp => "set link up"

/-- What a link is to become. -/
structure BindTarget where
  /-- The link's index on the host. -/
  index : Nat
  /-- The link's name in the container. -/
  destName : String
  address : Network
  deriving DecidableEq, Repr

inductive BindError where
  | configure (step : BindStep) (netns : String) (target : BindTarget) (cause : LinkError)
  | reserved (mac : String)
  | notFound (mac : String)
  | lookup (mac : String) (cause : LinkError)
  | timeout (mac : String) (elapsed : Span)
  deriving DecidableEq, Repr

def BindError.message : BindError → String
  | .configure step netns target cause =>
    "failed to " ++ step.name ++ " ns=" ++ netns ++ " iface_index=" ++ toString target.index ++
      " dest_iface=" ++ target.destName ++ " addr=" ++ target.address.text ++ ": " ++ cause.message
  | .reserved mac => "refusing to configure eth0 for mac " ++ mac
  | .notFound mac => "no interface found for mac " ++ mac
  | .lookup mac cause => "failed to look up interface for mac " ++ mac ++ ": " ++ cause.message
  | .timeout mac elapsed =>
    "timed out after " ++ elapsed.text ++ " waiting for interface with mac " ++ mac

/-! ### Waiting -/

structure UdevWait where
  /-- Without waiting the first lookup decides. -/
  enabled : Bool := true
  /-- A name that begins like this is not final. -/
  unsettled : String := "eth"
  delay : Span := .ofMillis 100
  timeout : Span := .ofMillis 5000
  deriving DecidableEq, Repr, Inhabited

namespace UdevWait

def toJson (w : UdevWait) : Json.Value := .object
  [("enabled", w.enabled), ("prefix", w.unsettled), ("delay_ms", w.delay.millis),
    ("timeout_ms", w.timeout.millis)]

def isUnsettled (w : UdevWait) (name : String) : Bool :=
  w.unsettled ≠ "" && Text.begins w.unsettled name

/-- What a lookup decides, if it decides anything. -/
def verdict? (w : UdevWait) (mac : String) :
    Except LinkError (Option Link) → Option (Except BindError Link)
  | .ok (some l) =>
    if l.name = reservedInterface then some (.error (.reserved mac))
    else if !w.enabled || !w.isUnsettled l.name then some (.ok l)
    else none
  | .ok none => if w.enabled then none else some (.error (.notFound mac))
  | .error e => if w.enabled then none else some (.error (.lookup mac e))

/-- How often a lookup is repeated when no time passes at all. A run with a zero delay is cut off
here, where it would otherwise go on until the time that its lookups take adds up to the timeout. -/
def idleLookups : Nat := 100000

/-- A number of lookups after the first that is enough to reach the timeout. Without delays it is
enough if all of them but `idleLookups` take some time. -/
def lookups (w : UdevWait) : Nat :=
  if w.delay.nanos = 0 then w.timeout.nanos + idleLookups
  else (w.timeout.nanos + (w.delay.nanos - 1)) / w.delay.nanos

/-- Look the link up, and again up to `more` times. -/
def look (w : UdevWait) (mac : String) (more : Nat) (elapsed : Span) :
    Program kernel (Except BindError Link) :=
  .ask (.link (.byMac mac)) fun t =>
    match w.verdict? mac t.value with
    | some r => .done r
    | none =>
      let elapsed := elapsed + t.took
      if w.timeout ≤ elapsed then .done (.error (.timeout mac elapsed))
      else match more with
        | 0 => .done (.error (.timeout mac elapsed))
        | more + 1 => .ask (.sleep w.delay) fun _ => look w mac more (elapsed + w.delay)

/-- Wait until there is a link with the hardware address and a final name. -/
def await (w : UdevWait) (mac : String) : Program kernel (Except BindError Link) :=
  w.look mac w.lookups ⟨0⟩

end UdevWait

/-! ### Configuring -/

namespace Binder

/-- Make a call as one step. -/
def attempt (netns : String) (target : BindTarget) (step : BindStep) (c : LinkCall) :
    ExceptT BindError (Program kernel) c.Result := do
  match ← (Kernel.link c : Program kernel _) with
  | .ok x => return x
  | .error e => throw (.configure step netns target e)

/-- The steps inside the container's namespace. -/
def inside (netns : String) (target : BindTarget) (link : Link) :
    ExceptT BindError (Program kernel) Unit := do
  attempt netns target .setDown (.setDown link)
  attempt netns target .rename (.rename link target.destName)
  attempt netns target .setAddress (.setAddress link target.address)
  attempt netns target .setUp (.setUp link)

/-- The steps up to entering the container's namespace. -/
def outside (netns : String) (target : BindTarget) : ExceptT BindError (Program kernel) Link := do
  let link ← attempt netns target .lookUp (.byIndex target.index)
  let opened ← attempt netns target .openNetns (.openNetns netns)
  attempt netns target .move (.move link opened)
  attempt netns target .enter (.enterNetns opened)
  return link

/-- Move, rename, address and raise a link. There is no way back, except that the namespace is
left again in every case in which it was entered. -/
def configure (netns : String) (target : BindTarget) : Program kernel (Except BindError Unit) := do
  match ← (outside netns target).run with
  | .error e => return .error e
  | .ok link =>
    let result ← (inside netns target link).run
    Kernel.request .leaveNetns
    return result

/-- Wait for the link with a hardware address and configure it. -/
def bind (w : UdevWait) (netns mac destName : String) (address : Network) :
    Program kernel (Except BindError Link) := do
  match ← w.await mac with
  | .error e => return .error e
  | .ok link =>
    match ← configure netns ⟨link.index, destName, address⟩ with
    | .error e => return .error e
    | .ok () => return .ok link

end Binder

end ContainerPorts
