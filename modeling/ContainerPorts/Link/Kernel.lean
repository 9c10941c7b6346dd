import ContainerPorts.Json.Value
import ContainerPorts.Net.Network
import ContainerPorts.Program
import ContainerPorts.Text.Numeral
import ContainerPorts.Text.Utf8
import ContainerPorts.Time.Span
/-!
# Network links and what the kernel does with them

A call to the kernel takes some time and may fail. Link calls act on the network
namespace that the caller is in; entering a namespace changes that until it is
left again. Sleeping takes exactly as long as was asked for.
-/
namespace ContainerPorts

/-- A link as it is seen from the current namespace. -/
structure Link where
  index : Nat
  name : String
  mac : String
  deriving DecidableEq, Repr, Inhabited

def Link.toJson (l : Link) : Json.Value :=
  .object [("index", .nat l.index), ("name", l.name), ("mac", l.mac)]

/-- A hardware address as two digits for each byte with colons between them. -/
def macText (b : Bytes) : String :=
  ":".intercalate (b.map fun x => String.ofList (Text.lowerHex 2 x.toNat))

inductive LinkError where
  | connection (reason : String)
  | request (operation : String) (index : Nat) (reason : String)
  | listing (reason : String)
  | notFound (index : Nat)
  | netns (path reason : String)
  deriving DecidableEq, Repr

def LinkError.message : LinkError → String
  | .connection reason => "failed to open netlink socket: " ++ reason
  | .request operation index reason => operation ++ " on link " ++ toString index ++ ": " ++ reason
  | .listing reason => "failed to list links: " ++ reason
  | .notFound index => "link " ++ toString index ++ " not found"
  | .netns path reason => "network namespace " ++ path ++ ": " ++ reason

/-- A namespace that has been opened. -/
structure Netns where
  path : String
  deriving DecidableEq, Repr, Inhabited

inductive LinkCall where
  | byIndex (index : Nat)
  /-- Find the link with a hardware address; there may be none. -/
  | byMac (mac : String)
  | openNetns (path : String)
  | enterNetns (netns : Netns)
  | move (link : Link) (netns : Netns)
  | setDown (link : Link)
  | rename (link : Link) (name : String)
  /-- Give the link an address, in place of the same one that it may have. -/
  | setAddress (link : Link) (address : Network)
  | setUp (link : Link)
  deriving DecidableEq, Repr

namespace LinkCall

/-- What a call gives when it succeeds. -/
abbrev Result : LinkCall → Type
  | .byIndex _ => Link
  | .byMac _ => Option Link
  | .openNetns _ => Netns
  | _ => Unit

/-- The name of a call. -/
def name : LinkCall → String
  | .byIndex _ => "link_by_index"
  | .byMac _ => "link_by_mac"
  | .openNetns _ => "open_netns"
  | .enterNetns _ => "enter_netns"
  | .move .. => "link_set_ns_fd"
  | .setDown _ => "link_set_down"
  | .rename .. => "link_set_name"
  | .setAddress .. => "addr_replace"
  | .setUp _ => "link_set_up"

/-- The arguments of a call that tell it from others of its name. -/
def arguments : LinkCall → List String
  | .byIndex i => [toString i]
  | .byMac mac => [mac]
  | .openNetns path => [path]
  | .enterNetns _ => []
  | .move l _ => [toString l.index]
  | .setDown l => [toString l.index]
  | .rename l name => [toString l.index, name]
  | .setAddress l address => [toString l.index, address.text]
  | .setUp l => [toString l.index]

/-- What a call gave, as JSON. -/
def resultJson : (c : LinkCall) → c.Result → Json.Value
  | .byIndex _, l => Link.toJson l
  | .byMac _, l => (Option.map Link.toJson l).getD .null
  | _, _ => .null

/-- Whether the call only opens or enters a namespace. -/
def isNetnsCall : LinkCall → Bool
  | .openNetns _ => true
  | .enterNetns _ => true
  | _ => false

end LinkCall

/-- A value and how long it took to get it. -/
structure Timed (α : Type) where
  value : α
  took : Span

inductive KernelRequest where
  | link (c : LinkCall)
  /-- Go back to the namespace that was left by entering another. -/
  | leaveNetns
  | sleep (d : Span)

abbrev KernelRequest.Answer : KernelRequest → Type
  | .link c => Timed (Except LinkError c.Result)
  | .leaveNetns => Unit
  | .sleep _ => Unit

abbrev kernel : Signature := ⟨KernelRequest, KernelRequest.Answer⟩

namespace Kernel

def request (r : KernelRequest) : Program kernel r.Answer := Program.perform (S := kernel) r

def link (c : LinkCall) : Program kernel (Except LinkError c.Result) := do
  let t ← request (.link c)
  return t.value

end Kernel

end ContainerPorts
