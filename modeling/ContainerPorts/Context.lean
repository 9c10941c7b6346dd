import ContainerPorts.Invocation
import ContainerPorts.NetworkConf
import ContainerPorts.Text.Split
/-!
# The context of an invocation

An invocation together with its decoded configuration, the arguments of the
runtime, and the name of the host it runs on. The arguments are pairs `K=V`
separated by semicolons; one pair that is not of this form voids them all.
-/
namespace ContainerPorts

/-- A key and a value with exactly one equals sign between them. -/
def readArgument? (pair : List Char) : Option (String × String) := do
  let (k, v) ← Text.cutOnce '=' pair
  guard ('=' ∉ v)
  return (String.ofList k, String.ofList v)

def readArguments? (args : String) : Option (List (String × String)) :=
  (Text.splitAll ';' args.toList).mapM readArgument?

/-- The table of the arguments; of two equal keys the later wins. -/
def readArguments (args : String) : Table String :=
  match readArguments? args with
  | some pairs => Table.ofList pairs
  | none => []

/-- The argument that names the pod. -/
def podNameArgument : String := "K8S_POD_NAME"

/-- The argument that names the pod's namespace. -/
def podNamespaceArgument : String := "K8S_POD_NAMESPACE"

structure Context where
  invocation : Invocation
  arguments : Table String
  conf : NetworkConf
  hostname : String
  deriving Inhabited

namespace Context

def make (i : Invocation) (hostname : String) (defaults : PortDefaults) :
    Except Json.Fault Context := do
  return ⟨i, readArguments i.args, ← NetworkConf.read defaults i.stdin, hostname⟩

def podName? (c : Context) : Option String := c.arguments.find? podNameArgument

def podNamespace? (c : Context) : Option String := c.arguments.find? podNamespaceArgument

end Context

/-- The name given for the host, unless it is empty; then the name the system knows it by. -/
def hostnameOr (system : String) (given : Option String) : String :=
  match given with
  | some name => if name = "" then system else name
  | none => system

end ContainerPorts
