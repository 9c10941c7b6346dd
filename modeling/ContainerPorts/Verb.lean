/-!
# Verbs of the container network interface
-/
namespace ContainerPorts

inductive Verb where
  | add
  | del
  | check
  | version
  deriving DecidableEq, Repr, Inhabited

namespace Verb

def name : Verb → String
  | .add => "ADD"
  | .del => "DEL"
  | .check => "CHECK"
  | .version => "VERSION"

def ofName? (s : String) : Option Verb :=
  if s = "ADD" then some .add
  else if s = "DEL" then some .del
  else if s = "CHECK" then some .check
  else if s = "VERSION" then some .version
  else none

@[simp] theorem ofName?_name (v : Verb) : ofName? v.name = some v := by cases v <;> rfl

/-- Whether the container's network namespace must be given. -/
def needsNetns : Verb → Bool
  | .add => true
  | .check => true
  | _ => false

end Verb

end ContainerPorts
