import ContainerPorts.Cloud.Call
import ContainerPorts.Files
/-!
# What the daemon asks for

The daemon talks to the cloud, keeps files, waits, and looks at its host and at
its clock. All of it goes through the requests of this module, one at a time.
-/
namespace ContainerPorts

/-- What is seen of the host at one moment. -/
structure Sight where
  now : Instant
  /-- Whether there is an entry at a path below the mounted process table. -/
  hasEntry : String → Bool

inductive Effect where
  | cloud (c : Cloud.Call)
  | file (c : FileCall)
  /-- Let time pass. -/
  | pause (d : Span)
  | observe
  /-- The time on a clock that only goes forward. -/
  | clock

abbrev Effect.Answer : Effect → Type
  | .cloud c => c.Answer
  | .file c => c.Answer
  | .pause _ => Unit
  | .observe => Sight
  | .clock => Span

abbrev effects : Signature := ⟨Effect, Effect.Answer⟩

namespace Effect

def request (e : Effect) : Program effects e.Answer := Program.perform (S := effects) e

/-- Run a program that only talks to the cloud. -/
def onCloud {α : Type} (p : Program Cloud.calls α) : Program effects α :=
  p.expand fun c => request (.cloud c)

/-- Run a program that only works on files. -/
def onFiles {α : Type} (p : Program fileCalls α) : Program effects α :=
  p.expand fun c => request (.file c)

end Effect

end ContainerPorts
