import ContainerPorts.Daemon.Effects
/-!
# Deadlines

A program under a deadline is run as it is, and the clock is read when it begins
and after every answer. An answer that comes after the deadline comes too late:
the program is stopped and never learns it. A pause is cut short at the deadline.
What was asked for until then is not taken back.
-/
namespace ContainerPorts

namespace Effect

/-- The time that passes at the least until a request is answered. -/
def least : Effect → Span
  | .pause d => d
  | _ => ⟨0⟩

variable {α : Type}

/-- Run a program from some time on until the deadline; `none` if it is stopped. -/
def before (deadline : Span) : Program effects α → Span → Program effects (Option α)
  | .done a, _ => .done (some a)
  | .ask e next, now =>
    if now + e.least ≤ deadline then
      .ask e fun x => .ask .clock fun now =>
        if now ≤ deadline then before deadline (next x) now else .done none
    else .ask (.pause ⟨deadline.nanos - now.nanos⟩) fun _ => .done none

/-- Run a program for no longer than `limit`; `none` if it is stopped. -/
def within (limit : Span) (p : Program effects α) : Program effects (Option α) := do
  let start : Span ← request .clock
  before (start + limit) p start

end Effect

end ContainerPorts
