import ContainerPorts.Link.Kernel
/-!
# Trying again

A call to the kernel that fails is tried again after a delay that doubles from
one attempt to the next up to a bound. It is given up when the next attempt
would start too late. Opening and entering a namespace is never tried again.
-/
namespace ContainerPorts

structure RetryPolicy where
  /-- The first delay. -/
  interval : Span := .ofMillis 100
  /-- The bound on the delays after the first. -/
  maxBackoff : Span := .ofMillis 500
  /-- No attempt starts later than this after the beginning. -/
  maxWait : Span := .ofMillis 2000
  deriving DecidableEq, Repr, Inhabited

namespace RetryPolicy

def toJson (p : RetryPolicy) : Json.Value := .object
  [("interval_ms", p.interval.millis), ("max_backoff_ms", p.maxBackoff.millis),
    ("max_wait_ms", p.maxWait.millis)]

/-- The delay that follows another one. -/
def next (p : RetryPolicy) (delay : Span) : Span := min ⟨2 * delay.nanos⟩ p.maxBackoff

/-- The least delay that can occur. -/
def leastDelay (p : RetryPolicy) : Span := min p.interval p.maxBackoff

/-- How often a call is tried again when no time passes at all. A run with zero delays is cut off
here, where it would otherwise go on until the time that its attempts take adds up to the wait. -/
def idleRetries : Nat := 100000

/-- A number of attempts after the first that is enough for the longest wait. Without delays it is
enough if all of them but `idleRetries` take some time. -/
def retries (p : RetryPolicy) : Nat :=
  if p.leastDelay.nanos = 0 then p.maxWait.nanos + idleRetries
  else p.maxWait.nanos / p.leastDelay.nanos

/-- Try a call, and again up to `more` times, the first time after `delay`. The sums of the times
are taken to be representable; durations with an end panic past it. -/
def attempt (p : RetryPolicy) (c : LinkCall) (more : Nat) (elapsed delay : Span) :
    Program kernel (Timed (Except LinkError c.Result)) :=
  .ask (.link c) fun t =>
    let elapsed := elapsed + t.took
    match t.value with
    | .ok x => .done ⟨.ok x, elapsed⟩
    | .error e =>
      if p.maxWait < elapsed + delay then .done ⟨.error e, elapsed⟩
      else match more with
        | 0 => .done ⟨.error e, elapsed⟩
        | more + 1 => .ask (.sleep delay) fun _ =>
          attempt p c more (elapsed + delay) (p.next delay)

/-- A call, tried until it succeeds or the wait is over. -/
def retry (p : RetryPolicy) (c : LinkCall) : Program kernel (Timed (Except LinkError c.Result)) :=
  p.attempt c p.retries ⟨0⟩ p.interval

def answer (p : RetryPolicy) : (r : KernelRequest) → Program kernel r.Answer
  | .link c => if c.isNetnsCall then Kernel.request (.link c) else p.retry c
  | .leaveNetns => Kernel.request .leaveNetns
  | .sleep d => Kernel.request (.sleep d)

/-- Run a program with every call tried again when it fails. -/
def persist {α : Type} (p : RetryPolicy) (program : Program kernel α) : Program kernel α :=
  program.expand p.answer

end RetryPolicy

/-- Run a program by a policy, or as it is without one. -/
def persisting {α : Type} (policy : Option RetryPolicy) (program : Program kernel α) :
    Program kernel α :=
  match policy with
  | some p => p.persist program
  | none => program

end ContainerPorts
