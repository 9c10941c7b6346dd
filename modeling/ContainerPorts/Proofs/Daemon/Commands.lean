import ContainerPorts.Proofs.Daemon.Footprint

/-!
# Commands

A command is a verb with its invocation, at a host. Its program cannot tell the
dates of ports apart: given alike answers, it asks the same and replies the same,
but for the date of a port in the report of a failure.
-/
namespace ContainerPorts

open Cloud

/-- Answers to a request that are the same to a command. -/
def Effect.Alike : (e : Effect) → e.Answer → e.Answer → Prop
  | .cloud c => c.Alike
  | .file _ => Eq
  | .pause _ => Eq
  | .observe => Eq
  | .clock => Eq

/-- A failure without the date of the port. -/
def HandlerError.undated : HandlerError → HandlerError
  | .setup e => .setup e.undated
  | e => e

/-- What a failure says does not depend on the date. -/
@[simp] theorem HandlerError.message_undated (e : HandlerError) : e.undated.message = e.message := by
  cases e <;> rfl

/-- A reply without the date of a port. -/
def undatedReply {α : Type} (a : Except HandlerError α) : Except HandlerError α :=
  a.mapError HandlerError.undated

/-- A reply describes a port without its date. -/
theorem PortReply.describe_undated (r : Resolved) (i : Invocation) :
    describe r.undated i = describe r i := by
  obtain ⟨server, network, subnet, port, attachment⟩ := r
  cases port <;> cases attachment <;> cases network <;> cases subnet <;> rfl

namespace HostSettings

variable (h : HostSettings) (i : Invocation)

theorem onCloud_alike {α : Type} {R : α → α → Prop} {p p' : Program calls α}
    (hp : p.Alike Call.Alike R p') :
    (Effect.onCloud p).Alike Effect.Alike R (Effect.onCloud p') :=
  hp.expand fun _ => .ask fun _ _ hxy => .done hxy

theorem add_alike :
    (h.add i).Alike Effect.Alike (fun a b => undatedReply a = undatedReply b) (h.add i) := by
  unfold add
  cases h.context i with
  | error e => exact .done rfl
  | ok c =>
    refine (onCloud_alike (setupPort_alike _)).bind ?_
    rintro (e | r) (e' | r') hr
    · exact .done (congrArg (fun e => Except.error (HandlerError.setup e)) hr)
    · exact hr.elim
    · exact hr.elim
    · have hdescribe : PortReply.describe r i = PortReply.describe r' i := by
        rw [← PortReply.describe_undated r, ← PortReply.describe_undated r']
        exact congrArg (PortReply.describe · i) hr
      dsimp only
      rw [hdescribe]
      cases PortReply.describe r' i <;> exact .done rfl

theorem del_alike (hi : i.netns ≠ "") :
    (h.del i).Alike Effect.Alike (fun a b => undatedReply a = undatedReply b) (h.del i) := by
  rw [h.del_of_netns i hi]
  unfold teardownKnown
  cases h.context i with
  | error e => exact .done rfl
  | ok c =>
    dsimp only
    rw [bind_assoc]
    refine (onCloud_alike (teardownPort_alike _)).bind fun a b hab => ?_
    obtain rfl : a = b := hab
    cases a <;> exact .done rfl

end HostSettings

/-- A verb with its invocation, at a host. -/
structure Command where
  host : HostSettings
  verb : Verb
  invocation : Invocation

namespace Command

/-- What a command replies. -/
abbrev Reply (c : Command) : Type := Except HandlerError c.verb.Reply

def program (c : Command) : Program effects c.Reply := c.host.handle c.verb c.invocation

/-- The tags that identify the port of a command. -/
def tags (c : Command) : PortTags := .ofInvocation c.invocation c.host.hostname

variable {c : Command} {s : Site}

theorem program_alike (hc : c.invocation.netns ≠ "") :
    c.program.Alike Effect.Alike (fun a b => undatedReply a = undatedReply b) c.program := by
  obtain ⟨host, verb, i⟩ := c
  cases verb with
  | add => exact host.add_alike i
  | del => exact host.del_alike i hc
  | check => exact .done rfl
  | version => exact .done rfl

theorem program_along (hc : c.invocation.netns ≠ "") (hs : s.cache = none) :
    c.program.Along Site.answer (Alone s.stock c.tags.toList) (Footprint s.stock c.tags.toList)
      s := by
  obtain ⟨host, verb, i⟩ := c
  have start : Alone s.stock (PortTags.ofInvocation i host.hostname).toList s :=
    ⟨hs, fun p hp => .inl ⟨p, hp, rfl⟩⟩
  cases verb with
  | add => exact host.add_along i hs
  | del => exact host.del_along i hc hs
  | check => exact .done start
  | version => exact .done start

theorem creates_program (hc : c.invocation.netns ≠ "") (s : Site) :
    (c.program.requests Site.answer s).countP Effect.creates ≤ 1 := by
  obtain ⟨host, verb, i⟩ := c
  cases verb with
  | add => exact host.creates_add i s
  | del => exact host.creates_del i s hc
  | check => exact Nat.zero_le 1
  | version => exact Nat.zero_le 1

end Command

end ContainerPorts
