import ContainerPorts.Proofs.Link.Handover
import ContainerPorts.Proofs.Link.Waiting

/-!
# Waiting for a link and handing it over

A link is waited for first, and then the link that was found is handed over by its index. Where
calls are tried again, the lookups of the wait are as well.
-/
namespace ContainerPorts.Binder

variable {policy : Option RetryPolicy} {w : UdevWait} {path mac destName : String}
  {address : Network} {start : Whereabouts}

/-- What is asked for each request of a program. -/
def relay : Option RetryPolicy → (r : KernelRequest) → Program kernel r.Answer
  | some p => p.answer
  | none => Kernel.request

theorem persisting_eq_expand {α : Type} (p : Program kernel α) :
    persisting policy p = p.expand (relay policy) := by
  cases policy with
  | some policy => rfl
  | none =>
    induction p with
    | done a => rfl
    | ask r next ih => exact congrArg (Program.ask (S := kernel) r) (funext ih)

/-- What binding asks for as a whole, and what comes of it: its lookups, until one of them decides,
and then the handover of the link that was found, if one was. -/
inductive Binds (policy : Option RetryPolicy) (w : UdevWait) (path mac destName : String)
    (address : Network) (start : Whereabouts) :
    List (Program.Reply kernel) → Except BindError Link → Prop
  | unfound {looks es : List (Program.Reply kernel)} {e : BindError}
    (relays : Program.Relays (relay policy) looks es)
    (decided : w.DecidedBy mac looks (.error e)) :
    Binds policy w path mac destName address start es (.error e)
  | found {looks es es' : List (Program.Reply kernel)} {link : Link}
    {outcome : Except BindError Unit} (relays : Program.Relays (relay policy) looks es)
    (decided : w.DecidedBy mac looks (.ok link))
    (handsOver : HandsOver policy path ⟨link.index, destName, address⟩ start es' outcome) :
    Binds policy w path mac destName address start (es ++ es') (outcome.map fun _ => link)

theorem bind_tells (hdelay : 0 < w.delay.nanos) :
    (persisting policy (bind w path mac destName address)).Tells
      (Binds policy w path mac destName address start) := by
  rw [bind, persisting_bind, persisting_eq_expand (w.await mac)]
  refine Program.Tells.bind ((UdevWait.await_tells hdelay mac).expand.mono ?_)
  rintro es (e | link) ⟨looks, hrelays, hdecided⟩
  · refine persisting_done_tells ?_
    rw [List.append_nil]
    exact .unfound hrelays hdecided
  · dsimp only
    rw [persisting_bind]
    refine Program.Tells.bind ((configure_tells policy path _ start).mono ?_)
    intro es' outcome hhandsOver
    have hbinds := Binds.found hrelays hdecided hhandsOver
    cases outcome with
    | error e => exact persisting_done_tells (by rwa [List.append_nil])
    | ok _ => exact persisting_done_tells (by rwa [List.append_nil])

end ContainerPorts.Binder
