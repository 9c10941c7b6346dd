import ContainerPorts.Daemon.Service
import ContainerPorts.Proofs.Daemon.Site

/-!
# Requests that concern no port

Apart from posted invocations, a request for the daemon is answered from the
stored records, from lookups in the cloud, or without asking for anything.
-/
namespace ContainerPorts

open Cloud

/-- Whether something handles an invocation. -/
def Service.isCommand : Service → Bool
  | .command .. => true
  | .health => false
  | .portCount => false
  | .file _ => false

theorem checkHealth_asks (checks : List Check) :
    (checkHealth checks).Asks fun c : Call => c.changes = false := by
  have run (c : Check) : c.run.Asks fun c : Call => c.changes = false := by
    cases c with
    | cloud =>
      refine Program.asks_perform_bind rfl fun a => ?_
      split <;> exact Program.asks_done _
    | fixed name error => exact Program.asks_done error
  have result (c : Check) : c.result.Asks fun c : Call => c.changes = false := by
    refine (run c).bind fun a => ?_
    cases a <;> exact Program.asks_done _
  exact (Program.Asks.mapM result).bind fun _ => Program.asks_done _

theorem portCount_asks (hostname : String) :
    (portCount hostname).Asks fun c : Call => c.changes = false := by
  have ofServer : (PortCount.ofServer hostname).Asks fun c : Call => c.changes = false := by
    refine Program.asks_perform_bind rfl fun a => ?_
    cases a with
    | error e => exact Program.asks_done _
    | ok server =>
      refine Program.asks_perform_bind rfl fun a => ?_
      cases a <;> exact Program.asks_done _
  refine ofServer.bind fun a => ?_
  cases a <;> exact Program.asks_done _

namespace Daemon

theorem service_asks (d : Daemon) {r : Service} (h : r.isCommand = false) :
    (d.service r).Asks fun e : Effect => e.changes = false := by
  cases r with
  | command v i => cases h
  | health => exact (checkHealth_asks d.checks).onCloud fun _ hc => hc
  | portCount =>
    simp only [service, portTotal]
    split
    · exact ((portCount_asks d.hostname).onCloud fun _ hc => hc).bind fun _ => Program.asks_done _
    · exact Program.asks_done _
  | file c => exact Program.asks_perform rfl

end Daemon

namespace Api

/-- Programs of the interface that handle no invocation. -/
structure Quiet {α : Type} (a : Api α) : Prop where
  asks : ∀ m, Program.Asks (fun r : Service => r.isCommand = false) (a m)

variable {α β : Type}

theorem quiet_pure (a : α) : Quiet (pure a : Api α) := ⟨fun _ => Program.asks_done _⟩

theorem Quiet.bind {a : Api α} {f : α → Api β} (h : Quiet a) (hf : ∀ x, Quiet (f x)) :
    Quiet (a >>= f) := ⟨fun m => (h.asks m).bind fun x => (hf x.1).asks x.2⟩

theorem quiet_ask {r : Service} (h : r.isCommand = false) : Quiet (ask r) :=
  ⟨fun _ => (Program.asks_perform h).bind fun _ => Program.asks_done _⟩

theorem quiet_onRecords (p : Program fileCalls α) : Quiet (onRecords p) := by
  have file (c : FileCall) : Program.Asks (fun r : Service => r.isCommand = false)
      (Program.perform (S := services) (.file c)) := Program.asks_perform rfl
  refine ⟨fun _ => Program.Asks.bind ?_ fun _ => Program.asks_done _⟩
  exact (Program.asks_true p).expand fun c _ => file c

theorem quiet_modify (f : Metrics → Metrics) : Quiet (modify f : Api Unit) :=
  ⟨fun _ => Program.asks_done _⟩

theorem health_quiet : Quiet health := (quiet_ask rfl).bind fun _ => quiet_pure _

theorem metrics_quiet : Quiet metrics := by
  refine (quiet_ask rfl).bind fun total => ?_
  have get : Quiet (get : Api Metrics) := ⟨fun _ => Program.asks_done _⟩
  cases total with
  | none => exact get.bind fun _ => quiet_pure _
  | some n => exact (quiet_modify _).bind fun _ => get.bind fun _ => quiet_pure _

theorem putRecord_quiet (dir : String) (body : Bytes) : Quiet (putRecord dir body) := by
  unfold putRecord
  split
  · exact quiet_pure _
  · refine (quiet_onRecords _).bind fun r => ?_
    cases r <;> exact quiet_pure _

theorem getRecord_quiet (dir containerId ifname : String) :
    Quiet (getRecord dir containerId ifname) := by
  unfold getRecord
  split
  · exact quiet_pure _
  · refine (quiet_onRecords _).bind fun r => ?_
    cases r <;> exact quiet_pure _

theorem deleteRecord_quiet (dir containerId ifname : String) :
    Quiet (deleteRecord dir containerId ifname) := by
  unfold deleteRecord
  split
  · exact quiet_pure _
  · refine (quiet_onRecords _).bind fun r => ?_
    cases r <;> exact quiet_pure _

theorem answer?_quiet {dir : String} {body : Bytes} {resource : Resource} {method : String}
    {a : Api Http.Response} (h : resource ≠ .command)
    (ha : answer? dir body resource method = some a) : Quiet a := by
  unfold answer? at ha
  split at ha <;> simp only [Option.some.injEq, reduceCtorEq] at ha
  all_goals subst ha
  · exact absurd rfl h
  · exact health_quiet
  · exact quiet_pure _
  · exact metrics_quiet
  · exact putRecord_quiet ..
  · exact getRecord_quiet ..
  · exact deleteRecord_quiet ..

theorem respond_quiet (dir : String) {r : ApiRequest}
    (h : Resource.ofPath? r.path ≠ some .command) : Quiet (respond dir r) := by
  unfold respond
  split
  · exact quiet_pure _
  · rename_i resource hresource
    have hne : resource ≠ .command := fun hr => h (by rw [hresource, hr])
    dsimp only
    split
    · exact quiet_pure _
    · rename_i a ha
      exact (answer?_quiet hne ha).bind fun _ => quiet_pure _

end Api

/-- A request that posts no invocation leaves all ports alone. -/
theorem Daemon.stock_run_respond (d : Daemon) {r : ApiRequest} (m : Metrics) (s : Site)
    (h : Resource.ofPath? r.path ≠ some .command) :
    (s.run (d.respond r m)).2.stock = s.stock := by
  have hquiet := (Api.respond_quiet d.records h).asks m
  exact Site.stock_run_of_asks (hquiet.expand fun _ hr => d.service_asks hr)

end ContainerPorts
