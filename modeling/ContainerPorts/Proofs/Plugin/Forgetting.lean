import ContainerPorts.Plugin.Verbs
import ContainerPorts.Proofs.Daemon.Carriers
import ContainerPorts.Proofs.Daemon.StoredRecords

/-!
# When the plugin has a record forgotten

DEL posts its invocation, and removes the record of the interface once that was
answered well. The daemon answers well as soon as tearing down has come to an end.
-/
namespace ContainerPorts

open Cloud

/-- The surroundings after the first requests of a program, or after all of them. -/
def Program.halted {S : Signature} {α σ : Type} (answer : (r : S.Request) → σ → S.Answer r × σ) :
    ℕ → Program S α → σ → σ
  | 0, _, s => s
  | _ + 1, .done _, s => s
  | n + 1, .ask r next, s => (next (answer r s).1).halted answer n (answer r s).2

theorem Program.Asks.halted {S : Signature} {α σ : Type}
    {answer : (r : S.Request) → σ → S.Answer r × σ} {P : S.Request → Prop} {p : Program S α}
    (h : p.Asks P) {J : σ → Prop} (hJ : ∀ r s, P r → J s → J (answer r s).2) (n : ℕ) {s : σ}
    (hs : J s) : J (p.halted answer n s) := by
  induction n generalizing p s with
  | zero => exact hs
  | succ n ih =>
    cases p with
    | done a => exact hs
    | ask r next =>
      obtain ⟨hr, hnext⟩ := (Program.asks_ask r next).mp h
      exact ih (hnext _) (hJ r s hr hs)

/-! ### Requests of the plugin -/

/-- How a request of the plugin fares, and what the daemon has counted before. -/
inductive Delivery where
  | answered (counted : Metrics)
  /-- The daemon is stopped, or there is no way back, after so many requests of its own. Each
  reading of the clock is one of them. -/
  | broken (counted : Metrics) (requests : ℕ) (reason : String)
  /-- The deadline of the daemon passes after so many requests of its own, whatever its clock
  shows. -/
  | late (counted : Metrics) (requests : ℕ) (reply : Json.Value)

/-- A request as the daemon gets it. -/
def Http.Request.toApi (r : Http.Request) : ApiRequest :=
  ⟨r.method, r.url.target, (r.body.map fun v => Utf8.encode v.text).getD []⟩

def Daemon.serve (d : Daemon) (r : ApiRequest) (s : Site) :
    Delivery → Except String Http.Response × Site
  | .answered counted =>
    (.ok (s.run (d.respond r counted)).1.1, (s.run (d.respond r counted)).2)
  | .broken counted requests reason =>
    (.error reason, (d.respond r counted).halted Site.answer requests s)
  | .late counted requests reply =>
    (.ok (.ofJson 500 reply), (d.respond r counted).halted Site.answer requests s)

theorem Daemon.stock_serve (d : Daemon) {r : ApiRequest}
    (h : ∀ m, (d.respond r m).Asks fun e : Effect => e.changes = false) (s : Site)
    (f : Delivery) : (d.serve r s f).2.stock = s.stock := by
  have hhalted (counted : Metrics) (requests : ℕ) :
      ((d.respond r counted).halted Site.answer requests s).stock = s.stock :=
    (h counted).halted (J := fun s' : Site => s'.stock = s.stock)
      (fun _ _ he hs => (Site.stock_answer he).trans hs) requests rfl
  cases f with
  | answered counted =>
    rw [serve]
    dsimp only
    exact Site.stock_run_of_asks (h counted)
  | broken counted requests reason => exact hhalted counted requests
  | late counted requests reply => exact hhalted counted requests

/-- A DEL of the interface that was added by another invocation. -/
structure Invocation.Undoes (i a : Invocation) : Prop where
  command_eq : i.command = Verb.del.name
  containerId_eq : i.containerId = a.containerId
  ifname_eq : i.ifname = a.ifname

/-- A daemon, and a plugin that has the URL of its interface. -/
structure Deployment where
  host : HostSettings
  daemon : Daemon
  tools : Plugin.Tools
  /-- Where invocations are posted to. -/
  url : Url
  handler_eq : daemon.handler = host.handle
  records_eq : host.records = some daemon.records
  url_eq : tools.client.url "cni" = .ok url
  resource_eq : Resource.ofPath? url.target = some .command

namespace Deployment

/-- The n-th request to the daemon fares as `fates n` says. -/
def answer (x : Deployment) (kernel : (r : KernelRequest) → r.Answer) (fates : ℕ → Delivery) :
    (r : PluginRequest) → Site × ℕ → r.Answer × (Site × ℕ)
  | .kernel r, s => (kernel r, s)
  | .http r, (s, n) =>
    ((x.daemon.serve r.toApi s (fates n)).1, (x.daemon.serve r.toApi s (fates n)).2, n + 1)

/-- The site after a DEL of the plugin. -/
def afterDel (x : Deployment) (kernel : (r : KernelRequest) → r.Answer) (fates : ℕ → Delivery)
    (i : Invocation) (s : Site) : Site :=
  ((Plugin.del x.tools i).runWith (x.answer kernel fates) (s, 0)).2.1

/-- What is read as the record of the interface of an invocation. -/
def record (x : Deployment) (i : Invocation) (s : Site) : Except StoreError InterfaceRecord :=
  s.record x.daemon.records i.containerId i.ifname

variable (x : Deployment) {kernel : (r : KernelRequest) → r.Answer} {fates : ℕ → Delivery}
  {i : Invocation} {s : Site}

/-- The rest of a DEL, once it is known what became of its invocation. -/
def settle (x : Deployment) (i : Invocation) :
    Except String Http.Response → Program pluginCalls (Except PluginError Unit)
  | .error reason => .done (.error (.client (.transport x.url.text reason)))
  | .ok r => match DaemonClient.readReply r with
    | .error e => .done (.error (.client e))
    | .ok _ => Plugin.onHttp (x.tools.client.deleteRecord i.containerId i.ifname) >>= fun _ =>
      .done (.ok ())

theorem del_eq (i : Invocation) : Plugin.del x.tools i =
    .ask (S := pluginCalls) (.http ⟨"POST", x.url, none, some i.toJson⟩) (x.settle i) := by
  simp only [Plugin.del, DaemonClient.invoke, DaemonClient.send, x.url_eq]
  refine congrArg (Program.ask (S := pluginCalls) _) (funext fun y => ?_)
  cases y with
  | error reason => rfl
  | ok r =>
    change (Program.done (DaemonClient.readReply r) >>= _) = _
    rw [settle, Program.done_bind]
    cases DaemonClient.readReply r <;> rfl

/-- A DEL that is answered with an error is given up. -/
theorem settle_error (i : Invocation) (reply : Json.Value) :
    ∃ e, x.settle i (.ok (.ofJson 500 reply)) = .done (.error e) := by
  obtain ⟨e, he⟩ : ∃ e, DaemonClient.readReply (.ofJson 500 reply) = .error e := by
    have hstatus : (Http.Response.ofJson 500 reply).status = 500 := rfl
    simp only [DaemonClient.readReply, hstatus]
    split <;> exact ⟨_, rfl⟩
  refine ⟨.client e, ?_⟩
  rw [settle, he]

/-- The daemon answered a DEL well although its port could not be torn down. -/
def Conceals (fates : ℕ → Delivery) (i : Invocation) (s : Site) : Prop :=
  (∃ counted, fates 0 = .answered counted ∧
    (s.run (x.daemon.respond (Daemon.posting x.url.target i) counted)).1.1.status = 204) ∧
  ∃ e, (s.run (x.host.teardown i)).1 = .error e

/-- Requests to remove something. -/
def Removes : PluginRequest → Prop
  | .http r => r.method = "DELETE" ∧ r.body = none
  | .kernel _ => False

theorem deleteRecord_removes (c : DaemonClient) (containerId ifname : String) :
    (Plugin.onHttp (c.deleteRecord containerId ifname)).Asks Removes := by
  unfold DaemonClient.deleteRecord DaemonClient.send
  cases c.url (DaemonClient.recordPath containerId ifname) with
  | error e => exact Program.asks_done _
  | ok u =>
    refine Program.asks_perform_bind ⟨rfl, rfl⟩ fun y => ?_
    cases y <;> exact Program.asks_done _

theorem settle_removes (y : Except String Http.Response) : (x.settle i y).Asks Removes := by
  cases y with
  | error reason => exact Program.asks_done _
  | ok r =>
    rw [settle]
    cases DaemonClient.readReply r with
    | error e => exact Program.asks_done _
    | ok _ => exact (deleteRecord_removes _ _ _).bind fun _ => Program.asks_done _

/-- A request to remove something leaves the ports alone, however it fares. -/
theorem stock_answer_of_removes {r : PluginRequest} (h : Removes r) (s : Site × ℕ) :
    (x.answer kernel fates r s).2.1.stock = s.1.stock := by
  cases r with
  | kernel r => exact h.elim
  | http r =>
    obtain ⟨method, u, token, body⟩ := r
    obtain ⟨rfl, rfl⟩ : method = "DELETE" ∧ body = none := h
    have hasks := x.daemon.respond_delete_asks u.target []
    have hrequest : Http.Request.toApi ⟨"DELETE", u, token, none⟩ = ⟨"DELETE", u.target, []⟩ := rfl
    rw [answer, hrequest]
    exact x.daemon.stock_serve hasks s.1 (fates s.2)

theorem stock_run_settle (y : Except String Http.Response) (s : Site × ℕ) :
    ((x.settle i y).runWith (x.answer kernel fates) s).2.1.stock = s.1.stock :=
  (x.settle_removes y).runWith (J := fun s' : Site × ℕ => s'.1.stock = s.1.stock)
    (fun _ s' hr hs => (x.stock_answer_of_removes hr s').trans hs) rfl

theorem afterDel_eq (i : Invocation) (s : Site) :
    let served := x.daemon.serve (Daemon.posting x.url.target i) s (fates 0)
    x.afterDel kernel fates i s =
      ((x.settle i served.1).runWith (x.answer kernel fates) (served.2, 1)).2.1 := by
  rw [afterDel, del_eq]
  rfl

/-- How a DEL can come out. Its record is not touched unless the daemon answered well; then the
ports are as tearing down has left them. -/
theorem afterDel_cases (hdel : i.command = Verb.del.name) (s : Site) :
    (x.afterDel kernel fates i s).files = s.files ∨
      (∃ counted, fates 0 = .answered counted ∧
        (s.run (x.daemon.respond (Daemon.posting x.url.target i) counted)).1.1.status = 204) ∧
        (x.afterDel kernel fates i s).stock = (s.run (x.host.teardown i)).2.stock := by
  have hglances (counted : Metrics) :
      (x.daemon.respond (Daemon.posting x.url.target i) counted).Asks Effect.Glances :=
    Daemon.respond_posting_glances x.handler_eq x.resource_eq hdel counted
  have hhalted (counted : Metrics) (requests : ℕ) :
      ((x.daemon.respond (Daemon.posting x.url.target i) counted).halted Site.answer
        requests s).files = s.files :=
    (hglances counted).halted (J := fun s' : Site => s'.files = s.files)
      (fun _ _ he hs => (Site.files_answer he).trans hs) requests rfl
  rw [afterDel_eq]
  cases hfate : fates 0 with
  | broken counted requests reason => exact .inl (hhalted counted requests)
  | late counted requests reply =>
    left
    obtain ⟨e, he⟩ := x.settle_error i reply
    rw [Daemon.serve, he]
    exact hhalted counted requests
  | answered counted =>
    rw [Daemon.serve]
    cases hv : i.validate with
    | error e =>
      left
      rw [Daemon.respond_rejected x.resource_eq hv]
      rfl
    | ok v =>
      obtain rfl := Invocation.eq_del_of_validate hdel hv
      rcases Daemon.run_respond_del x.handler_eq x.resource_eq hv counted s with
        ⟨hstatus, hsite⟩ | ⟨reply, hreply⟩
      · right
        refine ⟨⟨counted, rfl, hstatus⟩, ?_⟩
        rw [stock_run_settle, ← hsite]
      · left
        obtain ⟨e, he⟩ := x.settle_error i reply
        have hfiles := Site.files_run (hglances counted) s
        simpa only [hreply, he, Program.runWith_done] using hfiles

theorem record_congr {s s' : Site} (h : s'.files = s.files) : x.record i s' = x.record i s := by
  rw [record, record, Site.record, Site.record, h]

/-- A DEL acts on the tags of the ADD whose record is stored, if it has no other namespace. -/
theorem tags_recovered {a j : Invocation} {address : Network} (hj : j.Undoes a)
    (hn : j.netns = "" ∨ j.netns = a.netns)
    (hr : x.record j s = .ok (Plugin.recordOf a address)) :
    x.host.tags (x.host.recovered j s) = x.host.tags a := by
  rw [HostSettings.recovered_of_record x.records_eq hr hn]
  simp only [HostSettings.tags, PortTags.ofInvocation, hj.containerId_eq, hj.ifname_eq]
  rfl

/-- After a DEL of the plugin that leaves the port of an ADD behind, the record of this ADD is
still stored, and a DEL without a namespace acts on the tags of this port; unless tearing down
failed, which the daemon answers as if it had not. -/
theorem record_outlives_port (kernel : (r : KernelRequest) → r.Answer) (fates : ℕ → Delivery)
    {a i : Invocation} {address : Network} {s : Site} (hi : i.Undoes a)
    (hn : i.netns = "" ∨ i.netns = a.netns)
    (hr : x.record i s = .ok (Plugin.recordOf a address))
    (hsole : s.stock.Sole (x.host.tags a))
    (hp : ∃ p, (x.afterDel kernel fates i s).stock.Carries (x.host.tags a) p) :
    let s' := x.afterDel kernel fates i s
    x.Conceals fates i s ∨ x.record i s' = .ok (Plugin.recordOf a address) ∧
      ∀ j : Invocation, j.Undoes a → j.netns = "" →
        x.host.tags (x.host.recovered j s') = x.host.tags a := by
  intro s'
  have kept (hs : x.record i s' = .ok (Plugin.recordOf a address)) :
      x.record i s' = .ok (Plugin.recordOf a address) ∧
        ∀ j : Invocation, j.Undoes a → j.netns = "" →
          x.host.tags (x.host.recovered j s') = x.host.tags a := by
    refine ⟨hs, fun j hj hjn => ?_⟩
    have hjr : x.record j s' = .ok (Plugin.recordOf a address) := by
      rw [record, hj.containerId_eq, hj.ifname_eq, ← hi.containerId_eq, ← hi.ifname_eq]
      exact hs
    exact x.tags_recovered hj (.inl hjn) hjr
  rcases x.afterDel_cases hi.command_eq s with hfiles | ⟨hanswered, hstock⟩
  · exact .inr (kept ((x.record_congr hfiles).trans hr))
  · cases hresult : (s.run (x.host.teardown i)).1 with
    | error e => exact .inl ⟨hanswered, e, hresult⟩
    | ok _ =>
      obtain ⟨q, hends, hholds⟩ := x.host.run_teardown i s
      rw [hresult] at hends
      rw [x.tags_recovered hi hn hr] at hholds
      obtain ⟨p, hp⟩ := hp
      rw [hstock] at hp
      exact absurd hp ((hholds.clear_iff hends).mpr hsole p)

/-- A DEL leaves the only port of an ADD behind, and the record of this ADD is lost. -/
structure Loses (kernel : (r : KernelRequest) → r.Answer) (fates : ℕ → Delivery)
    (a i : Invocation) (s : Site) : Prop where
  undoes : i.Undoes a
  sole : s.stock.Sole (x.host.tags a)
  recorded : ∃ address, x.record i s = .ok (Plugin.recordOf a address)
  left : ∃ p, (x.afterDel kernel fates i s).stock.Carries (x.host.tags a) p
  lost : ∃ e, x.record i (x.afterDel kernel fates i s) = .error e

/-! ### A small deployment -/

def localUrl (path : String) : Url where
  scheme := "http".toList
  authority := some { host := .name "localhost".toList, port := some 4242 }
  path := .segments [path.toList]

def sample : Deployment where
  host := { sampleHost with records := some "/var/lib/cni" }
  daemon :=
    { hostname := sampleHost.hostname, records := "/var/lib/cni"
      handler := HostSettings.handle { sampleHost with records := some "/var/lib/cni" } }
  tools := { client := ⟨localUrl ""⟩, udev := {}, retry := none }
  url := localUrl "cni"
  handler_eq := rfl
  records_eq := rfl
  url_eq := by decide +kernel
  resource_eq := by decide +kernel

/-- No link is there. -/
def idleKernel : (r : KernelRequest) → r.Answer
  | .link _ => ⟨.error (.connection ""), ⟨0⟩⟩
  | .leaveNetns => ()
  | .sleep _ => ()

/-- The site after an ADD whose record is stored. -/
def addedSite : Site :=
  { (Operation.run sample.host sample.daemon (sampleSite .basic, {}) [.add sampleInvocation]).1 with
    files := RecordStore.filed (Plugin.recordOf sampleInvocation default) none }

/-- The same, where no port can be deleted any more. -/
def refusingSite : Site := { addedSite with world := addedSite.world.refuse .deletePort "" }

def sampleDel : Invocation := { sampleInvocation with command := "DEL" }

/-- The same with another namespace. -/
def strayDel : Invocation := { sampleDel with netns := "/proc/8/ns/net" }

theorem sole_addedSite : addedSite.stock.Sole (sample.host.tags sampleInvocation) := by
  have hnone (p : Port) :
      ¬ (sampleSite .basic).stock.Carries (sample.host.tags sampleInvocation) p := by
    rintro ⟨hp, -⟩
    cases hp
  have hfirst : Operation.AllFirst sample.host sample.daemon (sampleSite .basic, {})
      [.add sampleInvocation] := ⟨hnone, trivial⟩
  exact Operation.sole_run hfirst fun p _ hp _ => absurd hp (hnone p)

theorem exists_carries {k : Stock} (id : String) {tags : List String}
    (h : (k.port? id).map Port.tags = some tags) : ∃ p, k.Carries tags p := by
  obtain ⟨p, hp, rfl⟩ := Option.map_eq_some_iff.mp h
  have hid : p.id = id := Stock.id_of_port? hp
  exact ⟨p, by rwa [hid], List.Subset.refl _⟩

/-- When the cloud refuses to delete the port, the record is lost all the same. So it is when a DEL
with another namespace finds no port. -/
theorem loses_record :
    (sampleDel.netns = sampleInvocation.netns ∧
      sample.Loses idleKernel (fun _ => .answered {}) sampleInvocation sampleDel refusingSite) ∧
    (addedSite.run (sample.host.teardown strayDel)).1 = .ok () ∧
      sample.Loses idleKernel (fun _ => .answered {}) sampleInvocation strayDel addedSite := by
  refine ⟨⟨rfl, ⟨⟨rfl, rfl, rfl⟩, sole_addedSite, ⟨default, by decide +kernel⟩,
    exists_carries "port-1" (by decide +kernel), ⟨.notFound "c" "eth0", by decide +kernel⟩⟩⟩,
    by decide +kernel, ⟨⟨rfl, rfl, rfl⟩, sole_addedSite, ⟨default, by decide +kernel⟩,
    exists_carries "port-1" (by decide +kernel), ⟨.notFound "c" "eth0", by decide +kernel⟩⟩⟩

/-- A DEL that breaks off after the daemon has found the port leaves the record. -/
theorem record_outlives_port_brokenOff :
    let fates (_ : ℕ) : Delivery := .broken {} 2 "timed out"
    let s' := sample.afterDel idleKernel fates sampleDel addedSite
    (∃ p, s'.stock.Carries (sample.host.tags sampleInvocation) p) ∧
      sample.record sampleDel s' = .ok (Plugin.recordOf sampleInvocation default) := by
  intro fates s'
  have hp : ∃ p, s'.stock.Carries (sample.host.tags sampleInvocation) p :=
    exists_carries "port-1" (by decide +kernel)
  have hr : sample.record sampleDel addedSite = .ok (Plugin.recordOf sampleInvocation default) := by
    decide +kernel
  rcases sample.record_outlives_port idleKernel fates ⟨rfl, rfl, rfl⟩ (.inr rfl) hr
    sole_addedSite hp with ⟨⟨counted, hanswered, -⟩, -⟩ | ⟨hkept, -⟩
  · cases hanswered
  · exact ⟨hp, hkept⟩

end Deployment

end ContainerPorts
