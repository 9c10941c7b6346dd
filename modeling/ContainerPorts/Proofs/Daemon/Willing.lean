import ContainerPorts.Daemon.PortCount
import ContainerPorts.Proofs.Daemon.AddedPort

/-!
# A site whose cloud is willing

A cloud that refuses nothing, asked without a cache, fails in few cases: what it is
asked for is not there. At such a site with a server for this host, tearing down
never fails, and setting up, if it ends well, has plugged the new port in there.
-/
namespace ContainerPorts

open Cloud

/-- No call is refused, and the first server with the name of the host is known. -/
structure Site.Willing (hostname : String) (server : Server) (s : Site) : Prop where
  uncached : s.cache = none
  unrefused : ∀ m, s.world.refusal? m = none
  server : s.world.servers.find? (fun x => x.name = hostname) = some server

namespace Site.Willing

variable {hostname : String} {server : Server} {s : Site}

theorem answer (h : s.Willing hostname server) (c : Call) :
    s.answer (.cloud c) = (((s.world.remember c).perform s.tick.now c).1,
      { s.tick with world := ((s.world.remember c).perform s.tick.now c).2 }) := by
  rw [answer_of_uncached h.uncached]
  simp only [World.answer, h.unrefused]

theorem of_furniture (h : s.Willing hostname server) {s' : Site} (hc : s'.cache = none)
    (hf : s'.world.furniture = s.world.furniture) : s'.Willing hostname server where
  uncached := hc
  unrefused m := (World.refusal?_eq hf m).trans (h.unrefused m)
  server := by
    have hservers : s'.world.servers = s.world.servers := congrArg Furniture.servers hf
    rw [hservers]
    exact h.server

theorem answered (h : s.Willing hostname server) (e : Effect) :
    (s.answer e).2.Willing hostname server :=
  have hs := Furnished.answer ⟨h.uncached, rfl⟩ e
  h.of_furniture hs.uncached hs.furniture

/-- Whatever is done at a willing site, it stays willing. -/
theorem run {α : Type} (h : s.Willing hostname server) (p : Program effects α) :
    (s.run p).2.Willing hostname server :=
  p.asks_true.runWith (J := Site.Willing hostname server) (fun e _ _ hs => hs.answered e) h

theorem serverByName (h : s.Willing hostname server) :
    (s.answer (.cloud (.serverByName hostname))).1 = .ok server := by
  rw [h.answer]
  simp only [World.perform, World.remember, World.firstOr, h.server]

theorem onPort {α : Type} {w : World} {id : String} {f : Port → Port} {g : Port → α} {p : Port}
    (hp : w.port? id = some p) (hf : ∀ p, (f p).id = p.id) :
    (w.onPort id f g).1 = .ok (g (f p)) ∧ (w.onPort id f g).2.port? id = some (f p) := by
  have hid : (f p).id = id := (hf p).trans (Stock.id_of_port? (k := w.stock) hp)
  unfold World.onPort
  rw [hp]
  refine ⟨rfl, ?_⟩
  rw [← hid]
  exact Stock.port?_put_self w.stock (f p)

theorem detachPort (h : s.Willing hostname server) {id : String} {p : Port}
    (hp : s.world.port? id = some p) (serverId : String) :
    (s.answer (.cloud (.detachPort id serverId))).1 = .ok () ∧
      (s.answer (.cloud (.detachPort id serverId))).2.world.port? id = some (World.unplug p) := by
  rw [h.answer]
  exact onPort (w := s.world.remember _) hp fun _ => rfl

theorem deletePort (h : s.Willing hostname server) {id : String} {p : Port}
    (hp : s.world.port? id = some p) :
    (s.answer (.cloud (.deletePort id))).1 = .ok () := by
  have hp' : (s.world.remember (.deletePort id)).port? id = some p := hp
  rw [h.answer]
  simp only [World.perform, hp']

end Site.Willing

/-- A willing cloud counts the ports that are marked, of those at the server of the host. -/
theorem Site.Willing.run_portCount {hostname : String} {server : Server} {s : Site}
    (h : s.Willing hostname server) :
    (s.run (Effect.onCloud (portCount hostname))).1 =
      (s.world.portList.filter fun p => p.deviceId = server.id).countP PortCount.isCounted := by
  have hserver := h.serverByName
  have hafter := h.answered (.cloud (.serverByName hostname))
  have hports : (s.answer (.cloud (.serverByName hostname))).2.world.portList = s.world.portList := by
    rw [h.answer]
    rfl
  have hlisted : ((s.answer (.cloud (.serverByName hostname))).2.answer
      (.cloud (.portsByDevice server.id))).1 =
        .ok (s.world.portList.filter fun p => p.deviceId = server.id) := by
    rw [hafter.answer, ← hports]
    rfl
  rw [portCount, PortCount.ofServer, Site.run_onCloud_bind, Site.run_onCloud_bind,
    Site.run_onCloud_ask, hserver]
  dsimp only
  rw [Site.run_onCloud_bind, Site.run_onCloud_ask, hlisted]
  rfl

/-! ### Tearing down -/

theorem Effect.onCloud_attempt {α : Type} {report : Failure → PortError} {c : Call}
    {f : c.Result → ExceptT PortError (Program calls) α} :
    onCloud (attempt report c >>= f).run = .ask (.cloud c) fun x => onCloud (match x with
      | .ok x => (f x).run
      | .error e => .done (.error (report e))) :=
  congrArg (Program.ask (S := effects) (.cloud c)) (funext fun x => by cases x <;> rfl)

/-- An attempt that gets a result goes on with it. -/
theorem Site.run_attempt {s : Site} {α : Type} {report : Failure → PortError} {c : Call}
    {f : c.Result → ExceptT PortError (Program calls) α} {x : c.Result}
    (hx : (s.answer (.cloud c)).1 = .ok x) :
    s.run (Effect.onCloud (attempt report c >>= f).run) =
      (s.answer (.cloud c)).2.run (Effect.onCloud (f x).run) := by
  rw [Effect.onCloud_attempt, run, Program.runWith_ask, hx]
  rfl

namespace Site.Willing

variable {hostname : String} {server : Server} {s : Site}

theorem run_delete (h : s.Willing hostname server) {id : String} {p : Port}
    (hp : s.world.port? id = some p) :
    (s.run (Effect.onCloud (attempt (.cloud .deletePort) (.deletePort id)).run)).1 = .ok () := by
  rw [← bind_pure (attempt _ _), Site.run_attempt (h.deletePort hp)]
  rfl

/-- A port that is there can be unplugged and deleted. -/
theorem run_unplugged (h : s.Willing hostname server) {o : TeardownOptions}
    (ho : o.hostname = hostname) {p : Port} (hp : s.world.port? p.id = some p) :
    (s.run (Effect.onCloud (ExceptT.run do
      unplugged o p.id
      attempt (.cloud .deletePort) (.deletePort p.id)))).1 = .ok () := by
  subst ho
  unfold unplugged
  split
  · exact h.run_delete hp
  · rw [bind_assoc, Site.run_attempt h.serverByName]
    have hserved := h.answered (.cloud (.serverByName o.hostname))
    have hp' : (s.answer (.cloud (.serverByName o.hostname))).2.world.port? p.id = some p := by
      rw [h.answer]
      exact hp
    obtain ⟨hdetached, hport⟩ := hserved.detachPort hp' server.id
    rw [Site.run_attempt hdetached]
    exact (hserved.answered _).run_delete hport

theorem run_teardownPort {o : TeardownOptions} (h : s.Willing o.hostname server) :
    (s.run (Effect.onCloud (teardownPort o))).1 = .ok () := by
  have hanswer : s.answer (.cloud (.portByTags o.tags)) =
      (World.firstOr .port (fun p => p.carries o.tags) s.world.portList,
        { s.tick with world := s.world.remember (.portByTags o.tags) }) := h.answer _
  have hafter := h.answered (.cloud (.portByTags o.tags))
  rw [hanswer] at hafter
  rw [teardownPort, Site.run_onCloud_bind, Site.run_onCloud_ask, hanswer]
  unfold World.firstOr
  cases hp : s.world.portList.find? (fun p => p.carries o.tags) with
  | none => rfl
  | some p => exact hafter.run_unplugged rfl (World.mem_portList.mp (List.mem_of_find?_eq_some hp))

end Site.Willing

namespace HostSettings

variable {h : HostSettings} {i : Invocation} {server : Server} {s : Site}

/-- A deletion reads the configuration that it was given. -/
theorem recovered_stdin (h : HostSettings) (i : Invocation) (s : Site) :
    (h.recovered i s).stdin = i.stdin := by
  have hobeys : (h.recoverNetns i).Obeys (Monitor.only fun _ => True) ()
      fun j _ => j.stdin = i.stdin := by
    unfold recoverNetns
    split
    · exact rfl
    · split
      · exact rfl
      · refine Program.Obeys.bind ((Program.asks_true _).obeys_only.mono fun r _ _ => ?_)
        cases r <;> exact rfl
  have htracks : (Monitor.only (S := effects) fun _ => True).Tracks Site.answer
      fun _ _ => True := fun _ _ _ _ _ => trivial
  obtain ⟨-, hstdin, -⟩ := hobeys.runWith htracks (s := s) trivial
  exact hstdin

theorem teardownKnown_of_willing (hs : s.Willing h.hostname server) {c : Context}
    (hc : h.context i = .ok c) : (s.run (h.teardownKnown i)).1 = .ok () := by
  have hhost : c.hostname = h.hostname := by
    obtain ⟨conf, -, rfl⟩ := context_eq_ok_iff.mp hc
    rfl
  have hteardown := Site.Willing.run_teardownPort (o := .ofContext c (h.tags i)) (hhost ▸ hs)
  unfold teardownKnown
  rw [hc]
  dsimp only
  rw [Site.run_bind, hteardown]
  rfl

/-- With a willing cloud, tearing down succeeds if the configuration can be read. -/
theorem teardown_of_willing (hs : s.Willing h.hostname server) {c : Context}
    (hc : h.context i = .ok c) : (s.run (h.teardown i)).1 = .ok () := by
  obtain ⟨conf, hconf, -⟩ := context_eq_ok_iff.mp hc
  rw [run_teardown_eq]
  refine teardownKnown_of_willing (hs.run _) (context_eq_ok_iff.mpr ⟨conf, ?_, rfl⟩)
  rw [h.recovered_stdin i s]
  exact hconf

/-! ### Setting up -/

/-- An ADD that succeeds at a willing site leaves a new port that is tagged, and active at the server
of the host. -/
theorem add_of_willing (hs : s.Willing h.hostname server) {reply : AddReply}
    (hok : (s.run (h.add i)).1 = .ok reply) :
    SetupState.Added s.stock (World.portId (s.stock.lastNumber + 1)) (h.tags i)
        (s.run (h.add i)).2.stock ∧
      ∃ p, (s.run (h.add i)).2.stock.port? (World.portId (s.stock.lastNumber + 1)) = some p ∧
        p.status = Port.active ∧ p.deviceId = server.id := by
  constructor
  · obtain ⟨q, hends, hholds⟩ := h.run_add i s
    rw [hok] at hends
    cases q with
    | looking =>
      obtain ⟨e, he⟩ := hends
      cases he
    | failed =>
      obtain ⟨r, e, he⟩ := hends
      cases he
    | made id => exact hends.elim
    | stranded id =>
      obtain ⟨r, e, he⟩ := hends
      cases he
    | tagged id =>
      have hid : id = World.portId (s.stock.lastNumber + 1) := SetupState.Added.id_eq hholds
      rw [← hid]
      exact hholds
  · obtain ⟨c, r, hc, hsetup, -⟩ := run_setupPort_of_add hok
    obtain ⟨conf, -, rfl⟩ := context_eq_ok_iff.mp hc
    obtain ⟨f, es, -, htakes, hgiven⟩ := takes_of_run hsetup
    obtain ⟨server', network, f₁, es₁, s₁, hserver, -, hf₁, hs₁, hstock, hgiven, htakes⟩ :=
      htakes.looked_up hgiven hs.uncached
    obtain rfl : server = server' := Option.some.inj (hs.server.symm.trans hserver)
    obtain ⟨p, fixed, subnet, q, hid, hport, -, hplugged, -⟩ :=
      htakes.made (h.tags_ne_nil i) rfl hf₁ hs₁ hgiven
    exact ⟨p, hstock ▸ hid ▸ hport, hplugged.status, hplugged.device⟩

end HostSettings

end ContainerPorts
