import ContainerPorts.Proofs.Cloud.SetupCourse
import ContainerPorts.Proofs.Daemon.DescribedPort
import ContainerPorts.Proofs.Daemon.Footprint

/-!
# The port of an ADD

An ADD that succeeds at a site without a cache has made one port, plugged it in where its
host and its configuration say, and describes it and its subnet.
-/
namespace ContainerPorts

open Cloud

namespace Site

/-- A site without a cache, with a cloud that is furnished like this. -/
structure Furnished (F : Furniture) (s : Site) : Prop where
  uncached : s.cache = none
  furniture : s.world.furniture = F

variable {F : Furniture} {s s' : Site}

theorem Furnished.answer (h : s.Furnished F) (e : Effect) : (s.answer e).2.Furnished F := by
  refine ⟨uncached_answer e h.uncached, ?_⟩
  cases e with
  | cloud c =>
    rw [answer_of_uncached h.uncached]
    exact World.furniture_answer.trans h.furniture
  | file c => exact h.furniture
  | pause d => exact h.furniture
  | observe => exact h.furniture
  | clock => exact h.furniture

/-- A call that succeeds is performed by the cloud. -/
theorem Furnished.of_ok (h : s.Furnished F) {c : Call} {x : c.Result}
    (ha : s.answer (.cloud c) = (.ok x, s')) :
    s'.Furnished F ∧ ((s.world.remember c).perform s.tick.now c).1 = .ok x ∧
      s'.stock = ((s.world.remember c).perform s.tick.now c).2.stock := by
  have hs' := h.answer (.cloud c)
  rw [ha] at hs'
  rw [answer_of_uncached h.uncached] at ha
  obtain ⟨hx, rfl⟩ := Prod.mk.inj ha
  rw [← World.answer_of_ok hx]
  exact ⟨hs', hx, rfl⟩

namespace Furnished

theorem serverByName (h : s.Furnished F) {name : String} {x : Server}
    (ha : s.answer (.cloud (.serverByName name)) = (.ok x, s')) :
    s'.Furnished F ∧ F.servers.find? (fun s => s.name = name) = some x ∧ s'.stock = s.stock := by
  obtain ⟨hs', hx, hstock⟩ := h.of_ok ha
  exact ⟨hs', h.furniture ▸ World.firstOr_eq_ok_iff.mp hx, hstock⟩

theorem networkByName (h : s.Furnished F) {name : String} {x : Cloud.Network}
    (ha : s.answer (.cloud (.networkByName name)) = (.ok x, s')) :
    s'.Furnished F ∧ F.networks.find? (fun n => n.name = name) = some x ∧ s'.stock = s.stock := by
  obtain ⟨hs', hx, hstock⟩ := h.of_ok ha
  exact ⟨hs', h.furniture ▸ World.firstOr_eq_ok_iff.mp hx, hstock⟩

theorem subnetById (h : s.Furnished F) {id : String} {x : Subnet}
    (ha : s.answer (.cloud (.subnetById id)) = (.ok x, s')) :
    s'.Furnished F ∧ F.subnets.find? (fun x => x.id = id) = some x ∧ s'.stock = s.stock := by
  obtain ⟨hs', hx, hstock⟩ := h.of_ok ha
  exact ⟨hs', h.furniture ▸ World.firstOr_eq_ok_iff.mp hx, hstock⟩

theorem createPort (h : s.Furnished F) {r : PortRequest} {x : Option PortExtension} {p : Port}
    (ha : s.answer (.cloud (.createPort r x)) = (.ok p, s')) :
    s'.Furnished F ∧
      (∃ subnetId, p = World.newPort s.tick.now (s.stock.lastNumber + 1) r subnetId) ∧
      s'.stock = s.stock.count.put p := by
  obtain ⟨hs', hx, hstock⟩ := h.of_ok ha
  rw [hstock]
  simp only [World.perform] at hx ⊢
  split at hx
  · cases hx
  · rename_i subnetId _
    cases hx
    exact ⟨hs', ⟨subnetId, rfl⟩, rfl⟩

theorem setPortTags (h : s.Furnished F) {id : String} {tags : List String} {x : Unit} {p : Port}
    (hp : s.stock.port? id = some p)
    (ha : s.answer (.cloud (.setPortTags id tags)) = (.ok x, s')) :
    s'.Furnished F ∧ s'.stock = s.stock.put { p with tags := tags } := by
  obtain ⟨hs', hx, hstock⟩ := h.of_ok ha
  obtain ⟨p', hp', -, hput⟩ := World.onPort_ok hx
  obtain rfl := Option.some.inj (hp.symm.trans hp')
  exact ⟨hs', hstock.trans hput⟩

theorem assignPort (h : s.Furnished F) {id serverId : String} {x : Attachment} {p : Port}
    (hp : s.stock.port? id = some p)
    (ha : s.answer (.cloud (.assignPort id serverId)) = (.ok x, s')) :
    x = World.attachmentOf (World.attach serverId p) ∧
      s'.stock = s.stock.put (World.attach serverId p) := by
  obtain ⟨-, hx, hstock⟩ := h.of_ok ha
  obtain ⟨p', hp', rfl, hput⟩ := World.onPort_ok hx
  obtain rfl := Option.some.inj (hp.symm.trans hp')
  exact ⟨rfl, hstock.trans hput⟩

end Furnished

/-- The cloud of a site as it answers calls. -/
def answerCall (c : Call) (s : Site) : c.Answer × Site := s.answer (.cloud c)

theorem run_onCloud {α : Type} (p : Program calls α) (s : Site) :
    s.run (Effect.onCloud p) = p.runWith answerCall s := by
  induction p generalizing s with
  | done a => rfl
  | ask c next ih => exact ih _ _

end Site

namespace Cloud

variable {o : SetupOptions} {f f' : Found} {st : SetupStep} {sts : List SetupStep}
  {es : List (Program.Reply calls)} {s s' : Site}

/-- The first of the steps that are taken is answered first. -/
theorem Takes.step {c : Call} (h : Takes o f (st :: sts) es f')
    (hgiven : Program.Given Site.answerCall s es s') (hc : st.call? o f = some c) :
    ∃ x es' s₁, s.answer (.cloud c) = (.ok x, s₁) ∧ Takes o (f.keep c x) sts es' f' ∧
      Program.Given Site.answerCall s₁ es' s' := by
  obtain _ | ⟨hc', h⟩ := h
  obtain rfl := Option.some.inj (hc'.symm.trans hc)
  obtain ⟨hx, hgiven⟩ := Program.given_cons_iff.mp hgiven
  exact ⟨_, _, _, Prod.ext hx rfl, h, hgiven⟩

/-- Setting up that ends well at a site has taken all of its steps there. -/
theorem takes_of_run {r : Resolved} (h : s.run (Effect.onCloud (setupPort o)) = (.ok r, s')) :
    ∃ f es, r = f.toResolved ∧ Takes o {} o.steps es f ∧
      Program.Given Site.answerCall s es s' := by
  rw [Site.run_onCloud] at h
  have hgiven : Program.Given Site.answerCall s _ _ := Program.given_replies (setupPort o) s
  have hcourse := (setupPort_tells o).runWith Site.answerCall s
  rw [h] at hgiven hcourse
  obtain ⟨f, hr, htakes⟩ | ⟨err, f, herror, -⟩ := hcourse
  · exact ⟨f, _, Except.ok.inj hr, htakes, hgiven⟩
  · cases herror

/-- A step whose result serves the creation of the port only. -/
def SetupStep.isAuxiliary : SetupStep → Bool
  | .project _ => true
  | .group _ => true
  | .namedSubnet _ => true
  | _ => false

theorem Takes.of_auxiliary (h : Takes o f sts es f') (hsts : ∀ st ∈ sts, st.isAuxiliary = true) :
    f'.toResolved = f.toResolved ∧ ∀ e ∈ es, e.1.readsFurniture = true := by
  induction h with
  | nil f => exact ⟨rfl, List.forall_mem_nil _⟩
  | @cons f f' st c x sts es hc h ih =>
    rw [List.forall_mem_cons] at hsts
    obtain ⟨hresolved, hes⟩ := ih hsts.2
    have hst : (f.keep c x).toResolved = f.toResolved ∧ c.readsFurniture = true := by
      have haux := hsts.1
      cases st with
      | project name =>
        cases hc
        exact ⟨rfl, rfl⟩
      | group name =>
        cases hc
        exact ⟨rfl, rfl⟩
      | namedSubnet name =>
        obtain ⟨network, -, rfl⟩ := Option.map_eq_some_iff.mp hc
        exact ⟨rfl, rfl⟩
      | _ => cases haux
    exact ⟨hresolved.trans hst.1, List.forall_mem_cons.mpr ⟨hst.2, hes⟩⟩

theorem SetupOptions.isAuxiliary_lookups (o : SetupOptions) :
    ∀ st ∈ o.groupLookups ++ (nonempty? o.subnetName).toList.map .namedSubnet,
      st.isAuxiliary = true := by
  intro st hst
  simp only [groupLookups, List.mem_append, List.mem_map] at hst
  rcases hst with (hproject | ⟨name, -, rfl⟩) | ⟨name, -, rfl⟩
  · split at hproject
    · cases hproject
    · obtain ⟨name, -, rfl⟩ := List.mem_map.mp hproject
      rfl
  · rfl
  · rfl

/-- Before the port is created, the server and the network are found, and nothing is changed. -/
theorem Takes.looked_up (h : Takes o {} o.steps es f)
    (hgiven : Program.Given Site.answerCall s es s') (uncached : s.cache = none) :
    ∃ server network f₁ es₁ s₁,
      s.world.servers.find? (fun x => x.name = o.hostname) = some server ∧
      s.world.networks.find? (fun n => n.name = o.networkName) = some network ∧
      f₁.toResolved = { server := some server, network := some network } ∧
      s₁.Furnished s.world.furniture ∧ s₁.stock = s.stock ∧
      Program.Given Site.answerCall s₁ es₁ s' ∧
      Takes o f₁ (.create :: ((if o.tags = [] then [] else [.tag]) ++
        (.subnet :: if o.skipAttach then [] else [.attach]))) es₁ f := by
  simp only [SetupOptions.steps, SetupOptions.lookups, List.append_assoc, List.cons_append,
    List.nil_append] at h
  rw [← List.append_assoc] at h
  have hs : s.Furnished s.world.furniture := ⟨uncached, rfl⟩
  obtain ⟨server, es, t, hserver, h, hgiven⟩ := h.step hgiven rfl
  obtain ⟨ht, hserver, htstock⟩ := hs.serverByName hserver
  obtain ⟨network, es, u, hnetwork, h, hgiven⟩ := h.step hgiven rfl
  obtain ⟨hu, hnetwork, hustock⟩ := ht.networkByName hnetwork
  obtain ⟨es', es₁, f₁, rfl, haux, h⟩ := h.split
  obtain ⟨s₁, hlooking, hgiven⟩ := hgiven.split
  obtain ⟨hresolved, hreads⟩ := haux.of_auxiliary o.isAuxiliary_lookups
  have kept : s₁.Furnished s.world.furniture ∧ s₁.stock = s.stock := by
    refine hlooking.invariant (J := fun v => v.Furnished s.world.furniture ∧ v.stock = s.stock)
      ⟨hu, hustock.trans htstock⟩ fun e he v hv => ⟨hv.1.answer (.cloud e.1), ?_⟩
    have hlookup := Call.changes_of_readsFurniture (hreads e he)
    exact (Site.stock_answer (e := .cloud e.1) hlookup).trans hv.2
  exact ⟨server, network, f₁, es₁, s₁, hserver, hnetwork, hresolved, kept.1, kept.2, hgiven, h⟩

/-- A port that was made with these tags in a network and plugged into a server. -/
structure Port.Plugged (server : Server) (network : Network) (tags : List String)
    (mac : Option String) (p : Port) : Prop where
  status : p.status = "ACTIVE"
  device : p.deviceId = server.id
  network : p.networkId = network.id
  tags : p.tags = tags
  mac : ∀ m, mac = some m → m ≠ "" → p.macAddress = m

/-- The port is created, tagged and plugged in, and the subnet of its address is looked up. -/
theorem Takes.made (ht : o.tags ≠ []) (hskip : o.skipAttach = false) {server : Server}
    {network : Network} {F : Furniture}
    (h : Takes o f (.create :: ((if o.tags = [] then [] else [.tag]) ++
      (.subnet :: if o.skipAttach then [] else [.attach]))) es f')
    (hf : f.toResolved = { server := some server, network := some network })
    (hs : s.Furnished F) (hgiven : Program.Given Site.answerCall s es s') :
    ∃ p fixed subnet q,
      p.id = World.portId (s.stock.lastNumber + 1) ∧ s'.stock.port? p.id = some p ∧
      (∀ id, id ≠ p.id → s'.stock.port? id = s.stock.port? id) ∧
      p.Plugged server network o.tags o.macAddress ∧ p.fixedIps = [fixed] ∧
      F.subnets.find? (fun x => x.id = fixed.subnetId) = some subnet ∧
      q.fixedIps = p.fixedIps ∧
      f'.toResolved =
        ⟨some server, some network, some subnet, some q, some (World.attachmentOf p)⟩ := by
  rw [if_neg ht, if_neg (by simp [hskip])] at h
  have hserver : f.server = some server := congrArg Resolved.server hf
  have hnetwork : f.network = some network := congrArg Resolved.network hf
  obtain ⟨created, es, s₁, hcreate, h, hgiven⟩ :=
    h.step hgiven (Option.map_eq_some_iff.mpr ⟨network, hnetwork, rfl⟩)
  obtain ⟨hs₁, ⟨subnetId, hnew⟩, hstock₁⟩ := hs.createPort hcreate
  have hips : created.fixedIps = [⟨subnetId, World.portAddress (s.stock.lastNumber + 1)⟩] := by
    rw [hnew]
    rfl
  obtain ⟨_, es, s₂, htag, h, hgiven⟩ :=
    h.step hgiven (c := .setPortTags created.id o.tags) rfl
  obtain ⟨hs₂, hstock₂⟩ := hs₁.setPortTags (hstock₁ ▸ Stock.port?_put_self ..) htag
  obtain ⟨subnet, es, s₃, hlookup, h, hgiven⟩ :=
    h.step hgiven (c := .subnetById subnetId) (by simp [SetupStep.call?, Found.keep, hips])
  obtain ⟨hs₃, hsubnet, hstock₃⟩ := hs₂.subnetById hlookup
  obtain ⟨attachment, es, s₄, hattach, h, hgiven⟩ :=
    h.step hgiven (c := .assignPort created.id server.id)
      (by simp [SetupStep.call?, Found.keep, hserver])
  obtain ⟨rfl, hstock₄⟩ :=
    hs₃.assignPort (hstock₃.trans hstock₂ ▸ Stock.port?_put_self ..) hattach
  cases h
  cases hgiven
  -- The reply is made from the port as it was tagged; the cloud keeps it as it was plugged in.
  refine ⟨World.attach server.id { created with tags := o.tags }, _, subnet,
    { created with tags := o.tags }, ?_, ?_, fun id hid => ?_, ⟨rfl, rfl, ?_, rfl, ?_⟩, hips,
    hsubnet, rfl, ?_⟩
  · rw [hnew]
    rfl
  · rw [hstock₄, Stock.port?_put_self]
  · calc s'.stock.port? id
      _ = s₃.stock.port? id := hstock₄ ▸ Stock.port?_put_of_ne (by exact hid) _
      _ = s₂.stock.port? id := by rw [hstock₃]
      _ = s₁.stock.port? id := hstock₂ ▸ Stock.port?_put_of_ne (by exact hid) _
      _ = s.stock.port? id := hstock₁ ▸ Stock.port?_put_of_ne (by exact hid) _
  · rw [hnew]
    rfl
  · intro m hm hnonempty
    have hmac : nonempty? o.macAddress = some m := by simp [nonempty?, hm, hnonempty]
    rw [hnew]
    simp [World.attach, World.newPort, Setup.request, hmac]
  · simp [Found.keep, hserver, hnetwork]

end Cloud

namespace HostSettings

variable {h : HostSettings} {i : Invocation} {s : Site}

/-- An ADD that succeeds has set up its port and describes it, and does nothing else. -/
theorem run_setupPort_of_add {reply : AddReply} (hok : (s.run (h.add i)).1 = .ok reply) :
    ∃ c r, h.context i = .ok c ∧
      s.run (Effect.onCloud (setupPort (.ofContext c (h.tags i)))) =
        (.ok r, (s.run (h.add i)).2) ∧ PortReply.describe r i = .ok reply := by
  unfold add at hok ⊢
  cases hc : h.context i with
  | error e =>
    rw [hc] at hok
    cases hok
  | ok c =>
    rw [hc] at hok
    dsimp only at hok ⊢
    rw [Site.run_bind] at hok ⊢
    cases hsetup : s.run (Effect.onCloud (setupPort (.ofContext c (h.tags i)))) with
    | mk x s₁ =>
      rw [hsetup] at hok
      cases x with
      | error e => cases hok
      | ok r =>
        dsimp only at hok ⊢
        cases hreply : PortReply.describe r i with
        | error e =>
          rw [hreply] at hok
          cases hok
        | ok reply' =>
          rw [hreply] at hok
          obtain rfl : reply' = reply := Except.ok.inj hok
          exact ⟨c, r, rfl, hsetup, hreply⟩

/-- An ADD that succeeds has made one port, as its configuration says, and plugged it into the
server of its host. It describes the address of this port, and the subnet of this address. -/
theorem add_describes_port (uncached : s.cache = none) (fresh : s.stock.Fresh) {reply : AddReply}
    (hok : (s.run (h.add i)).1 = .ok reply) :
    ∃ conf server network p fixed subnet,
      NetworkConf.read h.defaults i.stdin = .ok conf ∧
      s.world.servers.find? (fun x => x.name = h.hostname) = some server ∧
      s.world.networks.find? (fun n => n.name = conf.network) = some network ∧
      s.stock.port? p.id = none ∧ (s.run (h.add i)).2.stock.port? p.id = some p ∧
      (∀ id, id ≠ p.id → (s.run (h.add i)).2.stock.port? id = s.stock.port? id) ∧
      p.Plugged server network (h.tags i) conf.macAddress ∧ p.fixedIps = [fixed] ∧
      s.world.subnets.find? (fun x => x.id = fixed.subnetId) = some subnet ∧
      PortReply.Describes i (World.attachmentOf p) p subnet reply := by
  obtain ⟨c, r, hc, hsetup, hreply⟩ := run_setupPort_of_add hok
  obtain ⟨conf, hconf, rfl⟩ := context_eq_ok_iff.mp hc
  obtain ⟨f, es, rfl, htakes, hgiven⟩ := takes_of_run hsetup
  obtain ⟨server, network, f₁, es₁, s₁, hserver, hnetwork, hf₁, hs₁, hstock, hgiven, htakes⟩ :=
    htakes.looked_up hgiven uncached
  obtain ⟨p, fixed, subnet, q, hid, hport, hothers, hplugged, hfixed, hsubnet, hq, hf⟩ :=
    htakes.made (h.tags_ne_nil i) rfl hf₁ hs₁ hgiven
  rw [hstock] at hid hothers
  rw [hf] at hreply
  have hnew : s.stock.port? p.id = none := hid ▸ fresh _ (Nat.lt_succ_self _)
  exact ⟨conf, server, network, p, fixed, subnet, hconf, hserver, hnetwork, hnew, hport, hothers,
    hplugged, hfixed, hsubnet, (PortReply.describes_of_ok hreply).congr hq⟩

end HostSettings

/-- The first ADD at a small site, with all that it has made. -/
theorem add_describes_port_sample :
    let outcome := (sampleSite .basic).run (sampleHost.add sampleInvocation)
    ∃ reply p subnet, outcome.1 = .ok reply ∧ outcome.2.stock.port? p.id = some p ∧
      p.status = "ACTIVE" ∧ p.deviceId = "srv-1" ∧ p.networkId = "net-1" ∧
      p.tags = sampleHost.tags sampleInvocation ∧
      PortReply.Describes sampleInvocation (World.attachmentOf p) p subnet reply := by
  intro outcome
  obtain ⟨reply, hok⟩ : ∃ reply, outcome.1 = .ok reply := ⟨_, rfl⟩
  obtain ⟨conf, server, network, p, fixed, subnet, hconf, hserver, hnetwork, -, hport, -, hplugged,
    -, -, hdescribes⟩ := HostSettings.add_describes_port rfl (fun _ _ => rfl) hok
  obtain rfl : (⟨"srv-1", "node-1"⟩ : Server) = server := Option.some.inj hserver
  have hname : conf.network = "netA" := by
    have hread : (NetworkConf.read sampleHost.defaults sampleInvocation.stdin).map
        NetworkConf.network = .ok "netA" := rfl
    rw [hconf] at hread
    exact Except.ok.inj hread
  rw [hname] at hnetwork
  obtain rfl : (⟨"net-1", "netA", ["sub-1"]⟩ : Cloud.Network) = network := Option.some.inj hnetwork
  exact ⟨reply, p, subnet, hok, hport, hplugged.status, hplugged.device, hplugged.network,
    hplugged.tags, hdescribes⟩

end ContainerPorts
