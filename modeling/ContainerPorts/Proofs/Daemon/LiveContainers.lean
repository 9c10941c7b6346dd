import ContainerPorts.Proofs.Daemon.Carriers
import ContainerPorts.Proofs.Daemon.Willing
import Mathlib.Data.Finset.Card
import Mathlib.Data.Finset.Image

/-!
# Live containers and their ports

A container is live from its ADD to its DEL. Every live one has a port of its own
that is active at the server of the host, and no other port is marked. What keeps
this up is that new ports get numbers that no marked port has, that DEL takes the
only port with its tags, and that the reaper takes no active port. The count of the
ports at the server is then a count of live containers.
-/
namespace ContainerPorts

open Cloud

namespace Cloud.Stock

/-- The port of a live container. -/
structure Occupied (server : Server) (live : Finset PortTags) (k : Stock) (p : Port) : Prop where
  tags : ∃ t ∈ live, p.tags = t.toList
  status : p.status = Port.active
  deviceId : p.deviceId = server.id
  number : ∃ n ≤ k.lastNumber, p.id = World.portId n

/-- Every live container has a port, no two ports are of one container, and only such ports are
marked. -/
structure Houses (server : Server) (live : Finset PortTags) (k : Stock) : Prop where
  housed : ∀ t ∈ live, ∃ p, k.port? p.id = some p ∧ p.tags = t.toList
  sole : ∀ t : PortTags, k.Sole t.toList
  marked : ∀ p, k.port? p.id = some p → PortTags.marker ∈ p.tags → k.Occupied server live p

end Cloud.Stock

theorem PortTags.marker_mem_toList (t : PortTags) : marker ∈ t.toList := by simp [toList]

theorem PortTags.toList_injective : Function.Injective PortTags.toList := fun _ _ h =>
  eq_of_toList_subset (h ▸ List.Subset.refl _)

namespace Cloud.Stock.Houses

variable {server : Server} {live : Finset PortTags} {k k' : Stock} {t : PortTags} {p : Port}

/-- Nobody lives in a stock without marked ports. -/
theorem of_unmarked (h : ∀ p, k.port? p.id = some p → PortTags.isMarked p.tags = false) :
    k.Houses server ∅ := by
  have unmarked (p : Port) (hp : k.port? p.id = some p) : PortTags.marker ∉ p.tags := by
    simpa [PortTags.isMarked] using h p hp
  refine ⟨fun t ht => absurd ht (Finset.notMem_empty t), fun t p q hp => ?_, fun p hp hm => ?_⟩
  · exact absurd (hp.2 t.marker_mem_toList) (unmarked p hp.1)
  · exact absurd hm (unmarked p hp)

theorem congr (h : k.Houses server live) (hn : k'.lastNumber = k.lastNumber)
    (hp : ∀ id, k'.port? id = k.port? id) : k'.Houses server live where
  housed t ht := by
    obtain ⟨p, hport, htags⟩ := h.housed t ht
    exact ⟨p, (hp p.id).trans hport, htags⟩
  sole t := (h.sole t).of_tags fun p hport => ⟨p, (hp p.id).symm.trans hport, rfl⟩
  marked p hport hm := by
    obtain ⟨htags, hstatus, hdevice, n, hle, hid⟩ := h.marked p ((hp p.id).symm.trans hport) hm
    exact ⟨htags, hstatus, hdevice, n, hn ▸ hle, hid⟩

/-- A port that carries the tags of a container is the port of this container, which is live. -/
theorem of_carries (h : k.Houses server live) (hp : k.Carries t.toList p) :
    t ∈ live ∧ p.tags = t.toList := by
  obtain ⟨⟨u, hu, htags⟩, -⟩ := h.marked p hp.1 (hp.2 t.marker_mem_toList)
  have hsubset : t.toList ⊆ u.toList := htags ▸ hp.2
  obtain rfl := PortTags.eq_of_toList_subset hsubset
  exact ⟨hu, htags⟩

/-- A new port makes its container live. -/
theorem insert (h : k.Houses server live) (ht : t ∉ live)
    (hadded : SetupState.Added k (World.portId (k.lastNumber + 1)) t.toList k')
    (hnew : ∃ p, k'.port? (World.portId (k.lastNumber + 1)) = some p ∧
      p.status = Port.active ∧ p.deviceId = server.id) : k'.Houses server (insert t live) := by
  obtain ⟨new, hport, hstatus, hdevice⟩ := hnew
  have hid : new.id = World.portId (k.lastNumber + 1) := Stock.id_of_port? hport
  have htags : new.tags = t.toList := by
    obtain ⟨p, hp, htags⟩ := hadded.port
    obtain rfl := Option.some.inj (hp.symm.trans hport)
    exact htags
  have hold {p : Port} (hp : k.port? p.id = some p) (hm : PortTags.marker ∈ p.tags) :
      p.id ≠ World.portId (k.lastNumber + 1) := by
    intro heq
    obtain ⟨n, hn, hn'⟩ := (h.marked p hp hm).number
    have hnumber := World.portId_injective (heq.symm.trans hn')
    omega
  refine ⟨fun u hu => ?_, fun u => ?_, fun p hp hm => ?_⟩
  · rcases Finset.mem_insert.mp hu with rfl | hu
    · exact ⟨new, by rwa [hid], htags⟩
    · obtain ⟨p, hp, hu⟩ := h.housed u hu
      have hm : PortTags.marker ∈ p.tags := hu ▸ u.marker_mem_toList
      exact ⟨p, (hadded.others _ (hold hp hm)).trans hp, hu⟩
  · refine hadded.sole (h.sole u) fun hsubset p hp => ht ?_
    obtain rfl := PortTags.eq_of_toList_subset hsubset
    exact (h.of_carries hp).1
  · by_cases hp' : p.id = World.portId (k.lastNumber + 1)
    · rw [hp'] at hp
      obtain rfl := Option.some.inj (hp.symm.trans hport)
      exact ⟨⟨t, Finset.mem_insert_self t live, htags⟩, hstatus, hdevice, _,
        Nat.le_of_eq hadded.number.symm, hid⟩
    · rw [hadded.others _ hp'] at hp
      obtain ⟨⟨u, hu, htags⟩, hstatus, hdevice, n, hn, hid⟩ := h.marked p hp hm
      refine ⟨⟨u, Finset.mem_insert_of_mem hu, htags⟩, hstatus, hdevice, n, ?_, hid⟩
      rw [hadded.number]
      exact Nat.le_succ_of_le hn

/-- After a deletion that succeeded its container is not live. -/
theorem erase (h : k.Houses server live) {q : TeardownState} (hq : q.Holds t.toList k k')
    (hends : q = .absent ∨ ∃ p, q = .deleted p) : k'.Houses server (live.erase t) := by
  rcases hends with rfl | ⟨p, rfl⟩
  · obtain ⟨rfl, hnone⟩ := hq
    have ht : t ∉ live := by
      intro ht
      obtain ⟨p, hp, htags⟩ := h.housed t ht
      have hno := hnone p (PortTable.mem_toList.mpr hp)
      rw [Port.carries_iff.mpr (htags ▸ List.Subset.refl _)] at hno
      cases hno
    rwa [Finset.erase_eq_of_notMem ht]
  · have htags_eq {p' : Port} (hp' : k'.port? p'.id = some p') := hq.tags_eq hp'
    obtain ⟨hspared, hgone⟩ := hq
    have hp : k.Carries t.toList p := ⟨hspared.port?.1, Port.carries_iff.mp hspared.port?.2⟩
    obtain ⟨-, htags⟩ := h.of_carries hp
    refine ⟨fun u hu => ?_, fun u => (h.sole u).of_tags fun p' hp' => htags_eq hp',
      fun p' hp' hm => ?_⟩
    · obtain ⟨hne, hu⟩ := Finset.mem_erase.mp hu
      obtain ⟨p', hp', htags'⟩ := h.housed u hu
      refine ⟨p', (hspared.others _ fun hid => hne ?_).trans hp', htags'⟩
      obtain rfl := Carries.eq_of_id ⟨hp', List.Subset.refl _⟩ hp hid
      exact PortTags.toList_injective (htags'.symm.trans htags)
    · have hid : p'.id ≠ p.id := by
        intro hid
        rw [hid, hgone] at hp'
        cases hp'
      rw [hspared.others _ hid] at hp'
      obtain ⟨⟨u, hu, htags'⟩, hstatus, hdevice, n, hn, hid'⟩ := h.marked p' hp' hm
      refine ⟨⟨u, Finset.mem_erase.mpr ⟨?_, hu⟩, htags'⟩, hstatus, hdevice, n, ?_, hid'⟩
      · rintro rfl
        exact hid (congrArg Port.id (h.sole u p' p ⟨hp', htags' ▸ List.Subset.refl _⟩ hp))
      · rwa [hspared.number]

end Cloud.Stock.Houses

/-! ### The count of the ports -/

/-- The ports that are counted at a server. -/
def Cloud.Stock.counted (k : Stock) (server : Server) : List Port :=
  (k.ports.toList.filter fun p => p.deviceId = server.id).filter PortCount.isCounted

theorem Cloud.Stock.nodup_counted (k : Stock) (server : Server) : (k.counted server).Nodup := by
  have hnodup : k.ports.toList.Nodup := k.ports.pairwise_toList.imp fun {p q} hlt heq => by
    rw [heq] at hlt
    exact String.lt_irrefl _ hlt
  exact (hnodup.filter _).filter _

namespace Cloud.Stock.Houses

variable {server : Server} {live : Finset PortTags} {k : Stock} {p : Port}

theorem mem_counted (h : k.Houses server live) :
    p ∈ k.counted server ↔ k.port? p.id = some p ∧ PortTags.marker ∈ p.tags := by
  rw [counted, List.mem_filter, List.mem_filter, PortTable.mem_toList]
  simp only [PortCount.isCounted, PortTags.isMarked, decide_eq_true_eq]
  constructor
  · rintro ⟨⟨hp, -⟩, hm⟩
    exact ⟨hp, hm⟩
  · rintro ⟨hp, hm⟩
    exact ⟨⟨hp, (h.marked p hp hm).deviceId⟩, hm⟩

theorem nodup_tags_counted (h : k.Houses server live) :
    ((k.counted server).map Port.tags).Nodup := by
  refine (k.nodup_counted server).map_on fun p hp q hq heq => ?_
  obtain ⟨hp, hm⟩ := h.mem_counted.mp hp
  obtain ⟨hq, -⟩ := h.mem_counted.mp hq
  obtain ⟨t, -, ht⟩ := (h.marked p hp hm).tags
  refine h.sole t p q ⟨hp, ?_⟩ ⟨hq, ?_⟩
  · rw [ht]
    exact List.Subset.refl _
  · rw [← heq, ht]
    exact List.Subset.refl _

theorem toFinset_tags_counted (h : k.Houses server live) :
    ((k.counted server).map Port.tags).toFinset = live.image PortTags.toList := by
  ext tags
  rw [List.mem_toFinset, List.mem_map, Finset.mem_image]
  constructor
  · rintro ⟨p, hp, rfl⟩
    obtain ⟨hp, hm⟩ := h.mem_counted.mp hp
    obtain ⟨t, ht, htags⟩ := (h.marked p hp hm).tags
    exact ⟨t, ht, htags.symm⟩
  · rintro ⟨t, ht, rfl⟩
    obtain ⟨p, hp, htags⟩ := h.housed t ht
    exact ⟨p, h.mem_counted.mpr ⟨hp, htags ▸ t.marker_mem_toList⟩, htags⟩

/-- The marked ports at the server are as many as the live containers. -/
theorem length_counted (h : k.Houses server live) : (k.counted server).length = live.card := by
  rw [← List.length_map Port.tags, ← List.toFinset_card_of_nodup h.nodup_tags_counted,
    h.toFinset_tags_counted, Finset.card_image_of_injective live PortTags.toList_injective]

end Cloud.Stock.Houses

/-! ### Runs -/

/-- What identifies the port of an invocation on a host. -/
def HostSettings.identity (h : HostSettings) (i : Invocation) : PortTags :=
  .ofInvocation i h.hostname

namespace Operation

section

variable (h : HostSettings) (d : Daemon)

/-- The containers that are live after an operation. -/
def live (s : Site) (live : Finset PortTags) : Operation → Finset PortTags
  | .add i => insert (h.identity i) live
  | .del i => live.erase (h.identity (h.recovered i s))
  | _ => live

/-- An ADD succeeds, for a container that is not live; a DEL can read its configuration; and no kind
of call is refused. -/
def Orderly (s : Site) (live : Finset PortTags) : Operation → Prop
  | .add i => (∃ reply, (s.run (h.add i)).1 = .ok reply) ∧ h.identity i ∉ live
  | .del i => ∃ c, h.context i = .ok c
  | .refuse .. => False
  | _ => True

/-- The states of all orderly runs, with the containers that are live there. -/
inductive Reached (s₀ : Site × Metrics) : Site × Metrics → Finset PortTags → Prop
  | start : Reached s₀ s₀ ∅
  | step {s : Site × Metrics} {lives : Finset PortTags} {o : Operation}
    (hs : Reached s₀ s lives) (ho : o.Orderly h s.1 lives) :
    Reached s₀ (o.apply h d s) (o.live h s.1 lives)

end

variable {h : HostSettings} {d : Daemon} {server : Server} {s s₀ : Site × Metrics}
  {lives : Finset PortTags} {o : Operation}

theorem willing_apply (hs : s.1.Willing h.hostname server) (ho : o.Orderly h s.1 lives) :
    (o.apply h d s).1.Willing h.hostname server := by
  cases o with
  | add i => exact hs.run _
  | del i => exact hs.run _
  | check i => exact hs.run _
  | reap => exact hs.run _
  | serve r hr =>
    simp only [apply]
    exact hs.run _
  | refuse m message => exact ho.elim
  | heal => exact ⟨hs.uncached, fun _ => rfl, hs.server⟩
  | evict =>
    have hevict : s.1.evict = (none, s.1) := by simp only [Site.evict, hs.uncached]
    simp only [apply, hevict]
    exact hs
  | wait t => exact ⟨hs.uncached, hs.unrefused, hs.server⟩
  | processes files => exact ⟨hs.uncached, hs.unrefused, hs.server⟩

/-- The reaper takes no port of a live container, because these are active. -/
theorem port?_reap (hk : s.1.stock.Houses server lives) (id : String) :
    (s.1.run (Reaper.pass d.reaper d.hostname)).2.stock.port? id = s.1.stock.port? id := by
  obtain ⟨-, hports⟩ := Reaper.run_pass d.reaper d.hostname s.1
  rcases hports id with hsame | ⟨-, p, hp, n, next, m, -, -, hdeletable⟩
  · exact hsame
  · have hid : p.id = id := Stock.id_of_port? hp
    have hactive := (hk.marked p (hid.symm ▸ hp) hdeletable.marked).status
    rw [hdeletable.down] at hactive
    exact absurd hactive (by decide)

theorem houses_apply (hs : s.1.Willing h.hostname server) (hk : s.1.stock.Houses server lives)
    (ho : o.Orderly h s.1 lives) :
    (o.apply h d s).1.stock.Houses server (o.live h s.1 lives) := by
  cases o with
  | add i =>
    obtain ⟨⟨reply, hok⟩, hnew⟩ := ho
    obtain ⟨hadded, hport⟩ := HostSettings.add_of_willing hs hok
    exact hk.insert hnew hadded hport
  | del i =>
    obtain ⟨c, hc⟩ := ho
    obtain ⟨q, hends, hq⟩ := h.run_teardown i s.1
    rw [HostSettings.teardown_of_willing hs hc] at hends
    simp only [apply, h.run_del]
    exact hk.erase hq hends
  | reap =>
    simp only [apply, stock_reap]
    exact hk.congr (Reaper.run_pass d.reaper d.hostname s.1).1 (port?_reap hk)
  | _ =>
    rw [stock_apply rfl]
    exact hk

theorem Reached.houses (hr : Reached h d s₀ s lives) (hs : s₀.1.Willing h.hostname server)
    (hclean : ∀ p, s₀.1.world.port? p.id = some p → PortTags.isMarked p.tags = false) :
    s.1.Willing h.hostname server ∧ s.1.stock.Houses server lives := by
  induction hr with
  | start => exact ⟨hs, .of_unmarked hclean⟩
  | step _ ho ih => exact ⟨willing_apply ih.1 ho, houses_apply ih.1 ih.2 ho⟩

/-- In every state of an orderly run each live container has exactly one port, which is active at
the server of the host; no other port is marked; and the ports that are counted are as many as the
live containers. -/
theorem live_one_to_one (hs : s₀.1.Willing h.hostname server)
    (hclean : ∀ p, s₀.1.world.port? p.id = some p → PortTags.isMarked p.tags = false)
    (hr : Reached h d s₀ s lives) :
    (∀ t ∈ lives, ∃ p, s.1.stock.Carries t.toList p ∧ p.status = Port.active ∧
        p.deviceId = server.id ∧ ∀ q, s.1.stock.Carries t.toList q → q = p) ∧
      (∀ p, s.1.world.port? p.id = some p → PortTags.isMarked p.tags = true →
        ∃ t ∈ lives, s.1.stock.Carries t.toList p) ∧
      (s.1.run (Effect.onCloud (portCount h.hostname))).1 = lives.card := by
  obtain ⟨hwilling, hk⟩ := hr.houses hs hclean
  refine ⟨fun t ht => ?_, fun p hp hm => ?_, ?_⟩
  · obtain ⟨p, hp, htags⟩ := hk.housed t ht
    have hcarries : s.1.stock.Carries t.toList p := ⟨hp, htags ▸ List.Subset.refl _⟩
    have hport := hk.marked p hp (htags ▸ t.marker_mem_toList)
    exact ⟨p, hcarries, hport.status, hport.deviceId, fun q hq => hk.sole t q p hq hcarries⟩
  · obtain ⟨t, ht, htags⟩ := (hk.marked p hp (by simpa [PortTags.isMarked] using hm)).tags
    exact ⟨t, ht, hp, htags ▸ List.Subset.refl _⟩
  · rw [hwilling.run_portCount, List.countP_eq_length_filter]
    exact hk.length_counted

/-- Two ADDs and a pass of the reaper, and then the DEL of the first container. -/
def twoContainers : List Operation :=
  [.add sampleInvocation, .add otherInvocation, .reap, .del sampleInvocation]

theorem exists_of_isOk {ε α : Type} {a : Except ε α} (h : a.isOk = true) : ∃ x, a = .ok x := by
  cases a with
  | error e => cases h
  | ok x => exact ⟨x, rfl⟩

theorem reached_twoContainers :
    Reached sampleHost sampleDaemon (sampleSite .basic, {})
      (run sampleHost sampleDaemon (sampleSite .basic, {}) twoContainers)
      (Finset.erase
        (insert (sampleHost.identity otherInvocation) (insert (sampleHost.identity sampleInvocation) ∅))
        (sampleHost.identity sampleInvocation)) := by
  have hfirst := exists_of_isOk (a := ((sampleSite .basic).run
    (sampleHost.add sampleInvocation)).1) (by decide +kernel)
  have hsecond := exists_of_isOk (a := (((sampleSite .basic).run
    (sampleHost.add sampleInvocation)).2.run (sampleHost.add otherInvocation)).1)
    (by decide +kernel)
  have hread := exists_of_isOk (a := sampleHost.context sampleInvocation) (by decide +kernel)
  refine .step (o := .del sampleInvocation) (.step (o := .reap) (.step (o := .add otherInvocation)
    (.step (o := .add sampleInvocation) .start ⟨hfirst, ?_⟩) ⟨hsecond, ?_⟩) trivial) hread
  · exact Finset.notMem_empty _
  · decide +kernel

theorem live_one_to_one_twoContainers :
    let s := run sampleHost sampleDaemon (sampleSite .basic, {}) twoContainers
    let t := sampleHost.identity otherInvocation
    (∃ p, s.1.stock.Carries t.toList p ∧ p.status = Port.active ∧ p.deviceId = "srv-1" ∧
        ∀ q, s.1.stock.Carries t.toList q → q = p) ∧
      (s.1.run (Effect.onCloud (portCount sampleHost.hostname))).1 = 1 := by
  intro s t
  have hs : (sampleSite .basic).Willing sampleHost.hostname ⟨"srv-1", "node-1"⟩ :=
    ⟨rfl, fun _ => rfl, by decide⟩
  have hclean : ∀ p, (sampleSite .basic).world.port? p.id = some p →
      PortTags.isMarked p.tags = false := fun p hp => by
    cases (hp : none = some p)
  obtain ⟨hlive, -, hcount⟩ := live_one_to_one hs hclean reached_twoContainers
  refine ⟨hlive t (by decide +kernel), ?_⟩
  rw [hcount]
  decide +kernel

end Operation

end ContainerPorts
