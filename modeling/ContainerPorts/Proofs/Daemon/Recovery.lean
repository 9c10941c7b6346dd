import ContainerPorts.Proofs.Daemon.Carriers
import ContainerPorts.Proofs.Daemon.StoredRecords
import ContainerPorts.Proofs.RecordFiles
import ContainerPorts.Proofs.Replies

/-!
# DEL without a namespace

A DEL that comes without a namespace finds the one of the ADD in the record of the interface. Then
it has the tags of the ADD again, and removes its port. What is done in the meantime for others
keeps the port and the record: tags of others are not found on the port, new ports get new ids, and
records of others are in other files. Without a record, a DEL has tags that no port of an ADD with a
namespace has.
-/
namespace ContainerPorts

open Cloud

/-! ### The port of an ADD -/

namespace Cloud

/-- The port with this id has these tags, and is the only one that has them all. No port that is
yet to be made gets this id. -/
structure Stock.Keeps (tags : List String) (id : String) (k : Stock) : Prop where
  tagged : ∃ p, k.port? id = some p ∧ p.tags = tags
  only : ∀ p, k.Carries tags p → p.id = id
  old : ∃ n, id = World.portId n ∧ n ≤ k.lastNumber

variable {k₀ k : Stock} {id : String} {tags new : List String}

theorem SetupState.Added.keeps (h : Added k₀ id tags k) (hnone : ∀ p, ¬ k₀.Carries tags p) :
    k.Keeps tags id where
  tagged := h.port
  only p hp := by
    by_contra hid
    exact hnone p ⟨by rw [← h.others _ hid]; exact hp.1, hp.2⟩
  old := ⟨_, h.id_eq, Nat.le_of_eq h.number.symm⟩

/-- A port that is added without some of the tags changes nothing. -/
theorem Stock.Keeps.added {other : String} (h : k₀.Keeps tags id)
    (ha : SetupState.Added k₀ other new k) (hnew : ¬ tags ⊆ new) : k.Keeps tags id := by
  obtain ⟨n, hn, hle⟩ := h.old
  have hne : id ≠ other := by
    rintro rfl
    have hnumber := World.portId_injective (hn.symm.trans ha.id_eq)
    omega
  refine ⟨?_, fun p hp => ?_, n, hn, by rw [ha.number]; omega⟩
  · rw [ha.others id hne]
    exact h.tagged
  · by_cases hid : p.id = other
    · obtain ⟨made, hmade, rfl⟩ := ha.port
      have hport := hp.1
      rw [hid, hmade] at hport
      obtain rfl := Option.some.inj hport
      exact absurd hp.2 hnew
    · exact h.only p ⟨by rw [← ha.others _ hid]; exact hp.1, hp.2⟩

theorem Stock.Keeps.setup {q : SetupState} (h : k₀.Keeps tags id) (hq : q.Holds new k₀ k)
    (hne : tags ≠ []) (hnew : ¬ tags ⊆ new) : k.Keeps tags id := by
  have hempty : ¬ tags ⊆ [] := fun hsubset => hne (List.subset_nil.mp hsubset)
  cases q with
  | looking =>
    obtain rfl : k = k₀ := hq
    exact h
  | failed =>
    rcases hq with rfl | rfl
    · exact h
    · obtain ⟨n, hn, hle⟩ := h.old
      exact ⟨h.tagged, h.only, n, hn, Nat.le_succ_of_le hle⟩
  | made other => exact h.added hq hempty
  | stranded other => exact h.added hq hempty
  | tagged other => exact h.added hq hnew

/-- Tearing down by tags that the port does not have changes nothing. -/
theorem Stock.Keeps.teardown {q : TeardownState} (h : k₀.Keeps tags id) (hq : q.Holds new k₀ k)
    (hnew : ¬ new ⊆ tags) : k.Keeps tags id := by
  obtain ⟨p, hp, htags⟩ := h.tagged
  obtain ⟨n, hn, hle⟩ := h.old
  have hsame : k.port? id = k₀.port? id := by
    rcases hq.others with hsame | ⟨p', hp', hsubset, hsame⟩
    · exact hsame id
    · refine hsame id ?_
      rintro rfl
      obtain rfl := Option.some.inj (hp.symm.trans hp')
      exact hnew (htags ▸ hsubset)
  refine ⟨⟨p, hsame.trans hp, htags⟩, fun p' hp' => ?_, n, hn,
    Nat.le_trans hle hq.grows.number⟩
  obtain ⟨p₀, hp₀, htags₀⟩ := hq.tags_eq hp'.1
  have hid : p₀.id = p'.id := Stock.id_of_port? hp₀
  rw [← hid]
  exact h.only p₀ ⟨by rwa [hid], by rw [htags₀]; exact hp'.2⟩

/-- Tearing down by the tags of the port removes it and nothing else. -/
theorem Stock.Keeps.removed {q : TeardownState} (h : k₀.Keeps tags id) (hq : q.Holds tags k₀ k)
    (hends : q = .absent ∨ ∃ p, q = .deleted p) :
    k.port? id = none ∧ ∀ other, other ≠ id → k.port? other = k₀.port? other := by
  rcases hends with rfl | ⟨p, rfl⟩
  · obtain ⟨p, hp, htags⟩ := h.tagged
    obtain rfl := Stock.id_of_port? hp
    have hmissing := hq.2 p (PortTable.mem_toList.mpr hp)
    rw [Port.carries_iff.mpr (htags ▸ List.Subset.refl _)] at hmissing
    cases hmissing
  · obtain ⟨hspared, hgone⟩ := hq
    have hid : p.id = id := h.only p ⟨hspared.port?.1, Port.carries_iff.mp hspared.port?.2⟩
    rw [← hid]
    exact ⟨hgone, hspared.others⟩

end Cloud

/-! ### Errands for others -/

/-- What may happen between an ADD and the DEL of its interface. -/
inductive Errand where
  | add (i : Invocation)
  | del (i : Invocation)
  | put (r : InterfaceRecord)
  | delete (containerId ifname : String)
  /-- Something happens that concerns neither a port nor a file: the cloud refuses calls from now
  on or no more, the cache is cleared, time passes. -/
  | aside (f : Site → Site) (stock_eq : ∀ s, (f s).stock = s.stock)
    (files_eq : ∀ s, (f s).files = s.files)

namespace Errand

variable (h : HostSettings) (dir : String) (a : Invocation)

def apply (s : Site) : Errand → Site
  | .add i => (s.run (h.add i)).2
  | .del i => (s.run (h.del i)).2
  | .put r => (s.run (Effect.onFiles (RecordStore.put dir r))).2
  | .delete containerId ifname =>
    (s.run (Effect.onFiles (RecordStore.delete dir containerId ifname))).2
  | .aside f _ _ => f s

def run (s : Site) (es : List Errand) : Site := es.foldl (apply h dir) s

/-- An errand for another one than the interface of an invocation. What a DEL is for shows in the
namespace that it finds. -/
def Apart (s : Site) : Errand → Prop
  | .add i => h.tags i ≠ h.tags a
  | .del i => h.tags (h.recovered i s) ≠ h.tags a
  | .put r => RecordStore.joined (r.containerId, r.ifname) ≠
      RecordStore.joined (a.containerId, a.ifname)
  | .delete containerId ifname => RecordStore.joined (containerId, ifname) ≠
      RecordStore.joined (a.containerId, a.ifname)
  | .aside .. => True

/-- All errands of a run are for others. -/
def AllApart (s : Site) : List Errand → Prop
  | [] => True
  | e :: es => e.Apart h a s ∧ AllApart (e.apply h dir s) es

end Errand

/-- A record of the interface of an invocation. -/
structure InterfaceRecord.Of (r : InterfaceRecord) (a : Invocation) : Prop where
  containerId_eq : r.containerId = a.containerId
  ifname_eq : r.ifname = a.ifname
  netns_eq : r.netns = a.netns

theorem HostSettings.add_glances (h : HostSettings) (i : Invocation) :
    (h.add i).Asks Effect.Glances := by
  refine (h.add_obeys i).asks fun q e he => ?_
  obtain ⟨c, rfl, -⟩ := Monitor.exists_call_of_allows he
  trivial

/-- Only a namespace is looked for. -/
theorem HostSettings.recovered_keeps (h : HostSettings) (i : Invocation) (s : Site) :
    (h.recovered i s).containerId = i.containerId ∧ (h.recovered i s).ifname = i.ifname := by
  have hends : (h.recoverNetns i).Ends fun j =>
      j.containerId = i.containerId ∧ j.ifname = i.ifname := by
    unfold recoverNetns
    split
    · exact (Program.ends_done _).mpr ⟨rfl, rfl⟩
    · split
      · exact (Program.ends_done _).mpr ⟨rfl, rfl⟩
      · refine Program.ends_bind fun r => ?_
        cases r <;> exact (Program.ends_done _).mpr ⟨rfl, rfl⟩
  exact hends.runWith s

namespace Site

theorem stock_run_onFiles {α : Type} (p : Program fileCalls α) (s : Site) :
    (s.run (Effect.onFiles p)).2.stock = s.stock :=
  stock_run_of_asks (Program.asks_onFiles p fun _ => rfl)

/-- The port of an ADD is there, and the record of its interface. -/
structure Retains (s : Site) (tags : List String) (id : String) (r : InterfaceRecord) : Prop where
  port : s.stock.Keeps tags id
  accepted : (RecordStore.Operation.put r).isAccepted = true
  content : s.files.content (RecordStore.fileName r.containerId r.ifname) =
    .ok (Utf8.encode r.toJson.lines)

variable {s : Site} {tags : List String} {id dir : String} {r : InterfaceRecord}

theorem Retains.record (hs : s.Retains tags id r) :
    s.record dir r.containerId r.ifname = .ok r := record_of_content dir hs.accepted hs.content

end Site

namespace Errand

variable {h : HostSettings} {dir : String} {a : Invocation} {s : Site} {id : String}
  {r : InterfaceRecord}

theorem retains_onFiles {o : RecordStore.Operation} {tags : List String}
    (hs : s.Retains tags id r)
    (ho : RecordStore.joined o.pair ≠ RecordStore.joined (r.containerId, r.ifname)) :
    (s.run (Effect.onFiles (o.program dir))).2.Retains tags id r where
  port := by
    rw [Site.stock_run_onFiles]
    exact hs.port
  accepted := hs.accepted
  content := by
    rw [Site.files_run_onFiles]
    exact RecordStore.content_run (p := (r.containerId, r.ifname)) ho hs.content

/-- An errand for another one keeps the port and the record. -/
theorem retains_apply {e : Errand} (hr : r.Of a) (he : e.Apart h a s)
    (hs : s.Retains (h.tags a) id r) : (e.apply h dir s).Retains (h.tags a) id r := by
  have hpair : (r.containerId, r.ifname) = (a.containerId, a.ifname) :=
    Prod.ext hr.containerId_eq hr.ifname_eq
  cases e with
  | add i =>
    obtain ⟨q, -, hq⟩ := h.run_add i s
    have hnew : ¬ h.tags a ⊆ h.tags i := fun hsubset =>
      he (HostSettings.tags_eq_of_subset hsubset).symm
    refine ⟨hs.port.setup hq (h.tags_ne_nil a) hnew, hs.accepted, ?_⟩
    rw [apply, Site.files_run (h.add_glances i)]
    exact hs.content
  | del i =>
    obtain ⟨q, -, hq⟩ := h.run_teardown i s
    have hnew : ¬ h.tags (h.recovered i s) ⊆ h.tags a := fun hsubset =>
      he (HostSettings.tags_eq_of_subset hsubset)
    rw [apply, h.run_del]
    refine ⟨hs.port.teardown hq hnew, hs.accepted, ?_⟩
    rw [Site.files_run (h.teardown_glances i)]
    exact hs.content
  | put r' => exact retains_onFiles (o := .put r') hs (hpair ▸ he)
  | delete containerId ifname =>
    exact retains_onFiles (o := .delete containerId ifname) hs (hpair ▸ he)
  | aside f stock_eq files_eq =>
    refine ⟨?_, hs.accepted, ?_⟩
    · rw [apply, stock_eq]
      exact hs.port
    · rw [apply, files_eq]
      exact hs.content

theorem retains_run {es : List Errand} (hr : r.Of a) (hes : AllApart h dir a s es)
    (hs : s.Retains (h.tags a) id r) : (run h dir s es).Retains (h.tags a) id r := by
  induction es generalizing s with
  | nil => exact hs
  | cons e es ih => exact ih hes.2 (retains_apply hr hes.1 hs)

/-- A DEL of another container or another interface is for another one, whatever namespace it
finds. -/
theorem apart_del {i : Invocation}
    (hne : (PortTags.ofInvocation i h.hostname).containerId ≠
      (PortTags.ofInvocation a h.hostname).containerId ∨ i.ifname ≠ a.ifname) :
    (Errand.del i).Apart h a s := by
  intro htags
  obtain ⟨hid, hifname⟩ := h.recovered_keeps i s
  have hsubset : (PortTags.ofInvocation (h.recovered i s) h.hostname).toList ⊆
      (PortTags.ofInvocation a h.hostname).toList := fun t ht => (congrArg (t ∈ ·) htags).mp ht
  have heq := PortTags.eq_of_toList_subset hsubset
  rcases hne with hne | hne
  · refine hne ?_
    rw [← heq]
    simp only [PortTags.ofInvocation, hid]
  · exact hne (hifname.symm.trans (congrArg PortTags.ifname heq))

end Errand

/-! ### The DEL of the interface -/

namespace Program

variable {S : Signature} {α σ : Type} {answer : (r : S.Request) → σ → S.Answer r × σ}

/-- An answer that was given is among those of the run. -/
theorem Answered.mem_replies {p : Program S α} {s : σ} {n : ℕ} {r : S.Request} {x : S.Answer r}
    (h : p.Answered answer s n r x) : ⟨r, x⟩ ∈ p.replies answer s := by
  obtain ⟨m, next, s', -, ha, rfl⟩ := h
  induction m generalizing p s with
  | zero =>
    obtain ⟨rfl, rfl⟩ : p = .ask r next ∧ s = s' := by simpa [after] using ha
    exact List.mem_cons_self
  | succ m ih =>
    cases p with
    | done a => simp [after] at ha
    | ask r' next' => exact List.mem_cons_of_mem _ (ih ha)

end Program

namespace HostSettings

variable {h : HostSettings}

/-- All calls of a DEL to the cloud succeed. -/
def DelSucceeds (h : HostSettings) (i : Invocation) (s : Site) : Prop :=
  ∀ e ∈ (h.teardown i).replies Site.answer s, Effect.Succeeds e.1 e.2

/-- Without a usable record there is no namespace to be found. -/
theorem netns_recovered {j : Invocation} {s : Site} (hj : j.netns = "")
    (hrecord : ∀ dir, h.records = some dir → ∀ r,
      s.record dir j.containerId j.ifname = .ok r → r.netns = "") :
    (h.recovered j s).netns = "" := by
  cases hdir : h.records with
  | none =>
    simp only [recovered, recoverNetns, hdir]
    exact hj
  | some dir =>
    have hread : ((RecordStore.get dir j.containerId j.ifname).runWith (fun c d => d.answer c)
        s.files).1 = s.record dir j.containerId j.ifname := rfl
    simp only [recovered, recoverNetns, hdir, if_neg (not_not.mpr hj)]
    rw [Site.run_bind, Site.run_onFiles, hread]
    cases hr : s.record dir j.containerId j.ifname with
    | error e => exact hj
    | ok r => exact hrecord dir hdir r hr

/-- The tags of a DEL without a usable record are on no port that was tagged with a namespace. -/
theorem del_spares_named {i j : Invocation} {s : Site} {host : String} {p : Port}
    (hj : j.netns = "") (hi : i.netns ≠ "")
    (hrecord : ∀ dir, h.records = some dir → ∀ r,
      s.record dir j.containerId j.ifname = .ok r → r.netns = "")
    (htags : p.tags = (PortTags.ofInvocation i host).toList) (hp : s.stock.port? p.id = some p) :
    (s.run (h.del j)).2.stock.port? p.id = some p := by
  have hnetns := netns_recovered hj hrecord
  obtain ⟨q, -, hq⟩ := h.run_teardown j s
  rw [h.run_del]
  rcases hq.others with hsame | ⟨p', hp', hsubset, hsame⟩
  · exact (hsame p.id).trans hp
  · refine (hsame p.id ?_).trans hp
    intro hid
    rw [← hid, hp] at hp'
    obtain rfl := Option.some.inj hp'
    rw [htags] at hsubset
    have heq := congrArg PortTags.netns (PortTags.eq_of_toList_subset hsubset)
    exact hi (heq.symm.trans hnetns)

/-- After an ADD that succeeded, and a put of its record that succeeded, the port and the record
are retained through all errands for others. -/
theorem retains_of_add {dir : String} {s : Site} {a : Invocation} {reply : AddReply}
    {r : InterfaceRecord} {es : List Errand} (hnone : ∀ p, ¬ s.stock.Carries (h.tags a) p)
    (hadd : (s.run (h.add a)).1 = .ok reply) (hr : r.Of a)
    (hput : ((s.run (h.add a)).2.run (Effect.onFiles (RecordStore.put dir r))).1 = .ok ())
    (hes : Errand.AllApart h dir a (((s.run (h.add a)).2).run
      (Effect.onFiles (RecordStore.put dir r))).2 es) :
    ∃ id, SetupState.Added s.stock id (h.tags a) (s.run (h.add a)).2.stock ∧
      (Errand.run h dir (((s.run (h.add a)).2).run
        (Effect.onFiles (RecordStore.put dir r))).2 es).Retains (h.tags a) id r := by
  obtain ⟨q, hends, hq⟩ := h.run_add a s
  rw [hadd] at hends
  cases q with
  | looking =>
    obtain ⟨e, he⟩ := hends
    cases he
  | failed =>
    obtain ⟨_, e, he⟩ := hends
    cases he
  | made id => exact hends.elim
  | stranded id =>
    obtain ⟨_, e, he⟩ := hends
    cases he
  | tagged id =>
    generalize (s.run (h.add a)).2 = added at hput hes hq ⊢
    have hrun : ((RecordStore.Operation.put r).run dir added.files).1 = .ok () :=
      (Site.run_onFiles (RecordStore.put dir r) added).symm.trans hput
    obtain ⟨haccept, hcontent⟩ := RecordStore.content_run_put hrun
    refine ⟨id, hq, Errand.retains_run hr hes ⟨?_, haccept, ?_⟩⟩
    · rw [Site.stock_run_onFiles]
      exact SetupState.Added.keeps hq hnone
    · rw [Site.files_run_onFiles]
      exact hcontent

/-- As long as the port and the record of an ADD are retained, a DEL of its interface whose calls
succeed removes this port only, with the namespace of the ADD or without any. -/
theorem del_removes_retained {dir id : String} {s : Site} {a j : Invocation} {r : InterfaceRecord}
    {conf : NetworkConf} (hdir : h.records = some dir) (hr : r.Of a)
    (hs : s.Retains (h.tags a) id r) (hid : j.containerId = a.containerId)
    (hifname : j.ifname = a.ifname) (hnetns : j.netns = "" ∨ j.netns = a.netns)
    (hconf : NetworkConf.read h.defaults j.stdin = .ok conf) (hcalls : h.DelSucceeds j s) :
    (s.run (h.del j)).2.stock.port? id = none ∧
      ∀ other, other ≠ id → (s.run (h.del j)).2.stock.port? other = s.stock.port? other := by
  have hread : s.record dir j.containerId j.ifname = .ok r := by
    rw [hid, hifname, ← hr.containerId_eq, ← hr.ifname_eq]
    exact hs.record
  have hrecovered := recovered_of_record hdir hread (by rwa [hr.netns_eq])
  have htags : h.tags (h.recovered j s) = h.tags a := by
    simp only [hrecovered, tags, PortTags.ofInvocation, hid, hifname, hr.netns_eq]
  have hcontext : h.context (h.recovered j s) = .ok _ :=
    context_eq_ok_iff.mpr ⟨conf, by rw [hrecovered]; exact hconf, rfl⟩
  have hok : (s.run (h.teardown j)).1 = .ok () :=
    teardown_ok h j s hcontext fun n e x hx => hcalls _ hx.mem_replies
  obtain ⟨q, hends, hq⟩ := h.run_teardown j s
  rw [hok] at hends
  rw [htags] at hq
  rw [h.run_del]
  exact hs.port.removed hq hends

/-- Let an ADD succeed where no port has its tags, let its record be stored, and let any errands
for others follow. Then a DEL of the same interface whose calls succeed removes the port of the
ADD and no other, whether it has the namespace of the ADD or none. But a DEL without a namespace
and without a usable record changes no port that was tagged with a namespace. -/
theorem del_removes_added (h : HostSettings) (dir : String) (s : Site) (a : Invocation)
    (reply : AddReply) (r : InterfaceRecord) (es : List Errand) (hdir : h.records = some dir)
    (hnone : ∀ p, ¬ s.stock.Carries (h.tags a) p) (hadd : (s.run (h.add a)).1 = .ok reply)
    (hr : r.Of a)
    (hput : ((s.run (h.add a)).2.run (Effect.onFiles (RecordStore.put dir r))).1 = .ok ())
    (hes : Errand.AllApart h dir a (((s.run (h.add a)).2).run
      (Effect.onFiles (RecordStore.put dir r))).2 es) :
    let added := (s.run (h.add a)).2
    let now := Errand.run h dir (added.run (Effect.onFiles (RecordStore.put dir r))).2 es
    (∃ p, added.stock.port? p.id = some p ∧ p.tags = h.tags a ∧
      (∀ id, id ≠ p.id → added.stock.port? id = s.stock.port? id) ∧
      (∃ p', now.stock.port? p.id = some p' ∧ p'.tags = h.tags a) ∧
      ∀ (j : Invocation) (conf : NetworkConf), j.containerId = a.containerId →
        j.ifname = a.ifname → (j.netns = "" ∨ j.netns = a.netns) →
        NetworkConf.read h.defaults j.stdin = .ok conf → h.DelSucceeds j now →
        (now.run (h.del j)).2.stock.port? p.id = none ∧
          ∀ id, id ≠ p.id → (now.run (h.del j)).2.stock.port? id = now.stock.port? id) ∧
    ∀ (g : HostSettings) (t : Site) (i j : Invocation) (host : String) (p : Port),
      j.netns = "" → i.netns ≠ "" →
      (∀ dir, g.records = some dir → ∀ r,
        t.record dir j.containerId j.ifname = .ok r → r.netns = "") →
      p.tags = (PortTags.ofInvocation i host).toList → t.stock.port? p.id = some p →
      (t.run (g.del j)).2.stock.port? p.id = some p := by
  intro added now
  obtain ⟨id, hadded, hretains⟩ := retains_of_add hnone hadd hr hput hes
  obtain ⟨p, hp, htags⟩ := hadded.port
  obtain rfl : p.id = id := Stock.id_of_port? hp
  refine ⟨⟨p, hp, htags, hadded.others, hretains.port.tagged, ?_⟩, ?_⟩
  · intro j conf hid hifname hnetns hconf hcalls
    exact del_removes_retained hdir hr hretains hid hifname hnetns hconf hcalls
  · intro g t i j host p hj hi hrecord htags hp
    exact del_spares_named hj hi hrecord htags hp

end HostSettings

/-! ### A small case -/

instance (c : Call) (x : c.Answer) : Decidable (c.Succeeds x) :=
  match x with
  | .ok y => .isTrue ⟨y, rfl⟩
  | .error _ => .isFalse Call.not_succeeds_error

instance (e : Effect) (x : e.Answer) : Decidable (e.Succeeds x) :=
  match e, x with
  | .cloud c, x => inferInstanceAs (Decidable (c.Succeeds x))
  | .file _, _ => .isTrue trivial
  | .pause _, _ => .isTrue trivial
  | .observe, _ => .isTrue trivial
  | .clock, _ => .isTrue trivial

def recordingHost : HostSettings := { sampleHost with records := some "/var/lib/cni" }

def sampleRecord : InterfaceRecord :=
  { containerId := "c", ifname := "eth0", netns := "/proc/7/ns/net" }

/-- Another container comes and goes, and its record with it. -/
def otherErrands : List Errand :=
  [.add otherInvocation, .put { sampleRecord with containerId := "d" },
    .del { otherInvocation with netns := "" }, .delete "d" "eth0"]

/-- The port of an ADD is removed by a DEL without a namespace, after another container has come
and gone. -/
theorem HostSettings.del_removes_added_sample :
    let added := ((sampleSite .basic).run (recordingHost.add sampleInvocation)).2
    let stored := added.run (Effect.onFiles (RecordStore.put "/var/lib/cni" sampleRecord))
    let now := Errand.run recordingHost "/var/lib/cni" stored.2 otherErrands
    let del := { sampleInvocation with netns := "" }
    Errand.AllApart recordingHost "/var/lib/cni" sampleInvocation stored.2 otherErrands ∧
      recordingHost.DelSucceeds del now ∧
      ∃ id, (∃ p, now.stock.port? id = some p ∧ p.tags = recordingHost.tags sampleInvocation) ∧
        (now.run (recordingHost.del del)).2.stock.port? id = none := by
  intro added stored now del
  have hnone (p : Port) :
      ¬ (sampleSite .basic).stock.Carries (recordingHost.tags sampleInvocation) p := by
    rintro ⟨hp, -⟩
    cases hp
  obtain ⟨reply, hadd⟩ :
      ∃ reply, ((sampleSite .basic).run (recordingHost.add sampleInvocation)).1 = .ok reply :=
    ⟨_, rfl⟩
  have hput : stored.1 = .ok () := by decide +kernel
  have hapart :
      Errand.AllApart recordingHost "/var/lib/cni" sampleInvocation stored.2 otherErrands := by
    refine ⟨?_, ?_, ?_, ?_, trivial⟩
    · change recordingHost.tags otherInvocation ≠ recordingHost.tags sampleInvocation
      decide
    · change RecordStore.joined ("d", "eth0") ≠ RecordStore.joined ("c", "eth0")
      decide
    · exact Errand.apart_del (.inl (by decide))
    · change RecordStore.joined ("d", "eth0") ≠ RecordStore.joined ("c", "eth0")
      decide
  have hcalls : recordingHost.DelSucceeds del now := by
    unfold DelSucceeds
    decide +kernel
  obtain ⟨conf, hconf⟩ :
      ∃ conf, NetworkConf.read recordingHost.defaults del.stdin = .ok conf := ⟨_, rfl⟩
  obtain ⟨⟨p, -, -, -, hthere, hdel⟩, -⟩ := del_removes_added recordingHost "/var/lib/cni"
    (sampleSite .basic) sampleInvocation reply sampleRecord otherErrands rfl hnone hadd
    ⟨rfl, rfl, rfl⟩ hput hapart
  exact ⟨hapart, hcalls, p.id, hthere, (hdel del conf rfl rfl (.inl rfl) hconf hcalls).1⟩

end ContainerPorts
