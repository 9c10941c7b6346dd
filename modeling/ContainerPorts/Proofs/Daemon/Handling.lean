import ContainerPorts.Daemon.Handler
import ContainerPorts.Proofs.Cloud.SettingUp
import ContainerPorts.Proofs.Cloud.TearingDown
import ContainerPorts.Proofs.Daemon.Site

/-!
# What the verbs do to the ports of a site

ADD obeys the monitor of setting up. DEL looks for its namespace first, which
concerns no port, and then obeys the monitor of tearing down. The tags that count
for it are those of the invocation with the namespace that it found.
-/
namespace ContainerPorts

open Cloud

namespace HostSettings

variable (h : HostSettings) (i : Invocation) (s : Site)

theorem tags_ne_nil : h.tags i ≠ [] := by simp [tags, PortTags.toList]

theorem context_eq_ok_iff {h : HostSettings} {i : Invocation} {c : Context} :
    h.context i = .ok c ↔ ∃ conf, NetworkConf.read h.defaults i.stdin = .ok conf ∧
      c = ⟨i, readArguments i.args, conf, h.hostname⟩ := by
  unfold context Context.make
  cases NetworkConf.read h.defaults i.stdin with
  | error f =>
    constructor
    · intro hc
      cases (hc : Except.error (HandlerError.invalidConfig f) = .ok c)
    · rintro ⟨conf, hconf, -⟩
      cases hconf
  | ok conf =>
    constructor
    · intro hc
      exact ⟨conf, rfl, (Except.ok.inj hc).symm⟩
    · rintro ⟨conf', hconf, rfl⟩
      obtain rfl := Except.ok.inj hconf
      rfl

/-- The results that ADD can end with in a state. -/
def AddEnds : Except HandlerError AddReply → SetupState → Prop
  | a, .looking => ∃ e, a = .error e
  | a, .failed => ∃ r e, a = .error (.setup ⟨r, .cloud .createPort e⟩)
  | _, .made _ => False
  | a, .stranded _ => ∃ r e, a = .error (.setup ⟨r, .cloud .setPortTags e⟩)
  | _, .tagged _ => True

theorem add_obeys :
    (h.add i).Obeys (setupMonitor (h.tags i)).onCloud .looking AddEnds := by
  unfold add
  cases h.context i with
  | error e => exact ⟨e, rfl⟩
  | ok c =>
    have hsetup := setupPort_obeys (o := .ofContext c (h.tags i)) (h.tags_ne_nil i)
    refine Program.Obeys.bind (hsetup.onCloud.mono ?_)
    rintro (⟨r, e⟩ | r) q hq
    · change AddEnds (.error (.setup ⟨r, e⟩)) q
      cases q with
      | looking => exact ⟨_, rfl⟩
      | failed =>
        obtain ⟨f, hf⟩ := hq
        obtain rfl := Except.error.inj hf
        exact ⟨r, f, rfl⟩
      | made id => exact hq
      | tagged id => trivial
      | stranded id =>
        obtain ⟨f, hf⟩ := hq
        obtain rfl := Except.error.inj hf
        exact ⟨r, f, rfl⟩
    · cases q with
      | looking =>
        obtain ⟨e, he⟩ := hq
        cases he
      | failed =>
        obtain ⟨e, he⟩ := hq
        cases he
      | made id => exact hq.elim
      | tagged id => dsimp only; cases PortReply.describe r i <;> trivial
      | stranded id =>
        obtain ⟨e, he⟩ := hq
        cases he

/-- What the monitor of setting up says holds at every site. -/
theorem add_tracks (tags : List String) (k₀ : Stock) :
    (setupMonitor tags).onCloud.Tracks Site.answer
      fun q s => SetupState.Holds tags k₀ q s.stock :=
  Site.tracks_onCloud (fun q _ x hc => SetupState.next_of_cacheable hc q x)
    (setupMonitor_tracks tags k₀)

theorem run_add : ∃ q, AddEnds (s.run (h.add i)).1 q ∧
    q.Holds (h.tags i) s.stock (s.run (h.add i)).2.stock :=
  (h.add_obeys i).runWith (add_tracks (h.tags i) s.stock) rfl

/-! ### Deletion -/

/-- The namespace is looked for among files only. -/
theorem recoverNetns_asks {P : Effect → Prop} (hP : ∀ c, P (.file c)) :
    (h.recoverNetns i).Asks P := by
  unfold recoverNetns
  split
  · exact Program.asks_done i
  · split
    · exact Program.asks_done i
    · refine (Program.asks_onFiles _ hP).bind fun r => ?_
      cases r <;> exact Program.asks_done _

/-- The invocation that a deletion acts on. -/
def recovered : Invocation := (s.run (h.recoverNetns i)).1

theorem run_teardown_eq : s.run (h.teardown i) =
    (s.run (h.recoverNetns i)).2.run (h.teardownKnown (h.recovered i s)) :=
  Program.runWith_bind ..

/-- The results that tearing down can end with in a state. -/
def TeardownEnds : Except HandlerError Unit → TeardownState → Prop
  | .ok _, q => q = .absent ∨ ∃ p, q = .deleted p
  | .error _, _ => True

theorem teardownKnown_obeys :
    (h.teardownKnown i).Obeys (teardownMonitor (h.tags i)).onCloud .seeking TeardownEnds := by
  unfold teardownKnown
  cases h.context i with
  | error e => trivial
  | ok c =>
    have hteardown := teardownPort_obeys (.ofContext c (h.tags i))
    refine Program.Obeys.bind (hteardown.onCloud.mono ?_)
    rintro (e | a) q hq
    · trivial
    · exact hq

theorem teardown_tracks (tags : List String) (k₀ : Stock) :
    (teardownMonitor tags).onCloud.Tracks Site.answer
      fun q s => TeardownState.Holds tags k₀ q s.stock :=
  Site.tracks_onCloud (fun q _ x hc => TeardownState.next_of_cacheable hc q x)
    (teardownMonitor_tracks tags k₀)

theorem run_teardown : ∃ q, TeardownEnds (s.run (h.teardown i)).1 q ∧
    q.Holds (h.tags (h.recovered i s)) s.stock (s.run (h.teardown i)).2.stock := by
  have hs : (s.run (h.recoverNetns i)).2.stock = s.stock :=
    Site.stock_run_of_asks (h.recoverNetns_asks i fun _ => rfl)
  rw [run_teardown_eq]
  exact (h.teardownKnown_obeys _).runWith (teardown_tracks _ s.stock) hs

/-- Reporting no failure does not change what was done. -/
theorem run_del : s.run (h.del i) = (.ok (), (s.run (h.teardown i)).2) := Site.run_bind ..

end HostSettings

/-! ### A small site -/

/-- A host whose server the basic world knows. -/
def sampleHost : HostSettings := { hostname := "node-1" }

def sampleInvocation : Invocation :=
  { containerId := "c", ifname := "eth0", netns := "/proc/7/ns/net"
    stdin := Utf8.encode "\x7b\"network\":\"netA\"\x7d" }

/-- The same for another container. -/
def otherInvocation : Invocation := { sampleInvocation with containerId := "d" }

def sampleSite (world : World) : Site := { world := world, epoch := default }

end ContainerPorts
