import ContainerPorts.Proofs.Daemon.Judgement
import ContainerPorts.Proofs.Daemon.Site

/-!
# What a pass of the reaper removes

A pass knows the ports that were listed, and what it saw of the host since it last
deleted one. It only asks for the deletion of a listed port that it has judged by
what it still sees. A port that is gone after a pass was thus deletable at the
moment when its deletion was asked for.
-/
namespace ContainerPorts

open Cloud

namespace Reaper

/-- How far a pass has come. -/
inductive PassState where
  | listing
  /-- The ports are listed; after a look at the host, what was seen. -/
  | treating (listed : List Port) (seen : Option Sight)

namespace PassState

variable (config : ReaperConfig) (hostname : String)

def allows : PassState → Effect → Prop
  | .listing, e => e = .cloud (.portsByTags (PortTags.hostTags hostname))
  | .treating listed seen, e => e = .observe ∨ ∃ p ∈ listed, ∃ x, seen = some x ∧
      judge config x p = .ok () ∧ e = .cloud (.deletePort p.id)

def next : PassState → (e : Effect) → e.Answer → PassState
  | .listing, .cloud (.portsByTags _), .ok ps => .treating ps none
  | .listing, .cloud (.portsByTags _), .error _ => .treating [] none
  | .treating listed _, .observe, x => .treating listed (some x)
  | .treating listed _, .cloud (.deletePort _), _ => .treating listed none
  | q, _, _ => q

/-- What a state says about a site, the pass having begun with the stock `k₀`. -/
def Holds (k₀ : Stock) : PassState → Site → Prop
  | .listing, s => s.stock = k₀
  | .treating listed seen, s =>
    (∀ p ∈ listed, k₀.port? p.id = some p ∧ PortTags.hostTags hostname ⊆ p.tags) ∧
      s.stock.lastNumber = k₀.lastNumber ∧
      (∀ id, s.stock.port? id = k₀.port? id ∨ s.stock.port? id = none) ∧
      ∀ x, seen = some x → x = s.sight

end PassState

def passMonitor (config : ReaperConfig) (hostname : String) : Monitor effects where
  State := PassState
  allows := PassState.allows config hostname
  next := PassState.next

variable {config : ReaperConfig} {hostname : String}

theorem passMonitor_tracks (k₀ : Stock) :
    (passMonitor config hostname).Tracks Site.answer
      fun q s => PassState.Holds hostname k₀ q s := by
  intro (q : PassState) s (e : Effect) (hI : q.Holds hostname k₀ s) he
  change (q.next e (s.answer e).1).Holds hostname k₀ (s.answer e).2
  cases q with
  | listing =>
    obtain rfl : e = .cloud (.portsByTags (PortTags.hostTags hostname)) := he
    obtain rfl : s.stock = k₀ := hI
    have hs : (s.answer (.cloud (.portsByTags (PortTags.hostTags hostname)))).2.stock = s.stock :=
      Site.stock_answer rfl
    cases ha : (s.answer (.cloud (.portsByTags (PortTags.hostTags hostname)))).1 with
    | error e =>
      exact ⟨nofun, by rw [hs], fun id => .inl (by rw [hs]), nofun⟩
    | ok ps =>
      rw [(Site.answer_of_not_cacheable rfl).1] at ha
      refine ⟨fun p hp => ?_, by rw [hs], fun id => .inl (by rw [hs]), nofun⟩
      rw [World.portsByTags_ok ha, List.mem_filter] at hp
      exact ⟨World.mem_portList.mp hp.1, Port.carries_iff.mp hp.2⟩
  | treating listed seen =>
    obtain ⟨hlisted, hnumber, hports, hseen⟩ := hI
    rcases he with rfl | ⟨p, hp, x, rfl, hjudge, rfl⟩
    · refine ⟨hlisted, hnumber, hports, fun x hx => ?_⟩
      exact (Option.some.inj hx).symm
    · rcases Site.stock_answer_deletePort s p.id with hs | hs
      · exact ⟨hlisted, by rwa [hs], by rwa [hs], nofun⟩
      · refine ⟨hlisted, by rwa [hs], fun id => ?_, nofun⟩
        rw [hs]
        by_cases hid : id = p.id
        · subst hid
          exact .inr (Stock.port?_erase_self ..)
        · rw [Stock.port?_erase_of_ne hid]
          exact hports id

/-! ### A pass obeys its monitor -/

/-- Between two deletions all listed ports may still be treated. -/
def Treating (listed : List Port) (q : PassState) : Prop := ∃ seen, q = .treating listed seen

theorem treat_obeys {listed : List Port} {p : Port} (hp : p ∈ listed) {q : PassState}
    (hq : Treating listed q) :
    (treat config p).Obeys (passMonitor config hostname) q fun _ q' => Treating listed q' := by
  obtain ⟨seen, rfl⟩ := hq
  refine Program.Obeys.perform_bind (.inl rfl) fun (x : Sight) => ?_
  cases hj : judge config x p with
  | error reason => exact ⟨some x, rfl⟩
  | ok _ =>
    dsimp only
    split
    · exact ⟨some x, rfl⟩
    · refine Program.Obeys.perform_bind (.inr ⟨p, hp, x, rfl, hj, rfl⟩) fun a => ?_
      cases a <;> exact ⟨none, rfl⟩

theorem treat_all_obeys {listed ps : List Port} (hps : ps ⊆ listed) {q : PassState}
    (hq : Treating listed q) :
    (ps.mapM (treat config)).Obeys (passMonitor config hostname) q
      fun _ q' => Treating listed q' := by
  induction ps generalizing q with
  | nil => exact hq
  | cons p ps ih =>
    rw [List.cons_subset] at hps
    rw [List.mapM_cons]
    refine Program.Obeys.bind ((treat_obeys hps.1 hq).mono fun _ q' hq' => ?_)
    exact Program.Obeys.bind ((ih hps.2 hq').mono fun _ _ hq'' => hq'')

theorem pass_obeys (config : ReaperConfig) (hostname : String) :
    (pass config hostname).Obeys (passMonitor config hostname) .listing
      fun _ q => ∃ listed, Treating listed q := by
  refine Program.Obeys.perform_bind rfl fun a => ?_
  cases a with
  | error e => exact ⟨[], none, rfl⟩
  | ok ps =>
    refine Program.Obeys.bind ((treat_all_obeys (List.Subset.refl ps) ⟨none, rfl⟩).mono ?_)
    exact fun _ q hq => ⟨ps, hq⟩

/-- A pass lists ports, looks at the host and deletes ports. -/
theorem pass_asks (config : ReaperConfig) (hostname : String) :
    (pass config hostname).Asks fun e : Effect =>
      e = .cloud (.portsByTags (PortTags.hostTags hostname)) ∨ e = .observe ∨
        ∃ id, e = .cloud (.deletePort id) := by
  refine (pass_obeys config hostname).asks fun (q : PassState) e he => ?_
  cases q with
  | listing => exact .inl he
  | treating listed seen =>
    rcases he with rfl | ⟨p, -, x, -, -, rfl⟩
    · exact .inr (.inl rfl)
    · exact .inr (.inr ⟨p.id, rfl⟩)

/-! ### What is gone after a pass -/

/-- A port of this host that is orphaned beyond doubt at a site. -/
structure Deletable (config : ReaperConfig) (hostname : String) (s : Site) (p : Port) : Prop where
  marked : PortTags.marker ∈ p.tags
  ours : PortTags.hostTag hostname ∈ p.tags
  old : ∃ t age, p.createdAt = some t ∧ s.now.since? t = some age ∧ config.minPortAge < age
  down : p.status = Port.down
  unplugged : p.deviceId = ""
  gone : config.procMount ≠ none → ∃ netns pid, PortTags.tag PortTags.netnsKey netns ∈ p.tags ∧
    netnsPid? netns = some pid ∧ Site.hasEntry s.processes (netnsEntry pid) = false

/-- A port of this host that passes judgement may be deleted. -/
theorem deletable_of_judge {s : Site} {p : Port} (h : judge config s.sight p = .ok ())
    (hours : PortTags.hostTags hostname ⊆ p.tags) : Deletable config hostname s p := by
  obtain ⟨marked, ⟨t, ht, hold⟩, down, unplugged, gone⟩ := judge_eq_ok_iff.mp h
  change t.toNanos + config.minPortAge.nanos < s.now.toNanos at hold
  refine ⟨marked, hours (by simp [PortTags.hostTags]),
    ⟨t, ⟨(s.now.toNanos - t.toNanos).toNat⟩, ht, ?_, ?_⟩, down, unplugged, fun hproc => ?_⟩
  · exact if_pos (by omega)
  · change config.minPortAge.nanos < (s.now.toNanos - t.toNanos).toNat
    omega
  · obtain ⟨before, netns, after, digits, pid, htags, -, hnetns, hdigits, -, hgone⟩ := gone hproc
    refine ⟨netns, pid, ?_, netnsPid?_eq_some_iff.mpr ⟨digits, hnetns, hdigits⟩, hgone⟩
    exact htags ▸ List.mem_append_right before List.mem_cons_self

/-- A port was removed by the deletion that the pass asked for when the port was deletable. -/
def Removed (config : ReaperConfig) (hostname : String) (s : Site) (p : Port) : Prop :=
  ∃ n next m, (pass config hostname).after Site.answer n s =
      some (.ask (.cloud (.deletePort p.id)) next, m) ∧
    m.stock.port? p.id = some p ∧ Deletable config hostname m p

theorem removed_of_change {s : Site} {id : String}
    (h : (s.run (pass config hostname)).2.stock.port? id ≠ s.stock.port? id) :
    ∃ p, s.stock.port? id = some p ∧ Removed config hostname s p := by
  obtain ⟨total, hend⟩ := Program.exists_after_runWith Site.answer (pass config hostname) s
  obtain ⟨n, r, next, m, -, ha, hm, hc⟩ :=
    Program.exists_change (f := fun s : Site => s.stock.port? id) hend h
  obtain ⟨q, ⟨hr, -⟩, hq⟩ := (pass_obeys config hostname).after (passMonitor_tracks s.stock) rfl ha
  have untouched : (m.answer r).2.stock.port? id ≠ m.stock.port? id := fun hs => hc (hs.trans hm)
  cases q with
  | listing =>
    obtain rfl : r = .cloud (.portsByTags (PortTags.hostTags hostname)) := hr
    exact absurd (by rw [Site.stock_answer rfl]) untouched
  | treating listed seen =>
    obtain ⟨hlisted, -, -, hseen⟩ := hq
    rcases hr with rfl | ⟨p, hp, x, hx, hjudge, rfl⟩
    · exact absurd rfl untouched
    · obtain ⟨hport, hours⟩ := hlisted p hp
      have hid : id = p.id := by
        by_contra hne
        exact untouched (Site.port?_answer_deletePort_of_ne hne)
      subst hid
      obtain rfl : x = m.sight := hseen x hx
      exact ⟨p, hport, n, next, m, ha, hm.trans hport, deletable_of_judge hjudge hours⟩

theorem run_pass (config : ReaperConfig) (hostname : String) (s : Site) :
    (s.run (pass config hostname)).2.stock.lastNumber = s.stock.lastNumber ∧
      ∀ id, (s.run (pass config hostname)).2.stock.port? id = s.stock.port? id ∨
        (s.run (pass config hostname)).2.stock.port? id = none ∧
          ∃ p, s.stock.port? id = some p ∧ Removed config hostname s p := by
  obtain ⟨q, ⟨listed, seen, rfl⟩, -, hnumber, hports, -⟩ :=
    (pass_obeys config hostname).runWith (passMonitor_tracks s.stock) rfl
  refine ⟨hnumber, fun id => ?_⟩
  by_cases hid : (s.run (pass config hostname)).2.stock.port? id = s.stock.port? id
  · exact .inl hid
  · exact .inr ⟨(hports id).resolve_left hid, removed_of_change hid⟩

end Reaper

end ContainerPorts
