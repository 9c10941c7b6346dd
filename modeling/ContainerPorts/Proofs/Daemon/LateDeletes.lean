import ContainerPorts.Proofs.Daemon.Handling
import ContainerPorts.Proofs.Daemon.Reaping
import ContainerPorts.Proofs.Daemon.Surroundings

/-!
# Deletions that come too late

A pass of the reaper judges ports by the listing that it began with, and deletes them
one after the other. An ADD that created its port before the listing may plug it in
after it. The port is then deleted although it is plugged in. This happens to no other
port. The minimum age does not prevent it, because the age of a port is not taken when
it is listed, but right before it is deleted.
-/
namespace ContainerPorts

open Cloud

/-- Whether a request is to unplug a port. -/
def Effect.unplugs : Effect → Bool
  | .cloud (.detachPort ..) => true
  | _ => false

/-- Whether a request is to delete a port. -/
def Effect.deletes : Effect → Bool
  | .cloud (.deletePort _) => true
  | _ => false

/-- A port was plugged in. -/
def Exchange.Attaches {ι μ : Type} (id : String) (e : Exchange effects ι μ) : Prop :=
  ∃ serverId x, e.reply = ⟨.cloud (.assignPort id serverId), .ok x⟩

theorem HostSettings.add_asks (h : HostSettings) (i : Invocation) :
    (h.add i).Asks fun e : Effect => e.unplugs = false ∧ e.deletes = false := by
  refine (h.add_obeys i).asks fun (q : SetupState) e he => ?_
  obtain ⟨c, rfl, hc⟩ := Monitor.exists_call_of_allows he
  have lookup (hc : c.isCacheable) :
      (Effect.cloud c).unplugs = false ∧ (Effect.cloud c).deletes = false := by
    cases c <;> first | exact ⟨rfl, rfl⟩ | cases hc
  cases q with
  | looking =>
    rcases hc with hc | ⟨r, x, rfl⟩
    · exact lookup hc
    · exact ⟨rfl, rfl⟩
  | made id =>
    obtain rfl : c = .setPortTags id (h.tags i) := hc
    exact ⟨rfl, rfl⟩
  | tagged id =>
    rcases hc with hc | ⟨serverId, rfl⟩
    · exact lookup hc
    · exact ⟨rfl, rfl⟩
  | failed => exact hc.elim
  | stranded id => exact hc.elim

namespace Reaper

variable {config : ReaperConfig} {hostname : String}

/-- What a pass was answered when it has come to a state. -/
def PassState.Recalls (hostname : String) (es : List (Program.Reply effects)) : PassState → Prop
  | .listing => es = []
  | .treating listed seen => ∃ a es',
      es = ⟨.cloud (.portsByTags (PortTags.hostTags hostname)), a⟩ :: es' ∧
        (∀ p ∈ listed, ∃ ps, a = .ok ps ∧ p ∈ ps) ∧ ∀ x, seen = some x → ⟨.observe, x⟩ ∈ es'

theorem PassState.Recalls.next {es : List (Program.Reply effects)} {q : PassState} {e : Effect}
    (h : q.Recalls hostname es) (he : q.allows config hostname e) (a : e.Answer) :
    (q.next e a).Recalls hostname (es ++ [⟨e, a⟩]) := by
  cases q with
  | listing =>
    obtain rfl : e = .cloud (.portsByTags (PortTags.hostTags hostname)) := he
    obtain rfl : es = [] := h
    cases a with
    | error f => exact ⟨_, [], rfl, nofun, nofun⟩
    | ok ps => exact ⟨_, [], rfl, fun p hp => ⟨ps, rfl, hp⟩, nofun⟩
  | treating listed seen =>
    obtain ⟨a', es', rfl, hlisted, -⟩ := h
    rcases he with rfl | ⟨p, -, x, -, -, rfl⟩
    · refine ⟨a', es' ++ [⟨.observe, a⟩], rfl, hlisted, fun x hx => ?_⟩
      obtain rfl : a = x := Option.some.inj hx
      simp
    · exact ⟨a', es' ++ [⟨.cloud (.deletePort p.id), a⟩], rfl, hlisted, nofun⟩

/-- A port that is to be deleted was listed first, and judged by a later look at the host. -/
theorem judged_of_follows {es : List (Program.Reply effects)} {id : String}
    {next : Call.Answer (.deletePort id) → Program effects (Except Failure (List Fate))}
    (h : (pass config hostname).Follows es (.ask (.cloud (.deletePort id)) next)) :
    ∃ ps es' p x, es = ⟨.cloud (.portsByTags (PortTags.hostTags hostname)), .ok ps⟩ :: es' ∧
      p ∈ ps ∧ p.id = id ∧ ⟨.observe, x⟩ ∈ es' ∧ judge config x p = .ok () := by
  obtain ⟨q, ⟨hr, -⟩, hes⟩ := h.exists_obeys (M := passMonitor config hostname)
    (H := fun es q => PassState.Recalls hostname es q) (pass_obeys config hostname)
    (show PassState.Recalls hostname [] .listing from rfl)
    fun _ (q : PassState) e a (hes : q.Recalls hostname _) (hr : q.allows config hostname e) =>
      hes.next hr a
  cases q with
  | listing => cases hr
  | treating listed seen =>
    obtain ⟨a, es', rfl, hlisted, hseen⟩ := hes
    rcases hr with hr | ⟨p, hp, x, hx, hjudge, hr⟩
    · cases hr
    · obtain ⟨ps, rfl, hmem⟩ := hlisted p hp
      cases hr
      exact ⟨ps, es', p, x, rfl, hmem, rfl, hseen x hx, hjudge⟩

/-- A port that passes judgement was not plugged in, and old enough. -/
theorem of_judge {s : Sight} {p : Port} (h : judge config s p = .ok ()) :
    p.isPlugged = false ∧ isOlder s.now config.minPortAge p = true := by
  obtain ⟨-, hold, down, unplugged, -⟩ := judge_eq_ok_iff.mp h
  have hdown : p.isDown = true := decide_eq_true down
  exact ⟨by simp [Port.isPlugged, unplugged, hdown], isOlder_iff.mpr hold⟩

end Reaper

/-! ### What becomes of one port -/

/-- A request that unplugs nothing leaves a port plugged in or not, unless it is what plugs it
in. -/
theorem Turnover.isPlugged_iff {ι : Type} {id : String} {k k' : Stock}
    {e : Exchange effects ι Surroundings} (h : Turnover id k k' e.reply)
    (hnew : id ≠ World.portId (k.lastNumber + 1)) (hunplugs : e.request.unplugs = false) {p' : Port}
    (hp' : k'.port? id = some p') :
    ∃ p, k.port? id = some p ∧ (p'.isPlugged = true ↔ p.isPlugged = true ∨ e.Attaches id) := by
  obtain ⟨t, r, a⟩ := e
  change Turnover id k k' ⟨r, a⟩ at h
  cases h with
  | same hr hsame =>
    refine ⟨p', hsame.symm.trans hp', (or_iff_left ?_).symm⟩
    rintro ⟨serverId, y, hreply⟩
    exact hr _ _ hreply rfl
  | created hid _ => exact absurd hid hnew
  | @edited c y f p hc hp hp'' =>
    obtain rfl : f p = p' := Option.some.inj (hp''.symm.trans hp')
    refine ⟨p, hp, ?_⟩
    cases c with
    | assignPort other serverId =>
      obtain ⟨rfl, rfl⟩ := Prod.mk.inj (Option.some.inj hc)
      exact iff_of_true (World.isPlugged_attach serverId p) (.inr ⟨serverId, y, rfl⟩)
    | setPortTags other tags =>
      obtain ⟨rfl, rfl⟩ := Prod.mk.inj (Option.some.inj hc)
      refine (or_iff_left ?_).symm
      rintro ⟨serverId, y, hreply⟩
      cases congrArg Sigma.fst hreply
    | detachPort other serverId => cases hunplugs
    | _ => cases hc
  | deleted _ hnone => cases hnone.symm.trans hp'

/-! ### A pass among commands -/

/-- What the pass and the commands give. -/
abbrev TaskOutcome {κ : Type} : Option κ → Type
  | none => Except Failure (List Reaper.Fate)
  | some _ => Except HandlerError AddReply

/-- A pass of the reaper, and commands to ADD on the same host. -/
def passAmongAdds {κ : Type} (config : ReaperConfig) (h : HostSettings)
    (invocations : κ → Invocation) : (i : Option κ) → Program effects (TaskOutcome i)
  | none => Reaper.pass config h.hostname
  | some k => h.add (invocations k)

/-- The pass and the commands at their turns, each amid its surroundings. -/
def reaping {κ : Type} [DecidableEq κ] (config : ReaperConfig) (h : HostSettings)
    (invocations : κ → Invocation) (start : Site) (ts : List (Turn (Option κ) Surroundings)) :
    Interleaving effects (@TaskOutcome κ) Site Surroundings :=
  Interleaving.run Site.answerAmid { left := passAmongAdds config h invocations, state := start } ts

section

variable {κ : Type} [DecidableEq κ] {config : ReaperConfig} {h : HostSettings}
  {invocations : κ → Invocation} {start : Site} {ts : List (Turn (Option κ) Surroundings)}
  {x : Interleaving effects (@TaskOutcome κ) Site Surroundings}
  {early late after : List (Exchange effects (Option κ) Surroundings)} {id : String}

/-- A listed port is there, as it was listed. -/
theorem Interleaving.Traced.port?_of_listed {ι : Type} [DecidableEq ι] {α : ι → Type}
    {left : (i : ι) → Program effects (α i)} {ts : List (Turn ι Surroundings)}
    {x : Interleaving effects α Site Surroundings} (hx : Traced Site.answerAmid left start ts x)
    {early after : List (Exchange effects ι Surroundings)} {l : Turn ι Surroundings}
    {tags : List String} {ps : List Port}
    (htrace : x.trace = early ++ ⟨l, .cloud (.portsByTags tags), .ok ps⟩ :: after) {p : Port}
    (hp : p ∈ ps) : (stockAfter start early).port? p.id = some p := by
  rcases hx.answered htrace rfl with ⟨now, w, hw, ha⟩ | ⟨_, _, _, _, _, hc, -⟩
  · rw [World.portsByTags_ok ha, List.mem_filter] at hp
    rw [← hw]
    exact World.mem_portList.mp hp.1
  · cases hc

theorem requests_of_reaping
    (hx : Interleaving.Traced Site.answerAmid (passAmongAdds config h invocations) start ts x) :
    ∀ e ∈ x.trace, e.request.unplugs = false ∧
      (e.turn.task ≠ none → e.request.deletes = false) := by
  refine hx.request_of_asks (P := fun i (e : Effect) =>
    e.unplugs = false ∧ (i ≠ none → e.deletes = false)) fun i => ?_
  cases i with
  | none =>
    refine (Reaper.pass_asks config h.hostname).mono fun e he => ⟨?_, fun hne => absurd rfl hne⟩
    rcases he with rfl | rfl | ⟨id, rfl⟩ <;> rfl
  | some k => exact (h.add_asks (invocations k)).mono fun _ he => ⟨he.1, fun _ => he.2⟩

/-- As long as nothing is unplugged, a port is plugged in later if it was before or if it was
plugged in since. -/
theorem isPlugged_iff
    (hx : Interleaving.Traced Site.answerAmid (passAmongAdds config h invocations) start ts x)
    (fresh : start.stock.Fresh) (htrace : x.trace = early ++ (late ++ after)) {p q : Port}
    (hq : (stockAfter start early).port? id = some q)
    (hp : (stockAfter start (early ++ late)).port? id = some p) :
    p.isPlugged = true ↔ q.isPlugged = true ∨ ∃ e ∈ late, e.Attaches id := by
  refine hx.since htrace id (fun l k => ∀ p, k.port? id = some p →
    (p.isPlugged = true ↔ q.isPlugged = true ∨ ∃ e ∈ l, e.Attaches id)) (fun p hp => ?_)
    (fun l e k k' he hle hturn ih p hp => ?_) p hp
  · obtain rfl : q = p := Option.some.inj (hq.symm.trans hp)
    simp
  · have hnew : id ≠ World.portId (k.lastNumber + 1) := by
      rintro rfl
      cases hq.symm.trans (fresh_stockAfter fresh early _ (Nat.lt_succ_of_le hle))
    obtain ⟨p', hp', hiff⟩ := hturn.isPlugged_iff hnew (requests_of_reaping hx e he).1 hp
    rw [hiff, ih p' hp']
    simp [or_and_right, exists_or, or_assoc]

/-- A port that the pass deletes was listed before, unplugged, and was at a later look created more
than the minimum age ago. It is plugged in when it is deleted if and only if it was plugged in
after it was listed. -/
theorem deleted_plugged_iff (fresh : start.stock.Fresh)
    {before : List (Exchange effects (Option κ) Surroundings)} {t : Turn (Option κ) Surroundings}
    {a : Call.Answer (.deletePort id)}
    (htrace : (reaping config h invocations start ts).trace =
      before ++ ⟨t, .cloud (.deletePort id), a⟩ :: after)
    {p : Port} (hp : (stockAfter start before).port? id = some p) :
    ∃ early l ps late q s,
      before = early ++ ⟨l, .cloud (.portsByTags (PortTags.hostTags h.hostname)), .ok ps⟩ :: late ∧
      l.task = none ∧ t.task = none ∧ q ∈ ps ∧ q.id = id ∧ q.isPlugged = false ∧
      ⟨.observe, s⟩ ∈ Exchange.ofTask none late ∧ Reaper.isOlder s.now config.minPortAge q = true ∧
      (p.isPlugged = true ↔ ∃ e ∈ late, e.Attaches id) := by
  have hx : Interleaving.Traced Site.answerAmid (passAmongAdds config h invocations) start ts
      (reaping config h invocations start ts) := Interleaving.traced_run _ _ _
  obtain ⟨task, m⟩ := t
  obtain rfl : task = none := by
    by_contra hne
    cases (requests_of_reaping hx ⟨⟨task, m⟩, .cloud (.deletePort id), a⟩ (by simp [htrace])).2 hne
  obtain ⟨next, hat, -⟩ := hx.at_request htrace
  obtain ⟨ps, es', q, s, hes, hq, rfl, hs, hjudge⟩ := Reaper.judged_of_follows hat
  obtain ⟨early, ⟨l, r, b⟩, late, rfl, hl, hreply, -, rfl⟩ :=
    Exchange.exists_split_of_ofTask (l := []) hes
  cases hreply
  obtain ⟨hunplugged, hold⟩ := Reaper.of_judge hjudge
  refine ⟨early, l, ps, late, q, s, rfl, hl, rfl, hq, rfl, hunplugged, hs, hold, ?_⟩
  have hlisted : (stockAfter start early).port? q.id = some q :=
    hx.port?_of_listed (by rw [htrace, List.append_assoc, List.cons_append]) hq
  have hsince := isPlugged_iff hx fresh (by rw [htrace, List.append_assoc]) hlisted hp
  rw [hsince, hunplugged]
  have hlisting : ¬ Exchange.Attaches q.id (⟨l, .cloud (.portsByTags
      (PortTags.hostTags h.hostname)), .ok ps⟩ : Exchange effects (Option κ) Surroundings) := by
    rintro ⟨serverId, y, hreply⟩
    cases congrArg Sigma.fst hreply
  simp [hlisting]

end

/-- A site where every request takes 100 seconds. -/
def slowSite : Site := { sampleSite .basic with lap := fun _ => .ofSeconds 100 }

/-- An ADD has tagged its port when a pass lists it, and plugs it in before the pass goes on. -/
def slowPass : Interleaving effects (@TaskOutcome Unit) Site Surroundings :=
  reaping {} sampleHost (fun _ => sampleInvocation) slowSite
    (([some (), some (), some (), some (), none, some (), some (), none, none] :
      List (Option Unit)).map fun task => ⟨task, {}⟩)

/-- A port of an ADD that has just ended is deleted, with the default minimum age. -/
theorem deleted_plugged_slowPass :
    slowSite.stock.Fresh ∧ ∃ before p,
      slowPass.trace = before ++ [⟨⟨none, {}⟩, .cloud (.deletePort "port-1"), .ok ()⟩] ∧
        (stockAfter slowSite before).port? "port-1" = some p ∧ p.isPlugged = true ∧
        ∃ early listing late, before = early ++ listing :: late ∧ listing.turn.task = none ∧
          ∃ e ∈ late, e.Attaches "port-1" := by
  have fresh : slowSite.stock.Fresh := fun _ _ => rfl
  have htrace : slowPass.trace =
      slowPass.trace.take 8 ++ [⟨⟨none, {}⟩, .cloud (.deletePort "port-1"), .ok ()⟩] := rfl
  have hplugged : ((stockAfter slowSite (slowPass.trace.take 8)).port? "port-1").map
      Port.isPlugged = some true := by decide +kernel
  obtain ⟨p, hp, hplugged⟩ := Option.map_eq_some_iff.mp hplugged
  obtain ⟨early, l, ps, late, q, s, hbefore, hl, -, -, -, -, -, -, hiff⟩ :=
    deleted_plugged_iff fresh htrace hp
  exact ⟨fresh, _, p, htrace, hp, hplugged, early, _, late, hbefore, hl, hiff.mp hplugged⟩

end ContainerPorts
