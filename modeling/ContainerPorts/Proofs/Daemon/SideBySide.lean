import ContainerPorts.Proofs.Daemon.Commands
import ContainerPorts.Proofs.Interleaving

/-!
# Commands side by side

Every command is compared with the same command alone at a site of its own, where
as many numbers have been used up as new ports were asked for before its own. The
two ask the same, and the sites agree on the share of the command, because no other
command touches a port of this share. So what a command replies, and what becomes of
its ports, does not depend on when the others had their turns.
-/
namespace ContainerPorts

open Cloud

/-- The site at which some more numbers have been used up. -/
def Site.skipping (s : Site) (n : ℕ) : Site :=
  { s with world := { s.world with lastNumber := s.world.lastNumber + n } }

namespace Command

/-- A command under way at a shared world, and the same command alone, at a site of its own. -/
def Paired (c : Command) (s₀ : Site) (asked : List (Program.Reply effects))
    (left : Program effects c.Reply) (w : World) : Prop :=
  ∃ p v, left.Alike Effect.Alike (fun a b => undatedReply a = undatedReply b) p ∧
    p.Along Site.answer (Alone s₀.stock c.tags.toList) (Footprint s₀.stock c.tags.toList) v ∧
    w.Agree (s₀.stock.Share c.tags.toList) v.world ∧
    p.runWith Site.answer v = c.program.runWith Site.answer s₀ ∧
    asked.map Sigma.fst ++ p.requests Site.answer v = c.program.requests Site.answer s₀

namespace Paired

variable {c : Command} {s₀ : Site} {asked : List (Program.Reply effects)}
  {left : Program effects c.Reply} {w w' : World}

theorem start (hc : c.invocation.netns ≠ "") (hs : s₀.cache = none)
    (hw : w.Agree (s₀.stock.Share c.tags.toList) s₀.world) : c.Paired s₀ [] c.program w :=
  ⟨c.program, s₀, program_alike hc, program_along hc hs, hw, rfl, rfl⟩

/-- What others do outside the share makes no difference. -/
theorem congr (h : c.Paired s₀ asked left w) (hf : w'.furniture = w.furniture)
    (hports : ∀ id, s₀.stock.Share c.tags.toList id → w'.port? id = w.port? id) :
    c.Paired s₀ asked left w' := by
  obtain ⟨p, v, halike, halong, hagree, hrun, hasked⟩ := h
  refine ⟨p, v, halike, halong, hagree.congr hf rfl fun id hid => ?_, hrun, hasked⟩
  exact (World.SamePort.of_eq (hports id hid)).trans (hagree.ports id hid)

/-- What a command asks next is about its share, and asks for a new port only at the beginning. -/
theorem exists_call {e : Effect} {next : e.Answer → Program effects c.Reply}
    (h : c.Paired s₀ asked (.ask e next) w) :
    ∃ call, e = .cloud call ∧ call.Within (s₀.stock.Share c.tags.toList) c.tags.toList := by
  obtain ⟨p, v, halike, halong, -⟩ := h
  obtain ⟨next', rfl, -⟩ := halike.exists_of_ask
  obtain ⟨-, ⟨call, he, hwithin, -⟩, -⟩ | ⟨-, ⟨call, he, hwithin, -⟩, -⟩ := halong
  exact ⟨call, he, hwithin⟩

/-- Both get alike answers, as long as all ports with the tags are in the share, and a new port gets
the number that it gets alone. -/
theorem answer {m : Site} {e : Effect} {next : e.Answer → Program effects c.Reply}
    (h : c.Paired s₀ asked (.ask e next) m.world) (hm : m.cache = none)
    (hholds : m.world.Holds (s₀.stock.Share c.tags.toList) c.tags.toList)
    (hnumber : e.creates = true → m.world.refusal? .createPort = none →
      m.world.lastNumber = s₀.world.lastNumber) :
    c.Paired s₀ (asked ++ [⟨e, (m.answer e).1⟩]) (next (m.answer e).1) (m.answer e).2.world := by
  obtain ⟨p, v, halike, halong, hagree, hrun, hasked⟩ := h
  obtain ⟨next', rfl, hnext⟩ := halike.exists_of_ask
  cases halong with
  | ask halone hfootprint hrest =>
    obtain ⟨call, rfl, hwithin, hcreate⟩ := hfootprint
    obtain ⟨hanswer, hafter⟩ := hagree.answer hwithin hholds halone.tagged.holds
      (fun hcreates hr =>
        (hnumber hcreates hr).trans (congrArg Stock.lastNumber (hcreate hcreates)).symm)
      m.tick.now v.tick.now
    refine ⟨next' (v.answer (.cloud call)).1, (v.answer (.cloud call)).2, ?_, hrest, ?_, hrun, ?_⟩
    · rw [Site.answer_of_uncached hm, Site.answer_of_uncached halone.uncached]
      exact hnext _ _ hanswer
    · rw [Site.answer_of_uncached hm, Site.answer_of_uncached halone.uncached]
      exact hafter
    · rw [← hasked, List.map_append, List.append_assoc]
      rfl

/-- Of a command that has ended, the one alone has ended in the same way. -/
theorem of_done {a : c.Reply} (h : c.Paired s₀ asked (.done a) w) :
    undatedReply a = undatedReply (s₀.run c.program).1 ∧
      w.Agree (s₀.stock.Share c.tags.toList) (s₀.run c.program).2.world ∧
      asked.map Sigma.fst = c.program.requests Site.answer s₀ := by
  obtain ⟨p, v, halike, -, hagree, hrun, hasked⟩ := h
  obtain ⟨b, rfl, hab⟩ := halike.exists_of_done
  rw [Site.run, ← hrun]
  exact ⟨hab, hagree, by simpa [Program.requests] using hasked⟩

/-- What a command asks next, it asks when it is alone. -/
theorem mem_requests {e : Effect} {next : e.Answer → Program effects c.Reply}
    (h : c.Paired s₀ asked (.ask e next) w) : e ∈ c.program.requests Site.answer s₀ := by
  obtain ⟨p, v, halike, -, -, -, hasked⟩ := h
  obtain ⟨next', rfl, -⟩ := halike.exists_of_ask
  rw [← hasked]
  exact List.mem_append_right _ (List.mem_cons_self ..)

end Paired

end Command

/-! ### All commands -/

/-- Commands that identify different ports, at a site where ports are identified. -/
structure Separate {ι : Type} (commands : ι → Command) (s : Site) : Prop where
  uncached : s.cache = none
  /-- Every port has no tags, or those that identify the port of some invocation. -/
  identified : ∀ p, s.world.port? p.id = some p → p.tags = [] ∨ ∃ t : PortTags, p.tags = t.toList
  fresh : s.stock.Fresh
  netns : ∀ i, (commands i).invocation.netns ≠ ""
  distinct : Function.Injective fun i => (commands i).tags

/-- The share of a task that has its new port after `n` others. -/
def shareOf {ι : Type} (commands : ι → Command) (s : Site) (n : ℕ) (i : ι) (id : String) : Prop :=
  (s.skipping n).stock.Share (commands i).tags.toList id

theorem PortTags.not_toList_subset_nil (t : PortTags) : ¬ t.toList ⊆ [] := fun hsub =>
  List.not_mem_nil (hsub (by simp [toList] : marker ∈ _))

namespace Separate

variable {ι : Type} {commands : ι → Command} {s : Site} (h : Separate commands s)

include h

/-- Whoever has the tags of a command among its own tags has no others. -/
theorem eq_of_subset {i j : ι} (hsub : (commands i).tags.toList ⊆ (commands j).tags.toList) :
    i = j := h.distinct (PortTags.eq_of_toList_subset hsub)

variable {ahead : ι → ℕ}

/-- No port is in two shares. -/
theorem eq_of_share (hahead : Function.Injective ahead) {i j : ι} {id : String}
    (hi : shareOf commands s (ahead i) i id) (hj : shareOf commands s (ahead j) j id) : i = j := by
  have new (n : ℕ) : s.stock.port? (World.portId (s.world.lastNumber + n + 1)) = none :=
    h.fresh _ (by change s.world.lastNumber < _; omega)
  rcases hi with hi | ⟨p, hp, hpi⟩
  · rcases hj with hj | ⟨q, hq, -⟩
    · have hnumber := World.portId_injective (hi.symm.trans hj)
      refine hahead ?_
      change s.world.lastNumber + ahead i + 1 = s.world.lastNumber + ahead j + 1 at hnumber
      omega
    · rw [hi] at hq
      cases hq.symm.trans (new (ahead i))
  · rcases hj with hj | ⟨q, hq, hqj⟩
    · rw [hj] at hp
      cases hp.symm.trans (new (ahead j))
    · obtain rfl : p = q := Option.some.inj (hp.symm.trans hq)
      have hport : s.world.port? p.id = some p := by
        have hid : p.id = id := Stock.id_of_port? hp
        rw [hid]
        exact hp
      rcases h.identified p hport with hnil | ⟨t, ht⟩
      · rw [hnil] at hpi
        exact absurd hpi (PortTags.not_toList_subset_nil _)
      · rw [ht] at hpi hqj
        refine h.distinct ?_
        exact (PortTags.eq_of_toList_subset hpi).trans (PortTags.eq_of_toList_subset hqj).symm

/-- The ports with the tags of a command are all in its share, also while others are under way. -/
theorem holds_share {w : World} {asked : ι → List (Program.Reply effects)}
    {left : (i : ι) → Program effects (commands i).Reply}
    (hframe : ∀ id, (∀ i, ¬ shareOf commands s (ahead i) i id) → w.port? id = s.world.port? id)
    (hpaired : ∀ i, (commands i).Paired (s.skipping (ahead i)) (asked i) (left i) w) (i : ι) :
    w.Holds (shareOf commands s (ahead i) i) (commands i).tags.toList := by
  intro p hp htags
  by_cases hshared : ∃ j, shareOf commands s (ahead j) j p.id
  · obtain ⟨j, hj⟩ := hshared
    obtain ⟨q, v, -, halong, hagree, -⟩ := hpaired j
    obtain ⟨p', hp', hsame⟩ := hagree.exists_port hj hp
    rcases halong.state.tagged p' hp' with ⟨p₀, hp₀, htags₀⟩ | ⟨-, hnew⟩
    · refine .inr ⟨p₀, ?_, ?_⟩
      · rw [Port.id_eq hsame]
        exact hp₀
      · rwa [htags₀, ← Port.tags_eq hsame]
    · rw [Port.tags_eq hsame] at htags
      rcases hnew with hnil | hnew
      · rw [hnil] at htags
        exact absurd htags (PortTags.not_toList_subset_nil _)
      · rw [hnew] at htags
        rwa [h.eq_of_subset htags]
  · have hport := hframe p.id fun j hj => hshared ⟨j, hj⟩
    exact .inr ⟨p, hport.symm.trans hp, htags⟩

end Separate

/-! ### Any interleaving -/

section

variable {ι : Type}

/-- The tasks of the requests for new ports, in their order. -/
def creators (es : List (Exchange effects ι Unit)) : List ι :=
  (es.filter fun e => Effect.creates e.request).map fun e => e.turn.task

theorem creators_concat (es : List (Exchange effects ι Unit)) (t : Turn ι Unit) (e : Effect)
    (a : e.Answer) :
    creators (es ++ [⟨t, e, a⟩]) = creators es ++ if e.creates then [t.task] else [] := by
  cases hcreates : e.creates <;> simp [creators, hcreates]

/-- The number of new ports that come before the one of a task. -/
def Numbered (ahead : ι → ℕ) (is : List ι) : Prop :=
  ∀ before i after, is = before ++ i :: after → ahead i = before.length

theorem Numbered.of_prefix {ahead : ι → ℕ} {is js : List ι} (h : Numbered ahead js)
    (hbegins : is <+: js) : Numbered ahead is := by
  obtain ⟨rest, rfl⟩ := hbegins
  intro before i after his
  exact h before i (after ++ rest) (by simp [his])

theorem creators_mono {es es' : List (Exchange effects ι Unit)} (h : es <+: es') :
    creators es <+: creators es' := (h.filter _).map _

variable [DecidableEq ι]

/-- Commands at one site, at their turns. -/
def sideBySide (commands : ι → Command) (s : Site) (ts : List (Turn ι Unit)) :
    Interleaving effects (fun i => (commands i).Reply) Site Unit :=
  Interleaving.run (fun _ => Site.answer) { left := fun i => (commands i).program, state := s } ts

variable {commands : ι → Command} {s : Site}

/-- What is known of commands under way. -/
structure Simulated (commands : ι → Command) (s : Site) (ahead : ι → ℕ)
    (x : Interleaving effects (fun i => (commands i).Reply) Site Unit) : Prop where
  uncached : x.state.cache = none
  furniture : x.state.world.furniture = s.world.furniture
  number : s.world.refusal? .createPort = none →
    x.state.world.lastNumber = s.world.lastNumber + (creators x.trace).length
  frame : ∀ id, (∀ i, ¬ shareOf commands s (ahead i) i id) →
    x.state.world.port? id = s.world.port? id
  paired : ∀ i, (commands i).Paired (s.skipping (ahead i)) (Exchange.ofTask i x.trace) (x.left i)
    x.state.world

theorem simulated_start (h : Separate commands s) (ahead : ι → ℕ) :
    Simulated commands s ahead { left := fun i => (commands i).program, state := s } where
  uncached := h.uncached
  furniture := rfl
  number _ := rfl
  frame _ _ := rfl
  paired i := .start (h.netns i) h.uncached ⟨rfl, fun _ _ => rfl⟩

theorem Simulated.turn {x : Interleaving effects (fun i => (commands i).Reply) Site Unit}
    {ahead : ι → ℕ} (hx : Simulated commands s ahead x) (h : Separate commands s)
    (hahead : Function.Injective ahead) (t : Turn ι Unit)
    (hnumbered : Numbered ahead (creators (x.turn (fun _ => Site.answer) t).trace)) :
    Simulated commands s ahead (x.turn (fun _ => Site.answer) t) := by
  cases hp : x.left t.task with
  | done a => rwa [Interleaving.turn_of_done hp]
  | ask e next =>
    rw [Interleaving.turn_of_ask hp] at hnumbered ⊢
    rw [creators_concat] at hnumbered
    have hown := hx.paired t.task
    rw [hp] at hown
    obtain ⟨call, rfl, hwithin⟩ := hown.exists_call
    have hnumber (hcreates : call.creates = true)
        (hr : x.state.world.refusal? .createPort = none) :
        x.state.world.lastNumber = s.world.lastNumber + ahead t.task := by
      have hcreates' : (Effect.cloud call).creates = true := hcreates
      rw [hcreates', if_pos rfl] at hnumbered
      rw [World.refusal?_eq hx.furniture] at hr
      rw [hx.number hr, hnumbered _ _ _ rfl]
    have hafter : (x.state.answer (.cloud call)).2.world =
        (x.state.world.answer x.state.tick.now call).2 :=
      congrArg (fun r => r.2.world) (Site.answer_of_uncached hx.uncached call)
    have hfurniture : (x.state.answer (.cloud call)).2.world.furniture =
        x.state.world.furniture := by
      rw [hafter]
      exact World.furniture_answer
    have htouched {id : String} (hid : ¬ shareOf commands s (ahead t.task) t.task id) :
        (x.state.answer (.cloud call)).2.world.port? id = x.state.world.port? id := by
      rw [hafter]
      exact World.port?_answer_of_within hwithin
        (fun hcreates hr => .inl (congrArg (World.portId <| · + 1) (hnumber hcreates hr))) hid
    refine ⟨Site.uncached_answer _ hx.uncached, hfurniture.trans hx.furniture, fun hr => ?_,
      fun id hid => (htouched (hid _)).trans (hx.frame id hid), fun i => ?_⟩
    · have hr' : x.state.world.refusal? .createPort = none := by
        rwa [World.refusal?_eq hx.furniture]
      rw [creators_concat, List.length_append, ← Nat.add_assoc, ← hx.number hr]
      dsimp only
      rw [hafter, World.lastNumber_answer]
      cases hcreates : call.creates <;> simp [Effect.creates, hcreates, hr']
    · dsimp only
      by_cases hi : t.task = i
      · subst hi
        rw [Exchange.ofTask_concat_self, Function.update_self]
        exact hown.answer hx.uncached (h.holds_share hx.frame hx.paired t.task) hnumber
      · rw [Exchange.ofTask_concat_of_ne _ hi, Function.update_of_ne (Ne.symm hi)]
        refine (hx.paired i).congr hfurniture fun id hid => htouched fun hid' => hi ?_
        exact h.eq_of_share hahead hid' hid

/-- Commands side by side are simulated by the same commands alone, under any numbering of the new
ports that fits. -/
theorem simulated_run (h : Separate commands s) {ahead : ι → ℕ} (hahead : Function.Injective ahead)
    {ts : List (Turn ι Unit)} (hnumbered : Numbered ahead (creators (sideBySide commands s ts).trace)) :
    Simulated commands s ahead (sideBySide commands s ts) := by
  induction ts using List.reverseRecOn with
  | nil => exact simulated_start h ahead
  | append_singleton ts t ih =>
    rw [sideBySide, Interleaving.run_concat] at hnumbered ⊢
    have hbefore := hnumbered.of_prefix (creators_mono (Interleaving.trace_prefix_turn _ t))
    exact (ih hbefore).turn h hahead t hnumbered

namespace Simulated

variable {ahead : ι → ℕ} {x y : Interleaving effects (fun i => (commands i).Reply) Site Unit}

/-- Commands that have ended leave the same ports, however they were interleaved. -/
theorem samePort (hx : Simulated commands s ahead x) (hy : Simulated commands s ahead y)
    (hxend : ∀ i, ∃ a, x.left i = .done a) (hyend : ∀ i, ∃ a, y.left i = .done a) (id : String) :
    x.state.world.SamePort y.state.world id := by
  by_cases hshared : ∃ i, shareOf commands s (ahead i) i id
  · obtain ⟨i, hi⟩ := hshared
    obtain ⟨a, ha⟩ := hxend i
    obtain ⟨b, hb⟩ := hyend i
    obtain ⟨-, hxagree, -⟩ := (ha ▸ hx.paired i).of_done
    obtain ⟨-, hyagree, -⟩ := (hb ▸ hy.paired i).of_done
    exact (hxagree.ports id hi).trans (hyagree.ports id hi).symm
  · have hoff (i : ι) : ¬ shareOf commands s (ahead i) i id := fun hi => hshared ⟨i, hi⟩
    exact .of_eq ((hx.frame id hoff).trans (hy.frame id hoff).symm)

/-- They also reply the same. -/
theorem sameReply (hx : Simulated commands s ahead x) (hy : Simulated commands s ahead y) {i : ι}
    {a b : (commands i).Reply} (ha : x.left i = .done a) (hb : y.left i = .done b) :
    undatedReply a = undatedReply b :=
  (ha ▸ hx.paired i).of_done.1.trans (hb ▸ hy.paired i).of_done.1.symm

end Simulated

end

end ContainerPorts
