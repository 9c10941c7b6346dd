import ContainerPorts.Proofs.Daemon.Operations

/-!
# How many ports have the tags of an invocation

DEL deletes the first port that has its tags, and ADD creates one without looking
for others. So DEL leaves a port with its tags behind exactly if there were two.
There never are, if each ADD comes when no port has its tags.
-/
namespace ContainerPorts

open Cloud

/-! ### What is left after a deletion -/

theorem Cloud.TeardownState.Holds.clear_iff {tags : List String} {k₀ k : Stock}
    {q : TeardownState} (h : q.Holds tags k₀ k) (hq : q = .absent ∨ ∃ p, q = .deleted p) :
    (∀ p, ¬ k.Carries tags p) ↔ k₀.Sole tags := by
  rcases hq with rfl | ⟨p, rfl⟩
  · obtain ⟨rfl, hnone⟩ := h
    have clear (p : Port) : ¬ k.Carries tags p := by
      rintro ⟨hp, htags⟩
      have hno := hnone p (PortTable.mem_toList.mpr hp)
      rw [Port.carries_iff.mpr htags] at hno
      cases hno
    exact ⟨fun _ p _ hp => absurd hp (clear p), fun _ => clear⟩
  · obtain ⟨hspared, hgone⟩ := h
    have hp : k₀.Carries tags p := ⟨hspared.port?.1, Port.carries_iff.mp hspared.port?.2⟩
    -- A port with another id has the tags after the deletion exactly if it had them before.
    have other {p' : Port} (hne : p'.id ≠ p.id) : k.Carries tags p' ↔ k₀.Carries tags p' := by
      simp only [Stock.Carries, hspared.others _ hne]
    constructor
    · intro hclear p₁ p₂ h₁ h₂
      have only {p' : Port} (hp' : k₀.Carries tags p') : p' = p := by
        by_contra hne
        exact hclear p' ((other fun hid => hne (hp'.eq_of_id hp hid)).mpr hp')
      rw [only h₁, only h₂]
    · rintro hsole p' ⟨hp', htags⟩
      have hne : p'.id ≠ p.id := by
        rintro hid
        rw [hid, hgone] at hp'
        cases hp'
      exact hne (congrArg Port.id (hsole p' p ((other hne).mp ⟨hp', htags⟩) hp))

/-! ### When a deletion succeeds -/

def Cloud.Call.Succeeds (c : Call) (x : c.Answer) : Prop := ∃ y, x = .ok y

theorem Cloud.Call.not_succeeds_error {c : Call} {e : Failure} :
    ¬ c.Succeeds (.error e) := nofun

/-- Tearing down a port succeeds if all its calls do. -/
theorem Cloud.teardownPort_obeys_judging (o : TeardownOptions) (sofar : Prop) :
    (teardownPort o).Obeys (Monitor.judging Call.Succeeds) sofar
      fun a sofar => sofar → a = .ok () := by
  have failed {a : Except PortError Unit} {c : Call} {e : Failure} {sofar : Prop}
      (h : sofar ∧ c.Succeeds (.error e)) : a = .ok () := absurd h.2 Call.not_succeeds_error
  have delete (id : String) (sofar : Prop) :
      (attempt (.cloud .deletePort) (.deletePort id)).run.Obeys (Monitor.judging Call.Succeeds)
        sofar fun a sofar => sofar → a = .ok () := by
    refine Program.Obeys.perform_bind trivial fun x => ?_
    cases x with
    | ok _ => exact fun _ => rfl
    | error e => exact failed
  refine Program.Obeys.perform_bind trivial fun x => ?_
  cases x with
  | error e =>
    cases e with
    | notFound kind => cases kind <;> exact failed
    | _ => exact failed
  | ok p =>
    dsimp only
    unfold unplugged
    split
    · exact delete p.id _
    · change Program.Obeys _ (_ >>= _ >>= _ : ExceptT PortError (Program calls) Unit).run _ _
      rw [bind_assoc]
      refine attempt_obeys trivial (fun server => ?_) fun e => failed
      refine attempt_obeys trivial (fun _ => ?_) fun e => failed
      exact delete p.id _

/-- A call gave a result; other requests cannot fail. -/
def Effect.Succeeds : (e : Effect) → e.Answer → Prop
  | .cloud c, x => c.Succeeds x
  | .file _, _ => True
  | .pause _, _ => True
  | .observe, _ => True
  | .clock, _ => True

theorem Program.Obeys.onCloud_judging {α : Type} {p : Program calls α} {sofar : Prop}
    {post : α → Prop → Prop} (h : p.Obeys (Monitor.judging Call.Succeeds) sofar post) :
    (Effect.onCloud p).Obeys (Monitor.judging Effect.Succeeds) sofar post := by
  induction p generalizing sofar with
  | done a => exact h
  | ask c next ih => exact ⟨trivial, fun x => ih x (h.2 x)⟩

namespace HostSettings

variable (h : HostSettings) (i : Invocation) (s : Site)

theorem teardownKnown_obeys_judging {c : Context} (hc : h.context i = .ok c) :
    (h.teardownKnown i).Obeys (Monitor.judging Effect.Succeeds) True
      fun a sofar => sofar → a = .ok () := by
  unfold teardownKnown
  rw [hc]
  have hteardown := teardownPort_obeys_judging (.ofContext c (h.tags i)) True
  refine Program.Obeys.bind (hteardown.onCloud_judging.mono ?_)
  rintro (e | a) sofar ha
  · intro hs
    cases ha hs
  · exact fun _ => rfl

/-- Tearing down succeeds if the configuration can be read and all calls succeed. -/
theorem teardown_ok {c : Context} (hc : h.context (h.recovered i s) = .ok c)
    (hcalls : ∀ n e x, (h.teardown i).Answered Site.answer s n e x → Effect.Succeeds e x) :
    (s.run (h.teardown i)).1 = .ok () := by
  rw [run_teardown_eq]
  refine (h.teardownKnown_obeys_judging _ hc).of_answered trivial fun n e x hx => ?_
  obtain ⟨n', hn⟩ := Program.Answered.bind hx
  exact hcalls n' e x hn

theorem tags_eq_of_subset {h : HostSettings} {i j : Invocation} (hij : h.tags i ⊆ h.tags j) :
    h.tags i = h.tags j := congrArg PortTags.toList (PortTags.eq_of_toList_subset hij)

end HostSettings

/-! ### Why there is at most one port -/

/-- A new port is no second one if it lacks one of the tags, or if no port had them all. -/
theorem Cloud.SetupState.Added.sole {k₀ k : Stock} {id : String} {tags new : List String}
    (h : SetupState.Added k₀ id new k) (hsole : k₀.Sole tags)
    (hnew : tags ⊆ new → ∀ p, ¬ k₀.Carries tags p) : k.Sole tags := by
  obtain ⟨made, hmade, rfl⟩ := h.port
  have old {p : Port} (hp : k.Carries tags p) (hid : p.id ≠ id) : k₀.Carries tags p :=
    ⟨by rw [← h.others _ hid]; exact hp.1, hp.2⟩
  have unlike {p q : Port} (hp : k.Carries tags p) (hq : k.Carries tags q) (hid : p.id = id)
      (hne : q.id ≠ id) : False := by
    have hport := hp.1
    rw [hid, hmade] at hport
    obtain rfl := Option.some.inj hport
    exact hnew hp.2 q (old hq hne)
  intro p q hp hq
  by_cases hpid : p.id = id
  · by_cases hqid : q.id = id
    · exact hp.eq_of_id hq (hpid.trans hqid.symm)
    · exact (unlike hp hq hpid hqid).elim
  · by_cases hqid : q.id = id
    · exact (unlike hq hp hqid hpid).elim
    · exact hsole p q (old hp hpid) (old hq hqid)

namespace Operation

variable {h : HostSettings} {d : Daemon}

/-- An ADD that comes when no port has its tags. -/
def First (h : HostSettings) (s : Site × Metrics) : Operation → Prop
  | .add i => ∀ p, ¬ s.1.stock.Carries (h.tags i) p
  | _ => True

/-- Every ADD of a run comes when no port has its tags. -/
def AllFirst (h : HostSettings) (d : Daemon) (s : Site × Metrics) : List Operation → Prop
  | [] => True
  | o :: os => o.First h s ∧ AllFirst h d (o.apply h d s) os

theorem sole_apply {s : Site × Metrics} {o : Operation} {i : Invocation}
    (ho : o.First h s) (hs : s.1.stock.Sole (h.tags i)) :
    (o.apply h d s).1.stock.Sole (h.tags i) := by
  cases o with
  | add j =>
    obtain ⟨q, -, hq⟩ := h.run_add j s.1
    have same (hk : ∀ id, (s.1.run (h.add j)).2.stock.port? id = s.1.stock.port? id) :
        (s.1.run (h.add j)).2.stock.Sole (h.tags i) :=
      hs.of_tags fun p' hp' => ⟨p', (hk p'.id).symm.trans hp', rfl⟩
    have untagged {id : String}
        (ha : SetupState.Added s.1.stock id [] (s.1.run (h.add j)).2.stock) :
        (s.1.run (h.add j)).2.stock.Sole (h.tags i) :=
      ha.sole hs fun hempty => absurd (List.subset_nil.mp hempty) (h.tags_ne_nil i)
    cases q with
    | looking => exact same fun id => congrArg (Stock.port? · id) hq
    | failed => exact same fun id => by rcases hq with hq | hq <;> rw [hq]; rfl
    | made id => exact untagged hq
    | stranded id => exact untagged hq
    | tagged id =>
      refine SetupState.Added.sole hq hs fun hsubset => ?_
      rw [HostSettings.tags_eq_of_subset hsubset]
      exact ho
  | del j =>
    obtain ⟨q, -, hq⟩ := h.run_teardown j s.1
    simp only [apply, h.run_del]
    exact hs.of_tags fun p' hp' => hq.tags_eq hp'
  | reap =>
    simp only [apply, stock_reap]
    obtain ⟨-, hports⟩ := Reaper.run_pass d.reaper d.hostname s.1
    refine hs.of_tags fun p' hp' => ?_
    rcases hports p'.id with hsame | ⟨hgone, -⟩
    · exact ⟨p', hsame.symm.trans hp', rfl⟩
    · cases hp'.symm.trans hgone
  | _ =>
    rw [stock_apply rfl]
    exact hs

theorem sole_run {s : Site × Metrics} {os : List Operation} {i : Invocation}
    (hos : AllFirst h d s os) (hs : s.1.stock.Sole (h.tags i)) :
    (run h d s os).1.stock.Sole (h.tags i) := by
  induction os generalizing s with
  | nil => exact hs
  | cons o os ih => exact ih hos.2 (sole_apply hos.1 hs)

/-- After any run, a deletion that succeeds clears the ports with its tags exactly if there was
at most one. That is so if each ADD of the run came when no port had its tags. -/
theorem del_clears_iff (h : HostSettings) (d : Daemon) (s : Site × Metrics) (os : List Operation)
    (i : Invocation) (hok : ((run h d s os).1.run (h.teardown i)).1 = .ok ()) :
    let s' := (run h d s os).1
    let tags := h.tags (h.recovered i s')
    ((∀ p, ¬ (s'.run (h.del i)).2.stock.Carries tags p) ↔ s'.stock.Sole tags) ∧
      (AllFirst h d s os → s.1.stock.Sole tags → s'.stock.Sole tags) := by
  intro s' tags
  obtain ⟨q, hends, hholds⟩ := h.run_teardown i s'
  rw [hok] at hends
  rw [h.run_del]
  exact ⟨hholds.clear_iff hends, sole_run⟩

/-- The site after an ADD that could not plug in its port, and the same ADD again. -/
def repeatedAdd : Site :=
  (run sampleHost sampleDaemon (sampleSite .basic, {})
    [.refuse .assignPort "", .add sampleInvocation, .heal, .add sampleInvocation]).1

/-- An ADD that is repeated after a failure leaves a port that its DEL does not find. -/
theorem del_leaves_port_of_repeatedAdd :
    (repeatedAdd.run (sampleHost.teardown sampleInvocation)).1 = .ok () ∧
      ¬ repeatedAdd.stock.Sole (sampleHost.tags sampleInvocation) ∧
        ¬ ∀ p, ¬ (repeatedAdd.run (sampleHost.del sampleInvocation)).2.stock.Carries
          (sampleHost.tags sampleInvocation) p := by
  have hok : (repeatedAdd.run (sampleHost.teardown sampleInvocation)).1 = .ok () := by
    decide +kernel
  have hleft : ((repeatedAdd.run (sampleHost.del sampleInvocation)).2.stock.port? "port-2").map
      Port.tags = some (sampleHost.tags sampleInvocation) := by decide +kernel
  obtain ⟨p, hp, htags⟩ := Option.map_eq_some_iff.mp hleft
  have hcarries : (repeatedAdd.run (sampleHost.del sampleInvocation)).2.stock.Carries
      (sampleHost.tags sampleInvocation) p := by
    have hid : p.id = "port-2" := Stock.id_of_port? hp
    refine ⟨by rwa [hid], ?_⟩
    rw [htags]
    exact List.Subset.refl _
  have hclear := (del_clears_iff sampleHost sampleDaemon (sampleSite .basic, {})
    [.refuse .assignPort "", .add sampleInvocation, .heal, .add sampleInvocation]
    sampleInvocation hok).1
  exact ⟨hok, fun hsole => hclear.mpr hsole p hcarries, fun hnone => hnone p hcarries⟩

end Operation

end ContainerPorts
