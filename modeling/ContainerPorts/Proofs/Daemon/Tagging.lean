import ContainerPorts.Proofs.Daemon.Handling

/-!
# The tags of a port that ADD leaves behind

ADD may be stopped between any two of its calls. The port that it created has all
its tags as soon as the cloud has been asked for them with success. Before that it
has none, and neither DEL nor the reaper can find it.
-/
namespace ContainerPorts

open Cloud

namespace HostSettings

variable (h : HostSettings) (i : Invocation) (s : Site)

/-- The first `n` requests of an ADD created a port. -/
def Created (n : ℕ) (id : String) : Prop :=
  ∃ request extra p, p.id = id ∧
    (h.add i).Answered Site.answer s n (.cloud (.createPort request extra)) (.ok p)

/-- What is left of an ADD that has not tagged its port: it would do so next, or it ends
because it could not. -/
def Untagged (id : String) (rest : Program effects (Except HandlerError AddReply)) : Prop :=
  (∃ next, rest = .ask (.cloud (.setPortTags id (h.tags i))) next) ∨
    ∃ r e, rest = .done (.error (.setup ⟨r, .cloud .setPortTags e⟩))

end HostSettings

namespace Cloud.SetupState

/-- The states in which a given port was created. -/
def About (id : String) (q : SetupState) : Prop := q = .made id ∨ q = .stranded id ∨ q = .tagged id

theorem about_next {tags : List String} {id : String} {q : SetupState} {c : Call} {x : c.Answer}
    (h : q.About id) (hc : q.allows tags c) : (q.next c x).About id := by
  rcases h with rfl | rfl | rfl
  · obtain rfl : c = .setPortTags id tags := hc
    cases x with
    | ok _ => exact .inr (.inr rfl)
    | error e => exact .inr (.inl rfl)
  · exact hc.elim
  · rcases hc with hc | ⟨serverId, rfl⟩
    · rw [next_of_cacheable hc]
      exact .inr (.inr rfl)
    · exact .inr (.inr rfl)

end Cloud.SetupState

namespace HostSettings

variable {h : HostSettings} {i : Invocation} {s s' : Site} {n : ℕ} {id : String}
  {rest : Program effects (Except HandlerError AddReply)}

/-- A port that was not there before was created. -/
theorem created_of_new (ha : (h.add i).after Site.answer n s = some (rest, s'))
    (hold : s.world.port? id = none) (hnew : s'.world.port? id ≠ none) : h.Created i s n id := by
  obtain ⟨m, e, next, s₁, hm, hask, hs₁, hchange⟩ :=
    Program.exists_change (f := fun s : Site => s.stock.port? id) ha (by rwa [← hold] at hnew)
  obtain ⟨q, ⟨hallowed, -⟩, -⟩ := (h.add_obeys i).after (add_tracks (h.tags i) s.stock) rfl hask
  have hnone : s₁.stock.port? id = none := hs₁.trans hold
  have hsome : (s₁.answer e).2.stock.port? id ≠ none := by rwa [← hold]
  obtain ⟨c, rfl, hallowed⟩ := Monitor.exists_call_of_allows hallowed
  have lookup (hc : c.isCacheable) : False :=
    hsome (by rw [Site.stock_answer_of_cacheable hc, hnone])
  have edit {edited : String} {f : Port → Port} (hc : c.isCacheable = false)
      (he : World.Edits edited f s₁.stock (s₁.world.answer s₁.tick.now c))
      (hf : ∀ p, (f p).id = p.id) : False := by
    refine hsome ?_
    rw [Site.stock, (Site.answer_of_not_cacheable hc).2]
    exact he.port?_eq_none hf hnone
  cases q with
  | failed => exact hallowed.elim
  | stranded id => exact hallowed.elim
  | made new =>
    obtain rfl : c = .setPortTags new (h.tags i) := hallowed
    exact (edit rfl (World.setPortTags_edits ..) fun _ => rfl).elim
  | tagged new =>
    rcases hallowed with hc | ⟨serverId, rfl⟩
    · exact (lookup hc).elim
    · exact (edit rfl (World.assignPort_edits ..) fun _ => rfl).elim
  | looking =>
    rcases hallowed with hc | ⟨request, extra, rfl⟩
    · exact (lookup hc).elim
    · rw [Site.stock, (Site.answer_of_not_cacheable rfl).2] at hsome
      rcases World.createPort_cases s₁.tick.now s₁.world request extra with
        ⟨e, -, hs | hs⟩ | ⟨p, hp, -, -, hs⟩
      · exact absurd (by rw [hs]; exact hnone) hsome
      · exact absurd (by rw [hs]; exact hnone) hsome
      · have hid : id = p.id := by
          by_contra hne
          exact hsome (by rw [hs, Stock.port?_put_of_ne hne]; exact hnone)
        exact ⟨request, extra, p, hid.symm, m, next, s₁, hm, hask,
          (Site.answer_of_not_cacheable rfl).1.trans hp⟩

/-- Once its port is created, an ADD is in a state about this port wherever it is stopped. -/
theorem exists_state_of_created (hc : h.Created i s n id)
    (ha : (h.add i).after Site.answer n s = some (rest, s')) :
    ∃ q : SetupState, rest.Obeys (setupMonitor (h.tags i)).onCloud q AddEnds ∧
      q.Holds (h.tags i) s.stock s'.stock ∧ q.About id := by
  obtain ⟨request, extra, p, rfl, hanswered⟩ := hc
  obtain ⟨m, next, s₁, k, hask, hx, hrest⟩ := hanswered.exists_after ha
  obtain ⟨q, hobeys, hq⟩ := (h.add_obeys i).after (add_tracks (h.tags i) s.stock) rfl hask
  obtain ⟨hallowed, hnext⟩ := hobeys
  obtain rfl : q = .looking := by
    cases q with
    | looking => rfl
    | failed => exact hallowed.elim
    | made id => cases hallowed
    | tagged id =>
      rcases hallowed with hcacheable | ⟨serverId, hassign⟩
      · cases hcacheable
      · cases hassign
    | stranded id => exact hallowed.elim
  have hmade := add_tracks (h.tags i) s.stock _ _ _ hq hallowed
  rw [hx] at hmade
  have htracks := (add_tracks (h.tags i) s.stock).and (J := SetupState.About p.id) ?_
  · obtain ⟨q', hobeys', hholds, habout⟩ :=
      (hnext (.ok p)).after htracks ⟨hmade, .inl rfl⟩ hrest
    exact ⟨q', hobeys', hholds, habout⟩
  · intro q e x hq he
    obtain ⟨c, rfl, hallowed⟩ := Monitor.exists_call_of_allows he
    exact SetupState.about_next hq hallowed

/-- A port that an ADD created has all its tags, unless the ADD did not come to tag it, and then
it has no tags. -/
theorem tags_of_created (h : HostSettings) (i : Invocation) (s s' : Site) (n : ℕ)
    (rest : Program effects (Except HandlerError AddReply)) (id : String) (p : Port)
    (ha : (h.add i).after Site.answer n s = some (rest, s')) (hc : h.Created i s n id)
    (hp : s'.world.port? id = some p) :
    p.tags = h.tags i ∨ p.tags = [] ∧ h.Untagged i id rest := by
  obtain ⟨q, hobeys, hholds, habout⟩ := exists_state_of_created hc ha
  have added {tags : List String} (hadded : SetupState.Added s.stock id tags s'.stock) :
      p.tags = tags := by
    obtain ⟨p', hp', htags⟩ := hadded.port
    obtain rfl : p' = p := Option.some.inj (hp'.symm.trans hp)
    exact htags
  rcases habout with rfl | rfl | rfl
  · refine .inr ⟨added hholds, .inl ?_⟩
    cases rest with
    | done a => exact hobeys.elim
    | ask e next =>
      obtain ⟨c, rfl, hallowed⟩ := Monitor.exists_call_of_allows hobeys.1
      obtain rfl : c = .setPortTags id (h.tags i) := hallowed
      exact ⟨next, rfl⟩
  · refine .inr ⟨added hholds, .inr ?_⟩
    cases rest with
    | done a =>
      obtain ⟨r, e, rfl⟩ := hobeys
      exact ⟨r, e, rfl⟩
    | ask e next =>
      obtain ⟨c, -, hallowed⟩ := Monitor.exists_call_of_allows hobeys.1
      exact hallowed.elim
  · exact .inl (added hholds)

/-- Whether nothing is left but a reply. -/
def isReplied : Program effects (Except HandlerError AddReply) → Bool
  | .done (.ok _) => true
  | _ => false

/-- An ADD that is stopped after its fourth request: whether it has replied, and the tags of the
port with the first number. -/
def stoppedSample (world : World) : Option (Bool × Option (List String)) :=
  ((sampleHost.add sampleInvocation).after Site.answer 4 (sampleSite world)).map fun stopped =>
    (isReplied stopped.1, (stopped.2.world.port? "port-1").map Port.tags)

theorem exists_of_stoppedSample {world : World} {tags : List String}
    (hw : world.port? "port-1" = none) (h : stoppedSample world = some (false, some tags)) :
    ∃ rest s' p, (sampleHost.add sampleInvocation).after Site.answer 4 (sampleSite world) =
        some (rest, s') ∧ isReplied rest = false ∧
      sampleHost.Created sampleInvocation (sampleSite world) 4 "port-1" ∧
      s'.world.port? "port-1" = some p ∧ p.tags = tags := by
  obtain ⟨⟨rest, s'⟩, ha, heq⟩ := Option.map_eq_some_iff.mp h
  obtain ⟨hrest, hport⟩ := Prod.mk.inj heq
  obtain ⟨p, hp, htags⟩ := Option.map_eq_some_iff.mp hport
  have hnew : s'.world.port? "port-1" ≠ none := by simp [hp]
  exact ⟨rest, s', p, ha, hrest, created_of_new ha hw hnew, hp, htags⟩

theorem tags_of_created_halfway :
    ∃ rest s' p, (sampleHost.add sampleInvocation).after Site.answer 4 (sampleSite .basic) =
        some (rest, s') ∧ s'.world.port? "port-1" = some p ∧
      (p.tags = sampleHost.tags sampleInvocation ∨
        p.tags = [] ∧ sampleHost.Untagged sampleInvocation "port-1" rest) := by
  have hstopped : stoppedSample .basic = some (false, some (sampleHost.tags sampleInvocation)) := by
    decide +kernel
  obtain ⟨rest, s', p, ha, -, hc, hp, -⟩ := exists_of_stoppedSample rfl hstopped
  exact ⟨rest, s', p, ha, hp, tags_of_created _ _ _ _ _ _ _ _ ha hc hp⟩

/-- A cloud that refuses to tag ports leaves one without tags. -/
theorem not_all_created_tagged :
    ¬ ∀ (h : HostSettings) (i : Invocation) (s s' : Site) (n : ℕ)
      (rest : Program effects (Except HandlerError AddReply)) (id : String) (p : Port),
      (h.add i).after Site.answer n s = some (rest, s') → isReplied rest = false →
        h.Created i s n id → s'.world.port? id = some p → p.tags = h.tags i := by
  intro hall
  have hstopped : stoppedSample (World.basic.refuse .setPortTags "") = some (false, some []) := by
    decide +kernel
  obtain ⟨rest, s', p, ha, hrest, hc, hp, htags⟩ := exists_of_stoppedSample rfl hstopped
  have hfull := hall _ _ _ _ _ _ _ _ ha hrest hc hp
  rw [htags] at hfull
  exact tags_ne_nil _ _ hfull.symm

end HostSettings

end ContainerPorts
