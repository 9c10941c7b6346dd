import ContainerPorts.Proofs.Cloud.Shares
import ContainerPorts.Proofs.Daemon.Handling

/-!
# What a command touches

The share of a command are the ports that carry its tags, and the next new port.
Alone at a site without a cache, a command makes calls within its share only, it
asks for at most one new port, and it asks for that one while the stock of ports is
still as it was in the beginning.
-/
namespace ContainerPorts

open Cloud

/-- The ports with certain tags, and the next new one. -/
def Cloud.Stock.Share (k : Stock) (tags : List String) (id : String) : Prop :=
  id = World.portId (k.lastNumber + 1) ∨ ∃ p, k.port? id = some p ∧ tags ⊆ p.tags

/-- Every port has the tags that it had, and a new one has no tags or those given. -/
def Cloud.Stock.Tagged (k₀ : Stock) (tags : List String) (k : Stock) : Prop :=
  ∀ p, k.port? p.id = some p → (∃ p₀, k₀.port? p.id = some p₀ ∧ p₀.tags = p.tags) ∨
    p.id = World.portId (k₀.lastNumber + 1) ∧ (p.tags = [] ∨ p.tags = tags)

theorem Cloud.Stock.Tagged.holds {k₀ : Stock} {tags : List String} {w : World}
    (h : k₀.Tagged tags w.stock) : w.Holds (k₀.Share tags) tags := by
  intro p hp htags
  rcases h p hp with ⟨p₀, hp₀, hsame⟩ | ⟨hid, -⟩
  · exact .inr ⟨p₀, hp₀, by rwa [hsame]⟩
  · exact .inl hid

namespace Cloud.SetupState

variable {tags : List String} {k₀ k : Stock}

theorem Added.tagged {id : String} {ts : List String} (h : Added k₀ id ts k)
    (hts : ts = [] ∨ ts = tags) : k₀.Tagged tags k := by
  intro p hp
  by_cases hid : p.id = id
  · obtain ⟨p', hp', rfl⟩ := h.port
    rw [hid] at hp
    obtain rfl := Option.some.inj (hp'.symm.trans hp)
    exact .inr ⟨hid.trans h.id_eq, hts⟩
  · exact .inl ⟨p, by rwa [← h.others _ hid], rfl⟩

theorem Holds.tagged {q : SetupState} (h : q.Holds tags k₀ k) : k₀.Tagged tags k := by
  have same {k : Stock} (hk : ∀ id, k.port? id = k₀.port? id) : k₀.Tagged tags k :=
    fun p hp => .inl ⟨p, by rwa [← hk], rfl⟩
  cases q with
  | looking =>
    obtain rfl : k = k₀ := h
    exact same fun _ => rfl
  | failed =>
    rcases h with rfl | rfl
    · exact same fun _ => rfl
    · exact same fun _ => rfl
  | made id => exact Added.tagged h (.inl rfl)
  | stranded id => exact Added.tagged h (.inl rfl)
  | tagged id => exact Added.tagged h (.inr rfl)

theorem Holds.within {q : SetupState} {c : Call} (h : q.Holds tags k₀ k) (hc : q.allows tags c) :
    c.Within (k₀.Share tags) tags ∧ (c.creates = true → k = k₀) := by
  have lookup (hc : c.isCacheable) :
      c.Within (k₀.Share tags) tags ∧ (c.creates = true → k = k₀) :=
    ⟨Call.within_of_cacheable hc, by simp [Call.creates_of_cacheable hc]⟩
  cases q with
  | looking =>
    rcases hc with hc | ⟨r, x, rfl⟩
    · exact lookup hc
    · exact ⟨trivial, fun _ => h⟩
  | made id =>
    obtain rfl : c = .setPortTags id tags := hc
    exact ⟨.inl (Added.id_eq h), nofun⟩
  | tagged id =>
    rcases hc with hc | ⟨serverId, rfl⟩
    · exact lookup hc
    · exact ⟨.inl (Added.id_eq h), nofun⟩
  | failed => exact hc.elim
  | stranded id => exact hc.elim

end Cloud.SetupState

namespace Cloud.TeardownState

variable {tags : List String} {k₀ k : Stock}

theorem Holds.within {q : TeardownState} {c : Call} (h : q.Holds tags k₀ k)
    (hc : q.allows tags c) : c.Within (k₀.Share tags) tags ∧ c.creates = false := by
  cases q with
  | seeking =>
    obtain rfl : c = .portByTags tags := hc
    exact ⟨rfl, rfl⟩
  | found p =>
    have hp : k₀.Share tags p.id := by
      obtain ⟨hport, hcarries⟩ := h.1.port?
      exact .inr ⟨p, hport, Port.carries_iff.mp hcarries⟩
    rcases hc with ⟨name, rfl⟩ | ⟨serverId, rfl⟩ | rfl
    · exact ⟨trivial, rfl⟩
    · exact ⟨hp, rfl⟩
    · exact ⟨hp, rfl⟩
  | absent => exact hc.elim
  | failed => exact hc.elim
  | deleted p => exact hc.elim

end Cloud.TeardownState

/-! ### At a site without a cache -/

namespace Site

variable {s : Site}

/-- Without a cache, the cloud answers every call. -/
theorem answer_of_uncached (h : s.cache = none) (c : Call) :
    s.answer (.cloud c) = ((s.world.answer s.tick.now c).1,
      { s.tick with world := (s.world.answer s.tick.now c).2 }) := by
  have htick : s.tick.cache = none := h
  simp only [answer, onCloud, htick]
  rfl

theorem uncached_answer (e : Effect) (h : s.cache = none) : (s.answer e).2.cache = none := by
  cases e with
  | cloud c => rw [answer_of_uncached h]; exact h
  | file c => exact h
  | pause d => exact h
  | observe => exact h
  | clock => exact h

end Site

/-- Whether a request asks the cloud for a new port. -/
def Effect.creates : Effect → Bool
  | .cloud c => c.creates
  | _ => false

/-- What is known of a site while a command runs there alone. -/
structure Alone (k₀ : Stock) (tags : List String) (s : Site) : Prop where
  uncached : s.cache = none
  tagged : k₀.Tagged tags s.stock

/-- What is known of a request of a command. -/
def Footprint (k₀ : Stock) (tags : List String) (e : Effect) (s : Site) : Prop :=
  ∃ c, e = .cloud c ∧ c.Within (k₀.Share tags) tags ∧ (c.creates = true → s.stock = k₀)

namespace HostSettings

variable (h : HostSettings) (i : Invocation) {s : Site}

theorem add_along (hs : s.cache = none) :
    (h.add i).Along Site.answer (Alone s.stock (h.tags i)) (Footprint s.stock (h.tags i)) s := by
  have htracks := (add_tracks (h.tags i) s.stock).and_of_answer (J := fun s => s.cache = none)
    fun e s hs => Site.uncached_answer e hs
  refine (h.add_obeys i).along htracks (fun q s hq => ⟨hq.2, hq.1.tagged⟩) ?_ ⟨rfl, hs⟩
  intro q s e hq he
  obtain ⟨c, rfl, hc⟩ := Monitor.exists_call_of_allows he
  exact ⟨c, rfl, hq.1.within hc⟩

theorem recoverNetns_of_netns (hi : i.netns ≠ "") : h.recoverNetns i = .done i := by
  unfold recoverNetns
  cases h.records with
  | none => rfl
  | some dir => simp [hi]

/-- A deletion that has its namespace tears the port down at once. -/
theorem del_of_netns (hi : i.netns ≠ "") :
    h.del i = (h.teardownKnown i >>= fun _ => .done (.ok ())) := by
  have hteardown : h.teardown i = h.teardownKnown i := by
    simp [teardown, h.recoverNetns_of_netns i hi]
  rw [del, hteardown]
  rfl

theorem del_obeys (hi : i.netns ≠ "") :
    (h.del i).Obeys (teardownMonitor (h.tags i)).onCloud .seeking fun _ _ => True := by
  rw [h.del_of_netns i hi]
  exact Program.Obeys.bind ((h.teardownKnown_obeys i).mono fun _ _ _ => trivial)

theorem del_along (hi : i.netns ≠ "") (hs : s.cache = none) :
    (h.del i).Along Site.answer (Alone s.stock (h.tags i)) (Footprint s.stock (h.tags i)) s := by
  have htracks := (teardown_tracks (h.tags i) s.stock).and_of_answer
    (J := fun s => s.cache = none) fun e s hs => Site.uncached_answer e hs
  refine (h.del_obeys i hi).along htracks
    (fun q s hq => ⟨hq.2, fun p hp => .inl (hq.1.tags_eq hp)⟩) ?_ ⟨rfl, hs⟩
  intro q s e hq he
  obtain ⟨c, rfl, hc⟩ := Monitor.exists_call_of_allows he
  obtain ⟨hwithin, hcreates⟩ := hq.1.within hc
  exact ⟨c, rfl, hwithin, by simp [hcreates]⟩

end HostSettings

/-! ### At most one new port -/

/-- How many new ports setting up may still ask for. -/
def Cloud.SetupState.budget : SetupState → ℕ
  | .looking => 1
  | _ => 0

theorem Cloud.SetupState.budget_next {tags : List String} {q : SetupState} {c : Call}
    (hc : q.allows tags c) (x : c.Answer) :
    (if c.creates then 1 else 0) + (q.next c x).budget ≤ q.budget := by
  have lookup (hc : c.isCacheable) :
      (if c.creates then 1 else 0) + (q.next c x).budget ≤ q.budget := by
    rw [SetupState.next_of_cacheable hc, Call.creates_of_cacheable hc]
    simp
  cases q with
  | looking =>
    rcases hc with hc | ⟨r, y, rfl⟩
    · exact lookup hc
    · cases x <;> exact Nat.le_refl _
  | made id =>
    obtain rfl : c = .setPortTags id tags := hc
    cases x <;> exact Nat.le_refl _
  | tagged id =>
    rcases hc with hc | ⟨serverId, rfl⟩
    · exact lookup hc
    · exact Nat.le_refl _
  | failed => exact hc.elim
  | stranded id => exact hc.elim

namespace HostSettings

variable (h : HostSettings) (i : Invocation) (s : Site)

theorem creates_add : ((h.add i).requests Site.answer s).countP Effect.creates ≤ 1 := by
  refine (h.add_obeys i).countP_requests_le SetupState.budget (fun q e x he => ?_) s
  obtain ⟨c, rfl, hc⟩ := Monitor.exists_call_of_allows he
  exact SetupState.budget_next hc x

theorem creates_del (hi : i.netns ≠ "") :
    ((h.del i).requests Site.answer s).countP Effect.creates ≤ 1 := by
  refine (h.del_obeys i hi).countP_requests_le (fun _ => 1) (fun q e x he => ?_) s
  obtain ⟨c, rfl, hc⟩ := Monitor.exists_call_of_allows he
  have hcreates : c.creates = false := by
    cases q with
    | seeking =>
      obtain rfl : c = .portByTags (h.tags i) := hc
      rfl
    | found p => rcases hc with ⟨name, rfl⟩ | ⟨serverId, rfl⟩ | rfl <;> rfl
    | absent => exact hc.elim
    | failed => exact hc.elim
    | deleted p => exact hc.elim
  simp [Effect.creates, hcreates]

end HostSettings

end ContainerPorts
