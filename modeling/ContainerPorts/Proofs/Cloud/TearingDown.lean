import ContainerPorts.Cloud.PortSetup
import ContainerPorts.Proofs.Cloud.Stock
import ContainerPorts.Proofs.Monitor

/-!
# How far tearing down a port has come

Tearing down asks once for the first port that carries the tags. It touches that
port only, and ends well in two cases: there was no such port, or it was deleted.
-/
namespace ContainerPorts.Cloud

inductive TeardownState where
  | seeking
  /-- No port carries the tags. -/
  | absent
  /-- The port could not be asked for. -/
  | failed
  | found (p : Port)
  | deleted (p : Port)

namespace TeardownState

def allows (tags : List String) : TeardownState → Call → Prop
  | .seeking, c => c = .portByTags tags
  | .found p, c => (∃ name, c = .serverByName name) ∨ (∃ serverId, c = .detachPort p.id serverId) ∨
      c = .deletePort p.id
  | .absent, _ => False
  | .failed, _ => False
  | .deleted _, _ => False

def next : TeardownState → (c : Call) → c.Answer → TeardownState
  | .seeking, .portByTags _, .ok p => .found p
  | .seeking, .portByTags _, .error (.notFound .port) => .absent
  | .seeking, .portByTags _, .error _ => .failed
  | .found p, .deletePort _, .ok _ => .deleted p
  | q, _, _ => q

/-- The states in which tearing down can end with a result. -/
def Ends : Except PortError Unit → TeardownState → Prop
  | .ok _, q => q = .absent ∨ ∃ p, q = .deleted p
  | .error _, _ => True

/-- Of a stock, at most the first port that carries the tags was touched. -/
structure Spared (tags : List String) (k₀ : Stock) (p : Port) (k : Stock) : Prop where
  first : k₀.ports.toList.find? (fun p => p.carries tags) = some p
  number : k.lastNumber = k₀.lastNumber
  others : ∀ other, other ≠ p.id → k.port? other = k₀.port? other

/-- What a state says about the stock, tearing down having begun with `k₀`. -/
def Holds (tags : List String) (k₀ : Stock) : TeardownState → Stock → Prop
  | .seeking, k => k = k₀
  | .failed, k => k = k₀
  | .absent, k => k = k₀ ∧ ∀ p ∈ k₀.ports.toList, p.carries tags = false
  | .found p, k => Spared tags k₀ p k ∧ ∃ p', k.port? p.id = some p' ∧ p'.tags = p.tags
  | .deleted p, k => Spared tags k₀ p k ∧ k.port? p.id = none

theorem next_of_cacheable {c : Call} (h : c.isCacheable) (q : TeardownState) (x : c.Answer) :
    q.next c x = q := by
  cases c <;> simp only [Call.isCacheable, Call.caching?, Option.isSome_none, Bool.false_eq_true] at h
  all_goals cases q <;> rfl

theorem Spared.port? {tags : List String} {k₀ k : Stock} {p : Port} (h : Spared tags k₀ p k) :
    k₀.port? p.id = some p ∧ p.carries tags = true := by
  have hmem : p ∈ k₀.ports.toList := List.mem_of_find?_eq_some h.first
  have hcarries := List.find?_some h.first
  exact ⟨PortTable.mem_toList.mp hmem, hcarries⟩

theorem Spared.put {tags : List String} {k₀ k : Stock} {p p' : Port} (h : Spared tags k₀ p k)
    (hid : p'.id = p.id) : Spared tags k₀ p (k.put p') where
  first := h.first
  number := h.number
  others other hne := by rw [Stock.port?_put_of_ne (by rwa [hid]), h.others other hne]

theorem Spared.erase {tags : List String} {k₀ k : Stock} {p : Port} (h : Spared tags k₀ p k) :
    Spared tags k₀ p (k.erase p.id) where
  first := h.first
  number := h.number
  others other hne := by rw [Stock.port?_erase_of_ne hne, h.others other hne]

/-- Tearing down touches no port, or one that carries the tags. -/
theorem Holds.others {tags : List String} {k₀ k : Stock} {q : TeardownState}
    (h : q.Holds tags k₀ k) :
    (∀ id, k.port? id = k₀.port? id) ∨
      ∃ p, k₀.port? p.id = some p ∧ tags ⊆ p.tags ∧ ∀ id, id ≠ p.id → k.port? id = k₀.port? id := by
  have spared {p : Port} (hs : Spared tags k₀ p k) :
      ∃ p, k₀.port? p.id = some p ∧ tags ⊆ p.tags ∧
        ∀ id, id ≠ p.id → k.port? id = k₀.port? id :=
    ⟨p, hs.port?.1, Port.carries_iff.mp hs.port?.2, hs.others⟩
  cases q with
  | seeking => exact .inl fun id => congrArg (Stock.port? · id) h
  | failed => exact .inl fun id => congrArg (Stock.port? · id) h
  | absent => exact .inl fun id => congrArg (Stock.port? · id) h.1
  | found p => exact .inr (spared h.1)
  | deleted p => exact .inr (spared h.1)

theorem Holds.grows {tags : List String} {k₀ k : Stock} {q : TeardownState}
    (h : q.Holds tags k₀ k) : k₀.Grows k := by
  have hnumber : k.lastNumber = k₀.lastNumber := by
    cases q with
    | seeking => exact congrArg Stock.lastNumber h
    | failed => exact congrArg Stock.lastNumber h
    | absent => exact congrArg Stock.lastNumber h.1
    | found p => exact h.1.number
    | deleted p => exact h.1.number
  refine ⟨Nat.le_of_eq hnumber.symm, fun id hid => .inl ?_⟩
  rcases h.others with hsame | ⟨p, hp, -, hsame⟩
  · exact (hsame id).trans hid
  · have hne : id ≠ p.id := by
      rintro rfl
      simp [hp] at hid
    exact (hsame id hne).trans hid

/-- Every port that is there has the tags that it had before. -/
theorem Holds.tags_eq {tags : List String} {k₀ k : Stock} {q : TeardownState}
    (h : q.Holds tags k₀ k) {p' : Port} (hp' : k.port? p'.id = some p') :
    ∃ p, k₀.port? p'.id = some p ∧ p.tags = p'.tags := by
  cases q with
  | seeking => exact ⟨p', by rwa [← show k = k₀ from h], rfl⟩
  | failed => exact ⟨p', by rwa [← show k = k₀ from h], rfl⟩
  | absent => exact ⟨p', by rwa [← h.1], rfl⟩
  | found p =>
    obtain ⟨hspared, p₁, hp₁, htags⟩ := h
    by_cases hid : p'.id = p.id
    · rw [hid] at hp'
      obtain rfl : p₁ = p' := Option.some.inj (hp₁.symm.trans hp')
      exact ⟨p, by rw [hid]; exact hspared.port?.1, htags.symm⟩
    · exact ⟨p', by rwa [← hspared.others _ hid], rfl⟩
  | deleted p =>
    obtain ⟨hspared, hgone⟩ := h
    have hid : p'.id ≠ p.id := by
      rintro hid
      rw [hid, hgone] at hp'
      cases hp'
    exact ⟨p', by rwa [← hspared.others _ hid], rfl⟩

end TeardownState

def teardownMonitor (tags : List String) : Monitor calls where
  State := TeardownState
  allows := TeardownState.allows tags
  next := TeardownState.next

/-- Every call that tearing down may make keeps true what its state says. -/
theorem teardownMonitor_tracks (tags : List String) (k₀ : Stock) (now : Instant) :
    (teardownMonitor tags).Tracks (fun c (w : World) => w.answer now c)
      fun q w => q.Holds tags k₀ w.stock := by
  intro (q : TeardownState) w (c : Call) (hI : q.Holds tags k₀ w.stock) hc
  change (q.next c (w.answer now c).1).Holds tags k₀ (w.answer now c).2.stock
  cases q with
  | seeking =>
    obtain rfl : c = .portByTags tags := hc
    obtain rfl : w.stock = k₀ := hI
    have hs : (w.answer now (.portByTags tags)).2.stock = w.stock := World.stock_answer_of_lookup rfl
    rw [hs]
    rcases World.portByTags_cases now w tags with ⟨p, hp, hfirst⟩ | ⟨e, he, hnone⟩
    · have hmem : p ∈ w.portList := List.mem_of_find?_eq_some hfirst
      rw [hp]
      exact ⟨⟨hfirst, rfl, fun _ _ => rfl⟩, p, World.mem_portList.mp hmem, rfl⟩
    · rw [he]
      cases e with
      | notFound kind =>
        cases kind with
        | port => exact ⟨rfl, hnone rfl⟩
        | _ => exact rfl
      | _ => exact rfl
  | found p =>
    obtain ⟨hspared, p', hp', htags⟩ := hI
    rcases hc with ⟨name, rfl⟩ | ⟨serverId, rfl⟩ | rfl
    · rw [World.stock_answer_of_lookup rfl]
      exact ⟨hspared, p', hp', htags⟩
    · rcases World.detachPort_edits now w p.id serverId with ⟨e, -, hs⟩ | ⟨p₁, x, hp₁, -, hs⟩
      · rw [hs]
        exact ⟨hspared, p', hp', htags⟩
      · obtain rfl : p' = p₁ := Option.some.inj (hp'.symm.trans hp₁)
        have hid : p'.id = p.id := Stock.id_of_port? hp'
        rw [hs]
        refine ⟨hspared.put hid, World.unplug p', ?_, htags⟩
        rw [← hid]
        exact Stock.port?_put_self w.stock (World.unplug p')
    · rcases World.deletePort_cases now w p.id with ⟨e, he, hs⟩ | ⟨hok, hs⟩
      · rw [he, hs]
        exact ⟨hspared, p', hp', htags⟩
      · rw [hok, hs]
        exact ⟨hspared.erase, Stock.port?_erase_self ..⟩
  | absent => exact hc.elim
  | failed => exact hc.elim
  | deleted p => exact hc.elim

theorem attempt_obeys {M : Monitor calls} {q : M.State} {report : Failure → PortError} {c : Call}
    {β : Type} {f : c.Result → ExceptT PortError (Program calls) β}
    {post : Except PortError β → M.State → Prop} (hc : M.allows q c)
    (hok : ∀ x, (f x).run.Obeys M (M.next q c (.ok x)) post)
    (herror : ∀ e, post (.error (report e)) (M.next q c (.error e))) :
    (attempt report c >>= f).run.Obeys M q post := by
  refine ⟨hc, fun x => ?_⟩
  cases x with
  | ok x => exact hok x
  | error e => exact herror e

theorem unplugged_obeys {β : Type} {tags : List String} {o : TeardownOptions} {p : Port}
    {f : Unit → ExceptT PortError (Program calls) β} {post : Except PortError β → TeardownState → Prop}
    (hf : (f ()).run.Obeys (teardownMonitor tags) (.found p) post)
    (herror : ∀ e, post (.error e) (.found p)) :
    (unplugged o p.id >>= f).run.Obeys (teardownMonitor tags) (.found p) post := by
  unfold unplugged
  split
  · exact hf
  · rw [bind_assoc]
    refine attempt_obeys (.inl ⟨_, rfl⟩) (fun server => ?_) fun e => herror _
    exact attempt_obeys (.inr (.inl ⟨_, rfl⟩)) (fun _ => hf) fun e => herror _

theorem teardownPort_obeys (o : TeardownOptions) :
    (teardownPort o).Obeys (teardownMonitor o.tags) .seeking TeardownState.Ends := by
  refine ⟨rfl, fun x => ?_⟩
  cases x with
  | ok p =>
    refine unplugged_obeys ?_ fun _ => trivial
    refine ⟨.inr (.inr rfl), fun x => ?_⟩
    cases x with
    | ok _ => exact .inr ⟨p, rfl⟩
    | error e => trivial
  | error e =>
    cases e with
    | notFound kind =>
      cases kind with
      | port => exact .inl rfl
      | _ => trivial
    | _ => trivial

end ContainerPorts.Cloud
