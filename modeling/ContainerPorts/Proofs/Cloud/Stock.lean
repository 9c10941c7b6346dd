import ContainerPorts.Cloud.Cached
import ContainerPorts.Cloud.World
import Mathlib.Tactic.Common

/-!
# What calls do to the stock of ports

Of a world only the ports and the number of the last port decide what becomes of
ports. Lookups leave both alone. Every other call concerns one port: it is
refused or fails and changes no port, or it does to that port what it is for.
-/
namespace ContainerPorts.Cloud

/-- Whether a call is made to change something. -/
def Call.changes : Call → Bool
  | .assignPort .. => true
  | .createPort .. => true
  | .deletePort .. => true
  | .detachPort .. => true
  | .setPortTags .. => true
  | _ => false

theorem Call.changes_of_cacheable {c : Call} (h : c.isCacheable) : c.changes = false := by
  cases c <;> first | rfl | simp [Call.isCacheable, Call.caching?] at h

structure Stock where
  ports : PortTable
  lastNumber : ℕ

namespace Stock

def port? (k : Stock) (id : String) : Option Port := k.ports.find? id

def put (k : Stock) (p : Port) : Stock := { k with ports := k.ports.put p }

@[simp] theorem port?_put_self (k : Stock) (p : Port) : (k.put p).port? p.id = some p :=
  PortTable.find?_put_self ..

theorem port?_put_of_ne {id : String} {p : Port} (h : id ≠ p.id) (k : Stock) :
    (k.put p).port? id = k.port? id := PortTable.find?_put_of_ne h ..

@[simp] theorem lastNumber_put (k : Stock) (p : Port) : (k.put p).lastNumber = k.lastNumber := rfl

def erase (k : Stock) (id : String) : Stock := { k with ports := k.ports.erase id }

@[simp] theorem port?_erase_self (k : Stock) (id : String) : (k.erase id).port? id = none :=
  PortTable.find?_erase_self ..

theorem port?_erase_of_ne {id other : String} (h : other ≠ id) (k : Stock) :
    (k.erase id).port? other = k.port? other := PortTable.find?_erase_of_ne h ..

@[simp] theorem lastNumber_erase (k : Stock) (id : String) :
    (k.erase id).lastNumber = k.lastNumber := rfl

/-- Use up the next number. -/
def count (k : Stock) : Stock := { k with lastNumber := k.lastNumber + 1 }

@[simp] theorem port?_count (k : Stock) (id : String) : k.count.port? id = k.port? id := rfl

@[simp] theorem lastNumber_count (k : Stock) : k.count.lastNumber = k.lastNumber + 1 := rfl

theorem id_of_port? {k : Stock} {id : String} {p : Port} (h : k.port? id = some p) : p.id = id :=
  PortTable.id_of_find? h

end Stock

namespace Stock

/-- A port is there and has all the tags. -/
def Carries (k : Stock) (tags : List String) (p : Port) : Prop :=
  k.port? p.id = some p ∧ tags ⊆ p.tags

/-- At most one port has all the tags. -/
def Sole (k : Stock) (tags : List String) : Prop :=
  ∀ p q, k.Carries tags p → k.Carries tags q → p = q

theorem Carries.eq_of_id {k : Stock} {tags tags' : List String} {p q : Port}
    (hp : k.Carries tags p) (hq : k.Carries tags' q) (hid : p.id = q.id) : p = q := by
  have hport := hp.1
  rw [hid, hq.1] at hport
  exact (Option.some.inj hport).symm

/-- Where every port has the tags that it had before, no tags have more ports than before. -/
theorem Sole.of_tags {k k' : Stock} {tags : List String} (h : k.Sole tags)
    (hk : ∀ p', k'.port? p'.id = some p' → ∃ p, k.port? p'.id = some p ∧ p.tags = p'.tags) :
    k'.Sole tags := by
  have before {p' : Port} (hp' : k'.Carries tags p') : ∃ p, k.Carries tags p ∧ p.id = p'.id := by
    obtain ⟨p, hp, htags⟩ := hk p' hp'.1
    have hid : p.id = p'.id := id_of_port? hp
    exact ⟨p, ⟨by rwa [hid], by rw [htags]; exact hp'.2⟩, hid⟩
  intro p' q' hp' hq'
  obtain ⟨p, hp, hpid⟩ := before hp'
  obtain ⟨q, hq, hqid⟩ := before hq'
  refine hp'.eq_of_id hq' ?_
  rw [← hpid, ← hqid, h p q hp hq]

end Stock

theorem World.portId_injective {m n : ℕ} (h : World.portId m = World.portId n) : m = n := by
  have hdigits : Nat.toDigits 10 m = Nat.toDigits 10 n := by
    have hlist := congrArg String.toList h
    simpa [World.portId] using hlist
  have hnumber := congrArg (Nat.ofDigitChars 10 · 0) hdigits
  simpa [Nat.ofDigitChars_toDigits] using hnumber

namespace Stock

/-- No port has a number that is still to come. -/
def Fresh (k : Stock) : Prop := ∀ n, k.lastNumber < n → k.port? (World.portId n) = none

/-- Ports that are new have numbers that were used up. -/
structure Grows (k k' : Stock) : Prop where
  number : k.lastNumber ≤ k'.lastNumber
  new : ∀ id, k.port? id = none → k'.port? id = none ∨
    ∃ n, id = World.portId n ∧ n ≤ k'.lastNumber

theorem Grows.of_same {k k' : Stock} (hn : k'.lastNumber = k.lastNumber)
    (hp : ∀ id, k'.port? id = k.port? id ∨ k'.port? id = none) : Grows k k' where
  number := Nat.le_of_eq hn.symm
  new id hid := .inl ((hp id).elim (fun h => h.trans hid) fun h => h)

theorem Fresh.grows {k k' : Stock} (h : k.Fresh) (hk : Grows k k') : k'.Fresh := by
  intro n hn
  have hold : k.port? (World.portId n) = none := h n (Nat.lt_of_le_of_lt hk.number hn)
  rcases hk.new _ hold with hnone | ⟨n', hid, hn'⟩
  · exact hnone
  · obtain rfl := World.portId_injective hid
    omega

end Stock

namespace World

variable {now : Instant} {w : World}

def stock (w : World) : Stock := ⟨w.ports, w.lastNumber⟩

@[simp] theorem stock_port? (w : World) (id : String) : w.stock.port? id = w.port? id := rfl

theorem firstOr_eq_ok_iff {α : Type} {kind : Kind} {p : α → Bool} {xs : List α} {x : α} :
    firstOr kind p xs = .ok x ↔ xs.find? p = some x := by
  unfold firstOr
  cases xs.find? p <;> simp

theorem mem_portList {p : Port} : p ∈ w.portList ↔ w.port? p.id = some p := PortTable.mem_toList

/-- A call is refused, or performed. -/
theorem answer_cases (now : Instant) (w : World) (c : Call) :
    (∃ message, w.answer now c =
        (.error (.api "MOCK" c.method.name 500 message), w.remember c)) ∨
      w.answer now c = (w.remember c).perform now c := by
  unfold answer
  cases w.refusal? c.method with
  | some message => exact .inl ⟨message, rfl⟩
  | none => exact .inr rfl

/-- A call that succeeds was not refused. -/
theorem answer_of_ok {c : Call} {x : c.Result} (h : (w.answer now c).1 = .ok x) :
    w.answer now c = (w.remember c).perform now c := by
  rcases answer_cases now w c with ⟨message, ha⟩ | ha
  · rw [ha] at h
    cases h
  · exact ha

theorem world_answer_of_lookup {c : Call} (h : c.changes = false) :
    (w.answer now c).2 = w.remember c := by
  rcases answer_cases now w c with ⟨message, ha⟩ | ha
  · rw [ha]
  · rw [ha]
    cases c <;> simp only [perform, Call.changes, Bool.true_eq_false] at h ⊢
    split <;> rfl

theorem stock_answer_of_lookup {c : Call} (h : c.changes = false) :
    (w.answer now c).2.stock = w.stock := by
  rw [world_answer_of_lookup h]
  rfl

/-- What a call can do that changes the port `id` to `f p`. -/
def Edits {α : Type} (id : String) (f : Port → Port) (k : Stock) (r : Except Failure α × World) :
    Prop :=
  (∃ e, r.1 = .error e ∧ r.2.stock = k) ∨
    ∃ p x, k.port? id = some p ∧ r.1 = .ok x ∧ r.2.stock = k.put (f p)

/-- An edit makes no new port. -/
theorem Edits.port?_eq_none {α : Type} {id other : String} {f : Port → Port} {k : Stock}
    {r : Except Failure α × World} (h : Edits id f k r) (hf : ∀ p, (f p).id = p.id)
    (hnone : k.port? other = none) : r.2.stock.port? other = none := by
  rcases h with ⟨e, -, hs⟩ | ⟨p, x, hp, -, hs⟩
  · rwa [hs]
  · have hid : (f p).id = id := (hf p).trans (Stock.id_of_port? hp)
    have hne : other ≠ (f p).id := by
      rintro rfl
      rw [hid, hp] at hnone
      cases hnone
    rw [hs, Stock.port?_put_of_ne hne, hnone]

theorem onPort_edits {α : Type} (w : World) (id : String) (f : Port → Port) (g : Port → α) :
    Edits id f w.stock (w.onPort id f g) := by
  unfold onPort
  cases hp : w.port? id with
  | none => exact .inl ⟨_, rfl, rfl⟩
  | some p => exact .inr ⟨p, _, hp, rfl, rfl⟩

theorem onPort_ok {α : Type} {id : String} {f : Port → Port} {g : Port → α} {x : α}
    (h : (w.onPort id f g).1 = .ok x) :
    ∃ p, w.port? id = some p ∧ x = g (f p) ∧ (w.onPort id f g).2.stock = w.stock.put (f p) := by
  unfold onPort at h ⊢
  cases hp : w.port? id with
  | none =>
    rw [hp] at h
    cases h
  | some p =>
    rw [hp] at h
    exact ⟨p, rfl, (Except.ok.inj h).symm, rfl⟩

theorem refused_edits {α : Type} {id : String} {f : Port → Port} {w : World}
    {r : Except Failure α × World} {e : Failure} {c : Call} (h : r = (.error e, w.remember c)) :
    Edits id f w.stock r := by
  subst h
  exact .inl ⟨e, rfl, rfl⟩

theorem assignPort_edits (now : Instant) (w : World) (id serverId : String) :
    Edits id (attach serverId) w.stock (w.answer now (.assignPort id serverId)) := by
  rcases answer_cases now w (.assignPort id serverId) with ⟨message, ha⟩ | ha
  · exact refused_edits ha
  · rw [ha]
    exact onPort_edits (w.remember _) ..

theorem detachPort_edits (now : Instant) (w : World) (id serverId : String) :
    Edits id unplug w.stock (w.answer now (.detachPort id serverId)) := by
  rcases answer_cases now w (.detachPort id serverId) with ⟨message, ha⟩ | ha
  · exact refused_edits ha
  · rw [ha]
    exact onPort_edits (w.remember _) ..

theorem setPortTags_edits (now : Instant) (w : World) (id : String) (tags : List String) :
    Edits id (fun p => { p with tags := tags }) w.stock (w.answer now (.setPortTags id tags)) := by
  rcases answer_cases now w (.setPortTags id tags) with ⟨message, ha⟩ | ha
  · exact refused_edits ha
  · rw [ha]
    exact onPort_edits (w.remember _) ..

/-- A port that is created has the next number and no tags yet. -/
theorem createPort_cases (now : Instant) (w : World) (r : PortRequest) (x : Option PortExtension) :
    (∃ e, (w.answer now (.createPort r x)).1 = .error e ∧
        ((w.answer now (.createPort r x)).2.stock = w.stock ∨
          (w.answer now (.createPort r x)).2.stock = w.stock.count)) ∨
      ∃ p : Port, (w.answer now (.createPort r x)).1 = .ok p ∧ p.id = portId (w.lastNumber + 1) ∧
        p.tags = [] ∧ (w.answer now (.createPort r x)).2.stock = w.stock.count.put p := by
  rcases answer_cases now w (.createPort r x) with ⟨message, ha⟩ | ha
  · rw [ha]
    exact .inl ⟨_, rfl, .inl rfl⟩
  · rw [ha]
    simp only [perform]
    split
    · exact .inl ⟨_, rfl, .inr rfl⟩
    · exact .inr ⟨_, rfl, rfl, rfl, rfl⟩

theorem deletePort_cases (now : Instant) (w : World) (id : String) :
    (∃ e, (w.answer now (.deletePort id)).1 = .error e ∧
        (w.answer now (.deletePort id)).2.stock = w.stock) ∨
      ((w.answer now (.deletePort id)).1 = .ok () ∧
        (w.answer now (.deletePort id)).2.stock = w.stock.erase id) := by
  rcases answer_cases now w (.deletePort id) with ⟨message, ha⟩ | ha
  · rw [ha]
    exact .inl ⟨_, rfl, rfl⟩
  · rw [ha]
    simp only [perform]
    split
    · exact .inr ⟨rfl, rfl⟩
    · exact .inl ⟨_, rfl, rfl⟩

/-- The port that is found by tags is the first one that carries them. -/
theorem portByTags_cases (now : Instant) (w : World) (tags : List String) :
    (∃ p, (w.answer now (.portByTags tags)).1 = .ok p ∧
        w.portList.find? (fun p => p.carries tags) = some p) ∨
      ∃ e, (w.answer now (.portByTags tags)).1 = .error e ∧
        (e = .notFound .port → ∀ p ∈ w.portList, p.carries tags = false) := by
  rcases answer_cases now w (.portByTags tags) with ⟨message, ha⟩ | ha
  · rw [ha]
    exact .inr ⟨_, rfl, by simp⟩
  · rw [ha]
    simp only [perform, firstOr]
    split
    · rename_i p hp
      exact .inl ⟨p, rfl, hp⟩
    · rename_i hp
      refine .inr ⟨_, rfl, fun _ p hmem => ?_⟩
      simpa using List.find?_eq_none.mp hp p hmem

/-- The ports that are listed by tags are those that carry them. -/
theorem portsByTags_ok {tags : List String} {ps : List Port}
    (h : (w.answer now (.portsByTags tags)).1 = .ok ps) :
    ps = w.portList.filter fun p => p.carries tags := by
  rcases answer_cases now w (.portsByTags tags) with ⟨message, ha⟩ | ha
  · simp [ha] at h
  · rw [ha] at h
    exact (Except.ok.inj h).symm

end World

end ContainerPorts.Cloud
