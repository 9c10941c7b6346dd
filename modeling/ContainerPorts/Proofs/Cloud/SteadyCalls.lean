import ContainerPorts.Proofs.Cloud.Furniture
import ContainerPorts.Proofs.Cloud.ReadThrough
import ContainerPorts.Proofs.Cloud.SharedKeys

/-!
# Steady calls

A lookup of something that is no port has the same answer all the time, as long as a
world is not refurnished. If no other lookup shares its key either, a cache can answer it
from what it found before. Calls of this kind, and those that go past the cache, are
answered in front of the cloud as they are answered by it.
-/
namespace ContainerPorts.Cloud

/-! ### Keys that end plainly -/

/-- Calls whose last argument can be told from the one before it when they are joined. -/
def Call.EndsPlain : Call → Prop
  | .subnetByName _ networkId => '|' ∉ networkId.toList
  | .securityGroupByName _ projectId => ∀ id ∈ projectId, id ≠ "" ∧ '|' ∉ id.toList
  | _ => True

theorem Call.SharesKey.eq_of_endsPlain {c c' : Call} (h : c.SharesKey c') (hc : c.isCacheable)
    (hp : c.EndsPlain) (hp' : c'.EndsPlain) : c = c' := by
  have cut {a b a' b' : String} (hb : '|' ∉ b.toList) (hb' : '|' ∉ b'.toList)
      (hjoined : a ++ "|" ++ b = a' ++ "|" ++ b') : a = a' ∧ b = b' := by
    have hlist : a.toList ++ '|' :: b.toList = a'.toList ++ '|' :: b'.toList := by
      simpa using congrArg String.toList hjoined
    simpa [String.toList_inj] using Text.cut_inj hb hb' hlist
  rcases h.cases hc with rfl | ⟨name, id, name', id', rfl, rfl, hjoined⟩ |
    ⟨name, id, name', id', rfl, rfl, hjoined⟩
  · rfl
  · obtain ⟨rfl, rfl⟩ := cut hp hp' hjoined
    rfl
  · have plain {id : Option String} (h : ∀ x ∈ id, x ≠ "" ∧ '|' ∉ x.toList) :
        '|' ∉ (id.getD "").toList := by
      cases id with
      | none => exact List.not_mem_nil
      | some x => exact (h x rfl).2
    obtain ⟨rfl, hid⟩ := cut (plain hp) (plain hp') hjoined
    -- A project that is not given is joined like an empty one.
    cases id with
    | none =>
      cases id' with
      | none => rfl
      | some x' => exact absurd hid.symm (hp' x' rfl).1
    | some x =>
      cases id' with
      | none => exact absurd hid (hp x rfl).1
      | some x' => rw [show x = x' from hid]

/-- Calls that go past the cache, or look up under a key of their own what stays the same. -/
def Call.Steady (c : Call) : Prop := c.isCacheable → c.readsFurniture ∧ c.EndsPlain

theorem Call.steady_of_not_cacheable {c : Call} (h : c.isCacheable = false) : c.Steady :=
  fun hc => by rw [h] at hc; cases hc

/-! ### Ids that keys can end with -/

/-- Ids of networks and projects have no bars, and every project has an id. -/
structure Furniture.Plain (f : Furniture) : Prop where
  networks : ∀ n ∈ f.networks, '|' ∉ n.id.toList
  projects : ∀ p ∈ f.projects, p.id ≠ "" ∧ '|' ∉ p.id.toList

/-- Answers with ids like that. -/
def Call.Fits : (c : Call) → c.Answer → Prop
  | .networkByName _, x => ∀ n, x = .ok n → '|' ∉ n.id.toList
  | .projectByName _, x => ∀ p, x = .ok p → p.id ≠ "" ∧ '|' ∉ p.id.toList
  | _, _ => True

namespace World

variable {w w' : World} {now : Instant} {c : Call} {history : List Method}

theorem fits_answer (h : w.furniture.Plain) (now : Instant) (c : Call) :
    c.Fits (w.answer now c).1 := by
  rcases answer_cases now w c with ⟨message, ha⟩ | ha
  · rw [ha]
    cases c <;> first | trivial | exact fun _ hx => nomatch hx
  · rw [ha]
    cases c <;> try trivial
    case networkByName =>
      exact fun n hn => h.networks n (List.mem_of_find?_eq_some (firstOr_eq_ok_iff.mp hn))
    case projectByName =>
      exact fun p hp => h.projects p (List.mem_of_find?_eq_some (firstOr_eq_ok_iff.mp hp))

/-! ### Calls that are remembered -/

/-- The world with another memory of past calls. -/
def recalling (w : World) (history : List Method) : World := { w with history := history }

theorem perform_recalling (now : Instant) (c : Call) : (w.recalling history).perform now c =
    ((w.perform now c).1, (w.perform now c).2.recalling history) := by
  have onPort {α : Type} (id : String) (f : Port → Port) (g : Port → α) :
      (w.recalling history).onPort id f g =
        ((w.onPort id f g).1, (w.onPort id f g).2.recalling history) := by
    simp only [World.onPort, recalling, port?]
    split <;> rfl
  cases c <;> simp only [perform]
  case assignPort => exact onPort ..
  case detachPort => exact onPort ..
  case setPortTags => exact onPort ..
  case createPort request extra =>
    simp only [subnetFor, recalling]
    split <;> rfl
  case deletePort id =>
    simp only [recalling, port?]
    split <;> rfl
  case portById id =>
    simp only [recalling, port?]
    split <;> rfl
  all_goals rfl

/-- No answer depends on what is remembered. -/
theorem answer_recalling (now : Instant) (c : Call) : (w.recalling history).answer now c =
    ((w.answer now c).1, (w.answer now c).2.recalling (c.method :: history)) := by
  unfold answer
  rw [show (w.recalling history).refusal? c.method = w.refusal? c.method from rfl]
  cases w.refusal? c.method with
  | some message => rfl
  | none =>
    have hremember : (w.recalling history).remember c =
        (w.remember c).recalling (c.method :: history) := rfl
    rw [hremember, perform_recalling]

/-! ### Kept answers that are right -/

/-- A steady lookup of the key is always answered by what is kept. -/
def Vouches (w : World) (key : String) (kept : Kept) : Prop :=
  ∃ (c : Call) (k : Caching c) (x : c.Result), c.caching? = some k ∧ c.Steady ∧ k.key = key ∧
    k.keep x = kept ∧ ∀ now, (w.answer now c).1 = .ok x

/-- Everything that a cache keeps is right. -/
def VouchesFor (w : World) (cache : TtlCache Kept) : Prop :=
  ∀ m ∈ cache.entries, w.Vouches m.1 m.2.value

variable {key : String} {kept : Kept} {cache cache' : TtlCache Kept} {k : Caching c}

theorem Vouches.of_furniture (h : w.Vouches key kept) (hw : w.furniture = w'.furniture) :
    w'.Vouches key kept := by
  obtain ⟨c, k, x, hk, hc, hkey, hkept, hx⟩ := h
  refine ⟨c, k, x, hk, hc, hkey, hkept, fun now => ?_⟩
  rw [← hx now]
  exact answer_of_readsFurniture (hc (Call.isCacheable_of_caching? hk)).1 hw.symm

/-- What is kept under the key of a steady lookup is its answer, since no other shares the key. -/
theorem Vouches.read? (h : w.Vouches k.key kept) (hk : c.caching? = some k) (hc : c.Steady) :
    ∃ x, k.read? kept = some x ∧ ∀ now, (w.answer now c).1 = .ok x := by
  obtain ⟨c', k', x, hk', hc', hkey, rfl, hx⟩ := h
  have hcache := Call.isCacheable_of_caching? hk
  have hcache' := Call.isCacheable_of_caching? hk'
  have hshares : c'.SharesKey c := (Caching.key_eq_iff hk' hk).mp hkey
  obtain rfl : c' = c := hshares.eq_of_endsPlain hcache' (hc' hcache').2 (hc hcache).2
  obtain rfl : k' = k := Option.some.inj (hk'.symm.trans hk)
  exact ⟨x, k'.read?_keep x, hx⟩

theorem VouchesFor.of_furniture (h : w.VouchesFor cache) (hw : w.furniture = w'.furniture) :
    w'.VouchesFor cache := fun m hm => (h m hm).of_furniture hw

theorem VouchesFor.mono (h : w.VouchesFor cache) (hsub : cache'.entries ⊆ cache.entries) :
    w.VouchesFor cache' := fun m hm => h m (hsub hm)

theorem VouchesFor.insert (h : w.VouchesFor cache) (hkept : w.Vouches key kept) (t : Span) :
    w.VouchesFor (cache.insert t key kept) := by
  intro m hm
  rcases TtlCache.mem_entries_insert hm with rfl | hm
  · exact hkept
  · exact h m hm

theorem VouchesFor.lookup {t : Span} (h : w.VouchesFor cache)
    (hkept : cache.lookup t key = some kept) : w.Vouches key kept := by
  obtain ⟨e, he, rfl, -⟩ := TtlCache.lookup_eq_some.mp hkept
  exact h _ (Table.mem_of_find? he)

/-- A steady call has the cloud's answer, and leaves a cache that is right as well. -/
theorem run_cached (h : w.VouchesFor cache) (hc : c.Steady) (now : Instant) (asked answered : Span)
    (history : List Method) :
    ∃ cache' history',
      Cached.run (fun c w => w.answer now c) asked answered cache (w.recalling history) c =
        ((w.answer now c).1, cache', (w.answer now c).2.recalling history') ∧
      w.VouchesFor cache' := by
  cases hk : c.caching? with
  | none =>
    rw [Cached.run_of_not_cacheable _ _ _ _ _ (by simp [Call.isCacheable, hk]), answer_recalling]
    exact ⟨_, _, rfl, h.mono (Cached.entries_afterPassing_subset ..)⟩
  | some k =>
    have hcache := Call.isCacheable_of_caching? hk
    have fetched {cache : TtlCache Kept} (h : w.VouchesFor cache) : ∃ cache' history',
        Cached.fetched answered cache k ((w.recalling history).answer now c) =
          ((w.answer now c).1, cache', (w.answer now c).2.recalling history') ∧
        w.VouchesFor cache' := by
      rw [answer_recalling, Cached.fetched]
      cases hx : (w.answer now c).1 with
      | error e => exact ⟨cache, _, rfl, h⟩
      | ok x =>
        refine ⟨_, _, rfl, h.insert ⟨c, k, x, hk, hc, rfl, rfl, fun now' => ?_⟩ answered⟩
        rw [← hx]
        exact answer_of_readsFurniture (hc hcache).1 rfl
    rw [Cached.run_of_caching? _ _ _ _ _ hk]
    cases hkept : cache.lookup asked k.key with
    | none => exact fetched (h.mono (TtlCache.entries_dropExpired_subset ..))
    | some kept =>
      obtain ⟨x, hread, hx⟩ := (h.lookup hkept).read? hk hc
      refine ⟨cache, history, ?_, h⟩
      rw [hx, world_answer_of_lookup (Call.changes_of_cacheable hcache)]
      simp only [hread]
      rfl

end World

end ContainerPorts.Cloud
