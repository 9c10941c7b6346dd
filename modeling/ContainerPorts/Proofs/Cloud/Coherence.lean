import ContainerPorts.Proofs.Cloud.CacheKey
import ContainerPorts.Proofs.Cloud.CacheSteps
import ContainerPorts.Proofs.Cloud.ReadThrough

/-!
# What is behind an answer from the cache

The cache answers a lookup exactly when some earlier lookup with the same key got
its result from the cloud, less than one lifetime ago, and no port in that result
was deleted since. So a history of calls alone decides which calls reach the
cloud. When expired entries are dropped does not matter.
-/
namespace ContainerPorts.Cloud

/-- A call through the cache: when the cache is asked, when the cloud has answered, and what
the cloud says at this time. -/
structure Visit where
  call : Call
  asked : Span
  answered : Span
  cloud : (c : Call) → c.Answer

/-- The answer to a visit, and the calls that reached the cloud. -/
structure Outcome where
  visit : Visit
  answer : visit.call.Answer
  reached : List Call

namespace Visit

variable (v : Visit) (cache : TtlCache Kept)

def run : v.call.Answer × (TtlCache Kept × List Call) :=
  Cached.run (fun c reached => (v.cloud c, reached ++ [c])) v.asked v.answered cache [] v.call

def outcome : Outcome := ⟨v, (v.run cache).1, (v.run cache).2.2⟩

def after : TtlCache Kept := (v.run cache).2.1

@[simp] theorem visit_outcome : (v.outcome cache).visit = v := rfl

@[simp] theorem answer_outcome : (v.outcome cache).answer = (v.run cache).1 := rfl

@[simp] theorem reached_outcome : (v.outcome cache).reached = (v.run cache).2.2 := rfl

end Visit

namespace Outcome

/-- The cloud gave a result for a key. -/
def Fetched (o : Outcome) (key : String) (kept : Kept) : Prop :=
  ∃ k, o.visit.call.caching? = some k ∧ k.key = key ∧ o.reached ≠ [] ∧
    ∃ x, o.answer = .ok x ∧ k.keep x = kept

/-- A port was deleted that a kept answer contains. -/
def Voids (o : Outcome) (kept : Kept) : Prop :=
  ∃ id, o.visit.call = .deletePort id ∧ kept.contains id = true

end Outcome

/-- Some earlier lookup got a result from the cloud that may still be given. -/
def Justified (ttl : Span) (past : List Outcome) (now : Span) (key : String) (kept : Kept) : Prop :=
  ∃ before o since, past = before ++ o :: since ∧ o.Fetched key kept ∧
    now < o.visit.answered + ttl ∧ ∀ o' ∈ since, ¬ o'.Voids kept

/-- What is promised of a visit that comes after others. -/
structure Explained (ttl : Span) (past : List Outcome) (o : Outcome) : Prop where
  /-- A call that cannot be cached reaches the cloud exactly once. -/
  passing : o.visit.call.isCacheable = false →
    o.reached = [o.visit.call] ∧ o.answer = o.visit.cloud o.visit.call
  /-- A lookup reaches the cloud exactly if nothing justifies an answer from the cache. -/
  reaching : ∀ k, o.visit.call.caching? = some k →
    (o.reached ≠ [] ↔ ¬ ∃ kept, Justified ttl past o.visit.asked k.key kept)
  /-- A justified answer is given as it was. -/
  repeated : ∀ k, o.visit.call.caching? = some k → ∀ kept,
    Justified ttl past o.visit.asked k.key kept → ∃ x, o.answer = .ok x ∧ k.keep x = kept
  /-- A lookup that reaches the cloud does so once, and gives the cloud's answer. -/
  fresh : o.reached ≠ [] → o.reached = [o.visit.call] ∧ o.answer = o.visit.cloud o.visit.call

/-! ### One visit -/

namespace Visit

variable {v : Visit} {cache : TtlCache Kept}

theorem run_of_passing (h : v.call.isCacheable = false) :
    v.run cache = (v.cloud v.call, (Cached.afterPassing cache v.call, [v.call])) :=
  Cached.run_of_not_cacheable _ _ _ _ _ h

variable {k : Caching v.call}

theorem run_of_found (hk : v.call.caching? = some k) {x : v.call.Result}
    (h : cache.lookup v.asked k.key = some (k.keep x)) : v.run cache = (.ok x, (cache, [])) := by
  simp only [run, Cached.run_of_caching? _ _ _ _ _ hk, h, k.read?_keep]

theorem run_of_error (hk : v.call.caching? = some k) (h : cache.lookup v.asked k.key = none)
    {e : Failure} (he : v.cloud v.call = .error e) :
    v.run cache = (.error e, (cache.dropExpired v.asked k.key, [v.call])) := by
  simp [run, Cached.run_of_caching? _ _ _ _ _ hk, h, Cached.fetched, he]

theorem run_of_ok (hk : v.call.caching? = some k) (h : cache.lookup v.asked k.key = none)
    {x : v.call.Result} (hx : v.cloud v.call = .ok x) :
    v.run cache =
      (.ok x, ((cache.dropExpired v.asked k.key).insert v.answered k.key (k.keep x), [v.call])) := by
  simp [run, Cached.run_of_caching? _ _ _ _ _ hk, h, Cached.fetched, hx]

end Visit

/-! ### What an outcome means for later answers -/

namespace Outcome

variable {o : Outcome} {key : String} {kept : Kept}

theorem not_fetched_of_passing (h : o.visit.call.isCacheable = false) : ¬ o.Fetched key kept := by
  rintro ⟨k, hk, -⟩
  simp [Call.isCacheable, hk] at h

theorem not_fetched_of_not_reached (h : o.reached = []) : ¬ o.Fetched key kept := by
  rintro ⟨k, -, -, hr, -⟩
  exact hr h

theorem not_fetched_of_error {e : Failure} (h : o.answer = .error e) : ¬ o.Fetched key kept := by
  rintro ⟨k, -, -, -, x, hx, -⟩
  simp [h] at hx

theorem fetched_iff {k : Caching o.visit.call} (hk : o.visit.call.caching? = some k)
    (hr : o.reached ≠ []) {x : o.visit.call.Result} (hx : o.answer = .ok x) :
    o.Fetched key kept ↔ k.key = key ∧ k.keep x = kept := by
  constructor
  · rintro ⟨k', hk', hkey, -, x', hx', hkept⟩
    obtain rfl : k' = k := Option.some.inj (hk'.symm.trans hk)
    obtain rfl : x' = x := Except.ok.inj (hx'.symm.trans hx)
    exact ⟨hkey, hkept⟩
  · rintro ⟨hkey, hkept⟩
    exact ⟨k, hk, hkey, hr, x, hx, hkept⟩

theorem not_voids_of_caching? {k : Caching o.visit.call} (h : o.visit.call.caching? = some k) :
    ¬ o.Voids kept := by
  rintro ⟨id, hid, -⟩
  have hc := Call.isCacheable_of_caching? h
  rw [hid] at hc
  cases hc

end Outcome

namespace Justified

variable {ttl now : Span} {past : List Outcome} {key : String} {kept : Kept}

theorem earlier {t : Span} (h : Justified ttl past now key kept) (ht : t ≤ now) :
    Justified ttl past t key kept := by
  obtain ⟨before, o, since, hpast, hf, hnow, hs⟩ := h
  exact ⟨before, o, since, hpast, hf, Span.lt_of_le_of_lt ht hnow, hs⟩

/-- What is justified after one more visit: what was so before, unless the visit deletes a port
in it, and what the visit fetched. -/
theorem concat_iff {o : Outcome} :
    Justified ttl (past ++ [o]) now key kept ↔
      (Justified ttl past now key kept ∧ ¬ o.Voids kept) ∨
        (o.Fetched key kept ∧ now < o.visit.answered + ttl) := by
  have split (past : List Outcome) : Justified ttl past now key kept ↔
      ∃ before o since, past = before ++ o :: since ∧
        (o.Fetched key kept ∧ now < o.visit.answered + ttl) ∧ ∀ o ∈ since, ¬ o.Voids kept := by
    simp only [Justified, and_assoc]
  rw [split, split, exists_since_concat_iff]

/-- A justified answer can be read by every lookup with its key. -/
theorem exists_keep {c : Call} {k : Caching c} (h : Justified ttl past now k.key kept)
    (hk : c.caching? = some k) : ∃ x, k.keep x = kept := by
  obtain ⟨before, o, since, -, ⟨k', hk', hkey, -, x', -, rfl⟩, -⟩ := h
  exact Caching.keep_of_key_eq hk hk' hkey.symm x'

/-- Only entries about ports contain ports. -/
theorem concerns_eq (h : Justified ttl past now key kept) (id : String) :
    concerns id key kept = kept.contains id := by
  obtain ⟨before, o, since, -, ⟨k, hk, rfl, -, x, -, rfl⟩, -⟩ := h
  cases hc : (k.keep x).contains id with
  | false => simp [concerns, hc]
  | true => simp [concerns, hc, Caching.begins_of_contains hk hc]

end Justified

/-! ### The cache follows the history -/

/-- Everything in a cache is a result that the cloud gave. -/
def Stored (ttl : Span) (past : List Outcome) (cache : TtlCache Kept) : Prop :=
  ∀ m ∈ cache.entries,
    ∃ o ∈ past, o.Fetched m.1 m.2.value ∧ m.2.expiresAt = o.visit.answered + ttl

/-- From a time on, a cache finds exactly what is justified by the past. -/
structure Coherent (ttl : Span) (past : List Outcome) (since : Span) (cache : TtlCache Kept) :
    Prop where
  ttl_eq : cache.ttl = ttl
  stored : Stored ttl past cache
  lookup_iff : ∀ now, since ≤ now → ∀ key kept,
    cache.lookup now key = some kept ↔ Justified ttl past now key kept

theorem Stored.mono {ttl : Span} {past : List Outcome} {cache cache' : TtlCache Kept}
    (h : Stored ttl past cache) (hc : cache'.entries ⊆ cache.entries) : Stored ttl past cache' :=
  fun m hm => h m (hc hm)

theorem Stored.concat {ttl : Span} {past : List Outcome} {cache : TtlCache Kept}
    (h : Stored ttl past cache) (o : Outcome) : Stored ttl (past ++ [o]) cache := by
  intro m hm
  obtain ⟨o', ho', hf⟩ := h m hm
  exact ⟨o', List.mem_append_left _ ho', hf⟩

namespace Coherent

variable {ttl since : Span} {past : List Outcome} {cache : TtlCache Kept} {v : Visit}

theorem new (ttl : Span) : Coherent ttl [] since { ttl := ttl } where
  ttl_eq := rfl
  stored := nofun
  lookup_iff now _ key kept := by
    rw [TtlCache.lookup_new]
    refine ⟨nofun, ?_⟩
    rintro ⟨before, o, rest, hpast, -⟩
    simp at hpast

theorem later (h : Coherent ttl past since cache) {t : Span} (ht : since ≤ t) :
    Coherent ttl past t cache where
  ttl_eq := h.ttl_eq
  stored := h.stored
  lookup_iff now hnow := h.lookup_iff now (Span.le_trans ht hnow)

theorem evict (h : Coherent ttl past since cache) {t : Span} (ht : since ≤ t) :
    Coherent ttl past t (cache.evict t).2 where
  ttl_eq := h.ttl_eq
  stored := h.stored.mono (TtlCache.entries_keep_subset ..)
  lookup_iff now hnow key kept := by
    rw [TtlCache.lookup_evict hnow]
    exact (h.later ht).lookup_iff now hnow key kept

/-- The ways for a visit to go. -/
theorem run_cases (h : Coherent ttl past since cache) (ht : since ≤ v.asked) :
    (v.call.isCacheable = false ∧
        v.run cache = (v.cloud v.call, (Cached.afterPassing cache v.call, [v.call]))) ∨
      ∃ k, v.call.caching? = some k ∧
        ((∃ x, cache.lookup v.asked k.key = some (k.keep x) ∧ v.run cache = (.ok x, (cache, []))) ∨
          cache.lookup v.asked k.key = none ∧
            ((∃ e, v.cloud v.call = .error e ∧
                v.run cache = (.error e, (cache.dropExpired v.asked k.key, [v.call]))) ∨
              ∃ x, v.cloud v.call = .ok x ∧ v.run cache = (.ok x,
                ((cache.dropExpired v.asked k.key).insert v.answered k.key (k.keep x),
                  [v.call])))) := by
  cases hk : v.call.caching? with
  | none =>
    have hc : v.call.isCacheable = false := by simp [Call.isCacheable, hk]
    exact .inl ⟨hc, Visit.run_of_passing hc⟩
  | some k =>
    refine .inr ⟨k, rfl, ?_⟩
    cases hl : cache.lookup v.asked k.key with
    | none =>
      cases ha : v.cloud v.call with
      | error e => exact .inr ⟨rfl, .inl ⟨e, rfl, Visit.run_of_error hk hl ha⟩⟩
      | ok x => exact .inr ⟨rfl, .inr ⟨x, rfl, Visit.run_of_ok hk hl ha⟩⟩
    | some kept =>
      obtain ⟨x, rfl⟩ := ((h.lookup_iff _ ht _ _).mp hl).exists_keep hk
      exact .inl ⟨x, rfl, Visit.run_of_found hk hl⟩

theorem explained (h : Coherent ttl past since cache) (ht : since ≤ v.asked) :
    Explained ttl past (v.outcome cache) := by
  rcases h.run_cases ht with ⟨hc, hr⟩ | ⟨k, hk, hr⟩
  · have nothing (k : Caching v.call) : v.call.caching? ≠ some k := by
      intro hk
      simp [Call.isCacheable, hk] at hc
    refine ⟨?_, fun k hk => absurd hk (nothing k), fun k hk => absurd hk (nothing k), ?_⟩ <;>
      simp [hr]
  · have hc := Call.isCacheable_of_caching? hk
    have only (k' : Caching v.call) (hk' : v.call.caching? = some k') : k' = k :=
      Option.some.inj (hk'.symm.trans hk)
    rcases hr with ⟨x, hl, hr⟩ | ⟨hl, hr⟩
    · refine ⟨by simp [hc], fun k' hk' => ?_, fun k' hk' kept hj => ?_, by simp [hr]⟩
      · obtain rfl := only k' hk'
        have hj := (h.lookup_iff _ ht _ _).mp hl
        simpa [hr] using ⟨_, hj⟩
      · obtain rfl := only k' hk'
        have hx := hl.symm.trans ((h.lookup_iff _ ht _ _).mpr hj)
        exact ⟨x, by simp [hr], Option.some.inj hx⟩
    · have unjustified (kept : Kept) : ¬ Justified ttl past v.asked k.key kept := by
        intro hj
        have hfound := (h.lookup_iff _ ht _ _).mpr hj
        rw [hl] at hfound
        cases hfound
      have fetched : (v.run cache).2.2 = [v.call] ∧ (v.run cache).1 = v.cloud v.call := by
        rcases hr with ⟨e, he, hr⟩ | ⟨x, hx, hr⟩ <;> simp [*]
      refine ⟨by simp [hc], fun k' hk' => ?_, fun k' hk' kept hj => ?_, fun _ => fetched⟩
      · obtain rfl := only k' hk'
        simp [fetched.1, unjustified]
      · obtain rfl := only k' hk'
        exact absurd hj (unjustified kept)

/-- A result from the cloud replaces an answer that was not justified any more. -/
theorem lookup_insert (h : Coherent ttl past since cache) (ht : since ≤ v.asked)
    (hv : v.asked ≤ v.answered) {k : Caching v.call} (hl : cache.lookup v.asked k.key = none)
    (value : Kept) {now : Span} (hnow : v.answered ≤ now) (key : String) (kept : Kept) :
    ((cache.dropExpired v.asked k.key).insert v.answered k.key value).lookup now key = some kept ↔
      Justified ttl past now key kept ∨
        ((k.key = key ∧ value = kept) ∧ now < v.answered + ttl) := by
  have hasked : v.asked ≤ now := Span.le_trans hv hnow
  have hsince : since ≤ now := Span.le_trans ht hasked
  by_cases hkey : key = k.key
  · subst hkey
    have unjustified : ¬ Justified ttl past now k.key kept := by
      intro hj
      have hfound := (h.lookup_iff _ ht _ _).mpr (hj.earlier hasked)
      simp [hl] at hfound
    rw [TtlCache.lookup_insert_self, TtlCache.ttl_dropExpired, h.ttl_eq]
    simp [unjustified, and_comm]
  · rw [TtlCache.lookup_insert_of_ne hkey, TtlCache.lookup_dropExpired hasked,
      h.lookup_iff now hsince]
    simp [Ne.symm hkey]

theorem stored_insert (h : Coherent ttl past since cache) {o : Outcome} {key : String}
    {value : Kept} (ho : o.Fetched key value) :
    Stored ttl (past ++ [o])
      ((cache.dropExpired o.visit.asked key).insert o.visit.answered key value) := by
  intro m hm
  rcases TtlCache.mem_entries_insert hm with rfl | hm
  · exact ⟨o, by simp, ho, by rw [TtlCache.ttl_dropExpired, h.ttl_eq]⟩
  · exact h.stored.concat o m (TtlCache.entries_dropExpired_subset _ _ _ hm)

/-- A visit that gets nothing from the cloud and deletes nothing leaves the past as it was. -/
theorem concat (h : Coherent ttl past since cache) {t : Span} (ht : since ≤ t)
    {cache' : TtlCache Kept} (httl : cache'.ttl = cache.ttl)
    (hentries : cache'.entries ⊆ cache.entries)
    (hlookup : ∀ now, t ≤ now → ∀ key, cache'.lookup now key = cache.lookup now key) {o : Outcome}
    (hf : ∀ key kept, ¬ o.Fetched key kept) (hv : ∀ kept, ¬ o.Voids kept) :
    Coherent ttl (past ++ [o]) t cache' where
  ttl_eq := httl.trans h.ttl_eq
  stored := (h.stored.mono hentries).concat o
  lookup_iff now hnow key kept := by
    rw [hlookup now hnow, (h.later ht).lookup_iff now hnow, Justified.concat_iff]
    simp [hf, hv]

/-- A call that goes past the cache makes no new answer, and may void some. -/
theorem pass (h : Coherent ttl past since cache) {t : Span} (ht : since ≤ t)
    (hc : v.call.isCacheable = false) :
    Coherent ttl (past ++ [v.outcome cache]) t (Cached.afterPassing cache v.call) where
  ttl_eq := by simp [h.ttl_eq]
  stored := (h.stored.mono (Cached.entries_afterPassing_subset ..)).concat _
  lookup_iff now hnow key kept := by
    rw [Justified.concat_iff, or_iff_left fun hf => Outcome.not_fetched_of_passing hc hf.1,
      Cached.lookup_afterPassing, (h.later ht).lookup_iff now hnow]
    refine and_congr_right fun hj => ?_
    simp [Outcome.Voids, hj.concerns_eq]

/-- A visit leaves the cache in step with the history that it extends. -/
theorem visit (h : Coherent ttl past since cache) (ht : since ≤ v.asked)
    (hv : v.asked ≤ v.answered) :
    Coherent ttl (past ++ [v.outcome cache]) v.answered (v.after cache) := by
  have hsince : since ≤ v.answered := Span.le_trans ht hv
  rcases h.run_cases ht with ⟨hc, hr⟩ | ⟨k, hk, hr⟩
  · have hafter : v.after cache = Cached.afterPassing cache v.call := by rw [Visit.after, hr]
    rw [hafter]
    exact h.pass hsince hc
  · have unvoided (kept : Kept) : ¬ (v.outcome cache).Voids kept :=
      Outcome.not_voids_of_caching? hk
    rcases hr with ⟨x, -, hr⟩ | ⟨hl, ⟨e, -, hr⟩ | ⟨x, -, hr⟩⟩
    · have hafter : v.after cache = cache := by rw [Visit.after, hr]
      have unfetched (key : String) (kept : Kept) : ¬ (v.outcome cache).Fetched key kept :=
        Outcome.not_fetched_of_not_reached (by simp [hr])
      rw [hafter]
      exact h.concat hsince rfl (List.Subset.refl _) (fun _ _ _ => rfl) unfetched unvoided
    · have hafter : v.after cache = cache.dropExpired v.asked k.key := by rw [Visit.after, hr]
      have unfetched (key : String) (kept : Kept) : ¬ (v.outcome cache).Fetched key kept :=
        Outcome.not_fetched_of_error (e := e) (by simp [hr])
      rw [hafter]
      refine h.concat hsince (TtlCache.ttl_dropExpired ..)
        (TtlCache.entries_dropExpired_subset ..) (fun now hnow key => ?_) unfetched unvoided
      exact TtlCache.lookup_dropExpired (Span.le_trans hv hnow) cache k.key key
    · have hafter : v.after cache =
          (cache.dropExpired v.asked k.key).insert v.answered k.key (k.keep x) := by
        rw [Visit.after, hr]
      have fetched (key : String) (kept : Kept) :
          (v.outcome cache).Fetched key kept ↔ k.key = key ∧ k.keep x = kept :=
        Outcome.fetched_iff hk (by simp [hr]) (by simp [hr])
      rw [hafter]
      refine ⟨by simp [h.ttl_eq], ?_, fun now hnow key kept => ?_⟩
      · exact h.stored_insert ((fetched _ _).mpr ⟨rfl, rfl⟩)
      · simp [Justified.concat_iff, unvoided, fetched, h.lookup_insert ht hv hl (k.keep x) hnow]

/-- Two caches with the same past give the same outcome. -/
theorem outcome_eq {cache' : TtlCache Kept} (h : Coherent ttl past since cache)
    (h' : Coherent ttl past since cache') (ht : since ≤ v.asked) :
    v.outcome cache = v.outcome cache' := by
  have lookup (key : String) : cache.lookup v.asked key = cache'.lookup v.asked key :=
    Option.ext fun kept => by rw [h.lookup_iff _ ht, h'.lookup_iff _ ht]
  have run : (v.run cache).1 = (v.run cache').1 ∧ (v.run cache).2.2 = (v.run cache').2.2 := by
    rcases h.run_cases ht with ⟨hc, hr⟩ | ⟨k, hk, ⟨x, hl, hr⟩ | ⟨hl, ⟨e, ha, hr⟩ | ⟨x, ha, hr⟩⟩⟩
    · simp [hr, Visit.run_of_passing hc]
    · simp [hr, Visit.run_of_found hk ((lookup _).symm.trans hl)]
    · simp [hr, Visit.run_of_error hk ((lookup _).symm.trans hl) ha]
    · simp [hr, Visit.run_of_ok hk ((lookup _).symm.trans hl) ha]
  simp [Visit.outcome, run]

end Coherent

end ContainerPorts.Cloud
