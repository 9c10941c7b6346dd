import ContainerPorts.Cloud.Cached
import Mathlib.Tactic.Common

/-!
# One call through the cache

A call that cannot be cached reaches the cloud exactly once. A lookup is answered
by the cache alone, or by the cloud, asked once, whose answer is kept if it is a
result. So there are two ways for a call to end, and every later argument about
the cache starts from them.
-/
namespace ContainerPorts.Cloud

theorem Call.isCacheable_of_caching? {c : Call} {k : Caching c} (h : c.caching? = some k) :
    c.isCacheable = true := by simp [isCacheable, h]

namespace Cached

variable {σ : Type} (cloud : (c : Call) → σ → c.Answer × σ) (asked answered : Span)
  (cache : TtlCache Kept) (s : σ)

/-- What a call does, with the cloud's part left to `cloud`. -/
def run (c : Call) : c.Answer × (TtlCache Kept × σ) :=
  (answer c).runWith (step cloud asked answered) (cache, s)

/-- What a call does to the cache if it goes past it. -/
def afterPassing (c : Call) : TtlCache Kept :=
  match c with
  | .deletePort id => (cache.purge (concerns id)).2
  | _ => cache

theorem run_of_not_cacheable {c : Call} (h : c.isCacheable = false) :
    run cloud asked answered cache s c =
      ((cloud c s).1, (afterPassing cache c, (cloud c s).2)) := by
  cases c <;> first | rfl | simp [Call.isCacheable, Call.caching?] at h

@[simp] theorem ttl_afterPassing (c : Call) : (afterPassing cache c).ttl = cache.ttl := by
  cases c <;> rfl

theorem entries_afterPassing_subset (c : Call) :
    (afterPassing cache c).entries ⊆ cache.entries := by
  cases c with
  | deletePort id => exact TtlCache.entries_keep_subset ..
  | _ => exact List.Subset.refl _

/-- A deletion hides the answers that concern the port. -/
theorem lookup_afterPassing {cache : TtlCache Kept} {c : Call} {now : Span} {key : String}
    {kept : Kept} :
    (afterPassing cache c).lookup now key = some kept ↔
      cache.lookup now key = some kept ∧
        ∀ id, c = .deletePort id → concerns id key kept = false := by
  cases c with
  | deletePort id =>
    simp only [afterPassing, TtlCache.lookup_purge, Call.deletePort.injEq, forall_eq']
  | _ => simp [afterPassing]

variable {c : Call} (k : Caching c)

/-- What a lookup does once it has asked the cloud. -/
def fetched (r : c.Answer × σ) : c.Answer × (TtlCache Kept × σ) :=
  match r.1 with
  | .ok x => (.ok x, (cache.insert answered k.key (k.keep x), r.2))
  | .error e => (.error e, (cache, r.2))

theorem runWith_fetch :
    (readThrough.fetch k).runWith (step cloud asked answered) (cache, s) =
      fetched answered cache k (cloud c s) := by
  simp only [readThrough.fetch, request, Program.perform, Program.ask_bind, Program.done_bind,
    Program.runWith_ask, step, fetched]
  cases (cloud c s).1 <;> rfl

theorem answer_of_caching? {k : Caching c} (h : c.caching? = some k) : answer c = readThrough k := by
  cases c <;> simp only [Call.caching?, Option.some.injEq, reduceCtorEq] at h
  all_goals subst h; rfl

variable {k}

/-- A lookup is answered by the cache alone if that holds a readable answer; otherwise the
cloud is asked once. -/
theorem run_of_caching? (hk : c.caching? = some k) :
    run cloud asked answered cache s c =
      match cache.lookup asked k.key with
      | some v =>
        match k.read? v with
        | some x => (.ok x, (cache, s))
        | none => fetched answered cache k (cloud c s)
      | none => fetched answered (cache.dropExpired asked k.key) k (cloud c s) := by
  simp only [run, answer_of_caching? hk, readThrough, request, Program.perform, Program.ask_bind,
    Program.done_bind, Program.runWith_ask, step]
  cases cache.lookup asked k.key with
  | none => exact runWith_fetch cloud asked answered _ s k
  | some v =>
    dsimp only
    cases k.read? v with
    | some x => rfl
    | none => exact runWith_fetch cloud asked answered cache s k

/-- Every lookup leaves what is behind the cache alone, or asks it exactly once. -/
theorem run_inner (hk : c.caching? = some k) :
    (run cloud asked answered cache s c).2.2 = s ∨
      (run cloud asked answered cache s c).2.2 = (cloud c s).2 := by
  have fetched_inner (cache : TtlCache Kept) :
      (fetched answered cache k (cloud c s)).2.2 = (cloud c s).2 := by
    unfold fetched
    cases (cloud c s).1 <;> rfl
  rw [run_of_caching? cloud asked answered cache s hk]
  split
  · split
    · exact .inl rfl
    · exact .inr (fetched_inner _)
  · exact .inr (fetched_inner _)

end Cached

end ContainerPorts.Cloud
