import ContainerPorts.Proofs.Cloud.CacheCallers
import ContainerPorts.Proofs.Cloud.LateReads
import ContainerPorts.Proofs.Cloud.SharedKeys

/-!
# What the cloud never finds

Only what was found is kept. So as long as the cloud finds nothing for the lookups that share a
key, the cache has nothing under this key, whatever all its callers do at the same time. Such a
lookup misses the cache every time, and reaches the cloud exactly once.
-/
namespace ContainerPorts.Cloud.Cached

/-- The setting of a turn. Expired entries may have been evicted since the turn before. -/
structure Slot where
  evictions : List Span := []
  moment : Moment

def evicted (cache : TtlCache Kept) (times : List Span) : TtlCache Kept :=
  times.foldl (fun c t => (c.evict t).2) cache

def answerIn (s : Slot) (r : CachedRequest) (cache : TtlCache Kept) : r.Answer × TtlCache Kept :=
  answerAt s.moment r (evicted cache s.evictions)

/-- The calls that reached the cloud, with its answers. -/
def cloudReplies (es : List (Program.Reply cachedCalls)) : List (Program.Reply calls) :=
  es.filterMap fun
    | ⟨.cloud c, a⟩ => some ⟨c, a⟩
    | _ => none

/-! ### A lookup that misses the cache -/

/-- No answer was found in the cache under a key. -/
def Misses (key : String) (es : List (Program.Reply cachedCalls)) : Prop :=
  ∀ v now, ⟨.lookup key, (some v, now)⟩ ∉ es

theorem misses_append {key : String} {es es' : List (Program.Reply cachedCalls)} :
    Misses key (es ++ es') ↔ Misses key es ∧ Misses key es' := by
  simp only [Misses, List.mem_append, not_or, forall_and]

/-- A lookup that does not find its key asks the cloud exactly once, and gives its answer. -/
theorem tells_answer {c : Call} {k : Caching c} (hk : c.caching? = some k) :
    (answer c).Tells fun es a => Misses k.key es → cloudReplies es = [⟨c, a⟩] := by
  rw [answer_of_caching? hk, readThrough_eq]
  refine Program.tells_ask ?_
  rintro ⟨_ | v, now⟩
  · refine Program.tells_ask fun _ => Program.tells_ask fun a => ?_
    cases a with
    | ok x => exact Program.tells_ask fun _ => Program.tells_done fun _ => rfl
    | error e => exact Program.tells_done fun _ => rfl
  · exact ⟨fun es a _ hmiss => absurd List.mem_cons_self (hmiss v now)⟩

/-! ### Keys without an answer -/

/-- No answer is kept under a key, not even an expired one. -/
def Lacks (key : String) (cache : TtlCache Kept) : Prop := ∀ m ∈ cache.entries, m.1 ≠ key

namespace Lacks

variable {key : String} {cache cache' : TtlCache Kept}

theorem subset (h : Lacks key cache) (hsub : cache'.entries ⊆ cache.entries) : Lacks key cache' :=
  fun m hm => h m (hsub hm)

theorem lookup (h : Lacks key cache) (now : Span) : cache.lookup now key = none := by
  rw [TtlCache.lookup, Table.find?_eq_none h]

theorem evicted (h : Lacks key cache) (times : List Span) : Lacks key (evicted cache times) := by
  induction times generalizing cache with
  | nil => exact h
  | cons t times ih => exact ih (h.subset (TtlCache.entries_keep_subset ..))

/-- Only an insertion under the key itself puts an answer there. -/
theorem answerIn (h : Lacks key cache) (s : Slot) {r : CachedRequest}
    (hr : ∀ v, r ≠ .insert key v) : Lacks key (answerIn s r cache).2 := by
  have hevicted := h.evicted s.evictions
  cases r with
  | cloud | lookup => exact hevicted
  | dropExpired other asOf => exact hevicted.subset (TtlCache.entries_dropExpired_subset ..)
  | insert other v =>
    intro m hm
    rcases TtlCache.mem_entries_insert hm with rfl | hm
    · exact fun hkey => hr v (congrArg (CachedRequest.insert · v) hkey)
    · exact hevicted m hm
  | purge id =>
    have hsub : ((Cached.evicted cache s.evictions).purge (concerns id)).2.entries ⊆
        (Cached.evicted cache s.evictions).entries := TtlCache.entries_keep_subset ..
    exact hevicted.subset hsub

end Lacks

/-! ### Callers of one cache -/

/-- Whatever a caller keeps, the cloud found it for a lookup with this key. -/
theorem exists_fetched_of_insert_expand {β : Type} {p : Program calls β}
    {es : List (Program.Reply cachedCalls)} {key : String} {v : Kept}
    {next : Unit → Program cachedCalls β}
    (h : (p.expand answer).Follows es (.ask (.insert key v) next)) :
    ∃ c k x, c.caching? = some k ∧ k.key = key ∧ ⟨.cloud c, .ok x⟩ ∈ es := by
  induction p generalizing es with
  | done b => cases (Program.Follows.done_iff.mp h).2
  | ask c rest ih =>
    rcases Program.Follows.of_bind_ask h with ⟨_, hcall⟩ | ⟨a, es₁, es₂, rfl, hrest⟩
    · obtain ⟨k, x, hk, hkey, -, hmem⟩ := exists_fetched_of_insert hcall
      exact ⟨c, k, x, hk, hkey, hmem⟩
    · obtain ⟨c', k, x, hk, hkey, hmem⟩ := ih a hrest
      exact ⟨c', k, x, hk, hkey, List.mem_append_right es₁ hmem⟩

section

variable {ι : Type} [DecidableEq ι] {ρ : ι → Type} {callers : (i : ι) → Program calls (ρ i)}
  {cache : TtlCache Kept} {ts : List (Turn ι Slot)}
  {x : Interleaving cachedCalls ρ (TtlCache Kept) Slot}
  {before after : List (Exchange cachedCalls ι Slot)} {c : Call} {k : Caching c}
  (h : Interleaving.Traced answerIn (fun i => (callers i).expand answer) cache ts x)
  (hk : c.caching? = some k)
  (hnever : ∀ t ∈ ts, ∀ c' : Call, c'.SharesKey c → ∀ y, t.setting.moment.cloud c' ≠ .ok y)
  (hlacks : Lacks k.key cache)

include h hk hnever hlacks

/-- The cache never has an answer to a lookup for which the cloud finds nothing. -/
theorem lacks_stateAfter (htrace : x.trace = before ++ after) :
    Lacks k.key (Exchange.stateAfter answerIn cache before) := by
  refine concat_induction (P := fun es : List (Exchange cachedCalls ι Slot) =>
    Lacks k.key (Exchange.stateAfter answerIn cache es)) hlacks fun es e es' hbefore ih => ?_
  obtain ⟨t, r, a⟩ := e
  have hsplit : x.trace = es ++ ⟨t, r, a⟩ :: (es' ++ after) := by simp [htrace, hbefore]
  have hlast : Exchange.stateAfter answerIn cache (es ++ [⟨t, r, a⟩]) =
      (answerIn t.setting r (Exchange.stateAfter answerIn cache es)).2 := by
    simp [Exchange.stateAfter]
  rw [hlast]
  refine ih.answerIn t.setting ?_
  rintro v rfl
  -- what is kept under the key was found by the cloud, for a lookup that shares it
  obtain ⟨next, hat, -⟩ := h.at_request hsplit
  obtain ⟨c', k', y, hk', hkey, hmem⟩ := exists_fetched_of_insert_expand hat
  have hfound : ⟨.cloud c', .ok y⟩ ∈ Exchange.ofTask t.task x.trace := by
    rw [hsplit, Exchange.ofTask_append]
    exact List.mem_append_left _ hmem
  obtain ⟨_, t', _, -, ht', -, hcloud⟩ := h.exists_turn hfound
  exact hnever t' ht' c' ((Caching.key_eq_iff hk' hk).mp hkey) y hcloud.symm

/-- Such a lookup misses the cache every time. -/
theorem misses_of_never (i : ι) : Misses k.key (Exchange.ofTask i x.trace) := by
  intro v now hmem
  obtain ⟨early, t, late, htrace, -, -, hanswer⟩ := h.exists_turn hmem
  have hlacks' := lacks_stateAfter h hk hnever hlacks htrace
  have hmiss := (hlacks'.evicted t.setting.evictions).lookup t.setting.moment.now
  exact absurd ((congrArg Prod.fst hanswer).trans hmiss) nofun

end

end ContainerPorts.Cloud.Cached
