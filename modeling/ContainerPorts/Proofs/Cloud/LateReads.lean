import ContainerPorts.Cloud.World
import ContainerPorts.Proofs.Cloud.CacheKey
import ContainerPorts.Proofs.Cloud.CacheSteps
import ContainerPorts.Proofs.Cloud.ReadThrough
import ContainerPorts.Proofs.Interleaving

/-!
# Reads that overlap a deletion

A deletion first drops the kept answers with the port and then deletes the port in
the cloud. A read first asks the cloud and then keeps the answer. When both go on
at the same time, a read can fetch the port before it is deleted and keep it after
the answers were dropped. Such a straggler, and nothing else, makes a later read
give a port that is gone, until its answer expires or is replaced.
-/
namespace ContainerPorts.Cloud

/-- The time of a turn, and what the cloud says then. -/
structure Moment where
  now : Span
  cloud : (c : Call) → c.Answer

namespace Cached

/-- Answer a request on a cache that is shared. -/
def answerAt (m : Moment) (r : CachedRequest) (cache : TtlCache Kept) :
    r.Answer × TtlCache Kept :=
  let x := step (fun c (_ : Unit) => (m.cloud c, ())) m.now m.now r (cache, ())
  (x.1, x.2.1)

/-! ### How far a read has come -/

variable {c : Call} {k : Caching c}

/-- What is left of a read that has asked the cloud. -/
def answered (k : Caching c) : c.Answer → Program cachedCalls c.Answer
  | .ok x => .ask (.insert k.key (k.keep x)) fun _ => .done (.ok x)
  | .error e => .done (.error e)

theorem fetch_eq (k : Caching c) : readThrough.fetch k = .ask (.cloud c) (answered k) := by
  refine congrArg (Program.ask (S := cachedCalls) (CachedRequest.cloud c)) (funext fun a => ?_)
  cases a <;> rfl

/-- What is left of a read that has looked its key up. -/
def lookedUp (k : Caching c) : Option Kept × Span → Program cachedCalls c.Answer
  | (some v, _) =>
    match k.read? v with
    | some x => .done (.ok x)
    | none => .ask (.cloud c) (answered k)
  | (none, now) => .ask (.dropExpired k.key now) fun _ => .ask (.cloud c) (answered k)

theorem readThrough_eq (k : Caching c) :
    readThrough k = .ask (.lookup k.key) (lookedUp k) := by
  refine congrArg (Program.ask (S := cachedCalls) (CachedRequest.lookup k.key)) (funext fun a => ?_)
  obtain ⟨_ | v, now⟩ := a
  · simp only [lookedUp, ← fetch_eq]
    rfl
  · simp only [lookedUp, ← fetch_eq]
    change (match k.read? v with | some x => pure (Except.ok x) | none => _) = _
    cases k.read? v <;> rfl

/-- What a read has asked, and what is left of it. -/
inductive Reading (k : Caching c) :
    List (Program.Reply cachedCalls) → Program cachedCalls c.Answer → Prop
  | start : Reading k [] (.ask (.lookup k.key) (lookedUp k))
  | found {v now x} (h : k.read? v = some x) :
    Reading k [⟨.lookup k.key, (some v, now)⟩] (.done (.ok x))
  | unreadable {v now} (h : k.read? v = none) :
    Reading k [⟨.lookup k.key, (some v, now)⟩] (.ask (.cloud c) (answered k))
  | missing {now} : Reading k [⟨.lookup k.key, (none, now)⟩]
    (.ask (.dropExpired k.key now) fun _ => .ask (.cloud c) (answered k))
  | asking {now} : Reading k [⟨.lookup k.key, (none, now)⟩, ⟨.dropExpired k.key now, ()⟩]
    (.ask (.cloud c) (answered k))
  | fetched {es} (x : c.Result) :
    Reading k (es ++ [⟨.cloud c, .ok x⟩])
      (.ask (.insert k.key (k.keep x)) fun _ => .done (.ok x))
  | kept {es} (x : c.Result) :
    Reading k (es ++ [⟨.cloud c, .ok x⟩] ++ [⟨.insert k.key (k.keep x), ()⟩]) (.done (.ok x))
  | failed {es} (e : Failure) : Reading k (es ++ [⟨.cloud c, .error e⟩]) (.done (.error e))

theorem Reading.ask {es : List (Program.Reply cachedCalls)} {r : CachedRequest}
    {next : r.Answer → Program cachedCalls c.Answer} (h : Reading k es (.ask r next))
    (a : r.Answer) : Reading k (es ++ [⟨r, a⟩]) (next a) := by
  cases h with
  | start =>
    obtain ⟨_ | v, now⟩ := a
    · exact .missing
    · cases hv : k.read? v with
      | none => simpa only [lookedUp, hv, List.nil_append] using Reading.unreadable hv
      | some x => simpa only [lookedUp, hv, List.nil_append] using Reading.found hv
  | unreadable | asking =>
    cases a with
    | ok x => exact .fetched x
    | error e => exact .failed e
  | missing => exact .asking
  | fetched x => exact .kept x

theorem reading_of_follows {es : List (Program.Reply cachedCalls)}
    {q : Program cachedCalls c.Answer} (h : (readThrough k).Follows es q) : Reading k es q := by
  rw [readThrough_eq] at h
  exact h.invariant .start fun es r next a hr => hr.ask a

/-- A read keeps only what it fetched. -/
theorem Reading.of_insert {es : List (Program.Reply cachedCalls)} {key : String} {v : Kept}
    {next : Unit → Program cachedCalls c.Answer} (h : Reading k es (.ask (.insert key v) next)) :
    k.key = key ∧ ∃ x, k.keep x = v ∧ ⟨.cloud c, .ok x⟩ ∈ es := by
  cases h with
  | fetched x => exact ⟨rfl, x, rfl, by simp⟩

/-- A read drops an entry as of the time at which it looked it up. -/
theorem Reading.of_dropExpired {es : List (Program.Reply cachedCalls)} {key : String} {asOf : Span}
    {next : Unit → Program cachedCalls c.Answer}
    (h : Reading k es (.ask (.dropExpired key asOf) next)) :
    ⟨.lookup key, (none, asOf)⟩ ∈ es := by
  cases h with
  | missing => simp

/-- A read gives what it found or what it fetched. -/
theorem Reading.of_ok {es : List (Program.Reply cachedCalls)} {x : c.Result}
    (h : Reading k es (.done (.ok x))) :
    (∃ v now, es = [⟨.lookup k.key, (some v, now)⟩] ∧ k.read? v = some x) ∨
      ⟨.cloud c, .ok x⟩ ∈ es := by
  cases h with
  | found hx => exact .inl ⟨_, _, rfl, hx⟩
  | kept x => exact .inr (by simp)

/-- A read looks its key up first. -/
theorem Reading.of_lookup {es : List (Program.Reply cachedCalls)} {key : String}
    {next : Option Kept × Span → Program cachedCalls c.Answer}
    (h : Reading k es (.ask (.lookup key) next)) : es = [] ∧ next = lookedUp k := by
  cases h with
  | start => exact ⟨rfl, rfl⟩

theorem reading_of_caching? {es : List (Program.Reply cachedCalls)}
    {q : Program cachedCalls c.Answer} (hk : c.caching? = some k) (h : (answer c).Follows es q) :
    Reading k es q := by
  rw [answer_of_caching? hk] at h
  exact reading_of_follows h

/-- What a deletion has asked, and what is left of it. -/
inductive Deleting (id : String) :
    List (Program.Reply cachedCalls) → Program cachedCalls (Call.Answer (.deletePort id)) → Prop
  | start : Deleting id [] (.ask (.purge id) fun _ => .ask (.cloud (.deletePort id)) .done)
  | purged (n : Nat) : Deleting id [⟨.purge id, n⟩] (.ask (.cloud (.deletePort id)) .done)
  | ended (n : Nat) (a : Call.Answer (.deletePort id)) :
    Deleting id [⟨.purge id, n⟩, ⟨.cloud (.deletePort id), a⟩] (.done a)

theorem deleting_of_follows {id : String} {es : List (Program.Reply cachedCalls)}
    {q : Program cachedCalls (Call.Answer (.deletePort id))}
    (h : (answer (.deletePort id)).Follows es q) : Deleting id es q := by
  refine h.invariant .start fun es r next a hd => ?_
  cases hd with
  | start => exact .purged a
  | purged n => exact .ended n a

theorem Deleting.of_cloud {id : String} {es : List (Program.Reply cachedCalls)} {c : Call}
    {next : c.Answer → Program cachedCalls (Call.Answer (.deletePort id))}
    (h : Deleting id es (.ask (.cloud c) next)) : ∃ n, es = [⟨.purge id, n⟩] := by
  cases h with
  | purged n => exact ⟨n, rfl⟩

/-- A call that goes past the cache inserts nothing and drops nothing by its time. -/
theorem request_of_not_cacheable {es : List (Program.Reply cachedCalls)} {r : CachedRequest}
    {next : r.Answer → Program cachedCalls c.Answer} (hc : c.isCacheable = false)
    (h : (answer c).Follows es (.ask r next)) : r = .cloud c ∨ ∃ id, r = .purge id := by
  have of_passing (hp : answer c = .ask (.cloud c) .done) : r = .cloud c := by
    rw [hp, Program.Follows.ask_iff] at h
    rcases h with ⟨-, h⟩ | ⟨a, es', -, h⟩
    · cases h
      rfl
    · cases (Program.Follows.done_iff.mp h).2
  cases c with
  | deletePort id =>
    cases deleting_of_follows h with
    | start => exact .inr ⟨id, rfl⟩
    | purged n => exact .inl rfl
  | _ => first | exact .inl (of_passing rfl) | cases hc

theorem exists_fetched_of_insert {es : List (Program.Reply cachedCalls)} {key : String} {v : Kept}
    {next : Unit → Program cachedCalls c.Answer}
    (h : (answer c).Follows es (.ask (.insert key v) next)) :
    ∃ k x, c.caching? = some k ∧ k.key = key ∧ k.keep x = v ∧ ⟨.cloud c, .ok x⟩ ∈ es := by
  cases hk : c.caching? with
  | none =>
    rcases request_of_not_cacheable (by simp [Call.isCacheable, hk]) h with hr | ⟨id, hr⟩ <;>
      cases hr
  | some k =>
    obtain ⟨hkey, x, hx, hmem⟩ := (reading_of_caching? hk h).of_insert
    exact ⟨k, x, rfl, hkey, hx, hmem⟩

theorem looked_up_of_dropExpired {es : List (Program.Reply cachedCalls)} {key : String}
    {asOf : Span} {next : Unit → Program cachedCalls c.Answer}
    (h : (answer c).Follows es (.ask (.dropExpired key asOf) next)) :
    ⟨.lookup key, (none, asOf)⟩ ∈ es := by
  cases hk : c.caching? with
  | none =>
    rcases request_of_not_cacheable (by simp [Call.isCacheable, hk]) h with hr | ⟨id, hr⟩ <;>
      cases hr
  | some k => exact (reading_of_caching? hk h).of_dropExpired

/-! ### The entries of a shared cache -/

variable {ι : Type}

/-- The step on the entries of the cache that was taken at a turn. -/
def step? (e : Exchange cachedCalls ι Moment) : Option (Span × TtlCache.Step Kept) :=
  match e.request with
  | .insert key v => some (e.turn.setting.now, .insert key v)
  | .dropExpired key asOf => some (e.turn.setting.now, .dropExpired asOf key)
  | .purge id => some (e.turn.setting.now, .purge (concerns id))
  | .cloud _ => none
  | .lookup _ => none

def steps (es : List (Exchange cachedCalls ι Moment)) : List (Span × TtlCache.Step Kept) :=
  es.filterMap step?

theorem stateAfter_eq (cache : TtlCache Kept) (es : List (Exchange cachedCalls ι Moment)) :
    Exchange.stateAfter answerAt cache es = cache.afterSteps (steps es) := by
  induction es using List.reverseRecOn with
  | nil => rfl
  | append_singleton es e ih =>
    obtain ⟨t, r, a⟩ := e
    have hlast : Exchange.stateAfter answerAt cache (es ++ [⟨t, r, a⟩]) =
        (answerAt t.setting r (Exchange.stateAfter answerAt cache es)).2 := by
      simp [Exchange.stateAfter]
    rw [hlast, ih]
    cases r <;> simp [steps, step?, TtlCache.afterSteps] <;> rfl

/-- What the cloud gave to a task. -/
def Fetches (e : Exchange cachedCalls ι Moment) (kept : Kept) : Prop :=
  ∃ c x k, e.reply = ⟨.cloud c, .ok x⟩ ∧ c.caching? = some k ∧ k.keep x = kept

theorem not_fetches_deletePort {t : Turn ι Moment} {id : String} {a : Call.Answer (.deletePort id)}
    {kept : Kept} : ¬ Fetches ⟨t, .cloud (.deletePort id), a⟩ kept := by
  rintro ⟨c, x, k, hreply, hk, -⟩
  obtain rfl := CachedRequest.cloud.inj (congrArg Sigma.fst hreply)
  cases hk

theorem lasting_steps_iff {ttl now : Span} {es : List (Exchange cachedCalls ι Moment)}
    {key : String} {v : Kept} :
    TtlCache.Lasting ttl (steps es) now key v ↔
      ∃ before t since, es = before ++ ⟨t, .insert key v, ()⟩ :: since ∧
        now < t.setting.now + ttl ∧ ∀ s ∈ steps since, ¬ s.2.Displaces key v := by
  constructor
  · rintro ⟨before, time, since, hsteps, hnow, hsince⟩
    obtain ⟨l, l', rfl, hl, hl'⟩ := List.filterMap_eq_append_iff.mp hsteps
    obtain ⟨m, e, m', rfl, hm, he, hm'⟩ := List.filterMap_eq_cons_iff.mp hl'
    obtain ⟨t, r, a⟩ := e
    cases r <;> simp only [step?, Option.some.injEq, Prod.mk.injEq, reduceCtorEq, and_false,
      TtlCache.Step.insert.injEq] at he
    obtain ⟨rfl, rfl, rfl⟩ := he
    refine ⟨l ++ m, t, m', by simp, hnow, ?_⟩
    rwa [steps, hm']
  · rintro ⟨before, t, since, rfl, hnow, hsince⟩
    exact ⟨steps before, t.setting.now, steps since, by simp [steps, step?], hnow, hsince⟩

/-! ### Calls side by side -/

section

variable [DecidableEq ι] {calls : ι → Call} {cache : TtlCache Kept}
  {ts : List (Turn ι Moment)} {x : Interleaving cachedCalls (fun i => (calls i).Answer) _ Moment}
  (h : Interleaving.Traced answerAt (fun i => answer (calls i)) cache ts x)

include h

/-- What a task keeps it has fetched before. -/
theorem fetches_before_insert {before after : List (Exchange cachedCalls ι Moment)}
    {t : Turn ι Moment} {key : String} {v : Kept}
    (htrace : x.trace = before ++ ⟨t, .insert key v, ()⟩ :: after) :
    ∃ k x, (calls t.task).caching? = some k ∧ k.key = key ∧ k.keep x = v ∧
      ∃ e ∈ before, e.turn.task = t.task ∧ Fetches e v := by
  obtain ⟨next, hat, -⟩ := h.at_request htrace
  obtain ⟨k, y, hk, hkey, hy, hmem⟩ := exists_fetched_of_insert hat
  obtain ⟨e, he, htask, hreply⟩ := Exchange.mem_ofTask.mp hmem
  exact ⟨k, y, hk, hkey, hy, e, he, htask, calls t.task, y, k, hreply, hk, hy⟩

variable (hclock : (ts.map fun t => t.setting.now).Pairwise (· ≤ ·))

include hclock

/-- No step looks at a time that is still to come. -/
theorem steps_before {before after : List (Exchange cachedCalls ι Moment)}
    {e : Exchange cachedCalls ι Moment} (htrace : x.trace = before ++ e :: after) :
    ∀ s ∈ steps before, s.2.Before e.turn.setting.now s.1 := by
  intro s hs
  obtain ⟨⟨t, r, a⟩, he', hstep⟩ := List.mem_filterMap.mp hs
  have hnow := h.rel_of_mem hclock htrace he'
  cases r with
  | dropExpired key asOf =>
    obtain rfl := Option.some.inj hstep
    obtain ⟨b, b', rfl⟩ := List.append_of_mem he'
    have hdrop : x.trace = b ++ ⟨t, .dropExpired key asOf, a⟩ :: (b' ++ e :: after) := by
      simpa using htrace
    obtain ⟨next, hat, -⟩ := h.at_request hdrop
    obtain ⟨t', -, hl⟩ := Exchange.exists_turn_of_mem_ofTask (looked_up_of_dropExpired hat)
    have hasked := h.rel_of_mem hclock htrace (List.mem_append_left _ hl)
    obtain ⟨c, c', rfl⟩ := List.append_of_mem hl
    have hlookup : x.trace = c ++ ⟨t', .lookup key, (none, asOf)⟩ ::
        (c' ++ ⟨t, .dropExpired key asOf, a⟩ :: (b' ++ e :: after)) := by
      simpa using hdrop
    have hasOf : asOf = t'.setting.now := congrArg Prod.snd (h.answers _ _ _ hlookup)
    rw [hasOf]
    exact hasked
  | insert | purge =>
    obtain rfl := Option.some.inj hstep
    exact hnow
  | cloud | lookup => cases hstep

/-- What a task found was kept since before all turns, or was kept by a task. -/
theorem lookup_eq_some_iff {before after : List (Exchange cachedCalls ι Moment)} {t : Turn ι Moment}
    {key : String} {a : Option Kept × Span} {v : Kept}
    (htrace : x.trace = before ++ ⟨t, .lookup key, a⟩ :: after) :
    a.1 = some v ↔
      (cache.lookup t.setting.now key = some v ∧ ∀ s ∈ steps before, ¬ s.2.Displaces key v) ∨
        TtlCache.Lasting cache.ttl (steps before) t.setting.now key v := by
  have ha : a.1 = (cache.afterSteps (steps before)).lookup t.setting.now key := by
    have hanswer := h.answers _ _ _ htrace
    rw [stateAfter_eq] at hanswer
    exact congrArg Prod.fst hanswer
  rw [ha, TtlCache.lookup_afterSteps (steps_before h hclock htrace)]

end

/-! ### A deletion and other calls -/

variable {κ : Type}

/-- One deletion, and other calls. -/
def racing (id : String) (others : κ → Call) : Option κ → Call
  | none => .deletePort id
  | some r => others r

/-- One deletion and other calls through one cache, at their turns. -/
def race [DecidableEq κ] (id : String) (others : κ → Call) (cache : TtlCache Kept)
    (ts : List (Turn (Option κ) Moment)) :
    Interleaving cachedCalls (fun i => (racing id others i).Answer) (TtlCache Kept) Moment :=
  Interleaving.run answerAt { left := fun i => answer (racing id others i), state := cache } ts

/-- An answer with the port that a task fetched early, before the cloud deleted the port, but kept
after the purge, and that a lookup still finds. -/
def Straggling (id : String) (ttl : Span)
    (early before : List (Exchange cachedCalls (Option κ) Moment)) (now : Span) (key : String) :
    Prop :=
  ∃ kept start t since, before = start ++ ⟨t, .insert key kept, ()⟩ :: since ∧
    kept.contains id = true ∧
    (∃ e ∈ early, e.turn.task = t.task ∧ Fetches e kept) ∧
    (∃ e ∈ start, e.turn.task = none ∧ e.request = .purge id) ∧
    now < t.setting.now + ttl ∧ ∀ s ∈ steps since, ¬ s.2.Displaces key kept

section

variable [DecidableEq κ] {id : String} {others : κ → Call} {cache : TtlCache Kept}
  {ts : List (Turn (Option κ) Moment)}
  {x : Interleaving cachedCalls (fun i => (racing id others i).Answer) (TtlCache Kept) Moment}
  {early late : List (Exchange cachedCalls (Option κ) Moment)} {t : Turn (Option κ) Moment}
  {a : Call.Answer (.deletePort id)}

/-- When the cloud deletes the port, the purge is over. -/
theorem purge_mem_early
    (h : Interleaving.Traced answerAt (fun i => answer (racing id others i)) cache ts x)
    (htrace : x.trace = early ++ ⟨t, .cloud (.deletePort id), a⟩ :: late) (ht : t.task = none) :
    ∃ e ∈ early, e.turn.task = none ∧ e.request = .purge id := by
  obtain ⟨next, hat, -⟩ := h.at_request htrace
  obtain ⟨task, m⟩ := t
  obtain rfl : task = none := ht
  obtain ⟨n, hn⟩ := (deleting_of_follows hat).of_cloud
  have hmem : (⟨.purge id, n⟩ : Program.Reply cachedCalls) ∈ Exchange.ofTask none early := by
    simp [hn]
  obtain ⟨e, he, htask, hreply⟩ := Exchange.mem_ofTask.mp hmem
  exact ⟨e, he, htask, congrArg Sigma.fst hreply⟩

/-- A kept answer with the port that outlived the purge is a straggler's. -/
theorem straggling_of_lasting
    (h : Interleaving.Traced answerAt (fun i => answer (racing id others i)) cache ts x)
    (htrace : x.trace = early ++ ⟨t, .cloud (.deletePort id), a⟩ :: late) (ht : t.task = none)
    (hgone : ∀ e ∈ late, ∀ kept, Fetches e kept → kept.contains id = false)
    {before after : List (Exchange cachedCalls (Option κ) Moment)} {l : Turn (Option κ) Moment}
    {key : String} {b : Option Kept × Span}
    (hlookup : x.trace = (early ++ ⟨t, .cloud (.deletePort id), a⟩ :: before) ++
      ⟨l, .lookup key, b⟩ :: after) {kept : Kept} (hkept : kept.contains id = true)
    (hbegins : Text.begins portKeys key = true)
    (hlast : TtlCache.Lasting cache.ttl
      (steps (early ++ ⟨t, .cloud (.deletePort id), a⟩ :: before)) l.setting.now key kept) :
    Straggling id cache.ttl early (early ++ ⟨t, .cloud (.deletePort id), a⟩ :: before)
      l.setting.now key := by
  obtain ⟨start, u, since, hsplit, hnow, hsince⟩ := lasting_steps_iff.mp hlast
  refine ⟨kept, start, u, since, hsplit, hkept, ?_, ?_, hnow, hsince⟩
  · -- the answer was fetched before it was kept, and not after the deletion
    have hinsert : x.trace = start ++ ⟨u, .insert key kept, ()⟩ ::
        (since ++ ⟨l, .lookup key, b⟩ :: after) := by
      simpa [hsplit] using hlookup
    obtain ⟨k, y, hk, -, -, e, he, htask, hf⟩ := fetches_before_insert h hinsert
    have hmem : e ∈ early ++ ⟨t, .cloud (.deletePort id), a⟩ :: before := by
      rw [hsplit]
      exact List.mem_append_left _ he
    rcases List.mem_append.mp hmem with he | he
    · exact ⟨e, he, htask, hf⟩
    rcases List.mem_cons.mp he with rfl | he
    · exact absurd hf not_fetches_deletePort
    · have hbefore : late = before ++ ⟨l, .lookup key, b⟩ :: after := by
        rw [htrace] at hlookup
        simpa using hlookup
      have hcontains := hgone e (by simp [hbefore, he]) kept hf
      rw [hkept] at hcontains
      cases hcontains
  · -- a purge after the insertion would have taken the answer away
    obtain ⟨e, he, htask, hpurge⟩ := purge_mem_early h htrace ht
    have hmem : e ∈ start ++ ⟨u, .insert key kept, ()⟩ :: since := by
      rw [← hsplit]
      exact List.mem_append_left _ he
    rcases List.mem_append.mp hmem with he | he
    · exact ⟨e, he, htask, hpurge⟩
    rcases List.mem_cons.mp he with rfl | he
    · cases hpurge
    · obtain ⟨v, r, a'⟩ := e
      obtain rfl : r = .purge id := hpurge
      refine absurd ?_ (hsince _ (List.mem_filterMap.mpr ⟨_, he, rfl⟩))
      simp [TtlCache.Step.Displaces, concerns, hbegins, hkept]

/-- A lookup after the deletion that finds an answer with the port finds a straggler's. -/
theorem straggling_of_found
    (h : Interleaving.Traced answerAt (fun i => answer (racing id others i)) cache ts x)
    (hclock : (ts.map fun t => t.setting.now).Pairwise (· ≤ ·))
    (htrace : x.trace = early ++ ⟨t, .cloud (.deletePort id), a⟩ :: late) (ht : t.task = none)
    (hgone : ∀ e ∈ late, ∀ kept, Fetches e kept → kept.contains id = false)
    {before after : List (Exchange cachedCalls (Option κ) Moment)} {l : Turn (Option κ) Moment}
    {key : String} {kept : Kept} {now : Span}
    (hlate : late = before ++ ⟨l, .lookup key, (some kept, now)⟩ :: after)
    (hkept : kept.contains id = true) (hbegins : Text.begins portKeys key = true) :
    Straggling id cache.ttl early (early ++ ⟨t, .cloud (.deletePort id), a⟩ :: before)
      l.setting.now key := by
  have hlookup : x.trace = (early ++ ⟨t, .cloud (.deletePort id), a⟩ :: before) ++
      ⟨l, .lookup key, (some kept, now)⟩ :: after := by
    simpa [hlate] using htrace
  rcases (lookup_eq_some_iff h hclock hlookup).mp rfl with ⟨-, hstays⟩ | hlast
  · -- the purge has dropped what was kept before all turns
    obtain ⟨⟨u, q, n⟩, hpurge, -, rfl⟩ := purge_mem_early h htrace ht
    have hstep : (u.setting.now, TtlCache.Step.purge (concerns id)) ∈
        steps (early ++ ⟨t, .cloud (.deletePort id), a⟩ :: before) :=
      List.mem_filterMap.mpr ⟨_, List.mem_append_left _ hpurge, rfl⟩
    refine absurd ?_ (hstays _ hstep)
    simp [TtlCache.Step.Displaces, concerns, hbegins, hkept]
  · exact straggling_of_lasting h htrace ht hgone hlookup hkept hbegins hlast

/-- A late read that found what a straggler kept gives it. -/
theorem keep_of_lasting
    (h : Interleaving.Traced answerAt (fun i => answer (racing id others i)) cache ts x)
    (hclock : (ts.map fun t => t.setting.now).Pairwise (· ≤ ·)) {r : κ} {k : Caching (others r)}
    (hk : (others r).caching? = some k) {y : (others r).Result}
    (hy : x.left (some r) = .done (.ok y))
    {before after : List (Exchange cachedCalls (Option κ) Moment)} {m : Moment}
    {b : Option Kept × Span} (htrace : x.trace = before ++ ⟨⟨some r, m⟩, .lookup k.key, b⟩ :: after)
    {kept : Kept} (hlast : TtlCache.Lasting cache.ttl (steps before) m.now k.key kept) :
    k.keep y = kept := by
  have hb : b.1 = some kept := (lookup_eq_some_iff h hclock htrace).mpr (.inr hlast)
  obtain ⟨found, now⟩ := b
  obtain rfl : found = some kept := hb
  obtain ⟨start, u, since, rfl, -⟩ := lasting_steps_iff.mp hlast
  have hinsert : x.trace = start ++ ⟨u, .insert k.key kept, ()⟩ ::
      (since ++ ⟨⟨some r, m⟩, .lookup k.key, (some kept, now)⟩ :: after) := by
    simpa using htrace
  obtain ⟨k', x', hk', hkey, rfl, -⟩ := fetches_before_insert h hinsert
  obtain ⟨y', hy'⟩ := Caching.keep_of_key_eq hk hk' hkey.symm x'
  obtain ⟨next, hat, hrest⟩ := h.at_request htrace
  obtain ⟨-, rfl⟩ := (reading_of_caching? hk hat).of_lookup
  have hleft : lookedUp k (some (k'.keep x'), now) = .done (.ok y') := by
    simp [lookedUp, ← hy', k.read?_keep]
  rw [hleft, hy] at hrest
  obtain rfl : y' = y :=
    Except.ok.inj (Program.done.inj (Program.Follows.done_iff.mp hrest).2)
  exact hy'

/-- A read that starts when the cloud has deleted a port gives this port if and only if it finds
what a straggler kept: an answer fetched before the deletion, and kept after the purge, less than
one lifetime ago. -/
theorem late_read_contains_iff (hclock : (ts.map fun t => t.setting.now).Pairwise (· ≤ ·))
    (htrace : (race id others cache ts).trace =
      early ++ ⟨t, .cloud (.deletePort id), .ok ()⟩ :: late) (ht : t.task = none)
    (hgone : ∀ e ∈ late, ∀ kept, Fetches e kept → kept.contains id = false) {r : κ}
    (hr : ∀ e ∈ early, e.turn.task ≠ some r) {k : Caching (others r)}
    (hk : (others r).caching? = some k) {y : (others r).Result}
    (hy : (race id others cache ts).left (some r) = .done (.ok y)) :
    (k.keep y).contains id = true ↔
      ∃ before l b after, late = before ++ ⟨l, .lookup k.key, b⟩ :: after ∧ l.task = some r ∧
        Straggling id cache.ttl early
          (early ++ ⟨t, .cloud (.deletePort id), .ok ()⟩ :: before) l.setting.now k.key := by
  have h : Interleaving.Traced answerAt (fun i => answer (racing id others i)) cache ts
      (race id others cache ts) := Interleaving.traced_run _ _ _
  have mem_late {e} (he : e ∈ (race id others cache ts).trace) (htask : e.turn.task = some r) :
      e ∈ late := by
    rw [htrace, List.mem_append, List.mem_cons] at he
    rcases he with he | rfl | he
    · exact absurd htask (hr e he)
    · rw [ht] at htask
      cases htask
    · exact he
  constructor
  · intro hcontains
    have hread : Reading k _ (.done (.ok y)) := reading_of_caching? hk (hy ▸ h.follows (some r))
    rcases hread.of_ok with ⟨v, now, hes, hv⟩ | hfetched
    · obtain rfl : k.keep y = v := Caching.keep_of_read? hk hv
      obtain ⟨⟨l, q, b⟩, he, hl, hreply⟩ :=
        Exchange.mem_ofTask.mp (hes ▸ List.mem_singleton_self _)
      obtain ⟨rfl, hb⟩ := Sigma.mk.inj hreply
      obtain rfl := eq_of_heq hb
      obtain ⟨before, after, hlate⟩ := List.append_of_mem (mem_late he hl)
      exact ⟨before, l, _, after, hlate, hl, straggling_of_found h hclock htrace ht hgone hlate
        hcontains (Caching.begins_of_contains hk hcontains)⟩
    · obtain ⟨e, he, htask, hreply⟩ := Exchange.mem_ofTask.mp hfetched
      have hgone := hgone e (mem_late he htask) (k.keep y) ⟨_, y, k, hreply, hk, rfl⟩
      rw [hcontains] at hgone
      cases hgone
  · rintro ⟨before, l, b, after, rfl, hl, kept, start, u, since, hsplit, hkept, -, -, hnow, hsince⟩
    obtain ⟨task, m⟩ := l
    obtain rfl : task = some r := hl
    rw [← List.cons_append, ← List.append_assoc] at htrace
    rw [keep_of_lasting h hclock hk hy htrace
      (lasting_steps_iff.mpr ⟨start, u, since, hsplit, hnow, hsince⟩), hkept]

end

/-- A moment at which the cloud has these ports. -/
def momentOf (ports : PortTable) (now : Span) : Moment :=
  ⟨now, fun c => (({ ports := ports } : World).answer ⟨0, 0⟩ c).1⟩

/-- A read of a port up to its answer from the cloud, then a deletion of this port, in the middle of
which the read keeps the answer, and then a second read. -/
def overtakenTurns : List (Turn (Option Bool) Moment) :=
  let withPort := PortTable.empty.put { id := "p" }
  [⟨some false, momentOf withPort ⟨0⟩⟩, ⟨some false, momentOf withPort ⟨0⟩⟩,
    ⟨some false, momentOf withPort ⟨0⟩⟩, ⟨none, momentOf withPort ⟨1⟩⟩,
    ⟨some false, momentOf withPort ⟨1⟩⟩, ⟨none, momentOf withPort ⟨1⟩⟩,
    ⟨some true, momentOf .empty ⟨2⟩⟩]

/-- The second read begins when the port has been deleted, and gives it all the same. -/
theorem late_read_contains_overtaken :
    let x := race "p" (fun _ => .portById "p") { ttl := ⟨5⟩ } overtakenTurns
    let deletion : Exchange cachedCalls (Option Bool) Moment :=
      ⟨⟨none, momentOf (PortTable.empty.put { id := "p" }) ⟨1⟩⟩, .cloud (.deletePort "p"), .ok ()⟩
    let early := x.trace.take 5
    let late := x.trace.drop 6
    (overtakenTurns.map fun t => t.setting.now).Pairwise (· ≤ ·) ∧
      x.trace = early ++ deletion :: late ∧ x.left none = .done (.ok ()) ∧
      (∀ e ∈ early, e.turn.task ≠ some true) ∧
      (∀ e ∈ late, ∀ kept, Fetches e kept → kept.contains "p" = false) ∧
      x.left (some true) = .done (.ok { id := "p" }) ∧
      ∃ before l b after, late = before ++ ⟨l, .lookup "GetPort|p", b⟩ :: after ∧
        l.task = some true ∧
        Straggling "p" ⟨5⟩ early (early ++ deletion :: before) l.setting.now "GetPort|p" := by
  intro x deletion early late
  have hclock : (overtakenTurns.map fun t => t.setting.now).Pairwise (· ≤ ·) := by decide
  have htrace : x.trace = early ++ deletion :: late := rfl
  have hr : ∀ e ∈ early, e.turn.task ≠ some true := by decide
  have hgone : ∀ e ∈ late, ∀ kept, Fetches e kept → kept.contains "p" = false := by
    rintro e he kept ⟨c, y, k, hreply, -⟩
    obtain rfl := List.mem_singleton.mp he
    cases congrArg Sigma.fst hreply
  have hy : x.left (some true) = .done (.ok { id := "p" }) := rfl
  refine ⟨hclock, htrace, rfl, hr, hgone, hy, ?_⟩
  exact (late_read_contains_iff hclock htrace rfl hgone hr rfl hy).mp rfl

end Cached

end ContainerPorts.Cloud
