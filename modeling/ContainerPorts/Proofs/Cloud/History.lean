import ContainerPorts.Proofs.Cloud.Coherence

/-!
# Histories of a cache

Calls come one after another, and between them expired entries may be dropped. As
long as the clock never goes back, every answer is explained by the calls before
it, whatever the cloud says and however it changes.
-/
namespace ContainerPorts.Cloud

/-- What can happen to a cache. -/
inductive Event where
  | visit (v : Visit)
  /-- The expired entries are dropped. -/
  | eviction (now : Span)

namespace Event

def times : Event → List Span
  | .visit v => [v.asked, v.answered]
  | .eviction now => [now]

/-- The clock never goes back. -/
def Ordered (es : List Event) : Prop := (es.flatMap times).Pairwise (· ≤ ·)

instance (es : List Event) : Decidable (Ordered es) :=
  inferInstanceAs (Decidable (List.Pairwise _ _))

def after (cache : TtlCache Kept) : Event → TtlCache Kept
  | .visit v => v.after cache
  | .eviction now => (cache.evict now).2

/-- The cache after all events. -/
def last (cache : TtlCache Kept) (es : List Event) : TtlCache Kept := es.foldl after cache

/-- What the visits among the events come to. -/
def outcomes (cache : TtlCache Kept) : List Event → List Outcome
  | [] => []
  | .visit v :: es => v.outcome cache :: outcomes (v.after cache) es
  | .eviction now :: es => outcomes (cache.evict now).2 es

/-- Events that come in order, from a time on. -/
structure From (since : Span) (es : List Event) : Prop where
  ordered : Ordered es
  le : ∀ t ∈ es.flatMap times, since ≤ t

variable {since now ttl : Span} {es : List Event} {v : Visit}

theorem From.visit (h : From since (.visit v :: es)) :
    since ≤ v.asked ∧ v.asked ≤ v.answered ∧ From v.answered es := by
  have hord : (v.asked :: v.answered :: es.flatMap times).Pairwise (· ≤ ·) := h.ordered
  rw [List.pairwise_cons, List.pairwise_cons] at hord
  have hasked : since ≤ v.asked := h.le _ (List.mem_cons_self ..)
  have hanswered : v.asked ≤ v.answered := hord.1 _ (List.mem_cons_self ..)
  exact ⟨hasked, hanswered, hord.2.2, hord.2.1⟩

theorem From.eviction (h : From since (.eviction now :: es)) : since ≤ now ∧ From now es := by
  have hord : (now :: es.flatMap times).Pairwise (· ≤ ·) := h.ordered
  rw [List.pairwise_cons] at hord
  exact ⟨h.le _ (List.mem_cons_self ..), hord.2, hord.1⟩

theorem Ordered.from_start (h : Ordered es) : From ⟨0⟩ es := ⟨h, fun t _ => Nat.zero_le t.nanos⟩

variable {past : List Outcome} {cache cache' : TtlCache Kept}

/-- Every outcome of a history is explained by the outcomes before it. -/
theorem explained_of_mem (hc : Coherent ttl past since cache) (h : From since es)
    {before rest : List Outcome} {o : Outcome} (ho : outcomes cache es = before ++ o :: rest) :
    Explained ttl (past ++ before) o := by
  induction es generalizing past since cache before with
  | nil => simp [outcomes] at ho
  | cons e es ih =>
    cases e with
    | visit v =>
      obtain ⟨hasked, hanswered, hfrom⟩ := h.visit
      cases before with
      | nil =>
        obtain rfl : v.outcome cache = o := (List.cons.inj ho).1
        rw [List.append_nil]
        exact hc.explained hasked
      | cons o' before =>
        obtain ⟨rfl, hrest⟩ := List.cons.inj ho
        have he := ih (hc.visit hasked hanswered) hfrom hrest
        rwa [List.append_assoc] at he
    | eviction now =>
      obtain ⟨hnow, hfrom⟩ := h.eviction
      exact ih (hc.evict hnow) hfrom ho

theorem coherent_last (hc : Coherent ttl past since cache) (h : From since es) :
    ∃ t, Coherent ttl (past ++ outcomes cache es) t (last cache es) := by
  induction es generalizing past since cache with
  | nil => exact ⟨since, by simpa [outcomes, last] using hc⟩
  | cons e es ih =>
    cases e with
    | visit v =>
      obtain ⟨hasked, hanswered, hfrom⟩ := h.visit
      obtain ⟨t, ht⟩ := ih (hc.visit hasked hanswered) hfrom
      rw [List.append_assoc] at ht
      exact ⟨t, ht⟩
    | eviction now =>
      obtain ⟨hnow, hfrom⟩ := h.eviction
      exact ih (hc.evict hnow) hfrom

/-- Only the past decides what comes of later visits, not the entries of the cache. -/
theorem outcomes_eq (hc : Coherent ttl past since cache) (hc' : Coherent ttl past since cache')
    (h : From since es) : outcomes cache es = outcomes cache' es := by
  induction es generalizing past since cache cache' with
  | nil => rfl
  | cons e es ih =>
    cases e with
    | visit v =>
      obtain ⟨hasked, hanswered, hfrom⟩ := h.visit
      have ho : v.outcome cache = v.outcome cache' := hc.outcome_eq hc' hasked
      have hvisit := hc'.visit hasked hanswered
      rw [← ho] at hvisit
      exact congrArg₂ List.cons ho (ih (hc.visit hasked hanswered) hvisit hfrom)
    | eviction now =>
      obtain ⟨hnow, hfrom⟩ := h.eviction
      exact ih (hc.evict hnow) (hc'.evict hnow) hfrom

theorem outcomes_without_eviction (hc : Coherent ttl past since cache) {before rest : List Event}
    (h : From since (before ++ .eviction now :: rest)) :
    outcomes cache (before ++ .eviction now :: rest) = outcomes cache (before ++ rest) := by
  induction before generalizing past since cache with
  | nil =>
    obtain ⟨hnow, hfrom⟩ := h.eviction
    exact outcomes_eq (hc.evict hnow) (hc.later hnow) hfrom
  | cons e before ih =>
    cases e with
    | visit v =>
      obtain ⟨hasked, hanswered, hfrom⟩ := h.visit
      exact congrArg (v.outcome cache :: ·) (ih (hc.visit hasked hanswered) hfrom)
    | eviction t =>
      obtain ⟨ht, hfrom⟩ := h.eviction
      exact ih (hc.evict ht) hfrom

/-- Every answer through a new cache is explained by the history before it, only results of the
cloud are kept, and a drop of expired entries changes no answer. -/
theorem outcomes_follow_history (ttl : Span) (es : List Event) (h : Ordered es) :
    (∀ before o rest, outcomes { ttl := ttl } es = before ++ o :: rest → Explained ttl before o) ∧
      Stored ttl (outcomes { ttl := ttl } es) (last { ttl := ttl } es) ∧
      ∀ before now rest, es = before ++ .eviction now :: rest →
        outcomes { ttl := ttl } es = outcomes { ttl := ttl } (before ++ rest) := by
  refine ⟨fun before o rest ho => ?_, ?_, ?_⟩
  · exact explained_of_mem (.new ttl) h.from_start ho
  · obtain ⟨t, ht⟩ := coherent_last (.new ttl) h.from_start
    exact ht.stored
  · rintro before now rest rfl
    exact outcomes_without_eviction (.new ttl) h.from_start

/-- A lookup of a server that the cloud knows, at one moment. -/
def serverLookup (now : Span) : Visit :=
  ⟨.serverByName "a", now, now, fun
    | .serverByName name => .ok ⟨"s", name⟩
    | _ => .error (.notFound .server)⟩

/-- A lookup, and the same again before and after the first result has expired. -/
theorem outcomes_follow_history_threefold :
    let es : List Event := [.visit (serverLookup ⟨0⟩), .visit (serverLookup ⟨4⟩), .eviction ⟨5⟩,
      .visit (serverLookup ⟨5⟩)]
    Ordered es ∧ (outcomes { ttl := ⟨5⟩ } es).map Outcome.reached =
        [[.serverByName "a"], [], [.serverByName "a"]] ∧
      Explained ⟨5⟩ [(serverLookup ⟨0⟩).outcome { ttl := ⟨5⟩ }]
        ((serverLookup ⟨4⟩).outcome ((serverLookup ⟨0⟩).after { ttl := ⟨5⟩ })) := by
  intro es
  have hes : Ordered es := by decide
  refine ⟨hes, rfl, ?_⟩
  exact (outcomes_follow_history ⟨5⟩ es hes).1 [_] _ _ rfl

end Event

end ContainerPorts.Cloud
