import ContainerPorts.Proofs.Cloud.CacheSteps
import ContainerPorts.Proofs.Interleaving
import Mathlib.Data.List.Basic

/-!
# Callers of one cache

Whatever a caller does with a cache is one step on its entries, except for getting a
value. That is a lookup and then, if nothing was found, a step that drops the entry if it
had expired at the time of the lookup; other callers may come in between. All the same a
lookup finds what was last inserted and not taken away since, as long as it lives, and
nothing that still lives is dropped because of its age.
-/
namespace ContainerPorts

namespace Program.Follows

variable {S : Signature} {β γ : Type} {es : List (Program.Reply S)} {r : S.Request}

/-- A program that stands at another request than its first was answered that one. -/
theorem ask_of_ne {first : S.Request} {rest : S.Answer first → Program S β}
    {next : S.Answer r → Program S β} (h : (Program.ask first rest).Follows es (.ask r next))
    (hne : first ≠ r) : ∃ a es', es = ⟨first, a⟩ :: es' ∧ (rest a).Follows es' (.ask r next) := by
  rcases ask_iff.mp h with ⟨-, he⟩ | hrest
  · exact absurd (Program.ask.inj he).1 hne
  · exact hrest

/-- Two programs in a row stand at a request of the first or of the second. -/
theorem of_bind_ask {p : Program S β} {f : β → Program S γ} {next : S.Answer r → Program S γ}
    (h : (p >>= f).Follows es (.ask r next)) :
    (∃ next', p.Follows es (.ask r next')) ∨
      ∃ x es₁ es₂, es = es₁ ++ es₂ ∧ (f x).Follows es₂ (.ask r next) := by
  induction p generalizing es with
  | done x => exact .inr ⟨x, [], es, rfl, h⟩
  | ask first rest ih =>
    rcases ask_iff.mp h with ⟨rfl, he⟩ | ⟨a, es, rfl, hrest⟩
    · obtain ⟨rfl, -⟩ := Program.ask.inj he
      exact .inl ⟨rest, .refl _⟩
    · rcases ih a hrest with ⟨next', hp⟩ | ⟨x, es₁, es₂, rfl, hf⟩
      · exact .inl ⟨next', .ask hp⟩
      · exact .inr ⟨x, ⟨first, a⟩ :: es₁, es₂, rfl, hf⟩

end Program.Follows

namespace TtlCache

variable {α : Type}

/-! ### What callers do -/

/-- What is done with a cache at one time. -/
inductive Access (α : Type) where
  /-- The value under a key, and the time of the lookup. -/
  | lookup (key : String)
  | change (s : Step α)

abbrev Access.Answer : Access α → Type
  | .lookup _ => Option α × Span
  | .change _ => ℕ

abbrev accesses (α : Type) : Signature := ⟨Access α, Access.Answer⟩

/-- The number of entries that a step says it dropped. Only two kinds of step say so. -/
def Step.count (now : Span) : Step α → TtlCache α → ℕ
  | .purge p, c => (c.purge p).1
  | .evict, c => (c.evict now).1
  | _, _ => 0

def access (now : Span) : (r : Access α) → TtlCache α → r.Answer × TtlCache α
  | .lookup key, c => ((c.lookup now key, now), c)
  | .change s, c => (s.count now c, s.apply now c)

/-- What a caller can want of a cache. -/
inductive Use (α : Type) where
  | get (key : String)
  | insert (key : String) (value : α)
  | remove (key : String)
  | purge (p : String → α → Bool)
  | evict

namespace Use

abbrev Result : Use α → Type
  | .get _ => Option α
  | .insert .. => Unit
  | .remove _ => Unit
  | .purge _ => ℕ
  | .evict => ℕ

/-- What a use does if nobody comes in between. -/
def run (now : Span) : (u : Use α) → TtlCache α → u.Result × TtlCache α
  | .get key, c => c.get now key
  | .insert key v, c => ((), c.insert now key v)
  | .remove key, c => ((), c.remove key)
  | .purge p, c => c.purge p
  | .evict, c => c.evict now

/-- What is left of getting a value once its key was looked up. -/
def got (key : String) : Option α × Span → Program (accesses α) (Option α)
  | (some v, _) => .done (some v)
  | (none, now) => .ask (.change (.dropExpired now key)) fun _ => .done none

def program : (u : Use α) → Program (accesses α) u.Result
  | .get key => .ask (.lookup key) (got key)
  | .insert key v => .ask (.change (.insert key v)) fun _ => .done ()
  | .remove key => .ask (.change (.remove key)) fun _ => .done ()
  | .purge p => .ask (.change (.purge p)) .done
  | .evict => .ask (.change .evict) .done

theorem runWith_program (now : Span) (u : Use α) (c : TtlCache α) :
    u.program.runWith (access now) c = u.run now c := by
  cases u with
  | get key =>
    simp only [program, Program.runWith_ask, access, run, TtlCache.get]
    cases c.lookup now key <;> rfl
  | _ => rfl

end Use

/-- Callers want one thing after the other, depending on what they got before. -/
abbrev uses (α : Type) : Signature := ⟨Use α, Use.Result⟩

/-- The steps of a caller. -/
abbrev stepwise {β : Type} (p : Program (uses α) β) : Program (accesses α) β :=
  p.expand Use.program

variable {β : Type} {es : List (Program.Reply (accesses α))} {asOf : Span} {key : String}

/-- An entry is dropped for its age only after it was looked up and not found, and by the time of
that lookup. -/
theorem Use.looked_up_of_dropExpired {u : Use α} {next : ℕ → Program (accesses α) u.Result}
    (h : u.program.Follows es (.ask (.change (.dropExpired asOf key)) next)) :
    (⟨.lookup key, (none, asOf)⟩ : Program.Reply (accesses α)) ∈ es := by
  cases u with
  | get other =>
    obtain ⟨⟨_ | v, now⟩, es, rfl, hgot⟩ := h.ask_of_ne (by nofun)
    · rcases Program.Follows.ask_iff.mp hgot with ⟨rfl, he⟩ | ⟨_, _, _, hend⟩
      · obtain ⟨rfl, rfl⟩ := Step.dropExpired.inj (Access.change.inj (Program.ask.inj he).1)
        exact List.mem_singleton_self _
      · cases (Program.Follows.done_iff.mp hend).2
    · cases (Program.Follows.done_iff.mp hgot).2
  | _ =>
    obtain ⟨_, _, _, hend⟩ := h.ask_of_ne (by nofun)
    cases (Program.Follows.done_iff.mp hend).2

theorem looked_up_of_dropExpired {p : Program (uses α) β} {next : ℕ → Program (accesses α) β}
    (h : (stepwise p).Follows es (.ask (.change (.dropExpired asOf key)) next)) :
    (⟨.lookup key, (none, asOf)⟩ : Program.Reply (accesses α)) ∈ es := by
  induction p generalizing es with
  | done b => cases (Program.Follows.done_iff.mp h).2
  | ask u rest ih =>
    rcases Program.Follows.of_bind_ask h with ⟨_, hu⟩ | ⟨x, es₁, es₂, rfl, hrest⟩
    · exact u.looked_up_of_dropExpired hu
    · exact List.mem_append_right es₁ (ih x hrest)

/-! ### What is dropped -/

/-- What is done to find a value, or to make room where entries have expired. -/
def Access.isHarmless : Access α → Bool
  | .lookup _ => true
  | .change (.dropExpired ..) => true
  | .change .evict => true
  | .change _ => false

/-- An access goes by no time after its own. -/
def Access.IsTimely (now : Span) : Access α → Prop
  | .change (.dropExpired asOf _) => asOf ≤ now
  | _ => True

theorem find?_dropExpired {c : TtlCache α} {asOf now : Span} (h : asOf ≤ now) {dropped key : String}
    {e : CacheEntry α} (he : c.entries.find? key = some e) (hlive : now < e.expiresAt) :
    (c.dropExpired asOf dropped).entries.find? key = some e := by
  have hfresh : e.isFresh asOf = true := decide_eq_true (Span.lt_of_le_of_lt h hlive)
  unfold dropExpired
  by_cases hkey : key = dropped
  · subst hkey
    rw [he]
    dsimp only
    rw [if_pos hfresh, he]
  · split
    · split
      · exact he
      · exact (Table.find?_erase_of_ne hkey c.entries).trans he
    · exact he

/-- No entry is dropped for its age as long as it lives, not even one that was inserted since it
was looked for. -/
theorem find?_access {c : TtlCache α} {r : Access α} {now : Span} (hr : r.isHarmless = true)
    (htime : r.IsTimely now) {key : String} {e : CacheEntry α}
    (he : c.entries.find? key = some e) (hlive : now < e.expiresAt) :
    (access now r c).2.entries.find? key = some e := by
  cases r with
  | lookup other => exact he
  | change s =>
    cases s with
    | dropExpired asOf other => exact find?_dropExpired htime he hlive
    | evict =>
      change Table.find? key (c.entries.filter _) = some e
      rw [c.sorted.find?_filter, he, Option.filter_some, if_pos]
      exact decide_eq_true hlive
    | _ => cases hr

/-- The number of entries of a cache whose keys another cache lacks. -/
def missing (c c' : TtlCache α) : ℕ :=
  (c.entries.filter fun m => (c'.entries.find? m.1).isNone).length

/-- Of the entries of a cache exactly those that fit are gone, and their number is told. -/
structure Drops (fits : String → CacheEntry α → Prop) (c : TtlCache α) (r : ℕ × TtlCache α) :
    Prop where
  count : r.1 = c.missing r.2
  gone_iff : ∀ key e, c.entries.find? key = some e → (r.2.entries.find? key = none ↔ fits key e)

theorem keep_drops (c : TtlCache α) (p : String → CacheEntry α → Bool) :
    Drops (fun key e => p key e = false) c (c.keep p) := by
  have gone_iff (key : String) (e : CacheEntry α) (he : c.entries.find? key = some e) :
      (c.keep p).2.entries.find? key = none ↔ p key e = false := by
    change Table.find? key (c.entries.filter _) = none ↔ _
    rw [c.sorted.find?_filter, he, Option.filter_some]
    cases p key e <;> simp
  have hgone : (c.entries.filter fun m => ((c.keep p).2.entries.find? m.1).isNone) =
      c.entries.filter fun m => !p m.1 m.2 := by
    refine List.filter_congr fun m hm => ?_
    rw [Bool.eq_iff_iff, Option.isNone_iff_eq_none,
      gone_iff m.1 m.2 (c.sorted.find?_eq_some_iff.mpr hm)]
    simp
  have hlength := c.entries.length_eq_length_filter_add fun m => p m.1 m.2
  refine ⟨?_, gone_iff⟩
  rw [missing, hgone]
  simp only [keep]
  omega

theorem Drops.congr {fits fits' : String → CacheEntry α → Prop} {c : TtlCache α}
    {r : ℕ × TtlCache α} (h : Drops fits c r) (hfits : ∀ key e, fits key e ↔ fits' key e) :
    Drops fits' c r :=
  ⟨h.count, fun key e he => (h.gone_iff key e he).trans (hfits key e)⟩

/-- A purge that nobody comes in between drops what matches, expired or not. -/
theorem purge_drops (c : TtlCache α) (now : Span) (p : String → α → Bool) :
    Drops (fun key e => p key e.value = true) c
      ((Use.purge p).program.runWith (access now) c) := by
  rw [Use.runWith_program]
  exact (keep_drops c fun key e => !p key e.value).congr (by simp)

theorem evict_drops (c : TtlCache α) (now : Span) :
    Drops (fun _ e => ¬ now < e.expiresAt) c (Use.evict.program.runWith (access now) c) := by
  rw [Use.runWith_program]
  exact (keep_drops c fun _ e => e.isFresh now).congr (by simp [CacheEntry.isFresh])

/-! ### The history of a cache -/

variable {ι : Type}

/-- The step that was taken on the entries, and its time. -/
def step? (e : Exchange (accesses α) ι Span) : Option (Span × Step α) :=
  match e.request with
  | .lookup _ => none
  | .change s => some (e.turn.setting, s)

def history (es : List (Exchange (accesses α) ι Span)) : List (Span × Step α) :=
  es.filterMap step?

theorem stateAfter_access (c : TtlCache α) (es : List (Exchange (accesses α) ι Span)) :
    Exchange.stateAfter access c es = c.afterSteps (history es) := by
  induction es generalizing c with
  | nil => rfl
  | cons e es ih =>
    obtain ⟨t, r, a⟩ := e
    cases r <;> exact ih _

section

variable [DecidableEq ι] {ρ : ι → Type} {callers : (i : ι) → Program (uses α) (ρ i)}
  {cache : TtlCache α} {ts : List (Turn ι Span)} {x : Interleaving (accesses α) ρ (TtlCache α) Span}
  {before after : List (Exchange (accesses α) ι Span)} {e : Exchange (accesses α) ι Span}
  (h : Interleaving.Traced access (fun i => stepwise (callers i)) cache ts x)
  (hclock : (ts.map Turn.setting).Pairwise (· ≤ ·))

include h hclock

theorem isTimely_of_trace (htrace : x.trace = before ++ e :: after) :
    e.request.IsTimely e.turn.setting := by
  obtain ⟨t, r, a⟩ := e
  cases r with
  | lookup key => trivial
  | change s =>
    cases s with
    | dropExpired asOf key =>
      obtain ⟨next, hat, -⟩ := h.at_request htrace
      obtain ⟨u, -, hmem⟩ := Exchange.exists_turn_of_mem_ofTask (looked_up_of_dropExpired hat)
      obtain ⟨early, late, rfl⟩ := List.append_of_mem hmem
      have hlookup : x.trace = early ++ ⟨u, .lookup key, (none, asOf)⟩ ::
          (late ++ ⟨t, .change (.dropExpired asOf key), a⟩ :: after) := by
        simpa using htrace
      have hasOf : asOf = u.setting := congrArg Prod.snd (h.answers _ _ _ hlookup)
      rw [hasOf]
      exact h.rel_of_mem hclock htrace hmem
    | _ => trivial

/-- No step of the history goes by a time that is still to come. -/
theorem history_before (htrace : x.trace = before ++ e :: after) :
    ∀ s ∈ history before, s.2.Before e.turn.setting s.1 := by
  intro s hs
  obtain ⟨⟨t, r, a⟩, hmem, hstep⟩ := List.mem_filterMap.mp hs
  have hnow := h.rel_of_mem hclock htrace hmem
  obtain ⟨early, late, rfl⟩ := List.append_of_mem hmem
  have hsplit : x.trace = early ++ ⟨t, r, a⟩ :: (late ++ e :: after) := by simpa using htrace
  have htimely := isTimely_of_trace h hclock hsplit
  cases r with
  | lookup key => cases hstep
  | change s =>
    obtain rfl := Option.some.inj hstep
    cases s with
    | dropExpired asOf key => exact Span.le_trans htimely hnow
    | _ => exact hnow

/-- A lookup finds what the history of the cache tells. -/
theorem lookup_eq_some_iff_lasting {t : Turn ι Span} {key : String} {a : Option α × Span} {v : α}
    (htrace : x.trace = before ++ ⟨t, .lookup key, a⟩ :: after) (hempty : cache.entries = []) :
    a.1 = some v ↔ Lasting cache.ttl (history before) t.setting key v := by
  have ha : a.1 = (cache.afterSteps (history before)).lookup t.setting key := by
    rw [← stateAfter_access]
    exact congrArg Prod.fst (h.answers _ _ _ htrace)
  have hnone : cache.lookup t.setting key ≠ some v := by
    simp [lookup, hempty]
  rw [ha, lookup_afterSteps (history_before h hclock htrace)]
  simp only [hnone, false_and, false_or]

end

/-- Callers of a new cache after some turns, each at its time. -/
def shared [DecidableEq ι] {ρ : ι → Type} (ttl : Span) (callers : (i : ι) → Program (uses α) (ρ i))
    (ts : List (Turn ι Span)) : Interleaving (accesses α) ρ (TtlCache α) Span :=
  Interleaving.run access { left := fun i => stepwise (callers i), state := { ttl := ttl } } ts

/-- Whatever callers do at the same time, a lookup finds a value exactly if it was the last to be
inserted under its key, less than one lifetime ago, and no removal of the key and no purge that
matches it came since. Neither getting values nor evicting ever drops an entry that still lives. A
purge or an eviction that nobody comes in between tells how many entries it dropped: a purge all
that match, an eviction all that have expired. -/
theorem lookups_follow_history [DecidableEq ι] {ρ : ι → Type} (ttl : Span)
    (callers : (i : ι) → Program (uses α) (ρ i)) (ts : List (Turn ι Span))
    (hclock : (ts.map Turn.setting).Pairwise (· ≤ ·)) :
    let start : TtlCache α := { ttl := ttl }
    let trace := (shared ttl callers ts).trace
    (∀ before t key a after, trace = before ++ ⟨t, .lookup key, a⟩ :: after → ∀ v,
      a.1 = some v ↔ Lasting ttl (history before) t.setting key v) ∧
    (∀ before e after, trace = before ++ e :: after → e.request.isHarmless = true →
      ∀ key entry, (Exchange.stateAfter access start before).entries.find? key = some entry →
        e.turn.setting < entry.expiresAt →
          (Exchange.stateAfter access start (before ++ [e])).entries.find? key = some entry) ∧
    ∀ (c : TtlCache α) (now : Span),
      (∀ p, Drops (fun key e => p key e.value = true) c
        ((Use.purge p).program.runWith (access now) c)) ∧
      Drops (fun _ e => ¬ now < e.expiresAt) c (Use.evict.program.runWith (access now) c) := by
  intro start trace
  have h : Interleaving.Traced access (fun i => stepwise (callers i)) start ts
      (shared ttl callers ts) := Interleaving.traced_run _ start ts
  refine ⟨fun before t key a after htrace v => lookup_eq_some_iff_lasting h hclock htrace rfl,
    fun before e after htrace hr key entry he hlive => ?_,
    fun c now => ⟨purge_drops c now, evict_drops c now⟩⟩
  have hlast : Exchange.stateAfter access start (before ++ [e]) =
      (access e.turn.setting e.request (Exchange.stateAfter access start before)).2 := by
    simp [Exchange.stateAfter]
  rw [hlast]
  exact find?_access hr (isTimely_of_trace h hclock htrace) he hlive

/-- One caller gets a value that has expired, and another puts a new one in its place before the old
one is dropped. -/
def overlappingCallers : Bool → Program (uses ℕ) Unit
  | false => .ask (.insert "k" 1) fun _ => .ask (.get "k") fun _ => .done ()
  | true => .ask (.insert "k" 2) fun _ => .ask (.get "k") fun _ => .done ()

def overlappingTurns : List (Turn Bool Span) :=
  [⟨false, ⟨0⟩⟩, ⟨false, ⟨6⟩⟩, ⟨true, ⟨7⟩⟩, ⟨false, ⟨8⟩⟩, ⟨true, ⟨9⟩⟩]

/-- The new value is not dropped, and is found. -/
theorem lookups_follow_history_overlapping :
    let trace := (shared ⟨5⟩ overlappingCallers overlappingTurns).trace
    let late : Exchange (accesses ℕ) Bool Span :=
      ⟨⟨false, ⟨8⟩⟩, .change (.dropExpired ⟨6⟩ "k"), 0⟩
    let found : Exchange (accesses ℕ) Bool Span := ⟨⟨true, ⟨9⟩⟩, .lookup "k", (some 2, ⟨9⟩)⟩
    let entries (es : List (Exchange (accesses ℕ) Bool Span)) :=
      (Exchange.stateAfter access ({ ttl := ⟨5⟩ } : TtlCache ℕ) es).entries
    (overlappingTurns.map Turn.setting).Pairwise (· ≤ ·) ∧
      trace = trace.take 3 ++ late :: [found] ∧
      (entries (trace.take 3)).find? "k" = some ⟨2, ⟨12⟩⟩ ∧
      (entries (trace.take 3 ++ [late])).find? "k" = some ⟨2, ⟨12⟩⟩ ∧
      Lasting ⟨5⟩ (history (trace.take 4)) ⟨9⟩ "k" 2 := by
  intro trace late found entries
  have hclock : (overlappingTurns.map Turn.setting).Pairwise (· ≤ ·) := by decide
  have htrace : trace = trace.take 3 ++ late :: [found] := rfl
  have hentry : (entries (trace.take 3)).find? "k" = some ⟨2, ⟨12⟩⟩ := rfl
  obtain ⟨hfound, hkept, -⟩ :=
    lookups_follow_history ⟨5⟩ overlappingCallers overlappingTurns hclock
  exact ⟨hclock, htrace, hentry, hkept _ late _ htrace rfl "k" _ hentry (by decide),
    (hfound (trace.take 4) _ "k" _ [] rfl 2).mp rfl⟩

end TtlCache

end ContainerPorts
