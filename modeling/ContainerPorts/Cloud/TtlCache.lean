import ContainerPorts.Table
import ContainerPorts.Time.Span
/-!
# A cache whose entries expire

Every entry lives for the same span. Times are spans since some fixed moment.
An entry that has expired is not found any more, but it counts until something
drops it: reading it, an eviction, or a purge that matches it.
-/
namespace ContainerPorts

structure CacheEntry (α : Type) where
  value : α
  expiresAt : Span
  deriving Repr

namespace CacheEntry

def isFresh {α : Type} (e : CacheEntry α) (now : Span) : Bool := now < e.expiresAt

end CacheEntry

structure TtlCache (α : Type) where
  ttl : Span
  entries : Table (CacheEntry α) := []
  sorted : entries.Sorted := by exact .nil
  deriving Repr

namespace TtlCache

variable {α : Type}

/-- The value of an entry that has not expired. -/
def lookup (c : TtlCache α) (now : Span) (key : String) : Option α :=
  match c.entries.find? key with
  | some e => if e.isFresh now then some e.value else none
  | none => none

def remove (c : TtlCache α) (key : String) : TtlCache α :=
  { c with entries := Table.erase key c.entries, sorted := c.sorted.erase key }

/-- Drop the entry of a key if it had expired at the given time. -/
def dropExpired (c : TtlCache α) (asOf : Span) (key : String) : TtlCache α :=
  match c.entries.find? key with
  | some e => if e.isFresh asOf then c else c.remove key
  | none => c

/-- Look a key up; an expired entry is dropped on the way. -/
def get (c : TtlCache α) (now : Span) (key : String) : Option α × TtlCache α :=
  match c.lookup now key with
  | some v => (some v, c)
  | none => (none, c.dropExpired now key)

/-- Keep a value from now on. The sum of the times is taken to be representable; a clock with an end
panics past it, and then nothing is kept. -/
def insert (c : TtlCache α) (now : Span) (key : String) (value : α) : TtlCache α :=
  { c with
    entries := Table.insert key ⟨value, now + c.ttl⟩ c.entries
    sorted := c.sorted.insert key _ }

/-- Keep the entries that pass, and tell how many were dropped. -/
def keep (c : TtlCache α) (p : String → CacheEntry α → Bool) : Nat × TtlCache α :=
  let kept := c.entries.filter fun m => p m.1 m.2
  (c.entries.length - kept.length, { c with entries := kept, sorted := c.sorted.filter _ })

/-- Drop the entries that match, expired or not. -/
def purge (c : TtlCache α) (p : String → α → Bool) : Nat × TtlCache α :=
  c.keep fun k e => !p k e.value

/-- Drop the entries that have expired. -/
def evict (c : TtlCache α) (now : Span) : Nat × TtlCache α := c.keep fun _ e => e.isFresh now

def size (c : TtlCache α) : Nat := c.entries.length

def isEmpty (c : TtlCache α) : Bool := c.entries.isEmpty

/-! ### What is found in a cache -/

theorem lookup_eq_some {c : TtlCache α} {now : Span} {key : String} {v : α} :
    c.lookup now key = some v ↔
      ∃ e, c.entries.find? key = some e ∧ e.value = v ∧ now < e.expiresAt := by
  unfold lookup
  cases c.entries.find? key with
  | none => simp
  | some e => simp [CacheEntry.isFresh, and_comm]

@[simp] theorem lookup_new (ttl now : Span) (key : String) :
    ({ ttl := ttl } : TtlCache α).lookup now key = none := rfl

@[simp] theorem ttl_insert (c : TtlCache α) (now : Span) (key : String) (v : α) :
    (c.insert now key v).ttl = c.ttl := rfl

@[simp] theorem ttl_remove (c : TtlCache α) (key : String) : (c.remove key).ttl = c.ttl := rfl

@[simp] theorem ttl_dropExpired (c : TtlCache α) (asOf : Span) (key : String) :
    (c.dropExpired asOf key).ttl = c.ttl := by
  unfold dropExpired
  split
  · split <;> rfl
  · rfl

theorem lookup_insert_self (c : TtlCache α) (t now : Span) (key : String) (v : α) :
    (c.insert t key v).lookup now key = if now < t + c.ttl then some v else none := by
  simp [lookup, insert, CacheEntry.isFresh]

theorem lookup_insert_of_ne {key other : String} (h : other ≠ key) (c : TtlCache α) (t now : Span)
    (v : α) : (c.insert t key v).lookup now other = c.lookup now other := by
  simp [lookup, insert, Table.find?_insert_of_ne h]

theorem lookup_remove_self (c : TtlCache α) (now : Span) (key : String) :
    (c.remove key).lookup now key = none := by
  simp [lookup, remove, c.sorted.find?_erase_self]

theorem lookup_remove_of_ne {key other : String} (h : other ≠ key) (c : TtlCache α) (now : Span) :
    (c.remove key).lookup now other = c.lookup now other := by
  simp [lookup, remove, Table.find?_erase_of_ne h]

/-- An entry that had expired is not found later either, whether it was dropped or not. -/
theorem lookup_dropExpired {asOf now : Span} (h : asOf ≤ now) (c : TtlCache α)
    (key other : String) : (c.dropExpired asOf key).lookup now other = c.lookup now other := by
  unfold dropExpired
  cases he : c.entries.find? key with
  | none => rfl
  | some e =>
    by_cases hf : asOf < e.expiresAt
    · simp [CacheEntry.isFresh, hf]
    · have hnow : ¬ now < e.expiresAt := fun hlt => hf (Span.lt_of_le_of_lt h hlt)
      simp only [CacheEntry.isFresh, hf, decide_false, Bool.false_eq_true, if_false]
      by_cases hk : other = key
      · subst hk
        rw [lookup_remove_self]
        simp [lookup, he, CacheEntry.isFresh, hnow]
      · exact lookup_remove_of_ne hk c now

theorem lookup_keep (c : TtlCache α) (p : String → CacheEntry α → Bool) (now : Span)
    (key : String) (v : α) :
    (c.keep p).2.lookup now key = some v ↔
      ∃ e, c.entries.find? key = some e ∧ p key e = true ∧ e.value = v ∧ now < e.expiresAt := by
  rw [lookup_eq_some]
  simp only [keep, c.sorted.find?_filter, Option.filter_eq_some_iff]
  constructor
  · rintro ⟨e, ⟨he, hp⟩, hv, ht⟩
    exact ⟨e, he, hp, hv, ht⟩
  · rintro ⟨e, he, hp, hv, ht⟩
    exact ⟨e, ⟨he, hp⟩, hv, ht⟩

theorem lookup_purge {c : TtlCache α} {p : String → α → Bool} {now : Span} {key : String} {v : α} :
    (c.purge p).2.lookup now key = some v ↔ c.lookup now key = some v ∧ p key v = false := by
  rw [purge, lookup_keep, lookup_eq_some]
  constructor
  · rintro ⟨e, he, hp, rfl, ht⟩
    exact ⟨⟨e, he, rfl, ht⟩, by simpa using hp⟩
  · rintro ⟨⟨e, he, rfl, ht⟩, hp⟩
    exact ⟨e, he, by simpa using hp, rfl, ht⟩

/-- An eviction drops nothing that could still be found. -/
theorem lookup_evict {t now : Span} (h : t ≤ now) (c : TtlCache α) (key : String) :
    (c.evict t).2.lookup now key = c.lookup now key := by
  refine Option.ext fun v => ?_
  rw [evict, lookup_keep, lookup_eq_some]
  constructor
  · rintro ⟨e, he, -, hv, ht⟩
    exact ⟨e, he, hv, ht⟩
  · rintro ⟨e, he, hv, ht⟩
    exact ⟨e, he, decide_eq_true (Span.lt_of_le_of_lt h ht), hv, ht⟩

/-! ### What is stored in a cache -/

theorem mem_entries_insert {c : TtlCache α} {t : Span} {key : String} {v : α}
    {m : String × CacheEntry α} (h : m ∈ (c.insert t key v).entries) :
    m = (key, ⟨v, t + c.ttl⟩) ∨ m ∈ c.entries :=
  Table.mem_of_mem_insert h

theorem entries_dropExpired_subset (c : TtlCache α) (asOf : Span) (key : String) :
    (c.dropExpired asOf key).entries ⊆ c.entries := by
  unfold dropExpired
  split
  · split
    · exact List.Subset.refl _
    · exact (Table.erase_sublist key c.entries).subset
  · exact List.Subset.refl _

theorem entries_keep_subset (c : TtlCache α) (p : String → CacheEntry α → Bool) :
    (c.keep p).2.entries ⊆ c.entries := List.filter_sublist.subset

end TtlCache

end ContainerPorts
