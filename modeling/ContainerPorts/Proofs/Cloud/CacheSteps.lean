import ContainerPorts.Cloud.TtlCache
import ContainerPorts.Proofs.Replies

/-!
# A cache and its steps

Several callers may work on one cache at a time, so that between the lookup of a
reader and its insertion there are steps of others. Whoever took them, a value is
found exactly when it was inserted less than one lifetime ago and nothing replaced
or removed it since. Dropping what has expired takes nothing away.
-/
namespace ContainerPorts

namespace TtlCache

/-- A step on the entries of a cache. -/
inductive Step (α : Type) where
  | insert (key : String) (value : α)
  | remove (key : String)
  /-- Drop the entry of a key if it had expired at an earlier time. -/
  | dropExpired (asOf : Span) (key : String)
  | purge (p : String → α → Bool)
  | evict

variable {α : Type}

namespace Step

def apply (now : Span) : Step α → TtlCache α → TtlCache α
  | .insert key value, c => c.insert now key value
  | .remove key, c => c.remove key
  | .dropExpired asOf key, c => c.dropExpired asOf key
  | .purge p, c => (c.purge p).2
  | .evict, c => (c.evict now).2

/-- Whether a step takes a value away that has not expired. -/
def Displaces (key : String) (v : α) : Step α → Prop
  | .insert key' _ => key' = key
  | .remove key' => key' = key
  | .dropExpired .. => False
  | .purge p => p key v = true
  | .evict => False

/-- A step is taken before a moment, and looks at no time after it. -/
def Before (moment now : Span) : Step α → Prop
  | .dropExpired asOf _ => asOf ≤ moment
  | _ => now ≤ moment

@[simp] theorem ttl_apply (now : Span) (s : Step α) (c : TtlCache α) :
    (s.apply now c).ttl = c.ttl := by
  cases s with
  | dropExpired asOf key => exact ttl_dropExpired c asOf key
  | _ => rfl

/-- What is found after a step: what was found before, unless the step took it away, and what
the step inserted. -/
theorem lookup_apply {s : Step α} {now moment : Span} (h : s.Before moment now) {c : TtlCache α}
    {key : String} {v : α} :
    (s.apply now c).lookup moment key = some v ↔
      c.lookup moment key = some v ∧ ¬ s.Displaces key v ∨
        s = .insert key v ∧ moment < now + c.ttl := by
  cases s with
  | insert key' value =>
    by_cases hkey : key' = key
    · subst hkey
      by_cases hfresh : moment < now + c.ttl <;>
        simp [apply, Displaces, lookup_insert_self, hfresh]
    · simp [apply, Displaces, hkey, lookup_insert_of_ne (Ne.symm hkey)]
  | remove key' =>
    by_cases hkey : key' = key
    · subst hkey
      simp [apply, Displaces, lookup_remove_self]
    · simp [apply, Displaces, hkey, lookup_remove_of_ne (Ne.symm hkey)]
  | dropExpired asOf key' => simp [apply, Displaces, lookup_dropExpired h]
  | purge p => simp [apply, Displaces, lookup_purge]
  | evict => simp [apply, Displaces, lookup_evict h]

end Step

/-- The cache after steps that were taken at their times. -/
def afterSteps (c : TtlCache α) (steps : List (Span × Step α)) : TtlCache α :=
  steps.foldl (fun c s => s.2.apply s.1 c) c

/-- A value was inserted less than one lifetime ago, and not taken away since. -/
def Lasting (ttl : Span) (steps : List (Span × Step α)) (now : Span) (key : String) (v : α) :
    Prop :=
  ∃ before t since, steps = before ++ (t, .insert key v) :: since ∧ now < t + ttl ∧
    ∀ s ∈ since, ¬ s.2.Displaces key v

variable {c : TtlCache α} {steps : List (Span × Step α)} {ttl now : Span} {key : String} {v : α}

@[simp] theorem ttl_afterSteps : (c.afterSteps steps).ttl = c.ttl := by
  induction steps using List.reverseRecOn with
  | nil => rfl
  | append_singleton steps s ih => simpa [afterSteps] using ih

theorem lasting_iff :
    Lasting ttl steps now key v ↔ ∃ before s since, steps = before ++ s :: since ∧
      (s.2 = .insert key v ∧ now < s.1 + ttl) ∧ ∀ s ∈ since, ¬ s.2.Displaces key v := by
  constructor
  · rintro ⟨before, t, since, hsteps, hnow, hsince⟩
    exact ⟨before, (t, .insert key v), since, hsteps, ⟨rfl, hnow⟩, hsince⟩
  · rintro ⟨before, ⟨t, s⟩, since, hsteps, ⟨rfl, hnow⟩, hsince⟩
    exact ⟨before, t, since, hsteps, hnow, hsince⟩

theorem Lasting.concat_iff {s : Span × Step α} :
    Lasting ttl (steps ++ [s]) now key v ↔
      Lasting ttl steps now key v ∧ ¬ s.2.Displaces key v ∨
        s.2 = .insert key v ∧ now < s.1 + ttl := by
  rw [lasting_iff, lasting_iff, exists_since_concat_iff]

/-- What is found in a cache after any steps of any callers. -/
theorem lookup_afterSteps (h : ∀ s ∈ steps, s.2.Before now s.1) :
    (c.afterSteps steps).lookup now key = some v ↔
      (c.lookup now key = some v ∧ ∀ s ∈ steps, ¬ s.2.Displaces key v) ∨
        Lasting c.ttl steps now key v := by
  induction steps using List.reverseRecOn with
  | nil => simp [afterSteps, Lasting]
  | append_singleton steps s ih =>
    have hsteps : c.afterSteps (steps ++ [s]) = s.2.apply s.1 (c.afterSteps steps) := by
      simp [afterSteps]
    have ih := ih fun s' hs' => h s' (List.mem_append_left _ hs')
    rw [hsteps, Step.lookup_apply (h s (by simp)), ih, Lasting.concat_iff, ttl_afterSteps]
    simp only [List.mem_append, List.mem_singleton, or_imp, forall_and, forall_eq]
    rw [or_and_right, and_assoc, or_assoc]

end TtlCache

end ContainerPorts
