import ContainerPorts.Cloud.Cached
import Mathlib.Tactic.Common

/-!
# The keys of cached answers

A key begins with the name of the lookup, up to the first bar. Lookups that share
a key are therefore of one kind, and can read what the other one kept. Answers
that contain ports are only kept under the keys of port lookups.
-/
namespace ContainerPorts.Cloud

open Text

theorem toList_cacheKey (operation : String) (arguments : List String) :
    (cacheKey operation arguments).toList =
      operation.toList ++ arguments.flatMap fun a => '|' :: a.toList := by
  simp [cacheKey, List.flatMap_map]

namespace Caching

variable {c c' : Call} {k : Caching c} {k' : Caching c'}

theorem toList_key (h : c.caching? = some k) :
    '|' ∉ k.operation.toList ∧ ∃ rest, k.key.toList = k.operation.toList ++ '|' :: rest := by
  cases c <;> simp only [Call.caching?, Option.some.injEq, reduceCtorEq] at h
  all_goals
    subst h
    dsimp only [Caching.key]
    refine ⟨by decide, ?_⟩
    simp [toList_cacheKey]

theorem operation_eq_of_key_eq (h : c.caching? = some k) (h' : c'.caching? = some k')
    (hk : k.key = k'.key) : k.operation = k'.operation := by
  obtain ⟨hbar, rest, hkey⟩ := toList_key h
  obtain ⟨hbar', rest', hkey'⟩ := toList_key h'
  have hcut := cutOnce_append hbar rest
  rw [← hkey, hk, hkey', cutOnce_append hbar' rest'] at hcut
  exact String.toList_inj.mp (congrArg Prod.fst (Option.some.inj hcut)).symm

/-- What one lookup kept under a key, another lookup with this key can read. -/
theorem keep_of_key_eq (h : c.caching? = some k) (h' : c'.caching? = some k')
    (hk : k.key = k'.key) (x' : c'.Result) : ∃ x, k.keep x = k'.keep x' := by
  have hop := operation_eq_of_key_eq h h' hk
  cases c <;> simp only [Call.caching?, Option.some.injEq, reduceCtorEq] at h
  all_goals
    subst h
    cases c' <;> simp only [Call.caching?, Option.some.injEq, reduceCtorEq] at h'
    all_goals
      subst h'
      dsimp only at hop
      first | exact ⟨x', rfl⟩ | exact absurd hop (by decide)

/-- What a lookup reads is what it would keep. -/
theorem keep_of_read? (h : c.caching? = some k) {v : Kept} {x : c.Result}
    (hx : k.read? v = some x) : k.keep x = v := by
  cases c <;> simp only [Call.caching?, Option.some.injEq, reduceCtorEq] at h
  all_goals
    subst h
    cases v <;> simp only [Option.some.injEq, reduceCtorEq] at hx
    rw [hx]

/-- An answer with a port is kept under a key that a deletion of the port looks at. -/
theorem begins_of_contains (h : c.caching? = some k) {x : c.Result} {portId : String}
    (hx : (k.keep x).contains portId = true) : begins portKeys k.key = true := by
  cases c <;> simp only [Call.caching?, Option.some.injEq, reduceCtorEq] at h
  all_goals
    subst h
    first
      | simp [Kept.contains] at hx; done
      | simp [begins, Caching.key, toList_cacheKey, portKeys]

end Caching

end ContainerPorts.Cloud
