import ContainerPorts.Cloud.World
import ContainerPorts.Proofs.Cloud.CacheKey
import ContainerPorts.Proofs.Cloud.History

/-!
# Lookups that share a key

A key joins the name of a lookup and its arguments with bars. It tells the lookup
and a single argument, but of two arguments only the joined text: a bar in the
first one can be taken for the bar between them, and a project that is not given
is joined like an empty one. So the cache answers a lookup by what was found for
it, or for another lookup of its kind whose arguments run together likewise.
-/
namespace ContainerPorts.Cloud

/-- The arguments of a lookup, with a bar between two of them. -/
def Call.joined : Call → String
  | .networkByName name => name
  | .portById portId => portId
  | .portsByDevice deviceId => deviceId
  | .projectByName name => name
  | .serverByName name => name
  | .securityGroupByName name projectId => name ++ "|" ++ projectId.getD ""
  | .subnetById subnetId => subnetId
  | .subnetByName name networkId => name ++ "|" ++ networkId
  | _ => ""

/-- Lookups of one kind whose arguments run together in the same way. -/
def Call.SharesKey (c c' : Call) : Prop := c.method = c'.method ∧ c.joined = c'.joined

/-- Calls whose arguments can be told apart when they are joined. -/
def Call.Plain : Call → Prop
  | .subnetByName name _ => '|' ∉ name.toList
  | .securityGroupByName name projectId => '|' ∉ name.toList ∧ projectId ≠ some ""
  | _ => True

/-- A text is cut at a bar in one way only, if there is no bar before it. -/
theorem bar_inj {a b a' b' : String} (ha : '|' ∉ a.toList) (ha' : '|' ∉ a'.toList)
    (h : a ++ "|" ++ b = a' ++ "|" ++ b') : a = a' ∧ b = b' := by
  have hlist : a.toList ++ '|' :: b.toList = a'.toList ++ '|' :: b'.toList := by
    simpa using congrArg String.toList h
  have hcut := congrArg (Text.cutOnce '|') hlist
  rw [Text.cutOnce_append ha, Text.cutOnce_append ha'] at hcut
  simpa [String.toList_inj] using hcut

namespace Caching

variable {c c' : Call} {k : Caching c} {k' : Caching c'}

theorem key_eq (h : c.caching? = some k) : k.key = k.operation ++ "|" ++ c.joined := by
  cases c <;> simp only [Call.caching?, Option.some.injEq, reduceCtorEq] at h
  all_goals
    subst h
    simp [← String.toList_inj, Caching.key, toList_cacheKey, Call.joined]

theorem operation_eq_iff (h : c.caching? = some k) (h' : c'.caching? = some k') :
    k.operation = k'.operation ↔ c.method = c'.method := by
  cases c <;> simp only [Call.caching?, Option.some.injEq, reduceCtorEq] at h
  all_goals
    subst h
    cases c' <;> simp only [Call.caching?, Option.some.injEq, reduceCtorEq] at h'
    all_goals
      subst h'
      simp [Call.method]

/-- A key tells its lookup apart from all lookups but those that share it. -/
theorem key_eq_iff (h : c.caching? = some k) (h' : c'.caching? = some k') :
    k.key = k'.key ↔ c.SharesKey c' := by
  rw [key_eq h, key_eq h']
  constructor
  · intro hk
    obtain ⟨hop, hjoined⟩ := bar_inj (toList_key h).1 (toList_key h').1 hk
    exact ⟨(operation_eq_iff h h').mp hop, hjoined⟩
  · rintro ⟨hmethod, hjoined⟩
    rw [(operation_eq_iff h h').mpr hmethod, hjoined]

end Caching

/-- Lookups that share a key are the same, but for two arguments that run together likewise. -/
theorem Call.SharesKey.cases {c c' : Call} (h : c.SharesKey c') (hc : c.isCacheable) :
    c = c' ∨
      (∃ name id name' id', c = .subnetByName name id ∧ c' = .subnetByName name' id' ∧
        name ++ "|" ++ id = name' ++ "|" ++ id') ∨
      ∃ name id name' id', c = .securityGroupByName name id ∧
        c' = .securityGroupByName name' id' ∧
        name ++ "|" ++ id.getD "" = name' ++ "|" ++ id'.getD "" := by
  obtain ⟨hmethod, hjoined⟩ := h
  cases c <;> simp only [Call.isCacheable, Call.caching?, Option.isSome_none, Bool.false_eq_true]
    at hc
  all_goals
    cases c' <;> simp only [Call.method, reduceCtorEq] at hmethod
  case securityGroupByName => exact .inr (.inr ⟨_, _, _, _, rfl, rfl, hjoined⟩)
  case subnetByName => exact .inr (.inl ⟨_, _, _, _, rfl, rfl, hjoined⟩)
  all_goals
    exact .inl (congrArg _ hjoined)

/-- Plain lookups share a key with no lookup but themselves. -/
theorem Call.SharesKey.eq {c c' : Call} (h : c.SharesKey c') (hc : c.isCacheable) (hp : c.Plain)
    (hp' : c'.Plain) : c = c' := by
  rcases h.cases hc with rfl | ⟨name, id, name', id', rfl, rfl, hjoined⟩ |
    ⟨name, id, name', id', rfl, rfl, hjoined⟩
  · rfl
  · obtain ⟨rfl, rfl⟩ := bar_inj hp hp' hjoined
    rfl
  · obtain ⟨rfl, hid⟩ := bar_inj hp.1 hp'.1 hjoined
    have hne := hp.2
    have hne' := hp'.2
    cases id <;> cases id' <;> simp_all

/-- What stands behind an answer that the cloud was not asked for: the result that the cloud gave
to an earlier lookup. -/
theorem Explained.exists_source {ttl : Span} {past : List Outcome} {o : Outcome}
    (h : Explained ttl past o) (hr : o.reached = []) :
    ∃ k, o.visit.call.caching? = some k ∧
      ∃ kept, (∃ x, o.answer = .ok x ∧ k.keep x = kept) ∧
        ∃ before o' since, past = before ++ o' :: since ∧ o'.Fetched k.key kept := by
  cases hk : o.visit.call.caching? with
  | none =>
    have hpass := h.passing (by simp [Call.isCacheable, hk])
    rw [hr] at hpass
    exact absurd hpass.1 (List.cons_ne_nil _ _).symm
  | some k =>
    obtain ⟨kept, hj⟩ : ∃ kept, Justified ttl past o.visit.asked k.key kept := by
      have hreach := h.reaching k hk
      simpa [hr] using hreach
    obtain ⟨before, o', since, hpast, hf, -⟩ := id hj
    exact ⟨k, rfl, kept, h.repeated k hk kept hj, before, o', since, hpast, hf⟩

namespace Event

/-- Two lookups have one key exactly if they are of one kind and their arguments run together, and
an answer that the cloud was not asked for is a result that it gave to such a lookup before: to the
same lookup, if the arguments of both can be told apart. -/
theorem unasked_answer_shares_key (ttl : Span) (es : List Event) (hes : Ordered es) :
    (∀ (c c' : Call) (k : Caching c) (k' : Caching c'), c.caching? = some k →
        c'.caching? = some k' → (k.key = k'.key ↔ c.SharesKey c')) ∧
      ∀ before o rest, outcomes { ttl := ttl } es = before ++ o :: rest → o.reached = [] →
        ∃ o' ∈ before, ∃ k k', o.visit.call.caching? = some k ∧ o'.visit.call.caching? = some k' ∧
          (∃ x x', o.answer = .ok x ∧ o'.visit.cloud o'.visit.call = .ok x' ∧
            k.keep x = k'.keep x') ∧
          o'.visit.call.SharesKey o.visit.call ∧
          (o'.visit.call.Plain → o.visit.call.Plain → o'.visit.call = o.visit.call) := by
  refine ⟨fun c c' k k' h h' => Caching.key_eq_iff h h', fun before o rest ho hr => ?_⟩
  have he : Explained ttl before o := explained_of_mem (.new ttl) hes.from_start ho
  obtain ⟨k, hk, kept, ⟨x, hx, rfl⟩, past, o', since, rfl, k', hk', hkey, hreach, x', hx', hkept⟩ :=
    he.exists_source hr
  rw [List.append_assoc, List.cons_append] at ho
  have he' : Explained ttl past o' := explained_of_mem (.new ttl) hes.from_start ho
  have hshares : o'.visit.call.SharesKey o.visit.call := (Caching.key_eq_iff hk' hk).mp hkey
  refine ⟨o', by simp, k, k', hk, hk', ⟨x, x', hx, ?_, hkept.symm⟩, hshares, fun hp' hp => ?_⟩
  · rw [← (he'.fresh hreach).2, hx']
  · exact hshares.eq (Call.isCacheable_of_caching? hk') hp' hp

/-- A subnet whose name has a bar. -/
def barredSubnet : Subnet := { id := "s", name := "a|b", networkId := "c" }

/-- A subnet on a network whose id has a bar. -/
def subnetBehindBar : Subnet := { id := "t", name := "a", networkId := "b|c" }

/-- The lookup of a subnet in a cloud that has the two. -/
def lookupOf (s : Subnet) (now : Span) : Visit where
  call := .subnetByName s.name s.networkId
  asked := now
  answered := now
  cloud := fun c => (({ subnets := [barredSubnet, subnetBehindBar] } : World).answer ⟨0, 0⟩ c).1

/-- Looked up after the first subnet, the second one is answered by the first, because their names
and networks run together. The cloud itself tells them apart. -/
theorem unasked_answer_shares_key_barred :
    let first := lookupOf barredSubnet ⟨0⟩
    let second := lookupOf subnetBehindBar ⟨1⟩
    let es : List Event := [.visit first, .visit second]
    let o := second.outcome (first.after { ttl := ⟨5⟩ })
    Ordered es ∧ first.call ≠ second.call ∧ first.call.SharesKey second.call ∧ o.reached = [] ∧
      o.answer = .ok barredSubnet ∧ second.cloud second.call = .ok subnetBehindBar := by
  intro first second es o
  have hes : Ordered es := by decide
  have hreached : o.reached = [] := by rfl
  obtain ⟨o', ho', -, -, -, -, -, hshares, -⟩ :=
    (unasked_answer_shares_key ⟨5⟩ es hes).2 [first.outcome { ttl := ⟨5⟩ }] o [] rfl hreached
  obtain rfl := List.mem_singleton.mp ho'
  refine ⟨hes, ?_, hshares, hreached, rfl, rfl⟩
  simp [first, second, lookupOf, barredSubnet, subnetBehindBar]

end Event

end ContainerPorts.Cloud
