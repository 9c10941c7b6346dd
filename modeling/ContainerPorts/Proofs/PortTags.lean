import ContainerPorts.PortTags
import Mathlib.Tactic.Common

/-!
# Whose port it is

A port is known by five texts, each of which is looked for among its tags. All of them, the
mark among them, are a key, an equals sign and a value. No key has an equals sign, so that
a tag is cut in one way and none is ever taken for another, whatever the values are. A
port therefore has all tags of an invocation exactly if that has the same container id, up
to its twelfth character, and is the same otherwise, and the tags can be read back.
-/
namespace ContainerPorts.PortTags

/-- The first tag is the one that is looked for, or it does not matter. -/
theorem value?_cons_tag {first : String} (hfirst : '=' ∉ first.toList) (value : String)
    (tags : List String) (key : String) :
    value? (tag first value :: tags) key = if first = key then some value else value? tags key := by
  rw [value?, List.findSome?_cons, (cut_tag_iff hfirst).mpr rfl, value?]
  dsimp only
  split_ifs <;> rfl

/-- What is written as tags is read back. -/
theorem ofList_toList (t : PortTags) : ofList t.toList = t := by
  have hcontainer : '=' ∉ containerKey.toList := by decide
  have hifname : '=' ∉ ifnameKey.toList := by decide
  have hnetns : '=' ∉ netnsKey.toList := by decide
  have hmarker : '=' ∉ "openstack-cni".toList := by decide
  have hhost : '=' ∉ hostKey.toList := by decide
  simp only [ofList, toList, hostTag, marker_eq_tag, value?_cons_tag hcontainer,
    value?_cons_tag hifname, value?_cons_tag hnetns, value?_cons_tag hmarker, value?_cons_tag hhost]
  simp [containerKey, ifnameKey, netnsKey, hostKey]

theorem toList_subset_iff {t u : PortTags} : t.toList ⊆ u.toList ↔ t = u :=
  ⟨eq_of_toList_subset, fun h => h ▸ List.Subset.refl _⟩

/-- The tags of a host are those of its ports alone. -/
theorem hostTags_subset_iff {host : String} {t : PortTags} :
    hostTags host ⊆ t.toList ↔ host = t.host := by
  constructor
  · intro h
    have hmem : tag hostKey host ∈ t.toList := h (by simp [hostTags, hostTag])
    simpa [containerKey, ifnameKey, netnsKey, hostKey] using
      (tag_mem_toList (by decide) host t).mp hmem
  · rintro rfl
    exact hostTags_subset t

theorem ofInvocation_eq_iff {i j : Invocation} {host other : String} :
    ofInvocation i host = ofInvocation j other ↔
      i.containerId.toList.take 12 = j.containerId.toList.take 12 ∧ i.ifname = j.ifname ∧
        i.netns = j.netns ∧ host = other := by
  simp only [ofInvocation, mk.injEq, String.ofList_inj, idLength]

/-- The tags of a port tell the container, up to the twelfth character of its id, the interface,
the namespace and the host that it was created for, and nothing else passes for them. -/
theorem owner_of_tags (i j : Invocation) (host other : String) (p : Cloud.Port) :
    let tagged : Cloud.Port := { p with tags := (ofInvocation i host).toList }
    (tagged.carries (ofInvocation j other).toList = true ↔
      i.containerId.toList.take 12 = j.containerId.toList.take 12 ∧ i.ifname = j.ifname ∧
        i.netns = j.netns ∧ host = other) ∧
    ofList tagged.tags = ofInvocation i host ∧
    (tagged.carries (hostTags other) = true ↔ host = other) := by
  intro tagged
  refine ⟨?_, ofList_toList _, ?_⟩
  · rw [Cloud.Port.carries_iff, toList_subset_iff, eq_comm, ofInvocation_eq_iff]
  · rw [Cloud.Port.carries_iff, hostTags_subset_iff, eq_comm]
    rfl

end ContainerPorts.PortTags
