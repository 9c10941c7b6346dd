import ContainerPorts.Cloud.Resource
import ContainerPorts.Invocation
import ContainerPorts.Text.Split
/-!
# Tags that identify a port

The container, the interface, the namespace and the host of an invocation
always give the same tags. They are the only way to find a port again, because
the cloud keeps no other record of the invocation that created it.
-/
namespace ContainerPorts

structure PortTags where
  containerId : String
  ifname : String
  netns : String
  host : String
  deriving DecidableEq, Repr, Inhabited

namespace PortTags

/-- The tag of every port that was created for a container. -/
def marker : String := "openstack-cni=true"

/-- Number of characters of the container id that are kept. -/
def idLength : Nat := 12

def containerKey : String := "containerid"

def ifnameKey : String := "ifname"

def netnsKey : String := "netns"

def hostKey : String := "host"

def tag (key value : String) : String := key ++ "=" ++ value

def hostTag (host : String) : String := tag hostKey host

/-- The tags of every port that was created on a host. -/
def hostTags (host : String) : List String := [marker, hostTag host]

def ofInvocation (i : Invocation) (host : String) : PortTags :=
  ⟨String.ofList (i.containerId.toList.take idLength), i.ifname, i.netns, host⟩

def toList (t : PortTags) : List String :=
  [tag containerKey t.containerId, tag ifnameKey t.ifname, tag netnsKey t.netns, marker,
    hostTag t.host]

/-- The value in the first of the tags that has this key. -/
def value? (tags : List String) (key : String) : Option String :=
  tags.findSome? fun t => match Text.cut '=' t with
    | some (k, v) => if k = key then some v else none
    | none => none

/-- The fields that a list of tags gives; what is missing is empty. -/
def ofList (tags : List String) : PortTags :=
  let get := fun key => (value? tags key).getD ""
  ⟨get containerKey, get ifnameKey, get netnsKey, get hostKey⟩

/-- Whether the tag of ports created for containers is among the tags. -/
def isMarked (tags : List String) : Bool := marker ∈ tags

/-- A tag is cut into its key and its value. -/
theorem cut_tag_iff {t key value : String} (hk : '=' ∉ key.toList) :
    Text.cut '=' t = some (key, value) ↔ t = tag key value := by
  rw [Text.cut, Option.map_eq_some_iff]
  constructor
  · rintro ⟨⟨b, e⟩, hb, hkv⟩
    obtain ⟨rfl, rfl⟩ := Prod.mk.inj hkv
    exact String.toList_inj.mp (by simp [tag, Text.cutOnce_eq_some hb])
  · rintro rfl
    exact ⟨(key.toList, value.toList), by simp [tag, Text.cutOnce_append hk], by simp⟩

/-- The value of a key is that of the first tag with this key. -/
theorem value?_eq_some_iff {tags : List String} {key value : String} (hk : '=' ∉ key.toList) :
    value? tags key = some value ↔ ∃ before after, tags = before ++ tag key value :: after ∧
      ∀ t ∈ before, ∀ other, t ≠ tag key other := by
  have hvalue (t v : String) : (match Text.cut '=' t with
      | some (k, v) => if k = key then some v else none
      | none => none) = some v ↔ t = tag key v := by
    rw [← cut_tag_iff hk]
    split
    · rename_i k w hcut
      simp [hcut]
    · rename_i hcut
      simp [hcut]
  rw [value?, List.findSome?_eq_some_iff]
  constructor
  · rintro ⟨before, t, after, rfl, ht, hbefore⟩
    obtain rfl := (hvalue t value).mp ht
    refine ⟨before, after, rfl, fun u hu other heq => ?_⟩
    exact nomatch (hbefore u hu).symm.trans ((hvalue u other).mpr heq)
  · rintro ⟨before, after, rfl, hbefore⟩
    refine ⟨before, _, after, rfl, (hvalue _ value).mpr rfl, fun u hu => ?_⟩
    rw [Option.eq_none_iff_forall_ne_some]
    exact fun other hother => hbefore u hu other ((hvalue u other).mp hother)

theorem tag_inj {key key' value value' : String} (hk : '=' ∉ key.toList)
    (hk' : '=' ∉ key'.toList) : tag key value = tag key' value' ↔ key = key' ∧ value = value' := by
  constructor
  · intro h
    have hlist : key.toList ++ '=' :: value.toList = key'.toList ++ '=' :: value'.toList := by
      simpa [tag] using congrArg String.toList h
    have hcut := congrArg (Text.cutOnce '=') hlist
    rw [Text.cutOnce_append hk, Text.cutOnce_append hk'] at hcut
    simpa [String.toList_inj] using hcut
  · rintro ⟨rfl, rfl⟩
    rfl

/-- The mark is a tag like the others, with a key of its own. -/
theorem marker_eq_tag : marker = tag "openstack-cni" "true" := by decide

theorem tag_mem_toList {key : String} (hk : '=' ∉ key.toList) (value : String) (t : PortTags) :
    tag key value ∈ t.toList ↔
      key = containerKey ∧ value = t.containerId ∨ key = ifnameKey ∧ value = t.ifname ∨
        key = netnsKey ∧ value = t.netns ∨ key = "openstack-cni" ∧ value = "true" ∨
          key = hostKey ∧ value = t.host := by
  have inj (key' value' : String) (hk' : '=' ∉ key'.toList) :
      tag key value = tag key' value' ↔ key = key' ∧ value = value' := tag_inj hk hk'
  simp only [toList, hostTag, marker_eq_tag, List.mem_cons, List.not_mem_nil, or_false]
  rw [inj _ _ (by decide), inj _ _ (by decide), inj _ _ (by decide), inj _ _ (by decide),
    inj _ _ (by decide)]

/-- The tags of one port never include those of another. -/
theorem eq_of_toList_subset {t u : PortTags} (h : t.toList ⊆ u.toList) : t = u := by
  have found (key value : String) (hk : '=' ∉ key.toList) (hmem : tag key value ∈ t.toList) :=
    (tag_mem_toList hk value u).mp (h hmem)
  have hcontainer : t.containerId = u.containerId := by
    simpa [containerKey, ifnameKey, netnsKey, hostKey] using
      found containerKey t.containerId (by decide) (by simp [toList])
  have hifname : t.ifname = u.ifname := by
    simpa [containerKey, ifnameKey, netnsKey, hostKey] using
      found ifnameKey t.ifname (by decide) (by simp [toList])
  have hnetns : t.netns = u.netns := by
    simpa [containerKey, ifnameKey, netnsKey, hostKey] using
      found netnsKey t.netns (by decide) (by simp [toList])
  have hhost : t.host = u.host := by
    simpa [containerKey, ifnameKey, netnsKey, hostKey] using
      found hostKey t.host (by decide) (by simp [toList, hostTag])
  cases t
  cases u
  simp_all only

theorem hostTags_subset (t : PortTags) : hostTags t.host ⊆ t.toList := by
  intro s hs
  simp only [hostTags, List.mem_cons, List.not_mem_nil, or_false] at hs
  rcases hs with rfl | rfl <;> simp [toList]

theorem isMarked_toList (t : PortTags) : isMarked t.toList = true := by
  simp [isMarked, toList]

end PortTags

end ContainerPorts
