import ContainerPorts.Proofs.Cloud.Rest.Lookups
import ContainerPorts.Proofs.Text.Cutting
import ContainerPorts.Proofs.Url.Query
import ContainerPorts.PortTags

/-!
# Which port a lookup asks for

The tags of a port are sent in one query value with commas between them, and a comma in a tag is
sent as it is. So the value does not always tell the tags. It does as long as no field contains the
text that divides it from the next one, and every other port shares its value with one like that.
-/
namespace ContainerPorts

namespace PortTags

open Cloud.RestClient (tagQuery)

/-- What stands between the container and the interface in a query. -/
def ifnameMark : List Char := ("," ++ tag ifnameKey "").toList

def netnsMark : List Char := ("," ++ tag netnsKey "").toList

def hostMark : List Char := ("," ++ marker ++ "," ++ tag hostKey "").toList

/-- No field contains what divides it from the next one in a query. -/
structure Intact (t : PortTags) : Prop where
  containerId : ¬ ifnameMark <:+: t.containerId.toList
  ifname : ¬ netnsMark <:+: t.ifname.toList
  netns : ¬ hostMark <:+: t.netns.toList

variable {t u : PortTags}

theorem toList_tagQuery (t : PortTags) : (tagQuery t.toList).toList =
    (tag containerKey "").toList ++ (t.containerId.toList ++ (ifnameMark ++ (t.ifname.toList ++
      (netnsMark ++ (t.netns.toList ++ (hostMark ++ t.host.toList)))))) := by
  simp [tagQuery, toList, hostTag, tag, ifnameMark, netnsMark, hostMark]

theorem Intact.tagQuery_inj (ht : t.Intact) (hu : u.Intact)
    (h : tagQuery t.toList = tagQuery u.toList) : t = u := by
  have hlist := congrArg String.toList h
  rw [toList_tagQuery, toList_tagQuery] at hlist
  obtain ⟨hcontainer, hlist⟩ := Text.firstCut_unique (by decide) ht.containerId hu.containerId
    (List.append_cancel_left hlist)
  obtain ⟨hifname, hlist⟩ := Text.firstCut_unique (by decide) ht.ifname hu.ifname hlist
  obtain ⟨hnetns, hhost⟩ := Text.firstCut_unique (by decide) ht.netns hu.netns hlist
  cases t
  cases u
  simp_all only [String.toList_inj]

/-- Cutting a query value at the first place each time gives fields that can be told apart. -/
theorem exists_intact (t : PortTags) :
    ∃ u : PortTags, u.Intact ∧ tagQuery u.toList = tagQuery t.toList := by
  obtain ⟨container, behind, hcontainer, hcontainerIntact, front, rfl⟩ :=
    Text.exists_firstCut (by decide : ifnameMark ≠ []) t.containerId.toList
      (t.ifname.toList ++ (netnsMark ++ (t.netns.toList ++ (hostMark ++ t.host.toList))))
  obtain ⟨ifname, behind, hifname, hifnameIntact, front', rfl⟩ :=
    Text.exists_firstCut (by decide : netnsMark ≠ []) (front ++ t.ifname.toList)
      (t.netns.toList ++ (hostMark ++ t.host.toList))
  obtain ⟨netns, host, hnetns, hnetnsIntact, -⟩ :=
    Text.exists_firstCut (by decide : hostMark ≠ []) (front' ++ t.netns.toList) t.host.toList
  refine ⟨⟨.ofList container, .ofList ifname, .ofList netns, .ofList host⟩, ⟨?_, ?_, ?_⟩, ?_⟩
  · simpa using hcontainerIntact
  · simpa using hifnameIntact
  · simpa using hnetnsIntact
  · rw [List.append_assoc] at hifname hnetns
    refine String.toList_inj.mp ?_
    simp only [toList_tagQuery, String.toList_ofList]
    rw [hcontainer, hifname, hnetns]

end PortTags

namespace Cloud

namespace RestClient

/-- A call sends this request with a token, in some run. -/
def Requests (c : RestClient) (call : Call) (r : Http.Request) : Prop :=
  ∃ s es x a t, (c.answer call s).Follows es (.done x) ∧ ⟨.http r, a⟩ ∈ es ∧ r.token = some t

variable {c : RestClient} {tags tags' : List String} {r : Http.Request}

theorem Requests.exists_base (h : c.Requests (.portsByTags tags) r) :
    ∃ base : Url, r.url = base.withPairs [("tags", tagQuery tags)] := by
  obtain ⟨s, es, x, a, t, hes, hr, ht⟩ := h
  have hanswered := c.get_answered s .network "ports" [("tags", tagQuery tags)]
    (listing "ports" Port.decoder)
  exact (hanswered.tells.told es x hes).sends.url r a t hr ht

theorem Requests.congr (h : c.Requests (.portsByTags tags) r)
    (htags : tagQuery tags = tagQuery tags') :
    c.Requests (.portsByTags tags') r := by
  obtain ⟨s, es, x, a, t, hes, hr, ht⟩ := h
  refine ⟨s, es, x, a, t, ?_, hr, ht⟩
  have hlookup : c.portsByTags tags = c.portsByTags tags' := by
    rw [portsByTags, htags, portsByTags]
  change (ExceptT.run (c.portsByTags tags') s).Follows es _
  rw [← hlookup]
  exact hes

theorem exists_requests (c : RestClient) (tags : List String) :
    ∃ r, c.Requests (.portsByTags tags) r := by
  have hports : joined (c.base Session.sample .network) "ports" =
      .ok (Session.place "net" "ports") := by
    change joined Session.sample.network "ports" = _
    decide +kernel
  have hdec : (listing "ports" Port.decoder).ofBytes
      (documentResponse (.object [("ports", .array [])])).body = .ok [] := by decide +kernel
  have hgives := c.get_gives [("tags", tagQuery tags)] (listing "ports" Port.decoder)
    Session.sample_isFresh hports (isSuccess_documentResponse _) hdec
  exact ⟨_, some Session.sample, _, _, _, _, hgives,
    List.mem_cons_of_mem _ (List.mem_singleton_self _), rfl⟩

theorem exists_requests_iff (c : RestClient) (tags tags' : List String) :
    (∃ r, c.Requests (.portsByTags tags) r ∧ c.Requests (.portsByTags tags') r) ↔
      tagQuery tags = tagQuery tags' := by
  constructor
  · rintro ⟨r, h, h'⟩
    obtain ⟨base, hurl⟩ := h.exists_base
    obtain ⟨base', hurl'⟩ := h'.exists_base
    exact Url.withPairs_inj (hurl.symm.trans hurl')
  · intro h
    obtain ⟨r, hr⟩ := c.exists_requests tags
    exact ⟨r, hr, hr.congr h⟩

/-- Two lookups can be the same request exactly if their query values are the same, and every value
asks for exactly one port whose fields can be told apart. -/
theorem tagLookups_shared (c : RestClient) (t : PortTags) :
    (∀ u : PortTags,
      (∃ r, c.Requests (.portsByTags u.toList) r ∧ c.Requests (.portsByTags t.toList) r) ↔
        tagQuery u.toList = tagQuery t.toList) ∧
    ∃! u : PortTags, u.Intact ∧ tagQuery u.toList = tagQuery t.toList := by
  refine ⟨fun u => c.exists_requests_iff _ _, ?_⟩
  obtain ⟨u, hu, hshared⟩ := t.exists_intact
  refine ⟨u, ⟨hu, hshared⟩, ?_⟩
  rintro v ⟨hv, hvalue⟩
  exact hv.tagQuery_inj hu (hvalue.trans hshared.symm)

/-- The ports of two interfaces for which every client may send the same request, because the one
has a comma in its name and the other in its namespace. -/
theorem tagLookups_shared_comma :
    let i : Invocation := { command := "ADD", containerId := "a", ifname := "b,netns=c",
                            netns := "d", stdin := [0x7b, 0x7d] }
    let j : Invocation := { command := "ADD", containerId := "a", ifname := "b",
                            netns := "c,netns=d", stdin := [0x7b, 0x7d] }
    let t := PortTags.ofInvocation i "node-1"
    let u := PortTags.ofInvocation j "node-1"
    i.validate = .ok .add ∧ j.validate = .ok .add ∧ t ≠ u ∧
      ∀ c : RestClient, ∃ r, c.Requests (.portsByTags t.toList) r ∧
        c.Requests (.portsByTags u.toList) r := by
  intro i j t u
  have hvalue : tagQuery t.toList = tagQuery u.toList := by decide +kernel
  exact ⟨by decide +kernel, by decide +kernel, by decide +kernel,
    fun c => (c.exists_requests_iff t.toList u.toList).mpr hvalue⟩

end RestClient

end Cloud

end ContainerPorts
