import ContainerPorts.NetworkConf
import ContainerPorts.Proofs.Json.Narrowing

/-!
# The version that a configuration asks for

The plugin looks at the version of a network configuration and the daemon at all of it. They read
the same version of every object that the daemon accepts. A configuration may also be the list of
its fields in order: there the version comes first, and whoever knows no other field refuses a
second item.
-/
namespace ContainerPorts

open Json Json.Decoder

namespace Json.Decoder

variable {ρ : Type}

theorem closed_of_items {d : ℕ} {close : Close} {fs : List (Field ρ)} {ns : List Node} {r r' : ρ}
    (h : items d close fs ns r = .ok r') : close = .closed := by
  induction fs generalizing ns r with
  | nil =>
    cases ns with
    | nil =>
      rw [items] at h
      split at h
      · cases h
      · obtain ⟨_, hclose, -⟩ := bind_eq_ok_iff.mp h
        exact Close.eq_closed_of_finish hclose
    | cons n ns => cases h
  | cons f fs ih =>
    cases ns with
    | nil =>
      rw [items] at h
      obtain ⟨_, hclose, -⟩ := bind_eq_ok_iff.mp h
      exact Close.eq_closed_of_finish hclose
    | cons n ns =>
      obtain ⟨update, -, hrest⟩ := bind_eq_ok_iff.mp h
      exact ih hrest

end Json.Decoder

namespace NetworkConf

variable {defaults : PortDefaults} {stdin : Bytes} {plain c : NetworkConf}

/-- The only field of a configuration that the plugin looks at. -/
def versionField : Json.Field String := .defaulted "cniVersion" string fun s _ => s

theorem requestedVersion_eq (stdin : Bytes) :
    requestedVersion stdin = ofBytes (record "" [versionField]) stdin := rfl

/-- The version is the view that the plugin has of a configuration. -/
theorem narrows_version :
    ∃ fields, decoder = record {} fields ∧ Narrows fields [versionField] cniVersion := by
  refine ⟨_, rfl, ?_, ?_⟩
  · -- all fields but the first are skipped, each as its own kind of value
    have hopt : (option string).Skippable := skippable_string.option
    have hflag : (option bool).Skippable := skippable_bool.option
    have hgroups : (option (list string)).Skippable := (skippable_list string).option
    simp only [List.forall_mem_cons]
    refine ⟨.reads rfl fun d n update h => ?_, .skipped rfl skippable_string fun _ _ => rfl,
      .skipped rfl skippable_string fun _ _ => rfl, .skipped rfl skippable_string fun _ _ => rfl,
      .skipped rfl hopt fun _ _ => rfl, .skipped rfl hopt fun _ _ => rfl,
      .skipped rfl hgroups fun _ _ => rfl, .skipped rfl hopt fun _ _ => rfl,
      .skipped rfl hopt fun _ _ => rfl, .skipped rfl hflag fun _ _ => rfl,
      .skipped rfl hopt fun _ _ => rfl, .skipped rfl hopt fun _ _ => rfl,
      .skipped rfl hopt fun _ _ => rfl, .skipped rfl hopt fun _ _ => rfl,
      .skipped rfl (skippable_list _) fun _ _ => rfl,
      .skipped rfl (skippable_table _) fun _ _ => rfl, .skipped rfl hflag fun _ _ => rfl,
      .skipped rfl hopt fun _ _ => rfl, .skipped rfl hopt fun _ _ => rfl,
      .skipped rfl skippable_valueTable fun _ _ => rfl, List.forall_mem_nil _⟩
    obtain ⟨s, hs, rfl⟩ := map_eq_ok_iff.mp h
    exact ⟨_, map_eq_ok_iff.mpr ⟨s, hs, rfl⟩, fun _ => rfl⟩
  · intro g hg
    obtain rfl := List.mem_singleton.mp hg
    exact ⟨_, List.mem_cons_self, rfl, nofun⟩

/-- A configuration was read before its open fields were filled in. The version is none of them. -/
theorem exists_plain (h : read defaults stdin = .ok c) :
    ∃ plain, decoder depthLimit (Document.ofBytes stdin).root = .ok plain ∧
      (Document.ofBytes stdin).hasMore = false ∧ c.cniVersion = plain.cniVersion := by
  rw [read] at h
  cases hplain : decoder.ofBytes stdin with
  | error f =>
    rw [hplain] at h
    cases h
  | ok plain =>
    rw [hplain] at h
    cases h
    obtain ⟨hroot, hmore⟩ := ofBytes_eq_ok_iff.mp hplain
    exact ⟨plain, hroot, hmore, rfl⟩

/-- Where the text begins with a brace and the daemon accepts it, the plugin accepts it too, and
reads the version that the daemon reads. -/
theorem requestedVersion_of_read (hobject : (skipBlank stdin).head? = some 0x7B)
    (h : read defaults stdin = .ok c) : requestedVersion stdin = .ok c.cniVersion := by
  obtain ⟨plain, hplain, hmore, hversion⟩ := exists_plain h
  obtain ⟨members, close, hroot⟩ := exists_root_eq_object hobject
  obtain ⟨fields, hdecoder, hnarrows⟩ := narrows_version
  rw [hroot, hdecoder] at hplain
  rw [requestedVersion_eq, hversion, ofBytes_eq_ok_iff, hroot]
  exact ⟨hnarrows.record hplain, hmore⟩

/-- An unknown member that is given twice and is sound only for those who skip it, a name with an
escape, and members that the daemon alone reads. -/
theorem requestedVersion_of_read_escaped :
    let stdin := Utf8.encode ("  \x7b\"x\":[[\x7b\"\\ud800\":1e999\x7d]]," ++
      "\"cniVersi\\u006fn\":\"0.4.0\"," ++
      "\"binding:profile\":\x7b\"a\":\x7b\"b\":[-0.5]\x7d\x7d,\"x\":-0\x7d")
    let c : NetworkConf := {
      cniVersion := "0.4.0", portName := some "openstack-cni", portSecurityEnabled := some true
      profile := [("a", .object [("b", .array [.decimal "-0.5"])])] }
    (skipBlank stdin).head? = some 0x7B ∧ read {} stdin = .ok c ∧
      requestedVersion stdin = .ok "0.4.0" := by
  intro stdin c
  have hobject : (skipBlank stdin).head? = some 0x7B := rfl
  have hread : read {} stdin = .ok c := rfl
  exact ⟨hobject, hread, requestedVersion_of_read hobject hread⟩

theorem shows_cniVersion : Shows decoder {} 0 "cniVersion" string cniVersion := by
  refine ⟨_, rfl, by decide, ⟨_, _, rfl, rfl, rfl, fun _ _ => rfl⟩, ?_⟩
  simp +contextual [Json.Field.defaulted, map_eq_ok_iff]

/-- Of the lists that the daemon accepts, the plugin accepts those with one item at most. -/
theorem requestedVersion_of_read_items {ns : List Node} {close : Close}
    (hroot : (Document.ofBytes stdin).root = .array ns close) (h : read defaults stdin = .ok c) :
    requestedVersion stdin = if ns.length ≤ 1 then .ok c.cniVersion else .error .malformed := by
  obtain ⟨plain, hplain, hmore, hversion⟩ := exists_plain h
  rw [hroot] at hplain
  obtain ⟨d, hd, hitems⟩ := bind_eq_ok_iff.mp hplain
  obtain rfl := closed_of_items hitems
  have hdocument : requestedVersion stdin =
      (do let v ← record "" [versionField] depthLimit (.array ns .closed)
          if false then .error .malformed else return v) := by
    rw [requestedVersion_eq, ofBytes, document, hroot, hmore]
  rw [hdocument]
  cases ns with
  | nil =>
    have hnone : ∀ m, ¬ Node.Gives "cniVersion" 0 m (.array [] .closed) := by
      intro m hm
      cases hm
    have hempty : plain.cniVersion = "" := shows_cniVersion.eq_of_not_gives hplain hnone
    rw [hversion, hempty]
    rfl
  | cons n ns =>
    have hread : string 127 n = .ok plain.cniVersion := shows_cniVersion.eq_of_gives hplain rfl
    have hfield : versionField.read 127 n = .ok fun _ => plain.cniVersion :=
      map_eq_ok_iff.mpr ⟨_, hread, rfl⟩
    have hfirst : record "" [versionField] depthLimit (.array (n :: ns) .closed) =
        items 127 .closed [] ns plain.cniVersion := by
      change (do items 127 .closed [] ns ((← versionField.read 127 n) "")) = _
      rw [hfield]
      rfl
    rw [hfirst, hversion]
    cases ns <;> rfl

example :
    let stdin := Utf8.encode "[\"1.0.0\",\"net\"]"
    (read {} stdin).map cniVersion = .ok "1.0.0" ∧ requestedVersion stdin = .error .malformed :=
  ⟨rfl, rfl⟩

end NetworkConf

end ContainerPorts
