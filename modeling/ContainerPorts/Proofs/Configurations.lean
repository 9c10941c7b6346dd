import ContainerPorts.NetworkConf
import ContainerPorts.Proofs.Documents
import ContainerPorts.Proofs.Json.Values

/-!
# Network configurations are read once for all

Reading a network configuration fills in what its document leaves open, and nothing else. What was
read can be written and read again with the same defaults: the second time there is nothing left
to fill in.
-/
namespace ContainerPorts

open Json Json.Decoder

namespace Json.Decoder

variable {α ρ : Type} {n d : ℕ} {dec : Decoder α} {m node : Node} {start r : ρ}

theorem Reads.nullable {write : α → Value} {o : Option α} (h : ∀ a ∈ o, dec.Reads n (write a) a)
    (hnull : ∀ a, write a ≠ .null) : (Decoder.option dec).Reads n ((o.map write).getD .null) o := by
  cases o with
  | none => exact ⟨rfl, fun _ _ => rfl⟩
  | some a => exact (h a rfl).option (hnull a)

theorem Reads.optional (o : Option String) :
    (Decoder.option .string).Reads 0 (Value.optional o) o := by
  cases o with
  | none => exact ⟨rfl, fun _ _ => rfl⟩
  | some s => exact (Reads.string s).option nofun

theorem option_eq_none_iff : option dec d m = .ok none ↔ m = .null := by
  constructor
  · intro h
    cases m with
    | null => rfl
    | _ =>
      obtain ⟨a, -, ha⟩ : ∃ a, dec d _ = .ok a ∧ some a = none := map_eq_ok_iff.mp h
      cases ha
  · rintro rfl
    rfl

theorem option_string_eq_some_iff {s : String} :
    option string d m = .ok (some s) ↔ m = .string (.ok s) := by
  constructor
  · intro h
    cases m with
    | string k =>
      cases k with
      | ok t =>
        cases h
        rfl
      | error f => cases h
    | _ => cases h
  · rintro rfl
    rfl

namespace Shows

variable {whole : Decoder ρ} {place : ℕ} {name : String}

theorem eq_none_iff {get : ρ → Option α} (h : Shows whole start place name (option dec) get)
    (hstart : get start = none) (hr : whole (d + 1) node = .ok r) :
    get r = none ↔ node.LeavesOpen name place := by
  constructor
  · intro hnone m hm
    have hread := h.eq_of_gives hr hm
    rw [hnone] at hread
    exact option_eq_none_iff.mp hread
  · intro hopen
    rcases h.given_or_start hr with ⟨m, hm, hread⟩ | ⟨-, hkept⟩
    · rw [hopen m hm] at hread
      exact (Except.ok.inj hread).symm
    · exact hkept.trans hstart

theorem eq_some_iff {get : ρ → Option String} (h : Shows whole start place name (option string) get)
    (hstart : get start = none) (hr : whole (d + 1) node = .ok r) {s : String} :
    get r = some s ↔ Node.Gives name place (.string (.ok s)) node := by
  constructor
  · intro hs
    rcases h.given_or_start hr with ⟨m, hm, hread⟩ | ⟨-, hkept⟩
    · rw [hs] at hread
      exact option_string_eq_some_iff.mp hread ▸ hm
    · rw [hs, hstart] at hkept
      cases hkept
  · intro hm
    exact (Except.ok.inj (h.eq_of_gives hr hm)).symm

/-- A field that starts with a value has none if it is given null. -/
theorem eq_none_iff_gives {get : ρ → Option α} (h : Shows whole start place name (option dec) get)
    (hstart : get start ≠ none) (hr : whole (d + 1) node = .ok r) :
    get r = none ↔ Node.Gives name place .null node := by
  constructor
  · intro hnone
    rcases h.given_or_start hr with ⟨m, hm, hread⟩ | ⟨-, hkept⟩
    · rw [hnone] at hread
      exact option_eq_none_iff.mp hread ▸ hm
    · exact absurd (hkept.symm.trans hnone) hstart
  · intro hm
    exact (Except.ok.inj (h.eq_of_gives hr hm)).symm

end Shows

end Json.Decoder

theorem AddressPair.decoder_reads (p : AddressPair) : decoder.Reads 1 p.toJson p := by
  have hms : p.toJson = .object (("ip_address", .string p.ipAddress) ::
      (Value.present "mac_address" (p.macAddress.map .string) ++ [])) := by
    rw [toJson, List.append_nil]
  rw [hms]
  exact Fills.record (by decide) (.required (.string _)
    (.option (fun s _ => .string s) nofun rfl (.done _)))

namespace NetworkConf

variable {defaults : PortDefaults} {stdin : Bytes} {node : Node} {plain c : NetworkConf} {d : ℕ}
  {specs : List (String × String)}

/-! ### Filling in -/

theorem withDefaults_withDefaults (defaults : PortDefaults) (c : NetworkConf) :
    (c.withDefaults defaults).withDefaults defaults = c.withDefaults defaults := by
  have hname : (if (c.withDefaults defaults).portName.getD "" = "" then some defaults.portName
      else (c.withDefaults defaults).portName) = (c.withDefaults defaults).portName := by
    by_cases hc : c.portName.getD "" = ""
    · simp [withDefaults, hc]
    · simp [withDefaults, hc]
  have htwice {α : Type} (a b : Option α) : ((a <|> b) <|> b) = (a <|> b) := by
    cases a <;> cases b <;> rfl
  rw [withDefaults, hname]
  simp only [withDefaults, htwice]

/-- The value of a field is the default where the field is open, and what was read elsewhere. -/
def FilledIn {α : Type} (isOpen : Prop) (default read value : α) : Prop :=
  (isOpen → value = default) ∧ (¬ isOpen → value = read)

/-- `c` is what was read, `plain`, with four fields filled in. An empty port name counts as open,
but an empty project or owner was given; port security is only open where it is null. -/
structure Completes (defaults : PortDefaults) (root : Node) (plain c : NetworkConf) : Prop where
  others : c = { plain with
    portName := c.portName
    projectName := c.projectName
    deviceOwner := c.deviceOwner
    portSecurityEnabled := c.portSecurityEnabled }
  portName : FilledIn (root.LeavesOpen "port_name" 12 ∨
    Node.Gives "port_name" 12 (.string (.ok "")) root) (some defaults.portName) plain.portName
    c.portName
  projectName : FilledIn (root.LeavesOpen "project_name" 5) defaults.projectName plain.projectName
    c.projectName
  projectName_given : ∀ s, Node.Gives "project_name" 5 (.string (.ok s)) root →
    c.projectName = some s
  deviceOwner : FilledIn (root.LeavesOpen "device_owner" 11) defaults.deviceOwner plain.deviceOwner
    c.deviceOwner
  deviceOwner_given : ∀ s, Node.Gives "device_owner" 11 (.string (.ok s)) root →
    c.deviceOwner = some s
  portSecurityEnabled : FilledIn (Node.Gives "port_security_enabled" 16 .null root) (some true)
    plain.portSecurityEnabled c.portSecurityEnabled

theorem filledIn_or {α : Type} {isOpen : Prop} {default read : Option α}
    (h : read = none ↔ isOpen) : FilledIn isOpen default read (read <|> default) := by
  cases read with
  | none => exact ⟨fun _ => rfl, fun hopen => absurd (h.mp rfl) hopen⟩
  | some a => exact ⟨fun hopen => absurd (h.mpr hopen) nofun, fun _ => rfl⟩

theorem shows_projectName : Shows decoder {} 5 "project_name" (option string) projectName := by
  refine ⟨_, rfl, by decide, ⟨_, _, rfl, rfl, rfl, fun _ _ => rfl⟩, ?_⟩
  simp +contextual [Field.defaulted, map_eq_ok_iff]

theorem shows_deviceOwner : Shows decoder {} 11 "device_owner" (option string) deviceOwner := by
  refine ⟨_, rfl, by decide, ⟨_, _, rfl, rfl, rfl, fun _ _ => rfl⟩, ?_⟩
  simp +contextual [Field.defaulted, map_eq_ok_iff]

theorem shows_portName : Shows decoder {} 12 "port_name" (option string) portName := by
  refine ⟨_, rfl, by decide, ⟨_, _, rfl, rfl, rfl, fun _ _ => rfl⟩, ?_⟩
  simp +contextual [Field.defaulted, map_eq_ok_iff]

theorem shows_valueSpecs : Shows decoder {} 15 "value_specs" (table string) valueSpecs := by
  refine ⟨_, rfl, by decide, ⟨_, _, rfl, rfl, rfl, fun _ _ => rfl⟩, ?_⟩
  simp +contextual [Field.defaulted, map_eq_ok_iff]

theorem shows_portSecurityEnabled :
    Shows decoder {} 16 "port_security_enabled" (option bool) portSecurityEnabled := by
  refine ⟨_, rfl, by decide, ⟨_, _, rfl, rfl, rfl, fun _ _ => rfl⟩, ?_⟩
  simp +contextual [Field.defaulted, map_eq_ok_iff]

theorem shows_profile : Shows decoder {} 19 "binding:profile" valueTable profile := by
  refine ⟨_, rfl, by decide, ⟨_, _, rfl, rfl, rfl, fun _ _ => rfl⟩, ?_⟩
  simp +contextual [Field.defaulted, map_eq_ok_iff]

theorem completes_withDefaults (h : decoder (d + 1) node = .ok plain) :
    Completes defaults node plain (plain.withDefaults defaults) where
  others := rfl
  portName := by
    have hnone := shows_portName.eq_none_iff rfl h
    have hempty := shows_portName.eq_some_iff rfl h (s := "")
    have hopen : plain.portName.getD "" = "" ↔ node.LeavesOpen "port_name" 12 ∨
        Node.Gives "port_name" 12 (.string (.ok "")) node := by
      rw [← hnone, ← hempty]
      cases plain.portName <;> simp
    exact ⟨fun ho => if_pos (hopen.mpr ho), fun ho => if_neg (mt hopen.mp ho)⟩
  projectName := filledIn_or (shows_projectName.eq_none_iff rfl h)
  projectName_given s hs := by
    rw [withDefaults, (shows_projectName.eq_some_iff rfl h).mpr hs]
    rfl
  deviceOwner := filledIn_or (shows_deviceOwner.eq_none_iff rfl h)
  deviceOwner_given s hs := by
    rw [withDefaults, (shows_deviceOwner.eq_some_iff rfl h).mpr hs]
    rfl
  portSecurityEnabled := filledIn_or (shows_portSecurityEnabled.eq_none_iff_gives nofun h)

/-! ### Reading again -/

/-- What a configuration holds that cannot be written in two ways: its tables are in order, and
no value of its profile is too deep. -/
structure IsSettled (d : ℕ) (c : NetworkConf) : Prop where
  sorted_valueSpecs : c.valueSpecs.Sorted
  sorted_profile : c.profile.Sorted
  rereads : ∀ m ∈ c.profile, Rereads d m.2

theorem isSettled_of_decoder (h : decoder (d + 2) node = .ok plain) : plain.IsSettled d := by
  have hspecs : plain.valueSpecs.Sorted := by
    rcases shows_valueSpecs.given_or_start h with ⟨m, -, hread⟩ | ⟨-, hkept⟩
    · exact sorted_of_table hread
    · rw [hkept]
      exact .nil
  have hprofile : plain.profile.Sorted ∧ ∀ m ∈ plain.profile, Rereads d m.2 := by
    rcases shows_profile.given_or_start h with ⟨m, -, hread⟩ | ⟨-, hkept⟩
    · exact rereads_of_valueTable hread
    · rw [hkept]
      exact ⟨.nil, List.forall_mem_nil _⟩
  exact ⟨hspecs, hprofile.1, hprofile.2⟩

/-- The members of the value specs may be written in any order. -/
theorem decoder_reads (hc : c.IsSettled d) (hd : 2 ≤ d)
    (hexact : Value.membersAreExact c.profile = true) (hspecs : specs.Perm c.valueSpecs) :
    decoder.Reads (d + 1) { c with valueSpecs := specs }.toJson c := by
  have htext (s : String) : string.Reads d (.string s) s := (Reads.string s).mono (Nat.zero_le d)
  have hopt (o : Option String) : (option string).Reads d (Value.optional o) o :=
    (Reads.optional o).mono (Nat.zero_le d)
  have hflag (o : Option Bool) : (option bool).Reads d ((o.map Value.bool).getD .null) o :=
    (Reads.nullable (fun b _ => .bool b) nofun).mono (Nat.zero_le d)
  have hgroups : (option (list string)).Reads d ((c.securityGroups.map Value.strings).getD .null)
      c.securityGroups :=
    (Reads.nullable (fun ss _ => .strings ss) nofun).mono (Nat.le_of_succ_le hd)
  have hpairs : (list AddressPair.decoder).Reads d
      (.array (c.allowedAddressPairs.map AddressPair.toJson)) c.allowedAddressPairs :=
    (Reads.list fun p _ => p.decoder_reads).mono hd
  have htable : (table string).Reads d (.object (specs.map fun m => (m.1, .string m.2)))
      c.valueSpecs := by
    have hread : (table string).Reads 1 (.object (specs.map fun m => (m.1, .string m.2)))
        (Table.ofList specs) := Reads.table fun m _ => .string m.2
    rw [hc.sorted_valueSpecs.ofList_eq hspecs] at hread
    exact hread.mono (Nat.le_of_succ_le hd)
  have hprofile : valueTable.Reads d (.object c.profile) c.profile :=
    (Rereads.valueTable hc.rereads hc.sorted_profile hexact).mono
      (Rereads.memberDepths_lt hc.rereads (Nat.lt_of_lt_of_le Nat.zero_lt_two hd) hexact)
  exact Fills.record (by decide) (.defaulted (htext _) (.defaulted (htext _) (.defaulted (htext _)
    (.defaulted (htext _) (.defaulted (hopt _) (.defaulted (hopt _) (.defaulted hgroups
      (.defaulted (hopt _) (.defaulted (hopt _) (.defaulted (hflag _) (.defaulted (hopt _)
        (.defaulted (hopt _) (.defaulted (hopt _) (.defaulted (hopt _) (.defaulted hpairs
          (.defaulted htable (.defaulted (hflag _) (.defaulted (hopt _) (.defaulted (hopt _)
            (.defaulted hprofile (.done _)))))))))))))))))))))

/-- What is read is the document with its open fields filled in. Port security is always set.
Written in either form, with its value specs in any order, it is read as itself again, if there
are no decimals in its profile. -/
theorem read_settled (h : read defaults stdin = .ok c) :
    (∃ plain, decoder.ofBytes stdin = .ok plain ∧
      Completes defaults (Document.ofBytes stdin).root plain c) ∧
    c.portSecurityEnabled.isSome ∧
    (Value.membersAreExact c.profile = true → ∀ specs, specs.Perm c.valueSpecs →
      let v := { c with valueSpecs := specs }.toJson
      read defaults (Utf8.encode v.text) = .ok c ∧
        read defaults (Utf8.encode v.lines) = .ok c) := by
  obtain ⟨plain, hplain, rfl⟩ : ∃ plain, decoder.ofBytes stdin = .ok plain ∧
      plain.withDefaults defaults = c := by
    rw [read] at h
    cases hdec : decoder.ofBytes stdin with
    | error f =>
      rw [hdec] at h
      cases h
    | ok plain =>
      rw [hdec] at h
      exact ⟨plain, rfl, Except.ok.inj h⟩
  have hroot := read_root hplain
  have hsettled : plain.IsSettled 126 := isSettled_of_decoder hroot
  refine ⟨⟨plain, hplain, completes_withDefaults hroot⟩, ?_, fun hexact specs hspecs => ?_⟩
  · rw [withDefaults]
    cases plain.portSecurityEnabled <;> rfl
  · have hreads := (decoder_reads (c := plain.withDefaults defaults)
      ⟨hsettled.sorted_valueSpecs, hsettled.sorted_profile, hsettled.rereads⟩ (by decide) hexact
      hspecs).readsBack (by decide)
    refine ⟨?_, ?_⟩
    · rw [read, hreads.1, Except.map, withDefaults_withDefaults]
    · rw [read, hreads.2, Except.map, withDefaults_withDefaults]

/-- An empty port name, an empty project, value specs out of order, and a profile with nested
containers. -/
theorem read_settled_nested :
    let stdin := Utf8.encode ("\x7b\"port_name\":\"\",\"project_name\":\"\"," ++
      "\"value_specs\":\x7b\"b\":\"2\",\"a\":\"1\"\x7d," ++
      "\"binding:profile\":\x7b\"z\":[1,\x7b\x7d],\"a\":-3\x7d\x7d")
    let c : NetworkConf := {
      portName := some "openstack-cni", projectName := some "", portSecurityEnabled := some true
      valueSpecs := [("a", "1"), ("b", "2")]
      profile := [("a", .integer (-3)), ("z", .array [.integer 1, .object []])] }
    let swapped := { c with valueSpecs := [("b", "2"), ("a", "1")] }
    read {} stdin = .ok c ∧ Value.membersAreExact c.profile = true ∧
    read {} (Utf8.encode swapped.toJson.text) = .ok c := by
  intro stdin c swapped
  have hread : read {} stdin = .ok c := rfl
  have hexact : Value.membersAreExact c.profile = true := rfl
  obtain ⟨-, -, hagain⟩ := read_settled hread
  exact ⟨hread, hexact, (hagain hexact [("b", "2"), ("a", "1")] (.swap _ _ _)).1⟩

end NetworkConf

end ContainerPorts
