import ContainerPorts.Cloud.Resource
import Mathlib.Tactic.Common

/-!
# What a port is asked for with

The body that asks for a port merges three sources of members: the fields of the request,
its further members, whose names are free, and the settings of an extension. Whichever
names they share, each name is in the body once, with the value from the extension if that
has one, or else the further member, or else the field.
-/
namespace ContainerPorts.Cloud

open Json (Value)

theorem find?_singleton (name key : String) (v : Value) :
    Table.find? name [(key, v)] = if name = key then some v else none := by
  simp only [Table.find?, eq_comm]

theorem find?_present (name key : String) (v : Option Value) :
    Table.find? name (Value.present key v) = if name = key then v else none := by
  cases v with
  | none => exact (ite_self none).symm
  | some v => exact find?_singleton name key v

theorem reverse_present (key : String) (v : Option Value) :
    (Value.present key v).reverse = Value.present key v := by
  cases v <;> rfl

namespace PortRequest

/-- The value of a field of the request. A field that is absent or an empty list has none. -/
def field? (r : PortRequest) : String → Option Value
  | "network_id" => some (.string r.networkId)
  | "name" => r.name.map .string
  | "description" => r.description.map .string
  | "admin_state_up" => some (.bool r.adminStateUp)
  | "mac_address" => r.macAddress.map .string
  | "fixed_ips" => if r.fixedSubnets = [] then none
    else some (.array (r.fixedSubnets.map fun s => .object [("subnet_id", .string s)]))
  | "device_id" => r.deviceId.map .string
  | "device_owner" => r.deviceOwner.map .string
  | "tenant_id" => r.tenantId.map .string
  | "security_groups" => r.securityGroups.map .strings
  | "allowed_address_pairs" => if r.allowedAddressPairs = [] then none
    else some (.array (r.allowedAddressPairs.map AddressPair.toJson))
  | _ => none

/-- The value of a further member; the last one with a name counts. -/
def spec? (r : PortRequest) (name : String) : Option Value :=
  (Table.find? name (Table.ofList r.valueSpecs)).map .string

theorem find?_ownMembers (r : PortRequest) (name : String) :
    Table.find? name r.ownMembers.reverse = r.field? name := by
  simp only [ownMembers, List.reverse_append, reverse_present, List.reverse_singleton,
    Table.find?_append, find?_present, find?_singleton]
  fun_cases field? r name <;> simp_all

theorem find?_map (name : String) (specs : List (String × String)) :
    Table.find? name (specs.map fun m => (m.1, Value.string m.2)) =
      (Table.find? name specs).map .string := by
  induction specs with
  | nil => rfl
  | cons m specs ih =>
    obtain ⟨k, s⟩ := m
    simp only [List.map_cons, Table.find?, ih]
    split <;> rfl

theorem find?_members (r : PortRequest) (name : String) :
    Table.find? name r.members = (r.spec? name).or (r.field? name) := by
  rw [members, Table.find?_ofList, List.reverse_append, Table.find?_append, find?_ownMembers,
    ← List.map_reverse, find?_map, spec?, Table.find?_ofList]

end PortRequest

namespace PortExtension

/-- The value that an extension is written with. A setting that is absent or an empty table has
none, but one that is an empty text does. -/
def setting? (e : PortExtension) : String → Option Value
  | "port_security_enabled" => e.portSecurityEnabled.map .bool
  | "binding:host_id" => e.hostId.map .string
  | "binding:vnic_type" => e.vnicType.map .string
  | "binding:profile" => if e.profile.isEmpty then none else some (.object e.profile)
  | _ => none

/-- Some setting is there and not empty. -/
def SetsAnything (e : PortExtension) : Prop :=
  e.portSecurityEnabled ≠ none ∨ (∃ host, e.hostId = some host ∧ host ≠ "") ∨
    (∃ type, e.vnicType = some type ∧ type ≠ "") ∨ e.profile ≠ []

theorem isEmpty_iff {e : PortExtension} : e.isEmpty = true ↔ ¬ e.SetsAnything := by
  have hgiven (o : Option String) : o.getD "" ≠ "" ↔ ∃ s, o = some s ∧ s ≠ "" := by
    cases o <;> simp
  simp [isEmpty, hasPortSecurity, hasPortBindings, SetsAnything, ← hgiven, and_assoc]

instance : DecidablePred SetsAnything := fun e =>
  decidable_of_iff (e.isEmpty = false) (by rw [← Bool.not_eq_true, isEmpty_iff, not_not])

theorem find?_extensionMembers (e : PortExtension) (name : String) :
    Table.find? name e.members.reverse = e.setting? name := by
  simp only [members, List.reverse_append, reverse_present, Table.find?_append, find?_present]
  fun_cases setting? e name <;> simp_all

end PortExtension

/-- A setting that is sent. An extension that does not set anything is not sent at all. -/
def sentSetting? (extra : Option PortExtension) (name : String) : Option Value :=
  match extra with
  | some e => if e.SetsAnything then e.setting? name else none
  | none => none

theorem portBody_some_of_not_setsAnything (r : PortRequest) {e : PortExtension}
    (h : ¬ e.SetsAnything) : portBody r (some e) = portBody r none := by
  simp only [portBody, PortExtension.isEmpty_iff.mpr h, if_true]

/-- What is in a body is a table in which each source of members gives way to the one before. -/
theorem exists_bodyTable (r : PortRequest) (extra : Option PortExtension) :
    ∃ members : Table Value, portBody r extra = .object [("port", .object members)] ∧
      members.Sorted ∧ ∀ name, Table.find? name members =
        (sentSetting? extra name).or ((r.spec? name).or (r.field? name)) := by
  have hplain : r.members.Sorted := .ofList _
  cases extra with
  | none => exact ⟨r.members, rfl, hplain, r.find?_members⟩
  | some e =>
    by_cases he : e.SetsAnything
    · have hsent : e.isEmpty = false := by
        rwa [← Bool.not_eq_true, PortExtension.isEmpty_iff, not_not]
      refine ⟨_, by rw [portBody, hsent]; rfl, hplain.foldl_insert e.members, fun name => ?_⟩
      rw [Table.find?_foldl_insert, e.find?_extensionMembers, r.find?_members, sentSetting?,
        if_pos he]
    · refine ⟨r.members, portBody_some_of_not_setsAnything r he, hplain, fun name => ?_⟩
      rw [r.find?_members, sentSetting?, if_neg he]
      rfl

/-- Each name is in the body once, with the value of the first source that has one: an extension
that sets anything, the further members, and the fields. Nothing else is in it, and nothing is
changed by an extension that does not set anything. -/
theorem portBody_precedence (r : PortRequest) (extra : Option PortExtension) :
    (∃ members : Table Value, portBody r extra = .object [("port", .object members)] ∧
      (members.map Prod.fst).Nodup ∧ ∀ name v, (name, v) ∈ members ↔
        (sentSetting? extra name).or ((r.spec? name).or (r.field? name)) = some v) ∧
    ∀ e : PortExtension, ¬ e.SetsAnything → portBody r (some e) = portBody r none := by
  obtain ⟨members, hbody, hsorted, hfind⟩ := exists_bodyTable r extra
  refine ⟨⟨members, hbody, hsorted.nodup_keys, fun name v => ?_⟩, fun e he => ?_⟩
  · rw [← hfind, hsorted.find?_eq_some_iff]
  · exact portBody_some_of_not_setsAnything r he

/-- Names that several sources have, and an extension with nothing but an empty text. -/
theorem portBody_precedence_shared :
    let r : PortRequest :=
      { networkId := "net-1", name := some "a"
        valueSpecs := [("binding:host_id", "x"), ("name", "b"), ("qos_policy_id", "q")] }
    let e : PortExtension := { hostId := some "node-1", vnicType := some "" }
    let idle : PortExtension := { vnicType := some "" }
    (∃ members : Table Value, portBody r (some e) = .object [("port", .object members)] ∧
      ("binding:host_id", .string "node-1") ∈ members ∧
      ("binding:vnic_type", .string "") ∈ members ∧ ("name", .string "b") ∈ members ∧
      ("qos_policy_id", .string "q") ∈ members ∧ ("network_id", .string "net-1") ∈ members) ∧
    ¬ idle.SetsAnything ∧ portBody r (some idle) = portBody r none := by
  intro r e idle
  obtain ⟨⟨members, hbody, -, hmem⟩, hidle⟩ := portBody_precedence r (some e)
  have he : e.SetsAnything := by decide
  have hnot : ¬ idle.SetsAnything := by decide
  refine ⟨⟨members, hbody, ?_, ?_, ?_, ?_, ?_⟩, hnot, hidle idle hnot⟩
  all_goals
    rw [hmem, sentSetting?, if_pos he]
    rfl

end ContainerPorts.Cloud
