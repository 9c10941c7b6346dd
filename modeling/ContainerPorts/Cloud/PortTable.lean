import ContainerPorts.Cloud.Resource
import ContainerPorts.Table
/-!
# The ports of a cloud

The ports are kept in the order of their ids. Every port stands under its own
id, so that no two ports share one.
-/
namespace ContainerPorts.Cloud

structure PortTable where
  entries : Table Port := []
  sorted : entries.Sorted := by exact .nil
  keyed : ∀ m ∈ entries, m.2.id = m.1 := by exact List.forall_mem_nil _
  deriving Repr

namespace PortTable

def empty : PortTable := {}

instance : Inhabited PortTable := ⟨empty⟩

def find? (t : PortTable) (id : String) : Option Port := t.entries.find? id

/-- Put a port under its id, in the place of the one that had it. -/
def put (t : PortTable) (p : Port) : PortTable where
  entries := t.entries.insert p.id p
  sorted := t.sorted.insert p.id p
  keyed m hm := by
    rcases Table.mem_of_mem_insert hm with rfl | hm
    · rfl
    · exact t.keyed m hm

def erase (t : PortTable) (id : String) : PortTable where
  entries := t.entries.erase id
  sorted := t.sorted.erase id
  keyed m hm := t.keyed m ((Table.erase_sublist id t.entries).subset hm)

/-- All ports in the order of their ids. -/
def toList (t : PortTable) : List Port := t.entries.map (·.2)

@[simp] theorem find?_empty (id : String) : empty.find? id = none := rfl

@[simp] theorem find?_put_self (t : PortTable) (p : Port) : (t.put p).find? p.id = some p :=
  Table.find?_insert_self ..

theorem find?_put_of_ne {id : String} {p : Port} (h : id ≠ p.id) (t : PortTable) :
    (t.put p).find? id = t.find? id :=
  Table.find?_insert_of_ne h ..

@[simp] theorem find?_erase_self (t : PortTable) (id : String) : (t.erase id).find? id = none :=
  t.sorted.find?_erase_self id

theorem find?_erase_of_ne {id other : String} (h : other ≠ id) (t : PortTable) :
    (t.erase id).find? other = t.find? other :=
  Table.find?_erase_of_ne h ..

theorem id_of_find? {t : PortTable} {id : String} {p : Port} (h : t.find? id = some p) :
    p.id = id :=
  t.keyed _ (Table.mem_of_find? h)

theorem mem_toList {t : PortTable} {p : Port} : p ∈ t.toList ↔ t.find? p.id = some p := by
  simp only [toList, List.mem_map, find?, t.sorted.find?_eq_some_iff]
  constructor
  · rintro ⟨m, hm, rfl⟩
    simpa [t.keyed m hm] using hm
  · intro h
    exact ⟨_, h, rfl⟩

end PortTable

end ContainerPorts.Cloud
