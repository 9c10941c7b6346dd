import ContainerPorts.Proofs.Json.Records
import Mathlib.Data.List.Nodup

/-!
# What the fields of a record were read from

The text of a record gives each of its fields at most one value. A field that was given a value
has what this is read as, and every other field has what the record starts with.
-/
namespace ContainerPorts.Json

variable {α ρ : Type}

/-- The value `m` stands for the field with this name and place: it is a member of an object
or an item of a list. -/
def Node.Gives (name : String) (place : ℕ) (m : Node) : Node → Prop
  | .object members _ => (.ok name, m) ∈ members
  | .array items _ => items[place]? = some m
  | _ => False

/-- Nothing stands for the field but null. -/
def Node.LeavesOpen (name : String) (place : ℕ) (node : Node) : Prop :=
  ∀ m, Node.Gives name place m node → m = .null

namespace Decoder

theorem exists_of_enter {d e : ℕ} (h : enter d = .ok e) : 0 < e ∧ d = e + 1 := by
  match d, h with
  | e + 2, rfl => exact ⟨Nat.succ_pos e, rfl⟩

/-! ### One reading after the other -/

variable {fields fs : List (Field ρ)} {start r r' : ρ} {d : ℕ} {node : Node}

/-- Reading one member of an object skips it, or updates the record by the field of its name
for the first time. -/
theorem member_eq_ok {seen seen' : List String} {k : Key} {n : Node}
    (h : member fields d (r, seen) (k, n) = .ok (r', seen')) : ∃ name, k = .ok name ∧
      ((r' = r ∧ seen' = seen ∧ n.skip = .ok () ∧ ∀ g ∈ fields, g.name ≠ name) ∨
        ∃ g ∈ fields, g.name = name ∧ name ∉ seen ∧ seen' = name :: seen ∧
          ∃ update, g.read d n = .ok update ∧ r' = update r) := by
  cases k with
  | error f => cases h
  | ok name =>
    refine ⟨name, rfl, ?_⟩
    simp only [member, bind, Except.bind] at h
    split at h
    · rename_i hnone
      split at h
      · cases h
      · rename_i hskip
        cases h
        exact .inl ⟨rfl, rfl, hskip, by simpa using hnone⟩
    · rename_i g hg
      have hname : g.name = name := by simpa using List.find?_some hg
      split at h
      · cases h
      · rename_i hnew
        split at h
        · cases h
        · rename_i update hread
          cases h
          exact .inr ⟨g, List.mem_of_find?_eq_some hg, hname, hnew, rfl, update, hread, rfl⟩

/-- The record is updated by the fields in turn, each read from the node beside it. -/
inductive Readings (d : ℕ) : List (Field ρ × Node) → ρ → ρ → Prop
  | done (r : ρ) : Readings d [] r r
  | step {f m gs r r' update} : f.read d m = .ok update → Readings d gs (update r) r' →
    Readings d ((f, m) :: gs) r r'

/-- What is read is each value that the node gives a field, once. -/
structure Covers (fields : List (Field ρ)) (node : Node) (gs : List (Field ρ × Node)) : Prop where
  nodup : (gs.map fun g => g.1.name).Nodup
  mem : ∀ g ∈ gs, g.1 ∈ fields
  gives_iff : ∀ i f m, fields[i]? = some f → (Node.Gives f.name i m node ↔ (f, m) ∈ gs)

theorem exists_readings_of_members (hnames : (fields.map Field.name).Nodup)
    {members : List (Key × Node)} {seen seen' : List String}
    (h : members.foldlM (member fields d) (r, seen) = .ok (r', seen')) :
    ∃ gs, Readings d gs r r' ∧ (gs.map fun g => g.1.name).Nodup ∧
      (∀ g ∈ gs, g.1 ∈ fields ∧ g.1.name ∉ seen) ∧
      ∀ f ∈ fields, ∀ m, (.ok f.name, m) ∈ members ↔ (f, m) ∈ gs := by
  induction members generalizing r seen with
  | nil =>
    cases h
    exact ⟨[], .done _, .nil, List.forall_mem_nil _, fun _ _ _ => by simp⟩
  | cons x members ih =>
    obtain ⟨k, n⟩ := x
    obtain ⟨⟨s, seen₁⟩, hx, hrest⟩ := bind_eq_ok_iff.mp h
    obtain ⟨name, rfl, ⟨rfl, rfl, -, hnone⟩ | ⟨f, hf, rfl, hnew, rfl, update, hread, rfl⟩⟩ :=
      member_eq_ok hx
    · obtain ⟨gs, hgs, hnodup, hmem, hgiven⟩ := ih hrest
      refine ⟨gs, hgs, hnodup, hmem, fun f hf m => ?_⟩
      have hskipped : ((.ok f.name : Key), m) ≠ (.ok name, n) := fun heq =>
        hnone f hf (Except.ok.inj (congrArg Prod.fst heq))
      rw [List.mem_cons, or_iff_right hskipped, hgiven f hf m]
    · obtain ⟨gs, hgs, hnodup, hmem, hgiven⟩ := ih hrest
      refine ⟨(f, n) :: gs, .step hread hgs, List.nodup_cons.mpr ⟨fun hin => ?_, hnodup⟩,
        List.forall_mem_cons.mpr ⟨⟨hf, hnew⟩, fun g hg => ⟨(hmem g hg).1, fun hin =>
          (hmem g hg).2 (List.mem_cons_of_mem _ hin)⟩⟩, fun g hg m => ?_⟩
      · obtain ⟨g, hg, heq⟩ := List.mem_map.mp hin
        exact (hmem g hg).2 (heq ▸ List.mem_cons_self)
      · have hsame : ((.ok g.name : Key), m) = (.ok f.name, n) ↔ (g, m) = (f, n) := by
          constructor
          · intro heq
            cases Field.eq_of_name_eq hnames hg hf (Except.ok.inj (congrArg Prod.fst heq))
            rw [(Prod.mk.inj heq).2]
          · intro heq
            cases heq
            rfl
        rw [List.mem_cons, List.mem_cons, hsame, hgiven g hg m]

theorem readings_of_items {close : Close} {ns : List Node} (h : items d close fs ns r = .ok r') :
    Readings d (fs.zip ns) r r' := by
  induction fs generalizing ns r with
  | nil =>
    cases ns with
    | nil =>
      rw [items] at h
      split at h
      · cases h
      · obtain ⟨-, -, hr⟩ := bind_eq_ok_iff.mp h
        cases hr
        exact .done _
    | cons n ns => cases h
  | cons f fs ih =>
    cases ns with
    | nil =>
      rw [items] at h
      obtain ⟨-, -, hrest⟩ := bind_eq_ok_iff.mp h
      split at hrest
      · cases hrest
      · have hrestRead := ih hrest
        rwa [List.zip_nil_right] at hrestRead
    | cons n ns =>
      obtain ⟨update, hread, hrest⟩ := bind_eq_ok_iff.mp h
      exact .step hread (ih hrest)

theorem map_fst_zip_sublist (fs : List (Field ρ)) (ns : List Node) :
    ((fs.zip ns).map Prod.fst).Sublist fs := by
  induction fs generalizing ns with
  | nil => exact .slnil
  | cons f fs ih =>
    cases ns with
    | nil => exact List.nil_sublist _
    | cons n ns => exact (ih ns).cons_cons f

theorem covers_zip (hnames : (fields.map Field.name).Nodup) (ns : List Node) (close : Close) :
    Covers fields (.array ns close) (fields.zip ns) where
  nodup := by
    have hsub := ((map_fst_zip_sublist fields ns).map Field.name).nodup hnames
    rwa [List.map_map] at hsub
  mem g hg := (List.of_mem_zip hg).1
  gives_iff i f m hi := by
    constructor
    · intro hm
      exact List.mem_of_getElem? (List.getElem?_zip_eq_some.mpr ⟨hi, hm⟩)
    · intro hg
      obtain ⟨j, hj⟩ := List.mem_iff_getElem?.mp hg
      obtain ⟨hf, hm⟩ := List.getElem?_zip_eq_some.mp hj
      have hnodup : fields.Nodup := List.Nodup.of_map Field.name hnames
      have hij : i = j := (List.getElem?_inj (List.getElem?_eq_some_iff.mp hi).1 hnodup).mp
        (hi.trans hf.symm)
      exact hij ▸ hm

/-- A record that was read is made of what its fields were given. -/
theorem exists_readings (hnames : (fields.map Field.name).Nodup)
    (h : record start fields (d + 1) node = .ok r) :
    ∃ gs, Readings d gs start r ∧ Covers fields node gs := by
  cases node with
  | object members close =>
    obtain ⟨e, he, hmembers⟩ := bind_eq_ok_iff.mp h
    obtain ⟨⟨r', seen⟩, hfold, hclose⟩ := bind_eq_ok_iff.mp hmembers
    obtain ⟨-, -, hend⟩ := bind_eq_ok_iff.mp hclose
    obtain ⟨-, hde⟩ := exists_of_enter he
    cases hde
    split at hend
    · cases hend
      obtain ⟨gs, hgs, hnodup, hmem, hgiven⟩ := exists_readings_of_members hnames hfold
      exact ⟨gs, hgs, hnodup, fun g hg => (hmem g hg).1, fun i f m hi =>
        hgiven f (List.mem_of_getElem? hi) m⟩
    · cases hend
  | array ns close =>
    obtain ⟨e, he, hitems⟩ := bind_eq_ok_iff.mp h
    obtain ⟨-, hde⟩ := exists_of_enter he
    cases hde
    exact ⟨fields.zip ns, readings_of_items hitems, covers_zip hnames ns close⟩
  | _ => cases h

/-! ### One field of a record -/

/-- The field of this name and place is read by `dec` and seen by `get`, and no other field is. -/
structure Views (fields : List (Field ρ)) (place : ℕ) (name : String) (dec : Decoder α)
    (get : ρ → α) : Prop where
  nodup : (fields.map Field.name).Nodup
  field : ∃ f set, fields[place]? = some f ∧ f.name = name ∧ f.read = dec.map set ∧
    ∀ a r, get (set a r) = a
  keeps : ∀ g ∈ fields, g.name ≠ name → ∀ d n update, g.read d n = .ok update →
    ∀ r, get (update r) = get r

namespace Views

variable {place : ℕ} {name : String} {dec : Decoder α} {get : ρ → α} {m : Node}
  {gs : List (Field ρ × Node)}

theorem get_eq_of_notMem (h : Views fields place name dec get) (hgs : Readings d gs r r')
    (hmem : ∀ g ∈ gs, g.1 ∈ fields) (hname : ∀ g ∈ gs, g.1.name ≠ name) : get r' = get r := by
  induction hgs with
  | done r => rfl
  | step hread _ ih =>
    obtain ⟨hf, hmem⟩ := List.forall_mem_cons.mp hmem
    obtain ⟨hfname, hname⟩ := List.forall_mem_cons.mp hname
    rw [ih hmem hname, h.keeps _ hf hfname _ _ _ hread]

theorem get_eq_of_mem (h : Views fields place name dec get) {f : Field ρ} {set : α → ρ → ρ}
    (hname : f.name = name) (hread : f.read = dec.map set) (hset : ∀ a r, get (set a r) = a)
    (hgs : Readings d gs r r') (hmem : ∀ g ∈ gs, g.1 ∈ fields)
    (hnodup : (gs.map fun g => g.1.name).Nodup) (hm : (f, m) ∈ gs) : dec d m = .ok (get r') := by
  induction hgs with
  | done r => cases hm
  | step hupdate hrest ih =>
    obtain ⟨-, hothers⟩ := List.forall_mem_cons.mp hmem
    obtain ⟨hnew, hnodup⟩ := List.nodup_cons.mp hnodup
    rcases List.mem_cons.mp hm with heq | hm
    · cases heq
      rw [hread] at hupdate
      obtain ⟨a, ha, rfl⟩ := map_eq_ok_iff.mp hupdate
      have hkept : get _ = get (set a _) := h.get_eq_of_notMem hrest hothers fun g hg heq =>
        hnew (List.mem_map.mpr ⟨g, hg, heq.trans hname.symm⟩)
      rw [hkept, hset, ha]
    · exact ih hothers hnodup hm

end Views

/-- The record that `whole` reads has such a field, and starts as `start`. -/
def Shows (whole : Decoder ρ) (start : ρ) (place : ℕ) (name : String) (dec : Decoder α)
    (get : ρ → α) : Prop :=
  ∃ fields, whole = record start fields ∧ Views fields place name dec get

namespace Shows

variable {whole : Decoder ρ} {place : ℕ} {name : String} {dec : Decoder α} {get : ρ → α} {m : Node}

/-- A field that is given a value has what this is read as. -/
theorem eq_of_gives (h : Shows whole start place name dec get) (hr : whole (d + 1) node = .ok r)
    (hm : Node.Gives name place m node) : dec d m = .ok (get r) := by
  obtain ⟨fields, rfl, hview⟩ := h
  obtain ⟨f, set, hplace, rfl, hread, hset⟩ := hview.field
  obtain ⟨gs, hgs, hcovers⟩ := exists_readings hview.nodup hr
  exact hview.get_eq_of_mem rfl hread hset hgs hcovers.mem hcovers.nodup
    ((hcovers.gives_iff place f m hplace).mp hm)

/-- A field that is given nothing has what the record starts with. -/
theorem eq_of_not_gives (h : Shows whole start place name dec get)
    (hr : whole (d + 1) node = .ok r) (hm : ∀ m, ¬ Node.Gives name place m node) :
    get r = get start := by
  obtain ⟨fields, rfl, hview⟩ := h
  obtain ⟨f, set, hplace, rfl, -, -⟩ := hview.field
  obtain ⟨gs, hgs, hcovers⟩ := exists_readings hview.nodup hr
  refine hview.get_eq_of_notMem hgs hcovers.mem fun g hg hname => hm g.2 ?_
  have hfield : g.1 = f :=
    Field.eq_of_name_eq hview.nodup (hcovers.mem g hg) (List.mem_of_getElem? hplace) hname
  exact (hcovers.gives_iff place f g.2 hplace).mpr (hfield ▸ hg)

/-- A field has what it was given, or what the record starts with. -/
theorem given_or_start (h : Shows whole start place name dec get)
    (hr : whole (d + 1) node = .ok r) :
    (∃ m, Node.Gives name place m node ∧ dec d m = .ok (get r)) ∨
      (∀ m, ¬ Node.Gives name place m node) ∧ get r = get start := by
  by_cases hgiven : ∃ m, Node.Gives name place m node
  · obtain ⟨m, hm⟩ := hgiven
    exact .inl ⟨m, hm, h.eq_of_gives hr hm⟩
  · have hnone := not_exists.mp hgiven
    exact .inr ⟨hnone, h.eq_of_not_gives hr hnone⟩

end Shows

end Decoder

end ContainerPorts.Json
