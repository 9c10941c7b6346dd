/-!
# Tables keyed by text

A table lists its entries in the order of their keys, each key once. Equal
tables are therefore equal lists, and a listing needs no further sorting.
-/
namespace ContainerPorts

abbrev Table (α : Type) := List (String × α)

namespace Table

variable {α : Type}

def find? (key : String) : Table α → Option α
  | [] => none
  | (k, v) :: rest => if k = key then some v else find? key rest

/-- Give `key` the value `value`, replacing the one it had. -/
def insert (key : String) (value : α) : Table α → Table α
  | [] => [(key, value)]
  | (k, v) :: rest =>
    if k = key then (key, value) :: rest
    else if key < k then (key, value) :: (k, v) :: rest
    else (k, v) :: insert key value rest

def erase (key : String) : Table α → Table α
  | [] => []
  | (k, v) :: rest => if k = key then rest else (k, v) :: erase key rest

/-- Later pairs win over earlier ones with the same key. -/
def ofList (pairs : List (String × α)) : Table α :=
  pairs.foldl (fun t p => t.insert p.1 p.2) []

/-- The keys are in order, and no key stands twice. -/
def Sorted (t : Table α) : Prop := t.Pairwise fun a b => a.1 < b.1

@[simp] theorem find?_nil (key : String) : find? key ([] : Table α) = none := rfl

@[simp] theorem find?_insert_self (key : String) (value : α) (t : Table α) :
    find? key (t.insert key value) = some value := by
  induction t with
  | nil => simp [insert, find?]
  | cons p t ih =>
    obtain ⟨k, v⟩ := p
    simp only [insert]
    split
    · simp [find?]
    · split
      · simp [find?]
      · simp [find?, *]

theorem find?_insert_of_ne {key other : String} (h : other ≠ key) (value : α) (t : Table α) :
    find? other (t.insert key value) = find? other t := by
  induction t with
  | nil => simp [insert, find?, Ne.symm h]
  | cons p t ih =>
    obtain ⟨k, v⟩ := p
    simp only [insert]
    split
    · subst k; simp [find?, Ne.symm h]
    · split
      · simp [find?, Ne.symm h]
      · simp [find?, ih]

/-! ### Lists of pairs -/

theorem find?_append (key : String) (t u : Table α) :
    find? key (t ++ u) = (find? key t).or (find? key u) := by
  induction t with
  | nil => rfl
  | cons p t ih =>
    obtain ⟨k, v⟩ := p
    simp only [List.cons_append, find?]
    split
    · rfl
    · exact ih

/-- The last pair with a key counts, and what was in the table only if there is none. -/
theorem find?_foldl_insert (key : String) (pairs : List (String × α)) (t : Table α) :
    find? key (pairs.foldl (fun t p => t.insert p.1 p.2) t) =
      (find? key pairs.reverse).or (find? key t) := by
  induction pairs generalizing t with
  | nil => rfl
  | cons p pairs ih =>
    obtain ⟨k, v⟩ := p
    rw [List.foldl_cons, ih, List.reverse_cons, find?_append, Option.or_assoc]
    congr 1
    by_cases hk : key = k
    · subst hk; simp [find?]
    · simp [find?, find?_insert_of_ne hk, Ne.symm hk]

theorem find?_ofList (key : String) (pairs : List (String × α)) :
    find? key (ofList pairs) = find? key pairs.reverse := by
  rw [ofList, find?_foldl_insert, find?_nil, Option.or_none]

/-! ### Tables in order -/

theorem mem_of_find? {key : String} {value : α} {t : Table α} (h : find? key t = some value) :
    (key, value) ∈ t := by
  induction t with
  | nil => simp at h
  | cons p t ih =>
    obtain ⟨k, v⟩ := p
    simp only [find?] at h
    split at h
    · simp_all
    · exact List.mem_cons_of_mem _ (ih h)

theorem find?_eq_none {key : String} {t : Table α} (h : ∀ m ∈ t, m.1 ≠ key) :
    find? key t = none := by
  cases hf : find? key t with
  | none => rfl
  | some v => exact absurd rfl (h _ (mem_of_find? hf))

theorem mem_of_mem_insert {key : String} {value : α} {t : Table α} {m : String × α}
    (h : m ∈ t.insert key value) : m = (key, value) ∨ m ∈ t := by
  induction t with
  | nil => simpa [insert] using h
  | cons p t ih =>
    obtain ⟨k, v⟩ := p
    simp only [insert] at h
    split at h
    · exact (List.mem_cons.mp h).imp id (List.mem_cons_of_mem _)
    · split at h
      · exact List.mem_cons.mp h
      · rcases List.mem_cons.mp h with rfl | h
        · exact .inr (List.mem_cons_self ..)
        · exact (ih h).imp id (List.mem_cons_of_mem _)

theorem erase_sublist (key : String) (t : Table α) : (t.erase key).Sublist t := by
  induction t with
  | nil => exact .slnil
  | cons p t ih =>
    obtain ⟨k, v⟩ := p
    simp only [erase]
    split
    · exact List.sublist_cons_self ..
    · exact ih.cons_cons _

theorem find?_erase_of_ne {key other : String} (h : other ≠ key) (t : Table α) :
    find? other (t.erase key) = find? other t := by
  induction t with
  | nil => rfl
  | cons p t ih =>
    obtain ⟨k, v⟩ := p
    simp only [erase]
    split
    · subst k; simp [find?, Ne.symm h]
    · simp [find?, ih]

namespace Sorted

variable {t u : Table α}

@[simp] theorem nil : Sorted ([] : Table α) := List.Pairwise.nil

theorem filter (h : t.Sorted) (p : String × α → Bool) : Sorted (t.filter p) :=
  List.Pairwise.filter p h

theorem erase (h : t.Sorted) (key : String) : (t.erase key).Sorted :=
  List.Pairwise.sublist (erase_sublist key t) h

theorem insert (h : t.Sorted) (key : String) (value : α) : (t.insert key value).Sorted := by
  induction t with
  | nil => simp [Table.insert, Sorted]
  | cons p t ih =>
    obtain ⟨k, v⟩ := p
    obtain ⟨hk, ht⟩ := List.pairwise_cons.mp h
    simp only [Table.insert]
    split
    · subst k; exact List.pairwise_cons.mpr ⟨hk, ht⟩
    · split
      · rename_i hlt
        refine List.pairwise_cons.mpr ⟨fun m hm => ?_, h⟩
        rcases List.mem_cons.mp hm with rfl | hm
        · exact hlt
        · exact String.lt_trans hlt (hk m hm)
      · rename_i hne hge
        have hlt : k < key := by
          apply Decidable.byContradiction
          intro hle
          exact hne (String.le_antisymm (String.not_lt.mp hge) (String.not_lt.mp hle))
        refine List.pairwise_cons.mpr ⟨fun m hm => ?_, ih ht⟩
        rcases mem_of_mem_insert hm with rfl | hm
        · exact hlt
        · exact hk m hm

theorem foldl_insert (h : t.Sorted) (pairs : List (String × α)) :
    Sorted (pairs.foldl (fun t p => t.insert p.1 p.2) t) := by
  induction pairs generalizing t with
  | nil => exact h
  | cons p pairs ih => exact ih (h.insert p.1 p.2)

theorem ofList (pairs : List (String × α)) : Sorted (Table.ofList pairs) := nil.foldl_insert pairs

theorem nodup_keys (h : t.Sorted) : (t.map Prod.fst).Nodup := by
  refine List.pairwise_map.mpr (h.imp ?_)
  rintro a b hlt heq
  rw [heq] at hlt
  exact String.lt_irrefl b.1 hlt

/-- A key that stands before all others is in the table once. -/
theorem find?_tail {key : String} {value : α} (h : Sorted ((key, value) :: t)) :
    find? key t = none :=
  find?_eq_none fun m hm he =>
    String.lt_irrefl key (by simpa [he] using (List.pairwise_cons.mp h).1 m hm)

theorem find?_eq_some_iff (h : t.Sorted) {key : String} {value : α} :
    find? key t = some value ↔ (key, value) ∈ t := by
  refine ⟨mem_of_find?, fun hm => ?_⟩
  induction t with
  | nil => simp at hm
  | cons p t ih =>
    obtain ⟨k, v⟩ := p
    rcases List.mem_cons.mp hm with he | hm
    · simp_all [find?]
    · have hlt : k < key := (List.pairwise_cons.mp h).1 _ hm
      have hne : k ≠ key := by
        intro he
        simp [he] at hlt
      simpa [find?, hne] using ih (List.pairwise_cons.mp h).2 hm

theorem find?_erase_self (h : t.Sorted) (key : String) : find? key (t.erase key) = none := by
  induction t with
  | nil => rfl
  | cons p t ih =>
    obtain ⟨k, v⟩ := p
    simp only [Table.erase]
    split
    · subst k; exact find?_tail h
    · simpa [find?, *] using ih (List.pairwise_cons.mp h).2

theorem find?_filter (h : t.Sorted) (p : String × α → Bool) (key : String) :
    find? key (t.filter p) = (find? key t).filter fun v => p (key, v) := by
  induction t with
  | nil => rfl
  | cons m t ih =>
    obtain ⟨k, v⟩ := m
    have ih := ih (List.pairwise_cons.mp h).2
    by_cases hk : k = key
    · subst k
      have hnone := find?_tail h
      cases hp : p (key, v) <;> simp [find?, hp, ih, hnone, Option.filter]
    · cases hp : p (k, v) <;> simp [find?, hp, hk, ih]

end Sorted

end Table

end ContainerPorts
