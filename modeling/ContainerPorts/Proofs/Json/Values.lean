import ContainerPorts.Proofs.Json.Fields

/-!
# What was read is read back

A value that was read, and has no decimal in it, is written so that it is read as itself: its whole
numbers fit into 64 bits, the names of its objects are in order, and no more containers are nested
in it than in the text it was read from.
-/
namespace ContainerPorts

namespace Table

variable {α : Type} {t : Table α} {pairs : List (String × α)} {key : String} {value : α}

theorem insert_eq_append (h : ∀ m ∈ t, m.1 < key) : t.insert key value = t ++ [(key, value)] := by
  induction t with
  | nil => rfl
  | cons p t ih =>
    obtain ⟨k, v⟩ := p
    obtain ⟨hk, ht⟩ := List.forall_mem_cons.mp h
    have hne : k ≠ key := fun heq => String.lt_irrefl key (heq ▸ hk)
    rw [insert, if_neg hne, if_neg (String.lt_asymm hk), ih ht, List.cons_append]

theorem insert_perm (h : ∀ m ∈ t, m.1 ≠ key) : (t.insert key value).Perm ((key, value) :: t) := by
  induction t with
  | nil => exact .refl _
  | cons p t ih =>
    obtain ⟨k, v⟩ := p
    obtain ⟨hk, ht⟩ := List.forall_mem_cons.mp h
    rw [insert, if_neg hk]
    split
    · exact .refl _
    · exact ((ih ht).cons _).trans (.swap _ _ _)

theorem foldl_insert_perm (h : ((pairs ++ t).map Prod.fst).Nodup) :
    (pairs.foldl (fun t p => t.insert p.1 p.2) t).Perm (pairs ++ t) := by
  induction pairs generalizing t with
  | nil => exact .refl _
  | cons p pairs ih =>
    obtain ⟨hp, hrest⟩ := List.nodup_cons.mp h
    have hnew : ∀ m ∈ t, m.1 ≠ p.1 := fun m hm heq =>
      hp (heq ▸ List.mem_map_of_mem (List.mem_append_right pairs hm))
    have hmoved : (pairs ++ t.insert p.1 p.2).Perm (p :: pairs ++ t) :=
      ((insert_perm hnew).append_left pairs).trans List.perm_middle
    exact (ih ((hmoved.map Prod.fst).nodup_iff.mpr h)).trans hmoved

/-- A table is made of its entries, in whatever order they are given. -/
theorem Sorted.ofList_eq (h : t.Sorted) (hperm : pairs.Perm t) : Table.ofList pairs = t := by
  have hnodup : ((pairs ++ []).map Prod.fst).Nodup := by
    rw [List.append_nil]
    exact (hperm.map Prod.fst).nodup_iff.mpr h.nodup_keys
  have hentries : (Table.ofList pairs).Perm t :=
    (foldl_insert_perm hnodup).trans (by rwa [List.append_nil])
  exact hentries.eq_of_pairwise (fun _ _ _ _ hab hba => absurd hba (String.lt_asymm hab))
    (Sorted.ofList pairs) h

end Table

namespace Json

namespace Value

mutual

/-- How many containers are nested in a value. -/
def depth : Value → ℕ
  | .array vs => depths vs + 1
  | .object ms => memberDepths ms + 1
  | _ => 0

def depths : List Value → ℕ
  | [] => 0
  | v :: vs => max v.depth (depths vs)

def memberDepths : List (String × Value) → ℕ
  | [] => 0
  | (_, v) :: ms => max v.depth (memberDepths ms)

end

variable {v : Value} {vs : List Value} {ms : List (String × Value)} {d : ℕ}

theorem depths_lt (hd : 0 < d) (h : ∀ v ∈ vs, v.depth < d) : depths vs < d := by
  induction vs with
  | nil => exact hd
  | cons v vs ih =>
    obtain ⟨hv, hvs⟩ := List.forall_mem_cons.mp h
    exact Nat.max_lt.mpr ⟨hv, ih hvs⟩

theorem memberDepths_lt (hd : 0 < d) (h : ∀ m ∈ ms, m.2.depth < d) : memberDepths ms < d := by
  induction ms with
  | nil => exact hd
  | cons m ms ih =>
    obtain ⟨hm, hms⟩ := List.forall_mem_cons.mp h
    exact Nat.max_lt.mpr ⟨hm, ih hms⟩

theorem areExact_iff : areExact vs = true ↔ ∀ v ∈ vs, v.isExact = true := by
  induction vs with
  | nil => exact iff_of_true rfl (List.forall_mem_nil _)
  | cons v vs ih => rw [areExact, Bool.and_eq_true, ih, List.forall_mem_cons]

theorem membersAreExact_iff : membersAreExact ms = true ↔ ∀ m ∈ ms, m.2.isExact = true := by
  induction ms with
  | nil => exact iff_of_true rfl (List.forall_mem_nil _)
  | cons m ms ih => rw [membersAreExact, Bool.and_eq_true, ih, List.forall_mem_cons]

end Value

namespace Decoder

variable {v : Value} {vs : List Value} {ms t done : List (String × Value)} {d : ℕ}

/-- A value without decimals is read as itself, and is not too deep for where it was read. -/
def Rereads (d : ℕ) (v : Value) : Prop :=
  v.isExact = true → Decoder.value.Reads v.depth v v ∧ v.depth < d

theorem integer?_toDigits {n : Numeral} {k : Int} (h : n.integer? = some k) :
    Numeral.integer? ⟨k < 0, Nat.toDigits 10 k.natAbs, [], none⟩ = some k := by
  have hdigits (v : ℕ) : Nat.ofDigitChars 10 (Nat.toDigits 10 v) 0 = v :=
    Nat.ofDigitChars_toDigits (by decide) (by decide)
  unfold Numeral.integer? at h
  split at h
  · cases h
  · dsimp only at h
    generalize Nat.ofDigitChars 10 n.whole 0 = v at h
    split at h
    · split at h
      · rename_i hv
        cases h
        simp [Numeral.integer?, hdigits, hv]
      · cases h
    · split at h
      · rename_i hv
        cases h
        simp [Numeral.integer?, hdigits, hv]
      · cases h

theorem reads_values (h : ∀ v ∈ vs, Decoder.value.Reads v.depth v v) (hd : Value.depths vs < d) :
    Node.values d (Value.nodes vs) = .ok vs := by
  induction vs with
  | nil => rfl
  | cons v vs ih =>
    obtain ⟨hv, hvs⟩ := List.forall_mem_cons.mp h
    obtain ⟨hvd, hvsd⟩ := Nat.max_lt.mp hd
    have hfirst : v.node.value d = .ok v := hv.reads d hvd
    rw [Value.nodes, Node.values, hfirst, ih hvs hvsd]
    rfl

theorem reads_memberValues (hsorted : Table.Sorted (done ++ ms))
    (h : ∀ m ∈ ms, Decoder.value.Reads m.2.depth m.2 m.2) (hd : Value.memberDepths ms < d) :
    Node.memberValues d done (Value.memberNodes ms) = .ok (done ++ ms) := by
  induction ms generalizing done with
  | nil => rw [List.append_nil]; rfl
  | cons m ms ih =>
    obtain ⟨k, v⟩ := m
    obtain ⟨hv, hms⟩ := List.forall_mem_cons.mp h
    obtain ⟨hvd, hmsd⟩ := Nat.max_lt.mp hd
    have hfirst : v.node.value d = .ok v := hv.reads d hvd
    have hlast : ∀ m ∈ done, m.1 < k := fun m hm =>
      (List.pairwise_append.mp hsorted).2.2 m hm (k, v) List.mem_cons_self
    have hstep : Node.memberValues d done (Value.memberNodes ((k, v) :: ms)) =
        Node.memberValues d (done ++ [(k, v)]) (Value.memberNodes ms) := by
      rw [← Table.insert_eq_append hlast]
      simp only [Value.memberNodes, Node.memberValues, hfirst]
      rfl
    rw [hstep, ih (by simpa using hsorted) hms hmsd, List.append_assoc, List.singleton_append]

theorem value_object (d : ℕ) (ms : List (Key × Node)) (close : Close) :
    Decoder.value d (.object ms close) = (valueTable d (.object ms close)).map .object := by
  simp only [Decoder.value, Node.value, valueTable]
  cases enter d with
  | error f => rfl
  | ok d =>
    dsimp only [bind, Except.bind]
    cases Node.memberValues d [] ms with
    | error f => rfl
    | ok t =>
      dsimp only
      cases close.finish <;> rfl

namespace Rereads

theorem scalar (hv : v.depth = 0) (hd : 0 < d)
    (h : v.isExact = true → ∀ e, v.node.value e = .ok v) : Rereads d v := by
  intro hexact
  rw [hv]
  exact ⟨⟨hexact, fun e _ => h hexact e⟩, hd⟩

theorem array (h : ∀ v ∈ vs, Rereads d v) (hd : 0 < d) : Rereads (d + 1) (.array vs) := by
  intro hexact
  have hvs := Value.areExact_iff.mp hexact
  refine ⟨⟨hexact, fun e he => ?_⟩,
    Nat.succ_lt_succ (Value.depths_lt hd fun v hv => (h v hv (hvs v hv)).2)⟩
  obtain ⟨e, rfl⟩ : ∃ k, e = k + 2 :=
    Nat.exists_eq_add_of_le' (Nat.lt_of_le_of_lt (Nat.le_add_left 1 _) he)
  have hvalues : Node.values (e + 1) (Value.nodes vs) = .ok vs :=
    reads_values (fun v hv => (h v hv (hvs v hv)).1) (Nat.lt_of_succ_lt_succ he)
  simp only [Decoder.value, Value.node, Node.value, enter, bind, Except.bind, hvalues]
  rfl

/-- The members of an object are read in every place where the deepest of them can be. -/
theorem valueTable (h : ∀ m ∈ t, Rereads d m.2) (hsorted : Table.Sorted t)
    (hexact : Value.membersAreExact t = true) :
    Decoder.valueTable.Reads (Value.memberDepths t + 1) (.object t) t := by
  have ht := Value.membersAreExact_iff.mp hexact
  refine ⟨hexact, fun e he => ?_⟩
  obtain ⟨e, rfl⟩ : ∃ k, e = k + 2 :=
    Nat.exists_eq_add_of_le' (Nat.lt_of_le_of_lt (Nat.le_add_left 1 _) he)
  have hvalues : Node.memberValues (e + 1) [] (Value.memberNodes t) = .ok t :=
    reads_memberValues hsorted (fun m hm => (h m hm (ht m hm)).1) (Nat.lt_of_succ_lt_succ he)
  simp only [Decoder.valueTable, Value.node, enter, bind, Except.bind, hvalues]
  rfl

theorem memberDepths_lt (h : ∀ m ∈ t, Rereads d m.2) (hd : 0 < d)
    (hexact : Value.membersAreExact t = true) : Value.memberDepths t < d :=
  Value.memberDepths_lt hd fun m hm => (h m hm (Value.membersAreExact_iff.mp hexact m hm)).2

theorem object (h : ∀ m ∈ t, Rereads d m.2) (hsorted : Table.Sorted t) (hd : 0 < d) :
    Rereads (d + 1) (.object t) := by
  intro hexact
  refine ⟨⟨hexact, fun e he => ?_⟩, Nat.succ_lt_succ (memberDepths_lt h hd hexact)⟩
  have hread := (valueTable h hsorted hexact).reads e he
  rw [Value.node] at hread ⊢
  rw [value_object, hread]
  rfl

end Rereads

/-! ### Values that were read -/

mutual

theorem rereads_of_value : ∀ (n : Node) {d : ℕ} {v : Value}, 0 < d → n.value d = .ok v → Rereads d v
  | .null, d, v, hd, h => by
    cases h
    exact .scalar rfl hd fun _ _ => rfl
  | .bool b, d, v, hd, h => by
    cases h
    exact .scalar rfl hd fun _ _ => rfl
  | .number n, d, v, hd, h => by
    rw [Node.value] at h
    split at h
    · rename_i k hk
      cases h
      refine .scalar rfl hd fun _ e => ?_
      rw [Value.node, Node.value, integer?_toDigits hk]
    · -- What is no whole number is read as a decimal.
      split at h
      · cases h
      · cases h
        exact .scalar rfl hd nofun
  | .string (.ok s), d, v, hd, h => by
    cases h
    exact .scalar rfl hd fun _ _ => rfl
  | .string (.error f), d, v, hd, h => nomatch h
  | .array items close, d, v, hd, h => by
    obtain ⟨e, he, hitems⟩ := bind_eq_ok_iff.mp h
    obtain ⟨vs, hvs, hend⟩ := bind_eq_ok_iff.mp hitems
    obtain ⟨-, -, hv⟩ := bind_eq_ok_iff.mp hend
    obtain ⟨hpos, rfl⟩ := exists_of_enter he
    cases hv
    exact .array (rereads_of_values items hpos hvs) hpos
  | .object members close, d, v, hd, h => by
    obtain ⟨e, he, hmembers⟩ := bind_eq_ok_iff.mp h
    obtain ⟨t, ht, hend⟩ := bind_eq_ok_iff.mp hmembers
    obtain ⟨-, -, hv⟩ := bind_eq_ok_iff.mp hend
    obtain ⟨hpos, rfl⟩ := exists_of_enter he
    cases hv
    obtain ⟨hsorted, hall⟩ :=
      rereads_of_memberValues members hpos ht .nil (List.forall_mem_nil _)
    exact .object hall hsorted hpos
  | .absent, d, v, hd, h => nomatch h
  | .cutString b, d, v, hd, h => nomatch h
  | .broken b, d, v, hd, h => nomatch h

theorem rereads_of_values : ∀ (ns : List Node) {d : ℕ} {vs : List Value}, 0 < d →
    Node.values d ns = .ok vs → ∀ v ∈ vs, Rereads d v
  | [], d, vs, hd, h => by
    cases h
    exact List.forall_mem_nil _
  | n :: ns, d, vs, hd, h => by
    obtain ⟨v, hv, h⟩ := bind_eq_ok_iff.mp h
    obtain ⟨rest, hrest, h⟩ := bind_eq_ok_iff.mp h
    cases h
    exact List.forall_mem_cons.mpr ⟨rereads_of_value n hd hv, rereads_of_values ns hd hrest⟩

theorem rereads_of_memberValues : ∀ (ms : List (Key × Node)) {d : ℕ} {done t : Table Value}, 0 < d →
    Node.memberValues d done ms = .ok t → done.Sorted → (∀ m ∈ done, Rereads d m.2) →
      t.Sorted ∧ ∀ m ∈ t, Rereads d m.2
  | [], d, done, t, hd, h, hsorted, hdone => by
    cases h
    exact ⟨hsorted, hdone⟩
  | (k, n) :: ms, d, done, t, hd, h, hsorted, hdone => by
    obtain ⟨name, -, h⟩ := bind_eq_ok_iff.mp h
    obtain ⟨v, hv, h⟩ := bind_eq_ok_iff.mp h
    refine rereads_of_memberValues ms hd h (hsorted.insert name v) fun m hm => ?_
    rcases Table.mem_of_mem_insert hm with rfl | hm
    · exact rereads_of_value n hd hv
    · exact hdone m hm

end

theorem rereads_of_valueTable {n : Node} {t : Table Value}
    (h : Decoder.valueTable (d + 1) n = .ok t) :
    t.Sorted ∧ ∀ m ∈ t, Rereads d m.2 := by
  cases n with
  | object members close =>
    obtain ⟨e, he, hmembers⟩ := bind_eq_ok_iff.mp h
    obtain ⟨t', ht, hend⟩ := bind_eq_ok_iff.mp hmembers
    obtain ⟨-, -, hv⟩ := bind_eq_ok_iff.mp hend
    obtain ⟨hpos, hde⟩ := exists_of_enter he
    cases hv
    cases hde
    exact rereads_of_memberValues members hpos ht .nil (List.forall_mem_nil _)
  | _ => cases h

/-! ### Tables -/

section Table

variable {α : Type} {dec : Decoder α}

theorem sorted_of_members {members : List (Key × Node)} {done t : Table α} (hdone : done.Sorted)
    (h : members.foldlM (fun t m => do return Table.insert (← m.1) (← dec d m.2) t) done = .ok t) :
    t.Sorted := by
  induction members generalizing done with
  | nil =>
    cases h
    exact hdone
  | cons m members ih =>
    obtain ⟨next, hnext, hrest⟩ := bind_eq_ok_iff.mp h
    obtain ⟨name, -, hnext⟩ := bind_eq_ok_iff.mp hnext
    obtain ⟨a, -, hnext⟩ := bind_eq_ok_iff.mp hnext
    cases hnext
    exact ih (hdone.insert name a) hrest

theorem sorted_of_table {n : Node} {t : Table α} (h : Decoder.table dec d n = .ok t) :
    t.Sorted := by
  cases n with
  | object members close =>
    obtain ⟨e, -, hmembers⟩ := bind_eq_ok_iff.mp h
    obtain ⟨t', ht, hend⟩ := bind_eq_ok_iff.mp hmembers
    obtain ⟨-, -, hv⟩ := bind_eq_ok_iff.mp hend
    cases hv
    exact sorted_of_members .nil ht
  | _ => cases h

/-- Members in any order are read as the table that they make. -/
theorem Reads.table {n : ℕ} {write : α → Value} {pairs : List (String × α)}
    (h : ∀ p ∈ pairs, dec.Reads n (write p.2) p.2) :
    (Decoder.table dec).Reads (n + 1) (.object (pairs.map fun p => (p.1, write p.2)))
      (Table.ofList pairs) := by
  refine ⟨Value.membersAreExact_iff.mpr fun m hm => ?_, fun d hd => ?_⟩
  · obtain ⟨p, hp, rfl⟩ := List.mem_map.mp hm
    exact (h p hp).isExact
  · obtain ⟨d, rfl⟩ : ∃ k, d = k + 2 :=
      Nat.exists_eq_add_of_le' (Nat.lt_of_le_of_lt (Nat.le_add_left 1 n) hd)
    have hmembers (t : Table α) :
        (Value.memberNodes (pairs.map fun p => (p.1, write p.2))).foldlM
          (fun t m => do return Table.insert (← m.1) (← dec (d + 1) m.2) t) t =
        .ok (pairs.foldl (fun t p => t.insert p.1 p.2) t) := by
      induction pairs generalizing t with
      | nil => rfl
      | cons p pairs ih =>
        obtain ⟨hp, hpairs⟩ := List.forall_mem_cons.mp h
        have hfirst := hp.reads (d + 1) (Nat.lt_of_succ_lt_succ hd)
        rw [List.map_cons, Value.memberNodes, List.foldlM_cons, hfirst]
        exact ih hpairs _
    simp only [Decoder.table, Value.node, enter, bind, Except.bind] at hmembers ⊢
    rw [hmembers]
    rfl

end Table

end Decoder

end Json

end ContainerPorts
