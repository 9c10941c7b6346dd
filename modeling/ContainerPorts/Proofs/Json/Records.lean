import ContainerPorts.Json.Decode
import ContainerPorts.Proofs.Json.Layout

/-!
# Records are read back

A record is written as an object that may leave members out. It is read back if every
member that is there is read as its field, and every field that is not there keeps the
value that it starts with. This is shown once for all records, so that a document only
has to say which value each of its fields has.
-/
namespace ContainerPorts.Json

variable {α β ρ : Type} {n : ℕ} {v : Value} {a : α} {dec : Decoder α}

theorem bind_eq_ok_iff {x : Except Fault α} {f : α → Except Fault β} {b : β} :
    x >>= f = .ok b ↔ ∃ a, x = .ok a ∧ f a = .ok b := by
  cases x with
  | error e => simp [bind, Except.bind]
  | ok a => simp [bind, Except.bind]

theorem Field.find?_of_mem {fields : List (Field ρ)} {f : Field ρ}
    (hnames : (fields.map Field.name).Nodup) (hf : f ∈ fields) :
    fields.find? (fun g => g.name = f.name) = some f := by
  induction fields with
  | nil => cases hf
  | cons g fields ih =>
    obtain ⟨hg, hnames⟩ := List.nodup_cons.mp hnames
    rcases List.mem_cons.mp hf with rfl | hf
    · exact List.find?_cons_of_pos (by simp)
    · have hne : g.name ≠ f.name := fun h => hg (h ▸ List.mem_map_of_mem hf)
      rw [List.find?_cons_of_neg (by simpa using hne), ih hnames hf]

theorem Field.eq_of_name_eq {fields : List (Field ρ)} {f g : Field ρ}
    (hnames : (fields.map Field.name).Nodup) (hf : f ∈ fields) (hg : g ∈ fields)
    (h : f.name = g.name) : f = g := by
  have hfind := Field.find?_of_mem hnames hf
  rw [h, Field.find?_of_mem hnames hg] at hfind
  exact (Option.some.inj hfind).symm

namespace Decoder

/-- What is written for `v`, on one line or over several, is read as `a`. -/
def ReadsBack (dec : Decoder α) (v : Value) (a : α) : Prop :=
  dec.ofBytes (Utf8.encode v.text) = .ok a ∧ dec.ofBytes (Utf8.encode v.lines) = .ok a

/-- A text is read as the value that stands in it, if nothing follows it. -/
theorem ofBytes_eq_ok_iff {s : Bytes} :
    dec.ofBytes s = .ok a ↔
      dec depthLimit (Document.ofBytes s).root = .ok a ∧ (Document.ofBytes s).hasMore = false := by
  rw [ofBytes, document, bind_eq_ok_iff]
  constructor
  · rintro ⟨b, hroot, hend⟩
    split at hend
    · cases hend
    · rename_i hmore
      cases hend
      exact ⟨hroot, by simpa using hmore⟩
  · rintro ⟨hroot, hmore⟩
    exact ⟨a, hroot, by rw [hmore]; rfl⟩

/-- What is read from a text is read from the value that stands in it. -/
theorem read_root {s : Bytes} (h : dec.ofBytes s = .ok a) :
    dec depthLimit (Document.ofBytes s).root = .ok a := (ofBytes_eq_ok_iff.mp h).1

theorem map_eq_ok_iff {f : α → β} {d : ℕ} {node : Node} {b : β} :
    dec.map f d node = .ok b ↔ ∃ a, dec d node = .ok a ∧ f a = b := by
  rw [map]
  cases dec d node with
  | error e => simp [Except.map]
  | ok a => simp [Except.map]

/-- The value `v`, in which at most `n` containers are nested, is read as `a`. -/
structure Reads (dec : Decoder α) (n : ℕ) (v : Value) (a : α) : Prop where
  isExact : v.isExact = true
  reads : ∀ d, n < d → dec d v.node = .ok a

namespace Reads

theorem mono {m : ℕ} (h : dec.Reads n v a) (hm : n ≤ m) : dec.Reads m v a :=
  ⟨h.isExact, fun d hd => h.reads d (Nat.lt_of_le_of_lt hm hd)⟩

theorem readsBack (h : dec.Reads n v a) (hn : n < depthLimit) : dec.ReadsBack v a := by
  have hroot : dec.document ⟨v.node, false⟩ = .ok a := by
    simp [document, h.reads depthLimit hn, bind, Except.bind, pure, Except.pure]
  rw [ReadsBack, ofBytes, ofBytes, Value.ofBytes_text h.isExact, Value.ofBytes_lines h.isExact]
  exact ⟨hroot, hroot⟩

theorem map (h : dec.Reads n v a) (f : α → β) : (dec.map f).Reads n v (f a) :=
  ⟨h.isExact, fun d hd => by rw [Decoder.map, h.reads d hd]; rfl⟩

theorem filterMap {f : α → Option β} {b : β} (h : dec.Reads n v a) (hf : f a = some b) :
    (dec.filterMap f).Reads n v b :=
  ⟨h.isExact, fun d hd => by
    simp [Decoder.filterMap, h.reads d hd, bind, Except.bind, hf]⟩

theorem string (s : String) : Decoder.string.Reads 0 (.string s) s :=
  ⟨rfl, fun _ _ => rfl⟩

theorem bool (b : Bool) : Decoder.bool.Reads 0 (.bool b) b :=
  ⟨rfl, fun _ _ => rfl⟩

theorem natural {bound k : ℕ} (hk : k ≤ bound) (hbound : bound < Nat.pow 2 64) :
    (Decoder.natural bound).Reads 0 (.nat k) k := by
  have hinteger : Numeral.integer? ⟨false, Nat.toDigits 10 k, [], none⟩ = some (.ofNat k) := by
    have hdigits : Nat.ofDigitChars 10 (Nat.toDigits 10 k) 0 = k :=
      Nat.ofDigitChars_toDigits (by decide) (by decide)
    have hfits : k < Nat.pow 2 64 := Nat.lt_of_le_of_lt hk hbound
    simp [Numeral.integer?, hdigits, hfits]
  have hnode : (Value.nat k).node = .number ⟨false, Nat.toDigits 10 k, [], none⟩ := by
    simp [Value.nat, Value.node]
  refine ⟨rfl, fun d _ => ?_⟩
  simp [hnode, Decoder.natural, hinteger, hk]

theorem option (h : dec.Reads n v a) (hv : v ≠ .null) :
    (Decoder.option dec).Reads n v (some a) := by
  have hnode : v.node ≠ .null := by
    cases v <;> first | exact absurd rfl hv | exact Node.noConfusion
  refine ⟨h.isExact, fun d hd => ?_⟩
  rw [Decoder.option]
  · rw [h.reads d hd]
    rfl
  · exact hnode

theorem list {write : α → Value} {xs : List α} (h : ∀ x ∈ xs, dec.Reads n (write x) x) :
    (Decoder.list dec).Reads (n + 1) (.array (xs.map write)) xs := by
  have hexact : Value.areExact (xs.map write) = true := by
    induction xs with
    | nil => rfl
    | cons x xs ih =>
      obtain ⟨hx, hxs⟩ := List.forall_mem_cons.mp h
      exact Bool.and_eq_true_iff.mpr ⟨hx.isExact, ih hxs⟩
  have hitems : ∀ d, n < d → (Value.nodes (xs.map write)).mapM (dec d) = .ok xs := by
    intro d hd
    induction xs with
    | nil => rfl
    | cons x xs ih =>
      obtain ⟨hx, hxs⟩ := List.forall_mem_cons.mp h
      have hrest := ih hxs (Bool.and_eq_true_iff.mp hexact).2
      simp [Value.nodes, hx.reads d hd, hrest, bind, Except.bind, pure, Except.pure]
  refine ⟨hexact, fun d hd => ?_⟩
  obtain ⟨d, rfl⟩ : ∃ e, d = e + 2 := ⟨d - 2, by omega⟩
  simp [Value.node, Decoder.list, enter, hitems (d + 1) (by omega), bind, Except.bind, pure,
    Except.pure, Close.finish, Close.fault?]

theorem strings (ss : List String) : (Decoder.list Decoder.string).Reads 1 (.strings ss) ss :=
  .list fun s _ => .string s

end Reads

/-! ### Written records -/

/-- The members `ms`, in the order of the fields that are left to read, turn the record `r`
into the last one given. -/
inductive Fills (n : ℕ) : List (Field ρ) → List (String × Value) → ρ → ρ → Prop
  | done (r : ρ) : Fills n [] [] r r
  | given {f fs v ms r r' update} : f.read.Reads n v update → Fills n fs ms (update r) r' →
    Fills n (f :: fs) ((f.name, v) :: ms) r r'
  | omitted {f fs ms r r'} : f.isRequired = false → Fills n fs ms r r' → Fills n (f :: fs) ms r r'

namespace Fills

variable {name : String} {set : α → ρ → ρ} {fields fs : List (Field ρ)}
  {ms : List (String × Value)} {r r' : ρ}

theorem required (h : dec.Reads n v a) (hrest : Fills n fs ms (set a r) r') :
    Fills n (.required name dec set :: fs) ((name, v) :: ms) r r' :=
  .given (f := .required name dec set) (h.map set) hrest

theorem defaulted (h : dec.Reads n v a) (hrest : Fills n fs ms (set a r) r') :
    Fills n (.defaulted name dec set :: fs) ((name, v) :: ms) r r' :=
  .given (f := .defaulted name dec set) (h.map set) hrest

/-- A member may be left out where its value is what the record has anyway. -/
theorem present {o : Option Value} (a : α) (hread : ∀ v ∈ o, dec.Reads n v a)
    (hleft : o = none → set a r = r) (hrest : Fills n fs ms (set a r) r') :
    Fills n (.defaulted name dec set :: fs) (Value.present name o ++ ms) r r' := by
  cases o with
  | some v => exact .defaulted (hread v rfl) hrest
  | none => exact .omitted rfl (hleft rfl ▸ hrest)

theorem isExact (h : Fills n fs ms r r') : Value.membersAreExact ms = true := by
  induction h with
  | done => rfl
  | given hread _ ih => exact Bool.and_eq_true_iff.mpr ⟨hread.isExact, ih⟩
  | omitted _ _ ih => exact ih

/-- The fields `before` those that are left are the ones that may have been seen. -/
theorem foldlM_member {d : ℕ} (hd : n < d) (hnames : (fields.map Field.name).Nodup)
    (h : Fills n fs ms r r') {before : List (Field ρ)} (hfields : fields = before ++ fs)
    {seen : List String} (hseen : ∀ name ∈ seen, name ∈ before.map Field.name) :
    ∃ seen', (Value.memberNodes ms).foldlM (member fields d) (r, seen) = .ok (r', seen') ∧
      seen ⊆ seen' ∧ ∀ f ∈ fs, f.isRequired = true → f.name ∈ seen' := by
  induction h generalizing before seen with
  | done r => exact ⟨seen, rfl, List.Subset.refl seen, List.forall_mem_nil _⟩
  | @given f fs v ms r r' update hread _ ih =>
    have hmem : f ∈ fields := hfields ▸ List.mem_append_right before List.mem_cons_self
    have hnew : f.name ∉ seen := fun hin => by
      rw [hfields, List.map_append] at hnames
      exact (List.nodup_append.mp hnames).2.2 _ (hseen _ hin) _ List.mem_cons_self rfl
    have hmember : member fields d (r, seen) (.ok f.name, v.node) =
        .ok (update r, f.name :: seen) := by
      simp [member, Field.find?_of_mem hnames hmem, hnew, hread.reads d hd, bind, Except.bind,
        pure, Except.pure]
    have hfields' : fields = (before ++ [f]) ++ fs := by simpa using hfields
    have hseen' : ∀ name ∈ f.name :: seen, name ∈ (before ++ [f]).map Field.name := by
      rw [List.map_append, List.forall_mem_cons]
      exact ⟨List.mem_append_right _ List.mem_cons_self,
        fun name hname => List.mem_append_left _ (hseen name hname)⟩
    obtain ⟨seen', hfold, hsub, hrequired⟩ := ih hfields' hseen'
    refine ⟨seen', ?_, fun name hname => hsub (List.mem_cons_of_mem _ hname), ?_⟩
    · rw [Value.memberNodes, List.foldlM_cons, hmember]
      exact hfold
    · exact List.forall_mem_cons.mpr ⟨fun _ => hsub List.mem_cons_self, hrequired⟩
  | @omitted f fs ms r r' hf _ ih =>
    have hfields' : fields = (before ++ [f]) ++ fs := by simpa using hfields
    have hseen' : ∀ name ∈ seen, name ∈ (before ++ [f]).map Field.name := fun name hname => by
      rw [List.map_append]
      exact List.mem_append_left _ (hseen name hname)
    obtain ⟨seen', hfold, hsub, hrequired⟩ := ih hfields' hseen'
    refine ⟨seen', hfold, hsub, List.forall_mem_cons.mpr ⟨fun hreq => ?_, hrequired⟩⟩
    rw [hf] at hreq
    cases hreq

/-- A record is read back from its members, whatever is left out of them. -/
theorem record {start : ρ} (hnames : (fields.map Field.name).Nodup)
    (h : Fills n fields ms start r) : (record start fields).Reads (n + 1) (.object ms) r := by
  refine ⟨h.isExact, fun d hd => ?_⟩
  obtain ⟨d, rfl⟩ : ∃ e, d = e + 2 := ⟨d - 2, by omega⟩
  obtain ⟨seen, hfold, -, hrequired⟩ := h.foldlM_member (d := d + 1) (by omega) hnames
    (List.nil_append fields).symm (List.forall_mem_nil _)
  have hall : fields.all (fun f => !f.isRequired || f.name ∈ seen) = true := by
    refine List.all_eq_true.mpr fun f hf => ?_
    cases hreq : f.isRequired with
    | false => rfl
    | true => simpa using hrequired f hf hreq
  simp only [Value.node, Decoder.record, enter, bind, Except.bind, pure, Except.pure, hfold,
    Close.finish, Close.fault?, hall, if_true]

end Fills

end Decoder

end ContainerPorts.Json
