import ContainerPorts.Proofs.Json.Fields

/-!
# Readers that know fewer fields

A reader of records skips the members that it does not know. Whatever can be decoded can also be
skipped, so a reader that knows some of the fields of another one accepts every object that the
other one accepts, and finds the same in these fields.
-/
namespace ContainerPorts.Json

variable {α ρ σ : Type}

theorem Close.eq_closed_of_finish {close : Close} (h : close.finish = .ok ()) :
    close = .closed := by
  cases close with
  | closed => rfl
  | _ => cases h

/-! ### Texts that are objects -/

/-- What was scanned is an object, whether it is whole or breaks off. -/
def Scan.IsObject : Scan Node → Prop
  | .whole v _ => ∃ members close, v = .object members close
  | .cut v _ => ∃ members close, v = .object members close

theorem isObject_scanMembers (fuel : ℕ) :
    (∀ done s, (scanMembers fuel done s).IsObject) ∧
      ∀ comma done s, (scanMember fuel comma done s).IsObject := by
  induction fuel with
  | zero => exact ⟨fun done s => ⟨_, _, rfl⟩, fun comma done s => ⟨_, _, rfl⟩⟩
  | succ fuel ih =>
    refine ⟨fun done s => ?_, fun comma done s => ?_⟩
    · rw [scanMembers]
      split
      · exact ⟨_, _, rfl⟩
      · split_ifs
        · exact ⟨_, _, rfl⟩
        · exact ih.2 _ _ _
        · exact ⟨_, _, rfl⟩
        · split
          · exact ⟨_, _, rfl⟩
          · exact ih.2 _ _ _
    · rw [scanMember.eq_def]
      dsimp only
      split
      · split
        · exact ⟨_, _, rfl⟩
        · split
          · exact ⟨_, _, rfl⟩
          · split_ifs
            · split
              · exact ih.1 _ _
              · exact ⟨_, _, rfl⟩
            · exact ⟨_, _, rfl⟩
      · split <;> exact ⟨_, _, rfl⟩

/-- A text that begins with a brace is an object, as far as it goes. -/
theorem exists_root_eq_object {s : Bytes} (h : (skipBlank s).head? = some 0x7B) :
    ∃ members close, (Document.ofBytes s).root = .object members close := by
  obtain ⟨rest, hs⟩ : ∃ rest, skipBlank s = 0x7B :: rest := by
    cases hs : skipBlank s with
    | nil => simp [hs] at h
    | cons b rest =>
      rw [hs] at h
      cases h
      exact ⟨rest, rfl⟩
  have hscan : scanValue (3 * s.length + 3) s = scanMembers (3 * s.length + 2) [] rest := by
    simp [scanValue, hs]
  have hobject := (isObject_scanMembers (3 * s.length + 2)).1 [] rest
  rw [Document.ofBytes, hscan]
  generalize scanMembers (3 * s.length + 2) [] rest = scan at hobject ⊢
  cases scan <;> exact hobject

namespace Decoder

/-! ### What is decoded can be skipped -/

/-- Whatever is decoded can be skipped. -/
def Skippable (dec : Decoder α) : Prop := ∀ d n a, dec d n = .ok a → n.skip = .ok ()

theorem skippable_string : string.Skippable := by
  intro d n s h
  cases n with
  | string k => rfl
  | _ => cases h

theorem skippable_bool : bool.Skippable := by
  intro d n b h
  cases n with
  | bool b => rfl
  | _ => cases h

theorem Skippable.option {dec : Decoder α} (hdec : dec.Skippable) : (option dec).Skippable := by
  intro d n o h
  cases n with
  | null => rfl
  | _ =>
    obtain ⟨a, ha, -⟩ : ∃ a, dec d _ = .ok a ∧ some a = o := map_eq_ok_iff.mp h
    exact hdec d _ a ha

/-- What was read up to its end can be skipped. -/
theorem skip_of_finish {close : Close} {x : Except Fault α} {a : α}
    (h : (do let v ← x; close.finish; return v) = .ok a) :
    (∀ items, (Node.array items close).skip = .ok ()) ∧
      ∀ members, (Node.object members close).skip = .ok () := by
  obtain ⟨v, -, hend⟩ := bind_eq_ok_iff.mp h
  obtain ⟨_, hclose, -⟩ := bind_eq_ok_iff.mp hend
  obtain rfl := Close.eq_closed_of_finish hclose
  exact ⟨fun _ => rfl, fun _ => rfl⟩

theorem skippable_list (dec : Decoder α) : (list dec).Skippable := by
  intro d n as h
  cases n with
  | array items close =>
    obtain ⟨e, -, hitems⟩ := bind_eq_ok_iff.mp h
    exact (skip_of_finish hitems).1 items
  | _ => cases h

theorem skippable_table (dec : Decoder α) : (table dec).Skippable := by
  intro d n t h
  cases n with
  | object members close =>
    obtain ⟨e, -, hmembers⟩ := bind_eq_ok_iff.mp h
    exact (skip_of_finish hmembers).2 members
  | _ => cases h

theorem skippable_valueTable : valueTable.Skippable := by
  intro d n t h
  cases n with
  | object members close =>
    obtain ⟨e, -, hmembers⟩ := bind_eq_ok_iff.mp h
    exact (skip_of_finish hmembers).2 members
  | _ => cases h

/-! ### A view of a record -/

/-- What a reader of the fields `narrow` does with a value that is read as the field `f` elsewhere:
it reads the value too, with the same effect on the view, or it skips the value, which has no effect
on the view. -/
inductive ReadsOrSkips (narrow : List (Field σ)) (view : ρ → σ) (f : Field ρ) : Prop
  | reads {g : Field σ} (known : narrow.find? (fun g => g.name = f.name) = some g)
    (alike : ∀ d n update, f.read d n = .ok update →
      ∃ update', g.read d n = .ok update' ∧ ∀ r, view (update r) = update' (view r))
  | skips (unknown : narrow.find? (fun g => g.name = f.name) = none)
    (unseen : ∀ d n update, f.read d n = .ok update →
      n.skip = .ok () ∧ ∀ r, view (update r) = view r)

theorem ReadsOrSkips.skipped {narrow : List (Field σ)} {view : ρ → σ} {name : String}
    {dec : Decoder α} {set : α → ρ → ρ}
    (unknown : narrow.find? (fun g => g.name = name) = none) (hdec : dec.Skippable)
    (keeps : ∀ a r, view (set a r) = view r) :
    ReadsOrSkips narrow view (.defaulted name dec set) := by
  refine .skips unknown fun d n update h => ?_
  obtain ⟨a, ha, rfl⟩ := map_eq_ok_iff.mp h
  exact ⟨hdec d n a ha, keeps a⟩

/-- A reader of the fields `narrow` knows no other fields than a reader of the fields `wide`, and
what it makes of a record is a view of what the other one makes of it. -/
structure Narrows (wide : List (Field ρ)) (narrow : List (Field σ)) (view : ρ → σ) : Prop where
  readsOrSkips : ∀ f ∈ wide, ReadsOrSkips narrow view f
  known : ∀ g ∈ narrow, ∃ f ∈ wide, f.name = g.name ∧ (g.isRequired = true → f.isRequired = true)

/-- The names of fields among those that were read. -/
def known (narrow : List (Field σ)) (seen : List String) : List String :=
  seen.filter fun name => (narrow.find? fun g => g.name = name).isSome

namespace Narrows

variable {wide : List (Field ρ)} {narrow : List (Field σ)} {view : ρ → σ} {d : ℕ} {r r' : ρ}
  {seen seen' : List String}

theorem mem_known {g : Field σ} (hg : g ∈ narrow) (h : g.name ∈ seen) :
    g.name ∈ Decoder.known narrow seen :=
  List.mem_filter.mpr ⟨h, List.find?_isSome.mpr ⟨g, hg, by simp⟩⟩

theorem member (h : Narrows wide narrow view) {m : Key × Node}
    (hm : member wide d (r, seen) m = .ok (r', seen')) :
    Decoder.member narrow d (view r, Decoder.known narrow seen) m =
      .ok (view r', Decoder.known narrow seen') := by
  obtain ⟨k, n⟩ := m
  obtain ⟨name, rfl, ⟨rfl, rfl, hskip, hnone⟩ | ⟨f, hf, rfl, hnew, rfl, update, hread, rfl⟩⟩ :=
    member_eq_ok hm
  · -- a name that the wide reader skips is unknown to both
    have hunknown : narrow.find? (fun g => g.name = name) = none := by
      rw [List.find?_eq_none]
      intro g hg hname
      obtain ⟨f, hf, hfg, -⟩ := h.known g hg
      exact hnone f hf (hfg.trans (by simpa using hname))
    simp [Decoder.member, bind, Except.bind, pure, Except.pure, hunknown, hskip]
  · cases h.readsOrSkips f hf with
    | reads known alike =>
      obtain ⟨update', hread', hview⟩ := alike d n update hread
      have hnew' : f.name ∉ Decoder.known narrow seen := fun hin =>
        hnew (List.mem_filter.mp hin).1
      have hkept : Decoder.known narrow (f.name :: seen) =
          f.name :: Decoder.known narrow seen :=
        List.filter_cons_of_pos (by rw [known]; rfl)
      simp [Decoder.member, bind, Except.bind, pure, Except.pure, known, hnew', hread', hview,
        hkept]
    | skips unknown unseen =>
      obtain ⟨hskip, hview⟩ := unseen d n update hread
      have hkept : Decoder.known narrow (f.name :: seen) = Decoder.known narrow seen :=
        List.filter_cons_of_neg (by rw [unknown]; exact Bool.false_ne_true)
      simp [Decoder.member, bind, Except.bind, pure, Except.pure, unknown, hskip, hview, hkept]

theorem foldlM_member (h : Narrows wide narrow view) {members : List (Key × Node)}
    (hm : members.foldlM (Decoder.member wide d) (r, seen) = .ok (r', seen')) :
    members.foldlM (Decoder.member narrow d) (view r, Decoder.known narrow seen) =
      .ok (view r', Decoder.known narrow seen') := by
  induction members generalizing r seen with
  | nil =>
    cases hm
    rfl
  | cons m members ih =>
    obtain ⟨⟨s, seen₁⟩, hfirst, hrest⟩ := bind_eq_ok_iff.mp hm
    exact bind_eq_ok_iff.mpr ⟨_, h.member hfirst, ih hrest⟩

/-- An object that is read with all fields is read with some of them. -/
theorem record (h : Narrows wide narrow view) {start : ρ} {members : List (Key × Node)}
    {close : Close} (hr : record start wide d (.object members close) = .ok r) :
    Decoder.record (view start) narrow d (.object members close) = .ok (view r) := by
  obtain ⟨e, he, hmembers⟩ := bind_eq_ok_iff.mp hr
  obtain ⟨⟨r', seen⟩, hfold, hclose⟩ := bind_eq_ok_iff.mp hmembers
  obtain ⟨_, hfinish, hend⟩ := bind_eq_ok_iff.mp hclose
  split at hend
  · rename_i hall
    cases hend
    have hall' : narrow.all (fun g => !g.isRequired || g.name ∈ Decoder.known narrow seen) := by
      refine List.all_eq_true.mpr fun g hg => ?_
      cases hreq : g.isRequired with
      | false => rfl
      | true =>
        obtain ⟨f, hf, hname, hrequired⟩ := h.known g hg
        have hseen := List.all_eq_true.mp hall f hf
        rw [hrequired hreq, hname] at hseen
        have hmem : g.name ∈ seen := by simpa using hseen
        simpa using mem_known hg hmem
    refine bind_eq_ok_iff.mpr ⟨e, he, bind_eq_ok_iff.mpr ⟨_, h.foldlM_member hfold,
      bind_eq_ok_iff.mpr ⟨(), hfinish, ?_⟩⟩⟩
    rw [if_pos hall']
    rfl
  · cases hend

end Narrows

end Decoder

end ContainerPorts.Json
