import ContainerPorts.Context
import ContainerPorts.Proofs.Text.Cutting
import Mathlib.Data.Set.List

/-!
# The arguments of the runtime

Semicolons cut the arguments into segments. If each segment is a key and a value with the only
equals sign between them, the last segment with a key gives it its value, and nothing else is in
the table. A single segment of another form empties it. So a written list of pairs is read as its
table.
-/
namespace ContainerPorts

/-! ### The last of several -/

/-- Of the items that are written for a key, the last is written for this value. -/
def LastGives {α β : Type} (write : String → β → α) (items : List α) (key : String) (value : β) :
    Prop :=
  ∃ before after, items = before ++ write key value :: after ∧ ∀ v, write key v ∉ after

/-- A table has for each key what the last item gives it, and nothing else. -/
structure Table.Collects {α β : Type} (t : Table β) (write : String → β → α) (items : List α) :
    Prop where
  sorted : t.Sorted
  find?_eq_some_iff : ∀ key value, t.find? key = some value ↔ LastGives write items key value

namespace Table

variable {α : Type} {t : Table α} {key : String} {value : α}

/-- What is found for a key is the first value that it has. -/
theorem find?_eq_some_iff_append : find? key t = some value ↔
    ∃ before after, t = before ++ (key, value) :: after ∧ ∀ v, (key, v) ∉ before := by
  induction t with
  | nil => simp
  | cons p t ih =>
    obtain ⟨k, x⟩ := p
    by_cases hk : k = key
    · subst hk
      rw [find?, if_pos rfl, Option.some.injEq]
      constructor
      · rintro rfl
        exact ⟨[], t, rfl, fun _ => List.not_mem_nil⟩
      · rintro ⟨_ | ⟨q, before⟩, after, hsplit, hbefore⟩
        · exact congrArg Prod.snd (List.cons.inj hsplit).1
        · exact absurd ((List.cons.inj hsplit).1 ▸ List.mem_cons_self) (hbefore x)
    · rw [find?, if_neg hk, ih]
      constructor
      · rintro ⟨before, after, rfl, hbefore⟩
        refine ⟨(k, x) :: before, after, rfl, fun v hv => ?_⟩
        rcases List.mem_cons.mp hv with heq | hv
        · exact hk (congrArg Prod.fst heq).symm
        · exact hbefore v hv
      · rintro ⟨_ | ⟨q, before⟩, after, hsplit, hbefore⟩
        · exact absurd (congrArg Prod.fst (List.cons.inj hsplit).1) hk
        · exact ⟨before, after, (List.cons.inj hsplit).2,
            fun v hv => hbefore v (List.mem_cons_of_mem _ hv)⟩

/-- In the table of a list of pairs, a key has the value that the last of them gives it. -/
theorem find?_ofList_eq_some_iff {pairs : List (String × α)} :
    find? key (ofList pairs) = some value ↔ LastGives Prod.mk pairs key value := by
  rw [find?_ofList, find?_eq_some_iff_append]
  constructor
  · rintro ⟨before, after, hsplit, hbefore⟩
    refine ⟨after.reverse, before.reverse, ?_, fun v hv => hbefore v (List.mem_reverse.mp hv)⟩
    rw [← List.reverse_reverse pairs, hsplit]
    simp
  · rintro ⟨before, after, rfl, hafter⟩
    exact ⟨after.reverse, before.reverse, by simp, fun v hv => hafter v (List.mem_reverse.mp hv)⟩

theorem collects_ofList (pairs : List (String × α)) : (ofList pairs).Collects Prod.mk pairs :=
  ⟨.ofList pairs, fun _ _ => find?_ofList_eq_some_iff⟩

end Table

/-! ### Segments -/

/-- The segments of a text are what stands between its semicolons. -/
structure IsCut (args : String) (segments : List (List Char)) : Prop where
  joinAll_eq : Text.joinAll ';' segments = args.toList
  ne_nil : segments ≠ []
  semicolon_notMem : ∀ s ∈ segments, ';' ∉ s

/-- There is one way to cut a text. -/
theorem isCut_iff {args : String} {segments : List (List Char)} :
    IsCut args segments ↔ segments = Text.splitAll ';' args.toList := by
  constructor
  · rintro ⟨hjoin, hne, hclean⟩
    rw [← hjoin, Text.splitAll_joinAll hne hclean]
  · rintro rfl
    exact ⟨Text.joinAll_splitAll ';' _, Text.splitAll_ne_nil ';' _,
      fun _ => Text.notMem_of_mem_splitAll⟩

/-- A key and a value as a segment. -/
def argumentSegment (key value : String) : List Char := key.toList ++ '=' :: value.toList

/-- A written list of keys and values. -/
def argumentsText (pairs : List (String × String)) : String :=
  String.ofList (Text.joinAll ';' (pairs.map fun p => argumentSegment p.1 p.2))

variable {args key value : String} {s : List Char} {pairs : List (String × String)}

theorem count_argumentSegment : (argumentSegment key value).count '=' = 1 ↔
    '=' ∉ key.toList ∧ '=' ∉ value.toList := by
  rw [argumentSegment, List.count_append, List.count_cons_self, ← List.count_eq_zero,
    ← List.count_eq_zero]
  omega

/-- A segment with a single equals sign is that of one key and one value. -/
theorem argumentSegment_inj {key' value' : String} (h : (argumentSegment key value).count '=' = 1)
    (heq : argumentSegment key value = argumentSegment key' value') :
    (key, value) = (key', value') := by
  have hvalue := (count_argumentSegment.mp h).2
  have hvalue' := (count_argumentSegment.mp (heq ▸ h)).2
  obtain ⟨hkey, hvalue⟩ := Text.cut_inj hvalue hvalue' heq
  rw [String.toList_inj.mp hkey, String.toList_inj.mp hvalue]

theorem exists_argumentSegment (h : s.count '=' = 1) :
    ∃ key value, s = argumentSegment key value := by
  obtain ⟨before, after, rfl⟩ := List.append_of_mem (List.count_pos_iff.mp (h ▸ Nat.one_pos))
  exact ⟨String.ofList before, String.ofList after, by simp [argumentSegment]⟩

theorem readArgument?_eq_some_iff : readArgument? s = some (key, value) ↔
    s = argumentSegment key value ∧ s.count '=' = 1 := by
  constructor
  · intro h
    obtain ⟨⟨k, v⟩, hcut, h⟩ := Option.bind_eq_some_iff.mp h
    obtain ⟨⟨⟩, hguard, h⟩ := Option.bind_eq_some_iff.mp h
    have hv : '=' ∉ v := by simpa [guard] using hguard
    obtain ⟨rfl, rfl⟩ := Prod.mk.inj (Option.some.inj h)
    have hs : s = argumentSegment (String.ofList k) (String.ofList v) := by
      rw [Text.cutOnce_eq_some hcut, argumentSegment, String.toList_ofList, String.toList_ofList]
    refine ⟨hs, hs ▸ count_argumentSegment.mpr ?_⟩
    rw [String.toList_ofList, String.toList_ofList]
    exact ⟨Text.notMem_of_cutOnce hcut, hv⟩
  · rintro ⟨rfl, hcount⟩
    obtain ⟨hkey, hvalue⟩ := count_argumentSegment.mp hcount
    simp [readArgument?, argumentSegment, Text.cutOnce_append hkey, hvalue]

/-- All segments are read, or none is. -/
theorem mapM_readArgument?_eq_some_iff {segments : List (List Char)} :
    segments.mapM readArgument? = some pairs ↔
      segments = pairs.map (fun p => argumentSegment p.1 p.2) ∧
        ∀ s ∈ segments, s.count '=' = 1 := by
  induction segments generalizing pairs with
  | nil => cases pairs <;> simp
  | cons s segments ih =>
    rw [List.mapM_cons]
    constructor
    · intro h
      obtain ⟨⟨key, value⟩, hs, h⟩ := Option.bind_eq_some_iff.mp h
      obtain ⟨rest, hrest, h⟩ := Option.bind_eq_some_iff.mp h
      cases h
      obtain ⟨rfl, hcount⟩ := readArgument?_eq_some_iff.mp hs
      obtain ⟨rfl, hcounts⟩ := ih.mp hrest
      exact ⟨rfl, List.forall_mem_cons.mpr ⟨hcount, hcounts⟩⟩
    · rintro ⟨hsplit, hcounts⟩
      obtain ⟨⟨key, value⟩, rest, rfl, rfl, rfl⟩ := List.map_eq_cons_iff.mp hsplit.symm
      obtain ⟨hcount, hcounts⟩ := List.forall_mem_cons.mp hcounts
      rw [readArgument?_eq_some_iff.mpr ⟨rfl, hcount⟩, ih.mpr ⟨rfl, hcounts⟩]
      rfl

theorem readArguments_eq_nil {segments : List (List Char)} (hcut : IsCut args segments)
    (h : args = "" ∨ ∃ s ∈ segments, s.count '=' ≠ 1) : readArguments args = [] := by
  obtain rfl := isCut_iff.mp hcut
  cases hpairs : readArguments? args with
  | none => rw [readArguments, hpairs]
  | some pairs =>
    -- The empty text is one segment without an equals sign.
    have hcounts := (mapM_readArgument?_eq_some_iff.mp hpairs).2
    rcases h with rfl | ⟨s, hs, hcount⟩
    · exact absurd (hcounts [] (List.mem_singleton_self [])) (by decide)
    · exact absurd (hcounts s hs) hcount

theorem readArguments_eq_ofList {segments : List (List Char)} (hcut : IsCut args segments)
    (h : ∀ s ∈ segments, s.count '=' = 1) :
    ∃ pairs, segments = pairs.map (fun p => argumentSegment p.1 p.2) ∧
      readArguments args = Table.ofList pairs := by
  obtain ⟨pairs, rfl⟩ : segments ∈ Set.range (List.map fun p : String × String =>
      argumentSegment p.1 p.2) := by
    rw [Set.range_list_map]
    intro s hs
    obtain ⟨key, value, rfl⟩ := exists_argumentSegment (h s hs)
    exact ⟨(key, value), rfl⟩
  refine ⟨pairs, rfl, ?_⟩
  have hread := mapM_readArgument?_eq_some_iff.mpr ⟨rfl, h⟩
  rw [isCut_iff.mp hcut] at hread
  rw [readArguments, readArguments?, hread]

/-- A table has of the segments of pairs what it has of the pairs. -/
theorem Table.Collects.segments {t : Table String} (ht : t.Collects Prod.mk pairs)
    (h : ∀ p ∈ pairs, (argumentSegment p.1 p.2).count '=' = 1) :
    t.Collects argumentSegment (pairs.map fun p => argumentSegment p.1 p.2) := by
  refine ⟨ht.sorted, fun key value => (ht.find?_eq_some_iff key value).trans ?_⟩
  constructor
  · rintro ⟨before, after, rfl, hafter⟩
    refine ⟨_, _, List.map_append.trans (by rw [List.map_cons]), fun v hv => ?_⟩
    obtain ⟨p, hp, hsegment⟩ := List.mem_map.mp hv
    have hmem := List.mem_append_right before (List.mem_cons_of_mem (key, value) hp)
    obtain rfl : p = (key, v) := argumentSegment_inj (h p hmem) hsegment
    exact hafter v hp
  · rintro ⟨before, after, hsplit, hafter⟩
    obtain ⟨front, back, rfl, -, hback⟩ := List.map_eq_append_iff.mp hsplit
    obtain ⟨p, rest, rfl, hp, rfl⟩ := List.map_eq_cons_iff.mp hback
    obtain rfl : p = (key, value) :=
      argumentSegment_inj (h p (List.mem_append_right _ List.mem_cons_self)) hp
    exact ⟨front, rest, rfl, fun v hv => hafter v (List.mem_map_of_mem hv)⟩

/-- Keys and values without the two marks. -/
def AreUnmarked (pairs : List (String × String)) : Prop :=
  ∀ p ∈ pairs, ∀ c ∈ [';', '='], c ∉ p.1.toList ∧ c ∉ p.2.toList

instance (pairs : List (String × String)) : Decidable (AreUnmarked pairs) :=
  @List.decidableBAll _ _ (fun p : String × String =>
    List.decidableBAll (fun c : Char => c ∉ p.1.toList ∧ c ∉ p.2.toList) [';', '=']) pairs

theorem AreUnmarked.count_eq_one (h : AreUnmarked pairs) :
    ∀ p ∈ pairs, (argumentSegment p.1 p.2).count '=' = 1 :=
  fun p hp => count_argumentSegment.mpr (h p hp '=' (by simp))

theorem AreUnmarked.isCut (h : AreUnmarked pairs) (hne : pairs ≠ []) :
    IsCut (argumentsText pairs) (pairs.map fun p => argumentSegment p.1 p.2) := by
  refine ⟨(String.toList_ofList ..).symm, by simpa using hne, fun s hs => ?_⟩
  obtain ⟨p, hp, rfl⟩ := List.mem_map.mp hs
  obtain ⟨hkey, hvalue⟩ := h p hp ';' (by simp)
  simp [argumentSegment, hkey, hvalue]

theorem readArguments_argumentsText (h : AreUnmarked pairs) :
    readArguments (argumentsText pairs) = Table.ofList pairs := by
  rcases eq_or_ne pairs [] with rfl | hne
  · rfl
  · have hread := mapM_readArgument?_eq_some_iff.mpr
      ⟨rfl, List.forall_mem_map.mpr h.count_eq_one⟩
    rw [isCut_iff.mp (h.isCut hne)] at hread
    rw [readArguments, readArguments?, hread]

/-- Arguments that are empty, or have a segment without exactly one equals sign, are read as the
empty table. Others are read as the table in which each key has the value of the last segment with
this key. So pairs that are written as arguments are read as their table, where later pairs win. -/
theorem readArguments_decided :
    (∀ args, ∃ segments, (∀ other, IsCut args other ↔ other = segments) ∧
      (args = "" ∨ (∃ s ∈ segments, s.count '=' ≠ 1) → readArguments args = []) ∧
      ((∀ s ∈ segments, s.count '=' = 1) →
        (readArguments args).Collects argumentSegment segments)) ∧
    ∀ pairs, AreUnmarked pairs → (readArguments (argumentsText pairs)).Collects Prod.mk pairs := by
  refine ⟨fun args => ?_, fun pairs hpairs => ?_⟩
  · have hcut : IsCut args (Text.splitAll ';' args.toList) := isCut_iff.mpr rfl
    refine ⟨_, fun other => isCut_iff, readArguments_eq_nil hcut, fun hcounts => ?_⟩
    obtain ⟨pairs, hsegments, hread⟩ := readArguments_eq_ofList hcut hcounts
    rw [hsegments, List.forall_mem_map] at hcounts
    rw [hread, hsegments]
    exact (Table.collects_ofList pairs).segments hcounts
  · rw [readArguments_argumentsText hpairs]
    exact Table.collects_ofList pairs

/-- A key that stands twice, an empty value, and a semicolon behind the last value. -/
theorem readArguments_decided_repeated :
    let pairs := [("K8S_POD_NAME", "web"), ("IgnoreUnknown", ""), ("K8S_POD_NAME", "db")]
    argumentsText pairs = "K8S_POD_NAME=web;IgnoreUnknown=;K8S_POD_NAME=db" ∧
    AreUnmarked pairs ∧ (readArguments (argumentsText pairs)).Collects Prod.mk pairs ∧
    (readArguments (argumentsText pairs)).find? "K8S_POD_NAME" = some "db" ∧
    (readArguments "=;a=b").Collects argumentSegment [['='], ['a', '=', 'b']] ∧
    readArguments "K8S_POD_NAME=web;" = [] := by
  intro pairs
  obtain ⟨hread, hwritten⟩ := readArguments_decided
  have hpairs : AreUnmarked pairs := by decide +kernel
  have hcollects := hwritten pairs hpairs
  refine ⟨by decide +kernel, hpairs, hcollects, ?_, ?_, ?_⟩
  · exact (hcollects.find?_eq_some_iff _ _).mpr
      ⟨[("K8S_POD_NAME", "web"), ("IgnoreUnknown", "")], [], rfl, fun _ => List.not_mem_nil⟩
  · obtain ⟨segments, hcut, -, hgiven⟩ := hread "=;a=b"
    obtain rfl := (hcut _).mp (isCut_iff.mpr rfl)
    exact hgiven (by decide +kernel)
  · obtain ⟨segments, hcut, hempty, -⟩ := hread "K8S_POD_NAME=web;"
    obtain rfl := (hcut _).mp (isCut_iff.mpr rfl)
    exact hempty (.inr ⟨[], by decide +kernel, by decide⟩)

end ContainerPorts
