import ContainerPorts.Proofs.Text.Cutting
import ContainerPorts.Proofs.Text.Percent
import ContainerPorts.Url.Reader
import Mathlib.Algebra.GroupWithZero.Nat
import Mathlib.Algebra.Order.BigOperators.Group.List
import Mathlib.Algebra.Order.Group.Nat
import Mathlib.Data.List.DropRight

/-!
# What becomes of a relative path

A path that is joined to the root of a web URL loses what does not count, is cut at its slashes, and
is walked along. Each of these steps leaves something out or changes nothing, and so does the
decoding of what is kept. So a path whose segments stand for as many bytes as it has is taken as it
was written.
-/
namespace ContainerPorts

namespace Url

open Utf8

/-- The number of bytes of some parts, with one more for each. -/
def extent (parts : List (List Char)) : ℕ := (parts.map fun p => (bytes p).length + 1).sum

/-- The number of bytes that some parts stand for, with one more for each. -/
def weight (parts : List (List Char)) : ℕ :=
  (parts.map fun p => (Percent.decode (bytes p)).length + 1).sum

theorem extent_splitAll {sep : Char} (hsep : (String.utf8EncodeChar sep).length = 1)
    (cs : List Char) : extent (Text.splitAll sep cs) = (bytes cs).length + 1 := by
  induction cs with
  | nil => rfl
  | cons c cs ih =>
    rw [Text.splitAll, bytes_cons, List.length_append]
    split
    · rename_i hc
      subst hc
      simp only [extent, List.map_cons, List.sum_cons] at ih ⊢
      rw [ih, hsep]
      simp only [bytes_nil, List.length_nil]
      omega
    · cases hparts : Text.splitAll sep cs with
      | nil => exact absurd hparts (Text.splitAll_ne_nil sep cs)
      | cons p ps =>
        rw [hparts] at ih
        simp only [extent, List.map_cons, List.sum_cons, bytes_cons, List.length_append] at ih ⊢
        omega

theorem length_bytes_slashes (k : SchemeKind) (cs : List Char) :
    (bytes (cs.map fun c => if isSlash k c then '/' else c)).length = (bytes cs).length := by
  induction cs with
  | nil => rfl
  | cons c cs ih =>
    have hc : (String.utf8EncodeChar (if isSlash k c then '/' else c)).length =
        (String.utf8EncodeChar c).length := by
      split
      · rename_i hslash
        simp only [isSlash, Bool.or_eq_true, decide_eq_true_eq, Bool.and_eq_true] at hslash
        rcases hslash with rfl | ⟨-, rfl⟩ <;> rfl
      · rfl
    rw [List.map_cons, bytes_cons, bytes_cons, List.length_append, List.length_append, ih, hc]

theorem extent_slashParts (k : SchemeKind) (cs : List Char) :
    extent (slashParts k cs) = (bytes cs).length + 1 := by
  rw [slashParts, extent_splitAll rfl, length_bytes_slashes]

theorem slashParts_append (k : SchemeKind) (cs ds : List Char) :
    slashParts k (cs ++ '/' :: ds) = slashParts k cs ++ slashParts k ds := by
  have hslash : (if isSlash k '/' then '/' else '/') = '/' := ite_self _
  rw [slashParts, List.map_append, List.map_cons, hslash, Text.splitAll_append_cons]
  rfl

theorem slashParts_eq_singleton {k : SchemeKind} {cs : List Char}
    (h : ∀ c ∈ cs, isSlash k c = false) : slashParts k cs = [cs] := by
  have hsame : (cs.map fun c => if isSlash k c then '/' else c) = cs :=
    (List.map_congr_left fun c hc => by rw [h c hc]; rfl).trans (List.map_id cs)
  rw [slashParts, hsame, Text.splitAll_of_notMem]
  exact fun hmem => Bool.noConfusion (h '/' hmem)

theorem isSlash_of_slashParts_length {k : SchemeKind} {cs : List Char}
    (h : (slashParts k cs).length ≤ 1) {c : Char} (hc : c ∈ cs) : isSlash k c = false := by
  refine Bool.eq_false_iff.mpr fun hslash => Text.notMem_of_splitAll_length h ?_
  exact List.mem_map.mpr ⟨c, hc, if_pos hslash⟩

/-- The characters of a path that stay as they are. -/
def keepInPath : Char → Bool := keepExcept pathEncoded

theorem keepInPath_of_isHexDigit {c : Char} (h : Percent.isHexDigit c = true) :
    keepInPath c = true := by
  have hsmall : ∀ n : Fin 128, Percent.isHexDigit (Char.ofNat n) = true →
      keepInPath (Char.ofNat n) = true := by decide +kernel
  have hc := hsmall ⟨c.toNat, Percent.toNat_lt_of_isHexDigit h⟩
  rw [Char.ofNat_toNat] at hc
  exact hc h

theorem decode_written (p : List Char) :
    Percent.decode (bytes (Percent.encode keepInPath p)) = Percent.decode (bytes p) :=
  Percent.decode_bytes_encode (by decide) (fun _ => keepInPath_of_isHexDigit) p

theorem weight_written (parts : List (List Char)) :
    weight (parts.map (Percent.encode keepInPath)) = weight parts := by
  simp only [weight, List.map_map, Function.comp_def, decode_written]

theorem weight_le_extent (parts : List (List Char)) : weight parts ≤ extent parts :=
  List.sum_le_sum fun p _ => Nat.succ_le_succ (Percent.length_decode_le (bytes p))

/-- Parts weigh what they extend over only if none of them is read as something else. -/
theorem decode_eq_of_extent_le_weight {parts : List (List Char)}
    (h : extent parts ≤ weight parts) {p : List Char} (hp : p ∈ parts) :
    Percent.decode (bytes p) = bytes p := by
  refine Percent.decode_eq_of_length_le (Nat.le_of_not_lt fun hlt => ?_)
  refine Nat.not_le.mpr (List.sum_lt_sum _ _ (fun q _ => ?_) ⟨p, hp, ?_⟩) h
  · exact Nat.succ_le_succ (Percent.length_decode_le (bytes q))
  · exact Nat.succ_lt_succ hlt

/-! ### Dots -/

@[simp] theorem weight_append (ss ts : List (List Char)) :
    weight (ss ++ ts) = weight ss + weight ts := by simp [weight]

@[simp] theorem weight_cons (s : List Char) (ss : List (List Char)) :
    weight (s :: ss) = (Percent.decode (bytes s)).length + 1 + weight ss := by simp [weight]

@[simp] theorem weight_nil : weight [] = 0 := rfl

theorem weight_dropLast_le (ss : List (List Char)) : weight ss.dropLast ≤ weight ss :=
  List.Sublist.sum_le_sum (ss.dropLast_sublist.map _) fun _ _ => Nat.zero_le _

/-- Dots stand for dots. -/
theorem decode_of_dots {s : List Char} {n : ℕ} (h : dots? s = some n) :
    Percent.decode (bytes s) = List.replicate n 0x2E := by
  fun_induction dots? s generalizing n with
  | case1 =>
    cases h
    rfl
  | case2 cs ih =>
    obtain ⟨m, hm, rfl⟩ := Option.map_eq_some_iff.mp h
    exact (Percent.decode_cons_of_ne (by decide) _).trans (congrArg (0x2E :: ·) (ih hm))
  | case3 cs ih =>
    obtain ⟨m, hm, rfl⟩ := Option.map_eq_some_iff.mp h
    exact congrArg (0x2E :: ·) (ih hm)
  | case4 cs ih =>
    obtain ⟨m, hm, rfl⟩ := Option.map_eq_some_iff.mp h
    exact congrArg (0x2E :: ·) (ih hm)
  | case5 => cases h

theorem weight_of_dots {s : List Char} {n : ℕ} (h : dots? s = some n) : weight [s] = n + 1 := by
  simp [decode_of_dots h]

/-- Walking along segments gives them all, or leaves something out. -/
theorem walk_eq_or_weight_lt (done ss : List (List Char)) :
    walk done ss = done ++ ss ∨ weight (walk done ss) < weight (done ++ ss) := by
  have hempty : weight [[]] = 1 := rfl
  fun_induction walk done ss with
  | case1 done => exact .inl (List.append_nil done).symm
  | case2 done s h =>
    right
    rw [weight_append, weight_append, weight_of_dots h]
    omega
  | case3 done s h =>
    right
    have hdone := weight_dropLast_le done
    rw [weight_append, weight_append, weight_of_dots h]
    omega
  | case4 done s h => exact .inl rfl
  | case5 done s t rest h ih =>
    right
    have hs := weight_of_dots h
    simp only [weight_append, weight_cons, weight_nil] at hs ih ⊢
    rcases ih with heq | hlt
    · rw [heq]
      simp only [weight_append, weight_cons]
      omega
    · omega
  | case6 done s t rest h ih =>
    right
    have hs := weight_of_dots h
    have hdone := weight_dropLast_le done
    simp only [weight_append, weight_cons, weight_nil] at hs ih ⊢
    rcases ih with heq | hlt
    · rw [heq]
      simp only [weight_append, weight_cons]
      omega
    · omega
  | case7 done s t rest h h' ih =>
    rwa [List.append_assoc, List.singleton_append] at ih

/-- Segments that are not dots are walked along one by one. -/
theorem walk_eq_append {done ss : List (List Char)}
    (h : ∀ s ∈ ss, dots? s ≠ some 1 ∧ dots? s ≠ some 2) : walk done ss = done ++ ss := by
  fun_induction walk done ss with
  | case1 done => exact (List.append_nil done).symm
  | case2 done s hs => exact absurd hs (h s List.mem_cons_self).1
  | case3 done s hs => exact absurd hs (h s List.mem_cons_self).2
  | case4 done s _ _ => rfl
  | case5 done s t rest hs ih => exact absurd hs (h s List.mem_cons_self).1
  | case6 done s t rest hs ih => exact absurd hs (h s List.mem_cons_self).2
  | case7 done s t rest _ _ ih =>
    rw [ih (List.forall_mem_cons.mp h).2, List.append_assoc, List.singleton_append]

/-! ### What is left out of a path -/

/-- The segments of a path that is relative to others. -/
def pathBelow (done : List (List Char)) (s : String) : List (List Char) :=
  walk done ((slashParts .web (cutTail (significant s)).1).map (Percent.encode keepInPath))

theorem significant_sublist (s : String) : (significant s).Sublist s.toList :=
  List.filter_sublist.trans
    ((List.rdropWhile_prefix (fun c : Char => decide (c.toNat ≤ 0x20)) _).sublist.trans
      (List.dropWhile_sublist _))

/-- Nothing is left out of a path, or read as something else. -/
structure IsPlainPath (s : String) : Prop where
  front_eq : (cutTail (significant s)).1 = s.toList
  decode_eq : ∀ p ∈ slashParts .web s.toList, Percent.decode (bytes p) = bytes p
  segments_eq : pathBelow [] s = (slashParts .web s.toList).map (Percent.encode keepInPath)

/-- The segments of a path weigh less than the path is long, unless it is plain. -/
theorem isPlainPath_or_weight_lt (s : String) :
    IsPlainPath s ∨ weight (pathBelow [] s) < (bytes s.toList).length + 1 := by
  refine or_iff_not_imp_right.mpr fun hge => ?_
  have hfront : ((cutTail (significant s)).1).Sublist s.toList :=
    (List.takeWhile_sublist _).trans (significant_sublist s)
  have hwalk := walk_eq_or_weight_lt []
    ((slashParts .web (cutTail (significant s)).1).map (Percent.encode keepInPath))
  rw [pathBelow] at hge
  rw [List.nil_append, weight_written] at hwalk
  have hparts := weight_le_extent (slashParts .web (cutTail (significant s)).1)
  have hextent := extent_slashParts .web (cutTail (significant s)).1
  have hlength := eq_or_length_bytes_lt hfront
  rcases hwalk with hwalk | hwalk
  · rw [hwalk, weight_written] at hge
    rcases hlength with heq | hlt
    · refine ⟨heq, ?_, ?_⟩
      · rw [heq] at hge hextent
        exact fun p hp => decode_eq_of_extent_le_weight (by omega) hp
      · rw [pathBelow, hwalk, heq]
    · omega
  · rcases hlength with heq | hlt
    · rw [heq] at hwalk hge hextent hparts
      omega
    · omega

/-! ### Segments -/

/-- Characters that have no meaning of their own within a segment. -/
def IsSegmentChar (c : Char) : Prop := c ≠ '/' ∧ c ≠ '?' ∧ c ≠ '#'

instance : DecidablePred IsSegmentChar := fun c =>
  inferInstanceAs (Decidable (c ≠ '/' ∧ c ≠ '?' ∧ c ≠ '#'))

/-- What holds of all segments and of the empty one holds of those that are walked to. -/
theorem forall_mem_walk {P : List Char → Prop} (hempty : P []) {done ss : List (List Char)}
    (hdone : ∀ s ∈ done, P s) (hss : ∀ s ∈ ss, P s) : ∀ s ∈ walk done ss, P s := by
  have concat {done : List (List Char)} {s : List Char} (hdone : ∀ s ∈ done, P s) (hs : P s) :
      ∀ t ∈ done ++ [s], P t :=
    List.forall_mem_append.mpr ⟨hdone, List.forall_mem_singleton.mpr hs⟩
  have fewer {done : List (List Char)} (hdone : ∀ s ∈ done, P s) : ∀ s ∈ done.dropLast, P s :=
    fun s hs => hdone s (done.dropLast_subset hs)
  fun_induction walk done ss with
  | case1 done => exact hdone
  | case2 done t ht => exact concat hdone hempty
  | case3 done t ht => exact concat (fewer hdone) hempty
  | case4 done t ht => exact concat hdone (hss t List.mem_cons_self)
  | case5 done t u rest ht ih => exact ih hdone (List.forall_mem_cons.mp hss).2
  | case6 done t u rest ht ih => exact ih (fewer hdone) (List.forall_mem_cons.mp hss).2
  | case7 done t u rest ht ht' ih =>
    obtain ⟨hs, hrest⟩ := List.forall_mem_cons.mp hss
    exact ih (concat hdone hs) hrest

theorem isSegmentChar_of_mem_encode {p : List Char} (hp : '/' ∉ p) {c : Char}
    (h : c ∈ Percent.encode keepInPath p) : IsSegmentChar c := by
  obtain ⟨d, hd, hc⟩ := List.mem_flatMap.mp h
  rw [Percent.encodeChar] at hc
  split at hc
  · rename_i hkeep
    obtain rfl := List.mem_singleton.mp hc
    refine ⟨fun heq => hp (heq ▸ hd), ?_, ?_⟩ <;>
    · rintro rfl
      exact absurd hkeep (by decide)
  · obtain ⟨b, -, hb⟩ := List.mem_flatMap.mp hc
    have hletter (hne : c ≠ '%') := Percent.isAlphanum_of_mem_encodeByte hb hne
    refine ⟨?_, ?_, ?_⟩ <;>
    · rintro rfl
      exact absurd (hletter (by decide)) (by decide)

/-- No character of these segments has a meaning of its own. -/
def AreClean (ss : List (List Char)) : Prop := ∀ s ∈ ss, ∀ c ∈ s, IsSegmentChar c

theorem areClean_walk {done : List (List Char)} (hdone : AreClean done) (k : SchemeKind)
    (cs : List Char) :
    AreClean (walk done ((slashParts k cs).map (Percent.encode keepInPath))) := by
  refine forall_mem_walk (List.forall_mem_nil _) hdone fun s hs c hc => ?_
  obtain ⟨p, hp, rfl⟩ := List.mem_map.mp hs
  exact isSegmentChar_of_mem_encode (Text.notMem_of_mem_splitAll hp) hc

theorem areClean_pathAfterHost (cs : List Char) : AreClean (pathAfterHost .web cs) := by
  cases cs with
  | nil => exact List.forall_mem_singleton.mpr (List.forall_mem_nil _)
  | cons c rest => exact areClean_walk (List.forall_mem_nil _) .web _

/-- The segments of a path are found again between its slashes. -/
theorem splitAll_pathChars {ss : List (List Char)} (h : ∀ s ∈ ss, '/' ∉ s) :
    Text.splitAll '/' (Path.segments ss).chars = [] :: ss := by
  induction ss using List.reverseRecOn with
  | nil => rfl
  | append_singleton ss s ih =>
    obtain ⟨hss, hs⟩ := List.forall_mem_append.mp h
    have hchars : (Path.segments (ss ++ [s])).chars = (Path.segments ss).chars ++ '/' :: s := by
      simp [Path.chars]
    rw [hchars, Text.splitAll_append_cons, ih hss,
      Text.splitAll_of_notMem (hs s (List.mem_singleton_self s))]
    rfl

/-! ### Joining -/

/-- The URL with another path. -/
def withSegments (u : Url) (ss : List (List Char)) : Url := { u with path := .segments ss }

theorem readRelative_of_path {base : Url} {c : Char} {rest : List Char}
    (hslash : isAnySlash c = false) (hmark : isTailMark c = false) :
    readRelative base (c :: rest) =
      .ok ((base.withSegments (segmentsBelow base.kind base.path.above
        (cutTail (c :: rest)).1)).withTail (cutTail (c :: rest)).2) := by
  unfold readRelative
  split
  · rename_i hnil
    cases hnil
  · rename_i heq
    obtain rfl := (List.cons.inj heq).1
    cases hmark
  · rename_i heq
    obtain rfl := (List.cons.inj heq).1
    cases hmark
  · rename_i heq
    obtain ⟨rfl, rfl⟩ := List.cons.inj heq
    rw [hslash]
    rfl

theorem exists_readFileRelative {base : Url} {c : Char} {rest : List Char}
    (hslash : isAnySlash c = false) : ∃ u, readFileRelative base (c :: rest) = .ok u := by
  unfold readFileRelative
  split
  · exact ⟨_, rfl⟩
  · exact ⟨_, rfl⟩
  · exact ⟨_, rfl⟩
  · rename_i heq
    obtain ⟨rfl, rfl⟩ := List.cons.inj heq
    rw [hslash]
    exact ⟨_, rfl⟩

/-- A text begins neither with a slash or a mark nor with a scheme. -/
structure BeginsPath (s : String) : Prop where
  head : ∃ c rest, significant s = c :: rest ∧ isAnySlash c = false ∧ isTailMark c = false
  scheme : cutScheme (significant s) = none

/-- A path can be joined to every base but a bare one. -/
theorem exists_join_iff {base : Url} {s : String} (h : BeginsPath s) :
    (∃ u, base.join s = .ok u) ↔ base.isBare = false := by
  obtain ⟨⟨c, rest, hs, hslash, hmark⟩, hscheme⟩ := h
  have hhead : (significant s).head? ≠ some '#' := by
    rw [hs]
    rintro heq
    rw [Option.some.inj heq] at hmark
    cases hmark
  rw [join, hscheme]
  cases hbare : base.isBare with
  | true => simp [hhead]
  | false =>
    refine iff_of_true ?_ rfl
    simp only [Bool.false_and, Bool.false_eq_true, if_false, hs]
    split
    · exact exists_readFileRelative hslash
    · exact ⟨_, readRelative_of_path hslash hmark⟩

/-- A path that is joined to a web URL takes the place of its last segment. -/
theorem join_path {base : Url} {ss : List (List Char)} {s : String} (hkind : base.kind = .web)
    (hpath : base.path = .segments ss) (h : BeginsPath s) :
    ∃ u, base.join s = .ok u ∧ u.path = .segments (pathBelow ss.dropLast s) := by
  obtain ⟨⟨c, rest, hs, hslash, hmark⟩, hscheme⟩ := h
  have hbare : base.isBare = false := by rw [isBare, hpath]
  have hfile : ¬ base.kind = .file := by
    rw [hkind]
    nofun
  have hjoin : base.join s = readRelative base (c :: rest) := by
    rw [join, hscheme]
    simp only [hbare, Bool.false_and, if_neg hfile, hs]
    rfl
  have hbelow : segmentsBelow .web (Path.segments ss).above (cutTail (significant s)).1 =
      pathBelow ss.dropLast s := by
    rw [segmentsBelow, trimmed, if_neg nofun, Path.above, pathBelow, keepInPath]
  rw [readRelative_of_path hslash hmark, ← hs, hpath, hkind, hbelow] at hjoin
  exact ⟨_, hjoin, rfl⟩

/-- Spaces, and other characters that do not count at either end of a text. -/
def isBlank (c : Char) : Bool := c.toNat ≤ 0x20

/-- Characters that do not count anywhere in a text. -/
def isBreak (c : Char) : Bool := c = '\t' || c = '\n' || c = '\r'

theorem significant_eq (s : String) : significant s =
    ((s.toList.dropWhile isBlank).rdropWhile isBlank).filter fun c => !isBreak c := by
  refine List.filter_congr fun c _ => ?_
  simp [isBreak, Bool.and_assoc]

theorem isBlank_of_isBreak {c : Char} (h : isBreak c = true) : isBlank c = true := by
  simp only [isBreak, Bool.or_eq_true, decide_eq_true_eq] at h
  rcases h with (rfl | rfl) | rfl <;> rfl

theorem filter_isBreak_eq_self {cs : List Char} (h : ∀ c ∈ cs, isBreak c = false) :
    (cs.filter fun c => !isBreak c) = cs :=
  List.filter_eq_self.mpr fun c hc => by rw [h c hc]; rfl

/-- A text keeps what it begins with, if that has no spaces. -/
theorem exists_significant_append {start : List Char} (h : ∀ c ∈ start, isBlank c = false)
    (hne : start ≠ []) (rest : List Char) :
    ∃ kept, significant (String.ofList (start ++ rest)) = start ++ kept := by
  have hstart : start.rdropWhile isBlank = start :=
    List.rdropWhile_eq_self_iff.mpr fun hne => by rw [h _ (List.getLast_mem hne)]; nofun
  have hright : (start ++ rest).rdropWhile isBlank = start ++ rest.rdropWhile isBlank := by
    induction rest using List.reverseRecOn with
    | nil => rw [List.append_nil, List.rdropWhile_nil, List.append_nil, hstart]
    | append_singleton rest c ih =>
      rw [← List.append_assoc, List.rdropWhile_concat, List.rdropWhile_concat]
      split
      · exact ih
      · rw [List.append_assoc]
  have hleft : (start ++ rest).dropWhile isBlank = start ++ rest := by
    obtain ⟨c, cs, rfl⟩ := List.exists_cons_of_ne_nil hne
    rw [List.cons_append, List.dropWhile_cons, h c List.mem_cons_self, if_neg Bool.false_ne_true]
  have hfilter : (start.filter fun c => !isBreak c) = start := by
    refine filter_isBreak_eq_self fun c hc => Bool.eq_false_iff.mpr fun hbreak => ?_
    exact absurd (isBlank_of_isBreak hbreak) (by rw [h c hc]; nofun)
  refine ⟨(rest.rdropWhile isBlank).filter fun c => !isBreak c, ?_⟩
  rw [significant_eq, String.toList_ofList, hleft, hright, List.filter_append, hfilter]

/-- A text without line ends and tabs, and without spaces around it, counts as a whole. -/
theorem significant_eq_self {s : String} (hbreak : ∀ c ∈ s.toList, isBreak c = false)
    (hfirst : ∀ c, s.toList.head? = some c → isBlank c = false)
    (hlast : ∀ c, s.toList.getLast? = some c → isBlank c = false) : significant s = s.toList := by
  have hleft : s.toList.dropWhile isBlank = s.toList := by
    cases hs : s.toList with
    | nil => rfl
    | cons c cs =>
      rw [List.dropWhile_cons, hfirst c (by rw [hs]; rfl), if_neg Bool.false_ne_true]
  have hright : s.toList.rdropWhile isBlank = s.toList :=
    List.rdropWhile_eq_self_iff.mpr fun hne => by
      rw [hlast _ (List.getLast?_eq_getLast_of_ne_nil hne)]
      nofun
  rw [significant_eq, hleft, hright, filter_isBreak_eq_self hbreak]

namespace IsPlainPath

variable {s : String}

theorem significant_eq (h : IsPlainPath s) : significant s = s.toList := by
  refine (significant_sublist s).antisymm ?_
  rw [← h.front_eq]
  exact List.takeWhile_sublist _

theorem isTailMark_eq_false (h : IsPlainPath s) {c : Char} (hc : c ∈ s.toList) :
    isTailMark c = false := by
  rw [← h.front_eq] at hc
  have hkept := List.mem_takeWhile_imp hc
  simpa using hkept

theorem isBreak_eq_false (h : IsPlainPath s) {c : Char} (hc : c ∈ s.toList) :
    isBreak c = false := by
  rw [← h.significant_eq, Url.significant_eq] at hc
  simpa using (List.mem_filter.mp hc).2

theorem isBlank_getLast (h : IsPlainPath s) {c : Char} (hc : s.toList.getLast? = some c) :
    isBlank c = false := by
  have hright : ((s.toList.dropWhile isBlank).rdropWhile isBlank) = s.toList := by
    refine ((List.rdropWhile_prefix _ _).sublist.trans (List.dropWhile_sublist _)).antisymm ?_
    nth_rewrite 1 [← h.significant_eq, Url.significant_eq]
    exact List.filter_sublist
  have hne : s.toList ≠ [] := by
    rintro hnil
    rw [hnil] at hc
    cases hc
  have hlast := List.rdropWhile_last_not isBlank (s.toList.dropWhile isBlank) (by rwa [hright])
  simp only [hright] at hlast
  rw [List.getLast?_eq_getLast_of_ne_nil hne] at hc
  rw [← Option.some.inj hc]
  exact Bool.eq_false_iff.mpr hlast

end IsPlainPath

/-! ### Reading -/

theorem exists_of_bind_eq_ok {ε α β : Type} {x : Except ε α} {f : α → Except ε β} {b : β}
    (h : (x >>= f) = .ok b) : ∃ a, x = .ok a ∧ f a = .ok b := by
  cases x with
  | error e => cases h
  | ok a => exact ⟨a, rfl, h⟩

theorem of_readBehindCredentials {scheme credentials place behind : List Char} {u : Url}
    (h : (readHostAndPort scheme place >>= fun (host, port, rest) => do
      if host.isEmpty && credentials ≠ [] then throw .emptyHost
      let (path, tail) := cutTail (rest ++ behind)
      let u : Url := ⟨scheme, some ⟨credentials, host, port⟩,
        .segments (pathAfterHost (.of scheme) path), none, none⟩
      return u.withTail tail) = .ok u) :
    u.scheme = scheme ∧ ∃ path, u.path = .segments (pathAfterHost (.of scheme) path) := by
  obtain ⟨⟨host, port, rest⟩, -, h⟩ := exists_of_bind_eq_ok h
  dsimp only at h
  split at h
  · cases h
  · cases h
    exact ⟨rfl, _, rfl⟩

theorem of_readAfterSlashes {scheme cs : List Char} {u : Url}
    (h : readAfterSlashes scheme cs = .ok u) :
    u.scheme = scheme ∧ ∃ path, u.path = .segments (pathAfterHost (.of scheme) path) := by
  unfold readAfterSlashes at h
  dsimp only at h
  split at h
  · exact of_readBehindCredentials h
  · split at h
    · exact of_readBehindCredentials h
    · cases h
  · exact of_readBehindCredentials h

theorem scheme_of_readFile {cs : List Char} {u : Url} (h : readFile cs = .ok u) :
    u.scheme = "file".toList := by
  unfold readFile at h
  dsimp only at h
  split at h
  · split at h
    · obtain ⟨host, -, h⟩ := exists_of_bind_eq_ok h
      cases h
      rfl
    · cases h
      rfl
  · cases h
    rfl

/-- The path of a web URL that was read follows its host. -/
theorem path_of_read {s : String} {u : Url} (h : read s = .ok u) (hkind : u.kind = .web) :
    ∃ path, u.path = .segments (pathAfterHost .web path) := by
  unfold read at h
  split at h
  · rename_i scheme rest _
    unfold readSchemed at h
    split at h
    · rename_i hscheme
      obtain ⟨-, hpath⟩ := of_readAfterSlashes h
      rwa [hscheme] at hpath
    · rw [kind, scheme_of_readFile h] at hkind
      exact absurd hkind (by decide)
    · rename_i hscheme
      have hsame : u.scheme = scheme := by
        unfold readOther at h
        split at h
        · exact (of_readAfterSlashes h).1
        · cases h
          rfl
      rw [kind, hsame, hscheme] at hkind
      cases hkind
  · cases h

end Url

end ContainerPorts
