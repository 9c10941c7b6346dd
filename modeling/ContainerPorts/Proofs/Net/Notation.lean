import ContainerPorts.Net.Network
import Mathlib.Control.Basic
import Mathlib.Data.Nat.Notation
import Mathlib.Data.Option.Basic

/-!
# Addresses are read back

The written form of an address is one of several forms that are read, so reading it
goes through all that a reader can meet: a gap of zero groups in any place, none at
all, and an IPv4 address at the end. Groups hold hexadecimal digits only, which is
why a colon or a gap can only stand where the writer put one.
-/
namespace ContainerPorts

/-! ### Numbers in hexadecimal -/

namespace Text

theorem hexValue?_digitChar : ∀ n < 16, hexValue? (Nat.digitChar n) = some n := by decide

theorem mem_toDigits_hex {n : ℕ} {c : Char} (h : c ∈ Nat.toDigits 16 n) :
    ∃ d < 16, c = Nat.digitChar d := by
  induction n using Nat.strongRecOn with
  | ind n ih =>
    rw [Nat.toDigits_eq_if (by decide)] at h
    split at h
    · exact ⟨n, ‹_›, List.mem_singleton.mp h⟩
    · rcases List.mem_append.mp h with h | h
      · exact ih (n / 16) (by omega) h
      · exact ⟨n % 16, by omega, List.mem_singleton.mp h⟩

/-- The digits of a number have its value. -/
theorem mapM_hexValue?_toDigits (n : ℕ) :
    ∃ ds, (Nat.toDigits 16 n).mapM hexValue? = some ds ∧
      ds.foldl (fun n d => n * 16 + d) 0 = n := by
  induction n using Nat.strongRecOn with
  | ind n ih =>
    rw [Nat.toDigits_eq_if (by decide)]
    split
    · exact ⟨[n], by simp [hexValue?_digitChar n ‹_›], by simp⟩
    · obtain ⟨ds, hds, hvalue⟩ := ih (n / 16) (by omega)
      have hlast : [Nat.digitChar (n % 16)].mapM hexValue? = some [n % 16] := by
        simp [hexValue?_digitChar (n % 16) (by omega)]
      refine ⟨ds ++ [n % 16], by rw [List.mapM_append, hds, hlast]; rfl, ?_⟩
      rw [List.foldl_append, hvalue]
      simp only [List.foldl_cons, List.foldl_nil]
      omega

end Text

/-! ### IPv4 -/

namespace Ipv4

theorem mem_chars {x : Ipv4} {c : Char} (h : c ∈ x.chars) : c = '.' ∨ c.isDigit = true := by
  refine (Text.mem_joinAll h).imp id ?_
  rintro ⟨part, hpart, hc⟩
  obtain ⟨o, -, rfl⟩ := List.mem_map.mp hpart
  exact Nat.isDigit_of_mem_toDigits (by decide) (by decide) hc

theorem point_notMem_toDigits (n : ℕ) : '.' ∉ Nat.toDigits 10 n := fun h =>
  absurd (Nat.isDigit_of_mem_toDigits (by decide) (by decide) h) (by decide)

theorem read?_chars (x : Ipv4) : read? x.chars = some x := by
  have hparts : Text.splitAll '.' x.chars =
      [x.a, x.b, x.c, x.d].map fun o => Nat.toDigits 10 o.toNat := by
    refine Text.splitAll_joinAll (by simp) fun part hpart => ?_
    obtain ⟨o, -, rfl⟩ := List.mem_map.mp hpart
    exact point_notMem_toDigits o.toNat
  have hoctet : ∀ o : UInt8, octet? (Nat.toDigits 10 o.toNat) = some o := fun o => by
    rw [octet?_toDigits o.toNat o.toNat_lt, UInt8.ofNat_toNat]
  simp [read?, hparts, hoctet]

/-- A length in decimal is not taken for a netmask. -/
theorem read?_toDigits (n : ℕ) : read? (Nat.toDigits 10 n) = none := by
  simp [read?, Text.splitAll_of_notMem (point_notMem_toDigits n)]

theorem isDigit_of_octet? {cs : List Char} {o : UInt8} (h : octet? cs = some o) {c : Char}
    (hc : c ∈ cs) : c.isDigit = true := by
  unfold octet? at h
  split at h
  · rw [List.mem_singleton.mp hc]
    decide
  · cases h
  · split at h
    · obtain ⟨n, hn, -⟩ := Option.map_eq_some_iff.mp h
      unfold Text.readDigits? at hn
      split at hn
      · rename_i hcs
        exact List.all_eq_true.mp hcs.2.1 c hc
      · cases hn
    · cases h

theorem mem_of_read? {cs : List Char} {x : Ipv4} (h : read? cs = some x) {c : Char}
    (hc : c ∈ cs) : c = '.' ∨ c.isDigit = true := by
  unfold read? at h
  split at h
  · rename_i hparts
    rw [← Text.joinAll_splitAll '.' cs] at hc
    refine (Text.mem_joinAll hc).imp id ?_
    rintro ⟨part, hpart, hc⟩
    have hoctet := List.mem_map_of_mem (f := octet?) hpart
    rw [hparts] at hoctet
    obtain ⟨b, hb⟩ : ∃ b, octet? part = some b := by
      simp only [List.mem_cons, List.not_mem_nil, or_false] at hoctet
      rcases hoctet with h | h | h | h <;> exact ⟨_, h⟩
    exact isDigit_of_octet? hb hc
  · cases h

end Ipv4

/-! ### IPv6 -/

namespace Ipv6

theorem group?_toDigits (w : UInt16) : group? (Nat.toDigits 16 w.toNat) = some w := by
  obtain ⟨ds, hds, hvalue⟩ := Text.mapM_hexValue?_toDigits w.toNat
  have hlen : (Nat.toDigits 16 w.toNat).length ≤ 4 :=
    (Nat.length_toDigits_le_iff (by decide) (by decide)).mpr w.toNat_lt
  simp [group?, Nat.toDigits_ne_nil, hlen, hds, hvalue]

theorem colon_notMem_toDigits (n : ℕ) : ':' ∉ Nat.toDigits 16 n := by
  intro h
  obtain ⟨d, hd, hc⟩ := Text.mem_toDigits_hex h
  have hcolon : ∀ d < 16, ':' ≠ Nat.digitChar d := by decide
  exact hcolon d hd hc

theorem groupWords?_toDigits (ipv4Last : Bool) (ws : List UInt16) :
    groupWords? ipv4Last (ws.map fun w => Nat.toDigits 16 w.toNat) = some ws := by
  induction ws with
  | nil => rfl
  | cons w ws ih =>
    cases ws with
    | nil => simp [groupWords?, group?_toDigits]
    | cons v ws =>
      rw [List.map_cons] at ih
      simp [groupWords?, group?_toDigits, ih]

theorem splitAll_groupChars {ws : List UInt16} (h : ws ≠ []) :
    Text.splitAll ':' (groupChars ws) = ws.map fun w => Nat.toDigits 16 w.toNat := by
  refine Text.splitAll_joinAll (by simpa using h) fun part hpart => ?_
  obtain ⟨w, -, rfl⟩ := List.mem_map.mp hpart
  exact colon_notMem_toDigits w.toNat

/-- Groups begin with a digit. -/
theorem groupChars_cons (w : UInt16) (ws : List UInt16) :
    ∃ c cs, groupChars (w :: ws) = c :: cs ∧ c ≠ ':' := by
  obtain ⟨rest, hrest⟩ : ∃ rest, groupChars (w :: ws) = Nat.toDigits 16 w.toNat ++ rest := by
    cases ws with
    | nil => exact ⟨[], (List.append_nil _).symm⟩
    | cons v ws => exact ⟨_, rfl⟩
  obtain ⟨c, cs, hdigits⟩ : ∃ c cs, Nat.toDigits 16 w.toNat = c :: cs :=
    List.exists_cons_of_ne_nil Nat.toDigits_ne_nil
  refine ⟨c, cs ++ rest, by rw [hrest, hdigits, List.cons_append], ?_⟩
  rintro rfl
  exact colon_notMem_toDigits w.toNat (hdigits ▸ List.mem_cons_self)

theorem words?_groupChars (ipv4Last : Bool) (ws : List UInt16) :
    words? ipv4Last (groupChars ws) = some ws := by
  cases ws with
  | nil => rfl
  | cons w ws =>
    obtain ⟨c, cs, hchars, -⟩ := groupChars_cons w ws
    have hnil : groupChars (w :: ws) ≠ [] := by simp [hchars]
    rw [words?, if_neg hnil, splitAll_groupChars (List.cons_ne_nil w ws), groupWords?_toDigits]

/-! A gap is found where two colons stand side by side. -/

theorem cutGap_append {part : List Char} (h : ':' ∉ part) (cs : List Char) :
    cutGap (part ++ cs) = (cutGap cs).map fun p => (part ++ p.1, p.2) := by
  induction part with
  | nil => simp
  | cons c part ih =>
    simp only [List.mem_cons, not_or] at h
    have hcons : ∀ cs, cutGap (c :: cs) = (cutGap cs).map fun p => (c :: p.1, p.2) := fun cs => by
      rw [cutGap]
      rintro - rfl
      exact absurd rfl h.1
    rw [List.cons_append, hcons, ih h.2, Option.map_map]
    rfl

theorem cutGap_colon {cs : List Char} (h : cs.head? ≠ some ':') :
    cutGap (':' :: cs) = (cutGap cs).map fun p => (':' :: p.1, p.2) := by
  rw [cutGap]
  rintro rest - rfl
  exact h rfl

/-- No gap is found among groups. -/
theorem cutGap_groupChars (ws : List UInt16) (cs : List Char) :
    cutGap (groupChars ws ++ cs) = (cutGap cs).map fun p => (groupChars ws ++ p.1, p.2) := by
  induction ws with
  | nil => simp [groupChars, Text.joinAll]
  | cons w ws ih =>
    have hcolon := colon_notMem_toDigits w.toNat
    cases ws with
    | nil => exact cutGap_append hcolon cs
    | cons v ws =>
      have hstep : groupChars (w :: v :: ws) =
          Nat.toDigits 16 w.toNat ++ ':' :: groupChars (v :: ws) := rfl
      have hhead : (groupChars (v :: ws) ++ cs).head? ≠ some ':' := by
        obtain ⟨c, rest, hchars, hc⟩ := groupChars_cons v ws
        simpa [hchars] using hc
      rw [hstep, List.append_assoc, cutGap_append hcolon, List.cons_append, cutGap_colon hhead, ih]
      simp [Function.comp_def]

/-! ### What is left out -/

theorem zeroRun_spec (ws : List UInt16) :
    ∃ behind, ws = List.replicate (zeroRun ws) 0 ++ behind := by
  induction ws with
  | nil => exact ⟨[], rfl⟩
  | cons w ws ih =>
    obtain ⟨behind, hws⟩ := ih
    unfold zeroRun
    split
    · rename_i hw
      exact ⟨behind, by rw [hw, List.replicate_succ, List.cons_append, ← hws]⟩
    · exact ⟨w :: ws, rfl⟩

theorem longestRun_spec (start : ℕ) (ws : List UInt16) : ∃ before behind,
    ws = before ++ List.replicate (longestRun start ws).2 0 ++ behind ∧
      (longestRun start ws).1 = start + before.length := by
  induction ws generalizing start with
  | nil => exact ⟨[], [], rfl, rfl⟩
  | cons w ws ih =>
    unfold longestRun
    dsimp only
    split
    · obtain ⟨behind, hws⟩ := zeroRun_spec (w :: ws)
      exact ⟨[], behind, hws, rfl⟩
    · obtain ⟨before, behind, hws, hstart⟩ := ih (start + 1)
      refine ⟨w :: before, behind, ?_, by rw [hstart, List.length_cons]; omega⟩
      rw [List.cons_append, List.cons_append, ← hws]

theorem ofWords?_words (x : Ipv6) : ofWords? x.words = some x := by
  simp [ofWords?, x.length_eq]

theorem read?_groupChars (x : Ipv6) : read? (groupChars x.words) = some x := by
  have hgap : cutGap (groupChars x.words) = none := by
    simpa [cutGap] using cutGap_groupChars x.words []
  simp [read?, hgap, words?_groupChars, ofWords?_words]

/-- A gap is filled up to eight words again. -/
theorem read?_gap {x : Ipv6} {before behind : List UInt16} {n : ℕ} (hn : 1 ≤ n)
    (hwords : x.words = before ++ List.replicate n 0 ++ behind) :
    read? (groupChars before ++ ':' :: ':' :: groupChars behind) = some x := by
  have hlen : before.length + n + behind.length = 8 := by
    simpa [hwords, Nat.add_assoc] using x.length_eq
  have hgap : cutGap (groupChars before ++ ':' :: ':' :: groupChars behind) =
      some (groupChars before, groupChars behind) := by
    simp [cutGap_groupChars, cutGap]
  have hfill : 8 - before.length - behind.length = n := by omega
  have hfits : before.length + behind.length ≤ 7 := by omega
  have hofWords := ofWords?_words x
  rw [hwords] at hofWords
  simpa [read?, hgap, words?_groupChars, hfits, hfill] using hofWords

theorem read?_hexChars (x : Ipv6) : read? x.hexChars = some x := by
  unfold hexChars
  dsimp only
  split
  · exact read?_groupChars x
  · rename_i hrun
    obtain ⟨before, behind, hwords, hstart⟩ := longestRun_spec 0 x.words
    generalize longestRun 0 x.words = run at hrun hwords hstart
    have htake : x.words.take run.1 = before := by
      simp [hwords, hstart]
    have hdrop : x.words.drop (run.1 + run.2) = behind := by
      simp [hwords, hstart]
    rw [htake, hdrop, List.append_assoc]
    exact read?_gap (by omega) hwords

/-! ### An IPv4 address at the end -/

/-- An IPv4 address is too long for a group. -/
theorem group?_ipv4 (x : Ipv4) : group? x.chars = none := by
  have hdigits : ∀ n, 0 < (Nat.toDigits 10 n).length := fun n =>
    List.length_pos_iff.mpr Nat.toDigits_ne_nil
  have hlen : ¬ x.chars.length ≤ 4 := by
    have ha := hdigits x.a.toNat
    have hb := hdigits x.b.toNat
    have hc := hdigits x.c.toNat
    have hd := hdigits x.d.toNat
    simp only [Ipv4.chars, List.map_cons, List.map_nil, Text.joinAll, List.length_append,
      List.length_cons]
    omega
  simp [group?, hlen]

theorem mapped?_eq_some {x : Ipv6} {y : Ipv4} (h : x.mapped? = some y) :
    x.words = [0, 0, 0, 0, 0, 0xFFFF] ++ wordsOfIpv4 y := by
  have hword : ∀ w : UInt16, UInt16.ofNat
      ((UInt8.ofNat (w.toNat / 256)).toNat * 256 + (UInt8.ofNat w.toNat).toNat) = w := fun w => by
    have hw := w.toNat_lt
    have hhigh : w.toNat / 256 % 2 ^ 8 = w.toNat / 256 := Nat.mod_eq_of_lt (by omega)
    rw [UInt8.toNat_ofNat', UInt8.toNat_ofNat', hhigh, Nat.div_add_mod', UInt16.ofNat_toNat]
  unfold mapped? at h
  split at h
  · rename_i g k hwords
    obtain rfl := Option.some.inj h
    rw [hwords, wordsOfIpv4, hword, hword]
    rfl
  · cases h

theorem read?_mapped {x : Ipv6} {y : Ipv4} (h : x.mapped? = some y) :
    read? ([':', ':', 'f', 'f', 'f', 'f', ':'] ++ y.chars) = some x := by
  have hcolon : ':' ∉ y.chars := fun hc => by
    rcases Ipv4.mem_chars hc with h | h
    · exact absurd h (by decide)
    · exact absurd h (by decide)
  have hsplit : Text.splitAll ':' ('f' :: 'f' :: 'f' :: 'f' :: ':' :: y.chars) =
      [['f', 'f', 'f', 'f'], y.chars] := by
    have hffff : ':' ∉ ['f', 'f', 'f', 'f'] := by decide
    rw [← Text.splitAll_of_notMem hcolon]
    exact Text.splitAll_append hffff y.chars
  have hffff : group? ['f', 'f', 'f', 'f'] = some 0xFFFF := by decide
  have hwords := mapped?_eq_some h
  have hofWords := ofWords?_words x
  rw [hwords] at hofWords
  simpa [read?, cutGap, words?, hsplit, groupWords?, hffff, group?_ipv4, Ipv4.read?_chars,
    wordsOfIpv4] using hofWords

theorem read?_chars (x : Ipv6) : read? x.chars = some x := by
  unfold chars
  split
  · exact read?_mapped ‹_›
  · exact read?_hexChars x

end Ipv6

/-! ### Addresses and networks -/

namespace Ipv6

theorem colon_mem_chars (x : Ipv6) : ':' ∈ x.chars := by
  have hgroups : ':' ∈ groupChars x.words := by
    match hwords : x.words, x.length_eq with
    | w :: v :: ws, _ => simp [groupChars, Text.joinAll]
  unfold chars hexChars
  split
  · exact List.mem_append_left _ (by decide)
  · dsimp only
    split
    · exact hgroups
    · exact List.mem_append_left _ (List.mem_append_right _ (by decide))

theorem slash_notMem_groupChars (ws : List UInt16) : '/' ∉ groupChars ws := by
  intro h
  rcases Text.mem_joinAll h with h | ⟨part, hpart, hc⟩
  · exact absurd h (by decide)
  · obtain ⟨w, -, rfl⟩ := List.mem_map.mp hpart
    obtain ⟨d, hd, hchar⟩ := Text.mem_toDigits_hex hc
    have hslash : ∀ d < 16, '/' ≠ Nat.digitChar d := by decide
    exact hslash d hd hchar

end Ipv6

namespace IpAddress

theorem readChars?_chars (x : IpAddress) : readChars? x.chars = some x := by
  cases x with
  | v4 x => simp [readChars?, chars, Ipv4.read?_chars]
  | v6 x =>
    have hv4 : Ipv4.read? x.chars = none := Option.eq_none_iff_forall_ne_some.mpr fun y hy => by
      have hcolon := Ipv4.mem_of_read? hy x.colon_mem_chars
      exact absurd hcolon (by decide)
    simp [readChars?, chars, hv4, Ipv6.read?_chars]

theorem read?_text (x : IpAddress) : read? x.text = some x := by
  simp [read?, text, readChars?_chars]

theorem slash_notMem_chars (x : IpAddress) : '/' ∉ x.chars := by
  have hv4 : ∀ x : Ipv4, '/' ∉ x.chars := fun x h => by
    have hslash := Ipv4.mem_chars h
    exact absurd hslash (by decide)
  cases x with
  | v4 x => exact hv4 x
  | v6 x =>
    have hgroups := Ipv6.slash_notMem_groupChars
    unfold chars Ipv6.chars Ipv6.hexChars
    dsimp only
    split
    · simp [hv4]
    · split <;> simp [hgroups]

end IpAddress

namespace Text

theorem readCount?_toDigits {bound n : ℕ} (h : n ≤ bound) :
    readCount? bound (Nat.toDigits 10 n) = some n := by
  unfold readCount?
  split
  · rename_i cs hdigits
    have hplus : '+' ∈ Nat.toDigits 10 n := hdigits ▸ List.mem_cons_self
    have hdigit := Nat.isDigit_of_mem_toDigits (by decide) (by decide) hplus
    exact absurd hdigit (by decide)
  · exact readDigits?_toDigits h

end Text

namespace Network

theorem length?_toDigits (x : IpAddress) {n : ℕ} (h : n ≤ 255) :
    length? x (Nat.toDigits 10 n) = some n := by
  simp [length?, Ipv4.read?_toDigits, Text.readCount?_toDigits h]

theorem read?_text (x : Network) : read? x.text = some x := by
  have hwidth : x.address.width ≤ 255 := by
    cases x.address <;> simp [IpAddress.width]
  have hlength := length?_toDigits x.address (Nat.le_trans x.bits_le hwidth)
  have hcut := Text.cutOnce_append x.address.slash_notMem_chars (Nat.toDigits 10 x.bits)
  simp [read?, text, readChars?, chars, hcut, IpAddress.readChars?_chars, hlength, make?, x.bits_le]

end Network

end ContainerPorts
