import ContainerPorts.Json.Tree
import ContainerPorts.Json.Value
import ContainerPorts.Proofs.Text.Encoding
import Mathlib.Data.List.Basic

/-!
# Strings are read back

Every character of a string is written in one piece: as it is, behind a backslash, or
by its number. The reader takes each piece for the bytes of its character. So it reads a
string that was written, and stops at the closing quote.
-/
namespace ContainerPorts.Json

open Utf8

/-- Bytes that stand for themselves in a string. -/
def IsPlain (b : UInt8) : Prop := b ≠ 0x22 ∧ 0x20 ≤ b ∧ b ≠ 0x5C

variable {fuel : ℕ} {fit : Bool} {taken rest : Bytes}

theorem scanString_plain {bs : Bytes} (h : ∀ b ∈ bs, IsPlain b) :
    scanString (fuel + bs.length) fit taken (bs ++ rest) =
      scanString fuel fit (bs.reverse ++ taken) rest := by
  induction bs generalizing taken with
  | nil => rfl
  | cons b bs ih =>
    obtain ⟨⟨hquote, hcontrol, hescape⟩, hbs⟩ := List.forall_mem_cons.mp h
    have hlt : ¬ b < 0x20 := UInt8.not_lt.mpr hcontrol
    rw [List.length_cons, ← Nat.add_assoc, List.cons_append, scanString.eq_def]
    dsimp only
    rw [if_neg hquote, if_neg hlt, if_pos hescape, ih hbs, List.reverse_cons, List.append_assoc]
    rfl

theorem scanString_shortEscape {e c : UInt8} (he : e ≠ 0x75) (h : shortEscape? e = some c) :
    scanString (fuel + 1) fit taken (0x5C :: e :: rest) = scanString fuel fit (c :: taken) rest := by
  rw [scanString.eq_def]
  dsimp only
  rw [if_neg (by decide), if_neg (by decide), if_neg (by decide), if_neg he, h]

theorem scanString_unit {h1 h2 h3 h4 : UInt8} {u : ℕ} (h : hexUnit? h1 h2 h3 h4 = some u)
    (hu : u < 0x80) :
    scanString (fuel + 1) fit taken (0x5C :: 0x75 :: h1 :: h2 :: h3 :: h4 :: rest) =
      scanString fuel fit ((bytes [Char.ofNat u]).reverse ++ taken) rest := by
  have hleading : isLeading u = false := by
    rw [isLeading, Bool.and_eq_false_iff]
    exact .inl (by simpa using Nat.lt_of_lt_of_le hu (by decide))
  have htrailing : isTrailing u = false := by
    rw [isTrailing, Bool.and_eq_false_iff]
    exact .inl (by simpa using Nat.lt_of_lt_of_le hu (by decide))
  have hbytes : unitBytes u rest = (some (bytes [Char.ofNat u]), rest) := by
    rw [unitBytes.eq_def, hleading, htrailing, String.singleton_eq_ofList, encode_ofList]
    rfl
  rw [scanString.eq_def]
  dsimp only
  rw [if_neg (by decide), if_neg (by decide), if_neg (by decide), if_pos rfl, h]
  dsimp only
  rw [hbytes]

/-- A control character is written with four digits that are its number. -/
theorem bytes_lowerHex (n : Fin 32) : ∃ h1 h2 h3 h4,
    bytes (Text.lowerHex 4 n) = [h1, h2, h3, h4] ∧ hexUnit? h1 h2 h3 h4 = some n.val := by
  have hdigits : ∀ n : Fin 32,
      let s := bytes (Text.lowerHex 4 n)
      s.length = 4 ∧
        hexUnit? (s.getD 0 0) (s.getD 1 0) (s.getD 2 0) (s.getD 3 0) = some n.val := by
    decide +kernel
  obtain ⟨hlength, hunit⟩ := hdigits n
  obtain ⟨h1, h2, h3, h4, hbytes⟩ := List.length_eq_four.mp hlength
  rw [hbytes] at hunit
  exact ⟨h1, h2, h3, h4, hbytes, hunit⟩

/-- A character above the control characters that needs no backslash is written as it is. -/
theorem isPlain_of_mem {c : Char} (hquote : c ≠ '"') (hescape : c ≠ '\\') (hcontrol : 32 ≤ c.toNat)
    {b : UInt8} (hb : b ∈ bytes [c]) : IsPlain b := by
  simp only [bytes_cons, bytes_nil, List.append_nil] at hb
  have unlike {d : Char} (hne : c ≠ d) {n : UInt8} (hn : n < 0x80) (hd : d.toNat = n.toNat) :
      b ≠ n := by
    rintro rfl
    exact hne (Char.toNat_inj.mp ((toNat_of_mem_utf8EncodeChar hb hn).trans hd.symm))
  refine ⟨unlike hquote (by decide) rfl, ?_, unlike hescape (by decide) rfl⟩
  by_contra hlow
  have hlow : b < 0x20 := UInt8.not_le.mp hlow
  have hnat := toNat_of_mem_utf8EncodeChar hb (UInt8.lt_trans hlow (by decide))
  exact absurd (UInt8.lt_iff_toNat_lt.mp hlow) (Nat.not_lt.mpr (hnat ▸ hcontrol))

/-- The reader takes some steps over a part of a string, and has then taken these characters. -/
def Spells (cs : List Char) (s : Bytes) : Prop :=
  ∃ n ≤ s.length, ∀ fuel fit taken rest,
    scanString (fuel + n) fit taken (s ++ rest) =
      scanString fuel fit ((bytes cs).reverse ++ taken) rest

theorem spells_escapedChar (c : Char) : Spells [c] (bytes (Value.escapedChar c)) := by
  have short {e : Char} {b : UInt8} (he : bytes [e] = [b]) (hne : b ≠ 0x75)
      (hshort : ∃ d, bytes [c] = [d] ∧ shortEscape? b = some d) :
      Spells [c] (bytes ['\\', e]) := by
    obtain ⟨d, hd, hshort⟩ := hshort
    have hbytes : bytes ['\\', e] = [0x5C, b] := congrArg (0x5C :: ·) he
    rw [hbytes]
    refine ⟨1, by simp, fun fuel fit taken rest => ?_⟩
    rw [hd]
    exact scanString_shortEscape hne hshort
  unfold Value.escapedChar
  split_ifs with h1 h2 h3 h4 h5 h6 h7 h8
  · exact short (b := 0x22) rfl (by decide) ⟨0x22, by rw [h1]; rfl, rfl⟩
  · exact short (b := 0x5C) rfl (by decide) ⟨0x5C, by rw [h2]; rfl, rfl⟩
  · exact short (b := 0x62) rfl (by decide) ⟨0x08, by rw [h3]; rfl, rfl⟩
  · exact short (b := 0x66) rfl (by decide) ⟨0x0C, by rw [h4]; rfl, rfl⟩
  · exact short (b := 0x6E) rfl (by decide) ⟨0x0A, by rw [h5]; rfl, rfl⟩
  · exact short (b := 0x72) rfl (by decide) ⟨0x0D, by rw [h6]; rfl, rfl⟩
  · exact short (b := 0x74) rfl (by decide) ⟨0x09, by rw [h7]; rfl, rfl⟩
  · obtain ⟨a1, a2, a3, a4, hbytes, hunit⟩ := bytes_lowerHex ⟨c.toNat, h8⟩
    have hc : bytes ('\\' :: 'u' :: Text.lowerHex 4 c.toNat) = [0x5C, 0x75, a1, a2, a3, a4] :=
      congrArg (0x5C :: 0x75 :: ·) hbytes
    rw [hc]
    refine ⟨1, by simp, fun fuel fit taken rest => ?_⟩
    have hscan : scanString (fuel + 1) fit taken
        (0x5C :: 0x75 :: a1 :: a2 :: a3 :: a4 :: rest) = _ :=
      scanString_unit hunit (Nat.lt_trans h8 (by decide))
    rwa [Char.ofNat_toNat] at hscan
  · refine ⟨(bytes [c]).length, Nat.le_refl _, fun fuel fit taken rest => ?_⟩
    exact scanString_plain fun b hb => isPlain_of_mem h1 h2 (Nat.le_of_not_lt h8) hb

theorem Spells.append {cs ds : List Char} {s t : Bytes} (h : Spells cs s) (h' : Spells ds t) :
    Spells (cs ++ ds) (s ++ t) := by
  obtain ⟨n, hn, hs⟩ := h
  obtain ⟨m, hm, ht⟩ := h'
  refine ⟨m + n, by rw [List.length_append]; omega, fun fuel fit taken rest => ?_⟩
  rw [← Nat.add_assoc, List.append_assoc, hs, ht, bytes_append, List.reverse_append,
    List.append_assoc]

theorem spells_flatMap_escapedChar (cs : List Char) :
    Spells cs (bytes (cs.flatMap Value.escapedChar)) := by
  induction cs with
  | nil => exact ⟨0, Nat.le_refl 0, fun _ _ _ _ => rfl⟩
  | cons c cs ih =>
    rw [List.flatMap_cons, bytes_append]
    exact (spells_escapedChar c).append ih

/-- A string that was written is read back. -/
theorem readString_stringChars (s : String) (rest : Bytes) :
    ∃ t, bytes (Value.stringChars s) = 0x22 :: t ∧ readString (t ++ rest) = .whole (.ok s) rest := by
  refine ⟨bytes (s.toList.flatMap Value.escapedChar) ++ [0x22], ?_, ?_⟩
  · rw [Value.stringChars, List.cons_append, bytes_cons, bytes_append]
    rfl
  · obtain ⟨n, hn, hscan⟩ := spells_flatMap_escapedChar s.toList
    let t := bytes (s.toList.flatMap Value.escapedChar)
    have hfuel : (t ++ [0x22] ++ rest).length + 1 = (t.length - n + rest.length + 1) + 1 + n := by
      have hn : n ≤ t.length := hn
      simp only [List.length_append, List.length_singleton]
      omega
    have hread : stringOf true (bytes s.toList) = .ok s := by
      simp [stringOf, decode?_bytes]
    change scanString ((t ++ [0x22] ++ rest).length + 1) true [] (t ++ [0x22] ++ rest) = _
    rw [hfuel, List.append_assoc, hscan, List.append_nil, scanString.eq_def]
    simp [hread]

end ContainerPorts.Json
