import ContainerPorts.Text.Utf8
import Mathlib.Tactic.Common

/-!
# Characters as bytes

The bytes of a text are the bytes of its characters. A character below 128 is one
byte with its number. All bytes of any other character are 128 or more, so that
none of them can be taken for such a character.
-/
namespace ContainerPorts.Utf8

/-- The bytes of some characters. -/
def bytes (cs : List Char) : Bytes := cs.flatMap String.utf8EncodeChar

@[simp] theorem bytes_nil : bytes [] = [] := rfl

@[simp] theorem bytes_cons (c : Char) (cs : List Char) :
    bytes (c :: cs) = String.utf8EncodeChar c ++ bytes cs := rfl

@[simp] theorem bytes_append (cs ds : List Char) : bytes (cs ++ ds) = bytes cs ++ bytes ds :=
  List.flatMap_append

theorem encode_ofList (cs : List Char) : encode (String.ofList cs) = bytes cs :=
  List.toList_data_toByteArray

theorem decode?_bytes (cs : List Char) : decode? (bytes cs) = some (String.ofList cs) := by
  rw [← encode_ofList, decode?_encode]

theorem encode_eq_bytes (s : String) : encode s = bytes s.toList := by
  rw [← encode_ofList, String.ofList_toList]

theorem decode?_eq_some_iff {b : Bytes} {s : String} : decode? b = some s ↔ b = encode s := by
  refine ⟨fun h => ?_, fun h => by rw [h, decode?_encode]⟩
  unfold decode? String.fromUTF8? at h
  split at h
  · obtain rfl := Option.some.inj h
    rfl
  · cases h

theorem encode_injective {s t : String} (h : encode s = encode t) : s = t := by
  have hdecode := decode?_encode t
  rw [← h, decode?_encode] at hdecode
  exact Option.some.inj hdecode

theorem utf8EncodeChar_of_lt {c : Char} (h : c.toNat < 128) :
    String.utf8EncodeChar c = [UInt8.ofNat c.toNat] := if_pos (Nat.le_of_lt_succ h)

theorem le_of_mem_utf8EncodeChar {c : Char} (h : 128 ≤ c.toNat) {b : UInt8}
    (hb : b ∈ String.utf8EncodeChar c) : 0x80 ≤ b := by
  have large {m : ℕ} (hm : 128 ≤ m) (hm' : m < 256) : 0x80 ≤ UInt8.ofNat m := by
    rw [UInt8.le_iff_toNat_le, UInt8.toNat_ofNat', Nat.mod_eq_of_lt hm']
    exact hm
  have hlarge : ¬ c.val.toNat ≤ 127 := Nat.not_le_of_lt h
  rw [String.utf8EncodeChar, if_neg hlarge] at hb
  split_ifs at hb <;> simp only [List.mem_cons, List.not_mem_nil, or_false] at hb
  · rcases hb with rfl | rfl <;> exact large (by omega) (by omega)
  · rcases hb with rfl | rfl | rfl <;> exact large (by omega) (by omega)
  · rcases hb with rfl | rfl | rfl | rfl <;> exact large (by omega) (by omega)

/-- A byte below 128 is in no character but the one with its number. -/
theorem toNat_of_mem_utf8EncodeChar {c : Char} {b : UInt8} (hb : b ∈ String.utf8EncodeChar c)
    (hsmall : b < 0x80) : c.toNat = b.toNat := by
  by_cases hc : c.toNat < 128
  · rw [utf8EncodeChar_of_lt hc, List.mem_singleton] at hb
    rw [hb, UInt8.toNat_ofNat', Nat.mod_eq_of_lt (Nat.lt_trans hc (by decide))]
  · exact absurd (le_of_mem_utf8EncodeChar (Nat.le_of_not_lt hc) hb) (UInt8.not_le.mpr hsmall)

theorem length_bytes_lt_cons (c : Char) (cs : List Char) :
    (bytes cs).length < (bytes (c :: cs)).length := by
  have hc : 0 < (String.utf8EncodeChar c).length := List.length_pos_iff.mpr (by simp)
  rw [bytes_cons, List.length_append]
  omega

/-- Characters that are left out are missing from the bytes. -/
theorem eq_or_length_bytes_lt {cs ds : List Char} (h : cs.Sublist ds) :
    cs = ds ∨ (bytes cs).length < (bytes ds).length := by
  induction h with
  | slnil => exact .inl rfl
  | @cons cs ds c _ ih =>
    have hc := length_bytes_lt_cons c ds
    rcases ih with rfl | hlt
    · exact .inr hc
    · exact .inr (Nat.lt_trans hlt hc)
  | @cons_cons cs ds c _ ih =>
    refine ih.imp (congrArg (c :: ·)) fun hlt => ?_
    rw [bytes_cons, bytes_cons, List.length_append, List.length_append]
    omega

end ContainerPorts.Utf8
