import ContainerPorts.Proofs.Json.Records

/-!
# Documents on a line

A value is written on one line: control characters, line ends among them, are escaped within its
strings and stand nowhere else. With the end of the line behind it, it is read as it is without.
-/
namespace ContainerPorts.Json

open Utf8

namespace Value

/-- No control characters are among these. -/
def ArePrinted (cs : List Char) : Prop := ∀ c ∈ cs, 32 ≤ c.toNat

-- Decided along the list, and not by going through all characters that there are.
instance (cs : List Char) : Decidable (ArePrinted cs) :=
  List.decidableBAll (fun c : Char => 32 ≤ c.toNat) cs

namespace ArePrinted

variable {c : Char} {cs ds : List Char}

theorem nil : ArePrinted [] := List.forall_mem_nil _

theorem cons (hc : 32 ≤ c.toNat) (hcs : ArePrinted cs) : ArePrinted (c :: cs) :=
  List.forall_mem_cons.mpr ⟨hc, hcs⟩

theorem append (hcs : ArePrinted cs) (hds : ArePrinted ds) : ArePrinted (cs ++ ds) :=
  List.forall_mem_append.mpr ⟨hcs, hds⟩

theorem newline_notMem (h : ArePrinted cs) : '\n' ∉ cs := fun hmem => absurd (h _ hmem) (by decide)

end ArePrinted

theorem arePrinted_escapedChar (c : Char) : ArePrinted (escapedChar c) := by
  have hcode : ∀ n : Fin 32, ArePrinted ('\\' :: 'u' :: Text.lowerHex 4 n) := by
    decide +kernel
  unfold escapedChar
  split_ifs with h1 h2 h3 h4 h5 h6 h7 h8
  any_goals decide
  · exact hcode ⟨c.toNat, h8⟩
  · exact List.forall_mem_singleton.mpr (Nat.le_of_not_lt h8)

theorem arePrinted_stringChars (s : String) : ArePrinted (stringChars s) := by
  refine .cons (by decide) (.append (fun c hc => ?_) (.cons (by decide) .nil))
  obtain ⟨d, -, hc⟩ := List.mem_flatMap.mp hc
  exact arePrinted_escapedChar d c hc

theorem arePrinted_integerChars (n : Int) : ArePrinted (integerChars n) := by
  have hdigits : ArePrinted (Nat.toDigits 10 n.natAbs) := fun c hc => by
    have hdigit : c.isDigit = true := Nat.isDigit_of_mem_toDigits (by decide) (by decide) hc
    have hbounds : 48 ≤ c.toNat ∧ c.toNat ≤ 57 := by
      simpa [Char.isDigit, UInt32.le_iff_toNat_le] using hdigit
    exact Nat.le_trans (by decide) hbounds.1
  unfold integerChars
  split
  · exact .cons (by decide) hdigits
  · exact hdigits

mutual

theorem arePrinted_chars : ∀ v : Value, v.isExact = true → ArePrinted v.chars
  | .null, _ => by decide
  | .bool true, _ => by decide
  | .bool false, _ => by decide
  | .integer n, _ => arePrinted_integerChars n
  | .string s, _ => arePrinted_stringChars s
  | .array vs, h => .cons (by decide) ((arePrinted_itemsChars vs h).append (.cons (by decide) .nil))
  | .object ms, h =>
    .cons (by decide) ((arePrinted_membersChars ms h).append (.cons (by decide) .nil))

theorem arePrinted_itemsChars : ∀ vs : List Value, areExact vs = true → ArePrinted (itemsChars vs)
  | [], _ => .nil
  | [v], h => arePrinted_chars v (Bool.and_eq_true_iff.mp h).1
  | v :: w :: vs, h => by
    obtain ⟨hv, hvs⟩ := Bool.and_eq_true_iff.mp h
    exact (arePrinted_chars v hv).append (.cons (by decide) (arePrinted_itemsChars (w :: vs) hvs))

theorem arePrinted_membersChars : ∀ ms : List (String × Value), membersAreExact ms = true →
    ArePrinted (membersChars ms)
  | [], _ => .nil
  | [(k, v)], h => (arePrinted_stringChars k).append
    (.cons (by decide) (arePrinted_chars v (Bool.and_eq_true_iff.mp h).1))
  | (k, v) :: m :: ms, h => by
    obtain ⟨hv, hms⟩ := Bool.and_eq_true_iff.mp h
    exact ((arePrinted_stringChars k).append (.cons (by decide) (arePrinted_chars v hv))).append
      (.cons (by decide) (arePrinted_membersChars (m :: ms) hms))

end

theorem newline_notMem_text {v : Value} (h : v.isExact = true) : '\n' ∉ v.text.toList := by
  rw [text, String.toList_ofList]
  exact (arePrinted_chars v h).newline_notMem

theorem ofBytes_line {v : Value} (h : v.isExact = true) :
    Document.ofBytes (encode (v.text ++ "\n")) = ⟨v.node, false⟩ := by
  have hend : Stops [0x0A] := stops_cons (.inl rfl)
  have hscan := scanValue_laid .compact v 0 (3 * (bytes (v.laid .compact 0) ++ [0x0A]).length + 3)
    [0x0A] h hend (by rw [List.length_append]; omega)
  have hbytes : encode (v.text ++ "\n") = bytes (v.laid .compact 0) ++ [0x0A] := by
    rw [encode_eq_bytes, String.toList_append, bytes_append, text, String.toList_ofList,
      ← laid_compact v 0]
    rfl
  rw [Document.ofBytes, hbytes, hscan]
  rfl

end Value

/-- A document with the end of its line behind it is read like the document. -/
theorem Decoder.Reads.line {α : Type} {dec : Decoder α} {n : ℕ} {v : Value} {a : α}
    (h : dec.Reads n v a) (hn : n < depthLimit) : dec.ofString (v.text ++ "\n") = .ok a := by
  rw [ofString, ofBytes, Value.ofBytes_line h.isExact, document, h.reads depthLimit hn]
  rfl

end ContainerPorts.Json
