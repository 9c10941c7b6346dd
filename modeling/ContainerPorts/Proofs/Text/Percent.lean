import ContainerPorts.Proofs.Text.Encoding
import ContainerPorts.Text.Percent
import Mathlib.Data.List.Basic

/-!
# Percent encoding is read back

A byte that is written as a percent sign and two digits is read as that byte again, and any
byte but that of a percent sign is read as it is. So a text is read back whichever of its
characters are kept, if the percent sign is not. If it is kept, then what is read is what the text
itself would be read as, which is a shorter text, or the same.
-/
namespace ContainerPorts.Percent

open Utf8

/-- A hexadecimal digit, with a capital letter. -/
def upperDigit (n : ℕ) : Char := if n < 10 then Char.ofNat (48 + n) else Char.ofNat (65 + (n - 10))

theorem encodeByte_eq (b : UInt8) :
    encodeByte b = ['%', upperDigit (b.toNat / 16 % 16), upperDigit (b.toNat % 16)] := rfl

theorem upperDigit_spec (n : Fin 16) : (upperDigit n).isAlphanum = true ∧
    bytes [upperDigit n] = [UInt8.ofNat (upperDigit n).toNat] ∧
      Text.hexValue? (Char.ofNat (UInt8.ofNat (upperDigit n).toNat).toNat) = some n.val := by
  decide +revert

theorem isAlphanum_of_mem_encodeByte {b : UInt8} {c : Char} (h : c ∈ encodeByte b) (hc : c ≠ '%') :
    c.isAlphanum = true := by
  rw [encodeByte_eq] at h
  simp only [List.mem_cons, List.not_mem_nil, or_false, hc, false_or] at h
  rcases h with rfl | rfl
  · exact (upperDigit_spec ⟨_, Nat.mod_lt _ (by decide)⟩).1
  · exact (upperDigit_spec ⟨_, Nat.mod_lt _ (by decide)⟩).1

theorem decode_cons_of_ne {a : UInt8} (h : a ≠ 0x25) (rest : Bytes) :
    decode (a :: rest) = a :: decode rest := by
  match rest with
  | [] => rfl
  | [b] => rfl
  | b :: c :: rest => rw [decode, if_neg h]

theorem decode_append_of_notMem {bs : Bytes} (h : 0x25 ∉ bs) (rest : Bytes) :
    decode (bs ++ rest) = bs ++ decode rest := by
  induction bs with
  | nil => rfl
  | cons b bs ih =>
    rw [List.mem_cons, not_or] at h
    rw [List.cons_append, decode_cons_of_ne (Ne.symm h.1), ih h.2, List.cons_append]

theorem decode_encodeByte (b : UInt8) (rest : Bytes) :
    decode (bytes (encodeByte b) ++ rest) = b :: decode rest := by
  obtain ⟨-, hhigh, hhigh'⟩ := upperDigit_spec ⟨b.toNat / 16 % 16, Nat.mod_lt _ (by decide)⟩
  obtain ⟨-, hlow, hlow'⟩ := upperDigit_spec ⟨b.toNat % 16, Nat.mod_lt _ (by decide)⟩
  have hbytes : bytes (encodeByte b) = 0x25 :: (bytes [upperDigit (b.toNat / 16 % 16)] ++
      bytes [upperDigit (b.toNat % 16)]) := by
    rw [encodeByte_eq, ← bytes_append]
    rfl
  have hvalue : 16 * (b.toNat / 16 % 16) + b.toNat % 16 = b.toNat := by
    have hb : b.toNat < 256 := UInt8.toNat_lt b
    omega
  rw [hbytes, hhigh, hlow]
  simp only [List.cons_append, List.nil_append, decode, if_true, hexByte?, hhigh', hlow', bind,
    Option.bind, pure, hvalue, UInt8.ofNat_toNat]

theorem decode_flatMap_encodeByte (bs rest : Bytes) :
    decode (bytes (bs.flatMap encodeByte) ++ rest) = bs ++ decode rest := by
  induction bs with
  | nil => rfl
  | cons b bs ih =>
    rw [List.flatMap_cons, bytes_append, List.append_assoc, decode_encodeByte, ih, List.cons_append]

/-- A percent sign is the only character with its byte. -/
theorem notMem_utf8EncodeChar {c : Char} (h : c ≠ '%') : 0x25 ∉ String.utf8EncodeChar c :=
  fun hmem => h (Char.toNat_inj.mp (toNat_of_mem_utf8EncodeChar hmem (by decide)))

theorem decode_encodeChar {keep : Char → Bool} {c : Char} (hc : keep c = true → c ≠ '%')
    (rest : Bytes) :
    decode (bytes (encodeChar keep c) ++ rest) = String.utf8EncodeChar c ++ decode rest := by
  rw [encodeChar]
  split
  · rename_i hkeep
    rw [bytes_cons, bytes_nil, List.append_nil,
      decode_append_of_notMem (notMem_utf8EncodeChar (hc hkeep))]
  · exact decode_flatMap_encodeByte _ rest

theorem decodeText?_ofList_eq_some_iff {cs : List Char} {s : String} :
    decodeText? (String.ofList cs) = some s ↔ decode (bytes cs) = Utf8.encode s := by
  rw [decodeText?, encode_ofList, decode?_eq_some_iff]

/-! ### What is read without having been written -/

def isHexDigit (c : Char) : Bool := (Text.hexValue? c).isSome

theorem toNat_lt_of_isHexDigit {c : Char} (h : isHexDigit c = true) : c.toNat < 128 := by
  by_contra hlarge
  have above {m : Char} (hm : m.toNat < 128) : ¬ c ≤ m := fun hle =>
    hlarge (Nat.lt_of_le_of_lt (Char.le_def.mp hle) hm)
  have h9 := above (m := '9') (by decide)
  have hf := above (m := 'f') (by decide)
  have hF := above (m := 'F') (by decide)
  simp [isHexDigit, Text.hexValue?, h9, hf, hF] at h

theorem lt_of_isHexDigit {b : UInt8} (h : isHexDigit (Char.ofNat b.toNat) = true) : b < 0x80 := by
  have hsmall : ∀ n : Fin 256, isHexDigit (Char.ofNat n) = true → n.val < 128 := by
    decide +kernel
  exact UInt8.lt_iff_toNat_lt.mpr (hsmall ⟨b.toNat, UInt8.toNat_lt b⟩ h)

/-- The byte that two digits at the beginning stand for, and what follows them. -/
def escaped? : Bytes → Option (UInt8 × Bytes)
  | b :: c :: rest => (hexByte? b c).map fun x => (x, rest)
  | _ => none

theorem decode_percent (rest : Bytes) : decode (0x25 :: rest) = match escaped? rest with
    | some (x, rest) => x :: decode rest
    | none => 0x25 :: decode rest := by
  match rest with
  | [] => rfl
  | [b] => rfl
  | b :: c :: rest =>
    rw [decode, if_pos rfl, escaped?]
    cases hexByte? b c <;> rfl

theorem hexByte?_isSome_iff {b c : UInt8} : (hexByte? b c).isSome = true ↔
    isHexDigit (Char.ofNat b.toNat) = true ∧ isHexDigit (Char.ofNat c.toNat) = true := by
  unfold hexByte? isHexDigit
  cases Text.hexValue? (Char.ofNat b.toNat) <;> cases Text.hexValue? (Char.ofNat c.toNat) <;> simp

/-- A digit that begins the bytes of a text begins the text. -/
theorem exists_digit {cs : List Char} {b : UInt8} {rest : Bytes} (h : bytes cs = b :: rest)
    (hb : isHexDigit (Char.ofNat b.toNat) = true) :
    ∃ a ds, isHexDigit a = true ∧ String.utf8EncodeChar a = [b] ∧ cs = a :: ds ∧
      bytes ds = rest := by
  cases cs with
  | nil => cases h
  | cons a ds =>
    have hmem : b ∈ String.utf8EncodeChar a := by
      cases ha : String.utf8EncodeChar a with
      | nil => exact absurd ha (by simp)
      | cons b' bs =>
        rw [bytes_cons, ha, List.cons_append] at h
        rw [(List.cons.inj h).1]
        exact List.mem_cons_self
    have hsmall := lt_of_isHexDigit hb
    have hnat := toNat_of_mem_utf8EncodeChar hmem hsmall
    have ha : String.utf8EncodeChar a = [b] := by
      rw [utf8EncodeChar_of_lt (hnat ▸ UInt8.lt_iff_toNat_lt.mp hsmall), hnat, UInt8.ofNat_toNat]
    rw [← hnat, Char.ofNat_toNat] at hb
    rw [bytes_cons, ha] at h
    exact ⟨a, ds, hb, ha, rfl, (List.cons.inj h).2⟩

/-- Digits that begin the bytes of a text begin the text. -/
theorem exists_digits {cs : List Char} {x : UInt8} {rest : Bytes}
    (h : escaped? (bytes cs) = some (x, rest)) : ∃ a b ds, cs = a :: b :: ds ∧
      isHexDigit a = true ∧ isHexDigit b = true ∧ bytes ds = rest ∧
        ∀ es, escaped? (bytes (a :: b :: es)) = some (x, bytes es) := by
  match hbytes : bytes cs, h with
  | b :: c :: rest', h =>
    obtain ⟨y, hy, hrest⟩ := Option.map_eq_some_iff.mp h
    obtain ⟨hb, hc⟩ := hexByte?_isSome_iff.mp (Option.isSome_iff_exists.mpr ⟨y, hy⟩)
    obtain ⟨a, es, ha, habytes, rfl, hes⟩ := exists_digit hbytes hb
    obtain ⟨a', ds, ha', habytes', rfl, hds⟩ := exists_digit hes hc
    refine ⟨a, a', ds, rfl, ha, ha', hds.trans (congrArg Prod.snd hrest), fun es => ?_⟩
    obtain rfl : y = x := congrArg Prod.fst hrest
    simp only [bytes_cons, habytes, habytes', List.cons_append, List.nil_append, escaped?, hy]
    rfl

variable {keep : Char → Bool}

theorem encode_cons_of_keep {c : Char} (hc : keep c = true) (cs : List Char) :
    encode keep (c :: cs) = c :: encode keep cs := by
  rw [encode, List.flatMap_cons, encodeChar, if_pos hc]
  rfl

/-- A digit that begins a text that was written was kept. -/
theorem exists_of_encode_eq {a : Char} {cs ds : List Char} (ha : isHexDigit a = true)
    (h : encode keep cs = a :: ds) : ∃ es, cs = a :: es ∧ encode keep es = ds := by
  cases cs with
  | nil => cases h
  | cons c es =>
    rw [encode, List.flatMap_cons, encodeChar] at h
    split at h
    · obtain ⟨rfl, hds⟩ := List.cons.inj h
      exact ⟨es, rfl, hds⟩
    · -- What is not kept begins with a percent sign.
      cases hbytes : String.utf8EncodeChar c with
      | nil => exact absurd hbytes (by simp)
      | cons b bs =>
        rw [hbytes, List.flatMap_cons, encodeByte_eq] at h
        obtain rfl := (List.cons.inj h).1
        exact absurd ha (by decide)

/-- A text that was written is read as the text itself is read, if percent signs and digits are
kept. -/
theorem decode_bytes_encode (hpercent : keep '%' = true)
    (hdigits : ∀ c, isHexDigit c = true → keep c = true) (cs : List Char) :
    decode (bytes (encode keep cs)) = decode (bytes cs) := by
  induction hn : cs.length using Nat.strongRecOn generalizing cs with
  | ind n ih =>
    subst hn
    cases cs with
    | nil => rfl
    | cons c cs =>
      have hrest := ih cs.length (Nat.lt_succ_self _) cs rfl
      by_cases hc : c = '%'
      · subst hc
        have hmark (ds : List Char) : bytes ('%' :: ds) = 0x25 :: bytes ds := rfl
        rw [encode_cons_of_keep hpercent, hmark, hmark, decode_percent, decode_percent]
        cases hescaped : escaped? (bytes cs) with
        | some xr =>
          obtain ⟨a, b, ds, rfl, ha, hb, hds, hread⟩ := exists_digits hescaped
          rw [encode_cons_of_keep (hdigits a ha), encode_cons_of_keep (hdigits b hb), hread]
          exact congrArg (xr.1 :: ·) ((ih ds.length (by simp; omega) ds rfl).trans (by rw [hds]))
        | none =>
          cases hwritten : escaped? (bytes (encode keep cs)) with
          | none => exact congrArg (0x25 :: ·) hrest
          | some xr =>
            obtain ⟨a, b, ds, heq, ha, hb, -, hread⟩ := exists_digits hwritten
            obtain ⟨es, rfl, hes⟩ := exists_of_encode_eq ha heq
            obtain ⟨fs, rfl, -⟩ := exists_of_encode_eq hb hes
            rw [hread] at hescaped
            cases hescaped
      · have hchar (rest : Bytes) : decode (bytes (encodeChar keep c) ++ rest) =
            String.utf8EncodeChar c ++ decode rest := decode_encodeChar (fun _ => hc) rest
        rw [encode, List.flatMap_cons, bytes_append, hchar, bytes_cons,
          decode_append_of_notMem (notMem_utf8EncodeChar hc)]
        exact congrArg (String.utf8EncodeChar c ++ ·) hrest

/-- Reading shortens a text unless it leaves it as it is. -/
theorem decode_eq_or_length_lt (bs : Bytes) :
    decode bs = bs ∨ (decode bs).length < bs.length := by
  have step {b : UInt8} {cs : Bytes} (h : decode cs = cs ∨ (decode cs).length < cs.length) :
      b :: decode cs = b :: cs ∨ (b :: decode cs).length < (b :: cs).length :=
    h.imp (congrArg (b :: ·)) Nat.succ_lt_succ
  fun_induction decode bs with
  | case1 => exact .inl rfl
  | case2 b c rest x hx ih =>
    right
    have hle : (decode rest).length ≤ rest.length :=
      ih.elim (fun heq => Nat.le_of_eq (congrArg List.length heq)) Nat.le_of_lt
    simp only [List.length_cons]
    omega
  | case3 b c rest hnone ih => exact step ih
  | case4 a b c rest hne ih => exact step ih
  | case5 a rest hshort ih => exact step ih

theorem length_decode_le (bs : Bytes) : (decode bs).length ≤ bs.length :=
  (decode_eq_or_length_lt bs).elim (fun heq => Nat.le_of_eq (congrArg List.length heq))
    Nat.le_of_lt

theorem decode_eq_of_length_le {bs : Bytes} (h : bs.length ≤ (decode bs).length) :
    decode bs = bs := (decode_eq_or_length_lt bs).resolve_right (Nat.not_lt.mpr h)

end ContainerPorts.Percent
