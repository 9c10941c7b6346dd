import ContainerPorts.Json.Tree
import ContainerPorts.Json.Value
import ContainerPorts.Proofs.Text.Encoding

/-!
# Whole numbers are read back

A whole number is written without leading zeros. The reader takes its digits up to
what follows, if that does not go on like a number.
-/
namespace ContainerPorts.Json

open Utf8

/-- What can follow a value: a blank, a comma, a closing bracket, or nothing. -/
def Stops (rest : Bytes) : Prop :=
  ∀ b t, rest = b :: t → isBlankByte b = true ∨ b = 0x2C ∨ b = 0x5D ∨ b = 0x7D

theorem stops_nil : Stops [] := nofun

theorem stops_cons {b : UInt8} {t : Bytes}
    (h : isBlankByte b = true ∨ b = 0x2C ∨ b = 0x5D ∨ b = 0x7D) : Stops (b :: t) := by
  rintro b' t' ⟨rfl, rfl⟩
  exact h

/-- What follows a value does not go on like a number. -/
theorem Stops.unlike_number {rest : Bytes} (h : Stops rest) {b : UInt8} {t : Bytes}
    (hb : rest = b :: t) : isDigitByte b = false ∧ b ≠ 0x2E ∧ ¬ (b = 0x65 ∨ b = 0x45) := by
  have hcases : ((b = 0x20 ∨ b = 0x0A) ∨ b = 0x0D) ∨ b = 0x09 ∨ b = 0x2C ∨ b = 0x5D ∨ b = 0x7D := by
    simpa [isBlankByte, or_assoc] using h b t hb
  rcases hcases with ((rfl | rfl) | rfl) | rfl | rfl | rfl | rfl <;> decide

theorem isDigitByte_ofNat {c : Char} (h : c.isDigit = true) :
    String.utf8EncodeChar c = [UInt8.ofNat c.toNat] ∧ isDigitByte (UInt8.ofNat c.toNat) = true ∧
      Char.ofNat (UInt8.ofNat c.toNat).toNat = c := by
  have hc : 48 ≤ c.toNat ∧ c.toNat ≤ 57 := by
    simpa [Char.isDigit, UInt32.le_iff_toNat_le] using h
  have hnat : (UInt8.ofNat c.toNat).toNat = c.toNat := by
    rw [UInt8.toNat_ofNat', Nat.mod_eq_of_lt (by omega)]
  refine ⟨utf8EncodeChar_of_lt (by omega), ?_, by rw [hnat, Char.ofNat_toNat]⟩
  simp only [isDigitByte, Bool.and_eq_true, decide_eq_true_eq, UInt8.le_iff_toNat_le, hnat]
  exact hc

theorem takeDigits_bytes {ds : List Char} (hds : ∀ c ∈ ds, c.isDigit = true) {rest : Bytes}
    (hrest : Stops rest) : takeDigits (bytes ds ++ rest) = (ds, rest) := by
  induction ds with
  | nil =>
    cases rest with
    | nil => rfl
    | cons b t => simp [takeDigits, (hrest.unlike_number rfl).1]
  | cons c ds ih =>
    obtain ⟨hc, hds⟩ := List.forall_mem_cons.mp hds
    obtain ⟨hbytes, hdigit, hback⟩ := isDigitByte_ofNat hc
    rw [bytes_cons, hbytes, List.append_assoc, List.singleton_append, takeDigits, if_pos hdigit,
      ih hds, hback]

/-- The digits of a number other than zero begin with no zero. -/
theorem head?_toDigits_ne {n : ℕ} (h : 0 < n) : (Nat.toDigits 10 n).head? ≠ some '0' := by
  induction n using Nat.strongRecOn with
  | ind n ih =>
    rw [Nat.toDigits_eq_if (by decide)]
    split_ifs with hsmall
    · have hdigits : ∀ n < 10, 0 < n → [Nat.digitChar n].head? ≠ some '0' := by decide
      exact hdigits n hsmall h
    · have hfirst := ih (n / 10) (Nat.div_lt_self h (by decide)) (by omega)
      obtain ⟨c, cs, hdigits⟩ :=
        List.exists_cons_of_ne_nil (Nat.toDigits_ne_nil (b := 10) (n := n / 10))
      rw [hdigits] at hfirst ⊢
      exact hfirst

theorem toDigits_ne_zero_cons (n : ℕ) (c : Char) (cs : List Char) :
    Nat.toDigits 10 n ≠ '0' :: c :: cs := by
  intro h
  rcases Nat.eq_zero_or_pos n with rfl | hn
  · cases h
  · exact head?_toDigits_ne hn (by rw [h]; rfl)

/-- The digits of a number are read, and nothing of what follows. -/
theorem scanNumber_toDigits (negative : Bool) (n : ℕ) {rest : Bytes} (hrest : Stops rest) :
    scanNumber negative (bytes (Nat.toDigits 10 n) ++ rest) =
      .whole (.number ⟨negative, Nat.toDigits 10 n, [], none⟩) rest := by
  have hdigits : ∀ c ∈ Nat.toDigits 10 n, c.isDigit = true := fun c hc =>
    Nat.isDigit_of_mem_toDigits (by decide) (by decide) hc
  have hfraction (m : Numeral) : scanFraction m rest = .whole (.number m) rest := by
    cases rest with
    | nil => rfl
    | cons b t =>
      obtain ⟨-, hpoint, hexponent⟩ := hrest.unlike_number rfl
      simp [scanFraction, scanExponent, hpoint, hexponent]
  rw [scanNumber, takeDigits_bytes hdigits hrest]
  split
  · rename_i h
    cases Nat.toDigits_ne_nil (Prod.mk.inj h).1
  · rename_i h
    cases toDigits_ne_zero_cons _ _ _ (Prod.mk.inj h).1
  · rename_i h
    obtain ⟨rfl, rfl⟩ := Prod.mk.inj h
    exact hfraction _

end ContainerPorts.Json
