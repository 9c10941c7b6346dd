/-!
# Reading whole numbers

A numeral is a run of decimal digits. Leading zeros are harmless, and so is one
plus sign where `readCount?` reads; the value must not pass a given bound.
-/
namespace ContainerPorts.Text

/-- The value of a nonempty run of decimal digits, if it is at most `bound`. -/
def readDigits? (bound : Nat) (cs : List Char) : Option Nat :=
  if cs ≠ [] ∧ cs.all Char.isDigit ∧ Nat.ofDigitChars 10 cs 0 ≤ bound
  then some (Nat.ofDigitChars 10 cs 0)
  else none

/-- As `readDigits?`, after an optional plus sign. -/
def readCount? (bound : Nat) : List Char → Option Nat
  | '+' :: cs => readDigits? bound cs
  | cs => readDigits? bound cs

theorem readDigits?_toDigits {bound n : Nat} (h : n ≤ bound) :
    readDigits? bound (Nat.toDigits 10 n) = some n := by
  have hv : Nat.ofDigitChars 10 (Nat.toDigits 10 n) 0 = n :=
    Nat.ofDigitChars_toDigits (by decide) (by decide)
  have hd : (Nat.toDigits 10 n).all Char.isDigit = true :=
    List.all_eq_true.2 fun _ hc => Nat.isDigit_of_mem_toDigits (by decide) (by decide) hc
  simp [readDigits?, hv, hd, h, Nat.toDigits_ne_nil]

def hexValue? (c : Char) : Option Nat :=
  if '0' ≤ c ∧ c ≤ '9' then some (c.toNat - 48)
  else if 'a' ≤ c ∧ c ≤ 'f' then some (c.toNat - 87)
  else if 'A' ≤ c ∧ c ≤ 'F' then some (c.toNat - 55)
  else none

/-- The least significant `width` digits of `n` in hexadecimal, with letters as given. -/
def hexDigits (letters : Nat) : Nat → Nat → List Char
  | 0, _ => []
  | width + 1, n =>
    hexDigits letters width (n / 16) ++
      [if n % 16 < 10 then Char.ofNat (48 + n % 16) else Char.ofNat (letters + (n % 16 - 10))]

def lowerHex (width n : Nat) : List Char := hexDigits 97 width n

def upperHex (width n : Nat) : List Char := hexDigits 65 width n

end ContainerPorts.Text
