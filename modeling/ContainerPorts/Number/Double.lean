import ContainerPorts.Number.Decimal
/-!
# Numbers of double precision

A finite number has a significand of at most 53 bits and an exponent between
-1074 and 971. All arithmetic on them is exact: a decimal is rounded to the
nearest number, with a tie going to the even significand, and a number is
written with the fewest digits that are rounded back to it.
-/
namespace ContainerPorts

inductive Double where
  /-- The number `± significand · 2 ^ exponent`. -/
  | finite (negative : Bool) (significand : Nat) (exponent : Int)
  | infinite (negative : Bool)
  | undefined
  deriving DecidableEq, Repr, Inhabited

namespace Double

/-- Number of bits of a significand. -/
def precision : Nat := 53

def minExponent : Int := -1074

def maxExponent : Int := 971

/-- The whole number nearest to a quotient; a half goes to the even one. -/
def roundDiv (num den : Nat) : Nat :=
  let q := num / den
  let twice := 2 * (num % den)
  if twice < den then q
  else if den < twice then q + 1
  else q + q % 2

@[simp] theorem roundDiv_mul (n : Nat) {den : Nat} (h : 0 < den) : roundDiv (n * den) den = n := by
  simp [roundDiv, Nat.mul_div_cancel n h, h]

/-- The quotient over a power of two, as a numerator and a denominator. -/
def scaled (num den : Nat) (exponent : Int) : Nat × Nat :=
  (num * Nat.pow 2 (-exponent).toNat, den * Nat.pow 2 exponent.toNat)

/-- The number nearest to a positive quotient. -/
def ofQuotient (negative : Bool) (num den : Nat) : Double :=
  let low : Int := (num.log2 : Int) - den.log2 - precision
  let (n, d) := scaled num den low
  let fitting := if n / d < Nat.pow 2 precision then low else low + 1
  let exponent := max fitting minExponent
  let (n, d) := scaled num den exponent
  let significand := roundDiv n d
  let (significand, exponent) :=
    if significand < Nat.pow 2 precision then (significand, exponent)
    else (significand / 2, exponent + 1)
  if maxExponent < exponent then .infinite negative else .finite negative significand exponent

/-- The number nearest to a decimal. -/
def ofDecimal (d : Decimal) : Double :=
  let places : Int := (Nat.toDigits 10 d.digits).length + d.power
  if d.digits = 0 ∨ places < -330 then .finite d.negative 0 0
  else if 310 < places then .infinite d.negative
  else ofQuotient d.negative (d.digits * Nat.pow 10 d.power.toNat) (Nat.pow 10 (-d.power).toNat)

/-! ### Shortest decimals -/

/-- The reals that are rounded to a positive number, in quarters of its last place. -/
structure Basin where
  low : Nat
  value : Nat
  high : Nat
  /-- Whether the two ends belong to it. -/
  closed : Bool

def basin (significand : Nat) (exponent : Int) : Basin :=
  { low := if significand = Nat.pow 2 (precision - 1) ∧ minExponent < exponent
      then 4 * significand - 1 else 4 * significand - 2
    value := 4 * significand
    high := 4 * significand + 2
    closed := significand % 2 = 0 }

def Basin.contains (b : Basin) (num den : Nat) : Bool :=
  if b.closed then b.low * den ≤ num && num ≤ b.high * den
  else b.low * den < num && num < b.high * den

/-- The multiple of `10 ^ power` in the basin that is nearest to the value. -/
def nearest? (b : Basin) (exponent : Int) (power : Int) : Option Nat :=
  let quarter := exponent - 2
  let up := Nat.pow 2 quarter.toNat * Nat.pow 10 (-power).toNat
  let down := Nat.pow 2 (-quarter).toNat * Nat.pow 10 power.toNat
  let n := b.value * up / down
  let holds := fun (k : Nat) => b.contains (k * down) up
  match holds n, holds (n + 1) with
  | false, false => none
  | true, false => some n
  | false, true => some (n + 1)
  | true, true => some (roundDiv (b.value * up) down)

/-- The first of so many powers, from `power` down, that has a multiple in the basin. -/
def search (b : Basin) (exponent : Int) : Nat → Int → Nat × Int
  | 0, power => (0, power)
  | fuel + 1, power =>
    match nearest? b exponent power with
    | some n => (n, power)
    | none => search b exponent fuel (power - 1)

/-- The decimal with the fewest digits that is rounded back to a number. -/
def shortest (negative : Bool) (significand : Nat) (exponent : Int) : Decimal :=
  if significand = 0 then ⟨negative, 0, 0⟩
  else
    let (digits, power) := search (basin significand exponent) exponent 650 309
    ⟨negative, digits, power⟩

/-! ### Uses -/

def isZero : Double → Bool
  | .finite _ significand _ => significand = 0
  | _ => false

def text : Double → String
  | .finite negative significand exponent => (shortest negative significand exponent).text
  | .infinite true => "-inf"
  | .infinite false => "inf"
  | .undefined => "NaN"

/-- The whole number nearest to a number, between zero and `bound`; a half goes up. -/
def toCount (bound : Nat) : Double → Nat
  | .finite true _ _ => 0
  | .finite false significand exponent =>
    let (n, d) := (significand * Nat.pow 2 exponent.toNat, Nat.pow 2 (-exponent).toNat)
    min bound ((2 * n + d) / (2 * d))
  | .infinite true => 0
  | .infinite false => bound
  | .undefined => 0

/-- A tenth is not exact, but reads back from one digit; a tie goes to the even significand. -/
example : text (ofDecimal ⟨false, 1, -1⟩) = "0.1" ∧
    ofDecimal ⟨false, 9007199254740993, 0⟩ = ofDecimal ⟨false, 9007199254740992, 0⟩ := by
  decide +kernel

end Double

end ContainerPorts
