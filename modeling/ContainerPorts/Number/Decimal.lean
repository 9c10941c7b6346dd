/-!
# Decimals

A decimal is a sign, a whole number and a power of ten. A literal of one has
digits, perhaps a point with digits behind it, and perhaps an exponent.
-/
namespace ContainerPorts

/-- The number `± digits · 10 ^ power`. -/
structure Decimal where
  negative : Bool
  digits : Nat
  power : Int
  deriving DecidableEq, Repr, Inhabited

namespace Decimal

/-- A sign, if there is one, and the rest. -/
def takeSign : List Char → Bool × List Char
  | '-' :: cs => (true, cs)
  | '+' :: cs => (false, cs)
  | cs => (false, cs)

/-- The value of the digits at the beginning, how many they are, and the rest. -/
def takeDigits (cs : List Char) : Nat × Nat × List Char :=
  let ds := cs.takeWhile Char.isDigit
  (Nat.ofDigitChars 10 ds 0, ds.length, cs.dropWhile Char.isDigit)

/-- The exponent that makes up a whole text. -/
def exponent? : List Char → Option Int
  | [] => some 0
  | c :: cs =>
    if c = 'e' ∨ c = 'E' then
      let (negative, cs) := takeSign cs
      match takeDigits cs with
      | (v, _ + 1, []) => some (if negative then -(v : Int) else v)
      | _ => none
    else none

def ofChars? (cs : List Char) : Option Decimal :=
  let (negative, cs) := takeSign cs
  match takeDigits cs with
  | (_, 0, _) => none
  | (whole, _ + 1, '.' :: cs) =>
    match takeDigits cs with
    | (_, 0, _) => none
    | (fraction, places + 1, cs) => (exponent? cs).map fun e =>
      ⟨negative, whole * Nat.pow 10 (places + 1) + fraction, e - (places + 1 : Nat)⟩
  | (whole, _ + 1, cs) => (exponent? cs).map fun e => ⟨negative, whole, e⟩

/-- The text without an exponent. -/
def text (d : Decimal) : String :=
  let ds := Nat.toDigits 10 d.digits
  let places := (-d.power).toNat
  let padded := List.replicate (places + 1 - ds.length) '0' ++ ds
  let whole := padded.take (padded.length - places) ++ List.replicate d.power.toNat '0'
  let fraction := padded.drop (padded.length - places)
  String.ofList ((if d.negative then ['-'] else []) ++ whole ++
    if fraction = [] then [] else '.' :: fraction)

example : (ofChars? "-12.50e3".toList).map text = some "-12500" := by decide +kernel

end Decimal

end ContainerPorts
