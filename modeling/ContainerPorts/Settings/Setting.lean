import ContainerPorts.Json.Value
import ContainerPorts.Number.Double
import ContainerPorts.Text.Quoted
/-!
# Settings

A setting is a value as it stands in the environment or in a file. Where a flag,
a count or a text is wanted, values of other kinds are taken for one as far as
that makes sense: words such as `yes` are flags, flags and numbers are counts,
and all of them have a text.
-/
namespace ContainerPorts

inductive Setting where
  | nothing
  | flag (b : Bool)
  | integer (n : Int)
  | real (x : Double)
  | text (s : String)
  | list
  | table
  deriving DecidableEq, Repr, Inhabited

/-- What is wanted of a setting. -/
inductive Wanted where
  | flag
  | count
  | text
  deriving DecidableEq, Repr

namespace Setting

/-- Largest count. -/
def countBound : Nat := Nat.pow 2 64 - 1

def trueWords : List String := ["true", "on", "yes"]

def falseWords : List String := ["false", "off", "no"]

/-- The flag that a word in any case stands for. -/
def wordFlag? (s : String) : Option Bool :=
  if s.toLower ∈ trueWords then some true
  else if s.toLower ∈ falseWords then some false
  else none

def toFlag? : Setting → Option Bool
  | .flag b => some b
  | .integer n => some (n ≠ 0)
  | .real x => some !x.isZero
  | .text "1" => some true
  | .text "0" => some false
  | .text s => wordFlag? s
  | _ => none

def toCount? : Setting → Option Nat
  | .flag b => some b.toNat
  | .integer n => if n < 0 then none else some n.toNat
  | .real x => some (x.toCount countBound)
  | .text s =>
    match wordFlag? s with
    | some b => some b.toNat
    | none => Text.readCount? countBound s.toList
  | _ => none

def toText? : Setting → Option String
  | .flag b => some (if b then "true" else "false")
  | .integer n => some (Json.Value.text (.integer n))
  | .real x => some x.text
  | .text s => some s
  | _ => none

/-- The bound of the integers that have a sign and 64 bits. -/
def signedBound : Nat := Nat.pow 2 63

def isSigned64 (n : Int) : Bool := -(signedBound : Int) ≤ n && n < signedBound

@[simp] theorem toText?_text (s : String) : (text s).toText? = some s := rfl

@[simp] theorem toCount?_flag (b : Bool) : (flag b).toCount? = some b.toNat := rfl

/-- Numbers that need more than 64 bits and a sign are kept with double precision. -/
def ofInteger (n : Int) : Setting :=
  if isSigned64 n then .integer n
  else .real (.ofDecimal ⟨n < 0, n.natAbs, 0⟩)

def ofJson : Json.Value → Setting
  | .null => .nothing
  | .bool b => .flag b
  | .integer n => ofInteger n
  | .decimal literal =>
    match Decimal.ofChars? literal.toList with
    | some d => .real (.ofDecimal d)
    | none => .real .undefined
  | .string s => .text s
  | .array _ => .list
  | .object _ => .table

/-! ### Reports -/

/-- What a setting is called in a report. -/
def description : Setting → String
  | .nothing => "unit value"
  | .flag b => "boolean `" ++ (if b then "true" else "false") ++ "`"
  | .integer n => "integer `" ++ Json.Value.text (.integer n) ++ "`"
  | .real x => "floating point `" ++ x.text ++ "`"
  | .text s => "string " ++ Text.quoted s
  | .list => "sequence"
  | .table => "map"

end Setting

def Wanted.description : Wanted → String
  | .flag => "a boolean"
  | .count => "an integer"
  | .text => "a string"

end ContainerPorts
