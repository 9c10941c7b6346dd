import ContainerPorts.Table
import ContainerPorts.Text.Numeral
/-!
# JSON values and their text

An object keeps its members in the order given. Text is written without blanks,
or over several lines with two spaces for each level. A decimal is kept as it
was written, because no arithmetic is ever done on it.
-/
namespace ContainerPorts.Json

inductive Value where
  | null
  | bool (b : Bool)
  | integer (n : Int)
  | decimal (literal : String)
  | string (s : String)
  | array (items : List Value)
  | object (members : List (String × Value))
  deriving Repr, Inhabited

namespace Value

instance : Coe String Value := ⟨.string⟩

instance : Coe Bool Value := ⟨.bool⟩

def nat (n : Nat) : Value := .integer n

instance : Coe Nat Value := ⟨nat⟩

def strings (ss : List String) : Value := .array (ss.map .string)

/-- The value, or null. -/
def optional (o : Option String) : Value :=
  match o with
  | some s => .string s
  | none => .null

/-- The member `name`, left out when there is no value. -/
def present (name : String) (v : Option Value) : List (String × Value) :=
  match v with
  | some v => [(name, v)]
  | none => []

/-! ### Text -/

/-- A control character has a short escape or its number in four digits. -/
def escapedChar (c : Char) : List Char :=
  if c = '"' then ['\\', '"']
  else if c = '\\' then ['\\', '\\']
  else if c = '\x08' then ['\\', 'b']
  else if c = '\x0c' then ['\\', 'f']
  else if c = '\n' then ['\\', 'n']
  else if c = '\r' then ['\\', 'r']
  else if c = '\t' then ['\\', 't']
  else if c.toNat < 32 then '\\' :: 'u' :: Text.lowerHex 4 c.toNat
  else [c]

def stringChars (s : String) : List Char := '"' :: s.toList.flatMap escapedChar ++ ['"']

def integerChars (n : Int) : List Char :=
  if n < 0 then '-' :: Nat.toDigits 10 n.natAbs else Nat.toDigits 10 n.natAbs

mutual

def chars : Value → List Char
  | .null => "null".toList
  | .bool true => "true".toList
  | .bool false => "false".toList
  | .integer n => integerChars n
  | .decimal literal => literal.toList
  | .string s => stringChars s
  | .array items => '[' :: itemsChars items ++ [']']
  | .object members => '\x7b' :: membersChars members ++ ['\x7d']

def itemsChars : List Value → List Char
  | [] => []
  | [v] => v.chars
  | v :: vs => v.chars ++ ',' :: itemsChars vs

def membersChars : List (String × Value) → List Char
  | [] => []
  | [(k, v)] => stringChars k ++ ':' :: v.chars
  | (k, v) :: ms => stringChars k ++ ':' :: v.chars ++ ',' :: membersChars ms

end

def text (v : Value) : String := String.ofList v.chars

def newline (level : Nat) : List Char := '\n' :: List.replicate (2 * level) ' '

mutual

/-- The text over several lines, inside `level` containers. -/
def linesChars (level : Nat) : Value → List Char
  | .array (v :: vs) => '[' :: itemLines (level + 1) (v :: vs) ++ newline level ++ [']']
  | .object (m :: ms) =>
    '\x7b' :: memberLines (level + 1) (m :: ms) ++ newline level ++ ['\x7d']
  | v => v.chars

def itemLines (level : Nat) : List Value → List Char
  | [] => []
  | [v] => newline level ++ v.linesChars level
  | v :: vs => newline level ++ v.linesChars level ++ ',' :: itemLines level vs

def memberLines (level : Nat) : List (String × Value) → List Char
  | [] => []
  | [(k, v)] => newline level ++ stringChars k ++ ':' :: ' ' :: v.linesChars level
  | (k, v) :: ms =>
    newline level ++ stringChars k ++ ':' :: ' ' :: v.linesChars level ++
      ',' :: memberLines level ms

end

def lines (v : Value) : String := String.ofList (v.linesChars 0)

end Value

end ContainerPorts.Json
