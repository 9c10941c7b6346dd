import ContainerPorts.Text.Utf8
import ContainerPorts.Text.Numeral
/-!
# JSON text as a tree

A text that goes wrong somewhere still has a beginning, and what a document is
rejected for depends on what was wanted where. So reading never fails: it gives
a tree of everything up to the point where the text breaks off, and the tree
records there what is wrong. Some faults concern only those who want the value
and not those who skip it: a string that is no text, a number that is too large.
-/
namespace ContainerPorts.Json

/-- Why a text is not the wanted document: it breaks the rules of JSON, it ends
too early, or it holds something else than what was wanted. -/
inductive Fault where
  | malformed
  | truncated
  | mismatched
  deriving DecidableEq, Repr, Inhabited

def Fault.message : Fault → String
  | .malformed => "<json:syntax>"
  | .truncated => "<json:eof>"
  | .mismatched => "<json:data>"

/-- The fault at the point where a text breaks off, for one who reads the value
there and for one who skips it. -/
structure Breach where
  read : Fault
  skip : Fault
  deriving DecidableEq, Repr

namespace Breach

def truncated : Breach := ⟨.truncated, .truncated⟩

def malformed : Breach := ⟨.malformed, .malformed⟩

end Breach

/-! ### Numbers -/

structure Numeral where
  negative : Bool
  whole : List Char
  fraction : List Char
  exponent : Option (Bool × List Char)
  deriving DecidableEq, Repr

namespace Numeral

/-- The value of a numeral without fraction and exponent, if it fits into 64 bits. -/
def integer? (n : Numeral) : Option Int :=
  if n.fraction ≠ [] ∨ n.exponent ≠ none then none
  else
    let v := Nat.ofDigitChars 10 n.whole 0
    if !n.negative then (if v < Nat.pow 2 64 then some v else none)
    else if 0 < v ∧ v ≤ Nat.pow 2 63 then some (-(v : Int)) else none

/-- A text of the numeral that has a fraction or an exponent. -/
def decimal (n : Numeral) : String :=
  let frac := match n.fraction, n.exponent with
    | [], none => ['.', '0']
    | [], some _ => []
    | ds, _ => '.' :: ds
  let exp := match n.exponent with
    | none => []
    | some (true, ds) => 'e' :: '-' :: ds
    | some (false, ds) => 'e' :: ds
  String.ofList ((if n.negative then ['-'] else []) ++ n.whole ++ frac ++ exp)

/-- Whether the numeral rounds to no finite number of double precision. -/
def isTooLarge (n : Numeral) : Bool :=
  let digits := (n.whole ++ n.fraction).dropWhile (· = '0')
  let power : Int := (match n.exponent with
    | none => 0
    | some (true, ds) => -(Nat.ofDigitChars 10 ds 0 : Int)
    | some (false, ds) => Nat.ofDigitChars 10 ds 0) - n.fraction.length
  let places := digits.length + power
  if digits = [] ∨ places < 309 then false
  else if 309 < places then true
  else
    let bound := Nat.pow 2 1024 - Nat.pow 2 970
    let v := Nat.ofDigitChars 10 digits 0
    if 0 ≤ power then bound ≤ v * Nat.pow 10 power.toNat else bound * Nat.pow 10 (-power).toNat ≤ v

end Numeral

/-! ### Trees -/

/-- A string, or the fault met in it by one who wants its text. -/
abbrev Key := Except Fault String

mutual

inductive Node where
  | null
  | bool (b : Bool)
  | number (n : Numeral)
  | string (s : Key)
  | array (items : List Node) (close : Close)
  | object (members : List (Key × Node)) (close : Close)
  /-- The text ends where a value should begin. -/
  | absent
  /-- A string that breaks off. -/
  | cutString (breach : Breach)
  /-- Anything else that is no value, or breaks off. -/
  | broken (breach : Breach)

/-- How a list of items or members ends. -/
inductive Close where
  | closed
  /-- The text breaks off, perhaps right after a comma. -/
  | cut (afterComma : Bool) (breach : Breach)
  /-- Something that is no string stands where a name should. -/
  | stray (afterComma : Bool) (found : Node)

end

instance : Inhabited Node := ⟨.absent⟩

namespace Close

/-- The fault of one who reads on to the end. -/
def fault? : Close → Option Fault
  | .closed => none
  | .cut _ b => some b.read
  | .stray _ _ => some .malformed

/-- The fault of one who skips to the end. -/
def skipFault? : Close → Option Fault
  | .closed => none
  | .cut _ b => some b.skip
  | .stray _ _ => some .malformed

def isAfterComma : Close → Bool
  | .closed => false
  | .cut c _ => c
  | .stray c _ => c

end Close

namespace Node

/-- The fault of one who wants another kind of value than the one that is here. -/
def mismatch : Node → Fault
  | .string (.error f) => f
  | .number n => if n.isTooLarge then .malformed else .mismatched
  | .absent => .truncated
  | .cutString b => b.read
  | .broken b => b.read
  | _ => .mismatched

/-- The fault of one who skips the value, if it breaks off. -/
def skipFault? : Node → Option Fault
  | .array _ close => close.skipFault?
  | .object _ close => close.skipFault?
  | .absent => some .truncated
  | .cutString b => some b.skip
  | .broken b => some b.skip
  | _ => none

end Node

/-- Something read whole, with the rest of the text, or something that breaks off. -/
inductive Scan (α : Type) where
  | whole (value : α) (rest : Bytes)
  | cut (value : α) (breach : Breach)

namespace Scan

def map {α β : Type} (f : α → β) : Scan α → Scan β
  | .whole v rest => .whole (f v) rest
  | .cut v b => .cut (f v) b

end Scan

/-! ### Tokens -/

def isBlankByte (b : UInt8) : Bool := b = 0x20 || b = 0x0A || b = 0x0D || b = 0x09

def skipBlank : Bytes → Bytes
  | [] => []
  | b :: rest => if isBlankByte b then skipBlank rest else b :: rest

def isDigitByte (b : UInt8) : Bool := 0x30 ≤ b && b ≤ 0x39

def takeDigits : Bytes → List Char × Bytes
  | [] => ([], [])
  | b :: rest =>
    if isDigitByte b then
      let (ds, rest) := takeDigits rest
      (Char.ofNat b.toNat :: ds, rest)
    else ([], b :: rest)

/-- The breach where a digit is missing. -/
def digitBreach : Bytes → Breach
  | [] => ⟨.truncated, .malformed⟩
  | _ => .malformed

def scanExponent (n : Numeral) (s : Bytes) : Scan Node :=
  match s with
  | b :: rest =>
    if b = 0x65 ∨ b = 0x45 then
      let (minus, rest) := match rest with
        | c :: rest' => if c = 0x2D then (true, rest') else if c = 0x2B then (false, rest')
          else (false, rest)
        | [] => (false, [])
      match takeDigits rest with
      | ([], rest') => .cut (.broken (digitBreach rest')) (digitBreach rest')
      | (ds, rest') => .whole (.number { n with exponent := some (minus, ds) }) rest'
    else .whole (.number n) s
  | [] => .whole (.number n) []

def scanFraction (n : Numeral) (s : Bytes) : Scan Node :=
  match s with
  | b :: rest =>
    if b = 0x2E then
      match takeDigits rest with
      | ([], rest') => .cut (.broken (digitBreach rest')) (digitBreach rest')
      | (ds, rest') => scanExponent { n with fraction := ds } rest'
    else scanExponent n s
  | [] => .whole (.number n) []

/-- A number whose sign has been read. -/
def scanNumber (negative : Bool) (s : Bytes) : Scan Node :=
  match takeDigits s with
  | ([], rest) => .cut (.broken (digitBreach rest)) (digitBreach rest)
  | ('0' :: _ :: _, _) => .cut (.broken .malformed) .malformed
  | (ds, rest) => scanFraction ⟨negative, ds, [], none⟩ rest

/-- The rest of a word whose first letter has been read. -/
def scanWord (value : Node) : Bytes → Bytes → Scan Node
  | [], s => .whole value s
  | _ :: _, [] => .cut (.broken .truncated) .truncated
  | w :: ws, b :: rest => if w = b then scanWord value ws rest else .cut (.broken .malformed) .malformed

def hexByte? (b : UInt8) : Option Nat := Text.hexValue? (Char.ofNat b.toNat)

/-- Four hexadecimal digits. -/
def hexUnit? (a b c d : UInt8) : Option Nat := do
  return (((← hexByte? a) * 16 + (← hexByte? b)) * 16 + (← hexByte? c)) * 16 + (← hexByte? d)

def shortEscape? (b : UInt8) : Option UInt8 :=
  if b = 0x22 then some 0x22
  else if b = 0x5C then some 0x5C
  else if b = 0x2F then some 0x2F
  else if b = 0x62 then some 0x08
  else if b = 0x66 then some 0x0C
  else if b = 0x6E then some 0x0A
  else if b = 0x72 then some 0x0D
  else if b = 0x74 then some 0x09
  else none

def isLeading (u : Nat) : Bool := 0xD800 ≤ u && u < 0xDC00

def isTrailing (u : Nat) : Bool := 0xDC00 ≤ u && u < 0xE000

/-- What an escaped unit `u` stands for, given the text after it: the bytes of a
character and the rest, or no character. A text that ends before the second half
of a pair is left to break off further on. -/
def unitBytes (u : Nat) (rest : Bytes) : Option Bytes × Bytes :=
  if isTrailing u then (none, rest)
  else if !isLeading u then (some (Utf8.encode (String.singleton (Char.ofNat u))), rest)
  else match rest with
    | [] => (some [], rest)
    | [0x5C] => (some [], rest)
    | 0x5C :: 0x75 :: a :: b :: c :: d :: rest' =>
      match hexUnit? a b c d with
      | none => (some [], rest)
      | some t =>
        if isTrailing t then
          let c := Char.ofNat (0x10000 + (u - 0xD800) * 0x400 + (t - 0xDC00))
          (some (Utf8.encode (String.singleton c)), rest')
        else (none, rest)
    | 0x5C :: 0x75 :: _ => (some [], rest)
    | _ => (none, rest)

/-- The text of a string, if all its bytes have been fit so far. -/
def stringOf (fit : Bool) (taken : Bytes) : Key :=
  if fit then (match Utf8.decode? taken with | some s => .ok s | none => .error .malformed)
  else .error .malformed

/-- The breach where a string ends too early. -/
def stringBreach (fit : Bool) : Breach :=
  if fit then .truncated else ⟨.malformed, .truncated⟩

/-- A string whose opening quote has been read; `taken` holds its bytes so far, last first,
and `fit` says whether they can still be text. The fuel bounds the number of characters. -/
def scanString : Nat → Bool → Bytes → Bytes → Scan Key
  | 0, _, _, _ => .cut (.error .truncated) .truncated
  | _ + 1, fit, _, [] => .cut (.error .truncated) (stringBreach fit)
  | fuel + 1, fit, taken, b :: rest =>
    if b = 0x22 then .whole (stringOf fit taken.reverse) rest
    else if b < 0x20 then .cut (.error .malformed) .malformed
    else if b ≠ 0x5C then scanString fuel fit (b :: taken) rest
    else match rest with
      | [] => .cut (.error .truncated) (stringBreach fit)
      | e :: rest =>
        if e = 0x75 then
          match rest with
          | h1 :: h2 :: h3 :: h4 :: rest =>
            match hexUnit? h1 h2 h3 h4 with
            | none => .cut (.error .malformed) .malformed
            | some u =>
              match unitBytes u rest with
              | (some bytes, rest) => scanString fuel fit (bytes.reverse ++ taken) rest
              | (none, rest) => scanString fuel false taken rest
          | _ => .cut (.error .truncated) (stringBreach fit)
        else match shortEscape? e with
          | some c => scanString fuel fit (c :: taken) rest
          | none => .cut (.error .malformed) .malformed

def readString (s : Bytes) : Scan Key := scanString (s.length + 1) true [] s

/-! ### Values -/

mutual

/-- The value at the beginning of a text. The fuel bounds the number of tokens. -/
def scanValue : Nat → Bytes → Scan Node
  | 0, _ => .cut .absent .truncated
  | fuel + 1, s =>
    match skipBlank s with
    | [] => .cut .absent .truncated
    | b :: rest =>
      if b = 0x22 then
        match readString rest with
        | .whole k rest => .whole (.string k) rest
        | .cut _ breach => .cut (.cutString breach) breach
      else if b = 0x7B then scanMembers fuel [] rest
      else if b = 0x5B then scanItems fuel [] rest
      else if b = 0x2D then scanNumber true rest
      else if isDigitByte b then scanNumber false (b :: rest)
      else if b = 0x6E then scanWord .null [0x75, 0x6C, 0x6C] rest
      else if b = 0x74 then scanWord (.bool true) [0x72, 0x75, 0x65] rest
      else if b = 0x66 then scanWord (.bool false) [0x61, 0x6C, 0x73, 0x65] rest
      else .cut (.broken .malformed) .malformed

/-- The items after an opening bracket; `done` holds those read so far, last first. -/
def scanItems : Nat → List Node → Bytes → Scan Node
  | 0, done, _ => .cut (.array done.reverse (.cut false .truncated)) .truncated
  | fuel + 1, done, s =>
    match skipBlank s with
    | [] => .cut (.array done.reverse (.cut false .truncated)) .truncated
    | b :: rest =>
      if b = 0x5D then .whole (.array done.reverse .closed) rest
      else if done.isEmpty then scanItem fuel done (b :: rest)
      else if b ≠ 0x2C then .cut (.array done.reverse (.cut false .malformed)) .malformed
      else match skipBlank rest with
        | [] => .cut (.array done.reverse (.cut true .truncated)) .truncated
        | c :: rest =>
          if c = 0x5D then .cut (.array done.reverse (.cut true .malformed)) .malformed
          else scanItem fuel done (c :: rest)

def scanItem : Nat → List Node → Bytes → Scan Node
  | 0, done, _ => .cut (.array done.reverse (.cut false .truncated)) .truncated
  | fuel + 1, done, s =>
    match scanValue fuel s with
    | .whole v rest => scanItems fuel (v :: done) rest
    | .cut v breach => .cut (.array (v :: done).reverse (.cut false breach)) breach

/-- The members after an opening brace; `done` holds those read so far, last first. -/
def scanMembers : Nat → List (Key × Node) → Bytes → Scan Node
  | 0, done, _ => .cut (.object done.reverse (.cut false .truncated)) .truncated
  | fuel + 1, done, s =>
    match skipBlank s with
    | [] => .cut (.object done.reverse (.cut false .truncated)) .truncated
    | b :: rest =>
      if b = 0x7D then .whole (.object done.reverse .closed) rest
      else if done.isEmpty then scanMember fuel false done (b :: rest)
      else if b ≠ 0x2C then .cut (.object done.reverse (.cut false .malformed)) .malformed
      else match skipBlank rest with
        | [] => .cut (.object done.reverse (.cut true .truncated)) .truncated
        | c :: rest => scanMember fuel true done (c :: rest)

def scanMember : Nat → Bool → List (Key × Node) → Bytes → Scan Node
  | 0, comma, done, _ => .cut (.object done.reverse (.cut comma .truncated)) .truncated
  | fuel + 1, comma, done, s =>
    match s with
    | 0x22 :: rest =>
      match readString rest with
      | .cut _ breach => .cut (.object done.reverse (.cut comma breach)) breach
      | .whole k rest =>
        match skipBlank rest with
        | [] => .cut (.object ((k, .broken .truncated) :: done).reverse
            (.cut false .truncated)) .truncated
        | c :: rest =>
          if c = 0x3A then
            match scanValue fuel rest with
            | .whole v rest => scanMembers fuel ((k, v) :: done) rest
            | .cut v breach => .cut (.object ((k, v) :: done).reverse (.cut false breach)) breach
          else .cut (.object ((k, .broken .malformed) :: done).reverse
            (.cut false .malformed)) .malformed
    | s =>
      match scanValue fuel s with
      | .whole v _ => .cut (.object done.reverse (.stray comma v)) .malformed
      | .cut v _ => .cut (.object done.reverse (.stray comma v)) .malformed

end

/-- A whole text: its value, and whether anything but blanks follows it. -/
structure Document where
  root : Node
  hasMore : Bool

/-- Each token uses up at least one byte and at most three units of fuel. -/
def Document.ofBytes (s : Bytes) : Document :=
  match scanValue (3 * s.length + 3) s with
  | .whole v rest => ⟨v, !(skipBlank rest).isEmpty⟩
  | .cut v _ => ⟨v, false⟩

end ContainerPorts.Json
