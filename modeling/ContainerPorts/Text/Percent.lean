import ContainerPorts.Text.Numeral
import ContainerPorts.Text.Utf8
/-!
# Percent encoding

A byte is written as a percent sign and two hexadecimal digits. Reading takes
either case of the digits and leaves a percent sign alone that has none.
-/
namespace ContainerPorts.Percent

def encodeByte (b : UInt8) : List Char := '%' :: Text.upperHex 2 b.toNat

/-- Write a character as it is, if it may be kept, and else each of its bytes. -/
def encodeChar (keep : Char → Bool) (c : Char) : List Char :=
  if keep c then [c] else (String.utf8EncodeChar c).flatMap encodeByte

def encode (keep : Char → Bool) (cs : List Char) : List Char := cs.flatMap (encodeChar keep)

def hexByte? (a b : UInt8) : Option UInt8 := do
  let m ← Text.hexValue? (Char.ofNat a.toNat)
  let n ← Text.hexValue? (Char.ofNat b.toNat)
  return UInt8.ofNat (16 * m + n)

def decode : Bytes → Bytes
  | [] => []
  | a :: b :: c :: rest =>
    if a = 0x25 then
      match hexByte? b c with
      | some x => x :: decode rest
      | none => a :: decode (b :: c :: rest)
    else a :: decode (b :: c :: rest)
  | a :: rest => a :: decode rest

/-- The text that a percent-encoded text stands for, unless its bytes are no text. -/
def decodeText? (s : String) : Option String := Utf8.decode? (decode (Utf8.encode s))

end ContainerPorts.Percent
