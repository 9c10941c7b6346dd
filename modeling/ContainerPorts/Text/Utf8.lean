/-!
# Text as bytes

Documents arrive as bytes and may not be UTF-8 at all. Strict decoding refuses
such bytes; lenient decoding puts the replacement character in their place, one
for each longest run that begins like a character and does not go on like one.
-/
namespace ContainerPorts

abbrev Bytes := List UInt8

namespace Utf8

def encode (s : String) : Bytes := s.toByteArray.data.toList

def decode? (b : Bytes) : Option String := String.fromUTF8? ⟨b.toArray⟩

theorem decode?_encode (s : String) : decode? (encode s) = some s := by
  simp only [decode?, encode, String.fromUTF8?, Array.toArray_toList]
  exact dif_pos s.isValidUTF8

/-- A byte that continues a character. -/
def isContinuation (b : UInt8) : Bool := 0x80 ≤ b && b < 0xC0

/-- Whether `b` may follow `a` at the start of a character of two bytes or more. -/
def mayFollow (a b : UInt8) : Bool :=
  if a = 0xE0 then 0xA0 ≤ b && b < 0xC0
  else if a = 0xED then 0x80 ≤ b && b < 0xA0
  else if a = 0xF0 then 0x90 ≤ b && b < 0xC0
  else if a = 0xF4 then 0x80 ≤ b && b < 0x90
  else isContinuation b

/-- Number of bytes of a character that starts with `a`; zero if none does. -/
def width (a : UInt8) : Nat :=
  if a < 0x80 then 1
  else if a < 0xC2 then 0
  else if a < 0xE0 then 2
  else if a < 0xF0 then 3
  else if a < 0xF5 then 4
  else 0

def replacement : Char := '\uFFFD'

private def low (b : UInt8) : Nat := b.toNat % 64

/-- Every byte sequence as characters, with replacements for what is no character. -/
def lenientChars : Bytes → List Char
  | [] => []
  | a :: rest =>
    match width a with
    | 1 => Char.ofNat a.toNat :: lenientChars rest
    | 2 => match rest with
      | b :: rest' =>
        if mayFollow a b then Char.ofNat (a.toNat % 32 * 64 + low b) :: lenientChars rest'
        else replacement :: lenientChars (b :: rest')
      | [] => [replacement]
    | 3 => match rest with
      | b :: c :: rest' =>
        if !mayFollow a b then replacement :: lenientChars (b :: c :: rest')
        else if !isContinuation c then replacement :: lenientChars (c :: rest')
        else Char.ofNat (a.toNat % 16 * 4096 + low b * 64 + low c) :: lenientChars rest'
      | [b] => if mayFollow a b then [replacement] else replacement :: lenientChars [b]
      | [] => [replacement]
    | 4 => match rest with
      | b :: c :: d :: rest' =>
        if !mayFollow a b then replacement :: lenientChars (b :: c :: d :: rest')
        else if !isContinuation c then replacement :: lenientChars (c :: d :: rest')
        else if !isContinuation d then replacement :: lenientChars (d :: rest')
        else Char.ofNat (a.toNat % 8 * 262144 + low b * 4096 + low c * 64 + low d) ::
          lenientChars rest'
      | [b, c] =>
        if !mayFollow a b then replacement :: lenientChars [b, c]
        else if !isContinuation c then replacement :: lenientChars [c]
        else [replacement]
      | [b] => if mayFollow a b then [replacement] else replacement :: lenientChars [b]
      | [] => [replacement]
    | _ => replacement :: lenientChars rest

def decodeLenient (b : Bytes) : String := String.ofList (lenientChars b)

/-- The rest of some bytes after the mark of the byte order that they may begin with. -/
def dropMark : Bytes → Bytes
  | 0xEF :: 0xBB :: 0xBF :: rest => rest
  | b => b

/-- The text of a document, without a mark of the byte order. -/
def documentText (b : Bytes) : String := decodeLenient (dropMark b)

end Utf8

end ContainerPorts
