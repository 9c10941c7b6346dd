import ContainerPorts.Text.Split
import ContainerPorts.Text.Numeral
/-!
# IPv4 addresses

Four octets in decimal, joined by points. An octet has no leading zero, so
every address has one written form and `read?` accepts nothing else.
-/
namespace ContainerPorts

structure Ipv4 where
  a : UInt8
  b : UInt8
  c : UInt8
  d : UInt8
  deriving DecidableEq, Repr, Inhabited

namespace Ipv4

def octet? : List Char → Option UInt8
  | ['0'] => some 0
  | '0' :: _ => none
  | cs => if cs.length ≤ 3 then (Text.readDigits? 255 cs).map UInt8.ofNat else none

def read? (cs : List Char) : Option Ipv4 :=
  match (Text.splitAll '.' cs).map octet? with
  | [some a, some b, some c, some d] => some ⟨a, b, c, d⟩
  | _ => none

def chars (x : Ipv4) : List Char :=
  Text.joinAll '.' ([x.a, x.b, x.c, x.d].map fun o => Nat.toDigits 10 o.toNat)

def text (x : Ipv4) : String := String.ofList x.chars

/-- The address as one number, most significant octet first. -/
def toNat (x : Ipv4) : Nat :=
  ((x.a.toNat * 256 + x.b.toNat) * 256 + x.c.toNat) * 256 + x.d.toNat

def ofNat (n : Nat) : Ipv4 :=
  ⟨UInt8.ofNat (n / 16777216), UInt8.ofNat (n / 65536), UInt8.ofNat (n / 256), UInt8.ofNat n⟩

/-- The netmask with `n` leading ones, as a number. -/
def mask (n : Nat) : Nat := Nat.pow 2 32 - Nat.pow 2 (32 - n)

/-- The number of leading ones of a netmask that has no other ones. -/
def maskLength? (x : Ipv4) : Option Nat :=
  (List.range 33).find? fun n => mask n = x.toNat

theorem octet?_toDigits : ∀ n < 256, octet? (Nat.toDigits 10 n) = some (UInt8.ofNat n) := by
  decide +kernel

end Ipv4

end ContainerPorts
