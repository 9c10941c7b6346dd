import ContainerPorts.Net.Ipv6
/-!
# Addresses and networks

A network is an address together with the number of its leading bits that name
the network. Host bits are kept. The number never passes what the family of the
address allows.
-/
namespace ContainerPorts

inductive IpAddress where
  | v4 (address : Ipv4)
  | v6 (address : Ipv6)
  deriving DecidableEq, Repr, Inhabited

namespace IpAddress

/-- Number of bits of an address of this family. -/
def width : IpAddress → Nat
  | .v4 _ => 32
  | .v6 _ => 128

def isV4 : IpAddress → Bool
  | .v4 _ => true
  | .v6 _ => false

def readChars? (cs : List Char) : Option IpAddress :=
  match Ipv4.read? cs with
  | some x => some (.v4 x)
  | none => (Ipv6.read? cs).map .v6

def read? (s : String) : Option IpAddress := readChars? s.toList

def chars : IpAddress → List Char
  | .v4 x => x.chars
  | .v6 x => x.chars

def text (x : IpAddress) : String := String.ofList x.chars

/-- The reason given when a text is no address. -/
def unreadable : String := "invalid IP address syntax"

end IpAddress

structure Network where
  address : IpAddress
  bits : Nat
  bits_le : bits ≤ address.width
  deriving DecidableEq, Repr

namespace Network

instance : Inhabited Network := ⟨⟨.v4 ⟨0, 0, 0, 0⟩, 0, Nat.zero_le _⟩⟩

def make? (address : IpAddress) (bits : Nat) : Option Network :=
  if h : bits ≤ address.width then some ⟨address, bits, h⟩ else none

/-- The reason given when a length is too long for the family of an address. -/
def tooLong : String := "invalid prefix"

/-- A length in decimal, or for IPv4 a netmask. -/
def length? (address : IpAddress) (cs : List Char) : Option Nat :=
  match address, Ipv4.read? cs with
  | .v4 _, some m => m.maskLength?
  | _, _ => Text.readCount? 255 cs

def readChars? (cs : List Char) : Option Network :=
  match Text.cutOnce '/' cs with
  | none => (IpAddress.readChars? cs).map fun x => ⟨x, x.width, Nat.le_refl _⟩
  | some (before, behind) => do
    let x ← IpAddress.readChars? before
    make? x (← length? x behind)

def read? (s : String) : Option Network := readChars? s.toList

/-- The reason given when `s` is no network. -/
def unreadable (s : String) : String := "invalid address: " ++ s

def chars (n : Network) : List Char := n.address.chars ++ '/' :: Nat.toDigits 10 n.bits

def text (n : Network) : String := String.ofList n.chars

@[simp] theorem make?_width (x : IpAddress) :
    make? x x.width = some ⟨x, x.width, Nat.le_refl _⟩ := by simp [make?]

theorem make?_eq_some_iff {x : IpAddress} {n : Nat} {net : Network} :
    make? x n = some net ↔ net.address = x ∧ net.bits = n := by
  unfold make?
  constructor
  · intro h
    split at h
    · cases h
      exact ⟨rfl, rfl⟩
    · cases h
  · rintro ⟨rfl, rfl⟩
    exact dif_pos net.bits_le

theorem make?_eq_none_iff (x : IpAddress) (n : Nat) : make? x n = none ↔ x.width < n := by
  simp [make?]

end Network

end ContainerPorts
