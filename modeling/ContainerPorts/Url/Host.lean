import ContainerPorts.Net.Ipv6
import ContainerPorts.Text.Percent
/-!
# Hosts of URLs

The host of a web URL is a name in lower case, an IPv4 address or, in brackets,
an IPv6 address. A name that ends in a number must be an IPv4 address, which may
have fewer than four parts and parts in octal or hexadecimal. The hosts of other
URLs are kept as they are written.
-/
namespace ContainerPorts

inductive UrlError where
  | emptyHost
  | invalidDomain
  | invalidHost
  | invalidPort
  | invalidIpv4
  | invalidIpv6
  | relativeWithoutBase
  | relativeToBarePath
  deriving DecidableEq, Repr

def UrlError.message : UrlError → String
  | .emptyHost => "empty host"
  | .invalidDomain => "invalid international domain name"
  | .invalidHost => "invalid domain character"
  | .invalidPort => "invalid port number"
  | .invalidIpv4 => "invalid IPv4 address"
  | .invalidIpv6 => "invalid IPv6 address"
  | .relativeWithoutBase => "relative URL without a base"
  | .relativeToBarePath => "relative URL with a cannot-be-a-base base"

namespace Url

inductive Host where
  | name (chars : List Char)
  | v4 (address : Ipv4)
  | v6 (address : Ipv6)
  deriving DecidableEq, Repr

namespace Host

/-- The host of a URL that has a place for one but names none. -/
def empty : Host := .name []

def isEmpty (h : Host) : Bool := h = empty

def chars : Host → List Char
  | .name cs => cs
  | .v4 x => x.chars
  | .v6 x => '[' :: x.hexChars ++ [']']

/-! ### IPv4 -/

/-- The digits of a part and their base. -/
def numeral (cs : List Char) : Nat × List Char :=
  match cs with
  | '0' :: 'x' :: ds => (16, ds)
  | '0' :: 'X' :: ds => (16, ds)
  | '0' :: d :: ds => (8, d :: ds)
  | ds => (10, ds)

/-- The value of a part of an address; no digits after a base mean zero. -/
def number? (cs : List Char) : Option Nat :=
  if cs = [] then none
  else
    let (base, ds) := numeral cs
    ds.foldlM (fun n c => match Text.hexValue? c with
      | some d => if d < base then some (n * base + d) else none
      | none => none) 0

/-- The parts between points, without an empty part at the end. -/
def parts (cs : List Char) : List (List Char) :=
  let ps := Text.splitAll '.' cs
  if 2 ≤ ps.length && ps.getLast? = some [] then ps.dropLast else ps

/-- Whether the last part is meant as a number. -/
def endsInNumber (cs : List Char) : Bool :=
  match (parts cs).getLast? with
  | some last => (!last.isEmpty && last.all Char.isDigit) || (number? last).isSome
  | none => false

/-- The address of which the last number fills what the ones before it leave. -/
def ipv4OfNumbers? (ns : List Nat) : Option Ipv4 :=
  match ns.reverse with
  | [] => none
  | last :: before =>
    if before.all (· ≤ 255) && last < Nat.pow 256 (4 - before.length) && before.length ≤ 3 then
      let high := before.reverse.foldl (fun n d => n * 256 + d) 0
      some (Ipv4.ofNat (high * Nat.pow 256 (4 - before.length) + last))
    else none

def readIpv4? (cs : List Char) : Option Ipv4 := do ipv4OfNumbers? (← (parts cs).mapM number?)

/-! ### Reading -/

/-- The characters that no domain name has, besides control characters. -/
def forbidden : List Char :=
  [' ', '%', '#', '/', ':', '<', '>', '?', '@', '[', '\\', ']', '^', '|']

/-- A domain name in lower case. Only names in ASCII are taken. -/
def domain? (b : Bytes) : Option (List Char) :=
  let cs := b.map fun x => Char.ofNat x.toNat
  if cs.all fun c => 0x20 ≤ c.toNat && c.toNat < 0x7F && c ∉ forbidden
  then some (cs.map Char.toLower) else none

/-- The text between brackets as an address. -/
def readBracketed (cs : List Char) : Except UrlError Host :=
  match cs.reverse with
  | ']' :: inner =>
    match Ipv6.read? inner.reverse with
    | some x => .ok (.v6 x)
    | none => .error .invalidIpv6
  | _ => .error .invalidIpv6

/-- The host of a web URL. -/
def read (cs : List Char) : Except UrlError Host :=
  match cs with
  | [] => .error .emptyHost
  | '[' :: rest => readBracketed rest
  | cs =>
    match domain? (Percent.decode (Utf8.encode (String.ofList cs))) with
    | none => .error .invalidDomain
    | some [] => .error .emptyHost
    | some d =>
      if endsInNumber d then
        match readIpv4? d with
        | some x => .ok (.v4 x)
        | none => .error .invalidIpv4
      else .ok (.name d)

/-- Whether a host that is kept as it is written may hold a character. -/
def isPlain (c : Char) : Bool :=
  c ∉ ['\x00', '\t', '\n', '\r', ' ', '#', '/', ':', '<', '>', '?', '@', '[', '\\', ']', '^', '|']

/-- Visible characters of ASCII and the space stand for themselves. -/
def isPrintable (c : Char) : Bool := 0x20 ≤ c.toNat && c.toNat < 0x7F

/-- The host of a URL that is no web URL. -/
def readVerbatim (cs : List Char) : Except UrlError Host :=
  match cs with
  | '[' :: rest => readBracketed rest
  | cs => if cs.all isPlain then .ok (.name (Percent.encode isPrintable cs)) else .error .invalidHost

end Host

end Url

end ContainerPorts
