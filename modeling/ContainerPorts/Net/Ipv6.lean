import ContainerPorts.Net.Ipv4
/-!
# IPv6 addresses

Eight groups of sixteen bits. One run of zero groups may be left out, and the
last two groups may be written as an IPv4 address. The written form leaves out
the first of the longest runs of at least two zero groups; an address that maps
an IPv4 address shows it.
-/
namespace ContainerPorts

structure Ipv6 where
  words : List UInt16
  length_eq : words.length = 8
  deriving DecidableEq, Repr

namespace Ipv6

def zero : Ipv6 := ⟨List.replicate 8 0, rfl⟩

instance : Inhabited Ipv6 := ⟨zero⟩

def ofWords? (ws : List UInt16) : Option Ipv6 :=
  if h : ws.length = 8 then some ⟨ws, h⟩ else none

/-! ### Reading -/

/-- One to four hexadecimal digits. -/
def group? (cs : List Char) : Option UInt16 := do
  guard (cs ≠ [] ∧ cs.length ≤ 4)
  let ds ← cs.mapM Text.hexValue?
  return UInt16.ofNat (ds.foldl (fun n d => n * 16 + d) 0)

/-- The two groups that an IPv4 address fills. -/
def wordsOfIpv4 (x : Ipv4) : List UInt16 :=
  [UInt16.ofNat (x.a.toNat * 256 + x.b.toNat), UInt16.ofNat (x.c.toNat * 256 + x.d.toNat)]

/-- The words of a nonempty list of groups; only the last may be an IPv4 address. -/
def groupWords? (ipv4Last : Bool) : List (List Char) → Option (List UInt16)
  | [] => some []
  | [cs] =>
    match group? cs with
    | some w => some [w]
    | none => if ipv4Last then (Ipv4.read? cs).map wordsOfIpv4 else none
  | cs :: rest => do return (← group? cs) :: (← groupWords? ipv4Last rest)

/-- The words between colons; no text means no words. -/
def words? (ipv4Last : Bool) (cs : List Char) : Option (List UInt16) :=
  if cs = [] then some [] else groupWords? ipv4Last (Text.splitAll ':' cs)

/-- What stands before and after the first double colon. -/
def cutGap : List Char → Option (List Char × List Char)
  | [] => none
  | ':' :: ':' :: rest => some ([], rest)
  | c :: rest => (cutGap rest).map fun p => (c :: p.1, p.2)

def read? (cs : List Char) : Option Ipv6 :=
  match cutGap cs with
  | none => do ofWords? (← words? true cs)
  | some (before, behind) => do
    let head ← words? false before
    let tail ← words? true behind
    guard (head.length + tail.length ≤ 7)
    ofWords? (head ++ List.replicate (8 - head.length - tail.length) 0 ++ tail)

/-! ### Writing -/

/-- Number of leading zero words. -/
def zeroRun : List UInt16 → Nat
  | [] => 0
  | w :: ws => if w = 0 then zeroRun ws + 1 else 0

/-- Start and length of the first of the longest runs of zero words, counting from `start`. -/
def longestRun (start : Nat) : List UInt16 → Nat × Nat
  | [] => (start, 0)
  | w :: ws =>
    let here := zeroRun (w :: ws)
    let later := longestRun (start + 1) ws
    if later.2 ≤ here then (start, here) else later

def groupChars (ws : List UInt16) : List Char :=
  Text.joinAll ':' (ws.map fun w => Nat.toDigits 16 w.toNat)

/-- The form in which every group is hexadecimal. -/
def hexChars (x : Ipv6) : List Char :=
  let run := longestRun 0 x.words
  if run.2 < 2 then groupChars x.words
  else groupChars (x.words.take run.1) ++ [':', ':'] ++ groupChars (x.words.drop (run.1 + run.2))

/-- The IPv4 address that an address of the form `::ffff:a.b.c.d` maps. -/
def mapped? (x : Ipv6) : Option Ipv4 :=
  match x.words with
  | [0, 0, 0, 0, 0, 0xFFFF, g, h] =>
    some ⟨UInt8.ofNat (g.toNat / 256), UInt8.ofNat g.toNat,
      UInt8.ofNat (h.toNat / 256), UInt8.ofNat h.toNat⟩
  | _ => none

def chars (x : Ipv6) : List Char :=
  match x.mapped? with
  | some v4 => [':', ':', 'f', 'f', 'f', 'f', ':'] ++ v4.chars
  | none => x.hexChars

def text (x : Ipv6) : String := String.ofList x.chars

end Ipv6

end ContainerPorts
