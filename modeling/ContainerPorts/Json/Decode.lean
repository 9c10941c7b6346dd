import ContainerPorts.Json.Tree
import ContainerPorts.Json.Value
/-!
# Decoding trees

A decoder reads a tree in the order of the text and reports the first fault it
meets. A record is decoded from an object or from the list of its fields in
order: it starts from its defaults, and each field that is read updates it.
Containers may be nested to a depth of 127; what is skipped has no such limit.
-/
namespace ContainerPorts.Json

/-- Decoders are told how many containers, plus one, may still be entered. -/
abbrev Decoder (α : Type) := Nat → Node → Except Fault α

def depthLimit : Nat := 128

def enter : Nat → Except Fault Nat
  | 0 => .error .malformed
  | 1 => .error .malformed
  | d + 1 => .ok d

def Close.finish (c : Close) : Except Fault Unit :=
  match c.fault? with
  | some f => .error f
  | none => .ok ()

def Node.skip (n : Node) : Except Fault Unit :=
  match n.skipFault? with
  | some f => .error f
  | none => .ok ()

namespace Decoder

variable {α β ρ : Type}

def map (f : α → β) (dec : Decoder α) : Decoder β := fun d n => (dec d n).map f

/-- Refuse the values that `f` does not take. -/
def filterMap (f : α → Option β) (dec : Decoder α) : Decoder β := fun d n => do
  match f (← dec d n) with
  | some b => .ok b
  | none => .error .mismatched

def bool : Decoder Bool
  | _, .bool b => .ok b
  | _, n => .error n.mismatch

def string : Decoder String
  | _, .string (.ok s) => .ok s
  | _, n => .error n.mismatch

/-- A whole number from zero to `bound`. -/
def natural (bound : Nat) : Decoder Nat
  | _, .number n =>
    match n.integer? with
    | some (.ofNat v) => if v ≤ bound then .ok v else .error .mismatched
    | _ => .error (Node.number n).mismatch
  | _, n => .error n.mismatch

/-- Null for nothing. -/
def option (dec : Decoder α) : Decoder (Option α)
  | _, .null => .ok none
  | d, n => (dec d n).map some

def list (dec : Decoder α) : Decoder (List α)
  | d, .array items close => do
    let d ← enter d
    let vs ← items.mapM (dec d)
    close.finish
    return vs
  | _, n => .error n.mismatch

def table (dec : Decoder α) : Decoder (Table α)
  | d, .object members close => do
    let d ← enter d
    let t ← members.foldlM (fun t m => do return Table.insert (← m.1) (← dec d m.2) t) []
    close.finish
    return t
  | _, n => .error n.mismatch

end Decoder

/-! ### Any value -/

mutual

def Node.value (d : Nat) : Node → Except Fault Value
  | .null => .ok .null
  | .bool b => .ok (.bool b)
  | .number n =>
    match n.integer? with
    | some v => .ok (.integer v)
    | none => if n.isTooLarge then .error .malformed else .ok (.decimal n.decimal)
  | .string k => k.map .string
  | .array items close => do
    let vs ← Node.values (← enter d) items
    close.finish
    return .array vs
  | .object members close => do
    let t ← Node.memberValues (← enter d) [] members
    close.finish
    return .object t
  | .absent => .error .truncated
  | .cutString b => .error b.read
  | .broken b => .error b.read

def Node.values (d : Nat) : List Node → Except Fault (List Value)
  | [] => .ok []
  | n :: ns => do return (← n.value d) :: (← Node.values d ns)

def Node.memberValues (d : Nat) (done : Table Value) : List (Key × Node) →
    Except Fault (Table Value)
  | [] => .ok done
  | (k, n) :: ms => do
    let k ← k
    let v ← n.value d
    Node.memberValues d (Table.insert k v done) ms

end

def Decoder.value : Decoder Value := Node.value

/-- An object with arbitrary values; the last of equal names wins. -/
def Decoder.valueTable : Decoder (Table Value)
  | d, .object members close => do
    let t ← Node.memberValues (← enter d) [] members
    close.finish
    return t
  | _, n => .error n.mismatch

/-! ### Records -/

structure Field (ρ : Type) where
  name : String
  read : Decoder (ρ → ρ)
  /-- An object must have this member. -/
  isRequired : Bool
  /-- A list must reach this field. -/
  isRequiredInList : Bool

namespace Field

variable {α ρ : Type}

/-- A field that must be there. -/
def required (name : String) (dec : Decoder α) (set : α → ρ → ρ) : Field ρ :=
  ⟨name, dec.map set, true, true⟩

/-- A field that keeps its default when it is missing. -/
def defaulted (name : String) (dec : Decoder α) (set : α → ρ → ρ) : Field ρ :=
  ⟨name, dec.map set, false, false⟩

/-- A field that may be missing from an object but not from a list. -/
def omissible (name : String) (dec : Decoder α) (set : α → ρ → ρ) : Field ρ :=
  ⟨name, dec.map set, false, true⟩

end Field

namespace Decoder

variable {ρ : Type}

/-- Read one member into a record, given the names read so far. Other names are skipped. -/
def member (fields : List (Field ρ)) (d : Nat) (r : ρ × List String) (m : Key × Node) :
    Except Fault (ρ × List String) := do
  let k ← m.1
  match fields.find? fun f => f.name = k with
  | none => do m.2.skip; return r
  | some f =>
    if k ∈ r.2 then .error .mismatched
    else return ((← f.read d m.2) r.1, k :: r.2)

/-- Read the items of a list into the fields of a record in turn. -/
def items (d : Nat) (close : Close) : List (Field ρ) → List Node → ρ → Except Fault ρ
  | [], [], r => if close.isAfterComma then .error .malformed else do close.finish; return r
  | [], _ :: _, _ => .error .malformed
  | f :: fs, [], r => do
    close.finish
    if f.isRequiredInList then .error .mismatched else items d close fs [] r
  | f :: fs, n :: ns, r => do items d close fs ns ((← f.read d n) r)

def record (start : ρ) (fields : List (Field ρ)) : Decoder ρ
  | d, .object members close => do
    let d ← enter d
    let (r, seen) ← members.foldlM (member fields d) (start, [])
    close.finish
    if fields.all fun f => !f.isRequired || f.name ∈ seen then return r
    else .error .mismatched
  | d, .array ns close => do items (← enter d) close fields ns start
  | _, n => .error n.mismatch

/-- A word out of a list, given as a string or as the only name of an object whose value is null. -/
def word {α : Type} (of? : String → Option α) : Decoder α
  | _, .string k => do pick (← k)
  | d, .object members close => do
    let _ ← enter d
    match members, close with
    | [], .stray _ n => .error n.mismatch
    | [], .closed => .error .malformed
    | [], .cut _ b => .error b.read
    | (k, n) :: rest, close => do
      let v ← pick (← k)
      match n with
      | .null => pure ()
      | n => .error n.mismatch
      if !rest.isEmpty || close.isAfterComma then .error .malformed
      close.finish
      return v
  | _, .absent => .error .truncated
  | _, .cutString b => .error b.read
  | _, _ => .error .malformed
where
  pick (s : String) : Except Fault α :=
    match of? s with
    | some v => .ok v
    | none => .error .mismatched

/-- Decode a whole text; what follows the value is looked at last. -/
def document {α : Type} (dec : Decoder α) (doc : Document) : Except Fault α := do
  let v ← dec depthLimit doc.root
  if doc.hasMore then .error .malformed else return v

def ofBytes {α : Type} (dec : Decoder α) (s : Bytes) : Except Fault α :=
  dec.document (.ofBytes s)

def ofString {α : Type} (dec : Decoder α) (s : String) : Except Fault α :=
  dec.ofBytes (Utf8.encode s)

end Decoder

end ContainerPorts.Json
