import ContainerPorts.Program
import ContainerPorts.Table
import ContainerPorts.Text.Utf8
/-!
# Files of one directory

The calls that a store makes on the files of its directory, and a directory in
memory that answers them. A file name has at most 255 bytes and no NUL. A file
is replaced as a whole by renaming; a directory is never read, replaced or
removed as if it were a file. As long as the directory itself is not there,
nothing is found in it.
-/
namespace ContainerPorts

inductive FileFault where
  | missing
  /-- Any other failure of the file system. -/
  | refused
  deriving DecidableEq, Repr

def FileFault.message : FileFault → String
  | .missing => "<io>"
  | .refused => "<io>"

inductive FileCall where
  /-- Create the directory itself, with all directories above it. -/
  | prepare
  | read (name : String)
  | write (name : String) (content : Bytes)
  | rename (source target : String)
  | remove (name : String)
  deriving DecidableEq, Repr

abbrev FileCall.Result : FileCall → Type
  | .read _ => Bytes
  | _ => Unit

abbrev FileCall.Answer (c : FileCall) : Type := Except FileFault c.Result

abbrev fileCalls : Signature := ⟨FileCall, FileCall.Answer⟩

def fileCall (c : FileCall) : Program fileCalls (Except FileFault c.Result) :=
  Program.perform (S := fileCalls) c

inductive Entry where
  | file (content : Bytes)
  | directory
  deriving DecidableEq, Repr

/-- The entries of a directory; nothing for a directory that is not there. Links are left out,
and lengths are checked on names only, without the path of the directory. -/
abbrev Directory := Option (Table Entry)

namespace Directory

/-- Largest number of bytes in a name. -/
def nameLimit : Nat := 255

/-- Number of bytes that no path has. -/
def pathLimit : Nat := 4096

/-- Why a name cannot be looked up at all. -/
def nameFault? (d : Directory) (name : String) : Option FileFault :=
  if '\x00' ∈ name.toList ∨ pathLimit ≤ name.utf8ByteSize then some .refused
  else match d with
    | none => some .missing
    | some _ => if nameLimit < name.utf8ByteSize then some .refused else none

def entries (d : Directory) : Table Entry := d.getD []

def entry? (d : Directory) (name : String) : Option Entry := Table.find? name d.entries

/-- The content of a file, or why it cannot be had. -/
def content (d : Directory) (name : String) : Except FileFault Bytes :=
  match d.nameFault? name with
  | some e => .error e
  | none => match d.entry? name with
    | none => .error .missing
    | some .directory => .error .refused
    | some (.file b) => .ok b

/-- Why a file cannot be put in place under a name. -/
def writeFault? (d : Directory) (name : String) : Option FileFault :=
  match d.nameFault? name with
  | some e => some e
  | none => match d.entry? name with
    | some .directory => some .refused
    | _ => none

def put (d : Directory) (name : String) (e : Entry) : Directory :=
  some (Table.insert name e d.entries)

def drop (d : Directory) (name : String) : Directory := some (Table.erase name d.entries)

def answer (d : Directory) : (c : FileCall) → c.Answer × Directory
  | .prepare => (.ok (), some d.entries)
  | .read name => (d.content name, d)
  | .write name b =>
    match d.writeFault? name with
    | some e => (.error e, d)
    | none => (.ok (), d.put name (.file b))
  | .rename source target =>
    match d.content source with
    | .error e => (.error e, d)
    | .ok b =>
      match d.writeFault? target with
      | some e => (.error e, d)
      | none => (.ok (), (d.drop source).put target (.file b))
  | .remove name =>
    match d.content name with
    | .error e => (.error e, d)
    | .ok _ => (.ok (), d.drop name)

end Directory

end ContainerPorts
