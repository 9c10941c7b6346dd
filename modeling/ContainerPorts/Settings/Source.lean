import ContainerPorts.Json.Decode
import ContainerPorts.Settings.Setting
import ContainerPorts.Settings.Toml
/-!
# Where settings come from

Settings are variables of the environment whose names begin with a given word,
and the members of a file that such a variable may name. Case does not matter in
names. The environment wins over the file. A file that is not there, or is of no
known kind, counts for nothing; one that cannot be read is an error.
-/
namespace ContainerPorts

abbrev Environment := List (String × String)

inductive Origin where
  | environment
  | file (name : String)
  deriving DecidableEq, Repr

def Origin.text : Origin → String
  | .environment => "the environment"
  | .file name => name

/-- Settings by their names, each with its origin. -/
abbrev Settings := Table (Setting × Origin)

inductive SettingsError where
  /-- A file is not a document of its kind. -/
  | unreadable (file : String)
  /-- There is no setting of a name that needs one. -/
  | missing (name : String)
  | unfit (name : String) (value : Setting) (wanted : Wanted) (origin : Origin)
  deriving DecidableEq, Repr

namespace SettingsError

/-- What went wrong with a kind of configuration. -/
def summary (kind : String) : SettingsError → String
  | .unreadable _ => "failed to read " ++ kind ++ " configuration"
  | _ => "invalid " ++ kind ++ " configuration"

def detail : SettingsError → String
  | .unreadable file => file ++ " is malformed"
  | .missing name => "missing field `" ++ name ++ "`"
  | .unfit name value wanted origin =>
    "invalid type: " ++ value.description ++ ", expected " ++ wanted.description ++ " for key `" ++
      name ++ "` in " ++ origin.text

end SettingsError

namespace Settings

/-- The lower case of a character, as far as that is an ASCII letter. The Kelvin sign is a K. -/
def lowered (c : Char) : Char := if c = '\u212a' then 'k' else c.toLower

def loweredText (s : String) : String := String.ofList (s.toList.map lowered)

/-- Settings of one origin; of two with one name the later is taken. -/
def ofPairs (origin : Origin) (pairs : List (String × Setting)) : Settings :=
  Table.ofList (pairs.map fun p => (loweredText p.1, p.2, origin))

/-- Settings over others, which they replace. -/
def overlay (above below : Settings) : Settings :=
  above.foldl (fun t e => Table.insert e.1 e.2 t) below

/-- The variables whose names begin with a word in lower case, an underline and a name. -/
def ofEnvironment (word : String) (env : Environment) : Settings :=
  ofPairs .environment (env.filterMap fun e =>
    (Text.dropStart? (word ++ "_").toList (e.1.toList.map lowered)).map fun name =>
      (String.ofList name, .text e.2))

/-! ### Files -/

/-- What follows the last dot of a file's name, unless the name begins with it. -/
def extension? (path : String) : Option String :=
  match ((Text.split '/' path).getLast?.getD "").toList.reverse with
  | cs =>
    match Text.cutOnce '.' cs with
    | some (ending, _ :: _) => some (String.ofList ending.reverse)
    | _ => none

example : extension? "etc/c.d/settings.json" = some "json" ∧ extension? "etc/.json" = none := by
  decide +kernel

def jsonPairs? (s : String) : Option (List (String × Setting)) :=
  match Json.Decoder.ofString Json.Decoder.valueTable s with
  | .ok t => some (t.map fun m => (m.1, .ofJson m.2))
  | .error _ => none

/-- How files of a kind are read. -/
def reader? (path : String) : Option (String → Option (List (String × Setting))) :=
  match extension? path with
  | some "json" => some jsonPairs?
  | some "toml" => some Toml.ofText?
  | _ => none

/-- The settings in a file with the given content, if it is there. -/
def ofFile (path : String) (content : Option Bytes) : Except SettingsError Settings :=
  match content, reader? path with
  | some b, some read =>
    match read (Utf8.documentText b) with
    | some pairs => .ok (ofPairs (.file path) pairs)
    | none => .error (.unreadable path)
  | _, _ => .ok []

/-- The settings of the environment and of the file that the variable `fileVariable` names. -/
def load (word fileVariable : String) (env : Environment) (content : String → Option Bytes) :
    Except SettingsError Settings :=
  let named := (env.find? fun e => e.1 = fileVariable).map (·.2)
  match named.filter fun path => path ≠ "" with
  | none => .ok (ofEnvironment word env)
  | some path => do return overlay (ofEnvironment word env) (← ofFile path (content path))

end Settings

/-! ### Records -/

/-- A setting and how it gets into a record. -/
structure SettingField (ρ : Type) where
  name : String
  wanted : Wanted
  read : Setting → Option (ρ → ρ)
  /-- What the record keeps is no setting of its own. -/
  isRequired : Bool

namespace SettingField

variable {ρ : Type}

def flag (name : String) (set : Bool → ρ → ρ) : SettingField ρ :=
  ⟨name, .flag, fun s => s.toFlag?.map set, false⟩

def count (name : String) (set : Nat → ρ → ρ) : SettingField ρ :=
  ⟨name, .count, fun s => s.toCount?.map set, false⟩

def text (name : String) (set : String → ρ → ρ) : SettingField ρ :=
  ⟨name, .text, fun s => s.toText?.map set, false⟩

/-- A text that has no default. -/
def requiredText (name : String) (set : String → ρ → ρ) : SettingField ρ :=
  { text name set with isRequired := true }

/-- A text that nothing may stand for. -/
def optionalText (name : String) (set : Option String → ρ → ρ) : SettingField ρ :=
  { text name (fun s => set (some s)) with
    read := fun s => match s with
      | .nothing => some (set none)
      | s => s.toText?.map fun t => set (some t) }

/-- Read one setting into a record; one that is not given leaves it as it is. -/
def apply (settings : Settings) (r : ρ) (f : SettingField ρ) : Except SettingsError ρ :=
  match Table.find? f.name settings with
  | none => if f.isRequired then .error (.missing f.name) else .ok r
  | some (s, origin) =>
    match f.read s with
    | some set => .ok (set r)
    | none => .error (.unfit f.name s f.wanted origin)

end SettingField

/-- Read settings into a record that holds the defaults. -/
def Settings.read {ρ : Type} (fields : List (SettingField ρ)) (defaults : ρ) (settings : Settings) :
    Except SettingsError ρ := fields.foldlM (SettingField.apply settings) defaults

end ContainerPorts
