import ContainerPorts.Plugin.Verbs
import ContainerPorts.Settings.Plugin
/-!
# The plugin's command line

The runtime describes an invocation by options or by variables of the
environment; an option wins over its variable. Only the verb must be given. What
is written to the output is one document at most: the result of ADD, the answer
to VERSION, or a report of a failure.
-/
namespace ContainerPorts

/-- What the plugin leaves behind when it ends. -/
structure Outcome where
  code : Nat
  stdout : String
  deriving DecidableEq, Repr

namespace Outcome

def success (stdout : String) : Outcome := ⟨0, stdout⟩

def failure (e : ErrorReply) : Outcome := ⟨1, documentLine e.toJson⟩

/-- The command line makes no sense; that is told elsewhere. -/
def misuse : Outcome := ⟨2, ""⟩

end Outcome

/-- The parts of an invocation that options can give. -/
inductive Parameter where
  | command
  | containerId
  | netns
  | ifname
  | args
  | path
  deriving DecidableEq, Repr

namespace Parameter

def all : List Parameter := [.command, .containerId, .netns, .ifname, .args, .path]

theorem mem_all (p : Parameter) : p ∈ all := by cases p <;> decide

def optionName : Parameter → String
  | .command => "--command"
  | .containerId => "--container-id"
  | .netns => "--netns"
  | .ifname => "--ifname"
  | .args => "--args"
  | .path => "--path"

def variableName : Parameter → String
  | .command => "CNI_COMMAND"
  | .containerId => "CNI_CONTAINERID"
  | .netns => "CNI_NETNS"
  | .ifname => "CNI_IFNAME"
  | .args => "CNI_ARGS"
  | .path => "CNI_PATH"

def ofOption? (s : String) : Option Parameter := all.find? fun p => p.optionName = s

@[simp] theorem ofOption?_optionName (p : Parameter) : ofOption? p.optionName = some p := by
  cases p <;> rfl

end Parameter

/-- The options given so far and their values. -/
abbrev GivenOptions := List (Parameter × String)

/-- What a command line asks for. -/
inductive CommandRequest where
  | help
  | version
  | invoke (given : GivenOptions)
  deriving DecidableEq, Repr

namespace CommandLine

/-- Whether a word reads as an option and so is no value of one. -/
def isOptionLike (s : String) : Bool := Text.begins "-" s && s ≠ "-"

/-- Take the value of an option, which is given once. -/
def give (p : Parameter) (value : String) (given : GivenOptions) : Option GivenOptions :=
  if given.any fun g => g.1 = p then none else some (given ++ [(p, value)])

/-- The request of a word that is no option with a value. -/
def flag? (word : String) : Option CommandRequest :=
  if word = "--help" then some .help
  else if word = "--version" then some .version
  else match word.toList with
    | '-' :: 'h' :: _ => some .help
    | '-' :: 'V' :: _ => some .version
    | _ => none

/-- Read the words from the first to the last; nothing else but options makes sense. -/
def read (given : GivenOptions) : List String → Option CommandRequest
  | [] => some (.invoke given)
  | ["--"] => some (.invoke given)
  | word :: rest =>
    match Parameter.ofOption? word with
    | some p =>
      match rest with
      | [] => none
      | value :: rest =>
        if isOptionLike value then none
        else match give p value given with
          | some given => read given rest
          | none => none
    | none =>
      match (Text.cut '=' word).bind fun c => (Parameter.ofOption? c.1).map fun p => (p, c.2) with
      | some (p, value) =>
        match give p value given with
        | some given => read given rest
        | none => none
      | none => flag? word

example : read [] ["--netns=/n", "--command", "ADD"] =
    some (.invoke [(.netns, "/n"), (.command, "ADD")]) := by decide +kernel

/-- Whether the input is looked at. -/
def readsInput (words : List String) : Bool :=
  match read [] words with
  | some (.invoke _) => true
  | _ => false

/-- The value of a parameter: the option's, or else the variable's. -/
def value? (env : Environment) (given : GivenOptions) (p : Parameter) : Option String :=
  (given.lookup p).or ((env.find? fun e => e.1 = p.variableName).map (·.2))

/-- The invocation that is asked for, if it has a verb. -/
def invocation? (env : Environment) (given : GivenOptions) (stdin : Bytes) : Option Invocation :=
  (value? env given .command).map fun command =>
    let value := fun p => (value? env given p).getD ""
    { command := command, containerId := value .containerId, netns := value .netns
      ifname := value .ifname, args := value .args, path := value .path, stdin := stdin }

/-- Name and version of the program. -/
def versionLine : String := "openstack-cni 0.1.0\n"

/-! ### Help -/

def about : Parameter → String
  | .command => "CNI verb (ADD, DEL, CHECK or VERSION) "
  | .containerId => ""
  | .netns => "Path to the container's network namespace "
  | .ifname => "Interface name inside the container "
  | .args => "Extra `K=V;K=V` arguments from the runtime "
  | .path => "Plugin search path "

/-- The word for a parameter's value. -/
def placeholder (p : Parameter) : String :=
  String.ofList ((p.optionName.toList.drop 2).map fun c => if c = '-' then '_' else c.toUpper)

def helpLines (env : Environment) (p : Parameter) : String :=
  let current := ((env.find? fun e => e.1 = p.variableName).map (·.2)).getD ""
  "      " ++ p.optionName ++ " <" ++ placeholder p ++ ">\n          " ++ about p ++ "[env: " ++
    p.variableName ++ "=" ++ current ++ "]" ++ (if p = .command then "" else " [default: ]") ++ "\n"

def help (env : Environment) : String :=
  "CNI plugin that plumbs Neutron ports into containers\n\n" ++
    "Usage: openstack-cni [OPTIONS] --command <COMMAND>\n\nOptions:\n" ++
    String.join (Parameter.all.map (helpLines env)) ++
    "  -h, --help\n          Print help\n  -V, --version\n          Print version\n"

end CommandLine

namespace Plugin

/-- Do what a verb asks for, and report it. -/
def serve (t : Tools) (v : Verb) (i : Invocation) : Program pluginCalls Outcome := do
  match v with
  | .add =>
    match ← add t i with
    | .ok reply => return .success (documentLine reply.toJson)
    | .error e => return .failure (e.document v.name)
  | .del =>
    match ← del t i with
    | .ok () => return .success ""
    | .error e => return .failure (e.document v.name)
  | .check =>
    match ← check t i with
    | .ok () => return .success ""
    | .error e => return .failure (e.document v.name)
  | .version => return .success (documentLine (VersionReply.toJson {}))

/-- What the plugin works with under its settings. -/
def tools (s : PluginSettings) : Except ClientError Tools := do
  return ⟨← DaemonClient.make s.apiUrl, s.udevWait,
    if s.enableRetry then some s.retryPolicy else none⟩

def settingsFailure (e : SettingsError) : ErrorReply :=
  .internal "failed to load plugin configuration" (e.summary "plugin" ++ ": " ++ e.detail)

def unsupported (i : Invocation) (r : Rejection) : ErrorReply :=
  .internal ("unsupported command " ++ i.command) r.message

/-- Carry out an invocation. The settings are not looked at for VERSION. -/
def invoke (env : Environment) (content : String → Option Bytes) (i : Invocation) :
    Program pluginCalls Outcome :=
  match Verb.named i.command with
  | .error r => return .failure (unsupported i r)
  | .ok .version => return .success (documentLine (VersionReply.toJson {}))
  | .ok v =>
    match PluginSettings.load env content with
    | .error e => return .failure (settingsFailure e)
    | .ok settings =>
      match tools settings with
      | .error e => return .failure ((PluginError.client e).document v.name)
      | .ok t => serve t v i

/-- Do what a command line asks for. -/
def run (env : Environment) (content : String → Option Bytes) (words : List String)
    (stdin : Bytes) : Program pluginCalls Outcome :=
  match CommandLine.read [] words with
  | none => return .misuse
  | some .help => return .success (CommandLine.help env)
  | some .version => return .success CommandLine.versionLine
  | some (.invoke given) =>
    match CommandLine.invocation? env given stdin with
    | none => return .misuse
    | some i => invoke env content i

end Plugin

end ContainerPorts
