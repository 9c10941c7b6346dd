import ContainerPorts.Plugin.CommandLine
/-!
# The plugin as a program

The words of the command line, the environment and the input go in; a document
and an exit code come out. There is no way to the network and none to the kernel
here: a request has no response, and a call to the kernel has no connection.
-/
namespace ContainerPorts.Main

/-- The variables that are looked at, in both cases of their settings. -/
def variableNames : List String :=
  let settings := PluginSettings.fields.map fun f => settingsWord ++ "_" ++ f.name
  settingsFile :: Parameter.all.map Parameter.variableName ++ settings ++ settings.map String.toUpper

def environment : IO Environment := do
  let mut env := []
  for name in variableNames do
    if let some value ← IO.getEnv name then env := (name, value) :: env
  return env

/-- The content of the file with settings, if one is named and there. -/
def settingsContent (env : Environment) : IO (Option Bytes) := do
  match env.lookup settingsFile with
  | none => return none
  | some path =>
    try return some (← IO.FS.readBinFile path).toList
    catch _ => return none

def disconnected : (r : PluginRequest) → StateM Unit r.Answer
  | .http _ => return .error "there is no connection"
  | .kernel (.link _) => return ⟨.error (.connection "there is no kernel"), ⟨0⟩⟩
  | .kernel .leaveNetns => return ()
  | .kernel (.sleep _) => return ()

def input (words : List String) : IO Bytes := do
  if CommandLine.readsInput words then return (← (← IO.getStdin).readBinToEnd).toList
  else return []

end ContainerPorts.Main

open ContainerPorts ContainerPorts.Main in
def main (words : List String) : IO UInt32 := do
  let env ← environment
  let content ← settingsContent env
  let p := Plugin.run env (fun _ => content) words (← input words)
  let (outcome, ()) := (p.run disconnected).run ()
  IO.print outcome.stdout
  return UInt32.ofNat outcome.code
