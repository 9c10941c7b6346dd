import ContainerPorts.Daemon.Effects
import ContainerPorts.Metrics
import ContainerPorts.PortTags
import ContainerPorts.Text.Numeral
import ContainerPorts.Text.Quoted
/-!
# Reaping orphaned ports

A pass lists the ports that carry this host's tags and deletes those that are
orphaned beyond doubt: tagged by the daemon, old enough, down, plugged into no
device, and with a network namespace that is gone, as far as that can be seen.
Any doubt spares the port. Only a failed listing fails the pass.
-/
namespace ContainerPorts

structure ReaperConfig where
  interval : Span := .ofSeconds 300
  minPortAge : Span := .ofSeconds 300
  /-- Judge the ports, but delete none. -/
  skipDelete : Bool := false
  /-- Where the process table of the host is mounted. -/
  procMount : Option String := none
  deriving DecidableEq, Repr, Inhabited

def ReaperConfig.toJson (c : ReaperConfig) : Json.Value := .object
  [("interval_secs", c.interval.seconds), ("min_port_age_secs", c.minPortAge.seconds),
    ("skip_delete", c.skipDelete), ("proc_mount", .optional c.procMount)]

/-- Why a port is spared. -/
inductive SkipReason where
  | missingMarker
  | tooYoung
  | notDown (status : String)
  | hasDevice (deviceId : String)
  | unknownNetns (netns : String)
  | procNotMounted
  | netnsAlive (netns : String)
  deriving DecidableEq, Repr

def SkipReason.message : SkipReason → String
  | .missingMarker => "missing marker tag"
  | .tooYoung => "younger than the minimum port age"
  | .notDown status => "status is " ++ status
  | .hasDevice deviceId => "attached to device " ++ deviceId
  | .unknownNetns netns => "unrecognised netns tag " ++ Text.quoted netns
  | .procNotMounted => "host proc is not mounted"
  | .netnsAlive netns => "netns " ++ netns ++ " still exists"

/-- What one pass came to. -/
structure ReapSummary where
  candidates : Nat := 0
  deleted : Nat := 0
  failed : Nat := 0
  skipped : Nat := 0
  deriving DecidableEq, Repr, Inhabited

def ReapSummary.toJson (r : ReapSummary) : Json.Value := .object
  [("candidates", .nat r.candidates), ("deleted", .nat r.deleted), ("failed", .nat r.failed),
    ("skipped", .nat r.skipped)]

namespace Reaper

/-- Largest number of a process. -/
def pidBound : Nat := Nat.pow 2 32 - 1

/-- The number of the process in a path of the form `/proc/N/ns/net`. -/
def netnsPid? (netns : String) : Option Nat := do
  let rest ← Text.dropStart? "/proc/".toList netns.toList
  Text.readCount? pidBound (← Text.dropEnd? "/ns/net".toList rest)

/-- The first process, which is there whenever the table is mounted. -/
def firstEntry : String := "1"

def netnsEntry (pid : Nat) : String := toString pid ++ "/ns/net"

/-- Whether a namespace is gone, or why that cannot be told. -/
def checkGone (s : Sight) (netns : String) : Except SkipReason Unit :=
  match netnsPid? netns with
  | none => .error (.unknownNetns netns)
  | some pid =>
    if !s.hasEntry firstEntry then .error .procNotMounted
    else if s.hasEntry (netnsEntry pid) then .error (.netnsAlive netns)
    else .ok ()

/-- Whether a port was created more than the given time ago. -/
def isOlder (now : Instant) (age : Span) (p : Cloud.Port) : Bool :=
  match p.createdAt.bind now.since? with
  | some a => age < a
  | none => false

/-- Whether a port may be deleted, or the first reason why not. -/
def judge (config : ReaperConfig) (s : Sight) (p : Cloud.Port) : Except SkipReason Unit :=
  if !PortTags.isMarked p.tags then .error .missingMarker
  else if !isOlder s.now config.minPortAge p then .error .tooYoung
  else if !p.isDown then .error (.notDown p.status)
  else if p.deviceId ≠ "" then .error (.hasDevice p.deviceId)
  else match config.procMount with
    | none => .ok ()
    | some _ => checkGone s ((PortTags.value? p.tags PortTags.netnsKey).getD "")

/-- What became of a candidate. -/
inductive Fate where
  | deleted
  | failed
  | skipped
  deriving DecidableEq, Repr

/-- Judge one candidate, and delete it unless it is spared. -/
def treat (config : ReaperConfig) (p : Cloud.Port) : Program effects Fate := do
  let s ← Effect.request .observe
  match judge config s p with
  | .error _ => return .skipped
  | .ok () =>
    if config.skipDelete then return .skipped
    match ← Effect.request (.cloud (.deletePort p.id)) with
    | .ok _ => return .deleted
    | .error _ => return .failed

def summary (fates : List Fate) : ReapSummary :=
  ⟨fates.length, fates.count .deleted, fates.count .failed, fates.count .skipped⟩

/-- One pass; a listing that fails is the failure of the pass. -/
def pass (config : ReaperConfig) (hostname : String) :
    Program effects (Except Cloud.Failure (List Fate)) := do
  match ← Effect.request (.cloud (.portsByTags (PortTags.hostTags hostname))) with
  | .error e => return .error e
  | .ok ports => return .ok (← ports.mapM (treat config))

def countFate (m : Metrics) : Fate → Metrics
  | .deleted => m.countReaped
  | .failed => m.countReapFailed
  | .skipped => m

def countPass (m : Metrics) (outcome : Except Cloud.Failure (List Fate)) : Metrics :=
  match outcome with
  | .ok fates => fates.foldl countFate m
  | .error _ => m

/-- Number of passes within a span; the first comes one interval after the start. -/
def passes (interval run : Span) : Nat := run.nanos / interval.nanos

end Reaper

end ContainerPorts
