import ContainerPorts.Cloud.Call
import ContainerPorts.Cloud.TtlCache
import ContainerPorts.Text.Split
/-!
# A cloud behind a cache

Lookups go through a cache; only what was found is kept. Lookups by tags and
everything that changes the cloud go past it. Deleting a port drops every kept
answer about ports that contains it. The cache and the cloud are asked in
separate steps, so that other callers can come in between.
-/
namespace ContainerPorts.Cloud

/-- An answer that is kept. -/
inductive Kept where
  | server (x : Server)
  | network (x : Network)
  | port (x : Port)
  | ports (x : List Port)
  | project (x : Project)
  | securityGroup (x : SecurityGroup)
  | subnet (x : Subnet)
  deriving DecidableEq, Repr

namespace Kept

def contains (portId : String) : Kept → Bool
  | .port p => p.id = portId
  | .ports ps => ps.any fun p => p.id = portId
  | _ => false

end Kept

/-- The beginning of the keys of all answers about ports. -/
def portKeys : String := "GetPort"

/-- The name of a lookup and its arguments, with bars between them. -/
def cacheKey (operation : String) (arguments : List String) : String :=
  String.join (operation :: arguments.map fun a => "|" ++ a)

/-- How the answers to a lookup are kept: under which key, and in which form. -/
structure Caching (c : Call) where
  operation : String
  arguments : List String
  keep : c.Result → Kept
  read? : Kept → Option c.Result
  read?_keep : ∀ x, read? (keep x) = some x := by exact fun _ => rfl

def Caching.key {c : Call} (k : Caching c) : String := cacheKey k.operation k.arguments

/-- How the answers to a call are kept; nothing for a call that goes past the cache. -/
def Call.caching? : (c : Call) → Option (Caching c)
  | .networkByName name => some
    { operation := "GetNetworkByName", arguments := [name], keep := .network
      read? := fun | .network x => some x | _ => none }
  | .portById portId => some
    { operation := "GetPort", arguments := [portId], keep := .port
      read? := fun | .port x => some x | _ => none }
  | .portsByDevice deviceId => some
    { operation := "GetPortsByDeviceId", arguments := [deviceId], keep := .ports
      read? := fun | .ports x => some x | _ => none }
  | .projectByName name => some
    { operation := "GetProjectByName", arguments := [name], keep := .project
      read? := fun | .project x => some x | _ => none }
  | .serverByName name => some
    { operation := "GetServerByName", arguments := [name], keep := .server
      read? := fun | .server x => some x | _ => none }
  | .securityGroupByName name projectId => some
    { operation := "GetSecurityGroupByName", arguments := [name, projectId.getD ""]
      keep := .securityGroup, read? := fun | .securityGroup x => some x | _ => none }
  | .subnetById subnetId => some
    { operation := "GetSubnet", arguments := [subnetId], keep := .subnet
      read? := fun | .subnet x => some x | _ => none }
  | .subnetByName name networkId => some
    { operation := "GetSubnetByName", arguments := [name, networkId], keep := .subnet
      read? := fun | .subnet x => some x | _ => none }
  | .assignPort .. => none
  | .createPort .. => none
  | .deletePort _ => none
  | .detachPort .. => none
  | .setPortTags .. => none
  | .portByTags _ => none
  | .portsByTags _ => none

/-- Whether the answer to a call may come from the cache. -/
def Call.isCacheable (c : Call) : Bool := c.caching?.isSome

/-- Whether an entry is about ports and contains the given one. -/
def concerns (portId key : String) (kept : Kept) : Bool :=
  Text.begins portKeys key && kept.contains portId

/-- What can be asked of the cloud and the cache. -/
inductive CachedRequest where
  | cloud (c : Call)
  /-- The kept answer of a key, and the time of the lookup. -/
  | lookup (key : String)
  /-- Drop the answer of a key if it had expired at a time. -/
  | dropExpired (key : String) (asOf : Span)
  | insert (key : String) (value : Kept)
  /-- Drop the answers that concern a port. -/
  | purge (portId : String)

abbrev CachedRequest.Answer : CachedRequest → Type
  | .cloud c => c.Answer
  | .lookup _ => Option Kept × Span
  | .dropExpired .. => Unit
  | .insert .. => Unit
  | .purge _ => Nat

abbrev cachedCalls : Signature := ⟨CachedRequest, CachedRequest.Answer⟩

namespace Cached

def request (r : CachedRequest) : Program cachedCalls r.Answer :=
  Program.perform (S := cachedCalls) r

/-- Answer from the cache, or ask the cloud and keep what it found. -/
def readThrough {c : Call} (k : Caching c) : Program cachedCalls c.Answer := do
  let (kept, now) ← request (.lookup k.key)
  match kept with
  | some v =>
    match k.read? v with
    | some x => return .ok x
    | none => fetch
  | none => do
    request (.dropExpired k.key now)
    fetch
where
  fetch : Program cachedCalls c.Answer := do
    match ← request (.cloud c) with
    | .ok x => do
      request (.insert k.key (k.keep x))
      return .ok x
    | .error e => return .error e

/-- Answer one call. -/
def answer : (c : Call) → Program cachedCalls c.Answer
  | .deletePort portId => do
    let _ ← request (.purge portId)
    request (.cloud (.deletePort portId))
  | c =>
    match c.caching? with
    | some k => readThrough k
    | none => request (.cloud c)

/-- Answer a request, with the cloud's part left to `cloud`. The cache is asked at one time,
and what the cloud found is kept at another. -/
def step {σ : Type} (cloud : (c : Call) → σ → c.Answer × σ) (asked answered : Span) :
    (r : CachedRequest) → TtlCache Kept × σ → r.Answer × (TtlCache Kept × σ)
  | .cloud c, (cache, s) => let (a, s) := cloud c s; (a, (cache, s))
  | .lookup key, (cache, s) => ((cache.lookup asked key, asked), (cache, s))
  | .dropExpired key asOf, (cache, s) => ((), (cache.dropExpired asOf key, s))
  | .insert key v, (cache, s) => ((), (cache.insert answered key v, s))
  | .purge portId, (cache, s) =>
    let (n, cache) := cache.purge (concerns portId)
    (n, (cache, s))

end Cached

end ContainerPorts.Cloud
