import ContainerPorts.Cloud.Cached
import ContainerPorts.Cloud.World
import ContainerPorts.Daemon.Effects
/-!
# A place for the daemon to run

A site answers everything that the daemon asks for: it has a cloud in memory,
perhaps a cache in front of it, a directory of files, the table of the host's
processes and a clock. Every request takes a lap of time before it is answered;
waiting takes as long as was asked for, and reading the clock takes no time.
-/
namespace ContainerPorts

structure Site where
  world : Cloud.World
  /-- The cache in front of the cloud, if there is one. -/
  cache : Option (TtlCache Cloud.Kept) := none
  files : Directory := none
  /-- The files below the mounted process table. -/
  processes : List String := []
  /-- The moment at which the clock stood at zero. -/
  epoch : Instant
  clock : Span := ⟨0⟩
  /-- Number of requests answered so far. -/
  asked : Nat := 0
  /-- How long the n-th request takes. -/
  lap : Nat → Span := fun _ => ⟨0⟩

namespace Site

def now (s : Site) : Instant := .ofNanos (s.epoch.toNanos + s.clock.nanos)

/-- There is an entry at the path of every file and of every directory above one. -/
def hasEntry (files : List String) (path : String) : Bool :=
  files.any fun f => f = path || Text.begins (path ++ "/") f

def sight (s : Site) : Sight := ⟨s.now, hasEntry s.processes⟩

/-- The site when the next request is answered. -/
def tick (s : Site) : Site := { s with clock := s.clock + s.lap s.asked, asked := s.asked + 1 }

def onCloud (s : Site) (c : Cloud.Call) : c.Answer × Site :=
  match s.cache with
  | none =>
    let (a, world) := s.world.answer s.now c
    (a, { s with world := world })
  | some cache =>
    let (a, cache, world) := (Cloud.Cached.answer c).runWith
      (Cloud.Cached.step (fun c w => w.answer s.now c) s.clock s.clock) (cache, s.world)
    (a, { s with cache := some cache, world := world })

def onFile (s : Site) (c : FileCall) : c.Answer × Site :=
  let (a, files) := s.files.answer c
  (a, { s with files := files })

def answer (e : Effect) (s : Site) : e.Answer × Site :=
  match e with
  | .cloud c => s.tick.onCloud c
  | .file c => s.tick.onFile c
  | .pause d => ((), { s.tick with clock := s.tick.clock + d })
  | .observe => (s.tick.sight, s.tick)
  | .clock => (s.clock, s)

/-- Run a program to its end. -/
def run {α : Type} (s : Site) (p : Program effects α) : α × Site := p.runWith answer s

/-- Drop the expired entries of the cache; nothing without a cache. -/
def evict (s : Site) : Option Nat × Site :=
  match s.cache with
  | none => (none, s)
  | some cache =>
    let (n, cache) := cache.evict s.clock
    (some n, { s with cache := some cache })

end Site

end ContainerPorts
