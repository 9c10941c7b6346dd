import ContainerPorts.Proofs.Cloud.SteadySetup
import ContainerPorts.Proofs.Daemon.Operations

/-!
# A cache that makes no difference

Commands and passes of the reaper are answered alike with a cache in front of the cloud and
without one, and leave the same ports. Two sites go through the same operations, one of them
behind a cache. They stay the same but for the cache and for the calls that reached the
cloud, because all calls are steady and everything that the cache keeps is right.
-/
namespace ContainerPorts

open Cloud

/-! ### Requests that are answered alike -/

/-- Requests to which a cache makes no difference. -/
def Effect.Steady : Effect → Prop
  | .cloud c => c.Steady
  | _ => True

/-- Answers with ids that keys can end with. -/
def Effect.Fits : (e : Effect) → e.Answer → Prop
  | .cloud c, x => c.Fits x
  | _, _ => True

theorem Program.Trusts.onCloud {α : Type} {p : Program calls α} {E : α → Prop}
    (h : p.Trusts Call.Fits Call.Steady E) :
    (Effect.onCloud p).Trusts (S := effects) Effect.Fits Effect.Steady E := by
  induction p with
  | done a => exact h
  | ask c next ih => exact ⟨h.1, fun x hx => ih x (h.2 x hx)⟩

/-- A program over requests to which a cache makes no difference, as long as ids are plain. -/
abbrev Effect.Steadily {α : Type} (p : Program effects α) : Prop :=
  p.Trusts Effect.Fits Effect.Steady fun _ => True

namespace HostSettings

variable (h : HostSettings) (i : Invocation)

theorem add_steadily : Effect.Steadily (h.add i) := by
  unfold add
  cases h.context i with
  | error e => trivial
  | ok c =>
    refine (setupPort_trusts _).onCloud.bind fun r _ => ?_
    cases r with
    | error e => trivial
    | ok r => dsimp only; cases PortReply.describe r i <;> trivial

theorem teardownKnown_asks : (h.teardownKnown i).Asks Effect.Steady := by
  unfold teardownKnown
  cases h.context i with
  | error e => exact Program.asks_done _
  | ok c =>
    refine ((teardownPort_asks _).onCloud fun _ hc => hc).bind fun r => ?_
    cases r <;> exact Program.asks_done _

theorem del_steadily : Effect.Steadily (h.del i) := by
  refine Program.Asks.trusts (Program.Asks.bind ?_ fun _ => Program.asks_done _)
  exact (h.recoverNetns_asks i fun _ => trivial).bind fun i => h.teardownKnown_asks i

end HostSettings

theorem Daemon.reap_steadily (d : Daemon) (m : Metrics) : Effect.Steadily (d.reap m) := by
  refine Program.Asks.trusts (Program.Asks.bind ?_ fun _ => Program.asks_done _)
  refine (Reaper.pass_asks d.reaper d.hostname).mono fun e he => ?_
  rcases he with rfl | rfl | ⟨id, rfl⟩
  · exact Call.steady_of_not_cacheable rfl
  · trivial
  · exact Call.steady_of_not_cacheable rfl

/-! ### Two sites -/

namespace Site

/-- The site with a new cache in front of its cloud. -/
def cached (s : Site) (ttl : Span) : Site := { s with cache := some { ttl := ttl } }

/-- The site behind a cache, with another memory of past calls. -/
def behind (s : Site) (cache : TtlCache Kept) (history : List Method) : Site :=
  { s with cache := some cache, world := s.world.recalling history }

/-- One site is another one behind a cache that is right. -/
structure Shadows (s t : Site) : Prop where
  bare : t.cache = none
  plain : t.world.furniture.Plain
  exists_cache : ∃ cache history, s = t.behind cache history ∧ t.world.VouchesFor cache

variable {s t : Site}

theorem answer_of_bare (h : t.cache = none) (c : Call) : t.answer (.cloud c) =
    ((t.world.answer t.tick.now c).1,
      { t.tick with world := (t.world.answer t.tick.now c).2 }) := by
  simp only [answer, onCloud, show t.tick.cache = none from h]
  rfl

theorem answer_behind (cache : TtlCache Kept) (history : List Method) (c : Call) :
    (t.behind cache history).answer (.cloud c) =
      let x := Cached.run (fun c (w : World) => w.answer t.tick.now c) t.tick.clock t.tick.clock
        cache (t.world.recalling history) c
      (x.1, { t.tick with cache := some x.2.1, world := x.2.2 }) := rfl

/-- A steady request is answered alike, and leaves sites that are alike. -/
theorem Shadows.answer (h : s.Shadows t) {e : Effect} (he : e.Steady) :
    (s.answer e).1 = (t.answer e).1 ∧ e.Fits (t.answer e).1 ∧
      (s.answer e).2.Shadows (t.answer e).2 := by
  obtain ⟨hbare, hplain, cache, history, rfl, hcache⟩ := h
  cases e with
  | cloud c =>
    obtain ⟨cache', history', hrun, hcache'⟩ :=
      World.run_cached hcache he t.tick.now t.tick.clock t.tick.clock history
    have hfurniture : (t.world.answer t.tick.now c).2.furniture = t.world.furniture :=
      World.furniture_answer
    rw [answer_behind, hrun, answer_of_bare hbare]
    refine ⟨rfl, World.fits_answer hplain t.tick.now c, hbare, ?_, cache', history', rfl, ?_⟩
    · rwa [hfurniture]
    · exact hcache'.of_furniture hfurniture.symm
  | file c => exact ⟨rfl, trivial, hbare, hplain, cache, history, rfl, hcache⟩
  | pause d => exact ⟨rfl, trivial, hbare, hplain, cache, history, rfl, hcache⟩
  | observe => exact ⟨rfl, trivial, hbare, hplain, cache, history, rfl, hcache⟩
  | clock => exact ⟨rfl, trivial, hbare, hplain, cache, history, rfl, hcache⟩

theorem Shadows.run {α : Type} (h : s.Shadows t) {p : Program effects α}
    (hp : Effect.Steadily p) :
    (s.run p).1 = (t.run p).1 ∧ (s.run p).2.Shadows (t.run p).2 :=
  hp.runWith_eq (fun _ _ _ he hst => hst.answer he) h

theorem Shadows.evict (h : s.Shadows t) : s.evict.2.Shadows t.evict.2 := by
  obtain ⟨hbare, hplain, cache, history, rfl, hcache⟩ := h
  have ht : t.evict.2 = t := by
    unfold Site.evict
    rw [hbare]
  rw [ht]
  exact ⟨hbare, hplain, (cache.evict t.clock).2, history, rfl,
    hcache.mono (TtlCache.entries_keep_subset ..)⟩

theorem Shadows.stock (h : s.Shadows t) : s.stock = t.stock := by
  obtain ⟨cache, history, rfl, -⟩ := h.exists_cache
  rfl

end Site

/-! ### Two runs -/

namespace Operation

/-- Commands and passes, with the time and the host going on in between. -/
def isRoutine : Operation → Bool
  | .add _ => true
  | .del _ => true
  | .check _ => true
  | .reap => true
  | .evict => true
  | .wait _ => true
  | .processes _ => true
  | .serve .. => false
  | .refuse .. => false
  | .heal => false

/-- What an operation is answered with. -/
abbrev Reply : Operation → Type
  | .add _ => Except HandlerError AddReply
  | .del _ => Except HandlerError Unit
  | .check _ => Except HandlerError Unit
  | .reap => Except Failure ReapSummary
  | .serve .. => Http.Response
  | _ => Unit

def reply (h : HostSettings) (d : Daemon) (s : Site × Metrics) : (o : Operation) → o.Reply
  | .add i => (s.1.run (h.add i)).1
  | .del i => (s.1.run (h.del i)).1
  | .check i => (s.1.run (h.check i)).1
  | .reap => (s.1.run (d.reap s.2)).1.1
  | .serve r _ => (s.1.run (d.respond r s.2)).1.1
  | .refuse .. => ()
  | .heal => ()
  | .evict => ()
  | .wait _ => ()
  | .processes _ => ()

variable {h : HostSettings} {d : Daemon} {s t : Site × Metrics}

theorem shadows_apply (hst : s.1.Shadows t.1) (hm : s.2 = t.2) {o : Operation}
    (ho : o.isRoutine) :
    o.reply h d s = o.reply h d t ∧ (o.apply h d s).1.Shadows (o.apply h d t).1 ∧
      (o.apply h d s).2 = (o.apply h d t).2 := by
  obtain ⟨s, m⟩ := s
  obtain ⟨t, m'⟩ := t
  obtain rfl : m = m' := hm
  cases o with
  | add i =>
    obtain ⟨hreply, hafter⟩ := hst.run (h.add_steadily i)
    exact ⟨hreply, hafter, rfl⟩
  | del i =>
    obtain ⟨hreply, hafter⟩ := hst.run (h.del_steadily i)
    exact ⟨hreply, hafter, rfl⟩
  | check i => exact ⟨rfl, hst, rfl⟩
  | reap =>
    obtain ⟨hreply, hafter⟩ := hst.run (d.reap_steadily m)
    have hmetrics : (s.run (d.reap m)).1.2 = (t.run (d.reap m)).1.2 := by rw [hreply]
    exact ⟨congrArg Prod.fst hreply, hafter, hmetrics⟩
  | evict => exact ⟨rfl, hst.evict, rfl⟩
  | wait d =>
    obtain ⟨hbare, hplain, cache, history, rfl, hcache⟩ := hst
    exact ⟨rfl, ⟨hbare, hplain, cache, history, rfl, hcache⟩, rfl⟩
  | processes files =>
    obtain ⟨hbare, hplain, cache, history, rfl, hcache⟩ := hst
    exact ⟨rfl, ⟨hbare, hplain, cache, history, rfl, hcache⟩, rfl⟩
  | serve r hr => cases ho
  | refuse m message => cases ho
  | heal => cases ho

theorem shadows_run {os : List Operation} (hos : ∀ o ∈ os, o.isRoutine) (hst : s.1.Shadows t.1)
    (hm : s.2 = t.2) :
    (run h d s os).1.Shadows (run h d t os).1 ∧ (run h d s os).2 = (run h d t os).2 := by
  induction os generalizing s t with
  | nil => exact ⟨hst, hm⟩
  | cons o os ih =>
    obtain ⟨ho, hos⟩ := List.forall_mem_cons.mp hos
    obtain ⟨-, hst, hm⟩ := shadows_apply (h := h) (d := d) hst hm ho
    exact ih hos hst hm

/-- Whatever commands and passes came before, one more is answered alike behind a cache, and the
ports are the same after it. Of the names and ids of the cloud, only the ids of networks and
projects matter for this. -/
theorem cache_transparent (h : HostSettings) (d : Daemon) (s : Site) (m : Metrics) (ttl : Span)
    (hs : s.cache = none) (hplain : s.world.furniture.Plain) (os : List Operation) (o : Operation)
    (hos : ∀ o' ∈ os ++ [o], o'.isRoutine) :
    o.reply h d (run h d (s.cached ttl, m) os) = o.reply h d (run h d (s, m) os) ∧
      (run h d (s.cached ttl, m) (os ++ [o])).1.world.ports =
        (run h d (s, m) (os ++ [o])).1.world.ports := by
  have hstart : (s.cached ttl).Shadows s :=
    ⟨hs, hplain, { ttl := ttl }, s.world.history, rfl, List.forall_mem_nil _⟩
  have hrun (s : Site × Metrics) : run h d s (os ++ [o]) = o.apply h d (run h d s os) := by
    simp [run]
  obtain ⟨hpast, ho⟩ := List.forall_mem_append.mp hos
  obtain ⟨hst, hm⟩ := shadows_run (h := h) (d := d) (s := (s.cached ttl, m)) (t := (s, m)) hpast
    hstart rfl
  obtain ⟨hreply, hafter, -⟩ := shadows_apply (h := h) (d := d) hst hm (ho o (by simp))
  rw [hrun, hrun]
  exact ⟨hreply, congrArg Stock.ports hafter.stock⟩

/-- Behind the cache, a second ADD does not have the server looked up again. -/
theorem cache_transparent_twoAdds : ∃ os o,
    let bare := run sampleHost sampleDaemon (sampleSite .basic, {})
    let cached := run sampleHost sampleDaemon ((sampleSite .basic).cached ⟨1⟩, {})
    o.reply sampleHost sampleDaemon (cached os) = o.reply sampleHost sampleDaemon (bare os) ∧
      (cached (os ++ [o])).1.world.ports = (bare (os ++ [o])).1.world.ports ∧
      (cached (os ++ [o])).1.world.count .serverByName = 1 ∧
      (bare (os ++ [o])).1.world.count .serverByName = 2 := by
  have hplain : (sampleSite .basic).world.furniture.Plain := by constructor <;> decide
  obtain ⟨hreply, hports⟩ := cache_transparent sampleHost sampleDaemon (sampleSite .basic) {} ⟨1⟩
    rfl hplain [.add sampleInvocation] (.add otherInvocation) (by decide)
  exact ⟨_, _, hreply, hports, by decide +kernel, by decide +kernel⟩

end Operation

end ContainerPorts
