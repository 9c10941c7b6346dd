import ContainerPorts.Proofs.Daemon.Handling
import ContainerPorts.Proofs.Daemon.Reaping
import ContainerPorts.Proofs.Daemon.Serving

/-!
# Which ports an operation can touch

One operation comes after the other, with the cloud refusing calls or not. ADD adds
at most one port to those that are there. DEL touches at most one port, which
carries its tags. A pass of the reaper only removes ports that may be removed.
Everything else leaves the ports alone.
-/
namespace ContainerPorts

open Cloud

/-- What can happen to the daemon and its surroundings. -/
inductive Operation where
  | add (i : Invocation)
  | del (i : Invocation)
  | check (i : Invocation)
  | reap
  /-- A request is answered that posts no invocation. -/
  | serve (r : ApiRequest) (noCommand : Resource.ofPath? r.path ≠ some .command)
  /-- The cloud refuses a kind of call from now on. -/
  | refuse (m : Method) (message : String)
  /-- The cloud refuses nothing any more. -/
  | heal
  | evict
  | wait (d : Span)
  /-- The processes of the host change. -/
  | processes (files : List String)

namespace Operation

/-- What an operation does to the site and the metrics. -/
def apply (h : HostSettings) (d : Daemon) (s : Site × Metrics) : Operation → Site × Metrics
  | .add i => ((s.1.run (h.add i)).2, s.2)
  | .del i => ((s.1.run (h.del i)).2, s.2)
  | .check i => ((s.1.run (h.check i)).2, s.2)
  | .reap => let r := s.1.run (d.reap s.2); (r.2, r.1.2)
  | .serve request _ => let r := s.1.run (d.respond request s.2); (r.2, r.1.2)
  | .refuse m message => ({ s.1 with world := s.1.world.refuse m message }, s.2)
  | .heal => ({ s.1 with world := s.1.world.refuseNothing }, s.2)
  | .evict => (s.1.evict.2, s.2)
  | .wait d => ({ s.1 with clock := s.1.clock + d }, s.2)
  | .processes files => ({ s.1 with processes := files }, s.2)

def run (h : HostSettings) (d : Daemon) (s : Site × Metrics) (os : List Operation) :
    Site × Metrics := os.foldl (apply h d) s

/-- Whether an operation is about ports. -/
def concernsPorts : Operation → Bool
  | .add _ => true
  | .del _ => true
  | .reap => true
  | _ => false

/-- What an operation may do to the ports of a site. -/
def Framed (h : HostSettings) (d : Daemon) (s s' : Site) : Operation → Prop
  | .add _ => (∀ id p, s.world.port? id = some p → s'.world.port? id = some p) ∧
      ∃ new, ∀ id, id ≠ new → s'.world.port? id = s.world.port? id
  | .del i => (∀ id, s'.world.port? id = s.world.port? id) ∨
      ∃ p, s.world.port? p.id = some p ∧ h.tags (h.recovered i s) ⊆ p.tags ∧
        ∀ id, id ≠ p.id → s'.world.port? id = s.world.port? id
  | .reap => ∀ id, s'.world.port? id = s.world.port? id ∨ s'.world.port? id = none ∧
      ∃ p, s.world.port? id = some p ∧ Reaper.Removed d.reaper d.hostname s p
  | _ => ∀ id, s'.world.port? id = s.world.port? id

variable {h : HostSettings} {d : Daemon}

theorem stock_reap (s : Site) (m : Metrics) :
    (s.run (d.reap m)).2 = (s.run (Reaper.pass d.reaper d.hostname)).2 := by
  have hrun : s.run (d.reap m) = _ := Program.runWith_bind ..
  rw [hrun]
  rfl

theorem stock_evict (s : Site) : s.evict.2.stock = s.stock := by
  unfold Site.evict
  split <;> rfl

/-! ### One operation -/

theorem stock_apply {s : Site × Metrics} {o : Operation} (ho : o.concernsPorts = false) :
    (o.apply h d s).1.stock = s.1.stock := by
  cases o with
  | add i => cases ho
  | del i => cases ho
  | reap => cases ho
  | check i => rfl
  | serve r hr =>
    simp only [apply]
    exact d.stock_run_respond s.2 s.1 hr
  | refuse m message => rfl
  | heal => rfl
  | evict => exact stock_evict s.1
  | wait t => rfl
  | processes files => rfl

theorem grows_apply (s : Site × Metrics) (o : Operation) :
    s.1.stock.Grows (o.apply h d s).1.stock := by
  have same (ho : (o.apply h d s).1.stock = s.1.stock) :
      s.1.stock.Grows (o.apply h d s).1.stock := by
    rw [ho]
    exact .of_same rfl fun _ => .inl rfl
  cases o with
  | add i =>
    obtain ⟨q, -, hq⟩ := h.run_add i s.1
    exact hq.grows
  | del i =>
    obtain ⟨q, -, hq⟩ := h.run_teardown i s.1
    simp only [apply, h.run_del]
    exact hq.grows
  | reap =>
    simp only [apply, stock_reap]
    obtain ⟨hn, hp⟩ := Reaper.run_pass d.reaper d.hostname s.1
    exact .of_same hn fun id => (hp id).imp (fun hsame => hsame) And.left
  | _ => exact same (stock_apply rfl)

theorem framed_apply {s : Site × Metrics} (hs : s.1.stock.Fresh) (o : Operation) :
    o.Framed h d s.1 (o.apply h d s).1 := by
  have same (ho : (o.apply h d s).1.stock = s.1.stock) (id : String) :
      (o.apply h d s).1.world.port? id = s.1.world.port? id := congrArg (Stock.port? · id) ho
  cases o with
  | add i =>
    obtain ⟨q, -, hq⟩ := h.run_add i s.1
    refine ⟨fun id p hp => ?_, _, hq.others⟩
    have hold : id ≠ World.portId (s.1.stock.lastNumber + 1) := by
      rintro rfl
      have hnone := hs _ (Nat.lt_succ_self _)
      cases hp.symm.trans hnone
    exact (hq.others id hold).trans hp
  | del i =>
    obtain ⟨q, -, hq⟩ := h.run_teardown i s.1
    simp only [apply, h.run_del]
    exact hq.others
  | reap =>
    simp only [apply, stock_reap]
    exact (Reaper.run_pass d.reaper d.hostname s.1).2
  | _ => exact same (stock_apply rfl)

/-! ### Any run -/

theorem fresh_run (os : List Operation) {s : Site × Metrics} (hs : s.1.stock.Fresh) :
    (run h d s os).1.stock.Fresh := by
  induction os generalizing s with
  | nil => exact hs
  | cons o os ih => exact ih (hs.grows (grows_apply s o))

/-- Whatever has happened before, an operation keeps to its frame. -/
theorem framed_run (h : HostSettings) (d : Daemon) (s : Site × Metrics) (hs : s.1.stock.Fresh)
    (os : List Operation) (o : Operation) :
    o.Framed h d (run h d s os).1 (run h d s (os ++ [o])).1 := by
  have hrun : run h d s (os ++ [o]) = o.apply h d (run h d s os) := by simp [run]
  rw [hrun]
  exact framed_apply (fresh_run os hs) o

def sampleDaemon : Daemon :=
  { hostname := sampleHost.hostname, handler := sampleHost.handle, records := "/var/lib/cni" }

theorem framed_run_basic :
    let s : Site × Metrics := (sampleSite .basic, {})
    s.1.stock.Fresh ∧ Framed sampleHost sampleDaemon
      (run sampleHost sampleDaemon s [.add sampleInvocation]).1
      (run sampleHost sampleDaemon s ([.add sampleInvocation] ++ [.reap])).1 .reap := by
  intro s
  have hs : s.1.stock.Fresh := fun _ _ => rfl
  exact ⟨hs, framed_run sampleHost sampleDaemon s hs [.add sampleInvocation] .reap⟩

end Operation

end ContainerPorts
