import ContainerPorts.Daemon.Site
import ContainerPorts.Proofs.Cloud.ReadThrough
import ContainerPorts.Proofs.Cloud.Stock
import ContainerPorts.Proofs.Monitor

/-!
# What requests do to a site

A cache in front of the cloud makes no difference to the ports. A call that may
change them goes past the cache, and the answers that come from a cache concern
no monitor. So whatever is known of a program over calls is known of it at every
site, with a cache or without.
-/
namespace ContainerPorts

open Cloud

/-- Whether a request is made to change the cloud. -/
def Effect.changes : Effect → Bool
  | .cloud c => c.changes
  | .file _ => false
  | .pause _ => false
  | .observe => false
  | .clock => false

/-- A monitor of calls as a monitor of a program that talks to the cloud only. -/
def Monitor.onCloud (M : Monitor calls) : Monitor effects where
  State := M.State
  allows
    | q, .cloud c => M.allows q c
    | _, _ => False
  next
    | q, .cloud c, x => M.next q c x
    | q, _, _ => q

theorem Monitor.exists_call_of_allows {M : Monitor calls} {q : M.State} {e : Effect}
    (h : M.onCloud.allows q e) : ∃ c, e = .cloud c ∧ M.allows q c := by
  cases e with
  | cloud c => exact ⟨c, rfl, h⟩
  | file c => exact h.elim
  | pause d => exact h.elim
  | observe => exact h.elim
  | clock => exact h.elim

theorem Program.Obeys.onCloud {α : Type} {M : Monitor calls} {q : M.State}
    {p : Program calls α} {post : α → M.State → Prop} (h : p.Obeys M q post) :
    (Effect.onCloud p).Obeys M.onCloud q post := by
  induction p generalizing q with
  | done a => exact h
  | ask c next ih => exact ⟨h.1, fun x => ih x (h.2 x)⟩

theorem Program.Asks.onCloud {α : Type} {p : Program calls α} {P : Call → Prop}
    {Q : Effect → Prop} (h : p.Asks P) (hQ : ∀ c, P c → Q (.cloud c)) :
    (Effect.onCloud p).Asks Q :=
  h.expand fun c hc => Program.asks_perform (hQ c hc)

theorem Program.asks_onFiles {α : Type} (p : Program fileCalls α) {Q : Effect → Prop}
    (hQ : ∀ c, Q (.file c)) : (Effect.onFiles p).Asks Q :=
  (Program.asks_true p).expand fun c _ => Program.asks_perform (hQ c)

namespace Site

variable {s : Site}

def stock (s : Site) : Stock := s.world.stock

theorem run_bind {α β : Type} (p : Program effects α) (f : α → Program effects β) (s : Site) :
    s.run (p >>= f) = (s.run p).2.run (f (s.run p).1) := Program.runWith_bind ..

theorem run_onCloud_bind {α β : Type} (p : Program calls α) (f : α → Program calls β) (s : Site) :
    s.run (Effect.onCloud (p >>= f)) =
      (s.run (Effect.onCloud p)).2.run (Effect.onCloud (f (s.run (Effect.onCloud p)).1)) := by
  rw [Effect.onCloud, Program.expand_bind]
  exact run_bind ..

theorem run_onCloud_ask (c : Call) (s : Site) :
    s.run (Effect.onCloud (ask c)) = s.answer (.cloud c) := rfl

/-- A call that goes past the cache is answered by the cloud. -/
theorem answer_of_not_cacheable {c : Call} (h : c.isCacheable = false) :
    (s.answer (.cloud c)).1 = (s.world.answer s.tick.now c).1 ∧
      (s.answer (.cloud c)).2.world = (s.world.answer s.tick.now c).2 := by
  simp only [answer, onCloud]
  cases hc : s.tick.cache with
  | none => exact ⟨rfl, rfl⟩
  | some cache =>
    have hrun := Cached.run_of_not_cacheable (fun c (w : World) => w.answer s.tick.now c)
      s.tick.clock s.tick.clock cache s.tick.world h
    simp only [Cached.run] at hrun
    simp only [hrun]
    exact ⟨rfl, rfl⟩

theorem stock_answer_of_cacheable {c : Call} (h : c.isCacheable) :
    (s.answer (.cloud c)).2.stock = s.stock := by
  obtain ⟨k, hk⟩ := Option.isSome_iff_exists.mp h
  have lookup (now : Instant) : (s.world.answer now c).2.stock = s.world.stock :=
    World.stock_answer_of_lookup (Call.changes_of_cacheable h)
  simp only [answer, onCloud, stock]
  cases hc : s.tick.cache with
  | none => exact lookup _
  | some cache =>
    have hrun := Cached.run_inner (fun c (w : World) => w.answer s.tick.now c)
      s.tick.clock s.tick.clock cache s.tick.world hk
    simp only [Cached.run] at hrun
    rcases hrun with hrun | hrun
    · exact congrArg World.stock hrun
    · exact (congrArg World.stock hrun).trans (lookup _)

/-- Only requests that are made to change the cloud change its ports. -/
theorem stock_answer {e : Effect} (h : e.changes = false) : (s.answer e).2.stock = s.stock := by
  cases e with
  | cloud c =>
    cases hc : c.isCacheable with
    | true => exact stock_answer_of_cacheable hc
    | false =>
      rw [stock, (answer_of_not_cacheable hc).2]
      exact World.stock_answer_of_lookup h
  | file c => rfl
  | pause d => rfl
  | observe => rfl
  | clock => rfl

theorem stock_answer_deletePort (s : Site) (id : String) :
    (s.answer (.cloud (.deletePort id))).2.stock = s.stock ∨
      (s.answer (.cloud (.deletePort id))).2.stock = s.stock.erase id := by
  rw [stock, (answer_of_not_cacheable rfl).2]
  exact (World.deletePort_cases s.tick.now s.world id).imp (fun ⟨_, _, h⟩ => h) And.right

theorem port?_answer_deletePort_of_ne {id other : String} (h : other ≠ id) :
    (s.answer (.cloud (.deletePort id))).2.stock.port? other = s.stock.port? other := by
  rcases stock_answer_deletePort s id with hs | hs
  · rw [hs]
  · rw [hs, Stock.port?_erase_of_ne h]

theorem stock_run_of_asks {α : Type} {p : Program effects α}
    (h : p.Asks fun e : Effect => e.changes = false) : (s.run p).2.stock = s.stock :=
  h.runWith (J := fun s' : Site => s'.stock = s.stock)
    (fun _ _ he hs => (stock_answer he).trans hs) rfl

/-- What a monitor says about the ports of a world it says about those of a site. -/
theorem tracks_onCloud {M : Monitor calls} {I : M.State → Stock → Prop}
    (hnext : ∀ (q : M.State) (c : Call) (x : c.Answer), c.isCacheable → M.next q c x = q)
    (ht : ∀ now, M.Tracks (fun c (w : World) => w.answer now c) fun q w => I q w.stock) :
    M.onCloud.Tracks answer fun q s => I q s.stock := by
  intro q s e hI he
  obtain ⟨c, rfl, hallowed⟩ := Monitor.exists_call_of_allows he
  change I (M.next q c (s.answer (.cloud c)).1) (s.answer (.cloud c)).2.stock
  cases hc : c.isCacheable with
  | true =>
    rw [hnext q c _ hc, stock_answer_of_cacheable hc]
    exact hI
  | false =>
    rw [stock, (answer_of_not_cacheable hc).1, (answer_of_not_cacheable hc).2]
    exact ht s.tick.now q s.world c hI hallowed

end Site

end ContainerPorts
