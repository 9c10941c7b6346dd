import ContainerPorts.Cloud.PortSetup
import ContainerPorts.Proofs.Cloud.Stock
import ContainerPorts.Proofs.Monitor

/-!
# How far setting up a port has come

Setting up only looks things up until it creates its port. Nothing is asked
between creating the port and tagging it, so that the port is without tags in
this one gap, and stays so if tagging it fails. Once tagged, the port keeps its
tags. No other port is touched at any time.
-/
namespace ContainerPorts.Cloud

inductive SetupState where
  /-- No port was asked for. -/
  | looking
  /-- No port was created. -/
  | failed
  /-- The port was created, and is to be tagged next. -/
  | made (id : String)
  | tagged (id : String)
  /-- The port was created, but could not be tagged. -/
  | stranded (id : String)

namespace SetupState

def allows (tags : List String) : SetupState → Call → Prop
  | .looking, c => c.isCacheable ∨ ∃ r x, c = .createPort r x
  | .made id, c => c = .setPortTags id tags
  | .tagged id, c => c.isCacheable ∨ ∃ serverId, c = .assignPort id serverId
  | .failed, _ => False
  | .stranded _, _ => False

def next : SetupState → (c : Call) → c.Answer → SetupState
  | .looking, .createPort .., .ok p => .made p.id
  | .looking, .createPort .., .error _ => .failed
  | .made id, .setPortTags .., .ok _ => .tagged id
  | .made id, .setPortTags .., .error _ => .stranded id
  | q, _, _ => q

/-- The states in which setting up can end with a result. -/
def Ends : Except PortError Unit → SetupState → Prop
  | a, .looking => ∃ e, a = .error e
  | a, .failed => ∃ e, a = .error (.cloud .createPort e)
  | _, .made _ => False
  | a, .stranded _ => ∃ e, a = .error (.cloud .setPortTags e)
  | _, .tagged _ => True

/-- The new port with its tags, and nothing else, was added to a stock. -/
structure Added (k₀ : Stock) (id : String) (tags : List String) (k : Stock) : Prop where
  id_eq : id = World.portId (k₀.lastNumber + 1)
  number : k.lastNumber = k₀.lastNumber + 1
  port : ∃ p, k.port? id = some p ∧ p.tags = tags
  others : ∀ other, other ≠ id → k.port? other = k₀.port? other

/-- What a state says about the stock, setting up having begun with `k₀`. -/
def Holds (tags : List String) (k₀ : Stock) : SetupState → Stock → Prop
  | .looking, k => k = k₀
  | .failed, k => k = k₀ ∨ k = k₀.count
  | .made id, k => Added k₀ id [] k
  | .stranded id, k => Added k₀ id [] k
  | .tagged id, k => Added k₀ id tags k

end SetupState

def setupMonitor (tags : List String) : Monitor calls where
  State := SetupState
  allows := SetupState.allows tags
  next := SetupState.next

/-- Answers that may come from a cache do not concern setting up. -/
theorem SetupState.next_of_cacheable {c : Call} (h : c.isCacheable) (q : SetupState)
    (x : c.Answer) : q.next c x = q := by
  cases c <;> simp only [Call.isCacheable, Call.caching?, Option.isSome_none, Bool.false_eq_true] at h
  all_goals cases q <;> rfl

/-! ### What is known in each state -/

namespace SetupState

/-- A change of the new port alone, which keeps its id, leaves everything else as it is. -/
theorem Added.put {k₀ k : Stock} {id : String} {tags : List String} {p : Port}
    (h : Added k₀ id tags k) (hid : p.id = id) : Added k₀ id p.tags (k.put p) where
  id_eq := h.id_eq
  number := h.number
  port := ⟨p, by rw [← hid]; exact Stock.port?_put_self k p, rfl⟩
  others other hne := by
    rw [Stock.port?_put_of_ne (by rwa [hid]), h.others other hne]

/-- An edit of the new port fails and changes nothing, or gives the port the tags of the edit. -/
theorem Added.edit {α : Type} {k₀ : Stock} {id : String} {tags : List String} {f : Port → Port}
    {w : World} {r : Except Failure α × World} (h : Added k₀ id tags w.stock)
    (he : World.Edits id f w.stock r) (hid : ∀ p, (f p).id = p.id) :
    (∃ e, r.1 = .error e ∧ Added k₀ id tags r.2.stock) ∨
      ∃ p x, p.tags = tags ∧ r.1 = .ok x ∧ Added k₀ id (f p).tags r.2.stock := by
  rcases he with ⟨e, he, hs⟩ | ⟨p, x, hp, hx, hs⟩
  · exact .inl ⟨e, he, by rwa [hs]⟩
  · obtain ⟨p', hp', ht⟩ := h.port
    obtain rfl : p' = p := Option.some.inj (hp'.symm.trans hp)
    refine .inr ⟨p', x, ht, hx, ?_⟩
    rw [hs]
    exact h.put ((hid p').trans (Stock.id_of_port? hp))

/-- Setting up adds at most one port, and under the next number. -/
theorem Holds.others {tags : List String} {k₀ k : Stock} {q : SetupState} (h : q.Holds tags k₀ k) :
    ∀ id, id ≠ World.portId (k₀.lastNumber + 1) → k.port? id = k₀.port? id := by
  intro id hid
  have added {new : String} {ts : List String} (ha : Added k₀ new ts k) :
      k.port? id = k₀.port? id := ha.others id (by rwa [ha.id_eq])
  cases q with
  | looking => exact congrArg (Stock.port? · id) h
  | failed => rcases h with rfl | rfl <;> rfl
  | made new => exact added h
  | tagged new => exact added h
  | stranded new => exact added h

theorem Holds.grows {tags : List String} {k₀ k : Stock} {q : SetupState} (h : q.Holds tags k₀ k) :
    k₀.Grows k := by
  have added {new : String} {ts : List String} (ha : Added k₀ new ts k) : k₀.Grows k := by
    refine ⟨by rw [ha.number]; exact Nat.le_succ _, fun id hid => ?_⟩
    by_cases hnew : id = new
    · exact .inr ⟨k₀.lastNumber + 1, hnew.trans ha.id_eq, Nat.le_of_eq ha.number.symm⟩
    · exact .inl ((ha.others id hnew).trans hid)
  cases q with
  | looking =>
    obtain rfl : k = k₀ := h
    exact .of_same rfl fun _ => .inl rfl
  | failed =>
    rcases h with rfl | rfl
    · exact .of_same rfl fun _ => .inl rfl
    · exact ⟨Nat.le_succ _, fun _ hid => .inl hid⟩
  | made new => exact added h
  | tagged new => exact added h
  | stranded new => exact added h

end SetupState

/-- Every call that setting up may make keeps true what its state says. -/
theorem setupMonitor_tracks (tags : List String) (k₀ : Stock) (now : Instant) :
    (setupMonitor tags).Tracks (fun c (w : World) => w.answer now c)
      fun q w => q.Holds tags k₀ w.stock := by
  intro (q : SetupState) w (c : Call) (hI : q.Holds tags k₀ w.stock) hc
  change (q.next c (w.answer now c).1).Holds tags k₀ (w.answer now c).2.stock
  have lookup (hc : c.isCacheable) :
      (q.next c (w.answer now c).1).Holds tags k₀ (w.answer now c).2.stock := by
    rw [SetupState.next_of_cacheable hc, World.stock_answer_of_lookup (Call.changes_of_cacheable hc)]
    exact hI
  cases q with
  | looking =>
    rcases hc with hc | ⟨r, x, rfl⟩
    · exact lookup hc
    · obtain rfl : w.stock = k₀ := hI
      rcases World.createPort_cases now w r x with ⟨e, he, hs⟩ | ⟨p, hp, hid, ht, hs⟩
      · rw [he]
        exact hs
      · rw [hp, hs]
        refine ⟨hid, rfl, ⟨p, Stock.port?_put_self .., ht⟩, fun other hne => ?_⟩
        exact Stock.port?_put_of_ne hne w.stock.count
  | made id =>
    obtain rfl : c = .setPortTags id tags := hc
    have hI : SetupState.Added k₀ id [] w.stock := hI
    rcases hI.edit (World.setPortTags_edits now w id tags) fun _ => rfl with
      ⟨e, he, ha⟩ | ⟨p, x, -, hx, ha⟩
    · rw [he]
      exact ha
    · rw [hx]
      exact ha
  | tagged id =>
    rcases hc with hc | ⟨serverId, rfl⟩
    · exact lookup hc
    · have hI : SetupState.Added k₀ id tags w.stock := hI
      rcases hI.edit (World.assignPort_edits now w id serverId) fun _ => rfl with
        ⟨e, -, ha⟩ | ⟨p, x, rfl, -, ha⟩
      · exact ha
      · exact ha
  | failed => exact hc.elim
  | stranded id => exact hc.elim

/-! ### Setting up obeys its monitor -/

namespace Setup

variable {α β : Type} {M : Monitor calls} {q : M.State}

/-- A part of setting up that obeys a monitor, whatever was resolved before. -/
def Obeys (M : Monitor calls) (m : Setup α) (q : M.State)
    (post : Except PortError α → M.State → Prop) : Prop :=
  ∀ r, (m.run.run r).Obeys M q fun a q' => post a.1 q'

variable {post post' : Except PortError α → M.State → Prop}

theorem Obeys.mono {m : Setup α} (h : m.Obeys M q post) (hp : ∀ a q, post a q → post' a q) :
    m.Obeys M q post' :=
  fun r => (h r).mono fun _ _ => hp _ _

theorem Obeys.bind {m : Setup α} {f : α → Setup β} {post : Except PortError β → M.State → Prop}
    (h : m.Obeys M q fun
      | .ok a, q' => (f a).Obeys M q' post
      | .error e, q' => post (.error e) q') :
    (m >>= f).Obeys M q post := by
  intro r
  rw [ExceptT.run_bind, StateT.run_bind]
  refine Program.Obeys.bind ((h r).mono ?_)
  rintro ⟨a | a, r'⟩ q' ha
  · exact ha
  · exact ha r'

theorem obeys_pure {a : α} (h : post (.ok a) q) : (pure a : Setup α).Obeys M q post := fun _ => h

theorem obeys_throw {e : PortError} (h : post (.error e) q) :
    (throw e : Setup α).Obeys M q post := fun _ => h

theorem obeys_modify {f : Resolved → Resolved} {post : Except PortError Unit → M.State → Prop}
    (h : post (.ok ()) q) : (modify f : Setup Unit).Obeys M q post := fun _ => h

theorem obeys_attempt {report : Failure → PortError} {c : Call}
    {post : Except PortError c.Result → M.State → Prop} (hc : M.allows q c)
    (hok : ∀ x, post (.ok x) (M.next q c (.ok x)))
    (herror : ∀ e, post (.error (report e)) (M.next q c (.error e))) :
    (attempt report c).Obeys M q post := by
  refine fun r => ⟨hc, fun x => ?_⟩
  cases x with
  | ok x => exact hok x
  | error e => exact herror e

/-- A part of setting up that only looks things up. -/
def Looks (m : Setup α) : Prop :=
  ∀ (q : SetupState) (tags : List String), (∀ c, c.isCacheable → q.allows tags c) →
    m.Obeys (setupMonitor tags) q fun _ q' => q' = q

theorem looks_pure (a : α) : (pure a : Setup α).Looks := fun _ _ _ => obeys_pure rfl

theorem looks_attempt {report : Failure → PortError} {c : Call} (h : c.isCacheable) :
    (attempt report c).Looks := fun q _ hq =>
  obeys_attempt (hq c h) (fun _ => SetupState.next_of_cacheable h q _)
    fun _ => SetupState.next_of_cacheable h q _

theorem Looks.bind {m : Setup α} {f : α → Setup β} (h : m.Looks) (hf : ∀ a, (f a).Looks) :
    (m >>= f).Looks := by
  intro q tags hq
  refine Obeys.bind ((h q tags hq).mono ?_)
  rintro (e | a) q' rfl
  · rfl
  · exact hf a q' tags hq

theorem Looks.mapM {f : β → Setup α} {xs : List β} (h : ∀ x, (f x).Looks) :
    (xs.mapM f).Looks := by
  induction xs with
  | nil => exact looks_pure []
  | cons x xs ih =>
    rw [List.mapM_cons]
    exact (h x).bind fun _ => ih.bind fun _ => looks_pure _

theorem owner_looks (projectName : Option String) : (owner projectName).Looks := by
  unfold owner
  split
  · exact looks_pure _
  · exact (looks_attempt rfl).bind fun _ => looks_pure _

theorem groupIds_looks (projectName : Option String) (names : List String) :
    (groupIds projectName names).Looks :=
  (owner_looks projectName).bind fun _ =>
    .mapM fun _ => (looks_attempt rfl).bind fun _ => looks_pure _

theorem groups_looks (o : SetupOptions) : (groups o).Looks := by
  unfold groups
  split
  · exact (groupIds_looks _ _).bind fun _ => looks_pure _
  · exact looks_pure _

theorem pinned_looks (o : SetupOptions) (networkId : String) : (pinned o networkId).Looks := by
  unfold pinned
  split
  · exact looks_pure _
  · exact (looks_attempt rfl).bind fun _ => looks_pure _

/-- After its lookups, setting up goes on in the same state or ends with an error. -/
theorem Looks.obeys_bind {tags : List String} {q : SetupState} {m : Setup α} {f : α → Setup Unit}
    (h : m.Looks) (hq : ∀ c, c.isCacheable → q.allows tags c)
    (hend : ∀ e, SetupState.Ends (.error e) q)
    (hf : ∀ a, (f a).Obeys (setupMonitor tags) q SetupState.Ends) :
    (m >>= f).Obeys (setupMonitor tags) q SetupState.Ends := by
  refine Obeys.bind ((h q tags hq).mono ?_)
  rintro (e | a) q' rfl
  · exact hend e
  · exact hf a

theorem tagged_obeys {o : SetupOptions} (ht : o.tags ≠ []) (port : Port) :
    (tagged o port).Obeys (setupMonitor o.tags) (.made port.id) fun
      | .ok p, q => q = .tagged port.id ∧ p.id = port.id
      | .error e, q => SetupState.Ends (.error e) q := by
  unfold tagged
  rw [if_neg ht]
  refine Obeys.bind (obeys_attempt rfl (fun _ => ?_) fun e => ?_)
  · exact Obeys.bind (obeys_modify (obeys_pure ⟨rfl, rfl⟩))
  · exact ⟨e, rfl⟩

theorem plugged_obeys (o : SetupOptions) (portId serverId : String) :
    (plugged o portId serverId).Obeys (setupMonitor o.tags) (.tagged portId) SetupState.Ends := by
  unfold plugged
  split
  · exact obeys_pure trivial
  · refine Obeys.bind (obeys_attempt (.inr ⟨serverId, rfl⟩) (fun _ => ?_) fun _ => trivial)
    exact obeys_modify trivial

theorem all_obeys {o : SetupOptions} (ht : o.tags ≠ []) :
    (all o).Obeys (setupMonitor o.tags) .looking SetupState.Ends := by
  have looking {α : Type} {m : Setup α} {f : α → Setup Unit} (h : m.Looks)
      (hf : ∀ a, (f a).Obeys (setupMonitor o.tags) .looking SetupState.Ends) :
      (m >>= f).Obeys (setupMonitor o.tags) .looking SetupState.Ends :=
    h.obeys_bind (fun _ hc => .inl hc) (fun e => ⟨e, rfl⟩) hf
  unfold all
  refine looking (looks_attempt rfl) fun server => Obeys.bind (obeys_modify ?_)
  refine looking (looks_attempt rfl) fun network => Obeys.bind (obeys_modify ?_)
  refine looking (groups_looks o) fun groups => looking (pinned_looks o network.id) fun subnets => ?_
  refine Obeys.bind (obeys_attempt (.inr ⟨_, _, rfl⟩) (fun port => ?_) fun e => ⟨e, rfl⟩)
  refine Obeys.bind (obeys_modify (Obeys.bind ((tagged_obeys ht port).mono ?_)))
  rintro (e | p) q h
  · exact h
  · obtain ⟨rfl, hid⟩ := h
    dsimp only
    split
    · exact obeys_throw trivial
    · refine Looks.obeys_bind (looks_attempt rfl) (fun _ hc => .inl hc) (fun _ => trivial) fun _ => ?_
      rw [hid]
      exact Obeys.bind (obeys_modify (plugged_obeys o port.id server.id))

end Setup

theorem setupPort_obeys {o : SetupOptions} (ht : o.tags ≠ []) :
    (setupPort o).Obeys (setupMonitor o.tags) .looking fun
      | .ok _, q => SetupState.Ends (.ok ()) q
      | .error e, q => SetupState.Ends (.error e.cause) q := by
  refine Program.Obeys.bind ((Setup.all_obeys ht {}).mono ?_)
  rintro ⟨e | a, r⟩ q h <;> exact h

end ContainerPorts.Cloud
