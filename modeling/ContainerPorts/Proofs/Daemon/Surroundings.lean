import ContainerPorts.Proofs.Cloud.Shares
import ContainerPorts.Proofs.Daemon.Site
import ContainerPorts.Proofs.Interleaving

/-!
# A site whose surroundings change

From one request to the next the cloud may refuse other kinds of calls, and other
processes may run on the host. Some clouds also refuse to unplug a port that is not
plugged in. Of one port, a request that is answered under any surroundings changes
only what it was asked to change, and only if it succeeds.
-/
namespace ContainerPorts

open Cloud

/-- Whether a port is plugged into a device, or not down. -/
def Cloud.Port.isPlugged (p : Port) : Bool := p.deviceId ≠ "" || !p.isDown

@[simp] theorem Cloud.World.isPlugged_attach (serverId : String) (p : Port) :
    (attach serverId p).isPlugged = true := by
  have hactive : (attach serverId p).isDown = false := rfl
  simp [Port.isPlugged, hactive]

/-- What a site is surrounded by at one moment. -/
structure Surroundings where
  /-- The kinds of calls that are refused, each with its message. -/
  refusals : List (Method × String) := []
  processes : List String := []
  /-- The address and the text with which the cloud refuses to unplug a port that is not plugged
  in, if it does. -/
  unplugged : Option (String × String) := none

namespace Surroundings

/-- Why a port cannot be unplugged. -/
def refusal? (m : Surroundings) (w : World) (id : String) : Option Failure :=
  match m.unplugged, w.port? id with
  | some (url, body), some p => if p.isPlugged then none else some (.api "DELETE" url 404 body)
  | _, _ => none

theorem of_refusal? {m : Surroundings} {w : World} {id : String} {f : Failure}
    (h : m.refusal? w id = some f) :
    ∃ p url body, w.port? id = some p ∧ p.isPlugged = false ∧ f = .api "DELETE" url 404 body := by
  unfold refusal? at h
  split at h
  · rename_i url body p _ hp
    split_ifs at h with hplugged
    exact ⟨p, url, body, hp, by simpa using hplugged, (Option.some.inj h).symm⟩
  · cases h

end Surroundings

namespace Site

def amid (m : Surroundings) (s : Site) : Site :=
  { s with world := { s.world with refusals := m.refusals }, processes := m.processes }

@[simp] theorem stock_amid (m : Surroundings) (s : Site) : (s.amid m).stock = s.stock := rfl

/-- Answer a request that was made and refused. -/
def refuse {c : Call} (s : Site) (f : Failure) : c.Answer × Site :=
  (.error f, { s.tick with world := s.tick.world.remember c })

def answerAmid (m : Surroundings) (e : Effect) (s : Site) : e.Answer × Site :=
  match e with
  | .cloud (.detachPort id serverId) =>
    match m.refusal? s.world id with
    | some f => (s.amid m).refuse f
    | none => (s.amid m).answer (.cloud (.detachPort id serverId))
  | e => (s.amid m).answer e

/-- A request is answered as ever, unless it is to unplug a port that is not plugged in. -/
theorem answerAmid_cases (m : Surroundings) (e : Effect) (s : Site) :
    s.answerAmid m e = (s.amid m).answer e ∨
      ∃ id serverId p url body, e = .cloud (.detachPort id serverId) ∧
        s.stock.port? id = some p ∧ p.isPlugged = false ∧
        (⟨e, (s.answerAmid m e).1⟩ : Program.Reply effects) =
          ⟨.cloud (.detachPort id serverId), .error (.api "DELETE" url 404 body)⟩ ∧
        (s.answerAmid m e).2.stock = s.stock := by
  unfold answerAmid
  split
  · rename_i id serverId
    cases hr : m.refusal? s.world id with
    | none => exact .inl rfl
    | some f =>
      obtain ⟨p, url, body, hp, hplugged, rfl⟩ := Surroundings.of_refusal? hr
      exact .inr ⟨id, serverId, p, url, body, rfl, hp, hplugged, rfl, rfl⟩
  · exact .inl rfl

end Site

/-! ### One port -/

/-- The port that a call changes, and how. -/
def Cloud.Call.edit? : Call → Option (String × (Port → Port))
  | .assignPort id serverId => some (id, World.attach serverId)
  | .detachPort id _ => some (id, World.unplug)
  | .setPortTags id tags => some (id, fun p => { p with tags := tags })
  | _ => none

theorem Cloud.Call.target?_of_cacheable {c : Call} (h : c.isCacheable) : c.target? = none := by
  cases c <;> first | rfl | simp [isCacheable, caching?] at h

/-- What an answered request made of one port: it left the port alone, unless it was a call for it
that succeeded. -/
inductive Turnover (id : String) (k k' : Stock) : Program.Reply effects → Prop
  | same {r} (hr : ∀ c x, r = ⟨.cloud c, .ok x⟩ → c.target? ≠ some id)
    (h : k'.port? id = k.port? id) : Turnover id k k' r
  | created {r x p} (hid : id = World.portId (k.lastNumber + 1))
    (hnumber : k'.lastNumber = k.lastNumber + 1) :
    Turnover id k k' ⟨.cloud (.createPort r x), .ok p⟩
  | edited {c x f p} (hc : c.edit? = some (id, f)) (hp : k.port? id = some p)
    (hp' : k'.port? id = some (f p)) : Turnover id k k' ⟨.cloud c, .ok x⟩
  | deleted {p} (hp : k.port? id = some p) (hp' : k'.port? id = none) :
    Turnover id k k' ⟨.cloud (.deletePort id), .ok ()⟩

namespace Turnover

variable {id : String} {k k' : Stock} {c : Call} {a : c.Answer} {w : World} {now : Instant}

theorem of_ne (hc : c.target? ≠ some id) (h : k'.port? id = k.port? id) :
    Turnover id k k' ⟨.cloud c, a⟩ := by
  refine .same (fun c' x hr => ?_) h
  obtain rfl : c = c' := Effect.cloud.inj (congrArg Sigma.fst hr)
  exact hc

theorem of_error {f : Failure} (ha : a = .error f) (h : k'.port? id = k.port? id) :
    Turnover id k k' ⟨.cloud c, a⟩ := by
  refine .same (fun c' x hr => ?_) h
  obtain rfl : c = c' := Effect.cloud.inj (congrArg Sigma.fst hr)
  cases ha.symm.trans (eq_of_heq (Sigma.mk.inj hr).2)

theorem of_edits {other : String} {f : Port → Port} {r : c.Answer × World}
    (he : World.Edits other f k r) (hc : c.edit? = some (other, f)) (ht : c.target? = some other)
    (hf : ∀ p, (f p).id = p.id) : Turnover id k r.2.stock ⟨.cloud c, r.1⟩ := by
  rcases he with ⟨e, ha, hs⟩ | ⟨p, x, hp, ha, hs⟩
  · exact of_error ha (by rw [hs])
  · have hid : (f p).id = other := (hf p).trans (Stock.id_of_port? hp)
    by_cases hother : other = id
    · subst hother
      rw [ha]
      refine .edited hc hp ?_
      rw [hs, ← hid]
      exact Stock.port?_put_self k (f p)
    · refine of_ne (by simpa [ht] using hother) ?_
      rw [hs, Stock.port?_put_of_ne (by rw [hid]; exact Ne.symm hother)]

theorem of_createPort (r : PortRequest) (x : Option PortExtension) :
    Turnover id w.stock (w.answer now (.createPort r x)).2.stock
      ⟨.cloud (.createPort r x), (w.answer now (.createPort r x)).1⟩ := by
  rcases World.createPort_cases now w r x with ⟨e, ha, hs⟩ | ⟨p, ha, hid, -, hs⟩
  · exact of_error ha (by rcases hs with hs | hs <;> rw [hs]; rfl)
  · by_cases hne : id = p.id
    · rw [ha]
      exact .created (hne.trans hid) (by rw [hs]; rfl)
    · refine of_ne nofun ?_
      rw [hs, Stock.port?_put_of_ne hne, Stock.port?_count]

theorem of_deletePort (other : String) :
    Turnover id w.stock (w.answer now (.deletePort other)).2.stock
      ⟨.cloud (.deletePort other), (w.answer now (.deletePort other)).1⟩ := by
  rcases World.answer_cases now w (.deletePort other) with ⟨message, ha⟩ | ha
  · rw [ha]
    exact of_error rfl rfl
  · rw [ha]
    simp only [World.perform]
    cases hp : (w.remember (.deletePort other)).port? other with
    | none => exact of_error rfl rfl
    | some p =>
      by_cases hother : other = id
      · subst hother
        exact .deleted hp (Stock.port?_erase_self w.stock other)
      · exact of_ne (by simpa [Call.target?] using hother)
          (Stock.port?_erase_of_ne (Ne.symm hother) w.stock)

/-- What a call makes of a port of a world. -/
theorem of_answer (now : Instant) (w : World) (c : Call) (id : String) :
    Turnover id w.stock (w.answer now c).2.stock ⟨.cloud c, (w.answer now c).1⟩ := by
  cases c with
  | assignPort other serverId =>
    exact of_edits (World.assignPort_edits now w other serverId) rfl rfl fun _ => rfl
  | detachPort other serverId =>
    exact of_edits (World.detachPort_edits now w other serverId) rfl rfl fun _ => rfl
  | setPortTags other tags =>
    exact of_edits (World.setPortTags_edits now w other tags) rfl rfl fun _ => rfl
  | createPort r x => exact of_createPort r x
  | deletePort other => exact of_deletePort other
  | _ => exact of_ne nofun (by rw [World.stock_answer_of_lookup rfl])

/-- A port that is not there is created, if anything. -/
theorem of_none {r : Program.Reply effects} (h : Turnover id k k' r) (hnone : k.port? id = none) :
    k'.port? id = none ∨
      id = World.portId (k.lastNumber + 1) ∧ k'.lastNumber = k.lastNumber + 1 := by
  cases h with
  | same _ h => exact .inl (h.trans hnone)
  | created hid hnumber => exact .inr ⟨hid, hnumber⟩
  | edited _ hp _ => cases hnone.symm.trans hp
  | deleted _ hp' => exact .inl hp'

theorem none_of_deletePort (h : Turnover id k k' ⟨.cloud (.deletePort id), .ok ()⟩) :
    k'.port? id = none := by
  cases h with
  | same hr _ => exact absurd rfl (hr (.deletePort id) () rfl)
  | edited hc _ _ => cases hc
  | deleted _ hp' => exact hp'

/-- A call for a port that succeeds finds the port there. -/
theorem exists_of_target? {x : c.Result} (h : Turnover id k k' ⟨.cloud c, .ok x⟩)
    (hc : c.target? = some id) : ∃ p, k.port? id = some p := by
  cases h with
  | same hr _ => exact absurd hc (hr c x rfl)
  | created => cases hc
  | edited _ hp _ => exact ⟨_, hp⟩
  | deleted hp _ => exact ⟨_, hp⟩

end Turnover

namespace Site

theorem turnover_answer (s : Site) (e : Effect) (id : String) :
    Turnover id s.stock (s.answer e).2.stock ⟨e, (s.answer e).1⟩ := by
  cases e with
  | cloud c =>
    cases hc : c.isCacheable with
    | true =>
      refine .of_ne ?_ (by rw [stock_answer_of_cacheable hc])
      rw [Call.target?_of_cacheable hc]
      exact Option.some_ne_none id |>.symm
    | false =>
      rw [stock, stock, (answer_of_not_cacheable hc).1, (answer_of_not_cacheable hc).2]
      exact .of_answer s.tick.now s.world c id
  | _ => exact .same (fun c x hr => by cases congrArg Sigma.fst hr) rfl

/-- Whatever the surroundings, what a request makes of a port. -/
theorem turnover_answerAmid (m : Surroundings) (s : Site) (e : Effect) (id : String) :
    Turnover id s.stock (s.answerAmid m e).2.stock ⟨e, (s.answerAmid m e).1⟩ := by
  rcases answerAmid_cases m e s with ha | ⟨other, serverId, p, url, body, rfl, -, -, ha, hs⟩
  · rw [ha]
    exact turnover_answer (s.amid m) e id
  · rw [ha]
    exact .of_error rfl (by rw [hs])

theorem lastNumber_answer_le (s : Site) (e : Effect) :
    s.stock.lastNumber ≤ (s.answer e).2.stock.lastNumber := by
  cases e with
  | cloud c =>
    cases hc : c.isCacheable with
    | true => exact Nat.le_of_eq (congrArg Stock.lastNumber (stock_answer_of_cacheable hc)).symm
    | false =>
      change s.world.lastNumber ≤ (s.answer (.cloud c)).2.world.lastNumber
      rw [(answer_of_not_cacheable hc).2, World.lastNumber_answer]
      split_ifs <;> omega
  | _ => exact Nat.le_refl _

theorem lastNumber_answerAmid_le (m : Surroundings) (s : Site) (e : Effect) :
    s.stock.lastNumber ≤ (s.answerAmid m e).2.stock.lastNumber := by
  rcases answerAmid_cases m e s with ha | ⟨other, serverId, p, url, body, -, -, -, -, hs⟩
  · rw [ha]
    exact lastNumber_answer_le (s.amid m) e
  · exact Nat.le_of_eq (congrArg Stock.lastNumber hs).symm

/-- Numbers that are still to come stay free. -/
theorem fresh_answerAmid {s : Site} (h : s.stock.Fresh) (m : Surroundings) (e : Effect) :
    (s.answerAmid m e).2.stock.Fresh := by
  intro n hn
  have hle := lastNumber_answerAmid_le m s e
  have hnone : s.stock.port? (World.portId n) = none := h n (Nat.lt_of_le_of_lt hle hn)
  rcases (turnover_answerAmid m s e (World.portId n)).of_none hnone with hnone | ⟨hid, hnumber⟩
  · exact hnone
  · obtain rfl := World.portId_injective hid
    omega

end Site

/-! ### Requests of many tasks -/

/-- The ports when these requests have been answered. -/
def stockAfter {ι : Type} (start : Site) (es : List (Exchange effects ι Surroundings)) : Stock :=
  (Exchange.stateAfter Site.answerAmid start es).stock

section

variable {ι : Type} {start : Site} {e : Exchange effects ι Surroundings}
  {es before after : List (Exchange effects ι Surroundings)} {id : String}

theorem stockAfter_concat : stockAfter start (es ++ [e]) =
    ((Exchange.stateAfter Site.answerAmid start es).answerAmid
      e.turn.setting e.request).2.stock := by
  simp [stockAfter, Exchange.stateAfter]

theorem lastNumber_stockAfter_le (es' : List (Exchange effects ι Surroundings)) :
    (stockAfter start es).lastNumber ≤ (stockAfter start (es ++ es')).lastNumber := by
  induction es' using List.reverseRecOn with
  | nil => simp
  | append_singleton es' e ih =>
    rw [← List.append_assoc, stockAfter_concat]
    exact Nat.le_trans ih (Site.lastNumber_answerAmid_le ..)

theorem fresh_stockAfter (h : start.stock.Fresh) (es : List (Exchange effects ι Surroundings)) :
    (stockAfter start es).Fresh := by
  induction es using List.reverseRecOn with
  | nil => exact h
  | append_singleton es e ih =>
    rw [stockAfter_concat]
    exact Site.fresh_answerAmid ih e.turn.setting e.request

variable [DecidableEq ι] {α : ι → Type} {left : (i : ι) → Program effects (α i)}
  {ts : List (Turn ι Surroundings)} {x : Interleaving effects α Site Surroundings}

/-- A call that goes past the cache is answered by a world with the ports of that moment, unless it
is to unplug a port that is not plugged in. -/
theorem Interleaving.Traced.answered (h : Traced Site.answerAmid left start ts x)
    {t : Turn ι Surroundings} {c : Call} {a : c.Answer}
    (htrace : x.trace = before ++ ⟨t, .cloud c, a⟩ :: after) (hc : c.isCacheable = false) :
    (∃ now, ∃ w : World, w.stock = stockAfter start before ∧ (w.answer now c).1 = a) ∨
      ∃ id serverId p url body, c = .detachPort id serverId ∧
        (stockAfter start before).port? id = some p ∧ p.isPlugged = false ∧
        (⟨.cloud c, a⟩ : Program.Reply effects) =
          ⟨.cloud (.detachPort id serverId), .error (.api "DELETE" url 404 body)⟩ := by
  have ha := h.answers _ _ _ htrace
  change a = _ at ha
  rcases Site.answerAmid_cases t.setting (.cloud c)
    (Exchange.stateAfter Site.answerAmid start before) with
    hs | ⟨id, serverId, p, url, body, hr, hp, hplugged, hreply, -⟩
  · rw [hs, (Site.answer_of_not_cacheable hc).1] at ha
    exact .inl ⟨_, _, Site.stock_amid t.setting _, ha.symm⟩
  · exact .inr ⟨id, serverId, p, url, body, Effect.cloud.inj hr, hp, hplugged, ha ▸ hreply⟩

/-- What a request of a task makes of a port. -/
theorem Interleaving.Traced.turnover (h : Traced Site.answerAmid left start ts x)
    (htrace : x.trace = before ++ e :: after) (id : String) :
    Turnover id (stockAfter start before) (stockAfter start (before ++ [e])) e.reply := by
  have ha := h.answers before e after htrace
  rw [stockAfter_concat, Exchange.reply, ha]
  exact Site.turnover_answerAmid ..

/-- What is true at some moment, and stays true whatever a request makes of a port, is true later. -/
theorem Interleaving.Traced.since (h : Traced Site.answerAmid left start ts x)
    {early late : List (Exchange effects ι Surroundings)}
    (htrace : x.trace = early ++ (late ++ after)) (id : String)
    (Told : List (Exchange effects ι Surroundings) → Stock → Prop)
    (hfirst : Told [] (stockAfter start early))
    (hnext : ∀ l e k k', e ∈ x.trace → (stockAfter start early).lastNumber ≤ k.lastNumber →
      Turnover id k k' e.reply → Told l k → Told (l ++ [e]) k') :
    Told late (stockAfter start (early ++ late)) := by
  have hconcat (l : List (Exchange effects ι Surroundings)) (e : Exchange effects ι Surroundings)
      (l' : List (Exchange effects ι Surroundings)) (hlate : late = l ++ e :: l')
      (ih : Told l (stockAfter start (early ++ l))) :
      Told (l ++ [e]) (stockAfter start (early ++ (l ++ [e]))) := by
    have hsplit : x.trace = (early ++ l) ++ e :: (l' ++ after) := by simp [htrace, hlate]
    rw [← List.append_assoc]
    exact hnext l e _ _ (by simp [hsplit]) (lastNumber_stockAfter_le l) (h.turnover hsplit id) ih
  rw [← List.append_nil early] at hfirst
  exact concat_induction (P := fun l => Told l (stockAfter start (early ++ l))) hfirst hconcat

end

end ContainerPorts
