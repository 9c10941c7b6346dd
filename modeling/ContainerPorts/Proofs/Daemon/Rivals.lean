import ContainerPorts.Proofs.Daemon.Handling
import ContainerPorts.Proofs.Daemon.Reaping
import ContainerPorts.Proofs.Daemon.Surroundings

/-!
# Tearing down among rivals

While a teardown goes on, other teardowns and passes of the reaper may be after the
same port. Nothing that they do brings a port back, so the port that was found goes in
the end. But a teardown that is overtaken, because a rival deletes its port before it
has come so far itself, fails with what it is there for. And it cannot be repeated in a
cloud that refuses to unplug a port that is not plugged in, once the port was unplugged
but not deleted.
-/
namespace ContainerPorts

open Cloud

namespace Cloud

/-- How far a teardown has come, and which call made it fail. -/
inductive TeardownCourse where
  | seeking
  /-- No port carries the tags. -/
  | absent
  | found (p : Port)
  | deleted (p : Port)
  | failed (c : Call) (e : Failure)

namespace TeardownCourse

/-- The calls for a port that was found. -/
def Handles (p : Port) (c : Call) : Prop :=
  (∃ name, c = .serverByName name) ∨ (∃ serverId, c = .detachPort p.id serverId) ∨
    c = .deletePort p.id

theorem Handles.ne_lookup {p : Port} {c : Call} (h : Handles p c) (tags : List String) :
    c ≠ .portByTags tags := by
  rcases h with ⟨name, rfl⟩ | ⟨serverId, rfl⟩ | rfl <;> nofun

theorem Handles.of_target? {p : Port} {c : Call} (h : Handles p c) {id : String}
    (hid : c.target? = some id) : p.id = id ∧ c.isCacheable = false := by
  rcases h with ⟨name, rfl⟩ | ⟨serverId, rfl⟩ | rfl
  · cases hid
  · exact ⟨Option.some.inj hid, rfl⟩
  · exact ⟨Option.some.inj hid, rfl⟩

def allows (tags : List String) : TeardownCourse → Call → Prop
  | .seeking, c => c = .portByTags tags
  | .found p, c => Handles p c
  | .absent, _ => False
  | .deleted _, _ => False
  | .failed .., _ => False

def next : TeardownCourse → (c : Call) → c.Answer → TeardownCourse
  | .seeking, .portByTags _, .ok p => .found p
  | .seeking, .portByTags _, .error (.notFound .port) => .absent
  | .found p, .deletePort _, .ok _ => .deleted p
  | _, c, .error e => .failed c e
  | q, _, .ok _ => q

/-- The results that a teardown can end with in a state. -/
def Ends : Except PortError Unit → TeardownCourse → Prop
  | _, .seeking => False
  | _, .found _ => False
  | a, .absent => a = .ok ()
  | a, .deleted _ => a = .ok ()
  | a, .failed .. => ∃ e, a = .error e

end TeardownCourse

def courseMonitor (tags : List String) : Monitor calls where
  State := TeardownCourse
  allows := TeardownCourse.allows tags
  next := TeardownCourse.next

theorem teardownPort_obeys_course (o : TeardownOptions) :
    (teardownPort o).Obeys (courseMonitor o.tags) .seeking TeardownCourse.Ends := by
  have delete (p : Port) : (attempt (.cloud .deletePort) (.deletePort p.id)).run.Obeys
      (courseMonitor o.tags) (.found p) TeardownCourse.Ends := by
    refine ⟨.inr (.inr rfl), fun x => ?_⟩
    cases x with
    | ok _ => exact rfl
    | error e => exact ⟨_, rfl⟩
  refine ⟨rfl, fun x => ?_⟩
  cases x with
  | ok p =>
    dsimp only
    unfold unplugged
    split
    · exact delete p
    · change Program.Obeys _ (_ >>= _ >>= _ : ExceptT PortError (Program calls) Unit).run _ _
      rw [bind_assoc]
      refine attempt_obeys (.inl ⟨_, rfl⟩) (fun server => ?_) fun e => ⟨_, rfl⟩
      exact attempt_obeys (.inr (.inl ⟨_, rfl⟩)) (fun _ => delete p) fun e => ⟨_, rfl⟩
  | error e =>
    cases e with
    | notFound kind =>
      cases kind with
      | port => exact rfl
      | _ => exact ⟨_, rfl⟩
    | _ => exact ⟨_, rfl⟩

end Cloud

/-! ### What a teardown was answered -/

namespace Cloud.TeardownCourse

variable {tags : List String} {es : List (Program.Reply effects)}

/-- The port was found, and every call for it has succeeded, none of which deleted it. -/
def Handled (tags : List String) (p : Port) (es : List (Program.Reply effects)) : Prop :=
  ∃ es', es = ⟨.cloud (.portByTags tags), .ok p⟩ :: es' ∧
    ∀ r ∈ es', ∃ c x, r = ⟨.cloud c, .ok x⟩ ∧ Handles p c ∧ c ≠ .deletePort p.id

/-- What a teardown was answered when it has come to a state. -/
def Recalls (tags : List String) (es : List (Program.Reply effects)) : TeardownCourse → Prop
  | .seeking => es = []
  | .absent => es = [⟨.cloud (.portByTags tags), .error (.notFound .port)⟩]
  | .found p => Handled tags p es
  | .deleted p => ∃ es', es = es' ++ [⟨.cloud (.deletePort p.id), .ok ()⟩] ∧ Handled tags p es'
  | .failed c e => ∃ es', es = es' ++ [⟨.cloud c, .error e⟩] ∧
      (es' = [] ∧ c = .portByTags tags ∧ e ≠ .notFound .port ∨
        ∃ p, Handled tags p es' ∧ Handles p c)

theorem Handled.concat {p : Port} {c : Call} {x : c.Result} (h : Handled tags p es)
    (hc : Handles p c) (hne : c ≠ .deletePort p.id) :
    Handled tags p (es ++ [⟨.cloud c, .ok x⟩]) := by
  obtain ⟨es', rfl, hes'⟩ := h
  refine ⟨es' ++ [⟨.cloud c, .ok x⟩], rfl, fun r hr => ?_⟩
  rcases List.mem_append.mp hr with hr | hr
  · exact hes' r hr
  · exact ⟨c, x, List.mem_singleton.mp hr, hc, hne⟩

theorem Handled.succeeded {p : Port} {c : Call} {a : c.Answer} (h : Handled tags p es)
    (hr : ⟨.cloud c, a⟩ ∈ es) : ∃ x, a = .ok x := by
  obtain ⟨es', rfl, hes'⟩ := h
  rcases List.mem_cons.mp hr with hr | hr
  · cases hr
    exact ⟨p, rfl⟩
  · obtain ⟨c', x, hr, -⟩ := hes' _ hr
    cases hr
    exact ⟨x, rfl⟩

/-- Only one lookup is made until the last call for the port, and it found the port. -/
theorem Handled.of_lookup {p : Port} {c : Call} {b : c.Answer} {a : Call.Answer (.portByTags tags)}
    (h : Handled tags p es) (hc : Handles p c)
    (hr : ⟨.cloud (.portByTags tags), a⟩ ∈ es ++ [⟨.cloud c, b⟩]) : a = .ok p := by
  rcases List.mem_append.mp hr with hr | hr
  · obtain ⟨es', rfl, hes'⟩ := h
    rcases List.mem_cons.mp hr with hr | hr
    · cases hr
      rfl
    · obtain ⟨c', x, hr, hc', -⟩ := hes' _ hr
      cases hr
      exact absurd rfl (hc'.ne_lookup tags)
  · cases List.mem_singleton.mp hr
    exact absurd rfl (hc.ne_lookup tags)

theorem Recalls.next {q : TeardownCourse} {c : Call} (h : q.Recalls tags es)
    (hc : q.allows tags c) (a : c.Answer) : (q.next c a).Recalls tags (es ++ [⟨.cloud c, a⟩]) := by
  cases q with
  | seeking =>
    obtain rfl : c = .portByTags tags := hc
    obtain rfl : es = [] := h
    cases a with
    | ok p => exact ⟨[], rfl, List.forall_mem_nil _⟩
    | error e =>
      have failed (hne : e ≠ .notFound .port) :
          (TeardownCourse.failed (.portByTags tags) e).Recalls tags
            [⟨.cloud (.portByTags tags), .error e⟩] :=
        ⟨[], rfl, .inl ⟨rfl, rfl, hne⟩⟩
      cases e with
      | notFound kind =>
        cases kind with
        | port => exact rfl
        | _ => exact failed fun h => by cases h
      | _ => exact failed fun h => by cases h
  | found p =>
    cases a with
    | error e =>
      have hfailed : (TeardownCourse.failed c e).Recalls tags (es ++ [⟨.cloud c, .error e⟩]) :=
        ⟨es, rfl, .inr ⟨p, h, hc⟩⟩
      rcases hc with ⟨name, rfl⟩ | ⟨serverId, rfl⟩ | rfl <;> exact hfailed
    | ok x =>
      rcases hc with ⟨name, rfl⟩ | ⟨serverId, rfl⟩ | rfl
      · exact h.concat (.inl ⟨name, rfl⟩) fun h => by cases h
      · exact h.concat (.inr (.inl ⟨serverId, rfl⟩)) fun h => by cases h
      · exact ⟨es, rfl, h⟩
  | absent => exact hc.elim
  | deleted p => exact hc.elim
  | failed c e => exact hc.elim

/-- What a teardown was answered decides how it ended. -/
theorem of_follows {o : TeardownOptions} {a : Except PortError Unit}
    (h : (Effect.onCloud (teardownPort o)).Follows es (.done a)) :
    ∃ q : TeardownCourse, Ends a q ∧ q.Recalls o.tags es :=
  h.exists_obeys (M := (courseMonitor o.tags).onCloud)
    (H := fun es (q : TeardownCourse) => q.Recalls o.tags es) (teardownPort_obeys_course o).onCloud
    (show Recalls o.tags [] .seeking from rfl) fun _ (q : TeardownCourse) e a hes he => by
      obtain ⟨c, rfl, hc⟩ := Monitor.exists_call_of_allows he
      exact hes.next hc a

end Cloud.TeardownCourse

/-! ### What the cloud says of a port -/

namespace Cloud.World

variable {now : Instant} {w : World} {c : Call} {id : String}

/-- A port is said to be missing only if it is. -/
theorem port?_eq_none_of_notFound (hc : c.target? = some id)
    (h : (w.answer now c).1 = .error (.notFound .port)) : w.port? id = none := by
  have edited {α : Type} {f : Port → Port} {g : Port → α}
      (h : ((w.remember c).onPort id f g).1 = .error (.notFound .port)) : w.port? id = none := by
    unfold onPort at h
    cases hp : (w.remember c).port? id with
    | none => exact hp
    | some p => simp [hp] at h
  rcases answer_cases now w c with ⟨message, ha⟩ | ha
  · rw [ha] at h
    cases h
  · rw [ha] at h
    cases c with
    | assignPort other _ | detachPort other _ | setPortTags other _ =>
      obtain rfl := Option.some.inj hc
      exact edited h
    | deletePort other =>
      obtain rfl := Option.some.inj hc
      simp only [perform] at h
      split at h
      · cases h
      · rename_i hp
        exact hp
    | _ => cases hc

/-- A world refuses calls with the status 500 only. -/
theorem status_of_detachPort {serverId method url body : String} {status : ℕ}
    (h : (w.answer now (.detachPort id serverId)).1 = .error (.api method url status body)) :
    status = 500 := by
  rcases answer_cases now w (.detachPort id serverId) with ⟨message, ha⟩ | ha
  · rw [ha] at h
    cases h
    rfl
  · rw [ha] at h
    simp only [perform, onPort] at h
    split at h <;> cases h

end Cloud.World

/-! ### Rivals -/

/-- Whether a request is to create, mark or plug in a port. -/
def Effect.furnishes : Effect → Bool
  | .cloud (.createPort ..) => true
  | .cloud (.setPortTags ..) => true
  | .cloud (.assignPort ..) => true
  | _ => false

/-- What may be after the port of a teardown. -/
inductive Rival where
  | teardown (o : TeardownOptions)
  | pass (config : ReaperConfig) (hostname : String)

namespace Rival

abbrev Outcome : Rival → Type
  | .teardown _ => Except PortError Unit
  | .pass .. => Except Failure (List Reaper.Fate)

def program : (r : Rival) → Program effects r.Outcome
  | .teardown o => Effect.onCloud (teardownPort o)
  | .pass config hostname => Reaper.pass config hostname

theorem program_asks (r : Rival) : r.program.Asks fun e : Effect => e.furnishes = false := by
  cases r with
  | teardown o =>
    refine (teardownPort_obeys_course o).onCloud.asks fun (q : TeardownCourse) e he => ?_
    obtain ⟨c, rfl, hc⟩ := Monitor.exists_call_of_allows he
    cases q with
    | seeking =>
      obtain rfl : c = .portByTags o.tags := hc
      rfl
    | found p => rcases hc with ⟨name, rfl⟩ | ⟨serverId, rfl⟩ | rfl <;> rfl
    | absent => exact hc.elim
    | deleted p => exact hc.elim
    | failed c e => exact hc.elim
  | pass config hostname =>
    refine (Reaper.pass_asks config hostname).mono fun e he => ?_
    rcases he with rfl | rfl | ⟨id, rfl⟩ <;> rfl

end Rival

/-- A teardown and its rivals. -/
abbrev contenders {κ : Type} (o : TeardownOptions) (rivals : κ → Rival) : Option κ → Rival
  | none => .teardown o
  | some k => rivals k

/-- A teardown and its rivals at their turns, each amid its surroundings. -/
def contest {κ : Type} [DecidableEq κ] (o : TeardownOptions) (rivals : κ → Rival) (start : Site)
    (ts : List (Turn (Option κ) Surroundings)) :
    Interleaving effects (fun i => (contenders o rivals i).Outcome) Site Surroundings :=
  Interleaving.run Site.answerAmid
    { left := fun i => (contenders o rivals i).program, state := start } ts

section

variable {κ : Type} [DecidableEq κ] {o : TeardownOptions} {rivals : κ → Rival} {start : Site}
  {ts : List (Turn (Option κ) Surroundings)}
  {x : Interleaving effects (fun i => (contenders o rivals i).Outcome) Site Surroundings}
  {early late after : List (Exchange effects (Option κ) Surroundings)}
  {t : Turn (Option κ) Surroundings} {id : String}
  (hx : Interleaving.Traced Site.answerAmid (fun i => (contenders o rivals i).program) start ts x)

include hx

theorem requests_of_contest : ∀ e ∈ x.trace, e.request.furnishes = false :=
  hx.request_of_asks (P := fun _ (e : Effect) => e.furnishes = false)
    fun i => (contenders o rivals i).program_asks

/-- A port that is there later was there before, with the same tags. -/
theorem exists_earlier (htrace : x.trace = early ++ (late ++ after)) {p' : Port}
    (hp' : (stockAfter start (early ++ late)).port? id = some p') :
    ∃ p, (stockAfter start early).port? id = some p ∧ p.tags = p'.tags := by
  refine hx.since htrace id (fun _ k => ∀ p', k.port? id = some p' →
    ∃ p, (stockAfter start early).port? id = some p ∧ p.tags = p'.tags)
    (fun p' hp' => ⟨p', hp', rfl⟩) (fun l e k k' he _ hturn ih p' hp' => ?_) p' hp'
  have hrequest := requests_of_contest hx e he
  obtain ⟨t, r, a⟩ := e
  change Turnover id k k' ⟨r, a⟩ at hturn
  cases hturn with
  | same _ hsame => exact ih p' (hsame.symm.trans hp')
  | created => cases hrequest
  | @edited c y f p hc hp hp'' =>
    obtain rfl : f p = p' := Option.some.inj (hp''.symm.trans hp')
    obtain ⟨q, hq, htags⟩ := ih p hp
    refine ⟨q, hq, htags.trans ?_⟩
    cases c with
    | detachPort other serverId =>
      obtain ⟨rfl, rfl⟩ := Prod.mk.inj (Option.some.inj hc)
      rfl
    | assignPort other serverId => cases hrequest
    | setPortTags other tags => cases hrequest
    | _ => cases hc
  | deleted _ hnone => cases hnone.symm.trans hp'

/-- A port that has gone was deleted. -/
theorem exists_deleted (htrace : x.trace = early ++ (late ++ after)) {p : Port}
    (hp : (stockAfter start early).port? id = some p)
    (hnone : (stockAfter start (early ++ late)).port? id = none) :
    ∃ e ∈ late, e.reply = ⟨.cloud (.deletePort id), .ok ()⟩ := by
  refine hx.since htrace id (fun l k => k.port? id = none →
    ∃ e ∈ l, e.reply = ⟨.cloud (.deletePort id), .ok ()⟩)
    (fun hnone => by cases hp.symm.trans hnone) (fun l e k k' he _ hturn ih hnone => ?_) hnone
  have hrequest := requests_of_contest hx e he
  obtain ⟨t, r, a⟩ := e
  change Turnover id k k' ⟨r, a⟩ at hturn
  cases hturn with
  | same _ hsame =>
    obtain ⟨e, he, hreply⟩ := ih (hsame.symm.trans hnone)
    exact ⟨e, List.mem_append_left _ he, hreply⟩
  | created => cases hrequest
  | edited _ _ hp' => cases hnone.symm.trans hp'
  | deleted => exact ⟨_, List.mem_append_right l (List.mem_singleton_self _), rfl⟩

/-- A port that was deleted does not come back. -/
theorem gone_of_deleted (htrace : x.trace = early ++ after)
    {e : Exchange effects (Option κ) Surroundings} (he : e ∈ early)
    (hreply : e.reply = ⟨.cloud (.deletePort id), .ok ()⟩) :
    (stockAfter start early).port? id = none := by
  obtain ⟨l, l', rfl⟩ := List.append_of_mem he
  have hsplit : x.trace = l ++ e :: (l' ++ after) := by simp [htrace]
  have hturn := hx.turnover hsplit id
  rw [hreply] at hturn
  have hgone := hturn.none_of_deletePort
  cases hp : (stockAfter start (l ++ e :: l')).port? id with
  | none => rfl
  | some p =>
    have hsince : x.trace = (l ++ [e]) ++ (l' ++ after) := by simp [htrace]
    rw [List.append_cons] at hp
    obtain ⟨p', hp', -⟩ := exists_earlier hx hsince hp
    cases hgone.symm.trans hp'

end

/-! ### How a teardown ends -/

/-- A rival deleted a port before the teardown came to its own call for it. -/
def Overtaken {κ : Type} (trace : List (Exchange effects (Option κ) Surroundings)) : Prop :=
  ∃ early t c a late id, trace = early ++ ⟨t, .cloud c, a⟩ :: late ∧ t.task = none ∧
    c.target? = some id ∧
    ∃ e ∈ early, e.turn.task ≠ none ∧ e.reply = ⟨.cloud (.deletePort id), .ok ()⟩

/-- The teardown was refused to unplug a port that was there, but not plugged in. -/
def Stuck {κ : Type} (start : Site)
    (trace : List (Exchange effects (Option κ) Surroundings)) : Prop :=
  ∃ early t id serverId f late p,
    trace = early ++ ⟨t, .cloud (.detachPort id serverId), .error f⟩ :: late ∧ t.task = none ∧
      (stockAfter start early).port? id = some p ∧ p.isPlugged = false

/-- An answer that is no failure, or a failure that tells that the port is gone or unplugged. -/
inductive Excused : Program.Reply effects → Prop
  | succeeded {c : Call} {x : c.Result} : Excused ⟨.cloud c, .ok x⟩
  | unknown {tags : List String} : Excused ⟨.cloud (.portByTags tags), .error (.notFound .port)⟩
  | gone {c : Call} {id : String} (hc : c.target? = some id) :
    Excused ⟨.cloud c, .error (.notFound .port)⟩
  | unplugged {id serverId method url body : String} :
    Excused ⟨.cloud (.detachPort id serverId), .error (.api method url 404 body)⟩

section

variable {κ : Type} [DecidableEq κ] {o : TeardownOptions} {rivals : κ → Rival} {start : Site}
  {ts : List (Turn (Option κ) Surroundings)}
  {x : Interleaving effects (fun i => (contenders o rivals i).Outcome) Site Surroundings}
  {early late after : List (Exchange effects (Option κ) Surroundings)}
  {t : Turn (Option κ) Surroundings} {tags : List String} {p : Port}

section

variable
  (hx : Interleaving.Traced Site.answerAmid (fun i => (contenders o rivals i).program) start ts x)

include hx

/-- A port is found as it is. -/
theorem port?_of_found
    (htrace : x.trace = early ++ ⟨t, .cloud (.portByTags tags), .ok p⟩ :: after) :
    (stockAfter start early).port? p.id = some p := by
  rcases hx.answered htrace rfl with ⟨now, w, hw, ha⟩ | ⟨_, _, _, _, _, hc, -⟩
  · rcases World.portByTags_cases now w tags with ⟨q, hq, hfirst⟩ | ⟨e, he, -⟩
    · obtain rfl : q = p := Except.ok.inj (hq.symm.trans ha)
      rw [← hw]
      exact World.mem_portList.mp (List.mem_of_find?_eq_some hfirst)
    · cases he.symm.trans ha
  · cases hc

/-- If no port is found, then no port has the tags. -/
theorem not_carries_of_unknown
    (htrace : x.trace =
      early ++ ⟨t, .cloud (.portByTags tags), .error (.notFound .port)⟩ :: after) :
    ¬ (stockAfter start early).Carries tags p := by
  rintro ⟨hp, htags⟩
  rcases hx.answered htrace rfl with ⟨now, w, hw, ha⟩ | ⟨_, _, _, _, _, hc, -⟩
  · rcases World.portByTags_cases now w tags with ⟨q, hq, -⟩ | ⟨e, he, hnone⟩
    · cases hq.symm.trans ha
    · rw [← hw] at hp
      have hcarries := hnone (Except.error.inj (he.symm.trans ha)) p (World.mem_portList.mpr hp)
      rw [Port.carries_iff.mpr htags] at hcarries
      cases hcarries
  · cases hc

/-- A teardown fails without other reason because its port has been deleted, or because it is
stuck. -/
theorem overtaken_or_stuck {c : Call} {f : Failure}
    (htrace : x.trace = early ++ ⟨t, .cloud c, .error f⟩ :: late) (ht : t.task = none)
    (hes : TeardownCourse.Handled tags p (Exchange.ofTask none early))
    (hc : TeardownCourse.Handles p c) (hexcused : Excused ⟨.cloud c, .error f⟩) :
    (stockAfter start early).port? p.id = none ∧ Overtaken x.trace ∨ Stuck start x.trace := by
  cases hexcused with
  | @unknown asked => exact absurd rfl (hc.ne_lookup asked)
  | @gone _ id htarget =>
    obtain ⟨rfl, hpast⟩ := hc.of_target? htarget
    have hgone : (stockAfter start early).port? p.id = none := by
      rcases hx.answered htrace hpast with ⟨now, w, hw, ha⟩ | ⟨_, _, _, _, _, _, _, _, hreply⟩
      · rw [← hw]
        exact World.port?_eq_none_of_notFound htarget ha
      · cases hreply
    refine .inl ⟨hgone, early, t, c, _, late, p.id, htrace, ht, htarget, ?_⟩
    -- between the lookup and this call somebody must have deleted the port
    obtain ⟨es', hes, hsince⟩ := hes
    obtain ⟨first, ⟨l, r, b⟩, since, rfl, -, hreply, -, rfl⟩ :=
      Exchange.exists_split_of_ofTask (l := []) hes
    cases hreply
    have hfound : (stockAfter start first).port? p.id = some p :=
      port?_of_found hx (by rw [htrace, List.append_assoc, List.cons_append])
    obtain ⟨e, he, hdeleted⟩ :=
      exists_deleted hx (by rw [htrace, List.append_assoc]) hfound hgone
    rcases List.mem_cons.mp he with rfl | he
    · cases congrArg Sigma.fst hdeleted
    · refine ⟨e, List.mem_append_right _ (List.mem_cons_of_mem _ he), fun htask => ?_, hdeleted⟩
      obtain ⟨c', y, hown, -, hne⟩ := hsince e.reply (Exchange.mem_ofTask.mpr ⟨e, he, htask, rfl⟩)
      exact hne (Effect.cloud.inj (congrArg Sigma.fst (hown.symm.trans hdeleted)))
  | @unplugged id serverId method url body =>
    rcases hx.answered htrace rfl with
      ⟨now, w, -, ha⟩ | ⟨other, _, q, _, _, hother, hq, hplugged, -⟩
    · cases World.status_of_detachPort ha
    · cases hother
      exact .inr ⟨early, t, id, serverId, _, late, q, htrace, ht, hq, hplugged⟩

/-- A teardown all of whose calls for a port succeeded was neither overtaken nor stuck. -/
theorem unhindered
    (h : ∀ (c : Call) (a : c.Answer), ⟨.cloud c, a⟩ ∈ Exchange.ofTask none x.trace →
      c.target? ≠ none → ∃ y, a = .ok y) : ¬ Overtaken x.trace ∧ ¬ Stuck start x.trace := by
  have own {early late : List (Exchange effects (Option κ) Surroundings)}
      {t : Turn (Option κ) Surroundings} {c : Call} {a : c.Answer}
      (htrace : x.trace = early ++ ⟨t, .cloud c, a⟩ :: late) (ht : t.task = none)
      (hc : c.target? ≠ none) : ∃ y, a = .ok y :=
    h c a (Exchange.mem_ofTask.mpr ⟨⟨t, .cloud c, a⟩, by simp [htrace], ht, rfl⟩) hc
  constructor
  · rintro ⟨early, t, c, a, late, id, htrace, ht, hc, e, he, -, hdeleted⟩
    obtain ⟨y, rfl⟩ := own htrace ht (by simp [hc])
    obtain ⟨p, hp⟩ := (hx.turnover htrace id).exists_of_target? hc
    cases hp.symm.trans (gone_of_deleted hx htrace he hdeleted)
  · rintro ⟨early, t, id, serverId, f, late, p, htrace, ht, -⟩
    obtain ⟨y, hy⟩ := own htrace ht (by simp [Call.target?])
    cases hy

/-- What is there at the end was there before. -/
theorem exists_of_end (htrace : x.trace = early ++ after) {id : String} {p : Port}
    (hp : x.state.stock.port? id = some p) :
    ∃ q, (stockAfter start early).port? id = some q ∧ q.tags = p.tags := by
  have hsplit : x.trace = early ++ (after ++ []) := by rw [htrace, List.append_nil]
  refine exists_earlier hx hsplit ?_
  rwa [hx.state_eq, htrace] at hp

theorem gone_at_end (htrace : x.trace = early ++ after) {id : String}
    (hnone : (stockAfter start early).port? id = none) : x.state.stock.port? id = none := by
  cases hp : x.state.stock.port? id with
  | none => rfl
  | some p =>
    obtain ⟨q, hq, -⟩ := exists_of_end hx htrace hp
    cases hnone.symm.trans hq

end

/-- When a teardown succeeds, and what is left of its port. -/
structure Settled (o : TeardownOptions) (start : Site)
    (x : Interleaving effects (fun i => (contenders o rivals i).Outcome) Site Surroundings)
    (a : Except PortError Unit) : Prop where
  ok_iff : a = .ok () ↔ ¬ Overtaken x.trace ∧ ¬ Stuck start x.trace
  /-- A port that it found is gone in the end. -/
  gone : ¬ Stuck start x.trace →
    ∀ p, ⟨.cloud (.portByTags o.tags), .ok p⟩ ∈ Exchange.ofTask none x.trace →
      x.state.stock.port? p.id = none
  /-- If it found no port, then no port has the tags in the end. -/
  clear : ⟨.cloud (.portByTags o.tags), .error (.notFound .port)⟩ ∈ Exchange.ofTask none x.trace →
    ∀ p, ¬ x.state.stock.Carries o.tags p

section

variable
  (hx : Interleaving.Traced Site.answerAmid (fun i => (contenders o rivals i).program) start ts x)

include hx

theorem settled_of_absent
    (h : TeardownCourse.Recalls o.tags (Exchange.ofTask none x.trace) .absent) :
    Settled o start x (.ok ()) := by
  have hes : Exchange.ofTask none x.trace =
      [⟨.cloud (.portByTags o.tags), .error (.notFound .port)⟩] := h
  refine ⟨iff_of_true rfl (unhindered hx fun c b hr hc => ?_), fun _ p hp => ?_, fun _ p hp => ?_⟩
  · cases List.mem_singleton.mp (hes ▸ hr)
    exact absurd rfl hc
  · cases List.mem_singleton.mp (hes ▸ hp)
  · obtain ⟨early, ⟨t, r, b⟩, late, htrace, -, hreply, -⟩ :=
      Exchange.exists_split_of_ofTask (l := []) hes
    cases hreply
    obtain ⟨q, hq, htags⟩ := exists_of_end hx htrace hp.1
    have hid : q.id = p.id := Stock.id_of_port? hq
    exact not_carries_of_unknown hx htrace ⟨by rwa [hid], htags ▸ hp.2⟩

theorem settled_of_deleted
    (h : TeardownCourse.Recalls o.tags (Exchange.ofTask none x.trace) (.deleted p)) :
    Settled o start x (.ok ()) := by
  obtain ⟨es', hes, hhandled⟩ := h
  have of_lookup {b : Call.Answer (.portByTags o.tags)}
      (hr : ⟨.cloud (.portByTags o.tags), b⟩ ∈ Exchange.ofTask none x.trace) : b = .ok p :=
    hhandled.of_lookup (.inr (.inr rfl)) (hes ▸ hr)
  refine ⟨iff_of_true rfl (unhindered hx fun c b hr _ => ?_), fun _ p' hp' => ?_, fun hr => ?_⟩
  · rw [hes, List.mem_append] at hr
    rcases hr with hr | hr
    · exact hhandled.succeeded hr
    · cases List.mem_singleton.mp hr
      exact ⟨(), rfl⟩
  · obtain rfl : p' = p := Except.ok.inj (of_lookup hp')
    obtain ⟨early, e, late, htrace, -, hreply, -⟩ := Exchange.exists_split_of_ofTask hes
    have hsplit : x.trace = (early ++ [e]) ++ late := by simp [htrace]
    exact gone_at_end hx hsplit (gone_of_deleted hx hsplit (by simp) hreply)
  · cases of_lookup hr

theorem settled_of_failed {c : Call} {f : Failure} {e : PortError}
    (h : TeardownCourse.Recalls o.tags (Exchange.ofTask none x.trace) (.failed c f))
    (hcalls : ∀ r ∈ Exchange.ofTask none x.trace, Excused r) : Settled o start x (.error e) := by
  obtain ⟨es', hes, hcourse⟩ := h
  have hexcused : Excused ⟨.cloud c, .error f⟩ := hcalls _ (by rw [hes]; simp)
  obtain ⟨early, ⟨t, r, b⟩, late, htrace, ht, hreply, rfl, -⟩ := Exchange.exists_split_of_ofTask hes
  cases hreply
  rcases hcourse with ⟨-, rfl, hne⟩ | ⟨p, hhandled, hc⟩
  · cases hexcused with
    | unknown => exact absurd rfl hne
    | gone hc => cases hc
  have hfate := overtaken_or_stuck hx htrace ht hhandled hc hexcused
  have of_lookup {b : Call.Answer (.portByTags o.tags)}
      (hr : ⟨.cloud (.portByTags o.tags), b⟩ ∈ Exchange.ofTask none x.trace) : b = .ok p :=
    hhandled.of_lookup hc (hes ▸ hr)
  refine ⟨iff_of_false nofun fun h => ?_, fun hstuck p' hp' => ?_, fun hr => ?_⟩
  · exact hfate.elim (fun hf => h.1 hf.2) h.2
  · obtain rfl : p' = p := Except.ok.inj (of_lookup hp')
    exact gone_at_end hx htrace (hfate.resolve_right hstuck).1
  · cases of_lookup hr

end

/-- A teardown none of whose calls failed for another reason succeeds if and only if it was neither
overtaken nor stuck. Unless it was stuck, the port that it found is gone in the end. -/
theorem contest_settled {a : Except PortError Unit}
    (hend : (contest o rivals start ts).left none = .done a)
    (hcalls : ∀ r ∈ Exchange.ofTask none (contest o rivals start ts).trace, Excused r) :
    Settled o start (contest o rivals start ts) a := by
  have hx : Interleaving.Traced Site.answerAmid (fun i => (contenders o rivals i).program) start ts
      (contest o rivals start ts) := Interleaving.traced_run _ _ _
  have hfollows := hx.follows none
  rw [hend] at hfollows
  obtain ⟨q, hends, hrecalls⟩ := TeardownCourse.of_follows hfollows
  cases q with
  | seeking => exact hends.elim
  | found p => exact hends.elim
  | absent =>
    obtain rfl : a = .ok () := hends
    exact settled_of_absent hx hrecalls
  | deleted p =>
    obtain rfl : a = .ok () := hends
    exact settled_of_deleted hx hrecalls
  | failed c f =>
    obtain ⟨e, rfl⟩ := hends
    exact settled_of_failed hx hrecalls hcalls

end

/-- The teardown of the port that the ADD of the sample has made. -/
def sampleTeardown : TeardownOptions :=
  { hostname := "node-1", tags := sampleHost.tags sampleInvocation }

def sampleAdded : Site := ((sampleSite .basic).run (sampleHost.add sampleInvocation)).2

/-- A teardown ends early, after it has unplugged the port, and is then repeated in full. -/
def repeatedTeardown : Interleaving effects
    (fun i => (contenders sampleTeardown (fun _ : Unit => .teardown sampleTeardown) i).Outcome)
    Site Surroundings :=
  contest sampleTeardown (fun _ => .teardown sampleTeardown) sampleAdded
    (([some (), some (), some (), none, none, none] : List (Option Unit)).map fun task =>
      ⟨task, { unplugged := some ("/servers/srv-1/os-interface/port-1", "not attached") }⟩)

/-- The repeated teardown is stuck, and leaves the port. -/
theorem stuck_repeatedTeardown :
    let refused := Failure.api "DELETE" "/servers/srv-1/os-interface/port-1" 404 "not attached"
    repeatedTeardown.left none = .done (.error (.cloud .detachPort refused)) ∧
      (∀ r ∈ Exchange.ofTask none repeatedTeardown.trace, Excused r) ∧
      Stuck sampleAdded repeatedTeardown.trace ∧
      ∃ p, repeatedTeardown.state.stock.port? "port-1" = some p := by
  intro refused
  have hend : repeatedTeardown.left none = .done (.error (.cloud .detachPort refused)) := rfl
  obtain ⟨found, hid, htrace⟩ : ∃ p, p.id = "port-1" ∧ Exchange.ofTask none repeatedTeardown.trace =
      [⟨.cloud (.portByTags sampleTeardown.tags), .ok p⟩,
        ⟨.cloud (.serverByName "node-1"), .ok ⟨"srv-1", "node-1"⟩⟩,
        ⟨.cloud (.detachPort "port-1" "srv-1"), .error refused⟩] := ⟨_, rfl, rfl⟩
  have hcalls : ∀ r ∈ Exchange.ofTask none repeatedTeardown.trace, Excused r := by
    rw [htrace]
    simp only [List.forall_mem_cons]
    exact ⟨.succeeded, .succeeded, .unplugged, List.forall_mem_nil _⟩
  have hleft : ∃ p, repeatedTeardown.state.stock.port? "port-1" = some p := ⟨_, rfl⟩
  refine ⟨hend, hcalls, ?_, hleft⟩
  by_contra hstuck
  obtain ⟨p, hp⟩ := hleft
  have hfound : (⟨.cloud (.portByTags sampleTeardown.tags), .ok found⟩ : Program.Reply effects) ∈
      Exchange.ofTask none repeatedTeardown.trace := by
    rw [htrace]
    exact List.mem_cons_self
  have hgone := (contest_settled hend hcalls).gone hstuck found hfound
  rw [hid] at hgone
  cases hp.symm.trans hgone

end ContainerPorts
