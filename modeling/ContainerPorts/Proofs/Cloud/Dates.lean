import ContainerPorts.Cloud.PortSetup
import ContainerPorts.Proofs.Alike

/-!
# When a port was created

Setting up and tearing down pass the date of a port on, but never look at it. Given
ports that differ in their dates only, they ask the same and end with results that
differ in such dates only.
-/
namespace ContainerPorts.Cloud

/-- A port without its date. -/
def Port.undated (p : Port) : Port := { p with createdAt := none }

/-- A result without the date of its port. -/
def Call.undate : (c : Call) → c.Result → c.Result
  | .createPort .., p => p.undated
  | .portByTags _, p => p.undated
  | .assignPort .., x => x
  | .deletePort _, x => x
  | .detachPort .., x => x
  | .setPortTags .., x => x
  | .networkByName _, x => x
  | .portById _, x => x
  | .portsByDevice _, x => x
  | .portsByTags _, x => x
  | .projectByName _, x => x
  | .serverByName _, x => x
  | .securityGroupByName .., x => x
  | .subnetById _, x => x
  | .subnetByName .., x => x

/-- Answers that differ in the dates of ports only. -/
def Call.SameButDates (c : Call) (x y : c.Answer) : Prop := x.map c.undate = y.map c.undate

/-- The lookups of ports that neither setting up nor tearing down makes. -/
def Call.isUnasked : Call → Bool
  | .portById _ => true
  | .portsByDevice _ => true
  | .portsByTags _ => true
  | _ => false

/-- Answers that are the same to setting up and tearing down. -/
def Call.Alike (c : Call) (x y : c.Answer) : Prop := c.isUnasked = false → c.SameButDates x y

theorem Call.SameButDates.cases {c : Call} {x y : c.Answer} (h : c.SameButDates x y) :
    (∃ e, x = .error e ∧ y = .error e) ∨
      ∃ a b, x = .ok a ∧ y = .ok b ∧ c.undate a = c.undate b := by
  cases x with
  | error e =>
    cases y with
    | error e' =>
      obtain rfl := Except.error.inj h
      exact .inl ⟨e, rfl, rfl⟩
    | ok b => cases h
  | ok a =>
    cases y with
    | error e' => cases h
    | ok b => exact .inr ⟨a, b, rfl, rfl, Except.ok.inj h⟩

/-- What was resolved, without the date of the port. -/
def Resolved.undated (r : Resolved) : Resolved := { r with port := r.port.map Port.undated }

def SetupError.undated (e : SetupError) : SetupError := { e with resolved := e.resolved.undated }

namespace Port

variable {p p' : Port}

theorem id_eq (h : p.undated = p'.undated) : p.id = p'.id := by
  simpa [undated] using congrArg Port.id h

theorem fixedIps_eq (h : p.undated = p'.undated) : p.fixedIps = p'.fixedIps := by
  simpa [undated] using congrArg Port.fixedIps h

theorem tags_eq (h : p.undated = p'.undated) : p.tags = p'.tags := by
  simpa [undated] using congrArg Port.tags h

theorem undated_tags (h : p.undated = p'.undated) (tags : List String) :
    ({ p with tags := tags } : Port).undated = ({ p' with tags := tags } : Port).undated :=
  congrArg (fun p => ({ p with tags := tags } : Port)) h

end Port

/-! ### Setting up -/

namespace Setup

variable {α β : Type}

/-- Outcomes with the same failure, or with results that correspond. -/
def Corresponding (R : α → α → Prop) : Except PortError α → Except PortError α → Prop
  | .ok a, .ok b => R a b
  | .error e, .error e' => e = e'
  | _, _ => False

/-- Parts of setting up that cannot tell dates apart. -/
def Alike (R : α → α → Prop) (m m' : Setup α) : Prop :=
  ∀ r r' : Resolved, r.undated = r'.undated →
    (m.run.run r).Alike Call.Alike
      (fun a b => Corresponding R a.1 b.1 ∧ a.2.undated = b.2.undated) (m'.run.run r')

variable {R : α → α → Prop} {Q : β → β → Prop}

theorem Alike.bind {m m' : Setup α} {f f' : α → Setup β} (h : Alike R m m')
    (hf : ∀ a b, R a b → Alike Q (f a) (f' b)) : Alike Q (m >>= f) (m' >>= f') := by
  intro r r' hr
  rw [ExceptT.run_bind, ExceptT.run_bind, StateT.run_bind, StateT.run_bind]
  refine (h r r' hr).bind ?_
  rintro ⟨a | a, q⟩ ⟨b | b, q'⟩ ⟨hab, hq⟩
  · exact .done ⟨hab, hq⟩
  · exact hab.elim
  · exact hab.elim
  · exact hf a b hab q q' hq

theorem alike_pure {a b : α} (h : R a b) : Alike R (pure a) (pure b) := fun _ _ hr => .done ⟨h, hr⟩

theorem alike_throw (e : PortError) : Alike R (throw e) (throw e) := fun _ _ hr => .done ⟨rfl, hr⟩

/-- Updates that come to the same without dates. -/
theorem alike_modify {f f' : Resolved → Resolved} (g : Resolved → Resolved)
    (h : ∀ r, (f r).undated = g r.undated) (h' : ∀ r, (f' r).undated = g r.undated) :
    Alike (fun _ _ => True) (modify f) (modify f') :=
  fun r r' hr => .done ⟨trivial, by rw [h, h', hr]⟩

theorem alike_attempt (report : Failure → PortError) {c : Call}
    (hc : c.isUnasked = false) :
    Alike (fun a b => c.undate a = c.undate b) (attempt report c) (attempt report c) := by
  refine fun r r' hr => .ask fun x y hxy => ?_
  rcases (hxy hc).cases with ⟨e, rfl, rfl⟩ | ⟨a, b, rfl, rfl, hab⟩
  · exact .done ⟨rfl, hr⟩
  · exact .done ⟨hab, hr⟩

/-- A part of setting up that gets the same result whatever the dates are. -/
def Dateless (m : Setup α) : Prop := Alike Eq m m

theorem dateless_pure (a : α) : Dateless (pure a) := alike_pure rfl

theorem dateless_attempt (report : Failure → PortError) {c : Call}
    (hc : c.isUnasked = false) (h : ∀ x, c.undate x = x) :
    Dateless (attempt report c) := by
  simpa only [Dateless, h] using alike_attempt report hc

theorem Dateless.alike_bind {m : Setup α} {f f' : α → Setup β} (h : Dateless m)
    (hf : ∀ a, Alike Q (f a) (f' a)) : Alike Q (m >>= f) (m >>= f') := by
  refine Alike.bind h fun a b hab => ?_
  rw [hab]
  exact hf b

theorem Dateless.bind {m : Setup α} {f : α → Setup β} (h : Dateless m)
    (hf : ∀ a, Dateless (f a)) : Dateless (m >>= f) := h.alike_bind hf

theorem Dateless.mapM {f : β → Setup α} {xs : List β} (h : ∀ x, Dateless (f x)) :
    Dateless (xs.mapM f) := by
  induction xs with
  | nil => exact dateless_pure []
  | cons x xs ih =>
    rw [List.mapM_cons]
    exact (h x).bind fun _ => ih.bind fun _ => dateless_pure _

theorem owner_dateless (projectName : Option String) : Dateless (owner projectName) := by
  unfold owner
  split
  · exact dateless_pure _
  · exact (dateless_attempt _ rfl fun _ => rfl).bind fun _ => dateless_pure _

theorem groupIds_dateless (projectName : Option String) (names : List String) :
    Dateless (groupIds projectName names) :=
  (owner_dateless projectName).bind fun _ =>
    .mapM fun _ => (dateless_attempt _ rfl fun _ => rfl).bind fun _ => dateless_pure _

theorem groups_dateless (o : SetupOptions) : Dateless (groups o) := by
  unfold groups
  split
  · exact (groupIds_dateless _ _).bind fun _ => dateless_pure _
  · exact dateless_pure _

theorem pinned_dateless (o : SetupOptions) (networkId : String) :
    Dateless (pinned o networkId) := by
  unfold pinned
  split
  · exact dateless_pure _
  · exact (dateless_attempt _ rfl fun _ => rfl).bind fun _ => dateless_pure _

theorem tagged_alike (o : SetupOptions) {p p' : Port} (h : p.undated = p'.undated) :
    Alike (fun a b => a.undated = b.undated) (tagged o p) (tagged o p') := by
  have htagged := Port.undated_tags h o.tags
  have hset : Alike Eq (attempt (.cloud .setPortTags) (.setPortTags p.id o.tags))
      (attempt (.cloud .setPortTags) (.setPortTags p'.id o.tags)) := by
    rw [Port.id_eq h]
    exact dateless_attempt _ rfl fun _ => rfl
  unfold tagged
  split
  · exact alike_pure h
  · refine hset.bind fun _ _ _ => ?_
    refine (alike_modify (fun r => { r with port := some { p with tags := o.tags }.undated })
      (fun _ => rfl) fun r => ?_).bind fun _ _ _ => alike_pure ?_
    · rw [htagged]
      rfl
    · exact htagged

theorem plugged_alike (o : SetupOptions) (portId serverId : String) :
    Alike (fun _ _ => True) (plugged o portId serverId) (plugged o portId serverId) := by
  unfold plugged
  split
  · exact alike_pure trivial
  · exact (dateless_attempt _ rfl fun _ => rfl).alike_bind fun attachment =>
      alike_modify (fun r => { r with attachment := some attachment }) (fun _ => rfl) fun _ => rfl

/-- Setting up cannot tell dates apart. -/
theorem all_alike (o : SetupOptions) : Alike (fun _ _ => True) (all o) (all o) := by
  unfold all
  refine (dateless_attempt _ rfl fun _ => rfl).alike_bind fun server => ?_
  refine (alike_modify (fun r => { r with server := some server }) (fun _ => rfl) fun _ =>
    rfl).bind fun _ _ _ => ?_
  refine (dateless_attempt _ rfl fun _ => rfl).alike_bind fun network => ?_
  refine (alike_modify (fun r => { r with network := some network }) (fun _ => rfl) fun _ =>
    rfl).bind fun _ _ _ => ?_
  refine (groups_dateless o).alike_bind fun groups => ?_
  refine (pinned_dateless o network.id).alike_bind fun subnets => ?_
  refine (alike_attempt _ rfl).bind fun port port' hport => ?_
  have hport : port.undated = port'.undated := hport
  refine (alike_modify (fun r => { r with port := some port.undated }) (fun _ => rfl) fun _ => by
    rw [hport]; rfl).bind fun _ _ _ => ?_
  refine (tagged_alike o hport).bind fun port port' hport => ?_
  rw [Port.fixedIps_eq hport, Port.id_eq hport]
  split
  · exact alike_throw _
  · refine (dateless_attempt _ rfl fun _ => rfl).alike_bind fun subnet => ?_
    exact (alike_modify (fun r => { r with subnet := some subnet }) (fun _ => rfl) fun _ =>
      rfl).bind fun _ _ _ => plugged_alike o _ _

end Setup

/-- Outcomes of setting up that differ in the date of the port only. -/
def SetupOutcomesAlike : Except SetupError Resolved → Except SetupError Resolved → Prop
  | .ok r, .ok r' => r.undated = r'.undated
  | .error e, .error e' => e.undated = e'.undated
  | _, _ => False

theorem setupPort_alike (o : SetupOptions) :
    (setupPort o).Alike Call.Alike SetupOutcomesAlike (setupPort o) := by
  refine (Setup.all_alike o {} {} rfl).bind ?_
  rintro ⟨e | a, r⟩ ⟨e' | a', r'⟩ ⟨ha, hr⟩
  · obtain rfl : e = e' := ha
    exact .done (congrArg (SetupError.mk · e) hr)
  · exact ha.elim
  · exact ha.elim
  · exact .done hr

/-! ### Tearing down -/

theorem attempt_bind_alike {α : Type} {R : Except PortError α → Except PortError α → Prop}
    {report : Failure → PortError} {c : Call} {f : c.Result → ExceptT PortError (Program calls) α}
    (hc : c.isUnasked = false) (h : ∀ x, c.undate x = x)
    (hf : ∀ x, (f x).run.Alike Call.Alike R (f x).run) (herror : ∀ e, R (.error e) (.error e)) :
    (attempt report c >>= f).run.Alike Call.Alike R (attempt report c >>= f).run := by
  refine .ask fun x y hxy => ?_
  rcases (hxy hc).cases with ⟨e, rfl, rfl⟩ | ⟨a, b, rfl, rfl, hab⟩
  · exact .done (herror _)
  · rw [h, h] at hab
    obtain rfl := hab
    exact hf a

theorem teardownPort_alike (o : TeardownOptions) :
    (teardownPort o).Alike Call.Alike Eq (teardownPort o) := by
  have delete (id : String) :
      (attempt (.cloud .deletePort) (.deletePort id)).run.Alike Call.Alike Eq
        (attempt (.cloud .deletePort) (.deletePort id)).run := by
    refine .ask fun x y hxy => ?_
    rcases (hxy rfl).cases with ⟨e, rfl, rfl⟩ | ⟨a, b, rfl, rfl, hab⟩ <;> exact .done rfl
  refine .ask fun x y hxy => ?_
  rcases (hxy rfl).cases with ⟨e, rfl, rfl⟩ | ⟨p, p', rfl, rfl, hp⟩
  · cases e with
    | notFound kind => cases kind <;> exact .done rfl
    | _ => exact .done rfl
  · have hid : p.id = p'.id := Port.id_eq hp
    change Program.Alike _ _
      (unplugged o p.id >>= fun _ => attempt (.cloud .deletePort) (.deletePort p.id)).run
      (unplugged o p'.id >>= fun _ => attempt (.cloud .deletePort) (.deletePort p'.id)).run
    rw [hid]
    unfold unplugged
    split
    · exact delete p'.id
    · rw [bind_assoc]
      refine attempt_bind_alike rfl (fun _ => rfl) (fun server => ?_) fun _ => rfl
      exact attempt_bind_alike rfl (fun _ => rfl) (fun _ => delete p'.id) fun _ => rfl

end ContainerPorts.Cloud
