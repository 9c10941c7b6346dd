import ContainerPorts.Proofs.Cloud.SettingUp
import ContainerPorts.Proofs.Cloud.SteadyCalls
import ContainerPorts.Proofs.Cloud.TearingDown

/-!
# Setting up and tearing down are steady

Ports are only looked up past the cache. Where a key ends with an id, this is the id of a
network or a project that was looked up before, so that the key is plain as long as those
ids are.
-/
namespace ContainerPorts.Cloud

namespace Setup

variable {α β : Type}

/-- A part of setting up that makes steady calls only, and gets results with the property `E`. -/
structure Steady (m : Setup α) (E : α → Prop) : Prop where
  trusts : ∀ r, (m.run.run r).Trusts (S := calls) Call.Fits Call.Steady fun a =>
    ∀ x, a.1 = .ok x → E x

variable {E : α → Prop} {F : β → Prop}

theorem steady_pure {a : α} (h : E a) : (pure a : Setup α).Steady E :=
  ⟨fun _ _ hx => Except.ok.inj hx ▸ h⟩

theorem steady_throw (e : PortError) : (throw e : Setup α).Steady E := ⟨fun _ _ hx => by cases hx⟩

theorem steady_modify (f : Resolved → Resolved) : (modify f : Setup Unit).Steady fun _ => True :=
  ⟨fun _ _ _ => trivial⟩

theorem steady_attempt (report : Failure → PortError) {c : Call} {E : c.Result → Prop}
    (hc : c.Steady) (h : ∀ x, c.Fits (.ok x) → E x) : (attempt report c).Steady E := by
  refine ⟨fun r => ⟨hc, fun x hx => ?_⟩⟩
  cases x with
  | ok x => exact fun _ hy => Except.ok.inj hy ▸ h x hx
  | error e => exact fun _ hy => nomatch hy

theorem Steady.bind {m : Setup α} {f : α → Setup β} (h : m.Steady E)
    (hf : ∀ a, E a → (f a).Steady F) : (m >>= f).Steady F := by
  refine ⟨fun r => ?_⟩
  rw [ExceptT.run_bind, StateT.run_bind]
  refine (h.trusts r).bind ?_
  rintro ⟨e | a, r'⟩ ha
  · exact fun _ hx => nomatch hx
  · exact (hf a (ha a rfl)).trusts r'

theorem Steady.mapM {f : β → Setup α} {xs : List β} (h : ∀ x, (f x).Steady fun _ => True) :
    (xs.mapM f).Steady fun _ => True := by
  induction xs with
  | nil => exact steady_pure trivial
  | cons x xs ih =>
    rw [List.mapM_cons]
    exact (h x).bind fun _ _ => ih.bind fun _ _ => steady_pure trivial

/-- A lookup with a key that is plain whatever it is asked for. -/
theorem steady_lookup (report : Failure → PortError) {c : Call} (hc : c.readsFurniture)
    (h : c.EndsPlain) : (attempt report c).Steady fun x => c.Fits (.ok x) :=
  steady_attempt report (fun _ => ⟨hc, h⟩) fun _ hx => hx

theorem owner_steady (projectName : Option String) :
    (owner projectName).Steady fun id => ∀ x ∈ id, x ≠ "" ∧ '|' ∉ x.toList := by
  unfold owner
  split
  · exact steady_pure nofun
  · refine Steady.bind (steady_lookup _ rfl trivial) fun project hproject => steady_pure ?_
    rintro _ ⟨⟩
    exact hproject project rfl

theorem groups_steady (o : SetupOptions) : (groups o).Steady fun _ => True := by
  unfold groups
  split
  · refine Steady.bind (E := fun _ => True) ?_ fun _ _ => steady_pure trivial
    refine (owner_steady _).bind fun id hid => Steady.mapM fun name => ?_
    exact Steady.bind (steady_lookup _ rfl hid) fun _ _ => steady_pure trivial
  · exact steady_pure trivial

theorem pinned_steady (o : SetupOptions) {networkId : String} (h : '|' ∉ networkId.toList) :
    (pinned o networkId).Steady fun _ => True := by
  unfold pinned
  split
  · exact steady_pure trivial
  · exact Steady.bind (steady_lookup _ rfl h) fun _ _ => steady_pure trivial

/-- A call past the cache. -/
theorem steady_passing (report : Failure → PortError) {c : Call} (hc : c.isCacheable = false) :
    (attempt report c).Steady fun _ => True :=
  steady_attempt report (Call.steady_of_not_cacheable hc) fun _ _ => trivial

theorem tagged_steady (o : SetupOptions) (port : Port) : (tagged o port).Steady fun _ => True := by
  unfold tagged
  split
  · exact steady_pure trivial
  · refine (steady_passing _ rfl).bind fun _ _ => ?_
    exact (steady_modify _).bind fun _ _ => steady_pure trivial

theorem plugged_steady (o : SetupOptions) (portId serverId : String) :
    (plugged o portId serverId).Steady fun _ => True := by
  unfold plugged
  split
  · exact steady_pure trivial
  · exact (steady_passing _ rfl).bind fun _ _ => steady_modify _

theorem all_steady (o : SetupOptions) : (all o).Steady fun _ => True := by
  unfold all
  refine Steady.bind (steady_lookup _ rfl trivial) fun server _ => ?_
  refine (steady_modify _).bind fun _ _ => ?_
  refine Steady.bind (steady_lookup _ rfl trivial) fun network hnetwork => ?_
  refine (steady_modify _).bind fun _ _ => (groups_steady o).bind fun groups _ => ?_
  refine (pinned_steady o (hnetwork network rfl)).bind fun subnets _ => ?_
  refine (steady_passing _ rfl).bind fun port _ => (steady_modify _).bind fun _ _ => ?_
  refine (tagged_steady o port).bind fun port _ => ?_
  split
  · exact steady_throw _
  · refine Steady.bind (steady_lookup _ rfl trivial) fun subnet _ => ?_
    exact (steady_modify _).bind fun _ _ => plugged_steady o _ _

end Setup

theorem setupPort_trusts (o : SetupOptions) :
    (setupPort o).Trusts (S := calls) Call.Fits Call.Steady fun _ => True := by
  refine ((Setup.all_steady o).trusts {}).bind ?_
  rintro ⟨e | a, r⟩ -
  · trivial
  · trivial

theorem teardownPort_asks (o : TeardownOptions) :
    (teardownPort o).Asks (S := calls) Call.Steady := by
  refine (teardownPort_obeys o).asks fun (q : TeardownState) c hc => ?_
  cases q with
  | seeking =>
    obtain rfl : c = .portByTags o.tags := hc
    exact Call.steady_of_not_cacheable rfl
  | found p =>
    rcases hc with ⟨name, rfl⟩ | ⟨serverId, rfl⟩ | rfl
    · exact fun _ => ⟨rfl, trivial⟩
    · exact Call.steady_of_not_cacheable rfl
    · exact Call.steady_of_not_cacheable rfl
  | absent => exact hc.elim
  | failed => exact hc.elim
  | deleted p => exact hc.elim

end ContainerPorts.Cloud
