import ContainerPorts.Cloud.PortSetup
import ContainerPorts.Proofs.Replies
import Mathlib.Data.List.Basic
import Mathlib.Tactic.Common

/-!
# The course of setting up

The options say which steps are to be taken, and in which order. Each step puts one call,
which is determined by the options and by what the steps before it have found. The first
step that fails ends the course: its error is reported, together with what was found.
-/
namespace ContainerPorts.Cloud

/-- A step of setting up, with the name that it looks up. -/
inductive SetupStep where
  | server
  | network
  | project (name : String)
  | group (name : String)
  | namedSubnet (name : String)
  | create
  | tag
  | subnet
  | attach
  deriving DecidableEq, Repr

namespace SetupOptions

variable (o : SetupOptions)

def groupNames : List String := o.securityGroups.getD []

/-- The lookups of the groups. A project is only looked up to find its groups. -/
def groupLookups : List SetupStep :=
  (if o.groupNames = [] then [] else (nonempty? o.projectName).toList.map .project) ++
    o.groupNames.map .group

/-- What is looked up before the port is created. -/
def lookups : List SetupStep :=
  [.server, .network] ++ (o.groupLookups ++ (nonempty? o.subnetName).toList.map .namedSubnet)

/-- All steps in their order. -/
def steps : List SetupStep :=
  o.lookups ++ (.create :: ((if o.tags = [] then [] else [.tag]) ++
    (.subnet :: if o.skipAttach then [] else [.attach])))

end SetupOptions

/-- What the steps have found and made so far. -/
structure Found extends Resolved where
  project : Option Project := none
  groups : List SecurityGroup := []
  namedSubnet : Option Subnet := none

namespace Found

/-- What is found once a call has given its result. -/
def keep (f : Found) : (c : Call) → c.Result → Found
  | .serverByName _, x => { f with server := some x }
  | .networkByName _, x => { f with network := some x }
  | .projectByName _, x => { f with project := some x }
  | .securityGroupByName .., x => { f with groups := f.groups ++ [x] }
  | .subnetByName .., x => { f with namedSubnet := some x }
  | .createPort .., x => { f with port := some x }
  | .setPortTags _ tags, _ => { f with port := f.port.map fun p => { p with tags := tags } }
  | .subnetById _, x => { f with subnet := some x }
  | .assignPort .., x => { f with attachment := some x }
  | _, _ => f

/-- The groups to create the port with. -/
def groupIds (f : Found) (o : SetupOptions) : Option (List String) :=
  if o.groupNames = [] then none else some (f.groups.map SecurityGroup.id)

/-- The subnets that the port is pinned to. -/
def subnetIds (f : Found) : List String := f.namedSubnet.toList.map Subnet.id

end Found

namespace SetupStep

/-- The call of a step, once everything is found that it needs. -/
def call? (o : SetupOptions) (f : Found) : SetupStep → Option Call
  | .server => some (.serverByName o.hostname)
  | .network => some (.networkByName o.networkName)
  | .project name => some (.projectByName name)
  | .group name => some (.securityGroupByName name (f.project.map Project.id))
  | .namedSubnet name => f.network.map fun n => .subnetByName name n.id
  | .create => f.network.map fun n =>
    .createPort (Setup.request o n.id (f.groupIds o) f.subnetIds)
      (if o.extra.isEmpty then none else some o.extra)
  | .tag => f.port.map fun p => .setPortTags p.id o.tags
  | .subnet => do return .subnetById (← (← f.port).fixedIps.head?).subnetId
  | .attach => do return .assignPort (← f.port).id (← f.server).id

/-- The name under which the failure of a step is reported. -/
def label : SetupStep → Step
  | .server => .getServer
  | .network => .getNetwork
  | .project _ => .getProject
  | .group _ => .getSecurityGroup
  | .namedSubnet _ => .getSubnetByName
  | .create => .createPort
  | .tag => .setPortTags
  | .subnet => .getSubnet
  | .attach => .attachPort

/-- How it is reported that nothing was found under a name. -/
def missing? (o : SetupOptions) (f : Found) : SetupStep → Option PortError
  | .server => some (.serverNotFound o.hostname)
  | .network => some (.networkNotFound o.networkName)
  | .project name => some (.projectNotFound name)
  | .group name => some (.securityGroupNotFound name)
  | .namedSubnet name => f.network.map fun n => .subnetNotFound name n.id
  | _ => none

/-- How the failure of a step's call is reported. -/
def report (o : SetupOptions) (f : Found) (st : SetupStep) (e : Failure) : PortError :=
  match st.missing? o f with
  | some missing => if e.isNotFound then missing else .cloud st.label e
  | none => .cloud st.label e

/-- A step fails if its call is refused, or if the port has no address to find its subnet by. -/
inductive Fails (o : SetupOptions) (f : Found) :
    SetupStep → List (Program.Reply calls) → PortError → Prop
  | refused {st : SetupStep} {c : Call} (hc : st.call? o f = some c) (e : Failure) :
    Fails o f st [⟨c, .error e⟩] (st.report o f e)
  | addressless {p : Port} (hp : f.port = some p) (hips : p.fixedIps = []) :
    Fails o f .subnet [] (.noFixedIps p.id)

end SetupStep

/-- Steps that succeed one after the other, with what they ask and find. -/
inductive Takes (o : SetupOptions) :
    Found → List SetupStep → List (Program.Reply calls) → Found → Prop
  | nil (f : Found) : Takes o f [] [] f
  | cons {f f' : Found} {st : SetupStep} {c : Call} {x : c.Result} {sts : List SetupStep}
    {es : List (Program.Reply calls)} (hc : st.call? o f = some c)
    (h : Takes o (f.keep c x) sts es f') : Takes o f (st :: sts) (⟨c, .ok x⟩ :: es) f'

/-- Some of the steps succeed, and the next one fails. -/
def Stops (o : SetupOptions) (f : Found) (sts : List SetupStep) (es : List (Program.Reply calls))
    (f' : Found) (err : PortError) : Prop :=
  ∃ taken st rest es' last, sts = taken ++ st :: rest ∧ es = es' ++ last ∧
    Takes o f taken es' f' ∧ st.Fails o f' last err

variable {o : SetupOptions} {f f' f'' : Found} {st : SetupStep} {sts sts' : List SetupStep}
  {es es' : List (Program.Reply calls)} {err : PortError}

theorem Takes.append (h : Takes o f sts es f') (h' : Takes o f' sts' es' f'') :
    Takes o f (sts ++ sts') (es ++ es') f'' := by
  induction h with
  | nil f => exact h'
  | cons hc _ ih => exact .cons hc (ih h')

theorem Takes.split (h : Takes o f (sts ++ sts') es f'') :
    ∃ es₁ es₂ f', es = es₁ ++ es₂ ∧ Takes o f sts es₁ f' ∧ Takes o f' sts' es₂ f'' := by
  induction sts generalizing f es with
  | nil => exact ⟨[], es, f, rfl, .nil f, h⟩
  | cons st sts ih =>
    obtain _ | ⟨hc, h⟩ := h
    obtain ⟨es₁, es₂, f', rfl, h₁, h₂⟩ := ih h
    exact ⟨_ :: es₁, es₂, f', rfl, .cons hc h₁, h₂⟩

theorem Stops.after (h : Takes o f sts es f') (h' : Stops o f' sts' es' f'' err) :
    Stops o f (sts ++ sts') (es ++ es') f'' err := by
  obtain ⟨taken, st, rest, es', last, rfl, rfl, htakes, hfails⟩ := h'
  exact ⟨sts ++ taken, st, rest, es ++ es', last, by simp, by simp, h.append htakes, hfails⟩

theorem Stops.before (h : Stops o f sts es f' err) (sts' : List SetupStep) :
    Stops o f (sts ++ sts') es f' err := by
  obtain ⟨taken, st, rest, es', last, rfl, rfl, htakes, hfails⟩ := h
  exact ⟨taken, st, rest ++ sts', es', last, by simp, rfl, htakes, hfails⟩

/-- A call is that of a step, with everything before it taken. -/
theorem Takes.at_call {before after : List (Program.Reply calls)} {c : Call} {a : c.Answer}
    (h : Takes o f sts (before ++ ⟨c, a⟩ :: after) f') :
    ∃ taken st rest f₁, sts = taken ++ st :: rest ∧ Takes o f taken before f₁ ∧
      st.call? o f₁ = some c := by
  induction before generalizing f sts with
  | nil =>
    obtain _ | ⟨hc, -⟩ := h
    exact ⟨[], _, _, f, rfl, .nil f, hc⟩
  | cons e before ih =>
    obtain _ | ⟨hc, h⟩ := h
    obtain ⟨taken, st, rest, f₁, rfl, htakes, hst⟩ := ih h
    exact ⟨_ :: taken, st, rest, f₁, rfl, .cons hc htakes, hst⟩

theorem Stops.at_call {before after : List (Program.Reply calls)} {c : Call} {a : c.Answer}
    (h : Stops o f sts (before ++ ⟨c, a⟩ :: after) f' err) :
    ∃ taken st rest f₁, sts = taken ++ st :: rest ∧ Takes o f taken before f₁ ∧
      st.call? o f₁ = some c := by
  obtain ⟨taken, st, rest, es', last, rfl, hes, htakes, hfails⟩ := h
  have earlier {after' : List (Program.Reply calls)} (hes' : es' = before ++ ⟨c, a⟩ :: after') :
      ∃ taken' st' rest' f₁, taken ++ st :: rest = taken' ++ st' :: rest' ∧
        Takes o f taken' before f₁ ∧ st'.call? o f₁ = some c := by
    obtain ⟨taken', st', rest', f₁, rfl, htakes', hst⟩ := (hes' ▸ htakes).at_call
    exact ⟨taken', st', rest' ++ st :: rest, f₁, by simp, htakes', hst⟩
  cases hfails with
  | addressless hp hips => exact earlier ((List.append_nil es').symm.trans hes.symm)
  | refused hc e =>
    rcases List.eq_nil_or_concat after with rfl | ⟨after', x, rfl⟩
    · -- The call is the one that was refused.
      obtain ⟨rfl, hlast⟩ := List.append_inj' hes rfl
      cases hlast
      exact ⟨taken, st, rest, f', rfl, htakes, hc⟩
    · rw [List.concat_eq_append, ← List.cons_append, ← List.append_assoc] at hes
      exact earlier (List.append_inj' hes rfl).1.symm

theorem Stops.first {last : List (Program.Reply calls)} (h : st.Fails o f last err)
    (sts : List SetupStep) : Stops o f (st :: sts) last f err :=
  ⟨[], st, sts, [], last, rfl, rfl, .nil f, h⟩

namespace Setup

/-! ### Each part of setting up takes its steps -/

/-- A part of setting up that begins when `f` was found and `r` is resolved. It takes its steps, or
fails at one of them. -/
def Walks {α : Type} (o : SetupOptions) (m : Setup α) (r : Resolved) (f : Found)
    (sts : List SetupStep) (post : α → Found → Prop) : Prop :=
  (m.run.run r).Tells fun es x =>
    (∃ a f', x = (.ok a, f'.toResolved) ∧ Takes o f sts es f' ∧ post a f') ∨
      ∃ err f', x = (.error err, f'.toResolved) ∧ Stops o f sts es f' err

variable {α β : Type} {m : Setup α} {r : Resolved} {post : α → Found → Prop}
  {post' : β → Found → Prop}

theorem walks_pure {a : α} (h : post a f) : Walks o (pure a) f.toResolved f [] post :=
  Program.tells_done (.inl ⟨a, f, rfl, .nil f, h⟩)

theorem walks_throw {err : PortError} (h : st.Fails o f [] err) (sts : List SetupStep) :
    Walks o (throw err : Setup α) f.toResolved f (st :: sts) post :=
  Program.tells_done (.inr ⟨err, f, rfl, .first h sts⟩)

theorem Walks.bind {k : α → Setup β} (h : Walks o m r f sts post)
    (hk : ∀ a f', post a f' → Walks o (k a) f'.toResolved f' sts' post') :
    Walks o (m >>= k) r f (sts ++ sts') post' := by
  rw [Walks, ExceptT.run_bind, StateT.run_bind]
  refine Program.Tells.bind (h.mono ?_)
  rintro es _ (⟨a, f', rfl, htakes, ha⟩ | ⟨err, f', rfl, hstops⟩)
  · refine (hk a f' ha).mono ?_
    rintro es' _ (⟨b, f'', rfl, htakes', hb⟩ | ⟨err, f'', rfl, hstops⟩)
    · exact .inl ⟨b, f'', rfl, htakes.append htakes', hb⟩
    · exact .inr ⟨err, f'', rfl, hstops.after htakes⟩
  · exact Program.tells_done (.inr ⟨err, f', rfl, by simpa using hstops.before sts'⟩)

theorem Walks.mono {post' : α → Found → Prop} (h : Walks o m r f sts post)
    (hpost : ∀ a f', post a f' → post' a f') : Walks o m r f sts post' := by
  refine Program.Tells.mono h ?_
  rintro es _ (⟨a, f', rfl, htakes, ha⟩ | hstops)
  · exact .inl ⟨a, f', rfl, htakes, hpost a f' ha⟩
  · exact .inr hstops

theorem walks_modify {g : Resolved → Resolved} {k : Unit → Setup β}
    (h : Walks o (k ()) (g r) f sts post') : Walks o (modify g >>= k) r f sts post' := h

/-- A call whose result the rest of the part goes on with. -/
theorem walks_attempt {report : Failure → PortError} {c : Call} {k : c.Result → Setup β}
    (hc : st.call? o f = some c) (hreport : ∀ e, report e = st.report o f e)
    (hk : ∀ x, Walks o (k x) f.toResolved (f.keep c x) sts post') :
    Walks o (attempt report c >>= k) f.toResolved f (st :: sts) post' := by
  refine Program.tells_ask fun x => ?_
  cases x with
  | error e =>
    refine Program.tells_done (.inr ⟨_, f, rfl, ?_⟩)
    rw [hreport]
    exact .first (.refused hc e) sts
  | ok x =>
    refine Program.Tells.mono (hk x) ?_
    rintro es _ (⟨b, f', rfl, htakes, hb⟩ | ⟨err, f', rfl, hstops⟩)
    · exact .inl ⟨b, f', rfl, .cons hc htakes, hb⟩
    · exact .inr ⟨err, f', rfl, hstops.after (.cons hc (.nil _))⟩

theorem owner_walks (hp : f.project = none) :
    Walks o (owner o.projectName) f.toResolved f
      ((nonempty? o.projectName).toList.map .project) fun id f' =>
        ∃ p, f' = { f with project := p } ∧ id = p.map Project.id := by
  unfold owner
  cases nonempty? o.projectName with
  | none => exact walks_pure ⟨none, by rw [← hp], rfl⟩
  | some name =>
    exact walks_attempt rfl (fun _ => rfl) fun project => walks_pure ⟨some project, rfl, rfl⟩

theorem group_walks {projectId : Option String} (hp : projectId = f.project.map Project.id)
    (name : String) :
    Walks o (attempt (lookupError .getSecurityGroup (.securityGroupNotFound name))
        (.securityGroupByName name projectId) >>= fun group => pure group.id)
      f.toResolved f [.group name] fun id f' =>
        ∃ g, f' = { f with groups := f.groups ++ [g] } ∧ id = g.id :=
  walks_attempt (by simp [SetupStep.call?, hp]) (fun _ => rfl) fun g => walks_pure ⟨g, rfl, rfl⟩

theorem mapM_group_walks {projectId : Option String} (hp : projectId = f.project.map Project.id)
    (names : List String) :
    Walks o (names.mapM fun name =>
        attempt (lookupError .getSecurityGroup (.securityGroupNotFound name))
          (.securityGroupByName name projectId) >>= fun group => pure group.id)
      f.toResolved f (names.map .group) fun ids f' =>
        ∃ gs, f' = { f with groups := f.groups ++ gs } ∧ ids = gs.map SecurityGroup.id := by
  induction names generalizing f with
  | nil => exact walks_pure ⟨[], by simp, rfl⟩
  | cons name names ih =>
    rw [List.mapM_cons]
    refine (group_walks hp name).bind ?_
    rintro _ _ ⟨g, rfl, rfl⟩
    rw [← List.append_nil (names.map SetupStep.group)]
    refine Walks.bind (ih (by exact hp)) ?_
    rintro _ _ ⟨gs, rfl, rfl⟩
    exact walks_pure ⟨g :: gs, by simp, rfl⟩

/-- The groups are looked up after the project that they belong to. -/
theorem groupIds_walks (hp : f.project = none) (hg : f.groups = []) (names : List String) :
    Walks o (groupIds o.projectName names) f.toResolved f
      ((nonempty? o.projectName).toList.map .project ++ names.map .group) fun ids f' =>
        ∃ p gs, f' = { f with project := p, groups := gs } ∧ ids = gs.map SecurityGroup.id := by
  refine (owner_walks hp).bind ?_
  rintro _ _ ⟨p, rfl, rfl⟩
  refine Walks.mono (mapM_group_walks (by rfl) names) ?_
  rintro _ _ ⟨gs, rfl, rfl⟩
  exact ⟨p, gs, by simp [hg], rfl⟩

theorem groups_walks (hp : f.project = none) (hg : f.groups = []) :
    Walks o (groups o) f.toResolved f o.groupLookups fun ids f' =>
      ∃ p gs, f' = { f with project := p, groups := gs } ∧ ids = f'.groupIds o := by
  unfold groups SetupOptions.groupLookups
  split
  · rename_i name names hnames
    have hgroupNames : o.groupNames = name :: names := by simp [SetupOptions.groupNames, hnames]
    rw [hgroupNames, if_neg (List.cons_ne_nil name names), ← List.append_nil (_ ++ _)]
    refine (groupIds_walks hp hg (name :: names)).bind ?_
    rintro _ _ ⟨p, gs, rfl, rfl⟩
    exact walks_pure ⟨p, gs, rfl, by simp [Found.groupIds, hgroupNames]⟩
  · rename_i hnames
    have hgroupNames : o.groupNames = [] := by
      rw [SetupOptions.groupNames]
      cases hsome : o.securityGroups with
      | none => rfl
      | some names =>
        cases names with
        | nil => rfl
        | cons name names => exact absurd hsome (hnames name names)
    rw [hgroupNames]
    exact walks_pure ⟨none, [], by rw [← hp, ← hg], by simp [Found.groupIds, hgroupNames]⟩

theorem pinned_walks {network : Network} (hnetwork : f.network = some network)
    (hs : f.namedSubnet = none) :
    Walks o (pinned o network.id) f.toResolved f
      ((nonempty? o.subnetName).toList.map .namedSubnet) fun ids f' =>
        ∃ n, f' = { f with namedSubnet := n } ∧ ids = f'.subnetIds := by
  unfold pinned
  cases nonempty? o.subnetName with
  | none => exact walks_pure ⟨none, by rw [← hs], by simp [Found.subnetIds, hs]⟩
  | some name =>
    refine walks_attempt (by simp [SetupStep.call?, hnetwork]) (fun e => ?_) fun subnet =>
      walks_pure ⟨some subnet, rfl, rfl⟩
    simp [SetupStep.report, SetupStep.missing?, hnetwork, lookupError, SetupStep.label]

theorem tagged_walks {port : Port} (hport : f.port = some port) :
    Walks o (tagged o port) f.toResolved f (if o.tags = [] then [] else [.tag]) fun p f' =>
      f' = { f with port := some p } := by
  unfold tagged
  split
  · exact walks_pure (by rw [← hport])
  · refine walks_attempt (by simp [SetupStep.call?, hport]) (fun _ => rfl) fun x => ?_
    refine walks_modify ?_
    have hkeep : f.keep (.setPortTags port.id o.tags) x =
        { f with port := some { port with tags := o.tags } } := by simp [Found.keep, hport]
    rw [hkeep]
    exact walks_pure rfl

theorem plugged_walks {port : Port} {server : Server} (hport : f.port = some port)
    (hserver : f.server = some server) :
    Walks o (plugged o port.id server.id) f.toResolved f (if o.skipAttach then [] else [.attach])
      fun _ _ => True := by
  unfold plugged
  split
  · exact walks_pure trivial
  · refine walks_attempt (by simp [SetupStep.call?, hport, hserver]) (fun _ => rfl) fun x => ?_
    exact Program.tells_done (.inl ⟨(), _, rfl, .nil _, trivial⟩)

theorem all_walks (o : SetupOptions) : Walks o (all o) {} {} o.steps fun _ _ => True := by
  unfold all
  simp only [SetupOptions.steps, SetupOptions.lookups, List.append_assoc, List.cons_append,
    List.nil_append]
  -- What was found is known exactly at every step, so each call is the one of its step.
  refine walks_attempt rfl (fun _ => rfl) fun server => walks_modify ?_
  refine walks_attempt rfl (fun _ => rfl) fun network => walks_modify ?_
  refine Walks.bind (groups_walks (by rfl) (by rfl)) ?_
  rintro _ _ ⟨p, gs, rfl, rfl⟩
  refine Walks.bind (pinned_walks (by rfl) (by rfl)) ?_
  rintro _ _ ⟨n, rfl, rfl⟩
  refine walks_attempt (by rfl) (fun _ => rfl) fun port => walks_modify ?_
  refine Walks.bind (tagged_walks (by rfl)) ?_
  rintro p _ rfl
  dsimp only
  split
  · rename_i hips
    exact walks_throw (.addressless (by rfl) hips) _
  · rename_i ip ips hips
    refine walks_attempt (by simp [SetupStep.call?, hips]) (fun _ => rfl) fun subnet =>
      walks_modify ?_
    exact plugged_walks (by rfl) (by rfl)

end Setup

theorem SetupOptions.create_notMem_lookups (o : SetupOptions) : .create ∉ o.lookups := by
  simp only [lookups, groupLookups]
  split <;> simp

/-- Only the step of the creation creates a port, by what was found. -/
theorem SetupStep.eq_create {request : PortRequest} {x : Option PortExtension}
    (h : st.call? o f = some (.createPort request x)) :
    st = .create ∧ ∃ network, f.network = some network ∧
      request = Setup.request o network.id (f.groupIds o) f.subnetIds := by
  cases st with
  | create =>
    obtain ⟨network, hnetwork, hcall⟩ := Option.map_eq_some_iff.mp h
    cases hcall
    exact ⟨rfl, network, hnetwork, rfl⟩
  | namedSubnet name =>
    obtain ⟨network, -, hcall⟩ := Option.map_eq_some_iff.mp h
    cases hcall
  | tag =>
    obtain ⟨port, -, hcall⟩ := Option.map_eq_some_iff.mp h
    cases hcall
  | subnet =>
    simp [call?, Option.bind_eq_some_iff] at h
  | attach =>
    simp [call?, Option.bind_eq_some_iff] at h
  | _ => cases h

/-- However setting up is answered, it takes its steps or stops at one of them. -/
theorem setupPort_tells (o : SetupOptions) :
    (setupPort o).Tells fun es outcome =>
      (∃ f, outcome = .ok f.toResolved ∧ Takes o {} o.steps es f) ∨
        ∃ err f, outcome = .error ⟨f.toResolved, err⟩ ∧ Stops o {} o.steps es f err := by
  refine Program.Tells.bind (Program.Tells.mono (Setup.all_walks o) ?_)
  rintro es _ (⟨_, f, rfl, htakes, -⟩ | ⟨err, f, rfl, hstops⟩)
  · exact Program.tells_done (.inl ⟨f, rfl, by simpa using htakes⟩)
  · exact Program.tells_done (.inr ⟨err, f, rfl, by simpa using hstops⟩)

/-- Setting up takes its steps in their order and stops at the first one that fails. It reports the
error of that step, and what the steps before it have found. A port is only created once
everything is looked up, and as what was found says. -/
theorem setupPort_takes_steps (o : SetupOptions) {σ : Type}
    (answer : (c : Call) → σ → c.Answer × σ) (s : σ) :
    let es := (setupPort o).replies answer s
    let outcome := ((setupPort o).runWith answer s).1
    ((∃ f, outcome = .ok f.toResolved ∧ Takes o {} o.steps es f) ∨
      ∃ err f, outcome = .error ⟨f.toResolved, err⟩ ∧ Stops o {} o.steps es f err) ∧
    ∀ before request extra a after, es = before ++ ⟨.createPort request extra, a⟩ :: after →
      ∃ f network, Takes o {} o.lookups before f ∧ f.network = some network ∧
        request.networkId = network.id ∧ request.fixedSubnets = f.subnetIds ∧
        request.securityGroups =
          if o.groupNames = [] then none else some (f.groups.map SecurityGroup.id) := by
  intro es outcome
  have hcourse := (setupPort_tells o).runWith answer s
  refine ⟨hcourse, fun before request extra a after hes => ?_⟩
  change (∃ f, outcome = _ ∧ Takes o {} o.steps es f) ∨
    ∃ err f, outcome = _ ∧ Stops o {} o.steps es f err at hcourse
  rw [hes] at hcourse
  obtain ⟨taken, st, rest, f, hsteps, htakes, hst⟩ : ∃ taken st rest f₁,
      o.steps = taken ++ st :: rest ∧ Takes o {} taken before f₁ ∧
        st.call? o f₁ = some (.createPort request extra) := by
    rcases hcourse with ⟨f, -, h⟩ | ⟨err, f, -, h⟩
    · exact h.at_call
    · exact h.at_call
  obtain ⟨rfl, network, hnetwork, rfl⟩ := SetupStep.eq_create hst
  -- There is only one creation among the steps, so what was taken before it are the lookups.
  have hrest : .create ∉ (if o.tags = [] then [] else [SetupStep.tag]) ++
      (SetupStep.subnet :: if o.skipAttach then [] else [SetupStep.attach]) := by
    split <;> split <;> simp
  have hlookups : o.lookups = taken :=
    ((List.append_cons_inj_of_notMem o.create_notMem_lookups hrest).mp hsteps).1
  exact ⟨f, network, hlookups ▸ htakes, hnetwork, rfl, rfl, rfl⟩

end ContainerPorts.Cloud
