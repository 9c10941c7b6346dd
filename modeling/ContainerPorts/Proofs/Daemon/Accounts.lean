import ContainerPorts.Proofs.Daemon.StoredRecords

/-!
# Every posted invocation is accounted for

A body that is posted as an invocation is either turned away, and then nobody is asked for anything,
or it is complete, and then the handler of its verb is run once until the deadline, and nobody is
asked for anything else. One counter is raised for the request and one for what became of it. So the
books balance after any run of the daemon, whatever else it was asked and whoever answers it.
-/
namespace ContainerPorts

/-! ### Counters -/

namespace Metrics

/-- What may become of a posted invocation. -/
inductive Account where
  | invalid
  | outcome (verb : Verb) (success : Bool)
  deriving DecidableEq

/-- The counter of an account; VERSION is never handled. -/
def account (m : Metrics) : Account → ℕ
  | .invalid => m.invalid
  | .outcome .add true => m.addSuccess
  | .outcome .add false => m.addFailure
  | .outcome .del true => m.delSuccess
  | .outcome .del false => m.delFailure
  | .outcome .check true => m.checkSuccess
  | .outcome .check false => m.checkFailure
  | .outcome .version _ => 0

/-- One request more was counted, and of the accounts only `a` was raised, by one. -/
structure Booked (m m' : Metrics) (a : Account) : Prop where
  requests : m'.requests = m.requests + 1
  account : ∀ b, m'.account b = m.account b + if b = a then 1 else 0
  reaping : m'.reaped = m.reaped ∧ m'.reapFailed = m.reapFailed
  portTotal : m'.portTotal = m.portTotal

theorem booked_invalid (m : Metrics) : m.Booked m.countRequest.countInvalid .invalid where
  requests := rfl
  account := by
    rintro (_ | ⟨v, success⟩)
    · rfl
    · cases v <;> cases success <;> rfl
  reaping := ⟨rfl, rfl⟩
  portTotal := rfl

theorem booked_outcome (m : Metrics) {v : Verb} (hv : v ≠ .version) (success : Bool) :
    m.Booked (m.countRequest.countOutcome v success) (.outcome v success) := by
  cases v with
  | version => exact absurd rfl hv
  | _ =>
    cases success <;> refine ⟨rfl, ?_, ⟨rfl, rfl⟩, rfl⟩
    all_goals
      rintro (_ | ⟨w, success⟩)
      · rfl
      · cases w <;> cases success <;> rfl

/-- Every request that was counted is in one of the other accounts. -/
def Balanced (m : Metrics) : Prop := m.requests = m.invalid + m.outcomes

theorem Booked.ne_version {m m' : Metrics} {a : Account} (h : m.Booked m' a) (success : Bool) :
    a ≠ .outcome .version success := by
  rintro rfl
  have hversion := h.account (.outcome .version success)
  simp [Metrics.account] at hversion

theorem Booked.balanced {m m' : Metrics} {a : Account} (h : m.Booked m' a) (hm : m.Balanced) :
    m'.Balanced := by
  have hrequests := h.requests
  have hinvalid := h.account .invalid
  have hadd := And.intro (h.account (.outcome .add true)) (h.account (.outcome .add false))
  have hdel := And.intro (h.account (.outcome .del true)) (h.account (.outcome .del false))
  have hcheck := And.intro (h.account (.outcome .check true)) (h.account (.outcome .check false))
  have hversion := And.intro (h.ne_version true) (h.ne_version false)
  unfold Balanced outcomes at hm ⊢
  rcases a with _ | ⟨v, success⟩
  · simp only [Metrics.account, reduceCtorEq, if_true, if_false] at hinvalid hadd hdel hcheck
    omega
  · cases v <;> cases success <;>
      simp [Metrics.account] at hinvalid hadd hdel hcheck hversion <;> omega

end Metrics

/-! ### One posted invocation -/

/-- Everything that an invocation needs to be handled as the verb `v`. -/
structure Invocation.Complete (i : Invocation) (v : Verb) : Prop where
  command : i.command = v.name
  handled : v = .add ∨ v = .del ∨ v = .check
  containerId : i.containerId ≠ ""
  ifname : i.ifname ≠ ""
  stdin : i.stdin ≠ []
  netns : v = .add ∨ v = .check → i.netns ≠ ""

/-- The body of a request is a complete invocation. -/
def ApiRequest.Commands (r : ApiRequest) (v : Verb) (i : Invocation) : Prop :=
  Invocation.decoder.ofBytes r.body = .ok i ∧ i.Complete v

theorem Invocation.complete_iff {i : Invocation} {v : Verb} :
    i.Complete v ↔ i.validate = .ok v ∧ v ≠ .version := by
  have hneeds : v.needsNetns = true ↔ v = .add ∨ v = .check := by
    cases v <;> simp [Verb.needsNetns]
  have hhandled : v ≠ .version ↔ v = .add ∨ v = .del ∨ v = .check := by
    cases v <;> simp
  rw [validate_eq_ok_iff, hneeds, hhandled]
  constructor
  · rintro ⟨hcommand, hv, hid, hif, hstdin, hnetns⟩
    exact ⟨⟨hcommand, hid, hif, hstdin, hnetns⟩, hv⟩
  · rintro ⟨⟨hcommand, hid, hif, hstdin, hnetns⟩, hv⟩
    exact ⟨hcommand, hv, hid, hif, hstdin, hnetns⟩

theorem ApiRequest.commands_iff {r : ApiRequest} {v : Verb} {i : Invocation} :
    r.Commands v i ↔ Api.readCommand r.body = .ok (v, i) := by
  unfold Commands Api.readCommand
  cases Invocation.decoder.ofBytes r.body with
  | error f => simp
  | ok j =>
    simp only [Except.ok.injEq]
    constructor
    · rintro ⟨rfl, hi⟩
      obtain ⟨hvalid, hv⟩ := Invocation.complete_iff.mp hi
      rw [hvalid]
      cases v with
      | version => exact absurd rfl hv
      | _ => rfl
    · intro h
      split at h
      · cases h
      · cases h
      · rename_i w hne hvalid
        cases h
        exact ⟨rfl, Invocation.complete_iff.mpr ⟨hvalid, hne⟩⟩

/-- Whether a handler ended well before it was stopped. -/
def HandlerError.succeeded {α : Type} : Option (Except HandlerError α) → Bool
  | some (.ok _) => true
  | _ => false

/-- The answer to an invocation whose handling came to a result, or to none before the
deadline. -/
inductive Api.Answers : (v : Verb) → Option (Except HandlerError v.Reply) → Http.Response → Prop
  | added (reply : AddReply) : Answers .add (some (.ok reply)) (.ofJson 200 reply.toJson)
  | deleted : Answers .del (some (.ok ())) (.empty 204)
  | checked : Answers .check (some (.ok ())) (.empty 204)
  | failed {v : Verb} (e : HandlerError) {reply : ErrorReply} (h : reply.code = 999) :
    Answers v (some (.error e)) (.ofJson 500 reply.toJson)
  | stopped {v : Verb} {reply : ErrorReply} (h : reply.code = 999) :
    Answers v none (.ofJson 500 reply.toJson)

namespace Daemon

/-- The request is turned away, and nobody is asked for anything. -/
def TurnsAway (d : Daemon) (r : ApiRequest) (m : Metrics) : Prop :=
  ∃ reason m', d.respond r m = .done (.ofText 400 reason, m') ∧ m.Booked m' .invalid

/-- However its requests are answered, the handler of the verb is run once until the deadline, and
nothing else is asked for. Then the invocation is answered and counted by what came of it. -/
def Handles (d : Daemon) (r : ApiRequest) (m : Metrics) (v : Verb) (i : Invocation) : Prop :=
  (d.respond r m).Tells fun es x => ∃ result : Option (Except HandlerError v.Reply),
    Effect.RunsWithin d.requestLimit (d.handler v i) es result ∧ Api.Answers v result x.1 ∧
      m.Booked x.2 (.outcome v (HandlerError.succeeded result))

variable {d : Daemon} {r : ApiRequest} {m : Metrics}

theorem turnsAway (hmethod : r.method = "POST") (hpath : Resource.ofPath? r.path = some .command)
    (h : ∀ v i, ¬ r.Commands v i) : d.TurnsAway r m := by
  obtain ⟨method, path, body⟩ := r
  obtain rfl : method = "POST" := hmethod
  cases hread : Api.readCommand body with
  | ok vi =>
    have hcommands : ApiRequest.Commands ⟨"POST", path, body⟩ vi.1 vi.2 :=
      ApiRequest.commands_iff.mpr hread
    exact absurd hcommands (h vi.1 vi.2)
  | error reason =>
    refine ⟨reason, m.countRequest.countInvalid, ?_, m.booked_invalid⟩
    rw [respond, Api.respond_of_readCommand_error hpath hread]
    rfl

theorem settled_answers {v : Verb} (hv : v = .add ∨ v = .del ∨ v = .check) (i : Invocation)
    (result : Option (Except HandlerError v.Reply)) :
    Api.Answers v result (d.settled m v i result).1 := by
  match result with
  | none => exact .stopped rfl
  | some (.error e) => exact .failed e rfl
  | some (.ok reply) =>
    rcases hv with rfl | rfl | rfl
    · exact .added reply
    · exact .deleted
    · exact .checked

theorem settled_booked {v : Verb} (hv : v ≠ .version) (i : Invocation)
    (result : Option (Except HandlerError v.Reply)) :
    m.Booked (d.settled m v i result).2 (.outcome v (HandlerError.succeeded result)) := by
  match result with
  | none => exact m.booked_outcome hv false
  | some (.error e) => exact m.booked_outcome hv false
  | some (.ok reply) => exact m.booked_outcome hv true

theorem handles (hmethod : r.method = "POST") (hpath : Resource.ofPath? r.path = some .command)
    {v : Verb} {i : Invocation} (h : r.Commands v i) : d.Handles r m v i := by
  have hv := h.2.handled
  have hversion := (Invocation.complete_iff.mp h.2).2
  obtain ⟨method, path, body⟩ := r
  obtain rfl : method = "POST" := hmethod
  rw [Handles, respond_handled hpath (ApiRequest.commands_iff.mp h)]
  refine Program.Tells.bind ((Effect.within_tells d.requestLimit (d.handler v i)).mono ?_)
  intro es result hruns
  have hsettled := settled_booked (d := d) (m := m) hversion i result
  refine Program.tells_done ⟨result, ?_, settled_answers hv i result, hsettled⟩
  rwa [List.append_nil]

/-- A complete invocation is posted as such. -/
theorem commands_posting (path : String) {v : Verb} {i : Invocation} (h : i.Complete v) :
    (posting path i).Commands v i := by
  refine ⟨?_, h⟩
  simp only [posting, Invocation.decoder_text]

end Daemon

/-! ### Runs -/

namespace Api

/-- A program of the interface after which the books balance if they did before. -/
structure Balances {α : Type} (a : Api α) : Prop where
  ends : ∀ m, m.Balanced → (a m).Ends fun x => x.2.Balanced

variable {α β : Type}

theorem balances_pure (a : α) : Balances (pure a : Api α) :=
  ⟨fun _ hm => (Program.ends_done _).mpr hm⟩

theorem Balances.bind {a : Api α} {f : α → Api β} (h : Balances a) (hf : ∀ x, Balances (f x)) :
    Balances (a >>= f) :=
  ⟨fun m hm => (h.ends m hm).bind fun x hx => (hf x.1).ends x.2 hx⟩

theorem balances_ask (r : Service) : Balances (ask r) :=
  ⟨fun _ hm => Program.ends_bind fun _ => (Program.ends_done _).mpr hm⟩

theorem balances_onRecords (p : Program fileCalls α) : Balances (onRecords p) :=
  ⟨fun _ hm => Program.ends_bind fun _ => (Program.ends_done _).mpr hm⟩

theorem command_balances (body : Bytes) : Balances (command body) := by
  refine ⟨fun m hm => ?_⟩
  unfold command
  cases hread : readCommand body with
  | error reason => exact (Program.ends_done _).mpr (m.booked_invalid.balanced hm)
  | ok vi =>
    obtain ⟨v, i⟩ := vi
    have hcommands : ApiRequest.Commands ⟨"POST", "", body⟩ v i := ApiRequest.commands_iff.mpr hread
    have hv := (Invocation.complete_iff.mp hcommands.2).2
    refine Program.ends_bind (p := Program.perform (S := services) (.command v i)) ?_
    rintro (e | reply)
    · exact (Program.ends_done _).mpr ((m.booked_outcome hv false).balanced hm)
    · exact (Program.ends_done _).mpr ((m.booked_outcome hv true).balanced hm)

theorem metrics_balances : Balances metrics := by
  have get : Balances (get : Api Metrics) := ⟨fun _ hm => (Program.ends_done _).mpr hm⟩
  refine (balances_ask .portCount).bind fun total => ?_
  cases total with
  | none => exact get.bind fun _ => balances_pure _
  | some n =>
    have gauge : Balances (modify fun m => { m with portTotal := n } : Api Unit) :=
      ⟨fun _ hm => (Program.ends_done _).mpr hm⟩
    exact gauge.bind fun _ => get.bind fun _ => balances_pure _

theorem answer?_balances {dir : String} {body : Bytes} {resource : Resource} {method : String}
    {a : Api Http.Response} (ha : answer? dir body resource method = some a) : Balances a := by
  unfold answer? at ha
  split at ha <;> simp only [Option.some.injEq, reduceCtorEq] at ha
  all_goals subst ha
  · exact command_balances body
  · exact (balances_ask .health).bind fun _ => balances_pure _
  · exact balances_pure _
  · exact metrics_balances
  · unfold putRecord
    split
    · exact balances_pure _
    · refine (balances_onRecords _).bind fun r => ?_
      cases r <;> exact balances_pure _
  · unfold getRecord
    split
    · exact balances_pure _
    · refine (balances_onRecords _).bind fun r => ?_
      cases r <;> exact balances_pure _
  · unfold deleteRecord
    split
    · exact balances_pure _
    · refine (balances_onRecords _).bind fun r => ?_
      cases r <;> exact balances_pure _

theorem respond_balances (dir : String) (r : ApiRequest) : Balances (respond dir r) := by
  unfold respond
  split
  · exact balances_pure _
  · dsimp only
    split
    · exact balances_pure _
    · rename_i a ha
      exact (answer?_balances ha).bind fun _ => balances_pure _

end Api

theorem Reaper.countPass_balanced {m : Metrics} (hm : m.Balanced)
    (outcome : Except Cloud.Failure (List Fate)) : (countPass m outcome).Balanced := by
  cases outcome with
  | error e => exact hm
  | ok fates =>
    unfold countPass
    induction fates generalizing m with
    | nil => exact hm
    | cons fate fates ih =>
      cases fate <;> exact ih hm

namespace Daemon

/-- What a daemon does: it answers requests and makes reaper passes. -/
inductive Duty where
  | answer (r : ApiRequest)
  | reap

def perform (d : Daemon) (m : Metrics) : Duty → Program effects Metrics
  | .answer r => do return (← d.respond r m).2
  | .reap => do return (← d.reap m).2

/-- The metrics after some duties, each done with whoever answers its requests. -/
def metricsAfter {σ : Type} (d : Daemon) (answer : (e : Effect) → σ → e.Answer × σ) :
    List Duty → Metrics → σ → Metrics
  | [], m, _ => m
  | duty :: duties, m, s =>
    let (m, s) := (d.perform m duty).runWith answer s
    d.metricsAfter answer duties m s

theorem respond_balanced (d : Daemon) (r : ApiRequest) {m : Metrics} (hm : m.Balanced) :
    (d.respond r m).Ends fun x => x.2.Balanced :=
  ((Api.respond_balances d.records r).ends m hm).expand

theorem reap_balanced (d : Daemon) {m : Metrics} (hm : m.Balanced) :
    (d.reap m).Ends fun x => x.2.Balanced :=
  Program.ends_bind fun outcome =>
    (Program.ends_done _).mpr (Reaper.countPass_balanced hm outcome)

theorem perform_balanced (d : Daemon) {m : Metrics} (hm : m.Balanced) (duty : Duty) :
    (d.perform m duty).Ends Metrics.Balanced := by
  cases duty with
  | answer r =>
    rw [perform]
    refine (d.respond_balanced r hm).bind fun x hx => ?_
    exact (Program.ends_done x.2).mpr hx
  | reap =>
    rw [perform]
    refine (d.reap_balanced hm).bind fun x hx => ?_
    exact (Program.ends_done x.2).mpr hx

theorem metricsAfter_balanced {σ : Type} (d : Daemon)
    (answer : (e : Effect) → σ → e.Answer × σ) (duties : List Duty) {m : Metrics}
    (hm : m.Balanced) (s : σ) : (d.metricsAfter answer duties m s).Balanced := by
  induction duties generalizing m s with
  | nil => exact hm
  | cons duty duties ih => exact ih ((d.perform_balanced hm duty).runWith s) _

/-- A posted invocation is either turned away or handled, and in either case counted as a
request and in one other account. From the start of the daemon on these accounts add up. -/
theorem posted_accounted (d : Daemon) :
    (∀ r m, r.method = "POST" → Resource.ofPath? r.path = some .command →
      ((∀ v i, ¬ r.Commands v i) ∧ d.TurnsAway r m) ∨ ∃ v i, r.Commands v i ∧ d.Handles r m v i) ∧
    ∀ (σ : Type) (answer : (e : Effect) → σ → e.Answer × σ) (duties : List Duty) (s : σ),
      (d.metricsAfter answer duties {} s).Balanced := by
  refine ⟨fun r m hmethod hpath => ?_, fun σ answer duties s => ?_⟩
  · by_cases h : ∃ v i, r.Commands v i
    · obtain ⟨v, i, hcommands⟩ := h
      exact .inr ⟨v, i, hcommands, handles hmethod hpath hcommands⟩
    · have hnone : ∀ v i, ¬ r.Commands v i := fun v i hcommands => h ⟨v, i, hcommands⟩
      exact .inl ⟨hnone, turnsAway hmethod hpath hnone⟩
  · have hstart : Metrics.Balanced {} := rfl
    exact d.metricsAfter_balanced answer duties hstart s

/-- A handler that is stopped by the deadline, and a request without a body. -/
theorem posted_accounted_stalled :
    let i : Invocation := {
      command := "ADD", containerId := "c", ifname := "eth0", netns := "/proc/7/ns/net"
      stdin := [0x7B, 0x7D] }
    let d : Daemon := {
      hostname := "node-1", handler := .stalled (.ofSeconds 6), records := "/var/lib/ports" }
    let unfit : ApiRequest := ⟨"POST", "/cni", []⟩
    d.Handles (posting "/cni" i) {} .add i ∧ d.TurnsAway unfit {} ∧
    ∀ s : Site, (d.metricsAfter Site.answer [.answer (posting "/cni" i), .answer unfit, .reap] {}
      s).Balanced := by
  intro i d unfit
  obtain ⟨hposted, hruns⟩ := posted_accounted d
  have hpath : Resource.ofPath? "/cni" = some .command := by decide +kernel
  have hcommands : (posting "/cni" i).Commands .add i := commands_posting "/cni"
    ⟨rfl, .inl rfl, by decide, by decide, by decide, fun _ => by decide⟩
  have hunfit : ∀ v j, ¬ unfit.Commands v j := fun v j hj => by
    have hread := ApiRequest.commands_iff.mp hj
    cases hread
  refine ⟨?_, ?_, fun s => hruns Site Site.answer _ s⟩
  · rcases hposted (posting "/cni" i) {} rfl hpath with ⟨hnone, -⟩ | ⟨v, j, hj, hhandles⟩
    · exact absurd hcommands (hnone .add i)
    · have hread := ApiRequest.commands_iff.mp hj
      rw [ApiRequest.commands_iff.mp hcommands] at hread
      cases hread
      exact hhandles
  · rcases hposted unfit {} rfl hpath with ⟨-, hturns⟩ | ⟨v, j, hj, -⟩
    · exact hturns
    · exact absurd hj (hunfit v j)

/-- Setting up a port comes to its end if every request takes half a second, and is stopped if every
request takes two. -/
example :
    let d : Daemon := {
      hostname := sampleHost.hostname, handler := sampleHost.handle, records := "/var/lib/ports" }
    let answered (lap : Span) : ℕ × Metrics :=
      let s := { sampleSite .basic with lap := fun _ => lap }
      let x := (s.run (d.respond (posting "/cni" { sampleInvocation with command := "ADD" }) {})).1
      (x.1.status, x.2)
    answered (.ofMillis 500) = (200, { requests := 1, addSuccess := 1 }) ∧
      answered (.ofSeconds 2) = (500, { requests := 1, addFailure := 1 }) := by
  decide +kernel

end Daemon

end ContainerPorts
