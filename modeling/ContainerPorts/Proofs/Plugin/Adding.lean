import ContainerPorts.Proofs.Daemon.DescribedPort
import ContainerPorts.Proofs.Documents
import ContainerPorts.Proofs.Link.Binding
import ContainerPorts.Proofs.Plugin.Requests

/-!
# The course of an ADD

ADD asks the daemon for a port, the kernel for its link, and the daemon to remember the interface.
Each is asked only when the one before has given what is needed, and what becomes of the record
does not matter. The reply of the daemon is passed on in the version that the runtime asked for.
-/
namespace ContainerPorts

/-! ### Versions -/

namespace AddReply

/-- Versions before 1.0. -/
def isEarly (version : String) : Bool := "0.".toList.isPrefixOf version.toList

/-- A reply as it is in the version that was asked for. What is not supported changes nothing. -/
structure IsRestamped (requested : String) (reply r : AddReply) : Prop where
  cniVersion : r.cniVersion =
    if requested ∈ supportedVersions then requested else reply.cniVersion
  ips : r.ips = if requested ∈ supportedVersions ∧ isEarly requested = false then
    reply.ips.map fun c => { c with version := none } else reply.ips
  interfaces : r.interfaces = reply.interfaces
  routes : r.routes = reply.routes
  dns : r.dns = reply.dns

/-- Each address tells its family in an early document, and in a later one none does. -/
def TellsFamilies (r : AddReply) : Prop :=
  ∀ c ∈ r.ips, c.version =
    if isEarly r.cniVersion then some (if c.address.address.isV4 then "4" else "6") else none

variable {reply r d : AddReply} {requested : String}

theorem isRestamped_restamped (reply : AddReply) (requested : String) :
    IsRestamped requested reply (reply.restamped requested) := by
  by_cases hsupported : requested ∈ supportedVersions
  · cases hearly : isEarly requested with
    | true =>
      have hr : reply.restamped requested = { reply with cniVersion := requested } :=
        (if_neg (not_not.mpr hsupported)).trans (if_pos hearly)
      rw [hr]
      exact ⟨by simp [hsupported], by simp [hearly], rfl, rfl, rfl⟩
    | false =>
      have hr : reply.restamped requested = { reply with
          cniVersion := requested, ips := reply.ips.map fun c => { c with version := none } } :=
        (if_neg (not_not.mpr hsupported)).trans (if_neg (Bool.eq_false_iff.mp hearly))
      rw [hr]
      exact ⟨by simp [hsupported], by simp [hsupported, hearly], rfl, rfl, rfl⟩
  · have hr : reply.restamped requested = reply := if_pos hsupported
    rw [hr]
    exact ⟨by simp [hsupported], by simp [hsupported], rfl, rfl, rfl⟩

/-- What the daemon says of a port tells the family of its address. -/
theorem tellsFamilies_of_describe {x : Cloud.Resolved} {j : Invocation}
    (h : PortReply.describe x j = .ok d) : isEarly d.cniVersion = true ∧ d.TellsFamilies ∧
      d.HasPositions := by
  obtain ⟨server, _ | network, _ | subnet, _ | port, _ | attachment⟩ := x <;>
    try cases h
  obtain ⟨hversion, -, ⟨ip, net, config, -, -, hips, hfamily, hinterface, haddress, -⟩, -, -⟩ :=
    PortReply.describes_of_ok h
  have hearly : isEarly d.cniVersion = true := by
    rw [hversion]
    decide
  refine ⟨hearly, fun c hc => ?_, fun c hc k hk => ?_⟩
  · rw [hips] at hc
    rw [List.mem_singleton.mp hc, hearly, haddress, hfamily]
    rfl
  · rw [hips] at hc
    rw [List.mem_singleton.mp hc, hinterface] at hk
    cases hk
    decide

/-- In whatever version it is asked for, the daemon's reply tells families exactly if that is an
early one. -/
theorem IsRestamped.tellsFamilies (h : IsRestamped requested d r) (hd : d.TellsFamilies)
    (hearly : isEarly d.cniVersion = true) : r.TellsFamilies := by
  intro c hc
  rw [h.ips] at hc
  rw [h.cniVersion]
  by_cases hsupported : requested ∈ supportedVersions
  · rw [if_pos hsupported]
    cases hrequested : isEarly requested with
    | true =>
      rw [if_neg (by simp [hrequested])] at hc
      have hfamily := hd c hc
      rwa [hearly] at hfamily
    | false =>
      rw [if_pos ⟨hsupported, hrequested⟩] at hc
      obtain ⟨c, -, rfl⟩ := List.mem_map.mp hc
      rfl
  · rw [if_neg (fun hboth => hsupported hboth.1)] at hc
    rw [if_neg hsupported]
    exact hd c hc

end AddReply

/-! ### The course -/

namespace Plugin

open Program

variable {σ : Type} {answer : (r : PluginRequest) → σ → r.Answer × σ} {t : Tools} {i : Invocation}
  {s : σ}

/-- The reply that a response gives to an ADD. That it is done is none. -/
def given (y : Posted) : Except ClientError AddReply :=
  match y >>= DaemonClient.readReply with
  | .error e => .error e
  | .ok (some reply) => .ok reply
  | .ok none => .error (.emptyResult 204)

/-- Hand a link over as the interface with this address. -/
def binding (t : Tools) (i : Invocation) (interface : Interface) (address : Network) :
    Program pluginCalls (Except BindError Link) :=
  onKernel (persisting t.retry (Binder.bind t.udev i.netns interface.mac interface.name address))

theorem onHttp_add (t : Tools) (i : Invocation) :
    onHttp (t.client.add i) = posting t i >>= fun y => .done (given y) := by
  rw [DaemonClient.add, onHttp_bind, onHttp_invoke, Program.bind_assoc]
  refine bind_congr fun y => ?_
  rw [Program.done_bind, given]
  generalize y >>= DaemonClient.readReply = told
  rcases told with e | _ | reply <;> rfl

/-- What a program asks a kernel for, the plugin asks its kernel for. -/
theorem onKernel_tells {α : Type} {p : Program kernel α} {Q : List (Reply kernel) → α → Prop}
    (h : p.Tells Q) :
    (onKernel p).Tells fun es a =>
      ∃ calls, es = calls.map (fun e => ⟨.kernel e.1, e.2⟩) ∧ Q calls a := by
  induction p generalizing Q with
  | done a => exact tells_done ⟨[], rfl, h.told [] a (.refl _)⟩
  | ask r next ih =>
    refine tells_ask fun x => (ih x (h.answered x)).mono ?_
    rintro es a ⟨calls, rfl, hcalls⟩
    exact ⟨_, rfl, hcalls⟩

/-- The link with the hardware address of the interface is waited for and handed over, wherever the
plugin is. -/
theorem binding_tells (hdelay : 0 < t.udev.delay.nanos) (i : Invocation) (interface : Interface)
    (address : Network) (start : Whereabouts) :
    (binding t i interface address).Tells fun es x =>
      ∃ calls, es = calls.map (fun e => ⟨.kernel e.1, e.2⟩) ∧
        Binder.Binds t.retry t.udev i.netns interface.mac interface.name address start calls x :=
  onKernel_tells (Binder.bind_tells hdelay)

theorem requests_onKernel {α : Type} (p : Program kernel α) (s : σ) :
    ∀ e ∈ (onKernel p).replies answer s, ∃ r, e.1 = .kernel r := by
  have hp : p.Tells fun _ _ => True := ⟨fun _ _ _ => trivial⟩
  obtain ⟨calls, hes, -⟩ := (onKernel_tells hp).runWith answer s
  rw [hes, List.forall_mem_map]
  exact fun e _ => ⟨e.1, rfl⟩

/-- What is asked and what is told once the daemon has given a reply. -/
def handOver (t : Tools) (i : Invocation) (version : String) (reply : AddReply) :
    Program pluginCalls (Except PluginError AddReply) :=
  match target reply with
  | .error e => .done (.error e)
  | .ok (interface, address) => binding t i interface address >>= fun
    | .error e => .done (.error (.bind e))
    | .ok _ => onHttp (t.client.putRecord (recordOf i address)) >>= fun _ =>
      .done (.ok (reply.restamped version))

/-- What is asked and what is told once it is known what became of the invocation. -/
def resume (t : Tools) (i : Invocation) (version : String) (y : Posted) :
    Program pluginCalls (Except PluginError AddReply) :=
  match given y with
  | .error e => .done (.error (.client e))
  | .ok reply => handOver t i version reply

theorem add_of_error {f : Json.Fault} (h : requestedVersion i.stdin = .error f) :
    add t i = .done (.error (.invalidConfig f)) := by
  rw [add, h]
  rfl

theorem add_of_ok {version : String} (h : requestedVersion i.stdin = .ok version) :
    add t i = posting t i >>= resume t i version := by
  rw [add, h]
  dsimp only
  rw [onHttp_add, Program.bind_assoc]
  refine bind_congr fun y => ?_
  rw [Program.done_bind, resume]
  cases given y with
  | error e => rfl
  | ok reply =>
    dsimp only
    rw [handOver]
    cases target reply with
    | error e => rfl
    | ok x =>
      refine bind_congr fun b => ?_
      cases b <;> rfl

theorem exists_url_of_given {reply : AddReply}
    (h : given ((posting t i).runWith answer s).1 = .ok reply) :
    ∃ u, t.client.url "cni" = .ok u := by
  cases hy : ((posting t i).runWith answer s).1 with
  | ok r => exact exists_url_of_response hy
  | error e =>
    rw [hy] at h
    cases h

/-- A reply that is sent as it is written is given as it is. -/
theorem given_ofJson {d : AddReply} (h : d.HasPositions) :
    given (.ok (.ofJson 200 d.toJson)) = .ok d := by
  have hbody : AddReply.decoder.ofBytes (Utf8.encode d.toJson.text) = .ok d :=
    ((AddReply.decoder_reads h).readsBack (by decide)).1
  have hread : DaemonClient.readReply (.ofJson 200 d.toJson) = .ok (some d) := by
    simp only [DaemonClient.readReply, Http.Response.ofJson, hbody]
  have hbind (y : Http.Response) :
      (Except.ok y >>= DaemonClient.readReply) = DaemonClient.readReply y := rfl
  rw [given, hbind, hread]

/-- A record tells whose interface it is, its address, and the pod that the arguments name. -/
structure Remembers (i : Invocation) (address : Network) (m : InterfaceRecord) : Prop where
  containerId : m.containerId = i.containerId
  ifname : m.ifname = i.ifname
  netns : m.netns = i.netns
  ipAddress : m.ipAddress = address.text
  podName : m.podName = ((readArguments i.args).find? "K8S_POD_NAME").getD ""
  podNamespace : m.podNamespace = ((readArguments i.args).find? "K8S_POD_NAMESPACE").getD ""

theorem remembers_recordOf (i : Invocation) (address : Network) :
    Remembers i address (recordOf i address) :=
  ⟨rfl, rfl, rfl, rfl, rfl, rfl⟩

/-- How an ADD goes on once the daemon has given a reply: `es` is asked and `x` comes of it. The
link is bound only for a reply with an interface and an address, and the interface is remembered
once if it was bound, and not otherwise. -/
structure GoesOn (t : Tools) (i : Invocation) (version : String) (reply : AddReply)
    (answer : (r : PluginRequest) → σ → r.Answer × σ) (s : σ) (es : List (Reply pluginCalls))
    (x : Except PluginError AddReply) : Prop where
  incomplete : reply.interfaces = [] ∨ reply.ips = [] → es = [] ∧
    x = .error (.incompleteResult (if reply.interfaces = [] then "interface" else "ip"))
  complete : ∀ interface interfaces ip ips,
    reply.interfaces = interface :: interfaces → reply.ips = ip :: ips →
      let outcome := ((binding t i interface ip.address).runWith answer s).1
      let bound := (binding t i interface ip.address).replies answer s
      (∀ e ∈ bound, ∃ r, e.1 = .kernel r) ∧
      (∀ e, outcome = .error e → es = bound ∧ x = .error (.bind e)) ∧
      ∀ link, outcome = .ok link →
        (∃ u m a, t.client.url "state" = .ok u ∧ Remembers i ip.address m ∧
          es = bound ++ [⟨.http ⟨"POST", u, none, some m.toJson⟩, a⟩]) ∧
        ∃ r, x = .ok r ∧ AddReply.IsRestamped version reply r

theorem goesOn_handOver {version : String} {reply : AddReply} {u : Url}
    (hu : t.client.url "cni" = .ok u) (s : σ) :
    GoesOn t i version reply answer s ((handOver t i version reply).replies answer s)
      ((handOver t i version reply).runWith answer s).1 where
  incomplete hnone := by
    rw [handOver]
    cases hinterfaces : reply.interfaces with
    | nil =>
      have htarget : target reply = .error (.incompleteResult "interface") := by
        rw [target, hinterfaces]
      rw [htarget]
      exact ⟨rfl, rfl⟩
    | cons interface interfaces =>
      have hips : reply.ips = [] := hnone.resolve_left fun hnil => by
        rw [hinterfaces] at hnil
        cases hnil
      have htarget : target reply = .error (.incompleteResult "ip") := by
        rw [target, hinterfaces, hips]
      rw [htarget]
      exact ⟨rfl, rfl⟩
  complete interface interfaces ip ips hinterfaces hips := by
    intro outcome bound
    have htarget : target reply = .ok (interface, ip.address) := by
      rw [target, hinterfaces, hips]
    rw [handOver, htarget]
    dsimp only
    rw [replies_bind, runWith_bind]
    refine ⟨requests_onKernel _ s, fun e he => ?_, fun link hlink => ⟨?_, ?_⟩⟩
    · rw [show ((binding t i interface ip.address).runWith answer s).1 = .error e from he]
      exact ⟨List.append_nil _, rfl⟩
    · obtain ⟨w, hw⟩ := DaemonClient.exists_url_of_url DaemonClient.beginsPath_cni
        DaemonClient.beginsPath_state hu
      rw [show ((binding t i interface ip.address).runWith answer s).1 = .ok link from hlink]
      dsimp only
      rw [replies_bind_done, replies_putRecord hw]
      exact ⟨w, _, _, hw, remembers_recordOf i ip.address, rfl⟩
    · rw [show ((binding t i interface ip.address).runWith answer s).1 = .ok link from hlink]
      dsimp only
      rw [runWith_bind]
      exact ⟨_, rfl, AddReply.isRestamped_restamped reply version⟩

/-- What comes of an ADD is the daemon's reply in the version that was asked for. -/
theorem GoesOn.isRestamped {version : String} {reply r : AddReply} {es : List (Reply pluginCalls)}
    {x : Except PluginError AddReply} (h : GoesOn t i version reply answer s es x)
    (hx : x = .ok r) : AddReply.IsRestamped version reply r := by
  subst hx
  cases hinterfaces : reply.interfaces with
  | nil => cases (h.incomplete (.inl hinterfaces)).2
  | cons interface interfaces =>
    cases hips : reply.ips with
    | nil => cases (h.incomplete (.inr hips)).2
    | cons ip ips =>
      obtain ⟨-, hfails, hbinds⟩ := h.complete interface interfaces ip ips hinterfaces hips
      cases houtcome : ((binding t i interface ip.address).runWith answer s).1 with
      | error e => cases (hfails e houtcome).2
      | ok link =>
        obtain ⟨-, r', hr, hrestamped⟩ := hbinds link houtcome
        cases hr
        exact hrestamped

/-- With an interface and an address the kernel is asked for the link as `Binder.Binds` says, and
what comes of that decides how the ADD ends. -/
theorem GoesOn.binds {version : String} {reply : AddReply} {es : List (Reply pluginCalls)}
    {x : Except PluginError AddReply} (h : GoesOn t i version reply answer s es x)
    (hdelay : 0 < t.udev.delay.nanos) (start : Whereabouts) {interface : Interface}
    {interfaces : List Interface} {ip : IpConfig} {ips : List IpConfig}
    (hinterfaces : reply.interfaces = interface :: interfaces) (hips : reply.ips = ip :: ips) :
    ∃ calls outcome rest, es = calls.map (fun e => ⟨.kernel e.1, e.2⟩) ++ rest ∧
      Binder.Binds t.retry t.udev i.netns interface.mac interface.name ip.address start calls
        outcome ∧
      (∀ e, outcome = .error e → rest = [] ∧ x = .error (.bind e)) ∧
      ∀ link, outcome = .ok link → ∃ r, x = .ok r := by
  obtain ⟨calls, hcalls, hbinds⟩ :=
    (binding_tells (t := t) hdelay i interface ip.address start).runWith answer s
  obtain ⟨-, hfails, hsucceeds⟩ := h.complete interface interfaces ip ips hinterfaces hips
  rw [hcalls] at hfails hsucceeds
  generalize ((binding t i interface ip.address).runWith answer s).1 = outcome at *
  cases outcome with
  | error e =>
    obtain ⟨hes, hx⟩ := hfails e rfl
    refine ⟨calls, .error e, [], by rw [hes, List.append_nil], hbinds, ?_, nofun⟩
    rintro e' ⟨⟩
    exact ⟨rfl, hx⟩
  | ok link =>
    obtain ⟨⟨u, m, a, -, -, hes⟩, r, hx, -⟩ := hsucceeds link rfl
    exact ⟨calls, .ok link, _, hes, hbinds, nofun, fun _ _ => ⟨r, hx⟩⟩

/-- The whole course of an ADD: nothing is asked if the configuration is not accepted, and what is
asked begins with the daemon. A reply that describes a port tells the family of each address exactly
in early documents. -/
theorem add_course (t : Tools) (i : Invocation)
    (answer : (r : PluginRequest) → σ → r.Answer × σ) (s : σ) :
    let es := (add t i).replies answer s
    let x := ((add t i).runWith answer s).1
    let posted := (posting t i).replies answer s
    let y := (posting t i).runWith answer s
    (∀ f, requestedVersion i.stdin = .error f → es = [] ∧ x = .error (.invalidConfig f)) ∧
    (∀ version, requestedVersion i.stdin = .ok version →
      (∀ e ∈ posted, ∃ u, t.client.url "cni" = .ok u ∧
        e.1 = .http ⟨"POST", u, none, some i.toJson⟩) ∧
      (∀ e, given y.1 = .error e → es = posted ∧ x = .error (.client e)) ∧
      ∀ reply, given y.1 = .ok reply →
        ∃ rest, es = posted ++ rest ∧ GoesOn t i version reply answer y.2 rest x) ∧
    ∀ resolved j d, PortReply.describe resolved j = .ok d →
      y.1 = .ok (.ofJson 200 d.toJson) →
        given y.1 = .ok d ∧ ∀ r, x = .ok r → r.TellsFamilies := by
  intro es x posted y
  have hcourse (version : String) (hversion : requestedVersion i.stdin = .ok version) :
      (∀ e, given y.1 = .error e → es = posted ∧ x = .error (.client e)) ∧
      ∀ reply, given y.1 = .ok reply →
        ∃ rest, es = posted ++ rest ∧ GoesOn t i version reply answer y.2 rest x := by
    have hadd := add_of_ok (t := t) hversion
    have hes : es = posted ++ (resume t i version y.1).replies answer y.2 :=
      (congrArg (Program.replies answer · s) hadd).trans (replies_bind _ _ s)
    have hx : x = ((resume t i version y.1).runWith answer y.2).1 :=
      congrArg Prod.fst ((congrArg (runWith answer · s) hadd).trans
        (runWith_bind answer (posting t i) (resume t i version) s))
    refine ⟨fun e he => ?_, fun reply hreply => ⟨_, hes, ?_⟩⟩
    · rw [hes, hx, resume, he]
      exact ⟨List.append_nil _, rfl⟩
    · obtain ⟨u, hu⟩ := exists_url_of_given hreply
      rw [hx, resume, hreply]
      exact goesOn_handOver hu y.2
  refine ⟨fun f hf => ?_, fun version hversion => ⟨requests_posting, hcourse version hversion⟩,
    fun resolved j d hd hy => ?_⟩
  · have hadd := add_of_error (t := t) hf
    exact ⟨congrArg (Program.replies answer · s) hadd,
      congrArg (fun p => (runWith answer p s).1) hadd⟩
  · obtain ⟨hearly, hfamilies, hpositions⟩ := AddReply.tellsFamilies_of_describe hd
    have hgiven : given y.1 = .ok d := hy ▸ given_ofJson hpositions
    refine ⟨hgiven, fun r hr => ?_⟩
    cases hversion : requestedVersion i.stdin with
    | error f =>
      have hadd := congrArg (fun p => (runWith answer p s).1) (add_of_error (t := t) hversion)
      cases hr.symm.trans hadd
    | ok version =>
      obtain ⟨rest, -, hgoes⟩ := (hcourse version hversion).2 d hgiven
      exact (hgoes.isRestamped hr).tellsFamilies hfamilies hearly

/-- A kernel that has the link and does whatever it is asked to. -/
def willingKernel : (r : KernelRequest) → r.Answer
  | .link (.byMac mac) => ⟨.ok (some ⟨7, "tap7", mac⟩), ⟨0⟩⟩
  | .link (.byIndex index) => ⟨.ok ⟨index, "tap7", ""⟩, ⟨0⟩⟩
  | .link (.openNetns path) => ⟨.ok ⟨path⟩, ⟨0⟩⟩
  | .link (.enterNetns _) => ⟨.ok (), ⟨0⟩⟩
  | .link (.move _ _) => ⟨.ok (), ⟨0⟩⟩
  | .link (.setDown _) => ⟨.ok (), ⟨0⟩⟩
  | .link (.rename _ _) => ⟨.ok (), ⟨0⟩⟩
  | .link (.setAddress _ _) => ⟨.ok (), ⟨0⟩⟩
  | .link (.setUp _) => ⟨.ok (), ⟨0⟩⟩
  | .leaveNetns => ()
  | .sleep _ => ()

/-- The runtime asks for a later version. The daemon describes a port, and does not take the
record. -/
theorem add_course_later :
    let t := Deployment.sample.tools
    let i := { sampleInvocation with stdin := Utf8.encode "\x7b\"cniVersion\":\"1.0.0\"\x7d" }
    let port : Cloud.Port := { fixedIps := [⟨"sub-1", "10.0.0.5"⟩] }
    let subnet : Cloud.Subnet := { cidr := "10.0.0.0/24" }
    let found : Cloud.Resolved :=
      ⟨none, some {}, some subnet, some port, some { macAddr := "fa:16:3e:00:00:01" }⟩
    let d : AddReply := {
      cniVersion := "0.4.0", interfaces := [⟨"eth0", "fa:16:3e:00:00:01", "/proc/7/ns/net"⟩]
      ips := [⟨some "4", some 0, ⟨.v4 ⟨10, 0, 0, 5⟩, 24, by decide⟩, none⟩] }
    let answer : (r : PluginRequest) → Unit → r.Answer × Unit := fun
      | .http _, _ => (.ok (.ofJson 200 d.toJson), ())
      | .kernel r, _ => (willingKernel r, ())
    PortReply.describe found i = .ok d ∧
    ∃ r, ((add t i).runWith answer ()).1 = .ok r ∧ AddReply.IsRestamped "1.0.0" d r ∧
      r.TellsFamilies := by
  intro t i port subnet found d answer
  have hdescribe : PortReply.describe found i = .ok d := by decide +kernel
  have hversion : requestedVersion i.stdin = .ok "1.0.0" := by decide +kernel
  have hbound : ((binding t i ⟨"eth0", "fa:16:3e:00:00:01", "/proc/7/ns/net"⟩
      ⟨.v4 ⟨10, 0, 0, 5⟩, 24, by decide⟩).runWith answer ()).1 =
        .ok ⟨7, "tap7", "fa:16:3e:00:00:01"⟩ := by decide +kernel
  obtain ⟨-, hcourse, htells⟩ := add_course t i answer ()
  obtain ⟨hgiven, hfamilies⟩ := htells _ i d hdescribe (by decide +kernel)
  obtain ⟨rest, -, hgoes⟩ := (hcourse "1.0.0" hversion).2.2 d hgiven
  obtain ⟨-, -, hbinds⟩ := hgoes.complete _ _ _ _ rfl rfl
  obtain ⟨-, r, hr, hrestamped⟩ := hbinds _ hbound
  exact ⟨hdescribe, r, hr, hrestamped, hfamilies r hr⟩

end Plugin

end ContainerPorts
