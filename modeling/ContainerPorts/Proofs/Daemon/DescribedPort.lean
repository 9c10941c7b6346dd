import ContainerPorts.Daemon.PortReply
import Mathlib.Data.List.Forall2
import Mathlib.Tactic.Common

/-!
# How a port is described

What a reply needs of a port and its subnet is looked at in a fixed order. The reply is
given if and only if all of it is there, and the first thing that is not is reported.
The routes have no part in this.
-/
namespace ContainerPorts.PortReply

open Cloud (Port Subnet Attachment HostRoute)

/-- The first address of a port reads as `ip`. -/
def FirstIp (port : Port) (ip : IpAddress) : Prop :=
  ∃ fixed rest, port.fixedIps = fixed :: rest ∧ IpAddress.read? fixed.ipAddress = some ip

/-- An empty gateway is none. -/
def HasGateway (subnet : Subnet) : Option IpAddress → Prop
  | none => subnet.gatewayIp = none ∨ subnet.gatewayIp = some ""
  | some ip => ∃ text, subnet.gatewayIp = some text ∧ IpAddress.read? text = some ip

/-- What a reply needs. -/
inductive Requirement where
  | fixedIp
  | address
  | network
  | length
  | gateway
  deriving DecidableEq, Repr

namespace Requirement

def inOrder : List Requirement := [.fixedIp, .address, .network, .length, .gateway]

def Met (port : Port) (subnet : Subnet) : Requirement → Prop
  | .fixedIp => port.fixedIps ≠ []
  | .address => ∃ ip, FirstIp port ip
  | .network => ∃ net, Network.read? subnet.cidr = some net
  | .length => ∃ ip net, FirstIp port ip ∧ Network.read? subnet.cidr = some net ∧
    net.bits ≤ ip.width
  | .gateway => ∃ gateway, HasGateway subnet gateway

/-- How it is reported that a requirement is not met. -/
def fault (port : Port) (subnet : Subnet) : Requirement → ReplyError
  | .fixedIp => .invalidAddress port.id "port has no fixed ips"
  | .address =>
    .invalidAddress (port.fixedIps.headD {}).ipAddress "invalid IP address syntax"
  | .network => .invalidAddress subnet.cidr ("invalid address: " ++ subnet.cidr)
  | .length => .invalidAddress subnet.cidr "invalid prefix"
  | .gateway => .invalidAddress (subnet.gatewayIp.getD "") "invalid IP address syntax"

end Requirement

/-- A route is a host route that can be read. -/
def RouteOf (r : HostRoute) (route : Route) : Prop :=
  Network.read? r.destination = some route.dst ∧
    ∃ gw, IpAddress.read? r.nexthop = some gw ∧ route.gw = some gw

def isReadable (r : HostRoute) : Bool :=
  (Network.read? r.destination).isSome && (IpAddress.read? r.nexthop).isSome

/-- What a reply says about a port. -/
structure Describes (i : Invocation) (attachment : Attachment) (port : Port) (subnet : Subnet)
    (reply : AddReply) : Prop where
  version : reply.cniVersion = "0.4.0"
  interface : reply.interfaces = [⟨i.ifname, attachment.macAddr, i.netns⟩]
  address : ∃ ip net config, FirstIp port ip ∧ Network.read? subnet.cidr = some net ∧
    reply.ips = [config] ∧ config.version = some (if ip.isV4 then "4" else "6") ∧
    config.interface = some 0 ∧ config.address.address = ip ∧ config.address.bits = net.bits ∧
    HasGateway subnet config.gateway
  routes : List.Forall₂ RouteOf (subnet.hostRoutes.filter isReadable) reply.routes
  dns : reply.dns = { nameservers := subnet.dnsNameservers }

variable {port : Port} {subnet : Subnet}

theorem route?_eq_some_iff {r : HostRoute} {route : Route} :
    route? r = some route ↔ RouteOf r route := by
  simp only [route?, RouteOf, Option.bind_eq_bind, Option.bind_eq_some_iff, Option.pure_def,
    Option.some.injEq]
  constructor
  · rintro ⟨dst, hdst, gw, hgw, rfl⟩
    exact ⟨hdst, gw, hgw, rfl⟩
  · obtain ⟨dst, o⟩ := route
    rintro ⟨hdst, gw, hgw, rfl⟩
    exact ⟨dst, hdst, gw, hgw, rfl⟩

theorem isSome_route? (r : HostRoute) : (route? r).isSome = isReadable r := by
  simp only [route?, isReadable]
  cases Network.read? r.destination <;> cases IpAddress.read? r.nexthop <;> rfl

/-- Exactly the readable routes are kept, in their order. -/
theorem routes_filterMap (rs : List HostRoute) :
    List.Forall₂ RouteOf (rs.filter isReadable) (rs.filterMap route?) := by
  induction rs with
  | nil => exact .nil
  | cons r rs ih =>
    have hreadable := isSome_route? r
    cases hr : route? r with
    | none =>
      rw [hr, Option.isSome_none] at hreadable
      rwa [List.filterMap_cons_none hr, List.filter_cons_of_neg (by simp [← hreadable])]
    | some route =>
      rw [hr, Option.isSome_some] at hreadable
      rw [List.filterMap_cons_some hr, List.filter_cons_of_pos hreadable.symm]
      exact .cons (route?_eq_some_iff.mp hr) ih

/-! ### The requirements in their order -/

/-- A check of some requirements fails with the first of them that is not met. -/
def Checks {α : Type} (port : Port) (subnet : Subnet) (qs : List Requirement)
    (x : Except ReplyError α) (post : α → Prop) : Prop :=
  (∃ a, x = .ok a ∧ post a ∧ ∀ q ∈ qs, q.Met port subnet) ∨
    ∃ before q after, qs = before ++ q :: after ∧ (∀ q' ∈ before, q'.Met port subnet) ∧
      ¬ q.Met port subnet ∧ x = .error (q.fault port subnet)

namespace Checks

variable {α β : Type} {qs qs' : List Requirement} {x : Except ReplyError α} {post : α → Prop}

theorem bind {f : α → Except ReplyError β} {post' : β → Prop} (h : Checks port subnet qs x post)
    (hf : ∀ a, post a → Checks port subnet qs' (f a) post') :
    Checks port subnet (qs ++ qs') (x >>= f) post' := by
  obtain ⟨a, rfl, ha, hqs⟩ | ⟨before, q, after, rfl, hbefore, hq, rfl⟩ := h
  · obtain ⟨b, hb, hpost, hqs'⟩ | ⟨before, q, after, rfl, hbefore, hq, he⟩ := hf a ha
    · exact .inl ⟨b, hb, hpost, List.forall_mem_append.mpr ⟨hqs, hqs'⟩⟩
    · refine .inr ⟨qs ++ before, q, after, by simp, ?_, hq, he⟩
      exact List.forall_mem_append.mpr ⟨hqs, hbefore⟩
  · exact .inr ⟨before, q, after ++ qs', by simp, hbefore, hq, rfl⟩

theorem mono {post' : α → Prop} (h : Checks port subnet qs x post)
    (hpost : ∀ a, post a → post' a) : Checks port subnet qs x post' := by
  obtain ⟨a, rfl, ha, hqs⟩ | hfailed := h
  · exact .inl ⟨a, rfl, hpost a ha, hqs⟩
  · exact .inr hfailed

theorem map {f : α → β} {post' : β → Prop} (h : Checks port subnet qs x post)
    (hpost : ∀ a, post a → post' (f a)) : Checks port subnet qs (x.map f) post' := by
  obtain ⟨a, rfl, ha, hqs⟩ | ⟨before, q, after, hsplit, hbefore, hq, rfl⟩ := h
  · exact .inl ⟨f a, rfl, hpost a ha, hqs⟩
  · exact .inr ⟨before, q, after, hsplit, hbefore, hq, rfl⟩

theorem ok {a : α} (h : post a) : Checks port subnet [] (.ok a) post :=
  .inl ⟨a, rfl, h, List.forall_mem_nil _⟩

theorem met {q : Requirement} {a : α} (ha : post a) (hq : q.Met port subnet) :
    Checks port subnet [q] (.ok a) post :=
  .inl ⟨a, rfl, ha, by simpa using hq⟩

theorem unmet {q : Requirement} (hq : ¬ q.Met port subnet) :
    Checks port subnet [q] (.error (q.fault port subnet)) post :=
  .inr ⟨[], q, [], rfl, List.forall_mem_nil _, hq, rfl⟩

theorem readOr {read? : String → Option α} {reason value : String} {q : Requirement}
    (hq : q.Met port subnet ↔ ∃ a, read? value = some a)
    (hfault : q.fault port subnet = .invalidAddress value reason) :
    Checks port subnet [q] (readOr read? reason value) fun a => read? value = some a := by
  rw [PortReply.readOr]
  cases h : read? value with
  | some a => exact met rfl (hq.mpr ⟨a, h⟩)
  | none => exact hfault ▸ unmet fun hmet => by simp [hq, h] at hmet

end Checks

theorem firstIp_iff {fixed : Cloud.FixedIp} {rest : List Cloud.FixedIp}
    (h : port.fixedIps = fixed :: rest) {ip : IpAddress} :
    FirstIp port ip ↔ IpAddress.read? fixed.ipAddress = some ip := by
  simp [FirstIp, h]

theorem FirstIp.eq {ip ip' : IpAddress} (h : FirstIp port ip) (h' : FirstIp port ip') :
    ip = ip' := by
  obtain ⟨fixed, rest, hfixed, hip⟩ := h
  exact Option.some.inj (hip.symm.trans ((firstIp_iff hfixed).mp h'))

theorem fixedIp_checks (port : Port) (subnet : Subnet) :
    Checks port subnet [.fixedIp] (fixedIp port) fun fixed =>
      ∃ rest, port.fixedIps = fixed :: rest := by
  unfold fixedIp
  cases h : port.fixedIps with
  | nil => exact Checks.unmet (q := .fixedIp) fun hmet => hmet h
  | cons fixed rest => exact Checks.met ⟨rest, rfl⟩ (by simp [Requirement.Met, h])

theorem address_checks {ip : IpAddress} (h : FirstIp port ip) :
    Checks port subnet [.network, .length] (address ip subnet.cidr) fun n =>
      n.address = ip ∧ ∃ net, Network.read? subnet.cidr = some net ∧ n.bits = net.bits := by
  refine (Checks.readOr (q := .network) Iff.rfl rfl).bind fun net hnet => ?_
  have hlength : Requirement.length.Met port subnet ↔ ∃ n, Network.make? ip net.bits = some n := by
    constructor
    · rintro ⟨ip', net', hip, hnet', hbits⟩
      obtain rfl := h.eq hip
      obtain rfl := Option.some.inj (hnet.symm.trans hnet')
      exact ⟨_, dif_pos hbits⟩
    · rintro ⟨n, hn⟩
      obtain ⟨rfl, hbits⟩ := Network.make?_eq_some_iff.mp hn
      exact ⟨_, net, h, hnet, hbits ▸ n.bits_le⟩
  refine (Checks.readOr hlength rfl).mono fun n hn => ?_
  obtain ⟨hip, hbits⟩ := Network.make?_eq_some_iff.mp hn
  exact ⟨hip, net, hnet, hbits⟩

theorem gateway_checks (port : Port) (subnet : Subnet) :
    Checks port subnet [.gateway] (gateway subnet) (HasGateway subnet) := by
  unfold gateway
  cases hg : subnet.gatewayIp with
  | none => exact Checks.met (.inl hg) ⟨none, .inl hg⟩
  | some text =>
    by_cases htext : text = ""
    · subst htext
      exact Checks.met (.inr hg) ⟨none, .inr hg⟩
    · have hnonempty : Cloud.nonempty? (some text) = some text := by
        simp [Cloud.nonempty?, htext]
      have hmet : Requirement.gateway.Met port subnet ↔ ∃ ip, IpAddress.read? text = some ip := by
        constructor
        · rintro ⟨_ | ip, h⟩
          · simp [HasGateway, hg, htext] at h
          · obtain ⟨other, hother, hip⟩ := h
            obtain rfl := Option.some.inj (hg.symm.trans hother)
            exact ⟨ip, hip⟩
        · rintro ⟨ip, hip⟩
          exact ⟨some ip, text, hg, hip⟩
      rw [hnonempty]
      refine (Checks.readOr hmet ?_).map fun ip hip => ⟨text, hg, hip⟩
      simp [Requirement.fault, hg, IpAddress.unreadable]

/-- A complete port is described, or the first requirement is reported that is not met. -/
theorem describe_checks (i : Invocation) (server : Option Cloud.Server) (network : Cloud.Network)
    (subnet : Subnet) (port : Port) (attachment : Attachment) :
    Checks port subnet Requirement.inOrder
      (describe ⟨server, some network, some subnet, some port, some attachment⟩ i)
      (Describes i attachment port subnet) := by
  -- Each check knows what the ones before it have read.
  refine (fixedIp_checks port subnet).bind ?_
  rintro fixed ⟨rest, hfixed⟩
  have haddress : Requirement.address.Met port subnet ↔
      ∃ ip, IpAddress.read? fixed.ipAddress = some ip := by
    simp only [Requirement.Met, firstIp_iff hfixed]
  refine (Checks.readOr (q := .address) haddress ?_).bind fun ip hip => ?_
  · simp [Requirement.fault, hfixed, IpAddress.unreadable]
  have hfirst : FirstIp port ip := (firstIp_iff hfixed).mpr hip
  refine (address_checks hfirst).bind ?_
  rintro n ⟨rfl, net, hnet, hbits⟩
  refine (gateway_checks port subnet).bind fun g hg => ?_
  exact .ok ⟨rfl, rfl, ⟨_, net, _, hfirst, hnet, rfl, rfl, rfl, rfl, hbits, hg⟩,
    routes_filterMap _, rfl⟩

theorem describes_of_ok {i : Invocation} {server : Option Cloud.Server} {network : Cloud.Network}
    {attachment : Attachment} {reply : AddReply}
    (h : describe ⟨server, some network, some subnet, some port, some attachment⟩ i = .ok reply) :
    Describes i attachment port subnet reply := by
  obtain ⟨reply', hok, hreply, -⟩ | ⟨before, q, after, -, -, -, herror⟩ :=
    describe_checks i server network subnet port attachment
  · obtain rfl := Except.ok.inj (h.symm.trans hok)
    exact hreply
  · cases h.symm.trans herror

/-- Of a port a reply says what its address is. -/
theorem Describes.congr {i : Invocation} {attachment : Attachment} {reply : AddReply} {port' : Port}
    (h : Describes i attachment port subnet reply) (hips : port.fixedIps = port'.fixedIps) :
    Describes i attachment port' subnet reply := by
  obtain ⟨version, interface, ⟨ip, net, config, hip, haddress⟩, routes, dns⟩ := h
  refine ⟨version, interface, ⟨ip, net, config, ?_, haddress⟩, routes, dns⟩
  rwa [FirstIp, ← hips]

/-- A reply is given if and only if everything it needs is there. A complete port for which it is
not given is reported with the first requirement that is not met. -/
theorem describe_iff (i : Invocation) :
    (∀ r, describe r i = .error .incomplete ↔
      r.attachment = none ∨ r.network = none ∨ r.port = none ∨ r.subnet = none) ∧
    ∀ server network subnet port attachment,
      let outcome := describe ⟨server, some network, some subnet, some port, some attachment⟩ i
      ((∃ reply, outcome = .ok reply) ↔ ∀ q ∈ Requirement.inOrder, q.Met port subnet) ∧
      (∀ e, outcome = .error e → ∃ before q after, Requirement.inOrder = before ++ q :: after ∧
        (∀ q' ∈ before, q'.Met port subnet) ∧ ¬ q.Met port subnet ∧ e = q.fault port subnet) ∧
      ∀ reply, outcome = .ok reply → Describes i attachment port subnet reply := by
  refine ⟨fun r => ?_, fun server network subnet port attachment => ?_⟩
  · obtain ⟨server, _ | network, _ | subnet, _ | port, _ | attachment⟩ := r <;>
      try exact iff_of_true rfl (by simp)
    refine iff_of_false (fun h => ?_) (by simp)
    obtain ⟨reply, hok, -⟩ | ⟨before, q, after, -, -, -, herror⟩ :=
      describe_checks i server network subnet port attachment
    · cases h.symm.trans hok
    · rw [h] at herror
      cases q <;> cases herror
  · intro outcome
    obtain ⟨reply, hok, -, hall⟩ | ⟨before, q, after, hsplit, hbefore, hq, herror⟩ :=
      describe_checks i server network subnet port attachment
    · refine ⟨iff_of_true ⟨reply, hok⟩ hall, fun e he => ?_, fun reply' => describes_of_ok⟩
      cases he.symm.trans hok
    · refine ⟨iff_of_false ?_ fun h => ?_, fun e he => ?_, fun reply h => ?_⟩
      · rintro ⟨reply, hok⟩
        cases hok.symm.trans herror
      · exact hq (h q (hsplit ▸ List.mem_append_right _ List.mem_cons_self))
      · exact ⟨before, q, after, hsplit, hbefore, hq, Except.error.inj (he.symm.trans herror)⟩
      · exact describes_of_ok h

end ContainerPorts.PortReply
