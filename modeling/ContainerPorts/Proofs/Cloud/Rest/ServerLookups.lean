import ContainerPorts.Proofs.Cloud.Rest.Lookups
import ContainerPorts.Proofs.Json.Records
import ContainerPorts.Proofs.Url.Query
import Mathlib.Data.List.Forall2

/-!
# Which server a lookup finds

The compute service takes the name in a lookup for a pattern, and lists one of the servers that it
matches. So the lookup finds the server of that name, and no other, exactly if the pattern made of
the name matches the name alone. A dot in a name is enough that it does not, since a dot in a
pattern stands for any character.
-/
namespace ContainerPorts.Cloud

namespace RestClient

variable {Matches : String → String → Prop} {inventory : List Server} {name : String}

/-- What the compute service lists for a pattern if no more than one server is asked for. -/
inductive Lists (Matches : String → String → Prop) (inventory : List Server) (pattern : String) :
    List Server → Prop
  | nobody (h : ∀ server ∈ inventory, ¬ Matches pattern server.name) :
    Lists Matches inventory pattern []
  | one {server : Server} (hserver : server ∈ inventory) (h : Matches pattern server.name) :
    Lists Matches inventory pattern [server]

/-- If this is a response to a lookup of servers, it lists what the pattern asks for. -/
def IsListing (Matches : String → String → Prop) (inventory : List Server) : RestReply → Prop
  | ⟨.http r, .ok response⟩ => ∀ (base : Url) pattern servers,
    r.url = base.withPairs [("name", pattern), ("limit", "1")] → response.isSuccess = true →
      (listing "servers" Server.decoder).ofBytes response.body = .ok servers →
        Lists Matches inventory pattern servers
  | _ => True

/-- The server that is found has this name, and if it is said that there is none, there is none. -/
structure Exact (inventory : List Server) (name : String) (x : Except Failure Server) : Prop where
  found : ∀ server, x = .ok server → server.name = name
  missing : x = .error (.notFound .server) → ∀ server ∈ inventory, server.name ≠ name

/-- Whatever servers there are, the one of this name is found, and no other. -/
def FindsExactly (c : RestClient) (Matches : String → String → Prop) (name : String) : Prop :=
  ∀ inventory s es x, (c.answer (.serverByName name) s).Follows es (.done x) →
    (∀ e ∈ es, IsListing Matches inventory e) → Exact inventory name x.1

theorem first_does (h : ∀ n, Matches (exactly name) n ↔ n = name) (servers : List Server)
    (s : Option Session) : (first .server servers).Does s fun _ x _ =>
      Lists Matches inventory (exactly name) servers → Exact inventory name x := by
  cases servers with
  | nil =>
    refine Rest.does_throw _ ?_
    rintro (hnobody | _)
    refine ⟨nofun, fun _ server hserver hname => ?_⟩
    exact hnobody server hserver ((h server.name).mpr hname)
  | cons server servers =>
    refine Rest.does_pure server ?_
    rintro (_ | ⟨-, hmatches⟩)
    refine ⟨?_, nofun⟩
    rintro _ ⟨⟩
    exact (h server.name).mp hmatches

theorem serverByName_does (c : RestClient) (h : ∀ n, Matches (exactly name) n ↔ n = name)
    (inventory : List Server) (s : Option Session) :
    (c.call (.serverByName name)).Does s fun es x _ =>
      (∀ e ∈ es, IsListing Matches inventory e) → Exact inventory name x := by
  have hanswered := c.get_answered s .compute "servers" [("name", exactly name), ("limit", "1")]
    (listing "servers" Server.decoder)
  refine Rest.Does.bind (hanswered.mono ?_)
  rintro es (e | servers) s' hx
  · exact fun _ => ⟨nofun, fun hmissing => absurd hmissing (hx.notMissing.error _)⟩
  · obtain ⟨response, ⟨S, base, -, hsuccess, hmem⟩, hdec⟩ := hx.hears servers rfl
    refine (first_does h servers s').mono fun es' x s'' hexact hes => hexact ?_
    exact hes _ (List.mem_append_left _ hmem) base _ servers rfl hsuccess hdec

/-- The response with these servers. -/
def serversResponse (servers : List Server) : Http.Response :=
  documentResponse (.object [("servers", .array (servers.map Server.toJson))])

theorem ofBytes_serversResponse (servers : List Server) :
    (listing "servers" Server.decoder).ofBytes (serversResponse servers).body = .ok servers := by
  have hserver (x : Server) : Server.decoder.Reads 1 x.toJson x :=
    Json.Decoder.Fills.record (by decide) (.required (.string _) (.required (.string _) (.done _)))
  have hlist : (Json.Decoder.list Server.decoder).Reads 2 (.array (servers.map Server.toJson))
      servers := .list fun x _ => hserver x
  have hlisting : (listing "servers" Server.decoder).Reads 3
      (.object [("servers", .array (servers.map Server.toJson))]) servers :=
    Json.Decoder.Fills.record (by decide) (.required hlist (.done servers))
  exact (hlisting.readsBack (by decide)).1

/-- Any servers can be what a lookup is given. -/
theorem serverByName_gives (c : RestClient) (Matches : String → String → Prop) (name : String)
    (servers : List Server) :
    ∃ es, (∀ inventory, Lists Matches inventory (exactly name) servers →
        ∀ e ∈ es, IsListing Matches inventory e) ∧
      (c.call (.serverByName name)).Gives (some Session.sample) es
        (match servers with
          | server :: _ => .ok server
          | [] => .error (.notFound .server)) (some Session.sample) := by
  have hplace : joined (c.base Session.sample .compute) "servers" =
      .ok (Session.place "nova" "servers") := by
    change joined Session.sample.compute "servers" = _
    decide +kernel
  have hfirst : (first .server servers).Gives (some Session.sample) []
      (match servers with
        | server :: _ => .ok server
        | [] => .error (.notFound .server)) (some Session.sample) := by
    cases servers with
    | nil => exact Rest.gives_throw _ _
    | cons server servers => exact Rest.gives_pure server _
  have hgives := c.get_gives [("name", exactly name), ("limit", "1")]
    (listing "servers" Server.decoder) Session.sample_isFresh hplace
    (isSuccess_documentResponse _) (ofBytes_serversResponse servers)
  refine ⟨_, fun inventory hlists => ?_, hgives.bind hfirst⟩
  rw [List.append_nil]
  refine List.forall_mem_cons.mpr ⟨trivial, List.forall_mem_singleton.mpr ?_⟩
  intro base pattern servers' hurl _ hdec
  have hservers := Except.ok.inj ((ofBytes_serversResponse servers).symm.trans hdec)
  dsimp only at hurl
  have hpattern : exactly name = pattern := Url.withPairs_inj hurl
  rwa [← hservers, ← hpattern]

/-- The lookup is exact if the pattern made of the name is. -/
theorem findsExactly_iff (c : RestClient) (Matches : String → String → Prop) (name : String) :
    c.FindsExactly Matches name ↔ ∀ n, Matches (exactly name) n ↔ n = name := by
  constructor
  · intro h n
    constructor
    · intro hmatches
      obtain ⟨es, hes, hgives⟩ := c.serverByName_gives Matches name [⟨"", n⟩]
      have hlists : Lists Matches [⟨"", n⟩] (exactly name) [⟨"", n⟩] :=
        .one (List.mem_singleton_self _) hmatches
      exact (h _ _ es _ hgives (hes _ hlists)).found _ rfl
    · rintro rfl
      by_contra hnot
      obtain ⟨es, hes, hgives⟩ := c.serverByName_gives Matches n []
      have hlists : Lists Matches [⟨"", n⟩] (exactly n) [] :=
        .nobody (List.forall_mem_singleton.mpr hnot)
      exact (h _ _ es _ hgives (hes _ hlists)).missing rfl _ (List.mem_singleton_self _) rfl
  · exact fun h inventory s es x hes => (c.serverByName_does h inventory s).tells.told es x hes

/-! ### Dots in patterns -/

/-- Whether a character stands for itself in a pattern. -/
def isLiteral (x : Char) : Bool :=
  x ∉ ['\\', '^', '$', '.', '|', '?', '*', '+', '(', ')', '[', ']', '\x7b', '\x7d']

/-- A dot stands for any character. -/
def Fits (x y : Char) : Prop := x = '.' ∨ x = y

/-- Patterns of literal characters and dots, between anchors, match the names that are the same but
for the dots. -/
def ReadsDots (Matches : String → String → Prop) : Prop :=
  ∀ p n : String, (∀ x ∈ p.toList, x = '.' ∨ isLiteral x = true) →
    (Matches ("^" ++ p ++ "$") n ↔ p.toList.Forall₂ Fits n.toList)

theorem forall₂_fits_iff {p n : List Char} (hp : '.' ∉ p) : p.Forall₂ Fits n ↔ n = p := by
  induction p generalizing n with
  | nil => exact List.forall₂_nil_left_iff
  | cons x p ih =>
    obtain ⟨hx, hp⟩ := not_or.mp (List.mem_cons.not.mp hp)
    rw [List.forall₂_cons_left_iff]
    constructor
    · rintro ⟨y, m, hfits, hm, rfl⟩
      rw [(ih hp).mp hm, hfits.resolve_left (Ne.symm hx)]
    · rintro rfl
      exact ⟨x, p, .inr rfl, (ih hp).mpr rfl, rfl⟩

theorem forall₂_fits_map (p : List Char) :
    p.Forall₂ Fits (p.map fun x => if x = '.' then '-' else x) := by
  refine List.forall₂_map_right_iff.mpr (List.forall₂_same.mpr fun x _ => ?_)
  by_cases hx : x = '.'
  · exact .inl hx
  · exact .inr (if_neg hx).symm

theorem forall_forall₂_fits_iff {p : String} :
    (∀ n : String, p.toList.Forall₂ Fits n.toList ↔ n = p) ↔ '.' ∉ p.toList := by
  constructor
  · intro h hdot
    have hmap := forall₂_fits_map p.toList
    rw [← String.toList_ofList (l := p.toList.map _)] at hmap
    have hother := (h _).mp hmap
    rw [← hother, String.toList_ofList, List.mem_map] at hdot
    obtain ⟨x, -, hx⟩ := hdot
    split at hx
    · exact absurd hx (by decide)
    · contradiction
  · intro hdot n
    rw [forall₂_fits_iff hdot, String.toList_inj]

/-- The server of a name is found, and no other, exactly if the pattern made of the name matches
that name alone. If the name is of literal characters and dots, it is if there is no dot. -/
theorem serverByName_exact (c : RestClient) (Matches : String → String → Prop) (name : String) :
    (c.FindsExactly Matches name ↔ ∀ n, Matches (exactly name) n ↔ n = name) ∧
    (ReadsDots Matches → (∀ x ∈ name.toList, x = '.' ∨ isLiteral x = true) →
      (c.FindsExactly Matches name ↔ '.' ∉ name.toList)) := by
  refine ⟨c.findsExactly_iff Matches name, fun hMatches hname => ?_⟩
  rw [c.findsExactly_iff Matches name, ← forall_forall₂_fits_iff]
  exact forall_congr' fun n => iff_congr (hMatches name n hname) Iff.rfl

/-- Patterns between anchors, of any characters and dots. -/
def Anchored (pattern name : String) : Prop :=
  ∃ p : String, pattern = "^" ++ p ++ "$" ∧ p.toList.Forall₂ Fits name.toList

theorem readsDots_anchored : ReadsDots Anchored := by
  intro p n _
  constructor
  · rintro ⟨q, hq, h⟩
    have hlist := congrArg String.toList hq
    simp only [String.toList_append] at hlist
    have hp := List.append_cancel_left (List.append_cancel_right hlist)
    rwa [hp]
  · exact fun h => ⟨p, rfl, h⟩

/-- A name with a dot, and one without. -/
theorem serverByName_exact_dot :
    ¬ Services.sampleClient.FindsExactly Anchored "node.1" ∧
      Services.sampleClient.FindsExactly Anchored "node-1" := by
  constructor
  · intro h
    have hexact := (serverByName_exact Services.sampleClient Anchored "node.1").2 readsDots_anchored
      (by simp [isLiteral])
    exact hexact.mp h (by decide)
  · have hexact := (serverByName_exact Services.sampleClient Anchored "node-1").2 readsDots_anchored
      (by simp [isLiteral])
    exact hexact.mpr (by decide)

end RestClient

end ContainerPorts.Cloud
