import ContainerPorts.Cloud.Rest.Services
import ContainerPorts.Proofs.Replies

/-!
# The conversations of the client

Every call of the client is one conversation with the services. It uses the session that
is known or asks for a token, and then sends at most one request with it. This module says
once what such a conversation can be, layer by layer as the client is built, so that
nothing about a run needs to look into the client again.
-/
namespace ContainerPorts

namespace Cloud

/-- A request of the client with its answer. -/
abbrev RestReply : Type := Program.Reply restCalls

namespace RestReply

/-- The time that was read. -/
def time? : RestReply → Option Int
  | ⟨.now, now⟩ => some now.toNanos
  | ⟨.http _, _⟩ => none

/-- A request with the token `t` was sent. -/
def Bears (t : String) : RestReply → Prop
  | ⟨.http r, _⟩ => r.token = some t
  | ⟨.now, _⟩ => False

/-- A request was sent with a token, and refused for it. -/
def Refused : RestReply → Prop
  | ⟨.http r, .ok response⟩ => r.token ≠ none ∧ response.status = 401
  | _ => False

instance : DecidablePred Refused
  | ⟨.http r, .ok response⟩ => inferInstanceAs (Decidable (r.token ≠ none ∧ response.status = 401))
  | ⟨.http _, .error _⟩ => inferInstanceAs (Decidable False)
  | ⟨.now, _⟩ => inferInstanceAs (Decidable False)

end RestReply

namespace RestClient

variable (c : RestClient)

/-- The client asked for a token. -/
def LogsIn : RestReply → Prop
  | ⟨.http r, _⟩ => r.method = "POST" ∧ joined c.identity "auth/tokens" = .ok r.url ∧
      r.token = none ∧ r.body = some c.account.tokenRequest
  | ⟨.now, _⟩ => False

/-- The client asked for a token and got the session `S`. -/
def Grants (S : Session) (e : RestReply) : Prop :=
  c.LogsIn e ∧ ∃ r response, e = ⟨.http r, .ok response⟩ ∧ c.account.grant r.url response = .ok S

/-- Asking for a token gives a session, or none. -/
inductive Authenticates : List RestReply → Option Session → Prop
  | unsent (h : ∀ url, joined c.identity "auth/tokens" ≠ .ok url) : Authenticates [] none
  | failed {e : RestReply} (h : c.LogsIn e) (hfailed : ∀ S, ¬ c.Grants S e) : Authenticates [e] none
  | granted {e : RestReply} {S : Session} (h : c.Grants S e) : Authenticates [e] (some S)

/-- Whether the known session is used or a new one is got. -/
inductive Opens : Option Session → List RestReply → Option Session → Prop
  | fresh {S : Session} {now : Instant} (h : S.isFresh now = true) :
    Opens (some S) [⟨.now, now⟩] (some S)
  | stale {S : Session} {now : Instant} {es : List RestReply} {got : Option Session}
    (h : S.isFresh now = false) (hauth : c.Authenticates es got) :
    Opens (some S) (⟨.now, now⟩ :: es) got
  | unknown {es : List RestReply} {got : Option Session} (hauth : c.Authenticates es got) :
    Opens none es got

/-- With this session, no request can be sent to some place of a service. -/
def Placeless (S : Session) : Prop :=
  ∃ service path, ∀ url, joined (c.base S service) path ≠ .ok url

/-- The requests of one call: it gets a session, sends one request with its token, and gives
the session up if that is refused. -/
inductive Converses : Option Session → List RestReply → Option Session → Prop
  | failed {known : Option Session} {es : List RestReply} (h : c.Opens known es none) :
    Converses known es known
  | unsent {known : Option Session} {es : List RestReply} {S : Session}
    (h : c.Opens known es (some S)) (hplace : c.Placeless S) : Converses known es (some S)
  | kept {known : Option Session} {es : List RestReply} {S : Session} {e : RestReply}
    (h : c.Opens known es (some S)) (he : e.Bears S.token) (ha : ¬ e.Refused) :
    Converses known (es ++ [e]) (some S)
  | dropped {known : Option Session} {es : List RestReply} {S : Session} {e : RestReply}
    (h : c.Opens known es (some S)) (he : e.Bears S.token) (ha : e.Refused) :
    Converses known (es ++ [e]) none

end RestClient

variable {α β : Type}

/-- However a program is answered that starts with the session `s`, `Q` holds of what it
asked, of its result and of the session that is left. -/
structure Rest.Does (p : Rest α) (s : Option Session)
    (Q : List RestReply → Except Failure α → Option Session → Prop) : Prop where
  tells : (ExceptT.run p s).Tells fun es x => Q es x.1 x.2

namespace Rest

variable {p : Rest α} {s : Option Session}
  {Q Q' : List RestReply → Except Failure α → Option Session → Prop}

theorem Does.mono (h : p.Does s Q) (hQ : ∀ es x s', Q es x s' → Q' es x s') : p.Does s Q' :=
  ⟨h.tells.mono fun es x hx => hQ es x.1 x.2 hx⟩

theorem Does.and (h : p.Does s Q) (h' : p.Does s Q') :
    p.Does s fun es x s' => Q es x s' ∧ Q' es x s' :=
  ⟨⟨fun es x hes => ⟨h.tells.told es x hes, h'.tells.told es x hes⟩⟩⟩

theorem does_pure (a : α) (h : Q [] (.ok a) s) : (pure a : Rest α).Does s Q :=
  ⟨Program.tells_done h⟩

theorem does_throw (e : Failure) (h : Q [] (.error e) s) : (throw e : Rest α).Does s Q :=
  ⟨Program.tells_done h⟩

theorem does_get {R : List RestReply → Except Failure (Option Session) → Option Session → Prop}
    (h : R [] (.ok s) s) : (MonadState.get : Rest (Option Session)).Does s R :=
  ⟨Program.tells_done h⟩

theorem does_set (s' : Option Session)
    {R : List RestReply → Except Failure Unit → Option Session → Prop}
    (h : R [] (.ok ()) s') : (set s' : Rest Unit).Does s R :=
  ⟨Program.tells_done h⟩

theorem does_request {r : RestRequest}
    {R : List RestReply → Except Failure r.Answer → Option Session → Prop}
    (h : ∀ x, R [⟨r, x⟩] (.ok x) s) : (RestClient.request r).Does s R :=
  ⟨Program.tells_ask fun x => Program.tells_done (h x)⟩

theorem does_lift {x : Except Failure α} (h : Q [] x s) : (RestClient.lift x).Does s Q := by
  cases x with
  | ok a => exact does_pure a h
  | error e => exact does_throw e h

theorem Does.bind {f : α → Rest β}
    {R : List RestReply → Except Failure β → Option Session → Prop}
    (h : p.Does s fun es x s' => match x with
      | .ok a => (f a).Does s' fun es' => R (es ++ es')
      | .error e => R es (.error e) s') : (p >>= f).Does s R := by
  refine ⟨Program.Tells.bind (h.tells.mono fun es x hx => ?_)⟩
  obtain ⟨x | x, s'⟩ := x
  · refine Program.tells_done ?_
    rw [List.append_nil]
    exact hx
  · exact hx.tells

theorem Does.tryCatch {handle : Failure → Rest α}
    (h : p.Does s fun es x s' => match x with
      | .ok a => Q es (.ok a) s'
      | .error e => (handle e).Does s' fun es' => Q (es ++ es')) :
    (MonadExcept.tryCatch p handle).Does s Q := by
  refine ⟨Program.Tells.bind (h.tells.mono fun es x hx => ?_)⟩
  obtain ⟨x | x, s'⟩ := x
  · exact hx.tells
  · refine Program.tells_done ?_
    rw [List.append_nil]
    exact hx

end Rest

namespace RestClient

variable {c : RestClient} {s : Option Session}

theorem send_does (r : Http.Request)
    {R : List RestReply → Except Failure Http.Response → Option Session → Prop}
    (hok : ∀ response, R [⟨.http r, .ok response⟩] (.ok response) s)
    (herror : ∀ reason, R [⟨.http r, .error reason⟩] (.error (.http r.url.text reason)) s) :
    (send r).Does s R := by
  refine Rest.Does.bind (Rest.does_request fun x => ?_)
  cases x with
  | ok response => exact Rest.does_pure response (hok response)
  | error reason => exact Rest.does_throw _ (herror reason)

theorem authenticate_does (c : RestClient) (s : Option Session) :
    c.authenticate.Does s fun es x s' => c.Authenticates es x.toOption ∧ s' = s := by
  refine Rest.Does.bind (Rest.does_lift ?_)
  cases hurl : joined c.identity "auth/tokens" with
  | error f =>
    refine ⟨.unsent fun url h => ?_, rfl⟩
    rw [hurl] at h
    cases h
  | ok url =>
    have hlogin (a : Except String Http.Response) :
        c.LogsIn ⟨.http ⟨"POST", url, none, some c.account.tokenRequest⟩, a⟩ :=
      ⟨rfl, hurl, rfl, rfl⟩
    refine Rest.Does.bind (send_does _ (fun response => Rest.does_lift ?_) fun reason => ?_)
    · cases hgrant : c.account.grant url response with
      | error f =>
        refine ⟨.failed (hlogin _) ?_, rfl⟩
        rintro S ⟨-, r, response', he, hS⟩
        cases he
        rw [hgrant] at hS
        cases hS
      | ok S => exact ⟨.granted ⟨hlogin _, _, response, rfl, hgrant⟩, rfl⟩
    · refine ⟨.failed (hlogin _) ?_, rfl⟩
      rintro S ⟨-, r, response', he, -⟩
      cases he

theorem renew_does (c : RestClient) (s : Option Session) :
    (session.renew c).Does s fun es x s' =>
      c.Authenticates es x.toOption ∧ s' = x.toOption.or s := by
  refine Rest.Does.bind ((authenticate_does c s).mono ?_)
  rintro es (e | S) s' ⟨hauth, rfl⟩
  · exact ⟨hauth, rfl⟩
  · refine Rest.Does.bind (Rest.does_set _ (Rest.does_pure S ?_))
    rw [List.append_nil, List.append_nil]
    exact ⟨hauth, rfl⟩

theorem session_does (c : RestClient) (s : Option Session) :
    c.session.Does s fun es x s' => c.Opens s es x.toOption ∧ s' = x.toOption.or s := by
  refine Rest.Does.bind (Rest.does_get ?_)
  cases s with
  | none => exact (renew_does c none).mono fun es x s' h => ⟨.unknown h.1, h.2⟩
  | some S =>
    refine Rest.Does.bind (Rest.does_request fun now => ?_)
    dsimp only
    cases hnow : S.isFresh now with
    | true => exact Rest.does_pure S ⟨.fresh hnow, rfl⟩
    | false => exact (renew_does c (some S)).mono fun es x s' h => ⟨.stale hnow h.1, h.2⟩

theorem exchange_does (c : RestClient) (s : Option Session) (method : String)
    (service : RestService) (path : String) (query : List (String × String))
    (body : Option Json.Value) :
    (c.exchange method service path query body).Does s fun es _ s' => c.Converses s es s' := by
  refine Rest.Does.bind ((session_does c s).mono ?_)
  rintro es (e | S) s' ⟨hopens, rfl⟩
  · exact .failed hopens
  · refine Rest.Does.bind (Rest.does_lift ?_)
    cases hurl : joined (c.base S service) path with
    | error f =>
      rw [List.append_nil]
      refine .unsent hopens ⟨service, path, fun url h => ?_⟩
      rw [hurl] at h
      cases h
    | ok url =>
      have hbears (a : Except String Http.Response) : RestReply.Bears S.token
          ⟨.http ⟨method, url.withPairs query, some S.token, body⟩, a⟩ := rfl
      refine Rest.Does.bind (send_does _ (fun response => ?_) fun reason => ?_)
      · dsimp only
        by_cases hstatus : response.status = 401
        · have hrefused : RestReply.Refused
              ⟨.http ⟨method, url.withPairs query, some S.token, body⟩, .ok response⟩ :=
            ⟨Option.some_ne_none _, hstatus⟩
          have hsuccess : response.isSuccess = false := by simp [Http.Response.isSuccess, hstatus]
          rw [hsuccess, if_pos hstatus]
          refine Rest.Does.bind (Rest.does_set none (Rest.does_throw _ ?_))
          exact .dropped hopens (hbears _) hrefused
        · have hrefused : ¬ RestReply.Refused
              ⟨.http ⟨method, url.withPairs query, some S.token, body⟩, .ok response⟩ :=
            fun h => hstatus h.2
          rw [if_neg hstatus]
          cases response.isSuccess with
          | true => exact Rest.does_pure _ (.kept hopens (hbears _) hrefused)
          | false => exact Rest.does_throw _ (.kept hopens (hbears _) hrefused)
      · exact .kept hopens (hbears _) id

/-! ### Calls -/

/-- A program that makes one conversation, whatever it makes of the answer. -/
structure Calls {α : Type} (c : RestClient) (p : Rest α) : Prop where
  does : ∀ s, p.Does s fun es _ s' => c.Converses s es s'

/-- A program that asks nothing and leaves the session alone. -/
structure Silent {α : Type} (p : Rest α) : Prop where
  does : ∀ s, p.Does s fun es _ s' => es = [] ∧ s' = s

variable {α β : Type}

theorem silent_pure (a : α) : Silent (pure a : Rest α) := ⟨fun _ => Rest.does_pure a ⟨rfl, rfl⟩⟩

theorem silent_throw (e : Failure) : Silent (throw e : Rest α) :=
  ⟨fun _ => Rest.does_throw e ⟨rfl, rfl⟩⟩

theorem silent_decoded (dec : Json.Decoder α) (r : Url × Http.Response) :
    Silent (decoded dec r) := by
  unfold decoded
  split
  · exact silent_pure _
  · exact silent_throw _

theorem silent_first (kind : Kind) (xs : List α) : Silent (first kind xs) := by
  cases xs with
  | nil => exact silent_throw _
  | cons x xs => exact silent_pure x

theorem Calls.bind {p : Rest α} {f : α → Rest β} (h : c.Calls p) (hf : ∀ a, Silent (f a)) :
    c.Calls (p >>= f) := by
  refine ⟨fun s => Rest.Does.bind ((h.does s).mono ?_)⟩
  rintro es (e | a) s' hes
  · exact hes
  · refine ((hf a).does s').mono ?_
    rintro es' x s'' ⟨rfl, rfl⟩
    rwa [List.append_nil]

theorem Calls.orNotFound {p : Rest α} (h : c.Calls p) (kind : Kind) :
    c.Calls (orNotFound kind p) := by
  refine ⟨fun s => Rest.Does.tryCatch ((h.does s).mono ?_)⟩
  rintro es (e | a) s' hes
  · dsimp only
    split
    · exact Rest.does_throw _ (by rwa [List.append_nil])
    · exact Rest.does_throw _ (by rwa [List.append_nil])
  · exact hes

theorem calls_exchange (c : RestClient) (method : String) (service : RestService) (path : String)
    (query : List (String × String)) (body : Option Json.Value) :
    c.Calls (c.exchange method service path query body) :=
  ⟨fun s => exchange_does c s method service path query body⟩

theorem calls_get (c : RestClient) (service : RestService) (path : String)
    (query : List (String × String)) (dec : Json.Decoder α) :
    c.Calls (c.get service path query dec) :=
  (calls_exchange c "GET" service path query none).bind fun r => silent_decoded dec r

theorem calls_call (c : RestClient) (call : Call) : c.Calls (c.call call) := by
  cases call with
  | assignPort portId serverId => exact (calls_exchange ..).bind fun r => silent_decoded _ r
  | createPort request extra => exact (calls_exchange ..).bind fun r => silent_decoded _ r
  | deletePort portId => exact ((calls_exchange ..).bind fun _ => silent_pure _).orNotFound .port
  | detachPort portId serverId => exact (calls_exchange ..).bind fun _ => silent_pure _
  | setPortTags portId tags => exact (calls_exchange ..).bind fun _ => silent_pure _
  | networkByName name => exact (calls_get ..).bind fun xs => silent_first .network xs
  | portById portId => exact (calls_get ..).orNotFound .port
  | portsByDevice deviceId => exact calls_get ..
  | portByTags tags => exact (calls_get ..).bind fun xs => silent_first .port xs
  | portsByTags tags => exact calls_get ..
  | projectByName name => exact (calls_get ..).bind fun xs => silent_first .project xs
  | serverByName name => exact (calls_get ..).bind fun xs => silent_first .server xs
  | securityGroupByName name projectId =>
    exact (calls_get ..).bind fun xs => silent_first .securityGroup xs
  | subnetById subnetId => exact (calls_get ..).orNotFound .subnet
  | subnetByName name networkId => exact (calls_get ..).bind fun xs => silent_first .subnet xs

end RestClient

end Cloud
end ContainerPorts
