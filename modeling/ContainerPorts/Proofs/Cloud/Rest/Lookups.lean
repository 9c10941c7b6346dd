import ContainerPorts.Proofs.Cloud.Rest.Sessions

/-!
# What a lookup asks and finds

A lookup sends one request with a token, for a path with a query, and what it finds is read from
the response to that request. Whatever goes wrong before, it never takes for an answer that there
is no such thing. The other way round, whoever has a session can be given any response.
-/
namespace ContainerPorts.Cloud

variable {α β : Type}

/-- With these answers a program that starts with the session `s` ends with `x` and leaves `s'`. -/
def Rest.Gives (p : Rest α) (s : Option Session) (es : List RestReply) (x : Except Failure α)
    (s' : Option Session) : Prop :=
  (ExceptT.run p s).Follows es (.done (x, s'))

namespace Rest

variable {p : Rest α} {s s' s'' : Option Session} {es es' : List RestReply}

theorem gives_pure (a : α) (s : Option Session) : (pure a : Rest α).Gives s [] (.ok a) s := .refl _

theorem gives_throw (e : Failure) (s : Option Session) :
    (throw e : Rest α).Gives s [] (.error e) s := .refl _

theorem gives_get (s : Option Session) :
    (MonadState.get : Rest (Option Session)).Gives s [] (.ok s) s := .refl _

theorem gives_request {r : RestRequest} (x : r.Answer) (s : Option Session) :
    (RestClient.request r).Gives s [⟨r, x⟩] (.ok x) s := .ask (.refl _)

theorem Gives.bind {a : α} {f : α → Rest β} {x : Except Failure β} (h : p.Gives s es (.ok a) s')
    (hf : (f a).Gives s' es' x s'') : (p >>= f).Gives s (es ++ es') x s'' :=
  Program.Follows.bind h hf

end Rest

/-! ### What goes wrong -/

/-- It is not said that there is no such thing. -/
def NotMissing (x : Except Failure α) : Prop := ∀ kind, x ≠ .error (.notFound kind)

theorem notMissing_ok (a : α) : NotMissing (.ok a : Except Failure α) := nofun

theorem NotMissing.error {e : Failure} (h : NotMissing (.error e : Except Failure α)) :
    NotMissing (.error e : Except Failure β) := fun kind heq => h kind (by cases heq; rfl)

theorem NotMissing.bind {x : Except Failure α} {f : α → Except Failure β} (h : NotMissing x)
    (hf : ∀ a, NotMissing (f a)) : NotMissing (x >>= f) := by
  cases x with
  | error e => exact h.error
  | ok a => exact hf a

theorem baseUrl_notMissing (raw : String) : NotMissing (baseUrl raw) := by
  unfold baseUrl
  dsimp only
  split <;> exact nofun

theorem joined_notMissing (base : Url) (path : String) : NotMissing (joined base path) := by
  unfold joined
  split <;> exact nofun

namespace Account

theorem endpoint_notMissing (a : Account) (catalog : List CatalogEntry) (service : String) :
    NotMissing (a.endpoint catalog service) := by
  unfold endpoint
  dsimp only
  split
  · exact baseUrl_notMissing _
  · exact nofun

theorem session_notMissing (a : Account) (token : String) (g : TokenGrant) :
    NotMissing (a.session token g) := by
  refine (a.endpoint_notMissing _ _).bind fun compute => ?_
  refine (a.endpoint_notMissing _ _).bind fun network => ?_
  dsimp only
  split
  · exact (notMissing_ok _).bind fun network => notMissing_ok _
  · exact (joined_notMissing _ _).bind fun network => notMissing_ok _

theorem grant_notMissing (a : Account) (url : Url) (r : Http.Response) :
    NotMissing (a.grant url r) := by
  unfold grant
  split
  · exact nofun
  · split
    · exact nofun
    · split
      · exact nofun
      · exact a.session_notMissing _ _

end Account

/-- A program that never fails because there is no such thing. -/
structure Rest.NeverMissing (p : Rest α) : Prop where
  does : ∀ s, p.Does s fun _ x _ => NotMissing x

namespace Rest

theorem NeverMissing.bind {p : Rest α} {f : α → Rest β} (h : p.NeverMissing)
    (hf : ∀ a, (f a).NeverMissing) : (p >>= f).NeverMissing := by
  refine ⟨fun s => Does.bind ((h.does s).mono ?_)⟩
  rintro es (e | a) s' hx
  · exact hx.error
  · exact (hf a).does s'

theorem neverMissing_lift {x : Except Failure α} (h : NotMissing x) :
    (RestClient.lift x).NeverMissing := ⟨fun _ => does_lift h⟩

theorem neverMissing_send (r : Http.Request) : (RestClient.send r).NeverMissing :=
  ⟨fun _ => RestClient.send_does r notMissing_ok fun _ => nofun⟩

end Rest

/-! ### Requests and their responses -/

namespace RestClient

theorem neverMissing_authenticate (c : RestClient) : c.authenticate.NeverMissing := by
  refine (Rest.neverMissing_lift (joined_notMissing _ _)).bind fun url => ?_
  refine (Rest.neverMissing_send _).bind fun response => ?_
  exact Rest.neverMissing_lift (c.account.grant_notMissing _ _)

theorem neverMissing_renew (c : RestClient) : (session.renew c).NeverMissing := by
  refine c.neverMissing_authenticate.bind fun S => ?_
  exact ⟨fun s => Rest.Does.bind (Rest.does_set _ (Rest.does_pure S (notMissing_ok S)))⟩

theorem neverMissing_session (c : RestClient) : c.session.NeverMissing := by
  refine ⟨fun s => Rest.Does.bind (Rest.does_get ?_)⟩
  cases s with
  | none => exact c.neverMissing_renew.does none
  | some S =>
    refine Rest.Does.bind (Rest.does_request fun now => ?_)
    dsimp only
    split
    · exact Rest.does_pure S (notMissing_ok S)
    · exact c.neverMissing_renew.does (some S)

/-- A request was sent to a service with the token of a session, and this is the response. -/
def Hears (c : RestClient) (method : String) (service : RestService) (path : String)
    (query : List (String × String)) (body : Option Json.Value) (es : List RestReply)
    (response : Http.Response) : Prop :=
  ∃ S base, joined (c.base S service) path = .ok base ∧ response.isSuccess = true ∧
    ⟨.http ⟨method, base.withPairs query, some S.token, body⟩, .ok response⟩ ∈ es

theorem Opens.not_bears {c : RestClient} {known got : Option Session} {es : List RestReply}
    (h : c.Opens known es got) : ∀ e ∈ es, ∀ t, ¬ e.Bears t := by
  have hauth {es : List RestReply} {got : Option Session} (h : c.Authenticates es got) :
      ∀ e ∈ es, ∀ t, ¬ e.Bears t := by
    cases h with
    | unsent => exact List.forall_mem_nil _
    | failed hlogin => exact List.forall_mem_singleton.mpr (not_bears_of_logsIn hlogin)
    | granted hgrants => exact List.forall_mem_singleton.mpr (not_bears_of_logsIn hgrants.1)
  cases h with
  | fresh => exact List.forall_mem_singleton.mpr fun _ => id
  | stale _ h => exact List.forall_mem_cons.mpr ⟨fun _ => id, hauth h⟩
  | unknown h => exact hauth h

/-- All requests with a token have a query. -/
structure Sends (query : List (String × String)) (es : List RestReply) : Prop where
  url : ∀ r a t, ⟨.http r, a⟩ ∈ es → r.token = some t → ∃ base : Url, r.url = base.withPairs query

theorem Opens.sends {c : RestClient} {known got : Option Session} {es : List RestReply}
    (h : c.Opens known es got) (query : List (String × String)) : Sends query es :=
  ⟨fun _ _ t he ht => absurd ht (h.not_bears _ he t)⟩

theorem Sends.concat {query : List (String × String)} {es : List RestReply} (h : Sends query es)
    (method : String) (base : Url) (token : Option String) (body : Option Json.Value)
    (x : Except String Http.Response) :
    Sends query (es ++ [⟨.http ⟨method, base.withPairs query, token, body⟩, x⟩]) := by
  refine ⟨fun r a t he ht => ?_⟩
  rcases List.mem_append.mp he with he | he
  · exact h.url r a t he ht
  · cases List.mem_singleton.mp he
    exact ⟨base, rfl⟩

/-- What a request can come to: the result is in the response to it, and a failure does not say
that there is no such thing. -/
structure Answered (c : RestClient) (method : String) (service : RestService) (path : String)
    (query : List (String × String)) (body : Option Json.Value) (es : List RestReply)
    (x : Except Failure α) (result : Http.Response → α → Prop) : Prop where
  sends : Sends query es
  notMissing : NotMissing x
  hears : ∀ a, x = .ok a → ∃ response, c.Hears method service path query body es response ∧
    result response a

theorem Answered.failed {c : RestClient} {method : String} {service : RestService} {path : String}
    {query : List (String × String)} {body : Option Json.Value} {es : List RestReply} {e : Failure}
    {result : Http.Response → α → Prop} (hsends : Sends query es)
    (hmissing : NotMissing (.error e : Except Failure α)) :
    c.Answered method service path query body es (.error e) result :=
  ⟨hsends, hmissing, nofun⟩

theorem exchange_answered (c : RestClient) (s : Option Session) (method : String)
    (service : RestService) (path : String) (query : List (String × String))
    (body : Option Json.Value) :
    (c.exchange method service path query body).Does s fun es x _ =>
      c.Answered method service path query body es x fun response a => a.2 = response := by
  refine Rest.Does.bind (((session_does c s).and (c.neverMissing_session.does s)).mono ?_)
  rintro es (e | S) s' ⟨⟨hopens, -⟩, hx⟩
  · exact .failed (hopens.sends query) hx.error
  · refine Rest.Does.bind (Rest.does_lift ?_)
    cases hbase : joined (c.base S service) path with
    | error f =>
      have hmissing := joined_notMissing (c.base S service) path
      rw [hbase] at hmissing
      rw [List.append_nil]
      exact .failed (hopens.sends query) hmissing.error
    | ok base =>
      have hsends (answer : Except String Http.Response) :=
        (hopens.sends query).concat method base (some S.token) body answer
      refine Rest.Does.bind (send_does _ (fun response => ?_) fun reason => ?_)
      · dsimp only
        cases hsuccess : response.isSuccess with
        | true =>
          refine Rest.does_pure _ ⟨hsends _, notMissing_ok _, ?_⟩
          rintro _ ⟨⟩
          exact ⟨response, ⟨S, base, hbase, hsuccess, by simp⟩, rfl⟩
        | false =>
          by_cases hstatus : response.status = 401
          · rw [if_pos hstatus]
            refine Rest.Does.bind (Rest.does_set none (Rest.does_throw _ ?_))
            exact .failed (hsends _) nofun
          · rw [if_neg hstatus]
            exact Rest.does_throw _ (.failed (hsends _) nofun)
      · exact .failed (hsends _) nofun

/-- A lookup finds what is in the response to its request. -/
theorem get_answered (c : RestClient) (s : Option Session) (service : RestService) (path : String)
    (query : List (String × String)) (dec : Json.Decoder α) :
    (c.get service path query dec).Does s fun es x _ =>
      c.Answered "GET" service path query none es x fun response a =>
        dec.ofBytes response.body = .ok a := by
  refine Rest.Does.bind ((c.exchange_answered s "GET" service path query none).mono ?_)
  rintro es (e | ⟨url, response⟩) s' h
  · exact .failed h.sends h.notMissing.error
  · obtain ⟨_, hheard, rfl⟩ := h.hears _ rfl
    unfold decoded
    dsimp only
    cases hdec : dec.ofBytes response.body with
    | error f =>
      refine Rest.does_throw _ ?_
      rw [List.append_nil]
      exact .failed h.sends nofun
    | ok a =>
      refine Rest.does_pure a ?_
      rw [List.append_nil]
      refine ⟨h.sends, notMissing_ok a, ?_⟩
      rintro _ ⟨⟩
      exact ⟨_, hheard, hdec⟩

section Given

variable {c : RestClient} {S : Session} {now : Instant} {response : Http.Response} {base : Url}
  {service : RestService} {path : String}

theorem session_gives (hfresh : S.isFresh now = true) :
    c.session.Gives (some S) [⟨.now, now⟩] (.ok S) (some S) := by
  have hnow : (request .now).Gives (some S) [⟨.now, now⟩] (.ok now) (some S) :=
    Rest.gives_request (r := .now) now (some S)
  refine (Rest.gives_get (some S)).bind (hnow.bind ?_)
  rw [if_pos hfresh]
  exact Rest.gives_pure S _

/-- With a session that is fresh, a lookup finds what is in the response to its request. -/
theorem get_gives (query : List (String × String)) (dec : Json.Decoder α)
    (hfresh : S.isFresh now = true) (hbase : joined (c.base S service) path = .ok base)
    (hsuccess : response.isSuccess = true) {a : α} (hdec : dec.ofBytes response.body = .ok a) :
    (c.get service path query dec).Gives (some S)
      [⟨.now, now⟩, ⟨.http ⟨"GET", base.withPairs query, some S.token, none⟩, .ok response⟩]
      (.ok a) (some S) := by
  have hplace : (lift (joined (c.base S service) path)).Gives (some S) [] (.ok base) (some S) := by
    rw [hbase]
    exact Rest.gives_pure base _
  have hsend (r : Http.Request) :
      (send r).Gives (some S) [⟨.http r, .ok response⟩] (.ok response) (some S) :=
    (Rest.gives_request (r := .http r) (.ok response) (some S)).bind (Rest.gives_pure response _)
  have hexchange : (c.exchange "GET" service path query none).Gives (some S)
      [⟨.now, now⟩, ⟨.http ⟨"GET", base.withPairs query, some S.token, none⟩, .ok response⟩]
      (.ok (base.withPairs query, response)) (some S) := by
    refine (session_gives hfresh).bind (hplace.bind ((hsend _).bind ?_))
    dsimp only
    rw [hsuccess]
    exact Rest.gives_pure _ _
  refine hexchange.bind ?_
  unfold decoded
  dsimp only
  rw [hdec]
  exact Rest.gives_pure a _

end Given

end RestClient

/-! ### A session and a response to look things up with -/

/-- Where a path is at a host. -/
def Session.place (host path : String) : Url :=
  ⟨"http".toList, some { host := .name host.toList }, .segments [path.toList], none, none⟩

/-- A session that lasts for an hour. -/
def Session.sample : Session := ⟨"t", ⟨3600, 0⟩, place "nova" "", place "net" ""⟩

theorem Session.sample_isFresh : Session.sample.isFresh default = true := by decide

/-- A response with a document. -/
def documentResponse (v : Json.Value) : Http.Response where
  status := 200
  body := Utf8.encode v.text

theorem isSuccess_documentResponse (v : Json.Value) : (documentResponse v).isSuccess = true := rfl

end ContainerPorts.Cloud
