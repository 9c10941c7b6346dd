import ContainerPorts.Proofs.Plugin.RecordPaths
import ContainerPorts.Proofs.Replies

/-!
# Requests of the plugin

The paths of the daemon can be joined to every base but one that is no path itself. So a plugin
that can post its invocation can send all its other requests as well. What becomes of an
invocation is decided by the response to it.
-/
namespace ContainerPorts

/-! ### Paths -/

namespace DaemonClient

variable {c : DaemonClient} {path other : String} {u : Url}

theorem exists_url_iff (h : Url.BeginsPath path) :
    (∃ u, c.url path = .ok u) ↔ c.base.isBare = false := by
  rw [← Url.exists_join_iff h, url]
  cases c.base.join path <;> simp

/-- A base to which one path could be joined takes every other path. -/
theorem exists_url_of_url (h : Url.BeginsPath path) (hother : Url.BeginsPath other)
    (hu : c.url path = .ok u) : ∃ v, c.url other = .ok v :=
  (exists_url_iff hother).mpr ((exists_url_iff h).mp ⟨u, hu⟩)

theorem beginsPath_cni : Url.BeginsPath "cni" := ⟨⟨_, _, rfl, rfl, rfl⟩, rfl⟩

end DaemonClient

/-! ### Programs -/

namespace Program

variable {S : Signature} {α β σ : Type} {answer : (r : S.Request) → σ → S.Answer r × σ}

@[simp] theorem replies_done (a : α) (s : σ) : (done a : Program S α).replies answer s = [] := rfl

/-- Nothing is asked when only the result is changed. -/
theorem replies_bind_done (p : Program S α) (f : α → β) (s : σ) :
    (p >>= fun a => done (f a)).replies answer s = p.replies answer s := by
  rw [replies_bind, replies_done, List.append_nil]

end Program

namespace Plugin

open Program

variable {σ : Type} {answer : (r : PluginRequest) → σ → r.Answer × σ} {t : Tools} {i : Invocation}
  {s : σ}

theorem onHttp_bind {α β : Type} (p : Program Http.exchanges α) (f : α → Program Http.exchanges β) :
    onHttp (p >>= f) = onHttp p >>= fun a => onHttp (f a) :=
  expand_bind _ p f

theorem onHttp_send {c : DaemonClient} {path : String} {u : Url} (hu : c.url path = .ok u)
    (method : String) (body : Option Json.Value) : onHttp (c.send method path body) =
      (perform (S := pluginCalls) (.http ⟨method, u, none, body⟩) >>= fun y =>
        .done (y.mapError (ClientError.transport u.text))) := by
  rw [DaemonClient.send, hu]
  refine congrArg (Program.ask (S := pluginCalls) _) (funext fun y => ?_)
  cases y <;> rfl

/-- A request to a path that can be joined is sent once. -/
theorem replies_onHttp_send {c : DaemonClient} {path : String} {u : Url} (hu : c.url path = .ok u)
    (method : String) (body : Option Json.Value) (s : σ) :
    (onHttp (c.send method path body)).replies answer s =
      [⟨.http ⟨method, u, none, body⟩, (answer (.http ⟨method, u, none, body⟩) s).1⟩] := by
  rw [onHttp_send hu, replies_bind_done]
  rfl

theorem replies_deleteRecord {c : DaemonClient} {containerId ifname : String} {u : Url}
    (hu : c.url (DaemonClient.recordPath containerId ifname) = .ok u) (s : σ) :
    (onHttp (c.deleteRecord containerId ifname)).replies answer s =
      [⟨.http ⟨"DELETE", u, none, none⟩, (answer (.http ⟨"DELETE", u, none, none⟩) s).1⟩] := by
  rw [DaemonClient.deleteRecord, onHttp_bind, replies_bind, replies_onHttp_send hu]
  refine List.append_right_eq_self.mpr ?_
  split <;> rfl

theorem replies_putRecord {c : DaemonClient} {u : Url} (hu : c.url "state" = .ok u)
    (record : InterfaceRecord) (s : σ) :
    let r : PluginRequest := .http ⟨"POST", u, none, some record.toJson⟩
    (onHttp (c.putRecord record)).replies answer s = [⟨r, (answer r s).1⟩] := by
  rw [DaemonClient.putRecord, onHttp_bind, replies_bind, replies_onHttp_send hu]
  refine List.append_right_eq_self.mpr ?_
  split <;> rfl

/-- What became of an invocation that was posted: a response, or the reason why there is none. -/
abbrev Posted : Type := Except ClientError Http.Response

/-- Post an invocation to the daemon. -/
def posting (t : Tools) (i : Invocation) : Program pluginCalls Posted :=
  onHttp (t.client.send "POST" "cni" (some i.toJson))

theorem posting_of_url_error {e : ClientError} (h : t.client.url "cni" = .error e) :
    posting t i = .done (.error e) := by
  rw [posting, DaemonClient.send, h]
  rfl

theorem posting_of_url {u : Url} (h : t.client.url "cni" = .ok u) : posting t i =
    (perform (S := pluginCalls) (.http ⟨"POST", u, none, some i.toJson⟩) >>= fun x =>
      .done (x.mapError (ClientError.transport u.text))) :=
  onHttp_send h "POST" (some i.toJson)

/-- An invocation is posted, and nothing else is asked for it. -/
theorem requests_posting : ∀ e ∈ (posting t i).replies answer s,
    ∃ u, t.client.url "cni" = .ok u ∧ e.1 = .http ⟨"POST", u, none, some i.toJson⟩ := by
  cases hu : t.client.url "cni" with
  | error e =>
    rw [posting_of_url_error hu]
    exact List.forall_mem_nil _
  | ok u =>
    rw [posting, replies_onHttp_send hu]
    exact List.forall_mem_singleton.mpr ⟨u, rfl, rfl⟩

/-- There is a response only to what was sent. -/
theorem exists_url_of_response {r : Http.Response}
    (h : ((posting t i).runWith answer s).1 = .ok r) : ∃ u, t.client.url "cni" = .ok u := by
  cases hu : t.client.url "cni" with
  | ok u => exact ⟨u, rfl⟩
  | error e =>
    rw [posting_of_url_error hu] at h
    cases h

theorem onHttp_invoke (t : Tools) (i : Invocation) : onHttp (t.client.invoke i) =
    posting t i >>= fun y => .done (y >>= DaemonClient.readReply) := by
  rw [DaemonClient.invoke, onHttp_bind]
  refine congrArg (posting t i >>= ·) (funext fun y => ?_)
  cases y <;> rfl

end Plugin

end ContainerPorts
