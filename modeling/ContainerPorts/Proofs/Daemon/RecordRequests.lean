import ContainerPorts.Proofs.Daemon.StoredRecords
import ContainerPorts.Proofs.Url.Paths

/-!
# Requests about records

The path of a URL tells what a request is about. A record that is posted is put into the store, and
one whose names stand in the path is removed from it; what becomes of that is the answer. All other
requests to remove something are turned away, and nothing but invocations and records is posted.
-/
namespace ContainerPorts

open Utf8

/-! ### What a path is about -/

namespace Resource

/-- The segments of the path of a resource. -/
def segments : Resource → List String
  | .command => ["", "cni"]
  | .health => ["", "health"]
  | .ping => ["", "ping"]
  | .metrics => ["", "metrics"]
  | .records => ["", "state"]
  | .record containerId ifname => ["", "state", containerId, ifname]

variable {parts : List String} {containerId ifname : String}

theorem eq_segments_of_ofSegments? {x : Resource} (h : ofSegments? parts = some x) :
    parts = x.segments := by
  unfold ofSegments? at h
  split at h
  case h_6 =>
    split at h
    · cases h
    · cases h
      rfl
  case h_7 => cases h
  all_goals
    cases h
    rfl

theorem ofSegments?_eq_record_iff : ofSegments? parts = some (.record containerId ifname) ↔
    parts = ["", "state", containerId, ifname] ∧ ifname ≠ "" := by
  constructor
  · intro h
    obtain rfl := eq_segments_of_ofSegments? h
    refine ⟨rfl, ?_⟩
    rintro rfl
    cases h
  · rintro ⟨rfl, hne⟩
    exact if_neg hne

/-- What a request is about is told by the path of its URL. -/
theorem ofPath?_target {u : Url} {ss : List (List Char)} (hpath : u.path = .segments ss)
    (hclean : Url.AreClean ss) :
    ofPath? u.target = ofSegments? ("" :: ss.map String.ofList) := by
  have hbare : barePath u.target = String.ofList (Url.Path.segments ss).chars := by
    have hkept : ∀ c ∈ (Url.Path.segments ss).chars, (c ≠ '?' && c ≠ '#') = true := by
      intro c hc
      obtain ⟨s, hs, hc⟩ := List.mem_flatMap.mp hc
      rcases List.mem_cons.mp hc with rfl | hc
      · rfl
      · have hclean := hclean s hs c hc
        simp [hclean.2.1, hclean.2.2]
    rw [barePath, Url.target, hpath, String.toList_ofList, List.takeWhile_append_of_pos hkept]
    cases u.query with
    | none => rw [Url.part, List.takeWhile_nil, List.append_nil]
    | some query =>
      rw [Url.part, List.takeWhile_cons_of_neg (by decide), List.append_nil]
  rw [ofPath?, hbare, Text.split, String.toList_ofList, Url.splitAll_pathChars]
  · rfl
  · exact fun s hs hslash => (hclean s hs _ hslash).1 rfl

end Resource

/-! ### Uses of the store by requests -/

namespace Api

open Http (Response)

/-- The answer to a use of the store that has no result. -/
def doneResponse : Except StoreError Unit → Response
  | .ok () => .empty 204
  | .error e => storeErrorResponse e

/-- Use the store, and answer what becomes of that. -/
def useStore (p : Program fileCalls (Except StoreError Unit)) : Api Response :=
  onRecords p >>= fun x => pure (doneResponse x)

theorem status_doneResponse {x : Except StoreError Unit} (h : (doneResponse x).status = 204) :
    x = .ok () := by
  cases x with
  | ok _ => rfl
  | error e => cases e <;> exact absurd h (by simp [doneResponse, storeErrorResponse,
      storeErrorStatus, Response.ofText])

variable {dir path : String} {m : Metrics}

theorem recordKey_eq_ok_iff {containerId ifname : String} {p : String × String} :
    recordKey containerId ifname = .ok p ↔ Percent.decodeText? containerId = some p.1 ∧
      Percent.decodeText? ifname = some p.2 := by
  unfold recordKey
  cases Percent.decodeText? containerId <;> cases Percent.decodeText? ifname <;>
    simp [Prod.ext_iff]

theorem respond_put (hpath : Resource.ofPath? path = some .records) (r : InterfaceRecord) :
    respond dir ⟨"POST", path, encode r.toJson.text⟩ m =
      useStore (RecordStore.put dir r) m := by
  have hread : InterfaceRecord.decoder.ofBytes (encode r.toJson.text) = .ok r :=
    (r.decoder_reads.readsBack (by decide)).1
  simp only [respond, hpath]
  change (putRecord dir (encode r.toJson.text) >>= fun r => pure r) m = _
  rw [bind_pure]
  simp only [putRecord, hread]
  refine congrFun (congrArg (onRecords (RecordStore.put dir r) >>= ·) (funext fun x => ?_)) m
  cases x <;> rfl

theorem respond_delete {containerId ifname : String} {p : String × String}
    (hpath : Resource.ofPath? path = some (.record containerId ifname))
    (hkey : recordKey containerId ifname = .ok p) :
    respond dir ⟨"DELETE", path, []⟩ m =
      useStore (RecordStore.delete dir p.1 p.2) m := by
  simp only [respond, hpath]
  change (deleteRecord dir containerId ifname >>= fun r => pure r) m = _
  rw [bind_pure]
  simp only [deleteRecord, hkey]
  refine congrFun (congrArg (onRecords (RecordStore.delete dir p.1 p.2) >>= ·)
    (funext fun x => ?_)) m
  cases x <;> rfl

/-- A request to remove what is no record, or one whose names cannot be read, is turned away. -/
theorem respond_delete_of_not (h : ∀ containerId ifname p,
      Resource.ofPath? path = some (.record containerId ifname) →
        recordKey containerId ifname ≠ .ok p) (m : Metrics) :
    ∃ response, respond dir ⟨"DELETE", path, []⟩ m = .done (response, m) := by
  simp only [respond]
  cases hresource : Resource.ofPath? path with
  | none => exact ⟨_, rfl⟩
  | some resource =>
    cases resource with
    | record containerId ifname =>
      cases hkey : recordKey containerId ifname with
      | ok p => exact absurd hkey (h containerId ifname p hresource)
      | error response =>
        refine ⟨response, ?_⟩
        change (deleteRecord dir containerId ifname >>= fun r => pure r) m = _
        rw [bind_pure]
        simp only [deleteRecord, hkey]
        rfl
    | command => exact ⟨_, rfl⟩
    | health => exact ⟨_, rfl⟩
    | ping => exact ⟨_, rfl⟩
    | metrics => exact ⟨_, rfl⟩
    | records => exact ⟨_, rfl⟩

/-- Only invocations and records are posted. -/
theorem respond_post_of_not {body : Bytes} (hcommand : Resource.ofPath? path ≠ some .command)
    (hrecords : Resource.ofPath? path ≠ some .records) (m : Metrics) :
    ∃ response : Response, response.status ≠ 204 ∧
      respond dir ⟨"POST", path, body⟩ m = .done (response, m) := by
  simp only [respond]
  cases hresource : Resource.ofPath? path with
  | none => exact ⟨.empty 404, by decide, rfl⟩
  | some resource =>
    cases resource with
    | command => exact absurd hresource hcommand
    | records => exact absurd hresource hrecords
    | health => exact ⟨.empty 405, by decide, rfl⟩
    | ping => exact ⟨.empty 405, by decide, rfl⟩
    | metrics => exact ⟨.empty 405, by decide, rfl⟩
    | record first second => exact ⟨.empty 405, by decide, rfl⟩

end Api

namespace Daemon

variable {d : Daemon} {r : ApiRequest} {s : Site} {m : Metrics}

/-- A request for a use of the store is answered by what becomes of it. -/
theorem run_respond_of_useStore {p : Program fileCalls (Except StoreError Unit)}
    (h : Api.respond d.records r m = Api.useStore p m) :
    let x := p.runWith (fun c d => d.answer c) s.files
    (s.run (d.respond r m)).1 = (Api.doneResponse x.1, m) ∧
      (s.run (d.respond r m)).2.files = x.2 := by
  have hexpand : d.respond r m =
      (Effect.onFiles p >>= fun x => .done (Api.doneResponse x, m)) := by
    rw [respond, h]
    clear h
    induction p with
    | done x => rfl
    | ask c next ih => exact congrArg (Program.ask (S := effects) _) (funext ih)
  rw [hexpand, Site.run_bind, Site.run_onFiles]
  exact ⟨rfl, Site.files_run_onFiles p s⟩

/-- A request that is answered at once leaves everything as it is. -/
theorem run_respond_of_done {response : Http.Response}
    (h : Api.respond d.records r m = .done (response, m)) :
    s.run (d.respond r m) = ((response, m), s) := by
  rw [respond, h]
  rfl

end Daemon

end ContainerPorts
