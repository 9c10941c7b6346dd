import ContainerPorts.Proofs.Daemon.RecordRequests
import ContainerPorts.Proofs.Plugin.Forgetting
import ContainerPorts.Proofs.RecordFiles

/-!
# Removing a record by the path of its names

The names of a record are put in a document, and are removed by a path in which they are parts. In
a path some characters have a meaning of their own. So the daemon is asked to remove the record
that was put if its names are plain; and if they are not, it is asked to remove nothing, or a record
with shorter names, and the record that was put stays.
-/
namespace ContainerPorts

open Utf8

/-! ### Requests that reach the daemon -/

namespace Daemon

variable {d : Daemon} {s : Site × Metrics}

/-- What the daemon answers to a request of the plugin, and what there is then. -/
def answer (d : Daemon) (r : Http.Request) (s : Site × Metrics) :
    Http.Response × Site × Metrics :=
  let x := s.1.run (d.respond r.toApi s.2)
  (x.1.1, x.2, x.1.2)

/-- Every request of the plugin is answered by the daemon. -/
def exchange (d : Daemon) (r : Http.Request) (s : Site × Metrics) :
    Except String Http.Response × Site × Metrics :=
  (.ok (d.answer r s).1, (d.answer r s).2)

theorem answer_of_useStore {r : Http.Request} {p : Program fileCalls (Except StoreError Unit)}
    (h : Api.respond d.records r.toApi s.2 = Api.useStore p s.2) :
    let x := p.runWith (fun c d => d.answer c) s.1.files
    (d.answer r s).1 = Api.doneResponse x.1 ∧ (d.answer r s).2.1.files = x.2 := by
  obtain ⟨hresponse, hfiles⟩ := run_respond_of_useStore (s := s.1) h
  simp only [answer, hresponse, hfiles, and_self]

theorem answer_of_done {r : Http.Request} {response : Http.Response}
    (h : Api.respond d.records r.toApi s.2 = .done (response, s.2)) :
    d.answer r s = (response, s) := by
  rw [answer, run_respond_of_done h]

/-- What is posted well is an invocation or a record. -/
theorem resource_of_posted {u : Url} {body : Option Json.Value}
    (h : (d.answer ⟨"POST", u, none, body⟩ s).1.status = 204) :
    Resource.ofPath? u.target = some .command ∨ Resource.ofPath? u.target = some .records := by
  by_contra hneither
  obtain ⟨hcommand, hrecords⟩ := not_or.mp hneither
  obtain ⟨refusal, hrefusal, hdone⟩ := Api.respond_post_of_not hcommand hrecords s.2
  have hanswer : d.answer ⟨"POST", u, none, body⟩ s = (refusal, s) := answer_of_done hdone
  rw [hanswer] at h
  exact hrefusal h

end Daemon

namespace DaemonClient

variable {c : DaemonClient} {d : Daemon} {s : Site × Metrics} {u : Url}
  {containerId ifname : String} {p : String × String}

/-- A request to remove a record is taken for one about this pair of names. -/
def Reaches (c : DaemonClient) (containerId ifname : String) (p : String × String) : Prop :=
  ∃ u first second, c.url (recordPath containerId ifname) = .ok u ∧
    Resource.ofPath? u.target = some (.record first second) ∧
      Api.recordKey first second = .ok p

theorem run_send {method path : String} {body : Option Json.Value} (hu : c.url path = .ok u) :
    (c.send method path body).runWith d.exchange s =
      (.ok (d.answer ⟨method, u, none, body⟩ s).1, (d.answer ⟨method, u, none, body⟩ s).2) := by
  simp only [send, hu]
  rfl

theorem run_putRecord {r : InterfaceRecord} {response : Http.Response} {s' : Site × Metrics}
    (hu : c.url "state" = .ok u)
    (hanswer : d.answer ⟨"POST", u, none, some r.toJson⟩ s = (response, s')) :
    (c.putRecord r).runWith d.exchange s = (expectNoContent response, s') := by
  rw [putRecord, Program.runWith_bind, run_send hu, hanswer]
  rfl

theorem run_deleteRecord {response : Http.Response} {s' : Site × Metrics}
    (hu : c.url (recordPath containerId ifname) = .ok u)
    (hanswer : d.answer ⟨"DELETE", u, none, none⟩ s = (response, s')) :
    (c.deleteRecord containerId ifname).runWith d.exchange s =
      (if response.status = 404 then .ok () else expectNoContent response, s') := by
  rw [deleteRecord, Program.runWith_bind, run_send hu, hanswer]
  rfl

theorem url_eq_of_join {path : String} (h : c.base.join path = .ok u) : c.url path = .ok u := by
  rw [url, h]

/-- The request to remove a record is taken for a use of the store, if it reaches a record. -/
theorem run_deleteRecord_of_reaches (h : c.Reaches containerId ifname p) :
    let x := (RecordStore.Operation.delete p.1 p.2).run d.records s.1.files
    let y := (c.deleteRecord containerId ifname).runWith d.exchange s
    (x.1 = .ok () → y.1 = .ok ()) ∧ y.2.1.files = x.2 := by
  obtain ⟨u, first, second, hu, hresource, hkey⟩ := h
  obtain ⟨hresponse, hfiles⟩ := d.answer_of_useStore (r := ⟨"DELETE", u, none, none⟩) (s := s)
    (Api.respond_delete hresource hkey)
  rcases hanswer : d.answer ⟨"DELETE", u, none, none⟩ s with ⟨response, s'⟩
  rw [hanswer] at hresponse hfiles
  dsimp only at hresponse hfiles ⊢
  rw [run_deleteRecord hu hanswer]
  refine ⟨fun hx => ?_, hfiles⟩
  rw [RecordStore.Operation.run, RecordStore.Operation.program] at hx
  rw [hresponse, hx]
  rfl

/-- Otherwise nothing is removed. -/
theorem files_run_deleteRecord_of_not (h : ∀ p, ¬ c.Reaches containerId ifname p) :
    ((c.deleteRecord containerId ifname).runWith d.exchange s).2.1.files = s.1.files := by
  cases hu : c.url (recordPath containerId ifname) with
  | error e =>
    simp only [deleteRecord, send, hu]
    rfl
  | ok u =>
    obtain ⟨response, hresponse⟩ : ∃ response,
        Api.respond d.records ⟨"DELETE", u.target, []⟩ s.2 = .done (response, s.2) :=
      Api.respond_delete_of_not (fun first second p hresource hkey =>
        h p ⟨u, first, second, hu, hresource, hkey⟩) s.2
    have hanswer : d.answer ⟨"DELETE", u, none, none⟩ s = (response, s) :=
      Daemon.answer_of_done hresponse
    rw [run_deleteRecord hu hanswer]

/-! ### The path of the daemon -/

/-- A client has the root of the daemon for its base. -/
def IsRooted (c : DaemonClient) : Prop :=
  c.base.kind = .web ∧ ∃ ss, c.base.path = .segments ss ∧ ss.dropLast = []

theorem exists_segments {text : String} (hmake : make text = .ok c) (hweb : c.base.kind = .web) :
    ∃ ss, c.base.path = .segments ss ∧ Url.AreClean ss := by
  have hread : Url.read text = .ok c.base := by
    unfold make at hmake
    split at hmake
    · rename_i hread
      cases hmake
      exact hread
    · cases hmake
  obtain ⟨path, hpath⟩ := Url.path_of_read hread hweb
  exact ⟨_, hpath, Url.areClean_pathAfterHost path⟩

theorem beginsPath_state : Url.BeginsPath "state" := ⟨⟨_, _, rfl, rfl, rfl⟩, rfl⟩

theorem exists_url_state {ss : List (List Char)} (hweb : c.base.kind = .web)
    (hpath : c.base.path = .segments ss) :
    ∃ u, c.url "state" = .ok u ∧ u.path = .segments (ss.dropLast ++ ["state".toList]) := by
  obtain ⟨u, hjoin, hu⟩ := Url.join_path hweb hpath beginsPath_state
  exact ⟨u, url_eq_of_join hjoin, hu⟩

theorem status_of_expectNoContent {response : Http.Response}
    (h : expectNoContent response = .ok ()) : response.status = 204 := by
  unfold expectNoContent at h
  split at h
  · assumption
  · cases h

/-- A daemon that takes a record well has stored it, and the client has its root for a base. -/
theorem of_putRecord {text : String} {r : InterfaceRecord} {s' : Site × Metrics}
    (hmake : make text = .ok c) (hweb : c.base.kind = .web)
    (hput : (c.putRecord r).runWith d.exchange s = (.ok (), s')) :
    c.IsRooted ∧ (RecordStore.Operation.put r).run d.records s.1.files = (.ok (), s'.1.files) := by
  obtain ⟨ss, hpath, hclean⟩ := exists_segments hmake hweb
  obtain ⟨u, hu, hupath⟩ := exists_url_state hweb hpath
  have hclean' : Url.AreClean (ss.dropLast ++ ["state".toList]) :=
    List.forall_mem_append.mpr ⟨fun t ht => hclean t (ss.dropLast_subset ht),
      List.forall_mem_singleton.mpr (List.forall_iff_forall_mem.mp (by decide))⟩
  have hresource := Resource.ofPath?_target hupath hclean'
  rw [List.map_append, List.map_singleton] at hresource
  rcases hanswer : d.answer ⟨"POST", u, none, some r.toJson⟩ s with ⟨response, t⟩
  rw [run_putRecord hu hanswer] at hput
  obtain ⟨hexpect, rfl⟩ := Prod.mk.inj hput
  have hstatus := status_of_expectNoContent hexpect
  rcases Daemon.resource_of_posted (by rw [hanswer]; exact hstatus) with hcommand | hrecords
  · -- The path of an invocation has another end.
    rw [hresource] at hcommand
    have hlast := congrArg List.getLast?
      (List.cons.inj (Resource.eq_segments_of_ofSegments? hcommand)).2
    rw [List.getLast?_concat] at hlast
    exact absurd hlast (by decide)
  · refine ⟨⟨hweb, ss, hpath, ?_⟩, ?_⟩
    · rw [hresource] at hrecords
      have habove := (List.cons.inj (Resource.eq_segments_of_ofSegments? hrecords)).2
      exact List.map_eq_nil_iff.mp (List.append_inj_left' habove rfl)
    · obtain ⟨hresponse, hfiles⟩ := d.answer_of_useStore
        (r := ⟨"POST", u, none, some r.toJson⟩) (s := s) (Api.respond_put hrecords r)
      rw [hanswer] at hresponse hfiles
      exact Prod.ext (Api.status_doneResponse (hresponse ▸ hstatus)) hfiles.symm

/-! ### Names in a path -/

/-- Characters that have a meaning of their own in a path, apart from the slash. -/
def marks : List Char := ['\\', '?', '#', '\t', '\n', '\r']

/-- Names that stand for themselves in a path. -/
structure ArePlain (containerId ifname : String) : Prop where
  no_marks : ∀ c ∈ containerId.toList ++ ifname.toList, c ∉ marks
  /-- No percent sign has two digits behind it. -/
  containerId_eq : Percent.decode (encode containerId) = encode containerId
  ifname_eq : Percent.decode (encode ifname) = encode ifname
  no_blank : ∀ c, ifname.toList.getLast? = some c → Url.isBlank c = false

theorem notMem_marks_iff {c : Char} (hc : c ≠ '/') : c ∉ marks ↔
    Url.isSlash .web c = false ∧ Url.isTailMark c = false ∧ Url.isBreak c = false := by
  simp [marks, Url.isSlash, Url.SchemeKind.isSpecial, Url.isTailMark, Url.isBreak, hc, and_assoc]

theorem toList_recordPath (containerId ifname : String) :
    (recordPath containerId ifname).toList =
      "state".toList ++ '/' :: (containerId.toList ++ '/' :: ifname.toList) := by
  simp [recordPath]

theorem mem_recordPath_iff {c : Char} : c ∈ (recordPath containerId ifname).toList ↔
    c ∈ "state/".toList ∨ c ∈ containerId.toList ++ ifname.toList := by
  have hfront : "state/".toList = "state".toList ++ ['/'] := rfl
  rw [toList_recordPath, hfront]
  simp only [List.mem_append, List.mem_cons, List.not_mem_nil, or_false]
  tauto

theorem getLast?_recordPath (containerId : String) (hne : ifname ≠ "") :
    (recordPath containerId ifname).toList.getLast? = ifname.toList.getLast? := by
  have hifname : ifname.toList ≠ [] := fun hnil => hne (String.toList_eq_nil_iff.mp hnil)
  have hsplit : (recordPath containerId ifname).toList =
      ("state/" ++ containerId ++ "/").toList ++ ifname.toList := by simp [recordPath]
  rw [hsplit, List.getLast?_append_of_ne_nil _ hifname]

theorem slashParts_recordPath (containerId ifname : String) :
    Url.slashParts .web (recordPath containerId ifname).toList = "state".toList ::
      (Url.slashParts .web containerId.toList ++ Url.slashParts .web ifname.toList) := by
  rw [toList_recordPath, Url.slashParts_append, Url.slashParts_append]
  rfl

theorem beginsPath_recordPath (containerId ifname : String) :
    Url.BeginsPath (recordPath containerId ifname) := by
  have hstart : ∀ c ∈ "state/".toList, Url.isBlank c = false :=
    List.forall_iff_forall_mem.mp (by decide)
  obtain ⟨kept, hkept⟩ := Url.exists_significant_append hstart (by decide)
    (containerId.toList ++ '/' :: ifname.toList)
  have hlist : "state/".toList ++ (containerId.toList ++ '/' :: ifname.toList) =
      (recordPath containerId ifname).toList := (toList_recordPath containerId ifname).symm
  rw [hlist, String.ofList_toList] at hkept
  exact ⟨⟨_, _, hkept, rfl, rfl⟩, by rw [hkept]; rfl⟩

theorem exists_url_recordPath (h : c.IsRooted) (containerId ifname : String) :
    ∃ u, c.url (recordPath containerId ifname) = .ok u ∧
      u.path = .segments (Url.pathBelow [] (recordPath containerId ifname)) := by
  obtain ⟨hweb, ss, hpath, hroot⟩ := h
  obtain ⟨u, hjoin, hu⟩ := Url.join_path hweb hpath (beginsPath_recordPath containerId ifname)
  exact ⟨u, url_eq_of_join hjoin, hroot ▸ hu⟩

/-- The names that a request is about are read from the segments of its path. -/
theorem reaches_iff (h : c.IsRooted) : c.Reaches containerId ifname p ↔
    ∃ first second, Url.pathBelow [] (recordPath containerId ifname) =
      ["state".toList, first, second] ∧ second ≠ [] ∧
        Percent.decode (bytes first) = encode p.1 ∧ Percent.decode (bytes second) = encode p.2 := by
  obtain ⟨u, hu, hpath⟩ := exists_url_recordPath h containerId ifname
  have hresource := Resource.ofPath?_target hpath (Url.areClean_walk (List.forall_mem_nil _) _ _)
  constructor
  · rintro ⟨u', first, second, hu', hrecord, hkey⟩
    obtain rfl : u' = u := Except.ok.inj (hu'.symm.trans hu)
    rw [hresource, Resource.ofSegments?_eq_record_iff] at hrecord
    obtain ⟨hparts, hne⟩ := hrecord
    obtain ⟨state, names, hsegments, hstate, hnames⟩ :=
      List.map_eq_cons_iff.mp (List.cons.inj hparts).2
    obtain ⟨first, names', rfl, rfl, hnames'⟩ := List.map_eq_cons_iff.mp hnames
    obtain ⟨second, rfl, rfl⟩ := List.map_eq_singleton_iff.mp hnames'
    obtain ⟨hfirst, hsecond⟩ := Api.recordKey_eq_ok_iff.mp hkey
    refine ⟨first, second, ?_, ?_, Percent.decodeText?_ofList_eq_some_iff.mp hfirst,
      Percent.decodeText?_ofList_eq_some_iff.mp hsecond⟩
    · rw [hsegments, ← hstate, String.toList_ofList]
    · rintro rfl
      exact hne rfl
  · rintro ⟨first, second, hsegments, hne, hfirst, hsecond⟩
    refine ⟨u, String.ofList first, String.ofList second, hu, ?_, ?_⟩
    · rw [hresource, hsegments, Resource.ofSegments?_eq_record_iff]
      refine ⟨rfl, fun hempty => hne ?_⟩
      rw [← String.toList_ofList (l := second), hempty]
      rfl
    · exact Api.recordKey_eq_ok_iff.mpr ⟨Percent.decodeText?_ofList_eq_some_iff.mpr hfirst,
        Percent.decodeText?_ofList_eq_some_iff.mpr hsecond⟩

/-- A name that the store takes is no dots in a path. -/
theorem not_dots {name : String} (hkey : RecordStore.isKey name = true)
    (hplain : Percent.decode (encode name) = encode name) :
    Url.dots? (Percent.encode Url.keepInPath name.toList) ≠ some 1 ∧
      Url.dots? (Percent.encode Url.keepInPath name.toList) ≠ some 2 := by
  obtain ⟨-, hdot, hdots, -⟩ := RecordStore.isKey_iff.mp hkey
  have hbytes {n : ℕ} (h : Url.dots? (Percent.encode Url.keepInPath name.toList) = some n) :
      encode name = List.replicate n 0x2E := by
    rw [← Url.decode_of_dots h, Url.decode_written, ← encode_eq_bytes, hplain]
  exact ⟨fun h => hdot (encode_injective (hbytes h)), fun h => hdots (encode_injective (hbytes h))⟩

/-- The path of plain names has the names for its segments. -/
theorem ArePlain.pathBelow_eq (hplain : ArePlain containerId ifname)
    (hc : RecordStore.isKey containerId = true) (hi : RecordStore.isKey ifname = true) :
    Url.pathBelow [] (recordPath containerId ifname) =
      ["state".toList, Percent.encode Url.keepInPath containerId.toList,
        Percent.encode Url.keepInPath ifname.toList] := by
  obtain ⟨-, -, -, hcslash⟩ := RecordStore.isKey_iff.mp hc
  obtain ⟨hne, -, -, hislash⟩ := RecordStore.isKey_iff.mp hi
  have hnames {c : Char} (hmem : c ∈ containerId.toList ++ ifname.toList) :=
    (notMem_marks_iff fun hslash => (List.mem_append.mp (hslash ▸ hmem)).elim hcslash hislash).mp
      (hplain.no_marks c hmem)
  have hpath : ∀ c ∈ (recordPath containerId ifname).toList,
      Url.isTailMark c = false ∧ Url.isBreak c = false := by
    intro c hmem
    have hfront : ∀ c ∈ "state/".toList, Url.isTailMark c = false ∧ Url.isBreak c = false :=
      List.forall_iff_forall_mem.mp (by decide)
    exact (mem_recordPath_iff.mp hmem).elim (hfront c) fun hmem => (hnames hmem).2
  have hsignificant : Url.significant (recordPath containerId ifname) =
      (recordPath containerId ifname).toList := by
    refine Url.significant_eq_self (fun c hmem => (hpath c hmem).2) (fun c hhead => ?_)
      fun c hlast => hplain.no_blank c ?_
    · rw [toList_recordPath] at hhead
      rw [← Option.some.inj hhead]
      rfl
    · rwa [getLast?_recordPath containerId hne] at hlast
  have hfront : (Url.cutTail (recordPath containerId ifname).toList).1 =
      (recordPath containerId ifname).toList :=
    List.takeWhile_eq_self_iff.mpr fun c hmem => by rw [(hpath c hmem).1]; rfl
  rw [Url.pathBelow, hsignificant, hfront, slashParts_recordPath,
    Url.slashParts_eq_singleton fun c hmem => (hnames (List.mem_append_left _ hmem)).1,
    Url.slashParts_eq_singleton fun c hmem => (hnames (List.mem_append_right _ hmem)).1,
    Url.walk_eq_append]
  · rfl
  · refine List.forall_mem_cons.mpr ⟨by decide, List.forall_mem_cons.mpr ⟨?_,
      List.forall_mem_singleton.mpr ?_⟩⟩
    · exact not_dots hc hplain.containerId_eq
    · exact not_dots hi hplain.ifname_eq

/-- Names are plain if nothing is left out of their path and it has no more parts than they are. -/
theorem arePlain_of_isPlainPath (hpath : Url.IsPlainPath (recordPath containerId ifname))
    (hlength : (Url.pathBelow [] (recordPath containerId ifname)).length = 3)
    (hc : '/' ∉ containerId.toList) (hi : '/' ∉ ifname.toList) :
    ArePlain containerId ifname := by
  rw [hpath.segments_eq, List.length_map, slashParts_recordPath, List.length_cons,
    List.length_append] at hlength
  have hparts (cs : List Char) : 0 < (Url.slashParts .web cs).length :=
    List.length_pos_iff.mpr (Text.splitAll_ne_nil _ _)
  have hcparts := hparts containerId.toList
  have hiparts := hparts ifname.toList
  have hcslash : ∀ c ∈ containerId.toList, Url.isSlash .web c = false :=
    fun c hmem => Url.isSlash_of_slashParts_length (by omega) hmem
  have hislash : ∀ c ∈ ifname.toList, Url.isSlash .web c = false :=
    fun c hmem => Url.isSlash_of_slashParts_length (by omega) hmem
  have hdecode := hpath.decode_eq
  rw [slashParts_recordPath, Url.slashParts_eq_singleton hcslash,
    Url.slashParts_eq_singleton hislash] at hdecode
  refine ⟨fun c hmem => ?_, ?_, ?_, fun c hlast => ?_⟩
  · have hmem' := mem_recordPath_iff.mpr (.inr hmem)
    have hne : c ≠ '/' := by
      rintro rfl
      exact (List.mem_append.mp hmem).elim hc hi
    exact (notMem_marks_iff hne).mpr ⟨(List.mem_append.mp hmem).elim (hcslash c) (hislash c),
      hpath.isTailMark_eq_false hmem', hpath.isBreak_eq_false hmem'⟩
  · rw [encode_eq_bytes]
    exact hdecode _ (by simp)
  · rw [encode_eq_bytes]
    exact hdecode _ (by simp)
  · refine hpath.isBlank_getLast ?_
    rwa [getLast?_recordPath containerId]
    rintro rfl
    cases hlast

/-- A request to remove a record whose names are not plain is about shorter names. -/
theorem plain_or_shorter (h : c.IsRooted) (hc : '/' ∉ containerId.toList) (hi : '/' ∉ ifname.toList)
    (hreach : c.Reaches containerId ifname p) :
    ArePlain containerId ifname ∨ (encode p.1).length + (encode p.2).length <
      (encode containerId).length + (encode ifname).length := by
  obtain ⟨first, second, hsegments, -, hfirst, hsecond⟩ := (reaches_iff h).mp hreach
  rcases Url.isPlainPath_or_weight_lt (recordPath containerId ifname) with hpath | hlt
  · exact .inl (arePlain_of_isPlainPath hpath (by rw [hsegments]; rfl) hc hi)
  · right
    have hlength : (bytes (recordPath containerId ifname).toList).length =
        (encode containerId).length + (encode ifname).length + 7 := by
      have hstate : (bytes "state".toList).length = 5 := rfl
      have hslash : (String.utf8EncodeChar '/').length = 1 := rfl
      rw [toList_recordPath, encode_eq_bytes, encode_eq_bytes]
      simp only [bytes_append, bytes_cons, List.length_append, hstate, hslash]
      omega
    have hstate : (Percent.decode (bytes "state".toList)).length = 5 := rfl
    rw [hsegments, hlength] at hlt
    simp only [Url.weight_cons, Url.weight_nil, hfirst, hsecond, hstate] at hlt
    omega

/-- The record that is reached is that of the names exactly if they are plain. -/
theorem reaches_self_iff (h : c.IsRooted) (hc : RecordStore.isKey containerId = true)
    (hi : RecordStore.isKey ifname = true) :
    c.Reaches containerId ifname (containerId, ifname) ↔ ArePlain containerId ifname := by
  obtain ⟨-, -, -, hcslash⟩ := RecordStore.isKey_iff.mp hc
  obtain ⟨hne, -, -, hislash⟩ := RecordStore.isKey_iff.mp hi
  refine ⟨fun hreach => ?_, fun hplain => (reaches_iff h).mpr ⟨_, _, hplain.pathBelow_eq hc hi,
    fun hnil => ?_, ?_, ?_⟩⟩
  · exact (plain_or_shorter h hcslash hislash hreach).resolve_right (Nat.lt_irrefl _)
  · have hname : encode ifname = [] := by
      rw [← hplain.ifname_eq, encode_eq_bytes, ← Url.decode_written, hnil]
      rfl
    exact hne (encode_injective hname)
  · rw [Url.decode_written, ← encode_eq_bytes, hplain.containerId_eq]
  · rw [Url.decode_written, ← encode_eq_bytes, hplain.ifname_eq]

/-- Names of other lengths are not joined alike. -/
theorem joined_ne {p q : String × String} (h : (encode p.1).length + (encode p.2).length <
    (encode q.1).length + (encode q.2).length) : RecordStore.joined p ≠ RecordStore.joined q := by
  have hlength (p : String × String) : (encode (RecordStore.joined p)).length =
      (encode p.1).length + (encode p.2).length + 1 := by
    have hdash : (bytes "-".toList).length = 1 := rfl
    simp only [RecordStore.joined, encode_eq_bytes, String.toList_append, bytes_append,
      List.length_append, hdash]
    omega
  intro heq
  have hp := hlength p
  rw [heq, hlength q] at hp
  omega

/-- A record that the daemon has taken is removed by its names, and nothing else, if they are plain.
If they are not, the record stays; what is removed is the record that the request reaches. -/
theorem deleteRecord_after_putRecord {text : String} {r : InterfaceRecord} {s' : Site × Metrics}
    (hmake : make text = .ok c) (hweb : c.base.kind = .web) (hsorted : s.1.files.entries.Sorted)
    (hput : (c.putRecord r).runWith d.exchange s = (.ok (), s')) :
    let x := (c.deleteRecord r.containerId r.ifname).runWith d.exchange s'
    (c.Reaches r.containerId r.ifname (r.containerId, r.ifname) ↔
        ArePlain r.containerId r.ifname) ∧
      (ArePlain r.containerId r.ifname → x.1 = .ok () ∧ ∀ name, x.2.1.files.entry? name =
        if name = RecordStore.fileName r.containerId r.ifname then none
        else s'.1.files.entry? name) ∧
      (¬ ArePlain r.containerId r.ifname →
        x.2.1.record d.records r.containerId r.ifname = .ok r ∧
          ∀ p, c.Reaches r.containerId r.ifname p →
            x.2.1.files = ((RecordStore.Operation.delete p.1 p.2).run d.records s'.1.files).2) := by
  obtain ⟨hrooted, hstored⟩ := of_putRecord hmake hweb hput
  obtain ⟨haccept, hcontent⟩ := RecordStore.content_run_put (congrArg Prod.fst hstored)
  rw [hstored] at hcontent
  dsimp only at hcontent
  obtain ⟨hc, hi⟩ : RecordStore.isKey r.containerId = true ∧ RecordStore.isKey r.ifname = true :=
    Bool.and_eq_true_iff.mp haccept
  have hself := reaches_self_iff hrooted hc hi
  refine ⟨hself, fun hplain => ?_, fun hplain => ⟨?_, fun p hreach => ?_⟩⟩
  · obtain ⟨hresult, hfiles⟩ := run_deleteRecord_of_reaches (d := d) (s := s') (hself.mpr hplain)
    have hdelete : (RecordStore.Operation.delete r.containerId r.ifname).run d.records
        s'.1.files = _ := RecordStore.run_delete_of_content haccept hcontent
    rw [hdelete] at hresult hfiles
    refine ⟨hresult rfl, fun name => ?_⟩
    rw [hfiles]
    split_ifs with hname
    · rw [hname, Directory.entry?_drop_self (RecordStore.sorted_of_put hsorted hstored)]
    · exact Directory.entry?_drop_of_ne hname _
  · refine Site.record_of_content _ haccept ?_
    by_cases hreach : ∃ p, c.Reaches r.containerId r.ifname p
    · obtain ⟨p, hreach⟩ := hreach
      rw [(run_deleteRecord_of_reaches hreach).2]
      have hshorter := (plain_or_shorter hrooted (RecordStore.isKey_iff.mp hc).2.2.2
        (RecordStore.isKey_iff.mp hi).2.2.2 hreach).resolve_left hplain
      exact RecordStore.content_run (p := (r.containerId, r.ifname)) (joined_ne hshorter) hcontent
    · rw [files_run_deleteRecord_of_not (not_exists.mp hreach)]
      exact hcontent
  · exact (run_deleteRecord_of_reaches hreach).2

def sampleRecord (ifname : String) : InterfaceRecord :=
  { Plugin.recordOf sampleInvocation default with ifname := ifname }

/-- The record of `eth0?x` stays when it is to be removed, and that of `eth0` is removed. -/
theorem deleteRecord_after_putRecord_mark :
    let x := Deployment.sample
    let c := x.tools.client
    let s := ((c.putRecord (sampleRecord "eth0")).runWith x.daemon.exchange
      (sampleSite .basic, {})).2
    let s' := ((c.putRecord (sampleRecord "eth0?x")).runWith x.daemon.exchange s).2
    let y := (c.deleteRecord "c" "eth0?x").runWith x.daemon.exchange s'
    c.Reaches "c" "eth0?x" ("c", "eth0") ∧ y.1 = .ok () ∧
      s'.1.record x.daemon.records "c" "eth0" = .ok (sampleRecord "eth0") ∧
      y.2.1.record x.daemon.records "c" "eth0" = .error (.notFound "c" "eth0") ∧
      y.2.1.record x.daemon.records "c" "eth0?x" = .ok (sampleRecord "eth0?x") := by
  intro x c s s' y
  have hmake : make "http://localhost:4242" = .ok c := by decide +kernel
  have hput : (c.putRecord (sampleRecord "eth0")).runWith x.daemon.exchange
      (sampleSite .basic, {}) = (.ok (), s) := Prod.ext (by decide +kernel) rfl
  have hput' : (c.putRecord (sampleRecord "eth0?x")).runWith x.daemon.exchange s = (.ok (), s') :=
    Prod.ext (by decide +kernel) rfl
  have hsorted : s.1.files.entries.Sorted :=
    RecordStore.sorted_of_put (d := none) .nil (of_putRecord hmake rfl hput).2
  have hplain : ¬ ArePlain "c" "eth0?x" := fun h => h.no_marks '?' (by decide) (by decide)
  obtain ⟨-, -, hstays⟩ := deleteRecord_after_putRecord hmake rfl hsorted hput'
  let u : Url := { Deployment.localUrl "" with
    path := .segments ["state".toList, ['c'], "eth0".toList], query := some ['x'] }
  have hu : c.url (recordPath "c" "eth0?x") = .ok u := by decide +kernel
  exact ⟨⟨u, "c", "eth0", hu, by decide +kernel, by decide +kernel⟩, by decide +kernel,
    by decide +kernel, by decide +kernel, (hstays hplain).1⟩

end DaemonClient

end ContainerPorts
