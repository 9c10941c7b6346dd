import ContainerPorts.Proofs.Daemon.Deadlines
import ContainerPorts.Proofs.Daemon.Handling
import ContainerPorts.Proofs.Daemon.Serving
import ContainerPorts.Proofs.Documents
import ContainerPorts.Proofs.RecordStore

/-!
# What a posted DEL does to the stored records

A DEL reads the record of its interface at most. It is answered without content once
tearing down has come to an end, well or not, unless the deadline stops it before.
-/
namespace ContainerPorts

open Cloud

/-! ### Requests that change no file -/

/-- Whether a request leaves the files as they are. -/
def Effect.Glances : Effect → Prop
  | .file (.read _) => True
  | .file _ => False
  | _ => True

theorem Site.files_answer {s : Site} {e : Effect} (h : e.Glances) :
    (s.answer e).2.files = s.files := by
  cases e with
  | cloud c =>
    simp only [answer, onCloud]
    split <;> rfl
  | file c =>
    cases c with
    | read name => rfl
    | _ => exact h.elim
  | pause d => rfl
  | observe => rfl
  | clock => rfl

/-- Glancing changes no file. -/
theorem Site.files_run {α : Type} {p : Program effects α} (h : p.Asks Effect.Glances) (s : Site) :
    (s.run p).2.files = s.files :=
  h.runWith (J := fun s' : Site => s'.files = s.files)
    (fun _ _ he hs => (files_answer he).trans hs) rfl

theorem RecordStore.get_asks (dir containerId ifname : String) :
    (RecordStore.get dir containerId ifname).Asks fun c : FileCall => ∃ name, c = .read name := by
  cases hname : fileName? containerId ifname with
  | error e =>
    simp only [get, hname]
    exact Program.asks_done (Except.error e)
  | ok name =>
    rw [get_eq hname]
    exact (Program.asks_ask _ _).mpr ⟨⟨name, rfl⟩, fun x => Program.asks_done _⟩

namespace HostSettings

variable (h : HostSettings) (i : Invocation)

theorem recoverNetns_glances : (h.recoverNetns i).Asks Effect.Glances := by
  unfold recoverNetns
  split
  · exact Program.asks_done i
  · split
    · exact Program.asks_done i
    · have hget (dir : String) :
          (Effect.onFiles (RecordStore.get dir i.containerId i.ifname)).Asks Effect.Glances := by
        refine (RecordStore.get_asks dir i.containerId i.ifname).expand ?_
        rintro c ⟨name, rfl⟩
        exact Program.asks_perform trivial
      refine (hget _).bind fun r => ?_
      cases r <;> exact Program.asks_done _

theorem teardown_glances : (h.teardown i).Asks Effect.Glances := by
  refine (h.recoverNetns_glances i).bind fun i => ?_
  refine (h.teardownKnown_obeys i).asks fun q e he => ?_
  obtain ⟨c, rfl, -⟩ := Monitor.exists_call_of_allows he
  trivial

end HostSettings

/-! ### The record of an interface -/

theorem Site.run_onFiles {α : Type} (p : Program fileCalls α) (s : Site) :
    (s.run (Effect.onFiles p)).1 = (p.runWith (fun c d => d.answer c) s.files).1 := by
  induction p generalizing s with
  | done a => rfl
  | ask c next ih => exact ih (s.files.answer c).1 (s.answer (.file c)).2

theorem Site.files_run_onFiles {α : Type} (p : Program fileCalls α) (s : Site) :
    (s.run (Effect.onFiles p)).2.files = (p.runWith (fun c d => d.answer c) s.files).2 := by
  induction p generalizing s with
  | done a => rfl
  | ask c next ih => exact ih (s.files.answer c).1 (s.answer (.file c)).2

/-- What is read as the record of an interface. -/
def Site.record (s : Site) (dir containerId ifname : String) : Except StoreError InterfaceRecord :=
  ((RecordStore.get dir containerId ifname).runWith (fun c d => d.answer c) s.files).1

theorem Site.record_of_content {s : Site} {r : InterfaceRecord} (dir : String)
    (haccept : (RecordStore.Operation.put r).isAccepted = true)
    (hcontent : s.files.content (RecordStore.fileName r.containerId r.ifname) =
      .ok (Utf8.encode r.toJson.lines)) : s.record dir r.containerId r.ifname = .ok r := by
  have hget : (RecordStore.Operation.get r.containerId r.ifname).run dir s.files = _ :=
    RecordStore.run_get haccept s.files
  rw [hcontent, RecordStore.reading, InterfaceRecord.decoder_lines] at hget
  exact congrArg Prod.fst hget

/-- A DEL acts on the namespace of the record, if it has no other. -/
theorem HostSettings.recovered_of_record {h : HostSettings} {i : Invocation} {s : Site}
    {dir : String} {r : InterfaceRecord} (hdir : h.records = some dir)
    (hr : s.record dir i.containerId i.ifname = .ok r) (hn : i.netns = "" ∨ i.netns = r.netns) :
    h.recovered i s = { i with netns := r.netns } := by
  simp only [recovered, recoverNetns, hdir]
  split_ifs with hne
  · rw [← hn.resolve_left hne]
    rfl
  · have hread : ((RecordStore.get dir i.containerId i.ifname).runWith (fun c d => d.answer c)
        s.files).1 = .ok r := hr
    rw [Site.run_bind, Site.run_onFiles, hread]
    rfl

/-! ### The invocation that is posted -/

/-- The text that an invocation is sent as is read as that invocation. -/
theorem Invocation.decoder_text (i : Invocation) :
    Invocation.decoder.ofBytes (Utf8.encode i.toJson.text) = .ok i :=
  (i.decoder_reads.readsBack (by decide)).1

theorem Verb.named_eq_ok_iff {s : String} {v : Verb} : Verb.named s = .ok v ↔ s = v.name := by
  refine ⟨fun h => ?_, fun h => by simp [named, h]⟩
  unfold named ofName? at h
  split_ifs at h <;> cases h <;> assumption

/-- The checks in their order. -/
theorem Invocation.validate_eq (i : Invocation) : i.validate =
    if i.command = "" then .error (.missingField "command")
    else match Verb.named i.command with
    | .error e => .error e
    | .ok v =>
      if i.containerId = "" then .error (.missingField "container_id")
      else if i.ifname = "" then .error (.missingField "ifname")
      else if i.stdin = [] then .error (.missingField "stdindata")
      else if v.needsNetns && i.netns = "" then .error (.missingField "netns")
      else .ok v := by
  unfold validate
  cases Verb.named i.command <;> rfl

theorem Invocation.validate_eq_ok_iff {i : Invocation} {v : Verb} :
    i.validate = .ok v ↔ i.command = v.name ∧ i.containerId ≠ "" ∧ i.ifname ≠ "" ∧
      i.stdin ≠ [] ∧ (v.needsNetns = true → i.netns ≠ "") := by
  have hname : v.name ≠ "" := by cases v <;> decide
  rw [validate_eq]
  constructor
  · intro h
    split at h
    · cases h
    split at h
    · cases h
    rename_i w hw
    split_ifs at h with hid hif hstdin hnetns
    cases h
    refine ⟨Verb.named_eq_ok_iff.mp hw, hid, hif, hstdin, fun hneeds hempty => ?_⟩
    exact hnetns (by simp [hneeds, hempty])
  · rintro ⟨hcommand, hid, hif, hstdin, hnetns⟩
    have hgiven : ¬ (v.needsNetns && decide (i.netns = "")) = true := by simpa using hnetns
    rw [hcommand, if_neg hname, Verb.named_eq_ok_iff.mpr rfl]
    dsimp only
    rw [if_neg hid, if_neg hif, if_neg hstdin, if_neg hgiven]

theorem Verb.name_injective {v w : Verb} (h : v.name = w.name) : v = w := by
  have hname := Verb.ofName?_name v
  rw [h, Verb.ofName?_name] at hname
  exact (Option.some.inj hname).symm

/-- A DEL that is not turned away is a DEL. -/
theorem Invocation.eq_del_of_validate {i : Invocation} {v : Verb} (h : i.command = Verb.del.name)
    (hv : i.validate = .ok v) : v = .del :=
  Verb.name_injective ((validate_eq_ok_iff.mp hv).1.symm.trans h)

namespace Api

/-- What is answered to an invocation, and counted. -/
def outcome (i : Invocation) (m : Metrics) :
    (v : Verb) → Except CommandFailure v.Reply → Http.Response × Metrics
  | v, .ok reply => (replyResponse v reply, m.countRequest.countOutcome v true)
  | v, .error e => (.ofJson 500 (failureReply v i e).toJson, m.countRequest.countOutcome v false)

variable {dir path : String} {body : Bytes} {m : Metrics}

theorem respond_of_readCommand {v : Verb} {i : Invocation}
    (hpath : Resource.ofPath? path = some .command) (h : readCommand body = .ok (v, i)) :
    respond dir ⟨"POST", path, body⟩ m =
      Program.ask (S := services) (.command v i) fun a => .done (outcome i m v a) := by
  simp only [respond, hpath]
  change (command body >>= fun r => pure r) m = _
  rw [bind_pure]
  simp only [command, h]
  refine congrArg (Program.ask (S := services) _) (funext fun a => ?_)
  cases a <;> rfl

theorem respond_of_readCommand_error {reason : String}
    (hpath : Resource.ofPath? path = some .command) (h : readCommand body = .error reason) :
    respond dir ⟨"POST", path, body⟩ m =
      .done (.ofText 400 reason, m.countRequest.countInvalid) := by
  simp only [respond, hpath]
  change (command body >>= fun r => pure r) m = _
  rw [bind_pure]
  simp only [command, h]
  rfl

/-- Removing is no way to have an invocation handled. -/
theorem respond_quiet_of_delete (dir path : String) (body : Bytes) :
    Quiet (respond dir ⟨"DELETE", path, body⟩) := by
  by_cases hpath : Resource.ofPath? path = some .command
  · simp only [respond, hpath]
    exact quiet_pure _
  · exact respond_quiet dir hpath

end Api

namespace Daemon

/-- The request that posts an invocation. -/
def posting (path : String) (i : Invocation) : ApiRequest :=
  ⟨"POST", path, Utf8.encode i.toJson.text⟩

/-- What is answered to an invocation, and counted, once its handler has come to a result or was
stopped. -/
def settled (d : Daemon) (m : Metrics) (v : Verb) (i : Invocation) :
    Option (Except HandlerError v.Reply) → Http.Response × Metrics
  | none => Api.outcome i m v (.error (.deadline d.requestLimit))
  | some (.error e) => Api.outcome i m v (.error (.handler e))
  | some (.ok reply) => Api.outcome i m v (.ok reply)

variable {h : HostSettings} {d : Daemon} {path : String} {i : Invocation}

/-- An invocation that is not turned away is handled under the deadline. -/
theorem respond_handled {body : Bytes} {v : Verb} (hpath : Resource.ofPath? path = some .command)
    (hread : Api.readCommand body = .ok (v, i)) (m : Metrics) :
    d.respond ⟨"POST", path, body⟩ m =
      Effect.within d.requestLimit (d.handler v i) >>= fun result =>
        .done (d.settled m v i result) := by
  rw [respond, Api.respond_of_readCommand hpath hread]
  change (d.command v i >>= fun a => _) = _
  rw [command, bind_assoc]
  refine bind_congr fun result => ?_
  rcases result with _ | (e | reply) <;> rfl

theorem respond_del (hd : d.handler = h.handle) (hpath : Resource.ofPath? path = some .command)
    (hv : i.validate = .ok .del) (m : Metrics) :
    d.respond (posting path i) m =
      Effect.within d.requestLimit (h.del i) >>= fun result =>
        .done (d.settled m .del i result) := by
  have hread : Api.readCommand (Utf8.encode i.toJson.text) = .ok (.del, i) := by
    simp only [Api.readCommand, Invocation.decoder_text, hv]
  have hhandle : d.handler .del i = h.del i := by
    rw [hd]
    rfl
  rw [posting, respond_handled hpath hread, hhandle]

/-- At a site a DEL leaves everything as tearing down leaves it and is answered without content, or
it is stopped and answered with an error. -/
theorem run_respond_del (hd : d.handler = h.handle)
    (hpath : Resource.ofPath? path = some .command) (hv : i.validate = .ok .del) (m : Metrics)
    (s : Site) :
    let y := s.run (d.respond (posting path i) m)
    (y.1.1.status = 204 ∧ y.2 = (s.run (h.teardown i)).2) ∨ ∃ reply, y.1.1 = .ofJson 500 reply := by
  intro y
  have hy : y = (d.settled m .del i (s.run (Effect.within d.requestLimit (h.del i))).1,
      (s.run (Effect.within d.requestLimit (h.del i))).2) :=
    (congrArg s.run (respond_del hd hpath hv m)).trans (Site.run_bind ..)
  obtain ⟨hends, hstops⟩ := Site.run_within d.requestLimit (h.del i) s
  by_cases htime : (s.run (h.del i)).2.clock ≤ s.clock + d.requestLimit
  · rw [hy, hends htime, h.run_del]
    exact .inl ⟨rfl, rfl⟩
  · rw [hy, hstops (Nat.lt_of_not_le htime)]
    exact .inr ⟨_, rfl⟩

/-- An invocation that is turned away has no effect. -/
theorem respond_rejected {e : Rejection} (hpath : Resource.ofPath? path = some .command)
    (hv : i.validate = .error e) (m : Metrics) :
    d.respond (posting path i) m =
      .done (.ofText 400 e.message, m.countRequest.countInvalid) := by
  have hread : Api.readCommand (Utf8.encode i.toJson.text) = .error e.message := by
    simp only [Api.readCommand, Invocation.decoder_text, hv]
  rw [respond, posting, Api.respond_of_readCommand_error hpath hread]
  rfl

theorem respond_posting_glances (hd : d.handler = h.handle)
    (hpath : Resource.ofPath? path = some .command) (hdel : i.command = Verb.del.name)
    (m : Metrics) : (d.respond (posting path i) m).Asks Effect.Glances := by
  cases hv : i.validate with
  | error e =>
    rw [respond_rejected hpath hv]
    exact Program.asks_done _
  | ok v =>
    obtain rfl := Invocation.eq_del_of_validate hdel hv
    rw [respond_del hd hpath hv]
    have hdel : (h.del i).Asks Effect.Glances :=
      (h.teardown_glances i).bind fun _ => Program.asks_done _
    exact (Effect.within_asks trivial (fun _ => trivial) hdel d.requestLimit).bind fun _ =>
      Program.asks_done _

/-- Whatever is removed, no request is made to change the cloud. -/
theorem respond_delete_asks (d : Daemon) (path : String) (body : Bytes) (m : Metrics) :
    (d.respond ⟨"DELETE", path, body⟩ m).Asks fun e : Effect => e.changes = false :=
  ((Api.respond_quiet_of_delete d.records path body).asks m).expand fun _ hr => d.service_asks hr

end Daemon

end ContainerPorts
