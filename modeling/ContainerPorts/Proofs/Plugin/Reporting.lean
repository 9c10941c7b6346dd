import ContainerPorts.Plugin.CommandLine
import ContainerPorts.Proofs.Documents
import ContainerPorts.Proofs.Json.Fields
import ContainerPorts.Proofs.Json.Lines
import ContainerPorts.Proofs.Plugin.Requests

/-!
# What the runtime is told of DEL and CHECK

How a DEL or a CHECK comes out is decided by the response of the daemon to its invocation. The
runtime is told nothing if that is done, and is given one document on one line if it is not: the
daemon's own report of a failure as it is, or a report that names the verb.
-/
namespace ContainerPorts

open Http (Response)

/-! ### Reports -/

namespace Json.Decoder

theorem le_of_natural {bound d n : ℕ} {m : Node} (h : natural bound d m = .ok n) :
    n ≤ bound := by
  unfold natural at h
  split at h
  · split at h
    · split at h
      · cases h
        assumption
      · cases h
    · cases h
  · cases h

end Json.Decoder

namespace ErrorReply

open Json.Decoder

theorem shows_code : Shows decoder {} 1 "code" (natural (Nat.pow 2 32 - 1)) code := by
  refine ⟨_, rfl, by decide, ⟨_, _, rfl, rfl, rfl, fun _ _ => rfl⟩, ?_⟩
  simp +contextual [Json.Field.required, Json.Field.defaulted, map_eq_ok_iff]

/-- The code of a report that was read is a number of 32 bits. -/
theorem code_lt_of_ofString {s : String} {e : ErrorReply} (h : decoder.ofString s = .ok e) :
    e.code < Nat.pow 2 32 := by
  rcases shows_code.given_or_start (d := 127) (read_root h) with ⟨m, -, hread⟩ | ⟨-, hkept⟩
  · exact Nat.lt_of_le_of_lt (le_of_natural hread) (by decide)
  · rw [hkept]
    decide

end ErrorReply

/-- A text is a document on a line of its own, and the report is read from it. -/
structure IsLineOf (stdout : String) (e : ErrorReply) : Prop where
  eq_line : stdout = e.toJson.text ++ "\n"
  newline_notMem : '\n' ∉ e.toJson.text.toList
  read : ErrorReply.decoder.ofString stdout = .ok e

theorem isLineOf_documentLine {e : ErrorReply} (h : e.code < Nat.pow 2 32) :
    IsLineOf (documentLine e.toJson) e := by
  have hreads := ErrorReply.decoder_reads h
  exact ⟨rfl, Json.Value.newline_notMem_text hreads.isExact, hreads.line (by decide)⟩

namespace Plugin

open Program

/-- The daemon says that it is done, with or without a reply. -/
def IsDone (y : Posted) : Prop :=
  ∃ r, y = .ok r ∧ (r.status = 204 ∨
    r.status = 200 ∧ ∃ reply, AddReply.decoder.ofBytes r.body = .ok reply)

/-- The daemon reports a failure of its own. -/
def Reports (y : Posted) (e : ErrorReply) : Prop :=
  ∃ r, y = .ok r ∧ r.status = 500 ∧ ErrorReply.decoder.ofString r.text = .ok e

/-- A failure is reported as the daemon reported it, or else by the verb that failed. -/
structure Blames (v : Verb) (y : Posted) (e : ErrorReply) : Prop where
  reported : ∀ d, Reports y d → e = d
  unreported : (∀ d, ¬ Reports y d) →
    e.cniVersion = replyVersion ∧ e.code = 999 ∧ e.msg = "error during " ++ v.name

variable {y : Posted} {v : Verb}

theorem readReply_eq_daemon_iff {r : Response} {e : ErrorReply} :
    DaemonClient.readReply r = .error (.daemon e) ↔
      r.status = 500 ∧ ErrorReply.decoder.ofString r.text = .ok e := by
  unfold DaemonClient.readReply
  split
  · rename_i hstatus
    split <;> simp [hstatus]
  · rename_i hstatus
    simp [hstatus]
  · rename_i hstatus
    split <;> simp_all [DaemonClient.statusError]
  · rename_i hother
    exact iff_of_false nofun fun h => hother h.1

theorem isOk_readReply_iff {r : Response} : (∃ o, DaemonClient.readReply r = .ok o) ↔
    r.status = 204 ∨ r.status = 200 ∧ ∃ reply, AddReply.decoder.ofBytes r.body = .ok reply := by
  unfold DaemonClient.readReply
  split
  · rename_i hstatus
    split <;> simp_all
  · rename_i hstatus
    simp [hstatus]
  · rename_i hstatus
    split <;> simp [hstatus]
  · rename_i h200 h204 _
    exact iff_of_false nofun (Or.rec h204 fun h => h200 h.1)

theorem isDone_iff : IsDone y ↔ ∃ o, y >>= DaemonClient.readReply = .ok o := by
  cases y with
  | error e => exact iff_of_false (fun ⟨_, h, _⟩ => nomatch h) (fun ⟨_, h⟩ => nomatch h)
  | ok r =>
    refine Iff.trans ?_ isOk_readReply_iff.symm
    simp [IsDone]

/-- What is told of an invocation. -/
def outcome (v : Verb) (y : Posted) : Outcome :=
  match y >>= DaemonClient.readReply with
  | .error e => .failure ((PluginError.client e).document v.name)
  | .ok _ => .success ""

theorem outcome_of_isDone (h : IsDone y) : outcome v y = .success "" := by
  obtain ⟨o, ho⟩ := isDone_iff.mp h
  rw [outcome, ho]

/-- No document comes from anywhere but a response. -/
theorem outcome_of_not_isDone (h : ¬ IsDone y) (hy : ∀ d, y ≠ .error (.daemon d)) :
    ∃ e, outcome v y = .failure e ∧ e.code < Nat.pow 2 32 ∧ Blames v y e := by
  cases hread : y >>= DaemonClient.readReply with
  | ok o => exact absurd (isDone_iff.mpr ⟨o, hread⟩) h
  | error x =>
    have hreports (d : ErrorReply) : Reports y d ↔ x = .daemon d := by
      cases y with
      | error e =>
        cases hread
        exact iff_of_false (fun ⟨_, h, _⟩ => nomatch h) fun heq => hy d (heq ▸ rfl)
      | ok r =>
        have hr : DaemonClient.readReply r = .error x := hread
        have hdaemon := readReply_eq_daemon_iff (r := r) (e := d)
        rw [hr, Except.error.injEq] at hdaemon
        rw [hdaemon]
        simp [Reports]
    have hinternal : ErrorReply.internalCode < Nat.pow 2 32 := by decide
    refine ⟨(PluginError.client x).document v.name, by rw [outcome, hread], ?_, ⟨?_, ?_⟩⟩
    · cases x with
      | daemon d =>
        obtain ⟨r, -, -, hdecode⟩ := (hreports d).mpr rfl
        exact ErrorReply.code_lt_of_ofString hdecode
      | _ => exact hinternal
    · intro d hd
      rw [(hreports d).mp hd]
      rfl
    · intro hnone
      cases x with
      | daemon d => exact absurd ((hreports d).mpr rfl) (hnone d)
      | _ => exact ⟨rfl, rfl, rfl⟩

/-! ### The whole invocation -/

variable {σ : Type} {answer : (r : PluginRequest) → σ → r.Answer × σ} {t : Tools} {i : Invocation}
  {s : σ}

/-- What is done besides for a verb, once it is known what became of its invocation. -/
def cleanUp (t : Tools) (v : Verb) (i : Invocation) (y : Posted) : Program pluginCalls Unit :=
  match v, y >>= DaemonClient.readReply with
  | .del, .ok _ => onHttp (t.client.deleteRecord i.containerId i.ifname) >>= fun _ => .done ()
  | _, _ => .done ()

theorem serve_eq (hv : v = .del ∨ v = .check) : serve t v i =
    posting t i >>= fun y => cleanUp t v i y >>= fun _ => .done (outcome v y) := by
  rcases hv with rfl | rfl
  · simp only [serve, del, onHttp_invoke, Program.bind_assoc, Program.done_bind]
    refine bind_congr fun y => ?_
    unfold cleanUp outcome
    generalize y >>= DaemonClient.readReply = told
    cases told with
    | error e => simp only [Program.pure_eq_done, Program.done_bind]
    | ok o => simp only [Program.bind_assoc, Program.done_bind, Program.pure_eq_done]
  · simp only [serve, check, onHttp_invoke, Program.bind_assoc, Program.done_bind]
    refine bind_congr fun y => ?_
    unfold cleanUp outcome
    generalize y >>= DaemonClient.readReply = told
    cases told <;> simp only [Program.pure_eq_done, Program.done_bind]

theorem runWith_posting_ne_daemon (d : ErrorReply) :
    ((posting t i).runWith answer s).1 ≠ .error (.daemon d) := by
  cases hu : t.client.url "cni" with
  | error e =>
    rw [posting_of_url_error hu]
    rintro ⟨⟩
    unfold DaemonClient.url at hu
    split at hu <;> cases hu
  | ok u =>
    rw [posting_of_url hu, runWith_bind]
    generalize ((perform (S := pluginCalls) _).runWith answer s).1 = x
    cases x <;> nofun

theorem exists_url_of_isDone (h : IsDone ((posting t i).runWith answer s).1) :
    ∃ u, t.client.url "cni" = .ok u := by
  obtain ⟨r, hr, -⟩ := h
  exact exists_url_of_response hr

/-- The record of an interface is removed by one request if its DEL is done, and not otherwise. -/
structure RemovesOnce (t : Tools) (v : Verb) (i : Invocation) (y : Posted)
    (es : List (Reply pluginCalls)) : Prop where
  done : v = .del → IsDone y → ∃ u x,
    t.client.url (DaemonClient.recordPath i.containerId i.ifname) = .ok u ∧
      es = [⟨.http ⟨"DELETE", u, none, none⟩, x⟩]
  otherwise : ¬ (v = .del ∧ IsDone y) → es = []

theorem removesOnce_cleanUp {σ' : Type} {answer' : (r : PluginRequest) → σ' → r.Answer × σ'}
    {s' : σ'} (hurl : IsDone y → ∃ u, t.client.url "cni" = .ok u) :
    RemovesOnce t v i y ((cleanUp t v i y).replies answer' s') where
  done hv hdone := by
    subst hv
    obtain ⟨u, hu⟩ := hurl hdone
    obtain ⟨w, hw⟩ := DaemonClient.exists_url_of_url DaemonClient.beginsPath_cni
      (DaemonClient.beginsPath_recordPath i.containerId i.ifname) hu
    obtain ⟨o, ho⟩ := isDone_iff.mp hdone
    unfold cleanUp
    rw [ho]
    dsimp only
    rw [replies_bind_done, replies_deleteRecord hw]
    exact ⟨w, _, hw, rfl⟩
  otherwise hnot := by
    unfold cleanUp
    split
    · rename_i o ho
      exact absurd ⟨rfl, isDone_iff.mpr ⟨o, ho⟩⟩ hnot
    · rfl

/-- A command line by which the plugin carries out an invocation with these tools. -/
structure CarriesOut (env : Environment) (content : String → Option Bytes) (words : List String)
    (stdin : Bytes) (t : Tools) (v : Verb) (i : Invocation) : Prop where
  invocation : ∃ given, CommandLine.read [] words = some (.invoke given) ∧
    CommandLine.invocation? env given stdin = some i
  verb : Verb.named i.command = .ok v
  tools : ∃ settings, PluginSettings.load env content = .ok settings ∧
    Plugin.tools settings = .ok t

variable {env : Environment} {content : String → Option Bytes} {words : List String}
  {stdin : Bytes}

theorem CarriesOut.run_eq (h : CarriesOut env content words stdin t v i) (hv : v ≠ .version) :
    run env content words stdin = serve t v i := by
  obtain ⟨⟨given, hread, hgiven⟩, hverb, settings, hload, htools⟩ := h
  rw [run, hread]
  dsimp only
  rw [hgiven]
  dsimp only
  rw [invoke, hverb]
  cases v with
  | version => exact absurd rfl hv
  | _ =>
    dsimp only
    rw [hload]
    dsimp only
    rw [htools]

/-- The runtime is told nothing, and DEL removes the record, if the daemon says that the invocation
is done. If not, the plugin fails with one report on one line. What becomes of the record changes
nothing of this. -/
theorem run_reports_response (h : CarriesOut env content words stdin t v i)
    (hv : v = .del ∨ v = .check) (answer : (r : PluginRequest) → σ → r.Answer × σ) (s : σ) :
    let p := run env content words stdin
    let y := ((posting t i).runWith answer s).1
    let outcome := (p.runWith answer s).1
    (IsDone y ↔ outcome = .success "") ∧
    (¬ IsDone y → outcome.code = 1 ∧ ∃ e, IsLineOf outcome.stdout e ∧ Blames v y e) ∧
    (∃ es, p.replies answer s = (posting t i).replies answer s ++ es ∧
      (∀ e ∈ (posting t i).replies answer s, ∃ u, t.client.url "cni" = .ok u ∧
        e.1 = .http ⟨"POST", u, none, some i.toJson⟩) ∧
      RemovesOnce t v i y es) ∧
    ∀ {σ' : Type} (answer' : (r : PluginRequest) → σ' → r.Answer × σ') (s' : σ'),
      ((posting t i).runWith answer' s').1 = y → (p.runWith answer' s').1 = outcome := by
  have hserve : run env content words stdin = serve t v i :=
    h.run_eq (by rcases hv with rfl | rfl <;> decide)
  have hrun {σ' : Type} (answer' : (r : PluginRequest) → σ' → r.Answer × σ') (s' : σ') :
      ((run env content words stdin).runWith answer' s').1 =
        Plugin.outcome v ((posting t i).runWith answer' s').1 := by
    rw [hserve, serve_eq hv, runWith_bind, runWith_bind]
    rfl
  intro p y outcome
  have houtcome : outcome = Plugin.outcome v y := hrun answer s
  have hfails (hnot : ¬ IsDone y) : ∃ e, outcome = .failure e ∧ e.code < Nat.pow 2 32 ∧
      Blames v y e := houtcome ▸ outcome_of_not_isDone hnot runWith_posting_ne_daemon
  have hreplies : p.replies answer s = (posting t i).replies answer s ++
      (cleanUp t v i y).replies answer ((posting t i).runWith answer s).2 := by
    rw [show p = _ from hserve, serve_eq hv, replies_bind, replies_bind_done]
  refine ⟨⟨fun hdone => houtcome.trans (outcome_of_isDone hdone), fun hsuccess => ?_⟩,
    fun hnot => ?_, ⟨_, hreplies, requests_posting, removesOnce_cleanUp exists_url_of_isDone⟩,
    fun answer' s' hsame => ?_⟩
  · by_contra hnot
    obtain ⟨e, hfailure, -⟩ := hfails hnot
    rw [hsuccess] at hfailure
    exact absurd (congrArg Outcome.code hfailure) Nat.zero_ne_one
  · obtain ⟨e, hfailure, hcode, hblames⟩ := hfails hnot
    rw [hfailure]
    exact ⟨rfl, e, isLineOf_documentLine hcode, hblames⟩
  · rw [houtcome, hrun, hsame]

/-- The daemon reports a failure with a code of its own, and more than a report holds. -/
theorem run_reports_response_quota :
    let env : Environment :=
      [("CNI_COMMAND", "DEL"), ("CNI_CONTAINERID", "c"), ("CNI_IFNAME", "eth0")]
    let body := "\x7b\"cniVersion\":\"1.0.0\", \"code\":11, \"msg\":\"quota\", \"id\":7\x7d"
    let answer : (r : PluginRequest) → Unit → r.Answer × Unit := fun
      | .http _, _ => (.ok (.ofText 500 body), ())
      | .kernel r, _ => (Deployment.idleKernel r, ())
    let outcome := ((run env (fun _ => none) [] []).runWith answer ()).1
    outcome.code = 1 ∧ IsLineOf outcome.stdout ⟨"1.0.0", 11, "quota", ""⟩ := by
  intro env body answer outcome
  let i : Invocation := { command := "DEL", containerId := "c", ifname := "eth0" }
  let t : Tools := ⟨⟨{
    scheme := "http".toList
    authority := some { host := .v4 ⟨127, 0, 0, 1⟩, port := some 4242 }
    path := .segments [[]] }⟩, PluginSettings.udevWait {}, none⟩
  have hcarries : CarriesOut env (fun _ => none) [] [] t .del i :=
    ⟨⟨[], rfl, by decide +kernel⟩, rfl, {}, by decide +kernel, by decide +kernel⟩
  obtain ⟨-, hfails, -, -⟩ := run_reports_response hcarries (.inl rfl) answer ()
  have hreports : Reports ((posting t i).runWith answer ()).1 ⟨"1.0.0", 11, "quota", ""⟩ :=
    ⟨.ofText 500 body, by decide +kernel, rfl, by decide +kernel⟩
  have hnot : ¬ IsDone ((posting t i).runWith answer ()).1 := by
    rintro ⟨r, hr, hstatus⟩
    obtain ⟨r', hr', hfailed, -⟩ := hreports
    cases hr.symm.trans hr'
    rcases hstatus with hstatus | ⟨hstatus, -⟩ <;>
      exact absurd (hstatus.symm.trans hfailed) (by decide)
  obtain ⟨hcode, e, hline, hblames⟩ := hfails hnot
  exact ⟨hcode, hblames.reported _ hreports ▸ hline⟩

end Plugin

end ContainerPorts
