import ContainerPorts.Health
import ContainerPorts.Proofs.Cloud.Misses

/-!
# Health and the cache

The check of the cloud is asked through the cache, at the same time as all other calls. But the
server that it looks up is never found, and so never kept: every run of the check reaches the
cloud, and the report tells what the cloud answered in this run.
-/
namespace ContainerPorts

open Cloud Cloud.Cached

/-! ### One check -/

/-- A run of a check: all that was asked in it, with the answers, and what is reported of it. -/
structure CheckRun where
  check : Check
  replies : List (Program.Reply cachedCalls)
  result : CheckResult

namespace CheckRun

/-- The check did not pass, for this reason: the cloud answered the lookup of its server by
another error than that there is no such server, or the outcome was known. -/
def FailsWith (x : CheckRun) (text : String) : Prop :=
  match x.check with
  | .cloud => ∃ e, ⟨.serverByName Check.absentServer, .error e⟩ ∈ cloudReplies x.replies ∧
      e ≠ .notFound .server ∧ e.message = text
  | .fixed _ error => error = some text

/-- What reached the cloud in a run, and what is reported of it. -/
structure IsTold (x : CheckRun) : Prop where
  /-- The check of the cloud asks it for the server exactly once, and no other check asks it. -/
  asked : match x.check with
    | .cloud => ∃ a, cloudReplies x.replies = [⟨.serverByName Check.absentServer, a⟩]
    | .fixed .. => cloudReplies x.replies = []
  name_eq : x.result.name = x.check.name
  unhealthy_iff : ∀ text, x.result.isHealthy = false ∧ x.result.error = text ↔ x.FailsWith text
  error_of_healthy : x.result.isHealthy = true → x.result.error = ""

end CheckRun

namespace Check

/-- What is reported when the cloud has answered. -/
def judged : Call.Answer (.serverByName absentServer) → CheckResult
  | .ok _ => ⟨Check.cloud.name, true, ""⟩
  | .error (.notFound .server) => ⟨Check.cloud.name, true, ""⟩
  | .error e => ⟨Check.cloud.name, false, e.message⟩

theorem result_cloud :
    Check.cloud.result = .ask (.serverByName absentServer) fun a => .done (judged a) := by
  refine congrArg (Program.ask (S := calls) (Call.serverByName absentServer)) (funext fun a => ?_)
  match a with
  | .ok _ => rfl
  | .error (.notFound kind) => cases kind <;> rfl
  | .error (.api ..) | .error (.http ..) | .error (.auth _) | .error (.missingEndpoint _)
  | .error (.badUrl _) => rfl

theorem name_judged (a : Call.Answer (.serverByName absentServer)) :
    (judged a).name = Check.cloud.name := by
  unfold judged
  split <;> rfl

theorem error_judged {a : Call.Answer (.serverByName absentServer)}
    (h : (judged a).isHealthy = true) : (judged a).error = "" := by
  unfold judged at h ⊢
  split at h
  · rfl
  · rfl
  · cases h

theorem judged_of_ne {e : Failure} (he : e ≠ .notFound .server) :
    judged (.error e) = ⟨Check.cloud.name, false, e.message⟩ := by
  unfold judged
  split
  · rename_i h
    cases h
  · rename_i h
    exact absurd (Except.error.inj h) he
  · rename_i h
    rw [Except.error.inj h]

theorem unhealthy_judged_iff {a : Call.Answer (.serverByName absentServer)} {text : String} :
    (judged a).isHealthy = false ∧ (judged a).error = text ↔
      ∃ e, a = .error e ∧ e ≠ .notFound .server ∧ e.message = text := by
  constructor
  · rintro ⟨hunhealthy, rfl⟩
    cases a with
    | ok s => cases hunhealthy
    | error e =>
      by_cases he : e = .notFound .server
      · subst he
        cases hunhealthy
      · exact ⟨e, rfl, he, by rw [judged_of_ne he]⟩
  · rintro ⟨e, rfl, he, rfl⟩
    rw [judged_of_ne he]
    exact ⟨rfl, rfl⟩

/-- A run of a check in which no lookup of its server was answered by the cache. -/
theorem tells_result {k : Caching (.serverByName absentServer)}
    (hk : (Call.serverByName absentServer).caching? = some k) (c : Check) :
    (c.result.expand answer).Tells fun es r =>
      Misses k.key es → CheckRun.IsTold ⟨c, es, r⟩ := by
  cases c with
  | cloud =>
    rw [result_cloud]
    refine Program.Tells.bind ((tells_answer hk).mono fun es a hes => Program.tells_done ?_)
    rw [List.append_nil]
    intro hmiss
    have hasked : cloudReplies es = [⟨.serverByName absentServer, a⟩] := hes hmiss
    refine ⟨⟨a, hasked⟩, name_judged a, fun text => ?_, error_judged⟩
    rw [unhealthy_judged_iff, CheckRun.FailsWith, hasked]
    simp [eq_comm]
  | fixed name error =>
    cases error with
    | none =>
      refine Program.tells_done fun _ => ⟨rfl, rfl, fun text => ?_, fun _ => rfl⟩
      simp [CheckRun.FailsWith]
    | some e =>
      refine Program.tells_done fun _ => ⟨rfl, rfl, fun text => ?_, nofun⟩
      simp [CheckRun.FailsWith]

end Check

/-! ### All checks -/

/-- The runs of all checks in order, one for each. Together they asked for `es`, and there is one
result for each. -/
structure AreRuns (checks : List Check) (es : List (Program.Reply cachedCalls))
    (results : List CheckResult) (runs : List CheckRun) : Prop where
  checks_eq : runs.map CheckRun.check = checks
  replies_eq : runs.flatMap CheckRun.replies = es
  results_eq : runs.map CheckRun.result = results
  told : ∀ x ∈ runs, x.IsTold

namespace AreRuns

variable {c : Check} {checks : List Check} {es es' : List (Program.Reply cachedCalls)}
  {r : CheckResult} {results : List CheckResult} {runs : List CheckRun}

theorem cons (h : AreRuns checks es' results runs) (hfirst : CheckRun.IsTold ⟨c, es, r⟩) :
    AreRuns (c :: checks) (es ++ es') (r :: results) (⟨c, es, r⟩ :: runs) where
  checks_eq := congrArg (c :: ·) h.checks_eq
  replies_eq := congrArg (es ++ ·) h.replies_eq
  results_eq := congrArg (r :: ·) h.results_eq
  told := List.forall_mem_cons.mpr ⟨hfirst, h.told⟩

/-- All is well exactly if no check has failed. -/
theorem isHealthy_iff (h : AreRuns checks es results runs) :
    (HealthReport.ofChecks results).isHealthy = true ↔ ∀ x ∈ runs, ∀ text, ¬ x.FailsWith text := by
  rw [HealthReport.ofChecks, List.all_eq_true, ← h.results_eq, List.forall_mem_map]
  refine forall₂_congr fun x hx => ?_
  have hiff := (h.told x hx).unhealthy_iff
  constructor
  · intro hhealthy text hfails
    rw [((hiff text).mpr hfails).1] at hhealthy
    cases hhealthy
  · intro hpasses
    by_contra hunhealthy
    exact hpasses _ ((hiff _).mp ⟨by simpa using hunhealthy, rfl⟩)

end AreRuns

theorem tells_results {k : Caching (.serverByName Check.absentServer)}
    (hk : (Call.serverByName Check.absentServer).caching? = some k) (checks : List Check) :
    ((checks.mapM Check.result).expand answer).Tells fun es results =>
      Misses k.key es → ∃ runs, AreRuns checks es results runs := by
  induction checks with
  | nil => exact Program.tells_done fun _ => ⟨[], rfl, rfl, rfl, List.forall_mem_nil _⟩
  | cons c checks ih =>
    rw [List.mapM_cons, Program.expand_bind]
    refine Program.Tells.bind ((Check.tells_result hk c).mono fun es r hfirst => ?_)
    rw [Program.expand_bind]
    refine Program.Tells.bind (ih.mono fun es' results hrest => Program.tells_done ?_)
    rw [List.append_nil, misses_append]
    rintro ⟨hmiss, hmiss'⟩
    obtain ⟨runs, hruns⟩ := hrest hmiss'
    exact ⟨_, hruns.cons (hfirst hmiss)⟩

/-- However the requests of the checks are answered, if the cache does not answer the lookup of the
absent server, the report tells of one run for each check. -/
theorem tells_checkHealth {k : Caching (.serverByName Check.absentServer)}
    (hk : (Call.serverByName Check.absentServer).caching? = some k) (checks : List Check) :
    ((checkHealth checks).expand answer).Tells fun es report => Misses k.key es →
      ∃ runs, AreRuns checks es report.checks runs ∧ report = .ofChecks report.checks := by
  rw [checkHealth, Program.expand_bind]
  refine Program.Tells.bind ((tells_results hk checks).mono fun es results h =>
    Program.tells_done ?_)
  rw [List.append_nil]
  intro hmiss
  obtain ⟨runs, hruns⟩ := h hmiss
  exact ⟨runs, hruns, rfl⟩

/-! ### A health check among other callers of the cache -/

section

variable {κ : Type} {ρ : κ → Type}

/-- A health check, and other callers. -/
def withOthers (checks : List Check) (others : (r : κ) → Program calls (ρ r)) :
    (i : Option κ) → Program calls (i.elim HealthReport ρ)
  | none => checkHealth checks
  | some r => others r

/-- A health check and other callers of a cache after some turns. -/
def checkedAmong [DecidableEq κ] (cache : TtlCache Kept) (checks : List Check)
    (others : (r : κ) → Program calls (ρ r)) (ts : List (Turn (Option κ) Slot)) :
    Interleaving cachedCalls (fun i => Option.elim i HealthReport ρ) (TtlCache Kept) Slot :=
  Interleaving.run answerIn
    { left := fun i => (withOthers checks others i).expand answer, state := cache } ts

/-- If the cloud never finds the absent server, a health check ends if it has enough turns, and its
report tells of one run for each check, in order. Whatever others do with the cache at any time, the
check of the cloud asks the cloud for the server exactly once in each run. It is reported as failed,
with the text of the error, exactly if the answer to this lookup was an error other than that there
is no such server. All is well exactly if no check has failed. -/
theorem report_tells_outages [DecidableEq κ] (ttl : Span) (checks : List Check)
    (others : (r : κ) → Program calls (ρ r)) (ts : List (Turn (Option κ) Slot))
    (hnever : ∀ t ∈ ts, ∀ s, t.setting.moment.cloud (.serverByName Check.absentServer) ≠ .ok s) :
    let x := checkedAmong { ttl := ttl } checks others ts
    (∀ slot, ∃ n report,
      (x.run answerIn (List.replicate n ⟨none, slot⟩)).left none = .done report) ∧
    ∀ report : HealthReport, x.left none = .done report →
      ∃ runs, AreRuns checks (Exchange.ofTask none x.trace) report.checks runs ∧
        (report.isHealthy = true ↔ ∀ y ∈ runs, ∀ text, ¬ y.FailsWith text) := by
  intro x
  refine ⟨fun slot => ?_, fun report hreport => ?_⟩
  · obtain ⟨n, es, hrun, -⟩ := Interleaving.exists_run_alone answerIn x ⟨none, slot⟩
    refine ⟨n, ((x.left none).runWith (answerIn slot) x.state).1, ?_⟩
    rw [hrun]
    exact Function.update_self none _ x.left
  · obtain ⟨k, hk⟩ : ∃ k, (Call.serverByName Check.absentServer).caching? = some k := ⟨_, rfl⟩
    have h : Interleaving.Traced answerIn (fun i => (withOthers checks others i).expand answer)
        { ttl := ttl } ts x := Interleaving.traced_run _ _ _
    have hshared : ∀ t ∈ ts, ∀ c : Call, c.SharesKey (.serverByName Check.absentServer) →
        ∀ s, t.setting.moment.cloud c ≠ .ok s := by
      rintro t ht c ⟨hmethod, hjoined⟩
      cases c with
      | serverByName name =>
        obtain rfl : name = Check.absentServer := hjoined
        exact hnever t ht
      | _ => cases hmethod
    have hmiss : Misses k.key (Exchange.ofTask none x.trace) :=
      misses_of_never h hk hshared (List.forall_mem_nil _) none
    obtain ⟨runs, hruns, hofChecks⟩ :=
      (tells_checkHealth hk checks).told _ report (hreport ▸ h.follows none) hmiss
    refine ⟨runs, hruns, ?_⟩
    rw [hofChecks]
    exact hruns.isHealthy_iff

/-- A cloud that has ports and no servers. -/
def slotUp (now : Span) : Slot where
  moment := ⟨now, fun | .portById id => .ok { id := id } | _ => .error (.notFound .server)⟩

/-- A cloud that does not answer, after an eviction. -/
def slotDown (now : Span) : Slot where
  evictions := [now]
  moment := ⟨now, fun _ => .error (.http "u" "refused")⟩

/-- Another caller gets a port and looks the absent server up while the cloud answers. A health
check begins in between, but its lookup reaches the cloud when it is down. -/
def outageTurns : List (Turn (Option Unit) Slot) :=
  List.replicate 4 ⟨some (), slotUp ⟨0⟩⟩ ++ ⟨none, slotUp ⟨1⟩⟩ ::
    (List.replicate 3 ⟨some (), slotUp ⟨1⟩⟩ ++ List.replicate 2 ⟨none, slotDown ⟨2⟩⟩)

theorem report_tells_outages_refused :
    let checks := [Check.fixed "disk" none, .cloud]
    let other := fun _ : Unit => do
      let _ ← ask (.portById "p")
      ask (.serverByName Check.absentServer)
    let x := checkedAmong { ttl := ⟨5⟩ } checks other outageTurns
    let report : HealthReport :=
      ⟨false, [⟨"disk", true, ""⟩, ⟨"openstack", false, "request to u failed: refused"⟩]⟩
    (∀ t ∈ outageTurns, ∀ s,
      t.setting.moment.cloud (.serverByName Check.absentServer) ≠ .ok s) ∧
    x.left none = .done report ∧
    ∃ runs, AreRuns checks (Exchange.ofTask none x.trace) report.checks runs ∧
      ∃ y ∈ runs, ∃ text, y.FailsWith text := by
  intro checks other x report
  have hnever : ∀ t ∈ outageTurns, ∀ s,
      t.setting.moment.cloud (.serverByName Check.absentServer) ≠ .ok s := by
    intro t ht
    simp only [outageTurns, List.mem_append, List.mem_cons, List.mem_replicate] at ht
    rcases ht with ⟨-, rfl⟩ | rfl | ⟨-, rfl⟩ | ⟨-, rfl⟩ <;> nofun
  have hreport : x.left none = .done report := rfl
  obtain ⟨runs, hruns, hhealthy⟩ :=
    (report_tells_outages ⟨5⟩ checks other outageTurns hnever).2 report hreport
  refine ⟨hnever, hreport, runs, hruns, ?_⟩
  by_contra hnone
  have hpasses : ∀ y ∈ runs, ∀ text, ¬ y.FailsWith text :=
    fun y hy text hfails => hnone ⟨y, hy, text, hfails⟩
  exact absurd (hhealthy.mpr hpasses) (by decide)

/-- If the cloud finds the server once, the next check passes although the cloud is down. -/
example :
    let found : (c : Call) → c.Answer := fun
      | .serverByName name => .ok ⟨"s", name⟩
      | _ => .error (.notFound .server)
    let ts := List.replicate 4 ⟨some (), { moment := ⟨⟨0⟩, found⟩ }⟩ ++ [⟨none, slotDown ⟨1⟩⟩]
    (checkedAmong { ttl := ⟨5⟩ } [.cloud] (fun _ : Unit => checkHealth [.cloud]) ts).left none =
      .done ⟨true, [⟨"openstack", true, ""⟩]⟩ := rfl

end

end ContainerPorts
