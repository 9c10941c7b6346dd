import ContainerPorts.Daemon.Service
import ContainerPorts.Proofs.Daemon.Judgement
import ContainerPorts.Proofs.Replies

/-!
# The course of a pass

A pass treats the listed ports one after the other: it looks at the host, and asks for
the deletion of the port if the port is orphaned by what it sees. Whatever that is
answered, it goes on with the next port. The summary and the counters tell how the
deletions were answered.
-/
namespace ContainerPorts

namespace Reaper

open Cloud (Failure)

/-- What a pass did about one of the listed ports. -/
structure Treatment where
  port : Cloud.Port
  /-- What was seen of the host when the port was judged. -/
  sight : Sight
  /-- How its deletion was answered, if that was asked for. -/
  deletion : Option (Except Failure Unit)

namespace Treatment

/-- What was asked, with the answers. -/
def replies (t : Treatment) : List (Program.Reply effects) :=
  ⟨.observe, t.sight⟩ :: t.deletion.toList.map fun a => ⟨.cloud (.deletePort t.port.id), a⟩

/-- The deletion was asked for if and only if that was due. -/
def Due (config : ReaperConfig) (t : Treatment) : Prop :=
  t.deletion.isSome ↔ config.skipDelete = false ∧ Orphaned config t.sight t.port

def fate (t : Treatment) : Fate :=
  match t.deletion with
  | some (.ok _) => .deleted
  | some (.error _) => .failed
  | none => .skipped

end Treatment

/-- The listing that a pass begins with. -/
def listing (hostname : String) (a : Except Failure (List Cloud.Port)) : Program.Reply effects :=
  ⟨.cloud (.portsByTags (PortTags.hostTags hostname)), a⟩

/-- How the deletions were answered that were asked for. -/
def deletions (ts : List Treatment) : List (Except Failure Unit) := ts.filterMap Treatment.deletion

/-- The port that is to be deleted. -/
def deletionId? : Program.Reply effects → Option String
  | ⟨.cloud (.deletePort id), _⟩ => some id
  | _ => none

theorem treat_tells (config : ReaperConfig) (p : Cloud.Port) :
    (treat config p).Tells fun es fate =>
      ∃ t : Treatment, t.port = p ∧ es = t.replies ∧ fate = t.fate ∧ t.Due config := by
  refine Program.tells_ask fun (s : Sight) => ?_
  dsimp only [Program.bind]
  cases hjudge : judge config s p with
  | error reason =>
    refine Program.tells_done ⟨⟨p, s, none⟩, rfl, rfl, rfl, iff_of_false nofun fun h => ?_⟩
    exact nomatch hjudge.symm.trans (judge_eq_ok_iff.mpr h.2)
  | ok _ =>
    have horphaned : Orphaned config s p := judge_eq_ok_iff.mp hjudge
    dsimp only
    split
    · rename_i hskip
      refine Program.tells_done ⟨⟨p, s, none⟩, rfl, rfl, rfl, iff_of_false nofun fun h => ?_⟩
      exact nomatch hskip.symm.trans h.1
    · rename_i hskip
      have hdue : config.skipDelete = false ∧ Orphaned config s p :=
        ⟨by simpa using hskip, horphaned⟩
      refine Program.tells_ask fun (a : Except Failure Unit) => ?_
      cases a with
      | error e =>
        exact Program.tells_done ⟨⟨p, s, some (.error e)⟩, rfl, rfl, rfl, iff_of_true rfl hdue⟩
      | ok x => exact Program.tells_done ⟨⟨p, s, some (.ok x)⟩, rfl, rfl, rfl, iff_of_true rfl hdue⟩

theorem treat_all_tells (config : ReaperConfig) (ps : List Cloud.Port) :
    (ps.mapM (treat config)).Tells fun es fates =>
      ∃ ts : List Treatment, ts.map Treatment.port = ps ∧ es = ts.flatMap Treatment.replies ∧
        fates = ts.map Treatment.fate ∧ ∀ t ∈ ts, t.Due config := by
  induction ps with
  | nil => exact Program.tells_done ⟨[], rfl, rfl, rfl, List.forall_mem_nil _⟩
  | cons p ps ih =>
    rw [List.mapM_cons]
    refine Program.Tells.bind ((treat_tells config p).mono ?_)
    rintro _ _ ⟨t, rfl, rfl, rfl, ht⟩
    refine Program.Tells.bind (ih.mono ?_)
    rintro _ _ ⟨ts, rfl, rfl, rfl, hts⟩
    exact Program.tells_done ⟨t :: ts, rfl, by simp, rfl, List.forall_mem_cons.mpr ⟨ht, hts⟩⟩

theorem pass_tells (config : ReaperConfig) (hostname : String) :
    (pass config hostname).Tells fun es outcome =>
      (∃ e, es = [listing hostname (.error e)] ∧ outcome = .error e) ∨
        ∃ ts : List Treatment,
          es = listing hostname (.ok (ts.map Treatment.port)) :: ts.flatMap Treatment.replies ∧
            (∀ t ∈ ts, t.Due config) ∧ outcome = .ok (ts.map Treatment.fate) := by
  refine Program.tells_ask fun (a : Except Failure (List Cloud.Port)) => ?_
  cases a with
  | error e => exact Program.tells_done (.inl ⟨e, rfl, rfl⟩)
  | ok ps =>
    change (ps.mapM (treat config) >>= fun fates => Program.done (Except.ok fates)).Tells _
    refine Program.Tells.bind ((treat_all_tells config ps).mono ?_)
    rintro _ _ ⟨ts, rfl, rfl, rfl, hts⟩
    exact Program.tells_done (.inr ⟨ts, by simp [listing], hts, rfl⟩)

theorem deletionId?_replies (ts : List Treatment) :
    (ts.flatMap Treatment.replies).filterMap deletionId? =
      (ts.filter fun t => t.deletion.isSome).map fun t => t.port.id := by
  induction ts with
  | nil => rfl
  | cons t ts ih =>
    rw [List.flatMap_cons, List.filterMap_append, ih]
    obtain ⟨p, s, _ | a⟩ := t <;> rfl

/-! ### What is counted -/

theorem length_fates (fates : List Fate) :
    fates.length = fates.count .deleted + fates.count .failed + fates.count .skipped := by
  induction fates with
  | nil => rfl
  | cons fate fates ih => cases fate <;> simp [ih] <;> omega

theorem countPass_ok (m : Metrics) (fates : List Fate) :
    countPass m (.ok fates) =
      { m with reaped := m.reaped + fates.count .deleted
               reapFailed := m.reapFailed + fates.count .failed } := by
  change fates.foldl countFate m = _
  induction fates generalizing m with
  | nil => rfl
  | cons fate fates ih =>
    rw [List.foldl_cons, ih]
    cases fate <;>
      simp [countFate, Metrics.countReaped, Metrics.countReapFailed, Nat.add_right_comm,
        Nat.add_assoc]

theorem count_deleted (ts : List Treatment) :
    (ts.map Treatment.fate).count .deleted = (deletions ts).countP Except.isOk := by
  induction ts with
  | nil => rfl
  | cons t ts ih =>
    have hok (x : Unit) : (Except.ok x : Except Failure Unit).isOk = true := rfl
    have herror (e : Failure) : (Except.error e : Except Failure Unit).isOk = false := rfl
    rw [deletions] at ih ⊢
    obtain ⟨p, s, _ | _ | _⟩ := t <;> simp [Treatment.fate, hok, herror, ih]

theorem count_failed (ts : List Treatment) :
    (ts.map Treatment.fate).count .failed = (deletions ts).countP fun a => !a.isOk := by
  induction ts with
  | nil => rfl
  | cons t ts ih =>
    have hok (x : Unit) : (Except.ok x : Except Failure Unit).isOk = true := rfl
    have herror (e : Failure) : (Except.error e : Except Failure Unit).isOk = false := rfl
    rw [deletions] at ih ⊢
    obtain ⟨p, s, _ | _ | _⟩ := t <;> simp [Treatment.fate, hok, herror, ih]

end Reaper

open Reaper

/-- A pass deletes the orphaned ports among those that are listed, each once and in their order,
whatever becomes of the other deletions. -/
theorem Daemon.reap_deletes_orphaned {σ : Type} (answer : (e : Effect) → σ → e.Answer × σ) (s : σ)
    (d : Daemon) (m : Metrics) :
    let es := (d.reap m).replies answer s
    let outcome := ((d.reap m).runWith answer s).1
    (∃ e, es = [listing d.hostname (.error e)] ∧ outcome = (.error e, m)) ∨
      ∃ (ts : List Treatment) (deleted failed skipped : ℕ),
        es = listing d.hostname (.ok (ts.map Treatment.port)) :: ts.flatMap Treatment.replies ∧
          (∀ t ∈ ts, t.deletion.isSome ↔
            d.reaper.skipDelete = false ∧ Orphaned d.reaper t.sight t.port) ∧
          es.filterMap deletionId? =
            (ts.filter fun t => t.deletion.isSome).map (fun t => t.port.id) ∧
          deleted = (deletions ts).countP Except.isOk ∧
          failed = (deletions ts).countP (fun a => !a.isOk) ∧
          ts.length = deleted + failed + skipped ∧
          outcome = (.ok ⟨ts.length, deleted, failed, skipped⟩,
            { m with reaped := m.reaped + deleted, reapFailed := m.reapFailed + failed }) := by
  have hreap : d.reap m = (pass d.reaper d.hostname >>= fun o =>
      Program.done (o.map summary, countPass m o)) := rfl
  rw [hreap, Program.replies_bind, Program.runWith_bind, Program.replies, List.append_nil,
    Program.runWith_done]
  dsimp only
  obtain ⟨e, hpass, ho⟩ | ⟨ts, hpass, hts, ho⟩ :=
    (pass_tells d.reaper d.hostname).runWith answer s
  · rw [ho]
    exact .inl ⟨e, hpass, rfl⟩
  · rw [ho, hpass]
    refine .inr ⟨ts, _, _, (ts.map Treatment.fate).count .skipped, rfl, hts, ?_, rfl, rfl, ?_, ?_⟩
    · exact deletionId?_replies ts
    · rw [← count_deleted, ← count_failed, ← length_fates, List.length_map]
    · rw [countPass_ok, ← count_deleted, ← count_failed]
      simp [Except.map, summary]

end ContainerPorts
