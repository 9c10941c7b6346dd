import ContainerPorts.Proofs.Replies
import Mathlib.Data.List.Induction
import Mathlib.Logic.Function.Basic
import Mathlib.Tactic.Common

/-!
# Programs side by side

Several tasks share one state. At every turn one of them has its next request
answered, so that between two requests of a task any number of requests of the
others may come. What was asked and answered is kept in a trace: the state is
what the trace made of the first one, and the part of the trace that belongs to a
task is what its program alone would ask, if it were answered in this way.
-/
namespace ContainerPorts

/-- One task has its next request answered, in a setting of its own. -/
structure Turn (ι μ : Type) where
  task : ι
  setting : μ

/-- What was asked and answered at a turn. -/
structure Exchange (S : Signature) (ι μ : Type) where
  turn : Turn ι μ
  request : S.Request
  answer : S.Answer request

/-- Tasks under way: what is left of each, their state, and what was asked so far. -/
structure Interleaving (S : Signature) {ι : Type} (α : ι → Type) (σ μ : Type) where
  left : (i : ι) → Program S (α i)
  state : σ
  trace : List (Exchange S ι μ) := []

namespace Exchange

variable {S : Signature} {ι μ σ : Type}

def reply (e : Exchange S ι μ) : Program.Reply S := ⟨e.request, e.answer⟩

/-- The part of a trace that belongs to a task. -/
def ofTask [DecidableEq ι] (i : ι) (es : List (Exchange S ι μ)) : List (Program.Reply S) :=
  (es.filter fun e => e.turn.task = i).map reply

section

variable [DecidableEq ι] {i : ι} {e : Exchange S ι μ} {es es' : List (Exchange S ι μ)}

@[simp] theorem ofTask_nil : ofTask i ([] : List (Exchange S ι μ)) = [] := rfl

@[simp] theorem ofTask_append : ofTask i (es ++ es') = ofTask i es ++ ofTask i es' := by
  simp [ofTask]

theorem ofTask_cons_self (h : e.turn.task = i) : ofTask i (e :: es) = e.reply :: ofTask i es := by
  simp [ofTask, h]

theorem ofTask_cons_of_ne (h : e.turn.task ≠ i) : ofTask i (e :: es) = ofTask i es := by
  simp [ofTask, h]

/-- What a task is answered is the last of its part of the trace. -/
theorem ofTask_concat_self (es : List (Exchange S ι μ)) (t : Turn ι μ) (r : S.Request)
    (a : S.Answer r) : ofTask t.task (es ++ [⟨t, r, a⟩]) = ofTask t.task es ++ [⟨r, a⟩] := by
  rw [ofTask_append, ofTask_cons_self (e := (⟨t, r, a⟩ : Exchange S ι μ)) rfl]
  rfl

theorem ofTask_concat_of_ne (es : List (Exchange S ι μ)) (h : e.turn.task ≠ i) :
    ofTask i (es ++ [e]) = ofTask i es := by
  rw [ofTask_append, ofTask_cons_of_ne h, ofTask_nil, List.append_nil]

theorem mem_ofTask {x : Program.Reply S} :
    x ∈ ofTask i es ↔ ∃ e ∈ es, e.turn.task = i ∧ e.reply = x := by
  simp [ofTask, and_assoc]

theorem exists_turn_of_mem_ofTask {r : S.Request} {a : S.Answer r} (h : ⟨r, a⟩ ∈ ofTask i es) :
    ∃ t : Turn ι μ, t.task = i ∧ ⟨t, r, a⟩ ∈ es := by
  obtain ⟨⟨t, r', a'⟩, hmem, htask, hreply⟩ := mem_ofTask.mp h
  obtain ⟨rfl, ha⟩ := Sigma.mk.inj hreply
  obtain rfl := eq_of_heq ha
  exact ⟨t, htask, hmem⟩

/-- A part of what a task was answered is a part of the trace. -/
theorem exists_split_of_ofTask {l l' : List (Program.Reply S)} {x : Program.Reply S}
    (h : ofTask i es = l ++ x :: l') :
    ∃ early e late, es = early ++ e :: late ∧ e.turn.task = i ∧ e.reply = x ∧
      ofTask i early = l ∧ ofTask i late = l' := by
  obtain ⟨m, m', hfilter, hm, hm'⟩ := List.map_eq_append_iff.mp h
  obtain ⟨e, m', rfl, rfl, rfl⟩ := List.map_eq_cons_iff.mp hm'
  obtain ⟨early, rest, rfl, rfl, hrest⟩ := List.filter_eq_append_iff.mp hfilter
  obtain ⟨others, late, rfl, hothers, htask, rfl⟩ := List.filter_eq_cons_iff.mp hrest
  refine ⟨early ++ others, e, late, by simp, by simpa using htask, rfl, ?_, rfl⟩
  have hnone : ofTask i others = [] := by simpa [ofTask] using hothers
  rw [ofTask_append, hnone, List.append_nil, ← hm]
  rfl

end

/-- The state after the requests of a trace. -/
def stateAfter (answer : μ → (r : S.Request) → σ → S.Answer r × σ) (s : σ)
    (es : List (Exchange S ι μ)) : σ :=
  es.foldl (fun s e => (answer e.turn.setting e.request s).2) s

end Exchange

/-- What holds at first and is kept by each item holds of a whole list. -/
theorem concat_induction {α : Type} {P : List α → Prop} {xs : List α} (hnil : P [])
    (hconcat : ∀ l x l', xs = l ++ x :: l' → P l → P (l ++ [x])) : P xs := by
  have hprefix (l l' : List α) (hxs : xs = l ++ l') : P l := by
    induction l using List.reverseRecOn generalizing l' with
    | nil => exact hnil
    | append_singleton l x ih =>
      have hxs : xs = l ++ x :: l' := by simpa using hxs
      exact hconcat l x l' hxs (ih _ hxs)
  exact hprefix xs [] (List.append_nil xs).symm

namespace Interleaving

variable {S : Signature} {ι μ σ : Type} [DecidableEq ι] {α : ι → Type}
  (answer : μ → (r : S.Request) → σ → S.Answer r × σ)

/-- A turn of a task that has ended changes nothing. -/
def turn (x : Interleaving S α σ μ) (t : Turn ι μ) : Interleaving S α σ μ :=
  match x.left t.task with
  | .done _ => x
  | .ask r next =>
    { left := Function.update x.left t.task (next (answer t.setting r x.state).1)
      state := (answer t.setting r x.state).2
      trace := x.trace ++ [⟨t, r, (answer t.setting r x.state).1⟩] }

/-- One turn after the other. -/
def run (x : Interleaving S α σ μ) (ts : List (Turn ι μ)) : Interleaving S α σ μ :=
  ts.foldl (turn answer) x

variable {answer} {x : Interleaving S α σ μ} {t : Turn ι μ} {ts : List (Turn ι μ)}

theorem turn_of_done {a : α t.task} (h : x.left t.task = .done a) : x.turn answer t = x := by
  simp [turn, h]

theorem turn_of_ask {r : S.Request} {next : S.Answer r → Program S (α t.task)}
    (h : x.left t.task = .ask r next) :
    x.turn answer t =
      { left := Function.update x.left t.task (next (answer t.setting r x.state).1)
        state := (answer t.setting r x.state).2
        trace := x.trace ++ [⟨t, r, (answer t.setting r x.state).1⟩] } := by
  simp [turn, h]

@[simp] theorem run_nil : x.run answer [] = x := rfl

@[simp] theorem run_concat : x.run answer (ts ++ [t]) = (x.run answer ts).turn answer t := by
  simp [run]

@[simp] theorem run_cons : x.run answer (t :: ts) = (x.turn answer t).run answer ts := rfl

theorem run_append (x : Interleaving S α σ μ) (ts ts' : List (Turn ι μ)) :
    x.run answer (ts ++ ts') = (x.run answer ts).run answer ts' := List.foldl_append

theorem trace_prefix_turn (x : Interleaving S α σ μ) (t : Turn ι μ) :
    x.trace <+: (x.turn answer t).trace := by
  cases hp : x.left t.task with
  | done a => simp [turn_of_done hp]
  | ask r next =>
    rw [turn_of_ask hp]
    exact List.prefix_append ..

/-- A task that has all the turns runs to its end. -/
theorem exists_run_alone (answer : μ → (r : S.Request) → σ → S.Answer r × σ)
    (x : Interleaving S α σ μ) (t : Turn ι μ) :
    ∃ n es, x.run answer (List.replicate n t) =
        { left := Function.update x.left t.task
            (.done ((x.left t.task).runWith (answer t.setting) x.state).1)
          state := ((x.left t.task).runWith (answer t.setting) x.state).2
          trace := x.trace ++ es } ∧
      (∀ e ∈ es, e.turn = t) ∧
      es.map Exchange.request = (x.left t.task).requests (answer t.setting) x.state := by
  generalize hp : x.left t.task = p
  induction p generalizing x with
  | done a =>
    refine ⟨0, [], ?_, nofun, rfl⟩
    rw [Program.runWith_done, ← hp, Function.update_eq_self, List.append_nil]
    rfl
  | ask r next ih =>
    have hrest : (x.turn answer t).left t.task = next (answer t.setting r x.state).1 := by
      rw [turn_of_ask hp]
      exact Function.update_self ..
    obtain ⟨n, es, hrun, hturns, hrequests⟩ := ih _ (x.turn answer t) hrest
    rw [turn_of_ask hp] at hrun hrequests
    refine ⟨n + 1, ⟨t, r, (answer t.setting r x.state).1⟩ :: es, ?_, ?_, ?_⟩
    · rw [List.replicate_succ, run_cons, turn_of_ask hp, hrun]
      simp only [Function.update_idem, List.append_assoc]
      rfl
    · simpa using hturns
    · rw [List.map_cons, hrequests]
      rfl

/-- What a trace tells of the tasks and the state that it started with. -/
structure Traced (answer : μ → (r : S.Request) → σ → S.Answer r × σ)
    (left : (i : ι) → Program S (α i)) (s : σ) (ts : List (Turn ι μ))
    (x : Interleaving S α σ μ) : Prop where
  /-- Every task got the answers that are its own. -/
  follows : ∀ i, (left i).Follows (Exchange.ofTask i x.trace) (x.left i)
  /-- Every request was answered in the state that the earlier ones had left. -/
  answers : ∀ before e after, x.trace = before ++ e :: after →
    e.answer = (answer e.turn.setting e.request (Exchange.stateAfter answer s before)).1
  state_eq : x.state = Exchange.stateAfter answer s x.trace
  /-- The requests were asked in the order of the turns. -/
  sublist : (x.trace.map Exchange.turn).Sublist ts

/-- What a task was answered it was answered at a turn, in the state that the earlier requests had
left. -/
theorem Traced.exists_turn {left : (i : ι) → Program S (α i)} {s : σ}
    (h : Traced answer left s ts x) {i : ι} {r : S.Request} {a : S.Answer r}
    (hmem : ⟨r, a⟩ ∈ Exchange.ofTask i x.trace) :
    ∃ before t after, x.trace = before ++ ⟨t, r, a⟩ :: after ∧ t ∈ ts ∧ t.task = i ∧
      a = (answer t.setting r (Exchange.stateAfter answer s before)).1 := by
  obtain ⟨t, htask, he⟩ := Exchange.exists_turn_of_mem_ofTask hmem
  obtain ⟨before, after, htrace⟩ := List.append_of_mem he
  exact ⟨before, t, after, htrace, h.sublist.subset (List.mem_map_of_mem he), htask,
    h.answers before _ after htrace⟩

/-- The trace is sorted as the turns are. -/
theorem Traced.rel_of_mem {β : Type} {R : β → β → Prop} {f : Turn ι μ → β}
    {left : (i : ι) → Program S (α i)} {s : σ} (h : Traced answer left s ts x)
    (hsorted : (ts.map f).Pairwise R) {before after : List (Exchange S ι μ)}
    {e e' : Exchange S ι μ} (htrace : x.trace = before ++ e :: after) (he' : e' ∈ before) :
    R (f e'.turn) (f e.turn) := by
  have htraced : ((x.trace.map Exchange.turn).map f).Pairwise R :=
    hsorted.sublist (h.sublist.map f)
  rw [htrace, List.map_append, List.map_append, List.pairwise_append] at htraced
  exact htraced.2.2 _ (List.mem_map_of_mem (List.mem_map_of_mem he')) _ List.mem_cons_self

/-- Where a task stands when a request of it is answered. -/
theorem Traced.at_request {left : (i : ι) → Program S (α i)} {s : σ}
    (h : Traced answer left s ts x) {before after : List (Exchange S ι μ)} {t : Turn ι μ}
    {r : S.Request} {a : S.Answer r} (htrace : x.trace = before ++ ⟨t, r, a⟩ :: after) :
    ∃ next, (left t.task).Follows (Exchange.ofTask t.task before) (.ask r next) ∧
      (next a).Follows (Exchange.ofTask t.task after) (x.left t.task) := by
  have hown := h.follows t.task
  rw [htrace, Exchange.ofTask_append, Exchange.ofTask_cons_self (e := ⟨t, r, a⟩) rfl] at hown
  exact hown.at_request

theorem Traced.turn {left : (i : ι) → Program S (α i)} {s : σ}
    (h : Traced answer left s ts x) (t : Turn ι μ) :
    Traced answer left s (ts ++ [t]) (x.turn answer t) := by
  cases hp : x.left t.task with
  | done a =>
    rw [turn_of_done hp]
    exact ⟨h.follows, h.answers, h.state_eq, h.sublist.trans (List.sublist_append_left ts [t])⟩
  | ask r next =>
    rw [turn_of_ask hp]
    refine ⟨fun i => ?_, fun before e after htrace => ?_, ?_, ?_⟩
    · dsimp only
      by_cases hi : t.task = i
      · subst hi
        have hown := h.follows t.task
        rw [hp] at hown
        rw [Exchange.ofTask_concat_self, Function.update_self]
        exact hown.concat _
      · rw [Exchange.ofTask_concat_of_ne _ hi, Function.update_of_ne (Ne.symm hi)]
        exact h.follows i
    · rcases List.eq_nil_or_concat after with rfl | ⟨after, last, rfl⟩
      · obtain ⟨rfl, he⟩ := List.append_inj' htrace rfl
        obtain rfl := List.singleton_inj.mp he
        exact congrArg (fun s => (answer t.setting r s).1) h.state_eq
      · rw [List.concat_eq_append, ← List.cons_append, ← List.append_assoc] at htrace
        exact h.answers before e after (List.append_inj' htrace rfl).1
    · simp [Exchange.stateAfter, h.state_eq]
    · simpa using h.sublist.append (List.Sublist.refl [t])

theorem Traced.request_of_asks {left : (i : ι) → Program S (α i)} {s : σ} {P : ι → S.Request → Prop}
    (h : Traced answer left s ts x) (hleft : ∀ i, (left i).Asks (P i)) :
    ∀ e ∈ x.trace, P e.turn.task e.request := fun e he =>
  (h.follows e.turn.task).requests_of_asks (hleft _) e.reply
    (Exchange.mem_ofTask.mpr ⟨e, he, rfl, rfl⟩)

/-- Every interleaving of tasks is told by its trace. -/
theorem traced_run (left : (i : ι) → Program S (α i)) (s : σ) (ts : List (Turn ι μ)) :
    Traced answer left s ts (run answer { left := left, state := s } ts) := by
  induction ts using List.reverseRecOn with
  | nil =>
    refine ⟨fun i => .refl _, fun before e after htrace => ?_, rfl, List.Sublist.refl _⟩
    simp at htrace
  | append_singleton ts t ih =>
    rw [run_concat]
    exact ih.turn t

end Interleaving

end ContainerPorts
