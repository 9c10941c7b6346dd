import ContainerPorts.Program
import Mathlib.Tactic.Common

/-!
# Monitors of programs

A monitor watches what a program asks. In each of its states it allows certain
requests, and every answer takes it to a next state. A program obeys a monitor
if it keeps to what is allowed whatever it is answered. What the states of a
monitor say about the surroundings then holds wherever the program is stopped,
as long as single requests keep it true.
-/
namespace ContainerPorts

structure Monitor (S : Signature) where
  State : Type
  allows : State → S.Request → Prop
  next : State → (r : S.Request) → S.Answer r → State

/-- The monitor that allows the same requests all the time. -/
def Monitor.only {S : Signature} (P : S.Request → Prop) : Monitor S where
  State := Unit
  allows _ := P
  next _ _ _ := ()

/-- What a monitor knows stays true when one allowed request is answered. -/
def Monitor.Tracks {S : Signature} {σ : Type} (M : Monitor S)
    (answer : (r : S.Request) → σ → S.Answer r × σ) (I : M.State → σ → Prop) : Prop :=
  ∀ q s r, I q s → M.allows q r → I (M.next q r (answer r s).1) (answer r s).2

/-- What every request keeps true of the surroundings can be kept besides. -/
theorem Monitor.Tracks.and_of_answer {S : Signature} {σ : Type} {M : Monitor S}
    {answer : (r : S.Request) → σ → S.Answer r × σ} {I : M.State → σ → Prop} {J : σ → Prop}
    (h : M.Tracks answer I) (hJ : ∀ r s, J s → J (answer r s).2) :
    M.Tracks answer fun q s => I q s ∧ J s :=
  fun q s r hq hr => ⟨h q s r hq.1 hr, hJ r s hq.2⟩

/-- The monitor that remembers whether all answers were good. -/
def Monitor.judging {S : Signature} (good : (r : S.Request) → S.Answer r → Prop) : Monitor S where
  State := Prop
  allows _ _ := True
  next sofar r x := sofar ∧ good r x

/-- What every allowed request keeps true of the states can be kept besides. -/
theorem Monitor.Tracks.and {S : Signature} {σ : Type} {M : Monitor S}
    {answer : (r : S.Request) → σ → S.Answer r × σ} {I : M.State → σ → Prop} {J : M.State → Prop}
    (h : M.Tracks answer I) (hJ : ∀ q r x, J q → M.allows q r → J (M.next q r x)) :
    M.Tracks answer fun q s => I q s ∧ J q :=
  fun q s r hq hr => ⟨h q s r hq.1 hr, hJ q r _ hq.2 hr⟩

namespace Program

variable {S T : Signature} {α β σ : Type} {M : Monitor S}

/-- A program that keeps to a monitor from the state `q` on, and ends in a state
that fits its result. -/
def Obeys (M : Monitor S) : Program S α → M.State → (α → M.State → Prop) → Prop
  | .done a, q, post => post a q
  | .ask r next, q, post => M.allows q r ∧ ∀ x, (next x).Obeys M (M.next q r x) post

variable {q q' : M.State} {post post' : α → M.State → Prop}

@[simp] theorem obeys_done (a : α) : (done a : Program S α).Obeys M q post ↔ post a q := Iff.rfl

@[simp] theorem obeys_ask (r : S.Request) (next : S.Answer r → Program S α) :
    (ask r next).Obeys M q post ↔
      M.allows q r ∧ ∀ x, (next x).Obeys M (M.next q r x) post := Iff.rfl

theorem Obeys.mono {p : Program S α} (h : p.Obeys M q post)
    (hp : ∀ a q, post a q → post' a q) : p.Obeys M q post' := by
  induction p generalizing q with
  | done a => exact hp a q h
  | ask r next ih => exact ⟨h.1, fun x => ih x (h.2 x)⟩

theorem Obeys.bind {p : Program S α} {f : α → Program S β} {post : β → M.State → Prop}
    (h : p.Obeys M q fun a q => (f a).Obeys M q post) : (p >>= f).Obeys M q post := by
  induction p generalizing q with
  | done a => exact h
  | ask r next ih => exact ⟨h.1, fun x => ih x (h.2 x)⟩

theorem Obeys.perform_bind {r : S.Request} {f : S.Answer r → Program S β}
    {post : β → M.State → Prop} (hr : M.allows q r)
    (h : ∀ x, (f x).Obeys M (M.next q r x) post) : (perform r >>= f).Obeys M q post :=
  ⟨hr, h⟩

variable {answer : (r : S.Request) → σ → S.Answer r × σ} {I : M.State → σ → Prop}

/-- At the end of a run the result and the surroundings agree on a state of the monitor. -/
theorem Obeys.runWith {p : Program S α} (h : p.Obeys M q post)
    (ht : M.Tracks answer I) {s : σ} (hs : I q s) :
    ∃ q', post (p.runWith answer s).1 q' ∧ I q' (p.runWith answer s).2 := by
  induction p generalizing q s with
  | done a => exact ⟨q, h, hs⟩
  | ask r next ih =>
    have hnext := ht q s r hs h.1
    exact ih _ (h.2 _) hnext

/-- Wherever a program is stopped, what is left of it obeys the monitor. -/
theorem Obeys.after {p rest : Program S α} (h : p.Obeys M q post)
    (ht : M.Tracks answer I) {n : ℕ} {s s' : σ} (hs : I q s)
    (ha : p.after answer n s = some (rest, s')) :
    ∃ q', rest.Obeys M q' post ∧ I q' s' := by
  induction n generalizing p q s with
  | zero =>
    simp only [Program.after, Option.some.injEq, Prod.mk.injEq] at ha
    obtain ⟨rfl, rfl⟩ := ha
    exact ⟨q, h, hs⟩
  | succ n ih =>
    cases p with
    | done a => simp [Program.after] at ha
    | ask r next => exact ih (h.2 _) (ht q s r hs h.1) ha

theorem after_add {p : Program S α} (m k : ℕ) (s : σ) :
    p.after answer (m + k) s =
      (p.after answer m s).bind fun stopped => stopped.1.after answer k stopped.2 := by
  induction m generalizing p s with
  | zero => simp [Program.after]
  | succ m ih =>
    rw [Nat.add_right_comm]
    cases p with
    | done a => rfl
    | ask r next => exact ih ..

/-- One of the first `n` requests was `r`, and it was answered by `x`. -/
def Answered (answer : (r : S.Request) → σ → S.Answer r × σ) (p : Program S α) (s : σ) (n : ℕ)
    (r : S.Request) (x : S.Answer r) : Prop :=
  ∃ m next s', m < n ∧ p.after answer m s = some (.ask r next, s') ∧ (answer r s').1 = x

/-- A program that was stopped after `r` was answered went on from that answer. -/
theorem Answered.exists_after {p rest : Program S α} {n : ℕ} {s s' : σ} {r : S.Request}
    {x : S.Answer r} (h : p.Answered answer s n r x)
    (ha : p.after answer n s = some (rest, s')) :
    ∃ m next s₁ k, p.after answer m s = some (.ask r next, s₁) ∧ (answer r s₁).1 = x ∧
      (next x).after answer k (answer r s₁).2 = some (rest, s') := by
  obtain ⟨m, next, s₁, hm, hask, rfl⟩ := h
  obtain ⟨k, rfl⟩ := Nat.exists_eq_add_of_lt hm
  rw [Nat.add_assoc, after_add, hask] at ha
  exact ⟨m, next, s₁, k, hask, rfl, ha⟩

theorem Answered.ask {r r' : S.Request} {next : S.Answer r → Program S α} {s : σ} {n : ℕ}
    {x : S.Answer r'} (h : (next (answer r s).1).Answered answer (answer r s).2 n r' x) :
    (ask r next).Answered answer s (n + 1) r' x := by
  obtain ⟨m, next', s', hm, ha, hx⟩ := h
  exact ⟨m + 1, next', s', Nat.succ_lt_succ hm, ha, hx⟩

theorem Answered.bind {p : Program S α} {f : α → Program S β} {s : σ} {n : ℕ} {r : S.Request}
    {x : S.Answer r}
    (h : (f (p.runWith answer s).1).Answered answer (p.runWith answer s).2 n r x) :
    ∃ n, (p >>= f).Answered answer s n r x := by
  induction p generalizing s with
  | done a => exact ⟨n, h⟩
  | ask r' next ih =>
    obtain ⟨n', hn⟩ := ih _ h
    exact ⟨n' + 1, hn.ask⟩

/-- What a program comes to if all answers are good it comes to in a run with good answers. -/
theorem Obeys.of_answered {good : (r : S.Request) → S.Answer r → Prop} {p : Program S α}
    {ends : α → Prop} {sofar : Prop} {s : σ}
    (h : p.Obeys (Monitor.judging good) sofar fun a sofar => sofar → ends a) (hs : sofar)
    (hgood : ∀ n r x, p.Answered answer s n r x → good r x) : ends (p.runWith answer s).1 := by
  induction p generalizing s sofar with
  | done a => exact h hs
  | ask r next ih =>
    have hfirst : good r (answer r s).1 := hgood 1 r _ ⟨0, next, s, Nat.one_pos, rfl, rfl⟩
    exact ih _ (h.2 _) ⟨hs, hfirst⟩ fun n r' x hx => hgood (n + 1) r' x hx.ask

/-- What is changed until a program is stopped is changed by the answer to one request. -/
theorem exists_change {β : Type} {p rest : Program S α} {f : σ → β} {n : ℕ} {s s' : σ}
    (ha : p.after answer n s = some (rest, s')) (h : f s' ≠ f s) :
    ∃ m r next s₁, m < n ∧ p.after answer m s = some (.ask r next, s₁) ∧ f s₁ = f s ∧
      f (answer r s₁).2 ≠ f s := by
  induction n generalizing p s with
  | zero =>
    obtain ⟨rfl, rfl⟩ : p = rest ∧ s = s' := by simpa [Program.after] using ha
    exact absurd rfl h
  | succ n ih =>
    cases p with
    | done a => simp [Program.after] at ha
    | ask r next =>
      by_cases hr : f (answer r s).2 = f s
      · rw [← hr] at h
        obtain ⟨m, r', next', s₁, hm, hask, hs, hc⟩ := ih ha h
        exact ⟨m + 1, r', next', s₁, Nat.succ_lt_succ hm, hask, hs.trans hr, by rwa [← hr]⟩
      · exact ⟨0, r, next, s, Nat.succ_pos n, rfl, rfl, hr⟩

/-- A run is stopped at its end at last. -/
theorem exists_after_runWith (answer : (r : S.Request) → σ → S.Answer r × σ) (p : Program S α)
    (s : σ) :
    ∃ n, p.after answer n s = some (.done (p.runWith answer s).1, (p.runWith answer s).2) := by
  induction p generalizing s with
  | done a => exact ⟨0, rfl⟩
  | ask r next ih =>
    obtain ⟨n, hn⟩ := ih (answer r s).1 (answer r s).2
    exact ⟨n + 1, hn⟩

/-- All requests of a run. -/
def requests (answer : (r : S.Request) → σ → S.Answer r × σ) : Program S α → σ → List S.Request
  | .done _, _ => []
  | .ask r next, s => r :: (next (answer r s).1).requests answer (answer r s).2

/-- A run has no more requests of a kind than its monitor has a budget for. -/
theorem Obeys.countP_requests_le {kind : S.Request → Bool} {p : Program S α}
    (h : p.Obeys M q post) (budget : M.State → ℕ)
    (hspent : ∀ q r x, M.allows q r →
      (if kind r then 1 else 0) + budget (M.next q r x) ≤ budget q) (s : σ) :
    (p.requests answer s).countP kind ≤ budget q := by
  induction p generalizing q s with
  | done a => exact Nat.zero_le _
  | ask r next ih =>
    have hrest := ih (answer r s).1 (h.2 _) (answer r s).2
    have hfirst := hspent q r (answer r s).1 h.1
    rw [requests, List.countP_cons]
    omega

/-- What holds of the state all along a run, and of each request when it is asked. -/
inductive Along (answer : (r : S.Request) → σ → S.Answer r × σ) (J : σ → Prop)
    (Q : S.Request → σ → Prop) : Program S α → σ → Prop
  | done {a : α} {s : σ} (h : J s) : Along answer J Q (.done a) s
  | ask {r : S.Request} {next : S.Answer r → Program S α} {s : σ} (h : J s) (hr : Q r s)
    (hnext : Along answer J Q (next (answer r s).1) (answer r s).2) :
    Along answer J Q (.ask r next) s

theorem Along.state {J : σ → Prop} {Q : S.Request → σ → Prop} {p : Program S α} {s : σ}
    (h : p.Along answer J Q s) : J s := by
  cases h with
  | done h => exact h
  | ask h => exact h

/-- All along a run holds what the states of a monitor say, and what follows from its rules. -/
theorem Obeys.along {J : σ → Prop} {Q : S.Request → σ → Prop} {p : Program S α}
    (h : p.Obeys M q post) (ht : M.Tracks answer I) (hJ : ∀ q s, I q s → J s)
    (hQ : ∀ q s r, I q s → M.allows q r → Q r s) {s : σ} (hs : I q s) : p.Along answer J Q s := by
  induction p generalizing q s with
  | done a => exact .done (hJ q s hs)
  | ask r next ih => exact .ask (hJ q s hs) (hQ q s r hs h.1) (ih _ (h.2 _) (ht q s r hs h.1))

/-! ### Programs that only ask requests of one kind -/

variable {P Q : S.Request → Prop}

/-- Whatever a program is answered, all its requests are of one kind. -/
structure Asks (P : S.Request → Prop) (p : Program S α) : Prop where
  obeys_only : p.Obeys (Monitor.only P) () fun _ _ => True

@[simp] theorem asks_done (a : α) : (done a : Program S α).Asks P := ⟨trivial⟩

@[simp] theorem asks_ask (r : S.Request) (next : S.Answer r → Program S α) :
    (ask r next).Asks P ↔ P r ∧ ∀ x, (next x).Asks P := by
  constructor
  · rintro ⟨hr, hnext⟩
    exact ⟨hr, fun x => ⟨hnext x⟩⟩
  · rintro ⟨hr, hnext⟩
    exact ⟨hr, fun x => (hnext x).obeys_only⟩

theorem Obeys.asks {p : Program S α} (h : p.Obeys M q post) (hP : ∀ q r, M.allows q r → P r) :
    p.Asks P := by
  induction p generalizing q with
  | done a => exact asks_done a
  | ask r next ih => exact (asks_ask r next).mpr ⟨hP q r h.1, fun x => ih x (h.2 x)⟩

theorem Asks.mono {p : Program S α} (h : p.Asks P) (hP : ∀ r, P r → Q r) : p.Asks Q :=
  h.obeys_only.asks fun _ r hr => hP r hr

theorem asks_perform {r : S.Request} (h : P r) : (perform r : Program S _).Asks P :=
  ⟨h, fun _ => trivial⟩

theorem asks_true (p : Program S α) : p.Asks fun _ => True := by
  induction p with
  | done a => exact asks_done a
  | ask r next ih => exact (asks_ask r next).mpr ⟨trivial, ih⟩

theorem Asks.bind {p : Program S α} {f : α → Program S β} (h : p.Asks P)
    (hf : ∀ a, (f a).Asks P) : (p >>= f).Asks P :=
  ⟨Obeys.bind (h.obeys_only.mono fun a _ _ => (hf a).obeys_only)⟩

theorem asks_perform_bind {r : S.Request} {f : S.Answer r → Program S β} (hr : P r)
    (hf : ∀ x, (f x).Asks P) : (perform r >>= f).Asks P := (asks_perform hr).bind hf

theorem Asks.mapM {p : β → Program S α} {xs : List β} (h : ∀ x, (p x).Asks P) :
    (xs.mapM p).Asks P := by
  induction xs with
  | nil => exact asks_done []
  | cons x xs ih =>
    rw [List.mapM_cons]
    exact (h x).bind fun _ => ih.bind fun _ => asks_done _

theorem Asks.expand {R : T.Request → Prop} {answer : (r : S.Request) → Program T (S.Answer r)}
    {p : Program S α} (h : p.Asks P) (ha : ∀ r, P r → (answer r).Asks R) :
    (p.expand answer).Asks R := by
  induction p with
  | done a => exact asks_done a
  | ask r next ih =>
    obtain ⟨hr, hnext⟩ := (asks_ask r next).mp h
    exact (ha r hr).bind fun x => ih x (hnext x)

/-- What every request of a kind keeps true is true after a program of such requests. -/
theorem Asks.runWith {p : Program S α} (h : p.Asks P) {J : σ → Prop}
    (hJ : ∀ r s, P r → J s → J (answer r s).2) {s : σ} (hs : J s) :
    J (p.runWith answer s).2 := by
  obtain ⟨q, -, hq⟩ :=
    h.obeys_only.runWith (I := fun _ => J) (fun q s r hs hr => hJ r s hr hs) hs
  exact hq

/-! ### Programs that rely on good answers -/

/-- As long as its answers are good, all requests of a program are of one kind, and what it ends
with has the property `E`. -/
def Trusts (good : (r : S.Request) → S.Answer r → Prop) (P : S.Request → Prop) (E : α → Prop) :
    Program S α → Prop
  | .done a => E a
  | .ask r next => P r ∧ ∀ x, good r x → (next x).Trusts good P E

section Trusts

variable {good : (r : S.Request) → S.Answer r → Prop} {E : α → Prop} {F : β → Prop}

theorem Trusts.bind {p : Program S α} {f : α → Program S β} (h : p.Trusts good P E)
    (hf : ∀ a, E a → (f a).Trusts good P F) : (p >>= f).Trusts good P F := by
  induction p with
  | done a => exact hf a h
  | ask r next ih => exact ⟨h.1, fun x hx => ih x (h.2 x hx)⟩

theorem Asks.trusts {p : Program S α} (h : p.Asks P) : p.Trusts good P fun _ => True := by
  induction p with
  | done a => trivial
  | ask r next ih =>
    obtain ⟨hr, hnext⟩ := (asks_ask r next).mp h
    exact ⟨hr, fun x _ => ih x (hnext x)⟩

/-- If two sides answer such requests well and alike, a program comes to the same on both. -/
theorem Trusts.runWith_eq {τ : Type} {p : Program S α} (h : p.Trusts good P E)
    {answer : (r : S.Request) → σ → S.Answer r × σ} {answer' : (r : S.Request) → τ → S.Answer r × τ}
    {I : σ → τ → Prop}
    (hanswer : ∀ r s t, P r → I s t → (answer r s).1 = (answer' r t).1 ∧
      good r (answer' r t).1 ∧ I (answer r s).2 (answer' r t).2) {s : σ} {t : τ} (hs : I s t) :
    (p.runWith answer s).1 = (p.runWith answer' t).1 ∧
      I (p.runWith answer s).2 (p.runWith answer' t).2 := by
  induction p generalizing s t with
  | done a => exact ⟨rfl, hs⟩
  | ask r next ih =>
    obtain ⟨hsame, hgood, hI⟩ := hanswer r s t h.1 hs
    rw [runWith_ask, runWith_ask, hsame]
    exact ih _ (h.2 _ hgood) hI

end Trusts

/-! ### What a program ends with -/

/-- Whatever a program is answered, what it ends with has the property `E`. -/
structure Ends (E : α → Prop) (p : Program S α) : Prop where
  obeys_only : p.Obeys (Monitor.only fun _ => True) () fun a _ => E a

variable {E : α → Prop} {F : β → Prop}

@[simp] theorem ends_done (a : α) : (done a : Program S α).Ends E ↔ E a :=
  ⟨fun h => h.obeys_only, fun h => ⟨h⟩⟩

theorem Ends.bind {p : Program S α} {f : α → Program S β} (h : p.Ends E)
    (hf : ∀ a, E a → (f a).Ends F) : (p >>= f).Ends F :=
  ⟨Obeys.bind (h.obeys_only.mono fun a _ ha => (hf a ha).obeys_only)⟩

theorem ends_bind {p : Program S α} {f : α → Program S β} (hf : ∀ a, (f a).Ends F) :
    (p >>= f).Ends F :=
  ⟨Obeys.bind ((asks_true p).obeys_only.mono fun a _ _ => (hf a).obeys_only)⟩

theorem Ends.expand {answer : (r : S.Request) → Program T (S.Answer r)} {p : Program S α}
    (h : p.Ends E) : (p.expand answer).Ends E := by
  induction p with
  | done a => exact ⟨h.obeys_only⟩
  | ask r next ih => exact ends_bind fun x => ih x ⟨h.obeys_only.2 x⟩

theorem Ends.runWith {p : Program S α} (h : p.Ends E) (s : σ) : E (p.runWith answer s).1 := by
  obtain ⟨q, hend, -⟩ := h.obeys_only.runWith (I := fun _ _ => True)
    (fun _ _ _ _ _ => trivial) (s := s) trivial
  exact hend

end Program

end ContainerPorts
