import ContainerPorts.Proofs.Monitor
import Mathlib.Data.List.Induction
import Mathlib.Tactic.Common

/-!
# What a program is answered

The answers that a program gets tell how it goes on, whoever gives them. So what holds of
a program and of all answers it may get holds of every run, with whatever surroundings.
-/
namespace ContainerPorts

/-- In a list that grows at its end, the last good item has nothing bad after it: as before, if the
new item is not bad, or because the new item is good. -/
theorem exists_since_concat_iff {α : Type} {good bad : α → Prop} {xs : List α} {x : α} :
    (∃ before y since, xs ++ [x] = before ++ y :: since ∧ good y ∧ ∀ z ∈ since, ¬ bad z) ↔
      (∃ before y since, xs = before ++ y :: since ∧ good y ∧ ∀ z ∈ since, ¬ bad z) ∧ ¬ bad x ∨
        good x := by
  constructor
  · rintro ⟨before, y, since, hxs, hgood, hsince⟩
    rcases List.eq_nil_or_concat since with rfl | ⟨since, last, rfl⟩
    · obtain ⟨rfl, hx⟩ := List.append_inj' hxs rfl
      obtain rfl := List.singleton_inj.mp hx
      exact .inr hgood
    · rw [List.concat_eq_append] at hxs hsince
      rw [← List.cons_append, ← List.append_assoc] at hxs
      obtain ⟨rfl, hx⟩ := List.append_inj' hxs rfl
      obtain rfl := List.singleton_inj.mp hx
      refine .inl ⟨⟨before, y, since, rfl, hgood, fun z hz => hsince z ?_⟩, hsince x ?_⟩
      · exact List.mem_append_left _ hz
      · exact List.mem_append_right _ (List.mem_singleton_self x)
  · rintro (⟨⟨before, y, since, rfl, hgood, hsince⟩, hx⟩ | hgood)
    · refine ⟨before, y, since ++ [x], by simp, hgood, fun z hz => ?_⟩
      rcases List.mem_append.mp hz with hz | hz
      · exact hsince z hz
      · rwa [List.mem_singleton.mp hz]
    · exact ⟨xs, x, [], rfl, hgood, List.forall_mem_nil _⟩

namespace Program

variable {S : Signature} {α β : Type}

/-- A request with its answer. -/
abbrev Reply (S : Signature) : Type := (r : S.Request) × S.Answer r

/-- A program that gets these answers goes on as the last one. -/
inductive Follows : Program S α → List (Reply S) → Program S α → Prop
  | refl (p : Program S α) : Follows p [] p
  | ask {r : S.Request} {next : S.Answer r → Program S α} {a : S.Answer r} {es : List (Reply S)}
      {q : Program S α} (h : Follows (next a) es q) : Follows (.ask r next) (⟨r, a⟩ :: es) q

namespace Follows

variable {p q q' : Program S α} {es es' : List (Reply S)} {r : S.Request}
  {next : S.Answer r → Program S α} {a : S.Answer r}

@[simp] theorem done_iff {x : α} : Follows (.done x) es q ↔ es = [] ∧ .done x = q := by
  constructor
  · rintro ⟨⟩
    exact ⟨rfl, rfl⟩
  · rintro ⟨rfl, rfl⟩
    exact .refl _

theorem ask_iff :
    Follows (.ask r next) es q ↔
      es = [] ∧ .ask r next = q ∨ ∃ a es', es = ⟨r, a⟩ :: es' ∧ Follows (next a) es' q := by
  constructor
  · rintro (_ | h)
    · exact .inl ⟨rfl, rfl⟩
    · exact .inr ⟨_, _, rfl, h⟩
  · rintro (⟨rfl, rfl⟩ | ⟨a, es', rfl, h⟩)
    · exact .refl _
    · exact .ask h

theorem trans (h : Follows p es q) (h' : Follows q es' q') : Follows p (es ++ es') q' := by
  induction h with
  | refl p => exact h'
  | ask _ ih => exact .ask (ih h')

theorem concat (h : Follows p es (.ask r next)) (a : S.Answer r) :
    Follows p (es ++ [⟨r, a⟩]) (next a) :=
  h.trans (.ask (.refl _))

theorem bind {x : α} {f : α → Program S β} {q : Program S β} (h : Follows p es (.done x))
    (hf : Follows (f x) es' q) : Follows (p >>= f) (es ++ es') q := by
  generalize hlast : done x = last at h
  induction h with
  | refl p =>
    subst hlast
    exact hf
  | ask _ ih => exact .ask (ih hlast)

/-- What holds at the start and is kept by every answer holds of a program and what it was
answered. -/
theorem invariant {I : List (Reply S) → Program S α → Prop} (h : Follows p es q) (start : I [] p)
    (answered : ∀ es r next a, I es (.ask r next) → I (es ++ [⟨r, a⟩]) (next a)) : I es q := by
  have extended (before : List (Reply S)) (hp : I before p) : I (before ++ es) q := by
    clear start
    induction h generalizing before with
    | refl p => simpa using hp
    | ask _ ih => simpa using ih _ (answered _ _ _ _ hp)
  exact extended [] start

/-- What was answered first left a program that the rest was answered to. -/
theorem split (h : Follows p (es ++ es') q) : ∃ m, Follows p es m ∧ Follows m es' q := by
  induction es generalizing p with
  | nil => exact ⟨p, .refl p, h⟩
  | cons e es ih =>
    obtain _ | h := h
    obtain ⟨m, hm, hq⟩ := ih h
    exact ⟨m, .ask hm, hq⟩

/-- Before an answer the program stood at its request. -/
theorem at_request (h : Follows p (es ++ ⟨r, a⟩ :: es') q) :
    ∃ next, Follows p es (.ask r next) ∧ Follows (next a) es' q := by
  obtain ⟨m, hm, hq⟩ := h.split
  obtain _ | hq := hq
  exact ⟨_, hm, hq⟩

/-- What is left of a program obeys the monitor that the program obeys, from a state that agrees
with what was asked so far. -/
theorem exists_obeys {M : Monitor S} {start : M.State} {post : α → M.State → Prop}
    {H : List (Reply S) → M.State → Prop} (h : Follows p es q) (hp : p.Obeys M start post)
    (hstart : H [] start)
    (hstep : ∀ es state r a, H es state → M.allows state r →
      H (es ++ [⟨r, a⟩]) (M.next state r a)) :
    ∃ state, q.Obeys M state post ∧ H es state := by
  refine h.invariant (I := fun es q => ∃ state, q.Obeys M state post ∧ H es state)
    ⟨start, hp, hstart⟩ ?_
  rintro es r next a ⟨state, ⟨hr, hnext⟩, hes⟩
  exact ⟨M.next state r a, hnext a, hstep es state r a hes hr⟩

theorem requests_of_asks {P : S.Request → Prop} (h : Follows p es q) (hp : p.Asks P) :
    ∀ e ∈ es, P e.1 := by
  obtain ⟨-, -, hes⟩ := h.exists_obeys (H := fun es _ => ∀ e ∈ es, P e.1) hp.obeys_only
    (List.forall_mem_nil _) fun es _ r a hes hr => by simpa [or_imp, forall_and] using ⟨hes, hr⟩
  exact hes

end Follows

/-! ### Whole runs -/

variable {σ : Type} {answer : (r : S.Request) → σ → S.Answer r × σ}

/-- The requests of a run, with their answers. -/
def replies (answer : (r : S.Request) → σ → S.Answer r × σ) : Program S α → σ → List (Reply S)
  | .done _, _ => []
  | .ask r next, s => ⟨r, (answer r s).1⟩ :: (next (answer r s).1).replies answer (answer r s).2

theorem follows_replies (p : Program S α) (s : σ) :
    p.Follows (p.replies answer s) (.done (p.runWith answer s).1) := by
  induction p generalizing s with
  | done a => exact .refl _
  | ask r next ih => exact .ask (ih _ _)

theorem replies_bind (p : Program S α) (f : α → Program S β) (s : σ) :
    (p >>= f).replies answer s =
      p.replies answer s ++
        (f (p.runWith answer s).1).replies answer (p.runWith answer s).2 := by
  induction p generalizing s with
  | done a => rfl
  | ask r next ih => simp only [ask_bind, replies, ih, runWith_ask, List.cons_append]

/-- Replies that are given one after the other from a state on, and the state they leave. -/
inductive Given (answer : (r : S.Request) → σ → S.Answer r × σ) : σ → List (Reply S) → σ → Prop
  | nil (s : σ) : Given answer s [] s
  | cons {r : S.Request} {s s' : σ} {es : List (Reply S)} (h : Given answer (answer r s).2 es s') :
    Given answer s (⟨r, (answer r s).1⟩ :: es) s'

theorem given_replies (p : Program S α) (s : σ) :
    Given answer s (p.replies answer s) (p.runWith answer s).2 := by
  induction p generalizing s with
  | done a => exact .nil s
  | ask r next ih => exact .cons (ih _ _)

section Given

variable {s s' : σ} {es es' : List (Reply S)} {r : S.Request} {x : S.Answer r}

theorem given_cons_iff :
    Given answer s (⟨r, x⟩ :: es) s' ↔ (answer r s).1 = x ∧ Given answer (answer r s).2 es s' := by
  constructor
  · rintro (_ | h)
    exact ⟨rfl, h⟩
  · rintro ⟨rfl, h⟩
    exact .cons h

theorem Given.split (h : Given answer s (es ++ es') s') :
    ∃ m, Given answer s es m ∧ Given answer m es' s' := by
  induction es generalizing s with
  | nil => exact ⟨s, .nil s, h⟩
  | cons e es ih =>
    obtain _ | h := h
    obtain ⟨m, hm, hs'⟩ := ih h
    exact ⟨m, .cons hm, hs'⟩

/-- What every reply keeps true is true after all of them. -/
theorem Given.invariant {J : σ → Prop} (h : Given answer s es s') (hs : J s)
    (hJ : ∀ e ∈ es, ∀ s, J s → J (answer e.1 s).2) : J s' := by
  induction h with
  | nil s => exact hs
  | cons _ ih =>
    rw [List.forall_mem_cons] at hJ
    exact ih (hJ.1 _ hs) hJ.2

end Given

/-- However a program is answered, `Q` holds of what it asked and of what it ends with. -/
structure Tells (Q : List (Reply S) → α → Prop) (p : Program S α) : Prop where
  told : ∀ es a, p.Follows es (.done a) → Q es a

variable {p : Program S α} {Q Q' : List (Reply S) → α → Prop}

theorem tells_done {a : α} (h : Q [] a) : (done a : Program S α).Tells Q := by
  refine ⟨fun es b hes => ?_⟩
  obtain ⟨rfl, hb⟩ := Follows.done_iff.mp hes
  cases hb
  exact h

theorem tells_ask {r : S.Request} {next : S.Answer r → Program S α}
    (h : ∀ x, (next x).Tells fun es => Q (⟨r, x⟩ :: es)) : (ask r next).Tells Q := by
  refine ⟨fun es b hes => ?_⟩
  rcases Follows.ask_iff.mp hes with ⟨-, hb⟩ | ⟨x, es', rfl, hnext⟩
  · cases hb
  · exact (h x).told es' b hnext

theorem Tells.mono (h : p.Tells Q) (hQ : ∀ es a, Q es a → Q' es a) : p.Tells Q' :=
  ⟨fun es a hes => hQ es a (h.told es a hes)⟩

theorem Tells.answered {r : S.Request} {next : S.Answer r → Program S α} (h : (ask r next).Tells Q)
    (x : S.Answer r) : (next x).Tells fun es => Q (⟨r, x⟩ :: es) :=
  ⟨fun es a hes => h.told (⟨r, x⟩ :: es) a (.ask hes)⟩

theorem Tells.bind {f : α → Program S β} {R : List (Reply S) → β → Prop}
    (h : p.Tells fun es a => (f a).Tells fun es' => R (es ++ es')) : (p >>= f).Tells R := by
  induction p generalizing R with
  | done a => exact h.told [] a (.refl _)
  | ask r next ih => exact tells_ask fun x => ih x (h.answered x)

/-- Replies to requests that were each answered by a program, and what these programs asked. -/
inductive Relays {T : Signature} (relay : (r : S.Request) → Program T (S.Answer r)) :
    List (Reply S) → List (Reply T) → Prop
  | nil : Relays relay [] []
  | cons {r : S.Request} {x : S.Answer r} {es : List (Reply T)} {own : List (Reply S)}
    {rest : List (Reply T)} (h : (relay r).Follows es (.done x)) (hrest : Relays relay own rest) :
    Relays relay (⟨r, x⟩ :: own) (es ++ rest)

/-- What holds of a program holds of it when each of its requests is answered by a program. -/
theorem Tells.expand {T : Signature} {relay : (r : S.Request) → Program T (S.Answer r)}
    (h : p.Tells Q) :
    (p.expand relay).Tells fun es a => ∃ own, Relays relay own es ∧ Q own a := by
  induction p generalizing Q with
  | done a => exact tells_done ⟨[], .nil, h.told [] a (.refl _)⟩
  | ask r next ih =>
    refine Tells.bind ⟨fun es x hes => ?_⟩
    refine (ih x (h.answered x)).mono ?_
    rintro es' a ⟨own, hrelays, hown⟩
    exact ⟨_, .cons hes hrelays, hown⟩

theorem Tells.runWith (h : p.Tells Q) (answer : (r : S.Request) → σ → S.Answer r × σ) (s : σ) :
    Q (p.replies answer s) (p.runWith answer s).1 :=
  h.told _ _ (p.follows_replies s)

end Program

end ContainerPorts
