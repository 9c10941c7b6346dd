/-!
# Programs over typed requests

A program either ends with a result or asks its surroundings one request and
goes on with the answer. Who answers, and what happens between two requests, is
left open: one program can be run against a cloud in memory, be interleaved
with other programs, or be stopped after any request.
-/
namespace ContainerPorts

/-- The requests that can be asked, each with the type of its answer. -/
structure Signature where
  Request : Type
  Answer : Request → Type

inductive Program (S : Signature) (α : Type) where
  | done (result : α)
  | ask (request : S.Request) (next : S.Answer request → Program S α)

namespace Program

variable {S T : Signature} {α β : Type}

/-- Ask one request and end with its answer. -/
def perform (request : S.Request) : Program S (S.Answer request) := .ask request .done

def bind : Program S α → (α → Program S β) → Program S β
  | .done a, f => f a
  | .ask r next, f => .ask r fun x => (next x).bind f

instance : Monad (Program S) where
  pure := .done
  bind := bind

@[simp] theorem pure_eq_done (a : α) : (pure a : Program S α) = .done a := rfl

@[simp] theorem done_bind (a : α) (f : α → Program S β) : (done a >>= f) = f a := rfl

@[simp] theorem ask_bind (r : S.Request) (next : S.Answer r → Program S α)
    (f : α → Program S β) : (ask r next >>= f) = ask r fun x => next x >>= f := rfl

@[simp] theorem bind_done (p : Program S α) : (p >>= done) = p := by
  induction p with
  | done a => rfl
  | ask r next ih => simp only [ask_bind, ih]

theorem bind_assoc {γ : Type} (p : Program S α) (f : α → Program S β) (g : β → Program S γ) :
    ((p >>= f) >>= g) = (p >>= fun a => f a >>= g) := by
  induction p with
  | done a => rfl
  | ask r next ih => simp only [ask_bind, ih]

instance : LawfulMonad (Program S) :=
  LawfulMonad.mk' _ (fun p => bind_done p) (fun _ _ => rfl) bind_assoc

/-- Answer every request by an action of a monad. -/
def run {m : Type → Type} [Monad m] (answer : (r : S.Request) → m (S.Answer r)) :
    Program S α → m α
  | .done a => pure a
  | .ask r next => do (next (← answer r)).run answer

/-- Answer every request by a program over other requests. -/
def expand (answer : (r : S.Request) → Program T (S.Answer r)) : Program S α → Program T α
  | .done a => .done a
  | .ask r next => answer r >>= fun x => (next x).expand answer

@[simp] theorem expand_done (answer : (r : S.Request) → Program T (S.Answer r)) (a : α) :
    (done a : Program S α).expand answer = done a := rfl

theorem expand_bind (answer : (r : S.Request) → Program T (S.Answer r))
    (p : Program S α) (f : α → Program S β) :
    (p >>= f).expand answer = (p.expand answer >>= fun a => (f a).expand answer) := by
  induction p with
  | done a => rfl
  | ask r next ih => simp only [ask_bind, expand, ih, bind_assoc]

/-- Thread a state through the answers of a program. -/
def runWith {σ : Type} (answer : (r : S.Request) → σ → S.Answer r × σ) :
    Program S α → σ → α × σ
  | .done a, s => (a, s)
  | .ask r next, s => let (x, s) := answer r s; (next x).runWith answer s

@[simp] theorem runWith_done {σ : Type} (answer : (r : S.Request) → σ → S.Answer r × σ) (a : α)
    (s : σ) : (done a : Program S α).runWith answer s = (a, s) := rfl

@[simp] theorem runWith_ask {σ : Type} (answer : (r : S.Request) → σ → S.Answer r × σ)
    (r : S.Request) (next : S.Answer r → Program S α) (s : σ) :
    (ask r next).runWith answer s = (next (answer r s).1).runWith answer (answer r s).2 := rfl

theorem runWith_bind {σ : Type} (answer : (r : S.Request) → σ → S.Answer r × σ)
    (p : Program S α) (f : α → Program S β) (s : σ) :
    (p >>= f).runWith answer s =
      (f (p.runWith answer s).1).runWith answer (p.runWith answer s).2 := by
  induction p generalizing s with
  | done a => rfl
  | ask r next ih => simp only [ask_bind, runWith_ask, ih]

/-- What is left after `n` more requests have been answered; `none` if the program ends before. -/
def after {σ : Type} (answer : (r : S.Request) → σ → S.Answer r × σ) :
    Nat → Program S α → σ → Option (Program S α × σ)
  | 0, p, s => some (p, s)
  | _ + 1, .done _, _ => none
  | n + 1, .ask r next, s => let (x, s) := answer r s; after answer n (next x) s

end Program

end ContainerPorts
