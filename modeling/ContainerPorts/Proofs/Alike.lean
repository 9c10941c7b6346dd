import ContainerPorts.Program
import Mathlib.Tactic.Common

/-!
# Programs that cannot tell answers apart

Two programs are alike if they ask the same as long as they get alike answers, and
end with results that correspond. What a program makes of the part of an answer in
which alike answers differ is then nothing at all.
-/
namespace ContainerPorts.Program

variable {S T : Signature} {α β γ δ : Type}

/-- Programs that ask the same, given alike answers, and end with corresponding results. -/
inductive Alike (A : (r : S.Request) → S.Answer r → S.Answer r → Prop) (R : α → β → Prop) :
    Program S α → Program S β → Prop
  | done {a : α} {b : β} (h : R a b) : Alike A R (.done a) (.done b)
  | ask {r : S.Request} {f : S.Answer r → Program S α} {g : S.Answer r → Program S β}
    (h : ∀ x y, A r x y → Alike A R (f x) (g y)) : Alike A R (.ask r f) (.ask r g)

namespace Alike

variable {A : (r : S.Request) → S.Answer r → S.Answer r → Prop} {R : α → β → Prop}
  {Q : γ → δ → Prop} {p : Program S α} {p' : Program S β}

theorem bind {f : α → Program S γ} {g : β → Program S δ} (h : Alike A R p p')
    (hf : ∀ a b, R a b → Alike A Q (f a) (g b)) : Alike A Q (p >>= f) (p' >>= g) := by
  induction h with
  | done h => exact hf _ _ h
  | ask _ ih => exact .ask ih

/-- Alike programs ask the same next. -/
theorem exists_of_ask {r : S.Request} {next : S.Answer r → Program S α}
    (h : Alike A R (.ask r next) p') :
    ∃ next', p' = .ask r next' ∧ ∀ x y, A r x y → Alike A R (next x) (next' y) := by
  cases h with
  | ask h => exact ⟨_, rfl, h⟩

theorem exists_of_done {a : α} (h : Alike A R (.done a) p') : ∃ b, p' = .done b ∧ R a b := by
  cases h with
  | done h => exact ⟨_, rfl, h⟩

/-- Programs stay alike if all their requests are answered by one program over other requests. -/
theorem expand {B : (r : T.Request) → T.Answer r → T.Answer r → Prop}
    {answer : (r : S.Request) → Program T (S.Answer r)} (h : Alike A R p p')
    (ha : ∀ r, Alike B (A r) (answer r) (answer r)) :
    Alike B R (p.expand answer) (p'.expand answer) := by
  induction h with
  | done h => exact .done h
  | ask _ ih => exact (ha _).bind ih

end Alike

end ContainerPorts.Program
