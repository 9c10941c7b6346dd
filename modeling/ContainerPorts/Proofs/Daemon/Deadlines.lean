import ContainerPorts.Daemon.Deadline
import ContainerPorts.Proofs.Daemon.Site
import ContainerPorts.Proofs.Replies

/-!
# Programs under a deadline

A program under a deadline is run as it is, with a reading of the clock after every answer. It comes
to its end if all answers were there by the deadline, and is stopped at the first one that was not.
At a site this is a matter of the time alone at which the program would have ended.
-/
namespace ContainerPorts

namespace Effect

variable {α : Type}

/-! ### Whatever is answered -/

/-- A request that was answered, and the time by then. -/
structure Round where
  reply : Program.Reply effects
  now : Span

/-- The answer, and the reading of the clock after it. -/
def Round.replies (x : Round) : List (Program.Reply effects) := [x.reply, ⟨.clock, x.now⟩]

def timeAfter (now : Span) (rounds : List Round) : Span := rounds.foldl (fun _ x => x.now) now

/-- Every request could be answered by the deadline, and was. -/
def Timely (deadline : Span) : Span → List Round → Prop
  | _, [] => True
  | now, x :: rounds =>
    now + x.reply.1.least ≤ deadline ∧ x.now ≤ deadline ∧ Timely deadline x.now rounds

/-- The deadline passes before a request is answered. A pause is cut short then, and the answer to
anything else comes too late. -/
inductive Overruns (deadline now : Span) (e : Effect) : List (Program.Reply effects) → Prop
  | cut (h : deadline < now + e.least) :
    Overruns deadline now e [⟨.pause ⟨deadline.nanos - now.nanos⟩, ()⟩]
  | answered (h : now + e.least ≤ deadline) (x : e.Answer) {later : Span}
    (hlate : deadline < later) : Overruns deadline now e [⟨e, x⟩, ⟨.clock, later⟩]

/-- What was asked and answered from `now` on, and what came of it. The program was run as it is: to
its end if all its answers were there by the deadline, and otherwise up to the first request for
which the deadline passed. -/
inductive RunsBefore (deadline : Span) (p : Program effects α) (now : Span)
    (es : List (Program.Reply effects)) : Option α → Prop
  | ended (rounds : List Round) {a : α} (asked : es = rounds.flatMap Round.replies)
    (follows : p.Follows (rounds.map Round.reply) (.done a))
    (timely : Timely deadline now rounds) : RunsBefore deadline p now es (some a)
  | stopped (rounds : List Round) {e : Effect} {next : e.Answer → Program effects α}
    {last : List (Program.Reply effects)} (asked : es = rounds.flatMap Round.replies ++ last)
    (follows : p.Follows (rounds.map Round.reply) (.ask e next))
    (timely : Timely deadline now rounds)
    (overruns : Overruns deadline (timeAfter now rounds) e last) : RunsBefore deadline p now es none

/-- The same from the first reading of the clock on, with the deadline `limit` after it. -/
def RunsWithin (limit : Span) (p : Program effects α) (es : List (Program.Reply effects))
    (result : Option α) : Prop :=
  ∃ start es', es = ⟨.clock, start⟩ :: es' ∧ RunsBefore (start + limit) p start es' result

variable {deadline now later : Span} {e : Effect} {next : e.Answer → Program effects α}
  {x : e.Answer} {es : List (Program.Reply effects)} {result : Option α}

theorem RunsBefore.cons (hleast : now + e.least ≤ deadline) (hlater : later ≤ deadline)
    (h : RunsBefore deadline (next x) later es result) :
    RunsBefore deadline (.ask e next) now (⟨e, x⟩ :: ⟨.clock, later⟩ :: es) result := by
  cases h with
  | ended rounds asked follows timely =>
    exact .ended (⟨⟨e, x⟩, later⟩ :: rounds) (by rw [asked]; rfl) (.ask follows)
      ⟨hleast, hlater, timely⟩
  | stopped rounds asked follows timely overruns =>
    exact .stopped (⟨⟨e, x⟩, later⟩ :: rounds) (by rw [asked]; rfl) (.ask follows)
      ⟨hleast, hlater, timely⟩ overruns

theorem before_tells (deadline : Span) (p : Program effects α) (now : Span) :
    (before deadline p now).Tells (RunsBefore deadline p now) := by
  induction p generalizing now with
  | done a => exact Program.tells_done (.ended [] rfl (.refl _) trivial)
  | ask e next ih =>
    rw [before]
    split
    · rename_i hleast
      refine Program.tells_ask fun x => Program.tells_ask fun later => ?_
      split
      · rename_i hlater
        exact (ih x later).mono fun es result h => .cons hleast hlater h
      · rename_i hlate
        exact Program.tells_done (.stopped [] rfl (.refl _) trivial
          (.answered hleast x (Nat.lt_of_not_le hlate)))
    · rename_i hleast
      exact Program.tells_ask fun _ => Program.tells_done
        (.stopped [] rfl (.refl _) trivial (.cut (Nat.lt_of_not_le hleast)))

/-- However a program is answered and whatever the clock shows, it is run as it is until the
deadline. -/
theorem within_tells (limit : Span) (p : Program effects α) :
    (within limit p).Tells (RunsWithin limit p) :=
  Program.tells_ask fun start => (before_tells (start + limit) p start).mono fun es _ h =>
    ⟨start, es, rfl, h⟩

/-- Apart from pauses and readings of the clock, only the program itself asks for anything. -/
theorem within_asks {P : Effect → Prop} (hclock : P .clock) (hpause : ∀ d, P (.pause d))
    {p : Program effects α} (h : p.Asks P) (limit : Span) : (within limit p).Asks P := by
  have hbefore (deadline now : Span) : (before deadline p now).Asks P := by
    induction p generalizing now with
    | done a => exact Program.asks_done _
    | ask e next ih =>
      obtain ⟨he, hnext⟩ := (Program.asks_ask e next).mp h
      rw [before]
      split
      · refine (Program.asks_ask _ _).mpr ⟨he, fun x => ?_⟩
        refine (Program.asks_ask _ _).mpr ⟨hclock, fun later => ?_⟩
        split
        · exact ih x (hnext x) later
        · exact Program.asks_done _
      · exact (Program.asks_ask _ _).mpr ⟨hpause _, fun _ => Program.asks_done _⟩
  exact (Program.asks_ask _ _).mpr ⟨hclock, fun start => hbefore (start + limit) start⟩

end Effect

/-! ### At a site -/

namespace Site

open Effect

variable {α : Type}

/-- The clock of a site goes forward, by as long as was waited at the least. -/
theorem clock_answer_le (s : Site) (e : Effect) : s.clock + e.least ≤ (s.answer e).2.clock := by
  have htick : s.clock ≤ s.tick.clock := Nat.le_add_right ..
  cases e with
  | cloud c =>
    have hclock : (s.tick.onCloud c).2.clock = s.tick.clock := by
      rw [onCloud]
      split <;> rfl
    rw [answer, hclock]
    exact htick
  | pause d => exact Nat.add_le_add_right htick d.nanos
  | file c => exact htick
  | observe => exact htick
  | clock => exact Nat.le_refl _

theorem clock_run_le (s : Site) (p : Program effects α) : s.clock ≤ (s.run p).2.clock := by
  induction p generalizing s with
  | done a => exact Nat.le_refl _
  | ask e next ih =>
    have hanswer := Nat.le_trans (Nat.le_add_right ..) (s.clock_answer_le e)
    exact Nat.le_trans hanswer (ih (s.answer e).1 (s.answer e).2)

theorem run_before {deadline : Span} (p : Program effects α) {s : Site} (hs : s.clock ≤ deadline) :
    ((s.run p).2.clock ≤ deadline →
      s.run (before deadline p s.clock) = (some (s.run p).1, (s.run p).2)) ∧
    (deadline < (s.run p).2.clock → (s.run (before deadline p s.clock)).1 = none) := by
  induction p generalizing s with
  | done a => exact ⟨fun _ => rfl, fun h => absurd hs (Nat.not_le_of_lt h)⟩
  | ask e next ih =>
    have hrun : s.run (.ask e next) = (s.answer e).2.run (next (s.answer e).1) := rfl
    have hend := (s.answer e).2.clock_run_le (next (s.answer e).1)
    have hleast := s.clock_answer_le e
    rw [hrun, before]
    by_cases hfits : s.clock + e.least ≤ deadline
    · have hread : s.run (.ask e fun x => .ask .clock fun now =>
          if now ≤ deadline then before deadline (next x) now else .done none) =
          (s.answer e).2.run (if (s.answer e).2.clock ≤ deadline then
            before deadline (next (s.answer e).1) (s.answer e).2.clock else .done none) := rfl
      rw [if_pos hfits, hread]
      by_cases hlate : (s.answer e).2.clock ≤ deadline
      · rw [if_pos hlate]
        exact ih (s.answer e).1 hlate
      · rw [if_neg hlate]
        exact ⟨fun h => absurd (Nat.le_trans hend h) hlate, fun _ => rfl⟩
    · rw [if_neg hfits]
      exact ⟨fun h => absurd (Nat.le_trans hleast (Nat.le_trans hend h)) hfits, fun _ => rfl⟩

/-- At a site a program is stopped exactly if it would take longer than its limit. Otherwise the
limit makes no difference. -/
theorem run_within (limit : Span) (p : Program effects α) (s : Site) :
    ((s.run p).2.clock ≤ s.clock + limit →
      s.run (within limit p) = (some (s.run p).1, (s.run p).2)) ∧
    (s.clock + limit < (s.run p).2.clock → (s.run (within limit p)).1 = none) :=
  run_before p (Nat.le_add_right ..)

end Site

end ContainerPorts
