/-!
# Spans of time

A span is a whole number of nanoseconds. It is written in the largest unit that
gives a whole part, with the shortest exact fraction.
-/
namespace ContainerPorts

@[ext] structure Span where
  nanos : Nat
  deriving DecidableEq, Repr, Inhabited

namespace Span

def ofMillis (n : Nat) : Span := ⟨n * 1000000⟩

def ofSeconds (n : Nat) : Span := ⟨n * 1000000000⟩

/-- Whole milliseconds, rounded down. -/
def millis (s : Span) : Nat := s.nanos / 1000000

/-- Whole seconds, rounded down. -/
def seconds (s : Span) : Nat := s.nanos / 1000000000

instance : Add Span := ⟨fun s t => ⟨s.nanos + t.nanos⟩⟩

instance : LE Span := ⟨fun s t => s.nanos ≤ t.nanos⟩

instance (s t : Span) : Decidable (s ≤ t) := inferInstanceAs (Decidable (s.nanos ≤ t.nanos))

instance : LT Span := ⟨fun s t => s.nanos < t.nanos⟩

instance (s t : Span) : Decidable (s < t) := inferInstanceAs (Decidable (s.nanos < t.nanos))

instance : Min Span := ⟨fun s t => if s ≤ t then s else t⟩

@[simp] theorem nanos_add (s t : Span) : (s + t).nanos = s.nanos + t.nanos := rfl

@[simp] theorem nanos_min (s t : Span) : (min s t).nanos = min s.nanos t.nanos := by
  change (if s.nanos ≤ t.nanos then s else t).nanos = min s.nanos t.nanos
  split <;> omega

theorem le_iff (s t : Span) : s ≤ t ↔ s.nanos ≤ t.nanos := Iff.rfl

theorem lt_iff (s t : Span) : s < t ↔ s.nanos < t.nanos := Iff.rfl

protected theorem zero_add (s : Span) : ⟨0⟩ + s = s := Span.ext (Nat.zero_add s.nanos)

protected theorem le_trans {r s t : Span} (h : r ≤ s) (h' : s ≤ t) : r ≤ t := Nat.le_trans h h'

protected theorem lt_of_le_of_lt {r s t : Span} (h : r ≤ s) (h' : s < t) : r < t :=
  Nat.lt_of_le_of_lt h h'

/-- The digits of `n` after the point, in `places` places, without zeros at the end. -/
def fraction (places n : Nat) : List Char :=
  let digits := Nat.toDigits 10 n
  let padded := List.replicate (places - digits.length) '0' ++ digits
  (padded.reverse.dropWhile (· = '0')).reverse

/-- `n` in a unit of `10 ^ places`, followed by the name of the unit. -/
def inUnit (places n : Nat) (unit : String) : String :=
  let frac := fraction places (n % Nat.pow 10 places)
  toString (n / Nat.pow 10 places) ++ (if frac = [] then "" else "." ++ String.ofList frac) ++ unit

def text (s : Span) : String :=
  if Nat.pow 10 9 ≤ s.nanos then inUnit 9 s.nanos "s"
  else if Nat.pow 10 6 ≤ s.nanos then inUnit 6 s.nanos "ms"
  else if Nat.pow 10 3 ≤ s.nanos then inUnit 3 s.nanos "µs"
  else inUnit 0 s.nanos "ns"

example : (ofMillis 1600).text = "1.6s" ∧ (ofMillis 20).text = "20ms" ∧ (ofMillis 0).text = "0ns" ∧
    (ofSeconds 5).text = "5s" := by decide +kernel

end Span

end ContainerPorts
