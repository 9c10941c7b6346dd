import ContainerPorts.Text.Blank
import ContainerPorts.Time.Span
/-!
# Instants

An instant counts seconds since the beginning of 1970 in UTC and nanoseconds
within the second; a leap second has a thousand million nanoseconds more than
the second before it. Reading takes the date and time of RFC 3339 with blanks
between the parts, parts of fewer digits and any separator of date and time
among `T`, `t` and a space. Writing gives UTC with as few of 0, 3, 6 or 9
fraction digits as are exact.
-/
namespace ContainerPorts

structure Instant where
  second : Int
  nano : Nat
  deriving DecidableEq, Repr, Inhabited

namespace Instant

/-- Nanoseconds since the beginning of 1970. -/
def toNanos (t : Instant) : Int := t.second * 1000000000 + t.nano

def ofNanos (n : Int) : Instant := ⟨n / 1000000000, (n % 1000000000).toNat⟩

/-- The time from `earlier` to `t`, unless `t` comes first. -/
def since? (t earlier : Instant) : Option Span :=
  if earlier.toNanos ≤ t.toNanos then some ⟨(t.toNanos - earlier.toNanos).toNat⟩ else none

def plusSeconds (t : Instant) (n : Int) : Instant := ⟨t.second + n, t.nano⟩

/-! ### Calendar -/

def isLeapYear (y : Int) : Bool := y % 4 = 0 && (y % 100 ≠ 0 || y % 400 = 0)

def daysInMonth (y : Int) (m : Nat) : Nat :=
  if m = 2 then (if isLeapYear y then 29 else 28)
  else if m = 4 ∨ m = 6 ∨ m = 9 ∨ m = 11 then 30
  else 31

/-- Days from the beginning of 1970 to a day of the calendar. -/
def daysOf (y : Int) (m d : Nat) : Int :=
  let y' := if m ≤ 2 then y - 1 else y
  let era := y' / 400
  let yearOfEra := y' - era * 400
  let dayOfYear : Int := (153 * (if m > 2 then m - 3 else m + 9) + 2) / 5 + d - 1
  let dayOfEra := yearOfEra * 365 + yearOfEra / 4 - yearOfEra / 100 + dayOfYear
  era * 146097 + dayOfEra - 719468

/-- The day of the calendar that many days after the beginning of 1970. -/
def dayOf (days : Int) : Int × Nat × Nat :=
  let z := days + 719468
  let era := z / 146097
  let dayOfEra := z - era * 146097
  let yearOfEra := (dayOfEra - dayOfEra / 1460 + dayOfEra / 36524 - dayOfEra / 146096) / 365
  let dayOfYear := dayOfEra - (365 * yearOfEra + yearOfEra / 4 - yearOfEra / 100)
  let mp := (5 * dayOfYear + 2) / 153
  let d := dayOfYear - (153 * mp + 2) / 5 + 1
  let m := if mp < 10 then mp + 3 else mp - 9
  (yearOfEra + era * 400 + (if m ≤ 2 then 1 else 0), m.toNat, d.toNat)

/-- The years that have instants. -/
def yearBounds : Int × Int := (-262143, 262142)

/-! ### Reading -/

/-- A number of one digit at least and `most` digits at most, after blanks. -/
def number? (most : Nat) (cs : List Char) : Option (Nat × List Char) :=
  let cs := Text.trimStart cs
  let ds := (cs.take most).takeWhile Char.isDigit
  if ds = [] then none else some (Nat.ofDigitChars 10 ds 0, cs.drop ds.length)

def year? (cs : List Char) : Option (Int × List Char) :=
  let signed := fun (sign : Int) (cs : List Char) =>
    let ds := cs.takeWhile Char.isDigit
    if ds = [] then none else some (sign * Nat.ofDigitChars 10 ds 0, cs.drop ds.length)
  match Text.trimStart cs with
  | '-' :: cs => signed (-1) cs
  | '+' :: cs => signed 1 cs
  | cs => (number? 4 cs).map fun p => ((p.1 : Int), p.2)

/-- The rest after a separator that may have blanks before it. -/
def separator? (c : Char) (cs : List Char) : Option (List Char) :=
  match Text.trimStart cs with
  | c' :: rest => if c' = c then some rest else none
  | [] => none

/-- The fraction of a second in nanoseconds; digits after the ninth are ignored. -/
def fraction? : List Char → Option (Nat × List Char)
  | '.' :: cs =>
    let ds := cs.takeWhile Char.isDigit
    if ds = [] then none
    else
      let kept := ds.take 9
      some (Nat.ofDigitChars 10 kept 0 * Nat.pow 10 (9 - kept.length), cs.drop ds.length)
  | cs => some (0, cs)

/-- Hours and minutes of an offset, in seconds. -/
def clock? : List Char → Option (Nat × List Char)
  | h :: h' :: cs =>
    match cs.dropWhile (fun c => c = ':' || Text.isBlank c) with
    | m :: m' :: rest =>
      if [h, h', m, m'].all Char.isDigit ∧ m < '6' then
        some (Nat.ofDigitChars 10 [h, h'] 0 * 3600 + Nat.ofDigitChars 10 [m, m'] 0 * 60, rest)
      else none
    | _ => none
  | _ => none

/-- The offset from UTC in seconds, east counting up. -/
def offset? (cs : List Char) : Option (Int × List Char) :=
  match Text.trimStart cs with
  | u :: t :: c :: rest =>
    if [u.toLower, t.toLower, c.toLower] = ['u', 't', 'c'] then some (0, rest)
    else direct (u :: t :: c :: rest)
  | cs => direct cs
where
  direct : List Char → Option (Int × List Char)
    | 'Z' :: rest => some (0, rest)
    | 'z' :: rest => some (0, rest)
    | '+' :: rest => (clock? rest).map fun p => ((p.1 : Int), p.2)
    | '-' :: rest => (clock? rest).map fun p => (-(p.1 : Int), p.2)
    | '\u2212' :: rest => (clock? rest).map fun p => (-(p.1 : Int), p.2)
    | _ => none

def readChars? (cs : List Char) : Option Instant := do
  let (y, cs) ← year? cs
  let (mo, cs) ← number? 2 (← separator? '-' cs)
  let (d, cs) ← number? 2 (← separator? '-' cs)
  let cs ← match cs with
    | c :: rest => if c = 'T' ∨ c = 't' ∨ c = ' ' then some rest else none
    | [] => none
  let (h, cs) ← number? 2 cs
  let (mi, cs) ← number? 2 (← separator? ':' cs)
  let (s, cs) ← number? 2 (← separator? ':' cs)
  let (ns, cs) ← fraction? cs
  let (off, cs) ← offset? cs
  guard (Text.trimStart cs = [])
  guard (yearBounds.1 ≤ y ∧ y ≤ yearBounds.2)
  guard (1 ≤ mo ∧ mo ≤ 12 ∧ 1 ≤ d ∧ d ≤ daysInMonth y mo)
  guard (h ≤ 23 ∧ mi ≤ 59 ∧ s ≤ 60)
  guard (-86400 < off ∧ off < 86400)
  let (s, ns) := if s = 60 then (59, ns + 1000000000) else (s, ns)
  return ⟨daysOf y mo d * 86400 + ((h * 3600 + mi * 60 + s : Nat) : Int) - off, ns⟩

def read? (s : String) : Option Instant := readChars? s.toList

/-! ### Writing -/

/-- `n` in at least `width` digits. -/
def padded (width n : Nat) : List Char :=
  let ds := Nat.toDigits 10 n
  List.replicate (width - ds.length) '0' ++ ds

def yearChars (y : Int) : List Char :=
  if 0 ≤ y ∧ y ≤ 9999 then padded 4 y.toNat
  else (if y < 0 then '-' else '+') :: padded 4 y.natAbs

def fractionChars (ns : Nat) : List Char :=
  if ns = 0 then []
  else if ns % 1000000 = 0 then '.' :: padded 3 (ns / 1000000)
  else if ns % 1000 = 0 then '.' :: padded 6 (ns / 1000)
  else '.' :: padded 9 ns

def chars (t : Instant) : List Char :=
  let days := t.second / 86400
  let inDay := (t.second % 86400).toNat
  let (y, m, d) := dayOf days
  let (s, ns) :=
    if t.nano < 1000000000 then (inDay % 60, t.nano) else (inDay % 60 + 1, t.nano - 1000000000)
  yearChars y ++ '-' :: padded 2 m ++ '-' :: padded 2 d ++ 'T' :: padded 2 (inDay / 3600) ++
    ':' :: padded 2 (inDay / 60 % 60) ++ ':' :: padded 2 s ++ fractionChars ns ++ ['Z']

def text (t : Instant) : String := String.ofList t.chars

example : (read? "2024-02-29T23:59:60.5+01:00").map text = some "2024-02-29T22:59:60.500Z" := by
  decide +kernel

end Instant

end ContainerPorts
