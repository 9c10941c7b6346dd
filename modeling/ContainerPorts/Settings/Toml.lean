import ContainerPorts.Settings.Setting
import ContainerPorts.Text.Split
/-!
# Flat TOML documents

Every line of a flat document is blank, a comment, or a name with its value. A
value is a text on one line, a number or a flag; there are no lists, tables and
dates. A name is given once.
-/
namespace ContainerPorts.Toml

/-! ### Lines -/

/-- A line has no control characters but tabs. -/
def isPlain (c : Char) : Bool := c = '\t' || (' ' ≤ c && c ≠ '\x7f')

def isSpace (c : Char) : Bool := c = ' ' || c = '\t'

def skipSpace (cs : List Char) : List Char := cs.dropWhile isSpace

/-- The lines of a text; all but the last end in a line feed, which a return may precede. -/
def lines (cs : List Char) : List (List Char) :=
  let parts := Text.splitAll '\n' cs
  let bare := fun (l : List Char) => (Text.dropEnd? ['\r'] l).getD l
  parts.dropLast.map bare ++ parts.drop (parts.length - 1)

/-- Nothing but a comment is left of the line. -/
def isRest (cs : List Char) : Bool :=
  match skipSpace cs with
  | [] => true
  | '#' :: cs => cs.all isPlain
  | _ => false

/-! ### Texts -/

def hexChar? (digits : List Char) : Option Char := do
  let v := (← digits.mapM Text.hexValue?).foldl (fun v d => 16 * v + d) 0
  if v.isValidChar then some (Char.ofNat v) else none

/-- The text up to the closing quote, and what follows it. Nothing is escaped. -/
def literal? : List Char → Option (List Char × List Char)
  | [] => none
  | '\'' :: cs => some ([], cs)
  | c :: cs => if isPlain c then (literal? cs).map fun p => (c :: p.1, p.2) else none

def escapes : List (Char × Char) :=
  [('b', '\x08'), ('t', '\t'), ('n', '\n'), ('f', '\x0c'), ('r', '\r'), ('"', '"'), ('\\', '\\')]

/-- The text up to the closing quote, with its escapes replaced, and what follows it. -/
def basic? : List Char → Option (List Char × List Char)
  | [] => none
  | '"' :: cs => some ([], cs)
  | '\\' :: 'u' :: a :: b :: c :: d :: cs => do
    let x ← hexChar? [a, b, c, d]
    (basic? cs).map fun p => (x :: p.1, p.2)
  | '\\' :: 'U' :: a :: b :: c :: d :: e :: f :: g :: h :: cs => do
    let x ← hexChar? [a, b, c, d, e, f, g, h]
    (basic? cs).map fun p => (x :: p.1, p.2)
  | '\\' :: e :: cs =>
    match escapes.lookup e with
    | some x => (basic? cs).map fun p => (x :: p.1, p.2)
    | none => none
  | c :: cs => if isPlain c then (basic? cs).map fun p => (c :: p.1, p.2) else none

/-! ### Numbers -/

/-- A run of digits, without the single underscores that may stand between them. -/
def ungrouped? (isDigit : Char → Bool) : List Char → Option (List Char)
  | [] => none
  | [c] => if isDigit c then some [c] else none
  | c :: '_' :: cs => if isDigit c then (ungrouped? isDigit cs).map (c :: ·) else none
  | c :: cs => if isDigit c then (ungrouped? isDigit cs).map (c :: ·) else none

/-- Decimal digits without needless zeros in front. -/
def whole? (cs : List Char) : Option (List Char) :=
  (ungrouped? Char.isDigit cs).filter fun ds => ds.length = 1 || ds.head? ≠ some '0'

/-- An integer has a sign and 64 bits. -/
def bounded? (n : Int) : Option Setting :=
  if Setting.isSigned64 n then some (.integer n) else none

/-- The digits of a number in base 2, 8 or 16. -/
def based? (base : Nat) (cs : List Char) : Option Setting := do
  let ds ← ungrouped? (fun c => (Text.hexValue? c).any (· < base)) cs
  bounded? ((← ds.mapM Text.hexValue?).foldl (fun v d => base * v + d) 0 : Nat)

def isGrouped (c : Char) : Bool := c.isDigit || c = '_'

def fraction? : List Char → Option (List Char × List Char)
  | '.' :: cs =>
    (ungrouped? Char.isDigit (cs.takeWhile isGrouped)).map fun ds =>
      ('.' :: ds, cs.dropWhile isGrouped)
  | cs => some ([], cs)

def exponent? : List Char → Option (List Char)
  | [] => some []
  | c :: cs =>
    if c = 'e' ∨ c = 'E' then
      let (negative, cs) := Decimal.takeSign cs
      (ungrouped? Char.isDigit cs).map fun ds => ['e', if negative then '-' else '+'] ++ ds
    else none

def decimal? (negative : Bool) (cs : List Char) : Option Setting := do
  let whole ← whole? (cs.takeWhile isGrouped)
  let (fraction, cs) ← fraction? (cs.dropWhile isGrouped)
  let exponent ← exponent? cs
  let d ← Decimal.ofChars? (whole ++ fraction ++ exponent)
  if fraction = [] ∧ exponent = [] then bounded? (if negative then -(d.digits : Int) else d.digits)
  else
    match Double.ofDecimal { d with negative := negative } with
    | .infinite _ => none
    | x => some (.real x)

def number? (cs : List Char) : Option Setting :=
  let (negative, unsigned) := Decimal.takeSign cs
  match cs, unsigned with
  | '0' :: 'x' :: ds, _ => based? 16 ds
  | '0' :: 'o' :: ds, _ => based? 8 ds
  | '0' :: 'b' :: ds, _ => based? 2 ds
  | _, ['i', 'n', 'f'] => some (.real (.infinite negative))
  | _, ['n', 'a', 'n'] => some (.real .undefined)
  | _, _ => decimal? negative unsigned

/-! ### Documents -/

def value? : List Char → Option (Setting × List Char)
  | '"' :: cs => (basic? cs).map fun p => (.text (String.ofList p.1), p.2)
  | '\'' :: cs => (literal? cs).map fun p => (.text (String.ofList p.1), p.2)
  | cs => do
    let ends := fun c => isSpace c || c = '#'
    let word := cs.takeWhile fun c => !ends c
    let v ← match String.ofList word with
      | "true" => some (.flag true)
      | "false" => some (.flag false)
      | _ => number? word
    return (v, cs.dropWhile fun c => !ends c)

def isBare (c : Char) : Bool := c.isAlphanum || c = '_' || c = '-'

def name? : List Char → Option (String × List Char)
  | '"' :: cs => (basic? cs).map fun p => (String.ofList p.1, p.2)
  | '\'' :: cs => (literal? cs).map fun p => (String.ofList p.1, p.2)
  | cs =>
    let bare := cs.takeWhile isBare
    if bare = [] then none else some (String.ofList bare, cs.dropWhile isBare)

/-- A name and its value, with nothing behind them. -/
def entry? (cs : List Char) : Option (String × Setting) := do
  let (name, cs) ← name? (skipSpace cs)
  match skipSpace cs with
  | '=' :: cs =>
    let (v, cs) ← value? (skipSpace cs)
    if isRest cs then some (name, v) else none
  | _ => none

/-- The entries of some lines after those known so far, in reverse. -/
def entries? (known : List (String × Setting)) : List (List Char) → Option (List (String × Setting))
  | [] => some known
  | l :: ls =>
    if isRest l then entries? known ls
    else match entry? l with
      | none => none
      | some e => if known.any fun k => k.1 = e.1 then none else entries? (e :: known) ls

/-- The names and values of a document, if it is a flat one. -/
def ofText? (s : String) : Option (List (String × Setting)) :=
  (entries? [] (lines s.toList)).map List.reverse

example : ofText? "# ports\nname = 'a'  # a text\nage = 1_000\n" =
    some [("name", .text "a"), ("age", .integer 1000)] := by decide +kernel

example : ofText? "age = 1\nage = 2\n" = none := by decide +kernel

end ContainerPorts.Toml
