import ContainerPorts.Text.Split
import ContainerPorts.Url.Basic
/-!
# Reading URLs

A text is read by itself or relative to another URL. Spaces around it and line
ends and tabs within it do not count. Segments of one dot are dropped, segments
of two dots drop the one before them; a dot may be percent-encoded.
-/
namespace ContainerPorts.Url

/-- What is left of a text when the characters that do not count are gone. -/
def significant (s : String) : List Char :=
  let isSpace := fun (c : Char) => c.toNat ≤ 0x20
  let cs := s.toList.dropWhile isSpace
  let cs := (cs.reverse.dropWhile isSpace).reverse
  cs.filter fun c => c ≠ '\t' && c ≠ '\n' && c ≠ '\r'

/-! ### Which characters are kept -/

def keepExcept (encoded : List Char) (c : Char) : Bool := Host.isPrintable c && c ∉ encoded

def fragmentEncoded : List Char := [' ', '"', '<', '>', '`']

def pathEncoded : List Char := fragmentEncoded ++ ['#', '?', '\x7b', '\x7d']

def credentialsEncoded : List Char :=
  pathEncoded ++ ['/', ':', ';', '=', '@', '[', '\\', ']', '^', '|']

def queryEncoded (k : SchemeKind) : List Char :=
  [' ', '"', '#', '<', '>'] ++ if k.isSpecial then ['\''] else []

/-! ### Paths -/

def isSlash (k : SchemeKind) (c : Char) : Bool := c = '/' || (k.isSpecial && c = '\\')

/-- The parts between slashes. -/
def slashParts (k : SchemeKind) (cs : List Char) : List (List Char) :=
  Text.splitAll '/' (cs.map fun c => if isSlash k c then '/' else c)

/-- The number of dots that a segment of nothing but dots has. -/
def dots? : List Char → Option Nat
  | [] => some 0
  | '.' :: cs => (dots? cs).map (· + 1)
  | '%' :: '2' :: 'e' :: cs => (dots? cs).map (· + 1)
  | '%' :: '2' :: 'E' :: cs => (dots? cs).map (· + 1)
  | _ => none

/-- Walk along segments, starting below the segments that have been walked already. -/
def walk (done : List (List Char)) : List (List Char) → List (List Char)
  | [] => done
  | [s] => match dots? s with
    | some 1 => done ++ [[]]
    | some 2 => done.dropLast ++ [[]]
    | _ => done ++ [s]
  | s :: t :: rest => match dots? s with
    | some 1 => walk done (t :: rest)
    | some 2 => walk done.dropLast (t :: rest)
    | _ => walk (done ++ [s]) (t :: rest)

/-- Empty segments at the beginning of the path of a file do not count. -/
def trimmed (k : SchemeKind) (ss : List (List Char)) : List (List Char) :=
  if k = .file then
    match ss.dropWhile List.isEmpty with
    | [] => [[]]
    | ss => ss
  else ss

/-- The segments of a path below others. -/
def segmentsBelow (k : SchemeKind) (done : List (List Char)) (cs : List Char) : List (List Char) :=
  trimmed k (walk done ((slashParts k cs).map (Percent.encode (keepExcept pathEncoded))))

/-- A path that follows a host. -/
def pathAfterHost (k : SchemeKind) (cs : List Char) : List (List Char) :=
  match cs with
  | [] => if k.isSpecial then [[]] else []
  | c :: rest => segmentsBelow k [] (if isSlash k c then rest else cs)

/-! ### Query and fragment -/

def isTailMark (c : Char) : Bool := c = '?' || c = '#'

/-- A text up to its query or fragment, and the rest. -/
def cutTail (cs : List Char) : List Char × List Char :=
  (cs.takeWhile fun c => !isTailMark c, cs.dropWhile fun c => !isTailMark c)

def readFragment (cs : List Char) : List Char := Percent.encode (keepExcept fragmentEncoded) cs

/-- The query and the fragment that a text beginning with their marks gives. -/
def readTail (k : SchemeKind) (cs : List Char) : Option (List Char) × Option (List Char) :=
  match cs with
  | '?' :: rest =>
    let query := Percent.encode (keepExcept (queryEncoded k)) (rest.takeWhile (· ≠ '#'))
    match rest.dropWhile (· ≠ '#') with
    | _ :: fragment => (some query, some (readFragment fragment))
    | [] => (some query, none)
  | '#' :: rest => (none, some (readFragment rest))
  | _ => (none, none)

def withTail (u : Url) (cs : List Char) : Url :=
  let (query, fragment) := readTail u.kind cs
  { u with query := query, fragment := fragment }

/-! ### Hosts -/

/-- What stands before and after the last at sign. -/
def cutCredentials (cs : List Char) : Option (List Char × List Char) :=
  (Text.cutOnce '@' cs.reverse).map fun p => (p.2.reverse, p.1.reverse)

/-- A user name and perhaps a password; an empty password is dropped. -/
def readCredentials (cs : List Char) : List Char :=
  let enc := Percent.encode (keepExcept credentialsEncoded)
  match Text.cutOnce ':' cs with
  | none => enc cs
  | some (user, []) => enc user
  | some (user, password) => enc user ++ ':' :: enc password

/-- The text of a host, which ends at a colon outside of brackets. -/
def cutHost (inBrackets : Bool) : List Char → List Char × List Char
  | [] => ([], [])
  | c :: cs =>
    if c = ':' ∧ inBrackets = false then ([], c :: cs)
    else
      let inBrackets := if c = '[' then true else if c = ']' then false else inBrackets
      let (host, rest) := cutHost inBrackets cs
      (c :: host, rest)

/-- A port, and what follows it. The usual port of the scheme is none. -/
def readPort (scheme cs : List Char) : Except UrlError (Option Nat × List Char) :=
  let digits := cs.takeWhile Char.isDigit
  let rest := cs.dropWhile Char.isDigit
  if !rest.head?.all (fun c => c = '/' || c = '\\' || isTailMark c) then .error .invalidPort
  else if digits = [] then .ok (none, rest)
  else match Text.readDigits? 65535 digits with
    | none => .error .invalidPort
    | some p => .ok (if usualPort? scheme = some p then none else some p, rest)

def readHost (k : SchemeKind) (cs : List Char) : Except UrlError Host :=
  if k.isSpecial then Host.read cs else Host.readVerbatim cs

/-- Whether a character ends what stands after two slashes. -/
def endsAuthority (k : SchemeKind) (c : Char) : Bool := isSlash k c || isTailMark c

/-- A host with a port, and what follows them; an empty host has no port. -/
def readHostAndPort (scheme cs : List Char) :
    Except UrlError (Host × Option Nat × List Char) := do
  let (hostChars, rest) := cutHost false cs
  let host ← readHost (.of scheme) hostChars
  match rest with
  | ':' :: digits =>
    if host.isEmpty then throw .emptyHost
    let (port, rest) ← readPort scheme digits
    return (host, port, rest)
  | rest => return (host, none, rest)

/-- A text after two slashes. -/
def readAfterSlashes (scheme cs : List Char) : Except UrlError Url := do
  let k := SchemeKind.of scheme
  let place := cs.takeWhile fun c => !endsAuthority k c
  let behind := cs.dropWhile fun c => !endsAuthority k c
  let (credentials, place) ← match cutCredentials place with
    | none => .ok ([], place)
    | some ([], []) => if behind = [] then .ok ([], []) else .error .emptyHost
    | some (user, place) => .ok (readCredentials user, place)
  let (host, port, rest) ← readHostAndPort scheme place
  if host.isEmpty && credentials ≠ [] then throw .emptyHost
  let (path, tail) := cutTail (rest ++ behind)
  let u : Url := ⟨scheme, some ⟨credentials, host, port⟩, .segments (pathAfterHost k path), none, none⟩
  return u.withTail tail

/-! ### Files -/

/-- The host of a file; the own host is not named. -/
def readFileHost (cs : List Char) : Except UrlError Host := do
  if cs = [] then return .empty
  let host ← Host.read cs
  return if host = .name "localhost".toList then .empty else host

def fileUrl (host : Host) (segments : List (List Char)) (tail : List Char) : Url :=
  let u : Url := ⟨"file".toList, some { host := host }, .segments segments, none, none⟩
  u.withTail tail

/-- A file without a base, after its scheme. -/
def readFile (cs : List Char) : Except UrlError Url := do
  let (front, tail) := cutTail cs
  match front with
  | c :: d :: rest =>
    if isSlash .file c && isSlash .file d then
      let host ← readFileHost (rest.takeWhile fun c => !isSlash .file c)
      let path := rest.dropWhile fun c => !isSlash .file c
      return fileUrl host (pathAfterHost .file path) tail
    return fileUrl .empty (segmentsBelow .file [] front) tail
  | front => return fileUrl .empty (segmentsBelow .file [] front) tail

/-! ### Texts with and without a scheme -/

def isSchemeChar (c : Char) : Bool := c.isAlphanum || c = '+' || c = '-' || c = '.'

/-- A scheme in lower case and what follows its colon. -/
def cutScheme (cs : List Char) : Option (List Char × List Char) := do
  let c ← cs.head?
  guard c.isAlpha
  match cs.dropWhile isSchemeChar with
  | ':' :: rest => return ((cs.takeWhile isSchemeChar).map Char.toLower, rest)
  | _ => none

/-- A text of some other scheme, after the scheme. -/
def readOther (scheme cs : List Char) : Except UrlError Url :=
  match cs with
  | '/' :: '/' :: rest => readAfterSlashes scheme rest
  | _ =>
    let (front, tail) := cutTail cs
    let path := match front with
      | '/' :: rest => Path.segments (segmentsBelow .other [] rest)
      | _ => Path.bare (Percent.encode Host.isPrintable front)
    let u : Url := ⟨scheme, none, path, none, none⟩
    .ok (u.withTail tail)

/-- A text after its scheme, read by itself. -/
def readSchemed (scheme cs : List Char) : Except UrlError Url :=
  match SchemeKind.of scheme with
  | .web => readAfterSlashes scheme (cs.dropWhile (isSlash .web))
  | .file => readFile cs
  | .other => readOther scheme cs

def isAnySlash (c : Char) : Bool := c = '/' || c = '\\'

/-- The segments that a relative path starts from: all but the last. -/
def Path.above : Path → List (List Char)
  | .segments ss => ss.dropLast
  | .bare _ => []

/-- A text without a scheme, relative to a URL that is no file. -/
def readRelative (base : Url) (cs : List Char) : Except UrlError Url :=
  match cs with
  | [] => .ok { base with fragment := none }
  | '?' :: _ => .ok (base.withTail cs)
  | '#' :: rest => .ok { base with fragment := some (readFragment rest) }
  | c :: rest =>
    if isAnySlash c && rest.head?.any isAnySlash then
      match cs with
      | '/' :: '/' :: rest => readAfterSlashes base.scheme rest
      | _ => readAfterSlashes base.scheme (cs.dropWhile isAnySlash)
    else
      let (front, tail) := cutTail cs
      let segments := if isAnySlash c then segmentsBelow base.kind [] (front.drop 1)
        else segmentsBelow base.kind base.path.above front
      .ok ({ base with path := .segments segments }.withTail tail)

/-- A text without a scheme, relative to a file. -/
def readFileRelative (base : Url) (cs : List Char) : Except UrlError Url :=
  match cs with
  | [] => .ok { base with fragment := none }
  | '?' :: _ => .ok (base.withTail cs)
  | '#' :: rest => .ok { base with fragment := some (readFragment rest) }
  | c :: rest =>
    if isAnySlash c && rest.head?.any isAnySlash then readFile cs
    else
      let (front, tail) := cutTail cs
      let done := if isAnySlash c then [] else base.path.above
      .ok ({ base with path := .segments (segmentsBelow .file done front) }.withTail tail)

def isBare (u : Url) : Bool :=
  match u.path with
  | .bare _ => true
  | .segments _ => false

/-- Read a text by itself. -/
def read (s : String) : Except UrlError Url :=
  match cutScheme (significant s) with
  | some (scheme, rest) => readSchemed scheme rest
  | none => .error .relativeWithoutBase

/-- Read a text relative to a base. -/
def join (base : Url) (s : String) : Except UrlError Url :=
  let cs := significant s
  match cutScheme cs with
  | some (scheme, rest) =>
    if base.scheme = scheme && base.kind = .web && (rest.takeWhile isAnySlash).length < 2 then
      readRelative base rest
    else if base.scheme = scheme && base.kind = .file then readFileRelative base rest
    else readSchemed scheme rest
  | none =>
    if base.isBare && cs.head? ≠ some '#' then .error .relativeToBarePath
    else if base.kind = .file then readFileRelative base cs
    else readRelative base cs

example : (read "HTTP://User@Host:80/a/../b c?x#y").toOption.map text =
    some "http://User@host/b%20c?x#y" := by decide +kernel

example : (do (← read "http://h/v3/x").join "../auth?y" : Except UrlError Url).toOption.map text =
    some "http://h/auth?y" := by decide +kernel

end ContainerPorts.Url
