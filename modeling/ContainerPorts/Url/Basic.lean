import ContainerPorts.Url.Host
/-!
# URLs

A URL has a scheme, perhaps a host with credentials and a port, a path, and
perhaps a query and a fragment. The path is a list of segments, or a bare text
to which nothing can be relative. A port is left out if it is the usual one.
-/
namespace ContainerPorts

namespace Url

/-- The schemes are of three kinds: those of the web, that of files, and all others. -/
inductive SchemeKind where
  | web
  | file
  | other
  deriving DecidableEq, Repr

/-- The schemes of the web, each with its usual port. -/
def webSchemes : List (String × Nat) :=
  [("http", 80), ("https", 443), ("ws", 80), ("wss", 443), ("ftp", 21)]

def usualPort? (scheme : List Char) : Option Nat :=
  (webSchemes.find? fun s => s.1 = String.ofList scheme).map (·.2)

def SchemeKind.of (scheme : List Char) : SchemeKind :=
  if scheme = "file".toList then .file
  else if (usualPort? scheme).isSome then .web
  else .other

/-- Web and file URLs take a backslash for a slash and always have a path. -/
def SchemeKind.isSpecial : SchemeKind → Bool
  | .web => true
  | .file => true
  | .other => false

structure Authority where
  /-- A user name, perhaps with a colon and a password. -/
  credentials : List Char := []
  host : Host
  port : Option Nat := none
  deriving DecidableEq, Repr

inductive Path where
  /-- Every segment has a slash before it. -/
  | segments (ss : List (List Char))
  | bare (cs : List Char)
  deriving DecidableEq, Repr

end Url

structure Url where
  scheme : List Char
  authority : Option Url.Authority
  path : Url.Path
  query : Option (List Char) := none
  fragment : Option (List Char) := none
  deriving DecidableEq, Repr

namespace Url

def kind (u : Url) : SchemeKind := .of u.scheme

def Path.chars : Path → List Char
  | .segments ss => ss.flatMap fun s => '/' :: s
  | .bare cs => cs

def Authority.chars (a : Authority) : List Char :=
  (if a.credentials = [] then [] else a.credentials ++ ['@']) ++ a.host.chars ++
    match a.port with
    | some p => ':' :: Nat.toDigits 10 p
    | none => []

/-- What stands between the scheme and the path. A path that would read as a host is kept apart
from the scheme by a dot. -/
def middle (u : Url) : List Char :=
  match u.authority, u.path with
  | some a, _ => ['/', '/'] ++ a.chars
  | none, .segments ([] :: _ :: _) => ['/', '.']
  | none, _ => []

/-- A mark and the text that it begins, if there is one. -/
def part (mark : Char) (cs : Option (List Char)) : List Char :=
  match cs with
  | some cs => mark :: cs
  | none => []

def chars (u : Url) : List Char :=
  u.scheme ++ ':' :: u.middle ++ u.path.chars ++ part '?' u.query ++ part '#' u.fragment

def text (u : Url) : String := String.ofList u.chars

/-- The host, unless it is missing or empty. -/
def host? (u : Url) : Option Host :=
  match u.authority with
  | some a => if a.host.isEmpty then none else some a.host
  | none => none

/-- The port given, or else the usual one of the scheme. -/
def port? (u : Url) : Option Nat :=
  match u.authority.bind Authority.port with
  | some p => some p
  | none => usualPort? u.scheme

/-- What a server is asked for: the path and the query. -/
def target (u : Url) : String := String.ofList (u.path.chars ++ part '?' u.query)

end Url

end ContainerPorts
