import ContainerPorts.Url.Basic
/-!
# Queries made of pairs

A query may be a list of names with values. In both of them letters, digits and
four marks stand for themselves, a plus sign stands for a space, and all else is
percent-encoded. No two lists of pairs have the same written form.
-/
namespace ContainerPorts.Url

def isFormChar (c : Char) : Bool :=
  c.isAlphanum || c = '*' || c = '-' || c = '.' || c = '_'

def formChars (cs : List Char) : List Char :=
  cs.flatMap fun c => if c = ' ' then ['+'] else Percent.encodeChar isFormChar c

def pairChars (pair : String × String) : List Char :=
  formChars pair.1.toList ++ '=' :: formChars pair.2.toList

/-- The pairs with ampersands between them. -/
def pairsChars : List (String × String) → List Char
  | [] => []
  | [p] => pairChars p
  | p :: ps => pairChars p ++ '&' :: pairsChars ps

/-- The URL with pairs added to its query. -/
def withPairs (u : Url) (pairs : List (String × String)) : Url :=
  match pairs with
  | [] => u
  | pairs => match u.query with
    | some (c :: cs) => { u with query := some (c :: cs ++ '&' :: pairsChars pairs) }
    | _ => { u with query := some (pairsChars pairs) }

end ContainerPorts.Url
