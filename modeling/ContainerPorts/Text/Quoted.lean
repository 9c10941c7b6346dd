import ContainerPorts.Text.Shapeless
/-!
# Quoted text

A quoted text stands between double quotes. Quotes and backslashes are escaped,
tab, line feed, carriage return and NUL have letters, and every other character
that shows no shape of its own is written by its number in hexadecimal.
-/
namespace ContainerPorts.Text

def quotedChar (c : Char) : List Char :=
  if c = '"' then ['\\', '"']
  else if c = '\\' then ['\\', '\\']
  else if c = '\n' then ['\\', 'n']
  else if c = '\t' then ['\\', 't']
  else if c = '\r' then ['\\', 'r']
  else if c = '\x00' then ['\\', '0']
  else if isShapeless c then ['\\', 'u', '\x7b'] ++ Nat.toDigits 16 c.toNat ++ ['\x7d']
  else [c]

def quoted (s : String) : String :=
  String.ofList ('"' :: s.toList.flatMap quotedChar ++ ['"'])

end ContainerPorts.Text
