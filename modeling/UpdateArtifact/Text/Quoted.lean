import UpdateArtifact.Text.Unprintable

/-!
# Quoted texts

The form in which messages show a text: between double quotes, with the
characters that could not be told apart on a terminal escaped.
-/

namespace UpdateArtifact

namespace Quoted

def hexNumeral (value : Nat) : List Char :=
  Nat.toDigits 16 value

def escape (character : Char) : List Char :=
  if character = '"' then ['\\', '"']
  else if character = '\\' then ['\\', '\\']
  else if character = '\x00' then ['\\', '0']
  else if character = '\t' then ['\\', 't']
  else if character = '\n' then ['\\', 'n']
  else if character = '\r' then ['\\', 'r']
  else if Unprintable.contains character then
    ['\\', 'u', '\x7b'] ++ hexNumeral character.toNat ++ ['\x7d']
  else [character]

def quote (text : String) : String :=
  String.ofList ('"' :: text.toList.flatMap escape ++ ['"'])

end Quoted

end UpdateArtifact
