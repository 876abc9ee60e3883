import UpdateArtifact.Hex
import UpdateArtifact.Json.Value

/-!
# Printing JSON

The compact form: no blanks, members in order, and in strings only the quote,
the backslash and the control characters escaped.
-/

namespace UpdateArtifact

namespace Json

/-- The characters that stand for one character inside a string. -/
def escape (character : Char) : List Char :=
  if character = '"' then ['\\', '"']
  else if character = '\\' then ['\\', '\\']
  else if character = '\x08' then ['\\', 'b']
  else if character = '\x0c' then ['\\', 'f']
  else if character = '\n' then ['\\', 'n']
  else if character = '\r' then ['\\', 'r']
  else if character = '\t' then ['\\', 't']
  else if character.toNat < 32 then
    ['\\', 'u', '0', '0', Hex.digit (character.toNat / 16), Hex.digit (character.toNat % 16)]
  else [character]

def quote (text : String) : List Char :=
  '"' :: text.toList.flatMap escape ++ ['"']

mutual

def render : Json → List Char
  | .null => ['n', 'u', 'l', 'l']
  | .bool true => ['t', 'r', 'u', 'e']
  | .bool false => ['f', 'a', 'l', 's', 'e']
  | .number value => value.text
  | .string value => quote value
  | .array items => '[' :: renderItems items ++ [']']
  | .object members => '\x7b' :: renderMembers members ++ ['\x7d']

def renderItems : List Json → List Char
  | [] => []
  | [item] => render item
  | item :: next :: rest => render item ++ ',' :: renderItems (next :: rest)

def renderMembers : List (String × Json) → List Char
  | [] => []
  | [(name, value)] => quote name ++ ':' :: render value
  | (name, value) :: next :: rest =>
      quote name ++ ':' :: render value ++ ',' :: renderMembers (next :: rest)

end

def compact (value : Json) : String :=
  String.ofList value.render

end Json

end UpdateArtifact
