import UpdateArtifact.Json.Value
import UpdateArtifact.Text.Quoted

/-!
# Describing JSON values

The form in which messages show a value: every part with the name of its kind,
and texts quoted.
-/

namespace UpdateArtifact

namespace Json

mutual

/-- A value as descriptions show it, with the name of its kind. -/
def describe : Json → List Char
  | .null => "Null".toList
  | .bool value => s!"Bool({value})".toList
  | .number value => "Number(".toList ++ value.text ++ [')']
  | .string value => s!"String({Quoted.quote value})".toList
  | .array items => "Array [".toList ++ describeItems items ++ [']']
  | .object members => "Object \x7b".toList ++ describeMembers members ++ ['\x7d']

def describeItems : List Json → List Char
  | [] => []
  | [item] => describe item
  | item :: next :: rest => describe item ++ ", ".toList ++ describeItems (next :: rest)

def describeMembers : List (String × Json) → List Char
  | [] => []
  | [(name, value)] => (Quoted.quote name).toList ++ ": ".toList ++ describe value
  | (name, value) :: next :: rest =>
      (Quoted.quote name).toList ++ ": ".toList ++ describe value ++ ", ".toList ++
        describeMembers (next :: rest)

end

end Json

end UpdateArtifact
