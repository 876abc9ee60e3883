import UpdateArtifact.Json.Number

/-!
# JSON values

Documents are ordered: an object is the list of its members as they were
written, and printing keeps that order.
-/

namespace UpdateArtifact

inductive Json where
  | null
  | bool (value : Bool)
  | number (value : Json.Number)
  | string (value : String)
  | array (items : List Json)
  | object (members : List (String × Json))

namespace Json

instance : Inhabited Json := ⟨.null⟩

def whole (value : Int) : Json :=
  .number (.whole value)

/-- The value of the first member of that name. -/
def member? (name : String) : Json → Option Json
  | .object members => members.lookup name
  | _ => none

end Json

end UpdateArtifact
