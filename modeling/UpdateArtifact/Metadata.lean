import UpdateArtifact.Json.Value

/-!
# Metadata

The provides and depends of an artifact and of its payloads: values under
distinct keys, in the order in which the keys were first set.
-/

namespace UpdateArtifact

/-- Values under distinct keys, in order. -/
structure Metadata where
  members : List (String × Json)
  distinct : (members.map Prod.fst).Nodup

namespace Metadata

def empty : Metadata :=
  { members := [], distinct := by simp }

def keys (metadata : Metadata) : List String :=
  metadata.members.map Prod.fst

/-- Sets the value of a key: in its old place if it was there, else at the end. -/
def put (key : String) (value : Json) : List (String × Json) → List (String × Json)
  | [] => [(key, value)]
  | member :: rest =>
      if member.1 = key then (key, value) :: rest else member :: put key value rest

theorem map_fst_put (key : String) (value : Json) (members : List (String × Json)) :
    (put key value members).map Prod.fst =
      if key ∈ members.map Prod.fst then members.map Prod.fst
      else members.map Prod.fst ++ [key] := by
  induction members with
  | nil => simp [put]
  | cons member rest ih =>
      by_cases same : member.1 = key
      · simp [put, same]
      · have different : key ≠ member.1 := Ne.symm same
        simp only [put, same, if_false, List.map_cons, ih, List.mem_cons, different, false_or]
        split <;> simp

def insert (metadata : Metadata) (key : String) (value : Json) : Metadata :=
  { members := put key value metadata.members
    distinct := by
      rw [map_fst_put]
      split
      · exact metadata.distinct
      · next fresh =>
          exact List.nodup_append.mpr ⟨metadata.distinct, by simp, by
            intro held member other last same
            rw [List.mem_singleton] at last
            exact fresh (last ▸ same ▸ member)⟩ }

def ofList (members : List (String × Json)) : Metadata :=
  members.foldl (fun metadata member => metadata.insert member.1 member.2) empty

/-- Sets all keys of other metadata, in their order. -/
def extend (metadata other : Metadata) : Metadata :=
  other.members.foldl (fun metadata member => metadata.insert member.1 member.2) metadata

def toJson (metadata : Metadata) : Json :=
  .object metadata.members

theorem keys_insert (metadata : Metadata) (key : String) (value : Json) :
    (metadata.insert key value).keys =
      if key ∈ metadata.keys then metadata.keys else metadata.keys ++ [key] :=
  map_fst_put key value metadata.members

end Metadata

end UpdateArtifact
