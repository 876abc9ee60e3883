import UpdateArtifact.Bytes
import UpdateArtifact.Pieces

/-!
# Entry paths

The name field of a tar header holds 100 bytes.  A path is stored in it
component by component, so that a path which is refused half way has already
left its first components in the field.  A path that does not fit is kept
whole in an entry of its own, and its beginning is stored instead.
-/

namespace UpdateArtifact

namespace Tar

/-- Why a text cannot be stored in a header field. -/
inductive PathFault where
  | absolute
  | parentComponent
  | noComponent
  | nulByte
  | tooLong
  deriving DecidableEq

namespace PathFault

def message : PathFault → String
  | absolute => "paths in archives must be relative"
  | parentComponent => "paths in archives must not have \x60..\x60"
  | noComponent => "paths in archives must have at least one component"
  | nulByte => "provided value contains a nul byte"
  | tooLong => "provided value is too long"

end PathFault

namespace Path

def width : Nat := 100

def size : List Char → Nat
  | [] => 0
  | character :: rest => character.utf8Size + size rest

def here : List Char := ['.']

def above : List Char := ['.', '.']

/-- The components that are stored: empty ones and `.` are left out, except
that a path with no other component keeps a leading `.`. -/
def components (path : List Char) : List (List Char) :=
  let all := pieces '/' path
  let named := all.filter fun component => component ≠ [] ∧ component ≠ here
  if named = [] ∧ all.head? = some here then [here] else named

/-- Appends to what is stored, if there is room and no zero byte. -/
def append (stored characters : List Char) : Except PathFault (List Char) :=
  if width - size stored < size characters then .error .tooLong
  else if '\x00' ∈ characters then .error .nulByte
  else .ok (stored ++ characters)

/-- Appends pieces in turn.  Gives what is stored at the end or at the first
fault. -/
def appendAll (stored : List Char) : List (List Char) → List Char × Option PathFault
  | [] => (stored, none)
  | piece :: rest =>
      match append stored piece with
      | .error fault => (stored, some fault)
      | .ok stored => appendAll stored rest

/-- Stores components, with a slash between two of them.  A component `..` is
refused, except as the last one of a path that was cut. -/
def storeComponents (cut : Bool) (stored : List Char) :
    List (List Char) → List Char × Option PathFault
  | [] => (stored, none)
  | component :: rest =>
      if component = above ∧ ¬ (cut ∧ rest = []) then (stored, some .parentComponent)
      else
        match appendAll stored
            (if stored = [] then [component] else [['/'], component]) with
        | (stored, some fault) => (stored, some fault)
        | (stored, none) => storeComponents cut stored rest

/-- Stores a path in an empty field.  A slash at its end is kept. -/
def store (cut : Bool) (path : List Char) : List Char × Option PathFault :=
  if path.head? = some '/' then ([], some .absolute)
  else
    match storeComponents cut [] (components path) with
    | (stored, some fault) => (stored, some fault)
    | ([], none) => ([], some .noComponent)
    | (stored, none) =>
        if path.getLast? = some '/' then appendAll stored [['/']] else (stored, none)

/-- The longest beginning that has at most `room` bytes. -/
def cutTo (room : Nat) : List Char → List Char
  | [] => []
  | character :: rest =>
      if character.utf8Size ≤ room then character :: cutTo (room - character.utf8Size) rest
      else []

/-- The name field after storing characters at its start: a zero byte follows
them, and what the field held beyond it stays. -/
def overwrite (held : Bytes) (stored : List Char) : Bytes :=
  if stored = [] then held
  else
    let written := Bytes.utf8 (String.ofList stored)
    (written ++ 0 :: held.drop (written.length + 1)).take width

/-- How a path is represented in an archive. -/
structure Placement where
  name : Bytes
  /-- The content of an entry that holds the whole path, when the field does not. -/
  longName : Option Bytes
  deriving DecidableEq

/-- A refused path: the fault, and what the name field held by then. -/
structure Refused where
  fault : PathFault
  kept : String
  deriving DecidableEq

/-- Chooses the representation of a path.  Only a path as long as the field or
longer gets an entry of its own. -/
def place (path : String) : Except Refused Placement :=
  let characters := path.toList
  let blank := Bytes.zeros width
  match store false characters with
  | (stored, none) => .ok { name := overwrite blank stored, longName := none }
  | (stored, some fault) =>
      if size characters < width then .error { fault, kept := String.ofList stored }
      else
        match store true (cutTo width characters) with
        | (beginning, none) =>
            .ok
              { name := overwrite (overwrite blank stored) beginning
                longName := some (Bytes.utf8 path ++ [0]) }
        | (beginning, some fault) =>
            let kept := if beginning = [] then stored else beginning
            .error { fault, kept := String.ofList kept }

end Path

end Tar

end UpdateArtifact
