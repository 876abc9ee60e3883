import UpdateArtifact.Json.Lexer
import UpdateArtifact.Options.Overrides
import UpdateArtifact.Text.Quoted

/-!
# Reading overrides

Overrides are written as a JSON object with any of the four fields, or as an
array of all four in order.  A field that is null is absent.  The text is read
once from the left, and the first fault found decides: a key is judged before
its value, and nothing after a fault is looked at.
-/

namespace UpdateArtifact

namespace Overrides

inductive Field where
  | compressionLevel
  | readBlockSize
  | ownerName
  | formatVersion
  deriving DecidableEq

namespace Field

/-- The fields in the order of the array form. -/
def all : List Field :=
  [compressionLevel, readBlockSize, ownerName, formatVersion]

def name : Field → String
  | compressionLevel => "compression_level"
  | readBlockSize => "read_block_size"
  | ownerName => "owner_name"
  | formatVersion => "format_version"

def ofName? (text : String) : Option Field :=
  all.find? fun field => field.name = text

end Field

/-- What a place in the text asks for. -/
inductive Expectation where
  | word32
  | word64
  | text
  | overrides
  deriving DecidableEq

def Expectation.message : Expectation → String
  | word32 => "u32"
  | word64 => "usize"
  | text => "a string"
  | overrides => "struct BuildOptionsOverrides"

/-- What stands in a place instead. -/
inductive Found where
  | null
  | boolean (value : Bool)
  | number (value : Json.Number)
  | text (value : String)
  | sequence
  | map
  deriving DecidableEq

def Found.message : Found → String
  | null => "null"
  | boolean value => s!"boolean \x60{value}\x60"
  | number (.whole value) => s!"integer \x60{value}\x60"
  | number (.double value) =>
      s!"floating point \x60{String.ofList (Json.Number.doubleText value)}\x60"
  | text value => s!"string {Quoted.quote value}"
  | sequence => "sequence"
  | map => "map"

/-- JSON that does not describe overrides. -/
inductive Mismatch where
  | unknownField (key : String)
  | duplicateField (field : Field)
  | invalidType (found : Found) (expected : Expectation)
  | invalidValue (value : Int) (expected : Expectation)
  | invalidLength (count : Nat)
  deriving DecidableEq

def Mismatch.message : Mismatch → String
  | unknownField key =>
      let known := ", ".intercalate (Field.all.map fun field => s!"\x60{field.name}\x60")
      s!"unknown field \x60{key}\x60, expected one of {known}"
  | duplicateField field => s!"duplicate field \x60{field.name}\x60"
  | invalidType found expected => s!"invalid type: {found.message}, expected {expected.message}"
  | invalidValue value expected =>
      s!"invalid value: integer \x60{value}\x60, expected {expected.message}"
  | invalidLength count =>
      s!"invalid length {count}, expected {Expectation.overrides.message} with 4 elements"

inductive Fault where
  | text (fault : Json.Fault)
  /-- What is read so far does not describe overrides. -/
  | mismatch (mismatch : Mismatch)
  deriving DecidableEq

namespace Reader

def lexical {α : Type} (reading : Except Json.Fault α) : Except Fault α :=
  reading.mapError .text

/-- The fault of a place that holds something else than expected.  What it
holds is read first, and may be no JSON at all. -/
def wrongType (expected : Expectation) (text : List Char) : Fault :=
  let found : Except Json.Fault Found :=
    match text with
    | 'n' :: rest => (Json.Lexer.word "ull".toList rest).map fun _ => .null
    | 't' :: rest => (Json.Lexer.word "rue".toList rest).map fun _ => .boolean true
    | 'f' :: rest => (Json.Lexer.word "alse".toList rest).map fun _ => .boolean false
    | '"' :: rest => (Json.Lexer.string rest).map fun (value, _) => .text value
    | '[' :: _ => .ok .sequence
    | '\x7b' :: _ => .ok .map
    | character :: _ =>
        if character = '-' || Json.Lexer.isDigit character then
          (Json.Lexer.number text).map fun (value, _) => .number value
        else .error .malformed
    | [] => .error .unfinished
  match found with
  | .ok found => .mismatch (.invalidType found expected)
  | .error fault => .text fault

def bounded (expected : Expectation) (limit : Nat) (text : List Char) :
    Except Fault (Nat × List Char) :=
  let starts := text.head?.any fun character => character = '-' || Json.Lexer.isDigit character
  if ¬ starts then .error (wrongType expected text)
  else
    match Json.Lexer.number text with
    | .error fault => .error (.text fault)
    | .ok (.double value, _) => .error (.mismatch (.invalidType (.number (.double value)) expected))
    | .ok (.whole value, rest) =>
        if 0 ≤ value ∧ value < limit then .ok (value.toNat, rest)
        else .error (.mismatch (.invalidValue value expected))

def text : List Char → Except Fault (String × List Char)
  | '"' :: rest => lexical (Json.Lexer.string rest)
  | other => .error (wrongType .text other)

/-- Reads null or what the reader takes, after blanks. -/
def optional {α : Type} (reader : List Char → Except Fault (α × List Char)) (text : List Char) :
    Except Fault (Option α × List Char) :=
  match Json.Lexer.skipBlanks text with
  | [] => .error (.text .unfinished)
  | 'n' :: rest => (lexical (Json.Lexer.word "ull".toList rest)).map (none, ·)
  | text => (reader text).map fun (value, rest) => (some value, rest)

def value (field : Field) (overrides : Overrides) (text : List Char) :
    Except Fault (Overrides × List Char) :=
  match field with
  | .compressionLevel =>
      (optional (bounded .word32 0x100000000) text).map fun (value, rest) =>
        ({ overrides with compressionLevel := value }, rest)
  | .readBlockSize =>
      (optional (bounded .word64 0x10000000000000000) text).map fun (value, rest) =>
        ({ overrides with readBlockSize := value }, rest)
  | .ownerName =>
      (optional Reader.text text).map fun (value, rest) =>
        ({ overrides with ownerName := value }, rest)
  | .formatVersion =>
      (optional (bounded .word32 0x100000000) text).map fun (value, rest) =>
        ({ overrides with formatVersion := value }, rest)

/-- Reads the elements of an array for the given fields, after `count` others,
up to the closing bracket. -/
def elements (count : Nat) (overrides : Overrides) :
    List Field → List Char → Except Fault (Overrides × List Char)
  | [], text =>
      match Json.Lexer.skipBlanks text with
      | [] => .error (.text .unfinished)
      | ']' :: rest => .ok (overrides, rest)
      | _ :: _ => .error (.text .malformed)
  | field :: fields, text =>
      match Json.Lexer.skipBlanks text with
      | [] => .error (.text .unfinished)
      | ']' :: _ => .error (.mismatch (.invalidLength count))
      | character :: rest =>
          let element : Except Fault (List Char) :=
            if count = 0 then .ok (character :: rest)
            else if character ≠ ',' then .error (.text .malformed)
            else
              match Json.Lexer.skipBlanks rest with
              | [] => .error (.text .unfinished)
              | ']' :: _ => .error (.text .malformed)
              | rest => .ok rest
          match element with
          | .error fault => .error fault
          | .ok text =>
              match value field overrides text with
              | .error fault => .error fault
              | .ok (overrides, rest) => elements (count + 1) overrides fields rest

/-- Reads the members of an object up to the closing brace.  `unset` are the
fields that may still come, so each round uses one up. -/
def members (overrides : Overrides) (unset : List Field) (first : Bool) (text : List Char) :
    Except Fault (Overrides × List Char) :=
  match Json.Lexer.skipBlanks text with
  | [] => .error (.text .unfinished)
  | '\x7d' :: rest => .ok (overrides, rest)
  | character :: rest =>
      let key : Except Fault (List Char) :=
        if first then .ok (character :: rest)
        else if character ≠ ',' then .error (.text .malformed)
        else .ok (Json.Lexer.skipBlanks rest)
      match key with
      | .error fault => .error fault
      | .ok [] => .error (.text .unfinished)
      | .ok ('"' :: rest) =>
          match Json.Lexer.string rest with
          | .error fault => .error (.text fault)
          | .ok (name, rest) =>
              match Field.ofName? name with
              | none => .error (.mismatch (.unknownField name))
              | some field =>
                  if _ : field ∈ unset then
                    match Json.Lexer.skipBlanks rest with
                    | [] => .error (.text .unfinished)
                    | ':' :: rest =>
                        match value field overrides rest with
                        | .error fault => .error fault
                        | .ok (overrides, rest) =>
                            members overrides (unset.erase field) false rest
                    | _ :: _ => .error (.text .malformed)
                  else .error (.mismatch (.duplicateField field))
      | .ok (_ :: _) => .error (.text .malformed)
termination_by unset.length
decreasing_by
  have member : field ∈ unset := ‹_›
  have positive : 0 < unset.length := List.length_pos_of_mem member
  rw [List.length_erase_of_mem member]
  omega

end Reader

def parse (text : String) : Except Fault Overrides := do
  let body := Json.Lexer.skipBlanks text.toList
  let (overrides, rest) ←
    match body with
    | [] => .error (.text .unfinished)
    | '[' :: rest => Reader.elements 0 {} Field.all rest
    | '\x7b' :: rest => Reader.members {} Field.all true rest
    | _ => .error (Reader.wrongType .overrides body)
  match Json.Lexer.skipBlanks rest with
  | [] => return overrides
  | _ :: _ => .error (.text .malformed)

end Overrides

end UpdateArtifact
