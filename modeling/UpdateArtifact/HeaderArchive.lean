import UpdateArtifact.Error
import UpdateArtifact.Json.Printer
import UpdateArtifact.Payload
import UpdateArtifact.Payload.Entry
import UpdateArtifact.Tar.Compressed

/-!
# The header archive

The description of an artifact: its header-info, the state scripts, and for
each payload a type-info and an empty meta-data file.  It is a compressed
container of its own.
-/

namespace UpdateArtifact

structure HeaderArchive where
  provides : Metadata
  depends : Metadata
  payloads : List (PayloadEntry × Payload)
  scripts : List (ScriptState × Bytes)

namespace HeaderArchive

def info (header : HeaderArchive) : Json :=
  .object
    [("payloads", .array (header.payloads.map fun (_, payload) =>
        .object [("type", .string payload.type)])),
      ("artifact_provides", header.provides.toJson),
      ("artifact_depends", header.depends.toJson)]

def optionalMember (name : String) (metadata : Option Metadata) : List (String × Json) :=
  (metadata.map fun metadata => (name, metadata.toJson)).toList

def typeInfo (payload : Payload) : Json :=
  .object
    (("type", .string payload.type) ::
      optionalMember "artifact_depends" payload.depends ++
      optionalMember "artifact_provides" payload.provides)

def document (value : Json) : Bytes :=
  Bytes.utf8 value.compact

def files (header : HeaderArchive) : List (String × Bytes) :=
  ("header-info", document header.info) ::
    header.scripts.map (fun (state, content) => (state.path, content)) ++
    header.payloads.flatMap fun (entry, payload) =>
      [(entry.headerDirectory ++ "/type-info", document (typeInfo payload)),
        (entry.headerDirectory ++ "/meta-data", [])]

/-- The first name that stands in a list twice. -/
def firstRepeated? : List String → List String → Option String
  | _, [] => none
  | seen, name :: rest =>
      if name ∈ seen then some name else firstRepeated? (name :: seen) rest

def assemble [Deflate] (header : HeaderArchive) (options : BuildOptions) :
    Except ArtifactError Bytes :=
  match firstRepeated? [] (header.payloads.map fun (entry, _) => entry.entryName) with
  | some name => .error (.validation (.duplicatePayload name))
  | none =>
      match (Tar.Container.start options).writeAll header.files with
      | .error fault => .error (.write fault)
      | .ok container => .ok (container.compress options)

end HeaderArchive

end UpdateArtifact
