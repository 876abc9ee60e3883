import UpdateArtifact.Json.Lexer
import UpdateArtifact.Json.Value

/-!
# Reading JSON

A reader for whole documents.  Its depth of recursion is bounded by the length
of the text, since every value takes at least one character.
-/

namespace UpdateArtifact

namespace Json

namespace Reader

mutual

/-- Reads one value; blanks before it are skipped. -/
def value : Nat → List Char → Except Fault (Json × List Char)
  | 0, _ => .error .malformed
  | fuel + 1, text =>
      match Lexer.skipBlanks text with
      | [] => .error .unfinished
      | 'n' :: rest => do
          let rest ← Lexer.word "ull".toList rest
          return (.null, rest)
      | 't' :: rest => do
          let rest ← Lexer.word "rue".toList rest
          return (.bool true, rest)
      | 'f' :: rest => do
          let rest ← Lexer.word "alse".toList rest
          return (.bool false, rest)
      | '"' :: rest => do
          let (text, rest) ← Lexer.string rest
          return (.string text, rest)
      | '[' :: rest =>
          match Lexer.skipBlanks rest with
          | ']' :: rest => .ok (.array [], rest)
          | _ => do
              let (items, rest) ← items fuel rest
              return (.array items, rest)
      | '\x7b' :: rest =>
          match Lexer.skipBlanks rest with
          | '\x7d' :: rest => .ok (.object [], rest)
          | _ => do
              let (members, rest) ← members fuel rest
              return (.object members, rest)
      | character :: rest =>
          if character = '-' || Lexer.isDigit character then do
            let (found, rest) ← Lexer.number (character :: rest)
            return (.number found, rest)
          else .error .malformed

/-- Reads array items up to the closing bracket; at least one is expected. -/
def items : Nat → List Char → Except Fault (List Json × List Char)
  | 0, _ => .error .malformed
  | fuel + 1, text => do
      let (item, rest) ← value fuel text
      match Lexer.skipBlanks rest with
      | [] => .error .unfinished
      | ']' :: rest => return ([item], rest)
      | ',' :: rest => do
          let (more, rest) ← items fuel rest
          return (item :: more, rest)
      | _ :: _ => .error .malformed

/-- Reads members up to the closing brace; at least one is expected. -/
def members : Nat → List Char →
    Except Fault (List (String × Json) × List Char)
  | 0, _ => .error .malformed
  | fuel + 1, text =>
      match Lexer.skipBlanks text with
      | [] => .error .unfinished
      | '"' :: rest => do
          let (name, rest) ← Lexer.string rest
          match Lexer.skipBlanks rest with
          | [] => .error .unfinished
          | ':' :: rest => do
              let (item, rest) ← value fuel rest
              match Lexer.skipBlanks rest with
              | [] => .error .unfinished
              | '\x7d' :: rest => return ([(name, item)], rest)
              | ',' :: rest => do
                  let (more, rest) ← members fuel rest
                  return ((name, item) :: more, rest)
              | _ :: _ => .error .malformed
          | _ :: _ => .error .malformed
      | _ :: _ => .error .malformed

end

end Reader

/-- Reads a document: one value, with blanks around it and nothing else. -/
def parse (text : String) : Except Fault Json := do
  let characters := text.toList
  let (value, rest) ← Reader.value (2 * characters.length + 1) characters
  match Lexer.skipBlanks rest with
  | [] => return value
  | _ :: _ => .error .malformed

end Json

end UpdateArtifact
