import UpdateArtifact.Hex
import UpdateArtifact.Json.Number

/-!
# Lexical elements of JSON

Readers for blanks, words, strings and numbers.  Each takes the characters
ahead and gives what it read, paired with the characters that follow.  Faults tell a
text that breaks the grammar from one that ends too early.
-/

namespace UpdateArtifact

namespace Json

inductive Fault where
  /-- The grammar is broken at some character. -/
  | malformed
  /-- The text ends inside a value. -/
  | unfinished
  deriving DecidableEq

namespace Lexer

def isBlank (character : Char) : Bool :=
  character = ' ' || character = '\n' || character = '\t' || character = '\r'

def skipBlanks (text : List Char) : List Char :=
  text.dropWhile isBlank

def word : List Char → List Char → Except Fault (List Char)
  | [], text => .ok text
  | _ :: _, [] => .error .unfinished
  | expected :: rest, character :: text =>
      if character = expected then word rest text else .error .malformed

/-- The number written by four hexadecimal digits. -/
def fourDigits? (first second third fourth : Char) : Option Nat := do
  let a ← Hex.digitValue? first
  let b ← Hex.digitValue? second
  let c ← Hex.digitValue? third
  let d ← Hex.digitValue? fourth
  return ((a * 16 + b) * 16 + c) * 16 + d

/-- The fault of an escape whose four digits are not all there: the text has
ended only if fewer than four bytes are left. -/
def shortEscape (rest : List Char) : Fault :=
  if (Bytes.utf8 (String.ofList rest)).length < 4 then .unfinished else .malformed

/-- The character that a backslash and one more character stand for. -/
def simpleEscape? : Char → Option Char
  | '"' => some '"'
  | '\\' => some '\\'
  | '/' => some '/'
  | 'b' => some '\x08'
  | 'f' => some '\x0c'
  | 'n' => some '\n'
  | 'r' => some '\r'
  | 't' => some '\t'
  | _ => none

/-- Puts a character before what a string reader found. -/
def prepend (character : Char) (rest : Except Fault (List Char × List Char)) :
    Except Fault (List Char × List Char) :=
  rest.map fun (characters, text) => (character :: characters, text)

/-- The second half of a surrogate pair is missing: the text has ended, or
something else stands in its place. -/
def missingHalf : List Char → Fault
  | [] => .unfinished
  | ['\\'] => .unfinished
  | '\\' :: 'u' :: rest => shortEscape rest
  | _ => .malformed

/-- Reads the rest of a string after its opening quote. -/
def stringBody : List Char → Except Fault (List Char × List Char)
  | [] => .error .unfinished
  | '"' :: text => .ok ([], text)
  | '\\' :: 'u' :: first :: second :: third :: fourth :: text =>
      match fourDigits? first second third fourth with
      | none => .error .malformed
      | some unit =>
          if 0xDC00 ≤ unit ∧ unit ≤ 0xDFFF then .error .malformed
          else if 0xD800 ≤ unit ∧ unit ≤ 0xDBFF then
            match text with
            | '\\' :: 'u' :: fifth :: sixth :: seventh :: eighth :: text =>
                match fourDigits? fifth sixth seventh eighth with
                | none => .error .malformed
                | some low =>
                    if 0xDC00 ≤ low ∧ low ≤ 0xDFFF then
                      prepend (Char.ofNat (0x10000 + (unit - 0xD800) * 0x400 + (low - 0xDC00)))
                        (stringBody text)
                    else .error .malformed
            | text => .error (missingHalf text)
          else prepend (Char.ofNat unit) (stringBody text)
  | '\\' :: 'u' :: text => .error (shortEscape text)
  | ['\\'] => .error .unfinished
  | '\\' :: escaped :: text =>
      match simpleEscape? escaped with
      | some character => prepend character (stringBody text)
      | none => .error .malformed
  | character :: text =>
      if character.toNat < 32 then .error .malformed
      else prepend character (stringBody text)

/-- Reads the rest of a string after its opening quote, as a text. -/
def string (text : List Char) : Except Fault (String × List Char) :=
  (stringBody text).map fun (characters, rest) => (String.ofList characters, rest)

def isDigit (character : Char) : Bool :=
  '0' ≤ character && character ≤ '9'

def digitValue (character : Char) : Nat :=
  character.toNat - 48

def digits (text : List Char) : List Char × List Char :=
  (text.takeWhile isDigit, text.dropWhile isDigit)

/-- The bound of the significands that are kept exactly. -/
def significandLimit : Nat := 0x10000000000000000

/-- Takes digits into a significand while it stays below the limit, and tells
how many were taken. -/
def absorb : Nat → List Char → Nat × Nat
  | significand, [] => (significand, 0)
  | significand, digit :: rest =>
      let extended := significand * 10 + digitValue digit
      if extended < significandLimit then
        let (final, count) := absorb extended rest
        (final, count + 1)
      else (significand, 0)

/-- The double of a significand moved by some places; a number beyond the
largest double breaks the grammar. -/
def double (negative : Bool) (significand : Nat) (exponent : Int) : Except Fault Number :=
  match Binary64.ofDecimal negative significand exponent with
  | some value => .ok (.double value)
  | none => .error .malformed

/-- The largest exponent that is evaluated. -/
def exponentLimit : Nat := 0x80000000

/-- Reads an exponent after its `e`, and forms the double. -/
def exponent (negative : Bool) (significand : Nat) (start : Int) (text : List Char) :
    Except Fault (Number × List Char) :=
  let (down, text) :=
    match text with
    | '+' :: rest => (false, rest)
    | '-' :: rest => (true, rest)
    | _ => (false, text)
  match digits text with
  | ([], []) => .error .unfinished
  | ([], _ :: _) => .error .malformed
  | (written, rest) =>
      let size := written.foldl (fun value digit => value * 10 + digitValue digit) 0
      if exponentLimit ≤ size then
        if significand ≠ 0 ∧ ¬ down then .error .malformed
        else .ok (.double (Binary64.zero negative), rest)
      else
        (double negative significand (if down then start - size else start + size)).map (·, rest)

/-- Reads what may follow the digits of a number that is a double already. -/
def doubleEnd (negative : Bool) (significand : Nat) (start : Int) (text : List Char) :
    Except Fault (Number × List Char) :=
  match text with
  | 'e' :: rest => exponent negative significand start rest
  | 'E' :: rest => exponent negative significand start rest
  | _ => (double negative significand start).map (·, text)

/-- Reads a fraction after its point.  Digits that no longer fit the
significand are dropped. -/
def fraction (negative : Bool) (significand : Nat) (start : Int) (text : List Char) :
    Except Fault (Number × List Char) :=
  match digits text with
  | ([], []) => .error .unfinished
  | ([], _ :: _) => .error .malformed
  | (written, rest) =>
      let (final, count) := absorb significand written
      doubleEnd negative final (start - count) rest

/-- A number written as an integer: exact if it fits 64 bits, and a double
otherwise, as is the zero with a minus sign. -/
def integer (negative : Bool) (magnitude : Nat) : Except Fault Number :=
  if ¬ negative then .ok (.whole magnitude)
  else if magnitude = 0 ∨ 0x8000000000000000 < magnitude then double true magnitude 0
  else .ok (.whole (-(magnitude : Int)))

def unsigned (negative : Bool) (text : List Char) : Except Fault (Number × List Char) :=
  match digits text with
  | ([], []) => .error .unfinished
  | ([], _ :: _) => .error .malformed
  | ('0' :: _ :: _, _) => .error .malformed
  | (written, rest) =>
      let (significand, count) := absorb 0 written
      let dropped : Int := (written.length - count : Nat)
      match rest with
      | '.' :: rest => fraction negative significand dropped rest
      | 'e' :: rest => exponent negative significand dropped rest
      | 'E' :: rest => exponent negative significand dropped rest
      | _ =>
          if dropped = 0 then (integer negative significand).map (·, rest)
          else (double negative significand dropped).map (·, rest)

def number (text : List Char) : Except Fault (Number × List Char) :=
  match text with
  | '-' :: rest => unsigned true rest
  | _ => unsigned false text

end Lexer

end Json

end UpdateArtifact
