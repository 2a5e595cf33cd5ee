import Std.Data.HashMap
import Std.Data.HashSet
import SoundLaw.Json.Value
import SoundLaw.Text.Surrogate
import SoundLaw.Error

/-!
# Reading JSON text

`Json.read` reads a JSON document. Besides the standard grammar it accepts what the stored
inventories may hold: any amount of blank space (space, tab, line feed, carriage return) between
tokens, repeated member names (the last value winning at the place of the first), the constants
`NaN`, `Infinity` and `-Infinity`, and surrogate halves escaped without a partner, which are kept
(`Text.ofHalf`). Integers may have up to 4300 digits; numbers with a fraction or an exponent are
read as the nearest binary64 value. A document it refuses is reported by a `Json.Fault` whose
`message` names what was expected at the first place reading went wrong, or the integer that has
too many digits.
-/

namespace SoundLaw

namespace Json

/-- What reading a JSON document found wrong first. -/
inductive Fault
  | expectingValue
  | extraData
  | expectingName
  | expectingColon
  | expectingComma
  | unterminatedString
  | controlCharacter
  | badEscape
  | badUnicodeEscape
  | byteOrderMark
  /-- An integer written with more digits than the limit; their number is given. -/
  | tooManyDigits (digits : Nat)
  deriving DecidableEq

/-- The message of a reading fault. -/
def Fault.message : Fault → String
  | .expectingValue => "Expecting value"
  | .extraData => "Extra data"
  | .expectingName => "Expecting property name enclosed in double quotes"
  | .expectingColon => "Expecting ':' delimiter"
  | .expectingComma => "Expecting ',' delimiter"
  | .unterminatedString => "Unterminated string starting at"
  | .controlCharacter => "Invalid control character at"
  | .badEscape => "Invalid \\escape"
  | .badUnicodeEscape => "Invalid \\uXXXX escape"
  | .byteOrderMark => "Unexpected UTF-8 BOM (decode using utf-8-sig)"
  | .tooManyDigits n => (SoundError.tooManyDigits n).message

/-- Whether a fault is one of the document's syntax rather than of an integer too long to read. -/
def Fault.isSyntax : Fault → Bool
  | .tooManyDigits _ => false
  | _ => true

/-- Whether a character is blank between JSON tokens. -/
def isSpace (c : Char) : Bool := c == ' ' || c == '\t' || c == '\n' || c == '\r'

/-- The text after the blank space at its start. -/
def skipSpace (cs : List Char) : List Char := cs.dropWhile isSpace

/-- The value of a hex digit. -/
def hexValue (c : Char) : Option Nat :=
  if '0' ≤ c ∧ c ≤ '9' then some (c.toNat - '0'.toNat)
  else if 'a' ≤ c ∧ c ≤ 'f' then some (c.toNat - 'a'.toNat + 10)
  else if 'A' ≤ c ∧ c ≤ 'F' then some (c.toNat - 'A'.toNat + 10)
  else none

/-- The number written by four hex digits at the start of the text, and the rest. -/
def hex4 : List Char → Option (Nat × List Char)
  | a :: b :: c :: d :: rest => do
    let va ← hexValue a
    let vb ← hexValue b
    let vc ← hexValue c
    let vd ← hexValue d
    some (((va * 16 + vb) * 16 + vc) * 16 + vd, rest)
  | _ => none

/-- The character of a code point; a surrogate half is kept by `Text.ofHalf`. -/
def charOfCode (n : Nat) : Char :=
  if Text.isHalf n then Text.ofHalf n else Char.ofNat n

/-- The character of a `\u` escape whose four digits gave `hi`, with the rest of the text: a high
surrogate joins an escaped low surrogate that follows, when at least seven characters follow the
first escape; otherwise a half stands alone. -/
def unicodeEscape (hi : Nat) (rest : List Char) : Except Fault (Char × List Char) :=
  if 0xD800 ≤ hi ∧ hi ≤ 0xDBFF ∧ !(rest.drop 6).isEmpty then
    match rest with
    | '\\' :: 'u' :: more =>
      match hex4 more with
      | some (lo, after) =>
        if 0xDC00 ≤ lo ∧ lo ≤ 0xDFFF then
          .ok (Char.ofNat (0x10000 + (hi - 0xD800) * 0x400 + (lo - 0xDC00)), after)
        else .ok (charOfCode hi, rest)
      | none => .error .badUnicodeEscape
    | _ => .ok (charOfCode hi, rest)
  else .ok (charOfCode hi, rest)

/-- The inside of a string literal up to its closing quote, reversed in `acc`, and the text
after the quote; `fuel` bounds the characters read. A `\u` escape needs its four digits and at
least one character after them. -/
def stringBody : Nat → List Char → List Char → Except Fault (String × List Char)
  | 0, _, _ => .error .unterminatedString
  | _ + 1, _, [] => .error .unterminatedString
  | _ + 1, acc, '"' :: rest => .ok (String.ofList acc.reverse, rest)
  | fuel + 1, acc, '\\' :: rest =>
    match rest with
    | [] => .error .unterminatedString
    | e :: more =>
      if e = 'u' then
        if (more.drop 4).isEmpty then .error .badUnicodeEscape
        else
          match hex4 more with
          | some (hi, after) =>
            match unicodeEscape hi after with
            | .ok (c, after') => stringBody fuel (c :: acc) after'
            | .error f => .error f
          | none => .error .badUnicodeEscape
      else
        let mapped :=
          if e = '"' then some '"' else if e = '\\' then some '\\' else if e = '/' then some '/'
          else if e = 'b' then some (Char.ofNat 8) else if e = 'f' then some (Char.ofNat 12)
          else if e = 'n' then some '\n' else if e = 'r' then some '\r'
          else if e = 't' then some '\t' else none
        match mapped with
        | some c => stringBody fuel (c :: acc) more
        | none => .error .badEscape
  | fuel + 1, acc, c :: rest =>
    if c.toNat < 0x20 then .error .controlCharacter else stringBody fuel (c :: acc) rest

/-- The digits at the start of a text, and the rest. -/
def digitsPrefix (cs : List Char) : List Char × List Char :=
  (cs.takeWhile Char.isDigit, cs.dropWhile Char.isDigit)

/-- The number of a digit list. -/
def natOfDigits (ds : List Char) : Nat := ds.foldl (fun acc d => acc * 10 + (d.toNat - 48)) 0

/-- A number at the start of the text: an optional minus, an integer part without leading
zeros, an optional fraction and an optional exponent; the exponent is left unread when no digit
follows its sign. An integer is refused when it has more digits than the limit; a number with a
fraction or an exponent is the binary64 value nearest to it. -/
def number (cs : List Char) : Option (Except Fault Json × List Char) :=
  let (negative, cs) := match cs with
    | '-' :: rest => (true, rest)
    | _ => (false, cs)
  let intPart? : Option (List Char × List Char) := match cs with
    | '0' :: rest => some (['0'], rest)
    | c :: _ => if '1' ≤ c ∧ c ≤ '9' then some (digitsPrefix cs) else none
    | [] => none
  intPart?.map fun (whole, rest) =>
    let (frac, rest) := match rest with
      | '.' :: d :: more => if d.isDigit then digitsPrefix (d :: more) else ([], rest)
      | _ => ([], rest)
    let (exp?, rest) : Option Int × List Char := match rest with
      | e :: more =>
        if e = 'e' ∨ e = 'E' then
          let (sign, more') : Int × List Char := match more with
            | '+' :: m => (1, m)
            | '-' :: m => (-1, m)
            | m => (1, m)
          let (ds, after) := digitsPrefix more'
          if ds.isEmpty then (none, rest) else (some (sign * natOfDigits ds), after)
        else (none, rest)
      | [] => (none, rest)
    if frac.isEmpty ∧ exp?.isNone then
      if digitLimit < whole.length then (.error (.tooManyDigits whole.length), rest)
      else
        let n : Int := natOfDigits whole
        (.ok (.int (if negative then -n else n)), rest)
    else
      (.ok (.real (Binary64.ofDecimal negative (natOfDigits (whole ++ frac))
        (exp?.getD 0 - frac.length))), rest)

/-- The members of an object from its name-value pairs in order: each name once, at its first
place, with its last value. -/
def collect (pairs : List (String × Json)) : List (String × Json) :=
  let last : Std.HashMap String Json := pairs.foldl (fun m (k, v) => m.insert k v) {}
  let step (state : Std.HashSet String × List (String × Json)) (pair : String × Json) :=
    if state.1.contains pair.1 then state
    else (state.1.insert pair.1, (pair.1, last.getD pair.1 pair.2) :: state.2)
  (pairs.foldl step ({}, [])).2.reverse

mutual
/-- A value at the start of the text (after blank space is skipped by the caller), and the rest;
`size` bounds the length of a string, `fuel` the nesting and the number of members read. -/
def value (size : Nat) : Nat → List Char → Except Fault (Json × List Char)
  | 0, _ => .error .expectingValue
  | fuel + 1, cs =>
    match cs with
    | '"' :: rest => do
      let (s, rest) ← stringBody size [] rest
      .ok (.str s, rest)
    | '[' :: rest =>
      match skipSpace rest with
      | ']' :: after => .ok (.arr [], after)
      | more => items size fuel [] more
    | c :: rest =>
      if c = Char.ofNat 123 then
        match skipSpace rest with
        | d :: after => if d = Char.ofNat 125 then .ok (.obj [], after) else members size fuel [] (d :: after)
        | [] => .error .expectingName
      else if cs.take 4 = "null".toList then .ok (.null, cs.drop 4)
      else if cs.take 4 = "true".toList then .ok (.bool true, cs.drop 4)
      else if cs.take 5 = "false".toList then .ok (.bool false, cs.drop 5)
      else if cs.take 3 = "NaN".toList then .ok (.real .nan, cs.drop 3)
      else if cs.take 8 = "Infinity".toList then .ok (.real (.infinite false), cs.drop 8)
      else if cs.take 9 = "-Infinity".toList then .ok (.real (.infinite true), cs.drop 9)
      else match number cs with
        | some (.ok j, rest) => .ok (j, rest)
        | some (.error f, _) => .error f
        | none => .error .expectingValue
    | [] => .error .expectingValue

/-- The elements of an array from the text after `[` (blank space skipped), with the elements
read so far reversed in `acc`. -/
def items (size : Nat) : Nat → List Json → List Char → Except Fault (Json × List Char)
  | 0, _, _ => .error .expectingValue
  | fuel + 1, acc, cs => do
    let (v, rest) ← value size fuel cs
    match skipSpace rest with
    | ']' :: after => .ok (.arr (v :: acc).reverse, after)
    | ',' :: after => items size fuel (v :: acc) (skipSpace after)
    | _ => .error .expectingComma

/-- The members of an object from the text after the opening brace (blank space skipped), with
the members read so far reversed in `acc`; a repeated name takes the last value at its first
place. -/
def members (size : Nat) : Nat → List (String × Json) → List Char → Except Fault (Json × List Char)
  | 0, _, _ => .error .expectingName
  | fuel + 1, acc, cs =>
    match cs with
    | '"' :: rest => do
      let (name, rest) ← stringBody size [] rest
      match skipSpace rest with
      | ':' :: after => do
        let (v, rest) ← value size fuel (skipSpace after)
        let acc := (name, v) :: acc
        match skipSpace rest with
        | ',' :: more => members size fuel acc (skipSpace more)
        | c :: more =>
          if c = Char.ofNat 125 then .ok (.obj (collect acc.reverse), more)
          else .error .expectingComma
        | [] => .error .expectingComma
      | _ => .error .expectingColon
    | _ => .error .expectingName
end

/-- Reads a whole JSON document: one value, with only blank space around it. -/
def read (text : String) : Except Fault Json :=
  match text.toList with
  | c :: _ =>
    if c = Char.ofNat 0xFEFF then .error .byteOrderMark else readAll text.toList
  | [] => readAll []
where
  readAll (cs : List Char) : Except Fault Json := do
    let (v, rest) ← value (cs.length + 1) (2 * cs.length + 2) (skipSpace cs)
    if (skipSpace rest).isEmpty then .ok v else .error .extraData

end Json

end SoundLaw
