import SoundLaw.Json.Value
import SoundLaw.Text.Quoted
import SoundLaw.Text.Surrogate
import SoundLaw.Binary64.Shortest

/-!
# Writing JSON text

`Json.write` writes a value on one line: members and elements separated by commas without
spaces, strings with the quote, the backslash and control characters escaped, a kept surrogate
half as its escape and every other character as it is, and a binary64 number as its shortest
decimal text, or as `NaN`, `Infinity` or `-Infinity`.
-/

namespace SoundLaw

namespace Json

/-- A character inside a JSON string. -/
def escapeChar (c : Char) : List Char :=
  if c = '"' then ['\\', '"']
  else if c = '\\' then ['\\', '\\']
  else if c.toNat < 0x20 then '\\' :: 'u' :: Text.hexDigits c.toNat 4
  else match Text.half? c with
    | some u => '\\' :: 'u' :: Text.hexDigits u 4
    | none => [c]

/-- A JSON string literal. -/
def writeString (s : String) : String :=
  String.ofList ('"' :: s.toList.flatMap escapeChar ++ ['"'])

/-- The JSON text of a binary64 number. -/
def realText : Binary64 → String
  | .nan => "NaN"
  | .infinite negative => if negative then "-Infinity" else "Infinity"
  | x => x.toText

mutual
/-- The JSON text of a value. -/
def write : Json → String
  | .null => "null"
  | .bool b => if b then "true" else "false"
  | .int n => toString n
  | .real x => realText x
  | .str s => writeString s
  | .arr items => "[" ++ ",".intercalate (writeItems items) ++ "]"
  | .obj fields => "\x7b" ++ ",".intercalate (writeFields fields) ++ "\x7d"

/-- The JSON texts of the elements of an array. -/
def writeItems : List Json → List String
  | [] => []
  | j :: js => write j :: writeItems js

/-- The JSON texts of the members of an object. -/
def writeFields : List (String × Json) → List String
  | [] => []
  | (k, v) :: rest => (writeString k ++ ":" ++ write v) :: writeFields rest
end

end Json

end SoundLaw
