import SoundLaw.Json.Value
import SoundLaw.Text.Quoted
import SoundLaw.Binary64.Shortest

/-!
# Checking JSON input

Values handed to the library as JSON are checked field by field, and each thing found wrong is an
`Issue`: where it is (`loc`, a path of member names and indices), what is wrong (`Issue.Kind`) and
the offending value. Issues are reported in two forms:

* `Issue.brief` — `loc: message`, several joined by `; `;
* `Issue.report` — a titled block per issue, with the kind's code, the offending value as the
  runtime shows it (`Json.display`, cut in the middle past fifty bytes) and its type.
-/

namespace SoundLaw

namespace Json

mutual
/-- A value as the runtime shows it: `None`, `True`, numbers, quoted strings, lists in brackets
and objects in braces with quoted names. -/
def display : Json → String
  | .null => "None"
  | .bool b => if b then "True" else "False"
  | .int n => toString n
  | .real x => x.toText
  | .str s => Text.quote s
  | .arr items => "[" ++ ", ".intercalate (displayItems items) ++ "]"
  | .obj fields => "\x7b" ++ ", ".intercalate (displayFields fields) ++ "\x7d"

/-- The shown elements of a list. -/
def displayItems : List Json → List String
  | [] => []
  | j :: js => display j :: displayItems js

/-- The shown members of an object. -/
def displayFields : List (String × Json) → List String
  | [] => []
  | (k, v) :: rest => (Text.quote k ++ ": " ++ display v) :: displayFields rest
end

/-- The longest run of whole characters at the front of `cs` that fits in `room` bytes of UTF-8. -/
def takeBytes : Nat → List Char → List Char
  | _, [] => []
  | room, c :: cs => if c.utf8Size ≤ room then c :: takeBytes (room - c.utf8Size) cs else []

/-- A shown value cut in the middle when it takes more than fifty bytes of UTF-8: the whole
characters within its first twenty-five bytes and within its last twenty-four, around an
ellipsis. -/
def clip (s : String) : String :=
  if s.utf8ByteSize ≤ 50 then s
  else
    let cs := s.toList
    String.ofList (takeBytes 25 cs) ++ "..." ++ String.ofList (takeBytes 24 cs.reverse).reverse

end Json

/-- What a check found wrong with one value. -/
inductive Issue.Kind
  /-- A required member is absent. -/
  | missing
  /-- The value is not a string. -/
  | notString
  /-- The value is not a collection of names. -/
  | notSet
  /-- The value is not an object. -/
  | notDict
  /-- The value is not an object that can describe the model named. -/
  | notModel (model : String)
  /-- The text does not read as a truth value. -/
  | notBool
  /-- The value is none of the allowed texts. -/
  | notChoice (choices : List String)
  /-- The value is refused for the reason given. -/
  | rejected (reason : String)
  deriving DecidableEq

/-- One thing a check found wrong: where, what, and the offending value. -/
structure Issue where
  loc : List String
  kind : Issue.Kind
  input : Json

namespace Issue

/-- A list of allowed texts: quoted, the last joined by `or`. -/
def choiceText : List String → String
  | [] => ""
  | [a] => "'" ++ a ++ "'"
  | [a, b] => "'" ++ a ++ "' or '" ++ b ++ "'"
  | a :: rest => "'" ++ a ++ "', " ++ choiceText rest

/-- The message of a kind of issue. -/
def Kind.message : Kind → String
  | .missing => "Field required"
  | .notString => "Input should be a valid string"
  | .notSet => "Input should be a valid frozenset"
  | .notDict => "Input should be a valid dictionary"
  | .notModel model => "Input should be a valid dictionary or instance of " ++ model
  | .notBool => "Input should be a valid boolean, unable to interpret input"
  | .notChoice choices => "Input should be " ++ choiceText choices
  | .rejected reason => "Value error, " ++ reason

/-- The code of a kind of issue. -/
def Kind.code : Kind → String
  | .missing => "missing"
  | .notString => "string_type"
  | .notSet => "frozen_set_type"
  | .notDict => "dict_type"
  | .notModel _ => "model_type"
  | .notBool => "bool_parsing"
  | .notChoice _ => "enum"
  | .rejected _ => "value_error"

/-- The place of an issue: its path joined by dots. -/
def place (i : Issue) : String := ".".intercalate i.loc

/-- Issues in brief: `place: message`, joined by `; `. -/
def brief (is : List Issue) : String :=
  "; ".intercalate (is.map fun i => i.place ++ ": " ++ i.kind.message)

/-- Issues in full, under a title naming how many there are and the model checked. -/
def report (model : String) (is : List Issue) : String :=
  let title := toString is.length ++ " validation error" ++ (if is.length = 1 then "" else "s") ++
    " for " ++ model
  "\n".intercalate (title :: is.map fun i =>
    i.place ++ "\n  " ++ i.kind.message ++ " [type=" ++ i.kind.code ++ ", input_value=" ++
      Json.clip i.input.display ++ ", input_type=" ++ i.input.typeName ++ "]")

end Issue

end SoundLaw
