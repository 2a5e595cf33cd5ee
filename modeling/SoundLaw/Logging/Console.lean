import SoundLaw.Logging.Call
import SoundLaw.Text.Blank
import SoundLaw.Text.Order

/-!
# Console lines

On the console an event is one line of columns: its level, its name, the `logger` and
`logger_name` members, then every other member as `key=value`, the keys sorted. The level must
be text, as it is padded by its length and styled by its name. Names, keys and the `logger`
members are written as they are, text or not. A text value is written as it is
unless it holds a space, a tab, `=`, a quote, a line feed or a carriage return, in which case it
is quoted; any other value is shown quoted as the runtime shows it. Every column ends with a style
reset, so a carriage return at the end of one never joins a line feed that follows.

A `stack` member follows on a line of its own; when there is an `exception` member as well, a
rule of 79 `=` comes next between blank lines. An `exception` member follows on a line of its
own. Both must be text. The line ends with a line feed.

* `Logging.consoleValue` — how a member's value is written;
* `Logging.consoleText` — the text an event prints;
* `Logging.consoleLines` — how many lines a run of printed texts takes.
-/

namespace SoundLaw

namespace Logging

/-- The style reset that ends every column. -/
def reset : String := "\x1b[0m"

/-- A value written as it is: text itself, anything else as the runtime shows it. -/
def plainText : Json → String
  | .str s => s
  | j => j.display

/-- A member's value: text as it is unless it holds a space, a tab, `=`, a quote or a line end,
then quoted; anything else as the runtime shows it. -/
def consoleValue : Json → String
  | .str s =>
    if s.toList.any fun c => [' ', '\t', '=', '\r', '\n', '"', '\''].contains c then Text.quote s
    else s
  | j => j.display

/-- The columns shown by name: the name, then the two logger members. -/
def namedColumns : List String := ["event", "logger", "logger_name"]

/-- A member that must be text to be appended; its absence or `null` appends nothing. -/
def appended (v : Option Json) : Except Fault (Option String) :=
  match v with
  | none | some .null => .ok none
  | some (.str s) => .ok (some s)
  | some j => .error (.notText j.typeName)

/-- The level column: text, padded and styled; a value that cannot be a key or has no length
fails. -/
def levelColumn : Json → Except Fault String
  | .str s => .ok ("[" ++ s ++ "]")
  | .arr items => .error (.unhashable (Json.arr items).typeName)
  | .obj fields => .error (.unhashable (Json.obj fields).typeName)
  | j => .error (.noLength j.typeName)

/-- The text an event prints, from its members after the record's own are added (`event` among
them when it has a name); the `level` member heads the line. -/
def consoleText (members : List (String × Json)) : Except Fault String := do
  let level ← match members.lookup "level" with
    | some j => levelColumn j
    | none => .ok ""
  let columns := namedColumns.filterMap fun k => (members.lookup k).map plainText
  let others := (members.filter fun (k, _) =>
      !(namedColumns ++ ["level", "stack", "exception"]).contains k).mergeSort
    fun a b => Text.atMost a.1 b.1
  let line := " ".intercalate ((level :: columns ++
    others.map fun (k, v) => k ++ "=" ++ consoleValue v).map (· ++ reset))
  let stack ← appended (members.lookup "stack")
  let exception ← appended (members.lookup "exception")
  let stackText := match stack with
    | some s => "\n" ++ s ++ (if exception.isSome then "\n\n" ++ String.ofList (List.replicate 79 '=') ++ "\n" else "")
    | none => ""
  let exceptionText := match exception with
    | some e => "\n" ++ e
    | none => ""
  .ok (line ++ stackText ++ exceptionText ++ "\n")

/-- The number of lines printed texts take together. -/
def consoleLines (texts : List String) : Nat := Text.lineCount (String.join texts).toList

end Logging

end SoundLaw
