import SoundLaw.Settings
import SoundLaw.Logging.Call
import SoundLaw.Logging.Console
import SoundLaw.Text.Case

/-!
# Log records

Events are logged at a level and kept only when the level reaches the threshold: `debug` <
`info` < `warning` < `error` < `critical`, and the threshold `NOTSET` keeps everything. A kept
event becomes a record holding the event's own members and its name, the level it was logged
at, empty trace and span identifiers, and the service name and stage of the settings unless the
event names its own. A record printed through the printer directly carries the method's level
and no name, whatever the threshold. The members `timestamp`, `stack_info` and `exc_info` are
dropped. Records are written as JSON objects or as console lines; a run that writes nothing
has no lines, and is reported as no records.

* `Logging.threshold` — the threshold a level name sets, after it is put in upper case; an
  unknown name is a missing key, named in lower case;
* `Logging.Event`, `Logging.record` — an event and its record;
* `Logging.Output`, `Logging.emit` — the records or console line count of a run of events.
-/

namespace SoundLaw

namespace Logging

/-- The threshold a level name sets, by its upper-case spelling; an unknown name fails as the
missing key `level <name>`, in lower case. -/
def threshold (name : String) : Except Fault Nat :=
  let upper := Text.upper name
  match [("CRITICAL", 50), ("FATAL", 50), ("ERROR", 40), ("WARN", 30), ("WARNING", 30),
      ("INFO", 20), ("DEBUG", 10), ("NOTSET", 0)].lookup upper with
  | some n => .ok n
  | none => .error (.missingKey (.str (Text.lower ("Level " ++ upper))))

/-- An event: its name, the name of the method it is logged with, and its other members. -/
structure Event where
  name : Json
  method : Json
  members : List (String × Json)

/-- The members of the record of an event as delivered. -/
def recordMembers (s : Settings) (e : Event) (d : Delivery) : List (String × Json) :=
  let own := e.members.filter fun (k, _) => k ≠ "timestamp" ∧ k ≠ "stack_info" ∧ k ≠ "exc_info"
  let base := match d.named, e.name with
    | false, _ | true, .null => Json.obj own
    | true, name => Json.obj own |>.set "event" name
  let base := base.set "trace_id" .null |>.set "span_id" .null
  let base := if (base.get? "service").isSome then base else base.set "service" (.str s.service)
  let base := if (base.get? "env").isSome then base else base.set "env" (.str s.stage.name)
  match base.set "level" d.level with
  | .obj fields => fields
  | _ => []

/-- The JSON record of an event as delivered. -/
def record (s : Settings) (e : Event) (d : Delivery) : Json :=
  Json.obj (recordMembers s e d) |>.set "has_timestamp" (.bool true)

/-- What a run of events writes. -/
inductive Output
  /-- Records as JSON objects. -/
  | json (records : List Json)
  /-- Console lines, counted. -/
  | console (lines : Nat)

/-- Whether a value counts as given: `null`, `false`, zero, empty text and empty collections do
not. -/
def given : Json → Bool
  | .null => false
  | .bool b => b
  | .int n => n != 0
  | .real (.finite _ m) => m != 0
  | .str s => !s.isEmpty
  | .arr items => !items.isEmpty
  | .obj fields => !fields.isEmpty
  | .real _ => true

/-- The events logged under the settings, with an optional format (`json` for JSON records,
anything else for the console; none given, the configured one) and an optional level name (none
given, `DEBUG` when debugging is on, or the configured level). -/
def emit (s : Settings) (format level : Option Json) (events : List Event) :
    Except Fault Output := do
  let json := match format with
    | some f => if given f then f matches .str "json" else s.logFormat = "json"
    | none => s.logFormat = "json"
  let name ← match level with
    | none | some .null => .ok (if s.debug then "DEBUG" else s.logLevel)
    | some (.str l) => .ok l
    | some j => .error (.nameNotText j.typeName)
  let least ← threshold name
  -- each event is logged and, on the console, printed before the next one is called
  let step (done : List Json) (e : Event) : Except Fault (List Json) := do
    let method ← match e.method with
      | .str m => .ok m
      | j => .error (.methodNotText j.typeName)
    match ← (target least method).call least method e.name (e.members.map (·.1)) with
    | none => .ok done
    | some d =>
      let shown ← if json then .ok (record s e d)
        else (consoleText (recordMembers s e d)).map Json.str
      match d.after with
      | some f => .error f
      | none => .ok (done ++ [shown])
  let written ← events.foldlM step []
  if written.isEmpty then .ok (.json [])
  else if json then .ok (.json written)
  else .ok (.console (consoleLines (written.map plainText)))

end Logging

end SoundLaw
