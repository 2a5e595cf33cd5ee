import SoundLaw.Settings.EnvFile
import SoundLaw.Json.Reader
import SoundLaw.Exchange.Decode
import SoundLaw.Text.Case

/-!
# Application settings

The application reads its settings from variables named `SOUNDCHANGE_<FIELD>`, in any case, taken
from the environment or else from a settings file; other names are ignored. Within one source,
names are taken in lower case in order, the last of one field winning, and a name the file binds
to no value gives that field no value. Each field has a
default. The class table is given as JSON text; text that is not JSON is refused before anything
is checked, the environment's value before the file's. A table read as `null` counts as none
given, and when both sources give one, the environment's is laid over the file's (`Json.overlay`):
entries of both are kept, the environment's winning. Then the fields are checked in order: the
stage must be `development`, `production` or `testing`, the debug switch a truth word, the class
table an object of texts.

* `Settings` — the fields and their defaults;
* `Settings.load` — the settings of an environment and an optional settings file;
* `Settings.toNotation` — the notation they describe, the ASCII arrow replacing the arrow when it
  is not empty;
* `Settings.dump` — the settings as an object keyed by field name.
-/

namespace SoundLaw

/-- The stage the application runs in. -/
inductive Stage
  | development
  | production
  | testing
  deriving DecidableEq

/-- The name of a stage. -/
def Stage.name : Stage → String
  | .development => "development"
  | .production => "production"
  | .testing => "testing"

/-- The application's settings. -/
structure Settings where
  stage : Stage := .development
  debug : Bool := false
  logLevel : String := "INFO"
  logFormat : String := "console"
  service : String := "soundchange"
  inventoryDir : String := "data/inventories"
  arrow : String := "→"
  null : String := "Ø"
  digits : String := "₀₁₂₃₄₅₆₇₈₉"
  polarity : String := "αβγδ"
  classes : List (String × String) := [("C", "-syll"), ("V", "+syll")]
  asciiArrow : Option String := none

/-- Why settings could not be loaded. -/
inductive SettingsFault
  /-- The class table of the named source is not JSON. -/
  | undecodable (field source : String)
  /-- Fields failed their checks. -/
  | invalid (issues : List Issue)

/-- The message of a settings fault. -/
def SettingsFault.message : SettingsFault → String
  | .undecodable field source =>
    "error parsing value for field \"" ++ field ++ "\" from source \"" ++ source ++ "\""
  | .invalid issues => Issue.brief issues

namespace Settings

/-- The text with its ASCII letters in lower case. -/
def lower (s : String) : String := String.ofList (s.toList.map Char.toLower)

/-- The values of the prefixed names of a source, by field name: names are taken in lower case
and in order, a later name of the same field winning. A field whose value is `none` counts as
not given. -/
def fieldsOf (vars : List (String × Option String)) : List (String × Option String) :=
  vars.foldl (fun acc (k, v) =>
    let k := Text.lower k
    if "soundchange_".toList.isPrefixOf k.toList then
      EnvFile.assign (String.ofList (k.toList.drop 12)) v acc
    else acc) []

/-- The value a source gives a field, if it gives one. -/
def given (fields : List (String × Option String)) (field : String) : Option String :=
  (fields.lookup field).join

/-- A truth word: `1`, `t`, `true`, `y`, `yes`, `on` and `0`, `f`, `false`, `n`, `no`, `off`, in
any case. -/
def truthOf (s : String) : Option Bool :=
  let l := lower s
  if ["1", "t", "true", "y", "yes", "on"].contains l then some true
  else if ["0", "f", "false", "n", "no", "off"].contains l then some false
  else none

/-- The class table read from JSON text by a source, or the fault that it is not JSON. -/
def decodeClasses (source : String) (text : String) : Except SettingsFault Json :=
  match Json.read text with
  | .ok j => .ok j
  | .error _ => .error (.undecodable "PHONEME_CLASSES" source)

/-- The settings of an environment and an optional settings file, the environment winning. -/
def load (env : List (String × String)) (file : Option String) : Except SettingsFault Settings := do
  let fromEnv := fieldsOf (env.map fun (k, v) => (k, some v))
  let fromFile := fieldsOf ((file.map (EnvFile.parse env)).getD [])
  let classesEnv ← match given fromEnv "phoneme_classes" with
    | some t => (decodeClasses "EnvSettingsSource" t).map some
    | none => .ok none
  let classesFile ← match given fromFile "phoneme_classes" with
    | some t => (decodeClasses "DotEnvSettingsSource" t).map some
    | none => .ok none
  let get (field : String) : Option String :=
    (given fromEnv field).orElse fun _ => given fromFile field
  let d : Settings := {}
  let text (field : String) (default : String) : String := (get field).getD default
  let (stageIssues, stage) : List Issue × Stage := match get "app_env" with
    | none => ([], d.stage)
    | some "development" => ([], .development)
    | some "production" => ([], .production)
    | some "testing" => ([], .testing)
    | some v => ([⟨["APP_ENV"], .notChoice ["development", "production", "testing"], .str v⟩],
      d.stage)
  let (debugIssues, debug) : List Issue × Bool := match get "debug" with
    | none => ([], d.debug)
    | some v => match truthOf v with
      | some b => ([], b)
      | none => ([⟨["DEBUG"], .notBool, .str v⟩], d.debug)
  -- a table read as `null` counts as none given; two tables are merged, the environment's on top
  let given : Option Json → Option Json := fun
    | some .null => none
    | j => j
  let classesJson : Option Json := match given classesEnv, given classesFile with
    | some e, some f => some (f.overlay e)
    | some e, none => some e
    | none, f => f
  let (classIssues, classes) : List Issue × List (String × String) :=
    match classesJson with
    | none => ([], d.classes)
    | some (.obj entries) =>
      let bad := entries.filterMap fun (k, v) => match v with
        | .str _ => none
        | _ => some (⟨["PHONEME_CLASSES", k], .notString, v⟩ : Issue)
      (bad, entries.filterMap fun (k, v) => match v with
        | .str s => some (k, s)
        | _ => none)
    | some v => ([⟨["PHONEME_CLASSES"], .notDict, v⟩], d.classes)
  let issues := stageIssues ++ debugIssues ++ classIssues
  if !issues.isEmpty then .error (.invalid issues)
  .ok { stage, debug, classes
        logLevel := text "log_level" d.logLevel
        logFormat := text "log_format" d.logFormat
        service := text "otel_service_name" d.service
        inventoryDir := text "inventory_dir" d.inventoryDir
        arrow := text "arrow" d.arrow
        null := text "null_symbol" d.null
        digits := text "subscript_digits" d.digits
        polarity := text "greek_letters" d.polarity
        asciiArrow := get "ascii_arrow" }

/-- The notation the settings describe, or the issues that make it unusable. -/
def toNotation (s : Settings) : Except (List Issue) Notation :=
  let arrow := match s.asciiArrow with
    | some a => if a.isEmpty then s.arrow else a
    | none => s.arrow
  Notation.checked ⟨arrow, s.null, s.digits, s.polarity, s.classes⟩

/-- The settings as an object keyed by field name. -/
def dump (s : Settings) : Json :=
  .obj [("APP_ENV", .str s.stage.name), ("DEBUG", .bool s.debug), ("LOG_LEVEL", .str s.logLevel),
    ("LOG_FORMAT", .str s.logFormat), ("OTEL_SERVICE_NAME", .str s.service),
    ("INVENTORY_DIR", .str s.inventoryDir), ("ARROW", .str s.arrow),
    ("NULL_SYMBOL", .str s.null), ("SUBSCRIPT_DIGITS", .str s.digits),
    ("GREEK_LETTERS", .str s.polarity),
    ("PHONEME_CLASSES", .obj (s.classes.map fun (k, v) => (k, .str v))),
    ("ASCII_ARROW", match s.asciiArrow with
      | some a => .str a
      | none => .null)]

end Settings

end SoundLaw
