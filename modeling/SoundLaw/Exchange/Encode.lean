import SoundLaw.Json.Check
import SoundLaw.Inventory
import SoundLaw.Pattern.Basic
import SoundLaw.Error
import SoundLaw.Rule.Basic
import SoundLaw.Segment
import SoundLaw.Notation

/-!
# Writing values as JSON

The library's values as JSON documents show them: feature sets as sorted lists of names,
phonemes as `{"symbol", "features"}`, feature changes as `{"present", "absent"}`, patterns as
trees tagged by `kind`, output slots tagged by `kind`, segments as `{"changed", "phonemes"}`,
notices as log events, and failures as `{"error", "message"}` with the name each kind of failure
is reported under.
-/

namespace SoundLaw

/-- A list of texts as a JSON array. -/
def textsJson (xs : List String) : Json := .arr (xs.map .str)

/-- A feature set as its sorted names. -/
def FeatureSet.toJson (s : FeatureSet) : Json := textsJson s.toList

/-- A phoneme as its symbol and sorted feature names. -/
def Phoneme.toJson (p : Phoneme) : Json :=
  .obj [("symbol", .str p.symbol), ("features", p.features.toJson)]

/-- A feature change as its present and absent names. -/
def FeatureChange.toJson (d : FeatureChange) : Json :=
  .obj [("present", d.present.toJson), ("absent", d.absent.toJson)]

/-- A notice as the warning event it is logged as. -/
def Unlisted.toJson (u : Unlisted) : Json :=
  .obj [("event", .str "phoneme_not_in_inventory"),
    ("lang", match u.lang with
      | some c => .str c
      | none => .null),
    ("base", .str u.base), ("features", u.features.toJson)]

mutual
/-- A pattern as a tree tagged by `kind`. -/
def Pattern.toJson : Pattern → Json
  | .null => .obj [("kind", .str "null")]
  | .boundary => .obj [("kind", .str "boundary")]
  | .symbol s => .obj [("kind", .str "symbol"), ("symbol", .str s)]
  | .features d =>
    .obj [("kind", .str "features"), ("present", d.present.toJson), ("absent", d.absent.toJson)]
  | .seq ps => .obj [("kind", .str "sequence"), ("children", .arr (Pattern.listJson ps))]
  | .alt ps => .obj [("kind", .str "alternation"), ("children", .arr (Pattern.listJson ps))]
  | .rep p k => .obj [("kind", .str "repeated"), ("base", p.toJson), ("min", .int k)]

/-- Patterns as trees. -/
def Pattern.listJson : List Pattern → List Json
  | [] => []
  | p :: ps => p.toJson :: Pattern.listJson ps
end

/-- An output slot tagged by its kind. -/
def Slot.toJson : Slot → Json
  | .delete => .obj [("kind", .str "delete")]
  | .change d => .obj [("kind", .str "diff"), ("present", d.present.toJson),
    ("absent", d.absent.toJson)]
  | .literal p => .obj [("kind", .str "phoneme"), ("symbol", .str p.symbol),
    ("features", p.features.toJson)]

/-- A notation as the object of its fields. -/
def Notation.toJson (n : Notation) : Json :=
  .obj [("arrow", .str n.arrow), ("null_symbol", .str n.null), ("subscript_digits", .str n.digits),
    ("greek_letters", .str n.polarity),
    ("phoneme_classes", .obj (n.classes.map fun (k, v) => (k, .str v)))]

/-- A segment as its flag and phonemes. -/
def Segment.toJson (s : Segment) : Json :=
  .obj [("changed", .bool s.changed), ("phonemes", .arr (s.phonemes.map Phoneme.toJson))]

/-- The name a kind of failure is reported under. -/
def SoundError.className : SoundError → String
  | .malformed .. => "NotationSyntaxError"
  | .unknownPhoneme _ => "UnknownPhonemeError"
  | .lengthMismatch .. => "OutputLengthMismatchError"
  | .languageNotFound _ => "LanguageNotFoundError"
  | .badInventory .. => "InventoryFormatError"
  | .unexpected _ => "SoundChangeError"
  | .negativeCount | .tooManyDigits _ | .countTooLarge => "ValueError"
  | .endlessExpansion => "RecursionError"
  | .notSized _ | .notText _ | .unhashable _ => "TypeError"
  | .lacks .. => "AttributeError"
  | .missingKey _ => "KeyError"
  | .noDelimiters => "error"

/-- A failure report. -/
def failureJson (kind message : String) : Json :=
  .obj [("error", .str kind), ("message", .str message)]

/-- A failure as its report. -/
def SoundError.toJson (e : SoundError) : Json := failureJson e.className e.message

/-- Issues found checking input, reported in brief. -/
def issuesJson (is : List Issue) : Json := failureJson "ValidationError" (Issue.brief is)

end SoundLaw
