import SoundLaw.Json.Check
import SoundLaw.Json.HashedSet
import SoundLaw.Error
import SoundLaw.Notation
import SoundLaw.Pattern.Basic
import SoundLaw.Word

/-!
# Reading values from JSON

The library's values as JSON documents describe them, checked field by field:

* `Notation.ofJson` — a notation from an object of its fields (missing fields keep their
  defaults); every field of the wrong type or refused by the notation's own rules is an issue;
* `Phoneme.ofJson` — a phoneme from `{"symbol", "features"}`;
* `Inventory.ofJson` — an inventory from a list of phonemes;
* `Pattern.ofJson` — a pattern from its tree, absent lists read as empty and an absent least
  count as zero;
* `wordOfJson` — a word given as text (read with an inventory) or as a list of phonemes.
-/

namespace SoundLaw

namespace Json

mutual
/-- The nesting depth of a value. -/
def depth : Json → Nat
  | .arr items => depthItems items + 1
  | .obj fields => depthFields fields + 1
  | _ => 0

/-- The greatest depth among the elements of a list. -/
def depthItems : List Json → Nat
  | [] => 0
  | j :: js => max (depth j) (depthItems js)

/-- The greatest depth among the members of an object. -/
def depthFields : List (String × Json) → Nat
  | [] => 0
  | (_, j) :: rest => max (depth j) (depthFields rest)
end

/-- The strings of a list, if every element is one. -/
def strings? : Json → Option (List String)
  | .arr items => items.mapM fun
    | .str s => some s
    | _ => none
  | _ => none

end Json

namespace Notation

/-- A text field of a notation: its value, or the issue that it is not text. -/
def textField (fields : List (String × Json)) (name : String) (default : String) :
    Except Issue String :=
  match fields.lookup name with
  | none => .ok default
  | some (.str s) => .ok s
  | some v => .error ⟨[name], .notString, v⟩

/-- The class table field: an object whose values are all texts. -/
def classField (fields : List (String × Json)) (default : List (String × String)) :
    Except (List Issue) (List (String × String)) :=
  match fields.lookup "phoneme_classes" with
  | none => .ok default
  | some (.obj entries) =>
    let bad := entries.filterMap fun (k, v) =>
      match v with
      | .str _ => none
      | _ => some (⟨["phoneme_classes", k], .notString, v⟩ : Issue)
    if bad.isEmpty then
      .ok (entries.filterMap fun (k, v) => match v with
        | .str s => some (k, s)
        | _ => none)
    else .error bad
  | some v => .error [⟨["phoneme_classes"], .notDict, v⟩]

/-- The issue a flaw of a notation is reported as. -/
def flawIssue (n : Notation) : Flaw → Issue
  | .blankArrow => ⟨["arrow"], .rejected "notation tokens must not be blank", .str n.arrow⟩
  | .blankNull => ⟨["null_symbol"], .rejected "notation tokens must not be blank", .str n.null⟩
  | .digits => ⟨["subscript_digits"],
    .rejected "subscript_digits must contain exactly ten distinct glyphs", .str n.digits⟩

/-- The notation if it has no flaws, else the issues its flaws are reported as. -/
def checked (n : Notation) : Except (List Issue) Notation :=
  match n.flaws with
  | [] => .ok n
  | fs => .error (fs.map (flawIssue n))

/-- The issues of one checked field, and its value when there are none. -/
def collect {α : Type} (r : Except Issue α) (refuse : α → Option Issue) : List Issue × Option α :=
  match r with
  | .error i => ([i], none)
  | .ok a =>
    match refuse a with
    | some i => ([i], none)
    | none => ([], some a)

/-- A notation from the fields of an object, checked field by field in order: each text field
must be text, the arrow and null symbol must not be blank, and the digits must be ten distinct
glyphs. -/
def ofJson (j : Json) : Except (List Issue) Notation :=
  let fields := match j with
    | .obj fs => fs
    | _ => []
  let d : Notation := {}
  let blank (name : String) (s : String) : Option Issue :=
    if (Text.trim s.toList).isEmpty then
      some ⟨[name], .rejected "notation tokens must not be blank", .str s⟩
    else none
  let (i1, arrow) := collect (textField fields "arrow" d.arrow) (blank "arrow")
  let (i2, null) := collect (textField fields "null_symbol" d.null) (blank "null_symbol")
  let (i3, digits) := collect (textField fields "subscript_digits" d.digits) fun s =>
    if tenDistinct s.toList then none
    else some ⟨["subscript_digits"],
      .rejected "subscript_digits must contain exactly ten distinct glyphs", .str s⟩
  let (i4, polarity) := collect (textField fields "greek_letters" d.polarity) fun _ => none
  let (i5, classes) := match classField fields d.classes with
    | .ok c => ([], some c)
    | .error is => (is, none)
  match arrow, null, digits, polarity, classes with
  | some arrow, some null, some digits, some polarity, some classes =>
    .ok ⟨arrow, null, digits, polarity, classes⟩
  | _, _, _, _, _ => .error (i1 ++ i2 ++ i3 ++ i4 ++ i5)

end Notation

/-- Why a description is refused: the issues its check found, or an error that stops the check
at once. -/
inductive Refusal
  /-- Issues found checking the description. -/
  | issues (found : List Issue)
  /-- An error met while checking, which ends the check. -/
  | fault (e : SoundError)

/-- Whether a value can be a member of a set: lists and objects cannot. -/
def Json.isMember : Json → Bool
  | .arr _ | .obj _ => false
  | _ => true

/-- The feature names of a phoneme description, or why they are refused. A list is first made a
hashed set, which fails on a member that is a list or an object; then every member, in the order
the set lists them, must be a name. -/
def featuresOfJson : Option Json → Except Refusal FeatureSet
  | none => .ok .empty
  | some (.str s) =>
    .error (.issues [⟨["features"], .rejected "features must be a list of names, not a single string",
      .str s⟩])
  | some (.arr items) =>
    match items.find? fun j => !j.isMember with
    | some j => .error (.fault (.unhashable j.typeName))
    | none =>
      let items := Json.setOrder items
      let bad := items.zipIdx.filterMap fun (j, i) =>
        match j with
        | .str _ => none
        | _ => some (⟨["features", toString i], .notString, j⟩ : Issue)
      if bad.isEmpty then
        .ok (.ofList (items.filterMap fun
          | .str s => some s
          | _ => none))
      else .error (.issues bad)
  | some v => .error (.issues [⟨["features"], .notSet, v⟩])

/-- A phoneme from its description `{"symbol": ..., "features": [...]}`; other members are
ignored. Issues with the symbol come before issues with the features. -/
def Phoneme.ofJson (j : Json) : Except Refusal Phoneme :=
  match j with
  | .obj fields =>
    let symbol : Except (List Issue) String := match fields.lookup "symbol" with
      | some (.str s) => .ok s
      | some v => .error [⟨["symbol"], .notString, v⟩]
      | none => .error [⟨["symbol"], .missing, j⟩]
    let symbolIssues := match symbol with
      | .error is => is
      | .ok _ => []
    match featuresOfJson (fields.lookup "features"), symbol with
    | .error (.fault e), _ => .error (.fault e)
    | .error (.issues is), _ => .error (.issues (symbolIssues ++ is))
    | .ok fs, .ok s => .ok ⟨s, fs⟩
    | .ok _, .error is => .error (.issues is)
  | v => .error (.issues [⟨[], .notModel "Phoneme", v⟩])

/-- An inventory from a list of phoneme descriptions, in order; the first description refused
decides the answer. -/
def Inventory.ofJson (j : Json) (code : Option String) : Except Refusal Inventory :=
  match j with
  | .arr items => do
    let ps ← items.mapM Phoneme.ofJson
    .ok ⟨ps, code⟩
  | v => .error (.issues [⟨[], .notString, v⟩])

/-- A word: text is read with the inventory, a list is taken as phoneme descriptions. -/
def wordOfJson (inv : Inventory) : Json → Except Refusal (List Phoneme)
  | .str s => .ok (inv.segment s)
  | .arr items => items.mapM Phoneme.ofJson
  | v => .error (.issues [⟨[], .notString, v⟩])

/-- A pattern from its tree, with `fuel` levels of nesting left. -/
def Pattern.ofJsonAt : Nat → Json → Option Pattern
  | 0, _ => none
  | fuel + 1, j =>
    let list (name : String) : Option (List Pattern) :=
      match j.get? name with
      | none => some []
      | some (.arr items) => items.mapM (Pattern.ofJsonAt fuel)
      | some _ => none
    let names (name : String) : Option FeatureSet :=
      match j.get? name with
      | none => some .empty
      | some v => v.strings?.map FeatureSet.ofList
    match j.get? "kind" with
    | some (.str "null") => some .null
    | some (.str "boundary") => some .boundary
    | some (.str "symbol") =>
      match j.get? "symbol" with
      | some (.str s) => some (.symbol s)
      | _ => none
    | some (.str "features") => do
      let present ← names "present"
      let absent ← names "absent"
      some (.features ⟨present, absent⟩)
    | some (.str "sequence") => (list "children").map .seq
    | some (.str "alternation") => (list "children").map .alt
    | some (.str "repeated") => do
      let base ← (j.get? "base").bind (Pattern.ofJsonAt fuel)
      let least ← match j.get? "min" with
        | none => some 0
        | some (.int k) => some k
        | some _ => none
      some (.rep base least)
    | _ => none

/-- A pattern from its tree. -/
def Pattern.ofJson (j : Json) : Option Pattern := Pattern.ofJsonAt (j.depth + 1) j

end SoundLaw
