import SoundLaw.Json.Reader
import SoundLaw.Exchange.Decode
import SoundLaw.Text.Order

/-!
# Stored inventories

Inventories are stored one JSON document per language code, shaped
`{"phonemes": [{"symbol": "a", "features": ["syll"]}, …]}`, in a directory that holds the file
`<code>.json` of each code and nothing else. A `Catalog` holds the stored documents, as values or
as text still to be read, or records that there is no directory at all.

A code is looked up as the path `<code>.json` from the directory, one part between slashes at a
time: `.` and empty parts stay, `..` climbs to the parent, and a name enters a directory. Only the
directory's own files are known, and of its ancestors only the names on the way down to it
(`Catalog.home`), so a path that goes anywhere else finds nothing; an absolute path finds
nothing either.

* `Catalog.languages` — the stored codes as the directory lists them: the names of its files
  without their extension (`Catalog.stem`), sorted;
* `Catalog.locate` — the file of the directory a path leads to, if any;
* `Catalog.load` — the inventory a code finds. It refuses, in this order: a code that finds no
  document, an integer with too many digits in the text (a `tooManyDigits` error, not an
  inventory fault), text that is not JSON, a document that is not an object with a `phonemes`
  list, an entry that is not an object, the first entry that does not describe a phoneme, and
  symbols used by more than one phoneme.
-/

namespace SoundLaw

/-- A stored inventory document: a JSON value, or text still to be read. -/
inductive Stored
  | value (j : Json)
  | text (s : String)

/-- The stored inventory documents by language code, or `none` when there is no directory; `home`
names the directories on the way down to it, the nearest first. -/
structure Catalog where
  entries : Option (List (String × Stored))
  home : List String := []

namespace Catalog

/-- The name of a file without its extension: the part before the last dot, when that dot is
neither the first nor the last character. -/
def stem (name : String) : String :=
  let cs := name.toList
  match (List.range cs.length).reverse.find? fun i => cs[i]? = some '.' with
  | some i => if 0 < i ∧ i + 1 < cs.length then String.ofList (cs.take i) else name
  | none => name

/-- The file name of a code's document. -/
def fileName (code : String) : String := code ++ ".json"

/-- The stored codes as the directory lists them: the stems of its files, sorted. -/
def languages (c : Catalog) : List String :=
  match c.entries with
  | none => []
  | some es =>
    let files := (FeatureSet.ofList (es.map fun (code, _) => fileName code)).toList
    (files.map stem).mergeSort Text.atMost

/-- The file of the directory that the parts of a path lead to, from `depth` levels above the
directory; the ancestors known are those of `home`. -/
def locate (home : List String) : Nat → List String → Option String
  | _, [] => none
  | 0, [name] => some name
  | depth, part :: rest =>
    if part = "" ∨ part = "." then locate home depth rest
    else if part = ".." then locate home (depth + 1) rest
    else match depth with
      | 0 => none
      | d + 1 => if home[d]? = some part then locate home d rest else none

/-- The document a code finds, if any. -/
def find? (c : Catalog) (code : String) : Option Stored := do
  let es ← c.entries
  let path := fileName code
  if path.startsWith "/" then none
  let file ← locate c.home 0 (path.splitOn "/")
  (es.find? fun (k, _) => fileName k = file).map (·.2)

/-- The symbols used by more than one phoneme, sorted: once the symbols are sorted, equal ones
are neighbours, and each is kept where it follows an equal one and was not kept just before. -/
def repeatedSymbols (ps : List Phoneme) : List String :=
  let sorted := (ps.map (·.symbol)).mergeSort Text.atMost
  let step (state : Option String × List String) (s : String) :=
    (some s, if state.1 = some s ∧ state.2.head? ≠ some s then s :: state.2 else state.2)
  (sorted.foldl step (none, [])).2.reverse

/-- The inventory stored under a code. -/
def load (c : Catalog) (code : String) : Except SoundError Inventory := do
  let bad {α : Type} (details : String) : Except SoundError α := .error (.badInventory code details)
  let some stored := c.find? code
    | .error (.languageNotFound code)
  let data ← match stored with
    | .value j => .ok j
    | .text s => match Json.read s with
      | .ok j => .ok j
      | .error (.tooManyDigits n) => .error (.tooManyDigits n)
      | .error f => bad ("invalid JSON (" ++ f.message ++ ")")
  let some (.arr entries) := data.get?  "phonemes"
    | bad "expected an object with a 'phonemes' list"
  if !entries.all (fun | .obj _ => true | _ => false) then
    bad "every phoneme entry must be an object"
  let phonemes ← match entries.mapM Phoneme.ofJson with
    | .ok ps => .ok ps
    | .error (.issues is) => bad (Issue.report "Phoneme" is)
    | .error (.fault e) => .error e
  let repeated := repeatedSymbols phonemes
  if !repeated.isEmpty then bad ("duplicate symbols " ++ Text.quoteList repeated)
  .ok ⟨phonemes, some code⟩

/-- The inventory shipped with the library, `smol`: four vowels and six consonants. -/
def smol : Json :=
  let p (s : String) (fs : List String) : Json :=
    .obj [("symbol", .str s), ("features", .arr (fs.map .str))]
  .obj [("phonemes", .arr [p "a" ["syll"], p "u" ["syll", "high"], p "e" ["syll", "front"],
    p "i" ["syll", "front", "high"], p "p" [], p "f" ["continuant"], p "t" ["coronal"],
    p "θ" ["coronal", "continuant"], p "k" ["dorsal"], p "x" ["dorsal", "continuant"]])]

/-- The store shipped with the library, in the directory `data/inventories`. -/
def shipped : Catalog := ⟨some [("smol", .value smol)], ["inventories", "data"]⟩

end Catalog

end SoundLaw
