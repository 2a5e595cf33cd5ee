import SoundLaw.Cascade
import SoundLaw.Inventory.Load

/-!
# Histories of words

A history runs several notations, in order, over words of one language: the inventory is
loaded, every notation is compiled into a cascade before any word is read, and then each word is
read and passed through the cascades, its form after each cascade recorded.

Words and notations arrive as JSON values. A value of the wrong kind fails the way reading it as
text fails: a word that has no length, a notation that is not text, a list whose elements cannot
be read as characters. Failures of the notation, the inventory and the sound changes keep their
kind; any other failure is reported as `unexpected`, by its text.

* `History.Record` — a word as given, its final form and its form after each cascade;
* `History.segmentValue` — a word value read into phonemes;
* `History.run` — the whole history.
-/

namespace SoundLaw

namespace History

/-- A word as given, its final written form, and its form after each cascade. -/
structure Record where
  source : Json
  result : String
  history : List String

/-- Reads the elements of a list word as characters: a blank text is skipped, another text is
a placeholder when the inventory has no symbols, and anything else cannot be read. -/
def listChars (inv : Inventory) : List Json → Except SoundError (List Phoneme)
  | [] => .ok []
  | .str e :: rest =>
    if !e.isEmpty && e.toList.all Text.isBlank then listChars inv rest
    else if inv.symbols.any (!·.isEmpty) then .error (.lacks "list" "startswith")
    else (listChars inv rest).map (⟨e, .empty⟩ :: ·)
  | j :: _ => .error (.lacks j.typeName "isspace")

/-- A word value read into phonemes: text is read with the inventory. -/
def segmentValue (inv : Inventory) : Json → Except SoundError (List Phoneme)
  | .str s => .ok (inv.segment s)
  | .arr items => listChars inv items
  | .obj [] => .ok []
  | .obj _ => .error (.missingKey "0")
  | j => .error (.notSized j.typeName)

/-- The cascade of a notation value; a value that is not text is refused once the arrow has
been checked. -/
def cascadeOf (n : Notation) (inv : Inventory) : Json → Except SoundError Cascade
  | .str s => Cascade.build n inv s
  | j =>
    if n.arrow.toList.contains '<' || n.arrow.toList.contains '>' then
      .error (.malformed .arrowCollision n.arrow)
    else .error (.notText j.typeName)

/-- A failure as the history reports it: failures of its own kinds as they are, others as
unexpected. -/
def report (e : SoundError) : SoundError := if e.isOwn then e else .unexpected e.message

/-- The history of each word through the cascades of the notations. -/
def run (n : Notation) (catalog : Catalog) (lang : String) (rules words : List Json) :
    Traced (List Record) :=
  tryCatch (do
    let inv ← liftExcept (catalog.load lang)
    let cascades ← liftExcept (rules.mapM (cascadeOf n inv))
    words.mapM fun word => do
      let ps ← liftExcept (segmentValue inv word)
      let (ps, forms) ← cascades.foldlM (fun (ps, forms) c => do
        let ps ← c.run ps
        pure (ps, forms ++ [spell ps])) (ps, [])
      pure ⟨word, spell ps, forms⟩)
    fun e => throw (report e)
where
  liftExcept {α : Type} : Except SoundError α → Traced α
    | .ok a => pure a
    | .error e => throw e

end History

end SoundLaw
