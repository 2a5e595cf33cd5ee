import SoundLaw.Inventory
import SoundLaw.Text.Blank

/-!
# Reading words

`Inventory.segment` reads a written word into phonemes greedily: blanks are skipped, and at
every other position the longest non-empty inventory symbol written there is taken (the first
phoneme with that symbol), so an inventory with `t` and `ts` reads `tsa` as `ts`, `a`. A
character that starts no symbol becomes a featureless placeholder for itself.

* `Inventory.longestAt` — the phoneme of the longest symbol at the start of a text;
* `Inventory.segmentChars`, `Inventory.segment` — the greedy reading.
-/

namespace SoundLaw

namespace Inventory

/-- The phoneme whose symbol is the longest non-empty one written at the start of `cs`; of
phonemes sharing that symbol, the first. -/
def longestAt (inv : Inventory) (cs : List Char) : Option Phoneme :=
  inv.phonemes.foldl (fun best p =>
    let s := p.symbol.toList
    if !s.isEmpty && s.isPrefixOf cs &&
        (match best with
         | some b => b.symbol.length < s.length
         | none => true)
    then some p else best) none

/-- The greedy reading of a character list. -/
def segmentChars (inv : Inventory) : List Char → List Phoneme
  | [] => []
  | c :: rest =>
    if Text.isBlank c then segmentChars inv rest
    else match inv.longestAt (c :: rest) with
      | some p => p :: segmentChars inv (rest.drop (p.symbol.length - 1))
      | none => Phoneme.placeholder c :: segmentChars inv rest
termination_by cs => cs.length
decreasing_by
  all_goals simp only [List.length_cons, List.length_drop]
  all_goals omega

/-- The greedy reading of a written word. -/
def segment (inv : Inventory) (text : String) : List Phoneme := inv.segmentChars text.toList

end Inventory

end SoundLaw
