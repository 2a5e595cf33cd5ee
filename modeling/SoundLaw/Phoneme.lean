import SoundLaw.Text.Quoted
import SoundLaw.Feature.Set

/-!
# Phonemes

A phoneme is the smallest unit of sound the rules change: a symbol that writes it and the set
of features it carries. Two phonemes are the same when symbol and features agree.

* `Phoneme` — symbol and features;
* `Phoneme.placeholder` — the featureless stand-in for a character that starts no symbol;
* `Phoneme.describe` — the constructor-like text messages show for a phoneme;
* `spell` — a phoneme sequence written out, its symbols in order.
-/

namespace SoundLaw

/-- A symbol together with the set of features the sound carries. -/
structure Phoneme where
  symbol : String
  features : FeatureSet := .empty
  deriving DecidableEq, Inhabited

namespace Phoneme

/-- The stand-in for a character that starts no inventory symbol: that character alone, with no
features. -/
def placeholder (c : Char) : Phoneme := ⟨String.singleton c, .empty⟩

/-- The text a phoneme is shown by: `Phoneme('i', ['front', 'high'])`, the symbol and the sorted
feature names quoted. -/
def describe (p : Phoneme) : String :=
  "Phoneme(" ++ Text.quote p.symbol ++ ", " ++ Text.quoteList p.features.toList ++ ")"

end Phoneme

/-- A phoneme sequence written out: the symbols one after another. -/
def spell (ps : List Phoneme) : String := String.join (ps.map (·.symbol))

@[simp] theorem spell_nil : spell [] = "" := rfl

@[simp] theorem spell_cons (p : Phoneme) (ps : List Phoneme) :
    spell (p :: ps) = p.symbol ++ spell ps := by
  simp [spell, String.join_cons]

end SoundLaw
