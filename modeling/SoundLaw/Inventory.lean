import SoundLaw.Phoneme
import SoundLaw.Feature.Change

/-!
# Inventories

A language is given by its phoneme inventory: a list in a fixed order, since lookups return the
first phoneme that fits. An inventory may carry a language code, which only shows in notices.

* `Inventory.findSymbol`, `Inventory.findFeatures` — the first phoneme with a symbol, or with
  exactly a feature set;
* `Unlisted` — the notice that a feature change led to a feature set no phoneme carries;
* `Inventory.shift` — a feature change applied to a phoneme, landing on the inventory phoneme
  with the new feature set, or on the placeholder `?` together with a notice.
-/

namespace SoundLaw

/-- A phoneme inventory in its fixed order, with an optional language code. -/
structure Inventory where
  phonemes : List Phoneme
  code : Option String := none
  deriving Inhabited

/-- A feature change gave a feature set that no phoneme of the inventory carries. -/
structure Unlisted where
  /-- The language code of the inventory, if it has one. -/
  lang : Option String
  /-- The symbol of the phoneme that was changed. -/
  base : String
  /-- The feature set the change produced. -/
  features : FeatureSet
  deriving DecidableEq

namespace Inventory

/-- The symbols in inventory order. -/
def symbols (inv : Inventory) : List String := inv.phonemes.map (·.symbol)

/-- The first phoneme written with `s`. -/
def findSymbol (inv : Inventory) (s : String) : Option Phoneme :=
  inv.phonemes.find? (·.symbol == s)

/-- The first phoneme whose feature set is exactly `fs`. -/
def findFeatures (inv : Inventory) (fs : FeatureSet) : Option Phoneme :=
  inv.phonemes.find? (·.features == fs)

/-- The phoneme a feature change turns `base` into: the first inventory phoneme with the changed
feature set, or else the placeholder `?` with that set and a notice naming the base. -/
def shift (inv : Inventory) (base : Phoneme) (d : FeatureChange) : Phoneme × Option Unlisted :=
  let fs := d.applyTo base.features
  match inv.findFeatures fs with
  | some p => (p, none)
  | none => (⟨"?", fs⟩, some ⟨inv.code, base.symbol, fs⟩)

theorem shift_features (inv : Inventory) (base : Phoneme) (d : FeatureChange) :
    (inv.shift base d).1.features = d.applyTo base.features := by
  unfold shift findFeatures
  dsimp only
  split
  · rename_i p hp
    have := List.find?_some hp
    simpa using this
  · rfl

end Inventory

end SoundLaw
