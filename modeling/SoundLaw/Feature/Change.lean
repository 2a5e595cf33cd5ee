import SoundLaw.Text.Blank
import SoundLaw.Feature.Set

/-!
# Feature changes

A feature change is a pair of feature sets written `[+high -front]`. It is read two ways: as a
*constraint*, a feature set satisfies it when it holds every present feature and no absent one;
as a *change*, it adds the present features and then removes the absent ones, so a feature
named on both sides ends up absent.

* `FeatureChange.parse` — the change named by the `+name` / `-name` words of a specification
  (other words are ignored);
* `admits`, `applyTo` — the two readings;
* `render` — the bracketed notation, present features first, each part in code-point order;
* `mem_applyTo` — what the change leaves.
-/

namespace SoundLaw

/-- A pair of feature sets: the features to have or add, and those to lack or remove. -/
structure FeatureChange where
  present : FeatureSet
  absent : FeatureSet
  deriving DecidableEq

namespace FeatureChange

/-- The change that constrains nothing and changes nothing. -/
def none : FeatureChange := ⟨.empty, .empty⟩

instance : Inhabited FeatureChange := ⟨none⟩

/-- The names of the words that start with `sign`, without that sign. -/
def signed (sign : Char) (ws : List (List Char)) : List String :=
  ws.filterMap fun w => match w with
    | c :: rest => if c = sign then some (String.ofList rest) else Option.none
    | [] => Option.none

/-- The change named by a specification: its blank-separated words that start with `+` are
present features, those that start with `-` absent ones; the sign itself is dropped. -/
def parse (spec : String) : FeatureChange :=
  let ws := Text.words spec.toList
  ⟨.ofList (signed '+' ws), .ofList (signed '-' ws)⟩

/-- Whether a feature set satisfies the change read as a constraint. -/
def admits (d : FeatureChange) (fs : FeatureSet) : Bool :=
  d.present.subset fs && d.absent.disjoint fs

/-- The feature set after the change: present features added, then absent ones removed. -/
def applyTo (d : FeatureChange) (fs : FeatureSet) : FeatureSet :=
  (fs.union d.present).diff d.absent

/-- The bracketed notation: `+name` for each present feature, then `-name` for each absent
one, separated by single spaces. -/
def render (d : FeatureChange) : String :=
  "[" ++ " ".intercalate (d.present.toList.map ("+" ++ ·) ++ d.absent.toList.map ("-" ++ ·)) ++
    "]"

@[simp] theorem mem_applyTo {d : FeatureChange} {fs : FeatureSet} {x : String} :
    x ∈ d.applyTo fs ↔ (x ∈ fs ∨ x ∈ d.present) ∧ x ∉ d.absent := by
  simp [applyTo]

end FeatureChange

end SoundLaw
