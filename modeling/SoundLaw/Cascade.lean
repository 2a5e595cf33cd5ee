import SoundLaw.Rule.Sweep
import SoundLaw.Rule.Expand
import SoundLaw.Word

/-!
# Cascades of rules

A cascade is the ordered list of concrete rules behind one notation, bound to an inventory. It
runs its rules in order over a word kept as segments, so that no rule reads or changes what an
earlier rule of the cascade wrote:

* `Rule.step` — one rule over a segmented word: a rule anchored at both ends runs only on a
  word of at most one segment, a word-final rule only on an unchanged last segment, a
  word-initial rule only on an unchanged first segment, any other rule on every unchanged
  segment;
* `Cascade.trace` — the segments after each rule, merged;
* `Cascade.run` — the phonemes after the last rule;
* `Cascade.build`, `Cascade.ofRules` — a cascade from a notation (expanded and compiled) or from
  compiled rules.
-/

namespace SoundLaw

namespace Rule

/-- The rule applied to each unchanged segment of a list, changed ones kept as they are. -/
def stepEach (r : Rule) : List Segment → Traced (List Segment)
  | [] => pure []
  | s :: rest => do
    let here ← if s.changed then pure [s] else r.sweep s.phonemes
    let there ← r.stepEach rest
    pure (here ++ there)

/-- One rule applied to a segmented word. -/
def step (r : Rule) (segs : List Segment) : Traced (List Segment) :=
  if r.initial && r.final && 1 < segs.length then pure segs
  else if r.final then
    match segs.getLast? with
    | some last =>
      if last.changed then pure segs
      else do
        let swept ← r.sweep last.phonemes
        pure (segs.dropLast ++ swept)
    | none => pure segs
  else if r.initial then
    match segs with
    | first :: rest =>
      if first.changed then pure segs
      else do
        let swept ← r.sweep first.phonemes
        pure (swept ++ rest)
    | [] => pure segs
  else r.stepEach segs

end Rule

/-- The concrete rules of a notation, in order, bound to an inventory. -/
structure Cascade where
  /-- The notation the cascade stands for. -/
  text : String
  inventory : Inventory
  rules : List Rule

namespace Cascade

/-- The cascade of a notation: its expansion, each concrete rule compiled. -/
def build (n : Notation) (inv : Inventory) (text : String) : Except SoundError Cascade := do
  let texts ← expand n text
  let rules ← texts.mapM (Rule.compile n inv)
  .ok ⟨text, inv, rules⟩

/-- The cascade of compiled rules, its notation their notations joined by `; `. -/
def ofRules (inv : Inventory) (rules : List Rule) : Cascade :=
  ⟨"; ".intercalate (rules.map (·.text)), inv, rules⟩

/-- The segments after each rule in turn, merged, from the given ones. -/
def traceFrom : List Rule → List Segment → Traced (List Segment)
  | [], segs => pure segs
  | r :: rs, segs => do
    let next ← r.step segs
    traceFrom rs (Segment.merge next)

/-- The segments of a word after all rules, starting from the whole word unchanged. -/
def trace (c : Cascade) (w : List Phoneme) : Traced (List Segment) :=
  traceFrom c.rules [⟨false, w⟩]

/-- The phonemes of a word after all rules. -/
def run (c : Cascade) (w : List Phoneme) : Traced (List Phoneme) := do
  let segs ← c.trace w
  pure (Segment.flatten segs)

/-- A written word after all rules, written out. -/
def transform (c : Cascade) (text : String) : Traced String := do
  let ps ← c.run (c.inventory.segment text)
  pure (spell ps)

/-- Written words transformed in turn, each to its text or its failure, with the notices of
all words in order. -/
def transformEach (c : Cascade) (words : List String) :
    List (Except SoundError String) × List Unlisted :=
  (words.mapM fun w => ExceptT.run (c.transform w)).run []

/-- The text a cascade is shown by: its notation quoted and its number of rules. -/
def describe (c : Cascade) : String :=
  "RuleSet(" ++ Text.quote c.text ++ ", rules=" ++ toString c.rules.length ++ ")"

end Cascade

end SoundLaw
