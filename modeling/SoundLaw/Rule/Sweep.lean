import SoundLaw.Rule.Basic
import SoundLaw.Pattern.Match
import SoundLaw.Segment

/-!
# One pass of a rule over a word

A rule applies once to a word, left to right and without overlaps. From a position `i` it looks
for the first position `p ≥ i` where the `before` context matches, the input matches right after
it and the `after` context right after that; the input's span is a *site*. The search resumes at
the end of the site, or one past `p` when the site ends at or before `p`. All contexts are
matched against the word as it was before the pass.

* `Rule.sitesFrom`, `Rule.sites` — the sites, as offset pairs, in order;
* `Rule.sweep` — the word cut into unchanged stretches and changed sites, as segments;
  unchanged stretches that are empty are left out.
-/

namespace SoundLaw

namespace Rule

/-- The sites of the rule in `w` found from position `i` on. -/
def sitesFrom (r : Rule) (w : List Phoneme) (i : Nat) : List (Nat × Nat) :=
  if i < w.length then
    match r.before.matchLength w i with
    | none => r.sitesFrom w (i + 1)
    | some pl =>
      match r.input.matchLength w (i + pl) with
      | none => r.sitesFrom w (i + 1)
      | some il =>
        match r.after.matchLength w (i + pl + il) with
        | none => r.sitesFrom w (i + 1)
        | some _ => (i + pl, i + pl + il) :: r.sitesFrom w (max (i + pl + il) (i + 1))
  else []
termination_by w.length - i

/-- The sites of the rule in `w`. -/
def sites (r : Rule) (w : List Phoneme) : List (Nat × Nat) := r.sitesFrom w 0

/-- The segments of `w` from offset `last` on, cutting at the given sites and substituting them. -/
def cut (r : Rule) (w : List Phoneme) (last : Nat) :
    List (Nat × Nat) → Traced (List Segment)
  | [] => pure [⟨false, w.drop last⟩]
  | (a, b) :: rest => do
    let written ← r.substitute ((w.drop a).take (b - a))
    let tail ← r.cut w b rest
    pure (⟨false, (w.drop last).take (a - last)⟩ :: ⟨true, written⟩ :: tail)

/-- One pass of the rule over `w`: the unchanged stretches between sites and the changed
sites, in order, without empty unchanged stretches. -/
def sweep (r : Rule) (w : List Phoneme) : Traced (List Segment) := do
  let segs ← r.cut w 0 (r.sites w)
  pure (segs.filter fun s => s.changed || !s.phonemes.isEmpty)

end Rule

end SoundLaw
