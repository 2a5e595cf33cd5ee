import SoundLaw.Pattern.Basic
import SoundLaw.Phoneme

/-!
# Matching patterns

`matchLength p w i` is the number of phonemes the pattern `p` consumes when matched at offset
`i` of the word `w`, or `none` when it does not match there. Matching is deterministic and never
backtracks:

* a sequence matches its children one after another, and fails as soon as the offset it has
  reached lies past the end of the word;
* an alternation takes the longest of its options;
* a repetition takes its base as often as it matches (`repeatGreedy`), stops after a match of
  length zero, and succeeds when it took the base at least its least count of times or stopped
  on a zero-length match.

`nextMatch p w i` is the first offset at or after `i` that points at a phoneme and where `p`
matches, with the length matched there.
-/

namespace SoundLaw

/-- The larger of two match results, a failure counting as less than any length. -/
def longer : Option Nat → Option Nat → Option Nat
  | none, b => b
  | a, none => a
  | some a, some b => some (max a b)

/-- Greedy repetition of a step: from offset `pos`, after `count` repetitions begun at `start`,
take the step while it matches; a match of length zero ends the loop successfully, a failure
ends it successfully only when `least ≤ count`. The answer is the length covered from `start`.
`fuel` bounds the number of steps. -/
def repeatGreedy (step : Nat → Option Nat) (least : Int) :
    (fuel start pos count : Nat) → Option Nat
  | 0, _, _, _ => none
  | fuel + 1, start, pos, count =>
    match step pos with
    | none => if least ≤ count then some (pos - start) else none
    | some 0 => some (pos - start)
    | some (l + 1) => repeatGreedy step least fuel start (pos + (l + 1)) (count + 1)

namespace Pattern

mutual
/-- The length `p` matches at offset `i` of `w`, or `none`. -/
def matchLength : Pattern → List Phoneme → Nat → Option Nat
  | .null, _, _ => some 0
  | .boundary, w, i => if i = 0 ∨ i = w.length then some 0 else none
  | .symbol s, w, i =>
    match w[i]? with
    | some p => if p.symbol = s then some 1 else none
    | none => none
  | .features d, w, i =>
    match w[i]? with
    | some p => if d.admits p.features then some 1 else none
    | none => none
  | .seq ps, w, i => matchSeq ps w i
  | .alt ps, w, i => matchAlt ps w i
  | .rep p k, w, i => repeatGreedy (fun j => matchLength p w j) k (w.length - i + 1) i i 0

/-- The length the patterns match one after another from offset `i`. -/
def matchSeq : List Pattern → List Phoneme → Nat → Option Nat
  | [], _, _ => some 0
  | p :: ps, w, i =>
    if w.length < i then none else
      match matchLength p w i with
      | none => none
      | some l => (matchSeq ps w (i + l)).map (l + ·)

/-- The longest length any of the options matches at offset `i`. -/
def matchAlt : List Pattern → List Phoneme → Nat → Option Nat
  | [], _, _ => none
  | p :: ps, w, i => longer (matchLength p w i) (matchAlt ps w i)
end

/-- The first offset at or after `start`, below the length of `w`, where `p` matches, with the
length matched there. -/
def nextMatch (p : Pattern) (w : List Phoneme) (start : Nat) : Option (Nat × Nat) :=
  (List.range' start (w.length - start)).findSome? fun i => (p.matchLength w i).map (i, ·)

end Pattern

end SoundLaw
