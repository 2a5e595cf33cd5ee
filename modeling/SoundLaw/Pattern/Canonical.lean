import SoundLaw.Pattern.Basic

/-!
# Canonical patterns

`Pattern.canonicalize` brings a pattern to canonical form, bottom-up, so that

* no sequence holds a sequence or `null`, and no alternation holds an alternation (the children
  of a nested node of the same kind are spliced in, and `null` in a sequence or the empty
  alternation among options are dropped);
* an alternation holds each option once, at its first place;
* a sequence or alternation left with no children becomes `null` or the empty alternation, and
  one left with a single child becomes that child;
* a repetition of a repetition becomes one repetition whose least count is the sum of both.
-/

namespace SoundLaw

namespace Pattern

/-- The sequence of some patterns, collapsed: `null` for none, the pattern itself for one. -/
def seqOf : List Pattern → Pattern
  | [] => .null
  | [p] => p
  | ps => .seq ps

/-- The alternation of some options, collapsed: the empty alternation for none, the option
itself for one. -/
def altOf : List Pattern → Pattern
  | [] => .alt []
  | [p] => p
  | ps => .alt ps

/-- The list without repeats, each element kept at its first place; `seen` holds the elements
kept so far, last first. -/
def keepFirst (seen : List Pattern) : List Pattern → List Pattern
  | [] => seen.reverse
  | p :: ps => if seen.contains p then keepFirst seen ps else keepFirst (p :: seen) ps

mutual
/-- The canonical form of a pattern. -/
def canonicalize : Pattern → Pattern
  | .seq ps => seqOf (spliceSeq ps)
  | .alt ps => altOf (keepFirst [] (spliceAlt ps))
  | .rep p k =>
    match canonicalize p with
    | .rep q j => .rep q (j + k)
    | q => .rep q k
  | p => p

/-- The canonical children of a sequence: `null` dropped, nested sequences spliced in. -/
def spliceSeq : List Pattern → List Pattern
  | [] => []
  | p :: ps =>
    match canonicalize p with
    | .null => spliceSeq ps
    | .seq qs => qs ++ spliceSeq ps
    | q => q :: spliceSeq ps

/-- The canonical options of an alternation: nested alternations spliced in, which drops the
empty alternation. -/
def spliceAlt : List Pattern → List Pattern
  | [] => []
  | p :: ps =>
    match canonicalize p with
    | .alt qs => qs ++ spliceAlt ps
    | q => q :: spliceAlt ps
end

end Pattern

end SoundLaw
