import SoundLaw.Error
import SoundLaw.Text.Blank
import SoundLaw.Feature.Change

/-!
# Notation settings

The glyphs of the rule notation are settings: the arrow between input and output, the null
symbol, the ten subscript digits of repetition counts, the polarity letters, and the one-letter
abbreviations of phoneme classes. A `Notation` holds them; every parser, compiler and expander
takes one.

* `Notation` — the glyphs, with the defaults `→`, `Ø`, `₀…₉`, `αβγδ`, `C = -syll`, `V = +syll`;
* `Notation.flaws` — what makes a notation unusable (digits not ten distinct glyphs, a blank
  arrow or null symbol);
* `digitOf`, `digitValue`, `toSubscript`, `isQuantifierChar`, `classOf` — reading and writing
  counts, recognising repetition marks and class letters;
* `sameAs` — equality of notations with the class table taken as a set of pairs.
-/

namespace SoundLaw

/-- The glyphs of the rule notation. -/
structure Notation where
  /-- Separates input from output. -/
  arrow : String := "→"
  /-- Stands for nothing: deletion in outputs, the empty pattern in inputs. -/
  null : String := "Ø"
  /-- The glyph at position `d` writes digit `d` of a repetition count. -/
  digits : String := "₀₁₂₃₄₅₆₇₈₉"
  /-- Each letter splits a rule into a `+` and a `-` variant. -/
  polarity : String := "αβγδ"
  /-- Abbreviations of phoneme classes and the feature specifications they stand for. -/
  classes : List (String × String) := [("C", "-syll"), ("V", "+syll")]
  deriving DecidableEq, Inhabited

namespace Notation

/-- What can make a notation unusable. -/
inductive Flaw
  /-- The subscript digits are not ten distinct glyphs. -/
  | digits
  /-- The arrow is blank. -/
  | blankArrow
  /-- The null symbol is blank. -/
  | blankNull
  deriving DecidableEq

/-- Whether a glyph list is ten distinct glyphs. -/
def tenDistinct (cs : List Char) : Bool := cs.length == 10 && cs.Nodup

/-- The flaws of a notation, in the order of its fields. -/
def flaws (n : Notation) : List Flaw :=
  (if (Text.trim n.arrow.toList).isEmpty then [.blankArrow] else []) ++
  (if (Text.trim n.null.toList).isEmpty then [.blankNull] else []) ++
  (if tenDistinct n.digits.toList then [] else [.digits])

/-- The first position at which `needle` occurs in `hay`. -/
def findSub (needle : List Char) : List Char → Option Nat
  | [] => if needle.isEmpty then some 0 else none
  | c :: cs =>
    if needle.isPrefixOf (c :: cs) then some 0 else (findSub needle cs).map (· + 1)

/-- The digit a glyph writes, if it is a subscript digit. -/
def digitOf (n : Notation) (c : Char) : Option Nat := n.digits.toList.idxOf? c

/-- The digit value of a text: where it first occurs among the subscript digits, or `-1` when it
is empty or does not occur. -/
def digitValue (n : Notation) (s : String) : Int :=
  if s.isEmpty then -1 else
    match findSub s.toList n.digits.toList with
    | some i => i
    | none => -1

/-- The subscript spelling of a count: its decimal digits written with the subscript glyphs.
A count of more than 4300 digits is not written, and a negative count has no spelling. -/
def toSubscript (n : Notation) (k : Int) : Except SoundError String :=
  if digitLimit < (Nat.toDigits 10 k.natAbs).length then .error .countTooLarge
  else if k < 0 then .error .negativeCount else
    .ok (String.ofList ((Nat.toDigits 10 k.toNat).map fun d =>
      n.digits.toList.getD (d.toNat - '0'.toNat) d))

/-- Whether a character marks repetition: the star, or a subscript digit. -/
def isQuantifierChar (n : Notation) (c : Char) : Bool := c == '*' || n.digits.toList.contains c

/-- Whether a text marks repetition: the star, or a single subscript digit. -/
def isQuantifier (n : Notation) (s : String) : Bool :=
  match s.toList with
  | [c] => n.isQuantifierChar c
  | _ => false

/-- The feature change a class abbreviation stands for. -/
def classOf (n : Notation) (s : String) : Option FeatureChange :=
  (n.classes.lookup s).map FeatureChange.parse

/-- Orders class entries by their abbreviation, then their specification. -/
def entryLE (a b : String × String) : Bool := a.1 < b.1 || (a.1 == b.1 && a.2 ≤ b.2)

/-- Equality of notations, the class table compared as a set of entries. -/
def sameAs (a b : Notation) : Bool :=
  a.arrow == b.arrow && a.null == b.null && a.digits == b.digits && a.polarity == b.polarity &&
    a.classes.mergeSort entryLE == b.classes.mergeSort entryLE

end Notation

end SoundLaw
