/-!
# Blank characters

Rule notation, feature specifications and words all ignore *blank* characters. A character is
blank when it has the Unicode White_Space property or is one of the four information
separators U+001C–U+001F; this is the class that trimming, splitting into words and the
blank-matching patterns of the notation all agree on.

* `isBlank` — the class, as a table of code points;
* `trim`, `trimLeft` — drop blanks at the ends of a character list;
* `words` — the maximal blank-free runs of a character list, in order;
* `splitLines` — the lines of a text;
* `isLineBreak`, `lineCount` — the characters that end a line when a text is cut into all its
  lines, and how many lines that gives.
-/

namespace SoundLaw.Text

/-- A character is blank when it is a tab, line or page break, an information separator, a
space of any width, or a line or paragraph separator. -/
def isBlank (c : Char) : Bool :=
  let n := c.toNat
  (0x09 ≤ n && n ≤ 0x0D) || (0x1C ≤ n && n ≤ 0x20) || n == 0x85 || n == 0xA0 ||
    n == 0x1680 || (0x2000 ≤ n && n ≤ 0x200A) || n == 0x2028 || n == 0x2029 ||
    n == 0x202F || n == 0x205F || n == 0x3000

/-- Every ASCII character that core counts as whitespace is blank. -/
theorem isBlank_of_isWhitespace (c : Char) (h : c.isWhitespace = true) : isBlank c = true := by
  simp only [Char.isWhitespace, Bool.or_eq_true, decide_eq_true_eq] at h
  rcases h with ((h | h) | h) | h <;> subst h <;> decide

/-- Drops the blanks at the start of a character list. -/
def trimLeft (cs : List Char) : List Char := cs.dropWhile isBlank

/-- Drops the blanks at both ends of a character list. -/
def trim (cs : List Char) : List Char := ((trimLeft cs).reverse.dropWhile isBlank).reverse

/-- Splits off words, collecting the current word reversed in `acc`. -/
def wordsFrom : List Char → List Char → List (List Char)
  | [], acc => if acc.isEmpty then [] else [acc.reverse]
  | c :: cs, acc =>
    if isBlank c then
      if acc.isEmpty then wordsFrom cs [] else acc.reverse :: wordsFrom cs []
    else wordsFrom cs (c :: acc)

/-- The maximal runs of non-blank characters, left to right. -/
def words (cs : List Char) : List (List Char) := wordsFrom cs []

/-- The lines of a text: cut at each line feed, carriage return, or carriage return and line
feed; a break at the very end starts no further line. -/
def splitLines (cs : List Char) : List (List Char) :=
  let rec go (cur : List Char) : List Char → List (List Char)
    | [] => if cur.isEmpty then [] else [cur.reverse]
    | '\r' :: '\n' :: rest => cur.reverse :: go [] rest
    | c :: rest => if c = '\n' ∨ c = '\r' then cur.reverse :: go [] rest else go (c :: cur) rest
  go [] cs

/-- Whether a character ends a line when a text is cut into all its lines: line feed, vertical
tab, form feed, carriage return, the file, group and record separators, next line, and the line
and paragraph separators. -/
def isLineBreak (c : Char) : Bool :=
  let n := c.toNat
  (0x0A ≤ n && n ≤ 0x0D) || (0x1C ≤ n && n ≤ 0x1E) || n == 0x85 || n == 0x2028 || n == 0x2029

/-- The number of lines of a text cut at every line break, a carriage return and line feed
together ending one line; text after the last break is one more line. `pending` records that the
current line has begun. -/
def lineCountFrom (pending : Bool) : List Char → Nat
  | [] => if pending then 1 else 0
  | '\r' :: '\n' :: rest => lineCountFrom false rest + 1
  | c :: rest => if isLineBreak c then lineCountFrom false rest + 1 else lineCountFrom true rest

/-- The number of lines of a text cut at every line break. -/
def lineCount (cs : List Char) : Nat := lineCountFrom false cs

theorem lineCount_nil : lineCount [] = 0 := rfl

/-- A line break is a blank. -/
theorem isBlank_of_isLineBreak (c : Char) (h : isLineBreak c = true) : isBlank c = true := by
  simp only [isLineBreak, isBlank, Bool.or_eq_true, Bool.and_eq_true, decide_eq_true_eq,
    beq_iff_eq] at h ⊢
  omega

/-- Trims a string of blanks at both ends. -/
def trimString (s : String) : String := String.ofList (trim s.toList)

end SoundLaw.Text
