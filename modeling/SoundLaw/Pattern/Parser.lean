import SoundLaw.Pattern.Canonical
import SoundLaw.Text.Delimited
import SoundLaw.Notation

/-!
# Reading patterns

`Pattern.parse` reads pattern notation into a canonical pattern. The text is read in passes, each
splitting it and reading the plain pieces again:

1. *repetition marks*: a `*` (least count zero) or a run of subscript digits (the count written
   in them, of at most 4300 digits) repeats the atom right before it — a bracket, brace or
   parenthesis group, or else a single non-blank character, followed only by blanks;
2. *brace groups* `{a,e}`: alternations, one option per comma-separated piece;
3. *bracket groups* `[+high -front]`: feature changes read as constraints;
4. *single characters*: `#`, the null symbol, a class abbreviation or a symbol; blanks are
   skipped.

A blank text or the null symbol alone reads as `null`, `#` alone as `boundary`. Every piece read
again is shorter than the text it came from, so reading with fuel one more than the text length
never runs out.
-/

namespace SoundLaw

namespace Pattern

/-- The opening delimiter of a group closed by `c`. -/
def openerOf (c : Char) : Option Char :=
  if c = ']' then some '[' else if c = ')' then some '('
  else if c = Char.ofNat 125 then some (Char.ofNat 123) else none

/-- The characters of `t` from offset `a` up to offset `b`. -/
def slice (t : Array Char) (a b : Nat) : List Char := (t.extract a b).toList

/-- The last offset in `[lo, hi)` whose character passes `test`. -/
def lastWhere (t : Array Char) (test : Char → Bool) (lo hi : Nat) : Option Nat :=
  (List.range' lo (hi - lo)).foldl (fun found q =>
    match t[q]? with
    | some c => if test c then some q else found
    | none => found) none

/-- The first offset in `[lo, hi)` whose character passes `test`. -/
def firstWhere (t : Array Char) (test : Char → Bool) (lo hi : Nat) : Option Nat :=
  (List.range' lo (hi - lo)).find? fun q =>
    match t[q]? with
    | some c => test c
    | none => false

/-- The atom a repetition mark at offset `hi` applies to, searched from offset `lo`: the
leftmost group that closes, at its first closing delimiter, on the last non-blank character
before the mark, else that character alone. Such a group opens after the last earlier closing
delimiter of its kind. The answer is the atom's first offset and the offset just after it. -/
def atomBefore (t : Array Char) (lo hi : Nat) : Option (Nat × Nat) :=
  match lastWhere t (fun c => !Text.isBlank c) lo hi with
  | none => none
  | some q =>
    let closing := t[q]?.getD ' '
    match openerOf closing with
    | none => some (q, q + 1)
    | some opening =>
      let from_ := match lastWhere t (· == closing) lo q with
        | some r => r + 1
        | none => lo
      match firstWhere t (· == opening) from_ q with
      | some p => some (p, q + 1)
      | none => some (q, q + 1)

/-- The decimal value of a run of subscript digits. -/
def countOf (n : Notation) (run : List Char) : Nat :=
  run.foldl (fun acc c => acc * 10 + (n.digitOf c).getD 0) 0

/-- The subscript digits of `t` from offset `i` on, reversed in `acc`; `fuel` bounds them. -/
def digitRun (n : Notation) (t : Array Char) : Nat → Nat → List Char → List Char
  | 0, _, acc => acc.reverse
  | fuel + 1, i, acc =>
    match t[i]? with
    | some d => if (n.digitOf d).isSome then digitRun n t fuel (i + 1) (d :: acc) else acc.reverse
    | none => acc.reverse

/-- The repetition mark at offset `i`, if any: its least count (or the error that it has too
many digits to be read) and how many characters follow the first one in the mark. -/
def markAt (n : Notation) (t : Array Char) (i : Nat) : Option (Except SoundError Nat × Nat) :=
  match t[i]? with
  | some c =>
    if c = '*' then some (.ok 0, 0)
    else if (n.digitOf c).isSome then
      let run := digitRun n t t.size i []
      if digitLimit < run.length then some (.error (.tooManyDigits run.length), run.length - 1)
      else some (.ok (countOf n run), run.length - 1)
    else none
  | none => none

/-- The pattern a character stands for on its own. -/
def ofChar (n : Notation) (c : Char) : Pattern :=
  if c = '#' then .boundary
  else if [c] = n.null.toList then .null
  else match n.classOf (String.singleton c) with
    | some d => .features d
    | none => .symbol (String.singleton c)

/-- Reads the atom of a repetition: a parenthesised group by its inside, anything else as it is. -/
def readAtom (sub : List Char → Except SoundError Pattern) : List Char → Except SoundError Pattern
  | '(' :: rest => if rest.getLast? = some ')' then sub rest.dropLast else sub ('(' :: rest)
  | atom => sub atom

/-- The repetition pass over the trimmed text `t`, reading pieces with `sub`: `none` when `t` has
no repetition mark; else the pieces between the repeated atoms and the repetitions, in order.
`items` holds what is read so far, last first, and `lastEnd` the offset after the last mark. -/
def quantified (n : Notation) (sub : List Char → Except SoundError Pattern) (t : Array Char)
    (items : List Pattern) (lastEnd index : Nat) : Except SoundError (Option Pattern) :=
  if index < t.size then
    match markAt n t index with
    | none => quantified n sub t items lastEnd (index + 1)
    | some (.error e, _) => .error e
    | some (.ok least, more) =>
      match atomBefore t lastEnd index with
      | none => .error (.malformed .danglingQuantifier (String.ofList t.toList))
      | some (a, b) => do
        let before ← sub (slice t lastEnd a)
        let atom ← readAtom sub (slice t a b)
        quantified n sub t (.rep atom least :: before :: items) (index + 1 + more)
          (index + 1 + more)
  else if items.isEmpty then .ok none
  else do
    let rest ← sub (slice t lastEnd t.size)
    .ok (some (.seq (rest :: items).reverse))
termination_by t.size - index

/-- Reads pattern notation with `fuel` nested readings left; the result is not yet canonical. -/
def read (n : Notation) : Nat → List Char → Except SoundError Pattern
  | 0, _ => .ok .null
  | fuel + 1, text =>
    let t := Text.trim text
    if t.isEmpty || t == n.null.toList then .ok .null
    else if t == ['#'] then .ok .boundary
    else do
      match ← quantified n (read n fuel) t.toArray [] 0 0 with
      | some p => .ok p
      | none =>
        let braces ← Text.splitDelimited "\x7b" "\x7d" "braces" t
        if 1 < braces.length then
          let parts ← braces.zipIdx.mapM fun (part, i) =>
            if i % 2 = 1 then
              (Text.splitWhere (· == ',') part).mapM (read n fuel) >>= fun os => .ok (.alt os)
            else read n fuel part
          .ok (.seq parts)
        else
          let brackets ← Text.splitDelimited "[" "]" "brackets" t
          if 1 < brackets.length then
            let parts ← brackets.zipIdx.mapM fun (part, i) =>
              if i % 2 = 1 then .ok (.features (FeatureChange.parse (String.ofList part)))
              else read n fuel part
            .ok (.seq parts)
          else .ok (.seq ((t.filter fun c => !Text.isBlank c).map (ofChar n)))

/-- Reads pattern notation into its canonical pattern. -/
def parse (n : Notation) (s : String) : Except SoundError Pattern :=
  (read n (s.length + 1) s.toList).map canonicalize

end Pattern

end SoundLaw
