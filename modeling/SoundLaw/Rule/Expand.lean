import SoundLaw.Notation

/-!
# Expanding rule shorthand

A notation may stand for several rules:

* `(…)` — optional material: the rule with it and without it (a parenthesised group followed,
  after blanks, by a repetition mark is a repeated group instead and stays);
* `<…>` — material present in one variant and absent in the other;
* a polarity letter (`α`, `β`, …) — `+` in one variant and `-` in the other, everywhere in the
  rule at once.

`expand` resolves the shorthand by case splitting on the first construct left, optional groups
before angle groups before polarity letters, and always the variant with the material or `+`
first. A polarity letter that is itself `+` or `-` would be split forever; that is reported as
`endlessExpansion`. An arrow holding an angle bracket is refused first.
-/

namespace SoundLaw

namespace Expand

/-- The offset of the first character of `cs` among `marks`, and that character. -/
def firstOf (marks : List Char) : List Char → Option (Nat × Char)
  | [] => none
  | c :: cs => if marks.contains c then some (0, c) else (firstOf marks cs).map fun (k, d) => (k + 1, d)

/-- The first optional group of `cs`, counting offsets from `off`: a `(` whose next parenthesis
is `)`, not followed after blanks by a repetition mark. The answer is the offsets of the two
parentheses' outer ends. -/
def optionalGroup (n : Notation) (cs : List Char) (off : Nat) : Option (Nat × Nat) :=
  match cs with
  | [] => none
  | c :: rest =>
    if c = '(' then
      match firstOf ['(', ')'] rest with
      | some (k, ')') =>
        let after := rest.drop (k + 1)
        match Text.trimLeft after with
        | d :: _ =>
          if n.isQuantifierChar d then optionalGroup n after (off + k + 2)
          else some (off, off + k + 2)
        | [] => some (off, off + k + 2)
      | _ => optionalGroup n rest (off + 1)
    else optionalGroup n rest (off + 1)
termination_by cs.length
decreasing_by
  all_goals simp only [List.length_cons, List.length_drop]
  all_goals omega

/-- The first angle group of `cs`, counting offsets from `off`: a `<` whose next angle bracket
is `>`. -/
def angleGroup : List Char → Nat → Option (Nat × Nat)
  | [], _ => none
  | c :: rest, off =>
    if c = '<' then
      match firstOf ['<', '>'] rest with
      | some (k, '>') => some (off, off + k + 2)
      | _ => angleGroup rest (off + 1)
    else angleGroup rest (off + 1)

/-- The concrete rules of a notation text, with `fuel` levels of splitting left. -/
def expandFrom (n : Notation) : Nat → List Char → Except SoundError (List String)
  | 0, _ => .error .endlessExpansion
  | fuel + 1, cs =>
    match (optionalGroup n cs 0).orElse fun _ => angleGroup cs 0 with
    | some (a, b) => do
      let kept := cs.take a ++ ((cs.drop (a + 1)).take (b - a - 2)) ++ cs.drop b
      let removed := cs.take a ++ cs.drop b
      let first ← expandFrom n fuel kept
      let second ← expandFrom n fuel removed
      .ok (first ++ second)
    | none =>
      match cs.find? fun c => n.polarity.toList.contains c with
      | some l =>
        if l = '+' ∨ l = '-' then .error .endlessExpansion
        else do
          let plus ← expandFrom n fuel (cs.map fun c => if c = l then '+' else c)
          let minus ← expandFrom n fuel (cs.map fun c => if c = l then '-' else c)
          .ok (plus ++ minus)
      | none => .ok [String.ofList cs]

end Expand

/-- The concrete rules a notation stands for, in order. -/
def expand (n : Notation) (text : String) : Except SoundError (List String) :=
  if n.arrow.toList.contains '<' || n.arrow.toList.contains '>' then
    .error (.malformed .arrowCollision n.arrow)
  else Expand.expandFrom n (2 * text.length + 2) text.toList

end SoundLaw
