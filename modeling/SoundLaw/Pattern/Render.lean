import SoundLaw.Pattern.Basic
import SoundLaw.Notation

/-!
# Writing patterns

`Pattern.render` writes a pattern in the rule notation: the null symbol, `#`, a symbol, a
bracketed feature change, children side by side, options between braces separated by commas,
and a repetition as its base followed by `*` (least count zero) or the count in subscript
digits. A base that is not a single symbol, feature change or alternation is put between
parentheses. A negative least count has no subscript spelling and makes writing fail.
-/

namespace SoundLaw

namespace Pattern

/-- Whether a pattern stands as the base of a repetition without parentheses. -/
def isAtom : Pattern → Bool
  | .symbol _ | .features _ | .alt _ => true
  | _ => false

mutual
/-- The notation text of a pattern. -/
def render (n : Notation) : Pattern → Except SoundError String
  | .null => .ok n.null
  | .boundary => .ok "#"
  | .symbol s => .ok s
  | .features d => .ok d.render
  | .seq ps => do
    let parts ← renderList n ps
    .ok (String.join parts)
  | .alt ps => do
    let parts ← renderList n ps
    .ok ("\x7b" ++ ",".intercalate parts ++ "\x7d")
  | .rep p k => do
    let base ← render n p
    let mark ← if k = 0 then .ok "*" else n.toSubscript k
    .ok ((if p.isAtom then base else "(" ++ base ++ ")") ++ mark)

/-- The notation texts of a list of patterns. -/
def renderList (n : Notation) : List Pattern → Except SoundError (List String)
  | [] => .ok []
  | p :: ps => do
    let x ← render n p
    let xs ← renderList n ps
    .ok (x :: xs)
end

end Pattern

end SoundLaw
