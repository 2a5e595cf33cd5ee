import SoundLaw.Error

/-!
# Delimited text

Brace and bracket groups of the notation do not nest: a text is split at every opening and
closing delimiter, and the pieces alternate between outside and inside a group, starting and
ending outside. `splitDelimited` refuses a text whose delimiters do not pair up, reporting an odd
count before a wrong order. The delimiters are given as texts: every character of either is a
cut, but only a one-character text counts when pairing them up.

* `splitWhere` — the pieces between the characters that satisfy a test;
* `alternates` — whether the delimiters read opening, closing, opening, … in order;
* `splitDelimited` — the pieces, or the syntax fault.
-/

namespace SoundLaw.Text

/-- The pieces of a character list between the characters that satisfy `cut`; there is always
one more piece than there are cut characters. -/
def splitWhere (cut : Char → Bool) : List Char → List (List Char)
  | [] => [[]]
  | c :: cs =>
    if cut c then [] :: splitWhere cut cs
    else match splitWhere cut cs with
      | first :: rest => (c :: first) :: rest
      | [] => [[c]]

/-- Whether the delimiters among `cs`, read in order, alternate between `opening` and `closing`,
starting with the one expected (`opening` when `expectOpen`). -/
def alternates (opening closing : String) (expectOpen : Bool) : List Char → Bool
  | [] => true
  | c :: cs =>
    let s := String.singleton c
    if s = opening ∨ s = closing then
      if s = (if expectOpen then opening else closing) then
        alternates opening closing (!expectOpen) cs
      else false
    else alternates opening closing expectOpen cs

/-- The pieces of `text` between delimiters, outside pieces at even and inside pieces at odd
places. The delimiters are the characters of `opening` and `closing`, of which there must be
at least one; `label` names the pair in the fault reported when they do not pair up. -/
def splitDelimited (opening closing label : String) (text : List Char) :
    Except SoundError (List (List Char)) :=
  let parts := splitWhere (fun c => opening.toList.contains c || closing.toList.contains c) text
  if opening.isEmpty && closing.isEmpty then .error .noDelimiters
  else if parts.length % 2 != 1 then
    .error (.malformed (.oddDelimiters label) (String.ofList text))
  else if alternates opening closing true text then .ok parts
  else .error (.malformed (.unbalancedDelimiters label) (String.ofList text))

end SoundLaw.Text
