import SoundLaw.Text.Printable
import SoundLaw.Text.Surrogate

/-!
# Quoted text

Messages of the library name symbols, feature lists and notations between quotes. A text is
written between single quotes, unless it holds a single quote and no double quote, in which case
double quotes are used; inside, the backslash and the chosen quote are escaped, tab, line feed
and carriage return get their letter escapes, and characters that have no printed form
(`isUnprinted`) get hex escapes, a kept surrogate half the escape of the half.

* `escapeChar` — one character inside quotes;
* `quote` — one text between quotes;
* `quoteList` — a bracketed, comma-separated list of quoted texts.
-/

namespace SoundLaw.Text

/-- The lowercase hex digit of a number below sixteen. -/
def hexDigit (n : Nat) : Char :=
  if n < 10 then Char.ofNat (48 + n) else Char.ofNat (87 + n)

/-- The `width` lowest hex digits of `n`, most significant first. -/
def hexDigits (n : Nat) : Nat → List Char
  | 0 => []
  | width + 1 => hexDigits (n / 16) width ++ [hexDigit (n % 16)]

/-- The escape of one character inside quotes `q`. -/
def escapeChar (q : Char) (c : Char) : List Char :=
  if c = q ∨ c = '\\' then ['\\', c]
  else if c = '\t' then ['\\', 't']
  else if c = '\n' then ['\\', 'n']
  else if c = '\r' then ['\\', 'r']
  else if let some u := half? c then '\\' :: 'u' :: hexDigits u 4
  else if isUnprinted c then
    if c.toNat < 0x100 then '\\' :: 'x' :: hexDigits c.toNat 2
    else if c.toNat < 0x10000 then '\\' :: 'u' :: hexDigits c.toNat 4
    else '\\' :: 'U' :: hexDigits c.toNat 8
  else [c]

/-- The quote a text is written between: double only when the text holds a single quote and
no double quote. -/
def quoteChar (s : String) : Char :=
  if s.toList.contains '\'' && !s.toList.contains '"' then '"' else '\''

/-- A text between quotes, escaped. -/
def quote (s : String) : String :=
  let q := quoteChar s
  String.ofList (q :: s.toList.flatMap (escapeChar q) ++ [q])

/-- A list of texts, each quoted, between brackets and separated by a comma and a space. -/
def quoteList (xs : List String) : String :=
  "[" ++ ", ".intercalate (xs.map quote) ++ "]"

end SoundLaw.Text
