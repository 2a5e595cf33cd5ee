/-!
# Errors

Everything that can go wrong while reading notation, loading an inventory or changing words is
a value of `SoundError`, and the wording of each lives in `SoundError.message`. Faults of the
notation's syntax are a `SyntaxFault`, reported together with the text they were found in.

* `SyntaxFault`, `SyntaxFault.reason` — malformed notation and the reason given for it;
* `SoundError` — all failures, from syntax to values of the wrong kind handed to the history;
* `SoundError.message` — the text of each.
-/

namespace SoundLaw

/-- The most decimal digits an integer may have to be read from text or written as text. -/
def digitLimit : Nat := 4300

/-- The ways a notation text can be malformed. -/
inductive SyntaxFault
  /-- An odd number of delimiters of one pair, named by `label`. -/
  | oddDelimiters (label : String)
  /-- Delimiters of one pair that do not alternate opening, closing. -/
  | unbalancedDelimiters (label : String)
  /-- A repetition mark with nothing before it to repeat. -/
  | danglingQuantifier
  /-- A rule without its arrow. -/
  | missingArrow (arrow : String)
  /-- A rule without the slash before its environment. -/
  | missingSlash
  /-- An environment without the focus mark. -/
  | missingFocus
  /-- An arrow that holds an angle bracket, which marks alternative groups. -/
  | arrowCollision
  deriving DecidableEq

/-- The reason a syntax fault is reported with. -/
def SyntaxFault.reason : SyntaxFault → String
  | .oddDelimiters label => "Odd number of " ++ label ++ " in string"
  | .unbalancedDelimiters label => "Unbalanced " ++ label ++ " in string"
  | .danglingQuantifier => "Quantifier without a preceding atom"
  | .missingArrow arrow => "Missing arrow '" ++ arrow ++ "' in rule"
  | .missingSlash => "Missing '/' before the environment in rule"
  | .missingFocus => "Missing focus '_' in environment"
  | .arrowCollision => "Arrow collides with the angle-bracket group syntax"

/-- Every failure of reading notation, loading inventories and changing words. -/
inductive SoundError
  /-- Malformed notation, with the text it was found in (empty when there is none). -/
  | malformed (fault : SyntaxFault) (text : String)
  /-- A rule output names a symbol the inventory lacks. -/
  | unknownPhoneme (symbol : String)
  /-- A slot-by-slot output meets a span of another length. -/
  | lengthMismatch (span slots : Nat)
  /-- No inventory is stored under the code. -/
  | languageNotFound (code : String)
  /-- The stored inventory cannot be read, for the reason given. -/
  | badInventory (code : String) (details : String)
  /-- A failure of another kind met while running a history, reported by its text. -/
  | unexpected (detail : String)
  /-- A negative repetition count, which has no subscript spelling. -/
  | negativeCount
  /-- An integer written with more digits than the limit of 4300; their number is given. -/
  | tooManyDigits (digits : Nat)
  /-- A repetition count with more digits than the limit of 4300, which cannot be written. -/
  | countTooLarge
  /-- Polarity expansion that never ends, because a polarity letter is itself a sign. -/
  | endlessExpansion
  /-- A value without a length where a word was expected; the value's type is named. -/
  | notSized (type : String)
  /-- A value that is not text where a rule notation was expected. -/
  | notText (type : String)
  /-- A value that cannot be a member of a set (a list or an object); its type is named. -/
  | unhashable (type : String)
  /-- A value lacking an operation a word needs; its type and the operation are named. -/
  | lacks (type : String) (operation : String)
  /-- A look-up by a key the value does not have. -/
  | missingKey (key : String)
  /-- A split with no delimiter characters at all, whose set of delimiters cannot be written. -/
  | noDelimiters
  deriving DecidableEq

namespace SoundError

/-- Whether the failure belongs to the notation, the inventory or the sound change itself, rather
than to values of the wrong kind. -/
def isOwn : SoundError → Bool
  | .malformed .. | .unknownPhoneme _ | .lengthMismatch .. | .languageNotFound _
  | .badInventory .. | .unexpected _ => true
  | _ => false

/-- The text of a failure. -/
def message : SoundError → String
  | .malformed fault text =>
    if text.isEmpty then fault.reason else fault.reason ++ ": '" ++ text ++ "'"
  | .unknownPhoneme s => "No phoneme with symbol '" ++ s ++ "' in the language inventory."
  | .lengthMismatch span slots =>
    "Length mismatch: matched " ++ toString span ++ " phoneme(s) but the output has " ++
      toString slots ++ " slot(s)."
  | .languageNotFound code =>
    "Language '" ++ code ++ "' is not supported or not found in the registry."
  | .badInventory code details => "Invalid phoneme inventory for '" ++ code ++ "': " ++ details
  | .unexpected detail => "Unexpected sound change failure: " ++ detail
  | .negativeCount => "invalid literal for int() with base 10: '-'"
  | .tooManyDigits n =>
    "Exceeds the limit (4300 digits) for integer string conversion: value has " ++ toString n ++
      " digits; use sys.set_int_max_str_digits() to increase the limit"
  | .countTooLarge =>
    "Exceeds the limit (4300 digits) for integer string conversion; " ++
      "use sys.set_int_max_str_digits() to increase the limit"
  | .endlessExpansion => "maximum recursion depth exceeded while calling a Python object"
  | .notSized type => "object of type '" ++ type ++ "' has no len()"
  | .notText type => "expected string or bytes-like object, got '" ++ type ++ "'"
  | .unhashable type => "unhashable type: '" ++ type ++ "'"
  | .lacks type operation => "'" ++ type ++ "' object has no attribute '" ++ operation ++ "'"
  | .missingKey key => key
  | .noDelimiters => "unterminated character set at position 0"

end SoundError

end SoundLaw
