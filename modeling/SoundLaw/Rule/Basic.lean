import SoundLaw.Pattern.Parser
import SoundLaw.Pattern.Render
import SoundLaw.Inventory

/-!
# Rules

A rule is written `input → output / before_after`: the input pattern is replaced by the output
wherever it stands between a match of the `before` context and a match of the `after` context.

The output is a list of *slots*: a literal phoneme, a feature change applied to the phoneme
matched at the same place, or a deletion. An output of literals and deletions replaces the whole
matched span, whatever its length; an output with a feature change is applied slot by slot and
needs exactly one slot per matched phoneme.

* `Rule.compile` — reads a rule; faults are reported in the order arrow, slash, focus, then the
  input, before, after patterns and the output;
* `Rule.substitute` — the output for a matched span, with the notices of feature changes that led
  outside the inventory;
* `Rule.render` — the rule written back in canonical notation.

Substitution runs in `Traced`: it may fail, and the notices raised before a failure are kept.
-/

namespace SoundLaw

/-- A computation that may fail and records notices in order; a failure keeps the notices
raised before it. -/
abbrev Traced := ExceptT SoundError (StateM (List Unlisted))

/-- Records a notice. -/
def Traced.note (u : Unlisted) : Traced Unit := modify (· ++ [u])

/-- The outcome of a traced computation started with no notices, and the notices raised. -/
def Traced.run' {α : Type} (x : Traced α) : Except SoundError α × List Unlisted :=
  (ExceptT.run x).run []

/-- One place of a rule's output. -/
inductive Slot
  /-- Nothing is written here. -/
  | delete
  /-- The matched phoneme, changed. -/
  | change (d : FeatureChange)
  /-- This phoneme is written. -/
  | literal (p : Phoneme)
  deriving DecidableEq

/-- A compiled rule. -/
structure Rule where
  /-- The notation the rule was compiled from. -/
  text : String
  /-- The notation settings the rule was read with. -/
  glyphs : Notation
  inventory : Inventory
  input : Pattern
  before : Pattern
  after : Pattern
  output : List Slot
  /-- The `before` context starts with `#`. -/
  initial : Bool
  /-- The `after` context ends with `#`. -/
  final : Bool

/-- The parts of `s` before and after the first occurrence of `sep`. -/
def splitOnce (sep : List Char) : List Char → Option (List Char × List Char)
  | [] => if sep.isEmpty then some ([], []) else none
  | c :: cs =>
    if sep.isPrefixOf (c :: cs) then some ([], (c :: cs).drop sep.length)
    else (splitOnce sep cs).map fun (a, b) => (c :: a, b)

namespace Rule

/-- The slots written by an output specification: bracket groups are feature changes; outside
them, the null symbol deletes, an inventory symbol is that phoneme, a class abbreviation is its
feature change, blanks are skipped and any other character is refused. -/
def readOutput (n : Notation) (inv : Inventory) (spec : List Char) :
    Except SoundError (List Slot) := do
  let parts ← Text.splitDelimited "[" "]" "brackets" spec
  let slots ← parts.zipIdx.mapM fun (part, i) =>
    if i % 2 = 1 then .ok [Slot.change (FeatureChange.parse (String.ofList part))]
    else (part.filter fun c => !Text.isBlank c).mapM fun c =>
      if [c] = n.null.toList then .ok Slot.delete
      else match inv.findSymbol (String.singleton c) with
        | some p => .ok (Slot.literal p)
        | none => match n.classOf (String.singleton c) with
          | some d => .ok (Slot.change d)
          | none => .error (.unknownPhoneme (String.singleton c))
  .ok slots.flatten

/-- Compiles a concrete rule (no optional groups or polarity letters left). -/
def compile (n : Notation) (inv : Inventory) (text : String) : Except SoundError Rule := do
  let fault {α : Type} (f : SyntaxFault) : Except SoundError α := .error (.malformed f text)
  let some (inputSpec, remainder) := splitOnce n.arrow.toList text.toList
    | fault (.missingArrow n.arrow)
  let some (outputSpec, env) := splitOnce ['/'] remainder
    | fault .missingSlash
  let env := Text.trim env
  if !env.isEmpty && !env.contains '_' then fault .missingFocus
  let (pre, post) := match splitOnce ['_'] env with
    | some (a, b) => (Text.trim a, Text.trim b)
    | none => (env, [])
  let input ← Pattern.parse n (String.ofList inputSpec)
  let before ← Pattern.parse n (String.ofList pre)
  let after ← Pattern.parse n (String.ofList post)
  let output ← readOutput n inv (Text.trim outputSpec)
  .ok ⟨text, n, inv, input, before, after, output, pre.head? == some '#',
    post.getLast? == some '#'⟩

/-- Whether the output changes phonemes slot by slot. -/
def bySlot (r : Rule) : Bool := r.output.any fun
  | .change _ => true
  | _ => false

/-- The phoneme a slot writes for the phoneme matched at its place, if any. -/
def fill (r : Rule) (p : Phoneme) : Slot → Traced (Option Phoneme)
  | .delete => pure none
  | .literal q => pure (some q)
  | .change d => do
    let (q, notice) := r.inventory.shift p d
    if let some u := notice then Traced.note u
    pure (some q)

/-- The output written for a matched span. -/
def substitute (r : Rule) (span : List Phoneme) : Traced (List Phoneme) :=
  if r.bySlot then
    if span.length = r.output.length then do
      let written ← (span.zip r.output).mapM fun (p, slot) => r.fill p slot
      pure written.reduceOption
    else throw (.lengthMismatch span.length r.output.length)
  else pure (r.output.filterMap fun
    | .literal p => some p
    | _ => none)

/-- The text of one output slot. -/
def slotText (n : Notation) : Slot → String
  | .delete => n.null
  | .literal p => p.symbol
  | .change d => d.render

/-- The rule in canonical notation: input, arrow, output (the null symbol when empty), slash,
then the contexts around `_`, a `null` context written as nothing. -/
def render (r : Rule) : Except SoundError String := do
  let n := r.glyphs
  let pre ← if r.before = .null then .ok "" else r.before.render n
  let post ← if r.after = .null then .ok "" else r.after.render n
  let input ← r.input.render n
  let out := String.join (r.output.map (slotText n))
  .ok (input ++ " " ++ n.arrow ++ " " ++ (if out.isEmpty then n.null else out) ++ " / " ++ pre ++
    "_" ++ post)

end Rule

end SoundLaw
