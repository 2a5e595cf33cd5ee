import SoundLaw.Feature.Change

/-!
# Patterns

A pattern describes stretches of a phoneme sequence. It is a tree of seven kinds of node:

* `null` — the empty stretch, anywhere;
* `boundary` — the empty stretch at either end of the word;
* `symbol s` — one phoneme written `s`;
* `features d` — one phoneme whose features satisfy the change `d` read as a constraint;
* `seq ps` — the patterns one after another;
* `alt ps` — the longest of the options;
* `rep p k` — greedy repetition of `p`, at least `k` times.

Equality of patterns is decidable: `Pattern.beq` compares two trees node by node and
`beq_iff` shows it decides equality.
-/

namespace SoundLaw

/-- A pattern over phoneme sequences. -/
inductive Pattern where
  /-- The empty stretch, anywhere. -/
  | null
  /-- The empty stretch at an end of the word. -/
  | boundary
  /-- One phoneme, by symbol. -/
  | symbol (s : String)
  /-- One phoneme, by features. -/
  | features (d : FeatureChange)
  /-- Concatenation. -/
  | seq (children : List Pattern)
  /-- The longest match among the options. -/
  | alt (options : List Pattern)
  /-- Greedy repetition with a least count. -/
  | rep (base : Pattern) (least : Int)
  deriving Inhabited

namespace Pattern

mutual
/-- Node-by-node comparison of two patterns. -/
def beq : Pattern → Pattern → Bool
  | .null, .null => true
  | .boundary, .boundary => true
  | .symbol a, .symbol b => a == b
  | .features a, .features b => decide (a = b)
  | .seq as, .seq bs => beqList as bs
  | .alt as, .alt bs => beqList as bs
  | .rep a m, .rep b n => beq a b && m == n
  | _, _ => false

/-- Element-by-element comparison of two pattern lists. -/
def beqList : List Pattern → List Pattern → Bool
  | [], [] => true
  | a :: as, b :: bs => beq a b && beqList as bs
  | _, _ => false
end

mutual
theorem beq_iff : ∀ a b : Pattern, beq a b = true ↔ a = b
  | .null, b => by cases b <;> simp [beq]
  | .boundary, b => by cases b <;> simp [beq]
  | .symbol s, b => by cases b <;> simp [beq]
  | .features d, b => by cases b <;> simp [beq]
  | .seq as, b => by
    cases b with
    | seq bs => simp only [beq, beqList_iff as bs, seq.injEq]
    | _ => simp [beq]
  | .alt as, b => by
    cases b with
    | alt bs => simp only [beq, beqList_iff as bs, alt.injEq]
    | _ => simp [beq]
  | .rep a m, b => by
    cases b with
    | rep b n => simp only [beq, Bool.and_eq_true, beq_iff a b, beq_iff_eq, rep.injEq]
    | _ => simp [beq]

theorem beqList_iff : ∀ as bs : List Pattern, beqList as bs = true ↔ as = bs
  | [], bs => by cases bs <;> simp [beqList]
  | a :: as, bs => by
    cases bs with
    | nil => simp [beqList]
    | cons b bs =>
      simp only [beqList, Bool.and_eq_true, List.cons.injEq, beq_iff a b, beqList_iff as bs]
end

instance : DecidableEq Pattern := fun a b => decidable_of_iff _ (beq_iff a b)

end Pattern

end SoundLaw
