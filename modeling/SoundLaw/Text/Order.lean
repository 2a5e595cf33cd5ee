import SoundLaw.Text.Surrogate

/-!
# Code-point order of texts

Texts are ordered by their code points, compared one by one, a text coming before every longer
text it begins. A kept surrogate half counts as its own code point, so it comes after every
character below `U+D800` and before every character from `U+E000` on, although the character that
keeps it lies in plane 9.

* `codeOf`, `codes` — the code points a character and a text stand for;
* `precedes` — the order, with the Boolean tests `before` and `atMost` for sorting;
* `precedes_irrefl`, `precedes_trans`, `precedes_trichotomy` — it is a strict total order.
-/

namespace SoundLaw.Text

/-- The code point a character stands for: a kept surrogate half stands for the half itself. -/
def codeOf (c : Char) : Nat :=
  match half? c with
  | some u => u
  | none => c.toNat

/-- The code points a text stands for, in order. -/
def codes (s : String) : List Nat := s.toList.map codeOf

/-- Whether `a` comes before `b` in code-point order. -/
def precedes (a b : String) : Prop := codes a < codes b

instance (a b : String) : Decidable (precedes a b) :=
  inferInstanceAs (Decidable (codes a < codes b))

/-- Whether `a` comes strictly before `b`. -/
def before (a b : String) : Bool := decide (precedes a b)

/-- Whether `a` comes before `b` or is `b`. -/
def atMost (a b : String) : Bool := !before b a

/-- A character that keeps no half stands for a code point outside the surrogate range. -/
theorem codeOf_of_not_half {c : Char} (h : half? c = none) :
    codeOf c = c.toNat ∧ (c.toNat < 0xD800 ∨ 0xDFFF < c.toNat) := by
  refine ⟨by unfold codeOf; rw [h], ?_⟩
  have hv : c.toNat.isValidChar := c.valid
  unfold Nat.isValidChar at hv
  omega

/-- A character that keeps the half `u` is `halfBase + u`, and `u` is a surrogate. -/
theorem codeOf_of_half {c : Char} {u : Nat} (h : half? c = some u) :
    codeOf c = u ∧ c.toNat = halfBase + u ∧ 0xD800 ≤ u ∧ u ≤ 0xDFFF := by
  refine ⟨by unfold codeOf; rw [h], ?_⟩
  unfold half? at h
  split at h
  · rename_i hr
    simp only [Option.some.injEq] at h
    omega
  · exact absurd h (by simp)

/-- Distinct characters stand for distinct code points. -/
theorem codeOf_injective {c d : Char} (h : codeOf c = codeOf d) : c = d := by
  have key : c.toNat = d.toNat := by
    cases hc : half? c with
    | none =>
      cases hd : half? d with
      | none =>
        rw [(codeOf_of_not_half hc).1, (codeOf_of_not_half hd).1] at h
        exact h
      | some v =>
        have ⟨ec, rc⟩ := codeOf_of_not_half hc
        have ⟨ed, _, lo, hi⟩ := codeOf_of_half hd
        omega
    | some u =>
      cases hd : half? d with
      | none =>
        have ⟨ec, _, lo, hi⟩ := codeOf_of_half hc
        have ⟨ed, rd⟩ := codeOf_of_not_half hd
        omega
      | some v =>
        have ⟨ec, tc, _, _⟩ := codeOf_of_half hc
        have ⟨ed, td, _, _⟩ := codeOf_of_half hd
        omega
  rw [← Char.ofNat_toNat c, ← Char.ofNat_toNat d, key]

/-- Character lists with the same code points are equal. -/
theorem map_codeOf_injective : ∀ {l m : List Char}, l.map codeOf = m.map codeOf → l = m
  | [], [], _ => rfl
  | [], _ :: _, h => by simp at h
  | _ :: _, [], h => by simp at h
  | c :: l, d :: m, h => by
    simp only [List.map_cons, List.cons.injEq] at h
    rw [codeOf_injective h.1, map_codeOf_injective h.2]

/-- Texts with the same code points are equal. -/
theorem codes_injective {a b : String} (h : codes a = codes b) : a = b :=
  String.toList_injective (map_codeOf_injective h)

theorem precedes_irrefl (a : String) : ¬ precedes a a := List.lt_irrefl _

theorem precedes_trans {a b c : String} (h₁ : precedes a b) (h₂ : precedes b c) :
    precedes a c :=
  List.lt_trans h₁ h₂

theorem precedes_trichotomy (a b : String) : precedes a b ∨ a = b ∨ precedes b a := by
  by_cases h₁ : precedes a b
  · exact Or.inl h₁
  · by_cases h₂ : precedes b a
    · exact Or.inr (Or.inr h₂)
    · exact Or.inr (Or.inl (codes_injective
        (List.le_antisymm (List.not_lt.mp h₂) (List.not_lt.mp h₁))))

theorem before_eq_true {a b : String} : before a b = true ↔ precedes a b := by
  simp [before]

end SoundLaw.Text
