import SoundLaw.Proofs.Anchors

/-!
# Greedy repetition never gives back

A repetition takes its base for as long as the base matches something, and it never hands a
match back to make room for what follows it. So:

* `base_stops_after_rep` — where a repetition stops, its base fails or matches the empty stretch;
* `base_after_rep_empty` — a repetition followed by its own base matches only where that base
  matches the empty stretch right after the repetition;
* `rep_then_consuming_base` — a base that never matches the empty stretch never follows its own
  repetition; a feature leaf is such a base, so `[+syll]*[+syll]` matches no word;
* `repetition_is_maximal` — the three together.
-/

namespace SoundLaw

namespace Pattern

variable {b : Pattern} {k : Int} {w : List Phoneme}

/-- Where a repetition stops, its base fails or matches the empty stretch: the repetition cannot
be taken one step further. -/
theorem base_stops_after_rep {s L : Nat} (h : (rep b k).matchLength w s = some L) :
    b.matchLength w (s + L) = none ∨ b.matchLength w (s + L) = some 0 := by
  simp only [matchLength] at h
  exact repeatGreedy_stop (Nat.le_refl s) h

/-- A repetition followed by its own base matches only where the base matches the empty stretch
right after the repetition, and then it covers what the repetition covers. -/
theorem base_after_rep_empty {s M : Nat} (h : (seq [rep b k, b]).matchLength w s = some M) :
    ∃ L, (rep b k).matchLength w s = some L ∧ b.matchLength w (s + L) = some 0 ∧ M = L := by
  obtain ⟨L, lb, hrep, hrest, rfl⟩ := matchSeq_cons_some (by simpa only [matchLength] using h)
  obtain ⟨l, lr, hb, hnil, rfl⟩ := matchSeq_cons_some hrest
  have hlr : lr = 0 := by simpa [matchSeq] using hnil.symm
  -- the base after the repetition matched, so it matched the empty stretch
  have hl : l = 0 := by
    rcases base_stops_after_rep hrep with hnone | hzero
    · rw [hnone] at hb
      cases hb
    · rw [hzero] at hb
      exact (Option.some.inj hb).symm
  subst hl hlr
  exact ⟨L, hrep, hb, rfl⟩

/-- A base that never matches the empty stretch never follows its own repetition. -/
theorem rep_then_consuming_base (hb : ∀ j, b.matchLength w j ≠ some 0) (s : Nat) :
    (seq [rep b k, b]).matchLength w s = none := by
  cases h : (seq [rep b k, b]).matchLength w s with
  | none => rfl
  | some M =>
    obtain ⟨L, -, hzero, -⟩ := base_after_rep_empty h
    exact absurd hzero (hb (s + L))

/-- A feature leaf matches one phoneme wherever it matches, never the empty stretch. -/
theorem features_ne_empty (d : FeatureChange) (j : Nat) :
    (Pattern.features d).matchLength w j ≠ some 0 := by
  simp only [matchLength]
  split
  · split <;> simp
  · simp

/-- Greedy repetition is maximal: where it stops its base fails or matches nothing, so a
repetition followed by its base matches only by that base matching the empty stretch, and a
feature leaf after its own repetition (`[+syll]*[+syll]`) never matches. -/
theorem repetition_is_maximal (b : Pattern) (k : Int) (w : List Phoneme) (s : Nat) :
    (∀ L, (rep b k).matchLength w s = some L →
        b.matchLength w (s + L) = none ∨ b.matchLength w (s + L) = some 0) ∧
    (∀ M, (seq [rep b k, b]).matchLength w s = some M →
        ∃ L, (rep b k).matchLength w s = some L ∧ b.matchLength w (s + L) = some 0) ∧
    ∀ d : FeatureChange, (seq [rep (.features d) k, .features d]).matchLength w s = none := by
  refine ⟨fun L h => base_stops_after_rep h, fun M h => ?_, fun d => ?_⟩
  · obtain ⟨L, hrep, hzero, -⟩ := base_after_rep_empty h
    exact ⟨L, hrep, hzero⟩
  · exact rep_then_consuming_base (features_ne_empty d) s

end Pattern

end SoundLaw
