import SoundLaw.Pattern.Match

/-!
# How far a pattern reaches

A pattern matched at offset `i` of a word never consumes more than what is left of the word
(`matchLength_le`): at most `|w| - i` phonemes, so nothing at all once `i` is at or past the end.
Greedy repetition (`repeatGreedy`) gets the lemmas the proofs about patterns build on:

* `repeatGreedy_le` — a repetition of a step that stays inside the word stays inside it;
* `repeatGreedy_congr` — two steps that agree inside the word repeat alike;
  `repeatGreedy_congr_from` — two steps that agree from an offset on repeat alike from there;
* `repeatGreedy_pos` — a repetition of a step that always moves on, wanted at least once, moves on;
* `repeatGreedy_stop` — a repetition ends where its step fails or matches nothing;
* `repeatGreedy_nonpos` — with a least count of zero or less the count is never consulted, and
  with enough fuel the repetition always succeeds.
-/

namespace SoundLaw

/-- The larger of two match results is one of them. -/
theorem longer_eq_some {a b : Option Nat} {l : Nat} (h : longer a b = some l) :
    a = some l ∨ b = some l := by
  cases a with
  | none => exact .inr h
  | some a =>
    cases b with
    | none => exact .inl h
    | some b =>
      simp only [longer, Option.some.injEq] at h
      rcases Nat.le_total a b with hab | hab
      · exact .inr (by rw [← h, Nat.max_eq_right hab])
      · exact .inl (by rw [← h, Nat.max_eq_left hab])

/-! ## Greedy repetition -/

section Greedy

variable {step step' : Nat → Option Nat} {least : Int} {n : Nat}

/-- A repetition of a step that never runs past offset `n` ends at most at `n`, or where it
started. -/
theorem repeatGreedy_le (hstep : ∀ j l, step j = some l → l ≤ n - j) :
    ∀ {fuel start pos count r : Nat}, (pos = start ∨ pos ≤ n) → start ≤ pos →
      repeatGreedy step least fuel start pos count = some r → r ≤ n - start
  | 0, _, _, _, _, _, _, h => by simp [repeatGreedy] at h
  | fuel + 1, start, pos, count, r, hpos, hsp, h => by
    simp only [repeatGreedy] at h
    split at h
    · split at h
      · cases h
        omega
      · cases h
    · cases h
      omega
    · rename_i l hl
      have hl' := hstep pos (l + 1) hl
      exact repeatGreedy_le hstep (.inr (by omega)) (by omega) h

/-- Two steps that agree up to offset `n`, the first never running past it, give the same
repetition from any offset up to `n`. -/
theorem repeatGreedy_congr (heq : ∀ j ≤ n, step j = step' j)
    (hstep : ∀ j l, step j = some l → l ≤ n - j) :
    ∀ {fuel start pos count : Nat}, pos ≤ n →
      repeatGreedy step least fuel start pos count = repeatGreedy step' least fuel start pos count
  | 0, _, _, _, _ => rfl
  | fuel + 1, start, pos, count, hpos => by
    simp only [repeatGreedy]
    rw [← heq pos hpos]
    split
    · rfl
    · rfl
    · rename_i l hl
      have hl' := hstep pos (l + 1) hl
      exact repeatGreedy_congr heq hstep (by omega)

/-- Two steps that agree from offset `m` on give the same repetition from any offset past `m`: a
repetition only moves forward. -/
theorem repeatGreedy_congr_from {m : Nat} (heq : ∀ j, m ≤ j → step j = step' j) :
    ∀ {fuel start pos count : Nat}, m ≤ pos →
      repeatGreedy step least fuel start pos count = repeatGreedy step' least fuel start pos count
  | 0, _, _, _, _ => rfl
  | fuel + 1, start, pos, count, hpos => by
    simp only [repeatGreedy]
    rw [← heq pos hpos]
    split
    · rfl
    · rfl
    · exact repeatGreedy_congr_from heq (by omega)

/-- A repetition of a step that never matches nothing, wanted at least once, takes at least one
phoneme: it can only stop once it has counted enough steps, each of which moved on. -/
theorem repeatGreedy_pos (hstep : ∀ j, step j ≠ some 0) (hk : 0 < least) :
    ∀ {fuel start pos count r : Nat}, start + count ≤ pos →
      repeatGreedy step least fuel start pos count = some r → 0 < r
  | 0, _, _, _, _, _, h => by simp [repeatGreedy] at h
  | fuel + 1, start, pos, count, r, hpos, h => by
    simp only [repeatGreedy] at h
    split at h
    · split at h
      · cases h
        omega
      · cases h
    · exact absurd ‹_› (hstep pos)
    · exact repeatGreedy_pos hstep hk (by omega) h

/-- A repetition ends where its step fails or matches nothing. -/
theorem repeatGreedy_stop :
    ∀ {fuel start pos count r : Nat}, start ≤ pos →
      repeatGreedy step least fuel start pos count = some r →
      step (start + r) = none ∨ step (start + r) = some 0
  | 0, _, _, _, _, _, h => by simp [repeatGreedy] at h
  | fuel + 1, start, pos, count, r, hsp, h => by
    simp only [repeatGreedy] at h
    split at h
    · rename_i hnone
      split at h
      · cases h
        rw [Nat.add_sub_cancel' hsp]
        exact .inl hnone
      · cases h
    · rename_i hzero
      cases h
      rw [Nat.add_sub_cancel' hsp]
      exact .inr hzero
    · exact repeatGreedy_stop (by omega) h

/-- With a least count of zero or less, the count a repetition has reached does not matter,
nor which such least count it has. -/
theorem repeatGreedy_nonpos {least' : Int} (hk : least ≤ 0) (hk' : least' ≤ 0) :
    ∀ {fuel start pos count count' : Nat},
      repeatGreedy step least fuel start pos count = repeatGreedy step least' fuel start pos count'
  | 0, _, _, _, _ => rfl
  | fuel + 1, start, pos, count, count' => by
    simp only [repeatGreedy]
    split
    · rw [if_pos (by omega), if_pos (by omega)]
    · rfl
    · exact repeatGreedy_nonpos hk hk'

/-- With a least count of zero or less and fuel for every phoneme left, a repetition of a step
that stays inside the word succeeds. -/
theorem repeatGreedy_nonpos_isSome (hk : least ≤ 0) (hstep : ∀ j l, step j = some l → l ≤ n - j) :
    ∀ {fuel start pos count : Nat}, n - pos < fuel →
      ∃ r, repeatGreedy step least fuel start pos count = some r
  | 0, _, _, _, h => absurd h (Nat.not_lt_zero _)
  | fuel + 1, start, pos, count, hfuel => by
    simp only [repeatGreedy]
    split
    · exact ⟨_, if_pos (by omega)⟩
    · exact ⟨_, rfl⟩
    · rename_i l hl
      have hl' := hstep pos (l + 1) hl
      exact repeatGreedy_nonpos_isSome hk hstep (by omega)

end Greedy

/-! ## Patterns stay inside the word -/

namespace Pattern

mutual
/-- A pattern matched at offset `i` consumes at most the `|w| - i` phonemes left. -/
theorem matchLength_le : ∀ (p : Pattern) (w : List Phoneme) (i l : Nat),
    p.matchLength w i = some l → l ≤ w.length - i
  | .null, _, _, _, h => by simp [matchLength] at h; omega
  | .boundary, w, i, l, h => by
    simp only [matchLength] at h
    split at h <;> simp at h
    omega
  | .symbol s, w, i, l, h => by
    simp only [matchLength] at h
    split at h
    · rename_i p hp
      have := (List.getElem?_eq_some_iff.1 hp).1
      split at h <;> simp at h
      omega
    · cases h
  | .features d, w, i, l, h => by
    simp only [matchLength] at h
    split at h
    · rename_i p hp
      have := (List.getElem?_eq_some_iff.1 hp).1
      split at h <;> simp at h
      omega
    · cases h
  | .seq ps, w, i, l, h => by
    simp only [matchLength] at h
    exact matchSeq_le ps w i l h
  | .alt ps, w, i, l, h => by
    simp only [matchLength] at h
    exact matchAlt_le ps w i l h
  | .rep p k, w, i, l, h => by
    simp only [matchLength] at h
    exact repeatGreedy_le (matchLength_le p w) (.inl rfl) (Nat.le_refl i) h

theorem matchSeq_le : ∀ (ps : List Pattern) (w : List Phoneme) (i l : Nat),
    matchSeq ps w i = some l → l ≤ w.length - i
  | [], _, _, _, h => by simp [matchSeq] at h; omega
  | p :: ps, w, i, l, h => by
    simp only [matchSeq] at h
    split at h
    · cases h
    · split at h
      · cases h
      · rename_i l₁ h₁
        obtain ⟨l₂, h₂, rfl⟩ := Option.map_eq_some_iff.1 h
        have hb₁ := matchLength_le p w i l₁ h₁
        have hb₂ := matchSeq_le ps w (i + l₁) l₂ h₂
        omega

theorem matchAlt_le : ∀ (ps : List Pattern) (w : List Phoneme) (i l : Nat),
    matchAlt ps w i = some l → l ≤ w.length - i
  | [], _, _, _, h => by simp [matchAlt] at h
  | p :: ps, w, i, l, h => by
    simp only [matchAlt] at h
    rcases longer_eq_some h with h | h
    · exact matchLength_le p w i l h
    · exact matchAlt_le ps w i l h
end

/-- Matched from an offset inside the word, a pattern ends inside the word. -/
theorem matchLength_add_le {p : Pattern} {w : List Phoneme} {i l : Nat}
    (h : p.matchLength w i = some l) (hi : i ≤ w.length) : i + l ≤ w.length := by
  have := matchLength_le p w i l h
  omega

end Pattern

end SoundLaw
