import SoundLaw.Proofs.MatchBounds
import SoundLaw.Pattern.Canonical

/-!
# Canonical patterns match alike, except where repetitions fold

Each rewrite of `Pattern.canonicalize` but one keeps what a pattern matches at every offset inside
the word:

* a `null` child of a sequence consumes nothing, and the sequence's offset check never fails
  inside the word, so dropping it, splicing nested sequences and collapsing a sequence of zero or
  one child change nothing (`matchSeq_append`, `matchLength_seqOf`);
* an alternation takes the longest option, and `longer` is associative, commutative and
  idempotent with failure as its unit, so splicing nested alternations, dropping the empty one,
  removing repeated options and collapsing change nothing (`matchAlt_append`,
  `matchAlt_keepFirst`, `matchLength_altOf`).

The fold of a repetition of a repetition into one repetition whose least count is the sum of
both is different. Repetition is greedy: the inner repetition takes every match of its base, so
the outer one repeats it once and then meets a failure or an empty match. The fold keeps
matching when both least counts are zero or less (`matchLength_rep_rep`), but not otherwise:
`(a*)₁` matches the empty word, while `a₁` does not (`canonicalize_changes_match`).

* `Pattern.foldsOnlyStars` — every fold canonicalization makes joins two least counts of zero or
  less; it holds of every pattern with no repetition directly over another;
* `matchLength_canonicalize_of_foldsOnlyStars` — for such patterns canonicalization keeps the
  match at every offset inside the word.
-/

namespace SoundLaw

/-! ## The longer of two results -/

@[simp] theorem longer_none_left (b : Option Nat) : longer none b = b := rfl

@[simp] theorem longer_none_right (a : Option Nat) : longer a none = a := by
  cases a <;> rfl

theorem longer_comm (a b : Option Nat) : longer a b = longer b a := by
  match a, b with
  | none, _ => simp
  | some _, none => rfl
  | some a, some b => simp only [longer, Nat.max_comm a b]

theorem longer_assoc (a b c : Option Nat) : longer (longer a b) c = longer a (longer b c) := by
  rcases a with _ | a <;> rcases b with _ | b <;> rcases c with _ | c <;>
    simp only [longer, Nat.max_assoc]

@[simp] theorem longer_self (a : Option Nat) : longer a a = a := by
  rcases a with _ | a
  · rfl
  · simp only [longer, Nat.max_self]

/-- A result already taken into a longest match changes nothing when taken again. -/
theorem longer_left_absorb (a b : Option Nat) : longer a (longer a b) = longer a b := by
  rw [← longer_assoc, longer_self]

namespace Pattern

/-! ## Sequences -/

/-- Matching a sequence is matching its first part, then the rest after it. -/
theorem matchSeq_append (ps qs : List Pattern) (w : List Phoneme) (i : Nat) :
    matchSeq (ps ++ qs) w i =
      (matchSeq ps w i).bind fun l => (matchSeq qs w (i + l)).map (l + ·) := by
  induction ps generalizing i with
  | nil => simp [matchSeq]
  | cons p ps ih =>
    simp only [List.cons_append, matchSeq]
    split
    · rfl
    · split
      · rfl
      · rename_i l _
        rw [ih]
        cases matchSeq ps w (i + l) with
        | none => rfl
        | some m =>
          simp only [Option.bind_some, Option.map_map, Option.map_some, Nat.add_assoc]
          rfl

/-- Inside the word, the offset check of a sequence passes and it matches its first child, then
the rest. -/
theorem matchSeq_cons {p : Pattern} {ps : List Pattern} {w : List Phoneme} {i : Nat}
    (hi : i ≤ w.length) :
    matchSeq (p :: ps) w i = (p.matchLength w i).bind fun l => (matchSeq ps w (i + l)).map (l + ·) := by
  simp only [matchSeq, if_neg (Nat.not_lt.2 hi)]
  cases p.matchLength w i <;> rfl

/-- Two sequences match alike from an offset inside the word when their first children do and
the rests do after them. -/
theorem matchSeq_cons_congr {p q : Pattern} {ps qs : List Pattern} {w : List Phoneme} {i : Nat}
    (hi : i ≤ w.length) (hpq : q.matchLength w i = p.matchLength w i)
    (hrest : ∀ l, p.matchLength w i = some l → matchSeq qs w (i + l) = matchSeq ps w (i + l)) :
    matchSeq (q :: qs) w i = matchSeq (p :: ps) w i := by
  rw [matchSeq_cons hi, matchSeq_cons hi, hpq]
  cases h : p.matchLength w i with
  | none => rfl
  | some l => simp [hrest l h]

/-- A sequence collapsed to `null` or its single child matches like the sequence, inside the
word. -/
theorem matchLength_seqOf (ps : List Pattern) (w : List Phoneme) {i : Nat} (hi : i ≤ w.length) :
    (seqOf ps).matchLength w i = matchSeq ps w i := by
  match ps with
  | [] => rfl
  | [p] =>
    rw [matchSeq_cons hi]
    cases h : p.matchLength w i <;> simp [seqOf, matchSeq, h]
  | _ :: _ :: _ => rfl

/-! ## Alternations -/

/-- The longest match among two lists of options is the longer of the two. -/
theorem matchAlt_append (ps qs : List Pattern) (w : List Phoneme) (i : Nat) :
    matchAlt (ps ++ qs) w i = longer (matchAlt ps w i) (matchAlt qs w i) := by
  induction ps with
  | nil => rfl
  | cons p ps ih => simp [matchAlt, ih, longer_assoc]

/-- An option among the options adds nothing to their longest match. -/
theorem longer_matchAlt_of_mem {p : Pattern} {ps : List Pattern} (w : List Phoneme) (i : Nat)
    (h : p ∈ ps) : longer (p.matchLength w i) (matchAlt ps w i) = matchAlt ps w i := by
  induction ps with
  | nil => cases h
  | cons q ps ih =>
    simp only [matchAlt]
    rcases List.mem_cons.1 h with rfl | h
    · exact longer_left_absorb _ _
    · rw [← longer_assoc, longer_comm (p.matchLength w i), longer_assoc, ih h]

theorem matchAlt_reverse (ps : List Pattern) (w : List Phoneme) (i : Nat) :
    matchAlt ps.reverse w i = matchAlt ps w i := by
  induction ps with
  | nil => rfl
  | cons p ps ih =>
    rw [List.reverse_cons, matchAlt_append, ih, longer_comm]
    simp [matchAlt]

/-- Keeping each option once leaves the longest match: an option seen before is already in it. -/
theorem matchAlt_keepFirst (seen ps : List Pattern) (w : List Phoneme) (i : Nat) :
    matchAlt (keepFirst seen ps) w i = longer (matchAlt seen w i) (matchAlt ps w i) := by
  induction ps generalizing seen with
  | nil => simp [keepFirst, matchAlt_reverse, matchAlt]
  | cons p ps ih =>
    simp only [keepFirst, matchAlt]
    split
    · rename_i hp
      have hmem : p ∈ seen := by simpa using hp
      rw [ih, ← longer_assoc, longer_comm (matchAlt seen w i) (p.matchLength w i),
        longer_matchAlt_of_mem w i hmem]
    · rw [ih]
      simp only [matchAlt]
      rw [← longer_assoc, longer_comm (p.matchLength w i) (matchAlt seen w i)]

/-- An alternation collapsed to the empty alternation or its single option matches like the
alternation. -/
theorem matchLength_altOf (ps : List Pattern) (w : List Phoneme) (i : Nat) :
    (altOf ps).matchLength w i = matchAlt ps w i := by
  match ps with
  | [] => rfl
  | [p] => simp [altOf, matchAlt]
  | _ :: _ :: _ => rfl

/-! ## Repetitions -/

theorem matchLength_rep (p : Pattern) (k : Int) (w : List Phoneme) (i : Nat) :
    (rep p k).matchLength w i =
      repeatGreedy (fun j => p.matchLength w j) k (w.length - i + 1) i i 0 := by
  simp [matchLength]

/-- Repetitions of two bases that match alike inside the word match alike there. -/
theorem matchLength_rep_congr {p q : Pattern} {w : List Phoneme}
    (hpq : ∀ j ≤ w.length, q.matchLength w j = p.matchLength w j) (k : Int) {i : Nat}
    (hi : i ≤ w.length) : (rep q k).matchLength w i = (rep p k).matchLength w i := by
  rw [matchLength_rep, matchLength_rep]
  exact (repeatGreedy_congr (fun j hj => (hpq j hj).symm) (matchLength_le p w) hi).symm

/-- **The fold of two stars.** A repetition, with least count zero or less, of a repetition with
least count zero or less matches like one repetition with the sum as least count: the inner
repetition takes every match of the base, and the outer one adds an empty match after it. -/
theorem matchLength_rep_rep (q : Pattern) {j k : Int} (hj : j ≤ 0) (hk : k ≤ 0)
    (w : List Phoneme) (i : Nat) :
    (rep (rep q j) k).matchLength w i = (rep q (j + k)).matchLength w i := by
  have hbase := matchLength_le q w
  -- the inner repetition succeeds from `i`, and the sum of the counts does not change it
  obtain ⟨g, hg⟩ : ∃ g, (rep q j).matchLength w i = some g := by
    rw [matchLength_rep]
    exact repeatGreedy_nonpos_isSome hj hbase (by omega)
  have hsum : (rep q (j + k)).matchLength w i = some g := by
    rw [matchLength_rep, repeatGreedy_nonpos (by omega) hj, ← matchLength_rep, hg]
  rw [hsum, matchLength_rep]
  have hgle := matchLength_le _ w i g hg
  obtain ⟨m, hm⟩ : ∃ m, w.length - i = m := ⟨_, rfl⟩
  rw [hm]
  cases g with
  | zero => simp [repeatGreedy, hg]
  | succ g =>
    -- after the inner repetition, the base fails or matches nothing, so the inner one matches
    -- nothing there and the outer one stops
    have hstop := repeatGreedy_stop (Nat.le_refl i) (by rwa [matchLength_rep] at hg)
    have hend : (rep q j).matchLength w (i + (g + 1)) = some 0 := by
      rw [matchLength_rep]
      obtain ⟨m', hm'⟩ : ∃ m', w.length - (i + (g + 1)) = m' := ⟨_, rfl⟩
      rw [hm']
      rcases hstop with h | h <;> simp [repeatGreedy, h, hj]
    obtain ⟨m, rfl⟩ : ∃ m', m = m' + 1 := ⟨m - 1, by omega⟩
    simp [repeatGreedy, hg, hend]

/-! ## Canonical form -/

mutual
/-- Whether every repetition that canonicalization folds into the repetition below it (its base,
once canonical, being a repetition) joins two least counts of zero or less. -/
def foldsOnlyStars : Pattern → Bool
  | .seq ps => foldsOnlyStarsList ps
  | .alt ps => foldsOnlyStarsList ps
  | .rep p k =>
    foldsOnlyStars p && match canonicalize p with
      | .rep _ j => decide (j ≤ 0) && decide (k ≤ 0)
      | _ => true
  | _ => true

/-- Whether each of the patterns folds only stars. -/
def foldsOnlyStarsList : List Pattern → Bool
  | [] => true
  | p :: ps => foldsOnlyStars p && foldsOnlyStarsList ps
end

theorem foldsOnlyStarsList_iff (ps : List Pattern) :
    foldsOnlyStarsList ps = true ↔ ∀ p ∈ ps, foldsOnlyStars p = true := by
  induction ps with
  | nil => simp [foldsOnlyStarsList]
  | cons p ps ih => simp [foldsOnlyStarsList, ih]

section Splice

variable {w : List Phoneme}

/-- Splicing the canonical children of a sequence keeps its match inside the word, given that
each child's canonical form matches like the child there. -/
theorem matchSeq_spliceSeq :
    ∀ (ps : List Pattern), (∀ p ∈ ps, ∀ j ≤ w.length, (canonicalize p).matchLength w j =
        p.matchLength w j) →
      ∀ {i : Nat}, i ≤ w.length → matchSeq (spliceSeq ps) w i = matchSeq ps w i
  | [], _, _, _ => by simp [spliceSeq]
  | p :: ps, hps, i, hi => by
    have hp := hps p List.mem_cons_self i hi
    have hrest : ∀ l, p.matchLength w i = some l →
        matchSeq (spliceSeq ps) w (i + l) = matchSeq ps w (i + l) := fun l hl =>
      matchSeq_spliceSeq ps (fun q hq => hps q (List.mem_cons_of_mem p hq))
        (matchLength_add_le hl hi)
    unfold spliceSeq
    split
    · -- a `null` child is dropped
      rename_i hnull
      rw [hnull] at hp
      rw [matchSeq_cons hi, ← hp]
      simpa [matchLength] using hrest 0 (by rw [← hp]; rfl)
    · -- a sequence child is spliced in
      rename_i qs hseq
      rw [hseq] at hp
      rw [matchSeq_append, matchSeq_cons hi]
      simp only [matchLength] at hp
      rw [hp]
      cases hl : p.matchLength w i with
      | none => rfl
      | some l => simp [hrest l hl]
    · exact matchSeq_cons_congr hi hp hrest

/-- Splicing the canonical options of an alternation keeps its match at an offset, given that
each option's canonical form matches like the option there. -/
theorem matchAlt_spliceAlt {i : Nat} :
    ∀ (ps : List Pattern), (∀ p ∈ ps, (canonicalize p).matchLength w i = p.matchLength w i) →
      matchAlt (spliceAlt ps) w i = matchAlt ps w i
  | [], _ => by simp [spliceAlt]
  | p :: ps, hps => by
    have hp := hps p List.mem_cons_self
    have hrest := matchAlt_spliceAlt ps fun q hq => hps q (List.mem_cons_of_mem p hq)
    unfold spliceAlt
    split
    · -- an alternation option is spliced in, the empty one vanishing
      rename_i qs halt
      rw [halt] at hp
      simp only [matchLength] at hp
      rw [matchAlt_append, hp, hrest]
      rfl
    · simp only [matchAlt]
      rw [hp, hrest]

end Splice

/-- The canonical form of a repetition matches like it inside the word, given that the
canonical base matches like the base there and that a fold joins two stars. -/
theorem matchLength_canonicalize_rep {p : Pattern} {k : Int} {w : List Phoneme}
    (hp : ∀ j ≤ w.length, (canonicalize p).matchLength w j = p.matchLength w j)
    (hfold : ∀ q j, canonicalize p = rep q j → j ≤ 0 ∧ k ≤ 0) {i : Nat} (hi : i ≤ w.length) :
    (canonicalize (rep p k)).matchLength w i = (rep p k).matchLength w i := by
  unfold canonicalize
  split
  · -- the fold of two stars
    rename_i q j hrep
    obtain ⟨hj, hk⟩ := hfold q j hrep
    rw [← matchLength_rep_rep q hj hk w i]
    exact matchLength_rep_congr (fun x hx => by rw [← hrep]; exact hp x hx) k hi
  · exact matchLength_rep_congr hp k hi

/-- **Canonical forms match alike.** For every pattern in which each fold of a repetition into
the repetition below it joins two least counts of zero or less, the canonical form matches like
the pattern at every offset inside the word. -/
theorem matchLength_canonicalize_of_foldsOnlyStars :
    ∀ (t : Pattern), t.foldsOnlyStars = true → ∀ (w : List Phoneme) (i : Nat), i ≤ w.length →
      (canonicalize t).matchLength w i = t.matchLength w i
  | .null, _, _, _, _ => rfl
  | .boundary, _, _, _, _ => rfl
  | .symbol _, _, _, _, _ => rfl
  | .features _, _, _, _, _ => rfl
  | .seq ps, h, w, i, hi => by
    have hps := (foldsOnlyStarsList_iff ps).1 h
    rw [canonicalize, matchLength_seqOf _ w hi, matchLength]
    exact matchSeq_spliceSeq ps (fun p hp j hj =>
      matchLength_canonicalize_of_foldsOnlyStars p (hps p hp) w j hj) hi
  | .alt ps, h, w, i, hi => by
    have hps := (foldsOnlyStarsList_iff ps).1 h
    rw [canonicalize, matchLength_altOf, matchAlt_keepFirst, matchLength]
    simp only [matchAlt, longer_none_left]
    exact matchAlt_spliceAlt ps fun p hp =>
      matchLength_canonicalize_of_foldsOnlyStars p (hps p hp) w i hi
  | .rep p k, h, w, i, hi => by
    simp only [foldsOnlyStars, Bool.and_eq_true] at h
    obtain ⟨hp, hfold⟩ := h
    refine matchLength_canonicalize_rep (fun j hj =>
      matchLength_canonicalize_of_foldsOnlyStars p hp w j hj) (fun q j hq => ?_) hi
    rw [hq] at hfold
    simpa using hfold

/-- Nested sequences and alternations, a repeated option and a star of a star, over `aab`. -/
theorem canonicalize_matches_nested_stars :
    foldsOnlyStars (seq [seq [rep (rep (symbol "a") 0) 0, null], alt [symbol "b", alt [symbol "b"]]])
        = true ∧
      0 ≤ ([{ symbol := "a" }, { symbol := "a" }, { symbol := "b" }] : List Phoneme).length ∧
      (canonicalize (seq [seq [rep (rep (symbol "a") 0) 0, null],
          alt [symbol "b", alt [symbol "b"]]])).matchLength
          [{ symbol := "a" }, { symbol := "a" }, { symbol := "b" }] 0 =
        (seq [seq [rep (rep (symbol "a") 0) 0, null], alt [symbol "b", alt [symbol "b"]]]).matchLength
          [{ symbol := "a" }, { symbol := "a" }, { symbol := "b" }] 0 :=
  ⟨by decide, by decide, matchLength_canonicalize_of_foldsOnlyStars _ (by decide) _ 0 (by decide)⟩

/-- The fold of a repetition over a star does not keep matching: `(a*)₁` matches the empty word,
while its canonical form `a₁` needs one `a`. -/
theorem canonicalize_changes_match :
    (canonicalize (rep (rep (symbol "a") 0) 1)).matchLength [] 0 ≠
      (rep (rep (symbol "a") 0) 1).matchLength [] 0 := by
  decide

end Pattern

end SoundLaw
