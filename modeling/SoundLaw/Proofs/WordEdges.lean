import SoundLaw.Proofs.WrittenRuns
import SoundLaw.Proofs.MatchBounds

/-!
# Where a boundary matches once a word is split

A rule passes over each unchanged segment as if that segment were the whole word, so the boundary
`#` matches at both ends of every segment it sweeps, also where the segment meets a changed one
in the middle of the word. Only the anchoring of a rule (`initial`, `final`, and the skip of a rule
anchored at both ends once the word is split) keeps its outer `#` at the real ends; a `#` inside
an alternation, or at the far side of a context, is not seen by it.

This module writes the matching a split word calls for, with `#` allowed at the start of a
stretch only when the stretch starts the word and at its end only when it ends the word, and
compares it with the matching the rules do:

* `Pattern.matchAt` — matching with the two ends of the stretch enabled or not;
  `matchAt_eq_matchLength` — it is the usual matching when both ends are enabled or the pattern
  has no boundary;
* `matchAt_of_pos`, `matchAt_of_leadingEdgeOnly` — past the start of a stretch its start does not
  matter, and a pattern whose `#` can stand only where it starts never tests the end;
  `matchLength_pos_of_consumes` — a pattern that `consumes` takes a phoneme wherever it matches;
* `Rule.sitesFromAt`, `Rule.sweepAt`, `Rule.stepAtEdges` — a rule's pass and step with `#` only at
  the word's two ends; `sitesFromAt_eq_sitesFrom_of_agree` — the sites are the usual ones where
  each pattern, tried where the usual pass tries it, matches alike;
* `step_eq_stepAtEdges` — a step honours the real ends when the word is not yet split, when the
  rule is anchored at both ends, or when it has no boundary;
* `step_keeps_to_word_edges` — and also when the rule is anchored at one end and can see `#` only
  there (`Rule.startEdgeOnly`, `Rule.endEdgeOnly`);
* `step_matches_inner_edge` — after a split, a rule whose `#` stands inside an alternation
  rewrites a phoneme that ends a segment but not the word.
-/

namespace SoundLaw

open Traced

namespace Pattern

mutual
/-- The length `p` matches at offset `i` of a stretch `w` of a word, `#` matching at the start of
the stretch only when `atStart` and at its end only when `atEnd`. -/
def matchAt (atStart atEnd : Bool) : Pattern → List Phoneme → Nat → Option Nat
  | .null, _, _ => some 0
  | .boundary, w, i => if atStart = true ∧ i = 0 ∨ atEnd = true ∧ i = w.length then some 0 else none
  | .symbol s, w, i => (symbol s).matchLength w i
  | .features d, w, i => (features d).matchLength w i
  | .seq ps, w, i => matchSeqAt atStart atEnd ps w i
  | .alt ps, w, i => matchAltAt atStart atEnd ps w i
  | .rep p k, w, i =>
    repeatGreedy (fun j => matchAt atStart atEnd p w j) k (w.length - i + 1) i i 0

/-- The length the patterns match one after another, the ends enabled as given. -/
def matchSeqAt (atStart atEnd : Bool) : List Pattern → List Phoneme → Nat → Option Nat
  | [], _, _ => some 0
  | p :: ps, w, i =>
    if w.length < i then none else
      match matchAt atStart atEnd p w i with
      | none => none
      | some l => (matchSeqAt atStart atEnd ps w (i + l)).map (l + ·)

/-- The longest length any of the options matches, the ends enabled as given. -/
def matchAltAt (atStart atEnd : Bool) : List Pattern → List Phoneme → Nat → Option Nat
  | [], _, _ => none
  | p :: ps, w, i => longer (matchAt atStart atEnd p w i) (matchAltAt atStart atEnd ps w i)
end

mutual
/-- Whether a pattern holds no boundary. -/
def boundaryFree : Pattern → Bool
  | .boundary => false
  | .seq ps => boundaryFreeList ps
  | .alt ps => boundaryFreeList ps
  | .rep p _ => boundaryFree p
  | _ => true

/-- Whether none of the patterns holds a boundary. -/
def boundaryFreeList : List Pattern → Bool
  | [] => true
  | p :: ps => boundaryFree p && boundaryFreeList ps
end

mutual
/-- Whether a pattern can hold `#` only where it starts: in the first part of a sequence whose other
parts hold none, or where each option of an alternation starts. -/
def leadingEdgeOnly : Pattern → Bool
  | .seq ps => leadingEdgeOnlySeq ps
  | .alt ps => leadingEdgeOnlyList ps
  | .rep p _ => boundaryFree p
  | _ => true

/-- Whether a sequence can hold `#` only in its first part, where that part starts. -/
def leadingEdgeOnlySeq : List Pattern → Bool
  | [] => true
  | p :: ps => leadingEdgeOnly p && boundaryFreeList ps

/-- Whether each of the options can hold `#` only where it starts. -/
def leadingEdgeOnlyList : List Pattern → Bool
  | [] => true
  | p :: ps => leadingEdgeOnly p && leadingEdgeOnlyList ps
end

mutual
/-- Whether every match of a pattern takes at least one phoneme. -/
def consumes : Pattern → Bool
  | .symbol _ => true
  | .features _ => true
  | .seq ps => consumesSome ps
  | .alt ps => consumesAll ps
  | .rep p k => consumes p && decide (0 < k)
  | _ => false

/-- Whether some part of a sequence takes a phoneme wherever it matches. -/
def consumesSome : List Pattern → Bool
  | [] => false
  | p :: ps => consumes p || consumesSome ps

/-- Whether every option takes a phoneme wherever it matches. -/
def consumesAll : List Pattern → Bool
  | [] => true
  | p :: ps => consumes p && consumesAll ps
end

section Ends

variable {atStart atEnd : Bool}

mutual
/-- With both ends enabled, or with no boundary to test, matching a stretch is the usual
matching. -/
theorem matchAt_eq_matchLength : ∀ (p : Pattern) (w : List Phoneme) (i : Nat),
    (atStart && atEnd || p.boundaryFree) = true → p.matchAt atStart atEnd w i = p.matchLength w i
  | .null, _, _, _ => rfl
  | .boundary, w, i, h => by
    simp only [boundaryFree, Bool.or_false, Bool.and_eq_true] at h
    obtain ⟨rfl, rfl⟩ := h
    simp [matchAt, matchLength]
  | .symbol _, _, _, _ => rfl
  | .features _, _, _, _ => rfl
  | .seq ps, w, i, h => by
    simp only [matchAt, matchLength]
    exact matchSeqAt_eq_matchSeq ps w i (by simpa [boundaryFree] using h)
  | .alt ps, w, i, h => by
    simp only [matchAt, matchLength]
    exact matchAltAt_eq_matchAlt ps w i (by simpa [boundaryFree] using h)
  | .rep p k, w, i, h => by
    have hp : ∀ j, p.matchAt atStart atEnd w j = p.matchLength w j := fun j =>
      matchAt_eq_matchLength p w j (by simpa [boundaryFree] using h)
    simp only [matchAt, matchLength, hp]

theorem matchSeqAt_eq_matchSeq : ∀ (ps : List Pattern) (w : List Phoneme) (i : Nat),
    (atStart && atEnd || boundaryFreeList ps) = true →
      matchSeqAt atStart atEnd ps w i = matchSeq ps w i
  | [], _, _, _ => rfl
  | p :: ps, w, i, h => by
    simp only [boundaryFreeList, Bool.or_and_distrib_left, Bool.and_eq_true] at h
    have hp := matchAt_eq_matchLength p w i h.1
    have hps : ∀ j, matchSeqAt atStart atEnd ps w j = matchSeq ps w j := fun j =>
      matchSeqAt_eq_matchSeq ps w j h.2
    -- the two definitions have matchers of their own: compare them on each result of `p`
    rw [matchSeqAt, matchSeq]
    rcases hl : p.matchLength w i with _ | l <;> simp only [hp, hl, hps]

theorem matchAltAt_eq_matchAlt : ∀ (ps : List Pattern) (w : List Phoneme) (i : Nat),
    (atStart && atEnd || boundaryFreeList ps) = true →
      matchAltAt atStart atEnd ps w i = matchAlt ps w i
  | [], _, _, _ => rfl
  | p :: ps, w, i, h => by
    simp only [boundaryFreeList, Bool.or_and_distrib_left, Bool.and_eq_true] at h
    simp only [matchAltAt, matchAlt, matchAt_eq_matchLength p w i h.1,
      matchAltAt_eq_matchAlt ps w i h.2]
end

mutual
/-- Past the start of a stretch, whether the start is enabled does not matter: a pattern only
looks forward from where it is tried. -/
theorem matchAt_of_pos : ∀ (p : Pattern) (w : List Phoneme) (i : Nat), 0 < i →
    p.matchAt atStart atEnd w i = p.matchAt true atEnd w i
  | .null, _, _, _ => rfl
  | .boundary, w, i, hi => by
    simp only [matchAt, Nat.pos_iff_ne_zero.1 hi, and_false, false_or]
  | .symbol _, _, _, _ => rfl
  | .features _, _, _, _ => rfl
  | .seq ps, w, i, hi => by
    simp only [matchAt]
    exact matchSeqAt_of_pos ps w i hi
  | .alt ps, w, i, hi => by
    simp only [matchAt]
    exact matchAltAt_of_pos ps w i hi
  | .rep p k, w, i, hi => by
    simp only [matchAt]
    exact repeatGreedy_congr_from (fun j hj => matchAt_of_pos p w j (by omega)) (Nat.le_refl i)

theorem matchSeqAt_of_pos : ∀ (ps : List Pattern) (w : List Phoneme) (i : Nat), 0 < i →
    matchSeqAt atStart atEnd ps w i = matchSeqAt true atEnd ps w i
  | [], _, _, _ => rfl
  | p :: ps, w, i, hi => by
    rw [matchSeqAt, matchSeqAt, matchAt_of_pos p w i hi]
    rcases p.matchAt true atEnd w i with _ | l
    · rfl
    · simp only [matchSeqAt_of_pos ps w (i + l) (by omega)]

theorem matchAltAt_of_pos : ∀ (ps : List Pattern) (w : List Phoneme) (i : Nat), 0 < i →
    matchAltAt atStart atEnd ps w i = matchAltAt true atEnd ps w i
  | [], _, _, _ => rfl
  | p :: ps, w, i, hi => by
    simp only [matchAltAt, matchAt_of_pos p w i hi, matchAltAt_of_pos ps w i hi]
end

mutual
/-- Tried before the end of a stretch, a pattern whose `#` can stand only where it starts never
tests the end, so whether the end is enabled does not matter. -/
theorem matchAt_of_leadingEdgeOnly : ∀ (p : Pattern) (w : List Phoneme) (i : Nat),
    p.leadingEdgeOnly = true → i < w.length → p.matchAt atStart atEnd w i = p.matchAt atStart true w i
  | .null, _, _, _, _ => rfl
  | .boundary, _, _, _, hi => by
    simp only [matchAt, Nat.ne_of_lt hi, and_false, or_false]
  | .symbol _, _, _, _, _ => rfl
  | .features _, _, _, _, _ => rfl
  | .seq ps, w, i, h, hi => by
    simp only [matchAt]
    exact matchSeqAt_of_leadingEdgeOnly ps w i (by simpa only [leadingEdgeOnly] using h) hi
  | .alt ps, w, i, h, hi => by
    simp only [matchAt]
    exact matchAltAt_of_leadingEdgeOnly ps w i (by simpa only [leadingEdgeOnly] using h) hi
  | .rep p k, w, i, h, _ => by
    have hfree : p.boundaryFree = true := by simpa only [leadingEdgeOnly] using h
    have hp : ∀ e j, p.matchAt atStart e w j = p.matchLength w j := fun e j =>
      matchAt_eq_matchLength p w j (by simp [hfree])
    simp only [matchAt, hp]

theorem matchSeqAt_of_leadingEdgeOnly : ∀ (ps : List Pattern) (w : List Phoneme) (i : Nat),
    leadingEdgeOnlySeq ps = true → i < w.length →
      matchSeqAt atStart atEnd ps w i = matchSeqAt atStart true ps w i
  | [], _, _, _, _ => rfl
  | p :: ps, w, i, h, hi => by
    simp only [leadingEdgeOnlySeq, Bool.and_eq_true] at h
    -- the parts after the first hold no `#`: they match alike wherever they are tried
    have hps : ∀ e j, matchSeqAt atStart e ps w j = matchSeq ps w j := fun e j =>
      matchSeqAt_eq_matchSeq ps w j (by simp [h.2])
    rw [matchSeqAt, matchSeqAt, matchAt_of_leadingEdgeOnly p w i h.1 hi]
    simp only [hps]

theorem matchAltAt_of_leadingEdgeOnly : ∀ (ps : List Pattern) (w : List Phoneme) (i : Nat),
    leadingEdgeOnlyList ps = true → i < w.length →
      matchAltAt atStart atEnd ps w i = matchAltAt atStart true ps w i
  | [], _, _, _, _ => rfl
  | p :: ps, w, i, h, hi => by
    simp only [leadingEdgeOnlyList, Bool.and_eq_true] at h
    simp only [matchAltAt, matchAt_of_leadingEdgeOnly p w i h.1 hi,
      matchAltAt_of_leadingEdgeOnly ps w i h.2 hi]
end

end Ends

mutual
/-- A pattern that consumes takes at least one phoneme wherever it matches. -/
theorem matchLength_pos_of_consumes : ∀ (p : Pattern) (w : List Phoneme) (i l : Nat),
    p.consumes = true → p.matchLength w i = some l → 0 < l
  | .null, _, _, _, h, _ => by simp [consumes] at h
  | .boundary, _, _, _, h, _ => by simp [consumes] at h
  | .symbol _, w, i, l, _, hm => by
    simp only [matchLength] at hm
    split at hm
    · split at hm <;> simp at hm
      omega
    · cases hm
  | .features _, w, i, l, _, hm => by
    simp only [matchLength] at hm
    split at hm
    · split at hm <;> simp at hm
      omega
    · cases hm
  | .seq ps, w, i, l, h, hm => by
    simp only [matchLength] at hm
    exact matchSeq_pos_of_consumesSome ps w i l (by simpa only [consumes] using h) hm
  | .alt ps, w, i, l, h, hm => by
    simp only [matchLength] at hm
    exact matchAlt_pos_of_consumesAll ps w i l (by simpa only [consumes] using h) hm
  | .rep p k, w, i, l, h, hm => by
    simp only [consumes, Bool.and_eq_true, decide_eq_true_eq] at h
    simp only [matchLength] at hm
    -- every step takes a phoneme, and at least one step is wanted
    refine repeatGreedy_pos (fun j hj => ?_) h.2 (by omega) hm
    exact absurd (matchLength_pos_of_consumes p w j 0 h.1 hj) (Nat.lt_irrefl 0)

theorem matchSeq_pos_of_consumesSome : ∀ (ps : List Pattern) (w : List Phoneme) (i l : Nat),
    consumesSome ps = true → matchSeq ps w i = some l → 0 < l
  | [], _, _, _, h, _ => by simp [consumesSome] at h
  | p :: ps, w, i, l, h, hm => by
    simp only [matchSeq] at hm
    split at hm
    · cases hm
    · split at hm
      · cases hm
      · rename_i l₁ h₁
        obtain ⟨l₂, h₂, rfl⟩ := Option.map_eq_some_iff.1 hm
        simp only [consumesSome, Bool.or_eq_true] at h
        -- the part that takes a phoneme is the first one or one of the rest
        rcases h with hp | hps
        · have := matchLength_pos_of_consumes p w i l₁ hp h₁
          omega
        · have := matchSeq_pos_of_consumesSome ps w (i + l₁) l₂ hps h₂
          omega

theorem matchAlt_pos_of_consumesAll : ∀ (ps : List Pattern) (w : List Phoneme) (i l : Nat),
    consumesAll ps = true → matchAlt ps w i = some l → 0 < l
  | [], _, _, _, _, hm => by simp [matchAlt] at hm
  | p :: ps, w, i, l, h, hm => by
    simp only [consumesAll, Bool.and_eq_true] at h
    simp only [matchAlt] at hm
    rcases longer_eq_some hm with hm | hm
    · exact matchLength_pos_of_consumes p w i l h.1 hm
    · exact matchAlt_pos_of_consumesAll ps w i l h.2 hm
end

end Pattern

namespace Rule

/-- Whether none of the three patterns of a rule holds a boundary. -/
def boundaryFree (r : Rule) : Bool :=
  r.before.boundaryFree && r.input.boundaryFree && r.after.boundaryFree

/-- Whether a rule can see `#` only at the start of what it sweeps: its `before` context holds `#`
only where it starts, and its input and `after` context hold none. -/
def startEdgeOnly (r : Rule) : Bool :=
  r.before.leadingEdgeOnly && r.input.boundaryFree && r.after.boundaryFree

/-- Whether a rule can see `#` only at the end of what it sweeps: its `before` context and input
hold none, and one of the two takes a phoneme wherever it matches, so that the `after` context is
never tried at the start. -/
def endEdgeOnly (r : Rule) : Bool :=
  r.before.boundaryFree && r.input.boundaryFree && (r.before.consumes || r.input.consumes)

/-- The sites of the rule in a stretch `w` of a word found from position `i` on, `#` matching at
the ends of the stretch as enabled. -/
def sitesFromAt (r : Rule) (atStart atEnd : Bool) (w : List Phoneme) (i : Nat) :
    List (Nat × Nat) :=
  if i < w.length then
    match r.before.matchAt atStart atEnd w i with
    | none => r.sitesFromAt atStart atEnd w (i + 1)
    | some pl =>
      match r.input.matchAt atStart atEnd w (i + pl) with
      | none => r.sitesFromAt atStart atEnd w (i + 1)
      | some il =>
        match r.after.matchAt atStart atEnd w (i + pl + il) with
        | none => r.sitesFromAt atStart atEnd w (i + 1)
        | some _ =>
          (i + pl, i + pl + il) :: r.sitesFromAt atStart atEnd w (max (i + pl + il) (i + 1))
  else []
termination_by w.length - i

/-- One pass of the rule over a stretch of a word, `#` matching at its ends as enabled. -/
def sweepAt (r : Rule) (atStart atEnd : Bool) (w : List Phoneme) : Traced (List Segment) := do
  let segs ← r.cut w 0 (r.sitesFromAt atStart atEnd w 0)
  pure (segs.filter fun s => s.changed || !s.phonemes.isEmpty)

/-- The rule applied to each unchanged segment of a list that starts the word when `first`, each
segment matched with `#` only at the word's two ends. -/
def stepEachAt (r : Rule) : Bool → List Segment → Traced (List Segment)
  | _, [] => pure []
  | first, s :: rest => do
    let here ← if s.changed then pure [s] else r.sweepAt first rest.isEmpty s.phonemes
    let there ← r.stepEachAt false rest
    pure (here ++ there)

/-- One rule applied to a segmented word as `Rule.step` does, but with `#` matching only at the
two ends of the word: at the start of the first segment and at the end of the last. -/
def stepAtEdges (r : Rule) (segs : List Segment) : Traced (List Segment) :=
  if r.initial && r.final && 1 < segs.length then pure segs
  else if r.final then
    match segs.getLast? with
    | some last =>
      if last.changed then pure segs
      else do
        let swept ← r.sweepAt (segs.length == 1) true last.phonemes
        pure (segs.dropLast ++ swept)
    | none => pure segs
  else if r.initial then
    match segs with
    | first :: rest =>
      if first.changed then pure segs
      else do
        let swept ← r.sweepAt true rest.isEmpty first.phonemes
        pure (swept ++ rest)
    | [] => pure segs
  else r.stepEachAt true segs

section Ends

variable {atStart atEnd : Bool}

/-- The sites found with the ends enabled as given are the usual ones when each pattern matches
alike wherever the usual pass tries it: the `before` context at each position of the stretch, the
input after it, and the `after` context after both. -/
theorem sitesFromAt_eq_sitesFrom_of_agree (r : Rule) (w : List Phoneme)
    (hb : ∀ i < w.length, r.before.matchAt atStart atEnd w i = r.before.matchLength w i)
    (hi : ∀ i < w.length, ∀ pl, r.before.matchLength w i = some pl →
      r.input.matchAt atStart atEnd w (i + pl) = r.input.matchLength w (i + pl))
    (ha : ∀ i < w.length, ∀ pl il, r.before.matchLength w i = some pl →
      r.input.matchLength w (i + pl) = some il →
        r.after.matchAt atStart atEnd w (i + pl + il) = r.after.matchLength w (i + pl + il))
    (i : Nat) : r.sitesFromAt atStart atEnd w i = r.sitesFrom w i := by
  fun_induction r.sitesFrom w i with
  | case1 i hlt hnone ih =>
    rw [sitesFromAt, if_pos hlt, hb i hlt, hnone, ih]
  | case2 i hlt pl hpl hnone ih =>
    rw [sitesFromAt, if_pos hlt, hb i hlt, hpl]
    simp only [hi i hlt pl hpl, hnone, ih]
  | case3 i hlt pl hpl il hil hnone ih =>
    rw [sitesFromAt, if_pos hlt, hb i hlt, hpl]
    simp only [hi i hlt pl hpl, hil, ha i hlt pl il hpl hil, hnone, ih]
  | case4 i hlt pl hpl il hil al hal ih =>
    rw [sitesFromAt, if_pos hlt, hb i hlt, hpl]
    simp only [hi i hlt pl hpl, hil, ha i hlt pl il hpl hil, hal, ih]
  | case5 i hge => rw [sitesFromAt, if_neg hge]

/-- With both ends enabled, or for a rule with no boundary, the sites found are the usual ones. -/
theorem sitesFromAt_eq_sitesFrom (r : Rule) (h : (atStart && atEnd || r.boundaryFree) = true)
    (w : List Phoneme) (i : Nat) : r.sitesFromAt atStart atEnd w i = r.sitesFrom w i := by
  simp only [boundaryFree, Bool.or_and_distrib_left, Bool.and_eq_true] at h
  obtain ⟨⟨hb, hi⟩, ha⟩ := h
  exact sitesFromAt_eq_sitesFrom_of_agree r w
    (fun j _ => Pattern.matchAt_eq_matchLength r.before w j hb)
    (fun _ _ _ _ => Pattern.matchAt_eq_matchLength r.input w _ hi)
    (fun _ _ _ _ _ _ => Pattern.matchAt_eq_matchLength r.after w _ ha) i

/-- A pass with both ends enabled, or by a rule with no boundary, is the usual pass. -/
theorem sweepAt_eq_sweep (r : Rule) (h : (atStart && atEnd || r.boundaryFree) = true)
    (w : List Phoneme) : r.sweepAt atStart atEnd w = r.sweep w := by
  simp only [sweepAt, sweep, sites, sitesFromAt_eq_sitesFrom r h]

/-- A pass of a rule that can see `#` only at the start does not depend on whether the end of the
stretch is the word's: the `before` context is only tried inside the stretch. -/
theorem sweepAt_of_startEdgeOnly (r : Rule) (h : r.startEdgeOnly = true) (w : List Phoneme) :
    r.sweepAt true atEnd w = r.sweep w := by
  simp only [startEdgeOnly, Bool.and_eq_true] at h
  obtain ⟨⟨hb, hi⟩, ha⟩ := h
  have hsites : r.sitesFromAt true atEnd w 0 = r.sitesFrom w 0 :=
    sitesFromAt_eq_sitesFrom_of_agree r w
      (fun j hj => by
        rw [Pattern.matchAt_of_leadingEdgeOnly r.before w j hb hj]
        exact Pattern.matchAt_eq_matchLength r.before w j rfl)
      (fun _ _ _ _ => Pattern.matchAt_eq_matchLength r.input w _ (by simp [hi]))
      (fun _ _ _ _ _ _ => Pattern.matchAt_eq_matchLength r.after w _ (by simp [ha])) 0
  simp only [sweepAt, sweep, sites, hsites]

/-- A pass of a rule that can see `#` only at the end does not depend on whether the start of the
stretch is the word's: the `after` context is only tried past the start. -/
theorem sweepAt_of_endEdgeOnly (r : Rule) (h : r.endEdgeOnly = true) (w : List Phoneme) :
    r.sweepAt atStart true w = r.sweep w := by
  simp only [endEdgeOnly, Bool.and_eq_true, Bool.or_eq_true] at h
  obtain ⟨⟨hb, hi⟩, hcons⟩ := h
  have hsites : r.sitesFromAt atStart true w 0 = r.sitesFrom w 0 := by
    refine sitesFromAt_eq_sitesFrom_of_agree r w
      (fun j _ => Pattern.matchAt_eq_matchLength r.before w j (by simp [hb]))
      (fun _ _ _ _ => Pattern.matchAt_eq_matchLength r.input w _ (by simp [hi]))
      (fun j _ pl il hpl hil => ?_) 0
    -- the `before` context or the input has taken a phoneme before the `after` context is tried
    have hpos : 0 < j + pl + il := by
      rcases hcons with hcb | hci
      · have := Pattern.matchLength_pos_of_consumes r.before w j pl hcb hpl
        omega
      · have := Pattern.matchLength_pos_of_consumes r.input w (j + pl) il hci hil
        omega
    rw [Pattern.matchAt_of_pos r.after w _ hpos]
    exact Pattern.matchAt_eq_matchLength r.after w _ (by simp)
  simp only [sweepAt, sweep, sites, hsites]

end Ends

/-- A rule with no boundary applied to each unchanged segment matches alike whichever ends are
enabled. -/
theorem stepEachAt_eq_stepEach (r : Rule) (h : r.boundaryFree = true) :
    ∀ (first : Bool) (segs : List Segment), r.stepEachAt first segs = r.stepEach segs
  | _, [] => rfl
  | first, s :: rest => by
    simp only [stepEachAt, stepEach, sweepAt_eq_sweep r (by simp [h]),
      stepEachAt_eq_stepEach r h false rest]

/-- A word of one segment, or none, has its segment's ends for its own. -/
theorem step_eq_stepAtEdges_of_length_le_one (r : Rule) :
    ∀ segs : List Segment, segs.length ≤ 1 → r.step segs = r.stepAtEdges segs
  | [], _ => by simp [step, stepAtEdges, stepEach, stepEachAt]
  | [s], _ => by
    simp only [step, stepAtEdges, stepEach, stepEachAt, List.getLast?_singleton,
      List.length_singleton, List.isEmpty_nil, beq_self_eq_true, @sweepAt_eq_sweep true true r rfl]

/-- A step honours the real ends of the word when the word has not been split, when the rule is
anchored at both ends (it then skips a split word), or when the rule has no boundary: it is then
the step with `#` matching only at the word's two ends. -/
theorem step_eq_stepAtEdges (r : Rule) (segs : List Segment)
    (h : segs.length ≤ 1 ∨ (r.initial && r.final) = true ∨ r.boundaryFree = true) :
    r.step segs = r.stepAtEdges segs := by
  rcases h with hlen | hanchored | hfree
  · exact step_eq_stepAtEdges_of_length_le_one r segs hlen
  · by_cases hlen : segs.length ≤ 1
    · exact step_eq_stepAtEdges_of_length_le_one r segs hlen
    · -- both steps leave a split word to a rule anchored at both ends
      have hskip : (r.initial && r.final && decide (1 < segs.length)) = true := by
        simp only [Bool.and_eq_true, decide_eq_true_eq] at hanchored ⊢
        exact ⟨hanchored, by omega⟩
      simp only [step, stepAtEdges, if_pos hskip]
  · unfold step stepAtEdges
    -- the two definitions have matchers of their own: compare them on each shape of the word
    rcases segs.getLast? with _ | last <;> rcases segs with _ | ⟨first, rest⟩ <;>
      simp only [sweepAt_eq_sweep r (by simp [hfree]), stepEachAt_eq_stepEach r hfree]

/-- A rule anchored at the start of the word that can see `#` only there sweeps the first segment
alike whether or not the segment's end is taken for the word's. -/
theorem step_eq_stepAtEdges_of_initial (r : Rule) (hinit : r.initial = true)
    (hstart : r.startEdgeOnly = true) (segs : List Segment) : r.step segs = r.stepAtEdges segs := by
  cases hfinal : r.final
  · unfold step stepAtEdges
    -- only the first segment is swept, by both steps
    rcases segs with _ | ⟨first, rest⟩ <;>
      simp only [hinit, hfinal, Bool.and_false, Bool.false_and, Bool.false_eq_true, if_false,
        if_true, sweepAt_of_startEdgeOnly r hstart]
  · exact step_eq_stepAtEdges r segs (.inr (.inl (by simp [hinit, hfinal])))

/-- A rule anchored at the end of the word that can see `#` only there sweeps the last segment
alike whether or not the segment's start is taken for the word's. -/
theorem step_eq_stepAtEdges_of_final (r : Rule) (hfinal : r.final = true)
    (hend : r.endEdgeOnly = true) (segs : List Segment) : r.step segs = r.stepAtEdges segs := by
  cases hinit : r.initial
  · unfold step stepAtEdges
    -- only the last segment is swept, by both steps
    rcases segs.getLast? with _ | last <;>
      simp only [hinit, hfinal, Bool.false_and, Bool.false_eq_true, if_false, if_true,
        sweepAt_of_endEdgeOnly r hend]
  · exact step_eq_stepAtEdges r segs (.inr (.inl (by simp [hinit, hfinal])))

/-- **A step honours the real ends of the word** when the word has not been split, when the rule
is anchored at both ends (it then skips a split word), when the rule has no boundary, or when the
rule is anchored at one end and can see `#` only there: it is then the step with `#` matching
only at the word's two ends. -/
theorem step_keeps_to_word_edges (r : Rule) (segs : List Segment)
    (h : segs.length ≤ 1 ∨ (r.initial && r.final) = true ∨ r.boundaryFree = true ∨
      (r.initial = true ∧ r.startEdgeOnly = true) ∨ (r.final = true ∧ r.endEdgeOnly = true)) :
    r.step segs = r.stepAtEdges segs := by
  rcases h with h | h | h | ⟨hinit, hstart⟩ | ⟨hfinal, hend⟩
  · exact step_eq_stepAtEdges r segs (.inl h)
  · exact step_eq_stepAtEdges r segs (.inr (.inl h))
  · exact step_eq_stepAtEdges r segs (.inr (.inr h))
  · exact step_eq_stepAtEdges_of_initial r hinit hstart segs
  · exact step_eq_stepAtEdges_of_final r hfinal hend segs

/-- After a split, the rule `a → e / _#`, anchored at the end, sweeps the last segment `a` of `xa`
as the end of the word that it is. -/
theorem step_keeps_to_word_end_after_split :
    let r : Rule :=
      ⟨"", {}, ⟨[], none⟩, .symbol "a", .null, .boundary, [.literal ⟨"e", .empty⟩], false, true⟩
    let segs : List Segment := [⟨true, [⟨"x", .empty⟩]⟩, ⟨false, [⟨"a", .empty⟩]⟩]
    (segs.length ≤ 1 ∨ (r.initial && r.final) = true ∨ r.boundaryFree = true ∨
      (r.initial = true ∧ r.startEdgeOnly = true) ∨ (r.final = true ∧ r.endEdgeOnly = true)) ∧
      r.step segs = r.stepAtEdges segs := by
  intro r segs
  have h : r.final = true ∧ r.endEdgeOnly = true := ⟨rfl, by decide⟩
  exact ⟨.inr (.inr (.inr (.inr h))), step_keeps_to_word_edges r segs (.inr (.inr (.inr (.inr h))))⟩

/-- Once `u → i` has split `au` into `a` and a written `i`, the rule `a → e` before `#` or `x`
rewrites the `a`: the end of its segment passes for the end of the word, which it is not. -/
theorem step_matches_inner_edge :
    let a : Phoneme := ⟨"a", .empty⟩
    let e : Phoneme := ⟨"e", .empty⟩
    let i : Phoneme := ⟨"i", .empty⟩
    let u : Phoneme := ⟨"u", .empty⟩
    let raise : Rule := ⟨"", {}, ⟨[], none⟩, .symbol "u", .null, .null, [.literal i], false, false⟩
    let front : Rule :=
      ⟨"", {}, ⟨[], none⟩, .symbol "a", .null, .alt [.boundary, .symbol "x"], [.literal e],
        false, false⟩
    let split : List Segment := [⟨false, [a]⟩, ⟨true, [i]⟩]
    (raise.step [⟨false, [a, u]⟩]).run' = (.ok split, []) ∧
      (front.step split).run' = (.ok [⟨true, [e]⟩, ⟨true, [i]⟩], []) ∧
      (front.stepAtEdges split).run' = (.ok split, []) := by
  intro a e i u raise front split
  have hraise : raise.sites [a, u] = [(1, 2)] := by
    rw [sites, sitesFrom, if_pos (by decide)]
    simp [raise, a, u, Pattern.matchLength]
    rw [sitesFrom, if_pos (by decide)]
    simp [Pattern.matchLength]
    rw [sitesFrom, if_neg (by decide)]
  -- the `#` of `front` matches after `a`, at the end of its segment ...
  have hfront : front.sites [a] = [(0, 1)] := by
    rw [sites, sitesFrom, if_pos (by decide)]
    simp [front, a, Pattern.matchLength, Pattern.matchAlt, longer]
    rw [sitesFrom, if_neg (by decide)]
  -- ... but not once only the word's own end counts
  have hedge : front.sitesFromAt true false [a] 0 = [] := by
    rw [sitesFromAt, if_pos (by decide)]
    simp [front, a, Pattern.matchAt, Pattern.matchAltAt, Pattern.matchLength, longer]
    rw [sitesFromAt, if_neg (by decide)]
  refine ⟨?_, ?_, ?_⟩
  · simp only [step, stepEach, sweep, hraise]
    simp [raise, cut, substitute, bySlot, Traced.run', split]
    rfl
  · simp only [split, step, stepEach, sweep, hfront]
    simp [front, cut, substitute, bySlot, Traced.run']
    rfl
  · simp only [split, stepAtEdges, stepEachAt, sweepAt, List.isEmpty_cons, hedge]
    simp [front, cut, Traced.run']
    rfl

end Rule

end SoundLaw
