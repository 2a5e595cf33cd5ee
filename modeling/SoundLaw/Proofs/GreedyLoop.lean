import SoundLaw.Proofs.CanonicalMatch

/-!
# The loop of a repetition

A repetition takes its base again and again in a loop with no bound of its own: it stops when the
base fails or matches the empty stretch. `matchLength` runs that loop with fuel, one step more than
the phonemes left after the start. `GreedyLoop` is the loop as the program runs it, with no fuel
and with the number of steps it takes; this module shows that the fuel never runs out and that the
loop is the recursive reading of a repetition.

* `GreedyLoop.deterministic` — the loop has one run;
* `greedyLoop_repeatGreedy` — with fuel beyond the phonemes left, `repeatGreedy` is the answer of a
  run of the loop that takes at most one step more than those phonemes;
* `repeatGreedy_fuel`, `repeatGreedy_shift`, `repeatGreedy_count_succ` — the fuelled loop with
  other fuel, seen from a later start, and after one more step;
* `matchLength_rep_fail`, `matchLength_rep_empty`, `matchLength_rep_advance` — the three things the
  first step of a repetition can do;
* **`match_stays_in_word`** — a pattern never reaches past the word, the loop of every repetition
  stops within `|w| - s + 1` steps with the answer `matchLength` gives, and what `nextMatch` finds
  lies inside the word;
* **`rep_unfolds_once`** — a repetition with a least count `n ≥ 1` matches like its base followed
  by the repetition with least count `n - 1`, and a star is empty where its base fails or matches
  nothing, and otherwise the base's match followed by the star.
-/

namespace SoundLaw

/-- The loop of a repetition, run without a bound. Having taken the step `count` times over the
`total` phonemes after `start`, the loop stops after `n` more steps with the answer `r`: a failing
step ends it, successfully only when the step was taken at least `least` times; a step matching
nothing ends it successfully; a step matching `l + 1` phonemes goes on after them. -/
inductive GreedyLoop (step : Nat → Option Nat) (least : Int) (start : Nat) :
    Nat → Nat → Nat → Option Nat → Prop
  /-- The step fails. -/
  | fail {total count : Nat} : step (start + total) = none →
      GreedyLoop step least start total count 1 (if least ≤ count then some total else none)
  /-- The step matches the empty stretch. -/
  | empty {total count : Nat} : step (start + total) = some 0 →
      GreedyLoop step least start total count 1 (some total)
  /-- The step matches `l + 1` phonemes. -/
  | advance {total count l n : Nat} {r : Option Nat} : step (start + total) = some (l + 1) →
      GreedyLoop step least start (total + (l + 1)) (count + 1) n r →
      GreedyLoop step least start total count (n + 1) r

section Loop

variable {step : Nat → Option Nat} {N : Nat}

/-- The loop is deterministic: two runs from one state take as many steps and agree. -/
theorem GreedyLoop.deterministic {least : Int} {start total count n : Nat} {r : Option Nat}
    (h : GreedyLoop step least start total count n r) :
    ∀ {n' r'}, GreedyLoop step least start total count n' r' → n = n' ∧ r = r' := by
  induction h with
  | fail hs =>
    intro n' r' h'
    cases h' with
    | fail _ => exact ⟨rfl, rfl⟩
    | empty hs' => rw [hs] at hs'; cases hs'
    | advance hs' _ => rw [hs] at hs'; cases hs'
  | empty hs =>
    intro n' r' h'
    cases h' with
    | fail hs' => rw [hs] at hs'; cases hs'
    | empty _ => exact ⟨rfl, rfl⟩
    | advance hs' _ => rw [hs] at hs'; cases hs'
  | advance hs _ ih =>
    intro n' r' h'
    cases h' with
    | fail hs' => rw [hs] at hs'; cases hs'
    | empty hs' => rw [hs] at hs'; cases hs'
    | advance hs' h'' =>
      -- both runs took the same step, so they go on from the same state
      rw [hs] at hs'
      obtain rfl := Nat.succ.inj (Option.some.inj hs')
      obtain ⟨rfl, rfl⟩ := ih h''
      exact ⟨rfl, rfl⟩

/-- With fuel beyond the phonemes left before offset `N`, the fuelled loop gives the answer of a
run of the loop, and that run takes at most one step more than those phonemes. -/
theorem greedyLoop_repeatGreedy (hstep : ∀ j l, step j = some l → l ≤ N - j) (least : Int)
    (start : Nat) : ∀ (fuel total count : Nat), N - (start + total) < fuel →
      ∃ n ≤ N - (start + total) + 1,
        GreedyLoop step least start total count n
          (repeatGreedy step least fuel start (start + total) count)
  | 0, _, _, h => absurd h (Nat.not_lt_zero _)
  | fuel + 1, total, count, h => by
    simp only [repeatGreedy]
    split
    · rename_i hs
      rw [Nat.add_sub_cancel_left]
      exact ⟨1, by omega, .fail hs⟩
    · rename_i hs
      rw [Nat.add_sub_cancel_left]
      exact ⟨1, by omega, .empty hs⟩
    · rename_i l hs
      -- the step stays before `N`, so the fuel left still exceeds the phonemes left
      have hl := hstep _ _ hs
      obtain ⟨n, hn, hrun⟩ :=
        greedyLoop_repeatGreedy hstep least start fuel (total + (l + 1)) (count + 1) (by omega)
      rw [← Nat.add_assoc start total] at hrun
      exact ⟨n + 1, by omega, .advance hs hrun⟩

/-- Any two amounts of fuel beyond the phonemes left give the same answer. -/
theorem repeatGreedy_fuel (hstep : ∀ j l, step j = some l → l ≤ N - j) {least : Int}
    {fuel fuel' pos count : Nat} (h : N - pos < fuel) (h' : N - pos < fuel') :
    repeatGreedy step least fuel pos pos count = repeatGreedy step least fuel' pos pos count := by
  obtain ⟨_, -, hrun⟩ := greedyLoop_repeatGreedy hstep least pos fuel 0 count (by omega)
  obtain ⟨_, -, hrun'⟩ := greedyLoop_repeatGreedy hstep least pos fuel' 0 count (by omega)
  simpa only [Nat.add_zero] using (hrun.deterministic hrun').2

/-- The loop seen from a later start answers the same stretch, shorter by the phonemes between. -/
theorem repeatGreedy_shift {least : Int} :
    ∀ {fuel start pos count : Nat}, start ≤ pos →
      repeatGreedy step least fuel start pos count =
        (repeatGreedy step least fuel pos pos count).map (pos - start + ·)
  | 0, _, _, _, _ => rfl
  | fuel + 1, start, pos, count, h => by
    simp only [repeatGreedy]
    split
    · split <;> simp
    · simp
    · rename_i l _
      rw [repeatGreedy_shift (Nat.le_trans h (Nat.le_add_right pos (l + 1))),
        repeatGreedy_shift (Nat.le_add_right pos (l + 1)), Option.map_map]
      congr 1
      funext m
      simp only [Function.comp_apply]
      omega

/-- One more step taken is one less step still required. -/
theorem repeatGreedy_count_succ {least : Int} :
    ∀ {fuel start pos count : Nat},
      repeatGreedy step least fuel start pos (count + 1) =
        repeatGreedy step (least - 1) fuel start pos count
  | 0, _, _, _ => rfl
  | fuel + 1, start, pos, count => by
    simp only [repeatGreedy]
    split
    · have hcount : (least ≤ ((count + 1 : Nat) : Int)) ↔ (least - 1 ≤ (count : Int)) := by omega
      simp only [hcount]
    · rfl
    · exact repeatGreedy_count_succ

end Loop

namespace Pattern

variable {b : Pattern} {k : Int} {w : List Phoneme} {s : Nat}

/-! ## The first step of a repetition -/

/-- Where the base fails, a repetition matches the empty stretch if it needs no step, and fails
otherwise. -/
theorem matchLength_rep_fail (h : b.matchLength w s = none) :
    (rep b k).matchLength w s = if k ≤ 0 then some 0 else none := by
  simp [matchLength_rep, repeatGreedy, h]

/-- Where the base matches the empty stretch, a repetition matches the empty stretch. -/
theorem matchLength_rep_empty (h : b.matchLength w s = some 0) :
    (rep b k).matchLength w s = some 0 := by
  simp [matchLength_rep, repeatGreedy, h]

/-- Where the base matches `l + 1` phonemes, a repetition takes them and goes on after them with
one step fewer to take. -/
theorem matchLength_rep_advance {l : Nat} (h : b.matchLength w s = some (l + 1)) :
    (rep b k).matchLength w s = ((rep b (k - 1)).matchLength w (s + (l + 1))).map ((l + 1) + ·) := by
  have hin : s + (l + 1) ≤ w.length := by
    have := matchLength_le b w s _ h
    omega
  -- the first step takes the `l + 1` phonemes and leaves the fuel `|w| - s`
  have hfirst : (rep b k).matchLength w s =
      repeatGreedy (fun j => b.matchLength w j) k (w.length - s) s (s + (l + 1)) 1 := by
    simp [matchLength_rep, repeatGreedy, h]
  -- that fuel, and the fuel of a fresh start after the step, both exceed the phonemes left
  have hfuel : repeatGreedy (fun j => b.matchLength w j) (k - 1) (w.length - s) (s + (l + 1))
      (s + (l + 1)) 0 = (rep b (k - 1)).matchLength w (s + (l + 1)) := by
    rw [matchLength_rep]
    exact repeatGreedy_fuel (matchLength_le b w) (by omega) (by omega)
  rw [hfirst, repeatGreedy_shift (by omega), repeatGreedy_count_succ, hfuel,
    Nat.add_sub_cancel_left]

/-! ## The loop of a repetition stops inside the word -/

/-- The loop of a repetition at `s` stops within one step more than the phonemes left after `s`,
with the answer `matchLength` gives. -/
theorem rep_loop (b : Pattern) (k : Int) (w : List Phoneme) (s : Nat) :
    ∃ n ≤ w.length - s + 1,
      GreedyLoop (b.matchLength w) k s 0 0 n ((rep b k).matchLength w s) := by
  have hrun := greedyLoop_repeatGreedy (matchLength_le b w) k s (w.length - s + 1) 0 0 (by omega)
  rw [Nat.add_zero] at hrun
  rwa [matchLength_rep]

/-- What `nextMatch` finds lies inside the word, at or after where the search began. -/
theorem nextMatch_inside {t : Pattern} {i L : Nat} (h : t.nextMatch w s = some (i, L)) :
    s ≤ i ∧ i < w.length ∧ i + L ≤ w.length := by
  obtain ⟨j, hj, hfound⟩ := List.exists_of_findSome?_eq_some h
  obtain ⟨L', hL', hpair⟩ := Option.map_eq_some_iff.1 hfound
  cases hpair
  have hrange := List.mem_range'_1.1 hj
  have hfit := matchLength_le t w i L hL'
  omega

/-- **Patterns stay inside the word.** From any start `s`, whatever the pattern and its least
counts (negative ones too), a match covers at most the `|w| - s` phonemes left, so none once `s`
is at or past the end; the loop of every repetition at `s` stops, every run of it within
`|w| - s + 1` steps and with the answer `matchLength` gives; and a match found by `nextMatch` from
`s` starts at an offset inside the word and ends inside it. -/
theorem match_stays_in_word (w : List Phoneme) (s : Nat) :
    (∀ (t : Pattern) (L : Nat), t.matchLength w s = some L → L ≤ w.length - s) ∧
    (∀ (b : Pattern) (k : Int), ∃ n r, GreedyLoop (b.matchLength w) k s 0 0 n r) ∧
    (∀ (b : Pattern) (k : Int) (n : Nat) (r : Option Nat),
      GreedyLoop (b.matchLength w) k s 0 0 n r →
        n ≤ w.length - s + 1 ∧ r = (rep b k).matchLength w s) ∧
    (∀ (t : Pattern) (i L : Nat), t.nextMatch w s = some (i, L) →
      s ≤ i ∧ i < w.length ∧ i + L ≤ w.length) := by
  refine ⟨fun t L h => matchLength_le t w s L h, fun b k => ?_, fun b k n r hrun => ?_,
    fun t i L h => nextMatch_inside h⟩
  · obtain ⟨n, -, hloop⟩ := rep_loop b k w s
    exact ⟨n, _, hloop⟩
  · -- the loop has one run, the one `rep_loop` describes
    obtain ⟨n', hn', hloop⟩ := rep_loop b k w s
    obtain ⟨rfl, rfl⟩ := hrun.deterministic hloop
    exact ⟨hn', rfl⟩

/-! ## The loop is the recursive reading of a repetition -/

/-- A sequence of one pattern matches like the pattern, inside the word. -/
theorem matchSeq_singleton (p : Pattern) {i : Nat} (hi : i ≤ w.length) :
    matchSeq [p] w i = p.matchLength w i :=
  (matchLength_seqOf [p] w hi).symm

/-- **A repetition unfolds once.** From an offset inside the word, a repetition with least count
`n ≥ 1` matches like its base followed by the repetition with least count `n - 1`; and a star
matches the empty stretch where its base fails or matches nothing, and where its base matches
`l > 0` phonemes it matches them followed by what the star matches after them, which never
fails. -/
theorem rep_unfolds_once (b : Pattern) (w : List Phoneme) {s : Nat} (hs : s ≤ w.length) :
    (∀ n : Int, 1 ≤ n → (rep b n).matchLength w s = (seq [b, rep b (n - 1)]).matchLength w s) ∧
    (b.matchLength w s = none → (rep b 0).matchLength w s = some 0) ∧
    (b.matchLength w s = some 0 → (rep b 0).matchLength w s = some 0) ∧
    (∀ l, 0 < l → b.matchLength w s = some l →
      ∃ M, (rep b 0).matchLength w (s + l) = some M ∧ (rep b 0).matchLength w s = some (l + M)) := by
  refine ⟨fun n hn => ?_, fun h => by simp [matchLength_rep_fail h],
    matchLength_rep_empty, fun l hl h => ?_⟩
  · -- the sequence matches its base, then the repetition with one step fewer right after it
    have hseq : (seq [b, rep b (n - 1)]).matchLength w s =
        (b.matchLength w s).bind fun l => (matchSeq [rep b (n - 1)] w (s + l)).map (l + ·) := by
      simp only [matchLength]
      exact matchSeq_cons hs
    rw [hseq]
    cases h : b.matchLength w s with
    | none => simp [matchLength_rep_fail h, if_neg (show ¬n ≤ 0 by omega)]
    | some l =>
      cases l with
      | zero =>
        simp only [Option.bind_some, Nat.add_zero, matchSeq_singleton _ hs,
          matchLength_rep_empty h, Option.map_some]
      | succ l =>
        have hin : s + (l + 1) ≤ w.length := matchLength_add_le h hs
        simp only [Option.bind_some, matchSeq_singleton _ hin, matchLength_rep_advance h]
  · -- the star after the base is the star one step fewer, and a star never fails
    obtain ⟨l, rfl⟩ : ∃ l', l = l' + 1 := ⟨l - 1, by omega⟩
    have hstar : (rep b (0 - 1)).matchLength w (s + (l + 1)) =
        (rep b 0).matchLength w (s + (l + 1)) := by
      rw [matchLength_rep, matchLength_rep]
      exact repeatGreedy_nonpos (by omega) (by omega)
    obtain ⟨M, hM⟩ : ∃ M, (rep b 0).matchLength w (s + (l + 1)) = some M := by
      rw [matchLength_rep]
      exact repeatGreedy_nonpos_isSome (Int.le_refl 0) (matchLength_le b w) (by omega)
    refine ⟨M, hM, ?_⟩
    rw [matchLength_rep_advance h, hstar, hM]
    rfl

/-- `(ab)₂` over `abab`, from its start, matches like `ab` followed by `(ab)₁`. -/
theorem rep_unfolds_once_over_abab :
    let w : List Phoneme := [⟨"a", .empty⟩, ⟨"b", .empty⟩, ⟨"a", .empty⟩, ⟨"b", .empty⟩]
    let ab : Pattern := seq [symbol "a", symbol "b"]
    0 ≤ w.length ∧ (1 : Int) ≤ 2 ∧
      (rep ab 2).matchLength w 0 = (seq [ab, rep ab (2 - 1)]).matchLength w 0 :=
  ⟨Nat.zero_le _, by decide, (rep_unfolds_once _ _ (Nat.zero_le _)).1 2 (by decide)⟩

end Pattern

end SoundLaw
