import SoundLaw.Proofs.Sweep
import SoundLaw.Proofs.MatchBounds

/-!
# One pass of a rule is a leftmost, non-overlapping scan

A pass of a rule over a word (`Rule.sweep`) looks from left to right for the places where the
rule applies, always against the word as it was before the pass, and writes the input span of
each. This module describes those places without the search, and the result without the
bookkeeping of notices:

* `Rule.MatchesAt w p i j` — at position `p`, a phoneme of `w`, the `before` context matches up
  to `i`, the input from `i` up to `j`, and the `after` context matches at `j`;
* `Rule.Scan w start ms` — `ms` is the leftmost-first scan from `start`: each occurrence is at
  the least position, at or after where the scan stands, where the rule applies; the scan goes
  on at the end of the input span or one past the position, whichever is later; and the rule
  applies nowhere after the last occurrence;
* `Rule.layout` — a word cut at given spans, each span written as given and the unchanged
  stretches between them kept;
* `scan_sitesFrom` — the search finds exactly the scan; `cut_eq_layout` — cutting writes the
  spans in order and lays out the segments;
* `substitute_fails_iff` — writing a span fails exactly when the output is written slot by slot
  and has another length than the span, and then with a length mismatch;
* `sweep_is_leftmost_scan` — **the pass**: its spans are the leftmost scan, inside the word, its
  result is the layout of the written spans without empty unchanged stretches, and it fails
  exactly when the output is written slot by slot and some span's length differs from the
  output's, with the length mismatch of such a span.
-/

namespace SoundLaw

/-! ## Failures of traced computations -/

namespace Traced

variable {α β γ : Type}

/-- `x` fails when started from the notices `notes`. -/
def Fails (x : Traced α) (notes : List Unlisted) : Prop :=
  ∃ e notes', (ExceptT.run x).run notes = (.error e, notes')

/-- Every failure of `x`, from any notices, is one that `E` allows. -/
def Raises (x : Traced α) (E : SoundError → Prop) : Prop :=
  ∀ notes e notes', (ExceptT.run x).run notes = (.error e, notes') → E e

theorem not_fails_pure (a : α) (s : List Unlisted) : ¬ Fails (pure a : Traced α) s := by
  rintro ⟨e, s', h⟩
  rw [run_pure] at h
  cases h

/-- A bound computation fails when its first part fails, or when the first part succeeds and
the rest fails from there. -/
theorem fails_bind {x : Traced α} {f : α → Traced β} {s : List Unlisted} :
    Fails (x >>= f) s ↔
      Fails x s ∨ ∃ a s', (ExceptT.run x).run s = (.ok a, s') ∧ Fails (f a) s' := by
  unfold Fails
  rw [run_bind]
  rcases (ExceptT.run x).run s with ⟨_ | a, s'⟩
  · -- the first part fails, and so does the whole
    dsimp only
    constructor
    · rintro ⟨e, t, h⟩
      cases h
      exact .inl ⟨_, _, rfl⟩
    · rintro (⟨e, t, h⟩ | ⟨b, t, h, _⟩)
      · cases h
        exact ⟨_, _, rfl⟩
      · cases h
  · refine ⟨fun h => .inr ⟨a, s', rfl, h⟩, ?_⟩
    rintro (⟨e, t, h⟩ | ⟨b, t, h, hf⟩)
    · cases h
    · cases h
      exact hf

theorem fails_map {f : α → β} {x : Traced α} {s : List Unlisted} :
    Fails (f <$> x) s ↔ Fails x s := by
  rw [map_eq_pure_bind, fails_bind]
  constructor
  · rintro (h | ⟨a, s', _, h⟩)
    · exact h
    · exact absurd h (not_fails_pure _ _)
  · exact .inl

/-- Running a computation over a list fails exactly when it fails on some element, given that
whether it fails on an element does not depend on the notices raised before. -/
theorem mapM_fails_iff {f : γ → Traced α} {P : γ → Prop} (hf : ∀ c s, Fails (f c) s ↔ P c) :
    ∀ (cs : List γ) (s : List Unlisted), Fails (cs.mapM f) s ↔ ∃ c ∈ cs, P c
  | [], s => by simpa using not_fails_pure [] s
  | c :: cs, s => by
    rw [List.mapM_cons, fails_bind]
    rcases h : (ExceptT.run (f c)).run s with ⟨_ | a, s'⟩
    · -- the first element fails
      have hc : P c := (hf c s).1 ⟨_, _, h⟩
      exact ⟨fun _ => ⟨c, List.mem_cons_self, hc⟩, fun _ => .inl ⟨_, _, h⟩⟩
    · -- the first element succeeds, and the rest decides
      have hc : ¬ P c := fun hc => by
        obtain ⟨e, s'', h'⟩ := (hf c s).2 hc
        rw [h] at h'
        cases h'
      have hrest : Fails (cs.mapM f >>= fun bs => pure (a :: bs)) s' ↔ ∃ c' ∈ cs, P c' := by
        rw [bind_pure_comp, fails_map]
        exact mapM_fails_iff hf cs s'
      constructor
      · rintro (⟨e, s'', h'⟩ | ⟨a', s'', h', hfail⟩)
        · rw [h] at h'
          cases h'
        · cases h'
          obtain ⟨c', hc', hP⟩ := hrest.1 hfail
          exact ⟨c', List.mem_cons_of_mem c hc', hP⟩
      · rintro ⟨c', hc', hP⟩
        rcases List.mem_cons.1 hc' with rfl | hc'
        · exact absurd hP hc
        · exact .inr ⟨a, s', rfl, hrest.2 ⟨c', hc', hP⟩⟩

theorem raises_of_not_fails {x : Traced α} {E : SoundError → Prop} (h : ∀ s, ¬ Fails x s) :
    Raises x E :=
  fun s e s' hx => absurd ⟨e, s', hx⟩ (h s)

theorem raises_bind {x : Traced α} {f : α → Traced β} {E : SoundError → Prop}
    (hx : Raises x E) (hf : ∀ a, Raises (f a) E) : Raises (x >>= f) E := by
  intro s e s' h
  rw [run_bind] at h
  rcases hrun : (ExceptT.run x).run s with ⟨_ | a, s₁⟩
  · rw [hrun] at h
    cases h
    exact hx s _ _ hrun
  · rw [hrun] at h
    exact hf a s₁ e s' h

theorem raises_pure (a : α) (E : SoundError → Prop) : Raises (pure a : Traced α) E :=
  raises_of_not_fails (not_fails_pure a)

theorem raises_mapM {f : γ → Traced α} {E : SoundError → Prop} :
    ∀ cs : List γ, (∀ c ∈ cs, Raises (f c) E) → Raises (cs.mapM f) E
  | [], _ => by simpa using raises_pure ([] : List α) E
  | c :: cs, hcs => by
    rw [List.mapM_cons]
    exact raises_bind (hcs c List.mem_cons_self) fun _ =>
      raises_bind (raises_mapM cs fun c' hc' => hcs c' (List.mem_cons_of_mem c hc'))
        fun _ => raises_pure _ E

theorem raises_map {f : α → β} {x : Traced α} {E : SoundError → Prop} (h : Raises x E) :
    Raises (f <$> x) E := by
  rw [map_eq_pure_bind]
  exact raises_bind h fun _ => raises_pure _ E

theorem Raises.mono {x : Traced α} {E E' : SoundError → Prop} (h : Raises x E)
    (hE : ∀ e, E e → E' e) : Raises x E' :=
  fun s e s' hx => hE e (h s e s' hx)

end Traced

open Traced

namespace Rule

/-! ## Where a rule applies -/

/-- A place where a rule applies: the position where its `before` context starts, and the
offsets where its input starts and stops. -/
structure Occurrence where
  pos : Nat
  start : Nat
  stop : Nat
  deriving DecidableEq

/-- The input span of an occurrence. -/
def Occurrence.span (m : Occurrence) : Nat × Nat := (m.start, m.stop)

/-- The rule applies at position `p` of `w` with its input spanning the offsets `i` to `j`. -/
structure MatchesAt (r : Rule) (w : List Phoneme) (p i j : Nat) : Prop where
  /-- The position points at a phoneme of the word. -/
  inside : p < w.length
  le_start : p ≤ i
  /-- The `before` context matches from `p` up to `i`. -/
  before : r.before.matchLength w p = some (i - p)
  start_le : i ≤ j
  /-- The input matches from `i` up to `j`. -/
  input : r.input.matchLength w i = some (j - i)
  /-- The `after` context matches at `j`. -/
  after : (r.after.matchLength w j).isSome

/-- The rule applies at position `p` of `w`. -/
def AppliesAt (r : Rule) (w : List Phoneme) (p : Nat) : Prop := ∃ i j, r.MatchesAt w p i j

/-- The leftmost-first, non-overlapping scan of `w` from position `start`. -/
inductive Scan (r : Rule) (w : List Phoneme) : Nat → List Occurrence → Prop
  /-- The rule applies nowhere from `start` on. -/
  | done {start : Nat} : (∀ p, start ≤ p → ¬ r.AppliesAt w p) → Scan r w start []
  /-- The rule applies at `p`, first from `start` on; the scan goes on after the input span, and
  at least one position further. -/
  | found {start p i j : Nat} {rest : List Occurrence} :
      start ≤ p → r.MatchesAt w p i j → (∀ q, start ≤ q → q < p → ¬ r.AppliesAt w q) →
        Scan r w (max j (p + 1)) rest → Scan r w start (⟨p, i, j⟩ :: rest)

variable {r : Rule} {w : List Phoneme}

/-- The input of an occurrence starts where the `before` context ends. -/
theorem MatchesAt.start_eq {p i j pl : Nat} (hm : r.MatchesAt w p i j)
    (hb : r.before.matchLength w p = some pl) : i = p + pl := by
  have h := hm.before
  rw [hb, Option.some.injEq] at h
  have := hm.le_start
  omega

/-- The input of an occurrence stops where the input matched after the `before` context ends. -/
theorem MatchesAt.stop_eq {p i j pl il : Nat} (hm : r.MatchesAt w p i j)
    (hb : r.before.matchLength w p = some pl) (hin : r.input.matchLength w (p + pl) = some il) :
    j = p + pl + il := by
  have hi := hm.start_eq hb
  have h := hm.input
  rw [hi, hin, Option.some.injEq] at h
  have := hm.start_le
  omega

theorem not_appliesAt_of_before {p : Nat} (hb : r.before.matchLength w p = none) :
    ¬ r.AppliesAt w p := by
  rintro ⟨i, j, hm⟩
  rw [hm.before] at hb
  cases hb

theorem not_appliesAt_of_input {p pl : Nat} (hb : r.before.matchLength w p = some pl)
    (hin : r.input.matchLength w (p + pl) = none) : ¬ r.AppliesAt w p := by
  rintro ⟨i, j, hm⟩
  have h := hm.input
  rw [hm.start_eq hb, hin] at h
  cases h

theorem not_appliesAt_of_after {p pl il : Nat} (hb : r.before.matchLength w p = some pl)
    (hin : r.input.matchLength w (p + pl) = some il)
    (haf : r.after.matchLength w (p + pl + il) = none) : ¬ r.AppliesAt w p := by
  rintro ⟨i, j, hm⟩
  have h := hm.after
  rw [hm.stop_eq hb hin, haf] at h
  cases h

/-- A scan from the next position is a scan from this one when the rule does not apply here. -/
theorem Scan.skip {start : Nat} {ms : List Occurrence} (hno : ¬ r.AppliesAt w start)
    (h : r.Scan w (start + 1) ms) : r.Scan w start ms := by
  cases h with
  | done hnone =>
    refine .done fun p hp => ?_
    rcases Nat.eq_or_lt_of_le hp with rfl | hp
    · exact hno
    · exact hnone p hp
  | found hle hm hleast hrest =>
    refine .found (Nat.le_of_succ_le hle) hm (fun q hq hqp => ?_) hrest
    rcases Nat.eq_or_lt_of_le hq with rfl | hq
    · exact hno
    · exact hleast q hq hqp

/-- **The search is the scan.** From any position, the sites the search finds are the input
spans of the leftmost-first scan. -/
theorem scan_sitesFrom (r : Rule) (w : List Phoneme) (i : Nat) :
    ∃ ms, r.Scan w i ms ∧ r.sitesFrom w i = ms.map Occurrence.span := by
  fun_induction r.sitesFrom w i with
  | case1 i _ hb ih =>
    obtain ⟨ms, hms, heq⟩ := ih
    exact ⟨ms, hms.skip (not_appliesAt_of_before hb), heq⟩
  | case2 i _ pl hb hin ih =>
    obtain ⟨ms, hms, heq⟩ := ih
    exact ⟨ms, hms.skip (not_appliesAt_of_input hb hin), heq⟩
  | case3 i _ pl hb il hin haf ih =>
    obtain ⟨ms, hms, heq⟩ := ih
    exact ⟨ms, hms.skip (not_appliesAt_of_after hb hin haf), heq⟩
  | case4 i hi pl hb il hin al haf ih =>
    obtain ⟨ms, hms, heq⟩ := ih
    -- the rule applies here, so this is the occurrence the scan takes
    have hm : r.MatchesAt w i (i + pl) (i + pl + il) :=
      ⟨hi, Nat.le_add_right i pl, by simpa using hb, Nat.le_add_right _ il,
        by simpa using hin, by simp [haf]⟩
    refine ⟨⟨i, i + pl, i + pl + il⟩ :: ms, .found (Nat.le_refl i) hm
      (fun q hq hqi => absurd hqi (Nat.not_lt.2 hq)) hms, ?_⟩
    simp [heq, Occurrence.span]
  | case5 i hi =>
    refine ⟨[], .done fun p hp happ => ?_, rfl⟩
    obtain ⟨_, _, hm⟩ := happ
    exact hi (Nat.lt_of_le_of_lt hp hm.inside)

/-- Every occurrence of a scan is a place where the rule applies. -/
theorem Scan.matchesAt {start : Nat} {ms : List Occurrence} (h : r.Scan w start ms) :
    ∀ m ∈ ms, r.MatchesAt w m.pos m.start m.stop := by
  induction h with
  | done => simp
  | found _ hm _ _ ih =>
    intro m hmem
    rcases List.mem_cons.1 hmem with rfl | hmem
    · exact hm
    · exact ih m hmem

/-- Every occurrence of a scan lies inside the word. -/
theorem Scan.stop_le {start : Nat} {ms : List Occurrence} (h : r.Scan w start ms) :
    ∀ m ∈ ms, m.stop ≤ w.length := by
  induction h with
  | done => simp
  | @found start p i j rest _ hm _ _ ih =>
    intro m hmem
    rcases List.mem_cons.1 hmem with rfl | hmem
    · -- the `before` context and the input stay inside the word
      have hi : i ≤ w.length := by
        have := Pattern.matchLength_add_le hm.before (Nat.le_of_lt hm.inside)
        have := hm.le_start
        omega
      have := Pattern.matchLength_add_le hm.input hi
      have := hm.start_le
      show j ≤ w.length
      omega
    · exact ih m hmem

/-! ## The layout of a pass -/

/-- The phonemes of `w` from offset `s.1` up to offset `s.2`. -/
def stretch (w : List Phoneme) (s : Nat × Nat) : List Phoneme := (w.drop s.1).take (s.2 - s.1)

/-- The segments of `w` from offset `last` on, cut at the given spans, each span written as
the next of the given outputs: the unchanged stretch before each span, then its writing, and
after the last span the rest of the word. -/
def layout (w : List Phoneme) : Nat → List (Nat × Nat) → List (List Phoneme) → List Segment
  | last, (a, b) :: spans, out :: outs =>
    ⟨false, (w.drop last).take (a - last)⟩ :: ⟨true, out⟩ :: layout w b spans outs
  | last, _, _ => [⟨false, w.drop last⟩]

/-- Cutting a word at spans writes the spans in order and lays out the segments. -/
theorem cut_eq_layout (r : Rule) (w : List Phoneme) :
    ∀ (last : Nat) (spans : List (Nat × Nat)),
      r.cut w last spans = layout w last spans <$> spans.mapM fun s => r.substitute (stretch w s)
  | last, [] => by simp [cut, layout]
  | last, (a, b) :: spans => by
    simp [cut, layout, cut_eq_layout r w b spans, List.mapM_cons, stretch]

/-! ## Writing a span -/

/-- Filling a slot never fails: a feature change that leads outside the inventory only raises a
notice. -/
theorem fill_not_fails (r : Rule) (p : Phoneme) (slot : Slot) (s : List Unlisted) :
    ¬ Fails (r.fill p slot) s := by
  cases slot with
  | delete => exact not_fails_pure _ s
  | literal q => exact not_fails_pure _ s
  | change d =>
    rintro ⟨e, s', h⟩
    rcases hshift : r.inventory.shift p d with ⟨q, _ | u⟩ <;>
      simp only [fill, hshift] at h <;> cases h

/-- Writing a span fails exactly when the output is written slot by slot and has another length
than the span. -/
theorem substitute_fails_iff (r : Rule) (span : List Phoneme) (s : List Unlisted) :
    Fails (r.substitute span) s ↔ r.bySlot = true ∧ span.length ≠ r.output.length := by
  unfold substitute
  by_cases hslot : r.bySlot = true
  · by_cases hlen : span.length = r.output.length
    · -- slot by slot, no slot fails
      have hfill : ∀ c s', Fails ((fun (x : Phoneme × Slot) => r.fill x.1 x.2) c) s' ↔ False :=
        fun c s' => iff_false_intro (fill_not_fails r c.1 c.2 s')
      simp only [hslot, hlen, if_true, bind_pure_comp, fails_map]
      rw [mapM_fails_iff hfill]
      simp
    · rw [if_pos hslot, if_neg hlen]
      exact iff_of_true ⟨_, _, rfl⟩ ⟨hslot, hlen⟩
  · simp [hslot, not_fails_pure]

/-- The only failure of writing a span is the length mismatch between span and output. -/
theorem substitute_raises (r : Rule) (span : List Phoneme) :
    Raises (r.substitute span) (· = .lengthMismatch span.length r.output.length) := by
  intro s e s' h
  by_cases hfit : r.bySlot = true ∧ span.length ≠ r.output.length
  · rw [substitute, if_pos hfit.1, if_neg hfit.2] at h
    cases h
    rfl
  · exact absurd ((substitute_fails_iff r span s).1 ⟨e, s', h⟩) hfit

/-! ## The pass -/

/-- A stretch of the word inside it is as long as its span. -/
theorem length_stretch (w : List Phoneme) {a b : Nat} (hb : b ≤ w.length) :
    (stretch w (a, b)).length = b - a := by
  simp only [stretch, List.length_take, List.length_drop]
  omega

/-- **One pass of a rule is a leftmost, non-overlapping scan.** The spans a pass writes are the
input spans of the leftmost-first scan of the word, all inside the word; the pass writes them in
order and returns the layout of their writings, without empty unchanged stretches; and it fails
exactly when the output is written slot by slot and some span has another length than the
output, with the length mismatch of such a span. -/
theorem sweep_is_leftmost_scan (r : Rule) (w : List Phoneme) :
    ∃ ms : List Occurrence, r.Scan w 0 ms ∧ r.sites w = ms.map Occurrence.span ∧
      (∀ m ∈ ms, m.stop ≤ w.length) ∧
      r.sweep w = (fun outs => (layout w 0 (ms.map Occurrence.span) outs).filter
          fun s => s.changed || !s.phonemes.isEmpty) <$>
        (ms.map Occurrence.span).mapM (fun s => r.substitute (stretch w s)) ∧
      (∀ notes, Fails (r.sweep w) notes ↔
        r.bySlot = true ∧ ∃ m ∈ ms, m.stop - m.start ≠ r.output.length) ∧
      Raises (r.sweep w) fun e =>
        ∃ m ∈ ms, e = .lengthMismatch (m.stop - m.start) r.output.length := by
  obtain ⟨ms, hscan, hsites⟩ := scan_sitesFrom r w 0
  have hstop := hscan.stop_le
  have hsweep : r.sweep w = (fun outs => (layout w 0 (ms.map Occurrence.span) outs).filter
      fun s => s.changed || !s.phonemes.isEmpty) <$>
        (ms.map Occurrence.span).mapM (fun s => r.substitute (stretch w s)) := by
    rw [sweep, sites, hsites, cut_eq_layout, bind_pure_comp, Functor.map_map]
  -- a written span is as long as the occurrence's input
  have hlength : ∀ m ∈ ms, (stretch w m.span).length = m.stop - m.start :=
    fun m hm => length_stretch w (hstop m hm)
  refine ⟨ms, hscan, hsites, hstop, hsweep, fun notes => ?_, ?_⟩
  · rw [hsweep, fails_map, mapM_fails_iff fun s notes => substitute_fails_iff r (stretch w s) notes]
    constructor
    · rintro ⟨c, hc, hslot, hlen⟩
      obtain ⟨m, hm, rfl⟩ := List.mem_map.1 hc
      exact ⟨hslot, m, hm, hlength m hm ▸ hlen⟩
    · rintro ⟨hslot, m, hm, hlen⟩
      exact ⟨m.span, List.mem_map_of_mem hm, hslot, (hlength m hm).symm ▸ hlen⟩
  · rw [hsweep]
    refine raises_map (raises_mapM _ fun c hc => (substitute_raises r _).mono ?_)
    obtain ⟨m, hm, rfl⟩ := List.mem_map.1 hc
    rintro e rfl
    exact ⟨m, hm, by rw [hlength m hm]⟩

end Rule

end SoundLaw
