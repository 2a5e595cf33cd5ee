import SoundLaw.Proofs.Sweep
import SoundLaw.Proofs.SegmentNormalForm

/-!
# A cascade never touches what it has written

A cascade runs its rules in turn over a word kept as segments. Each rule rewrites unchanged
phonemes only: the phonemes an earlier rule wrote stay where they are, whole runs of them stay
together, and the unchanged phonemes left are always a subsequence of the word the cascade
started from. This module states that as a relation between flagged phoneme lists and proves it
for every step, then for every pair of states in a run.

* `Segment.KeepsWritten xs ys` — `ys` arises from `xs` by replacing each unchanged phoneme with a
  run that keeps at most that phoneme unchanged; written phonemes stay, in place, with nothing
  put between two of them. It is reflexive and transitive (`KeepsWritten.trans`);
* `KeepsWritten.unchanged_sublist` — the unchanged phonemes shrink to a subsequence;
* `KeepsWritten.written_infix` and `exists_changed_of_infix` — a run of written phonemes stays a
  contiguous run, and in a tidy list it lies inside one changed segment;
* `Rule.step_keepsWritten` — one rule, in every branch of `Rule.step`;
* `Cascade.history` — the segments kept after each rule; `trace_eq_history` ties it to the run;
* `history_keeps_written_runs` — the invariant of the whole run.
-/

namespace SoundLaw

open scoped List
open Traced

/-! ## Rewriting unchanged phonemes only -/

namespace Segment

/-- The flagged list `ys` arises from `xs` by rewriting unchanged phonemes only: each written
phoneme of `xs` stays, in place, and each unchanged phoneme is replaced by a run (possibly empty,
possibly holding new written phonemes) that keeps at most that phoneme unchanged. Nothing is put
between two neighbouring written phonemes. -/
inductive KeepsWritten : List (Bool × Phoneme) → List (Bool × Phoneme) → Prop
  | nil : KeepsWritten [] []
  | written {xs ys : List (Bool × Phoneme)} (p : Phoneme) :
      KeepsWritten xs ys → KeepsWritten ((true, p) :: xs) ((true, p) :: ys)
  | plain {xs ys : List (Bool × Phoneme)} (p : Phoneme) (q : List (Bool × Phoneme)) :
      unchanged q <+ [p] → KeepsWritten xs ys → KeepsWritten ((false, p) :: xs) (q ++ ys)

namespace KeepsWritten

theorem refl : ∀ xs : List (Bool × Phoneme), KeepsWritten xs xs
  | [] => nil
  | (true, p) :: xs => written p (refl xs)
  | (false, p) :: xs => plain p [(false, p)] (by simp) (refl xs)

theorem append {xs ys xs' ys' : List (Bool × Phoneme)} (h : KeepsWritten xs ys)
    (h' : KeepsWritten xs' ys') : KeepsWritten (xs ++ xs') (ys ++ ys') := by
  induction h with
  | nil => exact h'
  | written p _ ih => exact written p ih
  | plain p q hq _ ih =>
    rw [List.append_assoc]
    exact plain p q hq ih

theorem nil_left {ys : List (Bool × Phoneme)} (h : KeepsWritten [] ys) : ys = [] := by
  cases h
  rfl

theorem written_left {p : Phoneme} {xs zs : List (Bool × Phoneme)}
    (h : KeepsWritten ((true, p) :: xs) zs) : ∃ ys, zs = (true, p) :: ys ∧ KeepsWritten xs ys := by
  cases h with
  | written _ h => exact ⟨_, rfl, h⟩

/-- What a concatenation becomes splits into what each part becomes. -/
theorem append_left {xs xs' zs : List (Bool × Phoneme)} (h : KeepsWritten (xs ++ xs') zs) :
    ∃ ys ys', zs = ys ++ ys' ∧ KeepsWritten xs ys ∧ KeepsWritten xs' ys' := by
  induction xs generalizing zs with
  | nil => exact ⟨[], zs, rfl, nil, h⟩
  | cons x xs ih =>
    cases h with
    | written p h =>
      obtain ⟨ys, ys', rfl, hy, hy'⟩ := ih h
      exact ⟨(true, p) :: ys, ys', rfl, written p hy, hy'⟩
    | plain p q hq h =>
      obtain ⟨ys, ys', rfl, hy, hy'⟩ := ih h
      exact ⟨q ++ ys, ys', (List.append_assoc _ _ _).symm, plain p q hq hy, hy'⟩

/-- The unchanged phonemes after rewriting are a subsequence of those before. -/
theorem unchanged_sublist {xs ys : List (Bool × Phoneme)} (h : KeepsWritten xs ys) :
    unchanged ys <+ unchanged xs := by
  induction h with
  | nil => exact List.Sublist.slnil
  | written p _ ih => simpa using ih
  | plain p q hq _ ih =>
    simp only [unchanged_append, unchanged_plain]
    exact (hq.append ih).trans (by simp)

/-- Rewriting twice is rewriting once: a run replacing an unchanged phoneme is itself rewritten
only where it is unchanged. -/
theorem trans {xs ys zs : List (Bool × Phoneme)} (h : KeepsWritten xs ys)
    (h' : KeepsWritten ys zs) : KeepsWritten xs zs := by
  induction h generalizing zs with
  | nil => rw [nil_left h']; exact nil
  | written p _ ih =>
    obtain ⟨zs', rfl, hz⟩ := written_left h'
    exact written p (ih hz)
  | plain p q hq _ ih =>
    obtain ⟨zq, zs', rfl, hzq, hz⟩ := append_left h'
    exact plain p zq (hzq.unchanged_sublist.trans hq) (ih hz)

/-- A run of written phonemes stays a contiguous run. -/
theorem written_infix {xs ys : List (Bool × Phoneme)} {c : List Phoneme}
    (h : KeepsWritten xs ys) (hc : c.map (true, ·) <:+: xs) : c.map (true, ·) <:+: ys := by
  obtain ⟨pre, post, rfl⟩ := hc
  obtain ⟨ys₁₂, ys₃, rfl, h₁₂, -⟩ := append_left h
  obtain ⟨ys₁, ys₂, rfl, -, h₂⟩ := append_left h₁₂
  -- a written run becomes itself
  have hrun : ∀ c : List Phoneme, ∀ zs, KeepsWritten (c.map (true, ·)) zs → zs = c.map (true, ·) := by
    intro c
    induction c with
    | nil => intro zs h; exact nil_left h
    | cons p c ih =>
      intro zs h
      obtain ⟨zs', rfl, hz⟩ := written_left h
      rw [ih zs' hz]
      rfl
  rw [hrun c ys₂ h₂]
  exact ⟨ys₁, ys₃, rfl⟩

end KeepsWritten

/-- A run in which the unchanged phonemes are a subsequence of a non-empty stretch of unchanged
phonemes is a rewriting of that stretch. -/
theorem keepsWritten_plain_run :
    ∀ (ps : List Phoneme) (ys : List (Bool × Phoneme)), unchanged ys <+ ps → (ps = [] → ys = []) →
      KeepsWritten (ps.map (false, ·)) ys
  | [], ys, _, hnil => by rw [hnil rfl]; exact .nil
  | [p], ys, h, _ => by
    have := KeepsWritten.plain p ys h .nil
    simpa using this
  | p :: p' :: ps, ys, h, _ => by
    rcases List.sublist_cons_iff.1 h with hrest | ⟨k, hk, hrest⟩
    · -- `p` itself is not kept: the whole run goes to the rest
      have := KeepsWritten.plain p [] (by simp) (keepsWritten_plain_run (p' :: ps) ys hrest nofun)
      simpa using this
    · -- `p` is kept: the run up to it replaces `p`
      obtain ⟨pre, post, rfl, hpre, hpost⟩ := split_at_unchanged ys p k hk
      have := KeepsWritten.plain p (pre ++ [(false, p)]) (by simp [hpre])
        (keepsWritten_plain_run (p' :: ps) post (hpost ▸ hrest) nofun)
      simpa using this
where
  /-- A flagged list whose unchanged phonemes start with `p` splits right after that `p`. -/
  split_at_unchanged : ∀ (ys : List (Bool × Phoneme)) (p : Phoneme) (k : List Phoneme),
      unchanged ys = p :: k →
      ∃ pre post, ys = pre ++ (false, p) :: post ∧ unchanged pre = [] ∧ unchanged post = k
  | [], _, _, h => by simp at h
  | (true, q) :: ys, p, k, h => by
    obtain ⟨pre, post, rfl, hpre, hpost⟩ := split_at_unchanged ys p k (by simpa using h)
    exact ⟨(true, q) :: pre, post, rfl, by simpa using hpre, hpost⟩
  | (false, q) :: ys, p, k, h => by
    simp only [unchanged_plain, List.cons.injEq] at h
    obtain ⟨rfl, rfl⟩ := h
    exact ⟨[], ys, rfl, rfl, rfl⟩

/-- In a tidy list, a non-empty run of written phonemes lies inside one changed segment. -/
theorem exists_changed_of_infix :
    ∀ {segs : List Segment} {c : List Phoneme}, Tidy segs → c ≠ [] →
      c.map (true, ·) <:+: flagged segs → ∃ t ∈ segs, t.changed ∧ c <:+: t.phonemes
  | [], c, _, hc, h => by
    obtain ⟨x, xs, rfl⟩ := List.exists_cons_of_ne_nil hc
    simpa [flagged] using h.length_le
  | t :: rest, c, ht, hc, h => by
    have hall : ∀ v ∈ c.map (true, ·), v.1 = true := by simp
    -- a written phoneme in the run of `t` makes `t` changed
    have hflag : ∀ v, v.1 = true → v ∈ t.phonemes.map (t.changed, ·) → t.changed = true := by
      intro v hv hvt
      obtain ⟨b, -, rfl⟩ := List.mem_map.1 hvt
      exact hv
    rw [flagged_cons, List.infix_append_iff_ne_nil] at h
    rcases h with h | h | ⟨l₁, l₂, hl₁, hl₂, hl, h₁, h₂⟩
    · -- inside the run of `t`
      obtain ⟨x, xs, rfl⟩ := List.exists_cons_of_ne_nil hc
      have hx : (true, x) ∈ (x :: xs).map (true, ·) := by simp
      refine ⟨t, List.mem_cons_self, hflag _ rfl (h.subset hx), ?_⟩
      simpa [List.map_map, Function.comp_def] using h.map Prod.snd
    · -- inside the runs of the rest
      obtain ⟨u, hu, huc, hcu⟩ := exists_changed_of_infix ht.cons.2 hc h
      exact ⟨u, List.mem_cons_of_mem t hu, huc, hcu⟩
    · -- across the end of `t`: `t` and the segment after it would both be changed
      exfalso
      obtain ⟨z, zs, rfl⟩ := List.exists_cons_of_ne_nil hl₁
      obtain ⟨y, ys, rfl⟩ := List.exists_cons_of_ne_nil hl₂
      have htc : t.changed = true := hflag z (hall z (by simp [hl])) (h₁.subset (by simp))
      cases rest with
      | nil => simpa [flagged] using h₂.length_le
      | cons t' rest =>
        obtain ⟨-, hne, htidy⟩ := tidy_cons_cons.1 ht
        obtain ⟨r, hr⟩ := h₂
        have hhead := head?_flagged htidy
        rw [← hr] at hhead
        have ht'c : t'.changed = true := by
          simp only [List.cons_append, List.head?_cons, Option.map_some, Option.some.injEq] at hhead
          rw [← hhead]
          exact hall y (by simp [hl])
        exact hne (htc.trans ht'c.symm)

theorem flagged_append (segs segs' : List Segment) :
    flagged (segs ++ segs') = flagged segs ++ flagged segs' := by
  simp [flagged]

theorem flagged_unchanged_segment {s : Segment} (h : s.changed = false) :
    flagged [s] = s.phonemes.map (false, ·) := by
  simp [flagged, h]

/-- The run of a segment stands, contiguous, in the flagged phonemes of any list holding it. -/
theorem run_infix_flagged {s : Segment} {segs : List Segment} (h : s ∈ segs) :
    s.phonemes.map (s.changed, ·) <:+: flagged segs := by
  induction segs with
  | nil => cases h
  | cons t segs ih =>
    rw [flagged_cons]
    rcases List.mem_cons.1 h with rfl | h
    · exact List.infix_append_left
    · exact List.infix_append_of_infix_right (ih h)

end Segment

/-! ## One rule -/

namespace Rule

open Segment

/-- A pass over an unchanged stretch rewrites that stretch. -/
theorem sweep_keepsWritten (r : Rule) (u : List Phoneme) :
    Ensures (r.sweep u) fun segs => KeepsWritten (u.map (false, ·)) (flagged segs) := by
  by_cases hu : u = []
  · subst hu
    rw [sweep_nil]
    exact ensures_pure .nil
  · exact (kept_sweep_sublist r u).mono fun segs h =>
      keepsWritten_plain_run u _ h fun e => absurd e hu

/-- A pass over an unchanged segment rewrites that segment. -/
theorem sweep_segment_keepsWritten (r : Rule) {s : Segment} (hs : s.changed = false) :
    Ensures (r.sweep s.phonemes) fun segs => KeepsWritten (flagged [s]) (flagged segs) := by
  rw [flagged_unchanged_segment hs]
  exact sweep_keepsWritten r s.phonemes

/-- A rule applied to every unchanged segment rewrites each of them and keeps the rest. -/
theorem stepEach_keepsWritten (r : Rule) :
    ∀ segs : List Segment,
      Ensures (r.stepEach segs) fun out => KeepsWritten (flagged segs) (flagged out)
  | [] => ensures_pure .nil
  | s :: rest => by
    -- what follows the segment is rewritten by the same rule, segment by segment
    have hthen : ∀ here, KeepsWritten (flagged [s]) (flagged here) →
        Ensures (do let there ← r.stepEach rest; pure (here ++ there))
          fun out => KeepsWritten (flagged (s :: rest)) (flagged out) := by
      intro here hhere
      refine ensures_bind (stepEach_keepsWritten r rest) fun there hthere => ensures_pure ?_
      rw [← List.singleton_append, flagged_append, flagged_append]
      exact hhere.append hthere
    unfold stepEach
    cases hs : s.changed
    · simp only [Bool.false_eq_true, if_false]
      exact ensures_bind (sweep_segment_keepsWritten r hs) hthen
    · simp only [if_true]
      exact ensures_bind (ensures_pure (.refl _)) hthen

/-- One rule rewrites unchanged phonemes only, in every branch: the rule anchored at both ends on
a split word, the word-final and word-initial rules on the last and first segment, and any other
rule on every unchanged segment. -/
theorem step_keepsWritten (r : Rule) (segs : List Segment) :
    Ensures (r.step segs) fun out => KeepsWritten (flagged segs) (flagged out) := by
  unfold step
  split
  · -- anchored at both ends on a word already split: the rule is skipped
    exact ensures_pure (.refl _)
  split
  · -- word-final: only an unchanged last segment is swept
    split
    · rename_i last hlast
      obtain ⟨init, rfl⟩ := List.getLast?_eq_some_iff.1 hlast
      split
      · exact ensures_pure (.refl _)
      · rename_i hc
        refine ensures_bind (sweep_segment_keepsWritten r (Bool.eq_false_iff.2 hc))
          fun swept h => ensures_pure ?_
        rw [List.dropLast_concat, flagged_append, flagged_append]
        exact (KeepsWritten.refl _).append h
    · exact ensures_pure (.refl _)
  split
  · -- word-initial: only an unchanged first segment is swept
    split
    · rename_i first rest
      split
      · exact ensures_pure (.refl _)
      · rename_i hc
        refine ensures_bind (sweep_segment_keepsWritten r (Bool.eq_false_iff.2 hc))
          fun swept h => ensures_pure ?_
        rw [← List.singleton_append, flagged_append, flagged_append]
        exact h.append (KeepsWritten.refl _)
    · exact ensures_pure (.refl _)
  · exact stepEach_keepsWritten r segs

end Rule

/-! ## A whole run -/

namespace Cascade

open Segment

/-- The segments kept after each rule in turn, each merged, from the given ones. -/
def historyFrom : List Rule → List Segment → Traced (List (List Segment))
  | [], _ => pure []
  | r :: rs, segs => do
    let next ← r.step segs
    let later ← historyFrom rs (Segment.merge next)
    pure (Segment.merge next :: later)

/-- The segments of a word kept after each rule of a cascade, in order. -/
def history (c : Cascade) (w : List Phoneme) : Traced (List (List Segment)) :=
  historyFrom c.rules [⟨false, w⟩]

/-- The run keeps the last list of the history, or the segments it started from when there is
no rule. -/
theorem traceFrom_eq_historyFrom (rs : List Rule) (segs : List Segment) :
    traceFrom rs segs = (fun hs => hs.getLast?.getD segs) <$> historyFrom rs segs := by
  induction rs generalizing segs with
  | nil => simp [traceFrom, historyFrom]
  | cons r rs ih => simp [traceFrom, historyFrom, ih, List.getLast?_cons]

/-- Along a run every kept list is tidy, and each is a rewriting of every list before it and of
the segments the run started from. -/
theorem historyFrom_keepsWritten (rs : List Rule) (segs : List Segment) :
    Ensures (historyFrom rs segs) fun hs => hs.length = rs.length ∧ (∀ S ∈ hs, Tidy S) ∧
      (segs :: hs).Pairwise fun S T => KeepsWritten (flagged S) (flagged T) := by
  induction rs generalizing segs with
  | nil => exact ensures_pure ⟨rfl, by simp, List.pairwise_singleton _ _⟩
  | cons r rs ih =>
    refine ensures_bind (Rule.step_keepsWritten r segs) fun next hnext => ?_
    refine ensures_bind (ih (merge next)) fun later ⟨hlen, htidy, hpair⟩ => ensures_pure ?_
    -- the first kept list rewrites `segs`, and every later one rewrites the first
    have hfirst : KeepsWritten (flagged segs) (flagged (merge next)) := by
      rwa [flagged_merge]
    rw [List.pairwise_cons] at hpair
    refine ⟨by simp [hlen], ?_, ?_⟩
    · intro S hS
      rcases List.mem_cons.1 hS with rfl | hS
      · exact tidy_merge next
      · exact htidy S hS
    · refine List.pairwise_cons.2 ⟨?_, List.pairwise_cons.2 hpair⟩
      intro T hT
      rcases List.mem_cons.1 hT with rfl | hT
      · exact hfirst
      · exact hfirst.trans (hpair.1 T hT)

/-- **A cascade never touches what it has written.** Run over a word `w`, a cascade keeps after
each rule a list of segments (`history`), the last of which is what the run returns. Each kept
list is tidy, its unchanged phonemes form a subsequence of `w`, and each is a rewriting of every
earlier one: written phonemes stay in place and are never rewritten, and every changed segment
reappears whole inside one changed segment of every later list. -/
theorem history_keeps_written_runs (c : Cascade) (w : List Phoneme) :
    c.trace w = (fun hs => hs.getLast?.getD [⟨false, w⟩]) <$> c.history w ∧
    c.run w = (fun hs => flatten (hs.getLast?.getD [⟨false, w⟩])) <$> c.history w ∧
    Ensures (c.history w) fun hs => hs.length = c.rules.length ∧
      (∀ S ∈ hs, Tidy S ∧ kept S <+ w) ∧
      hs.Pairwise fun S T => KeepsWritten (flagged S) (flagged T) ∧
        ∀ s ∈ S, s.changed → ∃ t ∈ T, t.changed ∧ s.phonemes <:+: t.phonemes := by
  have htrace : c.trace w = (fun hs => hs.getLast?.getD [⟨false, w⟩]) <$> c.history w :=
    traceFrom_eq_historyFrom c.rules _
  refine ⟨htrace, ?_, ?_⟩
  · simp [run, htrace, Functor.map_map]
  · refine (historyFrom_keepsWritten c.rules _).mono fun hs ⟨hlen, htidy, hpair⟩ => ?_
    rw [List.pairwise_cons] at hpair
    obtain ⟨hstart, hpair⟩ := hpair
    refine ⟨hlen, fun S hS => ⟨htidy S hS, ?_⟩, ?_⟩
    · -- the unchanged phonemes of the word are the word
      have := (hstart S hS).unchanged_sublist
      rwa [flagged_unchanged_segment rfl, unchanged_map_plain] at this
    · refine hpair.imp_of_mem fun {S T} hS hT hST => ⟨hST, fun s hs hsc => ?_⟩
      have hrun : s.phonemes.map (true, ·) <:+: flagged S := hsc ▸ run_infix_flagged hs
      have hne : s.phonemes ≠ [] := (htidy S hS).1 s hs
      exact exists_changed_of_infix (htidy T hT) hne (hST.written_infix hrun)

end Cascade

end SoundLaw
