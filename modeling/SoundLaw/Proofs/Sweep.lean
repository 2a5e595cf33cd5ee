import SoundLaw.Cascade

/-!
# What one pass of a rule leaves unchanged

A pass of a rule (`Rule.sweep`) cuts a word at its sites and writes each site anew. The phonemes
it leaves unchanged are the stretches between the sites, so they are the word with the sites taken
out: read in order, they form a subsequence of the word. This module proves that, together with
the bookkeeping the proofs about whole cascades need.

* `Traced.Ensures` — every result a traced computation returns, from any notices, has a property;
  `ensures_pure`, `ensures_bind` and `ensures_throw` follow the computation;
* `Rule.Ordered` — sites in order, none reaching back before the end of the one before;
  `ordered_sitesFrom` shows the site search finds them so;
* `Segment.unchanged`, `Segment.kept` — the unchanged phonemes of a flagged list or segment list;
* `kept_sweep_sublist` — the unchanged phonemes after a pass form a subsequence of the word;
  `sweep_nil` — a pass over the empty word writes nothing.
-/

namespace SoundLaw

open scoped List

/-! ## Results of traced computations -/

namespace Traced

variable {α β : Type}

/-- Every result `x` returns, whatever notices were raised before it, satisfies `P`. A failure
satisfies anything. -/
def Ensures (x : Traced α) (P : α → Prop) : Prop :=
  ∀ notes a notes', (ExceptT.run x).run notes = (.ok a, notes') → P a

@[simp] theorem run_pure (a : α) (s : List Unlisted) :
    (ExceptT.run (pure a : Traced α)).run s = (.ok a, s) := rfl

theorem run_bind (x : Traced α) (f : α → Traced β) (s : List Unlisted) :
    (ExceptT.run (x >>= f)).run s = match (ExceptT.run x).run s with
      | (.ok a, s') => (ExceptT.run (f a)).run s'
      | (.error e, s') => (.error e, s') := by
  simp only [ExceptT.run_bind, StateT.run_bind]
  rcases (ExceptT.run x).run s with ⟨r, s'⟩
  cases r <;> rfl

theorem ensures_pure {a : α} {P : α → Prop} (h : P a) : Ensures (pure a) P := by
  intro s b s' e
  rw [run_pure] at e
  cases e
  exact h

/-- A bound computation ensures `P` when the first part ensures `Q` and the rest ensures `P` from
any result satisfying `Q`. -/
theorem ensures_bind {x : Traced α} {f : α → Traced β} {Q : α → Prop} {P : β → Prop}
    (hx : Ensures x Q) (hf : ∀ a, Q a → Ensures (f a) P) : Ensures (x >>= f) P := by
  intro s b s' e
  rw [run_bind] at e
  rcases h : (ExceptT.run x).run s with ⟨r, s₁⟩
  rw [h] at e
  cases r with
  | error => cases e
  | ok a => exact hf a (hx s a s₁ h) s₁ b s' e

theorem ensures_throw {e : SoundError} {P : α → Prop} : Ensures (throw e) P := by
  intro s b s' h
  cases h

theorem Ensures.mono {x : Traced α} {P Q : α → Prop} (h : Ensures x P) (hPQ : ∀ a, P a → Q a) :
    Ensures x Q := fun s a s' e => hPQ a (h s a s' e)

end Traced

open Traced

/-! ## Sites come in order -/

namespace Rule

/-- Sites in order from offset `last`: each starts no earlier than the previous one ends and ends
no earlier than it starts. -/
def Ordered : Nat → List (Nat × Nat) → Prop
  | _, [] => True
  | last, (a, b) :: rest => last ≤ a ∧ a ≤ b ∧ Ordered b rest

theorem Ordered.anti {l l' : Nat} {sites : List (Nat × Nat)} (h : l' ≤ l) (hs : Ordered l sites) :
    Ordered l' sites := by
  cases sites with
  | nil => trivial
  | cons s rest => exact ⟨Nat.le_trans h hs.1, hs.2⟩

/-- The search finds its sites in order: a site starts where its `before` context ends, at or
after the search offset, and the search goes on from its end or further. -/
theorem ordered_sitesFrom (r : Rule) (w : List Phoneme) (i : Nat) :
    Ordered i (r.sitesFrom w i) := by
  fun_induction r.sitesFrom w i with
  | case1 i _ _ ih => exact ih.anti (Nat.le_succ i)
  | case2 i _ _ _ _ ih => exact ih.anti (Nat.le_succ i)
  | case3 i _ _ _ _ _ _ ih => exact ih.anti (Nat.le_succ i)
  | case4 i _ pl _ il _ _ _ ih =>
    exact ⟨Nat.le_add_right i pl, Nat.le_add_right _ il, ih.anti (Nat.le_max_left _ _)⟩
  | case5 => trivial

end Rule

/-! ## Unchanged phonemes -/

namespace Segment

/-- The unchanged phonemes of a flagged list, in order. -/
def unchanged (xs : List (Bool × Phoneme)) : List Phoneme :=
  xs.filterMap fun x => if x.1 then none else some x.2

/-- The unchanged phonemes of a segment list, in order. -/
def kept (segs : List Segment) : List Phoneme := unchanged (flagged segs)

@[simp] theorem unchanged_nil : unchanged [] = [] := rfl

@[simp] theorem unchanged_append (xs ys : List (Bool × Phoneme)) :
    unchanged (xs ++ ys) = unchanged xs ++ unchanged ys := by
  simp [unchanged]

@[simp] theorem unchanged_written (p : Phoneme) (xs : List (Bool × Phoneme)) :
    unchanged ((true, p) :: xs) = unchanged xs := by
  simp [unchanged]

@[simp] theorem unchanged_plain (p : Phoneme) (xs : List (Bool × Phoneme)) :
    unchanged ((false, p) :: xs) = p :: unchanged xs := by
  simp [unchanged]

@[simp] theorem unchanged_map_written (ps : List Phoneme) : unchanged (ps.map (true, ·)) = [] := by
  induction ps with
  | nil => rfl
  | cons p ps ih => simpa using ih

@[simp] theorem unchanged_map_plain (ps : List Phoneme) : unchanged (ps.map (false, ·)) = ps := by
  induction ps with
  | nil => rfl
  | cons p ps ih => simpa using ih

@[simp] theorem kept_nil : kept [] = [] := rfl

@[simp] theorem kept_cons (s : Segment) (segs : List Segment) :
    kept (s :: segs) = (if s.changed then [] else s.phonemes) ++ kept segs := by
  cases h : s.changed <;> simp [kept, flagged_cons, h]

/-- Dropping empty unchanged segments keeps the unchanged phonemes. -/
theorem kept_filter_nonempty (segs : List Segment) :
    kept (segs.filter fun s => s.changed || !s.phonemes.isEmpty) = kept segs := by
  induction segs with
  | nil => rfl
  | cons s segs ih =>
    by_cases hc : s.changed
    · simp [hc, ih]
    · by_cases he : s.phonemes = [] <;> simp [hc, he, ih]

end Segment

/-! ## The unchanged phonemes of a pass -/

namespace Rule

open Segment

/-- Cutting a word from `last` at ordered sites leaves unchanged a subsequence of what follows
`last`: the stretches between the sites. -/
theorem kept_cut_sublist (r : Rule) (w : List Phoneme) :
    ∀ (last : Nat) (sites : List (Nat × Nat)), Ordered last sites →
      Ensures (r.cut w last sites) fun segs => kept segs <+ w.drop last
  | last, [], _ => ensures_pure (by simp)
  | last, (a, b) :: rest, ⟨hla, hab, hrest⟩ => by
    refine ensures_bind (Q := fun _ => True) (fun _ _ _ _ => trivial) fun written _ => ?_
    refine ensures_bind (kept_cut_sublist r w b rest hrest) fun tail htail => ensures_pure ?_
    -- the stretch before the site, then what follows the site's end
    have hsplit : w.drop last = (w.drop last).take (a - last) ++ w.drop a := by
      conv => lhs; rw [← List.take_append_drop (a - last) (w.drop last)]
      rw [List.drop_drop, Nat.add_sub_cancel' hla]
    have hkept : kept (⟨false, (w.drop last).take (a - last)⟩ :: ⟨true, written⟩ :: tail) =
        (w.drop last).take (a - last) ++ kept tail := by
      simp
    rw [hkept]
    conv => rhs; rw [hsplit]
    exact (htail.trans (List.drop_sublist_drop_left w hab)).append_left _

/-- The unchanged phonemes after a pass of a rule over a word form a subsequence of the word. -/
theorem kept_sweep_sublist (r : Rule) (w : List Phoneme) :
    Ensures (r.sweep w) fun segs => kept segs <+ w := by
  refine ensures_bind (kept_cut_sublist r w 0 (r.sites w) (ordered_sitesFrom r w 0)) ?_
  intro segs hsegs
  exact ensures_pure (by simpa [kept_filter_nonempty] using hsegs)

/-- A pass over the empty word finds no site and writes nothing. -/
theorem sweep_nil (r : Rule) : r.sweep [] = pure [] := by
  have hsites : r.sites [] = [] := by
    simp [sites, sitesFrom]
  simp [sweep, hsites, cut]

end Rule

end SoundLaw
