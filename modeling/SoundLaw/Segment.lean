import SoundLaw.Phoneme

/-!
# Segments

While a cascade of rules runs over a word, the word is kept as a list of *segments*: runs of
phonemes flagged as changed (written by an earlier rule) or unchanged. Later rules only read and
change unchanged runs.

* `Segment` — a flag and a run of phonemes;
* `Segment.merge` — drops empty segments and joins neighbours with the same flag;
* `Segment.flatten` — the phonemes of all segments in order;
* `Segment.flagged` — the phonemes each paired with the flag of its segment, in order;
* `Segment.Tidy` — no segment is empty and no two neighbours share a flag.

Merging keeps the flagged phonemes (`flagged_merge`) and gives a tidy list (`tidy_merge`).
-/

namespace SoundLaw

/-- A run of a word, flagged with whether a rule has already written it. -/
structure Segment where
  changed : Bool
  phonemes : List Phoneme
  deriving DecidableEq, Inhabited

namespace Segment

/-- Puts a non-empty segment in front of a merged list, joining it with the first segment when
both have the same flag. -/
def push (s : Segment) : List Segment → List Segment
  | [] => [s]
  | m :: ms => if m.changed = s.changed then ⟨s.changed, s.phonemes ++ m.phonemes⟩ :: ms
    else s :: m :: ms

/-- The segments with empty ones dropped and neighbours of the same flag joined. -/
def merge : List Segment → List Segment
  | [] => []
  | s :: rest => if s.phonemes.isEmpty then merge rest else push s (merge rest)

/-- The phonemes of the segments, in order. -/
def flatten (segs : List Segment) : List Phoneme := segs.flatMap (·.phonemes)

theorem flatten_push (s : Segment) (ms : List Segment) :
    flatten (push s ms) = s.phonemes ++ flatten ms := by
  cases ms with
  | nil => simp [push, flatten]
  | cons m ms => by_cases h : m.changed = s.changed <;> simp [push, flatten, h]

theorem flatten_merge : ∀ segs : List Segment, flatten (merge segs) = flatten segs
  | [] => rfl
  | s :: rest => by
    unfold merge
    split
    · rename_i h
      rw [flatten_merge rest]
      simp [flatten, List.isEmpty_iff.1 h]
    · rw [flatten_push, flatten_merge rest]
      simp [flatten]

/-- Each phoneme of the segments paired with the flag of its segment, in order. -/
def flagged (segs : List Segment) : List (Bool × Phoneme) :=
  segs.flatMap fun s => s.phonemes.map (s.changed, ·)

theorem flagged_cons (s : Segment) (segs : List Segment) :
    flagged (s :: segs) = s.phonemes.map (s.changed, ·) ++ flagged segs := by
  simp [flagged]

theorem flagged_push (s : Segment) (ms : List Segment) : flagged (push s ms) = flagged (s :: ms) := by
  cases ms with
  | nil => rfl
  | cons m ms => by_cases h : m.changed = s.changed <;> simp [push, flagged, h]

theorem flagged_merge : ∀ segs : List Segment, flagged (merge segs) = flagged segs
  | [] => rfl
  | s :: rest => by
    unfold merge
    split
    · rename_i h
      rw [flagged_merge rest, flagged_cons, List.isEmpty_iff.1 h]
      rfl
    · rw [flagged_push, flagged_cons, flagged_cons, flagged_merge rest]

/-- A segment list is tidy when no segment is empty and no two neighbours share a flag. -/
def Tidy (segs : List Segment) : Prop :=
  (∀ s ∈ segs, s.phonemes ≠ []) ∧ ∀ p ∈ segs.zip segs.tail, p.1.changed ≠ p.2.changed

theorem tidy_nil : Tidy [] := by simp [Tidy]

theorem tidy_singleton {s : Segment} : Tidy [s] ↔ s.phonemes ≠ [] := by simp [Tidy]

theorem tidy_cons_cons {a b : Segment} {rest : List Segment} :
    Tidy (a :: b :: rest) ↔ a.phonemes ≠ [] ∧ a.changed ≠ b.changed ∧ Tidy (b :: rest) := by
  simp only [Tidy, List.mem_cons, forall_eq_or_imp, List.tail_cons, List.zip_cons_cons]
  constructor
  · intro ⟨⟨ha, hb, hr⟩, hab, hz⟩
    exact ⟨ha, hab, ⟨hb, hr⟩, hz⟩
  · intro ⟨ha, hab, ⟨hb, hr⟩, hz⟩
    exact ⟨⟨ha, hb, hr⟩, hab, hz⟩

/-- The first segment of a tidy list is not empty, and the rest is tidy. -/
theorem Tidy.cons {s : Segment} {rest : List Segment} (h : Tidy (s :: rest)) :
    s.phonemes ≠ [] ∧ Tidy rest := by
  cases rest with
  | nil => exact ⟨tidy_singleton.1 h, tidy_nil⟩
  | cons b rest =>
    have h := tidy_cons_cons.1 h
    exact ⟨h.1, h.2.2⟩

theorem tidy_push {s : Segment} {ms : List Segment} (hs : s.phonemes ≠ []) (h : Tidy ms) :
    Tidy (push s ms) := by
  cases ms with
  | nil => exact tidy_singleton.2 hs
  | cons m ms =>
    by_cases hc : m.changed = s.changed
    · simp only [push, if_pos hc]
      cases ms with
      | nil => exact tidy_singleton.2 (by simp [hs])
      | cons b rest =>
        have h := tidy_cons_cons.1 h
        exact tidy_cons_cons.2 ⟨by simp [hs], hc ▸ h.2.1, h.2.2⟩
    · simp only [push, if_neg hc]
      exact tidy_cons_cons.2 ⟨hs, fun e => hc e.symm, h⟩

theorem tidy_merge : ∀ segs : List Segment, Tidy (merge segs)
  | [] => tidy_nil
  | s :: rest => by
    unfold merge
    split
    · exact tidy_merge rest
    · rename_i h
      exact tidy_push (fun e => h (List.isEmpty_iff.2 e)) (tidy_merge rest)

end Segment

end SoundLaw
