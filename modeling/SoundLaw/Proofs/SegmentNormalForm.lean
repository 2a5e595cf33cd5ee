import SoundLaw.Segment

/-!
# Tidy segment lists are determined by their flagged phonemes

A tidy segment list (`Segment.Tidy`: no empty segment, no two neighbours with one flag) is
read back from its flagged phonemes: its first segment is the longest run of phonemes at the
front that carry the first flag. Hence

* `eq_of_flagged_eq` — two tidy lists with the same flagged phonemes are equal;
* `merge_eq_self` — merging leaves a tidy list as it is;
* `merge_normal_form` — merging gives the one tidy list with the flagged phonemes it was given,
  and merging twice is merging once.
-/

namespace SoundLaw

namespace Segment

/-- The first segment of a tidy list is the run of flagged phonemes at the front that carry its
flag. -/
theorem takeWhile_flagged {a : Segment} {rest : List Segment} (h : Tidy (a :: rest)) :
    (flagged (a :: rest)).takeWhile (fun x => x.1 == a.changed) = a.phonemes.map (a.changed, ·) := by
  rw [flagged_cons, List.takeWhile_append_of_pos (by simp)]
  cases rest with
  | nil => simp [flagged]
  | cons b rest =>
    have h := tidy_cons_cons.1 h
    obtain ⟨p, ps, hb⟩ := List.exists_cons_of_ne_nil h.2.2.cons.1
    have hne : (b.changed == a.changed) = false := by simpa using fun e => h.2.1 e.symm
    simp [flagged_cons, hb, hne]

/-- The flagged phonemes of a non-empty tidy list start with a phoneme of the first flag. -/
theorem head?_flagged {a : Segment} {rest : List Segment} (h : Tidy (a :: rest)) :
    ((flagged (a :: rest)).head?.map Prod.fst) = some a.changed := by
  obtain ⟨p, ps, ha⟩ := List.exists_cons_of_ne_nil h.cons.1
  simp [flagged_cons, ha]

theorem flagged_ne_nil {a : Segment} {rest : List Segment} (h : Tidy (a :: rest)) :
    flagged (a :: rest) ≠ [] := by
  intro e
  have := head?_flagged h
  rw [e] at this
  simp at this

/-- Two tidy segment lists with the same flagged phonemes are equal. -/
theorem eq_of_flagged_eq : ∀ {t u : List Segment}, Tidy t → Tidy u → flagged t = flagged u → t = u
  | [], [], _, _, _ => rfl
  | [], _ :: _, _, hu, h => absurd h.symm (flagged_ne_nil hu)
  | _ :: _, [], ht, _, h => absurd h (flagged_ne_nil ht)
  | a :: t, b :: u, ht, hu, h => by
    have hflag : a.changed = b.changed := by
      have := head?_flagged ht
      rw [h, head?_flagged hu] at this
      exact (Option.some.inj this).symm
    have hrun : a.phonemes.map (a.changed, ·) = b.phonemes.map (a.changed, ·) := by
      rw [← takeWhile_flagged ht, h, hflag, takeWhile_flagged hu]
    have hph : a.phonemes = b.phonemes := by
      have := congrArg (List.map Prod.snd) hrun
      simpa [List.map_map, Function.comp_def] using this
    have hab : a = b := by
      cases a
      cases b
      simp_all
    subst hab
    rw [flagged_cons, flagged_cons] at h
    rw [eq_of_flagged_eq ht.cons.2 hu.cons.2 (List.append_cancel_left h)]

/-- Merging leaves a tidy list as it is. -/
theorem merge_eq_self {segs : List Segment} (h : Tidy segs) : merge segs = segs :=
  eq_of_flagged_eq (tidy_merge segs) h (flagged_merge segs)

/-- Merging a segment list gives a tidy list with the same flagged phonemes, the only tidy list
with them, and merging that list again changes nothing. -/
theorem merge_normal_form (segs : List Segment) :
    Tidy (merge segs) ∧ flagged (merge segs) = flagged segs ∧
      (∀ t, Tidy t → flagged t = flagged segs → t = merge segs) ∧
      merge (merge segs) = merge segs :=
  ⟨tidy_merge segs, flagged_merge segs,
    fun _ ht hf => eq_of_flagged_eq ht (tidy_merge segs) (hf.trans (flagged_merge segs).symm),
    merge_eq_self (tidy_merge segs)⟩

end Segment

end SoundLaw
