/-!
# Ranges of code points

Character classes of the Unicode standard are kept as sorted arrays of disjoint closed ranges of
code points, and membership is decided by halving the array.

* `inRanges` — whether a code point lies in one of the ranges;
* `mem_of_inRanges` — a code point found lies in a range of the array.
-/

namespace SoundLaw.Text

/-- Whether `n` lies in one of the ranges at positions `lo` to `hi - 1` of `rs`, which are sorted
and disjoint: the middle range decides which half can hold `n`. -/
def inRangesFrom (rs : Array (Nat × Nat)) (n : Nat) (lo hi : Nat) : Bool :=
  if lo < hi then
    match rs[(lo + hi) / 2]? with
    | none => false
    | some (a, b) =>
      if n < a then inRangesFrom rs n lo ((lo + hi) / 2)
      else if b < n then inRangesFrom rs n ((lo + hi) / 2 + 1) hi
      else true
  else false
termination_by hi - lo

/-- Whether `n` lies in one of the sorted, disjoint closed ranges `rs`. -/
def inRanges (rs : Array (Nat × Nat)) (n : Nat) : Bool := inRangesFrom rs n 0 rs.size

theorem mem_of_inRangesFrom (rs : Array (Nat × Nat)) (n : Nat) (lo hi : Nat)
    (h : inRangesFrom rs n lo hi = true) : ∃ r ∈ rs, r.1 ≤ n ∧ n ≤ r.2 := by
  induction lo, hi using inRangesFrom.induct rs n with
  | case1 lo hi hlt hnone =>
    rw [inRangesFrom] at h
    simp [hlt, hnone] at h
  | case2 lo hi hlt a b hsome hlt' ih =>
    rw [inRangesFrom] at h
    simp only [hlt, hsome, hlt', if_true] at h
    exact ih h
  | case3 lo hi hlt a b hsome hge hgt ih =>
    rw [inRangesFrom] at h
    simp only [hlt, hsome, hge, hgt, if_true, if_false] at h
    exact ih h
  | case4 lo hi _ a b hsome hge hle =>
    exact ⟨(a, b), Array.mem_of_getElem? hsome, Nat.le_of_not_lt hge, Nat.le_of_not_lt hle⟩
  | case5 lo hi hnot =>
    rw [inRangesFrom] at h
    simp [hnot] at h

/-- A code point found by `inRanges` lies in one of the ranges. -/
theorem mem_of_inRanges (rs : Array (Nat × Nat)) (n : Nat) (h : inRanges rs n = true) :
    ∃ r ∈ rs, r.1 ≤ n ∧ n ≤ r.2 :=
  mem_of_inRangesFrom rs n 0 rs.size h

end SoundLaw.Text
