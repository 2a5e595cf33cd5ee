import Mathlib
import SoundLaw.Pattern.Parser
import SoundLaw.Exchange.Encode

/-!
# Counts written in subscript digits read back

`Notation.toSubscript` writes a count with the ten subscript glyphs of a notation, one glyph for
each decimal digit; the reader of repetition marks takes a run of such glyphs (`Pattern.digitRun`)
and reads the decimal count back from their digit values (`Pattern.countOf`). For ten distinct
glyphs:

* `digitOf_glyph` — the glyph written for a digit reads back as that digit;
* `digitRun_of_all_digits` — the reader's scan over a text of glyphs takes all of it;
* `countOf_glyphs` — the count read from the glyphs written for `m` is `m`;
* `mem_digits_of_mem_glyphs` — the spelling of a count holds subscript glyphs only;
* `toSubscript_eq_ok` — a count from 0 to below `10 ^ 4300` is written, glyph by glyph;
* **`subscript_reads_back`** — every such count is written in glyphs only, as a run the reader
  takes whole and reads back as the count, while a negative count and a count of more than
  4300 digits are refused with a value error;
* `subscript_refuses_long_count` — `10 ^ 4300`, of 4301 digits, has no subscript spelling.
-/

namespace SoundLaw

namespace Notation

variable {n : Notation}

/-- A decimal digit character of a count, as a digit value below ten. -/
theorem digit_value_lt_ten {m : Nat} {d : Char} (hd : d ∈ Nat.toDigits 10 m) :
    d.toNat - '0'.toNat < 10 := by
  have hdigit := Nat.isDigit_of_mem_toDigits (by decide) (by decide) hd
  simp only [Char.isDigit, Bool.and_eq_true, decide_eq_true_eq] at hdigit
  obtain ⟨hlo, hhi⟩ := hdigit
  have hlo' : '0'.toNat ≤ d.toNat := hlo
  have hhi' : d.toNat ≤ '9'.toNat := hhi
  simp only [Char.reduceToNat] at hlo' hhi' ⊢
  omega

/-- The glyph at position `j` of ten distinct glyphs reads back as the digit `j`. -/
theorem digitOf_glyph (hd : tenDistinct n.digits.toList = true) {j : Nat} (hj : j < 10)
    (c : Char) : n.digitOf (n.digits.toList.getD j c) = some j := by
  simp only [tenDistinct, Bool.and_eq_true, beq_iff_eq, decide_eq_true_eq] at hd
  obtain ⟨hlen, hnodup⟩ := hd
  have hj' : j < n.digits.toList.length := by omega
  rw [List.getD_eq_getElem _ _ hj', digitOf, List.idxOf?_eq_some_iff]
  refine ⟨hj', rfl, fun i hi heq => ?_⟩
  -- an earlier glyph equal to this one would repeat a glyph
  have := hnodup.getElem_inj_iff.1 heq
  omega

/-- Every character of the subscript spelling of a count is one of the subscript glyphs. -/
theorem mem_digits_of_mem_glyphs (hd : tenDistinct n.digits.toList = true) {m : Nat} {c : Char}
    (hc : c ∈ (String.ofList ((Nat.toDigits 10 m).map fun d =>
      n.digits.toList.getD (d.toNat - '0'.toNat) d)).toList) :
    c ∈ n.digits.toList := by
  simp only [tenDistinct, Bool.and_eq_true, beq_iff_eq, decide_eq_true_eq] at hd
  rw [String.toList_ofList] at hc
  obtain ⟨d, hdm, rfl⟩ := List.mem_map.1 hc
  have hj := digit_value_lt_ten hdm
  rw [List.getD_eq_getElem _ _ (by omega)]
  exact List.getElem_mem _

/-- A count below `10 ^ 4300` has at most 4300 decimal digits. -/
theorem length_toDigits_le_digitLimit {k : Int} (hk : 0 ≤ k) (hlt : k < 10 ^ digitLimit) :
    (Nat.toDigits 10 k.toNat).length ≤ digitLimit := by
  rw [Nat.length_toDigits_le_iff (by decide) (by decide)]
  have : ((k.toNat : Nat) : Int) < ((10 ^ digitLimit : Nat) : Int) := by
    rw [Int.toNat_of_nonneg hk]
    exact_mod_cast hlt
  exact_mod_cast this

/-- A count from 0 to below `10 ^ 4300` is written glyph by glyph, one glyph per decimal digit. -/
theorem toSubscript_eq_ok {k : Int} (hk : 0 ≤ k) (hlt : k < 10 ^ digitLimit) :
    n.toSubscript k = .ok (String.ofList ((Nat.toDigits 10 k.toNat).map fun d =>
      n.digits.toList.getD (d.toNat - '0'.toNat) d)) := by
  have habs : k.natAbs = k.toNat := by omega
  rw [toSubscript, habs, if_neg (Nat.not_lt.2 (length_toDigits_le_digitLimit hk hlt)),
    if_neg (Int.not_lt.2 hk)]

/-- A count whose decimal writing has more than 4300 digits has no subscript spelling. -/
theorem toSubscript_too_long {k : Int} (hk : 10 ^ digitLimit ≤ k) :
    n.toSubscript k = .error .countTooLarge := by
  have hlong : digitLimit < (Nat.toDigits 10 k.natAbs).length := by
    rw [← Nat.not_le, Nat.length_toDigits_le_iff (by decide) (by decide), Nat.not_lt]
    have : ((10 ^ digitLimit : Nat) : Int) ≤ ((k.natAbs : Nat) : Int) := by
      rw [Int.natAbs_of_nonneg (le_trans (by positivity) hk)]
      exact_mod_cast hk
    exact_mod_cast this
  rw [toSubscript, if_pos hlong]

/-- A negative count has no subscript spelling. -/
theorem toSubscript_negative {k : Int} (hk : k < 0) :
    ∃ e, n.toSubscript k = .error e ∧ e.className = "ValueError" := by
  rw [toSubscript]
  split
  · exact ⟨_, rfl, rfl⟩
  · exact ⟨_, rfl, rfl⟩

end Notation

namespace Pattern

variable {n : Notation}

/-- Over a text of glyphs only, the reader's scan from offset `i` takes everything from `i` on,
given fuel for it. -/
theorem digitRun_of_all_digits {l : List Char} (hall : ∀ c ∈ l, (n.digitOf c).isSome) :
    ∀ {fuel i : Nat} {acc : List Char}, l.length - i ≤ fuel →
      digitRun n l.toArray fuel i acc = acc.reverse ++ l.drop i
  | 0, i, acc, h => by
    rw [digitRun, List.drop_of_length_le (by omega), List.append_nil]
  | fuel + 1, i, acc, h => by
    rw [digitRun]
    by_cases hi : i < l.length
    · -- a glyph at `i`: the scan takes it and goes on
      rw [List.getElem?_toArray, List.getElem?_eq_getElem hi]
      simp only [hall _ (List.getElem_mem hi), if_true]
      rw [digitRun_of_all_digits hall (by omega), List.reverse_cons, List.append_assoc,
        List.singleton_append, ← List.drop_eq_getElem_cons hi]
    · -- past the end: the scan stops with what it took
      rw [List.getElem?_toArray, List.getElem?_eq_none (by omega),
        List.drop_of_length_le (by omega), List.append_nil]

/-- The count read back from the glyphs written for `m` is `m`. -/
theorem countOf_glyphs (hd : Notation.tenDistinct n.digits.toList = true) (m : Nat) :
    countOf n ((Nat.toDigits 10 m).map fun d => n.digits.toList.getD (d.toNat - '0'.toNat) d) =
      m := by
  rw [countOf, List.foldl_map]
  -- each glyph reads back as its digit, so the fold reads the decimal digits of `m`
  have hstep : ∀ acc, ∀ d ∈ Nat.toDigits 10 m,
      acc * 10 + (n.digitOf (n.digits.toList.getD (d.toNat - '0'.toNat) d)).getD 0 =
        10 * acc + (d.toNat - '0'.toNat) := by
    intro acc d hmem
    rw [Notation.digitOf_glyph hd (Notation.digit_value_lt_ten hmem), Option.getD_some,
      Nat.mul_comm]
  rw [List.foldl_ext _ _ 0 hstep, ← Nat.ofDigitChars_eq_foldl, Nat.ofDigitChars_ten_toDigits]

end Pattern

namespace Notation

/-- **Counts read back from their subscript spelling.** For a notation whose subscript digits are
ten distinct glyphs, every count `k` with `0 ≤ k < 10 ^ 4300` is written as a text of subscript
glyphs only, of at most 4300 of them; the reader of repetition marks, scanning it from its first
glyph, takes the whole text, and reading the decimal count from the glyphs' digit values gives
`k`. Every other count is refused with a value error: a negative one, which has no spelling, and
one of more than 4300 decimal digits, which is too long to be written. -/
theorem subscript_reads_back (n : Notation) (hd : tenDistinct n.digits.toList = true) (k : Int) :
    (0 ≤ k → k < 10 ^ digitLimit →
      ∃ s, n.toSubscript k = .ok s ∧ (∀ c ∈ s.toList, c ∈ n.digits.toList) ∧
        s.length ≤ digitLimit ∧
        Pattern.digitRun n s.toList.toArray s.toList.toArray.size 0 [] = s.toList ∧
        Pattern.countOf n s.toList = k.toNat) ∧
    (k < 0 ∨ 10 ^ digitLimit ≤ k →
      ∃ e, n.toSubscript k = .error e ∧ e.className = "ValueError") := by
  refine ⟨fun hk hlt => ?_, fun hout => ?_⟩
  · refine ⟨_, toSubscript_eq_ok hk hlt, fun c hc => mem_digits_of_mem_glyphs hd hc, ?_, ?_, ?_⟩
    · rw [String.length_ofList, List.length_map]
      exact length_toDigits_le_digitLimit hk hlt
    · -- every character is a glyph, so the reader's scan takes them all
      rw [Pattern.digitRun_of_all_digits
        (fun c hc => List.isSome_idxOf?.2 (mem_digits_of_mem_glyphs hd hc)) (by simp)]
      simp
    · rw [String.toList_ofList]
      exact Pattern.countOf_glyphs hd k.toNat
  · rcases hout with hneg | hlong
    · exact toSubscript_negative hneg
    · exact ⟨_, toSubscript_too_long hlong, rfl⟩

/-- The default notation writes the 23-digit count `99999999999999999999999` in glyphs that the
reader takes whole and reads back as the count. -/
theorem subscript_reads_back_long_count :
    let k : Int := 99999999999999999999999
    tenDistinct ({} : Notation).digits.toList = true ∧ 0 ≤ k ∧ k < 10 ^ digitLimit ∧
      ∃ s, Notation.toSubscript {} k = .ok s ∧ (∀ c ∈ s.toList, c ∈ ({} : Notation).digits.toList) ∧
        s.length ≤ digitLimit ∧
        Pattern.digitRun {} s.toList.toArray s.toList.toArray.size 0 [] = s.toList ∧
        Pattern.countOf {} s.toList = k.toNat :=
  have hd : tenDistinct ({} : Notation).digits.toList = true := by decide
  have hlt : (99999999999999999999999 : Int) < 10 ^ digitLimit :=
    lt_of_lt_of_le (by norm_num)
      (pow_le_pow_right₀ (by norm_num) (by decide) : (10 : Int) ^ 23 ≤ 10 ^ digitLimit)
  ⟨hd, by decide, hlt, (subscript_reads_back {} hd _).1 (by decide) hlt⟩

/-- The count `10 ^ 4300` has 4301 decimal digits, one more than can be written: even the default
notation gives it no subscript spelling. -/
theorem subscript_refuses_long_count :
    Notation.toSubscript {} (10 ^ digitLimit) = .error .countTooLarge :=
  toSubscript_too_long (Int.le_refl _)

end Notation

end SoundLaw
