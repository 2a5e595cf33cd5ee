/-!
# Unpaired surrogate halves

JSON text may escape half of a UTF-16 surrogate pair with no partner (`"\ud800"`). Such a half is
no character, yet a text read from JSON keeps it, and quoting shows it by its escape. The library
keeps the half `u` (`0xD800 ≤ u ≤ 0xDFFF`) as the character `0x90000 + u`, which lies in plane 9,
a plane Unicode leaves unassigned; quoting and JSON writing turn it back into the escape of `u`.

* `ofHalf` — the character that keeps a half;
* `half?` — the half a character keeps, if it keeps one;
* `half?_ofHalf` — reading back the half kept.
-/

namespace SoundLaw.Text

/-- Where the kept halves start: the half `u` is kept as `halfBase + u`. -/
def halfBase : Nat := 0x90000

/-- Whether a code point is a surrogate half. -/
def isHalf (u : Nat) : Bool := 0xD800 ≤ u && u ≤ 0xDFFF

/-- The character that keeps the surrogate half `u`. -/
def ofHalf (u : Nat) : Char := Char.ofNat (halfBase + u)

/-- The surrogate half a character keeps, if it keeps one. -/
def half? (c : Char) : Option Nat :=
  if halfBase + 0xD800 ≤ c.toNat ∧ c.toNat ≤ halfBase + 0xDFFF then some (c.toNat - halfBase)
  else none

/-- A character made from a valid code point has that code point. -/
theorem toNat_ofNat_of_valid (n : Nat) (hv : n.isValidChar) : (Char.ofNat n).toNat = n := by
  delta Char.ofNat
  rw [dif_pos hv]
  rfl

theorem toNat_ofHalf (u : Nat) (h : u ≤ 0xDFFF) : (ofHalf u).toNat = halfBase + u :=
  toNat_ofNat_of_valid _ (Or.inr ⟨by unfold halfBase; omega, by unfold halfBase; omega⟩)

/-- A kept half reads back as itself. -/
theorem half?_ofHalf (u : Nat) (h : isHalf u = true) : half? (ofHalf u) = some u := by
  simp only [isHalf, Bool.and_eq_true, decide_eq_true_eq] at h
  unfold half?
  rw [toNat_ofHalf u h.2, if_pos (by omega)]
  simp

end SoundLaw.Text
