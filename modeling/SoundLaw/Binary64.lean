/-!
# Binary64 numbers

A JSON number written with a fraction or an exponent stands for an IEEE 754 binary64 value: the
one nearest to the decimal written, a tie going to the even significand, and infinity past the
largest finite value. Every finite binary64 value is a whole multiple of the smallest subnormal
`2 ^ -1074`, so a finite value is kept as its sign and its magnitude counted in that unit; all
arithmetic below is exact arithmetic on natural numbers.

* `Binary64` — finite values, the two infinities and NaN;
* `Binary64.spacing` — the distance between neighbouring magnitudes at a binary exponent;
* `Binary64.roundUnits` — the magnitude nearest to a positive fraction of units;
* `Binary64.ofDecimal` — the value nearest to a decimal `digits × 10 ^ exponent`;
* `Binary64.sameValue`, `Binary64.toInt?` — equality of values, and the integer a value equals.
-/

namespace SoundLaw

/-- A binary64 value. A finite value is `units × 2 ^ -1074`, negated when `negative`; the two
zeros differ only in sign. -/
inductive Binary64
  | finite (negative : Bool) (units : Nat)
  | infinite (negative : Bool)
  | nan
  deriving DecidableEq, Inhabited

namespace Binary64

/-- The number of units in one: `2 ^ 1074`. -/
def unitsPerOne : Nat := Nat.pow 2 1074

/-- Magnitudes of `2 ^ 1024` and above, `2 ^ 2098` units, are infinite. -/
def overflowUnits : Nat := Nat.pow 2 2098

/-- `a / c` rounded to the nearest whole number, a tie going to the even one. -/
def roundHalfEven (a c : Nat) : Nat :=
  if c < 2 * (a % c) ∨ (2 * (a % c) = c ∧ (a / c) % 2 = 1) then a / c + 1 else a / c

/-- The exponent `e` with `2 ^ e ≤ a / b < 2 ^ (e + 1)`, for `a` and `b` positive. -/
def log2Fraction (a b : Nat) : Int :=
  let e : Int := (Nat.log2 a : Int) - Nat.log2 b
  let reached : Bool := if 0 ≤ e then b * Nat.pow 2 e.toNat ≤ a else b ≤ a * Nat.pow 2 (-e).toNat
  if reached then e else e - 1

/-- The distance between neighbouring magnitudes from `2 ^ e` units up to `2 ^ (e + 1)`: one
unit below `2 ^ 53` units, where the significand has room for every unit, and doubling with each
binary exponent above. -/
def spacing (e : Int) : Nat := Nat.pow 2 (e - 52).toNat

/-- The binary64 magnitude nearest to `a / b` units (`b` positive), a tie going to the even
significand; `none` when it is too large to be finite. -/
def roundUnits (a b : Nat) : Option Nat :=
  if a = 0 then some 0
  else
    let u := spacing (log2Fraction a b)
    let m := roundHalfEven a (b * u) * u
    if m < overflowUnits then some m else none

/-- The number of decimal digits of a natural number. -/
def decimalLength (n : Nat) : Nat := (Nat.toDigits 10 n).length

/-- The binary64 value nearest to `digits × 10 ^ exponent`, negated when `negative`. A decimal
of `10 ^ 310` or more is infinite and one below `10 ^ -324` is zero without further work, so no
power of ten beyond those bounds is ever computed. -/
def ofDecimal (negative : Bool) (digits : Nat) (exponent : Int) : Binary64 :=
  if digits = 0 then .finite negative 0
  else
    let top : Int := exponent + decimalLength digits
    if 310 < top then .infinite negative
    else if top < -324 then .finite negative 0
    else
      let (a, b) : Nat × Nat :=
        if 0 ≤ exponent then (digits * Nat.pow 10 exponent.toNat * unitsPerOne, 1)
        else (digits * unitsPerOne, Nat.pow 10 (-exponent).toNat)
      match roundUnits a b with
      | some m => .finite negative m
      | none => .infinite negative

/-- Whether two values are equal as numbers: the zeros are equal, and NaN equals nothing. -/
def sameValue : Binary64 → Binary64 → Bool
  | .finite _ 0, .finite _ 0 => true
  | .finite s m, .finite t n => s == t && m == n
  | .infinite s, .infinite t => s == t
  | _, _ => false

/-- The integer a value equals, if it equals one. -/
def toInt? : Binary64 → Option Int
  | .finite negative m =>
    if m % unitsPerOne = 0 then
      some (if negative then -((m / unitsPerOne : Nat) : Int) else (m / unitsPerOne : Nat))
    else none
  | _ => none

/-- A whole multiple of the divisor needs no rounding. -/
theorem roundHalfEven_of_dvd (q c : Nat) (hc : 0 < c) : roundHalfEven (q * c) c = q := by
  simp only [roundHalfEven, Nat.mul_mod_left, Nat.mul_div_cancel _ hc]
  split <;> omega

theorem ofDecimal_zero (negative : Bool) (exponent : Int) :
    ofDecimal negative 0 exponent = .finite negative 0 := rfl

end Binary64

end SoundLaw
