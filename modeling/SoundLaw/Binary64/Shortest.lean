import SoundLaw.Binary64

/-!
# Shortest decimal text of binary64 values

A finite binary64 value is written with the fewest significant decimal digits that read back as
that same value; when two decimals of that length read back, the one nearer to the value is
written, and of two equally near the one with an even last digit. For each length from one digit
up, only the two decimals of that length next to the value can read back, so two candidates per
length decide it.

The text is positional for values from `1e-4` up to below `1e16`, always with a fraction digit
(`1.0`, `0.0001`, `123456789.12345679`); other values are scientific, with one digit before the
point and a signed exponent of at least two digits (`1e+16`, `5e-324`, `1.5e-05`). The zeros are
`0.0` and `-0.0`, the infinities `inf` and `-inf`, and NaN is `nan`.

* `Binary64.Interval` — the quarter-units between which the decimals read back as a magnitude;
* `Binary64.shortest` — the shortest decimal of a positive magnitude;
* `Binary64.toText` — the text of a value.
-/

namespace SoundLaw.Binary64

/-- `d × 10 ^ s` compared with `y` quarter-units, that is `y × 2 ^ -1076`. -/
def compareDecimal (d : Nat) (s : Int) (y : Nat) : Ordering :=
  if 0 ≤ s then compare (d * Nat.pow 10 s.toNat * Nat.pow 2 1076) y
  else compare (d * Nat.pow 2 1076) (y * Nat.pow 10 (-s).toNat)

/-- The decimals that read back as a magnitude lie above `low` and below `high`, in
quarter-units; the ends themselves read back when `closed`. -/
structure Interval where
  low : Nat
  high : Nat
  closed : Bool

/-- The interval of a positive magnitude `m`: halfway to each neighbour, the neighbour below
being nearer when `m` is a power of two past the subnormals; the ends read back when the
significand is even, as ties go to it. -/
def interval (m : Nat) : Interval :=
  let e := Nat.log2 m
  let u := spacing e
  let below := if 53 ≤ e ∧ m = Nat.pow 2 e then u / 2 else u
  ⟨4 * m - 2 * below, 4 * m + 2 * u, (m / u) % 2 == 0⟩

/-- Whether `d × 10 ^ s` reads back, lying in the interval. -/
def Interval.holds (i : Interval) (d : Nat) (s : Int) : Bool :=
  let low := compareDecimal d s i.low
  let high := compareDecimal d s i.high
  (low == .gt || (i.closed && low == .eq)) && (high == .lt || (i.closed && high == .eq))

/-- The decimal exponent `E` of a positive magnitude `m`: `10 ^ E ≤ m × 2 ^ -1074 < 10 ^ (E + 1)`.
The estimate from the binary exponent is off by at most one either way. -/
def decimalExponent (m : Nat) : Int :=
  let guess : Int := ((Nat.log2 m : Int) - 1074) * 30103 / 100000
  if compareDecimal 1 (guess + 1) (4 * m) != .gt then guess + 1
  else if compareDecimal 1 guess (4 * m) == .gt then guess - 1
  else guess

/-- The significand of the decimal of `s`'s grid that reads back as `m`, if one of the two next
to `m` does: both reading back, the nearer, or on a tie the even one. -/
def pick (m : Nat) (s : Int) : Option Nat :=
  let i := interval m
  let below : Nat :=
    if 0 ≤ s then m / (Nat.pow 10 s.toNat * unitsPerOne)
    else m * Nat.pow 10 (-s).toNat / unitsPerOne
  match i.holds below s, i.holds (below + 1) s with
  | true, true =>
    some (match compareDecimal (2 * below + 1) s (8 * m) with
      | .lt => below + 1
      | .gt => below
      | .eq => if below % 2 = 0 then below else below + 1)
  | true, false => some below
  | false, true => some (below + 1)
  | false, false => none

/-- `d × 10 ^ s` with the trailing zeros of `d` moved into the exponent, `fuel` of them at most. -/
def dropTens : Nat → Nat → Int → Nat × Int
  | 0, d, s => (d, s)
  | fuel + 1, d, s => if d ≠ 0 ∧ d % 10 = 0 then dropTens fuel (d / 10) (s + 1) else (d, s)

/-- The shortest decimal `d × 10 ^ s` that reads back as the positive magnitude `m`, without
trailing zeros in `d`. Seventeen significant digits always suffice. -/
def shortest (m : Nat) : Nat × Int :=
  let e := decimalExponent m
  let found := (List.range' 1 17).findSome? fun (n : Nat) =>
    (pick m (e - n + 1)).map fun d => (d, e - n + 1)
  let (d, s) := found.getD (m, -1074)
  dropTens 20 d s

/-- `n` zeros. -/
def zeros (n : Nat) : String := String.ofList (List.replicate n '0')

/-- The text of a positive magnitude. -/
def showMagnitude (m : Nat) : String :=
  let (d, s) := shortest m
  let ds := Nat.toDigits 10 d
  let point : Int := ds.length + s
  if -4 < point ∧ point ≤ 16 then
    if point ≤ 0 then "0." ++ zeros (-point).toNat ++ String.ofList ds
    else if ds.length ≤ point.toNat then String.ofList ds ++ zeros (point.toNat - ds.length) ++ ".0"
    else String.ofList (ds.take point.toNat) ++ "." ++ String.ofList (ds.drop point.toNat)
  else
    let mantissa := match ds with
      | c :: rest@(_ :: _) => String.ofList (c :: '.' :: rest)
      | _ => String.ofList ds
    let x := point - 1
    let expDigits := Nat.toDigits 10 x.natAbs
    mantissa ++ "e" ++ (if x < 0 then "-" else "+") ++ zeros (2 - expDigits.length) ++
      String.ofList expDigits

/-- The text of a value. -/
def toText : Binary64 → String
  | .nan => "nan"
  | .infinite negative => if negative then "-inf" else "inf"
  | .finite negative 0 => if negative then "-0.0" else "0.0"
  | .finite negative m => (if negative then "-" else "") ++ showMagnitude m

end SoundLaw.Binary64
