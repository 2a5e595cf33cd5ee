import SoundLaw.Json.Value

/-!
# Hashed sets of JSON values

The features of a phoneme description are gathered into a hashed set before they are checked,
and the check walks the set in its own order; the positions it reports follow that order, not
the order of the list. The set is an open-addressed table of `2 ^ k` slots, eight at first:

* a member's *hash* is, for a number, its value modulo the prime `p = 2 ^ 61 - 1` (a fraction
  `a / b` as `a × b⁻¹`), with the sign of the number, `-1` becoming `-2`; a truth value counts as
  `0` or `1`, and the infinities hash to `±314159`;
* a member is looked for from the slot given by the low bits of its hash (as a 64-bit word):
  each round tries that slot, and the nine after it when they exist, then the slot moves to
  `5 × slot + 1 + perturb`, where `perturb` starts as the hash and loses five low bits each round;
  the first empty slot takes the member, unless an equal member is met first;
* once three fifths of the slots are taken, the members are moved, in slot order, to a table of
  the least power of two of slots above four times their number, each to the first empty slot
  of its own sequence.

The walk lists the members in slot order. Equal numbers (`1`, `1.0`, `true`) are one member, the
first kept, and all `NaN`s are one member. Texts and `null` are members too, but their hashes are
not part of the rule: they are taken as `0`.

* `Json.hashKey` — the hash of a member;
* `Json.HashedSet`, `HashedSet.insert` — the table and adding a member;
* `Json.setOrder` — the members of a list as the set walks them.
-/

namespace SoundLaw

namespace Json

/-- The prime modulus of number hashes. -/
def hashPrime : Nat := Nat.pow 2 61 - 1

/-- A signed residue as a hash: `-1` is replaced by `-2`. -/
def signedHash (negative : Bool) (r : Nat) : Int :=
  let h : Int := if negative then -(r : Int) else r
  if h = -1 then -2 else h

/-- The hash of a member. A binary64 magnitude of `u` units is `u × 2 ^ -1074`, and
`2 ^ -1074 ≡ 2 ^ 24` modulo `p` since `2 ^ 61 ≡ 1`. -/
def hashKey : Json → Int
  | .bool b => if b then 1 else 0
  | .int n => signedHash (n < 0) (n.natAbs % hashPrime)
  | .real (.finite negative u) => signedHash negative (u * Nat.pow 2 24 % hashPrime)
  | .real (.infinite negative) => if negative then -314159 else 314159
  | _ => 0

/-- The number a member stands for, a truth value counting as `0` or `1`. -/
def numberOf? : Json → Option Binary64
  | .bool b => some (.finite false (if b then Binary64.unitsPerOne else 0))
  | .int n => some (.finite (n < 0) (n.natAbs * Binary64.unitsPerOne))
  | .real x => some x
  | _ => none

/-- Whether two values are one member of a set: numbers equal in value (all `NaN`s being one),
equal texts, or two `null`s. -/
def sameMember (a b : Json) : Bool :=
  match numberOf? a, numberOf? b with
  | some .nan, some .nan => true
  | some x, some y => x.sameValue y
  | none, none =>
    match a, b with
    | .null, .null => true
    | .str s, .str t => s == t
    | _, _ => false
  | _, _ => false

/-- The table of a hashed set: slots holding a member with its hash, or nothing. -/
structure HashedSet where
  slots : Array (Option (Int × Json))
  used : Nat

namespace HashedSet

/-- The empty set, of eight slots. -/
def empty : HashedSet := ⟨Array.replicate 8 none, 0⟩

/-- A hash as an unsigned 64-bit word. -/
def word (h : Int) : Nat := (h % (Nat.pow 2 64 : Int)).toNat

/-- The slots one round tries from slot `i` of a table with largest index `mask`: `i` and the
nine after it when they exist, else `i` alone. -/
def roundFrom (mask i : Nat) : List Nat := if i + 9 ≤ mask then List.range' i 10 else [i]

/-- The first slot, along the sequence of a hash, that is empty or holds a member `stop`
accepts, and whether it holds one; `fuel` bounds the rounds. -/
def probe (slots : Array (Option (Int × Json))) (stop : Int × Json → Bool) :
    Nat → Nat → Nat → Option (Nat × Bool)
  | 0, _, _ => none
  | fuel + 1, i, perturb =>
    let mask := slots.size - 1
    let hit := (roundFrom mask i).findSome? fun k =>
      match slots[k]? with
      | some none => some (k, false)
      | some (some entry) => if stop entry then some (k, true) else none
      | none => none
    match hit with
    | some r => some r
    | none => probe slots stop fuel ((i * 5 + 1 + perturb / 32) % slots.size) (perturb / 32)

/-- The slot a hash lands in, with whether an accepted member is already there. The hash loses
its bits after thirteen rounds, and from then on the sequence meets every slot, so the size of
the table and sixteen more rounds are enough. -/
def find (slots : Array (Option (Int × Json))) (h : Int) (stop : Int × Json → Bool) :
    Option (Nat × Bool) :=
  probe slots stop (slots.size + 16) (word h % slots.size) (word h)

/-- A member put in the first empty slot of its sequence. -/
def place (slots : Array (Option (Int × Json))) (entry : Int × Json) :
    Array (Option (Int × Json)) :=
  match find slots entry.1 fun _ => false with
  | some (k, _) => slots.set! k (some entry)
  | none => slots

/-- The least power of two of slots, from eight, above `n`. -/
def sizeAbove (n : Nat) : Nat :=
  (List.range 64).foldr (fun k acc => if n < 8 * Nat.pow 2 k then 8 * Nat.pow 2 k else acc)
    (8 * Nat.pow 2 64)

/-- The members moved to a table of `size` slots, in slot order. -/
def resize (s : HashedSet) (size : Nat) : HashedSet :=
  ⟨s.slots.toList.foldl (fun t e => match e with
    | some entry => place t entry
    | none => t) (Array.replicate size none), s.used⟩

/-- The set with a member added, unless an equal one is in it already. -/
def insert (s : HashedSet) (j : Json) : HashedSet :=
  let h := hashKey j
  match find s.slots h fun (h', j') => h' == h && sameMember j' j with
  | some (_, true) => s
  | some (k, false) =>
    let s' : HashedSet := ⟨s.slots.set! k (some (h, j)), s.used + 1⟩
    if s'.used * 5 < (s.slots.size - 1) * 3 then s'
    else s'.resize (sizeAbove (if 50000 < s'.used then s'.used * 2 else s'.used * 4))
  | none => s

/-- The members in slot order. -/
def members (s : HashedSet) : List Json := s.slots.toList.filterMap (·.map Prod.snd)

end HashedSet

/-- The members of a list gathered into a hashed set, as the set walks them. -/
def setOrder (items : List Json) : List Json :=
  (items.foldl HashedSet.insert HashedSet.empty).members

end Json

end SoundLaw
