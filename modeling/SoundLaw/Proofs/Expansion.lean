import SoundLaw.Rule.Expand

/-!
# Expansion ends in concrete rules

Each split of `expand` removes shorthand. Resolving an optional or angle group takes away at least
its two brackets, and resolving a polarity letter writes a sign in place of every occurrence of
it. Counting the characters of a text and its polarity letters together (`Expand.weight`), every
split lowers the count, as long as no polarity letter is itself a sign; the fuel `expand` starts
with, more than twice the length of the text, is then never used up.

* `firstOf_some`, `optionalGroup_shape`, `angleGroup_shape`, `group_cuts` — a group found is
  `(…)` or `<…>` around some material, at the offsets reported (`Expand.Bracketed`);
* `weight_kept_lt`, `weight_removed_lt`, `weight_signed_lt` — each kind of split lowers the
  weight;
* `expandFrom_ok` — with more fuel than weight, expansion succeeds and every rule it gives is
  free of shorthand (`Expand.Concrete`);
* `expand_reaches_concrete_rules` — so `expand` succeeds on every text when the arrow holds no
  angle bracket and no polarity letter is a sign.

A polarity letter that is a sign is split into itself without end
(`expand_sign_letter_endless`).
-/

namespace SoundLaw

namespace Expand

variable {n : Notation}

/-- The characters of a text and its polarity letters, counted together: what every split of an
expansion lowers. -/
def weight (n : Notation) (cs : List Char) : Nat :=
  cs.length + cs.countP fun c => n.polarity.toList.contains c

/-- A text with no shorthand left: no optional group, no angle group, no polarity letter. -/
def Concrete (n : Notation) (cs : List Char) : Prop :=
  optionalGroup n cs 0 = none ∧ angleGroup cs 0 = none ∧ ∀ c ∈ cs, c ∉ n.polarity.toList

/-! ## The groups a split resolves -/

/-- The first mark found stands at the offset reported. -/
theorem firstOf_some {marks : List Char} :
    ∀ {cs : List Char} {k : Nat} {d : Char}, firstOf marks cs = some (k, d) →
      ∃ pre post, cs = pre ++ d :: post ∧ pre.length = k
  | [], _, _, h => by simp [firstOf] at h
  | c :: cs, k, d, h => by
    simp only [firstOf] at h
    split at h
    · obtain ⟨rfl, rfl⟩ := Prod.mk.inj (Option.some.inj h)
      exact ⟨[], cs, rfl, rfl⟩
    · obtain ⟨⟨k', d'⟩, hk, he⟩ := Option.map_eq_some_iff.1 h
      obtain ⟨rfl, rfl⟩ := Prod.mk.inj he
      obtain ⟨pre, post, rfl, rfl⟩ := firstOf_some hk
      exact ⟨c :: pre, post, rfl, rfl⟩

/-- `cs` holds `x`, some material and `y`, at the offsets `a` and `b` of the outer ends of the
two, counting offsets from `off`. -/
def Bracketed (x y : Char) (cs : List Char) (off a b : Nat) : Prop :=
  ∃ pre inner post, cs = pre ++ x :: inner ++ y :: post ∧
    a = off + pre.length ∧ b = off + pre.length + inner.length + 2

/-- A pair of brackets at the start of a text. -/
theorem bracketed_here {x y : Char} {inner post : List Char} (off : Nat) :
    Bracketed x y (x :: (inner ++ y :: post)) off off (off + inner.length + 2) :=
  ⟨[], inner, post, rfl, by simp, by simp⟩

/-- A pair of brackets further on, seen from one character earlier. -/
theorem Bracketed.cons {x y : Char} {cs : List Char} {off a b : Nat} (c : Char)
    (h : Bracketed x y cs (off + 1) a b) : Bracketed x y (c :: cs) off a b := by
  obtain ⟨pre, inner, post, rfl, rfl, rfl⟩ := h
  exact ⟨c :: pre, inner, post, rfl, by simp; omega, by simp; omega⟩

/-- An optional group is `(…)` around some material, at the offsets reported. -/
theorem optionalGroup_shape {cs : List Char} {off a b : Nat}
    (h : optionalGroup n cs off = some (a, b)) : Bracketed '(' ')' cs off a b := by
  fun_induction optionalGroup n cs off with
  | case1 => cases h
  | case2 off rest k hk after d tail htrim hq ih =>
    -- a group followed by a repetition mark is skipped, and the search goes on after it
    obtain ⟨inner, post, rfl, rfl⟩ := firstOf_some hk
    obtain ⟨pre', inner', post', hpost, rfl, rfl⟩ := ih h
    have hafter : after = post := by simp [after]
    refine ⟨'(' :: inner ++ ')' :: pre', inner', post', ?_, by simp; omega, by simp; omega⟩
    rw [← hafter, hpost]
    simp
  | case3 off rest k hk after d tail htrim hq =>
    obtain ⟨inner, post, rfl, rfl⟩ := firstOf_some hk
    obtain ⟨rfl, rfl⟩ := Prod.mk.inj (Option.some.inj h)
    exact bracketed_here off
  | case4 off rest k hk after htrim =>
    obtain ⟨inner, post, rfl, rfl⟩ := firstOf_some hk
    obtain ⟨rfl, rfl⟩ := Prod.mk.inj (Option.some.inj h)
    exact bracketed_here off
  | case5 off rest _ ih => exact (ih h).cons '('
  | case6 off c rest _ ih => exact (ih h).cons c

/-- An angle group is `<…>` around some material, at the offsets reported. -/
theorem angleGroup_shape :
    ∀ {cs : List Char} {off a b : Nat}, angleGroup cs off = some (a, b) →
      Bracketed '<' '>' cs off a b
  | [], _, _, _, h => by simp [angleGroup] at h
  | c :: rest, off, a, b, h => by
    simp only [angleGroup] at h
    split at h
    · rename_i hc
      subst hc
      split at h
      · rename_i k hk
        obtain ⟨inner, post, rfl, rfl⟩ := firstOf_some hk
        obtain ⟨rfl, rfl⟩ := Prod.mk.inj (Option.some.inj h)
        exact bracketed_here off
      · exact (angleGroup_shape h).cons '<'
    · exact (angleGroup_shape h).cons c

/-- The group a split resolves, optional or angle, is a pair of brackets around some material. -/
theorem group_shape {cs : List Char} {a b : Nat}
    (h : ((optionalGroup n cs 0).orElse fun _ => angleGroup cs 0) = some (a, b)) :
    ∃ pre x inner y post, cs = pre ++ x :: inner ++ y :: post ∧
      a = pre.length ∧ b = pre.length + inner.length + 2 := by
  have hbr : ∃ x y, Bracketed x y cs 0 a b := by
    cases hopt : optionalGroup n cs 0 with
    | some g =>
      rw [hopt, Option.orElse_some] at h
      rw [h] at hopt
      exact ⟨'(', ')', optionalGroup_shape hopt⟩
    | none =>
      rw [hopt, Option.orElse_none] at h
      exact ⟨'<', '>', angleGroup_shape h⟩
  obtain ⟨x, y, pre, inner, post, hcs, ha, hb⟩ := hbr
  exact ⟨pre, x, inner, y, post, hcs, by omega, by omega⟩

/-- The pieces the split cuts out of a text with a group: what stands before the group, the
material inside its brackets, and what stands after it. -/
theorem group_cuts (pre inner post : List Char) (x y : Char) :
    (pre ++ x :: inner ++ y :: post).take pre.length = pre ∧
    ((pre ++ x :: inner ++ y :: post).drop (pre.length + 1)).take inner.length = inner ∧
    (pre ++ x :: inner ++ y :: post).drop (pre.length + inner.length + 2) = post := by
  refine ⟨by simp, ?_, ?_⟩
  · rw [show pre ++ x :: inner ++ y :: post = (pre ++ [x]) ++ (inner ++ y :: post) by simp,
      List.drop_left' (by simp)]
    simp
  · rw [show pre ++ x :: inner ++ y :: post = (pre ++ [x] ++ inner ++ [y]) ++ post by simp,
      List.drop_left' (by simp; omega)]

/-! ## Every split lowers the weight -/

theorem weight_kept_lt (pre inner post : List Char) (x y : Char) :
    weight n (pre ++ inner ++ post) < weight n (pre ++ x :: inner ++ y :: post) := by
  simp only [weight, List.length_append, List.length_cons, List.countP_append, List.countP_cons]
  split <;> split <;> omega

theorem weight_removed_lt (pre inner post : List Char) (x y : Char) :
    weight n (pre ++ post) < weight n (pre ++ x :: inner ++ y :: post) := by
  simp only [weight, List.length_append, List.length_cons, List.countP_append, List.countP_cons]
  split <;> split <;> omega

/-- Writing a character that fails a test in place of one that passes it never passes the test
more often. -/
theorem countP_replace_le {p : Char → Bool} {l d : Char} (hd : p d = false) (cs : List Char) :
    (cs.map fun c => if c = l then d else c).countP p ≤ cs.countP p := by
  induction cs with
  | nil => simp
  | cons c cs ih =>
    by_cases hc : c = l
    · have hcd : (if c = l then d else c) = d := if_pos hc
      simp only [List.map_cons, hcd, List.countP_cons, hd, Bool.false_eq_true, if_false]
      split <;> omega
    · have hcc : (if c = l then d else c) = c := if_neg hc
      simp only [List.map_cons, hcc, List.countP_cons]
      omega

/-- … and strictly less often when the replaced character occurs and passes it. -/
theorem countP_replace_lt {p : Char → Bool} {l d : Char} (hl : p l = true) (hd : p d = false) :
    ∀ {cs : List Char}, l ∈ cs → (cs.map fun c => if c = l then d else c).countP p < cs.countP p
  | c :: cs, hmem => by
    by_cases hc : c = l
    · have hle := countP_replace_le (l := l) hd cs
      subst hc
      simp only [List.map_cons, if_true, List.countP_cons, hd, hl, Bool.false_eq_true, if_false]
      omega
    · have hlt := countP_replace_lt hl hd ((List.mem_cons.1 hmem).resolve_left (Ne.symm hc))
      have hcc : (if c = l then d else c) = c := if_neg hc
      simp only [List.map_cons, hcc, List.countP_cons]
      omega

/-- Writing a sign that is no polarity letter for every occurrence of a polarity letter lowers the
weight. -/
theorem weight_signed_lt {cs : List Char} {l d : Char} (hl : n.polarity.toList.contains l = true)
    (hd : d ∉ n.polarity.toList) (hmem : l ∈ cs) :
    weight n (cs.map fun c => if c = l then d else c) < weight n cs := by
  have hlt := countP_replace_lt (p := fun c => n.polarity.toList.contains c) hl
    (by simpa using hd) hmem
  simp only [weight, List.length_map]
  omega

/-! ## Enough fuel -/

/-- The rules of two splits are free of shorthand when those of each are. -/
theorem concrete_append {rs rs' : List String} (h : ∀ r ∈ rs, Concrete n r.toList)
    (h' : ∀ r ∈ rs', Concrete n r.toList) : ∀ r ∈ rs ++ rs', Concrete n r.toList := by
  intro r hr
  rcases List.mem_append.1 hr with hr | hr
  · exact h r hr
  · exact h' r hr

/-- No group is found when neither an optional nor an angle group is. -/
theorem groups_eq_none {cs : List Char}
    (hg : ((optionalGroup n cs 0).orElse fun _ => angleGroup cs 0) = none) :
    optionalGroup n cs 0 = none ∧ angleGroup cs 0 = none := by
  cases hopt : optionalGroup n cs 0 with
  | none =>
    rw [hopt, Option.orElse_none] at hg
    exact ⟨rfl, hg⟩
  | some g =>
    rw [hopt, Option.orElse_some] at hg
    cases hg

/-- A polarity letter is no sign when no sign is a polarity letter. -/
theorem not_sign {l : Char} (hplus : '+' ∉ n.polarity.toList) (hminus : '-' ∉ n.polarity.toList)
    (hl : n.polarity.toList.contains l = true) : ¬(l = '+' ∨ l = '-') := by
  rintro (rfl | rfl)
  · exact hplus (by simpa using hl)
  · exact hminus (by simpa using hl)

/-- With more fuel than weight, and no polarity letter that is a sign, expansion succeeds and
gives rules free of shorthand. -/
theorem expandFrom_ok (hplus : '+' ∉ n.polarity.toList) (hminus : '-' ∉ n.polarity.toList) :
    ∀ (fuel : Nat) (cs : List Char), weight n cs < fuel →
      ∃ rules, expandFrom n fuel cs = .ok rules ∧ ∀ r ∈ rules, Concrete n r.toList
  | 0, _, hw => absurd hw (Nat.not_lt_zero _)
  | fuel + 1, cs, hw => by
    simp only [expandFrom]
    split
    · -- a group: the text with its brackets cut out and the text without it
      rename_i a b hg
      obtain ⟨pre, x, inner, y, post, rfl, rfl, rfl⟩ := group_shape hg
      obtain ⟨htake, hinner, hdrop⟩ := group_cuts pre inner post x y
      have hlen : pre.length + inner.length + 2 - pre.length - 2 = inner.length := by omega
      have hkept := weight_kept_lt (n := n) pre inner post x y
      have hremoved := weight_removed_lt (n := n) pre inner post x y
      obtain ⟨first, hfirst, hcf⟩ := expandFrom_ok hplus hminus fuel (pre ++ inner ++ post) (by omega)
      obtain ⟨second, hsecond, hcs⟩ := expandFrom_ok hplus hminus fuel (pre ++ post) (by omega)
      refine ⟨first ++ second, ?_, concrete_append hcf hcs⟩
      simp only [hlen, htake, hinner, hdrop, hfirst, hsecond]
      rfl
    · rename_i hg
      obtain ⟨hopt, hangle⟩ := groups_eq_none hg
      split
      · -- a polarity letter, which is no sign: one variant with `+`, one with `-`
        rename_i l hl
        have hpol : n.polarity.toList.contains l = true := List.find?_some hl
        have hmem : l ∈ cs := List.mem_of_find?_eq_some hl
        rw [if_neg (not_sign hplus hminus hpol)]
        have hwp := weight_signed_lt hpol hplus hmem
        have hwm := weight_signed_lt hpol hminus hmem
        obtain ⟨plus, hp, hcp⟩ :=
          expandFrom_ok hplus hminus fuel (cs.map fun c => if c = l then '+' else c) (by omega)
        obtain ⟨minus, hm, hcm⟩ :=
          expandFrom_ok hplus hminus fuel (cs.map fun c => if c = l then '-' else c) (by omega)
        refine ⟨plus ++ minus, ?_, concrete_append hcp hcm⟩
        simp only [hp, hm]
        rfl
      · -- no shorthand at all: the text is the one rule
        rename_i hl
        refine ⟨[String.ofList cs], rfl, ?_⟩
        intro r hr
        rw [List.mem_singleton.1 hr, String.toList_ofList]
        refine ⟨hopt, hangle, fun c hc hpol => ?_⟩
        exact List.find?_eq_none.1 hl c hc (by simpa using hpol)

/-- Expansion succeeds on every text, and every rule it gives is free of shorthand, when the
arrow holds no angle bracket and no polarity letter is a sign. -/
theorem expand_reaches_concrete_rules (n : Notation) (text : String)
    (hopen : '<' ∉ n.arrow.toList) (hclose : '>' ∉ n.arrow.toList)
    (hplus : '+' ∉ n.polarity.toList) (hminus : '-' ∉ n.polarity.toList) :
    ∃ rules, expand n text = .ok rules ∧ ∀ r ∈ rules, Concrete n r.toList := by
  have harrow : (n.arrow.toList.contains '<' || n.arrow.toList.contains '>') = false := by
    simp [hopen, hclose]
  -- the weight is at most twice the length, below the fuel
  have hw : weight n text.toList < 2 * text.length + 2 := by
    have := List.countP_le_length (p := fun c => n.polarity.toList.contains c) (l := text.toList)
    simp only [weight, String.length_toList] at this ⊢
    omega
  simp only [expand, harrow]
  exact expandFrom_ok hplus hminus _ _ hw

/-- The default notation expands its optional and angle groups into concrete rules. -/
theorem expand_default_concrete :
    ('<' ∉ ({} : Notation).arrow.toList ∧ '>' ∉ ({} : Notation).arrow.toList ∧
      '+' ∉ ({} : Notation).polarity.toList ∧ '-' ∉ ({} : Notation).polarity.toList) ∧
    ∃ rules, expand {} "a → e / (i)_<#>" = .ok rules ∧ ∀ r ∈ rules, Concrete {} r.toList :=
  ⟨⟨by decide, by decide, by decide, by decide⟩,
    expand_reaches_concrete_rules {} _ (by decide) (by decide) (by decide) (by decide)⟩

/-- A polarity letter that is itself a sign is split into itself without end: with `+` for a
polarity letter, a rule that holds `+` has no expansion. -/
theorem expand_sign_letter_endless :
    expand { polarity := "+" } "a → b / +_" = .error .endlessExpansion := by
  -- the text holds no group, so the first split is on the polarity letter `+`
  have hopt : optionalGroup { polarity := "+" } "a → b / +_".toList 0 = none := by cbv
  have hangle : angleGroup "a → b / +_".toList 0 = none := by decide
  rw [expand, if_neg (by decide)]
  show expandFrom _ (21 + 1) _ = _
  rw [expandFrom, hopt, Option.orElse_none, hangle]
  rfl

end Expand

end SoundLaw
