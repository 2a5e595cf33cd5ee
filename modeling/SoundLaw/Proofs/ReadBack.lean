import SoundLaw.Pattern.Parser
import SoundLaw.Pattern.Render

/-!
# Reading a written pattern back

Writing a pattern (`Pattern.render`) and reading the text again (`Pattern.parse`) gives the
pattern back for *flat* patterns: plain characters, each standing for its symbol, and words of
plain characters repeated any number of times (`a*`, `(ab)*`). A plain character is one the reader
never takes for notation: not blank, not `#`, the null symbol, a class letter, a repetition mark
or a delimiter.

* `Text.trim_of_forall_not_blank`, `Text.splitDelimited_of_forall_not_cut` — the first passes of
  the reader leave a text without blanks or delimiters whole;
* `read_plainWord` — a plain word reads as the sequence of its symbols;
* `quantified_skip`, `lastWhere_*`, `firstWhere_*`, `atomBefore_*` — the repetition pass over
  stretches without marks, and the atom it finds before a mark;
* `Piece`, `Flat` — flat patterns, their text and their pattern;
* `quantified_letter_step`, `quantified_starred_step` — the repetition pass over one piece;
  `quantified_pieces` — over the text of all pieces, by induction on them;
* `parse_render_flat` — a flat pattern read back from its text is itself.

Patterns whose symbols are no delimiters read back in a wider grammar, with `#`, feature changes,
alternations and counted repetitions: see `Pattern.Written`.
-/

namespace SoundLaw

/-! ## Texts without blanks or delimiters -/

namespace Text

/-- A text with no blank is its own trim. -/
theorem trim_of_forall_not_blank {cs : List Char} (h : ∀ c ∈ cs, isBlank c = false) :
    trim cs = cs := by
  have hdrop : ∀ xs : List Char, (∀ c ∈ xs, isBlank c = false) → xs.dropWhile isBlank = xs := by
    intro xs hxs
    cases xs with
    | nil => rfl
    | cons x xs => simp [hxs x (by simp)]
  have hleft : trimLeft cs = cs := hdrop cs h
  simp only [trim, hleft]
  rw [hdrop cs.reverse (by simpa using h), List.reverse_reverse]

/-- A text with no cut character is one piece. -/
theorem splitWhere_of_forall_not_cut {cut : Char → Bool} :
    ∀ {cs : List Char}, (∀ c ∈ cs, cut c = false) → splitWhere cut cs = [cs]
  | [], _ => rfl
  | c :: cs, h => by
    have hc : cut c = false := h c (by simp)
    have hrest := @splitWhere_of_forall_not_cut cut cs fun x hx => h x (by simp [hx])
    simp [splitWhere, hc, hrest]

/-- Delimiters alternate trivially in a text with none. -/
theorem alternates_of_forall_not_mem {opening closing : String} {expectOpen : Bool} :
    ∀ {cs : List Char}, (∀ c ∈ cs, c ∉ opening.toList ∧ c ∉ closing.toList) →
      alternates opening closing expectOpen cs = true
  | [], _ => rfl
  | c :: cs, h => by
    obtain ⟨ho, hcl⟩ := h c (by simp)
    have hrest := @alternates_of_forall_not_mem opening closing expectOpen cs
      fun x hx => h x (by simp [hx])
    -- a delimiter text of `c` alone would hold `c`
    have hnot : ¬(String.singleton c = opening ∨ String.singleton c = closing) := by
      rintro (rfl | rfl) <;> simp_all
    simp only [alternates, if_neg hnot, hrest]

/-- A text with none of the delimiter characters is one outside piece. -/
theorem splitDelimited_of_forall_not_cut {opening closing label : String} {cs : List Char}
    (hdelim : (opening.isEmpty && closing.isEmpty) = false)
    (h : ∀ c ∈ cs, c ∉ opening.toList ∧ c ∉ closing.toList) :
    splitDelimited opening closing label cs = .ok [cs] := by
  have hsplit : splitWhere (fun c => opening.toList.contains c || closing.toList.contains c) cs =
      [cs] := splitWhere_of_forall_not_cut fun c hc => by simp [h c hc]
  have halt : alternates opening closing true cs = true := alternates_of_forall_not_mem h
  unfold splitDelimited
  simp only [hsplit, hdelim, halt]
  rfl

end Text

namespace Pattern

@[simp] theorem ok_bind {ε α β : Type} (a : α) (f : α → Except ε β) :
    (Except.ok a >>= f) = f a := rfl

theorem eq_ok_of_toOption {ε α : Type} {x : Except ε α} {a : α} (h : x.toOption = some a) :
    x = .ok a := by
  cases x <;> simp_all [Except.toOption]

/-! ## Plain characters -/

/-- The delimiters of the notation: parentheses, brackets and braces. -/
def delimiters : List Char := ['(', ')', '[', ']', Char.ofNat 123, Char.ofNat 125]

/-- A character the reader of a notation never takes for notation: it reads as its own symbol
wherever it stands. -/
structure PlainChar (n : Notation) (c : Char) : Prop where
  not_blank : Text.isBlank c = false
  not_boundary : c ≠ '#'
  not_null : c ∉ n.null.toList
  not_class : n.classOf (String.singleton c) = none
  not_star : c ≠ '*'
  not_digit : n.digitOf c = none
  not_delimiter : c ∉ delimiters

instance (n : Notation) (c : Char) : Decidable (PlainChar n c) :=
  decidable_of_iff (Text.isBlank c = false ∧ c ≠ '#' ∧ c ∉ n.null.toList ∧
      n.classOf (String.singleton c) = none ∧ c ≠ '*' ∧ n.digitOf c = none ∧ c ∉ delimiters)
    ⟨fun ⟨a, b, d, e, f, g, h⟩ => ⟨a, b, d, e, f, g, h⟩,
      fun ⟨a, b, d, e, f, g, h⟩ => ⟨a, b, d, e, f, g, h⟩⟩

/-- The symbols of a word, one per character. -/
def word (w : List Char) : List Pattern := w.map fun c => .symbol (String.singleton c)

@[simp] theorem word_nil : word [] = [] := rfl

@[simp] theorem word_cons (c : Char) (w : List Char) :
    word (c :: w) = .symbol (String.singleton c) :: word w := rfl

@[simp] theorem word_append (v w : List Char) : word (v ++ w) = word v ++ word w := by
  simp [word]

variable {n : Notation}

/-- A text without delimiters is one piece between any pair of delimiter characters. -/
theorem splitDelimited_of_no_delimiter {opening closing label : String} {t : List Char}
    (hpair : (opening.isEmpty && closing.isEmpty) = false)
    (ho : ∀ d ∈ opening.toList, d ∈ delimiters) (hcl : ∀ d ∈ closing.toList, d ∈ delimiters)
    (ht : ∀ c ∈ t, c ∉ delimiters) : Text.splitDelimited opening closing label t = .ok [t] :=
  Text.splitDelimited_of_forall_not_cut hpair fun c hc =>
    ⟨fun h => ht c hc (ho c h), fun h => ht c hc (hcl c h)⟩

theorem ofChar_of_plain {c : Char} (h : PlainChar n c) : ofChar n c = .symbol (String.singleton c) := by
  have hnull : [c] ≠ n.null.toList := fun e => h.not_null (by simp [← e])
  simp [ofChar, h.not_boundary, hnull, h.not_class]

/-! ## Reading a text that holds a plain character -/

section Guards

variable {t : List Char} (hblank : ∀ c ∈ t, Text.isBlank c = false) {c : Char} (hc : c ∈ t)
  (hplain : PlainChar n c)
include hblank hc hplain

/-- A text without blanks holding a plain character is its own trim, and neither empty, the null
symbol nor `#`. -/
theorem read_guards : Text.trim t = t ∧ (t.isEmpty || t == n.null.toList) = false ∧
    (t == ['#']) = false := by
  have hne : t ≠ [] := List.ne_nil_of_mem hc
  have hnull : t ≠ n.null.toList := fun e => hplain.not_null (e ▸ hc)
  have hhash : t ≠ ['#'] := fun e => hplain.not_boundary (by simpa [e] using hc)
  exact ⟨Text.trim_of_forall_not_blank hblank, by simp [hne, hnull], by simpa using hhash⟩

/-- Such a text with a repetition mark reads as its repetition pass found it. -/
theorem read_of_quantified_some {fuel : Nat} {p : Pattern}
    (hq : quantified n (read n fuel) t.toArray [] 0 0 = .ok (some p)) :
    read n (fuel + 1) t = .ok p := by
  obtain ⟨htrim, hguard, hhash⟩ := read_guards hblank hc hplain
  rw [read]
  simp only [htrim, hguard, hhash, Bool.false_eq_true, if_false, hq, ok_bind]

/-- Such a text with no repetition mark and no brace or bracket reads as its characters one
after another. -/
theorem read_of_quantified_none {fuel : Nat}
    (hq : quantified n (read n fuel) t.toArray [] 0 0 = .ok none)
    (hdelim : ∀ c ∈ t, c ∉ delimiters) :
    read n (fuel + 1) t = .ok (.seq ((t.filter fun c => !Text.isBlank c).map (ofChar n))) := by
  obtain ⟨htrim, hguard, hhash⟩ := read_guards hblank hc hplain
  have hbraces : Text.splitDelimited "\x7b" "\x7d" "braces" t = .ok [t] :=
    splitDelimited_of_no_delimiter rfl (by simp [delimiters]) (by simp [delimiters]) hdelim
  have hbrackets : Text.splitDelimited "[" "]" "brackets" t = .ok [t] :=
    splitDelimited_of_no_delimiter rfl (by simp [delimiters]) (by simp [delimiters]) hdelim
  rw [read]
  simp only [htrim, hguard, hhash, Bool.false_eq_true, if_false, hq, hbraces, hbrackets, ok_bind,
    List.length_singleton, Nat.lt_irrefl]

end Guards

/-! ## The repetition pass over stretches without marks -/

/-- The character at offset `|pre| + k` of `pre ++ mid ++ rest`, for `k` inside `mid`. -/
theorem getElem?_append_mid {pre mid rest : List Char} {k : Nat} (hk : k < mid.length) :
    (pre ++ mid ++ rest)[pre.length + k]? = mid[k]? := by
  rw [List.append_assoc, List.getElem?_append_right (by omega), Nat.add_sub_cancel_left,
    List.getElem?_append_left hk]

/-- A character found inside `mid` of `pre ++ mid ++ rest` is a character of `mid`. -/
theorem mem_of_getElem?_append_mid {pre mid rest : List Char} {q : Nat} {c : Char}
    (h₁ : pre.length ≤ q) (h₂ : q < pre.length + mid.length)
    (h : (pre ++ mid ++ rest)[q]? = some c) : c ∈ mid := by
  obtain ⟨k, rfl⟩ := Nat.exists_eq_add_of_le h₁
  rw [getElem?_append_mid (by omega)] at h
  exact List.mem_of_getElem? h

section Scan

variable {sub : List Char → Except SoundError Pattern} {T : Array Char}

/-- No repetition mark stands at a character other than the star and the digits. -/
theorem markAt_eq_none {i : Nat} {c : Char} (h : T[i]? = some c) (hstar : c ≠ '*')
    (hdigit : n.digitOf c = none) : markAt n T i = none := by
  simp [markAt, h, hstar, hdigit]

/-- The pass moves over a stretch without marks. -/
theorem quantified_skip {items : List Pattern} {lastEnd : Nat} :
    ∀ (k i : Nat), i + k ≤ T.size → (∀ q, i ≤ q → q < i + k → markAt n T q = none) →
      quantified n sub T items lastEnd i = quantified n sub T items lastEnd (i + k)
  | 0, _, _, _ => rfl
  | k + 1, i, hk, hq => by
    rw [quantified, if_pos (by omega), hq i (Nat.le_refl i) (by omega)]
    simp only
    rw [quantified_skip k (i + 1) (by omega) fun q h₁ h₂ => hq q (by omega) (by omega),
      Nat.add_assoc, Nat.add_comm 1 k]

/-- Past the end of the text the pass stops: with nothing found it reports no mark, else it
reads the rest of the text and returns everything found in order. -/
theorem quantified_end {items : List Pattern} {lastEnd i : Nat} (h : T.size ≤ i) :
    quantified n sub T items lastEnd i = if items.isEmpty then .ok none else (do
      let rest ← sub (slice T lastEnd T.size)
      .ok (some (.seq (rest :: items).reverse))) := by
  rw [quantified, if_neg (by omega)]

/-- At a star the pass reads what lies between the previous mark and the atom before the star,
then the atom, and goes on after the star. -/
theorem quantified_star {items : List Pattern} {lastEnd i a b : Nat} (hi : i < T.size)
    (h : T[i]? = some '*') (hatom : atomBefore T lastEnd i = some (a, b)) :
    quantified n sub T items lastEnd i = (do
      let before ← sub (slice T lastEnd a)
      let atom ← readAtom sub (slice T a b)
      quantified n sub T (.rep atom 0 :: before :: items) (i + 1) (i + 1)) := by
  have hmark : markAt n T i = some (.ok 0, 0) := by simp [markAt, h]
  rw [quantified, if_pos hi, hmark]
  simp only [hatom, Nat.add_zero, Int.natCast_zero]

end Scan

/-- The pass over a text moves over a stretch whose characters are neither stars nor digits. -/
theorem quantified_skip_mid {sub : List Char → Except SoundError Pattern} {items : List Pattern}
    {lastEnd : Nat} {pre mid rest : List Char} (hmid : ∀ c ∈ mid, c ≠ '*' ∧ n.digitOf c = none) :
    quantified n sub (pre ++ mid ++ rest).toArray items lastEnd pre.length =
      quantified n sub (pre ++ mid ++ rest).toArray items lastEnd (pre.length + mid.length) := by
  apply quantified_skip
  · simp only [List.size_toArray, List.length_append]
    omega
  · intro q h₁ h₂
    cases hc : (pre ++ mid ++ rest)[q]? with
    | none => simp only [markAt, List.getElem?_toArray, hc]
    | some c =>
      have hmem := mem_of_getElem?_append_mid h₁ h₂ hc
      exact markAt_eq_none (by simpa using hc) (hmid c hmem).1 (hmid c hmem).2

/-- The characters of a list from offset `a` up to offset `b`. -/
theorem slice_toArray (t : List Char) (a b : Nat) : slice t.toArray a b = (t.drop a).take (b - a) := by
  simp [slice, List.extract_eq_take_drop]

/-! ## The atom before a mark -/

section Search

variable {T : Array Char} {test : Char → Bool}

/-- The last offset passing a test, when the last offset of the range passes it. -/
theorem lastWhere_of_last {lo hi : Nat} {c : Char} (h : lo ≤ hi) (hc : T[hi]? = some c)
    (ht : test c = true) : lastWhere T test lo (hi + 1) = some hi := by
  unfold lastWhere
  rw [show hi + 1 - lo = hi - lo + 1 by omega, List.range'_concat, List.foldl_append]
  simp [show lo + (hi - lo) = hi by omega, hc, ht]

/-- No offset passes a test when no character of the range does. -/
theorem lastWhere_eq_none (lo : Nat) :
    ∀ hi : Nat, (∀ q, lo ≤ q → q < hi → ∀ c, T[q]? = some c → test c = false) →
      lastWhere T test lo hi = none
  | 0, _ => by simp [lastWhere]
  | hi + 1, h => by
    by_cases hlo : hi < lo
    · simp [lastWhere, show hi + 1 - lo = 0 by omega]
    · -- the range is the one up to `hi`, then `hi`
      have ih := lastWhere_eq_none lo hi fun q h₁ h₂ => h q h₁ (by omega)
      unfold lastWhere at ih ⊢
      rw [show hi + 1 - lo = hi - lo + 1 by omega, List.range'_concat, List.foldl_append, ih]
      cases hc : T[hi]? with
      | none => simp [show lo + (hi - lo) = hi by omega, hc]
      | some c => simp [show lo + (hi - lo) = hi by omega, hc, h hi (by omega) (by omega) c hc]

/-- The first offset passing a test is the first whose character passes it. -/
theorem firstWhere_of_first {c : Char} :
    ∀ (k lo hi : Nat), lo + k < hi →
      (∀ q, lo ≤ q → q < lo + k → ∀ d, T[q]? = some d → test d = false) →
      T[lo + k]? = some c → test c = true → firstWhere T test lo hi = some (lo + k)
  | 0, lo, hi, h, _, hc, ht => by
    rw [Nat.add_zero] at hc ⊢
    unfold firstWhere
    rw [show hi - lo = hi - lo - 1 + 1 by omega, List.range'_succ, List.find?_cons]
    simp [hc, ht]
  | k + 1, lo, hi, h, hskip, hc, ht => by
    have ih := firstWhere_of_first k (lo + 1) hi (by omega)
      (fun q h₁ h₂ => hskip q (by omega) (by omega)) (by rwa [Nat.add_right_comm, Nat.add_assoc])
      ht
    unfold firstWhere at ih ⊢
    rw [show hi - lo = hi - (lo + 1) + 1 by omega, List.range'_succ, List.find?_cons]
    rw [show lo + 1 + k = lo + (k + 1) by omega] at ih
    cases hd : T[lo]? with
    | none => simpa [hd] using ih
    | some d => simpa [hd, hskip lo (Nat.le_refl lo) (by omega) d hd] using ih

end Search

/-! ## Flat patterns -/

/-- A piece of a flat pattern. -/
inductive Piece
  /-- A character, standing for its symbol. -/
  | letter (c : Char)
  /-- A word repeated any number of times. -/
  | starred (w : List Char)

namespace Piece

/-- How a repeated word is written before its star: one character bare, a longer word between
parentheses. -/
def atomText : List Char → List Char
  | [c] => [c]
  | w => '(' :: w ++ [')']

/-- The pattern a piece stands for. -/
def pattern : Piece → Pattern
  | .letter c => .symbol (String.singleton c)
  | .starred w => .rep (seqOf (word w)) 0

/-- The text of a piece. -/
def text : Piece → List Char
  | .letter c => [c]
  | .starred w => atomText w ++ ['*']

/-- Whether a piece is a repetition. -/
def isStarred : Piece → Bool
  | .letter _ => false
  | .starred _ => true

/-- A piece of plain characters; a repeated word is not empty. -/
def Plain (n : Notation) : Piece → Prop
  | .letter c => PlainChar n c
  | .starred w => w ≠ [] ∧ ∀ c ∈ w, PlainChar n c

end Piece

/-- A flat pattern: one or more pieces of plain characters. -/
structure Flat (n : Notation) where
  pieces : List Piece
  nonempty : pieces ≠ []
  plain : ∀ p ∈ pieces, p.Plain n

/-- The pattern of a flat pattern: its pieces one after another. -/
def Flat.pattern {n : Notation} (f : Flat n) : Pattern := seqOf (f.pieces.map Piece.pattern)

/-! ## Canonical forms of words -/

@[simp] theorem canonicalize_symbol (s : String) : canonicalize (.symbol s) = .symbol s := by
  simp [canonicalize]

theorem spliceSeq_append (xs ys : List Pattern) :
    spliceSeq (xs ++ ys) = spliceSeq xs ++ spliceSeq ys := by
  induction xs with
  | nil => simp [spliceSeq]
  | cons x xs ih =>
    simp only [List.cons_append, spliceSeq, ih]
    split <;> simp

theorem spliceSeq_word (w : List Char) : spliceSeq (word w) = word w := by
  induction w with
  | nil => simp [spliceSeq]
  | cons c w ih => simp [spliceSeq, ih]

theorem canonicalize_seq_word (w : List Char) : canonicalize (.seq (word w)) = seqOf (word w) := by
  simp [canonicalize, spliceSeq_word]

/-- A word read as a sequence of symbols splices into a sequence as its symbols. -/
theorem spliceSeq_seq_word (w : List Char) : spliceSeq [.seq (word w)] = word w := by
  rw [spliceSeq, canonicalize_seq_word]
  -- `seqOf` collapses no symbol or one, and leaves a longer word a sequence
  match w with
  | [] => rfl
  | [c] => rfl
  | c :: d :: w => simp [seqOf, spliceSeq]

/-- A repeated word read as a sequence of symbols is the repetition of its canonical form. -/
theorem canonicalize_rep_seq_word {w : List Char} (hw : w ≠ []) :
    canonicalize (.rep (.seq (word w)) 0) = .rep (seqOf (word w)) 0 := by
  rw [canonicalize, canonicalize_seq_word]
  -- the canonical word is a symbol or a sequence, never a repetition to fold into
  match w, hw with
  | [c], _ => rfl
  | c :: d :: w, _ => rfl

/-! ## Reading plain words -/

/-- The repetition pass finds no mark in a text without stars and digits. -/
theorem quantified_eq_none {sub : List Char → Except SoundError Pattern} {t : List Char}
    (ht : ∀ c ∈ t, c ≠ '*' ∧ n.digitOf c = none) :
    quantified n sub t.toArray [] 0 0 = .ok none := by
  have hskip : quantified n sub ([] ++ t ++ []).toArray [] 0 ([] : List Char).length =
      quantified n sub ([] ++ t ++ []).toArray [] 0 (([] : List Char).length + t.length) :=
    quantified_skip_mid ht
  simp only [List.nil_append, List.append_nil, List.length_nil, Nat.zero_add] at hskip
  rw [hskip, quantified_end (by simp)]
  rfl

/-- A word of plain characters reads as the sequence of its symbols. -/
theorem read_plainWord (fuel : Nat) {w : List Char} (hne : w ≠ [])
    (hw : ∀ c ∈ w, PlainChar n c) : read n (fuel + 1) w = .ok (.seq (word w)) := by
  obtain ⟨c, hc⟩ := List.exists_mem_of_ne_nil w hne
  have hblank : ∀ c ∈ w, Text.isBlank c = false := fun c hc => (hw c hc).not_blank
  rw [read_of_quantified_none hblank hc (hw c hc)
    (quantified_eq_none fun c hc => ⟨(hw c hc).not_star, (hw c hc).not_digit⟩)
    fun c hc => (hw c hc).not_delimiter]
  -- no character is dropped as blank, and each reads as its symbol
  have hfilter : w.filter (fun c => !Text.isBlank c) = w := List.filter_eq_self.2 (by simpa using hblank)
  rw [hfilter, word]
  congr 2
  exact List.map_congr_left fun c hc => ofChar_of_plain (hw c hc)

/-- A stretch of plain characters, possibly empty, reads as something that splices into a
sequence as its symbols. -/
theorem read_plainRun (fuel : Nat) {run : List Char} (hrun : ∀ c ∈ run, PlainChar n c) :
    ∃ r, read n (fuel + 1) run = .ok r ∧ spliceSeq [r] = word run := by
  by_cases hne : run = []
  · subst hne
    refine ⟨.null, ?_, by simp [spliceSeq, canonicalize]⟩
    rw [read]
    simp [Text.trim, Text.trimLeft]
  · exact ⟨_, read_plainWord fuel hne hrun, spliceSeq_seq_word run⟩

/-! ## The atom before a star -/

theorem PlainChar.ne_delimiter {c d : Char} (hc : PlainChar n c) (hd : d ∈ delimiters) : c ≠ d :=
  fun e => hc.not_delimiter (e ▸ hd)

theorem openerOf_of_plain {c : Char} (hc : PlainChar n c) : openerOf c = none := by
  have h₁ := hc.ne_delimiter (show ']' ∈ delimiters by decide)
  have h₂ := hc.ne_delimiter (show ')' ∈ delimiters by decide)
  have h₃ := hc.ne_delimiter (show Char.ofNat 125 ∈ delimiters by decide)
  simp [openerOf, h₁, h₂, h₃]

/-- Before a star that follows a plain character, the atom is that character. -/
theorem atomBefore_bare {pre run rest : List Char} {c : Char} (hc : PlainChar n c) :
    atomBefore (pre ++ run ++ [c] ++ rest).toArray pre.length (pre.length + run.length + 1) =
      some (pre.length + run.length, pre.length + run.length + 1) := by
  have hget : (pre ++ run ++ [c] ++ rest).toArray[pre.length + run.length]? = some c := by
    simp
  have hlast : lastWhere (pre ++ run ++ [c] ++ rest).toArray (fun c => !Text.isBlank c)
      pre.length (pre.length + run.length + 1) = some (pre.length + run.length) :=
    lastWhere_of_last (by omega) hget (by simp [hc.not_blank])
  unfold atomBefore
  rw [hlast]
  simp only [hget, Option.getD_some, openerOf_of_plain hc]

/-- Before a star that follows a group of plain characters in parentheses, after plain
characters only, the atom is the group: its `)` is the last closing parenthesis and its `(` the
first opening one. -/
theorem atomBefore_group {pre run w rest : List Char} (hrun : ∀ c ∈ run, PlainChar n c)
    (hw : ∀ c ∈ w, PlainChar n c) :
    atomBefore (pre ++ run ++ ('(' :: w ++ [')']) ++ rest).toArray pre.length
        (pre.length + run.length + (w.length + 1) + 1) =
      some (pre.length + run.length, pre.length + run.length + (w.length + 1) + 1) := by
  have hL : pre ++ run ++ ('(' :: w ++ [')']) ++ rest = pre ++ (run ++ '(' :: w) ++ (')' :: rest) := by
    simp
  have hclose : (pre ++ run ++ ('(' :: w ++ [')']) ++ rest).toArray[pre.length + run.length +
      (w.length + 1)]? = some ')' := by
    have h := @getElem?_append_mid (pre ++ run) ('(' :: w ++ [')']) rest (w.length + 1) (by simp)
    simpa using h
  have hopen : (pre ++ run ++ ('(' :: w ++ [')']) ++ rest).toArray[pre.length + run.length]? =
      some '(' := by
    simp
  have hlast : lastWhere (pre ++ run ++ ('(' :: w ++ [')']) ++ rest).toArray
      (fun c => !Text.isBlank c) pre.length (pre.length + run.length + (w.length + 1) + 1) =
      some (pre.length + run.length + (w.length + 1)) :=
    lastWhere_of_last (by omega) hclose (by decide)
  -- between the previous mark and the group's `)` stand plain characters and the group's `(`
  have hinside : ∀ q, pre.length ≤ q → q < pre.length + run.length + (w.length + 1) → ∀ d,
      (pre ++ run ++ ('(' :: w ++ [')']) ++ rest).toArray[q]? = some d →
        d = '(' ∨ PlainChar n d := by
    intro q h₁ h₂ d hd
    rw [hL, List.getElem?_toArray] at hd
    have hmem := mem_of_getElem?_append_mid h₁ (by simp; omega) hd
    rcases List.mem_append.1 hmem with hd | hd
    · exact .inr (hrun d hd)
    rcases List.mem_cons.1 hd with rfl | hd
    · exact .inl rfl
    · exact .inr (hw d hd)
  have hfrom : lastWhere (pre ++ run ++ ('(' :: w ++ [')']) ++ rest).toArray (· == ')') pre.length
      (pre.length + run.length + (w.length + 1)) = none := by
    apply lastWhere_eq_none
    intro q h₁ h₂ d hd
    rcases hinside q h₁ h₂ d hd with rfl | hd
    · decide
    · simpa using hd.ne_delimiter (show ')' ∈ delimiters by decide)
  have hfirst : firstWhere (pre ++ run ++ ('(' :: w ++ [')']) ++ rest).toArray (· == '(')
      pre.length (pre.length + run.length + (w.length + 1)) = some (pre.length + run.length) := by
    apply firstWhere_of_first run.length pre.length _ (by omega) _ hopen (by decide)
    intro q h₁ h₂ d hd
    rw [List.getElem?_toArray] at hd
    have hmem := mem_of_getElem?_append_mid h₁ h₂ (by simpa using hd)
    simpa using (hrun d hmem).ne_delimiter (show '(' ∈ delimiters by decide)
  have hcloser : openerOf ')' = some '(' := by decide
  unfold atomBefore
  rw [hlast]
  simp only [hclose, Option.getD_some, hcloser, hfrom, hfirst]

/-! ## Repeated words -/

namespace Piece

theorem mem_atomText {w : List Char} {c : Char} (h : c ∈ atomText w) :
    c ∈ w ∨ c = '(' ∨ c = ')' := by
  match w with
  | [d] => exact .inl h
  | [] => simp_all [atomText]
  | d :: e :: w =>
    have h : c ∈ '(' :: ((d :: e :: w) ++ [')']) := h
    rcases List.mem_cons.1 h with h | h
    · exact .inr (.inl h)
    rcases List.mem_append.1 h with h | h
    · exact .inl h
    · exact .inr (.inr (List.mem_singleton.1 h))

end Piece

/-- The atom written for a repeated word of plain characters, found before its star. -/
theorem atomBefore_atomText {pre run w rest : List Char} (hrun : ∀ c ∈ run, PlainChar n c)
    (hne : w ≠ []) (hw : ∀ c ∈ w, PlainChar n c) :
    atomBefore (pre ++ run ++ Piece.atomText w ++ rest).toArray pre.length
        (pre.length + run.length + (Piece.atomText w).length) =
      some (pre.length + run.length, pre.length + run.length + (Piece.atomText w).length) := by
  match w, hne with
  | [c], _ => exact atomBefore_bare (hw c (by simp))
  | c :: d :: w, _ =>
    have h := @atomBefore_group n pre run (c :: d :: w) rest hrun hw
    simpa [Piece.atomText, Nat.add_assoc] using h

/-- The atom of a repeated word reads as the word. -/
theorem readAtom_atomText {sub : List Char → Except SoundError Pattern} {w : List Char}
    (hne : w ≠ []) (hw : ∀ c ∈ w, PlainChar n c) : readAtom sub (Piece.atomText w) = sub w := by
  match w, hne with
  | [c], _ =>
    have hc : c ≠ '(' := (hw c (by simp)).ne_delimiter (show '(' ∈ delimiters by decide)
    simp [Piece.atomText, readAtom, hc]
  | c :: d :: w, _ =>
    show readAtom sub ('(' :: ((c :: d :: w) ++ [')'])) = sub (c :: d :: w)
    simp only [readAtom, List.getLast?_concat, List.dropLast_concat, if_true]

/-- A repeated word read as a sequence of symbols splices into a sequence as its pattern. -/
theorem spliceSeq_rep_seq_word {w : List Char} (hne : w ≠ []) :
    spliceSeq [.rep (.seq (word w)) 0] = [(Piece.starred w).pattern] := by
  rw [spliceSeq, canonicalize_rep_seq_word hne]
  rfl

/-! ## The repetition pass over a flat text -/

/-- One plain character: the pass moves over it, and it joins the run since the last mark. -/
theorem quantified_letter_step {sub : List Char → Except SoundError Pattern} {items : List Pattern}
    {pre run rest : List Char} {c : Char} (hc : PlainChar n c) :
    quantified n sub (pre ++ run ++ c :: rest).toArray items pre.length (pre.length + run.length) =
      quantified n sub (pre ++ (run ++ [c]) ++ rest).toArray items pre.length
        (pre.length + (run ++ [c]).length) := by
  have hskip := @quantified_skip_mid n sub items pre.length (pre ++ run) [c] rest
    (by simp [hc.not_star, hc.not_digit])
  have h₁ : pre ++ run ++ c :: rest = pre ++ run ++ [c] ++ rest := by simp
  have h₂ : pre ++ (run ++ [c]) ++ rest = pre ++ run ++ [c] ++ rest := by simp
  simp only [List.length_append, List.length_singleton] at hskip ⊢
  rw [h₁, h₂, hskip, Nat.add_assoc]

/-- One repeated word of plain characters: the pass moves over its atom, reads the run before
the atom and the word at the star, and goes on after the star with both found. -/
theorem quantified_starred_step {fuel : Nat} (hparen : n.digitOf '(' = none ∧ n.digitOf ')' = none)
    {items : List Pattern} {pre run w rest : List Char} (hrun : ∀ c ∈ run, PlainChar n c)
    (hne : w ≠ []) (hw : ∀ c ∈ w, PlainChar n c) {r : Pattern}
    (hr : read n (fuel + 1) run = .ok r) :
    quantified n (read n (fuel + 1)) (pre ++ run ++ (Piece.atomText w ++ '*' :: rest)).toArray items
        pre.length (pre.length + run.length) =
      quantified n (read n (fuel + 1)) (pre ++ run ++ Piece.atomText w ++ ['*'] ++ rest).toArray
        (.rep (.seq (word w)) 0 :: r :: items) (pre ++ run ++ Piece.atomText w ++ ['*']).length
        (pre ++ run ++ Piece.atomText w ++ ['*']).length := by
  -- the atom's characters are plain or parentheses: no marks among them
  have hatomChars : ∀ c ∈ Piece.atomText w, c ≠ '*' ∧ n.digitOf c = none := by
    intro c hc
    rcases Piece.mem_atomText hc with hc | rfl | rfl
    · exact ⟨(hw c hc).not_star, (hw c hc).not_digit⟩
    · exact ⟨by decide, hparen.1⟩
    · exact ⟨by decide, hparen.2⟩
  have ht : pre ++ run ++ (Piece.atomText w ++ '*' :: rest) =
      pre ++ run ++ Piece.atomText w ++ ('*' :: rest) := by
    simp
  have ht' : pre ++ run ++ Piece.atomText w ++ ['*'] ++ rest =
      pre ++ run ++ Piece.atomText w ++ ('*' :: rest) := by
    simp
  have hskip := @quantified_skip_mid n (read n (fuel + 1)) items pre.length (pre ++ run)
    (Piece.atomText w) ('*' :: rest) hatomChars
  simp only [List.length_append] at hskip
  have hstarAt : (pre ++ run ++ Piece.atomText w ++ ('*' :: rest)).toArray[
      pre.length + run.length + (Piece.atomText w).length]? = some '*' := by
    simp [Nat.add_assoc]
  have hbefore : slice (pre ++ run ++ Piece.atomText w ++ ('*' :: rest)).toArray
      pre.length (pre.length + run.length) = run := by
    simp [slice_toArray]
  have hatomSlice : slice (pre ++ run ++ Piece.atomText w ++ ('*' :: rest)).toArray
      (pre.length + run.length) (pre.length + run.length + (Piece.atomText w).length) =
      Piece.atomText w := by
    rw [slice_toArray, show pre.length + run.length + (Piece.atomText w).length -
      (pre.length + run.length) = (Piece.atomText w).length by omega]
    simp
  rw [ht, hskip, quantified_star (by simp; omega) hstarAt (atomBefore_atomText hrun hne hw), hbefore,
    hatomSlice, readAtom_atomText hne hw, hr, read_plainWord fuel hne hw, ok_bind, ok_bind, ht']
  simp only [List.length_append, List.length_singleton]

/-- The repetition pass over the text of flat pieces, started at a mark's end `|pre|` with the
plain characters `run` already passed over, reads what it found so far (`items`), the run and
the pieces into a sequence whose spliced children are the pieces' patterns, as long as there is
a repetition to report. The digits of the notation must not be parentheses. -/
theorem quantified_pieces {fuel : Nat} (hparen : n.digitOf '(' = none ∧ n.digitOf ')' = none) :
    ∀ (ps : List Piece) (pre run : List Char) (items : List Pattern),
      (∀ p ∈ ps, p.Plain n) → (∀ c ∈ run, PlainChar n c) →
      (items ≠ [] ∨ ps.any Piece.isStarred = true) →
      ∃ raw, quantified n (read n (fuel + 1)) (pre ++ run ++ ps.flatMap Piece.text).toArray items
          pre.length (pre.length + run.length) = .ok (some (.seq raw)) ∧
        spliceSeq raw = spliceSeq items.reverse ++ word run ++ ps.map Piece.pattern
  | [], pre, run, items, _, hrun, hsome => by
    -- the end of the text: the run is read as the last piece
    have hitems : items ≠ [] := by simpa using hsome
    obtain ⟨r, hr, hsplice⟩ := read_plainRun fuel hrun
    rw [List.flatMap_nil]
    refine ⟨(r :: items).reverse, ?_, ?_⟩
    · have hslice : slice (pre ++ run ++ []).toArray pre.length (pre ++ run ++ []).toArray.size =
          run := by
        simp [slice_toArray]
      rw [quantified_end (by simp), hslice, hr]
      simp [hitems]
    · simp [spliceSeq_append, hsplice]
  | .letter c :: ps, pre, run, items, hps, hrun, hsome => by
    -- a plain character joins the run
    have hc : PlainChar n c := hps (.letter c) (by simp)
    obtain ⟨raw, hq, hraw⟩ := quantified_pieces hparen ps pre (run ++ [c]) items
      (fun p hp => hps p (by simp [hp]))
      (fun d hd => by
        rcases List.mem_append.1 hd with hd | hd
        · exact hrun d hd
        · rw [List.mem_singleton.1 hd]
          exact hc)
      (by simpa [Piece.isStarred] using hsome)
    refine ⟨raw, ?_, ?_⟩
    · rw [List.flatMap_cons, Piece.text, List.singleton_append, quantified_letter_step hc]
      exact hq
    · rw [hraw]
      simp [Piece.pattern, word]
  | .starred w :: ps, pre, run, items, hps, hrun, _ => by
    -- a repeated word closes the run: both are read and the pass goes on after the star
    obtain ⟨hne, hw⟩ : w ≠ [] ∧ ∀ c ∈ w, PlainChar n c := hps (.starred w) (by simp)
    obtain ⟨r, hr, hsplice⟩ := read_plainRun fuel hrun
    obtain ⟨raw, hq, hraw⟩ := @quantified_pieces fuel hparen ps
      (pre ++ run ++ Piece.atomText w ++ ['*']) [] (.rep (.seq (word w)) 0 :: r :: items)
      (fun p hp => hps p (by simp [hp])) (by simp) (.inl (by simp))
    refine ⟨raw, ?_, ?_⟩
    · rw [List.flatMap_cons, Piece.text, List.append_assoc (Piece.atomText w),
        List.singleton_append, quantified_starred_step hparen hrun hne hw hr]
      simpa using hq
    · rw [hraw, List.reverse_cons, List.reverse_cons, spliceSeq_append, spliceSeq_append, hsplice,
        spliceSeq_rep_seq_word hne]
      simp

/-! ## Writing flat patterns -/

theorem join_singletons (w : List Char) : String.join (w.map String.singleton) = String.ofList w := by
  induction w with
  | nil => rfl
  | cons c w ih =>
    rw [List.map_cons, String.join_cons, ih, String.singleton_eq_ofList, ← String.ofList_append]
    rfl

theorem renderList_word (w : List Char) : renderList n (word w) = .ok (w.map String.singleton) := by
  induction w with
  | nil => rfl
  | cons c w ih => simp [renderList, render, ih]

/-- A word of one symbol or more is written as its characters. -/
theorem render_seqOf_word {w : List Char} (hne : w ≠ []) :
    (seqOf (word w)).render n = .ok (String.ofList w) := by
  match w, hne with
  | [c], _ => simp [seqOf, render]
  | c :: d :: w, _ =>
    rw [show seqOf (word (c :: d :: w)) = .seq (word (c :: d :: w)) from rfl, render,
      renderList_word, ok_bind, join_singletons]

/-- A plain piece is written as its text. -/
theorem Piece.render_pattern {p : Piece} (hp : p.Plain n) :
    p.pattern.render n = .ok (String.ofList p.text) := by
  match p with
  | .letter c => simp [Piece.pattern, Piece.text, render]
  | .starred [c] => simp [Piece.pattern, Piece.text, Piece.atomText, seqOf, render, isAtom]
  | .starred (c :: d :: w) =>
    -- a longer word goes between parentheses
    have hbase := @render_seqOf_word n (c :: d :: w) (by simp)
    simp only [Piece.pattern, render, hbase, ok_bind]
    simp [Piece.text, Piece.atomText, seqOf, isAtom, String.append_assoc]
  | .starred [] => exact absurd rfl hp.1

/-- Plain pieces one after another are written as their texts one after another. -/
theorem renderList_pieces {ps : List Piece} (hps : ∀ p ∈ ps, p.Plain n) :
    renderList n (ps.map Piece.pattern) = .ok (ps.map fun p => String.ofList p.text) := by
  induction ps with
  | nil => rfl
  | cons p ps ih =>
    simp only [List.map_cons, renderList, Piece.render_pattern (hps p (by simp)), ok_bind,
      ih fun q hq => hps q (by simp [hq])]

theorem join_texts (ps : List Piece) :
    String.join (ps.map fun p => String.ofList p.text) = String.ofList (ps.flatMap Piece.text) := by
  induction ps with
  | nil => rfl
  | cons p ps ih => rw [List.map_cons, String.join_cons, ih, List.flatMap_cons, String.ofList_append]

/-- One plain piece or more, one after another, are written as their texts. -/
theorem render_seqOf_pieces {ps : List Piece} (hne : ps ≠ []) (hps : ∀ p ∈ ps, p.Plain n) :
    (seqOf (ps.map Piece.pattern)).render n = .ok (String.ofList (ps.flatMap Piece.text)) := by
  match ps, hne with
  | [p], _ => simpa [seqOf] using Piece.render_pattern (hps p (by simp))
  | p :: q :: ps, _ =>
    rw [show seqOf ((p :: q :: ps).map Piece.pattern) = .seq ((p :: q :: ps).map Piece.pattern)
      from rfl, render, renderList_pieces hps, ok_bind, join_texts]

/-- A flat pattern is written as the texts of its pieces. -/
theorem Flat.render_pattern (f : Flat n) :
    f.pattern.render n = .ok (String.ofList (f.pieces.flatMap Piece.text)) :=
  render_seqOf_pieces f.nonempty f.plain

/-! ## Reading a flat pattern back -/

namespace Piece

theorem mem_atomText_of_mem {w : List Char} {c : Char} (h : c ∈ w) : c ∈ atomText w := by
  match w with
  | [d] => exact h
  | [] => simp at h
  | d :: e :: w =>
    show c ∈ '(' :: ((d :: e :: w) ++ [')'])
    exact List.mem_cons_of_mem _ (List.mem_append_left _ h)

/-- The characters of a plain piece's text are plain, parentheses or the star. -/
theorem mem_text {p : Piece} (hp : p.Plain n) {c : Char} (hc : c ∈ p.text) :
    PlainChar n c ∨ c = '(' ∨ c = ')' ∨ c = '*' := by
  match p with
  | .letter d =>
    rw [List.mem_singleton.1 hc]
    exact .inl hp
  | .starred w =>
    rcases List.mem_append.1 hc with hc | hc
    · rcases mem_atomText hc with hc | hc | hc
      · exact .inl (hp.2 c hc)
      · exact .inr (.inl hc)
      · exact .inr (.inr (.inl hc))
    · exact .inr (.inr (.inr (List.mem_singleton.1 hc)))

/-- The text of a plain piece holds a plain character. -/
theorem exists_plain_mem {p : Piece} (hp : p.Plain n) : ∃ c ∈ p.text, PlainChar n c := by
  match p with
  | .letter d => exact ⟨d, by simp [text], hp⟩
  | .starred w =>
    obtain ⟨c, hc⟩ := List.exists_mem_of_ne_nil w hp.1
    exact ⟨c, List.mem_append_left _ (mem_atomText_of_mem hc), hp.2 c hc⟩

/-- Pieces without repetition are the symbols of their text. -/
theorem map_pattern_of_letters {ps : List Piece} (h : ps.any isStarred = false) :
    ps.map pattern = word (ps.flatMap text) := by
  induction ps with
  | nil => rfl
  | cons p ps ih =>
    simp only [List.any_cons, Bool.or_eq_false_iff] at h
    match p, h with
    | .letter c, ⟨_, hps⟩ => simp [pattern, text, ih hps]

end Piece

namespace Flat

variable (f : Flat n)

/-- Every character of a flat pattern's text is plain, a parenthesis or the star. -/
theorem mem_text {c : Char} (hc : c ∈ f.pieces.flatMap Piece.text) :
    PlainChar n c ∨ c = '(' ∨ c = ')' ∨ c = '*' := by
  obtain ⟨p, hp, hcp⟩ := List.mem_flatMap.1 hc
  exact Piece.mem_text (f.plain p hp) hcp

theorem text_not_blank : ∀ c ∈ f.pieces.flatMap Piece.text, Text.isBlank c = false := by
  intro c hc
  rcases f.mem_text hc with h | rfl | rfl | rfl
  · exact h.not_blank
  all_goals decide

theorem exists_plain_mem : ∃ c ∈ f.pieces.flatMap Piece.text, PlainChar n c := by
  obtain ⟨p, hp⟩ := List.exists_mem_of_ne_nil _ f.nonempty
  obtain ⟨c, hcp, hplain⟩ := Piece.exists_plain_mem (f.plain p hp)
  exact ⟨c, List.mem_flatMap.2 ⟨p, hp, hcp⟩, hplain⟩

/-- Without repetitions, a flat pattern's text is plain characters only. -/
theorem plain_of_letters (h : f.pieces.any Piece.isStarred = false) :
    ∀ c ∈ f.pieces.flatMap Piece.text, PlainChar n c := by
  intro c hc
  obtain ⟨p, hp, hcp⟩ := List.mem_flatMap.1 hc
  match p, f.plain p hp, List.any_eq_false.1 h p hp with
  | .letter d, hd, _ =>
    rw [List.mem_singleton.1 hcp]
    exact hd

end Flat

/-- **Reading back.** A flat pattern is written without fault, and reading its text gives the
pattern back, in any notation whose digits are not parentheses. -/
theorem parse_render_flat (f : Flat n) (hparen : n.digitOf '(' = none ∧ n.digitOf ')' = none) :
    (f.pattern.render n).bind (parse n) = .ok f.pattern := by
  rw [Flat.render_pattern]
  show parse n (String.ofList (f.pieces.flatMap Piece.text)) = .ok f.pattern
  obtain ⟨c, hc, hplain⟩ := f.exists_plain_mem
  -- the text is not empty, so the reader has fuel for the text and for its pieces
  obtain ⟨k, hk⟩ : ∃ k, (f.pieces.flatMap Piece.text).length = k + 1 :=
    ⟨_, (Nat.sub_add_cancel (List.length_pos_of_mem hc)).symm⟩
  unfold parse
  rw [String.length_ofList, String.toList_ofList, hk]
  by_cases hstar : f.pieces.any Piece.isStarred = true
  · -- a repetition: the repetition pass reads the whole pattern
    obtain ⟨raw, hq, hraw⟩ := @quantified_pieces n k hparen f.pieces [] [] [] f.plain (by simp)
      (.inr hstar)
    simp only [List.append_nil, List.nil_append, List.length_nil, Nat.add_zero] at hq
    rw [read_of_quantified_some f.text_not_blank hc hplain hq]
    simp only [List.reverse_nil, spliceSeq, List.nil_append, word_nil] at hraw
    show Except.ok (canonicalize (.seq raw)) = _
    rw [canonicalize, hraw]
    rfl
  · -- plain characters only: the text is a plain word
    have hletters : f.pieces.any Piece.isStarred = false := by simpa using hstar
    rw [read_plainWord (k + 1) (List.ne_nil_of_mem hc) (f.plain_of_letters hletters), Flat.pattern,
      Piece.map_pattern_of_letters hletters]
    show Except.ok (canonicalize (.seq (word _))) = _
    rw [canonicalize_seq_word]

end Pattern

end SoundLaw
