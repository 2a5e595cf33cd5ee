import SoundLaw.Proofs.WrittenLeaves
import SoundLaw.Proofs.SubscriptCounts

/-!
# Reading back written patterns

A written pattern is a run of *items*: leaves and alternations, and runs of them repeated with a
least count — written `*` for none, else in subscript digits — after their base, which stands
bare when it is one symbol, feature change or alternation and between parentheses otherwise
(`#`, the null symbol, or two parts or more). This is the shape `Pattern.render` gives a
canonical pattern built from such parts, and `Pattern.parse` reads every such text back:

* `Item`, `Written` — the items and the written patterns of a notation, carrying their
  legibility; `Written.render_pattern` — a written pattern is rendered as its text;
* `digitRun_stops`, `markAt_markText` — a count's glyphs are taken whole by the reader of marks,
  up to the first character that is not a glyph;
* `Balanced.split_last`, `atomBefore_closed`, `atomBefore_base` — the atom found before a
  mark is the base as written: its opening delimiter is the first one after the last closing
  delimiter of its kind, since the delimiters before it come in pairs;
* `quantified_items` — the repetition pass over the text of items, by induction on them;
* `Written.parse_text` and **`parse_render_written`** — rendering a written pattern and parsing
  the text gives the pattern back.

A symbol written with a delimiter breaks the round trip: a symbol `(` before a repeated group is
read as the group's opening (`parse_render_takes_paren_into_group`), which is why letters are no
delimiters.
-/

namespace SoundLaw

namespace Pattern

/-! ## Items and written patterns -/

/-- The pattern of a repetition's base written as a run of parts: `null` for none. -/
def basePattern (base : List Part) : Pattern := seqOf (base.map Part.pattern)

/-- The text of a repetition's base: its parts, or the null symbol for none. -/
def baseText (n : Notation) (base : List Part) : List Char :=
  if base = [] then n.null.toList else base.flatMap (Part.text n)

/-- How a base is written before its mark: bare when it is a symbol, a feature change or an
alternation, else between parentheses. -/
def atomText (n : Notation) (base : List Part) : List Char :=
  if (basePattern base).isAtom then baseText n base else '(' :: (baseText n base ++ [')'])

/-- The subscript glyphs of a count, one for each decimal digit. -/
def glyphs (n : Notation) (k : Nat) : List Char :=
  (Nat.toDigits 10 k).map fun d => n.digits.toList.getD (d.toNat - '0'.toNat) d

/-- The mark after a repeated base: the star for a least count of zero, else the count in
subscript digits. -/
def markText (n : Notation) (k : Nat) : List Char := if k = 0 then ['*'] else glyphs n k

/-- An item of a written pattern: a part, or a run of parts repeated at least `k` times. -/
inductive Item
  | part (p : Part)
  | rep (base : List Part) (k : Nat)

namespace Item

/-- The pattern an item stands for. -/
def pattern : Item → Pattern
  | .part p => p.pattern
  | .rep base k => .rep (basePattern base) k

/-- The text of an item: a repetition is its base as an atom, then its mark. -/
def text (n : Notation) : Item → List Char
  | .part p => p.text n
  | .rep base k => atomText n base ++ markText n k

/-- Whether an item is a repetition. -/
def isRep : Item → Bool
  | .rep _ _ => true
  | .part _ => false

/-- An item the reader takes back: a legible part, or a run of legible parts repeated a number
of times that has a subscript spelling. -/
def Legible (n : Notation) : Item → Prop
  | .part p => p.Legible n
  | .rep base k => (∀ p ∈ base, p.Legible n) ∧ k < 10 ^ digitLimit

instance (n : Notation) : (i : Item) → Decidable (i.Legible n)
  | .part p => inferInstanceAs (Decidable (p.Legible n))
  | .rep base k => inferInstanceAs (Decidable ((∀ p ∈ base, p.Legible n) ∧ k < 10 ^ digitLimit))

end Item

/-- A written pattern of a notation: legible items, one after another. -/
structure Written (n : Notation) where
  items : List Item
  legible : ∀ i ∈ items, i.Legible n

namespace Written

variable {n : Notation}

/-- The pattern written: the items one after another, collapsed. -/
def pattern (w : Written n) : Pattern := seqOf (w.items.map Item.pattern)

/-- The text of a written pattern: its items' texts, or the null symbol for none. -/
def text (w : Written n) : List Char :=
  if w.items = [] then n.null.toList else w.items.flatMap (Item.text n)

end Written

/-! ## Writing -/

section Render

variable {n : Notation}

theorem render_basePattern (base : List Part) :
    (basePattern base).render n = .ok (String.ofList (baseText n base)) :=
  render_seqOf_map fun p _ => Part.render_pattern p

/-- A count with a subscript spelling is written as its glyphs. -/
theorem toSubscript_glyphs {k : Nat} (hk : k < 10 ^ digitLimit) :
    n.toSubscript k = .ok (String.ofList (glyphs n k)) := by
  rw [Notation.toSubscript_eq_ok (by omega) (by exact_mod_cast hk), glyphs, Int.toNat_natCast]

theorem Item.render_pattern {i : Item} (hi : i.Legible n) :
    i.pattern.render n = .ok (String.ofList (i.text n)) := by
  cases i with
  | part p => exact Part.render_pattern p
  | rep base k =>
    have hatom : (if (basePattern base).isAtom = true then String.ofList (baseText n base)
        else "(" ++ String.ofList (baseText n base) ++ ")") = String.ofList (atomText n base) := by
      unfold atomText
      split
      · rfl
      · simp [String.ofList_append, String.append_assoc]
    rw [Item.pattern, render, render_basePattern, ok_bind, Item.text, markText]
    -- the mark: the star for a count of zero, else the count's glyphs
    by_cases h0 : k = 0
    · subst h0
      simp only [Int.natCast_zero, if_true, ok_bind, hatom, String.ofList_append]
    · simp only [show ¬((k : Int) = 0) by exact_mod_cast h0, if_false, h0,
        toSubscript_glyphs hi.2, ok_bind, hatom, String.ofList_append]

/-- A written pattern is rendered as its text. -/
theorem Written.render_pattern (w : Written n) :
    w.pattern.render n = .ok (String.ofList w.text) :=
  render_seqOf_map fun i hi => Item.render_pattern (w.legible i hi)

end Render


/-! ## The characters of items -/

section Chars

variable {n : Notation} (hn : Readable n)
include hn

theorem baseText_runChar {base : List Part} (hb : ∀ p ∈ base, p.Legible n) {c : Char}
    (hc : c ∈ baseText n base) : RunChar n c := by
  unfold baseText at hc
  split at hc
  · obtain ⟨z, hz, hzc, -⟩ := hn.null
    rw [hz, List.mem_singleton] at hc
    exact .inl (hc ▸ hzc)
  · obtain ⟨p, hp, hcp⟩ := List.mem_flatMap.1 hc
    exact Part.runChar hn (hb p hp) hcp

theorem baseText_ne_nil {base : List Part} (hb : ∀ p ∈ base, p.Legible n) : baseText n base ≠ [] := by
  unfold baseText
  split
  · obtain ⟨z, hz, -⟩ := hn.null
    simp [hz]
  · rename_i hne
    obtain ⟨p, hp⟩ := List.exists_mem_of_ne_nil base hne
    obtain ⟨c, hc⟩ := List.exists_mem_of_ne_nil _ (Part.trimmed (hb p hp)).2
    exact List.ne_nil_of_mem (List.mem_flatMap.2 ⟨p, hp, hc⟩)

/-- The characters of an atom are run characters or its parentheses: none marks repetition. -/
theorem atomText_not_mark {base : List Part} (hb : ∀ p ∈ base, p.Legible n) {c : Char}
    (hc : c ∈ atomText n base) : c ≠ '*' ∧ n.digitOf c = none := by
  unfold atomText at hc
  split at hc
  · exact (baseText_runChar hn hb hc).not_mark hn
  · simp only [List.mem_cons, List.mem_append, List.not_mem_nil, or_false] at hc
    rcases hc with rfl | hc | rfl
    · exact ⟨by decide, hn.digitOf_delimiter (by decide)⟩
    · exact (baseText_runChar hn hb hc).not_mark hn
    · exact ⟨by decide, hn.digitOf_delimiter (by decide)⟩

theorem atomText_trimmed {base : List Part} (hb : ∀ p ∈ base, p.Legible n) :
    Text.Trimmed (atomText n base) ∧ atomText n base ≠ [] := by
  unfold atomText
  split
  · refine ⟨?_, baseText_ne_nil hn hb⟩
    unfold baseText
    split
    · obtain ⟨z, hz, hzc, -⟩ := hn.null
      rw [hz]
      exact ⟨by simpa using hzc.not_blank, by simpa using hzc.not_blank⟩
    · exact trimmed_flatMap fun p hp => Part.trimmed (hb p hp)
  · exact ⟨trimmed_wrap (by decide) (by decide) _, by simp⟩

/-- A mark is the star or subscript glyphs. -/
theorem mem_markText {k : Nat} {c : Char} (hc : c ∈ markText n k) :
    c = '*' ∨ c ∈ n.digits.toList := by
  unfold markText at hc
  split at hc
  · exact .inl (List.mem_singleton.1 hc)
  · exact .inr (Notation.mem_digits_of_mem_glyphs hn.distinct (by rwa [String.toList_ofList]))

theorem markText_trimmed (k : Nat) : Text.Trimmed (markText n k) ∧ markText n k ≠ [] := by
  have hblank : ∀ c ∈ markText n k, Text.isBlank c = false := fun c hc => by
    rcases mem_markText hn hc with rfl | hc
    · decide
    · exact (hn.glyphs c hc).1
  refine ⟨⟨fun c hc => hblank c (List.mem_of_mem_head? hc),
    fun c hc => hblank c (List.mem_of_mem_getLast? hc)⟩, ?_⟩
  unfold markText glyphs
  split
  · simp
  · simp [Nat.toDigits_ne_nil]

theorem Item.trimmed {i : Item} (hi : i.Legible n) : Text.Trimmed (i.text n) ∧ i.text n ≠ [] := by
  cases i with
  | part p => exact Part.trimmed hi
  | rep base k =>
    have hatom := atomText_trimmed hn hi.1
    exact ⟨hatom.1.append (markText_trimmed hn k).1 hatom.2, by simp [Item.text, hatom.2]⟩

/-- An item's text starts with no subscript glyph: with a run character or a parenthesis. -/
theorem Item.head_not_glyph {i : Item} (hi : i.Legible n) :
    ∀ c ∈ (i.text n).head?, n.digitOf c = none := by
  intro c hc
  cases i with
  | part p => exact ((Part.runChar hn hi (List.mem_of_mem_head? hc)).not_mark hn).2
  | rep base k =>
    obtain ⟨d, ds, hds⟩ := List.exists_cons_of_ne_nil (atomText_trimmed hn hi.1).2
    rw [Item.text, hds, List.cons_append, List.head?_cons, Option.mem_some_iff] at hc
    subst hc
    exact (atomText_not_mark hn hi.1 (by rw [hds]; exact List.mem_cons_self)).2

theorem head_not_glyph_items {items : List Item} (hitems : ∀ i ∈ items, i.Legible n) :
    ∀ c ∈ (items.flatMap (Item.text n)).head?, n.digitOf c = none := by
  match items with
  | [] => simp
  | i :: items =>
    obtain ⟨d, ds, hds⟩ := List.exists_cons_of_ne_nil (Item.trimmed hn (hitems i List.mem_cons_self)).2
    intro c hc
    rw [List.flatMap_cons, hds, List.cons_append, List.head?_cons] at hc
    exact Item.head_not_glyph hn (hitems i List.mem_cons_self) c (by rw [hds]; exact hc)

end Chars

/-! ## Reading a mark -/

section Marks

variable {n : Notation}

/-- The reader of marks takes the glyphs `s` at `|pre| + j` of `pre ++ s ++ rest` to their end:
the first character of `rest` is no glyph. -/
theorem digitRun_stops {pre s rest : List Char} (hs : ∀ c ∈ s, (n.digitOf c).isSome)
    (hrest : ∀ c ∈ rest.head?, n.digitOf c = none) :
    ∀ {fuel j : Nat} {acc : List Char}, j ≤ s.length → s.length - j ≤ fuel →
      digitRun n (pre ++ s ++ rest).toArray fuel (pre.length + j) acc = acc.reverse ++ s.drop j
  | 0, j, acc, _, h => by rw [digitRun, List.drop_of_length_le (by omega), List.append_nil]
  | fuel + 1, j, acc, hj, h => by
    rw [digitRun, List.getElem?_toArray]
    by_cases hlt : j < s.length
    · -- a glyph: the scan takes it and goes on
      rw [getElem?_append_mid hlt, List.getElem?_eq_getElem hlt]
      simp only [hs _ (List.getElem_mem hlt), if_true]
      rw [show pre.length + j + 1 = pre.length + (j + 1) by omega,
        digitRun_stops hs hrest (by omega) (by omega), List.reverse_cons, List.append_assoc,
        List.singleton_append, ← List.drop_eq_getElem_cons hlt]
    · -- past the glyphs: the next character stops the scan
      have hj' : j = s.length := by omega
      subst hj'
      rw [List.append_assoc, List.getElem?_append_right (by omega), List.getElem?_append_right
        (by omega), show pre.length + s.length - pre.length - s.length = 0 by omega,
        List.drop_length, List.append_nil]
      cases hr : rest with
      | nil => rfl
      | cons d ds =>
        have hd : n.digitOf d = none := hrest d (by simp [hr])
        simp [hd]

/-- A mark written for a count with a subscript spelling is read as that count, followed by no
glyph. -/
theorem markAt_markText (hn : Readable n) {pre rest : List Char} {k : Nat} (hk : k < 10 ^ digitLimit)
    (hrest : ∀ c ∈ rest.head?, n.digitOf c = none) :
    markAt n (pre ++ markText n k ++ rest).toArray pre.length =
      some (.ok k, (markText n k).length - 1) := by
  by_cases h0 : k = 0
  · subst h0
    simp [markAt, markText]
  · have hmark : markText n k = glyphs n k := if_neg h0
    have hdigits : ∀ c ∈ glyphs n k, c ∈ n.digits.toList := fun c hc =>
      Notation.mem_digits_of_mem_glyphs hn.distinct (by rwa [String.toList_ofList])
    obtain ⟨g, gs, hgs⟩ : ∃ g gs, glyphs n k = g :: gs :=
      List.exists_cons_of_ne_nil (by simp [glyphs, Nat.toDigits_ne_nil])
    have hg : g ∈ n.digits.toList := hdigits g (by simp [hgs])
    -- a count below `10 ^ 4300` has at most 4300 digits
    have hlen : (glyphs n k).length ≤ digitLimit := by
      have := Notation.length_toDigits_le_digitLimit (show (0 : Int) ≤ k by omega)
        (show (k : Int) < 10 ^ digitLimit by exact_mod_cast hk)
      simpa [glyphs] using this
    -- the scan takes the glyphs whole
    have hrun := @digitRun_stops n pre (glyphs n k) rest
      (fun c hc => List.isSome_idxOf?.2 (hdigits c hc)) hrest
      (pre ++ glyphs n k ++ rest).toArray.size 0 [] (by omega) (by simp; omega)
    simp only [Nat.add_zero, List.reverse_nil, List.nil_append, List.drop_zero] at hrun
    have hat : (pre ++ glyphs n k ++ rest).toArray[pre.length]? = some g := by
      simp [hgs]
    have hgd : (n.digitOf g).isSome = true := List.isSome_idxOf?.2 hg
    rw [hmark, markAt, hat]
    simp only [(hn.glyphs g hg).2.1, if_false, hgd, if_true]
    rw [hrun, if_neg (Nat.not_lt.2 hlen), glyphs, countOf_glyphs hn.distinct k]

end Marks

/-! ## The atom before a mark -/

section Atoms

variable {n : Notation}

section Search

variable {T : Array Char} {test : Char → Bool}

/-- The last offset passing a test is unchanged by a stretch after it where none passes. -/
theorem lastWhere_skip {lo mid : Nat} (hlo : lo ≤ mid) :
    ∀ m : Nat, (∀ q, mid ≤ q → q < mid + m → ∀ c, T[q]? = some c → test c = false) →
      lastWhere T test lo (mid + m) = lastWhere T test lo mid
  | 0, _ => rfl
  | m + 1, h => by
    have ih := lastWhere_skip hlo m fun q h₁ h₂ => h q h₁ (by omega)
    unfold lastWhere at ih ⊢
    rw [show mid + (m + 1) - lo = mid + m - lo + 1 by omega, List.range'_concat, List.foldl_append,
      ih]
    cases hc : T[mid + m]? with
    | none => simp [show lo + (mid + m - lo) = mid + m by omega, hc]
    | some c =>
      simp [show lo + (mid + m - lo) = mid + m by omega, hc, h (mid + m) (by omega) (by omega) c hc]

end Search

theorem getLast?_pairs (o c : Char) : ∀ k, (Text.pairs o c (k + 1)).getLast? = some c
  | 0 => rfl
  | k + 1 => by
    rw [Text.pairs_succ o c (k + 1), List.getLast?_cons_cons, Text.pairs_succ,
      List.getLast?_cons_cons, ← Text.pairs_succ, getLast?_pairs o c k]

/-- A text whose delimiters come in pairs is its part up to its last closing delimiter, then a
stretch with no delimiter. -/
theorem Balanced.split_last {o c : Char} {x : List Char} (h : Balanced o c x) :
    ∃ y z, x = y ++ z ∧ (∀ d ∈ z, d ≠ o ∧ d ≠ c) ∧ (y = [] ∨ ∃ y', y = y' ++ [c]) := by
  induction x using List.reverseRecOn with
  | nil => exact ⟨[], [], rfl, by simp, .inl rfl⟩
  | append_singleton x d ih =>
    obtain ⟨k, hk⟩ := h
    rw [Text.delimitersIn, List.filter_append, List.filter_singleton] at hk
    cases hd : Text.isDelimiter o c d with
    | false =>
      -- the last character is no delimiter: it joins the stretch after the last closing one
      rw [hd, cond_false, List.append_nil] at hk
      obtain ⟨y, z, rfl, hz, hy⟩ := ih ⟨k, hk⟩
      refine ⟨y, z ++ [d], by simp, fun e he => ?_, hy⟩
      rcases List.mem_append.1 he with he | he
      · exact hz e he
      · rw [List.mem_singleton.1 he]
        simpa [Text.isDelimiter, not_or] using hd
    | true =>
      -- the last character is a delimiter, so the last of the pairs: a closing one
      rw [hd, cond_true] at hk
      have hlast := congrArg List.getLast? hk
      rw [List.getLast?_concat] at hlast
      cases k with
      | zero => simp at hk
      | succ k =>
        rw [getLast?_pairs, Option.some.injEq] at hlast
        exact ⟨x ++ [d], [], by simp, by simp, .inr ⟨x, by rw [hlast]⟩⟩

/-- Before a mark after an atom closed by `c`, past a text whose delimiters of that kind come in
pairs, the atom found opens at its own `o`: the first `o` after the last `c` before it. -/
theorem atomBefore_closed {o c : Char} (hoc : openerOf c = some o) (hne : o ≠ c)
    (hc : Text.isBlank c = false) {pre x inside rest : List Char} (hx : Balanced o c x)
    (hin : ∀ d ∈ inside, d ≠ o ∧ d ≠ c) :
    atomBefore (pre ++ x ++ (o :: (inside ++ [c])) ++ rest).toArray pre.length
        (pre.length + x.length + (o :: (inside ++ [c])).length) =
      some (pre.length + x.length, pre.length + x.length + (o :: (inside ++ [c])).length) := by
  obtain ⟨y, z, rfl, hz, hy⟩ := hx.split_last
  -- the offsets: the atom opens at `op` and closes at `cl`
  set op := pre.length + (y ++ z).length with hop
  set cl := op + (inside.length + 1) with hcl
  have hlen : (o :: (inside ++ [c])).length = inside.length + 1 + 1 := by simp
  rw [hlen, ← Nat.add_assoc, ← hcl]
  set T := (pre ++ (y ++ z) ++ (o :: (inside ++ [c])) ++ rest).toArray with hT
  have hclose : T[cl]? = some c := by
    have h := @getElem?_append_mid (pre ++ (y ++ z)) (o :: (inside ++ [c])) rest (inside.length + 1)
      (by simp)
    simpa [hT, hcl, hop] using h
  have hopen : T[op]? = some o := by simp [hT, hop]
  have hlast : lastWhere T (fun c => !Text.isBlank c) pre.length (cl + 1) = some cl :=
    lastWhere_of_last (by omega) hclose (by simp [hc])
  -- past `y` stand `z`, the atom's `o` and its inside: no `c` up to the atom's own
  have hnoClose : ∀ q, pre.length + y.length ≤ q → q < cl → ∀ d, T[q]? = some d →
      (d == c) = false := by
    intro q h₁ h₂ d hd
    have hL : pre ++ (y ++ z) ++ (o :: (inside ++ [c])) ++ rest =
        (pre ++ y) ++ (z ++ o :: inside) ++ (c :: rest) := by simp
    rw [hT, hL, List.getElem?_toArray] at hd
    have hmem := mem_of_getElem?_append_mid (by simpa using h₁) (by simp [hcl, hop] at h₂ ⊢; omega) hd
    simp only [List.mem_append, List.mem_cons] at hmem
    rcases hmem with hd | rfl | hd
    · simpa using (hz d hd).2
    · simpa using hne
    · simpa using (hin d hd).2
  have hskip : lastWhere T (· == c) pre.length cl = lastWhere T (· == c) pre.length
      (pre.length + y.length) := by
    have h := @lastWhere_skip T (· == c) pre.length (pre.length + y.length)
      (Nat.le_add_right pre.length y.length) (z.length + (inside.length + 1))
      fun q h₁ h₂ => hnoClose q h₁ (by simp [hcl, hop]; omega)
    rwa [show pre.length + y.length + (z.length + (inside.length + 1)) = cl by
      simp [hcl, hop]; omega] at h
  -- from the end of `y`, the first `o` is the atom's own: `z` holds none
  have hfirst : firstWhere T (· == o) (pre.length + y.length) cl = some op := by
    have h := @firstWhere_of_first T (· == o) o z.length (pre.length + y.length) cl
      (by simp [hcl, hop]; omega) ?_ (by simpa [hop, Nat.add_assoc] using hopen) (by simp)
    · simpa [hop, Nat.add_assoc] using h
    intro q h₁ h₂ d hd
    have hL : pre ++ (y ++ z) ++ (o :: (inside ++ [c])) ++ rest =
        (pre ++ y) ++ z ++ (o :: (inside ++ [c]) ++ rest) := by simp
    rw [hT, hL, List.getElem?_toArray] at hd
    simpa using (hz d (mem_of_getElem?_append_mid (by simpa using h₁) (by simpa using h₂) hd)).1
  unfold atomBefore
  rw [hlast]
  simp only [hclose, Option.getD_some, hoc, hskip]
  rcases hy with rfl | ⟨y', rfl⟩
  · simp only [List.length_nil, Nat.add_zero] at hfirst
    simp [lastWhere, hfirst]
  · have hyc : T[pre.length + y'.length]? = some c := by simp [hT]
    have hprev : lastWhere T (· == c) pre.length (pre.length + (y' ++ [c]).length) =
        some (pre.length + y'.length) := by
      rw [List.length_append, List.length_singleton, ← Nat.add_assoc]
      exact lastWhere_of_last (by omega) hyc (by simp)
    rw [List.length_append, List.length_singleton, ← Nat.add_assoc] at hfirst
    simp only [hprev, hfirst]

/-- A base that stands bare before its mark is one letter, one change or one alternation. -/
theorem basePattern_isAtom {base : List Part} (h : (basePattern base).isAtom = true) :
    (∃ c, base = [.leaf (.letter c)]) ∨ (∃ d, base = [.leaf (.feat d)]) ∨
      ∃ opts, base = [.alt opts] := by
  match base, h with
  | [.leaf (.letter c)], _ => exact .inl ⟨c, rfl⟩
  | [.leaf (.feat d)], _ => exact .inr (.inl ⟨d, rfl⟩)
  | [.alt opts], _ => exact .inr (.inr ⟨opts, rfl⟩)
  | [.leaf .edge], h => simp [basePattern, seqOf, Part.pattern, Leaf.pattern, isAtom] at h
  | [], h => simp [basePattern, seqOf, isAtom] at h
  | _ :: _ :: _, h => simp [basePattern, seqOf, isAtom] at h

/-- The atom written for a legible base, after the text of legible parts, is found whole before
its mark: a letter alone, a change or an alternation by its closing bracket or brace (the parts
before close all theirs), anything else by its parentheses (the parts before have none). -/
theorem atomBefore_base (hn : Readable n) {run base : List Part}
    (hrun : ∀ p ∈ run, p.Legible n) (hb : ∀ p ∈ base, p.Legible n) {pre rest : List Char} :
    atomBefore (pre ++ run.flatMap (Part.text n) ++ atomText n base ++ rest).toArray pre.length
        (pre.length + (run.flatMap (Part.text n)).length + (atomText n base).length) =
      some (pre.length + (run.flatMap (Part.text n)).length,
        pre.length + (run.flatMap (Part.text n)).length + (atomText n base).length) := by
  unfold atomText
  split
  · rename_i hatom
    rcases basePattern_isAtom hatom with ⟨c, rfl⟩ | ⟨d, rfl⟩ | ⟨opts, rfl⟩
    · exact atomBefore_bare (hb _ (List.mem_singleton_self _) : Letter n c).toPlainChar
    · have hd : ∀ x ∈ d.names, ∀ c ∈ x.toList, NameChar n c := hb _ (List.mem_singleton_self _)
      have htext : baseText n [.leaf (.feat d)] =
          '[' :: ((" ".intercalate d.tokens).toList ++ [']']) := by
        simp [baseText, Part.text, Leaf.text, FeatureChange.render_toList]
      rw [htext]
      exact atomBefore_closed (by decide) (by decide) (by decide)
        (balanced_flatMap fun p hp => Part.brackets hn (hrun p hp)) (inner_not_bracket hd)
    · have ho : Part.Legible n (.alt opts) := hb _ (List.mem_singleton_self _)
      have htext : baseText n [.alt opts] = Char.ofNat 123 ::
          (List.intercalate [','] (opts.map (optionText n)) ++ [Char.ofNat 125]) := by
        simp [baseText, Part.text]
      rw [htext]
      exact atomBefore_closed (by decide) (by decide) (by decide)
        (balanced_flatMap fun p hp => Part.braces hn (hrun p hp)) (altInside_not_brace hn ho.2.2)
  · -- a group: neither the parts before nor the base hold a parenthesis
    have hnone : ∀ x ∈ run.flatMap (Part.text n), x ≠ '(' ∧ x ≠ ')' := fun x hx => by
      obtain ⟨p, hp, hxp⟩ := List.mem_flatMap.1 hx
      exact (Part.runChar hn (hrun p hp) hxp).not_paren
    exact atomBefore_closed (by decide) (by decide) (by decide) (balanced_of_none hnone)
      fun x hx => (baseText_runChar hn hb hx).not_paren

/-- The atom written for a legible base reads as the base's text: the parentheses of a group are
taken off, a bare atom is read as it stands. -/
theorem readAtom_base (hn : Readable n) {base : List Part} (hb : ∀ p ∈ base, p.Legible n)
    (sub : List Char → Except SoundError Pattern) :
    readAtom sub (atomText n base) = sub (baseText n base) := by
  unfold atomText
  split
  · obtain ⟨d, ds, hds⟩ := List.exists_cons_of_ne_nil (baseText_ne_nil hn hb)
    have hd : d ≠ '(' :=
      (baseText_runChar hn hb (by rw [hds]; exact List.mem_cons_self)).not_paren.1
    rw [hds]
    simp [readAtom, hd]
  · simp only [readAtom, List.getLast?_concat, List.dropLast_concat, if_true]

/-- The text of a legible base reads back as the base's pattern. -/
theorem read_baseText (hn : Readable n) {base : List Part} (hb : ∀ p ∈ base, p.Legible n) :
    ∃ r, read n ((baseText n base).length + 1) (baseText n base) = .ok r ∧
      canonicalize r = basePattern base := by
  by_cases h : base = []
  · subst h
    exact ⟨.null, read_null_text hn, rfl⟩
  · obtain ⟨r, hr, hs⟩ := readsAs_parts hn hb
    rw [baseText, if_neg h]
    exact ⟨r, hr, canonicalize_of_spliceSeq hs⟩

/-- A base is no repetition, so a repetition read of it keeps its count. -/
theorem spliceSeq_rep_base {base : List Part} {r : Pattern} (hr : canonicalize r = basePattern base)
    (k : Nat) : spliceSeq [.rep r k] = [.rep (basePattern base) k] := by
  have hcanon : canonicalize (.rep r k) = .rep (basePattern base) k := by
    rw [canonicalize, hr]
    -- a base is `null`, a leaf, an alternation or a sequence, never a repetition
    rcases base with _ | ⟨p, _ | ⟨q, ps⟩⟩
    · rfl
    · cases p with
      | leaf l => cases l <;> rfl
      | alt opts => rfl
    · rfl
  rw [spliceSeq, hcanon]
  rfl

end Atoms

/-! ## The repetition pass over items -/

section Pass

variable {n : Notation}

/-- At a mark read as a count, the pass reads what lies between the previous mark and the atom
before it, then the atom, and goes on after the mark. -/
theorem quantified_mark {sub : List Char → Except SoundError Pattern} {T : Array Char}
    {acc : List Pattern} {lastEnd i a b k more : Nat} (hi : i < T.size)
    (hmark : markAt n T i = some (.ok k, more)) (hatom : atomBefore T lastEnd i = some (a, b)) :
    quantified n sub T acc lastEnd i = (do
      let before ← sub (slice T lastEnd a)
      let atom ← readAtom sub (slice T a b)
      quantified n sub T (.rep atom k :: before :: acc) (i + 1 + more) (i + 1 + more)) := by
  rw [quantified, if_pos hi, hmark]
  simp only [hatom]

/-- One repetition: the pass moves over its atom, reads the parts before the atom and the base at
the mark, and goes on after the mark with both found. -/
theorem quantified_rep_step (hn : Readable n) {acc : List Pattern} {pre rest : List Char}
    {run base : List Part} {k : Nat} (hrun : ∀ p ∈ run, p.Legible n)
    (hb : ∀ p ∈ base, p.Legible n) (hk : k < 10 ^ digitLimit)
    (hrest : ∀ c ∈ rest.head?, n.digitOf c = none) {r rb : Pattern}
    (hr : read n ((run.flatMap (Part.text n)).length + 1) (run.flatMap (Part.text n)) = .ok r)
    (hrb : read n ((baseText n base).length + 1) (baseText n base) = .ok rb) :
    quantified n (fun p => read n (p.length + 1) p)
        (pre ++ run.flatMap (Part.text n) ++ (atomText n base ++ markText n k ++ rest)).toArray acc
        pre.length (pre.length + (run.flatMap (Part.text n)).length) =
      quantified n (fun p => read n (p.length + 1) p)
        (pre ++ run.flatMap (Part.text n) ++ atomText n base ++ markText n k ++ rest).toArray
        (.rep rb k :: r :: acc)
        (pre ++ run.flatMap (Part.text n) ++ atomText n base ++ markText n k).length
        (pre ++ run.flatMap (Part.text n) ++ atomText n base ++ markText n k).length := by
  set runText := run.flatMap (Part.text n)
  have ht : pre ++ runText ++ (atomText n base ++ markText n k ++ rest) =
      pre ++ runText ++ atomText n base ++ (markText n k ++ rest) := by simp
  have ht' : pre ++ runText ++ atomText n base ++ markText n k ++ rest =
      pre ++ runText ++ atomText n base ++ (markText n k ++ rest) := by simp
  -- the atom holds no mark
  have hskip := @quantified_skip_mid n (fun p => read n (p.length + 1) p) acc pre.length
    (pre ++ runText) (atomText n base) (markText n k ++ rest) fun c hc => atomText_not_mark hn hb hc
  simp only [List.length_append] at hskip
  have hmark : markAt n (pre ++ runText ++ atomText n base ++ (markText n k ++ rest)).toArray
      (pre.length + runText.length + (atomText n base).length) =
        some (.ok k, (markText n k).length - 1) := by
    have h := @markAt_markText n hn (pre ++ runText ++ atomText n base) rest k hk hrest
    simpa only [List.append_assoc, List.length_append, Nat.add_assoc] using h
  have hbefore : slice (pre ++ runText ++ atomText n base ++ (markText n k ++ rest)).toArray
      pre.length (pre.length + runText.length) = runText := by
    simp [slice_toArray]
  have hatomSlice : slice (pre ++ runText ++ atomText n base ++ (markText n k ++ rest)).toArray
      (pre.length + runText.length) (pre.length + runText.length + (atomText n base).length) =
      atomText n base := by
    rw [slice_toArray, show pre.length + runText.length + (atomText n base).length -
      (pre.length + runText.length) = (atomText n base).length by omega]
    simp
  -- the mark ends the text read so far
  have hpos := List.length_pos_of_ne_nil (markText_trimmed hn k).2
  have hi : pre.length + runText.length + (atomText n base).length <
      (pre ++ runText ++ atomText n base ++ (markText n k ++ rest)).toArray.size := by
    simp only [List.size_toArray, List.length_append]
    omega
  have hend : pre.length + runText.length + (atomText n base).length + 1 +
      ((markText n k).length - 1) = (pre ++ runText ++ atomText n base ++ markText n k).length := by
    simp only [List.length_append]
    omega
  rw [ht, hskip, quantified_mark hi hmark (atomBefore_base hn hrun hb), hbefore, hatomSlice,
    readAtom_base hn hb]
  simp only [hr, hrb, ok_bind, hend, ht']

/-- The repetition pass over the text of items, started at a mark's end `|pre|` with the parts
`run` already passed over, reads what it found so far (`acc`), the run and the items into a
sequence whose spliced children are their patterns, as long as there is a repetition to report. -/
theorem quantified_items (hn : Readable n) :
    ∀ (items : List Item) (pre : List Char) (run : List Part) (acc : List Pattern),
      (∀ i ∈ items, i.Legible n) → (∀ p ∈ run, p.Legible n) →
      (acc ≠ [] ∨ items.any Item.isRep = true) →
      ∃ raw, quantified n (fun p => read n (p.length + 1) p)
          (pre ++ run.flatMap (Part.text n) ++ items.flatMap (Item.text n)).toArray acc pre.length
          (pre.length + (run.flatMap (Part.text n)).length) = .ok (some (.seq raw)) ∧
        spliceSeq raw = spliceSeq acc.reverse ++ run.map Part.pattern ++ items.map Item.pattern
  | [], pre, run, acc, _, hrun, hsome => by
    -- the end of the text: the parts since the last mark are read as the last piece
    have hacc : acc ≠ [] := by simpa using hsome
    obtain ⟨r, hr, hsplice⟩ := readsAs_parts hn hrun
    refine ⟨(r :: acc).reverse, ?_, ?_⟩
    · have hslice : slice (pre ++ run.flatMap (Part.text n) ++ []).toArray pre.length
          (pre ++ run.flatMap (Part.text n) ++ []).toArray.size = run.flatMap (Part.text n) := by
        simp [slice_toArray]
      rw [List.flatMap_nil, quantified_end (by simp), hslice]
      simp only [hr, ok_bind]
      simp [hacc]
    · simp [spliceSeq_append, hsplice]
  | .part p :: items, pre, run, acc, hitems, hrun, hsome => by
    -- a part joins the run
    have hp : p.Legible n := hitems (.part p) List.mem_cons_self
    obtain ⟨raw, hq, hraw⟩ := quantified_items hn items pre (run ++ [p]) acc
      (fun i hi => hitems i (List.mem_cons_of_mem _ hi))
      (fun q hq => by
        rcases List.mem_append.1 hq with hq | hq
        · exact hrun q hq
        · rw [List.mem_singleton.1 hq]
          exact hp)
      (by simpa [Item.isRep] using hsome)
    refine ⟨raw, ?_, ?_⟩
    · have hskip := @quantified_skip_mid n (fun p => read n (p.length + 1) p) acc pre.length
        (pre ++ run.flatMap (Part.text n)) (p.text n) (items.flatMap (Item.text n))
        fun c hc => (Part.runChar hn hp hc).not_mark hn
      have h₁ : pre ++ run.flatMap (Part.text n) ++ (Item.part p :: items).flatMap (Item.text n) =
          pre ++ run.flatMap (Part.text n) ++ p.text n ++ items.flatMap (Item.text n) := by
        simp [Item.text]
      have h₂ : pre ++ (run ++ [p]).flatMap (Part.text n) ++ items.flatMap (Item.text n) =
          pre ++ run.flatMap (Part.text n) ++ p.text n ++ items.flatMap (Item.text n) := by
        simp
      simp only [List.length_append] at hskip
      rw [h₁, hskip]
      rw [h₂] at hq
      simpa [Nat.add_assoc] using hq
    · rw [hraw]
      simp [Item.pattern]
  | .rep base k :: items, pre, run, acc, hitems, hrun, _ => by
    -- a repetition closes the run: both are read and the pass goes on after the mark
    obtain ⟨hb, hk⟩ : (∀ p ∈ base, p.Legible n) ∧ k < 10 ^ digitLimit :=
      hitems (.rep base k) List.mem_cons_self
    have hitems' : ∀ i ∈ items, i.Legible n := fun i hi => hitems i (List.mem_cons_of_mem _ hi)
    obtain ⟨r, hr, hsplice⟩ := readsAs_parts hn hrun
    obtain ⟨rb, hrb, hcanon⟩ := read_baseText hn hb
    obtain ⟨raw, hq, hraw⟩ := quantified_items hn items
      (pre ++ run.flatMap (Part.text n) ++ atomText n base ++ markText n k) [] (.rep rb k :: r :: acc)
      hitems' (by simp) (.inl (by simp))
    refine ⟨raw, ?_, ?_⟩
    · rw [List.flatMap_cons, Item.text,
        quantified_rep_step hn hrun hb hk (head_not_glyph_items hn hitems') hr hrb]
      simpa using hq
    · rw [hraw, List.reverse_cons, List.reverse_cons, spliceSeq_append, spliceSeq_append, hsplice,
        spliceSeq_rep_base hcanon]
      simp [Item.pattern]

end Pass

/-! ## Reading written patterns back -/

section ReadBack

variable {n : Notation}

/-- Parsing a text runs the reader on its characters, with fuel for them all. -/
theorem parse_ofList {x : List Char} {r : Pattern} (h : read n (x.length + 1) x = .ok r) :
    parse n (String.ofList x) = .ok (canonicalize r) := by
  rw [parse, String.length_ofList, String.toList_ofList, h]
  rfl

theorem exists_parts : ∀ {items : List Item}, (∀ i ∈ items, i.isRep = false) →
    ∃ ps : List Part, items = ps.map Item.part
  | [], _ => ⟨[], rfl⟩
  | .part p :: items, h => by
    obtain ⟨ps, rfl⟩ := exists_parts fun i hi => h i (List.mem_cons_of_mem _ hi)
    exact ⟨p :: ps, rfl⟩
  | .rep _ _ :: _, h => by simp [Item.isRep] at h

/-- The text of a repetition holds its mark: the star or a subscript glyph. -/
theorem exists_mark_char (hn : Readable n) {items : List Item} {i : Item} (hi : i ∈ items)
    (hrep : i.isRep = true) :
    ∃ c ∈ items.flatMap (Item.text n), c = '*' ∨ c ∈ n.digits.toList := by
  match i, hrep with
  | .rep base k, _ =>
    obtain ⟨c, hc⟩ := List.exists_mem_of_ne_nil _ (markText_trimmed hn k).2
    exact ⟨c, List.mem_flatMap.2 ⟨_, hi, List.mem_append_right _ hc⟩, mem_markText hn hc⟩

/-- The text of a written pattern reads back as the pattern: the null symbol when it has no
items, the repetition pass when one is a repetition, else the run of its parts. -/
theorem Written.parse_text (hn : Readable n) (w : Written n) :
    parse n (String.ofList w.text) = .ok w.pattern := by
  by_cases hnil : w.items = []
  · have htext : w.text = n.null.toList := if_pos hnil
    rw [htext, parse_ofList (read_null_text hn), Written.pattern, hnil]
    rfl
  have htext : w.text = w.items.flatMap (Item.text n) := if_neg hnil
  rw [htext]
  by_cases hrep : ∃ i ∈ w.items, i.isRep = true
  · -- a repetition: its mark is neither the null symbol nor `#`, so the reader's guards pass
    obtain ⟨i, hi, hir⟩ := hrep
    obtain ⟨c, hc, hmark⟩ := exists_mark_char hn hi hir
    have hcnull : c ∉ n.null.toList := by
      obtain ⟨z, hz, hzc, -⟩ := hn.null
      rw [hz, List.mem_singleton]
      rintro rfl
      rcases hmark with h | hg
      · exact hzc.not_star h
      · exact absurd (List.isSome_idxOf?.2 hg) (by rw [← Notation.digitOf, hzc.not_digit]; simp)
    have hch : c ≠ '#' := by
      rintro rfl
      rcases hmark with h | hg
      · exact absurd h (by decide)
      · exact (hn.glyphs _ hg).2.2.1 (by decide)
    obtain ⟨hempty, hnull, hhash⟩ := guards_of_mem hc hcnull hch
    obtain ⟨raw, hq, hraw⟩ := quantified_items hn w.items [] [] [] w.legible (by simp)
      (.inr (List.any_eq_true.2 ⟨i, hi, hir⟩))
    simp only [List.flatMap_nil, List.nil_append, List.length_nil, Nat.add_zero] at hq
    simp only [List.reverse_nil, spliceSeq, List.map_nil, List.nil_append] at hraw
    have hread : read n ((w.items.flatMap (Item.text n)).length + 1)
        (w.items.flatMap (Item.text n)) = .ok (.seq raw) := by
      rw [read_eq_readStep, Text.trim_of_trimmed
        (trimmed_flatMap fun i hi => Item.trimmed hn (w.legible i hi))]
      exact readStep_quantified hempty hnull hhash hq
    rw [parse_ofList hread, canonicalize, hraw]
    rfl
  · -- no repetition: the items are parts, read as one run
    obtain ⟨ps, hps⟩ := exists_parts fun i hi => Bool.eq_false_iff.2 fun h => hrep ⟨i, hi, h⟩
    have hlegible : ∀ p ∈ ps, p.Legible n := fun p hp =>
      w.legible (.part p) (by rw [hps]; exact List.mem_map_of_mem hp)
    obtain ⟨r, hr, hs⟩ := readsAs_parts hn hlegible
    have hparts : w.items.flatMap (Item.text n) = ps.flatMap (Part.text n) := by
      rw [hps, List.flatMap_map]
      rfl
    rw [hparts, parse_ofList hr, canonicalize_of_spliceSeq hs, Written.pattern, hps, List.map_map]
    rfl

/-- **Written patterns read back.** In a readable notation, every written pattern is rendered
without fault, and parsing the text gives the pattern back. Its leaves are symbols written with
one letter, the boundary `#` and feature changes; its parts are leaves and alternations of at
least two distinct runs of leaves, an empty run written as the null symbol; its items are parts
and repetitions of runs of parts, written bare or in parentheses, with a least count written `*`
or in subscript digits. -/
theorem parse_render_written (n : Notation) (hn : Readable n) (w : Written n) :
    (w.pattern.render n).bind (parse n) = .ok w.pattern := by
  rw [Written.render_pattern]
  exact Written.parse_text hn w

/-- In the default notation, `#a{b,Ø}[+voice]₂(cd)*` reads back as the pattern it is written
for: a boundary, a letter, an alternation with an empty option, a feature change repeated at least
twice and a repeated group. -/
theorem parse_render_edge_alternation_and_counts :
    let voiced : FeatureChange := ⟨⟨["voice"], List.pairwise_singleton _ _⟩, .empty⟩
    let w : Written {} := ⟨[.part (.leaf .edge), .part (.leaf (.letter 'a')),
      .part (.alt [[.letter 'b'], []]), .rep [.leaf (.feat voiced)] 2,
      .rep [.leaf (.letter 'c'), .leaf (.letter 'd')] 0], by decide +kernel⟩
    Readable {} ∧ (w.pattern.render {}).bind (parse {}) = .ok w.pattern :=
  ⟨readable_default, parse_render_written {} readable_default _⟩

/-- A symbol `(` before a repeated group is taken into the group when read back: `({ab}*` reads as
`(` followed by `(ab)*`, written `((ab)*`, which reads as the repetition of `(ab`. -/
theorem parse_render_takes_paren_into_group :
    parse {} "({ab}*" = .ok (.seq [.symbol "(", .rep (.seq [.symbol "a", .symbol "b"]) 0]) ∧
      (Pattern.seq [.symbol "(", .rep (.seq [.symbol "a", .symbol "b"]) 0]).render {} =
        .ok "((ab)*" ∧
      parse {} "((ab)*" = .ok (.rep (.seq [.symbol "(", .symbol "a", .symbol "b"]) 0) :=
  ⟨eq_ok_of_toOption (by decide +kernel), eq_ok_of_toOption (by decide +kernel),
    eq_ok_of_toOption (by decide +kernel)⟩

end ReadBack

end Pattern

end SoundLaw
