import SoundLaw.Proofs.ReadBack
import SoundLaw.Proofs.CanonicalForm
import SoundLaw.Proofs.OutputText
import SoundLaw.Proofs.DelimitedSplit

/-!
# Reading back leaves, alternations and the runs they form

Between two repetition marks the reader of patterns meets a *run*: symbols, `#`, feature changes
in brackets and alternations in braces, side by side. It reads a run in three passes — braces,
then brackets, then single characters — and canonicalization splices what each pass found into
one sequence. This module writes such runs from a small grammar and shows that each reads back
as the patterns it was written from:

* `NameChar`, `Letter`, `Readable` — the characters a feature name and a symbol may be written
  with, and the notations whose null symbol and subscript digits stay out of their way;
* `Leaf`, `Part` — a symbol, `#` or feature change, and an alternation of runs of leaves, with
  their text and pattern (`optionPattern` for an option);
* `ReadsAs` — a text read with enough fuel gives a pattern that splices into a sequence as the
  given children; `read_eq_readStep` — enough fuel is the text's length and one;
* `readsAs_plainLeaves` — a run of symbols and `#` reads back character by character;
* `readsAs_leaves` — a run of leaves reads back through the bracket pass;
* `read_options` — the options of an alternation read back, distinct and at least two;
* `readsAs_parts` — a run of leaves and alternations reads back through the brace pass.
-/

namespace SoundLaw

namespace Pattern

/-! ## Characters and notations -/

/-- A character a feature name may be written with: the reader never takes it for a blank, an
option separator, a repetition mark or a delimiter. -/
structure NameChar (n : Notation) (c : Char) : Prop where
  not_blank : Text.isBlank c = false
  not_comma : c ≠ ','
  not_star : c ≠ '*'
  not_digit : n.digitOf c = none
  not_delimiter : c ∉ delimiters

/-- A character written as its own symbol inside an alternation too: a plain character that is
not the comma between options. -/
structure Letter (n : Notation) (c : Char) : Prop extends PlainChar n c where
  not_comma : c ≠ ','

instance (n : Notation) (c : Char) : Decidable (NameChar n c) :=
  decidable_of_iff (Text.isBlank c = false ∧ c ≠ ',' ∧ c ≠ '*' ∧ n.digitOf c = none ∧
      c ∉ delimiters)
    ⟨fun ⟨a, b, d, e, f⟩ => ⟨a, b, d, e, f⟩, fun ⟨a, b, d, e, f⟩ => ⟨a, b, d, e, f⟩⟩

instance (n : Notation) (c : Char) : Decidable (Letter n c) :=
  decidable_of_iff (PlainChar n c ∧ c ≠ ',') ⟨fun ⟨a, b⟩ => ⟨a, b⟩, fun ⟨a, b⟩ => ⟨a, b⟩⟩

theorem Letter.nameChar {n : Notation} {c : Char} (h : Letter n c) : NameChar n c :=
  ⟨h.not_blank, h.not_comma, h.not_star, h.not_digit, h.not_delimiter⟩

/-- The characters the notation writes between names and symbols: `#`, the signs and the space of
a feature change, the comma between options, brackets and braces. -/
def writtenSyntax : List Char :=
  ['#', '+', '-', ' ', ',', '[', ']', Char.ofNat 123, Char.ofNat 125]

/-- A notation in which written patterns stay apart: the null symbol is one character a feature
name may hold, other than `#`, and the subscript digits are ten distinct glyphs, none blank, the
star, a delimiter or a character written between names. -/
structure Readable (n : Notation) : Prop where
  null : ∃ z, n.null.toList = [z] ∧ NameChar n z ∧ z ≠ '#'
  glyphs : ∀ g ∈ n.digits.toList,
    Text.isBlank g = false ∧ g ≠ '*' ∧ g ∉ writtenSyntax ∧ g ∉ delimiters
  distinct : Notation.tenDistinct n.digits.toList = true

section Readable

variable {n : Notation} (hn : Readable n)
include hn

theorem Readable.digitOf_syntax {c : Char} (hc : c ∈ writtenSyntax) : n.digitOf c = none :=
  List.idxOf?_eq_none_iff.2 fun hg => (hn.glyphs c hg).2.2.1 hc

theorem Readable.digitOf_delimiter {c : Char} (hc : c ∈ delimiters) : n.digitOf c = none :=
  List.idxOf?_eq_none_iff.2 fun hg => (hn.glyphs c hg).2.2.2 hc

theorem Readable.digitOf_star : n.digitOf '*' = none :=
  List.idxOf?_eq_none_iff.2 fun hg => (hn.glyphs '*' hg).2.1 rfl

end Readable

/-- The default notation is readable: its null symbol is `Ø` and its digits the subscript ones. -/
theorem readable_default : Readable {} where
  null := ⟨'Ø', by decide, by decide, by decide⟩
  glyphs := @of_decide_eq_true _ (List.decidableBAll _ _) rfl
  distinct := by decide

/-! ## Leaves -/

/-- A leaf of a written pattern: a symbol written with one character, `#`, or a feature change. -/
inductive Leaf
  | letter (c : Char)
  | edge
  | feat (d : FeatureChange)
  deriving DecidableEq

namespace Leaf

/-- The pattern a leaf stands for. -/
def pattern : Leaf → Pattern
  | .letter c => .symbol (String.singleton c)
  | .edge => .boundary
  | .feat d => .features d

/-- The text of a leaf. -/
def text : Leaf → List Char
  | .letter c => [c]
  | .edge => ['#']
  | .feat d => d.render.toList

/-- Whether a leaf is a feature change. -/
def isFeat : Leaf → Bool
  | .feat _ => true
  | _ => false

/-- A leaf the reader takes back: a symbol written with a letter, `#`, or a change whose feature
names are written with name characters. -/
def Legible (n : Notation) : Leaf → Prop
  | .letter c => Letter n c
  | .edge => True
  | .feat d => ∀ x ∈ d.names, ∀ c ∈ x.toList, NameChar n c

instance (n : Notation) : (l : Leaf) → Decidable (l.Legible n)
  | .letter c => inferInstanceAs (Decidable (Letter n c))
  | .edge => inferInstanceAs (Decidable True)
  | .feat d =>
    -- name by name and character by character, not by a search over every character
    have : DecidablePred fun x : String => ∀ c ∈ x.toList, NameChar n c :=
      fun x => List.decidableBAll _ x.toList
    List.decidableBAll _ d.names

end Leaf

/-! ## Alternations and parts -/

/-- The pattern of an option written as a run of leaves: `null` for none. -/
def optionPattern (o : List Leaf) : Pattern := seqOf (o.map Leaf.pattern)

/-- The text of an option: its leaves, or the null symbol for none. -/
def optionText (n : Notation) (o : List Leaf) : List Char :=
  if o = [] then n.null.toList else o.flatMap Leaf.text

/-- A part of a run: a leaf, or an alternation of options. -/
inductive Part
  | leaf (l : Leaf)
  | alt (opts : List (List Leaf))

namespace Part

/-- The pattern a part stands for. -/
def pattern : Part → Pattern
  | .leaf l => l.pattern
  | .alt opts => .alt (opts.map optionPattern)

/-- The text of a part: an alternation is its options between braces, separated by commas. -/
def text (n : Notation) : Part → List Char
  | .leaf l => l.text
  | .alt opts =>
    Char.ofNat 123 :: (List.intercalate [','] (opts.map (optionText n)) ++ [Char.ofNat 125])

/-- Whether a part is an alternation. -/
def isAlt : Part → Bool
  | .alt _ => true
  | .leaf _ => false

/-- A part the reader takes back: a legible leaf, or at least two distinct options of legible
leaves. -/
def Legible (n : Notation) : Part → Prop
  | .leaf l => l.Legible n
  | .alt opts => 2 ≤ opts.length ∧ (opts.map optionPattern).Nodup ∧ ∀ o ∈ opts, ∀ l ∈ o, l.Legible n

instance (n : Notation) : (p : Part) → Decidable (p.Legible n)
  | .leaf l => inferInstanceAs (Decidable (l.Legible n))
  | .alt opts => inferInstanceAs (Decidable (2 ≤ opts.length ∧ (opts.map optionPattern).Nodup ∧
      ∀ o ∈ opts, ∀ l ∈ o, l.Legible n))

end Part


/-! ## The characters of written runs -/

section Chars

variable {n : Notation}

/-- A character of a written run: one a name may hold, or one the notation writes between names. -/
def RunChar (n : Notation) (c : Char) : Prop := NameChar n c ∨ c ∈ writtenSyntax

theorem RunChar.not_mark (hn : Readable n) {c : Char} (hc : RunChar n c) :
    c ≠ '*' ∧ n.digitOf c = none := by
  rcases hc with hc | hc
  · exact ⟨hc.not_star, hc.not_digit⟩
  · refine ⟨fun e => ?_, hn.digitOf_syntax hc⟩
    subst e
    simp [writtenSyntax] at hc

theorem RunChar.not_paren {c : Char} (hc : RunChar n c) : c ≠ '(' ∧ c ≠ ')' := by
  rcases hc with hc | hc
  · exact ⟨fun e => hc.not_delimiter (by simp [e, delimiters]),
      fun e => hc.not_delimiter (by simp [e, delimiters])⟩
  · constructor <;> rintro rfl <;> simp [writtenSyntax] at hc

theorem RunChar.not_blank_or_space {c : Char} (hc : RunChar n c) : Text.isBlank c = false ∨ c = ' ' := by
  rcases hc with hc | hc
  · exact .inl hc.not_blank
  · simp only [writtenSyntax, List.mem_cons, List.not_mem_nil, or_false] at hc
    rcases hc with rfl | rfl | rfl | rfl | rfl | rfl | rfl | rfl | rfl
    all_goals first | exact .inr rfl | exact .inl (by decide)

/-- The inside of a change's brackets: its feature names, the signs before them and the spaces
between them. -/
theorem mem_inner {d : FeatureChange} (hd : ∀ x ∈ d.names, ∀ c ∈ x.toList, NameChar n c)
    {c : Char} (hc : c ∈ (" ".intercalate d.tokens).toList) : NameChar n c ∨ c ∈ ['+', '-', ' '] := by
  rw [String.toList_intercalate, FeatureChange.toList_tokens] at hc
  rcases Text.mem_intercalate hc with hsep | ⟨w, hw, hcw⟩
  · exact .inr (by simp_all)
  · rcases List.mem_append.1 hw with hw | hw <;> obtain ⟨x, hx, rfl⟩ := List.mem_map.1 hw
    · rcases List.mem_cons.1 hcw with rfl | hcw
      · exact .inr (by simp)
      · exact .inl (hd x (List.mem_append_left _ hx) c hcw)
    · rcases List.mem_cons.1 hcw with rfl | hcw
      · exact .inr (by simp)
      · exact .inl (hd x (List.mem_append_right _ hx) c hcw)

/-- Every character of a legible leaf's text is a name character, `#`, a sign, the space or a
bracket. -/
theorem Leaf.mem_text {l : Leaf} (hl : l.Legible n) {c : Char} (hc : c ∈ l.text) :
    NameChar n c ∨ c ∈ ['#', '+', '-', ' ', '[', ']'] := by
  cases l with
  | letter d =>
    rw [Leaf.text, List.mem_singleton] at hc
    exact .inl (hc ▸ Letter.nameChar hl)
  | edge =>
    rw [Leaf.text, List.mem_singleton] at hc
    exact .inr (by simp [hc])
  | feat d =>
    rw [Leaf.text, FeatureChange.render_toList] at hc
    simp only [List.mem_cons, List.mem_append, List.not_mem_nil, or_false] at hc
    rcases hc with rfl | hc | rfl
    · exact .inr (by simp)
    · rcases mem_inner hl hc with hc | hc
      · exact .inl hc
      · simp only [List.mem_cons, List.not_mem_nil, or_false] at hc
        exact .inr (by rcases hc with rfl | rfl | rfl <;> decide)
    · exact .inr (by simp)

theorem Leaf.runChar {l : Leaf} (hl : l.Legible n) {c : Char} (hc : c ∈ l.text) : RunChar n c := by
  rcases l.mem_text hl hc with hc | hc
  · exact .inl hc
  · simp only [List.mem_cons, List.not_mem_nil, or_false] at hc
    exact .inr (by rcases hc with rfl | rfl | rfl | rfl | rfl | rfl <;> decide)

/-- No brace or comma stands in the text of a legible leaf. -/
theorem Leaf.not_brace_comma {l : Leaf} (hl : l.Legible n) {c : Char} (hc : c ∈ l.text) :
    c ≠ Char.ofNat 123 ∧ c ≠ Char.ofNat 125 ∧ c ≠ ',' := by
  rcases l.mem_text hl hc with hc | hc
  · exact ⟨fun e => hc.not_delimiter (by simp [e, delimiters]),
      fun e => hc.not_delimiter (by simp [e, delimiters]), hc.not_comma⟩
  · simp only [List.mem_cons, List.not_mem_nil, or_false] at hc
    rcases hc with rfl | rfl | rfl | rfl | rfl | rfl <;> decide

/-- The text of a leaf that is no feature change is a letter or `#`. -/
theorem Leaf.text_of_not_feat {l : Leaf} (hl : l.Legible n) (hf : l.isFeat = false) :
    ∃ c, l.text = [c] ∧ (Letter n c ∨ c = '#') ∧ ofChar n c = l.pattern := by
  match l, hl, hf with
  | .letter c, hc, _ => exact ⟨c, rfl, .inl hc, ofChar_of_plain hc.toPlainChar⟩
  | .edge, _, _ => exact ⟨'#', rfl, .inr rfl, by simp [ofChar, Leaf.pattern]⟩

theorem Leaf.text_ne_nil (l : Leaf) : l.text ≠ [] := by
  cases l <;> simp [Leaf.text, FeatureChange.render_toList]

/-- The characters of an option's text run characters, given a readable notation. -/
theorem optionText_runChar (hn : Readable n) {o : List Leaf} (ho : ∀ l ∈ o, l.Legible n) {c : Char}
    (hc : c ∈ optionText n o) : RunChar n c := by
  unfold optionText at hc
  split at hc
  · obtain ⟨z, hz, hzc, -⟩ := hn.null
    rw [hz, List.mem_singleton] at hc
    exact .inl (hc ▸ hzc)
  · obtain ⟨l, hl, hcl⟩ := List.mem_flatMap.1 hc
    exact Leaf.runChar (ho l hl) hcl

/-- No brace or comma stands in an option's text. -/
theorem optionText_not_brace_comma (hn : Readable n) {o : List Leaf} (ho : ∀ l ∈ o, l.Legible n)
    {c : Char} (hc : c ∈ optionText n o) : c ≠ Char.ofNat 123 ∧ c ≠ Char.ofNat 125 ∧ c ≠ ',' := by
  unfold optionText at hc
  split at hc
  · obtain ⟨z, hz, hzc, -⟩ := hn.null
    rw [hz, List.mem_singleton] at hc
    subst hc
    exact ⟨fun e => hzc.not_delimiter (by simp [e, delimiters]),
      fun e => hzc.not_delimiter (by simp [e, delimiters]), hzc.not_comma⟩
  · obtain ⟨l, hl, hcl⟩ := List.mem_flatMap.1 hc
    exact Leaf.not_brace_comma (ho l hl) hcl

/-- Every character of a legible part's text is a run character. -/
theorem Part.runChar (hn : Readable n) {p : Part} (hp : p.Legible n) {c : Char} (hc : c ∈ p.text n) :
    RunChar n c := by
  cases p with
  | leaf l => exact Leaf.runChar hp hc
  | alt opts =>
    simp only [Part.text, List.mem_cons, List.mem_append, List.not_mem_nil, or_false] at hc
    rcases hc with rfl | hc | rfl
    · exact .inr (by simp [writtenSyntax])
    · rcases Text.mem_intercalate hc with hc | ⟨w, hw, hcw⟩
      · exact .inr (by simp_all [writtenSyntax])
      · obtain ⟨o, ho, rfl⟩ := List.mem_map.1 hw
        exact optionText_runChar hn (hp.2.2 o ho) hcw
    · exact .inr (by simp [writtenSyntax])

end Chars


/-! ## Delimiters in pairs -/

section Balanced

variable {o c : Char}

/-- Whether the delimiters `o` and `c` of a text come in pairs, each an opening one then a
closing one. -/
def Balanced (o c : Char) (t : List Char) : Prop := ∃ k, Text.delimitersIn o c t = Text.pairs o c k

theorem pairs_add (k m : Nat) : Text.pairs o c k ++ Text.pairs o c m = Text.pairs o c (k + m) := by
  induction k with
  | zero => simp
  | succ k ih => rw [Text.pairs_succ, List.cons_append, List.cons_append, ih, Nat.succ_add,
      Text.pairs_succ]

theorem Balanced.append {x y : List Char} (hx : Balanced o c x) (hy : Balanced o c y) :
    Balanced o c (x ++ y) := by
  obtain ⟨k, hk⟩ := hx
  obtain ⟨m, hm⟩ := hy
  refine ⟨k + m, ?_⟩
  rw [Text.delimitersIn, List.filter_append, ← Text.delimitersIn, ← Text.delimitersIn, hk, hm,
    pairs_add]

theorem delimitersIn_eq_nil {t : List Char} (h : ∀ x ∈ t, x ≠ o ∧ x ≠ c) :
    Text.delimitersIn o c t = [] :=
  List.filter_eq_nil_iff.2 fun x hx => by simp [Text.isDelimiter, (h x hx).1, (h x hx).2]

theorem balanced_of_none {t : List Char} (h : ∀ x ∈ t, x ≠ o ∧ x ≠ c) : Balanced o c t :=
  ⟨0, delimitersIn_eq_nil h⟩

/-- A text without the delimiters, between an opening and a closing one. -/
theorem balanced_wrap {t : List Char} (h : ∀ x ∈ t, x ≠ o ∧ x ≠ c) :
    Balanced o c (o :: (t ++ [c])) := by
  refine ⟨1, ?_⟩
  rw [← List.cons_append, Text.delimitersIn, List.filter_append, List.filter_cons_of_pos (by
      simp [Text.isDelimiter]), ← Text.delimitersIn, delimitersIn_eq_nil h]
  simp [Text.isDelimiter]

theorem balanced_flatMap {α : Type} {f : α → List Char} :
    ∀ {as : List α}, (∀ a ∈ as, Balanced o c (f a)) → Balanced o c (as.flatMap f)
  | [], _ => ⟨0, rfl⟩
  | a :: as, h => by
    rw [List.flatMap_cons]
    exact (h a List.mem_cons_self).append (balanced_flatMap fun b hb => h b (List.mem_cons_of_mem a hb))

/-- Texts whose delimiters come in pairs, joined by a separator without delimiters. -/
theorem balanced_intercalate {sep : List Char} (hsep : ∀ x ∈ sep, x ≠ o ∧ x ≠ c) :
    ∀ {xs : List (List Char)}, (∀ x ∈ xs, Balanced o c x) → Balanced o c (sep.intercalate xs)
  | [], _ => ⟨0, rfl⟩
  | [x], h => by
    rw [List.intercalate_singleton]
    exact h x List.mem_cons_self
  | x :: y :: xs, h => by
    rw [List.intercalate_cons_cons]
    exact ((h x List.mem_cons_self).append (balanced_of_none hsep)).append
      (balanced_intercalate hsep fun z hz => h z (List.mem_cons_of_mem x hz))

/-- A text whose delimiters come in pairs is split at every one of them. -/
theorem splitDelimited_of_balanced {label : String} {t : List Char} (h : Balanced o c t) :
    Text.splitDelimited (String.singleton o) (String.singleton c) label t =
      .ok (Text.splitWhere (Text.isDelimiter o c) t) := by
  obtain ⟨halt, heven⟩ := (Text.alternates_even_iff t).2 h
  rw [Text.splitDelimited_singleton, if_neg (by omega), if_pos halt]

end Balanced

section Delimiters

variable {n : Notation}

/-- A name character is no delimiter. -/
theorem NameChar.ne_delimiter {c d : Char} (hc : NameChar n c) (hd : d ∈ delimiters) : c ≠ d :=
  fun e => hc.not_delimiter (e ▸ hd)

/-- The inside of a change's brackets holds no bracket. -/
theorem inner_not_bracket {d : FeatureChange} (hd : ∀ x ∈ d.names, ∀ c ∈ x.toList, NameChar n c) :
    ∀ x ∈ (" ".intercalate d.tokens).toList, x ≠ '[' ∧ x ≠ ']' := fun x hx => by
  rcases mem_inner hd hx with hx | hx
  · exact ⟨hx.ne_delimiter (by decide), hx.ne_delimiter (by decide)⟩
  · simp only [List.mem_cons, List.not_mem_nil, or_false] at hx
    rcases hx with rfl | rfl | rfl <;> decide

/-- Between an alternation's braces stand its options and the commas between them: no brace. -/
theorem altInside_not_brace (hn : Readable n) {opts : List (List Leaf)}
    (hopts : ∀ o ∈ opts, ∀ l ∈ o, l.Legible n) :
    ∀ x ∈ List.intercalate [','] (opts.map (optionText n)),
      x ≠ Char.ofNat 123 ∧ x ≠ Char.ofNat 125 := fun x hx => by
  rcases Text.mem_intercalate hx with hx | ⟨w, hw, hxw⟩
  · rw [List.mem_singleton] at hx
    subst hx
    decide
  · obtain ⟨o, ho, rfl⟩ := List.mem_map.1 hw
    exact ⟨(optionText_not_brace_comma hn (hopts o ho) hxw).1,
      (optionText_not_brace_comma hn (hopts o ho) hxw).2.1⟩

theorem Leaf.brackets {l : Leaf} (hl : l.Legible n) : Balanced '[' ']' l.text := by
  cases l with
  | letter c =>
    have hc := Letter.nameChar hl
    exact balanced_of_none fun x hx => by
      rw [Leaf.text, List.mem_singleton] at hx
      subst hx
      exact ⟨hc.ne_delimiter (by decide), hc.ne_delimiter (by decide)⟩
  | edge =>
    exact balanced_of_none fun x hx => by
      rw [Leaf.text, List.mem_singleton] at hx
      subst hx
      decide
  | feat d =>
    rw [Leaf.text, FeatureChange.render_toList]
    exact balanced_wrap (inner_not_bracket hl)

/-- The changes in an option's text come in pairs of brackets. -/
theorem optionText_brackets (hn : Readable n) {o : List Leaf} (ho : ∀ l ∈ o, l.Legible n) :
    Balanced '[' ']' (optionText n o) := by
  unfold optionText
  split
  · obtain ⟨z, hz, hzc, -⟩ := hn.null
    rw [hz]
    exact balanced_of_none fun x hx => by
      rw [List.mem_singleton] at hx
      subst hx
      exact ⟨hzc.ne_delimiter (by decide), hzc.ne_delimiter (by decide)⟩
  · exact balanced_flatMap fun l hl => Leaf.brackets (ho l hl)

theorem Part.brackets (hn : Readable n) {p : Part} (hp : p.Legible n) :
    Balanced '[' ']' (p.text n) := by
  cases p with
  | leaf l => exact Leaf.brackets hp
  | alt opts =>
    have hinside : Balanced '[' ']' (List.intercalate [','] (opts.map (optionText n))) :=
      balanced_intercalate (by simp) fun x hx => by
        obtain ⟨o, ho, rfl⟩ := List.mem_map.1 hx
        exact optionText_brackets hn (hp.2.2 o ho)
    rw [Part.text, ← List.cons_append, ← List.singleton_append]
    exact ((balanced_of_none (by simp)).append hinside).append (balanced_of_none (by simp))

theorem Part.braces (hn : Readable n) {p : Part} (hp : p.Legible n) :
    Balanced (Char.ofNat 123) (Char.ofNat 125) (p.text n) := by
  cases p with
  | leaf l => exact balanced_of_none fun x hx =>
      ⟨(Leaf.not_brace_comma hp hx).1, (Leaf.not_brace_comma hp hx).2.1⟩
  | alt opts => exact balanced_wrap (altInside_not_brace hn hp.2.2)

end Delimiters


/-! ## Trimmed texts -/

section Trimmed

variable {n : Notation}

/-- A text between two characters that are not blank starts and ends with them. -/
theorem trimmed_wrap {a b : Char} (ha : Text.isBlank a = false) (hb : Text.isBlank b = false)
    (inner : List Char) : Text.Trimmed (a :: (inner ++ [b])) := by
  refine ⟨fun x hx => ?_, fun x hx => ?_⟩
  · cases hx
    exact ha
  · rw [← List.cons_append, List.getLast?_concat] at hx
    cases hx
    exact hb

theorem trimmed_flatMap {α : Type} {f : α → List Char} :
    ∀ {as : List α}, (∀ a ∈ as, Text.Trimmed (f a) ∧ f a ≠ []) → Text.Trimmed (as.flatMap f)
  | [], _ => ⟨by simp, by simp⟩
  | a :: as, h => by
    rw [List.flatMap_cons]
    exact (h a List.mem_cons_self).1.append
      (trimmed_flatMap fun b hb => h b (List.mem_cons_of_mem a hb)) (h a List.mem_cons_self).2

theorem Leaf.trimmed {l : Leaf} (hl : l.Legible n) : Text.Trimmed l.text ∧ l.text ≠ [] := by
  cases l with
  | letter c => exact ⟨⟨by simpa [Leaf.text] using hl.not_blank, by simpa [Leaf.text] using hl.not_blank⟩,
      by simp [Leaf.text]⟩
  | edge => exact ⟨⟨by simp [Leaf.text]; decide, by simp [Leaf.text]; decide⟩, by simp [Leaf.text]⟩
  | feat d =>
    rw [Leaf.text, FeatureChange.render_toList]
    exact ⟨trimmed_wrap (by decide) (by decide) _, by simp⟩

theorem Part.trimmed {p : Part} (hp : p.Legible n) :
    Text.Trimmed (p.text n) ∧ p.text n ≠ [] := by
  cases p with
  | leaf l => exact Leaf.trimmed hp
  | alt opts => exact ⟨trimmed_wrap (by decide) (by decide) _, by simp [Part.text]⟩

theorem optionText_trimmed (hn : Readable n) {o : List Leaf} (ho : ∀ l ∈ o, l.Legible n) :
    Text.Trimmed (optionText n o) := by
  unfold optionText
  split
  · obtain ⟨z, hz, hzc, -⟩ := hn.null
    rw [hz]
    exact ⟨by simpa using hzc.not_blank, by simpa using hzc.not_blank⟩
  · exact trimmed_flatMap fun l hl => Leaf.trimmed (ho l hl)

end Trimmed

/-! ## Splicing what was read -/

/-- What a pattern splices into a sequence as: nothing for `null`, the children of a sequence,
and any other pattern as itself. -/
def children : Pattern → List Pattern
  | .null => []
  | .seq qs => qs
  | q => [q]

/-- A sequence splices each child as the children of its canonical form. -/
theorem spliceSeq_cons_eq (r : Pattern) (rs : List Pattern) :
    spliceSeq (r :: rs) = children (canonicalize r) ++ spliceSeq rs := by
  rw [spliceSeq]
  generalize canonicalize r = q
  cases q <;> rfl

/-- A canonical form is the collapsed sequence of what it splices as: a canonical sequence has
two children or more. -/
theorem canonicalize_eq_seqOf_children (r : Pattern) :
    canonicalize r = seqOf (children (canonicalize r)) := by
  have hcan := isCanonical_canonicalize r
  generalize canonicalize r = q at hcan ⊢
  cases q with
  | seq qs => rw [children, seqOf_of_two_le ((isCanonical_seq qs).1 hcan).1]
  | _ => rfl

/-- What splices as `ps` has the collapsed sequence of `ps` for canonical form. -/
theorem canonicalize_of_spliceSeq {r : Pattern} {ps : List Pattern} (h : spliceSeq [r] = ps) :
    canonicalize r = seqOf ps := by
  rw [spliceSeq_cons_eq, spliceSeq, List.append_nil] at h
  rw [canonicalize_eq_seqOf_children, h]

/-- Patterns that may stand in a sequence are what their collapsed sequence splices as. -/
theorem children_seqOf {ps : List Pattern} (h : ∀ p ∈ ps, fitsSeq p = true) :
    children (seqOf ps) = ps := by
  match ps, h with
  | [], _ => rfl
  | [p], h =>
    have hp := h p List.mem_cons_self
    cases p <;> simp_all [fitsSeq, isSeq, children, seqOf]
  | _ :: _ :: _, _ => rfl

/-- A sequence read from pieces splices as the pieces themselves do. -/
theorem spliceSeq_seq (gs : List Pattern) : spliceSeq [.seq gs] = spliceSeq gs := by
  rw [spliceSeq_cons_eq, spliceSeq, List.append_nil, canonicalize]
  exact children_seqOf fun q hq =>
    (spliceSeq_canonical gs (fun p _ => isCanonical_canonicalize p) q hq).1

theorem Leaf.canonical (l : Leaf) : canonicalize l.pattern = l.pattern ∧ fitsSeq l.pattern = true := by
  cases l <;> exact ⟨by simp [Leaf.pattern, canonicalize], rfl⟩

/-- Leaves are spliced as they are. -/
theorem spliceSeq_leaves (ls : List Leaf) : spliceSeq (ls.map Leaf.pattern) = ls.map Leaf.pattern :=
  spliceSeq_of_canonical _ fun p hp => by
    obtain ⟨l, -, rfl⟩ := List.mem_map.1 hp
    exact l.canonical

/-! ## Reading with enough fuel -/

section Reading

variable {n : Notation}

/-- The text `x`, read with fuel for its length, gives a pattern that splices into a sequence as
the children `ps`. -/
def ReadsAs (n : Notation) (x : List Char) (ps : List Pattern) : Prop :=
  ∃ r, read n (x.length + 1) x = .ok r ∧ spliceSeq [r] = ps

/-- A text holding a character that is neither in the null symbol nor `#` passes the reader's
guards: it is not empty, not the null symbol and not `#`. -/
theorem guards_of_mem {t : List Char} {c : Char} (hc : c ∈ t) (hnull : c ∉ n.null.toList)
    (hhash : c ≠ '#') : t ≠ [] ∧ t ≠ n.null.toList ∧ t ≠ ['#'] :=
  ⟨List.ne_nil_of_mem hc, fun e => hnull (e ▸ hc), fun e => hhash (List.mem_singleton.1 (e ▸ hc))⟩

/-- No delimiter is the null symbol of a readable notation. -/
theorem Readable.delimiter_not_null (hn : Readable n) {d : Char} (hd : d ∈ delimiters) :
    d ∉ n.null.toList := by
  obtain ⟨z, hz, hzc, -⟩ := hn.null
  rw [hz, List.mem_singleton]
  exact fun e => hzc.ne_delimiter hd e.symm

/-- Fuel for the length of a text is enough for it and for every piece its reading reads again. -/
theorem read_eq_readStep (x : List Char) :
    read n (x.length + 1) x = readStep n (fun p => read n (p.length + 1) p) (Text.trim x) := by
  rw [read_succ]
  apply readStep_congr
  intro p hp
  have hx := Text.length_trim_le x
  have hp' := Text.length_trim_le p
  exact read_fuel (by omega) (by omega)

/-- How the bracket pass reads its pieces: an inside piece as a feature change, an outside piece
with `sub`. -/
def bracketPiece (sub : List Char → Except SoundError Pattern) :
    List Char × Nat → Except SoundError Pattern :=
  fun (part, i) =>
    if i % 2 = 1 then .ok (.features (FeatureChange.parse (String.ofList part))) else sub part

/-- How the brace pass reads its pieces: an inside piece as the alternation of its options, an
outside piece with `sub`. -/
def bracePiece (sub : List Char → Except SoundError Pattern) :
    List Char × Nat → Except SoundError Pattern :=
  fun (part, i) =>
    if i % 2 = 1 then (Text.splitWhere (· == ',') part).mapM sub >>= fun os => .ok (.alt os)
    else sub part

theorem braces_singleton :
    "\x7b" = String.singleton (Char.ofNat 123) ∧ "\x7d" = String.singleton (Char.ofNat 125) :=
  ⟨rfl, rfl⟩

theorem brackets_singleton : "[" = String.singleton '[' ∧ "]" = String.singleton ']' := ⟨rfl, rfl⟩

section Step

variable {sub : List Char → Except SoundError Pattern} {t : List Char}
  (hempty : t ≠ []) (hnull : t ≠ n.null.toList) (hhash : t ≠ ['#'])
include hempty hnull hhash

theorem guards : (t.isEmpty || t == n.null.toList) = false ∧ (t == ['#']) = false := by
  simp [hempty, hnull, hhash]

/-- A text with a repetition mark reads as its repetition pass found it. -/
theorem readStep_quantified {p : Pattern} (hq : quantified n sub t.toArray [] 0 0 = .ok (some p)) :
    readStep n sub t = .ok p := by
  obtain ⟨hg, hh⟩ := guards hempty hnull hhash
  unfold readStep
  simp only [hg, hh, Bool.false_eq_true, if_false, hq, ok_bind]

/-- A text without marks, braces or brackets reads as its characters one after another. -/
theorem readStep_plain (hq : quantified n sub t.toArray [] 0 0 = .ok none)
    (hbraces : Text.splitDelimited "\x7b" "\x7d" "braces" t = .ok [t])
    (hbrackets : Text.splitDelimited "[" "]" "brackets" t = .ok [t]) :
    readStep n sub t = .ok (.seq ((t.filter fun c => !Text.isBlank c).map (ofChar n))) := by
  obtain ⟨hg, hh⟩ := guards hempty hnull hhash
  unfold readStep
  simp only [hg, hh, Bool.false_eq_true, if_false, hq, ok_bind, hbraces, hbrackets,
    List.length_singleton, Nat.lt_irrefl]

/-- A text without marks or braces, with brackets, reads as the pieces between its brackets. -/
theorem readStep_brackets (hq : quantified n sub t.toArray [] 0 0 = .ok none)
    (hbraces : Text.splitDelimited "\x7b" "\x7d" "braces" t = .ok [t]) {pieces : List (List Char)}
    (hbrackets : Text.splitDelimited "[" "]" "brackets" t = .ok pieces) (hmany : 1 < pieces.length)
    {gs : List Pattern} (hgs : pieces.zipIdx.mapM (bracketPiece sub) = .ok gs) :
    readStep n sub t = .ok (.seq gs) := by
  obtain ⟨hg, hh⟩ := guards hempty hnull hhash
  unfold readStep
  simp only [hg, hh, Bool.false_eq_true, if_false, hq, ok_bind, hbraces, hbrackets,
    List.length_singleton, Nat.lt_irrefl, if_pos hmany]
  -- the pass reads its pieces as `bracketPiece` does
  erw [hgs]
  rfl

/-- A text without marks, with braces, reads as the pieces between its braces. -/
theorem readStep_braces (hq : quantified n sub t.toArray [] 0 0 = .ok none)
    {pieces : List (List Char)} (hbraces : Text.splitDelimited "\x7b" "\x7d" "braces" t = .ok pieces)
    (hmany : 1 < pieces.length) {gs : List Pattern}
    (hgs : pieces.zipIdx.mapM (bracePiece sub) = .ok gs) :
    readStep n sub t = .ok (.seq gs) := by
  obtain ⟨hg, hh⟩ := guards hempty hnull hhash
  unfold readStep
  simp only [hg, hh, Bool.false_eq_true, if_false, hq, ok_bind, hbraces, if_pos hmany]
  -- the pass reads its pieces as `bracePiece` does
  erw [hgs]
  rfl

end Step

end Reading


/-! ## Runs of leaves -/

section Leaves

variable {n : Notation}

/-- A text without braces is one piece for the brace pass. -/
theorem splitDelimited_braces_of_none {t : List Char}
    (h : ∀ c ∈ t, c ≠ Char.ofNat 123 ∧ c ≠ Char.ofNat 125) :
    Text.splitDelimited "\x7b" "\x7d" "braces" t = .ok [t] := by
  rw [braces_singleton.1, braces_singleton.2]
  exact Text.splitDelimited_of_forall_not_cut (by simp) fun c hc => by simp [(h c hc).1, (h c hc).2]

/-- The letters and `#` of leaves that are no feature changes, one character each. -/
theorem plainLeaves_chars : ∀ {ls : List Leaf}, (∀ l ∈ ls, l.Legible n ∧ l.isFeat = false) →
    ∃ cs : List Char, ls.flatMap Leaf.text = cs ∧ (∀ c ∈ cs, Letter n c ∨ c = '#') ∧
      cs.map (ofChar n) = ls.map Leaf.pattern
  | [], _ => ⟨[], rfl, by simp, rfl⟩
  | l :: ls, h => by
    obtain ⟨c, hc, hcl, hof⟩ :=
      Leaf.text_of_not_feat (h l List.mem_cons_self).1 (h l List.mem_cons_self).2
    obtain ⟨cs, hcs, hall, hmap⟩ := plainLeaves_chars fun l' hl' => h l' (List.mem_cons_of_mem l hl')
    refine ⟨c :: cs, by rw [List.flatMap_cons, hc, hcs]; rfl, fun d hd => ?_, by
      rw [List.map_cons, hof, hmap, List.map_cons]⟩
    rcases List.mem_cons.1 hd with rfl | hd
    · exact hcl
    · exact hall d hd

/-- A run of symbols and `#` reads back character by character: as `null` when empty, as `#`
alone, and otherwise through the last pass. -/
theorem readsAs_plainLeaves (hn : Readable n) {ls : List Leaf}
    (hls : ∀ l ∈ ls, l.Legible n ∧ l.isFeat = false) :
    ReadsAs n (ls.flatMap Leaf.text) (ls.map Leaf.pattern) := by
  obtain ⟨cs, hcs, hall, hmap⟩ := plainLeaves_chars hls
  obtain ⟨z, hz, -, hzh⟩ := hn.null
  rw [hcs]
  -- each character is a letter or `#`: no blank, mark or delimiter
  have hblank : ∀ c ∈ cs, Text.isBlank c = false := fun c hc => by
    rcases hall c hc with h | rfl
    · exact h.not_blank
    · decide
  have hmark : ∀ c ∈ cs, c ≠ '*' ∧ n.digitOf c = none := fun c hc => by
    rcases hall c hc with h | rfl
    · exact ⟨h.not_star, h.not_digit⟩
    · exact ⟨by decide, hn.digitOf_syntax (by decide)⟩
  have hdelim : ∀ c ∈ cs, c ∉ delimiters := fun c hc => by
    rcases hall c hc with h | rfl
    · exact h.not_delimiter
    · decide
  have htrim : Text.trim cs = cs := Text.trim_of_forall_not_blank hblank
  by_cases hnil : cs = []
  · subst hnil
    exact ⟨.null, rfl, by rw [← hmap]; rfl⟩
  by_cases hhash : cs = ['#']
  · subst hhash
    refine ⟨.boundary, ?_, by rw [← hmap]; simp [ofChar, spliceSeq, canonicalize]⟩
    have hne : (['#'] == n.null.toList) = false := by simp [hz, Ne.symm hzh]
    rw [read_eq_readStep, htrim]
    simp [readStep, hne]
  have hnull : cs ≠ n.null.toList := by
    rw [hz]
    rintro rfl
    rcases hall z (List.mem_singleton_self z) with h | h
    · exact h.not_null (by rw [hz]; exact List.mem_singleton_self z)
    · exact hzh h
  refine ⟨.seq ((cs.filter fun c => !Text.isBlank c).map (ofChar n)), ?_, ?_⟩
  · rw [read_eq_readStep, htrim]
    exact readStep_plain hnil hnull hhash (quantified_eq_none hmark)
      (splitDelimited_of_no_delimiter rfl (by simp [delimiters]) (by simp [delimiters]) hdelim)
      (splitDelimited_of_no_delimiter rfl (by simp [delimiters]) (by simp [delimiters]) hdelim)
  · rw [List.filter_eq_self.2 (by simpa using hblank), spliceSeq_seq, hmap, spliceSeq_leaves]

/-- A letter or `#` is no bracket. -/
theorem not_bracket_of_plain {c : Char} (h : Letter n c ∨ c = '#') :
    Text.isDelimiter '[' ']' c = false := by
  rcases h with h | rfl
  · simp [Text.isDelimiter, h.ne_delimiter (show '[' ∈ delimiters by decide),
      h.ne_delimiter (show ']' ∈ delimiters by decide)]
  · decide

/-- The bracket pass over the text of leaves, from an even place on, with the letters and `#` of
`run` already passed over, reads the run, each change and the rest into pieces that splice as the
run's patterns and then the leaves'. -/
theorem mapM_bracketPiece (hn : Readable n) :
    ∀ (ls run : List Leaf) (k : Nat), k % 2 = 0 → (∀ l ∈ run, l.Legible n ∧ l.isFeat = false) →
      (∀ l ∈ ls, l.Legible n) →
      ∃ gs, ((Text.splitWhere (Text.isDelimiter '[' ']')
          (run.flatMap Leaf.text ++ ls.flatMap Leaf.text)).zipIdx k).mapM
            (bracketPiece fun p => read n (p.length + 1) p) = .ok gs ∧
        spliceSeq gs = run.map Leaf.pattern ++ ls.map Leaf.pattern
  | [], run, k, hk, hrun, _ => by
    -- the run since the last change is the last piece
    obtain ⟨r, hr, hsplice⟩ := readsAs_plainLeaves hn hrun
    obtain ⟨cs, hcs, hall, -⟩ := plainLeaves_chars hrun
    refine ⟨[r], ?_, by rw [hsplice, List.map_nil, List.append_nil]⟩
    rw [List.flatMap_nil, List.append_nil, hcs,
      Text.splitWhere_of_forall_not_cut fun c hc => not_bracket_of_plain (hall c hc),
      List.zipIdx_singleton]
    rw [hcs] at hr
    exact mapM_cons_ok (by simp only [bracketPiece, if_neg (show ¬k % 2 = 1 by omega)]; exact hr) rfl
  | l :: ls, run, k, hk, hrun, hls => by
    have hrest : ∀ l' ∈ ls, l'.Legible n := fun l' h => hls l' (List.mem_cons_of_mem l h)
    cases hf : l.isFeat with
    | false =>
      -- a letter or `#` joins the run
      obtain ⟨gs, hgs, hsplice⟩ := mapM_bracketPiece hn ls (run ++ [l]) k hk
        (fun l' h => by
          rcases List.mem_append.1 h with h | h
          · exact hrun l' h
          · rw [List.mem_singleton.1 h]
            exact ⟨hls l List.mem_cons_self, hf⟩) hrest
      refine ⟨gs, ?_, by rw [hsplice]; simp⟩
      rw [List.flatMap_append, List.flatMap_singleton, List.append_assoc] at hgs
      simpa using hgs
    | true =>
      -- a change ends the run: the run, the change's inside, then the rest
      match l, hls l List.mem_cons_self, hf with
      | .feat d, hd, _ =>
        obtain ⟨gs, hgs, hsplice⟩ := mapM_bracketPiece hn ls [] (k + 2) (by omega) (by simp) hrest
        obtain ⟨r, hr, hr'⟩ := readsAs_plainLeaves hn hrun
        obtain ⟨cs, hcs, hall, -⟩ := plainLeaves_chars hrun
        have hinner : ∀ c ∈ (" ".intercalate d.tokens).toList, Text.isDelimiter '[' ']' c = false := by
          intro c hc
          rcases mem_inner hd hc with hc | hc
          · simp [Text.isDelimiter, hc.ne_delimiter (show '[' ∈ delimiters by decide),
              hc.ne_delimiter (show ']' ∈ delimiters by decide)]
          · simp only [List.mem_cons, List.not_mem_nil, or_false] at hc
            rcases hc with rfl | rfl | rfl <;> decide
        have htext : run.flatMap Leaf.text ++ (Leaf.feat d :: ls).flatMap Leaf.text =
            cs ++ '[' :: ((" ".intercalate d.tokens).toList ++ ']' :: ls.flatMap Leaf.text) := by
          simp [hcs, Leaf.text, FeatureChange.render_toList]
        rw [hcs] at hr
        refine ⟨r :: .features d :: gs, ?_, ?_⟩
        · rw [htext, Text.splitWhere_append_cut (by decide) fun c hc => not_bracket_of_plain (hall c hc),
            Text.splitWhere_append_cut (by decide) hinner, List.zipIdx_cons, List.zipIdx_cons]
          refine mapM_cons_ok ?_ (mapM_cons_ok ?_ (by simpa using hgs))
          · simp only [bracketPiece, if_neg (show ¬k % 2 = 1 by omega)]
            exact hr
          · simp only [bracketPiece, if_pos (show (k + 1) % 2 = 1 by omega), String.ofList_toList,
              FeatureChange.parse_inner d fun x hx c hc => (hd x hx c hc).not_blank]
        · rw [show r :: .features d :: gs = [r] ++ [(Leaf.feat d).pattern] ++ gs from rfl,
            spliceSeq_append, spliceSeq_append, hr', hsplice,
            spliceSeq_of_canonical _ fun p hp => by
              rw [List.mem_singleton.1 hp]
              exact (Leaf.feat d).canonical]
          simp

/-- A run of leaves reads back: through the bracket pass when it holds a feature change, else
character by character. -/
theorem readsAs_leaves (hn : Readable n) {ls : List Leaf} (hls : ∀ l ∈ ls, l.Legible n) :
    ReadsAs n (ls.flatMap Leaf.text) (ls.map Leaf.pattern) := by
  by_cases hf : ∃ l ∈ ls, l.isFeat = true
  · obtain ⟨l, hl, hlf⟩ := hf
    -- the text holds the change's `[`
    have hopen : '[' ∈ ls.flatMap Leaf.text := by
      match l, hlf with
      | .feat d, _ =>
        exact List.mem_flatMap.2 ⟨_, hl, by simp [Leaf.text, FeatureChange.render_toList]⟩
    obtain ⟨hempty, hnull, hhash⟩ :=
      guards_of_mem hopen (hn.delimiter_not_null (by decide)) (by decide)
    have hchars : ∀ c ∈ ls.flatMap Leaf.text, RunChar n c := fun c hc => by
      obtain ⟨l, hl, hcl⟩ := List.mem_flatMap.1 hc
      exact Leaf.runChar (hls l hl) hcl
    obtain ⟨gs, hgs, hsplice⟩ := mapM_bracketPiece hn ls [] 0 rfl (by simp) hls
    simp only [List.flatMap_nil, List.nil_append, List.map_nil] at hgs hsplice
    refine ⟨.seq gs, ?_, by rw [spliceSeq_seq, hsplice]⟩
    rw [read_eq_readStep, Text.trim_of_trimmed (trimmed_flatMap fun l hl => Leaf.trimmed (hls l hl))]
    refine readStep_brackets hempty hnull hhash
      (quantified_eq_none fun c hc => (hchars c hc).not_mark hn)
      (splitDelimited_braces_of_none fun c hc => by
        obtain ⟨l, hl, hcl⟩ := List.mem_flatMap.1 hc
        exact ⟨(Leaf.not_brace_comma (hls l hl) hcl).1, (Leaf.not_brace_comma (hls l hl) hcl).2.1⟩)
      (by rw [brackets_singleton.1, brackets_singleton.2]
          exact splitDelimited_of_balanced (balanced_flatMap fun l hl => Leaf.brackets (hls l hl)))
      ?_ hgs
    -- the `[` cuts the text in two pieces at least
    rw [Text.length_splitWhere]
    have : '[' ∈ (ls.flatMap Leaf.text).filter (Text.isDelimiter '[' ']') :=
      List.mem_filter.2 ⟨hopen, by decide⟩
    have := List.length_pos_of_mem this
    omega
  · exact readsAs_plainLeaves hn fun l hl => ⟨hls l hl, Bool.eq_false_iff.2 fun h => hf ⟨l, hl, h⟩⟩

end Leaves


/-! ## Alternations and runs of parts -/

section Parts

variable {n : Notation}

/-- Pieces without the cut character, joined by it, are cut back into themselves. -/
theorem splitWhere_intercalate {cut : Char → Bool} {d : Char} (hd : cut d = true) :
    ∀ {xs : List (List Char)}, xs ≠ [] → (∀ x ∈ xs, ∀ c ∈ x, cut c = false) →
      Text.splitWhere cut (List.intercalate [d] xs) = xs
  | [x], _, h => by
    rw [List.intercalate_singleton]
    exact Text.splitWhere_of_forall_not_cut (h x List.mem_cons_self)
  | x :: y :: xs, _, h => by
    rw [List.intercalate_cons_cons, List.append_assoc, List.singleton_append,
      Text.splitWhere_append_cut hd (h x List.mem_cons_self),
      splitWhere_intercalate hd (List.cons_ne_nil _ _) fun z hz => h z (List.mem_cons_of_mem x hz)]

theorem optionPattern_not_alt (o : List Leaf) : (optionPattern o).isAlt = false := by
  match o with
  | [] => rfl
  | [l] => cases l <;> rfl
  | _ :: _ :: _ => rfl

/-- The null symbol reads as `null`. -/
theorem read_null_text (hn : Readable n) : read n (n.null.toList.length + 1) n.null.toList = .ok .null := by
  obtain ⟨z, hz, hzc, -⟩ := hn.null
  have htrim : Text.trim n.null.toList = n.null.toList := by
    rw [hz]
    exact Text.trim_of_forall_not_blank fun c hc => by
      rw [List.mem_singleton.1 hc]
      exact hzc.not_blank
  rw [read_eq_readStep, htrim]
  simp [readStep]

/-- An option reads back as its pattern: the null symbol as `null`, leaves as their run. -/
theorem read_option (hn : Readable n) {o : List Leaf} (ho : ∀ l ∈ o, l.Legible n) :
    ∃ r, read n ((optionText n o).length + 1) (optionText n o) = .ok r ∧
      canonicalize r = optionPattern o := by
  by_cases h : o = []
  · subst h
    exact ⟨.null, read_null_text hn, rfl⟩
  · obtain ⟨r, hr, hs⟩ := readsAs_leaves hn ho
    rw [optionText, if_neg h]
    exact ⟨r, hr, canonicalize_of_spliceSeq hs⟩

/-- The options of an alternation read back one by one. -/
theorem mapM_options (hn : Readable n) :
    ∀ {opts : List (List Leaf)}, (∀ o ∈ opts, ∀ l ∈ o, l.Legible n) →
      ∃ rs, (opts.map (optionText n)).mapM (fun p => read n (p.length + 1) p) = .ok rs ∧
        rs.map canonicalize = opts.map optionPattern
  | [], _ => ⟨[], rfl, rfl⟩
  | o :: opts, h => by
    obtain ⟨r, hr, hc⟩ := read_option hn (h o List.mem_cons_self)
    obtain ⟨rs, hrs, hcs⟩ := mapM_options hn fun o' ho' => h o' (List.mem_cons_of_mem o ho')
    exact ⟨r :: rs, mapM_cons_ok hr hrs, by rw [List.map_cons, hc, hcs, List.map_cons]⟩

/-- Options none of which canonicalizes to an alternation are spliced as their canonical forms. -/
theorem spliceAlt_of_not_alt :
    ∀ {rs : List Pattern}, (∀ r ∈ rs, (canonicalize r).isAlt = false) →
      spliceAlt rs = rs.map canonicalize
  | [], _ => rfl
  | r :: rs, h => by
    have ih := spliceAlt_of_not_alt fun r' hr' => h r' (List.mem_cons_of_mem r hr')
    have hr := h r List.mem_cons_self
    rw [spliceAlt, List.map_cons]
    generalize canonicalize r = q at hr ⊢
    cases q with
    | alt qs => simp [isAlt] at hr
    | _ => rw [ih]

/-- Options read back as at least two distinct option patterns form their alternation. -/
theorem canonicalize_alt_options {rs : List Pattern} {opts : List (List Leaf)}
    (hcs : rs.map canonicalize = opts.map optionPattern) (hlen : 2 ≤ opts.length)
    (hnd : (opts.map optionPattern).Nodup) :
    canonicalize (.alt rs) = .alt (opts.map optionPattern) := by
  have hnot : ∀ r ∈ rs, (canonicalize r).isAlt = false := by
    intro r hr
    have hmem : canonicalize r ∈ opts.map optionPattern := hcs ▸ List.mem_map_of_mem hr
    obtain ⟨o, -, ho⟩ := List.mem_map.1 hmem
    rw [← ho]
    exact optionPattern_not_alt o
  rw [canonicalize, spliceAlt_of_not_alt hnot, hcs, keepFirst_of_nodup (by simpa using hnd),
    List.reverse_nil, List.nil_append, altOf_of_length_ne_one (by simp; omega)]

/-- A brace is not a letter or a feature name's character. -/
theorem not_brace_of_leaves {ls : List Leaf} (hls : ∀ l ∈ ls, l.Legible n) :
    ∀ c ∈ ls.flatMap Leaf.text, Text.isDelimiter (Char.ofNat 123) (Char.ofNat 125) c = false := by
  intro c hc
  obtain ⟨l, hl, hcl⟩ := List.mem_flatMap.1 hc
  obtain ⟨h₁, h₂, -⟩ := Leaf.not_brace_comma (hls l hl) hcl
  simp [Text.isDelimiter, h₁, h₂]

/-- The brace pass over the text of parts, from an even place on, with the leaves of `run`
already passed over, reads the run, each alternation and the rest into pieces that splice as the
run's patterns and then the parts'. -/
theorem mapM_bracePiece (hn : Readable n) :
    ∀ (ps : List Part) (run : List Leaf) (k : Nat), k % 2 = 0 → (∀ l ∈ run, l.Legible n) →
      (∀ p ∈ ps, p.Legible n) →
      ∃ gs, ((Text.splitWhere (Text.isDelimiter (Char.ofNat 123) (Char.ofNat 125))
          (run.flatMap Leaf.text ++ ps.flatMap (Part.text n))).zipIdx k).mapM
            (bracePiece fun p => read n (p.length + 1) p) = .ok gs ∧
        spliceSeq gs = run.map Leaf.pattern ++ ps.map Part.pattern
  | [], run, k, hk, hrun, _ => by
    -- the run since the last alternation is the last piece
    obtain ⟨r, hr, hsplice⟩ := readsAs_leaves hn hrun
    refine ⟨[r], ?_, by rw [hsplice, List.map_nil, List.append_nil]⟩
    rw [List.flatMap_nil, List.append_nil, Text.splitWhere_of_forall_not_cut (not_brace_of_leaves hrun),
      List.zipIdx_singleton]
    exact mapM_cons_ok (by simp only [bracePiece, if_neg (show ¬k % 2 = 1 by omega)]; exact hr) rfl
  | .leaf l :: ps, run, k, hk, hrun, hps => by
    -- a leaf joins the run
    obtain ⟨gs, hgs, hsplice⟩ := mapM_bracePiece hn ps (run ++ [l]) k hk
      (fun l' h => by
        rcases List.mem_append.1 h with h | h
        · exact hrun l' h
        · rw [List.mem_singleton.1 h]
          exact hps (.leaf l) List.mem_cons_self)
      fun p hp => hps p (List.mem_cons_of_mem _ hp)
    refine ⟨gs, ?_, by rw [hsplice]; simp [Part.pattern]⟩
    rw [List.flatMap_append, List.flatMap_singleton, List.append_assoc] at hgs
    simpa [Part.text] using hgs
  | .alt opts :: ps, run, k, hk, hrun, hps => by
    -- an alternation ends the run: the run, the options between the braces, then the rest
    have hopts : Part.Legible n (.alt opts) := hps (.alt opts) List.mem_cons_self
    obtain ⟨gs, hgs, hsplice⟩ := mapM_bracePiece hn ps [] (k + 2) (by omega) (by simp)
      fun p hp => hps p (List.mem_cons_of_mem _ hp)
    obtain ⟨r, hr, hr'⟩ := readsAs_leaves hn hrun
    obtain ⟨rs, hrs, hcs⟩ := mapM_options hn hopts.2.2
    have hinside : ∀ c ∈ List.intercalate [','] (opts.map (optionText n)),
        Text.isDelimiter (Char.ofNat 123) (Char.ofNat 125) c = false := by
      intro c hc
      rcases Text.mem_intercalate hc with hc | ⟨w, hw, hcw⟩
      · rw [List.mem_singleton.1 hc]
        decide
      · obtain ⟨o, ho, rfl⟩ := List.mem_map.1 hw
        obtain ⟨h₁, h₂, -⟩ := optionText_not_brace_comma hn (hopts.2.2 o ho) hcw
        simp [Text.isDelimiter, h₁, h₂]
    have hoptions : Text.splitWhere (· == ',') (List.intercalate [','] (opts.map (optionText n))) =
        opts.map (optionText n) := by
      refine splitWhere_intercalate (by decide) (fun h => by
        have := hopts.1
        rw [List.map_eq_nil_iff.1 h] at this
        simp at this) fun x hx c hc => ?_
      obtain ⟨o, ho, rfl⟩ := List.mem_map.1 hx
      simpa using (optionText_not_brace_comma hn (hopts.2.2 o ho) hc).2.2
    have htext : run.flatMap Leaf.text ++ (Part.alt opts :: ps).flatMap (Part.text n) =
        run.flatMap Leaf.text ++ Char.ofNat 123 :: (List.intercalate [','] (opts.map (optionText n)) ++
          Char.ofNat 125 :: ps.flatMap (Part.text n)) := by
      simp [Part.text]
    refine ⟨r :: .alt rs :: gs, ?_, ?_⟩
    · rw [htext, Text.splitWhere_append_cut (by decide) (not_brace_of_leaves hrun),
        Text.splitWhere_append_cut (by decide) hinside, List.zipIdx_cons, List.zipIdx_cons]
      refine mapM_cons_ok ?_ (mapM_cons_ok ?_ (by simpa using hgs))
      · simp only [bracePiece, if_neg (show ¬k % 2 = 1 by omega)]
        exact hr
      · simp only [bracePiece, if_pos (show (k + 1) % 2 = 1 by omega), hoptions, hrs, ok_bind]
    · rw [show r :: .alt rs :: gs = [r] ++ [.alt rs] ++ gs from rfl, spliceSeq_append,
        spliceSeq_append, hr', hsplice, spliceSeq_cons_eq,
        canonicalize_alt_options hcs hopts.1 hopts.2.1]
      simp [children, spliceSeq, Part.pattern]

/-- Parts without alternations are leaves. -/
theorem exists_leaves : ∀ {ps : List Part}, (∀ p ∈ ps, p.isAlt = false) →
    ∃ ls : List Leaf, ps = ls.map Part.leaf
  | [], _ => ⟨[], rfl⟩
  | .leaf l :: ps, h => by
    obtain ⟨ls, rfl⟩ := exists_leaves fun p hp => h p (List.mem_cons_of_mem _ hp)
    exact ⟨l :: ls, rfl⟩
  | .alt _ :: _, h => by simp [Part.isAlt] at h

/-- A run of leaves and alternations reads back: through the brace pass when it holds an
alternation, else as a run of leaves. -/
theorem readsAs_parts (hn : Readable n) {ps : List Part} (hps : ∀ p ∈ ps, p.Legible n) :
    ReadsAs n (ps.flatMap (Part.text n)) (ps.map Part.pattern) := by
  by_cases ha : ∃ p ∈ ps, p.isAlt = true
  · obtain ⟨p, hp, hpa⟩ := ha
    -- the text holds the alternation's opening brace
    have hopen : Char.ofNat 123 ∈ ps.flatMap (Part.text n) := by
      match p, hpa with
      | .alt opts, _ => exact List.mem_flatMap.2 ⟨_, hp, by simp [Part.text]⟩
    obtain ⟨hempty, hnull, hhash⟩ :=
      guards_of_mem hopen (hn.delimiter_not_null (by decide)) (by decide)
    have hchars : ∀ c ∈ ps.flatMap (Part.text n), RunChar n c := fun c hc => by
      obtain ⟨p, hp, hcp⟩ := List.mem_flatMap.1 hc
      exact Part.runChar hn (hps p hp) hcp
    obtain ⟨gs, hgs, hsplice⟩ := mapM_bracePiece hn ps [] 0 rfl (by simp) hps
    simp only [List.flatMap_nil, List.nil_append, List.map_nil] at hgs hsplice
    refine ⟨.seq gs, ?_, by rw [spliceSeq_seq, hsplice]⟩
    rw [read_eq_readStep, Text.trim_of_trimmed (trimmed_flatMap fun p hp => Part.trimmed (hps p hp))]
    refine readStep_braces hempty hnull hhash
      (quantified_eq_none fun c hc => (hchars c hc).not_mark hn)
      (by rw [braces_singleton.1, braces_singleton.2]
          exact splitDelimited_of_balanced (balanced_flatMap fun p hp => Part.braces hn (hps p hp)))
      ?_ hgs
    -- the opening brace cuts the text in two pieces at least
    rw [Text.length_splitWhere]
    have : Char.ofNat 123 ∈ (ps.flatMap (Part.text n)).filter
        (Text.isDelimiter (Char.ofNat 123) (Char.ofNat 125)) :=
      List.mem_filter.2 ⟨hopen, by decide⟩
    have := List.length_pos_of_mem this
    omega
  · obtain ⟨ls, rfl⟩ := exists_leaves fun p hp => Bool.eq_false_iff.2 fun h => ha ⟨p, hp, h⟩
    have htext : (ls.map Part.leaf).flatMap (Part.text n) = ls.flatMap Leaf.text := by
      simp [List.flatMap_map, Part.text]
    have hpat : (ls.map Part.leaf).map Part.pattern = ls.map Leaf.pattern := by
      simp [Part.pattern]
    rw [htext, hpat]
    exact readsAs_leaves hn fun l hl => hps (.leaf l) (List.mem_map_of_mem hl)

end Parts


/-! ## Writing runs -/

section Render

variable {n : Notation}

/-- Patterns each written as a text are written, one after another, as those texts. -/
theorem renderList_map {α : Type} {f : α → Pattern} {t : α → List Char} :
    ∀ {as : List α}, (∀ a ∈ as, (f a).render n = .ok (String.ofList (t a))) →
      renderList n (as.map f) = .ok (as.map fun a => String.ofList (t a))
  | [], _ => rfl
  | a :: as, h => by
    simp only [List.map_cons, renderList, h a List.mem_cons_self, ok_bind,
      renderList_map fun b hb => h b (List.mem_cons_of_mem a hb)]

theorem join_ofList {α : Type} (t : α → List Char) (as : List α) :
    String.join (as.map fun a => String.ofList (t a)) = String.ofList (as.flatMap t) := by
  induction as with
  | nil => rfl
  | cons a as ih => rw [List.map_cons, String.join_cons, ih, List.flatMap_cons, String.ofList_append]

/-- The collapsed sequence of patterns each written as a text is written as their texts one after
another, or as the null symbol when there are none. -/
theorem render_seqOf_map {α : Type} {f : α → Pattern} {t : α → List Char} {as : List α}
    (h : ∀ a ∈ as, (f a).render n = .ok (String.ofList (t a))) :
    (seqOf (as.map f)).render n =
      .ok (String.ofList (if as = [] then n.null.toList else as.flatMap t)) := by
  match as, h with
  | [], _ => simp [seqOf, render]
  | [a], h => simpa [seqOf] using h a List.mem_cons_self
  | a :: b :: as, h =>
    rw [show seqOf ((a :: b :: as).map f) = .seq ((a :: b :: as).map f) from rfl, render,
      renderList_map h, ok_bind, join_ofList, if_neg (List.cons_ne_nil _ _)]

theorem Leaf.render_pattern (l : Leaf) : l.pattern.render n = .ok (String.ofList l.text) := by
  cases l with
  | letter c =>
    simp only [Leaf.pattern, Leaf.text, render]
    rw [String.singleton_eq_ofList]
  | edge => rfl
  | feat d => simp [Leaf.pattern, Leaf.text, render]

theorem render_optionPattern (o : List Leaf) :
    (optionPattern o).render n = .ok (String.ofList (optionText n o)) := by
  rw [optionPattern, render_seqOf_map fun l _ => Leaf.render_pattern l, optionText]

theorem Part.render_pattern (p : Part) : p.pattern.render n = .ok (String.ofList (p.text n)) := by
  cases p with
  | leaf l => exact Leaf.render_pattern l
  | alt opts =>
    rw [Part.pattern, render, renderList_map fun o _ => render_optionPattern o, ok_bind]
    congr 1
    rw [← String.ofList_toList (s := "\x7b" ++ ",".intercalate _ ++ "\x7d")]
    congr 1
    simp [Part.text, String.toList_intercalate, List.map_map, Function.comp_def]

end Render

end Pattern

end SoundLaw
