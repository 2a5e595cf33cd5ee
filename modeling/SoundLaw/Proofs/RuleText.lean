import SoundLaw.Proofs.OutputText
import SoundLaw.Proofs.Anchors
import SoundLaw.Proofs.WrittenPatterns

/-!
# Reading a rule back from its text

`Rule.render` writes a compiled rule in canonical notation: the input, the arrow, the output (the
null symbol when it is empty), a slash, and the contexts around `_`. Compiling that text again
gives a rule with the same three patterns and the same substitution on every span, failures and
notices included, whenever the text separates its parts: each pattern reads back from its
rendering, the arrow's first character is no space and does not occur in the rendered input, `_`
does not occur in the rendered `before` context, the null symbol is one character other than a
blank, a bracket or the slash, and no class specification holds a bracket or a slash.

The anchor flags do not survive in general. `compile` reads them off the text, not the patterns:
the rule compiled again is word-initial when its trimmed rendered `before` context starts with
`#`, and word-final when its trimmed rendered `after` context ends with `#`. So `Ø → e / {#}_`,
which is not word-initial, is written `Ø → e / #_`, which is.

* `splitOnce_append`, `splitOnce_single` — cutting a text at the first occurrence of a separator;
* `Rule.compile_of_cuts` — what `compile` reads from a text cut at its arrow, slash and `_`;
* `Rule.compile_ok` — what every compiled rule keeps of its notation;
* `Rule.compile_layout` — a text laid out as a rule's is read part by part;
* `Rule.compile_render` — a separable rule read back from its text;
* `Rule.Separable.of_written`, `Rule.compile_render_written` — rules whose patterns are written
  patterns of a readable notation separate their parts, and so read back from their text;
* `Rule.initial_flag_read_from_text` — the flag lost on `Ø → e / {#}_`.
-/

namespace SoundLaw

/-! ## Cutting a text at a separator -/

/-- A text is cut at the first place its separator starts: when it starts nowhere before `x`
ends, `x ++ sep ++ y` is cut into `x` and `y`. -/
theorem splitOnce_append {sep y : List Char} (hsep : sep ≠ []) :
    ∀ {x : List Char}, (∀ k < x.length, ¬sep <+: (x ++ sep ++ y).drop k) →
      splitOnce sep (x ++ sep ++ y) = some (x, y)
  | [], _ => by
    obtain ⟨s, sep', rfl⟩ := List.exists_cons_of_ne_nil hsep
    rw [List.nil_append, List.cons_append, splitOnce,
      if_pos (List.isPrefixOf_iff_prefix.2 (by simp)), ← List.cons_append, List.drop_left]
  | c :: x, hx => by
    have hnot : sep.isPrefixOf (c :: (x ++ sep ++ y)) = false := by
      cases h : sep.isPrefixOf (c :: (x ++ sep ++ y)) with
      | false => rfl
      | true => exact absurd (List.isPrefixOf_iff_prefix.1 h) (hx 0 (by simp))
    rw [List.cons_append, List.cons_append, splitOnce, hnot, if_neg Bool.false_ne_true,
      splitOnce_append hsep fun k hk => by simpa using hx (k + 1) (by simp; omega)]
    rfl

/-- A separator that starts at a place inside `x` starts with the character of `x` there. -/
theorem mem_of_prefix_drop {sep x z : List Char} {a : Char} (ha : sep.head? = some a) {k : Nat}
    (hk : k < x.length) (hpre : sep <+: (x ++ z).drop k) : a ∈ x := by
  obtain ⟨s, sep', rfl⟩ := List.exists_cons_of_ne_nil (show sep ≠ [] from fun e => by simp [e] at ha)
  cases ha
  rw [List.drop_append_of_le_length (Nat.le_of_lt hk), List.drop_eq_getElem_cons hk, List.cons_append,
    List.cons_prefix_cons] at hpre
  exact hpre.1 ▸ List.getElem_mem hk

/-- A single character cuts a text at its first occurrence. -/
theorem splitOnce_single_append {c : Char} {x y : List Char} (hx : c ∉ x) :
    splitOnce [c] (x ++ [c] ++ y) = some (x, y) :=
  splitOnce_append (List.cons_ne_nil _ _) fun _ hk hpre =>
    hx (mem_of_prefix_drop rfl hk (by simpa only [List.append_assoc] using hpre))

/-- A text holding a character other than a space does not start right after a space put
before it. -/
theorem not_prefix_space_cons : ∀ {w z : List Char}, (∃ d ∈ w, d ≠ ' ') → ¬w <+: ' ' :: (w ++ z)
  | [], _, ⟨_, hd, _⟩ => absurd hd List.not_mem_nil
  | c :: w, z, ⟨d, hd, hne⟩ => by
    intro hpre
    rw [List.cons_append, List.cons_prefix_cons] at hpre
    obtain ⟨rfl, hpre⟩ := hpre
    rcases List.mem_cons.1 hd with rfl | hd
    · exact hne rfl
    · exact not_prefix_space_cons ⟨d, hd, hne⟩ hpre

/-- Cut at the first occurrence of a single character, a text is what comes before it, which
does not hold it, the character, and what follows. -/
theorem splitOnce_single {c : Char} :
    ∀ {l a b : List Char}, splitOnce [c] l = some (a, b) → c ∉ a ∧ l = a ++ c :: b
  | [], a, b, h => by simp [splitOnce] at h
  | d :: l, a, b, h => by
    unfold splitOnce at h
    by_cases hpre : [c].isPrefixOf (d :: l) = true
    · rw [if_pos hpre] at h
      cases h
      have hdc : c = d := by simpa [List.isPrefixOf] using hpre
      exact ⟨List.not_mem_nil, by simp [hdc]⟩
    · rw [if_neg hpre] at h
      cases hrest : splitOnce [c] l with
      | none => simp [hrest] at h
      | some ab =>
        obtain ⟨a', b'⟩ := ab
        rw [hrest] at h
        cases h
        obtain ⟨hca, hl⟩ := splitOnce_single hrest
        have hdc : c ≠ d := fun e => hpre (by simp [e, List.isPrefixOf])
        exact ⟨by simp [hca, hdc], by simp [hl]⟩

/-- The arrow of a valid notation holds a character other than a space. -/
theorem Notation.exists_not_space_arrow {n : Notation} (hvalid : n.flaws = []) :
    ∃ d ∈ n.arrow.toList, d ≠ ' ' := by
  have harrow : Text.trim n.arrow.toList ≠ [] := by
    intro h
    simp [Notation.flaws, h] at hvalid
  obtain ⟨d, t, ht⟩ := List.exists_cons_of_ne_nil harrow
  have hblank := (Text.trimmed_trim n.arrow.toList).1 d (by rw [ht]; rfl)
  refine ⟨d, Text.mem_of_mem_trim (by rw [ht]; exact List.mem_cons_self), fun e => ?_⟩
  subst e
  exact absurd hblank (by decide)

namespace Rule

variable {n : Notation} {inv : Inventory}

/-! ## Compiling a text -/

/-- What `compile` reads from a text cut at its first arrow, at the first slash after it, and at
the first `_` of the trimmed contexts. -/
theorem compile_of_cuts {text : String} {i rem o e a b : List Char}
    (h₁ : splitOnce n.arrow.toList text.toList = some (i, rem))
    (h₂ : splitOnce ['/'] rem = some (o, e)) (h₃ : splitOnce ['_'] (Text.trim e) = some (a, b)) :
    compile n inv text = (do
      let input ← Pattern.parse n (String.ofList i)
      let before ← Pattern.parse n (String.ofList (Text.trim a))
      let after ← Pattern.parse n (String.ofList (Text.trim b))
      let output ← readOutput n inv (Text.trim o)
      .ok ⟨text, n, inv, input, before, after, output, (Text.trim a).head? == some '#',
        (Text.trim b).getLast? == some '#'⟩) := by
  have hfocus : (Text.trim e).contains '_' = true := by
    rw [(splitOnce_single h₃).2]
    simp
  unfold compile
  simp only [h₁, h₂, h₃, hfocus, Bool.not_true, Bool.and_false, Bool.false_eq_true, if_false]

/-- A compiled rule keeps the notation and the inventory, and its output was read from a text
with no slash. -/
theorem compile_ok {text : String} {r : Rule} (h : compile n inv text = .ok r) :
    r.glyphs = n ∧ r.inventory = inv ∧
      ∃ spec : List Char, (∀ c ∈ spec, c ≠ '/') ∧ readOutput n inv spec = .ok r.output := by
  unfold compile at h
  split at h
  · rename_i inputSpec remainder _
    split at h
    · rename_i outputSpec env hslash
      dsimp only at h
      split at h
      · cases h
      · obtain ⟨_, _, h⟩ := exists_of_bind_ok h
        obtain ⟨_, _, h⟩ := exists_of_bind_ok h
        obtain ⟨_, _, h⟩ := exists_of_bind_ok h
        obtain ⟨output, hout, h⟩ := exists_of_bind_ok h
        cases h
        -- the output text lies before the first slash
        refine ⟨rfl, rfl, Text.trim outputSpec, fun c hc e => ?_, hout⟩
        exact (splitOnce_single hslash).1 (e ▸ Text.mem_of_mem_trim hc)
    · cases h
  · cases h

/-! ## Compiling a text laid out as a rule's -/

/-- A text whose first part lacks the arrow's first character is cut at the arrow written after
that part and a space. -/
theorem splitOnce_arrow (hvalid : n.flaws = []) {a : Char} (harrow : n.arrow.toList.head? = some a)
    {x : List Char} (hx : a ∉ x) (z : List Char) :
    splitOnce n.arrow.toList (x ++ ' ' :: (n.arrow.toList ++ z)) = some (x ++ [' '], z) := by
  have htext : x ++ ' ' :: (n.arrow.toList ++ z) = (x ++ [' ']) ++ n.arrow.toList ++ z := by
    simp
  rw [htext]
  refine splitOnce_append (fun e => by simp [e] at harrow) fun k hk hpre => ?_
  rw [List.length_append, List.length_singleton] at hk
  by_cases hinside : k < x.length
  · -- inside `x` the arrow's first character is missing
    rw [List.append_assoc, List.append_assoc] at hpre
    exact hx (mem_of_prefix_drop harrow hinside hpre)
  · -- at the space after it the arrow would have to start with spaces only
    have hk : k = x.length := by omega
    subst hk
    rw [List.append_assoc, List.append_assoc, List.drop_left, List.singleton_append] at hpre
    exact not_prefix_space_cons (Notation.exists_not_space_arrow hvalid) hpre

/-- An output written between spaces and holding no slash is cut at the slash after it. -/
theorem splitOnce_slash {o : List Char} (ho : '/' ∉ o) (z : List Char) :
    splitOnce ['/'] (' ' :: (o ++ ' ' :: '/' :: z)) = some (' ' :: (o ++ [' ']), z) := by
  have htext : ' ' :: (o ++ ' ' :: '/' :: z) = (' ' :: (o ++ [' '])) ++ ['/'] ++ z := by
    simp
  rw [htext]
  refine splitOnce_single_append fun hc => ?_
  simp only [List.mem_cons, List.mem_append, List.not_mem_nil, or_false] at hc
  rcases hc with hc | hc | hc
  · exact absurd hc (by decide)
  · exact ho hc
  · exact absurd hc (by decide)

/-- Two contexts written around `_` after a space are cut, once trimmed, at that `_` when the
first holds none; the two sides trim as the two contexts do. -/
theorem splitOnce_focus {pre : List Char} (hpre : '_' ∉ pre) (post : List Char) :
    ∃ x y, splitOnce ['_'] (Text.trim (' ' :: (pre ++ '_' :: post))) = some (x, y) ∧
      Text.trim x = Text.trim pre ∧ Text.trim y = Text.trim post := by
  obtain ⟨x, y, htrim, hx, hy, hsub⟩ :=
    Text.trim_cut (x := ' ' :: pre) (y := post) (c := '_') (by decide)
  refine ⟨x, y, ?_, by rw [hx, Text.trim_space_cons], hy⟩
  rw [show ' ' :: (pre ++ '_' :: post) = (' ' :: pre) ++ '_' :: post from rfl, htrim,
    show x ++ '_' :: y = x ++ ['_'] ++ y by simp]
  refine splitOnce_single_append fun hc => ?_
  rcases List.mem_cons.1 (hsub '_' hc) with h | h
  · exact absurd h (by decide)
  · exact hpre h

/-- A text laid out as `render` lays a rule out is read part by part: its input, its two contexts
and its trimmed output, with the anchor flags taken from the trimmed contexts. The input must
lack the arrow's first character, the output a slash, and the `before` context `_`. -/
theorem compile_layout (hvalid : n.flaws = []) {a : Char} (harrow : n.arrow.toList.head? = some a)
    {input shown pre post : String} (hin : a ∉ input.toList) (hslash : '/' ∉ shown.toList)
    (hfocus : '_' ∉ pre.toList) :
    compile n inv (input ++ " " ++ n.arrow ++ " " ++ shown ++ " / " ++ pre ++ "_" ++ post) = (do
      let i ← Pattern.parse n input
      let b ← Pattern.parse n pre
      let e ← Pattern.parse n post
      let o ← readOutput n inv (Text.trim shown.toList)
      .ok ⟨input ++ " " ++ n.arrow ++ " " ++ shown ++ " / " ++ pre ++ "_" ++ post, n, inv,
        i, b, e, o, (Text.trim pre.toList).head? == some '#',
        (Text.trim post.toList).getLast? == some '#'⟩) := by
  -- the text, with its three separators in place
  have htext : (input ++ " " ++ n.arrow ++ " " ++ shown ++ " / " ++ pre ++ "_" ++ post).toList =
      input.toList ++ ' ' :: (n.arrow.toList ++ ' ' :: (shown.toList ++
        ' ' :: '/' :: ' ' :: (pre.toList ++ '_' :: post.toList))) := by
    simp
  have hcut := splitOnce_arrow hvalid harrow hin
    (' ' :: (shown.toList ++ ' ' :: '/' :: ' ' :: (pre.toList ++ '_' :: post.toList)))
  rw [← htext] at hcut
  obtain ⟨x, y, hcut₃, hx, hy⟩ := splitOnce_focus hfocus post.toList
  have hinput : Pattern.parse n (String.ofList (input.toList ++ [' '])) = Pattern.parse n input :=
    Pattern.parse_of_trim_eq (by rw [String.toList_ofList, Text.trim_append_space])
  have hbefore : Pattern.parse n (String.ofList (Text.trim x)) = Pattern.parse n pre :=
    Pattern.parse_of_trim_eq (by rw [String.toList_ofList, Text.trim_trim, hx])
  have hafter : Pattern.parse n (String.ofList (Text.trim y)) = Pattern.parse n post :=
    Pattern.parse_of_trim_eq (by rw [String.toList_ofList, Text.trim_trim, hy])
  rw [compile_of_cuts hcut (splitOnce_slash hslash _) hcut₃, hinput, hbefore, hafter, hx, hy,
    Text.trim_space_cons, Text.trim_append_space]

/-! ## The text of a rule -/

/-- The text `render` writes for a context: nothing for `null`, else its rendering. -/
def contextText (n : Notation) (p : Pattern) : Except SoundError String :=
  if p = .null then .ok "" else p.render n

/-- The rule's text, its parts written one after another. -/
theorem render_eq_bind (r : Rule) : r.render = (do
      let pre ← contextText r.glyphs r.before
      let post ← contextText r.glyphs r.after
      let input ← r.input.render r.glyphs
      let out := String.join (r.output.map (slotText r.glyphs))
      .ok (input ++ " " ++ r.glyphs.arrow ++ " " ++ (if out.isEmpty then r.glyphs.null else out) ++
        " / " ++ pre ++ "_" ++ post)) := by
  unfold render contextText
  by_cases hb : r.before = .null <;> by_cases ha : r.after = .null <;>
    simp only [hb, ha, if_true, if_false]

/-- A pattern that reads back from its rendering. -/
def ReadsBack (n : Notation) (p : Pattern) : Prop :=
  ∃ s, p.render n = .ok s ∧ Pattern.parse n s = .ok p

theorem exists_contextText {p : Pattern} (hp : ReadsBack n p) : ∃ t, contextText n p = .ok t := by
  unfold contextText
  split
  · exact ⟨"", rfl⟩
  · obtain ⟨s, hs, _⟩ := hp
    exact ⟨s, hs⟩

/-- A context reads back from the text `render` writes for it. -/
theorem parse_contextText {p : Pattern} {t : String} (hp : ReadsBack n p)
    (h : contextText n p = .ok t) : Pattern.parse n t = .ok p := by
  unfold contextText at h
  split at h
  · rename_i hnull
    cases h
    rw [hnull]
    rfl
  · obtain ⟨s, hs, hps⟩ := hp
    rw [hs] at h
    cases h
    exact hps

/-- The text of an output: the texts of its slots, or the null symbol for no slot. -/
theorem shown_toList (hnull : SimpleNull n) {slots : List Slot}
    (hs : ∀ s ∈ slots, Legible n inv s) :
    (if (String.join (slots.map (slotText n))).isEmpty then n.null
      else String.join (slots.map (slotText n))).toList =
      outText n (if slots = [] then [.delete] else slots) := by
  have hjoin : (String.join (slots.map (slotText n))).toList = outText n slots := by
    simp [outText, String.toList_join, List.flatMap_map]
  cases slots with
  | nil => simp [outText, slotText]
  | cons s rest =>
    have hne : outText n (s :: rest) ≠ [] := outText_ne_nil hnull (hs s List.mem_cons_self)
    have hfull : (String.join ((s :: rest).map (slotText n))).isEmpty = false := by
      cases h : (String.join ((s :: rest).map (slotText n))).isEmpty with
      | false => rfl
      | true =>
        exfalso
        apply hne
        rw [← hjoin, String.isEmpty_iff.1 h]
        rfl
    rw [if_neg (by rw [hfull]; decide), if_neg (List.cons_ne_nil s rest), hjoin]

/-! ## Substitution depends on the inventory and the output only -/

theorem substitute_congr {r r' : Rule} (hinv : r'.inventory = r.inventory)
    (hout : r'.output = r.output) : r'.substitute = r.substitute := by
  cases r
  cases r'
  cases hinv
  cases hout
  rfl

/-- An empty output and a lone deletion write the same for every span. -/
theorem substitute_delete_of_nil {r r' : Rule} (hout : r.output = [])
    (hout' : r'.output = [.delete]) (span : List Phoneme) :
    r'.substitute span = r.substitute span := by
  simp [substitute, bySlot, hout, hout']

/-! ## The round trip -/

/-- A rule whose text separates its parts: the three patterns read back from their renderings,
the arrow's first character does not occur in the rendered input, and `_` does not occur in the
rendered `before` context. -/
structure Separable (r : Rule) : Prop where
  input : ReadsBack r.glyphs r.input
  before : ReadsBack r.glyphs r.before
  after : ReadsBack r.glyphs r.after
  arrow : ∃ a, r.glyphs.arrow.toList.head? = some a ∧
    ∀ s, r.input.render r.glyphs = .ok s → a ∉ s.toList
  focus : ∀ s, r.before.render r.glyphs = .ok s → '_' ∉ s.toList

theorem compile_render_of_separable (n : Notation) (inv : Inventory) (text : String) (r : Rule)
    (hvalid : n.flaws = []) (hnull : SimpleNull n) (hclasses : PlainClasses n)
    (hr : compile n inv text = .ok r) (hsep : r.Separable) :
    ∃ s pre post r', contextText n r.before = .ok pre ∧ contextText n r.after = .ok post ∧
      r.render = .ok s ∧ compile n inv s = .ok r' ∧
      r'.input = r.input ∧ r'.before = r.before ∧ r'.after = r.after ∧
      (∀ span, r'.substitute span = r.substitute span) ∧
      r'.initial = ((Text.trim pre.toList).head? == some '#') ∧
      r'.final = ((Text.trim post.toList).getLast? == some '#') := by
  obtain ⟨hglyphs, hinv, spec, hspec, hout⟩ := compile_ok hr
  have hleg := legible_of_readOutput hclasses hspec hout
  obtain ⟨sI, hsI, hpI⟩ := hsep.input
  obtain ⟨a, harrow, hnotin⟩ := hsep.arrow
  rw [hglyphs] at hsI hpI harrow hnotin
  have hB := hsep.before
  have hA := hsep.after
  rw [hglyphs] at hB hA
  obtain ⟨pre, hpre⟩ := exists_contextText hB
  obtain ⟨post, hpost⟩ := exists_contextText hA
  -- no `_` in the written `before` context
  have hfocus : '_' ∉ pre.toList := by
    unfold contextText at hpre
    split at hpre
    · cases hpre
      simp
    · exact hsep.focus pre (hglyphs ▸ hpre)
  -- the written output is the text of legible slots, a lone deletion when there are none
  let slots := if r.output = [] then [Slot.delete] else r.output
  have hslots : ∀ s ∈ slots, Legible n inv s := by
    intro s hs
    by_cases hnil : r.output = []
    · simp only [slots, if_pos hnil, List.mem_singleton] at hs
      subst hs
      trivial
    · simp only [slots, if_neg hnil] at hs
      exact hleg s hs
  let out := String.join (r.output.map (slotText n))
  let shown := if out.isEmpty then n.null else out
  have hshown : shown.toList = outText n slots := shown_toList hnull hleg
  let s := sI ++ " " ++ n.arrow ++ " " ++ shown ++ " / " ++ pre ++ "_" ++ post
  have hrender : r.render = .ok s := by
    rw [render_eq_bind, hglyphs, hpre, Pattern.ok_bind, hpost, Pattern.ok_bind, hsI,
      Pattern.ok_bind]
  -- the output is written without a slash and reads back as the slots
  have hslash : '/' ∉ shown.toList := by
    rw [hshown]
    exact fun hc => not_slash_outText hnull hslots '/' hc rfl
  have houtput : readOutput n inv (Text.trim shown.toList) = .ok slots := by
    rw [hshown, Text.trim_of_trimmed (trimmed_outText hnull hslots)]
    exact readOutput_outText hnull hslots
  let r' : Rule := ⟨s, n, inv, r.input, r.before, r.after, slots,
    (Text.trim pre.toList).head? == some '#', (Text.trim post.toList).getLast? == some '#'⟩
  have hcompile : compile n inv s = .ok r' := by
    rw [compile_layout hvalid harrow (hnotin sI hsI) hslash hfocus, hpI, Pattern.ok_bind,
      parse_contextText hB hpre, Pattern.ok_bind, parse_contextText hA hpost, Pattern.ok_bind,
      houtput, Pattern.ok_bind]
  refine ⟨s, pre, post, r', hpre, hpost, hrender, hcompile, rfl, rfl, rfl, fun span => ?_, rfl, rfl⟩
  -- the output read again is the rule's, or a lone deletion for an empty one
  by_cases hnil : r.output = []
  · exact substitute_delete_of_nil hnil (by simp [r', slots, hnil]) span
  · exact congrFun (substitute_congr hinv.symm (by simp [r', slots, hnil])) span

/-- A rule compiled from a text, written out and compiled again, has the same patterns and the
same substitution on every span, failures and notices included, when its text separates its
parts. Its anchor flags are read off the text: word-initial when the trimmed written `before`
context starts with `#`, word-final when the trimmed written `after` context ends with `#`. -/
theorem compile_render (n : Notation) (inv : Inventory) (text : String) (r : Rule)
    (hvalid : n.flaws = []) (hnull : SimpleNull n) (hclasses : PlainClasses n)
    (hr : compile n inv text = .ok r) (hsep : r.Separable) :
    ∃ s pre post r', contextText n r.before = .ok pre ∧ contextText n r.after = .ok post ∧
      r.render = .ok s ∧ compile n inv s = .ok r' ∧
      r'.input = r.input ∧ r'.before = r.before ∧ r'.after = r.after ∧
      (∀ span, r'.substitute span = r.substitute span) ∧
      r'.initial = ((Text.trim pre.toList).head? == some '#') ∧
      r'.final = ((Text.trim post.toList).getLast? == some '#') :=
  compile_render_of_separable n inv text r hvalid hnull hclasses hr hsep

/-- `Ø → e / {#}_` read back from its text `Ø → e / #_` keeps its patterns and its
substitution; the `before` context of that text starts with `#`. -/
theorem boundary_context_round_trip :
    let inv : Inventory := ⟨[⟨"a", .empty⟩, ⟨"b", .empty⟩, ⟨"e", .empty⟩], none⟩
    ∃ r, compile {} inv "Ø → e / \x7b#\x7d_" = .ok r ∧
      ∃ s pre post r', contextText {} r.before = .ok pre ∧ contextText {} r.after = .ok post ∧
        r.render = .ok s ∧ compile {} inv s = .ok r' ∧
        r'.input = r.input ∧ r'.before = r.before ∧ r'.after = r.after ∧
        (∀ span, r'.substitute span = r.substitute span) ∧
        r'.initial = ((Text.trim pre.toList).head? == some '#') ∧
        r'.final = ((Text.trim post.toList).getLast? == some '#') := by
  intro inv
  obtain ⟨r, hr, hparts⟩ := exists_ok_of_toOption_map
    (f := fun r => (r.glyphs, r.input, r.before, r.after))
    (show (compile {} inv "Ø → e / \x7b#\x7d_").toOption.map _ =
      some ({}, .null, .boundary, .null) by decide +kernel)
  simp only [Prod.mk.injEq] at hparts
  obtain ⟨hg, hi, hb, ha⟩ := hparts
  have hnull : Pattern.parse {} "Ø" = .ok .null :=
    Pattern.eq_ok_of_toOption (by decide +kernel)
  have hhash : Pattern.parse {} "#" = .ok .boundary :=
    Pattern.eq_ok_of_toOption (by decide +kernel)
  refine ⟨r, hr, compile_render {} inv _ r (by decide +kernel) ⟨'Ø', rfl, by decide, by decide⟩
    (plainClasses_of_specs (by simp [stops])) hr ⟨?_, ?_, ?_, ?_, ?_⟩⟩
  · rw [hg, hi]
    exact ⟨"Ø", rfl, hnull⟩
  · rw [hg, hb]
    exact ⟨"#", rfl, hhash⟩
  · rw [hg, ha]
    exact ⟨"Ø", rfl, hnull⟩
  · rw [hg, hi]
    refine ⟨'→', rfl, fun s hs => ?_⟩
    cases hs
    decide +kernel
  · rw [hg, hb]
    intro s hs
    cases hs
    decide +kernel

/-! ## Rules of written patterns -/

/-- A written pattern reads back from its rendering. -/
theorem readsBack_written {n : Notation} (hn : Pattern.Readable n) (w : Pattern.Written n) :
    ReadsBack n w.pattern :=
  ⟨_, Pattern.Written.render_pattern w, Pattern.Written.parse_text hn w⟩

/-- A rule whose three patterns are written patterns of its readable notation separates its parts,
once the arrow's first character is not written in its input and `_` is not written in its `before`
context. -/
theorem Separable.of_written {n : Notation} {r : Rule} (hg : r.glyphs = n) (hn : Pattern.Readable n)
    {wI wB wA : Pattern.Written n} (hI : r.input = wI.pattern) (hB : r.before = wB.pattern)
    (hA : r.after = wA.pattern) (harrow : ∃ a ∈ n.arrow.toList.head?, a ∉ wI.text)
    (hfocus : '_' ∉ wB.text) : r.Separable where
  input := by
    rw [hg, hI]
    exact readsBack_written hn wI
  before := by
    rw [hg, hB]
    exact readsBack_written hn wB
  after := by
    rw [hg, hA]
    exact readsBack_written hn wA
  arrow := by
    obtain ⟨a, ha, hnot⟩ := harrow
    refine ⟨a, hg ▸ ha, fun s hs => ?_⟩
    rw [hg, hI, Pattern.Written.render_pattern] at hs
    cases hs
    rwa [String.toList_ofList]
  focus := fun s hs => by
    rw [hg, hB, Pattern.Written.render_pattern] at hs
    cases hs
    rwa [String.toList_ofList]

/-- **Rules of written patterns read back.** In a valid, readable notation whose null symbol is
simple and whose classes are plain, a compiled rule whose input and contexts are written patterns
is written out and compiled again to the same patterns and the same substitution on every span,
with its anchor flags read off the text, as long as the arrow's first character is not written in
the input and `_` is not written in the `before` context. -/
theorem compile_render_written (n : Notation) (inv : Inventory) (text : String) (r : Rule)
    (hvalid : n.flaws = []) (hnull : SimpleNull n) (hclasses : PlainClasses n)
    (hn : Pattern.Readable n) (hr : compile n inv text = .ok r) {wI wB wA : Pattern.Written n}
    (hI : r.input = wI.pattern) (hB : r.before = wB.pattern) (hA : r.after = wA.pattern)
    (harrow : ∃ a ∈ n.arrow.toList.head?, a ∉ wI.text) (hfocus : '_' ∉ wB.text) :
    ∃ s pre post r', contextText n r.before = .ok pre ∧ contextText n r.after = .ok post ∧
      r.render = .ok s ∧ compile n inv s = .ok r' ∧
      r'.input = r.input ∧ r'.before = r.before ∧ r'.after = r.after ∧
      (∀ span, r'.substitute span = r.substitute span) ∧
      r'.initial = ((Text.trim pre.toList).head? == some '#') ∧
      r'.final = ((Text.trim post.toList).getLast? == some '#') :=
  compile_render_of_separable n inv text r hvalid hnull hclasses hr
    (Separable.of_written (compile_ok hr).1 hn hI hB hA harrow hfocus)

/-- The anchor flags are read off the text, not the patterns: `Ø → e / {#}_` compiles to a rule
that is not word-initial, and its text `Ø → e / #_` compiles to one that is. -/
theorem initial_flag_read_from_text :
    let inv : Inventory := ⟨[⟨"a", .empty⟩, ⟨"b", .empty⟩, ⟨"e", .empty⟩], none⟩
    ∃ r r', compile {} inv "Ø → e / \x7b#\x7d_" = .ok r ∧ r.render = .ok "Ø → e / #_" ∧
      compile {} inv "Ø → e / #_" = .ok r' ∧ r.initial = false ∧ r'.initial = true := by
  intro inv
  obtain ⟨r, hr, hparts⟩ := exists_ok_of_toOption_map
    (f := fun r => (r.render.toOption, r.initial))
    (show (compile {} inv "Ø → e / \x7b#\x7d_").toOption.map _ =
      some (some "Ø → e / #_", false) by decide +kernel)
  obtain ⟨r', hr', hflag'⟩ := exists_ok_of_toOption_map (f := fun r => r.initial)
    (show (compile {} inv "Ø → e / #_").toOption.map _ = some true by decide +kernel)
  simp only [Prod.mk.injEq] at hparts
  obtain ⟨hrender, hflag⟩ := hparts
  exact ⟨r, r', hr, Pattern.eq_ok_of_toOption hrender, hr', hflag, hflag'⟩

end Rule

end SoundLaw
