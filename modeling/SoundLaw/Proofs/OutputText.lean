import SoundLaw.Proofs.ReadFuel
import SoundLaw.Rule.Basic

/-!
# Reading an output back from its text

`Rule.render` writes an output as the texts of its slots one after another, with no separator: a
literal as its symbol, a deletion as the null symbol, a feature change in brackets. Reading that
text again (`Rule.readOutput`) gives the same slots back when each slot is *legible*: a literal
is written with one character that is neither blank, a bracket nor the slash, and reads as
itself; no feature name of a change holds a blank, a bracket or the slash. Every slot that
`readOutput` reads from a text without a slash is legible, as long as no feature named by a class
abbreviation holds a bracket or a slash.

* `Text.words_intercalate` — words without blanks joined by spaces split back into themselves;
* `FeatureChange.parse_inner` — a feature change read back from the inside of its brackets;
* `Rule.readOutput_outText` — legible slots read back from their text;
* `Rule.legible_of_readOutput` — the slots read from a text without a slash are legible.
-/

namespace SoundLaw

/-! ## Successful traversals in `Except` -/

theorem exists_of_bind_ok {ε α β : Type} {x : Except ε α} {f : α → Except ε β} {b : β}
    (h : (x >>= f) = .ok b) : ∃ a, x = .ok a ∧ f a = .ok b := by
  cases x with
  | error e => cases h
  | ok a => exact ⟨a, rfl, h⟩

theorem mapM_cons_ok {α β ε : Type} {f : α → Except ε β} {x : α} {l : List α} {y : β}
    {ys : List β} (hx : f x = .ok y) (hl : l.mapM f = .ok ys) :
    (x :: l).mapM f = .ok (y :: ys) := by
  rw [List.mapM_cons, hx, hl]
  rfl

/-- Each result of a successful traversal is the result of some element. -/
theorem exists_of_mem_mapM {α β ε : Type} {f : α → Except ε β} :
    ∀ {l : List α} {ys : List β}, l.mapM f = .ok ys → ∀ y ∈ ys, ∃ x ∈ l, f x = .ok y
  | [], ys, h, y, hy => by
    cases h
    simp at hy
  | x :: l, ys, h, y, hy => by
    rw [List.mapM_cons] at h
    obtain ⟨b, hb, h⟩ := exists_of_bind_ok h
    obtain ⟨bs, hbs, h⟩ := exists_of_bind_ok h
    cases h
    rcases List.mem_cons.1 hy with rfl | hy
    · exact ⟨x, List.mem_cons_self, hb⟩
    · obtain ⟨x', hx', hfx⟩ := exists_of_mem_mapM hbs y hy
      exact ⟨x', List.mem_cons_of_mem _ hx', hfx⟩

/-- A successful traversal of `x :: l` is the result for `x` before those for `l`. -/
theorem exists_of_mapM_cons_ok {α β ε : Type} {f : α → Except ε β} {x : α} {l : List α}
    {zs : List β} (h : (x :: l).mapM f = .ok zs) :
    ∃ y ys, f x = .ok y ∧ l.mapM f = .ok ys ∧ zs = y :: ys := by
  rw [List.mapM_cons] at h
  obtain ⟨y, hy, h⟩ := exists_of_bind_ok h
  obtain ⟨ys, hys, h⟩ := exists_of_bind_ok h
  cases h
  exact ⟨y, ys, hy, hys, rfl⟩

namespace Text

/-! ## Words -/

theorem wordsFrom_append {w : List Char} (hw : ∀ c ∈ w, isBlank c = false) (cs : List Char) :
    ∀ acc : List Char, wordsFrom (w ++ cs) acc = wordsFrom cs (w.reverse ++ acc) := by
  induction w with
  | nil => intro acc; rfl
  | cons c w ih =>
    intro acc
    rw [List.cons_append, wordsFrom, if_neg (by simp [hw c List.mem_cons_self]),
      ih (fun d hd => hw d (List.mem_cons_of_mem _ hd))]
    simp

/-- Words without blanks joined by single spaces split back into themselves. -/
theorem words_intercalate :
    ∀ {ws : List (List Char)}, (∀ w ∈ ws, w ≠ [] ∧ ∀ c ∈ w, isBlank c = false) →
      words ([' '].intercalate ws) = ws
  | [], _ => rfl
  | [w], h => by
    obtain ⟨hne, hw⟩ := h w List.mem_cons_self
    have hend := wordsFrom_append hw [] []
    rw [List.append_nil] at hend
    rw [List.intercalate_singleton, words, hend]
    simp [wordsFrom, hne]
  | w :: w' :: ws, h => by
    obtain ⟨hne, hw⟩ := h w List.mem_cons_self
    have hrest := @words_intercalate (w' :: ws) fun v hv => h v (List.mem_cons_of_mem _ hv)
    -- the first word ends at the first space
    rw [List.intercalate_cons_cons, words, List.append_assoc, wordsFrom_append hw, List.append_nil,
      List.singleton_append, wordsFrom, if_pos (by decide),
      if_neg (by simp [hne]), List.reverse_reverse]
    exact congrArg (w :: ·) hrest

theorem mem_intercalate {α : Type} {sep : List α} :
    ∀ {ws : List (List α)} {c : α}, c ∈ sep.intercalate ws → c ∈ sep ∨ ∃ w ∈ ws, c ∈ w
  | [], c, h => by simp at h
  | [w], c, h => by
    rw [List.intercalate_singleton] at h
    exact .inr ⟨w, List.mem_cons_self, h⟩
  | w :: w' :: ws, c, h => by
    rw [List.intercalate_cons_cons, List.mem_append, List.mem_append] at h
    rcases h with (h | h) | h
    · exact .inr ⟨w, List.mem_cons_self, h⟩
    · exact .inl h
    · rcases mem_intercalate h with h | ⟨v, hv, hcv⟩
      · exact .inl h
      · exact .inr ⟨v, List.mem_cons_of_mem _ hv, hcv⟩

/-- A word holds characters of the text, none of them blank. -/
theorem mem_wordsFrom :
    ∀ {cs acc w : List Char}, (∀ c ∈ acc, isBlank c = false) → w ∈ wordsFrom cs acc →
      ∀ c ∈ w, (c ∈ acc ∨ c ∈ cs) ∧ isBlank c = false
  | [], acc, w, hacc, hw, c, hc => by
    unfold wordsFrom at hw
    split at hw
    · simp at hw
    · rw [List.mem_singleton] at hw
      subst hw
      have hmem := List.mem_reverse.1 hc
      exact ⟨.inl hmem, hacc c hmem⟩
  | d :: cs, acc, w, hacc, hw, c, hc => by
    unfold wordsFrom at hw
    split at hw
    · have from_rest : w ∈ wordsFrom cs [] → (c ∈ acc ∨ c ∈ d :: cs) ∧ isBlank c = false :=
        fun hw' => by
          obtain ⟨hmem, hb⟩ := mem_wordsFrom (by simp) hw' c hc
          exact ⟨.inr (List.mem_cons_of_mem _ (hmem.resolve_left (by simp))), hb⟩
      split at hw
      · exact from_rest hw
      · rcases List.mem_cons.1 hw with rfl | hw
        · have hmem := List.mem_reverse.1 hc
          exact ⟨.inl hmem, hacc c hmem⟩
        · exact from_rest hw
    · rename_i hd
      have hacc' : ∀ x ∈ d :: acc, isBlank x = false := by
        intro x hx
        rcases List.mem_cons.1 hx with rfl | hx
        · simpa using hd
        · exact hacc x hx
      obtain ⟨hmem, hb⟩ := mem_wordsFrom hacc' hw c hc
      refine ⟨?_, hb⟩
      rcases hmem with hmem | hmem
      · rcases List.mem_cons.1 hmem with rfl | hmem
        · exact .inr List.mem_cons_self
        · exact .inl hmem
      · exact .inr (List.mem_cons_of_mem _ hmem)

theorem mem_words {cs w : List Char} (hw : w ∈ words cs) :
    ∀ c ∈ w, c ∈ cs ∧ isBlank c = false := by
  intro c hc
  obtain ⟨hmem, hb⟩ := mem_wordsFrom (by simp) hw c hc
  exact ⟨hmem.resolve_left (by simp), hb⟩

/-- Delimiters alternate in `x ++ y` as in `y` when `x` holds none. -/
theorem alternates_append {opening closing : String} {y : List Char} :
    ∀ {x : List Char} {expectOpen : Bool}, (∀ c ∈ x, c ∉ opening.toList ∧ c ∉ closing.toList) →
      alternates opening closing expectOpen (x ++ y) = alternates opening closing expectOpen y
  | [], _, _ => rfl
  | c :: x, expectOpen, h => by
    obtain ⟨ho, hcl⟩ := h c List.mem_cons_self
    have hnot : ¬(String.singleton c = opening ∨ String.singleton c = closing) := by
      rintro (rfl | rfl) <;> simp_all
    rw [List.cons_append, alternates, if_neg hnot]
    exact alternates_append fun d hd => h d (List.mem_cons_of_mem _ hd)

end Text

/-! ## Feature sets and changes read back -/

namespace FeatureSet

theorem ext_toList {s t : FeatureSet} (h : s.toList = t.toList) : s = t := by
  cases s
  cases t
  cases h
  rfl

/-- Two increasing lists of names with the same members are the same list. -/
theorem eq_of_increasing :
    ∀ {l m : List String}, l.Pairwise Text.precedes → m.Pairwise Text.precedes →
      (∀ x, x ∈ l ↔ x ∈ m) → l = m
  | [], [], _, _, _ => rfl
  | [], y :: _, _, _, h => absurd ((h y).2 List.mem_cons_self) List.not_mem_nil
  | x :: _, [], _, _, h => absurd ((h x).1 List.mem_cons_self) List.not_mem_nil
  | x :: l, y :: m, hl, hm, h => by
    rw [List.pairwise_cons] at hl hm
    -- the least members agree, since each precedes every other member
    have hxy : x = y := by
      rcases List.mem_cons.1 ((h x).1 List.mem_cons_self) with e | hx
      · exact e
      · rcases List.mem_cons.1 ((h y).2 List.mem_cons_self) with e | hy
        · exact e.symm
        · exact absurd (Text.precedes_trans (hl.1 y hy) (hm.1 x hx)) (Text.precedes_irrefl x)
    subst hxy
    have htail : ∀ z, z ∈ l ↔ z ∈ m := by
      intro z
      constructor
      · intro hz
        rcases List.mem_cons.1 ((h z).1 (List.mem_cons_of_mem _ hz)) with rfl | hz'
        · exact absurd (hl.1 _ hz) (Text.precedes_irrefl _)
        · exact hz'
      · intro hz
        rcases List.mem_cons.1 ((h z).2 (List.mem_cons_of_mem _ hz)) with rfl | hz'
        · exact absurd (hm.1 _ hz) (Text.precedes_irrefl _)
        · exact hz'
    rw [eq_of_increasing hl.2 hm.2 htail]

@[simp] theorem ofList_toList (s : FeatureSet) : ofList s.toList = s :=
  ext_toList (eq_of_increasing (ofList s.toList).increasing s.increasing fun _ =>
    mem_def.symm.trans mem_ofList)

end FeatureSet

namespace FeatureChange

/-- The words inside the brackets of a change's notation: `+name` for each present feature,
then `-name` for each absent one. -/
def tokens (d : FeatureChange) : List String :=
  d.present.toList.map ("+" ++ ·) ++ d.absent.toList.map ("-" ++ ·)

/-- The feature names a change mentions. -/
def names (d : FeatureChange) : List String := d.present.toList ++ d.absent.toList

theorem render_toList (d : FeatureChange) :
    d.render.toList = '[' :: ((" ".intercalate d.tokens).toList ++ [']']) := by
  simp [render, tokens]

theorem toList_tokens (d : FeatureChange) :
    d.tokens.map String.toList =
      d.present.toList.map (fun x => '+' :: x.toList) ++
        d.absent.toList.map (fun x => '-' :: x.toList) := by
  simp [tokens, Function.comp_def]

theorem mem_signed {sign : Char} {ws : List (List Char)} {x : String}
    (hx : x ∈ signed sign ws) : sign :: x.toList ∈ ws := by
  obtain ⟨w, hw, hfx⟩ := List.mem_filterMap.1 hx
  cases w with
  | nil => cases hfx
  | cons c rest =>
    dsimp only at hfx
    split at hfx
    · rename_i hc
      cases hfx
      simpa [hc] using hw
    · cases hfx

/-- The names a specification gives a change are made of its characters, none blank. -/
theorem chars_of_mem_names_parse {s x : String} (hx : x ∈ (parse s).names) :
    ∀ c ∈ x.toList, c ∈ s.toList ∧ Text.isBlank c = false := by
  intro c hc
  have hword : ∃ sign, sign :: x.toList ∈ Text.words s.toList := by
    rcases List.mem_append.1 hx with hx | hx
    · exact ⟨'+', mem_signed (FeatureSet.mem_ofList.1 hx)⟩
    · exact ⟨'-', mem_signed (FeatureSet.mem_ofList.1 hx)⟩
  obtain ⟨sign, hw⟩ := hword
  exact Text.mem_words hw c (List.mem_cons_of_mem _ hc)

/-- A change whose feature names hold no blank reads back from the inside of its brackets. -/
theorem parse_inner (d : FeatureChange)
    (hd : ∀ x ∈ d.names, ∀ c ∈ x.toList, Text.isBlank c = false) :
    parse (" ".intercalate d.tokens) = d := by
  -- a sign, then a name without blanks
  have hsigned : ∀ {sign : Char} {x : String}, Text.isBlank sign = false →
      (∀ c ∈ x.toList, Text.isBlank c = false) →
        sign :: x.toList ≠ [] ∧ ∀ c ∈ sign :: x.toList, Text.isBlank c = false := by
    intro sign x hsign hx
    refine ⟨List.cons_ne_nil _ _, fun c hc => ?_⟩
    rcases List.mem_cons.1 hc with rfl | hc
    · exact hsign
    · exact hx c hc
  have hwords : Text.words (" ".intercalate d.tokens).toList = d.tokens.map String.toList := by
    rw [String.toList_intercalate]
    apply Text.words_intercalate
    rw [toList_tokens]
    intro w hw
    rcases List.mem_append.1 hw with hw | hw <;> obtain ⟨x, hx, rfl⟩ := List.mem_map.1 hw
    · exact hsigned (by decide) (hd x (List.mem_append_left _ hx))
    · exact hsigned (by decide) (hd x (List.mem_append_right _ hx))
  -- the `+` words name the present features, the `-` words the absent ones
  have hplus : signed '+' (d.tokens.map String.toList) = d.present.toList := by
    rw [toList_tokens]
    simp only [signed, List.filterMap_append, List.filterMap_map, Function.comp_def]
    simp
  have hminus : signed '-' (d.tokens.map String.toList) = d.absent.toList := by
    rw [toList_tokens]
    simp only [signed, List.filterMap_append, List.filterMap_map, Function.comp_def]
    simp
  unfold parse
  simp only [hwords, hplus, hminus, FeatureSet.ofList_toList]

end FeatureChange

namespace Rule

/-! ## Legible slots -/

/-- The characters that end an output text or a group in it: the brackets of feature changes
and the slash before the contexts. -/
def stops : List Char := ['[', ']', '/']

/-- The cut characters of the bracket pass. -/
abbrev isBracket : Char → Bool := fun c => "[".toList.contains c || "]".toList.contains c

/-- The null symbol is one character that is neither blank, a bracket nor the slash. -/
def SimpleNull (n : Notation) : Prop :=
  ∃ c, n.null.toList = [c] ∧ Text.isBlank c = false ∧ c ∉ stops

/-- No feature named by a class abbreviation holds a bracket or the slash. -/
def PlainClasses (n : Notation) : Prop :=
  ∀ e ∈ n.classes, ∀ x ∈ (FeatureChange.parse e.2).names, ∀ c ∈ x.toList, c ∉ stops

/-- Classes whose specifications hold no bracket or slash name no feature holding one. -/
theorem plainClasses_of_specs {n : Notation}
    (h : ∀ e ∈ n.classes, ∀ c ∈ e.2.toList, c ∉ stops) : PlainClasses n :=
  fun e he _ hx c hc => h e he c (FeatureChange.chars_of_mem_names_parse hx c hc).1

/-- A slot whose text reads back as itself: a literal written with one character that is neither
blank, a bracket nor the slash, is not the null symbol and names the literal in the inventory; a
change whose feature names hold no blank, bracket or slash; any deletion. -/
def Legible (n : Notation) (inv : Inventory) : Slot → Prop
  | .delete => True
  | .literal p => ∃ c, p.symbol = String.singleton c ∧ Text.isBlank c = false ∧ c ∉ stops ∧
      [c] ≠ n.null.toList ∧ inv.findSymbol (String.singleton c) = some p
  | .change d => ∀ x ∈ d.names, ∀ c ∈ x.toList, Text.isBlank c = false ∧ c ∉ stops

/-- The text an output is written as: the texts of its slots one after another. -/
def outText (n : Notation) (slots : List Slot) : List Char :=
  slots.flatMap fun s => (slotText n s).toList

/-- How `readOutput` reads one character outside brackets. -/
def readChar (n : Notation) (inv : Inventory) (c : Char) : Except SoundError Slot :=
  if [c] = n.null.toList then .ok Slot.delete
  else match inv.findSymbol (String.singleton c) with
    | some p => .ok (Slot.literal p)
    | none => match n.classOf (String.singleton c) with
      | some d => .ok (Slot.change d)
      | none => .error (.unknownPhoneme (String.singleton c))

/-- How `readOutput` reads the piece at place `i` of the bracket pass. -/
def readPart (n : Notation) (inv : Inventory) : List Char × Nat → Except SoundError (List Slot) :=
  fun (part, i) =>
    if i % 2 = 1 then .ok [Slot.change (FeatureChange.parse (String.ofList part))]
    else (part.filter fun c => !Text.isBlank c).mapM (readChar n inv)

theorem readOutput_eq (n : Notation) (inv : Inventory) (spec : List Char) :
    readOutput n inv spec = (do
      let parts ← Text.splitDelimited "[" "]" "brackets" spec
      let slots ← parts.zipIdx.mapM (readPart n inv)
      .ok slots.flatten) := rfl

theorem not_bracket_of_not_stop {c : Char} (h : c ∉ stops) : isBracket c = false := by
  simp only [stops, List.mem_cons, List.not_mem_nil, or_false, not_or] at h
  simp [h.1, h.2.1]

section Legible

variable {n : Notation} {inv : Inventory}

theorem findSymbol_symbol {s : String} {p : Phoneme} (h : inv.findSymbol s = some p) :
    p.symbol = s := by
  simpa using List.find?_some h

theorem exists_class_of_classOf {s : String} {d : FeatureChange} (h : n.classOf s = some d) :
    ∃ spec, (s, spec) ∈ n.classes ∧ d = FeatureChange.parse spec := by
  obtain ⟨spec, hspec, rfl⟩ := Option.map_eq_some_iff.1 h
  obtain ⟨l₁, l₂, heq, _⟩ := List.lookup_eq_some_iff.1 hspec
  exact ⟨spec, by simp [heq], rfl⟩

/-- Every character `readOutput` reads on its own gives a legible slot. -/
theorem legible_of_readChar (hclasses : PlainClasses n)
    {c : Char} (hb : Text.isBlank c = false) (hst : c ∉ stops) {s : Slot}
    (h : readChar n inv c = .ok s) : Legible n inv s := by
  unfold readChar at h
  split at h
  · cases h
    trivial
  · rename_i hnull
    split at h
    · rename_i p hp
      cases h
      exact ⟨c, findSymbol_symbol hp, hb, hst, hnull, hp⟩
    · split at h
      · rename_i d hd
        cases h
        obtain ⟨spec, hmem, rfl⟩ := exists_class_of_classOf hd
        intro x hx c' hc'
        exact ⟨(FeatureChange.chars_of_mem_names_parse hx c' hc').2, hclasses _ hmem x hx c' hc'⟩
      · cases h

/-- The slots `readOutput` reads from a text without a slash are legible, when no feature named
by a class abbreviation holds a bracket or a slash. -/
theorem legible_of_readOutput (hclasses : PlainClasses n)
    {spec : List Char} (hspec : ∀ c ∈ spec, c ≠ '/') {slots : List Slot}
    (h : readOutput n inv spec = .ok slots) : ∀ s ∈ slots, Legible n inv s := by
  rw [readOutput_eq] at h
  obtain ⟨parts, hparts, h⟩ := exists_of_bind_ok h
  obtain ⟨gs, hgs, h⟩ := exists_of_bind_ok h
  cases h
  intro s hs
  obtain ⟨g, hg, hsg⟩ := List.mem_flatten.1 hs
  obtain ⟨⟨part, i⟩, hx, hread⟩ := exists_of_mem_mapM hgs g hg
  -- a piece of the bracket pass holds characters of the text other than brackets
  have hpart : ∀ c ∈ part, c ∈ spec ∧ c ∉ stops := by
    intro c hc
    have hmem : part ∈ Text.splitWhere isBracket spec := by
      rw [← Text.eq_splitWhere_of_splitDelimited hparts]
      exact List.fst_mem_of_mem_zipIdx hx
    obtain ⟨hcspec, hcut⟩ := Text.mem_of_mem_splitWhere hmem c hc
    refine ⟨hcspec, ?_⟩
    have hslash := hspec c hcspec
    simp only [isBracket, Bool.or_eq_false_iff] at hcut
    simp only [stops, List.mem_cons, List.not_mem_nil, or_false]
    rintro (rfl | rfl | rfl) <;> simp_all
  simp only [readPart] at hread
  by_cases hodd : i % 2 = 1
  · rw [if_pos hodd] at hread
    cases hread
    rw [List.mem_singleton] at hsg
    subst hsg
    intro x hx c hc
    obtain ⟨hmem, hb⟩ := FeatureChange.chars_of_mem_names_parse hx c hc
    exact ⟨hb, (hpart c (by simpa using hmem)).2⟩
  · rw [if_neg hodd] at hread
    obtain ⟨c, hc, hcs⟩ := exists_of_mem_mapM hread s hsg
    obtain ⟨hcpart, hcb⟩ := List.mem_filter.1 hc
    exact legible_of_readChar hclasses (by simpa using hcb) (hpart c hcpart).2 hcs

/-! ## The text of legible slots -/

/-- The text of a legible slot: one character that reads as the slot, or a feature change in
brackets. -/
theorem slot_shape (hnull : SimpleNull n) {s : Slot} (hs : Legible n inv s) :
    (∃ c, (slotText n s).toList = [c] ∧ Text.isBlank c = false ∧ c ∉ stops ∧
      readChar n inv c = .ok s) ∨
    ∃ d, s = .change d ∧
      (slotText n s).toList = '[' :: ((" ".intercalate d.tokens).toList ++ [']']) ∧
      ∀ x ∈ d.names, ∀ c ∈ x.toList, Text.isBlank c = false ∧ c ∉ stops := by
  cases s with
  | delete =>
    obtain ⟨c, hc, hb, hst⟩ := hnull
    exact .inl ⟨c, by simp [slotText, hc], hb, hst, by simp [readChar, hc]⟩
  | literal p =>
    obtain ⟨c, hsym, hb, hst, hne, hfind⟩ := hs
    exact .inl ⟨c, by simp [slotText, hsym], hb, hst, by simp [readChar, hne, hfind]⟩
  | change d => exact .inr ⟨d, rfl, FeatureChange.render_toList d, hs⟩

/-- No character inside the brackets of a legible change is a bracket or the slash. -/
theorem inner_not_stop {d : FeatureChange}
    (hd : ∀ x ∈ d.names, ∀ c ∈ x.toList, Text.isBlank c = false ∧ c ∉ stops) :
    ∀ c ∈ (" ".intercalate d.tokens).toList, c ∉ stops := by
  intro c hc
  rw [String.toList_intercalate, FeatureChange.toList_tokens] at hc
  rcases Text.mem_intercalate hc with hsep | ⟨w, hw, hcw⟩
  · have hspace : c = ' ' := by simpa using hsep
    subst hspace
    decide
  · rcases List.mem_append.1 hw with hw | hw <;> obtain ⟨x, hx, rfl⟩ := List.mem_map.1 hw
    · rcases List.mem_cons.1 hcw with rfl | hcw
      · decide
      · exact (hd x (List.mem_append_left _ hx) c hcw).2
    · rcases List.mem_cons.1 hcw with rfl | hcw
      · decide
      · exact (hd x (List.mem_append_right _ hx) c hcw).2

theorem outText_cons (s : Slot) (slots : List Slot) :
    outText n (s :: slots) = (slotText n s).toList ++ outText n slots := rfl

theorem bracketed_append (inner rest : List Char) :
    ('[' :: (inner ++ [']'])) ++ rest = '[' :: (inner ++ ']' :: rest) := by
  simp

theorem trimmed_bracketed (inner : List Char) : Text.Trimmed ('[' :: (inner ++ [']'])) := by
  constructor
  · intro c hc
    cases hc
    decide
  · intro c hc
    rw [← List.cons_append, List.getLast?_concat] at hc
    cases hc
    decide

/-- The text of legible slots starts and ends with characters that are not blank. -/
theorem trimmed_outText (hnull : SimpleNull n) :
    ∀ {slots : List Slot}, (∀ s ∈ slots, Legible n inv s) → Text.Trimmed (outText n slots)
  | [], _ => ⟨by simp [outText], by simp [outText]⟩
  | s :: slots, hs => by
    rw [outText_cons]
    have hrest := trimmed_outText hnull fun t ht => hs t (List.mem_cons_of_mem _ ht)
    rcases slot_shape hnull (hs s List.mem_cons_self) with ⟨c, hc, hb, -, -⟩ | ⟨d, -, hd, -⟩
    · rw [hc]
      exact Text.Trimmed.append ⟨by simpa using hb, by simpa using hb⟩ hrest (by simp)
    · rw [hd]
      exact Text.Trimmed.append (trimmed_bracketed _) hrest (by simp)

/-- The text of legible slots holds no slash. -/
theorem not_slash_outText (hnull : SimpleNull n) :
    ∀ {slots : List Slot}, (∀ s ∈ slots, Legible n inv s) → ∀ c ∈ outText n slots, c ≠ '/'
  | [], _ => by simp [outText]
  | s :: slots, hs => by
    intro c hc
    rw [outText_cons, List.mem_append] at hc
    rcases hc with hc | hc
    · rcases slot_shape hnull (hs s List.mem_cons_self) with ⟨c', hc', -, hst, -⟩ | ⟨d, -, hd, hnames⟩
      · rw [hc', List.mem_singleton] at hc
        subst hc
        intro e
        exact hst (by simp [e, stops])
      · rw [hd] at hc
        simp only [List.mem_cons, List.mem_append, List.not_mem_nil, or_false] at hc
        rcases hc with rfl | hc | rfl
        · decide
        · intro e
          exact inner_not_stop hnames c hc (by simp [e, stops])
        · decide
    · exact not_slash_outText hnull (fun t ht => hs t (List.mem_cons_of_mem _ ht)) c hc

/-- Legible slots have text when there is at least one. -/
theorem outText_ne_nil (hnull : SimpleNull n) {s : Slot} {slots : List Slot}
    (hs : Legible n inv s) : outText n (s :: slots) ≠ [] := by
  rw [outText_cons]
  rcases slot_shape hnull hs with ⟨c, hc, -⟩ | ⟨d, -, hd, -⟩
  · simp [hc]
  · simp [hd]

/-! ## The bracket pass over the text of legible slots -/

/-- The bracket pass cuts a written change off what follows it: an empty piece before it, its
inside, then the pieces of the rest. -/
theorem splitWhere_bracketed {d : FeatureChange}
    (hnames : ∀ x ∈ d.names, ∀ c ∈ x.toList, Text.isBlank c = false ∧ c ∉ stops)
    (rest : List Char) :
    Text.splitWhere isBracket ('[' :: ((" ".intercalate d.tokens).toList ++ [']']) ++ rest) =
      [] :: (" ".intercalate d.tokens).toList :: Text.splitWhere isBracket rest := by
  rw [bracketed_append, Text.splitWhere_cons_cut (by decide),
    Text.splitWhere_append_cut (show isBracket ']' = true by decide) fun c hc =>
      not_bracket_of_not_stop (inner_not_stop hnames c hc)]

/-- The bracket pass cuts the text of legible slots into an odd number of pieces. -/
theorem length_splitWhere_outText (hnull : SimpleNull n) :
    ∀ {slots : List Slot}, (∀ s ∈ slots, Legible n inv s) →
      (Text.splitWhere isBracket (outText n slots)).length % 2 = 1
  | [], _ => rfl
  | s :: slots, hs => by
    have ih := length_splitWhere_outText hnull fun t ht => hs t (List.mem_cons_of_mem _ ht)
    rw [outText_cons]
    rcases slot_shape hnull (hs s List.mem_cons_self) with ⟨c, hc, -, hst, -⟩ | ⟨d, -, hd, hnames⟩
    · obtain ⟨first, rest, hsplit⟩ := List.exists_cons_of_ne_nil
        (@Text.splitWhere_ne_nil isBracket (outText n slots))
      rw [hc, List.singleton_append, Text.splitWhere_cons_keep (not_bracket_of_not_stop hst) hsplit]
      rw [hsplit] at ih
      exact ih
    · rw [hd, splitWhere_bracketed hnames]
      simp only [List.length_cons]
      omega

/-- Brackets alternate in the text of legible slots. -/
theorem alternates_outText (hnull : SimpleNull n) :
    ∀ {slots : List Slot}, (∀ s ∈ slots, Legible n inv s) →
      Text.alternates "[" "]" true (outText n slots) = true
  | [], _ => rfl
  | s :: slots, hs => by
    have ih := alternates_outText hnull fun t ht => hs t (List.mem_cons_of_mem _ ht)
    have plain : ∀ {c : Char}, c ∉ stops → c ∉ "[".toList ∧ c ∉ "]".toList := by
      intro c hst
      have := not_bracket_of_not_stop hst
      simp only [isBracket, Bool.or_eq_false_iff, List.contains_eq_mem,
        decide_eq_false_iff_not] at this
      exact this
    rw [outText_cons]
    rcases slot_shape hnull (hs s List.mem_cons_self) with ⟨c, hc, -, hst, -⟩ | ⟨d, -, hd, hnames⟩
    · rw [hc, Text.alternates_append fun x hx => by
        rw [List.mem_singleton] at hx
        exact hx ▸ plain hst]
      exact ih
    · -- `[` opens, the inside holds no delimiter, `]` closes
      rw [hd, bracketed_append, Text.alternates,
        if_pos (by decide), if_pos (by decide), Bool.not_true,
        Text.alternates_append fun x hx => plain (inner_not_stop hnames x hx), Text.alternates,
        if_pos (by decide), if_pos (by decide), Bool.not_false]
      exact ih

/-- The bracket pass over the text of legible slots keeps the text whole. -/
theorem splitDelimited_outText (hnull : SimpleNull n) {slots : List Slot}
    (hs : ∀ s ∈ slots, Legible n inv s) :
    Text.splitDelimited "[" "]" "brackets" (outText n slots) =
      .ok (Text.splitWhere isBracket (outText n slots)) := by
  have hodd : ((Text.splitWhere isBracket (outText n slots)).length % 2 != 1) = false := by
    rw [length_splitWhere_outText hnull hs]
    rfl
  unfold Text.splitDelimited
  rw [if_neg (by decide), if_neg (by rw [hodd]; decide), if_pos (alternates_outText hnull hs)]

/-- The pieces of the text of legible slots, from an even place on, read as groups of slots that
make up the slots again: a run of characters between changes as its slots, each change as
itself. -/
theorem mapM_readPart_outText (hnull : SimpleNull n) :
    ∀ {slots : List Slot}, (∀ s ∈ slots, Legible n inv s) → ∀ k, k % 2 = 0 →
      ∃ gs, ((Text.splitWhere isBracket (outText n slots)).zipIdx k).mapM (readPart n inv) =
        .ok gs ∧ gs.flatten = slots
  | [], _, k, hk => by
    have hk' : ¬k % 2 = 1 := by omega
    refine ⟨[[]], mapM_cons_ok ?_ rfl, rfl⟩
    simp only [readPart, if_neg hk', List.filter_nil]
    rfl
  | s :: slots, hs, k, hk => by
    have ih := mapM_readPart_outText hnull fun t ht => hs t (List.mem_cons_of_mem _ ht)
    rw [outText_cons]
    rcases slot_shape hnull (hs s List.mem_cons_self) with ⟨c, hc, hb, hst, hread⟩ |
      ⟨d, rfl, hd, hnames⟩
    · -- a slot written as one character joins the first piece
      obtain ⟨first, rest, hsplit⟩ := List.exists_cons_of_ne_nil
        (@Text.splitWhere_ne_nil isBracket (outText n slots))
      obtain ⟨gs, hgs, hflat⟩ := ih k hk
      rw [hsplit, List.zipIdx_cons] at hgs
      obtain ⟨g, gs', hg, hgs', rfl⟩ := exists_of_mapM_cons_ok hgs
      have hk' : ¬k % 2 = 1 := by omega
      refine ⟨(s :: g) :: gs', ?_, by simp [← hflat]⟩
      rw [hc, List.singleton_append, Text.splitWhere_cons_keep (not_bracket_of_not_stop hst) hsplit,
        List.zipIdx_cons]
      refine mapM_cons_ok ?_ hgs'
      simp only [readPart, if_neg hk'] at hg ⊢
      rw [List.filter_cons_of_pos (by simp [hb])]
      exact mapM_cons_ok hread hg
    · -- a change is an empty outside piece, its inside, then the pieces of the rest
      obtain ⟨gs, hgs, hflat⟩ := ih (k + 2) (by omega)
      have hk' : ¬k % 2 = 1 := by omega
      have hk'' : (k + 1) % 2 = 1 := by omega
      refine ⟨[] :: [.change d] :: gs, ?_, by simp [hflat]⟩
      rw [hd, splitWhere_bracketed hnames, List.zipIdx_cons, List.zipIdx_cons]
      refine mapM_cons_ok (by simp only [readPart, if_neg hk', List.filter_nil]; rfl)
        (mapM_cons_ok ?_ hgs)
      simp only [readPart, if_pos hk'', String.ofList_toList]
      rw [FeatureChange.parse_inner d fun x hx c hc => (hnames x hx c hc).1]

/-- Legible slots read back from their text. -/
theorem readOutput_outText (hnull : SimpleNull n) {slots : List Slot}
    (hs : ∀ s ∈ slots, Legible n inv s) : readOutput n inv (outText n slots) = .ok slots := by
  obtain ⟨gs, hgs, hflat⟩ := mapM_readPart_outText hnull hs 0 rfl
  rw [readOutput_eq, splitDelimited_outText hnull hs, Pattern.ok_bind, hgs, Pattern.ok_bind, hflat]

end Legible

end Rule

end SoundLaw
