import SoundLaw.Word

/-!
# Reading a word greedily

`Inventory.segment` reads a written word position by position: a blank is skipped; elsewhere the
longest non-empty inventory symbol written there is taken, as the first phoneme written with it;
where no symbol is written, the character stands for itself. `Reads` states this reading
declaratively, with the longest symbol said in terms of the inventory (`Inventory.LongestAt`)
rather than by the fold `longestAt` computes it with. The reading always ends, since every step
moves past at least one character.

* `picked_step`, `picked_run` — the fold behind `longestAt` keeps the first phoneme of the
  longest symbol written so far (`Inventory.Picked`), one phoneme at a time and so over the
  whole inventory;
* `longestAt_some`, `longestAt_none`, `longestAt_of_longest` — what `longestAt` finds is exactly
  the first phoneme of the longest symbol written at the start of a text;
* `reads_segmentChars`, `eq_segmentChars_of_reads` — `segment` is the one reading of every text;
* `spell_segmentChars_sublist`, `filter_spell_segmentChars` — its symbols, written out, are the
  text with some blanks left out: those the reading skipped, not those inside a symbol;
* `segment_reads_longest_symbols` — all of it together: the written-out reading is the text
  without its blanks when no symbol holds a blank (`segment_keeps_blank_inside_symbol` shows a
  symbol that does).
-/

namespace SoundLaw

namespace Inventory

variable {inv : Inventory} {cs : List Char}

/-- The symbol of `p` is written, non-empty, at the start of `cs`. -/
def WrittenAt (cs : List Char) (p : Phoneme) : Prop :=
  p.symbol.toList ≠ [] ∧ p.symbol.toList <+: cs

/-- `s` is a non-empty symbol of the inventory written at the start of `cs`. -/
def SymbolAt (inv : Inventory) (cs : List Char) (s : String) : Prop :=
  s ∈ inv.symbols ∧ s ≠ "" ∧ s.toList <+: cs

/-- `s` is the longest non-empty inventory symbol written at the start of `cs`. -/
def LongestAt (inv : Inventory) (cs : List Char) (s : String) : Prop :=
  inv.SymbolAt cs s ∧ ∀ s', inv.SymbolAt cs s' → s'.length ≤ s.length

/-- A symbol written at the start of a text is the symbol of a phoneme written there. -/
theorem symbolAt_iff {s : String} :
    inv.SymbolAt cs s ↔ ∃ q ∈ inv.phonemes, q.symbol = s ∧ WrittenAt cs q := by
  constructor
  · rintro ⟨hmem, hne, hpre⟩
    obtain ⟨q, hq, rfl⟩ := List.mem_map.1 hmem
    exact ⟨q, hq, rfl, by simpa [String.toList_eq_nil_iff] using hne, hpre⟩
  · rintro ⟨q, hq, rfl, hne, hpre⟩
    exact ⟨List.mem_map.2 ⟨q, hq, rfl⟩, by simpa [String.toList_eq_nil_iff] using hne, hpre⟩

/-! ## The fold behind `longestAt` -/

/-- One step of `longestAt`: take `p` when its symbol is written at the start of `cs` and is
longer than that of the phoneme taken so far. -/
def pick (cs : List Char) (best : Option Phoneme) (p : Phoneme) : Option Phoneme :=
  let s := p.symbol.toList
  if !s.isEmpty && s.isPrefixOf cs &&
      (match best with
       | some b => b.symbol.length < s.length
       | none => true)
  then some p else best

theorem longestAt_eq_foldl : inv.longestAt cs = inv.phonemes.foldl (pick cs) none := rfl

/-- What the fold has taken after the phonemes `pre`: nothing when none of them is written at the
start of `cs`, else the first of them with the longest symbol written there. -/
def Picked (cs : List Char) (pre : List Phoneme) : Option Phoneme → Prop
  | none => ∀ q ∈ pre, ¬WrittenAt cs q
  | some b => WrittenAt cs b ∧ pre.find? (·.symbol == b.symbol) = some b ∧
      ∀ q ∈ pre, WrittenAt cs q → q.symbol.length ≤ b.symbol.length

theorem written_test_iff {p : Phoneme} :
    (!p.symbol.toList.isEmpty && p.symbol.toList.isPrefixOf cs) = true ↔ WrittenAt cs p := by
  simp [WrittenAt, List.isPrefixOf_iff_prefix]

/-- A phoneme written at the start of `cs` is taken when nothing is yet, or when its symbol is
longer than the taken one's. -/
theorem pick_eq_some {best : Option Phoneme} {p : Phoneme} (hp : WrittenAt cs p)
    (hlonger : ∀ b, best = some b → b.symbol.length < p.symbol.length) : pick cs best p = some p := by
  have htest := written_test_iff.2 hp
  cases best with
  | none => simp [pick, htest]
  | some b =>
    have hlt := hlonger b rfl
    simp only [pick, htest, Bool.true_and, String.length_toList, hlt, decide_true, if_true]

/-- Otherwise the taken phoneme stays. -/
theorem pick_eq_self {best : Option Phoneme} {p : Phoneme}
    (hkeep : ¬WrittenAt cs p ∨ ∃ b, best = some b ∧ p.symbol.length ≤ b.symbol.length) :
    pick cs best p = best := by
  rcases hkeep with hnot | ⟨b, rfl, hle⟩
  · have htest : (!p.symbol.toList.isEmpty && p.symbol.toList.isPrefixOf cs) = false := by
      cases h : (!p.symbol.toList.isEmpty && p.symbol.toList.isPrefixOf cs) with
      | false => rfl
      | true => exact absurd (written_test_iff.1 h) hnot
    simp only [pick, htest, Bool.false_and, Bool.false_eq_true, if_false]
  · have hnlt : ¬b.symbol.length < p.symbol.toList.length := by
      rw [String.length_toList]
      omega
    simp only [pick, hnlt, decide_false, Bool.and_false, Bool.false_eq_true, if_false]

/-- Two phonemes with one symbol are written at the same places. -/
theorem writtenAt_of_symbol_eq {p q : Phoneme} (h : q.symbol = p.symbol) (hp : WrittenAt cs p) :
    WrittenAt cs q := by
  rw [WrittenAt, h]
  exact hp

/-- The step lemma: one more phoneme keeps the fold's invariant. -/
theorem picked_step {pre : List Phoneme} {best : Option Phoneme} (p : Phoneme)
    (h : Picked cs pre best) : Picked cs (pre ++ [p]) (pick cs best p) := by
  -- whether `p` is taken: written at the start, and longer than anything taken before
  by_cases htake : WrittenAt cs p ∧ ∀ b, best = some b → b.symbol.length < p.symbol.length
  · obtain ⟨hp, hlonger⟩ := htake
    rw [pick_eq_some hp hlonger]
    -- every written phoneme before `p` has a shorter symbol
    have hshorter : ∀ q ∈ pre, WrittenAt cs q → q.symbol.length < p.symbol.length := by
      intro q hq hwq
      cases best with
      | none => exact absurd hwq (h q hq)
      | some b => exact Nat.lt_of_le_of_lt (h.2.2 q hq hwq) (hlonger b rfl)
    have hfirst : pre.find? (·.symbol == p.symbol) = none := by
      rw [List.find?_eq_none]
      intro q hq hsym
      have hsym : q.symbol = p.symbol := by simpa using hsym
      have hlt := hshorter q hq (writtenAt_of_symbol_eq hsym hp)
      rw [hsym] at hlt
      exact Nat.lt_irrefl _ hlt
    refine ⟨hp, by simp [List.find?_append, hfirst], ?_⟩
    intro q hq hwq
    rcases List.mem_append.1 hq with hq | hq
    · exact Nat.le_of_lt (hshorter q hq hwq)
    · obtain rfl := List.mem_singleton.1 hq
      exact Nat.le_refl _
  · cases best with
    | none =>
      have hnot : ¬WrittenAt cs p := fun hp => htake ⟨hp, by simp⟩
      rw [pick_eq_self (.inl hnot)]
      intro q hq
      rcases List.mem_append.1 hq with hq | hq
      · exact h q hq
      · rw [List.mem_singleton.1 hq]
        exact hnot
    | some b =>
      -- `p` is not longer than the taken phoneme wherever it is written
      have hle : WrittenAt cs p → p.symbol.length ≤ b.symbol.length := by
        intro hp
        refine Nat.le_of_not_lt fun hlt => htake ⟨hp, ?_⟩
        rintro b' hb'
        cases hb'
        exact hlt
      have hkeep : pick cs (some b) p = some b := by
        by_cases hp : WrittenAt cs p
        · exact pick_eq_self (.inr ⟨b, rfl, hle hp⟩)
        · exact pick_eq_self (.inl hp)
      rw [hkeep]
      refine ⟨h.1, by simp [List.find?_append, h.2.1], ?_⟩
      intro q hq hwq
      rcases List.mem_append.1 hq with hq | hq
      · exact h.2.2 q hq hwq
      · rw [List.mem_singleton.1 hq] at hwq ⊢
        exact hle hwq

/-- The run lemma: the fold keeps its invariant over any further phonemes. -/
theorem picked_run :
    ∀ (rest : List Phoneme) {pre : List Phoneme} {best : Option Phoneme},
      Picked cs pre best → Picked cs (pre ++ rest) (rest.foldl (pick cs) best)
  | [], pre, _, h => by simpa using h
  | p :: rest, pre, best, h => by
    have := picked_run rest (picked_step p h)
    simpa using this

/-- `longestAt` has taken, over the whole inventory, what the invariant says. -/
theorem picked_longestAt : Picked cs inv.phonemes (inv.longestAt cs) := by
  have := picked_run inv.phonemes (show Picked cs [] none by simp [Picked])
  simpa [longestAt_eq_foldl] using this

/-! ## What `longestAt` finds -/

/-- What `longestAt` finds is the first phoneme of the longest symbol written at the start. -/
theorem longestAt_some {p : Phoneme} (h : inv.longestAt cs = some p) :
    inv.LongestAt cs p.symbol ∧ inv.findSymbol p.symbol = some p := by
  have hp : Picked cs inv.phonemes (inv.longestAt cs) := picked_longestAt
  rw [h] at hp
  obtain ⟨hw, hfind, hmax⟩ := hp
  refine ⟨⟨symbolAt_iff.2 ⟨p, List.mem_of_find?_eq_some hfind, rfl, hw⟩, ?_⟩, hfind⟩
  intro s' hs'
  obtain ⟨q, hq, rfl, hwq⟩ := symbolAt_iff.1 hs'
  exact hmax q hq hwq

/-- `longestAt` finds nothing only where no inventory symbol is written. -/
theorem longestAt_none (h : inv.longestAt cs = none) (s : String) : ¬inv.SymbolAt cs s := by
  have hp : Picked cs inv.phonemes (inv.longestAt cs) := picked_longestAt
  rw [h] at hp
  intro hs
  obtain ⟨q, hq, -, hwq⟩ := symbolAt_iff.1 hs
  exact hp q hq hwq

/-- Two longest symbols written at the start of one text are the same symbol. -/
theorem longestAt_unique {s s' : String} (hs : inv.LongestAt cs s) (hs' : inv.LongestAt cs s') :
    s = s' := by
  have hlen : s.toList.length = s'.toList.length := by
    simp only [String.length_toList]
    exact Nat.le_antisymm (hs'.2 s hs.1) (hs.2 s' hs'.1)
  have hpre := List.prefix_of_prefix_length_le hs.1.2.2 hs'.1.2.2 (Nat.le_of_eq hlen)
  exact String.toList_inj.1 (hpre.eq_of_length hlen)

/-- And `longestAt` finds the first phoneme of the longest symbol written at the start. -/
theorem longestAt_of_longest {s : String} {p : Phoneme} (hs : inv.LongestAt cs s)
    (hp : inv.findSymbol s = some p) : inv.longestAt cs = some p := by
  cases h : inv.longestAt cs with
  | none => exact absurd hs.1 (longestAt_none h s)
  | some b =>
    obtain ⟨hb, hfind⟩ := longestAt_some h
    rw [longestAt_unique hb hs, hp] at hfind
    exact hfind.symm

/-! ## The reading -/

/-- A reading of a text into phonemes, position by position: a blank is skipped; elsewhere the
longest non-empty inventory symbol written there gives the first phoneme written with it, and
the reading goes on after the symbol; where no symbol is written, the character stands for
itself. -/
inductive Reads (inv : Inventory) : List Char → List Phoneme → Prop
  | nil : Reads inv [] []
  | blank {c : Char} {cs : List Char} {ps : List Phoneme} :
      Text.isBlank c = true → Reads inv cs ps → Reads inv (c :: cs) ps
  | symbol {c : Char} {cs : List Char} {ps : List Phoneme} {s : String} {p : Phoneme} :
      Text.isBlank c = false → inv.LongestAt (c :: cs) s → inv.findSymbol s = some p →
      Reads inv ((c :: cs).drop s.length) ps → Reads inv (c :: cs) (p :: ps)
  | unknown {c : Char} {cs : List Char} {ps : List Phoneme} :
      Text.isBlank c = false → (∀ s, ¬inv.SymbolAt (c :: cs) s) → Reads inv cs ps →
      Reads inv (c :: cs) (Phoneme.placeholder c :: ps)

/-- A symbol found at the start of `c :: rest` is not empty, so the rest of the reading starts
after it. -/
theorem drop_symbol {c : Char} {rest : List Char} {p : Phoneme}
    (h : inv.longestAt (c :: rest) = some p) :
    (c :: rest).drop p.symbol.length = rest.drop (p.symbol.length - 1) := by
  have hne : p.symbol ≠ "" := (longestAt_some h).1.1.2.1
  have hpos : 0 < p.symbol.length := by
    rw [← String.length_toList]
    exact List.length_pos_iff.2 (by simpa [String.toList_eq_nil_iff] using hne)
  obtain ⟨k, hk⟩ := Nat.exists_eq_add_of_lt hpos
  rw [hk]
  simp

/-- `segmentChars` reads every text. -/
theorem reads_segmentChars (inv : Inventory) (cs : List Char) :
    Reads inv cs (inv.segmentChars cs) := by
  fun_induction inv.segmentChars cs with
  | case1 => exact .nil
  | case2 c rest hblank ih => exact .blank hblank ih
  | case3 c rest hblank p hp ih =>
    obtain ⟨hlong, hfind⟩ := longestAt_some hp
    refine .symbol (by simpa using hblank) hlong hfind ?_
    rwa [drop_symbol hp]
  | case4 c rest hblank hnone ih =>
    exact .unknown (by simpa using hblank) (longestAt_none hnone) ih

/-- … and it is the only reading: at each position the reading has one step it can take. -/
theorem eq_segmentChars_of_reads {cs : List Char} {ps : List Phoneme} (h : Reads inv cs ps) :
    ps = inv.segmentChars cs := by
  fun_induction inv.segmentChars cs generalizing ps with
  | case1 =>
    cases h
    rfl
  | case2 c rest hblank ih =>
    cases h with
    | blank _ h => exact ih h
    | symbol hb => simp [hblank] at hb
    | unknown hb => simp [hblank] at hb
  | case3 c rest hblank p hp ih =>
    cases h with
    | blank hb => exact absurd hb hblank
    | symbol _ hlong hfind h =>
      -- the longest symbol is the one `longestAt` found, and its first phoneme is `p`
      have hsym := longestAt_unique hlong (longestAt_some hp).1
      subst hsym
      rw [(longestAt_some hp).2] at hfind
      cases hfind
      rw [drop_symbol hp] at h
      rw [ih h]
    | unknown _ hnone _ => exact absurd (longestAt_some hp).1.1 (hnone _)
  | case4 c rest hblank hnone ih =>
    cases h with
    | blank hb => exact absurd hb hblank
    | symbol _ hlong hfind _ =>
      rw [longestAt_of_longest hlong hfind] at hnone
      cases hnone
    | unknown _ _ h => rw [ih h]

/-! ## The reading written out -/

/-- Where a symbol is found, the text is that symbol followed by what the reading goes on with. -/
theorem cons_eq_symbol_append {c : Char} {rest : List Char} {p : Phoneme}
    (h : inv.longestAt (c :: rest) = some p) :
    c :: rest = p.symbol.toList ++ rest.drop (p.symbol.length - 1) := by
  have hpre : p.symbol.toList <+: c :: rest := (longestAt_some h).1.1.2.2
  rw [← drop_symbol h, ← String.length_toList]
  exact (List.prefix_iff_eq_append.1 hpre).symm

theorem toList_spell_cons (p : Phoneme) (ps : List Phoneme) :
    (spell (p :: ps)).toList = p.symbol.toList ++ (spell ps).toList := by
  rw [spell_cons, String.toList_append]

/-- The reading written out leaves characters of the text out, and adds none. -/
theorem spell_segmentChars_sublist (inv : Inventory) (cs : List Char) :
    List.Sublist (spell (inv.segmentChars cs)).toList cs := by
  fun_induction inv.segmentChars cs with
  | case1 => simp
  | case2 c rest _ ih => exact ih.cons c
  | case3 c rest _ p hp ih =>
    rw [toList_spell_cons, cons_eq_symbol_append hp]
    exact (List.Sublist.refl _).append ih
  | case4 c rest _ _ ih =>
    rw [toList_spell_cons]
    simpa [Phoneme.placeholder] using ih.cons_cons c

/-- … and what it leaves out are blanks: without their blanks, the two are the same. -/
theorem filter_spell_segmentChars (inv : Inventory) (cs : List Char) :
    (spell (inv.segmentChars cs)).toList.filter (fun x => !Text.isBlank x) =
      cs.filter (fun x => !Text.isBlank x) := by
  fun_induction inv.segmentChars cs with
  | case1 => simp
  | case2 c rest hblank ih => simp [hblank, ih]
  | case3 c rest _ p hp ih =>
    rw [toList_spell_cons, cons_eq_symbol_append hp, List.filter_append, List.filter_append, ih]
  | case4 c rest hblank _ ih =>
    rw [toList_spell_cons]
    simp [Phoneme.placeholder, hblank, ih]

/-- With no blank in any symbol, the reading written out holds no blank. -/
theorem spell_segmentChars_not_blank
    (hsym : ∀ s ∈ inv.symbols, ∀ x ∈ s.toList, Text.isBlank x = false) (cs : List Char) :
    ∀ x ∈ (spell (inv.segmentChars cs)).toList, Text.isBlank x = false := by
  fun_induction inv.segmentChars cs with
  | case1 => simp
  | case2 c rest _ ih => exact ih
  | case3 c rest _ p hp ih =>
    intro x hx
    rw [toList_spell_cons] at hx
    rcases List.mem_append.1 hx with hx | hx
    · exact hsym p.symbol (longestAt_some hp).1.1.1 x hx
    · exact ih x hx
  | case4 c rest hblank _ ih =>
    intro x hx
    rw [toList_spell_cons] at hx
    rcases List.mem_append.1 hx with hx | hx
    · have hxc : x = c := by simpa [Phoneme.placeholder] using hx
      rw [hxc]
      simpa using hblank
    · exact ih x hx

/-- Reading a word: the reading `segment` gives is a reading of the word and the only one, and
written out it is the word with some blanks left out — with all of them whenever no inventory
symbol holds a blank. -/
theorem segment_reads_longest_symbols (inv : Inventory) (t : String) :
    Reads inv t.toList (inv.segment t) ∧
    (∀ ps, Reads inv t.toList ps → ps = inv.segment t) ∧
    List.Sublist (spell (inv.segment t)).toList t.toList ∧
    (spell (inv.segment t)).toList.filter (fun x => !Text.isBlank x) =
      t.toList.filter (fun x => !Text.isBlank x) ∧
    ((∀ s ∈ inv.symbols, ∀ x ∈ s.toList, Text.isBlank x = false) →
      spell (inv.segment t) = String.ofList (t.toList.filter fun x => !Text.isBlank x)) := by
  refine ⟨reads_segmentChars inv _, fun ps h => eq_segmentChars_of_reads h,
    spell_segmentChars_sublist inv _, filter_spell_segmentChars inv _, fun hsym => ?_⟩
  -- with no blank to leave out, leaving out the blanks changes nothing
  have hsame : (spell (inv.segment t)).toList.filter (fun x => !Text.isBlank x) =
      (spell (inv.segment t)).toList := List.filter_eq_self.2 fun x hx => by
    simpa using spell_segmentChars_not_blank hsym t.toList x hx
  apply String.toList_inj.1
  rw [String.toList_ofList, ← filter_spell_segmentChars inv t.toList]
  exact hsame.symm

/-- A blank inside a symbol is kept: an inventory with the one symbol `a b` reads the word
`a b` as that symbol, which written out is `a b`, not `ab`. -/
theorem segment_keeps_blank_inside_symbol :
    spell (Inventory.segment ⟨[{ symbol := "a b" }], none⟩ "a b") = "a b" ∧
    spell (Inventory.segment ⟨[{ symbol := "a b" }], none⟩ "a b") ≠
      String.ofList ("a b".toList.filter fun x => !Text.isBlank x) := by
  -- the one symbol is the longest written at the start, and the reading ends after it
  have hlong : Inventory.longestAt ⟨[{ symbol := "a b" }], none⟩ "a b".toList =
      some { symbol := "a b" } := by decide
  have hread : Inventory.segment ⟨[{ symbol := "a b" }], none⟩ "a b" = [{ symbol := "a b" }] :=
    (eq_segmentChars_of_reads (.symbol (by decide) (longestAt_some hlong).1
      (longestAt_some hlong).2 .nil)).symm
  rw [hread]
  refine ⟨by simp, ?_⟩
  simp only [spell_cons, spell_nil, String.append_empty]
  decide

end Inventory

end SoundLaw
