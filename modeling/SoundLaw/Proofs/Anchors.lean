import SoundLaw.Proofs.LeftmostScan

/-!
# Contexts anchored at the edges of the word

A rule written `… / #_` or `… / _#` is meant to apply at the start or at the end of a word. The
compiled rule keeps two flags for this, `initial` and `final`, but they are read off the notation
text (the `before` context starts with `#`, the `after` context ends with `#`), while a pass of
the rule only matches the patterns. What a pass honours is the shape of the patterns:

* `Pattern.startsAtEdge`, `Pattern.endsAtEdge` — a pattern begins or ends with a word boundary:
  it is `#`, or a sequence whose first or last child begins or ends so;
* `at_edge_of_startsAtEdge` — such a pattern matches only at an end of the word, since `#`
  matches at both;
* `end_at_edge_of_endsAtEdge` — such a pattern, wherever it matches, stops at an end of the word;
* `rewrites_anchored_at_edges` — **the pass**: a `before` context that begins with `#` licenses
  every rewrite from the start of the word; an `after` context that ends with `#` licenses every
  rewrite up to the end of the word, except an empty rewrite at the very start of the word,
  where `#` matched the start. The scan never tries the end of the word itself, so an insertion
  before `#` (`Ø → e / _#`) lands only at the start.

A flag is no guarantee of the shape: `#*` starts with `#` but matches anywhere
(`anchor_flags_not_honoured`).
-/

namespace SoundLaw

namespace Pattern

/-! ## Patterns anchored at an edge -/

mutual
/-- Whether a pattern begins with a word boundary. -/
def startsAtEdge : Pattern → Bool
  | .boundary => true
  | .seq ps => headStartsAtEdge ps
  | _ => false

/-- Whether the first of some patterns begins with a word boundary. -/
def headStartsAtEdge : List Pattern → Bool
  | [] => false
  | p :: _ => startsAtEdge p
end

mutual
/-- Whether a pattern ends with a word boundary. -/
def endsAtEdge : Pattern → Bool
  | .boundary => true
  | .seq ps => lastEndsAtEdge ps
  | _ => false

/-- Whether the last of some patterns ends with a word boundary. -/
def lastEndsAtEdge : List Pattern → Bool
  | [] => false
  | [p] => endsAtEdge p
  | _ :: p :: ps => lastEndsAtEdge (p :: ps)
end

/-- Where a sequence matches, its first child matches. -/
theorem matchLength_head {p : Pattern} {ps : List Pattern} {w : List Phoneme} {i l : Nat}
    (h : matchSeq (p :: ps) w i = some l) : ∃ lp, p.matchLength w i = some lp := by
  simp only [matchSeq] at h
  split at h
  · cases h
  · split at h
    · cases h
    · exact ⟨_, ‹_›⟩

/-- Where a sequence of two or more children matches, its first child matches and the rest
matches right after it. -/
theorem matchSeq_cons_some {p : Pattern} {ps : List Pattern} {w : List Phoneme} {i l : Nat}
    (h : matchSeq (p :: ps) w i = some l) :
    ∃ lp lr, p.matchLength w i = some lp ∧ matchSeq ps w (i + lp) = some lr ∧ l = lp + lr := by
  simp only [matchSeq] at h
  split at h
  · cases h
  · split at h
    · cases h
    · rename_i lp hp
      obtain ⟨lr, hr, rfl⟩ := Option.map_eq_some_iff.1 h
      exact ⟨lp, lr, hp, hr, rfl⟩

/-- A pattern that begins with `#` matches only at an end of the word. -/
theorem at_edge_of_startsAtEdge : ∀ (t : Pattern) {w : List Phoneme} {i l : Nat},
    t.startsAtEdge = true → t.matchLength w i = some l → i = 0 ∨ i = w.length
  | .boundary, w, i, l, _, h => by
    simp only [matchLength] at h
    split at h
    · assumption
    · cases h
  | .seq (p :: ps), w, i, l, hs, h => by
    -- the first child matches where the sequence does
    obtain ⟨lp, hp⟩ := matchLength_head (by simpa only [matchLength] using h)
    exact at_edge_of_startsAtEdge p (by simpa [startsAtEdge, headStartsAtEdge] using hs) hp
  | .seq [], _, _, _, hs, _ => by simp [startsAtEdge, headStartsAtEdge] at hs
  | .null, _, _, _, hs, _ => by simp [startsAtEdge] at hs
  | .symbol _, _, _, _, hs, _ => by simp [startsAtEdge] at hs
  | .features _, _, _, _, hs, _ => by simp [startsAtEdge] at hs
  | .alt _, _, _, _, hs, _ => by simp [startsAtEdge] at hs
  | .rep _ _, _, _, _, hs, _ => by simp [startsAtEdge] at hs

mutual
/-- A pattern that ends with `#`, wherever it matches, stops at an end of the word. -/
theorem end_at_edge_of_endsAtEdge : ∀ (t : Pattern) {w : List Phoneme} {i l : Nat},
    t.endsAtEdge = true → t.matchLength w i = some l → i + l = 0 ∨ i + l = w.length
  | .boundary, w, i, l, _, h => by
    simp only [matchLength] at h
    split at h
    · cases h
      simpa using ‹i = 0 ∨ i = w.length›
    · cases h
  | .seq ps, w, i, l, hs, h => by
    simp only [matchLength] at h
    exact end_at_edge_of_lastEndsAtEdge ps (by simpa [endsAtEdge] using hs) h
  | .null, _, _, _, hs, _ => by simp [endsAtEdge] at hs
  | .symbol _, _, _, _, hs, _ => by simp [endsAtEdge] at hs
  | .features _, _, _, _, hs, _ => by simp [endsAtEdge] at hs
  | .alt _, _, _, _, hs, _ => by simp [endsAtEdge] at hs
  | .rep _ _, _, _, _, hs, _ => by simp [endsAtEdge] at hs

/-- Patterns whose last ends with `#`, matched one after another, stop at an end of the word. -/
theorem end_at_edge_of_lastEndsAtEdge : ∀ (ps : List Pattern) {w : List Phoneme} {i l : Nat},
    lastEndsAtEdge ps = true → matchSeq ps w i = some l → i + l = 0 ∨ i + l = w.length
  | [], _, _, _, hs, _ => by simp [lastEndsAtEdge] at hs
  | [p], w, i, l, hs, h => by
    obtain ⟨lp, lr, hp, hr, rfl⟩ := matchSeq_cons_some h
    simp only [matchSeq, Option.some.injEq] at hr
    subst hr
    exact end_at_edge_of_endsAtEdge p (by simpa [lastEndsAtEdge] using hs) hp
  | p :: q :: qs, w, i, l, hs, h => by
    -- the last child is matched after the first, from where the first stops
    obtain ⟨lp, lr, _, hr, rfl⟩ := matchSeq_cons_some h
    have := end_at_edge_of_lastEndsAtEdge (q :: qs) (by simpa [lastEndsAtEdge] using hs) hr
    omega
end

end Pattern

namespace Rule

/-- **Rewrites are anchored where the contexts are.** Every span a pass of a rule rewrites is
licensed, when the `before` pattern begins with `#`, by a match of it from the start of the word;
and when the `after` pattern ends with `#`, by a match of it that reaches the end of the word,
unless the span is the empty one at the start of the word and the `after` pattern matched there
with nothing. -/
theorem rewrites_anchored_at_edges (r : Rule) (w : List Phoneme) :
    (r.before.startsAtEdge = true → ∀ s ∈ r.sites w, r.before.matchLength w 0 = some s.1) ∧
    (r.after.endsAtEdge = true → ∀ s ∈ r.sites w,
      (∃ l, r.after.matchLength w s.2 = some l ∧ s.2 + l = w.length) ∨
        (s = (0, 0) ∧ r.after.matchLength w 0 = some 0)) := by
  obtain ⟨ms, hscan, hsites⟩ := scan_sitesFrom r w 0
  have hmatch := hscan.matchesAt
  -- every rewritten span is the input span of an occurrence of the scan
  have hspan : ∀ s ∈ r.sites w, ∃ m ∈ ms, s = m.span := by
    intro s hs
    rw [sites, hsites] at hs
    obtain ⟨m, hm, rfl⟩ := List.mem_map.1 hs
    exact ⟨m, hm, rfl⟩
  refine ⟨fun hstart s hs => ?_, fun hend s hs => ?_⟩
  · -- the `before` match starts at an end of the word, and not at its end
    obtain ⟨m, hm, rfl⟩ := hspan s hs
    have hm := hmatch m hm
    have hpos : m.pos = 0 := by
      rcases Pattern.at_edge_of_startsAtEdge _ hstart hm.before with h | h
      · exact h
      · exact absurd h (Nat.ne_of_lt hm.inside)
    have hb := hm.before
    rw [hpos, Nat.sub_zero] at hb
    exact hb
  · -- the `after` match stops at an end of the word: the end, or the start with nothing before
    obtain ⟨m, hm, rfl⟩ := hspan s hs
    have hm := hmatch m hm
    obtain ⟨l, hl⟩ := Option.isSome_iff_exists.1 hm.after
    rcases Pattern.end_at_edge_of_endsAtEdge _ hend hl with h | h
    · have hstop : m.stop = 0 := by omega
      have hstart : m.start = 0 := by
        have := hm.start_le
        omega
      have hl0 : l = 0 := by omega
      refine .inr ⟨?_, ?_⟩
      · simp [Occurrence.span, hstart, hstop]
      · rw [hstop] at hl
        rw [hl, hl0]
    · exact .inl ⟨l, hl, h⟩

/-- `Ø → e / _#` over `ab`: its `after` pattern ends with `#`, and its one rewrite is the empty
span at the start of the word. -/
theorem final_epenthesis_anchored :
    let r : Rule :=
      ⟨"Ø → e / _#", {}, ⟨[], none⟩, .null, .null, .boundary, [.literal ⟨"e", .empty⟩], false, true⟩
    let w : List Phoneme := [⟨"a", .empty⟩, ⟨"b", .empty⟩]
    r.after.endsAtEdge = true ∧ ∀ s ∈ r.sites w,
      (∃ l, r.after.matchLength w s.2 = some l ∧ s.2 + l = w.length) ∨
        (s = (0, 0) ∧ r.after.matchLength w 0 = some 0) :=
  ⟨rfl, (rewrites_anchored_at_edges _ _).2 rfl⟩

/-- A computation that gives a known value under a map gave a value mapped to it. -/
theorem exists_ok_of_toOption_map {ε α β : Type} {x : Except ε α} {f : α → β} {v : β}
    (h : x.toOption.map f = some v) : ∃ a, x = .ok a ∧ f a = v := by
  cases x with
  | error => cases h
  | ok a => exact ⟨a, rfl, Option.some.inj h⟩

/-- The flags do not make a pass honour the edges. `Ø → e / _#` is compiled as word-final, yet
over `ab` it inserts `e` at the start of the word, where `#` matches with nothing, and never at
the end; `a → e / #*_` is compiled as word-initial, yet over `ba` it rewrites the `a`, which no
match of its `before` context from the start of the word reaches. -/
theorem anchor_flags_not_honoured :
    let inv : Inventory := ⟨[⟨"a", .empty⟩, ⟨"b", .empty⟩, ⟨"e", .empty⟩], none⟩
    let a : Phoneme := ⟨"a", .empty⟩
    let b : Phoneme := ⟨"b", .empty⟩
    let e : Phoneme := ⟨"e", .empty⟩
    (∃ r, Rule.compile {} inv "Ø → e / _#" = .ok r ∧ r.final = true ∧
      (r.sweep [a, b]).run' = (.ok [⟨true, [e]⟩, ⟨false, [a, b]⟩], []) ∧
      ¬ ∀ s ∈ r.sites [a, b], ∃ l, r.after.matchLength [a, b] s.2 = some l ∧ s.2 + l = 2) ∧
    (∃ r, Rule.compile {} inv "a → e / #*_" = .ok r ∧ r.initial = true ∧
      (r.sweep [b, a]).run' = (.ok [⟨false, [b]⟩, ⟨true, [e]⟩], []) ∧
      ¬ ∀ s ∈ r.sites [b, a], r.before.matchLength [b, a] 0 = some s.1) := by
  intro inv a b e
  constructor
  · -- `_#`: the input and the `before` context are empty, and `#` matches at offset 0 only
    obtain ⟨r, hr, hparts⟩ := exists_ok_of_toOption_map
      (f := fun r => ((r.input, r.before, r.after), (r.output, r.initial, r.final)))
      (show (Rule.compile {} inv "Ø → e / _#").toOption.map _ =
        some ((.null, .null, .boundary), ([.literal e], false, true)) by decide +kernel)
    simp only [Prod.mk.injEq] at hparts
    obtain ⟨⟨hi, hb, ha⟩, ho, -, hf⟩ := hparts
    have hsites : r.sites [a, b] = [(0, 0)] := by
      rw [sites, sitesFrom, if_pos (by decide)]
      simp [hi, hb, ha, Pattern.matchLength]
      rw [sitesFrom, if_pos (by decide)]
      simp [hi, hb, ha, Pattern.matchLength]
      rw [sitesFrom, if_neg (by decide)]
    refine ⟨r, hr, hf, ?_, ?_⟩
    · simp only [sweep, hsites]
      simp [cut, substitute, bySlot, ho, Traced.run']
      rfl
    · rw [hsites]
      intro hall
      obtain ⟨l, hl, hsum⟩ := hall (0, 0) List.mem_cons_self
      rw [ha] at hl
      simp [Pattern.matchLength] at hl
      omega
  · -- `#*_`: the repeated `#` matches with nothing wherever `#` itself does not
    obtain ⟨r, hr, hparts⟩ := exists_ok_of_toOption_map
      (f := fun r => ((r.input, r.before, r.after), (r.output, r.initial, r.final)))
      (show (Rule.compile {} inv "a → e / #*_").toOption.map _ =
        some ((.symbol "a", .rep .boundary 0, .null), ([.literal e], true, false)) by decide +kernel)
    simp only [Prod.mk.injEq] at hparts
    obtain ⟨⟨hi, hb, ha⟩, ho, hini, -⟩ := hparts
    have hsites : r.sites [b, a] = [(1, 2)] := by
      rw [sites, sitesFrom, if_pos (by decide)]
      simp [hi, hb, Pattern.matchLength, repeatGreedy, a, b]
      rw [sitesFrom, if_pos (by decide)]
      simp [hi, hb, ha, Pattern.matchLength, repeatGreedy]
      rw [sitesFrom, if_neg (by decide)]
    refine ⟨r, hr, hini, ?_, ?_⟩
    · simp only [sweep, hsites]
      simp [cut, substitute, bySlot, ho, Traced.run']
      rfl
    · rw [hsites]
      intro hall
      have h1 := hall (1, 2) List.mem_cons_self
      rw [hb] at h1
      simp [Pattern.matchLength, repeatGreedy] at h1

end Rule

end SoundLaw
