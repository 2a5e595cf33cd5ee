import SoundLaw.Pattern.Parser

/-!
# The canonical form of a pattern

`Pattern.canonicalize` is meant to give every pattern one shape, so that patterns that differ
only by nesting, by `null` children, by repeated options or by nodes that collapse get the same
tree. This module states that shape node by node and proves that canonicalization reaches it
and then stops.

* `Pattern.isCanonical` — every node has the canonical shape: a sequence has at least two
  children, none of them `null` or a sequence; an alternation has no option or at least two,
  all different and none an alternation; the base of a repetition is not a repetition;
* `isCanonical_canonicalize` — canonicalization gives a canonical pattern. Collapsing happens
  after splicing, so this rests on the parent splicing what a child collapses to: a sequence
  splices a child alternation whose options collapse to one sequence, and a repetition folds a
  base that collapses to a repetition;
* `canonicalize_of_isCanonical` — canonicalization leaves a canonical pattern as it is;
* `canonicalize_normal_form` — so the canonical patterns are exactly the fixed points of
  canonicalization, canonicalizing twice is canonicalizing once, and every pattern read by
  `Pattern.parse` is already canonical.
-/

namespace SoundLaw

namespace Pattern

/-! ## The canonical shape -/

/-- Whether a pattern is a sequence. -/
def isSeq : Pattern → Bool
  | .seq _ => true
  | _ => false

/-- Whether a pattern is an alternation. -/
def isAlt : Pattern → Bool
  | .alt _ => true
  | _ => false

/-- Whether a pattern is a repetition. -/
def isRep : Pattern → Bool
  | .rep _ _ => true
  | _ => false

/-- Whether a pattern may stand as a child of a canonical sequence: it is neither `null` nor a
sequence. -/
def fitsSeq (p : Pattern) : Bool := p != .null && !p.isSeq

mutual
/-- Whether every node of a pattern has its canonical shape. -/
def isCanonical : Pattern → Bool
  | .seq ps => decide (2 ≤ ps.length) && ps.all fitsSeq && allCanonical ps
  | .alt ps =>
    decide (ps.length ≠ 1) && ps.all (fun p => !p.isAlt) && decide ps.Nodup && allCanonical ps
  | .rep p _ => !p.isRep && isCanonical p
  | _ => true

/-- Whether each of the patterns is canonical. -/
def allCanonical : List Pattern → Bool
  | [] => true
  | p :: ps => isCanonical p && allCanonical ps
end

theorem allCanonical_iff (ps : List Pattern) :
    allCanonical ps = true ↔ ∀ p ∈ ps, isCanonical p = true := by
  induction ps with
  | nil => simp [allCanonical]
  | cons p ps ih => simp [allCanonical, ih]

@[simp] theorem isCanonical_seq (ps : List Pattern) :
    isCanonical (.seq ps) = true ↔
      2 ≤ ps.length ∧ (∀ p ∈ ps, fitsSeq p = true) ∧ ∀ p ∈ ps, isCanonical p = true := by
  simp [isCanonical, allCanonical_iff, and_assoc]

@[simp] theorem isCanonical_alt (ps : List Pattern) :
    isCanonical (.alt ps) = true ↔
      ps.length ≠ 1 ∧ (∀ p ∈ ps, p.isAlt = false) ∧ ps.Nodup ∧ ∀ p ∈ ps, isCanonical p = true := by
  simp [isCanonical, allCanonical_iff, and_assoc]

@[simp] theorem isCanonical_rep (p : Pattern) (k : Int) :
    isCanonical (.rep p k) = true ↔ p.isRep = false ∧ isCanonical p = true := by
  simp [isCanonical]

/-! ## Collapsing and keeping first occurrences -/

theorem seqOf_of_two_le {ps : List Pattern} (h : 2 ≤ ps.length) : seqOf ps = .seq ps := by
  match ps, h with
  | _ :: _ :: _, _ => rfl

theorem altOf_of_length_ne_one {ps : List Pattern} (h : ps.length ≠ 1) : altOf ps = .alt ps := by
  match ps, h with
  | [], _ => rfl
  | _ :: _ :: _, _ => rfl

/-- Collapsing canonical children that may stand in a sequence gives a canonical pattern: no
child is `null`, one child is itself, and two or more form a canonical sequence. -/
theorem isCanonical_seqOf {ps : List Pattern} (hfit : ∀ p ∈ ps, fitsSeq p = true)
    (hps : ∀ p ∈ ps, isCanonical p = true) : isCanonical (seqOf ps) = true := by
  match ps with
  | [] => rfl
  | [p] => exact hps p List.mem_cons_self
  | p :: q :: rest => simpa [seqOf] using And.intro hfit hps

/-- Collapsing distinct canonical options, none an alternation, gives a canonical pattern. -/
theorem isCanonical_altOf {ps : List Pattern} (hfit : ∀ p ∈ ps, p.isAlt = false)
    (hnd : ps.Nodup) (hps : ∀ p ∈ ps, isCanonical p = true) : isCanonical (altOf ps) = true := by
  match ps with
  | [] => rfl
  | [p] => exact hps p List.mem_cons_self
  | p :: q :: rest => simpa [altOf] using And.intro hfit (And.intro hnd hps)

theorem mem_keepFirst {seen ps : List Pattern} {q : Pattern} :
    q ∈ keepFirst seen ps ↔ q ∈ seen ∨ q ∈ ps := by
  induction ps generalizing seen with
  | nil => simp [keepFirst]
  | cons p ps ih =>
    simp only [keepFirst]
    split
    · rename_i hp
      have hmem : p ∈ seen := by simpa using hp
      rw [ih, List.mem_cons]
      constructor
      · rintro (h | h)
        · exact .inl h
        · exact .inr (.inr h)
      · rintro (h | rfl | h)
        · exact .inl h
        · exact .inl hmem
        · exact .inr h
    · rw [ih, List.mem_cons, List.mem_cons]
      constructor
      · rintro ((rfl | h) | h)
        · exact .inr (.inl rfl)
        · exact .inl h
        · exact .inr (.inr h)
      · rintro (h | rfl | h)
        · exact .inl (.inr h)
        · exact .inl (.inl rfl)
        · exact .inr h

/-- Keeping first occurrences gives each element once, given that the ones seen so far are
distinct. -/
theorem nodup_keepFirst {seen : List Pattern} (ps : List Pattern) (h : seen.Nodup) :
    (keepFirst seen ps).Nodup := by
  induction ps generalizing seen with
  | nil => exact List.pairwise_reverse.2 (h.imp Ne.symm)
  | cons p ps ih =>
    simp only [keepFirst]
    split
    · exact ih h
    · rename_i hp
      exact ih (List.nodup_cons.2 ⟨by simpa using hp, h⟩)

/-- Options that are already distinct are kept as they are, after the ones seen so far. -/
theorem keepFirst_of_nodup {seen ps : List Pattern} (h : (seen.reverse ++ ps).Nodup) :
    keepFirst seen ps = seen.reverse ++ ps := by
  induction ps generalizing seen with
  | nil => simp [keepFirst]
  | cons p ps ih =>
    have hp : p ∉ seen := by
      intro hmem
      exact (List.nodup_append.1 h).2.2 p (List.mem_reverse.2 hmem) p List.mem_cons_self rfl
    have hrest : ((p :: seen).reverse ++ ps).Nodup := by simpa using h
    simp only [keepFirst, List.contains_iff_mem, hp, if_false]
    rw [ih hrest]
    simp

/-! ## Canonicalization reaches the canonical shape -/

/-- The spliced children of a sequence are canonical and may stand in a sequence, given that
the canonical form of each child is canonical. -/
theorem spliceSeq_canonical : ∀ ps : List Pattern,
    (∀ p ∈ ps, isCanonical (canonicalize p) = true) →
      ∀ q ∈ spliceSeq ps, fitsSeq q = true ∧ isCanonical q = true
  | [], _ => by simp [spliceSeq]
  | p :: ps, hps => by
    have hp := hps p List.mem_cons_self
    have hrest := spliceSeq_canonical ps fun q hq => hps q (List.mem_cons_of_mem p hq)
    unfold spliceSeq
    split
    · -- a `null` child is dropped
      exact hrest
    · -- a sequence child gives its own children, which a canonical sequence holds canonical
      rename_i qs hseq
      rw [hseq, isCanonical_seq] at hp
      intro q hq
      rcases List.mem_append.1 hq with hq | hq
      · exact ⟨hp.2.1 q hq, hp.2.2 q hq⟩
      · exact hrest q hq
    · rename_i q hnull hseq
      intro q' hq'
      rcases List.mem_cons.1 hq' with rfl | hq'
      · refine ⟨?_, hp⟩
        cases hq : canonicalize p with
        | null => exact absurd hq hnull
        | seq qs => exact absurd hq (hseq qs)
        | _ => rfl
      · exact hrest q' hq'

/-- The spliced options of an alternation are canonical and none is an alternation, given that
the canonical form of each option is canonical. -/
theorem spliceAlt_canonical : ∀ ps : List Pattern,
    (∀ p ∈ ps, isCanonical (canonicalize p) = true) →
      ∀ q ∈ spliceAlt ps, q.isAlt = false ∧ isCanonical q = true
  | [], _ => by simp [spliceAlt]
  | p :: ps, hps => by
    have hp := hps p List.mem_cons_self
    have hrest := spliceAlt_canonical ps fun q hq => hps q (List.mem_cons_of_mem p hq)
    unfold spliceAlt
    split
    · -- an alternation option gives its own options
      rename_i qs halt
      rw [halt, isCanonical_alt] at hp
      intro q hq
      rcases List.mem_append.1 hq with hq | hq
      · exact ⟨hp.2.1 q hq, hp.2.2.2 q hq⟩
      · exact hrest q hq
    · rename_i q halt
      intro q' hq'
      rcases List.mem_cons.1 hq' with rfl | hq'
      · refine ⟨?_, hp⟩
        cases hq : canonicalize p with
        | alt qs => exact absurd hq (halt qs)
        | _ => rfl
      · exact hrest q' hq'

/-- **Canonicalization gives a canonical pattern.** -/
theorem isCanonical_canonicalize : ∀ t : Pattern, isCanonical (canonicalize t) = true
  | .null => rfl
  | .boundary => rfl
  | .symbol _ => rfl
  | .features _ => rfl
  | .seq ps => by
    have hsplice := spliceSeq_canonical ps fun p _ => isCanonical_canonicalize p
    rw [canonicalize]
    exact isCanonical_seqOf (fun q hq => (hsplice q hq).1) fun q hq => (hsplice q hq).2
  | .alt ps => by
    have hsplice := spliceAlt_canonical ps fun p _ => isCanonical_canonicalize p
    -- the options kept are spliced ones, each once
    have hkept : ∀ q ∈ keepFirst [] (spliceAlt ps), q.isAlt = false ∧ isCanonical q = true :=
      fun q hq => hsplice q (by simpa [mem_keepFirst] using hq)
    rw [canonicalize]
    exact isCanonical_altOf (fun q hq => (hkept q hq).1) (nodup_keepFirst _ List.nodup_nil)
      fun q hq => (hkept q hq).2
  | .rep p k => by
    have hp := isCanonical_canonicalize p
    rw [canonicalize]
    split
    · -- a base that canonicalizes to a repetition is folded into it
      rename_i q j hrep
      rw [hrep, isCanonical_rep] at hp
      exact (isCanonical_rep q (j + k)).2 hp
    · rename_i q hrep
      refine (isCanonical_rep _ k).2 ⟨?_, hp⟩
      cases hq : canonicalize p with
      | rep q j => exact absurd hq (hrep q j)
      | _ => rfl

/-! ## Canonical patterns are left as they are -/

/-- Children that are their own canonical forms and may stand in a sequence are spliced as
they are. -/
theorem spliceSeq_of_canonical : ∀ ps : List Pattern,
    (∀ p ∈ ps, canonicalize p = p ∧ fitsSeq p = true) → spliceSeq ps = ps
  | [], _ => rfl
  | p :: ps, hps => by
    obtain ⟨hp, hfit⟩ := hps p List.mem_cons_self
    have hrest := spliceSeq_of_canonical ps fun q hq => hps q (List.mem_cons_of_mem p hq)
    rw [spliceSeq, hp]
    cases p with
    | null => simp [fitsSeq] at hfit
    | seq qs => simp [fitsSeq, isSeq] at hfit
    | _ => simp [hrest]

/-- Options that are their own canonical forms and no alternations are spliced as they are. -/
theorem spliceAlt_of_canonical : ∀ ps : List Pattern,
    (∀ p ∈ ps, canonicalize p = p ∧ p.isAlt = false) → spliceAlt ps = ps
  | [], _ => rfl
  | p :: ps, hps => by
    obtain ⟨hp, halt⟩ := hps p List.mem_cons_self
    have hrest := spliceAlt_of_canonical ps fun q hq => hps q (List.mem_cons_of_mem p hq)
    rw [spliceAlt, hp]
    cases p with
    | alt qs => simp [isAlt] at halt
    | _ => simp [hrest]

/-- **Canonicalization leaves a canonical pattern as it is.** -/
theorem canonicalize_of_isCanonical : ∀ t : Pattern, isCanonical t = true → canonicalize t = t
  | .null, _ => rfl
  | .boundary, _ => rfl
  | .symbol _, _ => rfl
  | .features _, _ => rfl
  | .seq ps, h => by
    obtain ⟨hlen, hfit, hps⟩ := (isCanonical_seq ps).1 h
    rw [canonicalize, spliceSeq_of_canonical ps fun p hp =>
      ⟨canonicalize_of_isCanonical p (hps p hp), hfit p hp⟩, seqOf_of_two_le hlen]
  | .alt ps, h => by
    obtain ⟨hlen, hfit, hnd, hps⟩ := (isCanonical_alt ps).1 h
    rw [canonicalize, spliceAlt_of_canonical ps fun p hp =>
      ⟨canonicalize_of_isCanonical p (hps p hp), hfit p hp⟩,
      keepFirst_of_nodup (by simpa using hnd), List.reverse_nil, List.nil_append,
      altOf_of_length_ne_one hlen]
  | .rep p k, h => by
    obtain ⟨hrep, hp⟩ := (isCanonical_rep p k).1 h
    rw [canonicalize, canonicalize_of_isCanonical p hp]
    cases p with
    | rep q j => simp [isRep] at hrep
    | _ => rfl

/-- **Canonical form.** Canonicalization gives a canonical pattern, and a pattern is its own
canonical form exactly when it is canonical; so canonicalizing twice is canonicalizing once,
and canonicalizing what `Pattern.parse` reads changes nothing. -/
theorem canonicalize_normal_form (t : Pattern) :
    isCanonical (canonicalize t) = true ∧ (canonicalize t = t ↔ isCanonical t = true) ∧
      canonicalize (canonicalize t) = canonicalize t ∧
      ∀ (n : Notation) (s : String), (parse n s).map canonicalize = parse n s := by
  have hcan := isCanonical_canonicalize t
  refine ⟨hcan, ⟨fun h => h ▸ hcan, canonicalize_of_isCanonical t⟩,
    canonicalize_of_isCanonical _ hcan, fun n s => ?_⟩
  -- what the parser returns is the canonical form of what it read
  rw [parse]
  cases read n (s.length + 1) s.toList with
  | error e => rfl
  | ok p => simp [Except.map, canonicalize_of_isCanonical _ (isCanonical_canonicalize p)]

/-- An alternation whose options repeat and collapse to one sequence is spliced into the
sequence around it. -/
example : canonicalize (.seq [.symbol "a", .alt [.seq [.symbol "b", .symbol "c"],
    .seq [.symbol "b", .symbol "c"]]]) = .seq [.symbol "a", .symbol "b", .symbol "c"] := by
  decide

end Pattern

end SoundLaw
