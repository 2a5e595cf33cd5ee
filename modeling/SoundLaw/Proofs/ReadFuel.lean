import SoundLaw.Proofs.ReadBack

/-!
# Reading with enough fuel

`Pattern.read` carries fuel only to make its recursion structural: each piece it reads again is
shorter than the trimmed text it was cut from. So the fuel stops mattering once it exceeds the
length of the trimmed text, and a reading sees the trimmed text only: two texts with the same trim
parse alike, whatever blanks stand at their ends.

* `Text.trim_blank_around`, `Text.exists_blank_around` — the trim of a text is what lies between
  its blank ends;
* `Text.length_lt_of_mem_splitWhere` — a text cut in two or more pieces has each piece shorter;
* `Pattern.readStep` — one reading of a trimmed text, its pieces read by a given reader;
* `Pattern.quantified_congr`, `Pattern.readStep_congr` — a reading whose pieces are read by two
  readers that agree on texts shorter than the whole is the same;
* `Pattern.read_fuel` — any two amounts of fuel beyond the trimmed length read alike;
* `Pattern.parse_of_trim_eq` — texts with the same trim parse alike.
-/

namespace SoundLaw

/-- Traversals by two functions that agree on every element agree, failures included. -/
theorem mapM_congr_of_mem {α β ε : Type} {f g : α → Except ε β} :
    ∀ {l : List α}, (∀ x ∈ l, f x = g x) → l.mapM f = l.mapM g
  | [], _ => rfl
  | x :: l, h => by
    rw [List.mapM_cons, List.mapM_cons, h x (by simp),
      mapM_congr_of_mem fun y hy => h y (by simp [hy])]

namespace Text

/-! ## Trimming -/

/-- A text that is empty or starts and ends with characters that are not blank: what trimming
leaves. -/
def Trimmed (cs : List Char) : Prop :=
  (∀ c ∈ cs.head?, isBlank c = false) ∧ ∀ c ∈ cs.getLast?, isBlank c = false

theorem dropWhile_blank_append {a t : List Char} (ha : ∀ c ∈ a, isBlank c = true) :
    (a ++ t).dropWhile isBlank = t.dropWhile isBlank := by
  induction a with
  | nil => rfl
  | cons c a ih =>
    rw [List.cons_append, List.dropWhile_cons_of_pos (ha c (by simp))]
    exact ih fun x hx => ha x (by simp [hx])

theorem dropWhile_of_head {t : List Char} (h : ∀ c ∈ t.head?, isBlank c = false) :
    t.dropWhile isBlank = t := by
  cases t with
  | nil => rfl
  | cons c t => exact List.dropWhile_cons_of_neg (by simp [h c rfl])

/-- The trim of a text made of blanks, a trimmed middle and blanks is the middle. -/
theorem trim_blank_around {a m z : List Char} (ha : ∀ c ∈ a, isBlank c = true)
    (hz : ∀ c ∈ z, isBlank c = true) (hm : Trimmed m) : trim (a ++ m ++ z) = m := by
  unfold trim trimLeft
  rw [List.append_assoc, dropWhile_blank_append ha]
  cases m with
  | nil =>
    have hzero : z.dropWhile isBlank = [] := by
      simpa using dropWhile_blank_append (t := []) hz
    rw [List.nil_append, hzero]
    rfl
  | cons c m =>
    -- the first character stays, and so, read backwards, does the last
    rw [dropWhile_of_head (t := c :: m ++ z) (by simpa using hm.1), List.reverse_append,
      dropWhile_blank_append fun x hx => hz x (List.mem_reverse.1 hx),
      dropWhile_of_head fun x hx => hm.2 x (by rwa [List.head?_reverse] at hx),
      List.reverse_reverse]

/-- Every text is its trim between blank ends. -/
theorem exists_blank_around (cs : List Char) : ∃ a z, (∀ c ∈ a, isBlank c = true) ∧
    (∀ c ∈ z, isBlank c = true) ∧ Trimmed (trim cs) ∧ cs = a ++ trim cs ++ z := by
  have blank_of_mem : ∀ {l : List Char} {c : Char}, c ∈ l.takeWhile isBlank → isBlank c = true :=
    fun h => List.all_eq_true.1 List.all_takeWhile _ h
  have hleft : cs = cs.takeWhile isBlank ++ trimLeft cs := List.takeWhile_append_dropWhile.symm
  -- read backwards, the trimmed-left text is its trailing blanks, then the trim
  have hright : trimLeft cs = trim cs ++ ((trimLeft cs).reverse.takeWhile isBlank).reverse := by
    have h := congrArg List.reverse
      (List.takeWhile_append_dropWhile (p := isBlank) (l := (trimLeft cs).reverse))
    rw [List.reverse_reverse, List.reverse_append] at h
    exact h.symm
  refine ⟨cs.takeWhile isBlank, ((trimLeft cs).reverse.takeWhile isBlank).reverse,
    fun c hc => blank_of_mem hc,
    fun c hc => blank_of_mem (List.mem_reverse.1 hc), ⟨fun c hc => ?_, fun c hc => ?_⟩, ?_⟩
  · -- the first character of the trim is the first non-blank of the text
    have hfirst := List.head?_dropWhile_not isBlank cs
    have hhead : (trimLeft cs).head? = some c := by
      rw [hright, List.head?_append, show (trim cs).head? = some c from hc]
      rfl
    rw [show (cs.dropWhile isBlank).head? = some c from hhead] at hfirst
    exact hfirst
  · have hlast := List.head?_dropWhile_not isBlank (trimLeft cs).reverse
    have hhead : ((trimLeft cs).reverse.dropWhile isBlank).head? = some c := by
      rw [← List.getLast?_reverse]
      exact hc
    rw [hhead] at hlast
    exact hlast
  · rw [List.append_assoc, ← hright]
    exact hleft

theorem trim_of_trimmed {m : List Char} (hm : Trimmed m) : trim m = m := by
  simpa using trim_blank_around (a := []) (z := []) (by simp) (by simp) hm

theorem trimmed_trim (cs : List Char) : Trimmed (trim cs) := by
  obtain ⟨_, _, _, _, hm, _⟩ := exists_blank_around cs
  exact hm

@[simp] theorem trim_trim (cs : List Char) : trim (trim cs) = trim cs :=
  trim_of_trimmed (trimmed_trim cs)

theorem length_trim_le (cs : List Char) : (trim cs).length ≤ cs.length := by
  obtain ⟨a, z, _, _, _, h⟩ := exists_blank_around cs
  have hlen := congrArg List.length h
  simp only [List.length_append] at hlen
  omega

theorem mem_of_mem_trim {cs : List Char} {c : Char} (h : c ∈ trim cs) : c ∈ cs := by
  obtain ⟨a, z, _, _, _, hcs⟩ := exists_blank_around cs
  rw [hcs]
  simp [h]

theorem isBlank_of_mem_space {c : Char} (h : c ∈ [' ']) : isBlank c = true := by
  rw [List.mem_singleton.1 h]
  decide

/-- Blanks added at either end do not change the trim. -/
theorem trim_pad {a t z : List Char} (ha : ∀ c ∈ a, isBlank c = true)
    (hz : ∀ c ∈ z, isBlank c = true) : trim (a ++ t ++ z) = trim t := by
  obtain ⟨a', z', ha', hz', hm, hcs⟩ := exists_blank_around t
  have hpad : a ++ t ++ z = (a ++ a') ++ trim t ++ (z' ++ z) := by
    conv => lhs; rw [hcs]
    simp only [List.append_assoc]
  rw [hpad]
  exact trim_blank_around (fun c hc => (List.mem_append.1 hc).elim (ha c) (ha' c))
    (fun c hc => (List.mem_append.1 hc).elim (hz' c) (hz c)) hm

@[simp]
theorem trim_space_cons (t : List Char) : trim (' ' :: t) = trim t := by
  simpa using trim_pad (a := [' ']) (z := []) (t := t) (fun _ h => isBlank_of_mem_space h) (by simp)

@[simp]
theorem trim_append_space (t : List Char) : trim (t ++ [' ']) = trim t := by
  simpa using trim_pad (a := []) (z := [' ']) (t := t) (by simp) fun _ h => isBlank_of_mem_space h

/-- A text cut at a character that is not blank trims to the two sides, each trimmed on its
outer end only: their own trims are those of the sides. -/
theorem trim_cut {x y : List Char} {c : Char} (hc : isBlank c = false) :
    ∃ x' y', trim (x ++ c :: y) = x' ++ c :: y' ∧ trim x' = trim x ∧ trim y' = trim y ∧
      ∀ d ∈ x', d ∈ x := by
  -- dropping blanks from either end stops at `c` at the latest
  have hstop : ∀ u v : List Char, (u ++ c :: v).dropWhile isBlank = u.dropWhile isBlank ++ c :: v := by
    intro u v
    rw [List.dropWhile_append]
    split
    · rename_i hu
      rw [List.isEmpty_iff.1 hu, List.dropWhile_cons_of_neg (by simp [hc])]
      rfl
    · rfl
  have hleft : x = x.takeWhile isBlank ++ x.dropWhile isBlank := List.takeWhile_append_dropWhile.symm
  have hright : y = (y.reverse.dropWhile isBlank).reverse ++ (y.reverse.takeWhile isBlank).reverse := by
    have h := congrArg List.reverse
      (List.takeWhile_append_dropWhile (p := isBlank) (l := y.reverse))
    rw [List.reverse_reverse, List.reverse_append] at h
    exact h.symm
  have blank_of_mem : ∀ {l : List Char} {d : Char}, d ∈ l.takeWhile isBlank → isBlank d = true :=
    fun h => List.all_eq_true.1 List.all_takeWhile _ h
  refine ⟨x.dropWhile isBlank, (y.reverse.dropWhile isBlank).reverse, ?_, ?_, ?_,
    fun d hd => (List.dropWhile_sublist _).subset hd⟩
  · unfold trim trimLeft
    rw [hstop, List.reverse_append, List.reverse_cons, List.append_assoc, List.singleton_append,
      hstop, List.reverse_append, List.reverse_cons, List.reverse_reverse, List.append_assoc,
      List.singleton_append]
  · conv => rhs; rw [hleft]
    simpa using (trim_pad (a := x.takeWhile isBlank) (z := []) (fun d hd => blank_of_mem hd)
      (by simp) (t := x.dropWhile isBlank)).symm
  · conv => rhs; rw [hright]
    simpa using (trim_pad (a := []) (z := (y.reverse.takeWhile isBlank).reverse) (by simp)
      (fun d hd => blank_of_mem (List.mem_reverse.1 hd))
      (t := (y.reverse.dropWhile isBlank).reverse)).symm

/-- Two trimmed texts, the first not empty, make a trimmed text. -/
theorem Trimmed.append {x y : List Char} (hx : Trimmed x) (hy : Trimmed y) (hne : x ≠ []) :
    Trimmed (x ++ y) := by
  refine ⟨fun c hc => ?_, fun c hc => ?_⟩
  · obtain ⟨d, x', rfl⟩ := List.exists_cons_of_ne_nil hne
    exact hx.1 c (by simpa using hc)
  · rw [List.getLast?_append] at hc
    cases hl : y.getLast? with
    | some d =>
      rw [hl] at hc
      exact hy.2 c (by simpa [hl] using hc)
    | none =>
      rw [hl] at hc
      exact hx.2 c (by simpa using hc)

/-! ## Pieces -/

section Pieces

variable {cut : Char → Bool}

theorem splitWhere_cons_cut {c : Char} {cs : List Char} (h : cut c = true) :
    splitWhere cut (c :: cs) = [] :: splitWhere cut cs := by
  simp [splitWhere, h]

theorem splitWhere_cons_keep {c : Char} {cs first : List Char} {rest : List (List Char)}
    (h : cut c = false) (hs : splitWhere cut cs = first :: rest) :
    splitWhere cut (c :: cs) = (c :: first) :: rest := by
  simp [splitWhere, h, hs]

/-- A stretch without cut characters followed by a cut character is one piece. -/
theorem splitWhere_append_cut {d : Char} {y : List Char} (hd : cut d = true) :
    ∀ {x : List Char}, (∀ c ∈ x, cut c = false) → splitWhere cut (x ++ d :: y) = x :: splitWhere cut y
  | [], _ => splitWhere_cons_cut hd
  | c :: x, hx => by
    rw [List.cons_append, splitWhere_cons_keep (hx c List.mem_cons_self)
      (splitWhere_append_cut hd fun c' hc' => hx c' (List.mem_cons_of_mem _ hc'))]

theorem splitWhere_ne_nil : ∀ cs : List Char, splitWhere cut cs ≠ []
  | [] => by simp [splitWhere]
  | c :: cs => by
    cases hc : cut c with
    | true => simp [splitWhere_cons_cut hc]
    | false =>
      obtain ⟨first, rest, hs⟩ := List.exists_cons_of_ne_nil (splitWhere_ne_nil cs)
      simp [splitWhere_cons_keep hc hs]

/-- A piece and the number of pieces together take at most the text and one more: every piece
but one ends at a cut character. -/
theorem length_add_length_splitWhere_le :
    ∀ cs : List Char, ∀ p ∈ splitWhere cut cs, p.length + (splitWhere cut cs).length ≤ cs.length + 1
  | [] => by simp [splitWhere]
  | c :: cs => by
    intro p hp
    have ih := length_add_length_splitWhere_le cs
    obtain ⟨first, rest, hs⟩ := List.exists_cons_of_ne_nil (@splitWhere_ne_nil cut cs)
    have hfirst := ih first (by simp [hs])
    rw [hs] at ih hfirst
    cases hc : cut c with
    | true =>
      rw [splitWhere_cons_cut hc, hs] at hp ⊢
      rcases List.mem_cons.1 hp with rfl | hp
      · simp only [List.length_nil, List.length_cons] at hfirst ⊢
        omega
      · have hpl := ih p hp
        simp only [List.length_cons] at hpl ⊢
        omega
    | false =>
      rw [splitWhere_cons_keep hc hs] at hp ⊢
      rcases List.mem_cons.1 hp with rfl | hp
      · simp only [List.length_cons] at hfirst ⊢
        omega
      · have hpl := ih p (List.mem_cons_of_mem _ hp)
        simp only [List.length_cons] at hpl ⊢
        omega

theorem length_le_of_mem_splitWhere {cs p : List Char} (hp : p ∈ splitWhere cut cs) :
    p.length ≤ cs.length := by
  have h := length_add_length_splitWhere_le cs p hp
  have hpos := List.length_pos_iff.2 (@splitWhere_ne_nil cut cs)
  omega

/-- Cut in two or more pieces, a text has each piece shorter than itself. -/
theorem length_lt_of_mem_splitWhere {cs p : List Char} (hp : p ∈ splitWhere cut cs)
    (hmany : 1 < (splitWhere cut cs).length) : p.length < cs.length := by
  have h := length_add_length_splitWhere_le cs p hp
  omega

/-- A piece holds characters of the text, none of them a cut character. -/
theorem mem_of_mem_splitWhere :
    ∀ {t p : List Char}, p ∈ splitWhere cut t → ∀ c ∈ p, c ∈ t ∧ cut c = false
  | [], p, hp, c, hc => by simp_all [splitWhere]
  | d :: cs, p, hp, c, hc => by
    obtain ⟨first, rest, hs⟩ := List.exists_cons_of_ne_nil (@splitWhere_ne_nil cut cs)
    cases hd : cut d with
    | true =>
      rw [splitWhere_cons_cut hd] at hp
      rcases List.mem_cons.1 hp with rfl | hp
      · simp at hc
      · obtain ⟨hmem, hcut⟩ := mem_of_mem_splitWhere hp c hc
        exact ⟨List.mem_cons_of_mem _ hmem, hcut⟩
    | false =>
      rw [splitWhere_cons_keep hd hs] at hp
      rcases List.mem_cons.1 hp with rfl | hp
      · rcases List.mem_cons.1 hc with rfl | hc
        · exact ⟨List.mem_cons_self, hd⟩
        · obtain ⟨hmem, hcut⟩ := mem_of_mem_splitWhere (t := cs) (p := first) (by simp [hs]) c hc
          exact ⟨List.mem_cons_of_mem _ hmem, hcut⟩
      · obtain ⟨hmem, hcut⟩ := mem_of_mem_splitWhere (t := cs) (p := p) (by simp [hs, hp]) c hc
        exact ⟨List.mem_cons_of_mem _ hmem, hcut⟩

end Pieces

/-- The pieces a successful split by delimiters returns are the pieces between its delimiter
characters. -/
theorem eq_splitWhere_of_splitDelimited {opening closing label : String} {cs : List Char}
    {parts : List (List Char)} (h : splitDelimited opening closing label cs = .ok parts) :
    parts = splitWhere (fun c => opening.toList.contains c || closing.toList.contains c) cs := by
  unfold splitDelimited at h
  dsimp only at h
  split at h
  · cases h
  split at h
  · cases h
  split at h
  · exact (Except.ok.inj h).symm
  · cases h

/-- A delimited text cut in several pieces is cut in shorter ones. -/
theorem length_lt_of_mem_splitDelimited {opening closing label : String} {cs p : List Char}
    {parts : List (List Char)} (h : splitDelimited opening closing label cs = .ok parts)
    (hmany : 1 < parts.length) (hp : p ∈ parts) : p.length < cs.length := by
  rw [eq_splitWhere_of_splitDelimited h] at hmany hp
  exact length_lt_of_mem_splitWhere hp hmany

end Text

namespace Pattern

variable (n : Notation)

/-! ## The atom before a mark lies before it -/

section Bounds

variable {T : Array Char} {test : Char → Bool}

theorem lastWhere_mem (lo : Nat) : ∀ {hi q : Nat}, lastWhere T test lo hi = some q → lo ≤ q ∧ q < hi
  | 0, q, h => by simp [lastWhere] at h
  | hi + 1, q, h => by
    by_cases hlo : hi < lo
    · simp [lastWhere, show hi + 1 - lo = 0 by omega] at h
    · -- the search up to `hi` answers unless the character at `hi` passes
      have ih := @lastWhere_mem lo hi
      unfold lastWhere at ih h
      rw [show hi + 1 - lo = hi - lo + 1 by omega, List.range'_concat, List.foldl_append] at h
      simp only [Nat.one_mul, show lo + (hi - lo) = hi by omega, List.foldl_cons,
        List.foldl_nil] at h
      split at h
      · split at h
        · cases h
          omega
        · have := ih h
          omega
      · have := ih h
        omega

theorem firstWhere_mem {lo hi q : Nat} (h : firstWhere T test lo hi = some q) :
    lo ≤ q ∧ q < hi := by
  have hmem := List.mem_range'_1.1 (List.mem_of_find?_eq_some h)
  omega

/-- The atom a repetition mark applies to is not empty and ends at the mark at the latest. -/
theorem atomBefore_bounds {lo hi a b : Nat} (h : atomBefore T lo hi = some (a, b)) :
    a < b ∧ b ≤ hi := by
  unfold atomBefore at h
  cases hq : lastWhere T (fun c => !Text.isBlank c) lo hi with
  | none => simp [hq] at h
  | some q =>
    have hqb := lastWhere_mem lo hq
    simp only [hq] at h
    split at h
    · cases h
      omega
    · split at h
      · rename_i p hp
        have hpb := firstWhere_mem hp
        cases h
        omega
      · cases h
        omega

theorem length_slice (a b : Nat) : (slice T a b).length = min b T.size - a := by
  simp [slice]
  omega

end Bounds

/-! ## One reading, its pieces read by another reader -/

/-- One reading of the trimmed text `t`, its pieces read by `sub`: the body of `read`. -/
def readStep (sub : List Char → Except SoundError Pattern) (t : List Char) :
    Except SoundError Pattern :=
  if t.isEmpty || t == n.null.toList then .ok .null
  else if t == ['#'] then .ok .boundary
  else do
    match ← quantified n sub t.toArray [] 0 0 with
    | some p => .ok p
    | none =>
      let braces ← Text.splitDelimited "\x7b" "\x7d" "braces" t
      if 1 < braces.length then
        let parts ← braces.zipIdx.mapM fun (part, i) =>
          if i % 2 = 1 then
            (Text.splitWhere (· == ',') part).mapM sub >>= fun os => .ok (.alt os)
          else sub part
        .ok (.seq parts)
      else
        let brackets ← Text.splitDelimited "[" "]" "brackets" t
        if 1 < brackets.length then
          let parts ← brackets.zipIdx.mapM fun (part, i) =>
            if i % 2 = 1 then .ok (.features (FeatureChange.parse (String.ofList part)))
            else sub part
          .ok (.seq parts)
        else .ok (.seq ((t.filter fun c => !Text.isBlank c).map (ofChar n)))

theorem read_succ (fuel : Nat) (text : List Char) :
    read n (fuel + 1) text = readStep n (read n fuel) (Text.trim text) := rfl

variable {n}

theorem readAtom_congr {sub sub' : List Char → Except SoundError Pattern} {x : List Char}
    (h : ∀ p : List Char, p.length ≤ x.length → sub p = sub' p) :
    readAtom sub x = readAtom sub' x := by
  unfold readAtom
  split
  · split
    · exact h _ (by simp only [List.length_dropLast, List.length_cons]; omega)
    · exact h _ (Nat.le_refl _)
  · exact h _ (Nat.le_refl _)

/-- The repetition pass reads only texts shorter than the whole: between marks, the atoms, and
after the last mark (once there is one, so that it starts past offset 0). -/
theorem quantified_congr {sub sub' : List Char → Except SoundError Pattern} {T : Array Char}
    (h : ∀ p : List Char, p.length < T.size → sub p = sub' p) (items : List Pattern)
    (lastEnd index : Nat) (hend : items = [] ∨ 0 < lastEnd ∧ 0 < T.size) :
    quantified n sub T items lastEnd index = quantified n sub' T items lastEnd index := by
  unfold quantified
  by_cases hi : index < T.size
  · rw [if_pos hi, if_pos hi]
    cases hm : markAt n T index with
    | none => exact quantified_congr h items lastEnd (index + 1) hend
    | some m =>
      obtain ⟨e | least, more⟩ := m
      · rfl
      · cases ha : atomBefore T lastEnd index with
        | none => rfl
        | some ab =>
          obtain ⟨a, b⟩ := ab
          obtain ⟨hab, hb⟩ := atomBefore_bounds ha
          have hbefore : sub (slice T lastEnd a) = sub' (slice T lastEnd a) :=
            h _ (by rw [length_slice]; omega)
          have hatom : readAtom sub (slice T a b) = readAtom sub' (slice T a b) :=
            readAtom_congr fun p hp => h p (by rw [length_slice] at hp; omega)
          simp only [hbefore, hatom]
          congr 1
          funext before
          congr 1
          funext atom
          exact quantified_congr h _ _ _ (.inr ⟨by omega, by omega⟩)
  · rw [if_neg hi, if_neg hi]
    split
    · rfl
    · rename_i hne
      have hlast : 0 < lastEnd ∧ 0 < T.size := hend.resolve_left fun he => hne (by simp [he])
      rw [h _ (by rw [length_slice]; omega)]
termination_by T.size - index

/-- A reading whose pieces are read by two readers agreeing on texts shorter than the whole is
the same. -/
theorem readStep_congr {sub sub' : List Char → Except SoundError Pattern} {t : List Char}
    (h : ∀ p : List Char, p.length < t.length → sub p = sub' p) :
    readStep n sub t = readStep n sub' t := by
  have hq : quantified n sub t.toArray [] 0 0 = quantified n sub' t.toArray [] 0 0 :=
    quantified_congr (fun p hp => h p (by simpa using hp)) [] 0 0 (.inl rfl)
  unfold readStep
  rw [hq]
  congr 1
  congr 1
  congr 1
  funext found
  cases found with
  | some p => rfl
  | none =>
    cases hbraces : Text.splitDelimited "\x7b" "\x7d" "braces" t with
    | error e => rfl
    | ok braces =>
      simp only [ok_bind]
      by_cases hmany : 1 < braces.length
      · rw [if_pos hmany, if_pos hmany]
        congr 1
        apply mapM_congr_of_mem
        intro x hx
        obtain ⟨part, i⟩ := x
        have hpart :=
          Text.length_lt_of_mem_splitDelimited hbraces hmany (List.fst_mem_of_mem_zipIdx hx)
        dsimp only
        split
        · rw [mapM_congr_of_mem fun o ho =>
            h o (Nat.lt_of_le_of_lt (Text.length_le_of_mem_splitWhere ho) hpart)]
        · exact h part hpart
      · rw [if_neg hmany, if_neg hmany]
        cases hbrackets : Text.splitDelimited "[" "]" "brackets" t with
        | error e => rfl
        | ok brackets =>
          simp only [ok_bind]
          by_cases hmany' : 1 < brackets.length
          · rw [if_pos hmany', if_pos hmany']
            congr 1
            apply mapM_congr_of_mem
            intro x hx
            obtain ⟨part, i⟩ := x
            dsimp only
            split
            · rfl
            · exact h part (Text.length_lt_of_mem_splitDelimited hbrackets hmany'
              (List.fst_mem_of_mem_zipIdx hx))
          · rw [if_neg hmany', if_neg hmany']

/-! ## Fuel and blanks do not matter -/

/-- Any two amounts of fuel beyond the length of the trimmed text read it alike. -/
theorem read_fuel : ∀ {k m : Nat} {x : List Char}, (Text.trim x).length < k →
    (Text.trim x).length < m → read n k x = read n m x
  | 0, _, _, hk, _ => absurd hk (Nat.not_lt_zero _)
  | _ + 1, 0, _, _, hm => absurd hm (Nat.not_lt_zero _)
  | k + 1, m + 1, x, hk, hm => by
    rw [read_succ, read_succ]
    -- each piece is shorter than the trimmed text, and so is its own trim
    apply readStep_congr
    intro p hp
    have htrim := Text.length_trim_le p
    exact read_fuel (by omega) (by omega)

/-- Texts with the same trim read alike with enough fuel for each. -/
theorem read_of_trim_eq {x y : List Char} (h : Text.trim x = Text.trim y) {k m : Nat}
    (hk : (Text.trim x).length < k) (hm : (Text.trim y).length < m) : read n k x = read n m y := by
  obtain ⟨k, rfl⟩ : ∃ k', k = k' + 1 := ⟨k - 1, by omega⟩
  calc read n (k + 1) x = read n (k + 1) y := by rw [read_succ, read_succ, h]
    _ = read n m y := read_fuel (h ▸ hk) hm

/-- Texts with the same trim parse alike: blanks at the ends of a pattern change nothing. -/
theorem parse_of_trim_eq {s s' : String} (h : Text.trim s.toList = Text.trim s'.toList) :
    parse n s = parse n s' := by
  have hs := Text.length_trim_le s.toList
  have hs' := Text.length_trim_le s'.toList
  unfold parse
  rw [String.length_toList] at hs hs'
  rw [read_of_trim_eq h (m := s'.length + 1) (by omega) (by omega)]

end Pattern

end SoundLaw
