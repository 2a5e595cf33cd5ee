import SoundLaw.Proofs.ReadFuel

/-!
# Splitting at a pair of one-character delimiters

For a pair of single characters, `splitDelimited` does exactly what its contract says. Read the
delimiters of a text in order (`delimitersIn`):

* the split succeeds iff they read opening, closing, opening, closing, …, an even number of them
  (`splitDelimited_ok_iff`);
* then it gives one piece more than there are delimiters, none holding a delimiter, and writing
  the pieces back with opening and closing delimiters between them in turn (`joinPieces`) gives
  the text (`splitDelimited_ok_pieces`);
* otherwise it reports an odd number of delimiters when their number is odd, and an unbalanced
  pair when it is even (`splitDelimited_error`).

`splitDelimited_pairs_up` puts the three together. The steps are the number of pieces
(`length_splitWhere`), the order check seen through the delimiters alone (`alternates_filter`,
`alternates_pairs`, `pairs_of_alternates`), and writing the pieces back
(`joinPieces_splitWhere`).
-/

namespace SoundLaw

namespace Text

/-- Whether a character is one of a pair of delimiters. -/
def isDelimiter (o c : Char) (x : Char) : Bool := x == o || x == c

/-- The delimiters of a text, in order. -/
def delimitersIn (o c : Char) (t : List Char) : List Char := t.filter (isDelimiter o c)

/-- Pieces written back with delimiters between them, opening and closing in turn: the first
piece, an opening delimiter, the second piece, a closing delimiter, and so on. -/
def joinPieces (o c : Char) : List (List Char) → List Char
  | [] => []
  | [p] => p
  | p :: q :: rest => p ++ o :: q ++ c :: joinPieces o c rest

/-- `k` pairs of delimiters, each an opening one followed by a closing one. -/
def pairs (o c : Char) (k : Nat) : List Char := (List.replicate k [o, c]).flatten

@[simp] theorem pairs_zero (o c : Char) : pairs o c 0 = [] := rfl

@[simp] theorem pairs_succ (o c : Char) (k : Nat) : pairs o c (k + 1) = o :: c :: pairs o c k := by
  simp [pairs, List.replicate_succ]

@[simp] theorem length_pairs (o c : Char) (k : Nat) : (pairs o c k).length = 2 * k := by
  induction k with
  | zero => rfl
  | succ k ih => simp [ih]; omega

variable {o c : Char}

/-- The cut of `splitDelimited` for one-character delimiters is the delimiter test. -/
theorem cut_singleton :
    (fun x => (String.singleton o).toList.contains x || (String.singleton c).toList.contains x) =
      isDelimiter o c := by
  funext x
  simp only [String.toList_singleton, List.contains_cons, List.contains_nil, Bool.or_false,
    isDelimiter]

/-- The order check's test for a delimiter, on a character written alone, is the delimiter test. -/
theorem singleton_delimiter_iff {x : Char} :
    (String.singleton x = String.singleton o ∨ String.singleton x = String.singleton c) ↔
      isDelimiter o c x = true := by
  simp [String.singleton_inj, isDelimiter]

/-! ## Pieces -/

section Pieces

variable {cut : Char → Bool}

/-- A text is cut into one piece more than it has cut characters. -/
theorem length_splitWhere : ∀ t : List Char, (splitWhere cut t).length = (t.filter cut).length + 1
  | [] => rfl
  | x :: t => by
    cases hx : cut x with
    | true => simp [splitWhere_cons_cut hx, hx, length_splitWhere t]
    | false =>
      obtain ⟨first, rest, hs⟩ := List.exists_cons_of_ne_nil (@splitWhere_ne_nil cut t)
      have ih := length_splitWhere t
      rw [hs, List.length_cons] at ih
      rw [splitWhere_cons_keep hx hs, List.filter_cons_of_neg (by simp [hx]), List.length_cons]
      omega

end Pieces

/-- A text whose delimiters are `k` pairs is cut into pieces that written back give the text. -/
theorem joinPieces_splitWhere :
    ∀ (k : Nat) (t : List Char), delimitersIn o c t = pairs o c k →
      joinPieces o c (splitWhere (isDelimiter o c) t) = t
  | 0, t, h => by
    have hnone : ∀ x ∈ t, isDelimiter o c x = false := by
      intro x hx
      cases hcut : isDelimiter o c x with
      | false => rfl
      | true =>
        have : x ∈ delimitersIn o c t := List.mem_filter.2 ⟨hx, hcut⟩
        simp [h] at this
    rw [splitWhere_of_forall_not_cut hnone]
    rfl
  | k + 1, t, h => by
    -- the first two delimiters split off the first two pieces
    rw [pairs_succ, delimitersIn, List.filter_eq_cons_iff] at h
    obtain ⟨p, rest, rfl, hp, ho, h⟩ := h
    rw [List.filter_eq_cons_iff] at h
    obtain ⟨q, rest', rfl, hq, hc, h⟩ := h
    have hp' : ∀ x ∈ p, isDelimiter o c x = false := fun x hx => by simpa using hp x hx
    have hq' : ∀ x ∈ q, isDelimiter o c x = false := fun x hx => by simpa using hq x hx
    rw [splitWhere_append_cut ho hp', splitWhere_append_cut hc hq', joinPieces,
      joinPieces_splitWhere k rest' h]
    simp

/-! ## The order of the delimiters -/

/-- Characters other than the delimiters are passed over by the order check. -/
theorem alternates_filter (e : Bool) :
    ∀ t : List Char, alternates (String.singleton o) (String.singleton c) e t =
      alternates (String.singleton o) (String.singleton c) e (delimitersIn o c t)
  | [] => rfl
  | x :: t => by
    by_cases hx : isDelimiter o c x = true
    · have hfilter : delimitersIn o c (x :: t) = x :: delimitersIn o c t :=
        List.filter_cons_of_pos hx
      have hxd := singleton_delimiter_iff.2 hx
      rw [hfilter, alternates, alternates, if_pos hxd, if_pos hxd, alternates_filter (!e) t]
    · have hfilter : delimitersIn o c (x :: t) = delimitersIn o c t :=
        List.filter_cons_of_neg hx
      rw [hfilter, alternates, if_neg (mt singleton_delimiter_iff.1 hx)]
      exact alternates_filter e t

/-- Pairs of an opening and a closing delimiter pass the order check. -/
theorem alternates_pairs (rest : List Char) :
    ∀ k, alternates (String.singleton o) (String.singleton c) true (pairs o c k ++ rest) =
      alternates (String.singleton o) (String.singleton c) true rest
  | 0 => rfl
  | k + 1 => by
    simp only [pairs_succ, List.cons_append, alternates, true_or, or_true, if_true,
      Bool.not_true, Bool.not_false, Bool.false_eq_true, ite_false]
    exact alternates_pairs rest k

/-- Delimiters that pass the order check, an even number of them, are pairs of an opening and a
closing one. -/
theorem pairs_of_alternates :
    ∀ ds : List Char, (∀ x ∈ ds, isDelimiter o c x = true) →
      alternates (String.singleton o) (String.singleton c) true ds = true →
      ds.length % 2 = 0 → ∃ k, ds = pairs o c k
  | [], _, _, _ => ⟨0, rfl⟩
  | [_], _, _, hlen => by simp at hlen
  | x :: y :: ds, hdel, halt, hlen => by
    have hx := singleton_delimiter_iff.2 (hdel x (by simp))
    have hy := singleton_delimiter_iff.2 (hdel y (by simp))
    simp only [alternates, if_pos hx, if_pos hy, ite_true, Bool.not_true, Bool.not_false,
      Bool.false_eq_true, ite_false] at halt
    -- the check goes on only past an opening delimiter and then a closing one
    split at halt
    · rename_i hxo
      split at halt
      · rename_i hyc
        obtain ⟨k, rfl⟩ := pairs_of_alternates ds (fun z hz => hdel z (by simp [hz])) halt
          (by simp at hlen; omega)
        refine ⟨k + 1, ?_⟩
        rw [String.singleton_inj.1 hxo, String.singleton_inj.1 hyc, pairs_succ]
      · cases halt
    · cases halt

/-- The delimiters pass the order check and are even in number exactly when they are pairs of
an opening and a closing one. -/
theorem alternates_even_iff (t : List Char) :
    (alternates (String.singleton o) (String.singleton c) true t = true ∧
        (delimitersIn o c t).length % 2 = 0) ↔
      ∃ k, delimitersIn o c t = pairs o c k := by
  constructor
  · rintro ⟨halt, heven⟩
    rw [alternates_filter] at halt
    exact pairs_of_alternates _ (fun x hx => (List.mem_filter.1 hx).2) halt heven
  · rintro ⟨k, hk⟩
    refine ⟨?_, by simp [hk]⟩
    rw [alternates_filter, hk, ← List.append_nil (pairs o c k), alternates_pairs]
    rfl

/-! ## The split -/

variable {label : String} {t : List Char}

/-- The split by a pair of one-character delimiters, as three cases on the delimiters. -/
theorem splitDelimited_singleton :
    splitDelimited (String.singleton o) (String.singleton c) label t =
      if (delimitersIn o c t).length % 2 = 1 then
        .error (.malformed (.oddDelimiters label) (String.ofList t))
      else if alternates (String.singleton o) (String.singleton c) true t then
        .ok (splitWhere (isDelimiter o c) t)
      else .error (.malformed (.unbalancedDelimiters label) (String.ofList t)) := by
  have hne : (String.singleton o).isEmpty = false := by simp
  have hlen : (splitWhere (isDelimiter o c) t).length = (delimitersIn o c t).length + 1 :=
    length_splitWhere t
  unfold splitDelimited
  simp only [cut_singleton, hne, Bool.false_and, Bool.false_eq_true, if_false, hlen]
  by_cases hodd : (delimitersIn o c t).length % 2 = 1
  · rw [if_pos (by simp; omega), if_pos hodd]
  · rw [if_neg (by simp; omega), if_neg hodd]

/-- The split succeeds exactly when the delimiters are pairs of an opening and a closing one. -/
theorem splitDelimited_ok_iff :
    (∃ parts, splitDelimited (String.singleton o) (String.singleton c) label t = .ok parts) ↔
      ∃ k, delimitersIn o c t = pairs o c k := by
  rw [← alternates_even_iff, splitDelimited_singleton]
  by_cases hodd : (delimitersIn o c t).length % 2 = 1
  · simp [hodd]
  · by_cases halt : alternates (String.singleton o) (String.singleton c) true t = true
    · simp [hodd, halt]
      omega
    · simp [hodd, halt]

/-- A successful split gives `2k + 1` pieces for `k` pairs of delimiters, none holding a
delimiter, and the pieces written back give the text. -/
theorem splitDelimited_ok_pieces {parts : List (List Char)}
    (h : splitDelimited (String.singleton o) (String.singleton c) label t = .ok parts) :
    ∃ k, delimitersIn o c t = pairs o c k ∧ parts.length = 2 * k + 1 ∧
      (∀ p ∈ parts, o ∉ p ∧ c ∉ p) ∧ joinPieces o c parts = t := by
  obtain ⟨k, hk⟩ := splitDelimited_ok_iff.1 ⟨parts, h⟩
  have hparts : parts = splitWhere (isDelimiter o c) t := by
    rw [eq_splitWhere_of_splitDelimited h, cut_singleton]
  subst hparts
  refine ⟨k, hk, ?_, ?_, joinPieces_splitWhere k t hk⟩
  · rw [length_splitWhere]
    simpa [delimitersIn] using congrArg List.length hk
  · intro p hp
    -- every character of a piece fails the delimiter test
    have hfree := fun x hx => (mem_of_mem_splitWhere hp x hx).2
    refine ⟨fun ho => ?_, fun hc => ?_⟩
    · simpa [isDelimiter] using hfree o ho
    · simpa [isDelimiter] using hfree c hc

/-- A failed split reports an odd number of delimiters when there is one, and an unbalanced pair
otherwise, naming the text. -/
theorem splitDelimited_error {e : SoundError}
    (h : splitDelimited (String.singleton o) (String.singleton c) label t = .error e) :
    e = .malformed (if (delimitersIn o c t).length % 2 = 1 then .oddDelimiters label
      else .unbalancedDelimiters label) (String.ofList t) := by
  rw [splitDelimited_singleton] at h
  by_cases hodd : (delimitersIn o c t).length % 2 = 1
  · simp only [hodd, if_true, Except.error.injEq] at h
    simp [hodd, h]
  · by_cases halt : alternates (String.singleton o) (String.singleton c) true t = true
    · simp [hodd, halt] at h
    · simp only [hodd, halt, if_false, Bool.false_eq_true, Except.error.injEq] at h
      simp [hodd, h]

/-- The text of a syntax fault: its reason, and the text it was found in unless that is empty. -/
theorem message_malformed (fault : SyntaxFault) (text : String) :
    (SoundError.malformed fault text).message =
      if text.isEmpty then fault.reason else fault.reason ++ ": '" ++ text ++ "'" := rfl

/-- The messages of the two faults of a pair of delimiters, for a text that is not empty. -/
theorem message_delimiter_fault (p : Prop) [Decidable p] (label text : String)
    (hne : text.isEmpty = false) :
    (SoundError.malformed (if p then .oddDelimiters label else .unbalancedDelimiters label)
        text).message =
      (if p then "Odd number of " else "Unbalanced ") ++ label ++ " in string: '" ++ text ++ "'" := by
  have hlit : " in string" ++ ": '" = " in string: '" := by decide
  rw [message_malformed, if_neg (by simp [hne])]
  by_cases hp : p
  · rw [if_pos hp, if_pos hp,
      show (SyntaxFault.oddDelimiters label).reason = "Odd number of " ++ label ++ " in string"
        from rfl, ← hlit]
    simp only [String.append_assoc]
  · rw [if_neg hp, if_neg hp,
      show (SyntaxFault.unbalancedDelimiters label).reason = "Unbalanced " ++ label ++ " in string"
        from rfl, ← hlit]
    simp only [String.append_assoc]

/-- A text that fails to split is not empty: the empty text is one empty piece. -/
theorem ne_nil_of_splitDelimited_error {e : SoundError}
    (h : splitDelimited (String.singleton o) (String.singleton c) label t = .error e) : t ≠ [] := by
  rintro rfl
  simp [splitDelimited_singleton, delimitersIn, alternates] at h

/-- Splitting at a pair of one-character delimiters succeeds iff the delimiters read opening,
closing, opening, closing, …; it then gives `2k + 1` delimiter-free pieces that written back
with the delimiters give the text, and otherwise reports an odd number of delimiters or an
unbalanced pair, with its message. -/
theorem splitDelimited_pairs_up (o c : Char) (label : String) (t : List Char) :
    ((∃ parts, splitDelimited (String.singleton o) (String.singleton c) label t = .ok parts) ↔
      ∃ k, delimitersIn o c t = pairs o c k) ∧
    (∀ parts, splitDelimited (String.singleton o) (String.singleton c) label t = .ok parts →
      ∃ k, delimitersIn o c t = pairs o c k ∧ parts.length = 2 * k + 1 ∧
        (∀ p ∈ parts, o ∉ p ∧ c ∉ p) ∧ joinPieces o c parts = t) ∧
    (∀ e, splitDelimited (String.singleton o) (String.singleton c) label t = .error e →
      e = .malformed (if (delimitersIn o c t).length % 2 = 1 then .oddDelimiters label
        else .unbalancedDelimiters label) (String.ofList t) ∧
      e.message = (if (delimitersIn o c t).length % 2 = 1 then "Odd number of "
        else "Unbalanced ") ++ label ++ " in string: '" ++ String.ofList t ++ "'") := by
  refine ⟨splitDelimited_ok_iff, fun parts h => splitDelimited_ok_pieces h, fun e h => ?_⟩
  have hne : (String.ofList t).isEmpty = false := by
    simpa [String.isEmpty_iff] using ne_nil_of_splitDelimited_error h
  rw [splitDelimited_error h]
  exact ⟨rfl, message_delimiter_fault _ label _ hne⟩

end Text

end SoundLaw
