import SoundLaw.Text.Order

/-!
# Feature sets

A phoneme carries a finite set of feature names. The set is kept as a strictly increasing list
of names, in code-point order, so two sets with the same members are the same value and the
list is already the sorted form every answer shows.

* `FeatureSet` — the increasing list with its proof;
* `insert`, `ofList`, `union`, `diff` — the set operations the notation needs;
* `Subset`, `Disjoint` — as decidable tests `subset`, `disjoint`;
* `mem_insert`, `mem_ofList`, `mem_union`, `mem_diff` — membership after each operation.
-/

namespace SoundLaw

/-- Inserts a name into an increasing list, keeping it increasing and free of repeats. -/
def insertName (x : String) : List String → List String
  | [] => [x]
  | y :: ys =>
    if Text.precedes x y then x :: y :: ys else if x = y then y :: ys else y :: insertName x ys

theorem mem_insertName {x z : String} :
    ∀ {l : List String}, z ∈ insertName x l ↔ z = x ∨ z ∈ l
  | [] => by simp [insertName]
  | y :: ys => by
    unfold insertName
    split
    · simp
    · split
      · rename_i h; subst h; simp
      · simp only [List.mem_cons, mem_insertName]
        constructor
        · rintro (h | h | h) <;> simp [h]
        · rintro (h | h | h) <;> simp [h]

theorem pairwise_insertName (x : String) :
    ∀ {l : List String}, l.Pairwise Text.precedes → (insertName x l).Pairwise Text.precedes
  | [], _ => by simp [insertName]
  | y :: ys, h => by
    rw [List.pairwise_cons] at h
    unfold insertName
    split
    · rename_i hxy
      refine List.pairwise_cons.2 ⟨?_, List.pairwise_cons.2 h⟩
      intro z hz
      rcases List.mem_cons.1 hz with rfl | hz
      · exact hxy
      · exact Text.precedes_trans hxy (h.1 z hz)
    · split
      · exact List.pairwise_cons.2 h
      · rename_i hxy hne
        have hyx : Text.precedes y x := by
          rcases Text.precedes_trichotomy x y with h' | h' | h'
          · exact absurd h' hxy
          · exact absurd h' hne
          · exact h'
        refine List.pairwise_cons.2 ⟨?_, pairwise_insertName x h.2⟩
        intro z hz
        rcases mem_insertName.1 hz with rfl | hz
        · exact hyx
        · exact h.1 z hz

/-- A finite set of feature names, as a strictly increasing list. -/
structure FeatureSet where
  /-- The members in increasing order. -/
  toList : List String
  increasing : toList.Pairwise Text.precedes
  deriving DecidableEq

namespace FeatureSet

/-- The set with no features. -/
def empty : FeatureSet := ⟨[], List.Pairwise.nil⟩

instance : Inhabited FeatureSet := ⟨empty⟩

instance : Membership String FeatureSet := ⟨fun s x => x ∈ s.toList⟩

instance (x : String) (s : FeatureSet) : Decidable (x ∈ s) :=
  inferInstanceAs (Decidable (x ∈ s.toList))

/-- Adds one name. -/
def insert (x : String) (s : FeatureSet) : FeatureSet :=
  ⟨insertName x s.toList, pairwise_insertName x s.increasing⟩

/-- The set of the names in a list, in any order and with any repeats. -/
def ofList (xs : List String) : FeatureSet := xs.foldl (fun s x => s.insert x) empty

/-- The names in either set. -/
def union (s t : FeatureSet) : FeatureSet := t.toList.foldl (fun u x => u.insert x) s

/-- The names of `s` that are not in `t`. -/
def diff (s t : FeatureSet) : FeatureSet :=
  ⟨s.toList.filter (fun x => decide (x ∉ t)), s.increasing.filter _⟩

/-- Whether every name of `s` is in `t`. -/
def subset (s t : FeatureSet) : Bool := s.toList.all (fun x => decide (x ∈ t))

/-- Whether `s` and `t` share no name. -/
def disjoint (s t : FeatureSet) : Bool := s.toList.all (fun x => decide (x ∉ t))

theorem mem_def {x : String} {s : FeatureSet} : x ∈ s ↔ x ∈ s.toList := Iff.rfl

@[simp] theorem mem_insert {x y : String} {s : FeatureSet} : y ∈ s.insert x ↔ y = x ∨ y ∈ s :=
  mem_insertName

theorem mem_foldl_insert {y : String} :
    ∀ (xs : List String) (s : FeatureSet),
      y ∈ xs.foldl (fun u x => u.insert x) s ↔ y ∈ s ∨ y ∈ xs
  | [], s => by simp
  | x :: xs, s => by
    rw [List.foldl_cons, mem_foldl_insert xs, mem_insert]
    simp only [List.mem_cons]
    constructor
    · rintro ((h | h) | h) <;> simp [h]
    · rintro (h | h | h) <;> simp [h]

@[simp] theorem mem_ofList {y : String} {xs : List String} : y ∈ ofList xs ↔ y ∈ xs := by
  unfold ofList
  rw [mem_foldl_insert]
  simp [empty, mem_def]

@[simp] theorem mem_union {y : String} {s t : FeatureSet} : y ∈ s.union t ↔ y ∈ s ∨ y ∈ t := by
  simp only [union, mem_foldl_insert]; rfl

@[simp] theorem mem_diff {y : String} {s t : FeatureSet} : y ∈ s.diff t ↔ y ∈ s ∧ y ∉ t := by
  simp [diff, mem_def]

end FeatureSet

end SoundLaw
