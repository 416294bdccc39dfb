import Mathlib.Tactic
import Mathlib.Order.CompletePartialOrder

/-!
Arrays of intervals.

An array is a function on the indices, of which the first `n` are in use. An array of
half-open intervals is given by the arrays of its lower and upper ends, over any linear
order.

* `moveDown_apply`, `moveUp_apply`: the two loops that close and open a gap in an array.
* `Ordered`, `Spaced`: non-empty intervals in ascending order, that may touch or must not.
* `Ordered.replace`, `Ordered.merge`, `Spaced.insert`: an interval grows, takes in its
  neighbour, or comes in between, with the points that are covered.
-/

namespace Intervals

/-! ### Closing and opening a gap -/

section Shift

variable {α : Type*} {a : ℕ → α} {k : ℕ}

/-- The `n` elements from `j` on move down by one, the lowest first. -/
def moveDown : ℕ → ℕ → (ℕ → α) → ℕ → α
  | 0, _, a => a
  | n + 1, j, a => moveDown n (j + 1) (Function.update a (j - 1) (a j))

/-- The `n` elements below `j` move up by one, the highest first. -/
def moveUp : ℕ → ℕ → (ℕ → α) → ℕ → α
  | 0, _, a => a
  | n + 1, j, a => moveUp n (j - 1) (Function.update a j (a (j - 1)))

lemma moveDown_apply (n : ℕ) : ∀ (j : ℕ) (a : ℕ → α),
    moveDown n (j + 1) a k = if j ≤ k ∧ k < j + n then a (k + 1) else a k := by
  induction n with
  | zero =>
      intro j a
      rw [moveDown, if_neg (by omega)]
  | succ n ih =>
      intro j a
      rw [moveDown, ih, Nat.add_sub_cancel]
      by_cases hk : k = j
      · subst hk
        rw [if_neg (by omega), if_pos (by omega), Function.update_self]
      · rw [Function.update_of_ne hk]
        by_cases hin : j + 1 ≤ k ∧ k < j + 1 + n
        · rw [if_pos hin, if_pos (by omega), Function.update_of_ne (by omega)]
        · rw [if_neg hin, if_neg (by omega)]

lemma moveUp_apply (n : ℕ) : ∀ (j : ℕ) (a : ℕ → α), n ≤ j →
    moveUp n j a k = if j - n < k ∧ k ≤ j then a (k - 1) else a k := by
  induction n with
  | zero =>
      intro j a _
      rw [moveUp, if_neg (by omega)]
  | succ n ih =>
      intro j a hn
      rw [moveUp, ih _ _ (by omega)]
      by_cases hk : k = j
      · subst hk
        rw [if_neg (by omega), if_pos (by omega), Function.update_self]
      · rw [Function.update_of_ne hk]
        by_cases hin : j - 1 - n < k ∧ k ≤ j - 1
        · rw [if_pos hin, if_pos (by omega), Function.update_of_ne (by omega)]
        · rw [if_neg hin, if_neg (by omega)]

end Shift

/-! ### Intervals in order -/

variable {α : Type*} [LinearOrder α] {lo hi lo' hi' : ℕ → α} {n i : ℕ} {a b c d x : α}

/-- The points of the first `n` intervals. -/
def Covers (lo hi : ℕ → α) (n : ℕ) : Set α := {x | ∃ k < n, x ∈ Set.Ico (lo k) (hi k)}

/-- The first `n` intervals are not empty, and each ends before the later ones start. -/
structure Ordered (lo hi : ℕ → α) (n : ℕ) : Prop where
  nonempty : ∀ k, k < n → lo k < hi k
  le : ∀ k l, k < l → l < n → hi k ≤ lo l

/-- The first `n` intervals are not empty, and there is a gap between any two of them. -/
structure Spaced (lo hi : ℕ → α) (n : ℕ) : Prop where
  nonempty : ∀ k, k < n → lo k < hi k
  lt : ∀ k l, k < l → l < n → hi k < lo l

lemma Spaced.ordered (h : Spaced lo hi n) : Ordered lo hi n :=
  ⟨h.nonempty, fun k l hkl hl => (h.lt k l hkl hl).le⟩

/-- A set apart from all intervals is apart from each of them. -/
lemma disjoint_of_covers (h : Disjoint (Set.Ico a b) (Covers lo hi n)) (hin : i < n) :
    Disjoint (Set.Ico a b) (Set.Ico (lo i) (hi i)) :=
  have hsub : Set.Ico (lo i) (hi i) ⊆ Covers lo hi n := fun _ hx => ⟨i, hin, hx⟩
  Set.disjoint_of_subset_right hsub h

/-- Two non-empty intervals that are apart lie one after the other. -/
lemma le_or_le_of_disjoint (hab : a < b) (hcd : c < d)
    (h : Disjoint (Set.Ico a b) (Set.Ico c d)) : b ≤ c ∨ d ≤ a := by
  rw [Set.Ico_disjoint_Ico] at h
  rcases le_total b d with hbd | hdb
  · rw [min_eq_left hbd] at h
    exact (le_max_iff.mp h).elim (fun hba => absurd hba (not_le.mpr hab)) Or.inl
  · rw [min_eq_right hdb] at h
    exact (le_max_iff.mp h).elim Or.inr fun hdc => absurd hdc (not_le.mpr hcd)

/-- An interval grows to one that still fits between its neighbours. -/
lemma Ordered.replace (h : Ordered lo hi n) (hin : i < n) (hab : a < b)
    (hbelow : ∀ k, k < i → hi k ≤ a) (habove : ∀ k, i < k → k < n → b ≤ lo k) :
    Ordered (Function.update lo i a) (Function.update hi i b) n := by
  constructor
  · intro k hk
    by_cases hki : k = i
    · subst hki
      rwa [Function.update_self, Function.update_self]
    · rw [Function.update_of_ne hki, Function.update_of_ne hki]
      exact h.nonempty k hk
  · intro k l hkl hl
    by_cases hki : k = i
    · subst hki
      rw [Function.update_self, Function.update_of_ne (by omega)]
      exact habove l hkl hl
    · rw [Function.update_of_ne hki]
      by_cases hli : l = i
      · subst hli
        rw [Function.update_self]
        exact hbelow k hkl
      · rw [Function.update_of_ne hli]
        exact h.le k l hkl hl

/-- The points after an interval has grown. -/
lemma covers_replace (hin : i < n)
    (hset : Set.Ico c d ∪ Set.Ico (lo i) (hi i) = Set.Ico a b) :
    Covers (Function.update lo i a) (Function.update hi i b) n =
      Covers lo hi n ∪ Set.Ico c d := by
  ext x
  have hmem : x ∈ Set.Ico a b ↔ x ∈ Set.Ico c d ∨ x ∈ Set.Ico (lo i) (hi i) := by
    rw [← hset, Set.mem_union]
  constructor
  · rintro ⟨k, hk, hx⟩
    by_cases hki : k = i
    · subst hki
      rw [Function.update_self, Function.update_self] at hx
      exact (hmem.mp hx).elim Or.inr fun hx => Or.inl ⟨k, hk, hx⟩
    · rw [Function.update_of_ne hki, Function.update_of_ne hki] at hx
      exact Or.inl ⟨k, hk, hx⟩
  · have hnew (hx : x ∈ Set.Ico a b) :
        x ∈ Covers (Function.update lo i a) (Function.update hi i b) n :=
      ⟨i, hin, by rwa [Function.update_self, Function.update_self]⟩
    rintro (⟨k, hk, hx⟩ | hx)
    · by_cases hki : k = i
      · subst hki
        exact hnew (hmem.mpr (Or.inr hx))
      · exact ⟨k, hk, by rwa [Function.update_of_ne hki, Function.update_of_ne hki]⟩
    · exact hnew (hmem.mpr (Or.inl hx))

section Merge

variable (hlo : ∀ k, k < n → lo' k = if k ≤ i then lo k else lo (k + 1))
  (hhi : ∀ k, k < n → hi' k = if k < i then hi k else hi (k + 1))
include hlo hhi

/-- An interval takes in the one behind it, and those after it move down. -/
lemma Ordered.merge (h : Ordered lo hi (n + 1)) (hin : i < n) : Ordered lo' hi' n := by
  constructor
  · intro k hk
    rw [hlo k hk, hhi k hk]
    rcases lt_trichotomy k i with hki | rfl | hki
    · rw [if_pos hki.le, if_pos hki]
      exact h.nonempty k (by omega)
    · rw [if_pos le_rfl, if_neg (lt_irrefl k)]
      calc lo k < hi k := h.nonempty k (by omega)
        _ ≤ lo (k + 1) := h.le k (k + 1) (by omega) (by omega)
        _ < hi (k + 1) := h.nonempty (k + 1) (by omega)
    · rw [if_neg (by omega), if_neg (by omega)]
      exact h.nonempty (k + 1) (by omega)
  · intro k l hkl hl
    rw [hlo l hl, hhi k (by omega)]
    by_cases hki : k < i
    · rw [if_pos hki]
      split_ifs
      · exact h.le k l hkl (by omega)
      · exact h.le k (l + 1) (by omega) (by omega)
    · rw [if_neg hki, if_neg (by omega)]
      exact h.le (k + 1) (l + 1) (by omega) (by omega)

/-- The points are the same if the two intervals touch. -/
lemma Ordered.covers_merge (h : Ordered lo hi (n + 1)) (hin : i < n)
    (htouch : hi i = lo (i + 1)) : Covers lo' hi' n = Covers lo hi (n + 1) := by
  have hboth : Set.Ico (lo i) (hi i) ∪ Set.Ico (lo (i + 1)) (hi (i + 1)) =
      Set.Ico (lo i) (hi (i + 1)) := by
    rw [← htouch]
    exact Set.Ico_union_Ico_eq_Ico (h.nonempty i (by omega)).le
      (htouch ▸ (h.nonempty (i + 1) (by omega)).le)
  ext x
  have hmem : x ∈ Set.Ico (lo i) (hi (i + 1)) ↔
      x ∈ Set.Ico (lo i) (hi i) ∨ x ∈ Set.Ico (lo (i + 1)) (hi (i + 1)) := by
    rw [← hboth, Set.mem_union]
  constructor
  · rintro ⟨k, hk, hx⟩
    rw [hlo k hk, hhi k hk] at hx
    rcases lt_trichotomy k i with hki | rfl | hki
    · rw [if_pos hki.le, if_pos hki] at hx
      exact ⟨k, by omega, hx⟩
    · rw [if_pos le_rfl, if_neg (lt_irrefl k)] at hx
      exact (hmem.mp hx).elim (fun hx => ⟨k, by omega, hx⟩) fun hx => ⟨k + 1, by omega, hx⟩
    · rw [if_neg (by omega), if_neg (by omega)] at hx
      exact ⟨k + 1, by omega, hx⟩
  · have hnew (hx : x ∈ Set.Ico (lo i) (hi (i + 1))) : x ∈ Covers lo' hi' n :=
      ⟨i, hin, by rwa [hlo i hin, hhi i hin, if_pos le_rfl, if_neg (lt_irrefl i)]⟩
    rintro ⟨k, hk, hx⟩
    rcases lt_trichotomy k i with hki | rfl | hki
    · exact ⟨k, by omega, by rwa [hlo k (by omega), hhi k (by omega), if_pos hki.le, if_pos hki]⟩
    · exact hnew (hmem.mpr (Or.inl hx))
    · obtain rfl | hki' : k = i + 1 ∨ i + 1 < k := by omega
      · exact hnew (hmem.mpr (Or.inr hx))
      · refine ⟨k - 1, by omega, ?_⟩
        rwa [hlo _ (by omega), hhi _ (by omega), if_neg (by omega), if_neg (by omega),
          Nat.sub_add_cancel (by omega)]

end Merge

section Insert

variable (hin : i ≤ n)
  (hlo : ∀ k, k ≤ n → lo' k = if k < i then lo k else if k = i then a else lo (k - 1))
  (hhi : ∀ k, k ≤ n → hi' k = if k < i then hi k else if k = i then b else hi (k - 1))
include hlo hhi hin

/-- An interval comes in between, and those after it move up. -/
lemma Spaced.insert (h : Spaced lo hi n) (hab : a < b) (hbelow : ∀ k, k < i → hi k < a)
    (habove : ∀ k, i ≤ k → k < n → b < lo k) : Spaced lo' hi' (n + 1) := by
  constructor
  · intro k hk
    rw [hlo k (by omega), hhi k (by omega)]
    split_ifs
    · exact h.nonempty k (by omega)
    · exact hab
    · exact h.nonempty (k - 1) (by omega)
  · intro k l hkl hl
    rw [hlo l (by omega), hhi k (by omega)]
    rcases lt_trichotomy k i with hki | rfl | hki
    · rw [if_pos hki]
      split_ifs
      · exact h.lt k l hkl (by omega)
      · exact hbelow k hki
      · exact h.lt k (l - 1) (by omega) (by omega)
    · rw [if_neg (by omega), if_pos rfl, if_neg (by omega), if_neg (by omega)]
      exact habove (l - 1) (by omega) (by omega)
    · rw [if_neg (by omega), if_neg (by omega), if_neg (by omega), if_neg (by omega)]
      exact h.lt (k - 1) (l - 1) (by omega) (by omega)

/-- The points after an interval has come in. -/
lemma covers_insert : Covers lo' hi' (n + 1) = Covers lo hi n ∪ Set.Ico a b := by
  ext x
  constructor
  · rintro ⟨k, hk, hx⟩
    rw [hlo k (by omega), hhi k (by omega)] at hx
    rcases lt_trichotomy k i with hki | hki | hki
    · rw [if_pos hki, if_pos hki] at hx
      exact Or.inl ⟨k, by omega, hx⟩
    · rw [if_neg (by omega), if_pos hki, if_neg (by omega), if_pos hki] at hx
      exact Or.inr hx
    · rw [if_neg (by omega), if_neg (by omega), if_neg (by omega), if_neg (by omega)] at hx
      exact Or.inl ⟨k - 1, by omega, hx⟩
  · rintro (⟨k, hk, hx⟩ | hx)
    · by_cases hki : k < i
      · exact ⟨k, by omega, by rwa [hlo k (by omega), hhi k (by omega), if_pos hki, if_pos hki]⟩
      · refine ⟨k + 1, by omega, ?_⟩
        rwa [hlo _ (by omega), hhi _ (by omega), if_neg (by omega), if_neg (by omega),
          if_neg (by omega), if_neg (by omega), Nat.add_sub_cancel]
    · refine ⟨i, by omega, ?_⟩
      rwa [hlo i hin, hhi i hin, if_neg (lt_irrefl i), if_pos rfl, if_neg (lt_irrefl i), if_pos rfl]

end Insert

end Intervals
