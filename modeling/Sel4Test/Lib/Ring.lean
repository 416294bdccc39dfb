import Mathlib.Tactic

/-!
Rings of `c` slots with one slot kept empty.

A ring has a write index `header` and a read index `tail`; the slots from `tail`
on, up to `header` and wrapping round at `c`, hold the pending messages.
`Repr c header tail Holds xs` says that the messages are `xs`, oldest first,
where `Holds i x` is whatever it means that slot `i` holds `x`.

* **Tests.** `Repr.full_iff`: the index after `header` is `tail` exactly when
  `c - 1` messages are pending. `Repr.empty_iff`: the indices agree exactly when
  none is.
* **Operations.** `Repr.push` and `Repr.pop` move one index; `Repr.frame`
  changes the slots without touching a pending one.
* **Accounting.** `Repr.diff`: the distance of the indices modulo `c` is the
  number of pending messages.
-/

namespace Ring

/-! ### Indices -/

/-- The index `k` places after `t`, for `t` and `k` up to `c`. -/
def index (c t k : ℕ) : ℕ := if t + k < c then t + k else t + k - c

variable {c h t k i : ℕ}

lemma index_zero (ht : t < c) : index c t 0 = t := by
  rw [index]
  split <;> omega

lemma index_lt (ht : t < c) (hk : k ≤ c) : index c t k < c := by
  rw [index]
  split <;> omega

lemma index_inj (hk : k < c) (hi : i < c) :
    index c t k = index c t i ↔ k = i := by
  simp only [index]
  split <;> split <;> omega

lemma index_eq_mod (ht : t < c) (hk : k < c) : index c t k = (t + k) % c := by
  rw [index]
  split
  · rw [Nat.mod_eq_of_lt (by omega)]
  · rw [Nat.mod_eq_sub_mod (by omega), Nat.mod_eq_of_lt (by omega)]

/-- Advancing the origin by one shifts every index by one. -/
lemma index_succ (ht : t < c) (hk : k + 1 ≤ c) :
    index c (index c t 1) k = index c t (k + 1) := by
  simp only [index]
  split <;> split <;> split <;> omega

/-- The index after the one `k` places on is `k + 1` places on. -/
lemma index_next (ht : t < c) (hk : k + 1 ≤ c) :
    index c (index c t k) 1 = index c t (k + 1) := by
  simp only [index]
  split <;> split <;> split <;> omega

/-- A whole round leads back. -/
lemma index_self (t : ℕ) : index c t c = t := by
  rw [index]
  split <;> omega

/-- The increment modulo `c` is the next index. -/
lemma succ_mod (ht : t < c) : (t + 1) % c = index c t 1 := by
  rw [index]
  split
  · rw [Nat.mod_eq_of_lt (by omega)]
  · rw [show t + 1 = c by omega, Nat.mod_self, Nat.sub_self]

/-! ### Representation of a list of messages -/

variable {α : Type*} {Holds Holds' : ℕ → α → Prop} {xs : List α} {x : α}

/-- The ring with write index `h` and read index `t` holds the messages `xs`,
oldest first. One slot always stays empty. -/
structure Repr (c h t : ℕ) (Holds : ℕ → α → Prop) (xs : List α) : Prop where
  tail_lt : t < c
  length_lt : xs.length < c
  header_eq : h = index c t xs.length
  holds : ∀ k y, xs[k]? = some y → Holds (index c t k) y

/-- Slot `i` holds one of the `n` messages pending from read index `t` on. -/
def Pending (c t n i : ℕ) : Prop := ∃ k < n, index c t k = i

instance (c t n i : ℕ) : Decidable (Pending c t n i) :=
  inferInstanceAs (Decidable (∃ k < n, index c t k = i))

namespace Repr

lemma header_lt (r : Repr c h t Holds xs) : h < c := by
  rw [r.header_eq]
  exact index_lt r.tail_lt r.length_lt.le

lemma nil (hc : 0 < c) : Repr c 0 0 Holds ([] : List α) where
  tail_lt := hc
  length_lt := hc
  header_eq := (index_zero hc).symm
  holds := by simp

/-- The ring is full exactly when `c - 1` messages are pending. -/
lemma full_iff (r : Repr c h t Holds xs) : index c h 1 = t ↔ xs.length + 1 = c := by
  have ht := r.tail_lt
  have hl := r.length_lt
  have hh := r.header_eq
  simp only [index] at hh ⊢
  split at hh <;> split <;> omega

/-- The indices agree exactly when no message is pending. -/
lemma empty_iff (r : Repr c h t Holds xs) : t = h ↔ xs = [] := by
  have ht := r.tail_lt
  have hl := r.length_lt
  have hh := r.header_eq
  rw [← List.length_eq_zero_iff]
  simp only [index] at hh
  split at hh <;> omega

/-- The distance of the indices is the number of pending messages. -/
lemma diff (r : Repr c h t Holds xs) : (h + c - t) % c = xs.length := by
  have ht := r.tail_lt
  have hl := r.length_lt
  have hh := r.header_eq
  simp only [index] at hh
  split at hh
  · rw [show h + c - t = xs.length + c by omega, Nat.add_mod_right, Nat.mod_eq_of_lt hl]
  · rw [show h + c - t = xs.length by omega, Nat.mod_eq_of_lt hl]

/-- The write index never points at a pending slot. -/
lemma header_not_pending (r : Repr c h t Holds xs) : ¬ Pending c t xs.length h := by
  rintro ⟨k, hk, he⟩
  rw [r.header_eq, index_inj (hk.trans r.length_lt) r.length_lt] at he
  omega

/-- A change of the slots that keeps the pending ones keeps the messages. -/
lemma frame (r : Repr c h t Holds xs)
    (hf : ∀ i y, Pending c t xs.length i → Holds i y → Holds' i y) :
    Repr c h t Holds' xs where
  tail_lt := r.tail_lt
  length_lt := r.length_lt
  header_eq := r.header_eq
  holds := by
    intro k y hk
    have hlt : k < xs.length := (List.getElem?_eq_some_iff.mp hk).1
    exact hf _ y ⟨k, hlt, rfl⟩ (r.holds k y hk)

/-- Where every slot holds something, the indices alone determine a ring. -/
lemma relabel {β : Type*} {Holds' : ℕ → β → Prop} (r : Repr c h t Holds xs)
    (hholds : ∀ i, ∃ y, Holds' i y) :
    ∃ ys : List β, ys.length = xs.length ∧ Repr c h t Holds' ys := by
  choose f hf using hholds
  refine ⟨(List.range xs.length).map fun k => f (index c t k), by simp, ?_⟩
  exact
    { tail_lt := r.tail_lt
      length_lt := by simpa using r.length_lt
      header_eq := by simpa using r.header_eq
      holds := by
        intro k y hk
        obtain ⟨hlt, rfl⟩ := List.getElem?_eq_some_iff.mp hk
        simpa using hf (index c t k) }

/-- Writing a message at the write index and advancing it appends the message. -/
lemma push (r : Repr c h t Holds xs) (hroom : xs.length + 1 ≠ c) (hx : Holds h x) :
    Repr c (index c h 1) t Holds (xs ++ [x]) where
  tail_lt := r.tail_lt
  length_lt := by
    have hl := r.length_lt
    simp only [List.length_append, List.length_singleton]
    omega
  header_eq := by
    have ht := r.tail_lt
    have hl := r.length_lt
    have hh := r.header_eq
    simp only [List.length_append, List.length_singleton, index] at hh ⊢
    split at hh <;> split <;> split <;> omega
  holds := by
    intro k y hk
    by_cases hlt : k < xs.length
    · exact r.holds k y (by rwa [List.getElem?_append_left hlt] at hk)
    · have hk' := (List.getElem?_eq_some_iff.mp hk).1
      have hkl : k = xs.length := by
        simp only [List.length_append, List.length_singleton] at hk'
        omega
      subst hkl
      have hy : x = y := by simpa using hk
      rw [← r.header_eq, ← hy]
      exact hx

/-- The slot at the read index holds the oldest message. -/
lemma holds_head (r : Repr c h t Holds (x :: xs)) : Holds t x := by
  have h0 := r.holds 0 x rfl
  rwa [index_zero r.tail_lt] at h0

/-- Advancing the read index takes the oldest message off. -/
lemma pop (r : Repr c h t Holds (x :: xs)) : Repr c h (index c t 1) Holds xs where
  tail_lt := index_lt r.tail_lt (by have := r.tail_lt; omega)
  length_lt := by
    have hl := r.length_lt
    simp only [List.length_cons] at hl
    omega
  header_eq := by
    have hl := r.length_lt
    have hh := r.header_eq
    simp only [List.length_cons] at hl hh
    rw [index_succ r.tail_lt (by omega), hh]
  holds := by
    intro k y hk
    have hl := r.length_lt
    have hlt : k < xs.length := (List.getElem?_eq_some_iff.mp hk).1
    simp only [List.length_cons] at hl
    rw [index_succ r.tail_lt (by omega)]
    exact r.holds (k + 1) y hk

end Repr

end Ring
