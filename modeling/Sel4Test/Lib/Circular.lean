import Sel4Test.Lib.Ring

/-!
Circular buffers that hold at least one item.

The slots from `head` up to `tail` inclusive, wrapping round at `c`, are the
items. `Items c head tail slot xs` says that they are `xs`, front first.

* **Tests.** `Items.size_eq`, `Items.single_iff`.
* **Reads.** `Items.front`, `Items.second`, `Items.back`.
* **Operations.** `Items.pop`, `Items.push`, `Items.setFront`, `Items.setBack`,
  `Items.one`.
* **Walks.** `Items.at_tail_iff`: a walk from `head` meets `tail` at the last
  item.
-/

namespace Circular

open Ring (index index_zero index_lt index_inj index_succ)

variable {α : Type*} {c h t k : ℕ} {slot : ℕ → α} {x y : α} {xs : List α}

/-- The buffer of `c` slots holds the items `xs`. -/
structure Items (c h t : ℕ) (slot : ℕ → α) (xs : List α) : Prop where
  head_lt : h < c
  length_pos : 0 < xs.length
  length_le : xs.length ≤ c
  tail_eq : t = index c h (xs.length - 1)
  slot_eq : ∀ k y, xs[k]? = some y → slot (index c h k) = y

/-- The index after the one `k` places behind `h`. -/
lemma index_next (hh : h < c) (hk : k + 1 < c) : index c (index c h k) 1 = index c h (k + 1) := by
  simp only [index]
  split <;> split <;> split <;> omega

/-- The number of items, from the two indices. -/
def size (c h t : ℕ) : ℕ := if h ≤ t then t - h + 1 else t + 1 + (c - h)

namespace Items

lemma tail_lt (r : Items c h t slot xs) : t < c := by
  have hl := r.length_le
  rw [r.tail_eq]
  exact index_lt r.head_lt (by omega)

lemma size_eq (r : Items c h t slot xs) : size c h t = xs.length := by
  have hh := r.head_lt
  have hp := r.length_pos
  have hl := r.length_le
  have ht := r.tail_eq
  rw [size]
  simp only [index] at ht
  split at ht <;> split <;> omega

lemma single_iff (r : Items c h t slot xs) : h = t ↔ xs.length = 1 := by
  have hh := r.head_lt
  have hp := r.length_pos
  have hl := r.length_le
  have ht := r.tail_eq
  simp only [index] at ht
  split at ht <;> omega

/-- The walk from the head is at the tail when it is at the last item. -/
lemma at_tail_iff (r : Items c h t slot xs) (hk : k < xs.length) :
    index c h k = t ↔ k + 1 = xs.length := by
  have hl := r.length_le
  rw [r.tail_eq, index_inj (by omega) (by omega)]
  omega

/-- One slot is a buffer of one item. -/
lemma one (hh : h < c) : Items c h h slot [slot h] where
  head_lt := hh
  length_pos := by simp
  length_le := by simpa using Nat.succ_le_of_lt (Nat.zero_lt_of_lt hh)
  tail_eq := (index_zero hh).symm
  slot_eq := by
    intro k y hk
    have hlt : k < 1 := (List.getElem?_eq_some_iff.mp hk).1
    obtain rfl : k = 0 := by omega
    rw [index_zero hh]
    simpa using hk

/-! ### Reads -/

lemma front (r : Items c h t slot (x :: xs)) : slot h = x := by
  have h0 := r.slot_eq 0 x rfl
  rwa [index_zero r.head_lt] at h0

lemma second (r : Items c h t slot (x :: y :: xs)) : slot (index c h 1) = y :=
  r.slot_eq 1 y rfl

lemma back (r : Items c h t slot (xs ++ [x])) : slot t = x := by
  have hlast : (xs ++ [x])[xs.length]? = some x := by simp
  have hslot := r.slot_eq _ _ hlast
  have htail := r.tail_eq
  simp only [List.length_append, List.length_singleton, Nat.add_sub_cancel] at htail
  rwa [← htail] at hslot

/-! ### Operations -/

/-- Taking the front item off. -/
lemma pop (r : Items c h t slot (x :: y :: xs)) : Items c (index c h 1) t slot (y :: xs) where
  head_lt := by
    have hh := r.head_lt
    exact index_lt hh (by omega)
  length_pos := by simp
  length_le := by
    have hl := r.length_le
    simp only [List.length_cons] at hl ⊢
    omega
  tail_eq := by
    have hl := r.length_le
    have ht := r.tail_eq
    simp only [List.length_cons, Nat.add_sub_cancel] at hl ht ⊢
    rw [index_succ r.head_lt (by omega), ht]
  slot_eq := by
    intro k z hk
    have hl := r.length_le
    have hlt : k < (y :: xs).length := (List.getElem?_eq_some_iff.mp hk).1
    simp only [List.length_cons] at hl hlt
    rw [index_succ r.head_lt (by omega)]
    exact r.slot_eq (k + 1) z hk


/-- Two buffers with the same indices and as many items: only the slots differ. -/
lemma change {slot' : ℕ → α} {ys : List α} (r : Items c h t slot xs)
    (hlen : ys.length = xs.length)
    (hslot : ∀ k y, ys[k]? = some y → slot' (index c h k) = y) : Items c h t slot' ys where
  head_lt := r.head_lt
  length_pos := hlen ▸ r.length_pos
  length_le := hlen ▸ r.length_le
  tail_eq := by rw [hlen, r.tail_eq]
  slot_eq := hslot

/-- Writing the slot of one item changes that item. -/
lemma set (r : Items c h t slot xs) (hk : k < xs.length) :
    Items c h t (Function.update slot (index c h k) x) (xs.set k x) := by
  refine r.change (List.length_set ..) fun i z hi => ?_
  have hl := r.length_le
  have hlt : i < xs.length := by
    have hi' := (List.getElem?_eq_some_iff.mp hi).1
    rwa [List.length_set] at hi'
  by_cases hik : i = k
  · subst hik
    rw [List.getElem?_set_self hk] at hi
    rw [Function.update_self]
    exact Option.some.inj hi
  · rw [List.getElem?_set_ne (Ne.symm hik)] at hi
    have hne : index c h i ≠ index c h k := by
      rw [ne_eq, index_inj (by omega) (by omega)]
      exact hik
    rw [Function.update_of_ne hne]
    exact r.slot_eq i z hi

lemma setFront (r : Items c h t slot (x :: xs)) :
    Items c h t (Function.update slot h y) (y :: xs) := by
  have hset := r.set (k := 0) (x := y) (by simp)
  rwa [index_zero r.head_lt] at hset

lemma setBack (r : Items c h t slot (xs ++ [x])) :
    Items c h t (Function.update slot t y) (xs ++ [y]) := by
  have hset := r.set (k := xs.length) (x := y) (by simp)
  have htail := r.tail_eq
  simp only [List.length_append, List.length_singleton, Nat.add_sub_cancel] at htail
  rwa [← htail, List.set_append_right _ _ le_rfl, Nat.sub_self] at hset

/-- Adding an item behind the tail of a buffer with room. -/
lemma push (r : Items c h t slot xs) (hroom : xs.length < c) :
    Items c h (index c t 1) (Function.update slot (index c t 1) x) (xs ++ [x]) := by
  have hp := r.length_pos
  have htail : index c t 1 = index c h xs.length := by
    have hh := r.head_lt
    have ht := r.tail_eq
    simp only [index] at ht ⊢
    split at ht <;> split <;> split <;> omega
  refine ⟨r.head_lt, by simp, by simpa using hroom, by simpa using htail, ?_⟩
  intro k z hk
  have hlt := (List.getElem?_eq_some_iff.mp hk).1
  simp only [List.length_append, List.length_singleton] at hlt
  by_cases hlast : k = xs.length
  · subst hlast
    rw [htail, Function.update_self]
    simpa using hk
  · have hne : index c h k ≠ index c h xs.length := by
      rw [ne_eq, index_inj (by omega) hroom]
      exact hlast
    rw [htail, Function.update_of_ne hne]
    rw [List.getElem?_append_left (by omega)] at hk
    exact r.slot_eq k z hk

end Items

end Circular
