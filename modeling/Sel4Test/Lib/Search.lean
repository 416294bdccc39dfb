import Sel4Test.Lib.ByteMem

/-!
The search of a block of bytes for another one.

* `infix_load_iff`: a block has another one inside exactly if this is at one of its places.
* `Found`: what a search from front to back returns. It comes to this by `Found.here`, where the
  needle is at the first place, and by `Found.later`, where it is not.
* `Found.infix_iff`: a search of all places answers whether the needle is inside.
-/

namespace Search

open ByteMem

variable {m : Mem} {a n : ℕ} {needle : List UInt8} {r : Option ℕ}

lemma infix_load_iff (hn : needle.length ≤ n) :
    needle <:+: load m a n ↔
      ∃ i < n - needle.length + 1, load m (a + i) needle.length = needle := by
  constructor
  · rintro ⟨front, rest, h⟩
    have hlen := congrArg List.length h
    rw [length_load, List.length_append, List.length_append] at hlen
    refine ⟨front.length, by omega, ?_⟩
    have hcut := congrArg (fun l => (l.drop front.length).take needle.length) h
    rw [List.append_assoc, List.drop_left, List.take_left, drop_load, take_load,
      Nat.min_eq_left (by omega)] at hcut
    exact hcut.symm
  · rintro ⟨i, hi, h⟩
    have hcut : ((load m a n).drop i).take needle.length = needle := by
      rw [drop_load, take_load, Nat.min_eq_left (by omega), h]
    rw [← hcut]
    exact (List.take_prefix _ _).isInfix.trans (List.drop_suffix _ _).isInfix

/-- What a search of `n` places from `a` on returns: the first place with the needle, if there is
one. -/
structure Found (m : Mem) (a n : ℕ) (needle : List UInt8) (r : Option ℕ) : Prop where
  none_iff : r = none ↔ ∀ i < n, load m (a + i) needle.length ≠ needle
  first : ∀ q, r = some q → ∃ i < n, q = a + i ∧ load m (a + i) needle.length = needle ∧
    ∀ j < i, load m (a + j) needle.length ≠ needle

namespace Found

/-- There are no places. -/
lemma nowhere : Found m a 0 needle none where
  none_iff := iff_of_true rfl fun i hi => absurd hi (Nat.not_lt_zero i)
  first := by
    rintro q hq
    cases hq

/-- The needle is at the first place. -/
lemma here (h : load m a needle.length = needle) : Found m a (n + 1) needle (some a) where
  none_iff := by
    simp only [reduceCtorEq, false_iff, not_forall]
    exact ⟨0, Nat.succ_pos n, fun hne => hne h⟩
  first := by
    rintro q hq
    obtain rfl : a = q := Option.some.inj hq
    exact ⟨0, Nat.succ_pos n, rfl, h, fun j hj => absurd hj (Nat.not_lt_zero j)⟩

/-- It is not there. -/
lemma later (hne : load m a needle.length ≠ needle) (h : Found m (a + 1) n needle r) :
    Found m a (n + 1) needle r where
  none_iff := by
    rw [h.none_iff, Nat.forall_lt_succ_left]
    simp only [Nat.add_assoc, Nat.add_comm 1, Nat.add_zero]
    exact (and_iff_right hne).symm
  first := by
    rintro q hq
    obtain ⟨i, hi, rfl, hload, hfirst⟩ := h.first q hq
    refine ⟨i + 1, by omega, by omega, ?_, ?_⟩
    · rwa [Nat.add_assoc, Nat.add_comm 1] at hload
    · rw [Nat.forall_lt_succ_left]
      simp only [Nat.add_assoc, Nat.add_comm 1, Nat.add_zero] at hfirst ⊢
      exact ⟨hne, hfirst⟩

/-- **All places** of a block. -/
lemma infix_iff (h : Found m a (n - needle.length + 1) needle r) (hn : needle.length ≤ n) :
    r = none ↔ ¬ needle <:+: load m a n := by
  rw [h.none_iff, infix_load_iff hn]
  push Not
  rfl

end Found

end Search
