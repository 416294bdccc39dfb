import Mathlib.Algebra.Order.BigOperators.Group.Finset
import Mathlib.Tactic

/-!
Potentials of stores, to bound the rounds of a loop.

A store is a function of places. Its potential is the sum, over finitely many places, of a
weight that depends on the place and on what is there.

* `potential_mono`, `potential_lt`: what changes the weight of the places one by one.
* `potential_swap_lt`: two places exchange what they hold.
-/

namespace Potential

variable {ι β : Type*} {F : Finset ι} {w : ι → β → ℕ} {s s' : ι → β}

/-- The sum of the weights of what is in the places. -/
def potential (F : Finset ι) (w : ι → β → ℕ) (s : ι → β) : ℕ := ∑ x ∈ F, w x (s x)

lemma potential_mono (h : ∀ x ∈ F, w x (s' x) ≤ w x (s x)) :
    potential F w s' ≤ potential F w s :=
  Finset.sum_le_sum h

lemma potential_lt {x : ι} (h : ∀ x ∈ F, w x (s' x) ≤ w x (s x)) (hx : x ∈ F)
    (hlt : w x (s' x) < w x (s x)) : potential F w s' < potential F w s :=
  Finset.sum_lt_sum h ⟨x, hx, hlt⟩

/-- What is in a place weighs no more in the other, and what is in the other weighs less. -/
lemma potential_swap_lt [DecidableEq ι] {a b : ι} (ha : a ∈ F) (hb : b ∈ F)
    (hs : ∀ x, s' (Equiv.swap a b x) = s x) (hle : w b (s a) ≤ w a (s a))
    (hlt : w a (s b) < w b (s b)) : potential F w s' < potential F w s := by
  have hmem (x : ι) : x ∈ F ↔ Equiv.swap a b x ∈ F := by
    rw [Equiv.swap_apply_def]
    split_ifs with hxa hxb
    · exact iff_of_true (hxa ▸ ha) hb
    · exact iff_of_true (hxb ▸ hb) ha
    · rfl
  calc potential F w s'
      = ∑ x ∈ F, w (Equiv.swap a b x) (s x) := by
        refine (Finset.sum_equiv (Equiv.swap a b) hmem fun x _ => ?_).symm
        rw [hs]
    _ < ∑ x ∈ F, w x (s x) := by
        refine Finset.sum_lt_sum (fun x _ => ?_) ⟨b, hb, ?_⟩
        · rw [Equiv.swap_apply_def]
          split_ifs with hxa hxb
          · rw [hxa]
            exact hle
          · rw [hxb]
            exact hlt.le
          · exact le_rfl
        · rw [Equiv.swap_apply_right]
          exact hlt

end Potential
