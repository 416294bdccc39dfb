import Mathlib.Data.Fintype.Card
import Mathlib.Tactic

/-!
Threads at places of a program.

Each of finitely many threads is at a place. `count P pc` is the number of threads that are at
a place with the property `P`; a step of one thread changes it as the two places say.

* `count_update`: one thread goes to another place.
* `eq_of_count_le_one`: at most one thread is at such a place.
-/

namespace Threads

variable {ι π : Type*} [Fintype ι] {P : π → Bool} {pc : ι → π} {i j : ι}

/-- How many threads are at a place with the property. -/
def count (P : π → Bool) (pc : ι → π) : ℕ := (Finset.univ.filter fun i => P (pc i)).card

lemma count_le_card (P : π → Bool) (pc : ι → π) : count P pc ≤ Fintype.card ι :=
  Finset.card_filter_le _ _

lemma count_const_false {x : π} (h : P x = false) : count P (fun _ : ι => x) = 0 := by
  rw [count, Finset.card_eq_zero, Finset.filter_eq_empty_iff]
  simp [h]

lemma count_eq_zero : count P pc = 0 ↔ ∀ i, P (pc i) = false := by
  rw [count, Finset.card_eq_zero, Finset.filter_eq_empty_iff]
  simp

lemma exists_of_count_ne_zero (h : count P pc ≠ 0) : ∃ i, P (pc i) = true := by
  by_contra hnone
  push Not at hnone
  exact h (count_eq_zero.mpr fun i => Bool.eq_false_iff.mpr (hnone i))

lemma count_pos (h : P (pc i) = true) : 0 < count P pc :=
  Finset.card_pos.mpr ⟨i, Finset.mem_filter.mpr ⟨Finset.mem_univ i, h⟩⟩

/-- Where at most one thread can be, two threads are the same. -/
lemma eq_of_count_le_one (h : count P pc ≤ 1) (hi : P (pc i) = true) (hj : P (pc j) = true) :
    i = j :=
  Finset.card_le_one.mp h i (by simpa using hi) j (by simpa using hj)

/-- **A step of one thread** to another place. -/
lemma count_update [DecidableEq ι] (P : π → Bool) (pc : ι → π) (i : ι) (x : π) :
    count P (Function.update pc i x) + (P (pc i)).toNat = count P pc + (P x).toNat := by
  have hsplit : ∀ f : ι → π, count P f =
      (P (f i)).toNat + ((Finset.univ.erase i).filter fun j => P (f j)).card := by
    intro f
    rw [count, ← Finset.insert_erase (Finset.mem_univ i), Finset.filter_insert]
    cases hf : P (f i) with
    | false => simp
    | true => simp [add_comm]
  have hrest : ((Finset.univ.erase i).filter fun j => P (Function.update pc i x j)) =
      (Finset.univ.erase i).filter fun j => P (pc j) := by
    refine Finset.filter_congr fun j hj => ?_
    rw [Function.update_of_ne (Finset.ne_of_mem_erase hj)]
  rw [hsplit (Function.update pc i x), hsplit pc, hrest, Function.update_self]
  omega

omit [Fintype ι] in
/-- The thread that takes the step comes to such a place. -/
lemma exists_update_self [DecidableEq ι] {x : π} (hx : P x = true) :
    ∃ j, P (Function.update pc i x j) = true :=
  ⟨i, by rwa [Function.update_self]⟩

omit [Fintype ι] in
/-- Another thread is at such a place. -/
lemma exists_update_of [DecidableEq ι] (h : ∃ j, P (pc j) = true) (hi : P (pc i) = false) (x : π) :
    ∃ j, P (Function.update pc i x j) = true := by
  obtain ⟨j, hj⟩ := h
  have hne : j ≠ i := by
    rintro rfl
    rw [hj] at hi
    cases hi
  exact ⟨j, by rwa [Function.update_of_ne hne]⟩

end Threads
