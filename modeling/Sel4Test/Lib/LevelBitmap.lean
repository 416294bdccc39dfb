import Mathlib.Tactic

/-!
Sets of numbers in two levels of bit words.

Word `n - 1 - k` of the second level has the numbers from `k * w` on, one bit each, and bit `k`
of the first level says whether that word is not zero. `Marks` states this for a set.

* `Marks.add`, `Marks.remove`: one number comes or goes.
* `Marks.eq_zero`, `Marks.highest`: the empty set, and the greatest number.
-/

namespace LevelBitmap

variable {w : ℕ} {x : BitVec w} {i j : ℕ}

/-! ### One word -/

/-- The highest bit of a word that is not zero. -/
def top (x : BitVec w) : ℕ := w - 1 - x.clz.toNat

lemma getLsbD_top (h : x ≠ 0#w) : x.getLsbD (top x) = true := by
  have hw : 0 < w := by
    by_contra hw
    obtain rfl : w = 0 := by omega
    exact h (BitVec.eq_of_zero_length rfl)
  exact BitVec.getLsbD_true_clz_of_ne_zero hw h

lemma top_lt (h : x ≠ 0#w) : top x < w := BitVec.lt_of_getLsbD (getLsbD_top h)

lemma le_top (h : x.getLsbD i = true) : i ≤ top x := by
  have hlt : x.toNat < 2 ^ (w - x.clz.toNat) := BitVec.toNat_lt_two_pow_sub_clz
  have hge : 2 ^ i ≤ x.toNat := Nat.ge_two_pow_of_testBit h
  have hi : i < w - x.clz.toNat := (Nat.pow_lt_pow_iff_right (by omega)).mp (hge.trans_lt hlt)
  rw [top]
  omega

lemma ne_zero_iff : x ≠ 0#w ↔ ∃ i < w, x.getLsbD i = true := by
  refine ⟨fun h => ⟨top x, top_lt h, getLsbD_top h⟩, ?_⟩
  rintro ⟨i, -, hi⟩ rfl
  simp at hi

lemma getLsbD_set : (x ||| BitVec.twoPow w i).getLsbD j = true ↔
    x.getLsbD j = true ∨ i < w ∧ i = j := by
  simp [BitVec.getLsbD_twoPow]

lemma getLsbD_clear : (x &&& ~~~BitVec.twoPow w i).getLsbD j = true ↔
    x.getLsbD j = true ∧ i ≠ j := by
  rw [BitVec.getLsbD_and, BitVec.getLsbD_not, BitVec.getLsbD_twoPow]
  constructor
  · intro h
    simp only [Bool.and_eq_true, decide_eq_true_eq, Bool.not_eq_true'] at h
    refine ⟨h.1, fun hij => ?_⟩
    simp [hij, h.2.1] at h
  · rintro ⟨h, hij⟩
    simp [h, hij, BitVec.lt_of_getLsbD h]

/-! ### Two levels -/

/-- The words stand for the set. -/
structure Marks (n : ℕ) (l1 : BitVec w) (l2 : ℕ → BitVec w) (S : ℕ → Prop) : Prop where
  bit : ∀ k < n, ∀ i < w, (l2 (n - 1 - k)).getLsbD i = true ↔ S (k * w + i)
  word : ∀ k < w, l1.getLsbD k = true ↔ k < n ∧ l2 (n - 1 - k) ≠ 0#w

variable {n p k : ℕ} {l1 : BitVec w} {l2 : ℕ → BitVec w} {S S' : ℕ → Prop}

/-- A number is a word and a bit of it. -/
lemma div_mod_eq (hi : i < w) : (k * w + i) / w = k ∧ (k * w + i) % w = i := by
  have hw : 0 < w := by omega
  rw [mul_comm, Nat.mul_add_div hw, Nat.mul_add_mod, Nat.div_eq_of_lt hi, Nat.mod_eq_of_lt hi]
  simp

namespace Marks

lemma congr (h : Marks n l1 l2 S) (hS : ∀ p < n * w, S p ↔ S' p) : Marks n l1 l2 S' where
  bit k hk i hi := by
    refine (h.bit k hk i hi).trans (hS _ ?_)
    calc k * w + i < k * w + w := by omega
      _ = (k + 1) * w := by ring
      _ ≤ n * w := Nat.mul_le_mul_right w hk
  word := h.word

lemma zero : Marks n 0#w (fun _ => 0#w) fun _ => False where
  bit k _ i _ := by simp
  word k _ := by simp

/-- **A number comes.** -/
lemma add (h : Marks n l1 l2 S) (hw : 0 < w) (hn : n ≤ w) (hp : p / w < n) :
    Marks n (l1 ||| BitVec.twoPow w (p / w))
      (Function.update l2 (n - 1 - p / w) (l2 (n - 1 - p / w) ||| BitVec.twoPow w (p % w)))
      fun q => q = p ∨ S q where
  bit k hk i hi := by
    have hsplit : k * w + i = p ↔ k = p / w ∧ i = p % w := by
      constructor
      · rintro rfl
        exact ⟨(div_mod_eq hi).1.symm, (div_mod_eq hi).2.symm⟩
      · rintro ⟨rfl, rfl⟩
        exact Nat.div_add_mod' p w
    rw [hsplit, ← h.bit k hk i hi]
    by_cases hkp : k = p / w
    · subst hkp
      rw [Function.update_self, getLsbD_set]
      have hlt : p % w < w := Nat.mod_lt p hw
      constructor
      · rintro (hold | ⟨-, hnew⟩)
        · exact .inr hold
        · exact .inl ⟨rfl, hnew.symm⟩
      · rintro (⟨-, hnew⟩ | hold)
        · exact .inr ⟨hlt, hnew.symm⟩
        · exact .inl hold
    · rw [Function.update_of_ne (by omega)]
      simp [hkp]
  word k hk := by
    have hlt : p / w < w := by omega
    rw [getLsbD_set, h.word k hk]
    by_cases hkp : k = p / w
    · subst hkp
      rw [Function.update_self]
      refine iff_of_true (.inr ⟨hlt, rfl⟩) ⟨hp, ne_zero_iff.mpr ⟨p % w, Nat.mod_lt p hw, ?_⟩⟩
      exact getLsbD_set.mpr (.inr ⟨Nat.mod_lt p hw, rfl⟩)
    · have hne : ¬ (p / w < w ∧ p / w = k) := fun hpk => hkp hpk.2.symm
      rw [or_iff_left hne]
      refine and_congr_right fun hkn => ?_
      rw [Function.update_of_ne (by omega)]

/-- **A number goes**, and its word with it, if that is zero. -/
lemma remove (h : Marks n l1 l2 S) (hp : p / w < n)
    {word' : BitVec w} (hword : word' = l2 (n - 1 - p / w) &&& ~~~BitVec.twoPow w (p % w)) :
    Marks n (if word' = 0#w then l1 &&& ~~~BitVec.twoPow w (p / w) else l1)
      (Function.update l2 (n - 1 - p / w) word') fun q => q ≠ p ∧ S q where
  bit k hk i hi := by
    have hsplit : k * w + i ≠ p ↔ k = p / w → i ≠ p % w := by
      constructor
      · rintro hne rfl rfl
        exact hne (Nat.div_add_mod' p w)
      · rintro hne rfl
        exact hne (div_mod_eq hi).1.symm (div_mod_eq hi).2.symm
    rw [hsplit, ← h.bit k hk i hi]
    by_cases hkp : k = p / w
    · subst hkp
      rw [Function.update_self, hword, getLsbD_clear]
      exact ⟨fun hold => ⟨fun _ hi => hold.2 hi.symm, hold.1⟩,
        fun hold => ⟨hold.2, fun hi => hold.1 rfl hi.symm⟩⟩
    · rw [Function.update_of_ne (by omega)]
      simp [hkp]
  word k hk := by
    by_cases hkp : k = p / w
    · subst hkp
      rw [Function.update_self]
      split_ifs with hzero
      · rw [getLsbD_clear]
        exact iff_of_false (fun hself => hself.2 rfl) fun hne => hne.2 hzero
      · rw [h.word _ hk]
        refine and_congr_right fun _ => iff_of_true (fun hold => hzero ?_) hzero
        rw [hword, hold]
        simp
    · have hrest : (k < n ∧ Function.update l2 (n - 1 - p / w) word' (n - 1 - k) ≠ 0#w) ↔
          l1.getLsbD k = true := by
        rw [h.word k hk]
        refine and_congr_right fun hkn => ?_
        rw [Function.update_of_ne (by omega)]
      rw [hrest]
      split_ifs with hzero
      · rw [getLsbD_clear]
        exact and_iff_left (Ne.symm hkp)
      · rfl

lemma eq_zero (h : Marks n l1 l2 S) (hn : n ≤ w) : l1 = 0#w ↔ ∀ p < n * w, ¬ S p := by
  constructor
  · rintro hzero p hp hS
    have hw : 0 < w := Nat.pos_of_mul_pos_left (by omega : 0 < n * w)
    have hk : p / w < n := Nat.div_lt_of_lt_mul (by rwa [mul_comm])
    have hi : p % w < w := Nat.mod_lt p hw
    have hbit := (h.bit _ hk _ hi).mpr (by rwa [Nat.div_add_mod'])
    have hword := (h.word _ (by omega)).mpr ⟨hk, ne_zero_iff.mpr ⟨_, hi, hbit⟩⟩
    rw [hzero] at hword
    simp at hword
  · intro hnone
    by_contra hne
    obtain ⟨k, hk, hbit⟩ := ne_zero_iff.mp hne
    obtain ⟨hkn, hword⟩ := (h.word k hk).mp hbit
    obtain ⟨i, hi, hbit⟩ := ne_zero_iff.mp hword
    refine hnone (k * w + i) ?_ ((h.bit k hkn i hi).mp hbit)
    calc k * w + i < k * w + w := by omega
      _ = (k + 1) * w := by ring
      _ ≤ n * w := Nat.mul_le_mul_right w hkn

/-- **The greatest number**: the top bit of the top word. -/
lemma highest (h : Marks n l1 l2 S) (hn : n ≤ w) (hne : l1 ≠ 0#w) :
    top l1 < n ∧ l2 (n - 1 - top l1) ≠ 0#w ∧ S (top l1 * w + top (l2 (n - 1 - top l1))) ∧
      ∀ p < n * w, S p → p ≤ top l1 * w + top (l2 (n - 1 - top l1)) := by
  obtain ⟨hk, hword⟩ := (h.word _ (top_lt hne)).mp (getLsbD_top hne)
  refine ⟨hk, hword, (h.bit _ hk _ (top_lt hword)).mp (getLsbD_top hword), fun p hp hS => ?_⟩
  have hw : 0 < w := by have := top_lt hne; omega
  have hpk : p / w < n := Nat.div_lt_of_lt_mul (by rwa [mul_comm])
  have hpi : p % w < w := Nat.mod_lt p hw
  have hbit := (h.bit _ hpk _ hpi).mpr (by rwa [Nat.div_add_mod'])
  have hle : p / w ≤ top l1 :=
    le_top ((h.word _ (by omega)).mpr ⟨hpk, ne_zero_iff.mpr ⟨_, hpi, hbit⟩⟩)
  rcases hle.lt_or_eq with hlt | heq
  · calc p = p / w * w + p % w := (Nat.div_add_mod' p w).symm
      _ ≤ p / w * w + w := by omega
      _ = (p / w + 1) * w := by ring
      _ ≤ top l1 * w := Nat.mul_le_mul_right w hlt
      _ ≤ _ := Nat.le_add_right _ _
  · rw [heq] at hbit
    calc p = p / w * w + p % w := (Nat.div_add_mod' p w).symm
      _ ≤ top l1 * w + top (l2 (n - 1 - top l1)) := by
        rw [heq]
        exact Nat.add_le_add_left (le_top hbit) _

end Marks

end LevelBitmap
