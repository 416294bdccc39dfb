import Sel4Test.Lib.ByteMem

/-!
The zero bytes of a word.

From a word of `k` bytes, one is subtracted in every byte; of the result, the bits are kept that
are clear in the word, and of these the highest of every byte. Something is left exactly if a
byte is zero, whatever the borrows from one byte to the next have done to the bytes above.

* `test_succ`: the test of a word is that of its lowest byte and that of the rest.
* `test_ofLE`: the test finds a zero byte if and only if there is one.
* `toNat_word_test`: the test on machine words.
-/

namespace ZeroByte

open ByteMem

/-- The byte `b` in every place of a word. -/
def repeated (b : ℕ) : ℕ → ℕ
  | 0 => 0
  | k + 1 => b + 256 * repeated b k

/-- What is left of a word of `k` bytes. -/
def test (k w : ℕ) : ℕ :=
  (w + (256 ^ k - repeated 1 k)) % 256 ^ k &&& (256 ^ k - 1 - w) &&& repeated 128 k

variable {b k w : ℕ}

lemma repeated_lt (hb : b < 256) : repeated b k < 256 ^ k := by
  induction k with
  | zero => exact Nat.one_pos
  | succ k ih =>
      rw [repeated, Nat.pow_succ]
      omega

/-- A conjunction, of the lowest bytes and of the rest. -/
lemma and_bytes {x y a c : ℕ} (hx : x < 256) (hy : y < 256) :
    (x + 256 * a) &&& (y + 256 * c) = (x &&& y) + 256 * (a &&& c) := by
  have hmod : ((x + 256 * a) &&& (y + 256 * c)) % 2 ^ 8 = x &&& y := by
    rw [Nat.and_mod_two_pow]
    congr 1 <;> omega
  have hdiv : ((x + 256 * a) &&& (y + 256 * c)) / 2 ^ 8 = a &&& c := by
    rw [Nat.and_div_two_pow]
    congr 1 <;> omega
  rw [← hmod, ← hdiv]
  omega

/-- The bits that are left of one byte. -/
lemma byte_left : ∀ b < 256, ((b + 255) % 256 &&& (255 - b) &&& 128 = 0 ↔ b ≠ 0) := by
  decide +kernel

/-- **The lowest byte** and the rest: a borrow comes from a byte that is zero itself. -/
lemma test_succ (hb : b < 256) (hw : w < 256 ^ k) :
    test (k + 1) (b + 256 * w) ≠ 0 ↔ b = 0 ∨ test k w ≠ 0 := by
  have hrepeated : repeated 1 k < 256 ^ k := repeated_lt (by norm_num)
  have hcomplement : 256 ^ (k + 1) - 1 - (b + 256 * w) = (255 - b) + 256 * (256 ^ k - 1 - w) := by
    rw [Nat.pow_succ]
    omega
  -- what the subtraction leaves above the lowest byte depends on the borrow
  obtain ⟨rest, hsub, hrest⟩ : ∃ rest,
      (b + 256 * w + (256 ^ (k + 1) - repeated 1 (k + 1))) % 256 ^ (k + 1) =
        (b + 255) % 256 + 256 * rest ∧
      (b ≠ 0 → rest = (w + (256 ^ k - repeated 1 k)) % 256 ^ k) := by
    refine ⟨(b + 256 * w + (256 ^ (k + 1) - repeated 1 (k + 1))) / 256 % 256 ^ k, ?_, fun hne => ?_⟩
    · rw [Nat.pow_succ', Nat.mod_mul, repeated]
      congr 1
      omega
    · rw [Nat.pow_succ', repeated]
      congr 1
      omega
  have hbyte : (b + 255) % 256 &&& (255 - b) < 256 :=
    Nat.and_le_left.trans_lt (Nat.mod_lt _ (by norm_num))
  rw [test, hsub, hcomplement, repeated, and_bytes (Nat.mod_lt _ (by norm_num)) (by omega),
    and_bytes hbyte (by norm_num)]
  have hleft := byte_left b hb
  by_cases hzero : b = 0
  · have hsome : (b + 255) % 256 &&& (255 - b) &&& 128 ≠ 0 := fun h => hleft.mp h hzero
    exact iff_of_true (by omega) (.inl hzero)
  · rw [hleft.mpr hzero, hrest hzero, test]
    omega

/-- **A zero byte is found** if and only if there is one. -/
theorem test_ofLE (bs : List UInt8) : test bs.length (ofLE bs) ≠ 0 ↔ 0 ∈ bs := by
  induction bs with
  | nil => decide
  | cons b bs ih =>
      have hzero : b.toNat = 0 ↔ 0 = b := by
        rw [eq_comm (a := (0 : UInt8)), ← UInt8.toNat_inj]
        rfl
      rw [List.length_cons, ofLE, test_succ b.toNat_lt (ofLE_lt bs), ih, List.mem_cons, hzero]

/-- The test of a machine word. -/
lemma toNat_word_test (w : BitVec 64) :
    ((w - BitVec.ofNat 64 (repeated 1 8)) &&& ~~~w &&& BitVec.ofNat 64 (repeated 128 8)).toNat =
      test 8 w.toNat := by
  have hone : (BitVec.ofNat 64 (repeated 1 8)).toNat = repeated 1 8 := by decide
  have htop : (BitVec.ofNat 64 (repeated 128 8)).toNat = repeated 128 8 := by decide
  rw [BitVec.toNat_and, BitVec.toNat_and, BitVec.toNat_sub, BitVec.toNat_not, hone, htop, test,
    Nat.add_comm, show (256 : ℕ) ^ 8 = 2 ^ 64 by norm_num]

end ZeroByte
