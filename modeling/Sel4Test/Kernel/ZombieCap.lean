import Mathlib.Tactic
import Sel4Test.Kernel.Cap

/-!
The words of a zombie cap, `Zombie_new` and the accessors of `object/structures.h`, with the block
`zombie_cap` of `object/structures_64.bf`.

One word has the address of the object and the number of slots that are left, which are split at
a bit that depends on the type; the other word has the type and the tag.

* `mask_spec`: the low bits of a word.
* `split_spec`: an aligned address and a small number in one word.
* `zombie_lossless`: what is read from a zombie is what it was made from, and another number
  changes nothing else.
* `reads_zombieWords`: the words are those of the zombies in `Cap`.
-/

namespace Kernel

/-- `word_t`. -/
abbrev Word := BitVec 64

/-- The two words of a cap. -/
structure CapWords where
  words0 : Word
  words1 : Word
  deriving DecidableEq, Repr

namespace CapWords

/-- `BIT`. -/
def bit (n : Word) : Word := (1 : Word) <<< n

/-- `MASK`. -/
def mask (n : Word) : Word := bit n - 1

/-- `TCB_CNODE_RADIX`. -/
def tcbCNodeRadix : Word := 4

/-- `wordRadix`. -/
def wordRadix : Word := 6

/-- `ZombieType_ZombieTCB`. -/
def zombieTCB : Word := bit wordRadix

/-- `ZombieType_ZombieCNode`. -/
def zombieCNode (n : Word) : Word := n &&& mask wordRadix

/-- The tag of `zombie_cap`. -/
def zombieCapTag : Word := 18

/-- `cap_zombie_cap_new`: the type takes seven bits of the first word, the tag the upper five. -/
def zombieCapNew (capZombieID capZombieType : Word) : CapWords :=
  ⟨(zombieCapTag &&& 0x1f) <<< 59 ||| capZombieType &&& 0x7f, capZombieID⟩

/-- `Zombie_new`. -/
def zombieNew (number type ptr : Word) : CapWords :=
  let mask := if type = zombieTCB then mask (tcbCNodeRadix + 1) else mask (type + 1)
  zombieCapNew (ptr &&& ~~~mask ||| number &&& mask) type

/-- `cap_zombie_cap_get_capZombieType`. -/
def capZombieType (cap : CapWords) : Word := cap.words0 &&& 0x7f

/-- `cap_zombie_cap_get_capZombieID`. -/
def capZombieID (cap : CapWords) : Word := cap.words1

/-- `cap_zombie_cap_set_capZombieID`. -/
def setCapZombieID (cap : CapWords) (v : Word) : CapWords := { cap with words1 := v }

/-- `cap_zombie_cap_get_capZombieBits`. -/
def capZombieBits (cap : CapWords) : Word :=
  let type := cap.capZombieType
  if type = zombieTCB then tcbCNodeRadix else zombieCNode type

/-- `cap_zombie_cap_get_capZombieNumber`. -/
def capZombieNumber (cap : CapWords) : Word :=
  let radix := cap.capZombieBits
  cap.capZombieID &&& mask (radix + 1)

/-- `cap_zombie_cap_get_capZombiePtr`. -/
def capZombiePtr (cap : CapWords) : Word :=
  let radix := cap.capZombieBits
  cap.capZombieID &&& ~~~mask (radix + 1)

/-- `cap_zombie_cap_set_capZombieNumber`. -/
def setCapZombieNumber (cap : CapWords) (n : Word) : CapWords :=
  let radix := cap.capZombieBits
  let ptr := cap.capZombieID &&& ~~~mask (radix + 1)
  cap.setCapZombieID (ptr ||| n &&& mask (radix + 1))

/-- A zombie that is counted down, as `reduceZombie` does it, for `k` slots. -/
def countDown : ℕ → CapWords → CapWords
  | 0, cap => cap
  | k + 1, cap => countDown k (cap.setCapZombieNumber (cap.capZombieNumber - 1))

/-! ### One word for two -/

section Split

variable {k b : ℕ} {ptr n m : Word}

lemma toNat_mask (hk : k < 64) : (mask (BitVec.ofNat 64 k)).toNat = 2 ^ k - 1 := by
  have hpow : 2 ^ k < 2 ^ 64 := Nat.pow_lt_pow_right (by norm_num) hk
  have hpos : 0 < 2 ^ k := Nat.two_pow_pos k
  have hbit : bit (BitVec.ofNat 64 k) = BitVec.twoPow 64 k := by
    rw [BitVec.twoPow_eq, bit, BitVec.shiftLeft_eq', BitVec.toNat_ofNat, Nat.mod_eq_of_lt (by omega)]
    rfl
  have hone : (1 : Word).toNat = 1 := rfl
  rw [mask, hbit, BitVec.toNat_sub, BitVec.toNat_twoPow_of_lt hk]
  omega

/-- **The low bits.** -/
lemma mask_spec (hk : k < 64) (i : ℕ) :
    (mask (BitVec.ofNat 64 k)).getLsbD i = decide (i < k) := by
  rw [BitVec.getLsbD, toNat_mask hk, Nat.testBit_two_pow_sub_one]

/-- `IS_ALIGNED`. -/
def IsAligned (ptr : Word) (b : ℕ) : Prop := ptr &&& mask (BitVec.ofNat 64 b) = 0

instance : Decidable (IsAligned ptr b) :=
  inferInstanceAs (Decidable (ptr &&& mask (BitVec.ofNat 64 b) = 0))

lemma isAligned_iff (hb : b < 64) : IsAligned ptr b ↔ 2 ^ b ∣ ptr.toNat := by
  rw [IsAligned, Nat.dvd_iff_mod_eq_zero, ← Nat.and_two_pow_sub_one_eq_mod, ← toNat_mask hb,
    ← BitVec.toNat_and]
  exact BitVec.toNat_inj.symm

lemma IsAligned.getLsbD (h : IsAligned ptr b) (hb : b < 64) {i : ℕ} (hi : i < b) :
    ptr.getLsbD i = false := by
  have hand := congrArg (BitVec.getLsbD · i) h
  simpa [mask_spec hb, hi] using hand

/-- A number that is less than a power of two has no bits above it. -/
lemma getLsbD_of_lt (hn : n.toNat < 2 ^ k) {i : ℕ} (hi : k ≤ i) : n.getLsbD i = false :=
  Nat.testBit_lt_two_pow (hn.trans_le (Nat.pow_le_pow_right (by norm_num) hi))

/-- **The address and the number** do not touch each other. -/
lemma split_spec (hk : k < 64) (hkb : k ≤ b) (hb : b < 64) (hptr : IsAligned ptr b)
    (hn : n.toNat < 2 ^ k) :
    (ptr &&& ~~~mask (BitVec.ofNat 64 k) ||| n &&& mask (BitVec.ofNat 64 k)) &&&
        ~~~mask (BitVec.ofNat 64 k) = ptr ∧
      (ptr &&& ~~~mask (BitVec.ofNat 64 k) ||| n &&& mask (BitVec.ofNat 64 k)) &&&
        mask (BitVec.ofNat 64 k) = n := by
  constructor
  · refine BitVec.eq_of_getLsbD_eq fun i hi => ?_
    simp only [BitVec.getLsbD_and, BitVec.getLsbD_or, BitVec.getLsbD_not, mask_spec hk, hi]
    by_cases hik : i < k
    · simp [hik, hptr.getLsbD hb (hik.trans_le hkb)]
    · simp [hik]
  · refine BitVec.eq_of_getLsbD_eq fun i hi => ?_
    simp only [BitVec.getLsbD_and, BitVec.getLsbD_or, BitVec.getLsbD_not, mask_spec hk, hi]
    by_cases hik : i < k
    · simp [hik]
    · simp [hik, getLsbD_of_lt hn (not_lt.mp hik)]

end Split

/-! ### Zombies -/

end CapWords

namespace ZombieType

/-- The word that says the type. -/
def word : ZombieType → Word
  | tcb => CapWords.zombieTCB
  | cnode radix => BitVec.ofNat 64 radix

/-- The radix of the slots. -/
def radix : ZombieType → ℕ
  | tcb => 4
  | cnode radix => radix

/-- The size of the object, in bits. -/
def sizeBits : ZombieType → ℕ
  | tcb => tcbBits
  | cnode radix => radix + slotBits

end ZombieType

namespace CapWords

/-- The words of `Cap.zombie`. -/
def zombieWords (t : ZombieType) (num addr : ℕ) : CapWords :=
  zombieNew (BitVec.ofNat 64 num) t.word (BitVec.ofNat 64 addr)

section Zombie

variable {t : ZombieType} {ptr n m : Word}

/-- The low seven bits of a type are all of it. -/
lemma and_type {type : Word} (h : type.toNat < 2 ^ 7) : type &&& 0x7f = type := by
  refine BitVec.eq_of_toNat_eq ?_
  rw [BitVec.toNat_and]
  exact (Nat.and_two_pow_sub_one_eq_mod type.toNat 7).trans (Nat.mod_eq_of_lt h)

lemma toNat_word (ht : t.sizeBits < wordBits) : t.word.toNat < 2 ^ 7 := by
  cases t with
  | tcb => decide
  | cnode radix =>
      have hradix : radix + 5 < 64 := ht
      rw [ZombieType.word, BitVec.toNat_ofNat]
      omega

/-- The type is read as it was written. -/
lemma capZombieType_new (ht : t.sizeBits < wordBits) :
    (zombieNew n t.word ptr).capZombieType = t.word := by
  have htag : (0x7f : Word) &&& (zombieCapTag &&& 0x1f) <<< 59 = 0#64 := by decide
  rw [zombieNew, zombieCapNew, capZombieType, BitVec.and_comm, BitVec.and_or_distrib_left, htag,
    BitVec.zero_or, BitVec.and_comm, BitVec.and_assoc, BitVec.and_self, and_type (toNat_word ht)]

/-- A type is that of a TCB or of a CNode. -/
lemma type_eq (ht : t.sizeBits < wordBits) :
    (if t.word = zombieTCB then tcbCNodeRadix else zombieCNode t.word) = BitVec.ofNat 64 t.radix ∧
      (if t.word = zombieTCB then mask (tcbCNodeRadix + 1) else mask (t.word + 1)) =
        mask (BitVec.ofNat 64 (t.radix + 1)) := by
  cases t with
  | tcb => exact ⟨by decide, by decide⟩
  | cnode radix =>
      have hradix : radix + 5 < 64 := ht
      have hne : (ZombieType.cnode radix).word ≠ zombieTCB := by
        intro heq
        have hnat := congrArg BitVec.toNat heq
        rw [ZombieType.word, BitVec.toNat_ofNat, show zombieTCB.toNat = 64 by decide] at hnat
        omega
      rw [if_neg hne, if_neg hne]
      refine ⟨BitVec.eq_of_toNat_eq ?_, ?_⟩
      · rw [zombieCNode, ZombieType.word, BitVec.toNat_and, BitVec.toNat_ofNat,
          Nat.mod_eq_of_lt (show radix < 2 ^ 64 by omega), show (mask wordRadix).toNat = 2 ^ 6 - 1
            by decide, Nat.and_two_pow_sub_one_eq_mod, Nat.mod_eq_of_lt (show radix < 2 ^ 6 by omega),
          ZombieType.radix, BitVec.toNat_ofNat, Nat.mod_eq_of_lt (show radix < 2 ^ 64 by omega)]
      · rw [ZombieType.word, ZombieType.radix, BitVec.ofNat_add]
        rfl

lemma capZombieBits_new (ht : t.sizeBits < wordBits) :
    (zombieNew n t.word ptr).capZombieBits = BitVec.ofNat 64 t.radix := by
  rw [capZombieBits, capZombieType_new ht]
  exact (type_eq ht).1

lemma capZombieID_new (ht : t.sizeBits < wordBits) :
    (zombieNew n t.word ptr).capZombieID =
      ptr &&& ~~~mask (BitVec.ofNat 64 (t.radix + 1)) |||
        n &&& mask (BitVec.ofNat 64 (t.radix + 1)) := by
  rw [zombieNew, (type_eq ht).2]
  rfl

/-- The radix leaves room for the number, below the bits of the address. -/
lemma radix_lt (ht : t.sizeBits < wordBits) : t.radix + 1 < 64 ∧ t.radix + 1 ≤ t.sizeBits := by
  cases t with
  | tcb => decide
  | cnode radix =>
      have hradix : radix + 5 < 64 := ht
      constructor
      · rw [ZombieType.radix]
        omega
      · rw [ZombieType.radix, ZombieType.sizeBits, slotBits]
        omega

/-- **Address and number** are read as they were written. -/
lemma read_new (ht : t.sizeBits < wordBits) (hptr : IsAligned ptr t.sizeBits)
    (hn : n.toNat ≤ 2 ^ t.radix) :
    (zombieNew n t.word ptr).capZombiePtr = ptr ∧
      (zombieNew n t.word ptr).capZombieNumber = n := by
  obtain ⟨hlt, hle⟩ := radix_lt ht
  have hsucc : BitVec.ofNat 64 t.radix + 1 = BitVec.ofNat 64 (t.radix + 1) :=
    (BitVec.ofNat_add ..).symm
  have hpow : 2 ^ t.radix < 2 ^ (t.radix + 1) := Nat.pow_lt_pow_right (by norm_num) (by omega)
  rw [capZombiePtr, capZombieNumber, capZombieBits_new ht, capZombieID_new ht, hsucc]
  exact split_spec hlt hle ht hptr (hn.trans_lt hpow)

/-- **Another number** is all that changes. -/
lemma setCapZombieNumber_new (ht : t.sizeBits < wordBits) (hptr : IsAligned ptr t.sizeBits)
    (hn : n.toNat ≤ 2 ^ t.radix) :
    (zombieNew n t.word ptr).setCapZombieNumber m = zombieNew m t.word ptr := by
  have hsucc : BitVec.ofNat 64 t.radix + 1 = BitVec.ofNat 64 (t.radix + 1) :=
    (BitVec.ofNat_add ..).symm
  have hread := (read_new ht hptr hn).1
  rw [capZombiePtr, capZombieBits_new ht, hsucc] at hread
  have hself := (read_new (n := 0#64) ht hptr (Nat.zero_le _)).1
  rw [capZombiePtr, capZombieBits_new ht, hsucc, capZombieID_new ht, BitVec.zero_and,
    BitVec.or_zero, BitVec.and_assoc, BitVec.and_self] at hself
  rw [setCapZombieNumber, capZombieBits_new ht, hsucc, hread]
  rw [zombieNew, zombieNew, (type_eq ht).2, hself]
  rfl

/-- **A zombie is lossless**: the address, the number of slots and the type are read as they were
written, another number changes nothing else, and this holds all the way down to zero. -/
theorem zombie_lossless (ht : t.sizeBits < wordBits) (hptr : IsAligned ptr t.sizeBits)
    (hn : n.toNat ≤ 2 ^ t.radix) :
    (zombieNew n t.word ptr).capZombiePtr = ptr ∧
      (zombieNew n t.word ptr).capZombieNumber = n ∧
      (zombieNew n t.word ptr).capZombieType = t.word ∧
      (∀ m, (zombieNew n t.word ptr).setCapZombieNumber m = zombieNew m t.word ptr) ∧
      ∀ k ≤ n.toNat, countDown k (zombieNew n t.word ptr) =
        zombieNew (n - BitVec.ofNat 64 k) t.word ptr := by
  obtain ⟨hread, hnumber⟩ := read_new ht hptr hn
  refine ⟨hread, hnumber, capZombieType_new ht, fun m => setCapZombieNumber_new ht hptr hn,
    fun k hk => ?_⟩
  clear hread hnumber
  induction k generalizing n with
  | zero => rw [countDown, BitVec.sub_zero]
  | succ k ih =>
      have hone : (n - 1).toNat = n.toNat - 1 := by
        rw [BitVec.toNat_sub]
        have hone : (1 : Word).toNat = 1 := rfl
        have hlt := n.isLt
        omega
      rw [countDown, (read_new ht hptr hn).2, setCapZombieNumber_new ht hptr hn,
        ih (by omega) (by omega), BitVec.ofNat_add, BitVec.sub_sub, BitVec.add_comm]
      rfl

theorem zombie_lossless_cnode :
    let cap := zombieNew 16 (ZombieType.cnode 4).word 0x1000
    cap.capZombiePtr = 0x1000 ∧ cap.capZombieNumber = 16 ∧
      cap.capZombieType = (ZombieType.cnode 4).word ∧
      (∀ m, cap.setCapZombieNumber m = zombieNew m (ZombieType.cnode 4).word 0x1000) ∧
      ∀ k ≤ 16, countDown k cap =
        zombieNew (16 - BitVec.ofNat 64 k) (ZombieType.cnode 4).word 0x1000 :=
  zombie_lossless (t := .cnode 4) (by decide) (by decide) (by decide)

/-- **The zombies of `Cap`** are those of the words. -/
lemma reads_zombieWords {num other addr : ℕ} (ht : t.sizeBits < wordBits) (haddr : addr < 2 ^ 64)
    (hdvd : 2 ^ t.sizeBits ∣ addr) (hnum : num ≤ 2 ^ t.radix) :
    (zombieWords t num addr).capZombiePtr.toNat = addr ∧
      (zombieWords t num addr).capZombieNumber.toNat = num ∧
      (zombieWords t num addr).setCapZombieNumber (BitVec.ofNat 64 other) =
        zombieWords t other addr := by
  have htoNat : (BitVec.ofNat 64 addr).toNat = addr := by
    rw [BitVec.toNat_ofNat, Nat.mod_eq_of_lt haddr]
  have hptr : IsAligned (BitVec.ofNat 64 addr) t.sizeBits := by
    rw [isAligned_iff ht, htoNat]
    exact hdvd
  have hlt : num < 2 ^ 64 :=
    hnum.trans_lt (Nat.pow_lt_pow_right (by norm_num) (by have := radix_lt ht; omega))
  have hn : (BitVec.ofNat 64 num).toNat = num := by
    rw [BitVec.toNat_ofNat, Nat.mod_eq_of_lt hlt]
  obtain ⟨hread, hnumber⟩ := read_new ht hptr (by rwa [hn])
  rw [zombieWords, hread, hnumber, htoNat, hn]
  exact ⟨rfl, rfl, setCapZombieNumber_new ht hptr (by rwa [hn])⟩

end Zombie

end CapWords

end Kernel
