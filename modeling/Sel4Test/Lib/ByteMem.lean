import Mathlib.Tactic

/-!
Byte-addressed memory and little-endian words.

A memory is a function from addresses to bytes. Blocks of bytes are read with
`load` and written with `store`; words of `w` bytes are read with `readLE` and
written with `writeLE`. Three kinds of facts are certified:

* **Read back.** `load_store_same`, `load_store_take` and `readLE_writeLE`: what
  was written is read, a word modulo `256^w`.
* **Frame.** `store_of_outside`, `load_store_disjoint` and
  `readLE_store_disjoint`: a write leaves every disjoint range as it was.
* **Coding.** `ofLE_toLE` and `toLE_ofLE`: the two directions of the
  little-endian coding are inverse to each other.
-/

namespace ByteMem

/-! ### Little-endian words -/

/-- The number coded by a list of bytes, least significant byte first. -/
def ofLE : List UInt8 → ℕ
  | [] => 0
  | b :: bs => b.toNat + 256 * ofLE bs

/-- The `w` low bytes of a number, least significant byte first. -/
def toLE : ℕ → ℕ → List UInt8
  | 0, _ => []
  | w + 1, v => UInt8.ofNat v :: toLE w (v / 256)

@[simp] lemma ofLE_nil : ofLE [] = 0 := rfl

@[simp] lemma length_toLE (w v : ℕ) : (toLE w v).length = w := by
  induction w generalizing v with
  | zero => rfl
  | succ w ih => simp [toLE, ih]

/-- A word of `w` bytes is below `256^w`. -/
lemma ofLE_lt (bs : List UInt8) : ofLE bs < 256 ^ bs.length := by
  induction bs with
  | nil => simp
  | cons b bs ih =>
      have hb := b.toNat_lt
      simp only [ofLE, List.length_cons, Nat.pow_succ]
      omega

/-- Decoding the coding of `v` gives `v` modulo the word size. -/
lemma ofLE_toLE (w v : ℕ) : ofLE (toLE w v) = v % 256 ^ w := by
  induction w generalizing v with
  | zero => simp [toLE, Nat.mod_one]
  | succ w ih =>
      rw [toLE, ofLE, ih, Nat.pow_succ', Nat.mod_mul]
      simp

lemma ofLE_toLE_of_lt {w v : ℕ} (h : v < 256 ^ w) : ofLE (toLE w v) = v := by
  rw [ofLE_toLE, Nat.mod_eq_of_lt h]

lemma ofLE_toLE_u16 (v : UInt16) : UInt16.ofNat (ofLE (toLE 2 v.toNat)) = v := by
  rw [ofLE_toLE_of_lt (Nat.lt_of_lt_of_le v.toNat_lt (by norm_num)), UInt16.ofNat_toNat]

lemma ofLE_toLE_u32 (v : UInt32) : UInt32.ofNat (ofLE (toLE 4 v.toNat)) = v := by
  rw [ofLE_toLE_of_lt (Nat.lt_of_lt_of_le v.toNat_lt (by norm_num)), UInt32.ofNat_toNat]

/-- Coding the value of a list of bytes gives the list. -/
lemma toLE_ofLE (bs : List UInt8) : toLE bs.length (ofLE bs) = bs := by
  induction bs with
  | nil => rfl
  | cons b bs ih =>
      have hb := b.toNat_lt
      have hdiv : (b.toNat + 256 * ofLE bs) / 256 = ofLE bs := by omega
      have hhead : UInt8.ofNat (b.toNat + 256 * ofLE bs) = b := by
        apply UInt8.toNat_inj.mp
        simp only [UInt8.toNat_ofNat']
        omega
      rw [List.length_cons, toLE, ofLE, hdiv, hhead, ih]

/-! ### Network byte order -/

/-- The big-endian coding of `v` in `w` bytes. -/
def toBE (w v : ℕ) : List UInt8 := (toLE w v).reverse

/-- The value of a list of bytes, most significant first. -/
def ofBE (bs : List UInt8) : ℕ := ofLE bs.reverse

@[simp] lemma length_toBE (w v : ℕ) : (toBE w v).length = w := by
  rw [toBE, List.length_reverse, length_toLE]

lemma ofBE_toBE_of_lt {w v : ℕ} (h : v < 256 ^ w) : ofBE (toBE w v) = v := by
  rw [ofBE, toBE, List.reverse_reverse, ofLE_toLE_of_lt h]

lemma ofBE_toBE_u32 (v : UInt32) : UInt32.ofNat (ofBE (toBE 4 v.toNat)) = v := by
  rw [ofBE_toBE_of_lt (Nat.lt_of_lt_of_le v.toNat_lt (by norm_num)), UInt32.ofNat_toNat]

lemma ofBE_toBE_u64 (v : UInt64) : UInt64.ofNat (ofBE (toBE 8 v.toNat)) = v := by
  rw [ofBE_toBE_of_lt (Nat.lt_of_lt_of_le v.toNat_lt (by norm_num)), UInt64.ofNat_toNat]

/-! ### Blocks of bytes -/

/-- A memory: the byte at every address. -/
abbrev Mem := ℕ → UInt8

/-- The `n` bytes from address `a` on. -/
def load (m : Mem) (a n : ℕ) : List UInt8 :=
  (List.range n).map fun i => m (a + i)

/-- The memory after the bytes `bs` are written from address `a` on. -/
def store (m : Mem) (a : ℕ) (bs : List UInt8) : Mem := fun x =>
  if a ≤ x then bs[x - a]?.getD (m x) else m x

variable {m m' : Mem} {a b n k x : ℕ} {bs : List UInt8}

@[simp] lemma length_load (m : Mem) (a n : ℕ) : (load m a n).length = n := by
  simp [load]

lemma getElem?_load (m : Mem) (a n i : ℕ) :
    (load m a n)[i]? = if i < n then some (m (a + i)) else none := by
  by_cases h : i < n
  · simp [load, h]
  · simp [load, h]

/-- A block only depends on the bytes it covers. -/
lemma load_congr (h : ∀ i < n, m (a + i) = m' (a + i)) : load m a n = load m' a n := by
  rw [load]
  apply List.map_congr_left
  intro i hi
  exact h i (List.mem_range.mp hi)

/-- Equal blocks have equal bytes. -/
lemma eq_of_load_eq (h : load m a n = load m' b n) : ∀ i < n, m (a + i) = m' (b + i) := by
  intro i hi
  have hget := congrArg (fun l : List UInt8 => l[i]?) h
  simp only [getElem?_load, if_pos hi] at hget
  exact Option.some.inj hget

/-- The head of a block is the shorter block at the same address. -/
lemma take_load (m : Mem) (a n k : ℕ) : (load m a n).take k = load m a (min k n) := by
  simp [load, ← List.map_take, List.take_range]

/-- The tail of a block is the shorter block further on. -/
lemma drop_load (m : Mem) (a n k : ℕ) : (load m a n).drop k = load m (a + k) (n - k) := by
  apply List.ext_getElem?
  intro i
  rw [List.getElem?_drop, getElem?_load, getElem?_load]
  by_cases h : k + i < n
  · simp [h, show i < n - k by omega, Nat.add_assoc]
  · simp [h, show ¬ i < n - k by omega]

/-- A block is a shorter one and what comes after it. -/
lemma load_add (m : Mem) (a n k : ℕ) : load m a (n + k) = load m a n ++ load m (a + n) k := by
  rw [load, load, load, List.range_add, List.map_append, List.map_map]
  congr 1
  exact List.map_congr_left fun i _ => by rw [Function.comp_apply, Nat.add_assoc]

/-- A block without any set byte. -/
lemma load_eq_replicate (h : ∀ i < n, m (a + i) = 0) : load m a n = List.replicate n 0 :=
  List.eq_replicate_iff.mpr ⟨length_load m a n, fun b hb => by
    obtain ⟨i, hi, rfl⟩ := List.mem_map.mp hb
    exact h i (List.mem_range.mp hi)⟩

@[simp] lemma store_nil (m : Mem) (a : ℕ) : store m a [] = m := by
  funext x
  simp [store]

/-- A write does not reach past its own range. -/
lemma store_of_outside (h : x < a ∨ a + bs.length ≤ x) : store m a bs x = m x := by
  rw [store]
  split
  · rw [List.getElem?_eq_none (by omega), Option.getD_none]
  · rfl

lemma store_of_inside (i : ℕ) (h : i < bs.length) : store m a bs (a + i) = bs[i] := by
  simp [store, h]

/-- The written block is read back. -/
lemma load_store_same (m : Mem) (a : ℕ) (bs : List UInt8) :
    load (store m a bs) a bs.length = bs := by
  apply List.ext_getElem?
  intro i
  rw [getElem?_load]
  by_cases h : i < bs.length
  · rw [if_pos h, store_of_inside i h, List.getElem?_eq_getElem h]
  · rw [if_neg h, List.getElem?_eq_none (by omega)]

/-- The front of a written block is read back. -/
lemma load_store_take (m : Mem) (a : ℕ) (h : n ≤ bs.length) :
    load (store m a bs) a n = bs.take n := by
  rw [← Nat.min_eq_left h, ← take_load, load_store_same]
  exact (Nat.min_eq_left h).symm ▸ rfl

/-- A write leaves every disjoint block as it was. -/
lemma load_store_disjoint (h : a + n ≤ b ∨ b + bs.length ≤ a) :
    load (store m b bs) a n = load m a n :=
  load_congr fun i hi => store_of_outside (by omega)

/-! ### Words in memory -/

/-- The word of `w` bytes at address `a`. -/
def readLE (m : Mem) (a w : ℕ) : ℕ := ofLE (load m a w)

/-- The memory after the low `w` bytes of `v` are written at address `a`. -/
def writeLE (m : Mem) (a w v : ℕ) : Mem := store m a (toLE w v)

lemma readLE_lt (m : Mem) (a w : ℕ) : readLE m a w < 256 ^ w := by
  simpa [readLE] using ofLE_lt (load m a w)

lemma toNat_ofNat_readLE (m : Mem) (a : ℕ) : (UInt32.ofNat (readLE m a 4)).toNat = readLE m a 4 :=
  UInt32.toNat_ofNat_of_lt' (readLE_lt m a 4)

/-- The written word is read back modulo the word size. -/
lemma readLE_writeLE (m : Mem) (a w v : ℕ) : readLE (writeLE m a w v) a w = v % 256 ^ w := by
  have h := load_store_same m a (toLE w v)
  rw [length_toLE] at h
  rw [readLE, writeLE, h, ofLE_toLE]

lemma readLE_congr {w : ℕ} (h : ∀ i < w, m (a + i) = m' (a + i)) :
    readLE m a w = readLE m' a w := by
  rw [readLE, readLE, load_congr h]

/-- Two memories with the same word at an address have the same bytes there. -/
lemma eq_of_readLE_eq {w : ℕ} (h : readLE m a w = readLE m' a w) :
    ∀ i < w, m (a + i) = m' (a + i) := by
  have hm := toLE_ofLE (load m a w)
  have hm' := toLE_ofLE (load m' a w)
  rw [length_load] at hm hm'
  have hload : load m a w = load m' a w := by
    rw [← hm, ← hm']
    exact congrArg (toLE w) h
  exact eq_of_load_eq hload

/-- A write of bytes leaves every disjoint word as it was. -/
lemma readLE_store_disjoint {w : ℕ} (h : a + w ≤ b ∨ b + bs.length ≤ a) :
    readLE (store m b bs) a w = readLE m a w := by
  rw [readLE, readLE, load_store_disjoint h]

/-- A write of a word leaves every disjoint word as it was. -/
lemma readLE_writeLE_disjoint {w w' v : ℕ} (h : a + w ≤ b ∨ b + w' ≤ a) :
    readLE (writeLE m b w' v) a w = readLE m a w :=
  readLE_store_disjoint (by simpa using h)

/-- A write of a word leaves every disjoint block as it was. -/
lemma load_writeLE_disjoint {w v : ℕ} (h : a + n ≤ b ∨ b + w ≤ a) :
    load (writeLE m b w v) a n = load m a n :=
  load_store_disjoint (by simpa using h)

lemma writeLE_of_outside {w v : ℕ} (h : x < a ∨ a + w ≤ x) : writeLE m a w v x = m x :=
  store_of_outside (by simpa using h)

/-- Two memories with the same block have the same words inside it. -/
lemma readLE_of_load_eq {off w : ℕ} (h : load m a n = load m' b n) (hw : off + w ≤ n) :
    readLE m (a + off) w = readLE m' (b + off) w := by
  have hdrop := congrArg (fun l : List UInt8 => (l.drop off).take w) h
  simp only [drop_load, take_load, show min w (n - off) = w by omega] at hdrop
  rw [readLE, readLE, hdrop]

/-- Two memories with the same block have the same shorter blocks inside it. -/
lemma load_of_load_eq {off : ℕ} (h : load m a n = load m' b n) (hk : off + k ≤ n) :
    load m (a + off) k = load m' (b + off) k := by
  have hdrop := congrArg (fun l : List UInt8 => (l.drop off).take k) h
  simpa only [drop_load, take_load, show min k (n - off) = k by omega] using hdrop

/-! ### 16-bit words -/

/-- The 16-bit word at address `a`. -/
def readU16 (m : Mem) (a : ℕ) : UInt16 := UInt16.ofNat (readLE m a 2)

/-- The memory after a 16-bit word is written at address `a`. -/
def writeU16 (m : Mem) (a : ℕ) (v : UInt16) : Mem := writeLE m a 2 v.toNat

lemma toNat_readU16 (m : Mem) (a : ℕ) : (readU16 m a).toNat = readLE m a 2 :=
  UInt16.toNat_ofNat_of_lt' (readLE_lt m a 2)

lemma readU16_writeU16 (m : Mem) (a : ℕ) (v : UInt16) : readU16 (writeU16 m a v) a = v := by
  have hv := v.toNat_lt
  rw [readU16, writeU16, readLE_writeLE, Nat.mod_eq_of_lt (by omega), UInt16.ofNat_toNat]

lemma readU16_writeU16_disjoint {v : UInt16} (h : a + 2 ≤ b ∨ b + 2 ≤ a) :
    readU16 (writeU16 m b v) a = readU16 m a := by
  rw [readU16, writeU16, readLE_writeLE_disjoint h, readU16]

lemma readU16_of_load_eq (off : ℕ) (h : load m a n = load m' b n) (hw : off + 2 ≤ n) :
    readU16 m (a + off) = readU16 m' (b + off) := by
  rw [readU16, readU16, readLE_of_load_eq h hw]

lemma readU16_store_disjoint (h : a + 2 ≤ b ∨ b + bs.length ≤ a) :
    readU16 (store m b bs) a = readU16 m a := by
  rw [readU16, readLE_store_disjoint h, readU16]

lemma writeU16_of_outside {v : UInt16} (h : x < a ∨ a + 2 ≤ x) : writeU16 m a v x = m x :=
  writeLE_of_outside h

lemma load_writeU16_disjoint {v : UInt16} (h : a + n ≤ b ∨ b + 2 ≤ a) :
    load (writeU16 m b v) a n = load m a n :=
  load_writeLE_disjoint h

/-! ### Sequences of writes -/

/-- The memory after a sequence of writes, each an address with its bytes. -/
def storeAll (m : Mem) : List (ℕ × List UInt8) → Mem
  | [] => m
  | w :: ws => storeAll (store m w.1 w.2) ws

lemma storeAll_append (m : Mem) (ws vs : List (ℕ × List UInt8)) :
    storeAll m (ws ++ vs) = storeAll (storeAll m ws) vs := by
  induction ws generalizing m with
  | nil => rfl
  | cons w ws ih => exact ih _

/-- The write `w` covers the address `x`. -/
def Covers (w : ℕ × List UInt8) (x : ℕ) : Prop := w.1 ≤ x ∧ x < w.1 + w.2.length

/-- Writes that do not cover an address leave it as it was. -/
lemma storeAll_of_outside {ws : List (ℕ × List UInt8)} (h : ∀ w ∈ ws, ¬ Covers w x) :
    storeAll m ws x = m x := by
  induction ws generalizing m with
  | nil => rfl
  | cons w ws ih =>
      have hw := h w List.mem_cons_self
      rw [Covers] at hw
      rw [storeAll, ih fun v hv => h v (List.mem_cons_of_mem w hv), store_of_outside (by omega)]

/-- An address that only the `j`-th write covers holds the old byte up to that
write and the new byte from it on. -/
lemma storeAll_take_of_covers {ws : List (ℕ × List UInt8)} {w : ℕ × List UInt8} {j i : ℕ}
    (hj : ws[j]? = some w) (hi : i < w.2.length)
    (honly : ∀ l v, ws[l]? = some v → l ≠ j → ¬ Covers v (w.1 + i)) (k : ℕ) :
    storeAll m (ws.take k) (w.1 + i) = if j < k then w.2[i] else m (w.1 + i) := by
  induction ws generalizing m j k with
  | nil => simp at hj
  | cons v ws ih =>
      cases k with
      | zero => rfl
      | succ k =>
          cases j with
          | zero =>
              obtain rfl : v = w := by simpa using hj
              have hrest : ∀ u ∈ ws.take k, ¬ Covers u (v.1 + i) := by
                intro u hu
                obtain ⟨l, hl⟩ := List.getElem?_of_mem (List.mem_of_mem_take hu)
                exact honly (l + 1) u (by simpa using hl) (by omega)
              rw [List.take_succ_cons, storeAll, storeAll_of_outside hrest, store_of_inside i hi,
                if_pos (by omega)]
          | succ j =>
              have hv := honly 0 v rfl (by omega)
              rw [Covers] at hv
              have htail := ih (m := store m v.1 v.2) (j := j) (by simpa using hj)
                (fun l u hl hne => honly (l + 1) u (by simpa using hl) (by omega)) k
              rw [List.take_succ_cons, storeAll, htail, store_of_outside (by omega)]
              simp

/-- A sequence of writes to ever higher, disjoint ranges. -/
def Ascending (ws : List (ℕ × List UInt8)) : Prop :=
  ws.Pairwise fun v w => v.1 + v.2.length ≤ w.1

/-- In an ascending sequence a range holds its old bytes up to the write that
covers it and the new bytes from that write on. -/
lemma load_storeAll_take {ws : List (ℕ × List UInt8)} (hasc : Ascending ws)
    {w : ℕ × List UInt8} {j : ℕ} (hj : ws[j]? = some w) (k : ℕ) :
    load (storeAll m (ws.take k)) w.1 w.2.length =
      if j < k then w.2 else load m w.1 w.2.length := by
  have hrel := List.pairwise_iff_getElem.mp hasc
  have honly : ∀ i < w.2.length, ∀ l v, ws[l]? = some v → l ≠ j → ¬ Covers v (w.1 + i) := by
    intro i hi l v hl hne hcov
    obtain ⟨hlt, rfl⟩ := List.getElem?_eq_some_iff.mp hl
    obtain ⟨hjt, rfl⟩ := List.getElem?_eq_some_iff.mp hj
    rw [Covers] at hcov
    rcases Nat.lt_or_gt_of_ne hne with hlj | hlj
    · have := hrel l j hlt hjt hlj
      omega
    · have := hrel j l hjt hlt hlj
      omega
  apply List.ext_getElem?
  intro i
  by_cases hi : i < w.2.length
  · rw [getElem?_load, if_pos hi, storeAll_take_of_covers hj hi (honly i hi) k]
    by_cases hk : j < k
    · rw [if_pos hk, if_pos hk, List.getElem?_eq_getElem hi]
    · rw [if_neg hk, if_neg hk, getElem?_load, if_pos hi]
  · rw [List.getElem?_eq_none (by simpa using hi)]
    split
    · rw [List.getElem?_eq_none (by omega)]
    · rw [List.getElem?_eq_none (by simpa using hi)]

end ByteMem
