import Sel4Test.Hyperamp.QueueSpec

/-!
The queue on little-endian words, with the buffers of the caller in the same memory.

Three source files contain the queue, each with functions of its own. Their statements work on
bytes. This module has what the translations of all three are compared with:

* **Bytes.** A loop that reads or writes byte after byte reads or writes a word, and a loop that
  copies bytes copies a block when the two do not overlap.
* **Words.** `Words.enqueue`, `Words.dequeue`, `Words.init`, `Words.isInitialized`: the functions
  with words in place of the loops, and with the return codes as numbers.
* **Refinement.** `Words.enqueue_refines`, `Words.dequeue_refines`, `Words.init_refines`,
  `Words.isInitialized_refines`: what they do is what the model of the queue says, for buffers
  outside of the queue.
-/

namespace Hyperamp

open ByteMem
open Function (update)

/-! ### Bytes -/

/-- A copy from the first byte to the last. -/
def copyBytes (m : Mem) (dst src len : ℕ) : Mem :=
  (List.range len).foldl (fun m i => update m (dst + i) (m (src + i))) m

variable {m m' : Mem}

lemma load_snoc (m : Mem) (a n : ℕ) : load m a (n + 1) = load m a n ++ [m (a + n)] := by
  rw [load, List.range_succ, List.map_append]
  rfl

lemma store_snoc (m : Mem) (a : ℕ) (bs : List UInt8) (b : UInt8) :
    store m a (bs ++ [b]) = update (store m a bs) (a + bs.length) b := by
  funext x
  rw [Function.update_apply]
  split_ifs with hx
  · subst hx
    have hlt : bs.length < (bs ++ [b]).length := by simp
    rw [store_of_inside bs.length hlt, List.getElem_append_right le_rfl]
    simp
  · simp only [store]
    split_ifs with hle
    · rw [List.getElem?_append]
      split_ifs with hlt
      · rfl
      · rw [List.getElem?_eq_none (by omega : bs.length ≤ x - a), List.getElem?_eq_none]
        rw [List.length_singleton]
        omega
    · rfl

lemma ofLE_snoc (bs : List UInt8) (b : UInt8) :
    ofLE (bs ++ [b]) = ofLE bs + 256 ^ bs.length * b.toNat := by
  induction bs with
  | nil => simp [ofLE]
  | cons x xs ih =>
      rw [List.cons_append, ofLE, ofLE, ih, List.length_cons, pow_succ]
      ring

lemma toLE_snoc (n v : ℕ) : toLE (n + 1) v = toLE n v ++ [UInt8.ofNat (v / 256 ^ n)] := by
  induction n generalizing v with
  | zero => simp [toLE]
  | succ n ih =>
      rw [toLE, ih, toLE, List.cons_append, Nat.div_div_eq_div_mul, pow_succ']

/-- The last round of a loop. -/
lemma foldl_range_succ {α : Type} (f : α → ℕ → α) (x : α) (n : ℕ) :
    (List.range (n + 1)).foldl f x = f ((List.range n).foldl f x) n := by
  rw [List.range_succ, List.foldl_append]
  rfl

/-- The loop `val |= p[i] << (i * 8)` reads a word. -/
lemma readBytes_eq (m : Mem) (a n : ℕ) :
    (List.range n).foldl (fun val i => val ||| (m (a + i)).toNat <<< (i * 8)) 0 = readLE m a n := by
  induction n with
  | zero => rfl
  | succ n ih =>
      have hpow : (256 : ℕ) ^ n = 2 ^ (n * 8) := by rw [mul_comm, pow_mul]; norm_num
      have hlt : readLE m a n < 2 ^ (n * 8) := hpow ▸ readLE_lt m a n
      rw [foldl_range_succ, ih, Nat.or_comm, ← Nat.shiftLeft_add_eq_or_of_lt hlt, Nat.shiftLeft_eq]
      rw [readLE, readLE, load_snoc, ofLE_snoc, length_load, hpow]
      ring

lemma byte_shift (v i : ℕ) :
    UInt8.ofNat (v >>> (i * 8) &&& 0xFF) = UInt8.ofNat (v / 256 ^ i) := by
  apply UInt8.toNat_inj.mp
  rw [Nat.shiftRight_eq_div_pow, mul_comm, pow_mul, show (0xFF : ℕ) = 2 ^ 8 - 1 by norm_num,
    Nat.and_two_pow_sub_one_eq_mod]
  simp

/-- The loop `p[i] = (v >> (i * 8)) & 0xFF` writes a word. -/
lemma writeBytes_eq (m : Mem) (a v n : ℕ) :
    (List.range n).foldl (fun m i => update m (a + i) (UInt8.ofNat (v >>> (i * 8) &&& 0xFF))) m =
      writeLE m a n v := by
  induction n with
  | zero => simp [writeLE, toLE]
  | succ n ih =>
      rw [foldl_range_succ, ih, byte_shift, writeLE, writeLE, toLE_snoc, store_snoc, length_toLE]

/-- The loop `p[i] = 0` writes a word. -/
lemma zeroBytes_eq (m : Mem) (a n : ℕ) :
    (List.range n).foldl (fun m i => update m (a + i) 0) m = writeLE m a n 0 := by
  rw [← writeBytes_eq]
  simp

/-- One byte. -/
lemma update_singleton (m : Mem) (a : ℕ) (x : UInt8) : update m a x = store m a [x] := by
  rw [← List.nil_append [x], store_snoc]
  simp

/-- Two bytes, one after the other. -/
lemma update_pair {a b : ℕ} (hb : b = a + 1) (x y : UInt8) :
    update (update m a x) b y = store m a [x, y] := by
  subst hb
  have hsnoc := store_snoc m a [x] y
  rw [← update_singleton] at hsnoc
  exact hsnoc.symm

/-- The bytes `v & 0xFF` and `(v >> 8) & 0xFF` are a word. -/
lemma update_word {a b : ℕ} (hb : b = a + 1) (v : ℕ) :
    update (update m a (UInt8.ofNat (v &&& 0xFF))) b (UInt8.ofNat (v >>> 8 &&& 0xFF)) =
      writeLE m a 2 v := by
  have hlow := byte_shift v 0
  have hhigh := byte_shift v 1
  rw [Nat.zero_mul, Nat.shiftRight_zero, pow_zero, Nat.div_one] at hlow
  rw [one_mul, pow_one] at hhigh
  rw [update_pair hb, hlow, hhigh]
  rfl

/-- A counter that wraps is the word that is written. -/
lemma writeLE_mod (m : Mem) (a v : ℕ) : writeLE m a 4 (v % 2 ^ 32) = writeLE m a 4 v := by
  have hbytes : toLE 4 (v % 2 ^ 32) = toLE 4 v := by
    simp only [toLE, Nat.div_div_eq_div_mul]
    congr 1
    · apply UInt8.toNat_inj.mp
      simp only [UInt8.toNat_ofNat']
      omega
    congr 1
    · apply UInt8.toNat_inj.mp
      simp only [UInt8.toNat_ofNat']
      omega
    congr 1
    · apply UInt8.toNat_inj.mp
      simp only [UInt8.toNat_ofNat']
      omega
    congr 1
    apply UInt8.toNat_inj.mp
    simp only [UInt8.toNat_ofNat']
    omega
  rw [writeLE, hbytes, writeLE]

/-- Copying between places that do not overlap. -/
lemma copyBytes_eq (m : Mem) {dst src n : ℕ} (h : dst + n ≤ src ∨ src + n ≤ dst) :
    copyBytes m dst src n = store m dst (load m src n) := by
  have hcopy : ∀ k ≤ n, copyBytes m dst src k = store m dst (load m src k) := by
    intro k hk
    induction k with
    | zero => simp [copyBytes, load]
    | succ k ih =>
        have hround : copyBytes m dst src (k + 1) =
            update (copyBytes m dst src k) (dst + k) (copyBytes m dst src k (src + k)) :=
          foldl_range_succ ..
        rw [hround, ih (by omega), load_snoc, store_snoc, length_load,
          store_of_outside (by rw [length_load]; omega)]
  exact hcopy n le_rfl

/-! ### Packed structures -/

/-- `offsetof` in a packed structure: the sizes of the fields before the field. -/
def packedOffset {α : Type} [DecidableEq α] (fields : List (α × ℕ)) (field : α) : ℕ :=
  ((fields.takeWhile fun f => f.1 ≠ field).map Prod.snd).sum

/-- `sizeof` of a packed structure. -/
def packedSize {α : Type} (fields : List (α × ℕ)) : ℕ := (fields.map Prod.snd).sum

/-- The names of the fields of `HyperampSpinlock`. -/
inductive SpinlockField
  | lockValue
  | ownerZoneId
  | lockCount
  | contentionCount
  deriving DecidableEq, Repr

/-- The names of the fields of `HyperampMapTableEntry`. -/
inductive MapTableField
  | virtAddr
  | phyAddr
  deriving DecidableEq, Repr

/-- The names of the fields of `HyperampShmQueue`. -/
inductive QueueField
  | mapMode1
  | mapMode2
  | header
  | tail
  | capacity
  | blockSize
  | reserved
  | phyAddr
  | virtAddr1
  | virtAddr2
  | table1
  | table2
  | queueLock
  | magic
  | version
  | enqueueCount
  | dequeueCount
  deriving DecidableEq, Repr

/-- The offsets of the fields of the queue that its functions use, in the model. -/
structure Layout (offsetof : QueueField → ℕ) : Prop where
  header : offsetof .header = 2
  tail : offsetof .tail = 4
  capacity : offsetof .capacity = 6
  blockSize : offsetof .blockSize = 8
  virtAddr2 : offsetof .virtAddr2 = 28
  queueLock : offsetof .queueLock = 4036
  magic : offsetof .magic = 4052
  enqueueCount : offsetof .enqueueCount = 4060
  dequeueCount : offsetof .dequeueCount = 4064

/-! ### The functions on words -/

/-- The value of a return code. -/
def HyperampRet.code : HyperampRet → ℤ
  | .ok => 0
  | .error => -1
  | .again => 1

namespace Words

/-- `hyperamp_queue_is_initialized`. -/
def isInitialized (m : Mem) (queue : ℕ) : ℤ :=
  if queue = 0 then 0 else if 0 < capacity m queue then 1 else 0

/-- The part of `hyperamp_queue_enqueue` that runs under the lock. -/
def enqueueLocked (m : Mem) (queue data dataLen virtBase capacity blockSize : ℕ) : ℤ × Mem :=
  let newHeader := nextIndex capacity (header m queue)
  if newHeader = tail m queue then (1, m)
  else
    let m := copyBytes m (slotAddr virtBase (header m queue) blockSize) data dataLen
    let m := writeLE m (queue + 2) 2 newHeader
    (0, writeLE m (queue + 4060) 4 (enqueueCount m queue + 1))

/-- `hyperamp_queue_enqueue`; `data` is an address. -/
def enqueue (m : Mem) (queue zoneId data dataLen virtBase : ℕ) : Option (ℤ × Mem) :=
  if queue = 0 ∨ data = 0 ∨ dataLen = 0 then some (-1, m)
  else if blockSize m queue < dataLen then some (-1, m)
  else do
    let locked ← hyperampSpinlockLock m (queueLock queue) zoneId
    let r := enqueueLocked locked queue data dataLen virtBase (capacity m queue) (blockSize m queue)
    return (r.1, hyperampSpinlockUnlock r.2 (queueLock queue))

/-- The part of `hyperamp_queue_dequeue` that runs under the lock. -/
def dequeueLocked (m : Mem) (queue data maxLen actualLen virtBase : ℕ) : ℤ × Mem :=
  let tail := tail m queue
  let blockSize := blockSize m queue
  let capacity := capacity m queue
  if tail = header m queue then (1, m)
  else
    let readLen := if maxLen < blockSize then maxLen else blockSize
    let m := copyBytes m data (slotAddr virtBase tail blockSize) readLen
    let m := if actualLen = 0 then m else writeLE m actualLen 8 readLen
    let m := writeLE m (queue + 4) 2 (nextIndex capacity tail)
    (0, writeLE m (queue + 4064) 4 (dequeueCount m queue + 1))

/-- `hyperamp_queue_dequeue`; `data` and `actualLen` are addresses, `0` for null. -/
def dequeue (m : Mem) (queue zoneId data maxLen actualLen virtBase : ℕ) : Option (ℤ × Mem) :=
  if queue = 0 ∨ data = 0 ∨ maxLen = 0 then some (-1, m)
  else do
    let locked ← hyperampSpinlockLock m (queueLock queue) zoneId
    let r := dequeueLocked locked queue data maxLen actualLen virtBase
    return (r.1, hyperampSpinlockUnlock r.2 (queueLock queue))

/-- The stores of the creator, word by word. -/
def create (m : Mem) (queue : ℕ) (config : HyperampQueueConfig) : Mem :=
  let m := store m queue [config.mapMode.toUInt8, config.mapMode.toUInt8]
  let m := writeLE m (queue + 2) 2 0
  let m := writeLE m (queue + 4) 2 0
  let m := writeLE m (queue + 6) 2 config.capacity.toNat
  let m := writeLE m (queue + 8) 2 config.blockSize.toNat
  let m := writeLE m (queue + 10) 2 0
  let m := writeLE m (queue + 12) 8 config.phyAddr.toNat
  let m := writeLE m (queue + 20) 8 config.virtAddr.toNat
  let m := writeLE m (queue + 28) 8 0
  let m := writeLE m (queue + 4036) 4 0
  let m := writeLE m (queue + 4040) 4 0
  let m := writeLE m (queue + 4044) 4 0
  let m := writeLE m (queue + 4048) 4 0
  let m := writeLE m (queue + 4052) 4 hyperampQueueMagic
  let m := writeLE m (queue + 4056) 4 1
  let m := writeLE m (queue + 4060) 4 0
  writeLE m (queue + 4064) 4 0

/-- `hyperamp_queue_init`. -/
def init (m : Mem) (queue : ℕ) (config : Option HyperampQueueConfig) (isCreator : Bool) : ℤ × Mem :=
  config.elim (-1, m) fun config =>
    if queue = 0 then (-1, m)
    else if config.blockSize = 0 ∨ config.capacity = 0 then (-1, m)
    else if isCreator then (0, create m queue config)
    else (0, writeLE m (queue + 28) 8 config.virtAddr.toNat)

end Words

/-- `enqueue`, with the lock released in both branches. -/
lemma Words.enqueue_branches (m : Mem) (queue zoneId data dataLen virtBase : ℕ) :
    Words.enqueue m queue zoneId data dataLen virtBase =
      if queue = 0 ∨ data = 0 ∨ dataLen = 0 then some (-1, m)
      else if blockSize m queue < dataLen then some (-1, m)
      else (hyperampSpinlockLock m (queueLock queue) zoneId).bind fun locked =>
        if nextIndex (capacity m queue) (header locked queue) = tail locked queue then
          some (1, hyperampSpinlockUnlock locked (queueLock queue))
        else
          let m' := copyBytes locked (slotAddr virtBase (header locked queue) (blockSize m queue))
            data dataLen
          let m' := writeLE m' (queue + 2) 2 (nextIndex (capacity m queue) (header locked queue))
          some (0, hyperampSpinlockUnlock
            (writeLE m' (queue + 4060) 4 (enqueueCount m' queue + 1)) (queueLock queue)) := by
  refine if_congr Iff.rfl rfl (if_congr Iff.rfl rfl ?_)
  congr 1
  funext locked
  simp only [Words.enqueueLocked]
  split_ifs <;> rfl

/-- `dequeue`, with the lock released in both branches. -/
lemma Words.dequeue_branches (m : Mem) (queue zoneId data maxLen actualLen virtBase : ℕ) :
    Words.dequeue m queue zoneId data maxLen actualLen virtBase =
      if queue = 0 ∨ data = 0 ∨ maxLen = 0 then some (-1, m)
      else (hyperampSpinlockLock m (queueLock queue) zoneId).bind fun locked =>
        if tail locked queue = header locked queue then
          some (1, hyperampSpinlockUnlock locked (queueLock queue))
        else
          let readLen := if maxLen < blockSize locked queue then maxLen else blockSize locked queue
          let m' := copyBytes locked data
            (slotAddr virtBase (tail locked queue) (blockSize locked queue)) readLen
          let m' := if actualLen = 0 then m' else writeLE m' actualLen 8 readLen
          let m' := writeLE m' (queue + 4) 2 (nextIndex (capacity locked queue) (tail locked queue))
          some (0, hyperampSpinlockUnlock
            (writeLE m' (queue + 4064) 4 (dequeueCount m' queue + 1)) (queueLock queue)) := by
  refine if_congr Iff.rfl rfl ?_
  congr 1
  funext locked
  by_cases hempty : tail locked queue = header locked queue
  · simp only [Words.dequeueLocked, if_pos hempty]
    rfl
  · simp only [Words.dequeueLocked, if_neg hempty]
    rfl

/-! ### The model of the queue -/

variable {q zone virtBase : ℕ}

/-- Taking the lock changes three words. -/
lemma locked_of_lock (h : hyperampSpinlockLock m (queueLock q) zone = some m') :
    m' = lockedMem m (queueLock q) zone := by
  rw [hyperampSpinlockLock, if_neg (queueLock_ne_zero q)] at h
  split_ifs at h with hfree
  exact (Option.some.inj h).symm

lemma readLE_locked {off w : ℕ} (h : off + w ≤ 4036 ∨ 4048 ≤ off) :
    readLE (lockedMem m (queueLock q) zone) (q + off) w = readLE m (q + off) w :=
  readLE_congr fun i hi => lockedMem_of_outside zone (by omega)

/-- The part under the lock, with the source outside of the slot that is written. -/
lemma Words.enqueueLocked_refines {data dataLen cap block : ℕ}
    (hslot : data + dataLen ≤ slotAddr virtBase (header m q) block ∨
      slotAddr virtBase (header m q) block + dataLen ≤ data) :
    Words.enqueueLocked m q data dataLen virtBase cap block =
      (HyperampRet.code (Hyperamp.enqueueLocked m q (load m data dataLen) virtBase cap block).1,
        (Hyperamp.enqueueLocked m q (load m data dataLen) virtBase cap block).2) := by
  simp only [Words.enqueueLocked, Hyperamp.enqueueLocked]
  by_cases hfull : nextIndex cap (header m q) = tail m q
  · rw [if_pos hfull, if_pos hfull]
    rfl
  · rw [if_neg hfull, if_neg hfull, copyBytes_eq m hslot.symm]
    rfl

/-- **Enqueue**: with the source outside of the lock and of the slot that is written. -/
theorem Words.enqueue_refines (zone : ℕ) {data dataLen : ℕ}
    (hlock : data + dataLen ≤ q + 4036 ∨ q + 4048 ≤ data)
    (hslot : data + dataLen ≤ slotAddr virtBase (header m q) (blockSize m q) ∨
      slotAddr virtBase (header m q) (blockSize m q) + dataLen ≤ data) :
    Words.enqueue m q zone data dataLen virtBase =
      (hyperampQueueEnqueue m q zone (if data = 0 then none else some (load m data dataLen))
        virtBase).map fun r => (HyperampRet.code r.1, r.2) := by
  by_cases hnull : q = 0 ∨ data = 0 ∨ dataLen = 0
  · rw [Words.enqueue, if_pos hnull]
    split_ifs with hdata
    · rfl
    · simp only [hyperampQueueEnqueue, length_load]
      rw [if_pos (by omega)]
      rfl
  · have hdata : data ≠ 0 := fun h => hnull (.inr (.inl h))
    have hvalid : ¬ (q = 0 ∨ dataLen = 0) := by omega
    simp only [Words.enqueue, if_neg hnull, if_neg hdata, hyperampQueueEnqueue, length_load,
      if_neg hvalid]
    by_cases hlen : blockSize m q < dataLen
    · rw [if_pos hlen, if_pos hlen]
      rfl
    · rw [if_neg hlen, if_neg hlen]
      cases hm : hyperampSpinlockLock m (queueLock q) zone with
      | none => rfl
      | some m₁ =>
          obtain rfl := locked_of_lock hm
          have hhead : header (lockedMem m (queueLock q) zone) q = header m q :=
            readLE_locked (by omega)
          have hsrc : load (lockedMem m (queueLock q) zone) data dataLen = load m data dataLen :=
            load_congr fun i hi => lockedMem_of_outside zone (by omega)
          simp only [Option.bind_eq_bind, Option.bind_some]
          rw [Words.enqueueLocked_refines (by rw [hhead]; exact hslot), hsrc]
          rfl

/-- Writes to places that do not overlap commute. -/
lemma store_comm {a b : ℕ} {xs ys : List UInt8} (h : a + xs.length ≤ b ∨ b + ys.length ≤ a) :
    store (store m a xs) b ys = store (store m b ys) a xs := by
  funext x
  by_cases hx : a ≤ x ∧ x < a + xs.length
  · obtain ⟨i, rfl⟩ : ∃ i, x = a + i := ⟨x - a, by omega⟩
    rw [store_of_outside (by omega), store_of_inside i (by omega), store_of_inside i (by omega)]
  · rw [store_of_outside (a := a) (by omega)]
    by_cases hy : b ≤ x ∧ x < b + ys.length
    · obtain ⟨i, rfl⟩ : ∃ i, x = b + i := ⟨x - b, by omega⟩
      rw [store_of_inside i (by omega), store_of_inside i (by omega)]
    · rw [store_of_outside (by omega), store_of_outside (by omega), store_of_outside (by omega)]

/-- The bytes that a dequeue copies out are put at `data`, and their number at `actualLen`
unless that is null. -/
def writeOut (data actualLen : ℕ) (bytes : List UInt8) (m : Mem) : Mem :=
  let m := store m data bytes
  if actualLen = 0 then m else writeLE m actualLen 8 bytes.length

/-- The buffers of a dequeue of at most `n` bytes lie outside of the control block. -/
def BuffersClear (q data actualLen n : ℕ) : Prop :=
  (data + n ≤ q ∨ q + queueSize ≤ data) ∧
    (actualLen = 0 ∨ actualLen + 8 ≤ q ∨ q + queueSize ≤ actualLen)

section Buffers

variable {data actualLen off w : ℕ} {bytes : List UInt8}

lemma writeOut_writeLE (h : BuffersClear q data actualLen bytes.length) (hoff : off + w ≤ queueSize)
    (v : ℕ) :
    writeLE (writeOut data actualLen bytes m) (q + off) w v =
      writeOut data actualLen bytes (writeLE m (q + off) w v) := by
  obtain ⟨hdata, hactual⟩ := h
  simp only [writeOut]
  split_ifs with hnull
  · rw [writeLE, store_comm (by rw [length_toLE]; omega), writeLE]
  · rw [writeLE, writeLE, store_comm (by rw [length_toLE, length_toLE]; omega), writeLE, writeLE,
      store_comm (b := q + off) (by rw [length_toLE]; omega)]

lemma readLE_writeOut (h : BuffersClear q data actualLen bytes.length) (hoff : off + w ≤ queueSize) :
    readLE (writeOut data actualLen bytes m) (q + off) w = readLE m (q + off) w := by
  obtain ⟨hdata, hactual⟩ := h
  simp only [writeOut]
  split_ifs with hnull
  · rw [readLE_store_disjoint (by omega)]
  · rw [readLE_writeLE_disjoint (by omega), readLE_store_disjoint (by omega)]

lemma unlock_writeOut (h : BuffersClear q data actualLen bytes.length) :
    hyperampSpinlockUnlock (writeOut data actualLen bytes m) (queueLock q) =
      writeOut data actualLen bytes (hyperampSpinlockUnlock m (queueLock q)) := by
  have hsize : queueSize = 4068 := rfl
  rw [hyperampSpinlockUnlock, hyperampSpinlockUnlock, if_neg (queueLock_ne_zero q),
    if_neg (queueLock_ne_zero q), queueLock, Nat.add_assoc, writeOut_writeLE h (by omega),
    writeOut_writeLE h (by omega)]

end Buffers

/-- What the caller of a dequeue finds: the bytes in its buffer when there are any. -/
def delivered (data actualLen : ℕ) (r : HyperampRet × List UInt8 × Mem) : Mem :=
  if r.1 = .ok then writeOut data actualLen r.2.1 r.2.2 else r.2.2

/-- The part under the lock, with the destination outside of the slot that is read. -/
lemma Words.dequeueLocked_refines {data maxLen actualLen : ℕ}
    (hclear : BuffersClear q data actualLen (min maxLen (blockSize m q)))
    (hslot : data + min maxLen (blockSize m q) ≤ slotAddr virtBase (tail m q) (blockSize m q) ∨
      slotAddr virtBase (tail m q) (blockSize m q) + min maxLen (blockSize m q) ≤ data) :
    Words.dequeueLocked m q data maxLen actualLen virtBase =
      (HyperampRet.code (Hyperamp.dequeueLocked m q maxLen virtBase).1,
        delivered data actualLen (Hyperamp.dequeueLocked m q maxLen virtBase)) := by
  have hsize : queueSize = 4068 := rfl
  have hlen : (if maxLen < blockSize m q then maxLen else blockSize m q) =
      min maxLen (blockSize m q) := by
    split_ifs <;> omega
  simp only [Words.dequeueLocked, Hyperamp.dequeueLocked, hlen]
  by_cases hempty : tail m q = header m q
  · rw [if_pos hempty, if_pos hempty]
    rfl
  · rw [if_neg hempty, if_neg hempty, copyBytes_eq m hslot]
    set bytes := load m (slotAddr virtBase (tail m q) (blockSize m q))
      (min maxLen (blockSize m q)) with hbytes
    have hbytesLen : bytes.length = min maxLen (blockSize m q) := length_load _ _ _
    have hout : (if actualLen = 0 then store m data bytes
        else writeLE (store m data bytes) actualLen 8 (min maxLen (blockSize m q))) =
          writeOut data actualLen bytes m := by
      rw [writeOut, hbytesLen]
    rw [← hbytesLen] at hclear
    have hcount : ∀ m, dequeueCount (writeOut data actualLen bytes m) q = dequeueCount m q :=
      fun _ => readLE_writeOut hclear (by omega)
    rw [hout, writeOut_writeLE hclear (by omega), hcount, writeOut_writeLE hclear (by omega)]
    rfl

/-- The number of bytes that are copied out. -/
lemma length_dequeueLocked {maxLen : ℕ} (h : (Hyperamp.dequeueLocked m q maxLen virtBase).1 = .ok) :
    (Hyperamp.dequeueLocked m q maxLen virtBase).2.1.length = min maxLen (blockSize m q) := by
  simp only [dequeueLocked] at h ⊢
  by_cases hempty : tail m q = header m q
  · rw [if_pos hempty] at h
    cases h
  · rw [if_neg hempty, length_load]
    split_ifs <;> omega

/-- **Dequeue**: with the buffers outside of the control block and of the slot that is
read. -/
theorem Words.dequeue_refines (zone : ℕ) {data maxLen actualLen : ℕ}
    (hclear : BuffersClear q data actualLen (min maxLen (blockSize m q)))
    (hslot : data + min maxLen (blockSize m q) ≤ slotAddr virtBase (tail m q) (blockSize m q) ∨
      slotAddr virtBase (tail m q) (blockSize m q) + min maxLen (blockSize m q) ≤ data) :
    Words.dequeue m q zone data maxLen actualLen virtBase =
      (hyperampQueueDequeue m q zone (data ≠ 0) maxLen virtBase).map fun r =>
        (HyperampRet.code r.1, delivered data actualLen r) := by
  by_cases hnull : q = 0 ∨ data = 0 ∨ maxLen = 0
  · have hspec : q = 0 ∨ decide (data ≠ 0) = false ∨ maxLen = 0 := by simpa using hnull
    rw [Words.dequeue, if_pos hnull, hyperampQueueDequeue, if_pos hspec]
    rfl
  · have hspec : ¬ (q = 0 ∨ decide (data ≠ 0) = false ∨ maxLen = 0) := by simpa using hnull
    simp only [Words.dequeue, if_neg hnull, hyperampQueueDequeue, if_neg hspec]
    cases hm : hyperampSpinlockLock m (queueLock q) zone with
    | none => rfl
    | some m₁ =>
        obtain rfl := locked_of_lock hm
        have htail : tail (lockedMem m (queueLock q) zone) q = tail m q := readLE_locked (by omega)
        have hblock : blockSize (lockedMem m (queueLock q) zone) q = blockSize m q :=
          readLE_locked (by omega)
        simp only [Option.bind_eq_bind, Option.bind_some]
        rw [Words.dequeueLocked_refines (by rw [hblock]; exact hclear)
          (by rw [hblock, htail]; exact hslot)]
        set r := Hyperamp.dequeueLocked (lockedMem m (queueLock q) zone) q maxLen virtBase with hr
        have hbytes : r.1 = .ok → r.2.1.length = min maxLen (blockSize m q) := by
          intro hok
          rw [← hblock]
          exact length_dequeueLocked hok
        simp only [Option.pure_def, Option.map_some, Option.some.injEq, Prod.mk.injEq, true_and]
        by_cases hok : r.1 = .ok
        · rw [delivered, if_pos hok, delivered, if_pos hok, unlock_writeOut (hbytes hok ▸ hclear)]
        · rw [delivered, if_neg hok, delivered, if_neg hok]

/-- The byte stores of a block are the store of the block. -/
lemma storeAll_byteStores (off : ℕ) (bytes : List UInt8) :
    storeAll m ((byteStores off bytes).map fun w => (q + w.1, w.2)) = store m (q + off) bytes := by
  induction bytes using List.reverseRecOn with
  | nil => simp [byteStores, storeAll]
  | append_singleton bytes b ih =>
      have hlast : storeAll (storeAll m ((byteStores off bytes).map fun w => (q + w.1, w.2)))
          [(q + (off + bytes.length), [b])] = store m (q + off) (bytes ++ [b]) := by
        rw [ih, store_snoc, storeAll, storeAll, ← update_singleton, Nat.add_assoc]
      rw [byteStores, List.zipIdx_append, List.map_append, List.map_append, storeAll_append,
        ← hlast, byteStores]
      simp

/-- The stores of the creator are those of the model. -/
lemma Words.create_eq (config : HyperampQueueConfig) :
    Words.create m q config = initUpTo m q config (initStores config).length := by
  have hzero : toLE 2 0 = [0, 0] := rfl
  rw [initUpTo, List.take_length, initStores]
  simp only [List.map_append, storeAll_append, storeAll_byteStores, List.map_cons, List.map_nil,
    storeAll, Words.create, writeLE, hzero, Nat.add_zero]

/-- **Initialisation**. -/
theorem Words.init_refines (config : Option HyperampQueueConfig) (isCreator : Bool) :
    Words.init m q config isCreator =
      ((hyperampQueueInit m q config isCreator).1.code,
        (hyperampQueueInit m q config isCreator).2) := by
  cases config with
  | none => rfl
  | some config =>
      simp only [Words.init, Option.elim_some, hyperampQueueInit, Words.create_eq]
      by_cases hq : q = 0
      · rw [if_pos hq, if_pos (.inl hq)]
        rfl
      · by_cases hconf : config.blockSize = 0 ∨ config.capacity = 0
        · rw [if_neg hq, if_pos hconf, if_pos (.inr hconf)]
          rfl
        · have hall : ¬ (q = 0 ∨ config.blockSize = 0 ∨ config.capacity = 0) :=
            fun h => h.elim hq hconf
          rw [if_neg hq, if_neg hconf, if_neg hall]
          cases isCreator with
          | true => simp only [reduceIte, HyperampRet.code]
          | false => simp only [Bool.false_eq_true, if_false, HyperampRet.code]

/-- **The test of initialisation**. -/
theorem Words.isInitialized_refines :
    Words.isInitialized m q = if hyperampQueueIsInitialized m q then 1 else 0 := by
  simp only [Words.isInitialized, hyperampQueueIsInitialized]
  by_cases hq : q = 0
  · simp [hq]
  · simp [hq]

end Hyperamp
