import Sel4Test.Hyperamp.Queue
import Sel4Test.Lib.Ring

/-!
What one queue operation does.

The fields of a control block are gathered in a record `Ctrl`, and every
operation is specified by what it does to that record and by which bytes
outside it change.

* `hyperampQueueEnqueue_again`, `hyperampQueueEnqueue_ok`: the two results of an
  enqueue with valid arguments, by whether the ring is full.
* `hyperampQueueDequeue_again`, `hyperampQueueDequeue_ok`: the two results of a
  dequeue with valid arguments, by whether the ring is empty.
* `ctrl_initUpTo`: the control block after all stores of the creator.

The results about runs use these and never unfold an operation.
-/

namespace Hyperamp

open ByteMem

/-! ### The control block as a record -/

/-- The fields of a control block that a queue operation reads or writes. -/
@[ext]
structure Ctrl where
  header : ℕ
  tail : ℕ
  capacity : ℕ
  blockSize : ℕ
  lockValue : ℕ
  ownerZoneId : ℕ
  lockCount : ℕ
  contentionCount : ℕ
  enqueueCount : ℕ
  dequeueCount : ℕ
  deriving DecidableEq

/-- The control block at an address. -/
def ctrl (m : Mem) (queue : ℕ) : Ctrl where
  header := header m queue
  tail := tail m queue
  capacity := capacity m queue
  blockSize := blockSize m queue
  lockValue := lockValue m (queueLock queue)
  ownerZoneId := ownerZoneId m (queueLock queue)
  lockCount := lockCount m (queueLock queue)
  contentionCount := contentionCount m (queueLock queue)
  enqueueCount := enqueueCount m queue
  dequeueCount := dequeueCount m queue

/-- The control block after one more round of lock and unlock. -/
def Ctrl.released (c : Ctrl) : Ctrl :=
  { c with lockValue := 0, ownerZoneId := 0, lockCount := (c.lockCount + 1) % 2 ^ 32 }

variable {m m' : Mem} {q maxLen : ℕ} {data : List UInt8} (zone virtBase : ℕ)

/-- The control block only depends on its own bytes. -/
lemma ctrl_congr (h : ∀ x, q ≤ x → x < q + queueSize → m' x = m x) : ctrl m' q = ctrl m q := by
  have hread : ∀ off w, off + w ≤ queueSize → readLE m' (q + off) w = readLE m (q + off) w := by
    intro off w hoff
    exact readLE_congr fun i hi => h _ (by omega) (by omega)
  have hlock : ∀ off w, 4036 + off + w ≤ queueSize →
      readLE m' (queueLock q + off) w = readLE m (queueLock q + off) w := by
    intro off w hoff
    rw [queueLock, Nat.add_assoc]
    exact hread _ w hoff
  rw [queueSize] at hread hlock
  simp only [ctrl, header, tail, capacity, blockSize, lockValue, ownerZoneId, lockCount,
    contentionCount, enqueueCount, dequeueCount]
  rw [hread 2 2 (by omega), hread 4 2 (by omega), hread 6 2 (by omega), hread 8 2 (by omega),
    hread 4060 4 (by omega), hread 4064 4 (by omega), hlock 4 4 (by omega), hlock 8 4 (by omega),
    hlock 12 4 (by omega)]
  have h0 := hlock 0 4 (by omega)
  rw [Nat.add_zero] at h0
  rw [h0]

/-- A write outside the control block leaves it as it was. -/
lemma ctrl_store {a : ℕ} (h : a + data.length ≤ q ∨ q + queueSize ≤ a) :
    ctrl (store m a data) q = ctrl m q :=
  ctrl_congr fun x _ _ => store_of_outside (by omega)

section Fields

variable (m q) (v : ℕ)

lemma ctrl_write_header :
    ctrl (writeLE m (q + 2) 2 v) q = { ctrl m q with header := v % 2 ^ 16 } := by
  simp (disch := omega) [ctrl, header, tail, capacity, blockSize, lockValue, ownerZoneId,
    lockCount, contentionCount, enqueueCount, dequeueCount, queueLock, readLE_writeLE,
    readLE_writeLE_disjoint]

lemma ctrl_write_tail :
    ctrl (writeLE m (q + 4) 2 v) q = { ctrl m q with tail := v % 2 ^ 16 } := by
  simp (disch := omega) [ctrl, header, tail, capacity, blockSize, lockValue, ownerZoneId,
    lockCount, contentionCount, enqueueCount, dequeueCount, queueLock, readLE_writeLE,
    readLE_writeLE_disjoint]

lemma ctrl_write_enqueueCount :
    ctrl (writeLE m (q + 4060) 4 v) q = { ctrl m q with enqueueCount := v % 2 ^ 32 } := by
  simp (disch := omega) [ctrl, header, tail, capacity, blockSize, lockValue, ownerZoneId,
    lockCount, contentionCount, enqueueCount, dequeueCount, queueLock, readLE_writeLE,
    readLE_writeLE_disjoint]

lemma ctrl_write_dequeueCount :
    ctrl (writeLE m (q + 4064) 4 v) q = { ctrl m q with dequeueCount := v % 2 ^ 32 } := by
  simp (disch := omega) [ctrl, header, tail, capacity, blockSize, lockValue, ownerZoneId,
    lockCount, contentionCount, enqueueCount, dequeueCount, queueLock, readLE_writeLE,
    readLE_writeLE_disjoint]

lemma ctrl_write_lockValue :
    ctrl (writeLE m (queueLock q) 4 v) q = { ctrl m q with lockValue := v % 2 ^ 32 } := by
  simp (disch := omega) [ctrl, header, tail, capacity, blockSize, lockValue, ownerZoneId,
    lockCount, contentionCount, enqueueCount, dequeueCount, queueLock, readLE_writeLE,
    readLE_writeLE_disjoint]

lemma ctrl_write_ownerZoneId :
    ctrl (writeLE m (queueLock q + 4) 4 v) q = { ctrl m q with ownerZoneId := v % 2 ^ 32 } := by
  simp (disch := omega) [ctrl, header, tail, capacity, blockSize, lockValue, ownerZoneId,
    lockCount, contentionCount, enqueueCount, dequeueCount, queueLock, readLE_writeLE,
    readLE_writeLE_disjoint]

lemma ctrl_write_lockCount :
    ctrl (writeLE m (queueLock q + 8) 4 v) q = { ctrl m q with lockCount := v % 2 ^ 32 } := by
  simp (disch := omega) [ctrl, header, tail, capacity, blockSize, lockValue, ownerZoneId,
    lockCount, contentionCount, enqueueCount, dequeueCount, queueLock, readLE_writeLE,
    readLE_writeLE_disjoint]

end Fields

/-! ### Lock and unlock -/

/-- The memory in which the lock has just been taken. -/
def lockedMem (m : Mem) (lock zone : ℕ) : Mem :=
  let m := writeLE (writeLE m lock 4 1) (lock + 4) 4 zone
  writeLE m (lock + 8) 4 (lockCount m lock + 1)

lemma queueLock_ne_zero (q : ℕ) : queueLock q ≠ 0 := by
  rw [queueLock]
  omega

lemma hyperampSpinlockLock_free (h : (ctrl m q).lockValue = 0) :
    hyperampSpinlockLock m (queueLock q) zone = some (lockedMem m (queueLock q) zone) := by
  have hfree : lockValue m (queueLock q) = 0 := h
  rw [hyperampSpinlockLock, if_neg (queueLock_ne_zero q), if_pos hfree]
  rfl

lemma ctrl_lockedMem (m : Mem) (q : ℕ) :
    ctrl (lockedMem m (queueLock q) zone) q =
      { ctrl m q with
        lockValue := 1
        ownerZoneId := zone % 2 ^ 32
        lockCount := ((ctrl m q).lockCount + 1) % 2 ^ 32 } := by
  have hcount : ∀ m : Mem, lockCount m (queueLock q) = (ctrl m q).lockCount := fun _ => rfl
  rw [lockedMem, ctrl_write_lockCount, hcount, ctrl_write_ownerZoneId, ctrl_write_lockValue]
  rfl

lemma lockedMem_of_outside {x : ℕ} (h : x < q + 4036 ∨ q + 4048 ≤ x) :
    lockedMem m (queueLock q) zone x = m x := by
  rw [lockedMem, queueLock]
  rw [writeLE_of_outside (by omega), writeLE_of_outside (by omega), writeLE_of_outside (by omega)]

lemma ctrl_unlock (m : Mem) (q : ℕ) :
    ctrl (hyperampSpinlockUnlock m (queueLock q)) q =
      { ctrl m q with lockValue := 0, ownerZoneId := 0 } := by
  rw [hyperampSpinlockUnlock, if_neg (queueLock_ne_zero q), ctrl_write_lockValue,
    ctrl_write_ownerZoneId]
  rfl

lemma unlock_of_outside {x : ℕ} (h : x < q + 4036 ∨ q + 4044 ≤ x) :
    hyperampSpinlockUnlock m (queueLock q) x = m x := by
  rw [hyperampSpinlockUnlock, if_neg (queueLock_ne_zero q)]
  rw [queueLock]
  rw [writeLE_of_outside (by omega), writeLE_of_outside (by omega)]

/-! ### Enqueue -/

/-- An enqueue with a null pointer, no data or more than a block changes nothing. -/
lemma hyperampQueueEnqueue_invalid {bytes : Option (List UInt8)}
    (h : ∀ d, bytes = some d → q = 0 ∨ d = [] ∨ (ctrl m q).blockSize < d.length) :
    hyperampQueueEnqueue m q zone bytes virtBase = some (.error, m) := by
  simp only [hyperampQueueEnqueue]
  cases bytes with
  | none => rfl
  | some d =>
      simp only [List.length_eq_zero_iff]
      by_cases hnull : q = 0 ∨ d = []
      · rw [if_pos hnull]
      · have hlen : blockSize m q < d.length := by
          rcases h d rfl with hq | hd | hlen
          · exact absurd (Or.inl hq) hnull
          · exact absurd (Or.inr hd) hnull
          · exact hlen
        rw [if_neg hnull, if_pos hlen]

section ValidEnqueue

variable (hq : q ≠ 0) (hdata : data ≠ []) (hlen : data.length ≤ (ctrl m q).blockSize)
  (hlock : (ctrl m q).lockValue = 0)

include hq hdata hlen hlock

/-- With valid arguments and a free lock, an enqueue is its locked part between
the lock and the unlock. -/
lemma hyperampQueueEnqueue_valid :
    hyperampQueueEnqueue m q zone (some data) virtBase =
      some ((enqueueLocked (lockedMem m (queueLock q) zone) q data virtBase
          (ctrl m q).capacity (ctrl m q).blockSize).1,
        hyperampSpinlockUnlock (enqueueLocked (lockedMem m (queueLock q) zone) q data virtBase
          (ctrl m q).capacity (ctrl m q).blockSize).2 (queueLock q)) := by
  have hargs : ¬ (q = 0 ∨ data.length = 0) := by
    simp [hq, hdata]
  have hlen' : ¬ blockSize m q < data.length := by
    have : blockSize m q = (ctrl m q).blockSize := rfl
    omega
  rw [hyperampQueueEnqueue]
  simp only [if_neg hargs, if_neg hlen', hyperampSpinlockLock_free zone hlock]
  rfl

/-- A full ring: the enqueue reports `HYPERAMP_AGAIN` and only the lock fields
change. -/
lemma hyperampQueueEnqueue_again
    (hfull : nextIndex (ctrl m q).capacity (ctrl m q).header = (ctrl m q).tail) :
    ∃ m', hyperampQueueEnqueue m q zone (some data) virtBase = some (.again, m') ∧
      ctrl m' q = (ctrl m q).released ∧
      ∀ x, x < q + 4036 ∨ q + 4048 ≤ x → m' x = m x := by
  have hcl := ctrl_lockedMem zone m q
  have hheader : header (lockedMem m (queueLock q) zone) q = (ctrl m q).header :=
    congrArg Ctrl.header hcl
  have htail : tail (lockedMem m (queueLock q) zone) q = (ctrl m q).tail :=
    congrArg Ctrl.tail hcl
  refine ⟨hyperampSpinlockUnlock (lockedMem m (queueLock q) zone) (queueLock q), ?_, ?_, ?_⟩
  · rw [hyperampQueueEnqueue_valid zone virtBase hq hdata hlen hlock]
    simp only [enqueueLocked, hheader, htail, if_pos hfull]
  · rw [ctrl_unlock, hcl]
    rfl
  · intro x hx
    rw [unlock_of_outside (by omega), lockedMem_of_outside zone hx]

/-- A ring with room: the enqueue writes the data at the slot of the write
index and advances it. -/
lemma hyperampQueueEnqueue_ok
    (hroom : nextIndex (ctrl m q).capacity (ctrl m q).header ≠ (ctrl m q).tail)
    {slot : ℕ} (hslot : slot = slotAddr virtBase (ctrl m q).header (ctrl m q).blockSize)
    (hdisj : slot + data.length ≤ q ∨ q + queueSize ≤ slot) :
    ∃ m', hyperampQueueEnqueue m q zone (some data) virtBase = some (.ok, m') ∧
      ctrl m' q =
        { (ctrl m q).released with
          header := nextIndex (ctrl m q).capacity (ctrl m q).header % 2 ^ 16
          enqueueCount := ((ctrl m q).enqueueCount + 1) % 2 ^ 32 } ∧
      load m' slot data.length = data ∧
      ∀ x, (x < q ∨ q + queueSize ≤ x) → (x < slot ∨ slot + data.length ≤ x) → m' x = m x := by
  have hcl := ctrl_lockedMem zone m q
  set locked := lockedMem m (queueLock q) zone with hlocked
  have hheader : header locked q = (ctrl m q).header := congrArg Ctrl.header hcl
  have htail : tail locked q = (ctrl m q).tail := congrArg Ctrl.tail hcl
  set newHeader := nextIndex (ctrl m q).capacity (ctrl m q).header with hnew
  set stored := writeLE (store locked slot data) (q + 2) 2 newHeader with hstored
  have hcstored : ctrl stored q = { ctrl locked q with header := newHeader % 2 ^ 16 } := by
    rw [hstored, ctrl_write_header, ctrl_store hdisj]
  refine ⟨hyperampSpinlockUnlock (writeLE stored (q + 4060) 4 (enqueueCount stored q + 1))
      (queueLock q), ?_, ?_, ?_, ?_⟩
  · rw [hyperampQueueEnqueue_valid zone virtBase hq hdata hlen hlock]
    simp only [enqueueLocked, ← hlocked, hheader, htail, ← hnew, if_neg hroom, ← hslot,
      ← hstored]
  · have hcount : enqueueCount stored q = (ctrl m q).enqueueCount := by
      have := congrArg Ctrl.enqueueCount hcstored
      rw [hcl] at this
      exact this
    rw [ctrl_unlock, ctrl_write_enqueueCount, hcstored, hcl, hcount]
    rfl
  · rw [queueSize] at hdisj
    have hsame := load_store_same locked slot data
    rw [← hsame, length_load]
    apply load_congr
    intro i hi
    rw [unlock_of_outside (by omega), writeLE_of_outside (by omega), hstored,
      writeLE_of_outside (by omega)]
  · rw [queueSize]
    intro x hx hxs
    rw [unlock_of_outside (by omega), writeLE_of_outside (by omega), hstored,
      writeLE_of_outside (by omega), store_of_outside hxs, hlocked,
      lockedMem_of_outside zone (by omega)]

end ValidEnqueue

/-! ### Dequeue -/

/-- A dequeue with a null pointer or no room in the buffer changes nothing. -/
lemma hyperampQueueDequeue_invalid {dataPtr : Bool}
    (h : q = 0 ∨ dataPtr = false ∨ maxLen = 0) :
    hyperampQueueDequeue m q zone dataPtr maxLen virtBase = some (.error, [], m) := by
  rw [hyperampQueueDequeue, if_pos h]

section ValidDequeue

variable (hq : q ≠ 0) (hmax : maxLen ≠ 0) (hlock : (ctrl m q).lockValue = 0)

include hq hmax hlock

/-- With valid arguments and a free lock, a dequeue is its locked part between
the lock and the unlock. -/
lemma hyperampQueueDequeue_valid :
    hyperampQueueDequeue m q zone true maxLen virtBase =
      some ((dequeueLocked (lockedMem m (queueLock q) zone) q maxLen virtBase).1,
        (dequeueLocked (lockedMem m (queueLock q) zone) q maxLen virtBase).2.1,
        hyperampSpinlockUnlock
          (dequeueLocked (lockedMem m (queueLock q) zone) q maxLen virtBase).2.2
          (queueLock q)) := by
  have hargs : ¬ (q = 0 ∨ true = false ∨ maxLen = 0) := by
    simp [hq, hmax]
  rw [hyperampQueueDequeue]
  simp only [if_neg hargs, hyperampSpinlockLock_free zone hlock]
  rfl

/-- An empty ring: the dequeue reports `HYPERAMP_AGAIN` and only the lock fields
change. -/
lemma hyperampQueueDequeue_again (hempty : (ctrl m q).tail = (ctrl m q).header) :
    ∃ m', hyperampQueueDequeue m q zone true maxLen virtBase = some (.again, [], m') ∧
      ctrl m' q = (ctrl m q).released ∧
      ∀ x, x < q + 4036 ∨ q + 4048 ≤ x → m' x = m x := by
  have hcl := ctrl_lockedMem zone m q
  have hheader : header (lockedMem m (queueLock q) zone) q = (ctrl m q).header :=
    congrArg Ctrl.header hcl
  have htail : tail (lockedMem m (queueLock q) zone) q = (ctrl m q).tail :=
    congrArg Ctrl.tail hcl
  refine ⟨hyperampSpinlockUnlock (lockedMem m (queueLock q) zone) (queueLock q), ?_, ?_, ?_⟩
  · rw [hyperampQueueDequeue_valid zone virtBase hq hmax hlock]
    simp only [dequeueLocked, hheader, htail, if_pos hempty]
  · rw [ctrl_unlock, hcl]
    rfl
  · intro x hx
    rw [unlock_of_outside (by omega), lockedMem_of_outside zone hx]

/-- A ring with a message: the dequeue copies the slot of the read index out,
cut to the buffer, and advances the index. -/
lemma hyperampQueueDequeue_ok (hsome : (ctrl m q).tail ≠ (ctrl m q).header)
    {slot : ℕ} (hslot : slot = slotAddr virtBase (ctrl m q).tail (ctrl m q).blockSize)
    (hdisj : slot + (ctrl m q).blockSize ≤ q ∨ q + queueSize ≤ slot) :
    ∃ m', hyperampQueueDequeue m q zone true maxLen virtBase =
        some (.ok, load m slot (min maxLen (ctrl m q).blockSize), m') ∧
      ctrl m' q =
        { (ctrl m q).released with
          tail := nextIndex (ctrl m q).capacity (ctrl m q).tail % 2 ^ 16
          dequeueCount := ((ctrl m q).dequeueCount + 1) % 2 ^ 32 } ∧
      ∀ x, (x < q ∨ q + queueSize ≤ x) → m' x = m x := by
  have hcl := ctrl_lockedMem zone m q
  set locked := lockedMem m (queueLock q) zone with hlocked
  have hheader : header locked q = (ctrl m q).header := congrArg Ctrl.header hcl
  have htail : tail locked q = (ctrl m q).tail := congrArg Ctrl.tail hcl
  have hbs : blockSize locked q = (ctrl m q).blockSize := congrArg Ctrl.blockSize hcl
  have hcap : capacity locked q = (ctrl m q).capacity := congrArg Ctrl.capacity hcl
  have hlen : (if maxLen < (ctrl m q).blockSize then maxLen else (ctrl m q).blockSize) =
      min maxLen (ctrl m q).blockSize := by
    split <;> omega
  have hload : load locked slot (min maxLen (ctrl m q).blockSize) =
      load m slot (min maxLen (ctrl m q).blockSize) := by
    rw [queueSize] at hdisj
    apply load_congr
    intro i hi
    exact lockedMem_of_outside zone (by omega)
  set moved := writeLE locked (q + 4) 2 (nextIndex (ctrl m q).capacity (ctrl m q).tail)
    with hmoved
  refine ⟨hyperampSpinlockUnlock (writeLE moved (q + 4064) 4 (dequeueCount moved q + 1))
      (queueLock q), ?_, ?_, ?_⟩
  · rw [hyperampQueueDequeue_valid zone virtBase hq hmax hlock]
    simp only [dequeueLocked, ← hlocked, hheader, htail, hbs, hcap, if_neg hsome, ← hslot, hlen,
      hload, ← hmoved]
  · have hcmoved : ctrl moved q =
        { ctrl locked q with tail := nextIndex (ctrl m q).capacity (ctrl m q).tail % 2 ^ 16 } := by
      rw [hmoved, ctrl_write_tail]
    have hcount : dequeueCount moved q = (ctrl m q).dequeueCount := by
      have := congrArg Ctrl.dequeueCount hcmoved
      rw [hcl] at this
      exact this
    rw [ctrl_unlock, ctrl_write_dequeueCount, hcmoved, hcl, hcount]
    rfl
  · rw [queueSize]
    intro x hx
    rw [unlock_of_outside (by omega), writeLE_of_outside (by omega), hmoved,
      writeLE_of_outside (by omega), hlocked, lockedMem_of_outside zone (by omega)]

end ValidDequeue

/-! ### Initialisation -/

section Init

variable (config : HyperampQueueConfig) (k : ℕ)

@[simp] lemma length_byteStores (off : ℕ) (bytes : List UInt8) :
    (byteStores off bytes).length = bytes.length := by
  simp [byteStores]

@[simp] lemma getElem_byteStores (off : ℕ) (bytes : List UInt8) (i : ℕ)
    (h : i < (byteStores off bytes).length) :
    (byteStores off bytes)[i] = (off + i, [bytes.get ⟨i, by simpa using h⟩]) := by
  simp [byteStores]

lemma spans_byteStores (off : ℕ) (bytes : List UInt8) :
    (byteStores off bytes).map (fun w => (w.1, w.2.length)) =
      (List.range bytes.length).map fun i => (off + i, 1) := by
  simp only [byteStores, List.map_map, ← List.zipIdx_map_snd 0 bytes, Function.comp_def,
    List.length_singleton, List.range_eq_range']

/-- The ranges written by the creator do not depend on the configuration. -/
lemma spans_initStores :
    (initStores config).map (fun w => (w.1, w.2.length)) =
      (initStores ⟨0, 0, 0, 0, 0⟩).map fun w => (w.1, w.2.length) := by
  simp only [initStores, List.map_append, spans_byteStores, length_toLE, List.map_cons,
    List.length_cons]

/-- The creator writes every field once, in the order of the offsets. -/
lemma ascending_initStores :
    Ascending ((initStores config).map fun w => (q + w.1, w.2)) := by
  rw [Ascending]
  rw [List.pairwise_map]
  have hdec : ((initStores ⟨0, 0, 0, 0, 0⟩).map (fun w => (w.1, w.2.length))).Pairwise
      fun v w => v.1 + v.2 ≤ w.1 := by decide +kernel
  rw [← spans_initStores config, List.pairwise_map] at hdec
  exact hdec.imp fun h => by simp only; omega

/-- The range of the `j`-th store of the creator holds its old bytes until that
store is made. -/
lemma load_initUpTo {config : HyperampQueueConfig} {j off : ℕ} {bytes : List UInt8}
    (hj : (initStores config)[j]? = some (off, bytes)) :
    load (initUpTo m q config k) (q + off) bytes.length =
      if j < k then bytes else load m (q + off) bytes.length := by
  have hmap : ((initStores config).map fun w => (q + w.1, w.2))[j]? = some (q + off, bytes) := by
    rw [List.getElem?_map, hj]
    rfl
  rw [initUpTo, List.map_take]
  exact load_storeAll_take (ascending_initStores config) hmap k

/-- A byte of the control block holds its old value until its store is made. -/
lemma initUpTo_apply {config : HyperampQueueConfig} {j off : ℕ} {b : UInt8}
    (hj : (initStores config)[j]? = some (off, [b])) :
    initUpTo m q config k (q + off) = if j < k then b else m (q + off) := by
  have h := load_initUpTo (m := m) (q := q) k hj
  split at h
  · rename_i hk
    rw [if_pos hk]
    simpa [load] using h
  · rename_i hk
    rw [if_neg hk]
    simpa [load] using h

/-- A word written byte by byte in steps `j` and `j + 1`. -/
lemma readLE_initUpTo_two {config : HyperampQueueConfig} (j off : ℕ) {b₀ b₁ : UInt8}
    (h₀ : (initStores config)[j]? = some (off, [b₀]))
    (h₁ : (initStores config)[j + 1]? = some (off + 1, [b₁])) :
    readLE (initUpTo m q config k) (q + off) 2 =
      ofLE [if j < k then b₀ else m (q + off), if j + 1 < k then b₁ else m (q + off + 1)] := by
  have e₀ := initUpTo_apply (m := m) (q := q) k h₀
  have e₁ := initUpTo_apply (m := m) (q := q) k h₁
  rw [← Nat.add_assoc] at e₁
  rw [← e₀, ← e₁]
  rfl

/-- A word written by one store of a word. -/
lemma readLE_initUpTo_word (j off v : ℕ)
    (hj : (initStores config)[j]? = some (off, toLE 4 v)) :
    readLE (initUpTo m q config k) (q + off) 4 =
      if j < k then v % 2 ^ 32 else readLE m (q + off) 4 := by
  have h := load_initUpTo (m := m) (q := q) k hj
  rw [length_toLE] at h
  rw [readLE, h]
  split
  · rw [ofLE_toLE]
    norm_num
  · rfl

/-- A word written byte by byte in the last four of the steps made. -/
lemma readLE_initUpTo_done {config : HyperampQueueConfig} (j off : ℕ) {w : ℕ}
    (bytes : List UInt8)
    (hw : bytes.length = w) (hk : j + w ≤ k)
    (hbytes : ∀ i < w,
      (initStores config)[j + i]? = bytes[i]?.map fun b => (off + i, [b])) :
    readLE (initUpTo m q config k) (q + off) w = ofLE bytes := by
  rw [readLE]
  congr 1
  apply List.ext_getElem?
  intro i
  rw [getElem?_load]
  by_cases hi : i < w
  · rw [if_pos hi, List.getElem?_eq_getElem (by omega)]
    have hstore := hbytes i hi
    have hget : bytes[i]? = some bytes[i] := List.getElem?_eq_getElem (by omega)
    rw [hget, Option.map_some] at hstore
    have h := initUpTo_apply (m := m) (q := q) k hstore
    rw [if_pos (by omega), ← Nat.add_assoc] at h
    rw [h]
  · rw [if_neg hi, List.getElem?_eq_none (by omega)]

@[simp] lemma length_initStores : (initStores config).length = 56 := by
  simp [initStores]

/-- The control block of a queue that has just been initialised. -/
def initialCtrl : Ctrl where
  header := 0
  tail := 0
  capacity := config.capacity.toNat
  blockSize := config.blockSize.toNat
  lockValue := 0
  ownerZoneId := 0
  lockCount := 0
  contentionCount := 0
  enqueueCount := 0
  dequeueCount := 0

lemma ctrl_initUpTo (m : Mem) (q : ℕ) :
    ctrl (initUpTo m q config (initStores config).length) q = initialCtrl config := by
  have hcap := config.capacity.toNat_lt
  have hbs := config.blockSize.toNat_lt
  have hlock : ∀ i < 4, readLE (initUpTo m q config 56) (q + (4036 + 4 * i)) 4 = 0 := by
    intro i hi
    have h := readLE_initUpTo_word (m := m) (q := q) config 56 (36 + i) (4036 + 4 * i) 0
      (by interval_cases i <;> simp [initStores])
    rw [h, if_pos (by omega), Nat.zero_mod]
  rw [length_initStores]
  ext
  · exact readLE_initUpTo_done _ 2 2 [0, 0] rfl (by omega)
      (by intro i hi; interval_cases i <;> simp [initStores])
  · exact readLE_initUpTo_done _ 4 4 [0, 0] rfl (by omega)
      (by intro i hi; interval_cases i <;> simp [initStores])
  · refine (readLE_initUpTo_done _ 6 6 _ (length_toLE 2 config.capacity.toNat)
      (by omega) (by intro i hi; interval_cases i <;> simp [initStores])).trans ?_
    rw [ofLE_toLE, Nat.mod_eq_of_lt (by omega)]
    rfl
  · refine (readLE_initUpTo_done _ 8 8 _ (length_toLE 2 config.blockSize.toNat)
      (by omega) (by intro i hi; interval_cases i <;> simp [initStores])).trans ?_
    rw [ofLE_toLE, Nat.mod_eq_of_lt (by omega)]
    rfl
  · exact hlock 0 (by omega)
  · exact hlock 1 (by omega)
  · exact hlock 2 (by omega)
  · exact hlock 3 (by omega)
  · exact readLE_initUpTo_done _ 48 4060 (toLE 4 0) rfl (by omega)
      (by intro i hi; interval_cases i <;> simp [initStores])
  · exact readLE_initUpTo_done _ 52 4064 (toLE 4 0) rfl (by omega)
      (by intro i hi; interval_cases i <;> simp [initStores])

/-- The creator only writes inside the control block. -/
lemma initUpTo_of_outside {x : ℕ} (h : x < q ∨ q + queueSize ≤ x) :
    initUpTo m q config k x = m x := by
  have hspan : ∀ w ∈ initStores config, w.1 + w.2.length ≤ queueSize := by
    intro w hw
    have hdec : ∀ s ∈ (initStores ⟨0, 0, 0, 0, 0⟩).map (fun w => (w.1, w.2.length)),
        s.1 + s.2 ≤ queueSize := by decide +kernel
    rw [← spans_initStores config] at hdec
    exact hdec _ (List.mem_map_of_mem hw)
  rw [initUpTo]
  apply storeAll_of_outside
  intro w hw hcov
  obtain ⟨v, hv, rfl⟩ := List.mem_map.mp hw
  have := hspan v (List.mem_of_mem_take hv)
  simp only [Covers] at hcov
  omega

end Init

end Hyperamp
