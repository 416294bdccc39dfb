import Sel4Test.Frontend.Message
import Sel4Test.Lib.ByteMem
import Sel4Test.Lib.Exec
import Sel4Test.Lib.Ring

/-!
The ring of the shared memory pool, `front/src/shared_mem_io.c`.

`header` is the write index and `tail` the read index. `shared_mem_pool_queue_send_oc` copies a
block to slot `header`, which it takes to lie `header` blocks after the base;
`shared_mem_pool_queue_recv_zc` returns the address `tail + 1` blocks after it, as
`SHM_POOL_QUEUE_ALLOC_FROM_HEADER` does for a slot it hands out. The macros for used and
surplus memory have the two indices in each other's place, and the initialisation stores the
block size as the capacity.

* `usedMemory_eq`, `surplusMemory_eq`: what the two macros compute in every reachable state.
* `legacy_ring_iff`: the ring refines a FIFO with its accounting exactly for block sizes that
  are stored as zero, where every call is refused.
* `recv_skips_first`: what is received is the block after the oldest one.
* `alloc_then_recv`: a slot that is allocated is the one that is received.
-/

namespace Frontend

open ByteMem Exec

namespace SharedMem

/-! ### The queue -/

/-- `MAX_MAP_TABLE_ENTRY_COUNT`. -/
def maxMapTableEntryCount : ℕ := 64

/-- `ERROR_SHARED_MEM_ADDR`. -/
def errorSharedMemAddr : UInt64 := 0xFFFFFFFFFFFFFFFF

/-- `SharedMemoryPoolQueue`, with the virtual addresses of its first map table. -/
structure SharedMemoryPoolQueue where
  mapMode1 : UInt8
  header : UInt16
  tail : UInt16
  capacity : UInt16
  blockSize : UInt16
  phyAddr : UInt64
  virtAddr1 : UInt64
  table1 : Fin maxMapTableEntryCount → UInt64
  pool : Option ℕ

/-- `SharedMemoryPoolQueueConfig`, less its map mode, which the initialisation does not read;
`none` for `pool` is the null pointer. -/
structure SharedMemoryPoolQueueConfig where
  pool : Option ℕ
  phyAddr : UInt64
  virtAddr : UInt64
  capacity : UInt64
  blockSize : UInt64

/-- `shared_mem_pool_queue_initialize`; `none` is a null pointer. -/
def sharedMemPoolQueueInitialize (queue : Option SharedMemoryPoolQueue)
    (config : Option SharedMemoryPoolQueueConfig) : ProcessRet × Option SharedMemoryPoolQueue :=
  match queue, config with
  | some queue, some config =>
      if config.pool = none then (.error, some queue)
      else if config.blockSize = 0 then (.error, some queue)
      else
        let queue :=
          { queue with
            pool := config.pool
            phyAddr := config.phyAddr
            virtAddr1 := config.virtAddr
            capacity := config.capacity.toUInt16
            blockSize := config.blockSize.toUInt16 }
        -- the capacity is assigned a second time
        let queue := { queue with capacity := config.blockSize.toUInt16 }
        (.ok, some { queue with header := 0, tail := 0 })
  | queue, _ => (.error, queue)

/-- The address `i` blocks after the base: an `int` product, extended to 64 bits. -/
def blockAddr (virtAddr : UInt64) (i blockSize : ℕ) : UInt64 :=
  virtAddr + UInt64.ofInt (Int.bmod (i * blockSize) (2 ^ 32))

/-! ### Enqueue and dequeue -/

/-- The increment of an index in both macros, with its wrap at the capacity. -/
def wrapNext (capacity i : UInt16) : UInt16 :=
  let i := i + 1
  if capacity ≤ i then i - capacity else i

/-- `SHMP_QUEUE_ENQUEUE`. -/
def shmpQueueEnqueue (queue : SharedMemoryPoolQueue) : ProcessRet × SharedMemoryPoolQueue :=
  let originalHeader := queue.header
  let header := wrapNext queue.capacity queue.header
  if header = queue.tail ∨ queue.capacity ≤ header then
    (.error, { queue with header := originalHeader })
  else (.ok, { queue with header := header })

/-- `SHMP_QUEUE_DEQUEUE`. -/
def shmpQueueDequeue (queue : SharedMemoryPoolQueue) : ProcessRet × SharedMemoryPoolQueue :=
  if queue.tail = queue.header then (.error, queue)
  else (.ok, { queue with tail := wrapNext queue.capacity queue.tail })

/-- `shared_mem_pool_queue_send_oc`; `none` is a null pointer and `data_size` the length of
the list. -/
def sharedMemPoolQueueSendOc (queue : Option SharedMemoryPoolQueue) (data : Option (List UInt8))
    (m : Mem) : ProcessRet × Option SharedMemoryPoolQueue × Mem :=
  match queue, data with
  | some queue, some data =>
      if queue.blockSize = 0 then (.error, some queue, m)
      else if data.length = 0 ∨ queue.blockSize.toNat < data.length then (.error, some queue, m)
      else if (queue.header.toNat + 1) % queue.capacity.toNat = queue.tail.toNat then
        (.again, some queue, m)
      else
        let addr := blockAddr queue.virtAddr1 queue.header.toNat queue.blockSize.toNat
        let m := store m addr.toNat data
        let (ret, queue) := shmpQueueEnqueue queue
        (ret, some queue, m)
  | queue, _ => (.error, queue, m)

/-- `shared_mem_pool_queue_recv_zc`; `outputs` says whether both output pointers are non-null.
Address and size of the block are returned. -/
def sharedMemPoolQueueRecvZc (queue : Option SharedMemoryPoolQueue) (outputs : Bool) :
    ProcessRet × Option (UInt64 × ℕ) × Option SharedMemoryPoolQueue :=
  match queue with
  | none => (.error, none, none)
  | some queue =>
      if outputs = false then (.error, none, some queue)
      else if queue.blockSize = 0 then (.error, none, some queue)
      else if queue.header = queue.tail then (.again, none, some queue)
      else
        let buffer := blockAddr queue.virtAddr1 (queue.tail.toNat + 1) queue.blockSize.toNat
        let (ret, queue') := shmpQueueDequeue queue
        (ret, some (buffer, queue.blockSize.toNat), some queue')

/-! ### Accounting -/

/-- An `int` as a `size_t`. -/
def toSizeT (x : ℤ) : ℕ := (x % 2 ^ 64).toNat

/-- `SHMP_QUEUE_USED_MEMORY`. -/
def shmpQueueUsedMemory (queue : SharedMemoryPoolQueue) : ℕ :=
  let slots : ℤ :=
    if queue.header ≤ queue.tail then queue.tail.toNat - queue.header.toNat
    else queue.capacity.toNat - queue.header.toNat + queue.tail.toNat
  toSizeT slots * queue.blockSize.toNat % 2 ^ 64

/-- `SHMP_QUEUE_SURPLUS_MEMORY`. -/
def shmpQueueSurplusMemory (queue : SharedMemoryPoolQueue) : ℕ :=
  let slots : ℤ :=
    if queue.header ≤ queue.tail then
      queue.capacity.toNat - (queue.tail.toNat - queue.header.toNat)
    else queue.header.toNat - queue.tail.toNat
  toSizeT slots * queue.blockSize.toNat % 2 ^ 64

/-! ### Allocation at the header -/

/-- `SHM_POOL_QUEUE_LOOKUP_VIRTADDR` in the first table; `none` is a read beyond the table. -/
def shmPoolQueueLookupVirtaddr (queue : SharedMemoryPoolQueue) (idx : UInt16) : Option UInt64 :=
  if queue.capacity ≤ idx then some errorSharedMemAddr
  else if h : idx.toNat < maxMapTableEntryCount then some (queue.table1 ⟨idx.toNat, h⟩)
  else none

/-- `SHM_POOL_QUEUE_ALLOC_FROM_HEADER` for non-null pointers. -/
def shmPoolQueueAllocFromHeader (queue : SharedMemoryPoolQueue) :
    Option (UInt64 × SharedMemoryPoolQueue) :=
  let nextHeader := UInt16.ofNat ((queue.header.toNat + 1) % queue.capacity.toNat)
  if nextHeader ≠ queue.tail then
    -- `SHARE_MEM_MAP_MODE_CONTIGUOUS_BOTH`
    if queue.mapMode1 = 0 then
      some (blockAddr queue.virtAddr1 (queue.header.toNat + 1) queue.blockSize.toNat,
        { queue with header := nextHeader })
    -- `SHARE_MEM_MAP_MODE_CONTIGUOUS_PHYS_DISCRETE_LOGICAL`
    else if queue.mapMode1 = 1 then do
      let addr ← shmPoolQueueLookupVirtaddr queue queue.header
      return (addr, { queue with header := nextHeader })
    else some (errorSharedMemAddr, queue)
  else some (errorSharedMemAddr, queue)

/-- `SHM_POOL_QUEUE_HEAD_ROLLBACK` for a non-null pointer. -/
def shmPoolQueueHeadRollback (queue : SharedMemoryPoolQueue) : SharedMemoryPoolQueue :=
  if queue.header = queue.tail then queue
  else
    { queue with
      header := if queue.header = 0 then queue.capacity - 1 else queue.header - 1 }

/-! ### Runs -/

/-- A call by one of the users of the queue. -/
inductive RingOp
  | send (data : Option (List UInt8))
  | recv (outputs : Bool)
  deriving DecidableEq, Repr

/-- The queue and the shared memory, with the blocks that were accepted and those that were
received, as they were in memory on return. -/
structure RingState where
  queue : SharedMemoryPoolQueue
  mem : Mem
  sent : List (List UInt8)
  received : List (List UInt8)

/-- One call on a non-null queue. -/
def ringStep (s : RingState) : RingOp → RingState
  | .send data =>
      match sharedMemPoolQueueSendOc (some s.queue) data s.mem with
      | (.ok, some queue, m) => { s with queue := queue, mem := m, sent := s.sent ++ data.toList }
      | (_, some queue, m) => { s with queue := queue, mem := m }
      | (_, none, m) => { s with mem := m }
  | .recv outputs =>
      match sharedMemPoolQueueRecvZc (some s.queue) outputs with
      | (.ok, some (buffer, size), some queue) =>
          { s with queue := queue, received := s.received ++ [load s.mem buffer.toNat size] }
      | (_, _, some queue) => { s with queue := queue }
      | (_, _, none) => s

/-- The blocks that are sent and not yet received. -/
def RingState.pending (s : RingState) : List (List UInt8) := s.sent.drop s.received.length

/-- `n` further blocks can be sent: a list of `n` sends is accepted, after which every send is
refused. -/
inductive FurtherBlocks : SharedMemoryPoolQueue → Mem → ℕ → Prop
  | refused {queue m} :
      (∀ data, (sharedMemPoolQueueSendOc (some queue) data m).1 ≠ .ok) → FurtherBlocks queue m 0
  | accepted {queue queue' m m' n data} :
      sharedMemPoolQueueSendOc (some queue) data m = (.ok, some queue', m') →
      FurtherBlocks queue' m' n → FurtherBlocks queue m (n + 1)

/-- The ring behaves as a FIFO of at most `capacity - 1` blocks whose accounting is right. -/
structure RefinesFifo (config : SharedMemoryPoolQueueConfig) (s : RingState) : Prop where
  no_extra : s.received.length ≤ s.sent.length
  in_order : ∀ (i : ℕ) (d block : List UInt8), s.sent[i]? = some d → s.received[i]? = some block →
    block.take d.length = d
  bounded : s.pending.length ≤ config.capacity.toNat - 1
  used : shmpQueueUsedMemory s.queue = s.pending.length * s.queue.blockSize.toNat
  surplus : ∃ n, FurtherBlocks s.queue s.mem n ∧
    shmpQueueSurplusMemory s.queue = n * s.queue.blockSize.toNat

/-! ### Slots and indices -/

variable {queue queue' : SharedMemoryPoolQueue} {m m' : Mem} {xs : List (List UInt8)}
  {d : List UInt8} {data : Option (List UInt8)} {s s' : RingState}
  {config : SharedMemoryPoolQueueConfig}

/-- The blocks and the one after them lie in the address space and within an `int`. -/
def Fits (queue : SharedMemoryPoolQueue) : Prop :=
  queue.blockSize.toNat * queue.blockSize.toNat < 2 ^ 31 ∧
    queue.virtAddr1.toNat + (queue.blockSize.toNat + 1) * queue.blockSize.toNat ≤ 2 ^ 64

/-- The address of block `i` as a number. -/
def slot (queue : SharedMemoryPoolQueue) (i : ℕ) : ℕ :=
  queue.virtAddr1.toNat + i * queue.blockSize.toNat

/-- Where the blocks fit, block `i` starts with the message. -/
def SlotHolds (queue : SharedMemoryPoolQueue) (m : Mem) (i : ℕ) (d : List UInt8) : Prop :=
  Fits queue → d.length ≤ queue.blockSize.toNat ∧ load m (slot queue i) d.length = d

/-- The queue holds the blocks `xs`, oldest first; its capacity is the block size. -/
structure Holding (queue : SharedMemoryPoolQueue) (m : Mem) (xs : List (List UInt8)) : Prop where
  capacity_eq : queue.capacity = queue.blockSize
  ring : Ring.Repr queue.blockSize.toNat queue.header.toNat queue.tail.toNat
    (SlotHolds queue m) xs

lemma Holding.capacity (h : Holding queue m xs) :
    queue.capacity.toNat = queue.blockSize.toNat := by
  rw [h.capacity_eq]

/-- Within the bounds of an `int` the address is computed without wrapping. -/
lemma blockAddr_eq (hfits : Fits queue) {i : ℕ} (hi : i < queue.blockSize.toNat) :
    (blockAddr queue.virtAddr1 i queue.blockSize.toNat).toNat = slot queue i := by
  obtain ⟨hint, hspace⟩ := hfits
  have hle : i * queue.blockSize.toNat ≤ queue.blockSize.toNat * queue.blockSize.toNat :=
    Nat.mul_le_mul_right _ hi.le
  rw [Nat.add_mul, one_mul] at hspace
  have hmod : Int.bmod ((i : ℤ) * queue.blockSize.toNat) (2 ^ 32) =
      ((i * queue.blockSize.toNat : ℕ) : ℤ) := by
    rw [Nat.cast_mul]
    refine Int.bmod_eq_of_le ?_ ?_
    · have : (0 : ℤ) ≤ (i : ℤ) * queue.blockSize.toNat := by positivity
      omega
    · have : ((i * queue.blockSize.toNat : ℕ) : ℤ) < 2 ^ 31 := by exact_mod_cast hle.trans_lt hint
      push_cast at this
      omega
  have hb := queue.blockSize.toNat_lt
  rw [blockAddr, hmod, UInt64.toNat_add]
  have hof : (UInt64.ofInt ((i * queue.blockSize.toNat : ℕ) : ℤ)).toNat =
      i * queue.blockSize.toNat := by
    rw [UInt64.ofInt, UInt64.toNat_ofNat']
    generalize i * queue.blockSize.toNat = n at hle
    have hlt : n < 2 ^ 31 := hle.trans_lt hint
    omega
  rw [hof, slot]
  exact Nat.mod_eq_of_lt (by omega)

/-- The increment with its wrap is the next index of the ring. -/
lemma toNat_wrapNext {capacity i : UInt16} (h : i.toNat < capacity.toNat) :
    (wrapNext capacity i).toNat = Ring.index capacity.toNat i.toNat 1 := by
  have hlt := capacity.toNat_lt
  have hnext : (i + 1).toNat = i.toNat + 1 := by
    rw [UInt16.toNat_add]
    exact Nat.mod_eq_of_lt (by simpa using by omega)
  rw [wrapNext, Ring.index]
  by_cases hwrap : capacity ≤ i + 1
  · have hle := UInt16.le_iff_toNat_le.mp hwrap
    rw [if_pos hwrap, UInt16.toNat_sub_of_le _ _ hwrap, hnext, if_neg (by omega)]
  · have hle := mt UInt16.le_iff_toNat_le.mpr hwrap
    rw [if_neg hwrap, hnext, if_pos (by omega)]

/-! ### Send -/

/-- A message that fits into one block. -/
def Valid (queue : SharedMemoryPoolQueue) (d : List UInt8) : Prop :=
  d ≠ [] ∧ d.length ≤ queue.blockSize.toNat

/-- Without a message that fits, a send changes nothing. -/
lemma sendOc_invalid (h : ∀ d, data = some d → ¬ Valid queue d) :
    sharedMemPoolQueueSendOc (some queue) data m = (.error, some queue, m) := by
  cases data with
  | none => rfl
  | some d =>
      rw [sharedMemPoolQueueSendOc]
      by_cases hzero : queue.blockSize = 0
      · rw [if_pos hzero]
      · have hbad : d.length = 0 ∨ queue.blockSize.toNat < d.length := by
          by_contra hgood
          push Not at hgood
          exact h d rfl ⟨fun hnil => hgood.1 (by simp [hnil]), hgood.2⟩
        rw [if_neg hzero, if_pos hbad]

lemma Holding.blockSize_ne (h : Holding queue m xs) : queue.blockSize ≠ 0 := by
  intro hzero
  have hlt := h.ring.tail_lt
  rw [hzero] at hlt
  exact absurd hlt (by simp)

section ValidSend

variable (h : Holding queue m xs) (hd : Valid queue d)

include h hd

/-- A full queue refuses the block. -/
lemma sendOc_full (hfull : xs.length + 1 = queue.blockSize.toNat) :
    sharedMemPoolQueueSendOc (some queue) (some d) m = (.again, some queue, m) := by
  have hgood : ¬ (d.length = 0 ∨ queue.blockSize.toNat < d.length) := by
    have := List.length_pos_iff.mpr hd.1
    have := hd.2
    omega
  have htest : (queue.header.toNat + 1) % queue.capacity.toNat = queue.tail.toNat := by
    rw [h.capacity, Ring.succ_mod h.ring.header_lt]
    exact h.ring.full_iff.mpr hfull
  rw [sharedMemPoolQueueSendOc, if_neg h.blockSize_ne, if_neg hgood, if_pos htest]

/-- A queue with room takes the block at its header and advances the header. -/
lemma sendOc_room (hroom : xs.length + 1 ≠ queue.blockSize.toNat) :
    ∃ queue' m', sharedMemPoolQueueSendOc (some queue) (some d) m = (.ok, some queue', m') ∧
      queue' = { queue with header := wrapNext queue.capacity queue.header } ∧
      Holding queue' m' (xs ++ [d]) := by
  have hhead := h.ring.header_lt
  have hgood : ¬ (d.length = 0 ∨ queue.blockSize.toNat < d.length) := by
    have := List.length_pos_iff.mpr hd.1
    have := hd.2
    omega
  have hnext : (wrapNext queue.capacity queue.header).toNat =
      Ring.index queue.blockSize.toNat queue.header.toNat 1 := by
    rw [toNat_wrapNext (by rw [h.capacity]; exact hhead), h.capacity]
  have hne : Ring.index queue.blockSize.toNat queue.header.toNat 1 ≠ queue.tail.toNat :=
    fun heq => hroom (h.ring.full_iff.mp heq)
  have htest : ¬ (queue.header.toNat + 1) % queue.capacity.toNat = queue.tail.toNat := by
    rw [h.capacity, Ring.succ_mod hhead]
    exact hne
  -- the check of the macro repeats the one of the function
  have hmacro : ¬ (wrapNext queue.capacity queue.header = queue.tail ∨
      queue.capacity ≤ wrapNext queue.capacity queue.header) := by
    rintro (heq | hle)
    · rw [heq] at hnext
      exact hne hnext.symm
    · have hlt := Ring.index_lt (k := 1) hhead (by omega)
      have hle := UInt16.le_iff_toNat_le.mp hle
      rw [h.capacity, hnext] at hle
      omega
  refine ⟨_, store m (blockAddr queue.virtAddr1 queue.header.toNat
    queue.blockSize.toNat).toNat d, ?_, rfl, ?_⟩
  · rw [sharedMemPoolQueueSendOc, if_neg h.blockSize_ne, if_neg hgood, if_neg htest]
    simp only [shmpQueueEnqueue, if_neg hmacro]
  · refine ⟨h.capacity_eq, ?_⟩
    rw [hnext]
    refine Ring.Repr.push (h.ring.frame ?_) hroom ?_
    · intro i y hi hy hfits
      obtain ⟨hlen, hload⟩ := hy hfits
      refine ⟨hlen, ?_⟩
      have hne : i ≠ queue.header.toNat := by
        rintro rfl
        exact h.ring.header_not_pending hi
      rw [blockAddr_eq hfits hhead]
      refine (load_store_disjoint ?_).trans hload
      have hlen' := hd.2
      simp only [slot]
      rcases Nat.lt_or_gt_of_ne hne with hlt | hgt
      · have := Nat.mul_le_mul_right queue.blockSize.toNat (show i + 1 ≤ queue.header.toNat from hlt)
        rw [Nat.add_mul, one_mul] at this
        omega
      · have := Nat.mul_le_mul_right queue.blockSize.toNat (show queue.header.toNat + 1 ≤ i from hgt)
        rw [Nat.add_mul, one_mul] at this
        omega
    · intro hfits
      refine ⟨hd.2, ?_⟩
      rw [blockAddr_eq hfits hhead]
      exact load_store_same _ _ _

end ValidSend

/-! ### Receive -/

/-- An accepted receive returns the address after the one of the oldest block and advances the
tail. -/
lemma recvZc_head (h : Holding queue m (d :: xs)) :
    ∃ queue', sharedMemPoolQueueRecvZc (some queue) true =
        (.ok, some (blockAddr queue.virtAddr1 (queue.tail.toNat + 1) queue.blockSize.toNat,
          queue.blockSize.toNat), some queue') ∧
      queue' = { queue with tail := wrapNext queue.capacity queue.tail } ∧
      Holding queue' m xs := by
  have hsome : ¬ queue.header = queue.tail := by
    intro heq
    have := h.ring.empty_iff.mp (by rw [heq])
    cases this
  refine ⟨_, ?_, rfl, h.capacity_eq, ?_⟩
  · have hsome' : ¬ queue.tail = queue.header := fun heq => hsome heq.symm
    rw [sharedMemPoolQueueRecvZc, if_neg (by simp), if_neg h.blockSize_ne, if_neg hsome]
    simp only [shmpQueueDequeue, if_neg hsome']
  · show Ring.Repr _ _ (wrapNext queue.capacity queue.tail).toNat _ _
    rw [toNat_wrapNext (by rw [h.capacity]; exact h.ring.tail_lt), h.capacity]
    exact h.ring.pop

/-- An empty queue has nothing to receive. -/
lemma recvZc_empty (h : Holding queue m []) :
    sharedMemPoolQueueRecvZc (some queue) true = (.again, none, some queue) := by
  have hempty : queue.header = queue.tail :=
    UInt16.toNat_inj.mp (h.ring.empty_iff.mpr rfl).symm
  rw [sharedMemPoolQueueRecvZc, if_neg (by simp), if_neg h.blockSize_ne, if_pos hempty]

/-- A receive without its output pointers changes nothing. -/
lemma recvZc_null : sharedMemPoolQueueRecvZc (some queue) false = (.error, none, some queue) := by
  rw [sharedMemPoolQueueRecvZc, if_pos rfl]

/-! ### What the accounting macros compute -/

lemma toSizeT_of_lt {x : ℤ} {n : ℕ} (hx : x = n) (hn : n < 2 ^ 64) : toSizeT x = n := by
  rw [toSizeT, hx]
  omega

/-- A count of slots below `2^16`, in bytes. -/
lemma bytes_of_slots {x : ℤ} {n : ℕ} (hx : x = n) (hn : n < 2 ^ 16) (b : UInt16) :
    toSizeT x * b.toNat % 2 ^ 64 = n * b.toNat := by
  rw [toSizeT_of_lt hx (by omega)]
  apply Nat.mod_eq_of_lt
  calc n * b.toNat < 2 ^ 16 * 2 ^ 16 := Nat.mul_lt_mul'' hn b.toNat_lt
    _ ≤ 2 ^ 64 := by norm_num

/-- Where the indices lie: they agree on an empty queue; on any other the header is ahead of the
tail, or behind it once it has wrapped. -/
lemma Holding.indices (h : Holding queue m xs) :
    (xs = [] ∧ queue.header.toNat = queue.tail.toNat) ∨
      (xs ≠ [] ∧ ¬ queue.header ≤ queue.tail ∧
        queue.header.toNat = queue.tail.toNat + xs.length) ∨
      (xs ≠ [] ∧ queue.header ≤ queue.tail ∧
        queue.header.toNat + queue.blockSize.toNat = queue.tail.toNat + xs.length) := by
  have ht := h.ring.tail_lt
  have hl := h.ring.length_lt
  have hh := h.ring.header_eq
  rw [Ring.index] at hh
  rw [UInt16.le_iff_toNat_le]
  cases xs with
  | nil =>
      simp only [List.length_nil] at hh
      exact Or.inl ⟨rfl, by split at hh <;> omega⟩
  | cons d xs =>
      simp only [List.length_cons] at hh hl ⊢
      by_cases hwrap : queue.tail.toNat + (xs.length + 1) < queue.blockSize.toNat
      · rw [if_pos hwrap] at hh
        exact Or.inr (Or.inl ⟨by simp, by omega, hh⟩)
      · rw [if_neg hwrap] at hh
        exact Or.inr (Or.inr ⟨by simp, by omega, by omega⟩)

/-- The used memory counts the free slots instead, and none of an empty queue. -/
lemma usedMemory_eq (h : Holding queue m xs) :
    shmpQueueUsedMemory queue =
      (if xs = [] then 0 else queue.blockSize.toNat - xs.length) * queue.blockSize.toNat := by
  have hl := h.ring.length_lt
  have hb := queue.blockSize.toNat_lt
  have hcap := h.capacity
  rw [shmpQueueUsedMemory]
  refine bytes_of_slots ?_ (by split <;> omega) _
  rcases h.indices with ⟨hnil, heq⟩ | ⟨hne, hle, heq⟩ | ⟨hne, hle, heq⟩
  · rw [if_pos (UInt16.le_iff_toNat_le.mpr heq.le), if_pos hnil]
    omega
  · rw [if_neg hle, if_neg hne]
    omega
  · rw [if_pos hle, if_neg hne]
    omega

/-- The surplus memory counts the pending blocks instead, and all slots of an empty queue. -/
lemma surplusMemory_eq (h : Holding queue m xs) :
    shmpQueueSurplusMemory queue =
      (if xs = [] then queue.blockSize.toNat else xs.length) * queue.blockSize.toNat := by
  have hl := h.ring.length_lt
  have hb := queue.blockSize.toNat_lt
  have hcap := h.capacity
  rw [shmpQueueSurplusMemory]
  refine bytes_of_slots ?_ (by split <;> omega) _
  rcases h.indices with ⟨hnil, heq⟩ | ⟨hne, hle, heq⟩ | ⟨hne, hle, heq⟩
  · rw [if_pos (UInt16.le_iff_toNat_le.mpr heq.le), if_pos hnil]
    omega
  · rw [if_neg hle, if_neg hne]
    omega
  · rw [if_pos hle, if_neg hne]
    omega

/-- With `c - 1 - p` further sends a queue of `p` pending blocks is full. -/
lemma FurtherBlocks.count {n : ℕ} (hmore : FurtherBlocks queue m n) (h : Holding queue m xs) :
    xs.length + n + 1 = queue.blockSize.toNat := by
  induction hmore generalizing xs with
  | @refused queue m hrefused =>
      by_contra hroom
      have hvalid : Valid queue [0] := by
        have hlt := h.ring.length_lt
        exact ⟨by simp, by simp only [List.length_singleton]; omega⟩
      obtain ⟨queue', m', hsend, -⟩ := sendOc_room h hvalid (by omega)
      exact hrefused (some [0]) (by rw [hsend])
  | @accepted queue queue' m m' n data hsend _ ih =>
      by_cases hvalid : ∃ d, data = some d ∧ Valid queue d
      · obtain ⟨d, rfl, hd⟩ := hvalid
        have hroom : xs.length + 1 ≠ queue.blockSize.toNat := by
          intro hfull
          rw [sendOc_full h hd hfull] at hsend
          cases hsend
        obtain ⟨queue'', m'', hsend', hqueue, hholding⟩ := sendOc_room h hd hroom
        rw [hsend] at hsend'
        obtain ⟨-, hqueue', rfl⟩ : ProcessRet.ok = .ok ∧ queue' = queue'' ∧ m' = m'' := by
          simpa using hsend'
        subst hqueue'
        have hcount := ih hholding
        rw [hqueue] at hcount
        simp only [List.length_append, List.length_singleton] at hcount
        omega
      · push Not at hvalid
        rw [sendOc_invalid hvalid] at hsend
        cases hsend

/-- In no state with a positive block size do both macros tell the truth. -/
lemma accounting_wrong (h : Holding queue m xs)
    (hused : shmpQueueUsedMemory queue = xs.length * queue.blockSize.toNat) {n : ℕ}
    (hmore : FurtherBlocks queue m n)
    (hsurplus : shmpQueueSurplusMemory queue = n * queue.blockSize.toNat) : False := by
  have hlt := h.ring.length_lt
  have hpos : 0 < queue.blockSize.toNat := by omega
  have hcount := hmore.count h
  rw [usedMemory_eq h] at hused
  rw [surplusMemory_eq h] at hsurplus
  have hused := Nat.eq_of_mul_eq_mul_right hpos hused
  have hsurplus := Nat.eq_of_mul_eq_mul_right hpos hsurplus
  by_cases hnil : xs = []
  · subst hnil
    rw [if_pos rfl] at hsurplus
    simp only [List.length_nil] at hcount
    omega
  · rw [if_neg hnil] at hused hsurplus
    omega

/-! ### Runs from the initialisation -/

/-- What every call keeps: the configured block size and base, and, for a block size that is not
stored as zero, a ring that holds the pending blocks. -/
structure RingInv (config : SharedMemoryPoolQueueConfig) (s : RingState) : Prop where
  blockSize : s.queue.blockSize = config.blockSize.toUInt16
  virtAddr : s.queue.virtAddr1 = config.virtAddr
  idle : config.blockSize.toUInt16 = 0 → s.sent = [] ∧ s.received = []
  holding : config.blockSize.toUInt16 ≠ 0 →
    s.received.length ≤ s.sent.length ∧ Holding s.queue s.mem s.pending

/-- A queue with block size zero refuses every call. -/
lemma ringStep_idle (h : s.queue.blockSize = 0) (op : RingOp) : ringStep s op = s := by
  cases op with
  | send data =>
      have hinvalid : ∀ d, data = some d → ¬ Valid s.queue d := by
        rintro d - ⟨hne, hlen⟩
        rw [h] at hlen
        exact hne (List.length_eq_zero_iff.mp (by simpa using hlen))
      simp only [ringStep, sendOc_invalid hinvalid]
  | recv outputs =>
      have hrefused : sharedMemPoolQueueRecvZc (some s.queue) outputs =
          (.error, none, some s.queue) := by
        rw [sharedMemPoolQueueRecvZc]
        by_cases hout : outputs = false
        · rw [if_pos hout]
        · rw [if_neg hout, if_pos h]
      simp only [ringStep, hrefused]

/-- **The step**: every call keeps the invariant. -/
lemma RingInv.step (h : RingInv config s) (op : RingOp) : RingInv config (ringStep s op) := by
  -- without blocks no operation does anything
  by_cases hzero : config.blockSize.toUInt16 = 0
  · rw [ringStep_idle (by rw [h.blockSize, hzero])]
    exact h
  obtain ⟨hle, hholding⟩ := h.holding hzero
  cases op with
  | send data =>
      by_cases hvalid : ∃ d, data = some d ∧ Valid s.queue d
      · obtain ⟨d, rfl, hd⟩ := hvalid
        -- a ring of n blocks holds n - 1, so that a full one differs from an empty one
        by_cases hfull : s.pending.length + 1 = s.queue.blockSize.toNat
        · simp only [ringStep, sendOc_full hholding hd hfull]
          exact h
        · obtain ⟨queue', m', hsend, hqueue, hholding'⟩ := sendOc_room hholding hd hfull
          simp only [ringStep, hsend]
          exact
            { blockSize := by rw [hqueue]; exact h.blockSize
              virtAddr := by rw [hqueue]; exact h.virtAddr
              idle := fun h0 => absurd h0 hzero
              holding := by
                intro _
                refine ⟨by simp only [List.length_append]; omega, ?_⟩
                have hdrop : (s.sent ++ [d]).drop s.received.length = s.pending ++ [d] :=
                  List.drop_append_of_le_length hle
                simp only [RingState.pending, Option.toList_some, hdrop]
                exact hholding' }
      · push Not at hvalid
        simp only [ringStep, sendOc_invalid hvalid]
        exact h
  | recv outputs =>
      cases outputs with
      | false =>
          simp only [ringStep, recvZc_null]
          exact h
      | true =>
          cases hpending : s.pending with
          | nil =>
              rw [hpending] at hholding
              simp only [ringStep, recvZc_empty hholding]
              exact h
          | cons d xs =>
              rw [hpending] at hholding
              obtain ⟨queue', hrecv, hqueue, hholding'⟩ := recvZc_head hholding
              have hlt : s.received.length < s.sent.length := by
                have hlen := congrArg List.length hpending
                simp only [RingState.pending, List.length_drop, List.length_cons] at hlen
                omega
              have hdrop : s.sent.drop (s.received.length + 1) = xs := by
                rw [← List.drop_drop]
                simp only [RingState.pending] at hpending
                rw [hpending]
                rfl
              simp only [ringStep, hrecv]
              exact
                { blockSize := by rw [hqueue]; exact h.blockSize
                  virtAddr := by rw [hqueue]; exact h.virtAddr
                  idle := fun h0 => absurd h0 hzero
                  holding := by
                    intro _
                    simp only [RingState.pending, List.length_append, List.length_singleton,
                      hdrop]
                    exact ⟨hlt, hholding'⟩ }

/-- The state after an initialisation. -/
def ringStart (queue : SharedMemoryPoolQueue) (m : Mem) : RingState := ⟨queue, m, [], []⟩

/-- What a successful initialisation leaves: an empty ring with the block size as capacity. -/
lemma initialize_ok {queue₀ : SharedMemoryPoolQueue}
    (h : sharedMemPoolQueueInitialize (some queue₀) (some config) = (.ok, some queue)) :
    queue.blockSize = config.blockSize.toUInt16 ∧ queue.capacity = config.blockSize.toUInt16 ∧
      queue.virtAddr1 = config.virtAddr ∧ queue.header = 0 ∧ queue.tail = 0 := by
  rw [sharedMemPoolQueueInitialize] at h
  by_cases hpool : config.pool = none
  · rw [if_pos hpool] at h
    cases h
  by_cases hsize : config.blockSize = 0
  · rw [if_neg hpool, if_pos hsize] at h
    cases h
  rw [if_neg hpool, if_neg hsize] at h
  obtain rfl := Option.some.inj (Prod.mk.inj h).2
  exact ⟨rfl, rfl, rfl, rfl, rfl⟩

lemma ringInv_start {queue₀ : SharedMemoryPoolQueue} (m : Mem)
    (h : sharedMemPoolQueueInitialize (some queue₀) (some config) = (.ok, some queue)) :
    RingInv config (ringStart queue m) := by
  obtain ⟨hsize, hcap, hvirt, hheader, htail⟩ := initialize_ok h
  refine ⟨hsize, hvirt, fun _ => ⟨rfl, rfl⟩, fun hne => ⟨le_rfl, ?_⟩⟩
  have hpos : 0 < queue.blockSize.toNat := by
    rw [hsize]
    exact Nat.pos_of_ne_zero fun h0 => hne (UInt16.toNat_inj.mp h0)
  refine ⟨hcap.trans hsize.symm, ?_⟩
  show Ring.Repr queue.blockSize.toNat queue.header.toNat queue.tail.toNat _ []
  rw [hheader, htail]
  exact Ring.Repr.nil hpos

/-- **The run**: the invariant holds in every reachable state. -/
lemma ringInv_of_run {queue₀ : SharedMemoryPoolQueue} {m : Mem} {ops : List RingOp}
    (h : sharedMemPoolQueueInitialize (some queue₀) (some config) = (.ok, some queue))
    (hrun : Runs (fun s op s' => s' = ringStep s op) (ringStart queue m) ops s) :
    RingInv config s := by
  refine hrun.invariant (RingInv config) ?_ (ringInv_start m h)
  rintro s op s' hs rfl
  exact hs.step op

/-- **The ring is a FIFO with the right accounting** in a reachable state exactly when the
configured block size is a multiple of `65536`, which is stored as zero and has every call
refused. -/
theorem legacy_ring_iff (queue₀ queue : SharedMemoryPoolQueue)
    (config : SharedMemoryPoolQueueConfig)
    (hinit : sharedMemPoolQueueInitialize (some queue₀) (some config) = (.ok, some queue))
    (m : Mem) (ops : List RingOp) (s : RingState)
    (hrun : Runs (fun s op s' => s' = ringStep s op) (ringStart queue m) ops s) :
    RefinesFifo config s ↔ config.blockSize.toNat % 65536 = 0 := by
  have hinv := ringInv_of_run hinit hrun
  have hstored : config.blockSize.toUInt16 = 0 ↔ config.blockSize.toNat % 65536 = 0 := by
    rw [← UInt16.toNat_inj, UInt64.toNat_toUInt16]
    rfl
  rw [← hstored]
  constructor
  · intro hfifo
    by_contra hne
    obtain ⟨n, hmore, hsurplus⟩ := hfifo.surplus
    exact accounting_wrong (hinv.holding hne).2 hfifo.used hmore hsurplus
  · intro hzero
    obtain ⟨hsent, hreceived⟩ := hinv.idle hzero
    have hblock : s.queue.blockSize = 0 := hinv.blockSize.trans hzero
    have hpending : s.pending = [] := by rw [RingState.pending, hsent, List.drop_nil]
    exact
      { no_extra := by rw [hsent, hreceived]
        in_order := by
          intro i d block hd
          rw [hsent] at hd
          simp at hd
        bounded := by rw [hpending]; exact Nat.zero_le _
        used := by simp [shmpQueueUsedMemory, hpending, hblock]
        surplus := by
          refine ⟨0, .refused fun data => ?_, by simp [shmpQueueSurplusMemory, hblock]⟩
          have hinvalid : ∀ d, data = some d → ¬ Valid s.queue d := by
            rintro d - ⟨hne, hlen⟩
            rw [hblock] at hlen
            exact hne (List.length_eq_zero_iff.mp (by simpa using hlen))
          rw [sendOc_invalid hinvalid]
          simp }

/-- A ring of blocks of eight bytes, configured for four of them. -/
def sampleConfig : SharedMemoryPoolQueueConfig where
  pool := some 1
  phyAddr := 0xA000
  virtAddr := 0x10000
  capacity := 4
  blockSize := 8

/-- The queue that the initialisation leaves for it. -/
def sampleQueue : SharedMemoryPoolQueue where
  mapMode1 := 0
  header := 0
  tail := 0
  capacity := 8
  blockSize := 8
  phyAddr := 0xA000
  virtAddr1 := 0x10000
  table1 := fun _ => 0
  pool := some 1

/-- The ring of the sample is wrong from its first state on. -/
theorem legacy_ring_start :
    sharedMemPoolQueueInitialize (some sampleQueue) (some sampleConfig) =
        (.ok, some sampleQueue) ∧
      ¬ RefinesFifo sampleConfig (ringStart sampleQueue fun _ => 0) := by
  have hinit : sharedMemPoolQueueInitialize (some sampleQueue) (some sampleConfig) =
      (.ok, some sampleQueue) := rfl
  refine ⟨hinit, fun hfifo => ?_⟩
  have hzero := (legacy_ring_iff sampleQueue sampleQueue sampleConfig hinit (fun _ => 0) []
    (ringStart sampleQueue fun _ => 0) .nil).mp hfifo
  exact absurd hzero (by decide)

/-- A block of one byte is sent and received: the block that arrives is the untouched slot
after it. -/
theorem legacy_ring_stale :
    ∃ s, Runs (fun s op s' => s' = ringStep s op) (ringStart sampleQueue fun _ => 0)
        [.send (some [1]), .recv true] s ∧
      s.sent = [[1]] ∧ s.received = [[0, 0, 0, 0, 0, 0, 0, 0]] ∧ ¬ RefinesFifo sampleConfig s := by
  refine ⟨ringStep (ringStep (ringStart sampleQueue fun _ => 0) (.send (some [1]))) (.recv true),
    .cons rfl (.cons rfl .nil), by decide, by decide, fun hfifo => ?_⟩
  have hfirst := hfifo.in_order 0 [1] [0, 0, 0, 0, 0, 0, 0, 0] (by decide) (by decide)
  exact absurd hfirst (by decide)

/-! ### What is received instead -/

/-- **The oldest block is skipped.** Where the blocks fit and the tail is not at the last slot,
a receive returns the second of the pending blocks. -/
theorem recv_skips_first {queue₀ : SharedMemoryPoolQueue} {ops : List RingOp}
    (hinit : sharedMemPoolQueueInitialize (some queue₀) (some config) = (.ok, some queue))
    (hrun : Runs (fun s op s' => s' = ringStep s op) (ringStart queue m) ops s)
    {d₁ d₂ : List UInt8} {rest : List (List UInt8)} (hpending : s.pending = d₁ :: d₂ :: rest)
    (hfits : Fits s.queue) (hwrap : s.queue.tail.toNat + 1 < s.queue.blockSize.toNat) :
    ∃ block, (ringStep s (.recv true)).received = s.received ++ [block] ∧
      block.take d₂.length = d₂ := by
  have hinv := ringInv_of_run hinit hrun
  have hne : config.blockSize.toUInt16 ≠ 0 := by
    intro hzero
    rw [RingState.pending, (hinv.idle hzero).1, List.drop_nil] at hpending
    cases hpending
  obtain ⟨-, hholding⟩ := hinv.holding hne
  rw [hpending] at hholding
  obtain ⟨queue', hrecv, -⟩ := recvZc_head hholding
  refine ⟨load s.mem (slot s.queue (s.queue.tail.toNat + 1)) s.queue.blockSize.toNat, ?_, ?_⟩
  · simp only [ringStep, hrecv, blockAddr_eq hfits hwrap]
  · have hsecond := hholding.ring.holds 1 d₂ rfl
    rw [Ring.index, if_pos hwrap] at hsecond
    obtain ⟨hlen, hload⟩ := hsecond hfits
    rw [take_load, Nat.min_eq_left hlen]
    exact hload

/-- **The slot that is allocated is the one that is received**: with contiguous addresses,
`SHM_POOL_QUEUE_ALLOC_FROM_HEADER` hands out the address that a receive returns once its tail is
where the header was. -/
theorem alloc_then_recv (hmode : queue.mapMode1 = 0)
    (hroom : UInt16.ofNat ((queue.header.toNat + 1) % queue.capacity.toNat) ≠ queue.tail)
    (hvirt : queue'.virtAddr1 = queue.virtAddr1) (hsize : queue'.blockSize = queue.blockSize)
    (htail : queue'.tail = queue.header) (hne : queue'.blockSize ≠ 0)
    (hsome : queue'.header ≠ queue'.tail) :
    ∃ addr, (shmPoolQueueAllocFromHeader queue).map Prod.fst = some addr ∧
      (sharedMemPoolQueueRecvZc (some queue') true).2.1 = some (addr, queue.blockSize.toNat) := by
  refine ⟨blockAddr queue.virtAddr1 (queue.header.toNat + 1) queue.blockSize.toNat, ?_, ?_⟩
  · rw [shmPoolQueueAllocFromHeader]
    simp only [if_pos hroom, if_pos hmode, Option.map_some]
  · rw [sharedMemPoolQueueRecvZc, if_neg (by simp), if_neg hne, if_neg hsome]
    simp only [htail, hvirt, hsize]

/-- A rollback undoes an allocation. -/
theorem alloc_then_rollback (hmode : queue.mapMode1 = 0)
    (hhead : queue.header.toNat < queue.capacity.toNat)
    (hroom : UInt16.ofNat ((queue.header.toNat + 1) % queue.capacity.toNat) ≠ queue.tail) :
    (shmPoolQueueAllocFromHeader queue).map (fun r => shmPoolQueueHeadRollback r.2) =
      some queue := by
  have hlt := queue.capacity.toNat_lt
  rw [shmPoolQueueAllocFromHeader]
  simp only [if_pos hroom, if_pos hmode, Option.map_some, shmPoolQueueHeadRollback,
    if_neg hroom]
  have hback : (if UInt16.ofNat ((queue.header.toNat + 1) % queue.capacity.toNat) = 0 then
      queue.capacity - 1
      else UInt16.ofNat ((queue.header.toNat + 1) % queue.capacity.toNat) - 1) = queue.header := by
    rw [Ring.succ_mod hhead, Ring.index]
    by_cases hend : queue.header.toNat + 1 < queue.capacity.toNat
    · have hnext : (UInt16.ofNat (queue.header.toNat + 1)).toNat = queue.header.toNat + 1 := by
        rw [UInt16.toNat_ofNat']
        exact Nat.mod_eq_of_lt (by omega)
      have hne : UInt16.ofNat (queue.header.toNat + 1) ≠ 0 := by
        intro h0
        rw [h0] at hnext
        simp at hnext
      rw [if_pos hend, if_neg hne, ← UInt16.toNat_inj, UInt16.toNat_sub_of_le, hnext]
      · rfl
      · rw [UInt16.le_iff_toNat_le, hnext]
        exact Nat.le_add_left 1 _
    · have hzero : queue.header.toNat + 1 - queue.capacity.toNat = 0 := by omega
      rw [if_neg hend, hzero, if_pos (show UInt16.ofNat 0 = 0 from rfl), ← UInt16.toNat_inj,
        UInt16.toNat_sub_of_le]
      · show queue.capacity.toNat - 1 = queue.header.toNat
        omega
      · rw [UInt16.le_iff_toNat_le]
        show 1 ≤ queue.capacity.toNat
        omega
  rw [hback]

end SharedMem

end Frontend
