import Sel4Test.Hyperamp.ByteQueue

/-!
The queue of the front end: `front/include/hyperamp_shm_queue.h` and
`front/src/hyperamp_shm_queue.c`.

The functions are translated statement by statement, with the buffers of the caller as addresses
in the same memory, so that a buffer may overlap the queue. The lock is that of aarch64. Cache
maintenance, barriers and output are left out. Each function is then shown to do what the function
of `Sel4Test.Hyperamp.ByteQueue` does.
-/

namespace Hyperamp.FrontQueue

open ByteMem
open Function (update)

/-! ### The header file -/

/-- `HYPERAMP_OK`. -/
def hyperampOk : ℤ := 0

/-- `HYPERAMP_ERROR`. -/
def hyperampError : ℤ := -1

/-- `HYPERAMP_AGAIN`. -/
def hyperampAgain : ℤ := 1

/-- `HYPERAMP_MAX_MAP_TABLE_ENTRIES`. -/
def hyperampMaxMapTableEntries : ℕ := 125

/-- `HYPERAMP_QUEUE_MAGIC`. -/
def hyperampQueueMagic : ℕ := 0x48415150

/-- `HyperampSpinlock`. -/
def spinlock : List (SpinlockField × ℕ) :=
  [(.lockValue, 4), (.ownerZoneId, 4), (.lockCount, 4), (.contentionCount, 4)]

/-- `HyperampMapTableEntry`. -/
def mapTableEntry : List (MapTableField × ℕ) := [(.virtAddr, 8), (.phyAddr, 8)]

/-- `HyperampShmQueue`, which is packed. -/
def shmQueue : List (QueueField × ℕ) :=
  [(.mapMode1, 1), (.mapMode2, 1), (.header, 2), (.tail, 2), (.capacity, 2), (.blockSize, 2),
    (.reserved, 2), (.phyAddr, 8), (.virtAddr1, 8), (.virtAddr2, 8),
    (.table1, hyperampMaxMapTableEntries * packedSize mapTableEntry),
    (.table2, hyperampMaxMapTableEntries * packedSize mapTableEntry),
    (.queueLock, packedSize spinlock), (.magic, 4), (.version, 4), (.enqueueCount, 4),
    (.dequeueCount, 4)]

/-- `offsetof(HyperampShmQueue, field)`. -/
def offsetof (field : QueueField) : ℕ := packedOffset shmQueue field

/-- `HYPERAMP_QUEUE_LOCK`. -/
def hyperampQueueLock (queue : ℕ) : ℕ := queue + offsetof .queueLock

/-! ### The spinlock -/

/-- `&lock->field`. -/
def lockField (lock : ℕ) (field : SpinlockField) : ℕ := lock + packedOffset spinlock field

/-- `hyperamp_spinlock_init`. -/
def spinlockInit (m : Mem) (lock : ℕ) : Mem :=
  if lock = 0 then m
  else
    let m := writeLE m (lockField lock .lockValue) 4 0
    let m := writeLE m (lockField lock .ownerZoneId) 4 0
    let m := writeLE m (lockField lock .lockCount) 4 0
    writeLE m (lockField lock .contentionCount) 4 0

/-- `hyperamp_spinlock_lock`; there is no result while the lock is taken. -/
def spinlockLock (m : Mem) (lock zoneId : ℕ) : Option Mem :=
  if lock = 0 then some m
  else if readLE m (lockField lock .lockValue) 4 ≠ 0 then none
  else
    let m := writeLE m (lockField lock .lockValue) 4 1
    let m := writeLE m (lockField lock .ownerZoneId) 4 zoneId
    some (writeLE m (lockField lock .lockCount) 4 (readLE m (lockField lock .lockCount) 4 + 1))

/-- `hyperamp_spinlock_unlock`. -/
def spinlockUnlock (m : Mem) (lock : ℕ) : Mem :=
  if lock = 0 then m
  else
    let m := writeLE m (lockField lock .ownerZoneId) 4 0
    writeLE m (lockField lock .lockValue) 4 0

/-! ### Secure memory operations -/

/-- `hyperamp_safe_memcpy`. -/
def safeMemcpy (m : Mem) (dst src len : ℕ) : Mem :=
  (List.range len).foldl (fun m i => update m (dst + i) (m (src + i))) m

/-- `hyperamp_safe_read_u16`. -/
def safeReadU16 (m : Mem) (addr offset : ℕ) : ℕ :=
  (List.range 2).foldl (fun val i => val ||| (m (addr + offset + i)).toNat <<< (i * 8)) 0

/-- `hyperamp_safe_read_u32`. -/
def safeReadU32 (m : Mem) (addr offset : ℕ) : ℕ :=
  (List.range 4).foldl (fun val i => val ||| (m (addr + offset + i)).toNat <<< (i * 8)) 0

/-! ### The queue -/

/-- `hyperamp_queue_is_initialized`. -/
def queueIsInitialized (m : Mem) (queue : ℕ) : ℤ :=
  if queue = 0 then 0
  else
    let capacityOffset := offsetof .capacity
    let capacity := (List.range 2).foldl (fun capacity i =>
      capacity ||| (m (queue + capacityOffset + i)).toNat <<< (i * 8)) 0
    if 0 < capacity then 1 else 0

/-- `hyperamp_queue_enqueue`. -/
def queueEnqueue (m : Mem) (queue zoneId data dataLen virtBase : ℕ) : Option (ℤ × Mem) :=
  if queue = 0 ∨ data = 0 ∨ dataLen = 0 then some (hyperampError, m)
  else
    let blockSize := safeReadU16 m queue (offsetof .blockSize)
    let capacity := safeReadU16 m queue (offsetof .capacity)
    if blockSize < dataLen then some (hyperampError, m)
    else do
      let m ← spinlockLock m (hyperampQueueLock queue) zoneId
      let header := safeReadU16 m queue (offsetof .header)
      let tail := safeReadU16 m queue (offsetof .tail)
      let newHeader := (header + 1) % 2 ^ 16
      let newHeader := if capacity ≤ newHeader then newHeader - capacity else newHeader
      if newHeader = tail then
        let m := spinlockUnlock m (hyperampQueueLock queue)
        return (hyperampAgain, m)
      else
        let writeAddr := (virtBase + (header + 1) * blockSize) % 2 ^ 64
        let m := safeMemcpy m writeAddr data dataLen
        let headerOffset := offsetof .header
        let m := update m (queue + headerOffset) (UInt8.ofNat (newHeader &&& 0xFF))
        let m := update m (queue + headerOffset + 1) (UInt8.ofNat (newHeader >>> 8 &&& 0xFF))
        let enqueueOffset := offsetof .enqueueCount
        let enqueueCount := safeReadU32 m queue enqueueOffset
        let enqueueCount := (enqueueCount + 1) % 2 ^ 32
        let m := (List.range 4).foldl (fun m i => update m (queue + enqueueOffset + i)
          (UInt8.ofNat (enqueueCount >>> (i * 8) &&& 0xFF))) m
        let m := spinlockUnlock m (hyperampQueueLock queue)
        return (hyperampOk, m)

/-- `hyperamp_queue_dequeue`; `actualLen` is `0` for null. -/
def queueDequeue (m : Mem) (queue zoneId data maxLen actualLen virtBase : ℕ) : Option (ℤ × Mem) :=
  if queue = 0 ∨ data = 0 ∨ maxLen = 0 then some (hyperampError, m)
  else do
    let m ← spinlockLock m (hyperampQueueLock queue) zoneId
    let header := safeReadU16 m queue (offsetof .header)
    let tail := safeReadU16 m queue (offsetof .tail)
    let blockSize := safeReadU16 m queue (offsetof .blockSize)
    let capacity := safeReadU16 m queue (offsetof .capacity)
    if tail = header then
      let m := spinlockUnlock m (hyperampQueueLock queue)
      return (hyperampAgain, m)
    else
      let readAddr := (virtBase + (tail + 1) * blockSize) % 2 ^ 64
      let readLen := if maxLen < blockSize then maxLen else blockSize
      let m := safeMemcpy m data readAddr readLen
      let m := if actualLen ≠ 0 then writeLE m actualLen 8 readLen else m
      let newTail := (tail + 1) % 2 ^ 16
      let newTail := if capacity ≤ newTail then newTail - capacity else newTail
      let tailOffset := offsetof .tail
      let m := update m (queue + tailOffset) (UInt8.ofNat (newTail &&& 0xFF))
      let m := update m (queue + tailOffset + 1) (UInt8.ofNat (newTail >>> 8 &&& 0xFF))
      let dequeueOffset := offsetof .dequeueCount
      let dequeueCount := safeReadU32 m queue dequeueOffset
      let dequeueCount := (dequeueCount + 1) % 2 ^ 32
      let m := (List.range 4).foldl (fun m i => update m (queue + dequeueOffset + i)
        (UInt8.ofNat (dequeueCount >>> (i * 8) &&& 0xFF))) m
      let m := spinlockUnlock m (hyperampQueueLock queue)
      return (hyperampOk, m)

/-- The creator's branch of `hyperamp_queue_init`; `p` is the queue. -/
def queueCreate (m : Mem) (p : ℕ) (config : HyperampQueueConfig) : Mem :=
  let m := update m p config.mapMode.toUInt8
  let m := update m (p + 1) config.mapMode.toUInt8
  -- header, tail
  let m := update m (p + 2) 0
  let m := update m (p + 3) 0
  let m := update m (p + 4) 0
  let m := update m (p + 5) 0
  -- capacity, block_size
  let cap := config.capacity.toNat
  let m := update m (p + 6) (UInt8.ofNat (cap &&& 0xFF))
  let m := update m (p + 7) (UInt8.ofNat (cap >>> 8 &&& 0xFF))
  let bs := config.blockSize.toNat
  let m := update m (p + 8) (UInt8.ofNat (bs &&& 0xFF))
  let m := update m (p + 9) (UInt8.ofNat (bs >>> 8 &&& 0xFF))
  -- _reserved
  let m := update m (p + 10) 0
  let m := update m (p + 11) 0
  -- phy_addr, virt_addr1, virt_addr2
  let pa := config.phyAddr.toNat
  let m := (List.range 8).foldl
    (fun m i => update m (p + 12 + i) (UInt8.ofNat (pa >>> (i * 8) &&& 0xFF))) m
  let va := config.virtAddr.toNat
  let m := (List.range 8).foldl
    (fun m i => update m (p + 20 + i) (UInt8.ofNat (va >>> (i * 8) &&& 0xFF))) m
  let m := (List.range 8).foldl (fun m i => update m (p + 28 + i) 0) m
  let lockOffset := offsetof .queueLock
  let m := spinlockInit m (p + lockOffset)
  let magicOffset := offsetof .magic
  let magic := hyperampQueueMagic
  let m := (List.range 4).foldl
    (fun m i => update m (p + magicOffset + i) (UInt8.ofNat (magic >>> (i * 8) &&& 0xFF))) m
  let version := 1
  let m := (List.range 4).foldl
    (fun m i => update m (p + magicOffset + 4 + i) (UInt8.ofNat (version >>> (i * 8) &&& 0xFF))) m
  -- enqueue_count, dequeue_count
  let m := (List.range 4).foldl (fun m i => update m (p + magicOffset + 8 + i) 0) m
  (List.range 4).foldl (fun m i => update m (p + magicOffset + 12 + i) 0) m

/-- `hyperamp_queue_init`; `none` is the null pointer. -/
def queueInit (m : Mem) (queue : ℕ) (config : Option HyperampQueueConfig) (isCreator : Bool) :
    ℤ × Mem :=
  config.elim (hyperampError, m) fun config =>
    if queue = 0 then (hyperampError, m)
    else if config.blockSize = 0 ∨ config.capacity = 0 then (hyperampError, m)
    else if isCreator then (hyperampOk, queueCreate m queue config)
    else (hyperampOk, writeLE m (queue + offsetof .virtAddr2) 8 config.virtAddr.toNat)

/-! ### The functions on words -/

variable {m : Mem} {queue zoneId data virtBase : ℕ}

lemma layout : Layout offsetof := by
  constructor <;> rfl

lemma hyperampQueueLock_eq (queue : ℕ) : hyperampQueueLock queue = queueLock queue := by
  rw [hyperampQueueLock, layout.queueLock, queueLock]

lemma safeMemcpy_eq (m : Mem) (dst src len : ℕ) :
    safeMemcpy m dst src len = copyBytes m dst src len := rfl

lemma safeReadU16_eq (m : Mem) (addr offset : ℕ) :
    safeReadU16 m addr offset = readLE m (addr + offset) 2 :=
  readBytes_eq m (addr + offset) 2

lemma safeReadU32_eq (m : Mem) (addr offset : ℕ) :
    safeReadU32 m addr offset = readLE m (addr + offset) 4 :=
  readBytes_eq m (addr + offset) 4

lemma spinlockLock_eq (m : Mem) (lock zoneId : ℕ) :
    spinlockLock m lock zoneId = hyperampSpinlockLock m lock zoneId := by
  simp only [spinlockLock, hyperampSpinlockLock, ne_eq, ite_not]
  rfl

lemma spinlockUnlock_eq (m : Mem) (lock : ℕ) :
    spinlockUnlock m lock = hyperampSpinlockUnlock m lock := rfl

/-- **Enqueue.** -/
theorem queueEnqueue_eq (dataLen : ℕ) :
    queueEnqueue m queue zoneId data dataLen virtBase =
      Words.enqueue m queue zoneId data dataLen virtBase := by
  simp only [queueEnqueue, safeReadU16_eq, safeReadU32_eq, safeMemcpy_eq, spinlockLock_eq,
    spinlockUnlock_eq, hyperampQueueLock_eq, writeBytes_eq, update_word rfl, writeLE_mod,
    layout.header, layout.tail, layout.capacity, layout.blockSize, layout.enqueueCount]
  rw [Words.enqueue_branches]
  rfl

/-- **Dequeue.** -/
theorem queueDequeue_eq (maxLen actualLen : ℕ) :
    queueDequeue m queue zoneId data maxLen actualLen virtBase =
      Words.dequeue m queue zoneId data maxLen actualLen virtBase := by
  simp only [queueDequeue, safeReadU16_eq, safeReadU32_eq, safeMemcpy_eq, spinlockLock_eq,
    spinlockUnlock_eq, hyperampQueueLock_eq, writeBytes_eq, update_word rfl, writeLE_mod, ne_eq,
    ite_not, layout.header, layout.tail, layout.capacity, layout.blockSize, layout.dequeueCount]
  rw [Words.dequeue_branches]
  rfl

/-- The stores of the creator. -/
lemma queueCreate_eq (config : HyperampQueueConfig) :
    queueCreate m queue config = Words.create m queue config := by
  have hlock : queue + offsetof .queueLock ≠ 0 := queueLock_ne_zero queue
  simp only [queueCreate, spinlockInit, if_neg hlock, writeBytes_eq, zeroBytes_eq, update_word rfl,
    update_pair rfl]
  rfl

/-- **Initialisation.** -/
theorem queueInit_eq (config : Option HyperampQueueConfig) (isCreator : Bool) :
    queueInit m queue config isCreator = Words.init m queue config isCreator := by
  simp only [queueInit, queueCreate_eq]
  rfl

/-- **The test of initialisation.** -/
theorem queueIsInitialized_eq : queueIsInitialized m queue = Words.isInitialized m queue := by
  simp only [queueIsInitialized, readBytes_eq]
  rfl

end Hyperamp.FrontQueue
