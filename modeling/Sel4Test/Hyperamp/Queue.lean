import Mathlib.Tactic
import Sel4Test.Lib.ByteMem

/-!
The HyperAMP shared-memory queue of `front/src/hyperamp_shm_queue.c`.

A queue is a packed control block of 4068 bytes, `HyperampShmQueue`, at an
address `queue`, and an array of data slots of `block_size` bytes at a base
address which every call passes in. Both zones see the same memory, so the
operations are functions on `Mem`. An operation that finds the spinlock taken
never returns when nobody else runs; this is the result `none`.

The fields of the control block are read by the definitions of the next section,
under their `offsetof`. The tables `table1` and `table2` (offsets 36 to 4035)
are not read by any queue operation and have no accessor. Cache maintenance and
barriers have no effect on one coherent memory and are left out.
-/

namespace Hyperamp

open ByteMem

/-- The return codes `HYPERAMP_OK`, `HYPERAMP_ERROR` and `HYPERAMP_AGAIN`. -/
inductive HyperampRet
  | ok
  | error
  | again
  deriving DecidableEq, Repr

/-! ### The control block -/

def header (m : Mem) (queue : ℕ) : ℕ := readLE m (queue + 2) 2

def tail (m : Mem) (queue : ℕ) : ℕ := readLE m (queue + 4) 2

def capacity (m : Mem) (queue : ℕ) : ℕ := readLE m (queue + 6) 2

def blockSize (m : Mem) (queue : ℕ) : ℕ := readLE m (queue + 8) 2

def enqueueCount (m : Mem) (queue : ℕ) : ℕ := readLE m (queue + 4060) 4

def dequeueCount (m : Mem) (queue : ℕ) : ℕ := readLE m (queue + 4064) 4

/-- The address of the spinlock in the control block, `HYPERAMP_QUEUE_LOCK`. -/
def queueLock (queue : ℕ) : ℕ := queue + 4036

/-- The size of the packed control block. -/
def queueSize : ℕ := 4068

/-- `HYPERAMP_QUEUE_MAGIC`. -/
def hyperampQueueMagic : ℕ := 0x48415150

/-! ### The spinlock -/

def lockValue (m : Mem) (lock : ℕ) : ℕ := readLE m lock 4

def ownerZoneId (m : Mem) (lock : ℕ) : ℕ := readLE m (lock + 4) 4

def lockCount (m : Mem) (lock : ℕ) : ℕ := readLE m (lock + 8) 4

def contentionCount (m : Mem) (lock : ℕ) : ℕ := readLE m (lock + 12) 4

/-- `hyperamp_spinlock_lock`: the load-exclusive loop leaves only when it reads
`0`, then the owner is recorded and the acquisitions are counted. -/
def hyperampSpinlockLock (m : Mem) (lock zoneId : ℕ) : Option Mem :=
  if lock = 0 then some m
  else if lockValue m lock = 0 then
    let m := writeLE m lock 4 1
    let m := writeLE m (lock + 4) 4 zoneId
    some (writeLE m (lock + 8) 4 (lockCount m lock + 1))
  else none

/-- `hyperamp_spinlock_unlock`: the owner is cleared, then the lock word. -/
def hyperampSpinlockUnlock (m : Mem) (lock : ℕ) : Mem :=
  if lock = 0 then m else writeLE (writeLE m (lock + 4) 4 0) lock 4 0

/-! ### Enqueue and dequeue -/

/-- The index after `i`: a 16-bit increment, then the wrap at the capacity. -/
def nextIndex (capacity i : ℕ) : ℕ :=
  let new := (i + 1) % 2 ^ 16
  if capacity ≤ new then new - capacity else new

/-- The 64-bit address of slot `i`; slot `0` lies one block after the base. -/
def slotAddr (virtBase i blockSize : ℕ) : ℕ := (virtBase + (i + 1) * blockSize) % 2 ^ 64

/-- The part of `hyperamp_queue_enqueue` that runs under the lock. -/
def enqueueLocked (m : Mem) (queue : ℕ) (data : List UInt8)
    (virtBase capacity blockSize : ℕ) : HyperampRet × Mem :=
  let newHeader := nextIndex capacity (header m queue)
  if newHeader = tail m queue then (.again, m)
  else
    let m := store m (slotAddr virtBase (header m queue) blockSize) data
    let m := writeLE m (queue + 2) 2 newHeader
    (.ok, writeLE m (queue + 4060) 4 (enqueueCount m queue + 1))

/-- `hyperamp_queue_enqueue`; `none` for `data` is the null pointer, and
`data_len` is the length of the list. -/
def hyperampQueueEnqueue (m : Mem) (queue zoneId : ℕ) (data : Option (List UInt8))
    (virtBase : ℕ) : Option (HyperampRet × Mem) :=
  match data with
  | none => some (.error, m)
  | some data =>
      if queue = 0 ∨ data.length = 0 then some (.error, m)
      else if blockSize m queue < data.length then some (.error, m)
      else do
        -- block size and capacity are read before the lock is taken
        let locked ← hyperampSpinlockLock m (queueLock queue) zoneId
        let (ret, m') :=
          enqueueLocked locked queue data virtBase (capacity m queue) (blockSize m queue)
        return (ret, hyperampSpinlockUnlock m' (queueLock queue))

/-- The part of `hyperamp_queue_dequeue` that runs under the lock, with the
bytes it copies out. -/
def dequeueLocked (m : Mem) (queue maxLen virtBase : ℕ) : HyperampRet × List UInt8 × Mem :=
  if tail m queue = header m queue then (.again, [], m)
  else
    let readAddr := slotAddr virtBase (tail m queue) (blockSize m queue)
    let readLen := if maxLen < blockSize m queue then maxLen else blockSize m queue
    let data := load m readAddr readLen
    let newTail := nextIndex (capacity m queue) (tail m queue)
    let m := writeLE m (queue + 4) 2 newTail
    (.ok, data, writeLE m (queue + 4064) 4 (dequeueCount m queue + 1))

/-- `hyperamp_queue_dequeue`; `dataPtr` says whether the destination pointer is
non-null. The bytes copied out are returned and `*actual_len` is their number. -/
def hyperampQueueDequeue (m : Mem) (queue zoneId : ℕ) (dataPtr : Bool)
    (maxLen virtBase : ℕ) : Option (HyperampRet × List UInt8 × Mem) :=
  if queue = 0 ∨ dataPtr = false ∨ maxLen = 0 then some (.error, [], m)
  else do
    let locked ← hyperampSpinlockLock m (queueLock queue) zoneId
    let (ret, data, m') := dequeueLocked locked queue maxLen virtBase
    return (ret, data, hyperampSpinlockUnlock m' (queueLock queue))

/-! ### Initialisation -/

/-- `HyperampQueueConfig`, less its reserved field. -/
structure HyperampQueueConfig where
  mapMode : UInt16
  capacity : UInt16
  blockSize : UInt16
  phyAddr : UInt64
  virtAddr : UInt64
  deriving DecidableEq, Repr

/-- Byte stores at consecutive offsets from `off` on, one for each byte. -/
def byteStores (off : ℕ) (bytes : List UInt8) : List (ℕ × List UInt8) :=
  bytes.zipIdx.map fun p => (off + p.2, [p.1])

/-- The stores of the creator branch of `hyperamp_queue_init` in program order,
by offset in the control block. All are stores of one byte but those of
`hyperamp_spinlock_init`, which are words. -/
def initStores (config : HyperampQueueConfig) : List (ℕ × List UInt8) :=
  byteStores 0 [config.mapMode.toUInt8, config.mapMode.toUInt8] ++
  byteStores 2 [0, 0] ++
  byteStores 4 [0, 0] ++
  byteStores 6 (toLE 2 config.capacity.toNat) ++
  byteStores 8 (toLE 2 config.blockSize.toNat) ++
  byteStores 10 [0, 0] ++
  byteStores 12 (toLE 8 config.phyAddr.toNat) ++
  byteStores 20 (toLE 8 config.virtAddr.toNat) ++
  byteStores 28 (toLE 8 0) ++
  [(4036, toLE 4 0), (4040, toLE 4 0), (4044, toLE 4 0), (4048, toLE 4 0)] ++
  byteStores 4052 (toLE 4 hyperampQueueMagic) ++
  byteStores 4056 (toLE 4 1) ++
  byteStores 4060 (toLE 4 0) ++
  byteStores 4064 (toLE 4 0)

/-- The memory after the first `k` stores of the creator. -/
def initUpTo (m : Mem) (queue : ℕ) (config : HyperampQueueConfig) (k : ℕ) : Mem :=
  storeAll m (((initStores config).take k).map fun w => (queue + w.1, w.2))

/-- `hyperamp_queue_init`; `none` for `config` is the null pointer. A zone that
is not the creator only publishes its own virtual address. -/
def hyperampQueueInit (m : Mem) (queue : ℕ) (config : Option HyperampQueueConfig)
    (isCreator : Bool) : HyperampRet × Mem :=
  match config with
  | none => (.error, m)
  | some config =>
      if queue = 0 ∨ config.blockSize = 0 ∨ config.capacity = 0 then (.error, m)
      else if isCreator then (.ok, initUpTo m queue config (initStores config).length)
      else (.ok, writeLE m (queue + 28) 8 config.virtAddr.toNat)

/-- `hyperamp_queue_is_initialized`: a non-zero capacity stands for the magic
number, which lies at the end of the block. -/
def hyperampQueueIsInitialized (m : Mem) (queue : ℕ) : Bool :=
  queue ≠ 0 && 0 < capacity m queue

end Hyperamp
