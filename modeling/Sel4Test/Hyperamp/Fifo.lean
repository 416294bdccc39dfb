import Sel4Test.Hyperamp.QueueSpec

/-!
One queue with a slot array of its own is a bounded FIFO.

The two zones call `hyperamp_queue_enqueue` and `hyperamp_queue_dequeue` in any
order; each call runs under the queue's lock, so a run is a list of calls. The
abstract queue is a list of pending messages with at most `c - 1` members
(`FifoStep`, `FifoRun`).

* `QueueInv` is the simulation relation: the ring of slots represents the
  pending messages, the lock is free and the counters agree.
* `call_simulates`: every call keeps the relation and takes a step of the
  abstract queue.
* `FifoRun.conserved`: over a run of the abstract queue the pending messages are
  the accepted ones less the delivered ones, in order.
* `hyperampQueue_refines_fifo` puts these together from `hyperamp_queue_init` on.

A dequeue whose buffer is shorter than the message cuts the message to the
buffer: `dequeue_cuts_message` shows such a run.
-/

namespace Hyperamp

open ByteMem

/-! ### Calls and runs -/

/-- A call that one of the zones makes. -/
inductive Call
  | enqueue (zoneId : ℕ) (data : Option (List UInt8))
  | dequeue (zoneId : ℕ) (dataPtr : Bool) (maxLen : ℕ)
  deriving DecidableEq, Repr

/-- A call with its return code and the bytes it copied out. -/
structure Event where
  call : Call
  ret : HyperampRet
  bytes : List UInt8
  deriving DecidableEq, Repr

/-- One call on the queue. -/
def Call.exec (queue virtBase : ℕ) (m : Mem) : Call → Option (HyperampRet × List UInt8 × Mem)
  | .enqueue zoneId data => do
      let (ret, m') ← hyperampQueueEnqueue m queue zoneId data virtBase
      return (ret, [], m')
  | .dequeue zoneId dataPtr maxLen => hyperampQueueDequeue m queue zoneId dataPtr maxLen virtBase

/-- A run of calls, with the log of what they returned. -/
def runCalls (queue virtBase : ℕ) : List Call → Mem → Option (List Event × Mem)
  | [], m => some ([], m)
  | call :: calls, m => do
      let (ret, bytes, m') ← call.exec queue virtBase m
      let (log, m'') ← runCalls queue virtBase calls m'
      return (⟨call, ret, bytes⟩ :: log, m'')

/-- The message a successful enqueue put in. -/
def Event.enqueued? : Event → Option (List UInt8)
  | ⟨.enqueue _ data, .ok, _⟩ => data
  | _ => none

/-- The buffer length and the bytes of a successful dequeue. -/
def Event.dequeued? : Event → Option (ℕ × List UInt8)
  | ⟨.dequeue _ _ maxLen, .ok, bytes⟩ => some (maxLen, bytes)
  | _ => none

/-- The messages of the successful enqueues, in order. -/
def enqueued (log : List Event) : List (List UInt8) := log.filterMap Event.enqueued?

/-- The buffer lengths and blocks of the successful dequeues, in order. -/
def dequeued (log : List Event) : List (ℕ × List UInt8) := log.filterMap Event.dequeued?

/-- The messages put in and not taken out. -/
def pending (log : List Event) : List (List UInt8) :=
  (enqueued log).drop (dequeued log).length

/-! ### The abstract queue -/

/-- An enqueue whose arguments pass the checks for block size `b`. -/
def ValidData (b : ℕ) (data : Option (List UInt8)) : Prop :=
  ∃ d, data = some d ∧ d ≠ [] ∧ d.length ≤ b

/-- A step of the bounded FIFO with `c` slots of `b` bytes: pending messages,
call, return code, bytes copied out, pending messages after the call. The block
copied out by a dequeue ends in bytes the FIFO says nothing about. -/
inductive FifoStep (c b : ℕ) :
    List (List UInt8) → Call → HyperampRet → List UInt8 → List (List UInt8) → Prop
  | enqueueInvalid {xs zone data} (h : ¬ ValidData b data) :
      FifoStep c b xs (.enqueue zone data) .error [] xs
  | enqueueFull {xs zone data} (h : ValidData b data) (hfull : xs.length = c - 1) :
      FifoStep c b xs (.enqueue zone data) .again [] xs
  | enqueueRoom {xs zone d} (h : ValidData b (some d)) (hroom : xs.length < c - 1) :
      FifoStep c b xs (.enqueue zone (some d)) .ok [] (xs ++ [d])
  | dequeueInvalid {xs zone dataPtr maxLen} (h : dataPtr = false ∨ maxLen = 0) :
      FifoStep c b xs (.dequeue zone dataPtr maxLen) .error [] xs
  | dequeueEmpty {zone maxLen} (h : maxLen ≠ 0) :
      FifoStep c b [] (.dequeue zone true maxLen) .again [] []
  | dequeueHead {d xs zone maxLen block} (h : maxLen ≠ 0)
      (hlen : block.length = min maxLen b) (hdata : block.take d.length = d.take maxLen) :
      FifoStep c b (d :: xs) (.dequeue zone true maxLen) .ok block xs

/-- A run of the bounded FIFO from some pending messages to others. -/
inductive FifoRun (c b : ℕ) : List (List UInt8) → List Event → List (List UInt8) → Prop
  | nil {xs} : FifoRun c b xs [] xs
  | cons {xs ys zs e log} (hstep : FifoStep c b xs e.call e.ret e.bytes ys)
      (hrun : FifoRun c b ys log zs) : FifoRun c b xs (e :: log) zs

/-- A run may be continued by one step. -/
lemma FifoRun.snoc {c b : ℕ} {xs ys zs : List (List UInt8)} {log : List Event} {e : Event}
    (h : FifoRun c b xs log ys) (hstep : FifoStep c b ys e.call e.ret e.bytes zs) :
    FifoRun c b xs (log ++ [e]) zs := by
  induction h with
  | nil => exact .cons hstep .nil
  | cons hfirst _ ih => exact .cons hfirst (ih hstep)

/-- The `k`-th delivered block is the `k`-th message as far as the buffer of the
dequeue and the block size go. -/
def Delivers (b : ℕ) (messages : List (List UInt8)) (blocks : List (ℕ × List UInt8)) : Prop :=
  ∀ (k : ℕ) (d : List UInt8) (n : ℕ) (block : List UInt8), messages[k]? = some d →
    blocks[k]? = some (n, block) →
    block.length = min n b ∧ block.take d.length = d.take n

lemma Delivers.cons {b n : ℕ} {d block : List UInt8} {messages : List (List UInt8)}
    {blocks : List (ℕ × List UInt8)} (h : Delivers b messages blocks)
    (hlen : block.length = min n b) (hdata : block.take d.length = d.take n) :
    Delivers b (d :: messages) ((n, block) :: blocks) := by
  intro k d' n' block' hd hb
  cases k with
  | zero =>
      simp only [List.getElem?_cons_zero, Option.some.injEq, Prod.mk.injEq] at hd hb
      obtain ⟨rfl, rfl⟩ := hb
      subst hd
      exact ⟨hlen, hdata⟩
  | succ k =>
      rw [List.getElem?_cons_succ] at hd hb
      exact h k d' n' block' hd hb

/-- No message is lost, duplicated or reordered: the messages pending at the
start and those accepted since are the delivered ones followed by those pending
at the end. -/
lemma FifoRun.conserved {c b : ℕ} {xs ys : List (List UInt8)} {log : List Event}
    (h : FifoRun c b xs log ys) :
    (dequeued log).length ≤ (xs ++ enqueued log).length ∧
      ys = (xs ++ enqueued log).drop (dequeued log).length ∧
      Delivers b (xs ++ enqueued log) (dequeued log) := by
  induction h with
  | nil => simp [enqueued, dequeued, Delivers]
  | @cons xs ys zs e log hstep hrun ih =>
      obtain ⟨hle, hdrop, hdel⟩ := ih
      obtain ⟨call, ret, bytes⟩ := e
      cases hstep with
      | enqueueInvalid h => exact ⟨hle, hdrop, hdel⟩
      | enqueueFull h hfull => exact ⟨hle, hdrop, hdel⟩
      | enqueueRoom h hroom =>
          rw [List.append_assoc] at hle hdrop hdel
          exact ⟨hle, hdrop, hdel⟩
      | dequeueInvalid h => exact ⟨hle, hdrop, hdel⟩
      | dequeueEmpty h => exact ⟨hle, hdrop, hdel⟩
      | @dequeueHead d xs zone maxLen block h hlen hdata =>
          exact ⟨Nat.succ_le_succ hle, hdrop, hdel.cons hlen hdata⟩

/-! ### Queues with a slot array of their own -/

/-- A configuration `hyperamp_queue_init` accepts, at a place where the slot
array lies in the address space and clear of the control block. -/
structure PrivateQueue where
  queue : ℕ
  virtBase : ℕ
  config : HyperampQueueConfig
  queue_ne : queue ≠ 0
  capacity_ne : config.capacity ≠ 0
  blockSize_ne : config.blockSize ≠ 0
  fits : virtBase + (config.capacity.toNat + 1) * config.blockSize.toNat ≤ 2 ^ 64
  clear : virtBase + (config.capacity.toNat + 1) * config.blockSize.toNat ≤ queue ∨
    queue + queueSize ≤ virtBase + config.blockSize.toNat

namespace PrivateQueue

variable (p : PrivateQueue)

/-- The capacity `c`. -/
def c : ℕ := p.config.capacity.toNat

/-- The block size `b`. -/
def b : ℕ := p.config.blockSize.toNat

/-- The address of slot `i`. -/
def slot (i : ℕ) : ℕ := p.virtBase + (i + 1) * p.b

lemma c_pos : 0 < p.c := by
  have h : p.config.capacity.toNat ≠ 0 := fun h => p.capacity_ne (UInt16.toNat_inj.mp h)
  rw [c]
  omega

lemma c_lt : p.c < 2 ^ 16 := p.config.capacity.toNat_lt

lemma b_pos : 0 < p.b := by
  have h : p.config.blockSize.toNat ≠ 0 := fun h => p.blockSize_ne (UInt16.toNat_inj.mp h)
  rw [b]
  omega

/-- Every slot lies between the first block and the end of the array. -/
lemma slot_bounds {i : ℕ} (hi : i < p.c) :
    p.virtBase + p.b ≤ p.slot i ∧ p.slot i + p.b ≤ p.virtBase + (p.c + 1) * p.b := by
  have hle : (i + 1) * p.b + p.b ≤ (p.c + 1) * p.b := by
    rw [← Nat.succ_mul]
    exact Nat.mul_le_mul_right _ (by omega)
  have hge : p.b ≤ (i + 1) * p.b := Nat.le_mul_of_pos_left _ (by omega)
  rw [slot]
  omega

/-- Slot addresses are computed without wrapping at 64 bits. -/
lemma slotAddr_eq {i : ℕ} (hi : i < p.c) : slotAddr p.virtBase i p.b = p.slot i := by
  have hb := p.b_pos
  have hs := p.slot_bounds hi
  have hf : p.virtBase + (p.c + 1) * p.b ≤ 2 ^ 64 := p.fits
  have hlt : p.slot i < 2 ^ 64 := by omega
  exact Nat.mod_eq_of_lt hlt

/-- No slot meets the control block. -/
lemma slot_clear {i : ℕ} (hi : i < p.c) :
    p.slot i + p.b ≤ p.queue ∨ p.queue + queueSize ≤ p.slot i := by
  have hs := p.slot_bounds hi
  have hclear : p.virtBase + (p.c + 1) * p.b ≤ p.queue ∨
    p.queue + queueSize ≤ p.virtBase + p.b := p.clear
  omega

/-- Two slots do not overlap. -/
lemma slot_disjoint {i j : ℕ} (h : i ≠ j) :
    p.slot i + p.b ≤ p.slot j ∨ p.slot j + p.b ≤ p.slot i := by
  simp only [slot]
  rcases Nat.lt_or_gt_of_ne h with hij | hij
  · left
    have : (i + 1) * p.b + p.b ≤ (j + 1) * p.b := by
      rw [← Nat.succ_mul]
      exact Nat.mul_le_mul_right _ (by omega)
    omega
  · right
    have : (j + 1) * p.b + p.b ≤ (i + 1) * p.b := by
      rw [← Nat.succ_mul]
      exact Nat.mul_le_mul_right _ (by omega)
    omega

end PrivateQueue

/-! ### The simulation relation -/

/-- Slot `i` holds the message `d` at its start. -/
def SlotHolds (p : PrivateQueue) (m : Mem) (i : ℕ) (d : List UInt8) : Prop :=
  d.length ≤ p.b ∧ load m (p.slot i) d.length = d

/-- A slot whose bytes do not change holds the same messages. -/
lemma SlotHolds.congr {p : PrivateQueue} {m m' : Mem} {i : ℕ} {d : List UInt8}
    (h : SlotHolds p m i d) (hmem : ∀ j < p.b, m' (p.slot i + j) = m (p.slot i + j)) :
    SlotHolds p m' i d := by
  refine ⟨h.1, ?_⟩
  rw [load_congr fun j hj => hmem j (hj.trans_le h.1)]
  exact h.2

/-- The memory represents the pending messages `xs`. -/
structure QueueInv (p : PrivateQueue) (m : Mem) (xs : List (List UInt8)) : Prop where
  capacity : (ctrl m p.queue).capacity = p.c
  blockSize : (ctrl m p.queue).blockSize = p.b
  lock : (ctrl m p.queue).lockValue = 0
  ring : Ring.Repr p.c (ctrl m p.queue).header (ctrl m p.queue).tail (SlotHolds p m) xs
  counts : ((ctrl m p.queue).enqueueCount + 2 ^ 32 - (ctrl m p.queue).dequeueCount) % 2 ^ 32 =
    xs.length

variable {p : PrivateQueue} {m m' : Mem} {xs : List (List UInt8)}

lemma dequeueCount_lt (m : Mem) (q : ℕ) : (ctrl m q).dequeueCount < 2 ^ 32 := by
  have h := readLE_lt m (q + 4064) 4
  norm_num at h ⊢
  exact h

/-- A pending slot is one of the `c` slots. -/
lemma QueueInv.pending_lt (h : QueueInv p m xs) {i : ℕ}
    (hi : Ring.Pending p.c (ctrl m p.queue).tail xs.length i) : i < p.c := by
  obtain ⟨k, hk, rfl⟩ := hi
  exact Ring.index_lt h.ring.tail_lt (hk.trans h.ring.length_lt).le

/-- The index arithmetic of the code is that of a ring of `c` slots. -/
lemma nextIndex_eq {c i : ℕ} (hi : i < c) (hc : c < 2 ^ 16) :
    nextIndex c i = Ring.index c i 1 := by
  simp only [nextIndex, Ring.index, Nat.mod_eq_of_lt (show i + 1 < 2 ^ 16 by omega)]
  split <;> split <;> omega

/-- A queue that has just been initialised represents no messages. -/
lemma QueueInv.init (p : PrivateQueue) (m : Mem) :
    QueueInv p (hyperampQueueInit m p.queue (some p.config) true).2 [] := by
  have hargs : ¬ (p.queue = 0 ∨ p.config.blockSize = 0 ∨ p.config.capacity = 0) := by
    simp [p.queue_ne, p.blockSize_ne, p.capacity_ne]
  have hctrl := ctrl_initUpTo p.config m p.queue
  simp only [hyperampQueueInit, if_neg hargs, if_true]
  exact
    { capacity := by rw [hctrl]; rfl
      blockSize := by rw [hctrl]; rfl
      lock := by rw [hctrl]; rfl
      ring := by
        rw [hctrl]
        exact Ring.Repr.nil p.c_pos
      counts := by rw [hctrl]; simp [initialCtrl] }

/-- Changing only the lock fields keeps the relation. -/
lemma QueueInv.released (h : QueueInv p m xs)
    (hctrl : ctrl m' p.queue = (ctrl m p.queue).released)
    (hmem : ∀ x, x < p.queue + 4036 ∨ p.queue + 4048 ≤ x → m' x = m x) :
    QueueInv p m' xs where
  capacity := by rw [hctrl]; exact h.capacity
  blockSize := by rw [hctrl]; exact h.blockSize
  lock := by rw [hctrl]; rfl
  ring := by
    rw [hctrl]
    refine h.ring.frame fun i d hi hd => hd.congr fun j hj => ?_
    have hclear := p.slot_clear (h.pending_lt hi)
    rw [queueSize] at hclear
    exact hmem _ (by omega)
  counts := by rw [hctrl]; exact h.counts

/-- Changes outside the control block and the pending slots keep the relation. -/
lemma QueueInv.frame (h : QueueInv p m xs)
    (hctrl : ∀ x, p.queue ≤ x → x < p.queue + queueSize → m' x = m x)
    (hslots : ∀ i, Ring.Pending p.c (ctrl m p.queue).tail xs.length i →
      ∀ j < p.b, m' (p.slot i + j) = m (p.slot i + j)) :
    QueueInv p m' xs := by
  have heq : ctrl m' p.queue = ctrl m p.queue := ctrl_congr hctrl
  exact
    { capacity := by rw [heq]; exact h.capacity
      blockSize := by rw [heq]; exact h.blockSize
      lock := by rw [heq]; exact h.lock
      ring := by
        rw [heq]
        exact h.ring.frame fun i d hi hd => hd.congr (hslots i hi)
      counts := by rw [heq]; exact h.counts }

/-! ### One call -/

/-- The call is an enqueue that puts a message in. -/
def PutsIn (call : Call) (ret : HyperampRet) : Prop :=
  ret = .ok ∧ ∃ zone data, call = .enqueue zone data

/-- What one call does to a queue that represents `xs`: it returns, takes a step
of the abstract queue to `ys`, and the new memory represents `ys`. A call that
does not succeed changes at most the lock fields. Outside the control block only
the slot of the write index changes, and only when a message is put in. -/
structure CallSpec (p : PrivateQueue) (m : Mem) (xs : List (List UInt8)) (call : Call)
    (ret : HyperampRet) (bytes : List UInt8) (m' : Mem) (ys : List (List UInt8)) : Prop where
  exec : call.exec p.queue p.virtBase m = some (ret, bytes, m')
  step : FifoStep p.c p.b xs call ret bytes ys
  inv : QueueInv p m' ys
  unchanged : ret ≠ .ok → ∀ x, x < p.queue + 4036 ∨ p.queue + 4048 ≤ x → m' x = m x
  frame : ∀ x, x < p.queue ∨ p.queue + queueSize ≤ x →
    (PutsIn call ret → x < p.slot (ctrl m p.queue).header ∨
      p.slot (ctrl m p.queue).header + p.b ≤ x) → m' x = m x

variable (zone : ℕ) {maxLen : ℕ} {d : List UInt8} {data : Option (List UInt8)}

lemma enqueue_invalid_simulates (h : QueueInv p m xs) (hdata : ¬ ValidData p.b data) :
    CallSpec p m xs (.enqueue zone data) .error [] m xs where
  exec := by
    have hinv : ∀ d, data = some d → p.queue = 0 ∨ d = [] ∨
        (ctrl m p.queue).blockSize < d.length := by
      intro d hd
      by_contra hcon
      push Not at hcon
      rw [h.blockSize] at hcon
      exact hdata ⟨d, hd, hcon.2.1, hcon.2.2⟩
    simp [Call.exec, hyperampQueueEnqueue_invalid zone p.virtBase hinv]
  step := .enqueueInvalid hdata
  inv := h
  unchanged := fun _ _ _ => rfl
  frame := fun _ _ _ => rfl

lemma enqueue_full_simulates (h : QueueInv p m xs) (hd : d ≠ []) (hlen : d.length ≤ p.b)
    (hfull : xs.length + 1 = p.c) :
    ∃ m', CallSpec p m xs (.enqueue zone (some d)) .again [] m' xs := by
  have hnext : nextIndex (ctrl m p.queue).capacity (ctrl m p.queue).header =
      (ctrl m p.queue).tail := by
    rw [h.capacity, nextIndex_eq h.ring.header_lt p.c_lt]
    exact h.ring.full_iff.mpr hfull
  obtain ⟨m', hexec, hctrl, hmem⟩ := hyperampQueueEnqueue_again zone
    p.virtBase p.queue_ne hd (by rw [h.blockSize]; exact hlen) h.lock hnext
  refine ⟨m', ?_, .enqueueFull ⟨d, rfl, hd, hlen⟩ (by omega), h.released hctrl hmem,
    fun _ => hmem, fun x hx _ => hmem x (by rw [queueSize] at hx; omega)⟩
  simp [Call.exec, hexec]

/-- An enqueue with room writes the slot of the write index, which no pending
message occupies. -/
lemma enqueue_room_simulates (h : QueueInv p m xs) (hd : d ≠ []) (hlen : d.length ≤ p.b)
    (hroom : xs.length + 1 ≠ p.c) :
    ∃ m', CallSpec p m xs (.enqueue zone (some d)) .ok [] m' (xs ++ [d]) := by
  have hhead := h.ring.header_lt
  have hnext : nextIndex (ctrl m p.queue).capacity (ctrl m p.queue).header =
      Ring.index p.c (ctrl m p.queue).header 1 := by
    rw [h.capacity, nextIndex_eq hhead p.c_lt]
  have hnextlt : Ring.index p.c (ctrl m p.queue).header 1 < 2 ^ 16 :=
    (Ring.index_lt hhead p.c_pos).trans p.c_lt
  have hslot : p.slot (ctrl m p.queue).header =
      slotAddr p.virtBase (ctrl m p.queue).header (ctrl m p.queue).blockSize := by
    rw [h.blockSize, p.slotAddr_eq hhead]
  have hclear := p.slot_clear hhead
  obtain ⟨m', hexec, hctrl, hload, hmem⟩ := hyperampQueueEnqueue_ok zone
    p.virtBase p.queue_ne hd (by rw [h.blockSize]; exact hlen) h.lock
    (by rw [hnext]; exact fun heq => hroom (h.ring.full_iff.mp heq)) hslot (by omega)
  rw [hnext, Nat.mod_eq_of_lt hnextlt] at hctrl
  refine ⟨m', by simp [Call.exec, hexec], ?_, ?_, by simp, ?_⟩
  · have hl := h.ring.length_lt
    exact .enqueueRoom ⟨d, rfl, hd, hlen⟩ (by omega)
  · refine
      { capacity := by rw [hctrl]; exact h.capacity
        blockSize := by rw [hctrl]; exact h.blockSize
        lock := by rw [hctrl]; rfl
        ring := ?_
        counts := ?_ }
    · rw [hctrl]
      -- the slot at the header is none of those that hold a message
      have hframe : Ring.Repr p.c (ctrl m p.queue).header (ctrl m p.queue).tail
          (SlotHolds p m') xs := by
        refine h.ring.frame fun i y hi hy => hy.congr fun j hj => ?_
        have hne : i ≠ (ctrl m p.queue).header := by
          rintro rfl
          exact h.ring.header_not_pending hi
        have hic := p.slot_clear (h.pending_lt hi)
        have hdis := p.slot_disjoint hne
        exact hmem _ (by omega) (by omega)
      exact hframe.push hroom ⟨hlen, hload⟩
    · have hc := h.counts
      have hdq := dequeueCount_lt m p.queue
      have hl := h.ring.length_lt
      have hcl := p.c_lt
      rw [hctrl]
      simp only [Ctrl.released, List.length_append, List.length_singleton]
      omega
  · intro x hx hslotx
    have := hslotx ⟨rfl, zone, some d, rfl⟩
    exact hmem x hx (by omega)

lemma dequeue_invalid_simulates (h : QueueInv p m xs) {dataPtr : Bool}
    (harg : dataPtr = false ∨ maxLen = 0) :
    CallSpec p m xs (.dequeue zone dataPtr maxLen) .error [] m xs where
  exec := hyperampQueueDequeue_invalid zone p.virtBase (Or.inr harg)
  step := .dequeueInvalid harg
  inv := h
  unchanged := fun _ _ _ => rfl
  frame := fun _ _ _ => rfl

lemma dequeue_empty_simulates (h : QueueInv p m []) (hmax : maxLen ≠ 0) :
    ∃ m', CallSpec p m [] (.dequeue zone true maxLen) .again [] m' [] := by
  obtain ⟨m', hexec, hctrl, hmem⟩ := hyperampQueueDequeue_again zone
    p.virtBase p.queue_ne hmax h.lock (h.ring.empty_iff.mpr rfl)
  exact ⟨m', hexec, .dequeueEmpty hmax, h.released hctrl hmem, fun _ => hmem,
    fun x hx _ => hmem x (by rw [queueSize] at hx; omega)⟩

/-- A dequeue from a queue that is not empty copies the slot of the read index
out and changes no slot. -/
lemma dequeue_head_simulates (h : QueueInv p m (d :: xs)) (hmax : maxLen ≠ 0) :
    ∃ block m', CallSpec p m (d :: xs) (.dequeue zone true maxLen) .ok block m' xs := by
  have htail := h.ring.tail_lt
  have hnext : nextIndex (ctrl m p.queue).capacity (ctrl m p.queue).tail =
      Ring.index p.c (ctrl m p.queue).tail 1 := by
    rw [h.capacity, nextIndex_eq htail p.c_lt]
  have hnextlt : Ring.index p.c (ctrl m p.queue).tail 1 < 2 ^ 16 :=
    (Ring.index_lt htail p.c_pos).trans p.c_lt
  have hslot : p.slot (ctrl m p.queue).tail =
      slotAddr p.virtBase (ctrl m p.queue).tail (ctrl m p.queue).blockSize := by
    rw [h.blockSize, p.slotAddr_eq htail]
  have hne : (ctrl m p.queue).tail ≠ (ctrl m p.queue).header := by
    intro heq
    exact absurd (h.ring.empty_iff.mp heq) (by simp)
  obtain ⟨m', hexec, hctrl, hmem⟩ := hyperampQueueDequeue_ok zone
    p.virtBase p.queue_ne hmax h.lock hne hslot
    (by rw [h.blockSize]; exact p.slot_clear htail)
  rw [h.blockSize] at hexec
  rw [hnext, Nat.mod_eq_of_lt hnextlt] at hctrl
  obtain ⟨hlen, hload⟩ := h.ring.holds_head
  refine ⟨load m (p.slot (ctrl m p.queue).tail) (min maxLen p.b), m', hexec, ?_, ?_, by simp,
    fun x hx _ => hmem x hx⟩
  · refine .dequeueHead hmax (length_load _ _ _) ?_
    rw [take_load, show min d.length (min maxLen p.b) = min maxLen d.length by omega, ← take_load,
      hload]
  · refine
      { capacity := by rw [hctrl]; exact h.capacity
        blockSize := by rw [hctrl]; exact h.blockSize
        lock := by rw [hctrl]; rfl
        ring := ?_
        counts := ?_ }
    · rw [hctrl]
      have hframe : Ring.Repr p.c (ctrl m p.queue).header (ctrl m p.queue).tail
          (SlotHolds p m') (d :: xs) := by
        refine h.ring.frame fun i y hi hy => hy.congr fun j hj => ?_
        have hic := p.slot_clear (h.pending_lt hi)
        exact hmem _ (by omega)
      exact hframe.pop
    · have hc := h.counts
      have hdq := dequeueCount_lt m p.queue
      have hl := h.ring.length_lt
      have hcl := p.c_lt
      rw [hctrl]
      simp only [Ctrl.released, List.length_cons] at hc hl ⊢
      omega

/-- **The step of the simulation**: every call returns, takes a step of the
bounded FIFO and keeps the relation. -/
lemma call_simulates (h : QueueInv p m xs) (call : Call) :
    ∃ ret bytes m' ys, CallSpec p m xs call ret bytes m' ys := by
  cases call with
  | enqueue zone data =>
      by_cases hvalid : ValidData p.b data
      · obtain ⟨d, rfl, hd, hlen⟩ := hvalid
        by_cases hfull : xs.length + 1 = p.c
        · obtain ⟨m', hspec⟩ := enqueue_full_simulates zone h hd hlen hfull
          exact ⟨_, _, m', _, hspec⟩
        · obtain ⟨m', hspec⟩ := enqueue_room_simulates zone h hd hlen hfull
          exact ⟨_, _, m', _, hspec⟩
      · exact ⟨_, _, _, _, enqueue_invalid_simulates zone h hvalid⟩
  | dequeue zone dataPtr maxLen =>
      by_cases harg : dataPtr = false ∨ maxLen = 0
      · exact ⟨_, _, _, _, dequeue_invalid_simulates zone h harg⟩
      · push Not at harg
        obtain ⟨hptr, hmax⟩ := harg
        obtain rfl : dataPtr = true := by simpa using hptr
        cases xs with
        | nil =>
            obtain ⟨m', hspec⟩ := dequeue_empty_simulates zone h hmax
            exact ⟨_, _, m', _, hspec⟩
        | cons d xs =>
            obtain ⟨block, m', hspec⟩ := dequeue_head_simulates zone h hmax
            exact ⟨_, block, m', _, hspec⟩

/-- Every run returns, is a run of the bounded FIFO and keeps the relation. -/
lemma runCalls_simulates (h : QueueInv p m xs) (calls : List Call) :
    ∃ log m' ys, runCalls p.queue p.virtBase calls m = some (log, m') ∧
      FifoRun p.c p.b xs log ys ∧ QueueInv p m' ys := by
  induction calls generalizing m xs with
  | nil => exact ⟨[], m, xs, rfl, .nil, h⟩
  | cons call calls ih =>
      obtain ⟨ret, bytes, m', ys, hspec⟩ := call_simulates h call
      obtain ⟨log, m'', zs, hrun, hfifo, hinv⟩ := ih hspec.inv
      refine ⟨⟨call, ret, bytes⟩ :: log, m'', zs, ?_, .cons hspec.step hfifo, hinv⟩
      simp [runCalls, hspec.exec, hrun]

/-! ### The whole queue -/

/-- What the next call returns, given the messages pending before it. -/
structure NextReply (p : PrivateQueue) (xs : List (List UInt8)) (call : Call)
    (ret : HyperampRet) : Prop where
  enqueue_again : ∀ zone data, call = .enqueue zone data → ValidData p.b data →
    (ret = .again ↔ xs.length = p.c - 1)
  enqueue_error : ∀ zone data, call = .enqueue zone data → (ret = .error ↔ ¬ ValidData p.b data)
  dequeue_again : ∀ zone maxLen, call = .dequeue zone true maxLen → maxLen ≠ 0 →
    (ret = .again ↔ xs = [])
  dequeue_error : ∀ zone dataPtr maxLen, call = .dequeue zone dataPtr maxLen →
    (ret = .error ↔ dataPtr = false ∨ maxLen = 0)

lemma FifoStep.nextReply {call : Call} {ret : HyperampRet} {bytes : List UInt8}
    {ys : List (List UInt8)} (h : FifoStep p.c p.b xs call ret bytes ys) :
    NextReply p xs call ret := by
  constructor
  · rintro zone data rfl hvalid
    cases h with
    | enqueueInvalid h => exact absurd hvalid h
    | enqueueFull h hfull => simp [hfull]
    | enqueueRoom h hroom => simp; omega
  · rintro zone data rfl
    cases h with
    | enqueueInvalid h => simp [h]
    | enqueueFull h hfull => simp [h]
    | enqueueRoom h hroom => simp [h]
  · rintro zone maxLen rfl hmax
    cases h with
    | dequeueInvalid h => simp [hmax] at h
    | dequeueEmpty h => simp
    | dequeueHead h hlen hdata => simp
  · rintro zone dataPtr maxLen rfl
    cases h with
    | dequeueInvalid h => simp [h]
    | dequeueEmpty h => simp [h]
    | dequeueHead h hlen hdata => simp [h]

/-- The state of the queue after a run with the given log: bounds, conservation,
accounting, and what any further call does. -/
structure FifoState (p : PrivateQueue) (log : List Event) (m : Mem) : Prop where
  header_lt : header m p.queue < p.c
  tail_lt : tail m p.queue < p.c
  dequeued_le : (dequeued log).length ≤ (enqueued log).length
  pending_le : (pending log).length ≤ p.c - 1
  delivered : Delivers p.b (enqueued log) (dequeued log)
  slots : ∀ k d, (pending log)[k]? = some d →
    load m (slotAddr p.virtBase ((tail m p.queue + k) % p.c) p.b) d.length = d
  counts : (enqueueCount m p.queue + 2 ^ 32 - dequeueCount m p.queue) % 2 ^ 32 =
    (pending log).length
  indices : (header m p.queue + p.c - tail m p.queue) % p.c = (pending log).length
  next : ∀ call, ∃ ret bytes m', call.exec p.queue p.virtBase m = some (ret, bytes, m') ∧
    NextReply p (pending log) call ret ∧
    (ret ≠ .ok → ∀ x, x < p.queue + 4036 ∨ p.queue + 4048 ≤ x → m' x = m x)

/-- A run of the abstract queue from empty, together with the simulation
relation, gives the state of the queue. -/
lemma fifoState_of_run {log : List Event} {ys : List (List UInt8)}
    (hfifo : FifoRun p.c p.b [] log ys) (hinv : QueueInv p m ys) : FifoState p log m := by
  obtain ⟨hle, hys, hdel⟩ := hfifo.conserved
  rw [List.nil_append] at hle hys hdel
  have hpend : pending log = ys := hys.symm
  exact
    { header_lt := hinv.ring.header_lt
      tail_lt := hinv.ring.tail_lt
      dequeued_le := hle
      pending_le := by
        have := hinv.ring.length_lt
        rw [hpend]
        omega
      delivered := hdel
      slots := by
        intro k d hk
        rw [hpend] at hk
        have hlt : k < ys.length := (List.getElem?_eq_some_iff.mp hk).1
        have hmod := Ring.index_eq_mod hinv.ring.tail_lt (hlt.trans hinv.ring.length_lt)
        have hslot := (hinv.ring.holds k d hk).2
        rw [hmod] at hslot
        rw [p.slotAddr_eq (Nat.mod_lt _ p.c_pos)]
        exact hslot
      counts := by rw [hpend]; exact hinv.counts
      indices := by rw [hpend]; exact hinv.ring.diff
      next := by
        intro call
        obtain ⟨ret, bytes, m', zs, hspec⟩ := call_simulates hinv call
        rw [hpend]
        exact ⟨ret, bytes, m', hspec.exec, hspec.step.nextReply, hspec.unchanged⟩ }

/-- **The queue refines a bounded FIFO.** From `hyperamp_queue_init` on, over any
memory content, every finite interleaving of enqueues and dequeues returns and
leaves the queue in the state of a FIFO of at most `c - 1` messages. -/
theorem hyperampQueue_refines_fifo (p : PrivateQueue) (m₀ : Mem) (calls : List Call) :
    ∃ log m, runCalls p.queue p.virtBase calls
        (hyperampQueueInit m₀ p.queue (some p.config) true).2 = some (log, m) ∧
      FifoState p log m := by
  obtain ⟨log, m, ys, hrun, hfifo, hinv⟩ := runCalls_simulates (QueueInv.init p m₀) calls
  exact ⟨log, m, hrun, fifoState_of_run hfifo hinv⟩

/-- A small queue: three slots of four bytes after the control block. -/
def smallQueue : PrivateQueue where
  queue := 4096
  virtBase := 8192
  config := ⟨0, 3, 4, 0, 0⟩
  queue_ne := by decide
  capacity_ne := by decide
  blockSize_ne := by decide
  fits := by decide
  clear := by decide

/-- Every delivered block starts with the whole message, whatever the buffer. -/
def DeliversWhole (messages : List (List UInt8)) (blocks : List (ℕ × List UInt8)) : Prop :=
  ∀ (k : ℕ) (d : List UInt8) (n : ℕ) (block : List UInt8), messages[k]? = some d →
    blocks[k]? = some (n, block) → block.take d.length = d

/-- A dequeue with a buffer of one byte takes a message of three bytes off and
returns only the first of them; an enqueue with a null pointer reports an error,
full queue or not. -/
theorem dequeue_cuts_message :
    (∃ log m, runCalls smallQueue.queue smallQueue.virtBase
        [.enqueue 0 (some [1, 2, 3]), .dequeue 1 true 1]
        (hyperampQueueInit (fun _ => 0) smallQueue.queue (some smallQueue.config) true).2 =
          some (log, m) ∧ ¬ DeliversWhole (enqueued log) (dequeued log)) ∧
    ∃ log m, runCalls smallQueue.queue smallQueue.virtBase
        [.enqueue 0 (some [1]), .enqueue 0 (some [2])]
        (hyperampQueueInit (fun _ => 0) smallQueue.queue (some smallQueue.config) true).2 =
          some (log, m) ∧ (pending log).length = smallQueue.c - 1 ∧
      (Call.exec smallQueue.queue smallQueue.virtBase m (.enqueue 0 none)).map Prod.fst =
        some .error := by
  constructor
  · have hlog : (runCalls smallQueue.queue smallQueue.virtBase
        [.enqueue 0 (some [1, 2, 3]), .dequeue 1 true 1]
        (hyperampQueueInit (fun _ => 0) smallQueue.queue (some smallQueue.config) true).2).map
          Prod.fst =
        some [⟨.enqueue 0 (some [1, 2, 3]), .ok, []⟩, ⟨.dequeue 1 true 1, .ok, [1]⟩] := by
      decide +kernel
    obtain ⟨⟨log, m⟩, hrun, rfl⟩ := Option.map_eq_some_iff.mp hlog
    refine ⟨_, m, hrun, fun h => ?_⟩
    have hwhole := h 0 [1, 2, 3] 1 [1] rfl rfl
    simp at hwhole
  · have hlog : (runCalls smallQueue.queue smallQueue.virtBase
        [.enqueue 0 (some [1]), .enqueue 0 (some [2])]
        (hyperampQueueInit (fun _ => 0) smallQueue.queue (some smallQueue.config) true).2).map
          Prod.fst =
        some [⟨.enqueue 0 (some [1]), .ok, []⟩, ⟨.enqueue 0 (some [2]), .ok, []⟩] := by
      decide +kernel
    obtain ⟨⟨log, m⟩, hrun, rfl⟩ := Option.map_eq_some_iff.mp hlog
    exact ⟨_, m, hrun, rfl, rfl⟩

end Hyperamp
