import Sel4Test.Hyperamp.Fifo

/-!
Publication of a queue while it is being initialised.

`hyperamp_queue_is_initialized` looks at the capacity only, and
`hyperamp_queue_init` writes the capacity before the block size and the lock.
So a peer may take the queue for initialised in the middle of the writes, and
the writes that are left come after its calls.

* `Ready` is what a peer relies on: both indices `0`, the configured capacity and
  block size, the lock in its initial state.
* `interleave`: the stores of the creator and calls of the peers in any order.
* `exec_sameOutcome`: a call on two memories that agree where a peer looks has
  the same outcome.
* `Sync.step_store`, `Sync.step_call`, `interleave_sync`: once the queue shows as
  ready, a store changes nothing a peer looks at, and a call does what it does on
  the initialised queue.
* `publication_safe_iff`: exactly which prior contents of the control block make
  every point of the initialisation safe. Zeroed memory is not one of them
  (`fresh_memory_unsafe`), and the counters of the operations are lost over any.
-/

namespace Hyperamp

open ByteMem

/-! ### What a peer relies on -/

/-- The control block is in the state `hyperamp_queue_init` is to establish, as
far as a peer's enqueue or dequeue depends on it. -/
structure Ready (m : Mem) (q : ℕ) (config : HyperampQueueConfig) : Prop where
  header : header m q = 0
  tail : tail m q = 0
  capacity : capacity m q = config.capacity.toNat
  blockSize : blockSize m q = config.blockSize.toNat
  lockValue : lockValue m (queueLock q) = 0
  ownerZoneId : ownerZoneId m (queueLock q) = 0
  lockCount : lockCount m (queueLock q) = 0
  contentionCount : contentionCount m (queueLock q) = 0

/-- The bytes a peer's call depends on: the fields from the header to the block
size, the lock value and the owner, and everything outside the control block. The
counters of the operations are left out. -/
def PeerByte (q x : ℕ) : Prop :=
  (q + 2 ≤ x ∧ x < q + 10) ∨ (q + 4036 ≤ x ∧ x < q + 4044) ∨ x < q ∨ q + queueSize ≤ x

/-- Two memories look the same to a peer. -/
def SameForPeer (q : ℕ) (m₁ m₂ : Mem) : Prop := ∀ x, PeerByte q x → m₁ x = m₂ x

/-- Two finished calls returned the same and left the same for the next peer. -/
def SameOutcome (q : ℕ) (r₁ r₂ : HyperampRet × List UInt8 × Mem) : Prop :=
  r₁.1 = r₂.1 ∧ r₁.2.1 = r₂.2.1 ∧ SameForPeer q r₁.2.2 r₂.2.2

/-! ### Calls on memories that look the same -/

namespace SameForPeer

variable {q : ℕ} {m₁ m₂ : Mem}

lemma readLE_eq (h : SameForPeer q m₁ m₂) {a w : ℕ} (ha : ∀ i < w, PeerByte q (a + i)) :
    readLE m₁ a w = readLE m₂ a w :=
  readLE_congr fun i hi => h _ (ha i hi)

/-- The same write to both memories keeps them alike. -/
lemma store (h : SameForPeer q m₁ m₂) (a : ℕ) (bs : List UInt8) :
    SameForPeer q (store m₁ a bs) (store m₂ a bs) := by
  intro x hx
  simp only [ByteMem.store, h x hx]

lemma writeLE (h : SameForPeer q m₁ m₂) (a w v : ℕ) :
    SameForPeer q (writeLE m₁ a w v) (writeLE m₂ a w v) :=
  h.store a (toLE w v)

/-- Any writes to a counter keep the memories alike. -/
lemma write_counter (h : SameForPeer q m₁ m₂) (off : ℕ) (hoff : 4044 ≤ off ∧ off + 4 ≤ 4068)
    (v₁ v₂ : ℕ) : SameForPeer q (ByteMem.writeLE m₁ (q + off) 4 v₁)
      (ByteMem.writeLE m₂ (q + off) 4 v₂) := by
  intro x hx
  have hx' := hx
  rw [PeerByte, queueSize] at hx'
  rw [writeLE_of_outside (by omega), writeLE_of_outside (by omega)]
  exact h x hx

lemma header_eq (h : SameForPeer q m₁ m₂) : header m₁ q = header m₂ q :=
  h.readLE_eq fun i hi => by rw [PeerByte]; omega

lemma tail_eq (h : SameForPeer q m₁ m₂) : tail m₁ q = tail m₂ q :=
  h.readLE_eq fun i hi => by rw [PeerByte]; omega

lemma capacity_eq (h : SameForPeer q m₁ m₂) : capacity m₁ q = capacity m₂ q :=
  h.readLE_eq fun i hi => by rw [PeerByte]; omega

lemma blockSize_eq (h : SameForPeer q m₁ m₂) : blockSize m₁ q = blockSize m₂ q :=
  h.readLE_eq fun i hi => by rw [PeerByte]; omega

lemma lockValue_eq (h : SameForPeer q m₁ m₂) :
    lockValue m₁ (queueLock q) = lockValue m₂ (queueLock q) :=
  h.readLE_eq fun i hi => by rw [PeerByte, queueLock]; omega

lemma lock (h : SameForPeer q m₁ m₂) (zone : ℕ) :
    Option.Rel (SameForPeer q) (hyperampSpinlockLock m₁ (queueLock q) zone)
      (hyperampSpinlockLock m₂ (queueLock q) zone) := by
  simp only [hyperampSpinlockLock, if_neg (queueLock_ne_zero q), h.lockValue_eq]
  split
  · have htaken := (h.writeLE (queueLock q) 4 1).writeLE (queueLock q + 4) 4 zone
    exact .some (htaken.write_counter 4044 (by omega) _ _)
  · exact .none

lemma unlock (h : SameForPeer q m₁ m₂) :
    SameForPeer q (hyperampSpinlockUnlock m₁ (queueLock q))
      (hyperampSpinlockUnlock m₂ (queueLock q)) := by
  simp only [hyperampSpinlockUnlock, if_neg (queueLock_ne_zero q)]
  exact (h.writeLE _ _ _).writeLE _ _ _

lemma enqueueLocked (h : SameForPeer q m₁ m₂) (data : List UInt8) (v c b : ℕ) :
    (enqueueLocked m₁ q data v c b).1 = (enqueueLocked m₂ q data v c b).1 ∧
      SameForPeer q (enqueueLocked m₁ q data v c b).2 (enqueueLocked m₂ q data v c b).2 := by
  simp only [Hyperamp.enqueueLocked, h.header_eq, h.tail_eq]
  split
  · exact ⟨rfl, h⟩
  · exact ⟨rfl, ((h.store _ _).writeLE _ _ _).write_counter 4060 (by omega) _ _⟩

/-- The slot that is read lies outside the control block. -/
lemma dequeueLocked (h : SameForPeer q m₁ m₂) (maxLen v : ℕ)
    (hclear : slotAddr v (tail m₂ q) (blockSize m₂ q) + blockSize m₂ q ≤ q ∨
      q + queueSize ≤ slotAddr v (tail m₂ q) (blockSize m₂ q)) :
    SameOutcome q (dequeueLocked m₁ q maxLen v) (dequeueLocked m₂ q maxLen v) := by
  simp only [Hyperamp.dequeueLocked, h.header_eq, h.tail_eq, h.blockSize_eq, h.capacity_eq]
  split
  · exact ⟨rfl, rfl, h⟩
  · refine ⟨rfl, load_congr fun i hi => h _ ?_, (h.writeLE _ _ _).write_counter 4064 (by omega) _ _⟩
    have hlen : (if maxLen < blockSize m₂ q then maxLen else blockSize m₂ q) ≤ blockSize m₂ q := by
      split <;> omega
    rw [PeerByte]
    omega

end SameForPeer

variable {p : PrivateQueue} {q : ℕ} {m m₁ m₂ : Mem} {config : HyperampQueueConfig}
  {xs : List (List UInt8)}

/-- The slot of the read index of a queue that represents messages. -/
lemma tail_clear (hQ : QueueInv p m xs) :
    slotAddr p.virtBase (tail m p.queue) (blockSize m p.queue) + blockSize m p.queue ≤ p.queue ∨
      p.queue + queueSize ≤ slotAddr p.virtBase (tail m p.queue) (blockSize m p.queue) := by
  have hb : blockSize m p.queue = p.b := hQ.blockSize
  have htail : tail m p.queue < p.c := hQ.ring.tail_lt
  rw [hb, p.slotAddr_eq htail]
  exact p.slot_clear htail

/-- **A call finds the same return code and bytes** in both memories, and leaves
memories that look the same. -/
lemma exec_sameOutcome (h : SameForPeer p.queue m₁ m₂) (hQ : QueueInv p m₂ xs) (call : Call) :
    Option.Rel (SameOutcome p.queue) (call.exec p.queue p.virtBase m₁)
      (call.exec p.queue p.virtBase m₂) := by
  cases call with
  | enqueue zone data =>
      cases data with
      | none => exact .some ⟨rfl, rfl, h⟩
      | some data =>
          simp only [Call.exec, hyperampQueueEnqueue, ← h.blockSize_eq, ← h.capacity_eq]
          by_cases hargs : p.queue = 0 ∨ data.length = 0
          · simp only [if_pos hargs]
            exact .some ⟨rfl, rfl, h⟩
          by_cases hlen : blockSize m₁ p.queue < data.length
          · simp only [if_neg hargs, if_pos hlen]
            exact .some ⟨rfl, rfl, h⟩
          simp only [if_neg hargs, if_neg hlen]
          have hlock := h.lock zone
          generalize hyperampSpinlockLock m₁ (queueLock p.queue) zone = o₁ at hlock ⊢
          generalize hyperampSpinlockLock m₂ (queueLock p.queue) zone = o₂ at hlock ⊢
          cases hlock with
          | none => exact .none
          | some hs =>
              obtain ⟨hret, hmem⟩ := hs.enqueueLocked data p.virtBase (capacity m₁ p.queue)
                (blockSize m₁ p.queue)
              exact .some ⟨hret, rfl, hmem.unlock⟩
  | dequeue zone dataPtr maxLen =>
      simp only [Call.exec, hyperampQueueDequeue]
      by_cases hargs : p.queue = 0 ∨ dataPtr = false ∨ maxLen = 0
      · simp only [if_pos hargs]
        exact .some ⟨rfl, rfl, h⟩
      simp only [if_neg hargs]
      have hfree : lockValue m₁ (queueLock p.queue) = 0 := h.lockValue_eq.trans hQ.lock
      have hlock := h.lock zone
      rw [hyperampSpinlockLock_free zone hfree, hyperampSpinlockLock_free zone hQ.lock] at hlock ⊢
      cases hlock with
      | some hs =>
          -- taking the lock moves neither the read index nor the block size
          have hctrl := ctrl_lockedMem zone m₂ p.queue
          have htail := congrArg Ctrl.tail hctrl
          have hblock := congrArg Ctrl.blockSize hctrl
          have hclear := tail_clear hQ
          have hsame := hs.dequeueLocked maxLen p.virtBase (by
            change slotAddr p.virtBase (ctrl _ p.queue).tail (ctrl _ p.queue).blockSize +
              (ctrl _ p.queue).blockSize ≤ _ ∨ _ ≤ slotAddr p.virtBase (ctrl _ p.queue).tail
                (ctrl _ p.queue).blockSize
            rw [htail, hblock]
            exact hclear)
          exact .some ⟨hsame.1, hsame.2.1, hsame.2.2.unlock⟩

/-! ### The fields after some of the writes -/

/-- A two-byte field that held the value to be written keeps it throughout. -/
lemma ofLE_two_same {x y : UInt8} {v : ℕ} (hv : v < 2 ^ 16) (h : ofLE [x, y] = v) (P Q : Prop)
    [Decidable P] [Decidable Q] :
    ofLE [if P then UInt8.ofNat v else x, if Q then UInt8.ofNat (v / 256) else y] = v := by
  have hx := x.toNat_lt
  have hy := y.toNat_lt
  simp only [ofLE, apply_ite UInt8.toNat, UInt8.toNat_ofNat'] at h ⊢
  split <;> split <;> omega

lemma header_initUpTo (k : ℕ) :
    header (initUpTo m q config k) q =
      ofLE [if 2 < k then 0 else m (q + 2), if 3 < k then 0 else m (q + 2 + 1)] :=
  readLE_initUpTo_two k _ _ (by simp [initStores]) (by simp [initStores])

lemma tail_initUpTo (k : ℕ) :
    tail (initUpTo m q config k) q =
      ofLE [if 4 < k then 0 else m (q + 4), if 5 < k then 0 else m (q + 4 + 1)] :=
  readLE_initUpTo_two k _ _ (by simp [initStores]) (by simp [initStores])

lemma capacity_initUpTo (k : ℕ) :
    capacity (initUpTo m q config k) q =
      ofLE [if 6 < k then UInt8.ofNat config.capacity.toNat else m (q + 6),
        if 7 < k then UInt8.ofNat (config.capacity.toNat / 256) else m (q + 6 + 1)] :=
  readLE_initUpTo_two k _ _ (by simp [initStores, toLE]) (by simp [initStores, toLE])

lemma blockSize_initUpTo (k : ℕ) :
    blockSize (initUpTo m q config k) q =
      ofLE [if 8 < k then UInt8.ofNat config.blockSize.toNat else m (q + 8),
        if 9 < k then UInt8.ofNat (config.blockSize.toNat / 256) else m (q + 8 + 1)] :=
  readLE_initUpTo_two k _ _ (by simp [initStores, toLE]) (by simp [initStores, toLE])

/-- The lock words are `0` from their store on. -/
lemma lock_initUpTo {i : ℕ} (hi : i < 4) (k : ℕ) :
    readLE (initUpTo m q config k) (q + (4036 + 4 * i)) 4 =
      if 36 + i < k then 0 else readLE m (q + (4036 + 4 * i)) 4 :=
  readLE_initUpTo_word config k (36 + i) _ 0 (by interval_cases i <;> simp [initStores])

/-! ### Stores and calls in any order -/

/-- What happens next: the creator makes its next store, or a peer comes to a
call. -/
inductive Action
  | store
  | call (call : Call)

/-- The creator has made `k` stores, and the actions follow. A peer makes its call
if it takes the queue for initialised. -/
def interleave (p : PrivateQueue) : List Action → ℕ → Mem → Option (List Event × ℕ × Mem)
  | [], k, m => some ([], k, m)
  | .store :: as, k, m =>
      interleave p as (k + 1)
        (storeAll m ((initStores p.config)[k]?.toList.map fun w => (p.queue + w.1, w.2)))
  | .call call :: as, k, m =>
      if hyperampQueueIsInitialized m p.queue then do
        let (ret, bytes, m) ← call.exec p.queue p.virtBase m
        let (log, r) ← interleave p as k m
        return (⟨call, ret, bytes⟩ :: log, r)
      else interleave p as k m

/-- The calls of a log are made on the initialised queue, and do the same. -/
def OnInitialized (p : PrivateQueue) (m : Mem) (log : List Event) (m' : Mem) : Prop :=
  runCalls p.queue p.virtBase (log.map Event.call)
    (hyperampQueueInit m p.queue (some p.config) true).2 = some (log, m')

/-- At every point between the writes of the creator, a peer that takes the
queue for initialised finds it ready; and whatever calls peers make between the
writes, each of them does what it does on the fully initialised queue, which is
also what is left for the calls to come. -/
structure PublicationSafe (p : PrivateQueue) (m : Mem) : Prop where
  ready : ∀ k ≤ (initStores p.config).length,
    hyperampQueueIsInitialized (initUpTo m p.queue p.config k) p.queue = true →
      Ready (initUpTo m p.queue p.config k) p.queue p.config
  calls : ∀ as, ∃ log k m₁ m₂, interleave p as 0 m = some (log, k, m₁) ∧
    OnInitialized p m log m₂ ∧
    (hyperampQueueIsInitialized m₁ p.queue = true → SameForPeer p.queue m₁ m₂)

/-- After all stores the counters are those of the calls. -/
def CountsCalls (p : PrivateQueue) (m : Mem) : Prop :=
  ∀ as, ∃ log k m₁ m₂, interleave p as 0 m = some (log, k, m₁) ∧ OnInitialized p m log m₂ ∧
    ((initStores p.config).length ≤ k →
      enqueueCount m₁ p.queue = enqueueCount m₂ p.queue ∧
      dequeueCount m₁ p.queue = dequeueCount m₂ p.queue ∧
      lockCount m₁ (queueLock p.queue) = lockCount m₂ (queueLock p.queue))

/-- The prior contents that make every point safe: the block size and the lock
are already as configured, and either the capacity is `0` and its first byte
written publishes nothing or all of it, or the queue is empty and is to have the
one slot that it has, which is never filled. -/
def SafePrior (m : Mem) (q : ℕ) (config : HyperampQueueConfig) : Prop :=
  blockSize m q = config.blockSize.toNat ∧
  (∀ i < 4, readLE m (q + (4036 + 4 * i)) 4 = 0) ∧
  ((capacity m q = 0 ∧ (config.capacity.toNat % 256 = 0 ∨ config.capacity.toNat < 256)) ∨
    (config.capacity.toNat = 1 ∧ capacity m q = 1 ∧ header m q = 0 ∧ tail m q = 0))

/-- The four lock words of a control block, by offset. -/
lemma Ready.lock_zero (h : Ready m q config) : ∀ i < 4, readLE m (q + (4036 + 4 * i)) 4 = 0 := by
  intro i hi
  interval_cases i
  · exact h.lockValue
  · exact h.ownerZoneId
  · exact h.lockCount
  · exact h.contentionCount

/-- Two words that read the same have the same bytes. -/
lemma apply_eq_of_readLE {off w x : ℕ} (h : readLE m₁ (q + off) w = readLE m₂ (q + off) w)
    (hlo : q + off ≤ x) (hhi : x < q + off + w) : m₁ x = m₂ x := by
  have hbyte := eq_of_readLE_eq h (x - (q + off)) (by omega)
  rwa [show q + off + (x - (q + off)) = x by omega] at hbyte

/-- Memories with the same fields, and equal outside the control block, look the
same to a peer. -/
lemma sameForPeer_of_fields (hheader : header m₁ q = header m₂ q) (htail : tail m₁ q = tail m₂ q)
    (hcap : capacity m₁ q = capacity m₂ q) (hbs : blockSize m₁ q = blockSize m₂ q)
    (hlock : lockValue m₁ (queueLock q) = lockValue m₂ (queueLock q))
    (howner : ownerZoneId m₁ (queueLock q) = ownerZoneId m₂ (queueLock q))
    (hout : ∀ x, x < q ∨ q + queueSize ≤ x → m₁ x = m₂ x) : SameForPeer q m₁ m₂ := by
  intro x hx
  rcases hx with hx | hx | hx
  · by_cases h4 : x < q + 4
    · exact apply_eq_of_readLE hheader (by omega) (by omega)
    by_cases h6 : x < q + 6
    · exact apply_eq_of_readLE htail (by omega) (by omega)
    by_cases h8 : x < q + 8
    · exact apply_eq_of_readLE hcap (by omega) (by omega)
    · exact apply_eq_of_readLE hbs (by omega) (by omega)
  · have hlock' : readLE m₁ (q + 4036) 4 = readLE m₂ (q + 4036) 4 := hlock
    have howner' : readLE m₁ (q + 4040) 4 = readLE m₂ (q + 4040) 4 := howner
    by_cases h4 : x < q + 4040
    · exact apply_eq_of_readLE hlock' (by omega) (by omega)
    · exact apply_eq_of_readLE howner' (by omega) (by omega)
  · exact hout x hx

lemma Ready.sameForPeer (h₁ : Ready m₁ q config) (h₂ : Ready m₂ q config)
    (hout : ∀ x, x < q ∨ q + queueSize ≤ x → m₁ x = m₂ x) : SameForPeer q m₁ m₂ :=
  sameForPeer_of_fields (h₁.header.trans h₂.header.symm) (h₁.tail.trans h₂.tail.symm)
    (h₁.capacity.trans h₂.capacity.symm) (h₁.blockSize.trans h₂.blockSize.symm)
    (h₁.lockValue.trans h₂.lockValue.symm) (h₁.ownerZoneId.trans h₂.ownerZoneId.symm) hout

lemma ready_of_ctrl (h : ctrl m q = initialCtrl config) : Ready m q config where
  header := congrArg Ctrl.header h
  tail := congrArg Ctrl.tail h
  capacity := congrArg Ctrl.capacity h
  blockSize := congrArg Ctrl.blockSize h
  lockValue := congrArg Ctrl.lockValue h
  ownerZoneId := congrArg Ctrl.ownerZoneId h
  lockCount := congrArg Ctrl.lockCount h
  contentionCount := congrArg Ctrl.contentionCount h

/-- The fully initialised queue is ready. -/
lemma ready_init (m : Mem) (q : ℕ) (config : HyperampQueueConfig) :
    Ready (initUpTo m q config (initStores config).length) q config :=
  ready_of_ctrl (ctrl_initUpTo config m q)

/-! ### Once the queue shows -/

/-- `k` stores have been made in `m₁`, which to a peer looks like `m₂`, the fully
initialised queue after the calls so far, with the messages `xs` pending. Before
the indices are stored, there is no room for a message. -/
structure Sync (p : PrivateQueue) (k : ℕ) (m₁ m₂ : Mem) (xs : List (List UInt8)) : Prop where
  same : SameForPeer p.queue m₁ m₂
  inv : QueueInv p m₂ xs
  owner : ownerZoneId m₂ (queueLock p.queue) = 0
  early : k < 6 → p.c = 1

/-- The stores from the sixth on are behind the indices. -/
lemma offset_of_initStores {k : ℕ} {w : ℕ × List UInt8} (hk : (initStores config)[k]? = some w)
    (h6 : 6 ≤ k) : 6 ≤ w.1 := by
  have hdec : ∀ s ∈ ((initStores ⟨0, 0, 0, 0, 0⟩).map fun w => (w.1, w.2.length)).drop 6,
      6 ≤ s.1 := by decide +kernel
  rw [← spans_initStores config] at hdec
  refine hdec (w.1, w.2.length) (List.mem_of_getElem? (i := k - 6) ?_)
  rw [List.getElem?_drop, Nat.add_sub_cancel' h6, List.getElem?_map, hk]
  rfl

lemma initUpTo_succ (m : Mem) (q : ℕ) (config : HyperampQueueConfig) (k : ℕ) :
    initUpTo m q config (k + 1) = storeAll (initUpTo m q config k)
      ((initStores config)[k]?.toList.map fun w => (q + w.1, w.2)) := by
  rw [initUpTo, initUpTo, List.take_add_one, List.map_append, storeAll_append]

namespace Sync

variable {k : ℕ}

/-- The bytes of the fields are those that the creator writes. -/
lemma byte (h : Sync p k m₁ m₂ xs) {x : ℕ} (hx : PeerByte p.queue x)
    (hearly : p.queue + 2 ≤ x → x < p.queue + 6 → k < 6) :
    initUpTo m₂ p.queue p.config (initStores p.config).length x = m₂ x := by
  have hready := ready_init m₂ p.queue p.config
  have hcap : capacity m₂ p.queue = p.config.capacity.toNat := h.inv.capacity
  have hbs : blockSize m₂ p.queue = p.config.blockSize.toNat := h.inv.blockSize
  have hlock : lockValue m₂ (queueLock p.queue) = 0 := h.inv.lock
  rcases hx with hx | hx | hx
  · by_cases h6 : x < p.queue + 6
    · -- the indices are stored while there is no room, so they are zero
      have hone := h.early (hearly hx.1 h6)
      have hheader : header m₂ p.queue < p.c := h.inv.ring.header_lt
      have htail : tail m₂ p.queue < p.c := h.inv.ring.tail_lt
      have hheader0 : header m₂ p.queue = 0 := by omega
      have htail0 : tail m₂ p.queue = 0 := by omega
      by_cases h4 : x < p.queue + 4
      · exact apply_eq_of_readLE (hready.header.trans hheader0.symm) (by omega) (by omega)
      · exact apply_eq_of_readLE (hready.tail.trans htail0.symm) (by omega) (by omega)
    · by_cases h8 : x < p.queue + 8
      · exact apply_eq_of_readLE (hready.capacity.trans hcap.symm) (by omega) (by omega)
      · exact apply_eq_of_readLE (hready.blockSize.trans hbs.symm) (by omega) (by omega)
  · have hlock' : readLE (initUpTo m₂ p.queue p.config (initStores p.config).length)
        (p.queue + 4036) 4 = readLE m₂ (p.queue + 4036) 4 := hready.lockValue.trans hlock.symm
    have howner' : readLE (initUpTo m₂ p.queue p.config (initStores p.config).length)
        (p.queue + 4040) 4 = readLE m₂ (p.queue + 4040) 4 :=
      hready.ownerZoneId.trans h.owner.symm
    by_cases h4 : x < p.queue + 4040
    · exact apply_eq_of_readLE hlock' (by omega) (by omega)
    · exact apply_eq_of_readLE howner' (by omega) (by omega)
  · exact initUpTo_of_outside p.config _ hx

/-- **A store changes nothing a peer looks at**: it writes what is there. -/
lemma step_store (h : Sync p k m₁ m₂ xs) :
    Sync p (k + 1)
      (storeAll m₁ ((initStores p.config)[k]?.toList.map fun w => (p.queue + w.1, w.2))) m₂ xs := by
  refine ⟨?_, h.inv, h.owner, fun hk => h.early (by omega)⟩
  cases hw : (initStores p.config)[k]? with
  | none => exact h.same
  | some w =>
      intro x hx
      have hlt : k < (initStores p.config).length := (List.getElem?_eq_some_iff.mp hw).1
      have hfull := load_initUpTo (m := m₂) (q := p.queue) (initStores p.config).length hw
      rw [if_pos hlt] at hfull
      show store m₁ (p.queue + w.1) w.2 x = m₂ x
      by_cases hin : p.queue + w.1 ≤ x ∧ x < p.queue + w.1 + w.2.length
      · have hbyte := h.byte hx fun _ h6 => by
          by_contra hk
          have hoff := offset_of_initStores hw (not_lt.mp hk)
          omega
        have hstore := load_store_same m₁ (p.queue + w.1) w.2
        have hsame := eq_of_load_eq (hstore.trans hfull.symm) (x - (p.queue + w.1)) (by omega)
        rw [show p.queue + w.1 + (x - (p.queue + w.1)) = x by omega] at hsame
        exact hsame.trans hbyte
      · rw [store_of_outside (by omega)]
        exact h.same x hx

/-- A call clears the owner when it gives the lock back. -/
lemma owner_of_exec {call : Call} {v : ℕ} {r : HyperampRet × List UInt8 × Mem}
    (hexec : call.exec q v m = some r) (howner : ownerZoneId m (queueLock q) = 0) :
    ownerZoneId r.2.2 (queueLock q) = 0 := by
  have hunlock : ∀ m, ownerZoneId (hyperampSpinlockUnlock m (queueLock q)) (queueLock q) = 0 := by
    intro m
    show (ctrl (hyperampSpinlockUnlock m (queueLock q)) q).ownerZoneId = 0
    rw [ctrl_unlock]
  cases call with
  | enqueue zone data =>
      obtain ⟨e, he, hr⟩ := Option.bind_eq_some_iff.mp hexec
      obtain rfl := Option.some.inj hr
      cases data with
      | none =>
          obtain rfl := Option.some.inj he
          exact howner
      | some data =>
          simp only [hyperampQueueEnqueue] at he
          split_ifs at he with hargs hlen
          · obtain rfl := Option.some.inj he
            exact howner
          · obtain rfl := Option.some.inj he
            exact howner
          · obtain ⟨locked, -, he⟩ := Option.bind_eq_some_iff.mp he
            obtain rfl := Option.some.inj he
            exact hunlock _
  | dequeue zone dataPtr maxLen =>
      simp only [Call.exec, hyperampQueueDequeue] at hexec
      split_ifs at hexec with hargs
      · obtain rfl := Option.some.inj hexec
        exact howner
      · obtain ⟨locked, -, he⟩ := Option.bind_eq_some_iff.mp hexec
        obtain rfl := Option.some.inj he
        exact hunlock _

/-- **A call does what it does on the initialised queue.** -/
lemma step_call (h : Sync p k m₁ m₂ xs) (call : Call) :
    ∃ ret bytes m₁' m₂' ys, call.exec p.queue p.virtBase m₁ = some (ret, bytes, m₁') ∧
      call.exec p.queue p.virtBase m₂ = some (ret, bytes, m₂') ∧ Sync p k m₁' m₂' ys := by
  obtain ⟨ret, bytes, m₂', ys, hspec⟩ := call_simulates h.inv call
  have hsame := exec_sameOutcome h.same h.inv call
  have howner := owner_of_exec hspec.exec h.owner
  rw [hspec.exec] at hsame
  generalize ho : call.exec p.queue p.virtBase m₁ = o at hsame
  cases hsame with
  | @some r₁ _ hr =>
      obtain ⟨ret₁, bytes₁, m₁'⟩ := r₁
      obtain ⟨rfl, rfl, hmem⟩ := hr
      exact ⟨ret₁, bytes₁, m₁', m₂', ys, rfl, hspec.exec, hmem, hspec.inv, howner, h.early⟩

lemma isInitialized (h : Sync p k m₁ m₂ xs) : hyperampQueueIsInitialized m₁ p.queue = true := by
  have hcap : capacity m₂ p.queue = p.c := h.inv.capacity
  have hpos := p.c_pos
  simp only [hyperampQueueIsInitialized, h.same.capacity_eq, hcap, Bool.and_eq_true,
    decide_eq_true_eq]
  exact ⟨p.queue_ne, hpos⟩

end Sync

/-- **Whatever happens once the queue shows**, the calls do what they do on the
initialised queue. -/
lemma interleave_sync {k : ℕ} (h : Sync p k m₁ m₂ xs) (as : List Action) :
    ∃ log k' m₁' m₂' ys, interleave p as k m₁ = some (log, k', m₁') ∧
      runCalls p.queue p.virtBase (log.map Event.call) m₂ = some (log, m₂') ∧
      Sync p k' m₁' m₂' ys := by
  induction as generalizing k m₁ m₂ xs with
  | nil => exact ⟨[], k, m₁, m₂, xs, rfl, rfl, h⟩
  | cons a as ih =>
      cases a with
      | store => exact ih h.step_store
      | call call =>
          obtain ⟨ret, bytes, m₁', m₂', ys, hexec₁, hexec₂, hsync⟩ := h.step_call call
          obtain ⟨log, k', m₁'', m₂'', zs, hrun, hcalls, hend⟩ := ih hsync
          refine ⟨⟨call, ret, bytes⟩ :: log, k', m₁'', m₂'', zs, ?_, ?_, hend⟩
          · simp only [interleave, if_pos h.isInitialized, hexec₁, Option.bind_eq_bind,
              Option.bind_some, hrun]
            rfl
          · simp only [List.map_cons, runCalls, hexec₂, Option.bind_eq_bind, Option.bind_some,
              hcalls]
            rfl

/-! ### The exact condition -/

/-- Over safe prior contents, a capacity that shows means the queue is ready. -/
lemma SafePrior.ready (hs : SafePrior m q config) {k : ℕ}
    (hcap : 0 < capacity (initUpTo m q config k) q) : Ready (initUpTo m q config k) q config := by
  obtain ⟨hbs, hlock, hprior⟩ := hs
  have hcapLt := config.capacity.toNat_lt
  have hlockk : ∀ i < 4, readLE (initUpTo m q config k) (q + (4036 + 4 * i)) 4 = 0 := by
    intro i hi
    rw [lock_initUpTo hi, hlock i hi, ite_self]
  -- the indices and the capacity, by the two kinds of prior contents
  have hring : header (initUpTo m q config k) q = 0 ∧ tail (initUpTo m q config k) q = 0 ∧
      capacity (initUpTo m q config k) q = config.capacity.toNat := by
    rcases hprior with ⟨hc, hbyte⟩ | ⟨hone, hc, hh, ht⟩
    · have hold : ofLE [m (q + 6), m (q + 6 + 1)] = 0 := hc
      rw [capacity_initUpTo] at hcap ⊢
      simp only [ofLE, apply_ite UInt8.toNat, UInt8.toNat_ofNat'] at hold hcap ⊢
      have hk : 6 < k := by
        by_contra hk
        rw [if_neg (by omega), if_neg (by omega)] at hcap
        omega
      refine ⟨?_, ?_, ?_⟩
      · rw [header_initUpTo, if_pos (by omega), if_pos (by omega)]
        rfl
      · rw [tail_initUpTo, if_pos (by omega), if_pos (by omega)]
        rfl
      · rw [if_pos hk] at hcap ⊢
        split at hcap <;> split <;> omega
    · rw [header_initUpTo, tail_initUpTo, capacity_initUpTo]
      exact ⟨ofLE_two_same (by omega) hh _ _, ofLE_two_same (by omega) ht _ _,
        ofLE_two_same (by omega) (hc.trans hone.symm) _ _⟩
  exact
    { header := hring.1
      tail := hring.2.1
      capacity := hring.2.2
      blockSize := by
        rw [blockSize_initUpTo]
        exact ofLE_two_same config.blockSize.toNat_lt hbs _ _
      lockValue := hlockk 0 (by omega)
      ownerZoneId := hlockk 1 (by omega)
      lockCount := hlockk 2 (by omega)
      contentionCount := hlockk 3 (by omega) }

/-- If every point at which the capacity shows is ready, the prior contents are
safe, or the queue shows from the start: the points are the start, and those after
each byte of the capacity. -/
lemma safePrior_of_ready (hne : config.capacity.toNat ≠ 0)
    (h : ∀ k ≤ (initStores config).length, 0 < capacity (initUpTo m q config k) q →
      Ready (initUpTo m q config k) q config) :
    SafePrior m q config ∨ Ready m q config := by
  have hcapLt := config.capacity.toNat_lt
  rw [length_initStores] at h
  by_cases hprior : capacity m q = 0
  · have hold : ofLE [m (q + 6), m (q + 6 + 1)] = 0 := hprior
    simp only [ofLE] at hold
    have hready : Ready (initUpTo m q config 8) q config := by
      apply h 8 (by omega)
      rw [capacity_initUpTo, if_pos (by omega), if_pos (by omega)]
      simp only [ofLE, UInt8.toNat_ofNat']
      omega
    refine .inl ⟨?_, ?_, .inl ⟨hprior, ?_⟩⟩
    · have hbs := hready.blockSize
      rwa [blockSize_initUpTo, if_neg (by omega), if_neg (by omega)] at hbs
    · intro i hi
      have hlock := hready.lock_zero i hi
      rwa [lock_initUpTo hi, if_neg (by omega)] at hlock
    · by_contra hcon
      have hshown : capacity (initUpTo m q config 7) q = config.capacity.toNat % 256 := by
        rw [capacity_initUpTo, if_pos (by omega), if_neg (by omega)]
        simp only [ofLE, UInt8.toNat_ofNat']
        omega
      have hcap7 := (h 7 (by omega) (by omega)).capacity
      omega
  · refine .inr (h 0 (by omega) ?_)
    have hsame : capacity m q = capacity (initUpTo m q config 0) q := rfl
    omega

section Runs

variable (p m)

/-- The fully initialised queue, by name and as the result of all stores. -/
lemma hyperampQueueInit_eq : (hyperampQueueInit m p.queue (some p.config) true).2 =
    initUpTo m p.queue p.config (initStores p.config).length := by
  have hargs : ¬ (p.queue = 0 ∨ p.config.blockSize = 0 ∨ p.config.capacity = 0) := by
    simp [p.queue_ne, p.blockSize_ne, p.capacity_ne]
  simp only [hyperampQueueInit, if_neg hargs, if_true]

variable {p m}

lemma isInitialized_iff :
    hyperampQueueIsInitialized m p.queue = true ↔ 0 < capacity m p.queue := by
  simp [hyperampQueueIsInitialized, p.queue_ne]

/-- Where the queue shows as ready, the calls of the peers may begin. -/
lemma sync_of_ready {k : ℕ} (hready : Ready (initUpTo m p.queue p.config k) p.queue p.config)
    (hearly : k < 6 → p.c = 1) :
    Sync p k (initUpTo m p.queue p.config k)
      (hyperampQueueInit m p.queue (some p.config) true).2 [] := by
  have hfull := ready_init m p.queue p.config
  have hinit := QueueInv.init p m
  rw [hyperampQueueInit_eq] at hinit ⊢
  refine ⟨hready.sameForPeer hfull fun x hx => ?_, hinit, hfull.ownerZoneId, hearly⟩
  rw [initUpTo_of_outside p.config k hx, initUpTo_of_outside p.config _ hx]

/-- Until the capacity shows there are no calls, and from then on they are in
step. -/
lemma interleave_waiting (hs : SafePrior m p.queue p.config) (as : List Action) (k : ℕ)
    (hcap : capacity (initUpTo m p.queue p.config k) p.queue = 0) :
    ∃ log k' m₁ m₂, interleave p as k (initUpTo m p.queue p.config k) = some (log, k', m₁) ∧
      OnInitialized p m log m₂ ∧
      (hyperampQueueIsInitialized m₁ p.queue = true → SameForPeer p.queue m₁ m₂) := by
  have hhidden : ∀ k, capacity (initUpTo m p.queue p.config k) p.queue = 0 →
      ¬ hyperampQueueIsInitialized (initUpTo m p.queue p.config k) p.queue = true := by
    intro k hcap
    rw [isInitialized_iff, hcap]
    omega
  induction as generalizing k with
  | nil => exact ⟨[], k, _, _, rfl, rfl, fun h => absurd h (hhidden k hcap)⟩
  | cons a as ih =>
      cases a with
      | call call =>
          rw [interleave, if_neg (hhidden k hcap)]
          exact ih k hcap
      | store =>
          rw [interleave, ← initUpTo_succ]
          by_cases hnext : capacity (initUpTo m p.queue p.config (k + 1)) p.queue = 0
          · exact ih (k + 1) hnext
          · have hready := hs.ready (Nat.pos_of_ne_zero hnext)
            have hsync := sync_of_ready hready fun h6 => by
              -- the indices come before the capacity
              rw [capacity_initUpTo, if_neg (by omega), if_neg (by omega)] at hcap hnext
              exact absurd hcap hnext
            obtain ⟨log, k', m₁, m₂, ys, hrun, hcalls, hend⟩ := interleave_sync hsync as
            exact ⟨log, k', m₁, m₂, hrun, hcalls, fun _ => hend.same⟩

/-- **Safe prior contents make every run safe.** -/
lemma SafePrior.publicationSafe (hs : SafePrior m p.queue p.config) : PublicationSafe p m := by
  refine ⟨fun k _ hinit => hs.ready (isInitialized_iff.mp hinit), fun as => ?_⟩
  by_cases hcap : capacity (initUpTo m p.queue p.config 0) p.queue = 0
  · exact interleave_waiting hs as 0 hcap
  · have hready := hs.ready (Nat.pos_of_ne_zero hcap)
    have hsync := sync_of_ready hready fun _ => by
      rcases hs.2.2 with ⟨hzero, -⟩ | ⟨hone, -⟩
      · exact absurd hzero hcap
      · exact hone
    obtain ⟨log, k', m₁, m₂, ys, hrun, hcalls, hend⟩ := interleave_sync hsync as
    exact ⟨log, k', m₁, m₂, hrun, hcalls, fun _ => hend.same⟩

/-- Stores without calls in between. -/
lemma interleave_stores (n k : ℕ) (m : Mem) (as : List Action) :
    interleave p (List.replicate n .store ++ as) k m = interleave p as (k + n)
      (storeAll m ((((initStores p.config).drop k).take n).map fun w => (p.queue + w.1, w.2))) := by
  induction n generalizing k m with
  | zero => rfl
  | succ n ih =>
      have hsplit : ((initStores p.config).drop k).take (n + 1) =
          (initStores p.config)[k]?.toList ++ ((initStores p.config).drop (k + 1)).take n := by
        rcases Nat.lt_or_ge k (initStores p.config).length with hlt | hge
        · rw [List.drop_eq_getElem_cons hlt, List.take_succ_cons, List.getElem?_eq_getElem hlt]
          rfl
        · rw [List.drop_eq_nil_of_le hge, List.drop_eq_nil_of_le (by omega),
            List.getElem?_eq_none hge, List.take_nil, List.take_nil]
          rfl
      rw [List.replicate_succ, List.cons_append, interleave, ih, hsplit, List.map_append,
        storeAll_append, Nat.add_assoc, Nat.add_comm 1]

/-- After one call the remaining stores are made. -/
lemma interleave_call {call : Call} {k n : ℕ} {log : List Event} {k' : ℕ}
    (hinit : hyperampQueueIsInitialized m p.queue = true)
    (hrun : interleave p (.call call :: (List.replicate n .store ++ [])) k m =
      some (log, k', m₁)) :
    ∃ ret bytes m', call.exec p.queue p.virtBase m = some (ret, bytes, m') ∧
      log = [⟨call, ret, bytes⟩] ∧ k' = k + n ∧
      m₁ = storeAll m' ((((initStores p.config).drop k).take n).map
        fun w => (p.queue + w.1, w.2)) := by
  rw [interleave, if_pos hinit] at hrun
  obtain ⟨⟨ret, bytes, m'⟩, hexec, hrun⟩ := Option.bind_eq_some_iff.mp hrun
  obtain ⟨⟨log', k'', m''⟩, hrest, hrun⟩ := Option.bind_eq_some_iff.mp hrun
  rw [interleave_stores, interleave] at hrest
  obtain ⟨rfl, hstored⟩ := Prod.mk.inj (Option.some.inj hrest)
  obtain ⟨rfl, rfl⟩ := Prod.mk.inj hstored
  obtain ⟨rfl, hend⟩ := Prod.mk.inj (Option.some.inj hrun)
  obtain ⟨rfl, rfl⟩ := Prod.mk.inj hend
  exact ⟨ret, bytes, m', hexec, rfl, rfl, rfl⟩

/-- One call on the initialised queue. -/
lemma OnInitialized.exec {call : Call} {ret : HyperampRet} {bytes : List UInt8}
    (h : OnInitialized p m [⟨call, ret, bytes⟩] m₂) :
    call.exec p.queue p.virtBase (hyperampQueueInit m p.queue (some p.config) true).2 =
      some (ret, bytes, m₂) := by
  obtain ⟨⟨ret', bytes', m'⟩, hexec, h⟩ := Option.bind_eq_some_iff.mp h
  obtain ⟨⟨log', m''⟩, hrest, h⟩ := Option.bind_eq_some_iff.mp h
  obtain ⟨rfl, rfl⟩ : [] = log' ∧ m' = m'' := by simpa [runCalls] using hrest
  obtain ⟨⟨rfl, rfl⟩, rfl⟩ : (ret' = ret ∧ bytes' = bytes) ∧ m' = m₂ := by simpa using h
  exact hexec

/-- **A message put into a queue that shows from the start is lost**, if there is
room for one: the stores of the indices come after the call. -/
lemma PublicationSafe.one_slot (hsafe : PublicationSafe p m) (hready : Ready m p.queue p.config) :
    p.c = 1 := by
  by_contra hne
  have hcap : capacity m p.queue = p.c := hready.capacity
  have hinit : hyperampQueueIsInitialized m p.queue = true := by
    rw [isInitialized_iff, hcap]
    exact p.c_pos
  obtain ⟨log, k, m₁, m₂, hrun, hon, hsame⟩ := hsafe.calls
    (.call (.enqueue 0 (some [0])) ::
      (List.replicate (initStores p.config).length .store ++ []))
  obtain ⟨ret, bytes, m', hexec, rfl, -, hm₁⟩ := interleave_call hinit hrun
  have hfinal := ready_init m' p.queue p.config
  rw [List.drop_zero, ← initUpTo] at hm₁
  rw [← hm₁] at hfinal
  have hshown : hyperampQueueIsInitialized m₁ p.queue = true := by
    rw [isInitialized_iff, hfinal.capacity]
    exact p.c_pos
  have hsame' := hsame hshown
  -- on the initialised queue the message stays
  obtain ⟨m₃, hspec⟩ := enqueue_room_simulates 0 (QueueInv.init p m) (d := [0]) (by simp)
    p.b_pos (by simpa [eq_comm] using hne)
  have hm₂ : m₃ = m₂ := by
    have h := hspec.exec.symm.trans hon.exec
    simpa using congrArg (Option.map fun r => r.2.2) h
  subst hm₂
  have hboth : tail m₃ p.queue = header m₃ p.queue := by
    rw [← hsame'.tail_eq, ← hsame'.header_eq, hfinal.tail, hfinal.header]
  exact absurd (hspec.inv.ring.empty_iff.mp hboth) (by simp)

/-- **The counters are lost** over any prior contents: the lock words and the
counters are stored after the queue shows. -/
lemma not_countsCalls (p : PrivateQueue) (m : Mem) : ¬ CountsCalls p m := by
  intro hcounts
  have hshown : hyperampQueueIsInitialized (initUpTo m p.queue p.config 36) p.queue = true := by
    have hpos : 0 < p.config.capacity.toNat := p.c_pos
    have hlt := p.config.capacity.toNat_lt
    rw [isInitialized_iff, capacity_initUpTo, if_pos (by omega), if_pos (by omega)]
    simp only [ofLE, UInt8.toNat_ofNat']
    omega
  obtain ⟨log, k, m₁, m₂, hrun, hon, hcount⟩ := hcounts
    (List.replicate 36 .store ++ (.call (.dequeue 0 true 1) :: (List.replicate 20 .store ++ [])))
  rw [interleave_stores, List.drop_zero, ← initUpTo, Nat.zero_add] at hrun
  obtain ⟨ret, bytes, m', hexec, rfl, rfl, hm₁⟩ := interleave_call hshown hrun
  -- the call takes the lock once, and then the count is stored
  have hinit := QueueInv.init p m
  have hctrl : ctrl (hyperampQueueInit m p.queue (some p.config) true).2 p.queue =
      initialCtrl p.config := by
    rw [hyperampQueueInit_eq]
    exact ctrl_initUpTo p.config m p.queue
  obtain ⟨m₃, hexec', hctrl', -⟩ := hyperampQueueDequeue_again 0 p.virtBase p.queue_ne
    Nat.one_ne_zero hinit.lock (hinit.ring.empty_iff.mpr rfl)
  have hm₂ : m₃ = m₂ := by
    have h := hexec'.symm.trans hon.exec
    simpa using congrArg (Option.map fun r => r.2.2) h
  subst hm₂
  have hone : lockCount m₃ (queueLock p.queue) = 1 := by
    have h := congrArg Ctrl.lockCount hctrl'
    rw [hctrl] at h
    exact h
  have hzero : lockCount m₁ (queueLock p.queue) = 0 := by
    have hasc : Ascending (((initStores p.config).map fun w => (p.queue + w.1, w.2)).drop 36) :=
      List.Pairwise.drop (ascending_initStores p.config)
    have hword : (((initStores p.config).map fun w => (p.queue + w.1, w.2)).drop 36)[2]? =
        some (p.queue + 4044, toLE 4 0) := by
      simp [initStores]
    have hload := load_storeAll_take (m := m') hasc hword 20
    rw [← List.map_drop, ← List.map_take, ← hm₁, if_pos (by omega), length_toLE] at hload
    rw [lockCount, queueLock, Nat.add_assoc, readLE, hload]
    rfl
  have hsame := (hcount (by rw [length_initStores])).2.2
  omega

end Runs

/-- **Publication order.** Every point of the initialisation is safe for the peers,
with all calls they make, if and only if the prior contents of the control block
are safe; and the counters of the operations are lost over any contents. -/
theorem publication_safe_iff (p : PrivateQueue) (m : Mem) :
    (PublicationSafe p m ↔ SafePrior m p.queue p.config) ∧ ¬ CountsCalls p m := by
  refine ⟨⟨fun hsafe => ?_, SafePrior.publicationSafe⟩, not_countsCalls p m⟩
  have hpos : p.config.capacity.toNat ≠ 0 := p.c_pos.ne'
  rcases safePrior_of_ready hpos fun k hk hcap => hsafe.ready k hk (isInitialized_iff.mpr hcap)
    with hs | hready
  · exact hs
  · have hone : p.config.capacity.toNat = 1 := hsafe.one_slot hready
    exact ⟨hready.blockSize, hready.lock_zero,
      .inr ⟨hone, hready.capacity.trans hone, hready.header, hready.tail⟩⟩

/-- Memory in which the block size has been prepared is safe for three slots. -/
theorem publication_safe_prepared :
    PublicationSafe smallQueue (writeLE (fun _ => 0) (smallQueue.queue + 8) 2 4) := by
  refine (publication_safe_iff smallQueue _).1.mpr ⟨by decide, ?_, .inl (by decide)⟩
  intro i hi
  interval_cases i <;> decide

/-- A queue of 256 pages behind the page of its control block, where the small queue is. -/
def pageQueue : PrivateQueue where
  queue := 4096
  virtBase := 4096
  config := ⟨0, 256, 4096, 0, 0⟩
  queue_ne := smallQueue.queue_ne
  capacity_ne := by decide
  blockSize_ne := by decide
  fits := by decide
  clear := by decide

/-- Zeroed memory and a capacity of 256: after the second byte of the capacity
the queue shows as initialised with block size `0`. -/
theorem fresh_memory_unsafe :
    hyperampQueueIsInitialized (initUpTo (fun _ => 0) 4096 ⟨0, 256, 4096, 0, 0⟩ 8) 4096 = true ∧
      blockSize (initUpTo (fun _ => 0) 4096 ⟨0, 256, 4096, 0, 0⟩ 8) 4096 = 0 ∧
      ¬ PublicationSafe pageQueue (fun _ => 0) := by
  have hinit : hyperampQueueIsInitialized
      (initUpTo (fun _ => 0) 4096 ⟨0, 256, 4096, 0, 0⟩ 8) 4096 = true := by decide +kernel
  have hbs : blockSize (initUpTo (fun _ => 0) 4096 ⟨0, 256, 4096, 0, 0⟩ 8) 4096 = 0 := by
    decide +kernel
  refine ⟨hinit, hbs, fun hsafe => ?_⟩
  have hready := hsafe.ready 8 (by decide +kernel) hinit
  have hbs' : blockSize (initUpTo (fun _ => 0) 4096 ⟨0, 256, 4096, 0, 0⟩ 8) 4096 = 4096 :=
    hready.blockSize
  rw [hbs] at hbs'
  exact absurd hbs' (by decide)

end Hyperamp
