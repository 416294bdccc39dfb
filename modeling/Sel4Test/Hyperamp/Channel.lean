import Sel4Test.Hyperamp.Fifo
import Sel4Test.Lib.Exec

/-!
The two queues of a channel, `hyperamp-server/src/channel.c`.

A channel has a transmit queue and a receive queue of the same capacity and
block size, each with its own control block, and one data region. Both queues
compute their slot addresses from that one region, so slot `i` of the one is
slot `i` of the other.

* `channelInit`, `shmReadBuffer` and `shmWriteBuffer` are the functions of
  `channel.c`; the queue functions of the server are those of the frontend.
* `Overwrites` is the condition under which an operation on one queue writes a
  slot that is pending on the other.
* `channel_run_intact`: in every run without such an operation both queues are
  FIFOs and every pending message keeps its bytes.
* `peer_overwrites_pending` is a run of three operations in which a message is
  replaced by one of the other direction.
-/

namespace Hyperamp

open ByteMem

/-! ### The functions of `channel.c` -/

/-- The platforms a channel is built for. -/
inductive Platform
  | imx8mpEvk
  | rk3588
  | phytiumPi
  deriving DecidableEq, Repr

/-- `SHM_BASE_PADDR`. -/
def Platform.shmBasePaddr : Platform → UInt64
  | imx8mpEvk => 0x7E000000
  | rk3588 => 0x7E000000
  | phytiumPi => 0xDE000000

/-- `ZONE_ID_SEL4`. -/
def zoneIdSel4 : ℕ := 1

/-- `DEFAULT_BLOCK_SIZE`. -/
def defaultBlockSize : UInt16 := 4096

/-- `ChannelContext`. -/
structure ChannelContext where
  channelId : ℤ
  txQueue : ℕ
  rxQueue : ℕ
  dataRegion : ℕ
  queueCapacity : UInt16
  initialized : Bool
  deriving DecidableEq, Repr

/-- The configuration of one queue of a channel: `HYPERAMP_MAP_MODE_CONTIGUOUS_BOTH`,
the default block size, and the addresses of the control block. -/
def channelQueueConfig (capacity : UInt16) (phyAddr : UInt64) (va : ℕ) : HyperampQueueConfig where
  mapMode := 0
  capacity := capacity
  blockSize := defaultBlockSize
  phyAddr := phyAddr
  virtAddr := UInt64.ofNat va

/-- The physical address of the control blocks of a channel: channel 1 lies two
megabytes after channel 0. -/
def channelPaddr (platform : Platform) (chId : ℤ) : UInt64 :=
  platform.shmBasePaddr + if chId = 1 then 0x200000 else 0

/-- `channel_init`; `none` for `ctx` is the null pointer. -/
def channelInit (platform : Platform) (ctx : Option ChannelContext) (chId : ℤ)
    (txVa rxVa dataVa : ℕ) (capacity : UInt16) (m : Mem) :
    HyperampRet × Option ChannelContext × Mem :=
  match ctx with
  | none => (.error, none, m)
  | some ctx =>
      if txVa = 0 ∨ rxVa = 0 ∨ dataVa = 0 then (.error, some ctx, m)
      else
        let ctx : ChannelContext :=
          { channelId := chId, txQueue := txVa, rxQueue := rxVa, dataRegion := dataVa,
            queueCapacity := capacity, initialized := false }
        let txPhy := channelPaddr platform chId
        let rxPhy := channelPaddr platform chId + 0x1000
        let (txRet, m) :=
          hyperampQueueInit m ctx.txQueue (some (channelQueueConfig capacity txPhy txVa)) true
        if txRet ≠ .ok then (.error, some ctx, m)
        else
          let (rxRet, m) :=
            hyperampQueueInit m ctx.rxQueue (some (channelQueueConfig capacity rxPhy rxVa)) true
          if rxRet ≠ .ok then (.error, some ctx, m)
          else (.ok, some { ctx with initialized := true }, m)

/-- `shm_read_buffer`; `buf` says whether the buffer pointer is non-null. -/
def shmReadBuffer (ctx : Option ChannelContext) (buf : Bool) (maxLen : ℕ) (m : Mem) :
    Option (HyperampRet × List UInt8 × Mem) :=
  match ctx with
  | none => some (.error, [], m)
  | some ctx =>
      if ctx.initialized = false ∨ buf = false then some (.error, [], m)
      else hyperampQueueDequeue m ctx.rxQueue zoneIdSel4 buf maxLen ctx.dataRegion

/-- `shm_write_buffer`. -/
def shmWriteBuffer (ctx : Option ChannelContext) (buf : Option (List UInt8)) (m : Mem) :
    Option (HyperampRet × Mem) :=
  match ctx, buf with
  | some ctx, some data =>
      if ctx.initialized = false ∨ data.length = 0 then some (.error, m)
      else hyperampQueueEnqueue m ctx.txQueue zoneIdSel4 (some data) ctx.dataRegion
  | _, _ => some (.error, m)

/-! ### Operations of the two sides -/

/-- The two queues of a channel. -/
inductive Side
  | tx
  | rx
  deriving DecidableEq, Repr

/-- An operation on a channel: the server writes to the transmit queue and reads
from the receive queue, the peer zone does the converse with the same data
region. -/
inductive ChannelOp
  | write (buf : Option (List UInt8))
  | read (buf : Bool) (maxLen : ℕ)
  | peerEnqueue (zoneId : ℕ) (data : Option (List UInt8))
  | peerDequeue (zoneId : ℕ) (dataPtr : Bool) (maxLen : ℕ)
  deriving DecidableEq, Repr

/-- The queue an operation is on. -/
def ChannelOp.side : ChannelOp → Side
  | write _ => .tx
  | read _ _ => .rx
  | peerEnqueue _ _ => .rx
  | peerDequeue _ _ _ => .tx

/-- The queue call an operation amounts to. -/
def ChannelOp.call : ChannelOp → Call
  | write buf => .enqueue zoneIdSel4 buf
  | read buf maxLen => .dequeue zoneIdSel4 buf maxLen
  | peerEnqueue zoneId data => .enqueue zoneId data
  | peerDequeue zoneId dataPtr maxLen => .dequeue zoneId dataPtr maxLen

/-- The control block of a queue of the channel. -/
def ChannelContext.queueOf (ctx : ChannelContext) : Side → ℕ
  | .tx => ctx.txQueue
  | .rx => ctx.rxQueue

/-- One operation on the shared memory. -/
def ChannelOp.exec (ctx : ChannelContext) (m : Mem) :
    ChannelOp → Option (HyperampRet × List UInt8 × Mem)
  | write buf => do
      let (ret, m') ← shmWriteBuffer (some ctx) buf m
      return (ret, [], m')
  | read buf maxLen => shmReadBuffer (some ctx) buf maxLen m
  | peerEnqueue zoneId data => do
      let (ret, m') ← hyperampQueueEnqueue m ctx.rxQueue zoneId data ctx.dataRegion
      return (ret, [], m')
  | peerDequeue zoneId dataPtr maxLen =>
      hyperampQueueDequeue m ctx.txQueue zoneId dataPtr maxLen ctx.dataRegion

/-- The shared memory with what was returned on each queue. -/
structure ChannelState where
  mem : Mem
  log : Side → List Event

/-- One operation, recorded in the log of its queue. -/
def channelStep (ctx : ChannelContext) (s : ChannelState) (op : ChannelOp) :
    Option ChannelState := do
  let (ret, bytes, m') ← op.exec ctx s.mem
  return ⟨m', Function.update s.log op.side (s.log op.side ++ [⟨op.call, ret, bytes⟩])⟩

/-- The other queue. -/
def Side.other : Side → Side
  | tx => rx
  | rx => tx

/-- The operation is an enqueue that its own queue accepts, and its slot is
pending on the other queue. -/
def Overwrites (ctx : ChannelContext) (m : Mem) (op : ChannelOp) : Prop :=
  let own := ctx.queueOf op.side
  let other := ctx.queueOf op.side.other
  match op.call with
  | .enqueue _ (some d) =>
      d ≠ [] ∧ d.length ≤ blockSize m own ∧
      nextIndex (capacity m own) (header m own) ≠ tail m own ∧
      Ring.Pending (capacity m other) (tail m other)
        ((header m other + capacity m other - tail m other) % capacity m other) (header m own)
  | _ => False

instance (ctx : ChannelContext) (m : Mem) (op : ChannelOp) : Decidable (Overwrites ctx m op) :=
  match op with
  | .write none => inferInstanceAs (Decidable False)
  | .write (some _) => inferInstanceAs (Decidable (_ ∧ _ ∧ _ ∧ _))
  | .read _ _ => inferInstanceAs (Decidable False)
  | .peerEnqueue _ none => inferInstanceAs (Decidable False)
  | .peerEnqueue _ (some _) => inferInstanceAs (Decidable (_ ∧ _ ∧ _ ∧ _))
  | .peerDequeue _ _ _ => inferInstanceAs (Decidable False)

/-! ### Channels whose parts do not overlap -/

/-- Arguments of `channel_init` for which the two control blocks and the slots
of the data region lie clear of each other in the address space. -/
structure ChannelLayout where
  platform : Platform
  chId : ℤ
  txVa : ℕ
  rxVa : ℕ
  dataVa : ℕ
  capacity : UInt16
  txVa_ne : txVa ≠ 0
  rxVa_ne : rxVa ≠ 0
  dataVa_ne : dataVa ≠ 0
  capacity_ne : capacity ≠ 0
  fits : dataVa + (capacity.toNat + 1) * defaultBlockSize.toNat ≤ 2 ^ 64
  tx_clear : dataVa + (capacity.toNat + 1) * defaultBlockSize.toNat ≤ txVa ∨
    txVa + queueSize ≤ dataVa + defaultBlockSize.toNat
  rx_clear : dataVa + (capacity.toNat + 1) * defaultBlockSize.toNat ≤ rxVa ∨
    rxVa + queueSize ≤ dataVa + defaultBlockSize.toNat
  blocks_clear : txVa + queueSize ≤ rxVa ∨ rxVa + queueSize ≤ txVa

namespace ChannelLayout

variable (L : ChannelLayout)

/-- Each queue by itself, with the data region as its slot array. -/
def queue : Side → PrivateQueue
  | .tx =>
      { queue := L.txVa
        virtBase := L.dataVa
        config := channelQueueConfig L.capacity (channelPaddr L.platform L.chId) L.txVa
        queue_ne := L.txVa_ne
        capacity_ne := L.capacity_ne
        blockSize_ne := by show defaultBlockSize ≠ 0; decide
        fits := L.fits
        clear := L.tx_clear }
  | .rx =>
      { queue := L.rxVa
        virtBase := L.dataVa
        config := channelQueueConfig L.capacity (channelPaddr L.platform L.chId + 0x1000) L.rxVa
        queue_ne := L.rxVa_ne
        capacity_ne := L.capacity_ne
        blockSize_ne := by show defaultBlockSize ≠ 0; decide
        fits := L.fits
        clear := L.rx_clear }

/-- The context that `channel_init` leaves. -/
def ctx : ChannelContext where
  channelId := L.chId
  txQueue := L.txVa
  rxQueue := L.rxVa
  dataRegion := L.dataVa
  queueCapacity := L.capacity
  initialized := true

/-- The channel after `channel_init` over the memory `m`. -/
def start (m : Mem) : ChannelState where
  mem := (channelInit L.platform (some L.ctx) L.chId L.txVa L.rxVa L.dataVa L.capacity m).2.2
  log := fun _ => []

lemma queue_queue (side : Side) : (L.queue side).queue = L.ctx.queueOf side := by
  cases side <;> rfl

lemma queue_virtBase (side : Side) : (L.queue side).virtBase = L.dataVa := by
  cases side <;> rfl

lemma c_eq (side : Side) : (L.queue side).c = L.capacity.toNat := by
  cases side <;> rfl

lemma b_eq (side : Side) : (L.queue side).b = defaultBlockSize.toNat := by
  cases side <;> rfl

/-- Slot `i` of the one queue is slot `i` of the other. -/
lemma slot_eq (side side' : Side) (i : ℕ) : (L.queue side).slot i = (L.queue side').slot i := by
  simp only [PrivateQueue.slot, queue_virtBase, b_eq]

lemma blocks_disjoint (side : Side) :
    (L.queue side).queue + queueSize ≤ (L.queue side.other).queue ∨
      (L.queue side.other).queue + queueSize ≤ (L.queue side).queue := by
  have h := L.blocks_clear
  cases side with
  | tx => exact h
  | rx => exact h.symm

/-- `channel_init` initialises both queues. -/
lemma channelInit_eq (m : Mem) :
    channelInit L.platform (some L.ctx) L.chId L.txVa L.rxVa L.dataVa L.capacity m =
      (.ok, some L.ctx,
        (hyperampQueueInit (hyperampQueueInit m (L.queue .tx).queue
          (some (L.queue .tx).config) true).2 (L.queue .rx).queue
          (some (L.queue .rx).config) true).2) := by
  have hva : ¬ (L.txVa = 0 ∨ L.rxVa = 0 ∨ L.dataVa = 0) := by
    simp [L.txVa_ne, L.rxVa_ne, L.dataVa_ne]
  have hok : ∀ (side : Side) (m : Mem), (hyperampQueueInit m (L.queue side).queue
      (some (L.queue side).config) true).1 = .ok := by
    intro side m
    have hargs : ¬ ((L.queue side).queue = 0 ∨ (L.queue side).config.blockSize = 0 ∨
        (L.queue side).config.capacity = 0) := by
      simp [(L.queue side).queue_ne, (L.queue side).blockSize_ne, (L.queue side).capacity_ne]
    simp only [hyperampQueueInit, if_neg hargs, if_true]
  have htx := hok .tx m
  have hrx := hok .rx (hyperampQueueInit m (L.queue .tx).queue
    (some (L.queue .tx).config) true).2
  simp only [queue] at htx hrx
  simp only [channelInit, if_neg hva, htx, hrx, ne_eq, not_true_eq_false, if_false]
  rfl

end ChannelLayout

/-! ### Steps and runs -/

variable {L : ChannelLayout} {s s' : ChannelState} {m : Mem} {op : ChannelOp}

/-- An operation on an initialised channel is the queue call it amounts to. -/
lemma exec_eq_call (L : ChannelLayout) (m : Mem) (op : ChannelOp) :
    op.exec L.ctx m =
      op.call.exec (L.queue op.side).queue (L.queue op.side).virtBase m := by
  cases op with
  | write buf =>
      cases buf with
      | none => rfl
      | some data =>
          by_cases hlen : data.length = 0
          · have herr : hyperampQueueEnqueue m L.txVa zoneIdSel4 (some data) L.dataVa =
                some (.error, m) := by
              simp [hyperampQueueEnqueue, hlen]
            have hwrite : shmWriteBuffer (some L.ctx) (some data) m = some (.error, m) := by
              simp [shmWriteBuffer, hlen]
            show (shmWriteBuffer (some L.ctx) (some data) m >>= _) =
              (hyperampQueueEnqueue m L.txVa zoneIdSel4 (some data) L.dataVa >>= _)
            rw [herr, hwrite]
          · have hwrite : shmWriteBuffer (some L.ctx) (some data) m =
                hyperampQueueEnqueue m L.txVa zoneIdSel4 (some data) L.dataVa := by
              simp [shmWriteBuffer, hlen, ChannelLayout.ctx]
            show (shmWriteBuffer (some L.ctx) (some data) m >>= _) =
              (hyperampQueueEnqueue m L.txVa zoneIdSel4 (some data) L.dataVa >>= _)
            rw [hwrite]
  | read buf maxLen =>
      show shmReadBuffer (some L.ctx) buf maxLen m =
        hyperampQueueDequeue m L.rxVa zoneIdSel4 buf maxLen L.dataVa
      cases buf with
      | false => simp [shmReadBuffer, hyperampQueueDequeue]
      | true => simp [shmReadBuffer, ChannelLayout.ctx]
  | peerEnqueue zoneId data => rfl
  | peerDequeue zoneId dataPtr maxLen => rfl

/-- Each queue has run as a bounded FIFO and the memory represents what is
pending on it. -/
def ChannelInv (L : ChannelLayout) (s : ChannelState) : Prop :=
  ∀ side, ∃ xs, FifoRun (L.queue side).c (L.queue side).b [] (s.log side) xs ∧
    QueueInv (L.queue side) s.mem xs

/-- Both queues are empty FIFOs after `channel_init`. -/
lemma channelInv_start (L : ChannelLayout) (m : Mem) : ChannelInv L (L.start m) := by
  have htx := QueueInv.init (L.queue .tx) m
  have hrx := QueueInv.init (L.queue .rx)
    (hyperampQueueInit m (L.queue .tx).queue (some (L.queue .tx).config) true).2
  have hmem : (L.start m).mem = (hyperampQueueInit (hyperampQueueInit m (L.queue .tx).queue
      (some (L.queue .tx).config) true).2 (L.queue .rx).queue
      (some (L.queue .rx).config) true).2 := by
    rw [ChannelLayout.start, L.channelInit_eq]
  intro side
  refine ⟨[], .nil, ?_⟩
  rw [hmem]
  cases side with
  | tx =>
      -- initialising the receive queue writes only its own control block
      have hargs : ¬ ((L.queue .rx).queue = 0 ∨ (L.queue .rx).config.blockSize = 0 ∨
          (L.queue .rx).config.capacity = 0) := by
        simp [(L.queue .rx).queue_ne, (L.queue .rx).blockSize_ne, (L.queue .rx).capacity_ne]
      simp only [hyperampQueueInit, if_neg hargs, if_true] at htx ⊢
      have hdisj := L.blocks_disjoint .tx
      refine htx.frame (fun x hlo hhi => initUpTo_of_outside _ _ ?_) ?_
      · show x < (L.queue .rx).queue ∨ (L.queue .rx).queue + queueSize ≤ x
        simp only [Side.other] at hdisj
        omega
      · rintro i ⟨k, hk, -⟩
        exact absurd hk (by simp)
  | rx => exact hrx

/-- The step of an enqueue that puts a message in: its arguments were valid and
the ring had room. -/
lemma FifoStep.putsIn {c b : ℕ} {xs ys : List (List UInt8)} {call : Call} {ret : HyperampRet}
    {bytes : List UInt8} (h : FifoStep c b xs call ret bytes ys) (hputs : PutsIn call ret) :
    ∃ zone d, call = .enqueue zone (some d) ∧ d ≠ [] ∧ d.length ≤ b ∧ xs.length < c - 1 := by
  obtain ⟨rfl, zone, data, rfl⟩ := hputs
  cases h with
  | @enqueueRoom _ _ d hvalid hroom =>
      obtain ⟨d', hd', hne, hlen⟩ := hvalid
      obtain rfl : d = d' := Option.some.inj hd'
      exact ⟨zone, d, rfl, hne, hlen, hroom⟩

/-- The slot an accepted enqueue writes is pending on the other queue only if
the operation overwrites. -/
lemma not_pending_of_not_overwrites {xs zs ys : List (List UInt8)} {ret : HyperampRet}
    {bytes : List UInt8} (hown : QueueInv (L.queue op.side) m xs)
    (hother : QueueInv (L.queue op.side.other) m zs)
    (hstep : FifoStep (L.queue op.side).c (L.queue op.side).b xs op.call ret bytes ys)
    (hputs : PutsIn op.call ret) (hgood : ¬ Overwrites L.ctx m op) :
    ¬ Ring.Pending (L.queue op.side.other).c (ctrl m (L.queue op.side.other).queue).tail
      zs.length (ctrl m (L.queue op.side).queue).header := by
  intro hpend
  obtain ⟨zone, d, hcall, hne, hlen, hroom⟩ := hstep.putsIn hputs
  apply hgood
  have hcap := hown.capacity
  have hbs := hown.blockSize
  have hcap' := hother.capacity
  have hdiff := hother.ring.diff
  have hnext : nextIndex (L.queue op.side).c (ctrl m (L.queue op.side).queue).header ≠
      (ctrl m (L.queue op.side).queue).tail := by
    rw [nextIndex_eq hown.ring.header_lt (L.queue op.side).c_lt]
    intro hfull
    have := hown.ring.full_iff.mp hfull
    omega
  simp only [Overwrites, hcall, ← L.queue_queue]
  simp only [ctrl] at hcap hbs hcap' hdiff hnext hpend
  rw [hcap, hbs, hcap', hdiff]
  exact ⟨hne, hlen, hnext, hpend⟩

/-- **The step**: an operation that does not overwrite returns and keeps both
queues. -/
lemma channelStep_inv (h : ChannelInv L s) (hgood : ¬ Overwrites L.ctx s.mem op) :
    ∃ s', channelStep L.ctx s op = some s' ∧ ChannelInv L s' := by
  obtain ⟨xs, hrun, hinv⟩ := h op.side
  obtain ⟨zs, hrun', hinv'⟩ := h op.side.other
  obtain ⟨ret, bytes, m', ys, hspec⟩ := call_simulates hinv op.call
  have hexec := (exec_eq_call L s.mem op).trans hspec.exec
  refine ⟨⟨m', Function.update s.log op.side (s.log op.side ++ [⟨op.call, ret, bytes⟩])⟩, ?_, ?_⟩
  · simp [channelStep, hexec]
  intro side
  by_cases hside : side = op.side
  · subst hside
    refine ⟨ys, ?_, hspec.inv⟩
    simp only [Function.update_self]
    exact hrun.snoc hspec.step
  · obtain rfl : side = op.side.other := by
      revert hside
      cases side <;> cases op.side <;> simp [Side.other]
    refine ⟨zs, ?_, ?_⟩
    · simp only [Function.update_of_ne hside]
      exact hrun'
    -- the other queue: its control block and its pending slots are out of reach
    have hdisj := L.blocks_disjoint op.side
    refine hinv'.frame (fun x hlo hhi => hspec.frame x (by omega) fun _ => ?_) ?_
    · have hclear := (L.queue op.side.other).slot_clear
        (i := (ctrl s.mem (L.queue op.side).queue).header)
        (by rw [L.c_eq, ← L.c_eq op.side]; exact hinv.ring.header_lt)
      rw [L.slot_eq op.side.other op.side, L.b_eq, ← L.b_eq op.side] at hclear
      omega
    · intro i hi j hj
      have hlt := hinv'.pending_lt hi
      have hclear := (L.queue op.side).slot_clear (i := i)
        (by rw [L.c_eq, ← L.c_eq op.side.other]; exact hlt)
      rw [L.b_eq, ← L.b_eq op.side] at hj
      rw [L.slot_eq op.side.other op.side]
      refine hspec.frame _ (by omega) fun hputs => ?_
      have hne : i ≠ (ctrl s.mem (L.queue op.side).queue).header := by
        rintro rfl
        exact not_pending_of_not_overwrites hinv hinv' hspec.step hputs hgood hi
      have := (L.queue op.side).slot_disjoint hne
      omega

open Exec in
/-- **Both queues of a channel stay intact** in every run from `channel_init` on
in which no enqueue overwrites a slot pending on the other queue: each queue is a
bounded FIFO, its pending messages keep their bytes, and what is dequeued is what
the peer enqueued. Every such operation returns. -/
theorem channel_run_intact (L : ChannelLayout) (m₀ : Mem) (ops : List ChannelOp)
    (s : ChannelState)
    (hrun : Runs (Guarded (fun s op => ¬ Overwrites L.ctx s.mem op) (OfFun (channelStep L.ctx)))
      (L.start m₀) ops s) :
    (∀ side, FifoState (L.queue side) (s.log side) s.mem) ∧
      ∀ op, ¬ Overwrites L.ctx s.mem op → ∃ s', channelStep L.ctx s op = some s' := by
  have hinv : ChannelInv L s := by
    refine hrun.invariant _ ?_ (channelInv_start L m₀)
    rintro s op s' hs ⟨hgood, hstep⟩
    obtain ⟨s'', hstep', hinv⟩ := channelStep_inv hs hgood
    obtain rfl : s'' = s' := Option.some.inj (hstep'.symm.trans hstep)
    exact hinv
  constructor
  · intro side
    obtain ⟨xs, hfifo, hq⟩ := hinv side
    exact fifoState_of_run hfifo hq
  · intro op hgood
    obtain ⟨s', hstep, -⟩ := channelStep_inv hinv hgood
    exact ⟨s', hstep⟩

/-- Channel 0 at the addresses of the frontend. -/
def channel0 : ChannelLayout where
  platform := .phytiumPi
  chId := 0
  txVa := 0x55E000
  rxVa := 0x55F000
  dataVa := 0x560000
  capacity := 256
  txVa_ne := by decide
  rxVa_ne := by decide
  dataVa_ne := by decide
  capacity_ne := by decide
  fits := by decide
  tx_clear := by decide
  rx_clear := by decide
  blocks_clear := by decide

open Exec in
/-- The peer puts a message on the receive queue while the second message of the transmit queue is
pending, in the next slot. -/
theorem channel_run_intact_exchange :
    ∃ s, Runs (Guarded (fun s op => ¬ Overwrites channel0.ctx s.mem op)
        (OfFun (channelStep channel0.ctx))) (channel0.start fun _ => 0)
        [.write (some [1]), .peerDequeue 0 true 1, .write (some [3]), .peerEnqueue 0 (some [2]),
          .peerDequeue 0 true 1, .read true 1] s ∧
      dequeued (s.log .tx) = [(1, [1]), (1, [3])] ∧ dequeued (s.log .rx) = [(1, [2])] ∧
      ∀ side, FifoState (channel0.queue side) (s.log side) s.mem := by
  have heval : ((runFun (fun s op => !decide (Overwrites channel0.ctx s.mem op))
      (channelStep channel0.ctx) (channel0.start fun _ => 0)
      [.write (some [1]), .peerDequeue 0 true 1, .write (some [3]), .peerEnqueue 0 (some [2]),
        .peerDequeue 0 true 1, .read true 1]).map
      fun s => (dequeued (s.log .tx), dequeued (s.log .rx))) =
        some ([(1, [1]), (1, [3])], [(1, [2])]) := by decide +kernel
  obtain ⟨s, hs, hlogs⟩ := Option.map_eq_some_iff.mp heval
  obtain ⟨htx, hrx⟩ := Prod.mk.inj hlogs
  have hrun := runs_of_runFun (fun s op => ¬ Overwrites channel0.ctx s.mem op)
    (by simp) hs
  exact ⟨s, hrun, htx, hrx, (channel_run_intact channel0 _ _ s hrun).1⟩

open Exec in
/-- The server writes a message, the peer puts one on the receive queue, and the
peer then takes its own message off the transmit queue. -/
theorem peer_overwrites_pending :
    ∃ s, Runs (OfFun (channelStep channel0.ctx)) (channel0.start fun _ => 0)
        [.write (some [1]), .peerEnqueue 0 (some [2]), .peerDequeue 0 true 1] s ∧
      enqueued (s.log .tx) = [[1]] ∧ dequeued (s.log .tx) = [(1, [2])] ∧
      ¬ Delivers (channel0.queue .tx).b (enqueued (s.log .tx)) (dequeued (s.log .tx)) := by
  have heval : ((runFun (fun _ _ => true) (channelStep channel0.ctx)
      (channel0.start fun _ => 0)
      [.write (some [1]), .peerEnqueue 0 (some [2]), .peerDequeue 0 true 1]).map
      fun s => (enqueued (s.log .tx), dequeued (s.log .tx))) =
        some ([[1]], [(1, [2])]) := by decide +kernel
  obtain ⟨s, hs, hlogs⟩ := Option.map_eq_some_iff.mp heval
  obtain ⟨henq, hdeq⟩ := Prod.mk.inj hlogs
  refine ⟨s, runs_of_eval hs, henq, hdeq, fun hdel => ?_⟩
  have hfirst := (hdel 0 [1] 1 [2] (by rw [henq]; rfl) (by rw [hdeq]; rfl)).2
  simp at hfirst

end Hyperamp
