import Sel4Test.Server.Ch0

/-!
The slots of the server's channels and their bulk buffer, `hyperamp-server/src/channel.c`.

Slot `i` of a queue starts `i + 1` blocks after the base of the data region, and the bulk
buffer starts `BULK_BUFFER_OFFSET` bytes after it. Channel 1 has 253 slots, so that the last
one ends where its data region does; channel 0 has 256, and its slot 255 starts exactly where
the bulk buffer does.

* `slots_safe_iff`: in every state reached from `channel_init`, the slot of an operation lies in
  the data region and clear of the bulk buffer unless it is slot 255 of channel 0.
* `last_slot_overlaps`: a run that reaches that slot.
-/

namespace Hyperamp

open ByteMem Exec

/-! ### The layout of the data region -/

/-- The channels that `channel_init` is called for with a capacity of their own. -/
inductive ServedChannel
  | ch0
  | ch1
  deriving DecidableEq, Repr

namespace ServedChannel

/-- `CHANNEL_ID_CH0` and `CHANNEL_ID_CH1`. -/
def channelId : ServedChannel → ℤ
  | ch0 => 0
  | ch1 => 1

/-- `CH0_QUEUE_CAPACITY` and `CH1_QUEUE_CAPACITY`. -/
def queueCapacity : ServedChannel → UInt16
  | ch0 => 256
  | ch1 => 253

/-- The size of the data region: two megabytes (`CH0_DATA_SIZE`) or one, less the two
control blocks. -/
def dataSize : ServedChannel → ℕ
  | ch0 => Ch0.ch0DataSize
  | ch1 => 1024 * 1024 - 8192

end ServedChannel

/-- `BULK_BUFFER_OFFSET`. -/
def bulkBufferOffset : ℕ := 0x100000

/-- `BULK_BUFFER_SIZE`. -/
def bulkBufferSize : ℕ := 2 * 1024 * 1024

/-- The `len` bytes at `addr` lie in the data region and clear of the bulk buffer. -/
structure SlotSafe (ch : ServedChannel) (dataVa addr len : ℕ) : Prop where
  from_start : dataVa ≤ addr
  to_end : addr + len ≤ dataVa + ch.dataSize
  clear : addr + len ≤ dataVa + bulkBufferOffset ∨
    dataVa + bulkBufferOffset + bulkBufferSize ≤ addr

/-- The layout is one of this channel: its number and its configured capacity. -/
structure ServedChannel.Configures (ch : ServedChannel) (L : ChannelLayout) : Prop where
  chId_eq : L.chId = ch.channelId
  capacity_eq : L.capacity = ch.queueCapacity

/-! ### The slot of an operation -/

/-- The index an operation works at: an enqueue at the header of its queue, a dequeue at the
tail. -/
def ChannelOp.slotIndex (ctx : ChannelContext) (m : Mem) (op : ChannelOp) : ℕ :=
  match op.call with
  | .enqueue _ _ => header m (ctx.queueOf op.side)
  | .dequeue _ _ _ => tail m (ctx.queueOf op.side)

/-- The address of that slot, as the code computes it. -/
def ChannelOp.slotOf (ctx : ChannelContext) (m : Mem) (op : ChannelOp) : ℕ :=
  slotAddr ctx.dataRegion (op.slotIndex ctx m) (blockSize m (ctx.queueOf op.side))

/-- The operation copies the `len` bytes at `slot`: an enqueue writes them and nothing else
outside its control block, a dequeue returns them. -/
def Copies (ctx : ChannelContext) (op : ChannelOp) (m : Mem) (bytes : List UInt8) (m' : Mem)
    (slot len : ℕ) : Prop :=
  let queue := ctx.queueOf op.side
  match op.call with
  | .enqueue _ data =>
      data = some (load m' slot len) ∧
        ∀ x, (x < queue ∨ queue + queueSize ≤ x) → (x < slot ∨ slot + len ≤ x) → m' x = m x
  | .dequeue _ _ _ =>
      bytes = load m slot len ∧ ∀ x, (x < queue ∨ queue + queueSize ≤ x) → m' x = m x

/-! ### Accepted calls -/

variable {p : PrivateQueue} {m m' : Mem} {xs : List (List UInt8)} {zone maxLen : ℕ}
  {data : Option (List UInt8)} {bytes : List UInt8}

/-- What an accepted enqueue does: it fills the slot of the header and advances the header. -/
lemma enqueue_accepted (h : QueueInv p m xs)
    (hok : hyperampQueueEnqueue m p.queue zone data p.virtBase = some (.ok, m')) :
    ∃ d, data = some d ∧ d ≠ [] ∧ d.length ≤ p.b ∧
      (ctrl m' p.queue).tail = (ctrl m p.queue).tail ∧
      load m' (p.slot (ctrl m p.queue).header) d.length = d ∧
      ∀ x, (x < p.queue ∨ p.queue + queueSize ≤ x) →
        (x < p.slot (ctrl m p.queue).header ∨
          p.slot (ctrl m p.queue).header + d.length ≤ x) → m' x = m x := by
  by_cases hvalid : ValidData p.b data
  · obtain ⟨d, rfl, hd, hlen⟩ := hvalid
    have hhead := h.ring.header_lt
    have hlen' : d.length ≤ (ctrl m p.queue).blockSize := by
      rw [h.blockSize]
      exact hlen
    by_cases hnext : nextIndex (ctrl m p.queue).capacity (ctrl m p.queue).header =
        (ctrl m p.queue).tail
    · obtain ⟨m'', hexec, -⟩ := hyperampQueueEnqueue_again zone p.virtBase p.queue_ne hd hlen'
        h.lock hnext
      rw [hexec] at hok
      cases hok
    · have hslot : p.slot (ctrl m p.queue).header =
          slotAddr p.virtBase (ctrl m p.queue).header (ctrl m p.queue).blockSize := by
        rw [h.blockSize, p.slotAddr_eq hhead]
      have hclear := p.slot_clear hhead
      obtain ⟨m'', hexec, hctrl, hload, hmem⟩ := hyperampQueueEnqueue_ok zone p.virtBase
        p.queue_ne hd hlen' h.lock hnext hslot (by omega)
      obtain rfl : m'' = m' := by
        rw [hexec] at hok
        exact (Prod.mk.inj (Option.some.inj hok)).2
      exact ⟨d, rfl, hd, hlen, by rw [hctrl]; rfl, hload, hmem⟩
  · have hexec := (enqueue_invalid_simulates zone h hvalid).exec
    simp [Call.exec, hok] at hexec

/-- What an accepted dequeue does: it returns bytes of the slot of the tail and keeps the
header. -/
lemma dequeue_accepted {dataPtr : Bool} (h : QueueInv p m xs)
    (hok : hyperampQueueDequeue m p.queue zone dataPtr maxLen p.virtBase =
      some (.ok, bytes, m')) :
    0 < maxLen ∧ (ctrl m' p.queue).header = (ctrl m p.queue).header ∧
      bytes = load m (p.slot (ctrl m p.queue).tail) (min maxLen p.b) ∧
      ∀ x, (x < p.queue ∨ p.queue + queueSize ≤ x) → m' x = m x := by
  by_cases hargs : p.queue = 0 ∨ dataPtr = false ∨ maxLen = 0
  · rw [hyperampQueueDequeue_invalid zone p.virtBase hargs] at hok
    cases hok
  push Not at hargs
  obtain ⟨hq, hptr, hmax⟩ := hargs
  obtain rfl : dataPtr = true := by simpa using hptr
  by_cases hempty : (ctrl m p.queue).tail = (ctrl m p.queue).header
  · obtain ⟨m'', hexec, -⟩ := hyperampQueueDequeue_again zone p.virtBase hq hmax h.lock hempty
    rw [hexec] at hok
    cases hok
  · have hslot : p.slot (ctrl m p.queue).tail =
        slotAddr p.virtBase (ctrl m p.queue).tail (ctrl m p.queue).blockSize := by
      rw [h.blockSize, p.slotAddr_eq h.ring.tail_lt]
    have hclear := p.slot_clear h.ring.tail_lt
    rw [← h.blockSize] at hclear
    obtain ⟨m'', hexec, hctrl, hmem⟩ := hyperampQueueDequeue_ok zone p.virtBase hq hmax h.lock
      hempty hslot hclear
    rw [hexec, h.blockSize] at hok
    obtain ⟨-, hbytes, rfl⟩ : HyperampRet.ok = .ok ∧ _ = bytes ∧ m'' = m' := by
      simpa using hok
    exact ⟨by omega, by rw [hctrl]; rfl, hbytes.symm, hmem⟩

/-! ### Reachable states -/

/-- With the same control block, a queue represents the messages its slots then hold. -/
lemma QueueInv.relabel (h : QueueInv p m xs) (hctrl : ctrl m' p.queue = ctrl m p.queue) :
    ∃ ys, QueueInv p m' ys := by
  have hholds : ∀ i, ∃ d, SlotHolds p m' i d := by
    intro i
    refine ⟨load m' (p.slot i) p.b, by simp, ?_⟩
    simp
  obtain ⟨ys, hlen, hring⟩ := h.ring.relabel hholds
  exact ⟨ys,
    { capacity := by rw [hctrl]; exact h.capacity
      blockSize := by rw [hctrl]; exact h.blockSize
      lock := by rw [hctrl]; exact h.lock
      ring := by rw [hctrl]; exact hring
      counts := by rw [hctrl, hlen]; exact h.counts }⟩

/-- Both queues have well-formed indices; their slots hold whatever was written last. -/
def Shaped (L : ChannelLayout) (m : Mem) : Prop :=
  ∀ side, ∃ xs, QueueInv (L.queue side) m xs

variable {L : ChannelLayout} {s s' : ChannelState} {op : ChannelOp}

lemma shaped_start (L : ChannelLayout) (m₀ : Mem) : Shaped L (L.start m₀).mem := by
  intro side
  obtain ⟨xs, -, hinv⟩ := channelInv_start L m₀ side
  exact ⟨xs, hinv⟩

/-- **The step**: every operation keeps the indices of both queues well formed, also one that
overwrites a message of the other direction. -/
lemma channelStep_shaped (h : Shaped L s.mem) (hstep : channelStep L.ctx s op = some s') :
    Shaped L s'.mem := by
  obtain ⟨xs, hinv⟩ := h op.side
  obtain ⟨zs, hinv'⟩ := h op.side.other
  obtain ⟨ret, bytes, m', ys, hspec⟩ := call_simulates hinv op.call
  have hexec := (exec_eq_call L s.mem op).trans hspec.exec
  have hmem : s'.mem = m' := by
    rw [channelStep, hexec] at hstep
    obtain rfl := Option.some.inj hstep
    rfl
  intro side
  rw [hmem]
  by_cases hside : side = op.side
  · subst hside
    exact ⟨ys, hspec.inv⟩
  · obtain rfl : side = op.side.other := by
      revert hside
      cases side <;> cases op.side <;> simp [Side.other]
    -- neither the slot nor the control block of the operation meets this control block
    refine hinv'.relabel (ctrl_congr fun x hlo hhi => ?_)
    have hdisj := L.blocks_disjoint op.side
    refine hspec.frame x (by omega) fun _ => ?_
    have hclear := (L.queue op.side.other).slot_clear
      (i := (ctrl s.mem (L.queue op.side).queue).header)
      (by rw [L.c_eq, ← L.c_eq op.side]; exact hinv.ring.header_lt)
    rw [L.slot_eq op.side.other op.side, L.b_eq, ← L.b_eq op.side] at hclear
    omega

/-- **The run**: in every reachable state the indices are well formed. -/
lemma shaped_of_run {m₀ : Mem} {ops : List ChannelOp}
    (hrun : Runs (OfFun (channelStep L.ctx)) (L.start m₀) ops s) : Shaped L s.mem := by
  refine hrun.invariant (fun s => Shaped L s.mem) ?_ (shaped_start L m₀)
  intro s op s' hs hstep
  exact channelStep_shaped hs hstep

/-- The slot of an operation on well-formed queues is one of the `c` slots. -/
lemma slotOf_eq (h : Shaped L m) (op : ChannelOp) :
    op.slotIndex L.ctx m < L.capacity.toNat ∧
      op.slotOf L.ctx m = (L.queue op.side).slot (op.slotIndex L.ctx m) := by
  obtain ⟨xs, hinv⟩ := h op.side
  have hhead := hinv.ring.header_lt
  have htail := hinv.ring.tail_lt
  have hlt : op.slotIndex L.ctx m < (L.queue op.side).c := by
    rw [ChannelOp.slotIndex, ← L.queue_queue]
    cases op.call with
    | enqueue zone data => exact hhead
    | dequeue zone dataPtr maxLen => exact htail
  refine ⟨by rwa [L.c_eq] at hlt, ?_⟩
  have hbs : blockSize m (L.ctx.queueOf op.side) = (L.queue op.side).b := by
    rw [← L.queue_queue]
    exact hinv.blockSize
  calc op.slotOf L.ctx m
      = slotAddr (L.queue op.side).virtBase (op.slotIndex L.ctx m) (L.queue op.side).b := by
        rw [ChannelOp.slotOf, hbs, L.queue_virtBase]
        rfl
    _ = (L.queue op.side).slot (op.slotIndex L.ctx m) := (L.queue op.side).slotAddr_eq hlt

/-- An accepted operation copies a part of its slot, and no more than a block. -/
lemma accepted_copies (h : Shaped L m)
    (hok : op.exec L.ctx m = some (.ok, bytes, m')) :
    ∃ len, 0 < len ∧ len ≤ defaultBlockSize.toNat ∧
      Copies L.ctx op m bytes m' (op.slotOf L.ctx m) len := by
  obtain ⟨xs, hinv⟩ := h op.side
  have hslot := (slotOf_eq h op).2
  rw [exec_eq_call] at hok
  rw [hslot, ← L.b_eq op.side]
  simp only [Copies, ChannelOp.slotIndex, ← L.queue_queue]
  generalize hcall : op.call = call at hok
  cases call with
  | enqueue zone data =>
      obtain ⟨⟨ret, m''⟩, hexec, heq⟩ := Option.bind_eq_some_iff.mp hok
      obtain ⟨rfl, -, rfl⟩ : ret = .ok ∧ [] = bytes ∧ m'' = m' := by simpa using heq
      obtain ⟨d, rfl, hd, hlen, -, hload, hmem⟩ := enqueue_accepted hinv hexec
      refine ⟨d.length, List.length_pos_iff.mpr hd, hlen, ?_, hmem⟩
      exact congrArg some hload.symm
  | dequeue zone dataPtr maxLen =>
      obtain ⟨hmax, -, hbytes, hmem⟩ := dequeue_accepted hinv hok
      have hb := (L.queue op.side).b_pos
      exact ⟨min maxLen (L.queue op.side).b, by omega, by omega, hbytes, hmem⟩

/-- **Slots and the bulk buffer.** In every state reached from `channel_init` by any operations
of the two sides, an accepted operation works at an index below the capacity and copies within
its slot, and every part of this slot lies in the data region and clear of the bulk buffer
exactly when it is not slot 255 of channel 0. -/
theorem slots_safe_iff (ch : ServedChannel) (L : ChannelLayout) (hL : ch.Configures L)
    (m₀ : Mem) (ops : List ChannelOp) (s : ChannelState)
    (hrun : Runs (OfFun (channelStep L.ctx)) (L.start m₀) ops s)
    (op : ChannelOp) (bytes : List UInt8) (m' : Mem)
    (hok : op.exec L.ctx s.mem = some (.ok, bytes, m')) :
    op.slotIndex L.ctx s.mem < ch.queueCapacity.toNat ∧
    (∃ len, 0 < len ∧ len ≤ defaultBlockSize.toNat ∧
      Copies L.ctx op s.mem bytes m' (op.slotOf L.ctx s.mem) len) ∧
    ∀ len, 0 < len → len ≤ defaultBlockSize.toNat →
      (SlotSafe ch L.dataVa (op.slotOf L.ctx s.mem) len ↔
        ¬ (ch = .ch0 ∧ op.slotIndex L.ctx s.mem = 255)) := by
  have hshaped := shaped_of_run hrun
  obtain ⟨hlt, hslot⟩ := slotOf_eq hshaped op
  rw [hL.capacity_eq] at hlt
  refine ⟨hlt, accepted_copies hshaped hok, fun len hpos hle => ?_⟩
  have haddr : op.slotOf L.ctx s.mem = L.dataVa + (op.slotIndex L.ctx s.mem + 1) * 4096 := by
    rw [hslot, PrivateQueue.slot, L.queue_virtBase, L.b_eq]
    rfl
  have hle' : len ≤ 4096 := hle
  rw [haddr]
  generalize op.slotIndex L.ctx s.mem = i at hlt
  -- 256 blocks reach into the bulk buffer with the last one, and 253 do not
  cases ch with
  | ch0 =>
      have hi : i < 256 := hlt
      constructor
      · rintro ⟨-, -, hclear⟩ ⟨-, rfl⟩
        simp only [bulkBufferOffset, bulkBufferSize] at hclear
        omega
      · intro hne
        have hi' : i ≠ 255 := fun h => hne ⟨rfl, h⟩
        exact
          { from_start := by omega
            to_end := by simp only [ServedChannel.dataSize, Ch0.ch0DataSize]; omega
            clear := by simp only [bulkBufferOffset]; omega }
  | ch1 =>
      have hi : i < 253 := hlt
      constructor
      · rintro - ⟨hch, -⟩
        cases hch
      · intro _
        exact
          { from_start := by omega
            to_end := by simp only [ServedChannel.dataSize]; omega
            clear := by simp only [bulkBufferOffset]; omega }

/-! ### The last slot of channel 0 -/

/-- The control block of the transmit queue after `channel_init`. -/
lemma ctrl_start (L : ChannelLayout) (m₀ : Mem) :
    (ctrl (L.start m₀).mem (L.queue .tx).queue).tail = 0 := by
  have hargs : ∀ side, ¬ ((L.queue side).queue = 0 ∨ (L.queue side).config.blockSize = 0 ∨
      (L.queue side).config.capacity = 0) := by
    intro side
    simp [(L.queue side).queue_ne, (L.queue side).blockSize_ne, (L.queue side).capacity_ne]
  have hdisj := L.blocks_disjoint .tx
  simp only [Side.other] at hdisj
  rw [ChannelLayout.start, L.channelInit_eq]
  simp only [hyperampQueueInit, if_neg (hargs _), if_true]
  rw [ctrl_congr fun x hlo hhi => initUpTo_of_outside _ _ (by omega), ctrl_initUpTo]
  rfl

/-- An operation whose queue call is accepted is a step. -/
lemma channelStep_of_exec (h : op.exec L.ctx s.mem = some (.ok, bytes, m')) :
    ∃ s', channelStep L.ctx s op = some s' ∧ s'.mem = m' := by
  refine ⟨⟨m', Function.update s.log op.side (s.log op.side ++ [⟨op.call, .ok, bytes⟩])⟩, ?_, rfl⟩
  simp [channelStep, h]

/-- A write on a transmit queue with room: the tail stays where it is. -/
lemma write_room {d : List UInt8} (h : QueueInv (L.queue .tx) m xs) (hd : d ≠ [])
    (hlen : d.length ≤ defaultBlockSize.toNat) (hroom : xs.length + 1 ≠ L.capacity.toNat) :
    ∃ m', (ChannelOp.write (some d)).exec L.ctx m = some (.ok, [], m') ∧
      QueueInv (L.queue .tx) m' (xs ++ [d]) ∧
      (ctrl m' (L.queue .tx).queue).tail = (ctrl m (L.queue .tx).queue).tail := by
  obtain ⟨m', hspec⟩ := enqueue_room_simulates zoneIdSel4 h hd
    (by rw [L.b_eq]; exact hlen) (by rw [L.c_eq]; exact hroom)
  have hexec := (exec_eq_call L m (.write (some d))).trans hspec.exec
  refine ⟨m', hexec, hspec.inv, ?_⟩
  obtain ⟨⟨ret, m''⟩, henq, heq⟩ := Option.bind_eq_some_iff.mp hspec.exec
  obtain ⟨rfl, rfl⟩ : ret = .ok ∧ m'' = m' := by simpa using heq
  obtain ⟨-, -, -, -, htail, -⟩ := enqueue_accepted h henq
  exact htail

/-- Up to `c - 1` writes fill the transmit queue from slot 0 on. -/
lemma write_fills (L : ChannelLayout) (m₀ : Mem) (n : ℕ) (hn : n < L.capacity.toNat) :
    ∃ s xs, Runs (OfFun (channelStep L.ctx)) (L.start m₀)
        (List.replicate n (.write (some [1]))) s ∧
      QueueInv (L.queue .tx) s.mem xs ∧ xs.length = n ∧
      (ctrl s.mem (L.queue .tx).queue).tail = 0 := by
  induction n with
  | zero =>
      obtain ⟨xs, hrun, hinv⟩ := channelInv_start L m₀ .tx
      obtain rfl : xs = [] := by
        cases hrun with
        | nil => rfl
      exact ⟨L.start m₀, [], .nil, hinv, rfl, ctrl_start L m₀⟩
  | succ n ih =>
      obtain ⟨s, xs, hrun, hinv, hlen, htail⟩ := ih (by omega)
      obtain ⟨m', hexec, hinv', htail'⟩ := write_room hinv (d := [1]) (by simp) (by decide)
        (by omega)
      obtain ⟨s', hstep, rfl⟩ := channelStep_of_exec hexec
      refine ⟨s', xs ++ [[1]], ?_, hinv', by simp [hlen], htail'.trans htail⟩
      rw [List.replicate_succ']
      exact .snoc hrun hstep

/-- The first write on channel 0 is accepted and its slot is safe. -/
theorem slots_safe_first :
    ∃ bytes m', (ChannelOp.write (some [1])).exec channel0.ctx (channel0.start fun _ => 0).mem =
        some (.ok, bytes, m') ∧
      SlotSafe .ch0 channel0.dataVa
        ((ChannelOp.write (some [1])).slotOf channel0.ctx (channel0.start fun _ => 0).mem)
        defaultBlockSize.toNat := by
  obtain ⟨s, xs, hrun, hinv, hlen, htail⟩ := write_fills channel0 (fun _ => 0) 0 (by decide)
  obtain rfl := hrun.of_nil
  obtain ⟨m', hexec, -⟩ := write_room hinv (d := [1]) (by simp) (by decide)
    (by rw [hlen]; decide)
  have hheader : (ctrl (channel0.start fun _ => 0).mem (channel0.queue .tx).queue).header = 0 := by
    rw [hinv.ring.header_eq, htail, hlen]
    rfl
  refine ⟨[], m', hexec, ?_⟩
  have hsafe := slots_safe_iff .ch0 channel0 ⟨rfl, rfl⟩ (fun _ => 0) [] _ hrun _ _ _ hexec
  refine (hsafe.2.2 defaultBlockSize.toNat (by decide) le_rfl).mpr ?_
  rintro ⟨-, hindex⟩
  have hzero : (ChannelOp.write (some [1])).slotIndex channel0.ctx
      (channel0.start fun _ => 0).mem = 0 := hheader
  omega

/-- With 255 messages written and the first one taken off, the next write on channel 0 is
accepted and goes to the first block of the bulk buffer. -/
theorem last_slot_overlaps :
    ∃ s bytes m', Runs (OfFun (channelStep channel0.ctx)) (channel0.start fun _ => 0)
        (List.replicate 255 (.write (some [1])) ++ [.peerDequeue 0 true 4096]) s ∧
      (ChannelOp.write (some [2])).exec channel0.ctx s.mem = some (.ok, bytes, m') ∧
      (ChannelOp.write (some [2])).slotOf channel0.ctx s.mem =
        channel0.dataVa + bulkBufferOffset ∧
      ¬ SlotSafe .ch0 channel0.dataVa ((ChannelOp.write (some [2])).slotOf channel0.ctx s.mem)
        1 := by
  obtain ⟨s, xs, hrun, hinv, hlen, htail⟩ := write_fills channel0 (fun _ => 0) 255 (by decide)
  have hheader : (ctrl s.mem (channel0.queue .tx).queue).header = 255 := by
    rw [hinv.ring.header_eq, htail, hlen]
    rfl
  cases xs with
  | nil => cases hlen
  | cons d xs =>
      obtain ⟨bytes, m₁, hspec⟩ := dequeue_head_simulates 0 hinv (show 4096 ≠ 0 by decide)
      have hexec₁ := (exec_eq_call channel0 s.mem (.peerDequeue 0 true 4096)).trans hspec.exec
      obtain ⟨-, hheader₁, -⟩ := dequeue_accepted hinv hspec.exec
      obtain ⟨s₁, hstep₁, rfl⟩ := channelStep_of_exec hexec₁
      obtain ⟨m₂, hexec₂, -⟩ := write_room hspec.inv (d := [2]) (by simp) (by decide)
        (by simp only [List.length_cons] at hlen; rw [show channel0.capacity.toNat = 256 from rfl]
            omega)
      have hrun₁ := Runs.snoc hrun hstep₁
      obtain ⟨-, hslot⟩ := slotOf_eq (shaped_of_run hrun₁) (.write (some [2]))
      have hindex : (ChannelOp.write (some [2])).slotIndex channel0.ctx s₁.mem = 255 :=
        hheader₁.trans hheader
      rw [hindex] at hslot
      have haddr : (ChannelOp.write (some [2])).slotOf channel0.ctx s₁.mem =
          channel0.dataVa + bulkBufferOffset := hslot
      refine ⟨s₁, [], m₂, hrun₁, hexec₂, haddr, ?_⟩
      rw [haddr]
      rintro ⟨-, -, hclear⟩
      simp only [bulkBufferOffset, bulkBufferSize] at hclear
      omega

end Hyperamp
