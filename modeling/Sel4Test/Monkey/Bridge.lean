import Sel4Test.Hyperamp.Channel

/-!
The byte stream of `HyperAmpBridge`, `monkey/net/HyperAmpBridge.cc`.

`send` cuts a buffer into messages of at most 4088 bytes of payload and enqueues them,
again and again while the ring is full. `recv` waits for as many bytes as it was asked
for: it drains the spill buffer, then takes blocks off the ring, skips those that are
not data of the session, and puts what is too much into the spill buffer.

Both poll the shared memory. A poll is given by the memory it finds once it has the
lock, so a call is a function of the memories of its polls: whatever the other zone,
or the other direction of the same channel, does between two polls is another memory.
A call that needs more polls than there are is still waiting.

* `recv_spec`: a call of `recv` returns the front of the stream as soon as it is long
  enough, and the spill buffer holds what is left of the last block.
* `sendLoop_spec`: each poll that finds a free slot takes the next piece of the buffer,
  and `send` returns with the last one.
* `bridge_byteStream`: sequences of calls.
-/

namespace Monkey

open ByteMem Hyperamp

/-! ### Messages -/

/-- `kHyperAmpMaxPayload`. -/
def kHyperAmpMaxPayload : ℕ := 4088

/-- `kHyperAmpBlockSize`. -/
def kHyperAmpBlockSize : ℕ := 4096

/-- `HYPERAMP_MSG_HDR_SIZE`. -/
def hyperampMsgHdrSize : ℕ := 8

/-- `HYPERAMP_MSG_TYPE_DATA`. -/
def hyperampMsgTypeData : UInt8 := 3

/-- `HyperampMsgHeader`. -/
structure HyperampMsgHeader where
  version : UInt8
  proxyMsgType : UInt8
  frontendSessId : UInt16
  backendSessId : UInt16
  payloadLen : UInt16
  deriving DecidableEq, Repr

namespace HyperampMsgHeader

/-- The header of a message. -/
def ofBytes (bs : List UInt8) : HyperampMsgHeader where
  version := bs.getD 0 0
  proxyMsgType := bs.getD 1 0
  frontendSessId := UInt16.ofNat (ofLE ((bs.drop 2).take 2))
  backendSessId := UInt16.ofNat (ofLE ((bs.drop 4).take 2))
  payloadLen := UInt16.ofNat (ofLE ((bs.drop 6).take 2))

def toBytes (h : HyperampMsgHeader) : List UInt8 :=
  [h.version, h.proxyMsgType] ++ toLE 2 h.frontendSessId.toNat ++ toLE 2 h.backendSessId.toNat ++
    toLE 2 h.payloadLen.toNat

@[simp] lemma length_toBytes (h : HyperampMsgHeader) : h.toBytes.length = hyperampMsgHdrSize := by
  simp [toBytes, hyperampMsgHdrSize]

lemma ofBytes_toBytes (h : HyperampMsgHeader) (rest : List UInt8) :
    ofBytes (h.toBytes ++ rest) = h := by
  have hfe : ((h.toBytes ++ rest).drop 2).take 2 = toLE 2 h.frontendSessId.toNat := by
    simp only [toBytes, List.append_assoc]
    rw [List.drop_left' (show [h.version, h.proxyMsgType].length = 2 from rfl),
      List.take_left' (length_toLE _ _)]
  have hbe : ((h.toBytes ++ rest).drop 4).take 2 = toLE 2 h.backendSessId.toNat := by
    simp only [toBytes, List.append_assoc]
    rw [← List.append_assoc, List.drop_left' (by simp), List.take_left' (length_toLE _ _)]
  have hlen : ((h.toBytes ++ rest).drop 6).take 2 = toLE 2 h.payloadLen.toNat := by
    simp only [toBytes, List.append_assoc]
    rw [← List.append_assoc, ← List.append_assoc, List.drop_left' (by simp),
      List.take_left' (length_toLE _ _)]
  rw [ofBytes, hfe, hbe, hlen, ofLE_toLE_u16, ofLE_toLE_u16, ofLE_toLE_u16]
  rfl

end HyperampMsgHeader

/-! ### The spill buffer -/

/-- The members `spillBuf_`, `spillLen_` and `spillOffset_`. -/
structure Spill where
  buf : List UInt8
  len : ℕ
  offset : ℕ
  buf_length : buf.length = kHyperAmpMaxPayload
  len_le : len ≤ kHyperAmpMaxPayload
  offset_le : offset ≤ len

namespace Spill

/-- No bytes yet. -/
def fresh : Spill := ⟨List.replicate kHyperAmpMaxPayload 0, 0, 0, by simp, Nat.zero_le _, le_rfl⟩

variable (s : Spill)

/-- The bytes that `recv` has not returned yet. -/
def unread : List UInt8 := (s.buf.take s.len).drop s.offset

/-- No bytes are left. -/
def reset : Spill where
  buf := s.buf
  len := 0
  offset := 0
  buf_length := s.buf_length
  len_le := Nat.zero_le _
  offset_le := le_rfl

/-- The read cursor moves on by `n` bytes. -/
def advance (n : ℕ) (h : s.offset + n ≤ s.len) : Spill where
  buf := s.buf
  len := s.len
  offset := s.offset + n
  buf_length := s.buf_length
  len_le := s.len_le
  offset_le := h

/-- A buffer that is read to its end is reset. -/
def settle : Spill := if s.len ≤ s.offset then s.reset else s

/-- The first part of `recv`: at most `needed` of the unread bytes. -/
def drain (needed : ℕ) : List UInt8 × Spill :=
  if h : s.offset < s.len then
    let avail := s.len - s.offset
    let take := if avail ≤ needed then avail else needed
    have hle : s.offset + take ≤ s.len := by
      dsimp only [take, avail]
      split_ifs <;> omega
    ((s.buf.drop s.offset).take take, (s.advance take hle).settle)
  else ([], s)

/-- The surplus of a block; there is no room for more than the capacity. -/
def stash (surplus : List UInt8) : Option Spill :=
  if h : surplus.length ≤ kHyperAmpMaxPayload then
    some
      { buf := surplus ++ s.buf.drop surplus.length
        len := surplus.length
        offset := 0
        buf_length := by
          have := s.buf_length
          rw [List.length_append, List.length_drop]
          omega
        len_le := h
        offset_le := Nat.zero_le _ }
  else none

@[simp] lemma unread_reset : s.reset.unread = [] := by
  simp [unread, reset]

lemma length_unread : s.unread.length = s.len - s.offset := by
  have hbuf := s.buf_length
  have hlen := s.len_le
  rw [unread, List.length_drop, List.length_take]
  omega

lemma unread_advance (n : ℕ) (h : s.offset + n ≤ s.len) :
    (s.advance n h).unread = s.unread.drop n := by
  rw [unread, unread, List.drop_drop]
  rfl

@[simp] lemma unread_settle : s.settle.unread = s.unread := by
  rw [settle]
  split_ifs with hdone
  · rw [unread_reset, eq_comm, ← List.length_eq_zero_iff, length_unread]
    omega
  · rfl

/-- `drain` splits the unread bytes. -/
lemma drain_spec (needed : ℕ) :
    (s.drain needed).1 = s.unread.take needed ∧
      (s.drain needed).2.unread = s.unread.drop needed := by
  have hlength := s.length_unread
  rw [drain]
  split_ifs with hsome
  · set take := if s.len - s.offset ≤ needed then s.len - s.offset else needed with htake
    have hle : s.offset + take ≤ s.len := by
      rw [htake]
      split_ifs <;> omega
    have hfront : s.unread.take take = s.unread.take needed := by
      rw [htake]
      split_ifs with h
      · rw [List.take_of_length_le hlength.le, List.take_of_length_le (hlength.trans_le h)]
      · rfl
    have hback : s.unread.drop take = s.unread.drop needed := by
      rw [htake]
      split_ifs with h
      · rw [List.drop_of_length_le hlength.le, List.drop_of_length_le (hlength.trans_le h)]
      · rfl
    constructor
    · rw [← hfront, unread, List.drop_take, List.take_take, Nat.min_eq_left (by omega)]
    · rw [← hback, ← s.unread_advance take hle]
      exact unread_settle _
  · have hnil : s.unread = [] := by
      rw [← List.length_eq_zero_iff]
      omega
    simp [hnil]

lemma stash_spec {surplus : List UInt8} (h : surplus.length ≤ kHyperAmpMaxPayload) :
    ∃ s', s.stash surplus = some s' ∧ s'.unread = surplus := by
  refine ⟨_, dif_pos h, ?_⟩
  simp [unread]

end Spill

/-! ### The bridge -/

/-- The members of `HyperAmpBridge` that `send` and `recv` use. -/
structure HyperAmpBridge where
  initialized : Bool
  sessionActive : Bool
  txQueue : ℕ
  rxQueue : ℕ
  dataRegion : ℕ
  frontendSessId : UInt16
  backendSessId : UInt16
  spill : Spill

namespace HyperAmpBridge

/-- One poll of `rxDequeueBlocking`. -/
def rxPoll (b : HyperAmpBridge) (m : Mem) : Option (HyperampRet × List UInt8) :=
  (hyperampQueueDequeue m b.rxQueue zoneIdSel4 true kHyperAmpBlockSize b.dataRegion).map
    fun (ret, data, _) => (ret, data)

/-- One attempt of `txEnqueue`. -/
def txPoll (b : HyperAmpBridge) (msg : List UInt8) (m : Mem) : Option HyperampRet :=
  (hyperampQueueEnqueue m b.txQueue zoneIdSel4 (some msg) b.dataRegion).map Prod.fst

/-- What a call of `recv` comes to. -/
inductive RecvOutcome
  | returns (ret : Int64) (bytes : List UInt8) (bridge : HyperAmpBridge) (rest : List Mem)
  | waiting
  | undefined

/-- The message in `rxBuf` is data of the session. -/
def IsSessionData (b : HyperAmpBridge) (rxBuf : List UInt8) : Prop :=
  let hdr := HyperampMsgHeader.ofBytes rxBuf
  hdr.proxyMsgType = hyperampMsgTypeData ∧
    (hdr.frontendSessId = b.frontendSessId ∨ hdr.backendSessId = b.backendSessId)

instance (b : HyperAmpBridge) (rxBuf : List UInt8) : Decidable (b.IsSessionData rxBuf) :=
  inferInstanceAs (Decidable (_ ∧ _))

/-- `payload_len` of the message in `rxBuf`. -/
def payloadLen (rxBuf : List UInt8) : ℕ := (HyperampMsgHeader.ofBytes rxBuf).payloadLen.toNat

/-- The payload that `recv` takes from the block in `rxBuf`; the blocks it skips have
none. A payload that is longer than the buffer has no result. -/
def blockPayload (b : HyperAmpBridge) (rxBuf : List UInt8) (rxLen : ℕ) : Option (List UInt8) :=
  if rxLen < hyperampMsgHdrSize then some []
  else if ¬ b.IsSessionData rxBuf then some []
  else if rxBuf.length < hyperampMsgHdrSize + payloadLen rxBuf then none
  else some ((rxBuf.drop hyperampMsgHdrSize).take (payloadLen rxBuf))

/-- The loop of `recv`, with the loop of `rxDequeueBlocking` inside. -/
def recvLoop (b : HyperAmpBridge) : List UInt8 → List UInt8 → ℕ → List Mem → RecvOutcome
  | _, dst, 0, polls => .returns (Int64.ofNat dst.length) dst b polls
  | _, _, _ + 1, [] => .waiting
  | rxBuf, dst, needed + 1, m :: polls =>
      match b.rxPoll m with
      | none => .waiting
      | some (.again, _) => recvLoop b rxBuf dst (needed + 1) polls
      | some (.error, _) =>
          .returns (if 0 < dst.length then Int64.ofNat dst.length else -1) dst b polls
      | some (.ok, data) =>
          let rxBuf := data ++ rxBuf.drop data.length
          match b.blockPayload rxBuf data.length with
          | none => .undefined
          | some [] => recvLoop b rxBuf dst (needed + 1) polls
          | some payload =>
              let take := if payload.length ≤ needed + 1 then payload.length else needed + 1
              if take < payload.length then
                match b.spill.stash (payload.drop take) with
                | none => .undefined
                | some spill =>
                    recvLoop { b with spill } rxBuf (dst ++ payload.take take)
                      (needed + 1 - take) polls
              else
                recvLoop b rxBuf (dst ++ payload.take take) (needed + 1 - take) polls

/-- `recv`; `rxBuf` is what its stack buffer holds before the first poll. -/
def recv (b : HyperAmpBridge) (rxBuf : List UInt8) (len : ℕ) (polls : List Mem) : RecvOutcome :=
  if b.initialized = false ∨ b.sessionActive = false then .returns (-1) [] b polls
  else
    let (out, spill) := b.spill.drain len
    recvLoop { b with spill } rxBuf out (len - out.length) polls

/-- A message of `send`. -/
def dataMsg (b : HyperAmpBridge) (chunk : List UInt8) : List UInt8 :=
  HyperampMsgHeader.toBytes
    ⟨1, hyperampMsgTypeData, b.frontendSessId, b.backendSessId, UInt16.ofNat chunk.length⟩ ++ chunk

/-- What a call of `send` comes to, with the messages that were enqueued. -/
inductive SendOutcome
  | returns (ret : Int64) (blocks : List (List UInt8)) (rest : List Mem)
  | waiting (blocks : List (List UInt8))

/-- A message was enqueued before. -/
def SendOutcome.after (msg : List UInt8) : SendOutcome → SendOutcome
  | .returns ret blocks rest => .returns ret (msg :: blocks) rest
  | .waiting blocks => .waiting (msg :: blocks)

/-- The loop of `send`, with the loop of `txEnqueue` inside. -/
def sendLoop (b : HyperAmpBridge) : List UInt8 → ℕ → List Mem → SendOutcome
  | [], totalSent, polls => .returns (Int64.ofNat totalSent) [] polls
  | _ :: _, _, [] => .waiting []
  | byte :: bytes, totalSent, m :: polls =>
      let chunk := (byte :: bytes).take kHyperAmpMaxPayload
      match b.txPoll (b.dataMsg chunk) m with
      | none => .waiting []
      | some .again => sendLoop b (byte :: bytes) totalSent polls
      | some .error =>
          .returns (if 0 < totalSent then Int64.ofNat totalSent else -1) [] polls
      | some .ok =>
          (sendLoop b ((byte :: bytes).drop kHyperAmpMaxPayload) (totalSent + chunk.length)
            polls).after (b.dataMsg chunk)

/-- `send`. -/
def send (b : HyperAmpBridge) (buf : List UInt8) (polls : List Mem) : SendOutcome :=
  if b.initialized = false ∨ b.sessionActive = false then .returns (-1) [] polls
  else b.sendLoop buf 0 polls

/-! ### What a poll finds -/

/-- A session is established. -/
structure Connected (b : HyperAmpBridge) : Prop where
  initialized : b.initialized = true
  sessionActive : b.sessionActive = true
  txQueue_ne : b.txQueue ≠ 0
  rxQueue_ne : b.rxQueue ≠ 0

/-- The lock is free and the blocks have the size that `init` has set. -/
structure RingReady (queue : ℕ) (m : Mem) : Prop where
  lock : (ctrl m queue).lockValue = 0
  block : (ctrl m queue).blockSize = kHyperAmpBlockSize

variable {b : HyperAmpBridge} {m : Mem}

lemma rxPoll_cases (hq : b.rxQueue ≠ 0) (hring : RingReady b.rxQueue m) :
    b.rxPoll m = some (.again, []) ∨
      ∃ block, block.length = kHyperAmpBlockSize ∧ b.rxPoll m = some (.ok, block) := by
  have hctrl := ctrl_lockedMem zoneIdSel4 m b.rxQueue
  have hsize : blockSize (lockedMem m (queueLock b.rxQueue) zoneIdSel4) b.rxQueue =
      kHyperAmpBlockSize := (congrArg Ctrl.blockSize hctrl).trans hring.block
  rw [rxPoll, hyperampQueueDequeue_valid zoneIdSel4 b.dataRegion hq (by decide) hring.lock]
  by_cases hempty : tail (lockedMem m (queueLock b.rxQueue) zoneIdSel4) b.rxQueue =
      header (lockedMem m (queueLock b.rxQueue) zoneIdSel4) b.rxQueue
  · left
    simp [dequeueLocked, hempty]
  · right
    simp [dequeueLocked, hempty, hsize]

/-- The slot after the head is the tail: there is no room in the ring. -/
def RingFull (queue : ℕ) (m : Mem) : Prop :=
  nextIndex (ctrl m queue).capacity (ctrl m queue).header = (ctrl m queue).tail

instance (queue : ℕ) (m : Mem) : Decidable (RingFull queue m) :=
  inferInstanceAs (Decidable (_ = _))

lemma txPoll_eq (hq : b.txQueue ≠ 0) (hring : RingReady b.txQueue m) {msg : List UInt8}
    (hmsg : msg ≠ []) (hlen : msg.length ≤ kHyperAmpBlockSize) :
    b.txPoll msg m = some (if RingFull b.txQueue m then .again else .ok) := by
  have hctrl := ctrl_lockedMem zoneIdSel4 m b.txQueue
  have hheader := congrArg Ctrl.header hctrl
  have htail := congrArg Ctrl.tail hctrl
  have hfull : RingFull b.txQueue m ↔
      nextIndex (ctrl m b.txQueue).capacity
        (header (lockedMem m (queueLock b.txQueue) zoneIdSel4) b.txQueue) =
          tail (lockedMem m (queueLock b.txQueue) zoneIdSel4) b.txQueue := by
    rw [RingFull, ← hheader, ← htail]
    rfl
  rw [txPoll, hyperampQueueEnqueue_valid zoneIdSel4 b.dataRegion hq hmsg
    (hring.block ▸ hlen) hring.lock, enqueueLocked]
  simp only [hfull]
  split_ifs <;> rfl

/-- The payload of a message for the session. -/
def sessionPayload (b : HyperAmpBridge) (block : List UInt8) : List UInt8 :=
  if b.IsSessionData block then (block.drop hyperampMsgHdrSize).take (payloadLen block) else []

/-- What a poll brings for the session. -/
def arrived (b : HyperAmpBridge) (m : Mem) : List UInt8 :=
  match b.rxPoll m with
  | some (.ok, block) => b.sessionPayload block
  | _ => []

/-- The stream of the session: the payloads of its data messages. -/
def stream (b : HyperAmpBridge) (polls : List Mem) : List UInt8 := polls.flatMap b.arrived

/-- The receive ring, with messages of the session whose payload fits a block. -/
def RxReady (b : HyperAmpBridge) (m : Mem) : Prop :=
  RingReady b.rxQueue m ∧
    ∀ block, b.rxPoll m = some (.ok, block) → b.IsSessionData block →
      payloadLen block ≤ kHyperAmpMaxPayload

/-- On a whole block `recv` takes the payload for the session. -/
lemma blockPayload_eq {block rxBuf : List UInt8} (hlen : block.length = kHyperAmpBlockSize)
    (hbuf : rxBuf.length = kHyperAmpBlockSize)
    (hpay : b.IsSessionData block → payloadLen block ≤ kHyperAmpMaxPayload) :
    b.blockPayload (block ++ rxBuf.drop block.length) block.length =
      some (b.sessionPayload block) := by
  have hover : block ++ rxBuf.drop block.length = block := by
    rw [List.drop_of_length_le (by omega), List.append_nil]
  have hlong : ¬ block.length < hyperampMsgHdrSize := by
    rw [hlen]
    decide
  rw [hover, blockPayload, if_neg hlong, sessionPayload]
  by_cases hdata : b.IsSessionData block
  · have hfits : ¬ block.length < hyperampMsgHdrSize + payloadLen block := by
      have := hpay hdata
      simp only [kHyperAmpMaxPayload, kHyperAmpBlockSize, hyperampMsgHdrSize] at *
      omega
    rw [if_neg (not_not.mpr hdata), if_neg hfits, if_pos hdata]
  · rw [if_pos hdata, if_neg hdata]

lemma length_sessionPayload_le {block : List UInt8}
    (hpay : b.IsSessionData block → payloadLen block ≤ kHyperAmpMaxPayload) :
    (b.sessionPayload block).length ≤ kHyperAmpMaxPayload := by
  rw [sessionPayload]
  split_ifs with hdata
  · rw [List.length_take]
    exact (Nat.min_le_left _ _).trans (hpay hdata)
  · exact Nat.zero_le _

/-! ### Receiving -/

section Loop

variable {rxBuf dst block : List UInt8} {needed : ℕ} {polls : List Mem}

lemma recvLoop_again (h : b.rxPoll m = some (.again, [])) :
    recvLoop b rxBuf dst (needed + 1) (m :: polls) = recvLoop b rxBuf dst (needed + 1) polls := by
  rw [recvLoop, h]

/-- A block that fits is taken as a whole; one without payload is skipped. -/
lemma recvLoop_whole (h : b.rxPoll m = some (.ok, block)) {payload : List UInt8}
    (hpay : b.blockPayload (block ++ rxBuf.drop block.length) block.length = some payload)
    (hle : payload.length ≤ needed + 1) :
    recvLoop b rxBuf dst (needed + 1) (m :: polls) =
      recvLoop b (block ++ rxBuf.drop block.length) (dst ++ payload) (needed + 1 - payload.length)
        polls := by
  rw [recvLoop, h]
  simp only [hpay]
  cases payload with
  | nil => simp
  | cons p ps => simp only [if_pos hle, lt_irrefl, if_false, List.take_length]

/-- Of a block that is too long the surplus is stashed, and the call returns. -/
lemma recvLoop_surplus (h : b.rxPoll m = some (.ok, block)) {payload : List UInt8}
    (hpay : b.blockPayload (block ++ rxBuf.drop block.length) block.length = some payload)
    (hlt : needed + 1 < payload.length) {spill : Spill}
    (hstash : b.spill.stash (payload.drop (needed + 1)) = some spill) :
    recvLoop b rxBuf dst (needed + 1) (m :: polls) =
      .returns (Int64.ofNat (dst.length + (needed + 1))) (dst ++ payload.take (needed + 1))
        { b with spill } polls := by
  rw [recvLoop, h]
  simp only [hpay]
  cases payload with
  | nil => simp at hlt
  | cons p ps =>
      simp only [if_neg (not_le.mpr hlt), if_pos hlt, hstash, Nat.sub_self, recvLoop]
      rw [List.length_append, List.length_take, Nat.min_eq_left hlt.le]

/-- The loop returns the front of the stream once it is long enough, and keeps the rest
of the last block. -/
lemma recvLoop_spec (hq : b.rxQueue ≠ 0) (hpolls : ∀ m ∈ polls, b.RxReady m)
    (hbuf : rxBuf.length = kHyperAmpBlockSize) (hspill : needed ≠ 0 → b.spill.unread = []) :
    (needed ≤ (b.stream polls).length → ∃ spill rest, rest <:+ polls ∧
      recvLoop b rxBuf dst needed polls =
        .returns (Int64.ofNat (dst.length + needed)) (dst ++ (b.stream polls).take needed)
          { b with spill } rest ∧
      spill.unread ++ b.stream rest = b.spill.unread ++ (b.stream polls).drop needed) ∧
    ((b.stream polls).length < needed → recvLoop b rxBuf dst needed polls = .waiting) := by
  -- on the polls that are left: each finds nothing, or a block whose payload is taken
  induction polls generalizing rxBuf dst needed with
  | nil =>
      cases needed with
      | zero =>
          exact ⟨fun _ => ⟨b.spill, [], List.suffix_refl _, by simp [recvLoop], by simp⟩, by simp⟩
      | succ needed => exact ⟨by simp [stream], fun _ => rfl⟩
  | cons m polls ih =>
      rw [List.forall_mem_cons] at hpolls
      obtain ⟨⟨hring, hfits⟩, hpolls⟩ := hpolls
      cases needed with
      | zero =>
          exact ⟨fun _ => ⟨b.spill, m :: polls, List.suffix_refl _, by simp [recvLoop], by simp⟩,
            by simp⟩
      | succ needed =>
          have hnil := hspill (Nat.succ_ne_zero _)
          have hstream : b.stream (m :: polls) = b.arrived m ++ b.stream polls :=
            List.flatMap_cons ..
          rcases rxPoll_cases hq hring with hagain | ⟨block, hlen, hok⟩
          · have hno : b.arrived m = [] := by rw [arrived, hagain]
            rw [hstream, hno, List.nil_append, recvLoop_again hagain]
            obtain ⟨hlong, hshort⟩ := ih hpolls hbuf hspill
            refine ⟨fun hle => ?_, hshort⟩
            obtain ⟨spill, rest, hrest, heq⟩ := hlong hle
            exact ⟨spill, rest, hrest.trans (List.suffix_cons _ _), heq⟩
          · have hgot : b.arrived m = b.sessionPayload block := by rw [arrived, hok]
            have hpay := blockPayload_eq hlen hbuf (hfits block hok)
            have hbuf' : (block ++ rxBuf.drop block.length).length = kHyperAmpBlockSize := by
              rw [List.length_append, List.length_drop]
              omega
            rw [hstream, hgot]
            rcases Nat.lt_or_ge (needed + 1) (b.sessionPayload block).length with hlt | hge
            · -- the block is longer than what is needed
              refine ⟨fun _ => ?_, fun hshort => ?_⟩
              · have hsmall : ((b.sessionPayload block).drop (needed + 1)).length ≤
                    kHyperAmpMaxPayload := by
                  have := length_sessionPayload_le (hfits block hok)
                  rw [List.length_drop]
                  omega
                obtain ⟨spill, hstash, hunread⟩ := b.spill.stash_spec hsmall
                refine ⟨spill, polls, List.suffix_cons _ _, ?_, ?_⟩
                · rw [recvLoop_surplus hok hpay hlt hstash, List.take_append_of_le_length hlt.le]
                · rw [hunread, hnil, List.nil_append, List.drop_append_of_le_length hlt.le]
              · rw [List.length_append] at hshort
                omega
            · rw [recvLoop_whole hok hpay hge]
              have hspill' : needed + 1 - (b.sessionPayload block).length ≠ 0 →
                  b.spill.unread = [] := fun _ => hnil
              obtain ⟨hlong, hshort⟩ := ih hpolls hbuf' hspill'
              refine ⟨fun hle => ?_, fun hlt => ?_⟩
              · rw [List.length_append] at hle
                obtain ⟨spill, rest, hrest, heq, hleft⟩ := hlong (by omega)
                refine ⟨spill, rest, hrest.trans (List.suffix_cons _ _), ?_, ?_⟩
                · rw [heq, List.take_append, List.take_of_length_le hge, List.append_assoc,
                    List.length_append, Nat.add_assoc, Nat.add_sub_cancel' hge]
                · rw [hleft, List.drop_append, List.drop_of_length_le hge, List.nil_append]
              · rw [List.length_append] at hlt
                exact hshort (by omega)

end Loop

/-- **One call of `recv`**: it returns as many bytes as it was asked for from the front of
the unread bytes and the stream, as soon as there are enough. -/
lemma recv_spec (hconn : b.Connected) {polls : List Mem} (hpolls : ∀ m ∈ polls, b.RxReady m)
    {rxBuf : List UInt8} (hbuf : rxBuf.length = kHyperAmpBlockSize) (len : ℕ) :
    (len ≤ (b.spill.unread ++ b.stream polls).length → ∃ spill rest, rest <:+ polls ∧
      b.recv rxBuf len polls =
        .returns (Int64.ofNat len) ((b.spill.unread ++ b.stream polls).take len)
          { b with spill } rest ∧
      spill.unread ++ b.stream rest = (b.spill.unread ++ b.stream polls).drop len) ∧
    ((b.spill.unread ++ b.stream polls).length < len → b.recv rxBuf len polls = .waiting) := by
  obtain ⟨hout, hunread⟩ := b.spill.drain_spec len
  have hactive : ¬ (b.initialized = false ∨ b.sessionActive = false) := by
    simp [hconn.initialized, hconn.sessionActive]
  have hlen : (b.spill.drain len).1.length = min len b.spill.unread.length := by
    rw [hout, List.length_take]
  have hnil : len - (b.spill.drain len).1.length ≠ 0 → (b.spill.drain len).2.unread = [] := by
    intro hne
    rw [hunread, List.drop_eq_nil_iff]
    omega
  have hrecv : b.recv rxBuf len polls = recvLoop { b with spill := (b.spill.drain len).2 } rxBuf
      (b.spill.drain len).1 (len - (b.spill.drain len).1.length) polls := by
    rw [recv, if_neg hactive]
  obtain ⟨hlong, hshort⟩ := recvLoop_spec (b := { b with spill := (b.spill.drain len).2 })
    hconn.rxQueue_ne hpolls hbuf hnil
  have hneeded : len - (b.spill.drain len).1.length = len - b.spill.unread.length := by omega
  have hsum : (b.spill.drain len).1.length + (len - b.spill.unread.length) = len := by omega
  rw [hneeded, hsum] at hlong
  rw [hrecv, hneeded, List.length_append]
  constructor
  · intro hle
    obtain ⟨spill, rest, hrest, heq, hleft⟩ := hlong (by
      show _ ≤ (b.stream polls).length
      omega)
    refine ⟨spill, rest, hrest, ?_, ?_⟩
    · rw [heq, List.take_append, hout]
      rfl
    · rw [List.drop_append, ← hunread]
      exact hleft
  · intro hlt
    rw [hneeded] at hshort
    apply hshort
    show (b.stream polls).length < _
    omega

/-- The arguments of a call of `recv`: a buffer of `len` bytes, and what the buffer on the
stack happens to hold. -/
structure RecvCall where
  len : ℕ
  rxBuf : List UInt8
  len_lt : len < 2 ^ 63
  rxBuf_length : rxBuf.length = kHyperAmpBlockSize

/-- How a sequence of calls ends. -/
inductive RecvsEnd
  | done (bridge : HyperAmpBridge) (rest : List Mem)
  | waiting
  | undefined

/-- One call of `recv` after the other, with the results of those that return. -/
def recvs (b : HyperAmpBridge) (polls : List Mem) :
    List RecvCall → List (Int64 × List UInt8) × RecvsEnd
  | [] => ([], .done b polls)
  | call :: calls =>
      match b.recv call.rxBuf call.len polls with
      | .returns ret bytes b' rest =>
          let (results, ending) := recvs b' rest calls
          ((ret, bytes) :: results, ending)
      | .waiting => ([], .waiting)
      | .undefined => ([], .undefined)

/-- How many bytes the calls ask for. -/
def wanted (calls : List RecvCall) : ℕ := (calls.map RecvCall.len).sum

/-- The results of a sequence of calls on the stream `S`: those that return have returned
as many bytes as they asked for, together they are the front of the stream, and either
all calls have returned and the rest of the stream is still there, or the next one waits
for more than there is. -/
structure StreamOk (b : HyperAmpBridge) (S : List UInt8) (calls : List RecvCall)
    (results : List (Int64 × List UInt8)) (ending : RecvsEnd) : Prop where
  lengths : results.map (fun r => (r.1.toInt, r.2.length)) =
    (calls.take results.length).map fun call => ((call.len : ℤ), call.len)
  front : (results.map Prod.snd).flatten = S.take (wanted (calls.take results.length))
  ends : (∃ spill rest, ending = .done { b with spill } rest ∧ results.length = calls.length ∧
      (results.map Prod.snd).flatten ++ spill.unread ++ b.stream rest = S) ∨
    ending = .waiting ∧ results.length < calls.length ∧
      S.length < wanted (calls.take (results.length + 1))

lemma recvs_spec (hconn : b.Connected) {polls : List Mem} (hpolls : ∀ m ∈ polls, b.RxReady m)
    (calls : List RecvCall) :
    StreamOk b (b.spill.unread ++ b.stream polls) calls (b.recvs polls calls).1
      (b.recvs polls calls).2 := by
  -- on the calls: each takes a front of the stream and leaves the rest to those behind it
  induction calls generalizing b polls with
  | nil => exact ⟨rfl, by simp [recvs, wanted], .inl ⟨b.spill, polls, by simp [recvs]⟩⟩
  | cons call calls ih =>
      obtain ⟨hlong, hshort⟩ := recv_spec hconn hpolls call.rxBuf_length call.len
      rcases Nat.lt_or_ge (b.spill.unread ++ b.stream polls).length call.len with hlt | hle
      · have hwait : b.recvs polls (call :: calls) = ([], .waiting) := by
          rw [recvs, hshort hlt]
        rw [hwait]
        refine ⟨rfl, by simp [wanted], .inr ⟨rfl, by simp, ?_⟩⟩
        simpa [wanted] using hlt
      · obtain ⟨spill, rest, hrest, heq, hleft⟩ := hlong hle
        have hcons : b.recvs polls (call :: calls) =
            ((Int64.ofNat call.len, (b.spill.unread ++ b.stream polls).take call.len) ::
              (recvs { b with spill } rest calls).1, (recvs { b with spill } rest calls).2) := by
          rw [recvs, heq]
        have hconn' : Connected { b with spill } :=
          ⟨hconn.initialized, hconn.sessionActive, hconn.txQueue_ne, hconn.rxQueue_ne⟩
        have hrest' : ∀ m ∈ rest, RxReady { b with spill } m := fun m hm =>
          hpolls m (hrest.subset hm)
        have ih := ih hconn' hrest'
        have hstream : spill.unread ++ stream { b with spill } rest =
            (b.spill.unread ++ b.stream polls).drop call.len := hleft
        simp only [hstream] at ih
        rw [hcons]
        have hint : (Int64.ofNat call.len).toInt = call.len := Int64.toInt_ofNat_of_lt call.len_lt
        refine ⟨?_, ?_, ?_⟩
        · simp only [List.map_cons, List.length_cons, List.take_succ_cons, ih.lengths, hint,
            List.length_take, Nat.min_eq_left hle]
        · simp only [List.map_cons, List.flatten_cons, List.length_cons, List.take_succ_cons,
            ih.front, wanted, List.sum_cons]
          rw [List.take_add]
        · rcases ih.ends with ⟨spill', rest', hend, hall, hsplit⟩ | ⟨hend, hsome, hlt⟩
          · refine .inl ⟨spill', rest', hend, by simp [hall], ?_⟩
            have hsplit' : (List.map Prod.snd (recvs { b with spill } rest calls).1).flatten ++
                spill'.unread ++ b.stream rest' =
                  (b.spill.unread ++ b.stream polls).drop call.len := hsplit
            rw [List.map_cons, List.flatten_cons, List.append_assoc, List.append_assoc,
              ← List.append_assoc _ spill'.unread, hsplit', List.take_append_drop]
          · refine .inr ⟨hend, by simpa using hsome, ?_⟩
            rw [List.length_drop] at hlt
            simp only [List.length_cons, List.take_succ_cons, wanted, List.map_cons,
              List.sum_cons] at hlt ⊢
            omega

/-! ### Sending -/

section Sending

variable {chunk data : List UInt8}

lemma header_dataMsg (b : HyperAmpBridge) (chunk : List UInt8) :
    HyperampMsgHeader.ofBytes (b.dataMsg chunk) =
      ⟨1, hyperampMsgTypeData, b.frontendSessId, b.backendSessId, UInt16.ofNat chunk.length⟩ :=
  HyperampMsgHeader.ofBytes_toBytes _ _

lemma isSessionData_dataMsg (b : HyperAmpBridge) (chunk : List UInt8) :
    b.IsSessionData (b.dataMsg chunk) := by
  simp [IsSessionData, header_dataMsg]

lemma length_dataMsg (b : HyperAmpBridge) (chunk : List UInt8) :
    (b.dataMsg chunk).length = hyperampMsgHdrSize + chunk.length := by
  simp [dataMsg]

lemma payloadLen_dataMsg (b : HyperAmpBridge) (hlen : chunk.length ≤ kHyperAmpMaxPayload) :
    payloadLen (b.dataMsg chunk) = chunk.length := by
  rw [kHyperAmpMaxPayload] at hlen
  rw [payloadLen, header_dataMsg]
  simp only [UInt16.toNat_ofNat']
  omega

lemma sessionPayload_dataMsg (b : HyperAmpBridge) (hlen : chunk.length ≤ kHyperAmpMaxPayload) :
    b.sessionPayload (b.dataMsg chunk) = chunk := by
  rw [sessionPayload, if_pos (isSessionData_dataMsg b chunk), payloadLen_dataMsg b hlen, dataMsg,
    List.drop_left' (by simp), List.take_length]

/-- A message of the session, with the size that its header says. -/
structure IsDataBlock (b : HyperAmpBridge) (block : List UInt8) : Prop where
  data : b.IsSessionData block
  length : block.length = hyperampMsgHdrSize + payloadLen block
  payload_pos : 0 < payloadLen block
  payload_le : payloadLen block ≤ kHyperAmpMaxPayload

/-- The pieces into which `send` cuts a buffer: 4088 bytes each, but for the last. -/
def pieces (buf : List UInt8) : List (List UInt8) :=
  (List.range ((buf.length + (kHyperAmpMaxPayload - 1)) / kHyperAmpMaxPayload)).map fun i =>
    (buf.drop (i * kHyperAmpMaxPayload)).take kHyperAmpMaxPayload

@[simp] lemma pieces_nil : pieces [] = [] := rfl

lemma pieces_of_ne_nil (h : data ≠ []) :
    pieces data = data.take kHyperAmpMaxPayload :: pieces (data.drop kHyperAmpMaxPayload) := by
  have hpos := List.length_pos_iff.mpr h
  have hcount : (data.length + (kHyperAmpMaxPayload - 1)) / kHyperAmpMaxPayload =
      ((data.drop kHyperAmpMaxPayload).length + (kHyperAmpMaxPayload - 1)) /
        kHyperAmpMaxPayload + 1 := by
    rw [List.length_drop, kHyperAmpMaxPayload]
    omega
  rw [pieces, hcount, List.range_succ_eq_map, List.map_cons, List.map_map, Nat.zero_mul,
    List.drop_zero, pieces]
  refine congrArg (List.cons _) (List.map_congr_left fun i _ => ?_)
  rw [Function.comp_apply, List.drop_drop, Nat.succ_mul, Nat.add_comm]

/-- The pieces make up the buffer. -/
lemma flatten_pieces (data : List UInt8) : (pieces data).flatten = data := by
  induction hn : data.length using Nat.strong_induction_on generalizing data with
  | _ n ih =>
    by_cases h : data = []
    · rw [h, pieces_nil, List.flatten_nil]
    · have hpos := List.length_pos_iff.mpr h
      have hshort : (data.drop kHyperAmpMaxPayload).length < n := by
        rw [List.length_drop, kHyperAmpMaxPayload]
        omega
      rw [pieces_of_ne_nil h, List.flatten_cons, ih _ hshort _ rfl, List.take_append_drop]

lemma mem_pieces (h : chunk ∈ pieces data) :
    0 < chunk.length ∧ chunk.length ≤ kHyperAmpMaxPayload := by
  obtain ⟨i, hi, rfl⟩ := List.mem_map.mp h
  rw [List.mem_range, kHyperAmpMaxPayload] at hi
  rw [List.length_take, List.length_drop, kHyperAmpMaxPayload]
  omega

/-- The message of a piece is a message of the session. -/
lemma isDataBlock_of_mem {b : HyperAmpBridge} (h : chunk ∈ pieces data) :
    b.IsDataBlock (b.dataMsg chunk) := by
  obtain ⟨hpos, hlen⟩ := mem_pieces h
  have hpay := payloadLen_dataMsg b hlen
  exact ⟨isSessionData_dataMsg b chunk, by rw [length_dataMsg, hpay], by omega, by omega⟩

/-- The payloads of the messages of pieces. -/
lemma flatMap_sessionPayload {b : HyperAmpBridge} {chunks : List (List UInt8)}
    (h : ∀ chunk ∈ chunks, chunk.length ≤ kHyperAmpMaxPayload) :
    (chunks.map b.dataMsg).flatMap b.sessionPayload = chunks.flatten := by
  induction chunks with
  | nil => rfl
  | cons chunk chunks ih =>
      rw [List.forall_mem_cons] at h
      rw [List.map_cons, List.flatMap_cons, sessionPayload_dataMsg b h.1, ih h.2,
        List.flatten_cons]

/-- The number of polls that find a free slot in the transmit ring. -/
def room (b : HyperAmpBridge) (polls : List Mem) : ℕ :=
  polls.countP fun m => ¬ RingFull b.txQueue m

/-- **The loop of `send`**: each poll that finds a free slot takes the next piece, the
others take none, and the call returns with the last piece. -/
lemma sendLoop_spec (hconn : b.Connected) {polls : List Mem}
    (hpolls : ∀ m ∈ polls, RingReady b.txQueue m) (data : List UInt8) (totalSent : ℕ) :
    (b.room polls < (pieces data).length →
      b.sendLoop data totalSent polls =
        .waiting (((pieces data).take (b.room polls)).map b.dataMsg)) ∧
      ((pieces data).length ≤ b.room polls →
        ∃ used rest, polls = used ++ rest ∧ b.room used = (pieces data).length ∧
          b.sendLoop data totalSent polls =
            .returns (Int64.ofNat (totalSent + data.length)) ((pieces data).map b.dataMsg) rest) := by
  -- on the polls: each finds a full ring, or takes the first piece of what is left
  induction polls generalizing data totalSent with
  | nil =>
      cases data with
      | nil => exact ⟨by simp, fun _ => ⟨[], [], rfl, rfl, by simp [sendLoop]⟩⟩
      | cons byte bytes =>
          refine ⟨fun _ => by simp [sendLoop, room], fun h => ?_⟩
          rw [pieces_of_ne_nil (List.cons_ne_nil _ _)] at h
          simp [room] at h
  | cons m polls ih =>
      rw [List.forall_mem_cons] at hpolls
      cases data with
      | nil => exact ⟨by simp, fun _ => ⟨[], m :: polls, rfl, rfl, by simp [sendLoop]⟩⟩
      | cons byte bytes =>
          set chunk := (byte :: bytes).take kHyperAmpMaxPayload with hchunk
          have hpieces : pieces (byte :: bytes) =
              chunk :: pieces ((byte :: bytes).drop kHyperAmpMaxPayload) :=
            pieces_of_ne_nil (List.cons_ne_nil _ _)
          have hmem : chunk ∈ pieces (byte :: bytes) := by
            rw [hpieces]
            exact List.mem_cons_self
          obtain ⟨hpos, hlen⟩ := mem_pieces hmem
          have hne : b.dataMsg chunk ≠ [] := by
            rw [← List.length_pos_iff, length_dataMsg]
            omega
          have hfits : (b.dataMsg chunk).length ≤ kHyperAmpBlockSize := by
            rw [length_dataMsg]
            simp only [kHyperAmpMaxPayload, kHyperAmpBlockSize, hyperampMsgHdrSize] at hlen ⊢
            omega
          have hpoll := txPoll_eq hconn.txQueue_ne hpolls.1 hne hfits
          by_cases hfull : RingFull b.txQueue m
          · -- the poll changes nothing
            rw [if_pos hfull] at hpoll
            have hstep : b.sendLoop (byte :: bytes) totalSent (m :: polls) =
                b.sendLoop (byte :: bytes) totalSent polls := by
              rw [sendLoop, ← hchunk, hpoll]
            have hroom : ∀ ms, b.room (m :: ms) = b.room ms := by simp [room, hfull]
            obtain ⟨hshort, hlong⟩ := ih hpolls.2 (byte :: bytes) totalSent
            rw [hstep, hroom]
            refine ⟨hshort, fun h => ?_⟩
            obtain ⟨used, rest, hsplit, hused, heq⟩ := hlong h
            exact ⟨m :: used, rest, by rw [hsplit, List.cons_append], by rw [hroom, hused], heq⟩
          · -- the poll takes the first piece
            rw [if_neg hfull] at hpoll
            have hstep : b.sendLoop (byte :: bytes) totalSent (m :: polls) =
                (b.sendLoop ((byte :: bytes).drop kHyperAmpMaxPayload) (totalSent + chunk.length)
                  polls).after (b.dataMsg chunk) := by
              rw [sendLoop, ← hchunk, hpoll]
            have hroom : ∀ ms, b.room (m :: ms) = b.room ms + 1 := by simp [room, hfull]
            have hsum : chunk.length + ((byte :: bytes).drop kHyperAmpMaxPayload).length =
                (byte :: bytes).length := by
              rw [← List.length_append, hchunk, List.take_append_drop]
            obtain ⟨hshort, hlong⟩ :=
              ih hpolls.2 ((byte :: bytes).drop kHyperAmpMaxPayload) (totalSent + chunk.length)
            rw [hstep, hroom, hpieces, List.length_cons]
            refine ⟨fun h => ?_, fun h => ?_⟩
            · rw [hshort (by omega), SendOutcome.after, List.take_succ_cons, List.map_cons]
            · obtain ⟨used, rest, hsplit, hused, heq⟩ := hlong (by omega)
              refine ⟨m :: used, rest, by rw [hsplit, List.cons_append], by rw [hroom, hused], ?_⟩
              rw [heq, SendOutcome.after, Nat.add_assoc, hsum, List.map_cons]

/-- The outcome of `send` for a buffer. Either it has returned the length of the buffer,
after as many polls with a free slot as the buffer has pieces, and has enqueued the messages
of all pieces; or it waits, because fewer polls than that have found a free slot, and has
enqueued one message for each of these. The payloads of the messages, of one to 4088 bytes,
are the buffer, or the front of it. -/
def SendOk (b : HyperAmpBridge) (buf : List UInt8) (polls : List Mem) : SendOutcome → Prop
  | .returns ret blocks rest =>
      ret.toInt = buf.length ∧ blocks = (pieces buf).map b.dataMsg ∧
        (∃ used, polls = used ++ rest ∧ b.room used = (pieces buf).length) ∧
        (∀ block ∈ blocks, b.IsDataBlock block) ∧ blocks.flatMap b.sessionPayload = buf
  | .waiting blocks =>
      b.room polls < (pieces buf).length ∧
        blocks = ((pieces buf).take (b.room polls)).map b.dataMsg ∧
        (∀ block ∈ blocks, b.IsDataBlock block) ∧
        ∃ left, left ≠ [] ∧ blocks.flatMap b.sessionPayload ++ left = buf

lemma send_spec (hconn : b.Connected) {polls : List Mem}
    (hpolls : ∀ m ∈ polls, RingReady b.txQueue m) {buf : List UInt8} (hbuf : buf.length < 2 ^ 63) :
    b.SendOk buf polls (b.send buf polls) := by
  have hactive : ¬ (b.initialized = false ∨ b.sessionActive = false) := by
    simp [hconn.initialized, hconn.sessionActive]
  have hblocks : ∀ chunks : List (List UInt8), (∀ chunk ∈ chunks, chunk ∈ pieces buf) →
      ∀ block ∈ chunks.map b.dataMsg, b.IsDataBlock block := by
    intro chunks hsub block hblock
    obtain ⟨chunk, hchunk, rfl⟩ := List.mem_map.mp hblock
    exact isDataBlock_of_mem (hsub chunk hchunk)
  rw [send, if_neg hactive]
  obtain ⟨hshort, hlong⟩ := sendLoop_spec hconn hpolls buf 0
  rcases Nat.lt_or_ge (b.room polls) (pieces buf).length with hlt | hle
  · rw [hshort hlt]
    have hsub : ∀ chunk ∈ (pieces buf).take (b.room polls), chunk ∈ pieces buf :=
      fun _ => List.mem_of_mem_take
    refine ⟨hlt, rfl, hblocks _ hsub, ((pieces buf).drop (b.room polls)).flatten, ?_, ?_⟩
    · -- the next piece is left, and it is not empty
      rw [List.drop_eq_getElem_cons hlt, List.flatten_cons]
      have hpos := (mem_pieces (List.getElem_mem hlt)).1
      exact fun hnil => absurd (List.append_eq_nil_iff.mp hnil).1 (List.ne_nil_of_length_pos hpos)
    · rw [flatMap_sessionPayload fun chunk h => (mem_pieces (hsub chunk h)).2,
        ← List.flatten_append, List.take_append_drop, flatten_pieces]
  · obtain ⟨used, rest, hsplit, hused, heq⟩ := hlong hle
    rw [heq, Nat.zero_add]
    refine ⟨Int64.toInt_ofNat_of_lt hbuf, rfl, ⟨used, hsplit, hused⟩,
      hblocks _ fun _ h => h, ?_⟩
    rw [flatMap_sessionPayload fun chunk h => (mem_pieces h).2, flatten_pieces]

/-- With a free slot for each piece `send` returns. -/
lemma send_returns (hconn : b.Connected) {polls : List Mem}
    (hpolls : ∀ m ∈ polls, RingReady b.txQueue m) {buf : List UInt8}
    (hroom : (pieces buf).length ≤ b.room polls) :
    ∃ ret blocks rest, b.send buf polls = .returns ret blocks rest := by
  obtain ⟨used, rest, -, -, heq⟩ := (sendLoop_spec hconn hpolls buf 0).2 hroom
  rw [send, if_neg (by simp [hconn.initialized, hconn.sessionActive]), heq]
  exact ⟨_, _, rest, rfl⟩

end Sending

/-- A bridge after `connect`, with session ids 7 and 9. -/
def someBridge : HyperAmpBridge where
  initialized := true
  sessionActive := true
  txQueue := 0x10000
  rxQueue := 0x10000
  dataRegion := 0x20000
  frontendSessId := 7
  backendSessId := 9
  spill := .fresh

/-- A ring of four slots with one message, the bytes 10, 11 and 12 for session 7. -/
def oneMessage : Mem :=
  store (store (fun _ => 0) 0x10002 [1, 0, 0, 0, 4, 0, 0, 16]) 0x21000
    [1, 3, 7, 0, 9, 0, 3, 0, 10, 11, 12]

/-- A call of `recv` for `len` bytes. -/
def recvCall (len : ℕ) (h : len < 2 ^ 63) : RecvCall :=
  ⟨len, List.replicate kHyperAmpBlockSize 0, h, by simp⟩

/-- A ring of four slots without room. -/
def fullRing : Mem := store (fun _ => 0) 0x10002 [3, 0, 0, 0, 4, 0, 0, 16]

end HyperAmpBridge

end Monkey
