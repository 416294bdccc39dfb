import Sel4Test.Lib.Touch
import Sel4Test.Monkey.Bridge

/-!
What `HyperAmpBridge::recv` touches, `monkey/net/HyperAmpBridge.cc`.

The functions of `Bridge` give a block whose payload is longer than the buffer no result. Here
they are written again as programs that touch bytes: the buffer on the stack, the buffer of the
caller and the spill buffer. The length of the payload comes from the peer; it goes into the copy
to the caller and the copy to the spill buffer, and is compared with what the caller needs only.

* `recvLoop_does`: what the loop touches and delivers, by induction on the polls.
* `recv_safe_iff`: exactly when a call stays inside.
* `recvs_safe`: and so does every call of a sequence.
-/

namespace Monkey.HyperAmpBridge

open ByteMem Hyperamp Touch

/-! ### The program -/

/-- `rxBuf`, the buffer of the caller, and `spillBuf_`. -/
inductive Buf
  | rx | dst | spill
  deriving DecidableEq, Repr

/-- The members `spillLen_` and `spillOffset_`. -/
structure SpillState where
  len : ℕ
  offset : ℕ
  deriving DecidableEq, Repr

/-- What a call comes to: its result and the polls that are left, none while it polls; the spill
state; and for each block that was delivered, how many bytes were received and the length of its
payload. -/
structure Received where
  returned : Option (Int64 × List Mem)
  spill : SpillState
  delivered : List (ℕ × ℕ)

/-- A block was delivered before. -/
def Received.after (rxLen payloadLen : ℕ) (r : Received) : Received :=
  { r with delivered := (rxLen, payloadLen) :: r.delivered }

/-- A block with a payload is delivered as far as it is needed, its surplus is stashed, and the
loop goes on with `next`. -/
def deliver (next : ℕ → ℕ → SpillState → Prog Buf Received) (rxLen payloadLen needed got : ℕ)
    (spill : SpillState) : Prog Buf Received := do
  let take := if payloadLen ≤ needed then payloadLen else needed
  copy .dst got .rx hyperampMsgHdrSize take
  if take < payloadLen then
    copy .spill 0 .rx (hyperampMsgHdrSize + take) (payloadLen - take)
    let r ← next (needed - take) (got + take) ⟨payloadLen - take, 0⟩
    return r.after rxLen payloadLen
  else
    let r ← next (needed - take) (got + take) spill
    return r.after rxLen payloadLen

/-- The loop of `recv`, with the loop of `rxDequeueBlocking` inside, byte by byte. -/
def recvBytes (b : HyperAmpBridge) : List Mem → ℕ → ℕ → SpillState → Prog Buf Received
  | [], needed, got, spill =>
      return ⟨if needed = 0 then some (Int64.ofNat got, []) else none, spill, []⟩
  | m :: polls, needed, got, spill =>
      if needed = 0 then return ⟨some (Int64.ofNat got, m :: polls), spill, []⟩
      else
        match b.rxPoll m with
        | none => return ⟨none, spill, []⟩
        | some (.again, _) => recvBytes b polls needed got spill
        | some (.error, _) =>
            return ⟨some (if 0 < got then Int64.ofNat got else -1, polls), spill, []⟩
        | some (.ok, block) => do
            writeBlock .rx 0 block
            if block.length < hyperampMsgHdrSize then recvBytes b polls needed got spill
            else
              let hdr ← readBlock .rx 0 hyperampMsgHdrSize
              if ¬ b.IsSessionData hdr ∨ payloadLen hdr = 0 then recvBytes b polls needed got spill
              else deliver (recvBytes b polls) block.length (payloadLen hdr) needed got spill

/-- `recv`. -/
def recvCopies (b : HyperAmpBridge) (len : ℕ) (polls : List Mem) (spill : SpillState) :
    Prog Buf Received :=
  if b.initialized = false ∨ b.sessionActive = false then return ⟨some (-1, polls), spill, []⟩
  else if spill.offset < spill.len then do
    let avail := spill.len - spill.offset
    let take := if avail ≤ len then avail else len
    copy .dst 0 .spill spill.offset take
    recvBytes b polls (len - take) take
      (if spill.len ≤ spill.offset + take then ⟨0, 0⟩ else ⟨spill.len, spill.offset + take⟩)
  else recvBytes b polls len 0 spill

/-! ### Promise -/

/-- The byte lies in its buffer; the caller's has `len` bytes. -/
def Within (len : ℕ) : Event Buf → Prop
  | .read .rx a => a < kHyperAmpBlockSize
  | .write .rx a => a < kHyperAmpBlockSize
  | .write .dst a => a < len
  | .read .spill a => a < kHyperAmpMaxPayload
  | .write .spill a => a < kHyperAmpMaxPayload
  | _ => False

/-- The cursor lies in the bytes that are left, and these in the spill buffer. -/
structure SpillState.Ok (s : SpillState) : Prop where
  offset_le : s.offset ≤ s.len
  len_le : s.len ≤ kHyperAmpMaxPayload

/-- What a call promises, whatever the buffers hold: every byte it touches lies in its buffer,
the spill state is in order, and no block is delivered whose payload is longer than what was
received. -/
def CallSafe (b : HyperAmpBridge) (len : ℕ) (polls : List Mem) (spill : SpillState) : Prop :=
  ∀ s : State Buf, s.log = [] →
    (∀ e ∈ (recvCopies b len polls spill s).2.log, Within len e) ∧
      (recvCopies b len polls spill s).1.spill.Ok ∧
      ∀ d ∈ (recvCopies b len polls spill s).1.delivered, hyperampMsgHdrSize + d.2 ≤ d.1

/-- Of the blocks that a loop takes off the ring while it needs `needed` bytes, none is data of
the session with a payload that is longer than what was received. -/
def Orderly (b : HyperAmpBridge) : List Mem → ℕ → Prop
  | [], _ => True
  | m :: polls, needed =>
      if needed = 0 then True
      else
        match b.rxPoll m with
        | none => True
        | some (.again, _) => Orderly b polls needed
        | some (.error, _) => True
        | some (.ok, block) =>
            let hdr := block.take hyperampMsgHdrSize
            if block.length < hyperampMsgHdrSize ∨ ¬ b.IsSessionData hdr ∨ payloadLen hdr = 0 then
              Orderly b polls needed
            else hyperampMsgHdrSize + payloadLen hdr ≤ block.length ∧
              Orderly b polls (needed - payloadLen hdr)

/-- The blocks that a call takes off the ring are in order: it needs what the spill buffer does
not have. -/
def CallOrderly (b : HyperAmpBridge) (len : ℕ) (polls : List Mem) (spill : SpillState) : Prop :=
  (b.initialized = false ∨ b.sessionActive = false) ∨
    Orderly b polls (len - (spill.len - spill.offset))

/-! ### What a poll finds -/

section Loop

variable {b : HyperAmpBridge} {m : Mem} {polls : List Mem} {ret : HyperampRet} {block : List UInt8}
  {len needed got : ℕ} {spill : SpillState} {H : Prop}

/-- No more is received than the buffer holds. -/
lemma length_rxPoll (h : b.rxPoll m = some (ret, block)) : block.length ≤ kHyperAmpBlockSize := by
  have hlocked : ∀ locked, (dequeueLocked locked b.rxQueue kHyperAmpBlockSize
      b.dataRegion).2.1.length ≤ kHyperAmpBlockSize := by
    intro locked
    rw [dequeueLocked]
    split_ifs
    · exact Nat.zero_le _
    · dsimp only
      rw [length_load]
    · dsimp only
      rw [length_load]
      omega
  rw [rxPoll] at h
  obtain ⟨r, hdequeue, heq⟩ := Option.map_eq_some_iff.mp h
  obtain rfl : r.2.1 = block := congrArg Prod.snd heq
  rw [hyperampQueueDequeue] at hdequeue
  by_cases hargs : b.rxQueue = 0 ∨ true = false ∨ kHyperAmpBlockSize = 0
  · rw [if_pos hargs] at hdequeue
    obtain rfl := Option.some.inj hdequeue
    exact Nat.zero_le _
  · rw [if_neg hargs] at hdequeue
    obtain ⟨locked, -, hdata⟩ := Option.bind_eq_some_iff.mp hdequeue
    obtain rfl := Option.some.inj hdata
    exact hlocked locked

/-- What the loop leaves: the spill state is in order if `H` holds, and the blocks that it has
delivered fit what was received exactly if the polls are in order. -/
def Left (H order : Prop) (r : Received) : Prop :=
  (H → r.spill.Ok) ∧
    ((∀ d ∈ r.delivered, hyperampMsgHdrSize + d.2 ≤ d.1) ↔ order)

/-- A block was delivered before. -/
lemma Left.after {order : Prop} {r : Received} {rxLen payloadLen : ℕ} (h : Left H order r) :
    Left H (hyperampMsgHdrSize + payloadLen ≤ rxLen ∧ order) (r.after rxLen payloadLen) := by
  refine ⟨h.1, ?_⟩
  rw [Received.after, List.forall_mem_cons, h.2]

/-- The program leaves what `Left` says and, where `H` holds, touches no byte outside. -/
def Keeps (H : Prop) (len : ℕ) (order : Prop) (x : Prog Buf Received) : Prop :=
  ∀ s, Does (fun e => H → Within len e) s x fun r _ => Left H order r

/-- **A block is delivered** from inside the buffer, to where there is room. -/
lemma deliver_keeps (order : ℕ → Prop) {next : ℕ → ℕ → SpillState → Prog Buf Received}
    {rxLen payloadLen : ℕ} (hnext : ∀ {needed got : ℕ} {spill : SpillState}, (H → order needed) →
      (H → spill.Ok) → got + needed = len → Keeps H len (order needed) (next needed got spill))
    (hH : H → hyperampMsgHdrSize + payloadLen ≤ rxLen ∧ order (needed - payloadLen))
    (hrx : rxLen ≤ kHyperAmpBlockSize) (hspill : H → spill.Ok) (hgot : got + needed = len) :
    Keeps H len (hyperampMsgHdrSize + payloadLen ≤ rxLen ∧ order (needed - payloadLen))
      (deliver next rxLen payloadLen needed got spill) := by
  intro s
  have hsize : H → 8 + payloadLen ≤ 4096 := fun h => (hH h).1.trans hrx
  set take := if payloadLen ≤ needed then payloadLen else needed with htake
  have hle : take ≤ payloadLen ∧ take ≤ needed ∧ needed - take = needed - payloadLen := by
    rw [htake]
    split_ifs <;> omega
  obtain ⟨hpay, hneed, hrest⟩ := hle
  rw [deliver, ← htake]
  refine (Does.copy (by decide) fun i hi => ⟨fun h => ?_, fun _ => ?_⟩).bind ?_
  · have hin := hsize h
    show 8 + i < 4096
    omega
  · show got + i < len
    omega
  · intro _ t _
    -- what is not needed yet goes to the spill buffer, which is as long as the longest payload
    by_cases hsurplus : take < payloadLen
    · rw [if_pos hsurplus]
      refine (Does.copy (by decide) fun i hi => ⟨fun h => ?_, fun h => ?_⟩).bind ?_
      · have hin := hsize h
        show 8 + take + i < 4096
        omega
      · have hin := hsize h
        show 0 + i < 4088
        omega
      · intro _ t _
        refine (hnext ?_ ?_ ?_ t).bind ?_
        · rw [hrest]
          exact fun h => (hH h).2
        · intro h
          have hin := hsize h
          refine ⟨Nat.zero_le _, ?_⟩
          show payloadLen - take ≤ 4088
          omega
        · omega
        · intro r t hr
          rw [hrest] at hr
          exact Does.pure hr.after
    · rw [if_neg hsurplus]
      refine (hnext ?_ hspill ?_ t).bind ?_
      · rw [hrest]
        exact fun h => (hH h).2
      · omega
      · intro r t hr
        rw [hrest] at hr
        exact Does.pure hr.after

/-- Nothing is delivered. -/
lemma keeps_pure {order : Prop} {returned : Option (Int64 × List Mem)} (horder : order)
    (hspill : H → spill.Ok) : Keeps H len order (pure ⟨returned, spill, []⟩) := by
  intro s
  refine Does.pure ⟨hspill, iff_of_true ?_ horder⟩
  intro d hd
  cases hd

/-- **The loop**, by induction on the polls. Where `H` makes the polls orderly, every byte that is
touched lies in its buffer. -/
lemma recvBytes_keeps (hH : H → Orderly b polls needed) (hspill : H → spill.Ok)
    (hgot : got + needed = len) :
    Keeps H len (Orderly b polls needed) (recvBytes b polls needed got spill) := by
  -- on the polls that are left; a block that is passed over changes the buffer alone
  induction polls generalizing needed got spill with
  | nil => exact keeps_pure trivial hspill
  | cons m polls ih =>
      by_cases hneed : needed = 0
      · rw [recvBytes, if_pos hneed, Orderly, if_pos hneed]
        exact keeps_pure trivial hspill
      · rw [Orderly, if_neg hneed] at hH ⊢
        rw [recvBytes, if_neg hneed]
        cases hpoll : b.rxPoll m with
        | none => exact keeps_pure trivial hspill
        | some r =>
            obtain ⟨ret, block⟩ := r
            rw [hpoll] at hH
            cases ret with
            | again => exact ih hH hspill hgot
            | error => exact keeps_pure trivial hspill
            | ok =>
                have hblock := length_rxPoll hpoll
                dsimp only at hH ⊢
                intro s
                refine (Does.writeBlock fun i hi _ => ?_).bind ?_
                · show 0 + i < kHyperAmpBlockSize
                  omega
                · intro _ t ht
                  by_cases hshort : block.length < hyperampMsgHdrSize
                  · have hcond : block.length < hyperampMsgHdrSize ∨
                        ¬ b.IsSessionData (block.take hyperampMsgHdrSize) ∨
                          payloadLen (block.take hyperampMsgHdrSize) = 0 := .inl hshort
                    rw [if_pos hcond] at hH ⊢
                    rw [if_pos hshort]
                    exact ih hH hspill hgot t
                  · rw [if_neg hshort]
                    refine (Does.readBlock fun i hi _ => ?_).bind ?_
                    · show 0 + i < 4096
                      have h8 : i < 8 := hi
                      omega
                    · rintro hdr t' ⟨rfl, -⟩
                      have hhdr : load (t.mem .rx) 0 hyperampMsgHdrSize =
                          block.take hyperampMsgHdrSize := by
                        rw [ht, Function.update_self, load_store_take _ _ (Nat.not_lt.mp hshort)]
                      rw [hhdr]
                      by_cases hskip : ¬ b.IsSessionData (block.take hyperampMsgHdrSize) ∨
                          payloadLen (block.take hyperampMsgHdrSize) = 0
                      · have hcond : block.length < hyperampMsgHdrSize ∨
                            ¬ b.IsSessionData (block.take hyperampMsgHdrSize) ∨
                              payloadLen (block.take hyperampMsgHdrSize) = 0 := .inr hskip
                        rw [if_pos hcond] at hH ⊢
                        rw [if_pos hskip]
                        exact ih hH hspill hgot t'
                      · have hcond : ¬ (block.length < hyperampMsgHdrSize ∨
                            ¬ b.IsSessionData (block.take hyperampMsgHdrSize) ∨
                              payloadLen (block.take hyperampMsgHdrSize) = 0) :=
                          not_or.mpr ⟨hshort, hskip⟩
                        rw [if_neg hcond] at hH ⊢
                        rw [if_neg hskip]
                        exact deliver_keeps (Orderly b polls) (fun h => ih h) hH hblock hspill
                          hgot t'

/-- **One call**: the drain, and the loop for what it does not have. -/
lemma recvCopies_keeps (b : HyperAmpBridge) (len : ℕ) (polls : List Mem) (hspill : spill.Ok) :
    Keeps (CallOrderly b len polls spill) len (CallOrderly b len polls spill)
      (recvCopies b len polls spill) := by
  have hoffset := hspill.offset_le
  have hlen := hspill.len_le
  by_cases hactive : b.initialized = false ∨ b.sessionActive = false
  · rw [recvCopies, if_pos hactive]
    exact keeps_pure (.inl hactive) fun _ => hspill
  · have horder : CallOrderly b len polls spill =
        Orderly b polls (len - (spill.len - spill.offset)) := propext (or_iff_right hactive)
    rw [recvCopies, if_neg hactive, horder]
    by_cases hsome : spill.offset < spill.len
    · rw [if_pos hsome]
      set take := if spill.len - spill.offset ≤ len then spill.len - spill.offset else len
        with htake
      have hle : take ≤ spill.len - spill.offset ∧ take ≤ len ∧
          len - take = len - (spill.len - spill.offset) := by
        rw [htake]
        split_ifs <;> omega
      obtain ⟨havail, htake', hrest⟩ := hle
      intro s
      refine (Does.copy (by decide) fun i hi => ⟨fun _ => ?_, fun _ => ?_⟩).bind ?_
      · show spill.offset + i < kHyperAmpMaxPayload
        omega
      · show 0 + i < len
        omega
      · intro _ t _
        rw [← hrest]
        refine recvBytes_keeps id (fun _ => ?_) (by omega) t
        show SpillState.Ok (if spill.len ≤ spill.offset + take then _ else _)
        by_cases hdone : spill.len ≤ spill.offset + take
        · rw [if_pos hdone]
          exact ⟨le_rfl, Nat.zero_le _⟩
        · rw [if_neg hdone]
          refine ⟨?_, hlen⟩
          show spill.offset + take ≤ spill.len
          omega
    · rw [if_neg hsome]
      have hnone : len - (spill.len - spill.offset) = len := by omega
      rw [hnone]
      exact recvBytes_keeps id (fun _ => hspill) (Nat.zero_add len)

end Loop

/-! ### Calls and runs -/

/-- The spill states that calls come to, one after the other, if each finds its blocks in
order. -/
inductive Reaches (b : HyperAmpBridge) : SpillState → Prop
  | fresh : Reaches b ⟨0, 0⟩
  | call {spill : SpillState} (len : ℕ) (polls : List Mem) (s : State Buf) :
      Reaches b spill → CallOrderly b len polls spill →
        Reaches b (recvCopies b len polls spill s).1.spill

/-- The spill state is in order after every run. -/
lemma Reaches.ok {b : HyperAmpBridge} {spill : SpillState} (h : Reaches b spill) : spill.Ok := by
  induction h with
  | fresh => exact ⟨le_rfl, Nat.zero_le _⟩
  | call len polls s _ horder ih => exact (recvCopies_keeps b len polls ih s).2.1 horder

lemma callSafe_iff {b : HyperAmpBridge} {len : ℕ} {polls : List Mem} {spill : SpillState}
    (hspill : spill.Ok) : CallSafe b len polls spill ↔ CallOrderly b len polls spill := by
  have hkeeps := recvCopies_keeps b len polls hspill
  constructor
  · intro hsafe
    obtain ⟨-, -, hdelivered⟩ := hsafe ⟨fun _ _ => 0, []⟩ rfl
    exact (hkeeps _).2.2.mp hdelivered
  · intro horder s hlog
    obtain ⟨hok, hdelivered⟩ := (hkeeps s).2
    refine ⟨fun e he => (hkeeps s).log_allowed hlog e he horder, hok horder,
      hdelivered.mpr horder⟩

/-- **When `recv` stays inside**: from a spill state in order, a call keeps its promise exactly if
none of the blocks that it takes off the ring is data of the session with a payload longer than
what was received. The spill state is in order in every run of such calls. -/
theorem recv_safe_iff (b : HyperAmpBridge) :
    (∀ spill : SpillState, spill.Ok → ∀ (len : ℕ) (polls : List Mem),
      CallSafe b len polls spill ↔ CallOrderly b len polls spill) ∧
    ∀ spill, Reaches b spill → spill.Ok :=
  ⟨fun _ hspill _ _ => callSafe_iff hspill, fun _ h => h.ok⟩

/-- The ring of `oneMessage`, with a message whose header announces 65535 bytes. -/
def hugePayload : Mem :=
  store (store (fun _ => 0) 0x10002 [1, 0, 0, 0, 4, 0, 0, 16]) 0x21000
    [1, 3, 7, 0, 9, 0, 0xFF, 0xFF]

lemma rxPoll_hugePayload : ∃ block, someBridge.rxPoll hugePayload = some (.ok, block) ∧
    block.length = kHyperAmpBlockSize ∧ someBridge.IsSessionData (block.take hyperampMsgHdrSize) ∧
      payloadLen (block.take hyperampMsgHdrSize) = 65535 := by
  have hpoll : (someBridge.rxPoll hugePayload).any fun r =>
      decide (r.1 = .ok ∧ r.2.length = kHyperAmpBlockSize ∧
        someBridge.IsSessionData (r.2.take hyperampMsgHdrSize) ∧
          payloadLen (r.2.take hyperampMsgHdrSize) = 65535) := by
    decide +kernel
  generalize someBridge.rxPoll hugePayload = r at hpoll ⊢
  cases r with
  | none => cases hpoll
  | some r =>
      obtain ⟨hok, hblock⟩ := of_decide_eq_true hpoll
      exact ⟨r.2, by rw [← hok], hblock⟩

/-- A block of the session with too long a payload is not in order. -/
lemma not_orderly {b : HyperAmpBridge} {m : Mem} {polls : List Mem} {needed : ℕ}
    {block : List UInt8} (hneed : needed ≠ 0) (hpoll : b.rxPoll m = some (.ok, block))
    (hlen : hyperampMsgHdrSize ≤ block.length)
    (hdata : b.IsSessionData (block.take hyperampMsgHdrSize))
    (hlong : block.length < hyperampMsgHdrSize + payloadLen (block.take hyperampMsgHdrSize)) :
    ¬ Orderly b (m :: polls) needed := by
  have hcond : ¬ (block.length < hyperampMsgHdrSize ∨
      ¬ b.IsSessionData (block.take hyperampMsgHdrSize) ∨
        payloadLen (block.take hyperampMsgHdrSize) = 0) := by
    rw [not_or, not_or, not_not]
    exact ⟨by omega, hdata, by omega⟩
  rw [Orderly, if_neg hneed, hpoll]
  dsimp only
  rw [if_neg hcond]
  exact fun horder => absurd horder.1 (Nat.not_le.mpr hlong)

/-- One byte is asked for, and a block of 4096 bytes announces 65535. -/
theorem recv_spills_over : ¬ CallSafe someBridge 1 [hugePayload] ⟨0, 0⟩ := by
  rw [callSafe_iff ⟨le_rfl, Nat.zero_le _⟩, CallOrderly, or_iff_right (by decide)]
  obtain ⟨block, hpoll, hlen, hdata, hpay⟩ := rxPoll_hugePayload
  exact not_orderly (by decide) hpoll (by rw [hlen]; decide) hdata (by rw [hlen, hpay]; decide)

end Monkey.HyperAmpBridge
