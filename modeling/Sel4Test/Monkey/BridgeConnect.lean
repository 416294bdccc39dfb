import Sel4Test.Monkey.Bridge

/-!
Sessions of `HyperAmpBridge`: `connect` and `close` of `monkey/net/HyperAmpBridge.cc`.

`connect` closes a session that is still active, numbers the new one, enqueues the
CREATE command and takes blocks off the ring until one is a session message with the
number it has just sent. It looks at the status in that block, where the block is long
enough to have one, and not at the kind of the message. `recv` then delivers the data
messages with the number of the session or with the backend id of the answer.

As in `recv`, a poll is given by the memory that it finds, and the polls of a call are
taken off one list: first those of `close`, then those of the command, then those of the
answer.

* `connectWait_spec`: where the wait ends, and with what.
* `recvs_conserve`: what later calls of `recv` deliver is a front of the stream.
* `connect_sound`: the two together, for every bridge that a program can get.
* `connect_takes_close`: an acknowledged CLOSE also establishes a session.
-/

namespace Monkey

open ByteMem Hyperamp

/-! ### Session messages -/

/-- `HYPERAMP_MSG_TYPE_SESS`. -/
def hyperampMsgTypeSess : UInt8 := 2

/-- `SESS_MSG_CLOSE`. -/
def sessMsgClose : UInt16 := 0

/-- `SESS_MSG_CREATE`. -/
def sessMsgCreate : UInt16 := 1

/-- `ACTION_TYPE_COMMAND`. -/
def actionTypeCommand : UInt16 := 0

/-- `ACTION_TYPE_RESPONSE`. -/
def actionTypeResponse : UInt16 := 1

/-- `SESS_IPV4_PROTO`. -/
def sessIpv4Proto : UInt16 := 4

/-- `SESS_TCP_PROTO`. -/
def sessTcpProto : UInt16 := 1

/-- `SESS_OP_STATUS_SUCCESS`. -/
def sessOpStatusSuccess : UInt8 := 0

/-- The handover sentinel for an id. -/
def handoverSentinel : UInt16 := 0xFFFF

/-- `SessMsgHeader` of `hyperamp_protocol_defs.h`. -/
structure SessMsgHeader where
  version : UInt16
  msgType : UInt16
  actionType : UInt16
  ipVersion : UInt16
  payloadLen : UInt16
  deriving DecidableEq, Repr

/-- The size of a `SessMsgHeader`. -/
def sessMsgHdrSize : ℕ := 10

namespace SessMsgHeader

def toBytes (h : SessMsgHeader) : List UInt8 :=
  toLE 2 h.version.toNat ++ toLE 2 h.msgType.toNat ++ toLE 2 h.actionType.toNat ++
    toLE 2 h.ipVersion.toNat ++ toLE 2 h.payloadLen.toNat

/-- The header at the front of the bytes. -/
def ofBytes (bs : List UInt8) : SessMsgHeader where
  version := UInt16.ofNat (ofLE (bs.take 2))
  msgType := UInt16.ofNat (ofLE ((bs.drop 2).take 2))
  actionType := UInt16.ofNat (ofLE ((bs.drop 4).take 2))
  ipVersion := UInt16.ofNat (ofLE ((bs.drop 6).take 2))
  payloadLen := UInt16.ofNat (ofLE ((bs.drop 8).take 2))

end SessMsgHeader

/-- `SessIPv4Params`, with the address of `IP4Addr`. -/
structure SessIPv4Params where
  deviceSelection : UInt16
  transportLayerProto : UInt16
  ipv4Addr : Vector UInt8 4
  port : UInt16

def SessIPv4Params.toBytes (p : SessIPv4Params) : List UInt8 :=
  toLE 2 p.deviceSelection.toNat ++ toLE 2 p.transportLayerProto.toNat ++ p.ipv4Addr.toList ++
    toLE 2 p.port.toNat

/-- The CREATE command of `connect`. -/
def createMsg (frontendSessId : UInt16) (ip : Vector UInt8 4) (port devId : UInt16) : List UInt8 :=
  HyperampMsgHeader.toBytes ⟨1, hyperampMsgTypeSess, frontendSessId, handoverSentinel, 20⟩ ++
    SessMsgHeader.toBytes ⟨1, sessMsgCreate, actionTypeCommand, sessIpv4Proto, 10⟩ ++
    SessIPv4Params.toBytes ⟨devId, sessTcpProto, ip, port⟩

/-- The CLOSE command of `close`. -/
def closeMsg (frontendSessId backendSessId : UInt16) : List UInt8 :=
  HyperampMsgHeader.toBytes ⟨1, hyperampMsgTypeSess, frontendSessId, backendSessId, 10⟩ ++
    SessMsgHeader.toBytes ⟨1, sessMsgClose, actionTypeCommand, sessIpv4Proto, 0⟩

/-! ### The two loops over polls -/

/-- What a call that polls comes to: a result, the messages that it has put in the transmit
ring, which the source does not return, and the polls that are left. -/
inductive Polled (α : Type)
  | done (result : α) (sent : List (List UInt8)) (rest : List Mem)
  | waiting (sent : List (List UInt8))

namespace Polled

variable {α : Type}

/-- The messages in the transmit ring. -/
def sent : Polled α → List (List UInt8)
  | .done _ sent _ => sent
  | .waiting sent => sent

/-- Messages were put in the ring before. -/
def after (earlier : List (List UInt8)) : Polled α → Polled α
  | .done result sent rest => .done result (earlier ++ sent) rest
  | .waiting sent => .waiting (earlier ++ sent)

@[simp] lemma sent_after (earlier : List (List UInt8)) (p : Polled α) :
    (p.after earlier).sent = earlier ++ p.sent := by
  cases p <;> rfl

lemma after_eq_done {earlier sent : List (List UInt8)} {p : Polled α} {result : α}
    {rest : List Mem} (h : p.after earlier = .done result sent rest) :
    ∃ later, p = .done result later rest ∧ sent = earlier ++ later := by
  cases p with
  | done result' later rest' =>
      cases h
      exact ⟨later, rfl, rfl⟩
  | waiting later => cases h

end Polled

namespace HyperAmpBridge

variable (b : HyperAmpBridge)

/-- `txEnqueue`. -/
def txEnqueue (msg : List UInt8) : List Mem → Polled Bool
  | [] => .waiting []
  | m :: polls =>
      match b.txPoll msg m with
      | none => .waiting []
      | some .ok => .done true [msg] polls
      | some .again => txEnqueue msg polls
      | some .error => .done false [] polls

/-- The block in `rxBuf` is a session message for the session; both `connect` and `close`
take it as their answer. -/
def IsSessReply (block : List UInt8) : Prop :=
  hyperampMsgHdrSize ≤ block.length ∧
    (HyperampMsgHeader.ofBytes block).proxyMsgType = hyperampMsgTypeSess ∧
    (HyperampMsgHeader.ofBytes block).frontendSessId = b.frontendSessId

instance (block : List UInt8) : Decidable (b.IsSessReply block) :=
  inferInstanceAs (Decidable (_ ∧ _))

/-- The wait of `close`, for as many polls as there are attempts. -/
def closeWait : ℕ → List Mem → Polled Unit
  | 0, polls => .done () [] polls
  | _ + 1, [] => .waiting []
  | attempts + 1, m :: polls =>
      match b.rxPoll m with
      | none => .waiting []
      | some (.again, _) => closeWait attempts polls
      | some (.error, _) => .done () [] polls
      | some (.ok, block) =>
          if b.IsSessReply block then .done () [] polls else closeWait attempts polls

end HyperAmpBridge

/-- `kMaxCloseAttempts`. -/
def kMaxCloseAttempts : ℕ := 50000

/-! ### Connect and close -/

/-- `HyperAmpBridge` with the counter of its session ids. -/
structure SessionBridge extends HyperAmpBridge where
  sessIdCounter : UInt16

namespace SessionBridge

/-- `close`. -/
def close (b : SessionBridge) (polls : List Mem) : Polled SessionBridge :=
  if b.initialized = false ∨ b.sessionActive = false then .done b [] polls
  else
    match b.txEnqueue (closeMsg b.frontendSessId b.backendSessId) polls with
    | .waiting sent => .waiting sent
    | .done _ sent polls =>
        match b.closeWait kMaxCloseAttempts polls with
        | .waiting _ => .waiting sent
        | .done () _ polls =>
            .done { b with sessionActive := false, spill := b.spill.reset } sent polls

/-- `nextFrontendSessId`. -/
def nextFrontendSessId (b : SessionBridge) : UInt16 × SessionBridge :=
  let next := b.sessIdCounter + 1
  (b.sessIdCounter, { b with sessIdCounter := if next = handoverSentinel then 1 else next })

/-- The status of a `SessOpRespData`, after the two headers. -/
def respStatus (block : List UInt8) : UInt8 := block.getD (hyperampMsgHdrSize + sessMsgHdrSize) 0

/-- The block is long enough for a `SessOpRespData` and its status is not success. -/
def Refused (block : List UInt8) : Prop :=
  hyperampMsgHdrSize + sessMsgHdrSize + 2 ≤ block.length ∧ respStatus block ≠ sessOpStatusSuccess

instance (block : List UInt8) : Decidable (Refused block) :=
  inferInstanceAs (Decidable (_ ∧ _))

/-- The result of `connect`, the bridge, and the block that ended the wait, which the
source does not return. -/
abbrev Connected := Bool × SessionBridge × Option (List UInt8)

/-- The loop of `connect` that waits for the answer. -/
def connectWait (b : SessionBridge) : List Mem → Polled Connected
  | [] => .waiting []
  | m :: polls =>
      match b.rxPoll m with
      | none => .waiting []
      | some (.again, _) => connectWait b polls
      | some (.error, _) => .done (false, b, none) [] polls
      | some (.ok, block) =>
          if b.IsSessReply block then
            let b := { b with
              backendSessId := (HyperampMsgHeader.ofBytes block).backendSessId }
            if Refused block then .done (false, b, some block) [] polls
            else .done (true, { b with sessionActive := true }, some block) [] polls
          else connectWait b polls

/-- `connect` after the close of an old session: the id is drawn and the command is
sent. -/
def create (b : SessionBridge) (ip : Vector UInt8 4) (port devId : UInt16) (polls : List Mem) :
    Polled Connected :=
  let (id, b) := { b with spill := b.spill.reset }.nextFrontendSessId
  let b := { b with frontendSessId := id }
  match b.txEnqueue (createMsg id ip port devId) polls with
  | .waiting sent => .waiting sent
  | .done false sent polls => .done (false, b, none) sent polls
  | .done true sent polls => (b.connectWait polls).after sent

/-- `connect`. -/
def connect (b : SessionBridge) (ip : Vector UInt8 4) (port devId : UInt16) (polls : List Mem) :
    Polled Connected :=
  if b.initialized = false then .done (false, b, none) [] polls
  else if b.sessionActive then
    match b.close polls with
    | .waiting sent => .waiting sent
    | .done b sent polls => (b.create ip port devId polls).after sent
  else b.create ip port devId polls

/-- The bridge of the constructor. -/
def new : SessionBridge where
  initialized := false
  sessionActive := false
  txQueue := 0
  rxQueue := 0
  dataRegion := 0
  frontendSessId := 0
  backendSessId := 0
  spill := .fresh
  sessIdCounter := 1

/-- `init`; the two queues it sets up are only refused when their address is null. -/
def init (b : SessionBridge) (txVa rxVa dataVa : ℕ) : SessionBridge :=
  if b.initialized then b
  else if txVa = 0 ∨ rxVa = 0 ∨ dataVa = 0 then b
  else { b with txQueue := txVa, rxQueue := rxVa, dataRegion := dataVa, initialized := true }

/-- The bridges that a program can get; `send` does not change the bridge. -/
inductive Reached : SessionBridge → Prop
  | new : Reached new
  | init {b} (txVa rxVa dataVa : ℕ) (h : Reached b) : Reached (b.init txVa rxVa dataVa)
  | connect {b ip port devId polls ret b' ended sent rest} (h : Reached b)
      (hstep : b.connect ip port devId polls = .done (ret, b', ended) sent rest) : Reached b'
  | close {b polls b' sent rest} (h : Reached b) (hstep : b.close polls = .done b' sent rest) :
      Reached b'
  | recv {b : SessionBridge} {rxBuf len polls ret bytes b' rest} (h : Reached b)
      (hstep : b.recv rxBuf len polls = .returns ret bytes b' rest) :
      Reached { b with toHyperAmpBridge := b' }

/-! ### Where the wait ends -/

variable {b b' : SessionBridge} {polls rest : List Mem} {ret : Bool} {ended : Option (List UInt8)}
  {ip : Vector UInt8 4} {port devId : UInt16} {sent : List (List UInt8)}

/-- The members that a call leaves as they are. -/
structure SameQueues (b b' : SessionBridge) : Prop where
  initialized : b'.initialized = b.initialized
  rxQueue : b'.rxQueue = b.rxQueue

/-- What `connect` comes to after the command for `fe` is sent: an error of a queue, or a
session message for `fe` whose status, if there is one, decides. -/
inductive Answered (fe : UInt16) : Connected → Prop
  | failed {b : SessionBridge} (hactive : b.sessionActive = false) : Answered fe (false, b, none)
  | answered {b : SessionBridge} {block} (hreply : b.IsSessReply block) (hid : b.frontendSessId = fe)
      (hbackend : b.backendSessId = (HyperampMsgHeader.ofBytes block).backendSessId)
      (hactive : b.sessionActive = !decide (Refused block)) :
      Answered fe (!decide (Refused block), b, some block)

/-- **The wait** ends at an error or at the first block that is a session message for
the session. -/
lemma connectWait_spec (hinactive : b.sessionActive = false)
    (h : b.connectWait polls = .done (ret, b', ended) sent rest) :
    Answered b.frontendSessId (ret, b', ended) ∧ SameQueues b b' ∧ b'.spill = b.spill ∧
      rest <:+ polls := by
  induction polls with
  | nil => cases h
  | cons m polls ih =>
      rw [connectWait] at h
      have hskip : b.connectWait polls = .done (ret, b', ended) sent rest →
          Answered b.frontendSessId (ret, b', ended) ∧ SameQueues b b' ∧ b'.spill = b.spill ∧
            rest <:+ m :: polls := by
        intro h
        obtain ⟨hans, hsame, hspill, hrest⟩ := ih h
        exact ⟨hans, hsame, hspill, hrest.trans (List.suffix_cons _ _)⟩
      split at h
      · cases h
      · exact hskip h
      · cases h
        exact ⟨.failed hinactive, ⟨rfl, rfl⟩, rfl, List.suffix_cons _ _⟩
      · rename_i block _
        split_ifs at h with hreply hrefused
        · cases h
          have hans : Answered b.frontendSessId (!decide (Refused block), _, some block) :=
            .answered (b := { b with
              backendSessId := (HyperampMsgHeader.ofBytes block).backendSessId }) hreply rfl rfl
              (by simpa [hrefused] using hinactive)
          rw [decide_eq_true hrefused] at hans
          exact ⟨hans, ⟨rfl, rfl⟩, rfl, List.suffix_cons _ _⟩
        · cases h
          have hans : Answered b.frontendSessId (!decide (Refused block), _, some block) :=
            .answered (b := { b with
              backendSessId := (HyperampMsgHeader.ofBytes block).backendSessId
              sessionActive := true }) hreply rfl rfl (by simp [hrefused])
          rw [decide_eq_false hrefused] at hans
          exact ⟨hans, ⟨rfl, rfl⟩, rfl, List.suffix_cons _ _⟩
        · exact hskip h

lemma txEnqueue_rest {b : HyperAmpBridge} {msg : List UInt8}
    (h : b.txEnqueue msg polls = .done ret sent rest) : rest <:+ polls := by
  induction polls with
  | nil => cases h
  | cons m polls ih =>
      rw [HyperAmpBridge.txEnqueue] at h
      split at h
      · cases h
      · cases h
        exact List.suffix_cons _ _
      · exact (ih h).trans (List.suffix_cons _ _)
      · cases h
        exact List.suffix_cons _ _

lemma closeWait_rest {b : HyperAmpBridge} {attempts : ℕ}
    (h : b.closeWait attempts polls = .done () sent rest) : rest <:+ polls := by
  induction polls generalizing attempts with
  | nil =>
      cases attempts with
      | zero =>
          cases h
          exact List.suffix_refl _
      | succ attempts => cases h
  | cons m polls ih =>
      cases attempts with
      | zero =>
          cases h
          exact List.suffix_refl _
      | succ attempts =>
          rw [HyperAmpBridge.closeWait] at h
          split at h
          · cases h
          · exact (ih h).trans (List.suffix_cons _ _)
          · cases h
            exact List.suffix_cons _ _
          · split_ifs at h
            · cases h
              exact List.suffix_cons _ _
            · exact (ih h).trans (List.suffix_cons _ _)

/-- After `close` no session is active. -/
lemma close_spec (hinit : b.initialized = true) (h : b.close polls = .done b' sent rest) :
    b'.sessionActive = false ∧ b'.sessIdCounter = b.sessIdCounter ∧ SameQueues b b' ∧
      rest <:+ polls := by
  rw [close] at h
  split_ifs at h with hoff
  · cases h
    have hactive : b.sessionActive = false := by simpa [hinit] using hoff
    exact ⟨hactive, rfl, ⟨rfl, rfl⟩, List.suffix_refl _⟩
  · split at h
    · cases h
    · rename_i sent₁ polls₁ htx
      split at h
      · cases h
      · rename_i polls₂ hwait
        cases h
        exact ⟨rfl, rfl, ⟨rfl, rfl⟩, (closeWait_rest hwait).trans (txEnqueue_rest htx)⟩

/-- `create` numbers the session and waits for the answer to its number. -/
lemma create_spec (hinactive : b.sessionActive = false)
    (h : b.create ip port devId polls = .done (ret, b', ended) sent rest) :
    Answered b.sessIdCounter (ret, b', ended) ∧ SameQueues b b' ∧ b'.spill.unread = [] ∧
      rest <:+ polls := by
  rw [create] at h
  simp only [nextFrontendSessId] at h
  split at h
  · cases h
  · rename_i sent₁ polls₁ htx
    cases h
    exact ⟨.failed hinactive, ⟨rfl, rfl⟩, Spill.unread_reset _, txEnqueue_rest htx⟩
  · rename_i sent₁ polls₁ htx
    obtain ⟨later, h, -⟩ := Polled.after_eq_done h
    have hoff : ({ b with
        frontendSessId := b.sessIdCounter
        spill := b.spill.reset
        sessIdCounter := if b.sessIdCounter + 1 = handoverSentinel then 1
          else b.sessIdCounter + 1 } : SessionBridge).sessionActive = false := hinactive
    obtain ⟨hans, ⟨hinit, hrx⟩, hspill, hrest⟩ := connectWait_spec hoff h
    refine ⟨hans, ⟨hinit, hrx⟩, ?_, hrest.trans (txEnqueue_rest htx)⟩
    rw [hspill]
    exact Spill.unread_reset _

/-- `connect` on a bridge that is set up. -/
lemma connect_spec (hinit : b.initialized = true)
    (h : b.connect ip port devId polls = .done (ret, b', ended) sent rest) :
    Answered b.sessIdCounter (ret, b', ended) ∧ SameQueues b b' ∧ b'.spill.unread = [] ∧
      rest <:+ polls := by
  rw [connect, if_neg (by simp [hinit])] at h
  split_ifs at h with hactive
  · split at h
    · cases h
    · rename_i b₁ sent₁ polls₁ hclose
      obtain ⟨later, h, -⟩ := Polled.after_eq_done h
      obtain ⟨hoff, hcounter, ⟨hinit₁, hrx₁⟩, hrest₁⟩ := close_spec hinit hclose
      obtain ⟨hans, ⟨hinit₂, hrx₂⟩, hspill, hrest⟩ := create_spec hoff h
      rw [hcounter] at hans
      exact ⟨hans, ⟨hinit₂.trans hinit₁, hrx₂.trans hrx₁⟩, hspill, hrest.trans hrest₁⟩
  · exact create_spec (by simpa using hactive) h

/-! ### What is received -/

section Receiving

variable {b : HyperAmpBridge} {m : Mem} {rxBuf dst bytes block payload : List UInt8}
  {needed len : ℕ} {r : Int64} {b' : HyperAmpBridge} {polls rest : List Mem}

/-- The slots of the receive ring have the size that `init` has set. -/
def SlotSized (queue : ℕ) (m : Mem) : Prop := blockSize m queue = kHyperAmpBlockSize

/-- A block from slots of that size fills the buffer. -/
lemma length_of_rxPoll (hsize : SlotSized b.rxQueue m) (h : b.rxPoll m = some (.ok, block)) :
    block.length = kHyperAmpBlockSize := by
  by_cases hq : b.rxQueue = 0
  · simp [HyperAmpBridge.rxPoll, hyperampQueueDequeue, hq] at h
  · by_cases hlock : lockValue m (queueLock b.rxQueue) = 0
    · rcases HyperAmpBridge.rxPoll_cases hq ⟨hlock, hsize⟩ with hagain | ⟨block', hlen, hok⟩
      · rw [hagain] at h
        cases h
      · rw [hok] at h
        cases h
        exact hlen
    · simp [HyperAmpBridge.rxPoll, hyperampQueueDequeue, hq, hyperampSpinlockLock, hlock,
        queueLock_ne_zero, kHyperAmpBlockSize] at h

/-- What `recv` takes of a block that fills the buffer is a payload of the session. -/
lemma payload_of_block (hlen : block.length = kHyperAmpBlockSize)
    (hbuf : rxBuf.length = kHyperAmpBlockSize)
    (h : b.blockPayload (block ++ rxBuf.drop block.length) block.length = some payload) :
    payload = b.sessionPayload block ∧ payload.length ≤ kHyperAmpMaxPayload := by
  have hover : block ++ rxBuf.drop block.length = block := by
    rw [List.drop_of_length_le (by omega), List.append_nil]
  have hlong : ¬ block.length < hyperampMsgHdrSize := by
    rw [hlen]
    decide
  rw [hover, HyperAmpBridge.blockPayload, if_neg hlong] at h
  rw [HyperAmpBridge.sessionPayload]
  by_cases hdata : b.IsSessionData block
  · rw [if_neg (not_not.mpr hdata)] at h
    split_ifs at h with hfits
    cases h
    rw [if_pos hdata]
    refine ⟨rfl, ?_⟩
    rw [List.length_take, List.length_drop, hlen]
    exact Nat.min_le_right _ _
  · rw [if_pos hdata] at h
    cases h
    rw [if_neg hdata]
    exact ⟨rfl, Nat.zero_le _⟩

/-- The loop of `recv` passes on what is unread and the payloads of the session, in their
order; what it does not return is in the spill buffer or still to come. -/
lemma recvLoop_conserve (hsize : ∀ m ∈ polls, SlotSized b.rxQueue m)
    (hbuf : rxBuf.length = kHyperAmpBlockSize) (hspill : needed ≠ 0 → b.spill.unread = [])
    (h : HyperAmpBridge.recvLoop b rxBuf dst needed polls = .returns r bytes b' rest) :
    ∃ spill, b' = { b with spill } ∧ rest <:+ polls ∧
      bytes ++ spill.unread ++ b.stream rest = dst ++ b.spill.unread ++ b.stream polls := by
  -- on the polls that are left; nothing is assumed of the blocks but their size
  induction polls generalizing rxBuf dst needed with
  | nil =>
      cases needed with
      | zero =>
          cases h
          exact ⟨b.spill, rfl, List.suffix_refl _, rfl⟩
      | succ needed => cases h
  | cons m polls ih =>
      rw [List.forall_mem_cons] at hsize
      cases needed with
      | zero =>
          cases h
          exact ⟨b.spill, rfl, List.suffix_refl _, rfl⟩
      | succ needed =>
          have hnil := hspill (Nat.succ_ne_zero _)
          have hstream : b.stream (m :: polls) = b.arrived m ++ b.stream polls :=
            List.flatMap_cons ..
          rw [HyperAmpBridge.recvLoop] at h
          split at h
          · cases h
          · rename_i hpoll
            obtain ⟨spill, hb', hrest, heq⟩ := ih hsize.2 hbuf hspill h
            refine ⟨spill, hb', hrest.trans (List.suffix_cons _ _), ?_⟩
            rw [heq, hstream, HyperAmpBridge.arrived, hpoll, List.nil_append]
          · rename_i hpoll
            cases h
            refine ⟨b.spill, rfl, List.suffix_cons _ _, ?_⟩
            rw [hstream, HyperAmpBridge.arrived, hpoll, List.nil_append]
          · rename_i block hpoll
            have hlen := length_of_rxPoll hsize.1 hpoll
            have harrived : b.arrived m = b.sessionPayload block := by
              rw [HyperAmpBridge.arrived, hpoll]
            have hbuf' : (block ++ rxBuf.drop block.length).length = kHyperAmpBlockSize := by
              rw [List.length_append, List.length_drop]
              omega
            simp only at h
            split at h
            · cases h
            · -- a block without payload is passed over
              rename_i hpay
              obtain ⟨hnone, -⟩ := payload_of_block hlen hbuf hpay
              obtain ⟨spill, hb', hrest, heq⟩ := ih hsize.2 hbuf' hspill h
              refine ⟨spill, hb', hrest.trans (List.suffix_cons _ _), ?_⟩
              rw [heq, hstream, harrived, ← hnone, List.nil_append]
            · rename_i payload _ hpay
              obtain ⟨hall, hsmall⟩ := payload_of_block hlen hbuf hpay
              rw [hstream, harrived, ← hall, hnil]
              split_ifs at h with hle hlt hlt
              · exact absurd hlt (lt_irrefl _)
              · -- it is taken as a whole
                obtain ⟨spill, hb', hrest, heq⟩ := ih hsize.2 hbuf' (fun _ => hnil) h
                refine ⟨spill, hb', hrest.trans (List.suffix_cons _ _), ?_⟩
                rw [heq, hnil, List.take_length]
                simp only [List.append_nil, List.append_assoc]
              · -- its surplus goes to the spill buffer, and the call returns
                split at h
                · cases h
                · rename_i spill hstash
                  have hfits : (payload.drop (needed + 1)).length ≤ kHyperAmpMaxPayload := by
                    rw [List.length_drop]
                    omega
                  obtain ⟨spill', hstash', hunread⟩ := b.spill.stash_spec hfits
                  rw [hstash] at hstash'
                  cases hstash'
                  rw [Nat.sub_self, HyperAmpBridge.recvLoop] at h
                  cases h
                  refine ⟨spill, rfl, List.suffix_cons _ _, ?_⟩
                  show dst ++ payload.take (needed + 1) ++ spill.unread ++ b.stream rest = _
                  rw [hunread, List.append_nil, List.append_assoc dst, List.take_append_drop,
                    List.append_assoc]
              · omega

/-- A call of `recv` does the same, also without an active session. -/
lemma recv_conserve (hsize : ∀ m ∈ polls, SlotSized b.rxQueue m)
    (hbuf : rxBuf.length = kHyperAmpBlockSize)
    (h : b.recv rxBuf len polls = .returns r bytes b' rest) :
    ∃ spill, b' = { b with spill } ∧ rest <:+ polls ∧
      bytes ++ spill.unread ++ b.stream rest = b.spill.unread ++ b.stream polls := by
  rw [HyperAmpBridge.recv] at h
  split_ifs at h with hoff
  · cases h
    exact ⟨b.spill, rfl, List.suffix_refl _, rfl⟩
  · obtain ⟨hout, hunread⟩ := b.spill.drain_spec len
    have hnil : len - (b.spill.drain len).1.length ≠ 0 → (b.spill.drain len).2.unread = [] := by
      intro hne
      rw [hout, List.length_take] at hne
      rw [hunread, List.drop_eq_nil_iff]
      omega
    obtain ⟨spill, hb', hrest, heq⟩ := recvLoop_conserve
      (b := { b with spill := (b.spill.drain len).2 }) hsize hbuf hnil h
    refine ⟨spill, hb', hrest, ?_⟩
    have hsplit : (b.spill.drain len).1 ++ (b.spill.drain len).2.unread = b.spill.unread := by
      rw [hout, hunread, List.take_append_drop]
    rw [← hsplit]
    exact heq

/-- Sequences of calls: the results are a front of what was unread and what comes. -/
lemma recvs_conserve (hsize : ∀ m ∈ polls, SlotSized b.rxQueue m)
    (calls : List HyperAmpBridge.RecvCall) :
    ((b.recvs polls calls).1.map Prod.snd).flatten <+: b.spill.unread ++ b.stream polls := by
  induction calls generalizing b polls with
  | nil => exact List.nil_prefix
  | cons call calls ih =>
      rw [HyperAmpBridge.recvs]
      split
      · rename_i r bytes b' rest h
        obtain ⟨spill, rfl, hrest, heq⟩ := recv_conserve hsize call.rxBuf_length h
        have hlater := ih (b := { b with spill }) fun m hm => hsize m (hrest.subset hm)
        rw [List.map_cons, List.flatten_cons, ← heq, List.append_assoc]
        exact (List.prefix_append_right_inj _).mpr hlater
      · exact List.nil_prefix
      · exact List.nil_prefix

/-- Only the spill buffer is written by `recv`. -/
lemma recvLoop_bridge
    (h : HyperAmpBridge.recvLoop b rxBuf dst needed polls = .returns r bytes b' rest) :
    ∃ spill, b' = { b with spill } := by
  induction polls generalizing b rxBuf dst needed with
  | nil =>
      cases needed with
      | zero =>
          cases h
          exact ⟨_, rfl⟩
      | succ needed => cases h
  | cons m polls ih =>
      cases needed with
      | zero =>
          cases h
          exact ⟨_, rfl⟩
      | succ needed =>
          rw [HyperAmpBridge.recvLoop] at h
          split at h
          · cases h
          · exact ih h
          · cases h
            exact ⟨_, rfl⟩
          · simp only at h
            split at h
            · cases h
            · exact ih h
            · split_ifs at h
              · split at h
                · cases h
                · obtain ⟨spill, rfl⟩ := ih h
                  exact ⟨spill, rfl⟩
              · exact ih h
              · split at h
                · cases h
                · obtain ⟨spill, rfl⟩ := ih h
                  exact ⟨spill, rfl⟩
              · exact ih h

end Receiving

/-! ### Soundness -/

/-- A session is only active on a bridge that is set up. -/
lemma Reached.initialized (h : Reached b) (hactive : b.sessionActive = true) :
    b.initialized = true := by
  induction h with
  | new => exact hactive
  | @init b txVa rxVa dataVa _ ih =>
      rw [SessionBridge.init] at hactive ⊢
      split_ifs at hactive ⊢ with hinit hnull
      · exact hinit
      · exact ih hactive
      · rfl
  | @connect b _ _ _ _ _ _ _ _ _ _ hstep ih =>
      cases hinit : b.initialized with
      | true => exact ((connect_spec hinit hstep).2.1.initialized).trans hinit
      | false =>
          rw [SessionBridge.connect, if_pos hinit] at hstep
          cases hstep
          exact ih hactive
  | @close b _ _ _ _ _ hstep ih =>
      cases hinit : b.initialized with
      | true => exact ((close_spec hinit hstep).2.2.1.initialized).trans hinit
      | false =>
          rw [SessionBridge.close, if_pos (.inl hinit)] at hstep
          cases hstep
          exact ih hactive
  | @recv b _ _ _ _ _ _ _ _ hstep ih =>
      rw [HyperAmpBridge.recv] at hstep
      split_ifs at hstep
      · cases hstep
        exact ih hactive
      · obtain ⟨spill, rfl⟩ := recvLoop_bridge hstep
        exact ih hactive

/-- The session message in a block is a response to a CREATE command. -/
def IsCreateResponse (block : List UInt8) : Prop :=
  let hdr := SessMsgHeader.ofBytes (block.drop hyperampMsgHdrSize)
  hdr.msgType = sessMsgCreate ∧ hdr.actionType = actionTypeResponse

instance (block : List UInt8) : Decidable (IsCreateResponse block) :=
  inferInstanceAs (Decidable (_ ∧ _))

/-- **Soundness of `connect`.** Whatever arrives: when `connect` has succeeded, the block
that ended its wait is a session message for the id of the command; a CREATE response
that ends the wait makes it succeed if and only if its status, if it has one, is
success; when it has failed no session is active; and when it has succeeded, calls of
`recv` deliver a front of the payloads of the data messages that come after it with the
frontend or the backend id of the session. -/
theorem connect_sound (b : SessionBridge) (hb : Reached b) (ip : Vector UInt8 4)
    (port devId : UInt16) (polls : List Mem) (ret : Bool) (b' : SessionBridge)
    (ended : Option (List UInt8)) (sent : List (List UInt8)) (rest : List Mem)
    (h : b.connect ip port devId polls = .done (ret, b', ended) sent rest) :
    (ret = true → ∃ block, ended = some block) ∧
      (∀ block, ended = some block →
        b'.IsSessReply block ∧ b'.frontendSessId = b.sessIdCounter ∧
          b'.backendSessId = (HyperampMsgHeader.ofBytes block).backendSessId ∧
          (IsCreateResponse block → (ret = true ↔ ¬ Refused block))) ∧
      b'.sessionActive = ret ∧
      (ret = true → (∀ m ∈ rest, SlotSized b'.rxQueue m) →
        ∀ calls, ((b'.recvs rest calls).1.map Prod.snd).flatten <+: b'.stream rest) := by
  cases hinit : b.initialized with
  | false =>
      rw [connect, if_pos hinit] at h
      cases h
      have hoff : b.sessionActive = false := by
        by_contra hactive
        rw [hb.initialized (by simpa using hactive)] at hinit
        cases hinit
      exact ⟨by simp, by simp, hoff, by simp⟩
  | true =>
      obtain ⟨hans, -, hspill, -⟩ := connect_spec hinit h
      have hrecv : (∀ m ∈ rest, SlotSized b'.rxQueue m) →
          ∀ calls, ((b'.recvs rest calls).1.map Prod.snd).flatten <+: b'.stream rest := by
        intro hsize calls
        have := recvs_conserve hsize calls
        rwa [hspill, List.nil_append] at this
      cases hans with
      | failed hactive => exact ⟨by simp, by simp, hactive, fun _ => hrecv⟩
      | @answered _ block hreply hid hbackend hactive =>
          refine ⟨fun _ => ⟨block, rfl⟩, ?_, hactive, fun _ => hrecv⟩
          rintro _ ⟨⟩
          exact ⟨hreply, hid, hbackend, fun _ => by simp⟩

/-- A bridge that is set up. -/
def freshBridge : SessionBridge := new.init 0x10000 0x18000 0x20000

/-- Rings of four empty slots for both directions. -/
def emptyRings : Mem :=
  store (store (fun _ => 0) 0x10002 [0, 0, 0, 0, 4, 0, 0, 16]) 0x18002 [0, 0, 0, 0, 4, 0, 0, 16]

/-- The same with one message in the receive ring. -/
def withMessage (msg : List UInt8) : Mem :=
  store (store emptyRings 0x18002 [1, 0]) 0x21000 msg

/-- A session message for session 1 of the backend's session 9, with status success. -/
def sessReply (msgType : UInt8) : List UInt8 :=
  [1, 2, 1, 0, 9, 0, 12, 0] ++ [1, 0, msgType, 0, 1, 0, 4, 0, 2, 0] ++ [0, 0]

/-- The result of a connect whose command is sent at once and whose answer is there at the
second poll. -/
def connected (msgType : UInt8) : Polled Connected :=
  freshBridge.connect (Vector.replicate 4 10) 80 0xFF
    [emptyRings, emptyRings, withMessage (sessReply msgType)]

/-- The block of a connect that has succeeded. -/
def blockOf : Polled Connected → Option (List UInt8)
  | .done (true, _, ended) _ _ => ended
  | _ => none

lemma eq_done_of_blockOf (p : Polled Connected) (good : List UInt8 → Bool)
    (h : (blockOf p).any good = true) :
    ∃ b block sent rest, p = .done (true, b, some block) sent rest ∧ good block = true := by
  match p, h with
  | .done (true, b, some block) sent rest, h => exact ⟨b, block, sent, rest, rfl, h⟩

/-- A CREATE response with status success. -/
theorem connect_sound_create :
    ∃ b' block sent rest, connected 1 = .done (true, b', some block) sent rest ∧
      IsCreateResponse block ∧ b'.IsSessReply block ∧ b'.sessionActive = true := by
  obtain ⟨b', block, sent, rest, hdone, hcreate⟩ := eq_done_of_blockOf
    (connected 1) (fun block => decide (IsCreateResponse block)) (by decide +kernel)
  have hsound := connect_sound freshBridge (.init _ _ _ .new) _ _ _ _ _ _ _ _ _ hdone
  exact ⟨b', block, sent, rest, hdone, of_decide_eq_true hcreate, (hsound.2.1 block rfl).1,
    hsound.2.2.1⟩

/-- The answer to an earlier CLOSE for the same id establishes a session as well, and a
data message for another frontend id is delivered when it has the backend id. -/
theorem connect_takes_close :
    (∃ b' block sent rest, Reached freshBridge ∧
        connected 0 = .done (true, b', some block) sent rest ∧
        ¬ IsCreateResponse block) ∧
      ∃ m, ¬ (HyperampMsgHeader.ofBytes ((HyperAmpBridge.someBridge.rxPoll m).elim [] Prod.snd)
          ).frontendSessId = HyperAmpBridge.someBridge.frontendSessId ∧
        HyperAmpBridge.someBridge.arrived m = [10, 11, 12] := by
  constructor
  · obtain ⟨b', block, sent, rest, hdone, hother⟩ := eq_done_of_blockOf
      (connected 0) (fun block => !decide (IsCreateResponse block)) (by decide +kernel)
    exact ⟨b', block, sent, rest, .init _ _ _ .new, hdone, by simpa using hother⟩
  · refine ⟨store (store (fun _ => 0) 0x10002 [1, 0, 0, 0, 4, 0, 0, 16]) 0x21000
      [1, 3, 5, 0, 9, 0, 3, 0, 10, 11, 12], ?_, ?_⟩
    · decide +kernel
    · decide +kernel

end SessionBridge

end Monkey
