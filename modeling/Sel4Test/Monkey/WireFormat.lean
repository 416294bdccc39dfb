import Sel4Test.Frontend.Creation
import Sel4Test.Frontend.Effect
import Sel4Test.Frontend.RoundTrip
import Sel4Test.Monkey.BridgeConnect

/-!
The wire format of the two frontends.

`HyperAmpBridge` of monkey-mnemosyne and the front library have an encoder each:
`connect` and `send` fill a buffer through pointers to packed headers,
`build_proxy_general_message` goes through a general header, a builder for each message
type and the shared buffer. One backend decodes both.

* `load_outer`: the outer header in the buffer of the front library, as bytes.
* `fillMessage_create`, `fillMessage_data`: the messages of the front library are those of
  the bridge.
* `createSessTx_sends`, `dataProcessF2bLoop_sends`: what the front library enqueues for a
  creation and for a buffer.
* `connect_sends`, `connect_answered`: what the bridge enqueues.
* `wire_formats_agree`: these are the same messages.
-/

namespace Monkey

open ByteMem Hyperamp Frontend
open HyperAmpBridge (RingReady RingFull pieces)

/-! ### Blocks of a buffer -/

section Buffer

variable {m : Mem} {a b n k : ℕ}

lemma load_writeU16 (m : Mem) (a : ℕ) (v : UInt16) :
    load (writeU16 m a v) a 2 = toLE 2 v.toNat := by
  have h := load_store_same m a (toLE 2 v.toNat)
  rwa [length_toLE] at h

/-- The outer header, from any buffer that starts as `outerBuf` does. -/
lemma load_outer {outer : ProxyMsgHeader} {buf : Mem} {len : UInt16}
    (h : load buf 0 6 = load (outerBuf outer) 0 6) :
    load (writeU16 buf 6 len) 0 8 = HyperampMsgHeader.toBytes
      ⟨outer.version, outer.proxyMsgType, outer.frontendSessId, outer.backendSessId, len⟩ := by
  have hfront : load (writeU16 buf 6 len) 0 6 = load (outerBuf outer) 0 6 := by
    rw [load_writeU16_disjoint (by omega), h]
  have htypes : load (store (fun _ => 0) 0 [outer.version, outer.proxyMsgType]) 0 2 =
      [outer.version, outer.proxyMsgType] := load_store_same _ _ _
  rw [show (8 : ℕ) = 6 + 2 from rfl, load_add, hfront, Nat.zero_add, load_writeU16,
    show (6 : ℕ) = 2 + 2 + 2 from rfl, load_add, load_add, outerBuf, HyperampMsgHeader.toBytes,
    Nat.zero_add]
  rw [load_writeU16, load_writeU16_disjoint (by omega), load_writeU16_disjoint (by omega),
    load_writeU16_disjoint (by omega), load_writeU16, htypes]

/-- A session header, as bytes. -/
lemma load_sessHdr (h : Frontend.SessMsgHeader) (m : Mem) (a : ℕ) :
    load (h.write m a) a 10 = SessMsgHeader.toBytes
      ⟨h.version, h.msgType, h.actionType, h.ipVersion, h.payloadLen⟩ := by
  rw [show (10 : ℕ) = 2 + 2 + 2 + 2 + 2 from rfl, load_add, load_add, load_add, load_add,
    Frontend.SessMsgHeader.write, SessMsgHeader.toBytes]
  simp (disch := omega) only [load_writeU16, load_writeU16_disjoint, Nat.reduceAdd]

end Buffer

/-! ### The two messages -/

/-- The parameters of a TCP session, for the bridge's endpoint. -/
def tcpPara (ip : Vector UInt8 4) (port devId : UInt16) : SessMsgPara where
  backendSessId := handoverSentinel
  devId := devId
  ipVersion := Frontend.sessIpv4Proto
  transProto := sessTcpProto
  endpoint := ip ++ (⟨(toLE 2 port.toNat).toArray, by simp⟩ : Vector UInt8 2)

lemma toList_endpoint (ip : Vector UInt8 4) (port devId : UInt16) :
    (tcpPara ip port devId).endpoint.toList = ip.toList ++ toLE 2 port.toNat :=
  Vector.toList_append ..

/-- What the builder of the message type has written is enqueued, after the length is
filled in. -/
lemma fillMessage_of_build {header : GeneralProxyMsgHeader} {payload : List UInt8} {buf : Mem}
    (inner : ℕ) (hsize : innerSize header = some inner)
    (hbuild : buildInner header (some payload) (outerBuf header.outerHeader) proxyMsgHdrSize =
      some (.ok, buf)) :
    fillMessage header (some payload) =
      some (.ok, load (writeU16 buf 6 (UInt16.ofNat (payload.length + inner))) 0
        (payload.length + inner + 8)) := by
  rw [proxyMsgHdrSize] at hbuild
  rw [fillMessage, hsize]
  simp only [proxyMsgHdrSize, hbuild, payloadBytes, Option.getD_some]
  rfl

/-- The CREATE command of the front library is that of the bridge. -/
lemma fillMessage_create (id : UInt16) (ip : Vector UInt8 4) (port devId : UInt16) :
    fillMessage (createHeader id (tcpPara ip port devId))
        (some (createPayload (tcpPara ip port devId))) =
      some (.ok, createMsg id ip port devId) := by
  set header := createHeader id (tcpPara ip port devId) with hheader
  have hpayload : createPayload (tcpPara ip port devId) =
      SessIPv4Params.toBytes ⟨devId, sessTcpProto, ip, port⟩ := by
    rw [createPayload, toList_endpoint, SessIPv4Params.toBytes, ← List.append_assoc]
    rfl
  have hlen : (SessIPv4Params.toBytes ⟨devId, sessTcpProto, ip, port⟩).length = 10 := by
    simp [SessIPv4Params.toBytes]
  rw [hpayload]
  set payload := SessIPv4Params.toBytes ⟨devId, sessTcpProto, ip, port⟩ with hpar
  have hbuild : buildInner header (some payload) (outerBuf header.outerHeader) proxyMsgHdrSize =
      some (.ok, store (header.innerHeader.sessHdr.write (outerBuf header.outerHeader) 8) 18
        payload) := by
    have htype : ProxyMsgType.ofCode? header.outerHeader.proxyMsgType = some .sess := rfl
    have hwant : toSizeT (sessMsgPayloadLen header.innerHeader.sessHdr.msgType
        header.innerHeader.sessHdr.actionType header.innerHeader.sessHdr.ipVersion) = 10 := rfl
    have hfield : header.innerHeader.sessHdr.payloadLen.toNat = 10 := rfl
    simp only [buildInner, htype, buildProxySessMessage, payloadBytes, Option.getD_some, hlen,
      hwant, hfield]
    rfl
  have hfront : load (store (header.innerHeader.sessHdr.write (outerBuf header.outerHeader) 8) 18
      payload) 0 6 = load (outerBuf header.outerHeader) 0 6 := by
    rw [load_store_disjoint (by omega)]
    refine load_congr fun i hi => ?_
    exact Frontend.SessMsgHeader.write_of_outside (by omega)
  have hbody : load (store (header.innerHeader.sessHdr.write (outerBuf header.outerHeader) 8) 18
      payload) 18 10 = payload := by
    have := load_store_same (header.innerHeader.sessHdr.write (outerBuf header.outerHeader) 8) 18
      payload
    rwa [hlen] at this
  rw [fillMessage_of_build innerHdrSize rfl hbuild, hlen]
  rw [show (10 + innerHdrSize + 8 : ℕ) = 8 + 10 + 10 from rfl, load_add, load_add,
    load_outer hfront, Nat.zero_add, load_writeU16_disjoint (by omega),
    load_writeU16_disjoint (by omega), load_store_disjoint (by omega), load_sessHdr, hbody]
  rfl

/-- So are the DATA messages, for chunks that fit a block. -/
lemma fillMessage_data (b : HyperAmpBridge) (sess : FrontendSession)
    (hfe : sess.frontendSessId = b.frontendSessId) (hbe : sess.backendSessId = b.backendSessId)
    {chunk : List UInt8} (hlen : chunk.length ≤ kHyperAmpMaxPayload) :
    fillMessage (dataMsgHeader sess chunk.length) (some chunk) = some (.ok, b.dataMsg chunk) := by
  rw [kHyperAmpMaxPayload] at hlen
  set outer := (dataMsgHeader sess chunk.length).outerHeader with houter
  have hcopy : copyToBuf (outerBuf outer) 8 chunk = some (store (outerBuf outer) 8 chunk) := by
    rw [copyToBuf, if_pos (by rw [msgBufSize]; omega)]
  have hbuild : buildInner (dataMsgHeader sess chunk.length) (some chunk) (outerBuf outer)
      proxyMsgHdrSize = some (.ok, store (outerBuf outer) 8 chunk) := by
    have htype : ProxyMsgType.ofCode? (dataMsgHeader sess chunk.length).outerHeader.proxyMsgType =
        some .data := rfl
    simp only [buildInner, htype, buildProxyDataMessage, payloadBytes, Option.getD_some]
    rw [proxyMsgHdrSize, hcopy]
    rfl
  have hfront : load (store (outerBuf outer) 8 chunk) 0 6 = load (outerBuf outer) 0 6 :=
    load_store_disjoint (by omega)
  rw [fillMessage_of_build 0 rfl hbuild, Nat.add_zero, Nat.add_comm, load_add,
    load_outer hfront, Nat.zero_add, load_writeU16_disjoint (by omega), load_store_same,
    HyperAmpBridge.dataMsg, ← hfe, ← hbe]
  rfl

/-- A buffer that is filled is enqueued as it is. -/
lemma buildProxyGeneralMessage_of_fill {header : GeneralProxyMsgHeader} {payload bytes : List UInt8}
    (h : fillMessage header (some payload) = some (.ok, bytes)) :
    buildProxyGeneralMessage (fun _ => .ok) header (some payload) = some (.ok, some bytes) := by
  rw [buildProxyGeneralMessage, h]

/-! ### What the front library enqueues -/

section Front

variable {c : Core} {p : SessPtr} {sess : FrontendSession} {id : UInt16} {rest : List UInt16}
  {ring : TxRing}

/-- The creation of a session puts the CREATE command in the ring. -/
lemma createSessTx_sends (ip : Vector UInt8 4) (port devId : UInt16)
    (hsess : c.heap p = some sess) (hout : ¬ c.InTable p) (hids : c.pool.idQueue = id :: rest)
    (hid : id ≠ 0) (hring : ring.Accepts createSize) :
    ∃ ret c', createSessTx (tcpPara ip port devId) p (some ring) c =
      some (ret, some (ring.push (createMsg id ip port devId)), c') := by
  have hout' : ¬ (c.setIds rest).InTable p := hout
  have henq : ring.enqueue (createMsg id ip port devId) =
      (.ok, ring.push (createMsg id ip port devId)) := by
    have hlen : (createMsg id ip port devId).length = createSize := by
      simp [createMsg, HyperampMsgHeader.toBytes, SessMsgHeader.toBytes, SessIPv4Params.toBytes,
        createSize]
    exact TxRing.enqueue_ok (by rw [hlen, createSize]; omega) (hlen ▸ hring)
  have hsend : sendMessage (some ring) (createHeader id (tcpPara ip port devId))
      (some (createPayload (tcpPara ip port devId))) =
        some (.ok, some (ring.push (createMsg id ip port devId))) := by
    simp [sendMessage, buildProxyGeneralMessage, fillMessage_create, henq]
  simp only [createSessTx, hsess, hids, allocateId]
  simp only [Option.bind_eq_bind, Option.bind_some, if_neg hid, if_neg hout', hsend, if_true]
  split
  · exact ⟨_, _, rfl⟩
  · exact ⟨_, _, rfl⟩

/-- `frontend_sess_send` cuts a buffer into the pieces of `send`. -/
lemma fragment_eq_pieces (i rounds : ℕ) (buf : List UInt8) (hrounds : buf.length ≤ rounds) :
    fragment (fun _ => true) i rounds buf =
      (pieces buf).map fun piece => ⟨piece, 0⟩ := by
  induction rounds generalizing i buf with
  | zero =>
      obtain rfl := List.length_eq_zero_iff.mp (Nat.le_zero.mp hrounds)
      rfl
  | succ rounds ih =>
      cases buf with
      | nil => rfl
      | cons byte bytes =>
          have hshort : ((byte :: bytes).drop kHyperAmpMaxPayload).length ≤ rounds := by
            rw [List.length_drop, kHyperAmpMaxPayload]
            simp only [List.length_cons] at hrounds ⊢
            omega
          rw [fragment, if_pos rfl, HyperAmpBridge.pieces_of_ne_nil (List.cons_ne_nil _ _),
            List.map_cons, ← ih (i + 1) _ hshort]
          rfl

/-- The sending loop puts the messages of the bridge in the ring, one for each piece. -/
lemma dataProcessF2bLoop_sends (b : HyperAmpBridge)
    (hfe : sess.frontendSessId = b.frontendSessId) (hbe : sess.backendSessId = b.backendSessId)
    (i : ℕ) {chunks : List (List UInt8)}
    (hlen : ∀ chunk ∈ chunks, chunk.length ≤ kHyperAmpMaxPayload) :
    dataProcessF2bLoop (dataMsgHeader sess) (fun _ => .ok) i (chunks.map fun piece => ⟨piece, 0⟩) =
      some (.ok, [], chunks.map b.dataMsg) := by
  induction chunks generalizing i with
  | nil => rfl
  | cons chunk chunks ih =>
      rw [List.forall_mem_cons] at hlen
      have hbuild := buildProxyGeneralMessage_of_fill (fillMessage_data b sess hfe hbe hlen.1)
      simp only [List.map_cons, dataProcessF2bLoop, hbuild, Option.bind_eq_bind, Option.bind_some,
        ih (i + 1) hlen.2]
      rfl

end Front

/-! ### What the bridge enqueues -/

section Bridge

variable {b b' : SessionBridge} {ip : Vector UInt8 4} {port devId : UInt16} {polls rest : List Mem}
  {sent : List (List UInt8)} {ret : Bool} {ended : Option (List UInt8)}

/-- A command is enqueued by the first poll that finds a free slot. -/
lemma txEnqueue_room {b : HyperAmpBridge} {msg : List UInt8} (hq : b.txQueue ≠ 0)
    (hpolls : ∀ m ∈ polls, RingReady b.txQueue m) (hmsg : msg ≠ [])
    (hlen : msg.length ≤ kHyperAmpBlockSize) (hroom : 0 < b.room polls) :
    ∃ rest, b.txEnqueue msg polls = .done true [msg] rest := by
  induction polls with
  | nil => simp [HyperAmpBridge.room] at hroom
  | cons m polls ih =>
      rw [List.forall_mem_cons] at hpolls
      have hpoll := HyperAmpBridge.txPoll_eq hq hpolls.1 hmsg hlen
      rw [HyperAmpBridge.txEnqueue, hpoll]
      by_cases hfull : RingFull b.txQueue m
      · have hskip : b.room (m :: polls) = b.room polls := by
          simp [HyperAmpBridge.room, hfull]
        simp only [if_pos hfull]
        exact ih hpolls.2 (hskip ▸ hroom)
      · simp only [if_neg hfull]
        exact ⟨polls, rfl⟩

/-- A command that was enqueued is in the ring. -/
lemma txEnqueue_sent {b : HyperAmpBridge} {msg : List UInt8}
    (h : b.txEnqueue msg polls = .done true sent rest) : sent = [msg] := by
  induction polls with
  | nil => cases h
  | cons m polls ih =>
      rw [HyperAmpBridge.txEnqueue] at h
      split at h
      · cases h
      · cases h
        rfl
      · exact ih h
      · cases h

/-- The wait for the answer enqueues nothing. -/
lemma sent_connectWait (b : SessionBridge) (polls : List Mem) :
    (b.connectWait polls).sent = [] := by
  induction polls with
  | nil => rfl
  | cons m polls ih =>
      rw [SessionBridge.connectWait]
      split
      · rfl
      · exact ih
      · rfl
      · split_ifs
        · rfl
        · rfl
        · exact ih

lemma createMsg_ne_nil (id : UInt16) (ip : Vector UInt8 4) (port devId : UInt16) :
    createMsg id ip port devId ≠ [] := by
  simp [createMsg, HyperampMsgHeader.toBytes]

lemma length_createMsg_le (id : UInt16) (ip : Vector UInt8 4) (port devId : UInt16) :
    (createMsg id ip port devId).length ≤ kHyperAmpBlockSize := by
  simp [createMsg, HyperampMsgHeader.toBytes, SessMsgHeader.toBytes, SessIPv4Params.toBytes,
    kHyperAmpBlockSize]

/-- Without an active session `connect` enqueues the CREATE command and nothing else, as soon
as a poll finds a free slot. -/
lemma connect_sends (hinit : b.initialized = true) (hactive : b.sessionActive = false)
    (hq : b.txQueue ≠ 0) (hpolls : ∀ m ∈ polls, RingReady b.txQueue m) (hroom : 0 < b.room polls) :
    (b.connect ip port devId polls).sent = [createMsg b.sessIdCounter ip port devId] := by
  have hsend : ∃ rest, ({ b with
      spill := b.spill.reset
      frontendSessId := b.sessIdCounter } : SessionBridge).txEnqueue
        (createMsg b.sessIdCounter ip port devId) polls =
          .done true [createMsg b.sessIdCounter ip port devId] rest :=
    txEnqueue_room hq hpolls (createMsg_ne_nil _ _ _ _) (length_createMsg_le _ _ _ _) hroom
  obtain ⟨rest, hsend⟩ := hsend
  rw [SessionBridge.connect, if_neg (by simp [hinit]), if_neg (by simp [hactive]),
    SessionBridge.create]
  simp only [SessionBridge.nextFrontendSessId] at hsend ⊢
  rw [hsend]
  simp only [Polled.sent_after, sent_connectWait, List.append_nil]

/-- A `connect` that has got its answer has enqueued the CREATE command last. -/
lemma create_answered {block : List UInt8}
    (h : b.create ip port devId polls = .done (ret, b', some block) sent rest) :
    sent = [createMsg b.sessIdCounter ip port devId] := by
  rw [SessionBridge.create] at h
  simp only [SessionBridge.nextFrontendSessId] at h
  split at h
  · cases h
  · cases h
  · rename_i sent₁ polls₁ htx
    obtain ⟨later, hwait, rfl⟩ := Polled.after_eq_done h
    have hnone := congrArg Polled.sent hwait
    rw [sent_connectWait] at hnone
    obtain rfl : [] = later := hnone
    rw [txEnqueue_sent htx, List.append_nil]

lemma connect_answered {block : List UInt8}
    (h : b.connect ip port devId polls = .done (ret, b', some block) sent rest) :
    sent.getLast? = some (createMsg b.sessIdCounter ip port devId) := by
  rw [SessionBridge.connect] at h
  split_ifs at h with hinit hactive
  · cases h
  · split at h
    · cases h
    · -- an old session is closed first, which leaves the counter as it is
      rename_i b₁ sent₁ polls₁ hclose
      obtain ⟨later, hcreate, rfl⟩ := Polled.after_eq_done h
      have hcounter := (SessionBridge.close_spec (by simpa using hinit) hclose).2.1
      rw [create_answered hcreate, hcounter, List.getLast?_append]
      rfl
  · rw [create_answered h]
    rfl

end Bridge

/-- The messages that a call of `send` has enqueued. -/
def HyperAmpBridge.SendOutcome.blocks : HyperAmpBridge.SendOutcome → List (List UInt8)
  | .returns _ blocks _ => blocks
  | .waiting blocks => blocks

/-- `send` enqueues the messages of as many pieces as there are polls with a free slot. -/
lemma send_blocks {b : HyperAmpBridge} (hconn : b.Connected) {polls : List Mem}
    (hpolls : ∀ m ∈ polls, RingReady b.txQueue m) (buf : List UInt8) :
    (b.send buf polls).blocks =
      ((pieces buf).take (b.room polls)).map b.dataMsg := by
  have hactive : ¬ (b.initialized = false ∨ b.sessionActive = false) := by
    simp [hconn.initialized, hconn.sessionActive]
  rw [HyperAmpBridge.send, if_neg hactive]
  obtain ⟨hshort, hlong⟩ := HyperAmpBridge.sendLoop_spec hconn hpolls buf 0
  rcases Nat.lt_or_ge (b.room polls) (pieces buf).length with hlt | hle
  · rw [hshort hlt]
    rfl
  · obtain ⟨used, rest, -, -, heq⟩ := hlong hle
    rw [heq, List.take_of_length_le hle]
    rfl

/-! ### One wire format -/

/-- A `connect` of the bridge and a creation by the front library put the same message in
their rings: both for the same id, endpoint and device, wherever the two get as far as
enqueueing one. -/
structure CreatesAgree (id : UInt16) (ip : Vector UInt8 4) (port devId : UInt16) : Prop where
  /-- `connect` enqueues the message as soon as a poll finds a free slot. -/
  bridge : ∀ (b : SessionBridge) (polls : List Mem), b.sessIdCounter = id →
    b.initialized = true → b.sessionActive = false → b.txQueue ≠ 0 →
    (∀ m ∈ polls, RingReady b.txQueue m) → 0 < b.room polls →
    (b.connect ip port devId polls).sent = [createMsg id ip port devId]
  /-- When its wait has ended with an answer, it was the last message it has enqueued. -/
  answered : ∀ (b b' : SessionBridge) (polls rest : List Mem) (ret : Bool) (block : List UInt8)
    (sent : List (List UInt8)), b.sessIdCounter = id →
    b.connect ip port devId polls = .done (ret, b', some block) sent rest →
    sent.getLast? = some (createMsg id ip port devId)
  /-- `create_sess_step1` pushes it on a ring that has room for it. -/
  front : ∀ (c : Core) (p : SessPtr) (sess : FrontendSession) (rest : List UInt16) (ring : TxRing),
    c.heap p = some sess → ¬ c.InTable p → c.pool.idQueue = id :: rest → id ≠ 0 →
    ring.Accepts createSize →
    ∃ ret c', createSessTx (tcpPara ip port devId) p (some ring) c =
      some (ret, some (ring.push (createMsg id ip port devId)), c')

/-- A `send` of the bridge and one of the front library put the same messages in their
rings: both for the same session ids and buffer. -/
structure SendsAgree (b : HyperAmpBridge) (sess : FrontendSession) (buf : List UInt8) : Prop where
  /-- `send` enqueues the message of a piece of the buffer at each poll that finds a free
  slot. -/
  bridge : ∀ polls : List Mem, b.Connected → (∀ m ∈ polls, RingReady b.txQueue m) →
    (b.send buf polls).blocks =
      ((pieces buf).take (b.room polls)).map b.dataMsg
  /-- `build_proxy_general_message` makes the same message of a piece. -/
  built : ∀ chunk ∈ pieces buf,
    buildProxyGeneralMessage (fun _ => .ok) (dataMsgHeader sess chunk.length) (some chunk) =
      some (.ok, some (b.dataMsg chunk))
  /-- `frontend_sess_send` queues the same pieces, and step 3 of the engine enqueues their
  messages. -/
  front : dataProcessF2bLoop (dataMsgHeader sess) (fun _ => .ok) 0
      (fragment (fun _ => true) 0 buf.length buf) =
    some (.ok, [], (pieces buf).map b.dataMsg)

/-- **One wire format.** For every id, endpoint and device, the CREATE command that `connect`
enqueues is the one that the front library enqueues in `create_sess_step1`; and for every
session and buffer, the messages that `send` enqueues are those that the front library
builds of the same pieces of the buffer. -/
theorem wire_formats_agree :
    (∀ (id : UInt16) (ip : Vector UInt8 4) (port devId : UInt16),
      CreatesAgree id ip port devId) ∧
      ∀ (b : HyperAmpBridge) (sess : FrontendSession) (buf : List UInt8),
        sess.frontendSessId = b.frontendSessId → sess.backendSessId = b.backendSessId →
        SendsAgree b sess buf := by
  constructor
  · intro id ip port devId
    refine ⟨?_, ?_, ?_⟩
    · rintro b polls rfl hinit hactive hq hpolls hroom
      exact connect_sends hinit hactive hq hpolls hroom
    · rintro b b' polls rest ret block sent rfl h
      exact connect_answered h
    · intro c p sess rest ring hsess hout hids hid hring
      exact createSessTx_sends ip port devId hsess hout hids hid hring
  · intro b sess buf hfe hbe
    have hlen : ∀ chunk ∈ pieces buf, chunk.length ≤ kHyperAmpMaxPayload :=
      fun chunk h => (HyperAmpBridge.mem_pieces h).2
    refine ⟨fun polls hconn hpolls => send_blocks hconn hpolls buf, ?_, ?_⟩
    · intro chunk hmem
      exact buildProxyGeneralMessage_of_fill (fillMessage_data b sess hfe hbe (hlen chunk hmem))
    · rw [fragment_eq_pieces 0 _ buf le_rfl]
      exact dataProcessF2bLoop_sends b hfe hbe 0 hlen

/-- Session 1 is created to 10.10.10.10:80 on both sides, on rings with room; and two bytes
are sent over session 7 at the second poll. -/
theorem wire_formats_agree_sample :
    (SessionBridge.freshBridge.connect (Vector.replicate 4 10) 80 0xFF
        [SessionBridge.emptyRings]).sent = [createMsg 1 (Vector.replicate 4 10) 80 0xFF] ∧
      (∃ ret c', createSessTx (tcpPara (Vector.replicate 4 10) 80 0xFF) 7 (some ⟨64, 4096, []⟩)
          (sampleCore [1, 2] []) =
        some (ret, some ⟨64, 4096, [createMsg 1 (Vector.replicate 4 10) 80 0xFF]⟩, c')) ∧
      (HyperAmpBridge.someBridge.send [1, 2]
          [HyperAmpBridge.fullRing, HyperAmpBridge.oneMessage]).blocks =
        [HyperAmpBridge.someBridge.dataMsg [1, 2]] := by
  have hcreate := wire_formats_agree.1 1 (Vector.replicate 4 10) 80 0xFF
  have hsend := wire_formats_agree.2 HyperAmpBridge.someBridge
    { newSess with frontendSessId := 7, backendSessId := 9 } [1, 2] rfl rfl
  have hready : ∀ m ∈ [SessionBridge.emptyRings], RingReady 0x10000 m :=
    List.forall_mem_singleton.mpr ⟨by decide +kernel, by decide +kernel⟩
  have hrings : ∀ m ∈ [HyperAmpBridge.fullRing, HyperAmpBridge.oneMessage], RingReady 0x10000 m :=
    List.forall_mem_cons.mpr ⟨⟨by decide +kernel, by decide +kernel⟩,
      List.forall_mem_singleton.mpr ⟨by decide +kernel, by decide +kernel⟩⟩
  have hroom : HyperAmpBridge.someBridge.room
      [HyperAmpBridge.fullRing, HyperAmpBridge.oneMessage] = 1 := by decide +kernel
  refine ⟨?_, ?_, ?_⟩
  · exact hcreate.bridge _ _ rfl rfl rfl (by decide) hready (by decide +kernel)
  · exact hcreate.front _ 7 newSess [2] ⟨64, 4096, []⟩ rfl (by decide) rfl (by decide) (by decide)
  · have hblocks := hsend.bridge _ ⟨rfl, rfl, by decide, by decide⟩ hrings
    rw [hroom] at hblocks
    exact hblocks

end Monkey
