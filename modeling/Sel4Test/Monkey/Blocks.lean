import Sel4Test.Monkey.Response

/-!
The block operations of `Protocol1Connection.cc` and `Protocol2Connection.cc`.

A request is a message with a few words; the words are in network byte order, except
keys and addresses, which are sent as they are. The reply is a response whose text holds
the result. `Encodes p bytes` says that `p` sends just these bytes whenever it succeeds,
and does succeed on a reliable socket; `Decodes q bytes a` says that `q`, which may send
a request first, finds `a` in them, however the stream is cut, and leaves what follows.

Arrays are allocated where the source does it. `ArrayList::resize` to a size between the
present one and the capacity fails, and `ArrayList::append` does not grow an array of
capacity 1; both are modelled.
-/

namespace Monkey

open ByteMem Dialogue Dialogue.Prog

/-! ### Words -/

/-- The bytes of `htonq(x)`. -/
def netq (x : Int64) : List UInt8 := toBE 8 x.toUInt64.toNat

/-- `ntohq` of eight bytes. -/
def ofNetq (bs : List UInt8) : Int64 := (UInt64.ofNat (ofBE bs)).toInt64

/-- The bytes of `x` in memory. -/
def rawq (x : Int64) : List UInt8 := toLE 8 x.toUInt64.toNat

/-- The word that eight bytes are. -/
def ofRawq (bs : List UInt8) : Int64 := (UInt64.ofNat (ofLE bs)).toInt64

@[simp] lemma length_netq (x : Int64) : (netq x).length = 8 := length_toBE _ _

@[simp] lemma length_rawq (x : Int64) : (rawq x).length = 8 := length_toLE _ _

@[simp] lemma ofNetq_netq (x : Int64) : ofNetq (netq x) = x := by
  rw [ofNetq, netq, ofBE_toBE_u64, Int64.toInt64_toUInt64]

@[simp] lemma ofRawq_rawq (x : Int64) : ofRawq (rawq x) = x := by
  rw [ofRawq, rawq, ofLE_toLE_of_lt (UInt64.toNat_lt _), UInt64.ofNat_toNat, Int64.toInt64_toUInt64]

@[simp] lemma take_netq_append (x : Int64) (rest : List UInt8) :
    (netq x ++ rest).take 8 = netq x :=
  List.take_left' (length_netq x)

@[simp] lemma drop_netq_append (x : Int64) (rest : List UInt8) :
    (netq x ++ rest).drop 8 = rest :=
  List.drop_left' (length_netq x)

/-! ### Encoders and decoders -/

/-- The program sends these bytes whenever it succeeds, and succeeds when nothing fails. -/
structure Encodes (p : Prog UInt8 Ret) (bytes : List UInt8) : Prop where
  exact : ∀ F S, wp F p S fun r _ out => r = some (.returns .success) → out = bytes
  succeeds : ∀ S, wp reliable p S fun r rest out =>
    r = some (.returns .success) ∧ rest = S ∧ out = bytes

/-- The program finds `a` in these bytes, however the stream is cut, and leaves what
follows. -/
def Decodes {α : Type} (q : Prog UInt8 (Except Ret α)) (bytes : List UInt8) (a : α) : Prop :=
  ∀ rest, wp reliable q (bytes ++ rest) fun r rest' _ => r = some (.ok a) ∧ rest' = rest

/-- What the first program sends with success, the second reads as `a`. -/
def Carries {α : Type} (p : Prog UInt8 Ret) (q : Prog UInt8 (Except Ret α)) (a : α) : Prop :=
  ∃ bytes, Encodes p bytes ∧ Decodes q bytes a

lemma encodes_sendMsg (m : Msg) (hlen : headerSize + m.data.length < 2 ^ 64) :
    Encodes (status (sendMsg m.type m.data)) (frame m) where
  exact F S := by
    apply wp_status
    refine wp_mono (sendMsg_spec m hlen) ?_
    rintro _ _ out ⟨-, status, rfl, hiff⟩ hsuccess
    apply hiff.mp
    simpa using hsuccess
  succeeds S := by
    apply wp_status
    exact wp_sendMsg (fun h => h) m hlen ⟨rfl, rfl, rfl⟩

lemma Encodes.withMemory {p : Prog UInt8 Ret} {bytes : List UInt8} {ret : Ret}
    (h : Encodes p bytes) (hret : ret ≠ .returns .success) :
    Encodes (withMemory ret p) bytes where
  exact F S := by
    apply wp_bind
    apply wp_new
    · exact h.exact F S
    · intro _ heq
      exact absurd (Option.some.inj heq) hret
  succeeds S := by
    apply wp_bind
    exact wp_new (h.succeeds S) fun hfail => hfail.elim

lemma encodes_sendResponse {code : UInt32} {msg paimon : List UInt8}
    (hlen : msg.length + paimon.length < 2 ^ 63) :
    Encodes (sendResponse code msg paimon) (frame (responseMsg code msg paimon)) := by
  have hframe := encodes_sendMsg (responseMsg code msg paimon) (by
    rw [responseMsg, length_responseData]
    simp only [headerSize]
    omega)
  exact hframe.withMemory (by simp)

/-! ### Arrays -/

/-- Size and capacity of an `ArrayList`. -/
structure ArrayState where
  size : ℕ
  capacity : ℕ

/-- An array that is new. -/
def ArrayState.new : ArrayState := ⟨0, 0⟩

/-- `ArrayList::resize`: whether the array has the new size. -/
def resize (a : ArrayState) (newSize : ℕ) : Prog UInt8 Bool :=
  if a.size < newSize then
    if newSize ≤ a.capacity then done (a.capacity = newSize) else Prog.new
  else done true

/-- The array can get the new size. -/
def Resizable (a : ArrayState) (newSize : ℕ) : Prop := ¬ (a.size < newSize ∧ newSize < a.capacity)

lemma wp_resize {a : ArrayState} {newSize : ℕ} (ha : Resizable a newSize) {S : List UInt8}
    {Q : Option Bool → List UInt8 → List UInt8 → Prop} (h : Q (some true) S []) :
    wp reliable (resize a newSize) S Q := by
  rw [resize]
  split_ifs with hsmall hcap
  · have heq : a.capacity = newSize := by
      rw [Resizable] at ha
      omega
    simpa [wp, heq] using h
  · exact wp_new h fun hfail => hfail.elim
  · exact h

/-- `ArrayList::append` for one element after the other. An element for which there is no
memory is left out, as its result is not looked at; an array that has not grown is
written past its end. -/
def appendAll (out : List Int64) (capacity : ℕ) : List Int64 → Prog UInt8 (Option (List Int64))
  | [] => done (some out)
  | x :: xs =>
      if out.length = capacity then do
        let newCapacity := if capacity = 0 then 16 else capacity + capacity / 2
        if ← Prog.new then
          if out.length < newCapacity then appendAll (out ++ [x]) newCapacity xs
          else return none
        else appendAll out capacity xs
      else appendAll (out ++ [x]) capacity xs

lemma wp_appendAll {out xs : List Int64} {capacity : ℕ} (hcap : capacity ≠ 1)
    (hlen : out.length ≤ capacity) {S : List UInt8}
    {Q : Option (Option (List Int64)) → List UInt8 → List UInt8 → Prop}
    (h : Q (some (some (out ++ xs))) S []) : wp reliable (appendAll out capacity xs) S Q := by
  induction xs generalizing out capacity with
  | nil => simpa [appendAll, wp] using h
  | cons x xs ih =>
      have hnext : Q (some (some (out ++ [x] ++ xs))) S [] := by simpa using h
      rw [appendAll]
      split_ifs with hfull hzero
      · apply wp_bind
        apply wp_new
        · have hroom : out.length < 16 := by omega
          simp only [if_pos hroom]
          apply ih (by decide) (by simpa using hroom)
          exact hnext
        · exact fun hfail => hfail.elim
      · apply wp_bind
        apply wp_new
        · have hroom : out.length < capacity + capacity / 2 := by omega
          simp only [if_pos hroom]
          apply ih (by omega) (by simpa using hroom)
          exact hnext
        · exact fun hfail => hfail.elim
      · exact ih hcap (by simp only [List.length_append, List.length_singleton]; omega) hnext

/-! ### Requests -/

/-- A request with one word, in network byte order. -/
def idMsg (type : MsgType) (id : Int64) : Msg := ⟨type, netq id⟩

/-- The decoders of such requests. -/
def decodeId (msg : Msg) : Except Status Int64 :=
  if msg.data.length < 8 then .error .protocolError else .ok (ofNetq (msg.data.take 8))

/-- `sendMemoryNodeShowId`. -/
def sendMemoryNodeShowId (id : Int64) : Prog UInt8 Ret :=
  status (sendMsg MsgType.memoryNodeShowId (netq id))

/-- `decodeMemoryNodeShowId`. -/
def decodeMemoryNodeShowId (msg : Msg) : Except Status Int64 := decodeId msg

/-- `sendMemoryNodeClockIn`; the address is sent as it is in memory. -/
def sendMemoryNodeClockIn (tcp4Ip : UInt32) (port : UInt16) : Prog UInt8 Ret :=
  status (sendMsg MsgType.memoryNodeClockIn
    (toBE 4 4 ++ toBE 4 port.toNat ++ toLE 4 tcp4Ip.toNat))

/-- `decodeMemoryNodeClockIn`: TCP version, port and the four bytes of the address. -/
def decodeMemoryNodeClockIn (msg : Msg) : Except Status (UInt32 × UInt16 × List UInt8) :=
  if msg.data.length < 12 then .error .protocolError
  else
    let tcpVer := UInt32.ofNat (ofBE (msg.data.take 4))
    let port := (UInt32.ofNat (ofBE ((msg.data.drop 4).take 4))).toUInt16
    if tcpVer ≠ 4 then .error .protocolError
    else .ok (tcpVer, port, (msg.data.drop 8).take 4)

/-- `sendTryAlloc` of version 1. -/
def sendTryAlloc1 (blockSize nBlocks : UInt64) : Prog UInt8 Ret :=
  withMemory (.returns .outOfResource)
    (status (sendMsg MsgType.tryAlloc (toBE 8 blockSize.toNat ++ toBE 8 nBlocks.toNat)))

/-- `decodeTryAlloc` of version 1. -/
def decodeTryAlloc1 (msg : Msg) : Except Status (UInt64 × UInt64) :=
  if msg.data.length < 16 then .error .protocolError
  else .ok (UInt64.ofNat (ofBE (msg.data.take 8)), UInt64.ofNat (ofBE ((msg.data.drop 8).take 8)))

/-- `sendTryAlloc` of version 2. -/
def sendTryAlloc2 : Prog UInt8 Ret := status (sendMsg MsgType.tryAlloc [])

/-- `sendReadBlock`. -/
def sendReadBlock (blockId : Int64) : Prog UInt8 Ret :=
  withMemory (.returns .outOfResource) (status (sendMsg MsgType.readBlock (netq blockId)))

/-- `decodeReadBlock`. -/
def decodeReadBlock (msg : Msg) : Except Status Int64 := decodeId msg

/-- `sendWriteBlock`. Version 2 passes 4096 bytes. -/
def sendWriteBlock (blockId : Int64) (data : List UInt8) : Prog UInt8 Ret :=
  withMemory (.returns .outOfResource) (status (sendMsg MsgType.writeBlock (netq blockId ++ data)))

/-- `decodeWriteBlock` into an array. -/
def decodeWriteBlock (array : ArrayState) (msg : Msg) :
    Prog UInt8 (Except Status (Int64 × List UInt8)) :=
  if msg.data.length < 8 then done (.error .protocolError)
  else do
    if ← resize array (msg.data.length - 8) then
      return .ok (ofNetq (msg.data.take 8), msg.data.drop 8)
    else return .error .outOfResource

/-- `sendCheckAvailMem`. -/
def sendCheckAvailMem : Prog UInt8 Ret := status (sendMsg MsgType.checkAvailMem [])

/-- `sendFreeBlock`. -/
def sendFreeBlock (blockId : Int64) : Prog UInt8 Ret :=
  status (sendMsg MsgType.freeBlock (netq blockId))

/-- `decodeFreeBlock`. -/
def decodeFreeBlock (msg : Msg) : Except Status Int64 := decodeId msg

/-- The request of `refBlock`; the key is sent as it is in memory. -/
def sendRefBlock (accessKey : Int64) : Prog UInt8 Ret :=
  status (sendMsg MsgType.refBlock (rawq accessKey))

/-- `decodeRefBlock`. -/
def decodeRefBlock (msg : Msg) : Except Status Int64 :=
  if msg.data.length < 8 then .error .protocolError else .ok (ofRawq (msg.data.take 8))

/-- The request of `unrefBlock`. -/
def sendUnrefBlock (blockId : Int64) : Prog UInt8 Ret :=
  status (sendMsg MsgType.unrefBlock (netq blockId))

/-- `decodeUnrefBlock`. -/
def decodeUnrefBlock (msg : Msg) : Except Status Int64 := decodeId msg

/-- The request of `getBlockDataVersion`. -/
def sendGetBlockDataVersion (blockId : Int64) : Prog UInt8 Ret :=
  status (sendMsg MsgType.getBlockDataVersion (netq blockId))

/-- `decodeGetBlockDataVersion`. -/
def decodeGetBlockDataVersion (msg : Msg) : Except Status Int64 := decodeId msg

/-- A message is received and decoded. -/
def recvRequest {α : Type} (type : MsgType) (decode : Msg → Prog UInt8 (Except Status α)) :
    Prog UInt8 (Except Ret α) := do
  match ← recvMsg type with
  | .error status => return .error (.returns status)
  | .ok msg =>
      match ← decode msg with
      | .error status => return .error (.returns status)
      | .ok a => return .ok a

/-- The same for a decoder that needs no memory. -/
def recvPure {α : Type} (type : MsgType) (decode : Msg → Except Status α) :
    Prog UInt8 (Except Ret α) :=
  recvRequest type fun msg => done (decode msg)

section Requests

variable {α : Type} {a : α} {m : Msg} {type : MsgType}

lemma decodes_recvRequest {decode : Msg → Prog UInt8 (Except Status α)}
    (hlen : m.data.length < 2 ^ 64)
    (h : ∀ S, wp reliable (decode m) S fun r rest _ => r = some (.ok a) ∧ rest = S) :
    Decodes (recvRequest m.type decode) (frame m) a := by
  intro rest
  apply wp_bind
  apply wp_recvMsg (fun h => h) m hlen (.inr rfl)
  · apply wp_bind
    refine wp_mono (h rest) ?_
    rintro _ rest' out ⟨rfl, rfl⟩
    exact ⟨rfl, rfl⟩
  · exact fun hfail => hfail.elim

lemma decodes_recvPure {decode : Msg → Except Status α} (hlen : m.data.length < 2 ^ 64)
    (h : decode m = .ok a) : Decodes (recvPure m.type decode) (frame m) a := by
  apply decodes_recvRequest hlen
  intro S
  rw [h]
  exact ⟨rfl, rfl⟩

lemma decodeId_idMsg (type : MsgType) (id : Int64) : decodeId (idMsg type id) = .ok id := by
  simp [decodeId, idMsg, List.take_of_length_le]

/-- A request with one word is read as it was written. -/
lemma carries_id (type : MsgType) (id : Int64) :
    Carries (status (sendMsg type (netq id))) (recvPure type decodeId) id :=
  ⟨frame (idMsg type id), encodes_sendMsg (idMsg type id) (by simp [idMsg, headerSize]),
    decodes_recvPure (m := idMsg type id) (by simp [idMsg]) (decodeId_idMsg type id)⟩

/-- The same where memory is needed for the request. -/
lemma Carries.withMemory {p : Prog UInt8 Ret} {q : Prog UInt8 (Except Ret α)} {ret : Ret}
    (h : Carries p q a) (hret : ret ≠ .returns .success) : Carries (withMemory ret p) q a := by
  obtain ⟨bytes, hp, hq⟩ := h
  exact ⟨bytes, hp.withMemory hret, hq⟩

lemma carries_memoryNodeClockIn (tcp4Ip : UInt32) (port : UInt16) :
    Carries (sendMemoryNodeClockIn tcp4Ip port)
      (recvPure MsgType.memoryNodeClockIn decodeMemoryNodeClockIn)
      (4, port, toLE 4 tcp4Ip.toNat) := by
  set m : Msg := ⟨MsgType.memoryNodeClockIn,
    toBE 4 4 ++ toBE 4 port.toNat ++ toLE 4 tcp4Ip.toNat⟩ with hm
  have hlen : m.data.length = 12 := by simp [hm]
  refine ⟨frame m, encodes_sendMsg m (by rw [hlen]; decide),
    decodes_recvPure (m := m) (by rw [hlen]; decide) ?_⟩
  have hver : m.data.take 4 = toBE 4 4 := by
    simp only [hm, List.append_assoc]
    rw [List.take_left' (length_toBE _ _)]
  have hport : (m.data.drop 4).take 4 = toBE 4 port.toNat := by
    simp only [hm, List.append_assoc]
    rw [List.drop_left' (length_toBE _ _), List.take_left' (length_toBE _ _)]
  have hip : (m.data.drop 8).take 4 = toLE 4 tcp4Ip.toNat := by
    simp only [hm]
    rw [List.drop_left' (by simp), List.take_of_length_le (by simp)]
  have hport' : (UInt32.ofNat (ofBE (toBE 4 port.toNat))).toUInt16 = port := by
    rw [ofBE_toBE_of_lt (by have := port.toNat_lt; omega)]
    simp
  have hver' : UInt32.ofNat (ofBE (toBE 4 4)) = 4 := by decide
  rw [decodeMemoryNodeClockIn, if_neg (by omega)]
  simp only [hver, hport, hip, hport', hver', ne_eq, not_true_eq_false, if_false]

lemma carries_tryAlloc1 (blockSize nBlocks : UInt64) :
    Carries (sendTryAlloc1 blockSize nBlocks) (recvPure MsgType.tryAlloc decodeTryAlloc1)
      (blockSize, nBlocks) := by
  set m : Msg := ⟨MsgType.tryAlloc, toBE 8 blockSize.toNat ++ toBE 8 nBlocks.toNat⟩ with hm
  have hlen : m.data.length = 16 := by simp [hm]
  refine ⟨frame m, (encodes_sendMsg m (by rw [hlen]; decide)).withMemory (by simp),
    decodes_recvPure (m := m) (by rw [hlen]; decide) ?_⟩
  rw [decodeTryAlloc1, if_neg (by omega)]
  simp only [hm, List.take_left' (length_toBE _ _), List.drop_left' (length_toBE _ _),
    ofBE_toBE_u64]
  rw [List.take_of_length_le (by simp), ofBE_toBE_u64]

/-- The message of `sendWriteBlock`. -/
def writeMsg (blockId : Int64) (data : List UInt8) : Msg :=
  ⟨MsgType.writeBlock, netq blockId ++ data⟩

lemma length_writeMsg (blockId : Int64) (data : List UInt8) :
    (writeMsg blockId data).data.length = 8 + data.length := by
  simp [writeMsg]

lemma encodes_sendWriteBlock (blockId : Int64) {data : List UInt8} (hdata : data.length < 2 ^ 63) :
    Encodes (sendWriteBlock blockId data) (frame (writeMsg blockId data)) :=
  (encodes_sendMsg (writeMsg blockId data) (by
    rw [length_writeMsg, headerSize]
    omega)).withMemory (by simp)

lemma wp_decodeWriteBlock {array : ArrayState} {blockId : Int64} {data S : List UInt8}
    (harray : Resizable array data.length)
    {Q : Option (Except Status (Int64 × List UInt8)) → List UInt8 → List UInt8 → Prop}
    (h : Q (some (.ok (blockId, data))) S []) :
    wp reliable (decodeWriteBlock array (writeMsg blockId data)) S Q := by
  have hlen := length_writeMsg blockId data
  have hsize : (writeMsg blockId data).data.length - 8 = data.length := by omega
  rw [decodeWriteBlock, if_neg (by omega), hsize]
  apply wp_bind
  apply wp_resize harray
  simp only [writeMsg, take_netq_append, drop_netq_append, ofNetq_netq, if_true]
  exact h

lemma carries_writeBlock (blockId : Int64) (data : List UInt8) (hdata : data.length < 2 ^ 63)
    {array : ArrayState} (harray : Resizable array data.length) :
    Carries (sendWriteBlock blockId data)
      (recvRequest MsgType.writeBlock (decodeWriteBlock array)) (blockId, data) := by
  refine ⟨_, encodes_sendWriteBlock blockId hdata,
    decodes_recvRequest (m := writeMsg blockId data) ?_ fun S => ?_⟩
  · rw [length_writeMsg]
    omega
  · exact wp_decodeWriteBlock harray ⟨rfl, rfl⟩

lemma carries_refBlock (accessKey : Int64) :
    Carries (sendRefBlock accessKey) (recvPure MsgType.refBlock decodeRefBlock) accessKey := by
  set m : Msg := ⟨MsgType.refBlock, rawq accessKey⟩ with hm
  have hlen : m.data.length = 8 := by simp [hm]
  refine ⟨frame m, encodes_sendMsg m (by rw [hlen]; decide),
    decodes_recvPure (m := m) (by rw [hlen]; decide) ?_⟩
  rw [decodeRefBlock, if_neg (by omega), List.take_of_length_le (by omega)]
  simp [hm]

end Requests

/-! ### Replies -/

/-- `RECV_AND_HANDLE_RESPONSE`. A response with an error code is copied to `lastError`,
as many bytes as it says its text has. -/
def handleResponse {α : Type} (onSuccess : Response → Prog UInt8 (Except Ret α)) :
    Prog UInt8 (Except Ret α) := do
  match ← recvResponse with
  | .error ret => return .error ret
  | .ok response =>
      if response.code ≠ 0 then
        return .error (if response.msg.length < response.msgLen.toNat then .undefined
          else .returns .protocolError)
      else onSuccess response

/-- A request and the handling of its response. -/
def request {α : Type} (send : Prog UInt8 Ret) (onSuccess : Response → Prog UInt8 (Except Ret α)) :
    Prog UInt8 (Except Ret α) := do
  match ← send with
  | .returns .success => handleResponse onSuccess
  | ret => return .error ret

/-- The words of an array of words; what is left over is read past its end. -/
def wordsOf : List UInt8 → Option (List Int64)
  | [] => some []
  | a :: b :: c :: d :: e :: f :: g :: h :: rest =>
      (wordsOf rest).map (ofNetq [a, b, c, d, e, f, g, h] :: ·)
  | _ => none

/-- `replyTryAlloc` of version 1. -/
def replyTryAlloc1 (blockIds : List Int64) : Prog UInt8 Ret :=
  sendResponse 0 (blockIds.flatMap netq) []

/-- `tryAlloc` of version 1; `capacity` is that of `idOut`, which is cleared. -/
def tryAlloc1 (blockSize nBlocks : UInt64) (capacity : ℕ) : Prog UInt8 (Except Ret (List Int64)) :=
  request (sendTryAlloc1 blockSize nBlocks) fun response =>
    match wordsOf response.msg with
    | none => done (.error .undefined)
    | some ids => do
        match ← appendAll [] capacity ids with
        | none => return .error .undefined
        | some idOut => return .ok idOut

/-- What `tryAlloc` of version 2 returns. -/
structure AllocatedBlock where
  blockId : Int64
  dataVer : Int64
  readKey : Int64
  writeKey : Int64
  deriving DecidableEq, Repr

/-- `replyTryAlloc` of version 2; the keys are sent as they are in memory. -/
def replyTryAlloc2 (b : AllocatedBlock) : Prog UInt8 Ret :=
  sendResponse 0 (netq b.blockId ++ (netq b.dataVer ++ (rawq b.readKey ++ rawq b.writeKey))) []

/-- `tryAlloc` of version 2. The length that is checked is that of the whole response. -/
def tryAlloc2 : Prog UInt8 (Except Ret AllocatedBlock) :=
  request sendTryAlloc2 fun response =>
    if 8 + response.msg.length < 32 then done (.error (.returns .protocolError))
    else if response.msg.length < 32 then done (.error .undefined)
    else
      let word (i : ℕ) := (response.msg.drop (8 * i)).take 8
      done (.ok ⟨ofNetq (word 0), ofNetq (word 1), ofRawq (word 2), ofRawq (word 3)⟩)

/-- `replyReadBlock` of version 1. -/
def replyReadBlock1 (data : List UInt8) : Prog UInt8 Ret := sendResponse 0 data []

/-- `readBlock` of version 1. -/
def readBlock1 (blockId : Int64) (bufSize : ℕ) : Prog UInt8 (Except Ret (List UInt8)) :=
  request (sendReadBlock blockId) fun response =>
    if response.msg.length ≠ bufSize then done (.error (.returns .protocolError))
    else done (.ok response.msg)

/-- The sum of what successive calls of `send` return. -/
def sends : List (List UInt8) → Prog UInt8 ℤ
  | [] => done 0
  | piece :: pieces => do
      let acc ← put piece
      let more ← sends pieces
      return acc + more

/-- The size of a block. -/
def blockSize : ℕ := 4096

/-- The calls of `send` in `replyReadBlock` of version 2. -/
def readReply (dataVer : Int64) (data : List UInt8) : List (List UInt8) :=
  [makeHeader MsgType.response (UInt64.ofNat (blockSize + 8 + 8)), toLE 4 0, toLE 4 0, netq dataVer,
    data.take blockSize]

/-- `replyReadBlock` of version 2: code and length of the text are 0. It reads a whole
block of data. -/
def replyReadBlock2 (dataVer : Int64) (data : List UInt8) : Prog UInt8 Ret :=
  if data.length < blockSize then done .undefined
  else do
    let acc ← sends (readReply dataVer data)
    return .returns (if acc = (headerSize + blockSize + 8 + 8 : ℕ) then .success else .networkError)

/-- `readBlock` of version 2: the block and its version. -/
def readBlock2 (blockId : Int64) : Prog UInt8 (Except Ret (List UInt8 × Int64)) :=
  request (sendReadBlock blockId) fun response =>
    -- `header.length - 8 - 8` in 64 bits
    if (8 + response.msg.length + 2 ^ 64 - 8 - 8) % 2 ^ 64 ≠ blockSize then
      done (.error (.returns .protocolError))
    else done (.ok (response.msg.drop 8, ofNetq (response.msg.take 8)))

/-- `writeBlock` of version 2, without a place for the version. -/
def writeBlock2 (blockId : Int64) (data : List UInt8) : Prog UInt8 (Except Ret Unit) :=
  request (sendWriteBlock blockId data) fun response =>
    if response.msgLen ≠ 8 then done (.error (.returns .protocolError)) else done (.ok ())

/-- `replyCheckAvailMem`. -/
def replyCheckAvailMem (availMem : UInt64) : Prog UInt8 Ret :=
  sendResponse 0 (toBE 8 availMem.toNat) []

/-- `checkAvailMem`. -/
def checkAvailMem : Prog UInt8 (Except Ret UInt64) :=
  request sendCheckAvailMem fun response =>
    if response.msg.length < 8 then done (.error .undefined)
    else done (.ok (UInt64.ofNat (ofBE (response.msg.take 8))))

section Replies

variable {α : Type} {a : α} {send : Prog UInt8 Ret} {bytes : List UInt8}
  {onSuccess : Response → Prog UInt8 (Except Ret α)} {S : List UInt8}

/-- A request that is sent waits for its response. -/
lemma wp_request {Q : Option (Except Ret α) → List UInt8 → List UInt8 → Prop}
    (hsend : Encodes send bytes)
    (h : wp reliable (handleResponse onSuccess) S fun r rest out => Q r rest (bytes ++ out)) :
    wp reliable (request send onSuccess) S Q := by
  apply wp_bind
  refine wp_mono (hsend.succeeds S) ?_
  rintro _ _ out ⟨rfl, rfl, rfl⟩
  exact h

lemma emits_request (hsend : Encodes send bytes) :
    Emits reliable (request send onSuccess) [] bytes := by
  intro X
  apply wp_request hsend
  exact wp_mono (wp_true _ _ _) fun _ _ out _ => List.prefix_append _ _

lemma wp_handleResponse {Q : Option (Except Ret α) → List UInt8 → List UInt8 → Prop}
    {msg paimon : List UInt8} (hlen : msg.length + paimon.length < 2 ^ 63)
    (h : wp reliable (onSuccess ⟨0, UInt32.ofNat msg.length, msg ++ paimon⟩) S Q) :
    wp reliable (handleResponse onSuccess) (frame (responseMsg 0 msg paimon) ++ S) Q := by
  apply wp_bind
  apply wp_recvResponse (fun h => h) (fun h => h) hlen
  simp only [ne_eq, not_true_eq_false, if_false]
  exact h

/-- The method that sends the request reads the response. -/
lemma decodes_request {msg : List UInt8} (hsend : Encodes send bytes)
    (hlen : msg.length < 2 ^ 63)
    (h : ∀ S, wp reliable (onSuccess ⟨0, UInt32.ofNat msg.length, msg⟩) S fun r rest _ =>
      r = some (.ok a) ∧ rest = S) :
    Decodes (request send onSuccess) (frame (responseMsg 0 msg [])) a := by
  intro rest
  apply wp_request hsend
  apply wp_handleResponse (by simpa using hlen)
  rw [List.append_nil]
  exact h rest

lemma encodes_sendReadBlock (blockId : Int64) :
    Encodes (sendReadBlock blockId) (frame (idMsg MsgType.readBlock blockId)) :=
  (encodes_sendMsg (idMsg MsgType.readBlock blockId) (by simp [idMsg, headerSize])).withMemory
    (by simp)

lemma encodes_sendTryAlloc1 (blockSize nBlocks : UInt64) :
    Encodes (sendTryAlloc1 blockSize nBlocks)
      (frame ⟨MsgType.tryAlloc, toBE 8 blockSize.toNat ++ toBE 8 nBlocks.toNat⟩) :=
  (encodes_sendMsg ⟨MsgType.tryAlloc, toBE 8 blockSize.toNat ++ toBE 8 nBlocks.toNat⟩
    (by simp [headerSize])).withMemory (by simp)

lemma wordsOf_append {w rest : List UInt8} (hw : w.length = 8) :
    wordsOf (w ++ rest) = (wordsOf rest).map (ofNetq w :: ·) := by
  match w, hw with
  | [a, b, c, d, e, f, g, h], _ => rfl

lemma wordsOf_flatMap (ids : List Int64) : wordsOf (ids.flatMap netq) = some ids := by
  induction ids with
  | nil => rfl
  | cons id ids ih =>
      rw [List.flatMap_cons, wordsOf_append (length_netq id), ih, Option.map_some, ofNetq_netq]

lemma length_flatMap_netq (ids : List Int64) : (ids.flatMap netq).length = 8 * ids.length := by
  induction ids with
  | nil => rfl
  | cons id ids ih =>
      rw [List.flatMap_cons, List.length_append, ih, length_netq, List.length_cons]
      omega

lemma carries_replyTryAlloc1 (blockSize nBlocks : UInt64) (ids : List Int64)
    (hids : 8 * ids.length < 2 ^ 63) {capacity : ℕ} (hcap : capacity ≠ 1) :
    Carries (replyTryAlloc1 ids) (tryAlloc1 blockSize nBlocks capacity) ids := by
  have hlen : (ids.flatMap netq).length < 2 ^ 63 := by
    rw [length_flatMap_netq]
    exact hids
  refine ⟨_, encodes_sendResponse (by simpa using hlen),
    decodes_request (encodes_sendTryAlloc1 blockSize nBlocks) hlen fun S => ?_⟩
  simp only [wordsOf_flatMap]
  apply wp_bind
  apply wp_appendAll hcap (Nat.zero_le _)
  exact ⟨rfl, rfl⟩

lemma carries_replyTryAlloc2 (b : AllocatedBlock) : Carries (replyTryAlloc2 b) tryAlloc2 b := by
  have hlen : (netq b.blockId ++ (netq b.dataVer ++ (rawq b.readKey ++ rawq b.writeKey))).length =
      32 := by
    simp
  refine ⟨_, encodes_sendResponse (by rw [hlen]; decide),
    decodes_request (encodes_sendMsg ⟨MsgType.tryAlloc, []⟩ (by decide)) (by rw [hlen]; decide)
      fun S => ?_⟩
  simp only [hlen]
  have hver : ((netq b.blockId ++ (netq b.dataVer ++ (rawq b.readKey ++ rawq b.writeKey))).drop
      (8 * 1)).take 8 = netq b.dataVer := by
    rw [List.drop_left' (length_netq _), List.take_left' (length_netq _)]
  have hread : ((netq b.blockId ++ (netq b.dataVer ++ (rawq b.readKey ++ rawq b.writeKey))).drop
      (8 * 2)).take 8 = rawq b.readKey := by
    rw [← List.append_assoc, List.drop_left' (by simp), List.take_left' (length_rawq _)]
  have hwrite : ((netq b.blockId ++ (netq b.dataVer ++ (rawq b.readKey ++ rawq b.writeKey))).drop
      (8 * 3)).take 8 = rawq b.writeKey := by
    rw [← List.append_assoc, ← List.append_assoc, List.drop_left' (by simp),
      List.take_of_length_le (by simp)]
  rw [hver, hread, hwrite]
  simp [wp]

lemma carries_replyReadBlock1 (blockId : Int64) (data : List UInt8) (hdata : data.length < 2 ^ 63) :
    Carries (replyReadBlock1 data) (readBlock1 blockId data.length) data := by
  refine ⟨_, encodes_sendResponse (by simpa using hdata),
    decodes_request (encodes_sendReadBlock blockId) hdata fun S => ?_⟩
  simp [wp]

lemma carries_replyCheckAvailMem (availMem : UInt64) :
    Carries (replyCheckAvailMem availMem) checkAvailMem availMem := by
  have hlen : (toBE 8 availMem.toNat).length = 8 := length_toBE _ _
  refine ⟨_, encodes_sendResponse (by rw [hlen]; decide),
    decodes_request (encodes_sendMsg ⟨MsgType.checkAvailMem, []⟩ (by decide))
      (by rw [hlen]; decide) fun S => ?_⟩
  simp only [hlen, lt_irrefl, if_false, List.take_of_length_le hlen.le, ofBE_toBE_u64]
  exact ⟨rfl, rfl⟩

/-- The sum of the answers is at most what was to be sent, and reaches it only if all
was taken. -/
lemma sends_spec {F : Faults} (pieces : List (List UInt8)) :
    wp F (sends pieces) S fun r _ out => ∃ acc : ℤ, r = some acc ∧ acc ≤ pieces.flatten.length ∧
      (acc = pieces.flatten.length → out = pieces.flatten) := by
  induction pieces generalizing S with
  | nil => exact ⟨0, rfl, le_rfl, fun _ => rfl⟩
  | cons piece pieces ih =>
      have hflat : ((piece :: pieces).flatten.length : ℤ) =
          piece.length + pieces.flatten.length := by
        rw [List.flatten_cons, List.length_append]
        push_cast
        rfl
      apply wp_bind
      apply wp_put
      · apply wp_bind
        refine wp_mono ih ?_
        rintro _ rest out ⟨more, rfl, hle, -⟩
        refine ⟨-1 + more, rfl, by omega, fun hall => ?_⟩
        omega
      · intro n hn
        apply wp_bind
        refine wp_mono ih ?_
        rintro _ rest out ⟨more, rfl, hle, hmore⟩
        refine ⟨n + more, rfl, by omega, fun hall => ?_⟩
        obtain rfl : n = piece.length := by omega
        rw [List.append_nil, hmore (by omega), List.take_length, List.flatten_cons]

/-- Without faults everything is taken. -/
lemma wp_sends {Q : Option ℤ → List UInt8 → List UInt8 → Prop} (pieces : List (List UInt8))
    (h : Q (some pieces.flatten.length) S pieces.flatten) : wp reliable (sends pieces) S Q := by
  induction pieces generalizing Q with
  | nil => exact h
  | cons piece pieces ih =>
      apply wp_bind
      apply wp_put_of_reliable (fun h => h)
      apply wp_bind
      apply ih
      simpa [wp] using h

/-- The message of `replyReadBlock`. -/
def readReplyMsg (dataVer : Int64) (data : List UInt8) : Msg :=
  responseMsg 0 [] (netq dataVer ++ data)

lemma flatten_readReply (dataVer : Int64) {data : List UInt8} (hdata : data.length = blockSize) :
    (readReply dataVer data).flatten = frame (readReplyMsg dataVer data) := by
  have hlen : (responseData 0 [] (netq dataVer ++ data)).length = blockSize + 8 + 8 := by
    rw [length_responseData, List.length_append, length_netq, hdata]
    rfl
  have htake : data.take blockSize = data := List.take_of_length_le hdata.le
  rw [frame, readReplyMsg, responseMsg]
  simp only [hlen]
  rw [readReply, htake]
  simp only [List.flatten_cons, List.flatten_nil, List.append_nil, responseData]
  rfl

lemma encodes_replyReadBlock2 {dataVer : Int64} {data : List UInt8}
    (hdata : data.length = blockSize) :
    Encodes (replyReadBlock2 dataVer data) (frame (readReplyMsg dataVer data)) := by
  have hflat := flatten_readReply dataVer hdata
  have hlen : ((readReply dataVer data).flatten.length : ℤ) =
      (headerSize + blockSize + 8 + 8 : ℕ) := by
    rw [hflat, length_frame, readReplyMsg, responseMsg, length_responseData, List.length_append,
      length_netq, hdata]
    rfl
  constructor
  · intro F S
    rw [replyReadBlock2, if_neg hdata.ge.not_gt]
    apply wp_bind
    refine wp_mono (sends_spec (readReply dataVer data)) ?_
    rintro _ rest out ⟨acc, rfl, -, hall⟩ hsuccess
    rw [List.append_nil, ← hflat]
    apply hall
    rw [hlen]
    by_contra hne
    rw [if_neg hne] at hsuccess
    cases hsuccess
  · intro S
    rw [replyReadBlock2, if_neg hdata.ge.not_gt]
    apply wp_bind
    apply wp_sends
    rw [hlen, hflat]
    simp [wp]

lemma wp_readBlock2 (blockId : Int64) {dataVer : Int64} {data : List UInt8}
    (hdata : data.length = blockSize)
    {Q : Option (Except Ret (List UInt8 × Int64)) → List UInt8 → List UInt8 → Prop}
    (h : Q (some (.ok (data, dataVer))) S (frame (idMsg MsgType.readBlock blockId))) :
    wp reliable (readBlock2 blockId) (frame (readReplyMsg dataVer data) ++ S) Q := by
  have hlen : (netq dataVer ++ data).length = blockSize + 8 := by
    rw [List.length_append, length_netq, hdata, Nat.add_comm]
  have hsize : ¬ (8 + (netq dataVer ++ data).length + 2 ^ 64 - 8 - 8) % 2 ^ 64 ≠ blockSize := by
    rw [hlen]
    decide
  apply wp_request (encodes_sendReadBlock blockId)
  apply wp_handleResponse (by rw [List.length_nil, hlen]; decide)
  simp only [List.nil_append, if_neg hsize, take_netq_append, drop_netq_append, ofNetq_netq]
  simpa [wp] using h

lemma carries_replyReadBlock2 (blockId dataVer : Int64) {data : List UInt8}
    (hdata : data.length = blockSize) :
    Carries (replyReadBlock2 dataVer data) (readBlock2 blockId) (data, dataVer) :=
  ⟨_, encodes_replyReadBlock2 hdata, fun _ => wp_readBlock2 blockId hdata ⟨rfl, rfl⟩⟩

end Replies

end Monkey
