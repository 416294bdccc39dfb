import Sel4Test.Lib.Touch
import Sel4Test.Hyperamp.Channel
import Sel4Test.Server.Forward

/-!
The cipher channel, `hyperamp-server/src/channel_ch0.c`.

A message of the peer is copied into a local buffer and dispatched by its type. A small message
is encrypted or decrypted into a second buffer and answered; a bulk message carries a descriptor
of a range of the shared data region, which is processed in place, and the descriptor goes back
with a status. The functions are programs over their buffers and the data region that log every
byte they touch (`Touch.Prog`). What the network channel answers to a forwarded result is an
input (`Server.Env`, `TextEnv`). A reply ends a function here, as the message it hands to
`shm_write_buffer`; what the transmit ring does with it is the subject of `Hyperamp.Channel`.
-/

namespace Ch0

open ByteMem Touch Hyperamp

/-! ### Buffers -/

/-- The data region, by offset from its base, and the local arrays of the functions: the
message and the reply, the result of a service, and a chunk of a forwarded range. -/
inductive Buf
  | region
  | msgBuf
  | resultBuf
  | replyBuf
  | bulkReplyBuf
  | chunkBuf
  deriving DecidableEq, Repr

/-- `CH0_DATA_SIZE`. -/
def ch0DataSize : ℕ := 2 * 1024 * 1024 - 8192

/-- `HYPERAMP_MSG_MAX_SIZE`. -/
def hyperampMsgMaxSize : ℕ := 4088

/-- `sizeof(HyperampMsgHeader)`. -/
def msgHeaderSize : ℕ := 8

def Buf.size : Buf → ℕ
  | .region => ch0DataSize
  | .msgBuf => 4096
  | .resultBuf => hyperampMsgMaxSize
  | .replyBuf => 4096
  | .bulkReplyBuf => 128
  | .chunkBuf => Server.forwardChunkSize

/-- How a function ends: with a code, with that of `shm_write_buffer` for a message, or not
yet, when it still forwards a range. -/
inductive Outcome
  | ret (code : HyperampRet)
  | reply (msg : List UInt8)
  | running
  deriving DecidableEq, Repr

/-! ### Replies -/

/-- The bytes of a `HyperampMsgHeader`. -/
def msgHeader (msgType : UInt8) (frontendSess backendSess payloadLen : UInt16) : List UInt8 :=
  [1, msgType] ++ toLE 2 frontendSess.toNat ++ toLE 2 backendSess.toNat ++ toLE 2 payloadLen.toNat

/-- `HYPERAMP_MSG_TYPE_DATA`, `HYPERAMP_MSG_TYPE_SERVICE` and `HYPERAMP_MSG_TYPE_BULK`. -/
def msgTypeData : UInt8 := 3

def msgTypeService : UInt8 := 0x10

def msgTypeBulk : UInt8 := 0x20

/-- `ch0_send_reply`. -/
def ch0SendReply (replyData : Buf) (replyLen : ℕ) (frontendSess backendSess : UInt16) :
    Prog Buf Outcome := do
  let totalSize := msgHeaderSize + replyLen
  if totalSize > defaultBlockSize.toNat then
    return .ret .error
  else
    writeBlock .replyBuf 0 (msgHeader msgTypeData frontendSess backendSess (UInt16.ofNat replyLen))
    copy .replyBuf msgHeaderSize replyData 0 replyLen
    let msg ← readBlock .replyBuf 0 totalSize
    return .reply msg

/-- `sizeof(HyperampBulkDescriptor)`. -/
def bulkDescriptorSize : ℕ := 16

/-- `ch0_send_bulk_reply`, for the descriptor at `p` in the message. -/
def ch0SendBulkReply (p : ℕ) : Prog Buf Outcome := do
  writeBlock .bulkReplyBuf 0 (msgHeader msgTypeBulk 0 0 (UInt16.ofNat bulkDescriptorSize))
  copy .bulkReplyBuf msgHeaderSize .msgBuf p bulkDescriptorSize
  let msg ← readBlock .bulkReplyBuf 0 (msgHeaderSize + bulkDescriptorSize)
  return .reply msg

/-! ### Forwarding to the network channel -/

/-- What a small result meets: the text session, and the answers to its header and bytes. -/
structure TextEnv where
  sess : Server.SessView
  header : Server.SendAns
  data : Server.SendAns
  deriving DecidableEq, Repr

/-- `ch1_is_text_ready`. -/
def ch1IsTextReady (sess : Server.SessView) : Bool := sess = some .connected

/-- `ch0_try_forward_to_ch1`; its return code is not used. -/
def ch0TryForwardToCh1 (env : TextEnv) (data : Buf) (len : ℕ) (serviceId : UInt8) :
    Prog Buf HyperampRet := do
  if !ch1IsTextReady env.sess then
    return .error
  else
    let bytes ← readBlock data 0 len
    return (Server.ch1SendWithHeader env.sess env.header env.data bytes serviceId 0
      (UInt32.ofNat len)).1

/-- The later chunks of `ch0_try_forward_bulk_to_ch1`, while there are answers. -/
def forwardLater : List (Server.SessView × Server.SendAns) → ℕ → ℕ → Prog Buf (Option HyperampRet)
  | [], src, remaining => do
      if remaining = 0 then
        return some .ok
      else
        copy .chunkBuf 0 .region src (min remaining Server.forwardChunkSize)
        return none
  | (sess, ans) :: rest, src, remaining => do
      if remaining = 0 then
        return some .ok
      else
        copy .chunkBuf 0 .region src (min remaining Server.forwardChunkSize)
        let bytes ← readBlock .chunkBuf 0 (min remaining Server.forwardChunkSize)
        let ret := (Server.ch1ForwardBulkRawData sess ans bytes).1
        if ret < 0 then
          return some .error
        else if ret = 0 then
          forwardLater rest src remaining
        else
          forwardLater rest (src + ret.toNat) (remaining - ret.toNat)

/-- `ch0_try_forward_bulk_to_ch1`. -/
def ch0TryForwardBulkToCh1 (env : Server.Env) (offset length : ℕ) (serviceId : UInt8) :
    Prog Buf (Option HyperampRet) := do
  if !Server.ch1IsBulkReady env.sess then
    return some .error
  else if length = 0 then
    return some .ok
  else
    copy .chunkBuf 0 .region offset (min length Server.forwardChunkSize)
    let bytes ← readBlock .chunkBuf 0 (min length Server.forwardChunkSize)
    if (Server.ch1ForwardBulkData env.sess env.header env.first bytes serviceId
        (UInt32.ofNat length)).1 = .ok then
      forwardLater env.rest (offset + min length Server.forwardChunkSize)
        (length - min length Server.forwardChunkSize)
    else
      return some .error

/-! ### Services on small messages -/

/-- `ch0_print_string`: it stops at a zero byte. -/
def ch0PrintString (o : Buf) (a : ℕ) : ℕ → Prog Buf Unit
  | 0 => pure ()
  | n + 1 => do
      let c ← readByte o a
      if c = 0 then
        return ()
      else
        ch0PrintString o (a + 1) n

/-- `ch0_service_echo`. -/
def ch0ServiceEcho (data length : ℕ) : Prog Buf Outcome := do
  ch0PrintString .msgBuf data (min length 64)
  return .ret .ok

/-- The cipher, its own inverse. -/
def cipher (b : UInt8) : UInt8 := b ^^^ 0x5A

/-- `ch0_service_encrypt` and `ch0_service_decrypt`, which differ in the service they report. -/
def ch0ServiceCrypt (serviceId : UInt8) (env : TextEnv) (data length : ℕ)
    (frontendSess backendSess : UInt16) : Prog Buf Outcome := do
  let resultLen := if length > hyperampMsgMaxSize then hyperampMsgMaxSize else length
  copy .resultBuf 0 .msgBuf data resultLen
  mapBlock cipher .resultBuf 0 resultLen
  let _ ← ch0TryForwardToCh1 env .resultBuf resultLen serviceId
  ch0SendReply .resultBuf resultLen frontendSess backendSess

def ch0ServiceEncrypt : TextEnv → ℕ → ℕ → UInt16 → UInt16 → Prog Buf Outcome := ch0ServiceCrypt 1

def ch0ServiceDecrypt : TextEnv → ℕ → ℕ → UInt16 → UInt16 → Prog Buf Outcome := ch0ServiceCrypt 2

/-! ### Signatures -/

/-- `sizeof(HyperampSignedHeader)`. -/
def signedHeaderSize : ℕ := 84

/-- `SIG_MAGIC`. -/
def sigMagic : ℕ := 0x53494731

def authOk : Int32 := 0

def authFailedBadMagic : Int32 := -1

def authFailedBadSig : Int32 := -2

def authFailedBadLen : Int32 := -3

/-- `ch0_verify_signed_data`: its code, and `*payload_len_out`. -/
def ch0VerifySignedData (data totalLen : ℕ) : Prog Buf (Int32 × ℕ) := do
  if totalLen < signedHeaderSize then
    return (authFailedBadLen, 0)
  else
    let magic ← readWord .region data 4
    if magic ≠ sigMagic then
      return (authFailedBadMagic, 0)
    else
      let sigLen ← readWord .region (data + 4) 2
      if sigLen < 64 ∨ 72 < sigLen then
        return (authFailedBadSig, 0)
      else
        let payloadLen ← readWord .region (data + 8) 4
        if totalLen < signedHeaderSize + payloadLen then
          return (authFailedBadLen, 0)
        else
          let sig ← readByte .region (data + 12)
          if sig ≠ 0x30 then
            return (authFailedBadSig, 0)
          else
            return (authOk, payloadLen)

/-! ### Fields -/

/-- The comparison with `needle` at one place, up to the first byte that differs. -/
def matchAt (o : Buf) (a : ℕ) : List UInt8 → Prog Buf Bool
  | [] => pure true
  | c :: cs => do
      let b ← readByte o a
      if b ≠ c then
        return false
      else
        matchAt o (a + 1) cs

/-- The loop of `ch0_simple_strstr` over the places of the haystack. -/
def searchFrom (o : Buf) (a : ℕ) (needle : List UInt8) : ℕ → Prog Buf (Option ℕ)
  | 0 => pure none
  | n + 1 => do
      let found ← matchAt o a needle
      if found then
        return some a
      else
        searchFrom o (a + 1) needle n

/-- `ch0_simple_strstr`. -/
def ch0SimpleStrstr (o : Buf) (haystack haystackLen : ℕ) (needle : List UInt8) :
    Prog Buf (Option ℕ) :=
  if needle.length > haystackLen then pure none
  else searchFrom o haystack needle (haystackLen - needle.length + 1)

/-- A name in double quotes, and a colon. -/
def field (name : List UInt8) : List UInt8 := 0x22 :: name ++ [0x22, 0x3A]

/-- `required_fields`: ts, img, lvl, scr, cnt and tgt. -/
def requiredFields : List (List UInt8) :=
  [field [0x74, 0x73], field [0x69, 0x6D, 0x67], field [0x6C, 0x76, 0x6C],
    field [0x73, 0x63, 0x72], field [0x63, 0x6E, 0x74], field [0x74, 0x67, 0x74]]

def validateOk : Int32 := 0

def validateFailedMissing : Int32 := -10

/-- The loop of `ch0_validate_mission_data`. -/
def checkFields (data len : ℕ) : List (List UInt8) → Prog Buf Int32
  | [] => pure validateOk
  | f :: fs => do
      let found ← ch0SimpleStrstr .region data len f
      if found = none then
        return validateFailedMissing
      else
        checkFields data len fs

/-- `ch0_validate_mission_data`. -/
def ch0ValidateMissionData (data len : ℕ) : Prog Buf Int32 := checkFields data len requiredFields

/-! ### Bulk messages -/

/-- `HyperampBulkDescriptor`. -/
structure BulkDescriptor where
  offset : UInt32
  length : UInt32
  serviceId : UInt32
  status : Int32
  deriving DecidableEq

/-- The descriptor at an address. -/
def BulkDescriptor.read (m : Mem) (p : ℕ) : BulkDescriptor where
  offset := UInt32.ofNat (readLE m p 4)
  length := UInt32.ofNat (readLE m (p + 4) 4)
  serviceId := UInt32.ofNat (readLE m (p + 8) 4)
  status := (UInt32.ofNat (readLE m (p + 12) 4)).toInt32

/-- The services of a descriptor. -/
inductive BulkService
  | encrypt
  | decrypt
  | verifyOnly
  | verifyEncrypt
  | verifyDecrypt
  | validateEncrypt
  | validateDecrypt
  | unknown
  deriving DecidableEq, Repr

/-- The labels of the switch of `ch0_process_bulk`. -/
def BulkService.ofId (id : UInt32) : BulkService :=
  if id = 1 then .encrypt
  else if id = 2 then .decrypt
  else if id = 3 then .verifyOnly
  else if id = 4 then .verifyEncrypt
  else if id = 5 then .verifyDecrypt
  else if id = 7 then .validateEncrypt
  else if id = 8 then .validateDecrypt
  else .unknown

/-- The services whose results are forwarded. -/
def BulkService.forwards : BulkService → Bool
  | .encrypt | .verifyEncrypt | .validateEncrypt => true
  | .decrypt | .verifyDecrypt | .validateDecrypt => true
  | .verifyOnly | .unknown => false

def BulkDescriptor.service (d : BulkDescriptor) : BulkService := .ofId d.serviceId

/-- The fields of the descriptor at `p` in the message. -/
def readDescriptor (p : ℕ) : Prog Buf BulkDescriptor := do
  let offset ← readWord .msgBuf p 4
  let length ← readWord .msgBuf (p + 4) 4
  let serviceId ← readWord .msgBuf (p + 8) 4
  let status ← readWord .msgBuf (p + 12) 4
  return ⟨UInt32.ofNat offset, UInt32.ofNat length, UInt32.ofNat serviceId,
    (UInt32.ofNat status).toInt32⟩

def setOffset (p : ℕ) (v : UInt32) : Prog Buf Unit := writeBlock .msgBuf p (toLE 4 v.toNat)

def setLength (p : ℕ) (v : UInt32) : Prog Buf Unit := writeBlock .msgBuf (p + 4) (toLE 4 v.toNat)

def setStatus (p : ℕ) (v : Int32) : Prog Buf Unit :=
  writeBlock .msgBuf (p + 12) (toLE 4 v.toUInt32.toNat)

/-- The switch of `ch0_process_bulk`, for the descriptor `desc` at `p`; the range starts at the
offset `data` of the region. -/
def bulkService (p data : ℕ) (desc : BulkDescriptor) : Prog Buf Unit :=
  match desc.service with
  | .encrypt | .decrypt | .unknown => do
      mapBlock cipher .region data desc.length.toNat
      setStatus p 1
  | .verifyEncrypt | .verifyDecrypt => do
      let result ← ch0VerifySignedData data desc.length.toNat
      if result.1 ≠ authOk then
        setStatus p result.1
      else
        mapBlock cipher .region (data + signedHeaderSize) result.2
        setOffset p (desc.offset + UInt32.ofNat signedHeaderSize)
        setLength p (UInt32.ofNat result.2)
        setStatus p 1
  | .verifyOnly => do
      let result ← ch0VerifySignedData data desc.length.toNat
      setStatus p (if result.1 = authOk then 1 else result.1)
  | .validateEncrypt => do
      let result ← ch0ValidateMissionData data desc.length.toNat
      if result ≠ validateOk then
        setStatus p result
      else
        mapBlock cipher .region data desc.length.toNat
        setStatus p 1
  | .validateDecrypt => do
      mapBlock cipher .region data desc.length.toNat
      let result ← ch0ValidateMissionData data desc.length.toNat
      setStatus p (if result = validateOk then 1 else result)

/-- What `ch0_process_bulk` does after the switch: the cache, the forwarding and the reply. -/
def bulkFinish (env : Server.Env) (p data : ℕ) : Prog Buf Outcome := do
  let desc ← readDescriptor p
  emit (.clean .region data desc.length.toNat)
  if desc.status = 1 ∧ desc.service.forwards then
    let code ← ch0TryForwardBulkToCh1 env desc.offset.toNat desc.length.toNat
      (UInt8.ofNat desc.serviceId.toNat)
    if code = none then
      return .running
    else
      ch0SendBulkReply p
  else
    ch0SendBulkReply p

/-- `ch0_process_bulk`, for a payload of `len` bytes at `p` in the message. -/
def ch0ProcessBulk (env : Server.Env) (p len : ℕ) : Prog Buf Outcome := do
  if len < bulkDescriptorSize then
    return .ret .error
  else
    let desc ← readDescriptor p
    if (desc.offset + desc.length).toNat > ch0DataSize then
      setStatus p (-1)
      ch0SendBulkReply p
    else
      emit (.invalidate .region desc.offset.toNat desc.length.toNat)
      bulkService p desc.offset.toNat desc
      bulkFinish env p desc.offset.toNat

/-! ### Dispatch -/

/-- `ch0_process_normal_message`. -/
def ch0ProcessNormalMessage (env : TextEnv) (data length : ℕ)
    (serviceId frontendSess backendSess : UInt16) : Prog Buf Outcome :=
  if serviceId = 0 then ch0ServiceEcho data length
  else if serviceId = 1 then ch0ServiceEncrypt env data length frontendSess backendSess
  else if serviceId = 2 then ch0ServiceDecrypt env data length frontendSess backendSess
  else ch0ServiceEcho data length

/-- `ch0_process_message` from the block that it dequeues on. -/
def ch0Dispatch (bulk : Server.Env) (text : TextEnv) (block : List UInt8) : Prog Buf Outcome := do
  writeBlock .msgBuf 0 block
  if block.length < msgHeaderSize then
    return .ret .error
  else
    let msgType ← readByte .msgBuf 1
    let frontendSess ← readWord .msgBuf 2 2
    let backendSess ← readWord .msgBuf 4 2
    let payloadLen ← readWord .msgBuf 6 2
    if msgType = msgTypeBulk then
      ch0ProcessBulk bulk msgHeaderSize payloadLen
    else if msgType = msgTypeService then
      ch0ProcessNormalMessage text msgHeaderSize payloadLen (UInt16.ofNat frontendSess)
        (UInt16.ofNat frontendSess) (UInt16.ofNat backendSess)
    else
      ch0ProcessNormalMessage text msgHeaderSize payloadLen (UInt16.ofNat (msgType.toNat + 10))
        (UInt16.ofNat frontendSess) (UInt16.ofNat backendSess)

/-- The buffers of a call: the data region of the shared memory, and local arrays that hold
anything. -/
def callState (ctx : ChannelContext) (arrays : Buf → Mem) (m : Mem) : State Buf where
  mem o := if o = .region then fun x => m (ctx.dataRegion + x) else arrays o
  log := []

/-- `ch0_process_message`: the outcome and the buffers, or none while the queue is locked. -/
def ch0ProcessMessage (ctx : Option ChannelContext) (bulk : Server.Env) (text : TextEnv)
    (arrays : Buf → Mem) (m : Mem) : Option (Outcome × State Buf) :=
  match ctx with
  | none => some (.ret .error, ⟨arrays, []⟩)
  | some ctx =>
      if ctx.initialized = false then some (.ret .error, callState ctx arrays m)
      else
        match shmReadBuffer (some ctx) true 4096 m with
        | none => none
        | some (.ok, block, m') => some (ch0Dispatch bulk text block (callState ctx arrays m'))
        | some (code, _, m') => some (.ret code, callState ctx arrays m')

end Ch0
