import Sel4Test.Hyperamp.Queue

/-!
Proxy messages, `front/include/message.h` and the builders of
`front/src/frontend_proto.c`.

A message is an outer header of 8 bytes, for most types an inner header, and a
payload. All structures are packed and their words are little-endian, so a
header is given by its `read` and `write` at an address. The builders write into
`global_amp_tx_buf`, a buffer of 4096 bytes that is zeroed first, and
`build_proxy_general_message` enqueues what they wrote.

All callers pass `MEMORY_ALLOC_AMPQUEUE`; the two other allocation modes are not
modelled. A payload is `none` for the null pointer and otherwise the list of its
bytes, so that `payload_len` is its length. A builder that would write past the
buffer has no result.
-/

namespace Frontend

open ByteMem Hyperamp

/-! ### Return codes and message types -/

/-- `FRONTEND_PROXY_PROCESS_OK`, `_ERROR` and `_AGAIN`. -/
inductive ProcessRet
  | ok
  | error
  | again
  deriving DecidableEq, Repr

/-- `ProxyMsgType`. -/
inductive ProxyMsgType
  | dev
  | strgy
  | sess
  | data
  | iot
  deriving DecidableEq, Repr

/-- The message type of a code; the codes without one are those that fail
`PROXY_MSG_TYPE_VALID`. -/
def ProxyMsgType.ofCode? (code : UInt8) : Option ProxyMsgType :=
  if code = 0 then some dev
  else if code = 1 then some strgy
  else if code = 2 then some sess
  else if code = 3 then some data
  else if code = 4 then some iot
  else none

/-- `ACTION_TYPE_COMMAND`. -/
def actionTypeCommand : UInt16 := 0

/-- `ACTION_TYPE_RESPONSE`. -/
def actionTypeResponse : UInt16 := 1

/-- `SESS_MSG_CLOSE`. -/
def sessMsgClose : UInt16 := 0

/-- `SESS_MSG_CREATE`. -/
def sessMsgCreate : UInt16 := 1

/-- `SESS_IPV4_PROTO`. -/
def sessIpv4Proto : UInt16 := 4

/-- `SESS_IPV6_PROTO`. -/
def sessIpv6Proto : UInt16 := 6

/-- `HYPERAMP_MSG_HDR_PLUS_MAX_SIZE`, the size of a message buffer and of a
queue block. -/
def msgBufSize : ℕ := 4096

/-! ### Headers -/

/-- `ProxyMsgHeader`, the outer header. -/
@[ext]
structure ProxyMsgHeader where
  version : UInt8
  proxyMsgType : UInt8
  frontendSessId : UInt16
  backendSessId : UInt16
  payloadLen : UInt16
  deriving DecidableEq, Repr

/-- `PROXY_MSG_HDR_SIZE`, the size of the outer header. -/
def proxyMsgHdrSize : ℕ := 8

def ProxyMsgHeader.read (m : Mem) (a : ℕ) : ProxyMsgHeader where
  version := m a
  proxyMsgType := m (a + 1)
  frontendSessId := readU16 m (a + 2)
  backendSessId := readU16 m (a + 4)
  payloadLen := readU16 m (a + 6)

/-- The header shared by device and strategy messages. -/
@[ext]
structure AdminMsgHeader where
  version : UInt16
  msgType : UInt16
  msgId : UInt16
  actionType : UInt16
  payloadLen : UInt16
  deriving DecidableEq, Repr

/-- `DevMsgHeader`. -/
abbrev DevMsgHeader := AdminMsgHeader

/-- `StrgyMsgHeader`. -/
abbrev StrgyMsgHeader := AdminMsgHeader

def AdminMsgHeader.read (m : Mem) (a : ℕ) : AdminMsgHeader where
  version := readU16 m a
  msgType := readU16 m (a + 2)
  msgId := readU16 m (a + 4)
  actionType := readU16 m (a + 6)
  payloadLen := readU16 m (a + 8)

def AdminMsgHeader.write (h : AdminMsgHeader) (m : Mem) (a : ℕ) : Mem :=
  let m := writeU16 m a h.version
  let m := writeU16 m (a + 2) h.msgType
  let m := writeU16 m (a + 4) h.msgId
  let m := writeU16 m (a + 6) h.actionType
  writeU16 m (a + 8) h.payloadLen

/-- `SessMsgHeader`. -/
@[ext]
structure SessMsgHeader where
  version : UInt16
  msgType : UInt16
  actionType : UInt16
  ipVersion : UInt16
  payloadLen : UInt16
  deriving DecidableEq, Repr

def SessMsgHeader.read (m : Mem) (a : ℕ) : SessMsgHeader where
  version := readU16 m a
  msgType := readU16 m (a + 2)
  actionType := readU16 m (a + 4)
  ipVersion := readU16 m (a + 6)
  payloadLen := readU16 m (a + 8)

def SessMsgHeader.write (h : SessMsgHeader) (m : Mem) (a : ℕ) : Mem :=
  let m := writeU16 m a h.version
  let m := writeU16 m (a + 2) h.msgType
  let m := writeU16 m (a + 4) h.actionType
  let m := writeU16 m (a + 6) h.ipVersion
  writeU16 m (a + 8) h.payloadLen

/-- The size of the device, strategy and session headers. -/
def innerHdrSize : ℕ := 10

/-- `IotMsgHeader`. -/
@[ext]
structure IotMsgHeader where
  protoVer : UInt16
  protoType : UInt16
  opcode : UInt16
  devPortId : UInt16
  payloadLen : UInt16
  reserve : UInt16
  deriving DecidableEq, Repr

def IotMsgHeader.read (m : Mem) (a : ℕ) : IotMsgHeader where
  protoVer := readU16 m a
  protoType := readU16 m (a + 2)
  opcode := readU16 m (a + 4)
  devPortId := readU16 m (a + 6)
  payloadLen := readU16 m (a + 8)
  reserve := readU16 m (a + 10)

/-- The size of the IoT header. -/
def iotHdrSize : ℕ := 12

/-- The union `inner_header` of a `GeneralProxyMsgHeader`, as its six words. -/
structure InnerHeader where
  w0 : UInt16
  w1 : UInt16
  w2 : UInt16
  w3 : UInt16
  w4 : UInt16
  w5 : UInt16
  deriving DecidableEq, Repr

namespace InnerHeader

variable (h : InnerHeader)

def devHdr : DevMsgHeader := ⟨h.w0, h.w1, h.w2, h.w3, h.w4⟩

def strgyHdr : StrgyMsgHeader := ⟨h.w0, h.w1, h.w2, h.w3, h.w4⟩

def sessHdr : SessMsgHeader := ⟨h.w0, h.w1, h.w2, h.w3, h.w4⟩

def iotHdr : IotMsgHeader := ⟨h.w0, h.w1, h.w2, h.w3, h.w4, h.w5⟩

end InnerHeader

/-- The union member `sess_hdr` as the whole union. -/
def SessMsgHeader.toInner (h : SessMsgHeader) : InnerHeader :=
  ⟨h.version, h.msgType, h.actionType, h.ipVersion, h.payloadLen, 0⟩

/-- `IotProtoType`. -/
inductive IotProtoType
  | bluetooth
  | zigbee
  | can
  | lora
  | powerlink
  | modbustcp
  deriving DecidableEq, Repr

/-- The protocol of a code; `IOT_PROTO_TYPE_UNKNOWN` and all other codes have
none. -/
def IotProtoType.ofCode? (code : UInt16) : Option IotProtoType :=
  if code = 1 then some bluetooth
  else if code = 2 then some zigbee
  else if code = 3 then some can
  else if code = 4 then some lora
  else if code = 5 then some powerlink
  else if code = 6 then some modbustcp
  else none

/-- The code of a protocol. -/
def IotProtoType.code : IotProtoType → UInt16
  | bluetooth => 1
  | zigbee => 2
  | can => 3
  | lora => 4
  | powerlink => 5
  | modbustcp => 6

/-- The sizes of the packed address structures, as `get_iot_addr_length` returns
them. -/
def getIotAddrLength : IotProtoType → ℕ
  | .bluetooth => 20
  | .zigbee => 11
  | .can => 7
  | .lora => 11
  | .powerlink => 10
  | .modbustcp => 11

/-- The size of the union `addr_info`. -/
def addrInfoSize : ℕ := 20

/-- `GeneralProxyMsgHeader`; of the IoT address the builders read the union
`addr_info` and the length of its valid part. -/
structure GeneralProxyMsgHeader where
  outerHeader : ProxyMsgHeader
  innerHeader : InnerHeader
  addrInfo : Vector UInt8 20
  iotAddrLen : UInt16

/-! ### Payload lengths -/

/-- `DEV_MSG_PAYLOAD_LEN`; `-1` is `PROXY_MSG_INVALID_LEN`. -/
def devMsgPayloadLen (msgType actionType : UInt16) : ℤ :=
  if msgType = 1 then
    if actionType = actionTypeCommand then 2
    else if actionType = actionTypeResponse then 4
    else -1
  else if msgType = 0 then
    if actionType = actionTypeCommand then 2
    else if actionType = actionTypeResponse then 2
    else -1
  else if msgType = 2 then
    if actionType = actionTypeCommand then 0
    else if actionType = actionTypeResponse then 4
    else -1
  else -1

/-- `STRGY_MSG_PAYLOAD_LEN`. -/
def strgyMsgPayloadLen (msgType actionType : UInt16) : ℤ :=
  if msgType = 0 then
    if actionType = actionTypeCommand then 2
    else if actionType = actionTypeResponse then 4
    else -1
  else if msgType = 1 then
    if actionType = actionTypeCommand then 0
    else if actionType = actionTypeResponse then 4
    else -1
  else -1

/-- `SESS_MSG_PAYLOAD_LEN`. -/
def sessMsgPayloadLen (msgType actionType ipVersion : UInt16) : ℤ :=
  if msgType = sessMsgClose then
    if actionType = actionTypeCommand then 0
    else if actionType = actionTypeResponse then 2
    else -1
  else if msgType = sessMsgCreate then
    if actionType = actionTypeResponse then 2
    else if actionType = actionTypeCommand then
      if ipVersion = sessIpv4Proto then 10
      else if ipVersion = sessIpv6Proto then 22
      else -1
    else -1
  else -1

/-- An `int` converted to `size_t`. -/
def toSizeT (x : ℤ) : ℕ := (x % 2 ^ 64).toNat

/-! ### Builders -/

/-- The bytes of a payload, none for the null pointer. -/
def payloadBytes (payload : Option (List UInt8)) : List UInt8 := payload.getD []

/-- A message with an `AdminMsgHeader` and a payload whose length is fixed by its
type: the length is checked twice, then header and payload are written. -/
def buildAdminMessage (corrLen : ℕ) (hdr : AdminMsgHeader) (payload : Option (List UInt8))
    (m : Mem) (msg : ℕ) : ProcessRet × Mem :=
  let payloadLen := (payloadBytes payload).length
  if payloadLen ≠ corrLen then (.error, m)
  else if payloadLen ≠ hdr.payloadLen.toNat then (.error, m)
  else
    let m := { hdr with payloadLen := UInt16.ofNat payloadLen }.write m msg
    (.ok, store m (msg + innerHdrSize) (payloadBytes payload))

/-- `build_proxy_dev_message`. -/
def buildProxyDevMessage (hdr : DevMsgHeader) (payload : Option (List UInt8)) (m : Mem)
    (msg : ℕ) : ProcessRet × Mem :=
  buildAdminMessage (toSizeT (devMsgPayloadLen hdr.msgType hdr.actionType)) hdr payload m msg

/-- `build_proxy_strgy_message`. -/
def buildProxyStrgyMessage (hdr : StrgyMsgHeader) (payload : Option (List UInt8)) (m : Mem)
    (msg : ℕ) : ProcessRet × Mem :=
  buildAdminMessage (toSizeT (strgyMsgPayloadLen hdr.msgType hdr.actionType)) hdr payload m msg

/-- `build_proxy_sess_message`: unlike the other two it insists on a null pointer
for an empty payload. -/
def buildProxySessMessage (hdr : SessMsgHeader) (payload : Option (List UInt8)) (m : Mem)
    (msg : ℕ) : ProcessRet × Mem :=
  let payloadLen := (payloadBytes payload).length
  if payloadLen ≠ toSizeT (sessMsgPayloadLen hdr.msgType hdr.actionType hdr.ipVersion) then
    (.error, m)
  else if payloadLen ≠ hdr.payloadLen.toNat then (.error, m)
  else
    let m := hdr.write m msg
    if payloadLen = 0 then
      match payload with
      | none => (.ok, m)
      | some _ => (.error, m)
    else (.ok, store m (msg + innerHdrSize) (payloadBytes payload))

/-- A copy into the message buffer; there is no result when it runs past the end. -/
def copyToBuf (m : Mem) (a : ℕ) (bytes : List UInt8) : Option Mem :=
  if a + bytes.length ≤ msgBufSize then some (store m a bytes) else none

/-- `build_proxy_data_message`. -/
def buildProxyDataMessage (payload : Option (List UInt8)) (m : Mem) (msg : ℕ) :
    Option (ProcessRet × Mem) := do
  let m ← copyToBuf m msg (payloadBytes payload)
  return (.ok, m)

/-- The number of address bytes an IoT message carries: the size of the address
structure, or the valid part if that is given and shorter. -/
def addrInfoLen (proto : IotProtoType) (iotAddrLen : UInt16) : ℕ :=
  if 0 < iotAddrLen.toNat ∧ iotAddrLen.toNat < getIotAddrLength proto then iotAddrLen.toNat
  else getIotAddrLength proto

/-- `build_proxy_iot_message`: of the given header only the protocol is sent. -/
def buildProxyIotMessage (header : GeneralProxyMsgHeader) (payload : Option (List UInt8))
    (m : Mem) (msg : ℕ) : Option (ProcessRet × Mem) :=
  match payload with
  | none => some (.error, m)
  | some payload =>
      let protoType := header.innerHeader.iotHdr.protoType
      let m := writeU16 m (msg + 6) 0
      let m := writeU16 m (msg + 4) 0
      let m := writeU16 m (msg + 2) protoType
      let m := writeU16 m msg 0
      let m := writeU16 m (msg + 10) 0
      match IotProtoType.ofCode? protoType with
      | none => some (.error, m)
      | some proto => do
          let addrLen := addrInfoLen proto header.iotAddrLen
          let m ← copyToBuf m (msg + iotHdrSize) (header.addrInfo.toList.take addrLen)
          let m ← copyToBuf m (msg + iotHdrSize + addrLen) payload
          return (.ok, writeU16 m (msg + 8) (UInt16.ofNat (payload.length + addrLen)))

/-- The inner header size that `build_proxy_general_message` adds to the payload
length; for an IoT message it counts the whole address structure. -/
def innerSize (header : GeneralProxyMsgHeader) : Option ℕ :=
  match ProxyMsgType.ofCode? header.outerHeader.proxyMsgType with
  | some .dev => some innerHdrSize
  | some .strgy => some innerHdrSize
  | some .sess => some innerHdrSize
  | some .data => some 0
  | some .iot =>
      (IotProtoType.ofCode? header.innerHeader.iotHdr.protoType).map fun proto =>
        iotHdrSize + getIotAddrLength proto
  | none => none

/-- The builder of a message type, writing after the outer header. -/
def buildInner (header : GeneralProxyMsgHeader) (payload : Option (List UInt8)) (m : Mem)
    (msg : ℕ) : Option (ProcessRet × Mem) :=
  match ProxyMsgType.ofCode? header.outerHeader.proxyMsgType with
  | some .dev => some (buildProxyDevMessage header.innerHeader.devHdr payload m msg)
  | some .strgy => some (buildProxyStrgyMessage header.innerHeader.strgyHdr payload m msg)
  | some .sess => some (buildProxySessMessage header.innerHeader.sessHdr payload m msg)
  | some .data => buildProxyDataMessage payload m msg
  | some .iot => buildProxyIotMessage header payload m msg
  | none => some (.error, m)

/-- The zeroed buffer with the outer header in it, up to its length field. -/
def outerBuf (outer : ProxyMsgHeader) : Mem :=
  let buf := store (fun _ => 0) 0 [outer.version, outer.proxyMsgType]
  let buf := writeU16 buf 2 outer.frontendSessId
  writeU16 buf 4 outer.backendSessId

/-- The part of `build_proxy_general_message` that fills the buffer: the return
code and, on success, the bytes to be enqueued. -/
def fillMessage (header : GeneralProxyMsgHeader) (payload : Option (List UInt8)) :
    Option (ProcessRet × List UInt8) :=
  match innerSize header with
  | none => some (.error, [])
  | some inner => do
      let (ret, buf) ← buildInner header payload (outerBuf header.outerHeader) proxyMsgHdrSize
      if ret ≠ .ok then return (.error, [])
      else
        let payloadLen := (payloadBytes payload).length
        let buf := writeU16 buf 6 (UInt16.ofNat (payloadLen + inner))
        return (.ok, load buf 0 (payloadLen + inner + proxyMsgHdrSize))

/-- `build_proxy_general_message` with the answer of `hyperamp_queue_enqueue` as a
function of the message. On success the second component is the message that is
now in the queue. -/
def buildProxyGeneralMessage (enqueue : List UInt8 → HyperampRet)
    (header : GeneralProxyMsgHeader) (payload : Option (List UInt8)) :
    Option (ProcessRet × Option (List UInt8)) :=
  match fillMessage header payload with
  | none => none
  | some (.ok, bytes) =>
      match enqueue bytes with
      | .ok => some (.ok, some bytes)
      | .again => some (.again, none)
      | .error => some (.error, none)
  | some (_, _) => some (.error, none)

end Frontend
