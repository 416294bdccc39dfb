import Sel4Test.Frontend.RoundTrip

/-!
IoT messages from the builder to the session.

`frontend_proxy_iot_msg_process` hands a message to the handler of its protocol.
The Bluetooth, CAN and ModbusTCP handlers deliver the address structure and a
pointer to the payload to the session, with a length that they compute as the
payload length of the IoT header less `sizeof(sizeof(address))`. That is the size
of a `size_t`, not of the address.

* `built_iot_block`: what the processor finds in a block that was built: as many bytes
  of the address as `iot_addr_len` asks for, the payload, and zeroes up to the length
  that counts the whole address structure.
* `iot_delivery`: what the handlers deliver of it. When the whole address structure
  was sent, as all callers ask, an empty payload is refused and one of `p` bytes is
  delivered with the length `p + 12` for Bluetooth, `p - 1` for CAN and `p + 3` for
  ModbusTCP.
* `iot_exact_iff`: hence no message of these protocols is delivered as it was sent,
  but for one coincidence: with `iot_addr_len` eight the lengths agree, and where
  address and payload are zero beyond these eight bytes so do the bytes.
-/

namespace Frontend

open ByteMem Hyperamp

/-! ### The handlers -/

/-- What reaches `recv_from_backend` of an IoT session: the address of the
`IotMsgBuffer` and the bytes that its `data` and `len` span. -/
structure IotDelivery where
  addr : List UInt8
  payload : List UInt8
  deriving DecidableEq, Repr

/-- `sizeof(sizeof(x))` on a 64-bit target. -/
def sizeofSizeT : ℕ := 8

/-- A handler that delivers: Bluetooth, CAN and ModbusTCP differ only in the size
of the address. The payload length is above that size, hence at least eight, so
the subtraction does not wrap. -/
def deliverIotMsg (addrSize : ℕ) (sess : Bool) (hdr : IotMsgHeader) (m : Mem) (iotData : ℕ) :
    ProcessRet × Option IotDelivery :=
  if hdr.payloadLen.toNat ≤ addrSize then (.error, none)
  else if sess = false then (.error, none)
  else
    (.ok, some
      { addr := load m iotData addrSize
        payload := load m (iotData + addrSize) (hdr.payloadLen.toNat - sizeofSizeT) })

/-- `frontend_proxy_bluetooth_msg_process`. -/
def frontendProxyBluetoothMsgProcess (sess : Bool) (hdr : IotMsgHeader) (m : Mem) (iotData : ℕ) :
    ProcessRet × Option IotDelivery :=
  deliverIotMsg (getIotAddrLength .bluetooth) sess hdr m iotData

/-- `frontend_proxy_can_msg_process`. -/
def frontendProxyCanMsgProcess (sess : Bool) (hdr : IotMsgHeader) (m : Mem) (iotData : ℕ) :
    ProcessRet × Option IotDelivery :=
  deliverIotMsg (getIotAddrLength .can) sess hdr m iotData

/-- `frontend_proxy_modbustcp_msg_process`. -/
def frontendProxyModbustcpMsgProcess (sess : Bool) (hdr : IotMsgHeader) (m : Mem) (iotData : ℕ) :
    ProcessRet × Option IotDelivery :=
  deliverIotMsg (getIotAddrLength .modbustcp) sess hdr m iotData

/-- The ZigBee, LoRa and PowerLink handlers only check that a session exists. -/
def acceptIotMsg (sess : Bool) : ProcessRet × Option IotDelivery :=
  if sess = false then (.error, none) else (.ok, none)

/-- `frontend_proxy_iot_msg_process`; `sess` says which protocols have a session,
`msgLen` is the payload length of the outer header. -/
def frontendProxyIotMsgProcess (sess : IotProtoType → Bool) (msgLen : ℕ) (m : Mem) (msg : ℕ) :
    ProcessRet × Option IotDelivery :=
  let hdr := IotMsgHeader.read m msg
  let iotData := msg + iotHdrSize
  match IotProtoType.ofCode? hdr.protoType with
  | none => (.error, none)
  | some proto =>
      if msgLen < iotHdrSize + getIotAddrLength proto then (.error, none)
      else
        match proto with
        | .bluetooth => frontendProxyBluetoothMsgProcess (sess .bluetooth) hdr m iotData
        | .can => frontendProxyCanMsgProcess (sess .can) hdr m iotData
        | .zigbee => acceptIotMsg (sess .zigbee)
        | .lora => acceptIotMsg (sess .lora)
        | .powerlink => acceptIotMsg (sess .powerlink)
        | .modbustcp => frontendProxyModbustcpMsgProcess (sess .modbustcp) hdr m iotData

/-- The IoT branch of `frontend_proxy_msg_process` on the block at `msg`. -/
def processIotBlock (sess : IotProtoType → Bool) (m : Mem) (msg : ℕ) :
    ProcessRet × Option IotDelivery :=
  frontendProxyIotMsgProcess sess (ProxyMsgHeader.read m msg).payloadLen.toNat m
    (msg + proxyMsgHdrSize)

/-- The protocols whose handlers deliver. -/
def Delivering (proto : IotProtoType) : Prop :=
  proto = .bluetooth ∨ proto = .can ∨ proto = .modbustcp

/-! ### What the builder writes -/

variable {m m' : Mem} {a : ℕ} {header : GeneralProxyMsgHeader} {proto : IotProtoType}
  {payload : List UInt8} {bytes : List UInt8}

lemma getIotAddrLength_le (proto : IotProtoType) : getIotAddrLength proto ≤ addrInfoSize := by
  cases proto <;> decide

lemma addrInfoLen_le (proto : IotProtoType) (x : UInt16) :
    addrInfoLen proto x ≤ getIotAddrLength proto := by
  rw [addrInfoLen]
  split_ifs <;> omega

/-- The address of a message, the structure of its protocol. -/
def sentAddr (header : GeneralProxyMsgHeader) (proto : IotProtoType) : List UInt8 :=
  header.addrInfo.toList.take (getIotAddrLength proto)

/-- The part of the address that `build_proxy_iot_message` copies. -/
def carriedAddr (header : GeneralProxyMsgHeader) (proto : IotProtoType) : List UInt8 :=
  header.addrInfo.toList.take (addrInfoLen proto header.iotAddrLen)

@[simp]
lemma length_sentAddr (header : GeneralProxyMsgHeader) (proto : IotProtoType) :
    (sentAddr header proto).length = getIotAddrLength proto := by
  have hle := getIotAddrLength_le proto
  rw [addrInfoSize] at hle
  rw [sentAddr, List.length_take, Vector.length_toList, Nat.min_eq_left hle]

lemma carriedAddr_eq (header : GeneralProxyMsgHeader) (proto : IotProtoType) :
    carriedAddr header proto =
      (sentAddr header proto).take (addrInfoLen proto header.iotAddrLen) := by
  rw [sentAddr, List.take_take, Nat.min_eq_left (addrInfoLen_le proto header.iotAddrLen)]
  rfl

@[simp]
lemma length_carriedAddr (header : GeneralProxyMsgHeader) (proto : IotProtoType) :
    (carriedAddr header proto).length = addrInfoLen proto header.iotAddrLen := by
  rw [carriedAddr_eq, List.length_take, length_sentAddr,
    Nat.min_eq_left (addrInfoLen_le proto header.iotAddrLen)]

/-- A successful IoT builder wrote the protocol, the carried part of the address, the
payload and the sum of their lengths, and nothing after them. -/
lemma buildProxyIotMessage_ok {sent : Option (List UInt8)} {msg : ℕ}
    (hproto : IotProtoType.ofCode? header.innerHeader.iotHdr.protoType = some proto)
    (h : buildProxyIotMessage header sent m msg = some (.ok, m')) :
    ∃ data hdrs, sent = some data ∧
      msg + iotHdrSize + addrInfoLen proto header.iotAddrLen + data.length ≤ msgBufSize ∧
      readU16 hdrs (msg + 2) = header.innerHeader.iotHdr.protoType ∧
      (∀ i, msg + iotHdrSize ≤ i → hdrs i = m i) ∧
      m' = writeU16 (store (store hdrs (msg + iotHdrSize) (carriedAddr header proto))
          (msg + iotHdrSize + addrInfoLen proto header.iotAddrLen) data)
        (msg + 8) (UInt16.ofNat (data.length + addrInfoLen proto header.iotAddrLen)) := by
  cases sent with
  | none => simp [buildProxyIotMessage] at h
  | some data =>
      simp only [buildProxyIotMessage, hproto] at h
      obtain ⟨m₁, hcopy₁, h⟩ := Option.bind_eq_some_iff.mp h
      obtain ⟨m₂, hcopy₂, h⟩ := Option.bind_eq_some_iff.mp h
      obtain ⟨-, rfl⟩ := copyToBuf_some hcopy₁
      obtain ⟨hfits, rfl⟩ := copyToBuf_some hcopy₂
      simp only [pure, Option.some.injEq, Prod.mk.injEq, true_and] at h
      refine ⟨data, _, rfl, hfits, ?_, ?_, h.symm⟩
      · simp (disch := omega) only [readU16_writeU16_disjoint, readU16_writeU16]
      · intro i hi
        rw [iotHdrSize] at hi
        simp (disch := omega) only [writeU16_of_outside]

/-- The buffer after its outer header is zeroed. -/
lemma outerBuf_eq_zero (outer : ProxyMsgHeader) {i : ℕ} (h : 6 ≤ i) : outerBuf outer i = 0 := by
  rw [outerBuf]
  simp (disch := omega) only [writeU16_of_outside]
  exact store_of_outside (.inr (Nat.le_trans (by simp) h))

section Built

variable {enqueue : List UInt8 → HyperampRet}
  (hbuild : buildProxyGeneralMessage enqueue header (some payload) = some (.ok, some bytes))
  (htype : ProxyMsgType.ofCode? header.outerHeader.proxyMsgType = some .iot)
  (hproto : IotProtoType.ofCode? header.innerHeader.iotHdr.protoType = some proto)
  (hblock : load m a bytes.length = bytes)

include hbuild htype hproto hblock

/-- What the processor finds in a copy of a built message: the outer length, the
protocol, the length of the carried address and the payload together, and these two,
with zeroes up to the length that counts the whole address. -/
lemma built_iot_block :
    readU16 m (a + 6) =
        UInt16.ofNat (payload.length + (iotHdrSize + getIotAddrLength proto)) ∧
      readU16 m (a + 10) = header.innerHeader.iotHdr.protoType ∧
      readU16 m (a + 16) =
        UInt16.ofNat (payload.length + addrInfoLen proto header.iotAddrLen) ∧
      load m (a + 20) (getIotAddrLength proto + payload.length) =
        carriedAddr header proto ++ payload ++
          List.replicate (getIotAddrLength proto - addrInfoLen proto header.iotAddrLen) 0 ∧
      payload.length + addrInfoLen proto header.iotAddrLen + 20 ≤ msgBufSize := by
  obtain ⟨inner, buf, hsize, hinner, rfl⟩ := buildProxyGeneralMessage_ok hbuild
  obtain rfl : inner = iotHdrSize + getIotAddrLength proto := by
    simpa [innerSize, htype, hproto] using hsize.symm
  simp only [buildInner, htype] at hinner
  obtain ⟨data, hdrs, hsent, hfits, hcode, hrest, rfl⟩ := buildProxyIotMessage_ok hproto hinner
  obtain rfl : payload = data := Option.some.inj hsent
  have hle := addrInfoLen_le proto header.iotAddrLen
  have hlen := length_carriedAddr header proto
  simp only [payloadBytes, Option.getD_some, iotHdrSize, proxyMsgHdrSize, length_load]
    at hblock hfits hcode hrest ⊢
  generalize addrInfoLen proto header.iotAddrLen = x at *
  -- the words and the address of the copy are those of the buffer
  have h6 := readU16_of_load_eq 6 hblock (by omega)
  have h10 := readU16_of_load_eq 10 hblock (by omega)
  have h16 := readU16_of_load_eq 16 hblock (by omega)
  have h20 : load m (a + 20) (getIotAddrLength proto + payload.length) = load _ (0 + 20) _ :=
    load_of_load_eq hblock (by omega)
  simp only [Nat.zero_add] at h6 h10 h16 h20
  refine ⟨?_, ?_, ?_, ?_, by omega⟩
  · rw [h6, readU16_writeU16]
  · rw [h10, readU16_writeU16_disjoint (by omega), readU16_writeU16_disjoint (by omega),
      readU16_store_disjoint (by omega), readU16_store_disjoint (by omega), hcode]
  · rw [h16, readU16_writeU16_disjoint (by omega), readU16_writeU16]
  · -- the three parts of the body, one after the other
    have hsplit : getIotAddrLength proto + payload.length =
        x + payload.length + (getIotAddrLength proto - x) := by omega
    have hzero : ∀ i < getIotAddrLength proto - x,
        store (store hdrs 20 (carriedAddr header proto)) (20 + x) payload
          (20 + (x + payload.length) + i) = 0 := by
      intro i _
      rw [store_of_outside (by omega), store_of_outside (by omega), hrest _ (by omega),
        outerBuf_eq_zero _ (by omega)]
    rw [h20, load_writeU16_disjoint (by omega), load_writeU16_disjoint (by omega), hsplit,
      load_add, load_add, load_store_same, load_store_disjoint (by omega), ← hlen,
      load_store_same, hlen, load_eq_replicate hzero]

/-- **What is delivered** of a built message: with a session, and a length that
passes the handler's check, the address structure and, from its end on, as many
bytes as the IoT payload length has beyond eight. -/
lemma iot_delivery (sess : IotProtoType → Bool) (hdeliver : Delivering proto) :
    processIotBlock sess m a =
      if payload.length + addrInfoLen proto header.iotAddrLen ≤ getIotAddrLength proto then
        (.error, none)
      else if sess proto = false then (.error, none)
      else (.ok, some
        { addr := load m (a + 20) (getIotAddrLength proto)
          payload := load m (a + 20 + getIotAddrLength proto)
            (payload.length + addrInfoLen proto header.iotAddrLen - sizeofSizeT) }) := by
  obtain ⟨houter, hcode, hlen, -, hfits⟩ := built_iot_block hbuild htype hproto hblock
  have hle := getIotAddrLength_le proto
  rw [msgBufSize] at hfits
  rw [addrInfoSize] at hle
  have hlen' : (readU16 m (a + 16)).toNat =
      payload.length + addrInfoLen proto header.iotAddrLen := by
    rw [hlen, UInt16.toNat_ofNat', Nat.mod_eq_of_lt (by omega)]
  have houter' : ¬ (readU16 m (a + 6)).toNat < iotHdrSize + getIotAddrLength proto := by
    rw [houter, UInt16.toNat_ofNat', iotHdrSize, Nat.mod_eq_of_lt (by omega)]
    omega
  simp only [processIotBlock, frontendProxyIotMsgProcess, IotMsgHeader.read,
    ProxyMsgHeader.read, proxyMsgHdrSize, iotHdrSize, Nat.add_assoc, Nat.reduceAdd] at houter' ⊢
  rw [hcode, hproto]
  rcases hdeliver with rfl | rfl | rfl
  · simp only [if_neg houter', frontendProxyBluetoothMsgProcess, deliverIotMsg, hlen',
      Nat.add_assoc]
  · simp only [if_neg houter', frontendProxyCanMsgProcess, deliverIotMsg, hlen',
      Nat.add_assoc]
  · simp only [if_neg houter', frontendProxyModbustcpMsgProcess, deliverIotMsg, hlen',
      Nat.add_assoc]

end Built

/-! ### When the delivery is exact -/

/-- A list that is its own tail with zeroes at the end is all zero. -/
lemma eq_zero_of_shift {l : List UInt8} {k : ℕ} (hk : 0 < k)
    (h : l.drop k ++ List.replicate k 0 = l) : ∀ b ∈ l, b = 0 := by
  -- from the last element to the first: the element `k` further on is the same
  have hget : ∀ n i (hi : i < l.length), l.length - i = n → l[i] = 0 := by
    intro n
    induction n using Nat.strong_induction_on with
    | _ n ih =>
      intro i hi hn
      have hshift := congrArg (fun l' : List UInt8 => l'[i]?) h
      simp only [List.getElem?_append, List.length_drop, List.getElem?_drop,
        List.getElem?_eq_getElem hi] at hshift
      split_ifs at hshift with hfront
      · have hlater := ih (l.length - (k + i)) (by omega) (k + i) (by omega) rfl
        rw [List.getElem?_eq_getElem (by omega), hlater] at hshift
        exact (Option.some.inj hshift).symm
      · rw [List.getElem?_replicate, if_pos (by omega)] at hshift
        exact (Option.some.inj hshift).symm
  intro b hb
  obtain ⟨i, hi, rfl⟩ := List.getElem_of_mem hb
  exact hget _ i hi rfl

/-- The first `x + k` bytes of a body are the address and the rest the payload, although
`k` bytes of the address are missing, exactly if all these bytes are zero. -/
lemma body_exact_iff (addr payload : List UInt8) {x k : ℕ} (hlen : addr.length = x + k)
    (hk : 0 < k) (hpay : k ≤ payload.length) :
    ((addr.take x ++ payload ++ List.replicate k 0).take (x + k) = addr ∧
        (addr.take x ++ payload ++ List.replicate k 0).drop (x + k) = payload) ↔
      (∀ b ∈ payload, b = 0) ∧ ∀ b ∈ addr.drop x, b = 0 := by
  have hx : (addr.take x).length = x := by
    rw [List.length_take]
    omega
  have htake : (addr.take x ++ payload ++ List.replicate k 0).take (x + k) =
      addr.take x ++ payload.take k := by
    rw [List.append_assoc, List.take_append, hx, List.take_of_length_le (by omega),
      List.take_append_of_le_length (by omega), Nat.add_sub_cancel_left]
  have hdrop : (addr.take x ++ payload ++ List.replicate k 0).drop (x + k) =
      payload.drop k ++ List.replicate k 0 := by
    rw [List.append_assoc, List.drop_append, hx, List.drop_of_length_le (by omega),
      List.nil_append, Nat.add_sub_cancel_left, List.drop_append_of_le_length hpay]
  rw [htake, hdrop]
  constructor
  · rintro ⟨haddr, hshift⟩
    have hzero := eq_zero_of_shift hk hshift
    refine ⟨hzero, ?_⟩
    have hrest : payload.take k = addr.drop x := by
      refine List.append_cancel_left (?_ : addr.take x ++ _ = addr.take x ++ _)
      rw [haddr, List.take_append_drop]
    rw [← hrest]
    exact fun b hb => hzero b (List.mem_of_mem_take hb)
  · rintro ⟨hpayload, haddr⟩
    have hp := List.eq_replicate_iff.mpr ⟨rfl, hpayload⟩
    have ha := List.eq_replicate_iff.mpr ⟨rfl, haddr⟩
    constructor
    · conv_rhs => rw [← List.take_append_drop x addr, ha]
      rw [hp, List.take_replicate, List.length_drop, hlen, Nat.min_eq_left hpay,
        Nat.add_sub_cancel_left]
    · rw [hp, List.drop_replicate, ← List.replicate_add, Nat.sub_add_cancel hpay]

/-- The carried address has eight bytes if it is cut to them, which a CAN address is
not. -/
lemma addrInfoLen_eq_eight (hdeliver : Delivering proto) (v : UInt16) :
    addrInfoLen proto v = sizeofSizeT ↔ v = 8 ∧ proto ≠ .can := by
  have hv : v = 8 ↔ v.toNat = 8 := by
    rw [← UInt16.toNat_inj]
    rfl
  have hsize : getIotAddrLength proto ≠ 8 ∧ (8 < getIotAddrLength proto ↔ proto ≠ .can) := by
    rcases hdeliver with rfl | rfl | rfl <;> decide
  rw [addrInfoLen, hv, sizeofSizeT, ← hsize.2]
  split_ifs <;> omega

/-- **When an IoT message is delivered as it was sent.** Take any Bluetooth, CAN or
ModbusTCP message that was built, and a copy of its block at any address. The session
gets the address and the payload of the message exactly if `iot_addr_len` is eight and
cuts the address, the protocol has a session, the payload is longer than what is cut,
and the payload and what is cut of the address are all zeroes. -/
theorem iot_exact_iff (enqueue : List UInt8 → HyperampRet) (header : GeneralProxyMsgHeader)
    (proto : IotProtoType) (payload bytes : List UInt8)
    (hbuild : buildProxyGeneralMessage enqueue header (some payload) = some (.ok, some bytes))
    (htype : ProxyMsgType.ofCode? header.outerHeader.proxyMsgType = some .iot)
    (hproto : IotProtoType.ofCode? header.innerHeader.iotHdr.protoType = some proto)
    (hdeliver : Delivering proto) (sess : IotProtoType → Bool) (m : Mem) (a : ℕ)
    (hblock : load m a bytes.length = bytes) :
    (processIotBlock sess m a).2 = some ⟨sentAddr header proto, payload⟩ ↔
      header.iotAddrLen = 8 ∧ proto ≠ .can ∧ sess proto = true ∧
        getIotAddrLength proto < payload.length + 8 ∧ (∀ b ∈ payload, b = 0) ∧
        ∀ b ∈ (sentAddr header proto).drop 8, b = 0 := by
  obtain ⟨-, -, -, hbody, -⟩ := built_iot_block hbuild htype hproto hblock
  have hsize := addrInfoLen_eq_eight hdeliver header.iotAddrLen
  have hle := addrInfoLen_le proto header.iotAddrLen
  rw [iot_delivery hbuild htype hproto hblock sess hdeliver]
  rw [carriedAddr_eq] at hbody
  -- the delivered payload has the length of the one that was sent only for eight bytes
  by_cases hx : addrInfoLen proto header.iotAddrLen = sizeofSizeT
  · obtain ⟨hlen, hcan⟩ := hsize.mp hx
    rw [hx] at hbody hle ⊢
    have hne : getIotAddrLength proto ≠ 8 := by
      rcases hdeliver with rfl | rfl | rfl <;> simp [getIotAddrLength]
    rw [sizeofSizeT] at hbody hle ⊢
    split_ifs with hshort hsess
    · simp
      omega
    · simp [hsess]
    · have haddr : load m (a + 20) (getIotAddrLength proto) =
          (load m (a + 20) (getIotAddrLength proto + payload.length)).take
            (8 + (getIotAddrLength proto - 8)) := by
        rw [take_load]
        congr 1
        omega
      have hpay : load m (a + 20 + getIotAddrLength proto) (payload.length + 8 - 8) =
          (load m (a + 20) (getIotAddrLength proto + payload.length)).drop
            (8 + (getIotAddrLength proto - 8)) := by
        rw [drop_load]
        congr 1
        · omega
        · omega
      have hexact := body_exact_iff (sentAddr header proto) payload (x := 8)
        (k := getIotAddrLength proto - 8) (by rw [length_sentAddr]; omega) (by omega) (by omega)
      rw [haddr, hpay, hbody, Option.some.injEq, IotDelivery.mk.injEq, hexact]
      simp only [hlen, true_and]
      constructor
      · exact fun hzero => ⟨hcan, by simpa using hsess, by omega, hzero⟩
      · exact fun h => h.2.2.2
  · constructor
    · intro h
      exfalso
      split_ifs at h with hshort
      have hpayload := congrArg (fun d => d.payload.length) (Option.some.inj h)
      simp only [length_load, sizeofSizeT] at hpayload hx
      have hseven : 7 ≤ getIotAddrLength proto := by cases proto <;> decide
      omega
    · rintro ⟨hlen, hcan, -⟩
      exact absurd (hsize.mpr ⟨hlen, hcan⟩) hx

/-- The header of a ModbusTCP message whose address is cut to eight bytes. -/
def modbusHeader : GeneralProxyMsgHeader :=
  ⟨⟨1, 4, 0, 0, 0⟩, ⟨0, 6, 0, 0, 0, 0⟩,
    #v[192, 168, 0, 9, 1, 246, 0, 1, 0, 0, 0, 0, 0, 0, 0, 0, 0, 0, 0, 0], 8⟩

/-- Its block with four zeroes for payload. -/
def modbusBlock : List UInt8 :=
  [1, 4, 0, 0, 0, 0, 27, 0, 0, 0, 6, 0, 0, 0, 0, 0, 12, 0, 0, 0, 192, 168, 0, 9, 1, 246, 0, 1,
    0, 0, 0, 0, 0, 0, 0]

/-- Four zeroes are delivered exactly. -/
theorem iot_exact_zeroes :
    buildProxyGeneralMessage (fun _ => .ok) modbusHeader (some [0, 0, 0, 0]) =
        some (.ok, some modbusBlock) ∧
      (processIotBlock (fun _ => true) (store (fun _ => 0) 0 modbusBlock) 0).2 =
        some ⟨sentAddr modbusHeader .modbustcp, [0, 0, 0, 0]⟩ := by
  have hbuild : buildProxyGeneralMessage (fun _ => .ok) modbusHeader (some [0, 0, 0, 0]) =
      some (.ok, some modbusBlock) := by decide +kernel
  have hcut : (sentAddr modbusHeader .modbustcp).drop 8 = [0, 0, 0] := by decide
  refine ⟨hbuild, ?_⟩
  exact (iot_exact_iff _ _ .modbustcp _ _ hbuild (by decide) (by decide) (.inr (.inr rfl)) _ _ _
    (load_store_same _ _ _)).mpr
      ⟨rfl, by decide, rfl, by decide, by simp, by simp [hcut]⟩

/-- The header of a CAN message as `can_send_to_backend` fills it in. -/
def canHeader : GeneralProxyMsgHeader :=
  ⟨⟨1, 4, 0, 0, 0⟩, ⟨0, 3, 0, 0, 10, 0⟩, Vector.replicate 20 0, 7⟩

/-- The block of the CAN message with the payload `1, 2, 3`. -/
def canBlock : List UInt8 :=
  [1, 4, 0, 0, 0, 0, 22, 0, 0, 0, 3, 0, 0, 0, 0, 0, 10, 0, 0, 0, 0, 0, 0, 0, 0, 0, 0, 1, 2, 3]

/-- The CAN handler cuts the last byte of the payload off. -/
theorem can_payload_cut :
    buildProxyGeneralMessage (fun _ => .ok) canHeader (some [1, 2, 3]) =
        some (.ok, some canBlock) ∧
      processIotBlock (fun _ => true) (store (fun _ => 0) 0 canBlock) 0 =
        (.ok, some ⟨sentAddr canHeader .can, [1, 2]⟩) ∧
      (processIotBlock (fun _ => true) (store (fun _ => 0) 0 canBlock) 0).2 ≠
        some ⟨sentAddr canHeader .can, [1, 2, 3]⟩ := by
  refine ⟨?_, ?_, ?_⟩ <;> decide +kernel

end Frontend
