import Sel4Test.Frontend.Message

/-!
What the message processors read of a message that the builders wrote.

`parseProxyMsg` collects the fields and offsets that
`frontend_proxy_msg_process` and the device, strategy, session and data
processors of `front/src/frontend_proto.c` use. The strategy processor reads its
header through a pointer that it never sets; what that pointer happens to point
at is the argument `stray`, `none` when it is null.

* `read_write` and `read_congr`: headers are read back, also from a copy of the
  message in other memory.
* `buildProxyGeneralMessage_ok`: what a message in the queue looks like.
* `proxy_round_trip_iff`: a built message is recovered whatever `stray` is, if and
  only if it is not a strategy message.
-/

namespace Frontend

open ByteMem Hyperamp

/-! ### The parser -/

/-- The inner header a processor reads. -/
inductive ParsedInner
  | dev (hdr : DevMsgHeader)
  | strgy (hdr : StrgyMsgHeader)
  | sess (hdr : SessMsgHeader)
  | data
  deriving DecidableEq, Repr

/-- The headers and the payload of a message as its processor sees them. -/
structure ParsedMsg where
  outer : ProxyMsgHeader
  inner : ParsedInner
  payload : List UInt8
  deriving DecidableEq, Repr

/-- The fields that the processors read of the message at address `msg`. -/
def parseProxyMsg (stray : Option StrgyMsgHeader) (m : Mem) (msg : ℕ) : Option ParsedMsg :=
  let outer := ProxyMsgHeader.read m msg
  let body := msg + proxyMsgHdrSize
  match ProxyMsgType.ofCode? outer.proxyMsgType with
  | some .dev =>
      let hdr := AdminMsgHeader.read m body
      some ⟨outer, .dev hdr, load m (body + innerHdrSize) hdr.payloadLen.toNat⟩
  | some .strgy =>
      -- the header comes from the unset pointer, the data from the message
      stray.map fun hdr =>
        ⟨outer, .strgy hdr, load m (body + innerHdrSize) hdr.payloadLen.toNat⟩
  | some .sess =>
      let hdr := SessMsgHeader.read m body
      some ⟨outer, .sess hdr, load m (body + innerHdrSize) hdr.payloadLen.toNat⟩
  | some .data => some ⟨outer, .data, load m body outer.payloadLen.toNat⟩
  | some .iot => none
  | none => none

lemma parseProxyMsg_outer {stray : Option StrgyMsgHeader} {m : Mem} {msg : ℕ} {p : ParsedMsg}
    (h : parseProxyMsg stray m msg = some p) : p.outer = ProxyMsgHeader.read m msg := by
  simp only [parseProxyMsg] at h
  split at h
  · cases h
    rfl
  · obtain ⟨hdr, -, rfl⟩ := Option.map_eq_some_iff.mp h
    rfl
  · cases h
    rfl
  · cases h
    rfl
  · cases h
  · cases h

/-- The strategy processor gives up on a null pointer. -/
lemma parseProxyMsg_null {m : Mem} {msg : ℕ}
    (h : ProxyMsgType.ofCode? (ProxyMsgHeader.read m msg).proxyMsgType = some .strgy) :
    parseProxyMsg none m msg = none := by
  simp [parseProxyMsg, h]

/-! ### Headers read back -/

variable {m m' : Mem} {a b n off : ℕ}

lemma AdminMsgHeader.read_write (h : AdminMsgHeader) (m : Mem) (a : ℕ) :
    AdminMsgHeader.read (h.write m a) a = h := by
  simp (disch := omega) [AdminMsgHeader.read, AdminMsgHeader.write, readU16_writeU16,
    readU16_writeU16_disjoint]

lemma SessMsgHeader.read_write (h : SessMsgHeader) (m : Mem) (a : ℕ) :
    SessMsgHeader.read (h.write m a) a = h := by
  simp (disch := omega) [SessMsgHeader.read, SessMsgHeader.write, readU16_writeU16,
    readU16_writeU16_disjoint]

lemma AdminMsgHeader.write_of_outside {h : AdminMsgHeader} {x : ℕ}
    (hx : x < a ∨ a + innerHdrSize ≤ x) : h.write m a x = m x := by
  rw [innerHdrSize] at hx
  simp only [AdminMsgHeader.write]
  rw [writeU16_of_outside (by omega), writeU16_of_outside (by omega),
    writeU16_of_outside (by omega), writeU16_of_outside (by omega),
    writeU16_of_outside (by omega)]

lemma SessMsgHeader.write_of_outside {h : SessMsgHeader} {x : ℕ}
    (hx : x < a ∨ a + innerHdrSize ≤ x) : h.write m a x = m x :=
  AdminMsgHeader.write_of_outside
    (h := ⟨h.version, h.msgType, h.actionType, h.ipVersion, h.payloadLen⟩) hx

/-- Headers of five words only depend on their ten bytes. -/
lemma AdminMsgHeader.read_congr (h : ∀ i < innerHdrSize, m (a + i) = m' (b + i)) :
    AdminMsgHeader.read m a = AdminMsgHeader.read m' b := by
  have hload : load m a innerHdrSize = load m' b innerHdrSize := by
    rw [load]
    exact List.map_congr_left fun i hi => h i (List.mem_range.mp hi)
  have hword : ∀ off, off + 2 ≤ innerHdrSize → readU16 m (a + off) = readU16 m' (b + off) :=
    fun off hoff => readU16_of_load_eq off hload hoff
  rw [innerHdrSize] at hword
  have h0 := hword 0 (by omega)
  rw [Nat.add_zero, Nat.add_zero] at h0
  rw [AdminMsgHeader.read, AdminMsgHeader.read, h0, hword 2 (by omega), hword 4 (by omega),
    hword 6 (by omega), hword 8 (by omega)]

/-- The session header has the words of the other inner headers. -/
lemma SessMsgHeader.read_eq_admin (m : Mem) (a : ℕ) :
    SessMsgHeader.read m a =
      ⟨(AdminMsgHeader.read m a).version, (AdminMsgHeader.read m a).msgType,
        (AdminMsgHeader.read m a).msgId, (AdminMsgHeader.read m a).actionType,
        (AdminMsgHeader.read m a).payloadLen⟩ := rfl

lemma SessMsgHeader.read_congr (h : ∀ i < innerHdrSize, m (a + i) = m' (b + i)) :
    SessMsgHeader.read m a = SessMsgHeader.read m' b := by
  rw [SessMsgHeader.read_eq_admin, SessMsgHeader.read_eq_admin, AdminMsgHeader.read_congr h]

lemma ProxyMsgHeader.read_congr (h : ∀ i < proxyMsgHdrSize, m (a + i) = m' (b + i)) :
    ProxyMsgHeader.read m a = ProxyMsgHeader.read m' b := by
  have hload : load m a proxyMsgHdrSize = load m' b proxyMsgHdrSize := by
    rw [load]
    exact List.map_congr_left fun i hi => h i (List.mem_range.mp hi)
  have hword : ∀ off, off + 2 ≤ proxyMsgHdrSize → readU16 m (a + off) = readU16 m' (b + off) :=
    fun off hoff => readU16_of_load_eq off hload hoff
  rw [proxyMsgHdrSize] at h hword
  have h0 := h 0 (by omega)
  rw [Nat.add_zero, Nat.add_zero] at h0
  rw [ProxyMsgHeader.read, ProxyMsgHeader.read, h0, h 1 (by omega), hword 2 (by omega),
    hword 4 (by omega), hword 6 (by omega)]

/-! ### What the builders write -/

variable {header : GeneralProxyMsgHeader} {payload : Option (List UInt8)} {bytes : List UInt8}

/-- The outer header is read back from any buffer that starts as `outerBuf` does,
once the length is filled in. -/
lemma read_outer {outer : ProxyMsgHeader} (buf : Mem) (len : UInt16)
    (h : ∀ i < 6, buf i = outerBuf outer i) :
    ProxyMsgHeader.read (writeU16 buf 6 len) 0 = { outer with payloadLen := len } := by
  have hbyte : ∀ i < 6, writeU16 buf 6 len i = outerBuf outer i := by
    intro i hi
    rw [writeU16_of_outside (by omega), h i hi]
  have hword : ∀ off, off + 2 ≤ 6 →
      readU16 (writeU16 buf 6 len) off = readU16 (outerBuf outer) off := by
    intro off hoff
    rw [readU16, readU16, readLE_congr fun i hi => hbyte (off + i) (by omega)]
  apply ProxyMsgHeader.ext
  · exact hbyte 0 (by omega)
  · exact hbyte 1 (by omega)
  · refine (hword 2 (by omega)).trans ?_
    rw [outerBuf, readU16_writeU16_disjoint (by omega), readU16_writeU16]
  · refine (hword 4 (by omega)).trans ?_
    rw [outerBuf, readU16_writeU16]
  · exact readU16_writeU16 _ _ _

/-- The length that the device table gives is at most four bytes, or the invalid
length. -/
lemma devMsgPayloadLen_cases (t x : UInt16) :
    devMsgPayloadLen t x = -1 ∨ devMsgPayloadLen t x = 0 ∨ devMsgPayloadLen t x = 2 ∨
      devMsgPayloadLen t x = 4 := by
  simp only [devMsgPayloadLen]
  split_ifs <;> simp

lemma sessMsgPayloadLen_cases (t x v : UInt16) :
    sessMsgPayloadLen t x v = -1 ∨ sessMsgPayloadLen t x v = 0 ∨ sessMsgPayloadLen t x v = 2 ∨
      sessMsgPayloadLen t x v = 10 ∨ sessMsgPayloadLen t x v = 22 := by
  simp only [sessMsgPayloadLen]
  split_ifs <;> simp

/-- A successful admin builder wrote the header and the payload after it. -/
lemma buildAdminMessage_ok {corrLen : ℕ} {hdr : AdminMsgHeader} {msg : ℕ}
    (h : buildAdminMessage corrLen hdr payload m msg = (.ok, m')) :
    (payloadBytes payload).length = corrLen ∧
      (payloadBytes payload).length = hdr.payloadLen.toNat ∧
      m' = store (hdr.write m msg) (msg + innerHdrSize) (payloadBytes payload) := by
  simp only [buildAdminMessage] at h
  split_ifs at h with hcorr hlen
  · simp at h
  · simp at h
  · push Not at hcorr hlen
    obtain ⟨-, rfl⟩ := Prod.mk.inj h
    refine ⟨hcorr, hlen, ?_⟩
    rw [hlen, UInt16.ofNat_toNat]

/-- A successful session builder wrote the header and the payload after it. -/
lemma buildProxySessMessage_ok {hdr : SessMsgHeader} {msg : ℕ}
    (h : buildProxySessMessage hdr payload m msg = (.ok, m')) :
    (payloadBytes payload).length =
        toSizeT (sessMsgPayloadLen hdr.msgType hdr.actionType hdr.ipVersion) ∧
      (payloadBytes payload).length = hdr.payloadLen.toNat ∧
      m' = store (hdr.write m msg) (msg + innerHdrSize) (payloadBytes payload) := by
  simp only [buildProxySessMessage] at h
  split_ifs at h with hcorr hlen hzero
  · simp at h
  · simp at h
  · push Not at hcorr hlen
    have hnil : payloadBytes payload = [] := List.length_eq_zero_iff.mp hzero
    cases payload with
    | none =>
        obtain ⟨-, rfl⟩ := Prod.mk.inj h
        refine ⟨hcorr, hlen, ?_⟩
        rw [hnil, store_nil]
    | some bytes => simp at h
  · push Not at hcorr hlen
    obtain ⟨-, rfl⟩ := Prod.mk.inj h
    exact ⟨hcorr, hlen, rfl⟩

/-- A copy into the buffer that succeeds is a store. -/
lemma copyToBuf_some (h : copyToBuf m a bytes = some m') :
    a + bytes.length ≤ msgBufSize ∧ m' = store m a bytes := by
  rw [copyToBuf] at h
  split_ifs at h with hfits
  exact ⟨hfits, (Option.some.inj h).symm⟩

/-- A successful data builder wrote the payload, and it fits the buffer. -/
lemma buildProxyDataMessage_ok {msg : ℕ}
    (h : buildProxyDataMessage payload m msg = some (.ok, m')) :
    msg + (payloadBytes payload).length ≤ msgBufSize ∧
      m' = store m msg (payloadBytes payload) := by
  obtain ⟨buf, hcopy, hret⟩ := Option.bind_eq_some_iff.mp h
  obtain rfl : buf = m' := by simpa using hret
  exact copyToBuf_some hcopy

/-- A message in the queue is the buffer that its builder left, with the length
filled in. -/
lemma buildProxyGeneralMessage_ok {enqueue : List UInt8 → HyperampRet}
    (h : buildProxyGeneralMessage enqueue header payload = some (.ok, some bytes)) :
    ∃ inner buf, innerSize header = some inner ∧
      buildInner header payload (outerBuf header.outerHeader) proxyMsgHdrSize =
        some (.ok, buf) ∧
      bytes = load (writeU16 buf 6 (UInt16.ofNat ((payloadBytes payload).length + inner))) 0
        ((payloadBytes payload).length + inner + proxyMsgHdrSize) := by
  have hfill : fillMessage header payload = some (.ok, bytes) := by
    rw [buildProxyGeneralMessage] at h
    split at h
    · simp at h
    · rename_i bytes' hfill
      cases henq : enqueue bytes' with
      | ok =>
          rw [henq] at h
          simp only [Option.some.injEq, Prod.mk.injEq, true_and] at h
          rw [hfill, h]
      | again => rw [henq] at h; simp at h
      | error => rw [henq] at h; simp at h
    · simp at h
  rw [fillMessage] at hfill
  split at hfill
  · simp at hfill
  · rename_i inner hinner
    obtain ⟨⟨ret, buf⟩, hbuild, hrest⟩ := Option.bind_eq_some_iff.mp hfill
    simp only at hrest
    split_ifs at hrest with hret
    · simp at hrest
    · obtain rfl : ret = .ok := by simpa using hret
      refine ⟨inner, buf, hinner, hbuild, ?_⟩
      simpa using hrest.symm

/-! ### The round trip -/

/-- The inner header that was handed to the builder. -/
def sentInner (header : GeneralProxyMsgHeader) : ParsedInner :=
  match ProxyMsgType.ofCode? header.outerHeader.proxyMsgType with
  | some .dev => .dev header.innerHeader.devHdr
  | some .strgy => .strgy header.innerHeader.strgyHdr
  | some .sess => .sess header.innerHeader.sessHdr
  | _ => .data

/-- The processors recover what the message was built from, and the outer length
counts the inner header and the payload. -/
def RoundTrips (header : GeneralProxyMsgHeader) (payload : Option (List UInt8))
    (stray : Option StrgyMsgHeader) (m : Mem) (msg : ℕ) : Prop :=
  ∃ p inner, parseProxyMsg stray m msg = some p ∧ innerSize header = some inner ∧
    p.outer.version = header.outerHeader.version ∧
    p.outer.proxyMsgType = header.outerHeader.proxyMsgType ∧
    p.outer.frontendSessId = header.outerHeader.frontendSessId ∧
    p.outer.backendSessId = header.outerHeader.backendSessId ∧
    p.inner = sentInner header ∧ p.payload = payloadBytes payload ∧
    p.outer.payloadLen.toNat = inner + (payloadBytes payload).length

/-- The buffer with an outer header, ten bytes of inner header and a payload, and
a copy of it at address `a`. -/
lemma headed_buffer {outer : ProxyMsgHeader} {inner : Mem} {len : UInt16} {data : List UInt8}
    (hinner : ∀ i < 6, inner i = outerBuf outer i)
    (hm : ∀ i < data.length + innerHdrSize + proxyMsgHdrSize,
      m (a + i) = writeU16 (store inner (proxyMsgHdrSize + innerHdrSize) data) 6 len (0 + i)) :
    ProxyMsgHeader.read m a = { outer with payloadLen := len } ∧
      (∀ i < innerHdrSize, m (a + proxyMsgHdrSize + i) = inner (proxyMsgHdrSize + i)) ∧
      load m (a + proxyMsgHdrSize + innerHdrSize) data.length = data := by
  simp only [innerHdrSize, proxyMsgHdrSize] at *
  simp only [Nat.zero_add] at hm
  refine ⟨?_, ?_, ?_⟩
  · rw [← read_outer (store inner 18 data) len fun i hi => by
      rw [store_of_outside (by omega), hinner i hi]]
    refine ProxyMsgHeader.read_congr fun i hi => ?_
    rw [proxyMsgHdrSize] at hi
    rw [hm i (by omega), Nat.zero_add]
  · intro i hi
    rw [Nat.add_assoc, hm _ (by omega), writeU16_of_outside (by omega),
      store_of_outside (by omega)]
  · have hsame := load_store_same inner 18 data
    rw [← hsame, length_load]
    rw [load]
    refine List.map_congr_left fun i hi => ?_
    have hi' := List.mem_range.mp hi
    rw [show a + 8 + 10 + i = a + (18 + i) by omega, hm _ (by omega),
      writeU16_of_outside (by omega)]

/-- The outer length is the sum of the two lengths, without wrapping. -/
lemma toNat_outer_len {k inner : ℕ} (h : k + inner ≤ msgBufSize) :
    (UInt16.ofNat (k + inner)).toNat = inner + k := by
  rw [msgBufSize] at h
  rw [UInt16.toNat_ofNat', Nat.mod_eq_of_lt (by omega), Nat.add_comm]

section Cases

variable {buf : Mem} {inner : ℕ} (hsize : innerSize header = some inner)
  (hbuild : buildInner header payload (outerBuf header.outerHeader) proxyMsgHdrSize =
    some (.ok, buf))
  (hm : ∀ i < (payloadBytes payload).length + inner + proxyMsgHdrSize,
    m (a + i) =
      writeU16 buf 6 (UInt16.ofNat ((payloadBytes payload).length + inner)) (0 + i))

include hsize hbuild hm

lemma dev_round_trip (htype : ProxyMsgType.ofCode? header.outerHeader.proxyMsgType = some .dev)
    (stray : Option StrgyMsgHeader) : RoundTrips header payload stray m a := by
  obtain rfl : inner = innerHdrSize := by simpa [innerSize, htype] using hsize.symm
  simp only [buildInner, htype, Option.some.injEq] at hbuild
  obtain ⟨hcorr, hlen, rfl⟩ := buildAdminMessage_ok hbuild
  have hsmall : (payloadBytes payload).length + innerHdrSize ≤ msgBufSize := by
    have hlt := header.innerHeader.devHdr.payloadLen.toNat_lt
    have hcases := devMsgPayloadLen_cases header.innerHeader.devHdr.msgType
      header.innerHeader.devHdr.actionType
    rw [innerHdrSize, msgBufSize]
    rw [toSizeT] at hcorr
    omega
  obtain ⟨houter, hinner, hload⟩ := headed_buffer
    (fun i hi => AdminMsgHeader.write_of_outside (by rw [proxyMsgHdrSize]; omega)) hm
  have hread : AdminMsgHeader.read m (a + proxyMsgHdrSize) = header.innerHeader.devHdr :=
    (AdminMsgHeader.read_congr hinner).trans (header.innerHeader.devHdr.read_write _ _)
  have hcode : ProxyMsgType.ofCode? (ProxyMsgHeader.read m a).proxyMsgType = some .dev := by
    rw [houter, htype]
  refine ⟨⟨ProxyMsgHeader.read m a, .dev header.innerHeader.devHdr, payloadBytes payload⟩,
    innerHdrSize, ?_, hsize, ?_⟩
  · simp only [parseProxyMsg, hcode, hread, ← hlen, hload]
  · simp only [houter, toNat_outer_len hsmall, sentInner, htype, and_self]

lemma sess_round_trip (htype : ProxyMsgType.ofCode? header.outerHeader.proxyMsgType = some .sess)
    (stray : Option StrgyMsgHeader) : RoundTrips header payload stray m a := by
  obtain rfl : inner = innerHdrSize := by simpa [innerSize, htype] using hsize.symm
  simp only [buildInner, htype, Option.some.injEq] at hbuild
  obtain ⟨hcorr, hlen, rfl⟩ := buildProxySessMessage_ok hbuild
  have hsmall : (payloadBytes payload).length + innerHdrSize ≤ msgBufSize := by
    have hlt := header.innerHeader.sessHdr.payloadLen.toNat_lt
    have hcases := sessMsgPayloadLen_cases header.innerHeader.sessHdr.msgType
      header.innerHeader.sessHdr.actionType header.innerHeader.sessHdr.ipVersion
    rw [innerHdrSize, msgBufSize]
    rw [toSizeT] at hcorr
    omega
  obtain ⟨houter, hinner, hload⟩ := headed_buffer
    (fun i hi => SessMsgHeader.write_of_outside (by rw [proxyMsgHdrSize]; omega)) hm
  have hread : SessMsgHeader.read m (a + proxyMsgHdrSize) = header.innerHeader.sessHdr :=
    (SessMsgHeader.read_congr hinner).trans (header.innerHeader.sessHdr.read_write _ _)
  have hcode : ProxyMsgType.ofCode? (ProxyMsgHeader.read m a).proxyMsgType = some .sess := by
    rw [houter, htype]
  refine ⟨⟨ProxyMsgHeader.read m a, .sess header.innerHeader.sessHdr, payloadBytes payload⟩,
    innerHdrSize, ?_, hsize, ?_⟩
  · simp only [parseProxyMsg, hcode, hread, ← hlen, hload]
  · simp only [houter, toNat_outer_len hsmall, sentInner, htype, and_self]

lemma data_round_trip (htype : ProxyMsgType.ofCode? header.outerHeader.proxyMsgType = some .data)
    (stray : Option StrgyMsgHeader) : RoundTrips header payload stray m a := by
  obtain rfl : inner = 0 := by simpa [innerSize, htype] using hsize.symm
  simp only [buildInner, htype] at hbuild
  obtain ⟨hfits, rfl⟩ := buildProxyDataMessage_ok hbuild
  rw [proxyMsgHdrSize] at hfits
  have hsmall : (payloadBytes payload).length + 0 ≤ msgBufSize := by omega
  simp only [Nat.zero_add, proxyMsgHdrSize] at hm
  have houter : ProxyMsgHeader.read m a = { header.outerHeader with
      payloadLen := UInt16.ofNat ((payloadBytes payload).length + 0) } := by
    rw [← read_outer (store (outerBuf header.outerHeader) 8 (payloadBytes payload)) _
      fun i hi => store_of_outside (by omega)]
    refine ProxyMsgHeader.read_congr fun i hi => ?_
    rw [proxyMsgHdrSize] at hi
    rw [hm i (by omega), Nat.zero_add]
  have hload : load m (a + 8) (payloadBytes payload).length = payloadBytes payload := by
    have hsame := load_store_same (outerBuf header.outerHeader) 8 (payloadBytes payload)
    rw [← hsame, length_load]
    rw [load]
    refine List.map_congr_left fun i hi => ?_
    have hi' := List.mem_range.mp hi
    rw [Nat.add_assoc, hm _ (by omega), writeU16_of_outside (by omega)]
  have hcode : ProxyMsgType.ofCode? (ProxyMsgHeader.read m a).proxyMsgType = some .data := by
    rw [houter, htype]
  have hlen : (ProxyMsgHeader.read m a).payloadLen.toNat = (payloadBytes payload).length := by
    rw [houter]
    simpa using toNat_outer_len hsmall
  refine ⟨⟨ProxyMsgHeader.read m a, .data, payloadBytes payload⟩, 0, ?_, hsize, ?_⟩
  · simp only [parseProxyMsg, hcode, hlen, proxyMsgHdrSize, hload]
  · simp only [houter, toNat_outer_len hsmall, sentInner, htype, and_self]

end Cases

/-- **Round trip of proxy messages.** Take a message other than an IoT message
that the builders put in a block, and a copy of that block at any address. The
processors recover its outer header, inner header and payload, whatever the unset
pointer of the strategy processor points at, if and only if the message is not a
strategy message. -/
theorem proxy_round_trip_iff (enqueue : List UInt8 → HyperampRet)
    (header : GeneralProxyMsgHeader) (payload : Option (List UInt8)) (bytes : List UInt8)
    (hbuild : buildProxyGeneralMessage enqueue header payload = some (.ok, some bytes))
    (htype : ProxyMsgType.ofCode? header.outerHeader.proxyMsgType ≠ some .iot)
    (m : Mem) (a : ℕ) (hblock : load m a bytes.length = bytes) :
    (∀ stray, RoundTrips header payload stray m a) ↔
      ProxyMsgType.ofCode? header.outerHeader.proxyMsgType ≠ some .strgy := by
  obtain ⟨inner, buf, hsize, hinner, rfl⟩ := buildProxyGeneralMessage_ok hbuild
  rw [length_load] at hblock
  have hm := eq_of_load_eq hblock
  constructor
  · intro h hstrgy
    -- with a null pointer the strategy processor reads nothing at all
    obtain ⟨p, -, hparse, -, -, hcode, -⟩ := h none
    rw [parseProxyMsg_outer hparse] at hcode
    rw [parseProxyMsg_null (hcode ▸ hstrgy)] at hparse
    cases hparse
  · intro hstrgy stray
    cases hcode : ProxyMsgType.ofCode? header.outerHeader.proxyMsgType with
    | none => simp [innerSize, hcode] at hsize
    | some type =>
        cases type with
        | dev => exact dev_round_trip hsize hinner hm hcode stray
        | strgy => exact absurd hcode hstrgy
        | sess => exact sess_round_trip hsize hinner hm hcode stray
        | data => exact data_round_trip hsize hinner hm hcode stray
        | iot => exact absurd hcode htype

/-- The header of a data message of session 5 to the backend's session 7. -/
def dataHeader : GeneralProxyMsgHeader :=
  ⟨⟨1, 3, 5, 7, 0⟩, ⟨0, 0, 0, 0, 0, 0⟩, Vector.replicate 20 0, 0⟩

/-- A data message of three bytes makes the round trip. -/
theorem proxy_round_trip_data :
    buildProxyGeneralMessage (fun _ => .ok) dataHeader (some [10, 20, 30]) =
        some (.ok, some [1, 3, 5, 0, 7, 0, 3, 0, 10, 20, 30]) ∧
      ∀ stray, RoundTrips dataHeader (some [10, 20, 30]) stray
        (store (fun _ => 0) 0 [1, 3, 5, 0, 7, 0, 3, 0, 10, 20, 30]) 0 := by
  have hbuild : buildProxyGeneralMessage (fun _ => .ok) dataHeader (some [10, 20, 30]) =
      some (.ok, some [1, 3, 5, 0, 7, 0, 3, 0, 10, 20, 30]) := by decide +kernel
  refine ⟨hbuild, ?_⟩
  exact (proxy_round_trip_iff _ _ _ _ hbuild (by decide) _ 0 (load_store_same _ _ _)).mpr
    (by decide)

/-- The header of a strategy message that sets the strategy. -/
def strgyHeader : GeneralProxyMsgHeader :=
  ⟨⟨1, 1, 0, 0, 0⟩, ⟨1, 0, 9, 0, 2, 0⟩, Vector.replicate 20 0, 0⟩

/-- The strategy processor does not recover a strategy message: it looks at an
unset pointer, here a null pointer, and not at the message. -/
theorem strgy_message_not_recovered :
    buildProxyGeneralMessage (fun _ => .ok) strgyHeader (some [2, 0]) =
        some (.ok, some [1, 1, 0, 0, 0, 0, 12, 0, 1, 0, 0, 0, 9, 0, 0, 0, 2, 0, 2, 0]) ∧
      ¬ RoundTrips strgyHeader (some [2, 0]) none
        (store (fun _ => 0) 0 [1, 1, 0, 0, 0, 0, 12, 0, 1, 0, 0, 0, 9, 0, 0, 0, 2, 0, 2, 0]) 0 := by
  refine ⟨by decide +kernel, ?_⟩
  rintro ⟨p, -, hparse, -⟩
  rw [parseProxyMsg_null (by decide +kernel)] at hparse
  cases hparse

end Frontend
