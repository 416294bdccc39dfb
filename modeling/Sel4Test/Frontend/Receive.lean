import Sel4Test.Lib.Touch
import Sel4Test.Frontend.Engine
import Sel4Test.Frontend.Iot

/-!
What the message processors read of a block.

`frontend_proxy_msg_process` and the processors under it work on a block of 4096 bytes that the
backend has written. Here they are programs that log every byte they read (`Touch.Prog`), and
return what the sessions are when they return or first call the application. The strategy
processor reads its header through a pointer that it never sets, so what that pointer holds is
an input.

* `frontendProxyMsgProcess` and the processors: the functions of `frontend_proto.c`.
* `proxyMsgLenValid_true`, `appSessionIdValid_true`: the two macros that should check the length
  and the session ids join their bounds by "or", and hold of every value.
* `msgProcess_agrees`: the engine (`Frontend.frontendProxyMsgProcess`) goes on with the sessions
  that these programs leave.
-/

namespace Frontend.Rx

open ByteMem Touch

/-! ### Headers -/

/-- The memory that a pointer may point into: the block, and anything else. -/
inductive Area
  | block
  | elsewhere
  deriving DecidableEq, Repr

def readU16 (o : Area) (a : ℕ) : Prog Area UInt16 := do
  let v ← readWord o a 2
  return UInt16.ofNat v

def readProxyMsgHeader : Prog Area ProxyMsgHeader := do
  let version ← readByte .block 0
  let proxyMsgType ← readByte .block 1
  let frontendSessId ← readU16 .block 2
  let backendSessId ← readU16 .block 4
  let payloadLen ← readU16 .block 6
  return ⟨version, proxyMsgType, frontendSessId, backendSessId, payloadLen⟩

/-- The five words of an inner header, for a device, a strategy or a session message. -/
def readInnerHeader {α : Type} (mk : UInt16 → UInt16 → UInt16 → UInt16 → UInt16 → α) (o : Area)
    (a : ℕ) : Prog Area α := do
  let w0 ← readU16 o a
  let w1 ← readU16 o (a + 2)
  let w2 ← readU16 o (a + 4)
  let w3 ← readU16 o (a + 6)
  let w4 ← readU16 o (a + 8)
  return mk w0 w1 w2 w3 w4

/-! ### Processors -/

/-- What a processor makes of a message: its return code, none if it calls a null pointer;
whether it or one that it calls returns an error; and the sessions when it returns or first
calls the application, none if they are undefined. -/
structure Handled where
  ret : Option ProcessRet
  refused : Bool
  core : Option Core

def Handled.error (c : Core) : Handled := ⟨some .error, true, some c⟩

def Handled.ok (c : Option Core) : Handled := ⟨some .ok, false, c⟩

/-- The caller drops the return code and returns OK. -/
def Handled.dropRet (h : Handled) : Handled := { h with ret := h.ret.map fun _ => .ok }

/-- The device and the strategy processor, with the pointer to the header and the macro for the
payload length. The handlers of version 1 do nothing. -/
def adminMsgProcess (payloadLenOf : UInt16 → UInt16 → ℤ) (hdrPtr : Option (Area × ℕ))
    (c : Core) : Prog Area Handled :=
  match hdrPtr with
  | none => pure (.error c)
  | some (o, a) => do
      let hdr ← readInnerHeader AdminMsgHeader.mk o a
      let corrLen := payloadLenOf hdr.msgType hdr.actionType
      if hdr.actionType ≠ actionTypeResponse then
        return .error c
      else if hdr.version = 1 then
        if corrLen = -1 ∨ corrLen ≠ hdr.payloadLen.toNat then
          return (Handled.error c).dropRet
        else
          return .ok (some c)
      else
        return .ok (some c)

/-- `frontend_proxy_dev_msg_process`. -/
def frontendProxyDevMsgProcess (c : Core) : Prog Area Handled :=
  adminMsgProcess devMsgPayloadLen (some (.block, proxyMsgHdrSize)) c

/-- `frontend_proxy_strgy_msg_process`; `strgymsgHdr` is what its variable of that name holds,
which is never assigned. -/
def frontendProxyStrgyMsgProcess (strgymsgHdr : Option (Area × ℕ)) (c : Core) :
    Prog Area Handled :=
  adminMsgProcess strgyMsgPayloadLen strgymsgHdr c

/-- `msg_payload` of a session message. -/
def sessPayload : ℕ := proxyMsgHdrSize + innerHdrSize

/-- `frontend_proxy_sess_msg_process_active_create_ver1` up to the event callback. -/
def sessMsgProcessActiveCreate (fid bid : UInt16) (c : Core) : Prog Area Handled :=
  match searchSess c.pool fid with
  | none => pure (.error c)
  | some p => do
      let status ← readByte .block sessPayload
      let _ ← readByte .block (sessPayload + 1)
      return .ok (createSessStep2 p bid status c)

/-- `frontend_proxy_sess_msg_process_passive_create_ver1`; `alloc` says whether the session can
be allocated. It ends in a call of `create_sess_passive`, which is null. -/
def sessMsgProcessPassiveCreate (fid ipVersion : UInt16) (alloc : Bool) (c : Core) :
    Prog Area Handled := do
  if ipVersion ≠ sessIpv4Proto then
    return .error c
  else if fid ≠ frontendHandoverSessionId then
    return .error c
  else if alloc = false then
    return .error c
  else if (allocateId c.pool.idQueue).1 = 0 then
    return .error c
  else
    let _ ← readBlock .block sessPayload 10
    return ⟨none, false, none⟩

/-- `frontend_proxy_sess_msg_process_close_ver1` up to the event callback. -/
def sessMsgProcessClose (fid : UInt16) (c : Core) : Prog Area Handled :=
  match searchSess c.pool fid with
  | none => pure (.error c)
  | some _ => do
      let _ ← readByte .block (sessPayload + 1)
      return .ok (some c)

/-- `frontend_proxy_sess_msg_process`. -/
def frontendProxySessMsgProcess (fid bid : UInt16) (alloc : Bool) (c : Core) :
    Prog Area Handled := do
  let hdr ← readInnerHeader SessMsgHeader.mk .block proxyMsgHdrSize
  if sessMsgAccepted hdr = false then
    return .error c
  else if hdr.msgType = sessMsgCreate then
    if hdr.actionType = actionTypeResponse then
      sessMsgProcessActiveCreate fid bid c
    else
      sessMsgProcessPassiveCreate fid hdr.ipVersion alloc c
  else
    sessMsgProcessClose fid c

/-- The sessions after a segment is put in `msg_b2f` of the session at `p`. -/
def storeSeg (p : SessPtr) (data : List UInt8) (c : Core) : Option Core := do
  let sess ← c.heap p
  let queued ← sess.msg .b2f
  let sess := { sess with msg := Function.update sess.msg .b2f (some (queued ++ [⟨data, 0⟩])) }
  return linkToQueue .b2f p sess (c.record (.arrived p data true))

/-- `frontend_proxy_data_msg_prosess`; `alloc` says whether the segment can be allocated. -/
def frontendProxyDataMsgProsess (fid : UInt16) (dataLen : ℕ) (alloc : Bool) (c : Core) :
    Prog Area Handled :=
  match searchSess c.pool fid with
  | none => pure (.error c)
  | some p => do
      if alloc = false then
        return .error c
      else
        let data ← readBlock .block proxyMsgHdrSize dataLen
        return .ok (storeSeg p data c)

/-- The protocols whose handlers look at the message. -/
def delivers : IotProtoType → Bool
  | .bluetooth | .can | .modbustcp => true
  | .zigbee | .lora | .powerlink => false

/-- The handlers of the protocols, for the header and the address at `hdr` and `iotData`; `sess`
says whether the session of the protocol exists. -/
def iotHandler (proto : IotProtoType) (sess : Bool) (hdr iotData : ℕ) (c : Core) :
    Prog Area Handled := do
  if delivers proto then
    let payloadLen ← readU16 .block (hdr + 8)
    if payloadLen.toNat ≤ getIotAddrLength proto then
      return .error c
    else if sess = false then
      return .error c
    else
      let _ ← readBlock .block iotData (getIotAddrLength proto)
      return .ok (some c)
  else if sess = false then
    return .error c
  else
    return .ok (some c)

/-- `frontend_proxy_iot_msg_process`. -/
def frontendProxyIotMsgProcess (sess : IotProtoType → Bool) (msgLen : ℕ) (c : Core) :
    Prog Area Handled := do
  let protoType ← readU16 .block (proxyMsgHdrSize + 2)
  match IotProtoType.ofCode? protoType with
  | none => return .error c
  | some proto =>
      if msgLen < iotHdrSize + getIotAddrLength proto then
        return .error c
      else
        iotHandler proto (sess proto) proxyMsgHdrSize (proxyMsgHdrSize + iotHdrSize) c

/-- `PROXY_MSG_LEN_VALID`, of a message type as in its only use. -/
def proxyMsgLenValid (x : ℕ) : Bool := x ≥ 1 || x ≤ 4088

/-- `APP_SESSION_ID_VALID`. -/
def appSessionIdValid (x : UInt16) : Bool := x ≠ 0 || x ≠ 0xFFFF

/-- What the processors meet: the content of an unassigned pointer, whether memory can be
allocated, and the IoT sessions. -/
structure Env where
  strgymsgHdr : Option (Area × ℕ)
  alloc : Bool
  iotSess : IotProtoType → Bool

/-- `frontend_proxy_msg_process`. -/
def frontendProxyMsgProcess (env : Env) (c : Core) : Prog Area Handled := do
  let hdr ← readProxyMsgHeader
  match ProxyMsgType.ofCode? hdr.proxyMsgType with
  | none => return .error c
  | some msgType => do
      if proxyMsgLenValid hdr.proxyMsgType.toNat = false then
        return .error c
      else
        match msgType with
        | .dev =>
            if hdr.frontendSessId ≠ 0 ∨ hdr.backendSessId ≠ 0 then
              return .error c
            else
              let h ← frontendProxyDevMsgProcess c
              return h.dropRet
        | .strgy =>
            if hdr.frontendSessId ≠ 0 ∨ hdr.backendSessId ≠ 0 then
              return .error c
            else
              let h ← frontendProxyStrgyMsgProcess env.strgymsgHdr c
              return h.dropRet
        | .sess =>
            let h ← frontendProxySessMsgProcess hdr.frontendSessId hdr.backendSessId env.alloc c
            return h.dropRet
        | .data =>
            if appSessionIdValid hdr.frontendSessId = false ∨
                appSessionIdValid hdr.backendSessId = false then
              return .error c
            else
              let h ← frontendProxyDataMsgProsess hdr.frontendSessId hdr.payloadLen.toNat
                env.alloc c
              return h.dropRet
        | .iot =>
            let h ← frontendProxyIotMsgProcess env.iotSess hdr.payloadLen.toNat c
            return h.dropRet

/-! ### What is read -/

/-- The outer header of a block. -/
def outerOf (buf : Mem) : ProxyMsgHeader := ProxyMsgHeader.read buf 0

def adminOf (buf : Mem) : AdminMsgHeader := AdminMsgHeader.read buf proxyMsgHdrSize

def iotOf (buf : Mem) : IotMsgHeader := IotMsgHeader.read buf proxyMsgHdrSize

/-- Only bytes of the block before `n` are read. -/
def Reads (n : ℕ) : Touch.Event Area → Prop
  | .read .block a => a < n
  | _ => False

section Specs

variable {n : ℕ} {s : Touch.State Area} {c : Core} {buf : Mem}

lemma readU16_spec {a : ℕ} (h : a + 2 ≤ n) : Does (Reads n) s (readU16 .block a) fun v t =>
    v = ByteMem.readU16 (s.mem .block) a ∧ Same s t := by
  refine (Does.readWord fun i hi => ?_).bind ?_
  · show a + i < n
    omega
  · rintro v t ⟨rfl, ht⟩
    exact Does.pure ⟨rfl, ht⟩

lemma readByte_spec {a : ℕ} (h : a < n) : Does (Reads n) s (readByte .block a) fun v t =>
    v = s.mem .block a ∧ Same s t := by
  refine (Does.readByte (show Reads n (.read .block a) from h)).mono ?_
  rintro v t ⟨rfl, rfl⟩
  exact ⟨rfl, rfl⟩

lemma readProxyMsgHeader_spec (hn : 8 ≤ n) : Does (Reads n) s readProxyMsgHeader fun hdr t =>
    hdr = outerOf (s.mem .block) ∧ Same s t := by
  refine (readByte_spec (by omega)).bind ?_
  rintro v t₁ ⟨rfl, h₁⟩
  refine (readByte_spec (by omega)).bind ?_
  rintro v t₂ ⟨rfl, h₂⟩
  refine (readU16_spec (by omega)).bind ?_
  rintro v t₃ ⟨rfl, h₃⟩
  refine (readU16_spec (by omega)).bind ?_
  rintro v t₄ ⟨rfl, h₄⟩
  refine (readU16_spec (by omega)).bind ?_
  rintro v t₅ ⟨rfl, h₅⟩
  rw [Same] at h₁ h₂ h₃ h₄ h₅
  refine Does.pure ⟨?_, h₅.trans (h₄.trans (h₃.trans (h₂.trans h₁)))⟩
  rw [h₄, h₃, h₂, h₁]
  rfl

lemma readInnerHeader_spec {α : Type} {f : UInt16 → UInt16 → UInt16 → UInt16 → UInt16 → α}
    {a : ℕ} (hn : a + 10 ≤ n) : Does (Reads n) s (readInnerHeader f .block a) fun hdr t =>
      hdr = f (ByteMem.readU16 (s.mem .block) a) (ByteMem.readU16 (s.mem .block) (a + 2))
        (ByteMem.readU16 (s.mem .block) (a + 4)) (ByteMem.readU16 (s.mem .block) (a + 6))
        (ByteMem.readU16 (s.mem .block) (a + 8)) ∧ Same s t := by
  refine (readU16_spec (by omega)).bind ?_
  rintro v t₁ ⟨rfl, h₁⟩
  refine (readU16_spec (by omega)).bind ?_
  rintro v t₂ ⟨rfl, h₂⟩
  refine (readU16_spec (by omega)).bind ?_
  rintro v t₃ ⟨rfl, h₃⟩
  refine (readU16_spec (by omega)).bind ?_
  rintro v t₄ ⟨rfl, h₄⟩
  refine (readU16_spec (by omega)).bind ?_
  rintro v t₅ ⟨rfl, h₅⟩
  rw [Same] at h₁ h₂ h₃ h₄ h₅
  refine Does.pure ⟨?_, h₅.trans (h₄.trans (h₃.trans (h₂.trans h₁)))⟩
  rw [h₄, h₃, h₂, h₁]

/-! ### The sessions after a message -/

/-- The two macros hold of every value. -/
lemma proxyMsgLenValid_true (x : ℕ) : proxyMsgLenValid x = true := by
  rw [proxyMsgLenValid, Bool.or_eq_true, decide_eq_true_eq, decide_eq_true_eq]
  omega

lemma appSessionIdValid_true (x : UInt16) : appSessionIdValid x = true := by
  rw [appSessionIdValid, Bool.or_eq_true, decide_eq_true_eq, decide_eq_true_eq]
  by_cases h : x = 0
  · rw [h]
    exact .inr (by decide)
  · exact .inl h

/-- The sessions and the pool of a core. -/
def view (c : Core) : (SessPtr → Option FrontendSession) × FrontendSessionPool := (c.heap, c.pool)

/-- A processor leaves the sessions that the engine goes on with. -/
def Agrees {α : Type} (r : Option (Core × α)) (h : Handled) : Prop :=
  h.core.map view = r.map fun x => view x.1

lemma readU16_does {o : Area} {a : ℕ} : Does (fun _ => True) s (readU16 o a) fun _ _ => True :=
  (Does.readWord fun _ _ => trivial).bind fun _ _ _ => Does.pure trivial

lemma readInnerHeader_does {α : Type} {mk : UInt16 → UInt16 → UInt16 → UInt16 → UInt16 → α}
    {o : Area} {a : ℕ} : Does (fun _ => True) s (readInnerHeader mk o a) fun _ _ => True := by
  refine readU16_does.bind fun _ _ _ => ?_
  refine readU16_does.bind fun _ _ _ => ?_
  refine readU16_does.bind fun _ _ _ => ?_
  refine readU16_does.bind fun _ _ _ => ?_
  refine readU16_does.bind fun _ _ _ => ?_
  exact Does.pure trivial

lemma adminMsgProcess_core {payloadLenOf : UInt16 → UInt16 → ℤ} {hdrPtr : Option (Area × ℕ)} :
    Does (fun _ => True) s (adminMsgProcess payloadLenOf hdrPtr c) fun h _ => h.core = some c := by
  rw [adminMsgProcess.eq_def]
  cases hdrPtr with
  | none => exact Does.pure rfl
  | some ptr =>
      refine readInnerHeader_does.bind ?_
      rintro hdr t -
      dsimp only
      split_ifs
      · exact Does.pure rfl
      · exact Does.pure rfl
      · exact Does.pure rfl
      · exact Does.pure rfl

lemma iotMsgProcess_core {iotSess : IotProtoType → Bool} {msgLen : ℕ} :
    Does (fun _ => True) s (frontendProxyIotMsgProcess iotSess msgLen c) fun h _ =>
      h.core = some c := by
  refine readU16_does.bind ?_
  rintro protoType t -
  cases IotProtoType.ofCode? protoType with
  | none => exact Does.pure rfl
  | some proto =>
      dsimp only
      split_ifs
      · exact Does.pure rfl
      rw [iotHandler]
      by_cases hdelivers : delivers proto = true
      · rw [if_pos hdelivers]
        refine readU16_does.bind ?_
        rintro len t₁ -
        split_ifs
        · exact Does.pure rfl
        · exact Does.pure rfl
        · exact (Does.readBlock fun _ _ => trivial).bind fun _ _ _ => Does.pure rfl
      · rw [if_neg hdelivers]
        split_ifs
        · exact Does.pure rfl
        · exact Does.pure rfl

lemma sessMsgProcess_agrees {fid bid : UInt16} {alloc : Bool} (hbuf : s.mem .block = buf) :
    Does (fun _ => True) s (frontendProxySessMsgProcess fid bid alloc c) fun h _ =>
      Agrees (sessMsgProcess fid bid buf alloc c) h := by
  have hspec := readInnerHeader_spec (s := s) (n := 4096) (a := proxyMsgHdrSize)
    (f := SessMsgHeader.mk) (by decide)
  refine (hspec.weaken fun _ _ => trivial).bind ?_
  rintro hdr t ⟨rfl, ht⟩
  rw [← SessMsgHeader.read, hbuf, ← sessHdrOf, sessMsgProcess]
  split_ifs with haccepted hcreate hresponse
  · exact Does.pure rfl
  · rw [sessMsgProcessActiveCreate, Frontend.sessMsgProcessActiveCreate]
    cases searchSess c.pool fid with
    | none => exact Does.pure rfl
    | some p =>
        refine ((readByte_spec (n := 4096) (by decide)).weaken fun _ _ => trivial).bind ?_
        rintro status t₁ ⟨rfl, -⟩
        refine ((readByte_spec (n := 4096) (by decide)).weaken fun _ _ => trivial).bind ?_
        rintro - t₂ -
        rw [ht, hbuf]
        refine Does.pure ?_
        show (createSessStep2 p bid (respStatus buf) c).map view =
          (createSessStep2 p bid (respStatus buf) c >>= fun c =>
            some (c, Ctrl.rxCallback none)).map fun x => view x.1
        cases createSessStep2 p bid (respStatus buf) c <;> rfl
  · rw [sessMsgProcessPassiveCreate, Frontend.sessMsgProcessPassiveCreate]
    split_ifs
    · exact Does.pure rfl
    · exact Does.pure rfl
    · exact Does.pure rfl
    · exact Does.pure rfl
    · refine (Does.readBlock fun _ _ => trivial).bind ?_
      rintro - t₁ -
      exact Does.pure rfl
  · rw [sessMsgProcessClose, Frontend.sessMsgProcessClose]
    cases searchSess c.pool fid with
    | none => exact Does.pure rfl
    | some p =>
        refine ((readByte_spec (n := 4096) (by decide)).weaken fun _ _ => trivial).bind ?_
        rintro - t₁ -
        exact Does.pure rfl

lemma dataMsgProsess_agrees {fid : UInt16} {len : ℕ} {alloc : Bool} (hbuf : s.mem .block = buf)
    (hlen : proxyMsgHdrSize + len ≤ msgBufSize) :
    Does (fun _ => True) s (frontendProxyDataMsgProsess fid len alloc c) fun h _ =>
      Agrees ((dataMsgProcess fid len buf alloc c).map fun x => (x.2, ())) h := by
  rw [frontendProxyDataMsgProsess, dataMsgProcess]
  cases searchSess c.pool fid with
  | none => exact Does.pure rfl
  | some p =>
      dsimp only
      rw [if_neg (not_lt.mpr hlen)]
      split_ifs with halloc
      · exact Does.pure rfl
      · refine (Does.readBlock fun _ _ => trivial).bind ?_
        rintro data t ⟨rfl, -⟩
        rw [hbuf]
        refine Does.pure ?_
        show (storeSeg p _ c).map view = _
        rw [storeSeg]
        cases c.heap p with
        | none => rfl
        | some sess =>
            simp only [Option.bind_eq_bind, Option.bind_some]
            cases sess.msg .b2f <;> rfl

/-- **The engine** goes on with the sessions that the processors leave. -/
lemma msgProcess_agrees (env : Env) (hbuf : s.mem .block = buf)
    (hlen : proxyMsgHdrSize + (outerOf buf).payloadLen.toNat ≤ msgBufSize) :
    Does (fun _ => True) s (frontendProxyMsgProcess env c) fun h _ =>
      Agrees (Frontend.frontendProxyMsgProcess buf env.alloc c) h := by
  refine ((readProxyMsgHeader_spec le_rfl).weaken fun _ _ => trivial).bind ?_
  rintro hdr t ⟨rfl, ht⟩
  rw [Same] at ht
  have hbuf' : t.mem .block = buf := by rw [ht, hbuf]
  rw [hbuf, Frontend.frontendProxyMsgProcess, ← outerOf]
  cases ProxyMsgType.ofCode? (outerOf buf).proxyMsgType with
  | none => exact Does.pure rfl
  | some msgType =>
      dsimp only
      rw [if_neg (by rw [proxyMsgLenValid_true]; decide)]
      -- the handlers of devices and strategies leave the core alone, whatever they read
      cases msgType with
      | dev =>
          dsimp only
          split_ifs
          · exact Does.pure rfl
          · refine adminMsgProcess_core.bind ?_
            rintro h t₁ hcore
            exact Does.pure (by rw [Agrees, Handled.dropRet, hcore]; rfl)
      | strgy =>
          dsimp only
          split_ifs
          · exact Does.pure rfl
          · refine adminMsgProcess_core.bind ?_
            rintro h t₁ hcore
            exact Does.pure (by rw [Agrees, Handled.dropRet, hcore]; rfl)
      | sess =>
          refine (sessMsgProcess_agrees hbuf').bind ?_
          rintro h t₁ hagrees
          exact Does.pure hagrees
      | data =>
          dsimp only
          rw [if_neg (by rw [appSessionIdValid_true, appSessionIdValid_true]; decide)]
          refine (dataMsgProsess_agrees hbuf' hlen).bind ?_
          rintro h t₁ hagrees
          refine Does.pure (Eq.trans hagrees ?_)
          cases dataMsgProcess (outerOf buf).frontendSessId (outerOf buf).payloadLen.toNat buf
            env.alloc c <;> rfl
      | iot =>
          refine iotMsgProcess_core.bind ?_
          rintro h t₁ hcore
          exact Does.pure (by rw [Agrees, Handled.dropRet, hcore]; rfl)

end Specs

end Frontend.Rx
