import Sel4Test.Frontend.Engine
import Sel4Test.Frontend.Creation

/-!
Passive creation of sessions, `frontend_proto.c` and `session_pool.c`.

A CREATE command of the backend asks the front end for a new session. The handler
allocates the session and an id and leaves the rest to the entry `create_sess_passive`
of the operations table of the pool. The table has no such entry, and the call through
the null pointer has no result here. The function that was meant to be there is
modelled too, with `engTxQueue` for the check of `engine->tx_queue`; its variable
`res_msg`, which is never set, is taken to be valid.

`malloc` gives a session with arbitrary content, or nothing.

* `passive_dispatched`: the command reaches the handler, as in the engine.
* `passive_never`: no command is served.
* `passive_installed`: with the missing entry in the table no command is served
  either, since the response has the id of the command, and no session is released
  after a failure.
-/

namespace Frontend

open ByteMem Hyperamp

/-! ### The operations table -/

/-- The type of `create_sess_passive`: the front end's id in the command and its other
parameters, and the new session. -/
abbrev CreatePassive :=
  UInt16 → SessMsgPara → SessPtr → Option TxRing → Core → Option (ProcessRet × Option TxRing × Core)

/-- The entry of `FrontendSessionPoolOps` that the handler calls, `none` for the null
pointer. -/
structure FrontendSessionPoolOps where
  createSessPassive : Option CreatePassive

/-- `fr_high_speed_pool_ops`, which does not name the entry. -/
def frHighSpeedPoolOps : FrontendSessionPoolOps where
  createSessPassive := none

/-- The header of a CREATE response. -/
def responseHeader (fid : UInt16) (para : SessMsgPara) : GeneralProxyMsgHeader where
  outerHeader := ⟨1, 2, fid, para.backendSessId, 12⟩
  innerHeader :=
    SessMsgHeader.toInner ⟨1, sessMsgCreate, actionTypeResponse, para.ipVersion, 2⟩
  addrInfo := Vector.replicate 20 0
  iotAddrLen := 0

/-- The failures of `create_sess_passive`: a response with a failure code. -/
def passiveRefused (fid : UInt16) (para : SessMsgPara) (code : UInt8) (tx : Option TxRing)
    (c : Core) : Option (ProcessRet × Option TxRing × Core) := do
  let (_, tx) ← sendMessage tx (responseHeader fid para) (some [1, code])
  return (.error, tx, c)

/-- `frontend_high_speed_create_sess_passive`. -/
def createSessPassive (engTxQueue : Bool) (fid : UInt16) (para : SessMsgPara) (p : SessPtr)
    (tx : Option TxRing) (c : Core) : Option (ProcessRet × Option TxRing × Core) :=
  if engTxQueue = false then some (.error, tx, c)
  else do
    let sess ← c.heap p
    if para.ipVersion ≠ sessIpv4Proto then passiveRefused fid para 5 tx c
    else if (searchSess c.pool sess.frontendSessId).isSome then passiveRefused fid para 5 tx c
    else
      let c := c.setSess p { sess with sessState := some .connected, msg := fun _ => some [] }
      match insertSess c.pool sess.frontendSessId p with
      | none => passiveRefused fid para 3 tx c
      | some pool =>
          let (ret, tx) ← sendMessage tx (responseHeader fid para) (some [0, 0])
          return (ret, tx, { c with pool := pool })

/-! ### The handler -/

/-- What the handler leaves: its return code, the TX ring, the sessions, and the sessions
that it has released. -/
structure PassiveResult where
  ret : ProcessRet
  tx : Option TxRing
  core : Core
  freed : List SessPtr

/-- The label `create_sess_error`. The session is released if it is null. -/
def createSessError (newSess : Option SessPtr) (newSessId : UInt16) (tx : Option TxRing)
    (c : Core) : PassiveResult where
  ret := .error
  tx := tx
  core := if newSessId ≠ 0 then c.setIds (releaseId c.pool.idQueue newSessId) else c
  freed := if newSess = none then newSess.toList else []

/-- `malloc` has given a session. -/
def Core.mallocSess (mem : FrontendSession) (c : Core) : Core :=
  { c.setSess c.nextPtr mem with nextPtr := c.nextPtr + 1 }

/-- The parameters in the payload of the command. -/
def passivePara (bid ipVersion : UInt16) (payload : List UInt8) : SessMsgPara where
  backendSessId := bid
  devId := UInt16.ofNat (ofLE (payload.take 2))
  ipVersion := ipVersion
  transProto := UInt16.ofNat (ofLE ((payload.drop 2).take 2))
  endpoint := Vector.ofFn fun i => (payload.drop 4).getD i 0

/-- `frontend_proxy_sess_msg_process_passive_create_ver1`. -/
def processPassiveCreate (ops : FrontendSessionPoolOps) (fid bid ipVersion : UInt16)
    (payload : List UInt8) (mem : Option FrontendSession) (tx : Option TxRing) (c : Core) :
    Option PassiveResult :=
  if ipVersion ≠ sessIpv4Proto then some (createSessError none 0 tx c)
  else if fid ≠ frontendHandoverSessionId then some (createSessError none 0 tx c)
  else
    mem.elim (some (createSessError none 0 tx c)) fun sess =>
      let p := c.nextPtr
      match allocateId c.pool.idQueue with
      | (id, rest) =>
          let c := (c.mallocSess sess).setIds rest
          if id = 0 then some (createSessError (some p) 0 tx c)
          else do
            let create ← ops.createSessPassive
            let (ret, tx, c) ← create fid (passivePara bid ipVersion payload) p tx c
            if ret = .ok then return ⟨ret, tx, c, []⟩
            else return createSessError (some p) id tx c

/-! ### Commands -/

/-- A block with a CREATE command for a session over IPv4. -/
structure PassiveCommand (buf : Mem) : Prop where
  type : ProxyMsgType.ofCode? (ProxyMsgHeader.read buf 0).proxyMsgType = some .sess
  fid : (ProxyMsgHeader.read buf 0).frontendSessId = frontendHandoverSessionId
  hdr : sessHdrOf buf = ⟨1, sessMsgCreate, actionTypeCommand, sessIpv4Proto, 10⟩

/-- The handler on a block. -/
def handlePassive (ops : FrontendSessionPoolOps) (buf : Mem) (mem : Option FrontendSession)
    (tx : Option TxRing) (c : Core) : Option PassiveResult :=
  processPassiveCreate ops (ProxyMsgHeader.read buf 0).frontendSessId
    (ProxyMsgHeader.read buf 0).backendSessId (sessHdrOf buf).ipVersion
    (load buf (proxyMsgHdrSize + innerHdrSize) 10) mem tx c

variable {buf : Mem} {mem : Option FrontendSession} {tx tx' : Option TxRing} {c : Core}
  {id : UInt16} {rest : List UInt16} {ops : FrontendSessionPoolOps} {ret : ProcessRet}

/-- The handler returns for want of memory, or calls the entry of the table. -/
lemma handlePassive_eq (hcmd : PassiveCommand buf) (hids : c.pool.idQueue = id :: rest)
    (hid : id ≠ 0) :
    handlePassive ops buf mem tx c =
      mem.elim (some (createSessError none 0 tx c)) fun sess =>
        ops.createSessPassive.bind fun create =>
          (create frontendHandoverSessionId
            (passivePara (ProxyMsgHeader.read buf 0).backendSessId sessIpv4Proto
              (load buf (proxyMsgHdrSize + innerHdrSize) 10))
            c.nextPtr tx ((c.mallocSess sess).setIds rest)).bind fun r =>
              if r.1 = .ok then some ⟨r.1, r.2.1, r.2.2, []⟩
              else some (createSessError (some c.nextPtr) id r.2.1 r.2.2) := by
  have halloc : allocateId c.pool.idQueue = (id, rest) := by
    rw [hids]
    rfl
  simp only [handlePassive, processPassiveCreate, hcmd.hdr, hcmd.fid, halloc, if_neg hid]
  rfl

/-- **The command reaches the handler.** The engine processes the block with what the
handler makes of the sessions, and has no result where the handler has none. -/
theorem passive_dispatched (hcmd : PassiveCommand buf) (hids : c.pool.idQueue = id :: rest)
    (hid : id ≠ 0) :
    frontendProxyMsgProcess buf mem.isSome c =
      (handlePassive frHighSpeedPoolOps buf mem tx c).map fun r => (r.core, .rx) := by
  have hacc : sessMsgAccepted (sessHdrOf buf) = true := by
    rw [hcmd.hdr]
    decide
  have haction : actionTypeCommand ≠ actionTypeResponse := by decide
  rw [handlePassive_eq hcmd hids hid]
  simp only [frontendProxyMsgProcess, hcmd.type, sessMsgProcess, hacc]
  simp only [hcmd.hdr, hcmd.fid, if_neg haction, sessMsgProcessPassiveCreate, hids, allocateId]
  cases mem with
  | none => simp [createSessError]
  | some sess => simp [frHighSpeedPoolOps, hid]

/-! ### Service -/

/-- The message is a CREATE response with these ids and this status. -/
def IsResponse (bytes : List UInt8) (fid bid : UInt16) (status : UInt8) : Prop :=
  ∃ msg hdr, received bytes = some msg ∧ msg.outer.frontendSessId = fid ∧
    msg.outer.backendSessId = bid ∧ msg.inner = .sess hdr ∧ hdr.msgType = sessMsgCreate ∧
    hdr.actionType = actionTypeResponse ∧ msg.payload.head? = some status

/-- One new session with a fresh id and the id of the backend is in the table, and one
response with both ids and success was sent. -/
def Created (bid : UInt16) (tx : Option TxRing) (c : Core) (r : PassiveResult) : Prop :=
  ∃ p id rest sess ring bytes, c.pool.idQueue = id :: rest ∧ r.core.pool.idQueue = rest ∧
    ¬ c.InTable p ∧ r.core.pool.htable = c.pool.htable ++ [(id, p)] ∧
    r.core.heap p = some sess ∧ sess.frontendSessId = id ∧ sess.backendSessId = bid ∧
    tx = some ring ∧ r.tx = some (ring.push bytes) ∧ IsResponse bytes id bid 0

/-- The pool is as before, the session is released once if it was allocated, and one
response with a failure was sent. -/
def Refused (bid : UInt16) (mem : Option FrontendSession) (tx : Option TxRing) (c : Core)
    (r : PassiveResult) : Prop :=
  r.core.pool = c.pool ∧ r.freed = mem.toList.map (fun _ => c.nextPtr) ∧
    ∃ ring bytes fid status, tx = some ring ∧ r.tx = some (ring.push bytes) ∧
      IsResponse bytes fid bid status ∧ status ≠ 0

/-- The handler returns, with a new session or after a proper refusal. -/
def PassiveServed (ops : FrontendSessionPoolOps) (buf : Mem) (mem : Option FrontendSession)
    (tx : Option TxRing) (c : Core) : Prop :=
  ∃ r, handlePassive ops buf mem tx c = some r ∧
    ((r.ret = .ok ∧ Created (ProxyMsgHeader.read buf 0).backendSessId tx c r) ∨
      (r.ret ≠ .ok ∧ Refused (ProxyMsgHeader.read buf 0).backendSessId mem tx c r))

/-- A refusal without a response is no service. -/
lemma not_refused_same {bid : UInt16} {r : PassiveResult} (htx : r.tx = tx) :
    ¬ Refused bid mem tx c r := by
  rintro ⟨-, -, ring, bytes, fid, status, hring, hpush, -⟩
  rw [htx, hring] at hpush
  exact push_ne ring bytes (Option.some.inj hpush).symm

/-- **No command is served.** Whatever `malloc` gives and whatever the TX ring holds, the
handler calls a null pointer or returns without a response. -/
theorem passive_never (buf : Mem) (mem : Option FrontendSession) (tx : Option TxRing) (c : Core)
    (id : UInt16) (rest : List UInt16) (hcmd : PassiveCommand buf)
    (hids : c.pool.idQueue = id :: rest) (hid : id ≠ 0) :
    ¬ PassiveServed frHighSpeedPoolOps buf mem tx c := by
  rintro ⟨r, hrun, hserved⟩
  rw [handlePassive_eq hcmd hids hid] at hrun
  cases mem with
  | some sess => cases hrun
  | none =>
      obtain rfl := Option.some.inj hrun
      rcases hserved with ⟨hret, -⟩ | ⟨-, hrefused⟩
      · cases hret
      · exact not_refused_same rfl hrefused

/-! ### The missing entry -/

/-- A message is given back only if it was enqueued. -/
lemma enqueued_of_build {enqueue : List UInt8 → HyperampRet} {header : GeneralProxyMsgHeader}
    {payload : Option (List UInt8)} {bytes : List UInt8}
    (h : buildProxyGeneralMessage enqueue header payload = some (ret, some bytes)) :
    ret = .ok ∧ enqueue bytes = .ok := by
  rw [buildProxyGeneralMessage] at h
  split at h
  · cases h
  · rename_i bytes' _
    cases henq : enqueue bytes' with
    | ok =>
        rw [henq] at h
        simp only [Option.some.injEq, Prod.mk.injEq] at h
        obtain ⟨rfl, rfl⟩ := h
        exact ⟨rfl, henq⟩
    | again =>
        rw [henq] at h
        simp at h
    | error =>
        rw [henq] at h
        simp at h
  · simp at h

/-- What a session message adds to the ring has the id of its header. -/
lemma sent_fid {header : GeneralProxyMsgHeader} {payload : Option (List UInt8)}
    (htype : ProxyMsgType.ofCode? header.outerHeader.proxyMsgType = some .sess)
    (hsend : sendMessage tx header payload = some (ret, tx')) :
    tx' = tx ∨ ∃ ring bytes msg, tx = some ring ∧ tx' = some (ring.push bytes) ∧
      received bytes = some msg ∧ msg.outer.frontendSessId = header.outerHeader.frontendSessId := by
  cases tx with
  | none =>
      simp only [sendMessage, Option.elim_none, Option.some.injEq, Prod.mk.injEq] at hsend
      exact .inl hsend.2.symm
  | some ring =>
      obtain ⟨⟨ret', sent⟩, hbuild, hrest⟩ := Option.bind_eq_some_iff.mp hsend
      simp only [Option.pure_def, Option.some.injEq, Prod.mk.injEq] at hrest
      obtain ⟨rfl, rfl⟩ := hrest
      cases sent with
      | none => exact .inl rfl
      | some bytes =>
          obtain ⟨rfl, henq⟩ := enqueued_of_build hbuild
          have hpush : (ring.enqueue bytes).2 = ring.push bytes := by
            rw [TxRing.enqueue] at henq ⊢
            split_ifs at henq ⊢
            rfl
          obtain ⟨msg, -, hparse, -, -, -, hfid, -⟩ :=
            (proxy_round_trip_iff _ _ _ _ hbuild (by rw [htype]; simp)
              (store (fun _ => 0) 0 bytes) 0 (load_store_same _ _ _)).mpr (by rw [htype]; simp) none
          exact .inr ⟨ring, bytes, msg, rfl, by rw [Option.elim_some, hpush], hparse, hfid⟩

/-- A response of `create_sess_passive` has the front end's id of the command. -/
lemma createSessPassive_fid {engTxQueue : Bool} {fid : UInt16} {para : SessMsgPara} {p : SessPtr}
    {c' : Core} (h : createSessPassive engTxQueue fid para p tx c = some (ret, tx', c')) :
    tx' = tx ∨ ∃ ring bytes msg, tx = some ring ∧ tx' = some (ring.push bytes) ∧
      received bytes = some msg ∧ msg.outer.frontendSessId = fid := by
  have hrefused : ∀ {code : UInt8} {c : Core},
      passiveRefused fid para code tx c = some (ret, tx', c') →
        tx' = tx ∨ ∃ ring bytes msg, tx = some ring ∧ tx' = some (ring.push bytes) ∧
          received bytes = some msg ∧ msg.outer.frontendSessId = fid := by
    intro code c hcode
    obtain ⟨⟨ret', tx''⟩, hsend, hrest⟩ := Option.bind_eq_some_iff.mp hcode
    simp only [Option.pure_def, Option.some.injEq, Prod.mk.injEq] at hrest
    obtain ⟨-, rfl, -⟩ := hrest
    exact sent_fid rfl hsend
  rw [createSessPassive] at h
  by_cases hqueue : engTxQueue = false
  · rw [if_pos hqueue] at h
    simp only [Option.some.injEq, Prod.mk.injEq] at h
    exact .inl h.2.1.symm
  · rw [if_neg hqueue] at h
    obtain ⟨sess, -, h⟩ := Option.bind_eq_some_iff.mp h
    split_ifs at h
    · exact hrefused h
    · exact hrefused h
    · dsimp only at h
      split at h
      · exact hrefused h
      · obtain ⟨⟨ret', tx''⟩, hsend, hrest⟩ := Option.bind_eq_some_iff.mp h
        simp only [Option.pure_def, Option.some.injEq, Prod.mk.injEq] at hrest
        obtain ⟨-, rfl, -⟩ := hrest
        exact sent_fid rfl hsend

/-- **The missing entry is not all that is missing.** With `create_sess_passive` in the
table no command is served either. A success is answered with the front end's id of the
command, which is no free id, and after a failure the new session is not released. -/
theorem passive_installed (engTxQueue : Bool) (buf : Mem) (mem : Option FrontendSession)
    (tx : Option TxRing) (c : Core) (id : UInt16) (rest : List UInt16) (hcmd : PassiveCommand buf)
    (hids : c.pool.idQueue = id :: rest) (hid : id ≠ 0) (hfree : id ≠ frontendHandoverSessionId) :
    ¬ PassiveServed ⟨some (createSessPassive engTxQueue)⟩ buf mem tx c := by
  rintro ⟨r, hrun, hserved⟩
  rw [handlePassive_eq hcmd hids hid] at hrun
  cases mem with
  | none =>
      obtain rfl := Option.some.inj hrun
      rcases hserved with ⟨hret, -⟩ | ⟨-, hrefused⟩
      · cases hret
      · exact not_refused_same rfl hrefused
  | some sess =>
      simp only [Option.elim_some, Option.bind_some] at hrun
      obtain ⟨⟨ret, tx', c'⟩, hcreate, hrest⟩ := Option.bind_eq_some_iff.mp hrun
      dsimp only at hrest
      split_ifs at hrest with hret
      · obtain rfl := Option.some.inj hrest
        rcases hserved with ⟨-, hcreated⟩ | ⟨hne, -⟩
        · obtain ⟨p, id', rest', sess', ring, bytes, hids', -, -, -, -, -, -, hring, hpush, hresp⟩ :=
            hcreated
          obtain ⟨rfl, -⟩ := List.cons.inj (hids.symm.trans hids')
          rcases createSessPassive_fid hcreate with
            hsame | ⟨ring', bytes', msg, hring', hpush', hmsg, hfid⟩
          · have hsame' : some (ring.push bytes) = some ring := by
              rw [← hpush, ← hring]
              exact hsame
            exact push_ne ring bytes (Option.some.inj hsame')
          · -- the message in the ring is the response, so its id is that of the command
            have hbytes : bytes = bytes' := by
              rw [hring, Option.some.injEq] at hring'
              subst hring'
              have hmsgs := congrArg TxRing.msgs (Option.some.inj (hpush.symm.trans hpush'))
              simpa [TxRing.push] using hmsgs
            obtain ⟨msg', hdr, hmsg', hfid', -⟩ := hresp
            rw [hbytes, hmsg] at hmsg'
            obtain rfl := Option.some.inj hmsg'
            exact hfree (hfid'.symm.trans hfid)
        · exact hne hret
      · obtain rfl := Option.some.inj hrest
        rcases hserved with ⟨hok, -⟩ | ⟨-, -, hfreed, -⟩
        · cases hok
        · simp [createSessError] at hfreed

/-! ### A command -/

/-- A CREATE command of the backend's session 5 for the address 10.0.0.1, port 80. -/
def sampleCommand : Mem :=
  store (fun _ => 0) 0
    [1, 2, 0xFF, 0xFF, 5, 0, 20, 0, 1, 0, 1, 0, 0, 0, 4, 0, 10, 0, 0, 0, 0, 0, 10, 0, 0, 1, 80, 0]

lemma sampleCommand_passive : PassiveCommand sampleCommand :=
  ⟨by decide +kernel, by decide +kernel, by decide +kernel⟩

/-- A fresh pool and no memory for the session. -/
theorem passive_never_sample :
    ¬ PassiveServed frHighSpeedPoolOps sampleCommand none (some ⟨64, 4096, []⟩)
      (sampleCore [1, 2] []) :=
  passive_never _ _ _ _ 1 [2] sampleCommand_passive rfl (by decide)

/-- A fresh pool, an empty ring and memory for the session: the handler calls the null
pointer. -/
theorem passive_null_call :
    ¬ PassiveServed frHighSpeedPoolOps sampleCommand (some newSess) (some ⟨64, 4096, []⟩)
      (sampleCore [1, 2] []) := by
  have hcall : handlePassive frHighSpeedPoolOps sampleCommand (some newSess)
      (some ⟨64, 4096, []⟩) (sampleCore [1, 2] []) = none := by
    rw [handlePassive_eq sampleCommand_passive rfl (by decide)]
    rfl
  rintro ⟨r, hrun, -⟩
  rw [hcall] at hrun
  cases hrun

end Frontend
