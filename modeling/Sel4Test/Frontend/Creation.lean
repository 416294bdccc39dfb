import Sel4Test.Frontend.Pool
import Sel4Test.Frontend.RoundTrip
import Sel4Test.Hyperamp.Fifo

/-!
The creation of a session together with the TX ring, `session_pool.c`.

`createSessStep1` of the pool takes the answer of the TX ring as an argument. Here the
ring is part of the state: the messages that wait in it and the two numbers of its
control block. A creation takes an id, sends the CREATE command and inserts the
session in the table, and each of the last two may fail. The id goes back then, but a
command that was sent stays in the ring.

The session that is created must not be in the table, since its id is the key there.

* `enqueue_refines`: the ring does what `hyperamp_queue_enqueue` does to the memory.
* `fillCreate`: the CREATE command, as its reader sees it.
* `createSessTx_core`: the creation is that of the pool with the answer of the ring.
* `create_atomic_iff`: it is all or nothing unless the first free id is `0`, or is the
  key of a session in the table while the command can be sent.
-/

namespace Frontend

open ByteMem Hyperamp

/-! ### The TX ring -/

/-- A queue of HyperAMP: the capacity and the block size in its control block and the
messages that wait in it. A control block of zeroes has block size `0`. -/
structure TxRing where
  capacity : ℕ
  blockSize : ℕ
  msgs : List (List UInt8)
  deriving DecidableEq

namespace TxRing

/-- The ring with one more message. -/
def push (ring : TxRing) (bytes : List UInt8) : TxRing :=
  { ring with msgs := ring.msgs ++ [bytes] }

/-- `hyperamp_queue_enqueue`. -/
def enqueue (ring : TxRing) (bytes : List UInt8) : HyperampRet × TxRing :=
  if bytes.length = 0 ∨ ring.blockSize < bytes.length then (.error, ring)
  else if ring.capacity ≤ ring.msgs.length + 1 then (.again, ring)
  else (.ok, ring.push bytes)

/-- A message of `len` bytes finds a place. -/
def Accepts (ring : TxRing) (len : ℕ) : Prop :=
  len ≤ ring.blockSize ∧ ring.msgs.length + 1 < ring.capacity

instance (ring : TxRing) (len : ℕ) : Decidable (ring.Accepts len) :=
  inferInstanceAs (Decidable (_ ∧ _))

variable {ring : TxRing} {bytes : List UInt8}

lemma enqueue_ok (hlen : bytes.length ≠ 0) (h : ring.Accepts bytes.length) :
    ring.enqueue bytes = (.ok, ring.push bytes) := by
  obtain ⟨hsize, hroom⟩ := h
  rw [enqueue, if_neg (by omega), if_neg (by omega)]

lemma enqueue_refused (h : ¬ ring.Accepts bytes.length) :
    (ring.enqueue bytes).1 ≠ .ok ∧ (ring.enqueue bytes).2 = ring := by
  rw [enqueue]
  split_ifs with hsize hroom
  · exact ⟨by simp, rfl⟩
  · exact ⟨by simp, rfl⟩
  · exact absurd ⟨by omega, by omega⟩ h

/-- **The ring refines the queue**: on memory that represents the messages of the ring,
`hyperamp_queue_enqueue` gives the return code of the ring and leaves memory that
represents the messages of the ring afterwards. -/
theorem enqueue_refines {p : PrivateQueue} {m : Mem} {zone : ℕ} (h : QueueInv p m ring.msgs)
    (hcap : ring.capacity = p.c) (hsize : ring.blockSize = p.b) :
    ∃ m', hyperampQueueEnqueue m p.queue zone (some bytes) p.virtBase =
        some ((ring.enqueue bytes).1, m') ∧ QueueInv p m' (ring.enqueue bytes).2.msgs := by
  have hexec : ∀ {ret out m' ys}, CallSpec p m ring.msgs (.enqueue zone (some bytes)) ret out m' ys →
      hyperampQueueEnqueue m p.queue zone (some bytes) p.virtBase = some (ret, m') := by
    intro ret out m' ys hcall
    obtain ⟨⟨ret', m''⟩, henq, hret⟩ := Option.bind_eq_some_iff.mp hcall.exec
    obtain ⟨rfl, -, rfl⟩ : ret' = ret ∧ [] = out ∧ m'' = m' := by simpa using hret
    exact henq
  have hlt : ring.msgs.length < p.c := h.ring.length_lt
  rw [enqueue, hcap, hsize]
  split_ifs with hbad hfull
  · refine ⟨m, hexec (enqueue_invalid_simulates zone h ?_), h⟩
    rintro ⟨d, hd, hne, hlen⟩
    obtain rfl := Option.some.inj hd
    rcases hbad with hnil | hlong
    · exact hne (List.length_eq_zero_iff.mp hnil)
    · omega
  · have hne : bytes ≠ [] := fun hnil => hbad (.inl (by rw [hnil, List.length_nil]))
    obtain ⟨m', hcall⟩ := enqueue_full_simulates zone h hne (by omega) (by omega)
    exact ⟨m', hexec hcall, hcall.inv⟩
  · have hne : bytes ≠ [] := fun hnil => hbad (.inl (by rw [hnil, List.length_nil]))
    obtain ⟨m', hcall⟩ := enqueue_room_simulates zone h hne (by omega) (by omega)
    exact ⟨m', hexec hcall, hcall.inv⟩

end TxRing

/-- `build_proxy_general_message` with the TX queue of the engine, `none` for the null
pointer. -/
def sendMessage (tx : Option TxRing) (header : GeneralProxyMsgHeader)
    (payload : Option (List UInt8)) : Option (ProcessRet × Option TxRing) :=
  tx.elim (some (.error, none)) fun ring => do
    let (ret, sent) ← buildProxyGeneralMessage (fun bytes => (ring.enqueue bytes).1) header payload
    return (ret, some (sent.elim ring fun bytes => (ring.enqueue bytes).2))

/-! ### The CREATE command -/

/-- A message as it is read from its block. -/
def received (bytes : List UInt8) : Option ParsedMsg :=
  parseProxyMsg none (store (fun _ => 0) 0 bytes) 0

/-- The message is a CREATE command with this id and payload. -/
def IsCreate (bytes : List UInt8) (id : UInt16) (payload : List UInt8) : Prop :=
  ∃ msg hdr, received bytes = some msg ∧ msg.outer.frontendSessId = id ∧ msg.inner = .sess hdr ∧
    hdr.msgType = sessMsgCreate ∧ hdr.actionType = actionTypeCommand ∧ msg.payload = payload

/-- The size of a CREATE command. -/
def createSize : ℕ := 28

variable {c c' : Core} {p : SessPtr} {para : SessMsgPara} {id : UInt16} {sess : FrontendSession}
  {tx tx' : Option TxRing} {ring : TxRing} {ret : ProcessRet}

lemma length_createPayload (para : SessMsgPara) : (createPayload para).length = 10 := by
  rw [createPayload, List.length_append, List.length_append, length_toLE, length_toLE,
    Vector.length_toList]

/-- The command of a session over IPv4. -/
lemma fillCreate (id : UInt16) (hip : para.ipVersion = sessIpv4Proto) :
    ∃ bytes, fillMessage (createHeader id para) (some (createPayload para)) = some (.ok, bytes) ∧
      bytes.length = createSize ∧ IsCreate bytes id (createPayload para) := by
  have hlen := length_createPayload para
  have hcode : ProxyMsgType.ofCode? (createHeader id para).outerHeader.proxyMsgType = some .sess :=
    rfl
  obtain ⟨buf, hbuf⟩ : ∃ buf, buildProxySessMessage
      ⟨1, sessMsgCreate, actionTypeCommand, para.ipVersion, 10⟩ (some (createPayload para))
      (outerBuf (createHeader id para).outerHeader) proxyMsgHdrSize = (.ok, buf) := by
    have hcorr : 10 = toSizeT (sessMsgPayloadLen sessMsgCreate actionTypeCommand sessIpv4Proto) := by
      decide
    simp only [buildProxySessMessage, payloadBytes, Option.getD_some, hlen, hip, ← hcorr]
    exact ⟨_, rfl⟩
  have hinner : buildInner (createHeader id para) (some (createPayload para))
      (outerBuf (createHeader id para).outerHeader) proxyMsgHdrSize = some (.ok, buf) := by
    rw [← hbuf]
    rfl
  have hfill : fillMessage (createHeader id para) (some (createPayload para)) =
      some (.ok, load (writeU16 buf 6 (UInt16.ofNat (10 + innerHdrSize))) 0 createSize) := by
    have hsize : innerSize (createHeader id para) = some innerHdrSize := rfl
    simp only [fillMessage, hsize, hinner, payloadBytes, Option.getD_some, hlen]
    rfl
  refine ⟨_, hfill, length_load _ _ _, ?_⟩
  have hsend : buildProxyGeneralMessage (fun _ => .ok) (createHeader id para)
      (some (createPayload para)) =
        some (.ok, some (load (writeU16 buf 6 (UInt16.ofNat (10 + innerHdrSize))) 0 createSize)) := by
    rw [buildProxyGeneralMessage, hfill]
  obtain ⟨msg, inner, hparse, -, -, -, hid, -, hsess, hpay, -⟩ :=
    (proxy_round_trip_iff _ _ _ _ hsend (by rw [hcode]; simp) (store (fun _ => 0) 0 _) 0
      (load_store_same _ _ _)).mpr (by rw [hcode]; simp) none
  exact ⟨msg, _, hparse, hid, hsess, rfl, rfl, hpay⟩

/-- Only sessions over IPv4 have a command. -/
lemma fillCreate_refused (id : UInt16) (hip : para.ipVersion ≠ sessIpv4Proto) :
    fillMessage (createHeader id para) (some (createPayload para)) = some (.error, []) := by
  have hlen := length_createPayload para
  have hcorr : (10 : ℕ) ≠
      toSizeT (sessMsgPayloadLen sessMsgCreate actionTypeCommand para.ipVersion) := by
    have hcases : sessMsgPayloadLen sessMsgCreate actionTypeCommand para.ipVersion = 22 ∨
        sessMsgPayloadLen sessMsgCreate actionTypeCommand para.ipVersion = -1 := by
      have hne : actionTypeCommand ≠ actionTypeResponse ∧ sessMsgCreate ≠ sessMsgClose := by decide
      rw [sessMsgPayloadLen, if_neg hne.2, if_pos rfl, if_neg hne.1, if_pos rfl, if_neg hip]
      split_ifs
      · exact .inl rfl
      · exact .inr rfl
    rcases hcases with h | h
    · rw [h]
      decide
    · rw [h]
      decide
  have hbuild : buildInner (createHeader id para) (some (createPayload para))
      (outerBuf (createHeader id para).outerHeader) proxyMsgHdrSize =
        some (.error, outerBuf (createHeader id para).outerHeader) := by
    have hrefused : buildProxySessMessage ⟨1, sessMsgCreate, actionTypeCommand, para.ipVersion, 10⟩
        (some (createPayload para)) (outerBuf (createHeader id para).outerHeader) proxyMsgHdrSize =
          (.error, outerBuf (createHeader id para).outerHeader) := by
      simp only [buildProxySessMessage, payloadBytes, Option.getD_some, hlen]
      rw [if_pos hcorr]
    rw [← hrefused]
    rfl
  have hsize : innerSize (createHeader id para) = some innerHdrSize := rfl
  simp only [fillMessage, hsize, hbuild]
  rfl

/-- The command of a session can be sent. -/
def CreateSendable (para : SessMsgPara) (tx : Option TxRing) : Prop :=
  para.ipVersion = sessIpv4Proto ∧ ∃ ring, tx = some ring ∧ ring.Accepts createSize

/-- The command is sent. -/
lemma sendCreate (id : UInt16) (h : CreateSendable para tx) :
    ∃ ring bytes, tx = some ring ∧ IsCreate bytes id (createPayload para) ∧
      sendMessage tx (createHeader id para) (some (createPayload para)) =
        some (.ok, some (ring.push bytes)) := by
  obtain ⟨hip, ring, rfl, hacc⟩ := h
  obtain ⟨bytes, hfill, hlen, hcreate⟩ := fillCreate id hip
  have henq : ring.enqueue bytes = (.ok, ring.push bytes) :=
    TxRing.enqueue_ok (by rw [hlen, createSize]; omega) (hlen ▸ hacc)
  refine ⟨ring, bytes, rfl, hcreate, ?_⟩
  simp [sendMessage, buildProxyGeneralMessage, hfill, henq]

/-- The command is not sent, and the ring is as before. -/
lemma sendCreate_refused (id : UInt16) (h : ¬ CreateSendable para tx) :
    ∃ ret, ret ≠ .ok ∧
      sendMessage tx (createHeader id para) (some (createPayload para)) = some (ret, tx) := by
  cases tx with
  | none => exact ⟨.error, by simp, rfl⟩
  | some ring =>
      by_cases hip : para.ipVersion = sessIpv4Proto
      · obtain ⟨bytes, hfill, hlen, -⟩ := fillCreate id hip
        have hacc : ¬ ring.Accepts bytes.length := fun hacc => h ⟨hip, ring, rfl, hlen ▸ hacc⟩
        obtain ⟨hret, -⟩ := TxRing.enqueue_refused hacc
        cases henq : (ring.enqueue bytes).1 with
        | ok => exact absurd henq hret
        | error =>
            refine ⟨.error, by simp, ?_⟩
            simp [sendMessage, buildProxyGeneralMessage, hfill, henq]
        | again =>
            refine ⟨.again, by simp, ?_⟩
            simp [sendMessage, buildProxyGeneralMessage, hfill, henq]
      · refine ⟨.error, by simp, ?_⟩
        simp [sendMessage, buildProxyGeneralMessage, fillCreate_refused id hip]

/-! ### The creation -/

/-- The free ids are replaced. -/
def Core.setIds (ids : List UInt16) (c : Core) : Core :=
  { c with pool := { c.pool with idQueue := ids } }

/-- `frontend_high_speed_create_sess_step1`. An id `0` in the queue is taken and
lost. -/
def createSessTx (para : SessMsgPara) (p : SessPtr) (tx : Option TxRing) (c : Core) :
    Option (ProcessRet × Option TxRing × Core) := do
  let sess ← c.heap p
  match allocateId c.pool.idQueue with
  | (id, rest) =>
      let c := c.setIds rest
      if id = 0 then return (.error, tx, c)
      else if c.InTable p then none
      else
        let sess := initSess sess id para
        let c := c.record (.started p)
        let (ret, tx) ← sendMessage tx (createHeader id para) (some (createPayload para))
        if ret = .ok then
          let c := (c.setSess p { sess with sessState := some .connecting }).record
            (.createSent p id)
          match insertSess c.pool id p with
          | some pool => return (.ok, tx, { c with pool := pool })
          | none => return (.error, tx, c.setIds (releaseId rest id))
        else return (.error, tx, (c.setSess p sess).setIds (releaseId rest id))

/-- The session is started with an id. -/
def startedSess (para : SessMsgPara) (p : SessPtr) (id : UInt16) (rest : List UInt16)
    (sess : FrontendSession) (c : Core) : Core :=
  ((c.setIds rest).record (.started p)).setSess p (initSess sess id para)

/-- The command of the session was sent. -/
def connectingSess (para : SessMsgPara) (p : SessPtr) (id : UInt16) (rest : List UInt16)
    (sess : FrontendSession) (c : Core) : Core :=
  (((c.setIds rest).record (.started p)).setSess p
    { initSess sess id para with sessState := some .connecting }).record (.createSent p id)

/-- The session is in the table. -/
def insertedSess (para : SessMsgPara) (p : SessPtr) (id : UInt16) (rest : List UInt16)
    (sess : FrontendSession) (c : Core) : Core :=
  { connectingSess para p id rest sess c with
    pool :=
      { c.pool with
        idQueue := rest
        htable := c.pool.htable ++ [(id, p)]
        sessNum := c.pool.sessNum + 1 } }

lemma insert_connecting {rest : List UInt16} (hkey : searchSess c.pool id = none) :
    insertSess (connectingSess para p id rest sess c).pool id p =
      some (insertedSess para p id rest sess c).pool := by
  have hkey' : searchSess (connectingSess para p id rest sess c).pool id = none := hkey
  rw [insertSess, hkey']
  rfl

lemma insert_connecting_taken {rest : List UInt16} (hkey : searchSess c.pool id ≠ none) :
    insertSess (connectingSess para p id rest sess c).pool id p = none := by
  obtain ⟨q, hq⟩ := Option.ne_none_iff_exists'.mp hkey
  have hq' : searchSess (connectingSess para p id rest sess c).pool id = some q := hq
  rw [insertSess, hq']

lemma search_inserted {rest : List UInt16} (hkey : searchSess c.pool id = none) :
    searchSess (insertedSess para p id rest sess c).pool id = some p := by
  have hnone : c.pool.htable.find? (fun e => e.1 = id) = none := Option.map_eq_none_iff.mp hkey
  simp only [searchSess, insertedSess, List.find?_append, hnone]
  simp

/-- No id is left. -/
lemma createSessTx_empty (hsess : c.heap p = some sess) (hids : c.pool.idQueue = []) :
    createSessTx para p tx c = some (.error, tx, c) := by
  have hsame : c.setIds [] = c := by rw [← hids, Core.setIds]
  simp only [createSessTx, hsess, hids, allocateId]
  rw [hsame]
  rfl

/-- The first id is `0`. -/
lemma createSessTx_zero {rest : List UInt16} (hsess : c.heap p = some sess)
    (hids : c.pool.idQueue = 0 :: rest) :
    createSessTx para p tx c = some (.error, tx, c.setIds rest) := by
  simp only [createSessTx, hsess, hids, allocateId]
  rfl

section Taken

variable {rest : List UInt16} (hsess : c.heap p = some sess) (hout : ¬ c.InTable p)
  (hids : c.pool.idQueue = id :: rest) (hid : id ≠ 0)

include hsess hout hids hid

/-- The command cannot be sent: the id goes to the end of the queue. -/
lemma createSessTx_unsent (h : ¬ CreateSendable para tx) :
    createSessTx para p tx c =
      some (.error, tx, (startedSess para p id rest sess c).setIds (rest ++ [id])) := by
  obtain ⟨ret, hret, hsend⟩ := sendCreate_refused id h
  have hout' : ¬ (c.setIds rest).InTable p := hout
  simp only [createSessTx, hsess, hids, allocateId]
  simp only [Option.bind_eq_bind, Option.bind_some, if_neg hid, if_neg hout', hsend, if_neg hret]
  rfl

/-- The command is sent and the id is the key of a session. -/
lemma createSessTx_taken (h : CreateSendable para tx) (hkey : searchSess c.pool id ≠ none) :
    ∃ ring bytes, tx = some ring ∧ IsCreate bytes id (createPayload para) ∧
      createSessTx para p tx c = some (.error, some (ring.push bytes),
        (connectingSess para p id rest sess c).setIds (rest ++ [id])) := by
  obtain ⟨ring, bytes, rfl, hcreate, hsend⟩ := sendCreate id h
  have hout' : ¬ (c.setIds rest).InTable p := hout
  have hinsert : insertSess (connectingSess para p id rest sess c).pool id p = none :=
    insert_connecting_taken hkey
  refine ⟨ring, bytes, rfl, hcreate, ?_⟩
  simp only [createSessTx, hsess, hids, allocateId]
  simp only [Option.bind_eq_bind, Option.bind_some, if_neg hid, if_neg hout', hsend, if_true]
  rw [connectingSess] at hinsert
  rw [hinsert]
  rfl

/-- The command is sent and the session is inserted. -/
lemma createSessTx_created (h : CreateSendable para tx) (hkey : searchSess c.pool id = none) :
    ∃ ring bytes, tx = some ring ∧ IsCreate bytes id (createPayload para) ∧
      createSessTx para p tx c =
        some (.ok, some (ring.push bytes), insertedSess para p id rest sess c) := by
  obtain ⟨ring, bytes, rfl, hcreate, hsend⟩ := sendCreate id h
  have hout' : ¬ (c.setIds rest).InTable p := hout
  have hinsert : _ = some (insertedSess para p id rest sess c).pool := insert_connecting hkey
  refine ⟨ring, bytes, rfl, hcreate, ?_⟩
  simp only [createSessTx, hsess, hids, allocateId]
  simp only [Option.bind_eq_bind, Option.bind_some, if_neg hid, if_neg hout', hsend, if_true]
  rw [connectingSess] at hinsert
  rw [hinsert]
  rfl

end Taken

/-! ### The pool without its ring -/

lemma buildCreate_error (id : UInt16) (para : SessMsgPara) :
    buildProxyGeneralMessage (fun _ => .error) (createHeader id para) (some (createPayload para)) =
      some (.error, none) := by
  by_cases hip : para.ipVersion = sessIpv4Proto
  · obtain ⟨bytes, hfill, -⟩ := fillCreate id hip
    rw [buildProxyGeneralMessage, hfill]
  · rw [buildProxyGeneralMessage, fillCreate_refused id hip]

lemma buildCreate_ok (id : UInt16) (hip : para.ipVersion = sessIpv4Proto) :
    ∃ bytes, buildProxyGeneralMessage (fun _ => .ok) (createHeader id para)
      (some (createPayload para)) = some (.ok, some bytes) := by
  obtain ⟨bytes, hfill, -⟩ := fillCreate id hip
  exact ⟨bytes, by rw [buildProxyGeneralMessage, hfill]⟩

/-- **The creation is that of the pool** with the answer that the ring gives. -/
theorem createSessTx_core (hsess : c.heap p = some sess) (hout : ¬ c.InTable p) :
    ∃ ans ret tx' c', createSessTx para p tx c = some (ret, tx', c') ∧
      createSessStep1 para ans p c = some (ret, c') := by
  cases hids : c.pool.idQueue with
  | nil =>
      have hsame : c.setIds [] = c := by rw [← hids, Core.setIds]
      refine ⟨.ok, .error, tx, c.setIds [], ?_, ?_⟩
      · rw [hsame]
        exact createSessTx_empty hsess hids
      · simp only [createSessStep1, hsess, hids, allocateId]
        rfl
  | cons id rest =>
      by_cases hid : id = 0
      · subst hid
        refine ⟨.ok, .error, tx, c.setIds rest, createSessTx_zero hsess hids, ?_⟩
        simp only [createSessStep1, hsess, hids, allocateId]
        rfl
      have hout' : ¬ Core.InTable { c with pool := { c.pool with idQueue := rest } } p := hout
      by_cases hsend : CreateSendable para tx
      · obtain ⟨bytes, hbuild⟩ := buildCreate_ok id hsend.1
        by_cases hkey : searchSess c.pool id = none
        · obtain ⟨ring, sent, -, -, hcreate⟩ := createSessTx_created hsess hout hids hid hsend hkey
          refine ⟨.ok, _, _, _, hcreate, ?_⟩
          have hinsert : _ = some (insertedSess para p id rest sess c).pool := insert_connecting hkey
          simp only [createSessStep1, hsess, hids, allocateId]
          simp only [Option.bind_eq_bind, Option.bind_some, if_neg hout', if_neg hid, hbuild]
          rw [connectingSess, Core.setIds] at hinsert
          rw [hinsert]
          rfl
        · obtain ⟨ring, sent, -, -, hcreate⟩ := createSessTx_taken hsess hout hids hid hsend hkey
          refine ⟨.ok, _, _, _, hcreate, ?_⟩
          have hinsert : insertSess (connectingSess para p id rest sess c).pool id p = none :=
            insert_connecting_taken hkey
          simp only [createSessStep1, hsess, hids, allocateId]
          simp only [Option.bind_eq_bind, Option.bind_some, if_neg hout', if_neg hid, hbuild]
          rw [connectingSess, Core.setIds] at hinsert
          rw [hinsert]
          rfl
      · refine ⟨.error, _, _, _, createSessTx_unsent hsess hout hids hid hsend, ?_⟩
        simp only [createSessStep1, hsess, hids, allocateId]
        simp only [Option.bind_eq_bind, Option.bind_some, if_neg hout', if_neg hid,
          buildCreate_error]
        rfl

/-! ### All or nothing -/

/-- The free ids as a multiset, the table, the counter and the active queues are as
before. -/
structure Undone (c c' : Core) : Prop where
  ids : c'.pool.idQueue.Perm c.pool.idQueue
  htable : c'.pool.htable = c.pool.htable
  sessNum : c'.pool.sessNum = c.pool.sessNum
  queue : c'.pool.queue = c.pool.queue

/-- The creation returns. When it fails, the pool and the ring are as before; when it
succeeds, the ring has one more message, a CREATE command, and its id finds the
session. -/
def CreateAtomic (para : SessMsgPara) (p : SessPtr) (tx : Option TxRing) (c : Core) : Prop :=
  ∃ ret tx' c', createSessTx para p tx c = some (ret, tx', c') ∧
    (ret ≠ .ok → Undone c c' ∧ tx' = tx) ∧
    (ret = .ok → ∃ ring bytes id, tx = some ring ∧ tx' = some (ring.push bytes) ∧
      IsCreate bytes id (createPayload para) ∧ searchSess c'.pool id = some p)

lemma push_ne (ring : TxRing) (bytes : List UInt8) : ring.push bytes ≠ ring := by
  intro h
  have hlen := congrArg (fun ring => ring.msgs.length) h
  simp [TxRing.push] at hlen

/-- **When a creation is all or nothing**: the first free id is not `0`, and if the CREATE
command can be sent then that id is not the key of a session in the table. -/
theorem create_atomic_iff (para : SessMsgPara) (p : SessPtr) (tx : Option TxRing) (c : Core)
    (sess : FrontendSession) (hsess : c.heap p = some sess) (hout : ¬ c.InTable p) :
    CreateAtomic para p tx c ↔
      ∀ id rest, c.pool.idQueue = id :: rest →
        id ≠ 0 ∧ (CreateSendable para tx → searchSess c.pool id = none) := by
  constructor
  · rintro ⟨ret, tx', c', heval, hfail, -⟩ id rest hids
    have hid : id ≠ 0 := by
      rintro rfl
      rw [createSessTx_zero hsess hids] at heval
      simp only [Option.some.injEq, Prod.mk.injEq] at heval
      obtain ⟨rfl, rfl, rfl⟩ := heval
      -- the lost id is missing
      have hlen := (hfail (by simp)).1.ids.length_eq
      simp [hids, Core.setIds] at hlen
    refine ⟨hid, ?_⟩
    intro hsend
    by_contra hkey
    obtain ⟨ring, bytes, rfl, -, hcreate⟩ := createSessTx_taken hsess hout hids hid hsend hkey
    rw [hcreate] at heval
    simp only [Option.some.injEq, Prod.mk.injEq] at heval
    obtain ⟨rfl, rfl, rfl⟩ := heval
    exact push_ne ring bytes (Option.some.inj (hfail (by simp)).2)
  · intro h
    cases hids : c.pool.idQueue with
    | nil =>
        exact ⟨.error, tx, c, createSessTx_empty hsess hids,
          fun _ => ⟨⟨.refl _, rfl, rfl, rfl⟩, rfl⟩, by simp⟩
    | cons id rest =>
        obtain ⟨hid, hkey⟩ := h id rest hids
        by_cases hsend : CreateSendable para tx
        · obtain ⟨ring, bytes, htx, hmsg, hcreate⟩ :=
            createSessTx_created hsess hout hids hid hsend (hkey hsend)
          exact ⟨.ok, _, _, hcreate, by simp,
            fun _ => ⟨ring, bytes, id, htx, rfl, hmsg, search_inserted (hkey hsend)⟩⟩
        · refine ⟨.error, tx, _, createSessTx_unsent hsess hout hids hid hsend, ?_, by simp⟩
          intro _
          refine ⟨⟨?_, rfl, rfl, rfl⟩, rfl⟩
          have hperm : (rest ++ [id]).Perm (id :: rest) := List.perm_append_singleton id rest
          rw [← hids] at hperm
          exact hperm

/-! ### An orphan request -/

/-- A session that waits for its connection, and the parameters of a connection to
192.168.137.1, port 8888. -/
def newSess : FrontendSession where
  sessState := none
  ipVersion := 0
  frontendSessId := 0
  backendSessId := 0
  linked := fun _ => false
  msg := fun _ => none

def sampleConnection : SessMsgPara where
  backendSessId := 0xFFFF
  devId := 0xFFFF
  ipVersion := sessIpv4Proto
  transProto := 0
  endpoint := #v[192, 168, 137, 1, 0xB8, 0x22]

/-- A pool with the free ids and the table that are given, and a new session at `7`. -/
def sampleCore (ids : List UInt16) (htable : List (UInt16 × SessPtr)) : Core where
  heap := fun q => if q = 7 then some newSess else none
  nextPtr := 8
  pool := { sessNum := htable.length, idQueue := ids, queue := fun _ => [], htable := htable }
  engineOps := false
  log := []

/-- The first creation of a fresh pool with an empty ring of 64 blocks. -/
theorem create_atomic_first :
    CreateAtomic sampleConnection 7 (some ⟨64, 4096, []⟩) (sampleCore [1, 2] []) := by
  refine (create_atomic_iff _ _ _ _ newSess rfl (by decide)).mpr ?_
  intro id rest hids
  obtain ⟨rfl, -⟩ := List.cons.inj hids
  exact ⟨by decide, fun _ => rfl⟩

/-- The id `1` was given back while its session is in the table. The next creation takes
it, sends a CREATE command and fails. -/
theorem create_orphan :
    ¬ CreateAtomic sampleConnection 7 (some ⟨64, 4096, []⟩) (sampleCore [1] [(1, 3)]) := by
  rintro ⟨ret, tx', c', heval, hfail, -⟩
  have hrun : (createSessTx sampleConnection 7 (some ⟨64, 4096, []⟩)
      (sampleCore [1] [(1, 3)])).map (fun r => (r.1, r.2.1.map fun ring => ring.msgs.length)) =
        some (.error, some 1) := by
    decide +kernel
  rw [heval] at hrun
  simp only [Option.map_some, Option.some.injEq, Prod.mk.injEq] at hrun
  obtain ⟨rfl, hring⟩ := hrun
  rw [(hfail (by simp)).2] at hring
  simp at hring

end Frontend
