import Sel4Test.Frontend.Message

/-!
Sessions and the session pool, `front/src/session_pool.c`, `front/src/session.c`
and the session functions of `front/src/frontend_api.c`.

A `Core` is the memory of the sessions, the pool and a history. Sessions are
known by their address. `malloc` gives a new address each time, and a freed
address has no session, so an access to it has no result. The other accesses that
C leaves undefined have no result either: a queue that was never initialised, the
removal of an element that is not in the list, `free` inside a buffer, and a read past
the end of a message.

Two calls have a precondition that the source does not check. `create_sess_step1` on a
session that is in the hash table overwrites the key under which uthash has filed it and
files it a second time; `delete_sess` on a session that is not in the table unlinks a
handle that uthash never set, or has already unlinked, and gives the id of the session
back. What uthash then reads depends on its bucket chains, which are not modelled, so
these calls have no result here, and the invariants are stated for runs without them.

The two directions are handled by the same macros in the source, so `Dir` is an
index here: `linked d` is the bit `FRONTEND_SESS_LINKED_TO_QUEUE` of `state_<d>`, its
only bit in use, `msg d` is `msg_<d>` and `queue d` is `queue_<d>`.

The answers of the environment, the TX ring and `malloc`, are arguments. The
history `log` is not part of the program: it records what went in and out, newest
first.
-/

namespace Frontend

open ByteMem Hyperamp

/-! ### Sessions -/

/-- `FrontendSessState`. -/
inductive FrontendSessState
  | initial
  | connecting
  | connected
  | closed
  deriving DecidableEq, Repr

/-- The direction of a queue. -/
inductive Dir
  | f2b
  | b2f
  deriving DecidableEq, Repr

/-- `SessMsgSeg`: the bytes that are still unread, of which `len` is the number,
and the distance of `data` from the start of its buffer. -/
structure SessMsgSeg where
  data : List UInt8
  offset : ℕ
  deriving DecidableEq, Repr

/-- The unread bytes of a message queue. -/
def segBytes (segs : List SessMsgSeg) : List UInt8 := segs.flatMap SessMsgSeg.data

/-- The address of a session. -/
abbrev SessPtr := ℕ

/-- `FrontendSession`. The state and the message queues of a new session are not
set. -/
structure FrontendSession where
  sessState : Option FrontendSessState
  ipVersion : UInt16
  frontendSessId : UInt16
  backendSessId : UInt16
  linked : Dir → Bool
  msg : Dir → Option (List SessMsgSeg)

/-- `FrontendSessionPool`; an entry of the hash table has the key under which it was
added. -/
structure FrontendSessionPool where
  sessNum : ℤ
  idQueue : List UInt16
  queue : Dir → List SessPtr
  htable : List (UInt16 × SessPtr)

/-- What goes in and out of the sessions. -/
inductive Event
  /-- `create_sess_step1` has initialised the session. -/
  | started (p : SessPtr)
  /-- The CREATE command of the session is in the TX ring. -/
  | createSent (p : SessPtr) (id : UInt16)
  /-- A CREATE response for the id of the session was processed. -/
  | createResp (p : SessPtr) (id : UInt16) (status : UInt8)
  /-- `frontend_sess_send` has accepted the bytes. -/
  | accepted (p : SessPtr) (bytes : List UInt8)
  /-- The block of a DATA message of the session is in the TX ring. -/
  | placed (p : SessPtr) (block : List UInt8)
  /-- A DATA message for the id of the session was received; it is stored, or
  dropped for want of memory. -/
  | arrived (p : SessPtr) (payload : List UInt8) (stored : Bool)
  /-- `frontend_sess_recv` has returned the bytes. -/
  | returned (p : SessPtr) (bytes : List UInt8)
  deriving DecidableEq, Repr

/-- Sessions, pool and history; `engineOps` says that `engine->ops` is set. -/
structure Core where
  heap : SessPtr → Option FrontendSession
  nextPtr : SessPtr
  pool : FrontendSessionPool
  engineOps : Bool
  log : List Event

namespace Core

/-- The session at an address is written. -/
def setSess (c : Core) (p : SessPtr) (sess : FrontendSession) : Core :=
  { c with heap := Function.update c.heap p (some sess) }

/-- The history grows by one event. -/
def record (c : Core) (e : Event) : Core := { c with log := e :: c.log }

/-- The session at an address is in the hash table. -/
def InTable (c : Core) (p : SessPtr) : Prop := ∃ e ∈ c.pool.htable, e.2 = p

instance (c : Core) (p : SessPtr) : Decidable (c.InTable p) :=
  inferInstanceAs (Decidable (∃ e ∈ c.pool.htable, e.2 = p))

end Core

/-! ### Ids and the hash table -/

/-- `fill_id_queue`. -/
def fillIdQueue : List UInt16 := (List.range' 1 1024).map UInt16.ofNat

/-- `allocate_id`; `0` is returned when no id is left. -/
def allocateId : List UInt16 → UInt16 × List UInt16
  | [] => (0, [])
  | id :: rest => (id, rest)

/-- `release_id`. -/
def releaseId (idQueue : List UInt16) (id : UInt16) : List UInt16 := idQueue ++ [id]

/-- `frontend_high_speed_init_pool`. -/
def initPool : FrontendSessionPool where
  sessNum := 0
  idQueue := fillIdQueue
  queue := fun _ => []
  htable := []

/-- `frontend_high_speed_search_sess`. -/
def searchSess (pool : FrontendSessionPool) (id : UInt16) : Option SessPtr :=
  (pool.htable.find? fun e => e.1 = id).map Prod.snd

/-- `frontend_high_speed_insert_sess`; there is no result when the id is taken, the
error of the source. -/
def insertSess (pool : FrontendSessionPool) (id : UInt16) (p : SessPtr) :
    Option FrontendSessionPool :=
  match searchSess pool id with
  | none => some { pool with htable := pool.htable ++ [(id, p)], sessNum := pool.sessNum + 1 }
  | some _ => none

/-! ### Active queues -/

/-- `TAILQ_REMOVE`. -/
def tailqRemove (q : List SessPtr) (p : SessPtr) : Option (List SessPtr) :=
  if p ∈ q then some (q.erase p) else none

/-- The queue of a direction is replaced and the bit of the session set or
cleared. -/
def setLinked (d : Dir) (p : SessPtr) (sess : FrontendSession) (linked : Bool)
    (queue : List SessPtr) (c : Core) : Core :=
  { c.setSess p { sess with linked := Function.update sess.linked d linked } with
    pool := { c.pool with queue := Function.update c.pool.queue d queue } }

/-- `FRONTEND_SESS_LINK_TO_QUEUE` on the session `sess` at `p`. -/
def linkToQueue (d : Dir) (p : SessPtr) (sess : FrontendSession) (c : Core) : Core :=
  if sess.linked d then c.setSess p sess
  else setLinked d p sess true (c.pool.queue d ++ [p]) c

/-- `FRONTEND_SESS_UNLINK_FROM_QUEUE` on the session `sess` at `p`: the queue without it.
The only caller frees the session, so the bit is not written back. -/
def unlinkFromQueue (d : Dir) (p : SessPtr) (sess : FrontendSession) (c : Core) :
    Option (List SessPtr) :=
  if sess.linked d then tailqRemove (c.pool.queue d) p else some (c.pool.queue d)

/-! ### Creation -/

/-- `frontend_sess_new` with the bits that the allocated memory holds. -/
def frontendSessNew (linked : Dir → Bool) (c : Core) : Core :=
  { c.setSess c.nextPtr
      { sessState := none, ipVersion := 0, frontendSessId := 0, backendSessId := 0
        linked := linked, msg := fun _ => none } with
    nextPtr := c.nextPtr + 1 }

/-- `SessMsgPara`, with the six bytes of the IPv4 endpoint. -/
structure SessMsgPara where
  backendSessId : UInt16
  devId : UInt16
  ipVersion : UInt16
  transProto : UInt16
  endpoint : Vector UInt8 6

/-- The header of the CREATE command. -/
def createHeader (id : UInt16) (para : SessMsgPara) : GeneralProxyMsgHeader where
  outerHeader := ⟨1, 2, id, para.backendSessId, 20⟩
  innerHeader :=
    SessMsgHeader.toInner ⟨1, sessMsgCreate, actionTypeCommand, para.ipVersion, 10⟩
  addrInfo := Vector.replicate 20 0
  iotAddrLen := 0

/-- `SessIPv4Params`. -/
def createPayload (para : SessMsgPara) : List UInt8 :=
  toLE 2 para.devId.toNat ++ toLE 2 para.transProto.toNat ++ para.endpoint.toList

/-- The session after the initialisation in `create_sess_step1`: the linked bits
are kept. -/
def initSess (sess : FrontendSession) (id : UInt16) (para : SessMsgPara) : FrontendSession :=
  { sess with
    sessState := some .initial
    ipVersion := para.ipVersion
    frontendSessId := id
    backendSessId := para.backendSessId
    msg := fun _ => some [] }

/-- `frontend_high_speed_create_sess_step1`, which `frontend_sess_connect` calls. An id `0`
in the queue is taken and lost. There is no result when a session of the table gets an
id: the source writes it over the key of its table entry. -/
def createSessStep1 (para : SessMsgPara) (ans : HyperampRet) (p : SessPtr) (c : Core) :
    Option (ProcessRet × Core) := do
  let sess ← c.heap p
  match allocateId c.pool.idQueue with
  | (id, rest) =>
      let c := { c with pool := { c.pool with idQueue := rest } }
      if id = 0 then return (.error, c)
      else if c.InTable p then none
      else
        let sess := initSess sess id para
        let connecting := { sess with sessState := some .connecting }
        let c := c.record (.started p)
        let released := { c.pool with idQueue := releaseId c.pool.idQueue id }
        match ← buildProxyGeneralMessage (fun _ => ans) (createHeader id para)
            (some (createPayload para)) with
        | (.ok, _) =>
            let c := (c.setSess p connecting).record (.createSent p id)
            match insertSess c.pool id p with
            | some pool => return (.ok, { c with pool := pool })
            | none => return (.error, { c with pool := released })
        | (_, _) => return (.error, { c.setSess p sess with pool := released })

/-- `frontend_high_speed_create_sess_step2`. -/
def createSessStep2 (p : SessPtr) (backendSessId : UInt16) (status : UInt8) (c : Core) :
    Option Core := do
  let sess ← c.heap p
  let idQueue :=
    if status ≠ 0 then releaseId c.pool.idQueue sess.frontendSessId else c.pool.idQueue
  let sess' := { sess with backendSessId := backendSessId, sessState := some .connected }
  return { c.setSess p sess' with pool := { c.pool with idQueue := idQueue } }.record
    (.createResp p sess.frontendSessId status)

/-! ### Closing and deletion -/

/-- The header of the CLOSE command. -/
def closeHeader (sess : FrontendSession) : GeneralProxyMsgHeader where
  outerHeader := ⟨1, 2, sess.frontendSessId, sess.backendSessId, 20⟩
  innerHeader := SessMsgHeader.toInner ⟨1, sessMsgClose, actionTypeCommand, sess.ipVersion, 0⟩
  addrInfo := Vector.replicate 20 0
  iotAddrLen := 0

/-- `frontend_high_speed_close_sess_step1`, which `frontend_sess_close` calls. It changes
no session. -/
def closeSessStep1 (ans : HyperampRet) (p : SessPtr) (c : Core) : Option ProcessRet := do
  let sess ← c.heap p
  if c.engineOps = false then return .error
  else
    match ← buildProxyGeneralMessage (fun _ => ans) (closeHeader sess) none with
    | (.ok, _) => return .ok
    | (_, _) => return .error

/-- `sess_msg_queue_free_all` on a queue that may be freed: every buffer is given
back at its start. -/
def freeable : Option (List SessMsgSeg) → Bool
  | none => false
  | some segs => segs.all fun seg => seg.offset = 0

/-- `frontend_high_speed_delete_sess`. The session leaves `queue_f2b` but not
`queue_b2f`. There is no result for a session that is not in the table: the source hands
its unset handle to `HASH_DEL`, also when a creation that failed is cleaned up. -/
def deleteSess (p : SessPtr) (c : Core) : Option Core := do
  let sess ← c.heap p
  if ¬ c.InTable p then none
  else
    let queueF2b ← unlinkFromQueue .f2b p sess c
    if freeable (sess.msg .f2b) ∧ freeable (sess.msg .b2f) then
      return { c with
        heap := Function.update c.heap p none
        pool :=
          { sessNum := c.pool.sessNum - 1
            idQueue := releaseId c.pool.idQueue sess.frontendSessId
            queue := Function.update c.pool.queue .f2b queueF2b
            htable := c.pool.htable.eraseP fun e => e.2 = p } }
    else none

/-! ### Sending -/

/-- The payload that fits a block of the TX queue; the engine configures blocks of
4096 bytes. -/
def maxPayloadPerSeg : ℕ := msgBufSize - proxyMsgHdrSize

/-- The loop of `frontend_sess_send`: the segments that are queued. The `i`-th
allocation succeeds if `alloc i` says so, and the first that fails ends the loop. A
round takes at least one byte, so the number of bytes bounds the rounds. -/
def fragment (alloc : ℕ → Bool) : ℕ → ℕ → List UInt8 → List SessMsgSeg
  | _, 0, _ => []
  | _, _ + 1, [] => []
  | i, rounds + 1, b :: bs =>
      if alloc i then
        ⟨(b :: bs).take maxPayloadPerSeg, 0⟩ ::
          fragment alloc (i + 1) rounds ((b :: bs).drop maxPayloadPerSeg)
      else []

/-- `frontend_sess_send`. -/
def frontendSessSend (data : List UInt8) (alloc : ℕ → Bool) (p : SessPtr) (c : Core) :
    Option (ℤ × Core) :=
  if data = [] then some (-1, c)
  else do
    let sess ← c.heap p
    let queued ← sess.msg .f2b
    let segs := fragment alloc 0 data.length data
    let total := (segBytes segs).length
    let sess := { sess with msg := Function.update sess.msg .f2b (some (queued ++ segs)) }
    let c := c.record (.accepted p (data.take total))
    return (total, if 0 < total then linkToQueue .f2b p sess c else c.setSess p sess)

/-- The loop of `frontend_high_speed_data_process_f2b`: the return code, the segments that
stay and the blocks that are now in the TX ring. -/
def dataProcessF2bLoop (hdr : ℕ → GeneralProxyMsgHeader) (ans : ℕ → HyperampRet) :
    ℕ → List SessMsgSeg → Option (ProcessRet × List SessMsgSeg × List (List UInt8))
  | _, [] => some (.ok, [], [])
  | i, seg :: rest => do
      match ← buildProxyGeneralMessage (fun _ => ans i) (hdr seg.data.length)
          (some seg.data) with
      | (.ok, some block) =>
          let (ret, segs, blocks) ← dataProcessF2bLoop hdr ans (i + 1) rest
          return (ret, segs, block :: blocks)
      | (.again, _) => return (.again, seg :: rest, [])
      | (_, _) => return (.error, seg :: rest, [])

/-- The header of the DATA messages of a session. -/
def dataMsgHeader (sess : FrontendSession) (len : ℕ) : GeneralProxyMsgHeader where
  outerHeader := ⟨1, 3, sess.frontendSessId, sess.backendSessId, UInt16.ofNat len⟩
  innerHeader := ⟨0, 0, 0, 0, 0, 0⟩
  addrInfo := Vector.replicate 20 0
  iotAddrLen := 0

/-- `frontend_high_speed_data_process_f2b`. -/
def dataProcessF2b (ans : ℕ → HyperampRet) (p : SessPtr) (c : Core) :
    Option (ProcessRet × FrontendSession × Core) := do
  let sess ← c.heap p
  let segs ← sess.msg .f2b
  let (ret, rest, blocks) ← dataProcessF2bLoop (dataMsgHeader sess) ans 0 segs
  let sess := { sess with msg := Function.update sess.msg .f2b (some rest) }
  return (ret, sess,
    { c.setSess p sess with log := (blocks.map (Event.placed p)).reverse ++ c.log })

/-! ### Receiving -/

/-- The loop of `frontend_sess_recv` with the space that is left: the bytes read and
the segments that stay. -/
def recvLoop : List SessMsgSeg → ℕ → List UInt8 × List SessMsgSeg
  | segs, 0 => ([], segs)
  | [], _ + 1 => ([], [])
  | seg :: rest, n + 1 =>
      if seg.data.length ≤ n + 1 then
        let (bytes, segs) := recvLoop rest (n + 1 - seg.data.length)
        (seg.data ++ bytes, segs)
      else (seg.data.take (n + 1), ⟨seg.data.drop (n + 1), seg.offset + (n + 1)⟩ :: rest)

/-- `frontend_sess_recv` with a buffer of `size` bytes: the return code and what is
written to the buffer. -/
def frontendSessRecv (size : ℕ) (p : SessPtr) (c : Core) : Option (ℤ × List UInt8 × Core) :=
  if size = 0 then some (-1, [], c)
  else do
    let sess ← c.heap p
    let queued ← sess.msg .b2f
    let (bytes, segs) := recvLoop queued size
    let sess := { sess with msg := Function.update sess.msg .b2f (some segs) }
    return (bytes.length, bytes, (c.setSess p sess).record (.returned p bytes))

/-- `frontend_proxy_data_msg_prosess` on the payload of `len` bytes in the message buffer;
`alloc` says whether a segment can be allocated. -/
def dataMsgProcess (id : UInt16) (len : ℕ) (buf : Mem) (alloc : Bool) (c : Core) :
    Option (ProcessRet × Core) :=
  let payload := load buf proxyMsgHdrSize len
  match searchSess c.pool id with
  | none => some (.error, c)
  | some p =>
      if alloc = false then some (.error, c.record (.arrived p payload false))
      else if msgBufSize < proxyMsgHdrSize + len then none
      else do
        let sess ← c.heap p
        let queued ← sess.msg .b2f
        let sess := { sess with
          msg := Function.update sess.msg .b2f (some (queued ++ [⟨payload, 0⟩])) }
        return (.ok, linkToQueue .b2f p sess (c.record (.arrived p payload true)))

end Frontend
