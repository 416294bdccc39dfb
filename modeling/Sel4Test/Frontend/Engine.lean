import Sel4Test.Frontend.Pool
import Sel4Test.Lib.Exec

/-!
The frontend engine as a transition system: the message processors of
`front/src/frontend_proto.c` and `frontend_engine_run_hyperamp_once` of
`front/src/engine.c`.

The engine runs in one thread. Application code runs between two rounds of the
engine and inside the event callbacks, and there it may call the session functions
in any order. `Ctrl` is the place where the engine stands, with the pointers that
`TAILQ_FOREACH_SAFE` holds over a callback. A label is one call of the application or
one piece of a round, with the answers of the environment.

* `step`: one step of the engine or the application.
* `step_effect`: a step changes the sessions by at most one operation of the pool.
  All invariants are proved from it.
-/

namespace Frontend

open ByteMem Hyperamp

/-! ### Messages -/

/-- Where the engine stands. -/
inductive Ctrl
  /-- Between two rounds. -/
  | idle
  /-- In step 1, before the next message is taken. -/
  | rx
  /-- In a callback of step 1; after a CLOSE the session is then deleted. -/
  | rxCallback (close : Option SessPtr)
  /-- In the callback of a session of step 2. -/
  | b2fCallback (cur : SessPtr) (next : Option SessPtr)
  /-- In step 3, before the data of a session is sent. -/
  | f2b (cur : SessPtr) (next : Option SessPtr)
  /-- In the callback for an error of step 3. -/
  | f2bCallback (next : Option SessPtr)
  deriving DecidableEq, Repr

/-- The application may run. -/
def Ctrl.appRuns : Ctrl → Bool
  | .idle => true
  | .rx => false
  | .rxCallback _ => true
  | .b2fCallback _ _ => true
  | .f2b _ _ => false
  | .f2bCallback _ => true

/-- `FRONTEND_HANDOVER_SESSION_ID`. -/
def frontendHandoverSessionId : UInt16 := 0xFFFF

/-- A session message that `frontend_proxy_sess_msg_process_ver1` accepts: version 1, with
the payload length of its type. -/
def sessMsgAccepted (hdr : SessMsgHeader) : Bool :=
  hdr.version = 1 ∧
    sessMsgPayloadLen hdr.msgType hdr.actionType hdr.ipVersion ≠ -1 ∧
    sessMsgPayloadLen hdr.msgType hdr.actionType hdr.ipVersion = hdr.payloadLen.toNat

/-- The session header of a message. -/
def sessHdrOf (buf : Mem) : SessMsgHeader := SessMsgHeader.read buf proxyMsgHdrSize

/-- The field `status` of the `SessOpRespData` of a message. -/
def respStatus (buf : Mem) : UInt8 := buf (proxyMsgHdrSize + innerHdrSize)

/-- `frontend_proxy_sess_msg_process_active_create_ver1`. -/
def sessMsgProcessActiveCreate (fid bid : UInt16) (buf : Mem) (c : Core) : Option (Core × Ctrl) :=
  match searchSess c.pool fid with
  | none => some (c, .rx)
  | some p => do
      let c ← createSessStep2 p bid (respStatus buf) c
      return (c, .rxCallback none)

/-- `frontend_proxy_sess_msg_process_passive_create_ver1`; `alloc` says whether the session
can be allocated. When all checks are passed it calls `create_sess_passive`, which
`fr_high_speed_pool_ops` leaves null. -/
def sessMsgProcessPassiveCreate (fid ipVersion : UInt16) (alloc : Bool) (c : Core) :
    Option (Core × Ctrl) :=
  if ipVersion ≠ sessIpv4Proto then some (c, .rx)
  else if fid ≠ frontendHandoverSessionId then some (c, .rx)
  else if alloc = false then some (c, .rx)
  else if (allocateId c.pool.idQueue).1 = 0 then some (c, .rx)
  else none

/-- `frontend_proxy_sess_msg_process_close_ver1` up to the callback. -/
def sessMsgProcessClose (fid : UInt16) (c : Core) : Option (Core × Ctrl) :=
  match searchSess c.pool fid with
  | none => some (c, .rx)
  | some p => some (c, .rxCallback (some p))

/-- `frontend_proxy_sess_msg_process`. -/
def sessMsgProcess (fid bid : UInt16) (buf : Mem) (alloc : Bool) (c : Core) :
    Option (Core × Ctrl) :=
  let hdr := sessHdrOf buf
  if sessMsgAccepted hdr = false then some (c, .rx)
  else if hdr.msgType = sessMsgCreate then
    if hdr.actionType = actionTypeResponse then sessMsgProcessActiveCreate fid bid buf c
    else sessMsgProcessPassiveCreate fid hdr.ipVersion alloc c
  else sessMsgProcessClose fid c

/-- `frontend_proxy_msg_process` on the message buffer. Device, strategy and IoT
messages touch no session of the pool. -/
def frontendProxyMsgProcess (buf : Mem) (alloc : Bool) (c : Core) : Option (Core × Ctrl) :=
  let hdr := ProxyMsgHeader.read buf 0
  match ProxyMsgType.ofCode? hdr.proxyMsgType with
  | some .sess => sessMsgProcess hdr.frontendSessId hdr.backendSessId buf alloc c
  | some .data => do
      let (_, c) ← dataMsgProcess hdr.frontendSessId hdr.payloadLen.toNat buf alloc c
      return (c, .rx)
  | some .dev => some (c, .rx)
  | some .strgy => some (c, .rx)
  | some .iot => some (c, .rx)
  | none => some (c, .rx)

/-! ### The engine -/

/-- The sessions and the place of the engine. -/
structure State where
  core : Core
  ctrl : Ctrl

/-- `TAILQ_NEXT`. -/
def tailqNext (q : List SessPtr) (p : SessPtr) : Option SessPtr :=
  (q.dropWhile (· ≠ p)).tail.head?

/-- Step 3 goes on with a session of `queue_f2b`, or ends. -/
def enterF2b (c : Core) : Option SessPtr → Option State
  | none => some ⟨c, .idle⟩
  | some p => (c.heap p).map fun _ => ⟨c, .f2b p (tailqNext (c.pool.queue .f2b) p)⟩

/-- Step 2 goes on with a session of `queue_b2f`, or step 3 starts. -/
def enterB2f (c : Core) : Option SessPtr → Option State
  | none => enterF2b c (c.pool.queue .f2b).head?
  | some p => (c.heap p).map fun _ => ⟨c, .b2fCallback p (tailqNext (c.pool.queue .b2f) p)⟩

/-- Step 2 after the callback: a session without data leaves `queue_b2f`. -/
def b2fDone (p : SessPtr) (c : Core) : Option Core := do
  let sess ← c.heap p
  let segs ← sess.msg .b2f
  if segs = [] then
    let queue ← tailqRemove (c.pool.queue .b2f) p
    return setLinked .b2f p sess false queue c
  else return c

/-- Step 3 on one session. After an error the session leaves `queue_f2b` with its
linked bit set. -/
def f2bSend (ans : ℕ → HyperampRet) (p : SessPtr) (c : Core) : Option (ProcessRet × Core) := do
  let (ret, sess, c) ← dataProcessF2b ans p c
  match ret with
  | .ok =>
      let queue ← tailqRemove (c.pool.queue .f2b) p
      return (ret, setLinked .f2b p sess false queue c)
  | .error =>
      let queue ← tailqRemove (c.pool.queue .f2b) p
      return (ret, { c with pool := { c.pool with
        queue := Function.update c.pool.queue .f2b queue } })
  | .again => return (ret, c)

/-- The steps of the system. -/
inductive Label
  /-- The application calls `frontend_sess_new`; the memory holds these bits. -/
  | sessNew (linked : Dir → Bool)
  /-- The application calls `frontend_sess_connect`. -/
  | sessConnect (p : SessPtr) (para : SessMsgPara) (ans : HyperampRet)
  /-- The application calls `frontend_sess_send`. -/
  | sessSend (p : SessPtr) (data : List UInt8) (alloc : ℕ → Bool)
  /-- The application calls `frontend_sess_recv`. -/
  | sessRecv (p : SessPtr) (size : ℕ)
  /-- The application calls `frontend_sess_close`. -/
  | sessClose (p : SessPtr) (ans : HyperampRet)
  /-- The application calls `delete_sess` of the pool. -/
  | deleteSess (p : SessPtr)
  /-- The application calls `frontend_engine_run_hyperamp_once`. -/
  | runOnce
  /-- Step 1 takes a message from the RX ring and processes it. -/
  | rxMsg (buf : Mem) (alloc : Bool)
  /-- The RX ring is empty. -/
  | rxAgain
  /-- The RX ring fails. -/
  | rxError
  /-- The callback returns to the engine. -/
  | callbackReturn
  /-- Step 3 sends the data of a session; the ring answers the `i`-th message. -/
  | f2bSend (ans : ℕ → HyperampRet)

/-- A call of the application. -/
def appCall (s : State) (core : Option Core) : Option State :=
  if s.ctrl.appRuns then core.map fun c => ⟨c, s.ctrl⟩ else none

/-- **One step.** -/
def step (s : State) : Label → Option State
  | .sessNew linked => appCall s (some (frontendSessNew linked s.core))
  | .sessConnect p para ans => appCall s ((createSessStep1 para ans p s.core).map Prod.snd)
  | .sessSend p data alloc => appCall s ((frontendSessSend data alloc p s.core).map Prod.snd)
  | .sessRecv p size => appCall s ((frontendSessRecv size p s.core).map fun r => r.2.2)
  | .sessClose p ans => appCall s ((closeSessStep1 ans p s.core).map fun _ => s.core)
  | .deleteSess p => appCall s (deleteSess p s.core)
  | .runOnce =>
      match s.ctrl with
      | .idle => some ⟨s.core, .rx⟩
      | _ => none
  | .rxMsg buf alloc =>
      match s.ctrl with
      | .rx => (frontendProxyMsgProcess buf alloc s.core).map fun r => ⟨r.1, r.2⟩
      | _ => none
  | .rxAgain =>
      match s.ctrl with
      | .rx => enterB2f s.core (s.core.pool.queue .b2f).head?
      | _ => none
  | .rxError =>
      match s.ctrl with
      | .rx => some ⟨s.core, .idle⟩
      | _ => none
  | .callbackReturn =>
      match s.ctrl with
      | .rxCallback none => some ⟨s.core, .rx⟩
      | .rxCallback (some p) => (deleteSess p s.core).map fun c => ⟨c, .rx⟩
      | .b2fCallback cur next => (b2fDone cur s.core).bind fun c => enterB2f c next
      | .f2bCallback next => enterF2b s.core next
      | _ => none
  | .f2bSend ans =>
      match s.ctrl with
      | .f2b cur next =>
          (f2bSend ans cur s.core).bind fun r =>
            if r.1 = .error then some ⟨r.2, .f2bCallback next⟩ else enterF2b r.2 next
      | _ => none

/-- The state after `frontend_high_speed_init_pool`. Nothing in the source sets
`engine->ops`. -/
def initState : State where
  core :=
    { heap := fun _ => none, nextPtr := 0, pool := initPool, engineOps := false, log := [] }
  ctrl := .idle

end Frontend
