import Sel4Test.Lib.Checked
import Sel4Test.Lib.LinkedQueue
import Sel4Test.Lib.Rendezvous
import Sel4Test.Kernel.CallBoost

/-!
Endpoints and notifications without MCS: `src/object/endpoint.c`,
`src/object/notification.c`, the endpoint queues of `src/object/tcb.c`, and the callers in
`src/kernel/thread.c` that change the state of a thread.

Objects are named by their addresses. A field of all objects of one kind is a function of
the address, with `none` for the null pointer. Every `assert` of the source is an assertion
of the model, and following a null pointer is a fault. Scheduling, capabilities, the
registers of a message other than the badge register, and what a fault says are left out:
no function of this module decides anything by them.

Three fields are not in the source. `epTrace` notes down what happens at an endpoint,
`ntfnSent` the badges that were signalled and `ntfnDelivered` the words that reached a
thread. No function reads them.
-/

namespace Kernel.Ipc

open Checked
open LinkedQueue (Queue)

open Function (update)

/-! ### Data -/

/-- `endpoint_state_t`. -/
inductive EpState
  | idle
  | send
  | recv
  deriving DecidableEq, Repr

/-- `notification_state_t`. -/
inductive NtfnState
  | idle
  | waiting
  | active
  deriving DecidableEq, Repr

/-- The fields of threads, endpoints and notifications. `tcbFault` is whether there is a
fault, and `badgeRegister` is what was last delivered in the badge register. -/
structure State where
  tsType : ℕ → TsType
  blockingObject : ℕ → ℕ
  blockingIPCBadge : ℕ → ℕ
  blockingIPCCanGrant : ℕ → Bool
  blockingIPCCanGrantReply : ℕ → Bool
  blockingIPCIsCall : ℕ → Bool
  tcbFault : ℕ → Bool
  badgeRegister : ℕ → ℕ
  tcbEPNext : ℕ → Option ℕ
  tcbEPPrev : ℕ → Option ℕ
  tcbBoundNotification : ℕ → Option ℕ
  epState : ℕ → EpState
  epQueue : ℕ → Queue ℕ
  ntfnState : ℕ → NtfnState
  ntfnQueue : ℕ → Queue ℕ
  ntfnMsgIdentifier : ℕ → ℕ
  ntfnBoundTCB : ℕ → Option ℕ
  epTrace : ℕ → List (Rendezvous.Event ℕ ℕ)
  ntfnSent : ℕ → List ℕ
  ntfnDelivered : ℕ → List (ℕ × ℕ)

namespace State

variable (s : State)

/-- `setThreadState`. -/
def setThreadState (tptr : ℕ) (ts : TsType) : State :=
  { s with tsType := update s.tsType tptr ts }

/-- An event at an endpoint is noted down. -/
def note (epptr : ℕ) (e : Rendezvous.Event ℕ ℕ) : State :=
  { s with epTrace := update s.epTrace epptr (s.epTrace epptr ++ [e]) }

/-- A thread leaves the queue of an endpoint without a transfer. -/
def noteLeave (epptr thread : ℕ) : State :=
  s.note epptr (if s.tsType thread = .blockedOnSend then
    .leaveSend thread (s.blockingIPCBadge thread) else .leaveReceive thread)

/-! ### Queues -/

/-- `tcbEPAppend`. -/
def tcbEPAppend (tcb : ℕ) (queue : Queue ℕ) : Except Fault (Queue ℕ × State) := do
  let s : State ← if queue.head = none then pure s else do
    let last ← deref queue.last
    pure { s with tcbEPNext := update s.tcbEPNext last (some tcb) }
  let head := if queue.head = none then some tcb else queue.head
  return (⟨head, some tcb⟩, { s with
    tcbEPPrev := update s.tcbEPPrev tcb queue.last
    tcbEPNext := update s.tcbEPNext tcb none })

/-- `tcbEPDequeue`. -/
def tcbEPDequeue (tcb : ℕ) (queue : Queue ℕ) : Queue ℕ × State :=
  let head := (s.tcbEPPrev tcb).elim (s.tcbEPNext tcb) fun _ => queue.head
  let s : State := (s.tcbEPPrev tcb).elim s fun prev =>
    { s with tcbEPNext := update s.tcbEPNext prev (s.tcbEPNext tcb) }
  let last := (s.tcbEPNext tcb).elim (s.tcbEPPrev tcb) fun _ => queue.last
  let s : State := (s.tcbEPNext tcb).elim s fun next =>
    { s with tcbEPPrev := update s.tcbEPPrev next (s.tcbEPPrev tcb) }
  (⟨head, last⟩, s)

/-- The thread is taken from the queue of the endpoint, which is idle if nobody is left. -/
def epRemove (epptr tcb : ℕ) : State :=
  let r := s.tcbEPDequeue tcb (s.epQueue epptr)
  { r.2 with
    epQueue := update r.2.epQueue epptr r.1
    epState := if r.1.head = none then update r.2.epState epptr .idle else r.2.epState }

/-- The thread is taken from the queue of the notification, which is idle if nobody is
left. -/
def ntfnRemove (ntfnPtr tcb : ℕ) : State :=
  let r := s.tcbEPDequeue tcb (s.ntfnQueue ntfnPtr)
  { r.2 with
    ntfnQueue := update r.2.ntfnQueue ntfnPtr r.1
    ntfnState := if r.1.head = none then update r.2.ntfnState ntfnPtr .idle else r.2.ntfnState }

/-! ### Transfers -/

/-- `doIPCTransfer`; a reply has no endpoint. -/
def doIPCTransfer (sender : ℕ) (endpoint : Option ℕ) (badge receiver : ℕ) : State :=
  let s : State := { s with badgeRegister := update s.badgeRegister receiver badge }
  endpoint.elim s fun epptr => s.note epptr (.transfer sender receiver badge)

/-- `doNBRecvFailedTransfer`. -/
def doNBRecvFailedTransfer (thread : ℕ) : State :=
  { s with badgeRegister := update s.badgeRegister thread 0 }

/-- `setupCallerCap`, without the caps. -/
def setupCallerCap (sender : ℕ) : State := s.setThreadState sender .blockedOnReply

/-- The badge register of a thread is set to a word that was signalled. -/
def deliver (ntfnPtr tcb word : ℕ) : State :=
  { s with
    badgeRegister := update s.badgeRegister tcb word
    ntfnDelivered := update s.ntfnDelivered ntfnPtr (s.ntfnDelivered ntfnPtr ++ [(tcb, word)]) }

/-- `completeSignal`. -/
def completeSignal (ntfnPtr tcb : ℕ) : Except Fault State := do
  assert (s.ntfnState ntfnPtr = .active)
  let s := s.deliver ntfnPtr tcb (s.ntfnMsgIdentifier ntfnPtr)
  return { s with ntfnState := update s.ntfnState ntfnPtr .idle }

/-! ### Endpoints -/

/-- `sendIPC`. -/
def sendIPC (blocking doCall : Bool) (badge : ℕ) (canGrant canGrantReply : Bool)
    (thread epptr : ℕ) : Except Fault State :=
  if s.epState epptr = .recv then do
    let queue := s.epQueue epptr
    assert (queue.head ≠ none)
    let dest ← deref queue.head
    let s := s.epRemove epptr dest
    let s := s.note epptr (.send thread badge)
    let s := s.doIPCTransfer thread (some epptr) badge dest
    let s := s.setThreadState dest .running
    return if doCall then
      if canGrant ∨ canGrantReply then s.setupCallerCap thread
      else s.setThreadState thread .inactive
    else s
  else if blocking then do
    let s : State := { s with
      tsType := update s.tsType thread .blockedOnSend
      blockingObject := update s.blockingObject thread epptr
      blockingIPCBadge := update s.blockingIPCBadge thread badge
      blockingIPCCanGrant := update s.blockingIPCCanGrant thread canGrant
      blockingIPCCanGrantReply := update s.blockingIPCCanGrantReply thread canGrantReply
      blockingIPCIsCall := update s.blockingIPCIsCall thread doCall }
    let s := s.note epptr (.send thread badge)
    let r ← s.tcbEPAppend thread (s.epQueue epptr)
    return { r.2 with
      epState := update r.2.epState epptr .send
      epQueue := update r.2.epQueue epptr r.1 }
  else return s

/-- What `receiveIPC` does when no signal is pending for the thread. -/
def receiveMessage (thread epptr : ℕ) (capCanGrant isBlocking : Bool) : Except Fault State :=
  if s.epState epptr = .send then do
    let queue := s.epQueue epptr
    assert (queue.head ≠ none)
    let sender ← deref queue.head
    let s := s.epRemove epptr sender
    let s := s.note epptr (.receive thread)
    let s := s.doIPCTransfer sender (some epptr) (s.blockingIPCBadge sender) thread
    return if s.blockingIPCIsCall sender then
      if s.blockingIPCCanGrant sender ∨ s.blockingIPCCanGrantReply sender then
        s.setupCallerCap sender
      else s.setThreadState sender .inactive
    else s.setThreadState sender .running
  else if isBlocking then do
    let s : State := { s with
      tsType := update s.tsType thread .blockedOnReceive
      blockingObject := update s.blockingObject thread epptr
      blockingIPCCanGrant := update s.blockingIPCCanGrant thread capCanGrant }
    let s := s.note epptr (.receive thread)
    let r ← s.tcbEPAppend thread (s.epQueue epptr)
    return { r.2 with
      epState := update r.2.epState epptr .recv
      epQueue := update r.2.epQueue epptr r.1 }
  else return s.doNBRecvFailedTransfer thread

/-- `receiveIPC`. -/
def receiveIPC (thread epptr : ℕ) (capCanGrant isBlocking : Bool) : Except Fault State :=
  ((s.tcbBoundNotification thread).filter fun ntfnPtr => s.ntfnState ntfnPtr = .active).elim
    (s.receiveMessage thread epptr capCanGrant isBlocking) fun ntfnPtr =>
      s.completeSignal ntfnPtr thread

/-- `sendFaultIPC`, when the handler is an endpoint that the thread may send to. -/
def sendFaultIPC (badge : ℕ) (canGrant : Bool) (tptr epptr : ℕ) : Except Fault State :=
  { s with tcbFault := update s.tcbFault tptr true }.sendIPC true true badge canGrant true tptr
    epptr

/-- `cancelSignal`. -/
def cancelSignal (threadPtr ntfnPtr : ℕ) : Except Fault State := do
  assert (s.ntfnState ntfnPtr = .waiting)
  return (s.ntfnRemove ntfnPtr threadPtr).setThreadState threadPtr .inactive

/-- `cancelIPC`, without the reply cap. -/
def cancelIPC (tptr : ℕ) : Except Fault State :=
  if s.tsType tptr = .blockedOnSend ∨ s.tsType tptr = .blockedOnReceive then do
    let epptr := s.blockingObject tptr
    assert (s.epState epptr ≠ .idle)
    let s := s.epRemove epptr tptr
    let s := s.noteLeave epptr tptr
    return s.setThreadState tptr .inactive
  else if s.tsType tptr = .blockedOnNotification then s.cancelSignal tptr (s.blockingObject tptr)
  else if s.tsType tptr = .blockedOnReply then
    return { s with tcbFault := update s.tcbFault tptr false }
  else return s

/-- `cancelAllIPC`. -/
def cancelAllIPC (epptr : ℕ) : Except Fault State :=
  if s.epState epptr = .idle then return s else do
    let thread := (s.epQueue epptr).head
    let s : State := { s with
      epState := update s.epState epptr .idle
      epQueue := update s.epQueue epptr .empty }
    follow (fun s thread =>
      let s := (s.noteLeave epptr thread).setThreadState thread .restart
      (s, s.tcbEPNext thread)) thread s

/-- The body of the loop of `cancelBadgedSends`, with the queue that is rebuilt. -/
def cancelBadged (epptr badge : ℕ) (v : Queue ℕ × State) (thread : ℕ) :
    (Queue ℕ × State) × Option ℕ :=
  let b := v.2.blockingIPCBadge thread
  let next := v.2.tcbEPNext thread
  if b = badge then
    (((v.2.noteLeave epptr thread).setThreadState thread .restart).tcbEPDequeue thread v.1, next)
  else (v, next)

/-- `cancelBadgedSends`. -/
def cancelBadgedSends (epptr badge : ℕ) : Except Fault State :=
  if s.epState epptr = .send then do
    let queue := s.epQueue epptr
    let s : State := { s with
      epState := update s.epState epptr .idle
      epQueue := update s.epQueue epptr .empty }
    let r ← follow (cancelBadged epptr badge) queue.head (queue, s)
    return { r.2 with
      epQueue := update r.2.epQueue epptr r.1
      epState := if r.1.head = none then r.2.epState else update r.2.epState epptr .send }
  else return s

/-- `doReplyTransfer`; `restart` is what `handleFaultReply` returns. -/
def doReplyTransfer (sender receiver : ℕ) (restart : Bool) : Except Fault State := do
  assert (s.tsType receiver = .blockedOnReply)
  return if s.tcbFault receiver then
    let s : State := { s with tcbFault := update s.tcbFault receiver false }
    if restart then s.setThreadState receiver .restart else s.setThreadState receiver .inactive
  else (s.doIPCTransfer sender none 0 receiver).setThreadState receiver .running

/-! ### Notifications -/

/-- `ntfn_set_active`. -/
def ntfnSetActive (ntfnPtr badge : ℕ) : State :=
  { s with
    ntfnState := update s.ntfnState ntfnPtr .active
    ntfnMsgIdentifier := update s.ntfnMsgIdentifier ntfnPtr badge }

/-- `sendSignal`, without virtual machines. -/
def sendSignal (ntfnPtr badge : ℕ) : Except Fault State :=
  let s : State := { s with
    ntfnSent := update s.ntfnSent ntfnPtr (s.ntfnSent ntfnPtr ++ [badge]) }
  if s.ntfnState ntfnPtr = .idle then
    (s.ntfnBoundTCB ntfnPtr).elim (pure (s.ntfnSetActive ntfnPtr badge)) fun tcb =>
      if s.tsType tcb = .blockedOnReceive then do
        let s ← s.cancelIPC tcb
        let s := s.setThreadState tcb .running
        return s.deliver ntfnPtr tcb badge
      else return s.ntfnSetActive ntfnPtr badge
  else if s.ntfnState ntfnPtr = .waiting then do
    let queue := s.ntfnQueue ntfnPtr
    assert (queue.head ≠ none)
    let dest ← deref queue.head
    let s := s.ntfnRemove ntfnPtr dest
    let s := s.setThreadState dest .running
    return s.deliver ntfnPtr dest badge
  else return { s with
    ntfnMsgIdentifier := update s.ntfnMsgIdentifier ntfnPtr (s.ntfnMsgIdentifier ntfnPtr ||| badge) }

/-- `receiveSignal`. -/
def receiveSignal (thread ntfnPtr : ℕ) (isBlocking : Bool) : Except Fault State :=
  if s.ntfnState ntfnPtr = .active then
    let s := s.deliver ntfnPtr thread (s.ntfnMsgIdentifier ntfnPtr)
    return { s with ntfnState := update s.ntfnState ntfnPtr .idle }
  else if isBlocking then do
    let s : State := { s with
      tsType := update s.tsType thread .blockedOnNotification
      blockingObject := update s.blockingObject thread ntfnPtr }
    let r ← s.tcbEPAppend thread (s.ntfnQueue ntfnPtr)
    return { r.2 with
      ntfnState := update r.2.ntfnState ntfnPtr .waiting
      ntfnQueue := update r.2.ntfnQueue ntfnPtr r.1 }
  else return s.doNBRecvFailedTransfer thread

/-- `cancelAllSignals`. -/
def cancelAllSignals (ntfnPtr : ℕ) : Except Fault State :=
  if s.ntfnState ntfnPtr = .waiting then
    let thread := (s.ntfnQueue ntfnPtr).head
    let s : State := { s with
      ntfnState := update s.ntfnState ntfnPtr .idle
      ntfnQueue := update s.ntfnQueue ntfnPtr .empty }
    follow (fun s thread =>
      let s := s.setThreadState thread .restart
      (s, s.tcbEPNext thread)) thread s
  else return s

/-- `doUnbindNotification`. -/
def doUnbindNotification (ntfnPtr tcbptr : ℕ) : State :=
  { s with
    ntfnBoundTCB := update s.ntfnBoundTCB ntfnPtr none
    tcbBoundNotification := update s.tcbBoundNotification tcbptr none }

/-- `unbindMaybeNotification`. -/
def unbindMaybeNotification (ntfnPtr : ℕ) : State :=
  (s.ntfnBoundTCB ntfnPtr).elim s fun boundTCB => s.doUnbindNotification ntfnPtr boundTCB

/-- `unbindNotification`. -/
def unbindNotification (tcb : ℕ) : State :=
  (s.tcbBoundNotification tcb).elim s fun ntfnPtr => s.doUnbindNotification ntfnPtr tcb

/-- `bindNotification`. -/
def bindNotification (tcb ntfnPtr : ℕ) : State :=
  { s with
    ntfnBoundTCB := update s.ntfnBoundTCB ntfnPtr (some tcb)
    tcbBoundNotification := update s.tcbBoundNotification tcb (some ntfnPtr) }

/-- `decodeBindNotification`, for caps of the right types and rights. -/
def decodeBindNotification (tcb ntfnPtr : ℕ) : State :=
  if s.tcbBoundNotification tcb ≠ none then s
  else if (s.ntfnQueue ntfnPtr).head ≠ none ∨ s.ntfnBoundTCB ntfnPtr ≠ none then s
  else s.bindNotification tcb ntfnPtr

/-! ### Threads -/

/-- `suspend`. -/
def suspend (target : ℕ) : Except Fault State := do
  let s ← s.cancelIPC target
  return s.setThreadState target .inactive

/-- `isStopped`. -/
def isStopped (thread : ℕ) : Prop :=
  s.tsType thread = .inactive ∨ s.tsType thread = .blockedOnReceive ∨
    s.tsType thread = .blockedOnSend ∨ s.tsType thread = .blockedOnNotification ∨
    s.tsType thread = .blockedOnReply

instance (thread : ℕ) : Decidable (s.isStopped thread) :=
  inferInstanceAs (Decidable (_ ∨ _))

/-- `restart`. -/
def restart (target : ℕ) : Except Fault State :=
  if s.isStopped target then do
    let s ← s.cancelIPC target
    return s.setThreadState target .restart
  else return s

end State

end Kernel.Ipc
