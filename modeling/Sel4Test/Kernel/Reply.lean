import Sel4Test.Lib.Checked
import Sel4Test.Kernel.CallBoost

/-!
Reply objects and scheduling contexts with MCS: `src/object/reply.c`, the functions of
`src/object/schedcontext.c` that bind, unbind and donate, and the parts of `finaliseCap`
that delete a reply object, a thread or a scheduling context.

Objects are named by their addresses. A field of all objects of one kind is a function of
the address, with `none` for the null pointer. Every `assert` of the source is an assertion
of the model, and following a null pointer is a fault. The ready queue, the release queue,
the queues of endpoints and notifications, the bound notifications, the refills, the
yielding of scheduling contexts and the switch of threads are left out: none of them is
read or written together with the pointers of this module.
-/

namespace Kernel.Mcs

open Checked
open Function (update)

/-! ### Data -/

/-- `call_stack_t`: the link from a reply object to its neighbour in the call stack, or to
the scheduling context when it is the head. -/
structure CallStack where
  callStackPtr : Option ℕ
  isHead : Bool
  deriving DecidableEq, Repr

/-- `call_stack_new(0, false)`. -/
def CallStack.null : CallStack := ⟨none, false⟩

/-- The fields of threads, scheduling contexts, reply objects and notifications. -/
structure State where
  tsType : ℕ → TsType
  replyObject : ℕ → Option ℕ
  tcbSchedContext : ℕ → Option ℕ
  scTcb : ℕ → Option ℕ
  scReply : ℕ → Option ℕ
  scNotification : ℕ → Option ℕ
  replyTCB : ℕ → Option ℕ
  replyPrev : ℕ → CallStack
  replyNext : ℕ → CallStack
  ntfnSchedContext : ℕ → Option ℕ

namespace State

variable (s : State)

/-- `setThreadState`. -/
def setThreadState (tptr : ℕ) (ts : TsType) : State :=
  { s with tsType := update s.tsType tptr ts }

/-- `setThreadStateBlockedOnReply`. -/
def setThreadStateBlockedOnReply (tptr reply : ℕ) : State :=
  { s with
    tsType := update s.tsType tptr .blockedOnReply
    replyObject := update s.replyObject tptr (some reply) }

/-! ### Scheduling contexts -/

/-- `schedContext_donate`. -/
def schedContextDonate (sc tcbTo : ℕ) : Except Fault State := do
  assert (s.tcbSchedContext tcbTo = none)
  let s : State := (s.scTcb sc).elim s fun tcb =>
    { s with tcbSchedContext := update s.tcbSchedContext tcb none }
  return { s with
    scTcb := update s.scTcb sc (some tcbTo)
    tcbSchedContext := update s.tcbSchedContext tcbTo (some sc) }

/-- `schedContext_bindTCB`. -/
def schedContextBindTCB (sc tcb : ℕ) : Except Fault State := do
  assert (s.scTcb sc = none)
  assert (s.tcbSchedContext tcb = none)
  return { s with
    tcbSchedContext := update s.tcbSchedContext tcb (some sc)
    scTcb := update s.scTcb sc (some tcb) }

/-- `schedContext_unbindTCB`. -/
def schedContextUnbindTCB (sc : ℕ) : Except Fault State := do
  let tcb ← deref (s.scTcb sc)
  return { s with
    tcbSchedContext := update s.tcbSchedContext tcb none
    scTcb := update s.scTcb sc none }

/-- `schedContext_unbindAllTCBs`. -/
def schedContextUnbindAllTCBs (sc : ℕ) : Except Fault State :=
  if (s.scTcb sc).isSome then s.schedContextUnbindTCB sc else return s

/-- `schedContext_bindNtfn`. -/
def schedContextBindNtfn (sc ntfn : ℕ) : State :=
  { s with
    ntfnSchedContext := update s.ntfnSchedContext ntfn (some sc)
    scNotification := update s.scNotification sc (some ntfn) }

/-- `schedContext_unbindNtfn`. -/
def schedContextUnbindNtfn (sc : ℕ) : State :=
  (s.scNotification sc).elim s fun ntfn =>
    { s with
      ntfnSchedContext := update s.ntfnSchedContext ntfn none
      scNotification := update s.scNotification sc none }

/-- The reply object at the head of the call stack is let go. -/
def dropReply (sc : ℕ) : State :=
  (s.scReply sc).elim s fun reply =>
    { s with
      replyNext := update s.replyNext reply .null
      scReply := update s.scReply sc none }

/-- `invokeSchedContext_Unbind`. -/
def invokeSchedContextUnbind (sc : ℕ) : Except Fault State := do
  let s ← s.schedContextUnbindAllTCBs sc
  let s := s.schedContextUnbindNtfn sc
  return s.dropReply sc

/-! ### Reply objects -/

/-- `reply_unlink`. -/
def replyUnlink (reply tcb : ℕ) : Except Fault State := do
  assert (s.tsType tcb = .blockedOnReceive ∨ s.tsType tcb = .blockedOnReply)
  assert (s.replyTCB reply = some tcb)
  assert (s.replyObject tcb = some reply)
  return { s with replyTCB := update s.replyTCB reply none }.setThreadState tcb .inactive

/-- `reply_push`. -/
def replyPush (tcbCaller tcbCallee reply : ℕ) (canDonate : Bool) : Except Fault State := do
  let scDonated := s.tcbSchedContext tcbCaller
  assert (s.replyTCB reply = none)
  assert ((s.replyPrev reply).callStackPtr = none)
  assert ((s.replyNext reply).callStackPtr = none)
  assert (s.tsType tcbCaller = .blockedOnSend ∨ s.tsType tcbCaller = .running ∨
    s.tsType tcbCaller = .restart)
  assert (s.tsType tcbCallee = .inactive ∨ s.tsType tcbCallee = .running ∨
    s.tsType tcbCallee = .restart)
  let s : State := { s with replyTCB := update s.replyTCB reply (some tcbCaller) }
  let s := s.setThreadStateBlockedOnReply tcbCaller reply
  scDonated.elim (pure s) fun sc =>
    if s.tcbSchedContext tcbCallee = none ∧ canDonate = true then do
      let oldCaller := s.scReply sc
      assert (∀ old ∈ oldCaller, (s.replyNext old).callStackPtr = some sc)
      let s : State := oldCaller.elim s fun old =>
        { s with replyNext := update s.replyNext old ⟨some reply, false⟩ }
      let s : State := { s with
        replyPrev := update s.replyPrev reply ⟨oldCaller, false⟩
        scReply := update s.scReply sc (some reply)
        replyNext := update s.replyNext reply ⟨some sc, true⟩ }
      s.schedContextDonate sc tcbCallee
    else pure s

/-- `reply_pop`. -/
def replyPop (reply tcb : ℕ) : Except Fault State := do
  assert (s.replyTCB reply = some tcb)
  assert (s.tsType tcb = .blockedOnReply)
  assert (s.replyObject tcb = some reply)
  let prevPtr := (s.replyPrev reply).callStackPtr
  let sc ← deref (s.replyNext reply).callStackPtr
  let s : State := { s with scReply := update s.scReply sc prevPtr }
  let s : State := prevPtr.elim s fun prev =>
    { s with replyNext := update s.replyNext prev (s.replyNext reply) }
  assert (∀ prev ∈ prevPtr, (s.replyNext prev).isHead = true)
  let s : State := { s with replyNext := update s.replyNext reply .null }
  let s ← if s.tcbSchedContext tcb = none then s.schedContextDonate sc tcb else pure s
  { s with replyPrev := update s.replyPrev reply .null }.replyUnlink reply tcb

/-- `reply_remove`. -/
def replyRemove (reply tcb : ℕ) : Except Fault State := do
  assert (s.replyTCB reply = some tcb)
  assert (s.tsType tcb = .blockedOnReply)
  assert (s.replyObject tcb = some reply)
  let nextPtr := (s.replyNext reply).callStackPtr
  let prevPtr := (s.replyPrev reply).callStackPtr
  if nextPtr.isSome ∧ (s.replyNext reply).isHead = true then s.replyPop reply tcb
  else do
    let s : State := nextPtr.elim s fun next => { s with replyPrev := update s.replyPrev next .null }
    let s : State := prevPtr.elim s fun prev => { s with replyNext := update s.replyNext prev .null }
    let s : State := { s with
      replyPrev := update s.replyPrev reply .null
      replyNext := update s.replyNext reply .null }
    s.replyUnlink reply tcb

/-- `reply_remove_tcb`. -/
def replyRemoveTcb (tcb : ℕ) : Except Fault State := do
  assert (s.tsType tcb = .blockedOnReply)
  let reply ← deref (s.replyObject tcb)
  let nextPtr := (s.replyNext reply).callStackPtr
  let prevPtr := (s.replyPrev reply).callStackPtr
  let s : State := nextPtr.elim s fun next =>
    if (s.replyNext reply).isHead then { s with scReply := update s.scReply next none }
    else { s with replyPrev := update s.replyPrev next .null }
  let s : State := prevPtr.elim s fun prev => { s with replyNext := update s.replyNext prev .null }
  let s : State := { s with
    replyPrev := update s.replyPrev reply .null
    replyNext := update s.replyNext reply .null }
  s.replyUnlink reply tcb

/-! ### Blocking and deletion -/

/-- `cancelIPC`, without the queues of endpoints and notifications. -/
def cancelIPC (tptr : ℕ) : Except Fault State :=
  if s.tsType tptr = .blockedOnSend ∨ s.tsType tptr = .blockedOnNotification then
    return s.setThreadState tptr .inactive
  else if s.tsType tptr = .blockedOnReceive then do
    let s ← (s.replyObject tptr).elim (pure s) fun reply => s.replyUnlink reply tptr
    return s.setThreadState tptr .inactive
  else if s.tsType tptr = .blockedOnReply then s.replyRemoveTcb tptr
  else return s

/-- What `receiveIPC` does with the reply object of a thread that blocks: a thread that
still waits for it is cancelled. -/
def receiveBlocks (thread : ℕ) (replyPtr : Option ℕ) : Except Fault State := do
  let s ← (replyPtr.bind s.replyTCB).elim (pure s) fun tcb =>
    if tcb ≠ thread then s.cancelIPC tcb else pure s
  let s := { s.setThreadState thread .blockedOnReceive with
    replyObject := update s.replyObject thread replyPtr }
  return replyPtr.elim s fun reply =>
    { s with replyTCB := update s.replyTCB reply (some thread) }

/-- `finaliseCap` of the last cap to a reply object. -/
def finaliseReply (reply : ℕ) : Except Fault State :=
  (s.replyTCB reply).elim (pure s) fun tcb =>
    if s.tsType tcb = .blockedOnReply then s.replyRemove reply tcb
    else if s.tsType tcb = .blockedOnReceive then s.cancelIPC tcb
    else .error .asserts

/-- `finaliseCap` of the last cap to a thread, with `suspend`. -/
def finaliseThread (tcb : ℕ) : Except Fault State := do
  let s ← (s.tcbSchedContext tcb).elim (pure s) fun sc => s.schedContextUnbindTCB sc
  let s ← s.cancelIPC tcb
  return s.setThreadState tcb .inactive

/-- `finaliseCap` of the last cap to a scheduling context. -/
def finaliseSchedContext (sc : ℕ) : Except Fault State := do
  let s ← s.schedContextUnbindAllTCBs sc
  let s := s.schedContextUnbindNtfn sc
  assert (∀ reply ∈ s.scReply sc, (s.replyNext reply).isHead = true)
  return s.dropReply sc

end State

end Kernel.Mcs
