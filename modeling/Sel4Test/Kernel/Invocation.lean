import Sel4Test.Lib.Routine
import Sel4Test.Kernel.Authority
import Sel4Test.Kernel.IpcRuns
import Sel4Test.Kernel.Revoke
import Sel4Test.Kernel.Untyped

/-!
Invocations of CNodes and untypeds, from the decoding to the end: `object/cnode.c` and
`object/untyped.c`.

A function that returns `exception_t` is a routine on the state of the kernel. An error that is
found while decoding goes to `current_syscall_error`, with `current_lookup_fault`; all of the
rest of the state is a `Store`. The assertions of `cteInsert` and `cteMove` are assertions of
the model. What is done at the end of a decoding is a parameter of it.

* `decodeCNodeInvocation_eq`, `decodeUntypedInvocation_eq`: the two functions decode as the
  functions of the slots do that say what they accept.
* `Handed`: what the slots of an accepted invocation have been checked for.
* `failed_invocations`: an invocation that fails has changed nothing, and one that is carried
  out meets the assertions.
-/

namespace Kernel.Invocation

open Routine

/-! ### The state -/

/-- `exception_t`, less `EXCEPTION_NONE`, as far as an invocation returns it. -/
inductive Exception
  | syscallError
  | preempted
  deriving DecidableEq, Repr

/-- The slots, the threads and endpoints, the current thread, and the state of
`preemptionPoint`. -/
structure Store where
  cspace : CSpace
  ipc : Ipc.State
  ksCurThread : ℕ
  intStateIRQNode : ℕ
  ksWorkUnitsCompleted : ℕ
  isIRQPending : ℕ → Bool
  polls : ℕ

/-- The whole state. -/
structure State extends Store where
  currentSyscallError : SyscallError

/-- A function of the source. -/
abbrev KernelM (α : Type) := Routine Exception State α

namespace State

variable (s : State)

/-- `current_syscall_error` and `current_lookup_fault` are written. -/
def report (e : SyscallError) (s : State) : State := { s with currentSyscallError := e }

/-- The slots are changed. -/
def onSlots (f : CSpace → CSpace) : State := { s with cspace := f s.cspace }

/-- `setThreadState` of the current thread to `ThreadState_Restart`. -/
def restart : State := { s with ipc := s.ipc.setThreadState s.ksCurThread .restart }

/-- The state as a deletion sees it. -/
def toDeletion : DeletionState where
  cspace := s.cspace
  blockedOnReply t := decide (s.ipc.tsType t = .blockedOnReply)
  intStateIRQNode := s.intStateIRQNode
  ksWorkUnitsCompleted := s.ksWorkUnitsCompleted
  isIRQPending := s.isIRQPending
  polls := s.polls
  reduced := []
  released := []

end State

/-- The source returns early with the error of a function of the slots. -/
def check {α : Type} (f : CSpace → Except SyscallError α) : KernelM α :=
  inspect State.report .syscallError fun s => f s.cspace

/-- The current thread restarts after the system call. -/
def setRestart : KernelM Unit := change State.restart

/-! ### What is done -/

/-- The assertions of `cteInsert` and `cteMove` on the destination. -/
def EmptySlot (slot : CtePtr) (s : CSpace) : Prop :=
  (s slot).cap = .null ∧ (s slot).cteMDBNode.mdbNext = none ∧ (s slot).cteMDBNode.mdbPrev = none

instance (slot : CtePtr) (s : CSpace) : Decidable (EmptySlot slot s) :=
  inferInstanceAs (Decidable (_ ∧ _))

/-- `cteMove`. -/
def cteMove (newCap : Cap) (srcSlot destSlot : CtePtr) : KernelM Unit := do
  require fun s => EmptySlot destSlot s.cspace
  change fun s => s.onSlots (Kernel.cteMove newCap srcSlot destSlot)

/-- `invokeCNodeInsert`, which is `cteInsert`. -/
def invokeCNodeInsert (cap : Cap) (srcSlot destSlot : CtePtr) : KernelM Unit := do
  require fun s => EmptySlot destSlot s.cspace
  change fun s => s.onSlots (Kernel.cteInsert cap srcSlot destSlot)

/-- `invokeCNodeMove`. -/
def invokeCNodeMove (cap : Cap) (srcSlot destSlot : CtePtr) : KernelM Unit :=
  cteMove cap srcSlot destSlot

/-- `invokeCNodeRotate`. -/
def invokeCNodeRotate (cap1 cap2 : Cap) (slot1 slot2 slot3 : CtePtr) : KernelM Unit :=
  if slot1 = slot3 then change fun s => s.onSlots (cteSwap cap1 slot1 cap2 slot2)
  else do
    cteMove cap2 slot2 slot3
    cteMove cap1 slot1 slot2

/-- `invokeCNodeSaveCaller`. -/
def invokeCNodeSaveCaller (destSlot : CtePtr) : KernelM Unit := do
  let srcSlot ← look fun s => (⟨s.ksCurThread, tcbCaller⟩ : CtePtr)
  let cap ← look fun s => (s.cspace srcSlot).cap
  match cap with
  | .null => pure ()
  | .reply _ capReplyMaster _ => if capReplyMaster then pure () else cteMove cap srcSlot destSlot
  | _ => halt

/-- `cancelBadgedSends`. -/
def cancelBadgedSends (epptr badge : ℕ) : KernelM Unit := fun s =>
  match s.ipc.cancelBadgedSends epptr badge with
  | .error _ => none
  | .ok ipc => some (.ok (), { s with ipc := ipc })

/-- `invokeCNodeCancelBadgedSends`. -/
def invokeCNodeCancelBadgedSends (cap : Cap) : KernelM Unit :=
  match cap with
  | .endpoint badge _ _ _ _ ptr => if badge ≠ 0 then cancelBadgedSends ptr badge else pure ()
  | _ => halt

section Deletion

-- what a deletion does to threads and endpoints
variable (finaliseThreads : DeletionState → Ipc.State → Ipc.State)

/-- A deletion, or a sequence of deletions, with its status. -/
def deleting (run : DeletionState → Option (DeletionStatus × DeletionState)) : KernelM Unit :=
  fun s => (run s.toDeletion).map fun r =>
    (if r.1 = .exceptionNone then .ok () else .error .preempted,
      { s with
        cspace := r.2.cspace
        ipc := finaliseThreads r.2 s.ipc
        ksWorkUnitsCompleted := r.2.ksWorkUnitsCompleted
        polls := r.2.polls })

/-- `invokeCNodeRevoke`. -/
def invokeCNodeRevoke (fuel : ℕ) (destSlot : CtePtr) : KernelM Unit :=
  deleting finaliseThreads (cteRevoke fuel destSlot)

/-- `invokeCNodeDelete`. -/
def invokeCNodeDelete (fuel : ℕ) (destSlot : CtePtr) : KernelM Unit :=
  deleting finaliseThreads (cteDelete fuel destSlot true)

/-- The function that an accepted invocation of a CNode ends with. -/
def invokeCNode (fuel : ℕ) : CNodeInvocation → KernelM Unit
  | .revoke destSlot => invokeCNodeRevoke finaliseThreads fuel destSlot
  | .delete destSlot => invokeCNodeDelete finaliseThreads fuel destSlot
  | .cancelBadgedSends cap => invokeCNodeCancelBadgedSends cap
  | .insert cap srcSlot destSlot => invokeCNodeInsert cap srcSlot destSlot
  | .move cap srcSlot destSlot => invokeCNodeMove cap srcSlot destSlot
  | .rotate cap1 cap2 slot1 slot2 slot3 => invokeCNodeRotate cap1 cap2 slot1 slot2 slot3
  | .saveCaller destSlot => invokeCNodeSaveCaller destSlot

end Deletion

/-- `invokeUntyped_Retype`; `preempt` says at which chunks of a reset the preemption point
fails. -/
def invokeUntypedRetype (preempt : ℕ → Bool) (slot : CtePtr) (r : Retype) : KernelM Unit :=
  fun s =>
    let result := Kernel.invokeUntypedRetype slot r preempt s.cspace
    some (if result.1 then .ok () else .error .preempted, s.onSlots fun _ => result.2)

/-! ### Decoding -/

section CNode

variable (invoke : CNodeInvocation → KernelM Unit)

/-- Copy, Mint, Move and Mutate. -/
def decodeCopyOrMove (call : CNodeCall) (destSlot : CtePtr) : KernelM Unit :=
  match call.excaprefs with
  | [] => check fun _ => throw .truncatedMessage
  | srcRootSlot :: _ => do
      check fun _ => failIf (call.length < 4) .truncatedMessage
      check (ensureEmptySlot destSlot)
      let srcSlot ← check fun s => lookupSourceSlot s (s srcRootSlot).cap (call.arg 2) (call.arg 3)
      check fun s =>
        failIf ((s srcSlot).cap = .null) (.failedLookup true (.missingCapability (call.arg 3)))
      let new ← check (decodeNewCap call srcSlot)
      check fun _ => failIf (new.1 = .null) .illegalOperation
      setRestart
      if new.2 then invoke (.move new.1 srcSlot destSlot)
      else invoke (.insert new.1 srcSlot destSlot)

/-- Rotate. -/
def decodeRotate (call : CNodeCall) (destSlot : CtePtr) : KernelM Unit :=
  match call.excaprefs with
  | pivotRootSlot :: srcRootSlot :: _ => do
      check fun _ => failIf (call.length < 8) .truncatedMessage
      let srcSlot ← check fun s => lookupSourceSlot s (s srcRootSlot).cap (call.arg 6) (call.arg 7)
      let pivotSlot ← check fun s =>
        lookupPivotSlot s (s pivotRootSlot).cap (call.arg 3) (call.arg 4)
      check fun _ => failIf (pivotSlot = srcSlot ∨ pivotSlot = destSlot) .illegalOperation
      check fun s => if srcSlot ≠ destSlot then ensureEmptySlot destSlot s else pure ()
      check fun s =>
        failIf ((s srcSlot).cap = .null) (.failedLookup true (.missingCapability (call.arg 7)))
      check fun s =>
        failIf ((s pivotSlot).cap = .null) (.failedLookup false (.missingCapability (call.arg 4)))
      let newSrcCap ← look fun s => Cap.updateCapData true (call.arg 5) (s.cspace srcSlot).cap
      let newPivotCap ← look fun s => Cap.updateCapData true (call.arg 2) (s.cspace pivotSlot).cap
      check fun _ => failIf (newSrcCap = .null) .illegalOperation
      check fun _ => failIf (newPivotCap = .null) .illegalOperation
      setRestart
      invoke (.rotate newSrcCap newPivotCap srcSlot pivotSlot destSlot)
  | _ => check fun _ => throw .truncatedMessage

/-- The operation of the label on the target slot. -/
def decodeOperation (call : CNodeCall) (destSlot : CtePtr) : KernelM Unit :=
  match call.invLabel with
  | .CNodeCopy | .CNodeMint | .CNodeMove | .CNodeMutate => decodeCopyOrMove invoke call destSlot
  | .CNodeRevoke => do
      setRestart
      invoke (.revoke destSlot)
  | .CNodeDelete => do
      setRestart
      invoke (.delete destSlot)
  | .CNodeSaveCaller => do
      check (ensureEmptySlot destSlot)
      setRestart
      invoke (.saveCaller destSlot)
  | .CNodeCancelBadgedSends => do
      let destCap ← look fun s => (s.cspace destSlot).cap
      check fun _ => failIf (!hasCancelSendRights destCap) .illegalOperation
      setRestart
      invoke (.cancelBadgedSends destCap)
  | _ => decodeRotate invoke call destSlot

/-- `decodeCNodeInvocation`. -/
def decodeCNodeInvocation (call : CNodeCall) : KernelM Unit := do
  check fun _ => failIf (call.invLabel = .other) .illegalOperation
  check fun _ => failIf (call.length < 2) .truncatedMessage
  let destSlot ← check fun s => lookupTargetSlot s call.cap (call.arg 0) (call.arg 1)
  decodeOperation invoke call destSlot

end CNode

section Untyped

variable (invoke : Retype → KernelM Unit)

/-- The checks of the destination window and of the memory, for a CNode and an untyped. -/
def decodeWindow (call : UntypedCall) (slot : CtePtr) (newType : ObjectType)
    (radix destCNode capFreeIndex capBlockSize capPtr : ℕ) (capIsDevice : Bool) :
    KernelM Unit := do
  let userObjSize := call.arg 1
  let nodeOffset := call.arg 4
  let nodeWindow := call.arg 5
  let objectSize := getObjectSize newType userObjSize
  let nodeSize := wordShl 1 radix
  check fun _ => failIf (wordSub nodeSize 1 < nodeOffset) (.rangeError 0 (wordSub nodeSize 1))
  check fun _ => failIf (nodeWindow < 1 ∨ retypeFanOutLimit < nodeWindow)
    (.rangeError 1 retypeFanOutLimit)
  check fun _ => failIf (wordSub nodeSize nodeOffset < nodeWindow)
    (.rangeError 1 (wordSub nodeSize nodeOffset))
  check fun s => ensureEmptySlots destCNode s nodeOffset nodeWindow
  -- the status decides, but the error stays in the globals
  let status ← attempt (check (ensureNoChildren slot))
  let freeIndex := if status.isOk then 0 else capFreeIndex
  let freeRef := getFreeRef capPtr freeIndex
  let untypedFreeBytes := wordSub (wordShl 1 capBlockSize) (freeIndexToOffset freeIndex)
  check fun _ => failIf (untypedFreeBytes / 2 ^ objectSize < nodeWindow)
    (.notEnoughMemory untypedFreeBytes)
  check fun _ => failIf ((capIsDevice ∧ !archIsFrameType newType) ∧ newType ≠ .untyped)
    (.invalidArgument 1)
  setRestart
  invoke
    { reset := status.isOk
      retypeBase := alignUp freeRef objectSize
      newType := newType
      userSize := userObjSize
      destCNode := destCNode
      destOffset := nodeOffset
      destLength := nodeWindow
      deviceMemory := capIsDevice }

/-- `decodeUntypedInvocation`. -/
def decodeUntypedInvocation (call : UntypedCall) (slot : CtePtr) (cap : Cap) : KernelM Unit := do
  check fun _ => failIf (call.invLabel ≠ .UntypedRetype) .illegalOperation
  check fun _ => failIf (call.length < 6) .truncatedMessage
  match call.excaprefs, cap with
  | [], _ => check fun _ => .error .truncatedMessage
  | rootSlot :: _, .untyped capFreeIndex capIsDevice capBlockSize capPtr =>
      match objectType? (call.arg 0) with
      | none => check fun _ => .error (.invalidArgument 0)
      | some newType => do
          let userObjSize := call.arg 1
          check fun _ => failIf
            (wordBits ≤ userObjSize ∨ maxUntypedBits < getObjectSize newType userObjSize)
            (.rangeError 0 maxUntypedBits)
          check fun _ => failIf (newType = .capTable ∧ userObjSize = 0) (.invalidArgument 1)
          check fun _ => failIf (newType = .untyped ∧ userObjSize < minUntypedBits)
            (.invalidArgument 1)
          let nodeCap ← check (lookupNode rootSlot (call.arg 2) (call.arg 3))
          match nodeCap with
          | .cnode radix _ _ destCNode =>
              decodeWindow invoke call slot newType radix destCNode capFreeIndex capBlockSize
                capPtr capIsDevice
          | _ => check fun _ => .error (.failedLookup false (.missingCapability (call.arg 3)))
  | _, _ => halt

end Untyped

/-! ### Decoding, as a function of the slots -/

section Refine

variable {s : State}

/-- What a routine comes to that reports the error of the slots, or goes on. -/
abbrev decoded {β : Type} (x : Except SyscallError β) (k : β → Option (Except Exception Unit × State))
    (s : State) : Option (Except Exception Unit × State) :=
  screened State.report .syscallError x k s

/-- An error that is not returned stays in the globals. -/
lemma attempt_check_error {β : Type} {f : CSpace → Except SyscallError β}
    {g : Except Exception β → KernelM Unit} {e : SyscallError} (h : f s.cspace = .error e) :
    (attempt (check f) >>= g) s = g (.error .syscallError) (s.report e) :=
  attempt_inspect_error (f := fun s : State => f s.cspace) h

lemma attempt_check_ok {β : Type} {f : CSpace → Except SyscallError β}
    {g : Except Exception β → KernelM Unit} {b : β} (h : f s.cspace = .ok b) :
    (attempt (check f) >>= g) s = g (.ok b) s :=
  attempt_inspect_ok (f := fun s : State => f s.cspace) h

section CNode

variable {invoke : CNodeInvocation → KernelM Unit} {call : CNodeCall} {destSlot : CtePtr}

lemma decodeCopyOrMove_eq : decodeCopyOrMove invoke call destSlot s =
    decoded (Kernel.decodeCopyOrMove call destSlot s.cspace) (fun inv => invoke inv s.restart) s := by
  rw [decodeCopyOrMove, Kernel.decodeCopyOrMove]
  cases call.excaprefs with
  | nil => rfl
  | cons srcRootSlot _ =>
      refine inspect_bind_eq fun _ => ?_
      refine inspect_bind_eq fun _ => ?_
      refine inspect_bind_eq fun srcSlot => ?_
      refine inspect_bind_eq fun _ => ?_
      refine inspect_bind_eq fun new => ?_
      refine inspect_bind_eq fun _ => ?_
      obtain ⟨newCap, isMove⟩ := new
      cases isMove with
      | false => rfl
      | true => rfl

lemma decodeRotate_eq : decodeRotate invoke call destSlot s =
    decoded (Kernel.decodeRotate call destSlot s.cspace) (fun inv => invoke inv s.restart) s := by
  rw [decodeRotate, Kernel.decodeRotate]
  rcases call.excaprefs with _ | ⟨pivotRootSlot, _ | ⟨srcRootSlot, _⟩⟩
  · rfl
  · rfl
  · refine inspect_bind_eq fun _ => ?_
    refine inspect_bind_eq fun srcSlot => ?_
    refine inspect_bind_eq fun pivotSlot => ?_
    refine inspect_bind_eq fun _ => ?_
    refine inspect_bind_eq fun _ => ?_
    refine inspect_bind_eq fun _ => ?_
    refine inspect_bind_eq fun _ => ?_
    rw [look_bind, look_bind]
    refine inspect_bind_eq fun _ => ?_
    exact inspect_bind_eq fun _ => rfl

/-- The decoding of a CNode invocation reads the slots, and the error is all that it writes. -/
lemma decodeCNodeInvocation_eq : decodeCNodeInvocation invoke call s =
    decoded (Kernel.decodeCNodeInvocation call s.cspace) (fun inv => invoke inv s.restart) s := by
  rw [decodeCNodeInvocation, Kernel.decodeCNodeInvocation]
  refine inspect_bind_eq fun _ => ?_
  refine inspect_bind_eq fun _ => ?_
  refine inspect_bind_eq fun destSlot => ?_
  rw [decodeOperation]
  cases call.invLabel with
  | CNodeCopy | CNodeMint | CNodeMove | CNodeMutate => exact decodeCopyOrMove_eq
  | CNodeRevoke | CNodeDelete => rfl
  | CNodeSaveCaller => exact inspect_bind_eq fun _ => rfl
  | CNodeCancelBadgedSends =>
      refine (look_bind _ _ s).trans ?_
      exact inspect_bind_eq fun _ => rfl
  | CNodeRotate | other => exact decodeRotate_eq

end CNode

section Untyped

variable {invoke : Retype → KernelM Unit} {call : UntypedCall} {slot : CtePtr}
  {newType : ObjectType} {radix destCNode freeIndex bits ptr : ℕ} {isDevice : Bool}

/-- What `ensureNoChildren` leaves in the globals, if the retype does not reset. -/
def State.noted (s : State) (r : Retype) : State := if r.reset then s else s.report .revokeFirst

/-- The error of `ensureNoChildren`. -/
lemma eq_revokeFirst {e : SyscallError} {c : CSpace} (h : ensureNoChildren slot c = .error e) :
    e = .revokeFirst := by
  unfold ensureNoChildren at h
  split at h
  · cases h
  · split_ifs at h
    cases h
    rfl

lemma decodeWindow_eq :
    decodeWindow invoke call slot newType radix destCNode freeIndex bits ptr isDevice s =
      decoded (Kernel.decodeWindow call slot newType radix destCNode freeIndex bits ptr isDevice
        s.cspace) (fun r => invoke r (s.noted r).restart) s := by
  rw [decodeWindow, Kernel.decodeWindow]
  refine inspect_bind_eq fun _ => ?_
  refine inspect_bind_eq fun _ => ?_
  refine inspect_bind_eq fun _ => ?_
  refine inspect_bind_eq fun _ => ?_
  cases hchildren : ensureNoChildren slot s.cspace with
  | error e =>
      obtain rfl := eq_revokeFirst hchildren
      refine (attempt_check_error hchildren).trans ?_
      simp only [freeIndexOf, hchildren, Except.isOk, Except.toBool, Bool.false_eq_true, if_false]
      -- later errors take the place of the one that is ignored
      have hreport (e : SyscallError) : (s.report .revokeFirst).report e = s.report e := rfl
      rw [← screened_report hreport]
      refine inspect_bind_eq fun _ => ?_
      refine inspect_bind_eq fun _ => ?_
      rw [setRestart, change_bind, screened_pure, State.noted, if_neg Bool.false_ne_true]
  | ok _ =>
      refine (attempt_check_ok hchildren).trans ?_
      simp only [freeIndexOf, hchildren, Except.isOk, Except.toBool, if_true]
      refine inspect_bind_eq fun _ => ?_
      refine inspect_bind_eq fun _ => ?_
      rw [setRestart, change_bind, screened_pure, State.noted, if_pos rfl]

/-- The decoding of a retype reads the slots, and errors are all that it writes. -/
lemma decodeUntypedInvocation_eq :
    decodeUntypedInvocation invoke call slot (.untyped freeIndex isDevice bits ptr) s =
      decoded (Kernel.decodeUntypedInvocation call slot (.untyped freeIndex isDevice bits ptr)
        s.cspace) (fun r => invoke r (s.noted r).restart) s := by
  unfold decodeUntypedInvocation Kernel.decodeUntypedInvocation
  cases call.excaprefs with
  | nil =>
      refine inspect_bind_eq fun _ => ?_
      exact inspect_bind_eq fun _ => rfl
  | cons rootSlot _ =>
      refine inspect_bind_eq fun _ => ?_
      refine inspect_bind_eq fun _ => ?_
      cases objectType? (call.arg 0) with
      | none => rfl
      | some newType =>
          refine inspect_bind_eq fun _ => ?_
          refine inspect_bind_eq fun _ => ?_
          refine inspect_bind_eq fun _ => ?_
          refine inspect_bind_eq fun nodeCap => ?_
          cases nodeCap with
          | cnode => exact decodeWindow_eq
          | _ => rfl

end Untyped

end Refine

/-! ### No error after the decoding -/

section Never

variable (finaliseThreads : DeletionState → Ipc.State → Ipc.State) (fuel : ℕ)

lemma never_cteMove (newCap : Cap) (srcSlot destSlot : CtePtr) :
    Never .syscallError (cteMove newCap srcSlot destSlot) :=
  (never_require _).bind fun _ => never_change _

lemma never_saveCaller (destSlot : CtePtr) :
    Never .syscallError (invokeCNodeSaveCaller destSlot) := by
  refine (never_look _).bind fun srcSlot => ?_
  refine (never_look _).bind fun cap => ?_
  cases cap with
  | null => exact never_pure ()
  | reply _ capReplyMaster _ =>
      cases capReplyMaster with
      | true => exact never_pure ()
      | false => exact never_cteMove _ _ _
  | _ => exact never_halt

lemma never_cancelBadgedSends (epptr badge : ℕ) :
    Never .syscallError (cancelBadgedSends epptr badge) := by
  intro s s' h
  rw [cancelBadgedSends] at h
  split at h
  · cases h
  · cases h

lemma never_invokeCancelBadgedSends (cap : Cap) :
    Never .syscallError (invokeCNodeCancelBadgedSends cap) := by
  cases cap with
  | endpoint badge _ _ _ _ ptr =>
      rw [invokeCNodeCancelBadgedSends]
      by_cases hbadge : badge = 0
      · rw [if_neg (not_not_intro hbadge)]
        exact never_pure ()
      · rw [if_pos hbadge]
        exact never_cancelBadgedSends ptr badge
  | _ => exact never_halt

/-- The status of a deletion is none, or that it was preempted. -/
lemma never_deleting (run : DeletionState → Option (DeletionStatus × DeletionState)) :
    Never .syscallError (deleting finaliseThreads run) := by
  intro s s' h
  obtain ⟨r, -, hr⟩ := Option.map_eq_some_iff.mp h
  split_ifs at hr
  · cases hr
  · cases hr

/-- No function that carries an invocation out returns `EXCEPTION_SYSCALL_ERROR`. -/
lemma never_invokeCNode (inv : CNodeInvocation) :
    Never .syscallError (invokeCNode finaliseThreads fuel inv) := by
  cases inv with
  | revoke | delete => exact never_deleting finaliseThreads _
  | cancelBadgedSends cap => exact never_invokeCancelBadgedSends cap
  | insert => exact (never_require _).bind fun _ => never_change _
  | move => exact never_cteMove _ _ _
  | rotate cap1 cap2 slot1 slot2 slot3 =>
      rw [invokeCNode, invokeCNodeRotate]
      split_ifs
      · exact never_change _
      · exact (never_cteMove _ _ _).bind fun _ => never_cteMove _ _ _
  | saveCaller destSlot => exact never_saveCaller destSlot

lemma never_invokeUntypedRetype (preempt : ℕ → Bool) (slot : CtePtr) (r : Retype) :
    Never .syscallError (invokeUntypedRetype preempt slot r) := by
  intro s s' h
  obtain ⟨hstatus, -⟩ := Prod.mk.inj (Option.some.inj h)
  split_ifs at hstatus
  cases hstatus

end Never

/-! ### What the slots have been checked for -/

/-- The slots and caps of an accepted invocation. -/
def Handed (s : CSpace) : CNodeInvocation → Prop
  | .insert cap srcSlot destSlot | .move cap srcSlot destSlot =>
      cap ≠ .null ∧ (s srcSlot).cap ≠ .null ∧ (s destSlot).cap = .null
  | .rotate cap1 cap2 slot1 slot2 slot3 =>
      (cap1 ≠ .null ∧ cap2 ≠ .null) ∧ ((s slot1).cap ≠ .null ∧ (s slot2).cap ≠ .null) ∧
        (slot2 ≠ slot1 ∧ slot2 ≠ slot3) ∧ (slot1 ≠ slot3 → (s slot3).cap = .null)
  | .saveCaller destSlot => (s destSlot).cap = .null
  | .cancelBadgedSends cap => ∃ badge ptr, cap = .endpoint badge true true true true ptr
  | .revoke _ | .delete _ => True

section Handed

variable {c : CSpace} {call : CNodeCall} {inv : CNodeInvocation} {destSlot : CtePtr}

lemma decodeCopyOrMove_handed (h : Kernel.decodeCopyOrMove call destSlot c = .ok inv) :
    Handed c inv := by
  unfold Kernel.decodeCopyOrMove at h
  split at h
  · cases h
  · obtain ⟨-, h⟩ := failIf_bind_eq_ok h
    obtain ⟨_, hempty, h⟩ := bind_eq_ok h
    obtain ⟨srcSlot, -, h⟩ := bind_eq_ok h
    obtain ⟨hsrc, h⟩ := failIf_bind_eq_ok h
    obtain ⟨⟨newCap, isMove⟩, -, h⟩ := bind_eq_ok h
    obtain ⟨hnew, h⟩ := failIf_bind_eq_ok h
    have hhanded := And.intro hnew (And.intro hsrc (ensureEmptySlot_eq_ok.mp hempty))
    cases isMove with
    | false =>
        cases h
        exact hhanded
    | true =>
        cases h
        exact hhanded

lemma decodeRotate_handed (h : Kernel.decodeRotate call destSlot c = .ok inv) :
    Handed c inv := by
  unfold Kernel.decodeRotate at h
  split at h
  · obtain ⟨-, h⟩ := failIf_bind_eq_ok h
    obtain ⟨slot1, -, h⟩ := bind_eq_ok h
    obtain ⟨slot2, -, h⟩ := bind_eq_ok h
    obtain ⟨hpivot, h⟩ := failIf_bind_eq_ok h
    obtain ⟨_, hempty, h⟩ := bind_eq_ok h
    obtain ⟨hsrc, h⟩ := failIf_bind_eq_ok h
    obtain ⟨hpivotCap, h⟩ := failIf_bind_eq_ok h
    obtain ⟨hcap1, h⟩ := failIf_bind_eq_ok h
    obtain ⟨hcap2, h⟩ := failIf_bind_eq_ok h
    cases h
    refine ⟨⟨hcap1, hcap2⟩, ⟨hsrc, hpivotCap⟩, not_or.mp hpivot, fun hne => ?_⟩
    rw [if_pos hne] at hempty
    exact ensureEmptySlot_eq_ok.mp hempty
  · cases h

lemma hasCancelSendRights_eq {cap : Cap} (h : hasCancelSendRights cap = true) :
    ∃ badge ptr, cap = .endpoint badge true true true true ptr := by
  cases cap with
  | endpoint badge grantReply grant send receive ptr =>
      simp only [hasCancelSendRights, Bool.and_eq_true] at h
      obtain ⟨⟨⟨rfl, rfl⟩, rfl⟩, rfl⟩ := h
      exact ⟨badge, ptr, rfl⟩
  | _ => cases h

lemma decodeCNodeInvocation_handed (h : Kernel.decodeCNodeInvocation call c = .ok inv) :
    Handed c inv := by
  unfold Kernel.decodeCNodeInvocation at h
  obtain ⟨-, h⟩ := failIf_bind_eq_ok h
  obtain ⟨-, h⟩ := failIf_bind_eq_ok h
  obtain ⟨destSlot, -, h⟩ := bind_eq_ok h
  cases hlabel : call.invLabel with
  | CNodeCopy | CNodeMint | CNodeMove | CNodeMutate =>
      rw [hlabel] at h
      exact decodeCopyOrMove_handed h
  | CNodeRevoke | CNodeDelete =>
      rw [hlabel] at h
      cases h
      trivial
  | CNodeSaveCaller =>
      rw [hlabel] at h
      obtain ⟨_, hempty, h⟩ := bind_eq_ok h
      cases h
      exact ensureEmptySlot_eq_ok.mp hempty
  | CNodeCancelBadgedSends =>
      rw [hlabel] at h
      obtain ⟨hrights, h⟩ := failIf_bind_eq_ok h
      cases h
      exact hasCancelSendRights_eq (by simpa using hrights)
  | CNodeRotate | other =>
      rw [hlabel] at h
      exact decodeRotate_handed h

end Handed

/-! ### The assertions hold -/

/-- What the caller slot of the current thread may hold. -/
def CallerSlot (s : State) : Prop :=
  (s.cspace ⟨s.ksCurThread, tcbCaller⟩).cap = .null ∨
    ∃ canGrant master tcb, (s.cspace ⟨s.ksCurThread, tcbCaller⟩).cap = .reply canGrant master tcb

/-- The invocations that assert something about their slots. `SaveCaller` does so about the
caller slot, too. -/
def Asserting (s : State) : CNodeInvocation → Prop
  | .insert .. | .move .. | .rotate .. => True
  | .saveCaller _ => CallerSlot s
  | .revoke _ | .delete _ | .cancelBadgedSends _ => False

section Runs

variable {s : State} {chains : List (List CtePtr)} {cap : Cap} {srcSlot destSlot : CtePtr}

lemma emptySlot_of_rep {c : CSpace} {p : CtePtr} (h : Rep c chains) (hnull : (c p).cap = .null) :
    EmptySlot p c := by
  refine ⟨hnull, ?_⟩
  rw [CSpace.cteMDBNode_eq, h.null p hnull]
  exact ⟨rfl, rfl⟩

/-- The source of a move is empty afterwards. -/
lemma emptySlot_cteMove {c : CSpace} {a b : CtePtr} (h : Rep c chains) (ha : (c a).cap ≠ .null)
    (hb : (c b).cap = .null) : EmptySlot a (Kernel.cteMove cap a b c) := by
  have hnode := node_cteMove h ha hb cap b
  rw [Equiv.swap_apply_right, h.null b hb] at hnode
  refine ⟨?_, ?_⟩
  · rw [cap_cteMove, if_pos rfl]
  · rw [CSpace.cteMDBNode_eq, hnode]
    exact ⟨rfl, rfl⟩

lemma cteMove_eq (h : EmptySlot destSlot s.cspace) : cteMove cap srcSlot destSlot s =
    some (.ok (), s.onSlots (Kernel.cteMove cap srcSlot destSlot)) :=
  require_bind h

/-- No assertion fails on the slots of an accepted invocation. -/
lemma Handed.runs {inv : CNodeInvocation} (finaliseThreads : DeletionState → Ipc.State → Ipc.State)
    (fuel : ℕ) (h : Handed s.cspace inv) (hrep : Rep s.cspace chains) (hinv : Asserting s inv) :
    ∃ s', invokeCNode finaliseThreads fuel inv s = some (.ok (), s') := by
  cases inv with
  | revoke | delete | cancelBadgedSends => exact absurd hinv not_false
  | insert cap srcSlot destSlot =>
      obtain ⟨-, -, hdest⟩ := h
      exact ⟨_, require_bind (emptySlot_of_rep hrep hdest)⟩
  | move cap srcSlot destSlot =>
      obtain ⟨-, -, hdest⟩ := h
      exact ⟨_, cteMove_eq (emptySlot_of_rep hrep hdest)⟩
  | rotate cap1 cap2 slot1 slot2 slot3 =>
      obtain ⟨-, ⟨-, hpivot⟩, -, hdest⟩ := h
      rw [invokeCNode, invokeCNodeRotate]
      split_ifs with heq
      · exact ⟨_, rfl⟩
      · -- the pivot leaves its slot, which the source then comes to
        have hfirst := emptySlot_of_rep hrep (hdest heq)
        have hsecond : EmptySlot slot2 (Kernel.cteMove cap2 slot2 slot3 s.cspace) :=
          emptySlot_cteMove hrep hpivot (hdest heq)
        rw [bind_apply, cteMove_eq hfirst]
        exact ⟨_, cteMove_eq hsecond⟩
  | saveCaller destSlot =>
      have hempty : EmptySlot destSlot s.cspace := emptySlot_of_rep hrep h
      rw [invokeCNode, invokeCNodeSaveCaller, look_bind, look_bind]
      rcases hinv with hnull | ⟨canGrant, master, tcb, hreply⟩
      · rw [hnull]
        exact ⟨s, rfl⟩
      · rw [hreply]
        cases master with
        | true => exact ⟨s, rfl⟩
        | false => exact ⟨_, cteMove_eq hempty⟩

end Runs

/-- **Failed invocations change nothing**: if the decoding and what it ends with return
`EXCEPTION_SYSCALL_ERROR`, slots, links, free indices and threads are as before. Otherwise the
slots that are handed on have been checked, and no assertion about them fails. -/
theorem failed_invocations (finaliseThreads : DeletionState → Ipc.State → Ipc.State) (fuel : ℕ)
    (preempt : ℕ → Bool) (s : State) :
    (∀ call s', decodeCNodeInvocation (invokeCNode finaliseThreads fuel) call s =
      some (.error .syscallError, s') → s'.toStore = s.toStore) ∧
    (∀ call slot freeIndex isDevice bits ptr s',
      decodeUntypedInvocation (invokeUntypedRetype preempt slot) call slot
        (.untyped freeIndex isDevice bits ptr) s = some (.error .syscallError, s') →
      s'.toStore = s.toStore) ∧
    (∀ invoke call, (∃ e, decodeCNodeInvocation invoke call s =
        some (.error .syscallError, s.report e)) ∨
      ∃ inv, decodeCNodeInvocation invoke call s = invoke inv s.restart ∧ Handed s.cspace inv ∧
        ∀ chains, Rep s.cspace chains → Asserting s inv →
          ∃ s', invokeCNode finaliseThreads fuel inv s.restart = some (.ok (), s')) ∧
    ∀ invoke call slot freeIndex isDevice bits ptr,
      (∃ e, decodeUntypedInvocation invoke call slot (.untyped freeIndex isDevice bits ptr) s =
        some (.error .syscallError, s.report e)) ∨
      ∃ r, decodeUntypedInvocation invoke call slot (.untyped freeIndex isDevice bits ptr) s =
          invoke r (s.noted r).restart ∧
        ∀ i, i < r.destLength → (s.cspace ⟨r.destCNode, r.destOffset + i⟩).cap = .null ∧
          ∀ chains, Rep s.cspace chains →
            EmptySlot ⟨r.destCNode, r.destOffset + i⟩ s.cspace := by
  refine ⟨fun call s' h => ?_, fun call slot freeIndex isDevice bits ptr s' h => ?_,
    fun invoke call => ?_, fun invoke call slot freeIndex isDevice bits ptr => ?_⟩
  · rw [decodeCNodeInvocation_eq] at h
    rcases of_screened_eq_error h with ⟨e, -, rfl⟩ | ⟨inv, -, hinv⟩
    · rfl
    · exact absurd hinv (never_invokeCNode finaliseThreads fuel inv _ _)
  · rw [decodeUntypedInvocation_eq] at h
    rcases of_screened_eq_error h with ⟨e, -, rfl⟩ | ⟨r, -, hr⟩
    · rfl
    · exact absurd hr (never_invokeUntypedRetype preempt slot r _ _)
  · rw [decodeCNodeInvocation_eq]
    refine (screened_cases _ _ s).imp_right fun ⟨inv, hok, hinv⟩ => ?_
    have hhanded := decodeCNodeInvocation_handed hok
    exact ⟨inv, hinv, hhanded, fun chains hrep hasserting =>
      Handed.runs (s := s.restart) finaliseThreads fuel hhanded hrep hasserting⟩
  · rw [decodeUntypedInvocation_eq]
    refine (screened_cases _ _ s).imp_right fun ⟨r, hok, hr⟩ => ?_
    obtain ⟨radix, -, ha⟩ := decodeUntypedInvocation_spec hok
    have hempty := ha.empty
    exact ⟨r, hr, fun i hi => ⟨hempty i hi, fun chains hrep => emptySlot_of_rep hrep (hempty i hi)⟩⟩

/-- After boot, thread 1 runs, and one slot holds a CNode. -/
def booted : State where
  cspace := singleCap ⟨7, 0⟩ (.cnode 4 60 0 7)
  ipc := Ipc.boot
  ksCurThread := 1
  intStateIRQNode := 0
  ksWorkUnitsCompleted := 0
  isIRQPending _ := false
  polls := 0
  currentSyscallError := .illegalOperation

/-- A Copy from an empty slot to an empty slot fails at its source. -/
def copyOfNothing : CNodeCall where
  invLabel := .CNodeCopy
  length := 5
  cap := .cnode 4 60 0 7
  arg i := if i = 0 then 2 else if i = 2 then 1 else 64
  excaprefs := [⟨7, 0⟩]

theorem failed_invocations_copy : ∃ s',
    decodeCNodeInvocation (invokeCNode (fun _ ipc => ipc) 10) copyOfNothing booted =
      some (.error .syscallError, s') ∧
    s'.currentSyscallError = .failedLookup true (.missingCapability 64) ∧
    s'.toStore = booted.toStore := by
  have hrun : decodeCNodeInvocation (invokeCNode (fun _ ipc => ipc) 10) copyOfNothing booted =
      some (.error .syscallError, booted.report (.failedLookup true (.missingCapability 64))) := rfl
  exact ⟨_, hrun, rfl,
    (failed_invocations (fun _ ipc => ipc) 10 (fun _ => false) booted).1 copyOfNothing _ hrun⟩

end Kernel.Invocation
