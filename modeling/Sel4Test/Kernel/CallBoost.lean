import Sel4Test.Kernel.Lookup

/-!
The CallBoost fast path, `fastpath_callBoost` of `fastpath/fastpath.c`, and the table of
server ports of `api/syscall.c`, on AArch64 without MCS.

A thread is named by the address of its block, and `⟨t, tcbReply⟩` is the reply slot of `t`.
Where the source reads behind an array or through a null pointer it has no result, and the
model returns `none`. What the switch of threads does to the hardware is left out.

* `Invariants`: endpoint queues, ready queues, and the links between callers and the slots
  that hold their reply caps.
* `callBoost_state`: the state after a fast path that went through.
* `callBoost_invariants`: exactly when it keeps the invariants.
-/

namespace Kernel

/-! ### The state -/

/-- `_thread_state_t`. -/
inductive TsType
  | inactive
  | running
  | restart
  | blockedOnReceive
  | blockedOnSend
  | blockedOnReply
  | blockedOnNotification
  | idleThreadState
  deriving DecidableEq, Repr

/-- `thread_state_t`. -/
structure ThreadState where
  tsType : TsType
  blockingObject : ℕ
  blockingIPCCanGrant : Bool
  deriving DecidableEq, Repr

/-- `tcb_t`: the state, and the registers by their numbers. -/
structure Tcb where
  tcbState : ThreadState
  registers : ℕ → ℕ

/-- `ksSchedulerAction`. -/
inductive SchedulerAction
  | resumeCurrentThread
  | chooseNewThread
  | switchTo (t : ℕ)
  deriving DecidableEq, Repr

/-- `struct ipcServerItem`. -/
structure IpcServerItem where
  serverThread : Option ℕ
  func : ℕ
  stk : ℕ
  deriving DecidableEq, Repr

/-- The part of the kernel state that is read or written. Ready queues are named by domain
and priority. -/
structure KernelState where
  ksCurThread : ℕ
  ksSchedulerAction : SchedulerAction
  tcb : ℕ → Tcb
  cspace : CSpace
  epQueue : ℕ → List ℕ
  readyQueue : ℕ × ℕ → List ℕ
  asidMap : ℕ → Option ℕ
  ipcServerList : ℕ → IpcServerItem
  ipcServerListTop : ℕ

namespace KernelState

variable (s : KernelState)

/-- `thread_state_ptr_set_tsType_np`, which writes the whole word and so clears the blocking
object. -/
def setTsType (t : ℕ) (tsType : TsType) : KernelState :=
  { s with
    tcb := Function.update s.tcb t
      { s.tcb t with tcbState := { (s.tcb t).tcbState with tsType, blockingObject := 0 } } }

/-- `getRegister`. -/
def getRegister (t reg : ℕ) : ℕ := (s.tcb t).registers reg

/-- `setRegister`. -/
def setRegister (t reg w : ℕ) : KernelState :=
  { s with
    tcb := Function.update s.tcb t
      { s.tcb t with registers := Function.update (s.tcb t).registers reg w } }

end KernelState

/-! ### The fast path -/

/-- `SERVER_PORT_NUM`. -/
def serverPortNum : ℕ := 128

/-- `n_contextRegisters`. -/
def nContextRegisters : ℕ := 37

/-- `msgRegisters[0]`, register X2. -/
def msgRegister0 : ℕ := 2

/-- `int port = registers[X5]`. -/
def portOf (s : KernelState) : ℤ :=
  let w : ℕ := s.getRegister s.ksCurThread 5 % 2 ^ 32
  if w < 2 ^ 31 then (w : ℤ) else (w : ℤ) - 2 ^ 32

/-- `ipcServerList[port]`, if this is an element of the array. -/
def serverItem (s : KernelState) (port : ℤ) : Option IpcServerItem :=
  if 0 ≤ port ∧ port < serverPortNum then some (s.ipcServerList port.toNat) else none

/-- `cap_vspace_cap_get_capVSMappedASID` and `cap_vtable_cap_get_vspace_root_fp`; a null cap
has zero in both fields. -/
def vtableFields : Cap → ℕ × ℕ
  | .vspace asid root _ => (asid, root)
  | _ => (0, 0)

/-- The check that the ASID of the thread is still that of its address space. -/
def AsidValid (s : KernelState) (dest : ℕ) : Prop :=
  let fields := vtableFields (s.cspace ⟨dest, tcbVTable⟩).cap
  s.asidMap fields.1 = some fields.2

instance (s : KernelState) (dest : ℕ) : Decidable (AsidValid s dest) :=
  inferInstanceAs (Decidable (_ = _))

/-- `seL4_MessageInfo_get_length`. -/
def messageLength (msgInfo : ℕ) : ℕ := msgInfo % 2 ^ 7

/-- `seL4_MessageInfo_set_capsUnwrapped(info, 0)`. -/
def clearCapsUnwrapped (msgInfo : ℕ) : ℕ := msgInfo - msgInfo / 2 ^ 9 % 2 ^ 3 * 2 ^ 9

/-- `fastpath_copy_mrs`. -/
def fastpathCopyMrs (length src dest : ℕ) (s : KernelState) : KernelState :=
  (List.range length).foldl
    (fun s i => s.setRegister dest (msgRegister0 + i) (s.getRegister src (msgRegister0 + i))) s

/-- The caller slot of `dest` gets a reply cap for `cur`, and the two slots are linked. The
flags and the next slot of the caller slot stay, and so does the previous slot of the reply
slot. -/
def insertReplyCap (replyCanGrant : Bool) (cur dest : ℕ) (s : CSpace) : CSpace :=
  let replySlot : CtePtr := ⟨cur, tcbReply⟩
  let callerSlot : CtePtr := ⟨dest, tcbCaller⟩
  let s := s.setCap callerSlot (.reply replyCanGrant false cur)
  let s := s.setPrev callerSlot (some replySlot)
  s.setNode replySlot
    { (s replySlot).cteMDBNode with
      mdbNext := some callerSlot, mdbRevocable := true, mdbFirstBadged := true }

/-- What the fast path ends in: the slow path, from this state, or the return to user mode
with a badge and a message info. -/
inductive Outcome
  | slowpath (s : KernelState)
  | restored (badge msgInfo : ℕ) (s : KernelState)

/-- The state after the fast path's own writes. -/
def Outcome.state : Outcome → KernelState
  | slowpath s => s
  | restored _ _ s => s

/-- The part behind the point of no return. -/
def commitCallBoost (length dest : ℕ) (item : IpcServerItem) (s : KernelState) : KernelState :=
  let cur := s.ksCurThread
  let s := s.setTsType cur .blockedOnReply
  let replyCanGrant := (s.tcb dest).tcbState.blockingIPCCanGrant
  let s := { s with cspace := insertReplyCap replyCanGrant cur dest s.cspace }
  let s := fastpathCopyMrs length cur dest s
  let s := s.setRegister dest 21 item.stk
  let s := s.setRegister dest 32 item.func
  let s := s.setTsType dest .running
  { s with ksCurThread := dest }

/-- `fastpath_callBoost`. -/
def fastpathCallBoost (msgInfo : ℕ) (s : KernelState) : Option Outcome :=
  let length := messageLength msgInfo
  match serverItem s (portOf s) with
  | none => none
  | some item =>
      match item.serverThread with
      | none => none
      | some dest =>
          if ¬ AsidValid s dest then some (.slowpath s)
          else if nContextRegisters < msgRegister0 + length then none
          else some (.restored 1 (clearCapsUnwrapped msgInfo) (commitCallBoost length dest item s))

/-- `handleRegister`. -/
def handleRegister (s : KernelState) : KernelState :=
  let thread := s.ksCurThread
  let portInfo := s.getRegister thread 4
  let funcInfo := s.getRegister thread 5
  let newIpc : IpcServerItem := ⟨some thread, funcInfo, portInfo⟩
  let top := s.ipcServerListTop
  let s := { s with ipcServerList := Function.update s.ipcServerList top newIpc }
  let s := s.setRegister thread 4 top
  { s with ipcServerListTop := (top + 1) % serverPortNum }

/-! ### The invariants -/

/-- The endpoint that the thread waits on. -/
def ThreadState.endpoint? (ts : ThreadState) : Option ℕ :=
  match ts.tsType with
  | .blockedOnReceive | .blockedOnSend => some ts.blockingObject
  | _ => none

/-- `isRunnable`. -/
def ThreadState.runnable (ts : ThreadState) : Bool :=
  match ts.tsType with
  | .running | .restart => true
  | _ => false

/-- The thread waits for something. -/
def ThreadState.blocked (ts : ThreadState) : Bool :=
  match ts.tsType with
  | .blockedOnReceive | .blockedOnSend | .blockedOnReply | .blockedOnNotification => true
  | _ => false

/-- The state of a thread. -/
abbrev KernelState.stateOf (s : KernelState) (t : ℕ) : ThreadState := (s.tcb t).tcbState

/-- Every thread that waits on an endpoint is once in its queue, and no other thread is in
one. -/
structure EndpointInv (s : KernelState) : Prop where
  once : ∀ t e, (s.stateOf t).endpoint? = some e → (s.epQueue e).count t = 1
  only : ∀ e, ∀ t ∈ s.epQueue e, (s.stateOf t).endpoint? = some e

/-- Every runnable thread but the current one and the one to be switched to is in exactly one
ready queue, and no blocked or current thread is in one. -/
structure ReadyInv (s : KernelState) : Prop where
  queued : ∀ t, (s.stateOf t).runnable → t ≠ s.ksCurThread → s.ksSchedulerAction ≠ .switchTo t →
    ∃! q, t ∈ s.readyQueue q
  only : ∀ q, ∀ t ∈ s.readyQueue q, (s.stateOf t).blocked = false ∧ t ≠ s.ksCurThread

/-- Every reply cap other than a master names a thread that waits for the reply and is linked
with its reply slot, and a reply slot is linked with nothing else. -/
structure ReplyInv (s : KernelState) : Prop where
  caller : ∀ p canGrant t, (s.cspace p).cap = .reply canGrant false t →
    (s.stateOf t).tsType = .blockedOnReply ∧
      (s.cspace.node ⟨t, tcbReply⟩).mdbNext = some p ∧
      (s.cspace.node p).mdbPrev = some ⟨t, tcbReply⟩
  linked : ∀ t p, (s.cspace.node ⟨t, tcbReply⟩).mdbNext = some p →
    ∃ canGrant, (s.cspace p).cap = .reply canGrant false t

/-- The invariants of IPC. -/
structure Invariants (s : KernelState) : Prop where
  endpoint : EndpointInv s
  ready : ReadyInv s
  reply : ReplyInv s

/-! ### The state after the fast path -/

section Frame

variable {s : KernelState} {t t' reg w : ℕ} {tsType : TsType}

@[simp] lemma stateOf_setTsType :
    (s.setTsType t tsType).stateOf t' =
      if t' = t then { s.stateOf t with tsType, blockingObject := 0 } else s.stateOf t' := by
  simp only [KernelState.stateOf, KernelState.setTsType, Function.update_apply]
  split_ifs <;> rfl

@[simp] lemma stateOf_setRegister : (s.setRegister t reg w).stateOf t' = s.stateOf t' := by
  simp only [KernelState.stateOf, KernelState.setRegister, Function.update_apply]
  split_ifs with h
  · rw [h]
  · rfl

@[simp] lemma getRegister_setTsType {r : ℕ} :
    (s.setTsType t tsType).getRegister t' r = s.getRegister t' r := by
  simp only [KernelState.getRegister, KernelState.setTsType, Function.update_apply]
  split_ifs with h
  · rw [h]
  · rfl

@[simp] lemma getRegister_setRegister {r : ℕ} :
    (s.setRegister t reg w).getRegister t' r =
      if t' = t ∧ r = reg then w else s.getRegister t' r := by
  simp only [KernelState.getRegister, KernelState.setRegister, Function.update_apply]
  split_ifs <;> simp_all

/-- The table of ports is the same. -/
structure SameTable (s s' : KernelState) : Prop where
  list : s'.ipcServerList = s.ipcServerList
  top : s'.ipcServerListTop = s.ipcServerListTop

/-- Only registers differ. -/
structure OnlyRegisters (s s' : KernelState) : Prop extends SameTable s s' where
  cur : s'.ksCurThread = s.ksCurThread
  action : s'.ksSchedulerAction = s.ksSchedulerAction
  state : ∀ t, s'.stateOf t = s.stateOf t
  cspace : s'.cspace = s.cspace
  epQueue : s'.epQueue = s.epQueue
  readyQueue : s'.readyQueue = s.readyQueue

lemma OnlyRegisters.refl : OnlyRegisters s s := 
  ⟨⟨rfl, rfl⟩, rfl, rfl, fun _ => rfl, rfl, rfl, rfl⟩

lemma OnlyRegisters.setRegister {s' : KernelState} (h : OnlyRegisters s s') :
    OnlyRegisters s (s'.setRegister t reg w) :=
  ⟨⟨h.list, h.top⟩, h.cur, h.action, fun _ => stateOf_setRegister.trans (h.state _), h.cspace,
    h.epQueue,
    h.readyQueue⟩

lemma onlyRegisters_fastpathCopyMrs (length src dest : ℕ) :
    OnlyRegisters s (fastpathCopyMrs length src dest s) := by
  unfold fastpathCopyMrs
  generalize List.range length = is
  suffices h : ∀ s', OnlyRegisters s s' → OnlyRegisters s (is.foldl (fun s i =>
      s.setRegister dest (msgRegister0 + i) (s.getRegister src (msgRegister0 + i))) s') from
    h s .refl
  induction is with
  | nil => exact fun _ h => h
  | cons i is ih => exact fun s' h => ih _ h.setRegister

/-- **The state after the fast path**, for what the invariants are about. -/
structure Boosted (dest : ℕ) (s s' : KernelState) : Prop where
  cur : s'.ksCurThread = dest
  action : s'.ksSchedulerAction = s.ksSchedulerAction
  epQueue : s'.epQueue = s.epQueue
  readyQueue : s'.readyQueue = s.readyQueue
  dest_state : (s'.stateOf dest).tsType = .running
  cur_state : s.ksCurThread ≠ dest → (s'.stateOf s.ksCurThread).tsType = .blockedOnReply
  others : ∀ t, t ≠ dest → t ≠ s.ksCurThread → s'.stateOf t = s.stateOf t
  cspace : ∃ canGrant, s'.cspace = insertReplyCap canGrant s.ksCurThread dest s.cspace

lemma callBoost_state (length dest : ℕ) (item : IpcServerItem) :
    Boosted dest s (commitCallBoost length dest item s) := by
  let start := s.setTsType s.ksCurThread .blockedOnReply
  let inserted := { start with
    cspace := insertReplyCap (start.stateOf dest).blockingIPCCanGrant s.ksCurThread dest s.cspace }
  have hregs : OnlyRegisters inserted
      (((fastpathCopyMrs length s.ksCurThread dest inserted).setRegister dest 21 item.stk).setRegister
        dest 32 item.func) :=
    (onlyRegisters_fastpathCopyMrs length _ dest).setRegister.setRegister
  have hcommit : ∀ t, (commitCallBoost length dest item s).stateOf t =
      if t = dest then { inserted.stateOf dest with tsType := .running, blockingObject := 0 }
      else inserted.stateOf t := by
    intro t
    rw [← hregs.state dest, ← hregs.state t]
    exact stateOf_setTsType
  have hinserted : ∀ t, inserted.stateOf t = if t = s.ksCurThread then
      { s.stateOf s.ksCurThread with tsType := .blockedOnReply, blockingObject := 0 }
      else s.stateOf t := fun t => stateOf_setTsType
  constructor
  · rfl
  · exact hregs.action
  · exact hregs.epQueue
  · exact hregs.readyQueue
  · rw [hcommit, if_pos rfl]
  · intro hne
    rw [hcommit, if_neg hne, hinserted, if_pos rfl]
  · intro t hdest hcur
    rw [hcommit, if_neg hdest, hinserted, if_neg hcur]
  · exact ⟨_, hregs.cspace⟩

end Frame

/-! ### When the invariants are kept -/

section Slots

variable {canGrant : Bool} {cur dest : ℕ} {s : CSpace} {p : CtePtr} {t : ℕ}

lemma cap_insertReplyCap : (insertReplyCap canGrant cur dest s p).cap =
    if p = ⟨dest, tcbCaller⟩ then .reply canGrant false cur else (s p).cap := by
  simp only [insertReplyCap, CSpace.cap_setNode, CSpace.cap_setPrev, CSpace.cap_setCap]

lemma prev_insertReplyCap : ((insertReplyCap canGrant cur dest s).node p).mdbPrev =
    if p = ⟨dest, tcbCaller⟩ then some ⟨cur, tcbReply⟩ else (s.node p).mdbPrev := by
  simp only [insertReplyCap, CSpace.node_setNode, CSpace.cteMDBNode_eq, CSpace.node_setPrev,
    CSpace.node_setCap]
  split_ifs <;> simp_all

lemma next_insertReplyCap : ((insertReplyCap canGrant cur dest s).node ⟨t, tcbReply⟩).mdbNext =
    if t = cur then some ⟨dest, tcbCaller⟩ else (s.node ⟨t, tcbReply⟩).mdbNext := by
  simp only [insertReplyCap, CSpace.node_setNode, CSpace.cteMDBNode_eq, CSpace.node_setPrev,
    CSpace.node_setCap, CtePtr.mk.injEq, and_true]
  split_ifs <;> rfl

end Slots

/-- The state of caller and server on which the fast path does what the slow path would:
both are in no endpoint queue, the server is in no ready queue, and no reply cap is
overwritten or cut off. -/
structure Clear (msgInfo : ℕ) (s : KernelState) (dest : ℕ) : Prop where
  length : msgRegister0 + messageLength msgInfo ≤ nContextRegisters
  dest_ne : dest ≠ s.ksCurThread
  dest_endpoint : (s.stateOf dest).endpoint? = none
  cur_endpoint : (s.stateOf s.ksCurThread).endpoint? = none
  dest_queue : ∀ q, dest ∉ s.readyQueue q
  others : ∀ p canGrant t, p ≠ ⟨dest, tcbCaller⟩ → (s.cspace p).cap = .reply canGrant false t →
    t ≠ dest ∧ t ≠ s.ksCurThread
  caller : ∀ canGrant t, (s.cspace ⟨dest, tcbCaller⟩).cap = .reply canGrant false t →
    t = s.ksCurThread

section Kept

variable {s s' : KernelState} {dest msgInfo : ℕ}

lemma ThreadState.endpoint?_of_running {ts : ThreadState} (h : ts.tsType = .running) :
    ts.endpoint? = none := by
  rw [ThreadState.endpoint?, h]

lemma ThreadState.endpoint?_of_blockedOnReply {ts : ThreadState}
    (h : ts.tsType = .blockedOnReply) : ts.endpoint? = none := by
  rw [ThreadState.endpoint?, h]

/-- On the states that are clear, the endpoint queues still fit. -/
lemma Boosted.endpointInv (h : Boosted dest s s') (hinv : EndpointInv s)
    (hclear : Clear msgInfo s dest) : EndpointInv s' := by
  have hstate : ∀ t, (s'.stateOf t).endpoint? = (s.stateOf t).endpoint? := by
    intro t
    by_cases hdest : t = dest
    · rw [hdest, hclear.dest_endpoint, ThreadState.endpoint?_of_running h.dest_state]
    by_cases hcur : t = s.ksCurThread
    · rw [hcur, hclear.cur_endpoint,
        ThreadState.endpoint?_of_blockedOnReply (h.cur_state hclear.dest_ne.symm)]
    · rw [h.others t hdest hcur]
  constructor
  · intro t e ht
    rw [hstate] at ht
    rw [h.epQueue]
    exact hinv.once t e ht
  · intro e t ht
    rw [h.epQueue] at ht
    rw [hstate]
    exact hinv.only e t ht

/-- On the states that are clear, the ready queues still fit. -/
lemma Boosted.readyInv (h : Boosted dest s s') (hinv : ReadyInv s)
    (hclear : Clear msgInfo s dest) : ReadyInv s' := by
  constructor
  · intro t hrun hne haction
    rw [h.cur] at hne
    rw [h.action] at haction
    rw [h.readyQueue]
    by_cases hcur : t = s.ksCurThread
    · rw [hcur, ThreadState.runnable, h.cur_state hclear.dest_ne.symm] at hrun
      cases hrun
    · rw [h.others t hne hcur] at hrun
      exact hinv.queued t hrun hcur haction
  · intro q t ht
    rw [h.readyQueue] at ht
    obtain ⟨hblocked, hcur⟩ := hinv.only q t ht
    have hdest : t ≠ dest := fun heq => hclear.dest_queue q (heq ▸ ht)
    rw [h.others t hdest hcur, h.cur]
    exact ⟨hblocked, hdest⟩

/-- On the states that are clear, the reply caps still fit. -/
lemma Boosted.replyInv (h : Boosted dest s s') (hinv : ReplyInv s)
    (hclear : Clear msgInfo s dest) : ReplyInv s' := by
  obtain ⟨canGrant, hcspace⟩ := h.cspace
  constructor
  · intro p canGrant' t hcap
    rw [hcspace, cap_insertReplyCap] at hcap
    rw [hcspace, next_insertReplyCap, prev_insertReplyCap]
    split_ifs at hcap with hp
    · obtain ⟨-, -, rfl⟩ := Cap.reply.inj hcap
      rw [if_pos rfl, if_pos hp, hp]
      exact ⟨h.cur_state hclear.dest_ne.symm, rfl, rfl⟩
    · obtain ⟨hdest, hcur⟩ := hclear.others p canGrant' t hp hcap
      rw [h.others t hdest hcur, if_neg hcur, if_neg hp]
      exact hinv.caller p canGrant' t hcap
  · intro t p hnext
    rw [hcspace, next_insertReplyCap] at hnext
    rw [hcspace, cap_insertReplyCap]
    split_ifs at hnext with hcur
    · obtain rfl := Option.some.inj hnext
      exact ⟨canGrant, by rw [if_pos rfl, hcur]⟩
    · obtain ⟨canGrant', hcap⟩ := hinv.linked t p hnext
      have hp : p ≠ ⟨dest, tcbCaller⟩ := fun heq =>
        hcur (hclear.caller canGrant' t (heq ▸ hcap))
      exact ⟨canGrant', by rw [if_neg hp, hcap]⟩

/-- Where the invariants are kept, the state was clear. -/
lemma Boosted.clear (h : Boosted dest s s') (hinv : Invariants s) (hinv' : Invariants s')
    (hlength : msgRegister0 + messageLength msgInfo ≤ nContextRegisters) :
    Clear msgInfo s dest := by
  obtain ⟨canGrant, hcspace⟩ := h.cspace
  have hcaller : (s'.cspace ⟨dest, tcbCaller⟩).cap = .reply canGrant false s.ksCurThread := by
    rw [hcspace, cap_insertReplyCap, if_pos rfl]
  have hcur := (hinv'.reply.caller _ _ _ hcaller).1
  have hne : dest ≠ s.ksCurThread := by
    intro heq
    rw [← heq, h.dest_state] at hcur
    cases hcur
  -- the queues are as before, so a thread that waits nowhere now did not wait before
  have hunqueued : ∀ t, (s'.stateOf t).endpoint? = none → (s.stateOf t).endpoint? = none := by
    intro t ht
    cases hep : (s.stateOf t).endpoint? with
    | none => rfl
    | some e =>
        have hmem : t ∈ s'.epQueue e := by
          rw [h.epQueue]
          exact List.count_pos_iff.mp (by rw [hinv.endpoint.once t e hep]; exact Nat.one_pos)
        rw [hinv'.endpoint.only e t hmem] at ht
        cases ht
  refine ⟨hlength, hne, hunqueued _ (ThreadState.endpoint?_of_running h.dest_state),
    hunqueued _ (ThreadState.endpoint?_of_blockedOnReply hcur), ?_, ?_, ?_⟩
  · intro q hmem
    rw [← h.readyQueue] at hmem
    exact (hinv'.ready.only q dest hmem).2 h.cur.symm
  · intro p canGrant' t hp hcap
    have hcap' : (s'.cspace p).cap = .reply canGrant' false t := by
      rw [hcspace, cap_insertReplyCap, if_neg hp, hcap]
    obtain ⟨hstate, hnext, -⟩ := hinv'.reply.caller p canGrant' t hcap'
    constructor
    · rintro rfl
      rw [h.dest_state] at hstate
      cases hstate
    · rintro rfl
      rw [hcspace, next_insertReplyCap, if_pos rfl] at hnext
      exact hp (Option.some.inj hnext).symm
  · intro canGrant' t hcap
    by_contra htcur
    -- the reply cap of another caller would still be linked to the slot, which holds a new one
    have hnext := (hinv.reply.caller _ _ _ hcap).2.1
    have hnext' : (s'.cspace.node ⟨t, tcbReply⟩).mdbNext = some ⟨dest, tcbCaller⟩ := by
      rw [hcspace, next_insertReplyCap, if_neg htcur, hnext]
    obtain ⟨canGrant'', hcap'⟩ := hinv'.reply.linked _ _ hnext'
    rw [hcaller] at hcap'
    exact htcur (Cap.reply.inj hcap').2.2.symm

end Kept

/-- **CallBoost and the invariants**: for every port that is registered, the fast path ends
in a state with the invariants exactly if it takes the slow path, or the state was clear for
the server. -/
theorem callBoost_invariants (msgInfo : ℕ) (s : KernelState) (item : IpcServerItem) (dest : ℕ)
    (hinv : Invariants s) (hitem : serverItem s (portOf s) = some item)
    (hdest : item.serverThread = some dest) :
    (∃ o, fastpathCallBoost msgInfo s = some o ∧ Invariants o.state) ↔
      (AsidValid s dest → Clear msgInfo s dest) := by
  have hrun : fastpathCallBoost msgInfo s =
      if ¬ AsidValid s dest then some (.slowpath s)
      else if nContextRegisters < msgRegister0 + messageLength msgInfo then none
      else some (.restored 1 (clearCapsUnwrapped msgInfo)
        (commitCallBoost (messageLength msgInfo) dest item s)) := by
    simp only [fastpathCallBoost, hitem, hdest]
  have hboosted := callBoost_state (s := s) (messageLength msgInfo) dest item
  rw [hrun]
  by_cases hasid : AsidValid s dest
  · rw [if_neg (not_not.mpr hasid)]
    constructor
    · rintro ⟨o, ho, hafter⟩ -
      split_ifs at ho with hlength
      obtain rfl := Option.some.inj ho
      exact hboosted.clear hinv hafter (by omega)
    · intro hclear
      have hclear := hclear hasid
      rw [if_neg (by have := hclear.length; omega)]
      exact ⟨_, rfl, hboosted.endpointInv hinv.endpoint hclear,
        hboosted.readyInv hinv.ready hclear, hboosted.replyInv hinv.reply hclear⟩
  · rw [if_pos hasid]
    exact ⟨fun _ hvalid => absurd hvalid hasid, fun _ => ⟨_, rfl, hinv⟩⟩

/-- Thread 1 calls port 10, at which thread 2 is registered; the state of thread 2 and the
queue of endpoint 100 are given. -/
def portState (server : ThreadState) (queue : List ℕ) : KernelState where
  ksCurThread := 1
  ksSchedulerAction := .resumeCurrentThread
  tcb t :=
    { tcbState :=
        if t = 1 then ⟨.running, 0, false⟩ else if t = 2 then server else ⟨.inactive, 0, false⟩
      registers := fun reg => if t = 1 ∧ reg = 5 then 10 else 0 }
  cspace p :=
    if p = ⟨1, tcbReply⟩ then ⟨.reply true true 1, none, none, true, true⟩
    else if p = ⟨2, tcbVTable⟩ then ⟨.vspace 1 0x8000 true, nullMDBNode⟩
    else ⟨.null, nullMDBNode⟩
  epQueue e := if e = 100 then queue else []
  readyQueue _ := []
  asidMap asid := if asid = 1 then some 0x8000 else none
  ipcServerList port := if port = 10 then ⟨some 2, 0x400000, 0x500000⟩ else ⟨none, 0, 0⟩
  ipcServerListTop := 11

lemma item_portState {server : ThreadState} {queue : List ℕ} :
    serverItem (portState server queue) (portOf (portState server queue)) =
      some ⟨some 2, 0x400000, 0x500000⟩ := by
  have hport : portOf (portState server queue) = 10 := by
    simp [portOf, KernelState.getRegister, portState]
  rw [hport]
  simp [serverItem, serverPortNum, portState]

lemma caller_portState {server : ThreadState} {queue : List ℕ} {p : CtePtr} {canGrant : Bool}
    {t : ℕ} : ((portState server queue).cspace p).cap ≠ .reply canGrant false t := by
  simp only [portState]
  split_ifs <;> simp

lemma invariants_portState {server : ThreadState} {queue : List ℕ}
    (hrun : server.runnable = false)
    (hqueue : ∀ e, (if e = 100 then queue else []).count 2 =
      if server.endpoint? = some e then 1 else 0)
    (honly : ∀ t ∈ queue, t = 2) : Invariants (portState server queue) := by
  have hstate : ∀ t, (portState server queue).stateOf t =
      if t = 1 then ⟨.running, 0, false⟩ else if t = 2 then server else ⟨.inactive, 0, false⟩ :=
    fun _ => rfl
  refine ⟨⟨?_, ?_⟩, ⟨?_, ?_⟩, ⟨?_, ?_⟩⟩
  · intro t e ht
    rw [hstate] at ht
    split_ifs at ht with h1 h2
    · cases ht
    · subst h2
      exact (hqueue e).trans (if_pos ht)
    · cases ht
  · intro e t ht
    change t ∈ (if e = 100 then queue else []) at ht
    have h2 : t = 2 := by
      split_ifs at ht
      · exact honly t ht
      · cases ht
    subst h2
    have hpos := List.count_pos_iff.mpr ht
    rw [hqueue e] at hpos
    split_ifs at hpos with hep
    · exact hep
    · exact absurd hpos (Nat.lt_irrefl 0)
  · intro t ht hne
    rw [hstate] at ht
    split_ifs at ht with h1 h2
    · exact absurd h1 hne
    · rw [hrun] at ht
      cases ht
    · cases ht
  · intro q t ht
    cases ht
  · exact fun p canGrant t hcap => absurd hcap caller_portState
  · intro t p hnext
    refine absurd hnext ?_
    simp only [portState, CSpace.node]
    split_ifs <;> simp [nullMDBNode]

/-- A server that is not started is clear for the call. -/
theorem callBoost_invariants_inactive :
    ∃ o, fastpathCallBoost 0x1002 (portState ⟨.inactive, 0, false⟩ []) = some o ∧
      Invariants o.state := by
  refine (callBoost_invariants 0x1002 _ ⟨some 2, 0x400000, 0x500000⟩ 2
    (invariants_portState rfl ?_ ?_) item_portState rfl).mpr fun _ => ?_
  · intro e
    split_ifs with _ hep
    · cases hep
    · rfl
    · cases ‹_ = some e›
    · rfl
  · intro t ht
    cases ht
  · exact
      { length := by decide
        dest_ne := by decide
        dest_endpoint := rfl
        cur_endpoint := rfl
        dest_queue := fun _ h => by cases h
        others := fun _ _ _ _ hcap => absurd hcap caller_portState
        caller := fun _ _ hcap => absurd hcap caller_portState }

/-- **A server that waits on an endpoint**: the fast path sets it running and leaves it in
the queue of the endpoint. -/
theorem callBoost_leaves_queue :
    ¬ ∀ (msgInfo : ℕ) (s : KernelState) (item : IpcServerItem) (dest : ℕ), Invariants s →
      serverItem s (portOf s) = some item → item.serverThread = some dest →
      ∃ o, fastpathCallBoost msgInfo s = some o ∧ Invariants o.state := by
  intro hkept
  let s := portState ⟨.blockedOnReceive, 100, true⟩ [2]
  have hinv : Invariants s := by
    refine invariants_portState rfl (fun e => ?_) (fun t ht => List.mem_singleton.mp ht)
    by_cases he : e = 100
    · subst he
      rfl
    · have hep : (some 100 : Option ℕ) ≠ some e := fun h => he (Option.some.inj h).symm
      rw [if_neg he]
      exact (if_neg hep).symm
  obtain ⟨o, ho, hafter⟩ := hkept 0x1002 s ⟨some 2, 0x400000, 0x500000⟩ 2 hinv item_portState rfl
  have hrun : fastpathCallBoost 0x1002 s =
      some (.restored 1 0x1002 (commitCallBoost 2 2 ⟨some 2, 0x400000, 0x500000⟩ s)) := by
    rw [fastpathCallBoost, item_portState]
    rfl
  rw [hrun] at ho
  obtain rfl := Option.some.inj ho
  have hclear : Clear 0x1002 s 2 := (callBoost_state 2 2 _).clear hinv hafter (by decide)
  exact absurd hclear.dest_endpoint (by decide)

end Kernel
