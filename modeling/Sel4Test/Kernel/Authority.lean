import Sel4Test.Kernel.Lookup

/-!
Copies, moves and transfers of caps, and the authority they can pass on:
`decodeCNodeInvocation` of `object/cnode.c`, `deriveCap` of `object/objecttype.c` and
`transferCaps` of `kernel/thread.c`.

`Weaker c c'` is the order of authority: both are for the same object, of the same size, `c`
has no right that `c'` lacks, and a badge of `c'` other than zero is that of `c`.

* `maskCapRights_weaker`, `updateCapData_weaker`, `deriveCap_spec`: the three functions that
  make a new cap only go down in this order, and `deriveCap` refuses what may not be copied.
* `decodeCNodeInvocation_spec`, `transferCaps_spec`: what an invocation and a message lead to.
* `no_amplification`: every cap at the end of a run is weaker than one at its start, and
  only caps that may be copied are.
-/

namespace Kernel

/-! ### The order of authority -/

/-- The rights of a frame, from none to reading and writing. -/
inductive VmRights.Le : VmRights → VmRights → Prop
  | refl (r : VmRights) : Le r r
  | kernelOnly (r : VmRights) : Le .kernelOnly r
  | readOnly : Le .readOnly .readWrite

lemma VmRights.Le.trans {a b c : VmRights} (hab : a.Le b) (hbc : b.Le c) : a.Le c := by
  cases hab with
  | refl => exact hbc
  | kernelOnly => exact .kernelOnly c
  | readOnly =>
      cases hbc
      exact .readOnly

/-- The first cap gives no more authority than the second. The guard of a CNode, the place
where a frame is mapped and the free index of an untyped are no authority. -/
inductive Weaker : Cap → Cap → Prop
  | same (c : Cap) : Weaker c c
  | untyped {index index' isDevice bits ptr} :
      Weaker (.untyped index isDevice bits ptr) (.untyped index' isDevice bits ptr)
  | endpoint {badge badge' ptr} {grantReply grant send receive : Bool}
      {grantReply' grant' send' receive' : Bool} (hbadge : badge' ≠ 0 → badge = badge')
      (hgrantReply : grantReply ≤ grantReply') (hgrant : grant ≤ grant') (hsend : send ≤ send')
      (hreceive : receive ≤ receive') :
      Weaker (.endpoint badge grantReply grant send receive ptr)
        (.endpoint badge' grantReply' grant' send' receive' ptr)
  | notification {badge badge' ptr} {receive send receive' send' : Bool}
      (hbadge : badge' ≠ 0 → badge = badge') (hreceive : receive ≤ receive')
      (hsend : send ≤ send') :
      Weaker (.notification badge receive send ptr) (.notification badge' receive' send' ptr)
  | reply {master tcb} {grant grant' : Bool} (hgrant : grant ≤ grant') :
      Weaker (.reply grant master tcb) (.reply grant' master tcb)
  | cnode {radix guardSize guardSize' guard guard' ptr} :
      Weaker (.cnode radix guardSize guard ptr) (.cnode radix guardSize' guard' ptr)
  | frame {asid asid' base size addr addr' isDevice} {rights rights' : VmRights}
      (hrights : rights.Le rights') :
      Weaker (.frame asid base size addr rights isDevice)
        (.frame asid' base size addr' rights' isDevice)

lemma Weaker.trans {a b c : Cap} (hab : Weaker a b) (hbc : Weaker b c) : Weaker a c := by
  cases hab with
  | same => exact hbc
  | untyped =>
      cases hbc
      all_goals exact .untyped
  | endpoint hbadge hgrantReply hgrant hsend hreceive =>
      cases hbc with
      | same => exact .endpoint hbadge hgrantReply hgrant hsend hreceive
      | endpoint hbadge' hgrantReply' hgrant' hsend' hreceive' =>
          refine .endpoint (fun hne => ?_) (hgrantReply.trans hgrantReply') (hgrant.trans hgrant')
            (hsend.trans hsend') (hreceive.trans hreceive')
          obtain rfl := hbadge' hne
          exact hbadge hne
  | notification hbadge hreceive hsend =>
      cases hbc with
      | same => exact .notification hbadge hreceive hsend
      | notification hbadge' hreceive' hsend' =>
          refine .notification (fun hne => ?_) (hreceive.trans hreceive') (hsend.trans hsend')
          obtain rfl := hbadge' hne
          exact hbadge hne
  | reply hgrant =>
      cases hbc with
      | same => exact .reply hgrant
      | reply hgrant' => exact .reply (hgrant.trans hgrant')
  | cnode =>
      cases hbc
      all_goals exact .cnode
  | frame hrights =>
      cases hbc with
      | same => exact .frame hrights
      | frame hrights' => exact .frame (hrights.trans hrights')

/-- A weaker cap is no null cap. -/
lemma Weaker.ne_null {a b : Cap} (h : Weaker a b) (ha : a ≠ .null) : b ≠ .null := by
  cases h with
  | same => exact ha
  | _ => exact nofun

/-! ### New caps -/

lemma maskVMRights_le (r : VmRights) (mask : CapRights) : (Cap.maskVMRights r mask).Le r := by
  cases r <;> cases hr : mask.capAllowRead <;> cases hw : mask.capAllowWrite <;>
    simp [Cap.maskVMRights, hr, hw, VmRights.Le.refl, VmRights.Le.kernelOnly, VmRights.Le.readOnly]

/-- Masking takes rights away. -/
lemma maskCapRights_weaker (rights : CapRights) (cap : Cap) :
    Weaker (Cap.maskCapRights rights cap) cap := by
  cases cap with
  | endpoint =>
      exact .endpoint (fun _ => rfl) (Bool.and_le_left _ _) (Bool.and_le_left _ _)
        (Bool.and_le_left _ _) (Bool.and_le_left _ _)
  | notification =>
      exact .notification (fun _ => rfl) (Bool.and_le_left _ _) (Bool.and_le_left _ _)
  | reply => exact .reply (Bool.and_le_left _ _)
  | frame => exact .frame (maskVMRights_le _ _)
  | _ => exact .same _

/-- New data are a badge where there was none, or a guard. -/
lemma updateCapData_weaker (preserve : Bool) (newData : ℕ) (cap : Cap)
    (hne : Cap.updateCapData preserve newData cap ≠ .null) :
    Weaker (Cap.updateCapData preserve newData cap) cap := by
  cases cap with
  | endpoint badge =>
      simp only [Cap.updateCapData] at hne ⊢
      split_ifs at hne ⊢ with h
      · exact .endpoint (fun hbadge => absurd h.2 hbadge) le_rfl le_rfl le_rfl le_rfl
      · exact absurd rfl hne
  | notification badge =>
      simp only [Cap.updateCapData] at hne ⊢
      split_ifs at hne ⊢ with h
      · exact .notification (fun hbadge => absurd h.2 hbadge) le_rfl le_rfl
      · exact absurd rfl hne
  | cnode =>
      simp only [Cap.updateCapData] at hne ⊢
      split_ifs at hne ⊢ with h
      · exact absurd rfl hne
      · exact .cnode
  | _ => exact .same _

/-- `Arch_deriveCap`. -/
def archDeriveCap (cap : Cap) : Except SyscallError Cap :=
  match cap with
  | .vspace _ _ isMapped => if isMapped then .ok cap else .error .illegalOperation
  | .pageTable _ _ isMapped _ => if isMapped then .ok cap else .error .illegalOperation
  | .frame _ base size addr rights isDevice => .ok (.frame 0 base size addr rights isDevice)
  | cap => .ok cap

/-- `deriveCap`. -/
def deriveCap (slot : CtePtr) (cap : Cap) (s : CSpace) : Except SyscallError Cap :=
  if cap.isArchCap then archDeriveCap cap
  else
    match cap with
    | .zombie .. | .irqControl | .reply .. => .ok .null
    | .untyped .. =>
        match ensureNoChildren slot s with
        | .error e => .error e
        | .ok () => .ok cap
    | cap => .ok cap

/-- What may be copied from a slot: no zombie, no interrupt control, no reply, and an
untyped only without children. -/
def Copyable (slot : CtePtr) (s : CSpace) : Cap → Prop
  | .null | .zombie .. | .irqControl | .reply .. => False
  | .untyped .. => ¬ HasChild slot s
  | _ => True

/-- Being copyable is a matter of the kind of cap. -/
lemma Weaker.copyable {slot : CtePtr} {s : CSpace} {a b : Cap} (h : Weaker a b)
    (ha : Copyable slot s a) : Copyable slot s b := by
  cases h with
  | same => exact ha
  | untyped => exact ha
  | reply => exact ha
  | _ => trivial

/-- `deriveCap`, if it returns a cap. -/
lemma deriveCap_spec {slot : CtePtr} {cap newCap : Cap} {s : CSpace}
    (h : deriveCap slot cap s = .ok newCap) (hne : newCap ≠ .null) :
    Weaker newCap cap ∧ Copyable slot s cap := by
  cases cap with
  | null =>
      cases h
      exact absurd rfl hne
  | untyped index isDevice bits ptr =>
      simp only [deriveCap, Cap.isArchCap, Bool.false_eq_true, if_false] at h
      split at h
      · cases h
      · rename_i hnone
        cases h
        exact ⟨.same _, ensureNoChildren_eq_ok.mp hnone⟩
  | reply | zombie | irqControl =>
      cases h
      exact absurd rfl hne
  | vspace | pageTable =>
      simp only [deriveCap, Cap.isArchCap, if_true, archDeriveCap] at h
      split_ifs at h
      cases h
      exact ⟨.same _, trivial⟩
  | frame =>
      cases h
      exact ⟨.frame (.refl _), trivial⟩
  | _ =>
      cases h
      exact ⟨.same _, trivial⟩

/-! ### Invocations of a CNode -/

/-- The labels of a CNode, `CNodeRevoke` to `CNodeSaveCaller`, and all others. -/
inductive InvocationLabel
  | CNodeRevoke
  | CNodeDelete
  | CNodeCancelBadgedSends
  | CNodeCopy
  | CNodeMint
  | CNodeMove
  | CNodeMutate
  | CNodeRotate
  | CNodeSaveCaller
  | other
  deriving DecidableEq, Repr

/-- An invocation: the label, the length of the message, the cap, the words of the message
and the slots of the extra caps. -/
structure CNodeCall where
  invLabel : InvocationLabel
  length : ℕ
  cap : Cap
  arg : ℕ → ℕ
  excaprefs : List CtePtr

/-- What `decodeCNodeInvocation` calls at its end. -/
inductive CNodeInvocation
  | revoke (destSlot : CtePtr)
  | delete (destSlot : CtePtr)
  | cancelBadgedSends (cap : Cap)
  | insert (cap : Cap) (srcSlot destSlot : CtePtr)
  | move (cap : Cap) (srcSlot destSlot : CtePtr)
  | rotate (cap1 cap2 : Cap) (slot1 slot2 slot3 : CtePtr)
  | saveCaller (destSlot : CtePtr)

/-- `hasCancelSendRights`. -/
def hasCancelSendRights : Cap → Bool
  | .endpoint _ grantReply grant send receive _ => send && receive && grantReply && grant
  | _ => false

/-- The switch over Copy, Mint, Move and Mutate: the new cap, and whether it is moved. -/
def decodeNewCap (call : CNodeCall) (srcSlot : CtePtr) (s : CSpace) :
    Except SyscallError (Cap × Bool) :=
  match call.invLabel with
  | .CNodeCopy => do
      failIf (call.length < 5) .truncatedMessage
      let srcCap := Cap.maskCapRights (rightsFromWord (call.arg 4)) (s srcSlot).cap
      let newCap ← deriveCap srcSlot srcCap s
      pure (newCap, false)
  | .CNodeMint => do
      failIf (call.length < 6) .truncatedMessage
      let srcCap := Cap.maskCapRights (rightsFromWord (call.arg 4)) (s srcSlot).cap
      let newCap ← deriveCap srcSlot (Cap.updateCapData false (call.arg 5) srcCap) s
      pure (newCap, false)
  | .CNodeMove => pure ((s srcSlot).cap, true)
  | _ => do
      failIf (call.length < 5) .truncatedMessage
      pure (Cap.updateCapData true (call.arg 4) (s srcSlot).cap, true)

/-- Copy, Mint, Move and Mutate. -/
def decodeCopyOrMove (call : CNodeCall) (destSlot : CtePtr) (s : CSpace) :
    Except SyscallError CNodeInvocation :=
  match call.excaprefs with
  | [] => throw .truncatedMessage
  | srcRootSlot :: _ => do
      failIf (call.length < 4) .truncatedMessage
      ensureEmptySlot destSlot s
      let srcSlot ← lookupSourceSlot s (s srcRootSlot).cap (call.arg 2) (call.arg 3)
      failIf ((s srcSlot).cap = .null) (.failedLookup true (.missingCapability (call.arg 3)))
      let (newCap, isMove) ← decodeNewCap call srcSlot s
      failIf (newCap = .null) .illegalOperation
      if isMove then pure (.move newCap srcSlot destSlot)
      else pure (.insert newCap srcSlot destSlot)

/-- Rotate. -/
def decodeRotate (call : CNodeCall) (destSlot : CtePtr) (s : CSpace) :
    Except SyscallError CNodeInvocation :=
  match call.excaprefs with
  | pivotRootSlot :: srcRootSlot :: _ => do
      failIf (call.length < 8) .truncatedMessage
      let srcSlot ← lookupSourceSlot s (s srcRootSlot).cap (call.arg 6) (call.arg 7)
      let pivotSlot ← lookupPivotSlot s (s pivotRootSlot).cap (call.arg 3) (call.arg 4)
      failIf (pivotSlot = srcSlot ∨ pivotSlot = destSlot) .illegalOperation
      (if srcSlot ≠ destSlot then ensureEmptySlot destSlot s else pure ())
      failIf ((s srcSlot).cap = .null) (.failedLookup true (.missingCapability (call.arg 7)))
      failIf ((s pivotSlot).cap = .null) (.failedLookup false (.missingCapability (call.arg 4)))
      let newSrcCap := Cap.updateCapData true (call.arg 5) (s srcSlot).cap
      let newPivotCap := Cap.updateCapData true (call.arg 2) (s pivotSlot).cap
      failIf (newSrcCap = .null) .illegalOperation
      failIf (newPivotCap = .null) .illegalOperation
      pure (.rotate newSrcCap newPivotCap srcSlot pivotSlot destSlot)
  | _ => throw .truncatedMessage

/-- `decodeCNodeInvocation`. -/
def decodeCNodeInvocation (call : CNodeCall) (s : CSpace) :
    Except SyscallError CNodeInvocation := do
  failIf (call.invLabel = .other) .illegalOperation
  failIf (call.length < 2) .truncatedMessage
  let destSlot ← lookupTargetSlot s call.cap (call.arg 0) (call.arg 1)
  match call.invLabel with
  | .CNodeCopy | .CNodeMint | .CNodeMove | .CNodeMutate => decodeCopyOrMove call destSlot s
  | .CNodeRevoke => pure (.revoke destSlot)
  | .CNodeDelete => pure (.delete destSlot)
  | .CNodeSaveCaller => do
      ensureEmptySlot destSlot s
      pure (.saveCaller destSlot)
  | .CNodeCancelBadgedSends => do
      let destCap := (s destSlot).cap
      failIf (!hasCancelSendRights destCap) .illegalOperation
      pure (.cancelBadgedSends destCap)
  | _ => decodeRotate call destSlot s

/-- `invokeCNodeRotate`. -/
def invokeCNodeRotate (cap1 cap2 : Cap) (slot1 slot2 slot3 : CtePtr) (s : CSpace) : CSpace :=
  if slot1 = slot3 then cteSwap cap1 slot1 cap2 slot2 s
  else cteMove cap1 slot1 slot2 (cteMove cap2 slot2 slot3 s)

/-! ### Transfers -/

/-- `seL4_MsgMaxExtraCaps`. -/
def msgMaxExtraCaps : ℕ := 3

/-- A message with extra caps: the endpoint it is sent on, the slots of the caps, the
receiver, and the three words of `cap_transfer_t` in its buffer, if it has one. -/
structure CapMessage where
  endpoint : Option ℕ
  excaprefs : List CtePtr
  receiver : ℕ
  receiveBuffer : Option (ℕ × ℕ × ℕ)

/-- What the receiver is told, and the slots. -/
structure TransferResult where
  extraCaps : ℕ
  capsUnwrapped : ℕ
  extraBadges : List (ℕ × ℕ)
  cspace : CSpace

/-- `getReceiveSlots`. -/
def getReceiveSlots (receiver : ℕ) (receiveBuffer : Option (ℕ × ℕ × ℕ)) (s : CSpace) :
    Option CtePtr :=
  match receiveBuffer with
  | none => none
  | some (ctReceiveRoot, ctReceiveIndex, ctReceiveDepth) =>
      match lookupCap s receiver ctReceiveRoot with
      | .error _ => none
      | .ok cnode =>
          match lookupTargetSlot s cnode ctReceiveIndex ctReceiveDepth with
          | .error _ => none
          | .ok slot => if (s slot).cap ≠ .null then none else some slot

/-- The loop of `transferCaps` from the extra cap `i` on. -/
def transferLoop (endpoint : Option ℕ) :
    List CtePtr → ℕ → Option CtePtr → TransferResult → TransferResult
  | [], i, _, r => { r with extraCaps := i }
  | slot :: slots, i, destSlot, r =>
      let unwrap :=
        match (r.cspace slot).cap with
        | .endpoint badge _ _ _ _ ptr => if endpoint = some ptr then some badge else none
        | _ => none
      match unwrap with
      | some badge =>
          transferLoop endpoint slots (i + 1) destSlot
            { r with
              capsUnwrapped := r.capsUnwrapped ||| 2 ^ i
              extraBadges := r.extraBadges ++ [(i, badge)] }
      | none =>
          match destSlot with
          | none => { r with extraCaps := i }
          | some dest =>
              match deriveCap slot (r.cspace slot).cap r.cspace with
              | .error _ => { r with extraCaps := i }
              | .ok newCap =>
                  if newCap = .null then { r with extraCaps := i }
                  else
                    transferLoop endpoint slots (i + 1) none
                      { r with cspace := cteInsert newCap slot dest r.cspace }

/-- `transferCaps`. -/
def transferCaps (m : CapMessage) (s : CSpace) : TransferResult :=
  if m.excaprefs = [] ∨ m.receiveBuffer = none then ⟨0, 0, [], s⟩
  else
    transferLoop m.endpoint (m.excaprefs.take msgMaxExtraCaps) 0
      (getReceiveSlots m.receiver m.receiveBuffer s) ⟨0, 0, [], s⟩

/-! ### What they lead to -/

/-- A copy of a cap that may be copied, into an empty slot. -/
def Copies (s s' : CSpace) : Prop :=
  ∃ newCap srcSlot destSlot, newCap ≠ .null ∧ (s destSlot).cap = .null ∧
    Weaker newCap (s srcSlot).cap ∧ Copyable srcSlot s (s srcSlot).cap ∧
    s' = cteInsert newCap srcSlot destSlot s

section Decode

variable {s s' : CSpace} {call : CNodeCall} {inv : CNodeInvocation} {srcSlot destSlot : CtePtr}

/-- The new cap of Copy and Mint, and that of Move and Mutate. -/
lemma decodeNewCap_spec {newCap : Cap} {isMove : Bool}
    (h : decodeNewCap call srcSlot s = .ok (newCap, isMove)) (hne : newCap ≠ .null) :
    Weaker newCap (s srcSlot).cap ∧
      (isMove = false ∧ Copyable srcSlot s (s srcSlot).cap ∨
        isMove = true ∧ call.invLabel ≠ .CNodeCopy ∧ call.invLabel ≠ .CNodeMint) := by
  have hmask := maskCapRights_weaker (rightsFromWord (call.arg 4)) (s srcSlot).cap
  unfold decodeNewCap at h
  split at h
  · obtain ⟨-, h⟩ := failIf_bind_eq_ok h
    obtain ⟨cap, hderive, h⟩ := bind_eq_ok h
    cases h
    obtain ⟨hweaker, hcopy⟩ := deriveCap_spec hderive hne
    exact ⟨hweaker.trans hmask, .inl ⟨rfl, hmask.copyable hcopy⟩⟩
  · obtain ⟨-, h⟩ := failIf_bind_eq_ok h
    obtain ⟨cap, hderive, h⟩ := bind_eq_ok h
    cases h
    obtain ⟨hweaker, hcopy⟩ := deriveCap_spec hderive hne
    have hdata := updateCapData_weaker false (call.arg 5) _ (hweaker.ne_null hne)
    exact ⟨(hweaker.trans hdata).trans hmask, .inl ⟨rfl, hmask.copyable (hdata.copyable hcopy)⟩⟩
  · rename_i hlabel
    cases h
    rw [hlabel]
    exact ⟨.same _, .inr ⟨rfl, nofun, nofun⟩⟩
  · rename_i hcopy hmint _
    obtain ⟨-, h⟩ := failIf_bind_eq_ok h
    cases h
    exact ⟨updateCapData_weaker true _ _ hne, .inr ⟨rfl, hcopy, hmint⟩⟩

/-- What Copy, Mint, Move and Mutate lead to. -/
lemma decodeCopyOrMove_spec (h : decodeCopyOrMove call destSlot s = .ok inv) :
    ∃ newCap srcSlot, newCap ≠ .null ∧ (s destSlot).cap = .null ∧
      Weaker newCap (s srcSlot).cap ∧
      (inv = .insert newCap srcSlot destSlot ∧ Copyable srcSlot s (s srcSlot).cap ∨
        inv = .move newCap srcSlot destSlot ∧ call.invLabel ≠ .CNodeCopy ∧
          call.invLabel ≠ .CNodeMint) := by
  unfold decodeCopyOrMove at h
  split at h
  · cases h
  · obtain ⟨-, h⟩ := failIf_bind_eq_ok h
    obtain ⟨_, hempty, h⟩ := bind_eq_ok h
    obtain ⟨srcSlot, -, h⟩ := bind_eq_ok h
    obtain ⟨-, h⟩ := failIf_bind_eq_ok h
    obtain ⟨⟨newCap, isMove⟩, hnew, h⟩ := bind_eq_ok h
    obtain ⟨hne, h⟩ := failIf_bind_eq_ok h
    obtain ⟨hweaker, hkind⟩ := decodeNewCap_spec hnew hne
    refine ⟨newCap, srcSlot, hne, ensureEmptySlot_eq_ok.mp hempty, hweaker, ?_⟩
    rcases hkind with ⟨rfl, hcopy⟩ | ⟨rfl, hlabel⟩
    · cases h
      exact .inl ⟨rfl, hcopy⟩
    · cases h
      exact .inr ⟨rfl, hlabel⟩

/-- What Rotate leads to. -/
lemma decodeRotate_spec (h : decodeRotate call destSlot s = .ok inv) :
    ∃ cap1 cap2 slot1 slot2, inv = .rotate cap1 cap2 slot1 slot2 destSlot ∧ slot2 ≠ slot1 ∧
      Weaker cap1 (s slot1).cap ∧ Weaker cap2 (s slot2).cap := by
  unfold decodeRotate at h
  split at h
  · obtain ⟨-, h⟩ := failIf_bind_eq_ok h
    obtain ⟨slot1, -, h⟩ := bind_eq_ok h
    obtain ⟨slot2, -, h⟩ := bind_eq_ok h
    obtain ⟨hpivot, h⟩ := failIf_bind_eq_ok h
    obtain ⟨_, -, h⟩ := bind_eq_ok h
    obtain ⟨-, h⟩ := failIf_bind_eq_ok h
    obtain ⟨-, h⟩ := failIf_bind_eq_ok h
    obtain ⟨hcap1, h⟩ := failIf_bind_eq_ok h
    obtain ⟨hcap2, h⟩ := failIf_bind_eq_ok h
    cases h
    exact ⟨_, _, slot1, slot2, rfl, fun heq => hpivot (.inl heq),
      updateCapData_weaker true _ _ hcap1, updateCapData_weaker true _ _ hcap2⟩
  · cases h

/-- The invocations that the decoding may lead to; Copy and Mint lead to nothing but a
copy. -/
inductive Leads (call : CNodeCall) (s : CSpace) : CNodeInvocation → Prop
  | insert {newCap srcSlot destSlot} (hne : newCap ≠ .null) (hempty : (s destSlot).cap = .null)
      (hweaker : Weaker newCap (s srcSlot).cap) (hcopy : Copyable srcSlot s (s srcSlot).cap) :
      Leads call s (.insert newCap srcSlot destSlot)
  | move {newCap srcSlot destSlot} (hweaker : Weaker newCap (s srcSlot).cap)
      (hlabel : call.invLabel ≠ .CNodeCopy ∧ call.invLabel ≠ .CNodeMint) :
      Leads call s (.move newCap srcSlot destSlot)
  | rotate {cap1 cap2 slot1 slot2 slot3} (hne : slot2 ≠ slot1)
      (hweaker1 : Weaker cap1 (s slot1).cap) (hweaker2 : Weaker cap2 (s slot2).cap)
      (hlabel : call.invLabel ≠ .CNodeCopy ∧ call.invLabel ≠ .CNodeMint) :
      Leads call s (.rotate cap1 cap2 slot1 slot2 slot3)
  | revoke {slot} : Leads call s (.revoke slot)
  | delete {slot} : Leads call s (.delete slot)
  | saveCaller {slot} : Leads call s (.saveCaller slot)
  | cancelBadgedSends {cap} : Leads call s (.cancelBadgedSends cap)

lemma decodeCNodeInvocation_spec (h : decodeCNodeInvocation call s = .ok inv) :
    Leads call s inv := by
  unfold decodeCNodeInvocation at h
  obtain ⟨-, h⟩ := failIf_bind_eq_ok h
  obtain ⟨-, h⟩ := failIf_bind_eq_ok h
  obtain ⟨destSlot, -, h⟩ := bind_eq_ok h
  have hmoves : decodeCopyOrMove call destSlot s = .ok inv → Leads call s inv := by
    intro h
    obtain ⟨newCap, srcSlot, hne, hempty, hweaker, ⟨rfl, hcopy⟩ | ⟨rfl, hlabel⟩⟩ :=
      decodeCopyOrMove_spec h
    · exact .insert hne hempty hweaker hcopy
    · exact .move hweaker hlabel
  split at h
  · exact hmoves h
  · exact hmoves h
  · exact hmoves h
  · exact hmoves h
  · cases h
    exact .revoke
  · cases h
    exact .delete
  · obtain ⟨_, -, h⟩ := bind_eq_ok h
    cases h
    exact .saveCaller
  · obtain ⟨-, h⟩ := failIf_bind_eq_ok h
    cases h
    exact .cancelBadgedSends
  · rename_i hcopy hmint _ _ _ _ _ _
    obtain ⟨cap1, cap2, slot1, slot2, rfl, hne, hweaker1, hweaker2⟩ := decodeRotate_spec h
    exact .rotate hne hweaker1 hweaker2 ⟨hcopy, hmint⟩

/-- The receive slot is empty. -/
lemma getReceiveSlots_spec {receiver : ℕ} {buffer : Option (ℕ × ℕ × ℕ)} {slot : CtePtr}
    (h : getReceiveSlots receiver buffer s = some slot) : (s slot).cap = .null := by
  unfold getReceiveSlots at h
  split at h
  · cases h
  · split at h
    · cases h
    · split at h
      · cases h
      · split_ifs at h with hcap
        cases h
        simpa using hcap

/-- Without a receive slot no cap is transferred. -/
lemma transferLoop_none {endpoint : Option ℕ} {slots : List CtePtr} {i : ℕ} {r : TransferResult} :
    (transferLoop endpoint slots i none r).cspace = r.cspace := by
  induction slots generalizing i r with
  | nil => rfl
  | cons slot slots ih =>
      rw [transferLoop]
      split
      · rw [ih]
      · rfl

/-- The loop transfers at most one cap. -/
lemma transferLoop_spec {endpoint : Option ℕ} {slots : List CtePtr} {i : ℕ} {dest : CtePtr}
    {r : TransferResult} (hempty : (r.cspace dest).cap = .null) :
    (transferLoop endpoint slots i (some dest) r).cspace = r.cspace ∨
      Copies r.cspace (transferLoop endpoint slots i (some dest) r).cspace := by
  induction slots generalizing i r with
  | nil => exact .inl rfl
  | cons slot slots ih =>
      rw [transferLoop]
      split
      · exact ih hempty
      · split
        · exact .inl rfl
        · rename_i newCap hderive
          split_ifs with hne
          · exact .inl rfl
          · rw [transferLoop_none]
            obtain ⟨hweaker, hcopy⟩ := deriveCap_spec hderive hne
            exact .inr ⟨newCap, slot, dest, hne, hempty, hweaker, hcopy, rfl⟩

/-- `transferCaps` transfers at most one cap. -/
lemma transferCaps_spec (m : CapMessage) (s : CSpace) :
    (transferCaps m s).cspace = s ∨ Copies s (transferCaps m s).cspace := by
  unfold transferCaps
  split_ifs
  · exact .inl rfl
  · cases hslot : getReceiveSlots m.receiver m.receiveBuffer s with
    | none => exact .inl transferLoop_none
    | some dest =>
        have hempty := getReceiveSlots_spec hslot
        exact transferLoop_spec (r := ⟨0, 0, [], s⟩) hempty

end Decode

/-! ### Runs -/

/-- An invocation of a CNode, or a message with caps. -/
inductive CapOp
  | cnode (call : CNodeCall)
  | transfer (m : CapMessage)

namespace CapOp

/-- One operation. An invocation that fails changes no slot; those other than Copy, Mint,
Move, Mutate and Rotate are not among the operations. -/
def run (s : CSpace) : CapOp → Option CSpace
  | cnode call =>
      match decodeCNodeInvocation call s with
      | .error _ => some s
      | .ok (.insert cap srcSlot destSlot) => some (cteInsert cap srcSlot destSlot s)
      | .ok (.move cap srcSlot destSlot) => some (cteMove cap srcSlot destSlot s)
      | .ok (.rotate cap1 cap2 slot1 slot2 slot3) =>
          some (invokeCNodeRotate cap1 cap2 slot1 slot2 slot3 s)
      | .ok _ => none
  | transfer m => some (transferCaps m s).cspace

/-- The operations that make a copy: Copy, Mint and a transfer. -/
def IsCopy : CapOp → Prop
  | cnode call => call.invLabel = .CNodeCopy ∨ call.invLabel = .CNodeMint
  | transfer _ => True

end CapOp

/-- Every cap of the second state is weaker than one of the first. -/
def GoesDown (s s' : CSpace) : Prop :=
  ∀ p, (s' p).cap ≠ .null → ∃ q, (s q).cap ≠ .null ∧ Weaker (s' p).cap (s q).cap

section Run

variable {s s' s'' : CSpace} {a b x : CtePtr} {newCap : Cap}

lemma GoesDown.refl (s : CSpace) : GoesDown s s := fun p hp => ⟨p, hp, .same _⟩

lemma GoesDown.trans (h : GoesDown s s') (h' : GoesDown s' s'') : GoesDown s s'' := by
  intro p hp
  obtain ⟨q, hq, hweaker⟩ := h' p hp
  obtain ⟨r, hr, hweaker'⟩ := h q hq
  exact ⟨r, hr, hweaker.trans hweaker'⟩

/-- A cap below that of some slot. -/
lemma goesDown_of (h : ∀ p, (s' p).cap = .null ∨ ∃ q, Weaker (s' p).cap (s q).cap) :
    GoesDown s s' := by
  intro p hp
  obtain ⟨q, hweaker⟩ := (h p).resolve_left hp
  exact ⟨q, hweaker.ne_null hp, hweaker⟩

lemma setUntypedCapAsFull_weaker (srcCap : Cap) :
    Weaker (setUntypedCapAsFull srcCap newCap a s x).cap (s x).cap := by
  unfold setUntypedCapAsFull
  split
  · split_ifs
    · cases hcap : (s a).cap with
      | untyped =>
          rw [CSpace.cap_setCap]
          split_ifs with hx
          · rw [hx, hcap]
            exact .untyped
          · exact .same _
      | _ => exact .same _
    · exact .same _
  · exact .same _

/-- The caps after `cteInsert`. -/
lemma cap_cteInsert :
    (cteInsert newCap a b s x).cap =
      if x = b then newCap else (setUntypedCapAsFull (s a).cap newCap a s x).cap := by
  simp only [cteInsert, CSpace.cap_whenSome_setPrev, CSpace.cap_setNext, CSpace.cap_setNode,
    CSpace.cap_setCap]

lemma goesDown_cteInsert (h : Weaker newCap (s a).cap) : GoesDown s (cteInsert newCap a b s) := by
  refine goesDown_of fun p => .inr ?_
  rw [cap_cteInsert]
  split_ifs
  · exact ⟨a, h⟩
  · exact ⟨p, setUntypedCapAsFull_weaker _⟩

lemma goesDown_cteMove (h : Weaker newCap (s a).cap) : GoesDown s (cteMove newCap a b s) := by
  refine goesDown_of fun p => ?_
  rw [cap_cteMove]
  split_ifs
  · exact .inl rfl
  · exact .inr ⟨a, h⟩
  · exact .inr ⟨p, .same _⟩

lemma goesDown_cteSwap {cap1 cap2 : Cap} (hne : a ≠ b) (h1 : Weaker cap1 (s a).cap)
    (h2 : Weaker cap2 (s b).cap) : GoesDown s (cteSwap cap1 a cap2 b s) := by
  refine goesDown_of fun p => .inr ?_
  rw [cap_cteSwap _ _ hne]
  split_ifs
  · exact ⟨b, h2⟩
  · exact ⟨a, h1⟩
  · exact ⟨p, .same _⟩

lemma goesDown_invokeCNodeRotate {cap1 cap2 : Cap} {slot1 slot2 slot3 : CtePtr}
    (hne : slot2 ≠ slot1) (h1 : Weaker cap1 (s slot1).cap)
    (h2 : Weaker cap2 (s slot2).cap) :
    GoesDown s (invokeCNodeRotate cap1 cap2 slot1 slot2 slot3 s) := by
  unfold invokeCNodeRotate
  split_ifs with h3
  · exact goesDown_cteSwap hne.symm h1 h2
  · refine (goesDown_cteMove h2).trans (goesDown_cteMove ?_)
    rw [cap_cteMove, if_neg hne.symm, if_neg h3]
    exact h1

lemma Copies.goesDown (h : Copies s s') : GoesDown s s' := by
  obtain ⟨newCap, srcSlot, destSlot, -, -, hweaker, -, rfl⟩ := h
  exact goesDown_cteInsert hweaker

/-- What one operation does to the caps of all slots. -/
lemma goesDown_run {op : CapOp} (h : op.run s = some s') : GoesDown s s' := by
  cases op with
  | cnode call =>
      rw [CapOp.run] at h
      cases hdecode : decodeCNodeInvocation call s with
      | error e =>
          rw [hdecode] at h
          cases h
          exact .refl s
      | ok inv =>
          rw [hdecode] at h
          cases decodeCNodeInvocation_spec hdecode with
          | insert _ _ hweaker _ =>
              cases h
              exact goesDown_cteInsert hweaker
          | move hweaker _ =>
              cases h
              exact goesDown_cteMove hweaker
          | rotate hne hweaker1 hweaker2 _ =>
              cases h
              exact goesDown_invokeCNodeRotate hne hweaker1 hweaker2
          | revoke | delete | saveCaller | cancelBadgedSends => cases h
  | transfer m =>
      cases h
      rcases transferCaps_spec m s with heq | hcopies
      · rw [heq]
        exact .refl s
      · exact hcopies.goesDown

/-- What an operation does that makes a copy. -/
lemma copies_run {op : CapOp} (hcopy : op.IsCopy) (h : op.run s = some s') :
    s' = s ∨ Copies s s' := by
  cases op with
  | cnode call =>
      rw [CapOp.run] at h
      cases hdecode : decodeCNodeInvocation call s with
      | error e =>
          rw [hdecode] at h
          cases h
          exact .inl rfl
      | ok inv =>
          rw [hdecode] at h
          cases decodeCNodeInvocation_spec hdecode with
          | insert hne hempty hweaker hcopyable =>
              cases h
              exact .inr ⟨_, _, _, hne, hempty, hweaker, hcopyable, rfl⟩
          | move _ hlabel => exact absurd hcopy (not_or.mpr hlabel)
          | rotate _ _ _ hlabel => exact absurd hcopy (not_or.mpr hlabel)
          | revoke | delete | saveCaller | cancelBadgedSends => cases h
  | transfer m =>
      cases h
      exact transferCaps_spec m s

/-- **No amplification.** After any sequence of Copy, Mint, Move, Mutate, Rotate and
transfers, every cap is weaker than one that was there at the start: it is for the same
object of the same size, has no right that the old one lacks, and a badge other than zero is
as it was. Whatever is copied may be copied: it is no zombie, interrupt control or reply
cap, and no untyped with a child. -/
theorem no_amplification {ops : List CapOp} (hrun : Exec.Runs (Exec.OfFun CapOp.run) s ops s') :
    (∀ p, (s' p).cap ≠ .null → ∃ q, (s q).cap ≠ .null ∧ Weaker (s' p).cap (s q).cap) ∧
      ∀ (op : CapOp) s'', op.IsCopy → op.run s' = some s'' → s'' = s' ∨ Copies s' s'' := by
  constructor
  · exact hrun.invariant (GoesDown s) (fun _ _ _ hdown hstep => hdown.trans (goesDown_run hstep))
      (.refl s)
  · exact fun op s'' hcopy hstep => copies_run hcopy hstep

end Run

/-- A CNode of four slots, with its own cap and an endpoint cap. -/
def twoCaps : CSpace :=
  Function.update (singleCap ⟨0, 0⟩ (.cnode 2 62 0 0)) ⟨0, 1⟩
    ⟨.endpoint 0 true true true true 4096, nullMDBNode⟩

/-- A Mint of the endpoint cap to the third slot, for writing and with badge 7, and a Copy of
the badged cap to the fourth. -/
def mintAndCopy : List CapOp :=
  [.cnode ⟨.CNodeMint, 6, .cnode 2 62 0 0, ([2, 64, 1, 64, 1, 7].getD · 0), [⟨0, 0⟩]⟩,
    .cnode ⟨.CNodeCopy, 5, .cnode 2 62 0 0, ([3, 64, 2, 64, 15].getD · 0), [⟨0, 0⟩]⟩]

/-- The run of the two makes a cap with the badge and the one right that was asked for. -/
theorem no_amplification_mint : ∃ s', Exec.Runs (Exec.OfFun CapOp.run) twoCaps mintAndCopy s' ∧
    (s' ⟨0, 3⟩).cap = .endpoint 7 false false true false 4096 ∧
    ∀ p, (s' p).cap ≠ .null → ∃ q, (twoCaps q).cap ≠ .null ∧ Weaker (s' p).cap (twoCaps q).cap := by
  have hcap : (Exec.runFun (fun _ _ => true) CapOp.run twoCaps mintAndCopy).map
      (fun s => (s ⟨0, 3⟩).cap) = some (.endpoint 7 false false true false 4096) := by
    decide +kernel
  obtain ⟨s', hs', hcap⟩ := Option.map_eq_some_iff.mp hcap
  have hrun := Exec.runs_of_eval hs'
  exact ⟨s', hrun, hcap, (no_amplification hrun).1⟩

end Kernel
