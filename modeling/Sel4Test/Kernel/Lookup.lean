import Sel4Test.Kernel.Mdb

/-!
Errors of invocations, the parents of the derivation list, and the lookup of slots,
`object/cnode.c` and `kernel/cspace.c`.

A function of the source that may fail returns `Except` with the error that it sets,
`current_syscall_error` together with `current_lookup_fault`.

* `ensureNoChildren_eq_ok`, `ensureEmptySlot_eq_ok`: when the two checks pass.
* `lookupSlotForCNodeOp` and `lookupSlot`: the walk through the CNodes, guard by guard.
-/

namespace Kernel

/-- `lookup_fault_t`. -/
inductive LookupFault
  | invalidRoot
  | missingCapability (bitsLeft : ℕ)
  | depthMismatch (bitsFound bitsLeft : ℕ)
  | guardMismatch (guardFound bitsLeft bitsFound : ℕ)
  deriving DecidableEq, Repr

/-- `syscall_error_t`. -/
inductive SyscallError
  | invalidArgument (invalidArgumentNumber : ℕ)
  | invalidCapability (invalidCapNumber : ℕ)
  | illegalOperation
  | rangeError (rangeErrorMin rangeErrorMax : ℕ)
  | failedLookup (failedLookupWasSource : Bool) (fault : LookupFault)
  | truncatedMessage
  | deleteFirst
  | revokeFirst
  | notEnoughMemory (memoryLeft : ℕ)
  deriving DecidableEq, Repr

/-- A computation that returns went through both of its parts. -/
lemma bind_eq_ok {ε α β : Type} {x : Except ε α} {f : α → Except ε β} {b : β}
    (h : (x >>= f) = .ok b) : ∃ a, x = .ok a ∧ f a = .ok b := by
  cases x with
  | error e => cases h
  | ok a => exact ⟨a, rfl, h⟩

/-- A check of the source: the error, if the condition holds. -/
def failIf {ε : Type} (c : Prop) [Decidable c] (e : ε) : Except ε Unit :=
  if c then .error e else .ok ()

/-- A computation that returns passed its checks. -/
lemma failIf_bind_eq_ok {ε α : Type} {c : Prop} [Decidable c] {e : ε} {f : Unit → Except ε α}
    {a : α} (h : (failIf c e >>= f) = .ok a) : ¬ c ∧ f () = .ok a := by
  by_cases hc : c
  · rw [failIf, if_pos hc] at h
    cases h
  · rw [failIf, if_neg hc] at h
    exact ⟨hc, h⟩

/-! ### Parents -/

/-- `Arch_isMDBParentOf`. -/
def archIsMDBParentOf (capA : Cap) (firstBadged : Bool) : Bool :=
  match capA with
  | .sgiSignal .. => !firstBadged
  | _ => true

/-- `isMDBParentOf`, on the caps and the flags that it reads. -/
def isMDBParentOf (cteA cteB : Cte) : Bool :=
  if !cteA.cteMDBNode.mdbRevocable then false
  else if !Cap.sameRegionAs cteA.cap cteB.cap then false
  else if !archIsMDBParentOf cteA.cap cteB.cteMDBNode.mdbFirstBadged then false
  else
    match cteA.cap, cteB.cap with
    | .endpoint badge _ _ _ _ _, .endpoint badgeB _ _ _ _ _ =>
        if badge = 0 then true else badge = badgeB && !cteB.cteMDBNode.mdbFirstBadged
    | .notification badge _ _ _, .notification badgeB _ _ _ =>
        if badge = 0 then true else badge = badgeB && !cteB.cteMDBNode.mdbFirstBadged
    | _, _ => true

/-- The next slot of the list holds a child. -/
def HasChild (slot : CtePtr) (s : CSpace) : Prop :=
  ∃ next, (s.node slot).mdbNext = some next ∧ isMDBParentOf (s slot) (s next)

/-- `ensureNoChildren`. -/
def ensureNoChildren (slot : CtePtr) (s : CSpace) : Except SyscallError Unit :=
  match (s slot).cteMDBNode.mdbNext with
  | none => .ok ()
  | some next => if isMDBParentOf (s slot) (s next) then .error .revokeFirst else .ok ()

lemma ensureNoChildren_eq_ok {slot : CtePtr} {s : CSpace} :
    ensureNoChildren slot s = .ok () ↔ ¬ HasChild slot s := by
  rw [ensureNoChildren, CSpace.cteMDBNode_eq]
  cases hnext : (s.node slot).mdbNext with
  | none => simp [HasChild, hnext]
  | some next =>
      simp only [HasChild, hnext, Option.some.injEq, exists_eq_left']
      split_ifs with hchild
      · simp [hchild]
      · simp [hchild]

/-- `ensureEmptySlot`. -/
def ensureEmptySlot (slot : CtePtr) (s : CSpace) : Except SyscallError Unit :=
  if (s slot).cap ≠ .null then .error .deleteFirst else .ok ()

lemma ensureEmptySlot_eq_ok {slot : CtePtr} {s : CSpace} :
    ensureEmptySlot slot s = .ok () ↔ (s slot).cap = .null := by
  rw [ensureEmptySlot]
  split_ifs with h
  · simp [h]
  · simpa using h

/-! ### Lookups -/

/-- One level of the loop of `resolveAddressBits` and those below it; `fuel` bounds the
levels, each of which resolves at least one bit. The result is the slot and the bits that
remain. -/
def resolveLoop (s : CSpace) (capptr : ℕ) :
    ℕ → Cap → ℕ → Except LookupFault (CtePtr × ℕ)
  | fuel + 1, .cnode radixBits guardBits capGuard ptr, nBits =>
      let levelBits := radixBits + guardBits
      let guard := capptr / 2 ^ ((nBits + 2 ^ 64 - guardBits) % 64) % 2 ^ guardBits
      if nBits < guardBits ∨ guard ≠ capGuard then
        .error (.guardMismatch capGuard nBits guardBits)
      else if nBits < levelBits then .error (.depthMismatch levelBits nBits)
      else
        let offset := capptr / 2 ^ (nBits - levelBits) % 2 ^ radixBits
        let slot : CtePtr := ⟨ptr, offset⟩
        if nBits = levelBits then .ok (slot, 0)
        else
          match (s slot).cap with
          | .cnode radix guardSize guard' ptr' =>
              resolveLoop s capptr fuel (.cnode radix guardSize guard' ptr') (nBits - levelBits)
          | _ => .ok (slot, nBits - levelBits)
  | _, _, _ => .error .invalidRoot

/-- `resolveAddressBits`. -/
def resolveAddressBits (s : CSpace) (nodeCap : Cap) (capptr nBits : ℕ) :
    Except LookupFault (CtePtr × ℕ) :=
  resolveLoop s capptr (nBits + 1) nodeCap nBits

/-- `lookupSlotForCNodeOp`. -/
def lookupSlotForCNodeOp (isSource : Bool) (s : CSpace) (root : Cap) (capptr depth : ℕ) :
    Except SyscallError CtePtr :=
  match root with
  | .cnode .. =>
      if depth < 1 ∨ wordBits < depth then .error (.rangeError 1 wordBits)
      else
        match resolveAddressBits s root capptr depth with
        | .error fault => .error (.failedLookup isSource fault)
        | .ok (slot, bitsRemaining) =>
            if bitsRemaining ≠ 0 then
              .error (.failedLookup isSource (.depthMismatch 0 bitsRemaining))
            else .ok slot
  | _ => .error (.failedLookup isSource .invalidRoot)

/-- `lookupSourceSlot`. -/
def lookupSourceSlot := lookupSlotForCNodeOp true

/-- `lookupTargetSlot`. -/
def lookupTargetSlot := lookupSlotForCNodeOp false

/-- `lookupPivotSlot`. -/
def lookupPivotSlot := lookupSlotForCNodeOp true

/-- `tcbCTable`, the index of the root CNode in the CNode of a TCB. -/
def tcbCTable : ℕ := 0

/-- `tcbVTable`. -/
def tcbVTable : ℕ := 1

/-- `tcbReply`. -/
def tcbReply : ℕ := 2

/-- `tcbCaller`. -/
def tcbCaller : ℕ := 3

/-- `lookupSlot`; the bits that remain are not looked at. -/
def lookupSlot (s : CSpace) (thread capptr : ℕ) : Except LookupFault CtePtr :=
  match resolveAddressBits s (s ⟨thread, tcbCTable⟩).cap capptr wordBits with
  | .error fault => .error fault
  | .ok (slot, _) => .ok slot

/-- `lookupCap`. -/
def lookupCap (s : CSpace) (thread capptr : ℕ) : Except LookupFault Cap :=
  match lookupSlot s thread capptr with
  | .error fault => .error fault
  | .ok slot => .ok (s slot).cap

/-- `rightsFromWord`, with the fields of `seL4_CapRights`. -/
def rightsFromWord (w : ℕ) : CapRights :=
  ⟨w.testBit 3, w.testBit 2, w.testBit 1, w.testBit 0⟩

end Kernel
