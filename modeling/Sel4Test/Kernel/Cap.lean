import Mathlib.Tactic

/-!
Capabilities of the kernel on AArch64, `object/structures_64.bf`,
`mode/object/structures.bf` and the functions on them in `object/objecttype.c`.

The configuration is the one without MCS, hypervisor support, SMMU and SMC calls. A cap is
a value of `Cap`, with the fields of its bit field; words are natural numbers, and where a
sum may leave 64 bits it is taken modulo `2^64`. A TCB is named by the address of its
block, where its CNode lies.

* `sameObjectAs_eq`: the comparison of caps is an equality of objects.
* `updateCapData`, `maskCapRights`, `isCapRevocable`: what a copy is made with.
-/

namespace Kernel

/-- `vm_rights_t`. -/
inductive VmRights
  | kernelOnly
  | readWrite
  | readOnly
  deriving DecidableEq, Repr

/-- `vm_page_size_t`. -/
inductive VmPageSize
  | smallPage
  | largePage
  | hugePage
  deriving DecidableEq, Repr

/-- `pageBitsForSize`. -/
def pageBitsForSize : VmPageSize → ℕ
  | .smallPage => 12
  | .largePage => 21
  | .hugePage => 30

/-- `ZombieType_ZombieTCB` and `ZombieType_ZombieCNode`. -/
inductive ZombieType
  | tcb
  | cnode (radix : ℕ)
  deriving DecidableEq, Repr

/-- `cap_t`. -/
inductive Cap
  | null
  | untyped (capFreeIndex : ℕ) (capIsDevice : Bool) (capBlockSize capPtr : ℕ)
  | endpoint (capEPBadge : ℕ) (capCanGrantReply capCanGrant capCanSend capCanReceive : Bool)
      (capEPPtr : ℕ)
  | notification (capNtfnBadge : ℕ) (capNtfnCanReceive capNtfnCanSend : Bool) (capNtfnPtr : ℕ)
  | reply (capReplyCanGrant capReplyMaster : Bool) (capTCBPtr : ℕ)
  | cnode (capCNodeRadix capCNodeGuardSize capCNodeGuard capCNodePtr : ℕ)
  | thread (capTCBPtr : ℕ)
  | irqControl
  | irqHandler (capIRQ : ℕ)
  | zombie (capZombieType : ZombieType) (capZombieNumber capZombiePtr : ℕ)
  | domain
  | frame (capFMappedASID capFBasePtr : ℕ) (capFSize : VmPageSize) (capFMappedAddress : ℕ)
      (capFVMRights : VmRights) (capFIsDevice : Bool)
  | pageTable (capPTMappedASID capPTBasePtr : ℕ) (capPTIsMapped : Bool) (capPTMappedAddress : ℕ)
  | vspace (capVSMappedASID capVSBasePtr : ℕ) (capVSIsMapped : Bool)
  | asidControl
  | asidPool (capASIDBase capASIDPool : ℕ)
  | sgiSignal (capSGITarget capSGIIRQ : ℕ)
  deriving DecidableEq, Repr

/-- `seL4_CapRights_t`. -/
structure CapRights where
  capAllowGrantReply : Bool
  capAllowGrant : Bool
  capAllowRead : Bool
  capAllowWrite : Bool
  deriving DecidableEq, Repr

/-- `wordBits`. -/
def wordBits : ℕ := 64

/-- `seL4_SlotBits`. -/
def slotBits : ℕ := 5

/-- `seL4_TCBBits`. -/
def tcbBits : ℕ := 11

/-- `seL4_EndpointBits`. -/
def endpointBits : ℕ := 4

/-- `seL4_NotificationBits`. -/
def notificationBits : ℕ := 5

/-- `seL4_PageTableBits`. -/
def pageTableBits : ℕ := 12

/-- `seL4_VSpaceBits`. -/
def vspaceBits : ℕ := 12

/-- `seL4_ASIDPoolBits`. -/
def asidPoolBits : ℕ := 12

/-- `seL4_MinUntypedBits`. -/
def minUntypedBits : ℕ := 4

/-- `seL4_MaxUntypedBits`. -/
def maxUntypedBits : ℕ := 47

/-- `MAX_FREE_INDEX`. -/
def maxFreeIndex (sizeBits : ℕ) : ℕ := 2 ^ (sizeBits - minUntypedBits)

namespace Cap

/-! ### The object of a cap -/

/-- `isArchCap`: the odd tags. -/
def isArchCap : Cap → Bool
  | frame .. | pageTable .. | vspace .. | asidControl | asidPool .. | sgiSignal .. => true
  | _ => false

/-- `cap_get_capSizeBits`. -/
def capSizeBits : Cap → ℕ
  | untyped _ _ blockSize _ => blockSize
  | endpoint .. => endpointBits
  | notification .. => notificationBits
  | cnode radix _ _ _ => radix + slotBits
  | thread _ => tcbBits
  | zombie .tcb _ _ => tcbBits
  | zombie (.cnode radix) _ _ => radix + slotBits
  | frame _ _ size _ _ _ => pageBitsForSize size
  | pageTable .. => pageTableBits
  | vspace .. => vspaceBits
  | asidPool .. => asidPoolBits
  | null | domain | reply .. | irqControl | irqHandler _ | asidControl | sgiSignal .. => 0

/-- `cap_get_capIsPhysical`. -/
def capIsPhysical : Cap → Bool
  | untyped .. | endpoint .. | notification .. | cnode .. | thread _ | zombie .. | frame ..
  | pageTable .. | vspace .. | asidPool .. => true
  | null | domain | reply .. | irqControl | irqHandler _ | asidControl | sgiSignal .. => false

/-- `cap_get_capPtr`. -/
def capPtr : Cap → ℕ
  | untyped _ _ _ ptr => ptr
  | endpoint _ _ _ _ _ ptr => ptr
  | notification _ _ _ ptr => ptr
  | cnode _ _ _ ptr => ptr
  | thread tcb => tcb
  | zombie _ _ ptr => ptr
  | frame _ ptr _ _ _ _ => ptr
  | pageTable _ ptr _ _ => ptr
  | vspace _ ptr _ => ptr
  | asidPool _ ptr => ptr
  | null | domain | reply .. | irqControl | irqHandler _ | asidControl | sgiSignal .. => 0

/-- The address of the last byte of an object, in 64 bits. -/
def top (base sizeBits : ℕ) : ℕ := (base + (2 ^ sizeBits - 1)) % 2 ^ 64

/-- `Arch_sameRegionAs`. -/
def archSameRegionAs : Cap → Cap → Bool
  | frame _ botA sizeA _ _ _, frame _ botB sizeB _ _ _ =>
      let topA := top botA (pageBitsForSize sizeA)
      let topB := top botB (pageBitsForSize sizeB)
      botA ≤ botB ∧ topB ≤ topA ∧ botB ≤ topB
  | pageTable _ a _ _, pageTable _ b _ _ => a = b
  | vspace _ a _, vspace _ b _ => a = b
  | asidControl, asidControl => true
  | asidPool _ a, asidPool _ b => a = b
  | sgiSignal targetA irqA, sgiSignal targetB irqB => irqA = irqB ∧ targetA = targetB
  | _, _ => false

/-- `sameRegionAs`. -/
def sameRegionAs (capA capB : Cap) : Bool :=
  match capA with
  | untyped _ _ blockSize aBase =>
      if capB.capIsPhysical then
        let bBase := capB.capPtr
        let aTop := top aBase blockSize
        let bTop := top bBase capB.capSizeBits
        aBase ≤ bBase ∧ bTop ≤ aTop ∧ bBase ≤ bTop
      else false
  | endpoint _ _ _ _ _ a =>
      match capB with
      | endpoint _ _ _ _ _ b => a = b
      | _ => false
  | notification _ _ _ a =>
      match capB with
      | notification _ _ _ b => a = b
      | _ => false
  | cnode radixA _ _ a =>
      match capB with
      | cnode radixB _ _ b => a = b ∧ radixA = radixB
      | _ => false
  | thread a =>
      match capB with
      | thread b => a = b
      | _ => false
  | reply _ _ a =>
      match capB with
      | reply _ _ b => a = b
      | _ => false
  | domain =>
      match capB with
      | domain => true
      | _ => false
  | irqControl =>
      match capB with
      | irqControl | irqHandler _ | sgiSignal .. => true
      | _ => false
  | irqHandler a =>
      match capB with
      | irqHandler b => a = b
      | _ => false
  | _ => capA.isArchCap && capB.isArchCap && archSameRegionAs capA capB

/-- `Arch_sameObjectAs`. -/
def archSameObjectAs : Cap → Cap → Bool
  | frame _ a sizeA _ _ deviceA, frame _ b sizeB _ _ deviceB =>
      a = b ∧ sizeA = sizeB ∧ deviceA = deviceB
  | sgiSignal .., _ => false
  | capA, capB => archSameRegionAs capA capB

/-- `sameObjectAs`. -/
def sameObjectAs (capA capB : Cap) : Bool :=
  match capA with
  | untyped .. => false
  | irqControl => false
  | _ =>
      if capA.isArchCap && capB.isArchCap then archSameObjectAs capA capB
      else sameRegionAs capA capB

/-- The objects that several caps may be for; the untyped regions, the interrupt control
and zombies are none. -/
inductive Object
  | endpoint (ptr : ℕ)
  | notification (ptr : ℕ)
  | reply (tcb : ℕ)
  | cnode (radix ptr : ℕ)
  | thread (tcb : ℕ)
  | irqHandler (irq : ℕ)
  | domain
  | frame (base : ℕ) (size : VmPageSize) (isDevice : Bool)
  | pageTable (base : ℕ)
  | vspace (base : ℕ)
  | asidControl
  | asidPool (pool : ℕ)
  deriving DecidableEq

/-- The object of a cap. -/
def object? : Cap → Option Object
  | endpoint _ _ _ _ _ ptr => some (.endpoint ptr)
  | notification _ _ _ ptr => some (.notification ptr)
  | reply _ _ tcb => some (.reply tcb)
  | cnode radix _ _ ptr => some (.cnode radix ptr)
  | thread tcb => some (.thread tcb)
  | irqHandler irq => some (.irqHandler irq)
  | domain => some .domain
  | frame _ base size _ _ isDevice => some (.frame base size isDevice)
  | pageTable _ base _ _ => some (.pageTable base)
  | vspace _ base _ => some (.vspace base)
  | asidControl => some .asidControl
  | asidPool _ pool => some (.asidPool pool)
  | null | untyped .. | irqControl | zombie .. | sgiSignal .. => none

/-- Two objects that are there are the same. -/
def sameObject : Option Object → Option Object → Bool
  | some a, some b => a = b
  | _, _ => false

/-- **The same object**: the comparison of the source, case by case, is the equality of the
objects. -/
lemma sameObjectAs_eq (capA capB : Cap) :
    sameObjectAs capA capB = sameObject capA.object? capB.object? := by
  cases capA <;> cases capB <;>
    first
    | rfl
    | simp [sameObjectAs, isArchCap, archSameObjectAs, archSameRegionAs, sameRegionAs, sameObject,
        object?, and_comm]

/-! ### Copies -/

/-- `updateCapData`; the data of a CNode are a guard and its size. -/
def updateCapData (preserve : Bool) (newData : ℕ) : Cap → Cap
  | endpoint badge canGrantReply canGrant canSend canReceive ptr =>
      if preserve = false ∧ badge = 0 then
        endpoint newData canGrantReply canGrant canSend canReceive ptr
      else null
  | notification badge canReceive canSend ptr =>
      if preserve = false ∧ badge = 0 then notification newData canReceive canSend ptr else null
  | cnode radix _ _ ptr =>
      let guardSize := newData % 2 ^ 6
      if wordBits < guardSize + radix then null
      else cnode radix guardSize (newData / 2 ^ 6 % 2 ^ 58 % 2 ^ guardSize) ptr
  | cap => cap

/-- `maskVMRights`. -/
def maskVMRights (vmRights : VmRights) (mask : CapRights) : VmRights :=
  if vmRights = .readOnly ∧ mask.capAllowRead then .readOnly
  else if vmRights = .readWrite ∧ mask.capAllowRead then
    if mask.capAllowWrite then .readWrite else .readOnly
  else .kernelOnly

/-- `maskCapRights`. -/
def maskCapRights (rights : CapRights) : Cap → Cap
  | endpoint badge canGrantReply canGrant canSend canReceive ptr =>
      endpoint badge (canGrantReply && rights.capAllowGrantReply) (canGrant && rights.capAllowGrant)
        (canSend && rights.capAllowWrite) (canReceive && rights.capAllowRead) ptr
  | notification badge canReceive canSend ptr =>
      notification badge (canReceive && rights.capAllowRead) (canSend && rights.capAllowWrite) ptr
  | reply canGrant master tcb => reply (canGrant && rights.capAllowGrant) master tcb
  | frame asid base size addr vmRights isDevice =>
      frame asid base size addr (maskVMRights vmRights rights) isDevice
  | cap => cap

/-- `isCapRevocable` with `Arch_isCapRevocable`. -/
def isCapRevocable (derivedCap srcCap : Cap) : Bool :=
  match derivedCap, srcCap with
  | endpoint a _ _ _ _ _, endpoint b _ _ _ _ _ => a ≠ b
  | notification a _ _ _, notification b _ _ _ => a ≠ b
  | irqHandler _, irqControl => true
  | sgiSignal .., irqControl => true
  | untyped .., _ => true
  | _, _ => false

end Cap

end Kernel
