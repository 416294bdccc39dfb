import Sel4Test.Kernel.Lookup
import Sel4Test.Lib.Bump

/-!
Retype, `object/untyped.c` with `getObjectSize`, `createObject` and `createNewObjects` of
`object/objecttype.c`.

Words are natural numbers, and the sums, differences and shifts of the source are
`wordAdd`, `wordSub` and `wordShl`, which keep 64 bits. The contents of the memory that is
cleared are not modelled.

* `decodeUntypedInvocation_spec`: what an accepted request has been checked for.
* `Fits`: the results of all computations of an accepted request, without the reduction to
  64 bits, and that they need none.
* `retype_run`: over whole runs the objects lie in the region, aligned and apart.
-/

namespace Kernel

/-! ### Words -/

/-- `a + b` of two words. -/
def wordAdd (a b : ℕ) : ℕ := (a + b) % 2 ^ 64

/-- `a - b` of two words. -/
def wordSub (a b : ℕ) : ℕ := (a + 2 ^ 64 - b) % 2 ^ 64

/-- `a << n` of a word. -/
def wordShl (a n : ℕ) : ℕ := a * 2 ^ n % 2 ^ 64

lemma wordAdd_eq {a b : ℕ} (h : a + b < 2 ^ 64) : wordAdd a b = a + b := Nat.mod_eq_of_lt h

lemma wordSub_eq {a b : ℕ} (hb : b ≤ a) (ha : a < 2 ^ 64) : wordSub a b = a - b := by
  rw [wordSub]
  omega

lemma wordShl_eq {a n : ℕ} (h : a * 2 ^ n < 2 ^ 64) : wordShl a n = a * 2 ^ n :=
  Nat.mod_eq_of_lt h

/-! ### Objects -/

/-- The object types, in the order of their numbers. -/
inductive ObjectType
  | untyped
  | tcb
  | endpoint
  | notification
  | capTable
  | hugePage
  | vspace
  | smallPage
  | largePage
  | pageTable
  deriving DecidableEq, Repr

/-- The type with a number below `seL4_ObjectTypeCount`. -/
def objectType? : ℕ → Option ObjectType
  | 0 => some .untyped
  | 1 => some .tcb
  | 2 => some .endpoint
  | 3 => some .notification
  | 4 => some .capTable
  | 5 => some .hugePage
  | 6 => some .vspace
  | 7 => some .smallPage
  | 8 => some .largePage
  | 9 => some .pageTable
  | _ => none

/-- `getObjectSize` with `Arch_getObjectSize`. -/
def getObjectSize (t : ObjectType) (userObjSize : ℕ) : ℕ :=
  match t with
  | .untyped => userObjSize
  | .tcb => tcbBits
  | .endpoint => endpointBits
  | .notification => notificationBits
  | .capTable => wordAdd slotBits userObjSize
  | .hugePage => pageBitsForSize .hugePage
  | .vspace => vspaceBits
  | .smallPage => pageBitsForSize .smallPage
  | .largePage => pageBitsForSize .largePage
  | .pageTable => pageTableBits

/-- `Arch_isFrameType`. -/
def archIsFrameType : ObjectType → Bool
  | .hugePage | .smallPage | .largePage => true
  | _ => false

/-- `createObject` with `Arch_createObject`: the cap that is made. -/
def createObject (t : ObjectType) (regionBase userSize : ℕ) (deviceMemory : Bool) : Cap :=
  match t with
  | .untyped => .untyped 0 deviceMemory userSize regionBase
  | .tcb => .thread regionBase
  | .endpoint => .endpoint 0 true true true true regionBase
  | .notification => .notification 0 true true regionBase
  | .capTable => .cnode userSize 0 0 regionBase
  | .hugePage => .frame 0 regionBase .hugePage 0 .readWrite deviceMemory
  | .vspace => .vspace 0 regionBase false
  | .smallPage => .frame 0 regionBase .smallPage 0 .readWrite deviceMemory
  | .largePage => .frame 0 regionBase .largePage 0 .readWrite deviceMemory
  | .pageTable => .pageTable 0 regionBase false 0

/-! ### The request -/

/-- `UntypedRetype` and all other labels. -/
inductive UntypedLabel
  | UntypedRetype
  | other
  deriving DecidableEq, Repr

/-- A request: the label, the length of the message, its words, and the slots of the extra
caps. -/
structure UntypedCall where
  invLabel : UntypedLabel
  length : ℕ
  arg : ℕ → ℕ
  excaprefs : List CtePtr

/-- The arguments of `invokeUntyped_Retype` after the first. -/
structure Retype where
  reset : Bool
  retypeBase : ℕ
  newType : ObjectType
  userSize : ℕ
  destCNode : ℕ
  destOffset : ℕ
  destLength : ℕ
  deviceMemory : Bool
  deriving DecidableEq, Repr

/-- `CONFIG_RETYPE_FAN_OUT_LIMIT`. -/
def retypeFanOutLimit : ℕ := 256

/-- `FREE_INDEX_TO_OFFSET`. -/
def freeIndexToOffset (freeIndex : ℕ) : ℕ := wordShl freeIndex minUntypedBits

/-- `GET_FREE_REF`. -/
def getFreeRef (base freeIndex : ℕ) : ℕ := wordAdd base (freeIndexToOffset freeIndex)

/-- `GET_FREE_INDEX`. -/
def getFreeIndex (base free : ℕ) : ℕ := wordSub free base / 2 ^ minUntypedBits

/-- `alignUp`. -/
def alignUp (baseValue alignment : ℕ) : ℕ :=
  wordAdd baseValue (wordSub (wordShl 1 alignment) 1) / 2 ^ alignment * 2 ^ alignment

/-- The loop that checks the slots of the destination window, from slot `i` on. -/
def ensureEmptySlots (destCNode : ℕ) (s : CSpace) : ℕ → ℕ → Except SyscallError Unit
  | _, 0 => .ok ()
  | i, n + 1 => do
      ensureEmptySlot ⟨destCNode, i⟩ s
      ensureEmptySlots destCNode s (i + 1) n

/-- The cap of the CNode for the new caps. -/
def lookupNode (rootSlot : CtePtr) (nodeIndex nodeDepth : ℕ) (s : CSpace) :
    Except SyscallError Cap :=
  if nodeDepth = 0 then .ok (s rootSlot).cap
  else
    match lookupTargetSlot s (s rootSlot).cap nodeIndex nodeDepth with
    | .error e => .error e
    | .ok slot => .ok (s slot).cap

/-- Where the objects go, and whether the untyped is reset before. -/
def freeIndexOf (slot : CtePtr) (capFreeIndex : ℕ) (s : CSpace) : ℕ × Bool :=
  match ensureNoChildren slot s with
  | .error _ => (capFreeIndex, false)
  | .ok () => (0, true)

/-- The checks of the destination window and of the memory, for a CNode and an untyped. -/
def decodeWindow (call : UntypedCall) (slot : CtePtr) (newType : ObjectType)
    (radix destCNode capFreeIndex capBlockSize capPtr : ℕ) (capIsDevice : Bool) (s : CSpace) :
    Except SyscallError Retype := do
  let userObjSize := call.arg 1
  let nodeOffset := call.arg 4
  let nodeWindow := call.arg 5
  let objectSize := getObjectSize newType userObjSize
  let nodeSize := wordShl 1 radix
  failIf (wordSub nodeSize 1 < nodeOffset) (.rangeError 0 (wordSub nodeSize 1))
  failIf (nodeWindow < 1 ∨ retypeFanOutLimit < nodeWindow) (.rangeError 1 retypeFanOutLimit)
  failIf (wordSub nodeSize nodeOffset < nodeWindow) (.rangeError 1 (wordSub nodeSize nodeOffset))
  ensureEmptySlots destCNode s nodeOffset nodeWindow
  let freeIndex := (freeIndexOf slot capFreeIndex s).1
  let freeRef := getFreeRef capPtr freeIndex
  let untypedFreeBytes := wordSub (wordShl 1 capBlockSize) (freeIndexToOffset freeIndex)
  failIf (untypedFreeBytes / 2 ^ objectSize < nodeWindow) (.notEnoughMemory untypedFreeBytes)
  failIf ((capIsDevice ∧ !archIsFrameType newType) ∧ newType ≠ .untyped) (.invalidArgument 1)
  pure
    { reset := (freeIndexOf slot capFreeIndex s).2
      retypeBase := alignUp freeRef objectSize
      newType := newType
      userSize := userObjSize
      destCNode := destCNode
      destOffset := nodeOffset
      destLength := nodeWindow
      deviceMemory := capIsDevice }

/-- `decodeUntypedInvocation`; other caps are not passed to it. -/
def decodeUntypedInvocation (call : UntypedCall) (slot : CtePtr) (cap : Cap) (s : CSpace) :
    Except SyscallError Retype := do
  failIf (call.invLabel ≠ .UntypedRetype) .illegalOperation
  failIf (call.length < 6) .truncatedMessage
  match call.excaprefs, cap with
  | rootSlot :: _, .untyped capFreeIndex capIsDevice capBlockSize capPtr =>
      match objectType? (call.arg 0) with
      | none => .error (.invalidArgument 0)
      | some newType => do
          let userObjSize := call.arg 1
          failIf (wordBits ≤ userObjSize ∨ maxUntypedBits < getObjectSize newType userObjSize)
            (.rangeError 0 maxUntypedBits)
          failIf (newType = .capTable ∧ userObjSize = 0) (.invalidArgument 1)
          failIf (newType = .untyped ∧ userObjSize < minUntypedBits) (.invalidArgument 1)
          let nodeCap ← lookupNode rootSlot (call.arg 2) (call.arg 3) s
          match nodeCap with
          | .cnode radix _ _ destCNode =>
              decodeWindow call slot newType radix destCNode capFreeIndex capBlockSize capPtr
                capIsDevice s
          | _ => .error (.failedLookup false (.missingCapability (call.arg 3)))
  | _, _ => .error .truncatedMessage

/-! ### The retype -/

/-- `cap_untyped_cap_set_capFreeIndex` of the cap in a slot. -/
def setFreeIndex (slot : CtePtr) (freeIndex : ℕ) (s : CSpace) : CSpace :=
  match (s slot).cap with
  | .untyped _ isDevice bits ptr => s.setCap slot (.untyped freeIndex isDevice bits ptr)
  | _ => s

/-- `CONFIG_RESET_CHUNK_BITS`. -/
def resetChunkBits : ℕ := 8

/-- The loop of `resetUntypedCap` from a chunk downwards; `preempt` says at which chunks the
preemption point fails. The result is true if the loop ended. -/
def resetLoop (slot : CtePtr) (preempt : ℕ → Bool) : ℕ → CSpace → Bool × CSpace
  | 0, s =>
      let s := setFreeIndex slot 0 s
      (!preempt 0, s)
  | chunk + 1, s =>
      let s := setFreeIndex slot ((chunk + 1) * 2 ^ resetChunkBits / 2 ^ minUntypedBits) s
      if preempt (chunk + 1) then (false, s) else resetLoop slot preempt chunk s

/-- `resetUntypedCap`. -/
def resetUntypedCap (slot : CtePtr) (preempt : ℕ → Bool) (s : CSpace) : Bool × CSpace :=
  match (s slot).cap with
  | .untyped freeIndex isDevice blockSize _ =>
      let offset := freeIndexToOffset freeIndex
      if offset = 0 then (true, s)
      else if isDevice ∨ blockSize < resetChunkBits then (true, setFreeIndex slot 0 s)
      else resetLoop slot preempt ((offset - 1) / 2 ^ resetChunkBits) s
  | _ => (true, s)

/-- The loop of `createNewObjects`, from object `i` on. -/
def createLoop (r : Retype) (slot : CtePtr) : ℕ → ℕ → CSpace → CSpace
  | _, 0, s => s
  | i, n + 1, s =>
      let base := wordAdd r.retypeBase (wordShl i (getObjectSize r.newType r.userSize))
      let cap := createObject r.newType base r.userSize r.deviceMemory
      createLoop r slot (i + 1) n
        (insertNewCap slot ⟨r.destCNode, wordAdd r.destOffset i⟩ cap s)

/-- `createNewObjects`. -/
def createNewObjects (r : Retype) (slot : CtePtr) (s : CSpace) : CSpace :=
  createLoop r slot 0 r.destLength s

/-- The base of the untyped in a slot. -/
def regionBase (slot : CtePtr) (s : CSpace) : ℕ := (s slot).cap.capPtr

/-- The second part of `invokeUntyped_Retype`: the free index, and the objects. -/
def retypeObjects (slot : CtePtr) (r : Retype) (base : ℕ) (s : CSpace) : CSpace :=
  let totalObjectSize := wordShl r.destLength (getObjectSize r.newType r.userSize)
  let freeRef := wordAdd r.retypeBase totalObjectSize
  createNewObjects r slot (setFreeIndex slot (getFreeIndex base freeRef) s)

/-- `invokeUntyped_Retype`; false if it was preempted. -/
def invokeUntypedRetype (slot : CtePtr) (r : Retype) (preempt : ℕ → Bool) (s : CSpace) :
    Bool × CSpace :=
  let base := regionBase slot s
  match if r.reset then resetUntypedCap slot preempt s else (true, s) with
  | (true, s) => (true, retypeObjects slot r base s)
  | (false, s) => (false, s)

/-! ### Accepted requests -/

/-- The CNode of a radix that the root and the path of a request lead to. -/
def UntypedCall.Node (call : UntypedCall) (radix destCNode : ℕ) (s : CSpace) : Prop :=
  ∃ rootSlot guardSize guard, call.excaprefs.head? = some rootSlot ∧
    lookupNode rootSlot (call.arg 2) (call.arg 3) s = .ok (.cnode radix guardSize guard destCNode)

/-- What an accepted request has been checked for; its CNode has the given radix. -/
structure Accepted (slot : CtePtr) (freeIndex bits ptr radix : ℕ) (s : CSpace) (r : Retype) :
    Prop where
  userSize_lt : r.userSize < wordBits
  size_le : getObjectSize r.newType r.userSize ≤ maxUntypedBits
  min_le : r.newType = .untyped → minUntypedBits ≤ r.userSize
  node : ∃ guardSize guard p, (s p).cap = .cnode radix guardSize guard r.destCNode
  offset_le : r.destOffset ≤ wordSub (wordShl 1 radix) 1
  window_le : r.destLength ≤ wordSub (wordShl 1 radix) r.destOffset
  length_pos : 1 ≤ r.destLength
  length_le : r.destLength ≤ retypeFanOutLimit
  empty : ∀ i, i < r.destLength → (s ⟨r.destCNode, r.destOffset + i⟩).cap = .null
  reset_eq : r.reset = (freeIndexOf slot freeIndex s).2
  base_eq : r.retypeBase = alignUp (getFreeRef ptr (freeIndexOf slot freeIndex s).1)
    (getObjectSize r.newType r.userSize)
  room : r.destLength ≤
    wordSub (wordShl 1 bits) (freeIndexToOffset (freeIndexOf slot freeIndex s).1) /
      2 ^ getObjectSize r.newType r.userSize

section Decode

variable {call : UntypedCall} {slot : CtePtr} {s : CSpace} {r : Retype}
  {freeIndex bits ptr : ℕ} {isDevice : Bool}

lemma ensureEmptySlots_spec {destCNode n : ℕ} : ∀ {i : ℕ},
    ensureEmptySlots destCNode s i n = .ok () → ∀ k, k < n → (s ⟨destCNode, i + k⟩).cap = .null := by
  induction n with
  | zero => exact fun _ k hk => absurd hk (Nat.not_lt_zero k)
  | succ n ih =>
      intro i h k hk
      obtain ⟨_, hfirst, hrest⟩ := bind_eq_ok h
      cases k with
      | zero => exact ensureEmptySlot_eq_ok.mp hfirst
      | succ k =>
          have hnext := ih hrest k (Nat.lt_of_succ_lt_succ hk)
          rwa [Nat.add_right_comm, Nat.add_assoc] at hnext

lemma lookupNode_spec {rootSlot : CtePtr} {nodeIndex nodeDepth : ℕ} {cap : Cap}
    (h : lookupNode rootSlot nodeIndex nodeDepth s = .ok cap) : ∃ p, (s p).cap = cap := by
  unfold lookupNode at h
  split_ifs at h
  · exact ⟨rootSlot, Except.ok.inj h⟩
  · split at h
    · cases h
    · exact ⟨_, Except.ok.inj h⟩

/-- The checks that a request has passed. -/
lemma decodeUntypedInvocation_spec
    (h : decodeUntypedInvocation call slot (.untyped freeIndex isDevice bits ptr) s = .ok r) :
    ∃ radix, call.Node radix r.destCNode s ∧ Accepted slot freeIndex bits ptr radix s r := by
  unfold decodeUntypedInvocation at h
  obtain ⟨-, h⟩ := failIf_bind_eq_ok h
  obtain ⟨-, h⟩ := failIf_bind_eq_ok h
  split at h
  · rename_i rootSlot _ _ _ _ _ hroot hcap
    cases hcap
    split at h
    · cases h
    · obtain ⟨hsize, h⟩ := failIf_bind_eq_ok h
      obtain ⟨-, h⟩ := failIf_bind_eq_ok h
      obtain ⟨hmin, h⟩ := failIf_bind_eq_ok h
      obtain ⟨nodeCap, hnode, h⟩ := bind_eq_ok h
      obtain ⟨p, hp⟩ := lookupNode_spec hnode
      split at h
      · rename_i radix guardSize guard destCNode
        unfold decodeWindow at h
        obtain ⟨hoffset, h⟩ := failIf_bind_eq_ok h
        obtain ⟨hlength, h⟩ := failIf_bind_eq_ok h
        obtain ⟨hwindow, h⟩ := failIf_bind_eq_ok h
        obtain ⟨_, hempty, h⟩ := bind_eq_ok h
        obtain ⟨hroom, h⟩ := failIf_bind_eq_ok h
        obtain ⟨-, h⟩ := failIf_bind_eq_ok h
        cases h
        rw [not_or] at hsize hlength
        refine ⟨radix, ⟨rootSlot, guardSize, guard, by rw [hroot, List.head?_cons], hnode⟩, ?_⟩
        exact
          { userSize_lt := not_le.mp hsize.1
            size_le := not_lt.mp hsize.2
            min_le := fun ht => not_lt.mp fun hlt => hmin ⟨ht, hlt⟩
            node := ⟨guardSize, guard, p, hp⟩
            offset_le := not_lt.mp hoffset
            window_le := not_lt.mp hwindow
            length_pos := not_lt.mp hlength.1
            length_le := not_lt.mp hlength.2
            empty := ensureEmptySlots_spec hempty
            reset_eq := rfl
            base_eq := rfl
            room := not_lt.mp hroom }
      · cases h
  · cases h

end Decode

/-- An untyped cap as boot and Retype make them: of a size within the bounds, aligned, in
the address space, with a free index within its region. -/
structure UntypedOk (freeIndex bits ptr : ℕ) : Prop where
  min_le : minUntypedBits ≤ bits
  le_max : bits ≤ maxUntypedBits
  aligned : 2 ^ bits ∣ ptr
  top_le : ptr + 2 ^ bits ≤ 2 ^ 64
  free_le : freeIndex ≤ maxFreeIndex bits

/-- The radix of a CNode is a field of six bits. -/
def RadixOk (s : CSpace) : Prop :=
  ∀ p radix guardSize guard ptr, (s p).cap = .cnode radix guardSize guard ptr → radix < 64

/-- The results of the computations of an accepted request, in the order of the source and
without reduction. All are words, but for `freeRef` at the end of the address space. -/
structure Fits (freeIndex bits ptr radix : ℕ) (r : Retype) : Prop where
  objectSize : slotBits + r.userSize < 2 ^ 64
  nodeSize : 1 ≤ 2 ^ radix ∧ 2 ^ radix < 2 ^ 64
  nodeRest : r.destOffset ≤ 2 ^ radix
  nodeEnd : r.destOffset + r.destLength < 2 ^ 64
  freeOffset : freeIndex * 2 ^ minUntypedBits < 2 ^ 64
  freeRef : ptr + freeIndex * 2 ^ minUntypedBits < 2 ^ 64
  blockSize : 2 ^ bits < 2 ^ 64
  untypedFreeBytes : freeIndex * 2 ^ minUntypedBits ≤ 2 ^ bits
  alignment : 1 ≤ 2 ^ getObjectSize r.newType r.userSize ∧
    2 ^ getObjectSize r.newType r.userSize < 2 ^ 64
  alignedFreeRef : ptr + freeIndex * 2 ^ minUntypedBits +
    (2 ^ getObjectSize r.newType r.userSize - 1) < 2 ^ 64
  totalObjectSize : r.destLength * 2 ^ getObjectSize r.newType r.userSize < 2 ^ 64
  newFreeRef : r.retypeBase + r.destLength * 2 ^ getObjectSize r.newType r.userSize ≤ ptr + 2 ^ bits
  newFreeIndex : ptr ≤ r.retypeBase + r.destLength * 2 ^ getObjectSize r.newType r.userSize
  object : ∀ i < r.destLength, i * 2 ^ getObjectSize r.newType r.userSize < 2 ^ 64 ∧
    r.retypeBase + i * 2 ^ getObjectSize r.newType r.userSize < 2 ^ 64
  destSlot : ∀ i < r.destLength, r.destOffset + i < 2 ^ 64

section Fits

variable {slot : CtePtr} {s : CSpace} {r : Retype} {freeIndex bits ptr radix : ℕ}

lemma getObjectSize_capTable {u : ℕ} (hu : u < wordBits) :
    getObjectSize .capTable u = slotBits + u := by
  refine wordAdd_eq ?_
  simp only [slotBits, wordBits] at hu ⊢
  omega

/-- Every object is a multiple of the unit of the free index. -/
lemma min_le_getObjectSize {t : ObjectType} {u : ℕ} (hu : u < wordBits)
    (hmin : t = .untyped → minUntypedBits ≤ u) : minUntypedBits ≤ getObjectSize t u := by
  cases t with
  | untyped => exact hmin rfl
  | capTable =>
      rw [getObjectSize_capTable hu]
      simp only [minUntypedBits, slotBits]
      omega
  | _ => exact of_decide_eq_true rfl

lemma freeIndexOf_le (slot : CtePtr) (freeIndex : ℕ) (s : CSpace) :
    (freeIndexOf slot freeIndex s).1 ≤ freeIndex := by
  unfold freeIndexOf
  split
  · exact le_rfl
  · exact Nat.zero_le _

lemma maxFreeIndex_mul (h : minUntypedBits ≤ bits) :
    maxFreeIndex bits * 2 ^ minUntypedBits = 2 ^ bits := by
  rw [maxFreeIndex, ← pow_add, Nat.sub_add_cancel h]

lemma two_pow_lt {n : ℕ} (h : n ≤ maxUntypedBits) : 2 ^ n < 2 ^ 64 :=
  Nat.pow_lt_pow_right one_lt_two (by simp only [maxUntypedBits] at h; omega)

/-- What is in use of an untyped is a part of it. -/
lemma UntypedOk.offset_le (hok : UntypedOk freeIndex bits ptr) {i : ℕ} (hi : i ≤ freeIndex) :
    i * 2 ^ minUntypedBits ≤ 2 ^ bits := by
  rw [← maxFreeIndex_mul hok.min_le]
  exact Nat.mul_le_mul_right _ (hi.trans hok.free_le)

lemma freeIndexToOffset_eq (hok : UntypedOk freeIndex bits ptr) {i : ℕ} (hi : i ≤ freeIndex) :
    freeIndexToOffset i = i * 2 ^ minUntypedBits :=
  wordShl_eq ((hok.offset_le hi).trans_lt (two_pow_lt hok.le_max))

/-- The request fits into the rest of the region. -/
lemma Accepted.length_mul_le (h : Accepted slot freeIndex bits ptr radix s r)
    (hok : UntypedOk freeIndex bits ptr) :
    (freeIndexOf slot freeIndex s).1 * 2 ^ minUntypedBits +
      r.destLength * 2 ^ getObjectSize r.newType r.userSize ≤ 2 ^ bits := by
  have hbits := two_pow_lt hok.le_max
  have hoffset := hok.offset_le (freeIndexOf_le slot _ s)
  have hroom := h.room
  rw [freeIndexToOffset_eq hok (freeIndexOf_le slot _ s), wordShl_eq (by rwa [one_mul]), one_mul,
    wordSub_eq hoffset hbits, Nat.le_div_iff_mul_le (Nat.two_pow_pos _)] at hroom
  omega

/-- The rounding of the source is one of numbers. -/
lemma alignUp_eq {x n : ℕ} (hn : 2 ^ n < 2 ^ 64) (hx : x + (2 ^ n - 1) < 2 ^ 64) :
    alignUp x n = Bump.roundUp x n := by
  have hpos := Nat.two_pow_pos n
  rw [alignUp, Bump.roundUp, wordShl_eq (by rwa [one_mul]), one_mul, wordSub_eq hpos hn,
    wordAdd_eq hx]

/-- The end of the region is a multiple of the size of the objects. -/
lemma Accepted.dvd_top (h : Accepted slot freeIndex bits ptr radix s r)
    (hok : UntypedOk freeIndex bits ptr) :
    2 ^ getObjectSize r.newType r.userSize ∣ ptr + 2 ^ bits := by
  have hfits := h.length_mul_le hok
  have hmul : 2 ^ getObjectSize r.newType r.userSize ≤
      r.destLength * 2 ^ getObjectSize r.newType r.userSize :=
    Nat.le_mul_of_pos_left _ h.length_pos
  have hle : getObjectSize r.newType r.userSize ≤ bits :=
    (Nat.pow_le_pow_iff_right one_lt_two).mp (by omega)
  have hpow := pow_dvd_pow 2 hle
  exact (Nat.dvd_add_right (hpow.trans hok.aligned)).mpr hpow

/-- **No computation leaves the words**, except that the end of the objects may be the end
of the address space; the objects start at the first multiple of their size. -/
lemma Accepted.fits (h : Accepted slot freeIndex bits ptr radix s r)
    (hok : UntypedOk freeIndex bits ptr) (hradix : RadixOk s) :
    Fits (freeIndexOf slot freeIndex s).1 bits ptr radix r ∧
      r.retypeBase = Bump.roundUp
        (ptr + (freeIndexOf slot freeIndex s).1 * 2 ^ minUntypedBits)
        (getObjectSize r.newType r.userSize) := by
  obtain ⟨guardSize, guard, p, hp⟩ := h.node
  have hdest := h.offset_le
  have hwindow := h.window_le
  have hfits := h.length_mul_le hok
  have hoffset := freeIndexToOffset_eq hok (freeIndexOf_le slot _ s)
  have hsize := two_pow_lt h.size_le
  have hbits := two_pow_lt hok.le_max
  have hbase := h.base_eq
  have hlength := h.length_pos
  have hfan := h.length_le
  have huser := h.userSize_lt
  have htop := hok.top_le
  have hnode : 2 ^ radix < 2 ^ 64 := Nat.pow_lt_pow_right one_lt_two (hradix _ _ _ _ _ hp)
  have hone : 1 ≤ 2 ^ radix := Nat.one_le_two_pow
  rw [wordShl_eq (by rwa [one_mul]), one_mul, wordSub_eq hone hnode] at hdest
  rw [wordShl_eq (by rwa [one_mul]), one_mul, wordSub_eq (by omega) hnode] at hwindow
  have hpow : 1 ≤ 2 ^ getObjectSize r.newType r.userSize := Nat.one_le_two_pow
  have hmul : 2 ^ getObjectSize r.newType r.userSize ≤
      r.destLength * 2 ^ getObjectSize r.newType r.userSize := Nat.le_mul_of_pos_left _ hlength
  have hdvd := h.dvd_top hok
  set size := getObjectSize r.newType r.userSize with hsizeDef
  set free := (freeIndexOf slot freeIndex s).1 with hfreeDef
  -- the aligned start of the objects
  rw [getFreeRef, hoffset, wordAdd_eq (by omega), alignUp_eq hsize (by omega)] at hbase
  have hend := Bump.roundUp_add_le hdvd (x := ptr + free * 2 ^ minUntypedBits)
    (n := r.destLength) (by omega)
  have hstart : ptr + free * 2 ^ minUntypedBits ≤
      Bump.roundUp (ptr + free * 2 ^ minUntypedBits) size := Bump.le_roundUp
  rw [← hbase] at hend hstart
  have hrow : ∀ i < r.destLength, i * 2 ^ size + 2 ^ size ≤ r.destLength * 2 ^ size := by
    intro i hi
    have := Nat.mul_le_mul_right (2 ^ size) hi
    rwa [Nat.succ_mul] at this
  have hfanout : r.destLength < 2 ^ 64 := by
    simp only [retypeFanOutLimit] at hfan
    omega
  have huser' : slotBits + r.userSize < 2 ^ 64 := by
    simp only [slotBits, wordBits] at huser ⊢
    omega
  have hround : ptr + free * 2 ^ minUntypedBits + (2 ^ size - 1) < 2 ^ 64 := by omega
  have htotal : r.destLength * 2 ^ size < 2 ^ 64 := by omega
  have hobject : ∀ i < r.destLength,
      i * 2 ^ size < 2 ^ 64 ∧ r.retypeBase + i * 2 ^ size < 2 ^ 64 := by
    intro i hi
    have := hrow i hi
    omega
  refine ⟨?_, hbase⟩
  exact
    { objectSize := huser'
      nodeSize := ⟨hone, hnode⟩
      nodeRest := by omega
      nodeEnd := by omega
      freeOffset := by omega
      freeRef := by omega
      blockSize := hbits
      untypedFreeBytes := by omega
      alignment := ⟨hpow, hsize⟩
      alignedFreeRef := hround
      totalObjectSize := htotal
      newFreeRef := hend
      newFreeIndex := by omega
      object := hobject
      destSlot := fun i hi => by omega }

end Fits

/-! ### What a retype does -/

/-- The blocks of the objects that a request makes, as `createNewObjects` computes them. -/
def Retype.objects (r : Retype) : List Bump.Block :=
  (List.range r.destLength).map fun i =>
    ⟨wordAdd r.retypeBase (wordShl i (getObjectSize r.newType r.userSize)),
      getObjectSize r.newType r.userSize⟩

section Invoke

variable {slot p : CtePtr} {s : CSpace} {r : Retype} {preempt : ℕ → Bool}
  {freeIndex bits ptr radix : ℕ} {isDevice : Bool}

lemma Fits.objects_eq (h : Fits freeIndex bits ptr radix r) :
    r.objects = Bump.row r.retypeBase (getObjectSize r.newType r.userSize) r.destLength := by
  refine List.map_congr_left fun i hi => ?_
  obtain ⟨hshl, hadd⟩ := h.object i (List.mem_range.mp hi)
  rw [wordShl_eq hshl, wordAdd_eq hadd]

/-- The free index is right, also where the end of the objects is the end of the address
space and its word is zero. -/
lemma Fits.newFreeIndex_eq (h : Fits freeIndex bits ptr radix r) (htop : ptr + 2 ^ bits ≤ 2 ^ 64) :
    getFreeIndex ptr (wordAdd r.retypeBase
      (wordShl r.destLength (getObjectSize r.newType r.userSize))) =
      (r.retypeBase + r.destLength * 2 ^ getObjectSize r.newType r.userSize - ptr) /
        2 ^ minUntypedBits := by
  have hle := h.newFreeRef
  have hge := h.newFreeIndex
  have hbits := h.blockSize
  rw [getFreeIndex, wordShl_eq h.totalObjectSize, wordAdd, wordSub]
  congr 1
  omega

lemma cap_setFreeIndex_self {i : ℕ} (h : (s slot).cap = .untyped freeIndex isDevice bits ptr) :
    (setFreeIndex slot i s slot).cap = .untyped i isDevice bits ptr := by
  rw [setFreeIndex, h]
  simp

lemma cap_setFreeIndex_of_ne {i : ℕ} (hp : p ≠ slot) :
    (setFreeIndex slot i s p).cap = (s p).cap := by
  rw [setFreeIndex]
  cases (s slot).cap with
  | untyped => exact CSpace.cap_setCap.trans (if_neg hp)
  | _ => rfl

/-- The loop of the reset, if it ends and if it does not. -/
lemma resetLoop_spec (preempt : ℕ → Bool) : ∀ (chunk : ℕ) {s : CSpace} {freeIndex : ℕ},
    (s slot).cap = .untyped freeIndex isDevice bits ptr →
    ∃ i, ((resetLoop slot preempt chunk s).2 slot).cap = .untyped i isDevice bits ptr ∧
      i ≤ chunk * 2 ^ resetChunkBits / 2 ^ minUntypedBits ∧
      ((resetLoop slot preempt chunk s).1 = true → i = 0) ∧
      ∀ p, p ≠ slot → ((resetLoop slot preempt chunk s).2 p).cap = (s p).cap := by
  intro chunk
  induction chunk with
  | zero =>
      intro s freeIndex h
      exact ⟨0, cap_setFreeIndex_self h, Nat.zero_le _, fun _ => rfl,
        fun p hp => cap_setFreeIndex_of_ne hp⟩
  | succ chunk ih =>
      intro s freeIndex h
      rw [resetLoop]
      split_ifs with hpreempt
      · exact ⟨_, cap_setFreeIndex_self h, le_rfl, nofun, fun p hp => cap_setFreeIndex_of_ne hp⟩
      · obtain ⟨i, hcap, hle, hdone, hsame⟩ := ih (cap_setFreeIndex_self h)
        refine ⟨i, hcap, hle.trans (Nat.div_le_div_right (Nat.mul_le_mul_right _ (Nat.le_succ _))),
          hdone, fun p hp => ?_⟩
        rw [hsame p hp, cap_setFreeIndex_of_ne hp]

/-- A reset lowers the free index, to zero if it is not preempted. -/
lemma resetUntypedCap_spec (preempt : ℕ → Bool) (hok : UntypedOk freeIndex bits ptr)
    (h : (s slot).cap = .untyped freeIndex isDevice bits ptr) :
    ∃ i, ((resetUntypedCap slot preempt s).2 slot).cap = .untyped i isDevice bits ptr ∧
      i ≤ freeIndex ∧ ((resetUntypedCap slot preempt s).1 = true → i = 0) ∧
      ∀ p, p ≠ slot → ((resetUntypedCap slot preempt s).2 p).cap = (s p).cap := by
  unfold resetUntypedCap
  simp only [h]
  have hoffset := freeIndexToOffset_eq hok le_rfl
  split_ifs with hzero hsmall
  · refine ⟨freeIndex, h, le_rfl, fun _ => ?_, fun _ _ => rfl⟩
    rw [hoffset] at hzero
    exact (Nat.mul_eq_zero.mp hzero).resolve_right (by decide)
  · exact ⟨0, cap_setFreeIndex_self h, Nat.zero_le _, fun _ => rfl,
      fun p hp => cap_setFreeIndex_of_ne hp⟩
  · obtain ⟨i, hcap, hle, hdone, hsame⟩ := resetLoop_spec preempt
      ((freeIndexToOffset freeIndex - 1) / 2 ^ resetChunkBits) h
    refine ⟨i, hcap, hle.trans ?_, hdone, hsame⟩
    rw [hoffset] at hzero ⊢
    simp only [resetChunkBits, minUntypedBits] at hzero ⊢
    omega

lemma cap_insertNewCap {parent : CtePtr} {cap : Cap} :
    (insertNewCap parent slot cap s p).cap = if p = slot then cap else (s p).cap := by
  simp only [insertNewCap, CSpace.cap_setNext, CSpace.cap_whenSome_setPrev, CSpace.cap_setNode,
    CSpace.cap_setCap]

/-- Slots outside the window keep their caps. -/
lemma cap_createLoop_of_ne {n : ℕ} : ∀ {i : ℕ} {s : CSpace},
    (∀ k, i ≤ k → k < i + n → p ≠ ⟨r.destCNode, wordAdd r.destOffset k⟩) →
    (createLoop r slot i n s p).cap = (s p).cap := by
  induction n with
  | zero => exact fun _ => rfl
  | succ n ih =>
      intro i s hp
      rw [createLoop]
      rw [ih fun k hk hlt => hp k (by omega) (by omega), cap_insertNewCap,
        if_neg (hp i le_rfl (by omega))]

/-- Every cap is an old one or that of a new object. -/
lemma cap_createLoop (r : Retype) (slot p : CtePtr) (n : ℕ) : ∀ (i : ℕ) (s : CSpace),
    (createLoop r slot i n s p).cap = (s p).cap ∨
      ∃ base, (createLoop r slot i n s p).cap =
        createObject r.newType base r.userSize r.deviceMemory := by
  induction n with
  | zero => exact fun _ _ => .inl rfl
  | succ n ih =>
      intro i s
      rw [createLoop]
      rcases ih (i + 1) _ with hold | hnew
      · rw [hold, cap_insertNewCap]
        split_ifs
        · exact .inr ⟨_, rfl⟩
        · exact .inl rfl
      · exact .inr hnew

/-- The slots of the window hold the caps of the new objects, in this order. -/
lemma cap_createLoop_self {n : ℕ} : ∀ {i : ℕ} {s : CSpace},
    (∀ k, k < i + n → r.destOffset + k < 2 ^ 64) → ∀ k, i ≤ k → k < i + n →
    (createLoop r slot i n s ⟨r.destCNode, r.destOffset + k⟩).cap =
      createObject r.newType
        (wordAdd r.retypeBase (wordShl k (getObjectSize r.newType r.userSize)))
        r.userSize r.deviceMemory := by
  induction n with
  | zero => exact fun _ k hk hlt => absurd hlt (not_lt.mpr hk)
  | succ n ih =>
      intro i s hword k hk hlt
      rw [createLoop]
      rcases hk.eq_or_lt with rfl | hk
      · rw [cap_createLoop_of_ne, cap_insertNewCap, wordAdd_eq (hword i (by omega)), if_pos rfl]
        intro k hk' hlt' heq
        rw [wordAdd_eq (hword k (by omega)), CtePtr.mk.injEq] at heq
        omega
      · exact ih (fun k hk => hword k (by omega)) k hk (by omega)

lemma radixOk_createLoop {n i : ℕ} (h : RadixOk s) (huser : r.userSize < wordBits) :
    RadixOk (createLoop r slot i n s) := by
  intro p radix guardSize guard ptr hp
  rcases cap_createLoop r slot p n i s with
    hold | ⟨base, hnew⟩
  · exact h p radix guardSize guard ptr (hold ▸ hp)
  · rw [hnew] at hp
    cases ht : r.newType <;> rw [ht] at hp <;> cases hp
    exact huser

/-- Only the cap of the untyped differs, in its free index. -/
structure OnlyIndex (slot : CtePtr) (isDevice : Bool) (bits ptr index : ℕ) (s s' : CSpace) :
    Prop where
  cap_eq : (s' slot).cap = .untyped index isDevice bits ptr
  others : ∀ p, p ≠ slot → (s' p).cap = (s p).cap

lemma OnlyIndex.setFreeIndex {s' : CSpace} {index i : ℕ}
    (h : OnlyIndex slot isDevice bits ptr index s s') :
    OnlyIndex slot isDevice bits ptr i s (setFreeIndex slot i s') :=
  ⟨cap_setFreeIndex_self h.cap_eq, fun p hp => (cap_setFreeIndex_of_ne hp).trans (h.others p hp)⟩

lemma OnlyIndex.radixOk {s' : CSpace} {index : ℕ}
    (h : OnlyIndex slot isDevice bits ptr index s s') (hradix : RadixOk s) : RadixOk s' := by
  intro p radix guardSize guard ptr' hp
  rcases eq_or_ne p slot with rfl | hne
  · rw [h.cap_eq] at hp
    cases hp
  · rw [h.others p hne] at hp
    exact hradix p _ _ _ _ hp

/-- The window is empty, so the slot of the untyped is not in it. -/
lemma Accepted.slot_ne (ha : Accepted slot freeIndex bits ptr radix s r)
    (h : (s slot).cap ≠ .null) (hfits : ∀ i < r.destLength, r.destOffset + i < 2 ^ 64) {k : ℕ}
    (hk : k < 0 + r.destLength) : slot ≠ ⟨r.destCNode, wordAdd r.destOffset k⟩ := by
  intro heq
  rw [Nat.zero_add] at hk
  rw [wordAdd_eq (hfits k hk)] at heq
  exact h (heq ▸ ha.empty k hk)

/-- What the second part leaves behind. -/
lemma retypeObjects_spec {s' : CSpace} {index : ℕ} (ha : Accepted slot freeIndex bits ptr radix s r)
    (hok : UntypedOk freeIndex bits ptr) (hradix : RadixOk s) (h : (s slot).cap ≠ .null)
    (h' : OnlyIndex slot isDevice bits ptr index s s') :
    ∃ i, (retypeObjects slot r ptr s' slot).cap = .untyped i isDevice bits ptr ∧
      RadixOk (retypeObjects slot r ptr s') ∧
      ptr + i * 2 ^ minUntypedBits =
        r.retypeBase + r.destLength * 2 ^ getObjectSize r.newType r.userSize := by
  obtain ⟨hfits, hbase⟩ := ha.fits hok hradix
  have hset := h'.setFreeIndex (i := getFreeIndex ptr (wordAdd r.retypeBase
    (wordShl r.destLength (getObjectSize r.newType r.userSize))))
  refine ⟨getFreeIndex ptr (wordAdd r.retypeBase
    (wordShl r.destLength (getObjectSize r.newType r.userSize))), ?_,
    radixOk_createLoop (hset.radixOk hradix) ha.userSize_lt, ?_⟩
  · rw [retypeObjects, createNewObjects,
      cap_createLoop_of_ne fun k _ hk => ha.slot_ne h hfits.destSlot hk, hset.cap_eq]
  · have hunit : 2 ^ minUntypedBits ∣ 2 ^ getObjectSize r.newType r.userSize :=
      pow_dvd_pow 2 (min_le_getObjectSize ha.userSize_lt ha.min_le)
    have hdvd : 2 ^ minUntypedBits ∣
        r.retypeBase + r.destLength * 2 ^ getObjectSize r.newType r.userSize - ptr := by
      refine Nat.dvd_sub (dvd_add ?_ (Dvd.dvd.mul_left hunit _)) ?_
      · rw [hbase]
        exact hunit.trans Bump.dvd_roundUp
      · exact (pow_dvd_pow 2 hok.min_le).trans hok.aligned
    rw [hfits.newFreeIndex_eq hok.top_le, Nat.div_mul_cancel hdvd]
    have := hfits.newFreeIndex
    omega

/-- **A retype** that is preempted has lowered the free index in a reset; one that is not has
moved it behind the new objects. -/
lemma invokeUntypedRetype_spec (preempt : ℕ → Bool)
    (ha : Accepted slot freeIndex bits ptr radix s r)
    (hok : UntypedOk freeIndex bits ptr) (hradix : RadixOk s)
    (h : (s slot).cap = .untyped freeIndex isDevice bits ptr) :
    ∃ i, ((invokeUntypedRetype slot r preempt s).2 slot).cap = .untyped i isDevice bits ptr ∧
      RadixOk (invokeUntypedRetype slot r preempt s).2 ∧
      ((invokeUntypedRetype slot r preempt s).1 = false → r.reset = true ∧ i ≤ freeIndex) ∧
      ((invokeUntypedRetype slot r preempt s).1 = true →
        ptr + i * 2 ^ minUntypedBits =
          r.retypeBase + r.destLength * 2 ^ getObjectSize r.newType r.userSize) := by
  have hne : (s slot).cap ≠ .null := by
    rw [h]
    exact nofun
  have hbase : regionBase slot s = ptr := by rw [regionBase, h, Cap.capPtr]
  unfold invokeUntypedRetype
  rw [hbase]
  by_cases hreset : r.reset = true
  · obtain ⟨j, hcap, hj, -, hsame⟩ := resetUntypedCap_spec preempt hok h
    rw [if_pos hreset]
    rcases hres : resetUntypedCap slot preempt s with ⟨done, s'⟩
    rw [hres] at hcap hsame
    have honly : OnlyIndex slot isDevice bits ptr j s s' := ⟨hcap, hsame⟩
    cases done with
    | false => exact ⟨j, hcap, honly.radixOk hradix, fun _ => ⟨hreset, hj⟩, nofun⟩
    | true =>
        obtain ⟨i, hi, hradix', heq⟩ := retypeObjects_spec ha hok hradix hne honly
        exact ⟨i, hi, hradix', nofun, fun _ => heq⟩
  · rw [if_neg hreset]
    have honly : OnlyIndex slot isDevice bits ptr freeIndex s s := ⟨h, fun _ _ => rfl⟩
    obtain ⟨i, hi, hradix', heq⟩ := retypeObjects_spec ha hok hradix hne honly
    exact ⟨i, hi, hradix', nofun, fun _ => heq⟩

end Invoke

/-! ### Runs -/

/-- The slots, and the blocks of the objects that were created since the last reset. -/
structure RetypeState where
  cspace : CSpace
  created : List Bump.Block

/-- A request, or anything else that happens to the slots. -/
inductive RetypeOp
  | retype (call : UntypedCall) (preempt : ℕ → Bool)
  | other (s : CSpace)

namespace RetypeOp

/-- A request that is rejected changes nothing. -/
def run (slot : CtePtr) (σ : RetypeState) : RetypeOp → Option RetypeState
  | retype call preempt =>
      match decodeUntypedInvocation call slot (σ.cspace slot).cap σ.cspace with
      | .error _ => some σ
      | .ok r =>
          let res := invokeUntypedRetype slot r preempt σ.cspace
          some
            { cspace := res.2
              created := (if r.reset then [] else σ.created) ++ if res.1 then r.objects else [] }
  | other s => some { σ with cspace := s }

/-- What else happens keeps the untyped cap, or fills it up, as a copy of it does. -/
def Ok (slot : CtePtr) (σ : RetypeState) : RetypeOp → Prop
  | retype _ _ => True
  | other s =>
      RadixOk s ∧
        match (σ.cspace slot).cap with
        | .untyped freeIndex isDevice bits ptr =>
            (s slot).cap = .untyped freeIndex isDevice bits ptr ∨
              (s slot).cap = .untyped (maxFreeIndex bits) isDevice bits ptr
        | _ => False

/-- No request that is accepted resets the untyped. -/
def NoReset (slot : CtePtr) (σ : RetypeState) (op : RetypeOp) : Prop :=
  op.Ok slot σ ∧
    match op with
    | retype call _ => ∀ r,
        decodeUntypedInvocation call slot (σ.cspace slot).cap σ.cspace = .ok r → r.reset = false
    | other _ => True

end RetypeOp

/-- The untyped in the slot, and what was created in it. -/
structure RetypeInv (slot : CtePtr) (isDevice : Bool) (bits ptr freeIndex : ℕ) (σ : RetypeState) :
    Prop where
  cap_eq : (σ.cspace slot).cap = .untyped freeIndex isDevice bits ptr
  ok : UntypedOk freeIndex bits ptr
  radixOk : RadixOk σ.cspace
  packed : Bump.Packed ptr (ptr + freeIndex * 2 ^ minUntypedBits) σ.created

section Run

variable {slot : CtePtr} {isDevice : Bool} {bits ptr radix freeIndex : ℕ} {σ σ' : RetypeState}

lemma freeIndexOf_eq (slot : CtePtr) (freeIndex : ℕ) (s : CSpace) :
    freeIndexOf slot freeIndex s = (freeIndex, false) ∨
      freeIndexOf slot freeIndex s = (0, true) := by
  unfold freeIndexOf
  split
  · exact .inl rfl
  · exact .inr rfl

/-- The blocks of a request are those of a bump allocation above what is in use. -/
lemma Accepted.serve {s : CSpace} {r : Retype} {blocks : List Bump.Block}
    (ha : Accepted slot freeIndex bits ptr radix s r) (hok : UntypedOk freeIndex bits ptr)
    (hradix : RadixOk s)
    (hblocks : Bump.Packed ptr
      (ptr + (freeIndexOf slot freeIndex s).1 * 2 ^ minUntypedBits) blocks) :
    Bump.Packed ptr (r.retypeBase + r.destLength * 2 ^ getObjectSize r.newType r.userSize)
        (blocks ++ r.objects) ∧
      ptr + (freeIndexOf slot freeIndex s).1 * 2 ^ minUntypedBits ≤
        r.retypeBase + r.destLength * 2 ^ getObjectSize r.newType r.userSize ∧
      r.retypeBase + r.destLength * 2 ^ getObjectSize r.newType r.userSize ≤ ptr + 2 ^ bits := by
  obtain ⟨hfits, hbase⟩ := ha.fits hok hradix
  have hroom := ha.length_mul_le hok
  rw [hfits.objects_eq, hbase]
  exact hblocks.serve (Nat.le_add_right _ _) (ha.dvd_top hok) (by omega)

/-- What a step preserves, and how the free index moves if it is no reset. -/
lemma retype_step {op : RetypeOp} (h : RetypeInv slot isDevice bits ptr freeIndex σ)
    (hgood : op.Ok slot σ) (hrun : op.run slot σ = some σ') :
    ∃ i, RetypeInv slot isDevice bits ptr i σ' ∧ (op.NoReset slot σ → freeIndex ≤ i) := by
  have hunit : 0 < 2 ^ minUntypedBits := Nat.two_pow_pos _
  have hmax := maxFreeIndex_mul h.ok.min_le
  cases op with
  | other s =>
      obtain rfl := Option.some.inj hrun
      obtain ⟨hradix, hcap⟩ := hgood
      rw [h.cap_eq] at hcap
      rcases hcap with hcap | hcap
      · exact ⟨freeIndex, ⟨hcap, h.ok, hradix, h.packed⟩, fun _ => le_rfl⟩
      · have hle := h.ok.free_le
        refine ⟨maxFreeIndex bits, ⟨hcap, { h.ok with free_le := le_rfl }, hradix, ?_⟩, fun _ => hle⟩
        exact h.packed.mono (Nat.add_le_add_left (Nat.mul_le_mul_right _ hle) _)
  | retype call preempt =>
      rw [RetypeOp.run, h.cap_eq] at hrun
      split at hrun
      · obtain rfl := Option.some.inj hrun
        exact ⟨freeIndex, h, fun _ => le_rfl⟩
      · rename_i r hdecode
        obtain rfl := Option.some.inj hrun
        obtain ⟨radix, -, ha⟩ := decodeUntypedInvocation_spec hdecode
        obtain ⟨i, hcap, hradix, hstopped, hdone⟩ :=
          invokeUntypedRetype_spec preempt ha h.ok h.radixOk h.cap_eq
        have hreset := ha.reset_eq
        cases hres : (invokeUntypedRetype slot r preempt σ.cspace).1 with
        | false =>
            -- preempted in a reset, so nothing is there and nothing was created
            obtain ⟨hr, hi⟩ := hstopped hres
            refine ⟨i, ⟨hcap, { h.ok with free_le := hi.trans h.ok.free_le }, hradix, ?_⟩, ?_⟩
            · simpa [hr] using Bump.Packed.nil
            · rintro ⟨-, hno⟩
              rw [hno r (h.cap_eq ▸ hdecode)] at hr
              cases hr
        | true =>
            have hstop := hdone hres
            have hold : Bump.Packed ptr
                (ptr + (freeIndexOf slot freeIndex σ.cspace).1 * 2 ^ minUntypedBits)
                (if r.reset then [] else σ.created) := by
              rcases freeIndexOf_eq slot freeIndex σ.cspace with hkept | hzero
              · rw [hreset, hkept]
                exact h.packed
              · rw [hreset, hzero]
                exact .nil
            obtain ⟨hpacked, hgrows, hle⟩ := ha.serve h.ok h.radixOk hold
            rw [← hstop] at hpacked hgrows hle
            have hi : i ≤ maxFreeIndex bits := by
              refine Nat.le_of_mul_le_mul_right ?_ hunit
              rw [hmax]
              omega
            refine ⟨i, ⟨hcap, { h.ok with free_le := hi }, hradix, ?_⟩, ?_⟩
            · simpa [hres] using hpacked
            · rintro ⟨-, hno⟩
              have hkeep := hno r (h.cap_eq ▸ hdecode)
              rcases freeIndexOf_eq slot freeIndex σ.cspace with hkept | hzero
              · rw [hkept] at hgrows
                exact Nat.le_of_mul_le_mul_right (Nat.le_of_add_le_add_left hgrows) hunit
              · rw [hreset, hzero] at hkeep
                cases hkeep

/-- A run keeps the invariant. -/
lemma retypeInv_run {ops : List RetypeOp} (h : RetypeInv slot isDevice bits ptr freeIndex σ)
    (hrun : Exec.Runs (Exec.Guarded (RetypeOp.Ok slot) (Exec.OfFun (RetypeOp.run slot))) σ ops σ') :
    ∃ i, RetypeInv slot isDevice bits ptr i σ' := by
  refine hrun.invariant (fun σ => ∃ i, RetypeInv slot isDevice bits ptr i σ) ?_ ⟨freeIndex, h⟩
  rintro σ₁ op σ₂ ⟨i, hi⟩ ⟨hgood, hstep⟩
  obtain ⟨j, hj, -⟩ := retype_step hi hgood hstep
  exact ⟨j, hj⟩

/-- Without a reset the free index does not decrease. -/
lemma freeIndex_mono {ops : List RetypeOp} (h : RetypeInv slot isDevice bits ptr freeIndex σ)
    (hrun : Exec.Runs (Exec.Guarded (RetypeOp.NoReset slot) (Exec.OfFun (RetypeOp.run slot)))
      σ ops σ') :
    ∃ i, RetypeInv slot isDevice bits ptr i σ' ∧ freeIndex ≤ i := by
  refine hrun.invariant (fun σ => ∃ i, RetypeInv slot isDevice bits ptr i σ ∧ freeIndex ≤ i) ?_
    ⟨freeIndex, h, le_rfl⟩
  rintro σ₁ op σ₂ ⟨i, hi, hle⟩ ⟨hgood, hstep⟩
  obtain ⟨j, hj, hmono⟩ := retype_step hi hgood.1 hstep
  exact ⟨j, hj, hle.trans (hmono hgood)⟩

/-- **Retype is safe** over whole runs of requests on an untyped, with any other events in
between. All objects created since the last reset lie in its region, are aligned and are
apart from each other; the free index stays in the region and does not decrease until the
next reset. No computation of an accepted request leaves the words, except that the end of
the new objects is `2 ^ 64` if the request fills an untyped that ends there; the free index
is right all the same. The slots of the window hold the caps of the new objects. -/
theorem retype_run {ops : List RetypeOp} (h : RetypeInv slot isDevice bits ptr freeIndex σ)
    (hrun : Exec.Runs (Exec.Guarded (RetypeOp.Ok slot) (Exec.OfFun (RetypeOp.run slot))) σ ops σ') :
    ∃ i, (σ'.cspace slot).cap = .untyped i isDevice bits ptr ∧ i ≤ maxFreeIndex bits ∧
      Bump.Packed ptr (ptr + 2 ^ bits) σ'.created ∧
      (∀ ops' σ'' j,
        Exec.Runs (Exec.Guarded (RetypeOp.NoReset slot) (Exec.OfFun (RetypeOp.run slot)))
          σ' ops' σ'' →
        (σ''.cspace slot).cap = .untyped j isDevice bits ptr → i ≤ j) ∧
      ∀ call r, decodeUntypedInvocation call slot (σ'.cspace slot).cap σ'.cspace = .ok r →
        (∃ radix, call.Node radix r.destCNode σ'.cspace ∧
          Fits (freeIndexOf slot i σ'.cspace).1 bits ptr radix r) ∧
        getFreeIndex ptr (wordAdd r.retypeBase
          (wordShl r.destLength (getObjectSize r.newType r.userSize))) =
          (r.retypeBase + r.destLength * 2 ^ getObjectSize r.newType r.userSize - ptr) /
            2 ^ minUntypedBits ∧
        ∀ base s k, k < r.destLength →
          (retypeObjects slot r base s ⟨r.destCNode, r.destOffset + k⟩).cap =
            createObject r.newType
              (r.retypeBase + k * 2 ^ getObjectSize r.newType r.userSize) r.userSize
              r.deviceMemory := by
  obtain ⟨i, hi⟩ := retypeInv_run h hrun
  have hle := hi.ok.offset_le le_rfl
  refine ⟨i, hi.cap_eq, hi.ok.free_le, hi.packed.mono (by omega), ?_, ?_⟩
  · intro ops' σ'' j hrun' hj
    obtain ⟨k, hk, hik⟩ := freeIndex_mono hi hrun'
    have hcap := hk.cap_eq
    rw [hj] at hcap
    cases hcap
    exact hik
  · intro call r hdecode
    rw [hi.cap_eq] at hdecode
    obtain ⟨radix, hnode, ha⟩ := decodeUntypedInvocation_spec hdecode
    obtain ⟨hfits, -⟩ := ha.fits hi.ok hi.radixOk
    refine ⟨⟨radix, hnode, hfits⟩, hfits.newFreeIndex_eq hi.ok.top_le, fun base s k hk => ?_⟩
    obtain ⟨hshl, hadd⟩ := hfits.object k hk
    rw [retypeObjects, createNewObjects, cap_createLoop_self
      (fun k hk => hfits.destSlot k (by omega)) k (Nat.zero_le k) (by omega), wordShl_eq hshl,
      wordAdd_eq hadd]

end Run

/-- A CNode of 16 slots with its own cap and one untyped that has just been handed out. -/
def untypedSpace (isDevice : Bool) (bits ptr : ℕ) : CSpace :=
  Function.update (singleCap ⟨0, 0⟩ (.cnode 4 60 0 0)) ⟨0, 1⟩
    ⟨.untyped (maxFreeIndex bits) isDevice bits ptr, ⟨none, none, true, true⟩⟩

lemma radixOk_untypedSpace {isDevice : Bool} {bits ptr : ℕ} :
    RadixOk (untypedSpace isDevice bits ptr) := by
  intro p radix guardSize guard ptr' hp
  rw [untypedSpace, Function.update_apply] at hp
  split_ifs at hp
  rw [singleCap, Function.update_apply] at hp
  split_ifs at hp
  cases hp
  decide

/-- Three endpoints and then a page of an untyped of 64 KiB. -/
def endpointsAndPage : List RetypeOp :=
  [.retype ⟨.UntypedRetype, 6, ([2, 0, 0, 0, 2, 3].getD · 0), [⟨0, 0⟩]⟩ fun _ => false,
    .retype ⟨.UntypedRetype, 6, ([7, 0, 0, 0, 5, 1].getD · 0), [⟨0, 0⟩]⟩ fun _ => false]

/-- The run of the two: the page starts at the next multiple of its size. -/
theorem retype_run_page : ∃ σ',
    Exec.Runs (Exec.Guarded (RetypeOp.Ok ⟨0, 1⟩) (Exec.OfFun (RetypeOp.run ⟨0, 1⟩)))
      ⟨untypedSpace false 16 (2 ^ 20), []⟩ endpointsAndPage σ' ∧
    σ'.created = [⟨2 ^ 20, 4⟩, ⟨2 ^ 20 + 16, 4⟩, ⟨2 ^ 20 + 32, 4⟩, ⟨2 ^ 20 + 4096, 12⟩] ∧
    Bump.Packed (2 ^ 20) (2 ^ 20 + 2 ^ 16) σ'.created := by
  have hcreated : (Exec.runFun (fun _ op => match op with
      | .retype _ _ => true
      | .other _ => false) (RetypeOp.run ⟨0, 1⟩) ⟨untypedSpace false 16 (2 ^ 20), []⟩
      endpointsAndPage).map RetypeState.created =
      some [⟨2 ^ 20, 4⟩, ⟨2 ^ 20 + 16, 4⟩, ⟨2 ^ 20 + 32, 4⟩, ⟨2 ^ 20 + 4096, 12⟩] := by
    decide +kernel
  obtain ⟨σ', hσ', hcreated⟩ := Option.map_eq_some_iff.mp hcreated
  have hrun := Exec.runs_of_runFun (RetypeOp.Ok ⟨0, 1⟩) (fun σ op hop => by
    cases op with
    | retype => trivial
    | other => cases hop) hσ'
  have hinv : RetypeInv ⟨0, 1⟩ false 16 (2 ^ 20) (maxFreeIndex 16)
      ⟨untypedSpace false 16 (2 ^ 20), []⟩ :=
    ⟨rfl, ⟨by decide, by decide, by decide, by decide, le_rfl⟩, radixOk_untypedSpace, .nil⟩
  obtain ⟨i, -, -, hpacked, -⟩ := retype_run hinv hrun
  exact ⟨σ', hrun, hcreated, hpacked⟩

/-- **The end of the address space**: a request for one untyped that fills a device untyped
whose region ends at `2 ^ 64` is accepted, and the sum of its base and its size is no word. -/
theorem retype_to_the_end :
    UntypedOk (maxFreeIndex 38) 38 (2 ^ 64 - 2 ^ 38) ∧
    RadixOk (untypedSpace true 38 (2 ^ 64 - 2 ^ 38)) ∧
    ∃ call r, decodeUntypedInvocation call ⟨0, 1⟩
        (.untyped (maxFreeIndex 38) true 38 (2 ^ 64 - 2 ^ 38))
        (untypedSpace true 38 (2 ^ 64 - 2 ^ 38)) = .ok r ∧
      ¬ r.retypeBase + r.destLength * 2 ^ getObjectSize r.newType r.userSize < 2 ^ 64 := by
  refine ⟨⟨by decide, by decide, by decide, by decide, le_rfl⟩, radixOk_untypedSpace,
    ⟨.UntypedRetype, 6, ([0, 38, 0, 0, 2, 1].getD · 0), [⟨0, 0⟩]⟩,
    ⟨true, 2 ^ 64 - 2 ^ 38, .untyped, 38, 0, 2, 1, true⟩, rfl, by decide⟩

end Kernel
