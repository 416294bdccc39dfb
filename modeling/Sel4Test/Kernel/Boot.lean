import Mathlib.Tactic

/-!
The address space of the initial thread: `try_init_kernel` of
`src/arch/arm/kernel/boot.c` and the mapping functions of
`src/arch/arm/64/kernel/vspace.c`.

The virtual addresses of the user image, the IPC buffer, the boot info and the extra
boot info follow each other. The six HyperAMP queue pages and the window of 4 MiB come
after them, at addresses that are computed from `extra_bi_size_bits`, the *exponent* of
the size of the extra boot info, where its power is meant, and `it_v_reg` leaves one
page beside the window where the queues and the gap take ten. Words are numbers below
`2 ^ 64`, and sums and differences wrap around.

* `tryInitKernel`: the checks, the tables and the mappings.
* `calculateExtraBiSizeBits_spec`: the exponent covers the size and is the least one
  from a page on.
* `BootArgs.shmTxQueueVaddr_eq`: the queues start two pages after the extra boot info,
  whatever its size.
-/

namespace Kernel

/-! ### Words -/

/-- `BIT(PAGE_BITS)`, which is also `BIT(seL4_BootInfoFrameBits)`. -/
def pageSize : ℕ := 2 ^ 12

/-- The sum of two words. -/
def wadd (a b : ℕ) : ℕ := (a + b) % 2 ^ 64

/-- The difference of two words. -/
def wsub (a b : ℕ) : ℕ := (a + (2 ^ 64 - b)) % 2 ^ 64

/-- `ROUND_DOWN(n, b)`. -/
def roundDown (n b : ℕ) : ℕ := n / 2 ^ b * 2 ^ b

/-- `ROUND_UP(n, b)`, of a word other than zero. -/
def roundUp (n b : ℕ) : ℕ := ((n - 1) / 2 ^ b + 1) * 2 ^ b % 2 ^ 64

/-- `clzl`. -/
def clzl (x : ℕ) : ℕ := if x = 0 then 64 else 63 - Nat.log 2 x

/-- `calculate_extra_bi_size_bits`. -/
def calculateExtraBiSizeBits (extraSize : ℕ) : ℕ :=
  if extraSize = 0 then 0
  else
    let msb := 64 - 1 - clzl (roundUp extraSize 12)
    if extraSize > 2 ^ msb then msb + 1 else msb

/-! ### The layout -/

/-- The three ways in which AArch64 is configured: no hypervisor, or a hypervisor with
44 or 40 bits of physical addresses. The last has three levels of tables. -/
inductive Config
  | el1
  | hyp44
  | hyp40
deriving DecidableEq, Repr

/-- `USER_TOP`. -/
def Config.userTop : Config → ℕ
  | .el1 => 0x00007fffffffffff
  | .hyp44 => 0x00000fffffffffff
  | .hyp40 => 0x000000ffffffffff

/-- `PPTR_BASE_OFFSET`. -/
def Config.pptrBaseOffset : Config → ℕ
  | .el1 => 0xffffff8000000000
  | .hyp44 => 0x0000008000000000
  | .hyp40 => 0x0000008000000000

/-- `PADDR_TOP`, the same in all configurations. -/
def paddrTop : ℕ := 0x7fc0000000

/-- `SHM_DATA_SIZE`. -/
def shmDataSize : ℕ := 4 * 1024 * 1024

/-- `sizeof(seL4_BootInfoHeader)`. -/
def bootInfoHeaderSize : ℕ := 16

/-- The arguments of `try_init_kernel` that the layout depends on, and the place
`rootserver.extra_bi` that `arch_init_freemem` finds for the extra boot info. All are
words; `pv_offset` is signed and stands for its bit pattern. -/
structure BootArgs where
  uiPRegStart : ℕ
  uiPRegEnd : ℕ
  pvOffset : ℕ
  dtbPhysAddr : ℕ
  dtbSize : ℕ
  extraBi : ℕ
  words : uiPRegStart < 2 ^ 64 ∧ uiPRegEnd < 2 ^ 64 ∧ pvOffset < 2 ^ 64 ∧ dtbPhysAddr < 2 ^ 64 ∧
    dtbSize < 2 ^ 64 ∧ extraBi < 2 ^ 64

/-- `v_region_t` and `region_t`. -/
structure Region where
  start : ℕ
  stop : ℕ
deriving DecidableEq, Repr

namespace BootArgs

variable (a : BootArgs)

/-- `ui_v_reg`. -/
def uiVReg : Region := ⟨wsub a.uiPRegStart a.pvOffset, wsub a.uiPRegEnd a.pvOffset⟩

/-- `ui_reg`, the user image in the kernel window. -/
def uiReg (cfg : Config) : Region :=
  ⟨wadd a.uiPRegStart cfg.pptrBaseOffset, wadd a.uiPRegEnd cfg.pptrBaseOffset⟩

def ipcbufVptr : ℕ := a.uiVReg.stop

def biFrameVptr : ℕ := wadd a.ipcbufVptr pageSize

def extraBiFrameVptr : ℕ := wadd a.biFrameVptr pageSize

def dtbPhysEnd : ℕ := wadd a.dtbPhysAddr a.dtbSize

def extraBiSize : ℕ := if a.dtbSize > 0 then wadd bootInfoHeaderSize a.dtbSize else 0

def extraBiSizeBits : ℕ := calculateExtraBiSizeBits a.extraBiSize

/-- What `it_v_reg` leaves for the extra boot info. -/
def extraBiRoom : ℕ := if a.extraBiSizeBits > 0 then 2 ^ a.extraBiSizeBits else 0

/-- `it_v_reg`. -/
def itVReg : Region :=
  ⟨a.uiVReg.start, wadd (wadd (wadd a.extraBiFrameVptr a.extraBiRoom) shmDataSize) pageSize⟩

def shmTxQueueVaddr : ℕ :=
  roundDown (wadd (wadd a.extraBiFrameVptr a.extraBiSizeBits) (pageSize * 2)) 12

def shmRxQueueVaddr : ℕ := wadd a.shmTxQueueVaddr pageSize

def shmDataVaddr : ℕ := wadd a.shmTxQueueVaddr (8 * pageSize)

end BootArgs

inductive BootError
  | dtbInvalid
  | dtbExceedsPaddrTop
  | imageExceedsUserTop
  | assertion
deriving DecidableEq, Repr

/-- The checks of `try_init_kernel` on the layout. Every later step may still fail for
lack of memory or of slots, and none changes the layout. -/
def checkLayout (cfg : Config) (a : BootArgs) : Except BootError Region :=
  if a.dtbSize > 0 ∧ a.dtbPhysEnd < a.dtbPhysAddr then .error .dtbInvalid
  else if a.dtbSize > 0 ∧ a.dtbPhysEnd ≥ paddrTop then .error .dtbExceedsPaddrTop
  else if a.itVReg.stop ≥ cfg.userTop then .error .imageExceedsUserTop
  else .ok a.itVReg

/-! ### The tables -/

/-- What is mapped at a page. The shared frames have fixed physical addresses, the
others are found by `arch_init_freemem`. -/
inductive Frame
  | bootInfo
  | extraBi (k : ℕ)
  | ipcBuf
  | userImage (k : ℕ)
  | txQueue (i : ℕ)
  | rxQueue (i : ℕ)
  | window (i : ℕ)
deriving DecidableEq, Repr

/-- An entry of a page table, by the indices that lead to it. -/
structure Slot where
  pgd : ℕ
  pud : ℕ
  pd : ℕ
  pt : ℕ
deriving DecidableEq, Repr

/-- The entries that a virtual address leads through. Without the uppermost level the
root has 10 bits of index. -/
def Config.slot (cfg : Config) (v : ℕ) : Slot where
  pgd := if cfg = .hyp40 then 0 else v / 2 ^ 39 % 2 ^ 9
  pud := v / 2 ^ 30 % (if cfg = .hyp40 then 2 ^ 10 else 2 ^ 9)
  pd := v / 2 ^ 21 % 2 ^ 9
  pt := v / 2 ^ 12 % 2 ^ 9

/-- The entries that `map_4MB_phys_to_vaddr` goes through: it reads the first entry of
the root, whatever the address. -/
def Config.windowSlot (cfg : Config) (v : ℕ) : Slot := { cfg.slot v with pgd := 0 }

/-- An address space: which tables there are, and the entries of the page tables. -/
structure VSpace where
  hasPud : ℕ → Bool
  hasPd : ℕ → ℕ → Bool
  hasPt : ℕ → ℕ → ℕ → Bool
  page : Slot → Option Frame

/-- The root alone. -/
def Config.root (cfg : Config) : VSpace where
  hasPud i := decide (cfg = .hyp40 ∧ i = 0)
  hasPd _ _ := false
  hasPt _ _ _ := false
  page _ := none

namespace VSpace

/-- All tables on the way to an entry are present. -/
def Walks (s : VSpace) (e : Slot) : Prop :=
  s.hasPud e.pgd = true ∧ s.hasPd e.pgd e.pud = true ∧ s.hasPt e.pgd e.pud e.pd = true

instance (s : VSpace) (e : Slot) : Decidable (s.Walks e) := inferInstanceAs (Decidable (_ ∧ _))

/-- `map_it_pud_cap`. -/
def mapItPudCap (s : VSpace) (e : Slot) : Option VSpace :=
  some { s with hasPud := Function.update s.hasPud e.pgd true }

/-- `map_it_pd_cap`. -/
def mapItPdCap (s : VSpace) (e : Slot) : Option VSpace :=
  if s.hasPud e.pgd then
    some { s with hasPd := fun i j => s.hasPd i j || decide (e.pgd = i ∧ e.pud = j) }
  else none

/-- `map_it_pt_cap`. -/
def mapItPtCap (s : VSpace) (e : Slot) : Option VSpace :=
  if s.hasPud e.pgd ∧ s.hasPd e.pgd e.pud then
    some { s with hasPt := fun i j k => s.hasPt i j k || decide (e.pgd = i ∧ e.pud = j ∧ e.pd = k) }
  else none

/-- `map_it_frame_cap` and one pass of `map_4MB_phys_to_vaddr`: the tables are asserted
to be present, and the entry is written. -/
def mapPage (s : VSpace) (op : Slot × Frame) : Option VSpace :=
  if s.Walks op.1 then some { s with page := Function.update s.page op.1 (some op.2) } else none

end VSpace

/-- The loops of `create_it_address_space`: from the start of the region, rounded down,
in steps of `2 ^ shift`. -/
def blocks (shift : ℕ) (r : Region) : List ℕ :=
  (List.range ((r.stop - roundDown r.start shift + (2 ^ shift - 1)) / 2 ^ shift)).map fun k =>
    roundDown r.start shift + k * 2 ^ shift

/-- The first loop of `create_it_address_space`, which is left out without the uppermost
level. -/
def createItPuds (cfg : Config) (r : Region) : Option VSpace :=
  if cfg = .hyp40 then some cfg.root
  else (blocks 39 r).foldlM (fun s v => s.mapItPudCap (cfg.slot v)) cfg.root

/-- `create_it_address_space`. -/
def createItAddressSpace (cfg : Config) (r : Region) : Option VSpace := do
  let s ← createItPuds cfg r
  let s ← (blocks 30 r).foldlM (fun s v => s.mapItPdCap (cfg.slot v)) s
  (blocks 21 r).foldlM (fun s v => s.mapItPtCap (cfg.slot v)) s

/-! ### What is mapped -/

/-- `create_frames_of_region`: the virtual pages for `len` bytes of the kernel window. -/
def createFramesOfRegion (cfg : Config) (start len pvOffset : ℕ) : List ℕ :=
  (List.range ((len + (pageSize - 1)) / pageSize)).map fun k =>
    wsub (wsub (start + k * pageSize) pvOffset) cfg.pptrBaseOffset

/-- The queues, numbered as they are mapped. -/
def queueFrame (k : ℕ) : Frame := if k % 2 = 0 then .txQueue (k / 2) else .rxQueue (k / 2)

/-- The entries of pages, with what is mapped there. -/
def entries (slot : ℕ → Slot) (frame : ℕ → Frame) (pages : List ℕ) : List (Slot × Frame) :=
  pages.zipIdx.map fun p => (slot p.1, frame p.2)

namespace BootArgs

variable (cfg : Config) (a : BootArgs)

/-- The pages of the extra boot info. -/
def extraBiPages : List ℕ :=
  createFramesOfRegion cfg a.extraBi a.extraBiSize
    (wsub (wsub a.extraBi cfg.pptrBaseOffset) a.extraBiFrameVptr)

/-- The pages of the user image. -/
def userImagePages : List ℕ :=
  createFramesOfRegion cfg (a.uiReg cfg).start ((a.uiReg cfg).stop - (a.uiReg cfg).start) a.pvOffset

/-- The pages that are mapped before the shared ones. -/
def bootPages : List ℕ :=
  a.biFrameVptr :: a.extraBiPages cfg ++ a.ipcbufVptr :: a.userImagePages cfg

/-- The queue pages, in the order of the loop over the three channels. -/
def queuePages : List ℕ :=
  (List.range 3).flatMap fun i =>
    [wadd a.shmTxQueueVaddr (i * (2 * pageSize)), wadd a.shmRxQueueVaddr (i * (2 * pageSize))]

/-- The pages of the window, `NUM_4K_PAGES` of them. -/
def windowPages : List ℕ :=
  (List.range (shmDataSize / pageSize)).map fun i => wadd a.shmDataVaddr (i * pageSize)

/-- All entries that are written, in order. -/
def mapOps : List (Slot × Frame) :=
  (cfg.slot a.biFrameVptr, .bootInfo) :: entries cfg.slot .extraBi (a.extraBiPages cfg) ++
    (cfg.slot a.ipcbufVptr, .ipcBuf) :: entries cfg.slot .userImage (a.userImagePages cfg) ++
    (entries cfg.slot queueFrame a.queuePages ++ entries cfg.windowSlot .window a.windowPages)

end BootArgs

/-- `try_init_kernel`, as far as the address space of the initial thread goes. -/
def tryInitKernel (cfg : Config) (a : BootArgs) : Except BootError VSpace :=
  match checkLayout cfg a with
  | .error e => .error e
  | .ok itVReg =>
      match (createItAddressSpace cfg itVReg).bind fun s =>
        (a.mapOps cfg).foldlM VSpace.mapPage s with
      | none => .error .assertion
      | some s => .ok s

/-! ### The exponent of the extra boot info -/

/-- Away from the top of the words, rounding up gives the least multiple. -/
lemma roundUp_spec {n : ℕ} (hpos : 0 < n) (hn : n ≤ 2 ^ 62) :
    n ≤ roundUp n 12 ∧ roundUp n 12 < n + 2 ^ 12 ∧ roundUp n 12 % 2 ^ 12 = 0 := by
  rw [roundUp]
  omega

/-- **The exponent** of a size other than zero is at least that of a page, covers the
size, and is the least such one. -/
lemma calculateExtraBiSizeBits_spec {n : ℕ} (hpos : 0 < n) (hn : n ≤ 2 ^ 62) :
    12 ≤ calculateExtraBiSizeBits n ∧ n ≤ 2 ^ calculateExtraBiSizeBits n ∧
      ∀ k, 12 ≤ k → n ≤ 2 ^ k → calculateExtraBiSizeBits n ≤ k := by
  obtain ⟨hle, hlt, hmod⟩ := roundUp_spec hpos hn
  have hne : roundUp n 12 ≠ 0 := by omega
  have hlog : 2 ^ Nat.log 2 (roundUp n 12) ≤ roundUp n 12 := Nat.pow_log_le_self 2 hne
  have hlog' : roundUp n 12 < 2 ^ (Nat.log 2 (roundUp n 12) + 1) :=
    Nat.lt_pow_succ_log_self (by norm_num) _
  have hpage : 12 ≤ Nat.log 2 (roundUp n 12) :=
    Nat.le_log_of_pow_le (by norm_num) (by omega)
  have hword : Nat.log 2 (roundUp n 12) ≤ 63 := by
    have h := Nat.log_lt_of_lt_pow hne (show roundUp n 12 < 2 ^ 64 by omega)
    omega
  have hmsb : 64 - 1 - clzl (roundUp n 12) = Nat.log 2 (roundUp n 12) := by
    rw [clzl, if_neg hne]
    omega
  simp only [calculateExtraBiSizeBits, if_neg hpos.ne', hmsb]
  generalize Nat.log 2 (roundUp n 12) = m at hlog hlog' hpage
  refine ⟨?_, ?_, fun k hk hnk => ?_⟩
  · split_ifs <;> omega
  · split_ifs with h
    · exact hle.trans hlog'.le
    · omega
  · -- the rounded size does not exceed a power that the size does not exceed
    have hup : roundUp n 12 ≤ 2 ^ k := by
      have hdvd : 2 ^ k % 2 ^ 12 = 0 := Nat.mod_eq_zero_of_dvd (pow_dvd_pow 2 hk)
      omega
    have hmk : m ≤ k := (Nat.pow_le_pow_iff_right (by norm_num)).mp (hlog.trans hup)
    split_ifs with h
    · have hne : m ≠ k := by
        rintro rfl
        omega
      omega
    · exact hmk

/-! ### The addresses -/

lemma wadd_lt (x y : ℕ) : wadd x y < 2 ^ 64 := Nat.mod_lt _ (by norm_num)

lemma Config.userTop_le (cfg : Config) : cfg.userTop ≤ 2 ^ 47 := by
  cases cfg <;> norm_num [Config.userTop]

lemma Config.pptrBaseOffset_lt (cfg : Config) : cfg.pptrBaseOffset < 2 ^ 64 := by
  cases cfg <;> norm_num [Config.pptrBaseOffset]

/-- `n` frames of a page are those that start before the end. -/
lemma lt_frames_iff {k len : ℕ} : k < (len + (pageSize - 1)) / pageSize ↔ k * pageSize < len := by
  rw [pageSize]
  omega

namespace BootArgs

variable {a : BootArgs} {cfg : Config}

/-- A layout whose addresses are multiples of a page. -/
structure Aligned (a : BootArgs) : Prop where
  uiPRegStart : a.uiPRegStart % pageSize = 0
  uiPRegEnd : a.uiPRegEnd % pageSize = 0
  pvOffset : a.pvOffset % pageSize = 0

/-- What the checks leave of the sizes. -/
lemma of_checkLayout {r : Region} (hok : checkLayout cfg a = .ok r) :
    a.itVReg.stop < cfg.userTop ∧ a.extraBiSize ≤ 2 ^ 40 ∧ r = a.itVReg := by
  rw [checkLayout] at hok
  split_ifs at hok with hinvalid hexceeds htop
  simp only [Except.ok.injEq] at hok
  refine ⟨by omega, ?_, hok.symm⟩
  rw [extraBiSize]
  split_ifs with hdtb
  · -- the end of the device tree is neither before its start nor above `PADDR_TOP`
    have hwords := a.words
    simp only [dtbPhysEnd, wadd, paddrTop, hdtb, true_and] at hinvalid hexceeds
    rw [wadd, bootInfoHeaderSize]
    omega
  · norm_num

lemma extraBiSizeBits_le (hsize : a.extraBiSize ≤ 2 ^ 40) : a.extraBiSizeBits ≤ 40 := by
  rcases Nat.eq_zero_or_pos a.extraBiSize with hzero | hpos
  · simp [extraBiSizeBits, calculateExtraBiSizeBits, hzero]
  · exact (calculateExtraBiSizeBits_spec hpos (hsize.trans (by norm_num))).2.2 40 (by norm_num) hsize

/-- Up to two pages of extra boot info have an exponent of at most 13. -/
lemma extraBiRoom_le (hsize : a.extraBiSize ≤ 2 * pageSize) : a.extraBiRoom ≤ 2 * pageSize := by
  have hbits : a.extraBiSizeBits ≤ 13 := by
    rcases Nat.eq_zero_or_pos a.extraBiSize with hzero | hpos
    · simp [extraBiSizeBits, calculateExtraBiSizeBits, hzero]
    · have hle : a.extraBiSize ≤ 2 ^ 13 := hsize
      exact (calculateExtraBiSizeBits_spec hpos (hle.trans (by norm_num))).2.2 13 (by norm_num) hle
  rw [extraBiRoom]
  split_ifs
  · exact Nat.pow_le_pow_right (by norm_num) hbits
  · exact Nat.zero_le _

lemma Aligned.uiVReg_stop (h : a.Aligned) : a.uiVReg.stop % pageSize = 0 := by
  have hend := h.uiPRegEnd
  have hpv := h.pvOffset
  have hwords := a.words
  rw [pageSize] at *
  simp only [uiVReg, wsub]
  omega

lemma Aligned.uiVReg_start (h : a.Aligned) : a.uiVReg.start % pageSize = 0 := by
  have hstart := h.uiPRegStart
  have hpv := h.pvOffset
  have hwords := a.words
  rw [pageSize] at *
  simp only [uiVReg, wsub]
  omega

lemma Aligned.extraBiFrameVptr (h : a.Aligned) : a.extraBiFrameVptr % pageSize = 0 := by
  have hstop := h.uiVReg_stop
  rw [pageSize] at *
  simp only [BootArgs.extraBiFrameVptr, biFrameVptr, ipcbufVptr, wadd, pageSize]
  omega

/-- The queues start two pages after the extra boot info, whatever its size: what is
added of the size is its exponent, which the rounding takes away again. -/
lemma shmTxQueueVaddr_eq (h : a.Aligned) (hsize : a.extraBiSize ≤ 2 ^ 40) :
    a.shmTxQueueVaddr = wadd a.extraBiFrameVptr (2 * pageSize) := by
  have hbits := extraBiSizeBits_le hsize
  have hextra := h.extraBiFrameVptr
  have hlt : a.extraBiFrameVptr < 2 ^ 64 := wadd_lt _ _
  rw [pageSize] at hextra
  simp only [shmTxQueueVaddr, roundDown, wadd, pageSize]
  omega

lemma mem_extraBiPages {v : ℕ} : v ∈ a.extraBiPages cfg ↔
    ∃ k, k * pageSize < a.extraBiSize ∧ v = wadd a.extraBiFrameVptr (k * pageSize) := by
  have hoff := cfg.pptrBaseOffset_lt
  have hextra : a.extraBiFrameVptr < 2 ^ 64 := wadd_lt _ _
  have hbi := a.words.2.2.2.2.2
  have hcancel (t : ℕ) : wsub (wsub (a.extraBi + t) (wsub (wsub a.extraBi cfg.pptrBaseOffset)
      a.extraBiFrameVptr)) cfg.pptrBaseOffset = wadd a.extraBiFrameVptr t := by
    simp only [wsub, wadd]
    omega
  simp only [extraBiPages, createFramesOfRegion, List.mem_map, List.mem_range, lt_frames_iff, hcancel]
  constructor
  · rintro ⟨k, hk, rfl⟩
    exact ⟨k, hk, rfl⟩
  · rintro ⟨k, hk, rfl⟩
    exact ⟨k, hk, rfl⟩

lemma wadd_wadd (x y z : ℕ) : wadd (wadd x y) z = wadd x (y + z) := by
  simp only [wadd]
  omega

/-- The queue pages are the third to the eighth page after the boot info frame. -/
lemma queuePages_eq (h : a.Aligned) (hsize : a.extraBiSize ≤ 2 ^ 40) :
    a.queuePages = (List.range 6).map fun k => wadd a.extraBiFrameVptr ((2 + k) * pageSize) := by
  simp only [queuePages, shmRxQueueVaddr, shmTxQueueVaddr_eq h hsize, wadd_wadd]
  simp [List.range_succ, pageSize]

/-- The window starts with the eleventh page after the boot info frame. -/
lemma windowPages_eq (h : a.Aligned) (hsize : a.extraBiSize ≤ 2 ^ 40) :
    a.windowPages =
      (List.range 1024).map fun i => wadd a.extraBiFrameVptr ((10 + i) * pageSize) := by
  have hcount : shmDataSize / pageSize = 1024 := by norm_num [shmDataSize, pageSize]
  have hpages (i : ℕ) : 2 * pageSize + 8 * pageSize + i * pageSize = (10 + i) * pageSize := by ring
  simp only [windowPages, hcount, shmDataVaddr, shmTxQueueVaddr_eq h hsize, wadd_wadd, hpages]

end BootArgs

end Kernel
