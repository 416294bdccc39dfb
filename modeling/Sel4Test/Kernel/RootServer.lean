import Sel4Test.Kernel.Boot

/-!
The objects of the root server, `create_rootserver_objects` of `src/kernel/boot.c`, and the
page tables that `create_it_address_space` takes of them.

The objects are cut off one memory region from the bottom upwards, and nothing is left out
for alignment: the order is that of their sizes, and the extra boot info, whose size is only
known at boot, is put in at the first of three places where it is not smaller than what
follows. The contents of the memory, which is cleared, are not modelled.

* `Stage`: what has been allocated, how the next address is aligned, and what is to come.
* `Stage.alloc`, `Stage.maybeAlloc`: one object, and the place of the extra boot info.
* `tables_le`: the loops over a region make no more passes than page tables are reserved.
* `createRootserverObjects_fits`: the objects fit exactly, and the page tables suffice.
-/

namespace Kernel

/-! ### The configuration -/

/-- `BIT(n)`. -/
def bit (n : ℕ) : ℕ := 2 ^ n % 2 ^ 64

/-- What the sizes of the objects depend on, with the bounds on
`CONFIG_ROOT_CNODE_SIZE_BITS` that `root_cnode_size_valid` asserts, and the two values of
`seL4_TCBBits`. -/
structure RootConfig where
  config : Config
  rootCNodeSizeBits : ℕ
  tcbBits : ℕ
  mcs : Bool
  cnode_valid : 7 ≤ rootCNodeSizeBits ∧ rootCNodeSizeBits < 27
  tcb_valid : tcbBits = 11 ∨ tcbBits = 12

/-- `cnode_size_bits`. -/
def RootConfig.cnodeSizeBits (rc : RootConfig) : ℕ := rc.rootCNodeSizeBits + 5

/-- `seL4_VSpaceBits`. -/
def RootConfig.vspaceBits (rc : RootConfig) : ℕ := if rc.config = .hyp40 then 13 else 12

/-- `get_n_paging`. -/
def getNPaging (r : Region) (bits : ℕ) : ℕ :=
  let start := roundDown r.start bits
  let stop := (wsub r.stop 1 / 2 ^ bits + 1) * 2 ^ bits % 2 ^ 64
  wsub stop start / bit bits

/-- `arch_get_n_paging`. -/
def archGetNPaging (cfg : Config) (r : Region) : ℕ :=
  wadd (wadd (if cfg = .hyp40 then 0 else getNPaging r 39) (getNPaging r 30)) (getNPaging r 21)

/-- `rootserver_max_size_bits`. -/
def rootserverMaxSizeBits (rc : RootConfig) (extraBiSizeBits : ℕ) : ℕ :=
  max (max rc.cnodeSizeBits rc.vspaceBits) extraBiSizeBits

/-- `calculate_rootserver_size`. -/
def calculateRootserverSize (rc : RootConfig) (r : Region) (extraBiSizeBits : ℕ) : ℕ :=
  let size := bit rc.cnodeSizeBits
  let size := wadd size (bit rc.tcbBits)
  let size := wadd size (bit 12)
  let size := wadd size (bit 12)
  let size := wadd size (bit 12)
  let size := wadd size (if extraBiSizeBits > 0 then bit extraBiSizeBits else 0)
  let size := wadd size (bit rc.vspaceBits)
  let size := if rc.mcs then wadd size (bit 7) else size
  wadd size (archGetNPaging rc.config r * bit 12 % 2 ^ 64)

/-! ### The objects -/

/-- The fields of `rootserver` that are allocated; `paging` is the start of the page tables. -/
inductive RootObject
  | cnode
  | vspace
  | asidPool
  | ipcBuf
  | bootInfo
  | extraBi
  | tcb
  | sc
  | paging
deriving DecidableEq, Repr

/-- `rootserver`, with the end of its page tables, and `rootserver_mem`. -/
structure Rootserver where
  rootserver : RootObject → ℕ
  pagingEnd : ℕ
  mem : Region

/-- The two variables in `.bss`. -/
def Rootserver.bss : Rootserver := ⟨fun _ => 0, 0, ⟨0, 0⟩⟩

/-- `alloc_rootserver_obj`, and the field that takes the address; none if an assertion
fails. -/
def allocRootserverObj (o : RootObject) (sizeBits n : ℕ) (s : Rootserver) : Option Rootserver :=
  let allocated := s.mem.start
  if allocated % bit sizeBits = 0 then
    let start := wadd s.mem.start (n * bit sizeBits % 2 ^ 64)
    if start ≤ s.mem.stop then
      some { s with
        rootserver := Function.update s.rootserver o allocated
        mem := ⟨start, s.mem.stop⟩ }
    else none
  else none

/-- `maybe_alloc_extra_bi`. -/
def maybeAllocExtraBi (cmpSizeBits extraBiSizeBits : ℕ) (s : Rootserver) : Option Rootserver :=
  if extraBiSizeBits ≥ cmpSizeBits ∧ s.rootserver .extraBi = 0 then
    allocRootserverObj .extraBi extraBiSizeBits 1 s
  else some s

/-- The root CNode and the VSpace, the larger one first. -/
def createTopObjects (rc : RootConfig) (extraBiSizeBits : ℕ) (s : Rootserver) :
    Option Rootserver :=
  if rc.cnodeSizeBits > rc.vspaceBits then do
    let s ← allocRootserverObj .cnode rc.cnodeSizeBits 1 s
    let s ← maybeAllocExtraBi rc.vspaceBits extraBiSizeBits s
    allocRootserverObj .vspace rc.vspaceBits 1 s
  else do
    let s ← allocRootserverObj .vspace rc.vspaceBits 1 s
    let s ← maybeAllocExtraBi rc.cnodeSizeBits extraBiSizeBits s
    allocRootserverObj .cnode rc.cnodeSizeBits 1 s

/-- The three objects of a page. -/
def createPageObjects (s : Rootserver) : Option Rootserver := do
  let s ← allocRootserverObj .asidPool 12 1 s
  let s ← allocRootserverObj .ipcBuf 12 1 s
  allocRootserverObj .bootInfo 12 1 s

/-- The page tables, with their end. -/
def createPaging (rc : RootConfig) (r : Region) (s : Rootserver) : Option Rootserver := do
  let n := archGetNPaging rc.config r
  let s ← allocRootserverObj .paging 12 n s
  some { s with pagingEnd := wadd (s.rootserver .paging) (n * bit 12 % 2 ^ 64) }

/-- The TCB, which may be larger than a page table, and the page tables. -/
def createTcbAndPaging (rc : RootConfig) (r : Region) (s : Rootserver) : Option Rootserver :=
  if rc.tcbBits ≥ 12 then do
    let s ← allocRootserverObj .tcb rc.tcbBits 1 s
    createPaging rc r s
  else do
    let s ← createPaging rc r s
    allocRootserverObj .tcb rc.tcbBits 1 s

/-- The scheduling context, which only the MCS kernel has. -/
def createSchedContext (rc : RootConfig) (s : Rootserver) : Option Rootserver :=
  if rc.mcs then allocRootserverObj .sc 7 1 s else some s

/-- `create_rootserver_objects`. -/
def createRootserverObjects (rc : RootConfig) (start : ℕ) (r : Region) (extraBiSizeBits : ℕ)
    (s : Rootserver) : Option Rootserver := do
  let size := calculateRootserverSize rc r extraBiSizeBits
  let s ← maybeAllocExtraBi (rootserverMaxSizeBits rc extraBiSizeBits) extraBiSizeBits
    { s with mem := ⟨start, wadd start size⟩ }
  let s ← createTopObjects rc extraBiSizeBits s
  let s ← maybeAllocExtraBi 12 extraBiSizeBits s
  let s ← createPageObjects s
  let s ← createTcbAndPaging rc r s
  let s ← createSchedContext rc s
  if s.mem.start = s.mem.stop then some s else none

/-! ### The page tables of the initial thread -/

/-- `rootserver.paging` and `ndks_boot.slot_pos_cur`. -/
structure ItPaging where
  paging : Region
  slotPosCur : ℕ
deriving DecidableEq, Repr

/-- How a loop of `create_it_address_space` ends: an assertion fails, the root CNode is
full, or the loop is done. Without fuel it is still running. -/
inductive ItResult
  | assertion
  | noSlot (s : ItPaging)
  | done (s : ItPaging)
  | running
deriving DecidableEq, Repr

/-- What follows a loop. -/
def ItResult.andThen (r : ItResult) (f : ItPaging → ItResult) : ItResult :=
  match r with
  | .done s => f s
  | _ => r

/-- A loop of `create_it_address_space`, from `vptr` on: `it_alloc_paging`, then
`provide_cap`. -/
def takeTables (rc : RootConfig) (shift stop : ℕ) : ℕ → ℕ → ItPaging → ItResult
  | 0, _, _ => .running
  | fuel + 1, vptr, s =>
      if vptr < stop then
        let start := wadd s.paging.start (bit 12)
        if start ≤ s.paging.stop then
          if s.slotPosCur ≥ bit rc.rootCNodeSizeBits then
            .noSlot ⟨⟨start, s.paging.stop⟩, s.slotPosCur⟩
          else takeTables rc shift stop fuel (wadd vptr (bit shift))
            ⟨⟨start, s.paging.stop⟩, s.slotPosCur + 1⟩
        else .assertion
      else .done s

/-- The loops of `create_it_address_space`, the first of which is left out without the
uppermost level. -/
def takeAllTables (rc : RootConfig) (r : Region) (fuel : ℕ) (s : ItPaging) : ItResult :=
  let puds := if rc.config = .hyp40 then .done s
    else takeTables rc 39 r.stop fuel (roundDown r.start 39) s
  (puds.andThen (takeTables rc 30 r.stop fuel (roundDown r.start 30))).andThen
    (takeTables rc 21 r.stop fuel (roundDown r.start 21))

/-! ### Sizes -/

namespace RootConfig

variable (rc : RootConfig)

/-- The exponents of the sizes, for an exponent `e` of the extra boot info. -/
def objectBits (e : ℕ) : RootObject → ℕ
  | .cnode => rc.cnodeSizeBits
  | .vspace => rc.vspaceBits
  | .asidPool => 12
  | .ipcBuf => 12
  | .bootInfo => 12
  | .extraBi => e
  | .tcb => rc.tcbBits
  | .sc => 7
  | .paging => 12

/-- The bytes of an object, with `n` page tables. -/
def objectBytes (e n : ℕ) (o : RootObject) : ℕ :=
  (if o = .paging then n else 1) * 2 ^ rc.objectBits e o

/-- The objects that there are: the extra boot info may be missing, and so may the
scheduling context. -/
def Present (e : ℕ) (o : RootObject) : Prop :=
  (o = .extraBi → 0 < e) ∧ (o = .sc → rc.mcs = true)

lemma vspaceBits_bounds : 12 ≤ rc.vspaceBits ∧ rc.vspaceBits ≤ 13 := by
  unfold vspaceBits
  split_ifs <;> omega

lemma cnodeSizeBits_bounds : 12 ≤ rc.cnodeSizeBits ∧ rc.cnodeSizeBits ≤ 31 := by
  have h := rc.cnode_valid
  unfold cnodeSizeBits
  omega

end RootConfig

lemma bit_eq {n : ℕ} (h : n < 64) : bit n = 2 ^ n :=
  Nat.mod_eq_of_lt (Nat.pow_lt_pow_right (by norm_num) h)

lemma getNPaging_le (r : Region) (bits : ℕ) (h : 21 ≤ bits) (hbits : bits < 64) :
    getNPaging r bits < 2 ^ 43 := by
  have hpow : 2 ^ 21 ≤ 2 ^ bits := Nat.pow_le_pow_right (by norm_num) h
  rw [getNPaging, bit_eq hbits]
  refine Nat.div_lt_of_lt_mul ?_
  calc wsub ((wsub r.stop 1 / 2 ^ bits + 1) * 2 ^ bits % 2 ^ 64) (roundDown r.start bits)
      < 2 ^ 21 * 2 ^ 43 := Nat.mod_lt _ (by norm_num)
    _ ≤ 2 ^ bits * 2 ^ 43 := Nat.mul_le_mul_right _ hpow

/-- The number of page tables is not reduced. -/
lemma archGetNPaging_eq (cfg : Config) (r : Region) : archGetNPaging cfg r =
    (if cfg = .hyp40 then 0 else getNPaging r 39) + getNPaging r 30 + getNPaging r 21 := by
  have h39 := getNPaging_le r 39 (by norm_num) (by norm_num)
  have h30 := getNPaging_le r 30 (by norm_num) (by norm_num)
  have h21 := getNPaging_le r 21 (by norm_num) (by norm_num)
  unfold archGetNPaging wadd
  split_ifs <;> omega

lemma archGetNPaging_lt (cfg : Config) (r : Region) : archGetNPaging cfg r < 2 ^ 45 := by
  have h39 := getNPaging_le r 39 (by norm_num) (by norm_num)
  have h30 := getNPaging_le r 30 (by norm_num) (by norm_num)
  have h21 := getNPaging_le r 21 (by norm_num) (by norm_num)
  rw [archGetNPaging_eq]
  split_ifs <;> omega

/-- The bytes of the extra boot info. -/
def extraBytes (e : ℕ) : ℕ := if e > 0 then 2 ^ e else 0

/-- The size is the sum of the sizes of the objects, without reduction. -/
lemma calculateRootserverSize_eq (rc : RootConfig) (r : Region) {e : ℕ} (he : e < 64) :
    calculateRootserverSize rc r e = 2 ^ rc.cnodeSizeBits + 2 ^ rc.vspaceBits + 3 * 2 ^ 12 +
      2 ^ rc.tcbBits + archGetNPaging rc.config r * 2 ^ 12 + (if rc.mcs then 2 ^ 7 else 0) +
      extraBytes e := by
  have hn := archGetNPaging_lt rc.config r
  have hcnode : 2 ^ rc.cnodeSizeBits ≤ 2 ^ 31 :=
    Nat.pow_le_pow_right (by norm_num) rc.cnodeSizeBits_bounds.2
  have hvspace : 2 ^ rc.vspaceBits ≤ 2 ^ 13 :=
    Nat.pow_le_pow_right (by norm_num) rc.vspaceBits_bounds.2
  have htcb : 2 ^ rc.tcbBits ≤ 2 ^ 12 :=
    Nat.pow_le_pow_right (by norm_num) (by rcases rc.tcb_valid with h | h <;> omega)
  have hextra : extraBytes e ≤ 2 ^ 63 := by
    unfold extraBytes
    split_ifs
    · exact Nat.pow_le_pow_right (by norm_num) (by omega)
    · exact Nat.zero_le _
  have hbits : rc.cnodeSizeBits < 64 ∧ rc.vspaceBits < 64 ∧ rc.tcbBits < 64 :=
    ⟨by have := rc.cnodeSizeBits_bounds; omega, by have := rc.vspaceBits_bounds; omega,
      by rcases rc.tcb_valid with h | h <;> omega⟩
  have hbit : (if e > 0 then bit e else 0) = extraBytes e := by rw [bit_eq he, extraBytes]
  simp only [calculateRootserverSize, hbit, bit_eq hbits.1, bit_eq hbits.2.1, bit_eq hbits.2.2,
    bit_eq (show 12 < 64 by norm_num), bit_eq (show 7 < 64 by norm_num), wadd]
  generalize archGetNPaging rc.config r = n at hn ⊢
  generalize 2 ^ rc.cnodeSizeBits = a at hcnode ⊢
  generalize 2 ^ rc.vspaceBits = b at hvspace ⊢
  generalize 2 ^ rc.tcbBits = c at htcb ⊢
  generalize extraBytes e = d at hextra ⊢
  cases rc.mcs
  · simp only [Bool.false_eq_true, if_false]
    omega
  · simp only [if_true]
    omega

/-! ### One object after the other -/

namespace Rootserver

/-- The state after an object of some bytes has been cut off. -/
def allocated (s : Rootserver) (o : RootObject) (bytes : ℕ) : Rootserver where
  rootserver := Function.update s.rootserver o s.mem.start
  pagingEnd := s.pagingEnd
  mem := ⟨s.mem.start + bytes, s.mem.stop⟩

end Rootserver

lemma allocRootserverObj_eq {o : RootObject} {b n : ℕ} {s : Rootserver} (hb : b < 64)
    (hdvd : 2 ^ b ∣ s.mem.start) (hfit : s.mem.start + n * 2 ^ b ≤ s.mem.stop)
    (hstop : s.mem.stop < 2 ^ 64) :
    allocRootserverObj o b n s = some (s.allocated o (n * 2 ^ b)) := by
  have hbytes : n * 2 ^ b % 2 ^ 64 = n * 2 ^ b := Nat.mod_eq_of_lt (by omega)
  have hsum : wadd s.mem.start (n * 2 ^ b) = s.mem.start + n * 2 ^ b :=
    Nat.mod_eq_of_lt (by omega)
  rw [allocRootserverObj, bit_eq hb, if_pos (Nat.mod_eq_zero_of_dvd hdvd), hbytes, hsum,
    if_pos hfit]
  rfl

/-- Objects above `start` and below what is left, each aligned to its size, and apart. -/
structure ObjectsPlaced (rc : RootConfig) (e n start : ℕ) (done : Set RootObject) (s : Rootserver) :
    Prop where
  inside : ∀ o ∈ done, start ≤ s.rootserver o ∧
    s.rootserver o + rc.objectBytes e n o ≤ s.mem.start
  aligned : ∀ o ∈ done, 2 ^ rc.objectBits e o ∣ s.rootserver o
  apart : ∀ o ∈ done, ∀ o' ∈ done, o ≠ o' →
    s.rootserver o + rc.objectBytes e n o ≤ s.rootserver o' ∨
      s.rootserver o' + rc.objectBytes e n o' ≤ s.rootserver o

section Stage

variable {rc : RootConfig} {e n start stop k t left : ℕ} {done : Set RootObject}
  {base : List RootObject} {s : Rootserver} {o : RootObject}

lemma ObjectsPlaced.insert (h : ObjectsPlaced rc e n start done s) (ho : o ∉ done)
    (hstart : start ≤ s.mem.start) (hdvd : 2 ^ rc.objectBits e o ∣ s.mem.start) :
    ObjectsPlaced rc e n start (insert o done) (s.allocated o (rc.objectBytes e n o)) := by
  have hself : (s.allocated o (rc.objectBytes e n o)).rootserver o = s.mem.start :=
    Function.update_self ..
  have hold {o' : RootObject} (ho' : o' ∈ done) :
      (s.allocated o (rc.objectBytes e n o)).rootserver o' = s.rootserver o' :=
    Function.update_of_ne (fun heq : o' = o => ho (heq ▸ ho')) ..
  have hmem : (s.allocated o (rc.objectBytes e n o)).mem.start =
      s.mem.start + rc.objectBytes e n o := rfl
  refine ⟨?_, ?_, ?_⟩
  · rintro o' (rfl | ho')
    · rw [hself, hmem]
      exact ⟨hstart, le_rfl⟩
    · rw [hold ho', hmem]
      exact ⟨(h.inside o' ho').1, (h.inside o' ho').2.trans (Nat.le_add_right _ _)⟩
  · rintro o' (rfl | ho')
    · rwa [hself]
    · rw [hold ho']
      exact h.aligned o' ho'
  · rintro o₁ (rfl | h₁) o₂ (rfl | h₂) hne
    · exact absurd rfl hne
    · rw [hself, hold h₂]
      exact Or.inr (h.inside o₂ h₂).2
    · rw [hself, hold h₁]
      exact Or.inl (h.inside o₁ h₁).2
    · rw [hold h₁, hold h₂]
      exact h.apart o₁ h₁ o₂ h₂ hne

/-- The objects of a list, and the extra boot info if its exponent reaches the threshold. -/
def Done (base : List RootObject) (t e : ℕ) : Set RootObject :=
  {o | o ∈ base ∨ o = .extraBi ∧ t ≤ e}

/-- A stage of the allocation: what is done, the alignment `2 ^ k` of what is next, the
threshold `t` from which the extra boot info is done, and the bytes left for the others. -/
structure Stage (rc : RootConfig) (e n start stop k t left : ℕ) (base : List RootObject)
    (s : Rootserver) : Prop where
  pos : 0 < start
  start_le : start ≤ s.mem.start
  stop_eq : s.mem.stop = stop
  stop_lt : stop < 2 ^ 64
  aligned : 2 ^ k ∣ s.mem.start
  left_eq : s.mem.start + left + (if e < t then extraBytes e else 0) = stop
  fresh : RootObject.extraBi ∉ base
  extra : e < t → s.rootserver .extraBi = 0
  placed : ObjectsPlaced rc e n start (Done base t e) s
  paging : RootObject.paging ∈ base → s.pagingEnd = s.rootserver .paging + n * 2 ^ 12

/-- One object is allocated, the end of the page tables aside. -/
lemma Stage.cut {l : ℕ} (h : Stage rc e n start stop k t left base s) (ho : o ∉ base)
    (hne : o ≠ .extraBi) (hbits : rc.objectBits e o ≤ k) (hk : k < 64)
    (hleft : left = rc.objectBytes e n o + l) {p : ℕ}
    (hp : RootObject.paging ∈ o :: base →
      p = Function.update s.rootserver o s.mem.start .paging + n * 2 ^ 12) :
    allocRootserverObj o (rc.objectBits e o) (if o = .paging then n else 1) s =
        some (s.allocated o (rc.objectBytes e n o)) ∧
      Stage rc e n start stop (rc.objectBits e o) t l (o :: base)
        { s.allocated o (rc.objectBytes e n o) with pagingEnd := p } := by
  have hleft_eq := h.left_eq
  have hdvd : 2 ^ rc.objectBits e o ∣ s.mem.start := (pow_dvd_pow 2 hbits).trans h.aligned
  have hdone : o ∉ Done base t e := by
    rintro (hmem | ⟨heq, -⟩)
    · exact ho hmem
    · exact hne heq
  have hset : Done (o :: base) t e = insert o (Done base t e) := by
    ext o'
    simp [Done, or_assoc]
  constructor
  · refine allocRootserverObj_eq (by omega) hdvd ?_ (h.stop_eq ▸ h.stop_lt)
    rw [h.stop_eq]
    unfold RootConfig.objectBytes at hleft
    omega
  · refine ⟨h.pos, h.start_le.trans (Nat.le_add_right _ _), h.stop_eq, h.stop_lt, ?_, ?_, ?_, ?_, ?_, hp⟩
    · exact (Nat.dvd_add_right hdvd).mpr (Dvd.intro_left _ rfl)
    · simp only [Rootserver.allocated]
      omega
    · simpa [hne.symm] using h.fresh
    · intro het
      exact (Function.update_of_ne hne.symm ..).trans (h.extra het)
    · have hplaced := h.placed.insert hdone h.start_le hdvd
      rw [← hset] at hplaced
      exact ⟨hplaced.inside, hplaced.aligned, hplaced.apart⟩

/-- **One object** of the size that is next is allocated. -/
lemma Stage.alloc {l : ℕ} (h : Stage rc e n start stop k t left base s) (ho : o ∉ base)
    (hne : o ≠ .extraBi) (hpaging : o ≠ .paging) (hbits : rc.objectBits e o ≤ k) (hk : k < 64)
    (hleft : left = 2 ^ rc.objectBits e o + l) :
    ∃ s', allocRootserverObj o (rc.objectBits e o) 1 s = some s' ∧
      Stage rc e n start stop (rc.objectBits e o) t l (o :: base) s' := by
  have hbytes : rc.objectBytes e n o = 2 ^ rc.objectBits e o := by
    rw [RootConfig.objectBytes, if_neg hpaging, one_mul]
  obtain ⟨halloc, hstage⟩ := h.cut (p := s.pagingEnd) (l := l) ho hne hbits hk
    (by rw [hbytes, hleft]) (fun hmem => by
      rw [Function.update_of_ne hpaging.symm]
      exact h.paging ((List.mem_cons.mp hmem).resolve_left hpaging.symm))
  rw [if_neg hpaging] at halloc
  exact ⟨_, halloc, hstage⟩

/-- **The place of the extra boot info**: it is allocated here if it is not smaller than
what follows and has not been allocated before. -/
lemma Stage.maybeAlloc {c : ℕ} (h : Stage rc e n start stop k t left base s) (hpos : 0 < c)
    (hcmp : c ≤ k) (hk : k < 64) (hcmpt : c ≤ t) (htk : e < t → e ≤ k) :
    ∃ s', maybeAllocExtraBi c e s = some s' ∧
      Stage rc e n start stop c c left base s' := by
  have hleft := h.left_eq
  have hdvd : 2 ^ c ∣ s.mem.start := (pow_dvd_pow 2 hcmp).trans h.aligned
  unfold maybeAllocExtraBi
  -- the extra boot info is placed once, at the first size that is not above its own
  by_cases het : e < t
  · rw [if_pos het] at hleft
    have hnone : .extraBi ∉ Done base t e := by
      rintro (hmem | ⟨-, hle⟩)
      · exact h.fresh hmem
      · omega
    by_cases hecmp : c ≤ e
    · rw [if_pos ⟨hecmp, h.extra het⟩]
      have hextra : extraBytes e = 1 * 2 ^ e := by rw [extraBytes, if_pos (by omega), one_mul]
      have hbytes : rc.objectBytes e n .extraBi = 1 * 2 ^ e := rfl
      have hedvd : 2 ^ e ∣ s.mem.start := (pow_dvd_pow 2 (htk het)).trans h.aligned
      have hfit : s.mem.start + 1 * 2 ^ e ≤ s.mem.stop := by
        rw [h.stop_eq]
        omega
      have hset : Done base c e = insert .extraBi (Done base t e) := by
        ext o'
        simp only [Done, Set.mem_ofPred_eq, Set.mem_insert_iff, hecmp, Nat.not_le.mpr het, and_true,
          and_false, or_false]
        exact or_comm
      have hplaced := h.placed.insert hnone h.start_le hedvd
      rw [← hset, hbytes] at hplaced
      refine ⟨_, allocRootserverObj_eq ((htk het).trans_lt hk) hedvd hfit (h.stop_eq ▸ h.stop_lt),
        h.pos, h.start_le.trans (Nat.le_add_right _ _), h.stop_eq, h.stop_lt, ?_, ?_, h.fresh,
        fun hlt => by omega, hplaced, h.paging⟩
      · exact (Nat.dvd_add_right hdvd).mpr ((pow_dvd_pow 2 hecmp).trans (Dvd.intro_left _ rfl))
      · rw [if_neg (by omega)]
        simp only [Rootserver.allocated]
        omega
    · rw [if_neg (by omega)]
      have hset : Done base c e = Done base t e := by
        ext o'
        simp only [Done, Set.mem_ofPred_eq, hecmp, Nat.not_le.mpr het]
      refine ⟨s, rfl, h.pos, h.start_le, h.stop_eq, h.stop_lt, hdvd, ?_, h.fresh,
        fun _ => h.extra het, hset ▸ h.placed, h.paging⟩
      rw [if_pos (by omega)]
      exact hleft
  · rw [if_neg het] at hleft
    have hset : Done base c e = Done base t e := by
      ext o'
      simp only [Done, Set.mem_ofPred_eq, Nat.not_lt.mp het, hcmpt.trans (Nat.not_lt.mp het)]
    have hmem : .extraBi ∈ Done base t e := Or.inr ⟨rfl, Nat.not_lt.mp het⟩
    have hplace := (h.placed.inside _ hmem).1
    have hstart := h.pos
    rw [if_neg (by omega)]
    refine ⟨s, rfl, h.pos, h.start_le, h.stop_eq, h.stop_lt, hdvd, ?_, h.fresh,
      fun hlt => by omega, hset ▸ h.placed, h.paging⟩
    rw [if_neg (by omega)]
    exact hleft

/-- Only the comparison of the exponent with the threshold matters. -/
lemma Stage.threshold {t' : ℕ} (h : Stage rc e n start stop k t left base s)
    (ht : t ≤ e ↔ t' ≤ e) : Stage rc e n start stop k t' left base s := by
  have hlt : e < t ↔ e < t' := by omega
  have hset : Done base t' e = Done base t e := by
    ext o
    simp only [Done, Set.mem_ofPred_eq, ht]
  have hleft := h.left_eq
  simp only [hlt] at hleft
  exact ⟨h.pos, h.start_le, h.stop_eq, h.stop_lt, h.aligned, hleft, h.fresh,
    fun he => h.extra (hlt.mpr he), hset ▸ h.placed, h.paging⟩

/-- The two top objects, with the place of the extra boot info between them. -/
lemma Stage.createTop {l : ℕ} (hk : k = rootserverMaxSizeBits rc e) (he : e < 64)
    (h : Stage rc e n start stop k k left [] s)
    (hleft : left = 2 ^ rc.cnodeSizeBits + 2 ^ rc.vspaceBits + l) :
    ∃ s' k' base', createTopObjects rc e s = some s' ∧ 12 ≤ k' ∧ k' < 64 ∧
      Stage rc e n start stop k' k' l base' s' ∧
      ∀ o, o ∈ base' ↔ o = .cnode ∨ o = .vspace := by
  obtain ⟨hc12, hc31⟩ := rc.cnodeSizeBits_bounds
  obtain ⟨hv12, hv13⟩ := rc.vspaceBits_bounds
  unfold rootserverMaxSizeBits at hk
  unfold createTopObjects
  by_cases hlarge : rc.cnodeSizeBits > rc.vspaceBits
  · rw [if_pos hlarge]
    have h₀ : Stage rc e n start stop k rc.cnodeSizeBits left [] s := h.threshold (by omega)
    obtain ⟨s₁, halloc₁, h₁⟩ := h₀.alloc (o := .cnode) (l := 2 ^ rc.vspaceBits + l)
      (by simp) (by simp) (by simp) (by simp only [RootConfig.objectBits]; omega) (by omega)
      (by simp only [RootConfig.objectBits]; omega)
    obtain ⟨s₂, hmaybe, h₂⟩ := h₁.maybeAlloc (c := rc.vspaceBits) (by omega)
      (by simp only [RootConfig.objectBits]; omega) (by simp only [RootConfig.objectBits]; omega)
      hlarge.le fun hlt => hlt.le
    obtain ⟨s₃, halloc₃, h₃⟩ := h₂.alloc (o := .vspace) (l := l)
      (by simp) (by simp) (by simp) le_rfl (by omega) rfl
    simp only [RootConfig.objectBits] at halloc₁ halloc₃
    refine ⟨s₃, _, _, ?_, hv12, by omega, h₃, fun o => by simp [or_comm]⟩
    simp only [Option.bind_eq_bind, halloc₁, Option.bind_some, hmaybe, halloc₃]
  · rw [if_neg hlarge]
    have h₀ : Stage rc e n start stop k rc.vspaceBits left [] s := h.threshold (by omega)
    obtain ⟨s₁, halloc₁, h₁⟩ := h₀.alloc (o := .vspace) (l := 2 ^ rc.cnodeSizeBits + l)
      (by simp) (by simp) (by simp) (by simp only [RootConfig.objectBits]; omega) (by omega)
      (by simp only [RootConfig.objectBits]; omega)
    obtain ⟨s₂, hmaybe, h₂⟩ := h₁.maybeAlloc (c := rc.cnodeSizeBits) (by omega)
      (by simp only [RootConfig.objectBits]; omega) (by simp only [RootConfig.objectBits]; omega)
      (by omega) fun hlt => hlt.le
    obtain ⟨s₃, halloc₃, h₃⟩ := h₂.alloc (o := .cnode) (l := l)
      (by simp) (by simp) (by simp) le_rfl (by omega) rfl
    simp only [RootConfig.objectBits] at halloc₁ halloc₃
    refine ⟨s₃, _, _, ?_, hc12, by omega, h₃, fun o => by simp⟩
    simp only [Option.bind_eq_bind, halloc₁, Option.bind_some, hmaybe, halloc₃]

/-- The three objects of a page. -/
lemma Stage.createPages {l : ℕ} (h : Stage rc e n start stop 12 t left base s)
    (hbase : ∀ o, o ∈ base ↔ o = .cnode ∨ o = .vspace) (hleft : left = 3 * 2 ^ 12 + l) :
    ∃ s', createPageObjects s = some s' ∧
      Stage rc e n start stop 12 t l (.bootInfo :: .ipcBuf :: .asidPool :: base) s' := by
  obtain ⟨s₁, halloc₁, h₁⟩ := h.alloc (o := .asidPool) (l := 2 * 2 ^ 12 + l)
    (by simp [hbase]) (by simp) (by simp) le_rfl (by norm_num) (by
      simp only [RootConfig.objectBits]; omega)
  obtain ⟨s₂, halloc₂, h₂⟩ := h₁.alloc (o := .ipcBuf) (l := 2 ^ 12 + l)
    (by simp [hbase]) (by simp) (by simp) le_rfl (by simp [RootConfig.objectBits]) (by
      simp only [RootConfig.objectBits]; omega)
  obtain ⟨s₃, halloc₃, h₃⟩ := h₂.alloc (o := .bootInfo) (l := l)
    (by simp [hbase]) (by simp) (by simp) le_rfl (by simp [RootConfig.objectBits]) rfl
  simp only [RootConfig.objectBits] at halloc₁ halloc₂ halloc₃
  refine ⟨s₃, ?_, h₃⟩
  simp only [createPageObjects, Option.bind_eq_bind, halloc₁, Option.bind_some, halloc₂, halloc₃]

/-- The page tables, and their end. -/
lemma Stage.createTables {r : Region} {l : ℕ} (hn : archGetNPaging rc.config r = n)
    (h : Stage rc e n start stop 12 t left base s) (hbase : .paging ∉ base)
    (hleft : left = n * 2 ^ 12 + l) :
    ∃ s', createPaging rc r s = some s' ∧
      Stage rc e n start stop 12 t l (.paging :: base) s' := by
  have hbytes : rc.objectBytes e n .paging = n * 2 ^ 12 := by
    simp only [RootConfig.objectBytes, if_true, RootConfig.objectBits]
  have hleft_eq := h.left_eq
  have hstop := h.stop_lt
  obtain ⟨halloc, hstage⟩ := h.cut (l := l) (p := s.mem.start + n * 2 ^ 12) hbase
    (by simp) le_rfl (by norm_num) (by rw [hbytes, hleft]) (fun _ => by rw [Function.update_self])
  refine ⟨_, ?_, hstage⟩
  simp only [RootConfig.objectBits, if_true] at halloc
  have hlt : n * 2 ^ 12 % 2 ^ 64 = n * 2 ^ 12 := Nat.mod_eq_of_lt (by omega)
  have hend : wadd s.mem.start (n * 2 ^ 12) = s.mem.start + n * 2 ^ 12 :=
    Nat.mod_eq_of_lt (by omega)
  simp only [createPaging, hn, Option.bind_eq_bind, halloc, Option.bind_some,
    Rootserver.allocated, Function.update_self, bit_eq (show 12 < 64 by norm_num), hlt, hend]

/-- The TCB and the page tables, in the order of their sizes. -/
lemma Stage.createTcb {r : Region} {l : ℕ} (hn : archGetNPaging rc.config r = n)
    (h : Stage rc e n start stop 12 t left base s) (hpaging : .paging ∉ base)
    (htcb : .tcb ∉ base) (hleft : left = 2 ^ rc.tcbBits + n * 2 ^ 12 + l) :
    ∃ s' k' base', createTcbAndPaging rc r s = some s' ∧ 7 ≤ k' ∧ k' < 64 ∧
      Stage rc e n start stop k' t l base' s' ∧
      ∀ o, o ∈ base' ↔ o = .tcb ∨ o = .paging ∨ o ∈ base := by
  unfold createTcbAndPaging
  rcases rc.tcb_valid with hsmall | hlarge
  · rw [if_neg (by omega)]
    obtain ⟨s₁, hcreate, h₁⟩ := h.createTables (l := 2 ^ rc.tcbBits + l) hn hpaging
      (by omega)
    obtain ⟨s₂, halloc, h₂⟩ := h₁.alloc (o := .tcb) (l := l) (by simp [htcb]) (by simp)
      (by simp) (by simp only [RootConfig.objectBits]; omega) (by norm_num) rfl
    simp only [RootConfig.objectBits] at halloc
    refine ⟨s₂, _, _, ?_, by simp only [RootConfig.objectBits]; omega,
      by simp only [RootConfig.objectBits]; omega, h₂, fun o => by simp⟩
    simp only [Option.bind_eq_bind, hcreate, Option.bind_some, halloc]
  · rw [if_pos (by omega)]
    obtain ⟨s₁, halloc, h₁⟩ := h.alloc (o := .tcb) (l := n * 2 ^ 12 + l) htcb (by simp)
      (by simp) (by simp only [RootConfig.objectBits]; omega) (by norm_num)
      (by simp only [RootConfig.objectBits]; omega)
    have hbits : rc.objectBits e .tcb = 12 := hlarge
    rw [hbits] at h₁
    obtain ⟨s₂, hcreate, h₂⟩ := h₁.createTables (l := l) hn (by simp [hpaging]) rfl
    simp only [RootConfig.objectBits] at halloc
    refine ⟨s₂, _, _, ?_, by norm_num, by norm_num, h₂, fun o => by simp [or_left_comm]⟩
    simp only [Option.bind_eq_bind, halloc, Option.bind_some, hcreate]

/-- The scheduling context comes last. -/
lemma Stage.createSc (h : Stage rc e n start stop k t left base s) (hk : 7 ≤ k ∧ k < 64)
    (hsc : .sc ∉ base) (hleft : left = if rc.mcs then 2 ^ 7 else 0) :
    ∃ s' k' base', createSchedContext rc s = some s' ∧
      Stage rc e n start stop k' t 0 base' s' ∧
      ∀ o, o ∈ base' ↔ (o = .sc ∧ rc.mcs = true) ∨ o ∈ base := by
  unfold createSchedContext
  by_cases hmcs : rc.mcs = true
  · rw [if_pos hmcs] at hleft ⊢
    obtain ⟨s₁, halloc, h₁⟩ := h.alloc (o := .sc) (l := 0) hsc (by simp) (by simp) hk.1 hk.2
      hleft
    exact ⟨s₁, _, _, halloc, h₁, fun o => by simp [hmcs]⟩
  · rw [if_neg hmcs] at hleft ⊢
    subst hleft
    exact ⟨s, _, _, rfl, h, fun o => by simp [hmcs]⟩

/-- The stage before the first object. -/
lemma Stage.initial (hpos : 0 < start) (hstop : stop < 2 ^ 64) (haligned : 2 ^ k ∣ start)
    (het : e < t) (hleft : start + left + extraBytes e = stop) :
    Stage rc e n start stop k t left [] { Rootserver.bss with mem := ⟨start, stop⟩ } where
  pos := hpos
  start_le := le_rfl
  stop_eq := rfl
  stop_lt := hstop
  aligned := haligned
  left_eq := by rw [if_pos het]; exact hleft
  fresh := by simp
  extra _ := rfl
  placed := by
    have hnone : Done [] t e = ∅ := by
      ext o
      simp [Done, het]
    rw [hnone]
    exact ⟨by simp, by simp, by simp⟩
  paging hmem := by simp at hmem

end Stage

/-- **The objects**: they are allocated without a failing assertion and fill the memory. -/
lemma createRootserverObjects_stage (rc : RootConfig) (start : ℕ) (r : Region) {e : ℕ}
    (he : e = 0 ∨ 12 ≤ e ∧ e < 64) (haligned : 2 ^ rootserverMaxSizeBits rc e ∣ start)
    (hpos : 0 < start) (hfit : start + calculateRootserverSize rc r e < 2 ^ 64) :
    ∃ s k base, createRootserverObjects rc start r e .bss = some s ∧
      Stage rc e (archGetNPaging rc.config r) start (start + calculateRootserverSize rc r e) k 12
        0 base s ∧
      ∀ o, rc.Present e o → o ∈ Done base 12 e := by
  have he64 : e < 64 := by omega
  obtain ⟨hc12, hc31⟩ := rc.cnodeSizeBits_bounds
  obtain ⟨hv12, hv13⟩ := rc.vspaceBits_bounds
  have hsize := calculateRootserverSize_eq rc r he64
  have hstop : wadd start (calculateRootserverSize rc r e) =
      start + calculateRootserverSize rc r e := Nat.mod_eq_of_lt hfit
  simp only [createRootserverObjects, hstop, Option.bind_eq_bind]
  generalize hn : archGetNPaging rc.config r = n at hsize ⊢
  generalize calculateRootserverSize rc r e = size at hsize hfit ⊢
  generalize hmax : rootserverMaxSizeBits rc e = max at haligned ⊢
  have hmaxe : e ≤ max ∧ 12 ≤ max ∧ max < 64 := by
    rw [← hmax, rootserverMaxSizeBits]
    omega
  -- the stages in the order of the source, each with what is left to place
  have h₀ : Stage rc e n start (start + size) max (max + 1)
      (2 ^ rc.cnodeSizeBits + 2 ^ rc.vspaceBits + (3 * 2 ^ 12 + (2 ^ rc.tcbBits + n * 2 ^ 12 +
        (if rc.mcs then 2 ^ 7 else 0)))) [] { Rootserver.bss with mem := ⟨start, start + size⟩ } :=
    .initial hpos hfit haligned (by omega) (by omega)
  obtain ⟨s₁, hcreate₁, h₁⟩ := h₀.maybeAlloc (c := max) (by omega) le_rfl hmaxe.2.2 (by omega)
    fun _ => hmaxe.1
  obtain ⟨s₂, k₂, base₂, hcreate₂, hk₂, hk₂', h₂, hbase₂⟩ := h₁.createTop hmax.symm he64 rfl
  obtain ⟨s₃, hcreate₃, h₃⟩ := h₂.maybeAlloc (c := 12) (by omega) hk₂ hk₂' hk₂ fun h => h.le
  obtain ⟨s₄, hcreate₄, h₄⟩ := h₃.createPages hbase₂ rfl
  obtain ⟨s₅, k₅, base₅, hcreate₅, hk₅, hk₅', h₅, hbase₅⟩ := h₄.createTcb hn (by simp [hbase₂])
    (by simp [hbase₂]) rfl
  obtain ⟨s₆, k₆, base₆, hcreate₆, h₆, hbase₆⟩ := h₅.createSc ⟨hk₅, hk₅'⟩
    (by simp [hbase₅, hbase₂]) rfl
  -- nothing is left, so the assertion at the end holds
  have hend : s₆.mem.start = s₆.mem.stop := by
    have hleft := h₆.left_eq
    have hextra : (if e < 12 then extraBytes e else 0) = 0 := by
      unfold extraBytes
      split_ifs <;> omega
    rw [h₆.stop_eq]
    omega
  refine ⟨s₆, k₆, base₆, ?_, h₆, ?_⟩
  · simp only [hcreate₁, hcreate₂, hcreate₃, hcreate₄, hcreate₅, hcreate₆, Option.bind_some,
      if_pos hend]
  · rintro o ⟨hextra, hsc⟩
    simp only [Done, Set.mem_ofPred_eq, hbase₆, hbase₅, hbase₂, List.mem_cons]
    cases o <;> simp_all
    omega

/-! ### The page tables suffice -/

/-- The loops so far have ended without a failing assertion, after taking at most `m` page
tables. -/
def ItResult.Within (res : ItResult) (s : ItPaging) (m : ℕ) : Prop :=
  ∃ t, (res = .done t ∨ res = .noSlot t) ∧ t.paging.stop = s.paging.stop ∧
    s.paging.start ≤ t.paging.start ∧ t.paging.start ≤ s.paging.start + m * 2 ^ 12

lemma ItResult.Within.refl (s : ItPaging) (m : ℕ) : (ItResult.done s).Within s m :=
  ⟨s, Or.inl rfl, rfl, le_rfl, Nat.le_add_right _ _⟩

lemma ItResult.Within.mono {res : ItResult} {s : ItPaging} {m m' : ℕ} (h : res.Within s m)
    (hle : m ≤ m') : res.Within s m' := by
  obtain ⟨t, ht, hend, hstart, hbound⟩ := h
  exact ⟨t, ht, hend, hstart, hbound.trans (Nat.add_le_add_left (Nat.mul_le_mul_right _ hle) _)⟩

lemma ItResult.Within.andThen {res : ItResult} {s : ItPaging} {m m' : ℕ} {f : ItPaging → ItResult}
    (h : res.Within s m)
    (hf : ∀ t : ItPaging, t.paging.stop = s.paging.stop →
      t.paging.start ≤ s.paging.start + m * 2 ^ 12 → (f t).Within t m') :
    (res.andThen f).Within s (m + m') := by
  obtain ⟨t, rfl | rfl, hstop, hle, hlt⟩ := h
  · obtain ⟨u, hu, hstop', hle', hlt'⟩ := hf t hstop hlt
    exact ⟨u, hu, hstop'.trans hstop, hle.trans hle', by omega⟩
  · refine ⟨t, Or.inr rfl, hstop, hle, hlt.trans ?_⟩
    rw [Nat.add_mul, ← Nat.add_assoc]
    exact Nat.le_add_right _ _

/-- A loop that reaches its end within `m` passes. -/
lemma takeTables_within (rc : RootConfig) {shift stop : ℕ} (hshift : shift < 64)
    (hwrap : stop + 2 ^ shift ≤ 2 ^ 64) (m : ℕ) : ∀ {fuel vptr : ℕ} {s : ItPaging},
    stop ≤ vptr + m * 2 ^ shift → m < fuel →
    s.paging.start + m * 2 ^ 12 ≤ s.paging.stop → s.paging.stop < 2 ^ 64 →
    (takeTables rc shift stop fuel vptr s).Within s m := by
  induction m with
  | zero =>
      intro fuel vptr s hstop hfuel hroom _
      obtain ⟨fuel, rfl⟩ := Nat.exists_eq_succ_of_ne_zero hfuel.ne'
      rw [takeTables, if_neg (by omega)]
      exact .refl s 0
  | succ m ih =>
      intro fuel vptr s hstop hfuel hroom hlt
      obtain ⟨fuel, rfl⟩ := Nat.exists_eq_succ_of_ne_zero (Nat.ne_zero_of_lt hfuel)
      rw [takeTables]
      by_cases hvptr : vptr < stop
      · have hstart : wadd s.paging.start (bit 12) = s.paging.start + 2 ^ 12 := by
          rw [bit_eq (by norm_num), wadd, Nat.mod_eq_of_lt (by omega)]
        have hnext : wadd vptr (bit shift) = vptr + 2 ^ shift := by
          rw [bit_eq hshift, wadd, Nat.mod_eq_of_lt (by omega)]
        simp only [if_pos hvptr, hstart, hnext]
        rw [if_pos (by omega)]
        by_cases hslot : s.slotPosCur ≥ bit rc.rootCNodeSizeBits
        · rw [if_pos hslot]
          exact ⟨_, Or.inr rfl, rfl, Nat.le_add_right _ _, by dsimp only; omega⟩
        · rw [if_neg hslot]
          have hstop' : stop ≤ vptr + 2 ^ shift + m * 2 ^ shift := by
            rw [Nat.succ_mul] at hstop
            omega
          obtain ⟨t, ht, hend, hle, hbound⟩ := ih
            (s := ⟨⟨s.paging.start + 2 ^ 12, s.paging.stop⟩, s.slotPosCur + 1⟩) hstop'
            (Nat.lt_of_succ_lt_succ hfuel) (by dsimp only; omega) hlt
          dsimp only at hend hle hbound
          exact ⟨t, ht, hend, by omega, by omega⟩
      · rw [if_neg hvptr]
        exact .refl s _

/-- A region below the top of the user addresses is covered by as many tables as
`get_n_paging` says, or the loop over it makes no pass. -/
lemma tables_le (r : Region) (bits : ℕ) (hbits : bits = 39 ∨ bits = 30 ∨ bits = 21)
    (hstop : r.stop < 2 ^ 47) :
    ∃ m, m ≤ getNPaging r bits ∧ r.stop ≤ roundDown r.start bits + m * 2 ^ bits := by
  by_cases hle : r.stop ≤ roundDown r.start bits
  · exact ⟨0, Nat.zero_le _, by omega⟩
  · refine ⟨getNPaging r bits, le_rfl, ?_⟩
    rcases hbits with rfl | rfl | rfl <;>
    · rw [getNPaging, bit_eq (by norm_num)]
      simp only [roundDown, wsub] at hle ⊢
      omega

/-- The loops of `create_it_address_space`, over a region below the top of the user
addresses. -/
lemma takeAllTables_within (rc : RootConfig) {r : Region} {fuel : ℕ} {s : ItPaging}
    (hstop : r.stop < 2 ^ 47) (hfuel : archGetNPaging rc.config r < fuel)
    (hroom : s.paging.start + archGetNPaging rc.config r * 2 ^ 12 ≤ s.paging.stop)
    (hlt : s.paging.stop < 2 ^ 64) :
    (takeAllTables rc r fuel s).Within s (archGetNPaging rc.config r) := by
  have hn := archGetNPaging_eq rc.config r
  obtain ⟨m₁, hm₁, hstop₁⟩ := tables_le r 30 (by norm_num) hstop
  obtain ⟨m₂, hm₂, hstop₂⟩ := tables_le r 21 (by norm_num) hstop
  obtain ⟨m₀, hm₀, hpuds⟩ : ∃ m₀, m₀ ≤ (if rc.config = .hyp40 then 0 else getNPaging r 39) ∧
      (if rc.config = .hyp40 then ItResult.done s
        else takeTables rc 39 r.stop fuel (roundDown r.start 39) s).Within s m₀ := by
    by_cases hhyp : rc.config = .hyp40
    · rw [if_pos hhyp, if_pos hhyp]
      exact ⟨0, le_rfl, .refl s 0⟩
    · rw [if_neg hhyp] at hn
      rw [if_neg hhyp, if_neg hhyp]
      obtain ⟨m₀, hm₀, hstop₀⟩ := tables_le r 39 (by norm_num) hstop
      have hle : m₀ ≤ archGetNPaging rc.config r := by omega
      have hroom₀ : s.paging.start + m₀ * 2 ^ 12 ≤ s.paging.stop :=
        (Nat.add_le_add_left (Nat.mul_le_mul_right _ hle) _).trans hroom
      exact ⟨m₀, hm₀, takeTables_within rc (by norm_num) (by omega) m₀ hstop₀ (hle.trans_lt hfuel)
        hroom₀ hlt⟩
  have hall : (takeAllTables rc r fuel s).Within s (m₀ + m₁ + m₂) := by
    refine ItResult.Within.andThen (ItResult.Within.andThen hpuds ?_) ?_
    · intro t hend hbound
      exact takeTables_within rc (by norm_num) (by omega) m₁ hstop₁ (by omega)
        (by rw [hend]; omega) (by rwa [hend])
    · intro t hend hbound
      exact takeTables_within rc (by norm_num) (by omega) m₂ hstop₂ (by omega)
        (by rw [hend]; omega) (by rwa [hend])
  exact hall.mono (by omega)

/-- **The objects of the root server fit exactly.** They are allocated at a start that is
aligned to the largest of them, other than zero, with the memory within the address space,
as `init_freemem` calls the function: no assertion fails, each object is aligned to its size
and none overlaps another, and nothing is left of the memory. The loops over a region that
ends below `USER_TOP`, as `try_init_kernel` has checked, then end without taking more page
tables than there are, whatever slots are free. -/
theorem createRootserverObjects_fits (rc : RootConfig) (start : ℕ) (r : Region) (e : ℕ)
    (he : e = 0 ∨ 12 ≤ e ∧ e < 64) (haligned : 2 ^ rootserverMaxSizeBits rc e ∣ start)
    (hpos : 0 < start) (hfit : start + calculateRootserverSize rc r e < 2 ^ 64) :
    ∃ s, createRootserverObjects rc start r e .bss = some s ∧
      s.mem.start = start + calculateRootserverSize rc r e ∧
      (∀ o, rc.Present e o → 2 ^ rc.objectBits e o ∣ s.rootserver o ∧ start ≤ s.rootserver o ∧
        s.rootserver o + rc.objectBytes e (archGetNPaging rc.config r) o ≤
          start + calculateRootserverSize rc r e) ∧
      (∀ o o', rc.Present e o → rc.Present e o' → o ≠ o' →
        s.rootserver o + rc.objectBytes e (archGetNPaging rc.config r) o ≤ s.rootserver o' ∨
          s.rootserver o' + rc.objectBytes e (archGetNPaging rc.config r) o' ≤
            s.rootserver o) ∧
      ∀ slotPosCur fuel, r.stop < rc.config.userTop → archGetNPaging rc.config r < fuel →
        ∃ t : ItPaging, t.paging.start ≤ t.paging.stop ∧
          (takeAllTables rc r fuel ⟨⟨s.rootserver .paging, s.pagingEnd⟩, slotPosCur⟩ = .done t ∨
            takeAllTables rc r fuel ⟨⟨s.rootserver .paging, s.pagingEnd⟩, slotPosCur⟩ =
              .noSlot t) := by
  obtain ⟨s, k, base, hcreate, hstage, hdone⟩ :=
    createRootserverObjects_stage rc start r he haligned hpos hfit
  have hend : s.mem.start = start + calculateRootserverSize rc r e := by
    have hleft := hstage.left_eq
    have hextra : (if e < 12 then extraBytes e else 0) = 0 := by
      unfold extraBytes
      split_ifs <;> omega
    omega
  refine ⟨s, hcreate, hend, fun o ho => ?_, fun o o' ho ho' => ?_, ?_⟩
  · rw [← hend]
    exact ⟨hstage.placed.aligned o (hdone o ho), hstage.placed.inside o (hdone o ho)⟩
  · exact hstage.placed.apart o (hdone o ho) o' (hdone o' ho')
  · intro slotPosCur fuel hstop hfuel
    have hpaging : .paging ∈ Done base 12 e := hdone _ ⟨by simp, by simp⟩
    have hbytes := (hstage.placed.inside _ hpaging).2
    have hpagingEnd := hstage.paging (by simpa [Done] using hpaging)
    simp only [RootConfig.objectBytes, if_true, RootConfig.objectBits] at hbytes
    obtain ⟨t, ht, hstop', hle, hbound⟩ := takeAllTables_within rc
      (s := ⟨⟨s.rootserver .paging, s.pagingEnd⟩, slotPosCur⟩)
      (hstop.trans_le rc.config.userTop_le) hfuel hpagingEnd.ge (by dsimp only; omega)
    exact ⟨t, by dsimp only at hstop' hbound; omega, ht⟩

/-- The default configuration. -/
def defaultRoot : RootConfig := ⟨.el1, 12, 11, false, by decide, by decide⟩

/-- An image of 2 MiB, with extra boot info of two pages. -/
theorem createRootserverObjects_fits_twoPages : ∃ s,
    createRootserverObjects defaultRoot 0xffffff8010000000 ⟨0x400000, 0x600000⟩ 13 .bss = some s ∧
      s.mem.start = 0xffffff8010000000 +
        calculateRootserverSize defaultRoot ⟨0x400000, 0x600000⟩ 13 := by
  obtain ⟨s, hcreate, hend, -⟩ := createRootserverObjects_fits defaultRoot 0xffffff8010000000
    ⟨0x400000, 0x600000⟩ 13 (by decide) (by decide +kernel) (by norm_num) (by decide +kernel)
  exact ⟨s, hcreate, hend⟩

end Kernel
