import Mathlib.Data.List.GetD
import Sel4Test.Kernel.ReservedRegions
import Sel4Test.Kernel.RootServer

/-!
The free memory of the kernel at boot, `init_freemem` of `src/kernel/boot.c`.

The available regions, converted to the kernel window and cut at its end, and the reserved
regions are both in order. A sweep with one index into each takes what is available and not
reserved over into `ndks_boot.freemem`, and every region that it passes is registered with
`reserve_region`. Then the objects of the root server get the uppermost place that is large
enough and aligned; the regions above it move up by one element, so that what is left of the
chosen region can be split in two.

* `Sweeping`: what the sweep has taken, passed and left at its two indices.
* `sweep_progress`, `registerRest_progress`, `takeRest_progress`: the three loops.
* `PlaceHead.shape`: the array as the loop that looks for a place finds it.
* `initFreemem_partitions`: the free regions and the memory of the root server.
-/

namespace Kernel

open Intervals

/-! ### The kernel window -/

/-- `PPTR_TOP`. -/
def Config.pptrTop : Config → ℕ
  | .el1 => 0xffffffffc0000000
  | .hyp44 => 0x000000ffc0000000
  | .hyp40 => 0x000000ffc0000000

/-- `paddr_to_pptr`. -/
def paddrToPptr (cfg : Config) (paddr : ℕ) : ℕ := wadd paddr cfg.pptrBaseOffset

/-- `pptr_to_paddr`. -/
def pptrToPaddr (cfg : Config) (pptr : ℕ) : ℕ := wsub pptr cfg.pptrBaseOffset

/-- `paddr_to_pptr_reg`. -/
def paddrToPptrReg (cfg : Config) (r : Region) : Region :=
  ⟨paddrToPptr cfg r.start, paddrToPptr cfg r.stop⟩

/-- `pptr_to_paddr_reg`. -/
def pptrToPaddrReg (cfg : Config) (r : Region) : Region :=
  ⟨pptrToPaddr cfg r.start, pptrToPaddr cfg r.stop⟩

/-- `ceiling_kernel_window`. -/
def ceilingKernelWindow (cfg : Config) (p : ℕ) : ℕ :=
  if pptrToPaddr cfg p > paddrTop then cfg.pptrTop else p

/-- `is_reg_empty`. -/
def isRegEmpty (r : Region) : Bool := r.start = r.stop

/-- `REG_EMPTY`. -/
def regEmpty : Region := ⟨0, 0⟩

/-! ### The checks -/

/-- `check_available_memory`. -/
def checkAvailableMemory (nAvailable : ℕ) (available : ℕ → Region) : Bool :=
  nAvailable ≠ 0 && (List.range nAvailable).all fun i =>
    !((available i).start > (available i).stop) && !((available i).start = (available i).stop) &&
      !(i > 0 ∧ (available i).start < (available (i - 1)).stop)

/-- `check_reserved_memory`. -/
def checkReservedMemory (nReserved : ℕ) (reserved : ℕ → Region) : Bool :=
  (List.range nReserved).all fun i =>
    !((reserved i).start > (reserved i).stop) &&
      !(i > 0 ∧ (reserved i).start < (reserved (i - 1)).stop)

/-! ### The free regions -/

/-- `ndks_boot`, as far as the memory goes, and `rootserver`. The record `calls` is that of
the regions that `reserve_region` has been called with, the last one first. -/
structure NdksBoot where
  freemem : ℕ → Region
  reserved : Reserved
  rootserver : Rootserver
  calls : List Region

/-- The build: the platform, the sizes of the root server, and whether assertions are
checked. -/
structure Build where
  platform : Platform
  root : RootConfig
  debug : Bool

namespace Build

variable (b : Build)

/-- The elements of `ndks_boot.freemem`. -/
def slots : ℕ := b.platform.maxNumFreememReg

def config : Config := b.root.config

/-- A call of `reserve_region` whose result is not looked at. Without assertions it goes on
with any region. -/
def reserve (reg : Region) (s : NdksBoot) : Option NdksBoot :=
  let checked := (reserveRegion b.platform reg s.reserved).map Prod.snd
  let list := if b.debug then checked
    else some (checked.getD (s.reserved.reserveFrom b.platform reg 0).2)
  list.map fun l => { s with reserved := l, calls := reg :: s.calls }

/-- The loop of `insert_region`, `n` elements from index `i` on. -/
def insertFrom (reg : Region) : ℕ → ℕ → NdksBoot → Option (Bool × NdksBoot)
  | 0, _, s => if b.debug then none else some (false, s)
  | n + 1, i, s =>
      if isRegEmpty (s.freemem i) then
        (b.reserve (pptrToPaddrReg b.config reg) s).map fun s =>
          (true, { s with freemem := Function.update s.freemem i reg })
      else insertFrom reg n (i + 1) s

/-- `insert_region`. -/
def insertRegion (reg : Region) (s : NdksBoot) : Option (Bool × NdksBoot) :=
  if b.debug ∧ ¬ reg.start ≤ reg.stop then none
  else if isRegEmpty reg then some (true, s)
  else b.insertFrom reg b.slots 0 s

/-- A call of `insert_region` whose result is not looked at. -/
def insert (reg : Region) (s : NdksBoot) : Option NdksBoot :=
  (b.insertRegion reg s).map Prod.snd

end Build

/-! ### The sweep -/

/-- The arguments of `init_freemem` that are arrays. The available regions are given by
physical addresses, which are words, the reserved ones by addresses of the kernel window. -/
structure MemoryMap where
  nAvailable : ℕ
  available : ℕ → Region
  nReserved : ℕ
  reserved : ℕ → Region
  words : ∀ i, (available i).start < 2 ^ 64 ∧ (available i).stop < 2 ^ 64

/-- The variables of the sweep at its end, with `avail_reg`, which it trims. -/
structure Swept where
  availReg : ℕ → Region
  a : ℕ
  r : ℕ
  boot : NdksBoot

/-- The main loop of `init_freemem`. -/
def sweep (b : Build) (g : MemoryMap) (availReg : ℕ → Region) (a r : ℕ) (s : NdksBoot) :
    Option Swept :=
  if a < g.nAvailable ∧ r < g.nReserved then
    if (g.reserved r).start = (g.reserved r).stop then sweep b g availReg a (r + 1) s
    else if (availReg a).start ≥ (availReg a).stop then sweep b g availReg (a + 1) r s
    else if (g.reserved r).stop ≤ (availReg a).start then do
      let s ← b.reserve (pptrToPaddrReg b.config (g.reserved r)) s
      sweep b g availReg a (r + 1) s
    else if (g.reserved r).start ≥ (availReg a).stop then do
      let s ← b.insert (availReg a) s
      sweep b g availReg (a + 1) r s
    else if (g.reserved r).start ≤ (availReg a).start then
      sweep b g (Function.update availReg a
        { availReg a with start := min (availReg a).stop (g.reserved r).stop }) a r s
    else do
      let s ← b.insert { availReg a with stop := (g.reserved r).start } s
      if (availReg a).stop > (g.reserved r).stop then
        sweep b g (Function.update availReg a
          { availReg a with start := (g.reserved r).stop }) a r s
      else sweep b g availReg (a + 1) r s
  else some ⟨availReg, a, r, s⟩
termination_by (g.nAvailable - a, g.nReserved - r, (availReg a).stop - (availReg a).start)

/-- The loop over the rest of the reserved regions. -/
def registerRest (b : Build) (g : MemoryMap) (r : ℕ) (s : NdksBoot) : Option NdksBoot :=
  if r < g.nReserved then
    if (g.reserved r).start < (g.reserved r).stop then do
      let s ← b.reserve (pptrToPaddrReg b.config (g.reserved r)) s
      registerRest b g (r + 1) s
    else registerRest b g (r + 1) s
  else some s
termination_by g.nReserved - r

/-- The loop over the rest of the available regions. -/
def takeRest (b : Build) (g : MemoryMap) (availReg : ℕ → Region) (a : ℕ) (s : NdksBoot) :
    Option NdksBoot :=
  if a < g.nAvailable then
    if (availReg a).start < (availReg a).stop then do
      let s ← b.insert (availReg a) s
      takeRest b g availReg (a + 1) s
    else takeRest b g availReg (a + 1) s
  else some s
termination_by g.nAvailable - a

/-! ### The place of the root server -/

/-- The loop that skips the empty regions: the number of regions below `k` up to the last
one that is not empty. -/
def skipEmpty (freemem : ℕ → Region) : ℕ → ℕ
  | 0 => 0
  | k + 1 => if isRegEmpty (freemem k) then skipEmpty freemem k else k + 1

/-- What the root server needs. -/
structure Demand where
  itVReg : Region
  extraBiSizeBits : ℕ

namespace Build

variable (b : Build) (d : Demand)

/-- `size`. -/
def rootSize : ℕ := calculateRootserverSize b.root d.itVReg d.extraBiSizeBits

/-- The place at the end of a region, aligned downwards. -/
def placeIn (reg : Region) : ℕ :=
  roundDown (wsub reg.stop (b.rootSize d)) (rootserverMaxSizeBits b.root d.extraBiSizeBits)

/-- The place is in the region, and its computation has not wrapped. -/
def Fits (reg : Region) : Prop :=
  wsub reg.stop (b.rootSize d) ≤ reg.stop ∧ b.placeIn d reg ≥ reg.start

instance (reg : Region) : Decidable (b.Fits d reg) := inferInstanceAs (Decidable (_ ∧ _))

/-- Region `i` is split around the objects. -/
def place (i : ℕ) (s : NdksBoot) : Option NdksBoot :=
  let start := b.placeIn d (s.freemem i)
  (createRootserverObjects b.root start d.itVReg d.extraBiSizeBits s.rootserver).map fun rs =>
    let after := Function.update s.freemem (i + 1)
      ⟨wadd start (b.rootSize d), (s.freemem i).stop⟩
    { s with
      rootserver := rs
      freemem := Function.update after i { after i with stop := start } }

/-- Region `i` moves up by one. -/
def shuffle (i : ℕ) (s : NdksBoot) : NdksBoot :=
  { s with
    freemem := Function.update (Function.update s.freemem (i + 1) (s.freemem i)) i regEmpty }

/-- The loop over the candidates, from region `i` of `i + 1` downwards; none if an assertion
fails. -/
def placeFrom : ℕ → NdksBoot → Option (Bool × NdksBoot)
  | 0, s => some (false, s)
  | i + 1, s =>
      if i < b.slots - 1 ∧ isRegEmpty (s.freemem (i + 1)) then
        if b.Fits d (s.freemem i) then (b.place d i s).map fun s => (true, s)
        else placeFrom i (shuffle i s)
      else none

end Build

/-- The conversion of the available regions. -/
def availRegs (cfg : Config) (available : ℕ → Region) (i : ℕ) : Region :=
  ⟨ceilingKernelWindow cfg (paddrToPptrReg cfg (available i)).start,
    ceilingKernelWindow cfg (paddrToPptrReg cfg (available i)).stop⟩

/-- The free regions of `init_freemem`, before the root server gets its place. -/
def collectFreemem (b : Build) (g : MemoryMap) (s : NdksBoot) : Option NdksBoot := do
  let w ← sweep b g (availRegs b.config g.available) 0 0
    { s with freemem := fun i => if i < b.slots then regEmpty else s.freemem i }
  let s ← registerRest b g w.r w.boot
  takeRest b g w.availReg w.a s

/-- `init_freemem`; none if an assertion fails. -/
def initFreemem (b : Build) (g : MemoryMap) (d : Demand) (s : NdksBoot) :
    Option (Bool × NdksBoot) :=
  if !checkAvailableMemory g.nAvailable g.available then some (false, s)
  else if !checkReservedMemory g.nReserved g.reserved then some (false, s)
  else (collectFreemem b g s).bind fun s =>
    if !isRegEmpty (s.freemem (b.slots - 1)) then some (false, s)
    else b.placeFrom d (skipEmpty s.freemem b.slots) s

/-! ### The elements of the array -/

section Stored

variable {b : Build} {s s' : NdksBoot} {F : List Region} {reg : Region}

/-- The last element is in use: there is no element left for the root server. -/
def Full (b : Build) (s : NdksBoot) : Prop := isRegEmpty (s.freemem (b.slots - 1)) = false

/-- The regions of a list are in the first elements, and the others are empty. -/
def Stored (b : Build) (F : List Region) (s : NdksBoot) : Prop :=
  F.length < b.slots ∧ ∀ i, i < b.slots → s.freemem i = F.getD i regEmpty

lemma Build.two_le_slots (b : Build) : 2 ≤ b.slots := by
  unfold Build.slots Platform.maxNumFreememReg
  omega

lemma isRegEmpty_iff : isRegEmpty reg = true ↔ reg.start = reg.stop := by
  simp [isRegEmpty]

/-- A call of `reserve_region` is noted and leaves the memory as it is. -/
lemma Build.reserve_spec (h : b.reserve reg s = some s') :
    s'.freemem = s.freemem ∧ s'.rootserver = s.rootserver ∧ s'.calls = reg :: s.calls := by
  unfold reserve at h
  obtain ⟨l, -, rfl⟩ := Option.map_eq_some_iff.mp h
  exact ⟨rfl, rfl, rfl⟩

/-- The loop of `insert_region` finds the first element behind the list. -/
lemma Build.insertFrom_spec (hstored : Stored b F s) (hF : ∀ f ∈ F, f.start < f.stop)
    {ok : Bool} (n : ℕ) : ∀ {i : ℕ}, i + n = b.slots → i ≤ F.length →
    b.insertFrom reg n i s = some (ok, s') →
    s'.freemem = Function.update s.freemem F.length reg ∧ s'.rootserver = s.rootserver ∧
      s'.calls = pptrToPaddrReg b.config reg :: s.calls := by
  induction n with
  | zero =>
      intro i hn hi
      have hlt := hstored.1
      omega
  | succ n ih =>
      intro i hn hi h
      rw [insertFrom] at h
      have hget := hstored.2 i (by omega)
      by_cases hlt : i < F.length
      · have hregion := hF _ (List.getElem_mem hlt)
        have hused : ¬ isRegEmpty (s.freemem i) = true := by
          rw [isRegEmpty_iff, hget, List.getD_eq_getElem _ _ hlt]
          exact hregion.ne
        rw [if_neg hused] at h
        exact ih (by omega) hlt h
      · obtain rfl : i = F.length := by omega
        have hfree : isRegEmpty (s.freemem F.length) = true := by
          rw [isRegEmpty_iff, hget, List.getD_eq_default _ _ le_rfl]
          rfl
        rw [if_pos hfree] at h
        obtain ⟨s₁, hreserve, heq⟩ := Option.map_eq_some_iff.mp h
        obtain ⟨hmem, hroot, hcalls⟩ := reserve_spec hreserve
        cases heq
        exact ⟨by rw [hmem], hroot, hcalls⟩

/-- **`insert_region`** adds a region to the list, or the array is full afterwards. -/
lemma Build.insert_spec (hstored : Stored b F s) (hF : ∀ f ∈ F, f.start < f.stop)
    (hreg : reg.start < reg.stop) (h : b.insert reg s = some s') :
    (Full b s' ∨ Stored b (F ++ [reg]) s') ∧ s'.rootserver = s.rootserver ∧
      s'.calls = pptrToPaddrReg b.config reg :: s.calls := by
  obtain ⟨⟨ok, s₁⟩, hinsert, rfl⟩ := Option.map_eq_some_iff.mp h
  have hused : isRegEmpty reg = false := by
    rw [Bool.eq_false_iff, ne_eq, isRegEmpty_iff]
    exact hreg.ne
  rw [insertRegion, if_neg (by simp [hreg.le]), hused, if_neg Bool.false_ne_true] at hinsert
  obtain ⟨hmem, hroot, hcalls⟩ := insertFrom_spec hstored hF b.slots (Nat.zero_add _)
    (Nat.zero_le _) hinsert
  refine ⟨?_, hroot, hcalls⟩
  dsimp only
  by_cases hlast : F.length + 1 < b.slots
  · refine Or.inr ⟨by simpa using hlast, fun i hi => ?_⟩
    rw [hmem]
    rcases lt_trichotomy i F.length with hlt | rfl | hgt
    · rw [Function.update_of_ne hlt.ne, hstored.2 i hi, List.getD_append _ _ _ _ hlt]
    · simp
    · rw [Function.update_of_ne hgt.ne', hstored.2 i hi, List.getD_eq_default _ _ hgt.le,
        List.getD_eq_default _ _ (by simpa using hgt)]
  · left
    have hlen : b.slots - 1 = F.length := by
      have := hstored.1
      omega
    rw [Full, hmem, hlen, Function.update_self]
    exact hused

/-- The loop of `insert_region` leaves a full array full. -/
lemma Build.insertFrom_full (hfull : Full b s) {ok : Bool} (n : ℕ) :
    ∀ {i : ℕ}, b.insertFrom reg n i s = some (ok, s') → Full b s' := by
  induction n with
  | zero =>
      intro i h
      rw [insertFrom] at h
      split_ifs at h
      cases h
      exact hfull
  | succ n ih =>
      intro i h
      rw [insertFrom] at h
      by_cases hfree : isRegEmpty (s.freemem i) = true
      · rw [if_pos hfree] at h
        obtain ⟨s₁, hreserve, heq⟩ := Option.map_eq_some_iff.mp h
        cases heq
        have hlast : b.slots - 1 ≠ i := by
          rintro rfl
          rw [hfull] at hfree
          cases hfree
        have hsame : Function.update s₁.freemem i reg (b.slots - 1) = s.freemem (b.slots - 1) := by
          rw [Function.update_of_ne hlast, (reserve_spec hreserve).1]
        exact (congrArg isRegEmpty hsame).trans hfull
      · rw [if_neg hfree] at h
        exact ih h

/-- A full array stays full. -/
lemma Build.insert_full (hfull : Full b s) (h : b.insert reg s = some s') : Full b s' := by
  obtain ⟨⟨ok, s₁⟩, hinsert, rfl⟩ := Option.map_eq_some_iff.mp h
  unfold insertRegion at hinsert
  split_ifs at hinsert with hle hempty
  · cases hinsert
    exact hfull
  · exact insertFrom_full hfull b.slots hinsert

end Stored

/-! ### What the sweep keeps -/

/-- The addresses of a list of regions. -/
def listAddrs (F : List Region) : Set ℕ := {x | ∃ f ∈ F, x ∈ f.addrs}

/-- The addresses of what is left of the available regions, from index `a` on. -/
def restAddrs (n : ℕ) (availReg : ℕ → Region) (a : ℕ) : Set ℕ :=
  {x | ∃ i, a ≤ i ∧ i < n ∧ x ∈ (availReg i).addrs}

namespace MemoryMap

variable (g : MemoryMap)

/-- The addresses of the reserved regions. -/
def reservedAddrs : Set ℕ := {x | ∃ j < g.nReserved, x ∈ (g.reserved j).addrs}

/-- The reserved regions are in order, as they have been checked. -/
structure ReservedInOrder : Prop where
  le : ∀ j, j < g.nReserved → (g.reserved j).start ≤ (g.reserved j).stop
  sorted : ∀ j k, j < k → k < g.nReserved → (g.reserved j).stop ≤ (g.reserved k).start

end MemoryMap

/-- The sweep at the indices `a` and `r`: the regions `F` that it has taken are in order and
lie before what is left, so do the reserved regions that it has passed, and nothing of the
set `T` is lost: the regions taken, and what is left outside the reserved regions. -/
structure Sweeping (g : MemoryMap) (T : Set ℕ) (F : List Region) (availReg : ℕ → Region)
    (a r : ℕ) : Prop where
  le : ∀ i, a ≤ i → i < g.nAvailable → (availReg i).start ≤ (availReg i).stop
  sorted : ∀ i j, a ≤ i → i < j → j < g.nAvailable → (availReg i).stop ≤ (availReg j).start
  nonempty : ∀ f ∈ F, f.start < f.stop
  ascending : F.Pairwise fun f f' => f.stop ≤ f'.start
  below : ∀ f ∈ F, ∀ i, a ≤ i → i < g.nAvailable → f.stop ≤ (availReg i).start
  passed : ∀ j, j < r → ∀ i, a ≤ i → i < g.nAvailable →
    (g.reserved j).start = (g.reserved j).stop ∨ (g.reserved j).stop ≤ (availReg i).start
  covers : listAddrs F ∪ (restAddrs g.nAvailable availReg a \ g.reservedAddrs) = T

namespace Sweeping

variable {g : MemoryMap} {T : Set ℕ} {F : List Region} {availReg av : ℕ → Region} {a r x : ℕ}

lemma restAddrs_eq {n : ℕ} (ha : a < n) :
    restAddrs n availReg a = (availReg a).addrs ∪ restAddrs n availReg (a + 1) := by
  ext y
  constructor
  · rintro ⟨i, hai, hi, hy⟩
    obtain rfl | hlt : i = a ∨ a + 1 ≤ i := by omega
    · exact Or.inl hy
    · exact Or.inr ⟨i, hlt, hi, hy⟩
  · rintro (hy | ⟨i, hai, hi, hy⟩)
    · exact ⟨a, le_rfl, ha, hy⟩
    · exact ⟨i, by omega, hi, hy⟩

lemma restAddrs_congr {n : ℕ} (h : ∀ i, a ≤ i → i < n → availReg i = av i) :
    restAddrs n availReg a = restAddrs n av a := by
  ext y
  constructor
  · rintro ⟨i, hai, hi, hy⟩
    exact ⟨i, hai, hi, h i hai hi ▸ hy⟩
  · rintro ⟨i, hai, hi, hy⟩
    exact ⟨i, hai, hi, (h i hai hi).symm ▸ hy⟩

/-- Only what is left matters. -/
lemma congr (h : Sweeping g T F availReg a r)
    (hav : ∀ i, a ≤ i → i < g.nAvailable → availReg i = av i) : Sweeping g T F av a r where
  le i hai hi := hav i hai hi ▸ h.le i hai hi
  sorted i j hai hij hj := by
    rw [← hav i hai (hij.trans hj), ← hav j (hai.trans hij.le) hj]
    exact h.sorted i j hai hij hj
  nonempty := h.nonempty
  ascending := h.ascending
  below f hf i hai hi := hav i hai hi ▸ h.below f hf i hai hi
  passed j hj i hai hi := hav i hai hi ▸ h.passed j hj i hai hi
  covers := restAddrs_congr hav ▸ h.covers

/-- A reserved region is passed that is empty or lies before what is left. -/
lemma passReserved (h : Sweeping g T F availReg a r)
    (hpass : ∀ i, a ≤ i → i < g.nAvailable →
      (g.reserved r).start = (g.reserved r).stop ∨ (g.reserved r).stop ≤ (availReg i).start) :
    Sweeping g T F availReg a (r + 1) := by
  refine ⟨h.le, h.sorted, h.nonempty, h.ascending, h.below, fun j hj => ?_, h.covers⟩
  obtain rfl | hlt : j = r ∨ j < r := by omega
  · exact hpass
  · exact h.passed j hlt

/-- An available region of which nothing is left is passed. -/
lemma skipAvail (h : Sweeping g T F availReg a r) (ha : a < g.nAvailable)
    (hempty : (availReg a).stop ≤ (availReg a).start) : Sweeping g T F availReg (a + 1) r where
  le i hai := h.le i (by omega)
  sorted i j hai := h.sorted i j (by omega)
  nonempty := h.nonempty
  ascending := h.ascending
  below f hf i hai := h.below f hf i (by omega)
  passed j hj i hai := h.passed j hj i (by omega)
  covers := by
    have hcovers := h.covers
    rw [restAddrs_eq ha, Region.addrs, Set.Ico_eq_empty (by omega), Set.empty_union] at hcovers
    exact hcovers

/-- What is left of the first available region starts later. -/
lemma advance {F' : List Region} (h : Sweeping g T F availReg a r)
    (hlo : (availReg a).start ≤ x) (hhi : x ≤ (availReg a).stop)
    (hne : ∀ f ∈ F', f.start < f.stop) (hasc : F'.Pairwise fun f f' => f.stop ≤ f'.start)
    (hbelow : ∀ f ∈ F', f.stop ≤ x)
    (hcovers : listAddrs F' ∪
      ((Set.Ico x (availReg a).stop ∪ restAddrs g.nAvailable availReg (a + 1)) \ g.reservedAddrs) =
        T) (ha : a < g.nAvailable) :
    Sweeping g T F' (Function.update availReg a { availReg a with start := x }) a r := by
  set av := Function.update availReg a { availReg a with start := x } with hav
  have hself : av a = { availReg a with start := x } := Function.update_self ..
  have hother {i : ℕ} (hi : a + 1 ≤ i) : av i = availReg i := Function.update_of_ne (by omega) ..
  have hlater {i : ℕ} (hi : a + 1 ≤ i) (hin : i < g.nAvailable) : x ≤ (availReg i).start :=
    hhi.trans (h.sorted a i le_rfl hi hin)
  have hstart {i : ℕ} (hai : a ≤ i) (hi : i < g.nAvailable) : x ≤ (av i).start := by
    obtain rfl | hlt : i = a ∨ a + 1 ≤ i := by omega
    · rw [hself]
    · rw [hother hlt]
      exact hlater hlt hi
  refine ⟨fun i hai hi => ?_, fun i j hai hij hj => ?_, hne, hasc,
    fun f hf i hai hi => (hbelow f hf).trans (hstart hai hi), fun j hj i hai hi => ?_, ?_⟩
  · obtain rfl | hlt : i = a ∨ a + 1 ≤ i := by omega
    · rw [hself]
      exact hhi
    · rw [hother hlt]
      exact h.le i hai hi
  · rw [hother (by omega : a + 1 ≤ j)]
    obtain rfl | hlt : i = a ∨ a + 1 ≤ i := by omega
    · rw [hself]
      exact h.sorted i j le_rfl hij hj
    · rw [hother hlt]
      exact h.sorted i j hai hij hj
  · refine (h.passed j hj a le_rfl ha).imp_right fun hle => ?_
    exact (hle.trans hlo).trans (hstart hai hi)
  · have hrest : restAddrs g.nAvailable av (a + 1) = restAddrs g.nAvailable availReg (a + 1) :=
      restAddrs_congr fun i hi _ => hother hi
    rw [restAddrs_eq ha, hrest, hself]
    exact hcovers

lemma listAddrs_append : listAddrs (F ++ [⟨a, x⟩]) = listAddrs F ∪ Set.Ico a x := by
  ext y
  simp [listAddrs, or_and_right, exists_or, Region.addrs]

/-- The first part of an available region is taken if none of it is reserved. -/
lemma take (h : Sweeping g T F availReg a r) (ha : a < g.nAvailable) (hlo : (availReg a).start < x)
    (hhi : x ≤ (availReg a).stop)
    (hfree : Disjoint (Set.Ico (availReg a).start x) g.reservedAddrs) :
    Sweeping g T (F ++ [⟨(availReg a).start, x⟩])
      (Function.update availReg a { availReg a with start := x }) a r := by
  refine h.advance hlo.le hhi (fun f hf => ?_) ?_ (fun f hf => ?_) ?_ ha
  · rcases List.mem_append.mp hf with hf | hf
    · exact h.nonempty f hf
    · rwa [List.mem_singleton.mp hf]
  · refine List.pairwise_append.mpr ⟨h.ascending, List.pairwise_singleton _ _, fun f hf f' hf' => ?_⟩
    rw [List.mem_singleton.mp hf']
    exact h.below f hf a le_rfl ha
  · rcases List.mem_append.mp hf with hf | hf
    · exact (h.below f hf a le_rfl ha).trans hlo.le
    · rw [List.mem_singleton.mp hf]
  · have hsplit : (availReg a).addrs =
        Set.Ico (availReg a).start x ∪ Set.Ico x (availReg a).stop :=
      (Set.Ico_union_Ico_eq_Ico hlo.le hhi).symm
    rw [← h.covers, listAddrs_append, restAddrs_eq ha, hsplit]
    ext y
    have hy (hin : y ∈ Set.Ico (availReg a).start x) : y ∉ g.reservedAddrs :=
      Set.disjoint_left.mp hfree hin
    simp only [Set.mem_union, Set.mem_sdiff]
    tauto

/-- The first part of an available region is dropped if all of it is reserved. -/
lemma trim (h : Sweeping g T F availReg a r) (ha : a < g.nAvailable) (hlo : (availReg a).start ≤ x)
    (hhi : x ≤ (availReg a).stop) (hres : Set.Ico (availReg a).start x ⊆ g.reservedAddrs) :
    Sweeping g T F (Function.update availReg a { availReg a with start := x }) a r := by
  refine h.advance hlo hhi h.nonempty h.ascending
    (fun f hf => (h.below f hf a le_rfl ha).trans hlo) ?_ ha
  have hsplit : (availReg a).addrs =
      Set.Ico (availReg a).start x ∪ Set.Ico x (availReg a).stop :=
    (Set.Ico_union_Ico_eq_Ico hlo hhi).symm
  rw [← h.covers, restAddrs_eq ha, hsplit]
  ext y
  have hy := @hres y
  simp only [Set.mem_union, Set.mem_sdiff]
  tauto

/-- No reserved address lies before the next reserved region in what is left. -/
lemma disjoint_reserved (h : Sweeping g T F availReg a r)
    (ha : a < g.nAvailable)
    (hnext : ∀ j, r ≤ j → j < g.nReserved → x ≤ (g.reserved j).start) :
    Disjoint (Set.Ico (availReg a).start x) g.reservedAddrs := by
  rw [Set.disjoint_left]
  rintro y ⟨hlo, hhi⟩ ⟨j, hj, hylo, hyhi⟩
  by_cases hjr : j < r
  · rcases h.passed j hjr a le_rfl ha with hempty | hpassed <;> omega
  · have := hnext j (by omega) hj
    omega

/-- What is left starts at the first available region. -/
lemma start_le (h : Sweeping g T F availReg a r) {i : ℕ} (hai : a ≤ i) (hi : i < g.nAvailable) :
    (availReg a).start ≤ (availReg i).start := by
  obtain rfl | hlt : i = a ∨ a < i := by omega
  · exact le_rfl
  · exact (h.le a le_rfl (hlt.trans hi)).trans (h.sorted a i le_rfl hlt hi)

/-- The reserved regions from the next one on start where it starts or later. -/
lemma next_le (hg : g.ReservedInOrder) {j : ℕ} (hr : r < g.nReserved) (hrj : r ≤ j)
    (hj : j < g.nReserved) : (g.reserved r).start ≤ (g.reserved j).start := by
  obtain rfl | hlt : j = r ∨ r < j := by omega
  · exact le_rfl
  · exact (hg.le r hr).trans (hg.sorted r j hlt hj)

end Sweeping

/-! ### The three loops -/

section Loops

variable {b : Build} {g : MemoryMap} {T : Set ℕ} {calls : List Region} {rs : Rootserver}
  {F : List Region} {availReg : ℕ → Region} {a r : ℕ} {s s' : NdksBoot}

/-- The reserved regions before index `r` that are not empty. -/
def passedRegions (g : MemoryMap) (r : ℕ) : List Region :=
  ((List.range r).map g.reserved).filter fun reg => !isRegEmpty reg

/-- The calls of `reserve_region` so far: one for each region taken, and one for each
reserved region passed that is not empty. -/
def Registered (b : Build) (g : MemoryMap) (calls : List Region) (F : List Region) (r : ℕ)
    (s : NdksBoot) : Prop :=
  ∃ new, s.calls = new ++ calls ∧
    new.Perm ((F ++ passedRegions g r).map (pptrToPaddrReg b.config))

/-- What the loops have collected. -/
structure Collected (b : Build) (g : MemoryMap) (T : Set ℕ) (calls : List Region)
    (rs : Rootserver) (F : List Region) (availReg : ℕ → Region) (a r : ℕ) (s : NdksBoot) :
    Prop where
  sweeping : Sweeping g T F availReg a r
  stored : Stored b F s
  registered : Registered b g calls F r s
  root : s.rootserver = rs

/-- The loops are on their way, or the array is full, which is noticed at the end. -/
def Progress (b : Build) (g : MemoryMap) (T : Set ℕ) (calls : List Region) (rs : Rootserver)
    (availReg : ℕ → Region) (a r : ℕ) (s : NdksBoot) : Prop :=
  Full b s ∨ ∃ F, Collected b g T calls rs F availReg a r s

lemma passedRegions_succ : passedRegions g (r + 1) =
    passedRegions g r ++ if isRegEmpty (g.reserved r) then [] else [g.reserved r] := by
  rw [passedRegions, List.range_succ, List.map_append, List.filter_append]
  cases h : isRegEmpty (g.reserved r) <;> simp [passedRegions, h]

/-- The bookkeeping of an empty reserved region. -/
lemma Progress.passEmpty (h : Progress b g T calls rs availReg a r s)
    (hempty : (g.reserved r).start = (g.reserved r).stop) :
    Progress b g T calls rs availReg a (r + 1) s := by
  refine h.imp_right fun ⟨F, h⟩ => ⟨F, h.sweeping.passReserved fun _ _ _ => Or.inl hempty,
    h.stored, ?_, h.root⟩
  rw [Registered, passedRegions_succ, if_pos (isRegEmpty_iff.mpr hempty), List.append_nil]
  exact h.registered

/-- A reserved region is registered and passed. -/
lemma Progress.reserve (h : Progress b g T calls rs availReg a r s)
    (hne : (g.reserved r).start ≠ (g.reserved r).stop)
    (hpass : a < g.nAvailable → (g.reserved r).stop ≤ (availReg a).start)
    (hreserve : b.reserve (pptrToPaddrReg b.config (g.reserved r)) s = some s') :
    Progress b g T calls rs availReg a (r + 1) s' := by
  obtain ⟨hmem, hroot, hcalls⟩ := Build.reserve_spec hreserve
  rcases h with hfull | ⟨F, hsweep, hstored, ⟨new, hnew, hperm⟩, hrs⟩
  · left
    rwa [Full, hmem]
  · refine Or.inr ⟨F, hsweep.passReserved fun i hai hi => Or.inr ?_, ?_, ?_, hroot.trans hrs⟩
    · exact (hpass (hai.trans_lt hi)).trans (hsweep.start_le hai hi)
    · rwa [Stored, hmem]
    · refine ⟨pptrToPaddrReg b.config (g.reserved r) :: new, by rw [hcalls, hnew]; rfl, ?_⟩
      rw [passedRegions_succ, if_neg (fun h => hne (isRegEmpty_iff.mp h)), ← List.append_assoc,
        List.map_append]
      exact (hperm.cons _).trans (List.perm_append_singleton _ _).symm

/-- An available region of which nothing is left is passed. -/
lemma Progress.skipAvail (h : Progress b g T calls rs availReg a r s) (ha : a < g.nAvailable)
    (hempty : (availReg a).stop ≤ (availReg a).start) :
    Progress b g T calls rs availReg (a + 1) r s :=
  h.imp_right fun ⟨F, h⟩ => ⟨F, h.sweeping.skipAvail ha hempty, h.stored, h.registered, h.root⟩

lemma Progress.congr {av : ℕ → Region} (h : Progress b g T calls rs availReg a r s)
    (hav : ∀ i, a ≤ i → i < g.nAvailable → availReg i = av i) :
    Progress b g T calls rs av a r s :=
  h.imp_right fun ⟨F, h⟩ => ⟨F, h.sweeping.congr hav, h.stored, h.registered, h.root⟩

/-- The first part of an available region is dropped if it is reserved. -/
lemma Progress.trim {x : ℕ} (h : Progress b g T calls rs availReg a r s) (ha : a < g.nAvailable)
    (hr : r < g.nReserved) (hstart : (g.reserved r).start ≤ (availReg a).start)
    (hlo : (availReg a).start ≤ x) (hhi : x ≤ (availReg a).stop) (hstop : x ≤ (g.reserved r).stop) :
    Progress b g T calls rs (Function.update availReg a { availReg a with start := x }) a r s := by
  refine h.imp_right fun ⟨F, h⟩ => ⟨F, h.sweeping.trim ha hlo hhi ?_, h.stored, h.registered, h.root⟩
  rintro y ⟨hylo, hyhi⟩
  exact ⟨r, hr, hstart.trans hylo, hyhi.trans_le hstop⟩

/-- The first part of an available region is taken if the reserved regions to come start
behind it. -/
lemma Progress.take {x : ℕ} (h : Progress b g T calls rs availReg a r s) (ha : a < g.nAvailable)
    (hlo : (availReg a).start < x) (hhi : x ≤ (availReg a).stop)
    (hnext : ∀ j, r ≤ j → j < g.nReserved → x ≤ (g.reserved j).start)
    (hinsert : b.insert ⟨(availReg a).start, x⟩ s = some s') :
    Progress b g T calls rs (Function.update availReg a { availReg a with start := x }) a r s' := by
  rcases h with hfull | ⟨F, hsweep, hstored, ⟨new, hnew, hperm⟩, hrs⟩
  · exact Or.inl (Build.insert_full hfull hinsert)
  · obtain ⟨hstored', hroot, hcalls⟩ := Build.insert_spec hstored hsweep.nonempty hlo hinsert
    refine hstored'.imp_right fun hstored' => ⟨_,
      hsweep.take ha hlo hhi (hsweep.disjoint_reserved ha hnext), hstored', ?_, hroot.trans hrs⟩
    refine ⟨pptrToPaddrReg b.config ⟨(availReg a).start, x⟩ :: new, by rw [hcalls, hnew]; rfl, ?_⟩
    rw [List.append_assoc, List.singleton_append, List.map_append, List.map_cons]
    refine (hperm.cons _).trans ?_
    rw [List.map_append]
    exact List.perm_middle.symm

/-- A whole available region is taken. -/
lemma Progress.takeAll (h : Progress b g T calls rs availReg a r s) (ha : a < g.nAvailable)
    (hlo : (availReg a).start < (availReg a).stop)
    (hnext : ∀ j, r ≤ j → j < g.nReserved → (availReg a).stop ≤ (g.reserved j).start)
    (hinsert : b.insert (availReg a) s = some s') :
    Progress b g T calls rs availReg (a + 1) r s' := by
  have htake := (h.take ha hlo le_rfl hnext hinsert).skipAvail ha (by rw [Function.update_self])
  exact htake.congr fun i hi _ => Function.update_of_ne (by omega) ..

/-- **The sweep** keeps the invariant, and ends behind all regions of one of the two kinds. -/
lemma sweep_progress (hg : g.ReservedInOrder) (availReg : ℕ → Region) (a r : ℕ) (s : NdksBoot)
    (h : Progress b g T calls rs availReg a r s) (hrn : r ≤ g.nReserved) {w : Swept}
    (hw : sweep b g availReg a r s = some w) :
    Progress b g T calls rs w.availReg w.a w.r w.boot ∧
      (g.nAvailable ≤ w.a ∨ g.nReserved ≤ w.r) ∧ w.r ≤ g.nReserved := by
  rw [sweep] at hw
  by_cases hin : a < g.nAvailable ∧ r < g.nReserved
  · obtain ⟨ha, hr⟩ := hin
    rw [if_pos ⟨ha, hr⟩] at hw
    have hnext {x : ℕ} (hx : x ≤ (g.reserved r).start) (j : ℕ) (hrj : r ≤ j)
        (hj : j < g.nReserved) : x ≤ (g.reserved j).start :=
      hx.trans (Sweeping.next_le hg hr hrj hj)
    by_cases hempty : (g.reserved r).start = (g.reserved r).stop
    · rw [if_pos hempty] at hw
      exact sweep_progress hg _ _ _ _ (h.passEmpty hempty) hr hw
    rw [if_neg hempty] at hw
    by_cases hnone : (availReg a).start ≥ (availReg a).stop
    · rw [if_pos hnone] at hw
      exact sweep_progress hg _ _ _ _ (h.skipAvail ha hnone) hrn hw
    rw [if_neg hnone] at hw
    by_cases hbelow : (g.reserved r).stop ≤ (availReg a).start
    · rw [if_pos hbelow] at hw
      obtain ⟨s₁, hreserve, hw⟩ := Option.bind_eq_some_iff.mp hw
      exact sweep_progress hg _ _ _ _ (h.reserve hempty (fun _ => hbelow) hreserve) hr hw
    rw [if_neg hbelow] at hw
    by_cases habove : (g.reserved r).start ≥ (availReg a).stop
    · rw [if_pos habove] at hw
      obtain ⟨s₁, hinsert, hw⟩ := Option.bind_eq_some_iff.mp hw
      exact sweep_progress hg _ _ _ _ (h.takeAll ha (by omega) (hnext habove) hinsert) hrn hw
    rw [if_neg habove] at hw
    by_cases hoverlap : (g.reserved r).start ≤ (availReg a).start
    · rw [if_pos hoverlap] at hw
      exact sweep_progress hg _ _ _ _
        (h.trim ha hr hoverlap (by omega) (min_le_left _ _) (min_le_right _ _)) hrn hw
    rw [if_neg hoverlap] at hw
    obtain ⟨s₁, hinsert, hw⟩ := Option.bind_eq_some_iff.mp hw
    -- what is before the reserved region is taken, and what is left starts with it
    have htake := h.take ha (x := (g.reserved r).start) (by omega) (by omega) (hnext le_rfl) hinsert
    set av := Function.update availReg a { availReg a with start := (g.reserved r).start } with hav
    have hself : av a = { availReg a with start := (g.reserved r).start } :=
      Function.update_self ..
    have hle := hg.le r hr
    by_cases hmore : (availReg a).stop > (g.reserved r).stop
    · rw [if_pos hmore] at hw
      have htrim := htake.trim ha hr (x := (g.reserved r).stop) (by rw [hself])
        (by rw [hself]; exact hle) (by rw [hself]; exact hmore.le) le_rfl
      rw [hself, hav, Function.update_idem] at htrim
      exact sweep_progress hg _ _ _ _ htrim hrn hw
    · rw [if_neg hmore] at hw
      have htrim := htake.trim ha hr (x := (availReg a).stop) (by rw [hself])
        (by rw [hself]; dsimp only; omega) (by rw [hself]) (by omega)
      have hskip := htrim.skipAvail ha (by rw [Function.update_self, hself])
      refine sweep_progress hg _ _ _ _ (hskip.congr fun i hi _ => ?_) hrn hw
      rw [Function.update_of_ne (by omega), hav, Function.update_of_ne (by omega)]
  · rw [if_neg hin] at hw
    cases hw
    exact ⟨h, by dsimp only; omega, hrn⟩
termination_by (g.nAvailable - a, g.nReserved - r, (availReg a).stop - (availReg a).start)

/-- The loop over the rest of the reserved regions: either none of the available regions is
left, or no reserved region. -/
lemma registerRest_progress (hg : g.ReservedInOrder) (r : ℕ) (s : NdksBoot)
    (h : Progress b g T calls rs availReg a r s) (hrn : r ≤ g.nReserved)
    (hend : g.nAvailable ≤ a ∨ g.nReserved ≤ r) {s' : NdksBoot}
    (hs : registerRest b g r s = some s') :
    Progress b g T calls rs availReg a g.nReserved s' := by
  rw [registerRest] at hs
  by_cases hr : r < g.nReserved
  · rw [if_pos hr] at hs
    have ha : ¬ a < g.nAvailable := by omega
    by_cases hne : (g.reserved r).start < (g.reserved r).stop
    · rw [if_pos hne] at hs
      obtain ⟨s₁, hreserve, hs⟩ := Option.bind_eq_some_iff.mp hs
      exact registerRest_progress hg (r + 1) s₁
        (h.reserve hne.ne (fun h => absurd h ha) hreserve) hr (by omega) hs
    · rw [if_neg hne] at hs
      have hempty : (g.reserved r).start = (g.reserved r).stop :=
        le_antisymm (hg.le r hr) (not_lt.mp hne)
      exact registerRest_progress hg (r + 1) s (h.passEmpty hempty) hr (by omega) hs
  · rw [if_neg hr] at hs
    cases hs
    obtain rfl : r = g.nReserved := by omega
    exact h
termination_by g.nReserved - r

/-- The loop over the rest of the available regions, with all reserved regions passed. -/
lemma takeRest_progress (hr : g.nReserved ≤ r) (a : ℕ) (s : NdksBoot)
    (h : Progress b g T calls rs availReg a r s) {s' : NdksBoot}
    (hs : takeRest b g availReg a s = some s') :
    ∃ a', g.nAvailable ≤ a' ∧ Progress b g T calls rs availReg a' r s' := by
  rw [takeRest] at hs
  by_cases ha : a < g.nAvailable
  · rw [if_pos ha] at hs
    by_cases hne : (availReg a).start < (availReg a).stop
    · rw [if_pos hne] at hs
      obtain ⟨s₁, hinsert, hs⟩ := Option.bind_eq_some_iff.mp hs
      exact takeRest_progress hr (a + 1) s₁
        (h.takeAll ha hne (fun j hrj hj => by omega) hinsert) hs
    · rw [if_neg hne] at hs
      exact takeRest_progress hr (a + 1) s (h.skipAvail ha (not_lt.mp hne)) hs
  · rw [if_neg ha] at hs
    cases hs
    exact ⟨a, by omega, h⟩
termination_by g.nAvailable - a

end Loops

/-! ### The regions before the sweep -/

/-- What holds of neighbours holds of all pairs, for regions whose ends are in order. -/
lemma sorted_of_neighbours {f : ℕ → Region} {n : ℕ} (hle : ∀ i, i < n → (f i).start ≤ (f i).stop)
    (hnext : ∀ i, 0 < i → i < n → (f (i - 1)).stop ≤ (f i).start) (i j : ℕ) (hij : i < j)
    (hj : j < n) : (f i).stop ≤ (f j).start := by
  induction j with
  | zero => omega
  | succ j ih =>
      have hlast : (f j).stop ≤ (f (j + 1)).start := hnext (j + 1) (Nat.succ_pos j) hj
      obtain rfl | hlt : i = j ∨ i < j := by omega
      · exact hlast
      · calc (f i).stop ≤ (f j).start := ih hlt (by omega)
          _ ≤ (f j).stop := hle j (by omega)
          _ ≤ (f (j + 1)).start := hlast

/-- The available regions are not empty and in order. -/
lemma checkAvailableMemory_spec {n : ℕ} {available : ℕ → Region}
    (h : checkAvailableMemory n available = true) :
    (∀ i, i < n → (available i).start < (available i).stop) ∧
      ∀ i j, i < j → j < n → (available i).stop ≤ (available j).start := by
  simp only [checkAvailableMemory, Bool.and_eq_true, List.all_eq_true, List.mem_range,
    Bool.not_eq_true', decide_eq_false_iff_not] at h
  have hlt (i : ℕ) (hi : i < n) : (available i).start < (available i).stop := by
    have := h.2 i hi
    omega
  refine ⟨hlt, sorted_of_neighbours (fun i hi => (hlt i hi).le) fun i hpos hi => ?_⟩
  have := (h.2 i hi).2
  omega

/-- The reserved regions are in order. -/
lemma checkReservedMemory_spec {g : MemoryMap}
    (h : checkReservedMemory g.nReserved g.reserved = true) : g.ReservedInOrder := by
  simp only [checkReservedMemory, Bool.and_eq_true, List.all_eq_true, List.mem_range,
    Bool.not_eq_true', decide_eq_false_iff_not] at h
  have hle (i : ℕ) (hi : i < g.nReserved) : (g.reserved i).start ≤ (g.reserved i).stop := by
    have := h i hi
    omega
  refine ⟨hle, sorted_of_neighbours hle fun i hpos hi => ?_⟩
  have := (h i hi).2
  omega

/-- The end of the window is the address of `PADDR_TOP`. -/
lemma Config.pptrTop_eq (cfg : Config) :
    cfg.pptrTop = paddrTop + cfg.pptrBaseOffset ∧ cfg.pptrTop < 2 ^ 64 ∧
      0 < cfg.pptrBaseOffset := by
  cases cfg <;> simp [Config.pptrTop, Config.pptrBaseOffset, paddrTop]

/-- A physical address is converted after it has been cut at the end of the window. -/
lemma ceilingKernelWindow_eq (cfg : Config) {paddr : ℕ} (h : paddr < 2 ^ 64) :
    ceilingKernelWindow cfg (paddrToPptr cfg paddr) = min paddr paddrTop + cfg.pptrBaseOffset := by
  obtain ⟨htop, hlt, -⟩ := cfg.pptrTop_eq
  have hback : pptrToPaddr cfg (paddrToPptr cfg paddr) = paddr := by
    simp only [pptrToPaddr, paddrToPptr, wadd, wsub]
    omega
  rw [ceilingKernelWindow, hback]
  by_cases habove : paddr > paddrTop
  · rw [if_pos habove, htop, min_eq_right habove.le]
  · rw [if_neg habove, min_eq_left (not_lt.mp habove)]
    exact Nat.mod_eq_of_lt (by omega)

namespace MemoryMap

variable (g : MemoryMap)

/-- The available memory, cut at the end of the window, by its addresses there. -/
def availableAddrs (cfg : Config) : Set ℕ :=
  {x | ∃ i < g.nAvailable, ∃ paddr ∈ (g.available i).addrs, paddr < paddrTop ∧
    x = paddr + cfg.pptrBaseOffset}

lemma availRegs_eq (cfg : Config) (i : ℕ) : availRegs cfg g.available i =
    ⟨min (g.available i).start paddrTop + cfg.pptrBaseOffset,
      min (g.available i).stop paddrTop + cfg.pptrBaseOffset⟩ := by
  rw [availRegs, paddrToPptrReg, ceilingKernelWindow_eq cfg (g.words i).1,
    ceilingKernelWindow_eq cfg (g.words i).2]

/-- The converted regions make up the available memory. -/
lemma restAddrs_availRegs (cfg : Config) :
    restAddrs g.nAvailable (availRegs cfg g.available) 0 = g.availableAddrs cfg := by
  ext x
  simp only [restAddrs, availableAddrs, Region.addrs, availRegs_eq, Set.mem_ofPred_eq, Set.mem_Ico]
  constructor
  · rintro ⟨i, -, hi, hlo, hhi⟩
    exact ⟨i, hi, x - cfg.pptrBaseOffset, by omega, by omega, by omega⟩
  · rintro ⟨i, hi, paddr, ⟨hlo, hhi⟩, htop, rfl⟩
    exact ⟨i, Nat.zero_le i, hi, by omega, by omega⟩

end MemoryMap

/-- What is to be free: the available memory without the reserved regions. -/
def freeAddrs (cfg : Config) (g : MemoryMap) : Set ℕ := g.availableAddrs cfg \ g.reservedAddrs

section Collect

variable {b : Build} {g : MemoryMap} {s s₁ : NdksBoot}

/-- The sweep at its start. -/
lemma Progress.initial (havail : checkAvailableMemory g.nAvailable g.available = true) :
    Progress b g (freeAddrs b.config g) s.calls s.rootserver (availRegs b.config g.available) 0 0
      { s with freemem := fun i => if i < b.slots then regEmpty else s.freemem i } := by
  obtain ⟨hlt, hsorted⟩ := checkAvailableMemory_spec havail
  refine Or.inr ⟨[], ⟨fun i _ hi => ?_, fun i j _ hij hj => ?_, by simp, List.Pairwise.nil, by simp,
    fun j hj => absurd hj (Nat.not_lt_zero j), ?_⟩, ⟨?_, fun i hi => ?_⟩, ⟨[], rfl, ?_⟩, rfl⟩
  · have := hlt i hi
    rw [g.availRegs_eq]
    dsimp only
    omega
  · have := hsorted i j hij hj
    rw [g.availRegs_eq, g.availRegs_eq]
    dsimp only
    omega
  · have hnone : listAddrs [] = ∅ := by
      ext x
      simp [listAddrs]
    rw [hnone, Set.empty_union, g.restAddrs_availRegs, freeAddrs]
  · have := b.two_le_slots
    simp only [List.length_nil]
    omega
  · exact if_pos hi
  · simp [passedRegions]

/-- **What the loops collect**: unless the array is full, its elements are the regions of
the free memory, in order, and all regions have been registered once. -/
lemma collectFreemem_spec (havail : checkAvailableMemory g.nAvailable g.available = true)
    (hreserved : checkReservedMemory g.nReserved g.reserved = true)
    (h : collectFreemem b g s = some s₁) :
    Full b s₁ ∨ ∃ F : List Region, (∀ f ∈ F, f.start < f.stop) ∧
      F.Pairwise (fun f f' => f.stop ≤ f'.start) ∧ listAddrs F = freeAddrs b.config g ∧
      Stored b F s₁ ∧ Registered b g s.calls F g.nReserved s₁ ∧ s₁.rootserver = s.rootserver := by
  have hg := checkReservedMemory_spec hreserved
  obtain ⟨w, hw, h⟩ := Option.bind_eq_some_iff.mp h
  obtain ⟨s₂, hregister, htake⟩ := Option.bind_eq_some_iff.mp h
  obtain ⟨hprogress, hend, hrn⟩ := sweep_progress hg _ 0 0 _ (.initial havail) (Nat.zero_le _) hw
  obtain ⟨a', ha', hdone⟩ := takeRest_progress le_rfl w.a s₂
    (registerRest_progress hg w.r w.boot hprogress hrn hend hregister) htake
  refine hdone.imp_right fun ⟨F, hsweep, hstored, hcalls, hroot⟩ =>
    ⟨F, hsweep.nonempty, hsweep.ascending, ?_, hstored, hcalls, hroot⟩
  have hnone : restAddrs g.nAvailable w.availReg a' = ∅ := by
    ext x
    simp only [restAddrs, Set.mem_ofPred_eq, Set.mem_empty_iff_false, iff_false]
    rintro ⟨i, hai, hi, -⟩
    omega
  have hcovers := hsweep.covers
  rwa [hnone, Set.empty_sdiff, Set.union_empty] at hcovers

end Collect

/-! ### The loop over the candidates -/

section Place

variable {b : Build} {d : Demand} {g : MemoryMap} {s s₀ s' : NdksBoot} {F : List Region} {i : ℕ}

/-- The states in which the loop over the candidates arrives at region `i`. -/
inductive PlaceHead (b : Build) (d : Demand) (s₀ : NdksBoot) : ℕ → NdksBoot → Prop
  | first {i : ℕ} : skipEmpty s₀.freemem b.slots = i + 1 → PlaceHead b d s₀ i s₀
  | next {i : ℕ} {s : NdksBoot} : PlaceHead b d s₀ (i + 1) s → ¬ b.Fits d (s.freemem (i + 1)) →
      PlaceHead b d s₀ i (Build.shuffle (i + 1) s)

/-- The empty elements behind a list are skipped. -/
lemma skipEmpty_eq (hstored : Stored b F s) (hF : ∀ f ∈ F, f.start < f.stop) (k : ℕ) :
    F.length ≤ k → k ≤ b.slots → skipEmpty s.freemem k = F.length := by
  induction k with
  | zero =>
      intro hk _
      rw [skipEmpty]
      omega
  | succ k ih =>
      intro hk hslots
      rw [skipEmpty]
      have hget := hstored.2 k (by omega)
      by_cases hlen : F.length = k + 1
      · have hlt : k < F.length := by omega
        have hused : ¬ isRegEmpty (s.freemem k) = true := by
          rw [isRegEmpty_iff, hget, List.getD_eq_getElem _ _ hlt]
          exact (hF _ (List.getElem_mem hlt)).ne
        rw [if_neg hused, hlen]
      · have hfree : isRegEmpty (s.freemem k) = true := by
          rw [isRegEmpty_iff, hget, List.getD_eq_default _ _ (by omega)]
          rfl
        rw [if_pos hfree]
        exact ih (by omega) (by omega)

/-- The array at region `i`: the candidates are where they have been, the element behind
region `i` is empty, and the regions above have moved up by one. -/
def shapeAt (F : List Region) (i j : ℕ) : Region :=
  if j ≤ i then F.getD j regEmpty
  else if j = i + 1 then regEmpty
  else F.getD (j - 1) regEmpty

/-- What the loop has found when it arrives at region `i`. -/
structure Shape (b : Build) (d : Demand) (s₀ : NdksBoot) (F : List Region) (i : ℕ) (s : NdksBoot) :
    Prop where
  lt : i < F.length
  freemem : ∀ j, j < b.slots → s.freemem j = shapeAt F i j
  small : ∀ j, i < j → j < F.length → ¬ b.Fits d (F.getD j regEmpty)
  calls : s.calls = s₀.calls
  root : s.rootserver = s₀.rootserver

/-- **The invariant** of the loop over the candidates. -/
lemma PlaceHead.shape (hstored : Stored b F s₀) (hF : ∀ f ∈ F, f.start < f.stop)
    (h : PlaceHead b d s₀ i s) : Shape b d s₀ F i s := by
  have hlen := hstored.1
  induction h with
  | @first i hfirst =>
      rw [skipEmpty_eq hstored hF b.slots hlen.le le_rfl] at hfirst
      refine ⟨by omega, fun j hj => ?_, fun j hij hj => by omega, rfl, rfl⟩
      rw [hstored.2 j hj, shapeAt]
      split_ifs with hji hnext
      · rfl
      · exact List.getD_eq_default _ _ (by omega)
      · rw [List.getD_eq_default _ _ (by omega), List.getD_eq_default _ _ (by omega)]
  | @next i s _ hsmall ih =>
      obtain ⟨hlt, hmem, hold, hcalls, hroot⟩ := ih
      have hcand : s.freemem (i + 1) = F.getD (i + 1) regEmpty := by
        rw [hmem (i + 1) (by omega), shapeAt, if_pos le_rfl]
      refine ⟨by omega, fun j hj => ?_, fun j hij hj => ?_, hcalls, hroot⟩
      · simp only [Build.shuffle, hcand]
        rcases lt_trichotomy j (i + 1) with hji | rfl | hji
        · rw [Function.update_of_ne hji.ne, Function.update_of_ne (by omega), hmem j hj, shapeAt,
            shapeAt, if_pos (by omega), if_pos (by omega)]
        · rw [Function.update_self, shapeAt, if_neg (by omega), if_pos rfl]
        · rw [Function.update_of_ne hji.ne', shapeAt, if_neg (by omega), if_neg (by omega)]
          obtain rfl | hj' : j = i + 1 + 1 ∨ i + 1 + 1 < j := by omega
          · rw [Function.update_self, Nat.add_sub_cancel]
          · rw [Function.update_of_ne hj'.ne', hmem j hj, shapeAt, if_neg (by omega),
              if_neg (by omega)]
      · obtain rfl | hj' : j = i + 1 ∨ i + 1 < j := by omega
        · rwa [← hcand]
        · exact hold j hj' hj

/-- The assertions of the loop hold, and it ends at a place or without one. -/
lemma placeFrom_spec (hstored : Stored b F s₀) (hF : ∀ f ∈ F, f.start < f.stop) (i : ℕ) :
    ∀ {s : NdksBoot}, PlaceHead b d s₀ i s →
      (∃ k t, PlaceHead b d s₀ k t ∧ b.Fits d (t.freemem k) ∧
        b.placeFrom d (i + 1) s = (b.place d k t).map fun t => (true, t)) ∨
      ∃ t, b.placeFrom d (i + 1) s = some (false, t) := by
  induction i with
  | zero =>
      intro s h
      obtain ⟨hlt, hmem, -⟩ := h.shape hstored hF
      have hlen := hstored.1
      have hassert : 0 < b.slots - 1 ∧ isRegEmpty (s.freemem (0 + 1)) = true := by
        refine ⟨by omega, ?_⟩
        rw [hmem 1 (by omega)]
        rfl
      rw [Build.placeFrom, if_pos hassert]
      by_cases hfits : b.Fits d (s.freemem 0)
      · rw [if_pos hfits]
        exact Or.inl ⟨0, s, h, hfits, rfl⟩
      · rw [if_neg hfits]
        exact Or.inr ⟨_, rfl⟩
  | succ i ih =>
      intro s h
      obtain ⟨hlt, hmem, -⟩ := h.shape hstored hF
      have hlen := hstored.1
      have hassert : i + 1 < b.slots - 1 ∧ isRegEmpty (s.freemem (i + 1 + 1)) = true := by
        refine ⟨by omega, ?_⟩
        rw [hmem (i + 1 + 1) (by omega), shapeAt, if_neg (by omega), if_pos rfl]
        rfl
      rw [Build.placeFrom, if_pos hassert]
      by_cases hfits : b.Fits d (s.freemem (i + 1))
      · rw [if_pos hfits]
        exact Or.inl ⟨i + 1, s, h, hfits, rfl⟩
      · rw [if_neg hfits]
        exact ih (h.next hfits)

/-- The free regions lie in the kernel window. -/
lemma freeAddrs_window (hF : ∀ f ∈ F, f.start < f.stop)
    (hfree : listAddrs F = freeAddrs b.config g) (f : Region) (hf : f ∈ F) :
    0 < f.start ∧ f.stop < 2 ^ 64 := by
  obtain ⟨htop, hlt, hpos⟩ := b.config.pptrTop_eq
  have hne := hF f hf
  have hmem {x : ℕ} (hx : x ∈ f.addrs) : x ∈ g.availableAddrs b.config := by
    have hx' : x ∈ listAddrs F := ⟨f, hf, hx⟩
    rw [hfree] at hx'
    exact hx'.1
  obtain ⟨_, _, paddr, _, _, heq⟩ := hmem (x := f.start) ⟨le_rfl, hne⟩
  obtain ⟨_, _, paddr', _, htop', heq'⟩ := hmem (x := f.stop - 1) ⟨by omega, by omega⟩
  omega

lemma rootSize_lt (b : Build) (d : Demand) : b.rootSize d < 2 ^ 64 := wadd_lt _ _

/-- A region with room for the objects, and the place in it. -/
lemma fits_spec {reg : Region} (hstop : reg.stop < 2 ^ 64) (h : b.Fits d reg) :
    2 ^ rootserverMaxSizeBits b.root d.extraBiSizeBits ∣ b.placeIn d reg ∧
      reg.start ≤ b.placeIn d reg ∧ b.placeIn d reg + b.rootSize d ≤ reg.stop := by
  obtain ⟨hwrap, hstart⟩ := h
  have hsize := rootSize_lt b d
  have hround : b.placeIn d reg ≤ wsub reg.stop (b.rootSize d) := Nat.div_mul_le_self _ _
  have hsub : wsub reg.stop (b.rootSize d) = reg.stop - b.rootSize d ∧
      b.rootSize d ≤ reg.stop := by
    unfold wsub at hwrap ⊢
    omega
  exact ⟨Dvd.intro_left _ rfl, hstart, by omega⟩

/-- The array after region `i` has been split around the objects. -/
def placedAt (F : List Region) (i start size j : ℕ) : Region :=
  if j < i then F.getD j regEmpty
  else if j = i then ⟨(F.getD i regEmpty).start, start⟩
  else if j = i + 1 then ⟨start + size, (F.getD i regEmpty).stop⟩
  else F.getD (j - 1) regEmpty

/-- **A place** for the root server, in region `i` of the list. -/
structure IsPlace (b : Build) (d : Demand) (F : List Region) (i start : ℕ) : Prop where
  lt : i < F.length
  aligned : 2 ^ rootserverMaxSizeBits b.root d.extraBiSizeBits ∣ start
  start_le : (F.getD i regEmpty).start ≤ start
  le_stop : start + b.rootSize d ≤ (F.getD i regEmpty).stop

/-- The objects are created at the place that was found, which is one as their creation
needs it. -/
lemma place_spec (hwindow : ∀ f ∈ F, 0 < f.start ∧ f.stop < 2 ^ 64)
    (hlen : F.length < b.slots) (h : Shape b d s₀ F i s) (hfits : b.Fits d (s.freemem i)) :
    ∃ start, IsPlace b d F i start ∧ 0 < start ∧ start + b.rootSize d < 2 ^ 64 ∧
      ((createRootserverObjects b.root start d.itVReg d.extraBiSizeBits s₀.rootserver).isSome →
        (b.place d i s).isSome) ∧
      ∀ t, b.place d i s = some t → t.calls = s₀.calls ∧
        createRootserverObjects b.root start d.itVReg d.extraBiSizeBits s₀.rootserver =
          some t.rootserver ∧
        ∀ j, j < b.slots → t.freemem j = placedAt F i start (b.rootSize d) j := by
  obtain ⟨hlt, hmem, -, hcalls, hroot⟩ := h
  have hcand : s.freemem i = F.getD i regEmpty := by
    rw [hmem i (by omega), shapeAt, if_pos le_rfl]
  have hmemF : F.getD i regEmpty ∈ F := by
    rw [List.getD_eq_getElem _ _ hlt]
    exact List.getElem_mem hlt
  obtain ⟨hpos, hstop⟩ := hwindow _ hmemF
  rw [hcand] at hfits
  obtain ⟨haligned, hstart, hle⟩ := fits_spec hstop hfits
  refine ⟨b.placeIn d (F.getD i regEmpty), ⟨hlt, haligned, hstart, hle⟩, by omega, by omega, ?_, ?_⟩
  · intro hcreate
    rw [Build.place, Option.isSome_map, hcand, hroot]
    exact hcreate
  · intro t ht
    obtain ⟨rs, hcreate, rfl⟩ := Option.map_eq_some_iff.mp ht
    rw [hcand, hroot] at hcreate
    refine ⟨hcalls, hcreate, fun j hj => ?_⟩
    have hend : wadd (b.placeIn d (F.getD i regEmpty)) (b.rootSize d) =
        b.placeIn d (F.getD i regEmpty) + b.rootSize d := Nat.mod_eq_of_lt (by omega)
    simp only [hcand, hend, placedAt]
    rcases lt_trichotomy j i with hji | rfl | hji
    · rw [Function.update_of_ne hji.ne, Function.update_of_ne (by omega), if_pos hji, hmem j hj,
        shapeAt, if_pos hji.le]
    · rw [Function.update_self, if_neg (lt_irrefl j), if_pos rfl, Function.update_of_ne (by omega),
        hcand]
    · rw [Function.update_of_ne hji.ne', if_neg (by omega), if_neg (by omega)]
      by_cases hnext : j = i + 1
      · rw [hnext, Function.update_self, if_pos rfl]
      · rw [Function.update_of_ne hnext, if_neg hnext, hmem j hj, shapeAt, if_neg (by omega),
          if_neg hnext]

end Place

/-! ### The regions at the end -/

section Partition

variable {b : Build} {d : Demand} {g : MemoryMap} {s s₁ s' : NdksBoot} {F : List Region}
  {i j k n start size : ℕ}

/-- The regions of the array that are not empty are disjoint and in ascending order. -/
def AscendingBelow (n : ℕ) (f : ℕ → Region) : Prop :=
  (∀ j, j < n → (f j).start ≤ (f j).stop) ∧
    ∀ j k, j < k → k < n → (f j).start ≠ (f j).stop → (f k).start ≠ (f k).stop →
      (f j).stop ≤ (f k).start

/-- The addresses of the first `n` regions of the array. -/
def arrayAddrs (n : ℕ) (f : ℕ → Region) : Set ℕ := {x | ∃ j < n, x ∈ (f j).addrs}

lemma getD_le (hF : ∀ f ∈ F, f.start < f.stop) (j : ℕ) :
    (F.getD j regEmpty).start ≤ (F.getD j regEmpty).stop := by
  by_cases hj : j < F.length
  · rw [List.getD_eq_getElem _ _ hj]
    exact (hF _ (List.getElem_mem hj)).le
  · rw [List.getD_eq_default _ _ (not_lt.mp hj)]
    exact le_rfl

lemma getD_ascending (hasc : F.Pairwise fun f f' => f.stop ≤ f'.start) (hjk : j < k)
    (hne : (F.getD k regEmpty).start ≠ (F.getD k regEmpty).stop) :
    (F.getD j regEmpty).stop ≤ (F.getD k regEmpty).start := by
  by_cases hk : k < F.length
  · rw [List.getD_eq_getElem _ _ hk, List.getD_eq_getElem _ _ (hjk.trans hk)]
    exact List.pairwise_iff_getElem.mp hasc j k (hjk.trans hk) hk hjk
  · rw [List.getD_eq_default _ _ (not_lt.mp hk)] at hne
    exact absurd rfl hne

lemma mem_listAddrs_iff {x : ℕ} : x ∈ listAddrs F ↔ ∃ j, x ∈ (F.getD j regEmpty).addrs := by
  constructor
  · rintro ⟨f, hf, hx⟩
    obtain ⟨j, hj, rfl⟩ := List.getElem_of_mem hf
    exact ⟨j, by rwa [List.getD_eq_getElem _ _ hj]⟩
  · rintro ⟨j, hx⟩
    by_cases hj : j < F.length
    · rw [List.getD_eq_getElem _ _ hj] at hx
      exact ⟨_, List.getElem_mem hj, hx⟩
    · rw [List.getD_eq_default _ _ (not_lt.mp hj)] at hx
      exact absurd hx.2 (Nat.not_lt_zero _)

lemma lt_length_of_mem {x : ℕ} (hx : x ∈ (F.getD j regEmpty).addrs) : j < F.length := by
  by_contra hj
  rw [List.getD_eq_default _ _ (not_lt.mp hj)] at hx
  exact absurd hx.2 (Nat.not_lt_zero _)

lemma placedAt_of_lt (h : j < i) : placedAt F i start size j = F.getD j regEmpty := if_pos h

lemma placedAt_self : placedAt F i start size i = ⟨(F.getD i regEmpty).start, start⟩ := by
  rw [placedAt, if_neg (lt_irrefl i), if_pos rfl]

lemma placedAt_succ :
    placedAt F i start size (i + 1) = ⟨start + size, (F.getD i regEmpty).stop⟩ := by
  rw [placedAt, if_neg (by omega), if_neg (by omega), if_pos rfl]

lemma placedAt_of_gt (h : i + 1 < j) : placedAt F i start size j = F.getD (j - 1) regEmpty := by
  rw [placedAt, if_neg (by omega), if_neg (by omega), if_neg (by omega)]

/-- The four kinds of elements around a place. -/
lemma cases_around (i j : ℕ) : j < i ∨ j = i ∨ j = i + 1 ∨ i + 1 < j := by omega

/-- What is left after the split is still in order. -/
lemma placedAt_ascending (hF : ∀ f ∈ F, f.start < f.stop)
    (hasc : F.Pairwise fun f f' => f.stop ≤ f'.start) (hlo : (F.getD i regEmpty).start ≤ start)
    (hhi : start + size ≤ (F.getD i regEmpty).stop) :
    AscendingBelow n (placedAt F i start size) := by
  constructor
  · intro j _
    rcases cases_around i j with h | rfl | rfl | h
    · rw [placedAt_of_lt h]
      exact getD_le hF j
    · rw [placedAt_self]
      exact hlo
    · rw [placedAt_succ]
      exact hhi
    · rw [placedAt_of_gt h]
      exact getD_le hF (j - 1)
  · intro j k hjk _ hj hk
    -- the split candidate is not empty, unless nothing was placed
    have hcand : (F.getD i regEmpty).start ≠ (F.getD i regEmpty).stop ∨ size = 0 := by omega
    rcases cases_around i k with h | rfl | rfl | h
    · rw [placedAt_of_lt h] at hk ⊢
      rw [placedAt_of_lt (hjk.trans h)]
      exact getD_ascending hasc hjk hk
    · rw [placedAt_self] at hk ⊢
      rw [placedAt_of_lt hjk]
      exact getD_ascending hasc hjk (by dsimp only at hk; omega)
    · rw [placedAt_succ] at hk ⊢
      rcases cases_around i j with h' | rfl | rfl | h'
      · rw [placedAt_of_lt h']
        have := getD_ascending hasc h' (by dsimp only at hk; omega)
        dsimp only
        omega
      · rw [placedAt_self]
        exact Nat.le_add_right _ _
      · omega
      · omega
    · rw [placedAt_of_gt h] at hk ⊢
      rcases cases_around i j with h' | rfl | rfl | h'
      · rw [placedAt_of_lt h']
        exact getD_ascending hasc (by omega) hk
      · rw [placedAt_self]
        have := getD_ascending hasc (j := j) (by omega : j < k - 1) hk
        dsimp only
        omega
      · rw [placedAt_succ]
        exact getD_ascending hasc (by omega) hk
      · rw [placedAt_of_gt h']
        exact getD_ascending hasc (by omega) hk

/-- The regions after the split, with the place itself, make up the list. -/
lemma placedAt_addrs (hlen : F.length < n) (hi : i < F.length)
    (hlo : (F.getD i regEmpty).start ≤ start) (hhi : start + size ≤ (F.getD i regEmpty).stop) :
    arrayAddrs n (placedAt F i start size) ∪ Set.Ico start (start + size) = listAddrs F := by
  ext x
  rw [Set.mem_union, mem_listAddrs_iff]
  constructor
  · rintro (⟨j, _, hx⟩ | ⟨hxlo, hxhi⟩)
    · rcases cases_around i j with h | rfl | rfl | h
      · rw [placedAt_of_lt h] at hx
        exact ⟨j, hx⟩
      · rw [placedAt_self] at hx
        exact ⟨j, hx.1, hx.2.trans_le (by dsimp only; omega)⟩
      · rw [placedAt_succ] at hx
        exact ⟨i, le_trans (by dsimp only; omega) hx.1, hx.2⟩
      · rw [placedAt_of_gt h] at hx
        exact ⟨j - 1, hx⟩
    · exact ⟨i, hlo.trans hxlo, hxhi.trans_le hhi⟩
  · rintro ⟨j, hx⟩
    have hj := lt_length_of_mem hx
    rcases lt_trichotomy j i with h | rfl | h
    · exact Or.inl ⟨j, by omega, by rwa [placedAt_of_lt h]⟩
    · obtain ⟨hxlo, hxhi⟩ := hx
      rcases lt_or_ge x start with hbefore | hfrom
      · exact Or.inl ⟨j, by omega, by rw [placedAt_self]; exact ⟨hxlo, hbefore⟩⟩
      · rcases lt_or_ge x (start + size) with hin | hbehind
        · exact Or.inr ⟨hfrom, hin⟩
        · exact Or.inl ⟨j + 1, by omega, by rw [placedAt_succ]; exact ⟨hbehind, hxhi⟩⟩
    · exact Or.inl ⟨j + 1, by omega, by rwa [placedAt_of_gt (by omega), Nat.add_sub_cancel]⟩

/-- No region after the split reaches into the place. -/
lemma placedAt_disjoint (hF : ∀ f ∈ F, f.start < f.stop)
    (hasc : F.Pairwise fun f f' => f.stop ≤ f'.start) (hi : i < F.length)
    (hlo : (F.getD i regEmpty).start ≤ start) (hhi : start + size ≤ (F.getD i regEmpty).stop)
    (j : ℕ) : Disjoint (placedAt F i start size j).addrs (Set.Ico start (start + size)) := by
  have hcand : (F.getD i regEmpty).start ≠ (F.getD i regEmpty).stop := by
    rw [List.getD_eq_getElem _ _ hi]
    exact (hF _ (List.getElem_mem hi)).ne
  rw [Set.disjoint_left]
  rintro x hx ⟨hxlo, hxhi⟩
  rcases cases_around i j with h | rfl | rfl | h
  · rw [placedAt_of_lt h] at hx
    have := getD_ascending hasc h hcand
    have := hx.2
    omega
  · rw [placedAt_self] at hx
    exact absurd hx.2 (not_lt.mpr hxlo)
  · rw [placedAt_succ] at hx
    exact absurd hxhi (not_lt.mpr hx.1)
  · rw [placedAt_of_gt h] at hx
    have hlt := lt_length_of_mem hx
    have hne : (F.getD (j - 1) regEmpty).start ≠ (F.getD (j - 1) regEmpty).stop := by
      have := hx.1
      have := hx.2
      omega
    have := getD_ascending hasc (j := i) (by omega : i < j - 1) hne
    have := hx.1
    omega

/-- The candidates and the regions above them are in order. -/
lemma shapeAt_ascending (hF : ∀ f ∈ F, f.start < f.stop)
    (hasc : F.Pairwise fun f f' => f.stop ≤ f'.start) : AscendingBelow n (shapeAt F i) := by
  constructor
  · intro j _
    unfold shapeAt
    split_ifs
    · exact getD_le hF j
    · exact le_rfl
    · exact getD_le hF (j - 1)
  · intro j k hjk _ hj hk
    unfold shapeAt at *
    split_ifs at * with h₁ h₂ h₃ h₄ <;> first
      | omega
      | exact absurd rfl hj
      | exact absurd rfl hk
      | exact getD_ascending hasc (by omega) hk

/-- While the loop is on its way nothing is allocated. -/
lemma shapeAt_addrs (hlen : F.length < n) :
    arrayAddrs n (shapeAt F i) = listAddrs F := by
  ext x
  rw [mem_listAddrs_iff]
  constructor
  · rintro ⟨j, _, hx⟩
    unfold shapeAt at hx
    split_ifs at hx
    · exact ⟨j, hx⟩
    · exact absurd hx.2 (Nat.not_lt_zero _)
    · exact ⟨j - 1, hx⟩
  · rintro ⟨j, hx⟩
    have hj := lt_length_of_mem hx
    by_cases hji : j ≤ i
    · exact ⟨j, by omega, by rwa [shapeAt, if_pos hji]⟩
    · refine ⟨j + 1, by omega, ?_⟩
      rwa [shapeAt, if_neg (by omega), if_neg (by omega), Nat.add_sub_cancel]

lemma arrayAddrs_congr {f f' : ℕ → Region} (h : ∀ j, j < n → f j = f' j) :
    arrayAddrs n f = arrayAddrs n f' := by
  ext x
  constructor
  · rintro ⟨j, hj, hx⟩
    exact ⟨j, hj, h j hj ▸ hx⟩
  · rintro ⟨j, hj, hx⟩
    exact ⟨j, hj, (h j hj).symm ▸ hx⟩

lemma AscendingBelow.congr {f f' : ℕ → Region} (h : ∀ j, j < n → f j = f' j)
    (hf : AscendingBelow n f') : AscendingBelow n f := by
  constructor
  · intro j hj
    rw [h j hj]
    exact hf.1 j hj
  · intro j k hjk hk
    rw [h j (hjk.trans hk), h k hk]
    exact hf.2 j k hjk hk

/-- What `init_freemem` has done when it returns true: the objects of the root server are
at `start`; the free regions are in ascending order and disjoint, also from the objects;
together they are the available memory up to the end of the window without the reserved
regions; and the regions of the free memory and the reserved ones that are not empty have
been registered, each exactly once. -/
structure Partitioned (b : Build) (d : Demand) (g : MemoryMap) (s s' : NdksBoot) (start : ℕ) :
    Prop where
  aligned : 2 ^ rootserverMaxSizeBits b.root d.extraBiSizeBits ∣ start
  inside : 0 < start ∧ start + b.rootSize d < 2 ^ 64
  objects : createRootserverObjects b.root start d.itVReg d.extraBiSizeBits s.rootserver =
    some s'.rootserver
  free : arrayAddrs b.slots s'.freemem ∪ Set.Ico start (start + b.rootSize d) =
    g.availableAddrs b.config \ g.reservedAddrs
  ascending : AscendingBelow b.slots s'.freemem
  apart : ∀ j, j < b.slots →
    Disjoint (s'.freemem j).addrs (Set.Ico start (start + b.rootSize d))
  registered : ∃ F : List Region, (∀ f ∈ F, f.start < f.stop) ∧
    F.Pairwise (fun f f' => f.stop ≤ f'.start) ∧
    listAddrs F = g.availableAddrs b.config \ g.reservedAddrs ∧
    Registered b g s.calls F g.nReserved s'

/-- The invariants that are stated at the loop over the candidates, at region `i`. -/
structure CandidateInvariant (b : Build) (d : Demand) (g : MemoryMap) (i : ℕ) (s : NdksBoot) :
    Prop where
  index_lt : i + 1 < b.slots
  next_empty : isRegEmpty (s.freemem (i + 1)) = true
  above_small : ∀ j, i + 1 < j → j < b.slots →
    isRegEmpty (s.freemem j) = true ∨ ¬ b.Fits d (s.freemem j)
  ascending : AscendingBelow b.slots s.freemem
  unallocated : arrayAddrs b.slots s.freemem = g.availableAddrs b.config \ g.reservedAddrs

lemma Shape.invariant {s₂ : NdksBoot} (h : Shape b d s₁ F i s₂) (hF : ∀ f ∈ F, f.start < f.stop)
    (hasc : F.Pairwise fun f f' => f.stop ≤ f'.start)
    (hfree : listAddrs F = freeAddrs b.config g) (hlen : F.length < b.slots) :
    CandidateInvariant b d g i s₂ := by
  obtain ⟨hlt, hmem, hsmall, -, -⟩ := h
  refine ⟨by omega, ?_, fun j hj hjn => ?_, (shapeAt_ascending hF hasc).congr hmem, ?_⟩
  · rw [hmem (i + 1) (by omega), shapeAt, if_neg (by omega), if_pos rfl]
    rfl
  · rw [hmem j hjn, shapeAt, if_neg (by omega), if_neg (by omega)]
    by_cases hlast : j - 1 < F.length
    · exact Or.inr (hsmall (j - 1) (by omega) hlast)
    · left
      rw [List.getD_eq_default _ _ (not_lt.mp hlast)]
      rfl
  · rw [arrayAddrs_congr hmem, shapeAt_addrs hlen, hfree, freeAddrs]

/-- The loop over the candidates, from the last region of the list on. -/
lemma placeFrom_skip (hstored : Stored b F s₁) (hF : ∀ f ∈ F, f.start < f.stop) :
    (∃ k t, PlaceHead b d s₁ k t ∧ b.Fits d (t.freemem k) ∧
      b.placeFrom d (skipEmpty s₁.freemem b.slots) s₁ =
        (b.place d k t).map fun t => (true, t)) ∨
      ∃ t, b.placeFrom d (skipEmpty s₁.freemem b.slots) s₁ = some (false, t) := by
  generalize hskip : skipEmpty s₁.freemem b.slots = m
  cases m with
  | zero => exact Or.inr ⟨s₁, rfl⟩
  | succ m => exact placeFrom_spec hstored hF m (.first hskip)

/-- A successful run has found a place. -/
lemma partitioned_of_place {k : ℕ} {t : NdksBoot} (hF : ∀ f ∈ F, f.start < f.stop)
    (hasc : F.Pairwise fun f f' => f.stop ≤ f'.start) (hfree : listAddrs F = freeAddrs b.config g)
    (hstored : Stored b F s₁) (hcalls : Registered b g s.calls F g.nReserved s₁)
    (hroot : s₁.rootserver = s.rootserver) (hhead : PlaceHead b d s₁ k t)
    (hfits : b.Fits d (t.freemem k)) (hplace : b.place d k t = some s') :
    ∃ start, Partitioned b d g s s' start := by
  obtain ⟨start, ⟨hlt, haligned, hlo, hhi⟩, hpos, hend, -, hspec⟩ :=
    place_spec (freeAddrs_window hF hfree) hstored.1 (hhead.shape hstored hF) hfits
  obtain ⟨hsame, hcreate, hmem⟩ := hspec s' hplace
  refine ⟨start, haligned, ⟨hpos, hend⟩, hroot ▸ hcreate, ?_,
    (placedAt_ascending hF hasc hlo hhi).congr hmem, fun j hj => ?_, F, hF, hasc, hfree, ?_⟩
  · rw [arrayAddrs_congr hmem, placedAt_addrs hstored.1 hlt hlo hhi, hfree, freeAddrs]
  · rw [hmem j hj]
    exact placedAt_disjoint hF hasc hlt hlo hhi j
  · rwa [Registered, hsame]

/-- Without assertions the sweep always ends. -/
lemma sweep_isSome (hdebug : b.debug = false) (availReg : ℕ → Region) (a r : ℕ) (s : NdksBoot) :
    (sweep b g availReg a r s).isSome := by
  have hreserve (reg : Region) (s : NdksBoot) : ∃ s', b.reserve reg s = some s' := by
    simp [Build.reserve, hdebug]
  have hfrom (reg : Region) (n : ℕ) : ∀ (i : ℕ) (s : NdksBoot),
      ∃ q, b.insertFrom reg n i s = some q := by
    induction n with
    | zero =>
        intro i s
        exact ⟨(false, s), by rw [Build.insertFrom, hdebug, if_neg Bool.false_ne_true]⟩
    | succ n ih =>
        intro i s
        rw [Build.insertFrom]
        split_ifs
        · obtain ⟨s', hs'⟩ := hreserve (pptrToPaddrReg b.config reg) s
          exact ⟨_, by rw [hs', Option.map_some]⟩
        · exact ih (i + 1) s
  have hinsert (reg : Region) (s : NdksBoot) : ∃ s', b.insert reg s = some s' := by
    rw [Build.insert, Build.insertRegion, hdebug, if_neg (by simp)]
    split_ifs
    · exact ⟨s, rfl⟩
    · obtain ⟨q, hq⟩ := hfrom reg b.slots 0 s
      exact ⟨q.2, by rw [hq, Option.map_some]⟩
  -- along the branches of the sweep: each moves on in one of the two lists or shortens a region
  rw [sweep]
  by_cases hin : a < g.nAvailable ∧ r < g.nReserved
  · rw [if_pos hin]
    by_cases hempty : (g.reserved r).start = (g.reserved r).stop
    · rw [if_pos hempty]
      exact sweep_isSome hdebug availReg a (r + 1) s
    rw [if_neg hempty]
    by_cases hnone : (availReg a).start ≥ (availReg a).stop
    · rw [if_pos hnone]
      exact sweep_isSome hdebug availReg (a + 1) r s
    rw [if_neg hnone]
    by_cases hbelow : (g.reserved r).stop ≤ (availReg a).start
    · rw [if_pos hbelow]
      obtain ⟨s₁, hs₁⟩ := hreserve (pptrToPaddrReg b.config (g.reserved r)) s
      rw [hs₁]
      exact sweep_isSome hdebug availReg a (r + 1) s₁
    rw [if_neg hbelow]
    by_cases habove : (g.reserved r).start ≥ (availReg a).stop
    · rw [if_pos habove]
      obtain ⟨s₁, hs₁⟩ := hinsert (availReg a) s
      rw [hs₁]
      exact sweep_isSome hdebug availReg (a + 1) r s₁
    rw [if_neg habove]
    by_cases hoverlap : (g.reserved r).start ≤ (availReg a).start
    · rw [if_pos hoverlap]
      exact sweep_isSome hdebug _ a r s
    rw [if_neg hoverlap]
    obtain ⟨s₁, hs₁⟩ := hinsert { availReg a with stop := (g.reserved r).start } s
    rw [hs₁]
    by_cases hmore : (availReg a).stop > (g.reserved r).stop
    · simp only [Option.bind_eq_bind, Option.bind_some, if_pos hmore]
      exact sweep_isSome hdebug _ a r s₁
    · simp only [Option.bind_eq_bind, Option.bind_some, if_neg hmore]
      exact sweep_isSome hdebug availReg (a + 1) r s₁
  · rw [if_neg hin]
    rfl
termination_by (g.nAvailable - a, g.nReserved - r, (availReg a).stop - (availReg a).start)

/-- **The free memory is partitioned.** For all available and reserved regions, whatever
the root server needs: when `init_freemem` returns true, the free regions and the memory of
the root server are what they should be. In all runs in which the regions pass the checks
and the array has an element left, the invariants stated at the loop over the candidates hold
whenever it is entered, and with `rootserver` in its first state the function returns. The
sweep ends from all indices; only an assertion can stop it before. -/
theorem initFreemem_partitions (b : Build) (g : MemoryMap) (d : Demand) (s : NdksBoot) :
    (∀ s', initFreemem b g d s = some (true, s') → ∃ start, Partitioned b d g s s' start) ∧
      (∀ s₁, checkAvailableMemory g.nAvailable g.available = true →
        checkReservedMemory g.nReserved g.reserved = true → collectFreemem b g s = some s₁ →
        isRegEmpty (s₁.freemem (b.slots - 1)) = true →
        (∀ i s₂, PlaceHead b d s₁ i s₂ → CandidateInvariant b d g i s₂) ∧
          (s.rootserver = .bss → d.extraBiSizeBits = 0 ∨
            12 ≤ d.extraBiSizeBits ∧ d.extraBiSizeBits < 64 → (initFreemem b g d s).isSome)) ∧
      (b.debug = false → ∀ availReg a r s₁, (sweep b g availReg a r s₁).isSome) := by
  refine ⟨fun s' h => ?_, fun s₁ havail hreserved hcollect hlast => ?_,
    fun hdebug => sweep_isSome hdebug⟩
  · unfold initFreemem at h
    split_ifs at h with havail hreserved
    · simp at h
    · simp at h
    rw [Bool.not_eq_true, Bool.not_eq_false'] at havail hreserved
    obtain ⟨s₁, hcollect, h⟩ := Option.bind_eq_some_iff.mp h
    split_ifs at h with hlast
    · simp at h
    -- the regions either overflow the array, which the test of its last entry excludes, or lie in
    -- order
    rcases collectFreemem_spec havail hreserved hcollect with
      hfull | ⟨F, hF, hasc, hfree, hstored, hcalls, hroot⟩
    · exact absurd hfull (by simpa [Full] using hlast)
    rcases placeFrom_skip (d := d) hstored hF with ⟨k, t, hhead, hfits, heq⟩ | ⟨t, heq⟩
    · rw [heq] at h
      obtain ⟨t', hplace, hpair⟩ := Option.map_eq_some_iff.mp h
      obtain rfl : t' = s' := congrArg Prod.snd hpair
      exact partitioned_of_place hF hasc hfree hstored hcalls hroot hhead hfits hplace
    · rw [heq] at h
      simp at h
  · rcases collectFreemem_spec havail hreserved hcollect with
      hfull | ⟨F, hF, hasc, hfree, hstored, hcalls, hroot⟩
    · rw [Full, hlast] at hfull
      cases hfull
    refine ⟨fun i s₂ hhead => (hhead.shape hstored hF).invariant hF hasc hfree hstored.1,
      fun hbss hextra => ?_⟩
    -- all checks passed, so what is left is the search from the last region that is not empty
    have hrun : initFreemem b g d s =
        b.placeFrom d (skipEmpty s₁.freemem b.slots) s₁ := by
      rw [initFreemem, havail, hreserved, hcollect]
      simp [hlast]
    rw [hrun]
    rcases placeFrom_skip (d := d) hstored hF with ⟨k, t, hhead, hfits, heq⟩ | ⟨t, heq⟩
    · rw [heq, Option.isSome_map]
      obtain ⟨start, ⟨_, haligned, _, _⟩, hpos, hend, hcreate, -⟩ :=
        place_spec (freeAddrs_window hF hfree) hstored.1 (hhead.shape hstored hF) hfits
      refine hcreate ?_
      obtain ⟨s₃, _, _, hobjects, -⟩ :=
        createRootserverObjects_stage b.root start d.itVReg hextra haligned hpos hend
      rw [hroot, hbss, hobjects]
      rfl
    · rw [heq]
      rfl

end Partition

/-! ### A region that is split -/

/-- A platform with one region of 1 GiB, in which 1 MiB is reserved. -/
def holedRegion : MemoryMap where
  nAvailable := 1
  available _ := ⟨0x40000000, 0x80000000⟩
  nReserved := 1
  reserved _ := ⟨0xffffff8050000000, 0xffffff8050100000⟩
  words _ := by decide

/-- A release build of the default configuration. -/
def releaseBuild : Build := ⟨⟨1, 0, 0⟩, defaultRoot, false⟩

/-- An image of 2 MiB, and extra boot info of two pages. -/
def smallDemand : Demand := ⟨⟨0x400000, 0x600000⟩, 13⟩

def firstBoot : NdksBoot := ⟨fun _ => regEmpty, Reserved.empty, .bss, []⟩

/-- A release build does not look at the result of `reserve_region`. -/
lemma releaseBuild_reserve (reg : Region) (s : NdksBoot) :
    ∃ s', releaseBuild.reserve reg s = some s' ∧ s'.rootserver = s.rootserver ∧
      s'.freemem = s.freemem :=
  ⟨_, rfl, rfl, rfl⟩

/-- It puts a region into the first element, or into the second one where the first is in use. -/
lemma releaseBuild_insert {reg : Region} (hreg : isRegEmpty reg = false) {s : NdksBoot} {i : ℕ}
    (hi : i = 0 ∨ i = 1 ∧ isRegEmpty (s.freemem 0) = false)
    (hempty : isRegEmpty (s.freemem i) = true) :
    ∃ s', releaseBuild.insert reg s = some s' ∧ s'.rootserver = s.rootserver ∧
      s'.freemem = Function.update s.freemem i reg := by
  obtain ⟨s₁, hs₁, hroot, hmem⟩ :=
    releaseBuild_reserve (pptrToPaddrReg releaseBuild.config reg) s
  have hslots : releaseBuild.slots = 3 := rfl
  have hdebug : ¬ (releaseBuild.debug = true ∧ ¬ reg.start ≤ reg.stop) := fun h => by cases h.1
  have hfrom : releaseBuild.insertFrom reg 3 0 s =
      some (true, { s₁ with freemem := Function.update s₁.freemem i reg }) := by
    rcases hi with rfl | ⟨rfl, hfirst⟩
    · rw [Build.insertFrom, if_pos hempty, hs₁, Option.map_some]
    · rw [Build.insertFrom, if_neg (by rw [hfirst]; simp), Build.insertFrom, if_pos hempty, hs₁,
        Option.map_some]
  refine ⟨{ s₁ with freemem := Function.update s₁.freemem i reg }, ?_, hroot, by rw [hmem]⟩
  rw [Build.insert, Build.insertRegion, if_neg hdebug, if_neg (by rw [hreg]; simp), hslots, hfrom,
    Option.map_some]

/-- The region before the hole and the region behind it. -/
lemma holedRegion_collects : ∃ s, collectFreemem releaseBuild holedRegion firstBoot = some s ∧
    s.rootserver = .bss ∧ s.freemem = Function.update (Function.update (fun _ => regEmpty) 0
      ⟨0xffffff8040000000, 0xffffff8050000000⟩) 1 ⟨0xffffff8050100000, 0xffffff8080000000⟩ := by
  have hreg : availRegs releaseBuild.config holedRegion.available 0 =
      ⟨0xffffff8040000000, 0xffffff8080000000⟩ := by
    rw [holedRegion.availRegs_eq]
    decide
  have hslots : (fun i => if i < releaseBuild.slots then regEmpty else firstBoot.freemem i) =
      fun _ => regEmpty := by
    funext i
    exact ite_self _
  have hne : isRegEmpty ⟨0xffffff8040000000, 0xffffff8050000000⟩ = false ∧
      isRegEmpty ⟨0xffffff8050100000, 0xffffff8080000000⟩ = false := by decide
  obtain ⟨s₁, hs₁, hroot₁, hmem₁⟩ := releaseBuild_insert hne.1 (i := 0)
    (s := { firstBoot with freemem := fun _ => regEmpty }) (.inl rfl) rfl
  obtain ⟨s₂, hs₂, hroot₂, hmem₂⟩ := releaseBuild_reserve
    (pptrToPaddrReg releaseBuild.config ⟨0xffffff8050000000, 0xffffff8050100000⟩) s₁
  obtain ⟨s₃, hs₃, hroot₃, hmem₃⟩ := releaseBuild_insert hne.2 (i := 1) (s := s₂)
    (.inr ⟨rfl, by rw [hmem₂, hmem₁]; rfl⟩) (by rw [hmem₂, hmem₁]; rfl)
  refine ⟨s₃, ?_, by rw [hroot₃, hroot₂, hroot₁]; rfl, by rw [hmem₃, hmem₂, hmem₁]⟩
  -- the first turn takes what is before the hole, the second one passes the hole
  have hsweep : sweep releaseBuild holedRegion (availRegs releaseBuild.config holedRegion.available)
      0 0 { firstBoot with freemem := fun _ => regEmpty } = some ⟨Function.update
        (availRegs releaseBuild.config holedRegion.available) 0
        ⟨0xffffff8050100000, 0xffffff8080000000⟩, 0, 1, s₂⟩ := by
    rw [sweep, if_pos (by simp [holedRegion]), hreg, if_neg (by decide), if_neg (by decide),
      if_neg (by decide), if_neg (by decide), if_neg (by decide)]
    have hins : releaseBuild.insert ⟨0xffffff8040000000, (holedRegion.reserved 0).start⟩
        { firstBoot with freemem := fun _ => regEmpty } = some s₁ := hs₁
    simp only [hins, Option.bind_eq_bind, Option.bind_some]
    rw [if_pos (by decide), sweep, if_pos (by simp [holedRegion]), Function.update_self,
      if_neg (by decide), if_neg (by decide), if_pos (by decide)]
    have hres : releaseBuild.reserve
        (pptrToPaddrReg releaseBuild.config (holedRegion.reserved 0)) s₁ = some s₂ := hs₂
    simp only [hres, Option.bind_eq_bind, Option.bind_some]
    rw [sweep, if_neg (by simp [holedRegion])]
    rfl
  have hrest : registerRest releaseBuild holedRegion 1 s₂ = some s₂ := by
    rw [registerRest, if_neg (by simp [holedRegion])]
  simp only [collectFreemem, hslots, hsweep, hrest, Option.bind_eq_bind, Option.bind_some]
  rw [takeRest, if_pos (by simp [holedRegion]), Function.update_self, if_pos (by decide), hs₃]
  simp only [Option.bind_eq_bind, Option.bind_some]
  rw [takeRest, if_neg (by simp [holedRegion])]

lemma holedRegion_returns :
    ∃ s, initFreemem releaseBuild holedRegion smallDemand firstBoot = some (true, s) := by
  obtain ⟨s, hcollect, hroot, hmem⟩ := holedRegion_collects
  have h0 : s.freemem 0 = ⟨0xffffff8040000000, 0xffffff8050000000⟩ := by rw [hmem]; rfl
  have h1 : s.freemem 1 = ⟨0xffffff8050100000, 0xffffff8080000000⟩ := by rw [hmem]; rfl
  have h2 : s.freemem 2 = regEmpty := by rw [hmem]; rfl
  have hslots : releaseBuild.slots = 3 := rfl
  have hskip : skipEmpty s.freemem 3 = 2 := by
    simp [skipEmpty, h1, h2, isRegEmpty, regEmpty]
  have hfits : releaseBuild.Fits smallDemand (s.freemem 1) := by
    rw [h1]
    decide +kernel
  have hplace : (releaseBuild.place smallDemand 1 s).isSome := by
    rw [Build.place, Option.isSome_map, h1, hroot]
    decide +kernel
  obtain ⟨t, ht⟩ := Option.isSome_iff_exists.mp hplace
  refine ⟨t, ?_⟩
  have havail : checkAvailableMemory holedRegion.nAvailable holedRegion.available = true := by
    decide
  have hreserved : checkReservedMemory holedRegion.nReserved holedRegion.reserved = true := by
    decide
  have hassert : 1 < 3 - 1 ∧ isRegEmpty regEmpty = true := by decide
  simp only [initFreemem, havail, hreserved, hcollect, Bool.not_true, Bool.false_eq_true, if_false,
    Option.bind_some, hslots, hskip, Build.placeFrom]
  rw [h2, if_neg (by decide), if_pos hassert, if_pos hfits, ht, Option.map_some]

/-- With 1 MiB reserved in a region of 1 GiB the function returns true: the root server is behind
the hole, and the rest of both parts of the region is free. -/
theorem initFreemem_partitions_holedRegion : ∃ s start,
    initFreemem releaseBuild holedRegion smallDemand firstBoot = some (true, s) ∧
      Partitioned releaseBuild smallDemand holedRegion firstBoot s start := by
  obtain ⟨s, hs⟩ := holedRegion_returns
  obtain ⟨start, hstart⟩ :=
    (initFreemem_partitions releaseBuild holedRegion smallDemand firstBoot).1 s hs
  exact ⟨s, start, hs, hstart⟩

end Kernel
