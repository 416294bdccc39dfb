import Sel4Test.Kernel.Cap
import Sel4Test.Kernel.FreeMem
import Sel4Test.Lib.Bump

/-!
The untyped memory that is handed out at boot, `create_untypeds_for_region` and
`provide_untyped_cap` of `src/kernel/boot.c`.

A region, which may wrap around the end of the address space, is cut from its start into
pieces of sizes that are powers of two: none exceeds what is left, nor the alignment of its
address. A cap is provided for each piece that is large enough, and the others are lost. When
a cap cannot be provided the function gives up, and leaves the rest of the region.

* `blockBits_spec`: a piece fits, and is aligned to its size.
* `arc_split`: what is left of the region after a piece.
* `untypedsLoop_spec`: the pieces of a region.
* `createUntypedsForRegion_tiles`: the region is tiled, if the function does not give up.
-/

namespace Kernel

open Bump

/-! ### The caps -/

/-- `seL4_UntypedDesc`. -/
structure UntypedDesc where
  paddr : ℕ
  sizeBits : ℕ
  isDevice : Bool
deriving DecidableEq, Repr

/-- `ndks_boot.slot_pos_cur`, the list of untypeds of the boot info, and the slots of the root
CNode. -/
structure UntypedBoot where
  slotPosCur : ℕ
  untypedList : ℕ → UntypedDesc
  rootCNode : ℕ → Cap

/-- `CONFIG_MAX_NUM_BOOTINFO_UNTYPED_CAPS`. -/
def maxNumBootinfoUntypedCaps : ℕ := 230

/-- `pptr_in_kernel_window`. -/
def pptrInKernelWindow (cfg : Config) (pptr : ℕ) : Bool :=
  cfg.pptrBaseOffset ≤ pptr ∧ pptr < cfg.pptrTop

/-- `provide_cap`. -/
def provideCap (rc : RootConfig) (cap : Cap) (s : UntypedBoot) : Bool × UntypedBoot :=
  if s.slotPosCur ≥ bit rc.rootCNodeSizeBits then (false, s)
  else
    (true,
      { s with
        rootCNode := Function.update s.rootCNode s.slotPosCur cap
        slotPosCur := s.slotPosCur + 1 })

/-- `provide_untyped_cap`. -/
def provideUntypedCap (rc : RootConfig) (deviceMemory : Bool) (pptr sizeBits firstUntypedSlot : ℕ)
    (s : UntypedBoot) : Bool × UntypedBoot :=
  if sizeBits > maxUntypedBits ∨ sizeBits < minUntypedBits then (false, s)
  else if pptr % bit sizeBits ≠ 0 then (false, s)
  else if !deviceMemory && !pptrInKernelWindow rc.config pptr then (false, s)
  else if !deviceMemory && !pptrInKernelWindow rc.config (wadd pptr (wsub (bit sizeBits) 1)) then
    (false, s)
  else
    let i := wsub s.slotPosCur firstUntypedSlot
    if i < maxNumBootinfoUntypedCaps then
      provideCap rc (.untyped (maxFreeIndex sizeBits) deviceMemory sizeBits pptr)
        { s with
          untypedList := Function.update s.untypedList i
            ⟨pptrToPaddr rc.config pptr, sizeBits, deviceMemory⟩ }
    else (true, s)

/-! ### The pieces of a region -/

/-- The number of zeros at the end of a word of `n` bits. -/
def ctzFrom : ℕ → ℕ → ℕ
  | 0, _ => 0
  | n + 1, x => if x % 2 = 1 then 0 else ctzFrom n (x / 2) + 1

/-- `ctzl`. -/
def ctzl (x : ℕ) : ℕ := ctzFrom 64 x

/-- `size_bits`, of a region that is not empty. -/
def blockBits (start stop : ℕ) : ℕ :=
  let sizeBits := 64 - 1 - clzl (wsub stop start)
  let sizeBits := if sizeBits > maxUntypedBits then maxUntypedBits else sizeBits
  if 0 ≠ start then
    let alignBits := ctzl start
    if sizeBits > alignBits then alignBits else sizeBits
  else sizeBits

/-- The result of `create_untypeds_for_region`, with the pieces that the loop has gone over. -/
structure UntypedRun where
  ok : Bool
  pieces : List Block
  boot : UntypedBoot

/-- The loop of `create_untypeds_for_region`; none if the fuel does not suffice. -/
def untypedsLoop (rc : RootConfig) (deviceMemory : Bool) (stop firstUntypedSlot : ℕ) :
    ℕ → ℕ → UntypedBoot → Option UntypedRun
  | 0, _, _ => none
  | fuel + 1, start, s =>
      if start = stop then some ⟨true, [], s⟩
      else
        let sizeBits := blockBits start stop
        let next := wadd start (bit sizeBits)
        if sizeBits ≥ minUntypedBits then
          let r := provideUntypedCap rc deviceMemory start sizeBits firstUntypedSlot s
          if r.1 then
            (untypedsLoop rc deviceMemory stop firstUntypedSlot fuel next r.2).map fun run =>
              { run with pieces := ⟨start, sizeBits⟩ :: run.pieces }
          else some ⟨false, [⟨start, sizeBits⟩], r.2⟩
        else
          (untypedsLoop rc deviceMemory stop firstUntypedSlot fuel next s).map fun run =>
            { run with pieces := ⟨start, sizeBits⟩ :: run.pieces }

/-- `create_untypeds_for_region`. -/
def createUntypedsForRegion (rc : RootConfig) (deviceMemory : Bool) (reg : Region)
    (firstUntypedSlot fuel : ℕ) (s : UntypedBoot) : Option UntypedRun :=
  untypedsLoop rc deviceMemory reg.stop firstUntypedSlot fuel reg.start s

/-! ### One piece -/

lemma two_pow_ctzFrom_dvd (n : ℕ) : ∀ x, 2 ^ ctzFrom n x ∣ x := by
  induction n with
  | zero =>
      intro x
      simp [ctzFrom]
  | succ n ih =>
      intro x
      rw [ctzFrom]
      split_ifs with hodd
      · simp
      · have hx : x = x / 2 * 2 := by omega
        rw [pow_succ, hx]
        exact Nat.mul_dvd_mul (by simpa using ih (x / 2)) dvd_rfl

lemma two_pow_ctzl_dvd (x : ℕ) : 2 ^ ctzl x ∣ x := two_pow_ctzFrom_dvd 64 x

lemma wsub_lt_word (x y : ℕ) : wsub x y < 2 ^ 64 := Nat.mod_lt _ (by norm_num)

/-- **A piece** is not larger than what is left, is aligned to its size, and is not larger
than an untyped can be. -/
lemma blockBits_spec {start stop : ℕ} (hlen : wsub stop start ≠ 0) :
    2 ^ blockBits start stop ≤ wsub stop start ∧ 2 ^ blockBits start stop ∣ start ∧
      blockBits start stop ≤ maxUntypedBits := by
  have hlt := wsub_lt_word stop start
  generalize hL : wsub stop start = len at hlen hlt
  have hmsb : 64 - 1 - clzl len = Nat.log 2 len := by
    have hlog : Nat.log 2 len < 64 := Nat.log_lt_of_lt_pow hlen hlt
    rw [clzl, if_neg hlen]
    omega
  have hle {k : ℕ} (hk : k ≤ Nat.log 2 len) : 2 ^ k ≤ len :=
    (Nat.pow_le_pow_right (by norm_num) hk).trans (Nat.pow_log_le_self 2 hlen)
  have hdvd {k : ℕ} (hk : k ≤ ctzl start) : 2 ^ k ∣ start :=
    (pow_dvd_pow 2 hk).trans (two_pow_ctzl_dvd start)
  simp only [blockBits, hL, hmsb]
  by_cases hzero : 0 ≠ start
  · rw [if_pos hzero]
    split_ifs <;> exact ⟨hle (by omega), hdvd (by omega), by omega⟩
  · have hstart : start = 0 := by omega
    rw [if_neg hzero, hstart]
    split_ifs <;> exact ⟨hle (by omega), dvd_zero _, by omega⟩

/-- The words from `start` on, `len` of them, around the end of the address space. -/
def arc (start len : ℕ) : Set ℕ := {x | x < 2 ^ 64 ∧ wsub x start < len}

/-- The address after a piece, and the length that is then left. -/
lemma next_of_piece {start stop m : ℕ} (hstart : start < 2 ^ 64) (hm : m ≤ wsub stop start) :
    wadd start m < 2 ^ 64 ∧ wsub stop (wadd start m) = wsub stop start - m := by
  simp only [wsub, wadd] at *
  omega

/-- **The region** is the piece and what is left after it. -/
lemma arc_split {start len m x : ℕ} (hstart : start < 2 ^ 64) (hlen : len < 2 ^ 64)
    (hm : m ≤ len) (hend : start + m ≤ 2 ^ 64) :
    x ∈ arc start len ↔ x ∈ Set.Ico start (start + m) ∨ x ∈ arc (wadd start m) (len - m) := by
  simp only [arc, Set.mem_ofPred_eq, Set.mem_Ico, wsub, wadd]
  omega

/-- The piece and what is left have no address in common. -/
lemma arc_apart {start len m x : ℕ} (hlen : len < 2 ^ 64) (hm : m ≤ len)
    (hx : x ∈ arc (wadd start m) (len - m)) : x ∉ Set.Ico start (start + m) := by
  simp only [arc, Set.mem_ofPred_eq, Set.mem_Ico, wsub, wadd] at *
  omega

/-! ### The caps of the pieces -/

/-- The cap of a piece. -/
def pieceCap (deviceMemory : Bool) (b : Block) : Cap :=
  .untyped (maxFreeIndex b.bits) deviceMemory b.bits b.base

/-- The root CNode has got the caps of these pieces, in the next slots, and nothing else. -/
structure Provided (deviceMemory : Bool) (blocks : List Block) (s s' : UntypedBoot) : Prop where
  slotPos : s'.slotPosCur = s.slotPosCur + blocks.length
  caps : ∀ i b, blocks[i]? = some b →
    s'.rootCNode (s.slotPosCur + i) = pieceCap deviceMemory b
  frame : ∀ p, p < s.slotPosCur ∨ s'.slotPosCur ≤ p → s'.rootCNode p = s.rootCNode p

/-- There is no entry left in the boot info for another untyped. -/
def NoEntry (firstUntypedSlot : ℕ) (s : UntypedBoot) : Prop :=
  maxNumBootinfoUntypedCaps ≤ wsub s.slotPosCur firstUntypedSlot

/-- Why no cap can be provided for a piece: the root CNode is full, or the piece is neither
device memory nor in the kernel window. -/
def Refused (rc : RootConfig) (deviceMemory : Bool) (b : Block) (s : UntypedBoot) : Prop :=
  bit rc.rootCNodeSizeBits ≤ s.slotPosCur ∨
    deviceMemory = false ∧ (pptrInKernelWindow rc.config b.base = false ∨
      pptrInKernelWindow rc.config (wadd b.base (wsub (bit b.bits) 1)) = false)

section Caps

variable {rc : RootConfig} {deviceMemory : Bool} {firstUntypedSlot : ℕ} {b : Block}
  {blocks : List Block} {s s' t : UntypedBoot}

lemma Provided.nil : Provided deviceMemory [] s s := ⟨rfl, by simp, fun _ _ => rfl⟩

lemma Provided.cons (h : Provided deviceMemory [b] s s')
    (h' : Provided deviceMemory blocks s' t) : Provided deviceMemory (b :: blocks) s t := by
  have hone : s'.slotPosCur = s.slotPosCur + 1 := h.slotPos
  have hrest := h'.slotPos
  refine ⟨?_, fun i b' hi => ?_, fun p hp => ?_⟩
  · rw [List.length_cons]
    omega
  · cases i with
    | zero =>
        rw [h'.frame _ (.inl (by omega))]
        exact h.caps 0 b' (by simpa using hi)
    | succ i =>
        have hslot : s.slotPosCur + (i + 1) = s'.slotPosCur + i := by omega
        rw [hslot]
        exact h'.caps i b' (by simpa using hi)
  · rw [h'.frame p (by omega), h.frame p (by omega)]

/-- `provide_untyped_cap`, for a piece that is aligned and neither too small nor too large:
either there is no entry, or no cap can be provided, or there is one. -/
lemma provideUntypedCap_cases (hmin : minUntypedBits ≤ b.bits) (hmax : b.bits ≤ maxUntypedBits)
    (haligned : 2 ^ b.bits ∣ b.base) {r : Bool × UntypedBoot}
    (hr : provideUntypedCap rc deviceMemory b.base b.bits firstUntypedSlot s = r) :
    (r.1 = true ∧ NoEntry firstUntypedSlot s ∧ r.2 = s) ∨
      (r.1 = true ∧ ¬ NoEntry firstUntypedSlot s ∧ Provided deviceMemory [b] s r.2) ∨
      (r.1 = false ∧ Refused rc deviceMemory b s ∧ Provided deviceMemory [] s r.2 ∧
        (NoEntry firstUntypedSlot s → r.2 = s)) := by
  have hbit : bit b.bits = 2 ^ b.bits := by
    refine Nat.mod_eq_of_lt (Nat.pow_lt_pow_right (by norm_num) ?_)
    rw [maxUntypedBits] at hmax
    omega
  have hsize : ¬ (b.bits > maxUntypedBits ∨ b.bits < minUntypedBits) := by omega
  have hbase : ¬ b.base % bit b.bits ≠ 0 := by
    rw [hbit, not_not]
    exact Nat.mod_eq_zero_of_dvd haligned
  subst hr
  rw [provideUntypedCap, if_neg hsize, if_neg hbase]
  dsimp only
  split_ifs with hfirst hlast hentry
  · refine .inr (.inr ⟨rfl, .inr ?_, .nil, fun _ => rfl⟩)
    simp only [Bool.and_eq_true, Bool.not_eq_true'] at hfirst
    exact ⟨hfirst.1, .inl hfirst.2⟩
  · refine .inr (.inr ⟨rfl, .inr ?_, .nil, fun _ => rfl⟩)
    simp only [Bool.and_eq_true, Bool.not_eq_true'] at hlast
    exact ⟨hlast.1, .inr hlast.2⟩
  · have hnot : ¬ NoEntry firstUntypedSlot s := Nat.not_le.mpr hentry
    rw [provideCap]
    split_ifs with hfull
    · refine .inr (.inr ⟨rfl, .inl hfull, ⟨rfl, by simp, fun _ _ => rfl⟩, fun h => absurd h hnot⟩)
    · refine .inr (.inl ⟨rfl, hnot, ⟨rfl, fun i b' hi => ?_, fun p hp => ?_⟩⟩)
      · obtain ⟨rfl, rfl⟩ : i = 0 ∧ b = b' := by
          cases i with
          | zero => simpa using hi
          | succ i => simp at hi
        exact Function.update_self _ _ _
      · have hne : p ≠ s.slotPosCur := by
          dsimp only at hp
          omega
        exact Function.update_of_ne hne _ _
  · exact .inl ⟨rfl, Nat.not_lt.mp hentry, rfl⟩

end Caps

/-! ### The pieces of a region -/

/-- What `create_untypeds_for_region` has done for the region of `len` bytes from `start` on.
A piece of at least `2 ^ seL4_MinUntypedBits` bytes has a cap, unless the boot info has run
out of entries before. -/
structure Tiles (rc : RootConfig) (deviceMemory : Bool) (firstUntypedSlot start len : ℕ)
    (s : UntypedBoot) (r : UntypedRun) : Prop where
  inside : ∀ b ∈ r.pieces, ∀ x ∈ Set.Ico b.base b.stop, x ∈ arc start len
  aligned : ∀ b ∈ r.pieces, 2 ^ b.bits ∣ b.base
  le_max : ∀ b ∈ r.pieces, b.bits ≤ maxUntypedBits
  apart : r.pieces.Pairwise Bump.Apart
  provided : ∃ blocks, blocks <+: r.pieces.filter (minUntypedBits ≤ ·.bits) ∧
    Provided deviceMemory blocks s r.boot ∧
    (r.ok = true → blocks = r.pieces.filter (minUntypedBits ≤ ·.bits) ∨
      NoEntry firstUntypedSlot r.boot)
  covers : r.ok = true → ∀ x ∈ arc start len, ∃ b ∈ r.pieces, x ∈ Set.Ico b.base b.stop
  refused : r.ok = false → ∃ b ∈ r.pieces, minUntypedBits ≤ b.bits ∧
    Refused rc deviceMemory b r.boot

section Pieces

variable {rc : RootConfig} {deviceMemory : Bool} {firstUntypedSlot start stop len : ℕ} {b : Block}
  {blocks : List Block} {s s' : UntypedBoot} {r : UntypedRun}

/-- A piece at the start of a region: aligned, not larger than an untyped, and not larger than
the region or the rest of the address space. -/
structure FirstPiece (start len : ℕ) (b : Block) : Prop where
  base : b.base = start
  start_lt : start < 2 ^ 64
  len_lt : len < 2 ^ 64
  fits : 2 ^ b.bits ≤ len
  ends : start + 2 ^ b.bits ≤ 2 ^ 64
  aligned : 2 ^ b.bits ∣ b.base
  le_max : b.bits ≤ maxUntypedBits

lemma FirstPiece.mem_arc {x : ℕ} (h : FirstPiece start len b) :
    x ∈ arc start len ↔
      x ∈ Set.Ico b.base b.stop ∨ x ∈ arc (wadd start (2 ^ b.bits)) (len - 2 ^ b.bits) := by
  rw [arc_split h.start_lt h.len_lt h.fits h.ends, Block.stop, h.base]

/-- The first piece and a later one. -/
lemma FirstPiece.apart (h : FirstPiece start len b) {b' : Block}
    (hin : ∀ x ∈ Set.Ico b'.base b'.stop,
      x ∈ arc (wadd start (2 ^ b.bits)) (len - 2 ^ b.bits)) : Bump.Apart b b' := by
  by_contra hmeet
  simp only [Bump.Apart, not_or, not_le] at hmeet
  have hpos : b.base < b.stop := Nat.lt_add_of_pos_right (Nat.two_pow_pos _)
  have hpos' : b'.base < b'.stop := Nat.lt_add_of_pos_right (Nat.two_pow_pos _)
  have hleft := hin (max b.base b'.base) ⟨le_max_right _ _, max_lt hmeet.2 hpos'⟩
  refine arc_apart h.len_lt h.fits hleft ?_
  rw [← h.base]
  exact ⟨le_max_left _ _, max_lt hpos hmeet.1⟩

/-- **A step of the loop** that goes on. -/
lemma Tiles.cons (h : FirstPiece start len b)
    (hcap : (b.bits < minUntypedBits ∧ s' = s) ∨
      (minUntypedBits ≤ b.bits ∧ NoEntry firstUntypedSlot s ∧ r.boot = s) ∨
      (minUntypedBits ≤ b.bits ∧ Provided deviceMemory [b] s s'))
    (ht : Tiles rc deviceMemory firstUntypedSlot (wadd start (2 ^ b.bits)) (len - 2 ^ b.bits)
      s' r) :
    Tiles rc deviceMemory firstUntypedSlot start len s { r with pieces := b :: r.pieces } where
  inside := by
    intro b' hb' x hx
    rcases List.mem_cons.mp hb' with rfl | hb'
    · exact h.mem_arc.mpr (.inl hx)
    · exact h.mem_arc.mpr (.inr (ht.inside b' hb' x hx))
  aligned := List.forall_mem_cons.mpr ⟨h.aligned, ht.aligned⟩
  le_max := List.forall_mem_cons.mpr ⟨h.le_max, ht.le_max⟩
  apart := List.pairwise_cons.mpr ⟨fun b' hb' => h.apart (ht.inside b' hb'), ht.apart⟩
  provided := by
    obtain ⟨blocks, hpre, hprov, hall⟩ := ht.provided
    rcases hcap with ⟨hsmall, rfl⟩ | ⟨hmin, hentry, hboot⟩ | ⟨hmin, hone⟩
    · refine ⟨blocks, ?_, hprov, ?_⟩ <;>
        simpa only [List.filter_cons_of_neg (p := fun b => decide (minUntypedBits ≤ b.bits))
          (l := r.pieces) (by simpa using hsmall)]
    · refine ⟨[], List.nil_prefix, ?_, fun _ => .inr ?_⟩
      · rw [hboot]
        exact .nil
      · rw [hboot]
        exact hentry
    · have hfilter : (b :: r.pieces).filter (minUntypedBits ≤ ·.bits) =
          b :: r.pieces.filter (minUntypedBits ≤ ·.bits) :=
        List.filter_cons_of_pos (by simpa using hmin)
      refine ⟨b :: blocks, ?_, hone.cons hprov, fun hok => ?_⟩
      · rw [hfilter]
        exact List.prefix_cons_inj b |>.mpr hpre
      · rw [hfilter]
        exact (hall hok).imp_left (congrArg (b :: ·))
  covers := by
    intro hok x hx
    rcases h.mem_arc.mp hx with hx | hx
    · exact ⟨b, List.mem_cons_self, hx⟩
    · obtain ⟨b', hb', hx⟩ := ht.covers hok x hx
      exact ⟨b', List.mem_cons_of_mem b hb', hx⟩
  refused := by
    intro hok
    obtain ⟨b', hb', hmin, href⟩ := ht.refused hok
    exact ⟨b', List.mem_cons_of_mem b hb', hmin, href⟩

/-- **The step of the loop** that gives up. -/
lemma Tiles.refused_first (h : FirstPiece start len b) (hmin : minUntypedBits ≤ b.bits)
    (hnone : Provided deviceMemory [] s s') (href : Refused rc deviceMemory b s) :
    Tiles rc deviceMemory firstUntypedSlot start len s ⟨false, [b], s'⟩ where
  inside := by
    intro b' hb' x hx
    rw [List.mem_singleton.mp hb'] at hx
    exact h.mem_arc.mpr (.inl hx)
  aligned := List.forall_mem_singleton.mpr h.aligned
  le_max := List.forall_mem_singleton.mpr h.le_max
  apart := List.pairwise_singleton _ _
  provided := ⟨[], List.nil_prefix, hnone, fun hok => Bool.noConfusion hok⟩
  covers := fun hok => Bool.noConfusion hok
  refused := by
    intro _
    refine ⟨b, List.mem_singleton_self b, hmin, ?_⟩
    rwa [Refused, hnone.slotPos]

/-- The first piece, if the region is not empty. -/
lemma blockBits_first (hstart : start < 2 ^ 64) (hlen : wsub stop start ≠ 0) :
    FirstPiece start (wsub stop start) ⟨start, blockBits start stop⟩ := by
  obtain ⟨hfits, hdvd, hmax⟩ := blockBits_spec hlen
  refine ⟨rfl, hstart, wsub_lt_word _ _, hfits, ?_, hdvd, hmax⟩
  have hword : 2 ^ blockBits start stop ∣ 2 ^ 64 := by
    rw [maxUntypedBits] at hmax
    exact pow_dvd_pow 2 (by omega)
  obtain ⟨k, hk⟩ := hdvd
  obtain ⟨n, hn⟩ := hword
  have hpos : 0 < 2 ^ blockBits start stop := Nat.two_pow_pos _
  have hmul : 2 ^ blockBits start stop * k < 2 ^ blockBits start stop * n := by
    rw [← hk, ← hn]
    exact hstart
  have hkn : k < n := lt_of_mul_lt_mul_left hmul (Nat.zero_le _)
  calc start + 2 ^ blockBits start stop = 2 ^ blockBits start stop * (k + 1) := by
        rw [Nat.mul_succ, ← hk]
    _ ≤ 2 ^ blockBits start stop * n := Nat.mul_le_mul_left _ hkn
    _ = 2 ^ 64 := hn.symm

/-- **The loop** ends, with the region tiled as far as it has come. By induction on the fuel;
the length of what is left decreases with each piece. -/
lemma untypedsLoop_spec (rc : RootConfig) (deviceMemory : Bool) (firstUntypedSlot : ℕ)
    (hstop : stop < 2 ^ 64) (fuel : ℕ) : ∀ (start : ℕ) (s : UntypedBoot),
    start < 2 ^ 64 → wsub stop start < fuel → ∃ r,
      untypedsLoop rc deviceMemory stop firstUntypedSlot fuel start s = some r ∧
      Tiles rc deviceMemory firstUntypedSlot start (wsub stop start) s r ∧
      (NoEntry firstUntypedSlot s → r.boot = s) := by
  -- on the fuel; the distance to the end, modulo 2 ^ 64, bounds the rounds that are left
  induction fuel with
  | zero =>
      intro start s _ hfuel
      omega
  | succ fuel ih =>
      intro start s hstart hfuel
      rw [untypedsLoop]
      by_cases hempty : start = stop
      · rw [if_pos hempty]
        have hzero : wsub stop start = 0 := by
          simp only [wsub]
          omega
        refine ⟨_, rfl, ⟨by simp, by simp, by simp, .nil, ⟨[], List.nil_prefix, .nil, ?_⟩, ?_, ?_⟩,
          fun _ => rfl⟩
        · exact fun _ => .inl rfl
        · rw [hzero]
          exact fun _ x hx => absurd hx.2 (Nat.not_lt_zero _)
        · exact fun hok => Bool.noConfusion hok
      · have hlen : wsub stop start ≠ 0 := by
          simp only [wsub]
          omega
        have hpiece := blockBits_first hstart hlen
        generalize blockBits start stop = bits at hpiece
        obtain ⟨hnext, hleft⟩ := next_of_piece hstart hpiece.fits
        have hpos : 0 < 2 ^ bits := Nat.two_pow_pos bits
        have hbit : bit bits = 2 ^ bits := by
          refine Nat.mod_eq_of_lt (Nat.pow_lt_pow_right (by norm_num) ?_)
          exact lt_of_le_of_lt hpiece.le_max (by decide)
        rw [if_neg hempty]
        dsimp only at hnext hleft ⊢
        have hless : wsub stop (wadd start (2 ^ bits)) < fuel := by omega
        rw [hbit]
        -- a piece that is too small is dropped, and any other gets a cap unless no slot is left
        by_cases hmin : bits ≥ minUntypedBits
        · rw [if_pos hmin]
          generalize hr : provideUntypedCap rc deviceMemory start bits firstUntypedSlot s = p
          obtain ⟨run, hrun, htiles, hkeep⟩ := ih (wadd start (2 ^ bits)) p.2 hnext hless
          rw [hleft] at htiles
          rcases provideUntypedCap_cases hmin hpiece.le_max hpiece.aligned hr with
            ⟨hok, hentry, hsame⟩ | ⟨hok, hentry, hone⟩ | ⟨hfail, href, hnone, hsame⟩
          · rw [if_pos hok, hrun]
            rw [hsame] at hkeep
            exact ⟨_, rfl, htiles.cons hpiece (.inr (.inl ⟨hmin, hentry, hkeep hentry⟩)), hkeep⟩
          · rw [if_pos hok, hrun]
            exact ⟨_, rfl, htiles.cons hpiece (.inr (.inr ⟨hmin, hone⟩)), fun h => absurd h hentry⟩
          · rw [if_neg (by rw [hfail]; exact Bool.false_ne_true)]
            exact ⟨_, rfl, .refused_first hpiece hmin hnone href, hsame⟩
        · rw [if_neg hmin]
          obtain ⟨run, hrun, htiles, hkeep⟩ := ih (wadd start (2 ^ bits)) s hnext hless
          rw [hleft] at htiles
          rw [hrun]
          exact ⟨_, rfl, htiles.cons hpiece (.inl ⟨Nat.lt_of_not_le hmin, rfl⟩), hkeep⟩

/-- More fuel does not change the result. -/
lemma untypedsLoop_succ (fuel : ℕ) : ∀ (start : ℕ) (s : UntypedBoot) (r : UntypedRun),
    untypedsLoop rc deviceMemory stop firstUntypedSlot fuel start s = some r →
    untypedsLoop rc deviceMemory stop firstUntypedSlot (fuel + 1) start s = some r := by
  induction fuel with
  | zero =>
      intro start s r h
      simp [untypedsLoop] at h
  | succ fuel ih =>
      intro start s r h
      rw [untypedsLoop] at h ⊢
      dsimp only at h ⊢
      split_ifs at h ⊢ with hempty hmin hok
      · exact h
      · obtain ⟨run, hrun, rfl⟩ := Option.map_eq_some_iff.mp h
        rw [ih _ _ _ hrun]
        rfl
      · exact h
      · obtain ⟨run, hrun, rfl⟩ := Option.map_eq_some_iff.mp h
        rw [ih _ _ _ hrun]
        rfl

lemma untypedsLoop_mono {fuel fuel' : ℕ} (hle : fuel ≤ fuel')
    (h : untypedsLoop rc deviceMemory stop firstUntypedSlot fuel start s = some r) :
    untypedsLoop rc deviceMemory stop firstUntypedSlot fuel' start s = some r := by
  induction hle with
  | refl => exact h
  | step _ ih => exact untypedsLoop_succ _ _ _ _ ih

end Pieces

/-! ### The region -/

/-- The addresses of a region, which wraps around if its end is below its start. -/
def Region.wrapped (reg : Region) : Set ℕ := arc reg.start (wsub reg.stop reg.start)

/-- **The tiling**: `create_untypeds_for_region` ends on every region, also one that wraps
around. If it does not give up, the pieces cover the region exactly; those of at least
`2 ^ seL4_MinUntypedBits` bytes get a cap one after the other until the entries of the boot
info run out. If it gives up, the root CNode is full or a piece of normal memory is not in the
kernel window, and the pieces so far are as they should be. -/
theorem createUntypedsForRegion_tiles (rc : RootConfig) (deviceMemory : Bool) (reg : Region)
    (firstUntypedSlot : ℕ) (s : UntypedBoot) (hstart : reg.start < 2 ^ 64)
    (hstop : reg.stop < 2 ^ 64) :
    ∃ r, (∀ fuel, wsub reg.stop reg.start < fuel →
        createUntypedsForRegion rc deviceMemory reg firstUntypedSlot fuel s = some r) ∧
      (∀ b ∈ r.pieces, 2 ^ b.bits ∣ b.base ∧ b.bits ≤ maxUntypedBits ∧
        Set.Ico b.base b.stop ⊆ reg.wrapped) ∧
      r.pieces.Pairwise Bump.Apart ∧
      (r.ok = true → reg.wrapped = {x | ∃ b ∈ r.pieces, x ∈ Set.Ico b.base b.stop}) ∧
      (∃ blocks, blocks <+: r.pieces.filter (minUntypedBits ≤ ·.bits) ∧
        Provided deviceMemory blocks s r.boot ∧
        (r.ok = true → blocks = r.pieces.filter (minUntypedBits ≤ ·.bits) ∨
          NoEntry firstUntypedSlot r.boot)) ∧
      (r.ok = false → ∃ b ∈ r.pieces, minUntypedBits ≤ b.bits ∧
        Refused rc deviceMemory b r.boot) := by
  obtain ⟨r, hrun, htiles, -⟩ := untypedsLoop_spec rc deviceMemory firstUntypedSlot hstop
    (wsub reg.stop reg.start + 1) reg.start s hstart (Nat.lt_succ_self _)
  refine ⟨r, fun fuel hfuel => untypedsLoop_mono hfuel hrun, fun b hb => ?_, htiles.apart,
    fun hok => ?_, htiles.provided, htiles.refused⟩
  · exact ⟨htiles.aligned b hb, htiles.le_max b hb, htiles.inside b hb⟩
  · ext x
    refine ⟨htiles.covers hok x, ?_⟩
    rintro ⟨b, hb, hx⟩
    exact htiles.inside b hb x hx

/-- Normal memory and device memory at boot: empty slots, and no untyped yet. -/
def bootBefore (slotPosCur : ℕ) : UntypedBoot :=
  ⟨slotPosCur, fun _ => ⟨0, 0, false⟩, fun _ => .null⟩

/-- Three pages of a device, around the end of the address space. -/
theorem createUntypedsForRegion_tiles_wrap : ∃ r, (∀ fuel, 0x3000 < fuel →
    createUntypedsForRegion defaultRoot true ⟨0xfffffffffffff000, 0x2000⟩ 16 fuel (bootBefore 16) =
      some r) ∧ r.pieces.Pairwise Bump.Apart := by
  obtain ⟨r, hrun, -, hapart, -⟩ := createUntypedsForRegion_tiles defaultRoot true
    ⟨0xfffffffffffff000, 0x2000⟩ 16 (bootBefore 16) (by norm_num) (by norm_num)
  exact ⟨r, fun fuel hfuel => hrun fuel (by simpa [wsub] using hfuel), hapart⟩

/-- **A full root CNode**: two pages at `0x1000`, and no slot. The function gives up at the
first page, and the second one is in no piece. -/
theorem createUntypedsForRegion_full :
    ∃ r, createUntypedsForRegion defaultRoot true ⟨0x1000, 0x3000⟩ 4000 3 (bootBefore 4096) =
        some r ∧ r.ok = false ∧
      0x2000 ∈ Region.wrapped ⟨0x1000, 0x3000⟩ ∧
      ¬ ∃ b ∈ r.pieces, 0x2000 ∈ Set.Ico b.base b.stop := by
  have hrun : (createUntypedsForRegion defaultRoot true ⟨0x1000, 0x3000⟩ 4000 3
      (bootBefore 4096)).map (fun r => (r.ok, r.pieces)) = some (false, [⟨0x1000, 12⟩]) := by
    decide +kernel
  obtain ⟨r, hr, hok⟩ := Option.map_eq_some_iff.mp hrun
  obtain ⟨hok, hpieces⟩ := Prod.mk.inj hok
  refine ⟨r, hr, hok, ⟨by norm_num, by simp [wsub]⟩, ?_⟩
  rw [hpieces]
  rintro ⟨b, hb, hx⟩
  rw [List.mem_singleton.mp hb] at hx
  simp [Block.stop] at hx

end Kernel
