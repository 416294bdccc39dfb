import Sel4Test.Kernel.Boot

/-!
What the layout of the initial address space is worth: whether the shared pages keep
away from the others and inside `it_v_reg`, and whether the tables that
`create_it_address_space` makes for `it_v_reg` are those that the mapping needs.

* `createItAddressSpace_spec`: which entries can be reached through the tables.
* `fresh_iff`: pages are mapped without overwriting if the tables are there and the
  entries are different.
* `BootArgs.safe_iff`, `BootArgs.tryInitKernel_iff`: which layouts below 512 GiB are
  safe, and which pass the assertions.
* `shm_layout_never`: no accepted layout keeps the shared pages both away from the extra
  boot info and inside `it_v_reg`.
* `dtb_overwritten`: a device tree of 32 KiB is overwritten by the first queue.
-/

namespace Kernel

/-! ### What the layout is for -/

namespace BootArgs

/-- The pages that are shared with the other system. -/
def shmPages (a : BootArgs) : List ℕ := a.queuePages ++ a.windowPages

end BootArgs

/-- The pages at two addresses have no byte in common. -/
def Apart (v w : ℕ) : Prop := v + pageSize ≤ w ∨ w + pageSize ≤ v

/-- Every page of the list is mapped over present tables and at an entry that was
free. -/
def Fresh : VSpace → List (Slot × Frame) → Prop
  | _, [] => True
  | s, op :: ops => ∃ s', s.mapPage op = some s' ∧ s.page op.1 = none ∧ Fresh s' ops

/-- The initial address space is built without a missing table and without writing an
entry twice. -/
def BootArgs.Safe (cfg : Config) (a : BootArgs) : Prop :=
  ∃ s, createItAddressSpace cfg a.itVReg = some s ∧ Fresh s (a.mapOps cfg)

/-- What the layout promises of the shared pages. -/
structure LayoutOk (cfg : Config) (a : BootArgs) : Prop where
  distinct : a.shmPages.Pairwise Apart
  apart : ∀ v ∈ a.shmPages, ∀ w ∈ a.bootPages cfg, Apart v w
  inside : ∀ v ∈ a.shmPages, a.itVReg.start ≤ v ∧ v + pageSize ≤ a.itVReg.stop
  safe : a.Safe cfg

/-! ### Building the tables -/

lemma roundDown_le (n b : ℕ) : roundDown n b ≤ n := Nat.div_mul_le_self n _

lemma mem_blocks {shift v : ℕ} {r : Region} :
    v ∈ blocks shift r ↔ v % 2 ^ shift = 0 ∧ roundDown r.start shift ≤ v ∧ v < r.stop := by
  have hpos : 0 < 2 ^ shift := Nat.two_pow_pos shift
  simp only [blocks, List.mem_map, List.mem_range, Nat.lt_div_iff_mul_lt hpos]
  constructor
  · rintro ⟨k, hk, rfl⟩
    refine ⟨?_, Nat.le_add_right _ _, by omega⟩
    rw [roundDown, ← Nat.add_mul, Nat.mul_mod_left]
  · rintro ⟨hmod, hle, hlt⟩
    obtain ⟨m, rfl⟩ := Nat.dvd_of_mod_eq_zero hmod
    refine ⟨m - r.start / 2 ^ shift, ?_, ?_⟩
    · rw [Nat.sub_mul, Nat.mul_comm m]
      rw [roundDown] at *
      omega
    · rw [roundDown] at *
      rw [Nat.sub_mul, Nat.mul_comm m]
      omega

/-- The block of a larger size that a block is in is created as well. -/
lemma mem_blocks_coarse {shift shift' v : ℕ} {r : Region} (h : v ∈ blocks shift r)
    (hle : shift ≤ shift') : roundDown v shift' ∈ blocks shift' r := by
  obtain ⟨hmod, hstart, hstop⟩ := mem_blocks.mp h
  obtain ⟨k, rfl⟩ := Nat.exists_eq_add_of_le hle
  refine mem_blocks.mpr ⟨Nat.mul_mod_left _ _, ?_, (roundDown_le _ _).trans_lt hstop⟩
  have hdiv : r.start / 2 ^ shift ≤ v / 2 ^ shift := by
    rwa [Nat.le_div_iff_mul_le (Nat.two_pow_pos shift)]
  rw [roundDown, roundDown, pow_add, ← Nat.div_div_eq_div_mul, ← Nat.div_div_eq_div_mul]
  exact Nat.mul_le_mul_right _ (Nat.div_le_div_right hdiv)

namespace VSpace

variable {cfg : Config}

lemma foldlM_mapItPudCap (cfg : Config) (l : List ℕ) (s : VSpace) : ∃ s',
    l.foldlM (fun s v => s.mapItPudCap (cfg.slot v)) s = some s' ∧ s'.page = s.page ∧
      s'.hasPt = s.hasPt ∧ s'.hasPd = s.hasPd ∧
      ∀ i, s'.hasPud i = true ↔ s.hasPud i = true ∨ ∃ v ∈ l, (cfg.slot v).pgd = i := by
  induction l generalizing s with
  | nil => exact ⟨s, rfl, rfl, rfl, rfl, by simp⟩
  | cons v l ih =>
      obtain ⟨s', hs', hpage, hpt, hpd, hpud⟩ :=
        ih { s with hasPud := Function.update s.hasPud (cfg.slot v).pgd true }
      refine ⟨s', by rw [List.foldlM_cons]; exact hs', hpage, hpt, hpd, fun i => ?_⟩
      rw [hpud]
      by_cases hi : i = (cfg.slot v).pgd
      · simp [hi]
      · simp [hi, Ne.symm hi]

lemma foldlM_mapItPdCap (l : List ℕ) (s : VSpace)
    (hpuds : ∀ v ∈ l, s.hasPud (cfg.slot v).pgd = true) : ∃ s',
    l.foldlM (fun s v => s.mapItPdCap (cfg.slot v)) s = some s' ∧ s'.page = s.page ∧
      s'.hasPt = s.hasPt ∧ s'.hasPud = s.hasPud ∧
      ∀ i j, s'.hasPd i j = true ↔ s.hasPd i j = true ∨
        ∃ v ∈ l, (cfg.slot v).pgd = i ∧ (cfg.slot v).pud = j := by
  induction l generalizing s with
  | nil => exact ⟨s, rfl, rfl, rfl, rfl, by simp⟩
  | cons v l ih =>
      rw [List.forall_mem_cons] at hpuds
      obtain ⟨s', hs', hpage, hpt, hpud, hpd⟩ := ih { s with
        hasPd := fun i j => s.hasPd i j || decide ((cfg.slot v).pgd = i ∧ (cfg.slot v).pud = j) }
        hpuds.2
      refine ⟨s', ?_, hpage, hpt, hpud, fun i j => ?_⟩
      · rw [List.foldlM_cons, mapItPdCap, if_pos hpuds.1]
        exact hs'
      · rw [hpd]
        simp [or_assoc]

lemma foldlM_mapItPtCap (l : List ℕ) (s : VSpace)
    (hpds : ∀ v ∈ l, s.hasPud (cfg.slot v).pgd = true ∧
      s.hasPd (cfg.slot v).pgd (cfg.slot v).pud = true) : ∃ s',
    l.foldlM (fun s v => s.mapItPtCap (cfg.slot v)) s = some s' ∧ s'.page = s.page ∧
      s'.hasPud = s.hasPud ∧ s'.hasPd = s.hasPd ∧
      ∀ i j k, s'.hasPt i j k = true ↔ s.hasPt i j k = true ∨
        ∃ v ∈ l, (cfg.slot v).pgd = i ∧ (cfg.slot v).pud = j ∧ (cfg.slot v).pd = k := by
  induction l generalizing s with
  | nil => exact ⟨s, rfl, rfl, rfl, rfl, by simp⟩
  | cons v l ih =>
      rw [List.forall_mem_cons] at hpds
      obtain ⟨s', hs', hpage, hpud, hpd, hpt⟩ := ih { s with
        hasPt := fun i j k => s.hasPt i j k ||
          decide ((cfg.slot v).pgd = i ∧ (cfg.slot v).pud = j ∧ (cfg.slot v).pd = k) } hpds.2
      refine ⟨s', ?_, hpage, hpud, hpd, fun i j k => ?_⟩
      · rw [List.foldlM_cons, mapItPtCap, if_pos hpds.1]
        exact hs'
      · rw [hpt]
        simp [or_assoc]

end VSpace

namespace Config

variable {cfg : Config}

lemma slot_roundDown39 (v : ℕ) : (cfg.slot (roundDown v 39)).pgd = (cfg.slot v).pgd := by
  simp only [slot, roundDown]
  split_ifs <;> omega

lemma slot_roundDown30 (v : ℕ) : (cfg.slot (roundDown v 30)).pgd = (cfg.slot v).pgd ∧
    (cfg.slot (roundDown v 30)).pud = (cfg.slot v).pud := by
  simp only [slot, roundDown]
  split_ifs <;> omega

lemma slot_roundDown21 (v : ℕ) : (cfg.slot (roundDown v 21)).pgd = (cfg.slot v).pgd ∧
    (cfg.slot (roundDown v 21)).pud = (cfg.slot v).pud ∧
    (cfg.slot (roundDown v 21)).pd = (cfg.slot v).pd := by
  simp only [slot, roundDown]
  split_ifs <;> omega

/-- Below 512 GiB, the tables of two addresses are the same only if the addresses are in
the same 2 MiB. -/
lemma roundDown21_of_slot {v w : ℕ} (hv : v < 2 ^ 39) (hw : w < 2 ^ 39)
    (hpud : (cfg.slot v).pud = (cfg.slot w).pud) (hpd : (cfg.slot v).pd = (cfg.slot w).pd) :
    roundDown v 21 = roundDown w 21 := by
  simp only [slot, roundDown] at *
  split_ifs at hpud <;> omega

/-- Below 512 GiB, pages at different addresses have different entries. -/
lemma slot_inj {v w : ℕ} (hv : v < 2 ^ 39) (hw : w < 2 ^ 39) (hvp : v % pageSize = 0)
    (hwp : w % pageSize = 0) (h : cfg.slot v = cfg.slot w) : v = w := by
  have hblock := roundDown21_of_slot hv hw (congrArg Slot.pud h) (congrArg Slot.pd h)
  have hpt : (cfg.slot v).pt = (cfg.slot w).pt := congrArg Slot.pt h
  simp only [slot, roundDown, pageSize] at *
  omega

/-- Below 512 GiB, the window is reached through the right entry of the root. -/
lemma windowSlot_eq {v : ℕ} (hv : v < 2 ^ 39) : cfg.windowSlot v = cfg.slot v := by
  have hpgd : (cfg.slot v).pgd = 0 := by
    simp only [slot]
    split_ifs <;> omega
  rw [windowSlot, ← hpgd]

end Config

/-- **The tables**: creation succeeds, no page is mapped, and an entry can be reached if
and only if it is in a 2 MiB block of the region. -/
lemma createItAddressSpace_spec (cfg : Config) (r : Region) : ∃ s,
    createItAddressSpace cfg r = some s ∧ (∀ e, s.page e = none) ∧
      ∀ e, s.Walks e ↔ ∃ v ∈ blocks 21 r,
        (cfg.slot v).pgd = e.pgd ∧ (cfg.slot v).pud = e.pud ∧ (cfg.slot v).pd = e.pd := by
  -- with 40 bits of physical addresses the root is concatenated, and no level is created for it
  have hroot : ∃ s, createItPuds cfg r = some s ∧
      s.page = cfg.root.page ∧ s.hasPt = cfg.root.hasPt ∧ s.hasPd = cfg.root.hasPd ∧
      ∀ v, roundDown v 39 ∈ blocks 39 r → s.hasPud (cfg.slot v).pgd = true := by
    by_cases hcfg : cfg = .hyp40
    · refine ⟨cfg.root, if_pos hcfg, rfl, rfl, rfl, fun v _ => ?_⟩
      simp [Config.root, Config.slot, hcfg]
    · obtain ⟨s, hs, hpage, hpt, hpd, hpud⟩ :=
        VSpace.foldlM_mapItPudCap cfg (blocks 39 r) cfg.root
      refine ⟨s, ?_, hpage, hpt, hpd, fun v hv => ?_⟩
      · rw [createItPuds, if_neg hcfg]
        exact hs
      · exact (hpud _).mpr (.inr ⟨_, hv, Config.slot_roundDown39 v⟩)
  obtain ⟨s₁, hs₁, hpage₁, hpt₁, hpd₁, hpud₁⟩ := hroot
  obtain ⟨s₂, hs₂, hpage₂, hpt₂, hpud₂, hpd₂⟩ := VSpace.foldlM_mapItPdCap (blocks 30 r) s₁
    fun v hv => hpud₁ v (mem_blocks_coarse hv (by norm_num))
  have htables {v : ℕ} (hv : v ∈ blocks 21 r) : s₂.hasPud (cfg.slot v).pgd = true ∧
      s₂.hasPd (cfg.slot v).pgd (cfg.slot v).pud = true := by
    constructor
    · rw [hpud₂]
      exact hpud₁ v (mem_blocks_coarse hv (by norm_num))
    · exact (hpd₂ _ _).mpr (.inr ⟨_, mem_blocks_coarse hv (by norm_num), Config.slot_roundDown30 v⟩)
  obtain ⟨s₃, hs₃, hpage₃, hpud₃, hpd₃, hpt₃⟩ :=
    VSpace.foldlM_mapItPtCap (blocks 21 r) s₂ fun v hv => htables hv
  refine ⟨s₃, ?_, fun e => ?_, fun e => ?_⟩
  · exact Option.bind_eq_some_iff.mpr ⟨s₁, hs₁, Option.bind_eq_some_iff.mpr ⟨s₂, hs₂, hs₃⟩⟩
  · rw [hpage₃, hpage₂, hpage₁]
    rfl
  · have hiff := hpt₃ e.pgd e.pud e.pd
    have hnone : s₂.hasPt e.pgd e.pud e.pd = false := by
      rw [hpt₂, hpt₁]
      rfl
    rw [hnone] at hiff
    simp only [Bool.false_eq_true, false_or] at hiff
    constructor
    · rintro ⟨-, -, hpt⟩
      exact hiff.mp hpt
    · rintro ⟨v, hv, hpgd, hpud, hpd⟩
      obtain ⟨hp, hd⟩ := htables hv
      rw [hpgd] at hp hd
      rw [hpud] at hd
      refine ⟨?_, ?_, hiff.mpr ⟨v, hv, hpgd, hpud, hpd⟩⟩
      · rwa [hpud₃]
      · rwa [hpd₃]

/-! ### Mapping the pages -/

namespace VSpace

/-- Mapping a page creates no table. -/
lemma mapPage_walks {s s' : VSpace} {op : Slot × Frame} (h : s.mapPage op = some s') (e : Slot) :
    s'.Walks e ↔ s.Walks e := by
  rw [mapPage] at h
  split_ifs at h
  obtain rfl := Option.some.inj h
  rfl

/-- All pages can be mapped if and only if the tables for all of them are there. -/
lemma foldlM_mapPage_isSome {s : VSpace} {ops : List (Slot × Frame)} :
    (ops.foldlM mapPage s).isSome = true ↔ ∀ op ∈ ops, s.Walks op.1 := by
  induction ops generalizing s with
  | nil => simp
  | cons op ops ih =>
      rw [List.foldlM_cons, List.forall_mem_cons]
      by_cases hwalks : s.Walks op.1
      · obtain ⟨s', hs'⟩ : ∃ s', s.mapPage op = some s' := ⟨_, if_pos hwalks⟩
        have hsame (e : Slot) : s'.Walks e ↔ s.Walks e := mapPage_walks hs' e
        rw [hs']
        simp only [hwalks, true_and, ← hsame]
        exact ih
      · have hs' : s.mapPage op = none := if_neg hwalks
        rw [hs']
        simp [hwalks]

end VSpace

/-- **Fresh runs**: the tables are there, and the entries are different and free. -/
lemma fresh_iff {s : VSpace} {ops : List (Slot × Frame)} :
    Fresh s ops ↔ (∀ op ∈ ops, s.Walks op.1) ∧ (ops.map Prod.fst).Nodup ∧
      ∀ op ∈ ops, s.page op.1 = none := by
  induction ops generalizing s with
  | nil => simp [Fresh]
  | cons op ops ih =>
      rw [Fresh, List.forall_mem_cons, List.map_cons, List.nodup_cons, List.forall_mem_cons]
      by_cases hwalks : s.Walks op.1
      · obtain ⟨s', hs', rfl⟩ : ∃ s', s.mapPage op = some s' ∧
            s' = { s with page := Function.update s.page op.1 (some op.2) } :=
          ⟨_, if_pos hwalks, rfl⟩
        have hpage : (∀ x ∈ ops, Function.update s.page op.1 (some op.2) x.1 = none) ↔
            op.1 ∉ ops.map Prod.fst ∧ ∀ x ∈ ops, s.page x.1 = none := by
          rw [List.mem_map]
          constructor
          · intro h
            have hne : ∀ x ∈ ops, x.1 ≠ op.1 := by
              intro x hx heq
              have hx := h x hx
              rw [heq, Function.update_self] at hx
              cases hx
            refine ⟨fun ⟨x, hx, heq⟩ => hne x hx heq, fun x hx => ?_⟩
            rw [← h x hx, Function.update_of_ne (hne x hx)]
          · rintro ⟨hnot, h⟩ x hx
            rw [Function.update_of_ne fun heq => hnot ⟨x, hx, heq⟩]
            exact h x hx
        have hih := @ih { s with page := Function.update s.page op.1 (some op.2) }
        rw [hpage] at hih
        rw [hs']
        simp only [Option.some.injEq, exists_eq_left', hwalks, true_and]
        rw [hih]
        constructor
        · rintro ⟨hfree, hw, hnodup, hnot, hrest⟩
          exact ⟨hw, ⟨hnot, hnodup⟩, hfree, hrest⟩
        · rintro ⟨hw, ⟨hnot, hnodup⟩, hfree, hrest⟩
          exact ⟨hfree, hw, hnodup, hnot, hrest⟩
      · have hs' : s.mapPage op = none := if_neg hwalks
        simp [hs', hwalks]

lemma map_fst_entries (slot : ℕ → Slot) (frame : ℕ → Frame) (pages : List ℕ) :
    (entries slot frame pages).map Prod.fst = pages.map slot := by
  have hfst : Prod.fst ∘ (fun p : ℕ × ℕ => (slot p.1, frame p.2)) = slot ∘ Prod.fst := rfl
  rw [entries, List.map_map, hfst, ← List.map_map, List.zipIdx_map_fst]

/-- `n` pages from an address on. -/
def pagesFrom (base n : ℕ) : List ℕ := (List.range n).map fun k => base + k * pageSize

lemma mem_pagesFrom {base n v : ℕ} :
    v ∈ pagesFrom base n ↔ ∃ k < n, base + k * pageSize = v := by
  simp [pagesFrom]

lemma nodup_pagesFrom (base n : ℕ) : (pagesFrom base n).Nodup := by
  refine List.Nodup.map (fun j k h => ?_) List.nodup_range
  simp only [pageSize] at h
  omega

/-- The bounds of a run of pages. -/
lemma of_mem_pagesFrom {base n v : ℕ} (h : v ∈ pagesFrom base n) :
    base ≤ v ∧ v + pageSize ≤ base + n * pageSize := by
  obtain ⟨k, hk, rfl⟩ := mem_pagesFrom.mp h
  rw [pageSize]
  omega

namespace BootArgs

variable {a : BootArgs} {cfg : Config}

/-- A layout below 512 GiB whose addresses do not wrap around. -/
structure Low (cfg : Config) (a : BootArgs) : Prop where
  aligned : a.Aligned
  image : a.uiVReg.start ≤ a.uiVReg.stop
  window : (a.uiReg cfg).start ≤ (a.uiReg cfg).stop
  extraBi : a.extraBiSize ≤ 2 ^ 37
  stop : a.uiVReg.stop ≤ 2 ^ 37

/-- The number of pages that the extra boot info takes. -/
def extraBiFrames (a : BootArgs) : ℕ := (a.extraBiSize + (pageSize - 1)) / pageSize

lemma extraBiFrames_le_two : a.extraBiFrames ≤ 2 ↔ a.extraBiSize ≤ 2 * pageSize := by
  rw [extraBiFrames, pageSize]
  omega

/-- The number of pages that the user image takes. -/
def userImageFrames (a : BootArgs) : ℕ :=
  (a.uiVReg.stop - a.uiVReg.start + (pageSize - 1)) / pageSize

/-- The last page of the window. -/
def lastPage (a : BootArgs) : ℕ := a.shmDataVaddr + (shmDataSize - pageSize)

namespace Low

lemma extraBi' (h : Low cfg a) : a.extraBiSize ≤ 2 ^ 40 := h.extraBi.trans (by norm_num)

lemma extraBiRoom_le (h : Low cfg a) : a.extraBiRoom ≤ 2 ^ 37 := by
  rw [extraBiRoom]
  split_ifs with hbits
  · refine Nat.pow_le_pow_right (by norm_num) ?_
    have hpos : 0 < a.extraBiSize := by
      by_contra hzero
      simp [extraBiSizeBits, calculateExtraBiSizeBits, Nat.eq_zero_of_not_pos hzero] at hbits
    exact (calculateExtraBiSizeBits_spec hpos (h.extraBi.trans (by norm_num))).2.2 37 (by norm_num)
      h.extraBi
  · exact Nat.zero_le _

lemma biFrameVptr_eq (h : Low cfg a) : a.biFrameVptr = a.uiVReg.stop + pageSize := by
  have hstop := h.stop
  rw [biFrameVptr, ipcbufVptr, wadd, Nat.mod_eq_of_lt]
  rw [pageSize]
  omega

lemma extraBiFrameVptr_eq (h : Low cfg a) :
    a.extraBiFrameVptr = a.uiVReg.stop + 2 * pageSize := by
  have hstop := h.stop
  rw [extraBiFrameVptr, h.biFrameVptr_eq, wadd, Nat.mod_eq_of_lt]
  · ring
  · rw [pageSize]
    omega

lemma itVReg_stop_eq (h : Low cfg a) : a.itVReg.stop =
    a.uiVReg.stop + a.extraBiRoom + 1027 * pageSize := by
  have hstop := h.stop
  have hroom := h.extraBiRoom_le
  simp only [itVReg, h.extraBiFrameVptr_eq, wadd, shmDataSize, pageSize]
  omega

/-- No address wraps around. -/
lemma wadd_eq (h : Low cfg a) {k : ℕ} (hk : k ≤ 2 ^ 25) :
    wadd a.extraBiFrameVptr (k * pageSize) = a.uiVReg.stop + 2 * pageSize + k * pageSize := by
  have hstop := h.stop
  rw [h.extraBiFrameVptr_eq, wadd, Nat.mod_eq_of_lt]
  rw [pageSize]
  omega

lemma shmDataVaddr_eq (h : Low cfg a) : a.shmDataVaddr = a.uiVReg.stop + 12 * pageSize := by
  have hdata : a.shmDataVaddr = wadd a.extraBiFrameVptr (10 * pageSize) := by
    rw [shmDataVaddr, shmTxQueueVaddr_eq h.aligned h.extraBi', wadd_wadd]
    ring_nf
  rw [hdata, h.wadd_eq (by norm_num)]
  ring

lemma queuePages_eq (h : Low cfg a) :
    a.queuePages = pagesFrom (a.uiVReg.stop + 4 * pageSize) 6 := by
  rw [BootArgs.queuePages_eq h.aligned h.extraBi', pagesFrom]
  refine List.map_congr_left fun k hk => ?_
  rw [List.mem_range] at hk
  rw [h.wadd_eq (by omega)]
  ring

lemma windowPages_eq (h : Low cfg a) :
    a.windowPages = pagesFrom (a.uiVReg.stop + 12 * pageSize) 1024 := by
  rw [BootArgs.windowPages_eq h.aligned h.extraBi', pagesFrom]
  apply List.map_congr_left
  intro i hi
  rw [List.mem_range] at hi
  rw [h.wadd_eq (by omega)]
  ring

lemma extraBiPages_eq (h : Low cfg a) :
    a.extraBiPages cfg = pagesFrom (a.uiVReg.stop + 2 * pageSize) a.extraBiFrames := by
  have hoff := cfg.pptrBaseOffset_lt
  have hextra : a.extraBiFrameVptr < 2 ^ 64 := wadd_lt _ _
  have hbi := a.words.2.2.2.2.2
  have hsize := h.extraBi
  rw [extraBiPages, createFramesOfRegion, pagesFrom, extraBiFrames]
  apply List.map_congr_left
  intro k hk
  rw [List.mem_range, lt_frames_iff] at hk
  have hk' : k ≤ 2 ^ 25 := by
    rw [pageSize] at hk
    omega
  rw [← h.wadd_eq hk']
  simp only [wsub, wadd]
  omega

lemma userImagePages_eq (h : Low cfg a) :
    a.userImagePages cfg = pagesFrom a.uiVReg.start a.userImageFrames := by
  have hoff := cfg.pptrBaseOffset_lt
  have hwords := a.words
  have himage := h.image
  have hwindow := h.window
  have hstop := h.stop
  -- the image takes as much in the kernel window as it does at its virtual addresses
  have hlen : (a.uiReg cfg).stop - (a.uiReg cfg).start = a.uiVReg.stop - a.uiVReg.start := by
    simp only [uiReg, uiVReg, wadd, wsub] at *
    omega
  rw [userImagePages, createFramesOfRegion, pagesFrom, hlen, userImageFrames]
  apply List.map_congr_left
  intro k hk
  rw [List.mem_range, lt_frames_iff] at hk
  simp only [uiReg, uiVReg, wadd, wsub] at *
  omega

/-- All pages that are mapped, as runs of pages. -/
lemma allPages_eq (h : Low cfg a) : a.bootPages cfg ++ a.shmPages =
    (a.uiVReg.stop + pageSize) :: pagesFrom (a.uiVReg.stop + 2 * pageSize) a.extraBiFrames ++
      a.uiVReg.stop :: pagesFrom a.uiVReg.start a.userImageFrames ++
      (pagesFrom (a.uiVReg.stop + 4 * pageSize) 6 ++
        pagesFrom (a.uiVReg.stop + 12 * pageSize) 1024) := by
  rw [bootPages, shmPages, h.biFrameVptr_eq, h.extraBiPages_eq, h.userImagePages_eq,
    h.queuePages_eq, h.windowPages_eq]
  rfl

lemma userImageFrames_le (h : Low cfg a) :
    a.uiVReg.start + a.userImageFrames * pageSize ≤ a.uiVReg.stop := by
  have hstart := h.aligned.uiVReg_start
  have hstop := h.aligned.uiVReg_stop
  have himage := h.image
  rw [userImageFrames]
  rw [pageSize] at *
  omega

/-- The mapped pages are all different if and only if the extra boot info ends before the
queues. -/
lemma nodup_allPages (h : Low cfg a) :
    (a.bootPages cfg ++ a.shmPages).Nodup ↔ a.extraBiFrames ≤ 2 := by
  have himage := h.userImageFrames_le
  rw [h.allPages_eq]
  constructor
  · intro hnodup
    by_contra hmany
    -- the third frame of the extra boot info is the first page of the queues
    have hextra : a.uiVReg.stop + 2 * pageSize + 2 * pageSize ∈
        pagesFrom (a.uiVReg.stop + 2 * pageSize) a.extraBiFrames :=
      mem_pagesFrom.mpr ⟨2, by omega, rfl⟩
    have hqueue : a.uiVReg.stop + 2 * pageSize + 2 * pageSize ∈
        pagesFrom (a.uiVReg.stop + 4 * pageSize) 6 :=
      mem_pagesFrom.mpr ⟨0, by norm_num, by ring⟩
    exact (List.nodup_append.mp hnodup).2.2 _
      (List.mem_append_left _ (List.mem_cons_of_mem _ hextra)) _ (List.mem_append_left _ hqueue) rfl
  · intro hfew
    have hpos : 0 < pageSize := by norm_num [pageSize]
    have hextra {v : ℕ} (hv : v ∈ pagesFrom (a.uiVReg.stop + 2 * pageSize) a.extraBiFrames) :
        a.uiVReg.stop + 2 * pageSize ≤ v ∧ v + pageSize ≤ a.uiVReg.stop + 4 * pageSize := by
      have hv := of_mem_pagesFrom hv
      rw [pageSize] at *
      omega
    have hbelow {v : ℕ} (hv : v ∈ pagesFrom a.uiVReg.start a.userImageFrames) :
        v < a.uiVReg.stop := by
      have hv := of_mem_pagesFrom hv
      omega
    simp only [List.cons_append, List.nodup_cons, List.nodup_append, nodup_pagesFrom,
      List.mem_append, List.mem_cons]
    refine ⟨?_, ⟨trivial, ⟨fun hv => absurd (hbelow hv) (lt_irrefl _), trivial⟩, ?_⟩,
      ⟨trivial, trivial, ?_⟩, ?_⟩
    -- up to two frames all groups of pages lie in ascending order, which is compared in pairs
    · rintro ((hv | hv | hv) | hv | hv)
      · have := hextra hv
        omega
      · omega
      · have := hbelow hv
        omega
      · have := of_mem_pagesFrom hv
        omega
      · have := of_mem_pagesFrom hv
        omega
    · rintro v hv w (rfl | hw)
      · have := hextra hv
        omega
      · have := hextra hv
        have := hbelow hw
        omega
    · intro v hv w hw
      have := of_mem_pagesFrom hv
      have := of_mem_pagesFrom hw
      omega
    · intro v hv w hw
      have hlow : v < a.uiVReg.stop + 4 * pageSize := by
        rcases hv with hv | rfl | hv
        · have := hextra hv
          omega
        · omega
        · have := hbelow hv
          omega
      rcases hw with hw | hw
      · have := of_mem_pagesFrom hw
        omega
      · have := of_mem_pagesFrom hw
        omega

lemma lastPage_eq (h : Low cfg a) : a.lastPage = a.uiVReg.stop + 1035 * pageSize := by
  have hgap : shmDataSize - pageSize = 1023 * pageSize := by norm_num [shmDataSize, pageSize]
  rw [lastPage, h.shmDataVaddr_eq, hgap]
  ring

lemma lastPage_mem (h : Low cfg a) : a.lastPage ∈ a.bootPages cfg ++ a.shmPages := by
  refine List.mem_append_right _ (List.mem_append_right _ ?_)
  rw [h.windowPages_eq, h.lastPage_eq]
  exact mem_pagesFrom.mpr ⟨1023, by norm_num, by ring⟩

end Low

/-- What is left for the extra boot info covers it. -/
lemma extraBiSize_le_room (hsize : a.extraBiSize ≤ 2 ^ 40) : a.extraBiSize ≤ a.extraBiRoom := by
  rcases Nat.eq_zero_or_pos a.extraBiSize with hzero | hpos
  · rw [hzero]
    exact Nat.zero_le _
  · obtain ⟨hpage, hcover, -⟩ :=
      calculateExtraBiSizeBits_spec hpos (hsize.trans (by norm_num))
    have hbits : 0 < a.extraBiSizeBits := lt_of_lt_of_le (by norm_num) hpage
    rw [extraBiRoom, if_pos hbits]
    exact hcover

namespace Low

/-- All pages are page-aligned and lie from the image on; those beyond the window belong
to the extra boot info, and are inside `it_v_reg`. -/
lemma of_mem_allPages (h : Low cfg a) {v : ℕ} (hv : v ∈ a.bootPages cfg ++ a.shmPages) :
    v % pageSize = 0 ∧ a.uiVReg.start ≤ v ∧ v < 2 ^ 39 ∧
      (v ≤ a.lastPage ∨ v < a.itVReg.stop) := by
  have hroom := extraBiSize_le_room h.extraBi'
  have hroom' := h.extraBiRoom_le
  have hstart := h.aligned.uiVReg_start
  have hstop := h.aligned.uiVReg_stop
  have himage := h.userImageFrames_le
  have hle := h.stop
  rw [h.allPages_eq] at hv
  rw [h.lastPage_eq, h.itVReg_stop_eq]
  simp only [List.cons_append, List.mem_cons, List.mem_append, mem_pagesFrom] at hv
  rw [pageSize] at *
  rcases hv with rfl | (⟨k, hk, rfl⟩ | rfl | ⟨k, hk, rfl⟩) | ⟨k, hk, rfl⟩ | ⟨k, hk, rfl⟩
  · omega
  · have hk : k * 2 ^ 12 < a.extraBiSize := lt_frames_iff.mp hk
    omega
  · omega
  · omega
  · omega
  · omega

/-- The entries that are written are those of the pages. -/
lemma map_fst_mapOps (h : Low cfg a) :
    (a.mapOps cfg).map Prod.fst = (a.bootPages cfg ++ a.shmPages).map cfg.slot := by
  have hwindow : a.windowPages.map cfg.windowSlot = a.windowPages.map cfg.slot := by
    refine List.map_congr_left fun v hv => Config.windowSlot_eq ?_
    exact (h.of_mem_allPages (List.mem_append_right _ (List.mem_append_right _ hv))).2.2.1
  simp only [mapOps, bootPages, shmPages, List.map_append, List.map_cons, map_fst_entries, hwindow,
    List.append_assoc]

/-- The entry of a page can be reached if and only if its block of 2 MiB starts before the
end of `it_v_reg`. -/
lemma walks_iff (h : Low cfg a) {s : VSpace} (hs : ∀ e, s.Walks e ↔ ∃ v ∈ blocks 21 a.itVReg,
      (cfg.slot v).pgd = e.pgd ∧ (cfg.slot v).pud = e.pud ∧ (cfg.slot v).pd = e.pd)
    {v : ℕ} (hv : v ∈ a.bootPages cfg ++ a.shmPages) :
    s.Walks (cfg.slot v) ↔ roundDown v 21 < a.itVReg.stop := by
  obtain ⟨-, hstart, hlt, -⟩ := h.of_mem_allPages hv
  have hstop := h.stop
  have hroom := h.extraBiRoom_le
  have hitVReg := h.itVReg_stop_eq
  rw [pageSize] at hitVReg
  rw [hs]
  constructor
  · rintro ⟨b, hb, -, hpud, hpd⟩
    obtain ⟨hmod, -, hbstop⟩ := mem_blocks.mp hb
    have hblock := Config.roundDown21_of_slot (by omega) hlt hpud hpd
    rw [← hblock]
    exact (roundDown_le _ _).trans_lt hbstop
  · intro hblock
    refine ⟨roundDown v 21, mem_blocks.mpr ⟨Nat.mul_mod_left _ _, ?_, hblock⟩,
      Config.slot_roundDown21 v⟩
    exact Nat.mul_le_mul_right _ (Nat.div_le_div_right hstart)

/-- The tables for all pages are there if and only if those for the last page of the
window are. -/
lemma forall_block_iff (h : Low cfg a) :
    (∀ v ∈ a.bootPages cfg ++ a.shmPages, roundDown v 21 < a.itVReg.stop) ↔
      roundDown a.lastPage 21 < a.itVReg.stop := by
  refine ⟨fun hall => hall _ h.lastPage_mem, fun hlast v hv => ?_⟩
  rcases (h.of_mem_allPages hv).2.2.2 with hle | hlt
  · exact (Nat.mul_le_mul_right _ (Nat.div_le_div_right hle)).trans_lt hlast
  · exact (roundDown_le _ _).trans_lt hlt

/-- The tables are found for all entries if and only if they are there for the last page. -/
lemma forall_walks_iff (h : Low cfg a) {s : VSpace} (hs : ∀ e, s.Walks e ↔
      ∃ v ∈ blocks 21 a.itVReg,
        (cfg.slot v).pgd = e.pgd ∧ (cfg.slot v).pud = e.pud ∧ (cfg.slot v).pd = e.pd) :
    (∀ op ∈ a.mapOps cfg, s.Walks op.1) ↔ roundDown a.lastPage 21 < a.itVReg.stop := by
  have hmap : (∀ op ∈ a.mapOps cfg, s.Walks op.1) ↔
      ∀ e ∈ (a.bootPages cfg ++ a.shmPages).map cfg.slot, s.Walks e := by
    rw [← h.map_fst_mapOps, List.forall_mem_map]
  rw [hmap, List.forall_mem_map, ← h.forall_block_iff]
  exact forall₂_congr fun v hv => h.walks_iff hs hv

end Low

/-- **Which layouts are safe**, of those below 512 GiB: the extra boot info has at most two
pages, and the last page of the window is in a block of 2 MiB that `it_v_reg` reaches. -/
lemma safe_iff (h : Low cfg a) : a.Safe cfg ↔
    a.extraBiSize ≤ 2 * pageSize ∧ roundDown a.lastPage 21 < a.itVReg.stop := by
  obtain ⟨s, hs, hfree, hwalks⟩ := createItAddressSpace_spec cfg a.itVReg
  have hnodup : ((a.bootPages cfg ++ a.shmPages).map cfg.slot).Nodup ↔
      (a.bootPages cfg ++ a.shmPages).Nodup := by
    refine ⟨List.Nodup.of_map _, fun hn => hn.map_on fun v hv w hw heq => ?_⟩
    obtain ⟨hvp, -, hvlt, -⟩ := h.of_mem_allPages hv
    obtain ⟨hwp, -, hwlt, -⟩ := h.of_mem_allPages hw
    exact Config.slot_inj hvlt hwlt hvp hwp heq
  have hsafe : a.Safe cfg ↔ Fresh s (a.mapOps cfg) := by
    rw [Safe, hs]
    simp
  rw [hsafe, fresh_iff, h.forall_walks_iff hwalks, h.map_fst_mapOps, hnodup, h.nodup_allPages,
    extraBiFrames_le_two]
  constructor
  · rintro ⟨hlast, hfew, -⟩
    exact ⟨hfew, hlast⟩
  · rintro ⟨hfew, hlast⟩
    exact ⟨hlast, hfew, fun op _ => hfree op.1⟩

/-- **Which layouts are accepted**, of those below 512 GiB that pass the checks: the
assertions hold exactly if the tables reach the last page of the window. An entry that is
written twice is not noticed. -/
lemma tryInitKernel_iff (h : Low cfg a) (hok : checkLayout cfg a = .ok a.itVReg) :
    (∃ s, tryInitKernel cfg a = .ok s) ↔ roundDown a.lastPage 21 < a.itVReg.stop := by
  obtain ⟨s, hs, -, hwalks⟩ := createItAddressSpace_spec cfg a.itVReg
  rw [← h.forall_walks_iff hwalks, ← VSpace.foldlM_mapPage_isSome]
  rw [tryInitKernel, hok]
  dsimp only
  rw [hs, Option.bind_some]
  cases (a.mapOps cfg).foldlM VSpace.mapPage s with
  | none => simp
  | some s' => simp

end BootArgs

/-! ### No layout -/

namespace BootArgs

variable {a : BootArgs} {cfg : Config}

/-- From two pages of extra boot info on, the next of its pages is the first queue. -/
lemma not_apart (h : a.Aligned) (hsize : a.extraBiSize ≤ 2 ^ 40)
    (hlarge : 2 * pageSize < a.extraBiSize) :
    ¬ ∀ v ∈ a.shmPages, ∀ w ∈ a.bootPages cfg, Apart v w := by
  intro hapart
  have hextra : wadd a.extraBiFrameVptr (2 * pageSize) ∈ a.extraBiPages cfg :=
    mem_extraBiPages.mpr ⟨2, hlarge, rfl⟩
  have hqueue : wadd a.extraBiFrameVptr (2 * pageSize) ∈ a.queuePages := by
    rw [queuePages_eq h hsize]
    exact List.mem_map.mpr ⟨0, by simp, rfl⟩
  have hboot : wadd a.extraBiFrameVptr (2 * pageSize) ∈ a.bootPages cfg :=
    List.mem_cons_of_mem _ (List.mem_append_left _ hextra)
  have hself := hapart _ (List.mem_append_left _ hqueue) _ hboot
  rw [Apart, pageSize] at hself
  omega

/-- Up to eight pages left for the extra boot info, the window ends outside `it_v_reg`:
its last page lies nine pages beyond what the region leaves for it. -/
lemma not_inside (h : a.Aligned) (hsize : a.extraBiSize ≤ 2 ^ 40)
    (htop : a.itVReg.stop < cfg.userTop) (hroom : a.extraBiRoom ≤ 8 * pageSize) :
    ¬ ∀ v ∈ a.shmPages, a.itVReg.start ≤ v ∧ v + pageSize ≤ a.itVReg.stop := by
  intro hinside
  have hlast : wadd a.extraBiFrameVptr ((10 + 1023) * pageSize) ∈ a.windowPages := by
    rw [windowPages_eq h hsize]
    exact List.mem_map.mpr ⟨1023, by simp, rfl⟩
  have hle := (hinside _ (List.mem_append_right _ hlast)).2
  have huser := cfg.userTop_le
  simp only [itVReg, wadd, shmDataSize, pageSize] at hle htop hroom
  omega

/-- **What `it_v_reg` covers**: the shared pages are inside exactly if it leaves nine pages
for the extra boot info. -/
lemma Low.inside_iff (h : Low cfg a) :
    (∀ v ∈ a.shmPages, a.itVReg.start ≤ v ∧ v + pageSize ≤ a.itVReg.stop) ↔
      9 * pageSize ≤ a.extraBiRoom := by
  rw [h.itVReg_stop_eq, shmPages, h.queuePages_eq, h.windowPages_eq]
  have himage : a.itVReg.start ≤ a.uiVReg.stop := h.image
  constructor
  · intro hinside
    have hlast : a.uiVReg.stop + 12 * pageSize + 1023 * pageSize ∈
        pagesFrom (a.uiVReg.stop + 12 * pageSize) 1024 :=
      mem_pagesFrom.mpr ⟨1023, by norm_num, rfl⟩
    have hle := (hinside _ (List.mem_append_right _ hlast)).2
    omega
  · intro hroom v hv
    rcases List.mem_append.mp hv with hv | hv
    · have hv := of_mem_pagesFrom hv
      omega
    · have hv := of_mem_pagesFrom hv
      omega

end BootArgs

/-- **No accepted layout** keeps the shared pages both away from the extra boot info and
inside `it_v_reg`: the first needs at most two pages of extra boot info, the second room
for nine. -/
theorem shm_layout_never (cfg : Config) (a : BootArgs) (haligned : a.Aligned)
    (hok : ∃ r, checkLayout cfg a = .ok r) : ¬ LayoutOk cfg a := by
  intro hlayout
  obtain ⟨r, hr⟩ := hok
  obtain ⟨htop, hsize, -⟩ := BootArgs.of_checkLayout hr
  rcases Nat.lt_or_ge (2 * pageSize) a.extraBiSize with hlarge | hsmall
  · exact BootArgs.not_apart haligned hsize hlarge hlayout.apart
  · have hroom : a.extraBiRoom ≤ 8 * pageSize :=
      (BootArgs.extraBiRoom_le hsmall).trans (by norm_num [pageSize])
    exact BootArgs.not_inside haligned hsize htop hroom hlayout.inside

/-- A user image of 2 MiB at 4 MiB, and a device tree of 32 KiB. -/
def imageAndDtb : BootArgs where
  uiPRegStart := 0x41000000
  uiPRegEnd := 0x41200000
  pvOffset := 0x40c00000
  dtbPhysAddr := 0x48000000
  dtbSize := 0x8000
  extraBi := 0x8050000000
  words := by norm_num

lemma itVReg_imageAndDtb : imageAndDtb.itVReg = ⟨0x400000, 0xa13000⟩ := by decide

lemma checkLayout_imageAndDtb : checkLayout .hyp44 imageAndDtb = .ok imageAndDtb.itVReg := by
  have hdtb : imageAndDtb.dtbPhysEnd = 0x48008000 := by decide
  have htop : ¬ imageAndDtb.itVReg.stop ≥ Config.userTop .hyp44 := by
    rw [itVReg_imageAndDtb]
    decide
  rw [checkLayout, hdtb, if_neg (by decide), if_neg (by decide), if_neg htop]

lemma low_imageAndDtb : BootArgs.Low .hyp44 imageAndDtb where
  aligned := ⟨by decide, by decide, by decide⟩
  image := by decide
  window := by decide
  extraBi := by decide
  stop := by decide

/-- The layout of this image. -/
theorem shm_layout_never_imageAndDtb : ¬ LayoutOk .hyp44 imageAndDtb :=
  shm_layout_never .hyp44 imageAndDtb low_imageAndDtb.aligned ⟨_, checkLayout_imageAndDtb⟩

/-- The layout is accepted, and the third page of the device tree is overwritten by the
first queue. -/
theorem dtb_overwritten :
    (∃ s, tryInitKernel .hyp44 imageAndDtb = .ok s) ∧ imageAndDtb.Aligned ∧
      0x604000 ∈ imageAndDtb.extraBiPages .hyp44 ∧ 0x604000 ∈ imageAndDtb.queuePages ∧
      ¬ imageAndDtb.Safe .hyp44 ∧ ¬ LayoutOk .hyp44 imageAndDtb := by
  have hunsafe : ¬ imageAndDtb.Safe .hyp44 := by
    rw [BootArgs.safe_iff low_imageAndDtb]
    decide
  have haccepted : ∃ s, tryInitKernel .hyp44 imageAndDtb = .ok s := by
    rw [BootArgs.tryInitKernel_iff low_imageAndDtb checkLayout_imageAndDtb, itVReg_imageAndDtb]
    decide
  exact ⟨haccepted, low_imageAndDtb.aligned, by decide, by decide, hunsafe,
    fun h => hunsafe h.safe⟩

end Kernel
