import Sel4Test.Kernel.Boot
import Sel4Test.Lib.Intervals

/-!
The reserved regions of `src/kernel/boot.c`.

While the kernel boots it notes all physical regions that are in use: `reserve_region`
keeps them in the array `ndks_boot.reserved`, whose first `resv_count` elements are in
order, and grows and merges regions that touch. What is between them becomes device
memory.

* `mergeFrom_spec`: the sweep of `merge_regions` merges all neighbours that touch.
* `reserveRegion_spec`: one call adds the region or leaves the list as it is.
* `reserves_sorted`: after any calls on disjoint regions.
-/

namespace Kernel

open Intervals

/-! ### The array -/

/-- The numbers that the sizes of the arrays depend on: the elements of `avail_p_regs`,
`MODE_RESERVED` and `NUM_KERNEL_DEVICE_FRAMES`. -/
structure Platform where
  availPRegs : ℕ
  modeReserved : ℕ
  numKernelDeviceFrames : ℕ
deriving DecidableEq, Repr

/-- `MAX_NUM_FREEMEM_REG`. -/
def Platform.maxNumFreememReg (p : Platform) : ℕ := p.availPRegs + p.modeReserved + 1 + 1

/-- `NUM_RESERVED_REGIONS`. -/
def Platform.numReservedRegions (p : Platform) : ℕ := 3 + p.modeReserved

/-- `MAX_NUM_RESV_REG`. -/
def Platform.maxNumResvReg (p : Platform) : ℕ :=
  p.maxNumFreememReg + p.numKernelDeviceFrames + p.numReservedRegions

lemma Platform.maxNumResvReg_pos (p : Platform) : 0 < p.maxNumResvReg := by
  unfold maxNumResvReg maxNumFreememReg
  omega

/-- The addresses of a region. -/
def Region.addrs (r : Region) : Set ℕ := Set.Ico r.start r.stop

/-- `ndks_boot.reserved` and `ndks_boot.resv_count`. -/
structure Reserved where
  reserved : ℕ → Region
  resvCount : ℕ

namespace Reserved

/-- The array in `.bss`. -/
def empty : Reserved := ⟨fun _ => ⟨0, 0⟩, 0⟩

variable (s : Reserved)

def starts (i : ℕ) : ℕ := (s.reserved i).start

def stops (i : ℕ) : ℕ := (s.reserved i).stop

/-- The addresses of the list. -/
def addrs : Set ℕ := Covers s.starts s.stops s.resvCount

/-- `merge_regions`, from index `i` on. -/
def mergeFrom (i : ℕ) (s : Reserved) : Reserved :=
  if i < s.resvCount then
    if (s.reserved (i - 1)).stop = (s.reserved i).start then
      let extended := Function.update s.reserved (i - 1)
        { s.reserved (i - 1) with stop := (s.reserved i).stop }
      mergeFrom i
        { reserved := moveDown (s.resvCount - (i + 1)) (i + 1) extended,
          resvCount := s.resvCount - 1 }
    else mergeFrom (i + 1) s
  else s
termination_by s.resvCount - i

/-- `merge_regions`. -/
def mergeRegions : Reserved := s.mergeFrom 1

/-- The loop of `reserve_region`, from index `i` on, and what follows it. -/
def reserveFrom (p : Platform) (reg : Region) (i : ℕ) (s : Reserved) : Bool × Reserved :=
  if i < s.resvCount then
    if (s.reserved i).start = reg.stop then
      (true, mergeRegions { s with
        reserved := Function.update s.reserved i { s.reserved i with start := reg.start } })
    else if (s.reserved i).stop = reg.start then
      (true, mergeRegions { s with
        reserved := Function.update s.reserved i { s.reserved i with stop := reg.stop } })
    else if (s.reserved i).start > reg.stop then
      if s.resvCount + 1 ≥ p.maxNumResvReg then (false, s)
      else
        (true,
          { reserved := Function.update (moveUp (s.resvCount - i) s.resvCount s.reserved) i reg,
            resvCount := s.resvCount + 1 })
    else reserveFrom p reg (i + 1) s
  else if i + 1 = p.maxNumResvReg then (false, s)
  else
    (true, { reserved := Function.update s.reserved i reg, resvCount := s.resvCount + 1 })
termination_by s.resvCount - i

end Reserved

/-- `reserve_region`; none if its assertion fails. -/
def reserveRegion (p : Platform) (reg : Region) (s : Reserved) : Option (Bool × Reserved) :=
  if reg.start ≤ reg.stop then
    if reg.start = reg.stop then some (true, s)
    else some (s.reserveFrom p reg 0)
  else none

/-- The calls of `reserve_region` since the start, the last one first, with their results,
and the list they lead to. -/
inductive Reserves (p : Platform) : List (Region × Bool) → Reserved → Prop
  | nil : Reserves p [] Reserved.empty
  | cons {calls : List (Region × Bool)} {s s' : Reserved} {reg : Region} {ok : Bool} :
      Reserves p calls s → reserveRegion p reg s = some (ok, s') →
      Reserves p ((reg, ok) :: calls) s'

/-! ### The sweep -/

namespace Reserved

variable {s : Reserved} {i k : ℕ}

/-- The regions are in order and disjoint, but may touch. -/
def InOrder (s : Reserved) : Prop := Ordered s.starts s.stops s.resvCount

/-- The list as it is between the calls: in order, and no two regions touch. -/
def Apart (s : Reserved) : Prop := Spaced s.starts s.stops s.resvCount

/-- The list after region `i` has taken in the one behind it. -/
def merged (s : Reserved) (i : ℕ) : Reserved where
  reserved := moveDown (s.resvCount - (i + 1 + 1)) (i + 1 + 1)
    (Function.update s.reserved i { s.reserved i with stop := (s.reserved (i + 1)).stop })
  resvCount := s.resvCount - 1

lemma starts_merged (h : i + 1 < s.resvCount) (hk : k < s.resvCount - 1) :
    (s.merged i).starts k = if k ≤ i then s.starts k else s.starts (k + 1) := by
  simp only [starts, merged, moveDown_apply]
  rcases lt_trichotomy k i with hki | rfl | hki
  · rw [if_neg (by omega), if_pos hki.le, Function.update_of_ne hki.ne]
  · rw [if_neg (by omega), if_pos le_rfl, Function.update_self]
  · rw [if_pos (by omega), if_neg (by omega), Function.update_of_ne (by omega)]

lemma stops_merged (h : i + 1 < s.resvCount) (hk : k < s.resvCount - 1) :
    (s.merged i).stops k = if k < i then s.stops k else s.stops (k + 1) := by
  simp only [stops, merged, moveDown_apply]
  rcases lt_trichotomy k i with hki | rfl | hki
  · rw [if_neg (by omega), if_pos hki, Function.update_of_ne hki.ne]
  · rw [if_neg (by omega), if_neg (lt_irrefl k), Function.update_self]
  · rw [if_pos (by omega), if_neg (by omega), Function.update_of_ne (by omega)]

/-- The gaps that the sweep has passed: none of the regions before `i - 1` touches a later
one. -/
def ApartBelow (s : Reserved) (i : ℕ) : Prop :=
  ∀ k l, k + 1 < i → k < l → l < s.resvCount → s.stops k < s.starts l

/-- **`merge_regions`** merges all neighbours that touch, and keeps the addresses. -/
lemma mergeFrom_spec (i : ℕ) (s : Reserved) (h : s.InOrder) (hbelow : s.ApartBelow (i + 1)) :
    (s.mergeFrom (i + 1)).Apart ∧ (s.mergeFrom (i + 1)).addrs = s.addrs ∧
      (s.mergeFrom (i + 1)).resvCount ≤ s.resvCount := by
  rw [mergeFrom]
  by_cases hi : i + 1 < s.resvCount
  · rw [if_pos hi, Nat.add_sub_cancel]
    -- two regions that touch become one, at which the loop stays; otherwise it moves on
    by_cases htouch : (s.reserved i).stop = (s.reserved (i + 1)).start
    · rw [if_pos htouch]
      have hcount : s.resvCount - 1 + 1 = s.resvCount := by omega
      have horder : Ordered s.starts s.stops (s.resvCount - 1 + 1) := by rwa [hcount]
      have hstarts : ∀ k, k < s.resvCount - 1 →
          (s.merged i).starts k = if k ≤ i then s.starts k else s.starts (k + 1) :=
        fun k hk => starts_merged hi hk
      have hstops : ∀ k, k < s.resvCount - 1 →
          (s.merged i).stops k = if k < i then s.stops k else s.stops (k + 1) :=
        fun k hk => stops_merged hi hk
      have hin : i < s.resvCount - 1 := by omega
      have hmerged : (s.merged i).InOrder := horder.merge hstarts hstops hin
      have haddrs : (s.merged i).addrs = s.addrs := by
        have hcovers := horder.covers_merge hstarts hstops hin htouch
        rwa [hcount] at hcovers
      have hbelow' : (s.merged i).ApartBelow (i + 1) := by
        intro k l hk hkl hl
        have hl' : l < s.resvCount - 1 := hl
        rw [hstops k (by omega), hstarts l hl', if_pos (by omega)]
        split_ifs
        · exact hbelow k l hk hkl (by omega)
        · exact hbelow k (l + 1) hk (by omega) (by omega)
      have ih := mergeFrom_spec i (s.merged i) hmerged hbelow'
      exact ⟨ih.1, ih.2.1.trans haddrs, ih.2.2.trans (Nat.sub_le _ _)⟩
    · rw [if_neg htouch]
      refine mergeFrom_spec (i + 1) s h fun k l hk hkl hl => ?_
      by_cases hki : k + 1 < i + 1
      · exact hbelow k l hki hkl hl
      · obtain rfl : k = i := by omega
        have hnext : s.stops k < s.starts (k + 1) :=
          lt_of_le_of_ne (h.le k (k + 1) (by omega) hi) htouch
        obtain rfl | hl' : l = k + 1 ∨ k + 1 < l := by omega
        · exact hnext
        · calc s.stops k < s.starts (k + 1) := hnext
            _ < s.stops (k + 1) := h.nonempty (k + 1) hi
            _ ≤ s.starts l := h.le (k + 1) l hl' hl
  · rw [if_neg hi]
    exact ⟨⟨h.nonempty, fun k l hkl hl => hbelow k l (by omega) hkl hl⟩, rfl, le_rfl⟩
termination_by s.resvCount - i
decreasing_by
  · simp only [merged]
    omega
  · omega

lemma mergeRegions_spec (h : s.InOrder) :
    s.mergeRegions.Apart ∧ s.mergeRegions.addrs = s.addrs ∧
      s.mergeRegions.resvCount ≤ s.resvCount :=
  mergeFrom_spec 0 s h fun _ _ hk => by omega

/-! ### One call -/

/-- The list after region `i` has been given other ends. -/
def grown (s : Reserved) (i : ℕ) (reg : Region) : Reserved :=
  { s with reserved := Function.update s.reserved i reg }

lemma starts_grown (s : Reserved) (i : ℕ) (reg : Region) :
    (s.grown i reg).starts = Function.update s.starts i reg.start := by
  funext k
  by_cases hki : k = i
  · subst hki
    simp [starts, grown]
  · simp [starts, grown, Function.update_of_ne hki]

lemma stops_grown (s : Reserved) (i : ℕ) (reg : Region) :
    (s.grown i reg).stops = Function.update s.stops i reg.stop := by
  funext k
  by_cases hki : k = i
  · subst hki
    simp [stops, grown]
  · simp [stops, grown, Function.update_of_ne hki]

/-- A region grows by one that it touches, and what it then touches is merged. -/
lemma mergeRegions_grown {a b : ℕ} {reg : Region} (h : s.Apart) (hi : i < s.resvCount)
    (hab : a < b) (hbelow : ∀ k, k < i → s.stops k ≤ a)
    (habove : ∀ k, i < k → k < s.resvCount → b ≤ s.starts k)
    (hset : reg.addrs ∪ Set.Ico (s.starts i) (s.stops i) = Set.Ico a b) :
    (s.grown i ⟨a, b⟩).mergeRegions.Apart ∧
      (s.grown i ⟨a, b⟩).mergeRegions.addrs = s.addrs ∪ reg.addrs ∧
      (s.grown i ⟨a, b⟩).mergeRegions.resvCount ≤ s.resvCount := by
  have horder : (s.grown i ⟨a, b⟩).InOrder := by
    rw [InOrder, starts_grown, stops_grown]
    exact h.ordered.replace hi hab hbelow habove
  have haddrs : (s.grown i ⟨a, b⟩).addrs = s.addrs ∪ reg.addrs := by
    rw [addrs, starts_grown, stops_grown]
    exact covers_replace hi hset
  obtain ⟨hapart, hsame, hcount⟩ := mergeRegions_spec horder
  exact ⟨hapart, hsame.trans haddrs, hcount⟩

/-- The list with a region put in before region `i`. -/
def inserted (s : Reserved) (i : ℕ) (reg : Region) : Reserved where
  reserved := Function.update (moveUp (s.resvCount - i) s.resvCount s.reserved) i reg
  resvCount := s.resvCount + 1

lemma reserved_inserted {reg : Region} (hi : i ≤ s.resvCount) (hk : k ≤ s.resvCount) :
    (s.inserted i reg).reserved k =
      if k < i then s.reserved k else if k = i then reg else s.reserved (k - 1) := by
  simp only [inserted]
  rcases lt_trichotomy k i with hki | hki | hki
  · rw [Function.update_of_ne hki.ne, moveUp_apply _ _ _ (by omega), if_neg (by omega),
      if_pos hki]
  · rw [if_neg (by omega), if_pos hki, hki, Function.update_self]
  · rw [Function.update_of_ne (by omega), moveUp_apply _ _ _ (by omega), if_pos (by omega),
      if_neg (by omega), if_neg (by omega)]

/-- A region comes in between two others, or behind the last one, and touches neither. -/
lemma inserted_spec {reg : Region} (h : s.Apart) (hi : i ≤ s.resvCount)
    (hne : reg.start < reg.stop) (hbelow : ∀ k, k < i → s.stops k < reg.start)
    (habove : ∀ k, i ≤ k → k < s.resvCount → reg.stop < s.starts k) :
    (s.inserted i reg).Apart ∧ (s.inserted i reg).addrs = s.addrs ∪ reg.addrs := by
  have hstarts : ∀ k, k ≤ s.resvCount → (s.inserted i reg).starts k =
      if k < i then s.starts k else if k = i then reg.start else s.starts (k - 1) := by
    intro k hk
    rw [starts, reserved_inserted hi hk]
    split_ifs <;> rfl
  have hstops : ∀ k, k ≤ s.resvCount → (s.inserted i reg).stops k =
      if k < i then s.stops k else if k = i then reg.stop else s.stops (k - 1) := by
    intro k hk
    rw [stops, reserved_inserted hi hk]
    split_ifs <;> rfl
  exact ⟨h.insert hi hstarts hstops hne hbelow habove, covers_insert hi hstarts hstops⟩

/-- The loop returns false only where it has changed nothing. -/
lemma reserveFrom_false (p : Platform) (reg : Region) (i : ℕ) (s : Reserved)
    (h : (s.reserveFrom p reg i).1 = false) : (s.reserveFrom p reg i).2 = s := by
  rw [reserveFrom] at h ⊢
  split_ifs at h ⊢ with hin hstart hstop habove hfull hlast
  · rfl
  · exact reserveFrom_false p reg (i + 1) s h
  · rfl
termination_by s.resvCount - i

/-- What a call does on a list that is apart: it stays so, and the region is added if the
call returns true. -/
structure Added (p : Platform) (s : Reserved) (reg : Region) (r : Bool × Reserved) : Prop where
  apart : r.2.Apart
  count_lt : r.2.resvCount < p.maxNumResvReg
  addrs_eq : r.1 = true → r.2.addrs = s.addrs ∪ reg.addrs

variable {p : Platform} {reg : Region}

/-- The loop at index `i`: the regions that it has passed end before the new one starts. -/
lemma reserveFrom_spec (i : ℕ) (h : s.Apart) (hcount : s.resvCount < p.maxNumResvReg)
    (hne : reg.start < reg.stop) (hdisj : Disjoint reg.addrs s.addrs)
    (hi : i ≤ s.resvCount) (hpassed : ∀ k, k < i → s.stops k < reg.start) :
    Added p s reg (s.reserveFrom p reg i) := by
  have hside (k : ℕ) (hk : k < s.resvCount) : reg.stop ≤ s.starts k ∨ s.stops k ≤ reg.start :=
    le_or_le_of_disjoint hne (h.nonempty k hk) (disjoint_of_covers hdisj hk)
  rw [reserveFrom]
  by_cases hin : i < s.resvCount
  · rw [if_pos hin]
    have hregion : s.starts i < s.stops i := h.nonempty i hin
    -- the regions behind region `i` start behind its end
    have hlater (k : ℕ) (hik : i < k) (hk : k < s.resvCount) : s.stops i < s.starts k :=
      h.lt i k hik hk
    by_cases hstart : (s.reserved i).start = reg.stop
    · rw [if_pos hstart]
      have hset : reg.addrs ∪ Set.Ico (s.starts i) (s.stops i) =
          Set.Ico reg.start (s.stops i) := by
        rw [Region.addrs, starts, hstart]
        exact Set.Ico_union_Ico_eq_Ico hne.le (hstart ▸ hregion.le)
      obtain ⟨hapart, haddrs, hle⟩ := mergeRegions_grown h hin
        (hne.trans (hstart ▸ hregion)) (fun k hk => (hpassed k hk).le)
        (fun k hik hk => (hlater k hik hk).le) hset
      exact ⟨hapart, hle.trans_lt hcount, fun _ => haddrs⟩
    · rw [if_neg hstart]
      by_cases hstop : (s.reserved i).stop = reg.start
      · rw [if_pos hstop]
        have hset : reg.addrs ∪ Set.Ico (s.starts i) (s.stops i) =
            Set.Ico (s.starts i) reg.stop := by
          rw [Region.addrs, stops, hstop, Set.union_comm]
          exact Set.Ico_union_Ico_eq_Ico (hstop ▸ hregion.le) hne.le
        have habove (k : ℕ) (hik : i < k) (hk : k < s.resvCount) : reg.stop ≤ s.starts k := by
          have hlt : reg.start < s.starts k := hstop ▸ hlater k hik hk
          have hk' := h.nonempty k hk
          exact (hside k hk).resolve_right (by omega)
        obtain ⟨hapart, haddrs, hle⟩ := mergeRegions_grown h hin
          (hregion.trans (hstop.trans_lt hne)) (fun k hk => (h.lt k i hk hin).le) habove hset
        exact ⟨hapart, hle.trans_lt hcount, fun _ => haddrs⟩
      · rw [if_neg hstop]
        by_cases habove : (s.reserved i).start > reg.stop
        · rw [if_pos habove]
          by_cases hfull : s.resvCount + 1 ≥ p.maxNumResvReg
          · rw [if_pos hfull]
            exact ⟨h, hcount, fun h => Bool.noConfusion h⟩
          · rw [if_neg hfull]
            have hbehind (k : ℕ) (hik : i ≤ k) (hk : k < s.resvCount) :
                reg.stop < s.starts k := by
              obtain rfl | hik' : k = i ∨ i < k := by omega
              · exact habove
              · exact habove.trans (hregion.trans (hlater k hik' hk))
            obtain ⟨hapart, haddrs⟩ := inserted_spec h hi hne hpassed hbehind
            exact ⟨hapart, Nat.lt_of_not_le hfull, fun _ => haddrs⟩
        · rw [if_neg habove]
          refine reserveFrom_spec (i + 1) h hcount hne hdisj hin fun k hk => ?_
          by_cases hki : k < i
          · exact hpassed k hki
          · obtain rfl : k = i := by omega
            have hside' := hside k hin
            unfold starts stops at *
            omega
  · rw [if_neg hin]
    obtain rfl : i = s.resvCount := by omega
    by_cases hfull : s.resvCount + 1 = p.maxNumResvReg
    · rw [if_pos hfull]
      exact ⟨h, hcount, fun h => Bool.noConfusion h⟩
    · rw [if_neg hfull]
      obtain ⟨hapart, haddrs⟩ := inserted_spec h le_rfl hne hpassed fun k hik hk => by omega
      rw [inserted, Nat.sub_self, moveUp] at hapart haddrs
      exact ⟨hapart, Nat.lt_of_le_of_ne hcount hfull, fun _ => haddrs⟩
termination_by s.resvCount - i

lemma empty_apart : Apart empty := by
  constructor
  · intro k hk
    exact absurd hk (Nat.not_lt_zero k)
  · intro k l _ hl
    exact absurd hl (Nat.not_lt_zero l)

lemma addrs_empty : empty.addrs = ∅ := by
  ext x
  constructor
  · rintro ⟨k, hk, _⟩
    exact absurd hk (Nat.not_lt_zero k)
  · exact False.elim

end Reserved

open Reserved

variable {p : Platform} {reg : Region} {s s' : Reserved} {calls : List (Region × Bool)}

/-- One call of **`reserve_region`** on a region apart from the list. -/
lemma reserveRegion_spec {ok : Bool} (h : s.Apart) (hcount : s.resvCount < p.maxNumResvReg)
    (hdisj : Disjoint reg.addrs s.addrs) (hr : reserveRegion p reg s = some (ok, s')) :
    Added p s reg (ok, s') := by
  unfold reserveRegion at hr
  by_cases hle : reg.start ≤ reg.stop
  · rw [if_pos hle] at hr
    by_cases hempty : reg.start = reg.stop
    · rw [if_pos hempty] at hr
      cases hr
      refine ⟨h, hcount, fun _ => ?_⟩
      rw [Region.addrs, hempty, Set.Ico_self, Set.union_empty]
    · rw [if_neg hempty] at hr
      rw [← Option.some.inj hr]
      exact reserveFrom_spec 0 h hcount (lt_of_le_of_ne hle hempty) hdisj (Nat.zero_le _)
        fun k hk => absurd hk (Nat.not_lt_zero k)
  · rw [if_neg hle] at hr
    cases hr

/-- A call that returns false leaves the list as it was, whatever the region. -/
lemma reserveRegion_false (hr : reserveRegion p reg s = some (false, s')) : s' = s := by
  unfold reserveRegion at hr
  split_ifs at hr with hle hempty
  · cases hr
  · have hfalse := reserveFrom_false p reg 0 s
    rw [Option.some.inj hr] at hfalse
    exact hfalse rfl

/-- The addresses of the regions whose call returned true. -/
def accepted (calls : List (Region × Bool)) : Set ℕ :=
  {x | ∃ c ∈ calls, c.2 = true ∧ x ∈ c.1.addrs}

lemma accepted_cons {ok : Bool} :
    accepted ((reg, ok) :: calls) = {x | ok = true ∧ x ∈ reg.addrs} ∪ accepted calls := by
  ext x
  simp [accepted]

/-- What all calls so far have led to. -/
structure Listed (p : Platform) (calls : List (Region × Bool)) (s : Reserved) : Prop where
  apart : s.Apart
  count_lt : s.resvCount < p.maxNumResvReg
  addrs_eq : s.addrs = accepted calls

lemma Reserves.listed (h : Reserves p calls s)
    (hdisj : calls.Pairwise fun c d => Disjoint c.1.addrs d.1.addrs) : Listed p calls s := by
  induction h with
  | nil => exact ⟨empty_apart, p.maxNumResvReg_pos, by rw [addrs_empty]; ext x; simp [accepted]⟩
  | @cons calls s s' reg ok _ hr ih =>
      obtain ⟨hnew, hold⟩ := List.pairwise_cons.mp hdisj
      obtain ⟨hapart, hcount, haddrs⟩ := ih hold
      have hfresh : Disjoint reg.addrs s.addrs := by
        rw [haddrs, Set.disjoint_right]
        rintro x ⟨c, hc, _, hx⟩
        exact Set.disjoint_right.mp (hnew c hc) hx
      obtain ⟨hapart', hcount', htrue⟩ := reserveRegion_spec hapart hcount hfresh hr
      refine ⟨hapart', hcount', ?_⟩
      rw [accepted_cons, ← haddrs]
      cases ok with
      | true => simpa [Set.union_comm] using htrue rfl
      | false => simpa using congrArg addrs (reserveRegion_false hr)

/-- **The reserved list**: after any calls of `reserve_region` on regions that are pairwise
disjoint, in any order and touching or not, its regions are not empty, in ascending order
and with a gap between any two of them; they cover what the calls that returned true have
reserved; the list is not full; and a call that returns false has left it as it was. No call
on a region stops at the assertion, and a region with its ends exchanged does. -/
theorem reserves_sorted (h : Reserves p calls s)
    (hdisj : calls.Pairwise fun c d => Disjoint c.1.addrs d.1.addrs) :
    (∀ i, i < s.resvCount → (s.reserved i).start < (s.reserved i).stop) ∧
      (∀ i j, i < j → j < s.resvCount → (s.reserved i).stop < (s.reserved j).start) ∧
      (∀ x, (∃ i < s.resvCount, x ∈ (s.reserved i).addrs) ↔
        ∃ c ∈ calls, c.2 = true ∧ x ∈ c.1.addrs) ∧
      s.resvCount < p.maxNumResvReg ∧
      (∀ reg : Region, (reserveRegion p reg s).isSome ↔ reg.start ≤ reg.stop) ∧
      ∀ (reg : Region) (s' : Reserved), reserveRegion p reg s = some (false, s') → s' = s := by
  obtain ⟨⟨hne, hlt⟩, hcount, haddrs⟩ := h.listed hdisj
  refine ⟨hne, hlt, fun x => ?_, hcount, fun reg => ?_, fun reg s' => reserveRegion_false⟩
  · exact Set.ext_iff.mp haddrs x
  · unfold reserveRegion
    split_ifs with hle hempty <;> simp [hle]

/-- The list after the calls for two pages, with a page between them. -/
def twoPages : Reserved where
  reserved := Function.update (Function.update empty.reserved 0 ⟨0x1000, 0x2000⟩) 1 ⟨0x3000, 0x4000⟩
  resvCount := 2

/-- The calls for two pages and for the one between them. -/
def bridgeCalls : List (Region × Bool) :=
  [(⟨0x2000, 0x3000⟩, true), (⟨0x3000, 0x4000⟩, true), (⟨0x1000, 0x2000⟩, true)]

lemma bridge_reserves : Reserves ⟨1, 0, 0⟩ bridgeCalls
    (twoPages.reserveFrom ⟨1, 0, 0⟩ ⟨0x2000, 0x3000⟩ 0).2 := by
  have hone : Reserves ⟨1, 0, 0⟩ [(⟨0x1000, 0x2000⟩, true)]
      ⟨Function.update empty.reserved 0 ⟨0x1000, 0x2000⟩, 1⟩ := by
    refine .cons .nil ?_
    simp [reserveRegion, reserveFrom, empty, Platform.maxNumResvReg,
      Platform.maxNumFreememReg, Platform.numReservedRegions]
  have htwo : Reserves ⟨1, 0, 0⟩ [(⟨0x3000, 0x4000⟩, true), (⟨0x1000, 0x2000⟩, true)]
      twoPages := by
    refine .cons hone ?_
    simp [reserveRegion, reserveFrom, twoPages, Platform.maxNumResvReg,
      Platform.maxNumFreememReg, Platform.numReservedRegions]
  refine .cons htwo ?_
  simp [reserveRegion, reserveFrom, twoPages]

/-- The three pages make up one region. -/
theorem reserves_sorted_bridge : ∃ s, Reserves ⟨1, 0, 0⟩ bridgeCalls s ∧ s.resvCount = 1 ∧
    ∀ x, (∃ i < s.resvCount, x ∈ (s.reserved i).addrs) ↔
      ∃ c ∈ bridgeCalls, c.2 = true ∧ x ∈ c.1.addrs := by
  refine ⟨_, bridge_reserves, ?_, (reserves_sorted bridge_reserves ?_).2.2.1⟩
  · simp [reserveFrom, twoPages, mergeRegions, mergeFrom]
  · simp [bridgeCalls, Region.addrs]

end Kernel
