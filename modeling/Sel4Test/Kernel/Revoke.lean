import Sel4Test.Kernel.Derivation

/-!
Deletion and revocation, `cteDelete` and `cteRevoke` of `object/cnode.c` with
`finaliseCap` of `object/objecttype.c`.

The recursion of `finaliseSlot` has `fuel`; without fuel, and where the source halts in
`fail`, there is no result. What an assertion says is not checked. Two lists record what the
source does not: the tables whose slots were deleted, and the slots that were emptied because
a thread or an interrupt handler went away.

* `Doomed`: what may hang on the descendants of a cap, CNode by CNode.
* `finaliseSlot_spec`, `cteDelete_spec`: a deletion keeps the list in order, stays within
  what is doomed, and leaves every other slot as it is, or empty, or with a zombie.
* `cteRevoke_spec`: what is left after a revocation.
-/

namespace Kernel

open Chains

/-! ### The state -/

/-- `exception_t`, as far as a deletion returns it. -/
inductive DeletionStatus
  | exceptionNone
  | exceptionPreempted
  deriving DecidableEq, Repr

/-- The slots, the threads that are blocked on a reply, the state of `preemptionPoint`, with
the answers of the interrupt controller to its polls, and the two records. -/
structure DeletionState where
  cspace : CSpace
  blockedOnReply : ℕ → Bool
  intStateIRQNode : ℕ
  ksWorkUnitsCompleted : ℕ
  isIRQPending : ℕ → Bool
  polls : ℕ
  reduced : List ℕ
  released : List (Cap × CtePtr)

namespace DeletionState

variable (s : DeletionState)

/-- `slot->cap = cap`. -/
def setCap (slot : CtePtr) (cap : Cap) : DeletionState :=
  { s with cspace := s.cspace.setCap slot cap }

/-- `cteDeleteOne`, for a slot that goes with a cap. -/
def deleteOne (cap : Cap) (slot : CtePtr) : Option DeletionState :=
  (cteDeleteOne slot s.cspace).map fun cspace =>
    { s with cspace, released := (cap, slot) :: s.released }

end DeletionState

/-- `CONFIG_MAX_NUM_WORK_UNITS_PER_PREEMPTION`. -/
def maxNumWorkUnitsPerPreemption : ℕ := 100

/-- `preemptionPoint`. -/
def preemptionPoint (s : DeletionState) : DeletionStatus × DeletionState :=
  let completed := s.ksWorkUnitsCompleted + 1
  if maxNumWorkUnitsPerPreemption ≤ completed then
    let s' := { s with ksWorkUnitsCompleted := 0, polls := s.polls + 1 }
    if s.isIRQPending s.polls then (.exceptionPreempted, s') else (.exceptionNone, s')
  else (.exceptionNone, { s with ksWorkUnitsCompleted := completed })

/-! ### Deletion -/

/-- `suspend` with `cancelIPC`: the reply cap of a thread that waits for a reply. -/
def suspendForDelete (tcb : ℕ) (s : DeletionState) : Option DeletionState :=
  if s.blockedOnReply tcb then
    let s' := { s with blockedOnReply := Function.update s.blockedOnReply tcb false }
    match (s.cspace ⟨tcb, tcbReply⟩).cteMDBNode.mdbNext with
    | none => some s'
    | some callerCap => s'.deleteOne (.thread tcb) callerCap
  else some s

/-- `deletingIRQHandler`. -/
def deletingIRQHandler (irq : ℕ) (s : DeletionState) : Option DeletionState :=
  s.deleteOne (.irqHandler irq) ⟨s.intStateIRQNode, irq⟩

/-- What `finaliseCap` does to other slots before it returns. -/
def finaliseEffects (cap : Cap) (final : Bool) (s : DeletionState) : Option DeletionState :=
  match cap with
  | .thread tcb => if final then suspendForDelete tcb s else some s
  | .irqHandler irq => if final then deletingIRQHandler irq s else some s
  | _ => some s

/-- `capCyclicZombie`. -/
def capCyclicZombie (cap : Cap) (slot : CtePtr) : Bool :=
  match cap with
  | .zombie _ _ ptr => slot = ⟨ptr, 0⟩
  | _ => false

/-- `finaliseSlot_ret_t`. -/
structure FinaliseSlotRet where
  status : DeletionStatus
  success : Bool
  cleanupInfo : Cap

/-- `cteDelete`, which calls `finaliseSlot`. -/
def cteDeleteWith
    (finaliseSlot : CtePtr → Bool → DeletionState → Option (FinaliseSlotRet × DeletionState))
    (slot : CtePtr) (exposed : Bool) (s : DeletionState) :
    Option (DeletionStatus × DeletionState) :=
  match finaliseSlot slot exposed s with
  | none => none
  | some (fsRet, s) =>
      if fsRet.status ≠ .exceptionNone then some (fsRet.status, s)
      else if exposed ∨ fsRet.success then
        some (.exceptionNone, { s with cspace := emptySlot slot s.cspace })
      else some (.exceptionNone, s)

/-- `reduceZombie`, which calls `cteDelete` on a slot that is not exposed. -/
def reduceZombieWith (cteDelete : CtePtr → DeletionState → Option (DeletionStatus × DeletionState))
    (slot : CtePtr) (immediate : Bool) (s : DeletionState) :
    Option (DeletionStatus × DeletionState) :=
  match (s.cspace slot).cap with
  | .zombie type n ptr =>
      let s := { s with reduced := ptr :: s.reduced }
      if n = 0 then none
      else if immediate then
        match cteDelete ⟨ptr, n - 1⟩ s with
        | none => none
        | some (status, s) =>
            if status ≠ .exceptionNone then some (status, s)
            else
              match (s.cspace slot).cap with
              | .null => some (.exceptionNone, s)
              | .zombie type2 n2 ptr2 =>
                  if ptr = ptr2 ∧ n2 = n ∧ type2 = type then
                    some (.exceptionNone, s.setCap slot (.zombie type2 (n - 1) ptr2))
                  else some (.exceptionNone, s)
              | _ => none
      else some (.exceptionNone, { s with cspace := capSwapForDelete ⟨ptr, 0⟩ slot s.cspace })
  | _ => none

/-- `finaliseSlot`, each round of the loop with less fuel. -/
def finaliseSlot :
    ℕ → CtePtr → Bool → DeletionState → Option (FinaliseSlotRet × DeletionState)
  | 0, _, _, _ => none
  | fuel + 1, slot, immediate, s =>
      let cap := (s.cspace slot).cap
      if cap = .null then some (⟨.exceptionNone, true, .null⟩, s)
      else
        let final := isFinalCapability slot s.cspace
        match finaliseCap cap final false, finaliseEffects cap final s with
        | some (remainder, cleanupInfo), some s =>
            match capRemovable remainder slot with
            | none => none
            | some true => some (⟨.exceptionNone, true, cleanupInfo⟩, s)
            | some false =>
                let s := s.setCap slot remainder
                if !immediate && capCyclicZombie remainder slot then
                  some (⟨.exceptionNone, false, cleanupInfo⟩, s)
                else
                  match reduceZombieWith (fun endSlot => cteDeleteWith (finaliseSlot fuel) endSlot false)
                      slot immediate s with
                  | none => none
                  | some (status, s) =>
                      if status ≠ .exceptionNone then some (⟨status, false, .null⟩, s)
                      else
                        match preemptionPoint s with
                        | (.exceptionPreempted, s) => some (⟨.exceptionPreempted, false, .null⟩, s)
                        | (.exceptionNone, s) => finaliseSlot fuel slot immediate s
        | _, _ => none

/-- `cteDelete`. -/
def cteDelete (fuel : ℕ) : CtePtr → Bool → DeletionState → Option (DeletionStatus × DeletionState) :=
  cteDeleteWith (finaliseSlot fuel)

/-- `cteRevoke`, each round of the loop with less fuel. -/
def cteRevoke : ℕ → CtePtr → DeletionState → Option (DeletionStatus × DeletionState)
  | 0, _, _ => none
  | fuel + 1, slot, s =>
      match (s.cspace slot).cteMDBNode.mdbNext with
      | none => some (.exceptionNone, s)
      | some nextPtr =>
          if isMDBParentOf (s.cspace slot) (s.cspace nextPtr) then
            match cteDelete fuel nextPtr true s with
            | none => none
            | some (status, s) =>
                if status ≠ .exceptionNone then some (status, s)
                else
                  match preemptionPoint s with
                  | (.exceptionPreempted, s) => some (.exceptionPreempted, s)
                  | (.exceptionNone, s) => cteRevoke fuel slot s
          else some (.exceptionNone, s)

/-! ### What is doomed -/

section Doomed

variable (s₀ : CSpace) (chains₀ : List (List CtePtr)) (root : CtePtr)

/-- A slot whose cap may go with the descendants of the root: such a descendant, or a slot of
a CNode or TCB for which a doomed slot holds a cap. -/
inductive Doomed : CtePtr → Prop
  | descendant {x : CtePtr} (h : Descendant s₀ chains₀ root x) : Doomed x
  | inside {x : CtePtr} {t : ℕ} (h : Doomed x) (ht : (s₀ x).cap.table? = some t) (i : ℕ) :
      Doomed ⟨t, i⟩

/-- A slot that the deletion has come to. -/
def Reached (reduced : List ℕ) (x : CtePtr) : Prop :=
  Descendant s₀ chains₀ root x ∨ x.table ∈ reduced

/-- Why a slot may be released: the thread or the interrupt handler of a doomed cap. -/
def Releases (irqNode : ℕ) (cap : Cap) (x : CtePtr) : Prop :=
  (∃ y, Doomed s₀ chains₀ root y ∧ (s₀ y).cap = cap) ∧
    ((∃ tcb, cap = .thread tcb) ∨ ∃ irq, cap = .irqHandler irq ∧ x = ⟨irqNode, irq⟩)

/-- Where a deletion is, `origin` being where what is in a slot was at the start. -/
structure DeletionInv (s : DeletionState) (origin : CtePtr → CtePtr) : Prop where
  order : ∃ chains, WellFormed s.cspace chains ∧ Evolved s₀ chains₀ origin s.cspace chains
  doomed : ∀ x, Doomed s₀ chains₀ root x → Doomed s₀ chains₀ root (origin x)
  kept : ∀ x, ¬ Reached s₀ chains₀ root s.reduced x → origin x = x ∧
    ((s.cspace x).cap = (s₀ x).cap ∨ (s.cspace x).cap = .null ∧ ∃ cap, (cap, x) ∈ s.released)
  reduced : ∀ t ∈ s.reduced, ∃ y, Doomed s₀ chains₀ root y ∧ (s₀ y).cap.table? = some t
  released : ∀ cap x, (cap, x) ∈ s.released → Releases s₀ chains₀ root s.intStateIRQNode cap x

end Doomed

/-- Nothing is in the slot, or what is left of a cap. -/
def Gone (cap : Cap) : Prop := cap = .null ∨ ∃ type n ptr, cap = .zombie type n ptr

section Invariant

variable {s₀ : CSpace} {chains₀ : List (List CtePtr)} {root : CtePtr}
  {s s' s'' : DeletionState} {origin origin' : CtePtr → CtePtr} {x y : CtePtr}

lemma DeletionInv.reached_doomed (h : DeletionInv s₀ chains₀ root s origin)
    (hx : Reached s₀ chains₀ root s.reduced x) : Doomed s₀ chains₀ root x := by
  rcases hx with hx | hx
  · exact .descendant hx
  · obtain ⟨y, hy, ht⟩ := h.reduced _ hx
    exact .inside hy ht x.index

lemma Reached.mono {reduced reduced' : List ℕ} (hx : Reached s₀ chains₀ root reduced x)
    (h : reduced ⊆ reduced') : Reached s₀ chains₀ root reduced' x :=
  hx.imp_right fun hx => h hx

/-- Only the slots and the two records count. -/
lemma DeletionInv.congr (h : DeletionInv s₀ chains₀ root s origin) (hcspace : s'.cspace = s.cspace)
    (hreduced : s'.reduced = s.reduced) (hreleased : s'.released = s.released)
    (hnode : s'.intStateIRQNode = s.intStateIRQNode) :
    DeletionInv s₀ chains₀ root s' origin := by
  refine ⟨?_, h.doomed, ?_, ?_, ?_⟩
  · rw [hcspace]
    exact h.order
  · rw [hcspace, hreduced, hreleased]
    exact h.kept
  · rw [hreduced]
    exact h.reduced
  · rw [hreleased, hnode]
    exact h.released

/-- A slot that has been reached is emptied. -/
lemma DeletionInv.emptySlot (h : DeletionInv s₀ chains₀ root s origin)
    (hx : Reached s₀ chains₀ root s.reduced x) :
    DeletionInv s₀ chains₀ root { s with cspace := emptySlot x s.cspace } origin := by
  obtain ⟨chains, hwf, hev⟩ := h.order
  refine ⟨⟨_, hwf.emptySlot, hev.emptySlot hwf.toRep⟩, h.doomed, fun y hy => ?_, h.reduced,
    h.released⟩
  have hne : y ≠ x := fun heq => hy (heq ▸ hx)
  change _ ∧ ((Kernel.emptySlot x s.cspace y).cap = _ ∨ (Kernel.emptySlot x s.cspace y).cap = _ ∧ _)
  rw [cap_emptySlot, if_neg hne]
  exact h.kept y hy

/-- A slot is released. -/
lemma DeletionInv.deleteOne {cap : Cap} (h : DeletionInv s₀ chains₀ root s origin)
    (hcap : Releases s₀ chains₀ root s.intStateIRQNode cap x) (hrun : s.deleteOne cap x = some s') :
    DeletionInv s₀ chains₀ root s' origin ∧ s'.reduced = s.reduced ∧
      ∀ y, (s'.cspace y).cap = if y = x then .null else (s.cspace y).cap := by
  obtain ⟨cspace, hdelete, rfl⟩ := Option.map_eq_some_iff.mp hrun
  obtain rfl := cteDeleteOne_eq hdelete
  obtain ⟨chains, hwf, hev⟩ := h.order
  refine ⟨⟨⟨_, hwf.emptySlot, hev.emptySlot hwf.toRep⟩, h.doomed, fun y hy => ?_, h.reduced, ?_⟩,
    rfl, fun y => cap_emptySlot⟩
  · obtain ⟨horigin, hkept⟩ := h.kept y hy
    refine ⟨horigin, ?_⟩
    change (Kernel.emptySlot x s.cspace y).cap = _ ∨ (Kernel.emptySlot x s.cspace y).cap = _ ∧ _
    rw [cap_emptySlot]
    split_ifs with hyx
    · exact .inr ⟨rfl, cap, hyx ▸ List.mem_cons_self⟩
    · exact hkept.imp_right fun ⟨hnull, cap', hmem⟩ => ⟨hnull, cap', List.mem_cons_of_mem _ hmem⟩
  · intro cap' y hmem
    rcases List.mem_cons.mp hmem with heq | hmem
    · cases heq
      exact hcap
    · exact h.released cap' y hmem

/-- A slot that has been reached gets a zombie. -/
lemma DeletionInv.toZombie {type : ZombieType} {n ptr : ℕ}
    (h : DeletionInv s₀ chains₀ root s origin) (hx : Reached s₀ chains₀ root s.reduced x)
    (htable : (s.cspace x).cap.table? = some ptr)
    (hsize : (Cap.zombie type n ptr).capSizeBits = (s.cspace x).cap.capSizeBits)
    (hlast : ∀ y, y ≠ x → ¬ Cap.sameObjectAs (s.cspace y).cap (s.cspace x).cap) :
    DeletionInv s₀ chains₀ root (s.setCap x (.zombie type n ptr)) origin := by
  obtain ⟨chains, hwf, hev⟩ := h.order
  refine ⟨⟨chains, hwf.toZombie htable hsize hlast, hev.toZombie htable hsize⟩, h.doomed,
    fun y hy => ?_, h.reduced, h.released⟩
  have hne : y ≠ x := fun heq => hy (heq ▸ hx)
  change _ ∧ ((s.cspace.setCap x _ y).cap = _ ∨ (s.cspace.setCap x _ y).cap = _ ∧ _)
  rw [CSpace.cap_setCap, if_neg hne]
  exact h.kept y hy

/-- The table of a zombie in a slot that has been reached is doomed, and is recorded. -/
lemma DeletionInv.reduce {type : ZombieType} {n ptr : ℕ}
    (h : DeletionInv s₀ chains₀ root s origin) (hx : Reached s₀ chains₀ root s.reduced x)
    (hzombie : (s.cspace x).cap = .zombie type n ptr) :
    DeletionInv s₀ chains₀ root { s with reduced := ptr :: s.reduced } origin := by
  obtain ⟨chains, hwf, hev⟩ := h.order
  refine ⟨⟨chains, hwf, hev⟩, h.doomed, fun y hy => ?_, fun t ht => ?_, h.released⟩
  · exact h.kept y fun hreached => hy (hreached.mono (List.subset_cons_self ptr s.reduced))
  · rcases List.mem_cons.mp ht with rfl | ht
    · refine ⟨origin x, h.doomed x (h.reached_doomed hx), ?_⟩
      have hresidue := hev.residue x (by rw [hzombie]; exact nofun)
      rw [hzombie] at hresidue
      generalize (s₀ (origin x)).cap = c at hresidue
      cases hresidue with
      | same => rfl
      | zombie htable => exact htable
    · exact h.reduced t ht

/-- Two slots that have been reached change places. -/
lemma DeletionInv.capSwapForDelete (h : DeletionInv s₀ chains₀ root s origin)
    (hx : Reached s₀ chains₀ root s.reduced x) (hy : Reached s₀ chains₀ root s.reduced y) :
    DeletionInv s₀ chains₀ root { s with cspace := capSwapForDelete x y s.cspace }
      (origin ∘ Equiv.swap x y) := by
  obtain ⟨chains, hwf, hev⟩ := h.order
  refine ⟨⟨_, hwf.capSwapForDelete, hev.capSwapForDelete hwf.toRep⟩, fun z hz => ?_, fun z hz => ?_,
    h.reduced, h.released⟩
  · refine h.doomed _ ?_
    rw [Equiv.swap_apply_def]
    split_ifs
    · exact h.reached_doomed hy
    · exact h.reached_doomed hx
    · exact hz
  · have hzx : z ≠ x := fun heq => hz (heq ▸ hx)
    have hzy : z ≠ y := fun heq => hz (heq ▸ hy)
    have hcap := cap_capSwapForDelete (s := s.cspace) (a := x) (b := y) z
    rw [Equiv.swap_apply_of_ne_of_ne hzx hzy] at hcap
    change _ ∧ ((Kernel.capSwapForDelete x y s.cspace z).cap = _ ∨
      (Kernel.capSwapForDelete x y s.cspace z).cap = _ ∧ _)
    rw [hcap, Function.comp_apply, Equiv.swap_apply_of_ne_of_ne hzx hzy]
    exact h.kept z hz

end Invariant

/-! ### Deletions -/

section Spec

variable (s₀ : CSpace) (chains₀ : List (List CtePtr)) (root : CtePtr)

/-- The invariant holds afterwards, and what was in a slot other than `x` is still there, or
gone. -/
def Advances (x : CtePtr) (s : DeletionState) (origin : CtePtr → CtePtr) (s' : DeletionState) :
    Prop :=
  ∃ origin', DeletionInv s₀ chains₀ root s' origin' ∧ s.reduced ⊆ s'.reduced ∧
    ∀ y, y ≠ x → origin' y = origin y ∧ (s'.cspace y).cap = (s.cspace y).cap ∨
      Gone (s'.cspace y).cap

variable {s₀ chains₀ root} {s s' s'' : DeletionState} {origin : CtePtr → CtePtr} {x : CtePtr}

lemma Advances.trans (h : Advances s₀ chains₀ root x s origin s')
    (h' : ∀ origin', DeletionInv s₀ chains₀ root s' origin' →
      Advances s₀ chains₀ root x s' origin' s'') : Advances s₀ chains₀ root x s origin s'' := by
  obtain ⟨origin', hinv, hreduced, hother⟩ := h
  obtain ⟨origin'', hinv', hreduced', hother'⟩ := h' origin' hinv
  refine ⟨origin'', hinv', List.Subset.trans hreduced hreduced', fun y hy => ?_⟩
  rcases hother' y hy with ⟨horigin, hcap⟩ | hgone
  · rw [horigin, hcap]
    exact hother y hy
  · exact .inr hgone

/-- A preemption point touches neither slots nor records. -/
lemma preemptionPoint_frame {status : DeletionStatus} (hrun : preemptionPoint s = (status, s')) :
    s'.cspace = s.cspace ∧ s'.reduced = s.reduced ∧ s'.released = s.released ∧
      s'.intStateIRQNode = s.intStateIRQNode := by
  rw [preemptionPoint] at hrun
  dsimp only at hrun
  split_ifs at hrun
  all_goals
    obtain ⟨-, rfl⟩ := Prod.mk.inj hrun
    exact ⟨rfl, rfl, rfl, rfl⟩

lemma preemptionPoint_spec {status : DeletionStatus} (h : DeletionInv s₀ chains₀ root s origin)
    (hrun : preemptionPoint s = (status, s')) : Advances s₀ chains₀ root x s origin s' := by
  obtain ⟨hcspace, hreduced, hreleased, hnode⟩ := preemptionPoint_frame hrun
  refine ⟨origin, h.congr hcspace hreduced hreleased hnode, ?_, fun y _ => ?_⟩
  · rw [hreduced]
    exact List.Subset.refl _
  · rw [hcspace]
    exact .inl ⟨rfl, rfl⟩

/-- `cteDeleteOne` does not return for the caps of CNodes and threads, nor for zombies. -/
lemma table?_of_cteDeleteOne {s s' : CSpace} {y : CtePtr} (h : cteDeleteOne y s = some s') :
    (s y).cap.table? = none := by
  rw [cteDeleteOne] at h
  cases hcap : (s y).cap with
  | cnode | thread | zombie =>
      simp [hcap, finaliseCap, Cap.isArchCap] at h
  | _ => rfl

/-- A cap in a slot that has been reached was in a doomed slot at the start. -/
lemma DeletionInv.exists_doomed (h : DeletionInv s₀ chains₀ root s origin)
    (hx : Reached s₀ chains₀ root s.reduced x) (hnull : (s.cspace x).cap ≠ .null)
    (hzombie : ∀ type n ptr, (s.cspace x).cap ≠ .zombie type n ptr) :
    ∃ y, Doomed s₀ chains₀ root y ∧ (s₀ y).cap = (s.cspace x).cap := by
  obtain ⟨chains, -, hev⟩ := h.order
  refine ⟨origin x, h.doomed x (h.reached_doomed hx), ?_⟩
  have hresidue := hev.residue x hnull
  generalize (s.cspace x).cap = c at hresidue hzombie
  cases hresidue with
  | same => rfl
  | zombie => exact absurd rfl (hzombie _ _ _)

/-- What `finaliseCap` does to the slots: at most one is emptied, and not that of a CNode, a
thread or a zombie. -/
lemma finaliseEffects_spec {final : Bool} (h : DeletionInv s₀ chains₀ root s origin)
    (hx : Reached s₀ chains₀ root s.reduced x)
    (hrun : finaliseEffects (s.cspace x).cap final s = some s') :
    DeletionInv s₀ chains₀ root s' origin ∧ s'.reduced = s.reduced ∧
      ∀ y, (s'.cspace y).cap = (s.cspace y).cap ∨
        (s'.cspace y).cap = .null ∧ (s.cspace y).cap.table? = none := by
  have hnone : ∀ {s₁ : DeletionState} {cap : Cap} {y : CtePtr},
      DeletionInv s₀ chains₀ root s₁ origin → s₁.reduced = s.reduced → s₁.cspace = s.cspace →
      Releases s₀ chains₀ root s₁.intStateIRQNode cap y → s₁.deleteOne cap y = some s' →
      DeletionInv s₀ chains₀ root s' origin ∧ s'.reduced = s.reduced ∧
        ∀ y, (s'.cspace y).cap = (s.cspace y).cap ∨
          (s'.cspace y).cap = .null ∧ (s.cspace y).cap.table? = none := by
    intro s₁ cap y hinv hreduced hcspace hreleases hdelete
    obtain ⟨hinv', hreduced', hcap⟩ := hinv.deleteOne hreleases hdelete
    refine ⟨hinv', hreduced'.trans hreduced, fun z => ?_⟩
    rw [hcap, hcspace]
    split_ifs with hzy
    · obtain ⟨cspace, hone, -⟩ := Option.map_eq_some_iff.mp hdelete
      rw [hcspace] at hone
      exact .inr ⟨rfl, hzy ▸ table?_of_cteDeleteOne hone⟩
    · exact .inl rfl
  have hkeep : some s = some s' → DeletionInv s₀ chains₀ root s' origin ∧ s'.reduced = s.reduced ∧
      ∀ y, (s'.cspace y).cap = (s.cspace y).cap ∨
        (s'.cspace y).cap = .null ∧ (s.cspace y).cap.table? = none := by
    intro heq
    obtain rfl := Option.some.inj heq
    exact ⟨h, rfl, fun y => .inl rfl⟩
  -- only a thread and an interrupt handler release another slot
  cases hcap : (s.cspace x).cap with
  | thread tcb =>
      have hdoomed := h.exists_doomed hx (by rw [hcap]; exact nofun) (by rw [hcap]; exact nofun)
      rw [hcap] at hrun hdoomed
      rw [finaliseEffects, suspendForDelete] at hrun
      split_ifs at hrun with hfinal hblocked
      · have hinv : DeletionInv s₀ chains₀ root { s with
            blockedOnReply := Function.update s.blockedOnReply tcb false } origin :=
          h.congr rfl rfl rfl rfl
        split at hrun
        · obtain rfl := Option.some.inj hrun
          exact ⟨hinv, rfl, fun y => .inl rfl⟩
        · exact hnone hinv rfl rfl ⟨hdoomed, .inl ⟨tcb, rfl⟩⟩ hrun
      · exact hkeep hrun
      · exact hkeep hrun
  | irqHandler irq =>
      have hdoomed := h.exists_doomed hx (by rw [hcap]; exact nofun) (by rw [hcap]; exact nofun)
      rw [hcap] at hrun hdoomed
      rw [finaliseEffects, deletingIRQHandler] at hrun
      split_ifs at hrun with hfinal
      · exact hnone h rfl rfl ⟨hdoomed, .inr ⟨irq, rfl, rfl⟩⟩ hrun
      · exact hkeep hrun
  | _ =>
      rw [hcap] at hrun
      exact hkeep hrun

/-- A cap that is not removed at once is that of a CNode or a thread and final, or a zombie,
and what remains is a zombie for the same slots. -/
lemma finaliseCap_spec {cap remainder cleanupInfo : Cap} {final : Bool} {slot : CtePtr}
    (h : finaliseCap cap final false = some (remainder, cleanupInfo))
    (hremovable : capRemovable remainder slot = some false) :
    ∃ type n ptr, remainder = .zombie type n ptr ∧ cap.table? = some ptr ∧
      remainder.capSizeBits = cap.capSizeBits ∧ (final = true ∨ cap.object? = none) := by
  have hnull : (Cap.null, Cap.null) = (remainder, cleanupInfo) → False := by
    intro heq
    obtain ⟨rfl, -⟩ := Prod.mk.inj heq
    cases hremovable
  cases cap with
  | cnode radix guardSize guard ptr =>
      cases final with
      | true =>
          obtain ⟨rfl, -⟩ := Prod.mk.inj (Option.some.inj h)
          exact ⟨_, _, _, rfl, rfl, rfl, .inl rfl⟩
      | false => exact (hnull (Option.some.inj h)).elim
  | thread tcb =>
      cases final with
      | true =>
          obtain ⟨rfl, -⟩ := Prod.mk.inj (Option.some.inj h)
          exact ⟨_, _, _, rfl, rfl, rfl, .inl rfl⟩
      | false => exact (hnull (Option.some.inj h)).elim
  | zombie type n ptr =>
      obtain ⟨rfl, -⟩ := Prod.mk.inj (Option.some.inj h)
      exact ⟨_, _, _, rfl, rfl, rfl, .inr rfl⟩
  | irqHandler irq =>
      cases final with
      | true =>
          obtain ⟨rfl, -⟩ := Prod.mk.inj (Option.some.inj h)
          cases hremovable
      | false => exact (hnull (Option.some.inj h)).elim
  | _ => exact (hnull (Option.some.inj h)).elim

/-- The last cap for its object. -/
lemma WellFormed.last {s : CSpace} {chains : List (List CtePtr)} (h : WellFormed s chains)
    (hfinal : isFinalCapability x s = true ∨ (s x).cap.object? = none) (y : CtePtr) (hy : y ≠ x) :
    ¬ Cap.sameObjectAs (s y).cap (s x).cap := by
  intro hsame
  obtain ⟨o, hyo, hxo⟩ := sameObjectAs_iff.mp hsame
  rcases hfinal with hfinal | hnone
  · exact (h.isFinalCapability_iff hxo).mp hfinal y hy hyo
  · rw [hnone] at hxo
    cases hxo

/-- One round of `reduceZombie`, if the deletion that it calls does what it should. -/
lemma reduceZombieWith_spec
    {delete : CtePtr → DeletionState → Option (DeletionStatus × DeletionState)} {immediate : Bool}
    (hdelete : ∀ y s origin s', DeletionInv s₀ chains₀ root s origin →
      Reached s₀ chains₀ root s.reduced y → delete y s = some (.exceptionNone, s') →
      Advances s₀ chains₀ root y s origin s' ∧ Gone (s'.cspace y).cap)
    (h : DeletionInv s₀ chains₀ root s origin) (hx : Reached s₀ chains₀ root s.reduced x)
    (hrun : reduceZombieWith delete x immediate s = some (.exceptionNone, s')) :
    Advances s₀ chains₀ root x s origin s' := by
  rw [reduceZombieWith] at hrun
  cases hzombie : (s.cspace x).cap with
  | zombie type n ptr =>
      simp only [hzombie] at hrun
      have hinv := h.reduce hx hzombie
      have hsub : s.reduced ⊆ ptr :: s.reduced := List.subset_cons_self ptr s.reduced
      have hslot : ∀ i, Reached s₀ chains₀ root (ptr :: s.reduced) ⟨ptr, i⟩ :=
        fun i => .inr List.mem_cons_self
      split_ifs at hrun with hn himmediate
      · -- the last slot of the table is deleted
        split at hrun
        · cases hrun
        · rename_i status s₁ heq
          split_ifs at hrun with hstatus
          · obtain ⟨rfl, -⟩ := Prod.mk.inj (Option.some.inj hrun)
            exact absurd rfl hstatus
          · obtain rfl := not_not.mp hstatus
            obtain ⟨⟨origin₁, hinv₁, hreduced₁, hother₁⟩, hgone⟩ :=
              hdelete _ _ origin s₁ hinv (hslot _) heq
            have hx₁ := (hx.mono hsub).mono hreduced₁
            have hadvances : Advances s₀ chains₀ root x s origin s₁ := by
              refine ⟨origin₁, hinv₁, List.Subset.trans hsub hreduced₁, fun y _ => ?_⟩
              by_cases hy : y = ⟨ptr, n - 1⟩
              · rw [hy]
                exact .inr hgone
              · exact hother₁ y hy
            split at hrun
            · obtain ⟨-, rfl⟩ := Prod.mk.inj (Option.some.inj hrun)
              exact hadvances
            · rename_i type₂ n₂ ptr₂ hcap₂
              split_ifs at hrun
              · obtain ⟨-, rfl⟩ := Prod.mk.inj (Option.some.inj hrun)
                refine hadvances.trans fun origin' hinv' => ⟨origin', ?_, List.Subset.refl _, ?_⟩
                · refine hinv'.toZombie hx₁ (by rw [hcap₂]; rfl)
                    (by rw [hcap₂]; cases type₂ <;> rfl) fun y hy hsame => ?_
                  obtain ⟨o, -, ho⟩ := sameObjectAs_iff.mp hsame
                  rw [hcap₂] at ho
                  cases ho
                · intro y hy
                  refine .inl ⟨rfl, ?_⟩
                  rw [DeletionState.setCap, CSpace.cap_setCap, if_neg hy]
              · obtain ⟨-, rfl⟩ := Prod.mk.inj (Option.some.inj hrun)
                exact hadvances
            · cases hrun
      · -- the zombie and what is in the first slot of its table change places
        obtain ⟨-, rfl⟩ := Prod.mk.inj (Option.some.inj hrun)
        refine ⟨_, hinv.capSwapForDelete (hslot 0) (hx.mono hsub), hsub, fun y hy => ?_⟩
        have hcap := cap_capSwapForDelete (s := s.cspace) (a := ⟨ptr, 0⟩) (b := x)
          (Equiv.swap ⟨ptr, 0⟩ x y)
        rw [Equiv.swap_apply_self] at hcap
        by_cases hfirst : y = ⟨ptr, 0⟩
        · rw [hfirst, Equiv.swap_apply_left] at hcap
          rw [hfirst]
          exact .inr (.inr ⟨type, n, ptr, hcap.trans hzombie⟩)
        · rw [Equiv.swap_apply_of_ne_of_ne hfirst hy] at hcap
          refine .inl ⟨?_, hcap⟩
          rw [Function.comp_apply, Equiv.swap_apply_of_ne_of_ne hfirst hy]
  | _ =>
      simp only [hzombie] at hrun
      cases hrun

/-- What `finaliseSlot` does to a slot that has been reached: if it gives up a zombie, this
is there still. -/
def FinaliseSpec (s₀ : CSpace) (chains₀ : List (List CtePtr)) (root : CtePtr)
    (finaliseSlot : CtePtr → Bool → DeletionState → Option (FinaliseSlotRet × DeletionState)) :
    Prop :=
  ∀ x immediate s origin fsRet s', DeletionInv s₀ chains₀ root s origin →
    Reached s₀ chains₀ root s.reduced x → finaliseSlot x immediate s = some (fsRet, s') →
    fsRet.status = .exceptionNone →
    Advances s₀ chains₀ root x s origin s' ∧ (fsRet.success = false → Gone (s'.cspace x).cap)

/-- A deletion that returns has emptied the slot, or left a zombie in it. -/
lemma FinaliseSpec.cteDelete
    {finaliseSlot : CtePtr → Bool → DeletionState → Option (FinaliseSlotRet × DeletionState)}
    (hfinalise : FinaliseSpec s₀ chains₀ root finaliseSlot) {exposed : Bool}
    (h : DeletionInv s₀ chains₀ root s origin) (hx : Reached s₀ chains₀ root s.reduced x)
    (hrun : cteDeleteWith finaliseSlot x exposed s = some (.exceptionNone, s')) :
    Advances s₀ chains₀ root x s origin s' ∧ Gone (s'.cspace x).cap := by
  rw [cteDeleteWith] at hrun
  split at hrun
  · cases hrun
  · rename_i fsRet s₁ heq
    by_cases hstatus : fsRet.status = .exceptionNone
    · rw [if_neg (not_not.mpr hstatus)] at hrun
      obtain ⟨hadvances, hgone⟩ := hfinalise x exposed s origin fsRet s₁ h hx heq hstatus
      split_ifs at hrun with hempty
      · obtain ⟨-, rfl⟩ := Prod.mk.inj (Option.some.inj hrun)
        refine ⟨?_, .inl ?_⟩
        · obtain ⟨origin₁, hinv₁, hreduced₁, hother₁⟩ := hadvances
          refine ⟨origin₁, hinv₁.emptySlot (hx.mono hreduced₁), hreduced₁, fun y hy => ?_⟩
          change _ ∧ (emptySlot x s₁.cspace y).cap = _ ∨ Gone (emptySlot x s₁.cspace y).cap
          rw [cap_emptySlot, if_neg hy]
          exact hother₁ y hy
        · change (emptySlot x s₁.cspace x).cap = _
          rw [cap_emptySlot, if_pos rfl]
      · obtain ⟨-, rfl⟩ := Prod.mk.inj (Option.some.inj hrun)
        exact ⟨hadvances, hgone (Bool.not_eq_true _ ▸ fun hsuccess => hempty (.inr hsuccess))⟩
    · rw [if_pos hstatus] at hrun
      obtain ⟨hstatus', -⟩ := Prod.mk.inj (Option.some.inj hrun)
      exact absurd hstatus' hstatus

/-- `finaliseCap` and the zombie that it leaves in the slot. -/
lemma DeletionInv.finalised {type : ZombieType} {n ptr : ℕ}
    (h : DeletionInv s₀ chains₀ root s origin) (hx : Reached s₀ chains₀ root s.reduced x)
    (heffects : finaliseEffects (s.cspace x).cap (isFinalCapability x s.cspace) s = some s')
    (htable : (s.cspace x).cap.table? = some ptr)
    (hsize : (Cap.zombie type n ptr).capSizeBits = (s.cspace x).cap.capSizeBits)
    (hlast : isFinalCapability x s.cspace = true ∨ (s.cspace x).cap.object? = none) :
    DeletionInv s₀ chains₀ root (s'.setCap x (.zombie type n ptr)) origin ∧
      ((s'.setCap x (.zombie type n ptr)).cspace x).cap = .zombie type n ptr ∧
      s'.reduced = s.reduced ∧
      ∀ y, y ≠ x → ((s'.setCap x (.zombie type n ptr)).cspace y).cap = (s.cspace y).cap ∨
        ((s'.setCap x (.zombie type n ptr)).cspace y).cap = .null := by
  obtain ⟨hinv, hreduced, hcap⟩ := finaliseEffects_spec h hx heffects
  obtain ⟨chains, hwf, -⟩ := h.order
  have hsame : (s'.cspace x).cap = (s.cspace x).cap := by
    rcases hcap x with hcap | ⟨-, hnone⟩
    · exact hcap
    · rw [htable] at hnone
      cases hnone
  refine ⟨?_, ?_, hreduced, fun y hy => ?_⟩
  · refine hinv.toZombie (hreduced ▸ hx) (by rw [hsame, htable]) (by rw [hsame, hsize]) ?_
    intro y hy hobject
    rw [hsame] at hobject
    rcases hcap y with hcap | ⟨hnull, -⟩
    · rw [hcap] at hobject
      exact hwf.last hlast y hy hobject
    · rw [hnull] at hobject
      cases hobject
  · rw [DeletionState.setCap, CSpace.cap_setCap, if_pos rfl]
  · rw [DeletionState.setCap, CSpace.cap_setCap, if_neg hy]
    exact (hcap y).imp_right And.left

/-- **`finaliseSlot`**, by induction on the rounds that are left. -/
lemma finaliseSlot_spec (fuel : ℕ) : FinaliseSpec s₀ chains₀ root (finaliseSlot fuel) := by
  -- on the fuel; every branch that goes on adds its own advance to that of the rest
  induction fuel with
  | zero =>
      intro x immediate s origin fsRet s' h hx hrun
      cases hrun
  | succ fuel ih =>
      intro x immediate s origin fsRet s' h hx hrun hstatus
      rw [finaliseSlot] at hrun
      dsimp only at hrun
      split_ifs at hrun with hnull
      · obtain ⟨rfl, rfl⟩ := Prod.mk.inj (Option.some.inj hrun)
        exact ⟨⟨origin, h, List.Subset.refl _, fun y _ => .inl ⟨rfl, rfl⟩⟩, nofun⟩
      · split at hrun
        · rename_i remainder cleanupInfo s₁ hfinalise heffects
          obtain ⟨hinv₁, hreduced₁, hcap₁⟩ := finaliseEffects_spec h hx heffects
          have hadvances₁ : Advances s₀ chains₀ root x s origin s₁ := by
            refine ⟨origin, hinv₁, by rw [hreduced₁]; exact List.Subset.refl _, fun y _ => ?_⟩
            rcases hcap₁ y with hcap | ⟨hnull', -⟩
            · exact .inl ⟨rfl, hcap⟩
            · exact .inr (.inl hnull')
          split at hrun
          · cases hrun
          · obtain ⟨rfl, rfl⟩ := Prod.mk.inj (Option.some.inj hrun)
            exact ⟨hadvances₁, nofun⟩
          · rename_i hremovable
            obtain ⟨type, n, ptr, rfl, htable, hsize, hlast⟩ := finaliseCap_spec hfinalise hremovable
            obtain ⟨hinv₂, hzombie₂, hreduced₂, hother₂⟩ :=
              h.finalised hx heffects htable hsize hlast
            have hx₂ : Reached s₀ chains₀ root s₁.reduced x := hreduced₂ ▸ hx
            have hadvances₂ : Advances s₀ chains₀ root x s origin (s₁.setCap x (.zombie type n ptr)) :=
              ⟨origin, hinv₂, hreduced₂ ▸ List.Subset.refl _, fun y hy =>
                (hother₂ y hy).imp (fun hcap => ⟨rfl, hcap⟩) .inl⟩
            split_ifs at hrun with hcyclic
            · obtain ⟨rfl, rfl⟩ := Prod.mk.inj (Option.some.inj hrun)
              exact ⟨hadvances₂, fun _ => .inr ⟨type, n, ptr, hzombie₂⟩⟩
            · split at hrun
              · cases hrun
              · rename_i status s₃ hreduce
                split_ifs at hrun with hstatus₃
                · obtain ⟨rfl, -⟩ := Prod.mk.inj (Option.some.inj hrun)
                  exact absurd hstatus hstatus₃
                · obtain rfl := not_not.mp hstatus₃
                  have hadvances₃ : Advances s₀ chains₀ root x s origin s₃ :=
                    hadvances₂.trans fun origin' h' =>
                      reduceZombieWith_spec (fun y s origin s' hs hy => ih.cteDelete hs hy) h' hx₂
                        hreduce
                  split at hrun
                  · obtain ⟨rfl, -⟩ := Prod.mk.inj (Option.some.inj hrun)
                    cases hstatus
                  · rename_i s₄ hpoint
                    have hadvances₄ : Advances s₀ chains₀ root x s origin s₄ :=
                      hadvances₃.trans fun origin' h' => preemptionPoint_spec h' hpoint
                    have ⟨origin₄, hinv₄, hreduced₄, _⟩ := hadvances₄
                    have hrest := fun origin' h' =>
                      ih x immediate s₄ origin' fsRet s' h' (hx.mono hreduced₄) hrun hstatus
                    exact ⟨hadvances₄.trans fun origin' h' => (hrest origin' h').1,
                      (hrest origin₄ hinv₄).2⟩
        · cases hrun

/-- A child right behind the root, in a slot that has not been reached, has been a descendant
from the start. -/
lemma DeletionInv.descendant {chains : List (List CtePtr)} {next : CtePtr}
    (h : DeletionInv s₀ chains₀ root s origin) (hwf₀ : WellFormed s₀ chains₀)
    (hwf : WellFormed s.cspace chains) (hev : Evolved s₀ chains₀ origin s.cspace chains)
    (hroot : origin root = root ∧ (s.cspace root).cap = (s₀ root).cap)
    (hmode : Cap.firstBadgedStops (s₀ root).cap = false ∨ s.reduced = [] ∧ s.released = [])
    (hadj : Adj chains root next) (hparent : isMDBParentOf (s.cspace root) (s.cspace next))
    (hnot : ¬ Reached s₀ chains₀ root s.reduced next) : Descendant s₀ chains₀ root next := by
  have hrootNull := hwf.ne_null_left hadj.before
  have hnextNull := hwf.ne_null_right hadj.before
  have hnext : origin next = next := (h.kept next hnot).1
  have hbefore := (hev.before root next hrootNull hnextNull).mp hadj.before
  have hchild := hev.child hrootNull hnextNull (by rw [hroot.1]; exact hroot.2) hparent
  rw [hroot.1, hnext] at hbefore hchild
  refine ⟨hbefore, hchild, fun b hab hbc => ?_⟩
  rcases hmode with hstops | ⟨hreduced, hreleased⟩
  · exact hwf₀.child_between hstops hab hbc hchild
  · -- only descendants are gone, and this slot is not there any more
    by_contra hb
    have hbNot : ¬ Reached s₀ chains₀ root s.reduced b := by
      rintro (hdesc | htable)
      · exact hb hdesc.child
      · rw [hreduced] at htable
        cases htable
    obtain ⟨horigin, hsame | ⟨-, cap, hmem⟩⟩ := h.kept b hbNot
    · have hbNull : (s.cspace b).cap ≠ .null := hsame ▸ hwf₀.ne_null_left hbc
      have hab' := hev.before root b hrootNull hbNull
      have hbc' := hev.before b next hbNull hnextNull
      rw [hroot.1, horigin] at hab'
      rw [hnext, horigin] at hbc'
      exact hwf.links.not_between hadj (hab'.mpr hab) (hbc'.mpr hbc)
    · rw [hreleased] at hmem
      cases hmem

/-- The children of a badged cap are badged caps, and removed at once. -/
lemma cteDelete_badged {a : Cap} {fuel : ℕ} {status : DeletionStatus}
    (hstops : a.firstBadgedStops) (hregion : Cap.sameRegionAs a (s.cspace x).cap)
    (hrun : cteDelete fuel x true s = some (status, s')) :
    s' = { s with cspace := emptySlot x s.cspace } := by
  cases fuel with
  | zero => cases hrun
  | succ fuel =>
      rw [cteDelete, cteDeleteWith, finaliseSlot] at hrun
      cases hcap : (s.cspace x).cap with
      | endpoint | notification | sgiSignal =>
          simp only [hcap] at hrun
          exact (Prod.mk.inj (Option.some.inj hrun)).2.symm
      | _ =>
          rw [hcap] at hregion
          cases a <;> first | (cases hstops; done) | cases hregion

/-- **`cteRevoke`**, by induction on the rounds that are left: as long as there is a child,
the root is where it was, and the child was one of its descendants from the start. For a
badged cap this is so because nothing but descendants have gone. -/
lemma cteRevoke_spec (fuel : ℕ) {s : DeletionState} {origin : CtePtr → CtePtr}
    (hwf₀ : WellFormed s₀ chains₀) (h : DeletionInv s₀ chains₀ root s origin)
    (hroot : origin root = root ∧ (s.cspace root).cap = (s₀ root).cap ∨ Gone (s.cspace root).cap)
    (hmode : Cap.firstBadgedStops (s₀ root).cap = false ∨ s.reduced = [] ∧ s.released = [])
    (hrun : cteRevoke fuel root s = some (.exceptionNone, s')) :
    (∃ origin', DeletionInv s₀ chains₀ root s' origin') ∧
      ∀ n, (s'.cspace.node root).mdbNext = some n →
        ¬ isMDBParentOf (s'.cspace root) (s'.cspace n) := by
  induction fuel generalizing s origin with
  | zero => cases hrun
  | succ fuel ih =>
      rw [cteRevoke, CSpace.cteMDBNode_eq] at hrun
      cases hnext : (s.cspace.node root).mdbNext with
      | none =>
          rw [hnext] at hrun
          obtain ⟨-, rfl⟩ := Prod.mk.inj (Option.some.inj hrun)
          exact ⟨⟨origin, h⟩, fun n hn => by rw [hnext] at hn; cases hn⟩
      | some next =>
          simp only [hnext] at hrun
          split_ifs at hrun with hparent
          · have ⟨chains, hwf, hev⟩ := h.order
            have hadj := (hwf.links.next_iff root next).mp hnext
            have hne : root ≠ next := hadj.ne hwf.links.nodup
            -- a root that is gone has no children
            have hstay : origin root = root ∧ (s.cspace root).cap = (s₀ root).cap := by
              refine hroot.resolve_right ?_
              rintro (hnull | ⟨type, n, ptr, hzombie⟩)
              · exact hwf.ne_null_left hadj.before hnull
              · rw [isMDBParentOf_eq, hzombie, Cap.childCap_of_zombie] at hparent
                simp at hparent
            have hreached : Reached s₀ chains₀ root s.reduced next := by
              by_contra hnot
              exact hnot (.inl (h.descendant hwf₀ hwf hev hstay hmode hadj hparent hnot))
            split at hrun
            · cases hrun
            · rename_i status s₁ hdelete
              split_ifs at hrun with hstatus
              · obtain ⟨rfl, -⟩ := Prod.mk.inj (Option.some.inj hrun)
                exact absurd rfl hstatus
              · obtain rfl := not_not.mp hstatus
                obtain ⟨hadvances, -⟩ := (finaliseSlot_spec fuel).cteDelete h hreached hdelete
                split at hrun
                · cases hrun
                · rename_i s₂ hpoint
                  obtain ⟨origin₂, hinv₂, -, hother₂⟩ := hadvances.trans fun origin' h' =>
                    preemptionPoint_spec h' hpoint
                  refine ih hinv₂ ?_ ?_ hrun
                  · rcases hother₂ root hne with ⟨horigin, hcap⟩ | hgone
                    · exact .inl ⟨horigin.trans hstay.1, hcap.trans hstay.2⟩
                    · exact .inr hgone
                  · cases hstops : Cap.firstBadgedStops (s₀ root).cap with
                    | false => exact .inl rfl
                    | true =>
                        obtain ⟨hreduced, hreleased⟩ :=
                          hmode.resolve_left fun hno => by rw [hstops] at hno; cases hno
                        have hregion : Cap.sameRegionAs (s₀ root).cap (s.cspace next).cap := by
                          rw [← hstay.2]
                          rw [isMDBParentOf_eq, Bool.and_eq_true, Bool.and_eq_true] at hparent
                          exact Cap.sameRegionAs_of_childCap hparent.1.2
                        obtain rfl := cteDelete_badged hstops hregion hdelete
                        obtain ⟨-, hreduced₂, hreleased₂, -⟩ := preemptionPoint_frame hpoint
                        exact .inr ⟨hreduced₂.trans hreduced, hreleased₂.trans hreleased⟩
          · obtain ⟨-, rfl⟩ := Prod.mk.inj (Option.some.inj hrun)
            refine ⟨⟨origin, h⟩, fun n hn => ?_⟩
            obtain rfl := Option.some.inj (hnext.symm.trans hn)
            exact hparent

end Spec

/-! ### Revocation -/

/-- What is so after a revocation that was not preempted. -/
structure Revoked (chains : List (List CtePtr)) (slot : CtePtr) (s s' : DeletionState) : Prop where
  /-- Nothing is left that comes from the cap. -/
  complete : ∃ chains', WellFormed s'.cspace chains' ∧ ∀ x, ¬ Descendant s'.cspace chains' slot x
  next : ∀ n, (s'.cspace.node slot).mdbNext = some n →
    ¬ isMDBParentOf (s'.cspace slot) (s'.cspace n)
  /-- A cap that is gone was a descendant, or in a CNode or TCB that is gone, or released. -/
  removed : ∀ x, (s'.cspace x).cap ≠ (s.cspace x).cap →
    Descendant s.cspace chains slot x ∨ x.table ∈ s'.reduced ∨ ∃ cap, (cap, x) ∈ s'.released
  kept : (s'.cspace slot).cap = (s.cspace slot).cap ∨ slot.table ∈ s'.reduced ∨
    ∃ cap, (cap, slot) ∈ s'.released
  reduced : ∀ t ∈ s'.reduced, ∃ y, Doomed s.cspace chains slot y ∧ (s.cspace y).cap.table? = some t
  released : ∀ cap x, (cap, x) ∈ s'.released →
    Releases s.cspace chains slot s'.intStateIRQNode cap x

/-- At the start nothing has changed. -/
lemma DeletionInv.start {s : DeletionState} {chains : List (List CtePtr)} {slot : CtePtr}
    (h : WellFormed s.cspace chains) (hreduced : s.reduced = []) (hreleased : s.released = []) :
    DeletionInv s.cspace chains slot s id := by
  refine ⟨⟨chains, h, .refl⟩, fun _ hx => hx, fun _ _ => ⟨rfl, .inl rfl⟩, fun t ht => ?_,
    fun cap x hmem => ?_⟩
  · rw [hreduced] at ht
    cases ht
  · rw [hreleased] at hmem
    cases hmem

/-- **Revocation**: in a list in order, a revocation that returns without preemption leaves
no descendant, and removes nothing else but what was in CNodes and TCBs below the
descendants and what was released with a thread or an interrupt handler among them. A cap of
an object is final exactly if it is the only one. -/
theorem cteRevoke_complete {fuel : ℕ} {slot : CtePtr} {s s' : DeletionState}
    {chains : List (List CtePtr)} (h : WellFormed s.cspace chains) (hreduced : s.reduced = [])
    (hreleased : s.released = []) (hrun : cteRevoke fuel slot s = some (.exceptionNone, s')) :
    Revoked chains slot s s' ∧ ∀ x o, (s.cspace x).cap.object? = some o →
      (isFinalCapability x s.cspace = true ↔ ∀ y, y ≠ x → (s.cspace y).cap.object? ≠ some o) := by
  obtain ⟨⟨origin, hinv⟩, hnext⟩ := cteRevoke_spec fuel h (.start h hreduced hreleased)
    (.inl ⟨rfl, rfl⟩) (.inr ⟨hreduced, hreleased⟩) hrun
  have hremoved : ∀ x, (s'.cspace x).cap ≠ (s.cspace x).cap →
      Descendant s.cspace chains slot x ∨ x.table ∈ s'.reduced ∨
        ∃ cap, (cap, x) ∈ s'.released := by
    intro x hx
    by_contra hnot
    push Not at hnot
    obtain ⟨hdesc, htable, hout⟩ := hnot
    have hkept := (hinv.kept x fun hreached => hreached.elim hdesc htable).2
    rcases hkept with hsame | ⟨-, cap, hmem⟩
    · exact hx hsame
    · exact hout cap hmem
  refine ⟨⟨?_, hnext, hremoved, ?_, hinv.reduced, hinv.released⟩, fun x o hx =>
    h.isFinalCapability_iff hx⟩
  · obtain ⟨chains', hwf, -⟩ := hinv.order
    exact ⟨chains', hwf, fun x => hwf.no_descendants hnext⟩
  · by_cases hslot : (s'.cspace slot).cap = (s.cspace slot).cap
    · exact .inl hslot
    · refine .inr ((hremoved slot hslot).resolve_left fun hdesc => ?_)
      exact hdesc.1.ne h.links.nodup rfl

/-- A list of two slots. -/
def pairCSpace (p q : CtePtr) (capP capQ : Cap) : CSpace :=
  Function.update (Function.update (fun _ => ⟨.null, nullMDBNode⟩) p
    ⟨capP, ⟨some q, none, true, true⟩⟩) q ⟨capQ, ⟨none, some p, true, true⟩⟩

/-- The start of a revocation in these slots. -/
def revoking (cspace : CSpace) : DeletionState where
  cspace
  blockedOnReply _ := false
  intStateIRQNode := 0x9000
  ksWorkUnitsCompleted := 0
  isIRQPending _ := false
  polls := 0
  reduced := []
  released := []

lemma wellFormed_pairCSpace {p q : CtePtr} {capP capQ : Cap} (hne : p ≠ q) (hP : capP ≠ .null)
    (hQ : capQ ≠ .null) : WellFormed (pairCSpace p q capP capQ) [[p, q]] := by
  have hcte : ∀ x, pairCSpace p q capP capQ x =
      if x = q then ⟨capQ, ⟨none, some p, true, true⟩⟩
      else if x = p then ⟨capP, ⟨some q, none, true, true⟩⟩ else ⟨.null, nullMDBNode⟩ := by
    intro x
    rw [pairCSpace, Function.update_apply, Function.update_apply]
  have hbefore : ∀ {a b}, Before [[p, q]] a b → a = p ∧ b = q := by
    rintro a b ⟨xs, hxs, hsub⟩
    obtain rfl := List.mem_singleton.mp hxs
    simpa using hsub.eq_of_length rfl
  have hadj : ∀ {a b}, Adj [[p, q]] a b ↔ a = p ∧ b = q := by
    intro a b
    refine ⟨fun h => hbefore h.before, ?_⟩
    rintro ⟨rfl, rfl⟩
    exact ⟨_, List.mem_singleton_self _, List.infix_refl _⟩
  have hin : ∀ {a b}, Cap.sameObjectAs (pairCSpace p q capP capQ a).cap
      (pairCSpace p q capP capQ b).cap → (a = p ∨ a = q) ∧ (b = p ∨ b = q) := by
    intro a b hab
    obtain ⟨o, ha, hb⟩ := sameObjectAs_iff.mp hab
    rw [hcte] at ha hb
    constructor
    · by_contra hnot
      rw [not_or] at hnot
      rw [if_neg hnot.2, if_neg hnot.1] at ha
      cases ha
    · by_contra hnot
      rw [not_or] at hnot
      rw [if_neg hnot.2, if_neg hnot.1] at hb
      cases hb
  -- with two slots in one chain, every field is a case split on which slot is meant
  refine ⟨⟨⟨by simpa using hne, fun a b => ?_, fun a b => ?_⟩, fun x => ?_, fun x hx => ?_⟩, ?_, ?_,
    ?_⟩
  · rw [hadj, CSpace.node, hcte]
    split_ifs with haq hap
    · exact iff_of_false (by simp) fun h => hne (h.1.symm.trans haq)
    · exact ⟨fun h => ⟨hap, (Option.some.inj h).symm⟩, fun h => by rw [h.2]⟩
    · exact iff_of_false (by simp [nullMDBNode]) fun h => hap h.1
  · rw [hadj, CSpace.node, hcte]
    split_ifs with hbq hbp
    · exact ⟨fun h => ⟨(Option.some.inj h).symm, hbq⟩, fun h => by rw [h.1]⟩
    · exact iff_of_false (by simp) fun h => hbq h.2
    · exact iff_of_false (by simp [nullMDBNode]) fun h => hbq h.2
  · rw [hcte]
    split_ifs <;> simp_all
  · rw [hcte] at hx
    rw [CSpace.node, hcte]
    split_ifs at hx ⊢
    · exact absurd hx hQ
    · exact absurd hx hP
    · rfl
  · intro a b c hab hbc
    exact absurd ((hbefore hbc).1.symm.trans (hbefore hab).2) hne
  · intro a c hac hsame
    have hpq : Before [[p, q]] p q := (hadj.mpr ⟨rfl, rfl⟩).before
    obtain ⟨rfl | rfl, rfl | rfl⟩ := hin hsame
    · exact absurd rfl hac
    · exact .inl hpq
    · exact .inr hpq
    · exact absurd rfl hac
  · intro a b c hab hbc
    exact absurd ((hbefore hbc).1.symm.trans (hbefore hab).2) hne

/-- Revocation of an endpoint cap that has been minted. -/
theorem cteRevoke_complete_endpoint : ∃ s', Revoked [[⟨0x8000, 0⟩, ⟨0x8000, 1⟩]] ⟨0x8000, 0⟩
    (revoking (pairCSpace ⟨0x8000, 0⟩ ⟨0x8000, 1⟩ (.endpoint 0 true true true true 0x1000)
      (.endpoint 1 false false true false 0x1000))) s' := by
  have hsome : ((cteRevoke 4 ⟨0x8000, 0⟩ (revoking (pairCSpace ⟨0x8000, 0⟩ ⟨0x8000, 1⟩
      (.endpoint 0 true true true true 0x1000) (.endpoint 1 false false true false 0x1000)))).map
        Prod.fst) = some .exceptionNone := by
    decide +kernel
  obtain ⟨⟨status, s'⟩, hrun, rfl⟩ := Option.map_eq_some_iff.mp hsome
  have hne : (⟨0x8000, 0⟩ : CtePtr) ≠ ⟨0x8000, 1⟩ := by decide
  exact ⟨s', (cteRevoke_complete (wellFormed_pairCSpace hne Cap.noConfusion Cap.noConfusion) rfl rfl
    hrun).1⟩

/-- One more slot, whose cap has no relatives. -/
lemma WellFormed.alone {s : CSpace} {chains : List (List CtePtr)} {p : CtePtr} {cap : Cap}
    (h : WellFormed s chains) (hp : (s p).cap = .null) (hcap : cap ≠ .null)
    (halone : ∀ y, ¬ Cap.sameObjectAs cap (s y).cap) :
    WellFormed (Function.update s p ⟨cap, nullMDBNode⟩) ([p] :: chains) := by
  have hout : p ∉ chains.flatten := fun hmem => (h.mem_iff p).mp hmem hp
  have hcte : ∀ x, Function.update s p ⟨cap, nullMDBNode⟩ x =
      if x = p then ⟨cap, nullMDBNode⟩ else s x := fun x => Function.update_apply _ _ _ x
  have hadj : ∀ {a b}, Adj ([p] :: chains) a b ↔ Adj chains a b := by
    intro a b
    have hone : ¬ [a, b] <:+: [p] := fun hin => absurd hin.length_le (by simp)
    simp only [Adj, List.exists_mem_cons_iff, hone, false_or]
  have hbefore : ∀ {a b}, Before ([p] :: chains) a b ↔ Before chains a b := by
    intro a b
    have hone : ¬ [a, b].Sublist [p] := fun hin => absurd hin.length_le (by simp)
    simp only [Before, List.exists_mem_cons_iff, hone, false_or]
  have hold : ∀ {x}, x ∈ chains.flatten → Function.update s p ⟨cap, nullMDBNode⟩ x = s x := by
    intro x hx
    have hne : x ≠ p := fun heq => hout (heq ▸ hx)
    rw [hcte, if_neg hne]
  have hsame : ∀ {a b}, a ≠ b → Cap.sameObjectAs (Function.update s p ⟨cap, nullMDBNode⟩ a).cap
      (Function.update s p ⟨cap, nullMDBNode⟩ b).cap → Cap.sameObjectAs (s a).cap (s b).cap := by
    intro a b hne hab
    rw [hcte, hcte] at hab
    split_ifs at hab with hap hbp hbp
    · exact absurd (hap.trans hbp.symm) hne
    · exact absurd hab (halone b)
    · obtain ⟨o, ha, hb⟩ := sameObjectAs_iff.mp hab
      exact absurd (sameObjectAs_iff.mpr ⟨o, hb, ha⟩) (halone a)
    · exact hab
  -- the new chain has one slot, so it has no neighbours and nothing in it is before anything
  refine ⟨⟨⟨?_, fun a b => ?_, fun a b => ?_⟩, fun x => ?_, fun x hx => ?_⟩, ?_, ?_, ?_⟩
  · rw [List.flatten_cons, List.singleton_append, List.nodup_cons]
    exact ⟨hout, h.links.nodup⟩
  · rw [hadj, CSpace.node, hcte]
    split_ifs with hap
    · exact iff_of_false (by simp [nullMDBNode]) fun hadj => hout (hap ▸ hadj.mem_left)
    · exact h.links.next_iff a b
  · rw [hadj, CSpace.node, hcte]
    split_ifs with hbp
    · exact iff_of_false (by simp [nullMDBNode]) fun hadj => hout (hbp ▸ hadj.mem_right)
    · exact h.links.prev_iff a b
  · rw [List.flatten_cons, List.singleton_append, List.mem_cons, h.mem_iff, hcte]
    split_ifs with hxp
    · exact iff_of_true (.inl hxp) hcap
    · rw [or_iff_right hxp]
  · rw [hcte] at hx
    rw [CSpace.node, hcte]
    split_ifs at hx ⊢
    · exact absurd hx hcap
    · exact h.null x hx
  · intro a b c hab hbc hac
    rw [hbefore] at hab hbc
    rw [hold hab.mem_left, hold hbc.mem_right] at hac
    rw [hold hab.mem_left, hold hab.mem_right]
    exact h.region a b c hab hbc hac
  · intro a c hne hac
    rw [hbefore, hbefore]
    exact h.together a c hne (hsame hne hac)
  · intro a b c hab hbc hac
    rw [hbefore] at hab hbc
    rw [hold hab.mem_left, hold hbc.mem_right] at hac
    rw [hold hab.mem_left, hold hab.mem_right]
    exact h.between a b c hab hbc hac

/-- **What else may go**: the slot itself, if it holds an untyped cap and lies in a CNode made
from it, and the notification of an interrupt, if the interrupt control is revoked. -/
theorem cteRevoke_removes_others :
    (¬ ∀ (fuel : ℕ) (slot : CtePtr) (s s' : DeletionState) (chains : List (List CtePtr)),
      WellFormed s.cspace chains → s.reduced = [] → s.released = [] →
      cteRevoke fuel slot s = some (.exceptionNone, s') →
      (s'.cspace slot).cap = (s.cspace slot).cap) ∧
    ¬ ∀ (fuel : ℕ) (slot : CtePtr) (s s' : DeletionState) (chains : List (List CtePtr)),
      WellFormed s.cspace chains → s.reduced = [] → s.released = [] →
      cteRevoke fuel slot s = some (.exceptionNone, s') →
      ∀ x, (s'.cspace x).cap ≠ (s.cspace x).cap →
        Descendant s.cspace chains slot x ∨ x.table ∈ s'.reduced := by
  constructor
  · intro hclaim
    have hsome : ((cteRevoke 6 ⟨0x1000, 0⟩ (revoking (pairCSpace ⟨0x1000, 0⟩ ⟨0x8000, 0⟩
        (.untyped 4 false 12 0x1000) (.cnode 1 0 0 0x1000)))).map
          fun r => (r.1, (r.2.cspace ⟨0x1000, 0⟩).cap)) = some (.exceptionNone, .null) := by
      decide +kernel
    obtain ⟨⟨status, s'⟩, hrun, heq⟩ := Option.map_eq_some_iff.mp hsome
    obtain ⟨rfl, hnull⟩ := Prod.mk.inj heq
    have hne : (⟨0x1000, 0⟩ : CtePtr) ≠ ⟨0x8000, 0⟩ := by decide
    have hsame := hclaim 6 ⟨0x1000, 0⟩ _ s' _
      (wellFormed_pairCSpace hne Cap.noConfusion Cap.noConfusion) rfl rfl hrun
    rw [hnull] at hsame
    cases hsame
  · intro hclaim
    let s := Function.update (pairCSpace ⟨0x8000, 0⟩ ⟨0x8000, 1⟩ .irqControl (.irqHandler 7))
      ⟨0x9000, 7⟩ ⟨.notification 0 true true 0x2000, nullMDBNode⟩
    have hsome : ((cteRevoke 6 ⟨0x8000, 0⟩ (revoking s)).map
        fun r => (r.1, (r.2.cspace ⟨0x9000, 7⟩).cap, r.2.reduced)) =
          some (.exceptionNone, .null, []) := by
      decide +kernel
    obtain ⟨⟨status, s'⟩, hrun, heq⟩ := Option.map_eq_some_iff.mp hsome
    obtain ⟨rfl, hrest⟩ := Prod.mk.inj heq
    obtain ⟨hnull, hreduced⟩ := Prod.mk.inj hrest
    have hne : (⟨0x8000, 0⟩ : CtePtr) ≠ ⟨0x8000, 1⟩ := by decide
    have hwf : WellFormed s [[⟨0x9000, 7⟩], [⟨0x8000, 0⟩, ⟨0x8000, 1⟩]] := by
      refine (wellFormed_pairCSpace hne Cap.noConfusion Cap.noConfusion).alone rfl
        Cap.noConfusion fun y hsame => ?_
      obtain ⟨o, ho, hy⟩ := sameObjectAs_iff.mp hsame
      obtain rfl := Option.some.inj ho
      rw [pairCSpace, Function.update_apply, Function.update_apply] at hy
      split_ifs at hy <;> cases hy
    have hcap : ((revoking s).cspace ⟨0x9000, 7⟩).cap = .notification 0 true true 0x2000 := rfl
    rcases hclaim 6 ⟨0x8000, 0⟩ _ s' _ hwf rfl rfl hrun ⟨0x9000, 7⟩
      (by rw [hnull, hcap]; exact nofun) with hdesc | hmem
    · have hparent : isMDBParentOf (s ⟨0x8000, 0⟩) (s ⟨0x9000, 7⟩) = false := by decide
      exact Bool.false_ne_true (hparent.symm.trans hdesc.2)
    · rw [hreduced] at hmem
      cases hmem

end Kernel
