import Sel4Test.Lib.Potential
import Sel4Test.Kernel.Revoke

/-!
Termination of `cteDelete` of `object/cnode.c`, with the assertions of `reduceZombie`.

A round of the loop in `finaliseSlot` makes a zombie of the last cap to a CNode or TCB, moves a
zombie to the first slot of its own table, or takes one slot off a zombie. Each lowers the
`work` that the caps stand for.

* `finaliseSlot_eq`: with its assertions the recursion returns what it returns without.
* `Intact`: what is so of the slots of a kernel, and stays so in a deletion.
* `inner_spec`: a slot that is not exposed is emptied, or left with a zombie of its own table.
* `outer_spec`: an exposed slot is emptied, with all slots of its object.
* `cteDelete_terminates`: a deletion returns, and so do those that are repeated after a
  preemption.
-/

namespace Kernel.Deletion

open Chains Potential

/-! ### The functions with their assertions -/

/-- The switch in `reduceZombie` after the last slot has been deleted. -/
def settleZombie (slot : CtePtr) (type : ZombieType) (n ptr : ℕ) (s : DeletionState) :
    Option (DeletionStatus × DeletionState) :=
  match (s.cspace slot).cap with
  | .null => some (.exceptionNone, s)
  | .zombie type2 n2 ptr2 =>
      if ptr = ptr2 ∧ n2 = n ∧ type2 = type then
        if (s.cspace ⟨ptr, n - 1⟩).cap = .null then
          some (.exceptionNone, s.setCap slot (.zombie type2 (n - 1) ptr2))
        else none
      else if slot = ⟨ptr2, 0⟩ ∧ slot ≠ ⟨ptr, 0⟩ then some (.exceptionNone, s)
      else none
  | _ => none

/-- `reduceZombie`, which calls `cteDelete` on a slot that is not exposed. -/
def reduceZombieWith (cteDelete : CtePtr → DeletionState → Option (DeletionStatus × DeletionState))
    (slot : CtePtr) (immediate : Bool) (s : DeletionState) :
    Option (DeletionStatus × DeletionState) :=
  match (s.cspace slot).cap with
  | .zombie type n ptr =>
      let s := { s with reduced := ptr :: s.reduced }
      if n = 0 then none
      else if immediate then
        match cteDelete ⟨ptr, n - 1⟩ s with
        | none => none
        | some (status, s) =>
            if status ≠ .exceptionNone then some (status, s) else settleZombie slot type n ptr s
      else if slot = ⟨ptr, 0⟩ then none
      else if capCyclicZombie (s.cspace ⟨ptr, 0⟩).cap ⟨ptr, 0⟩ then none
      else some (.exceptionNone, { s with cspace := capSwapForDelete ⟨ptr, 0⟩ slot s.cspace })
  | _ => none

/-- The end of a round of `finaliseSlot`, and the rounds after it. -/
def reduceRound (reduceZombie : DeletionState → Option (DeletionStatus × DeletionState))
    (again : DeletionState → Option (FinaliseSlotRet × DeletionState)) (s : DeletionState) :
    Option (FinaliseSlotRet × DeletionState) :=
  match reduceZombie s with
  | none => none
  | some (status, s) =>
      if status ≠ .exceptionNone then some (⟨status, false, .null⟩, s)
      else
        match preemptionPoint s with
        | (.exceptionPreempted, s) => some (⟨.exceptionPreempted, false, .null⟩, s)
        | (.exceptionNone, s) => again s

/-- `finaliseSlot`, each round of the loop with less fuel. -/
def finaliseSlot :
    ℕ → CtePtr → Bool → DeletionState → Option (FinaliseSlotRet × DeletionState)
  | 0, _, _, _ => none
  | fuel + 1, slot, immediate, s =>
      let cap := (s.cspace slot).cap
      if cap = .null then some (⟨.exceptionNone, true, .null⟩, s)
      else
        let final := isFinalCapability slot s.cspace
        match finaliseCap cap final false, finaliseEffects cap final s with
        | some (remainder, cleanupInfo), some s =>
            match capRemovable remainder slot with
            | none => none
            | some true => some (⟨.exceptionNone, true, cleanupInfo⟩, s)
            | some false =>
                let s := s.setCap slot remainder
                if !immediate && capCyclicZombie remainder slot then
                  some (⟨.exceptionNone, false, cleanupInfo⟩, s)
                else
                  reduceRound
                    (reduceZombieWith
                      (fun endSlot => cteDeleteWith (finaliseSlot fuel) endSlot false)
                      slot immediate)
                    (finaliseSlot fuel slot immediate) s
        | _, _ => none

/-- `cteDelete`. -/
def cteDelete (fuel : ℕ) :
    CtePtr → Bool → DeletionState → Option (DeletionStatus × DeletionState) :=
  cteDeleteWith (finaliseSlot fuel)

section Assertions

variable {x : CtePtr} {immediate : Bool} {s : DeletionState}

/-- An assertion that holds makes no difference. -/
lemma reduceZombieWith_eq
    {delete delete' : CtePtr → DeletionState → Option (DeletionStatus × DeletionState)}
    {r : DeletionStatus × DeletionState}
    (hdelete : ∀ y s r, delete y s = some r → delete' y s = some r)
    (h : reduceZombieWith delete x immediate s = some r) :
    Kernel.reduceZombieWith delete' x immediate s = some r := by
  rw [reduceZombieWith] at h
  rw [Kernel.reduceZombieWith]
  cases hcap : (s.cspace x).cap with
  | zombie type n ptr =>
      simp only [hcap] at h ⊢
      by_cases hn : n = 0
      · rw [if_pos hn] at h
        cases h
      rw [if_neg hn] at h ⊢
      cases immediate with
      | false =>
          simp only [Bool.false_eq_true, if_false] at h ⊢
          split_ifs at h
          exact h
      | true =>
          simp only [if_true] at h ⊢
          cases hrun : delete ⟨ptr, n - 1⟩ { s with reduced := ptr :: s.reduced } with
          | none =>
              rw [hrun] at h
              cases h
          | some result =>
              obtain ⟨status, s₁⟩ := result
              rw [hrun] at h
              rw [hdelete _ _ _ hrun]
              dsimp only at h ⊢
              by_cases hstatus : status ≠ .exceptionNone
              · rwa [if_pos hstatus] at h ⊢
              rw [if_neg hstatus] at h ⊢
              rw [settleZombie] at h
              cases hcap₁ : (s₁.cspace x).cap with
              | null =>
                  rw [hcap₁] at h
                  exact h
              | zombie type2 n2 ptr2 =>
                  simp only [hcap₁] at h ⊢
                  split_ifs at h ⊢
                  · exact h
                  · exact h
              | _ =>
                  rw [hcap₁] at h
                  cases h
  | _ =>
      rw [hcap] at h
      cases h

lemma cteDeleteWith_eq
    {finalise finalise' : CtePtr → Bool → DeletionState → Option (FinaliseSlotRet × DeletionState)}
    {r : DeletionStatus × DeletionState}
    (hfinalise : ∀ y i s r, finalise y i s = some r → finalise' y i s = some r)
    (h : cteDeleteWith finalise x immediate s = some r) :
    cteDeleteWith finalise' x immediate s = some r := by
  rw [cteDeleteWith] at h ⊢
  cases hrun : finalise x immediate s with
  | none =>
      rw [hrun] at h
      cases h
  | some result =>
      rw [hrun] at h
      rw [hfinalise _ _ _ _ hrun]
      exact h

/-- What the recursion with its assertions returns, the one without returns, too. -/
lemma finaliseSlot_eq (fuel : ℕ) : ∀ x immediate s r, finaliseSlot fuel x immediate s = some r →
    Kernel.finaliseSlot fuel x immediate s = some r := by
  -- both definitions take the same branches; they differ in the round for a zombie alone
  induction fuel with
  | zero =>
      intro x immediate s r h
      cases h
  | succ fuel ih =>
      intro x immediate s r h
      rw [finaliseSlot] at h
      rw [Kernel.finaliseSlot]
      dsimp only at h ⊢
      by_cases hnull : (s.cspace x).cap = .null
      · rwa [if_pos hnull] at h ⊢
      rw [if_neg hnull] at h ⊢
      cases hcap : finaliseCap (s.cspace x).cap (isFinalCapability x s.cspace) false with
      | none =>
          rw [hcap] at h
          cases h
      | some fcRet =>
          obtain ⟨remainder, cleanupInfo⟩ := fcRet
          rw [hcap] at h
          cases heffects : finaliseEffects (s.cspace x).cap (isFinalCapability x s.cspace) s with
          | none =>
              rw [heffects] at h
              cases h
          | some s₁ =>
              rw [heffects] at h
              dsimp only at h ⊢
              cases hremovable : capRemovable remainder x with
              | none =>
                  rw [hremovable] at h
                  cases h
              | some removable =>
                  rw [hremovable] at h
                  cases removable with
                  | true => exact h
                  | false =>
                      dsimp only at h ⊢
                      by_cases hcyclic : (!immediate && capCyclicZombie remainder x) = true
                      · rwa [if_pos hcyclic] at h ⊢
                      rw [if_neg hcyclic] at h ⊢
                      rw [reduceRound] at h
                      cases hreduce : reduceZombieWith
                          (fun endSlot => cteDeleteWith (finaliseSlot fuel) endSlot false) x
                          immediate (s₁.setCap x remainder) with
                      | none =>
                          rw [hreduce] at h
                          cases h
                      | some result =>
                          obtain ⟨status, s₂⟩ := result
                          rw [hreduce] at h
                          rw [reduceZombieWith_eq (fun y s r hy =>
                            cteDeleteWith_eq (fun y i s r => ih y i s r) hy) hreduce]
                          dsimp only at h ⊢
                          by_cases hstatus : status ≠ .exceptionNone
                          · rwa [if_pos hstatus] at h ⊢
                          rw [if_neg hstatus] at h ⊢
                          cases hpoint : preemptionPoint s₂ with
                          | mk status₃ s₃ =>
                              rw [hpoint] at h
                              cases status₃ with
                              | exceptionNone => exact ih _ _ _ _ h
                              | exceptionPreempted => exact h

/-- **The assertions make no difference**: what the deletion with them returns, the deletion
without them returns. -/
lemma cteDelete_eq {fuel : ℕ} {r : DeletionStatus × DeletionState}
    (h : cteDelete fuel x immediate s = some r) : Kernel.cteDelete fuel x immediate s = some r :=
  cteDeleteWith_eq (finaliseSlot_eq fuel) h

end Assertions

/-! ### What is so of the slots -/

/-- The slots that a cap stands for. -/
def slotCount : Cap → ℕ
  | .cnode radix _ _ _ => 2 ^ radix
  | .thread _ => tcbArchCNodeEntries
  | .zombie _ n _ => n
  | _ => 0

/-- A cap that `finaliseCap` finalises while the thread or the interrupt handler is deleted that
it goes with. -/
def Releasable (cap : Cap) : Prop := (finaliseCap cap true true).isSome

/-- What is so of the slots of a kernel. A CNode or TCB is one object to all of its caps, and a
zombie is the only cap for its slots; slots behind the end of a table are not there; the caps in
line behind a reply slot and those of the interrupt node can be released, and no cap is for the
interrupt node. -/
structure Intact (c : CSpace) (blockedOnReply : ℕ → Bool) (irqNode : ℕ)
    (chains : List (List CtePtr)) : Prop extends WellFormed c chains where
  tables : ∀ x y t, (c x).cap.table? = some t → (c y).cap.table? = some t →
    x = y ∨ ∃ o, (c x).cap.object? = some o ∧ (c y).cap.object? = some o
  size : ∀ x t i, (c x).cap.table? = some t → slotCount (c x).cap ≤ i → (c ⟨t, i⟩).cap = .null
  reply : ∀ t, blockedOnReply t = true → Releasable (c ⟨t, tcbReply⟩).cap ∧
    ∀ y, Before chains ⟨t, tcbReply⟩ y → Releasable (c y).cap
  irq : ∀ i, Releasable (c ⟨irqNode, i⟩).cap
  irqTable : ∀ x, (c x).cap.table? ≠ some irqNode

/-- Only zombies are left for the table. -/
def Dead (t : ℕ) (c : CSpace) : Prop :=
  ∀ y, (c y).cap.table? = some t → ∃ type n, (c y).cap = .zombie type n t

/-- The slot holds the last cap for the table. -/
def Last (t : ℕ) (x : CtePtr) (c : CSpace) : Prop :=
  (c x).cap.table? = some t ∧ ∀ y, y ≠ x → (c y).cap.table? ≠ some t

/-- The places hold all caps, and the first slot of every table. -/
structure Covers (F : Finset CtePtr) (c : CSpace) : Prop where
  mem : ∀ x, (c x).cap ≠ .null → x ∈ F
  first : ∀ x t, (c x).cap.table? = some t → (⟨t, 0⟩ : CtePtr) ∈ F

/-- The rounds that a cap may still need. A zombie that is not in its own table needs one more
than one that is. -/
def weight (x : CtePtr) : Cap → ℕ
  | .cnode radix _ _ _ => 2 * 2 ^ radix + 2
  | .thread _ => 2 * tcbArchCNodeEntries + 2
  | .zombie _ n ptr => 2 * n + if x = ⟨ptr, 0⟩ then 0 else 1
  | _ => 0

/-- The rounds that all caps may still need. -/
def work (F : Finset CtePtr) (c : CSpace) : ℕ := potential F weight fun x => (c x).cap

section Caps

variable {cap cap' : Cap} {t : ℕ}

lemma releasable_eq (h : Releasable cap) (final : Bool) :
    finaliseCap cap final true = some (.null, .null) := by
  cases cap with
  | untyped | cnode | thread | irqControl | irqHandler | zombie => cases h
  | _ => rfl

lemma Releasable.table? (h : Releasable cap) : cap.table? = none := by
  cases cap with
  | cnode | thread | zombie => cases h
  | _ => rfl

/-- Caps for one object are for one table. -/
lemma table?_eq_of_object? {o : Cap.Object} (h : cap.object? = some o) (h' : cap'.object? = some o)
    (ht : cap.table? = some t) : cap'.table? = some t := by
  cases cap with
  | cnode =>
      cases h
      cases cap' with
      | cnode =>
          cases h'
          exact ht
      | _ => cases h'
  | thread =>
      cases h
      cases cap' with
      | thread =>
          cases h'
          exact ht
      | _ => cases h'
  | zombie => cases h
  | _ => cases ht

/-- What `finaliseCap` leaves: a zombie for the slots of a cap that was the last one, or nothing. -/
lemma finaliseCap_cases (cap : Cap) (final : Bool) : ∃ remainder cleanupInfo,
    finaliseCap cap final false = some (remainder, cleanupInfo) ∧
      ((∃ type t, cap.table? = some t ∧ remainder = .zombie type (slotCount cap) t ∧
          remainder.capSizeBits = cap.capSizeBits ∧ (final = true ∨ cap.object? = none)) ∨
        remainder = .null ∧ (cap.table? = none ∨ final = false ∧ cap.object? ≠ none)) := by
  cases cap with
  | cnode radix guardSize guard ptr =>
      cases final with
      | true => exact ⟨_, _, rfl, .inl ⟨_, ptr, rfl, rfl, rfl, .inl rfl⟩⟩
      | false => exact ⟨_, _, rfl, .inr ⟨rfl, .inr ⟨rfl, Option.some_ne_none _⟩⟩⟩
  | thread tcb =>
      cases final with
      | true => exact ⟨_, _, rfl, .inl ⟨_, tcb, rfl, rfl, rfl, .inl rfl⟩⟩
      | false => exact ⟨_, _, rfl, .inr ⟨rfl, .inr ⟨rfl, Option.some_ne_none _⟩⟩⟩
  | zombie type n ptr => exact ⟨_, _, rfl, .inl ⟨type, ptr, rfl, rfl, rfl, .inr rfl⟩⟩
  | irqHandler irq =>
      cases final with
      | true => exact ⟨_, _, rfl, .inr ⟨rfl, .inl rfl⟩⟩
      | false => exact ⟨_, _, rfl, .inr ⟨rfl, .inl rfl⟩⟩
  | _ => exact ⟨_, _, rfl, .inr ⟨rfl, .inl rfl⟩⟩

/-- A zombie is less work than the cap that it replaces. -/
lemma weight_zombie_le (x : CtePtr) (type : ZombieType) (ht : cap.table? = some t) :
    weight x (.zombie type (slotCount cap) t) ≤ weight x cap := by
  cases cap with
  | cnode | thread =>
      cases ht
      simp only [weight, slotCount]
      split_ifs
      · omega
      · omega
  | zombie =>
      cases ht
      exact le_rfl
  | _ => cases ht

end Caps

/-! ### Single steps -/

section Steps

variable {F : Finset CtePtr} {c c' : CSpace} {b : ℕ → Bool} {irq : ℕ} {chains : List (List CtePtr)}
  {x y : CtePtr} {t n : ℕ} {type : ZombieType}

/-- A zombie is the only cap for its table. -/
lemma Intact.last_zombie (h : Intact c b irq chains) (hx : (c x).cap = .zombie type n t) :
    Last t x c := by
  refine ⟨by rw [hx]; rfl, fun y hy ht => ?_⟩
  rcases h.tables x y t (by rw [hx]; rfl) ht with heq | ⟨o, ho, -⟩
  · exact hy heq.symm
  · rw [hx] at ho
    cases ho

/-- A final cap is the only cap for its table. -/
lemma Intact.last (h : Intact c b irq chains) (ht : (c x).cap.table? = some t)
    (hfinal : isFinalCapability x c = true ∨ (c x).cap.object? = none) : Last t x c := by
  refine ⟨ht, fun y hy hyt => ?_⟩
  rcases h.tables x y t ht hyt with heq | ⟨o, hxo, hyo⟩
  · exact hy heq.symm
  · exact h.toWellFormed.last hfinal y hy (sameObjectAs_iff.mpr ⟨o, hyo, hxo⟩)

/-- The last cap for a table is final. -/
lemma Intact.final (h : Intact c b irq chains) (hlast : Last t x c) :
    isFinalCapability x c = true ∨ (c x).cap.object? = none := by
  cases ho : (c x).cap.object? with
  | none => exact .inr rfl
  | some o =>
      refine .inl ((h.isFinalCapability_iff ho).mpr fun y hy hyo => ?_)
      exact hlast.2 y hy (table?_eq_of_object? ho hyo hlast.1)

lemma Last.dead (hlast : Last t x c) (hx : (c x).cap = .zombie type n t) : Dead t c := by
  intro y hy
  by_cases hyx : y = x
  · rw [hyx]
    exact ⟨type, n, hx⟩
  · exact absurd hy (hlast.2 y hyx)

lemma table?_ne_null {cap : Cap} (ht : cap.table? = some t) : cap ≠ .null := by
  rintro rfl
  cases ht

/-- No thread waits for a reply any more. -/
lemma Intact.unblock (h : Intact c b irq chains) (tcb : ℕ) :
    Intact c (Function.update b tcb false) irq chains := by
  refine ⟨h.toWellFormed, h.tables, h.size, fun t ht => ?_, h.irq, h.irqTable⟩
  rw [Function.update_apply] at ht
  split_ifs at ht
  exact h.reply t ht

lemma Intact.emptySlot (h : Intact c b irq chains) :
    Intact (emptySlot x c) b irq (remove x chains) := by
  have hsame : ∀ {y t}, (Kernel.emptySlot x c y).cap.table? = some t →
      (c y).cap.table? = some t := by
    intro y t ht
    rw [cap_emptySlot] at ht
    split_ifs at ht
    · cases ht
    · exact ht
  have hnull : ∀ {y}, (c y).cap = .null → (Kernel.emptySlot x c y).cap = .null := by
    intro y hy
    rw [cap_emptySlot, hy, ite_self]
  have hreleasable : ∀ {y}, Releasable (c y).cap → Releasable (Kernel.emptySlot x c y).cap := by
    intro y hy
    rw [cap_emptySlot]
    split_ifs
    · rfl
    · exact hy
  have hcap : ∀ {y t}, (Kernel.emptySlot x c y).cap.table? = some t →
      (Kernel.emptySlot x c y).cap = (c y).cap := by
    intro y t ht
    rw [cap_emptySlot] at ht ⊢
    split_ifs at ht ⊢
    · cases ht
    · rfl
  have hrep := rep_emptySlot (b := x) h.toRep
  refine ⟨h.toWellFormed.emptySlot, fun y z t hy hz => ?_, fun y t i hy hi => ?_, fun t ht => ?_,
    fun i => hreleasable (h.irq i), fun y hy => h.irqTable y (hsame hy)⟩
  · rw [hcap hy, hcap hz]
    exact h.tables y z t (hsame hy) (hsame hz)
  · rw [hcap hy] at hi
    exact hnull (h.size y t i (hsame hy) hi)
  · refine ⟨hreleasable (h.reply t ht).1, fun y hy => ?_⟩
    have hne : ∀ {z}, (Kernel.emptySlot x c z).cap ≠ .null → z ≠ x := by
      rintro z hz rfl
      rw [cap_emptySlot, if_pos rfl] at hz
      exact hz rfl
    have hbefore := (before_remove (hne (hrep.ne_null_left hy)) (hne (hrep.ne_null_right hy))).mp hy
    exact hreleasable ((h.reply t ht).2 y hbefore)

/-- The last cap for a table becomes a zombie for slots that are left. -/
lemma Intact.toZombie (h : Intact c b irq chains) (hlast : Last t x c)
    (hsize : (Cap.zombie type n t).capSizeBits = (c x).cap.capSizeBits)
    (hempty : ∀ i, n ≤ i → (c ⟨t, i⟩).cap = .null) :
    Intact (c.setCap x (.zombie type n t)) b irq chains := by
  have hother : ∀ {y}, y ≠ x → (c.setCap x (.zombie type n t) y).cap = (c y).cap := by
    intro y hy
    rw [CSpace.cap_setCap, if_neg hy]
  have hself : (c.setCap x (.zombie type n t) x).cap = .zombie type n t := by
    rw [CSpace.cap_setCap, if_pos rfl]
  have htable : ∀ y, (c.setCap x (.zombie type n t) y).cap.table? = (c y).cap.table? := by
    intro y
    by_cases hy : y = x
    · rw [hy, hself, hlast.1]
      rfl
    · rw [hother hy]
  have hreleasable : ∀ {y}, Releasable (c y).cap →
      Releasable (c.setCap x (.zombie type n t) y).cap := by
    intro y hy
    have hne : y ≠ x := by
      rintro rfl
      have htable := hlast.1
      rw [hy.table?] at htable
      cases htable
    rwa [hother hne]
  have hnull : ∀ {y}, (c y).cap = .null → (c.setCap x (.zombie type n t) y).cap = .null := by
    intro y hy
    have hne : y ≠ x := by
      rintro rfl
      exact table?_ne_null hlast.1 hy
    rwa [hother hne]
  -- no other cap is of this table, so the tables differ from those before in this slot only
  refine ⟨h.toWellFormed.toZombie hlast.1 hsize fun y hy hsame => ?_, fun y z t₁ hy hz => ?_,
    fun y t₁ i hy hi => ?_, fun t₁ ht₁ => ?_, fun i => hreleasable (h.irq i), fun y hy => ?_⟩
  · obtain ⟨o, hyo, hxo⟩ := sameObjectAs_iff.mp hsame
    exact hlast.2 y hy (table?_eq_of_object? hxo hyo hlast.1)
  · rw [htable] at hy hz
    by_cases hyx : y = x
    · subst hyx
      obtain rfl := Option.some.inj (hlast.1.symm.trans hy)
      by_contra hnot
      exact hlast.2 z (fun heq => hnot (.inl heq.symm)) hz
    · by_cases hzx : z = x
      · subst hzx
        obtain rfl := Option.some.inj (hlast.1.symm.trans hz)
        exact absurd hy (hlast.2 y hyx)
      · rw [hother hyx, hother hzx]
        exact h.tables y z t₁ hy hz
  · rw [htable] at hy
    refine hnull ?_
    by_cases hyx : y = x
    · subst hyx
      obtain rfl := Option.some.inj (hlast.1.symm.trans hy)
      rw [hself] at hi
      exact hempty i hi
    · rw [hother hyx] at hi
      exact h.size y t₁ i hy hi
  · exact ⟨hreleasable (h.reply t₁ ht₁).1, fun y hy => hreleasable ((h.reply t₁ ht₁).2 y hy)⟩
  · rw [htable] at hy
    exact h.irqTable y hy

/-- A zombie changes places with what is in the first slot of its table. -/
lemma Intact.swap (h : Intact c b irq chains) (hx : (c x).cap = .zombie type n t) (hn : n ≠ 0) :
    Intact (capSwapForDelete ⟨t, 0⟩ x c) b irq (rename (Equiv.swap ⟨t, 0⟩ x) chains) := by
  have hlast := h.last_zombie hx
  have hcap : ∀ y, (capSwapForDelete ⟨t, 0⟩ x c y).cap = (c (Equiv.swap ⟨t, 0⟩ x y)).cap := by
    intro y
    have hswap := cap_capSwapForDelete (s := c) (a := ⟨t, 0⟩) (b := x) (Equiv.swap ⟨t, 0⟩ x y)
    rwa [Equiv.swap_apply_self] at hswap
  -- a slot that is released is not one of the two
  have hout : ∀ {y}, Releasable (c y).cap → y ≠ x := by
    rintro y hy rfl
    rw [hx] at hy
    cases hy
  refine ⟨h.toWellFormed.capSwapForDelete, fun y z t₁ hy hz => ?_, fun y t₁ i hy hi => ?_,
    fun t₁ ht₁ => ?_, fun i => ?_, fun y hy => ?_⟩
  · rw [hcap] at hy hz ⊢
    rw [hcap]
    refine (h.tables _ _ t₁ hy hz).imp_left fun heq => (Equiv.swap ⟨t, 0⟩ x).injective heq
  · rw [hcap] at hy hi ⊢
    have hnull := h.size _ t₁ i hy hi
    have hix : (⟨t₁, i⟩ : CtePtr) ≠ x := by
      intro heq
      rw [heq, hx] at hnull
      cases hnull
    have hit : (⟨t₁, i⟩ : CtePtr) ≠ ⟨t, 0⟩ := by
      intro heq
      obtain ⟨rfl, rfl⟩ := CtePtr.mk.inj heq
      have hyx : Equiv.swap ⟨t₁, 0⟩ x y = x := by
        by_contra hne
        exact hlast.2 _ hne hy
      rw [hyx, hx] at hi
      exact hn (Nat.le_zero.mp hi)
    rwa [Equiv.swap_apply_of_ne_of_ne hit hix]
  · obtain ⟨hself, hbehind⟩ := h.reply t₁ ht₁
    have hfix : Equiv.swap ⟨t, 0⟩ x ⟨t₁, tcbReply⟩ = ⟨t₁, tcbReply⟩ := by
      refine Equiv.swap_apply_of_ne_of_ne (fun heq => ?_) (hout hself)
      cases (CtePtr.mk.inj heq).2
    refine ⟨by rw [hcap, hfix]; exact hself, fun y hy => ?_⟩
    rw [hcap]
    refine hbehind _ ?_
    have hy' : Before (rename (Equiv.swap ⟨t, 0⟩ x) chains)
        (Equiv.swap ⟨t, 0⟩ x ⟨t₁, tcbReply⟩)
        (Equiv.swap ⟨t, 0⟩ x (Equiv.swap ⟨t, 0⟩ x y)) := by
      rwa [hfix, Equiv.swap_apply_self]
    exact before_rename_iff.mp hy'
  · have hne : (⟨irq, i⟩ : CtePtr) ≠ ⟨t, 0⟩ := by
      intro heq
      obtain ⟨rfl, -⟩ := CtePtr.mk.inj heq
      exact h.irqTable x hlast.1
    rw [hcap, Equiv.swap_apply_of_ne_of_ne hne (hout (h.irq i))]
    exact h.irq i
  · rw [hcap] at hy
    exact h.irqTable _ hy

end Steps

/-! ### Deletions -/

section States

variable {F : Finset CtePtr} {s s' s'' : DeletionState} {x y : CtePtr} {t n : ℕ}
  {type : ZombieType}

/-- The slots of a state are intact, and the places hold them. -/
structure Ready (F : Finset CtePtr) (s : DeletionState) : Prop where
  intact : ∃ chains, Intact s.cspace s.blockedOnReply s.intStateIRQNode chains
  covers : Covers F s.cspace

/-- There is a cap for the table. -/
def Known (t : ℕ) (c : CSpace) : Prop := ∃ y, (c y).cap.table? = some t

/-- What a part of a deletion keeps. -/
structure Kept (F : Finset CtePtr) (s s' : DeletionState) : Prop where
  ready : Ready F s'
  le : work F s'.cspace ≤ work F s.cspace
  pending : s'.isIRQPending = s.isIRQPending
  dead : ∀ t, Dead t s.cspace → Dead t s'.cspace
  known : ∀ t, Known t s'.cspace → Known t s.cspace

lemma Kept.refl (h : Ready F s) : Kept F s s := ⟨h, le_rfl, rfl, fun _ ht => ht, fun _ ht => ht⟩

lemma Kept.trans (h : Kept F s s') (h' : Kept F s' s'') : Kept F s s'' :=
  ⟨h'.ready, h'.le.trans h.le, h'.pending.trans h.pending,
    fun t ht => h'.dead t (h.dead t ht), fun t ht => h.known t (h'.known t ht)⟩

/-- Only the slots, the threads that wait and the interrupt controller count. -/
lemma Kept.of_cspace_eq (h : Ready F s) (hcspace : s'.cspace = s.cspace)
    (hblocked : s'.blockedOnReply = s.blockedOnReply)
    (hnode : s'.intStateIRQNode = s.intStateIRQNode) (hpending : s'.isIRQPending = s.isIRQPending) :
    Kept F s s' := by
  refine ⟨⟨?_, ?_⟩, ?_, hpending, fun t ht => ?_, fun t ht => ?_⟩
  · rw [hcspace, hblocked, hnode]
    exact h.intact
  · rw [hcspace]
    exact h.covers
  · rw [hcspace]
  · rwa [hcspace]
  · rwa [hcspace] at ht

/-- A slot is emptied. -/
lemma Kept.emptySlot (h : Ready F s) (x : CtePtr) :
    Kept F s { s with cspace := emptySlot x s.cspace } := by
  obtain ⟨chains, hintact⟩ := h.intact
  have hcap : ∀ y, (Kernel.emptySlot x s.cspace y).cap = (s.cspace y).cap ∨
      (Kernel.emptySlot x s.cspace y).cap = .null := by
    intro y
    rw [cap_emptySlot]
    split_ifs
    · exact .inr rfl
    · exact .inl rfl
  have htable : ∀ {y t}, (Kernel.emptySlot x s.cspace y).cap.table? = some t →
      (Kernel.emptySlot x s.cspace y).cap = (s.cspace y).cap := fun {y _} ht =>
    (hcap y).resolve_right (table?_ne_null ht)
  refine ⟨⟨⟨_, hintact.emptySlot⟩, fun y hy => ?_, fun y t ht => ?_⟩, ?_, rfl,
    fun t hdead y ht => ?_, fun t hexists => ?_⟩
  · rw [(hcap y).resolve_right hy] at hy
    exact h.covers.mem y hy
  · rw [htable ht] at ht
    exact h.covers.first y t ht
  · refine potential_mono fun y _ => ?_
    rcases hcap y with hsame | hnull
    · rw [hsame]
    · rw [hnull]
      exact Nat.zero_le _
  · have hsame := htable ht
    rw [hsame] at ht ⊢
    exact hdead y ht
  · obtain ⟨y, ht⟩ := hexists
    exact ⟨y, by rwa [htable ht] at ht⟩

/-- The last cap for a table becomes a zombie for slots that are left. -/
lemma Kept.toZombie (h : Ready F s) (hlast : Last t x s.cspace)
    (hsize : (Cap.zombie type n t).capSizeBits = (s.cspace x).cap.capSizeBits)
    (hempty : ∀ i, n ≤ i → (s.cspace ⟨t, i⟩).cap = .null)
    (hweight : weight x (.zombie type n t) ≤ weight x (s.cspace x).cap) :
    Kept F s (s.setCap x (.zombie type n t)) := by
  obtain ⟨chains, hintact⟩ := h.intact
  have hcap : ∀ y, ((s.setCap x (.zombie type n t)).cspace y).cap =
      if y = x then .zombie type n t else (s.cspace y).cap := fun y => by
    rw [DeletionState.setCap, CSpace.cap_setCap]
  have htable : ∀ y, ((s.setCap x (.zombie type n t)).cspace y).cap.table? =
      (s.cspace y).cap.table? := by
    intro y
    rw [hcap]
    split_ifs with hy
    · rw [hy, hlast.1]
      rfl
    · rfl
  refine ⟨⟨⟨_, hintact.toZombie hlast hsize hempty⟩, fun y hy => ?_, fun y t₁ ht => ?_⟩, ?_, rfl,
    fun t₁ hdead y ht => ?_, fun t₁ hexists => ?_⟩
  · rw [hcap] at hy
    split_ifs at hy with hyx
    · rw [hyx]
      exact h.covers.mem x (table?_ne_null hlast.1)
    · exact h.covers.mem y hy
  · rw [htable] at ht
    exact h.covers.first y t₁ ht
  · refine potential_mono fun y _ => ?_
    rw [hcap]
    split_ifs with hyx
    · rw [hyx]
      exact hweight
    · exact le_rfl
  · rw [htable] at ht
    rw [hcap]
    split_ifs with hyx
    · rw [hyx, hlast.1] at ht
      obtain rfl := Option.some.inj ht
      exact ⟨type, n, rfl⟩
    · exact hdead y ht
  · obtain ⟨y, ht⟩ := hexists
    exact ⟨y, by rwa [htable] at ht⟩

/-- A zombie changes places with what is in the first slot of its table. -/
lemma Kept.swap (h : Ready F s) (hx : (s.cspace x).cap = .zombie type n t) (hn : n ≠ 0)
    (hne : x ≠ ⟨t, 0⟩) :
    Kept F s { s with cspace := capSwapForDelete ⟨t, 0⟩ x s.cspace } ∧
      work F (capSwapForDelete ⟨t, 0⟩ x s.cspace) < work F s.cspace := by
  obtain ⟨chains, hintact⟩ := h.intact
  have hlast := hintact.last_zombie hx
  have hback := fun y => cap_capSwapForDelete (s := s.cspace) (a := ⟨t, 0⟩) (b := x) y
  have hcap : ∀ y, (capSwapForDelete ⟨t, 0⟩ x s.cspace y).cap =
      (s.cspace (Equiv.swap ⟨t, 0⟩ x y)).cap := by
    intro y
    have hswap := hback (Equiv.swap ⟨t, 0⟩ x y)
    rwa [Equiv.swap_apply_self] at hswap
  have hmem : x ∈ F := h.covers.mem x (table?_ne_null hlast.1)
  have hfirst : (⟨t, 0⟩ : CtePtr) ∈ F := h.covers.first x t hlast.1
  have hswap : ∀ {y}, Equiv.swap ⟨t, 0⟩ x y ∈ F → y ∈ F := by
    intro y hy
    rw [Equiv.swap_apply_def] at hy
    split_ifs at hy with hyt hyx
    · rwa [hyt]
    · rwa [hyx]
    · exact hy
  have hlt : work F (capSwapForDelete ⟨t, 0⟩ x s.cspace) < work F s.cspace := by
    refine potential_swap_lt (s := fun y => (s.cspace y).cap) hfirst hmem hback ?_ ?_
    · -- what was in the first slot is no zombie of this table
      have hno := hlast.2 ⟨t, 0⟩ (Ne.symm hne)
      cases hzombie : (s.cspace ⟨t, 0⟩).cap with
      | zombie type₁ n₁ t₁ =>
          rw [hzombie] at hno
          have ht : (⟨t, 0⟩ : CtePtr) ≠ ⟨t₁, 0⟩ := fun heq =>
            hno (congrArg some (CtePtr.mk.inj heq).1.symm)
          simp only [weight, if_neg ht]
          split_ifs
          · omega
          · omega
      | _ => exact le_rfl
    · rw [hx]
      simp only [weight, if_neg hne, if_true]
      omega
  -- what holds of every slot is carried through the permutation of the slots
  refine ⟨⟨⟨⟨_, hintact.swap hx hn⟩, fun y hy => ?_, fun y t₁ ht => ?_⟩, hlt.le, rfl,
    fun t₁ hdead y ht => ?_, fun t₁ hexists => ?_⟩, hlt⟩
  · rw [hcap] at hy
    exact hswap (h.covers.mem _ hy)
  · rw [hcap] at ht
    exact h.covers.first _ t₁ ht
  · rw [hcap] at ht ⊢
    exact hdead _ ht
  · obtain ⟨y, ht⟩ := hexists
    exact ⟨Equiv.swap ⟨t, 0⟩ x y, by rwa [hcap] at ht⟩

/-- The last slot of a zombie is taken off. -/
lemma Kept.decrement (h : Ready F s) (hx : (s.cspace x).cap = .zombie type n t) (hn : n ≠ 0)
    (hnull : (s.cspace ⟨t, n - 1⟩).cap = .null) :
    Kept F s (s.setCap x (.zombie type (n - 1) t)) ∧
      Last t x (s.setCap x (.zombie type (n - 1) t)).cspace ∧
      work F (s.setCap x (.zombie type (n - 1) t)).cspace < work F s.cspace := by
  obtain ⟨chains, hintact⟩ := h.intact
  have hlast := hintact.last_zombie hx
  have hempty : ∀ i, n - 1 ≤ i → (s.cspace ⟨t, i⟩).cap = .null := by
    intro i hi
    rcases Nat.eq_or_lt_of_le hi with rfl | hi
    · exact hnull
    · refine hintact.size x t i hlast.1 ?_
      rw [hx, slotCount]
      omega
  have hweight : weight x (.zombie type (n - 1) t) < weight x (s.cspace x).cap := by
    rw [hx]
    simp only [weight]
    omega
  have hsize : (Cap.zombie type (n - 1) t).capSizeBits = (s.cspace x).cap.capSizeBits := by
    rw [hx]
    cases type with
    | tcb => rfl
    | cnode => rfl
  have hcap : ∀ y, ((s.setCap x (.zombie type (n - 1) t)).cspace y).cap =
      if y = x then .zombie type (n - 1) t else (s.cspace y).cap := fun y => by
    rw [DeletionState.setCap, CSpace.cap_setCap]
  have hkept := Kept.toZombie h hlast hsize hempty hweight.le
  obtain ⟨chains', hintact'⟩ := hkept.ready.intact
  refine ⟨hkept, hintact'.last_zombie (by rw [hcap, if_pos rfl]), ?_⟩
  refine potential_lt (x := x) (fun y _ => ?_) (h.covers.mem x (table?_ne_null hlast.1)) ?_
  · rw [hcap]
    split_ifs with hyx
    · rw [hyx]
      exact hweight.le
    · exact le_rfl
  · rw [hcap, if_pos rfl]
    exact hweight

/-- A slot whose cap can be released is emptied. -/
lemma Kept.deleteOne (h : Ready F s) (hy : Releasable (s.cspace y).cap) (cap : Cap) :
    ∃ s', s.deleteOne cap y = some s' ∧ Kept F s s' ∧
      ∀ z, (s'.cspace z).cap = (s.cspace z).cap ∨
        (s'.cspace z).cap = .null ∧ Releasable (s.cspace z).cap := by
  have hdelete : cteDeleteOne y s.cspace = some (Kernel.emptySlot y s.cspace) := by
    rw [cteDeleteOne]
    split_ifs with hnull
    · rw [Kernel.emptySlot, if_pos hnull]
    · rw [releasable_eq hy]
      exact if_pos ⟨rfl, rfl⟩
  refine ⟨_, by rw [DeletionState.deleteOne, hdelete]; rfl, ?_, fun z => ?_⟩
  · exact (Kept.emptySlot h y).trans (.of_cspace_eq (Kept.emptySlot h y).ready rfl rfl rfl rfl)
  · change (Kernel.emptySlot y s.cspace z).cap = _ ∨ (Kernel.emptySlot y s.cspace z).cap = _ ∧ _
    rw [cap_emptySlot]
    split_ifs with hzy
    · exact .inr ⟨rfl, hzy ▸ hy⟩
    · exact .inl rfl

/-- What `finaliseCap` does to other slots succeeds. -/
lemma Kept.finaliseEffects (h : Ready F s) (cap : Cap) (final : Bool) :
    ∃ s', finaliseEffects cap final s = some s' ∧ Kept F s s' ∧
      ∀ z, (s'.cspace z).cap = (s.cspace z).cap ∨
        (s'.cspace z).cap = .null ∧ Releasable (s.cspace z).cap := by
  have hstay : ∃ s', some s = some s' ∧ Kept F s s' ∧
      ∀ z, (s'.cspace z).cap = (s.cspace z).cap ∨
        (s'.cspace z).cap = .null ∧ Releasable (s.cspace z).cap :=
    ⟨s, rfl, .refl h, fun z => .inl rfl⟩
  obtain ⟨chains, hintact⟩ := h.intact
  cases cap with
  | thread tcb =>
      rw [Kernel.finaliseEffects, suspendForDelete]
      by_cases hfinal : final = true
      · rw [if_pos hfinal]
        by_cases hblocked : s.blockedOnReply tcb = true
        · rw [if_pos hblocked]
          dsimp only
          let s₁ := { s with blockedOnReply := Function.update s.blockedOnReply tcb false }
          have hready : Ready F s₁ := ⟨⟨chains, hintact.unblock tcb⟩, h.covers⟩
          have hkept : Kept F s s₁ := ⟨hready, le_rfl, rfl, fun _ ht => ht, fun _ ht => ht⟩
          cases hnext : (s.cspace ⟨tcb, tcbReply⟩).cteMDBNode.mdbNext with
          | none => exact ⟨s₁, rfl, hkept, fun z => .inl rfl⟩
          | some callerCap =>
              have hadj := (hintact.links.next_iff ⟨tcb, tcbReply⟩ callerCap).mp hnext
              have hcaller := (hintact.reply tcb hblocked).2 callerCap hadj.before
              obtain ⟨s₂, hrun, hkept₂, hcap⟩ := Kept.deleteOne hready hcaller (.thread tcb)
              exact ⟨s₂, hrun, hkept.trans hkept₂, hcap⟩
        · rw [if_neg hblocked]
          exact hstay
      · rw [if_neg hfinal]
        exact hstay
  | irqHandler irq =>
      rw [Kernel.finaliseEffects, deletingIRQHandler]
      by_cases hfinal : final = true
      · rw [if_pos hfinal]
        exact Kept.deleteOne h (hintact.irq irq) (.irqHandler irq)
      · rw [if_neg hfinal]
        exact hstay
  | _ => exact hstay

/-- A preemption point changes no slot, and preempts if an interrupt is pending. -/
lemma Kept.preemptionPoint (h : Ready F s) : ∃ status s', preemptionPoint s = (status, s') ∧
    Kept F s s' ∧ s'.cspace = s.cspace ∧
      (status = .exceptionPreempted → ∃ n, s.isIRQPending n = true) := by
  rw [Kernel.preemptionPoint]
  dsimp only
  split_ifs with hlimit hpending
  · exact ⟨_, _, rfl, .of_cspace_eq h rfl rfl rfl rfl, rfl, fun _ => ⟨_, hpending⟩⟩
  · refine ⟨_, _, rfl, .of_cspace_eq h rfl rfl rfl rfl, rfl, fun hstatus => ?_⟩
    cases hstatus
  · refine ⟨_, _, rfl, .of_cspace_eq h rfl rfl rfl rfl, rfl, fun hstatus => ?_⟩
    cases hstatus

/-- What may happen to a slot other than the one that a deletion is for: its cap stays, it is
released, or a zombie for the table that it is the first slot of comes to it, which is
progress. -/
def Moved (F : Finset CtePtr) (s s' : DeletionState) (y : CtePtr) : Prop :=
  (s'.cspace y).cap = (s.cspace y).cap ∨
    (s'.cspace y).cap = .null ∧ (s.cspace y).cap.table? = none ∨
    ∃ type n t, (s'.cspace y).cap = .zombie type n t ∧ y = ⟨t, 0⟩ ∧
      (s.cspace y).cap.table? ≠ some t ∧ work F s'.cspace < work F s.cspace

lemma Moved.trans (h : Moved F s s' y) (hle : work F s'.cspace ≤ work F s.cspace)
    (h' : Moved F s' s'' y) (hle' : work F s''.cspace ≤ work F s'.cspace) : Moved F s s'' y := by
  rcases h' with hsame' | ⟨hnull', hno'⟩ | ⟨type, n, t, hzombie', hy, hno', hlt'⟩
  · rcases h with hsame | ⟨hnull, hno⟩ | ⟨type, n, t, hzombie, hy, hno, hlt⟩
    · exact .inl (hsame'.trans hsame)
    · exact .inr (.inl ⟨hsame'.trans hnull, hno⟩)
    · exact .inr (.inr ⟨type, n, t, hsame'.trans hzombie, hy, hno, hle'.trans_lt hlt⟩)
  · rcases h with hsame | ⟨hnull, hno⟩ | ⟨type, n, t, hzombie, -, -, -⟩
    · exact .inr (.inl ⟨hnull', hsame ▸ hno'⟩)
    · exact .inr (.inl ⟨hnull', hno⟩)
    · rw [hzombie] at hno'
      cases hno'
  · refine .inr (.inr ⟨type, n, t, hzombie', hy, fun ht => ?_, hlt'.trans_le hle⟩)
    rcases h with hsame | ⟨-, hno⟩ | ⟨type₁, n₁, t₁, hzombie, hy₁, -, -⟩
    · exact hno' (hsame ▸ ht)
    · rw [hno] at ht
      cases ht
    · obtain ⟨rfl, -⟩ := CtePtr.mk.inj (hy₁.symm.trans hy)
      exact hno' (by rw [hzombie]; rfl)

/-- What a deletion of a slot keeps, and what may happen to the other slots. -/
structure Proceeds (F : Finset CtePtr) (x : CtePtr) (s s' : DeletionState) : Prop
    extends Kept F s s' where
  moved : ∀ y, y ≠ x → Moved F s s' y

lemma Proceeds.refl (h : Ready F s) : Proceeds F x s s := ⟨.refl h, fun _ _ => .inl rfl⟩

lemma Proceeds.trans (h : Proceeds F x s s') (h' : Proceeds F x s' s'') : Proceeds F x s s'' :=
  ⟨h.toKept.trans h'.toKept, fun y hy => (h.moved y hy).trans h.le (h'.moved y hy) h'.le⟩

lemma Kept.proceeds (h : Kept F s s') (hcspace : s'.cspace = s.cspace) : Proceeds F x s s' :=
  ⟨h, fun y _ => .inl (by rw [hcspace])⟩

lemma capRemovable_zombie :
    capRemovable (.zombie type n t) x = some false ↔ n ≠ 0 ∧ ¬ (n = 1 ∧ x = ⟨t, 0⟩) := by
  rw [capRemovable, Option.some_inj, decide_eq_false_iff_not, not_or]

/-- What a round of `finaliseSlot` does before it comes to `reduceZombie`. -/
inductive Finalised (F : Finset CtePtr) (x : CtePtr) (s : DeletionState) :
    Cap → DeletionState → Prop
  | removable {remainder : Cap} {s₁ : DeletionState}
      (hremovable : capRemovable remainder x = some true)
      (hlast : ∀ t, Last t x s.cspace →
        (∀ i, (s₁.cspace ⟨t, i⟩).cap = .null ∨ (⟨t, i⟩ : CtePtr) = x) ∧
          ∀ y, y ≠ x → (s₁.cspace y).cap.table? ≠ some t) : Finalised F x s remainder s₁
  | zombie {type : ZombieType} {n t : ℕ} {s₁ : DeletionState}
      (hremovable : capRemovable (.zombie type n t) x = some false)
      (htable : (s.cspace x).cap.table? = some t)
      (hproceeds : Proceeds F x s (s₁.setCap x (.zombie type n t))) :
      Finalised F x s (.zombie type n t) s₁

/-- `finaliseCap` and its effects on other slots. -/
lemma finalised (h : Ready F s) (x : CtePtr) : ∃ remainder cleanupInfo s₁,
    finaliseCap (s.cspace x).cap (isFinalCapability x s.cspace) false =
      some (remainder, cleanupInfo) ∧
    finaliseEffects (s.cspace x).cap (isFinalCapability x s.cspace) s = some s₁ ∧
    Proceeds F x s s₁ ∧ Finalised F x s remainder s₁ := by
  obtain ⟨chains, hintact⟩ := h.intact
  obtain ⟨s₁, heffects, hkept, hcap⟩ :=
    Kept.finaliseEffects h (s.cspace x).cap (isFinalCapability x s.cspace)
  have hproceeds : Proceeds F x s s₁ :=
    ⟨hkept, fun y _ => (hcap y).imp_right fun hgone => .inl ⟨hgone.1, hgone.2.table?⟩⟩
  have hnull : ∀ {y}, (s.cspace y).cap = .null → (s₁.cspace y).cap = .null := fun {y} hy =>
    (hcap y).elim (fun hsame => hsame.trans hy) And.left
  have hlast₁ : ∀ {t}, Last t x s.cspace → Last t x s₁.cspace := by
    intro t hlast
    refine ⟨?_, fun y hy ht => ?_⟩
    · rcases hcap x with hsame | ⟨-, hx⟩
      · rw [hsame]
        exact hlast.1
      · have ht := hlast.1
        rw [hx.table?] at ht
        cases ht
    · rcases hcap y with hsame | ⟨hy', -⟩
      · exact hlast.2 y hy (hsame ▸ ht)
      · exact table?_ne_null ht hy'
  obtain ⟨remainder, cleanupInfo, hfinalise, hremainder⟩ :=
    finaliseCap_cases (s.cspace x).cap (isFinalCapability x s.cspace)
  refine ⟨remainder, cleanupInfo, s₁, hfinalise, heffects, hproceeds, ?_⟩
  -- a zombie remains of the last cap to a table, and nothing of any other cap
  rcases hremainder with ⟨type, t, ht, rfl, hsize, hfinal⟩ | ⟨rfl, hnot⟩
  · have hlast := hintact.last ht hfinal
    have hsame : (s₁.cspace x).cap = (s.cspace x).cap := by
      refine (hcap x).resolve_right fun hgone => ?_
      rw [hgone.2.table?] at ht
      cases ht
    have hempty : ∀ i, slotCount (s.cspace x).cap ≤ i → (s₁.cspace ⟨t, i⟩).cap = .null :=
      fun i hi => hnull (hintact.size x t i ht hi)
    by_cases hremovable : capRemovable (.zombie type (slotCount (s.cspace x).cap) t) x = some false
    · refine .zombie hremovable ht (hproceeds.trans ⟨?_, fun y hy => .inl ?_⟩)
      · refine Kept.toZombie hkept.ready (hlast₁ hlast) ?_ hempty ?_
        · rw [hsame, hsize]
        · rw [hsame]
          exact weight_zombie_le x type ht
      · rw [DeletionState.setCap, CSpace.cap_setCap, if_neg hy]
    · refine .removable ?_ fun t₁ hlast' => ⟨fun i => ?_, (hlast₁ hlast').2⟩
      · rw [capRemovable, Option.some_inj, Bool.not_eq_false] at hremovable
        rw [capRemovable, hremovable]
      · obtain rfl := Option.some.inj (ht.symm.trans hlast'.1)
        rw [capRemovable_zombie] at hremovable
        by_cases hi : slotCount (s.cspace x).cap ≤ i
        · exact .inl (hempty i hi)
        · -- one slot is left, and it is the one that is deleted
          have hzero : slotCount (s.cspace x).cap ≠ 0 := by omega
          have hone := not_not.mp fun hone => hremovable ⟨hzero, hone⟩
          have hi0 : i = 0 := by omega
          exact .inr (hi0 ▸ hone.2.symm)
  · refine .removable rfl fun t hlast => ?_
    rcases hnot with hno | ⟨hfinal, hobject⟩
    · have ht := hlast.1
      rw [hno] at ht
      cases ht
    · rcases hintact.final hlast with htrue | hnone
      · rw [hfinal] at htrue
        cases htrue
      · exact absurd hnone hobject

/-- What is so if a part of a deletion has been preempted. -/
def Preempted (F : Finset CtePtr) (s s' : DeletionState) : Prop :=
  work F s'.cspace < work F s.cspace ∧ ∃ n, s.isIRQPending n = true

lemma Kept.preempted (h : Kept F s s') (h' : Preempted F s' s'') : Preempted F s s'' := by
  obtain ⟨hlt, n, hn⟩ := h'
  exact ⟨hlt.trans_le h.le, n, h.pending ▸ hn⟩

/-- `reduceZombie` on a slot that is not exposed. -/
lemma reduceZombie_unexposed
    {delete : CtePtr → DeletionState → Option (DeletionStatus × DeletionState)} (h : Ready F s)
    (hx : (s.cspace x).cap = .zombie type n t) (hn : n ≠ 0) (hne : x ≠ ⟨t, 0⟩) :
    ∃ s', reduceZombieWith delete x false s = some (.exceptionNone, s') ∧ Proceeds F x s s' ∧
      work F s'.cspace < work F s.cspace := by
  obtain ⟨chains, hintact⟩ := h.intact
  have hlast := hintact.last_zombie hx
  let s₁ := { s with reduced := t :: s.reduced }
  have hkept₁ : Kept F s s₁ := .of_cspace_eq h rfl rfl rfl rfl
  obtain ⟨hkept₂, hlt⟩ := Kept.swap hkept₁.ready hx hn hne
  -- what is in the first slot is no zombie of this table
  have hcyclic : ¬ capCyclicZombie (s.cspace ⟨t, 0⟩).cap ⟨t, 0⟩ = true := by
    have hno := hlast.2 ⟨t, 0⟩ (Ne.symm hne)
    cases hzombie : (s.cspace ⟨t, 0⟩).cap with
    | zombie type₁ n₁ t₁ =>
        rw [hzombie] at hno
        rw [capCyclicZombie, decide_eq_true_iff]
        intro heq
        exact hno (congrArg some (CtePtr.mk.inj heq).1.symm)
    | _ => exact Bool.false_ne_true
  refine ⟨_, ?_, ⟨hkept₁.trans hkept₂, fun y hy => ?_⟩, hlt⟩
  · rw [reduceZombieWith, hx]
    dsimp only
    rw [if_neg hn, if_neg Bool.false_ne_true, if_neg hne, if_neg hcyclic]
  · have hcap := cap_capSwapForDelete (s := s.cspace) (a := ⟨t, 0⟩) (b := x)
      (Equiv.swap ⟨t, 0⟩ x y)
    rw [Equiv.swap_apply_self] at hcap
    by_cases hfirst : y = ⟨t, 0⟩
    · rw [hfirst, Equiv.swap_apply_left] at hcap
      refine .inr (.inr ⟨type, n, t, ?_, hfirst, hlast.2 y hy, hlt⟩)
      rw [hfirst]
      exact hcap.trans hx
    · rw [Equiv.swap_apply_of_ne_of_ne hfirst hy] at hcap
      exact .inl hcap

/-- **A slot that is not exposed**: with as many rounds as there is work, it can be emptied, or
keeps a zombie of the table that it is the first slot of. -/
lemma inner_spec (fuel : ℕ) (h : Ready F s) (hfuel : work F s.cspace < fuel) :
    ∃ r s', finaliseSlot fuel x false s = some (r, s') ∧ Proceeds F x s s' ∧
      (r.status = .exceptionNone → r.success = true ∨
        ∃ type n t, (s'.cspace x).cap = .zombie type n t ∧ x = ⟨t, 0⟩) ∧
      (r.status = .exceptionPreempted → Preempted F s s') := by
  -- on the fuel, with the work that is left as the bound: each round that goes on does some of it
  induction fuel generalizing s with
  | zero => cases hfuel
  | succ fuel ih =>
      rw [finaliseSlot]
      dsimp only
      by_cases hnull : (s.cspace x).cap = .null
      · rw [if_pos hnull]
        exact ⟨_, s, rfl, .refl h, fun _ => .inl rfl, fun hstatus => by cases hstatus⟩
      rw [if_neg hnull]
      obtain ⟨remainder, cleanupInfo, s₁, hfinalise, heffects, hproceeds, hfinalised⟩ :=
        finalised h x
      rw [hfinalise, heffects]
      dsimp only
      cases hfinalised with
      | removable hremovable =>
          rw [hremovable]
          exact ⟨_, s₁, rfl, hproceeds, fun _ => .inl rfl, fun hstatus => by cases hstatus⟩
      | @zombie type n t _ hremovable htable hproceeds₂ =>
          rw [hremovable]
          dsimp only
          have hzombie : ((s₁.setCap x (.zombie type n t)).cspace x).cap = .zombie type n t := by
            rw [DeletionState.setCap, CSpace.cap_setCap, if_pos rfl]
          obtain ⟨hn, -⟩ := capRemovable_zombie.mp hremovable
          -- a zombie in its own first slot ends an inner call
          by_cases hfirst : x = ⟨t, 0⟩
          · rw [if_pos (by rw [capCyclicZombie, decide_eq_true hfirst]; rfl)]
            exact ⟨_, _, rfl, hproceeds₂, fun _ => .inr ⟨type, n, t, hzombie, hfirst⟩,
              fun hstatus => by cases hstatus⟩
          · rw [if_neg (by rw [capCyclicZombie, decide_eq_false hfirst]; exact Bool.false_ne_true)]
            obtain ⟨s₃, hreduce, hproceeds₃, hlt⟩ :=
              reduceZombie_unexposed hproceeds₂.ready hzombie hn hfirst
            obtain ⟨status, s₄, hpoint, hkept₄, hcspace, hpending⟩ :=
              Kept.preemptionPoint hproceeds₃.ready
            have hproceeds₄ : Proceeds F x s s₄ :=
              (hproceeds₂.trans hproceeds₃).trans (hkept₄.proceeds hcspace)
            have hlt₄ : work F s₄.cspace < work F s.cspace := by
              rw [hcspace]
              exact hlt.trans_le hproceeds₂.le
            rw [reduceRound, hreduce]
            dsimp only
            rw [if_neg (not_not.mpr rfl), hpoint]
            cases status with
            | exceptionNone =>
                obtain ⟨r, s₅, hrun, hproceeds₅, hnone, hpreempted⟩ :=
                  ih hproceeds₄.ready (hlt₄.trans_le (Nat.le_of_lt_succ hfuel))
                exact ⟨r, s₅, hrun, hproceeds₄.trans hproceeds₅, hnone, fun hstatus =>
                  hproceeds₄.preempted (hpreempted hstatus)⟩
            | exceptionPreempted =>
                obtain ⟨m, hm⟩ := hpending rfl
                refine ⟨_, s₄, rfl, hproceeds₄, fun hstatus => ?_, fun _ => ⟨hlt₄, m, ?_⟩⟩
                · cases hstatus
                rw [← (hproceeds₂.trans hproceeds₃).pending]
                exact hm

/-- The slot is emptied, or keeps a zombie. -/
lemma cteDelete_unexposed {fuel : ℕ} (h : Ready F s) (hfuel : work F s.cspace < fuel)
    (x : CtePtr) : ∃ status s', cteDeleteWith (finaliseSlot fuel) x false s = some (status, s') ∧
      Proceeds F x s s' ∧
      (status = .exceptionNone → (s'.cspace x).cap = .null ∨
        ∃ type n t, (s'.cspace x).cap = .zombie type n t ∧ x = ⟨t, 0⟩) ∧
      (status = .exceptionPreempted → Preempted F s s') := by
  obtain ⟨r, s₁, hrun, hproceeds, hnone, hpreempted⟩ := inner_spec (x := x) fuel h hfuel
  rw [cteDeleteWith, hrun]
  dsimp only
  by_cases hstatus : r.status = .exceptionNone
  · rw [if_neg (not_not.mpr hstatus)]
    by_cases hsuccess : r.success = true
    · rw [if_pos (.inr hsuccess)]
      refine ⟨_, _, rfl, hproceeds.trans ⟨.emptySlot hproceeds.ready x, fun y hy => .inl ?_⟩,
        fun _ => .inl ?_, fun hstatus' => by cases hstatus'⟩
      · change (emptySlot x s₁.cspace y).cap = _
        rw [cap_emptySlot, if_neg hy]
      · change (emptySlot x s₁.cspace x).cap = _
        rw [cap_emptySlot, if_pos rfl]
    · rw [if_neg (by simp [hsuccess])]
      exact ⟨_, s₁, rfl, hproceeds, fun _ => .inr ((hnone hstatus).resolve_left hsuccess),
        fun hstatus' => by cases hstatus'⟩
  · rw [if_pos hstatus]
    exact ⟨r.status, s₁, rfl, hproceeds, fun hstatus' => absurd hstatus' hstatus, hpreempted⟩

/-- The table of a slot had a cap, and has no more than zombies. -/
def Lost (t : ℕ) (c c' : CSpace) : Prop := Known t c ∧ Dead t c'

lemma Kept.lost (h : Kept F s s') (hlost : Lost t s'.cspace s''.cspace) :
    Lost t s.cspace s''.cspace :=
  ⟨h.known t hlost.1, hlost.2⟩

lemma Lost.kept (hlost : Lost t s.cspace s'.cspace) (h : Kept F s' s'') :
    Lost t s.cspace s''.cspace :=
  ⟨hlost.1, h.dead t hlost.2⟩

/-- `reduceZombie` on a slot that is exposed. -/
lemma reduceZombie_exposed (fuel : ℕ) (h : Ready F s)
    (hx : (s.cspace x).cap = .zombie type n t) (hn : n ≠ 0) (hmore : ¬ (n = 1 ∧ x = ⟨t, 0⟩))
    (hfuel : work F s.cspace < fuel) :
    ∃ status s', reduceZombieWith
        (fun endSlot => cteDeleteWith (finaliseSlot fuel) endSlot false) x true s =
          some (status, s') ∧ Kept F s s' ∧
      (Last t x s'.cspace ∨ Lost x.table s.cspace s'.cspace) ∧
      (status = .exceptionNone →
        (s'.cspace x).cap = .null ∨ work F s'.cspace < work F s.cspace) ∧
      (status = .exceptionPreempted → Preempted F s s') := by
  obtain ⟨chains, hintact⟩ := h.intact
  have hlast := hintact.last_zombie hx
  let s₁ := { s with reduced := t :: s.reduced }
  have hkept₁ : Kept F s s₁ := .of_cspace_eq h rfl rfl rfl rfl
  obtain ⟨status, s₂, hrun, hproceeds, hnone, hpreempted⟩ :=
    cteDelete_unexposed hkept₁.ready hfuel ⟨t, n - 1⟩
  have hkept₂ : Kept F s s₂ := hkept₁.trans hproceeds.toKept
  obtain ⟨chains₂, hintact₂⟩ := hkept₂.ready.intact
  have hwith : reduceZombieWith
      (fun endSlot => cteDeleteWith (finaliseSlot fuel) endSlot false) x true s =
        if status ≠ .exceptionNone then some (status, s₂) else settleZombie x type n t s₂ := by
    rw [reduceZombieWith, hx]
    dsimp only
    rw [if_neg hn, if_pos rfl, hrun]
  by_cases hend : x = ⟨t, n - 1⟩
  · -- the zombie is in the last slot of its own table, and is moved out of the slot
    have hlost : Lost x.table s.cspace s₂.cspace := by
      rw [hend]
      exact ⟨⟨x, hlast.1⟩, hkept₂.dead t (hlast.dead hx)⟩
    by_cases hstatus : status = .exceptionNone
    · have hnull : (s₂.cspace x).cap = .null := by
        rcases hnone hstatus with hnull | ⟨type₁, n₁, t₁, -, hfirst⟩
        · rw [hend]
          exact hnull
        · obtain ⟨rfl, hzero⟩ := CtePtr.mk.inj hfirst
          exact absurd ⟨by omega, hend.trans hfirst⟩ hmore
      refine ⟨.exceptionNone, s₂, ?_, hkept₂, .inr hlost, fun _ => .inl hnull,
        fun hpre => by cases hpre⟩
      rw [hwith, if_neg (not_not.mpr hstatus), settleZombie, hnull]
    · refine ⟨status, s₂, ?_, hkept₂, .inr hlost, fun hnot => absurd hnot hstatus, hpreempted⟩
      rw [hwith, if_pos hstatus]
  · rcases hproceeds.moved x hend with
      hsame | ⟨-, hno⟩ | ⟨type₂, n₂, t₂, hzombie, hfirst, hother, hlt⟩
    · -- the zombie is still there
      have hzombie : (s₂.cspace x).cap = .zombie type n t := hsame.trans hx
      have hlast₂ := hintact₂.last_zombie hzombie
      by_cases hstatus : status = .exceptionNone
      · have hnull : (s₂.cspace ⟨t, n - 1⟩).cap = .null := by
          refine (hnone hstatus).resolve_right ?_
          rintro ⟨type₁, n₁, t₁, hzombie₁, hfirst⟩
          obtain ⟨rfl, -⟩ := CtePtr.mk.inj hfirst
          refine hlast₂.2 _ (fun heq => hend heq.symm) ?_
          rw [hzombie₁]
          rfl
        obtain ⟨hkept₃, hlast₃, hlt⟩ := Kept.decrement hkept₂.ready hzombie hn hnull
        refine ⟨.exceptionNone, _, ?_, hkept₂.trans hkept₃, .inl hlast₃,
          fun _ => .inr (hlt.trans_le hkept₂.le), fun hpre => by cases hpre⟩
        rw [hwith, if_neg (not_not.mpr hstatus), settleZombie, hzombie]
        dsimp only
        rw [if_pos ⟨rfl, rfl, rfl⟩, if_pos hnull]
      · refine ⟨status, s₂, ?_, hkept₂, .inl hlast₂, fun hnot => absurd hnot hstatus, hpreempted⟩
        rw [hwith, if_pos hstatus]
    · change (s.cspace x).cap.table? = none at hno
      rw [hx] at hno
      cases hno
    · -- a zombie of the table that the slot is the first one of has come to the slot
      have hne : t ≠ t₂ := by
        rintro rfl
        refine hother ?_
        change (s.cspace x).cap.table? = some t
        exact hlast.1
      have hlast₂ := hintact₂.last_zombie hzombie
      have hlost : Lost x.table s.cspace s₂.cspace := by
        rw [hfirst]
        exact ⟨hkept₂.known t₂ ⟨x, hlast₂.1⟩, hlast₂.dead hzombie⟩
      by_cases hstatus : status = .exceptionNone
      · refine ⟨.exceptionNone, s₂, ?_, hkept₂, .inr hlost, fun _ => .inr hlt,
          fun hpre => by cases hpre⟩
        rw [hwith, if_neg (not_not.mpr hstatus), settleZombie, hzombie]
        dsimp only
        have hout : x ≠ ⟨t, 0⟩ := fun heq => hne (CtePtr.mk.inj (heq.symm.trans hfirst)).1
        rw [if_neg fun heq => hne heq.1, if_pos ⟨hfirst, hout⟩]
      · refine ⟨status, s₂, ?_, hkept₂, .inr hlost, fun hnot => absurd hnot hstatus, hpreempted⟩
        rw [hwith, if_pos hstatus]

/-- What a deletion does to the slots of an object whose last cap is in the slot. They are empty
then, unless the table that the slot is in has lost its last cap; and at most zombies are left
for the object. -/
structure Emptied (x : CtePtr) (s s' : DeletionState) : Prop where
  slots : ∀ t, Last t x s.cspace →
    (∀ i, (s'.cspace ⟨t, i⟩).cap = .null ∨ (⟨t, i⟩ : CtePtr) = x) ∨ Lost x.table s.cspace s'.cspace
  others : ∀ t, Last t x s.cspace → ∀ y, y ≠ x → (s'.cspace y).cap.table? = some t →
    ∃ type n, (s'.cspace y).cap = .zombie type n t

/-- What is left to do after a preemption. -/
structure Remaining (x : CtePtr) (s s' : DeletionState) : Prop where
  last : ∀ t, Last t x s.cspace → Last t x s'.cspace ∨ Lost x.table s.cspace s'.cspace
  dead : ∀ t, Last t x s.cspace → Dead t s'.cspace

/-- A deletion that is continued empties what the first one should. -/
lemma Emptied.of_remaining (hkept : Kept F s s') (h : Remaining x s s') (hkept' : Kept F s' s'')
    (h' : Emptied x s' s'') : Emptied x s s'' := by
  refine ⟨fun t ht => ?_, fun t ht y _ hy => hkept'.dead t (h.dead t ht) y hy⟩
  rcases h.last t ht with hlast | hlost
  · exact (h'.slots t hlast).imp_right hkept.lost
  · exact .inr (hlost.kept hkept')

lemma Remaining.trans (hkept : Kept F s s') (h : Remaining x s s') (hkept' : Kept F s' s'')
    (h' : Remaining x s' s'') : Remaining x s s'' := by
  refine ⟨fun t ht => ?_, fun t ht => hkept'.dead t (h.dead t ht)⟩
  rcases h.last t ht with hlast | hlost
  · exact (h'.last t hlast).imp_right hkept.lost
  · exact .inr (hlost.kept hkept')

/-- The rounds that a slot that is exposed may still need. -/
def todo (F : Finset CtePtr) (x : CtePtr) (s : DeletionState) : ℕ :=
  if (s.cspace x).cap = .null then 0 else work F s.cspace + 1

lemma todo_le (x : CtePtr) (s : DeletionState) : todo F x s ≤ work F s.cspace + 1 := by
  rw [todo]
  split_ifs
  · exact Nat.zero_le _
  · exact le_rfl

/-- **A slot that is exposed**: with more rounds than it may need, it can be emptied, and the
object that its cap is the last one for is empty; or the deletion is preempted, and needs fewer
rounds then. -/
lemma outer_spec (fuel : ℕ) (h : Ready F s) (hfuel : todo F x s < fuel) :
    ∃ r s', finaliseSlot fuel x true s = some (r, s') ∧ Kept F s s' ∧
      (r.status = .exceptionNone → Emptied x s s') ∧
      (r.status = .exceptionPreempted → Remaining x s s' ∧ todo F x s' < todo F x s ∧
        ∃ n, s.isIRQPending n = true) := by
  -- on the fuel again, the bound being one more than the work as long as the slot is not empty
  induction fuel generalizing s with
  | zero => cases hfuel
  | succ fuel ih =>
      rw [finaliseSlot]
      dsimp only
      by_cases hnull : (s.cspace x).cap = .null
      · rw [if_pos hnull]
        have hno : ∀ t, ¬ Last t x s.cspace := fun t hlast => table?_ne_null hlast.1 hnull
        exact ⟨_, s, rfl, .refl h,
          fun _ => ⟨fun t ht => absurd ht (hno t), fun t ht => absurd ht (hno t)⟩,
          fun hstatus => by cases hstatus⟩
      rw [if_neg hnull]
      have htodo : todo F x s = work F s.cspace + 1 := if_neg hnull
      obtain ⟨remainder, cleanupInfo, s₁, hfinalise, heffects, hproceeds, hfinalised⟩ :=
        finalised h x
      rw [hfinalise, heffects]
      dsimp only
      cases hfinalised with
      | removable hremovable hlast =>
          rw [hremovable]
          exact ⟨_, s₁, rfl, hproceeds.toKept,
            fun _ => ⟨fun t ht => .inl (hlast t ht).1, fun t ht y hy hyt =>
              absurd hyt ((hlast t ht).2 y hy)⟩, fun hstatus => by cases hstatus⟩
      | @zombie type n t _ hremovable htable hproceeds₂ =>
          rw [hremovable]
          dsimp only
          have hkept₂ := hproceeds₂.toKept
          have hle₂ := hkept₂.le
          have hzombie : ((s₁.setCap x (.zombie type n t)).cspace x).cap = .zombie type n t := by
            rw [DeletionState.setCap, CSpace.cap_setCap, if_pos rfl]
          obtain ⟨chains, hintact⟩ := hkept₂.ready.intact
          have hlast₂ := hintact.last_zombie hzombie
          have hremaining₂ : Remaining x s (s₁.setCap x (.zombie type n t)) := by
            refine ⟨fun t₁ ht => .inl ?_, fun t₁ ht => ?_⟩
            · obtain rfl := Option.some.inj (htable.symm.trans ht.1)
              exact hlast₂
            · obtain rfl := Option.some.inj (htable.symm.trans ht.1)
              exact hlast₂.dead hzombie
          obtain ⟨hn, hmore⟩ := capRemovable_zombie.mp hremovable
          obtain ⟨status, s₃, hreduce, hkept₃, hlast₃, hnone, hpreempted⟩ :=
            reduceZombie_exposed fuel hkept₂.ready hzombie hn hmore (by omega)
          have hremaining₃ : Remaining x s s₃ := by
            refine hremaining₂.trans hkept₂ hkept₃ ⟨fun t₁ ht => ?_, fun t₁ ht => ?_⟩
            · obtain rfl := Option.some.inj (hlast₂.1.symm.trans ht.1)
              exact hlast₃
            · obtain rfl := Option.some.inj (hlast₂.1.symm.trans ht.1)
              exact hkept₃.dead t (hlast₂.dead hzombie)
          rw [Bool.not_true, Bool.false_and, if_neg Bool.false_ne_true, reduceRound, hreduce]
          dsimp only
          by_cases hstatus : status = .exceptionNone
          · rw [if_neg (not_not.mpr hstatus)]
            obtain ⟨status₄, s₄, hpoint, hkept₄, hcspace, hpending⟩ :=
              Kept.preemptionPoint hkept₃.ready
            have hkept : Kept F s s₄ := (hkept₂.trans hkept₃).trans hkept₄
            have hremaining₄ : Remaining x s s₄ := by
              refine ⟨fun t₁ ht => ?_, fun t₁ ht => ?_⟩
              · rw [hcspace]
                exact hremaining₃.last t₁ ht
              · rw [hcspace]
                exact hremaining₃.dead t₁ ht
            have hless : todo F x s₄ < todo F x s := by
              rw [htodo, todo, hcspace]
              split_ifs with hnull₃
              · omega
              · have hlt := (hnone hstatus).resolve_left hnull₃
                omega
            rw [hpoint]
            cases status₄ with
            | exceptionNone =>
                obtain ⟨r, s₅, hrun, hkept₅, hemptied, hrest⟩ :=
                  ih hkept.ready (hless.trans_le (Nat.le_of_lt_succ hfuel))
                refine ⟨r, s₅, hrun, hkept.trans hkept₅, fun hr => ?_, fun hr => ?_⟩
                · exact .of_remaining hkept hremaining₄ hkept₅ (hemptied hr)
                · obtain ⟨hremaining₅, hless₅, m, hm⟩ := hrest hr
                  exact ⟨hremaining₄.trans hkept hkept₅ hremaining₅, hless₅.trans hless, m,
                    hkept.pending ▸ hm⟩
            | exceptionPreempted =>
                obtain ⟨m, hm⟩ := hpending rfl
                refine ⟨_, s₄, rfl, hkept, fun hr => ?_, fun _ => ⟨hremaining₄, hless, m, ?_⟩⟩
                · cases hr
                · rw [← (hkept₂.trans hkept₃).pending]
                  exact hm
          · rw [if_pos hstatus]
            refine ⟨_, s₃, rfl, hkept₂.trans hkept₃, fun hr => absurd hr hstatus, fun hr => ?_⟩
            obtain ⟨hlt, m, hm⟩ := hpreempted hr
            refine ⟨hremaining₃, ?_, m, hkept₂.pending ▸ hm⟩
            have hle := todo_le (F := F) x s₃
            omega

/-- What is so after a deletion has returned. -/
structure Deleted (slot : CtePtr) (s s' : DeletionState) : Prop where
  intact : ∃ chains, Intact s'.cspace s'.blockedOnReply s'.intStateIRQNode chains
  slot_null : (s'.cspace slot).cap = .null
  /-- The object that the cap was the last one for is empty, unless the table that the slot is in
  has lost its last cap. -/
  object : ∀ t, Last t slot s.cspace →
    (∀ i, (s'.cspace ⟨t, i⟩).cap = .null) ∨ Lost slot.table s.cspace s'.cspace
  dead : ∀ t, Last t slot s.cspace → Dead t s'.cspace

lemma cteDelete_spec {fuel : ℕ} (h : Ready F s) (hfuel : todo F x s < fuel) :
    ∃ status s', cteDelete fuel x true s = some (status, s') ∧ Kept F s s' ∧
      (status = .exceptionNone → Deleted x s s') ∧
      (status = .exceptionPreempted → Remaining x s s' ∧ todo F x s' < todo F x s ∧
        ∃ n, s.isIRQPending n = true) := by
  obtain ⟨r, s₁, hrun, hkept, hemptied, hpreempted⟩ := outer_spec fuel h hfuel
  rw [cteDelete, cteDeleteWith, hrun]
  dsimp only
  by_cases hstatus : r.status = .exceptionNone
  · rw [if_neg (not_not.mpr hstatus), if_pos (.inl rfl)]
    have hkept₁ := Kept.emptySlot hkept.ready x
    refine ⟨_, _, rfl, hkept.trans hkept₁, fun _ => ?_, fun hpre => by cases hpre⟩
    obtain ⟨hslots, hothers⟩ := hemptied hstatus
    have hcap : ∀ y, (emptySlot x s₁.cspace y).cap = if y = x then .null else (s₁.cspace y).cap :=
      fun y => cap_emptySlot
    refine ⟨hkept₁.ready.intact, ?_, fun t ht => ?_, fun t ht y hy => ?_⟩
    · change (emptySlot x s₁.cspace x).cap = _
      rw [hcap, if_pos rfl]
    · refine (hslots t ht).imp (fun hnull i => ?_) fun hlost => hlost.kept hkept₁
      change (emptySlot x s₁.cspace ⟨t, i⟩).cap = _
      rw [hcap]
      split_ifs with hix
      · rfl
      · exact (hnull i).resolve_right hix
    · change (emptySlot x s₁.cspace y).cap.table? = _ at hy
      change ∃ type n, (emptySlot x s₁.cspace y).cap = _
      rw [hcap] at hy ⊢
      split_ifs at hy ⊢ with hyx
      · cases hy
      · exact hothers t ht y hyx hy
  · rw [if_pos hstatus]
    exact ⟨_, s₁, rfl, hkept, fun hnot => absurd hnot hstatus, hpreempted⟩

/-- A deletion that is called again after each preemption, so many times at most. -/
def deleteAgain (fuel : ℕ) (slot : CtePtr) :
    ℕ → DeletionState → Option (DeletionStatus × DeletionState)
  | 0, _ => none
  | calls + 1, s =>
      match cteDelete fuel slot true s with
      | some (.exceptionPreempted, s) => deleteAgain fuel slot calls s
      | result => result

lemma Deleted.of_remaining (hkept : Kept F s s') (h : Remaining x s s') (hkept' : Kept F s' s'')
    (h' : Deleted x s' s'') : Deleted x s s'' := by
  refine ⟨h'.intact, h'.slot_null, fun t ht => ?_, fun t ht => hkept'.dead t (h.dead t ht)⟩
  rcases h.last t ht with hlast | hlost
  · exact (h'.object t hlast).imp_right hkept.lost
  · exact .inr (hlost.kept hkept')

/-- Deletions that are preempted come to an end. -/
lemma deleteAgain_spec {fuel : ℕ} (calls : ℕ) (h : Ready F s) (hfuel : todo F x s < fuel)
    (hcalls : todo F x s < calls) :
    ∃ s', deleteAgain fuel x calls s = some (.exceptionNone, s') ∧ Kept F s s' ∧
      Deleted x s s' := by
  induction calls generalizing s with
  | zero => cases hcalls
  | succ calls ih =>
      obtain ⟨status, s₁, hrun, hkept, hdeleted, hpreempted⟩ := cteDelete_spec h hfuel
      rw [deleteAgain, hrun]
      cases status with
      | exceptionNone => exact ⟨s₁, rfl, hkept, hdeleted rfl⟩
      | exceptionPreempted =>
          obtain ⟨hremaining, hless, -⟩ := hpreempted rfl
          obtain ⟨s₂, hagain, hkept₂, hdeleted₂⟩ := ih hkept.ready (hless.trans hfuel)
            (hless.trans_le (Nat.le_of_lt_succ hcalls))
          exact ⟨s₂, hagain, hkept.trans hkept₂, hdeleted₂.of_remaining hkept hremaining hkept₂⟩

/-- There are places for all caps of a graph. -/
lemma exists_ready {chains : List (List CtePtr)}
    (h : Intact s.cspace s.blockedOnReply s.intStateIRQNode chains) : ∃ F, Ready F s := by
  let first := fun x => (s.cspace x).cap.table?.map fun t => (⟨t, 0⟩ : CtePtr)
  refine ⟨chains.flatten.toFinset ∪ (chains.flatten.filterMap first).toFinset, ⟨chains, h⟩,
    fun x hx => ?_, fun x t ht => ?_⟩
  · exact Finset.mem_union_left _ (List.mem_toFinset.mpr ((h.mem_iff x).mpr hx))
  · have hx := (h.mem_iff x).mpr (table?_ne_null ht)
    refine Finset.mem_union_right _ (List.mem_toFinset.mpr (List.mem_filterMap.mpr ⟨x, hx, ?_⟩))
    change Option.map _ _ = _
    rw [ht]
    rfl

/-- **Deletion ends**: in every graph of caps there is a number of rounds with which `cteDelete`
returns, without a failure or an assertion that does not hold. If it is not preempted, which it
is not as long as no interrupt is pending, the slot is empty, and so is the object that its cap
was the last one for, unless the table that the slot is in lost its last cap with it. Calls
that are repeated after preemptions come to the same. -/
theorem cteDelete_terminates {chains : List (List CtePtr)} (slot : CtePtr)
    (h : Intact s.cspace s.blockedOnReply s.intStateIRQNode chains) :
    ∃ bound, ∀ fuel, bound ≤ fuel →
      (∃ status s', cteDelete fuel slot true s = some (status, s') ∧
        Kernel.cteDelete fuel slot true s = some (status, s') ∧
        ((∀ n, s.isIRQPending n = false) → status = .exceptionNone) ∧
        (status = .exceptionNone → Deleted slot s s')) ∧
      ∃ s', deleteAgain fuel slot bound s = some (.exceptionNone, s') ∧ Deleted slot s s' := by
  obtain ⟨F, hready⟩ := exists_ready h
  refine ⟨todo F slot s + 1, fun fuel hfuel => ⟨?_, ?_⟩⟩
  · obtain ⟨status, s', hrun, -, hdeleted, hpreempted⟩ := cteDelete_spec hready hfuel
    refine ⟨status, s', hrun, cteDelete_eq hrun, fun hno => ?_, hdeleted⟩
    cases status with
    | exceptionNone => rfl
    | exceptionPreempted =>
        obtain ⟨-, -, n, hn⟩ := hpreempted rfl
        rw [hno] at hn
        cases hn
  · obtain ⟨s', hrun, -, hdeleted⟩ :=
      deleteAgain_spec (todo F slot s + 1) hready hfuel (Nat.lt_succ_self _)
    exact ⟨s', hrun, hdeleted⟩

/-- Two caps for CNodes of two slots. -/
lemma intact_pairCSpace {p q : CtePtr} {t u : ℕ} (hne : p ≠ q) (htu : t ≠ u)
    (hp : p.index < 2) (hq : q.index < 2) (hpIrq : p.table ≠ 0x9000) (hqIrq : q.table ≠ 0x9000)
    (ht : t ≠ 0x9000) (hu : u ≠ 0x9000) :
    Intact (pairCSpace p q (.cnode 1 0 0 t) (.cnode 1 0 0 u)) (fun _ => false) 0x9000 [[p, q]] := by
  have hcap : ∀ x, (pairCSpace p q (.cnode 1 0 0 t) (.cnode 1 0 0 u) x).cap =
      if x = q then .cnode 1 0 0 u else if x = p then .cnode 1 0 0 t else .null := by
    intro x
    rw [pairCSpace, Function.update_apply, Function.update_apply]
    split_ifs
    · rfl
    · rfl
    · rfl
  have hnull : ∀ {x}, x ≠ q → x ≠ p →
      (pairCSpace p q (.cnode 1 0 0 t) (.cnode 1 0 0 u) x).cap = .null := by
    intro x hxq hxp
    rw [hcap, if_neg hxq, if_neg hxp]
  have hend : ∀ t' i, 2 ≤ i →
      (pairCSpace p q (.cnode 1 0 0 t) (.cnode 1 0 0 u) ⟨t', i⟩).cap = .null := by
    intro t' i hi
    refine hnull ?_ ?_
    · rintro rfl
      exact absurd hq (Nat.not_lt.mpr hi)
    · rintro rfl
      exact absurd hp (Nat.not_lt.mpr hi)
  have htable : ∀ {x t'},
      (pairCSpace p q (.cnode 1 0 0 t) (.cnode 1 0 0 u) x).cap.table? = some t' →
        x = q ∧ t' = u ∨ x = p ∧ t' = t := by
    intro x t' hx
    rw [hcap] at hx
    split_ifs at hx with hxq hxp
    · exact .inl ⟨hxq, (Option.some.inj hx).symm⟩
    · exact .inr ⟨hxp, (Option.some.inj hx).symm⟩
    · cases hx
  -- the two slots lie in tables that no cap designates, which decides every field
  refine ⟨wellFormed_pairCSpace hne Cap.noConfusion Cap.noConfusion, fun x y t' hx hy => ?_,
    fun x t' i hx hi => ?_, fun t' ht' => ?_, fun i => ?_, fun x hx => ?_⟩
  · rcases htable hx with ⟨rfl, rfl⟩ | ⟨rfl, rfl⟩
    · rcases htable hy with ⟨rfl, -⟩ | ⟨-, heq⟩
      · exact .inl rfl
      · exact absurd heq.symm htu
    · rcases htable hy with ⟨-, heq⟩ | ⟨rfl, -⟩
      · exact absurd heq htu
      · exact .inl rfl
  · refine hend t' i ?_
    rw [hcap] at hx hi
    split_ifs at hx hi
    · exact hi
    · exact hi
    · cases hx
  · cases ht'
  · rw [hnull (fun heq => hqIrq (heq ▸ rfl)) (fun heq => hpIrq (heq ▸ rfl))]
    rfl
  · rcases htable hx with ⟨-, heq⟩ | ⟨-, heq⟩
    · exact hu heq.symm
    · exact ht heq.symm

/-- Two CNodes with caps for each other. -/
theorem cteDelete_terminates_cycle : ∃ bound, ∀ fuel, bound ≤ fuel →
    ∃ s', cteDelete fuel ⟨0x4000, 1⟩ true (revoking
      (pairCSpace ⟨0x4000, 1⟩ ⟨0x8000, 1⟩ (.cnode 1 0 0 0x8000) (.cnode 1 0 0 0x4000))) =
        some (.exceptionNone, s') := by
  obtain ⟨bound, hbound⟩ := cteDelete_terminates (s := revoking
      (pairCSpace ⟨0x4000, 1⟩ ⟨0x8000, 1⟩ (.cnode 1 0 0 0x8000) (.cnode 1 0 0 0x4000))) ⟨0x4000, 1⟩
    (intact_pairCSpace (by decide) (by decide) (by decide) (by decide) (by decide) (by decide)
      (by decide) (by decide))
  refine ⟨bound, fun fuel hfuel => ?_⟩
  obtain ⟨⟨status, s', hrun, -, hnone, -⟩, -⟩ := hbound fuel hfuel
  obtain rfl := hnone fun _ => rfl
  exact ⟨s', hrun⟩

/-- **What may be left**: if each of two CNodes has its last cap in the other one, the first to be
deleted keeps a zombie of its own. -/
theorem cteDelete_leaves_zombie :
    ¬ ∀ (fuel : ℕ) (slot : CtePtr) (t : ℕ) (s s' : DeletionState) (chains : List (List CtePtr)),
      Intact s.cspace s.blockedOnReply s.intStateIRQNode chains → Last t slot s.cspace →
      (∀ n, s.isIRQPending n = false) → cteDelete fuel slot true s = some (.exceptionNone, s') →
      ∀ i, (s'.cspace ⟨t, i⟩).cap = .null := by
  intro hclaim
  have hsome : ((cteDelete 8 ⟨0x8000, 0⟩ true (revoking (pairCSpace ⟨0x8000, 0⟩ ⟨0x4000, 1⟩
      (.cnode 1 0 0 0x4000) (.cnode 1 0 0 0x8000)))).map
        fun r => (r.1, (r.2.cspace ⟨0x4000, 0⟩).cap)) =
          some (.exceptionNone, .zombie (.cnode 1) 2 0x4000) := by
    decide +kernel
  obtain ⟨⟨status, s'⟩, hrun, heq⟩ := Option.map_eq_some_iff.mp hsome
  obtain ⟨rfl, hzombie⟩ := Prod.mk.inj heq
  have hintact := intact_pairCSpace (p := ⟨0x8000, 0⟩) (q := ⟨0x4000, 1⟩) (t := 0x4000)
    (u := 0x8000) (by decide) (by decide) (by decide) (by decide) (by decide) (by decide)
    (by decide) (by decide)
  have hlast : Last 0x4000 ⟨0x8000, 0⟩ (pairCSpace ⟨0x8000, 0⟩ ⟨0x4000, 1⟩ (.cnode 1 0 0 0x4000)
      (.cnode 1 0 0 0x8000)) :=
    hintact.last rfl (.inl (by decide))
  have hnull := hclaim 8 ⟨0x8000, 0⟩ 0x4000 _ s' _ hintact hlast (fun _ => rfl) hrun 0
  rw [hzombie] at hnull
  cases hnull

end States

end Kernel.Deletion
