import Sel4Test.Kernel.Lookup

/-!
The order of the derivation list, on which `isMDBParentOf` and `isFinalCapability` of
`object/cnode.c` rely.

* `WellFormed`: between a cap and its children there are only caps in its region, and between
  two caps for one object only caps for the object.
* `Descendant`: a cap that comes later, with nothing but children on the way.
* `WellFormed.isFinalCapability_iff`: what the comparison with the two neighbours is worth.
* `WellFormed.emptySlot`, `WellFormed.capSwapForDelete`, `WellFormed.toZombie`: the writes of
  a deletion keep the order.
* `Evolved`: a state after such writes, compared with one before them.
-/

namespace Kernel

open Chains

/-! ### Well-formed lists -/

/-- The list is in order. -/
structure WellFormed (s : CSpace) (chains : List (List CtePtr)) : Prop extends Rep s chains where
  region : ∀ a b c, Before chains a b → Before chains b c →
    isMDBParentOf (s a) (s c) → Cap.sameRegionAs (s a).cap (s b).cap
  together : ∀ a c, a ≠ c → Cap.sameObjectAs (s a).cap (s c).cap →
    Before chains a c ∨ Before chains c a
  between : ∀ a b c, Before chains a b → Before chains b c →
    Cap.sameObjectAs (s a).cap (s c).cap → Cap.sameObjectAs (s a).cap (s b).cap

/-- A cap that comes later and is a child, as is everything on the way to it. -/
structure Descendant (s : CSpace) (chains : List (List CtePtr)) (a b : CtePtr) : Prop where
  before : Before chains a b
  child : isMDBParentOf (s a) (s b)
  between : ∀ x, Before chains a x → Before chains x b → isMDBParentOf (s a) (s x)

/-- Two caps are for one object. -/
lemma sameObjectAs_iff {a b : Cap} :
    Cap.sameObjectAs a b ↔ ∃ o, a.object? = some o ∧ b.object? = some o := by
  rw [Cap.sameObjectAs_eq]
  cases ha : a.object? with
  | none => simp [Cap.sameObject]
  | some o =>
      cases hb : b.object? with
      | none => simp [Cap.sameObject]
      | some o' => simp [Cap.sameObject, eq_comm]

/-- What `isFinalCapability` looks at. -/
lemma isFinalCapability_eq_true {s : CSpace} {x : CtePtr} :
    isFinalCapability x s = true ↔
      (∀ p, (s.node x).mdbPrev = some p → ¬ Cap.sameObjectAs (s p).cap (s x).cap) ∧
        ∀ n, (s.node x).mdbNext = some n → ¬ Cap.sameObjectAs (s x).cap (s n).cap := by
  rw [isFinalCapability, CSpace.cteMDBNode_eq]
  rcases hprev : (s.node x).mdbPrev with _ | p <;> rcases hnext : (s.node x).mdbNext with _ | n <;>
    simp

section Order

variable {s : CSpace} {chains : List (List CtePtr)} {a b x y : CtePtr} {o : Cap.Object}

/-- **Final caps**: the cap of an object is final exactly if no other slot holds a cap for
the object. -/
lemma WellFormed.isFinalCapability_iff (h : WellFormed s chains) (hx : (s x).cap.object? = some o) :
    isFinalCapability x s = true ↔ ∀ y, y ≠ x → (s y).cap.object? ≠ some o := by
  rw [isFinalCapability_eq_true]
  constructor
  · rintro ⟨hprev, hnext⟩ y hne hy
    rcases h.together y x hne (sameObjectAs_iff.mpr ⟨o, hy, hx⟩) with hbefore | hbefore
    · obtain ⟨p, hadj, hp⟩ := hbefore.prev
      refine hprev p ((h.links.prev_iff p x).mpr hadj) ?_
      rcases hp with rfl | hp
      · exact sameObjectAs_iff.mpr ⟨o, hy, hx⟩
      · have hsame := h.between y p x hp hadj.before (sameObjectAs_iff.mpr ⟨o, hy, hx⟩)
        obtain ⟨o', hy', hp'⟩ := sameObjectAs_iff.mp hsame
        rw [hy] at hy'
        exact sameObjectAs_iff.mpr ⟨o, hy' ▸ hp', hx⟩
    · obtain ⟨n, hadj, hn⟩ := hbefore.next
      refine hnext n ((h.links.next_iff x n).mpr hadj) ?_
      rcases hn with rfl | hn
      · exact sameObjectAs_iff.mpr ⟨o, hx, hy⟩
      · exact h.between x n y hadj.before hn (sameObjectAs_iff.mpr ⟨o, hx, hy⟩)
  · intro hunique
    constructor
    · intro p hp hsame
      obtain ⟨o', hp', hx'⟩ := sameObjectAs_iff.mp hsame
      rw [hx] at hx'
      have hne : p ≠ x := ((h.links.prev_iff p x).mp hp).ne h.links.nodup
      exact hunique p hne (hp'.trans hx'.symm)
    · intro n hn hsame
      obtain ⟨o', hx', hn'⟩ := sameObjectAs_iff.mp hsame
      rw [hx] at hx'
      have hne : n ≠ x := (((h.links.next_iff x n).mp hn).ne h.links.nodup).symm
      exact hunique n hne (hn'.trans hx'.symm)

/-- A cap without a child right behind it has no descendants. -/
lemma WellFormed.no_descendants (h : WellFormed s chains)
    (hnext : ∀ n, (s.node a).mdbNext = some n → ¬ isMDBParentOf (s a) (s n)) :
    ¬ Descendant s chains a b := by
  rintro ⟨hbefore, hparent, hbetween⟩
  obtain ⟨n, hadj, hn⟩ := hbefore.next
  refine hnext n ((h.links.next_iff a n).mpr hadj) ?_
  rcases hn with rfl | hn
  · exact hparent
  · exact hbetween n hadj.before hn

/-- Only slots with a cap are in the list. -/
lemma Rep.ne_null_left (h : Rep s chains) (hbefore : Before chains a b) : (s a).cap ≠ .null :=
  (h.mem_iff a).mp hbefore.mem_left

lemma Rep.ne_null_right (h : Rep s chains) (hbefore : Before chains a b) : (s b).cap ≠ .null :=
  (h.mem_iff b).mp hbefore.mem_right

end Order

/-! ### What makes a child -/

namespace Cap

/-- The child is in the region of the parent, and has its badge if there is one. -/
def childCap (capA capB : Cap) : Bool :=
  sameRegionAs capA capB &&
    match capA, capB with
    | endpoint badge _ _ _ _ _, endpoint badgeB _ _ _ _ _ => badge = 0 || badge = badgeB
    | notification badge _ _ _, notification badgeB _ _ _ => badge = 0 || badge = badgeB
    | _, _ => true

/-- A first badged cap is no child. -/
def firstBadgedStops : Cap → Bool
  | endpoint badge _ _ _ _ _ => badge ≠ 0
  | notification badge _ _ _ => badge ≠ 0
  | sgiSignal .. => true
  | _ => false

/-- The table of the slots that a cap is for, or that is left of it. -/
def table? : Cap → Option ℕ
  | cnode _ _ _ ptr | zombie _ _ ptr => some ptr
  | thread tcb => some tcb
  | _ => none

/-- An untyped cap. -/
def isUntyped : Cap → Bool
  | untyped .. => true
  | _ => false

/-- What a deletion may leave: the cap, or a zombie for its slots. -/
inductive Residue : Cap → Cap → Prop
  | same (c : Cap) : Residue c c
  | zombie {c : Cap} {type : ZombieType} {n ptr : ℕ} (htable : c.table? = some ptr)
      (hsize : (Cap.zombie type n ptr).capSizeBits = c.capSizeBits) :
      Residue (.zombie type n ptr) c

variable {a c : Cap} {type : ZombieType} {n ptr : ℕ}

/-- The untyped caps among those in whose region the cap is. -/
lemma sameRegionAs_zombie (htable : c.table? = some ptr)
    (hsize : (Cap.zombie type n ptr).capSizeBits = c.capSizeBits) :
    sameRegionAs a (.zombie type n ptr) = (a.isUntyped && sameRegionAs a c) := by
  cases a with
  | untyped =>
      cases c with
      | cnode | thread | zombie =>
          obtain rfl := Option.some.inj htable
          simp only [sameRegionAs, isUntyped, capIsPhysical, capPtr, hsize]
          rfl
      | _ => cases htable
  | _ => rfl

/-- The others are for the same object. -/
lemma isUntyped_or_sameObjectAs (htable : c.table? = some ptr) (h : sameRegionAs a c) :
    a.isUntyped ∨ sameObjectAs a c := by
  cases c with
  | cnode | thread | zombie =>
      cases a <;> simp_all [sameRegionAs, isUntyped, sameObjectAs, isArchCap]
  | _ => cases htable

lemma sameRegionAs_of_childCap {b : Cap} (h : childCap a b) : sameRegionAs a b :=
  (Bool.and_eq_true _ _ ▸ h).1

/-- Where badges do not count, a cap in the region is a child. -/
lemma childCap_of_sameRegionAs {b : Cap} (hstops : a.firstBadgedStops = false)
    (h : sameRegionAs a b) : childCap a b := by
  unfold childCap
  rw [h, Bool.true_and]
  cases a with
  | endpoint badge =>
      obtain rfl : badge = 0 := by simpa [firstBadgedStops] using hstops
      cases b <;> simp
  | notification badge =>
      obtain rfl : badge = 0 := by simpa [firstBadgedStops] using hstops
      cases b <;> simp
  | _ => rfl

/-- Caps for CNodes and threads have no badges. -/
lemma childCap_eq_of_table (htable : c.table? = some ptr) : childCap a c = sameRegionAs a c := by
  cases c with
  | cnode | thread | zombie => cases a <;> simp [childCap]
  | _ => cases htable

/-- The parents of a zombie are the untyped caps among those of the cap. -/
lemma childCap_zombie (htable : c.table? = some ptr)
    (hsize : (Cap.zombie type n ptr).capSizeBits = c.capSizeBits) :
    childCap a (.zombie type n ptr) = (a.isUntyped && childCap a c) := by
  rw [childCap_eq_of_table htable, childCap_eq_of_table rfl, sameRegionAs_zombie htable hsize]

/-- A zombie has no children. -/
lemma childCap_of_zombie : childCap (.zombie type n ptr) a = false := rfl

/-- What is a child now was one before. -/
lemma Residue.childCap {b : Cap} (h : Residue b c) (hchild : childCap a b) : childCap a c := by
  cases h with
  | same => exact hchild
  | zombie htable hsize =>
      rw [childCap_zombie htable hsize, Bool.and_eq_true] at hchild
      exact hchild.2

lemma Residue.trans_zombie {c₀ : Cap} (h : Residue c c₀) (htable : c.table? = some ptr)
    (hsize : (Cap.zombie type n ptr).capSizeBits = c.capSizeBits) :
    Residue (.zombie type n ptr) c₀ := by
  cases h with
  | same => exact .zombie htable hsize
  | zombie htable₀ hsize₀ =>
      obtain rfl := Option.some.inj htable
      exact .zombie htable₀ (hsize.trans hsize₀)

end Cap

/-- `isMDBParentOf` in three parts: the parent, the two caps, and the flag of the child. -/
lemma isMDBParentOf_eq (cteA cteB : Cte) :
    isMDBParentOf cteA cteB = (cteA.cteMDBNode.mdbRevocable && Cap.childCap cteA.cap cteB.cap &&
      !(Cap.firstBadgedStops cteA.cap && cteB.cteMDBNode.mdbFirstBadged)) := by
  obtain ⟨capA, nodeA⟩ := cteA
  obtain ⟨capB, nodeB⟩ := cteB
  rw [isMDBParentOf]
  cases nodeA.mdbRevocable with
  | false => rfl
  | true =>
      cases hregion : Cap.sameRegionAs capA capB with
      | false => simp [Cap.childCap, hregion]
      | true =>
          cases capA with
          | endpoint badge =>
              cases capB with
              | endpoint badgeB =>
                  rcases eq_or_ne badge 0 with rfl | hbadge
                  · simp [Cap.childCap, hregion, Cap.firstBadgedStops, archIsMDBParentOf]
                  · simp [Cap.childCap, hregion, Cap.firstBadgedStops, archIsMDBParentOf, hbadge]
              | _ => cases hregion
          | notification badge =>
              cases capB with
              | notification badgeB =>
                  rcases eq_or_ne badge 0 with rfl | hbadge
                  · simp [Cap.childCap, hregion, Cap.firstBadgedStops, archIsMDBParentOf]
                  · simp [Cap.childCap, hregion, Cap.firstBadgedStops, archIsMDBParentOf, hbadge]
              | _ => cases hregion
          | sgiSignal =>
              cases nodeB.mdbFirstBadged <;>
                simp [Cap.childCap, hregion, Cap.firstBadgedStops, archIsMDBParentOf]
          | _ => simp [Cap.childCap, hregion, Cap.firstBadgedStops, archIsMDBParentOf]

/-- Where badges do not count, what lies between a cap and its child is a child too. -/
lemma WellFormed.child_between {s : CSpace} {chains : List (List CtePtr)} {a b c : CtePtr}
    (h : WellFormed s chains) (hstops : Cap.firstBadgedStops (s a).cap = false)
    (hab : Before chains a b) (hbc : Before chains b c) (hac : isMDBParentOf (s a) (s c)) :
    isMDBParentOf (s a) (s b) := by
  have hchild := Cap.childCap_of_sameRegionAs hstops (h.region a b c hab hbc hac)
  rw [isMDBParentOf_eq] at hac ⊢
  rw [hstops, Bool.false_and, Bool.not_false, Bool.and_true, Bool.and_eq_true] at hac ⊢
  exact ⟨hac.1, hchild⟩

/-! ### Writes of a deletion -/

section Writes

variable {s s' : CSpace} {chains : List (List CtePtr)} {a b c x y : CtePtr}

/-- The flags after `emptySlot`: the next slot inherits the flag of the first badged. -/
lemma flags_emptySlot (h : Rep s chains) (hy : y ≠ x) :
    ((emptySlot x s).node y).mdbRevocable = (s.node y).mdbRevocable ∧
      ((emptySlot x s).node y).mdbFirstBadged = ((s.node y).mdbFirstBadged ||
        (decide ((s.node x).mdbNext = some y) && (s.node x).mdbFirstBadged)) := by
  by_cases hx : (s x).cap = .null
  · rw [emptySlot, if_pos hx, h.null x hx]
    simp [nullMDBNode]
  · simp only [emptySlot, if_neg hx, CSpace.cteMDBNode_eq, CSpace.node_whenSome_setFirstBadged,
      CSpace.node_whenSome_setPrev, CSpace.node_whenSome_setNext, CSpace.node_setNode,
      CSpace.node_setCap, if_neg hy]
    exact ⟨trivial, trivial⟩

/-- A child after `emptySlot` was one before. -/
lemma isMDBParentOf_of_emptySlot (h : Rep s chains) (ha : a ≠ x) (hb : b ≠ x)
    (hparent : isMDBParentOf (emptySlot x s a) (emptySlot x s b)) :
    isMDBParentOf (s a) (s b) := by
  rw [isMDBParentOf_eq] at hparent ⊢
  simp only [CSpace.cteMDBNode_eq, (flags_emptySlot h ha).1, (flags_emptySlot h hb).2,
    cap_emptySlot, if_neg ha, if_neg hb] at hparent ⊢
  cases hflag : (s.node b).mdbFirstBadged with
  | false =>
      rw [Bool.and_false, Bool.not_false, Bool.and_true]
      exact (Bool.and_eq_true _ _ ▸ hparent).1
  | true =>
      rw [hflag, Bool.true_or] at hparent
      exact hparent

/-- A removal keeps the list in order. -/
lemma WellFormed.emptySlot (h : WellFormed s chains) :
    WellFormed (emptySlot x s) (remove x chains) := by
  have hrep := rep_emptySlot (b := x) h.toRep
  have hne : ∀ {y}, (Kernel.emptySlot x s y).cap ≠ .null → y ≠ x := by
    rintro y hy rfl
    exact hy (by rw [cap_emptySlot, if_pos rfl])
  have hback : ∀ {y z}, Before (remove x chains) y z → y ≠ x ∧ z ≠ x ∧ Before chains y z := by
    intro y z hbefore
    have hy := hne (hrep.ne_null_left hbefore)
    have hz := hne (hrep.ne_null_right hbefore)
    exact ⟨hy, hz, (before_remove hy hz).mp hbefore⟩
  have hsame : ∀ {y z}, Cap.sameObjectAs (Kernel.emptySlot x s y).cap (Kernel.emptySlot x s z).cap →
      y ≠ x ∧ z ≠ x ∧ Cap.sameObjectAs (s y).cap (s z).cap := by
    intro y z hyz
    obtain ⟨o, hy, hz⟩ := sameObjectAs_iff.mp hyz
    have hyx := hne fun hnull => by rw [hnull] at hy; cases hy
    have hzx := hne fun hnull => by rw [hnull] at hz; cases hz
    rw [cap_emptySlot, cap_emptySlot, if_neg hyx, if_neg hzx] at hyz
    exact ⟨hyx, hzx, hyz⟩
  refine ⟨hrep, ?_, ?_, ?_⟩
  · intro a b c hab hbc hac
    obtain ⟨ha, hb, hab⟩ := hback hab
    obtain ⟨-, hc, hbc⟩ := hback hbc
    rw [cap_emptySlot, cap_emptySlot, if_neg ha, if_neg hb]
    exact h.region a b c hab hbc (isMDBParentOf_of_emptySlot h.toRep ha hc hac)
  · intro a c hne hac
    obtain ⟨ha, hc, hac⟩ := hsame hac
    rw [before_remove ha hc, before_remove hc ha]
    exact h.together a c hne hac
  · intro a b c hab hbc hac
    obtain ⟨ha, hb, hab⟩ := hback hab
    obtain ⟨-, hc, hbc⟩ := hback hbc
    obtain ⟨-, -, hac⟩ := hsame hac
    rw [cap_emptySlot, cap_emptySlot, if_neg ha, if_neg hb]
    exact h.between a b c hab hbc hac

/-- Slots that have changed places with their caps and flags. -/
lemma WellFormed.rename (h : WellFormed s chains) (e : Equiv.Perm CtePtr)
    (hnode : ∀ x, s'.node (e x) = (s.node x).rename e) (hcap : ∀ x, (s' (e x)).cap = (s x).cap) :
    WellFormed s' (rename e chains) := by
  have hparent : ∀ a b, isMDBParentOf (s' (e a)) (s' (e b)) = isMDBParentOf (s a) (s b) := by
    intro a b
    rw [isMDBParentOf_eq, isMDBParentOf_eq, CSpace.cteMDBNode_eq, CSpace.cteMDBNode_eq, hnode, hnode,
      hcap, hcap]
    rfl
  refine ⟨h.toRep.rename e hnode fun x => by rw [hcap], ?_, ?_, ?_⟩
  · intro a b c hab hbc
    obtain ⟨a, rfl⟩ := e.surjective a
    obtain ⟨b, rfl⟩ := e.surjective b
    obtain ⟨c, rfl⟩ := e.surjective c
    rw [hparent, hcap, hcap]
    exact h.region a b c (before_rename_iff.mp hab) (before_rename_iff.mp hbc)
  · intro a c hne
    obtain ⟨a, rfl⟩ := e.surjective a
    obtain ⟨c, rfl⟩ := e.surjective c
    rw [hcap, hcap, before_rename_iff, before_rename_iff]
    exact h.together a c fun heq => hne (congrArg e heq)
  · intro a b c hab hbc
    obtain ⟨a, rfl⟩ := e.surjective a
    obtain ⟨b, rfl⟩ := e.surjective b
    obtain ⟨c, rfl⟩ := e.surjective c
    rw [hcap, hcap, hcap]
    exact h.between a b c (before_rename_iff.mp hab) (before_rename_iff.mp hbc)

lemma node_capSwapForDelete (h : Rep s chains) (x : CtePtr) :
    (capSwapForDelete a b s).node (Equiv.swap a b x) = (s.node x).rename (Equiv.swap a b) := by
  rw [capSwapForDelete]
  split_ifs with hab
  · rw [hab, Equiv.swap_self, MdbNode.rename]
    simp
  · exact node_cteSwap h hab _ _ x

lemma cap_capSwapForDelete (x : CtePtr) :
    (capSwapForDelete a b s (Equiv.swap a b x)).cap = (s x).cap := by
  rw [capSwapForDelete]
  split_ifs with hab
  · rw [hab, Equiv.swap_self, Equiv.refl_apply]
  · rw [cap_cteSwap _ _ hab]
    rcases eq_or_ne x a with rfl | hxa
    · rw [Equiv.swap_apply_left, if_neg (Ne.symm hab), if_pos rfl]
    · rcases eq_or_ne x b with rfl | hxb
      · rw [Equiv.swap_apply_right, if_pos rfl]
      · rw [Equiv.swap_apply_of_ne_of_ne hxa hxb, if_neg hxa, if_neg hxb]

/-- A swap keeps the list in order. -/
lemma WellFormed.capSwapForDelete (h : WellFormed s chains) :
    WellFormed (capSwapForDelete a b s) (Chains.rename (Equiv.swap a b) chains) :=
  h.rename _ (node_capSwapForDelete h.toRep) cap_capSwapForDelete

variable {type : ZombieType} {n ptr : ℕ}

/-- So does a zombie in the place of the last cap for its object. -/
lemma WellFormed.toZombie (h : WellFormed s chains) (htable : (s x).cap.table? = some ptr)
    (hsize : (Cap.zombie type n ptr).capSizeBits = (s x).cap.capSizeBits)
    (hlast : ∀ y, y ≠ x → ¬ Cap.sameObjectAs (s y).cap (s x).cap) :
    WellFormed (s.setCap x (.zombie type n ptr)) chains := by
  have hnull : (s x).cap ≠ .null := fun hnull => by rw [hnull] at htable; cases htable
  have hcap : ∀ y, (s.setCap x (.zombie type n ptr) y).cap =
      if y = x then .zombie type n ptr else (s y).cap := fun y => CSpace.cap_setCap
  have hregion : ∀ a, a ≠ x →
      Cap.sameRegionAs (s a).cap (.zombie type n ptr) = Cap.sameRegionAs (s a).cap (s x).cap := by
    intro a ha
    rw [Cap.sameRegionAs_zombie htable hsize]
    cases hc : Cap.sameRegionAs (s a).cap (s x).cap with
    | false => rw [Bool.and_false]
    | true =>
        have huntyped := (Cap.isUntyped_or_sameObjectAs htable hc).resolve_right (hlast a ha)
        rw [huntyped, Bool.and_self]
  -- a zombie is below the same caps as the cap it replaces, so all other parents stay
  have hparent : ∀ a, a ≠ x → ∀ b, isMDBParentOf (s.setCap x (.zombie type n ptr) a)
      (s.setCap x (.zombie type n ptr) b) = isMDBParentOf (s a) (s b) := by
    intro a ha b
    rw [isMDBParentOf_eq, isMDBParentOf_eq, CSpace.cteMDBNode_eq, CSpace.cteMDBNode_eq,
      CSpace.node_setCap, CSpace.node_setCap, hcap, hcap, if_neg ha]
    by_cases hb : b = x
    · subst hb
      have hchild : Cap.childCap (s a).cap (.zombie type n ptr) =
          Cap.childCap (s a).cap (s b).cap := by
        rw [Cap.childCap_eq_of_table htable, Cap.childCap_eq_of_table rfl, hregion a ha]
      rw [if_pos rfl, hchild]
      rfl
    · rw [if_neg hb]
      rfl
  have hobject : ∀ {a b}, Cap.sameObjectAs (s.setCap x (.zombie type n ptr) a).cap
      (s.setCap x (.zombie type n ptr) b).cap →
        a ≠ x ∧ b ≠ x ∧ Cap.sameObjectAs (s a).cap (s b).cap := by
    intro a b hab
    obtain ⟨o, ha, hb⟩ := sameObjectAs_iff.mp hab
    rw [hcap] at ha hb
    by_cases hax : a = x
    · rw [if_pos hax] at ha
      cases ha
    · by_cases hbx : b = x
      · rw [if_pos hbx] at hb
        cases hb
      · rw [if_neg hax] at ha
        rw [if_neg hbx] at hb
        exact ⟨hax, hbx, sameObjectAs_iff.mpr ⟨o, ha, hb⟩⟩
  refine ⟨⟨?_, ?_, ?_⟩, ?_, ?_, ?_⟩
  · simp only [CSpace.node_setCap]
    exact h.links
  · intro p
    rw [h.mem_iff, hcap]
    split_ifs with hp
    · subst hp
      exact iff_of_true hnull nofun
    · rfl
  · intro p hp
    rw [hcap] at hp
    split_ifs at hp
    rw [CSpace.node_setCap]
    exact h.null p hp
  · intro a b c hab hbc hac
    by_cases ha : a = x
    · rw [isMDBParentOf_eq, hcap, if_pos ha, Cap.childCap_of_zombie] at hac
      simp at hac
    · rw [hparent a ha] at hac
      have hab' := h.region a b c hab hbc hac
      rw [hcap, hcap, if_neg ha]
      split_ifs with hb
      · rw [hregion a ha, ← hb]
        exact hab'
      · exact hab'
  · intro a c hne hac
    exact h.together a c hne (hobject hac).2.2
  · intro a b c hab hbc hac
    obtain ⟨ha, -, hac⟩ := hobject hac
    have hsame := h.between a b c hab hbc hac
    have hb : b ≠ x := by
      rintro rfl
      exact hlast a ha hsame
    rw [hcap, hcap, if_neg ha, if_neg hb]
    exact hsame

end Writes

/-! ### States after such writes -/

/-- The state comes from an earlier one by removals, changes of place and zombies; `origin`
says where what is in a slot was then. -/
structure Evolved (s₀ : CSpace) (chains₀ : List (List CtePtr)) (origin : CtePtr → CtePtr)
    (s : CSpace) (chains : List (List CtePtr)) : Prop where
  before : ∀ a b, (s a).cap ≠ .null → (s b).cap ≠ .null →
    (Before chains a b ↔ Before chains₀ (origin a) (origin b))
  residue : ∀ a, (s a).cap ≠ .null → Cap.Residue (s a).cap (s₀ (origin a)).cap
  revocable : ∀ a, (s a).cap ≠ .null →
    (s.node a).mdbRevocable = (s₀.node (origin a)).mdbRevocable
  firstBadged : ∀ a, (s a).cap ≠ .null → (s₀.node (origin a)).mdbFirstBadged →
    (s.node a).mdbFirstBadged

namespace Evolved

variable {s₀ s s' : CSpace} {chains₀ chains : List (List CtePtr)} {origin : CtePtr → CtePtr}
  {a b x : CtePtr}

lemma refl : Evolved s chains id s chains :=
  ⟨fun _ _ _ _ => Iff.rfl, fun _ _ => .same _, fun _ _ => rfl, fun _ _ h => h⟩

/-- A child of a cap that is as it was has been a child before. -/
lemma child (h : Evolved s₀ chains₀ origin s chains) (ha : (s a).cap ≠ .null)
    (hb : (s b).cap ≠ .null) (hsame : (s a).cap = (s₀ (origin a)).cap)
    (hparent : isMDBParentOf (s a) (s b)) :
    isMDBParentOf (s₀ (origin a)) (s₀ (origin b)) := by
  rw [isMDBParentOf_eq] at hparent ⊢
  simp only [CSpace.cteMDBNode_eq, Bool.and_eq_true, Bool.not_eq_true', Bool.and_eq_false_iff]
    at hparent ⊢
  obtain ⟨⟨hrevocable, hchild⟩, hflag⟩ := hparent
  rw [hsame] at hchild hflag
  refine ⟨⟨?_, (h.residue b hb).childCap hchild⟩, hflag.imp_right fun hflag => ?_⟩
  · rw [← h.revocable a ha, hrevocable]
  · by_contra hfirst
    rw [h.firstBadged b hb (by simpa using hfirst)] at hflag
    cases hflag

lemma emptySlot (h : Evolved s₀ chains₀ origin s chains) (hrep : Rep s chains) :
    Evolved s₀ chains₀ origin (Kernel.emptySlot x s) (remove x chains) := by
  have hne : ∀ {y}, (Kernel.emptySlot x s y).cap ≠ .null → y ≠ x ∧ (s y).cap ≠ .null := by
    intro y hy
    rw [cap_emptySlot] at hy
    split_ifs at hy with hyx
    · exact absurd rfl hy
    · exact ⟨hyx, hy⟩
  refine ⟨fun a b ha hb => ?_, fun a ha => ?_, fun a ha => ?_, fun a ha hflag => ?_⟩
  · obtain ⟨hax, ha⟩ := hne ha
    obtain ⟨hbx, hb⟩ := hne hb
    rw [before_remove hax hbx]
    exact h.before a b ha hb
  · obtain ⟨hax, ha⟩ := hne ha
    rw [cap_emptySlot, if_neg hax]
    exact h.residue a ha
  · obtain ⟨hax, ha⟩ := hne ha
    rw [(flags_emptySlot hrep hax).1]
    exact h.revocable a ha
  · obtain ⟨hax, ha⟩ := hne ha
    rw [(flags_emptySlot hrep hax).2, h.firstBadged a ha hflag, Bool.true_or]

lemma capSwapForDelete (h : Evolved s₀ chains₀ origin s chains) (hrep : Rep s chains) :
    Evolved s₀ chains₀ (origin ∘ Equiv.swap a b) (Kernel.capSwapForDelete a b s)
      (rename (Equiv.swap a b) chains) := by
  refine ⟨fun x y hx hy => ?_, fun x hx => ?_, fun x hx => ?_, fun x hx hflag => ?_⟩
  · obtain ⟨x, rfl⟩ := (Equiv.swap a b).surjective x
    obtain ⟨y, rfl⟩ := (Equiv.swap a b).surjective y
    rw [cap_capSwapForDelete] at hx hy
    rw [Function.comp_apply, Function.comp_apply, Equiv.swap_apply_self, Equiv.swap_apply_self,
      before_rename_iff]
    exact h.before x y hx hy
  all_goals
    obtain ⟨x, rfl⟩ := (Equiv.swap a b).surjective x
    rw [cap_capSwapForDelete] at hx
  · rw [cap_capSwapForDelete, Function.comp_apply, Equiv.swap_apply_self]
    exact h.residue x hx
  · rw [node_capSwapForDelete hrep, Function.comp_apply, Equiv.swap_apply_self]
    exact h.revocable x hx
  · rw [Function.comp_apply, Equiv.swap_apply_self] at hflag
    rw [node_capSwapForDelete hrep]
    exact h.firstBadged x hx hflag

lemma toZombie {type : ZombieType} {n ptr : ℕ} (h : Evolved s₀ chains₀ origin s chains)
    (htable : (s x).cap.table? = some ptr)
    (hsize : (Cap.zombie type n ptr).capSizeBits = (s x).cap.capSizeBits) :
    Evolved s₀ chains₀ origin (s.setCap x (.zombie type n ptr)) chains := by
  have hnull : (s x).cap ≠ .null := fun hnull => by rw [hnull] at htable; cases htable
  have hne : ∀ {y}, (s.setCap x (.zombie type n ptr) y).cap ≠ .null → (s y).cap ≠ .null := by
    intro y hy
    rw [CSpace.cap_setCap] at hy
    split_ifs at hy with hyx
    · exact hyx ▸ hnull
    · exact hy
  refine ⟨fun a b ha hb => h.before a b (hne ha) (hne hb), fun a ha => ?_, fun a ha => ?_,
    fun a ha hflag => ?_⟩
  · rw [CSpace.cap_setCap]
    split_ifs with hax
    · subst hax
      exact (h.residue a hnull).trans_zombie htable hsize
    · exact h.residue a (hne ha)
  · rw [CSpace.node_setCap]
    exact h.revocable a (hne ha)
  · rw [CSpace.node_setCap]
    exact h.firstBadged a (hne ha) hflag

end Evolved

end Kernel
