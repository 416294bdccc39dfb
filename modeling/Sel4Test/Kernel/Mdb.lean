import Sel4Test.Kernel.Cap
import Sel4Test.Lib.Chains
import Sel4Test.Lib.Exec

/-!
The capability derivation list, `object/cnode.c`.

Every slot has a node with the next and the previous slot of the list, and two flags. The
operations below write these fields one by one, in the order of the source.

A slot is given by the table it is in, a CNode or the CNode of a TCB, and its index. The
null pointer is `none`.

* `Rep`: the links of a state are those of some chains, which consist of the slots that
  hold a cap.
* `rep_cteInsert`, `node_cteMove`, `node_cteSwap`, `rep_emptySlot`: what writing the fields
  does to the chains.
* `mdb_run`: whole runs. Each operation changes the chains by one insertion, one renaming
  or one removal.
-/

namespace Kernel

open Chains

/-- `cte_t *`. -/
structure CtePtr where
  table : ℕ
  index : ℕ
  deriving DecidableEq, Repr

/-- `mdb_node_t`. -/
structure MdbNode where
  mdbNext : Option CtePtr
  mdbPrev : Option CtePtr
  mdbRevocable : Bool
  mdbFirstBadged : Bool
  deriving DecidableEq, Repr

/-- `nullMDBNode`. -/
def nullMDBNode : MdbNode := ⟨none, none, false, false⟩

/-- `cte_t`. -/
structure Cte where
  cap : Cap
  cteMDBNode : MdbNode
  deriving DecidableEq, Repr

/-- The slots of the system. -/
abbrev CSpace := CtePtr → Cte

namespace CSpace

variable (s : CSpace)

/-- `slot->cap = cap`. -/
def setCap (p : CtePtr) (cap : Cap) : CSpace := Function.update s p { s p with cap }

/-- `slot->cteMDBNode = node`. -/
def setNode (p : CtePtr) (node : MdbNode) : CSpace :=
  Function.update s p { s p with cteMDBNode := node }

/-- `mdb_node_ptr_set_mdbNext`. -/
def setNext (p : CtePtr) (next : Option CtePtr) : CSpace :=
  s.setNode p { (s p).cteMDBNode with mdbNext := next }

/-- `mdb_node_ptr_set_mdbPrev`. -/
def setPrev (p : CtePtr) (prev : Option CtePtr) : CSpace :=
  s.setNode p { (s p).cteMDBNode with mdbPrev := prev }

/-- `mdb_node_ptr_set_mdbFirstBadged`. -/
def setFirstBadged (p : CtePtr) (b : Bool) : CSpace :=
  s.setNode p { (s p).cteMDBNode with mdbFirstBadged := b }

/-- A field is only written if the pointer is not null. -/
def whenSome (p : Option CtePtr) (f : CSpace → CtePtr → CSpace) : CSpace :=
  match p with
  | none => s
  | some p => f s p

end CSpace

/-! ### The operations -/

/-- `setUntypedCapAsFull`. -/
def setUntypedCapAsFull (srcCap newCap : Cap) (srcSlot : CtePtr) (s : CSpace) : CSpace :=
  match srcCap, newCap with
  | .untyped _ _ srcBits srcPtr, .untyped _ _ newBits newPtr =>
      if srcPtr = newPtr ∧ newBits = srcBits then
        match (s srcSlot).cap with
        | .untyped _ isDevice bits ptr =>
            s.setCap srcSlot (.untyped (maxFreeIndex srcBits) isDevice bits ptr)
        | _ => s
      else s
  | _, _ => s

/-- `cteInsert`. -/
def cteInsert (newCap : Cap) (srcSlot destSlot : CtePtr) (s : CSpace) : CSpace :=
  let srcMDB := (s srcSlot).cteMDBNode
  let srcCap := (s srcSlot).cap
  let revocable := Cap.isCapRevocable newCap srcCap
  let newMDB : MdbNode := ⟨srcMDB.mdbNext, some srcSlot, revocable, revocable⟩
  let s := setUntypedCapAsFull srcCap newCap srcSlot s
  let s := (s.setCap destSlot newCap).setNode destSlot newMDB
  let s := s.setNext srcSlot (some destSlot)
  s.whenSome newMDB.mdbNext fun s next => s.setPrev next (some destSlot)

/-- `cteMove`. -/
def cteMove (newCap : Cap) (srcSlot destSlot : CtePtr) (s : CSpace) : CSpace :=
  let mdb := (s srcSlot).cteMDBNode
  let s := (s.setCap destSlot newCap).setCap srcSlot .null
  let s := (s.setNode destSlot mdb).setNode srcSlot nullMDBNode
  let s := s.whenSome mdb.mdbPrev fun s prev => s.setNext prev (some destSlot)
  s.whenSome mdb.mdbNext fun s next => s.setPrev next (some destSlot)

/-- `cteSwap`. -/
def cteSwap (cap1 : Cap) (slot1 : CtePtr) (cap2 : Cap) (slot2 : CtePtr) (s : CSpace) : CSpace :=
  let s := (s.setCap slot1 cap2).setCap slot2 cap1
  let mdb1 := (s slot1).cteMDBNode
  let s := s.whenSome mdb1.mdbPrev fun s prev => s.setNext prev (some slot2)
  let s := s.whenSome mdb1.mdbNext fun s next => s.setPrev next (some slot2)
  -- read after the neighbours of the first slot are written
  let mdb2 := (s slot2).cteMDBNode
  let s := (s.setNode slot1 mdb2).setNode slot2 mdb1
  let s := s.whenSome mdb2.mdbPrev fun s prev => s.setNext prev (some slot1)
  s.whenSome mdb2.mdbNext fun s next => s.setPrev next (some slot1)

/-- `capSwapForDelete`. -/
def capSwapForDelete (slot1 slot2 : CtePtr) (s : CSpace) : CSpace :=
  if slot1 = slot2 then s else cteSwap (s slot1).cap slot1 (s slot2).cap slot2 s

/-- `emptySlot`, less the cleanup of an interrupt handler, which touches no slot. -/
def emptySlot (slot : CtePtr) (s : CSpace) : CSpace :=
  if (s slot).cap = .null then s
  else
    let node := (s slot).cteMDBNode
    let s := s.whenSome node.mdbPrev fun s prev => s.setNext prev node.mdbNext
    let s := s.whenSome node.mdbNext fun s next => s.setPrev next node.mdbPrev
    let s := s.whenSome node.mdbNext fun s next =>
      s.setFirstBadged next ((s next).cteMDBNode.mdbFirstBadged || node.mdbFirstBadged)
    (s.setCap slot .null).setNode slot nullMDBNode

/-- `isFinalCapability`. -/
def isFinalCapability (cte : CtePtr) (s : CSpace) : Bool :=
  let mdb := (s cte).cteMDBNode
  let prevIsSameObject :=
    match mdb.mdbPrev with
    | none => false
    | some prev => Cap.sameObjectAs (s prev).cap (s cte).cap
  if prevIsSameObject then false
  else
    match mdb.mdbNext with
    | none => true
    | some next => !Cap.sameObjectAs (s cte).cap (s next).cap

/-- `tcbArchCNodeEntries`. -/
def tcbArchCNodeEntries : ℕ := 5

/-- `finaliseCap`, the remainder and the cleanup info that it returns; `none` if it fails.
What it does to threads, endpoints and address spaces is not part of the list. -/
def finaliseCap (cap : Cap) (final exposed : Bool) : Option (Cap × Cap) :=
  if cap.isArchCap then some (.null, .null)
  else
    match cap with
    | .endpoint .. | .notification .. | .reply .. | .null | .domain => some (.null, .null)
    | cap =>
        if exposed then none
        else
          match cap with
          | .cnode radix _ _ ptr =>
              if final then some (.zombie (.cnode radix) (2 ^ radix) ptr, .null)
              else some (.null, .null)
          | .thread tcb =>
              if final then some (.zombie .tcb tcbArchCNodeEntries tcb, .null)
              else some (.null, .null)
          | .zombie .. => some (cap, .null)
          | .irqHandler _ => if final then some (.null, cap) else some (.null, .null)
          | _ => some (.null, .null)

/-- `capRemovable`; `none` if it fails. -/
def capRemovable (cap : Cap) (slot : CtePtr) : Option Bool :=
  match cap with
  | .null => some true
  | .zombie _ n ptr => some (n = 0 ∨ n = 1 ∧ slot = ⟨ptr, 0⟩)
  | _ => none

/-- `cteDeleteOne`; `none` if `finaliseCap` or the assertion fails. -/
def cteDeleteOne (slot : CtePtr) (s : CSpace) : Option CSpace :=
  if (s slot).cap = .null then some s
  else
    match finaliseCap (s slot).cap (isFinalCapability slot s) true with
    | none => none
    | some (remainder, cleanupInfo) =>
        if capRemovable remainder slot = some true ∧ cleanupInfo = .null then
          some (emptySlot slot s)
        else none

/-- `insertNewCap`. -/
def insertNewCap (parent slot : CtePtr) (cap : Cap) (s : CSpace) : CSpace :=
  let next := (s parent).cteMDBNode.mdbNext
  let s := (s.setCap slot cap).setNode slot ⟨next, some parent, true, true⟩
  let s := s.whenSome next fun s next => s.setPrev next (some slot)
  s.setNext parent (some slot)

/-! ### Fields after a write -/

namespace CSpace

variable {s : CSpace} {p q : CtePtr} {cap : Cap} {n : MdbNode} {o o' : Option CtePtr} {b : Bool}

/-- The node of a slot. -/
def node (s : CSpace) (p : CtePtr) : MdbNode := (s p).cteMDBNode

lemma cteMDBNode_eq (s : CSpace) (p : CtePtr) : (s p).cteMDBNode = s.node p := rfl

@[simp] lemma cap_setCap : (s.setCap p cap q).cap = if q = p then cap else (s q).cap := by
  rw [setCap, Function.update_apply]
  split_ifs <;> rfl

@[simp] lemma node_setCap : (s.setCap p cap).node q = s.node q := by
  rw [node, setCap, Function.update_apply]
  split_ifs with h
  · rw [h]
    rfl
  · rfl

@[simp] lemma cap_setNode : (s.setNode p n q).cap = (s q).cap := by
  rw [setNode, Function.update_apply]
  split_ifs with h
  · rw [h]
  · rfl

@[simp] lemma node_setNode : (s.setNode p n).node q = if q = p then n else s.node q := by
  rw [node, setNode, Function.update_apply]
  split_ifs <;> rfl

@[simp] lemma cap_setNext : (s.setNext p o q).cap = (s q).cap := cap_setNode

@[simp] lemma node_setNext :
    (s.setNext p o).node q =
      { s.node q with mdbNext := if q = p then o else (s.node q).mdbNext } := by
  rw [setNext, node_setNode]
  split_ifs with h
  · rw [h]
    rfl
  · rfl

@[simp] lemma cap_setPrev : (s.setPrev p o q).cap = (s q).cap := cap_setNode

@[simp] lemma node_setPrev :
    (s.setPrev p o).node q =
      { s.node q with mdbPrev := if q = p then o else (s.node q).mdbPrev } := by
  rw [setPrev, node_setNode]
  split_ifs with h
  · rw [h]
    rfl
  · rfl

/-- A field of a neighbour, if there is one. -/
@[simp] lemma cap_whenSome_setNext :
    (s.whenSome o (fun s p => s.setNext p o') q).cap = (s q).cap := by
  cases o with
  | none => rfl
  | some p => exact cap_setNext

@[simp] lemma cap_whenSome_setPrev :
    (s.whenSome o (fun s p => s.setPrev p o') q).cap = (s q).cap := by
  cases o with
  | none => rfl
  | some p => exact cap_setPrev

@[simp] lemma node_whenSome_setNext :
    (s.whenSome o fun s p => s.setNext p o').node q =
      { s.node q with mdbNext := if o = some q then o' else (s.node q).mdbNext } := by
  cases o with
  | none => simp [whenSome]
  | some p => simp [whenSome, eq_comm]

@[simp] lemma node_whenSome_setPrev :
    (s.whenSome o fun s p => s.setPrev p o').node q =
      { s.node q with mdbPrev := if o = some q then o' else (s.node q).mdbPrev } := by
  cases o with
  | none => simp [whenSome]
  | some p => simp [whenSome, eq_comm]

/-- The flag of the next slot is gathered from its own and that of the slot. -/
@[simp] lemma cap_whenSome_setFirstBadged :
    (s.whenSome o (fun s p => s.setFirstBadged p ((s.node p).mdbFirstBadged || b)) q).cap =
      (s q).cap := by
  cases o with
  | none => rfl
  | some p => exact cap_setNode

@[simp] lemma node_whenSome_setFirstBadged :
    (s.whenSome o fun s p => s.setFirstBadged p ((s.node p).mdbFirstBadged || b)).node q =
      { s.node q with
        mdbFirstBadged := (s.node q).mdbFirstBadged || (decide (o = some q) && b) } := by
  cases o with
  | none => simp [whenSome]
  | some p =>
      simp only [whenSome, setFirstBadged, node_setNode]
      by_cases h : q = p
      · simp [h, node]
      · simp [h, Ne.symm h]

end CSpace

/-! ### The chains of a state -/

/-- The links of the state are those of the chains, which consist of the slots that hold a
cap; the other slots have the null node. -/
structure Rep (s : CSpace) (chains : List (List CtePtr)) : Prop where
  links : Links (fun p => (s.node p).mdbNext) (fun p => (s.node p).mdbPrev) chains
  mem_iff : ∀ p, p ∈ chains.flatten ↔ (s p).cap ≠ .null
  null : ∀ p, (s p).cap = .null → s.node p = nullMDBNode

section Rep

variable {s s' : CSpace} {chains : List (List CtePtr)} {a b x y : CtePtr}

/-- Next and previous are inverse to each other. -/
lemma Rep.next_iff_prev (h : Rep s chains) :
    (s.node a).mdbNext = some b ↔ (s.node b).mdbPrev = some a := by
  have hn := h.links.next_iff a b
  have hp := h.links.prev_iff a b
  exact hn.trans hp.symm

lemma Rep.next_ne (h : Rep s chains) : (s.node a).mdbNext ≠ some a := fun hself =>
  ((h.links.next_iff a a).mp hself).ne h.links.nodup rfl

lemma Rep.prev_ne (h : Rep s chains) : (s.node a).mdbPrev ≠ some a := fun hself =>
  h.next_ne (h.next_iff_prev.mpr hself)

/-- The names in a node. -/
def MdbNode.rename (e : Equiv.Perm CtePtr) (n : MdbNode) : MdbNode :=
  { n with mdbNext := n.mdbNext.map e, mdbPrev := n.mdbPrev.map e }

/-- Slots that have changed places, with their nodes. -/
lemma Rep.rename (h : Rep s chains) (e : Equiv.Perm CtePtr)
    (hnode : ∀ x, s'.node (e x) = (s.node x).rename e)
    (hcap : ∀ x, (s' (e x)).cap = .null ↔ (s x).cap = .null) : Rep s' (rename e chains) := by
  refine ⟨h.links.rename e (fun x => ?_) (fun x => ?_), fun p => ?_, fun p hp => ?_⟩
  · rw [hnode]
    rfl
  · rw [hnode]
    rfl
  · obtain ⟨x, rfl⟩ := e.surjective p
    rw [flatten_rename, Ne, hcap x, ← Ne, ← h.mem_iff]
    exact List.mem_map_of_injective e.injective
  · obtain ⟨x, rfl⟩ := e.surjective p
    rw [hnode, h.null x ((hcap x).mp hp)]
    rfl

/-- A swap on a pointer that may be null. -/
lemma map_swap (o : Option CtePtr) :
    o.map (Equiv.swap a b) = if o = some a then some b else if o = some b then some a else o := by
  cases o with
  | none => rfl
  | some c =>
      simp only [Option.map_some, Equiv.swap_apply_def, Option.some.injEq]
      split_ifs <;> rfl

/-- `cteSwap` exchanges two slots, whether they are neighbours or empty or neither. -/
lemma node_cteSwap (h : Rep s chains) (hne : a ≠ b) (cap1 cap2 : Cap) (x : CtePtr) :
    (cteSwap cap1 a cap2 b s).node (Equiv.swap a b x) = (s.node x).rename (Equiv.swap a b) := by
  -- how the two slots are linked to each other and to the third one
  have hab := h.next_iff_prev (a := a) (b := b)
  have hba := h.next_iff_prev (a := b) (b := a)
  have hax := h.next_iff_prev (a := a) (b := x)
  have hxa := h.next_iff_prev (a := x) (b := a)
  have hbx := h.next_iff_prev (a := b) (b := x)
  have hxb := h.next_iff_prev (a := x) (b := b)
  have na := h.next_ne (a := a)
  have nb := h.next_ne (a := b)
  have pa := h.prev_ne (a := a)
  have pb := h.prev_ne (a := b)
  simp only [cteSwap, CSpace.cteMDBNode_eq, CSpace.node_whenSome_setPrev,
    CSpace.node_whenSome_setNext, CSpace.node_setNode, CSpace.node_setCap, MdbNode.rename, map_swap]
  rcases eq_or_ne x a with rfl | hxa'
  · rw [Equiv.swap_apply_left]
    simp only [if_true, MdbNode.mk.injEq]
    grind
  · rcases eq_or_ne x b with rfl | hxb'
    · rw [Equiv.swap_apply_right]
      simp only [if_true, if_neg hne, MdbNode.mk.injEq]
      grind
    · rw [Equiv.swap_apply_of_ne_of_ne hxa' hxb']
      simp only [if_neg hxa', if_neg hxb', MdbNode.mk.injEq]
      grind

/-- The caps after `cteSwap`. -/
lemma cap_cteSwap (cap1 cap2 : Cap) (hne : a ≠ b) :
    (cteSwap cap1 a cap2 b s x).cap = if x = a then cap2 else if x = b then cap1 else (s x).cap := by
  simp only [cteSwap, CSpace.cap_whenSome_setPrev, CSpace.cap_whenSome_setNext,
    CSpace.cap_setNode, CSpace.cap_setCap]
  grind

/-- `cteMove` exchanges a slot with an empty one. -/
lemma node_cteMove (h : Rep s chains) (ha : (s a).cap ≠ .null) (hb : (s b).cap = .null)
    (newCap : Cap) (x : CtePtr) :
    (cteMove newCap a b s).node (Equiv.swap a b x) = (s.node x).rename (Equiv.swap a b) := by
  have hne : a ≠ b := fun heq => ha (heq ▸ hb)
  have hnull := h.null b hb
  have hax := h.next_iff_prev (a := a) (b := x)
  have hxa := h.next_iff_prev (a := x) (b := a)
  have hbx := h.next_iff_prev (a := b) (b := x)
  have hxb := h.next_iff_prev (a := x) (b := b)
  have hab := h.next_iff_prev (a := a) (b := b)
  have hba := h.next_iff_prev (a := b) (b := a)
  have na := h.next_ne (a := a)
  have pa := h.prev_ne (a := a)
  simp only [cteMove, CSpace.cteMDBNode_eq, CSpace.node_whenSome_setPrev,
    CSpace.node_whenSome_setNext, CSpace.node_setNode, CSpace.node_setCap, MdbNode.rename, map_swap]
  rcases eq_or_ne x a with rfl | hxa'
  · rw [Equiv.swap_apply_left]
    simp only [if_true, if_neg hne.symm, MdbNode.mk.injEq]
    grind [nullMDBNode]
  · rcases eq_or_ne x b with rfl | hxb'
    · rw [Equiv.swap_apply_right]
      simp only [if_true, MdbNode.mk.injEq]
      grind [nullMDBNode]
    · rw [Equiv.swap_apply_of_ne_of_ne hxa' hxb']
      simp only [if_neg hxa', if_neg hxb', MdbNode.mk.injEq]
      grind [nullMDBNode]

/-- The caps after `cteMove`. -/
lemma cap_cteMove (newCap : Cap) :
    (cteMove newCap a b s x).cap = if x = a then .null else if x = b then newCap else (s x).cap := by
  simp only [cteMove, CSpace.cap_whenSome_setPrev, CSpace.cap_whenSome_setNext,
    CSpace.cap_setNode, CSpace.cap_setCap]

/-- A fresh slot, linked behind one that is there. -/
lemma Rep.insertAfter (h : Rep s chains) (ha : (s a).cap ≠ .null) (hb : (s b).cap = .null)
    (hcap : ∀ x, (s' x).cap ≠ .null ↔ x = b ∨ (s x).cap ≠ .null)
    (hnext : ∀ x, (s'.node x).mdbNext = if x = a then some b
      else if x = b then (s.node a).mdbNext else (s.node x).mdbNext)
    (hprev : ∀ x, (s'.node x).mdbPrev = if x = b then some a
      else if (s.node x).mdbPrev = some a then some b else (s.node x).mdbPrev)
    (hsame : ∀ x, (s' x).cap = .null → s'.node x = s.node x) :
    Rep s' (insertAfter a b chains) := by
  have hmem := (h.mem_iff a).mpr ha
  have hfresh : b ∉ chains.flatten := fun hb' => (h.mem_iff b).mp hb' hb
  refine ⟨h.links.insertAfter hmem hfresh hnext hprev, fun x => ?_, fun x hx => ?_⟩
  · rw [(flatten_insertAfter_perm h.links.nodup hmem).mem_iff, List.mem_cons, h.mem_iff, hcap]
  · have hold : (s x).cap = .null := by
      by_contra hne
      exact (hcap x).mpr (.inr hne) hx
    rw [hsame x hx, h.null x hold]

/-- Which slots hold a cap is not changed when the untyped is filled up. -/
lemma cap_setUntypedCapAsFull (srcCap newCap : Cap) :
    (setUntypedCapAsFull srcCap newCap a s x).cap = .null ↔ (s x).cap = .null := by
  unfold setUntypedCapAsFull
  split
  · split_ifs
    · cases hcap : (s a).cap with
      | untyped =>
          rw [CSpace.cap_setCap]
          split_ifs with hx
          · simp [hx, hcap]
          · rfl
      | _ => rfl
    · rfl
  · rfl

lemma node_setUntypedCapAsFull (srcCap newCap : Cap) :
    (setUntypedCapAsFull srcCap newCap a s).node x = s.node x := by
  unfold setUntypedCapAsFull
  split
  · split_ifs
    · split
      · exact CSpace.node_setCap
      · rfl
    · rfl
  · rfl

/-- `cteInsert` puts the destination directly behind the source. -/
lemma rep_cteInsert (h : Rep s chains) {newCap : Cap} (hnew : newCap ≠ .null)
    (ha : (s a).cap ≠ .null) (hb : (s b).cap = .null) :
    Rep (cteInsert newCap a b s) (insertAfter a b chains) := by
  have hne : a ≠ b := fun heq => ha (heq ▸ hb)
  have hnull := h.null b hb
  refine h.insertAfter ha hb (fun x => ?_) (fun x => ?_) (fun x => ?_) (fun x hx => ?_)
  · simp only [cteInsert, CSpace.cap_whenSome_setPrev, CSpace.cap_setNext, CSpace.cap_setNode,
      CSpace.cap_setCap]
    split_ifs with hxb
    · simp [hxb, hnew]
    · simp [hxb, cap_setUntypedCapAsFull]
  · simp only [cteInsert, CSpace.cteMDBNode_eq, CSpace.node_whenSome_setPrev, CSpace.node_setNext,
      CSpace.node_setNode, CSpace.node_setCap, node_setUntypedCapAsFull]
    grind
  · have hax := h.next_iff_prev (a := a) (b := x)
    simp only [cteInsert, CSpace.cteMDBNode_eq, CSpace.node_whenSome_setPrev, CSpace.node_setNext,
      CSpace.node_setNode, CSpace.node_setCap, node_setUntypedCapAsFull]
    grind [nullMDBNode]
  · have hxb : x ≠ b := by
      rintro rfl
      simp [cteInsert, hnew] at hx
    have hx' : (s x).cap = .null := by
      simpa [cteInsert, hxb, cap_setUntypedCapAsFull] using hx
    have hxa : x ≠ a := fun heq => ha (heq ▸ hx')
    have hax := h.next_iff_prev (a := a) (b := x)
    rw [h.null x hx'] at hax ⊢
    simp only [cteInsert, CSpace.cteMDBNode_eq, CSpace.node_whenSome_setPrev, CSpace.node_setNext,
      CSpace.node_setNode, CSpace.node_setCap, node_setUntypedCapAsFull, h.null x hx']
    grind [nullMDBNode]

/-- `insertNewCap` puts the slot directly behind its parent. -/
lemma rep_insertNewCap (h : Rep s chains) {cap : Cap} (hnew : cap ≠ .null)
    (ha : (s a).cap ≠ .null) (hb : (s b).cap = .null) :
    Rep (insertNewCap a b cap s) (insertAfter a b chains) := by
  have hne : a ≠ b := fun heq => ha (heq ▸ hb)
  have hnull := h.null b hb
  have hab := h.next_iff_prev (a := a) (b := b)
  refine h.insertAfter ha hb (fun x => ?_) (fun x => ?_) (fun x => ?_) (fun x hx => ?_)
  · simp only [insertNewCap, CSpace.cap_setNext, CSpace.cap_whenSome_setPrev, CSpace.cap_setNode,
      CSpace.cap_setCap]
    split_ifs with hxb
    · simp [hxb, hnew]
    · simp [hxb]
  · simp only [insertNewCap, CSpace.cteMDBNode_eq, CSpace.node_whenSome_setPrev,
      CSpace.node_setNext, CSpace.node_setNode, CSpace.node_setCap]
    grind
  · have hax := h.next_iff_prev (a := a) (b := x)
    simp only [insertNewCap, CSpace.cteMDBNode_eq, CSpace.node_whenSome_setPrev,
      CSpace.node_setNext, CSpace.node_setNode, CSpace.node_setCap]
    grind [nullMDBNode]
  · have hxb : x ≠ b := by
      rintro rfl
      simp [insertNewCap, hnew] at hx
    have hx' : (s x).cap = .null := by simpa [insertNewCap, hxb] using hx
    have hxa : x ≠ a := fun heq => ha (heq ▸ hx')
    have hax := h.next_iff_prev (a := a) (b := x)
    rw [h.null x hx'] at hax
    simp only [insertNewCap, CSpace.cteMDBNode_eq, CSpace.node_whenSome_setPrev,
      CSpace.node_setNext, CSpace.node_setNode, CSpace.node_setCap, h.null x hx']
    grind [nullMDBNode]

/-- The caps after `emptySlot`. -/
lemma cap_emptySlot : (emptySlot b s x).cap = if x = b then .null else (s x).cap := by
  by_cases hb : (s b).cap = .null
  · rw [emptySlot, if_pos hb]
    split_ifs with hxb
    · rw [hxb, hb]
    · rfl
  · simp only [emptySlot, if_neg hb, CSpace.cteMDBNode_eq, CSpace.cap_setNode, CSpace.cap_setCap,
      CSpace.cap_whenSome_setFirstBadged, CSpace.cap_whenSome_setPrev, CSpace.cap_whenSome_setNext]

/-- `emptySlot` takes the slot out and links its neighbours to each other. -/
lemma rep_emptySlot (h : Rep s chains) : Rep (emptySlot b s) (remove b chains) := by
  have hbx := fun x => h.next_iff_prev (a := b) (b := x)
  have hxb := fun x => h.next_iff_prev (a := x) (b := b)
  have nb := h.next_ne (a := b)
  have pb := h.prev_ne (a := b)
  by_cases hb : (s b).cap = .null
  · have hout : b ∉ chains.flatten := fun hmem => (h.mem_iff b).mp hmem hb
    rw [remove_of_notMem hout, emptySlot, if_pos hb]
    exact h
  · refine ⟨h.links.remove (fun x => ?_) (fun x => ?_), fun x => ?_, fun x hx => ?_⟩
    · simp only [emptySlot, if_neg hb, CSpace.cteMDBNode_eq, CSpace.node_whenSome_setFirstBadged,
        CSpace.node_whenSome_setPrev, CSpace.node_whenSome_setNext, CSpace.node_setNode,
        CSpace.node_setCap]
      grind [nullMDBNode]
    · simp only [emptySlot, if_neg hb, CSpace.cteMDBNode_eq, CSpace.node_whenSome_setFirstBadged,
        CSpace.node_whenSome_setPrev, CSpace.node_whenSome_setNext, CSpace.node_setNode,
        CSpace.node_setCap]
      grind [nullMDBNode]
    · rw [flatten_remove, List.mem_filter, h.mem_iff, cap_emptySlot]
      by_cases hxb : x = b
      · simp [hxb]
      · simp [hxb]
    · rw [cap_emptySlot] at hx
      simp only [emptySlot, if_neg hb, CSpace.cteMDBNode_eq, CSpace.node_whenSome_setFirstBadged,
        CSpace.node_whenSome_setPrev, CSpace.node_whenSome_setNext, CSpace.node_setNode,
        CSpace.node_setCap]
      by_cases hxb : x = b
      · rw [if_pos hxb]
      · rw [if_neg hxb] at hx ⊢
        have hnull := h.null x hx
        grind [nullMDBNode]

end Rep

/-! ### Runs -/

/-- The operations on the list. -/
inductive MdbOp
  | cteInsert (newCap : Cap) (srcSlot destSlot : CtePtr)
  | cteMove (newCap : Cap) (srcSlot destSlot : CtePtr)
  | cteSwap (cap1 : Cap) (slot1 : CtePtr) (cap2 : Cap) (slot2 : CtePtr)
  | insertNewCap (parent slot : CtePtr) (cap : Cap)
  | emptySlot (slot : CtePtr)
  | cteDeleteOne (slot : CtePtr)

namespace MdbOp

/-- What the source asserts, or what all of its callers check: the new cap and that of the
source or parent are no null caps, the destination is empty, and slots that are swapped are
two slots, each of which stays empty if and only if the other is. -/
def Ok (s : CSpace) : MdbOp → Prop
  | cteInsert newCap src dest | cteMove newCap src dest | insertNewCap src dest newCap =>
      newCap ≠ .null ∧ (s src).cap ≠ .null ∧ (s dest).cap = .null
  | cteSwap cap1 slot1 cap2 slot2 =>
      slot1 ≠ slot2 ∧ (cap1 = .null ↔ (s slot1).cap = .null) ∧
        (cap2 = .null ↔ (s slot2).cap = .null)
  | emptySlot _ | cteDeleteOne _ => True

instance (s : CSpace) : DecidablePred (Ok s)
  | cteInsert newCap src dest | cteMove newCap src dest | insertNewCap src dest newCap =>
      inferInstanceAs (Decidable (newCap ≠ .null ∧ (s src).cap ≠ .null ∧ (s dest).cap = .null))
  | cteSwap cap1 slot1 cap2 slot2 =>
      inferInstanceAs (Decidable (slot1 ≠ slot2 ∧ (cap1 = .null ↔ (s slot1).cap = .null) ∧
        (cap2 = .null ↔ (s slot2).cap = .null)))
  | emptySlot _ | cteDeleteOne _ => inferInstanceAs (Decidable True)

/-- An operation of the source. -/
def run (s : CSpace) : MdbOp → Option CSpace
  | cteInsert newCap src dest => some (Kernel.cteInsert newCap src dest s)
  | cteMove newCap src dest => some (Kernel.cteMove newCap src dest s)
  | cteSwap cap1 slot1 cap2 slot2 => some (Kernel.cteSwap cap1 slot1 cap2 slot2 s)
  | insertNewCap parent slot cap => some (Kernel.insertNewCap parent slot cap s)
  | emptySlot slot => some (Kernel.emptySlot slot s)
  | cteDeleteOne slot => Kernel.cteDeleteOne slot s

/-- What it does to the chains. -/
def chains (chains : List (List CtePtr)) : MdbOp → List (List CtePtr)
  | cteInsert _ src dest | insertNewCap src dest _ => insertAfter src dest chains
  | cteMove _ slot1 slot2 | cteSwap _ slot1 _ slot2 => rename (Equiv.swap slot1 slot2) chains
  | emptySlot slot | cteDeleteOne slot => remove slot chains

/-- The slots whose place it changes. -/
def moved : MdbOp → List CtePtr
  | cteInsert _ _ dest | insertNewCap _ dest _ => [dest]
  | cteMove _ slot1 slot2 | cteSwap _ slot1 _ slot2 => [slot1, slot2]
  | emptySlot slot | cteDeleteOne slot => [slot]

/-- Where these are afterwards, in terms of the links: a new slot is directly behind its
parent, and two slots have exchanged their nodes, with each other's names in the nodes of
all slots. -/
def Placed (s s' : CSpace) : MdbOp → Prop
  | cteInsert _ src dest | insertNewCap src dest _ =>
      (s'.node src).mdbNext = some dest ∧ (s'.node dest).mdbNext = (s.node src).mdbNext
  | cteMove _ slot1 slot2 | cteSwap _ slot1 _ slot2 =>
      ∀ x, s'.node (Equiv.swap slot1 slot2 x) = (s.node x).rename (Equiv.swap slot1 slot2)
  | emptySlot slot | cteDeleteOne slot => (s' slot).cap = .null ∧ s'.node slot = nullMDBNode

end MdbOp

section Run

variable {s s' : CSpace} {cs : List (List CtePtr)} {op : MdbOp} {slot x y : CtePtr}

/-- `cteDeleteOne` empties the slot, if it returns. -/
lemma cteDeleteOne_eq (h : cteDeleteOne slot s = some s') : s' = emptySlot slot s := by
  rw [cteDeleteOne] at h
  split_ifs at h with hnull
  · rw [emptySlot, if_pos hnull]
    exact (Option.some.inj h).symm
  · split at h
    · cases h
    · split_ifs at h
      exact (Option.some.inj h).symm

/-- An operation keeps the links those of the chains. -/
lemma rep_step (h : Rep s cs) (hok : op.Ok s) (hrun : op.run s = some s') :
    Rep s' (op.chains cs) := by
  cases op with
  | cteInsert newCap src dest =>
      obtain rfl := Option.some.inj hrun
      exact rep_cteInsert h hok.1 hok.2.1 hok.2.2
  | cteMove newCap src dest =>
      obtain rfl := Option.some.inj hrun
      obtain ⟨hnew, hsrc, hdest⟩ := hok
      refine h.rename _ (node_cteMove h hsrc hdest newCap) fun z => ?_
      rw [cap_cteMove]
      rcases eq_or_ne z src with rfl | hzs
      · have hne : dest ≠ z := fun heq => hsrc (heq ▸ hdest)
        rw [Equiv.swap_apply_left, if_neg hne, if_pos rfl]
        exact iff_of_false hnew hsrc
      · rcases eq_or_ne z dest with rfl | hzd
        · rw [Equiv.swap_apply_right, if_pos rfl]
          exact iff_of_true rfl hdest
        · rw [Equiv.swap_apply_of_ne_of_ne hzs hzd, if_neg hzs, if_neg hzd]
  | cteSwap cap1 slot1 cap2 slot2 =>
      obtain rfl := Option.some.inj hrun
      obtain ⟨hne, hcap1, hcap2⟩ := hok
      refine h.rename _ (node_cteSwap h hne cap1 cap2) fun z => ?_
      rw [cap_cteSwap cap1 cap2 hne]
      rcases eq_or_ne z slot1 with rfl | hz1
      · rw [Equiv.swap_apply_left, if_neg hne.symm, if_pos rfl, hcap1]
      · rcases eq_or_ne z slot2 with rfl | hz2
        · rw [Equiv.swap_apply_right, if_pos rfl, hcap2]
        · rw [Equiv.swap_apply_of_ne_of_ne hz1 hz2, if_neg hz1, if_neg hz2]
  | insertNewCap parent slot cap =>
      obtain rfl := Option.some.inj hrun
      exact rep_insertNewCap h hok.1 hok.2.1 hok.2.2
  | emptySlot slot =>
      obtain rfl := Option.some.inj hrun
      exact rep_emptySlot h
  | cteDeleteOne slot =>
      obtain rfl := cteDeleteOne_eq hrun
      exact rep_emptySlot h

/-- The links of a whole run. -/
lemma rep_run {ops : List MdbOp} (h : Rep s cs)
    (hrun : Exec.Runs (Exec.Guarded MdbOp.Ok (Exec.OfFun MdbOp.run)) s ops s') :
    Rep s' (ops.foldl MdbOp.chains cs) := by
  induction hrun with
  | nil => exact h
  | snoc _ hlast ih =>
      rw [List.foldl_append]
      exact rep_step ih hlast.1 hlast.2

/-- The order of the slots that an operation does not move. -/
lemma before_chains (hx : x ∉ op.moved) (hy : y ∉ op.moved) :
    Before (op.chains cs) x y ↔ Before cs x y := by
  cases op with
  | cteInsert | insertNewCap =>
      simp only [MdbOp.moved, List.mem_singleton] at hx hy
      exact before_insertAfter hx hy
  | cteMove | cteSwap =>
      simp only [MdbOp.moved, List.mem_cons, List.not_mem_nil, or_false, not_or] at hx hy
      exact before_rename (Equiv.swap_apply_of_ne_of_ne hx.1 hx.2)
        (Equiv.swap_apply_of_ne_of_ne hy.1 hy.2)
  | emptySlot | cteDeleteOne =>
      simp only [MdbOp.moved, List.mem_singleton] at hx hy
      exact before_remove hx hy

/-- Where an operation puts the slots that it moves. -/
lemma placed_step (h : Rep s cs) (hok : op.Ok s) (hrun : op.run s = some s') :
    op.Placed s s' := by
  have h' := rep_step h hok hrun
  cases op with
  | cteInsert newCap src dest =>
      exact h.links.next_insertAfter h'.links ((h.mem_iff src).mpr hok.2.1)
        fun hmem => (h.mem_iff dest).mp hmem hok.2.2
  | cteMove newCap src dest =>
      obtain rfl := Option.some.inj hrun
      exact node_cteMove h hok.2.1 hok.2.2 newCap
  | cteSwap cap1 slot1 cap2 slot2 =>
      obtain rfl := Option.some.inj hrun
      exact node_cteSwap h hok.1 cap1 cap2
  | insertNewCap parent slot cap =>
      exact h.links.next_insertAfter h'.links ((h.mem_iff parent).mpr hok.2.1)
        fun hmem => (h.mem_iff slot).mp hmem hok.2.2
  | emptySlot slot =>
      obtain rfl := Option.some.inj hrun
      have hcap : (Kernel.emptySlot slot s slot).cap = .null := by rw [cap_emptySlot, if_pos rfl]
      exact ⟨hcap, h'.null slot hcap⟩
  | cteDeleteOne slot =>
      obtain rfl := cteDeleteOne_eq hrun
      have hcap : (Kernel.emptySlot slot s slot).cap = .null := by rw [cap_emptySlot, if_pos rfl]
      exact ⟨hcap, h'.null slot hcap⟩

/-- **The derivation list** after any sequence of operations: its links are those of the
chains that the operations make, next and previous are inverse to each other, and a slot
with the null cap has the null node. Every further operation leaves the other slots in
their order and puts those it moves where it should. -/
theorem mdb_run {ops : List MdbOp} (h : Rep s cs)
    (hrun : Exec.Runs (Exec.Guarded MdbOp.Ok (Exec.OfFun MdbOp.run)) s ops s') :
    Rep s' (ops.foldl MdbOp.chains cs) ∧
      (∀ a b, (s'.node a).mdbNext = some b ↔ (s'.node b).mdbPrev = some a) ∧
      (∀ p, (s' p).cap = .null → s'.node p = nullMDBNode) ∧
      ∀ (op : MdbOp) s'', op.Ok s' → op.run s' = some s'' →
        (∀ x y, x ∉ op.moved → y ∉ op.moved →
          (Before (op.chains (ops.foldl MdbOp.chains cs)) x y ↔
            Before (ops.foldl MdbOp.chains cs) x y)) ∧
        op.Placed s' s'' := by
  have h' := rep_run h hrun
  refine ⟨h', fun a b => h'.next_iff_prev, h'.null, fun op s'' hok hstep => ⟨?_, ?_⟩⟩
  · exact fun x y hx hy => before_chains hx hy
  · exact placed_step h' hok hstep

end Run

/-- A system with one cap. -/
def singleCap (p : CtePtr) (cap : Cap) : CSpace :=
  Function.update (fun _ => ⟨.null, nullMDBNode⟩) p ⟨cap, nullMDBNode⟩

lemma rep_singleCap {p : CtePtr} {cap : Cap} (hcap : cap ≠ .null) :
    Rep (singleCap p cap) [[p]] := by
  have hnode : ∀ q, (singleCap p cap).node q = nullMDBNode := by
    intro q
    rw [CSpace.node, singleCap, Function.update_apply]
    split_ifs <;> rfl
  have hadj : ∀ a b, ¬ Adj [[p]] a b := by
    rintro a b ⟨xs, hxs, hin⟩
    obtain rfl := List.mem_singleton.mp hxs
    have hlen := hin.length_le
    simp at hlen
  refine ⟨⟨List.nodup_singleton p, fun a b => ?_, fun a b => ?_⟩, fun q => ?_, fun q _ => hnode q⟩
  · rw [hnode]
    exact iff_of_false nofun (hadj a b)
  · rw [hnode]
    exact iff_of_false nofun (hadj a b)
  · rw [singleCap, Function.update_apply]
    split_ifs with hq
    · simp [hq, hcap]
    · simp [hq]

/-- A copy, the swap of the two neighbours, a move and a deletion. -/
def someMdbOps : List MdbOp :=
  let ep : Cap := .endpoint 0 true true true true 4096
  [.cteInsert ep ⟨0, 0⟩ ⟨0, 1⟩, .cteSwap ep ⟨0, 0⟩ ep ⟨0, 1⟩, .cteMove ep ⟨0, 0⟩ ⟨0, 2⟩,
    .insertNewCap ⟨0, 1⟩ ⟨0, 0⟩ ep, .cteDeleteOne ⟨0, 2⟩, .emptySlot ⟨0, 1⟩]

/-- The run of these operations in a system with one endpoint cap. -/
theorem mdb_run_some : ∃ s',
    Exec.Runs (Exec.Guarded MdbOp.Ok (Exec.OfFun MdbOp.run))
      (singleCap ⟨0, 0⟩ (.endpoint 0 true true true true 4096)) someMdbOps s' ∧
    Rep s' (someMdbOps.foldl MdbOp.chains [[⟨0, 0⟩]]) := by
  have hsome : (Exec.runFun (fun s op => decide (MdbOp.Ok s op)) MdbOp.run
      (singleCap ⟨0, 0⟩ (.endpoint 0 true true true true 4096)) someMdbOps).isSome := by
    decide +kernel
  obtain ⟨s', hs'⟩ := Option.isSome_iff_exists.mp hsome
  have hrun := Exec.runs_of_runFun MdbOp.Ok (fun _ _ h => of_decide_eq_true h) hs'
  have hrep : Rep (singleCap ⟨0, 0⟩ (.endpoint 0 true true true true 4096)) [[⟨0, 0⟩]] :=
    rep_singleCap nofun
  exact ⟨s', hrun, (mdb_run hrep hrun).1⟩

end Kernel
