import Sel4Test.Adl.TreeHeap

/-!
The repairs of the red-black tree.

`Balances r l` says that an operation succeeds, and that what it leaves is a red-black
tree with the entries `l`. The repairs are proved by induction on the rounds they may
use: a repair of a red node goes up by two nodes in a round, one of a light node by one,
except that it first rotates a red sibling away.

* `rebalanceRedNode_balances`: a red node where only a black one fits is repaired.
* `rebalanceChildren_balances`: a node whose paths are too short by one is repaired.
-/

namespace Adl

open RedBlack

variable {α κ ν : Type}

/-- An operation succeeds, and leaves a red-black tree with these entries. -/
def Balances (r : Except Fault (RedBlackTree α κ ν)) (l : List (α × (κ × ν))) : Prop :=
  ∃ t, Gives r t ∧ (∃ m, t.RB .black m) ∧ t.entries = l

lemma Gives.balances {r : Except Fault (RedBlackTree α κ ν)} {ctx : Ctx α (κ × ν)}
    {t t' : PtrTree α (κ × ν)} {c : Color} {n : ℕ} (h : Gives r (plug ctx t)) (hfits : Fits ctx c n)
    (ht : t.RB c n) (hentries : t.entries = t'.entries) : Balances r (plug ctx t').entries :=
  ⟨_, h, hfits.plug ht, entries_plug_congr hentries⟩

lemma Gives.bind_balances {r : Except Fault (RedBlackTree α κ ν)}
    {k : RedBlackTree α κ ν → Except Fault (RedBlackTree α κ ν)} {t : PtrTree α (κ × ν)}
    {l : List (α × (κ × ν))} (h : Gives r t) (hk : ∀ s, Holds s t → Balances (k s) l) :
    Balances (r >>= k) l := by
  obtain ⟨s, rfl, hs⟩ := h
  exact hk s hs

lemma Balances.of_eq {r : Except Fault (RedBlackTree α κ ν)} {l l' : List (α × (κ × ν))}
    (h : Balances r l) (heq : l = l') : Balances r l' := heq ▸ h

lemma Balances.read {β : Type} {r : Except Fault β} {x : β}
    {k : β → Except Fault (RedBlackTree α κ ν)} {l : List (α × (κ × ν))} (h : r = .ok x)
    (hk : Balances (k x) l) : Balances (r >>= k) l := by
  rw [h]
  exact hk

lemma Holds.gives {s : RedBlackTree α κ ν} {t : PtrTree α (κ × ν)} (h : Holds s t) :
    Gives (.ok s) t := ⟨s, rfl, h⟩

namespace RedBlackTree

variable [DecidableEq α] {s : RedBlackTree α κ ν} {ctx : Ctx α (κ × ν)}

/-! ### A red node -/

section Red

variable {d e : Side} {g p x : α} {bg bp bx : κ × ν} {kids : Side → PtrTree α (κ × ν)}
  {sib uncle : PtrTree α (κ × ν)} {c : Color} {n : ℕ}

/-- **The rotations** that end the repair of a red node: the node `x` and its parent are
red, and the uncle is black. -/
lemma rebalanceOuter_balances
    (h : Holds s (plug ctx (.node g bg .black (pair d (.node p bp .red (pair e
      (.node x bx .red kids) sib)) uncle)))) (hfits : Fits ctx .black (n + 1))
    (hx : (PtrTree.node x bx .red kids).RB .red n) (hsib : sib.RB .black n)
    (huncle : uncle.RB .black n) :
    Balances (s.rebalanceOuter d (some x) (some p) (some g))
      (plug ctx (.node g bg .black (pair d (.node p bp .red (pair e
        (.node x bx .red kids) sib)) uncle))).entries := by
  have hp : Holds s (plug (⟨d, g, bg, .black, uncle⟩ :: ctx)
    (.node p bp .red (pair e (.node x bx .red kids) sib))) := h
  have hne : sib.ptr ≠ some x := by
    have hx : Holds s (plug (⟨e, p, bp, .red, sib⟩ :: ⟨d, g, bg, .black, uncle⟩ :: ctx)
      (.node x bx .red kids)) := h
    exact sib_ne hx
  rw [rebalanceOuter]
  refine Balances.read (deref_focus hp) ?_
  rcases Side.eq_or_eq_other d e with rfl | rfl
  · -- the node is on the side of its parent: one rotation
    simp only [pair_self, PtrTree.ptr_node, if_true]
    refine (rotate_spec' h).bind_balances fun s₁ h₁ => ?_
    rw [pair_self, pair_other] at h₁
    refine (setColor_spec h₁ .black).bind_balances fun s₂ h₂ => ?_
    refine (setColor_kid_other h₂ .red).balances hfits
      (.black_of_pair hx (.red_of_pair hsib huncle)) ?_
    cases e <;> simp [PtrTree.entries_node, pair]
  · -- the node is on the other side: its parent is rotated first
    rw [pair_swap] at hp h ⊢
    simp only [pair_self, hne.symm, if_false]
    refine (rotate_spec hp).bind_balances fun s₁ h₁ => ?_
    have h₁ : Holds s₁ (plug ctx (.node g bg .black (pair d (.node x bx .red
      (pair d (.node p bp .red (pair d sib (kids d))) (kids d.other))) uncle))) := h₁
    refine (rotate_spec' h₁).bind_balances fun s₂ h₂ => ?_
    rw [pair_self, pair_other] at h₂
    refine (setColor_kid_other h₂ .red).bind_balances fun s₃ h₃ => ?_
    refine (setColor_spec h₃ .black).balances hfits (.black_of_pair
      (.red_of_pair hsib (hx.kids_red d)) (.red_of_pair (hx.kids_red d.other) huncle)) ?_
    cases d <;> simp [PtrTree.entries_node, pair, Side.other]

/-- **The repair of a red node** where only a black one fits, or any. -/
lemma rebalanceRedNode_balances {fuel : ℕ} (h : Holds s (plug ctx (.node x bx .red kids)))
    (hx : (PtrTree.node x bx .red kids).RB .red n) (hfits : Fits ctx .black n)
    (hfuel : ctx.length < fuel) :
    Balances (s.rebalanceRedNode (some x) fuel) (plug ctx (.node x bx .red kids)).entries := by
  induction fuel generalizing s ctx x bx kids n with
  | zero => omega
  | succ fuel ih =>
      rw [rebalanceRedNode]
      refine Balances.read (deref_focus h) ?_
      simp only [reduceCtorEq, if_false]
      cases hfits with
      | nil =>
          -- the root becomes black
          exact (setColor_spec h .black).balances .nil hx.setBlack rfl
      | @black d p b sib ctx _ c' _ hsib hfits =>
          simp only [above]
          refine Balances.read (deref_parent h) ?_
          simp only [if_true]
          exact h.gives.balances (.black hsib hfits) hx rfl
      | @red d p b sib ctx _ hsib hfits =>
          simp only [above]
          refine Balances.read (deref_parent h) ?_
          simp only [reduceCtorEq, if_false]
          cases hfits with
          | @black e g bg uncle ctx _ c' _ huncle hfits =>
              have hp : Holds s (plug (⟨e, g, bg, .black, uncle⟩ :: ctx)
                (.node p b .red (pair d (.node x bx .red kids) sib))) := h
              refine Balances.read (deref_parent hp) ?_
              have hne := sib_ne hp
              simp only [PtrTree.ptr_node, siblingOf_pair hne, sideOf_pair hne]
              have huncle' := sibling hp
              refine Balances.read (isRed_spec huncle') ?_
              cases c' with
              | black =>
                  simp only [huncle.isRed, reduceCtorEq, decide_false, if_false]
                  exact rebalanceOuter_balances hp hfits hx hsib huncle
              | red =>
                  -- the redness goes up by two
                  cases huncle with
                  | @red u bu ku _ hku =>
                      simp only [PtrTree.isRed, decide_true, if_true, PtrTree.ptr_node]
                      refine (setColor_kid_other hp .black).bind_balances fun s₁ h₁ => ?_
                      refine (setColor_kid h₁ .black).bind_balances fun s₂ h₂ => ?_
                      refine (setColor_spec h₂ .red).bind_balances fun s₃ h₃ => ?_
                      have hred : (PtrTree.node g bg .red (pair e (.node p b .black
                          (pair d (.node x bx .red kids) sib)) (.node u bu .black ku))).RB .red (_ + 1) :=
                        .red_of_pair (.black_of_pair hx hsib) (.black (fun _ => .black) hku)
                      refine (ih h₃ hred hfits ?_).of_eq (entries_plug_congr ?_)
                      · simp only [List.length_cons] at hfuel
                        omega
                      · cases e <;> simp [Frame.fill, PtrTree.entries_node, pair]

end Red

/-! ### A light node -/

section Light

variable {d : Side} {q y : α} {bq by' : κ × ν} {x u v : PtrTree α (κ × ν)} {cu cv : Color} {m : ℕ}

/-- **Under a red parent**: the light tree `x` is brought up to its black sibling. -/
lemma rebalanceRedParent_balances {fuel : ℕ}
    (h : Holds s (plug ctx (.node q bq .red (pair d x (.node y by' .black (pair d u v))))))
    (hfits : Fits ctx .red (m + 2)) (hx : x.RB .black (m + 1)) (hu : u.RB cu (m + 1))
    (hv : v.RB cv (m + 1)) (hfuel : ctx.length + 2 < fuel) :
    Balances (s.rebalanceRedParent (some q) (some y) d.other fuel)
      (plug ctx (.node q bq .red (pair d x (.node y by' .black (pair d u v))))).entries := by
  have hq : Holds s (plug (⟨d, q, bq, .red, .node y by' .black (pair d u v)⟩ :: ctx) x) := h
  have hy := sibling hq
  rw [rebalanceRedParent]
  simp only [Side.other_other]
  refine Balances.read (deref_focus hy) ?_
  have hcu := color_spec (kid hy d) ((pair_self d u v).symm ▸ hu)
  have hcv := color_spec (kid hy d.other) ((pair_other d u v).symm ▸ hv)
  refine Balances.read hcu ?_
  cases cu with
  | black =>
      simp only [if_true]
      refine (rotate_spec h).balances (hfits.of_red .black) ?_ ?_
      · simp only [pair_self, pair_other]
        exact .black_of_pair (.red_of_pair hx hu) hv
      · cases d <;> simp [PtrTree.entries_node, pair, Side.other]
  | red =>
      simp only [reduceCtorEq, if_false]
      refine Balances.read hcv ?_
      cases cv with
      | black =>
          simp only [if_true]
          refine (setColor_spec h .black).bind_balances fun s₁ h₁ => ?_
          refine (setColor_kid_other h₁ .red).bind_balances fun s₂ h₂ => ?_
          -- the near nephew is red below the sibling, which is red now
          have h₂ : Holds s₂ (plug (⟨d, q, bq, .black, .node y by' .red (pair d u v)⟩ :: ctx) x) := h₂
          have h₃ := kid (sibling h₂) d
          simp only [pair_self, pair_other] at h₃ ⊢
          obtain ⟨l, bl, a, b, rfl, ha, hb⟩ := hu.exists_red d
          refine (rebalanceRedNode_balances h₃ (.red_of_pair ha hb)
            (.red hv (.black hx (hfits.of_red .black))) ?_).of_eq ?_
          · simp only [List.length_cons]
            omega
          · simp only [plug_cons]
            refine entries_plug_congr ?_
            cases d <;> simp [Frame.fill, PtrTree.entries_node, pair, Side.other]
      | red =>
          simp only [reduceCtorEq, if_false]
          obtain ⟨f, bf, a, b, rfl, ha, hb⟩ := hv.exists_red d
          refine (setColor_spec h .black).bind_balances fun s₁ h₁ => ?_
          refine (setColor_kid_other h₁ .red).bind_balances fun s₂ h₂ => ?_
          have h₂ : Holds s₂ (plug (⟨d, q, bq, .black, .node y by' .red
            (pair d u (.node f bf .red (pair d a b)))⟩ :: ctx) x) := h₂
          simp only [pair_other, PtrTree.ptr_node]
          refine (setColor_kid_other (sibling h₂) .black).bind_balances fun s₃ h₃ => ?_
          have h₃ := sibling h₃
          rw [Side.other_other] at h₃
          refine (rotate_spec h₃).balances hfits ?_ ?_
          · simp only [pair_self, pair_other]
            exact .red_of_pair (.black_of_pair hx hu) (.black_of_pair ha hb)
          · cases d <;> simp [PtrTree.entries_node, pair, Side.other]

/-- **A red nephew**: the light tree is brought up to its black sibling, which has a red
child, under a black parent. -/
lemma rebalanceRedNephew_balances
    (h : Holds s (plug ctx (.node q bq .black (pair d x (.node y by' .black (pair d u v))))))
    (hfits : Fits ctx .black (m + 3)) (hx : x.RB .black (m + 1)) (hu : u.RB cu (m + 1))
    (hv : v.RB cv (m + 1)) (hred : ¬ (cu = .black ∧ cv = .black)) :
    Balances (s.rebalanceRedNephew (some q) (some y) d.other)
      (plug ctx (.node q bq .black (pair d x (.node y by' .black (pair d u v))))).entries := by
  have hq : Holds s (plug (⟨d, q, bq, .black, .node y by' .black (pair d u v)⟩ :: ctx) x) := h
  have hy := sibling hq
  rw [rebalanceRedNephew]
  simp only [Side.other_other]
  refine Balances.read (deref_focus hy) ?_
  have hcv := color_spec (kid hy d.other) ((pair_other d u v).symm ▸ hv)
  refine Balances.read hcv ?_
  cases cv with
  | red =>
      obtain ⟨f, bf, a, b, rfl, ha, hb⟩ := hv.exists_red d
      simp only [if_true, pair_other, PtrTree.ptr_node]
      refine (setColor_kid_other hy .black).bind_balances fun s₁ h₁ => ?_
      have h₁ := sibling h₁
      rw [Side.other_other] at h₁
      refine (rotate_spec h₁).balances hfits ?_ ?_
      · simp only [pair_self, pair_other]
        exact .black_of_pair (.black_of_pair hx hu) (.black_of_pair ha hb)
      · cases d <;> simp [PtrTree.entries_node, pair, Side.other]
  | black =>
      cases cu with
      | black => exact absurd ⟨rfl, rfl⟩ hred
      | red =>
          obtain ⟨l, bl, a, b, rfl, ha, hb⟩ := hu.exists_red d
          simp only [reduceCtorEq, if_false, pair_self, PtrTree.ptr_node]
          refine (setColor_kid hy .black).bind_balances fun s₁ h₁ => ?_
          refine (rotate_spec' h₁).bind_balances fun s₂ h₂ => ?_
          have h₂ := sibling h₂
          rw [Side.other_other] at h₂
          refine (rotate_spec h₂).balances hfits ?_ ?_
          · simp only [pair_self, pair_other]
            exact .black_of_pair (.black_of_pair hx ha) (.black_of_pair hb hv)
          · cases d <;> simp [PtrTree.entries_node, pair, Side.other]

omit [DecidableEq α] in
lemma kidsBlack_spec {n : Node α κ ν} {c : Color}
    (h : Holds s (plug ctx (.node y by' c (pair d u v)))) (hu : u.RB cu (m + 1))
    (hv : v.RB cv (m + 1)) (hn : n.child = fun e => (pair d u v e).ptr) :
    s.kidsBlack n = .ok (decide (cu = .black ∧ cv = .black)) := by
  have hcu := color_spec (kid h d) ((pair_self d u v).symm ▸ hu)
  have hcv := color_spec (kid h d.other) ((pair_other d u v).symm ▸ hv)
  rw [kidsBlack, hn]
  cases d <;> cases cu <;> cases cv <;> simp_all [Side.other, bind, Except.bind, pure, Except.pure]

/-- A round under a red parent is the last one. -/
lemma rebalanceChildren_red {fuel : ℕ} {sib : PtrTree α (κ × ν)}
    (h : Holds s (plug (⟨d, q, bq, .red, sib⟩ :: ctx) x)) (hx : x.RB .black (m + 1))
    (hsib : sib.RB .black (m + 2)) (hfits : Fits ctx .red (m + 2)) (hfuel : ctx.length + 3 < fuel) :
    Balances (s.rebalanceChildren x.ptr fuel) (plug (⟨d, q, bq, .red, sib⟩ :: ctx) x).entries := by
  obtain ⟨y, by', u, v, cu, cv, rfl, hu, hv⟩ := hsib.exists_black d
  obtain ⟨p, b, a, a', ca, ca', rfl, -, -⟩ := hx.exists_black d
  obtain ⟨fuel, rfl⟩ : ∃ k, fuel = k + 1 := ⟨fuel - 1, by omega⟩
  have hne := sib_ne h
  simp only [PtrTree.ptr_node] at hne ⊢
  rw [rebalanceChildren, if_neg (root_ne h)]
  refine Balances.read (deref_focus h) ?_
  simp only [above]
  refine Balances.read (deref_parent h) ?_
  simp only [PtrTree.ptr_node, siblingOf_pair hne, sideOf_pair_other hne]
  refine Balances.read (deref_focus (sibling h)) ?_
  simp only [if_true]
  exact rebalanceRedParent_balances h hfits hx hu hv (by omega)

/-- **The repair of a light node**: its paths have one black node less than the hole
takes. -/
lemma rebalanceChildren_balances {fuel : ℕ} (h : Holds s (plug ctx x)) (hx : x.RB .black (m + 1))
    (hfits : Fits ctx .black (m + 2)) (hfuel : ctx.length + 5 < fuel) :
    Balances (s.rebalanceChildren x.ptr fuel) (plug ctx x).entries := by
  induction fuel generalizing s ctx x m with
  | zero => omega
  | succ fuel ih =>
      cases hfits with
      | nil =>
          have hroot : x.ptr = s.root := h.root.symm
          rw [rebalanceChildren, if_pos hroot]
          exact h.gives.balances .nil hx rfl
      | @red d q bq sib ctx _ hsib hfits =>
          simp only [List.length_cons] at hfuel
          exact rebalanceChildren_red h hx hsib hfits (by omega)
      | @black d q bq sib ctx _ c _ hsib hfits =>
          obtain ⟨p, b, a, a', ca, ca', rfl, -, -⟩ := hx.exists_black d
          have hne := sib_ne h
          rw [PtrTree.ptr_node, rebalanceChildren, if_neg (root_ne h)]
          refine Balances.read (deref_focus h) ?_
          simp only [above]
          refine Balances.read (deref_parent h) ?_
          simp only [PtrTree.ptr_node, siblingOf_pair hne, sideOf_pair_other hne]
          cases c with
          | red =>
              -- a red sibling is rotated away, and the parent is red in the next round
              obtain ⟨y, by', u, v, rfl, hu, hv⟩ := hsib.exists_red d
              refine Balances.read (deref_focus (sibling h)) ?_
              simp only [reduceCtorEq, if_false, if_true, PtrTree.ptr_node, Side.other_other]
              refine (setColor_spec (parent h) .red).bind_balances fun s₁ h₁ => ?_
              refine (setColor_kid_other h₁ .black).bind_balances fun s₂ h₂ => ?_
              refine (rotate_spec h₂).bind_balances fun s₃ h₃ => ?_
              simp only [pair_self, pair_other] at h₃
              have h₃ : Holds s₃ (plug (⟨d, q, bq, .red, u⟩ :: ⟨d, y, by', .black, v⟩ :: ctx)
                (.node p b .black (pair d a a'))) := h₃
              refine (rebalanceChildren_red h₃ hx hu (.black hv hfits) ?_).of_eq ?_
              · simp only [List.length_cons] at hfuel ⊢
                omega
              · simp only [plug_cons]
                refine entries_plug_congr ?_
                cases d <;> simp [Frame.fill, PtrTree.entries_node, pair]
          | black =>
              obtain ⟨y, by', u, v, cu, cv, rfl, hu, hv⟩ := hsib.exists_black d
              refine Balances.read (deref_focus (sibling h)) ?_
              simp only [reduceCtorEq, if_false, PtrTree.ptr_node]
              refine Balances.read (kidsBlack_spec (sibling h) hu hv rfl) ?_
              by_cases hblack : cu = .black ∧ cv = .black
              · obtain ⟨rfl, rfl⟩ := hblack
                simp only [and_self, decide_true, if_true]
                refine (setColor_kid_other (parent h) .red).bind_balances fun s₁ h₁ => ?_
                have htree := PtrTree.RB.black_of_pair (d := d) (p := q) (b := bq) hx
                  (PtrTree.RB.red_of_pair (d := d) (p := y) (b := by') hu hv)
                refine (ih h₁ htree hfits ?_).of_eq ?_
                · simp only [List.length_cons] at hfuel
                  omega
                · simp only [plug_cons]
                  refine entries_plug_congr ?_
                  cases d <;> simp [Frame.fill, PtrTree.entries_node, pair]
              · simp only [hblack, decide_false, Bool.false_eq_true, if_false]
                exact rebalanceRedNephew_balances h hfits hx hu hv hblack

end Light

end RedBlackTree

end Adl
