import Sel4Test.Adl.RedBlackTree

/-!
The heap of a tree.

`cells top t` are the nodes that a tree `t` with the parent `top` stands for, and
`ctxCells top ctx hole` those of a context whose hole holds the pointer `hole`. A heap
owns a collection of nodes if it has exactly these, at different addresses. An
assignment to one pointer changes one of the arguments `top` and `hole` of one part of
the collection, so that the states between the assignments of a rotation have a
description as well.

* `Holds s t`: the root and the heap of `s` are those of the tree `t`.
* `rotate_spec`, `setColor_spec`, `exchange_spec`, `unlink_spec`: what the operations do
  to the tree.
-/

namespace Adl

open RedBlack

variable {α κ ν : Type}

/-! ### Cells -/

/-- The parent of a hole. -/
def above (top : Option α) : Ctx α (κ × ν) → Option α
  | [] => top
  | f :: _ => some f.p

/-- The root of a tree with a hole. -/
def rootOf : Ctx α (κ × ν) → Option α → Option α
  | [], hole => hole
  | f :: ctx, _ => rootOf ctx (some f.p)

/-- A node at an address. -/
abbrev cell (p : α) (b : κ × ν) (c : NodeColor) (parent : Option α) (child : Side → Option α) :
    Multiset (α × Node α κ ν) := {(p, ⟨b.1, b.2, c, parent, child⟩)}

/-- The nodes of a tree. -/
def cells (top : Option α) : PtrTree α (κ × ν) → Multiset (α × Node α κ ν)
  | .leaf => 0
  | .node p b c kids =>
      cell p b c top (fun d => (kids d).ptr) +
        (cells (some p) (kids .left) + cells (some p) (kids .right))

/-- The nodes of a context. -/
def ctxCells (top : Option α) : Ctx α (κ × ν) → Option α → Multiset (α × Node α κ ν)
  | [], _ => 0
  | f :: ctx, hole =>
      cell f.p f.b f.c (above top ctx) (pair f.side hole f.sib.ptr) +
        (cells (some f.p) f.sib + ctxCells top ctx (some f.p))

@[simp] lemma cells_leaf (top : Option α) : cells top (.leaf : PtrTree α (κ × ν)) = 0 := rfl

lemma cells_node (d : Side) (top : Option α) (p : α) (b : κ × ν) (c : NodeColor)
    (kids : Side → PtrTree α (κ × ν)) :
    cells top (.node p b c kids) = cell p b c top (fun e => (kids e).ptr) +
      (cells (some p) (kids d) + cells (some p) (kids d.other)) := by
  cases d
  · rfl
  · rw [cells, add_comm (cells (some p) (kids .left))]
    rfl

lemma ptr_pair (d : Side) (t u : PtrTree α (κ × ν)) :
    (fun e => (pair d t u e).ptr) = pair d t.ptr u.ptr := by
  funext e
  exact apply_pair PtrTree.ptr d t u e

lemma cells_pair (d : Side) (top : Option α) (p : α) (b : κ × ν) (c : NodeColor)
    (t u : PtrTree α (κ × ν)) :
    cells top (.node p b c (pair d t u)) = cell p b c top (pair d t.ptr u.ptr) +
      (cells (some p) t + cells (some p) u) := by
  rw [cells_node d, pair_self, pair_other, ptr_pair]

lemma ptr_plug (ctx : Ctx α (κ × ν)) (t : PtrTree α (κ × ν)) :
    (plug ctx t).ptr = rootOf ctx t.ptr := by
  induction ctx generalizing t with
  | nil => rfl
  | cons f ctx ih => exact ih _

/-- **The cells of a tree** at a hole. -/
lemma cells_plug (top : Option α) (ctx : Ctx α (κ × ν)) (t : PtrTree α (κ × ν)) :
    cells top (plug ctx t) = ctxCells top ctx t.ptr + cells (above top ctx) t := by
  induction ctx generalizing t with
  | nil => simp [ctxCells, above]
  | cons f ctx ih =>
      rw [plug_cons, ih, ctxCells, Frame.fill, cells_pair, above]
      simp only [PtrTree.ptr_node]
      abel

/-! ### Owning cells -/

/-- A heap has exactly the nodes of a collection, which are at different addresses. -/
structure Owns (heap : α → Option (Node α κ ν)) (M : Multiset (α × Node α κ ν)) : Prop where
  nodup : (M.map Prod.fst).Nodup
  mem_iff : ∀ p n, heap p = some n ↔ (p, n) ∈ M

/-- The root and the heap are those of a tree. -/
structure Holds (s : RedBlackTree α κ ν) (t : PtrTree α (κ × ν)) : Prop where
  root : s.root = t.ptr
  owns : Owns s.heap (cells none t)

namespace Owns

variable {heap : α → Option (Node α κ ν)} {M M' : Multiset (α × Node α κ ν)} {p : α}
  {n : Node α κ ν}

lemma of_eq (h : Owns heap M) (heq : M = M') : Owns heap M' := heq ▸ h

lemma get (h : Owns heap ({(p, n)} + M)) : heap p = some n :=
  (h.mem_iff p n).mpr (by simp)

/-- The address of one node is not among the others. -/
lemma notMem (h : Owns heap ({(p, n)} + M)) : p ∉ M.map Prod.fst := by
  have hnodup := h.nodup
  rw [Multiset.map_add, Multiset.map_singleton, Multiset.singleton_add, Multiset.nodup_cons] at hnodup
  exact hnodup.1

lemma ne (h : Owns heap ({(p, n)} + M)) {q : α} {n' : Node α κ ν} (hq : (q, n') ∈ M) : q ≠ p := by
  rintro rfl
  exact h.notMem (Multiset.mem_map_of_mem Prod.fst hq)

variable [DecidableEq α]

/-- One node is replaced. -/
lemma update (h : Owns heap ({(p, n)} + M)) (n' : Node α κ ν) :
    Owns (Function.update heap p (some n')) ({(p, n')} + M) := by
  constructor
  · have hnodup := h.nodup
    rwa [Multiset.map_add, Multiset.map_singleton] at hnodup ⊢
  · intro q m
    by_cases hq : q = p
    · subst hq
      have hnot : (q, m) ∉ M := fun hmem => h.ne hmem rfl
      simp [hnot, eq_comm]
    · rw [Function.update_of_ne hq, h.mem_iff]
      simp [hq]

/-- One node is freed. -/
lemma erase (h : Owns heap ({(p, n)} + M)) : Owns (Function.update heap p none) M := by
  constructor
  · have hnodup := h.nodup
    rw [Multiset.map_add, Multiset.map_singleton, Multiset.singleton_add,
      Multiset.nodup_cons] at hnodup
    exact hnodup.2
  · intro q m
    by_cases hq : q = p
    · subst hq
      have hnot : (q, m) ∉ M := fun hmem => h.ne hmem rfl
      simp [hnot]
    · rw [Function.update_of_ne hq, h.mem_iff]
      simp [hq]

/-- One node is allocated. -/
lemma insert (h : Owns heap M) (hp : heap p = none) (n : Node α κ ν) :
    Owns (Function.update heap p (some n)) ({(p, n)} + M) := by
  have hnot : ∀ m, (p, m) ∉ M := by
    intro m hmem
    rw [(h.mem_iff p m).mpr hmem] at hp
    cases hp
  constructor
  · rw [Multiset.map_add, Multiset.map_singleton, Multiset.singleton_add, Multiset.nodup_cons]
    refine ⟨fun hmem => ?_, h.nodup⟩
    obtain ⟨⟨q, m⟩, hm, rfl⟩ := Multiset.mem_map.mp hmem
    exact hnot m hm
  · intro q m
    by_cases hq : q = p
    · subst hq
      simp [hnot, eq_comm]
    · rw [Function.update_of_ne hq, h.mem_iff]
      simp [hq]

end Owns

/-! ### Results of operations -/

/-- An operation succeeds, and leaves a root and a collection of nodes. -/
def Yields (r : Except Fault (RedBlackTree α κ ν)) (root : Option α)
    (M : Multiset (α × Node α κ ν)) : Prop :=
  ∃ s, r = .ok s ∧ s.root = root ∧ Owns s.heap M

/-- An operation succeeds, and leaves a tree. -/
def Gives (r : Except Fault (RedBlackTree α κ ν)) (t : PtrTree α (κ × ν)) : Prop :=
  ∃ s, r = .ok s ∧ Holds s t

lemma Yields.bind {r : Except Fault (RedBlackTree α κ ν)} {root : Option α}
    {M : Multiset (α × Node α κ ν)} {k : RedBlackTree α κ ν → Except Fault (RedBlackTree α κ ν)}
    {t : PtrTree α (κ × ν)} (h : Yields r root M)
    (hk : ∀ s, s.root = root → Owns s.heap M → Gives (k s) t) : Gives (r >>= k) t := by
  obtain ⟨s, rfl, hroot, howns⟩ := h
  exact hk s hroot howns

lemma Gives.bind {r : Except Fault (RedBlackTree α κ ν)}
    {k : RedBlackTree α κ ν → Except Fault (RedBlackTree α κ ν)} {t t' : PtrTree α (κ × ν)}
    (h : Gives r t) (hk : ∀ s, Holds s t → Gives (k s) t') : Gives (r >>= k) t' := by
  obtain ⟨s, rfl, hs⟩ := h
  exact hk s hs

lemma Gives.read {β : Type} {r : Except Fault β} {x : β}
    {k : β → Except Fault (RedBlackTree α κ ν)} {t : PtrTree α (κ × ν)} (h : r = .ok x)
    (hk : Gives (k x) t) : Gives (r >>= k) t := by
  rw [h]
  exact hk

lemma Yields.gives {r : Except Fault (RedBlackTree α κ ν)} {root : Option α}
    {M : Multiset (α × Node α κ ν)} {t : PtrTree α (κ × ν)} (h : Yields r root M)
    (hroot : root = t.ptr) (hM : M = cells none t) : Gives r t := by
  obtain ⟨s, hr, hs, howns⟩ := h
  exact ⟨s, hr, hs.trans hroot, howns.of_eq hM⟩

namespace RedBlackTree

variable {s : RedBlackTree α κ ν} {M : Multiset (α × Node α κ ν)} {p : α} {n : Node α κ ν}
  {top : Option α} {t : PtrTree α (κ × ν)} {ctx : Ctx α (κ × ν)}

/-! ### Assignments -/

lemma deref_of_owns (h : Owns s.heap ({(p, n)} + M)) : s.deref (some p) = .ok n := by
  simp only [deref, h.get]

/-- The other child of a frame is not what its hole holds. -/
lemma sib_ptr_ne {f : Frame α (κ × ν)} {hole : Option α}
    (h : Owns s.heap (ctxCells top (f :: ctx) hole + M)) (hp : p ∈ M.map Prod.fst) :
    f.sib.ptr ≠ some p := by
  intro hsib
  obtain ⟨d, q, b, c, sib⟩ := f
  cases sib with
  | leaf => cases hsib
  | node r br cr kids =>
      obtain rfl : r = p := Option.some.inj hsib
      have hnodup := h.nodup
      rw [Multiset.map_add, Multiset.nodup_add] at hnodup
      refine Multiset.disjoint_left.mp hnodup.2.2 ?_ hp
      simp [ctxCells, cells]

variable [DecidableEq α]

lemma write_yields (h : Owns s.heap ({(p, n)} + M)) (f : Node α κ ν → Node α κ ν) :
    Yields (s.write f (some p)) s.root ({(p, f n)} + M) := by
  refine ⟨{ s with heap := Function.update s.heap p (some (f n)) }, ?_, rfl, h.update (f n)⟩
  simp only [write, h.get]

lemma setColor_cell {b : κ × ν} {c : NodeColor} {child : Side → Option α}
    (h : Owns s.heap (cell p b c top child + M)) (c' : NodeColor) :
    Yields (s.setColor (some p) c') s.root (cell p b c' top child + M) := write_yields h _

lemma setParent_cell {b : κ × ν} {c : NodeColor} {child : Side → Option α}
    (h : Owns s.heap (cell p b c top child + M)) (top' : Option α) :
    Yields (s.setParent (some p) top') s.root (cell p b c top' child + M) := write_yields h _

lemma setChild_cell {b : κ × ν} {c : NodeColor} {child : Side → Option α}
    (h : Owns s.heap (cell p b c top child + M)) (d : Side) (z : Option α) :
    Yields (s.setChild (some p) d z) s.root (cell p b c top (pair d z (child d.other)) + M) := by
  rw [← update_eq_pair]
  exact write_yields h _

/-- The root of a tree gets another parent. -/
lemma adopt_yields (h : Owns s.heap (cells top t + M)) (top' : Option α) :
    Yields (s.adopt top' t.ptr) s.root (cells top' t + M) := by
  cases t with
  | leaf => exact ⟨s, rfl, rfl, h⟩
  | node p b c kids =>
      rw [cells, add_assoc] at h ⊢
      exact write_yields h _

/-- The parent of a hole gets another child there. -/
lemma setHole_yields {f : Frame α (κ × ν)} {hole : Option α}
    (h : Owns s.heap (ctxCells top (f :: ctx) hole + M)) (new : Option α) :
    Yields (s.setChild (some f.p) f.side new) s.root (ctxCells top (f :: ctx) new + M) := by
  rw [ctxCells, add_assoc] at h ⊢
  have hset := setChild_cell h f.side new
  rwa [pair_other] at hset

/-- What a context holds is replaced. -/
lemma rebind_yields (h : Owns s.heap (ctxCells none ctx (some p) + M)) (hp : p ∈ M.map Prod.fst)
    (hroot : s.root = rootOf ctx (some p)) (new : Option α) :
    Yields (s.rebind (above none ctx) (some p) new) (rootOf ctx new) (ctxCells none ctx new + M) := by
  cases ctx with
  | nil => exact ⟨{ s with root := new }, rfl, rfl, h⟩
  | cons f ctx =>
      have hsib := sib_ptr_ne h hp
      have hset := setHole_yields h new
      have hderef : s.deref (some f.p) =
          .ok ⟨f.b.1, f.b.2, f.c, above none ctx, pair f.side (some p) f.sib.ptr⟩ := by
        rw [ctxCells, add_assoc] at h
        exact deref_of_owns h
      have hreplace : s.rebind (above none (f :: ctx)) (some p) new =
          s.setChild (some f.p) f.side new := by
        simp only [above, rebind, replaceChild, hderef]
        cases hd : f.side with
        | left => simp [pair, bind, Except.bind]
        | right => simp [pair, hsib, bind, Except.bind]
      rw [hreplace]
      rwa [hroot] at hset

/-! ### Reading -/

section Holds

variable {b : κ × ν} {c : NodeColor} {kids : Side → PtrTree α (κ × ν)}

omit [DecidableEq α] in
lemma owns_plug (h : Holds s (plug ctx t)) :
    Owns s.heap (ctxCells none ctx t.ptr + cells (above none ctx) t) :=
  h.owns.of_eq (cells_plug none ctx t)

omit [DecidableEq α] in
lemma owns_focus (h : Holds s (plug ctx (.node p b c kids))) :
    Owns s.heap (cell p b c (above none ctx) (fun d => (kids d).ptr) + (ctxCells none ctx (some p) +
      (cells (some p) (kids .left) + cells (some p) (kids .right)))) := by
  refine (owns_plug h).of_eq ?_
  rw [cells, PtrTree.ptr_node]
  abel

omit [DecidableEq α] in
/-- **Reading a node** at a hole. -/
lemma deref_focus (h : Holds s (plug ctx (.node p b c kids))) :
    s.deref (some p) = .ok ⟨b.1, b.2, c, above none ctx, fun d => (kids d).ptr⟩ :=
  deref_of_owns (owns_focus h)

/-! ### Operations on trees -/

/-- A node changes its colour. -/
lemma setColor_spec (h : Holds s (plug ctx (.node p b c kids))) (c' : NodeColor) :
    Gives (s.setColor (some p) c') (plug ctx (.node p b c' kids)) := by
  refine (setColor_cell (owns_focus h) c').gives ?_ ?_
  · rw [h.root, ptr_plug, ptr_plug]
    rfl
  · rw [cells_plug, cells, PtrTree.ptr_node]
    abel

/-- A node changes its data. -/
lemma setNodeData_spec (h : Holds s (plug ctx (.node p b c kids))) (f : ν → ν) :
    Gives (s.setNodeData (some p) f) (plug ctx (.node p (b.1, f b.2) c kids)) := by
  refine (write_yields (owns_focus h) fun n => { n with data := f n.data }).gives ?_ ?_
  · rw [h.root, ptr_plug, ptr_plug]
    rfl
  · rw [cells_plug, cells, PtrTree.ptr_node]
    abel

/-- A node changes the colour of its child on a side. -/
lemma setColor_kid {d : Side} {q : α} {b' : κ × ν} {c' : NodeColor} {kids' : Side → PtrTree α (κ × ν)}
    (h : Holds s (plug ctx (.node p b c (pair d (.node q b' c' kids') t)))) (c₁ : NodeColor) :
    Gives (s.setColor (some q) c₁) (plug ctx (.node p b c (pair d (.node q b' c₁ kids') t))) := by
  have hfocus : Holds s (plug (⟨d, p, b, c, t⟩ :: ctx) (.node q b' c' kids')) := h
  exact setColor_spec hfocus c₁

lemma setColor_kid_other {d : Side} {q : α} {b' : κ × ν} {c' : NodeColor}
    {kids' : Side → PtrTree α (κ × ν)}
    (h : Holds s (plug ctx (.node p b c (pair d t (.node q b' c' kids'))))) (c₁ : NodeColor) :
    Gives (s.setColor (some q) c₁) (plug ctx (.node p b c (pair d t (.node q b' c₁ kids')))) := by
  rw [← pair_swap] at h ⊢
  exact setColor_kid h c₁

/-- **A rotation.** -/
lemma rotate_spec {d : Side} {q : α} {b' : κ × ν} {c' : NodeColor} {kids' : Side → PtrTree α (κ × ν)}
    (h : Holds s (plug ctx (.node p b c (pair d t (.node q b' c' kids'))))) :
    Gives (s.rotate d (some p))
      (plug ctx (.node q b' c' (pair d (.node p b c (pair d t (kids' d))) (kids' d.other)))) := by
  set C := ctxCells none ctx with hC
  set up := above none ctx
  set child : Side → Option α := fun e => (kids' e).ptr
  set T := cells (some p) t
  set B := cells (some q) (kids' d.other)
  have howns : Owns s.heap (C (some p) + (cell p b c up (pair d t.ptr (some q)) +
      (T + (cell q b' c' (some p) child + (cells (some q) (kids' d) + B))))) := by
    refine (owns_plug h).of_eq ?_
    rw [cells_pair, cells_node d (some p), PtrTree.ptr_node, PtrTree.ptr_node]
  refine Gives.read (deref_focus h) ?_
  simp only [pair_other, PtrTree.ptr_node]
  have hroot : s.root = rootOf ctx (some p) := by
    rw [h.root, ptr_plug, PtrTree.ptr_node]
  refine (rebind_yields howns (by simp) hroot (some q)).bind fun s₁ hroot₁ h₁ => ?_
  have h₁ : Owns s₁.heap (cell q b' c' (some p) child + (C (some q) +
      (cell p b c up (pair d t.ptr (some q)) + (T + (cells (some q) (kids' d) + B))))) :=
    h₁.of_eq (by abel)
  refine (setParent_cell h₁ up).bind fun s₂ hroot₂ h₂ => ?_
  refine Gives.read (deref_of_owns h₂) ?_
  have h₂ : Owns s₂.heap (cell p b c up (pair d t.ptr (some q)) + (C (some q) +
      (cell q b' c' up child + (T + (cells (some q) (kids' d) + B))))) := h₂.of_eq (by abel)
  refine (setChild_cell h₂ d.other (kids' d).ptr).bind fun s₃ hroot₃ h₃ => ?_
  rw [Side.other_other, pair_self, pair_swap] at h₃
  have h₃ : Owns s₃.heap (cells (some q) (kids' d) + (C (some q) +
      (cell q b' c' up child + (T + (cell p b c up (pair d t.ptr (kids' d).ptr) + B))))) :=
    h₃.of_eq (by abel)
  refine (adopt_yields h₃ (some p)).bind fun s₄ hroot₄ h₄ => ?_
  have h₄ : Owns s₄.heap (cell q b' c' up child + (cells (some p) (kids' d) + (C (some q) +
      (T + (cell p b c up (pair d t.ptr (kids' d).ptr) + B))))) := h₄.of_eq (by abel)
  refine (setChild_cell h₄ d (some p)).bind fun s₅ hroot₅ h₅ => ?_
  have h₅ : Owns s₅.heap (cell p b c up (pair d t.ptr (kids' d).ptr) +
      (cell q b' c' up (pair d (some p) (kids' d.other).ptr) + (cells (some p) (kids' d) +
      (C (some q) + (T + B))))) := h₅.of_eq (by abel)
  refine (setParent_cell h₅ (some q)).gives ?_ ?_
  · rw [hroot₅, hroot₄, hroot₃, hroot₂, hroot₁, ptr_plug, PtrTree.ptr_node]
  · rw [cells_plug, cells_pair, cells_pair, PtrTree.ptr_node, PtrTree.ptr_node]
    abel

/-- A rotation towards the side of the first child, which is given last. -/
lemma rotate_spec' {d : Side} {q : α} {b' : κ × ν} {c' : NodeColor} {kids' : Side → PtrTree α (κ × ν)}
    (h : Holds s (plug ctx (.node p b c (pair d (.node q b' c' kids') t)))) :
    Gives (s.rotate d.other (some p))
      (plug ctx (.node q b' c' (pair d (kids' d) (.node p b c (pair d (kids' d.other) t))))) := by
  rw [← pair_swap] at h
  have hrotate := rotate_spec h
  rw [Side.other_other, pair_swap, pair_swap] at hrotate
  exact hrotate

/-! ### Neighbours -/

omit [DecidableEq α] in
/-- **Reading the parent** of a hole. -/
lemma deref_parent {d : Side} {sib : PtrTree α (κ × ν)}
    (h : Holds s (plug (⟨d, p, b, c, sib⟩ :: ctx) t)) :
    s.deref (some p) = .ok ⟨b.1, b.2, c, above none ctx, pair d t.ptr sib.ptr⟩ := by
  have hread := @deref_focus _ _ _ s p ctx b c (pair d t sib) h
  rwa [ptr_pair] at hread

omit [DecidableEq α] in
/-- The same tree, seen from the other child of the parent. -/
lemma sibling {d : Side} {sib : PtrTree α (κ × ν)} (h : Holds s (plug (⟨d, p, b, c, sib⟩ :: ctx) t)) :
    Holds s (plug (⟨d.other, p, b, c, t⟩ :: ctx) sib) := by
  rwa [plug_cons, fill_swap]

omit [DecidableEq α] in
lemma rootOf_mem {hole r : Option α} (f : Frame α (κ × ν)) (top : Option α)
    (hr : rootOf (f :: ctx) hole = r) :
    ∃ p, r = some p ∧ p ∈ (ctxCells top (f :: ctx) hole).map Prod.fst := by
  induction ctx generalizing f hole with
  | nil => exact ⟨f.p, hr.symm, by simp [ctxCells]⟩
  | cons g ctx ih =>
      obtain ⟨p, hp, hmem⟩ := ih g hr
      refine ⟨p, hp, ?_⟩
      rw [ctxCells, Multiset.map_add, Multiset.map_add]
      exact Multiset.mem_add.mpr (.inr (Multiset.mem_add.mpr (.inr hmem)))

omit [DecidableEq α] in
/-- A node with a parent is not the root. -/
lemma root_ne {f : Frame α (κ × ν)} (h : Holds s (plug (f :: ctx) (.node p b c kids))) :
    some p ≠ s.root := by
  intro hp
  rw [h.root, ptr_plug] at hp
  obtain ⟨r, hr, hmem⟩ := rootOf_mem f none hp.symm
  obtain rfl := Option.some.inj hr
  have hnodup := (owns_plug h).nodup
  rw [Multiset.map_add, Multiset.nodup_add] at hnodup
  exact Multiset.disjoint_left.mp hnodup.2.2 hmem (by simp [cells])

omit [DecidableEq α] in
/-- The same tree, seen from the parent. -/
lemma parent {d : Side} {sib : PtrTree α (κ × ν)}
    (h : Holds s (plug (⟨d, p, b, c, sib⟩ :: ctx) t)) :
    Holds s (plug ctx (.node p b c (pair d t sib))) := h

omit [DecidableEq α] in
/-- The same tree, seen from a child of the node. -/
lemma kid (h : Holds s (plug ctx (.node p b c kids))) (d : Side) :
    Holds s (plug (⟨d, p, b, c, kids d.other⟩ :: ctx) (kids d)) := by
  rwa [plug_cons, fill_kids]

omit [DecidableEq α] in
/-- Reading the colour of a tree with a black node on every path. -/
lemma color_spec {n : ℕ} (h : Holds s (plug ctx t)) (ht : t.RB c (n + 1)) :
    s.color t.ptr = .ok c := by
  obtain ⟨p, b, kids, rfl⟩ := ht.exists_node
  rw [PtrTree.ptr_node, color, deref_focus h]
  rfl

omit [DecidableEq α] in
/-- A node is not the other child of its parent. -/
lemma sib_ne {d : Side} {q : α} {b' : κ × ν} {c' : NodeColor} {sib : PtrTree α (κ × ν)}
    (h : Holds s (plug (⟨d, q, b', c', sib⟩ :: ctx) (.node p b c kids))) : sib.ptr ≠ some p := by
  refine sib_ptr_ne (owns_plug h) ?_
  simp [cells]

end Holds

omit [DecidableEq α] in
/-- Whether the root of a tree is red. -/
lemma isRed_spec (h : Holds s (plug ctx t)) : s.isRed t.ptr = .ok t.isRed := by
  cases t with
  | leaf => rfl
  | node p b c kids =>
      simp only [PtrTree.ptr_node, isRed, color, deref_focus h]
      rfl

variable {k : κ} {v : ν} {c : NodeColor} {d : Side} {x y : Option α}

lemma siblingOf_pair (hne : y ≠ x) : siblingOf ⟨k, v, c, top, pair d x y⟩ x = y := by
  cases d <;> simp [siblingOf, pair, hne]

lemma sideOf_pair (hne : y ≠ x) : sideOf ⟨k, v, c, top, pair d x y⟩ x = d := by
  cases d
  · simp [sideOf, pair]
  · simp [sideOf, pair, hne.symm]

lemma sideOf_pair_other (hne : y ≠ x) : sideOf ⟨k, v, c, top, pair d x y⟩ y = d.other := by
  rw [← pair_swap]
  exact sideOf_pair hne.symm

end RedBlackTree

end Adl
