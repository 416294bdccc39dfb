import Sel4Test.Adl.Rebalance

/-!
Removal from the red-black tree.

The node that is removed first changes places with its neighbours in order until it has no
child. The places keep their colours, so that the tree stays a red-black tree all the time,
and the other entries stay in order. What is left then is to take off a node without
children.

* `exchange_spec`: what the assignments of an exchange do to the tree.
* `sink_spec`: the node comes down to a place without children.
* `removeLeaf_balances`: the repair after the removal.
-/

namespace Adl

open RedBlack

variable {α κ ν : Type}

namespace RedBlackTree

section Exchange

variable {s : RedBlackTree α κ ν} {ctx ctx' : Ctx α (κ × ν)} {p q : α}
  {b b' : κ × ν} {c c' : Color} {d : Side} {t u : PtrTree α (κ × ν)} {top : Option α}
  {M : Multiset (α × Node α κ ν)}

/-- The node at the hole of a context is not on top of a context that is not empty. -/
lemma rootOf_ne {f : Frame α (κ × ν)}
    (h : Owns s.heap (ctxCells top (f :: ctx) (some q) + M)) (hq : q ∈ M.map Prod.fst) :
    rootOf (f :: ctx) (some q) ≠ some q := by
  intro hroot
  obtain ⟨r, hr, hmem⟩ := rootOf_mem f top hroot
  obtain rfl := Option.some.inj hr
  have hnodup := h.nodup
  rw [Multiset.map_add, Multiset.nodup_add] at hnodup
  exact Multiset.disjoint_left.mp hnodup.2.2 hmem hq

/-- The parent of a hole is not a node outside. -/
lemma above_ne {f : Frame α (κ × ν)} {hole : Option α}
    (h : Owns s.heap (ctxCells top (f :: ctx) hole + M)) (hq : q ∈ M.map Prod.fst) :
    above top (f :: ctx) ≠ some q := by
  intro habove
  have hnodup := h.nodup
  rw [Multiset.map_add, Multiset.nodup_add] at hnodup
  refine Multiset.disjoint_left.mp hnodup.2.2 ?_ hq
  obtain rfl : f.p = q := Option.some.inj habove
  simp [ctxCells]

variable [DecidableEq α]

/-- The node on top of a context gets another parent. -/
lemma retop_yields {f : Frame α (κ × ν)} {hole : Option α}
    (h : Owns s.heap (ctxCells top (f :: ctx) hole + M)) (top' : Option α) :
    Yields (s.setParent (rootOf (f :: ctx) hole) top') s.root
      (ctxCells top' (f :: ctx) hole + M) := by
  induction ctx generalizing f hole M with
  | nil =>
      simp only [ctxCells, above, rootOf, add_zero] at h ⊢
      rw [add_assoc] at h ⊢
      exact setParent_cell h top'
  | cons g ctx ih =>
      have hmove : Owns s.heap (ctxCells top (g :: ctx) (some f.p) +
          (cell f.p f.b f.c (some g.p) (pair f.side hole f.sib.ptr) +
            (cells (some f.p) f.sib + M))) := by
        refine h.of_eq ?_
        simp only [ctxCells, above]
        abel
      obtain ⟨s', hrun, hroot, howns⟩ := ih hmove
      refine ⟨s', hrun, hroot, howns.of_eq ?_⟩
      simp only [ctxCells, above]
      abel

/-- **The exchange** of a node and its neighbour in order: the neighbour `q` has no child on the
side that the context below the node goes to. -/
lemma exchange_spec (hside : ∀ f ∈ ctx', f.side = d.other)
    (h : Holds s (plug ctx (.node p b c
      (pair d (plug ctx' (.node q b' c' (pair d u .leaf))) t)))) :
    Gives (s.exchange d (some p) (some q)) (plug ctx (.node q b' c
      (pair d (plug ctx' (.node p b c' (pair d u .leaf))) t))) := by
  set C := ctxCells none ctx with hC
  set up := above none ctx with hup
  have howns : Owns s.heap (cell p b c up (pair d (rootOf ctx' (some q)) t.ptr) +
      (C (some p) + (cells (some p) t + (ctxCells (some p) ctx' (some q) +
        (cell q b' c' (above (some p) ctx') (pair d u.ptr none) + cells (some q) u))))) := by
    refine (owns_plug h).of_eq ?_
    rw [cells_pair, cells_plug, cells_pair, ptr_plug]
    simp only [PtrTree.ptr_node, PtrTree.ptr_leaf, cells_leaf, add_zero]
    abel
  have hroot : s.root = rootOf ctx (some p) := by
    rw [h.root, ptr_plug, PtrTree.ptr_node]
  -- how the two nodes are linked to each other
  have hctx : Owns s.heap (ctxCells (some p) ctx' (some q) +
      (cell p b c up (pair d (rootOf ctx' (some q)) t.ptr) + (C (some p) + (cells (some p) t +
        (cell q b' c' (above (some p) ctx') (pair d u.ptr none) + cells (some q) u))))) :=
    howns.of_eq (by abel)
  have hparent : (if above (some p) ctx' = some p then some q else above (some p) ctx') =
      above (some q) ctx' := by
    cases ctx' with
    | nil => exact if_pos rfl
    | cons f ctx' => exact if_neg (above_ne hctx (by simp))
  have hchild : (if rootOf ctx' (some q) = some q then some p else rootOf ctx' (some q)) =
      rootOf ctx' (some p) := by
    cases ctx' with
    | nil => exact if_pos rfl
    | cons f ctx' => exact if_neg (rootOf_ne hctx (by simp))
  have howns' : Owns s.heap (cell q b' c' (above (some p) ctx') (pair d u.ptr none) +
      (cell p b c up (pair d (rootOf ctx' (some q)) t.ptr) +
      (C (some p) + (cells (some p) t + (ctxCells (some p) ctx' (some q) +
        cells (some q) u))))) := howns.of_eq (by abel)
  rw [exchange]
  refine Gives.read (deref_of_owns howns) ?_
  refine Gives.read (deref_of_owns howns') ?_
  simp only [pair_self, pair_other, hparent, hchild]
  refine (setColor_cell howns c').bind fun s₁ hroot₁ h₁ => ?_
  have h₁ : Owns s₁.heap (cell q b' c' (above (some p) ctx') (pair d u.ptr none) +
      (cell p b c' up (pair d (rootOf ctx' (some q)) t.ptr) +
      (C (some p) + (cells (some p) t + (ctxCells (some p) ctx' (some q) +
        cells (some q) u))))) := h₁.of_eq (by abel)
  refine (setColor_cell h₁ c).bind fun s₂ hroot₂ h₂ => ?_
  have h₂ : Owns s₂.heap (C (some p) + (cell p b c' up (pair d (rootOf ctx' (some q)) t.ptr) +
      (cell q b' c (above (some p) ctx') (pair d u.ptr none) +
      (cells (some p) t + (ctxCells (some p) ctx' (some q) + cells (some q) u))))) :=
    h₂.of_eq (by abel)
  refine (rebind_yields h₂ (by simp) (by rw [hroot₂, hroot₁, hroot]) (some q)).bind
    fun s₃ hroot₃ h₃ => ?_
  have h₃ : Owns s₃.heap (cells (some p) t + (C (some q) +
      (cell p b c' up (pair d (rootOf ctx' (some q)) t.ptr) +
      (cell q b' c (above (some p) ctx') (pair d u.ptr none) +
      (ctxCells (some p) ctx' (some q) + cells (some q) u))))) := h₃.of_eq (by abel)
  refine (adopt_yields h₃ (some q)).bind fun s₄ hroot₄ h₄ => ?_
  have h₄ : Owns s₄.heap (cells (some q) u + (cells (some q) t + (C (some q) +
      (cell p b c' up (pair d (rootOf ctx' (some q)) t.ptr) +
      (cell q b' c (above (some p) ctx') (pair d u.ptr none) +
      ctxCells (some p) ctx' (some q)))))) := h₄.of_eq (by abel)
  refine (adopt_yields h₄ (some p)).bind fun s₅ hroot₅ h₅ => ?_
  have h₅ : Owns s₅.heap (cell p b c' up (pair d (rootOf ctx' (some q)) t.ptr) +
      (cells (some p) u + (cells (some q) t + (C (some q) +
      (cell q b' c (above (some p) ctx') (pair d u.ptr none) +
      ctxCells (some p) ctx' (some q)))))) := h₅.of_eq (by abel)
  refine (setChild_cell h₅ d.other none).bind fun s₆ hroot₆ h₆ => ?_
  refine (setChild_cell h₆ d u.ptr).bind fun s₇ hroot₇ h₇ => ?_
  rw [pair_self] at h₇
  refine (setParent_cell h₇ (above (some q) ctx')).bind fun s₈ hroot₈ h₈ => ?_
  have h₈ : Owns s₈.heap (cell q b' c (above (some p) ctx') (pair d u.ptr none) +
      (cell p b c' (above (some q) ctx') (pair d u.ptr none) +
      (cells (some p) u + (cells (some q) t + (C (some q) +
      ctxCells (some p) ctx' (some q)))))) := h₈.of_eq (by abel)
  refine (setChild_cell h₈ d.other t.ptr).bind fun s₉ hroot₉ h₉ => ?_
  refine (setParent_cell h₉ up).bind fun s₁₀ hroot₁₀ h₁₀ => ?_
  refine (setChild_cell h₁₀ d (rootOf ctx' (some p))).bind fun s₁₁ hroot₁₁ h₁₁ => ?_
  rw [pair_self] at h₁₁
  have hroot' : s₁₁.root = (plug ctx (.node q b' c
      (pair d (plug ctx' (.node p b c' (pair d u .leaf))) t))).ptr := by
    rw [hroot₁₁, hroot₁₀, hroot₉, hroot₈, hroot₇, hroot₆, hroot₅, hroot₄, hroot₃, ptr_plug,
      PtrTree.ptr_node]
  cases ctx' with
  | nil =>
      rw [rootOf, if_neg (not_not.mpr rfl)]
      have h₁₁ : Owns s₁₁.heap (cell q b' c up (pair d (some p) t.ptr) +
          (cell p b c' (some q) (pair d u.ptr none) +
          (cells (some p) u + (cells (some q) t + (C (some q) + 0))))) := h₁₁
      refine ⟨s₁₁, rfl, hroot', h₁₁.of_eq ?_⟩
      rw [cells_plug, cells_pair, plug_nil, cells_pair]
      simp only [PtrTree.ptr_node, PtrTree.ptr_leaf, cells_leaf]
      abel
  | cons f ctx' =>
      rw [if_pos (rootOf_ne hctx (by simp))]
      have h₁₁ : Owns s₁₁.heap (ctxCells (some p) (f :: ctx') (some q) +
          (cell q b' c up (pair d (rootOf (f :: ctx') (some p)) t.ptr) +
          (cell p b c' (above (some q) (f :: ctx')) (pair d u.ptr none) +
          (cells (some p) u + (cells (some q) t + C (some q)))))) := h₁₁.of_eq (by abel)
      refine (retop_yields h₁₁ (some q)).bind fun s₁₂ hroot₁₂ h₁₂ => ?_
      have hset := setHole_yields h₁₂ (some p)
      rw [hside f List.mem_cons_self] at hset
      refine hset.gives (hroot₁₂.trans hroot') ?_
      rw [cells_plug, cells_pair, cells_plug, cells_pair]
      simp only [PtrTree.ptr_node, PtrTree.ptr_leaf, cells_leaf, ptr_plug]
      abel

omit [DecidableEq α] in
/-- The last node towards a side is at the end of a context that goes there. -/
lemma outermost_spec {fuel : ℕ} {e : Side} {kids : Side → PtrTree α (κ × ν)}
    (h : Holds s (plug ctx (.node p b c kids)))
    (hfuel : (PtrTree.node p b c kids).height ≤ fuel) :
    ∃ ctx' q b' c' u, s.outermost e (some p) fuel = .ok (some q) ∧
      .node p b c kids = plug ctx' (.node q b' c' (pair e .leaf u)) ∧ ∀ f ∈ ctx', f.side = e := by
  induction fuel generalizing ctx p b c kids with
  | zero => simp [PtrTree.height] at hfuel
  | succ fuel ih =>
      rw [outermost, deref_focus h]
      cases hkid : kids e with
      | leaf =>
          refine ⟨[], p, b, c, kids e.other, ?_, ?_, by simp⟩
          · simp [bind, Except.bind, hkid]
          · rw [plug_nil, ← hkid, pair_eta]
      | node r br cr kids' =>
          have hr := kid h e
          rw [hkid] at hr
          have hheight : (PtrTree.node r br cr kids').height ≤ fuel := by
            have hlt := PtrTree.height_kid_lt p b c kids e
            rw [hkid] at hlt
            omega
          obtain ⟨ctx', q, b', c', u, hrun, htree, hside⟩ := ih hr hheight
          refine ⟨ctx' ++ [⟨e, p, b, c, kids e.other⟩], q, b', c', u, ?_, ?_, ?_⟩
          · simpa [bind, Except.bind, hkid] using hrun
          · rw [plug_append, ← htree, plug_cons, plug_nil, ← hkid, fill_kids]
          · intro f hf
            rcases List.mem_append.mp hf with hf | hf
            · exact hside f hf
            · rw [List.mem_singleton.mp hf]

omit [DecidableEq α] in
/-- The places keep their colours. -/
lemma shape_exchange :
    (plug ctx (.node q b' c (pair d (plug ctx' (.node p b c' (pair d u .leaf))) t))).shape =
      (plug ctx (.node p b c (pair d (plug ctx' (.node q b' c' (pair d u .leaf))) t))).shape := by
  simp only [shape_plug, shape_pair]

omit [DecidableEq α] in
/-- The other entries stay in order. -/
lemma entries_exchange (hside : ∀ f ∈ ctx', f.side = d.other) :
    before (ctx' ++ ⟨d, q, b', c, t⟩ :: ctx) ++ u.entries ++ after (ctx' ++ ⟨d, q, b', c, t⟩ :: ctx) =
      before ctx ++ (pair d (plug ctx' (.node q b' c' (pair d u .leaf))) t .left).entries ++
        (pair d (plug ctx' (.node q b' c' (pair d u .leaf))) t .right).entries ++ after ctx := by
  rw [before_append, after_append, before, after]
  cases d with
  | left =>
      rw [after_of_right hside]
      simp [pair, Frame.before, Frame.after, entries_plug, after_of_right hside,
        PtrTree.entries_node]
  | right =>
      rw [before_of_left hside]
      simp [pair, Frame.before, Frame.after, entries_plug, before_of_left hside,
        PtrTree.entries_node]

end Exchange

section Sink

variable [DecidableEq α] {s : RedBlackTree α κ ν} {ctx : Ctx α (κ × ν)} {p : α}
  {b : κ × ν} {c : Color} {kids : Side → PtrTree α (κ × ν)}

/-- **The way down**: the node comes to a place without children, the tree stays a red-black
tree, and the other entries stay in order. -/
lemma sink_spec {fuel m : ℕ} (h : Holds s (plug ctx (.node p b c kids)))
    (hrb : (plug ctx (.node p b c kids)).RB .black m)
    (hfuel : (PtrTree.node p b c kids).height ≤ fuel) :
    ∃ s' ctx' c', s.sink (some p) fuel = .ok s' ∧
      Holds s' (plug ctx' (.node p b c' fun _ => .leaf)) ∧
      (plug ctx' (.node p b c' fun _ => .leaf)).RB .black m ∧
      before ctx' ++ after ctx' =
        before ctx ++ (kids .left).entries ++ (kids .right).entries ++ after ctx := by
  -- on the fuel: each exchange moves the node to the outermost place of a smaller subtree
  induction fuel generalizing s ctx c kids with
  | zero => simp [PtrTree.height] at hfuel
  | succ fuel ih =>
      rw [sink, deref_focus h]
      by_cases hleaf : (kids .left).ptr ≠ none ∨ (kids .right).ptr ≠ none
      · set d : Side := if (kids .right).ptr ≠ none then .right else .left with hd
        have hkid : (kids d).ptr ≠ none := by
          rw [hd]
          split_ifs with hright
          · exact hright
          · exact hleaf.resolve_right hright
        cases hnode : kids d with
        | leaf =>
            rw [hnode] at hkid
            exact absurd rfl hkid
        | node r br cr kids' =>
            have hr := kid h d
            have hheight := PtrTree.height_kid_lt p b c kids d
            rw [hnode] at hr hheight
            obtain ⟨ctx', q, b', c', u, hrun, htree, hside⟩ :=
              outermost_spec (e := d.other) hr (by omega : (PtrTree.node r br cr kids').height ≤ fuel)
            rw [pair_swap] at htree
            have hkids : kids = pair d (plug ctx' (.node q b' c' (pair d u .leaf))) (kids d.other) := by
              rw [← htree, ← hnode, pair_eta]
            have hexchange : Holds s (plug ctx (.node p b c (pair d
                (plug ctx' (.node q b' c' (pair d u .leaf))) (kids d.other)))) := hkids ▸ h
            obtain ⟨s₁, hrun₁, h₁⟩ := exchange_spec hside hexchange
            have h₁ : Holds s₁ (plug (ctx' ++ ⟨d, q, b', c, kids d.other⟩ :: ctx)
                (.node p b c' (pair d u .leaf))) := by
              rw [plug_append]
              exact h₁
            have hrbExchange : (plug ctx (.node p b c (pair d
                (plug ctx' (.node q b' c' (pair d u .leaf))) (kids d.other)))).RB .black m :=
              hkids ▸ hrb
            have hrb₁ : (plug (ctx' ++ ⟨d, q, b', c, kids d.other⟩ :: ctx)
                (.node p b c' (pair d u .leaf))).RB .black m := by
              rw [plug_append]
              exact hrbExchange.of_shape shape_exchange.symm
            have hless : (PtrTree.node p b c' (pair d u .leaf)).height ≤ fuel := by
              calc (PtrTree.node p b c' (pair d u .leaf)).height
                  = (PtrTree.node q b' c' (pair d u .leaf)).height := rfl
                _ ≤ (plug ctx' (.node q b' c' (pair d u .leaf))).height := height_le_plug ctx' _
                _ = (PtrTree.node r br cr kids').height := by rw [← htree]
                _ ≤ fuel := by omega
            obtain ⟨s₂, ctx₂, c₂, hrun₂, h₂, hrb₂, hentries⟩ := ih h₁ hrb₁ hless
            refine ⟨s₂, ctx₂, c₂, ?_, h₂, hrb₂, ?_⟩
            · simp only [bind, Except.bind, if_pos hleaf]
              rw [← hd, hnode, PtrTree.ptr_node, hrun]
              dsimp only
              rw [hrun₁]
              exact hrun₂
            · have hkid : (pair d u .leaf .left).entries ++ (pair d u .leaf .right).entries =
                  u.entries := by
                cases d <;> simp [pair]
              rw [hentries, List.append_assoc (before _), hkid, entries_exchange hside, ← hkids]
      · obtain ⟨hleft, hright⟩ := not_or.mp hleaf
        have hkids : ∀ e, kids e = .leaf := by
          refine (Side.forall_iff .left).mpr ⟨?_, ?_⟩
          · exact PtrTree.ptr_eq_none.mp (not_not.mp hleft)
          · exact PtrTree.ptr_eq_none.mp (not_not.mp hright)
        obtain rfl : kids = fun _ => .leaf := funext hkids
        refine ⟨s, ctx, c, ?_, h, hrb, by simp⟩
        simp only [bind, Except.bind, if_neg hleaf]

end Sink

/-! ### Taking off a node -/

section Repair

variable [DecidableEq α] {s : RedBlackTree α κ ν} {ctx : Ctx α (κ × ν)} {d : Side} {q y : α}
  {bq by' : κ × ν} {u v sib : PtrTree α (κ × ν)} {cu cv : Color}

omit [DecidableEq α] in
/-- Both children, or one of them, are there. -/
lemma pair_ne_none (d : Side) (u v : PtrTree α (κ × ν)) :
    ((pair d u v .left).ptr ≠ none ∧ (pair d u v .right).ptr ≠ none ↔
        u.ptr ≠ none ∧ v.ptr ≠ none) ∧
      ((pair d u v .left).ptr ≠ none ∨ (pair d u v .right).ptr ≠ none ↔
        u.ptr ≠ none ∨ v.ptr ≠ none) := by
  cases d with
  | left => exact ⟨Iff.rfl, Iff.rfl⟩
  | right => exact ⟨and_comm, or_comm⟩

omit [DecidableEq α] in
/-- Without a black node on its paths, a tree is a red node or nothing. -/
lemma ptr_ne_none_of_rb {t : PtrTree α (κ × ν)} {c : Color} (h : t.RB c 0) :
    t.ptr ≠ none ↔ c = .red := by
  cases h with
  | leaf => exact iff_of_false (not_not.mpr rfl) (by decide)
  | red _ => exact iff_of_true (Option.some_ne_none _) rfl

/-- **A red parent** of the place: the sibling is black. -/
lemma repairRedParent_balances
    (h : Holds s (plug ctx (.node q bq .red (pair d .leaf (.node y by' .black (pair d u v))))))
    (hfits : Fits ctx .red 1) (hu : u.RB cu 0) (hv : v.RB cv 0) :
    Balances (s.repairRedParent (some q) (some y) d.other)
      (plug ctx (.node q bq .red (pair d .leaf (.node y by' .black (pair d u v))))).entries := by
  have hq : Holds s (plug (⟨d, q, bq, .red, .node y by' .black (pair d u v)⟩ :: ctx) .leaf) := h
  rw [repairRedParent]
  simp only [Side.other_other]
  refine Balances.read (deref_focus (sibling hq)) ?_
  simp only [pair_self, pair_other, (pair_ne_none d u v).1, ptr_ne_none_of_rb hu,
    ptr_ne_none_of_rb hv]
  -- by the colors of the two nephews; the outer one decides if both are red
  cases cu with
  | red =>
      cases cv with
      | red =>
          obtain ⟨f, bf, a, b, rfl, ha, hb⟩ := hv.exists_red d
          simp only [and_self, if_true, PtrTree.ptr_node]
          refine (setColor_spec (sibling hq) .red).bind_balances fun s₁ h₁ => ?_
          have h₁ := sibling h₁
          rw [Side.other_other] at h₁
          refine (setColor_spec (parent h₁) .black).bind_balances fun s₂ h₂ => ?_
          have h₂ : Holds s₂ (plug (⟨d, q, bq, .black, .node y by' .red
            (pair d u (.node f bf .red (pair d a b)))⟩ :: ctx) .leaf) := h₂
          refine (setColor_kid_other (sibling h₂) .black).bind_balances fun s₃ h₃ => ?_
          have h₃ := sibling h₃
          rw [Side.other_other] at h₃
          refine (rotate_spec (parent h₃)).balances hfits ?_ ?_
          · simp only [pair_self, pair_other]
            exact .red_of_pair (.black_of_pair .leaf hu) (.black_of_pair ha hb)
          · cases d <;> simp [PtrTree.entries_node, pair, Side.other]
      | black =>
          obtain ⟨l, bl, a, b, rfl, ha, hb⟩ := hu.exists_red d
          simp only [and_false, reduceCtorEq, if_false, if_true]
          refine (setColor_spec h .black).bind_balances fun s₁ h₁ => ?_
          have h₁ : Holds s₁ (plug (⟨d, q, bq, .black, .node y by' .black
            (pair d (.node l bl .red (pair d a b)) v)⟩ :: ctx) .leaf) := h₁
          refine (rotate_spec' (sibling h₁)).bind_balances fun s₂ h₂ => ?_
          have h₂ := sibling h₂
          rw [Side.other_other] at h₂
          refine (rotate_spec (parent h₂)).balances hfits ?_ ?_
          · simp only [pair_self, pair_other]
            exact .red_of_pair (.black_of_pair .leaf ha) (.black_of_pair hb hv)
          · cases d <;> simp [PtrTree.entries_node, pair, Side.other]
  | black =>
      cases cv with
      | red =>
          obtain ⟨f, bf, a, b, rfl, ha, hb⟩ := hv.exists_red d
          simp only [false_and, reduceCtorEq, if_false, if_true, PtrTree.ptr_node]
          refine (setColor_spec h .black).bind_balances fun s₁ h₁ => ?_
          have h₁ : Holds s₁ (plug (⟨d, q, bq, .black, .node y by' .black
            (pair d u (.node f bf .red (pair d a b)))⟩ :: ctx) .leaf) := h₁
          refine (setColor_spec (sibling h₁) .red).bind_balances fun s₂ h₂ => ?_
          refine (setColor_kid_other h₂ .black).bind_balances fun s₃ h₃ => ?_
          have h₃ := sibling h₃
          rw [Side.other_other] at h₃
          refine (rotate_spec (parent h₃)).balances hfits ?_ ?_
          · simp only [pair_self, pair_other]
            exact .red_of_pair (.black_of_pair .leaf hu) (.black_of_pair ha hb)
          · cases d <;> simp [PtrTree.entries_node, pair, Side.other]
      | black =>
          simp only [false_and, reduceCtorEq, if_false]
          refine (setColor_spec (sibling hq) .red).bind_balances fun s₁ h₁ => ?_
          have h₁ := sibling h₁
          rw [Side.other_other] at h₁
          refine (setColor_spec (parent h₁) .black).balances (hfits.of_red .black) ?_ ?_
          · exact .black_of_pair .leaf (.red_of_pair hu hv)
          · cases d <;> simp [PtrTree.entries_node, pair]

/-- **A red sibling** under a black parent: after two rotations the parent is red, and its child
may be red. -/
lemma repairRedSibling_balances {fuel : ℕ}
    (h : Holds s (plug ctx (.node q bq .black (pair d .leaf (.node y by' .red (pair d u v))))))
    (hfits : Fits ctx .black 2) (hu : u.RB .black 1) (hv : v.RB .black 1)
    (hfuel : ctx.length + 3 < fuel) :
    Balances (s.repairRedSibling (some q) (some y) d.other fuel)
      (plug ctx (.node q bq .black (pair d .leaf (.node y by' .red (pair d u v))))).entries := by
  obtain ⟨a, ba, w, z, cw, cz, rfl, hw, hz⟩ := hu.exists_black d
  have hq : Holds s (plug (⟨d, q, bq, .black, .node y by' .red
    (pair d (.node a ba .black (pair d w z)) v)⟩ :: ctx) .leaf) := h
  rw [repairRedSibling]
  simp only [Side.other_other]
  refine (setColor_spec (sibling hq) .black).bind_balances fun s₁ h₁ => ?_
  have h₁ := sibling h₁
  rw [Side.other_other] at h₁
  refine (setColor_spec (parent h₁) .red).bind_balances fun s₂ h₂ => ?_
  refine (rotate_spec h₂).bind_balances fun s₃ h₃ => ?_
  simp only [pair_self, pair_other] at h₃
  have h₃ : Holds s₃ (plug (⟨d, y, by', .black, v⟩ :: ctx) (.node q bq .red
    (pair d .leaf (.node a ba .black (pair d w z))))) := h₃
  refine (rotate_spec h₃).bind_balances fun s₄ h₄ => ?_
  simp only [pair_self, pair_other] at h₄
  have h₄ : Holds s₄ (plug (⟨d, a, ba, .black, z⟩ :: ⟨d, y, by', .black, v⟩ :: ctx) (.node q bq .red
    (pair d .leaf w))) := h₄
  refine Balances.read (deref_focus h₄) ?_
  simp only [pair_other]
  have hup : Fits (⟨d, a, ba, .black, z⟩ :: ⟨d, y, by', .black, v⟩ :: ctx) .red 0 :=
    .black hz (.black hv hfits)
  have hentries : (plug ctx (.node q bq .black (pair d .leaf (.node y by' .red
      (pair d (.node a ba .black (pair d w z)) v))))).entries =
        (plug (⟨d, a, ba, .black, z⟩ :: ⟨d, y, by', .black, v⟩ :: ctx) (.node q bq .red
          (pair d .leaf w))).entries := by
    refine entries_plug_congr ?_
    cases d <;> simp [Frame.fill, PtrTree.entries_node, pair]
  rw [hentries]
  -- two rotations brought the nephew up; its inner child may now clash with the red parent
  cases cw with
  | black =>
      rw [if_neg (by simp [ptr_ne_none_of_rb hw])]
      exact h₄.gives.balances hup (.red_of_pair .leaf hw) rfl
  | red =>
      rw [if_pos ((ptr_ne_none_of_rb hw).mpr rfl)]
      obtain ⟨l, bl, e, f, rfl, he, hf⟩ := hw.exists_red d
      have h₄ : Holds s₄ (plug (⟨d, q, bq, .red, .node l bl .red (pair d e f)⟩ ::
        ⟨d, a, ba, .black, z⟩ :: ⟨d, y, by', .black, v⟩ :: ctx) .leaf) := h₄
      refine (rebalanceRedNode_balances (sibling h₄) (.red_of_pair he hf) (.red .leaf hup) ?_).of_eq ?_
      · simp only [List.length_cons]
        omega
      · rw [plug_cons, fill_swap]
        rfl

/-- **A black parent** of the place. -/
lemma repairBlackParent_balances {fuel : ℕ} {c : Color}
    (h : Holds s (plug ctx (.node q bq .black (pair d .leaf sib))))
    (hfits : Fits ctx .black 2) (hsib : sib.RB c 1) (hfuel : ctx.length + 5 < fuel) :
    Balances (s.repairBlackParent (some q) sib.ptr d.other fuel)
      (plug ctx (.node q bq .black (pair d .leaf sib))).entries := by
  have hq : Holds s (plug (⟨d, q, bq, .black, sib⟩ :: ctx) .leaf) := h
  rw [repairBlackParent]
  simp only [Side.other_other]
  cases c with
  | red =>
      obtain ⟨y, by', u, v, rfl, hu, hv⟩ := hsib.exists_red d
      refine Balances.read (deref_focus (sibling hq)) ?_
      simp only [reduceCtorEq, false_and, if_false]
      exact repairRedSibling_balances h hfits hu hv (by omega)
  | black =>
      obtain ⟨y, by', u, v, cu, cv, rfl, hu, hv⟩ := hsib.exists_black d
      refine Balances.read (deref_focus (sibling hq)) ?_
      simp only [true_and, (pair_ne_none d u v).1, (pair_ne_none d u v).2, pair_self, pair_other,
        ptr_ne_none_of_rb hu, ptr_ne_none_of_rb hv]
      cases cu with
      | red =>
          -- the near child of the sibling comes to the top
          obtain ⟨l, bl, a, b, rfl, ha, hb⟩ := hu.exists_red d
          have hrotate : Balances (do
              let s₁ ← s.setColor (some l) .black
              let s₂ ← s₁.rotate d.other (some y)
              s₂.rotate d (some q))
                (plug ctx (.node q bq .black (pair d .leaf (.node y by' .black
                  (pair d (.node l bl .red (pair d a b)) v))))).entries := by
            refine (setColor_kid (sibling hq) .black).bind_balances fun s₁ h₁ => ?_
            refine (rotate_spec' h₁).bind_balances fun s₂ h₂ => ?_
            have h₂ := sibling h₂
            rw [Side.other_other] at h₂
            refine (rotate_spec (parent h₂)).balances hfits ?_ ?_
            · simp only [pair_self, pair_other]
              exact .black_of_pair (.black_of_pair .leaf ha) (.black_of_pair hb hv)
            · cases d <;> simp [PtrTree.entries_node, pair, Side.other]
          cases cv with
          | red =>
              simp only [and_self, if_true, PtrTree.ptr_node]
              exact hrotate
          | black =>
              simp only [reduceCtorEq, and_false, or_false, if_false, if_true, PtrTree.ptr_node]
              exact hrotate
      | black =>
          cases cv with
          | red =>
              obtain ⟨f, bf, a, b, rfl, ha, hb⟩ := hv.exists_red d
              simp only [reduceCtorEq, false_and, false_or, if_false, if_true, PtrTree.ptr_node]
              refine (setColor_kid_other (sibling hq) .black).bind_balances fun s₁ h₁ => ?_
              have h₁ := sibling h₁
              rw [Side.other_other] at h₁
              refine (rotate_spec (parent h₁)).balances hfits ?_ ?_
              · simp only [pair_self, pair_other]
                exact .black_of_pair (.black_of_pair .leaf hu) (.black_of_pair ha hb)
              · cases d <;> simp [PtrTree.entries_node, pair, Side.other]
          | black =>
              simp only [reduceCtorEq, false_and, false_or, if_false, if_true, PtrTree.ptr_node]
              obtain ⟨n, hn, hchild⟩ : ∃ n, s.deref (some q) = .ok n ∧ n.child = pair d none (some y) :=
                ⟨_, deref_parent hq, rfl⟩
              have hset : (if n.child .left = none then n.child .right else n.child .left) =
                  some y := by
                cases d with
                | left =>
                    rw [if_pos (by rw [hchild]; rfl), hchild]
                    rfl
                | right =>
                    rw [if_neg (by rw [hchild]; exact Option.some_ne_none y), hchild]
                    rfl
              refine Balances.read hn ?_
              rw [hset]
              refine (setColor_spec (sibling hq) .red).bind_balances fun s₁ h₁ => ?_
              have h₁ := sibling h₁
              rw [Side.other_other] at h₁
              refine (rebalanceChildren_balances (parent h₁)
                (.black_of_pair .leaf (.red_of_pair hu hv)) hfits hfuel).of_eq ?_
              refine entries_plug_congr ?_
              cases d <;> simp [PtrTree.entries_node, pair]

/-- A node without children is taken off. -/
lemma unlink_spec {f : Frame α (κ × ν)} {p : α} {b : κ × ν} {c : Color}
    (h : Holds s (plug (f :: ctx) (.node p b c fun _ => .leaf))) :
    ∃ s₁, s.replaceChild (some f.p) (some p) none = .ok s₁ ∧
      Gives (s₁.free (some p)) (plug (f :: ctx) .leaf) := by
  have hroot : s.root = rootOf (f :: ctx) (some p) := by
    rw [h.root, ptr_plug, PtrTree.ptr_node]
  obtain ⟨s₁, hrun, hroot₁, howns₁⟩ := rebind_yields (owns_plug h) (by simp [cells]) hroot none
  refine ⟨s₁, hrun, ?_⟩
  have howns₁ : Owns s₁.heap (cell p b c (above none (f :: ctx)) (fun _ => none) +
      ctxCells none (f :: ctx) none) := by
    refine howns₁.of_eq ?_
    simp only [cells, PtrTree.ptr_leaf, add_zero]
    rw [add_comm]
  refine ⟨{ s₁ with heap := Function.update s₁.heap p none }, ?_, ?_, ?_⟩
  · rw [free, howns₁.get]
  · rw [ptr_plug]
    exact hroot₁
  · refine howns₁.erase.of_eq ?_
    rw [cells_plug, cells_leaf, add_zero, PtrTree.ptr_leaf]

/-- **The end of a removal**: a node without children is taken off, and the tree repaired. -/
lemma removeLeaf_balances {fuel m : ℕ} {p : α} {b : κ × ν} {c : Color}
    (h : Holds s (plug ctx (.node p b c fun _ => .leaf)))
    (hrb : (plug ctx (.node p b c fun _ => .leaf)).RB .black m) (hfuel : ctx.length + 5 < fuel) :
    Balances (s.removeLeaf (some p) fuel) (before ctx ++ after ctx) := by
  cases ctx with
  | nil =>
      have hroot : some p = s.root := h.root.symm
      rw [removeLeaf, if_pos hroot]
      have howns : Owns s.heap (cell p b c none (fun _ => none) + 0) := h.owns
      refine ⟨.leaf, ⟨{ s with root := none, heap := Function.update s.heap p none }, ?_, rfl,
        howns.erase⟩, ⟨0, .leaf⟩, rfl⟩
      rw [free, howns.get]
  | cons f ctx =>
      rw [removeLeaf, if_neg (root_ne h)]
      refine Balances.read (deref_focus h) ?_
      obtain ⟨s₁, hreplace, s₂, hfree, h₂⟩ := unlink_spec h
      obtain ⟨c', n, hnode, hfits⟩ := hrb.unplug
      have hentries : before (f :: ctx) ++ after (f :: ctx) = (plug (f :: ctx) .leaf).entries := by
        rw [entries_plug, PtrTree.entries_leaf, List.append_nil]
      rw [hentries]
      -- a red leaf is just taken out; a black one leaves its side a level short
      cases hnode with
      | red hkids =>
          simp only [if_true, above]
          refine Balances.read hreplace ?_
          cases hkids .left with
          | leaf => exact Gives.balances ⟨s₂, hfree, h₂⟩ (hfits.of_red .black) .leaf rfl
      | black cs hkids =>
          obtain ⟨d, q, bq, cq, sib⟩ := f
          have hne := sib_ne h
          simp only [reduceCtorEq, if_false, above]
          refine Balances.read (deref_parent h) ?_
          simp only [PtrTree.ptr_node, siblingOf_pair hne, sideOf_pair_other hne]
          refine Balances.read hreplace ?_
          refine Gives.bind_balances ⟨s₂, hfree, h₂⟩ fun s₃ h₃ => ?_
          refine Balances.read (deref_parent h₃) ?_
          have hroom : ctx.length + 5 < fuel := by
            simp only [List.length_cons] at hfuel
            omega
          have hkid := hkids .left
          generalize cs .left = cl at hkid
          cases hkid with
          | leaf =>
              cases hfits with
              | red hsib hfits =>
                  obtain ⟨y, by', u, v, cu, cv, rfl, hu, hv⟩ := hsib.exists_black d
                  simp only [if_true, PtrTree.ptr_node]
                  exact repairRedParent_balances (parent h₃) hfits hu hv
              | black hsib hfits =>
                  simp only [reduceCtorEq, if_false]
                  exact repairBlackParent_balances (parent h₃) hfits hsib hroom

end Repair

/-- **Removal of a node**: what is left are the other entries. -/
lemma sink_removeLeaf_balances [DecidableEq α] {s : RedBlackTree α κ ν} {ctx : Ctx α (κ × ν)} {p : α}
    {b : κ × ν} {c : Color} {kids : Side → PtrTree α (κ × ν)} {fuel m : ℕ}
    (h : Holds s (plug ctx (.node p b c kids)))
    (hrb : (plug ctx (.node p b c kids)).RB .black m)
    (hfuel : (plug ctx (.node p b c kids)).entries.length + 5 ≤ fuel) :
    Balances (s.sink (some p) fuel >>= fun s => s.removeLeaf (some p) fuel)
      (before ctx ++ (kids .left).entries ++ (kids .right).entries ++ after ctx) := by
  have hlength := length_entries_plug ctx (.node p b c kids)
  have hheight : (PtrTree.node p b c kids).height ≤ fuel := by
    have hle := (PtrTree.node p b c kids).height_le_length
    omega
  obtain ⟨s₁, ctx', c', hsink, h₁, hrb₁, hentries⟩ := sink_spec h hrb hheight
  rw [hsink, ← hentries]
  refine removeLeaf_balances h₁ hrb₁ ?_
  have hle := length_le_before_after ctx'
  rw [← List.length_append, hentries] at hle
  simp only [List.length_append] at hle
  rw [PtrTree.entries_node, List.length_append, List.length_cons] at hlength
  omega

end RedBlackTree

end Adl
