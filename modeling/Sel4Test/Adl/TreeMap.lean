import Sel4Test.Lib.FiniteMap
import Sel4Test.Adl.Removal

/-!
The red-black tree as a map.

* `Stores s m n`: the heap of `s` is that of a red-black tree, whose pairs in order are those of
  the finite map `m`, at most `n` of them.
* `findSpot_spec`: the search comes to the node of a key, or to the place for it.
* `setData_spec`, `removeKey_spec`, `clear_spec`, `index_spec`: the operations change the map as
  they should.
* `treeMap_runs`: over every run the tree is a red-black tree for the map that the run makes,
  unless an allocation fails.
-/

namespace Adl

open RedBlack FiniteMap

variable {α κ ν : Type}

/-- The allocator gives no block at some call. -/
def Allocator.Fails (A : Allocator α) : Prop := ∃ i inUse, A.alloc i inUse = none

namespace RedBlackTree

/-! ### Search -/

section Search

variable [DecidableEq α] [LinearOrder κ] {s : RedBlackTree α κ ν} {ctx : Ctx α (κ × ν)}
  {t : PtrTree α (κ × ν)} {key : κ}

/-- The keys of entries ascend. -/
def Ascending (l : List (α × (κ × ν))) : Prop := l.Pairwise fun a b => a.2.1 < b.2.1

/-- The key belongs at the hole. -/
def Between (ctx : Ctx α (κ × ν)) (key : κ) : Prop :=
  (∀ e ∈ before ctx, e.2.1 < key) ∧ ∀ e ∈ after ctx, key < e.2.1

omit [DecidableEq α] in
/-- One step of the search. -/
lemma Between.descend {p : α} {b : κ × ν} {c : Color} {kids : Side → PtrTree α (κ × ν)}
    (h : Between ctx key) (hasc : Ascending (plug ctx (.node p b c kids)).entries)
    (hne : key ≠ b.1) :
    Between (⟨if b.1 > key then .left else .right, p, b, c,
      kids (Side.other (if b.1 > key then .left else .right))⟩ :: ctx) key := by
  rw [entries_plug, PtrTree.entries_node, Ascending] at hasc
  have hnode := (List.pairwise_append.mp (List.pairwise_append.mp hasc).1).2.1
  obtain ⟨-, hright, hleft⟩ := List.pairwise_append.mp hnode
  split_ifs with hgt
  · refine ⟨?_, fun e he => ?_⟩
    · simpa [before, Frame.before] using h.1
    · simp only [after, Frame.after, Side.other, List.cons_append, List.mem_cons,
        List.mem_append] at he
      rcases he with rfl | he | he
      · exact hgt
      · exact hgt.trans ((List.pairwise_cons.mp hright).1 e he)
      · exact h.2 e he
  · have hlt : b.1 < key := lt_of_le_of_ne (not_lt.mp hgt) hne.symm
    refine ⟨fun e he => ?_, ?_⟩
    · simp only [before, Frame.before, Side.other, List.mem_append, List.mem_singleton] at he
      rcases he with he | he | rfl
      · exact h.1 e he
      · exact (hleft e he (p, b) List.mem_cons_self).trans hlt
      · exact hlt
    · simpa [after, Frame.after] using h.2

omit [DecidableEq α] in
/-- **The search** of `setData` comes to the node of the key, or to the place for it. -/
lemma findSpot_spec {fuel : ℕ} (h : Holds s (plug ctx t)) (hasc : Ascending (plug ctx t).entries)
    (hbetween : Between ctx key) (hfuel : t.height < fuel) :
    (∃ ctx' p v c kids parent, s.findSpot key t.ptr (above none ctx) fuel = .ok (some p, parent) ∧
      plug ctx t = plug ctx' (.node p (key, v) c kids)) ∨
    ∃ ctx', s.findSpot key t.ptr (above none ctx) fuel = .ok (none, above none ctx') ∧
      plug ctx t = plug ctx' .leaf ∧ Between ctx' key := by
  induction fuel generalizing ctx t with
  | zero => omega
  | succ fuel ih =>
      cases t with
      | leaf => exact .inr ⟨ctx, rfl, rfl, hbetween⟩
      | node p b c kids =>
          rw [PtrTree.ptr_node, findSpot, deref_focus h]
          simp only [bind, Except.bind]
          by_cases hkey : key = b.1
          · rw [if_pos hkey]
            refine .inl ⟨ctx, p, b.2, c, kids, above none ctx, rfl, ?_⟩
            rw [hkey]
          · rw [if_neg hkey]
            set d : Side := if b.1 > key then .left else .right with hd
            have hchild : (if b.1 > key then (kids .left).ptr else (kids .right).ptr) =
                (kids d).ptr := by
              rw [hd]
              split_ifs
              · rfl
              · rfl
            have htree : plug (⟨d, p, b, c, kids d.other⟩ :: ctx) (kids d) =
                plug ctx (.node p b c kids) := by
              rw [plug_cons, fill_kids]
            have hheight := PtrTree.height_kid_lt p b c kids d
            rw [hchild, ← htree]
            exact ih (kid h d) (htree ▸ hasc) (hbetween.descend hasc hkey) (by omega)

omit [DecidableEq α] in
/-- The loop of `locateNode` goes the same way. -/
lemma locateFrom_eq (key : κ) (p parent : Option α) (fuel : ℕ) :
    s.locateFrom key p fuel = (s.findSpot key p parent fuel).map Prod.fst := by
  induction fuel generalizing p parent with
  | zero => cases p <;> rfl
  | succ fuel ih =>
      cases p with
      | none => rfl
      | some p =>
          rw [locateFrom, findSpot]
          cases s.deref (some p) with
          | error e => rfl
          | ok n =>
              simp only [bind, Except.bind]
              split_ifs
              · rfl
              · exact ih _ (some p)
              · exact ih _ (some p)

end Search

/-! ### Insertion -/

section Insertion

variable [DecidableEq α] [LinearOrder κ] {A : Allocator α} {s : RedBlackTree α κ ν}
  {ctx : Ctx α (κ × ν)} {key : κ} {data : ν}

/-- A new leaf, and the repair above it. -/
lemma insertNode_balances {fuel m : ℕ} (h : Holds s (plug ctx .leaf))
    (hrb : (plug ctx (.leaf : PtrTree α (κ × ν))).RB .black m) (hbetween : Between ctx key)
    (hfuel : ctx.length < fuel) :
    (A.Fails ∧ s.insertNode A key data (above none ctx) fuel = .error .outOfMemory) ∨
      ∃ p, Balances (s.insertNode A key data (above none ctx) fuel)
        (before ctx ++ (p, (key, data)) :: after ctx) := by
  rw [insertNode]
  cases halloc : A.alloc s.allocs fun p => (s.heap p).isSome with
  | none => exact .inl ⟨⟨_, _, halloc⟩, rfl⟩
  | some p =>
      refine .inr ⟨p, ?_⟩
      have hp : s.heap p = none := by
        have hfresh := A.fresh halloc
        rwa [Option.isSome_eq_false_iff, Option.isNone_iff_eq_none] at hfresh
      cases ctx with
      | nil =>
          have howns : Owns s.heap (0 : Multiset (α × Node α κ ν)) := h.owns
          exact ⟨.node p (key, data) .black fun _ => .leaf,
            ⟨_, rfl, rfl, howns.insert hp _⟩, ⟨1, .black (fun _ => .black) fun _ => .leaf⟩, rfl⟩
      | cons f ctx =>
          -- the comparison finds the side on which the search fell off the tree
          have hside : (if f.b.1 > key then Side.left else Side.right) = f.side := by
            obtain ⟨hlow, hhigh⟩ := hbetween
            cases hd : f.side with
            | left =>
                exact if_pos (hhigh (f.p, f.b) (by simp [after, Frame.after, hd]))
            | right =>
                refine if_neg (not_lt.mpr (hlow (f.p, f.b) ?_).le)
                simp [before, Frame.before, hd]
          set n : Node α κ ν := ⟨key, data, .red, some f.p, fun _ => none⟩ with hn
          set s₁ : RedBlackTree α κ ν := { s with
            heap := Function.update s.heap p (some n), allocs := s.allocs + 1 } with hs₁
          have howns₁ : Owns s₁.heap (ctxCells none (f :: ctx) none + ({(p, n)} : Multiset _)) := by
            refine ((owns_plug h).insert hp n).of_eq ?_
            rw [cells_leaf, add_zero, PtrTree.ptr_leaf, add_comm]
          have hread : s₁.deref (some f.p) =
              .ok ⟨f.b.1, f.b.2, f.c, above none ctx, pair f.side none f.sib.ptr⟩ := by
            rw [ctxCells, add_assoc] at howns₁
            exact deref_of_owns howns₁
          simp only [above]
          refine Balances.read hread ?_
          simp only [hside]
          have hset : Gives (s₁.setChild (some f.p) f.side (some p))
              (plug (f :: ctx) (.node p (key, data) .red fun _ => .leaf)) := by
            refine (setHole_yields howns₁ (some p)).gives ?_ ?_
            · change s.root = _
              rw [h.root, ptr_plug, ptr_plug]
              rfl
            · rw [cells_plug, cells]
              simp only [PtrTree.ptr_node, PtrTree.ptr_leaf, cells_leaf, add_zero]
              rfl
          refine hset.bind_balances fun s₂ h₂ => ?_
          obtain ⟨c, k, hleaf, hfits⟩ := hrb.unplug
          cases hleaf with
          | leaf =>
              refine (rebalanceRedNode_balances h₂ (.red fun _ => .leaf) hfits hfuel).of_eq ?_
              rw [entries_plug]
              simp [PtrTree.entries_node]

end Insertion

/-! ### The map -/

section Map

variable [DecidableEq α] [LinearOrder κ] {A : Allocator α} {s : RedBlackTree α κ ν}
  {m : κ → Option ν} {n fuel : ℕ} {key : κ}

/-- The tree is a red-black tree for a finite map with so many keys at most. -/
def Stores (s : RedBlackTree α κ ν) (m : κ → Option ν) (n : ℕ) : Prop :=
  ∃ t, Holds s t ∧ (∃ k, t.RB .black k) ∧ Tabulates (t.entries.map Prod.snd) m ∧
    t.entries.length ≤ n

omit [DecidableEq α] in
lemma Stores.empty : Stores (empty : RedBlackTree α κ ν) (fun _ => none) 0 := by
  refine ⟨.leaf, ⟨rfl, ⟨by simp, fun p n => ?_⟩⟩, ⟨0, .leaf⟩, Tabulates.nil, le_rfl⟩
  exact iff_of_false (by simp [RedBlackTree.empty]) (by simp)

omit [DecidableEq α] in
lemma stores_of_balances {r : Except Fault (RedBlackTree α κ ν)} {l : List (α × (κ × ν))}
    (h : Balances r l) (htable : Tabulates (l.map Prod.snd) m) (hn : l.length ≤ n) :
    ∃ s', r = .ok s' ∧ Stores s' m n := by
  obtain ⟨t, ⟨s', hrun, hholds⟩, hrb, rfl⟩ := h
  exact ⟨s', hrun, t, hholds, hrb, htable, hn⟩

omit [DecidableEq α] in
/-- **Searching in the map**: a node with the key and its value, or the place for the key. -/
lemma Stores.findSpot (h : Stores s m n) (key : κ) (hfuel : n < fuel) :
    (∃ ctx p v c kids parent k, s.findSpot key s.root none fuel = .ok (some p, parent) ∧
      Holds s (plug ctx (.node p (key, v) c kids)) ∧
      (plug ctx (.node p (key, v) c kids)).RB .black k ∧
      Tabulates ((plug ctx (.node p (key, v) c kids)).entries.map Prod.snd) m ∧
      (plug ctx (.node p (key, v) c kids)).entries.length ≤ n) ∨
    ∃ ctx k, s.findSpot key s.root none fuel = .ok (none, above none ctx) ∧
      Holds s (plug ctx .leaf) ∧ (plug ctx (.leaf : PtrTree α (κ × ν))).RB .black k ∧
      Tabulates ((plug ctx .leaf).entries.map Prod.snd) m ∧
      (plug ctx (.leaf : PtrTree α (κ × ν))).entries.length ≤ n ∧ Between ctx key := by
  obtain ⟨t, hholds, ⟨k, hrb⟩, htable, hn⟩ := h
  have hasc : Ascending (plug [] t).entries := by
    have hsorted := htable.sorted
    rwa [List.pairwise_map] at hsorted
  have hbetween : Between ([] : Ctx α (κ × ν)) key := ⟨by simp [before], by simp [after]⟩
  have hheight : t.height < fuel := (t.height_le_length.trans hn).trans_lt hfuel
  have hplug : Holds s (plug [] t) := hholds
  rw [hholds.root]
  rcases findSpot_spec hplug hasc hbetween hheight with
    ⟨ctx, p, v, c, kids, parent, hrun, htree⟩ | ⟨ctx, hrun, htree, hplace⟩
  · rw [plug_nil] at htree
    subst htree
    exact .inl ⟨ctx, p, v, c, kids, parent, k, hrun, hholds, hrb, htable, hn⟩
  · rw [plug_nil] at htree
    subst htree
    exact .inr ⟨ctx, k, hrun, hholds, hrb, htable, hn, hplace⟩

omit [DecidableEq α] [LinearOrder κ] in
/-- The pairs of a tree around a node. -/
lemma map_entries_node (ctx : Ctx α (κ × ν)) (p : α) (b : κ × ν) (c : Color)
    (kids : Side → PtrTree α (κ × ν)) :
    (plug ctx (.node p b c kids)).entries.map Prod.snd =
      ((before ctx ++ (kids .left).entries).map Prod.snd) ++
        b :: ((kids .right).entries ++ after ctx).map Prod.snd := by
  rw [entries_plug, PtrTree.entries_node]
  simp

omit [DecidableEq α] in
/-- The keys around a place are less and greater. -/
lemma Between.pairs {ctx : Ctx α (κ × ν)} (h : Between ctx key) :
    (∀ e ∈ (before ctx).map Prod.snd, e.1 < key) ∧ ∀ e ∈ (after ctx).map Prod.snd, key < e.1 := by
  constructor
  · intro e he
    obtain ⟨e', he', rfl⟩ := List.mem_map.mp he
    exact h.1 e' he'
  · intro e he
    obtain ⟨e', he', rfl⟩ := List.mem_map.mp he
    exact h.2 e' he'

omit [DecidableEq α] in
/-- Where there is a place for a key, the key is not in the map. -/
lemma get_of_place {ctx : Ctx α (κ × ν)}
    (htable : Tabulates ((plug ctx (.leaf : PtrTree α (κ × ν))).entries.map Prod.snd) m)
    (hplace : Between ctx key) : m key = none := by
  rw [entries_plug, PtrTree.entries_leaf, List.append_nil, List.map_append] at htable
  exact htable.get_eq_none hplace.pairs.1 hplace.pairs.2

/-- **`setData`** sets the value of the key. -/
lemma setData_spec (h : Stores s m n) (key : κ) (data : ν) (hfuel : n + 1 < fuel) :
    (A.Fails ∧ s.setData A key data fuel = .error .outOfMemory) ∨
      ∃ s', s.setData A key data fuel = .ok s' ∧
        Stores s' (Function.update m key (some data)) (n + 1) := by
  rw [setData]
  rcases h.findSpot key (by omega : n < fuel) with
    ⟨ctx, p, v, c, kids, parent, k, hrun, hholds, hrb, htable, hn⟩ |
    ⟨ctx, k, hrun, hholds, hrb, htable, hn, hplace⟩
  · rw [hrun]
    obtain ⟨s', hset, hholds'⟩ := setNodeData_spec hholds fun _ => data
    refine .inr ⟨s', hset, _, hholds', ⟨k, hrb.of_shape ?_⟩, ?_, ?_⟩
    · rw [shape_plug, shape_plug]
      rfl
    · rw [map_entries_node] at htable ⊢
      exact htable.set data
    · rw [length_entries_plug, PtrTree.entries_node, List.length_append, List.length_cons] at hn ⊢
      omega
  · rw [hrun]
    rw [entries_plug, PtrTree.entries_leaf, List.append_nil, List.map_append] at htable
    rw [length_entries_plug, PtrTree.entries_leaf, List.length_nil] at hn
    have hlength : ctx.length < fuel := (length_le_before_after ctx).trans_lt (by omega)
    refine Or.imp_right ?_ (insertNode_balances hholds hrb hplace hlength)
    rintro ⟨p, hbalances⟩
    refine stores_of_balances hbalances ?_ ?_
    · rw [List.map_append, List.map_cons]
      exact htable.insert hplace.pairs.1 hplace.pairs.2 data
    · rw [List.length_append, List.length_cons]
      omega

/-- **`removeKey`** takes the key out of the map, and dies only if it should when the key is not
there. -/
lemma removeKey_spec (h : Stores s m n) (key : κ) (noExcept : Bool) (hfuel : n + 5 ≤ fuel) :
    ((noExcept = false ∧ m key = none) ∧ s.removeKey key noExcept fuel = .error .died) ∨
      ¬(noExcept = false ∧ m key = none) ∧
        ∃ s', s.removeKey key noExcept fuel = .ok s' ∧
          Stores s' (Function.update m key none) n := by
  rw [removeKey, locateFrom_eq key s.root none]
  rcases h.findSpot key (by omega : n < fuel) with
    ⟨ctx, p, v, c, kids, parent, k, hrun, hholds, hrb, htable, hn⟩ |
    ⟨ctx, k, hrun, hholds, hrb, htable, hn, hplace⟩
  · rw [hrun]
    have hsome : m key = some v := by
      rw [map_entries_node] at htable
      exact htable.get
    refine .inr ⟨by simp [hsome], ?_⟩
    have hbalances := sink_removeLeaf_balances hholds hrb
      (by omega : (plug ctx (.node p (key, v) c kids)).entries.length + 5 ≤ fuel)
    refine stores_of_balances hbalances ?_ ?_
    · rw [map_entries_node] at htable
      have hremove := htable.remove
      rwa [← List.map_append, ← List.append_assoc] at hremove
    · rw [length_entries_plug, PtrTree.entries_node] at hn
      simp only [List.length_append, List.length_cons] at hn ⊢
      omega
  · rw [hrun]
    have hnone := get_of_place htable hplace
    cases noExcept with
    | false => exact .inl ⟨⟨rfl, hnone⟩, rfl⟩
    | true =>
        refine .inr ⟨by simp, s, rfl, _, hholds, ⟨k, hrb⟩, ?_, hn⟩
        have hsame : Function.update m key none = m := Function.update_eq_self_iff.mpr hnone.symm
        rwa [hsame]

omit [DecidableEq α] in
/-- **`locateNode`** finds the node of a key in the map. -/
lemma locateNode_spec (h : Stores s m n) (key : κ) (hfuel : n < fuel) :
    (m key = none ∧ s.locateNode key fuel = .ok none) ∨
      ∃ p v ctx c kids k, m key = some v ∧ s.locateNode key fuel = .ok (some p) ∧
        Holds s (plug ctx (.node p (key, v) c kids)) ∧
        (plug ctx (.node p (key, v) c kids)).RB .black k ∧
        Tabulates ((plug ctx (.node p (key, v) c kids)).entries.map Prod.snd) m ∧
        (plug ctx (.node p (key, v) c kids)).entries.length ≤ n := by
  rw [locateNode, locateFrom_eq key s.root none]
  rcases h.findSpot key hfuel with
    ⟨ctx, p, v, c, kids, parent, k, hrun, hholds, hrb, htable, hn⟩ |
    ⟨ctx, k, hrun, hholds, hrb, htable, hn, hplace⟩
  · rw [hrun]
    refine .inr ⟨p, v, ctx, c, kids, k, ?_, rfl, hholds, hrb, htable, hn⟩
    rw [map_entries_node] at htable
    exact htable.get
  · rw [hrun]
    exact .inl ⟨get_of_place htable hplace, rfl⟩

omit [DecidableEq α] in
/-- **The queries** agree with the map. -/
lemma queries_spec (h : Stores s m n) (key : κ) (fallback : Option ν) (hfuel : n < fuel) :
    s.hasKey key fuel = .ok (m key).isSome ∧
      s.getData key fuel = (m key).elim (.error .died) .ok ∧
      s.copyData key fallback fuel = ((m key).or fallback).elim (.error .died) .ok := by
  rw [hasKey, getData, copyData]
  rcases locateNode_spec h key hfuel with
    ⟨hnone, hrun⟩ | ⟨p, v, ctx, c, kids, k, hsome, hrun, hholds, -, -, -⟩
  · rw [hrun, hnone]
    cases fallback <;> exact ⟨rfl, rfl, rfl⟩
  · rw [hrun, hsome]
    simp only [bind, Except.bind, deref_focus hholds]
    exact ⟨rfl, rfl, rfl⟩

/-- **`operator[]`** makes a default value where there is none; `f` is what is done through the
reference. -/
lemma index_spec [Inhabited ν] (h : Stores s m n) (key : κ) (f : ν → ν) (hfuel : n + 2 < fuel) :
    (A.Fails ∧ (s.index A key fuel >>= fun r => r.2.setNodeData r.1 f) = .error .outOfMemory) ∨
      ∃ s', (s.index A key fuel >>= fun r => r.2.setNodeData r.1 f) = .ok s' ∧
        Stores s' (Function.update m key (some (f ((m key).getD default)))) (n + 1) := by
  have hassign : ∀ {s : RedBlackTree α κ ν} {ctx : Ctx α (κ × ν)} {p : α} {v : ν} {c : Color}
      {kids : Side → PtrTree α (κ × ν)} {k l : ℕ} {m : κ → Option ν},
      Holds s (plug ctx (.node p (key, v) c kids)) →
      (plug ctx (.node p (key, v) c kids)).RB .black k →
      Tabulates ((plug ctx (.node p (key, v) c kids)).entries.map Prod.snd) m →
      (plug ctx (.node p (key, v) c kids)).entries.length ≤ l →
      ∃ s', s.setNodeData (some p) f = .ok s' ∧
        Stores s' (Function.update m key (some (f v))) l := by
    intro s ctx p v c kids k l m hholds hrb htable hl
    obtain ⟨s', hset, hholds'⟩ := setNodeData_spec hholds f
    refine ⟨s', hset, _, hholds', ⟨k, hrb.of_shape ?_⟩, ?_, ?_⟩
    · rw [shape_plug, shape_plug]
      rfl
    · rw [map_entries_node] at htable ⊢
      exact htable.set (f v)
    · rw [length_entries_plug, PtrTree.entries_node, List.length_append, List.length_cons] at hl ⊢
      omega
  rw [index]
  rcases locateNode_spec h key (by omega : n < fuel) with
    ⟨hnone, hrun⟩ | ⟨p, v, ctx, c, kids, k, hsome, hrun, hholds, hrb, htable, hn⟩
  · rw [hrun, hnone]
    simp only [bind, Except.bind, Option.getD_none]
    rcases setData_spec (A := A) h key default (by omega : n + 1 < fuel) with
      ⟨hfails, hset⟩ | ⟨s₁, hset, h₁⟩
    · rw [hset]
      exact .inl ⟨hfails, rfl⟩
    · rw [hset]
      rcases locateNode_spec h₁ key (by omega : n + 1 < fuel) with
        ⟨hnone₁, -⟩ | ⟨p, v, ctx, c, kids, k, hsome, hrun, hholds, hrb, htable, hn⟩
      · rw [Function.update_self] at hnone₁
        cases hnone₁
      · rw [Function.update_self] at hsome
        obtain rfl := Option.some.inj hsome
        simp only [hrun, deref_focus hholds]
        obtain ⟨s', hs', hstores⟩ := hassign hholds hrb htable hn
        rw [Function.update_idem] at hstores
        exact .inr ⟨s', hs', hstores⟩
  · rw [hrun, hsome]
    obtain ⟨s', hs', hstores⟩ := hassign hholds hrb htable (hn.trans n.le_succ)
    exact .inr ⟨s', hs', hstores⟩

omit [LinearOrder κ] in
/-- `cleanup` frees the nodes of a tree and no others. -/
lemma cleanup_spec {top : Option α} {M : Multiset (α × Node α κ ν)} {t : PtrTree α (κ × ν)}
    (ht : t.ptr ≠ none) (h : Owns s.heap (cells top t + M)) (hfuel : t.height ≤ fuel) :
    Yields (s.cleanup t.ptr fuel) s.root M := by
  induction fuel generalizing s top M t with
  | zero =>
      cases t with
      | leaf => exact absurd rfl ht
      | node p b c kids => simp [PtrTree.height] at hfuel
  | succ fuel ih =>
      cases t with
      | leaf => exact absurd rfl ht
      | node p b c kids =>
          have hkid : ∀ (s : RedBlackTree α κ ν) (N : Multiset (α × Node α κ ν)) (d : Side),
              Owns s.heap (cells (some p) (kids d) + N) →
              Yields (if (kids d).ptr ≠ none then s.cleanup (kids d).ptr fuel else .ok s)
                s.root N := by
            intro s N d howns
            split_ifs with hd
            · have hlt := PtrTree.height_kid_lt p b c kids d
              exact ih hd howns (by omega)
            · rw [not_not, PtrTree.ptr_eq_none] at hd
              rw [hd, cells_leaf, zero_add] at howns
              exact ⟨s, rfl, rfl, howns⟩
          rw [cells, add_assoc] at h
          rw [PtrTree.ptr_node, cleanup, deref_of_owns h]
          simp only [bind, Except.bind]
          obtain ⟨s₁, hrun₁, hroot₁, h₁⟩ := hkid s _ .left (h.of_eq (by
            rw [← add_assoc, ← add_assoc, add_comm (cell _ _ _ _ _), add_assoc, add_assoc]))
          rw [hrun₁]
          simp only [deref_of_owns h₁]
          obtain ⟨s₂, hrun₂, hroot₂, h₂⟩ := hkid s₁ _ .right (h₁.of_eq (by
            rw [← add_assoc, add_comm (cell _ _ _ _ _), add_assoc]))
          rw [hrun₂]
          have hfree : s₂.free (some p) =
              .ok { s₂ with heap := Function.update s₂.heap p none } := by
            simp only [free, h₂.get]
          exact ⟨_, hfree, hroot₂.trans hroot₁, h₂.erase⟩

/-- **`clear`** frees every node. -/
lemma clear_spec (h : Stores s m n) (hfuel : n ≤ fuel) :
    ∃ s', s.clear fuel = .ok s' ∧ Stores s' (fun _ => none) 0 := by
  obtain ⟨t, hholds, -, -, hn⟩ := h
  have hempty : ∀ {s : RedBlackTree α κ ν}, s.root = none → Owns s.heap 0 →
      Stores s (fun _ => none) 0 :=
    fun hroot howns => ⟨.leaf, ⟨hroot, howns⟩, ⟨0, .leaf⟩, Tabulates.nil, le_rfl⟩
  rw [clear, hholds.root]
  split_ifs with ht
  · have howns : Owns s.heap (cells none t + 0) := hholds.owns.of_eq (add_zero _).symm
    have hheight := t.height_le_length.trans (hn.trans hfuel)
    obtain ⟨s', hrun, -, howns'⟩ := cleanup_spec ht howns hheight
    rw [hrun]
    exact ⟨_, rfl, hempty rfl howns'⟩
  · rw [not_not, PtrTree.ptr_eq_none] at ht
    subst ht
    exact ⟨s, rfl, hempty hholds.root hholds.owns⟩

end Map

/-! ### Runs -/

/-- What a program does with a tree: `f` is what it does through the reference that `operator[]`
returns. -/
inductive MapOp (κ ν : Type)
  | setData (key : κ) (data : ν)
  | index (key : κ) (f : ν → ν)
  | removeKey (key : κ) (noExcept : Bool)
  | clear

section Runs

variable [DecidableEq α] [LinearOrder κ] [Inhabited ν] {A : Allocator α}

/-- An operation on the tree. -/
def MapOp.run (A : Allocator α) (fuel : ℕ) (s : RedBlackTree α κ ν) :
    MapOp κ ν → Except Fault (RedBlackTree α κ ν)
  | .setData key data => s.setData A key data fuel
  | .index key f => do
      let r ← s.index A key fuel
      r.2.setNodeData r.1 f
  | .removeKey key noExcept => s.removeKey key noExcept fuel
  | .clear => s.clear fuel

/-- What it does to the map, or none where the program dies. -/
def MapOp.apply (m : κ → Option ν) : MapOp κ ν → Option (κ → Option ν)
  | .setData key data => some (Function.update m key (some data))
  | .index key f => some (Function.update m key (some (f ((m key).getD default))))
  | .removeKey key noExcept =>
      if noExcept = false ∧ m key = none then none else some (Function.update m key none)
  | .clear => some fun _ => none

/-- One operation. -/
lemma MapOp.run_spec {s : RedBlackTree α κ ν} {m : κ → Option ν} {n fuel : ℕ} (h : Stores s m n)
    (op : MapOp κ ν) (hfuel : n + 5 ≤ fuel) :
    (A.Fails ∧ op.run A fuel s = .error .outOfMemory) ∨
      (op.apply m = none ∧ op.run A fuel s = .error .died) ∨
      ∃ s' m', op.apply m = some m' ∧ op.run A fuel s = .ok s' ∧ Stores s' m' (n + 1) := by
  have hmore : ∀ {s : RedBlackTree α κ ν} {m : κ → Option ν} {l : ℕ}, Stores s m l → l ≤ n + 1 →
      Stores s m (n + 1) := by
    rintro s m l ⟨t, hholds, hrb, htable, hl⟩ hle
    exact ⟨t, hholds, hrb, htable, hl.trans hle⟩
  cases op with
  | setData key data =>
      refine (setData_spec h key data (by omega)).imp_right ?_
      rintro ⟨s', hrun, h'⟩
      exact .inr ⟨s', _, rfl, hrun, h'⟩
  | index key f =>
      refine (index_spec h key f (by omega)).imp_right ?_
      rintro ⟨s', hrun, h'⟩
      exact .inr ⟨s', _, rfl, hrun, h'⟩
  | removeKey key noExcept =>
      refine .inr ?_
      rcases removeKey_spec h key noExcept hfuel with ⟨hdies, hrun⟩ | ⟨hlives, s', hrun, h'⟩
      · exact .inl ⟨if_pos hdies, hrun⟩
      · exact .inr ⟨s', _, if_neg hlives, hrun, hmore h' n.le_succ⟩
  | clear =>
      obtain ⟨s', hrun, h'⟩ := clear_spec h (by omega : n ≤ fuel)
      exact .inr (.inr ⟨s', _, rfl, hrun, hmore h' (Nat.zero_le _)⟩)

/-- A run from a tree. -/
lemma runs_spec {s : RedBlackTree α κ ν} {m : κ → Option ν} {n fuel : ℕ} (h : Stores s m n)
    (ops : List (MapOp κ ν)) (hfuel : n + ops.length + 5 ≤ fuel) :
    (A.Fails ∧ ops.foldlM (MapOp.run A fuel) s = .error .outOfMemory) ∨
      (ops.foldlM MapOp.apply m = none ∧ ops.foldlM (MapOp.run A fuel) s = .error .died) ∨
      ∃ s' m', ops.foldlM MapOp.apply m = some m' ∧ ops.foldlM (MapOp.run A fuel) s = .ok s' ∧
        Stores s' m' (n + ops.length) := by
  induction ops generalizing s m n with
  | nil => exact .inr (.inr ⟨s, m, rfl, rfl, h⟩)
  | cons op ops ih =>
      rw [List.length_cons] at hfuel
      rw [List.foldlM_cons, List.foldlM_cons]
      rcases MapOp.run_spec (A := A) h op (by omega : n + 5 ≤ fuel) with
        ⟨hfails, hrun⟩ | ⟨hdies, hrun⟩ | ⟨s', m', happly, hrun, h'⟩
      · rw [hrun]
        exact .inl ⟨hfails, rfl⟩
      · rw [hrun, hdies]
        exact .inr (.inl ⟨rfl, rfl⟩)
      · have hlength : n + 1 + ops.length = n + (op :: ops).length := by
          rw [List.length_cons]
          omega
        have hrest := ih h' (by omega)
        rw [hlength] at hrest
        rw [hrun, happly]
        exact hrest

/-- **The tree is a finite map.** A run from the empty tree, given enough rounds, either stops at
an allocation that fails, or stops where a missing key is removed without `noExcept`, or leaves a
red-black tree, with exactly its nodes allocated, for the map that the run makes; and the queries
then answer as the map does. -/
theorem treeMap_runs (A : Allocator α) (ops : List (MapOp κ ν)) (fuel : ℕ)
    (hfuel : ops.length + 5 ≤ fuel) :
    (A.Fails ∧ ops.foldlM (MapOp.run A fuel) empty = .error .outOfMemory) ∨
      (ops.foldlM MapOp.apply (fun _ => none) = none ∧
        ops.foldlM (MapOp.run A fuel) empty = .error .died) ∨
      ∃ s m, ops.foldlM MapOp.apply (fun _ => none) = some m ∧
        ops.foldlM (MapOp.run A fuel) empty = .ok s ∧ Stores s m ops.length ∧
        ∀ key fallback, s.hasKey key fuel = .ok (m key).isSome ∧
          s.getData key fuel = (m key).elim (.error .died) .ok ∧
          s.copyData key fallback fuel = ((m key).or fallback).elim (.error .died) .ok := by
  have hfuel₀ : 0 + ops.length + 5 ≤ fuel := by omega
  refine (runs_spec Stores.empty ops hfuel₀).imp_right fun h => h.imp_right ?_
  rintro ⟨s, m, happly, hrun, hstores⟩
  rw [Nat.zero_add] at hstores
  exact ⟨s, m, happly, hrun, hstores, fun key fallback =>
    queries_spec hstores key fallback (by omega)⟩

/-- An allocator over all numbers. -/
def counting : Allocator ℕ where
  alloc n inUse := if inUse n then none else some n
  fresh := by
    intro n inUse p h
    split_ifs at h with hn
    obtain rfl := Option.some.inj h
    exact Bool.eq_false_iff.mpr hn

/-- The second key is the root's child, and goes up when the root is removed. -/
theorem treeMap_runs_root : ∃ s m, Stores s m 4 ∧
    [MapOp.setData 2 20, .setData 3 30, .index 3 (· + 1), .removeKey 2 false].foldlM
      (MapOp.run counting 9) empty = .ok s ∧ m 3 = some 31 ∧ s.getData 3 9 = .ok 31 := by
  rcases treeMap_runs counting [MapOp.setData 2 20, .setData 3 30, .index 3 (· + 1),
    .removeKey 2 false] 9 (by decide) with ⟨-, h⟩ | ⟨h, -⟩ | ⟨s, m, happly, hrun, hstores, hqueries⟩
  · cases h
  · cases h
  · have hm : m 3 = some 31 := by
      obtain rfl := Option.some.inj happly
      rfl
    have hget := (hqueries 3 none).2.1
    rw [hm] at hget
    exact ⟨s, m, hstores, hrun, hm, hget⟩

end Runs

end RedBlackTree

end Adl
