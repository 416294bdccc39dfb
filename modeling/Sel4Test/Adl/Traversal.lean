import Sel4Test.Adl.TreeMap

/-!
Traversal of the red-black tree, `adl/collections/RedBlackTree.hpp`: the iterator, `size` and
`rangeScan`.

* `At s it l`: the iterator still has the pairs `l` before it.
* `next_spec`: a step of the iterator takes the first of them.
* `iterate_spec`, `size_spec`, `rangeScan_spec`: the loops visit the pairs that they should, in
  order.
-/

namespace Adl

open RedBlack FiniteMap

variable {α κ ν σ : Type}

namespace RedBlackTree

/-! ### The code -/

section Code

variable [DecidableEq α] [LinearOrder κ]

/-- `RedBlackTreeIterator`. -/
structure Iterator (α : Type) where
  root : Option α
  curr : Option α

/-- The constructor of the iterator. -/
def Iterator.make (s : RedBlackTree α κ ν) (root : Option α) (fuel : ℕ) :
    Except Fault (Iterator α) :=
  match root with
  | none => .ok ⟨none, none⟩
  | some p => do
      let curr ← s.outermost .left (some p) fuel
      return ⟨some p, curr⟩

/-- `begin`. -/
def first (s : RedBlackTree α κ ν) (fuel : ℕ) : Except Fault (Iterator α) :=
  Iterator.make s s.root fuel

/-- `end`. -/
def last : Iterator α := ⟨none, none⟩

/-- `operator ==`. -/
def Iterator.same (a b : Iterator α) : Bool :=
  (a.root.isNone && b.root.isNone) || (a.root = b.root && a.curr = b.curr)

/-- The last loop of `doOperatorPlusPlus`, which goes up. -/
def climb (s : RedBlackTree α κ ν) (it : Iterator α) : ℕ → Except Fault (Iterator α)
  | 0 => .error .outOfFuel
  | fuel + 1 => do
      let n ← s.deref it.curr
      match n.parent with
      | none => .ok { it with root := none }
      | some q => do
          let p ← s.deref (some q)
          if p.child .right = it.curr then s.climb { it with curr := some q } fuel
          else .ok { it with curr := some q }

/-- `doOperatorPlusPlus`. -/
def next (s : RedBlackTree α κ ν) (it : Iterator α) (fuel : ℕ) : Except Fault (Iterator α) :=
  match it.root with
  | none => .ok it
  | some _ => do
      let n ← s.deref it.curr
      if n.child .right ≠ none then
        let curr ← s.outermost .left (n.child .right) fuel
        return { it with curr }
      else s.climb it fuel

/-- The rounds of a loop over the tree, from an iterator to the end. -/
def iterateFrom (s : RedBlackTree α κ ν) (body : σ → κ × ν → σ) (fuel : ℕ) :
    σ → Iterator α → ℕ → Except Fault σ
  | _, _, 0 => .error .outOfFuel
  | acc, it, rounds + 1 =>
      if it.same last then .ok acc
      else do
        let n ← s.deref it.curr
        let it ← s.next it fuel
        s.iterateFrom body fuel (body acc (n.key, n.data)) it rounds

/-- `for (auto& e : tree)`: the body gets a key and its value. -/
def iterate (s : RedBlackTree α κ ν) (body : σ → κ × ν → σ) (acc : σ) (fuel : ℕ) :
    Except Fault σ := do
  let it ← s.first fuel
  s.iterateFrom body fuel acc it fuel

/-- `size`. The nodes are at different addresses, so that the counter does not wrap. -/
def size (s : RedBlackTree α κ ν) (fuel : ℕ) : Except Fault ℕ :=
  s.iterate (fun count _ => count + 1) 0 fuel

/-- What a collector does to the data it is passed; no collector is a null pointer. What it
returns is not looked at. -/
def collect (collector : Option (σ → κ → ν → Bool × σ)) (data : σ) (e : κ × ν) : σ :=
  match collector with
  | none => data
  | some f => (f data e.1 e.2).2

/-- `doRangeScan`. -/
def doRangeScan (s : RedBlackTree α κ ν) (lhs rhs : κ)
    (collector : Option (σ → κ → ν → Bool × σ)) : Option α → σ → ℕ → Except Fault (ℕ × σ)
  | _, _, 0 => .error .outOfFuel
  | node, data, fuel + 1 => do
      let n ← s.deref node
      let l ← (if n.child .left ≠ none ∧ n.key ≥ lhs then
        s.doRangeScan lhs rhs collector (n.child .left) data fuel else .ok (0, data))
      let c := if n.key ≥ lhs ∧ rhs ≥ n.key then
        (l.1 + 1, collect collector l.2 (n.key, n.data)) else l
      let r ← (if n.child .right ≠ none ∧ rhs ≥ n.key then
        s.doRangeScan lhs rhs collector (n.child .right) c.2 fuel else .ok (0, c.2))
      return (c.1 + r.1, r.2)

/-- `rangeScan`. -/
def rangeScan (s : RedBlackTree α κ ν) (lhs rhs : κ) (data : σ)
    (collector : Option (σ → κ → ν → Bool × σ)) (fuel : ℕ) : Except Fault (ℕ × σ) :=
  if s.root ≠ none then s.doRangeScan lhs rhs collector s.root data fuel else .ok (0, data)

end Code

/-! ### Iteration -/

section Iteration

variable {s : RedBlackTree α κ ν} {ctx : Ctx α (κ × ν)} {t : PtrTree α (κ × ν)} {p : α}
  {b : κ × ν} {c : Color} {kids : Side → PtrTree α (κ × ν)} {l : List (κ × ν)} {fuel : ℕ}

/-- The iterator still has these pairs before it, in a tree of some height below the bound. -/
inductive At (s : RedBlackTree α κ ν) (fuel : ℕ) : Iterator α → List (κ × ν) → Prop
  | done (curr : Option α) : At s fuel ⟨none, curr⟩ []
  | node {ctx : Ctx α (κ × ν)} {p : α} {b : κ × ν} {c : Color}
      {kids : Side → PtrTree α (κ × ν)} (h : Holds s (plug ctx (.node p b c kids)))
      (hfuel : (plug ctx (.node p b c kids)).entries.length < fuel) :
      At s fuel ⟨s.root, some p⟩ (b :: ((kids .right).entries ++ after ctx).map Prod.snd)

/-- The first node of a tree in a context. -/
lemma at_outermost [LinearOrder κ] (h : Holds s (plug ctx (.node p b c kids)))
    (hfuel : (plug ctx (.node p b c kids)).entries.length < fuel) :
    ∃ q, s.outermost .left (some p) fuel = .ok (some q) ∧
      At s fuel ⟨s.root, some q⟩
        (((PtrTree.node p b c kids).entries ++ after ctx).map Prod.snd) := by
  have hheight : (PtrTree.node p b c kids).height ≤ fuel :=
    (height_le_plug ctx _).trans ((PtrTree.height_le_length _).trans hfuel.le)
  obtain ⟨ctx', q, b', c', u, hrun, htree, hside⟩ := outermost_spec (e := .left) h hheight
  refine ⟨q, hrun, ?_⟩
  rw [htree, ← plug_append] at h hfuel
  have hlist : ((PtrTree.node p b c kids).entries ++ after ctx).map Prod.snd =
      b' :: ((pair .left .leaf u .right).entries ++ after (ctx' ++ ctx)).map Prod.snd := by
    rw [htree, entries_plug, before_of_left hside, PtrTree.entries_node, after_append]
    simp [pair]
  rw [hlist]
  exact .node h hfuel

variable [DecidableEq α]

/-- Going up from a node whose right subtree is done. -/
lemma climb_spec {rounds : ℕ} (h : Holds s (plug ctx (.node p b c kids)))
    (hfuel : (plug ctx (.node p b c kids)).entries.length < fuel) (hrounds : ctx.length < rounds) :
    ∃ it, s.climb ⟨s.root, some p⟩ rounds = .ok it ∧ At s fuel it ((after ctx).map Prod.snd) := by
  induction rounds generalizing ctx p b c kids with
  | zero => omega
  | succ rounds ih =>
      rw [climb, deref_focus h]
      cases ctx with
      | nil => exact ⟨⟨none, some p⟩, rfl, .done _⟩
      | cons f ctx =>
          obtain ⟨d, q, b', c', sib⟩ := f
          have hsib := sib_ne h
          simp only [above, bind, Except.bind, deref_parent h, PtrTree.ptr_node]
          cases d with
          | left =>
              rw [if_neg (by simpa [pair] using hsib)]
              refine ⟨_, rfl, ?_⟩
              have hat : At s fuel ⟨s.root, some q⟩ _ := .node (parent h) hfuel
              simpa [after, Frame.after, pair] using hat
          | right =>
              rw [if_pos (by simp [pair])]
              rw [List.length_cons] at hrounds
              have hafter : after (⟨.right, q, b', c', sib⟩ :: ctx) = after ctx := rfl
              rw [hafter]
              exact ih (parent h) hfuel (by omega)

/-- **A step of the iterator** takes the first pair before it. -/
lemma next_spec [LinearOrder κ] {it : Iterator α} {e : κ × ν} (h : At s fuel it (e :: l)) :
    ∃ n it', s.deref it.curr = .ok n ∧ (n.key, n.data) = e ∧ it.same last = false ∧
      s.next it fuel = .ok it' ∧ At s fuel it' l := by
  cases h with
  | @node ctx p b c kids h hfuel =>
      have hroot : s.root ≠ none := by
        rw [h.root, ptr_plug, PtrTree.ptr_node]
        cases ctx with
        | nil => simp [rootOf]
        | cons f ctx =>
            obtain ⟨r, hr, -⟩ := rootOf_mem f none (rfl : rootOf (f :: ctx) (some p) = _)
            simp [hr]
      obtain ⟨r, hr⟩ := Option.ne_none_iff_exists'.mp hroot
      have hsame : Iterator.same ⟨s.root, some p⟩ last = false := by
        rw [hr]
        rfl
      have hlength : ctx.length < fuel := by
        rw [length_entries_plug] at hfuel
        have hctx := length_le_before_after ctx
        omega
      have hnext : s.next ⟨s.root, some p⟩ fuel = (if (kids .right).ptr ≠ none then do
            let curr ← s.outermost .left (kids .right).ptr fuel
            return ⟨s.root, curr⟩
          else s.climb ⟨s.root, some p⟩ fuel) := by
        rw [next, hr]
        simp only [deref_focus h, bind, Except.bind]
      rw [hnext]
      cases hkid : kids .right with
      | leaf =>
          obtain ⟨it', hrun, hat⟩ := climb_spec h hfuel hlength
          exact ⟨_, it', deref_focus h, rfl, hsame, hrun, hat⟩
      | node q b' c' kids' =>
          have hright := kid h .right
          rw [← fill_kids .right, ← plug_cons] at hfuel
          rw [hkid] at hright hfuel
          obtain ⟨r, hrun, hat⟩ := at_outermost hright hfuel
          refine ⟨_, ⟨s.root, some r⟩, deref_focus h, rfl, hsame, ?_, hat⟩
          rw [PtrTree.ptr_node, if_pos (by simp), hrun]
          rfl

/-- The rest of a loop over the tree. -/
lemma iterateFrom_spec [LinearOrder κ] {it : Iterator α} {rounds : ℕ} (h : At s fuel it l)
    (body : σ → κ × ν → σ) (acc : σ) (hrounds : l.length < rounds) :
    s.iterateFrom body fuel acc it rounds = .ok (l.foldl body acc) := by
  induction l generalizing it rounds acc with
  | nil =>
      obtain ⟨rounds, rfl⟩ := Nat.exists_eq_add_of_lt hrounds
      cases h with
      | done curr => rfl
  | cons e l ih =>
      obtain ⟨rounds, rfl⟩ := Nat.exists_eq_add_of_lt hrounds
      obtain ⟨n, it', hread, rfl, hsame, hrun, hat⟩ := next_spec h
      rw [iterateFrom, hsame, hread]
      simp only [bind, Except.bind, hrun]
      exact ih hat _ (by rw [List.length_cons]; omega)

end Iteration

section Map

variable [DecidableEq α] [LinearOrder κ] {s : RedBlackTree α κ ν} {m : κ → Option ν} {n fuel : ℕ}

/-- **A loop over the tree** visits the pairs of the map in the order of the keys. -/
lemma iterate_spec (h : Stores s m n) (hfuel : n < fuel) :
    ∃ l, Tabulates l m ∧ ∀ {σ : Type} (body : σ → κ × ν → σ) (acc : σ),
      s.iterate body acc fuel = .ok (l.foldl body acc) := by
  obtain ⟨t, hholds, -, htable, hn⟩ := h
  refine ⟨_, htable, fun body acc => ?_⟩
  have hat : ∃ it, s.first fuel = .ok it ∧ At s fuel it (t.entries.map Prod.snd) := by
    rw [first, hholds.root]
    cases t with
    | leaf => exact ⟨⟨none, none⟩, rfl, .done none⟩
    | node p b c kids =>
        have hplug : Holds s (plug [] (.node p b c kids)) := hholds
        obtain ⟨q, hrun, hat⟩ := at_outermost hplug (hn.trans_lt hfuel)
        rw [PtrTree.ptr_node, Iterator.make, hrun]
        rw [hholds.root] at hat
        rw [after, List.append_nil] at hat
        exact ⟨_, rfl, hat⟩
  obtain ⟨it, hfirst, hat⟩ := hat
  rw [iterate, hfirst]
  exact iterateFrom_spec hat body acc (by rw [List.length_map]; omega)

/-- **`size`** is the number of keys. -/
lemma size_spec (h : Stores s m n) (hfuel : n < fuel) :
    ∃ l, Tabulates l m ∧ s.size fuel = .ok l.length := by
  obtain ⟨l, htable, hrun⟩ := iterate_spec h hfuel
  refine ⟨l, htable, ?_⟩
  rw [size, hrun]
  have hcount : ∀ (l : List (κ × ν)) (a : ℕ),
      l.foldl (fun count _ => count + 1) a = a + l.length := by
    intro l
    induction l with
    | nil => simp
    | cons e l ih =>
        intro a
        rw [List.foldl_cons, ih, List.length_cons]
        omega
  rw [hcount, Nat.zero_add]

end Map

/-! ### Range scan -/

section Scan

variable [LinearOrder κ] {s : RedBlackTree α κ ν} {ctx : Ctx α (κ × ν)} {t : PtrTree α (κ × ν)}
  {lhs rhs : κ} {fuel : ℕ}

/-- The pairs of a tree with the keys between the bounds. -/
def inRange (lhs rhs : κ) (t : PtrTree α (κ × ν)) : List (κ × ν) :=
  (t.entries.map Prod.snd).filter fun e => lhs ≤ e.1 ∧ e.1 ≤ rhs

lemma inRange_node (p : α) (b : κ × ν) (c : Color) (kids : Side → PtrTree α (κ × ν)) :
    inRange lhs rhs (.node p b c kids) = inRange lhs rhs (kids .left) ++
      (if lhs ≤ b.1 ∧ b.1 ≤ rhs then [b] else []) ++ inRange lhs rhs (kids .right) := by
  simp only [inRange, PtrTree.entries_node, List.map_append, List.map_cons,
    List.filter_append, List.filter_cons, decide_eq_true_eq, List.append_assoc]
  split_ifs <;> rfl

/-- Nothing is in range left of a key that is too small. -/
lemma inRange_of_lt {k : κ} (h : ∀ e ∈ t.entries, e.2.1 < k) (hk : k ≤ lhs) :
    inRange lhs rhs t = [] := by
  rw [inRange, List.filter_eq_nil_iff]
  intro e he
  obtain ⟨e', he', rfl⟩ := List.mem_map.mp he
  have hlt := (h e' he').trans_le hk
  simp [hlt.not_ge]

/-- Nothing is in range right of a key that is too great. -/
lemma inRange_of_gt {k : κ} (h : ∀ e ∈ t.entries, k < e.2.1) (hk : rhs ≤ k) :
    inRange lhs rhs t = [] := by
  rw [inRange, List.filter_eq_nil_iff]
  intro e he
  obtain ⟨e', he', rfl⟩ := List.mem_map.mp he
  have hlt := hk.trans_lt (h e' he')
  simp [hlt.not_ge]

/-- **The scan of a subtree**: what it passes by is out of range. -/
lemma doRangeScan_spec (h : Holds s (plug ctx t)) (hasc : Ascending t.entries) (ht : t ≠ .leaf)
    (collector : Option (σ → κ → ν → Bool × σ)) (data : σ) (hfuel : t.height ≤ fuel) :
    s.doRangeScan lhs rhs collector t.ptr data fuel =
      .ok ((inRange lhs rhs t).length, (inRange lhs rhs t).foldl (collect collector) data) := by
  induction fuel generalizing ctx t data with
  | zero =>
      cases t with
      | leaf => exact absurd rfl ht
      | node p b c kids => simp [PtrTree.height] at hfuel
  | succ fuel ih =>
      cases t with
      | leaf => exact absurd rfl ht
      | node p b c kids =>
          rw [PtrTree.entries_node] at hasc
          obtain ⟨hascLeft, hcons, hlow⟩ := List.pairwise_append.mp hasc
          obtain ⟨hhigh, hascRight⟩ := List.pairwise_cons.mp hcons
          have hkid : ∀ (d : Side) (data : σ) (P : Prop) [Decidable P], Ascending (kids d).entries →
              (¬P → inRange lhs rhs (kids d) = []) →
              (if (kids d).ptr ≠ none ∧ P then
                s.doRangeScan lhs rhs collector (kids d).ptr data fuel else .ok (0, data)) =
              .ok ((inRange lhs rhs (kids d)).length,
                (inRange lhs rhs (kids d)).foldl (collect collector) data) := by
            intro d data P _ hkids hskip
            split_ifs with hscan
            · have hheight := PtrTree.height_kid_lt p b c kids d
              have hleaf : kids d ≠ .leaf := fun hd => hscan.1 (PtrTree.ptr_eq_none.mpr hd)
              exact ih (kid h d) hkids hleaf data (by omega)
            · have hnil : inRange lhs rhs (kids d) = [] := by
                by_cases hd : (kids d).ptr = none
                · rw [PtrTree.ptr_eq_none.mp hd]
                  rfl
                · exact hskip fun hP => hscan ⟨hd, hP⟩
              rw [hnil]
              rfl
          have hleft := hkid .left data (b.1 ≥ lhs) hascLeft fun hlt =>
            inRange_of_lt (fun e he => hlow e he _ List.mem_cons_self) (not_le.mp hlt).le
          have hright : ∀ data, _ := fun data => hkid .right data (rhs ≥ b.1) hascRight fun hgt =>
            inRange_of_gt hhigh (not_le.mp hgt).le
          rw [PtrTree.ptr_node, doRangeScan, deref_focus h]
          simp only [bind, Except.bind, hleft, hright, inRange_node, pure, Except.pure]
          by_cases hhere : lhs ≤ b.1 ∧ b.1 ≤ rhs
          · simp [hhere, Nat.add_assoc, Nat.add_comm 1]
          · simp [hhere]

/-- **`rangeScan`** collects the pairs of the map with the keys between the bounds. -/
lemma rangeScan_spec {m : κ → Option ν} {n : ℕ} (h : Stores s m n) (hfuel : n < fuel) :
    ∃ l, Tabulates l m ∧ ∀ {σ : Type} (lhs rhs : κ) (data : σ)
      (collector : Option (σ → κ → ν → Bool × σ)),
      s.rangeScan lhs rhs data collector fuel =
        .ok ((l.filter fun e => lhs ≤ e.1 ∧ e.1 ≤ rhs).length,
          (l.filter fun e => lhs ≤ e.1 ∧ e.1 ≤ rhs).foldl (collect collector) data) := by
  obtain ⟨t, hholds, -, htable, hn⟩ := h
  refine ⟨_, htable, fun lhs rhs data collector => ?_⟩
  have hasc : Ascending t.entries := by
    have hsorted := htable.sorted
    rwa [List.pairwise_map] at hsorted
  have hplug : Holds s (plug [] t) := hholds
  rw [rangeScan, hholds.root]
  split_ifs with ht
  · exact doRangeScan_spec hplug hasc (fun hleaf => ht (PtrTree.ptr_eq_none.mpr hleaf))
      collector data ((t.height_le_length.trans hn).trans hfuel.le)
  · rw [not_not, PtrTree.ptr_eq_none] at ht
    rw [ht]
    rfl

end Scan

/-! ### Runs -/

section Runs

variable [DecidableEq α] [LinearOrder κ] [Inhabited ν] {A : Allocator α}

/-- **Traversal** in every reachable tree. A loop from `begin` to `end` visits the pairs of the
map in the order of the keys, each once; `size` is their number; and `rangeScan` collects those
whose keys are between the bounds, in the same order. -/
theorem traversal_runs (A : Allocator α) (ops : List (MapOp κ ν)) (fuel fuel' : ℕ)
    (hfuel : ops.length + 5 ≤ fuel) (hfuel' : ops.length < fuel') (s : RedBlackTree α κ ν)
    (hrun : ops.foldlM (MapOp.run A fuel) empty = .ok s) :
    ∃ m l, ops.foldlM MapOp.apply (fun _ => none) = some m ∧ Tabulates l m ∧
      l.length = Set.ncard {k | m k ≠ none} ∧
      (∀ {σ : Type} (body : σ → κ × ν → σ) (acc : σ),
        s.iterate body acc fuel' = .ok (l.foldl body acc)) ∧
      s.size fuel' = .ok l.length ∧
      ∀ {σ : Type} (lhs rhs : κ) (data : σ) (collector : Option (σ → κ → ν → Bool × σ)),
        s.rangeScan lhs rhs data collector fuel' =
          .ok ((l.filter fun e => lhs ≤ e.1 ∧ e.1 ≤ rhs).length,
            (l.filter fun e => lhs ≤ e.1 ∧ e.1 ≤ rhs).foldl (collect collector) data) := by
  have hfuel₀ : 0 + ops.length + 5 ≤ fuel := by omega
  rcases runs_spec (A := A) Stores.empty ops hfuel₀ with
    ⟨-, herror⟩ | ⟨-, herror⟩ | ⟨s', m, happly, hok, hstores⟩
  · rw [hrun] at herror
    cases herror
  · rw [hrun] at herror
    cases herror
  · obtain rfl := Except.ok.inj (hrun.symm.trans hok)
    rw [Nat.zero_add] at hstores
    obtain ⟨l, htable, hiterate⟩ := iterate_spec hstores hfuel'
    obtain ⟨l₁, htable₁, hsize⟩ := size_spec hstores hfuel'
    obtain ⟨l₂, htable₂, hscan⟩ := rangeScan_spec hstores hfuel'
    rw [htable₁.unique htable] at hsize
    rw [htable₂.unique htable] at hscan
    exact ⟨m, l, happly, htable, htable.length_eq_ncard, hiterate, hsize, hscan⟩

/-- Three keys, of which one is removed. -/
theorem traversal_runs_three : ∃ s m l, m 2 = none ∧ m 3 = some 30 ∧ Tabulates l m ∧
    [MapOp.setData 2 20, .setData 1 10, .setData 3 30, .removeKey 2 true].foldlM
      (MapOp.run counting 9) empty = .ok s ∧
    s.iterate (fun keys e => e.1 :: keys) [] 5 = .ok (l.foldl (fun keys e => e.1 :: keys) []) := by
  obtain ⟨s, hrun⟩ : ∃ s, [MapOp.setData 2 20, .setData 1 10, .setData 3 30,
      .removeKey 2 true].foldlM (MapOp.run counting 9) empty = .ok s := ⟨_, rfl⟩
  obtain ⟨m, l, happly, htable, -, hiterate, -⟩ := traversal_runs counting
    [MapOp.setData 2 20, .setData 1 10, .setData 3 30, .removeKey 2 true] 9 5
    (by decide) (by decide) s hrun
  obtain rfl := Option.some.inj happly
  exact ⟨s, _, l, rfl, rfl, htable, hrun, hiterate _ _⟩

end Runs

end RedBlackTree

end Adl
