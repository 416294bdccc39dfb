import Mathlib.Tactic
import Sel4Test.Lib.Ledger

/-!
A heap of arrays.

A block is an array of values under a name; a name is never given twice. Reading, writing and
releasing stop at a fault, `none`, where the block is not live or ends before. Reading and
writing nothing is no fault, whatever the pointer.

* `read_block`, `write_block`, `free_block`: what the operations do to a live block.
* `read_released`: what is not live cannot be read.
* `live_of_write`, `live_of_free`: which blocks there are afterwards.
* `put`, `moved`: the heap with other contents of a block, and with a new block in the place
  of another; `owned_put`, `owned_moved` are their ledgers.
-/

/-- The live blocks, and the name of the next one. -/
structure BlockHeap (α : Type) where
  block : ℕ → Option (List α)
  next : ℕ

namespace BlockHeap

variable {α : Type}

/-- No block. -/
def empty : BlockHeap α := ⟨fun _ => none, 0⟩

/-- The sizes of the live blocks. -/
def live (h : BlockHeap α) (b : ℕ) : Option ℕ := (h.block b).map List.length

/-- A new block with these contents; its name is `h.next`. -/
def alloc (h : BlockHeap α) (xs : List α) : BlockHeap α :=
  ⟨Function.update h.block h.next (some xs), h.next + 1⟩

/-- The `n` values from offset `i` on. -/
def read (h : BlockHeap α) (p : Option ℕ) (i n : ℕ) : Option (List α) :=
  if n = 0 then some []
  else do
    let b ← p
    let xs ← h.block b
    if i + n ≤ xs.length then some ((xs.drop i).take n) else none

/-- The contents with the values `vs` from offset `i` on. -/
def splice (xs : List α) (i : ℕ) (vs : List α) : List α :=
  xs.take i ++ vs ++ xs.drop (i + vs.length)

/-- The heap with other contents of a block. -/
def put (h : BlockHeap α) (b : ℕ) (xs : List α) : BlockHeap α :=
  { h with block := Function.update h.block b (some xs) }

/-- The values `vs` are written from offset `i` on. -/
def write (h : BlockHeap α) (p : Option ℕ) (i : ℕ) (vs : List α) : Option (BlockHeap α) :=
  if vs = [] then some h
  else do
    let b ← p
    let xs ← h.block b
    if i + vs.length ≤ xs.length then some (h.put b (splice xs i vs)) else none

/-- A live block is released. -/
def free (h : BlockHeap α) (p : Option ℕ) : Option (BlockHeap α) := do
  let b ← p
  if h.block b = none then none
  else some { h with block := Function.update h.block b none }

/-- The heap with a new block that has taken the place of another one. -/
def moved (h : BlockHeap α) (p : Option ℕ) (xs : List α) : BlockHeap α where
  block b := if b = h.next then some xs else if p = some b then none else h.block b
  next := h.next + 1

/-- The names from `next` on are free. -/
def Fresh (h : BlockHeap α) : Prop := ∀ b, h.next ≤ b → h.block b = none

/-- The live blocks have room in a memory of `n` values. -/
def Within (h : BlockHeap α) (n : ℕ) : Prop :=
  ∀ B : Finset ℕ, ∑ b ∈ B, (h.live b).getD 0 ≤ n

section Operations

variable {h : BlockHeap α} {b i n : ℕ} {p : Option ℕ} {xs vs : List α}

lemma read_block (hb : h.block b = some xs) (hle : i + n ≤ xs.length) :
    h.read (some b) i n = some ((xs.drop i).take n) := by
  rw [read]
  split_ifs with hn
  · rw [hn, List.take_zero]
  · simp [hb, hle]

lemma read_zero : h.read p i 0 = some [] := if_pos rfl

lemma length_read (hread : h.read p i n = some vs) : vs.length = n := by
  rw [read] at hread
  split_ifs at hread with hn
  · obtain rfl := Option.some.inj hread
    exact hn.symm
  · obtain ⟨b, -, hread⟩ := Option.bind_eq_some_iff.mp hread
    obtain ⟨xs, -, hread⟩ := Option.bind_eq_some_iff.mp hread
    split_ifs at hread with hle
    obtain rfl := Option.some.inj hread
    rw [List.length_take, List.length_drop]
    omega

lemma length_splice (hle : i + vs.length ≤ xs.length) : (splice xs i vs).length = xs.length := by
  simp only [splice, List.length_append, List.length_take, List.length_drop]
  omega

lemma splice_nil : splice xs i [] = xs := by
  simp [splice]

/-- The values up to the end of what has been written. -/
lemma take_splice (hle : i ≤ xs.length) :
    (splice xs i vs).take (i + vs.length) = xs.take i ++ vs := by
  have hlen : (xs.take i ++ vs).length = i + vs.length := by
    rw [List.length_append, List.length_take_of_le hle]
  rw [splice, ← hlen, List.take_left]

lemma write_block (hb : h.block b = some xs) (hle : i + vs.length ≤ xs.length) :
    h.write (some b) i vs = some (h.put b (splice xs i vs)) := by
  rw [write]
  split_ifs with hvs
  · rw [hvs, splice_nil, put, Function.update_eq_self_iff.mpr hb.symm]
  · simp [hb, hle]

lemma write_nil : h.write p i [] = some h := if_pos rfl

/-- Writing changes no other block. -/
lemma block_write_of_ne {h' : BlockHeap α} (hwrite : h.write p i vs = some h')
    (hne : p ≠ some b) : h'.block b = h.block b := by
  rw [write] at hwrite
  split_ifs at hwrite with hvs
  · rw [Option.some.inj hwrite]
  · obtain ⟨q, rfl, hput⟩ := Option.bind_eq_some_iff.mp hwrite
    obtain ⟨xs, -, hput⟩ := Option.bind_eq_some_iff.mp hput
    split_ifs at hput
    obtain rfl := Option.some.inj hput
    refine Function.update_of_ne ?_ ..
    rintro rfl
    exact hne rfl

/-- Writing neither makes nor releases a block. -/
lemma live_of_write {h' : BlockHeap α} (hwrite : h.write p i vs = some h') :
    h'.live = h.live ∧ h'.next = h.next := by
  rw [write] at hwrite
  split_ifs at hwrite with hvs
  · rw [Option.some.inj hwrite]
    exact ⟨rfl, rfl⟩
  · obtain ⟨q, rfl, hput⟩ := Option.bind_eq_some_iff.mp hwrite
    obtain ⟨xs, hq, hput⟩ := Option.bind_eq_some_iff.mp hput
    split_ifs at hput with hle
    obtain rfl := Option.some.inj hput
    refine ⟨?_, rfl⟩
    funext b
    by_cases hb : b = q
    · subst hb
      simp only [live, put, Function.update_self, hq, Option.map_some, length_splice hle]
    · simp only [live, put, Function.update_of_ne hb]

/-- What is written has room in its block. -/
lemma room_of_write {h' : BlockHeap α} (hwrite : h.write (some b) i vs = some h') (hvs : vs ≠ []) :
    ∃ m, h.live b = some m ∧ i + vs.length ≤ m := by
  rw [write, if_neg hvs] at hwrite
  simp only [Option.bind_eq_bind, Option.bind_some] at hwrite
  obtain ⟨xs, hb, hput⟩ := Option.bind_eq_some_iff.mp hwrite
  split_ifs at hput with hle
  exact ⟨xs.length, by rw [live, hb, Option.map_some], hle⟩

/-- What is not live cannot be read. -/
lemma read_released (hb : h.block b = none) (hn : n ≠ 0) : h.read (some b) i n = none := by
  rw [read, if_neg hn]
  simp only [Option.bind_eq_bind, Option.bind_some, hb, Option.bind_none]

/-- What is not live cannot be written. -/
lemma write_released (hb : h.block b = none) (hvs : vs ≠ []) : h.write (some b) i vs = none := by
  rw [write, if_neg hvs]
  simp only [Option.bind_eq_bind, Option.bind_some, hb, Option.bind_none]

/-- What is not live cannot be released. -/
lemma free_released (hb : h.block b = none) : h.free (some b) = none := by
  simp [free, hb]

lemma free_block (hb : h.block b = some xs) :
    h.free (some b) = some { h with block := Function.update h.block b none } := by
  simp [free, hb]

@[simp] lemma block_put_self : (h.put b xs).block b = some xs := Function.update_self ..

lemma put_put (vs : List α) : (h.put b xs).put b vs = h.put b vs := by
  simp [put]

lemma block_put_of_ne {b' : ℕ} (hne : b' ≠ b) : (h.put b xs).block b' = h.block b' :=
  Function.update_of_ne hne ..

lemma eq_of_free {h' : BlockHeap α} (hfree : h.free (some b) = some h') :
    h.block b ≠ none ∧ h' = { h with block := Function.update h.block b none } := by
  rw [free] at hfree
  simp only [Option.bind_eq_bind, Option.bind_some] at hfree
  split_ifs at hfree with hb
  exact ⟨hb, (Option.some.inj hfree).symm⟩

/-- Releasing takes one block away. -/
lemma live_of_free {h' : BlockHeap α} (hfree : h.free p = some h') :
    h'.next = h.next ∧ ∀ q, h'.live q = if p = some q then none else h.live q := by
  cases p with
  | none => cases hfree
  | some b =>
      obtain ⟨-, rfl⟩ := eq_of_free hfree
      refine ⟨rfl, fun q => ?_⟩
      by_cases hq : b = q
      · subst hq
        simp [live]
      · simp [live, hq, Ne.symm hq]

@[simp] lemma block_moved_next : (h.moved p xs).block h.next = some xs := if_pos rfl

lemma block_moved_of_ne (hne : b ≠ h.next) (hp : p ≠ some b) :
    (h.moved p xs).block b = h.block b :=
  (if_neg hne).trans (if_neg hp)

lemma block_moved_old (hne : b ≠ h.next) : (h.moved (some b) xs).block b = none :=
  (if_neg hne).trans (if_pos rfl)

lemma moved_put (vs : List α) : (h.moved p xs).put h.next vs = h.moved p vs := by
  simp only [put, moved, BlockHeap.mk.injEq, and_true]
  funext b
  by_cases hb : b = h.next
  · subst hb
    simp
  · simp [hb]

/-- A new block, and the old one released. -/
lemma alloc_free (hfresh : h.Fresh) (hb : h.block b = some xs) :
    ((h.alloc vs).free (some b)) = some (h.moved (some b) vs) := by
  have hne : b ≠ h.next := by
    rintro rfl
    rw [hfresh _ le_rfl] at hb
    cases hb
  have hlive : (h.alloc vs).block b = some xs := (Function.update_of_ne hne ..).trans hb
  rw [free_block hlive]
  simp only [alloc, moved, Option.some.injEq, BlockHeap.mk.injEq, and_true]
  funext b'
  by_cases hb' : b' = b
  · subst hb'
    simp [hne]
  · by_cases hn : b' = h.next
    · subst hn
      simp [hb']
    · simp [hb', hn, Ne.symm hb']

lemma alloc_eq_moved : h.alloc vs = h.moved none vs := by
  simp only [alloc, moved, BlockHeap.mk.injEq, and_true]
  funext b
  by_cases hb : b = h.next
  · subst hb
    simp
  · simp [hb]

/-- The new block is written behind what has been written to it. -/
lemma moved_write {rest : List α} (hi : xs.length = i) (hle : vs.length ≤ rest.length) :
    (h.moved p (xs ++ rest)).write (some h.next) i vs =
      some (h.moved p (xs ++ vs ++ rest.drop vs.length)) := by
  subst hi
  have hroom : xs.length + vs.length ≤ (xs ++ rest).length := by
    rw [List.length_append]
    omega
  have hsplice : splice (xs ++ rest) xs.length vs = xs ++ vs ++ rest.drop vs.length := by
    rw [splice, List.take_left, ← List.drop_drop, List.drop_left]
  rw [write_block block_moved_next hroom, moved_put, hsplice]

/-- The new block is written from its beginning. -/
lemma moved_write_zero {rest : List α} (hle : vs.length ≤ rest.length) :
    (h.moved p rest).write (some h.next) 0 vs = some (h.moved p (vs ++ rest.drop vs.length)) := by
  have hwrite : (h.moved p ([] ++ rest)).write (some h.next) 0 vs =
      some (h.moved p ([] ++ vs ++ rest.drop vs.length)) := moved_write List.length_nil hle
  exact hwrite

/-- What was live is read as before, unless its block has been replaced. -/
lemma moved_read (hfresh : h.Fresh) {q : Option ℕ} (hne : p = none ∨ p ≠ q)
    (hread : h.read q i n = some vs) : (h.moved p xs).read q i n = some vs := by
  rw [read] at hread ⊢
  by_cases hn : n = 0
  · rwa [if_pos hn] at hread ⊢
  · rw [if_neg hn] at hread ⊢
    cases q with
    | none => cases hread
    | some b =>
        simp only [Option.bind_eq_bind, Option.bind_some] at hread ⊢
        obtain ⟨ys, hb, -⟩ := Option.bind_eq_some_iff.mp hread
        have hlive : b ≠ h.next := by
          rintro rfl
          rw [hfresh _ le_rfl] at hb
          cases hb
        have hold : p ≠ some b := by
          rcases hne with rfl | hne
          · simp
          · exact hne
        rwa [block_moved_of_ne hlive hold]

/-- A block is released after another one has come in. -/
lemma moved_free (hfresh : h.Fresh) (hb : h.block b = some vs) :
    (h.moved none xs).free (some b) = some (h.moved (some b) xs) := by
  rw [← alloc_eq_moved, alloc_free hfresh hb]

lemma Fresh.put (hf : h.Fresh) (hb : h.block b ≠ none) : (h.put b xs).Fresh := by
  intro b' hb'
  have hne : b' ≠ b := by
    rintro rfl
    exact hb (hf _ hb')
  rw [block_put_of_ne hne]
  exact hf b' hb'

lemma Fresh.moved (hf : h.Fresh) : (h.moved p xs).Fresh := by
  intro b hb
  have hlt : h.next < b := hb
  have hold : h.block b = none := hf b hlt.le
  simp only [BlockHeap.moved, if_neg (Nat.ne_of_gt hlt), hold, ite_self]

lemma Fresh.release (hf : h.Fresh) :
    Fresh { h with block := Function.update h.block b none } := by
  intro q hq
  by_cases hqb : q = b
  · subst hqb
    exact Function.update_self ..
  · exact (Function.update_of_ne hqb ..).trans (hf q hq)

lemma Fresh.empty : (empty : BlockHeap α).Fresh := fun _ _ => rfl

end Operations

lemma Within.one {h : BlockHeap α} {n b : ℕ} {xs : List α} (hw : h.Within n)
    (hb : h.block b = some xs) : xs.length ≤ n := by
  have hsum := hw {b}
  rwa [Finset.sum_singleton, live, hb] at hsum

/-- The names before `next` are all that count. -/
lemma Within.of_fresh {h : BlockHeap α} {n : ℕ} (hf : h.Fresh)
    (hsum : ∑ b ∈ Finset.range h.next, (h.live b).getD 0 ≤ n) : h.Within n := by
  intro B
  refine le_trans (Finset.sum_le_sum_of_ne_zero fun b _ hb => ?_) hsum
  by_contra hge
  rw [Finset.mem_range, not_lt] at hge
  rw [live, hf b hge] at hb
  exact hb rfl

/-- Two blocks have room beside each other. -/
lemma Within.two {h : BlockHeap α} {n b b' : ℕ} {xs ys : List α} (hw : h.Within n)
    (hne : b ≠ b') (hb : h.block b = some xs) (hb' : h.block b' = some ys) :
    xs.length + ys.length ≤ n := by
  have hsum := hw {b, b'}
  rwa [Finset.sum_pair hne, live, live, hb, hb'] at hsum

/-! ### The ledger -/

section Ledger

variable {ι : Type*} [DecidableEq ι] {L : ι → List ℕ} {h : BlockHeap α} {b : ℕ} {l : ι}
  {xs vs : List α}

lemma live_ne_none : h.live b ≠ none ↔ h.block b ≠ none := by
  simp [live]

omit [DecidableEq ι] in
lemma owned_put (ho : Ledger.Owned h.live L) (hb : h.block b ≠ none) :
    Ledger.Owned (h.put b xs).live L := by
  refine ⟨ho.nodup, ho.apart, fun b' => ?_⟩
  rw [← ho.live_iff, live_ne_none, live_ne_none]
  by_cases hne : b' = b
  · subst hne
    simpa using hb
  · rw [block_put_of_ne hne]

lemma live_alloc : (h.alloc xs).live = Function.update h.live h.next (some xs.length) := by
  funext b
  by_cases hb : b = h.next
  · subst hb
    simp [live, alloc]
  · simp [live, alloc, hb]

/-- An owner without a block gets the new one. -/
lemma owned_alloc (ho : Ledger.Owned h.live L) (hf : h.Fresh) (hl : L l = []) :
    Ledger.Owned (h.alloc xs).live (Function.update L l [h.next]) := by
  have hnew : h.live h.next = none := by rw [live, hf _ le_rfl, Option.map_none]
  have halloc := ho.alloc (i := l) hnew xs.length
  rw [hl, List.nil_append] at halloc
  rw [live_alloc]
  exact halloc

/-- An owner's block is replaced by the new one. -/
lemma owned_moved (ho : Ledger.Owned h.live L) (hf : h.Fresh) (hl : L l = [b]) :
    Ledger.Owned (h.moved (some b) xs).live (Function.update L l [h.next]) := by
  have hnew : h.live h.next = none := by rw [live, hf _ le_rfl, Option.map_none]
  have halloc := ho.alloc (i := l) hnew xs.length
  have hrelease := halloc.release (i := l) (b := b) (l := [h.next]) (by
    rw [Function.update_self, hl]
    rfl)
  rw [Function.update_idem] at hrelease
  have hlive : (h.moved (some b) xs).live =
      Function.update (Function.update h.live h.next (some xs.length)) b none := by
    have hb : h.block b ≠ none := live_ne_none.mp (ho.live_of_mem (i := l) (by rw [hl]; simp))
    have hne : b ≠ h.next := by
      rintro rfl
      exact hb (hf _ le_rfl)
    funext b'
    by_cases hb' : b' = b
    · subst hb'
      simp [live, moved, hne]
    · by_cases hn : b' = h.next
      · subst hn
        simp [live, moved, hb']
      · simp [live, moved, hb', hn, Ne.symm hb']
  rw [hlive]
  exact hrelease

/-- An owner's block is released. -/
lemma owned_free (ho : Ledger.Owned h.live L) (hl : L l = [b]) :
    Ledger.Owned (live { h with block := Function.update h.block b none })
      (Function.update L l []) := by
  have hlive : live { h with block := Function.update h.block b none } =
      Function.update h.live b none := by
    funext b'
    by_cases hb' : b' = b
    · subst hb'
      simp [live]
    · simp [live, hb']
  rw [hlive]
  exact ho.release hl

end Ledger

end BlockHeap
