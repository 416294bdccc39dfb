import Mathlib.Tactic

/-!
Finite maps and the lists of their pairs.

A map from keys to values, `none` where there is no value, is listed by its pairs in the order
of the keys.

* `Tabulates.set`, `Tabulates.insert`, `Tabulates.remove`: what a change of the list at one place
  does to the map.
* `Tabulates.get`, `Tabulates.get_eq_none`: reading the map in the list.
* `Tabulates.unique`: a map has one list only.
* `Tabulates.length_eq_ncard`: a list is as long as the map has keys.
-/

namespace FiniteMap

variable {κ ν : Type*} [LinearOrder κ]

/-- The pairs of a map in the order of the keys. -/
structure Tabulates (l : List (κ × ν)) (m : κ → Option ν) : Prop where
  sorted : l.Pairwise fun a b => a.1 < b.1
  mem_iff : ∀ k v, (k, v) ∈ l ↔ m k = some v

variable {l r : List (κ × ν)} {m : κ → Option ν} {k : κ} {v : ν}

lemma Tabulates.nil : Tabulates [] fun _ : κ => (none : Option ν) :=
  ⟨List.Pairwise.nil, fun _ _ => by simp⟩

/-- The keys around a place are less and greater. -/
lemma Tabulates.around (h : Tabulates (l ++ (k, v) :: r) m) :
    (∀ e ∈ l, e.1 < k) ∧ ∀ e ∈ r, k < e.1 := by
  obtain ⟨-, hr, hlr⟩ := List.pairwise_append.mp h.sorted
  exact ⟨fun e he => hlr e he _ List.mem_cons_self, (List.pairwise_cons.mp hr).1⟩

/-- The map at a key of the list. -/
lemma Tabulates.get (h : Tabulates (l ++ (k, v) :: r) m) : m k = some v :=
  (h.mem_iff k v).mp (by simp)

/-- The map at a key that is not in the list. -/
lemma Tabulates.get_eq_none (h : Tabulates (l ++ r) m) (hl : ∀ e ∈ l, e.1 < k)
    (hr : ∀ e ∈ r, k < e.1) : m k = none := by
  rw [Option.eq_none_iff_forall_ne_some]
  intro v hv
  rcases List.mem_append.mp ((h.mem_iff k v).mpr hv) with hmem | hmem
  · exact lt_irrefl k (hl _ hmem)
  · exact lt_irrefl k (hr _ hmem)

/-- A pair between smaller and greater keys. -/
lemma Tabulates.insert (h : Tabulates (l ++ r) m) (hl : ∀ e ∈ l, e.1 < k)
    (hr : ∀ e ∈ r, k < e.1) (v : ν) :
    Tabulates (l ++ (k, v) :: r) (Function.update m k (some v)) := by
  obtain ⟨hsl, hsr, hlr⟩ := List.pairwise_append.mp h.sorted
  constructor
  · refine List.pairwise_append.mpr ⟨hsl, List.pairwise_cons.mpr ⟨hr, hsr⟩, fun a ha b hb => ?_⟩
    rcases List.mem_cons.mp hb with rfl | hb
    · exact hl a ha
    · exact hlr a ha b hb
  · intro k' v'
    have hmem : (k', v') ∈ l ++ (k, v) :: r ↔ (k', v') = (k, v) ∨ (k', v') ∈ l ++ r := by
      simp only [List.mem_append, List.mem_cons]
      tauto
    rw [hmem, h.mem_iff, Function.update_apply]
    split_ifs with hk
    · rw [hk, h.get_eq_none hl hr]
      simp [eq_comm]
    · simp [hk]

/-- A pair is taken out. -/
lemma Tabulates.remove (h : Tabulates (l ++ (k, v) :: r) m) :
    Tabulates (l ++ r) (Function.update m k none) := by
  obtain ⟨hl, hr⟩ := h.around
  obtain ⟨hsl, hsr, hlr⟩ := List.pairwise_append.mp h.sorted
  constructor
  · exact List.pairwise_append.mpr ⟨hsl, (List.pairwise_cons.mp hsr).2,
      fun a ha b hb => hlr a ha b (List.mem_cons_of_mem _ hb)⟩
  · intro k' v'
    rw [Function.update_apply]
    split_ifs with hk
    · subst hk
      refine iff_of_false (fun hmem => ?_) (by simp)
      rcases List.mem_append.mp hmem with hmem | hmem
      · exact lt_irrefl k' (hl _ hmem)
      · exact lt_irrefl k' (hr _ hmem)
    · rw [← h.mem_iff]
      simp [hk]

/-- A value is replaced. -/
lemma Tabulates.set (h : Tabulates (l ++ (k, v) :: r) m) (v' : ν) :
    Tabulates (l ++ (k, v') :: r) (Function.update m k (some v')) := by
  have hinsert := h.remove.insert h.around.1 h.around.2 v'
  rwa [Function.update_idem] at hinsert

/-- **One list**: the list of a map is determined by the map. -/
lemma Tabulates.unique (h : Tabulates l m) (h' : Tabulates r m) : l = r := by
  have hnodup : ∀ {l : List (κ × ν)}, Tabulates l m → l.Nodup := fun h =>
    h.sorted.imp fun hab heq => absurd (heq ▸ hab) (lt_irrefl _)
  have hasymm : ∀ a b : κ × ν, a ∈ l → b ∈ r → a.1 < b.1 → b.1 < a.1 → a = b :=
    fun a b _ _ hab hba => absurd hba (lt_asymm hab)
  have hperm : l.Perm r := (List.perm_ext_iff_of_nodup (hnodup h) (hnodup h')).mpr
    fun e => (h.mem_iff e.1 e.2).trans (h'.mem_iff e.1 e.2).symm
  exact hperm.eq_of_pairwise hasymm h.sorted h'.sorted

/-- A list has as many pairs as the map has keys. -/
lemma Tabulates.length_eq_ncard (h : Tabulates l m) : l.length = Set.ncard {k | m k ≠ none} := by
  have hnodup : (l.map Prod.fst).Nodup := by
    refine (List.pairwise_map.mpr h.sorted).imp fun hab => ?_
    exact hab.ne
  have hkeys : {k | m k ≠ none} = ((l.map Prod.fst).toFinset : Set κ) := by
    ext k
    simp only [Set.mem_ofPred_eq, Option.ne_none_iff_exists', List.coe_toFinset, List.mem_map]
    constructor
    · rintro ⟨v, hv⟩
      exact ⟨(k, v), (h.mem_iff k v).mpr hv, rfl⟩
    · rintro ⟨e, he, rfl⟩
      exact ⟨e.2, (h.mem_iff e.1 e.2).mp he⟩
  rw [hkeys, Set.ncard_coe_finset, List.toFinset_card_of_nodup hnodup, List.length_map]

end FiniteMap
