import Mathlib.Tactic

/-!
Pointer fields: pairs of fields that refer to each other, and paths along one field.

A field of the objects of one kind is a function from their names to `Option`, with `none`
for the null pointer. `Paired f g` says that `a` refers to `b` by `f` exactly if `b` refers
to `a` by `g`. `Path f o l` says that the objects from `o` on, along the field `f` up to a
null pointer, are `l`.

* **Pairs.** `Paired.link` and `Paired.unlink` write both fields; `Paired.move` passes one
  end on.
* **Paths.** `Path.unique`, `Path.nodup`: a path that ends visits nothing twice.
  `Path.disjoint`: where the field has a back pointer, paths from two starts share nothing.
* **Changes.** `Ends.cut`: cutting links keeps every path finite. `Ends.push`: so does an
  object that no one refers to, put in front of a path.
-/

namespace Pointers

variable {α β : Type*}

/-! ### Pairs of fields -/

/-- Each of the two fields is the back pointer of the other. -/
def Paired (f : α → Option β) (g : β → Option α) : Prop := ∀ a b, f a = some b ↔ g b = some a

namespace Paired

variable {f : α → Option β} {g : β → Option α} {a a' : α} {b b' : β}

lemma symm (h : Paired f g) : Paired g f := fun b a => (h a b).symm

lemma empty : Paired (fun _ : α => (none : Option β)) (fun _ => none) := by
  intro a b
  simp

lemma inj (h : Paired f g) (ha : f a = some b) (ha' : f a' = some b) : a = a' := by
  have hb := (h a b).mp ha
  rw [(h a' b).mp ha'] at hb
  exact (Option.some.inj hb).symm

variable [DecidableEq α] [DecidableEq β]

/-- Two free ends are tied to each other. -/
lemma link (h : Paired f g) (ha : f a = none) (hb : g b = none) :
    Paired (Function.update f a (some b)) (Function.update g b (some a)) := by
  intro x y
  by_cases hx : x = a <;> by_cases hy : y = b
  · subst hx hy
    simp
  · subst hx
    have hne : g y ≠ some x := by
      rw [ne_eq, ← h, ha]
      simp
    simp [Function.update_of_ne hy, hne, Ne.symm hy]
  · subst hy
    have hne : f x ≠ some y := by
      rw [ne_eq, h, hb]
      simp
    simp [Function.update_of_ne hx, hne, Ne.symm hx]
  · rw [Function.update_of_ne hx, Function.update_of_ne hy]
    exact h x y

/-- Two ends that are tied are freed. -/
lemma unlink (h : Paired f g) (ha : f a = some b) :
    Paired (Function.update f a none) (Function.update g b none) := by
  have hb := (h a b).mp ha
  intro x y
  by_cases hx : x = a <;> by_cases hy : y = b
  · subst hx hy
    simp
  · subst hx
    have hne : g y ≠ some x := by
      rw [ne_eq, ← h, ha]
      exact fun he => hy (Option.some.inj he).symm
    simp [Function.update_of_ne hy, hne]
  · subst hy
    have hne : f x ≠ some y := by
      rw [ne_eq, h, hb]
      exact fun he => hx (Option.some.inj he).symm
    simp [Function.update_of_ne hx, hne]
  · rw [Function.update_of_ne hx, Function.update_of_ne hy]
    exact h x y

/-- The end `b` is freed and `a` is tied to the free end `b'`. -/
lemma move (h : Paired f g) (ha : f a = some b) (hb' : g b' = none) :
    Paired (Function.update f a (some b'))
      (Function.update (Function.update g b none) b' (some a)) := by
  have hfree := h.unlink ha
  have hne : b' ≠ b := by
    intro he
    rw [he, (h a b).mp ha] at hb'
    cases hb'
  have hlink := hfree.link (Function.update_self ..)
    (by rw [Function.update_of_ne hne]; exact hb')
  rwa [Function.update_idem] at hlink

end Paired

/-- Freeing an end that is free changes nothing. -/
lemma update_none [DecidableEq α] {f : α → Option β} {a : α} (h : f a = none) :
    Function.update f a none = f := by
  rw [← h, Function.update_eq_self]

/-! ### Paths along a field -/

/-- The objects from a pointer on, along the field `f`, up to a null pointer. -/
inductive Path (f : α → Option α) : Option α → List α → Prop
  | nil : Path f none []
  | cons {a l} : Path f (f a) l → Path f (some a) (a :: l)

/-- The path from a pointer on ends. -/
def Ends (f : α → Option α) (o : Option α) : Prop := ∃ l, Path f o l

variable {f f' : α → Option α} {o o' : Option α} {a b x : α} {l l' : List α}

lemma Ends.none : Ends f none := ⟨[], .nil⟩

lemma Ends.cons (h : Ends f (f a)) : Ends f (some a) :=
  let ⟨l, hl⟩ := h
  ⟨a :: l, .cons hl⟩

namespace Path

lemma unique (h : Path f o l) (h' : Path f o l') : l = l' := by
  induction h generalizing l' with
  | nil =>
      cases h'
      rfl
  | cons _ ih =>
      cases h' with
      | cons h' => rw [ih h']

/-- A path goes on from every object it visits. -/
lemma suffix (h : Path f o l) (hx : x ∈ l) : ∃ ls, Path f (some x) (x :: ls) ∧ x :: ls <:+ l := by
  induction h with
  | nil => cases hx
  | @cons a l hl ih =>
      rcases List.mem_cons.mp hx with rfl | hx
      · exact ⟨l, .cons hl, List.suffix_rfl⟩
      · obtain ⟨ls, hls, hsuffix⟩ := ih hx
        exact ⟨ls, hls, hsuffix.trans (List.suffix_cons ..)⟩

/-- A path that ends visits nothing twice. -/
lemma nodup (h : Path f o l) : l.Nodup := by
  induction h with
  | nil => exact List.nodup_nil
  | @cons a l hl ih =>
      refine List.nodup_cons.mpr ⟨fun ha => ?_, ih⟩
      -- the path from `a` would be a proper part of itself
      obtain ⟨ls, hls, hsuffix⟩ := hl.suffix ha
      have hsame := hls.unique (.cons hl)
      have hlen := hsuffix.length_le
      rw [hsame, List.length_cons] at hlen
      omega

/-- What a path visits is its start, or comes after something it visits. -/
lemma start_or_after (h : Path f o l) (hx : x ∈ l) : o = some x ∨ ∃ p ∈ l, f p = some x := by
  induction h with
  | nil => cases hx
  | @cons a l hl ih =>
      rcases List.mem_cons.mp hx with rfl | hx
      · exact .inl rfl
      · rcases ih hx with heq | ⟨p, hp, hpx⟩
        · exact .inr ⟨a, List.mem_cons_self, heq⟩
        · exact .inr ⟨p, List.mem_cons_of_mem _ hp, hpx⟩

/-- Two paths that meet: one starts on the other. -/
lemma meet (hinj : ∀ p q x, f p = some x → f q = some x → p = q) (h : Path f (some a) l)
    (h' : Path f (some b) l') (hx : x ∈ l) (hx' : x ∈ l') : a ∈ l' ∨ b ∈ l := by
  generalize ho : some a = o at h
  induction h generalizing a with
  | nil => cases ho
  | @cons c l hl ih =>
      obtain rfl : a = c := Option.some.inj ho
      rcases List.mem_cons.mp hx with rfl | hx
      · exact .inl hx'
      · cases hn : f a with
        | none =>
            rw [hn] at hl
            cases hl
            cases hx
        | some d =>
            rcases ih hx hn.symm with hd | hb
            · rcases h'.start_or_after hd with heq | ⟨p, hp, hpd⟩
              · obtain rfl := Option.some.inj heq
                rw [hn] at hl
                cases hl with
                | cons hl => exact .inr (List.mem_cons_of_mem _ List.mem_cons_self)
              · rw [hinj a p d hn hpd]
                exact .inl hp
            · exact .inr (List.mem_cons_of_mem _ hb)

/-- **Disjoint paths**: paths from two starts that nothing leads to share nothing. -/
lemma disjoint (hinj : ∀ p q x, f p = some x → f q = some x → p = q)
    (ha : ∀ p, f p ≠ some a) (hb : ∀ p, f p ≠ some b) (h : Path f (some a) l)
    (h' : Path f (some b) l') (hx : x ∈ l) (hx' : x ∈ l') : a = b := by
  rcases h.meet hinj h' hx hx' with hal | hbl
  · rcases h'.start_or_after hal with heq | ⟨p, -, hp⟩
    · exact (Option.some.inj heq).symm
    · exact absurd hp (ha p)
  · rcases h.start_or_after hbl with heq | ⟨p, -, hp⟩
    · exact Option.some.inj heq
    · exact absurd hp (hb p)

end Path

/-! ### Changes of a field -/

/-- Cutting links keeps every path finite. -/
lemma Ends.cut (h : Ends f o) (hcut : ∀ x, f' x = f x ∨ f' x = Option.none) : Ends f' o := by
  obtain ⟨l, hl⟩ := h
  induction hl with
  | nil => exact .none
  | @cons a l _ ih =>
      refine Ends.cons ?_
      rcases hcut a with heq | heq
      · rw [heq]
        exact ih
      · rw [heq]
        exact .none

/-- An object that nothing leads to is put in front of a path. -/
lemma Ends.push [DecidableEq α] (hends : ∀ x, Ends f (some x)) (hfree : ∀ x, f x ≠ some a)
    (ho : o ≠ some a) : ∀ x, Ends (Function.update f a o) (some x) := by
  have hother : ∀ o', Ends f o' → o' ≠ some a → Ends (Function.update f a o) o' := by
    rintro o' ⟨l, hl⟩ hne
    induction hl with
    | nil => exact .none
    | @cons c l _ ih =>
        have hca : c ≠ a := fun heq => hne (heq ▸ rfl)
        refine Ends.cons ?_
        rw [Function.update_of_ne hca]
        exact ih (hfree c)
  intro x
  by_cases hx : x = a
  · subst hx
    refine Ends.cons ?_
    rw [Function.update_self]
    cases o with
    | none => exact .none
    | some c => exact hother _ (hends c) ho
  · exact hother _ (hends x) (by simpa using hx)

end Pointers
