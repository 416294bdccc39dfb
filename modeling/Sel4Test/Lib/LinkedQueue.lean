import Mathlib.Tactic

/-!
Doubly linked queues: objects with a pointer to the next and one to the previous object,
and a pair of pointers to the two ends.

`Holds next prev q xs` says that the queue `q` is the list `xs`, front first. Only the
links of the objects in the queue count: what a removed object still points to is not
looked at. Several queues share the two fields; `Placed` says that each is its list, and
that a further field of the objects tells in which queue an object is.

* **Operations.** `Holds.insert` and `Holds.erase` say which links a change of
  either end, or of the middle, has to have; the rest of the fields is free. `Holds.snoc` and
  `Holds.cons` are the two ends.
* **Several queues.** `Placed.append`, `Placed.prepend`, `Placed.remove` and
  `Placed.clear`: one queue changes, and the others stay.
-/

namespace LinkedQueue

variable {α ι : Type*}

/-- The two ends of a queue. -/
@[ext]
structure Queue (α : Type*) where
  head : Option α
  last : Option α
  deriving DecidableEq

/-- The queue without objects. -/
def Queue.empty : Queue α := ⟨none, none⟩

/-- The queue is the list. -/
structure Holds (next prev : α → Option α) (q : Queue α) (xs : List α) : Prop where
  nodup : xs.Nodup
  head_eq : q.head = xs.head?
  last_eq : q.last = xs.getLast?
  links : ∀ l x r, xs = l ++ x :: r → prev x = l.getLast? ∧ next x = r.head?

variable {next prev n p : α → Option α} {q q' : Queue α} {xs l r : List α} {t x y : α}

namespace Holds

lemma nil : Holds next prev .empty [] where
  nodup := List.nodup_nil
  head_eq := rfl
  last_eq := rfl
  links l x r h := by simp at h

/-- Only the links of the objects in the queue count. -/
lemma congr (h : Holds next prev q xs) (hlinks : ∀ x ∈ xs, n x = next x ∧ p x = prev x) :
    Holds n p q xs where
  nodup := h.nodup
  head_eq := h.head_eq
  last_eq := h.last_eq
  links l x r hxs := by
    have hx := hlinks x (by rw [hxs]; simp)
    rw [hx.1, hx.2]
    exact h.links l x r hxs

lemma head_none (h : Holds next prev q xs) : q.head = none ↔ xs = [] := by
  rw [h.head_eq, List.head?_eq_none_iff]

lemma last_none (h : Holds next prev q xs) : q.last = none ↔ xs = [] := by
  rw [h.last_eq, List.getLast?_eq_none_iff]

/-- The queue is known from its list. -/
lemma queue_eq (h : Holds next prev q xs) : q = ⟨xs.head?, xs.getLast?⟩ :=
  Queue.ext h.head_eq h.last_eq

/-- Seen from the other end. -/
lemma reverse (h : Holds next prev q xs) : Holds prev next ⟨q.last, q.head⟩ xs.reverse where
  nodup := List.nodup_reverse.mpr h.nodup
  head_eq := by rw [List.head?_reverse, h.last_eq]
  last_eq := by rw [List.getLast?_reverse, h.head_eq]
  links l x r hxs := by
    have hxs' : xs = r.reverse ++ x :: l.reverse := by
      rw [← List.reverse_reverse xs, hxs]
      simp
    have hlinks := h.links _ _ _ hxs'
    rw [List.getLast?_reverse, List.head?_reverse] at hlinks
    exact ⟨hlinks.2, hlinks.1⟩

variable [DecidableEq α]

/-- **A new object**, between two parts of the queue. -/
lemma insert (h : Holds next prev q (l ++ r)) (ht : t ∉ l ++ r) (hnext : n t = r.head?)
    (hprev : p t = l.getLast?)
    (hn : ∀ x ∈ l ++ r, n x = if l.getLast? = some x then some t else next x)
    (hp : ∀ x ∈ l ++ r, p x = if r.head? = some x then some t else prev x)
    (hq : q' = ⟨(l ++ t :: r).head?, (l ++ t :: r).getLast?⟩) : Holds n p q' (l ++ t :: r) where
  nodup := by
    rw [List.nodup_middle]
    exact List.nodup_cons.mpr ⟨ht, h.nodup⟩
  head_eq := by rw [hq]
  last_eq := by rw [hq]
  links l' x r' hxs := by
    have hnodup := h.nodup
    have hapart : x ∈ l → x ∉ r := fun hl hr => (List.nodup_append.mp hnodup).2.2 x hl x hr rfl
    rcases List.append_eq_append_iff.mp hxs with ⟨a, rfl, hr⟩ | ⟨a, rfl, hr⟩
    · cases a with
      | nil =>
          obtain ⟨rfl, rfl⟩ := List.cons.inj hr
          exact ⟨by rw [hprev, List.append_nil], hnext⟩
      | cons z a =>
          obtain ⟨rfl, rfl⟩ := List.cons.inj hr
          -- `x` is behind the new object
          have hlinks := h.links (l ++ a) x r' (by simp)
          have hx : x ∈ l ++ (a ++ x :: r') := by simp
          have hne : l.getLast? ≠ some x := fun hlast =>
            hapart (List.mem_of_mem_getLast? hlast) (by simp)
          rw [hn x hx, hp x hx, if_neg hne, hlinks.1, hlinks.2]
          refine ⟨?_, rfl⟩
          cases a with
          | nil => simp
          | cons y a =>
              have hyx : y ≠ x := by
                rintro rfl
                exact (List.nodup_cons.mp (List.nodup_append.mp hnodup).2.1).1 (by simp)
              rw [if_neg (by simpa using hyx), List.getLast?_append_cons,
                List.getLast?_append_cons, List.getLast?_cons_cons]
    · cases a with
      | nil =>
          obtain ⟨rfl, rfl⟩ := List.cons.inj hr
          exact ⟨by rw [hprev, List.append_nil], hnext⟩
      | cons z a =>
          obtain ⟨rfl, rfl⟩ := List.cons.inj hr
          -- `x` is in front of the new object
          have hlinks := h.links l' x (a ++ r) (by simp)
          have hx : x ∈ l' ++ x :: a ++ r := by simp
          have hne : r.head? ≠ some x := fun hhead =>
            hapart (by simp) (List.mem_of_mem_head? hhead)
          rw [hn x hx, hp x hx, if_neg hne, hlinks.1, hlinks.2]
          refine ⟨rfl, ?_⟩
          cases a with
          | nil => simp
          | cons y a =>
              have hlast : (l' ++ x :: y :: a).getLast? ≠ some x := by
                intro hlast
                rw [List.getLast?_append_cons, List.getLast?_cons_cons] at hlast
                rw [List.nodup_append, List.nodup_append, List.nodup_cons] at hnodup
                exact hnodup.1.2.1.1 (List.mem_of_mem_getLast? hlast)
              rw [if_neg hlast]
              rfl

/-- **A new last object.** -/
lemma snoc (h : Holds next prev q xs) (ht : t ∉ xs) (hnext : n t = none)
    (hprev : p t = xs.getLast?)
    (hold : ∀ x ∈ xs, n x = (if xs.getLast? = some x then some t else next x) ∧ p x = prev x)
    (hq : q' = ⟨(xs ++ [t]).head?, some t⟩) : Holds n p q' (xs ++ [t]) := by
  have h : Holds next prev q (xs ++ []) := by rwa [List.append_nil]
  refine h.insert (by rwa [List.append_nil]) hnext hprev (fun x hx => ?_) (fun x hx => ?_)
    (by rw [hq]; simp)
  · rw [List.append_nil] at hx
    exact (hold x hx).1
  · rw [List.append_nil] at hx
    simpa using (hold x hx).2

/-- **A new first object.** -/
lemma cons (h : Holds next prev q xs) (ht : t ∉ xs) (hprev : p t = none)
    (hnext : n t = xs.head?)
    (hold : ∀ x ∈ xs, p x = (if xs.head? = some x then some t else prev x) ∧ n x = next x)
    (hq : q' = ⟨some t, (t :: xs).getLast?⟩) : Holds n p q' (t :: xs) :=
  Holds.insert (l := []) h ht hnext hprev (fun x hx => by simpa using (hold x hx).2)
    (fun x hx => (hold x hx).1) hq

/-- **An object is taken out.** -/
lemma erase (h : Holds next prev q (l ++ t :: r))
    (hnext : ∀ x ∈ l ++ r, n x = if l.getLast? = some x then r.head? else next x)
    (hprev : ∀ x ∈ l ++ r, p x = if r.head? = some x then l.getLast? else prev x)
    (hq : q' = ⟨(l ++ r).head?, (l ++ r).getLast?⟩) : Holds n p q' (l ++ r) where
  nodup := h.nodup.sublist ((List.Sublist.refl l).append (List.sublist_cons_self t r))
  head_eq := by rw [hq]
  last_eq := by rw [hq]
  links l' x r' hxs := by
    have hnodup := h.nodup
    have hx : x ∈ l ++ r := by rw [hxs]; simp
    have hbehind : ∀ a, l' = l ++ a → r = a ++ x :: r' →
        p x = l'.getLast? ∧ n x = r'.head? := by
      rintro a rfl rfl
      have hlinks := h.links (l ++ t :: a) x r' (by simp)
      have hxl : l.getLast? ≠ some x := by
        intro hlast
        have hmem := List.mem_of_mem_getLast? hlast
        rw [List.nodup_append] at hnodup
        exact hnodup.2.2 x hmem x (by simp) rfl
      rw [hnext x hx, hprev x hx, if_neg hxl, hlinks.1, hlinks.2]
      refine ⟨?_, rfl⟩
      cases a with
      | nil => simp
      | cons b a =>
          have hne : b ≠ x := by
            rintro rfl
            rw [List.nodup_append, List.nodup_cons, List.cons_append, List.nodup_cons] at hnodup
            exact hnodup.2.1.2.1 (by simp)
          rw [if_neg (by simpa using hne), List.getLast?_append_cons, List.getLast?_cons_cons,
            List.getLast?_append_cons]
    rcases List.append_eq_append_iff.mp hxs with ⟨a, hl', hr⟩ | ⟨a, hl, hr'⟩
    · exact hbehind a hl' hr
    · cases a with
      | nil => exact hbehind [] (by simpa using hl.symm) (by simpa using hr'.symm)
      | cons b a =>
          obtain ⟨rfl, rfl⟩ := List.cons.inj hr'
          have hlinks := h.links l' x (a ++ t :: r) (by rw [hl]; simp)
          have hxr : r.head? ≠ some x := by
            intro hhead
            have hmem := List.mem_of_mem_head? hhead
            rw [hl, List.nodup_append] at hnodup
            exact hnodup.2.2 x (by simp) x (by simp [hmem]) rfl
          rw [hnext x hx, hprev x hx, if_neg hxr, hlinks.1, hlinks.2]
          refine ⟨rfl, ?_⟩
          cases a with
          | nil => simp [hl]
          | cons c a =>
              have hne : l.getLast? ≠ some x := by
                intro hlast
                rw [hl, List.getLast?_append_cons, List.getLast?_cons_cons] at hlast
                have hmem := List.mem_of_mem_getLast? hlast
                rw [hl, List.nodup_append, List.nodup_append, List.nodup_cons] at hnodup
                exact hnodup.1.2.1.1 hmem
              rw [if_neg hne]
              rfl

end Holds

/-! ### Several queues -/

/-- Each queue is its list, and an object is in the queue it is placed in. -/
structure Placed (next prev : α → Option α) (queues : ι → Queue α) (place : α → Option ι)
    (L : ι → List α) : Prop where
  holds : ∀ i, Holds next prev (queues i) (L i)
  mem : ∀ i x, x ∈ L i ↔ place x = some i

namespace Placed

variable {queues : ι → Queue α} {place place' : α → Option ι} {L : ι → List α} {i j : ι}

lemma apart (P : Placed next prev queues place L) (hi : x ∈ L i) (hj : x ∈ L j) : i = j := by
  rw [P.mem] at hi hj
  exact Option.some.inj (hi.symm.trans hj)

lemma notMem (P : Placed next prev queues place L) (hx : place x = none) : x ∉ L i := by
  rw [P.mem, hx]
  simp

variable [DecidableEq ι]

/-- **One queue changes**, and the links of the objects in the others stay. -/
lemma update (P : Placed next prev queues place L) (hq : Holds n p q' xs)
    (hplace : ∀ x, x ∈ xs ↔ place' x = some i)
    (hother : ∀ j, j ≠ i → ∀ x, place' x = some j ↔ place x = some j)
    (hframe : ∀ j, j ≠ i → ∀ x ∈ L j, n x = next x ∧ p x = prev x) :
    Placed n p (Function.update queues i q') place' (Function.update L i xs) where
  holds j := by
    by_cases hj : j = i
    · subst hj
      rwa [Function.update_self, Function.update_self]
    · rw [Function.update_of_ne hj, Function.update_of_ne hj]
      exact (P.holds j).congr (hframe j hj)
  mem j x := by
    by_cases hj : j = i
    · subst hj
      rw [Function.update_self]
      exact hplace x
    · rw [Function.update_of_ne hj, hother j hj, P.mem]

/-- All objects of one queue are taken out. -/
lemma clear (P : Placed next prev queues place L)
    (hplace : ∀ x, place' x = if place x = some i then none else place x) :
    Placed next prev (Function.update queues i .empty) place' (Function.update L i []) := by
  refine P.update .nil (fun x => ?_) (fun j hj x => ?_) fun _ _ _ _ => ⟨rfl, rfl⟩
  · rw [hplace]
    split_ifs with h <;> simp [h]
  · rw [hplace]
    split_ifs with h
    · rw [h]
      simp [Ne.symm hj]
    · rfl

variable [DecidableEq α]

/-- An object comes to the end of a queue. -/
lemma append (P : Placed next prev queues place L) (ht : place t = none) (hnext : n t = none)
    (hprev : p t = (L i).getLast?)
    (hold : ∀ x, x ≠ t → n x = (if (L i).getLast? = some x then some t else next x) ∧
      p x = prev x) :
    Placed n p (Function.update queues i ⟨(L i ++ [t]).head?, some t⟩)
      (Function.update place t (some i)) (Function.update L i (L i ++ [t])) := by
  have hother : ∀ j, ∀ x ∈ L j, x ≠ t := by
    rintro j x hx rfl
    exact P.notMem ht hx
  refine P.update ((P.holds i).snoc (P.notMem ht) hnext hprev
    (fun x hx => hold x (hother i x hx)) rfl) (fun x => ?_) (fun j hj x => ?_) fun j hj x hx => ?_
  · by_cases hx : x = t
    · subst hx
      simp
    · rw [Function.update_of_ne hx, ← P.mem]
      simp [hx]
  · by_cases hx : x = t
    · subst hx
      simp [ht, Ne.symm hj]
    · rw [Function.update_of_ne hx]
  · have hlast : (L i).getLast? ≠ some x := fun h =>
      hj (P.apart hx (List.mem_of_mem_getLast? h))
    rw [(hold x (hother j x hx)).1, (hold x (hother j x hx)).2, if_neg hlast]
    exact ⟨rfl, rfl⟩

/-- An object comes to the front of a queue. -/
lemma prepend (P : Placed next prev queues place L) (ht : place t = none) (hprev : p t = none)
    (hnext : n t = (L i).head?)
    (hold : ∀ x, x ≠ t → p x = (if (L i).head? = some x then some t else prev x) ∧
      n x = next x) :
    Placed n p (Function.update queues i ⟨some t, (t :: L i).getLast?⟩)
      (Function.update place t (some i)) (Function.update L i (t :: L i)) := by
  have hother : ∀ j, ∀ x ∈ L j, x ≠ t := by
    rintro j x hx rfl
    exact P.notMem ht hx
  refine P.update ((P.holds i).cons (P.notMem ht) hprev hnext
    (fun x hx => hold x (hother i x hx)) rfl) (fun x => ?_) (fun j hj x => ?_) fun j hj x hx => ?_
  · by_cases hx : x = t
    · subst hx
      simp
    · rw [Function.update_of_ne hx, ← P.mem]
      simp [hx]
  · by_cases hx : x = t
    · subst hx
      simp [ht, Ne.symm hj]
    · rw [Function.update_of_ne hx]
  · have hhead : (L i).head? ≠ some x := fun h =>
      hj (P.apart hx (List.mem_of_mem_head? h))
    rw [(hold x (hother j x hx)).1, (hold x (hother j x hx)).2, if_neg hhead]
    exact ⟨rfl, rfl⟩

/-- An object is taken out of its queue. -/
lemma remove (P : Placed next prev queues place L) (hL : L i = l ++ t :: r)
    (hnext : ∀ x, x ≠ t → n x = if l.getLast? = some x then r.head? else next x)
    (hprev : ∀ x, x ≠ t → p x = if r.head? = some x then l.getLast? else prev x) :
    Placed n p (Function.update queues i ⟨(l ++ r).head?, (l ++ r).getLast?⟩)
      (Function.update place t none) (Function.update L i (l ++ r)) := by
  have hi := P.holds i
  rw [hL] at hi
  have hout : ∀ x ∈ l ++ r, x ≠ t := by
    rintro x hx rfl
    have hnodup := hi.nodup
    rw [List.nodup_middle, List.nodup_cons] at hnodup
    exact hnodup.1 hx
  have hin : ∀ x, x ≠ t → (x ∈ l ++ r ↔ x ∈ L i) := by
    intro x hx
    rw [hL]
    simp [hx]
  have hti : t ∈ L i := by
    rw [hL]
    simp
  refine P.update (hi.erase (fun x hx => hnext x (hout x hx)) (fun x hx => hprev x (hout x hx)) rfl)
    (fun x => ?_) (fun j hj x => ?_) fun j hj x hx => ?_
  · by_cases hx : x = t
    · subst hx
      rw [Function.update_self]
      exact ⟨fun h => absurd rfl (hout x h), fun h => by cases h⟩
    · rw [Function.update_of_ne hx, ← P.mem, hin x hx]
  · by_cases hx : x = t
    · subst hx
      rw [Function.update_self, (P.mem i x).mp hti]
      simp [Ne.symm hj]
    · rw [Function.update_of_ne hx]
  · have hxt : x ≠ t := by
      rintro rfl
      exact hj (P.apart hx hti)
    have hl : l.getLast? ≠ some x := fun h =>
      hj (P.apart hx ((hin x hxt).mp (List.mem_append_left _ (List.mem_of_mem_getLast? h))))
    have hr : r.head? ≠ some x := fun h =>
      hj (P.apart hx ((hin x hxt).mp (List.mem_append_right _ (List.mem_of_mem_head? h))))
    rw [hnext x hxt, hprev x hxt, if_neg hl, if_neg hr]
    exact ⟨rfl, rfl⟩

end Placed

end LinkedQueue
