import Mathlib.Tactic

/-!
Doubly linked lists over a type of places.

A store of links is a pair of functions, `next` and `prev`, with `none` where there is no
neighbour. It is described by the chains it consists of: lists of places, all different,
such that `b` is the next of `a` exactly if `b` follows `a` directly in one of them.

Three operations on chains are enough for insertion, removal, and moves of all kinds,
and each comes with the links that describe its result.

* `Links.rename`: places change their names, so that a swap of two places is the same
  whether they are neighbours or not, or one is in no chain.
* `Links.insertAfter`: a fresh place directly after one that is there.
* `Links.remove`: a place is taken out.
-/

namespace Chains

variable {α : Type*}

/-- `b` comes directly after `a` in one of the chains. -/
def Adj (chains : List (List α)) (a b : α) : Prop := ∃ xs ∈ chains, [a, b] <:+: xs

/-- `b` comes after `a` in one of the chains. -/
def Before (chains : List (List α)) (a b : α) : Prop := ∃ xs ∈ chains, [a, b].Sublist xs

/-- The links of the chains. -/
structure Links (next prev : α → Option α) (chains : List (List α)) : Prop where
  nodup : chains.flatten.Nodup
  next_iff : ∀ a b, next a = some b ↔ Adj chains a b
  prev_iff : ∀ a b, prev b = some a ↔ Adj chains a b

section Adjacent

variable {chains : List (List α)} {xs : List α} {a b c x y n p : α}

/-- A pair of neighbours is at the front of a list or further on. -/
lemma pair_infix_cons : [a, b] <:+: x :: xs ↔ (a = x ∧ xs.head? = some b) ∨ [a, b] <:+: xs := by
  rw [List.infix_cons_iff, List.cons_prefix_cons]
  cases xs with
  | nil => simp
  | cons z zs => simp [List.cons_prefix_cons, eq_comm]

lemma pair_infix_left (h : [a, b] <:+: xs) : a ∈ xs := h.subset (by simp)

lemma pair_infix_right (h : [a, b] <:+: xs) : b ∈ xs := h.subset (by simp)

lemma Adj.before (h : Adj chains a b) : Before chains a b :=
  let ⟨xs, hxs, hin⟩ := h
  ⟨xs, hxs, hin.sublist⟩

lemma Adj.mem_left (h : Adj chains a b) : a ∈ chains.flatten :=
  let ⟨xs, hxs, hin⟩ := h
  List.mem_flatten.mpr ⟨xs, hxs, pair_infix_left hin⟩

lemma Adj.mem_right (h : Adj chains a b) : b ∈ chains.flatten :=
  let ⟨xs, hxs, hin⟩ := h
  List.mem_flatten.mpr ⟨xs, hxs, pair_infix_right hin⟩

/-- The chains have no place in common. -/
lemma eq_of_mem (hnodup : chains.flatten.Nodup) {ys : List α} (hxs : xs ∈ chains)
    (hys : ys ∈ chains) (hx : a ∈ xs) (hy : a ∈ ys) : xs = ys := by
  induction chains with
  | nil => cases hxs
  | cons zs chains ih =>
      rw [List.flatten_cons, List.nodup_append] at hnodup
      obtain ⟨-, hrest, hapart⟩ := hnodup
      have hnever : ∀ ws ∈ chains, a ∈ ws → a ∉ zs := by
        intro ws hws haw haz
        exact hapart a haz a (List.mem_flatten.mpr ⟨ws, hws, haw⟩) rfl
      rcases List.mem_cons.mp hxs with rfl | hxs'
      · rcases List.mem_cons.mp hys with rfl | hys'
        · rfl
        · exact absurd hx (hnever ys hys' hy)
      · rcases List.mem_cons.mp hys with rfl | hys'
        · exact absurd hy (hnever xs hxs' hx)
        · exact ih hrest hxs' hys'

lemma nodup_of_mem (hnodup : chains.flatten.Nodup) (hxs : xs ∈ chains) : xs.Nodup :=
  (List.nodup_flatten.mp hnodup).1 xs hxs

/-- No place follows itself. -/
lemma Adj.ne (hnodup : chains.flatten.Nodup) (h : Adj chains a b) : a ≠ b := by
  obtain ⟨xs, hxs, hin⟩ := h
  have hpair := (nodup_of_mem hnodup hxs).sublist hin.sublist
  simpa using hpair

end Adjacent

/-! ### Renaming -/

section Rename

variable {chains : List (List α)} {next prev next' prev' : α → Option α}

/-- The places change their names. -/
def rename (e : Equiv.Perm α) (chains : List (List α)) : List (List α) := chains.map (List.map e)

lemma adj_rename (e : Equiv.Perm α) {a b : α} :
    Adj (rename e chains) (e a) (e b) ↔ Adj chains a b := by
  constructor
  · rintro ⟨ys, hys, hin⟩
    obtain ⟨xs, hxs, rfl⟩ := List.mem_map.mp hys
    refine ⟨xs, hxs, ?_⟩
    have hback := hin.map e.symm
    rw [List.map_map] at hback
    simpa using hback
  · rintro ⟨xs, hxs, hin⟩
    exact ⟨xs.map e, List.mem_map_of_mem hxs, hin.map e⟩

lemma flatten_rename (e : Equiv.Perm α) : (rename e chains).flatten = chains.flatten.map e := by
  rw [rename, List.map_flatten]

/-- The links after a renaming. -/
lemma Links.rename (h : Links next prev chains) (e : Equiv.Perm α)
    (hnext : ∀ x, next' (e x) = (next x).map e) (hprev : ∀ x, prev' (e x) = (prev x).map e) :
    Links next' prev' (rename e chains) := by
  refine ⟨?_, fun a b => ?_, fun a b => ?_⟩
  · rw [flatten_rename]
    exact h.nodup.map e.injective
  · obtain ⟨a, rfl⟩ := e.surjective a
    obtain ⟨b, rfl⟩ := e.surjective b
    rw [adj_rename, ← h.next_iff, hnext]
    cases next a with
    | none => simp
    | some c => simp
  · obtain ⟨a, rfl⟩ := e.surjective a
    obtain ⟨b, rfl⟩ := e.surjective b
    rw [adj_rename, ← h.prev_iff, hprev]
    cases prev b with
    | none => simp
    | some c => simp

end Rename

/-! ### Insertion -/

section Insert

variable [DecidableEq α] {chains : List (List α)} {next prev next' prev' : α → Option α}
  {xs : List α} {a b n p : α}

/-- `n` is put directly after `p`. -/
def insertIn (p n : α) : List α → List α
  | [] => []
  | x :: xs => if x = p then x :: n :: xs else x :: insertIn p n xs

/-- `n` is put directly after `p` in the chain of `p`. -/
def insertAfter (p n : α) (chains : List (List α)) : List (List α) := chains.map (insertIn p n)

lemma head?_insertIn : (insertIn p n xs).head? = xs.head? := by
  cases xs with
  | nil => rfl
  | cons x xs =>
      rw [insertIn]
      split_ifs <;> rfl

lemma insertIn_of_notMem (h : p ∉ xs) : insertIn p n xs = xs := by
  induction xs with
  | nil => rfl
  | cons x xs ih =>
      rw [List.mem_cons, not_or] at h
      rw [insertIn, if_neg (Ne.symm h.1), ih h.2]

/-- The neighbours after an insertion. -/
lemma pair_infix_insertIn (hnodup : xs.Nodup) (hp : p ∈ xs) (hn : n ∉ xs) :
    [a, b] <:+: insertIn p n xs ↔
      (a = p ∧ b = n) ∨ (a = n ∧ [p, b] <:+: xs) ∨ (a ≠ p ∧ [a, b] <:+: xs) := by
  -- on the chain: the new slot comes behind `p`, so only the pairs at `p` change
  induction xs with
  | nil => cases hp
  | cons x xs ih =>
      obtain ⟨hx, hnodup⟩ := List.nodup_cons.mp hnodup
      rw [List.mem_cons, not_or] at hn
      obtain ⟨hnx, hn⟩ := hn
      rw [insertIn]
      split_ifs with hxp
      · subst hxp
        have hfront : [x, b] <:+: x :: xs ↔ xs.head? = some b := by
          rw [pair_infix_cons]
          constructor
          · rintro (⟨-, h⟩ | h)
            · exact h
            · exact absurd (pair_infix_left h) hx
          · exact fun h => .inl ⟨rfl, h⟩
        have hlater : a ≠ x ∧ [a, b] <:+: x :: xs ↔ [a, b] <:+: xs := by
          rw [pair_infix_cons]
          constructor
          · rintro ⟨hne, ⟨heq, -⟩ | h⟩
            · exact absurd heq hne
            · exact h
          · intro h
            exact ⟨fun heq => hx (heq ▸ pair_infix_left h), .inr h⟩
        rw [hfront, hlater, pair_infix_cons, pair_infix_cons, List.head?_cons,
          Option.some.injEq, eq_comm (a := n)]
      · have hp' : p ∈ xs := (List.mem_cons.mp hp).resolve_left (Ne.symm hxp)
        have hpx : [p, b] <:+: x :: xs ↔ [p, b] <:+: xs := by
          rw [pair_infix_cons]
          constructor
          · rintro (⟨heq, -⟩ | h)
            · exact absurd heq.symm hxp
            · exact h
          · exact .inr
        rw [pair_infix_cons, head?_insertIn, ih hnodup hp' hn, hpx, pair_infix_cons]
        constructor
        · rintro (⟨rfl, h⟩ | h | h | ⟨hne, h⟩)
          · exact .inr (.inr ⟨hxp, .inl ⟨rfl, h⟩⟩)
          · exact .inl h
          · exact .inr (.inl h)
          · exact .inr (.inr ⟨hne, .inr h⟩)
        · rintro (h | h | ⟨hne, ⟨rfl, h⟩ | h⟩)
          · exact .inr (.inl h)
          · exact .inr (.inr (.inl h))
          · exact .inl ⟨rfl, h⟩
          · exact .inr (.inr (.inr ⟨hne, h⟩))

lemma insertIn_perm (hp : p ∈ xs) : (insertIn p n xs).Perm (n :: xs) := by
  induction xs with
  | nil => cases hp
  | cons x xs ih =>
      rw [insertIn]
      split_ifs with hxp
      · exact List.Perm.swap _ _ _
      · have hp' : p ∈ xs := (List.mem_cons.mp hp).resolve_left (Ne.symm hxp)
        exact ((ih hp').cons x).trans (List.Perm.swap _ _ _)

lemma insertAfter_of_notMem (h : p ∉ chains.flatten) : insertAfter p n chains = chains := by
  rw [insertAfter]
  refine (List.map_congr_left fun xs hxs => ?_).trans (List.map_id chains)
  exact insertIn_of_notMem fun hp => h (List.mem_flatten.mpr ⟨xs, hxs, hp⟩)

/-- The places after an insertion. -/
lemma flatten_insertAfter_perm (hnodup : chains.flatten.Nodup) (hp : p ∈ chains.flatten) :
    (insertAfter p n chains).flatten.Perm (n :: chains.flatten) := by
  induction chains with
  | nil => cases hp
  | cons xs chains ih =>
      rw [List.flatten_cons, List.nodup_append] at hnodup
      obtain ⟨-, hrest, hapart⟩ := hnodup
      rw [insertAfter, List.map_cons, List.flatten_cons, List.flatten_cons]
      by_cases hpx : p ∈ xs
      · have hno : p ∉ chains.flatten := fun hp' => hapart p hpx p hp' rfl
        have hsame := insertAfter_of_notMem (n := n) hno
        rw [insertAfter] at hsame
        rw [hsame]
        exact (insertIn_perm hpx).append_right _
      · rw [List.flatten_cons, List.mem_append] at hp
        have hthere := ih hrest (hp.resolve_left hpx)
        rw [insertIn_of_notMem hpx]
        exact (hthere.append_left xs).trans List.perm_middle

/-- The neighbours after an insertion. -/
lemma adj_insertAfter (hnodup : chains.flatten.Nodup) (hp : p ∈ chains.flatten)
    (hn : n ∉ chains.flatten) :
    Adj (insertAfter p n chains) a b ↔
      (a = p ∧ b = n) ∨ (a = n ∧ Adj chains p b) ∨ (a ≠ p ∧ Adj chains a b) := by
  have hfresh : ∀ xs ∈ chains, n ∉ xs := fun xs hxs hmem =>
    hn (List.mem_flatten.mpr ⟨xs, hxs, hmem⟩)
  constructor
  · rintro ⟨ys, hys, hin⟩
    obtain ⟨xs, hxs, rfl⟩ := List.mem_map.mp hys
    by_cases hpx : p ∈ xs
    · rcases (pair_infix_insertIn (nodup_of_mem hnodup hxs) hpx (hfresh xs hxs)).mp hin with
        h | ⟨ha, h⟩ | ⟨ha, h⟩
      · exact .inl h
      · exact .inr (.inl ⟨ha, xs, hxs, h⟩)
      · exact .inr (.inr ⟨ha, xs, hxs, h⟩)
    · rw [insertIn_of_notMem hpx] at hin
      exact .inr (.inr ⟨fun ha => hpx (ha ▸ pair_infix_left hin), xs, hxs, hin⟩)
  · intro h
    obtain ⟨xs, hxs, hpx⟩ := List.mem_flatten.mp hp
    have hback := pair_infix_insertIn (a := a) (b := b) (nodup_of_mem hnodup hxs) hpx (hfresh xs hxs)
    have hchain : insertIn p n xs ∈ insertAfter p n chains := List.mem_map_of_mem hxs
    rcases h with h | ⟨ha, zs, hzs, h⟩ | ⟨ha, zs, hzs, h⟩
    · exact ⟨_, hchain, hback.mpr (.inl h)⟩
    · obtain rfl := eq_of_mem hnodup hxs hzs hpx (pair_infix_left h)
      exact ⟨_, hchain, hback.mpr (.inr (.inl ⟨ha, h⟩))⟩
    · by_cases hpz : p ∈ zs
      · obtain rfl := eq_of_mem hnodup hxs hzs hpx hpz
        exact ⟨_, hchain, hback.mpr (.inr (.inr ⟨ha, h⟩))⟩
      · refine ⟨zs, ?_, h⟩
        have := List.mem_map_of_mem (f := insertIn p n) hzs
        rwa [insertIn_of_notMem hpz] at this

/-- The links after an insertion: `p` and the fresh place are linked, and the fresh place
takes over what came after `p`. -/
lemma Links.insertAfter (h : Links next prev chains) (hp : p ∈ chains.flatten)
    (hn : n ∉ chains.flatten)
    (hnext : ∀ x, next' x = if x = p then some n else if x = n then next p else next x)
    (hprev : ∀ x, prev' x = if x = n then some p else if prev x = some p then some n else prev x) :
    Links next' prev' (insertAfter p n chains) := by
  have hpn : p ≠ n := fun heq => hn (heq ▸ hp)
  refine ⟨?_, fun a b => ?_, fun a b => ?_⟩
  · exact (flatten_insertAfter_perm h.nodup hp).nodup_iff.mpr (List.nodup_cons.mpr ⟨hn, h.nodup⟩)
  · rw [adj_insertAfter h.nodup hp hn, hnext, ← h.next_iff, ← h.next_iff]
    have hnone : next n ≠ some b := fun heq => hn ((h.next_iff _ _).mp heq).mem_left
    grind
  · rw [adj_insertAfter h.nodup hp hn, hprev, ← h.prev_iff, ← h.prev_iff]
    have hnone : prev n = none := by
      cases hc : prev n with
      | none => rfl
      | some c => exact absurd ((h.prev_iff _ _).mp hc).mem_right hn
    have hfresh : prev b ≠ some n := fun heq => hn ((h.prev_iff _ _).mp heq).mem_left
    grind

/-- Any links of these chains have the fresh place directly after `p`. -/
lemma Links.next_insertAfter (h : Links next prev chains)
    (h' : Links next' prev' (Chains.insertAfter p n chains)) (hp : p ∈ chains.flatten)
    (hn : n ∉ chains.flatten) : next' p = some n ∧ next' n = next p := by
  have hpn : n ≠ p := fun heq => hn (heq ▸ hp)
  constructor
  · exact (h'.next_iff p n).mpr ((adj_insertAfter h.nodup hp hn).mpr (.inl ⟨rfl, rfl⟩))
  · ext b
    have hno : ¬ Adj chains n b := fun hadj => hn hadj.mem_left
    rw [h'.next_iff, adj_insertAfter h.nodup hp hn, h.next_iff]
    tauto

end Insert

/-! ### Removal -/

section Remove

variable [DecidableEq α] {chains : List (List α)} {next prev next' prev' : α → Option α}
  {xs : List α} {a b n : α}

/-- The place is taken out of its chain. -/
def remove (n : α) (chains : List (List α)) : List (List α) :=
  chains.map fun xs => xs.filter (· ≠ n)

lemma flatten_remove : (remove n chains).flatten = chains.flatten.filter (· ≠ n) := by
  rw [remove, List.filter_flatten]

lemma filter_of_notMem (h : n ∉ xs) : xs.filter (· ≠ n) = xs :=
  List.filter_eq_self.mpr fun x hx => by simpa using fun heq : x = n => h (heq ▸ hx)

lemma remove_of_notMem (h : n ∉ chains.flatten) : remove n chains = chains := by
  rw [remove]
  refine (List.map_congr_left fun xs hxs => ?_).trans (List.map_id chains)
  exact filter_of_notMem fun hn => h (List.mem_flatten.mpr ⟨xs, hxs, hn⟩)

/-- What is at the front after a removal. -/
lemma head?_filter (hnodup : xs.Nodup) :
    (xs.filter (· ≠ n)).head? = some b ↔
      b ≠ n ∧ (xs.head? = some b ∨ xs.head? = some n ∧ [n, b] <:+: xs) := by
  cases xs with
  | nil => simp
  | cons x xs =>
      have hx := (List.nodup_cons.mp hnodup).1
      by_cases hxn : x = n
      · subst hxn
        rw [List.filter_cons_of_neg (by simp), filter_of_notMem hx, pair_infix_cons,
          List.head?_cons]
        have hno : ¬ [x, b] <:+: xs := fun h => hx (pair_infix_left h)
        constructor
        · intro h
          have hbx : b ≠ x := fun heq => hx (heq ▸ List.mem_of_mem_head? h)
          exact ⟨hbx, .inr ⟨rfl, .inl ⟨rfl, h⟩⟩⟩
        · rintro ⟨hbx, h | ⟨-, ⟨-, h⟩ | h⟩⟩
          · exact absurd (Option.some.inj h).symm hbx
          · exact h
          · exact absurd h hno
      · rw [List.filter_cons_of_pos (by simpa using hxn), List.head?_cons, List.head?_cons]
        constructor
        · intro h
          obtain rfl := Option.some.inj h
          exact ⟨hxn, .inl rfl⟩
        · rintro ⟨-, h | ⟨h, -⟩⟩
          · exact h
          · exact absurd (Option.some.inj h) hxn

/-- The neighbours after a removal. -/
lemma pair_infix_filter (hnodup : xs.Nodup) :
    [a, b] <:+: xs.filter (· ≠ n) ↔
      a ≠ n ∧ b ≠ n ∧ ([a, b] <:+: xs ∨ [a, n] <:+: xs ∧ [n, b] <:+: xs) := by
  induction xs with
  | nil => simp
  | cons x xs ih =>
      obtain ⟨hx, hnodup⟩ := List.nodup_cons.mp hnodup
      by_cases hxn : x = n
      · subst hxn
        rw [List.filter_cons_of_neg (by simp), filter_of_notMem hx, pair_infix_cons,
          pair_infix_cons, pair_infix_cons]
        have hleft : [a, b] <:+: xs → a ≠ x := fun h heq => hx (heq ▸ pair_infix_left h)
        have hright : [a, b] <:+: xs → b ≠ x := fun h heq => hx (heq ▸ pair_infix_right h)
        have hback : ¬ [a, x] <:+: xs := fun h => hx (pair_infix_right h)
        tauto
      · rw [List.filter_cons_of_pos (by simpa using hxn), pair_infix_cons, head?_filter hnodup,
          ih hnodup, pair_infix_cons, pair_infix_cons, pair_infix_cons]
        have hnx : ¬ (n = x) := Ne.symm hxn
        have hback : ¬ [x, n] <:+: xs := fun h => hx (pair_infix_left h)
        constructor
        · rintro (⟨rfl, hb, h | ⟨hn, h⟩⟩ | ⟨ha, hb, h | ⟨h, h'⟩⟩)
          · exact ⟨hxn, hb, .inl (.inl ⟨rfl, h⟩)⟩
          · exact ⟨hxn, hb, .inr ⟨.inl ⟨rfl, hn⟩, .inr h⟩⟩
          · exact ⟨ha, hb, .inl (.inr h)⟩
          · exact ⟨ha, hb, .inr ⟨.inr h, .inr h'⟩⟩
        · rintro ⟨ha, hb, (⟨rfl, h⟩ | h) | ⟨⟨rfl, h⟩ | h, ⟨heq, -⟩ | h'⟩⟩
          · exact .inl ⟨rfl, hb, .inl h⟩
          · exact .inr ⟨ha, hb, .inl h⟩
          · exact absurd heq hnx
          · exact .inl ⟨rfl, hb, .inr ⟨h, h'⟩⟩
          · exact absurd heq hnx
          · exact .inr ⟨ha, hb, .inr ⟨h, h'⟩⟩

lemma adj_remove (hnodup : chains.flatten.Nodup) :
    Adj (remove n chains) a b ↔
      a ≠ n ∧ b ≠ n ∧ (Adj chains a b ∨ Adj chains a n ∧ Adj chains n b) := by
  constructor
  · rintro ⟨ys, hys, hin⟩
    obtain ⟨xs, hxs, rfl⟩ := List.mem_map.mp hys
    obtain ⟨ha, hb, h⟩ := (pair_infix_filter (nodup_of_mem hnodup hxs)).mp hin
    exact ⟨ha, hb, h.imp (fun h => ⟨xs, hxs, h⟩) fun h => ⟨⟨xs, hxs, h.1⟩, xs, hxs, h.2⟩⟩
  · rintro ⟨ha, hb, ⟨xs, hxs, h⟩ | ⟨⟨xs, hxs, h⟩, ys, hys, h'⟩⟩
    · exact ⟨_, List.mem_map_of_mem hxs,
        (pair_infix_filter (nodup_of_mem hnodup hxs)).mpr ⟨ha, hb, .inl h⟩⟩
    · obtain rfl := eq_of_mem hnodup hxs hys (pair_infix_right h) (pair_infix_left h')
      exact ⟨_, List.mem_map_of_mem hxs,
        (pair_infix_filter (nodup_of_mem hnodup hxs)).mpr ⟨ha, hb, .inr ⟨h, h'⟩⟩⟩

/-- The links after a removal: the neighbours of the place are linked to each other. -/
lemma Links.remove (h : Links next prev chains)
    (hnext : ∀ x, next' x = if x = n then none else if next x = some n then next n else next x)
    (hprev : ∀ x, prev' x = if x = n then none else if prev x = some n then prev n else prev x) :
    Links next' prev' (remove n chains) := by
  have hself : ¬ Adj chains n n := fun hadj => hadj.ne h.nodup rfl
  refine ⟨?_, fun a b => ?_, fun a b => ?_⟩
  · rw [flatten_remove]
    exact h.nodup.filter _
  · have hn : next n ≠ some n := fun heq => hself ((h.next_iff _ _).mp heq)
    have huniq : next a = some b → next n = some b → a = n := by
      intro ha hn
      have hpa := (h.prev_iff _ _).mpr ((h.next_iff _ _).mp ha)
      have hpn := (h.prev_iff _ _).mpr ((h.next_iff _ _).mp hn)
      exact Option.some.inj (hpa.symm.trans hpn)
    rw [adj_remove h.nodup, hnext, ← h.next_iff, ← h.next_iff, ← h.next_iff]
    grind
  · have hn : prev n ≠ some n := fun heq => hself ((h.prev_iff _ _).mp heq)
    rw [adj_remove h.nodup, hprev, ← h.prev_iff, ← h.prev_iff, ← h.prev_iff]
    grind

end Remove

/-! ### The order of the others -/

section Order

variable {chains : List (List α)} {x y n p : α}

lemma Before.mem_left (h : Before chains x y) : x ∈ chains.flatten :=
  let ⟨xs, hxs, hsub⟩ := h
  List.mem_flatten.mpr ⟨xs, hxs, hsub.subset (by simp)⟩

lemma Before.mem_right (h : Before chains x y) : y ∈ chains.flatten :=
  let ⟨xs, hxs, hsub⟩ := h
  List.mem_flatten.mpr ⟨xs, hxs, hsub.subset (by simp)⟩

lemma Before.ne (h : Before chains x y) (hnodup : chains.flatten.Nodup) : x ≠ y := by
  obtain ⟨xs, hxs, hsub⟩ := h
  simpa using (nodup_of_mem hnodup hxs).sublist hsub

lemma pair_sublist_asymm {xs : List α} (hnodup : xs.Nodup) (hxy : [x, y].Sublist xs) :
    ¬ [y, x].Sublist xs := by
  induction xs with
  | nil => cases hxy
  | cons z zs ih =>
      obtain ⟨hz, hnodup⟩ := List.nodup_cons.mp hnodup
      intro hyx
      cases hxy with
      | cons _ hxy =>
          cases hyx with
          | cons _ hyx => exact ih hnodup hxy hyx
          | cons_cons _ hyx => exact hz (hxy.subset (by simp))
      | cons_cons _ hxy =>
          cases hyx with
          | cons _ hyx => exact hz (hyx.subset (by simp))
          | cons_cons _ hyx => exact hz (hyx.subset (by simp))

lemma Before.asymm (h : Before chains x y) (hnodup : chains.flatten.Nodup) : ¬ Before chains y x := by
  rintro ⟨ys, hys, hsub'⟩
  obtain ⟨xs, hxs, hsub⟩ := h
  have hmem : x ∈ ys := hsub'.subset (List.mem_cons_of_mem y (List.mem_singleton_self x))
  obtain rfl := eq_of_mem hnodup hxs hys (hsub.subset List.mem_cons_self) hmem
  exact pair_sublist_asymm (nodup_of_mem hnodup hxs) hsub hsub'

/-- The way to a later place goes through the next one. -/
lemma Before.next (h : Before chains x y) : ∃ n, Adj chains x n ∧ (n = y ∨ Before chains n y) := by
  obtain ⟨xs, hxs, hsub⟩ := h
  obtain ⟨r₁, r₂, rfl, hx, hy⟩ := List.cons_sublist_iff.mp hsub
  obtain ⟨before, after, rfl⟩ := List.append_of_mem hx
  have hmem : y ∈ after ++ r₂ := List.mem_append_right _ (List.singleton_sublist.mp hy)
  cases hrest : after ++ r₂ with
  | nil =>
      rw [hrest] at hmem
      cases hmem
  | cons n rest =>
      rw [List.append_assoc, List.cons_append, hrest] at hxs
      refine ⟨n, ⟨_, hxs, before, rest, by simp⟩, ?_⟩
      rw [hrest] at hmem
      rcases List.mem_cons.mp hmem with rfl | hlater
      · exact .inl rfl
      · refine .inr ⟨_, hxs, ?_⟩
        have htail : [n, y].Sublist (n :: rest) :=
          (List.singleton_sublist.mpr hlater).cons_cons n
        exact htail.trans ((List.sublist_cons_self x _).trans (List.sublist_append_right before _))

/-- The way from an earlier place comes through the previous one. -/
lemma Before.prev (h : Before chains x y) : ∃ p, Adj chains p y ∧ (p = x ∨ Before chains x p) := by
  obtain ⟨xs, hxs, hsub⟩ := h
  obtain ⟨r₁, r₂, rfl, hx, hy⟩ := List.cons_sublist_iff.mp hsub
  obtain ⟨before, after, rfl⟩ := List.append_of_mem (List.singleton_sublist.mp hy)
  have hmem : x ∈ r₁ ++ before := List.mem_append_left _ hx
  obtain ⟨front, p, hfront⟩ : ∃ front p, r₁ ++ before = front ++ [p] :=
    ⟨_, _, (List.dropLast_append_getLast (List.ne_nil_of_mem hmem)).symm⟩
  rw [← List.append_assoc, hfront] at hxs
  refine ⟨p, ⟨_, hxs, front, after, by simp⟩, ?_⟩
  rw [hfront] at hmem
  rcases List.mem_append.mp hmem with hearlier | hlast
  · refine .inr ⟨_, hxs, ?_⟩
    have hhead : [x, p].Sublist (front ++ [p]) :=
      (List.singleton_sublist.mpr hearlier).append (List.Sublist.refl [p])
    exact hhead.trans (List.sublist_append_left _ _)
  · exact .inl (List.mem_singleton.mp hlast).symm

/-- There is nothing between neighbours. -/
lemma Links.not_between {next prev : α → Option α} {z : α} (h : Links next prev chains)
    (hadj : Adj chains x z) (hxy : Before chains x y) : ¬ Before chains y z := by
  intro hyz
  obtain ⟨n, hn, hlater⟩ := hxy.next
  have heq : n = z := by
    have hn' := (h.next_iff x n).mpr hn
    have hz' := (h.next_iff x z).mpr hadj
    exact Option.some.inj (hn'.symm.trans hz')
  rcases hlater with rfl | hny
  · exact hyz.ne h.nodup heq
  · exact (heq ▸ hny).asymm h.nodup hyz

/-- The order after a renaming. -/
lemma before_rename_iff {e : Equiv.Perm α} :
    Before (rename e chains) (e x) (e y) ↔ Before chains x y := by
  constructor
  · rintro ⟨ys, hys, hsub⟩
    obtain ⟨xs, hxs, rfl⟩ := List.mem_map.mp hys
    refine ⟨xs, hxs, ?_⟩
    have hback := hsub.map e.symm
    rw [List.map_map] at hback
    simpa using hback
  · rintro ⟨xs, hxs, hsub⟩
    exact ⟨xs.map e, List.mem_map_of_mem hxs, hsub.map e⟩

/-- A renaming does not touch the order of places that keep their names. -/
lemma before_rename {e : Equiv.Perm α} (hx : e x = x) (hy : e y = y) :
    Before (rename e chains) x y ↔ Before chains x y := by
  have h : Before (rename e chains) (e x) (e y) ↔ Before chains x y := before_rename_iff
  rwa [hx, hy] at h

variable [DecidableEq α]

/-- Neither does the removal of another place. -/
lemma before_remove (hx : x ≠ n) (hy : y ≠ n) :
    Before (remove n chains) x y ↔ Before chains x y := by
  constructor
  · rintro ⟨ys, hys, hsub⟩
    obtain ⟨xs, hxs, rfl⟩ := List.mem_map.mp hys
    exact ⟨xs, hxs, hsub.trans List.filter_sublist⟩
  · rintro ⟨xs, hxs, hsub⟩
    have hthere := hsub.filter (· ≠ n)
    rw [filter_of_notMem (by simp [hx.symm, hy.symm])] at hthere
    exact ⟨_, List.mem_map_of_mem hxs, hthere⟩

lemma remove_insertAfter : remove n (insertAfter p n chains) = remove n chains := by
  have hone : ∀ xs : List α, (insertIn p n xs).filter (· ≠ n) = xs.filter (· ≠ n) := by
    intro xs
    induction xs with
    | nil => rfl
    | cons z xs ih =>
        rw [insertIn]
        split_ifs
        · simp [List.filter_cons]
        · rw [List.filter_cons, List.filter_cons, ih]
  rw [remove, insertAfter, List.map_map]
  exact List.map_congr_left fun xs _ => hone xs

/-- Neither does an insertion. -/
lemma before_insertAfter (hx : x ≠ n) (hy : y ≠ n) :
    Before (insertAfter p n chains) x y ↔ Before chains x y := by
  rw [← before_remove hx hy, remove_insertAfter, before_remove hx hy]

end Order

end Chains
