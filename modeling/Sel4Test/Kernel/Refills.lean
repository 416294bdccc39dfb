import Sel4Test.Kernel.Sporadic

/-!
What each operation on the refills of a scheduling context does to the list of refills.

`Holds p c l sc` says that the buffer of `c` slots, of a scheduling context with period
`p`, holds the refills `l`. `Spaced p budget l` is what a list of refills keeps: the
amounts are positive and sum to the budget, the refills follow each other without an
overlap, and all begin within one period.

* `gives_refillSum`, `gives_refillOrdered`: the sanity checks read the list.
* `gives_refillPopHead`, `gives_refillAddTail`: the ends of the buffer.
* `Spaced.used`, `gives_scheduleUsed`: a used refill joins the tail, follows it, or
  delays it.
-/

namespace Kernel.Sporadic

open Checked Circular

/-! ### Lists of refills -/

/-- One refill ends before the other begins. -/
def Before (a b : Refill) : Prop := a.rTime + a.rAmount ≤ b.rTime

instance (a b : Refill) : Decidable (Before a b) := inferInstanceAs (Decidable (_ ≤ _))

/-- The sum of the amounts. -/
def total (l : List Refill) : ℕ := (l.map Refill.rAmount).sum

@[simp] lemma total_nil : total [] = 0 := rfl

@[simp] lemma total_cons (r : Refill) (l : List Refill) :
    total (r :: l) = r.rAmount + total l := by
  rw [total, total, List.map_cons, List.sum_cons]

@[simp] lemma total_append (l l' : List Refill) : total (l ++ l') = total l + total l' := by
  rw [total, total, total, List.map_append, List.sum_append]

lemma rAmount_le_total {r : Refill} {l : List Refill} (h : r ∈ l) : r.rAmount ≤ total l :=
  List.single_le_sum (fun _ _ => Nat.zero_le _) _ (List.mem_map_of_mem h)

/-- Positive amounts that sum to the budget, in order and apart, within one period. -/
structure Spaced (p budget : ℕ) (l : List Refill) : Prop where
  total_eq : total l = budget
  pos : ∀ r ∈ l, 0 < r.rAmount
  ordered : l.Pairwise Before
  window : ∀ a ∈ l, ∀ b ∈ l, b.rTime ≤ a.rTime + p

variable {p c b budget : ℕ} {h r new t : Refill} {l rest init : List Refill}

namespace Spaced

lemma rAmount_le (s : Spaced p budget l) (hr : r ∈ l) : r.rAmount ≤ budget :=
  s.total_eq ▸ rAmount_le_total hr

/-- The refills behind the head. -/
lemma tail (s : Spaced p budget (h :: rest)) : Spaced p (budget - h.rAmount) rest where
  total_eq := by
    have htotal := s.total_eq
    rw [total_cons] at htotal
    omega
  pos r hr := s.pos r (List.mem_cons_of_mem _ hr)
  ordered := (List.pairwise_cons.mp s.ordered).2
  window x hx y hy := s.window x (List.mem_cons_of_mem _ hx) y (List.mem_cons_of_mem _ hy)

lemma head_before (s : Spaced p budget (h :: rest)) (hr : r ∈ rest) : Before h r :=
  (List.pairwise_cons.mp s.ordered).1 r hr

lemma rAmount_add (s : Spaced p budget (h :: rest)) :
    h.rAmount + (budget - h.rAmount) = budget := by
  have hle := s.rAmount_le List.mem_cons_self
  omega

/-- A new head before a spaced list. -/
lemma cons (s : Spaced p b rest) (hpos : 0 < h.rAmount) (hbefore : ∀ r ∈ rest, Before h r)
    (hwindow : ∀ r ∈ rest, r.rTime ≤ h.rTime + p) :
    Spaced p (h.rAmount + b) (h :: rest) where
  total_eq := by rw [total_cons, s.total_eq]
  pos := by
    intro r hr
    rcases List.mem_cons.mp hr with rfl | hr
    · exact hpos
    · exact s.pos r hr
  ordered := List.pairwise_cons.mpr ⟨hbefore, s.ordered⟩
  window := by
    intro x hx y hy
    rcases List.mem_cons.mp hx with rfl | hx'
    · rcases List.mem_cons.mp hy with rfl | hy'
      · omega
      · exact hwindow y hy'
    · rcases List.mem_cons.mp hy with rfl | hy'
      · have hb := hbefore x hx'
        rw [Before] at hb
        omega
      · exact s.window x hx' y hy'

/-- One refill. -/
lemma singleton (hpos : 0 < r.rAmount) : Spaced p r.rAmount [r] where
  total_eq := by simp
  pos := by simpa using hpos
  ordered := List.pairwise_singleton ..
  window := by simp

end Spaced

/-! ### A used refill -/

/-- What `schedule_used` makes of the refills `l` in a buffer of `c` slots: the new refill
joins the tail, follows it, or delays it so that it joins. -/
inductive Used (c : ℕ) (new : Refill) : List Refill → List Refill → Prop
  | joins (init : List Refill) (t : Refill) : new.rTime ≤ t.rTime + t.rAmount →
      Used c new (init ++ [t]) (init ++ [⟨t.rTime, t.rAmount + new.rAmount⟩])
  | follows (init : List Refill) (t : Refill) : Before t new → (init ++ [t]).length < c →
      Used c new (init ++ [t]) (init ++ [t] ++ [new])
  | delays (init : List Refill) (t : Refill) : Before t new → (init ++ [t]).length = c →
      Used c new (init ++ [t])
        (init ++ [⟨new.rTime - t.rAmount, t.rAmount + new.rAmount⟩])

namespace Spaced

/-- The refills of a list end before its last one begins. -/
lemma init_before (s : Spaced p b (init ++ [t])) (hr : r ∈ init) : Before r t :=
  (List.pairwise_append.mp s.ordered).2.2 r hr t (List.mem_singleton_self t)

/-- The last refill changes to one that begins no earlier. -/
lemma setLast {u : Refill} (s : Spaced p b (init ++ [t])) (hamount : t.rAmount ≤ u.rAmount)
    (htime : t.rTime ≤ u.rTime) (hwindow : ∀ r ∈ init, u.rTime ≤ r.rTime + p) :
    Spaced p (b + (u.rAmount - t.rAmount)) (init ++ [u]) where
  total_eq := by
    have htotal := s.total_eq
    simp only [total_append, total_cons, total_nil] at htotal ⊢
    omega
  pos := by
    intro r hr
    rcases List.mem_append.mp hr with hr | hr
    · exact s.pos r (List.mem_append_left _ hr)
    · obtain rfl := List.mem_singleton.mp hr
      have htpos := s.pos t (by simp)
      omega
  ordered := by
    refine List.pairwise_append.mpr
      ⟨(List.pairwise_append.mp s.ordered).1, List.pairwise_singleton .., ?_⟩
    intro x hx y hy
    obtain rfl := List.mem_singleton.mp hy
    have hb := s.init_before hx
    rw [Before] at hb ⊢
    omega
  window := by
    intro x hx y hy
    rcases List.mem_append.mp hx with hx' | hx'
    · rcases List.mem_append.mp hy with hy' | hy'
      · exact s.window x (List.mem_append_left _ hx') y (List.mem_append_left _ hy')
      · obtain rfl := List.mem_singleton.mp hy'
        exact hwindow x hx'
    · obtain rfl := List.mem_singleton.mp hx'
      rcases List.mem_append.mp hy with hy' | hy'
      · have hw := s.window t (by simp) y (List.mem_append_left _ hy')
        omega
      · obtain rfl := List.mem_singleton.mp hy'
        omega

/-- A refill that begins after the last one ends. -/
lemma snoc (s : Spaced p b (init ++ [t])) (hpos : 0 < new.rAmount) (hbefore : Before t new)
    (hwindow : ∀ r ∈ init ++ [t], new.rTime ≤ r.rTime + p) :
    Spaced p (b + new.rAmount) (init ++ [t] ++ [new]) := by
  have hlast : ∀ r ∈ init ++ [t], r.rTime ≤ t.rTime ∧ Before r new := by
    intro r hr
    rcases List.mem_append.mp hr with hr | hr
    · have hb := s.init_before hr
      rw [Before] at hb hbefore ⊢
      omega
    · obtain rfl := List.mem_singleton.mp hr
      exact ⟨le_rfl, hbefore⟩
  refine ⟨?_, ?_, ?_, ?_⟩
  · rw [total_append, s.total_eq]
    simp
  · intro r hr
    rcases List.mem_append.mp hr with hr | hr
    · exact s.pos r hr
    · obtain rfl := List.mem_singleton.mp hr
      exact hpos
  · refine List.pairwise_append.mpr ⟨s.ordered, List.pairwise_singleton .., ?_⟩
    intro x hx y hy
    obtain rfl := List.mem_singleton.mp hy
    exact (hlast x hx).2
  · intro x hx y hy
    rcases List.mem_append.mp hx with hx' | hx'
    · rcases List.mem_append.mp hy with hy' | hy'
      · exact s.window x hx' y hy'
      · obtain rfl := List.mem_singleton.mp hy'
        exact hwindow x hx'
    · obtain rfl := List.mem_singleton.mp hx'
      rcases List.mem_append.mp hy with hy' | hy'
      · have hle := (hlast y hy').1
        rw [Before] at hbefore
        omega
      · obtain rfl := List.mem_singleton.mp hy'
        omega

/-- **A used refill** within one period of every refill keeps them spaced. -/
lemma used {l' : List Refill} (s : Spaced p b l) (hpos : 0 < new.rAmount)
    (hwindow : ∀ r ∈ l, new.rTime ≤ r.rTime + p) (hu : Used c new l l') :
    Spaced p (b + new.rAmount) l' := by
  cases hu with
  | joins init t hjoin =>
      have hs := s.setLast (u := ⟨t.rTime, t.rAmount + new.rAmount⟩) (Nat.le_add_right _ _)
        le_rfl fun r hr => s.window r (List.mem_append_left _ hr) t (by simp)
      simpa using hs
  | follows init t hbefore _ => exact s.snoc hpos hbefore hwindow
  | delays init t hbefore _ =>
      rw [Before] at hbefore
      have hs := s.setLast (u := ⟨new.rTime - t.rAmount, t.rAmount + new.rAmount⟩)
        (Nat.le_add_right _ _) (show t.rTime ≤ new.rTime - t.rAmount by omega) fun r hr => by
          have hw := hwindow r (List.mem_append_left _ hr)
          show new.rTime - t.rAmount ≤ r.rTime + p
          omega
      simpa using hs

end Spaced

/-- A used refill adds no time later than its own. -/
lemma Used.rTime_lt {l' : List Refill} {bound : ℕ} (hu : Used c new l l')
    (hl : ∀ r ∈ l, r.rTime < bound) (hnew : new.rTime < bound) :
    ∀ r ∈ l', r.rTime < bound := by
  intro r hr
  cases hu with
  | joins init t hjoin =>
      rcases List.mem_append.mp hr with hr | hr
      · exact hl r (List.mem_append_left _ hr)
      · obtain rfl := List.mem_singleton.mp hr
        exact hl t (by simp)
  | follows =>
      rcases List.mem_append.mp hr with hr | hr
      · exact hl r hr
      · obtain rfl := List.mem_singleton.mp hr
        exact hnew
  | delays =>
      rcases List.mem_append.mp hr with hr | hr
      · exact hl r (List.mem_append_left _ hr)
      · obtain rfl := List.mem_singleton.mp hr
        exact lt_of_le_of_lt (Nat.sub_le _ _) hnew

lemma Used.ne_nil {l' : List Refill} (hu : Used c new l l') : l' ≠ [] := by
  cases hu <;> simp

/-! ### The buffer -/

/-- The buffer of `c` slots of a scheduling context with period `p` holds the refills. -/
structure Holds (p c : ℕ) (l : List Refill) (sc : SchedContext) : Prop where
  period_eq : sc.scPeriod = p
  max_eq : sc.scRefillMax = c
  word : c < 2 ^ 64
  items : Items c sc.scRefillHead sc.scRefillTail sc.refillIndex l

namespace Holds

variable {sc : SchedContext}

lemma next_eq (s : Holds p c l sc) {i : ℕ} (hi : i < c) :
    sc.refillNext i = Ring.index c i 1 := by
  have hc := s.word
  rw [SchedContext.refillNext, s.max_eq, wsub, wadd, Ring.index]
  split <;> split <;> omega

lemma size_eq (s : Holds p c l sc) : sc.refillSize = l.length := by
  have hc := s.word
  have hh := s.items.head_lt
  have ht := s.items.tail_lt
  rw [← s.items.size_eq, SchedContext.refillSize, Circular.size, s.max_eq]
  simp only [wadd, wsub]
  split <;> omega

lemma single_iff (s : Holds p c l sc) : sc.refillSingle ↔ l.length = 1 := s.items.single_iff

lemma full_iff (s : Holds p c l sc) : sc.refillFull ↔ l.length = c := by
  rw [SchedContext.refillFull, s.size_eq, s.max_eq]

lemma head_eq (s : Holds p c (h :: rest) sc) : sc.refillHead = h := s.items.front

lemma tail_eq (s : Holds p c (init ++ [t]) sc) : sc.refillTail = t := s.items.back

lemma ne_nil (s : Holds p c l sc) : l ≠ [] := List.length_pos_iff.mp s.items.length_pos

/-- The list is what the buffer holds. -/
lemma refills_eq (s : Holds p c l sc) : sc.refills = l := by
  refine List.ext_getElem? fun k => ?_
  rw [SchedContext.refills, s.size_eq, s.max_eq, List.getElem?_map]
  by_cases hk : k < l.length
  · rw [List.getElem?_range hk, Option.map_some, List.getElem?_eq_getElem hk,
      s.items.slot_eq k _ (List.getElem?_eq_getElem hk)]
  · rw [List.getElem?_eq_none (by simpa using hk), List.getElem?_eq_none (by omega)]
    rfl

lemma setHead (s : Holds p c (h :: rest) sc) :
    Holds p c (r :: rest) (sc.setRefill sc.scRefillHead r) :=
  ⟨s.period_eq, s.max_eq, s.word, s.items.setFront⟩

lemma setHeadTime (s : Holds p c (h :: rest) sc) (time : ℕ) :
    Holds p c (⟨time, h.rAmount⟩ :: rest)
      (sc.setRefill sc.scRefillHead { sc.refillHead with rTime := time }) := by
  rw [s.head_eq]
  exact s.setHead

lemma setHeadAmount (s : Holds p c (h :: rest) sc) (amount : ℕ) :
    Holds p c (⟨h.rTime, amount⟩ :: rest)
      (sc.setRefill sc.scRefillHead { sc.refillHead with rAmount := amount }) := by
  rw [s.head_eq]
  exact s.setHead

lemma setTail (s : Holds p c (init ++ [t]) sc) :
    Holds p c (init ++ [r]) (sc.setRefill sc.scRefillTail r) :=
  ⟨s.period_eq, s.max_eq, s.word, s.items.setBack⟩

end Holds

@[simp] lemma setRefill_scRefillHead (sc : SchedContext) (i : ℕ) (r : Refill) :
    (sc.setRefill i r).scRefillHead = sc.scRefillHead := rfl

@[simp] lemma setRefill_scPeriod (sc : SchedContext) (i : ℕ) (r : Refill) :
    (sc.setRefill i r).scPeriod = sc.scPeriod := rfl

variable {sc : SchedContext}

/-- `refill_pop_head` takes the head off a list of two or more. -/
lemma gives_refillPopHead {y : Refill} (s : Holds p c (h :: y :: rest) sc) :
    Gives sc.refillPopHead fun out => out.1 = h ∧ Holds p c (y :: rest) out.2 := by
  have hmany : ¬ sc.refillSingle := by
    rw [s.single_iff]
    simp
  have hpop : Holds p c (y :: rest)
      { sc with scRefillHead := sc.refillNext sc.scRefillHead } := by
    refine ⟨s.period_eq, s.max_eq, s.word, ?_⟩
    dsimp only
    rw [s.next_eq s.items.head_lt]
    exact s.items.pop
  have hsize : sc.refillSize = wadd (SchedContext.refillSize
      { sc with scRefillHead := sc.refillNext sc.scRefillHead }) 1 := by
    have hl := s.items.length_le
    have hc := s.word
    rw [s.size_eq, hpop.size_eq, wadd]
    simp only [List.length_cons] at hl ⊢
    omega
  have hlt : sc.refillNext sc.scRefillHead < sc.scRefillMax := by
    rw [s.max_eq]
    exact hpop.items.head_lt
  refine (gives_assert hmany).bind fun _ _ => ?_
  refine (gives_assert hsize).bind fun _ _ => ?_
  refine (gives_assert hlt).bind fun _ _ => ?_
  exact gives_pure ⟨s.head_eq, hpop⟩

/-- `refill_add_tail` adds to a buffer with room. -/
lemma gives_refillAddTail (s : Holds p c l sc) (hroom : l.length < c) :
    Gives (sc.refillAddTail new) (Holds p c (l ++ [new])) := by
  have hsize : sc.refillSize < sc.scRefillMax := by
    rw [s.size_eq, s.max_eq]
    exact hroom
  have hpush : Holds p c (l ++ [new]) (SchedContext.setRefill
      { sc with scRefillTail := sc.refillNext sc.scRefillTail }
      (sc.refillNext sc.scRefillTail) new) := by
    refine ⟨s.period_eq, s.max_eq, s.word, ?_⟩
    rw [s.next_eq s.items.tail_lt]
    exact s.items.push hroom
  have hlt : sc.refillNext sc.scRefillTail < sc.scRefillMax := by
    rw [s.max_eq]
    exact hpush.items.tail_lt
  refine (gives_assert hsize).bind fun _ _ => ?_
  refine (gives_assert hlt).bind fun _ _ => ?_
  exact gives_pure hpush

/-! ### Sanity checks -/

/-- A walk over the buffer is at the item `k`, with `n` items behind it. -/
structure WalkAt (c : ℕ) (l : List Refill) (sc : SchedContext) (n k i : ℕ) : Prop where
  left : k + 1 + n = l.length
  at_item : i = Ring.index c sc.scRefillHead k

namespace WalkAt

variable {n k i : ℕ}

lemma start (s : Holds p c l sc) : WalkAt c l sc (l.length - 1) 0 sc.scRefillHead where
  left := by
    have hpos := s.items.length_pos
    omega
  at_item := (Ring.index_zero s.items.head_lt).symm

/-- Away from the tail there is an item behind, and the walk goes on to it. -/
lemma step (s : Holds p c l sc) (w : WalkAt c l sc n k i) (hne : i ≠ sc.scRefillTail) :
    ∃ m < n, WalkAt c l sc m (k + 1) (sc.refillNext i) := by
  have hleft := w.left
  have hle := s.items.length_le
  have hmore : k + 1 ≠ l.length := by
    intro hlast
    rw [← s.items.at_tail_iff (by omega), ← w.at_item] at hlast
    exact hne hlast
  have hi : i < c := by
    rw [w.at_item]
    exact Ring.index_lt s.items.head_lt (by omega)
  refine ⟨n - 1, by omega, by omega, ?_⟩
  rw [s.next_eq hi, w.at_item, index_next s.items.head_lt (by omega)]

/-- At the tail the walk is over. -/
lemma last (s : Holds p c l sc) (w : WalkAt c l sc n k i) (heq : i = sc.scRefillTail) :
    k + 1 = l.length := by
  have hleft := w.left
  rwa [← s.items.at_tail_iff (by omega), ← w.at_item]

lemma lt_length (w : WalkAt c l sc n k i) : k < l.length := by
  have hleft := w.left
  omega

/-- The slot of the walk holds its item. -/
lemma item (s : Holds p c l sc) (w : WalkAt c l sc n k i) :
    sc.refillIndex i = l.get ⟨k, w.lt_length⟩ := by
  have hslot := s.items.slot_eq k _ (List.getElem?_eq_getElem w.lt_length)
  rwa [← w.at_item] at hslot

end WalkAt

lemma total_take_succ (l : List Refill) {k : ℕ} (hk : k < l.length) :
    total (l.take (k + 1)) = total (l.take k) + (l.get ⟨k, hk⟩).rAmount := by
  rw [← List.take_concat_get' l k hk, total_append, total_cons, total_nil, Nat.add_zero]
  rfl

lemma total_take_le (l : List Refill) (k : ℕ) : total (l.take k) ≤ total l := by
  conv_rhs => rw [← List.take_append_drop k l]
  rw [total_append]
  exact Nat.le_add_right _ _

/-- `refill_sum` is the sum of the amounts. -/
lemma gives_refillSum (s : Holds p c l sc) (hfits : total l < wordBound) :
    Gives sc.refillSum (· = total l) := by
  have hfuel : l.length - 1 < wordBound := by
    have hle := s.items.length_le
    have hword := s.word
    rw [wordBound]
    omega
  -- the loop has added the items up to the one where it is
  let Inv : ℕ → ℕ × ℕ → Prop := fun n w =>
    ∃ k, WalkAt c l sc n k w.1 ∧ w.2 = total (l.take (k + 1))
  have hstart : Inv (l.length - 1) (sc.scRefillHead, sc.refillHead.rAmount) := by
    refine ⟨0, .start s, ?_⟩
    obtain ⟨h, rest, rfl⟩ := List.exists_cons_of_ne_nil s.ne_nil
    rw [s.head_eq]
    simp
  refine (Gives.while Inv (fun w => w.1 ≠ sc.scRefillTail)
    (fun n w _ => gives_pure (by simp)) ?_ hstart hfuel).bind ?_
  · rintro n w ⟨k, hw, hsum⟩ hne
    obtain ⟨m, hm, hw'⟩ := hw.step s hne
    have hsucc := total_take_succ l hw'.lt_length
    have hle := total_take_le l (k + 1 + 1)
    rw [← hw'.item s, ← hsum] at hsucc
    refine (gives_add (by omega)).bind fun sum hadd => ?_
    exact gives_pure ⟨m, hm, k + 1, hw', by rw [hadd, hsucc]⟩
  · rintro w ⟨⟨n, k, hw, hsum⟩, hend⟩
    have hlast := hw.last s (not_not.mp hend)
    refine gives_pure ?_
    rw [hsum, hlast, List.take_length]

/-- `refill_ordered` accepts refills in order. -/
lemma gives_refillOrdered (s : Holds p c l sc) (hord : l.Pairwise Before)
    (hfits : ∀ r ∈ l, r.rTime + r.rAmount < wordBound) :
    Gives sc.refillOrdered (· = true) := by
  have hfuel : l.length - 1 < wordBound := by
    have hle := s.items.length_le
    have hword := s.word
    rw [wordBound]
    omega
  rw [SchedContext.refillOrdered]
  split
  · exact gives_pure rfl
  · let Inv : ℕ → ℕ × ℕ → Prop := fun n w =>
      w.2 = sc.refillNext w.1 ∧ ∃ k, WalkAt c l sc n k w.1
    have hstart : Inv (l.length - 1) (sc.scRefillHead, sc.refillNext sc.scRefillHead) :=
      ⟨rfl, 0, .start s⟩
    refine Gives.loop Inv ?_ hstart hfuel
    rintro n w ⟨hnext, k, hw⟩
    split_ifs with hne
    · obtain ⟨m, hm, hw'⟩ := hw.step s hne
      have hbefore : Before (sc.refillIndex w.1) (sc.refillIndex w.2) := by
        rw [hnext, hw.item s, hw'.item s]
        exact List.pairwise_iff_get.mp hord _ _ (Nat.lt_succ_self k)
      have hmem : sc.refillIndex w.1 ∈ l := by
        rw [hw.item s]
        exact List.get_mem l _
      refine (gives_add (hfits _ hmem)).bind fun e he => ?_
      rw [if_pos (he ▸ hbefore)]
      exact gives_pure ⟨m, hm, rfl, k + 1, hnext ▸ hw'⟩
    · exact gives_pure rfl

/-- The sanity checks pass on spaced refills. -/
lemma gives_assertOrdered (s : Holds p c l sc) (hord : l.Pairwise Before)
    (hfits : ∀ r ∈ l, r.rTime + r.rAmount < wordBound) :
    Gives sc.assertOrdered fun _ => True := by
  rw [SchedContext.assertOrdered]
  split
  · exact gives_pure True.intro
  · exact (gives_refillOrdered s hord hfits).bind fun b hb => gives_assert hb

lemma gives_refillSanityStart (s : Holds p c l sc) (hord : l.Pairwise Before)
    (hfits : ∀ r ∈ l, r.rTime + r.rAmount < wordBound) (htotal : total l < wordBound) :
    Gives sc.refillSanityStart (· = total l) := by
  refine (gives_refillSum s htotal).bind fun sum hsum => ?_
  exact (gives_assertOrdered s hord hfits).bind fun _ _ => gives_pure hsum

lemma gives_refillSanityCheck (s : Holds p c l sc) (hord : l.Pairwise Before)
    (hfits : ∀ r ∈ l, r.rTime + r.rAmount < wordBound) (htotal : total l < wordBound) :
    Gives (sc.refillSanityCheck (total l)) fun _ => True := by
  refine (gives_refillSum s htotal).bind fun sum hsum => ?_
  exact (gives_assert hsum).bind fun _ _ => gives_assertOrdered s hord hfits

/-! ### Charging a used refill -/

/-- `schedule_used` is the relation `Used` on the list of refills. -/
lemma gives_scheduleUsed (s : Holds p c l sc)
    (hfits : ∀ r ∈ l, r.rTime + r.rAmount < wordBound)
    (htotal : total l + new.rAmount < wordBound) :
    Gives (sc.scheduleUsed new) fun sc' => ∃ l', Used c new l l' ∧ Holds p c l' sc' := by
  obtain ⟨init, t, rfl⟩ := (List.eq_nil_or_concat l).resolve_left s.ne_nil
  rw [List.concat_eq_append] at *
  have hamount : t.rAmount + new.rAmount < wordBound := by
    rw [total_append, total_cons, total_nil] at htotal
    omega
  rw [SchedContext.scheduleUsed, s.tail_eq]
  refine (gives_add (hfits t (by simp))).bind fun e he => ?_
  subst he
  split_ifs with hjoin hfull
  · refine (gives_add hamount).bind fun a ha => ?_
    subst ha
    exact gives_pure ⟨_, .joins init t hjoin, s.setTail⟩
  · have hlen : (init ++ [t]).length = c := by
      rwa [← s.full_iff]
    have hbefore : Before t new := (not_le.mp hjoin).le
    have hle : t.rAmount ≤ new.rTime := by
      rw [Before] at hbefore
      omega
    refine (gives_sub hle).bind fun d hd => ?_
    refine (gives_add hamount).bind fun a ha => ?_
    subst hd ha
    exact gives_pure ⟨_, .delays init t hbefore hlen, s.setTail⟩
  · have hlen : (init ++ [t]).length < c := by
      rw [s.full_iff] at hfull
      exact lt_of_le_of_ne s.items.length_le hfull
    have hbefore : Before t new := (not_le.mp hjoin).le
    exact (gives_refillAddTail s hlen).mono fun sc' hs' =>
      ⟨_, .follows init t hbefore hlen, hs'⟩

end Kernel.Sporadic
