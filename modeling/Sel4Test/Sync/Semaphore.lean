import Sel4Test.Lib.Exec
import Sel4Test.Lib.Threads
import Sel4Test.Sync.BinSem

/-!
Counting semaphores, `libsel4sync/include/sync/sem-bare.h`.

The capability is one to an endpoint, so that `seL4_Signal` is a send that blocks until a thread
receives. Any number of threads use one semaphore; a step is one access to the shared word or
one system call, and the threads take steps in any order. `out` counts the units that are out:
a thread posts only a unit that is out, but any thread may do it.

* `Inv`: every unit is in the semaphore, out, or with a thread that posts it, and every waiter
  is owed a unit.
* `step_inv`: every step keeps it.
* `semaphore_runs`: units, assertions and wake-ups in every run.
-/

namespace Sync

open Threads Exec
open Function (update update_of_ne update_comm forall_update_iff)

variable {ι : Type}

/-- `INT_MAX`. -/
def intMax : ℤ := 2 ^ 31 - 1

namespace Semaphore

/-! ### The code -/

/-- Where a thread is. -/
inductive Pc
  /-- Not in a call. -/
  | idle
  /-- In the loop of `sync_atomic_decrement_safe`, before `*oldval = *x`. -/
  | reading
  /-- Before the compare-and-exchange. -/
  | swapping (oldval : ℤ)
  /-- Before `seL4_Recv`. -/
  | receiving
  /-- In the kernel, with no sender. -/
  | recvBlocked
  /-- In `sync_sem_bare_trywait`, before `val = *value`. -/
  | tryReading
  /-- Before the compare-and-exchange. -/
  | trySwapping (val : ℤ)
  /-- In `sync_sem_bare_post`, before the assertion. -/
  | asserting
  /-- Before the increment. -/
  | adding
  /-- Before `seL4_Signal`. -/
  | sending
  /-- In the kernel, with no receiver. -/
  | sendBlocked
  /-- The assertion has failed. -/
  | aborted
  deriving DecidableEq

/-- What a thread that is not in a call does next. -/
inductive Call
  | wait
  | trywait
  | post
  deriving DecidableEq

/-- The semaphore, the queues of its endpoint and the threads. -/
structure State (ι : Type) where
  value : ℤ
  senders : List ι
  receivers : List ι
  out : ℕ
  pc : ι → Pc

/-- `sync_sem_init`, with some units that are out from the start. -/
def init (value out : ℕ) : State ι := ⟨value, [], [], out, fun _ => .idle⟩

variable [DecidableEq ι]

/-- A step of a thread. -/
def step (s : State ι) (l : ι × Bool × Call) : Option (State ι) :=
  let i := l.1
  let goto x : State ι := { s with pc := update s.pc i x }
  match s.pc i with
  | .idle =>
      match l.2.2 with
      | .wait => some (goto .reading)
      | .trywait => some (goto .tryReading)
      | .post => if 0 < s.out then some { goto .asserting with out := s.out - 1 } else none
  | .reading => some (goto (if s.value = intMin then .idle else .swapping s.value))
  | .swapping oldval =>
      if s.value = oldval ∧ l.2.1 = false then
        if oldval ≤ 0 then some { goto .receiving with value := oldval - 1 }
        else some { goto .idle with value := oldval - 1, out := s.out + 1 }
      else some (goto .reading)
  | .receiving =>
      match s.senders with
      | [] => some { goto .recvBlocked with receivers := s.receivers ++ [i] }
      | t :: q => some { s with
          senders := q
          out := s.out + 1
          pc := update (update s.pc t .idle) i .idle }
  | .recvBlocked => none
  | .tryReading => some (goto (if 0 < s.value then .trySwapping s.value else .idle))
  | .trySwapping val =>
      if s.value = val ∧ l.2.1 = false then
        some { goto .idle with value := val - 1, out := s.out + 1 }
      else some (goto .tryReading)
  | .asserting => some (goto (if s.value < intMax then .adding else .aborted))
  | .adding =>
      some { goto (if s.value + 1 ≤ 0 then .sending else .idle) with value := s.value + 1 }
  | .sending =>
      match s.receivers with
      | [] => some { goto .sendBlocked with senders := s.senders ++ [i] }
      | t :: q => some { s with
          receivers := q
          out := s.out + 1
          pc := update (update s.pc t .idle) i .idle }
  | .sendBlocked => none
  | .aborted => none

/-! ### The invariant -/

/-- The thread has a unit, which it has not put into the semaphore yet. -/
def Pc.posts : Pc → Bool
  | .asserting | .adding => true
  | _ => false

/-- The thread has a unit for a thread that waits. -/
def Pc.gives : Pc → Bool
  | .sending | .sendBlocked => true
  | _ => false

/-- The thread waits for a unit. -/
def Pc.waits : Pc → Bool
  | .receiving | .recvBlocked => true
  | _ => false

/-- What a thread knows about the value that it has read. -/
def Knows (x : Pc) : Prop :=
  (∀ v, x = .swapping v → intMin < v) ∧ (∀ v, x = .trySwapping v → 0 < v) ∧ x ≠ .aborted

variable [Fintype ι] {s s' : State ι} {i j t : ι} {l : ι × Bool × Call} {C : ℕ}

/-- **The invariant** of a semaphore with so many units. -/
structure Inv (C : ℕ) (s : State ι) : Prop where
  units : s.value.toNat + s.out + count Pc.posts s.pc + count Pc.gives s.pc = C
  owed : (-s.value).toNat + count Pc.gives s.pc = count Pc.waits s.pc
  low : intMin ≤ s.value
  knows : ∀ i, Knows (s.pc i)
  mem_senders : ∀ i, i ∈ s.senders ↔ s.pc i = .sendBlocked
  mem_receivers : ∀ i, i ∈ s.receivers ↔ s.pc i = .recvBlocked
  nodup_senders : s.senders.Nodup
  nodup_receivers : s.receivers.Nodup
  one_side : s.senders = [] ∨ s.receivers = []

omit [DecidableEq ι] in
lemma inv_init (value out : ℕ) : Inv (value + out) (init value out : State ι) where
  units := by
    have hposts : count Pc.posts (init value out : State ι).pc = 0 := count_eq_zero.mpr fun _ => rfl
    have hgives : count Pc.gives (init value out : State ι).pc = 0 := count_eq_zero.mpr fun _ => rfl
    rw [hposts, hgives]
    simp [init]
  owed := by
    have hgives : count Pc.gives (init value out : State ι).pc = 0 := count_eq_zero.mpr fun _ => rfl
    have hwaits : count Pc.waits (init value out : State ι).pc = 0 := count_eq_zero.mpr fun _ => rfl
    rw [hgives, hwaits]
    simp [init]
  low := by
    simp only [init, intMin]
    omega
  knows i := by simp [init, Knows]
  mem_senders i := by simp [init]
  mem_receivers i := by simp [init]
  nodup_senders := List.nodup_nil
  nodup_receivers := List.nodup_nil
  one_side := .inl rfl

/-- **A thread goes to another place**, and the queues follow it. -/
lemma Inv.goto (h : Inv C s) {x : Pc} {v : ℤ} {out : ℕ} {senders receivers : List ι}
    (hknows : Knows x)
    (hunits : v.toNat + out + x.posts.toNat + x.gives.toNat =
      s.value.toNat + s.out + (s.pc i).posts.toNat + (s.pc i).gives.toNat)
    (howed : (-v).toNat + x.gives.toNat + (s.pc i).waits.toNat =
      (-s.value).toNat + (s.pc i).gives.toNat + x.waits.toNat)
    (hlow : intMin ≤ v)
    (hsenders : ∀ j, j ∈ senders ↔ update s.pc i x j = .sendBlocked)
    (hreceivers : ∀ j, j ∈ receivers ↔ update s.pc i x j = .recvBlocked)
    (hnodup : senders.Nodup ∧ receivers.Nodup) (hside : senders = [] ∨ receivers = []) :
    Inv C ⟨v, senders, receivers, out, update s.pc i x⟩ := by
  have hposts := count_update Pc.posts s.pc i x
  have hgives := count_update Pc.gives s.pc i x
  have hwaits := count_update Pc.waits s.pc i x
  refine ⟨?_, ?_, hlow, ?_, hsenders, hreceivers, hnodup.1, hnodup.2, hside⟩
  · have hunits₀ := h.units
    dsimp only
    omega
  · have howed₀ := h.owed
    dsimp only
    omega
  · exact (forall_update_iff s.pc fun _ x => Knows x).mpr ⟨hknows, fun j _ => h.knows j⟩

omit [DecidableEq ι] in
lemma Inv.not_mem_senders (h : Inv C s) (hi : s.pc i ≠ .sendBlocked) : i ∉ s.senders := by
  rwa [h.mem_senders]

omit [DecidableEq ι] in
lemma Inv.not_mem_receivers (h : Inv C s) (hi : s.pc i ≠ .recvBlocked) : i ∉ s.receivers := by
  rwa [h.mem_receivers]

/-- The senders stay, where the thread is not one of them before or after. -/
lemma Inv.senders_same (h : Inv C s) {x : Pc} (hi : s.pc i ≠ .sendBlocked)
    (hx : x ≠ .sendBlocked) : ∀ j, j ∈ s.senders ↔ update s.pc i x j = .sendBlocked :=
  (forall_update_iff s.pc fun j x => j ∈ s.senders ↔ x = .sendBlocked).mpr
    ⟨iff_of_false (h.not_mem_senders hi) hx, fun j _ => h.mem_senders j⟩

/-- The receivers stay, where the thread is not one of them before or after. -/
lemma Inv.receivers_same (h : Inv C s) {x : Pc} (hi : s.pc i ≠ .recvBlocked)
    (hx : x ≠ .recvBlocked) : ∀ j, j ∈ s.receivers ↔ update s.pc i x j = .recvBlocked :=
  (forall_update_iff s.pc fun j x => j ∈ s.receivers ↔ x = .recvBlocked).mpr
    ⟨iff_of_false (h.not_mem_receivers hi) hx, fun j _ => h.mem_receivers j⟩

/-- A step that leaves the endpoint alone. -/
lemma Inv.move (h : Inv C s) {x : Pc} {v : ℤ} {out : ℕ}
    (hi : s.pc i ≠ .sendBlocked ∧ s.pc i ≠ .recvBlocked)
    (hx : x ≠ .sendBlocked ∧ x ≠ .recvBlocked) (hknows : Knows x)
    (hunits : v.toNat + out + x.posts.toNat + x.gives.toNat =
      s.value.toNat + s.out + (s.pc i).posts.toNat + (s.pc i).gives.toNat)
    (howed : (-v).toNat + x.gives.toNat + (s.pc i).waits.toNat =
      (-s.value).toNat + (s.pc i).gives.toNat + x.waits.toNat)
    (hlow : intMin ≤ v) : Inv C ⟨v, s.senders, s.receivers, out, update s.pc i x⟩ :=
  h.goto hknows hunits howed hlow (h.senders_same hi.1 hx.1) (h.receivers_same hi.2 hx.2)
    ⟨h.nodup_senders, h.nodup_receivers⟩ h.one_side

/-- **A sender and a receiver meet**: the unit goes from one to the other. -/
lemma Inv.meet (h : Inv C s) {g w : ι} {senders receivers : List ι}
    (hg : (s.pc g).gives = true) (hw : (s.pc w).waits = true)
    (hsenders : ∀ j, j ∈ senders ↔ j ∈ s.senders ∧ j ≠ g)
    (hreceivers : ∀ j, j ∈ receivers ↔ j ∈ s.receivers ∧ j ≠ w)
    (hnodup : senders.Nodup ∧ receivers.Nodup) (hside : senders = [] ∨ receivers = []) :
    Inv C ⟨s.value, senders, receivers, s.out + 1, update (update s.pc g .idle) w .idle⟩ := by
  have hne : g ≠ w := by
    rintro rfl
    cases hpc : s.pc g <;> simp [hpc, Pc.gives, Pc.waits] at hg hw
  have hgp : (s.pc g).posts = false ∧ (s.pc g).waits = false ∧ s.pc g ≠ .recvBlocked := by
    cases hpc : s.pc g <;> simp [hpc, Pc.gives, Pc.posts, Pc.waits] at hg ⊢
  have hwp : (s.pc w).posts = false ∧ (s.pc w).gives = false ∧ s.pc w ≠ .sendBlocked := by
    cases hpc : s.pc w <;> simp [hpc, Pc.waits, Pc.posts, Pc.gives] at hw ⊢
  -- the sender is idle first, and then the receiver
  have hcount : ∀ P : Pc → Bool, P .idle = false →
      count P (update (update s.pc g .idle) w .idle) + (P (s.pc g)).toNat + (P (s.pc w)).toNat =
        count P s.pc := by
    intro P hidle
    have hfirst := count_update P s.pc g .idle
    have hthen := count_update P (update s.pc g .idle) w .idle
    rw [update_of_ne hne.symm] at hthen
    rw [hidle, Bool.toNat_false] at hfirst hthen
    omega
  have hposts := hcount Pc.posts rfl
  have hgives := hcount Pc.gives rfl
  have hwaits := hcount Pc.waits rfl
  rw [hgp.1, hwp.1] at hposts
  rw [hg, hwp.2.1] at hgives
  rw [hgp.2.1, hw] at hwaits
  simp only [Bool.toNat_false, Bool.toNat_true, Nat.add_zero] at hposts hgives hwaits
  have hidle : ∀ j, update (update s.pc g .idle) w .idle j =
      if j = g ∨ j = w then .idle else s.pc j := by
    intro j
    by_cases hjw : j = w <;> by_cases hjg : j = g <;> simp [Function.update_apply, hjw, hjg]
  refine ⟨?_, ?_, h.low, fun j => ?_, fun j => ?_, fun j => ?_, hnodup.1, hnodup.2, hside⟩
  · have hunits := h.units
    dsimp only
    omega
  · have howed := h.owed
    dsimp only
    omega
  · dsimp only
    rw [hidle]
    split_ifs with hj
    · simp [Knows]
    · exact h.knows j
  · dsimp only
    rw [hsenders, hidle]
    split_ifs with hj
    · refine iff_of_false ?_ (by simp)
      rintro ⟨hmem, hjg⟩
      obtain rfl := hj.resolve_left hjg
      exact h.not_mem_senders hwp.2.2 hmem
    · rw [h.mem_senders, not_or] at *
      exact and_iff_left hj.1
  · dsimp only
    rw [hreceivers, hidle]
    split_ifs with hj
    · refine iff_of_false ?_ (by simp)
      rintro ⟨hmem, hjw⟩
      obtain rfl := hj.resolve_right hjw
      exact h.not_mem_receivers hgp.2.2 hmem
    · rw [h.mem_receivers, not_or] at *
      exact and_iff_left hj.2

/-- `seL4_Recv`: the thread takes the unit of the first sender, or waits for one. -/
lemma Inv.recv (h : Inv C s) (hi : s.pc i = .receiving) {l : Bool × Call}
    (hstep : step s (i, l) = some s') : Inv C s' := by
  have hnotin : i ∉ s.receivers := h.not_mem_receivers (by simp [hi])
  cases hsenders : s.senders with
  | nil =>
      simp only [step, hi, hsenders, Option.some.injEq] at hstep
      subst hstep
      refine h.goto (by simp [Knows]) ?_ ?_ h.low ?_ ?_ ⟨List.nodup_nil, ?_⟩ (.inl rfl)
      · simp [hi, Pc.posts, Pc.gives]
      · simp [hi, Pc.waits, Pc.gives]
      · rw [← hsenders]
        exact h.senders_same (by simp [hi]) (by simp)
      · refine (forall_update_iff s.pc fun j x => j ∈ s.receivers ++ [i] ↔ x = .recvBlocked).mpr
          ⟨by simp, fun j hj => ?_⟩
        rw [← h.mem_receivers]
        simp [hj]
      · refine List.nodup_append.mpr ⟨h.nodup_receivers, List.nodup_singleton i, ?_⟩
        rintro a ha b hb rfl
        exact hnotin (List.mem_singleton.mp hb ▸ ha)
  | cons t q =>
      have ht : s.pc t = .sendBlocked := (h.mem_senders t).mp (by simp [hsenders])
      have hnodup := h.nodup_senders
      have hside := h.one_side
      rw [hsenders] at hnodup hside
      obtain ⟨htq, hq⟩ := List.nodup_cons.mp hnodup
      simp only [step, hi, hsenders, Option.some.injEq] at hstep
      subst hstep
      refine h.meet (by rw [ht]; rfl) (by rw [hi]; rfl) (fun j => ?_) (fun j => ?_)
        ⟨hq, h.nodup_receivers⟩ (.inr (hside.resolve_left (by simp)))
      · rw [hsenders, List.mem_cons]
        refine ⟨fun hj => ⟨.inr hj, fun hjt => htq (hjt ▸ hj)⟩, fun hj => hj.1.resolve_left hj.2⟩
      · exact ⟨fun hj => ⟨hj, fun hji => hnotin (hji ▸ hj)⟩, fun hj => hj.1⟩

/-- `seL4_Signal`: the thread gives its unit to the first receiver, or waits for one. -/
lemma Inv.send (h : Inv C s) (hi : s.pc i = .sending) {l : Bool × Call}
    (hstep : step s (i, l) = some s') : Inv C s' := by
  have hnotin : i ∉ s.senders := h.not_mem_senders (by simp [hi])
  cases hreceivers : s.receivers with
  | nil =>
      simp only [step, hi, hreceivers, Option.some.injEq] at hstep
      subst hstep
      refine h.goto (by simp [Knows]) ?_ ?_ h.low ?_ ?_ ⟨?_, List.nodup_nil⟩ (.inr rfl)
      · simp [hi, Pc.posts, Pc.gives]
      · simp [hi, Pc.waits, Pc.gives]
      · refine (forall_update_iff s.pc fun j x => j ∈ s.senders ++ [i] ↔ x = .sendBlocked).mpr
          ⟨by simp, fun j hj => ?_⟩
        rw [← h.mem_senders]
        simp [hj]
      · rw [← hreceivers]
        exact h.receivers_same (by simp [hi]) (by simp)
      · refine List.nodup_append.mpr ⟨h.nodup_senders, List.nodup_singleton i, ?_⟩
        rintro a ha b hb rfl
        exact hnotin (List.mem_singleton.mp hb ▸ ha)
  | cons t q =>
      have ht : s.pc t = .recvBlocked := (h.mem_receivers t).mp (by simp [hreceivers])
      have hne : t ≠ i := by
        rintro rfl
        rw [ht] at hi
        cases hi
      have hnodup := h.nodup_receivers
      have hside := h.one_side
      rw [hreceivers] at hnodup hside
      obtain ⟨htq, hq⟩ := List.nodup_cons.mp hnodup
      simp only [step, hi, hreceivers, Option.some.injEq] at hstep
      subst hstep
      rw [update_comm hne]
      refine h.meet (by rw [hi]; rfl) (by rw [ht]; rfl) (fun j => ?_) (fun j => ?_)
        ⟨h.nodup_senders, hq⟩ (.inl (hside.resolve_right (by simp)))
      · exact ⟨fun hj => ⟨hj, fun hji => hnotin (hji ▸ hj)⟩, fun hj => hj.1⟩
      · rw [hreceivers, List.mem_cons]
        refine ⟨fun hj => ⟨.inr hj, fun hjt => htq (hjt ▸ hj)⟩, fun hj => hj.1.resolve_left hj.2⟩

omit [DecidableEq ι] in
/-- A thread that posts has a unit that the value does not count. -/
lemma Inv.value_lt (h : Inv C s) (hC : (C : ℤ) ≤ intMax) (hi : (s.pc i).posts = true) :
    s.value < intMax := by
  have hunits := h.units
  have hposts : 0 < count Pc.posts s.pc := count_pos hi
  omega

/-- A thread goes on with what it has, and leaves the semaphore alone. -/
lemma Inv.stay (h : Inv C s) {x y : Pc} (hi : s.pc i = y)
    (hy : y ≠ .sendBlocked ∧ y ≠ .recvBlocked) (hx : x ≠ .sendBlocked ∧ x ≠ .recvBlocked)
    (hknows : Knows x)
    (hsame : x.posts = y.posts ∧ x.gives = y.gives ∧ x.waits = y.waits) :
    Inv C { s with pc := update s.pc i x } := by
  obtain ⟨hposts, hgives, hwaits⟩ := hsame
  subst hi
  exact h.move hy hx hknows (by rw [hposts, hgives]) (by rw [hgives, hwaits]) h.low

/-- `sync_atomic_decrement_safe`: the thread takes a unit, is to wait for one, or tries again. -/
lemma Inv.decrement (h : Inv C s) {oldval : ℤ} {l : Bool × Call} (hi : s.pc i = .swapping oldval)
    (hstep : step s (i, l) = some s') : Inv C s' := by
  have hmin := (h.knows i).1 oldval hi
  simp only [step, hi] at hstep
  by_cases hswap : s.value = oldval ∧ l.1 = false
  · rw [if_pos hswap] at hstep
    obtain ⟨rfl, -⟩ := hswap
    split_ifs at hstep with hfree <;> obtain rfl := Option.some.inj hstep
    · -- there is no unit, and the thread is owed one
      refine h.move (by simp [hi]) (by simp) (by simp [Knows]) ?_ ?_ (by omega)
      · simp only [hi, Pc.posts, Pc.gives, Bool.toNat_false]
        omega
      · simp only [hi, Pc.waits, Pc.gives, Bool.toNat_false, Bool.toNat_true]
        omega
    · refine h.move (by simp [hi]) (by simp) (by simp [Knows]) ?_ ?_ (by omega)
      · simp only [hi, Pc.posts, Pc.gives, Bool.toNat_false]
        omega
      · simp only [hi, Pc.waits, Pc.gives, Bool.toNat_false]
        omega
  · rw [if_neg hswap] at hstep
    obtain rfl := Option.some.inj hstep
    exact h.stay hi (by simp) (by simp) (by simp [Knows]) ⟨rfl, rfl, rfl⟩

/-- The compare-and-exchange of `sync_sem_bare_trywait`: it takes a unit that is there, or fails. -/
lemma Inv.take (h : Inv C s) {val : ℤ} {l : Bool × Call} (hi : s.pc i = .trySwapping val)
    (hstep : step s (i, l) = some s') : Inv C s' := by
  have hpos := (h.knows i).2.1 val hi
  have hneg : intMin < 0 := by norm_num [intMin]
  simp only [step, hi] at hstep
  by_cases hswap : s.value = val ∧ l.1 = false
  · rw [if_pos hswap] at hstep
    obtain rfl := Option.some.inj hstep
    obtain ⟨rfl, -⟩ := hswap
    refine h.move (by simp [hi]) (by simp) (by simp [Knows]) ?_ ?_ (by omega)
    · simp only [hi, Pc.posts, Pc.gives, Bool.toNat_false]
      omega
    · simp only [hi, Pc.waits, Pc.gives, Bool.toNat_false]
      omega
  · rw [if_neg hswap] at hstep
    obtain rfl := Option.some.inj hstep
    exact h.stay hi (by simp) (by simp) (by simp [Knows]) ⟨rfl, rfl, rfl⟩

/-- `sync_atomic_increment`: the unit goes into the value, or is kept for a thread that waits. -/
lemma Inv.increment (h : Inv C s) {l : Bool × Call} (hi : s.pc i = .adding)
    (hstep : step s (i, l) = some s') : Inv C s' := by
  have hlow := h.low
  simp only [step, hi, Option.some.injEq] at hstep
  subst hstep
  split_ifs with hmore
  · refine h.move (by simp [hi]) (by simp) (by simp [Knows]) ?_ ?_ (by omega)
    · simp only [hi, Pc.posts, Pc.gives, Bool.toNat_false, Bool.toNat_true]
      omega
    · simp only [hi, Pc.waits, Pc.gives, Bool.toNat_false, Bool.toNat_true]
      omega
  · refine h.move (by simp [hi]) (by simp) (by simp [Knows]) ?_ ?_ (by omega)
    · simp only [hi, Pc.posts, Pc.gives, Bool.toNat_false, Bool.toNat_true]
      omega
    · simp only [hi, Pc.waits, Pc.gives, Bool.toNat_false]
      omega

/-- A call begins; a unit that is posted is no longer out. -/
lemma Inv.call (h : Inv C s) {l : Bool × Call} (hi : s.pc i = .idle)
    (hstep : step s (i, l) = some s') : Inv C s' := by
  obtain ⟨spurious, call⟩ := l
  cases call with
  | wait | trywait =>
      simp only [step, hi, Option.some.injEq] at hstep
      subst hstep
      exact h.stay hi (by simp) (by simp) (by simp [Knows]) ⟨rfl, rfl, rfl⟩
  | post =>
      simp only [step, hi] at hstep
      split_ifs at hstep with hout
      obtain rfl := Option.some.inj hstep
      refine h.move (by simp [hi]) (by simp) (by simp [Knows]) ?_
        (by simp [hi, Pc.gives, Pc.waits]) h.low
      simp only [hi, Pc.posts, Pc.gives, Bool.toNat_true, Bool.toNat_false]
      omega

/-- **Every step keeps the invariant.** -/
lemma step_inv (hC : (C : ℤ) ≤ intMax) (h : Inv C s) (hstep : step s l = some s') :
    Inv C s' := by
  obtain ⟨i, l⟩ := l
  -- one case for each place at which the thread is
  cases hi : s.pc i with
  | idle => exact h.call hi hstep
  | reading =>
      simp only [step, hi, Option.some.injEq] at hstep
      subst hstep
      split_ifs with hmin
      · exact h.stay hi (by simp) (by simp) (by simp [Knows]) ⟨rfl, rfl, rfl⟩
      · refine h.stay hi (by simp) (by simp) ?_ ⟨rfl, rfl, rfl⟩
        simpa [Knows] using lt_of_le_of_ne h.low (Ne.symm hmin)
  | swapping oldval => exact h.decrement hi hstep
  | receiving => exact h.recv hi hstep
  | tryReading =>
      simp only [step, hi, Option.some.injEq] at hstep
      subst hstep
      split_ifs with hpos
      · exact h.stay hi (by simp) (by simp) (by simpa [Knows] using hpos) ⟨rfl, rfl, rfl⟩
      · exact h.stay hi (by simp) (by simp) (by simp [Knows]) ⟨rfl, rfl, rfl⟩
  | trySwapping val => exact h.take hi hstep
  | asserting =>
      -- the thread has a unit that is out, so the value is below the bound
      have hlt := h.value_lt hC (i := i) (by rw [hi]; rfl)
      simp only [step, hi, if_pos hlt, Option.some.injEq] at hstep
      subst hstep
      exact h.stay hi (by simp) (by simp) (by simp [Knows]) ⟨rfl, rfl, rfl⟩
  | adding => exact h.increment hi hstep
  | sending => exact h.send hi hstep
  | recvBlocked | sendBlocked | aborted => simp [step, hi] at hstep

/-! ### Runs -/

omit [Fintype ι] in
/-- A thread at a place where it can take a step. -/
lemma step_isSome (hi : (s.pc i).posts = true ∨ s.pc i = .sending ∨ s.pc i = .receiving)
    (spurious : Bool) (call : Call) : (step s (i, spurious, call)).isSome := by
  cases hpc : s.pc i with
  | receiving =>
      cases hsenders : s.senders <;> simp [step, hpc, hsenders]
  | sending =>
      cases hreceivers : s.receivers <;> simp [step, hpc, hreceivers]
  | asserting | adding => simp [step, hpc]
  | _ => simp [hpc, Pc.posts] at hi

omit [DecidableEq ι] in
/-- A receiver that is blocked: a unit is out, or on its way to the semaphore. -/
lemma Inv.not_forgotten (h : Inv C s) (hC : 0 < C) (hi : s.pc i = .recvBlocked) :
    0 < s.out ∨ ∃ j, (s.pc j).posts = true ∨ s.pc j = .sending := by
  have hunits := h.units
  have howed := h.owed
  have hmem := (h.mem_receivers i).mpr hi
  have hsenders : s.senders = [] :=
    h.one_side.resolve_right (List.ne_nil_of_mem hmem)
  have hwaits : 0 < count Pc.waits s.pc := count_pos (by rw [hi]; rfl)
  by_cases hgives : count Pc.gives s.pc = 0
  · by_cases hposts : count Pc.posts s.pc = 0
    · exact .inl (by omega)
    · obtain ⟨j, hj⟩ := exists_of_count_ne_zero hposts
      exact .inr ⟨j, .inl hj⟩
  · obtain ⟨j, hj⟩ := exists_of_count_ne_zero hgives
    refine .inr ⟨j, .inr ?_⟩
    have hnot : s.pc j ≠ .sendBlocked := by
      rw [Ne, ← h.mem_senders, hsenders]
      exact List.not_mem_nil
    cases hpc : s.pc j <;> simp_all [Pc.gives]

omit [DecidableEq ι] in
/-- A sender that is blocked: a thread is about to receive. -/
lemma Inv.received (h : Inv C s) (hi : s.pc i = .sendBlocked) : ∃ j, s.pc j = .receiving := by
  have howed := h.owed
  have hmem := (h.mem_senders i).mpr hi
  have hreceivers : s.receivers = [] :=
    h.one_side.resolve_left (List.ne_nil_of_mem hmem)
  have hgives : 0 < count Pc.gives s.pc := count_pos (by rw [hi]; rfl)
  have hwaits : count Pc.waits s.pc ≠ 0 := by omega
  obtain ⟨j, hj⟩ := exists_of_count_ne_zero hwaits
  refine ⟨j, ?_⟩
  have hnot : s.pc j ≠ .recvBlocked := by
    rw [Ne, ← h.mem_receivers, hreceivers]
    exact List.not_mem_nil
  cases hpc : s.pc j <;> simp_all [Pc.waits]

/-- **Counting semaphores.** In every state that any number of threads reach, in any order of their
steps, no unit is lost or made: it is in the value, out, or with a thread that posts it. No
assertion has failed, and the value is an `int`. Where a thread is blocked in `seL4_Recv`, a unit
is out or another thread is in `sync_sem_bare_post` and can take a step; where one is blocked in
`seL4_Signal`, another one is about to receive. -/
theorem semaphore_runs (value out : ℕ) (hC : ((value + out : ℕ) : ℤ) ≤ intMax)
    (ls : List (ι × Bool × Call)) (s : State ι) (hrun : Runs (OfFun step) (init value out) ls s) :
    s.value.toNat + s.out + count Pc.posts s.pc + count Pc.gives s.pc = value + out ∧
      (∀ i, s.pc i ≠ .aborted) ∧ intMin ≤ s.value ∧ s.value ≤ intMax ∧
      (∀ i, s.pc i = .recvBlocked → 0 < value + out → 0 < s.out ∨
        ∃ j, ((s.pc j).posts = true ∨ s.pc j = .sending) ∧
          ∀ spurious call, (step s (j, spurious, call)).isSome) ∧
      ∀ i, s.pc i = .sendBlocked → ∃ j, s.pc j = .receiving ∧
        ∀ spurious call, (step s (j, spurious, call)).isSome := by
  have h : Inv (value + out) s := hrun.invariant (Inv (value + out))
    (fun _ _ _ h hstep => step_inv hC h hstep) (inv_init value out)
  have hunits := h.units
  refine ⟨hunits, fun i => (h.knows i).2.2, h.low, by omega, fun i hi hpos => ?_, fun i hi => ?_⟩
  · rcases h.not_forgotten hpos hi with hout | ⟨j, hj⟩
    · exact .inl hout
    · exact .inr ⟨j, hj, fun spurious call => step_isSome (by tauto) spurious call⟩
  · obtain ⟨j, hj⟩ := h.received hi
    exact ⟨j, hj, fun spurious call => step_isSome (.inr (.inr hj)) spurious call⟩

/-- One unit is out, and a thread waits for it. -/
theorem semaphore_runs_two : ∃ s : State (Fin 2), s.value = -1 ∧ s.pc 1 = .recvBlocked ∧
    (0 < s.out ∨ ∃ j, ((s.pc j).posts = true ∨ s.pc j = .sending) ∧
      ∀ spurious call, (step s (j, spurious, call)).isSome) := by
  obtain ⟨s, hrun, hvalue, hblocked⟩ : ∃ s : State (Fin 2), Runs (OfFun step) (init 1 0)
      [(0, false, .wait), (0, false, .wait), (0, false, .wait), (1, false, .wait),
        (1, false, .wait), (1, true, .wait), (1, false, .wait), (1, false, .wait),
        (1, false, .wait)] s ∧
      s.value = -1 ∧ s.pc 1 = .recvBlocked := ⟨_, runs_of_eval rfl, rfl, rfl⟩
  exact ⟨s, hvalue, hblocked,
    (semaphore_runs 1 0 (by decide) _ s hrun).2.2.2.2.1 1 hblocked (by decide)⟩

end Semaphore

end Sync
