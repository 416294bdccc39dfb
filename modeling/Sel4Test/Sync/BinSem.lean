import Sel4Test.Lib.Exec
import Sel4Test.Lib.Threads
import Sel4Test.Sync.Notification

/-!
Binary semaphores, `libsel4sync/include/sync/bin_sem_bare.h`, with the atomic operations of
`platsupport/sync/atomic.h`.

Any number of threads use one semaphore. A step is one access to the shared word or one system
call of one thread, and the threads take steps in any order. The client posts only what it
holds. The word is an unbounded integer here; `Inv.low` and `Inv.value_eq` say that it stays in
the range of an `int`.

* `Inv`: there is one token, which is held, on its way to a waiter, or in the semaphore.
* `step_inv`: every step keeps it.
* `binSem_runs`: mutual exclusion, the assertions hold, and no wake-up is lost.
-/

namespace Sync

open Threads Exec
open Function (update update_of_ne update_comm forall_update_iff)

variable {ι : Type}

/-- `INT_MIN`. -/
def intMin : ℤ := -2 ^ 31

namespace BinSem

/-! ### The code -/

/-- Where a thread is. -/
inductive Pc
  /-- Not in a call, and not the holder. -/
  | idle
  /-- In the loop of `sync_atomic_decrement_safe`, before `*oldval = *x`. -/
  | reading
  /-- Before the compare-and-exchange. -/
  | swapping (oldval : ℤ)
  /-- Before `seL4_Wait`. -/
  | waiting
  /-- In the kernel. -/
  | blocked
  /-- `sync_bin_sem_bare_wait` has returned 0. -/
  | holding
  /-- In `sync_bin_sem_bare_post`, before the increment. -/
  | posting
  /-- Before the assertion. -/
  | checking (val : ℤ)
  /-- Before `seL4_Signal`. -/
  | signalling
  /-- An assertion has failed. -/
  | aborted
  deriving DecidableEq

/-- The semaphore and its threads. -/
structure State (ι : Type) where
  value : ℤ
  notification : Notification ι
  pc : ι → Pc

/-- `sync_bin_sem_init`: the semaphore is free, or one thread holds it from the start. -/
def init [DecidableEq ι] (holder : Option ι) : State ι where
  value := if holder = none then 1 else 0
  notification := ⟨false, []⟩
  pc i := if holder = some i then .holding else .idle

variable [DecidableEq ι]

/-- A thread that is woken up has the semaphore. -/
def wake (pc : ι → Pc) : Option ι → ι → Pc
  | none => pc
  | some t => update pc t .holding

/-- A step of a thread; the weak compare-and-exchange may fail for no reason. -/
def step (s : State ι) (l : ι × Bool) : Option (State ι) :=
  let i := l.1
  let goto x : State ι := { s with pc := update s.pc i x }
  match s.pc i with
  | .idle => some (goto .reading)
  | .reading => some (goto (if s.value = intMin then .idle else .swapping s.value))
  | .swapping oldval =>
      if s.value = oldval ∧ l.2 = false then
        some { goto (if oldval ≤ 0 then .waiting else .holding) with value := oldval - 1 }
      else some (goto .reading)
  | .waiting =>
      let r := s.notification.wait i
      some { goto (if r.1 then .holding else .blocked) with notification := r.2 }
  | .blocked => none
  | .holding => some (goto .posting)
  | .posting => some { goto (.checking (s.value + 1)) with value := s.value + 1 }
  | .checking val =>
      if s.value ≤ 1 then some (goto (if val ≤ 0 then .signalling else .idle))
      else some (goto .aborted)
  | .signalling =>
      let r := s.notification.signal
      some { s with notification := r.2, pc := update (wake s.pc r.1) i .idle }
  | .aborted => none

/-! ### The invariant -/

/-- The thread has the token: it may be in the critical section. -/
def Pc.holds : Pc → Bool
  | .holding | .posting => true
  | _ => false

/-- The thread is about to wake up a waiter. -/
def Pc.signals : Pc → Bool
  | .checking val => val ≤ 0
  | .signalling => true
  | _ => false

/-- The thread has decremented the value, and has not got the token yet. -/
def Pc.waits : Pc → Bool
  | .waiting | .blocked => true
  | _ => false

variable [Fintype ι] {s s' : State ι} {i j : ι} {l : ι × Bool} {spurious : Bool}

/-- What holds of the token and of the queue. -/
structure Core (s : State ι) : Prop where
  token : count Pc.holds s.pc + count Pc.signals s.pc + s.notification.active.toNat +
    (if 0 < s.value then 1 else 0) = 1
  value_eq : s.value = 1 - count Pc.holds s.pc - count Pc.waits s.pc
  mem_queue : ∀ i, i ∈ s.notification.queue ↔ s.pc i = .blocked
  nodup : s.notification.queue.Nodup
  low : intMin ≤ s.value
  swap : ∀ i v, s.pc i = .swapping v → intMin < v
  alive : ∀ i, s.pc i ≠ .aborted

/-- **The invariant.** -/
structure Inv (s : State ι) : Prop extends Core s where
  queue_nil : s.notification.active = true → s.notification.queue = []

lemma inv_init (holder : Option ι) : Inv (init holder) := by
  have hcount : count Pc.holds (init holder).pc = (if holder = none then 0 else 1) ∧
      count Pc.signals (init holder).pc = 0 ∧ count Pc.waits (init holder).pc = 0 := by
    refine ⟨?_, count_eq_zero.mpr fun i => ?_, count_eq_zero.mpr fun i => ?_⟩
    · cases holder with
      | none => exact count_eq_zero.mpr fun i => rfl
      | some j =>
          have hupdate : (init (some j)).pc = update (fun _ => Pc.idle) j .holding := by
            funext i
            simp [init, Function.update_apply, eq_comm]
          have hmove := count_update Pc.holds (fun _ : ι => Pc.idle) j .holding
          rw [count_const_false rfl] at hmove
          rw [hupdate]
          simpa [Pc.holds] using hmove
    · simp only [init]
      split_ifs <;> rfl
    · simp only [init]
      split_ifs <;> rfl
  obtain ⟨hholds, hsignals, hwaits⟩ := hcount
  refine ⟨⟨?_, ?_, fun i => ?_, List.nodup_nil, ?_, fun i v => ?_, fun i => ?_⟩, by simp [init]⟩
  · rw [hholds, hsignals]
    cases holder <;> simp [init]
  · rw [hholds, hwaits]
    cases holder <;> simp [init]
  · simp only [init, List.not_mem_nil, false_iff]
    split_ifs <;> simp
  · simp only [init, intMin]
    split_ifs <;> norm_num
  · simp only [init]
    split_ifs <;> simp
  · simp only [init]
    split_ifs <;> simp

/-- **A thread goes to another place.** -/
lemma Core.goto (h : Core s) {x : Pc} {v : ℤ} {n : Notification ι} (hrun : x ≠ .aborted)
    (htoken : x.holds.toNat + x.signals.toNat + n.active.toNat + (if 0 < v then 1 else 0) =
      (s.pc i).holds.toNat + (s.pc i).signals.toNat + s.notification.active.toNat +
        (if 0 < s.value then 1 else 0))
    (hvalue : v + x.holds.toNat + x.waits.toNat =
      s.value + (s.pc i).holds.toNat + (s.pc i).waits.toNat)
    (hqueue : ∀ j, j ∈ n.queue ↔ update s.pc i x j = .blocked) (hnodup : n.queue.Nodup)
    (hlow : intMin ≤ v) (hswap : ∀ w, x = .swapping w → intMin < w) :
    Core ⟨v, n, update s.pc i x⟩ := by
  have hholds := count_update Pc.holds s.pc i x
  have hsignals := count_update Pc.signals s.pc i x
  have hwaits := count_update Pc.waits s.pc i x
  refine ⟨?_, ?_, hqueue, hnodup, hlow, ?_, ?_⟩
  · have htoken₀ := h.token
    dsimp only
    omega
  · have hvalue₀ := h.value_eq
    dsimp only
    omega
  · exact (forall_update_iff s.pc fun _ y => ∀ w, y = .swapping w → intMin < w).mpr
      ⟨hswap, fun j _ => h.swap j⟩
  · exact (forall_update_iff s.pc fun _ y => y ≠ .aborted).mpr ⟨hrun, fun j _ => h.alive j⟩

/-- The queue stays, where the thread does not come out of it or go into it. -/
lemma Core.queue_same (h : Core s) {x : Pc} (hi : s.pc i ≠ .blocked) (hx : x ≠ .blocked) :
    ∀ j, j ∈ s.notification.queue ↔ update s.pc i x j = .blocked := by
  refine (forall_update_iff s.pc fun j y => j ∈ s.notification.queue ↔ y = .blocked).mpr
    ⟨?_, fun j _ => h.mem_queue j⟩
  rw [h.mem_queue]
  exact iff_of_false hi hx

/-- A step that leaves the notification alone. -/
lemma Inv.move (h : Inv s) {x : Pc} {v : ℤ} (hi : s.pc i ≠ .blocked) (hx : x ≠ .blocked)
    (hrun : x ≠ .aborted)
    (htoken : x.holds.toNat + x.signals.toNat + (if 0 < v then 1 else 0) =
      (s.pc i).holds.toNat + (s.pc i).signals.toNat + (if 0 < s.value then 1 else 0))
    (hvalue : v + x.holds.toNat + x.waits.toNat =
      s.value + (s.pc i).holds.toNat + (s.pc i).waits.toNat)
    (hlow : intMin ≤ v) (hswap : ∀ w, x = .swapping w → intMin < w) :
    Inv { s with value := v, pc := update s.pc i x } :=
  ⟨h.toCore.goto hrun (by omega) hvalue (h.queue_same hi hx) h.nodup hlow hswap, h.queue_nil⟩

/-- `seL4_Wait`: the thread takes the token from the notification, or waits for it. -/
lemma Inv.wait (h : Inv s) (hi : s.pc i = .waiting) :
    Inv { s with
      notification := (s.notification.wait i).2
      pc := update s.pc i (if (s.notification.wait i).1 then .holding else .blocked) } := by
  cases hactive : s.notification.active with
  | true =>
      rw [Notification.wait_active hactive]
      refine ⟨h.toCore.goto (by simp) ?_ ?_ (h.queue_same (by simp [hi]) (by simp)) h.nodup h.low
        (by simp), fun hfalse => by simp at hfalse⟩
      · simp [hi, hactive, Pc.holds, Pc.signals]
      · simp [hi, Pc.holds, Pc.waits]
  | false =>
      have hnotin : i ∉ s.notification.queue := by
        rw [h.mem_queue, hi]
        decide
      rw [Notification.wait_idle hactive]
      refine ⟨h.toCore.goto (by simp) ?_ ?_ ?_ ?_ h.low (by simp), fun hfalse => by simp at hfalse⟩
      · simp [hi, hactive, Pc.holds, Pc.signals]
      · simp [hi, Pc.holds, Pc.waits]
      · refine (forall_update_iff s.pc fun j y =>
          j ∈ s.notification.queue ++ [i] ↔ y = .blocked).mpr ⟨by simp, fun j hj => ?_⟩
        rw [← h.mem_queue]
        simp [hj]
      · exact List.nodup_append.mpr ⟨h.nodup, List.nodup_singleton i, by
          rintro a ha b hb rfl
          exact hnotin (List.mem_singleton.mp hb ▸ ha)⟩

/-- `seL4_Signal`: the token goes to the first waiter, or to the notification. -/
lemma Inv.signal (h : Inv s) (hi : s.pc i = .signalling) :
    Inv { s with
      notification := s.notification.signal.2
      pc := update (wake s.pc s.notification.signal.1) i .idle } := by
  have hactive : s.notification.active = false := by
    have htoken := h.token
    have hpos : 0 < count Pc.signals s.pc := count_pos (by rw [hi]; rfl)
    cases hactive : s.notification.active with
    | false => rfl
    | true =>
        rw [hactive, Bool.toNat_true] at htoken
        omega
  -- the token first goes to the notification
  have hgive : Core ⟨s.value, ⟨true, s.notification.queue⟩, update s.pc i .idle⟩ := by
    refine h.toCore.goto (by simp) ?_ ?_ (h.queue_same (by simp [hi]) (by simp)) h.nodup h.low
      (by simp)
    · simp [hi, hactive, Pc.holds, Pc.signals]
    · simp [hi, Pc.holds, Pc.waits]
  cases hqueue : s.notification.queue with
  | nil =>
      rw [hqueue] at hgive
      rw [Notification.signal_nil hqueue]
      exact ⟨hgive, fun _ => rfl⟩
  | cons t q =>
      have ht : s.pc t = .blocked := (h.mem_queue t).mp (by simp [hqueue])
      have hne : t ≠ i := by
        rintro rfl
        rw [ht] at hi
        cases hi
      have hnodup := h.nodup
      rw [hqueue] at hgive hnodup
      obtain ⟨htq, hq⟩ := List.nodup_cons.mp hnodup
      rw [Notification.signal_cons hactive hqueue]
      refine ⟨?_, fun hfalse => by simp at hfalse⟩
      simp only [wake]
      rw [update_comm hne]
      refine hgive.goto (by simp) ?_ ?_ ?_ hq h.low (by simp)
      · simp [update_of_ne hne, ht, Pc.holds, Pc.signals]
      · simp [update_of_ne hne, ht, Pc.holds, Pc.waits]
      · refine (forall_update_iff (update s.pc i .idle) fun j y => j ∈ q ↔ y = .blocked).mpr
          ⟨iff_of_false htq (by simp), fun j hj => ?_⟩
        rw [← hgive.mem_queue]
        simp [hj]

/-- A thread goes on with what it has, and leaves the semaphore alone. -/
lemma Inv.stay (h : Inv s) {x y : Pc} (hi : s.pc i = y) (hy : y ≠ .blocked)
    (hx : x ≠ .blocked ∧ x ≠ .aborted)
    (hsame : x.holds = y.holds ∧ x.signals = y.signals ∧ x.waits = y.waits)
    (hswap : ∀ w, x = .swapping w → intMin < w) : Inv { s with pc := update s.pc i x } := by
  obtain ⟨hholds, hsignals, hwaits⟩ := hsame
  subst hi
  exact h.move hy hx.1 hx.2 (by rw [hholds, hsignals]) (by rw [hholds, hwaits]) h.low hswap

/-- `sync_atomic_decrement_safe`: the thread takes the token, is to wait for it, or tries again. -/
lemma Inv.decrement (h : Inv s) {oldval : ℤ} (hi : s.pc i = .swapping oldval)
    (hstep : step s (i, spurious) = some s') : Inv s' := by
  have hmin := h.swap i oldval hi
  simp only [step, hi] at hstep
  by_cases hswap : s.value = oldval ∧ spurious = false
  · rw [if_pos hswap] at hstep
    obtain rfl := Option.some.inj hstep
    obtain ⟨rfl, -⟩ := hswap
    have hlow : intMin ≤ s.value - 1 := by omega
    by_cases hfree : s.value ≤ 0
    · rw [if_pos hfree]
      refine h.move (by simp [hi]) (by simp) (by simp) ?_ (by simp [hi, Pc.holds, Pc.waits])
        hlow (by simp)
      simp only [hi, Pc.holds, Pc.signals]
      rw [if_neg (by omega), if_neg (by omega)]
    · -- the value is at most 1, so the thread takes it to 0
      have hone : s.value = 1 := by
        have hvalue := h.value_eq
        omega
      rw [if_neg hfree]
      exact h.move (by simp [hi]) (by simp) (by simp) (by simp [hi, Pc.holds, Pc.signals, hone])
        (by simp [hi, Pc.holds, Pc.waits]) hlow (by simp)
  · rw [if_neg hswap] at hstep
    obtain rfl := Option.some.inj hstep
    exact h.stay hi (by simp) (by simp) ⟨rfl, rfl, rfl⟩ (by simp)

/-- `sync_atomic_increment`: the token goes back to the value, or to the thread's next step. -/
lemma Inv.increment (h : Inv s) (hi : s.pc i = .posting)
    (hstep : step s (i, spurious) = some s') : Inv s' := by
  have hlow := h.low
  simp only [step, hi, Option.some.injEq] at hstep
  subst hstep
  -- the thread that posts holds the token, so the semaphore is not free
  have htaken : ¬ 0 < s.value := by
    intro hfree
    have htoken := h.token
    have hpos : 0 < count Pc.holds s.pc := count_pos (by rw [hi]; rfl)
    rw [if_pos hfree] at htoken
    omega
  refine h.move (by simp [hi]) (by simp) (by simp) ?_ (by simp [hi, Pc.holds, Pc.waits])
    (by omega) (by simp)
  simp only [hi, Pc.holds, Pc.signals, if_neg htaken]
  by_cases hmore : s.value + 1 ≤ 0
  · have hnot : ¬ 0 < s.value + 1 := not_lt.mpr hmore
    simp [hmore, hnot]
  · simp [hmore, not_le.mp hmore]

/-- The assertion of `sync_bin_sem_bare_post` holds, and the thread signals if the old value was
negative. -/
lemma Inv.check (h : Inv s) {val : ℤ} (hi : s.pc i = .checking val)
    (hstep : step s (i, spurious) = some s') : Inv s' := by
  have hle : s.value ≤ 1 := by
    have hvalue := h.value_eq
    omega
  simp only [step, hi, if_pos hle, Option.some.injEq] at hstep
  subst hstep
  by_cases hval : val ≤ 0
  · rw [if_pos hval]
    exact h.stay hi (by simp) (by simp) ⟨rfl, by simp [Pc.signals, hval], rfl⟩ (by simp)
  · rw [if_neg hval]
    exact h.stay hi (by simp) (by simp) ⟨rfl, by simp [Pc.signals, hval], rfl⟩ (by simp)

/-- **Every step keeps the invariant.** -/
lemma step_inv (h : Inv s) (hstep : step s l = some s') : Inv s' := by
  obtain ⟨i, spurious⟩ := l
  -- one case for each place at which the thread is
  cases hi : s.pc i with
  | idle | holding =>
      simp only [step, hi, Option.some.injEq] at hstep
      subst hstep
      exact h.stay hi (by simp) (by simp) ⟨rfl, rfl, rfl⟩ (by simp)
  | reading =>
      simp only [step, hi, Option.some.injEq] at hstep
      subst hstep
      split_ifs with hmin
      · exact h.stay hi (by simp) (by simp) ⟨rfl, rfl, rfl⟩ (by simp)
      · refine h.stay hi (by simp) (by simp) ⟨rfl, rfl, rfl⟩ ?_
        rintro w hw
        obtain rfl := Pc.swapping.inj hw
        exact lt_of_le_of_ne h.low (Ne.symm hmin)
  | swapping oldval => exact h.decrement hi hstep
  | waiting =>
      simp only [step, hi, Option.some.injEq] at hstep
      subst hstep
      exact h.wait hi
  | blocked => simp [step, hi] at hstep
  | posting => exact h.increment hi hstep
  | checking val => exact h.check hi hstep
  | signalling =>
      simp only [step, hi, Option.some.injEq] at hstep
      subst hstep
      exact h.signal hi
  | aborted => exact absurd hi (h.alive i)

/-! ### Runs -/

/-- A thread is inside `sync_bin_sem_bare_post`. -/
def Pc.posts : Pc → Bool
  | .posting | .checking _ | .signalling => true
  | _ => false

/-- A step that wakes up no other thread takes the thread to one place; `seL4_Signal` may hand the
semaphore to a thread that is blocked. -/
lemma step_cases (h : Inv s) (hstep : step s (i, spurious) = some s') :
    (∃ x, s'.pc = update s.pc i x) ∨
      s.pc i = .signalling ∧ ∃ t, t ≠ i ∧ s.pc t = .blocked ∧
        s'.pc = update (update s.pc t .holding) i .idle := by
  cases hi : s.pc i with
  | signalling =>
      simp only [step, hi, Option.some.injEq] at hstep
      subst hstep
      cases hqueue : s.notification.queue with
      | nil =>
          rw [Notification.signal_nil hqueue]
          exact .inl ⟨_, rfl⟩
      | cons t q =>
          have ht : s.pc t = .blocked := (h.mem_queue t).mp (by simp [hqueue])
          have hactive : s.notification.active = false := by
            by_contra hactive
            rw [Bool.not_eq_false] at hactive
            have hnil := h.queue_nil hactive
            rw [hqueue] at hnil
            cases hnil
          rw [Notification.signal_cons hactive hqueue]
          refine .inr ⟨rfl, t, ?_, ht, rfl⟩
          rintro rfl
          rw [ht] at hi
          cases hi
  | swapping oldval =>
      simp only [step, hi] at hstep
      split_ifs at hstep <;> obtain rfl := Option.some.inj hstep <;> exact .inl ⟨_, rfl⟩
  | checking val =>
      simp only [step, hi] at hstep
      split_ifs at hstep <;> obtain rfl := Option.some.inj hstep <;> exact .inl ⟨_, rfl⟩
  | blocked | aborted => simp [step, hi] at hstep
  | _ =>
      simp only [step, hi, Option.some.injEq] at hstep
      subst hstep
      exact .inl ⟨_, rfl⟩

/-- What a step does to another thread. -/
lemma step_other (h : Inv s) (hstep : step s (i, spurious) = some s') (hj : j ≠ i) :
    s'.pc j = s.pc j ∨ s.pc j = .blocked ∧ s'.pc j = .holding := by
  rcases step_cases h hstep with ⟨x, hpc⟩ | ⟨-, t, -, ht, hpc⟩
  · rw [hpc, update_of_ne hj]
    exact .inl rfl
  · rw [hpc, update_of_ne hj]
    by_cases hjt : j = t
    · subst hjt
      exact .inr ⟨ht, Function.update_self ..⟩
    · exact .inl (update_of_ne hjt ..)

/-- A step inside `sync_bin_sem_bare_post`. -/
lemma step_post (h : Inv s) (hstep : step s (i, spurious) = some s')
    (hi : s.pc i = .holding ∨ (s.pc i).posts = true) :
    s'.pc i = .idle ∨ (s'.pc i).posts = true := by
  have hvalue := h.value_eq
  cases hpc : s.pc i with
  | checking val =>
      have hle : s.value ≤ 1 := by omega
      simp only [step, hpc, if_pos hle, Option.some.injEq] at hstep
      subst hstep
      by_cases hval : val ≤ 0
      · simp [hval, Pc.posts]
      · simp [hval]
  | holding | posting | signalling =>
      simp only [step, hpc, Option.some.injEq] at hstep
      subst hstep
      simp [Pc.posts]
  | _ => simp [hpc, Pc.posts] at hi

omit [Fintype ι] in
/-- A step inside `sync_bin_sem_bare_wait`, where the value is not too small. -/
lemma step_wait (hstep : step s (i, spurious) = some s') (hvalue : s.value ≠ intMin)
    (hi : s.pc i ≠ .holding) (hpost : (s.pc i).posts = false) :
    s'.pc i ≠ .idle ∧ (s'.pc i).posts = false := by
  cases hpc : s.pc i with
  | idle | reading =>
      simp only [step, hpc, Option.some.injEq] at hstep
      subst hstep
      simp [hvalue, Pc.posts]
  | swapping oldval =>
      simp only [step, hpc] at hstep
      split_ifs at hstep <;> obtain rfl := Option.some.inj hstep <;> simp [Pc.posts]
  | waiting =>
      simp only [step, hpc, Option.some.injEq] at hstep
      subst hstep
      cases hactive : s.notification.active <;>
        simp [Notification.wait, hactive, Pc.posts]
  | holding => exact absurd hpc hi
  | blocked | aborted => simp [step, hpc] at hstep
  | _ => simp [hpc, Pc.posts] at hpost

/-- A thread at a place where it can take a step. -/
lemma step_isSome (h : Inv s) (hi : s.pc i ≠ .blocked) (spurious : Bool) :
    (step s (i, spurious)).isSome := by
  cases hpc : s.pc i with
  | blocked => exact absurd hpc hi
  | aborted => exact absurd hpc (h.alive i)
  | swapping oldval =>
      simp only [step, hpc]
      split_ifs <;> rfl
  | checking val =>
      simp only [step, hpc]
      split_ifs <;> rfl
  | _ => simp [step, hpc]

omit [DecidableEq ι] in
/-- What is blocked waits for a token that is held or on its way. -/
lemma Inv.not_forgotten (h : Inv s) (hi : s.pc i = .blocked) :
    ∃ j, (s.pc j).holds = true ∨ (s.pc j).posts = true := by
  have htoken := h.token
  have hwaits : 0 < count Pc.waits s.pc := count_pos (by rw [hi]; rfl)
  have hvalue := h.value_eq
  have hactive : s.notification.active = false := by
    by_contra hactive
    rw [Bool.not_eq_false] at hactive
    have hmem := (h.mem_queue i).mpr hi
    rw [h.queue_nil hactive] at hmem
    exact List.not_mem_nil hmem
  rw [hactive, if_neg (by omega)] at htoken
  by_cases hheld : count Pc.holds s.pc = 0
  · have hsignals : count Pc.signals s.pc ≠ 0 := by
      rw [hheld] at htoken
      simp at htoken
      omega
    obtain ⟨j, hj⟩ := exists_of_count_ne_zero hsignals
    refine ⟨j, .inr ?_⟩
    cases hpc : s.pc j <;> simp_all [Pc.signals, Pc.posts]
  · obtain ⟨j, hj⟩ := exists_of_count_ne_zero hheld
    exact ⟨j, .inl hj⟩

/-- **Binary semaphores.** In every state that any number of threads reach, in any order of their
steps, at most one thread holds the semaphore, no assertion has failed, and the value is an `int`
that is at most 1. Where a thread is blocked, another one holds the semaphore or is in
`sync_bin_sem_bare_post`, and can take a step. -/
theorem binSem_runs (holder : Option ι) (ls : List (ι × Bool)) (s : State ι)
    (hrun : Runs (OfFun step) (init holder) ls s) :
    (∀ i j, (s.pc i).holds = true → (s.pc j).holds = true → i = j) ∧
      (∀ i, s.pc i ≠ .aborted) ∧ intMin ≤ s.value ∧ s.value ≤ 1 ∧
      ∀ i, s.pc i = .blocked → ∃ j, ((s.pc j).holds = true ∨ (s.pc j).posts = true) ∧
        ∀ spurious, (step s (j, spurious)).isSome := by
  have h : Inv s := hrun.invariant Inv (fun _ _ _ h hstep => step_inv h hstep) (inv_init holder)
  have hone : count Pc.holds s.pc ≤ 1 := by
    have htoken := h.token
    omega
  have hvalue := h.value_eq
  refine ⟨fun i j hi hj => eq_of_count_le_one hone hi hj, h.alive, h.low, by omega, fun i hi => ?_⟩
  obtain ⟨j, hj⟩ := h.not_forgotten hi
  refine ⟨j, hj, fun spurious => step_isSome h (fun hblocked => ?_) spurious⟩
  rw [hblocked] at hj
  simp [Pc.holds, Pc.posts] at hj

/-- One thread holds the semaphore, and another one is blocked. -/
theorem binSem_runs_two : ∃ s : State (Fin 2), s.value = -1 ∧ s.pc 1 = .blocked ∧
    ∃ j, ((s.pc j).holds = true ∨ (s.pc j).posts = true) ∧
      ∀ spurious, (step s (j, spurious)).isSome := by
  obtain ⟨s, hrun, hvalue, hblocked⟩ : ∃ s : State (Fin 2), Runs (OfFun step) (init none)
      [(0, false), (0, false), (0, false), (1, false), (1, true), (1, false), (1, false)] s ∧
      s.value = -1 ∧ s.pc 1 = .blocked := ⟨_, runs_of_eval rfl, rfl, rfl⟩
  exact ⟨s, hvalue, hblocked, (binSem_runs none _ s hrun).2.2.2.2 1 hblocked⟩

end BinSem

end Sync
