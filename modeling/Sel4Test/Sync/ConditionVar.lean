import Sel4Test.Sync.BinSem

/-!
Condition variables, `libsel4sync/include/sync/condition_var.h`.

Any number of threads use one condition variable and its lock, a binary semaphore, whose steps
are those of `BinSem.step`. A step is one access to a field, one step of the lock or one system
call, and the threads take steps in any order; the two accesses of `waiters++` and `waiters--` are
one step, as the thread holds the lock between them. The operations on the condition variable start
only where the thread holds the lock; `free` threads use the lock as they like.

* `Inv`: what each place of a thread says about the lock, who is counted in `waiters`, and that
  a broadcast has a wake-up on its way.
* `step_inv_free` to `step_inv_unlocking`: the steps at the places of each operation; `step_inv`:
  every step keeps it.
* `conditionVar_runs`: the state in every run.
* `broadcast_complete`: a broadcast ends when nobody waits any more, unless a thread waits anew.
-/

namespace Sync

open Threads Exec
open Function (update update_of_ne update_comm forall_update_iff)

variable {ι : Type}

namespace ConditionVar

/-! ### The code -/

/-- Where a thread is. -/
inductive Pc
  /-- Not in an operation on the condition variable. -/
  | free
  /-- In `sync_cv_wait`, before `waiters++`. -/
  | incrementing
  /-- Before `broadcasting = false`. -/
  | resetting
  /-- In `sync_bin_sem_post`. -/
  | releasing
  /-- Before `seL4_Wait`. -/
  | sleeping
  /-- In the kernel. -/
  | asleep
  /-- In `sync_bin_sem_wait`. -/
  | relocking
  /-- Before `waiters--`. -/
  | decrementing
  /-- Before the test of `broadcasting`. -/
  | testing
  /-- Before the test of `waiters`. -/
  | counting
  /-- Before `seL4_Signal`. -/
  | passing
  /-- Before `broadcasting = false`, as the last one. -/
  | stopping
  /-- In `sync_cv_signal`. -/
  | signalTest
  | signalSend
  /-- In `sync_cv_broadcast`. -/
  | broadcastTest
  | broadcastSet
  | broadcastSend
  /-- In `sync_cv_broadcast_release`. -/
  | releaseTest
  | releaseSet
  | releasePost
  | releaseSend
  | releaseOnly
  /-- `sync_bin_sem_wait` has returned an error to `sync_cv_wait`. -/
  | failed
  deriving DecidableEq

/-- What a thread that is not in an operation does next. -/
inductive Call
  | lock
  | wait
  | signal
  | broadcast
  | broadcastRelease
  deriving DecidableEq

/-- The condition variable, its lock and the threads. -/
structure State (ι : Type) where
  lock : BinSem.State ι
  notification : Notification ι
  waiters : ℤ
  broadcasting : Bool
  pc : ι → Pc

variable [DecidableEq ι]

/-- `sync_cv_init`, with a new lock. -/
def init (holder : Option ι) : State ι where
  lock := BinSem.init holder
  notification := ⟨false, []⟩
  waiters := 0
  broadcasting := false
  pc _ := .free

/-- A thread that is woken up goes on to lock again. -/
def wake (pc : ι → Pc) : Option ι → ι → Pc
  | none => pc
  | some t => update pc t .relocking

/-- `seL4_Signal` by a thread that then goes to another place. -/
def State.signal (s : State ι) (i : ι) (x : Pc) : State ι :=
  let r := s.notification.signal
  { s with notification := r.2, pc := update (wake s.pc r.1) i x }

/-- A step of the lock by a thread, whose next place depends on where it then is in the lock. -/
def State.onLock (s : State ι) (i : ι) (spurious : Bool) (next : BinSem.Pc → Pc) :
    Option (State ι) :=
  (BinSem.step s.lock (i, spurious)).map fun lock =>
    { s with lock, pc := update s.pc i (next (lock.pc i)) }

/-- The place where a thread starts an operation. -/
def Call.start : Call → Pc
  | .lock => .free
  | .wait => .incrementing
  | .signal => .signalTest
  | .broadcast => .broadcastTest
  | .broadcastRelease => .releaseTest

/-- A step of a thread. -/
def step (s : State ι) (l : ι × Bool × Call) : Option (State ι) :=
  let i := l.1
  let goto x : State ι := { s with pc := update s.pc i x }
  match s.pc i with
  | .free =>
      if l.2.2 = .lock then s.onLock i l.2.1 fun _ => .free
      else if s.lock.pc i = .holding then some (goto l.2.2.start)
      else none
  | .incrementing => some { goto .resetting with waiters := s.waiters + 1 }
  | .resetting => some { goto .releasing with broadcasting := false }
  | .releasing => s.onLock i l.2.1 fun p => if p = .idle then .sleeping else .releasing
  | .sleeping =>
      let r := s.notification.wait i
      some { goto (if r.1 then .relocking else .asleep) with notification := r.2 }
  | .asleep => none
  | .relocking =>
      if s.lock.pc i = .holding then some (goto .decrementing)
      else s.onLock i l.2.1 fun p => if p = .idle then .failed else .relocking
  | .decrementing => some { goto .testing with waiters := s.waiters - 1 }
  | .testing => some (goto (if s.broadcasting then .counting else .free))
  | .counting => some (goto (if 0 < s.waiters then .passing else .stopping))
  | .passing => some (s.signal i .free)
  | .stopping => some { goto .free with broadcasting := false }
  | .signalTest => some (goto (if 0 < s.waiters then .signalSend else .free))
  | .signalSend => some (s.signal i .free)
  | .broadcastTest => some (goto (if 0 < s.waiters then .broadcastSet else .free))
  | .broadcastSet => some { goto .broadcastSend with broadcasting := true }
  | .broadcastSend => some (s.signal i .free)
  | .releaseTest => some (goto (if 0 < s.waiters then .releaseSet else .releaseOnly))
  | .releaseSet => some { goto .releasePost with broadcasting := true }
  | .releasePost => s.onLock i l.2.1 fun p => if p = .idle then .releaseSend else .releasePost
  | .releaseSend => some (s.signal i .free)
  | .releaseOnly => s.onLock i l.2.1 fun p => if p = .idle then .free else .releaseOnly
  | .failed => none

/-! ### The invariant -/

/-- The thread is counted in `waiters`. -/
def Pc.waits : Pc → Bool
  | .resetting | .releasing | .sleeping | .asleep | .relocking | .decrementing => true
  | _ => false

/-- The thread holds the lock at this place, and does not use it. -/
def Pc.locked : Pc → Bool
  | .incrementing | .resetting | .decrementing | .testing | .counting | .passing | .stopping
  | .signalTest | .signalSend | .broadcastTest | .broadcastSet | .broadcastSend
  | .releaseTest | .releaseSet => true
  | _ => false

/-- The thread posts the lock at this place. -/
def Pc.unlocks : Pc → Bool
  | .releasing | .releasePost | .releaseOnly => true
  | _ => false

/-- The thread has been woken up, or is about to wake up another one. -/
def Pc.carries : Pc → Bool
  | .relocking | .decrementing | .testing | .counting | .passing | .stopping
  | .broadcastSend | .releasePost | .releaseSend => true
  | _ => false

/-- The thread has left the wait, and has not yet seen whether it is the last one. -/
def Pc.finishes : Pc → Bool
  | .testing | .counting | .stopping => true
  | _ => false

/-- Where a thread is in the lock. -/
def Fits (x : Pc) (p : BinSem.Pc) : Prop :=
  (x.locked = true → p = .holding) ∧
    (x.unlocks = true → p = .holding ∨ p.posts = true) ∧
    (x = .sleeping ∨ x = .asleep ∨ x = .releaseSend → p = .idle) ∧
    (x = .relocking → p.posts = false)

/-- What a thread with the lock knows about the number of waiters. -/
def Knows (waiters : ℤ) (x : Pc) : Prop :=
  (x = .broadcastSet ∨ x = .releaseSet → 0 < waiters) ∧ (x = .stopping → waiters = 0) ∧ x ≠ .failed

variable [Fintype ι] {s s' : State ι} {i j : ι} {l : ι × Bool × Call}

/-- What holds of the lock, of the threads and of a broadcast. -/
structure Core (s : State ι) : Prop where
  lock : BinSem.Inv s.lock
  fits : ∀ i, Fits (s.pc i) (s.lock.pc i)
  knows : ∀ i, Knows s.waiters (s.pc i)
  waiters_eq : s.waiters = count Pc.waits s.pc
  mem_queue : ∀ i, i ∈ s.notification.queue ↔ s.pc i = .asleep
  nodup : s.notification.queue.Nodup
  chain : s.broadcasting = true → s.notification.active = true ∨ ∃ i, (s.pc i).carries = true
  more : s.broadcasting = true → 0 < s.waiters ∨ ∃ i, (s.pc i).finishes = true

/-- **The invariant.** -/
structure Inv (s : State ι) : Prop extends Core s where
  queue_nil : s.notification.active = true → s.notification.queue = []

lemma inv_init (holder : Option ι) : Inv (init holder) where
  lock := BinSem.inv_init holder
  fits i := by simp [init, Fits, Pc.locked, Pc.unlocks]
  knows i := by simp [init, Knows]
  waiters_eq := by
    have hnone : count Pc.waits (init holder).pc = 0 := count_eq_zero.mpr fun i => rfl
    rw [hnone]
    rfl
  mem_queue i := by simp [init]
  nodup := List.nodup_nil
  chain hb := by simp [init] at hb
  more hb := by simp [init] at hb
  queue_nil _ := rfl

omit [DecidableEq ι] [Fintype ι] in
/-- A thread that the lock is handed to was trying to lock. -/
lemma Fits.woken {x : Pc} (h : Fits x .blocked) : Fits x .holding := by
  obtain ⟨hlocked, hunlocks, hidle, -⟩ := h
  refine ⟨fun _ => rfl, fun _ => .inl rfl, fun hx => ?_, fun _ => rfl⟩
  cases hidle hx

omit [DecidableEq ι] in
/-- Only one thread holds the lock. -/
lemma Core.only (h : Core s) (hi : s.lock.pc i = .holding) (hj : s.lock.pc j = .holding) :
    i = j := by
  have hone : count BinSem.Pc.holds s.lock.pc ≤ 1 := by
    have htoken := h.lock.token
    omega
  exact eq_of_count_le_one hone (by rw [hi]; rfl) (by rw [hj]; rfl)

/-- **A thread goes to another place.** Only a thread with the lock changes the number of
waiters. -/
lemma Core.goto (h : Core s) {x : Pc} {lock : BinSem.State ι} {n : Notification ι} {w : ℤ}
    {b : Bool} (hlock : BinSem.Inv lock)
    (hothers : ∀ j, j ≠ i → lock.pc j = s.lock.pc j ∨
      s.lock.pc j = .blocked ∧ lock.pc j = .holding)
    (hfits : Fits x (lock.pc i)) (hknows : Knows w x)
    (hw : w = s.waiters ∨ s.lock.pc i = .holding)
    (hcount : w + (s.pc i).waits.toNat = s.waiters + x.waits.toNat)
    (hqueue : ∀ j, j ∈ n.queue ↔ update s.pc i x j = .asleep) (hnodup : n.queue.Nodup)
    (hchain : b = true → n.active = true ∨ x.carries = true ∨
      s.broadcasting = true ∧ (s.notification.active = true → n.active = true) ∧
        (s.pc i).carries = false)
    (hmore : b = true → 0 < w ∨ x.finishes = true ∨
      s.broadcasting = true ∧ w = s.waiters ∧ (s.pc i).finishes = false) :
    Core ⟨lock, n, w, b, update s.pc i x⟩ := by
  refine ⟨hlock, ?_, ?_, ?_, hqueue, hnodup, fun hb => ?_, fun hb => ?_⟩
  · refine (forall_update_iff s.pc fun j x => Fits x (lock.pc j)).mpr ⟨hfits, fun j hj => ?_⟩
    rcases hothers j hj with hsame | ⟨hblocked, hholding⟩
    · rw [hsame]
      exact h.fits j
    · rw [hholding]
      have hfits₀ := h.fits j
      rw [hblocked] at hfits₀
      exact hfits₀.woken
  · refine (forall_update_iff s.pc fun _ x => Knows w x).mpr ⟨hknows, fun j hj => ?_⟩
    have hknows₀ := h.knows j
    rcases hw with rfl | hholding
    · exact hknows₀
    -- another thread that knows the count would hold the lock as well
    · have hfree : (s.pc j).locked = false := by
        by_contra hlocked
        rw [Bool.not_eq_false] at hlocked
        exact hj (h.only ((h.fits j).1 hlocked) hholding)
      cases hpc : s.pc j <;> simp_all [Knows, Pc.locked]
  · have hmove := count_update Pc.waits s.pc i x
    have hwaiters := h.waiters_eq
    dsimp only
    omega
  · rcases hchain hb with hactive | hx | ⟨hb₀, hactive, hi⟩
    · exact .inl hactive
    · exact .inr (exists_update_self hx)
    · exact (h.chain hb₀).imp hactive fun hcarries => exists_update_of hcarries hi x
  · rcases hmore hb with hpos | hx | ⟨hb₀, rfl, hi⟩
    · exact .inl hpos
    · exact .inr (exists_update_self hx)
    · exact (h.more hb₀).imp_right fun hfinishes => exists_update_of hfinishes hi x

/-- The queue stays, where the thread does not come out of it or go into it. -/
lemma Core.queue_same (h : Core s) {x : Pc} (hi : s.pc i ≠ .asleep) (hx : x ≠ .asleep) :
    ∀ j, j ∈ s.notification.queue ↔ update s.pc i x j = .asleep := by
  refine (forall_update_iff s.pc fun j x => j ∈ s.notification.queue ↔ x = .asleep).mpr
    ⟨?_, fun j _ => h.mem_queue j⟩
  rw [h.mem_queue]
  exact iff_of_false hi hx

/-- A step that leaves the lock and the notification alone. -/
lemma Inv.move (h : Inv s) {x : Pc} {w : ℤ} {b : Bool} (hi : s.pc i ≠ .asleep)
    (hx : x ≠ .asleep) (hfits : Fits x (s.lock.pc i)) (hknows : Knows w x)
    (hw : w = s.waiters ∨ s.lock.pc i = .holding)
    (hcount : w + (s.pc i).waits.toNat = s.waiters + x.waits.toNat)
    (hchain : b = true → x.carries = true ∨ s.broadcasting = true ∧ (s.pc i).carries = false)
    (hmore : b = true → 0 < w ∨ x.finishes = true ∨
      s.broadcasting = true ∧ w = s.waiters ∧ (s.pc i).finishes = false) :
    Inv ⟨s.lock, s.notification, w, b, update s.pc i x⟩ :=
  ⟨h.toCore.goto h.lock (fun _ _ => .inl rfl) hfits hknows hw hcount (h.queue_same hi hx) h.nodup
    (fun hb => .inr ((hchain hb).imp_right fun hb₀ => ⟨hb₀.1, id, hb₀.2⟩)) hmore, h.queue_nil⟩

/-- A step of the lock. -/
lemma Inv.onLock (h : Inv s) {spurious : Bool} {next : BinSem.Pc → Pc}
    (hstep : s.onLock i spurious next = some s') (hi : s.pc i ≠ .asleep)
    (hnext : ∀ lock, BinSem.step s.lock (i, spurious) = some lock → BinSem.Inv lock →
      Fits (next (lock.pc i)) (lock.pc i) ∧ Knows s.waiters (next (lock.pc i)) ∧
        next (lock.pc i) ≠ .asleep ∧ (next (lock.pc i)).waits = (s.pc i).waits ∧
        ((s.pc i).carries = true → (next (lock.pc i)).carries = true) ∧
        (s.pc i).finishes = false) : Inv s' := by
  obtain ⟨lock, hlock, rfl⟩ := Option.map_eq_some_iff.mp hstep
  have hinv := BinSem.step_inv h.lock hlock
  obtain ⟨hfits, hknows, hx, hwaits, hcarries, hfinishes⟩ := hnext lock hlock hinv
  refine ⟨h.toCore.goto hinv (fun j hj => BinSem.step_other h.lock hlock hj) hfits hknows (.inl rfl)
    (by rw [hwaits]) (h.queue_same hi hx) h.nodup (fun hb => ?_)
    (fun hb => .inr (.inr ⟨hb, rfl, hfinishes⟩)), h.queue_nil⟩
  cases hc : (s.pc i).carries with
  | true => exact .inr (.inl (hcarries hc))
  | false => exact .inr (.inr ⟨hb, id, rfl⟩)

/-- `seL4_Wait`. -/
lemma Inv.wait (h : Inv s) (hi : s.pc i = .sleeping) :
    Inv { s with
      notification := (s.notification.wait i).2
      pc := update s.pc i (if (s.notification.wait i).1 then .relocking else .asleep) } := by
  have hidle : s.lock.pc i = .idle := (h.fits i).2.2.1 (.inl hi)
  cases hactive : s.notification.active with
  | true =>
      rw [Notification.wait_active hactive]
      exact ⟨h.toCore.goto h.lock (fun _ _ => .inl rfl)
        (by simp [Fits, Pc.locked, Pc.unlocks, hidle, BinSem.Pc.posts]) (by simp [Knows])
        (.inl rfl) (by simp [hi, Pc.waits]) (h.queue_same (by simp [hi]) (by simp)) h.nodup
        (fun _ => .inr (.inl rfl)) (fun hb => .inr (.inr ⟨hb, rfl, by simp [hi, Pc.finishes]⟩)),
        fun hfalse => by simp at hfalse⟩
  | false =>
      have hnotin : i ∉ s.notification.queue := by
        rw [h.mem_queue, hi]
        decide
      rw [Notification.wait_idle hactive]
      refine ⟨h.toCore.goto h.lock (fun _ _ => .inl rfl)
        (by simp [Fits, Pc.locked, Pc.unlocks, hidle]) (by simp [Knows]) (.inl rfl)
        (by simp [hi, Pc.waits]) ?_ ?_
        (fun hb => .inr (.inr ⟨hb, by simp [hactive], by simp [hi, Pc.carries]⟩))
        (fun hb => .inr (.inr ⟨hb, rfl, by simp [hi, Pc.finishes]⟩)),
        fun hfalse => by simp at hfalse⟩
      · refine (forall_update_iff s.pc fun j x =>
          j ∈ s.notification.queue ++ [i] ↔ x = .asleep).mpr ⟨by simp, fun j hj => ?_⟩
        rw [← h.mem_queue]
        simp [hj]
      · exact List.nodup_append.mpr ⟨h.nodup, List.nodup_singleton i, by
          rintro a ha b hb rfl
          exact hnotin (List.mem_singleton.mp hb ▸ ha)⟩

/-- `seL4_Signal` by a thread that is not counted as a waiter. -/
lemma Inv.signal (h : Inv s) (hi : s.pc i ≠ .asleep) (hwaits : (s.pc i).waits = false)
    (hfinishes : (s.pc i).finishes = false) : Inv (s.signal i .free) := by
  -- the notification first becomes active
  have hgive : Core ⟨s.lock, ⟨true, s.notification.queue⟩, s.waiters, s.broadcasting,
      update s.pc i .free⟩ :=
    h.toCore.goto h.lock (fun _ _ => .inl rfl) (by simp [Fits, Pc.locked, Pc.unlocks])
      (by simp [Knows]) (.inl rfl) (by rw [hwaits]; rfl) (h.queue_same hi (by simp)) h.nodup
      (fun _ => .inl rfl) fun hb => .inr (.inr ⟨hb, rfl, hfinishes⟩)
  rw [State.signal]
  cases hqueue : s.notification.queue with
  | nil =>
      rw [hqueue] at hgive
      rw [Notification.signal_nil hqueue]
      exact ⟨hgive, fun _ => rfl⟩
  | cons t q =>
      have hactive : s.notification.active = false := by
        by_contra hactive
        rw [Bool.not_eq_false] at hactive
        have hnil := h.queue_nil hactive
        rw [hqueue] at hnil
        cases hnil
      have ht : s.pc t = .asleep := (h.mem_queue t).mp (by simp [hqueue])
      have hne : t ≠ i := by
        rintro rfl
        exact hi ht
      have hidle : s.lock.pc t = .idle := (h.fits t).2.2.1 (.inr (.inl ht))
      have hnodup := h.nodup
      rw [hqueue] at hgive hnodup
      obtain ⟨htq, hq⟩ := List.nodup_cons.mp hnodup
      rw [Notification.signal_cons hactive hqueue]
      refine ⟨?_, fun hfalse => by simp at hfalse⟩
      simp only [wake]
      rw [update_comm hne]
      refine hgive.goto h.lock (fun _ _ => .inl rfl)
        (by simp [Fits, Pc.locked, Pc.unlocks, hidle, BinSem.Pc.posts]) (by simp [Knows]) (.inl rfl)
        (by simp [update_of_ne hne, ht, Pc.waits]) ?_ hq (fun _ => .inr (.inl rfl))
        fun hb => .inr (.inr ⟨hb, rfl, by simp [update_of_ne hne, ht, Pc.finishes]⟩)
      refine (forall_update_iff (update s.pc i .free) fun j x => j ∈ q ↔ x = .asleep).mpr
        ⟨iff_of_false htq (by simp), fun j hj => ?_⟩
      rw [← hgive.mem_queue]
      simp [hj]

omit [DecidableEq ι] in
/-- With fewer threads than an `int` counts, the lock can be waited for. -/
lemma Inv.value_ne (h : Inv s) (hcard : Fintype.card ι < 2 ^ 31) : s.lock.value ≠ intMin := by
  have htoken := h.lock.token
  have hvalue := h.lock.value_eq
  have hwaits := count_le_card BinSem.Pc.waits s.lock.pc
  rw [intMin]
  omega

/-- A step of the thread that holds the lock. -/
lemma Inv.locked (h : Inv s) {x : Pc} {w : ℤ} {b : Bool} (hi : (s.pc i).locked = true)
    (hx : x.locked = true ∨ x.unlocks = true ∨ x = .free) (hknows : Knows w x)
    (hcount : w + (s.pc i).waits.toNat = s.waiters + x.waits.toNat)
    (hchain : b = true → x.carries = true ∨ s.broadcasting = true ∧ (s.pc i).carries = false)
    (hmore : b = true → 0 < w ∨ x.finishes = true ∨
      s.broadcasting = true ∧ w = s.waiters ∧ (s.pc i).finishes = false) :
    Inv ⟨s.lock, s.notification, w, b, update s.pc i x⟩ := by
  have hholding := (h.fits i).1 hi
  have hne : ∀ {y : Pc}, y.locked = true ∨ y.unlocks = true ∨ y = .free →
      y ≠ .sleeping ∧ y ≠ .asleep ∧ y ≠ .releaseSend ∧ y ≠ .relocking := by
    rintro y (hy | hy | rfl)
    · refine ⟨?_, ?_, ?_, ?_⟩ <;> rintro rfl <;> cases hy
    · refine ⟨?_, ?_, ?_, ?_⟩ <;> rintro rfl <;> cases hy
    · decide
  obtain ⟨hsleep, hasleep, hsend, hrelock⟩ := hne hx
  refine h.move (hne (.inl hi)).2.1 hasleep ⟨fun _ => hholding, fun _ => .inl hholding, ?_, ?_⟩
    hknows (.inr hholding) hcount hchain hmore
  · rintro (rfl | rfl | rfl)
    · exact absurd rfl hsleep
    · exact absurd rfl hasleep
    · exact absurd rfl hsend
  · exact fun hrel => absurd hrel hrelock

/-- A step inside `sync_bin_sem_post`, after which the thread goes to the place `x`. -/
lemma Inv.unlock (h : Inv s) {spurious : Bool} {x : Pc}
    (hstep : s.onLock i spurious (fun p => if p = .idle then x else s.pc i) = some s')
    (hi : (s.pc i).unlocks = true) (hx : x = .sleeping ∨ x = .releaseSend ∨ x = .free)
    (hwaits : x.waits = (s.pc i).waits) (hcarries : (s.pc i).carries = true → x.carries = true) :
    Inv s' := by
  have hasleep : s.pc i ≠ .asleep := by
    intro hasleep
    rw [hasleep] at hi
    cases hi
  have hfinishes : (s.pc i).finishes = false := by
    cases hpc : s.pc i <;> simp_all [Pc.unlocks, Pc.finishes]
  refine h.onLock hstep hasleep fun lock hlock hinv => ?_
  have hpost := BinSem.step_post h.lock hlock ((h.fits i).2.1 hi)
  by_cases hdone : lock.pc i = .idle
  · rw [if_pos hdone, hdone]
    refine ⟨?_, ?_, ?_, hwaits, hcarries, hfinishes⟩
    · rcases hx with rfl | rfl | rfl <;> simp [Fits, Pc.locked, Pc.unlocks]
    · rcases hx with rfl | rfl | rfl <;> simp [Knows]
    · rcases hx with rfl | rfl | rfl <;> simp
  · rw [if_neg hdone]
    have hposts := hpost.resolve_left hdone
    refine ⟨?_, h.knows i, hasleep, rfl, id, hfinishes⟩
    cases hpc : s.pc i <;> simp_all [Fits, Pc.locked, Pc.unlocks]

section Step

variable {spurious : Bool} {call : Call}

/-- A thread that is in no operation uses the lock, or starts an operation with it. -/
lemma step_inv_free (h : Inv s) (hi : s.pc i = .free)
    (hstep : step s (i, spurious, call) = some s') : Inv s' := by
  simp only [step, hi] at hstep
  split_ifs at hstep with hlock hholding
  · refine h.onLock hstep (by simp [hi]) fun lock _ _ => ?_
    simp [Fits, Knows, Pc.locked, Pc.unlocks, Pc.waits, Pc.carries, Pc.finishes, hi]
  · obtain rfl := Option.some.inj hstep
    cases call with
    | lock => exact absurd rfl hlock
    | _ =>
        exact h.move (by simp [hi]) (by simp [Call.start])
          (by simp [Fits, Call.start, Pc.locked, Pc.unlocks, hholding])
          (by simp [Knows, Call.start]) (.inl rfl) (by simp [hi, Call.start, Pc.waits])
          (fun hb => .inr ⟨hb, by simp [hi, Pc.carries]⟩)
          fun hb => .inr (.inr ⟨hb, rfl, by simp [hi, Pc.finishes]⟩)

/-- `sync_cv_wait`, up to `seL4_Wait`. -/
lemma step_inv_waiting (h : Inv s) (hi : s.pc i = .incrementing ∨ s.pc i = .resetting ∨
      s.pc i = .releasing ∨ s.pc i = .sleeping)
    (hstep : step s (i, spurious, call) = some s') : Inv s' := by
  have hnonneg : 0 ≤ s.waiters := by
    rw [h.waiters_eq]
    exact Int.natCast_nonneg _
  rcases hi with hi | hi | hi | hi
  · simp only [step, hi, Option.some.injEq] at hstep
    subst hstep
    exact h.locked (by simp [hi, Pc.locked]) (.inl rfl) (by simp [Knows])
      (by simp [hi, Pc.waits]) (fun hb => .inr ⟨hb, by simp [hi, Pc.carries]⟩)
      fun _ => .inl (by omega)
  · -- a new waiter ends the broadcast
    simp only [step, hi, Option.some.injEq] at hstep
    subst hstep
    exact h.locked (by simp [hi, Pc.locked]) (.inr (.inl rfl)) (by simp [Knows])
      (by simp [hi, Pc.waits]) (by simp) (by simp)
  · simp only [step, hi] at hstep
    rw [← hi] at hstep
    exact h.unlock hstep (by simp [hi, Pc.unlocks]) (.inl rfl) (by simp [hi, Pc.waits])
      (by simp [hi, Pc.carries])
  · simp only [step, hi, Option.some.injEq] at hstep
    subst hstep
    exact h.wait hi

/-- `sync_cv_wait`, after `seL4_Wait`: the thread locks again, and is not counted any more. -/
lemma step_inv_returning (hcard : Fintype.card ι < 2 ^ 31) (h : Inv s)
    (hi : s.pc i = .relocking ∨ s.pc i = .decrementing)
    (hstep : step s (i, spurious, call) = some s') : Inv s' := by
  rcases hi with hi | hi
  · simp only [step, hi] at hstep
    split_ifs at hstep with hholding
    · obtain rfl := Option.some.inj hstep
      exact h.move (by simp [hi]) (by simp) (by simp [Fits, Pc.locked, Pc.unlocks, hholding])
        (by simp [Knows]) (.inl rfl) (by simp [hi, Pc.waits]) (fun _ => .inl rfl)
        fun hb => .inr (.inr ⟨hb, rfl, by simp [hi, Pc.finishes]⟩)
    · -- the wait for the lock does not fail, as the value is not the least `int`
      refine h.onLock hstep (by simp [hi]) fun lock hlock _ => ?_
      obtain ⟨hbusy, hpost⟩ :=
        BinSem.step_wait hlock (h.value_ne hcard) hholding ((h.fits i).2.2.2 hi)
      rw [if_neg hbusy]
      simp [Fits, Knows, Pc.locked, Pc.unlocks, Pc.waits, Pc.carries, Pc.finishes, hi, hpost]
  · simp only [step, hi, Option.some.injEq] at hstep
    subst hstep
    exact h.locked (by simp [hi, Pc.locked]) (.inl rfl) (by simp [Knows])
      (by simp [hi, Pc.waits]) (fun _ => .inl rfl) fun _ => .inr (.inl rfl)

/-- The end of `sync_cv_wait`: where a broadcast goes on, the thread passes it on or ends it. -/
lemma step_inv_finishing (h : Inv s)
    (hi : s.pc i = .testing ∨ s.pc i = .counting ∨ s.pc i = .stopping)
    (hstep : step s (i, spurious, call) = some s') : Inv s' := by
  rcases hi with hi | hi | hi
  · simp only [step, hi, Option.some.injEq] at hstep
    subst hstep
    cases hb : s.broadcasting with
    | true =>
        exact h.locked (by simp [hi, Pc.locked]) (.inl rfl) (by simp [Knows])
          (by simp [hi, Pc.waits]) (fun _ => .inl rfl) fun _ => .inr (.inl rfl)
    | false =>
        exact h.locked (by simp [hi, Pc.locked]) (.inr (.inr rfl)) (by simp [Knows])
          (by simp [hi, Pc.waits]) (by simp) (by simp)
  · simp only [step, hi, Option.some.injEq] at hstep
    subst hstep
    by_cases hmore : 0 < s.waiters
    · rw [if_pos hmore]
      exact h.locked (by simp [hi, Pc.locked]) (.inl rfl) (by simp [Knows])
        (by simp [hi, Pc.waits]) (fun _ => .inl rfl) fun _ => .inl hmore
    · rw [if_neg hmore]
      have hzero : s.waiters = 0 := by
        have hwaiters := h.waiters_eq
        omega
      exact h.locked (by simp [hi, Pc.locked]) (.inl rfl) (by simp [Knows, hzero])
        (by simp [hi, Pc.waits]) (fun _ => .inl rfl) fun _ => .inr (.inl rfl)
  · simp only [step, hi, Option.some.injEq] at hstep
    subst hstep
    exact h.locked (by simp [hi, Pc.locked]) (.inr (.inr rfl)) (by simp [Knows])
      (by simp [hi, Pc.waits]) (by simp) (by simp)

/-- The test for waiters with which the other operations start. -/
lemma step_inv_tests (h : Inv s)
    (hi : s.pc i = .signalTest ∨ s.pc i = .broadcastTest ∨ s.pc i = .releaseTest)
    (hstep : step s (i, spurious, call) = some s') : Inv s' := by
  rcases hi with hi | hi | hi
  all_goals
    simp only [step, hi, Option.some.injEq] at hstep
    subst hstep
    refine h.locked (by simp [hi, Pc.locked]) ?_ ?_ ?_
      (fun hb => .inr ⟨hb, by simp [hi, Pc.carries]⟩)
      fun hb => .inr (.inr ⟨hb, rfl, by simp [hi, Pc.finishes]⟩)
    all_goals split_ifs with hmore <;> simp [Pc.locked, Pc.unlocks, Knows, hi, Pc.waits, hmore]

/-- A broadcast starts: there are waiters, and the thread is about to wake one up. -/
lemma step_inv_broadcasting (h : Inv s) (hi : s.pc i = .broadcastSet ∨ s.pc i = .releaseSet)
    (hstep : step s (i, spurious, call) = some s') : Inv s' := by
  have hsome : 0 < s.waiters := (h.knows i).1 hi
  rcases hi with hi | hi
  · simp only [step, hi, Option.some.injEq] at hstep
    subst hstep
    exact h.locked (by simp [hi, Pc.locked]) (.inl rfl) (by simp [Knows])
      (by simp [hi, Pc.waits]) (fun _ => .inl rfl) fun _ => .inl hsome
  · simp only [step, hi, Option.some.injEq] at hstep
    subst hstep
    exact h.locked (by simp [hi, Pc.locked]) (.inr (.inl rfl)) (by simp [Knows])
      (by simp [hi, Pc.waits]) (fun _ => .inl rfl) fun _ => .inl hsome

/-- The unlock of `sync_cv_broadcast_release`. -/
lemma step_inv_unlocking (h : Inv s) (hi : s.pc i = .releasePost ∨ s.pc i = .releaseOnly)
    (hstep : step s (i, spurious, call) = some s') : Inv s' := by
  rcases hi with hi | hi
  · simp only [step, hi] at hstep
    rw [← hi] at hstep
    exact h.unlock hstep (by simp [hi, Pc.unlocks]) (.inr (.inl rfl)) (by simp [hi, Pc.waits])
      (by simp [Pc.carries])
  · simp only [step, hi] at hstep
    rw [← hi] at hstep
    exact h.unlock hstep (by simp [hi, Pc.unlocks]) (.inr (.inr rfl)) (by simp [hi, Pc.waits])
      (by simp [hi, Pc.carries])

end Step

/-- **Every step keeps the invariant.** -/
lemma step_inv (hcard : Fintype.card ι < 2 ^ 31) (h : Inv s) (hstep : step s l = some s') :
    Inv s' := by
  obtain ⟨i, spurious, call⟩ := l
  cases hi : s.pc i with
  | free => exact step_inv_free h hi hstep
  | incrementing | resetting | releasing | sleeping =>
      exact step_inv_waiting h (by simp [hi]) hstep
  | asleep => simp [step, hi] at hstep
  | relocking | decrementing => exact step_inv_returning hcard h (by simp [hi]) hstep
  | testing | counting | stopping => exact step_inv_finishing h (by simp [hi]) hstep
  | signalTest | broadcastTest | releaseTest => exact step_inv_tests h (by simp [hi]) hstep
  | broadcastSet | releaseSet => exact step_inv_broadcasting h (by simp [hi]) hstep
  | releasePost | releaseOnly => exact step_inv_unlocking h (by simp [hi]) hstep
  | passing | signalSend | broadcastSend | releaseSend =>
      simp only [step, hi, Option.some.injEq] at hstep
      subst hstep
      exact h.signal (by simp [hi]) (by simp [hi, Pc.waits]) (by simp [hi, Pc.finishes])
  | failed => exact absurd hi (h.knows i).2.2

/-! ### Runs -/

omit [Fintype ι] in
lemma State.onLock_broadcasting {spurious : Bool} {next : BinSem.Pc → Pc}
    (h : s.onLock i spurious next = some s') : s'.broadcasting = s.broadcasting := by
  obtain ⟨lock, -, rfl⟩ := Option.map_eq_some_iff.mp h
  rfl

omit [Fintype ι] in
/-- What ends a broadcast: a new wait, or the last waiter. -/
lemma step_ends (hstep : step s l = some s') (hb : s.broadcasting = true)
    (hend : s'.broadcasting = false) : s.pc l.1 = .resetting ∨ s.pc l.1 = .stopping := by
  have hsame : s'.broadcasting ≠ s.broadcasting := by
    rw [hb, hend]
    decide
  cases hi : s.pc l.1 with
  | resetting => exact .inl rfl
  | stopping => exact .inr rfl
  | free =>
      simp only [step, hi] at hstep
      split_ifs at hstep
      · exact absurd (State.onLock_broadcasting hstep) hsame
      · exact absurd (Option.some.inj hstep ▸ rfl) hsame
  | relocking =>
      simp only [step, hi] at hstep
      split_ifs at hstep
      · exact absurd (Option.some.inj hstep ▸ rfl) hsame
      · exact absurd (State.onLock_broadcasting hstep) hsame
  | releasing | releasePost | releaseOnly =>
      simp only [step, hi] at hstep
      exact absurd (State.onLock_broadcasting hstep) hsame
  | asleep | failed => simp [step, hi] at hstep
  | broadcastSet | releaseSet =>
      simp only [step, hi, Option.some.injEq] at hstep
      rw [← hstep] at hend
      cases hend
  | _ =>
      simp only [step, hi, Option.some.injEq] at hstep
      exact absurd (hstep ▸ rfl) hsame

/-- **Condition variables.** In every state that fewer threads than an `int` counts reach, in any
order of their steps: at most one thread holds the lock, and a thread inside an operation other
than the wait itself holds it, so that `sync_cv_wait` returns with it; `waiters` is the number of
threads that wait; and while a broadcast goes on, a wake-up is on its way, and there is a thread
that still waits or has just left. -/
theorem conditionVar_runs (hcard : Fintype.card ι < 2 ^ 31) (holder : Option ι)
    (ls : List (ι × Bool × Call)) (s : State ι) (hrun : Runs (OfFun step) (init holder) ls s) :
    (∀ i j, (s.lock.pc i).holds = true → (s.lock.pc j).holds = true → i = j) ∧
      (∀ i, (s.pc i).locked = true → s.lock.pc i = .holding) ∧ (∀ i, s.pc i ≠ .failed) ∧
      s.waiters = count Pc.waits s.pc ∧
      (s.broadcasting = true →
        (s.notification.active = true ∨ ∃ i, (s.pc i).carries = true) ∧
          (0 < s.waiters ∨ ∃ i, (s.pc i).finishes = true)) := by
  have h : Inv s :=
    hrun.invariant Inv (fun _ _ _ h hstep => step_inv hcard h hstep) (inv_init holder)
  have hone : count BinSem.Pc.holds s.lock.pc ≤ 1 := by
    have htoken := h.lock.token
    omega
  exact ⟨fun i j hi hj => eq_of_count_le_one hone hi hj, fun i => (h.fits i).1,
    fun i => (h.knows i).2.2, h.waiters_eq, fun hb => ⟨h.chain hb, h.more hb⟩⟩

/-- What a thread does that waits from the start. -/
def waiterSteps : List (Fin 2 × Bool × Call) := List.replicate 7 (0, false, .wait)

/-- What a thread does that locks, and starts to broadcast. -/
def broadcasterSteps : List (Fin 2 × Bool × Call) :=
  List.replicate 3 (1, false, .lock) ++ List.replicate 3 (1, false, .broadcast)

/-- One thread waits, and the other one is about to wake it up. -/
theorem conditionVar_runs_two : ∃ s : State (Fin 2), s.broadcasting = true ∧
    s.waiters = count Pc.waits s.pc ∧ s.waiters = 1 ∧
    (s.notification.active = true ∨ ∃ i, (s.pc i).carries = true) := by
  obtain ⟨s, hrun, hb, hone⟩ : ∃ s : State (Fin 2), Runs (OfFun step) (init (some 0))
      (waiterSteps ++ broadcasterSteps) s ∧ s.broadcasting = true ∧ s.waiters = 1 :=
    ⟨_, runs_of_eval rfl, rfl, rfl⟩
  obtain ⟨-, -, -, hwaiters, hbroadcast⟩ := conditionVar_runs (by decide) (some 0) _ s hrun
  exact ⟨s, hb, hwaiters, hone, (hbroadcast hb).1⟩

/-- A run in which no thread starts to wait: the broadcast still goes on, or there was a state in
which nobody waited. -/
lemma broadcast_runs (hcard : Fintype.card ι < 2 ^ 31) (h : Inv s) (hb : s.broadcasting = true)
    {ls : List (ι × Bool × Call)}
    (hrun : Runs (Guarded (fun s l => s.pc l.1 ≠ .resetting) (OfFun step)) s ls s') :
    Inv s' ∧ (s'.broadcasting = true ∨ ∃ ls₁ ls₂ t, ls = ls₁ ++ ls₂ ∧
      Runs (Guarded (fun s l => s.pc l.1 ≠ .resetting) (OfFun step)) s ls₁ t ∧
      Runs (Guarded (fun s l => s.pc l.1 ≠ .resetting) (OfFun step)) t ls₂ s' ∧
      ∀ i, (t.pc i).waits = false) := by
  induction hrun with
  | nil => exact ⟨h, .inl hb⟩
  | @snoc ls s₁ l s₂ hfirst hlast ih =>
      obtain ⟨h₁, hcases⟩ := ih
      obtain ⟨hgood, hstep⟩ := hlast
      refine ⟨step_inv hcard h₁ hstep, ?_⟩
      rcases hcases with hb₁ | ⟨ls₁, ls₂, t, rfl, hrun₁, hrun₂, hnone⟩
      · cases hb₂ : s₂.broadcasting with
        | true => exact .inl rfl
        | false =>
            have hstop := (step_ends hstep hb₁ hb₂).resolve_left hgood
            have hzero : count Pc.waits s₁.pc = 0 := by
              have hwaiters := h₁.waiters_eq
              rw [(h₁.knows l.1).2.1 hstop] at hwaiters
              exact_mod_cast hwaiters.symm
            exact .inr ⟨ls, [l], s₁, rfl, hfirst, .snoc .nil ⟨hgood, hstep⟩, count_eq_zero.mp hzero⟩
      · exact .inr ⟨ls₁, ls₂ ++ [l], t, by rw [List.append_assoc], hrun₁,
          hrun₂.snoc ⟨hgood, hstep⟩, hnone⟩

/-- **Broadcasts are complete**: a broadcast that goes on in a reachable state ends, if no thread
starts to wait meanwhile, only after a state in which no thread waits: every thread that waited
has been woken up, and has got the lock. -/
theorem broadcast_complete (hcard : Fintype.card ι < 2 ^ 31) (holder : Option ι)
    (ls₀ ls : List (ι × Bool × Call)) (s s' : State ι)
    (hreach : Runs (OfFun step) (init holder) ls₀ s) (hb : s.broadcasting = true)
    (hrun : Runs (Guarded (fun s l => s.pc l.1 ≠ .resetting) (OfFun step)) s ls s')
    (hend : s'.broadcasting = false) :
    ∃ ls₁ ls₂ t, ls = ls₁ ++ ls₂ ∧ Runs (OfFun step) s ls₁ t ∧ Runs (OfFun step) t ls₂ s' ∧
      ∀ i, (t.pc i).waits = false := by
  have h : Inv s :=
    hreach.invariant Inv (fun _ _ _ h hstep => step_inv hcard h hstep) (inv_init holder)
  obtain ⟨-, hb' | ⟨ls₁, ls₂, t, hls, hrun₁, hrun₂, hnone⟩⟩ := broadcast_runs hcard h hb hrun
  · rw [hend] at hb'
    cases hb'
  · exact ⟨ls₁, ls₂, t, hls, hrun₁.mono fun _ _ _ hstep => hstep.2,
      hrun₂.mono fun _ _ _ hstep => hstep.2, hnone⟩

/-- The broadcaster wakes up the waiter, and unlocks; the waiter ends the broadcast. -/
theorem broadcast_complete_two : ∃ (ls₁ ls₂ : List (Fin 2 × Bool × Call)) (s t s' : State (Fin 2)),
    s.waiters = 1 ∧ s'.waiters = 0 ∧ Runs (OfFun step) s ls₁ t ∧ Runs (OfFun step) t ls₂ s' ∧
      ∀ i, (t.pc i).waits = false := by
  have hcheck : ∀ (s : State (Fin 2)) (l : Fin 2 × Bool × Call),
      decide (s.pc l.1 ≠ .resetting) = true → s.pc l.1 ≠ .resetting := by
    intro s l h
    exact of_decide_eq_true h
  obtain ⟨s, s', hreach, hb, hone, hrun, hend, hzero⟩ : ∃ s s' : State (Fin 2),
      Runs (OfFun step) (init (some 0)) (waiterSteps ++ broadcasterSteps) s ∧
      s.broadcasting = true ∧ s.waiters = 1 ∧
      Runs (Guarded (fun s l => s.pc l.1 ≠ .resetting) (OfFun step)) s
        ((1, false, .broadcast) :: List.replicate 3 (1, false, .lock) ++
          List.replicate 8 (0, false, .wait)) s' ∧
      s'.broadcasting = false ∧ s'.waiters = 0 :=
    ⟨_, _, runs_of_eval rfl, rfl, rfl, runs_of_runFun _ hcheck rfl, rfl, rfl⟩
  obtain ⟨ls₁, ls₂, t, -, hrun₁, hrun₂, hnone⟩ :=
    broadcast_complete (by decide) (some 0) _ _ s s' hreach hb hrun hend
  exact ⟨ls₁, ls₂, s, t, s', hone, hzero, hrun₁, hrun₂, hnone⟩

end ConditionVar

end Sync
