import Sel4Test.Lib.Exec
import Sel4Test.Lib.Threads
import Sel4Test.Sync.Notification

/-!
Recursive mutexes, `libsel4sync/src/recursive_mutex.c`.

Any number of threads use one mutex; a thread is known by the address of its IPC buffer, which
no other thread shares. A step is one access to a field of the mutex or one system call, and
the threads take steps in any order. Each thread counts in `depth` how often it holds the
mutex, and unlocks only what it holds.

* `Inv`: there is one token, in the notification or with the thread that is inside, and the
  fields are as that thread has left them.
* `step_inv_calling`, `step_inv_taking`, `step_inv_adding`, `step_inv_dropping`,
  `step_inv_clearing`: the steps at the places of a call; `step_inv`: every step keeps it.
* `recursiveMutex_runs`: the owner, the count, the assertions and the wake-ups.
-/

namespace Sync

open Threads Exec
open Function (update update_of_ne update_comm forall_update_iff)

variable {ι : Type}

/-- `UINT_MAX`. -/
def uintMax : ℕ := 2 ^ 32 - 1

namespace RecursiveMutex

/-! ### The code -/

/-- Where a thread is. -/
inductive Pc
  /-- Not in a call. -/
  | out
  /-- In `sync_recursive_mutex_lock`, before the owner is read. -/
  | locking
  /-- Before `seL4_Wait`. -/
  | waiting
  /-- In the kernel. -/
  | blocked
  /-- Before the assertion that there is no owner. -/
  | owning
  /-- Before the owner is set. -/
  | taking
  /-- Before the assertion that the count is 0. -/
  | starting
  /-- Before the count is compared with `UINT_MAX`. -/
  | testing
  /-- Before the count is read to go up. -/
  | adding
  /-- Before the count is written, one more than what was read. -/
  | added (v : ℕ)
  /-- In `sync_recursive_mutex_unlock`, before the assertion about the owner. -/
  | unlocking
  /-- Before the assertion about the count. -/
  | checking
  /-- Before the count is read to go down. -/
  | dropping
  /-- Before the count is written, one less than what was read. -/
  | dropped (v : ℕ)
  /-- Before the count is compared with 0. -/
  | comparing
  /-- Before the owner is cleared. -/
  | clearing
  /-- Before `seL4_Signal`. -/
  | signalling
  /-- An assertion has failed. -/
  | aborted
  deriving DecidableEq

/-- A thread, with the number of times that it holds the mutex. -/
structure Thread where
  pc : Pc
  depth : ℕ
  deriving DecidableEq

/-- The mutex and its threads. -/
structure State (ι : Type) where
  owner : Option ι
  held : ℕ
  notification : Notification ι
  threads : ι → Thread

/-- `sync_recursive_mutex_init`: the notification has been signalled. -/
def init : State ι where
  owner := none
  held := 0
  notification := ⟨true, []⟩
  threads _ := ⟨.out, 0⟩

variable [DecidableEq ι]

/-- A thread that is woken up goes on after `seL4_Wait`. -/
def wake (threads : ι → Thread) : Option ι → ι → Thread
  | none => threads
  | some t => update threads t { threads t with pc := .owning }

/-- A step of a thread; a thread that is not in a call may lock, or unlock what it holds. -/
def step (s : State ι) (l : ι × Bool) : Option (State ι) :=
  let i := l.1
  let th := s.threads i
  let goto x : State ι := { s with threads := update s.threads i { th with pc := x } }
  match th.pc with
  | .out =>
      if l.2 = true then (if 0 < th.depth then some (goto .unlocking) else none)
      else some (goto .locking)
  | .locking => some (goto (if some i ≠ s.owner then .waiting else .testing))
  | .waiting =>
      let r := s.notification.wait i
      some { goto (if r.1 then .owning else .blocked) with notification := r.2 }
  | .blocked => none
  | .owning => some (goto (if s.owner = none then .taking else .aborted))
  | .taking => some { goto .starting with owner := some i }
  | .starting => some (goto (if s.held = 0 then .testing else .aborted))
  | .testing => some (goto (if s.held = uintMax then .out else .adding))
  | .adding => some (goto (.added s.held))
  | .added v =>
      some { s with
        held := (v + 1) % 2 ^ 32
        threads := update s.threads i ⟨.out, th.depth + 1⟩ }
  | .unlocking => some (goto (if s.owner = some i then .checking else .aborted))
  | .checking => some (goto (if 0 < s.held then .dropping else .aborted))
  | .dropping => some (goto (.dropped s.held))
  | .dropped v =>
      some { s with
        held := v - 1
        threads := update s.threads i ⟨.comparing, th.depth - 1⟩ }
  | .comparing => some (goto (if s.held = 0 then .clearing else .out))
  | .clearing => some { goto .signalling with owner := none }
  | .signalling =>
      let r := s.notification.signal
      some { s with
        notification := r.2
        threads := update (wake s.threads r.1) i { th with pc := .out } }
  | .aborted => none

/-! ### The invariant -/

/-- The place is between the two system calls. -/
def Pc.inside : Pc → Bool
  | .out | .locking | .waiting | .blocked | .aborted => false
  | _ => true

/-- The thread has the token. -/
def Thread.hasToken (th : Thread) : Bool := th.pc.inside || 0 < th.depth

/-- The fields as a thread with the token knows them. -/
def Knows (owner : Option ι) (held : ℕ) (i : ι) (th : Thread) : Prop :=
  match th.pc with
  | .owning | .taking | .signalling => th.depth = 0 ∧ owner = none ∧ held = 0
  | .starting | .clearing => th.depth = 0 ∧ owner = some i ∧ held = 0
  | .out | .locking | .testing | .comparing => owner = some i ∧ held = th.depth
  | .adding => owner = some i ∧ held = th.depth ∧ held ≠ uintMax
  | .added v => owner = some i ∧ held = th.depth ∧ held ≠ uintMax ∧ v = held
  | .unlocking | .checking | .dropping => owner = some i ∧ held = th.depth ∧ 0 < th.depth
  | .dropped v => owner = some i ∧ held = th.depth ∧ 0 < th.depth ∧ v = held
  | .waiting | .blocked | .aborted => False

/-- The thread does not have the token, and is not the owner. -/
def Apart (owner : Option ι) (i : ι) (th : Thread) : Prop :=
  owner ≠ some i ∧ th.pc ≠ .aborted

/-- What is known at a thread. -/
def Local (owner : Option ι) (held : ℕ) (i : ι) (th : Thread) : Prop :=
  if th.hasToken = true then Knows owner held i th else Apart owner i th

variable [Fintype ι] {s s' : State ι} {i j : ι} {l : ι × Bool}

/-- What holds of the token, of the fields and of the queue. -/
structure Core (s : State ι) : Prop where
  token : count Thread.hasToken s.threads + s.notification.active.toNat = 1
  known : ∀ i, Local s.owner s.held i (s.threads i)
  free : s.notification.active = true → s.owner = none ∧ s.held = 0
  held_le : s.held ≤ uintMax
  mem_queue : ∀ i, i ∈ s.notification.queue ↔ (s.threads i).pc = .blocked
  nodup : s.notification.queue.Nodup

/-- **The invariant.** -/
structure Inv (s : State ι) : Prop extends Core s where
  queue_nil : s.notification.active = true → s.notification.queue = []

omit [DecidableEq ι] in
lemma inv_init : Inv (init : State ι) where
  token := by
    have hnone : count Thread.hasToken (init : State ι).threads = 0 :=
      count_eq_zero.mpr fun i => rfl
    rw [hnone]
    rfl
  known i := by
    have hnone : ((init : State ι).threads i).hasToken = false := rfl
    rw [Local, if_neg (by simp [hnone])]
    exact ⟨by simp [init], by simp [init]⟩
  free _ := ⟨rfl, rfl⟩
  held_le := by simp [init]
  mem_queue i := by simp [init]
  nodup := List.nodup_nil
  queue_nil _ := rfl

omit [DecidableEq ι] in
/-- Only one thread has the token. -/
lemma Core.unique (h : Core s) (hi : (s.threads i).hasToken = true) (hj : j ≠ i) :
    (s.threads j).hasToken = false := by
  have htoken := h.token
  by_contra hboth
  rw [Bool.not_eq_false] at hboth
  exact hj (eq_of_count_le_one (by omega) hboth hi)

/-- **A thread goes to another place**: it may set the fields if it has the token. -/
lemma Core.goto (h : Core s) {th : Thread} {owner : Option ι} {held : ℕ} {n : Notification ι}
    (htoken : th.hasToken.toNat + n.active.toNat =
      (s.threads i).hasToken.toNat + s.notification.active.toNat)
    (hlocal : Local owner held i th)
    (hother : (owner = s.owner ∧ held = s.held) ∨
      (s.threads i).hasToken = true ∧ (owner = none ∨ owner = some i))
    (hfree : n.active = true → owner = none ∧ held = 0) (hheld : held ≤ uintMax)
    (hqueue : ∀ j, j ∈ n.queue ↔ (update s.threads i th j).pc = .blocked)
    (hnodup : n.queue.Nodup) : Core ⟨owner, held, n, update s.threads i th⟩ := by
  have hcount := count_update Thread.hasToken s.threads i th
  refine ⟨?_, ?_, hfree, hheld, hqueue, hnodup⟩
  · have htoken₀ := h.token
    dsimp only
    omega
  · refine (forall_update_iff s.threads fun j th => Local owner held j th).mpr
      ⟨hlocal, fun j hj => ?_⟩
    rcases hother with ⟨rfl, rfl⟩ | ⟨hi, howner⟩
    · exact h.known j
    · have hlocal₀ := h.known j
      have hnone := h.unique hi hj
      rw [Local, if_neg (by simp [hnone])] at hlocal₀ ⊢
      refine ⟨?_, hlocal₀.2⟩
      rcases howner with rfl | rfl
      · simp
      · simpa using hj.symm

/-- The queue stays, where the thread does not come out of it or go into it. -/
lemma Core.queue_same (h : Core s) {th : Thread} (hi : (s.threads i).pc ≠ .blocked)
    (hth : th.pc ≠ .blocked) :
    ∀ j, j ∈ s.notification.queue ↔ (update s.threads i th j).pc = .blocked := by
  refine (forall_update_iff s.threads fun j th => j ∈ s.notification.queue ↔ th.pc = .blocked).mpr
    ⟨?_, fun j _ => h.mem_queue j⟩
  rw [h.mem_queue]
  exact iff_of_false hi hth

/-- A step that leaves the notification alone. -/
lemma Inv.move (h : Inv s) {th : Thread} {owner : Option ι} {held : ℕ}
    (hi : (s.threads i).pc ≠ .blocked) (hth : th.pc ≠ .blocked)
    (htoken : th.hasToken = (s.threads i).hasToken) (hlocal : Local owner held i th)
    (hother : (owner = s.owner ∧ held = s.held) ∨
      (s.threads i).hasToken = true ∧ (owner = none ∨ owner = some i)) (hheld : held ≤ uintMax) :
    Inv ⟨owner, held, s.notification, update s.threads i th⟩ := by
  refine ⟨h.toCore.goto (by rw [htoken]) hlocal hother (fun hactive => ?_) hheld
    (h.queue_same hi hth) h.nodup, h.queue_nil⟩
  rcases hother with ⟨rfl, rfl⟩ | ⟨hi', -⟩
  · exact h.free hactive
  · have htoken₀ := h.token
    have hpos := count_pos hi'
    rw [hactive, Bool.toNat_true] at htoken₀
    omega

omit [DecidableEq ι] in
lemma Core.knows (h : Core s) (hi : (s.threads i).hasToken = true) :
    Knows s.owner s.held i (s.threads i) := by
  have hknown := h.known i
  rwa [Local, if_pos hi] at hknown

omit [DecidableEq ι] in
lemma Core.apart (h : Core s) (hi : (s.threads i).hasToken = false) :
    Apart s.owner i (s.threads i) := by
  have hknown := h.known i
  rwa [Local, if_neg (by simp [hi])] at hknown

omit [DecidableEq ι] in
/-- A thread that waits holds nothing. -/
lemma Core.depth_of_wait (h : Core s)
    (hi : (s.threads i).pc = .waiting ∨ (s.threads i).pc = .blocked) :
    (s.threads i).hasToken = false ∧ (s.threads i).depth = 0 := by
  have hnone : (s.threads i).hasToken = false := by
    by_contra htoken
    rw [Bool.not_eq_false] at htoken
    have hknows := h.knows htoken
    rcases hi with hi | hi
    · simp [Knows, hi] at hknows
    · simp [Knows, hi] at hknows
  refine ⟨hnone, ?_⟩
  rw [Thread.hasToken, Bool.or_eq_false_iff] at hnone
  simpa using hnone.2

/-- `seL4_Wait`. -/
lemma Inv.wait (h : Inv s) (hi : (s.threads i).pc = .waiting) :
    Inv { s with
      notification := (s.notification.wait i).2
      threads := update s.threads i { s.threads i with
        pc := if (s.notification.wait i).1 then .owning else .blocked } } := by
  obtain ⟨hnone, hdepth⟩ := h.depth_of_wait (.inl hi)
  have hapart := h.apart hnone
  cases hactive : s.notification.active with
  | true =>
      obtain ⟨howner, hheld⟩ := h.free hactive
      rw [Notification.wait_active hactive]
      refine ⟨h.toCore.goto ?_ ?_ (.inl ⟨rfl, rfl⟩) (fun hfalse => by simp at hfalse) h.held_le
        (h.queue_same (by simp [hi]) (by simp)) h.nodup, fun hfalse => by simp at hfalse⟩
      · rw [hnone, hactive]
        simp [Thread.hasToken, Pc.inside]
      · simp [Local, Thread.hasToken, Pc.inside, Knows, hdepth, howner, hheld]
  | false =>
      have hnotin : i ∉ s.notification.queue := by
        rw [h.mem_queue, hi]
        decide
      rw [Notification.wait_idle hactive]
      refine ⟨h.toCore.goto ?_ ?_ (.inl ⟨rfl, rfl⟩) (fun hfalse => by simp at hfalse) h.held_le ?_
        ?_, fun hfalse => by simp at hfalse⟩
      · rw [hnone, hactive]
        simp [Thread.hasToken, Pc.inside, hdepth]
      · simpa [Local, Thread.hasToken, Pc.inside, hdepth, Apart] using hapart.1
      · refine (forall_update_iff s.threads fun j th =>
          j ∈ s.notification.queue ++ [i] ↔ th.pc = .blocked).mpr ⟨by simp, fun j hj => ?_⟩
        rw [← h.mem_queue]
        simp [hj]
      · exact List.nodup_append.mpr ⟨h.nodup, List.nodup_singleton i, by
          rintro a ha b hb rfl
          exact hnotin (List.mem_singleton.mp hb ▸ ha)⟩

/-- `seL4_Signal`. -/
lemma Inv.signal (h : Inv s) (hi : (s.threads i).pc = .signalling) :
    Inv { s with
      notification := s.notification.signal.2
      threads := update (wake s.threads s.notification.signal.1) i
        { s.threads i with pc := .out } } := by
  have htoken : (s.threads i).hasToken = true := by simp [Thread.hasToken, hi, Pc.inside]
  obtain ⟨hdepth, howner, hheld⟩ : (s.threads i).depth = 0 ∧ s.owner = none ∧ s.held = 0 := by
    simpa [Knows, hi] using h.knows htoken
  have hactive : s.notification.active = false := by
    have htoken₀ := h.token
    have hpos := count_pos htoken
    cases hactive : s.notification.active with
    | false => rfl
    | true =>
        rw [hactive, Bool.toNat_true] at htoken₀
        omega
  -- the token first goes to the notification
  have hgive : Core ⟨s.owner, s.held, ⟨true, s.notification.queue⟩,
      update s.threads i { s.threads i with pc := .out }⟩ := by
    refine h.toCore.goto ?_ ?_ (.inl ⟨rfl, rfl⟩) (fun _ => ⟨howner, hheld⟩) h.held_le
      (h.queue_same (by simp [hi]) (by simp)) h.nodup
    · rw [htoken, hactive]
      simp [Thread.hasToken, Pc.inside, hdepth]
    · simp [Local, Thread.hasToken, Pc.inside, hdepth, Apart, howner]
  cases hqueue : s.notification.queue with
  | nil =>
      rw [hqueue] at hgive
      rw [Notification.signal_nil hqueue]
      exact ⟨hgive, fun _ => rfl⟩
  | cons t q =>
      have ht : (s.threads t).pc = .blocked := (h.mem_queue t).mp (by simp [hqueue])
      have hne : t ≠ i := by
        rintro rfl
        rw [ht] at hi
        cases hi
      obtain ⟨hnone, hdepth'⟩ := h.depth_of_wait (.inr ht)
      have hnodup := h.nodup
      rw [hqueue] at hgive hnodup
      obtain ⟨htq, hq⟩ := List.nodup_cons.mp hnodup
      rw [Notification.signal_cons hactive hqueue]
      refine ⟨?_, fun hfalse => by simp at hfalse⟩
      simp only [wake]
      rw [update_comm hne]
      refine hgive.goto ?_ ?_ (.inl ⟨rfl, rfl⟩) (fun hfalse => by simp at hfalse) h.held_le ?_ hq
      · simp only [update_of_ne hne, hnone]
        simp [Thread.hasToken, Pc.inside]
      · simp [Local, Thread.hasToken, Pc.inside, Knows, hdepth', howner, hheld]
      · refine (forall_update_iff (update s.threads i { s.threads i with pc := .out }) fun j th =>
          j ∈ q ↔ th.pc = .blocked).mpr ⟨iff_of_false htq (by simp), fun j hj => ?_⟩
        rw [← hgive.mem_queue]
        simp [hj]

omit [DecidableEq ι] [Fintype ι] in
lemma Thread.hasToken_of_inside {th : Thread} (h : th.pc.inside = true) : th.hasToken = true := by
  rw [hasToken, h, Bool.true_or]

omit [DecidableEq ι] [Fintype ι] in
lemma Thread.hasToken_of_pos {th : Thread} (h : 0 < th.depth) : th.hasToken = true := by
  rw [hasToken, decide_eq_true h, Bool.or_true]

/-- A step of the thread that has the token, and keeps it. -/
lemma Inv.within (h : Inv s) {th : Thread} {owner : Option ι} {held : ℕ}
    (hi : (s.threads i).hasToken = true) (hth : th.hasToken = true)
    (hknows : Knows owner held i th) (howner : owner = none ∨ owner = some i)
    (hheld : held ≤ uintMax) : Inv ⟨owner, held, s.notification, update s.threads i th⟩ := by
  refine h.move (fun hblocked => ?_) (fun hblocked => ?_) (hth.trans hi.symm) ?_
    (.inr ⟨hi, howner⟩) hheld
  · have hknows₀ := h.knows hi
    simp [Knows, hblocked] at hknows₀
  · simp [Knows, hblocked] at hknows
  · rwa [Local, if_pos hth]

section Step

variable {pc : Pc} {d : ℕ} {unlock : Bool}

omit [DecidableEq ι] in
/-- What a thread between the two system calls knows. -/
lemma Inv.knows_inside (h : Inv s) (hth : s.threads i = ⟨pc, d⟩) (hpc : pc.inside = true) :
    (s.threads i).hasToken = true ∧ Knows s.owner s.held i ⟨pc, d⟩ := by
  have htoken : (s.threads i).hasToken = true := by
    rw [hth]
    exact Thread.hasToken_of_inside hpc
  exact ⟨htoken, hth ▸ h.knows htoken⟩

omit [DecidableEq ι] in
/-- What a thread that holds the mutex knows. -/
lemma Inv.knows_holding (h : Inv s) (hth : s.threads i = ⟨pc, d⟩) (hd : 0 < d) :
    (s.threads i).hasToken = true ∧ Knows s.owner s.held i ⟨pc, d⟩ := by
  have htoken : (s.threads i).hasToken = true := by
    rw [hth]
    exact Thread.hasToken_of_pos hd
  exact ⟨htoken, hth ▸ h.knows htoken⟩

/-- A thread calls, and finds out whether it is the owner. -/
lemma step_inv_calling (h : Inv s) (hth : s.threads i = ⟨pc, d⟩)
    (hpc : pc = .out ∨ pc = .locking) (hstep : step s (i, unlock) = some s') : Inv s' := by
  have hplace : (s.threads i).pc = pc := by rw [hth]
  rcases hpc with rfl | rfl
  · simp only [step, hth] at hstep
    split_ifs at hstep with hunlock hd
    · obtain rfl := Option.some.inj hstep
      obtain ⟨htoken, howner, hcount⟩ := h.knows_holding hth hd
      exact h.within htoken (Thread.hasToken_of_pos hd) ⟨howner, hcount, hd⟩ (.inr howner)
        h.held_le
    · -- a thread may lock with the mutex or without it
      obtain rfl := Option.some.inj hstep
      refine h.move (by simp [hplace]) (by simp) (by simp [hth, Thread.hasToken, Pc.inside]) ?_
        (.inl ⟨rfl, rfl⟩) h.held_le
      simpa [hth, Local, Thread.hasToken, Pc.inside, Knows, Apart] using h.known i
  · simp only [step, hth, Option.some.injEq] at hstep
    subst hstep
    rcases Nat.eq_zero_or_pos d with hd | hd
    · have hnone : (s.threads i).hasToken = false := by
        simp [hth, Thread.hasToken, Pc.inside, hd]
      obtain ⟨howner, -⟩ := h.apart hnone
      rw [if_pos (Ne.symm howner)]
      refine h.move (by simp [hplace]) (by simp) (by simp [hth, Thread.hasToken, Pc.inside]) ?_
        (.inl ⟨rfl, rfl⟩) h.held_le
      simp [Local, Thread.hasToken, Pc.inside, Apart, hd, howner]
    · obtain ⟨htoken, howner, hcount⟩ := h.knows_holding hth hd
      rw [if_neg (not_not.mpr howner.symm)]
      exact h.within htoken (Thread.hasToken_of_pos hd) ⟨howner, hcount⟩ (.inr howner) h.held_le

/-- A thread that has got the token takes the mutex. -/
lemma step_inv_taking (h : Inv s) (hth : s.threads i = ⟨pc, d⟩)
    (hpc : pc = .owning ∨ pc = .taking ∨ pc = .starting) (hstep : step s (i, unlock) = some s') :
    Inv s' := by
  rcases hpc with rfl | rfl | rfl
  · obtain ⟨htoken, hd, howner, hzero⟩ := h.knows_inside hth rfl
    simp only [step, hth, if_pos howner, Option.some.injEq] at hstep
    subst hstep
    exact h.within htoken (Thread.hasToken_of_inside rfl) ⟨hd, howner, hzero⟩ (.inl howner)
      h.held_le
  · obtain ⟨htoken, hd, -, hzero⟩ := h.knows_inside hth rfl
    simp only [step, hth, Option.some.injEq] at hstep
    subst hstep
    exact h.within htoken (Thread.hasToken_of_inside rfl) ⟨hd, rfl, hzero⟩ (.inr rfl) h.held_le
  · obtain ⟨htoken, hd, howner, hzero⟩ := h.knows_inside hth rfl
    simp only [step, hth, if_pos hzero, Option.some.injEq] at hstep
    subst hstep
    exact h.within htoken (Thread.hasToken_of_inside rfl) ⟨howner, hzero.trans hd.symm⟩
      (.inr howner) h.held_le

/-- The owner counts once more, unless the count is at its end. -/
lemma step_inv_adding (h : Inv s) (hth : s.threads i = ⟨pc, d⟩)
    (hpc : pc = .testing ∨ pc = .adding ∨ ∃ v, pc = .added v)
    (hstep : step s (i, unlock) = some s') : Inv s' := by
  have hheld := h.held_le
  rcases hpc with rfl | rfl | ⟨v, rfl⟩
  · obtain ⟨htoken, howner, hcount⟩ := h.knows_inside hth rfl
    simp only [step, hth, Option.some.injEq] at hstep
    subst hstep
    by_cases hmax : s.held = uintMax
    · have hd : 0 < d := by
        have hcount : s.held = d := hcount
        rw [← hcount, hmax]
        decide
      rw [if_pos hmax]
      exact h.within htoken (Thread.hasToken_of_pos hd) ⟨howner, hcount⟩ (.inr howner) hheld
    · rw [if_neg hmax]
      exact h.within htoken (Thread.hasToken_of_inside rfl) ⟨howner, hcount, hmax⟩ (.inr howner)
        hheld
  · obtain ⟨htoken, howner, hcount, hmax⟩ := h.knows_inside hth rfl
    simp only [step, hth, Option.some.injEq] at hstep
    subst hstep
    exact h.within htoken (Thread.hasToken_of_inside rfl) ⟨howner, hcount, hmax, rfl⟩
      (.inr howner) hheld
  · -- no other thread writes the count between the two accesses
    obtain ⟨htoken, howner, hcount, hmax, rfl⟩ := h.knows_inside hth rfl
    have hcount : s.held = d := hcount
    rw [uintMax] at hheld hmax
    simp only [step, hth, Option.some.injEq] at hstep
    subst hstep
    rw [Nat.mod_eq_of_lt (by omega)]
    exact h.within htoken (Thread.hasToken_of_pos d.succ_pos) ⟨howner, by rw [hcount]⟩
      (.inr howner) (by rw [uintMax]; omega)

/-- The owner counts once less. -/
lemma step_inv_dropping (h : Inv s) (hth : s.threads i = ⟨pc, d⟩)
    (hpc : pc = .unlocking ∨ pc = .checking ∨ pc = .dropping ∨ ∃ v, pc = .dropped v)
    (hstep : step s (i, unlock) = some s') : Inv s' := by
  have hheld := h.held_le
  rcases hpc with rfl | rfl | rfl | ⟨v, rfl⟩
  · obtain ⟨htoken, howner, hcount, hd⟩ := h.knows_inside hth rfl
    simp only [step, hth, if_pos howner, Option.some.injEq] at hstep
    subst hstep
    exact h.within htoken (Thread.hasToken_of_inside rfl) ⟨howner, hcount, hd⟩ (.inr howner) hheld
  · obtain ⟨htoken, howner, hcount, hd⟩ := h.knows_inside hth rfl
    have hpos : 0 < s.held := hd.trans_eq hcount.symm
    simp only [step, hth, if_pos hpos, Option.some.injEq] at hstep
    subst hstep
    exact h.within htoken (Thread.hasToken_of_inside rfl) ⟨howner, hcount, hd⟩ (.inr howner) hheld
  · obtain ⟨htoken, howner, hcount, hd⟩ := h.knows_inside hth rfl
    simp only [step, hth, Option.some.injEq] at hstep
    subst hstep
    exact h.within htoken (Thread.hasToken_of_inside rfl) ⟨howner, hcount, hd, rfl⟩ (.inr howner)
      hheld
  · obtain ⟨htoken, howner, hcount, hd, rfl⟩ := h.knows_inside hth rfl
    have hcount : s.held = d := hcount
    simp only [step, hth, Option.some.injEq] at hstep
    subst hstep
    exact h.within htoken (Thread.hasToken_of_inside rfl) ⟨howner, by rw [hcount]⟩ (.inr howner)
      (by omega)

/-- After the outermost unlock the mutex has no owner. -/
lemma step_inv_clearing (h : Inv s) (hth : s.threads i = ⟨pc, d⟩)
    (hpc : pc = .comparing ∨ pc = .clearing) (hstep : step s (i, unlock) = some s') : Inv s' := by
  rcases hpc with rfl | rfl
  · obtain ⟨htoken, howner, hcount⟩ := h.knows_inside hth rfl
    have hcount : s.held = d := hcount
    simp only [step, hth, Option.some.injEq] at hstep
    subst hstep
    by_cases hzero : s.held = 0
    · rw [if_pos hzero]
      exact h.within htoken (Thread.hasToken_of_inside rfl)
        ⟨hcount.symm.trans hzero, howner, hzero⟩ (.inr howner) h.held_le
    · have hd : 0 < d := by omega
      rw [if_neg hzero]
      exact h.within htoken (Thread.hasToken_of_pos hd) ⟨howner, hcount⟩ (.inr howner) h.held_le
  · obtain ⟨htoken, hd, -, hzero⟩ := h.knows_inside hth rfl
    simp only [step, hth, Option.some.injEq] at hstep
    subst hstep
    exact h.within htoken (Thread.hasToken_of_inside rfl) ⟨hd, rfl, hzero⟩ (.inl rfl) h.held_le

end Step

/-- **Every step keeps the invariant.** -/
lemma step_inv (h : Inv s) (hstep : step s l = some s') : Inv s' := by
  obtain ⟨i, unlock⟩ := l
  rcases hth : s.threads i with ⟨pc, d⟩
  have hpc : (s.threads i).pc = pc := by rw [hth]
  cases pc with
  | out | locking => exact step_inv_calling h hth (by simp) hstep
  | waiting =>
      have hwait := h.wait hpc
      simp only [step, hth, Option.some.injEq] at hstep
      subst hstep
      rwa [hth] at hwait
  | blocked => simp [step, hth] at hstep
  | owning | taking | starting => exact step_inv_taking h hth (by simp) hstep
  | testing | adding | added v => exact step_inv_adding h hth (by simp) hstep
  | unlocking | checking | dropping | dropped v => exact step_inv_dropping h hth (by simp) hstep
  | comparing | clearing => exact step_inv_clearing h hth (by simp) hstep
  | signalling =>
      have hsignal := h.signal hpc
      simp only [step, hth, Option.some.injEq] at hstep
      subst hstep
      rwa [hth] at hsignal
  | aborted => simp [step, hth] at hstep

/-! ### Runs -/

/-- A thread that is not in the kernel can take a step. -/
lemma step_isSome (h : Inv s) (hi : (s.threads i).pc ≠ .blocked) :
    (step s (i, false)).isSome := by
  rcases hth : s.threads i with ⟨pc, d⟩
  cases pc with
  | blocked => exact absurd (by rw [hth]) hi
  | aborted =>
      have hknown := h.known i
      simp [hth, Local, Thread.hasToken, Pc.inside, Knows, Apart] at hknown
  | _ => simp [step, hth]

/-- **Recursive mutexes.** In every state that any number of threads reach, in any order of their
steps: at most one thread holds the mutex; it is the owner, the count is how often it holds it,
and it does not wait for itself; no assertion has failed; and where a thread is blocked, another
one has the mutex or is about to pass it on, and can take a step. -/
theorem recursiveMutex_runs (ls : List (ι × Bool)) (s : State ι)
    (hrun : Runs (OfFun step) init ls s) :
    (∀ i j, 0 < (s.threads i).depth → 0 < (s.threads j).depth → i = j) ∧
      (∀ i, 0 < (s.threads i).depth → s.owner = some i ∧ s.held = (s.threads i).depth ∧
        (s.threads i).pc ≠ .waiting ∧ (s.threads i).pc ≠ .blocked) ∧
      (∀ i, (s.threads i).pc ≠ .aborted) ∧
      ∀ i, (s.threads i).pc = .blocked →
        ∃ j, (s.threads j).hasToken = true ∧ (step s (j, false)).isSome := by
  have h : Inv s := hrun.invariant Inv (fun _ _ _ h hstep => step_inv h hstep) inv_init
  have hone : count Thread.hasToken s.threads ≤ 1 := by
    have htoken := h.token
    omega
  refine ⟨fun i j hi hj => ?_, fun i hi => ?_, fun i hi => ?_, fun i hi => ?_⟩
  · exact eq_of_count_le_one hone (Thread.hasToken_of_pos hi) (Thread.hasToken_of_pos hj)
  · have hknows := h.knows (Thread.hasToken_of_pos hi)
    rcases hth : s.threads i with ⟨pc, d⟩
    rw [hth] at hknows hi
    cases pc <;> simp_all [Knows]
  · have hknown := h.known i
    rw [Local] at hknown
    split_ifs at hknown with htoken
    · simp [Knows, hi] at hknown
    · exact hknown.2 hi
  · have hactive : s.notification.active = false := by
      by_contra hactive
      rw [Bool.not_eq_false] at hactive
      have hmem := (h.mem_queue i).mpr hi
      rw [h.queue_nil hactive] at hmem
      exact List.not_mem_nil hmem
    have hcount : count Thread.hasToken s.threads ≠ 0 := by
      have htoken := h.token
      rw [hactive, Bool.toNat_false] at htoken
      omega
    obtain ⟨j, hj⟩ := exists_of_count_ne_zero hcount
    refine ⟨j, hj, step_isSome h fun hblocked => ?_⟩
    have hknows := h.knows hj
    simp [Knows, hblocked] at hknows

/-- A thread has locked twice, and another one is blocked. -/
theorem recursiveMutex_runs_twice : ∃ s : State (Fin 2), s.held = 2 ∧ s.owner = some 0 ∧
    ∃ j, (s.threads j).hasToken = true ∧ (step s (j, false)).isSome := by
  obtain ⟨s, hrun, hheld, hdepth, hblocked⟩ : ∃ s : State (Fin 2), Runs (OfFun step) init
      (List.replicate 14 (0, false) ++ List.replicate 3 (1, false)) s ∧
      s.held = 2 ∧ (s.threads 0).depth = 2 ∧ (s.threads 1).pc = .blocked :=
    ⟨_, runs_of_eval rfl, rfl, rfl, rfl⟩
  obtain ⟨-, howner, -, hfree⟩ := recursiveMutex_runs _ s hrun
  exact ⟨s, hheld, (howner 0 (by rw [hdepth]; decide)).1, hfree 1 hblocked⟩

end RecursiveMutex

end Sync
