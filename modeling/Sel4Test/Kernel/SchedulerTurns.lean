import Sel4Test.Kernel.SchedulerRuns

/-!
The runnable threads of the highest priority take turns.

A turn is a number of timer ticks that leave time in the slice of the current thread, and then a
yield or the tick that uses the slice up; `schedule` follows each of them. `Front s ts` says that
`ts` are the runnable threads of the highest priority in the current domain, in the order of their
turns, the current thread first.

* `Front.keep`: a tick that leaves time in the slice leaves the order as it is.
* `Front.pass`: the end of a turn brings the current thread to the end of the list.
* `round_robin`: every thread of the list gets its turn.
-/

namespace Kernel.Sched

open Checked LevelBitmap Exec
open LinkedQueue (Queue Holds Placed)
open Function (update update_self update_of_ne)

variable {cfg : Config} {s s' : State} {op : Op} {t : ℕ} {ts : List ℕ}

/-- The threads that take turns. -/
structure Front (cfg : Config) (s : State) (ts : List ℕ) : Prop where
  inv : Inv cfg True ∅ s
  resume : s.ksSchedulerAction = .resumeCurrentThread
  running : s.tsType s.ksCurThread = .running
  turns : ∃ L, Wf cfg s.toReadyQueues s.tcbDomain s.tcbPriority L ∧
    ts = s.ksCurThread :: L (cfg.index s.ksCurDomain (s.tcbPriority s.ksCurThread))

/-- A tick of the timer does not end the time of the domain. -/
def DomainLasts (cfg : Config) (s : State) : Prop :=
  1 < cfg.numDomains → decrement s.ksDomainTime ≠ 0

/-- A tick of the timer that leaves time in the slice of the current thread, and in the domain. -/
def KeepsTurn (cfg : Config) (s : State) (op : Op) : Prop :=
  op = .timerTick ∧ 1 < s.tcbTimeSlice s.ksCurThread ∧ DomainLasts cfg s

/-- The turn of the current thread ends, and the time of the domain does not. -/
def EndsTurn (cfg : Config) (s : State) (op : Op) : Prop :=
  op = .yield ∨ op = .timerTick ∧ s.tcbTimeSlice s.ksCurThread ≤ 1 ∧ DomainLasts cfg s

/-- A step of a turn: the operation by which the current thread enters the kernel, and the decision
after it. -/
def TurnStep (cfg : Config) (cond : State → Op → Prop) (s : State) (op : Op) (s'' : State) : Prop :=
  cond s op ∧ ∃ s', exec cfg s op = .ok s' ∧ exec cfg s' .schedule = .ok s''

/-- The ticks of a turn before its end. -/
abbrev Ticks (cfg : Config) : State → List Op → State → Prop :=
  Runs (TurnStep cfg (KeepsTurn cfg))

/-- One turn: ticks that leave time in the slice, and then its end. -/
def Turn (cfg : Config) (s : State) (ops : List Op) (s'' : State) : Prop :=
  ∃ ticks s' op, ops = ticks ++ [op] ∧ Ticks cfg s ticks s' ∧
    TurnStep cfg (EndsTurn cfg) s' op s''

/-- What a tick does that leaves time in the slice. -/
def State.ticked (cfg : Config) (s : State) : State := { s with
  tcbTimeSlice := update s.tcbTimeSlice s.ksCurThread (s.tcbTimeSlice s.ksCurThread - 1)
  ksDomainTime := if 1 < cfg.numDomains then decrement s.ksDomainTime else s.ksDomainTime }

/-- What the end of a turn leaves for `schedule`. -/
structure Ended (cfg : Config) (s s' : State) (L : ℕ → List ℕ) : Prop where
  same : ∃ slices time, time ≠ 0 ∧ s'.toScheduling = { s.toScheduling with
    tcbTimeSlice := slices
    ksDomainTime := time
    ksSchedulerAction := .chooseNewThread }
  queues : Wf cfg s'.toReadyQueues s.tcbDomain s.tcbPriority
    (update L (cfg.index s.ksCurDomain (s.tcbPriority s.ksCurThread))
      (L (cfg.index s.ksCurDomain (s.tcbPriority s.ksCurThread)) ++ [s.ksCurThread]))
  flag : s'.tcbQueued = update s.tcbQueued s.ksCurThread true

namespace Front

lemma runnable (h : Front cfg s ts) : s.isRunnable s.ksCurThread := .inl h.running

lemma not_idle (h : Front cfg s ts) : s.ksCurThread ≠ s.ksIdleThread := by
  intro hidle
  have hrun := h.runnable
  rw [hidle] at hrun
  exact h.inv.toCore.idle_not_runnable hrun

lemma choose_ne (h : Front cfg s ts) : s.ksSchedulerAction ≠ .chooseNewThread := by
  rw [h.resume]
  simp

lemma not_queued (h : Front cfg s ts) : s.tcbQueued s.ksCurThread = false := by
  by_contra hqueued
  rw [Bool.not_eq_false] at hqueued
  exact h.choose_ne (h.inv.aside (Set.notMem_empty _) hqueued)

lemma domain_eq (h : Front cfg s ts) : s.tcbDomain s.ksCurThread = s.ksCurDomain :=
  (h.inv.home h.choose_ne).resolve_left h.not_idle

lemma time_ne (h : Front cfg s ts) : s.ksDomainTime ≠ 0 := fun hzero =>
  h.choose_ne (h.inv.expired hzero)

/-- `schedule` leaves a thread alone that may go on. -/
lemma schedule (h : Front cfg s ts) : exec cfg s .schedule = .ok s := by
  have hresume : { s with ksSchedulerAction := .resumeCurrentThread } = s := by
    rw [← h.resume]
  have hgo : s.schedule cfg = .ok s := by
    rw [State.schedule, if_neg (not_not.mpr h.resume)]
    exact congrArg Except.ok hresume
  have hactive : s.activateThread cfg = .ok s := by
    rw [State.activateThread, h.running]
    rfl
  rw [exec, hgo]
  exact hactive

lemma ticked (h : Front cfg s ts) (hlasts : DomainLasts cfg s) : Front cfg (s.ticked cfg) ts := by
  have hinv : Inv cfg True ∅ { s with
      tcbTimeSlice := (s.ticked cfg).tcbTimeSlice } :=
    ⟨⟨h.inv.queues, h.inv.range, h.inv.ready, h.inv.idle, h.inv.domain⟩, h.inv.found, h.inv.target,
      h.inv.resume, h.inv.aside, h.inv.home, h.inv.expired, h.inv.fair⟩
  have htime : (s.ticked cfg).ksDomainTime ≠ 0 := by
    rw [State.ticked]
    dsimp only
    split_ifs with hmany
    · exact hlasts hmany
    · exact h.time_ne
  exact ⟨hinv.tick htime, h.resume, h.running, h.turns⟩

/-- **A tick that leaves time in the slice** does not change who runs. -/
lemma keep (h : Front cfg s ts) (hop : KeepsTurn cfg s op) :
    exec cfg s op = .ok (s.ticked cfg) ∧ Front cfg (s.ticked cfg) ts := by
  obtain ⟨rfl, hslice, hlasts⟩ := hop
  refine ⟨?_, h.ticked hlasts⟩
  rw [exec, State.timerTick, if_pos h.running]
  dsimp only
  rw [if_pos hslice, State.ticked]
  by_cases hmany : 1 < cfg.numDomains
  · rw [if_pos hmany, pure_bind, if_pos hmany, if_neg (hlasts hmany)]
    rfl
  · rw [if_neg hmany, pure_bind, if_neg hmany]
    rfl

/-- The current thread goes to the end of its queue, whatever its time slice is. -/
lemma append (h : Front cfg s ts) {L : ℕ → List ℕ}
    (W : Wf cfg s.toReadyQueues s.tcbDomain s.tcbPriority L) (slices : ℕ → ℕ) :
    Gives ({ s with tcbTimeSlice := slices }.tcbSchedAppend cfg s.ksCurThread >>=
      fun s => s.rescheduleRequired cfg) fun s' => Ended cfg s s' L ∧
        s'.ksDomainTime = s.ksDomainTime := by
  refine (tcbSchedAppend_spec (s := { s with tcbTimeSlice := slices }) W h.inv.range
    h.not_queued).bind fun s₁ hs₁ => ?_
  obtain ⟨hsame, hW, hflag⟩ := hs₁
  obtain ⟨r, threads⟩ := s₁
  obtain rfl : threads = { s.toScheduling with tcbTimeSlice := slices } := hsame
  have hresume : s.ksSchedulerAction = .resumeCurrentThread := h.resume
  rw [State.rescheduleRequired]
  dsimp only at hW ⊢
  rw [hresume]
  rw [h.domain_eq] at hW
  exact gives_ok ⟨⟨⟨slices, s.ksDomainTime, h.time_ne, rfl⟩, hW, hflag⟩, rfl⟩

/-- **The end of a turn.** -/
lemma ends (h : Front cfg s ts) {L : ℕ → List ℕ}
    (W : Wf cfg s.toReadyQueues s.tcbDomain s.tcbPriority L) (hop : EndsTurn cfg s op) :
    Gives (exec cfg s op) fun s' => Ended cfg s s' L := by
  rcases hop with rfl | ⟨rfl, hslice, htime⟩
  · rw [exec, State.handleYield, State.tcbSchedDequeue, ReadyQueues.remove,
      if_neg (by simp [h.not_queued])]
    exact (h.append W s.tcbTimeSlice).mono fun s' hs' => hs'.1
  · rw [exec, State.timerTick, if_pos h.running]
    dsimp only
    rw [if_neg (not_lt.mpr hslice)]
    refine (h.append W _).bind fun s₁ hs₁ => ?_
    obtain ⟨⟨⟨slices, time, hne, hsame⟩, hW, hflag⟩, htime₁⟩ := hs₁
    by_cases hmany : 1 < cfg.numDomains
    · have hnext : decrement s₁.ksDomainTime ≠ 0 := by
        rw [htime₁]
        exact htime hmany
      rw [if_pos hmany, if_neg hnext]
      refine gives_ok ⟨⟨slices, _, hnext, ?_⟩, hW, hflag⟩
      dsimp only
      rw [hsame]
    · rw [if_neg hmany]
      exact gives_ok ⟨⟨slices, time, hne, hsame⟩, hW, hflag⟩

end Front

/-- **`schedule` takes the first thread of the queue** to which the current one has gone. -/
lemma Ended.schedule {L : ℕ → List ℕ} {s₁ : State} (h : Front cfg s (s.ksCurThread ::
    L (cfg.index s.ksCurDomain (s.tcbPriority s.ksCurThread)))) (h₁ : Inv cfg True ∅ s₁)
    (E : Ended cfg s s₁ L) : Gives (exec cfg s₁ .schedule) fun s' =>
      s'.tsType s'.ksCurThread = .running ∧ ∃ L',
        Wf cfg s'.toReadyQueues s'.tcbDomain s'.tcbPriority L' ∧
        L (cfg.index s.ksCurDomain (s.tcbPriority s.ksCurThread)) ++ [s.ksCurThread] =
          s'.ksCurThread :: L' (cfg.index s'.ksCurDomain (s'.tcbPriority s'.ksCurThread)) := by
  obtain ⟨⟨slices, time, htime, hsame⟩, W, hflag⟩ := E
  obtain ⟨r, threads⟩ := s₁
  obtain rfl : threads = _ := hsame
  have hready : ∀ u, r.tcbQueued u = true → s.isRunnable u := fun u hu =>
    h₁.ready u (Set.notMem_empty u) hu
  have hqueued : r.tcbQueued s.ksCurThread = true := by
    have hflag : r.tcbQueued = update s.tcbQueued s.ksCurThread true := hflag
    rw [hflag, update_self]
  obtain ⟨-, -, -, hmax⟩ := (h.inv.chosen h.resume).resolve_right fun hidle => h.not_idle hidle.1
  generalize hxs : L (cfg.index s.ksCurDomain (s.tcbPriority s.ksCurThread)) = xs at W h ⊢
  rw [exec, State.schedule]
  refine Gives.bind (P := fun s₂ => s₂.isRunnable s₂.ksCurThread ∧
    s₂.ksSchedulerAction = .resumeCurrentThread ∧
    ∃ L', Wf cfg s₂.toReadyQueues s₂.tcbDomain s₂.tcbPriority L' ∧
      xs ++ [s.ksCurThread] = s₂.ksCurThread ::
        L' (cfg.index s₂.ksCurDomain (s₂.tcbPriority s₂.ksCurThread))) ?_ fun s₂ hs₂ => ?_
  -- a new thread is chosen: the current one is queued already, at the tail of its queue
  · rw [if_pos (by simp)]
    refine Gives.bind (P := fun s₂ => s₂.isRunnable s₂.ksCurThread ∧
      ∃ L', Wf cfg s₂.toReadyQueues s₂.tcbDomain s₂.tcbPriority L' ∧
        xs ++ [s.ksCurThread] = s₂.ksCurThread ::
          L' (cfg.index s₂.ksCurDomain (s₂.tcbPriority s₂.ksCurThread))) ?_ fun s₂ hs₂ =>
      gives_ok ⟨hs₂.1, rfl, hs₂.2⟩
    have hcur : Scheduling.isRunnable { s.toScheduling with
        tcbTimeSlice := slices
        ksDomainTime := time
        ksSchedulerAction := .chooseNewThread } s.ksCurThread := h.runnable
    dsimp only
    rw [if_pos (decide_eq_true hcur), State.tcbSchedEnqueue, ReadyQueues.insert, if_pos hqueued]
    refine Gives.bind (gives_ok rfl) fun s₂ hs₂ => ?_
    subst hs₂
    dsimp only
    rw [State.scheduleChooseNewThread, if_neg htime]
    refine (chooseThread_spec (s := { toReadyQueues := r, toScheduling := { s.toScheduling with
      tcbTimeSlice := slices
      ksDomainTime := time
      ksSchedulerAction := .chooseNewThread } }) W h.inv.range h.inv.domain hready).mono
      fun s₃ hs₃ => ?_
    have hfull : update L (cfg.index s.ksCurDomain (s.tcbPriority s.ksCurThread))
        (xs ++ [s.ksCurThread]) (cfg.index s.ksCurDomain (s.tcbPriority s.ksCurThread)) ≠ [] := by
      rw [update_self]
      simp
    have hprio := (h.inv.range s.ksCurThread).2
    rcases hs₃ with ⟨p, t, ts, hp, hL, htop, hsame₃, hW, -⟩ | ⟨hnone, -⟩
    · obtain ⟨r₃, threads₃⟩ := s₃
      obtain rfl : threads₃ = _ := hsame₃
      obtain ⟨ht, hindex⟩ := W.mem_iff.mp (by rw [hL]; exact List.mem_cons_self)
      obtain ⟨hdomain, hpt⟩ := index_inj (h.inv.range t).1 h.inv.domain (h.inv.range t).2 hp hindex
      have hle : p ≤ s.tcbPriority s.ksCurThread := hpt.ge.trans (hmax t (hready t ht) hdomain)
      have hge : s.tcbPriority s.ksCurThread ≤ p := htop _ hprio hfull
      -- the chosen priority is that of the current thread, whose queue is not empty and the
      -- highest
      obtain rfl : p = s.tcbPriority s.ksCurThread := le_antisymm hle hge
      dsimp only at hL hW
      rw [update_self] at hL
      refine ⟨hready t ht, _, hW, ?_⟩
      dsimp only
      rw [hpt, update_self]
      exact hL
    · exact absurd (hnone _ hprio) hfull
  · obtain ⟨hrun, haction, hturns⟩ := hs₂
    have hactive : s₂.tsType s₂.ksCurThread = .running ∨ s₂.tsType s₂.ksCurThread = .restart := hrun
    rw [State.activateThread]
    -- a thread that is to restart is set running as it is activated
    rcases hactive with htype | htype <;> rw [htype]
    · exact gives_ok ⟨htype, hturns⟩
    · dsimp only
      rw [setThreadState_eq]
      exact gives_ok ⟨update_self .., hturns⟩

/-- **The end of a turn**: the current thread goes to the end of the list. -/
lemma Front.pass (h : Front cfg s (t :: ts)) (hop : EndsTurn cfg s op) :
    ∃ s', TurnStep cfg (EndsTurn cfg) s op s' ∧ Front cfg s' (ts ++ [t]) := by
  obtain ⟨L, W, hlist⟩ := h.turns
  obtain ⟨rfl, rfl⟩ := List.cons.inj hlist
  have hallowed : op.Allowed cfg s := by
    rcases hop with rfl | ⟨rfl, -⟩
    · exact h.runnable
    · trivial
  have horderly : op.Orderly s := by
    rcases hop with rfl | ⟨rfl, -⟩ <;> trivial
  obtain ⟨s₁, hok₁, hended⟩ := h.ends W hop
  have h₁ : Inv cfg True ∅ s₁ := Step.inv h.inv ⟨hallowed, hok₁⟩ fun _ => horderly
  obtain ⟨s', hok', hrun, hturns⟩ := Ended.schedule h h₁ hended
  obtain ⟨s₂, hok₂, hinv, haction⟩ := schedule_spec h₁
  rw [hok'] at hok₂
  obtain rfl := Except.ok.inj hok₂
  exact ⟨s', ⟨hop, s₁, hok₁, hok'⟩, hinv, haction, hrun, hturns⟩

/-- A step has one result. -/
lemma TurnStep.result {cond cond' : State → Op → Prop} {s₁ s₂ : State}
    (h₁ : TurnStep cfg cond s op s₁) (h₂ : TurnStep cfg cond' s op s₂) : s₁ = s₂ := by
  obtain ⟨-, s₃, hok₃, hok₁⟩ := h₁
  obtain ⟨-, s₄, hok₄, hok₂⟩ := h₂
  rw [hok₃] at hok₄
  obtain rfl := Except.ok.inj hok₄
  rw [hok₁] at hok₂
  exact Except.ok.inj hok₂

/-- A tick that leaves time in the slice, with the decision after it. -/
lemma Front.keep_step (h : Front cfg s ts) (hop : KeepsTurn cfg s op) :
    TurnStep cfg (KeepsTurn cfg) s op (s.ticked cfg) := by
  obtain ⟨hok, hfront⟩ := h.keep hop
  exact ⟨hop, s.ticked cfg, hok, hfront.schedule⟩

/-- **The ticks of a turn** leave the list as it is. -/
lemma Front.ticks (h : Front cfg s ts) {ops : List Op} (hticks : Ticks cfg s ops s') :
    Front cfg s' ts := by
  refine hticks.invariant (Front cfg · ts) (fun s op s' hs hstep => ?_) h
  have hop : KeepsTurn cfg s op := hstep.1
  rw [hstep.result (hs.keep_step hop)]
  exact (hs.keep hop).2

/-- **One turn** brings the current thread to the end of the list. -/
lemma Turn.front (h : Front cfg s (t :: ts)) {ops : List Op} (hturn : Turn cfg s ops s') :
    Front cfg s' (ts ++ [t]) := by
  obtain ⟨ticks, s₁, op, -, hticks, hend⟩ := hturn
  obtain ⟨s₂, hstep, hfront⟩ := (h.ticks hticks).pass hend.1
  rwa [hend.result hstep]

/-- The list always has the current thread. -/
lemma Front.cons (h : Front cfg s ts) : ∃ us, ts = s.ksCurThread :: us := by
  obtain ⟨L, -, hlist⟩ := h.turns
  exact ⟨_, hlist⟩

/-- **A run of turns** rotates the list. -/
lemma Front.run (h : Front cfg s ts) {turns : List (List Op)} (hrun : Runs (Turn cfg) s turns s') :
    Front cfg s' (ts.rotate turns.length) := by
  induction hrun with
  | nil => simpa using h
  | snoc _ hturn ih =>
      obtain ⟨us, hus⟩ := ih.cons
      rw [List.length_append, List.length_singleton, ← List.rotate_rotate, hus,
        List.rotate_cons_succ, List.rotate_zero]
      rw [hus] at ih
      exact hturn.front ih

/-- The threads that take turns, in a state in which a thread runs. -/
lemma Inv.front (h : Inv cfg True ∅ s) (haction : s.ksSchedulerAction = .resumeCurrentThread)
    (hrun : s.tsType s.ksCurThread = .running) : ∃ ts : List ℕ, Front cfg s ts ∧ ts.Nodup ∧
      ∀ t, t ∈ ts ↔ s.isRunnable t ∧ s.tcbDomain t = s.ksCurDomain ∧
        s.tcbPriority t = s.tcbPriority s.ksCurThread := by
  obtain ⟨L, W⟩ := h.queues
  have hfront : Front cfg s (s.ksCurThread ::
      L (cfg.index s.ksCurDomain (s.tcbPriority s.ksCurThread))) :=
    ⟨h, haction, hrun, L, W, rfl⟩
  refine ⟨_, hfront, List.nodup_cons.mpr ⟨fun hmem => ?_, (W.placed.holds _).nodup⟩, fun t => ?_⟩
  · have hqueued := (W.mem_iff.mp hmem).1
    rw [hfront.not_queued] at hqueued
    cases hqueued
  · rw [List.mem_cons, W.mem_iff]
    constructor
    · rintro (rfl | ⟨hqueued, hindex⟩)
      · exact ⟨hfront.runnable, hfront.domain_eq, rfl⟩
      · obtain ⟨hdomain, hprio⟩ := index_inj (h.range t).1 h.domain (h.range t).2
          (h.range s.ksCurThread).2 hindex
        exact ⟨h.ready t (Set.notMem_empty t) hqueued, hdomain, hprio⟩
    · rintro ⟨ht, hdomain, hprio⟩
      rcases h.found t (Set.notMem_empty t) ht with hqueued | hcur | hswitch
      · exact .inr ⟨hqueued, by rw [hdomain, hprio]⟩
      · exact .inl hcur
      · rw [haction] at hswitch
        cases hswitch

/-- The current thread can give its turn away at once. -/
lemma Front.turn_yield (h : Front cfg s ts) : ∃ s', Turn cfg s [.yield] s' := by
  obtain ⟨us, hus⟩ := h.cons
  rw [hus] at h
  obtain ⟨s', hstep, -⟩ := h.pass (.inl rfl : EndsTurn cfg s .yield)
  exact ⟨s', [], s, .yield, rfl, .nil, hstep⟩

/-- The timer ends the turn after as many ticks as the slice has, if the domain has more. -/
lemma Front.turn_ticks {n : ℕ} (h : Front cfg s ts) (hslice : s.tcbTimeSlice s.ksCurThread - 1 = n)
    (htime : 1 < cfg.numDomains → n + 1 < s.ksDomainTime) :
    ∃ s', Turn cfg s (List.replicate (n + 1) .timerTick) s' := by
  have hlasts : DomainLasts cfg s := by
    intro hmany
    rw [decrement, if_neg h.time_ne]
    have := htime hmany
    omega
  induction n generalizing s with
  | zero =>
      obtain ⟨us, hus⟩ := h.cons
      rw [hus] at h
      have hop : EndsTurn cfg s .timerTick := .inr ⟨rfl, by omega, hlasts⟩
      obtain ⟨s', hstep, -⟩ := h.pass hop
      exact ⟨s', [], s, .timerTick, rfl, .nil, hstep⟩
  | succ n ih =>
      have hkeep : KeepsTurn cfg s .timerTick := ⟨rfl, by omega, hlasts⟩
      obtain ⟨-, hfront⟩ := h.keep hkeep
      have hslice' : (s.ticked cfg).tcbTimeSlice (s.ticked cfg).ksCurThread - 1 = n := by
        rw [State.ticked]
        dsimp only
        rw [update_self]
        omega
      have htime' : 1 < cfg.numDomains → n + 1 < (s.ticked cfg).ksDomainTime := by
        intro hmany
        rw [State.ticked]
        dsimp only
        rw [if_pos hmany, decrement, if_neg h.time_ne]
        have := htime hmany
        omega
      have hlasts' : DomainLasts cfg (s.ticked cfg) := by
        intro hmany
        rw [decrement, if_neg hfront.time_ne]
        have := htime' hmany
        omega
      obtain ⟨s', ticks, s₁, op, hops, hticks, hend⟩ := ih hfront hslice' htime' hlasts'
      refine ⟨s', .timerTick :: ticks, s₁, op, ?_, hticks.cons (h.keep_step hkeep), hend⟩
      rw [List.replicate_succ, hops, List.cons_append]

/-- **Round robin.** In every state in which user code runs, the runnable threads of the current
domain that have the priority of the current thread stand in an order, with the current thread
first, such that after any number of turns the thread of that number, counted round and round, is
the current one, and stays it through the ticks of its own turn. It can always end its turn by
yielding; and the timer ends it after as many ticks as are left in its slice, if the time of the
domain does not end before. -/
theorem round_robin (cfg : Config) (idle initial : ℕ) (hne : idle ≠ initial) (ops : List Op)
    (s : State) (hrun : Runs (OrderlyStep cfg) (boot cfg idle initial) ops s)
    (haction : s.ksSchedulerAction = .resumeCurrentThread)
    (hcur : s.tsType s.ksCurThread = .running) :
    ∃ ts : List ℕ, ts.head? = some s.ksCurThread ∧ ts.Nodup ∧
      (∀ t, t ∈ ts ↔ s.isRunnable t ∧ s.tcbDomain t = s.ksCurDomain ∧
        s.tcbPriority t = s.tcbPriority s.ksCurThread) ∧
      ∀ turns s₁, Runs (Turn cfg) s turns s₁ → ∀ ticks s₂, Ticks cfg s₁ ticks s₂ →
        ts[turns.length % ts.length]? = some s₂.ksCurThread ∧
        (∃ s₃, Turn cfg s₂ [.yield] s₃) ∧
        ((1 < cfg.numDomains → max 1 (s₂.tcbTimeSlice s₂.ksCurThread) < s₂.ksDomainTime) →
          ∃ s₃, Turn cfg s₂
            (List.replicate (max 1 (s₂.tcbTimeSlice s₂.ksCurThread)) .timerTick) s₃) := by
  have h : Inv cfg True ∅ s := hrun.invariant (Inv cfg True ∅)
    (fun _ _ _ h hstep => hstep.1.inv h fun _ => hstep.2) (inv_boot hne)
  obtain ⟨ts, hfront, hnodup, hmem⟩ := h.front haction hcur
  obtain ⟨us, hus⟩ := hfront.cons
  refine ⟨ts, by rw [hus]; rfl, hnodup, hmem, fun turns s₁ hturns ticks s₂ hticks => ?_⟩
  have h₂ : Front cfg s₂ (ts.rotate turns.length) := (hfront.run hturns).ticks hticks
  have hlen : max 1 (s₂.tcbTimeSlice s₂.ksCurThread) =
      s₂.tcbTimeSlice s₂.ksCurThread - 1 + 1 := by omega
  refine ⟨?_, h₂.turn_yield, fun htime => ?_⟩
  · obtain ⟨vs, hvs⟩ := h₂.cons
    have hpos : 0 < ts.length := by rw [hus]; simp
    have hlt : turns.length % ts.length < ts.length := Nat.mod_lt _ hpos
    rw [← List.rotate_mod] at hvs
    rw [← List.head?_rotate hlt, hvs]
    rfl
  · rw [hlen] at htime ⊢
    exact h₂.turn_ticks rfl htime

/-- Three threads of one priority: the timer ends the turn of the first one after five ticks, of
which four leave time in its slice. -/
theorem round_robin_three : ∃ s s', s.ksCurThread = 2 ∧
    Turn single s (List.replicate 5 .timerTick) s' ∧ ∃ ts : List ℕ, 2 ∈ ts ∧ 3 ∈ ts ∧ 4 ∈ ts ∧
      ts[1 % ts.length]? = some s'.ksCurThread ∧
      ∀ turns s₁, Runs (Turn single) s turns s₁ → ∀ ticks s₂, Ticks single s₁ ticks s₂ →
        ts[turns.length % ts.length]? = some s₂.ksCurThread := by
  obtain ⟨s, hrun, hcur, haction, hslice, htypes, hdomains, hprios⟩ : ∃ s,
      Runs (OrderlyStep single) (boot single 1 2) [.schedule, .setPriority 3 255,
        .setPriority 4 255, .wake 3 .running, .wake 4 .running, .schedule] s ∧
      s.ksCurThread = 2 ∧ s.ksSchedulerAction = .resumeCurrentThread ∧ s.tcbTimeSlice 2 = 5 ∧
      (s.tsType 2 = .running ∧ s.tsType 3 = .running ∧ s.tsType 4 = .running) ∧
      (s.tcbDomain 2 = s.ksCurDomain ∧ s.tcbDomain 3 = s.ksCurDomain ∧
        s.tcbDomain 4 = s.ksCurDomain) ∧
      s.tcbPriority 3 = s.tcbPriority 2 ∧ s.tcbPriority 4 = s.tcbPriority 2 :=
    ⟨_, steps_of_eval rfl, rfl, rfl, rfl, ⟨rfl, rfl, rfl⟩, ⟨rfl, rfl, rfl⟩, rfl, rfl⟩
  obtain ⟨ts, -, -, hmem, hturns⟩ := round_robin single 1 2 (by decide) _ s hrun haction
    (by rw [hcur]; exact htypes.1)
  have hticks := (hturns [] s .nil [] s .nil).2.2 fun hmany => absurd hmany (by decide)
  rw [hcur, hslice] at hticks
  obtain ⟨s', hturn⟩ := hticks
  have hnext := (hturns [List.replicate 5 .timerTick] s' (.cons hturn .nil) [] s' .nil).1
  rw [hcur] at hmem
  exact ⟨s, s', hcur, hturn, ts, (hmem 2).mpr ⟨.inl htypes.1, hdomains.1, rfl⟩,
    (hmem 3).mpr ⟨.inl htypes.2.1, hdomains.2.1, hprios.1⟩,
    (hmem 4).mpr ⟨.inl htypes.2.2, hdomains.2.2, hprios.2⟩, hnext,
    fun turns s₁ h₁ ticks s₂ h₂ => (hturns turns s₁ h₁ ticks s₂ h₂).1⟩

end Kernel.Sched
