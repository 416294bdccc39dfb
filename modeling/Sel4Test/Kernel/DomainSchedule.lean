import Sel4Test.Kernel.SchedulerRuns

/-!
The domain schedule divides the time among the domains.

`timerTick` counts the time of the current domain down, and `schedule` goes on to the next entry of
the domain schedule where that time is over. Nothing else moves the clock, whatever the threads do:
the current domain is decided by the number of ticks alone.

* `exec_clock`, `tick_clock`: what an operation does to the clock.
* `Position cfg n c`: the clock after `n` ticks.
* `domain_schedule`: the domain that the schedule has for the ticks so far is the current one.
-/

namespace Kernel.Sched

open Checked Exec

variable {cfg : Config} {s s' : State} {t n : ℕ}

/-! ### The clock -/

/-- The place in the domain schedule, with the domain and the time that is left for it. -/
structure Clock where
  idx : ℕ
  domain : ℕ
  time : ℕ

/-- The fields of the state that make up the clock. -/
def State.clock (s : State) : Clock := ⟨s.ksDomScheduleIdx, s.ksCurDomain, s.ksDomainTime⟩

variable {c c' : Clock}

/-- The clock of what the program returns is `c`. -/
def Still (c : Clock) (x : Except Fault State) : Prop := Only x fun s => s.clock = c

lemma enqueue_still (h : s.clock = c) : Still c (s.tcbSchedEnqueue cfg t) :=
  only_bind fun _ => only_pure h

lemma append_still (h : s.clock = c) : Still c (s.tcbSchedAppend cfg t) :=
  only_bind fun _ => only_pure h

lemma dequeue_still (h : s.clock = c) : Still c (s.tcbSchedDequeue cfg t) :=
  only_bind fun _ => only_pure h

lemma rescheduleRequired_still (h : s.clock = c) : Still c (s.rescheduleRequired cfg) := by
  refine Only.bind (P := fun s => s.clock = c) ?_ fun s₁ h₁ => only_pure h₁
  split
  · exact enqueue_still h
  · exact only_pure h

lemma setThreadState_still {ts : TsType} (h : s.clock = c) :
    Still c (s.setThreadState cfg t ts) := by
  rw [State.setThreadState, State.scheduleTCB]
  split_ifs
  · exact rescheduleRequired_still h
  · exact only_pure h

lemma possibleSwitchTo_still (h : s.clock = c) : Still c (s.possibleSwitchTo cfg t) := by
  rw [State.possibleSwitchTo]
  split_ifs
  · exact enqueue_still h
  · exact (rescheduleRequired_still h).bind fun s₁ h₁ => enqueue_still h₁
  · exact only_pure h

lemma wake_still {ts : TsType} (h : s.clock = c) : Still c (s.wake cfg t ts) :=
  (setThreadState_still h).bind fun _ h₁ => possibleSwitchTo_still h₁

lemma setPriority_still {prio : ℕ} (h : s.clock = c) : Still c (s.setPriority cfg t prio) := by
  refine (dequeue_still h).bind fun s₁ h₁ => ?_
  dsimp only
  split_ifs
  · exact rescheduleRequired_still h₁
  · exact possibleSwitchTo_still h₁
  · exact only_pure h₁

lemma setDomain_still {dom : ℕ} (h : s.clock = c) : Still c (s.setDomain cfg t dom) := by
  refine (dequeue_still h).bind fun s₁ h₁ => ?_
  refine Only.bind (P := fun s => s.clock = c) ?_ fun s₂ h₂ => ?_
  · split_ifs
    · exact enqueue_still h₁
    · exact only_pure h₁
  · split_ifs
    · exact rescheduleRequired_still h₂
    · exact only_pure h₂

lemma handleYield_still (h : s.clock = c) : Still c (s.handleYield cfg) :=
  (dequeue_still h).bind fun _ h₁ => (append_still h₁).bind fun _ h₂ => rescheduleRequired_still h₂

lemma cancelIPC_still (h : s.clock = c) : Still c (s.cancelIPC cfg t) := by
  rw [State.cancelIPC]
  split
  · exact setThreadState_still h
  · exact setThreadState_still h
  · exact setThreadState_still h
  · exact only_pure h

lemma suspend_still (h : s.clock = c) : Still c (s.suspend cfg t) :=
  (cancelIPC_still h).bind fun _ h₁ =>
    (setThreadState_still h₁).bind fun _ h₂ => dequeue_still h₂

lemma restart_still (h : s.clock = c) : Still c (s.restart cfg t) := by
  rw [State.restart]
  split_ifs
  · exact (cancelIPC_still h).bind fun _ h₁ => (setThreadState_still h₁).bind fun _ h₂ =>
      (enqueue_still h₂).bind fun _ h₃ => possibleSwitchTo_still h₃
  · exact only_pure h

lemma restartAll_still {threads : List ℕ} (h : s.clock = c) :
    Still c (s.restartAll cfg threads) := by
  refine Only.bind (only_foldlM (Q := fun s => s.clock = c) (fun s₁ u h₁ => ?_) h threads)
    fun s₁ h₁ => rescheduleRequired_still h₁
  exact (setThreadState_still h₁).bind fun s₂ h₂ => enqueue_still h₂

lemma activateThread_still (h : s.clock = c) : Still c (s.activateThread cfg) := by
  rw [State.activateThread]
  split
  · exact only_pure h
  · exact only_pure h
  · exact setThreadState_still h
  · exact only_error

lemma switchToThread_still (h : s.clock = c) : Still c (s.switchToThread cfg t) :=
  (dequeue_still h).bind fun _ h₁ => only_pure h₁

lemma chooseThread_still (h : s.clock = c) : Still c (s.chooseThread cfg) := by
  rw [State.chooseThread]
  generalize (if 1 < cfg.numDomains then s.ksCurDomain else 0) = dom
  split_ifs
  · exact only_bind fun _ => only_bind fun _ => only_bind fun _ => only_bind fun _ =>
      switchToThread_still h
  · exact only_pure h

/-! ### Steps of the clock -/

/-- The entry of the domain schedule that follows. -/
def Config.next (cfg : Config) (idx : ℕ) : ℕ :=
  if cfg.ksDomSchedule.length ≤ idx + 1 then 0 else idx + 1

/-- The clock stays, or goes on to the next entry because the time is over. -/
def Advances (cfg : Config) (c c' : Clock) : Prop :=
  c' = c ∨ c.time = 0 ∧ ∃ d, cfg.ksDomSchedule[cfg.next c.idx]? = some d ∧
    c' = ⟨cfg.next c.idx, d.1, d.2⟩

lemma Still.advances {x : Except Fault State} (h : Still c x) :
    Only x fun s' => Advances cfg c s'.clock := h.mono fun _ h' => .inl h'

lemma scheduleChooseNewThread_clock (h : s.clock = c) :
    Only (s.scheduleChooseNewThread cfg) fun s' => Advances cfg c s'.clock := by
  subst h
  refine Only.bind (P := fun s' => Advances cfg s.clock s'.clock) ?_ fun s₁ h₁ => ?_
  · split_ifs with htime
    · rw [State.nextDomain]
      split
      · rename_i d hd
        exact only_pure (.inr ⟨htime, d, hd, rfl⟩)
      · exact only_error
    · exact only_pure (.inl rfl)
  · refine (chooseThread_still rfl).mono fun s₂ h₂ => ?_
    rw [h₂]
    exact h₁

lemma scheduleSwitch_clock {wasRunnable : Bool} (h : s.clock = c) :
    Only (s.scheduleSwitch cfg wasRunnable t) fun s' => Advances cfg c s'.clock := by
  rw [State.scheduleSwitch]
  dsimp only
  refine only_bind fun _ => only_bind fun high => ?_
  split_ifs
  · exact (enqueue_still h).bind fun s₁ h₁ => scheduleChooseNewThread_clock h₁
  · exact (append_still h).bind fun s₁ h₁ => scheduleChooseNewThread_clock h₁
  · exact only_bind fun _ => (switchToThread_still h).advances

lemma schedule_clock : Only (s.schedule cfg) fun s' => Advances cfg s.clock s'.clock := by
  rw [State.schedule]
  refine Only.bind (P := fun s' => Advances cfg s.clock s'.clock) ?_ fun s₁ h₁ => only_pure h₁
  split_ifs
  · refine Only.bind (P := fun s' => s'.clock = s.clock) ?_ fun s₁ h₁ => ?_
    · split_ifs
      · exact enqueue_still rfl
      · exact only_pure rfl
    · split
      · exact scheduleSwitch_clock h₁
      · exact scheduleChooseNewThread_clock h₁
  · exact only_pure (.inl rfl)

/-- The operation is a tick of the timer. -/
def Op.isTick : Op → Bool
  | .timerTick => true
  | _ => false

/-- **Only ticks and `schedule` move the clock**, and `schedule` only where the time is over. -/
lemma exec_clock (op : Op) (hop : op.isTick = false) :
    Only (exec cfg s op) fun s' => Advances cfg s.clock s'.clock := by
  cases op with
  | setCurrent ts => exact (setThreadState_still rfl).advances
  | setWaiting t ts => exact (setThreadState_still rfl).advances
  | wake t ts => exact (wake_still rfl).advances
  | restartAll threads => exact (restartAll_still rfl).advances
  | suspend t => exact (suspend_still rfl).advances
  | restart t => exact (restart_still rfl).advances
  | setPriority t prio => exact (setPriority_still rfl).advances
  | setDomain t dom => exact (setDomain_still rfl).advances
  | timerTick => cases hop
  | yield => exact (handleYield_still rfl).advances
  | reschedule => exact (rescheduleRequired_still rfl).advances
  | schedule =>
      refine schedule_clock.bind fun s₁ h₁ => (activateThread_still rfl).mono fun s₂ h₂ => ?_
      rw [h₂]
      exact h₁

/-- A tick takes one from the time, if there are several domains. -/
lemma tick_clock (hmany : 1 < cfg.numDomains) :
    Still { s.clock with time := decrement s.ksDomainTime } (s.timerTick cfg) := by
  refine Only.bind (P := fun s' => s'.clock = s.clock) ?_ fun s₁ h₁ => ?_
  · dsimp only
    split_ifs
    · exact only_pure rfl
    · exact Only.bind (append_still rfl) fun s₁ h₁ => rescheduleRequired_still h₁
    · exact only_pure rfl
  · have htime : s₁.ksDomainTime = s.ksDomainTime := congrArg Clock.time h₁
    rw [if_pos hmany, ← h₁, ← htime]
    dsimp only
    split_ifs
    · exact rescheduleRequired_still rfl
    · exact only_pure rfl

/-! ### The position -/

/-- The domain of every tick in a part of the domain schedule. -/
def slotsOf (l : List (ℕ × ℕ)) : List ℕ := l.flatMap fun d => List.replicate d.2 d.1

/-- The domain of every tick in one round of the domain schedule. -/
def Config.slots (cfg : Config) : List ℕ := slotsOf cfg.ksDomSchedule

lemma slotsOf_take_succ {l : List (ℕ × ℕ)} {k : ℕ} {d : ℕ × ℕ} (h : l[k]? = some d) :
    slotsOf (l.take (k + 1)) = slotsOf (l.take k) ++ List.replicate d.2 d.1 := by
  rw [slotsOf, slotsOf, List.take_add_one, h, List.flatMap_append]
  simp

lemma length_slotsOf_take_succ {l : List (ℕ × ℕ)} {k : ℕ} {d : ℕ × ℕ} (h : l[k]? = some d) :
    (slotsOf (l.take (k + 1))).length = (slotsOf (l.take k)).length + d.2 := by
  rw [slotsOf_take_succ h, List.length_append, List.length_replicate]

/-- The slots of a part of the schedule come first. -/
lemma slots_eq_append (cfg : Config) (k : ℕ) :
    cfg.slots = slotsOf (cfg.ksDomSchedule.take k) ++ slotsOf (cfg.ksDomSchedule.drop k) := by
  rw [slotsOf, slotsOf, ← List.flatMap_append, List.take_append_drop]
  rfl

lemma mem_slots {dom : ℕ} (h : dom ∈ cfg.slots) : dom < cfg.numDomains := by
  obtain ⟨d, hd, hdom⟩ := List.mem_flatMap.mp h
  rw [List.eq_of_mem_replicate hdom]
  exact (cfg.domains d hd).1

/-- The first entry of the domain schedule. -/
lemma head_entry (cfg : Config) :
    cfg.ksDomSchedule[0]? = some (cfg.ksDomSchedule.head cfg.schedule) := by
  rw [← List.head?_eq_getElem?, List.head?_eq_some_head]

lemma slots_pos : 0 < cfg.slots.length := by
  obtain ⟨-, hpos, -⟩ := cfg.domains _ (List.head_mem cfg.schedule)
  have hlen := length_slotsOf_take_succ (head_entry cfg)
  rw [slots_eq_append cfg (0 + 1), List.length_append]
  omega

/-- After `n` ticks the clock is in an entry of the domain schedule, as far from its end as there
is time left. -/
structure Position (cfg : Config) (n : ℕ) (c : Clock) : Prop where
  entry : ∃ length, cfg.ksDomSchedule[c.idx]? = some (c.domain, length) ∧ c.time ≤ length
  ends : n + c.time ≡ (slotsOf (cfg.ksDomSchedule.take (c.idx + 1))).length
    [MOD cfg.slots.length]

/-- **While there is time left, the schedule has the current domain for the tick.** -/
lemma Position.slot (h : Position cfg n c) (htime : c.time ≠ 0) :
    cfg.slots[n % cfg.slots.length]? = some c.domain := by
  obtain ⟨length, hentry, hle⟩ := h.entry
  have hends := h.ends
  have hslots := slots_eq_append cfg (c.idx + 1)
  rw [slotsOf_take_succ hentry] at hslots
  rw [length_slotsOf_take_succ hentry] at hends
  generalize slotsOf (cfg.ksDomSchedule.take c.idx) = before at hslots hends
  generalize slotsOf (cfg.ksDomSchedule.drop (c.idx + 1)) = after at hslots
  have hlength : before.length + length ≤ cfg.slots.length := by
    rw [hslots, List.length_append, List.length_append, List.length_replicate]
    exact Nat.le_add_right _ _
  have hpast : n ≡ before.length + (length - c.time) [MOD cfg.slots.length] := by
    refine Nat.ModEq.add_right_cancel' c.time ?_
    rwa [Nat.add_assoc, Nat.sub_add_cancel hle]
  calc cfg.slots[n % cfg.slots.length]?
      = cfg.slots[before.length + (length - c.time)]? := by
        rw [hpast, Nat.mod_eq_of_lt (by omega)]
    _ = (List.replicate length c.domain ++ after)[length - c.time]? := by
        rw [hslots, List.append_assoc, List.getElem?_append_right (by omega),
          Nat.add_sub_cancel_left]
    _ = some c.domain := by
        rw [List.getElem?_append_left (by rw [List.length_replicate]; omega),
          List.getElem?_replicate, if_pos (by omega)]

lemma Position.tick (h : Position cfg n c) (htime : c.time ≠ 0) :
    Position cfg (n + 1) { c with time := decrement c.time } := by
  obtain ⟨length, hentry, hle⟩ := h.entry
  have hdec : decrement c.time = c.time - 1 := if_neg htime
  have hsum : n + 1 + (c.time - 1) = n + c.time := by omega
  refine ⟨⟨length, hentry, by dsimp only; omega⟩, ?_⟩
  dsimp only
  rw [hdec, hsum]
  exact h.ends

/-- The next entry begins where the last one ends, or with a new round. -/
lemma Position.advances (h : Position cfg n c) (hadv : Advances cfg c c') :
    Position cfg n c' := by
  rcases hadv with rfl | ⟨htime, d, hd, rfl⟩
  · exact h
  refine ⟨⟨d.2, hd, le_rfl⟩, ?_⟩
  dsimp only
  have hends := h.ends
  obtain ⟨length, hentry, -⟩ := h.entry
  have hlt := (List.getElem?_eq_some_iff.mp hentry).1
  rw [htime, Nat.add_zero] at hends
  rw [length_slotsOf_take_succ hd]
  refine Nat.ModEq.add_right _ (hends.trans ?_)
  rw [Config.next]
  split_ifs with hlast
  · rw [List.take_of_length_le hlast]
    exact (Nat.modEq_zero_iff_dvd.mpr dvd_rfl)
  · rfl

lemma position_boot (idle initial : ℕ) : Position cfg 0 (boot cfg idle initial).clock := by
  refine ⟨⟨_, head_entry cfg, le_rfl⟩, ?_⟩
  have hlen := length_slotsOf_take_succ (head_entry cfg)
  have hnone : slotsOf (cfg.ksDomSchedule.take 0) = [] := rfl
  rw [hnone, List.length_nil] at hlen
  exact hlen.symm ▸ rfl

/-! ### Runs -/

/-- One entry of the kernel: operations, of which at most one is a tick, and `schedule`. -/
def Entry (cfg : Config) (s : State) (ops : List Op) (s' : State) : Prop :=
  ops.countP Op.isTick ≤ 1 ∧ ∃ s₁, Runs (Step cfg) s ops s₁ ∧ Step cfg s₁ .schedule s'

/-- The kernel has decided which thread runs. -/
structure Settles (cfg : Config) (s : State) : Prop where
  inv : Inv cfg False ∅ s
  decided : s.ksSchedulerAction ≠ .chooseNewThread

lemma Settles.time_ne (h : Settles cfg s) : s.ksDomainTime ≠ 0 := fun hzero =>
  h.decided (h.inv.expired hzero)

lemma Step.position (hmany : 1 < cfg.numDomains) {op : Op} (h : Position cfg n s.clock)
    (hstep : Step cfg s op s') (htime : op.isTick = true → s.ksDomainTime ≠ 0) :
    Position cfg (n + [op].countP Op.isTick) s'.clock ∧
      (op.isTick = false → s.ksDomainTime ≠ 0 → s'.ksDomainTime ≠ 0) := by
  cases hop : op.isTick with
  | false =>
      have hadv := exec_clock op hop s' hstep.2
      refine ⟨by simpa [hop] using h.advances hadv, fun _ hne => ?_⟩
      rcases hadv with hsame | ⟨hzero, -⟩
      · have htime' : s'.ksDomainTime = s.ksDomainTime := congrArg Clock.time hsame
        rw [htime']
        exact hne
      · exact absurd hzero hne
  | true =>
      obtain rfl : op = .timerTick := by cases op <;> first | rfl | cases hop
      have hclock := tick_clock hmany s' hstep.2
      refine ⟨?_, fun hnot => by cases hnot⟩
      rw [hclock]
      exact h.tick (htime hop)

/-- The clock in the course of an entry: the one tick comes while there is time left. -/
lemma position_of_runs (hmany : 1 < cfg.numDomains) {ops : List Op}
    (hrun : Runs (Step cfg) s ops s') (h : Position cfg n s.clock) (htime : s.ksDomainTime ≠ 0)
    (honce : ops.countP Op.isTick ≤ 1) :
    Position cfg (n + ops.countP Op.isTick) s'.clock ∧
      (ops.countP Op.isTick = 0 → s'.ksDomainTime ≠ 0) := by
  induction hrun with
  | nil => exact ⟨h, fun _ => htime⟩
  | @snoc ops s₁ op s₂ _ hlast ih =>
      rw [List.countP_append] at honce ⊢
      obtain ⟨h₁, hkept⟩ := ih (by omega)
      rw [← Nat.add_assoc]
      have hone : op.isTick = true → [op].countP Op.isTick = 1 := fun hop => by
        rw [List.countP_singleton, if_pos hop]
      have hstep := Step.position hmany h₁ hlast fun hop => hkept (by have := hone hop; omega)
      refine ⟨hstep.1, fun hnone => ?_⟩
      have hop : op.isTick = false := by
        by_contra hop
        have := hone (Bool.eq_true_of_not_eq_false hop)
        omega
      exact hstep.2 hop (hkept (by omega))

lemma settles_boot {idle initial : ℕ} (hne : idle ≠ initial) :
    Settles cfg (boot cfg idle initial) := ⟨inv_boot hne, fun haction => by cases haction⟩

/-- An entry ends with a decision. -/
lemma Entry.settles {ops : List Op} (h : Settles cfg s) (hentry : Entry cfg s ops s') :
    Settles cfg s' := by
  obtain ⟨-, s₁, hrun, hlast⟩ := hentry
  have h₁ : Inv cfg False ∅ s₁ := hrun.invariant (Inv cfg False ∅)
    (fun _ _ _ h hstep => hstep.inv h False.elim) h.inv
  obtain ⟨s₂, hok, h₂, haction⟩ := schedule_spec h₁
  rw [hlast.2] at hok
  obtain rfl := Except.ok.inj hok
  refine ⟨h₂, fun hchoose => ?_⟩
  rw [haction] at hchoose
  cases hchoose

/-- An entry moves the clock on by its ticks. -/
lemma Entry.position (hmany : 1 < cfg.numDomains) {ops : List Op} (h : Position cfg n s.clock)
    (htime : s.ksDomainTime ≠ 0) (hentry : Entry cfg s ops s') :
    Position cfg (n + ops.countP Op.isTick) s'.clock := by
  obtain ⟨honce, s₁, hrun, hlast⟩ := hentry
  obtain ⟨h₁, -⟩ := position_of_runs hmany hrun h htime honce
  exact (Step.position hmany h₁ hlast fun hop => by cases hop).1

lemma position_of_entries (hmany : 1 < cfg.numDomains) {entries : List (List Op)}
    (hrun : Runs (Entry cfg) s entries s') (h : Position cfg n s.clock) (hsettles : Settles cfg s) :
    Position cfg (n + entries.flatten.countP Op.isTick) s'.clock := by
  induction hrun with
  | nil => exact h
  | @snoc entries s₁ ops s₂ hfirst hlast ih =>
      have h₁ : Settles cfg s₁ :=
        hfirst.invariant (Settles cfg) (fun _ _ _ h hentry => hentry.settles h) hsettles
      rw [List.flatten_append, List.countP_append, ← Nat.add_assoc, List.flatten_singleton]
      exact hlast.position hmany ih h₁.time_ne

/-- The timer can always tick. -/
lemma Settles.goes_on (h : Settles cfg s) : ∃ s', Entry cfg s [.timerTick] s' := by
  obtain ⟨s₁, hok₁, h₁⟩ := timerTick_spec h.inv
  obtain ⟨s₂, hok₂, -⟩ := schedule_spec h₁
  exact ⟨s₂, le_rfl, s₁, .cons ⟨trivial, hok₁⟩ .nil, trivial, hok₂⟩

/-- **The domain schedule divides the time.** In every run of the kernel, whatever its threads do,
the current domain is the one that the domain schedule, taken round and round, has for the number
of ticks so far, and the current thread is one of that domain, or the idle thread. The timer can
always tick again. -/
theorem domain_schedule (cfg : Config) (idle initial : ℕ) (hne : idle ≠ initial)
    (entries : List (List Op)) (s : State)
    (hrun : Runs (Entry cfg) (boot cfg idle initial) entries s) :
    cfg.slots[entries.flatten.countP Op.isTick % cfg.slots.length]? = some s.ksCurDomain ∧
      (s.ksCurThread = s.ksIdleThread ∨ s.tcbDomain s.ksCurThread = s.ksCurDomain) ∧
      ∃ s', Entry cfg s [.timerTick] s' := by
  have h : Settles cfg s := hrun.invariant (Settles cfg)
    (fun _ _ _ h hentry => hentry.settles h) (settles_boot hne)
  refine ⟨?_, h.inv.home h.decided, h.goes_on⟩
  by_cases hmany : 1 < cfg.numDomains
  · have hposition := position_of_entries hmany hrun (position_boot idle initial) (settles_boot hne)
    rw [Nat.zero_add] at hposition
    exact hposition.slot h.time_ne
  · -- There is only the domain 0, and ticks are not counted.
    have hlt : entries.flatten.countP Op.isTick % cfg.slots.length < cfg.slots.length :=
      Nat.mod_lt _ slots_pos
    have hdomain := h.inv.domain
    have hslot := mem_slots (List.getElem_mem hlt)
    rw [List.getElem?_eq_getElem hlt]
    congr 1
    omega

/-- Two domains, the first for two ticks and the second for one. -/
def dual : Config :=
  { single with
    numDomains := 2
    ksDomSchedule := [(0, 2), (1, 1)]
    schedule := by decide
    domains := by decide }

/-- An evaluation is an entry. -/
lemma entry_of_eval {ops : List Op} {s₁ : State} (honce : ops.countP Op.isTick ≤ 1)
    (h : runFun (fun s op => decide (op.Allowed cfg s ∧ op.Orderly s))
      (fun s op => (exec cfg s op).toOption) s ops = some s₁)
    (hlast : exec cfg s₁ .schedule = .ok s') : Entry cfg s ops s' :=
  ⟨honce, s₁, (steps_of_eval h).mono fun _ _ _ hstep => hstep.1, trivial, hlast⟩

/-- At the second tick the initial thread has to stop. -/
theorem domain_schedule_dual : ∃ s : State, s.ksCurThread = s.ksIdleThread ∧ s.isRunnable 2 ∧
    dual.slots[2 % dual.slots.length]? = some s.ksCurDomain := by
  obtain ⟨s₁, s₂, s₃, h₁, h₂, h₃, hidle, hready⟩ : ∃ s₁ s₂ s₃ : State,
      Entry dual (boot dual 1 2) [] s₁ ∧ Entry dual s₁ [.timerTick] s₂ ∧
      Entry dual s₂ [.timerTick] s₃ ∧ s₃.ksCurThread = s₃.ksIdleThread ∧ s₃.isRunnable 2 :=
    ⟨_, _, _, entry_of_eval (by decide) rfl rfl, entry_of_eval (by decide) rfl rfl,
      entry_of_eval (by decide) rfl rfl, rfl, .inl rfl⟩
  have hrun : Runs (Entry dual) (boot dual 1 2) [[], [.timerTick], [.timerTick]] s₃ :=
    .cons h₁ (.cons h₂ (.cons h₃ .nil))
  obtain ⟨hslot, -⟩ := domain_schedule dual 1 2 (by decide) _ s₃ hrun
  exact ⟨s₃, hidle, hready, hslot⟩

end Kernel.Sched
