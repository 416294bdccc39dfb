import Sel4Test.Kernel.Scheduler
import Sel4Test.Lib.Exec

/-!
The scheduler in every run of the kernel.

An operation is what the kernel does to the scheduler at one point: a thread blocks, a thread is
woken up, a timer interrupt comes, and so on; `schedule` stands for `schedule` with
`activateThread` at the end of a kernel entry. `Allowed` says what the callers promise.

* `Inv`: the queues are well-formed, no runnable thread is lost, and, where domains are set
  gently, no runnable thread of the current domain goes before the current one unnoticed.
* `exec_spec`: every operation keeps it, and no assertion fails.
* `scheduler_runs`, `schedule_highest`: what this says about runs.
-/

namespace Kernel.Sched

open Checked LevelBitmap Exec
open LinkedQueue (Queue Holds Placed)
open Function (update update_self update_of_ne)

/-! ### One operation on the queues -/

/-- What holds of the ready queues and of the threads in them; a thread that is `lost` may be in a
queue and not runnable. -/
structure Core (cfg : Config) (lost : Set ℕ) (s : State) : Prop where
  queues : ∃ L, Wf cfg s.toReadyQueues s.tcbDomain s.tcbPriority L
  range : InRange cfg s.tcbDomain s.tcbPriority
  ready : ∀ t, t ∉ lost → s.tcbQueued t = true → s.isRunnable t
  idle : s.tsType s.ksIdleThread = .idleThreadState
  domain : s.ksCurDomain < cfg.numDomains

variable {cfg : Config} {lost lost' : Set ℕ} {b : Prop} {s s' : State} {t u : ℕ} {ts : TsType}

/-- The ready queues differ, and in them the flag of one thread. -/
structure Requeued (t : ℕ) (queued : Bool) (s s' : State) : Prop where
  same : s'.toScheduling = s.toScheduling
  flag : s'.tcbQueued = update s.tcbQueued t queued

/-- A lost thread is found. -/
lemma found_subset : ({t} : Set ℕ) ⊆ insert t ∅ := by simp

/-- Where no thread is lost, none will be. -/
lemma kept_subset : (∅ : Set ℕ) ⊆ insert t ∅ := Set.empty_subset _

lemma Core.idle_not_runnable (h : Core cfg lost s) : ¬ s.isRunnable s.ksIdleThread := by
  rw [Scheduling.isRunnable, h.idle]
  simp

/-- Other ready queues for the same threads. -/
lemma Core.requeue (h : Core cfg lost s) {queued : Bool} (hsame : Requeued t queued s s')
    (hqueues : ∃ L, Wf cfg s'.toReadyQueues s.tcbDomain s.tcbPriority L)
    (ht : queued = true → s.isRunnable t) (hlost : lost ⊆ insert t lost') : Core cfg lost' s' := by
  have hready : ∀ u, u ∉ lost' → s'.tcbQueued u = true → s.isRunnable u := by
    intro u hu hqueued
    rw [hsame.flag] at hqueued
    by_cases hut : u = t
    · subst hut
      rw [update_self] at hqueued
      exact ht hqueued
    · rw [update_of_ne hut] at hqueued
      refine h.ready u (fun hmem => ?_) hqueued
      exact (hlost hmem).elim hut hu
  refine ⟨?_, ?_, ?_, ?_, ?_⟩ <;> rw [hsame.same]
  exacts [hqueues, h.range, hready, h.idle, h.domain]

/-- `tcbSchedEnqueue` and `tcbSchedAppend`. -/
lemma Core.put (h : Core cfg lost s) (ht : s.isRunnable t) (hlost : lost ⊆ insert t lost')
    {put : ReadyQueues → Queue ℕ → ℕ → Except Fault (Queue ℕ × ReadyQueues)}
    {at' : ℕ → List ℕ → List ℕ} (hput : Puts put at') :
    Gives (do
      let r ← s.toReadyQueues.insert cfg put (s.tcbDomain t) (s.tcbPriority t) t
      return { s with toReadyQueues := r }) fun s' =>
        Core cfg lost' s' ∧ Requeued t true s s' := by
  obtain ⟨L, W⟩ := h.queues
  cases hqueued : s.tcbQueued t with
  | true =>
      have hsame : Requeued t true s s :=
        ⟨rfl, by rw [← hqueued, Function.update_eq_self]⟩
      rw [ReadyQueues.insert, if_pos hqueued]
      exact gives_ok ⟨h.requeue hsame ⟨L, W⟩ (fun _ => ht) hlost, hsame⟩
  | false =>
      refine (insert_spec W h.range hput hqueued).bind fun r hr => gives_ok ?_
      have hsame : Requeued t true s { s with toReadyQueues := r } := ⟨rfl, hr.2⟩
      exact ⟨h.requeue hsame ⟨_, hr.1⟩ (fun _ => ht) hlost, hsame⟩

lemma Core.enqueue (h : Core cfg lost s) (ht : s.isRunnable t) (hlost : lost ⊆ insert t lost') :
    Gives (s.tcbSchedEnqueue cfg t) fun s' => Core cfg lost' s' ∧ Requeued t true s s' :=
  h.put ht hlost puts_tcbQueuePrepend

lemma Core.append (h : Core cfg lost s) (ht : s.isRunnable t) (hlost : lost ⊆ insert t lost') :
    Gives (s.tcbSchedAppend cfg t) fun s' => Core cfg lost' s' ∧ Requeued t true s s' :=
  h.put ht hlost puts_tcbQueueAppend

lemma Core.dequeue (h : Core cfg lost s) (hlost : lost ⊆ insert t lost') :
    Gives (s.tcbSchedDequeue cfg t) fun s' => Core cfg lost' s' ∧ Requeued t false s s' := by
  obtain ⟨L, W⟩ := h.queues
  cases hqueued : s.tcbQueued t with
  | false =>
      have hsame : Requeued t false s s :=
        ⟨rfl, by rw [← hqueued, Function.update_eq_self]⟩
      rw [State.tcbSchedDequeue, ReadyQueues.remove, if_neg (by simp [hqueued])]
      exact gives_ok ⟨h.requeue hsame ⟨L, W⟩ (fun hfalse => by cases hfalse) hlost, hsame⟩
  | true =>
      obtain ⟨xs, ys, hL⟩ := List.append_of_mem (W.mem_iff.mpr ⟨hqueued, rfl⟩)
      refine (tcbSchedDequeue_spec W h.range hL).mono fun s' hs' => ?_
      obtain ⟨hsame, hW, hflag⟩ := hs'
      exact ⟨h.requeue ⟨hsame, hflag⟩ ⟨_, hW⟩ (fun hfalse => by cases hfalse) hlost, hsame, hflag⟩

/-- The threads and their states are the same, and the queues. -/
lemma Core.congr (h : Core cfg lost s) (hqueues : s'.toReadyQueues = s.toReadyQueues)
    (hdomain : s'.tcbDomain = s.tcbDomain) (hprio : s'.tcbPriority = s.tcbPriority)
    (hready : ∀ t, s.isRunnable t → t ∉ lost' → s'.isRunnable t) (hlost : lost ⊆ lost')
    (hidle : s'.tsType s'.ksIdleThread = .idleThreadState)
    (hcur : s'.ksCurDomain < cfg.numDomains) : Core cfg lost' s' := by
  refine ⟨?_, ?_, fun t ht hqueued => ?_, hidle, hcur⟩
  · rw [hqueues, hdomain, hprio]
    exact h.queues
  · rw [hdomain, hprio]
    exact h.range
  · rw [hqueues] at hqueued
    exact hready t (h.ready t (fun hmem => ht (hlost hmem)) hqueued) ht

/-! ### The invariant -/

/-- **The invariant.** Every runnable thread that is not lost is in a ready queue, the current
thread or the one to be switched to. Where `b` holds, and no new thread has to be chosen, no
runnable thread of the domain goes before the current one, other than the one to be switched
to. -/
structure Inv (cfg : Config) (b : Prop) (lost : Set ℕ) (s : State) : Prop
    extends Core cfg lost s where
  found : ∀ t, t ∉ lost → s.isRunnable t →
    s.tcbQueued t = true ∨ t = s.ksCurThread ∨ s.ksSchedulerAction = .switchTo t
  target : ∀ t, s.ksSchedulerAction = .switchTo t →
    s.isRunnable t ∧ t ≠ s.ksCurThread ∧ s.tcbDomain t = s.ksCurDomain
  resume : s.ksSchedulerAction = .resumeCurrentThread →
    s.isRunnable s.ksCurThread ∨ s.ksCurThread = s.ksIdleThread
  aside : s.ksCurThread ∉ lost → s.tcbQueued s.ksCurThread = true →
    s.ksSchedulerAction = .chooseNewThread
  home : s.ksSchedulerAction ≠ .chooseNewThread →
    s.ksCurThread = s.ksIdleThread ∨ s.tcbDomain s.ksCurThread = s.ksCurDomain
  expired : s.ksDomainTime = 0 → s.ksSchedulerAction = .chooseNewThread
  fair : b → s.ksSchedulerAction ≠ .chooseNewThread → ∀ t, t ∉ lost → s.isRunnable t →
    s.tcbDomain t = s.ksCurDomain → t ≠ s.ksCurThread → s.ksSchedulerAction ≠ .switchTo t →
    s.ksCurThread ≠ s.ksIdleThread ∧ s.tcbPriority t ≤ s.tcbPriority s.ksCurThread

/-- Where a new thread will be chosen, nothing is asked of the current one. -/
lemma Core.choose (h : Core cfg lost s) (haction : s.ksSchedulerAction = .chooseNewThread)
    (hfound : ∀ t, t ∉ lost → s.isRunnable t → s.tcbQueued t = true ∨ t = s.ksCurThread) :
    Inv cfg b lost s where
  toCore := h
  found t ht hrun := (hfound t ht hrun).imp_right .inl
  target t ht := by
    rw [haction] at ht
    cases ht
  resume hresume := by
    rw [haction] at hresume
    cases hresume
  aside _ _ := haction
  home hne := absurd haction hne
  expired _ := haction
  fair _ hne := absurd haction hne

/-- `rescheduleRequired`: the thread to be switched to goes back to its queue. -/
lemma Core.reschedule (h : Core cfg lost s)
    (htarget : ∀ t, s.ksSchedulerAction = .switchTo t → s.isRunnable t) :
    Gives (s.rescheduleRequired cfg) fun s' => Core cfg lost s' ∧
      s'.toScheduling = { s.toScheduling with ksSchedulerAction := .chooseNewThread } ∧
      ∀ u, s'.tcbQueued u = true ↔ s.tcbQueued u = true ∨ s.ksSchedulerAction = .switchTo u := by
  rw [State.rescheduleRequired]
  cases haction : s.ksSchedulerAction with
  | resumeCurrentThread | chooseNewThread =>
      refine gives_ok ⟨⟨h.queues, h.range, h.ready, h.idle, h.domain⟩, rfl, fun u => ?_⟩
      simp
  | switchTo t =>
      refine (h.enqueue (htarget t haction) (Set.subset_insert t lost)).bind fun s₁ hs₁ => ?_
      obtain ⟨h₁, hsame⟩ := hs₁
      refine gives_ok ⟨⟨h₁.queues, h₁.range, h₁.ready, h₁.idle, h₁.domain⟩, ?_, fun u => ?_⟩
      · rw [hsame.same]
      · dsimp only
        rw [hsame.flag]
        by_cases hu : u = t
        · subst hu
          simp
        · rw [update_of_ne hu]
          simp [Ne.symm hu]

/-- `rescheduleRequired` keeps the invariant, and makes up for a thread that is lost. -/
lemma Core.reschedule_inv (h : Core cfg lost s)
    (htarget : ∀ t, s.ksSchedulerAction = .switchTo t → s.isRunnable t)
    (hfound : ∀ t, t ∉ lost → s.isRunnable t →
      s.tcbQueued t = true ∨ t = s.ksCurThread ∨ s.ksSchedulerAction = .switchTo t) :
    Gives (s.rescheduleRequired cfg) fun s' => Inv cfg b lost s' ∧
      s'.toScheduling = { s.toScheduling with ksSchedulerAction := .chooseNewThread } ∧
      ∀ u, s.tcbQueued u = true → s'.tcbQueued u = true := by
  refine (h.reschedule htarget).mono fun s' hs' => ?_
  obtain ⟨h', hsame, hqueued⟩ := hs'
  refine ⟨h'.choose (by rw [hsame]) fun t ht hrun => ?_, hsame, fun u hu =>
    (hqueued u).mpr (.inl hu)⟩
  rw [hsame] at hrun ⊢
  rw [hqueued]
  have := hfound t ht hrun
  tauto

lemma Inv.reschedule (h : Inv cfg b lost s) :
    Gives (s.rescheduleRequired cfg) fun s' => Inv cfg b lost s' ∧
      s'.toScheduling = { s.toScheduling with ksSchedulerAction := .chooseNewThread } ∧
      ∀ u, s.tcbQueued u = true → s'.tcbQueued u = true :=
  h.toCore.reschedule_inv (fun t ht => (h.target t ht).1) h.found

/-- A thread may be called lost. -/
lemma Inv.lose (h : Inv cfg b ∅ s) (lost : Set ℕ) : Inv cfg b lost s where
  queues := h.queues
  range := h.range
  ready t _ := h.ready t (Set.notMem_empty t)
  idle := h.idle
  domain := h.domain
  found t _ := h.found t (Set.notMem_empty t)
  target := h.target
  resume := h.resume
  aside _ := h.aside (Set.notMem_empty _)
  home := h.home
  expired := h.expired
  fair hb hne t _ := h.fair hb hne t (Set.notMem_empty t)

/-- A lost thread is not lost if it does not run. -/
lemma Inv.settle (h : Inv cfg b {t} s) (hstop : ¬ s.isRunnable t) (hqueued : s.tcbQueued t = false) :
    Inv cfg b ∅ s := by
  have hready : ∀ u, s.tcbQueued u = true → u ∉ ({t} : Set ℕ) := by
    rintro u hu rfl
    rw [hqueued] at hu
    cases hu
  have hrun : ∀ u, s.isRunnable u → u ∉ ({t} : Set ℕ) := by
    rintro u hu rfl
    exact hstop hu
  exact
    { queues := h.queues
      range := h.range
      ready := fun u _ hu => h.ready u (hready u hu) hu
      idle := h.idle
      domain := h.domain
      found := fun u _ hu => h.found u (hrun u hu) hu
      target := h.target
      resume := h.resume
      aside := fun _ hu => h.aside (hready _ hu) hu
      home := h.home
      expired := h.expired
      fair := fun hb hne u _ hu => h.fair hb hne u (hrun u hu) hu }

/-! ### The state of a thread -/

/-- `setThreadState`: a new thread has to be chosen if the current one stops. -/
lemma setThreadState_eq : s.setThreadState cfg t ts = .ok { s with
    tsType := update s.tsType t ts
    ksSchedulerAction := if t = s.ksCurThread ∧ s.ksSchedulerAction = .resumeCurrentThread ∧
      ¬ (ts = .running ∨ ts = .restart) then .chooseNewThread else s.ksSchedulerAction } := by
  rw [State.setThreadState, State.scheduleTCB]
  have hrun : Scheduling.isRunnable { s.toScheduling with tsType := update s.tsType t ts } t ↔
      ts = .running ∨ ts = .restart := by
    rw [Scheduling.isRunnable]
    dsimp only
    rw [update_self]
  by_cases hstop : t = s.ksCurThread ∧ s.ksSchedulerAction = .resumeCurrentThread ∧
      ¬ (ts = .running ∨ ts = .restart)
  · rw [if_pos hstop, if_pos ⟨hstop.1, hstop.2.1, hrun.not.mpr hstop.2.2⟩,
      State.rescheduleRequired]
    dsimp only
    rw [hstop.2.1]
    rfl
  · rw [if_neg hstop, if_neg fun h => hstop ⟨h.1, h.2.1, hrun.not.mp h.2.2⟩]
    rfl

/-- The thread whose state changes is lost until it is put where it belongs. -/
lemma Inv.setThreadState (h : Inv cfg b {t} s) (ht : t ≠ s.ksIdleThread)
    (htarget : s.ksSchedulerAction ≠ .switchTo t) : Inv cfg b {t} { s with
    tsType := update s.tsType t ts
    ksSchedulerAction := if t = s.ksCurThread ∧ s.ksSchedulerAction = .resumeCurrentThread ∧
      ¬ (ts = .running ∨ ts = .restart) then .chooseNewThread else s.ksSchedulerAction } := by
  have hother : ∀ u, u ≠ t → (Scheduling.isRunnable { s.toScheduling with
      tsType := update s.tsType t ts } u ↔ s.isRunnable u) := by
    intro u hu
    rw [Scheduling.isRunnable, Scheduling.isRunnable]
    dsimp only
    rw [update_of_ne hu]
  have hcore : Core cfg {t} { s with tsType := update s.tsType t ts } :=
    h.toCore.congr rfl rfl rfl (fun u hu hut => (hother u hut).mpr hu) subset_rfl
      (by dsimp only; rw [update_of_ne ht.symm]; exact h.idle) h.domain
  split_ifs with hstop
  · refine Core.choose ⟨hcore.queues, hcore.range, hcore.ready, hcore.idle, hcore.domain⟩ rfl
      fun u hu hrun => ?_
    rcases h.found u hu ((hother u hu).mp hrun) with hqueued | hcur | haction
    · exact .inl hqueued
    · exact .inr hcur
    · rw [hstop.2.1] at haction
      cases haction
  · refine ⟨hcore, fun u hu hrun => h.found u hu ((hother u hu).mp hrun), fun u hu => ?_,
      fun hresume => ?_, h.aside, h.home, h.expired, fun hb hne u hu hrun =>
        h.fair hb hne u hu ((hother u hu).mp hrun)⟩
    · have hut : u ≠ t := by
        rintro rfl
        exact htarget hu
      obtain ⟨hrun, hne, hdomain⟩ := h.target u hu
      exact ⟨(hother u hut).mpr hrun, hne, hdomain⟩
    · by_cases hcur : t = s.ksCurThread
      · left
        rw [Scheduling.isRunnable]
        dsimp only
        rw [hcur, update_self]
        by_contra hts
        exact hstop ⟨hcur, hresume, hts⟩
      · exact (h.resume hresume).imp_left (hother _ (Ne.symm hcur)).mpr

/-- The state that a thread has after `setThreadState`. -/
lemma isRunnable_update {action : SchedulerAction} :
    Scheduling.isRunnable { s.toScheduling with
      tsType := update s.tsType t ts
      ksSchedulerAction := action } t ↔ ts = .running ∨ ts = .restart := by
  rw [Scheduling.isRunnable]
  dsimp only
  rw [update_self]

/-! ### Decisions -/

/-- A runnable thread of another domain is found in its queue. -/
lemma Inv.enqueueElsewhere (h : Inv cfg b {t} s) (ht : s.isRunnable t)
    (hdomain : s.ksCurDomain ≠ s.tcbDomain t) :
    Gives (s.tcbSchedEnqueue cfg t) (Inv cfg b ∅) := by
  have hidle : t ≠ s.ksIdleThread := by
    rintro rfl
    exact h.toCore.idle_not_runnable ht
  refine (h.toCore.enqueue ht found_subset).mono fun s' hs' => ?_
  obtain ⟨h', hsame⟩ := hs'
  refine ⟨h', fun u _ hrun => ?_, ?_, ?_, fun _ hqueued => ?_, ?_, ?_, fun hb hne u _ hrun hu => ?_⟩
  · rw [hsame.same] at hrun ⊢
    rw [hsame.flag]
    by_cases hut : u = t
    · subst hut
      exact .inl (update_self ..)
    · rw [update_of_ne hut]
      exact h.found u hut hrun
  · rw [hsame.same]
    exact h.target
  · rw [hsame.same]
    exact h.resume
  · -- the current thread is of the current domain, so it is not the one that was queued
    rw [hsame.flag, hsame.same] at hqueued
    rw [hsame.same]
    by_cases hct : s.ksCurThread = t
    · by_contra hne
      rcases h.home hne with hcur | hcur
      · exact hidle (hct.symm.trans hcur)
      · rw [hct] at hcur
        exact hdomain hcur.symm
    · rw [update_of_ne hct] at hqueued
      exact h.aside hct hqueued
  · rw [hsame.same]
    exact h.home
  · rw [hsame.same]
    exact h.expired
  · rw [hsame.same] at hne hrun hu ⊢
    have hut : u ≠ t := by
      rintro rfl
      exact hdomain hu.symm
    exact h.fair hb hne u hut hrun hu

/-- A runnable thread is found in its queue, as all threads are while a choice is pending. -/
lemma Inv.rescheduleAndEnqueue (h : Inv cfg b {t} s) (ht : s.isRunnable t) :
    Gives (do let s₁ ← s.rescheduleRequired cfg; s₁.tcbSchedEnqueue cfg t) (Inv cfg b ∅) := by
  refine h.reschedule.bind fun s₁ hs₁ => ?_
  obtain ⟨h₁, hsame₁, -⟩ := hs₁
  have hrun₁ : s₁.isRunnable t := by
    rw [hsame₁]
    exact ht
  refine (h₁.toCore.enqueue hrun₁ found_subset).mono fun s' hs' => ?_
  obtain ⟨h', hsame⟩ := hs'
  refine h'.choose (by rw [hsame.same, hsame₁]) fun u _ hrun => ?_
  rw [hsame.same] at hrun ⊢
  rw [hsame.flag]
  by_cases hut : u = t
  · subst hut
    exact .inl (update_self ..)
  · rw [update_of_ne hut]
    rcases h₁.found u hut hrun with hqueued | hcur | hswitch
    · exact .inl hqueued
    · exact .inr hcur
    · rw [hsame₁] at hswitch
      cases hswitch

/-- A runnable thread becomes the one to switch to, while no decision is pending. -/
lemma Inv.switchTo (h : Inv cfg b {t} s) (ht : s.isRunnable t)
    (haction : s.ksSchedulerAction = .resumeCurrentThread) (hne : t ≠ s.ksCurThread)
    (hdomain : s.ksCurDomain = s.tcbDomain t) :
    Inv cfg b ∅ { s with ksSchedulerAction := .switchTo t } := by
  refine ⟨⟨h.queues, h.range, fun u _ hqueued => ?_, h.idle, h.domain⟩,
    fun u _ hrun => ?_, fun u hu => ?_, (fun hresume => by cases hresume), fun _ hqueued => ?_,
    fun _ => ?_, fun htime => ?_, fun hb _ u _ hrun hu huc huswitch => ?_⟩
  · by_cases hut : u = t
    · subst hut
      exact ht
    · exact h.ready u hut hqueued
  · by_cases hut : u = t
    · subst hut
      exact .inr (.inr rfl)
    · rcases h.found u hut hrun with hqueued | hcur | hswitch
      · exact .inl hqueued
      · exact .inr (.inl hcur)
      · rw [haction] at hswitch
        cases hswitch
  · obtain rfl := SchedulerAction.switchTo.inj hu
    exact ⟨ht, hne, hdomain.symm⟩
  · have hchoose := h.aside hne.symm hqueued
    rw [haction] at hchoose
    cases hchoose
  · exact h.home (by rw [haction]; simp)
  · have hchoose := h.expired htime
    rw [haction] at hchoose
    cases hchoose
  · have hut : u ≠ t := by
      rintro rfl
      exact huswitch rfl
    exact h.fair hb (by rw [haction]; simp) u hut hrun hu huc (by rw [haction]; simp)

/-- **`possibleSwitchTo`** finds a thread that has become runnable. -/
lemma Inv.possibleSwitchTo (h : Inv cfg b {t} s) (ht : s.isRunnable t)
    (hcur : t = s.ksCurThread → s.ksSchedulerAction ≠ .resumeCurrentThread) :
    Gives (s.possibleSwitchTo cfg t) (Inv cfg b ∅) := by
  rw [State.possibleSwitchTo]
  split_ifs with hdomain haction
  · exact h.enqueueElsewhere ht hdomain
  · exact h.rescheduleAndEnqueue ht
  · rw [not_not] at hdomain haction
    exact gives_ok (h.switchTo ht haction (fun htc => hcur htc haction) hdomain)

/-- A lost thread is put into a queue, or taken out. -/
lemma Inv.requeue (h : Inv cfg b {t} s) {queued : Bool} (hcore : Core cfg {t} s')
    (hsame : Requeued t queued s s') : Inv cfg b {t} s' := by
  have hflag : ∀ u, u ≠ t → s'.tcbQueued u = s.tcbQueued u := by
    intro u hu
    rw [hsame.flag, update_of_ne hu]
  refine ⟨hcore, fun u hu hrun => ?_, ?_, ?_, fun hcur hqueued => ?_, ?_, ?_, ?_⟩
  · rw [hsame.same] at hrun ⊢
    rw [hflag u hu]
    exact h.found u hu hrun
  · rw [hsame.same]
    exact h.target
  · rw [hsame.same]
    exact h.resume
  · rw [hsame.same] at hcur hqueued ⊢
    rw [hflag _ hcur] at hqueued
    exact h.aside hcur hqueued
  · rw [hsame.same]
    exact h.home
  · rw [hsame.same]
    exact h.expired
  · rw [hsame.same]
    exact h.fair

/-- A lost thread is found in its queue. -/
lemma Inv.find (h : Inv cfg b {t} s) (hqueued : s.tcbQueued t = true) (ht : s.isRunnable t)
    (hcur : t ≠ s.ksCurThread)
    (hfair : b → s.ksSchedulerAction ≠ .chooseNewThread → s.tcbDomain t = s.ksCurDomain →
      s.ksCurThread ≠ s.ksIdleThread ∧ s.tcbPriority t ≤ s.tcbPriority s.ksCurThread) :
    Inv cfg b ∅ s where
  queues := h.queues
  range := h.range
  ready u _ hu := by
    by_cases hut : u = t
    · rwa [hut]
    · exact h.ready u hut hu
  idle := h.idle
  domain := h.domain
  found u _ hrun := by
    by_cases hut : u = t
    · rw [hut]
      exact .inl hqueued
    · exact h.found u hut hrun
  target := h.target
  resume := h.resume
  aside _ hu := h.aside (Ne.symm hcur) hu
  home := h.home
  expired := h.expired
  fair hb hne u _ hrun hdomain huc huswitch := by
    by_cases hut : u = t
    · rw [hut] at hdomain ⊢
      exact hfair hb hne hdomain
    · exact h.fair hb hne u hut hrun hdomain huc huswitch

/-- What a thread that is in no queue has as its domain and its priority. -/
lemma Core.assign (h : Core cfg ∅ s) (hqueued : s.tcbQueued t = false) {D P : ℕ → ℕ}
    (hother : ∀ u, u ≠ t → D u = s.tcbDomain u ∧ P u = s.tcbPriority u)
    (ht : D t < cfg.numDomains ∧ P t < cfg.numPriorities) :
    Core cfg ∅ { s with tcbDomain := D, tcbPriority := P } := by
  obtain ⟨L, W⟩ := h.queues
  refine ⟨⟨L, W.congr fun u hu => hother u ?_⟩, fun u => ?_, h.ready, h.idle, h.domain⟩
  · rintro rfl
    rw [hqueued] at hu
    cases hu
  · by_cases hut : u = t
    · rwa [hut]
    · dsimp only
      rw [(hother u hut).1, (hother u hut).2]
      exact h.range u

/-- The same, for a thread that is not the current one. -/
lemma Inv.assign (h : Inv cfg b {t} s) (hqueued : s.tcbQueued t = false) {D P : ℕ → ℕ}
    (hother : ∀ u, u ≠ t → D u = s.tcbDomain u ∧ P u = s.tcbPriority u)
    (ht : D t < cfg.numDomains ∧ P t < cfg.numPriorities)
    (htarget : s.ksSchedulerAction = .switchTo t → D t = s.tcbDomain t)
    (hhome : t = s.ksCurThread → D t = s.tcbDomain t) (hcur : b → t ≠ s.ksCurThread) :
    Inv cfg b {t} { s with tcbDomain := D, tcbPriority := P } := by
  have hready : ∀ u, u ∉ (∅ : Set ℕ) → s.tcbQueued u = true → s.isRunnable u := by
    intro u _ hu
    refine h.ready u ?_ hu
    rintro rfl
    rw [hqueued] at hu
    cases hu
  have hcore : Core cfg ∅ s := ⟨h.queues, h.range, hready, h.idle, h.domain⟩
  have hassign := hcore.assign hqueued hother ht
  refine ⟨⟨hassign.queues, hassign.range, h.ready, h.idle, h.domain⟩, h.found, fun u hu => ?_,
    h.resume, h.aside, fun hne => ?_, h.expired, fun hb hne u hut hrun hdomain huc huswitch => ?_⟩
  · obtain ⟨hrun, hne, hdomain⟩ := h.target u hu
    refine ⟨hrun, hne, ?_⟩
    dsimp only
    by_cases hut : u = t
    · subst hut
      rw [htarget hu]
      exact hdomain
    · rw [(hother u hut).1]
      exact hdomain
  · refine (h.home hne).imp_right fun hdomain => ?_
    dsimp only
    by_cases hct : s.ksCurThread = t
    · rw [hct, hhome hct.symm, ← hct]
      exact hdomain
    · rw [(hother _ hct).1]
      exact hdomain
  · dsimp only at hdomain ⊢
    rw [(hother u hut).1] at hdomain
    rw [(hother u hut).2, (hother _ (Ne.symm (hcur hb))).2]
    exact h.fair hb hne u hut hrun hdomain huc huswitch

/-! ### The operations -/

/-- What the kernel does to the scheduler. -/
inductive Op
  /-- `setThreadState` of the current thread. -/
  | setCurrent (ts : TsType)
  /-- `setThreadState` of a thread that waits, and waits on or stops, as in `setupCallerCap`. -/
  | setWaiting (t : ℕ) (ts : TsType)
  | wake (t : ℕ) (ts : TsType)
  | restartAll (threads : List ℕ)
  | suspend (t : ℕ)
  | restart (t : ℕ)
  | setPriority (t prio : ℕ)
  | setDomain (t dom : ℕ)
  | timerTick
  | yield
  | reschedule
  /-- `schedule` and `activateThread`. -/
  | schedule

/-- What an operation does. -/
def exec (cfg : Config) (s : State) : Op → Except Fault State
  | .setCurrent ts => s.setThreadState cfg s.ksCurThread ts
  | .setWaiting t ts => s.setThreadState cfg t ts
  | .wake t ts => s.wake cfg t ts
  | .restartAll threads => s.restartAll cfg threads
  | .suspend t => s.suspend cfg t
  | .restart t => s.restart cfg t
  | .setPriority t prio => s.setPriority cfg t prio
  | .setDomain t dom => s.setDomain cfg t dom
  | .timerTick => s.timerTick cfg
  | .yield => s.handleYield cfg
  | .reschedule => s.rescheduleRequired cfg
  | .schedule => do
      let s ← s.schedule cfg
      s.activateThread cfg

/-- What the callers promise. The current thread goes on, or it stops and is in no queue; a thread
that waits is not made to run by a change of its state alone; a thread that is woken up did not
run; the thread to be switched to is neither suspended nor moved to another domain; the idle
thread has no cap. -/
def Op.Allowed (cfg : Config) (s : State) : Op → Prop
  | .setCurrent ts => s.ksCurThread ≠ s.ksIdleThread ∧
      if ts = .running ∨ ts = .restart then s.isRunnable s.ksCurThread
      else s.tcbQueued s.ksCurThread = false
  | .setWaiting t ts => t ≠ s.ksIdleThread ∧ ¬ s.isRunnable t ∧ ¬ (ts = .running ∨ ts = .restart)
  | .wake t ts => t ≠ s.ksIdleThread ∧ ¬ s.isRunnable t ∧ (ts = .running ∨ ts = .restart)
  | .restartAll threads => s.ksIdleThread ∉ threads
  | .suspend t => t ≠ s.ksIdleThread ∧ s.ksSchedulerAction ≠ .switchTo t
  | .setPriority _ prio => prio < cfg.numPriorities
  | .setDomain t dom => dom < cfg.numDomains ∧ s.ksSchedulerAction ≠ .switchTo t
  | .yield => s.isRunnable s.ksCurThread
  | _ => True

instance (cfg : Config) (s : State) : (op : Op) → Decidable (op.Allowed cfg s)
  | .setCurrent _ => inferInstanceAs (Decidable (_ ∧ _))
  | .setWaiting _ _ => inferInstanceAs (Decidable (_ ∧ _))
  | .wake _ _ => inferInstanceAs (Decidable (_ ∧ _))
  | .restartAll _ => inferInstanceAs (Decidable (¬ _))
  | .suspend _ => inferInstanceAs (Decidable (_ ∧ _))
  | .restart _ => inferInstanceAs (Decidable True)
  | .setPriority _ _ => inferInstanceAs (Decidable (_ < _))
  | .setDomain _ _ => inferInstanceAs (Decidable (_ ∧ _))
  | .timerTick => inferInstanceAs (Decidable True)
  | .yield => inferInstanceAs (Decidable (s.isRunnable _))
  | .reschedule => inferInstanceAs (Decidable True)
  | .schedule => inferInstanceAs (Decidable True)

/-- The operation does not bring a thread before the current one without a decision: `setDomain`
does, where it brings a runnable thread of a higher priority to the current domain, and
`setPriority` does for a current thread that does not run. -/
def Op.Orderly (s : State) : Op → Prop
  | .setPriority t _ => t = s.ksCurThread → s.isRunnable t
  | .setDomain t dom => t ≠ s.ksCurThread → dom = s.ksCurDomain → s.isRunnable t →
      s.ksCurThread ≠ s.ksIdleThread ∧ s.tcbPriority t ≤ s.tcbPriority s.ksCurThread
  | _ => True

instance (s : State) : (op : Op) → Decidable (op.Orderly s)
  | .setCurrent _ => inferInstanceAs (Decidable True)
  | .setWaiting _ _ => inferInstanceAs (Decidable True)
  | .wake _ _ => inferInstanceAs (Decidable True)
  | .restartAll _ => inferInstanceAs (Decidable True)
  | .suspend _ => inferInstanceAs (Decidable True)
  | .restart _ => inferInstanceAs (Decidable True)
  | .setPriority _ _ => inferInstanceAs (Decidable (_ → _))
  | .setDomain _ _ => inferInstanceAs (Decidable (_ → _ → _ → _))
  | .timerTick => inferInstanceAs (Decidable True)
  | .yield => inferInstanceAs (Decidable True)
  | .reschedule => inferInstanceAs (Decidable True)
  | .schedule => inferInstanceAs (Decidable True)

/-- The states of the threads change, and the same threads are runnable. -/
lemma Inv.retype (h : Inv cfg b ∅ s) {types : ℕ → TsType}
    (hrun : ∀ u, Scheduling.isRunnable { s.toScheduling with tsType := types } u ↔ s.isRunnable u)
    (hidle : types s.ksIdleThread = .idleThreadState) :
    Inv cfg b ∅ { s with tsType := types } where
  queues := h.queues
  range := h.range
  ready u hu hqueued := (hrun u).mpr (h.ready u hu hqueued)
  idle := hidle
  domain := h.domain
  found u hu hrun' := h.found u hu ((hrun u).mp hrun')
  target u hu := (h.target u hu).imp_left (hrun u).mpr
  resume hresume := (h.resume hresume).imp_left (hrun _).mpr
  aside := h.aside
  home := h.home
  expired := h.expired
  fair hb hne u hu hrun' := h.fair hb hne u hu ((hrun u).mp hrun')

lemma Inv.target_ne (h : Inv cfg b lost s) (ht : ¬ s.isRunnable t) :
    s.ksSchedulerAction ≠ .switchTo t := fun haction => ht (h.target t haction).1

/-- Where the current thread does not run, and is not the idle thread, there will be a choice. -/
lemma Inv.action_ne (h : Inv cfg b lost s) (ht : ¬ s.isRunnable t) (hidle : t ≠ s.ksIdleThread)
    (hcur : t = s.ksCurThread) : s.ksSchedulerAction ≠ .resumeCurrentThread := by
  subst hcur
  intro haction
  rcases h.resume haction with hrun | heq
  · exact ht hrun
  · exact hidle heq

lemma setCurrent_spec (h : Inv cfg b ∅ s) (hallowed : (Op.setCurrent ts).Allowed cfg s) :
    Gives (exec cfg s (.setCurrent ts)) (Inv cfg b ∅) := by
  obtain ⟨hidle, hts⟩ := hallowed
  rw [exec, setThreadState_eq]
  refine gives_ok ?_
  by_cases hgo : ts = .running ∨ ts = .restart
  · rw [if_pos hgo] at hts
    rw [if_neg fun hstop => hstop.2.2 hgo]
    refine h.retype (fun u => ?_) ?_
    · by_cases hu : u = s.ksCurThread
      · subst hu
        rw [Scheduling.isRunnable]
        dsimp only
        rw [update_self]
        exact iff_of_true hgo hts
      · rw [Scheduling.isRunnable, Scheduling.isRunnable]
        dsimp only
        rw [update_of_ne hu]
    · rw [update_of_ne hidle.symm]
      exact h.idle
  · rw [if_neg hgo] at hts
    have htarget : s.ksSchedulerAction ≠ .switchTo s.ksCurThread := fun haction =>
      (h.target _ haction).2.1 rfl
    exact ((h.lose {s.ksCurThread}).setThreadState hidle htarget).settle
      (isRunnable_update.not.mpr hgo) hts

lemma setWaiting_spec (h : Inv cfg b ∅ s) (hallowed : (Op.setWaiting t ts).Allowed cfg s) :
    Gives (exec cfg s (.setWaiting t ts)) (Inv cfg b ∅) := by
  obtain ⟨hidle, hstop, hts⟩ := hallowed
  have hqueued : s.tcbQueued t = false := by
    by_contra hin
    rw [Bool.not_eq_false] at hin
    exact hstop (h.ready t (Set.notMem_empty t) hin)
  rw [exec, setThreadState_eq]
  exact gives_ok (((h.lose {t}).setThreadState hidle (h.target_ne hstop)).settle
    (isRunnable_update.not.mpr hts) hqueued)

lemma wake_spec (h : Inv cfg b ∅ s) (hallowed : (Op.wake t ts).Allowed cfg s) :
    Gives (exec cfg s (.wake t ts)) (Inv cfg b ∅) := by
  obtain ⟨hidle, hstop, hts⟩ := hallowed
  rw [exec, State.wake, setThreadState_eq]
  refine Inv.possibleSwitchTo ((h.lose {t}).setThreadState hidle (h.target_ne hstop))
    (isRunnable_update.mpr hts) fun hcur => ?_
  dsimp only
  rw [if_neg fun hst => hst.2.2 hts]
  exact h.action_ne hstop hidle hcur

/-- What `cancelIPC` leaves of the invariant. -/
lemma Inv.cancelIPC (h : Inv cfg b {t} s) (ht : t ≠ s.ksIdleThread)
    (htarget : s.ksSchedulerAction ≠ .switchTo t) :
    Gives (s.cancelIPC cfg t) fun s' => Inv cfg b {t} s' ∧ s'.ksIdleThread = s.ksIdleThread ∧
      s'.ksCurThread = s.ksCurThread ∧
      (s'.ksSchedulerAction = s.ksSchedulerAction ∨ s'.ksSchedulerAction = .chooseNewThread) := by
  have hcancel : Gives (s.setThreadState cfg t .inactive) fun s' => Inv cfg b {t} s' ∧
      s'.ksIdleThread = s.ksIdleThread ∧ s'.ksCurThread = s.ksCurThread ∧
      (s'.ksSchedulerAction = s.ksSchedulerAction ∨
        s'.ksSchedulerAction = .chooseNewThread) := by
    rw [setThreadState_eq]
    exact gives_ok ⟨h.setThreadState ht htarget, rfl, rfl, (ite_eq_or_eq _ _ _).symm⟩
  rw [State.cancelIPC]
  cases s.tsType t with
  | blockedOnSend | blockedOnReceive | blockedOnNotification => exact hcancel
  | _ => exact gives_ok ⟨h, rfl, rfl, .inl rfl⟩

lemma suspend_spec (h : Inv cfg b ∅ s) (hallowed : (Op.suspend t).Allowed cfg s) :
    Gives (exec cfg s (.suspend t)) (Inv cfg b ∅) := by
  obtain ⟨hidle, htarget⟩ := hallowed
  rw [exec, State.suspend]
  refine ((h.lose {t}).cancelIPC hidle htarget).bind fun s₁ hs₁ => ?_
  obtain ⟨h₁, hidle₁, -, haction₁⟩ := hs₁
  have htarget₁ : s₁.ksSchedulerAction ≠ .switchTo t := by
    rcases haction₁ with haction | haction <;> rw [haction]
    · exact htarget
    · simp
  rw [setThreadState_eq]
  refine Gives.bind (gives_ok rfl) fun s₂ hs₂ => ?_
  have h₂ : Inv cfg b {t} s₂ := by
    rw [← hs₂]
    exact h₁.setThreadState (by rwa [hidle₁]) htarget₁
  refine (h₂.toCore.dequeue (Set.subset_insert t {t})).mono fun s' hs' => ?_
  obtain ⟨hcore, hsame⟩ := hs'
  refine (h₂.requeue hcore hsame).settle ?_ (by rw [hsame.flag, update_self])
  rw [hsame.same, ← hs₂]
  exact isRunnable_update.not.mpr (by simp)

lemma restart_spec (h : Inv cfg b ∅ s) : Gives (exec cfg s (.restart t)) (Inv cfg b ∅) := by
  rw [exec, State.restart]
  by_cases hstopped : s.isStopped t
  · have hidle : t ≠ s.ksIdleThread := by
      rintro rfl
      rw [Scheduling.isStopped, h.idle] at hstopped
      simp at hstopped
    have hstop : ¬ s.isRunnable t := by
      intro hrun
      rw [Scheduling.isStopped] at hstopped
      rcases hrun with hrun | hrun <;> rw [hrun] at hstopped <;> simp at hstopped
    have hcur := h.action_ne hstop hidle
    rw [if_pos hstopped]
    refine ((h.lose {t}).cancelIPC hidle (h.target_ne hstop)).bind fun s₁ hs₁ => ?_
    obtain ⟨h₁, hidle₁, hcur₁, haction₁⟩ := hs₁
    have htarget₁ : s₁.ksSchedulerAction ≠ .switchTo t := by
      rcases haction₁ with haction | haction <;> rw [haction]
      · exact h.target_ne hstop
      · simp
    rw [setThreadState_eq]
    refine Gives.bind (gives_ok rfl) fun s₂ hs₂ => ?_
    have h₂ : Inv cfg b {t} s₂ := by
      rw [← hs₂]
      exact h₁.setThreadState (by rwa [hidle₁]) htarget₁
    have hrun₂ : s₂.isRunnable t := by
      rw [← hs₂]
      exact isRunnable_update.mpr (.inr rfl)
    refine (h₂.toCore.enqueue hrun₂ (Set.subset_insert t {t})).bind fun s₃ hs₃ => ?_
    obtain ⟨hcore, hsame⟩ := hs₃
    refine (h₂.requeue hcore hsame).possibleSwitchTo (by rw [hsame.same]; exact hrun₂) ?_
    rw [hsame.same, ← hs₂]
    dsimp only
    rw [if_neg (by simp), hcur₁]
    intro htc
    rcases haction₁ with haction | haction <;> rw [haction]
    · exact hcur htc
    · simp
  · rw [if_neg hstopped]
    exact gives_ok h

lemma setPriority_spec {prio : ℕ} (h : Inv cfg b ∅ s)
    (hallowed : (Op.setPriority t prio).Allowed cfg s)
    (horderly : b → (Op.setPriority t prio).Orderly s) :
    Gives (exec cfg s (.setPriority t prio)) (Inv cfg b ∅) := by
  have hother : ∀ u, u ≠ t →
      s.tcbDomain u = s.tcbDomain u ∧ update s.tcbPriority t prio u = s.tcbPriority u :=
    fun u hu => ⟨rfl, update_of_ne hu ..⟩
  have hrange : s.tcbDomain t < cfg.numDomains ∧
      update s.tcbPriority t prio t < cfg.numPriorities := by
    rw [update_self]
    exact ⟨(h.range t).1, hallowed⟩
  rw [exec, State.setPriority]
  refine (h.toCore.dequeue kept_subset).bind fun s₁ hs₁ => ?_
  obtain ⟨hcore, hsame⟩ := hs₁
  obtain ⟨r, threads⟩ := s₁
  obtain rfl : threads = s.toScheduling := hsame.same
  have hqueued : r.tcbQueued t = false := by rw [hsame.flag, update_self]
  have hcore₂ := hcore.assign hqueued hother hrange
  have hlost : Inv cfg b {t} { toReadyQueues := r, toScheduling := s.toScheduling } :=
    (h.lose {t}).requeue ⟨hcore.queues, hcore.range, fun u _ => hcore.ready u (Set.notMem_empty u),
      hcore.idle, hcore.domain⟩ hsame
  dsimp only
  by_cases hrun : Scheduling.isRunnable { s.toScheduling with
      tcbPriority := update s.tcbPriority t prio } t
  · rw [if_pos hrun]
    by_cases hcur : t = s.ksCurThread
    · -- the current thread may be in a queue, and is taken out of it
      rw [if_pos hcur]
      refine (hcore₂.reschedule_inv (fun u hu => (h.target u hu).1) fun u _ hu => ?_).mono
        fun s' hs' => hs'.1
      by_cases hut : u = t
      · exact .inr (.inl (hut.trans hcur))
      · rw [hsame.flag, update_of_ne hut]
        exact h.found u (Set.notMem_empty u) hu
    · rw [if_neg hcur]
      exact Inv.possibleSwitchTo (hlost.assign hqueued hother hrange (fun _ => rfl) (fun _ => rfl)
        fun _ => hcur) hrun fun htc => absurd htc hcur
  · rw [if_neg hrun]
    refine gives_ok ((hlost.assign hqueued hother hrange (fun _ => rfl) (fun _ => rfl)
      fun hb hcur => ?_).settle hrun hqueued)
    exact hrun (horderly hb hcur)

lemma setDomain_spec {dom : ℕ} (h : Inv cfg b ∅ s) (hallowed : (Op.setDomain t dom).Allowed cfg s)
    (horderly : b → (Op.setDomain t dom).Orderly s) :
    Gives (exec cfg s (.setDomain t dom)) (Inv cfg b ∅) := by
  obtain ⟨hdom, htarget⟩ := hallowed
  have hother : ∀ u, u ≠ t →
      update s.tcbDomain t dom u = s.tcbDomain u ∧ s.tcbPriority u = s.tcbPriority u :=
    fun u hu => ⟨update_of_ne hu .., rfl⟩
  have hrange : update s.tcbDomain t dom t < cfg.numDomains ∧
      s.tcbPriority t < cfg.numPriorities := by
    rw [update_self]
    exact ⟨hdom, (h.range t).2⟩
  rw [exec, State.setDomain]
  refine (h.toCore.dequeue kept_subset).bind fun s₁ hs₁ => ?_
  obtain ⟨hcore, hsame⟩ := hs₁
  obtain ⟨r, threads⟩ := s₁
  obtain rfl : threads = s.toScheduling := hsame.same
  have hqueued : r.tcbQueued t = false := by rw [hsame.flag, update_self]
  have hcore₂ := hcore.assign hqueued hother hrange
  have hfound : ∀ u, u ≠ t → s.isRunnable u →
      r.tcbQueued u = true ∨ u = s.ksCurThread ∨ s.ksSchedulerAction = .switchTo u := by
    intro u hut hu
    rw [hsame.flag, update_of_ne hut]
    exact h.found u (Set.notMem_empty u) hu
  dsimp only
  -- the current thread calls for a decision; any other is found again in its new queue
  by_cases hcur : t = s.ksCurThread
  · have hstep : Gives (if Scheduling.isRunnable { s.toScheduling with
          tcbDomain := update s.tcbDomain t dom } t then
        { toReadyQueues := r, toScheduling := { s.toScheduling with
          tcbDomain := update s.tcbDomain t dom } : State }.tcbSchedEnqueue cfg t
        else pure { toReadyQueues := r, toScheduling := { s.toScheduling with
          tcbDomain := update s.tcbDomain t dom } }) fun s₂ => Core cfg ∅ s₂ ∧
            s₂.toScheduling = { s.toScheduling with tcbDomain := update s.tcbDomain t dom } ∧
            ∀ u, u ≠ t → s₂.tcbQueued u = r.tcbQueued u := by
      by_cases hrun : Scheduling.isRunnable { s.toScheduling with
          tcbDomain := update s.tcbDomain t dom } t
      · rw [if_pos hrun]
        refine (hcore₂.enqueue hrun kept_subset).mono fun s₂ hs₂ => ?_
        refine ⟨hs₂.1, hs₂.2.same, fun u hu => ?_⟩
        rw [hs₂.2.flag, update_of_ne hu]
      · rw [if_neg hrun]
        exact gives_ok ⟨hcore₂, rfl, fun _ _ => rfl⟩
    refine hstep.bind fun s₂ hs₂ => ?_
    obtain ⟨hcore₃, hsame₃, hflag⟩ := hs₂
    rw [hsame₃]
    dsimp only
    rw [if_pos hcur]
    refine (hcore₃.reschedule_inv (fun u hu => ?_) fun u _ hu => ?_).mono fun s' hs' => hs'.1
    · rw [hsame₃] at hu ⊢
      exact (h.target u hu).1
    · rw [hsame₃] at hu ⊢
      by_cases hut : u = t
      · exact .inr (.inl (hut.trans hcur))
      · rw [hflag u hut]
        exact hfound u hut hu
  · have hlost : Inv cfg b {t} { toReadyQueues := r, toScheduling := { s.toScheduling with
        tcbDomain := update s.tcbDomain t dom } } := by
      refine Inv.assign ((h.lose {t}).requeue ⟨hcore.queues, hcore.range,
        fun u _ => hcore.ready u (Set.notMem_empty u), hcore.idle, hcore.domain⟩ hsame) hqueued
        hother hrange (fun haction => absurd haction htarget) (fun htc => absurd htc hcur)
        fun _ => hcur
    by_cases hrun : Scheduling.isRunnable { s.toScheduling with
        tcbDomain := update s.tcbDomain t dom } t
    · rw [if_pos hrun]
      refine (hlost.toCore.enqueue hrun (Set.subset_insert t {t})).bind fun s₂ hs₂ => ?_
      obtain ⟨hcore₃, hsame₃⟩ := hs₂
      have hinv := hlost.requeue hcore₃ hsame₃
      rw [hsame₃.same]
      dsimp only
      rw [if_neg hcur]
      refine gives_ok (hinv.find (by rw [hsame₃.flag, update_self]) ?_ ?_ fun hb _ hdomain => ?_)
      · rw [hsame₃.same]
        exact hrun
      · rw [hsame₃.same]
        exact hcur
      · rw [hsame₃.same] at hdomain ⊢
        refine horderly hb hcur ?_ hrun
        dsimp only at hdomain
        rwa [update_self] at hdomain
    · rw [if_neg hrun]
      refine Gives.bind (gives_ok rfl) fun s₂ hs₂ => ?_
      rw [← hs₂]
      dsimp only
      rw [if_neg hcur]
      exact gives_ok (hlost.settle hrun hqueued)

/-- The current thread goes to the end of its queue, and a new thread is chosen. -/
lemma Inv.appendCurrent (h : Core cfg ∅ s) (hrun : s.isRunnable s.ksCurThread)
    (htarget : ∀ t, s.ksSchedulerAction = .switchTo t → s.isRunnable t)
    (hfound : ∀ t, s.isRunnable t →
      s.tcbQueued t = true ∨ t = s.ksCurThread ∨ s.ksSchedulerAction = .switchTo t) :
    Gives (s.tcbSchedAppend cfg s.ksCurThread >>= fun s => s.rescheduleRequired cfg)
      fun s' => Inv cfg b ∅ s' ∧
        s'.toScheduling = { s.toScheduling with ksSchedulerAction := .chooseNewThread } := by
  refine (h.append hrun kept_subset).bind fun s₁ hs₁ => ?_
  obtain ⟨hcore, hsame⟩ := hs₁
  refine (hcore.reschedule_inv (fun u hu => ?_) fun u _ hu => ?_).mono
    fun s' hs' => ⟨hs'.1, by rw [hs'.2.1, hsame.same]⟩
  · rw [hsame.same] at hu ⊢
    exact htarget u hu
  · rw [hsame.same] at hu ⊢
    rw [hsame.flag]
    by_cases huc : u = s.ksCurThread
    · exact .inr (.inl huc)
    · rw [update_of_ne huc]
      exact hfound u hu

lemma yield_spec (h : Inv cfg b ∅ s) (hallowed : Op.yield.Allowed cfg s) :
    Gives (exec cfg s .yield) (Inv cfg b ∅) := by
  have hrun : s.isRunnable s.ksCurThread := hallowed
  rw [exec, State.handleYield]
  refine (h.toCore.dequeue kept_subset).bind fun s₁ hs₁ => ?_
  obtain ⟨hcore, hsame⟩ := hs₁
  refine (Inv.appendCurrent hcore ?_ (fun u hu => ?_) fun u hu => ?_).mono fun s' hs' => hs'.1
  · rw [hsame.same]
    exact hrun
  · rw [hsame.same] at hu ⊢
    exact (h.target u hu).1
  · rw [hsame.same] at hu ⊢
    by_cases huc : u = s.ksCurThread
    · exact .inr (.inl huc)
    · rw [hsame.flag, update_of_ne huc]
      exact h.found u (Set.notMem_empty u) hu

/-- Time passes in the domain. -/
lemma Inv.tick (h : Inv cfg b ∅ s) {time : ℕ} (htime : time ≠ 0) :
    Inv cfg b ∅ { s with ksDomainTime := time } :=
  ⟨⟨h.queues, h.range, h.ready, h.idle, h.domain⟩, h.found, h.target, h.resume, h.aside, h.home,
    fun hzero => absurd hzero htime, h.fair⟩

lemma timerTick_spec (h : Inv cfg b ∅ s) : Gives (exec cfg s .timerTick) (Inv cfg b ∅) := by
  rw [exec, State.timerTick]
  have hslice : Gives (if s.tsType s.ksCurThread = .running then
      let slice := s.tcbTimeSlice s.ksCurThread
      if 1 < slice then
        pure { s with tcbTimeSlice := update s.tcbTimeSlice s.ksCurThread (slice - 1) }
      else do
        let s := { s with tcbTimeSlice := update s.tcbTimeSlice s.ksCurThread cfg.timeSlice }
        let s ← s.tcbSchedAppend cfg s.ksCurThread
        s.rescheduleRequired cfg
    else pure s) (Inv cfg b ∅) := by
    by_cases hrun : s.tsType s.ksCurThread = .running
    · rw [if_pos hrun]
      dsimp only
      by_cases hlong : 1 < s.tcbTimeSlice s.ksCurThread
      · rw [if_pos hlong]
        exact gives_ok ⟨⟨h.queues, h.range, h.ready, h.idle, h.domain⟩, h.found, h.target, h.resume,
          h.aside, h.home, h.expired, h.fair⟩
      · rw [if_neg hlong]
        have hcore : Core cfg ∅ { s with
            tcbTimeSlice := update s.tcbTimeSlice s.ksCurThread cfg.timeSlice } :=
          ⟨h.queues, h.range, h.ready, h.idle, h.domain⟩
        exact (Inv.appendCurrent hcore (.inl hrun) (fun u hu => (h.target u hu).1)
          fun u hu => h.found u (Set.notMem_empty u) hu).mono fun s' hs' => hs'.1
    · rw [if_neg hrun]
      exact gives_ok h
  refine hslice.bind fun s₁ h₁ => ?_
  by_cases hmany : 1 < cfg.numDomains
  · rw [if_pos hmany]
    dsimp only
    generalize decrement s₁.ksDomainTime = time
    by_cases hzero : time = 0
    · rw [if_pos hzero]
      have hcore : Core cfg ∅ { s₁ with ksDomainTime := time } :=
        ⟨h₁.queues, h₁.range, h₁.ready, h₁.idle, h₁.domain⟩
      exact (hcore.reschedule_inv (fun u hu => (h₁.target u hu).1) h₁.found).mono
        fun s' hs' => hs'.1
    · rw [if_neg hzero]
      exact gives_ok (h₁.tick hzero)
  · rw [if_neg hmany]
    exact gives_ok h₁

/-- One round of the loops that wake up all waiting threads. -/
lemma restartOne_spec (h : Core cfg ∅ s) (ht : t ≠ s.ksIdleThread)
    (htarget : ∀ u, s.ksSchedulerAction = .switchTo u → s.isRunnable u)
    (hfound : ∀ u, s.isRunnable u →
      s.tcbQueued u = true ∨ u = s.ksCurThread ∨ s.ksSchedulerAction = .switchTo u) :
    Gives (s.setThreadState cfg t .restart >>= fun s => s.tcbSchedEnqueue cfg t) fun s' =>
      Core cfg ∅ s' ∧ s'.ksIdleThread = s.ksIdleThread ∧
      (∀ u, s'.ksSchedulerAction = .switchTo u → s'.isRunnable u) ∧
      ∀ u, s'.isRunnable u →
        s'.tcbQueued u = true ∨ u = s'.ksCurThread ∨ s'.ksSchedulerAction = .switchTo u := by
  have hrun : ∀ u, Scheduling.isRunnable { s.toScheduling with
      tsType := update s.tsType t .restart } u ↔ u = t ∨ s.isRunnable u := by
    intro u
    rw [Scheduling.isRunnable, Scheduling.isRunnable]
    by_cases hut : u = t
    · subst hut
      simp
    · dsimp only
      rw [update_of_ne hut, or_iff_right hut]
  have hcore : Core cfg ∅ { s with tsType := update s.tsType t .restart } :=
    h.congr rfl rfl rfl (fun u hu _ => (hrun u).mpr (.inr hu)) subset_rfl
      (by dsimp only; rw [update_of_ne ht.symm]; exact h.idle) h.domain
  rw [setThreadState_eq, if_neg (by simp)]
  refine (hcore.enqueue ((hrun t).mpr (.inl rfl)) kept_subset).mono fun s' hs' => ?_
  obtain ⟨h', hsame⟩ := hs'
  refine ⟨h', by rw [hsame.same], fun u hu => ?_, fun u hu => ?_⟩
  · rw [hsame.same] at hu ⊢
    exact (hrun u).mpr (.inr (htarget u hu))
  · rw [hsame.same] at hu ⊢
    rw [hsame.flag]
    by_cases hut : u = t
    · rw [hut, update_self]
      exact .inl rfl
    · rw [update_of_ne hut]
      exact hfound u (((hrun u).mp hu).resolve_left hut)

lemma restartAll_spec {threads : List ℕ} (h : Inv cfg b ∅ s)
    (hallowed : (Op.restartAll threads).Allowed cfg s) :
    Gives (exec cfg s (.restartAll threads)) (Inv cfg b ∅) := by
  rw [exec, State.restartAll]
  have hidle : s.ksIdleThread ∉ threads := hallowed
  have hcore := h.toCore
  have htarget := fun u hu => (h.target u hu).1
  have hfound := fun u hu => h.found u (Set.notMem_empty u) hu
  clear h hallowed
  induction threads generalizing s with
  | nil =>
      exact (hcore.reschedule_inv htarget fun u _ => hfound u).mono fun s' hs' => hs'.1
  | cons t threads ih =>
      rw [List.mem_cons, not_or] at hidle
      rw [List.foldlM_cons, bind_assoc]
      refine (restartOne_spec hcore (Ne.symm hidle.1) htarget hfound).bind fun s₁ hs₁ => ?_
      obtain ⟨hcore₁, hidle₁, htarget₁, hfound₁⟩ := hs₁
      exact ih (by rw [hidle₁]; exact hidle.2) hcore₁ htarget₁ hfound₁

/-! ### The choice -/

/-- A thread that is in a queue of the current domain is in the queue of its priority. -/
lemma Core.mem_queue (h : Core cfg ∅ s) {L : ℕ → List ℕ}
    (W : Wf cfg s.toReadyQueues s.tcbDomain s.tcbPriority L) (hqueued : s.tcbQueued t = true)
    (hdomain : s.tcbDomain t = s.ksCurDomain) :
    L (cfg.index s.ksCurDomain (s.tcbPriority t)) ≠ [] ∧ s.tcbPriority t < cfg.numPriorities := by
  have hmem : t ∈ L (cfg.index s.ksCurDomain (s.tcbPriority t)) :=
    W.mem_iff.mpr ⟨hqueued, by rw [hdomain]⟩
  exact ⟨List.ne_nil_of_mem hmem, (h.range t).2⟩

/-- `chooseThread`, where every runnable thread is in its queue. -/
lemma Core.chooseThread (h : Core cfg ∅ s) (hfound : ∀ t, s.isRunnable t → s.tcbQueued t = true)
    (htime : s.ksDomainTime ≠ 0) : Gives (s.chooseThread cfg) fun s' =>
      Inv cfg b ∅ { s' with ksSchedulerAction := .resumeCurrentThread } := by
  obtain ⟨L, W⟩ := h.queues
  have hready := fun t => h.ready t (Set.notMem_empty t)
  refine (chooseThread_spec W h.range h.domain hready).mono fun s' hs' => ?_
  rcases hs' with ⟨p, t, ts, hp, hL, hmax, hsame, hW, hflag⟩ | ⟨hnone, rfl⟩
  · obtain ⟨r, threads⟩ := s'
    obtain rfl : threads = _ := hsame
    obtain ⟨hqueued, hindex⟩ := W.mem_iff.mp (by rw [hL]; exact List.mem_cons_self)
    obtain ⟨hdomain, hprio⟩ := index_inj (h.range t).1 h.domain (h.range t).2 hp hindex
    have hflag' : ∀ u, u ≠ t → r.tcbQueued u = s.tcbQueued u := by
      intro u hu
      have hflag : r.tcbQueued = update s.tcbQueued t false := hflag
      rw [hflag, update_of_ne hu]
    have hout : r.tcbQueued t = false := by
      have hflag : r.tcbQueued = update s.tcbQueued t false := hflag
      rw [hflag, update_self]
    refine ⟨⟨⟨_, hW⟩, h.range, fun u _ hu => ?_, h.idle, h.domain⟩, fun u _ hrun => ?_,
      (fun u hu => by cases hu), fun _ => .inl (hready t hqueued), fun _ hu => ?_,
      fun _ => .inr hdomain, fun hzero => absurd hzero htime, fun _ _ u _ hrun hu hut _ => ⟨?_, ?_⟩⟩
    · by_cases hut : u = t
      · rw [hut]
        exact hready t hqueued
      · exact hready u ((hflag' u hut).symm.trans hu)
    · by_cases hut : u = t
      · exact .inr (.inl hut)
      · exact .inl ((hflag' u hut).trans (hfound u hrun))
    · rw [hout] at hu
      cases hu
    · intro hidle
      have hidle : t = s.ksIdleThread := hidle
      rw [hidle] at hqueued
      exact h.idle_not_runnable (hready _ hqueued)
    · obtain ⟨hne, hlt⟩ := h.mem_queue W (hfound u hrun) hu
      exact (hmax _ hlt hne).trans hprio.ge
  · refine ⟨⟨h.queues, h.range, h.ready, h.idle, h.domain⟩, fun u _ hrun => .inl (hfound u hrun),
      (fun u hu => by cases hu), fun _ => .inr rfl, fun _ hu => ?_, fun _ => .inl rfl,
      fun hzero => absurd hzero htime, fun _ _ u _ hrun hu _ _ => ?_⟩
    · exact absurd (hready _ hu) h.idle_not_runnable
    · obtain ⟨hne, hlt⟩ := h.mem_queue W (hfound u hrun) hu
      exact absurd (hnone _ hlt) hne

/-- `scheduleChooseNewThread`: the next domain, if the time of the domain is over. -/
lemma Core.scheduleChooseNewThread (h : Core cfg ∅ s)
    (hfound : ∀ t, s.isRunnable t → s.tcbQueued t = true) :
    Gives (s.scheduleChooseNewThread cfg) fun s' =>
      Inv cfg b ∅ { s' with ksSchedulerAction := .resumeCurrentThread } := by
  rw [State.scheduleChooseNewThread]
  by_cases htime : s.ksDomainTime = 0
  · rw [if_pos htime, State.nextDomain]
    generalize hidx : (if cfg.ksDomSchedule.length ≤ s.ksDomScheduleIdx + 1 then 0
      else s.ksDomScheduleIdx + 1) = idx
    have hlt : idx < cfg.ksDomSchedule.length := by
      have hpos := List.length_pos_iff.mpr cfg.schedule
      split_ifs at hidx <;> omega
    obtain ⟨hdomain, hlength, -⟩ := cfg.domains _ (List.getElem_mem hlt)
    rw [List.getElem?_eq_getElem hlt]
    refine Gives.bind (gives_ok rfl) fun s₁ hs₁ => ?_
    subst hs₁
    exact Core.chooseThread ⟨h.queues, h.range, h.ready, h.idle, hdomain⟩ hfound hlength.ne'
  · rw [if_neg htime]
    exact h.chooseThread hfound htime

/-- The current thread goes back to its queue, if it can still run. -/
lemma Inv.enqueueCurrent (h : Inv cfg b ∅ s) :
    Gives (if (decide (s.isRunnable s.ksCurThread) : Bool) then
      s.tcbSchedEnqueue cfg s.ksCurThread else pure s) fun s₁ => Core cfg ∅ s₁ ∧
        s₁.toScheduling = s.toScheduling ∧ ∀ u, s.isRunnable u →
          s₁.tcbQueued u = true ∨ s.ksSchedulerAction = .switchTo u := by
  by_cases hrun : s.isRunnable s.ksCurThread
  · rw [if_pos (decide_eq_true hrun)]
    refine (h.toCore.enqueue hrun kept_subset).mono fun s₁ hs₁ => ⟨hs₁.1, hs₁.2.same, fun u hu => ?_⟩
    rw [hs₁.2.flag]
    by_cases huc : u = s.ksCurThread
    · rw [huc, update_self]
      exact .inl rfl
    · rw [update_of_ne huc]
      exact (h.found u (Set.notMem_empty u) hu).imp_right fun hor => hor.resolve_left huc
  · rw [if_neg (by simpa using hrun)]
    refine gives_ok ⟨h.toCore, rfl, fun u hu => ?_⟩
    refine (h.found u (Set.notMem_empty u) hu).imp_right fun hor => hor.resolve_left ?_
    rintro rfl
    exact hrun hu

/-- The candidate of `schedule` goes back to its queue, and a thread is chosen. -/
lemma scheduleChooseNewThread_requeued {s₂ : State} {candidate : ℕ} (h₂ : Core cfg ∅ s₂)
    (hsame : Requeued candidate true s s₂)
    (hfound : ∀ u, u ≠ candidate → s.isRunnable u → s.tcbQueued u = true) :
    Gives ({ s₂ with ksSchedulerAction := .chooseNewThread }.scheduleChooseNewThread cfg) fun s' =>
      Inv cfg b ∅ { s' with ksSchedulerAction := .resumeCurrentThread } := by
  refine Core.scheduleChooseNewThread ⟨h₂.queues, h₂.range, h₂.ready, h₂.idle, h₂.domain⟩
    fun u hu => ?_
  have hu' : s.isRunnable u := by
    have hsame₂ := hsame.same
    obtain ⟨r₂, threads₂⟩ := s₂
    obtain rfl : threads₂ = s.toScheduling := hsame₂
    exact hu
  dsimp only
  rw [hsame.flag]
  by_cases huc : u = candidate
  · rw [huc, update_self]
  · rw [update_of_ne huc]
    exact hfound u huc hu'

/-- The candidate of `schedule` leaves its queue and becomes the current thread. -/
lemma Inv.switchToCandidate (h : Inv cfg b ∅ s) {r : ReadyQueues} {candidate : ℕ}
    (haction : s.ksSchedulerAction = .switchTo candidate)
    (h₁ : Core cfg ∅ { toReadyQueues := r, toScheduling := s.toScheduling })
    (hfound : ∀ u, u ≠ candidate → s.isRunnable u → r.tcbQueued u = true)
    (hfair : ∀ u, u ≠ candidate → s.isRunnable u → s.tcbDomain u = s.ksCurDomain → b →
      s.tcbPriority u ≤ s.tcbPriority candidate) :
    Gives (State.switchToThread cfg { toReadyQueues := r, toScheduling := s.toScheduling }
      candidate) fun s' => Inv cfg b ∅ { s' with ksSchedulerAction := .resumeCurrentThread } := by
  obtain ⟨hrun, -, hdomain⟩ := h.target candidate haction
  have hidle : candidate ≠ s.ksIdleThread := by
    rintro rfl
    exact h.toCore.idle_not_runnable hrun
  rw [State.switchToThread]
  refine (h₁.dequeue (t := candidate) kept_subset).bind fun s₂ hs₂ => gives_ok ?_
  obtain ⟨h₂, hsame₂⟩ := hs₂
  obtain ⟨r₂, threads₂⟩ := s₂
  obtain rfl : threads₂ = s.toScheduling := hsame₂.same
  have hflag : r₂.tcbQueued = update r.tcbQueued candidate false := hsame₂.flag
  refine ⟨⟨h₂.queues, h₂.range, h₂.ready, h₂.idle, h₂.domain⟩, fun u _ hu => ?_,
    (fun u hu => by cases hu), fun _ => .inl hrun, fun _ hqueued => ?_, fun _ => .inr hdomain,
    fun htime => ?_, fun hb _ u _ hu hudomain huc _ => ⟨hidle, hfair u huc hu hudomain hb⟩⟩
  · by_cases huc : u = candidate
    · exact .inr (.inl huc)
    · refine .inl ?_
      dsimp only
      rw [hflag, update_of_ne huc]
      exact hfound u huc hu
  · dsimp only at hqueued
    rw [hflag, update_self] at hqueued
    cases hqueued
  · have hchoose := h.expired htime
    rw [haction] at hchoose
    cases hchoose

/-- **`schedule`, where a thread waits to be switched to**: it runs, if it goes before the threads
in the queues, and before the current one, where that can still run. -/
lemma Inv.scheduleSwitch (h : Inv cfg b ∅ s) {s₁ : State} {candidate : ℕ}
    (haction : s.ksSchedulerAction = .switchTo candidate) (h₁ : Core cfg ∅ s₁)
    (hsame : s₁.toScheduling = s.toScheduling) (hfound : ∀ u, s.isRunnable u →
      s₁.tcbQueued u = true ∨ s.ksSchedulerAction = .switchTo u) :
    Gives (s₁.scheduleSwitch cfg (decide (s.isRunnable s.ksCurThread)) candidate) fun s' =>
      Inv cfg b ∅ { s' with ksSchedulerAction := .resumeCurrentThread } := by
  obtain ⟨r, threads⟩ := s₁
  obtain rfl : threads = s.toScheduling := hsame
  obtain ⟨hrun, hne, -⟩ := h.target candidate haction
  have hfound' : ∀ u, u ≠ candidate → s.isRunnable u → r.tcbQueued u = true := by
    intro u hu hrun
    refine (hfound u hrun).resolve_right fun hswitch => hu ?_
    rw [haction] at hswitch
    exact (SchedulerAction.switchTo.inj hswitch).symm
  rw [State.scheduleSwitch]
  refine (gives_assert hrun).bind fun _ _ => ?_
  obtain ⟨L, W⟩ := h₁.queues
  -- the queues are looked at only if the candidate might not go before them
  have hhigh : Gives (if (decide (s.ksCurThread = s.ksIdleThread ∨
      s.tcbPriority candidate < s.tcbPriority s.ksCurThread) : Bool) then
        State.isHighestPrio cfg { toReadyQueues := r, toScheduling := s.toScheduling }
          s.ksCurDomain (s.tcbPriority candidate) else pure true) fun high => high = true →
      s.ksCurThread = s.ksIdleThread ∨ s.tcbPriority candidate < s.tcbPriority s.ksCurThread →
      ∀ p < cfg.numPriorities, L (cfg.index s.ksCurDomain p) ≠ [] →
        p ≤ s.tcbPriority candidate := by
    by_cases hfast : s.ksCurThread = s.ksIdleThread ∨
        s.tcbPriority candidate < s.tcbPriority s.ksCurThread
    · rw [if_pos (decide_eq_true hfast)]
      exact (isHighestPrio_spec W h.domain).mono fun high hiff htrue _ => hiff.mp htrue
    · rw [if_neg (by simpa using hfast)]
      exact gives_ok fun _ hfast' => absurd hfast' hfast
  refine hhigh.bind fun high hhigh => ?_
  cases high with
  | false =>
      exact (h₁.enqueue hrun kept_subset).bind fun _ hs₂ =>
        scheduleChooseNewThread_requeued hs₂.1 hs₂.2 hfound'
  | true =>
      rw [if_neg (by simp)]
      by_cases hequal : (decide (s.isRunnable s.ksCurThread) : Bool) = true ∧
          s.tcbPriority candidate = s.tcbPriority s.ksCurThread
      · rw [if_pos hequal]
        exact (h₁.append hrun kept_subset).bind fun _ hs₂ =>
          scheduleChooseNewThread_requeued hs₂.1 hs₂.2 hfound'
      · rw [if_neg hequal]
        refine (gives_assert hne).bind fun _ _ => ?_
        refine h.switchToCandidate haction h₁ hfound' fun u huc hu hudomain hb => ?_
        by_cases hfast : s.ksCurThread = s.ksIdleThread ∨
            s.tcbPriority candidate < s.tcbPriority s.ksCurThread
        · obtain ⟨hne, hlt⟩ := h₁.mem_queue W (hfound' u huc hu) hudomain
          exact hhigh rfl hfast _ hlt hne
        · -- no thread of the domain goes before the current one, nor does that before the candidate
          rw [not_or, not_lt] at hfast
          by_cases hucur : u = s.ksCurThread
          · rw [hucur]
            exact hfast.2
          · refine (h.fair hb (by rw [haction]; simp) u (Set.notMem_empty u) hu hudomain hucur
              ?_).2.trans hfast.2
            rw [haction]
            exact fun hswitch => huc (SchedulerAction.switchTo.inj hswitch).symm

/-- `schedule`. -/
lemma Inv.schedule (h : Inv cfg b ∅ s) : Gives (s.schedule cfg) fun s' =>
    Inv cfg b ∅ s' ∧ s'.ksSchedulerAction = .resumeCurrentThread := by
  rw [State.schedule]
  by_cases haction : s.ksSchedulerAction ≠ .resumeCurrentThread
  · rw [if_pos haction]
    refine Gives.bind (P := fun s' => Inv cfg b ∅ { s' with
      ksSchedulerAction := .resumeCurrentThread }) ?_ fun s' hs' => gives_ok ⟨hs', rfl⟩
    refine h.enqueueCurrent.bind fun s₁ hs₁ => ?_
    obtain ⟨h₁, hsame, hfound⟩ := hs₁
    rw [hsame]
    cases hwhat : s.ksSchedulerAction with
    | resumeCurrentThread => exact absurd hwhat haction
    | chooseNewThread =>
        refine h₁.scheduleChooseNewThread fun u hu => (hfound u ?_).resolve_right ?_
        · rwa [hsame] at hu
        · rw [hwhat]
          simp
    | switchTo candidate => exact h.scheduleSwitch hwhat h₁ hsame hfound
  · rw [if_neg haction]
    rw [not_not] at haction
    refine gives_ok ⟨?_, rfl⟩
    rw [← haction]
    exact h

lemma schedule_spec (h : Inv cfg b ∅ s) : Gives (exec cfg s .schedule) fun s' =>
    Inv cfg b ∅ s' ∧ s'.ksSchedulerAction = .resumeCurrentThread := by
  rw [exec]
  refine h.schedule.bind fun s₁ hs₁ => ?_
  obtain ⟨h₁, haction⟩ := hs₁
  rw [State.activateThread]
  have hcur := h₁.resume haction
  cases htype : s₁.tsType s₁.ksCurThread with
  | running | idleThreadState => exact gives_ok ⟨h₁, haction⟩
  | restart =>
      have hidle : s₁.ksCurThread ≠ s₁.ksIdleThread := by
        intro hidle
        rw [hidle, h₁.idle] at htype
        cases htype
      have hallowed : (Op.setCurrent .running).Allowed cfg s₁ := by
        refine ⟨hidle, ?_⟩
        rw [if_pos (.inl rfl)]
        exact .inr htype
      have hmark := setCurrent_spec h₁ hallowed
      rw [exec] at hmark
      dsimp only
      rw [setThreadState_eq] at hmark ⊢
      obtain ⟨s', hok, h'⟩ := hmark
      obtain rfl := Except.ok.inj hok
      exact gives_ok ⟨h', (if_neg (by simp)).trans haction⟩
  | _ =>
      exfalso
      rcases hcur with hrun | hidle
      · rw [Scheduling.isRunnable, htype] at hrun
        simp at hrun
      · rw [hidle, h₁.idle] at htype
        cases htype

/-! ### Runs -/

/-- The state in which `init_core_state` leaves the scheduler. -/
def boot (cfg : Config) (idle initial : ℕ) : State where
  tcbQueued _ := false
  tcbSchedNext _ := none
  tcbSchedPrev _ := none
  ksReadyQueues _ := .empty
  ksReadyQueuesL1Bitmap _ := 0#64
  ksReadyQueuesL2Bitmap _ _ := 0#64
  tsType t := if t = idle then .idleThreadState else if t = initial then .running else .inactive
  tcbDomain _ := (cfg.ksDomSchedule.head cfg.schedule).1
  tcbPriority t := if t = initial then cfg.numPriorities - 1 else 0
  tcbTimeSlice _ := cfg.timeSlice
  ksCurThread := idle
  ksIdleThread := idle
  ksSchedulerAction := .switchTo initial
  ksCurDomain := (cfg.ksDomSchedule.head cfg.schedule).1
  ksDomainTime := (cfg.ksDomSchedule.head cfg.schedule).2
  ksDomScheduleIdx := 0

lemma inv_boot {idle initial : ℕ} (hne : idle ≠ initial) : Inv cfg b ∅ (boot cfg idle initial) := by
  obtain ⟨hdomain, hlength, -⟩ := cfg.domains _ (List.head_mem cfg.schedule)
  have hplace : (boot cfg idle initial).toReadyQueues.place cfg
      (boot cfg idle initial).tcbDomain (boot cfg idle initial).tcbPriority = fun _ => none := rfl
  have hrun : ∀ t, (boot cfg idle initial).isRunnable t → t = initial := by
    intro t ht
    by_contra hti
    rw [Scheduling.isRunnable] at ht
    simp only [boot, if_neg hti] at ht
    split_ifs at ht <;> simp at ht
  have hinitial : (boot cfg idle initial).isRunnable initial := by
    left
    simp [boot, hne.symm]
  refine ⟨⟨⟨fun _ => [], ⟨⟨fun i => .nil, fun i t => ?_⟩, fun t _ => ⟨rfl, rfl⟩, fun d _ => ?_⟩⟩,
    fun t => ⟨hdomain, ?_⟩, fun t _ ht => ?_, if_pos rfl, hdomain⟩,
    fun t _ ht => .inr (.inr (by rw [hrun t ht]; rfl)), fun t ht => ?_,
    (fun hresume => by cases hresume), (fun _ ht => by cases ht), fun _ => .inl rfl,
    fun hzero => absurd hzero hlength.ne', fun _ _ t _ ht _ _ hswitch => ?_⟩
  · rw [hplace]
    simp
  · exact Marks.zero.congr fun p _ => by simp
  · have hpos := cfg.priorities.1
    simp only [boot]
    split_ifs <;> omega
  · cases ht
  · obtain rfl := SchedulerAction.switchTo.inj ht
    exact ⟨hinitial, hne.symm, rfl⟩
  · rw [hrun t ht] at hswitch
    exact absurd rfl hswitch

/-- **Every operation that is allowed keeps the invariant.** -/
lemma exec_spec (h : Inv cfg b ∅ s) (op : Op) (hallowed : op.Allowed cfg s)
    (horderly : b → op.Orderly s) : Gives (exec cfg s op) (Inv cfg b ∅) := by
  cases op with
  | setCurrent ts => exact setCurrent_spec h hallowed
  | setWaiting t ts => exact setWaiting_spec h hallowed
  | wake t ts => exact wake_spec h hallowed
  | restartAll threads => exact restartAll_spec h hallowed
  | suspend t => exact suspend_spec h hallowed
  | restart t => exact restart_spec h
  | setPriority t prio => exact setPriority_spec h hallowed horderly
  | setDomain t dom => exact setDomain_spec h hallowed horderly
  | timerTick => exact timerTick_spec h
  | yield => exact yield_spec h hallowed
  | reschedule => exact h.reschedule.mono fun s' hs' => hs'.1
  | schedule => exact (schedule_spec h).mono fun s' hs' => hs'.1

/-- An operation that is allowed. -/
def Step (cfg : Config) (s : State) (op : Op) (s' : State) : Prop :=
  op.Allowed cfg s ∧ exec cfg s op = .ok s'

/-- An operation that is allowed, and orderly. -/
def OrderlyStep (cfg : Config) (s : State) (op : Op) (s' : State) : Prop :=
  Step cfg s op s' ∧ op.Orderly s

lemma Step.inv (h : Inv cfg b ∅ s) {op : Op} (hstep : Step cfg s op s')
    (horderly : b → op.Orderly s) : Inv cfg b ∅ s' := by
  obtain ⟨s₁, hok, h₁⟩ := exec_spec h op hstep.1 horderly
  rw [hstep.2] at hok
  obtain rfl := Except.ok.inj hok
  exact h₁

/-- An evaluation is a run. -/
lemma steps_of_eval {ops : List Op}
    (h : runFun (fun s op => decide (op.Allowed cfg s ∧ op.Orderly s))
      (fun s op => (exec cfg s op).toOption) s ops = some s') : Runs (OrderlyStep cfg) s ops s' := by
  refine (runs_of_runFun (fun s op => op.Allowed cfg s ∧ op.Orderly s)
    (fun _ _ hgood => of_decide_eq_true hgood) h).mono fun s op s' hstep => ?_
  obtain ⟨⟨hallowed, horderly⟩, heval⟩ := hstep
  have hok : (exec cfg s op).toOption = some s' := heval
  refine ⟨⟨hallowed, ?_⟩, horderly⟩
  cases hexec : exec cfg s op with
  | error e =>
      rw [hexec] at hok
      cases hok
  | ok s₁ =>
      rw [hexec] at hok
      rw [Option.some.inj hok]

/-- **The scheduler in every run**: the ready queues are linked lists, in which each thread stands
once, in the queue of its domain and its priority, and the bitmap has the bits of those that are
not empty. What is in a queue is runnable, and what is runnable is in a queue, the current thread
or to be switched to. Whatever the kernel does next, no assertion fails and no null pointer is
followed. -/
theorem scheduler_runs (cfg : Config) (idle initial : ℕ) (hne : idle ≠ initial) (ops : List Op)
    (s : State) (hrun : Runs (Step cfg) (boot cfg idle initial) ops s) :
    (∃ L, Wf cfg s.toReadyQueues s.tcbDomain s.tcbPriority L) ∧
      (∀ t, s.tcbQueued t = true → s.isRunnable t) ∧
      (∀ t, s.isRunnable t →
        s.tcbQueued t = true ∨ t = s.ksCurThread ∨ s.ksSchedulerAction = .switchTo t) ∧
      ∀ op, op.Allowed cfg s → ∃ s', exec cfg s op = .ok s' := by
  have h : Inv cfg False ∅ s := hrun.invariant (Inv cfg False ∅)
    (fun _ _ _ h hstep => hstep.inv h False.elim) (inv_boot hne)
  refine ⟨h.queues, fun t => h.ready t (Set.notMem_empty t),
    fun t => h.found t (Set.notMem_empty t), fun op hallowed => ?_⟩
  obtain ⟨s', hok, -⟩ := exec_spec h op hallowed False.elim
  exact ⟨s', hok⟩

/-- One domain, and all priorities. -/
def single : Config where
  numDomains := 1
  numPriorities := 256
  timeSlice := 5
  ksDomSchedule := [(0, 1)]
  priorities := by decide
  schedule := by decide
  domains := by decide

/-- Another thread of the highest priority is woken up, and the first one gives way to it. -/
theorem scheduler_runs_yield : ∃ s, s.ksCurThread = 3 ∧ s.tcbQueued 2 = true ∧
    (∃ L, Wf single s.toReadyQueues s.tcbDomain s.tcbPriority L) ∧
    ∀ op, op.Allowed single s → ∃ s', exec single s op = .ok s' := by
  obtain ⟨s, hrun, hcur, hqueued⟩ : ∃ s, Runs (OrderlyStep single) (boot single 1 2)
      [.schedule, .setPriority 3 255, .wake 3 .running, .schedule, .yield, .schedule] s ∧
      s.ksCurThread = 3 ∧ s.tcbQueued 2 = true := ⟨_, steps_of_eval rfl, rfl, rfl⟩
  obtain ⟨hqueues, -, -, hexec⟩ := scheduler_runs single 1 2 (by decide) _ s
    (hrun.mono fun _ _ _ hstep => hstep.1)
  exact ⟨s, hcur, hqueued, hqueues, hexec⟩

/-- The current thread is one that should run. -/
def Chosen (s : State) : Prop :=
  (s.isRunnable s.ksCurThread ∧ s.tcbDomain s.ksCurThread = s.ksCurDomain ∧
    s.tcbQueued s.ksCurThread = false ∧ ∀ t, s.isRunnable t → s.tcbDomain t = s.ksCurDomain →
      s.tcbPriority t ≤ s.tcbPriority s.ksCurThread) ∨
  s.ksCurThread = s.ksIdleThread ∧ ∀ t, s.isRunnable t → s.tcbDomain t ≠ s.ksCurDomain

lemma Inv.chosen (h : Inv cfg True ∅ s)
    (haction : s.ksSchedulerAction = .resumeCurrentThread) : Chosen s := by
  have hchoose : s.ksSchedulerAction ≠ .chooseNewThread := by
    rw [haction]
    simp
  have hswitch : ∀ t, s.ksSchedulerAction ≠ .switchTo t := by
    intro t
    rw [haction]
    simp
  have hfair := fun t ht hdomain hcur =>
    h.fair trivial hchoose t (Set.notMem_empty t) ht hdomain hcur (hswitch t)
  by_cases hidle : s.ksCurThread = s.ksIdleThread
  · refine .inr ⟨hidle, fun t ht hdomain => ?_⟩
    by_cases hcur : t = s.ksCurThread
    · rw [hcur, hidle] at ht
      exact h.toCore.idle_not_runnable ht
    · exact (hfair t ht hdomain hcur).1 hidle
  · refine .inl ⟨(h.resume haction).resolve_right hidle, (h.home hchoose).resolve_left hidle, ?_,
      fun t ht hdomain => ?_⟩
    · by_contra hqueued
      rw [Bool.not_eq_false] at hqueued
      exact hchoose (h.aside (Set.notMem_empty _) hqueued)
    · by_cases hcur : t = s.ksCurThread
      · rw [hcur]
      · exact (hfair t ht hdomain hcur).2

/-- **The choice of `schedule`**: after every run of orderly operations that ends with `schedule`,
the current thread is a runnable thread of the current domain, in no queue, and no runnable thread
of the domain has a higher priority; or it is the idle thread, and no thread of the domain is
runnable. There is time left in the domain. -/
theorem schedule_highest (cfg : Config) (idle initial : ℕ) (hne : idle ≠ initial) (ops : List Op)
    (s s' : State) (hrun : Runs (OrderlyStep cfg) (boot cfg idle initial) ops s)
    (hlast : Step cfg s .schedule s') : Chosen s' ∧ s'.ksDomainTime ≠ 0 := by
  have h : Inv cfg True ∅ s := hrun.invariant (Inv cfg True ∅)
    (fun _ _ _ h hstep => hstep.1.inv h fun _ => hstep.2) (inv_boot hne)
  obtain ⟨s₁, hok, h₁, haction⟩ := schedule_spec h
  rw [hlast.2] at hok
  obtain rfl := Except.ok.inj hok
  refine ⟨h₁.chosen haction, fun htime => ?_⟩
  have hchoose := h₁.expired htime
  rw [haction] at hchoose
  cases hchoose

/-- The first thread blocks, and the one of a lower priority runs. -/
theorem schedule_highest_lower : ∃ s', s'.ksCurThread = 3 ∧ Chosen s' ∧ s'.ksDomainTime ≠ 0 := by
  obtain ⟨s, s', hrun, hlast, hcur⟩ : ∃ s s', Runs (OrderlyStep single) (boot single 1 2)
      [.schedule, .setPriority 3 70, .wake 3 .running, .schedule, .setCurrent .blockedOnReceive] s ∧
      exec single s .schedule = .ok s' ∧ s'.ksCurThread = 3 :=
    ⟨_, _, steps_of_eval rfl, rfl, rfl⟩
  exact ⟨s', hcur, schedule_highest single 1 2 (by decide) _ s s' hrun ⟨trivial, hlast⟩⟩

end Kernel.Sched
