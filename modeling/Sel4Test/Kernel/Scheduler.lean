import Sel4Test.Kernel.CallBoost
import Sel4Test.Lib.Checked
import Sel4Test.Lib.LevelBitmap
import Sel4Test.Lib.LinkedQueue

/-!
The scheduler without MCS, on one core: the ready queues of `src/object/tcb.c` and
`include/kernel/thread.h`, and `src/kernel/thread.c`.

Threads are named by their addresses, and a field of all threads is a function of the address.
Every `assert` and every `fail` of the source is an assertion of the model, and following a null
pointer is a fault. What a switch of threads does to the address space and to the registers is
left out, and so is what `cancelIPC` does to endpoints, notifications and reply caps.

* `Wf`: the ready queues are linked lists, and the bitmap has a bit for each that is not empty.
* `tcbSchedEnqueue_spec`, `tcbSchedAppend_spec`, `tcbSchedDequeue_spec`: the operations on them.
* `chooseThread_spec`: the thread of the highest priority is found.
-/

namespace Kernel.Sched

open Checked LevelBitmap
open LinkedQueue (Queue Holds Placed)
open Function (update update_self update_of_ne)

/-! ### The state -/

/-- `CONFIG_NUM_DOMAINS`, `CONFIG_NUM_PRIORITIES`, `CONFIG_TIME_SLICE` and `ksDomSchedule`, a
domain and a length each, with what the build and `create_domain_cap` check of them. -/
structure Config where
  numDomains : ℕ
  numPriorities : ℕ
  timeSlice : ℕ
  ksDomSchedule : List (ℕ × ℕ)
  priorities : 1 ≤ numPriorities ∧ numPriorities ≤ 256
  schedule : ksDomSchedule ≠ []
  domains : ∀ d ∈ ksDomSchedule, d.1 < numDomains ∧ 0 < d.2 ∧ d.2 < wordBound

/-- The ready queues, with the links of the threads in them. -/
structure ReadyQueues where
  tcbQueued : ℕ → Bool
  tcbSchedNext : ℕ → Option ℕ
  tcbSchedPrev : ℕ → Option ℕ
  ksReadyQueues : ℕ → Queue ℕ
  ksReadyQueuesL1Bitmap : ℕ → BitVec 64
  ksReadyQueuesL2Bitmap : ℕ → ℕ → BitVec 64

/-- What decides which thread runs. -/
structure Scheduling where
  tsType : ℕ → TsType
  tcbDomain : ℕ → ℕ
  tcbPriority : ℕ → ℕ
  tcbTimeSlice : ℕ → ℕ
  ksCurThread : ℕ
  ksIdleThread : ℕ
  ksSchedulerAction : SchedulerAction
  ksCurDomain : ℕ
  ksDomainTime : ℕ
  ksDomScheduleIdx : ℕ

/-- The state of the scheduler. -/
structure State extends ReadyQueues, Scheduling

variable (cfg : Config)

/-- `ready_queues_index`. -/
def readyQueuesIndex (dom prio : ℕ) : Except Fault ℕ :=
  if 1 < cfg.numDomains then return dom * cfg.numPriorities + prio
  else do
    assert (dom = 0)
    return prio

/-- `x--` of a word. -/
def decrement (x : ℕ) : ℕ := if x = 0 then wordBound - 1 else x - 1

/-- `L2_BITMAP_SIZE`. -/
def l2BitmapSize : ℕ := (cfg.numPriorities + 64 - 1) / 64

/-- `prio_to_l1index`. -/
def prioToL1index (prio : ℕ) : ℕ := prio >>> 6

/-- `l1index_to_prio`. -/
def l1indexToPrio (l1index : ℕ) : ℕ := l1index <<< 6

/-- `invert_l1index`. -/
def invertL1index (l1index : ℕ) : Except Fault ℕ := do
  let inverted ← sub (l2BitmapSize cfg - 1) l1index
  assert (inverted < l2BitmapSize cfg)
  return inverted

/-! ### Ready queues -/

namespace ReadyQueues

variable (r : ReadyQueues)

/-- `tcb_queue_prepend`. -/
def tcbQueuePrepend (queue : Queue ℕ) (tcb : ℕ) : Except Fault (Queue ℕ × ReadyQueues) :=
  if queue.head = none then return (⟨some tcb, some tcb⟩, r)
  else do
    let head ← deref queue.head
    return (⟨some tcb, queue.last⟩, { r with
      tcbSchedNext := update r.tcbSchedNext tcb queue.head
      tcbSchedPrev := update r.tcbSchedPrev head (some tcb) })

/-- `tcb_queue_append`. -/
def tcbQueueAppend (queue : Queue ℕ) (tcb : ℕ) : Except Fault (Queue ℕ × ReadyQueues) :=
  if queue.head = none then return (⟨some tcb, some tcb⟩, r)
  else do
    let last ← deref queue.last
    return (⟨queue.head, some tcb⟩, { r with
      tcbSchedPrev := update r.tcbSchedPrev tcb queue.last
      tcbSchedNext := update r.tcbSchedNext last (some tcb) })

/-- `tcb_queue_remove`. -/
def tcbQueueRemove (queue : Queue ℕ) (tcb : ℕ) : Except Fault (Queue ℕ × ReadyQueues) :=
  let before := r.tcbSchedPrev tcb
  let after := r.tcbSchedNext tcb
  if queue.head = some tcb ∧ queue.last = some tcb then return (⟨none, none⟩, r)
  else if queue.head = some tcb then do
    let next ← deref after
    return (⟨after, queue.last⟩, { r with
      tcbSchedPrev := update r.tcbSchedPrev next none
      tcbSchedNext := update r.tcbSchedNext tcb none })
  else if queue.last = some tcb then do
    let prev ← deref before
    return (⟨queue.head, before⟩, { r with
      tcbSchedNext := update r.tcbSchedNext prev none
      tcbSchedPrev := update r.tcbSchedPrev tcb none })
  else do
    let prev ← deref before
    let next ← deref after
    return (queue, { r with
      tcbSchedNext := update (update r.tcbSchedNext prev after) tcb none
      tcbSchedPrev := update (update r.tcbSchedPrev next before) tcb none })

/-- `addToBitmap`. -/
def addToBitmap (dom prio : ℕ) : Except Fault ReadyQueues := do
  let l1index := prioToL1index prio
  let inverted ← invertL1index cfg l1index
  let l2 := r.ksReadyQueuesL2Bitmap dom
  return { r with
    ksReadyQueuesL1Bitmap := update r.ksReadyQueuesL1Bitmap dom
      (r.ksReadyQueuesL1Bitmap dom ||| BitVec.twoPow 64 l1index)
    ksReadyQueuesL2Bitmap := update r.ksReadyQueuesL2Bitmap dom
      (update l2 inverted (l2 inverted ||| BitVec.twoPow 64 (prio % 64))) }

/-- `removeFromBitmap`. -/
def removeFromBitmap (dom prio : ℕ) : Except Fault ReadyQueues := do
  let l1index := prioToL1index prio
  let inverted ← invertL1index cfg l1index
  let l2 := r.ksReadyQueuesL2Bitmap dom
  let word := l2 inverted &&& ~~~BitVec.twoPow 64 (prio % 64)
  let l1 := r.ksReadyQueuesL1Bitmap dom
  return { r with
    ksReadyQueuesL2Bitmap := update r.ksReadyQueuesL2Bitmap dom (update l2 inverted word)
    ksReadyQueuesL1Bitmap := update r.ksReadyQueuesL1Bitmap dom
      (if word = 0#64 then l1 &&& ~~~BitVec.twoPow 64 l1index else l1) }

/-- `tcbSchedEnqueue` and `tcbSchedAppend`, which differ in the end of the queue. -/
def insert (put : ReadyQueues → Queue ℕ → ℕ → Except Fault (Queue ℕ × ReadyQueues))
    (dom prio tcb : ℕ) : Except Fault ReadyQueues :=
  if r.tcbQueued tcb then return r
  else do
    let idx ← readyQueuesIndex cfg dom prio
    let queue := r.ksReadyQueues idx
    let r ← (if queue.head = none then r.addToBitmap cfg dom prio else pure r)
    let v ← put r queue tcb
    return { v.2 with
      ksReadyQueues := update v.2.ksReadyQueues idx v.1
      tcbQueued := update v.2.tcbQueued tcb true }

/-- `tcbSchedDequeue`. -/
def remove (dom prio tcb : ℕ) : Except Fault ReadyQueues :=
  if r.tcbQueued tcb then do
    let idx ← readyQueuesIndex cfg dom prio
    let v ← r.tcbQueueRemove (r.ksReadyQueues idx) tcb
    let r : ReadyQueues := { v.2 with
      ksReadyQueues := update v.2.ksReadyQueues idx v.1
      tcbQueued := update v.2.tcbQueued tcb false }
    if v.1.head = none then r.removeFromBitmap cfg dom prio else return r
  else return r

end ReadyQueues

namespace Scheduling

variable (s : Scheduling)

/-- `isRunnable`, which is also `isSchedulable`. -/
def isRunnable (thread : ℕ) : Prop :=
  s.tsType thread = .running ∨ s.tsType thread = .restart

instance (thread : ℕ) : Decidable (s.isRunnable thread) := inferInstanceAs (Decidable (_ ∨ _))

/-- `isStopped`. -/
def isStopped (thread : ℕ) : Prop :=
  s.tsType thread = .inactive ∨ s.tsType thread = .blockedOnReceive ∨
    s.tsType thread = .blockedOnSend ∨ s.tsType thread = .blockedOnNotification ∨
    s.tsType thread = .blockedOnReply

instance (thread : ℕ) : Decidable (s.isStopped thread) := inferInstanceAs (Decidable (_ ∨ _))

end Scheduling

namespace State

variable (s : State)

/-- `tcbSchedEnqueue`. -/
def tcbSchedEnqueue (tcb : ℕ) : Except Fault State := do
  let r ← s.toReadyQueues.insert cfg ReadyQueues.tcbQueuePrepend (s.tcbDomain tcb)
    (s.tcbPriority tcb) tcb
  return { s with toReadyQueues := r }

/-- `tcbSchedAppend`. -/
def tcbSchedAppend (tcb : ℕ) : Except Fault State := do
  let r ← s.toReadyQueues.insert cfg ReadyQueues.tcbQueueAppend (s.tcbDomain tcb)
    (s.tcbPriority tcb) tcb
  return { s with toReadyQueues := r }

/-- `tcbSchedDequeue`. -/
def tcbSchedDequeue (tcb : ℕ) : Except Fault State := do
  let r ← s.toReadyQueues.remove cfg (s.tcbDomain tcb) (s.tcbPriority tcb) tcb
  return { s with toReadyQueues := r }

/-- `getHighestPrio`. -/
def getHighestPrio (dom : ℕ) : Except Fault ℕ := do
  assert (s.ksReadyQueuesL1Bitmap dom ≠ 0#64)
  let l1index := top (s.ksReadyQueuesL1Bitmap dom)
  let inverted ← invertL1index cfg l1index
  assert (s.ksReadyQueuesL2Bitmap dom inverted ≠ 0#64)
  return l1indexToPrio l1index ||| top (s.ksReadyQueuesL2Bitmap dom inverted)

/-- `isHighestPrio`. -/
def isHighestPrio (dom prio : ℕ) : Except Fault Bool :=
  if s.ksReadyQueuesL1Bitmap dom = 0#64 then return true
  else do return (← s.getHighestPrio cfg dom) ≤ prio

/-! ### Decisions -/

/-- `rescheduleRequired`. -/
def rescheduleRequired : Except Fault State := do
  let s ← (match s.ksSchedulerAction with
    | .switchTo t => s.tcbSchedEnqueue cfg t
    | _ => pure s)
  return { s with ksSchedulerAction := .chooseNewThread }

/-- `scheduleTCB`. -/
def scheduleTCB (tptr : ℕ) : Except Fault State :=
  if tptr = s.ksCurThread ∧ s.ksSchedulerAction = .resumeCurrentThread ∧ ¬ s.isRunnable tptr then
    s.rescheduleRequired cfg
  else return s

/-- `setThreadState`. -/
def setThreadState (tptr : ℕ) (ts : TsType) : Except Fault State :=
  { s with tsType := update s.tsType tptr ts }.scheduleTCB cfg tptr

/-- `possibleSwitchTo`. -/
def possibleSwitchTo (target : ℕ) : Except Fault State :=
  if s.ksCurDomain ≠ s.tcbDomain target then s.tcbSchedEnqueue cfg target
  else if s.ksSchedulerAction ≠ .resumeCurrentThread then do
    let s ← s.rescheduleRequired cfg
    s.tcbSchedEnqueue cfg target
  else return { s with ksSchedulerAction := .switchTo target }

/-- `setPriority`. -/
def setPriority (tptr prio : ℕ) : Except Fault State := do
  let s ← s.tcbSchedDequeue cfg tptr
  let s := { s with tcbPriority := update s.tcbPriority tptr prio }
  if s.isRunnable tptr then
    if tptr = s.ksCurThread then s.rescheduleRequired cfg else s.possibleSwitchTo cfg tptr
  else return s

/-- `setDomain`. -/
def setDomain (tptr dom : ℕ) : Except Fault State := do
  let s ← s.tcbSchedDequeue cfg tptr
  let s := { s with tcbDomain := update s.tcbDomain tptr dom }
  let s ← (if s.isRunnable tptr then s.tcbSchedEnqueue cfg tptr else pure s)
  if tptr = s.ksCurThread then s.rescheduleRequired cfg else return s

/-- `timerTick`. -/
def timerTick : Except Fault State := do
  let s ← (if s.tsType s.ksCurThread = .running then
      let slice := s.tcbTimeSlice s.ksCurThread
      if 1 < slice then
        pure { s with tcbTimeSlice := update s.tcbTimeSlice s.ksCurThread (slice - 1) }
      else do
        let s := { s with tcbTimeSlice := update s.tcbTimeSlice s.ksCurThread cfg.timeSlice }
        let s ← s.tcbSchedAppend cfg s.ksCurThread
        s.rescheduleRequired cfg
    else pure s)
  if 1 < cfg.numDomains then
    let s := { s with ksDomainTime := decrement s.ksDomainTime }
    if s.ksDomainTime = 0 then s.rescheduleRequired cfg else return s
  else return s

/-- `handleYield`. -/
def handleYield : Except Fault State := do
  let s ← s.tcbSchedDequeue cfg s.ksCurThread
  let s ← s.tcbSchedAppend cfg s.ksCurThread
  s.rescheduleRequired cfg

/-- What `cancelIPC` does to the state of the thread. -/
def cancelIPC (tptr : ℕ) : Except Fault State :=
  match s.tsType tptr with
  | .blockedOnSend | .blockedOnReceive | .blockedOnNotification =>
      s.setThreadState cfg tptr .inactive
  | _ => return s

/-- `suspend`. -/
def suspend (target : ℕ) : Except Fault State := do
  let s ← s.cancelIPC cfg target
  let s ← s.setThreadState cfg target .inactive
  s.tcbSchedDequeue cfg target

/-- `restart`. -/
def restart (target : ℕ) : Except Fault State :=
  if s.isStopped target then do
    let s ← s.cancelIPC cfg target
    let s ← s.setThreadState cfg target .restart
    let s ← s.tcbSchedEnqueue cfg target
    s.possibleSwitchTo cfg target
  else return s

/-- A thread receives what it waited for, or is told to go on: `setThreadState` and
`possibleSwitchTo`, as in `sendIPC`, `receiveIPC`, `sendSignal` and `doReplyTransfer`. -/
def wake (target : ℕ) (ts : TsType) : Except Fault State := do
  let s ← s.setThreadState cfg target ts
  s.possibleSwitchTo cfg target

/-- The loop of `cancelAllIPC`, `cancelBadgedSends` and `cancelAllSignals` over the threads that
wait. -/
def restartAll (threads : List ℕ) : Except Fault State := do
  let s ← threads.foldlM (fun s thread => do
    let s ← s.setThreadState cfg thread .restart
    s.tcbSchedEnqueue cfg thread) s
  s.rescheduleRequired cfg

/-! ### The choice -/

/-- `switchToThread`. -/
def switchToThread (thread : ℕ) : Except Fault State := do
  let s ← s.tcbSchedDequeue cfg thread
  return { s with ksCurThread := thread }

/-- `switchToIdleThread`. -/
def switchToIdleThread : State := { s with ksCurThread := s.ksIdleThread }

/-- `nextDomain`. -/
def nextDomain : Except Fault State := do
  let idx := if cfg.ksDomSchedule.length ≤ s.ksDomScheduleIdx + 1 then 0 else s.ksDomScheduleIdx + 1
  match cfg.ksDomSchedule[idx]? with
  | some d => return { s with
      ksDomScheduleIdx := idx
      ksCurDomain := d.1
      ksDomainTime := d.2 }
  | none => throw .null

/-- `chooseThread`. -/
def chooseThread : Except Fault State :=
  let dom := if 1 < cfg.numDomains then s.ksCurDomain else 0
  if s.ksReadyQueuesL1Bitmap dom ≠ 0#64 then do
    let prio ← s.getHighestPrio cfg dom
    let idx ← readyQueuesIndex cfg dom prio
    let thread ← deref (s.ksReadyQueues idx).head
    assert (s.isRunnable thread)
    s.switchToThread cfg thread
  else return s.switchToIdleThread

/-- `scheduleChooseNewThread`. -/
def scheduleChooseNewThread : Except Fault State := do
  let s ← (if s.ksDomainTime = 0 then s.nextDomain cfg else pure s)
  s.chooseThread cfg

/-- What `schedule` does where the action is to switch to a thread. -/
def scheduleSwitch (wasRunnable : Bool) (candidate : ℕ) : Except Fault State := do
  let cur := s.ksCurThread
  assert (s.isRunnable candidate)
  let fastfail : Bool := cur = s.ksIdleThread ∨ s.tcbPriority candidate < s.tcbPriority cur
  let high ← (if fastfail then s.isHighestPrio cfg s.ksCurDomain (s.tcbPriority candidate)
    else pure true)
  if high = false then do
    let s ← s.tcbSchedEnqueue cfg candidate
    { s with ksSchedulerAction := .chooseNewThread }.scheduleChooseNewThread cfg
  else if wasRunnable ∧ s.tcbPriority candidate = s.tcbPriority cur then do
    let s ← s.tcbSchedAppend cfg candidate
    { s with ksSchedulerAction := .chooseNewThread }.scheduleChooseNewThread cfg
  else do
    assert (candidate ≠ cur)
    s.switchToThread cfg candidate

/-- `schedule`. -/
def schedule : Except Fault State := do
  let s ← (if s.ksSchedulerAction ≠ .resumeCurrentThread then do
      let wasRunnable : Bool := s.isRunnable s.ksCurThread
      let s ← (if wasRunnable then s.tcbSchedEnqueue cfg s.ksCurThread else pure s)
      match s.ksSchedulerAction with
      | .switchTo candidate => s.scheduleSwitch cfg wasRunnable candidate
      | _ => s.scheduleChooseNewThread cfg
    else pure s)
  return { s with ksSchedulerAction := .resumeCurrentThread }

/-- `activateThread`. -/
def activateThread : Except Fault State :=
  match s.tsType s.ksCurThread with
  | .running | .idleThreadState => return s
  | .restart => s.setThreadState cfg s.ksCurThread .running
  | _ => throw .asserts

end State

/-! ### Links -/

section Links

variable {r : ReadyQueues} {place : ℕ → Option ℕ} {L : ℕ → List ℕ} {i t : ℕ} {xs ys : List ℕ}

/-- A thread that is not in a queue has no links. -/
def Unlinked (r : ReadyQueues) (place : ℕ → Option ℕ) : Prop :=
  ∀ t, place t = none → r.tcbSchedNext t = none ∧ r.tcbSchedPrev t = none

/-- What an operation on one queue leaves behind. -/
structure Relinked (r : ReadyQueues) (v : Queue ℕ × ReadyQueues) (place : ℕ → Option ℕ)
    (L : ℕ → List ℕ) (i : ℕ) : Prop where
  frame : v.2 = { r with
    tcbSchedNext := v.2.tcbSchedNext
    tcbSchedPrev := v.2.tcbSchedPrev }
  placed : Placed v.2.tcbSchedNext v.2.tcbSchedPrev (update r.ksReadyQueues i v.1) place L
  unlinked : Unlinked v.2 place

/-- `put` puts a thread into a queue, at the place that `at'` says. -/
def Puts (put : ReadyQueues → Queue ℕ → ℕ → Except Fault (Queue ℕ × ReadyQueues))
    (at' : ℕ → List ℕ → List ℕ) : Prop :=
  (∀ t xs, at' t xs ≠ [] ∧ ∀ u, u ∈ at' t xs ↔ u = t ∨ u ∈ xs) ∧
    ∀ r place L i t, Placed r.tcbSchedNext r.tcbSchedPrev r.ksReadyQueues place L →
      Unlinked r place → place t = none →
      Gives (put r (r.ksReadyQueues i) t) fun v =>
        Relinked r v (update place t (some i)) (update L i (at' t (L i))) i

/-- Threads other than the one that is put in, and its neighbour, keep their links. -/
lemma Unlinked.put {r' : ReadyQueues} (U : Unlinked r place)
    (hlinks : ∀ u, u ≠ t → place u = none →
      r'.tcbSchedNext u = r.tcbSchedNext u ∧ r'.tcbSchedPrev u = r.tcbSchedPrev u) :
    Unlinked r' (update place t (some i)) := by
  intro u hu
  by_cases hut : u = t
  · subst hut
    rw [update_self] at hu
    cases hu
  · rw [update_of_ne hut] at hu
    rw [(hlinks u hut hu).1, (hlinks u hut hu).2]
    exact U u hu

lemma puts_tcbQueuePrepend : Puts ReadyQueues.tcbQueuePrepend List.cons := by
  refine ⟨fun t xs => ⟨List.cons_ne_nil t xs, fun u => List.mem_cons⟩, fun r place L i t P U ht => ?_⟩
  have H := P.holds i
  rw [ReadyQueues.tcbQueuePrepend]
  by_cases hhead : (r.ksReadyQueues i).head = none
  · have hnil : L i = [] := H.head_none.mp hhead
    rw [if_pos hhead]
    refine gives_ok ⟨rfl, ?_, U.put fun u _ _ => ⟨rfl, rfl⟩⟩
    have hplaced := P.prepend (i := i) (n := r.tcbSchedNext) (p := r.tcbSchedPrev) ht (U t ht).2
      (by rw [hnil]; exact (U t ht).1) fun x _ => by rw [hnil]; exact ⟨rfl, rfl⟩
    rw [hnil] at hplaced ⊢
    exact hplaced
  · obtain ⟨head, hsome⟩ := Option.ne_none_iff_exists'.mp hhead
    have hL : (L i).head? = some head := by rw [← H.head_eq, hsome]
    have hmem : head ∈ L i := List.mem_of_mem_head? hL
    have hne : head ≠ t := by
      rintro rfl
      exact P.notMem ht hmem
    rw [if_neg hhead]
    refine (gives_deref hsome).bind fun a ha => ?_
    subst ha
    refine gives_ok ⟨rfl, ?_, U.put fun u hut hu => ?_⟩
    · have hplaced := P.prepend (i := i) (n := update r.tcbSchedNext t (r.ksReadyQueues i).head)
        (p := update r.tcbSchedPrev a (some t)) ht
        (by rw [update_of_ne hne.symm]; exact (U t ht).2) (by rw [update_self, H.head_eq])
        fun x hx => by
          rw [update_of_ne hx, hL]
          refine ⟨?_, rfl⟩
          by_cases hxa : x = a
          · rw [hxa, update_self, if_pos rfl]
          · rw [update_of_ne hxa, if_neg (by simpa using Ne.symm hxa)]
      have hlast : (r.ksReadyQueues i).last = (t :: L i).getLast? := by
        rw [H.last_eq]
        cases hLi : L i with
        | nil =>
            rw [hLi] at hmem
            cases hmem
        | cons x xs => rw [List.getLast?_cons_cons]
      rw [hlast]
      exact hplaced
    · have hua : u ≠ a := by
        rintro rfl
        exact P.notMem hu hmem
      exact ⟨update_of_ne hut .., update_of_ne hua ..⟩

lemma puts_tcbQueueAppend :
    Puts ReadyQueues.tcbQueueAppend fun t xs => xs ++ [t] := by
  refine ⟨fun t xs => ⟨by simp, fun u => by simp [or_comm]⟩, fun r place L i t P U ht => ?_⟩
  have H := P.holds i
  rw [ReadyQueues.tcbQueueAppend]
  by_cases hhead : (r.ksReadyQueues i).head = none
  · have hnil : L i = [] := H.head_none.mp hhead
    rw [if_pos hhead]
    refine gives_ok ⟨rfl, ?_, U.put fun u _ _ => ⟨rfl, rfl⟩⟩
    have hplaced := P.append (i := i) (n := r.tcbSchedNext) (p := r.tcbSchedPrev) ht (U t ht).1
      (by rw [hnil]; exact (U t ht).2) fun x _ => by rw [hnil]; exact ⟨rfl, rfl⟩
    rw [hnil] at hplaced ⊢
    exact hplaced
  · have hLi : L i ≠ [] := fun hnil => hhead (H.head_none.mpr hnil)
    obtain ⟨last, hsome⟩ := Option.ne_none_iff_exists'.mp fun h => hLi (H.last_none.mp h)
    have hL : (L i).getLast? = some last := by rw [← H.last_eq, hsome]
    have hmem : last ∈ L i := List.mem_of_mem_getLast? hL
    have hne : last ≠ t := by
      rintro rfl
      exact P.notMem ht hmem
    rw [if_neg hhead]
    refine (gives_deref hsome).bind fun a ha => ?_
    subst ha
    refine gives_ok ⟨rfl, ?_, U.put fun u hut hu => ?_⟩
    · have hplaced := P.append (i := i) (n := update r.tcbSchedNext a (some t))
        (p := update r.tcbSchedPrev t (r.ksReadyQueues i).last) ht
        (by rw [update_of_ne hne.symm]; exact (U t ht).1) (by rw [update_self, H.last_eq])
        fun x hx => by
          rw [update_of_ne hx, hL]
          refine ⟨?_, rfl⟩
          by_cases hxa : x = a
          · rw [hxa, update_self, if_pos rfl]
          · rw [update_of_ne hxa, if_neg (by simpa using Ne.symm hxa)]
      have hfirst : (r.ksReadyQueues i).head = (L i ++ [t]).head? := by
        rw [H.head_eq, List.head?_append_of_ne_nil _ hLi]
      rw [hfirst]
      exact hplaced
    · have hua : u ≠ a := by
        rintro rfl
        exact P.notMem hu hmem
      exact ⟨update_of_ne hua .., update_of_ne hut ..⟩

/-- The links and the ends to which a queue without one of its threads comes. -/
lemma Unlinked.removed (P : Placed r.tcbSchedNext r.tcbSchedPrev r.ksReadyQueues place L)
    (U : Unlinked r place) (hL : L i = xs ++ t :: ys) {q : Queue ℕ} {n p : ℕ → Option ℕ}
    (hq : q = ⟨(xs ++ ys).head?, (xs ++ ys).getLast?⟩)
    (hn : ∀ x, x ≠ t → n x = if xs.getLast? = some x then ys.head? else r.tcbSchedNext x)
    (hp : ∀ x, x ≠ t → p x = if ys.head? = some x then xs.getLast? else r.tcbSchedPrev x)
    (hnt : n t = none) (hpt : p t = none) :
    Relinked r (q, { r with tcbSchedNext := n, tcbSchedPrev := p }) (update place t none)
      (update L i (xs ++ ys)) i ∧ q = ⟨(xs ++ ys).head?, (xs ++ ys).getLast?⟩ := by
  subst hq
  have hin : ∀ x ∈ xs ++ ys, place x ≠ none := by
    intro x hx hnone
    refine P.notMem (i := i) hnone ?_
    rw [hL]
    rcases List.mem_append.mp hx with hx | hx <;> simp [hx]
  refine ⟨⟨rfl, P.remove hL hn hp, fun u hu => ?_⟩, rfl⟩
  by_cases hut : u = t
  · subst hut
    exact ⟨hnt, hpt⟩
  · -- a thread in no queue is not a neighbour of the one that leaves
    rw [update_of_ne hut] at hu
    have hnx : xs.getLast? ≠ some u := fun h =>
      hin u (List.mem_append_left _ (List.mem_of_mem_getLast? h)) hu
    have hny : ys.head? ≠ some u := fun h =>
      hin u (List.mem_append_right _ (List.mem_of_mem_head? h)) hu
    dsimp only
    rw [hn u hut, if_neg hnx, hp u hut, if_neg hny]
    exact U u hu

/-- `tcb_queue_remove` takes the thread out of the queue. -/
lemma tcbQueueRemove_spec (P : Placed r.tcbSchedNext r.tcbSchedPrev r.ksReadyQueues place L)
    (U : Unlinked r place) (hL : L i = xs ++ t :: ys) :
    Gives (r.tcbQueueRemove (r.ksReadyQueues i) t) fun v =>
      Relinked r v (update place t none) (update L i (xs ++ ys)) i ∧
        v.1 = ⟨(xs ++ ys).head?, (xs ++ ys).getLast?⟩ := by
  have H := P.holds i
  rw [hL] at H
  obtain ⟨hprev, hnext⟩ := H.links xs t ys rfl
  have hnodup := H.nodup
  rw [List.nodup_middle, List.nodup_cons] at hnodup
  have hxt : ∀ x ∈ xs ++ ys, x ≠ t := by
    rintro x hx rfl
    exact hnodup.1 hx
  have hqueue : r.ksReadyQueues i = ⟨(xs ++ t :: ys).head?, (xs ++ t :: ys).getLast?⟩ := H.queue_eq
  rw [ReadyQueues.tcbQueueRemove, hprev, hnext, hqueue]
  -- the thread is alone, first, last, or between two others
  rcases List.eq_nil_or_concat xs with rfl | ⟨xs, a, rfl⟩
  · cases ys with
    | nil =>
        rw [if_pos (by simp)]
        exact gives_ok (U.removed P hL rfl (by simp) (by simp) (by simpa using hnext)
          (by simpa using hprev))
    | cons b ys =>
        have hbt : b ≠ t := hxt b (by simp)
        have hlast : (b :: ys).getLast? ≠ some t := fun h =>
          hxt t (by simpa using List.mem_of_mem_getLast? h) rfl
        rw [if_neg (by simpa using hlast), if_pos (by simp)]
        refine (gives_deref rfl).bind fun a ha => ?_
        subst ha
        refine gives_ok (U.removed P hL (by simp) (fun x hx => ?_) (fun x hx => ?_) ?_ ?_)
        · rw [update_of_ne hx]
          simp
        · by_cases hxa : x = a
          · subst hxa
            simp
          · rw [update_of_ne hxa]
            simp [Ne.symm hxa]
        · exact update_self ..
        · rw [update_of_ne hbt.symm]
          simpa using hprev
  · rw [List.concat_eq_append] at *
    have hat : a ≠ t := hxt a (by simp)
    have hhead : (xs ++ [a]).head? ≠ some t := fun h =>
      hxt t (List.mem_append_left _ (List.mem_of_mem_head? h)) rfl
    have hlasta : (xs ++ [a]).getLast? = some a := List.getLast?_concat
    have hfirst : (xs ++ [a] ++ t :: ys).head? = (xs ++ [a]).head? :=
      List.head?_append_of_ne_nil _ (by simp)
    rw [if_neg (by rw [hfirst]; exact fun h => hhead h.1), if_neg (by rwa [hfirst])]
    cases ys with
    | nil =>
        rw [if_pos (by simp)]
        refine (gives_deref hlasta).bind fun b hb => ?_
        subst hb
        refine gives_ok (U.removed P hL (by simp) (fun x hx => ?_) (fun x hx => ?_) ?_ ?_)
        · by_cases hxb : x = b
          · subst hxb
            simp
          · rw [update_of_ne hxb, hlasta, if_neg (by simpa using Ne.symm hxb)]
        · rw [update_of_ne hx]
          simp
        · rw [update_of_ne hat.symm]
          simpa using hnext
        · exact update_self ..
    | cons b ys =>
        have hbt : b ≠ t := hxt b (by simp)
        have hlast : (xs ++ [a] ++ t :: b :: ys).getLast? ≠ some t := by
          intro h
          have hmem : t ∈ b :: ys := by
            refine List.mem_of_mem_getLast? ?_
            rwa [List.getLast?_append_cons, List.getLast?_cons_cons] at h
          exact hxt t (List.mem_append_right _ hmem) rfl
        rw [if_neg hlast]
        refine (gives_deref hlasta).bind fun a' ha => ?_
        subst ha
        refine (gives_deref rfl).bind fun b' hb => ?_
        subst hb
        refine gives_ok (U.removed P hL ?_ (fun x hx => ?_) (fun x hx => ?_) ?_ ?_)
        · rw [List.getLast?_append_cons, List.getLast?_cons_cons, List.getLast?_append_cons]
          simp
        · rw [update_of_ne hx, hlasta]
          by_cases hxa : x = a'
          · rw [hxa, update_self, if_pos rfl]
          · rw [update_of_ne hxa, if_neg (by simpa using Ne.symm hxa)]
        · rw [update_of_ne hx]
          by_cases hxb : x = b'
          · subst hxb
            simp
          · rw [update_of_ne hxb]
            simp [Ne.symm hxb]
        · exact update_self ..
        · exact update_self ..

end Links

/-! ### The queues of all domains and priorities -/

/-- The place of a queue in `ksReadyQueues`. -/
def Config.index (dom prio : ℕ) : ℕ :=
  if 1 < cfg.numDomains then dom * cfg.numPriorities + prio else prio

variable {cfg} {dom prio dom' prio' t : ℕ}

lemma readyQueuesIndex_eq (hdom : dom < cfg.numDomains) :
    readyQueuesIndex cfg dom prio = .ok (cfg.index dom prio) := by
  rw [readyQueuesIndex, Config.index]
  by_cases hmany : 1 < cfg.numDomains
  · rw [if_pos hmany, if_pos hmany]
    rfl
  · have hzero : dom = 0 := by omega
    rw [if_neg hmany, if_neg hmany, assert, if_pos hzero]
    rfl

/-- Domains and priorities have queues of their own. -/
lemma index_inj (hdom : dom < cfg.numDomains) (hdom' : dom' < cfg.numDomains)
    (hprio : prio < cfg.numPriorities) (hprio' : prio' < cfg.numPriorities)
    (h : cfg.index dom prio = cfg.index dom' prio') : dom = dom' ∧ prio = prio' := by
  rw [Config.index, Config.index] at h
  by_cases hmany : 1 < cfg.numDomains
  · rw [if_pos hmany, if_pos hmany] at h
    have hfst := (div_mod_eq (k := dom) hprio).1
    have hsnd := (div_mod_eq (k := dom) hprio).2
    rw [h, (div_mod_eq hprio').1] at hfst
    rw [h, (div_mod_eq hprio').2] at hsnd
    exact ⟨hfst.symm, hsnd.symm⟩
  · rw [if_neg hmany, if_neg hmany] at h
    exact ⟨by omega, h⟩

lemma prioToL1index_eq : prioToL1index prio = prio / 64 := Nat.shiftRight_eq_div_pow prio 6

lemma l1index_lt (hprio : prio < cfg.numPriorities) : prio / 64 < l2BitmapSize cfg := by
  rw [l2BitmapSize]
  omega

lemma l2BitmapSize_le : l2BitmapSize cfg ≤ 64 := by
  have hle := cfg.priorities.2
  rw [l2BitmapSize]
  omega

lemma lt_l2BitmapSize (hprio : prio < cfg.numPriorities) : prio < l2BitmapSize cfg * 64 := by
  rw [l2BitmapSize]
  omega

lemma invertL1index_eq {l1index : ℕ} (h : l1index < l2BitmapSize cfg) :
    invertL1index cfg l1index = .ok (l2BitmapSize cfg - 1 - l1index) := by
  have hle : l1index ≤ l2BitmapSize cfg - 1 := by omega
  have hlt : l2BitmapSize cfg - 1 - l1index < l2BitmapSize cfg := by omega
  rw [invertL1index, sub, if_pos hle]
  simp only [bind, Except.bind, assert, if_pos hlt]
  rfl

/-- The queue of a thread that is in one. -/
def ReadyQueues.place (cfg : Config) (r : ReadyQueues) (dom prio : ℕ → ℕ) (t : ℕ) : Option ℕ :=
  if r.tcbQueued t then some (cfg.index (dom t) (prio t)) else none

/-- **The ready queues are well-formed**: they are the lists, each thread is in the queue of its
domain and its priority or in none, and the bitmap has a bit for each that is not empty. -/
structure Wf (cfg : Config) (r : ReadyQueues) (dom prio : ℕ → ℕ) (L : ℕ → List ℕ) : Prop where
  placed : Placed r.tcbSchedNext r.tcbSchedPrev r.ksReadyQueues (r.place cfg dom prio) L
  unlinked : Unlinked r (r.place cfg dom prio)
  marks : ∀ d < cfg.numDomains, Marks (l2BitmapSize cfg) (r.ksReadyQueuesL1Bitmap d)
    (r.ksReadyQueuesL2Bitmap d) fun p => p < cfg.numPriorities ∧ L (cfg.index d p) ≠ []

/-- Domains and priorities are in range. -/
def InRange (cfg : Config) (dom prio : ℕ → ℕ) : Prop :=
  ∀ t, dom t < cfg.numDomains ∧ prio t < cfg.numPriorities

section Queues

variable {r : ReadyQueues} {D P : ℕ → ℕ} {L : ℕ → List ℕ}

lemma place_eq_none : r.place cfg D P t = none ↔ r.tcbQueued t = false := by
  rw [ReadyQueues.place]
  cases r.tcbQueued t <;> simp

/-- The flag of one thread changes. -/
lemma place_update {r' : ReadyQueues} {b : Bool} (h : r'.tcbQueued = update r.tcbQueued t b) :
    r'.place cfg D P =
      update (r.place cfg D P) t (if b then some (cfg.index (D t) (P t)) else none) := by
  funext u
  rw [ReadyQueues.place, h]
  by_cases hu : u = t
  · subst hu
    rw [update_self, update_self]
  · rw [update_of_ne hu, update_of_ne hu]
    rfl

lemma Wf.mem_iff (W : Wf cfg r D P L) {i : ℕ} :
    t ∈ L i ↔ r.tcbQueued t = true ∧ cfg.index (D t) (P t) = i := by
  rw [W.placed.mem, ReadyQueues.place]
  cases r.tcbQueued t <;> simp

/-- A thread that is in no queue may change its domain and its priority. -/
lemma Wf.congr (W : Wf cfg r D P L) {D' P' : ℕ → ℕ}
    (h : ∀ t, r.tcbQueued t = true → D' t = D t ∧ P' t = P t) : Wf cfg r D' P' L := by
  have hplace : r.place cfg D' P' = r.place cfg D P := by
    funext t
    rw [ReadyQueues.place, ReadyQueues.place]
    cases hqueued : r.tcbQueued t with
    | false => rfl
    | true => rw [(h t hqueued).1, (h t hqueued).2]
  exact ⟨by rw [hplace]; exact W.placed, by rw [hplace]; exact W.unlinked, W.marks⟩

/-- Another queue than that of the domain and the priority. -/
lemma index_ne (hdom : dom < cfg.numDomains) (hdom' : dom' < cfg.numDomains)
    (hprio : prio < cfg.numPriorities) (hprio' : prio' < cfg.numPriorities)
    (h : dom' ≠ dom ∨ prio' ≠ prio) : cfg.index dom' prio' ≠ cfg.index dom prio := by
  intro heq
  obtain ⟨hd, hp⟩ := index_inj hdom' hdom hprio' hprio heq
  rcases h with h | h
  · exact h hd
  · exact h hp

/-- `addToBitmap`, where the queue is no longer empty. -/
lemma addToBitmap_spec (hdom : dom < cfg.numDomains) (hprio : prio < cfg.numPriorities)
    (L' : ℕ → List ℕ)
    (hmarks : ∀ d < cfg.numDomains, Marks (l2BitmapSize cfg) (r.ksReadyQueuesL1Bitmap d)
      (r.ksReadyQueuesL2Bitmap d) fun p => p < cfg.numPriorities ∧ L (cfg.index d p) ≠ [])
    (hother : ∀ i, i ≠ cfg.index dom prio → L' i = L i) (hnew : L' (cfg.index dom prio) ≠ []) :
    Gives (r.addToBitmap cfg dom prio) fun r' =>
      r' = { r with
        ksReadyQueuesL1Bitmap := r'.ksReadyQueuesL1Bitmap
        ksReadyQueuesL2Bitmap := r'.ksReadyQueuesL2Bitmap } ∧
      ∀ d < cfg.numDomains, Marks (l2BitmapSize cfg) (r'.ksReadyQueuesL1Bitmap d)
        (r'.ksReadyQueuesL2Bitmap d) fun p => p < cfg.numPriorities ∧ L' (cfg.index d p) ≠ [] := by
  have hlt := l1index_lt hprio
  rw [ReadyQueues.addToBitmap, prioToL1index_eq, invertL1index_eq hlt]
  refine gives_ok ⟨rfl, fun d hd => ?_⟩
  by_cases hdd : d = dom
  · subst hdd
    dsimp only
    rw [update_self, update_self]
    refine ((hmarks d hd).add (by norm_num) l2BitmapSize_le hlt).congr fun p _ => ?_
    by_cases hp : p = prio
    · subst hp
      exact iff_of_true (.inl rfl) ⟨hprio, hnew⟩
    · rw [or_iff_right hp]
      refine and_congr_right fun hp' => ?_
      rw [hother _ (index_ne hdom hd hprio hp' (.inr hp))]
  · dsimp only
    rw [update_of_ne hdd, update_of_ne hdd]
    refine (hmarks d hd).congr fun p _ => and_congr_right fun hp => ?_
    rw [hother _ (index_ne hdom hd hprio hp (.inl hdd))]

/-- `removeFromBitmap`, where the queue is empty now. -/
lemma removeFromBitmap_spec (hdom : dom < cfg.numDomains) (hprio : prio < cfg.numPriorities)
    (L' : ℕ → List ℕ)
    (hmarks : ∀ d < cfg.numDomains, Marks (l2BitmapSize cfg) (r.ksReadyQueuesL1Bitmap d)
      (r.ksReadyQueuesL2Bitmap d) fun p => p < cfg.numPriorities ∧ L (cfg.index d p) ≠ [])
    (hother : ∀ i, i ≠ cfg.index dom prio → L' i = L i) (hnew : L' (cfg.index dom prio) = []) :
    Gives (r.removeFromBitmap cfg dom prio) fun r' =>
      r' = { r with
        ksReadyQueuesL1Bitmap := r'.ksReadyQueuesL1Bitmap
        ksReadyQueuesL2Bitmap := r'.ksReadyQueuesL2Bitmap } ∧
      ∀ d < cfg.numDomains, Marks (l2BitmapSize cfg) (r'.ksReadyQueuesL1Bitmap d)
        (r'.ksReadyQueuesL2Bitmap d) fun p => p < cfg.numPriorities ∧ L' (cfg.index d p) ≠ [] := by
  have hlt := l1index_lt hprio
  rw [ReadyQueues.removeFromBitmap, prioToL1index_eq, invertL1index_eq hlt]
  refine gives_ok ⟨rfl, fun d hd => ?_⟩
  by_cases hdd : d = dom
  · subst hdd
    dsimp only
    rw [update_self, update_self]
    refine ((hmarks d hd).remove hlt rfl).congr fun p _ => ?_
    by_cases hp : p = prio
    · subst hp
      exact iff_of_false (fun h => h.1 rfl) fun h => h.2 hnew
    · rw [and_iff_right hp]
      refine and_congr_right fun hp' => ?_
      rw [hother _ (index_ne hdom hd hprio hp' (.inr hp))]
  · dsimp only
    rw [update_of_ne hdd, update_of_ne hdd]
    refine (hmarks d hd).congr fun p _ => and_congr_right fun hp => ?_
    rw [hother _ (index_ne hdom hd hprio hp (.inl hdd))]

/-- **A thread that is in no queue comes into that of its domain and its priority.** -/
lemma insert_spec (W : Wf cfg r D P L) (hrange : InRange cfg D P)
    {put : ReadyQueues → Queue ℕ → ℕ → Except Fault (Queue ℕ × ReadyQueues)}
    {at' : ℕ → List ℕ → List ℕ} (hput : Puts put at') (ht : r.tcbQueued t = false) :
    Gives (r.insert cfg put (D t) (P t) t) fun r' =>
      Wf cfg r' D P (update L (cfg.index (D t) (P t)) (at' t (L (cfg.index (D t) (P t))))) ∧
        r'.tcbQueued = update r.tcbQueued t true := by
  obtain ⟨hdom, hprio⟩ := hrange t
  rw [ReadyQueues.insert, if_neg (by simp [ht]), readyQueuesIndex_eq hdom]
  generalize hi : cfg.index (D t) (P t) = i
  have H := W.placed.holds i
  have hmem := (hput.1 t (L i)).1
  have hother : ∀ j, j ≠ i → update L i (at' t (L i)) j = L j := fun j hj => update_of_ne hj ..
  have hplace : r.place cfg D P t = none := place_eq_none.mpr ht
  -- the bitmap first, and then the links
  have hbits : Gives (if (r.ksReadyQueues i).head = none then r.addToBitmap cfg (D t) (P t)
      else pure r) fun r' => r' = { r with
        ksReadyQueuesL1Bitmap := r'.ksReadyQueuesL1Bitmap
        ksReadyQueuesL2Bitmap := r'.ksReadyQueuesL2Bitmap } ∧
      ∀ d < cfg.numDomains, Marks (l2BitmapSize cfg) (r'.ksReadyQueuesL1Bitmap d)
        (r'.ksReadyQueuesL2Bitmap d) fun p =>
          p < cfg.numPriorities ∧ update L i (at' t (L i)) (cfg.index d p) ≠ [] := by
    by_cases hhead : (r.ksReadyQueues i).head = none
    · rw [if_pos hhead]
      refine addToBitmap_spec hdom hprio _ W.marks (by rwa [hi]) ?_
      rw [hi, update_self]
      exact hmem
    · rw [if_neg hhead]
      refine gives_ok ⟨rfl, fun d hd => (W.marks d hd).congr fun p _ => and_congr_right fun _ => ?_⟩
      by_cases hip : cfg.index d p = i
      · rw [hip, update_self]
        exact iff_of_true (fun hnil => hhead (H.head_none.mpr hnil)) hmem
      · rw [hother _ hip]
  refine hbits.bind fun r₁ hr₁ => ?_
  obtain ⟨hframe, hmarks⟩ := hr₁
  have hsame : r₁.tcbSchedNext = r.tcbSchedNext ∧ r₁.tcbSchedPrev = r.tcbSchedPrev ∧
      r₁.ksReadyQueues = r.ksReadyQueues ∧ r₁.tcbQueued = r.tcbQueued := by
    rw [hframe]
    exact ⟨rfl, rfl, rfl, rfl⟩
  have hlinks := hput.2 r₁ (r.place cfg D P) L i t
    (by rw [hsame.1, hsame.2.1, hsame.2.2.1]; exact W.placed)
    (by intro u hu; rw [hsame.1, hsame.2.1]; exact W.unlinked u hu) hplace
  rw [hsame.2.2.1] at hlinks
  refine hlinks.bind fun v hv => gives_ok ?_
  have hqueued : v.2.tcbQueued = r.tcbQueued := by rw [hv.frame, ← hsame.2.2.2]
  have hqueues : v.2.ksReadyQueues = r.ksReadyQueues := by rw [hv.frame, ← hsame.2.2.1]
  have hl1 : v.2.ksReadyQueuesL1Bitmap = r₁.ksReadyQueuesL1Bitmap := by rw [hv.frame]
  have hl2 : v.2.ksReadyQueuesL2Bitmap = r₁.ksReadyQueuesL2Bitmap := by rw [hv.frame]
  have hflag : update v.2.tcbQueued t true = update r.tcbQueued t true := by rw [hqueued]
  have hplace' : ReadyQueues.place cfg { v.2 with
      ksReadyQueues := update v.2.ksReadyQueues i v.1
      tcbQueued := update v.2.tcbQueued t true } D P = update (r.place cfg D P) t (some i) := by
    rw [place_update hflag, if_pos rfl, hi]
  refine ⟨⟨?_, ?_, ?_⟩, ?_⟩
  · rw [hplace']
    dsimp only
    rw [hqueues, ← hsame.2.2.1]
    exact hv.placed
  · rw [hplace']
    exact hv.unlinked
  · dsimp only
    rw [hl1, hl2]
    exact hmarks
  · exact hflag

/-- **A thread goes out of its queue.** -/
lemma remove_spec (W : Wf cfg r D P L) (hrange : InRange cfg D P) {xs ys : List ℕ}
    (hL : L (cfg.index (D t) (P t)) = xs ++ t :: ys) :
    Gives (r.remove cfg (D t) (P t) t) fun r' =>
      Wf cfg r' D P (update L (cfg.index (D t) (P t)) (xs ++ ys)) ∧
        r'.tcbQueued = update r.tcbQueued t false := by
  obtain ⟨hdom, hprio⟩ := hrange t
  have ht : r.tcbQueued t = true := (W.mem_iff.mp (by rw [hL]; simp)).1
  rw [ReadyQueues.remove, if_pos ht, readyQueuesIndex_eq hdom]
  generalize hi : cfg.index (D t) (P t) = i at hL ⊢
  have hother : ∀ j, j ≠ i → update L i (xs ++ ys) j = L j := fun j hj => update_of_ne hj ..
  refine (tcbQueueRemove_spec W.placed W.unlinked hL).bind fun v hv => ?_
  obtain ⟨hv, hq⟩ := hv
  have hqueued : v.2.tcbQueued = r.tcbQueued := by rw [hv.frame]
  have hqueues : v.2.ksReadyQueues = r.ksReadyQueues := by rw [hv.frame]
  have hl1 : v.2.ksReadyQueuesL1Bitmap = r.ksReadyQueuesL1Bitmap := by rw [hv.frame]
  have hl2 : v.2.ksReadyQueuesL2Bitmap = r.ksReadyQueuesL2Bitmap := by rw [hv.frame]
  let r₁ : ReadyQueues := { v.2 with
    ksReadyQueues := update v.2.ksReadyQueues i v.1
    tcbQueued := update v.2.tcbQueued t false }
  have hflag : r₁.tcbQueued = update r.tcbQueued t false := by rw [← hqueued]
  have hplace' : ∀ r' : ReadyQueues, r'.tcbQueued = r₁.tcbQueued →
      r'.place cfg D P = update (r.place cfg D P) t none := fun r' hr' =>
    place_update (hr'.trans hflag)
  have hplaced : Placed r₁.tcbSchedNext r₁.tcbSchedPrev r₁.ksReadyQueues
      (update (r.place cfg D P) t none) (update L i (xs ++ ys)) := by
    have h := hv.placed
    rw [← hqueues] at h
    exact h
  -- only a queue that is left empty loses its bits
  by_cases hempty : v.1.head = none
  · have hnil : xs ++ ys = [] := by
      rw [hq] at hempty
      exact List.head?_eq_none_iff.mp hempty
    dsimp only
    rw [if_pos hempty]
    refine (removeFromBitmap_spec (r := r₁) (L := L) hdom hprio (update L i (xs ++ ys))
      (fun d hd => ?_) (by rwa [hi]) ?_).mono fun r₂ hr₂ => ?_
    · have hmarks := W.marks d hd
      rw [← hl1, ← hl2] at hmarks
      exact hmarks
    · rw [hi, update_self, hnil]
    · obtain ⟨hframe, hmarks⟩ := hr₂
      have hsame : r₂.tcbSchedNext = r₁.tcbSchedNext ∧ r₂.tcbSchedPrev = r₁.tcbSchedPrev ∧
          r₂.ksReadyQueues = r₁.ksReadyQueues ∧ r₂.tcbQueued = r₁.tcbQueued := by
        rw [hframe]
        exact ⟨rfl, rfl, rfl, rfl⟩
      refine ⟨⟨?_, ?_, hmarks⟩, ?_⟩
      · rw [hplace' r₂ hsame.2.2.2, hsame.1, hsame.2.1, hsame.2.2.1]
        exact hplaced
      · rw [hplace' r₂ hsame.2.2.2]
        intro u hu
        rw [hsame.1, hsame.2.1]
        exact hv.unlinked u hu
      · rw [hsame.2.2.2, ← hqueued]
  · have hne : xs ++ ys ≠ [] := by
      intro hnil
      refine hempty ?_
      rw [hq, hnil]
      rfl
    dsimp only
    rw [if_neg hempty]
    refine gives_ok ⟨⟨?_, ?_, fun d hd => ?_⟩, ?_⟩
    · rw [hplace' r₁ rfl]
      exact hplaced
    · rw [hplace' r₁ rfl]
      exact hv.unlinked
    · have hmarks : Marks (l2BitmapSize cfg) (v.2.ksReadyQueuesL1Bitmap d)
          (v.2.ksReadyQueuesL2Bitmap d) fun p =>
            p < cfg.numPriorities ∧ L (cfg.index d p) ≠ [] := by
        rw [hl1, hl2]
        exact W.marks d hd
      refine hmarks.congr fun p _ => and_congr_right fun _ => ?_
      by_cases hip : cfg.index d p = i
      · rw [hip, update_self, hL]
        exact iff_of_true (by simp) hne
      · rw [hother _ hip]
    · dsimp only
      rw [hqueued]

end Queues

/-! ### The choice of a thread -/

section Choice

variable {s : State} {L : ℕ → List ℕ}

/-- `tcbSchedAppend`, for a thread that is in no queue. -/
lemma tcbSchedAppend_spec (W : Wf cfg s.toReadyQueues s.tcbDomain s.tcbPriority L)
    (hrange : InRange cfg s.tcbDomain s.tcbPriority) (ht : s.tcbQueued t = false) :
    Gives (s.tcbSchedAppend cfg t) fun s' => s'.toScheduling = s.toScheduling ∧
      Wf cfg s'.toReadyQueues s.tcbDomain s.tcbPriority
        (update L (cfg.index (s.tcbDomain t) (s.tcbPriority t))
          (L (cfg.index (s.tcbDomain t) (s.tcbPriority t)) ++ [t])) ∧
      s'.tcbQueued = update s.tcbQueued t true := by
  rw [State.tcbSchedAppend]
  exact (insert_spec W hrange puts_tcbQueueAppend ht).bind fun r hr => gives_ok ⟨rfl, hr.1, hr.2⟩

/-- `tcbSchedDequeue`, for a thread in a queue. -/
lemma tcbSchedDequeue_spec (W : Wf cfg s.toReadyQueues s.tcbDomain s.tcbPriority L)
    (hrange : InRange cfg s.tcbDomain s.tcbPriority) {xs ys : List ℕ}
    (hL : L (cfg.index (s.tcbDomain t) (s.tcbPriority t)) = xs ++ t :: ys) :
    Gives (s.tcbSchedDequeue cfg t) fun s' => s'.toScheduling = s.toScheduling ∧
      Wf cfg s'.toReadyQueues s.tcbDomain s.tcbPriority
        (update L (cfg.index (s.tcbDomain t) (s.tcbPriority t)) (xs ++ ys)) ∧
      s'.tcbQueued = update s.tcbQueued t false := by
  rw [State.tcbSchedDequeue]
  exact (remove_spec W hrange hL).bind fun r hr => gives_ok ⟨rfl, hr.1, hr.2⟩

/-- The first level of the bitmap is zero if all queues of the domain are empty. -/
lemma bitmap_eq_zero (W : Wf cfg s.toReadyQueues s.tcbDomain s.tcbPriority L)
    (hdom : dom < cfg.numDomains) : s.ksReadyQueuesL1Bitmap dom = 0#64 ↔
      ∀ p < cfg.numPriorities, L (cfg.index dom p) = [] := by
  rw [(W.marks dom hdom).eq_zero l2BitmapSize_le]
  constructor
  · intro h p hp
    by_contra hne
    exact h p (lt_l2BitmapSize hp) ⟨hp, hne⟩
  · rintro h p - ⟨hp, hne⟩
    exact hne (h p hp)

/-- `getHighestPrio`, where a queue of the domain is not empty. -/
lemma getHighestPrio_spec (W : Wf cfg s.toReadyQueues s.tcbDomain s.tcbPriority L)
    (hdom : dom < cfg.numDomains) (hne : s.ksReadyQueuesL1Bitmap dom ≠ 0#64) :
    Gives (s.getHighestPrio cfg dom) fun p => (p < cfg.numPriorities ∧ L (cfg.index dom p) ≠ []) ∧
      ∀ q < cfg.numPriorities, L (cfg.index dom q) ≠ [] → q ≤ p := by
  obtain ⟨hlt, hword, hmark, hmax⟩ := (W.marks dom hdom).highest l2BitmapSize_le hne
  rw [State.getHighestPrio]
  refine (gives_assert hne).bind fun _ _ => ?_
  dsimp only
  rw [invertL1index_eq hlt]
  refine (gives_assert hword).bind fun _ _ => gives_ok ?_
  have hor : l1indexToPrio (top (s.ksReadyQueuesL1Bitmap dom)) |||
      top (s.ksReadyQueuesL2Bitmap dom
        (l2BitmapSize cfg - 1 - top (s.ksReadyQueuesL1Bitmap dom))) =
      top (s.ksReadyQueuesL1Bitmap dom) * 64 + top (s.ksReadyQueuesL2Bitmap dom
        (l2BitmapSize cfg - 1 - top (s.ksReadyQueuesL1Bitmap dom))) := by
    rw [l1indexToPrio, ← Nat.shiftLeft_add_eq_or_of_lt (top_lt hword), Nat.shiftLeft_eq]
  rw [hor]
  exact ⟨hmark, fun q hq hLq => hmax q (lt_l2BitmapSize hq) ⟨hq, hLq⟩⟩

/-- `isHighestPrio`. -/
lemma isHighestPrio_spec (W : Wf cfg s.toReadyQueues s.tcbDomain s.tcbPriority L)
    (hdom : dom < cfg.numDomains) : Gives (s.isHighestPrio cfg dom prio) fun high =>
      high = true ↔ ∀ p < cfg.numPriorities, L (cfg.index dom p) ≠ [] → p ≤ prio := by
  rw [State.isHighestPrio]
  by_cases hzero : s.ksReadyQueuesL1Bitmap dom = 0#64
  · rw [if_pos hzero]
    refine gives_ok (iff_of_true rfl fun p hp hne => ?_)
    exact absurd ((bitmap_eq_zero W hdom).mp hzero p hp) hne
  · rw [if_neg hzero]
    refine (getHighestPrio_spec W hdom hzero).bind fun top htop => gives_ok ?_
    rw [decide_eq_true_eq]
    exact ⟨fun hle p hp hne => (htop.2 p hp hne).trans hle, fun h => h top htop.1.1 htop.1.2⟩

/-- **`chooseThread`** switches to the first thread of the highest priority in the domain, or to
the idle thread. -/
lemma chooseThread_spec (W : Wf cfg s.toReadyQueues s.tcbDomain s.tcbPriority L)
    (hrange : InRange cfg s.tcbDomain s.tcbPriority) (hdom : s.ksCurDomain < cfg.numDomains)
    (hready : ∀ t, s.tcbQueued t = true → s.isRunnable t) :
    Gives (s.chooseThread cfg) fun s' =>
      (∃ p t ts, p < cfg.numPriorities ∧ L (cfg.index s.ksCurDomain p) = t :: ts ∧
        (∀ q < cfg.numPriorities, L (cfg.index s.ksCurDomain q) ≠ [] → q ≤ p) ∧
        s'.toScheduling = { s.toScheduling with ksCurThread := t } ∧
        Wf cfg s'.toReadyQueues s.tcbDomain s.tcbPriority
          (update L (cfg.index s.ksCurDomain p) ts) ∧
        s'.tcbQueued = update s.tcbQueued t false) ∨
      (∀ p < cfg.numPriorities, L (cfg.index s.ksCurDomain p) = []) ∧
        s' = { s with ksCurThread := s.ksIdleThread } := by
  have hdomain : (if 1 < cfg.numDomains then s.ksCurDomain else 0) = s.ksCurDomain := by
    split_ifs with hmany <;> omega
  rw [State.chooseThread, hdomain]
  dsimp only
  by_cases hne : s.ksReadyQueuesL1Bitmap s.ksCurDomain ≠ 0#64
  · rw [if_pos hne]
    refine (getHighestPrio_spec W hdom hne).bind fun p hp => ?_
    obtain ⟨⟨hprio, hLp⟩, hmax⟩ := hp
    obtain ⟨t, ts, hL⟩ := List.exists_cons_of_ne_nil hLp
    obtain ⟨hqueued, hindex⟩ := W.mem_iff.mp (by rw [hL]; exact List.mem_cons_self)
    have hhead : (s.ksReadyQueues (cfg.index s.ksCurDomain p)).head = some t := by
      rw [(W.placed.holds _).head_eq, hL]
      rfl
    rw [readyQueuesIndex_eq hdom]
    refine (gives_deref hhead).bind fun a ha => ?_
    subst ha
    refine (gives_assert (hready a hqueued)).bind fun _ _ => ?_
    have hL' : L (cfg.index (s.tcbDomain a) (s.tcbPriority a)) = [] ++ a :: ts := by
      rw [hindex, hL]
      rfl
    refine (tcbSchedDequeue_spec W hrange hL').bind fun s₁ hs₁ => gives_ok (.inl ?_)
    obtain ⟨hsame, hW, hflag⟩ := hs₁
    rw [hindex] at hW
    exact ⟨p, a, ts, hprio, hL, hmax, by rw [hsame], hW, hflag⟩
  · rw [if_neg hne]
    rw [not_not] at hne
    exact gives_ok (.inr ⟨(bitmap_eq_zero W hdom).mp hne, rfl⟩)

end Choice

end Kernel.Sched
