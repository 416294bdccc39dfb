import Sel4Test.Kernel.CallBoost
import Sel4Test.Lib.Exec

/-!
The table of server ports over whole runs: `handleRegister` of `api/syscall.c`, the port
lookup of `fastpath_callBoost`, and the deletion of threads in `finaliseCap` of
`object/objecttype.c`.

Between the events the kernel and the threads may do anything that leaves the table as it
is. A `World` is a kernel state together with what has happened: the registrations, in
order, and how often a thread was deleted at each address.

* `tableInv_run`: what the table holds after a run.
* `serverPort_run`: a run all of whose calls are as the interface promises is a run all of
  whose calls meet `CallOk`.
-/

namespace Kernel

open Exec

/-! ### Deletion of a thread -/

namespace KernelState

/-- `cancelIPC`, for what is not in a slot: the thread leaves the queue of its endpoint. -/
def cancelIPC (t : ℕ) (s : KernelState) : KernelState :=
  match (s.stateOf t).endpoint? with
  | some e =>
      { s.setTsType t .inactive with
        epQueue := Function.update s.epQueue e ((s.epQueue e).erase t) }
  | none => s

/-- `suspend`. -/
def suspend (t : ℕ) (s : KernelState) : KernelState :=
  let s := (s.cancelIPC t).setTsType t .inactive
  { s with readyQueue := fun q => (s.readyQueue q).erase t }

end KernelState

/-- The deletion of the last cap to a thread: the thread is suspended and its slots are
emptied, and with them what the caps in them were the last ones to. -/
def Deletes (t : ℕ) (s s' : KernelState) : Prop :=
  ∃ cspace : CSpace, (∀ i < tcbArchCNodeEntries, (cspace ⟨t, i⟩).cap = .null) ∧
    s' = { s.suspend t with cspace }

/-! ### Runs -/

/-- What a thread registered, the port that it got, and how often a thread had been deleted
at its address. -/
structure Registration where
  thread : ℕ
  func : ℕ
  stk : ℕ
  port : ℕ
  born : ℕ

/-- The kernel, the registrations so far, and the deletions at each address. -/
structure World where
  kernel : KernelState
  registrations : List Registration
  deleted : ℕ → ℕ

/-- What happens: a system call of the current thread, a deletion, or anything else. -/
inductive Event
  | register
  | delete (t : ℕ) (s' : KernelState)
  | callBoost (msgInfo : ℕ)
  | other (s' : KernelState)

namespace World

/-- Before the first registration. -/
def start (s : KernelState) : World := ⟨s, [], fun _ => 0⟩

/-- The thread is still the one that registered. -/
def Alive (w : World) (r : Registration) : Prop := w.deleted r.thread = r.born

/-- What the current thread registers, and the port it reads back. -/
def registration (w : World) : Registration where
  thread := w.kernel.ksCurThread
  func := w.kernel.getRegister w.kernel.ksCurThread 5
  stk := w.kernel.getRegister w.kernel.ksCurThread 4
  port := (handleRegister w.kernel).getRegister w.kernel.ksCurThread 4
  born := w.deleted w.kernel.ksCurThread

/-- One event. -/
inductive Step : World → Event → World → Prop
  | register (w : World) : Step w .register
      { w with
        kernel := handleRegister w.kernel
        registrations := w.registrations ++ [w.registration] }
  | delete (w : World) {t : ℕ} {s' : KernelState} (h : Deletes t w.kernel s') :
      Step w (.delete t s')
        { w with kernel := s', deleted := Function.update w.deleted t (w.deleted t + 1) }
  | callBoost (w : World) {msgInfo : ℕ} {o : Outcome} (h : fastpathCallBoost msgInfo w.kernel = some o) :
      Step w (.callBoost msgInfo) { w with kernel := o.state }
  | other (w : World) {s' : KernelState} (h : SameTable w.kernel s') :
      Step w (.other s') { w with kernel := s' }

end World

/-- The table at boot: the cursor is at 10 and the entries are zero. -/
structure BootTable (s : KernelState) : Prop where
  top : s.ipcServerListTop = 10
  list : ∀ port, s.ipcServerList port = ⟨none, 0, 0⟩

/-! ### What the table holds -/

/-- The cursor counts the registrations, the last 128 of them are in the table, and the
entries that nobody got are zero. -/
structure TableInv (w : World) : Prop where
  top : w.kernel.ipcServerListTop = (10 + w.registrations.length) % serverPortNum
  port : ∀ i r, w.registrations[i]? = some r → r.port = (10 + i) % serverPortNum
  entry : ∀ i r, w.registrations[i]? = some r → w.registrations.length ≤ i + serverPortNum →
    w.kernel.ipcServerList r.port = ⟨some r.thread, r.func, r.stk⟩
  empty : ∀ port, (∀ r ∈ w.registrations, r.port ≠ port) →
    (w.kernel.ipcServerList port).serverThread = none

lemma BootTable.tableInv {s : KernelState} (h : BootTable s) : TableInv (World.start s) where
  top := h.top
  port := by
    intro i r hr
    cases hr
  entry := by
    intro i r hr
    cases hr
  empty := by
    intro port _
    change (s.ipcServerList port).serverThread = none
    rw [h.list]

/-- A step that leaves the table as it is. -/
lemma TableInv.frame {w w' : World} (h : TableInv w) (htable : SameTable w.kernel w'.kernel)
    (hregs : w'.registrations = w.registrations) : TableInv w' where
  top := by
    rw [htable.top, hregs]
    exact h.top
  port := by
    rw [hregs]
    exact h.port
  entry := by
    rw [htable.list, hregs]
    exact h.entry
  empty := by
    rw [htable.list, hregs]
    exact h.empty

lemma sameTable_deletes {t : ℕ} {s s' : KernelState} (h : Deletes t s s') : SameTable s s' := by
  obtain ⟨cspace, -, rfl⟩ := h
  constructor
  · change (s.cancelIPC t).ipcServerList = _
    rw [KernelState.cancelIPC]
    split <;> rfl
  · change (s.cancelIPC t).ipcServerListTop = _
    rw [KernelState.cancelIPC]
    split <;> rfl

lemma sameTable_commitCallBoost (length dest : ℕ) (item : IpcServerItem) (s : KernelState) :
    SameTable s (commitCallBoost length dest item s) :=
  let h := (onlyRegisters_fastpathCopyMrs (s := { s.setTsType s.ksCurThread .blockedOnReply with
    cspace := insertReplyCap ((s.setTsType s.ksCurThread .blockedOnReply).tcb
      dest).tcbState.blockingIPCCanGrant s.ksCurThread dest s.cspace }) length s.ksCurThread dest)
  ⟨h.list, h.top⟩

lemma tableInv_register {w : World} (h : TableInv w) :
    TableInv { w with
      kernel := handleRegister w.kernel
      registrations := w.registrations ++ [w.registration] } := by
  have hport : w.registration.port = (10 + w.registrations.length) % serverPortNum := by
    rw [← h.top]
    simp only [World.registration, handleRegister, KernelState.getRegister, KernelState.setRegister,
      Function.update_self]
  have hlist : (handleRegister w.kernel).ipcServerList =
      Function.update w.kernel.ipcServerList w.registration.port
        ⟨some w.registration.thread, w.registration.func, w.registration.stk⟩ := by
    rw [hport, ← h.top]
    rfl
  -- a registration is one of the old ones, or the new one at the end
  have hcases : ∀ i r, (w.registrations ++ [w.registration])[i]? = some r →
      w.registrations[i]? = some r ∨ i = w.registrations.length ∧ r = w.registration := by
    intro i r hr
    rw [List.getElem?_append] at hr
    split_ifs at hr with hi
    · exact .inl hr
    · have hzero : i - w.registrations.length = 0 := by
        by_contra hpos
        rw [List.getElem?_eq_none (by simp only [List.length_singleton]; omega)] at hr
        cases hr
      rw [hzero] at hr
      exact .inr ⟨by omega, (Option.some.inj hr).symm⟩
  constructor
  · change (w.kernel.ipcServerListTop + 1) % serverPortNum = _
    rw [h.top, List.length_append, List.length_singleton, Nat.mod_add_mod, Nat.add_assoc]
  · intro i r hr
    rcases hcases i r hr with hold | ⟨rfl, rfl⟩
    · exact h.port i r hold
    · exact hport
  · intro i r hr hlast
    rw [List.length_append, List.length_singleton] at hlast
    change (handleRegister w.kernel).ipcServerList r.port = _
    rcases hcases i r hr with hold | ⟨rfl, rfl⟩
    · have hi := (List.getElem?_eq_some_iff.mp hold).1
      have hne : r.port ≠ w.registration.port := by
        rw [h.port i r hold, hport]
        simp only [serverPortNum] at hlast ⊢
        omega
      rw [hlist, Function.update_of_ne hne]
      exact h.entry i r hold (by omega)
    · rw [hlist, Function.update_self]
  · intro port hnone
    change ((handleRegister w.kernel).ipcServerList port).serverThread = none
    have hne : port ≠ w.registration.port := fun heq =>
      hnone w.registration (List.mem_append_right _ (List.mem_singleton_self _)) heq.symm
    rw [hlist, Function.update_of_ne hne]
    exact h.empty port fun r hr => hnone r (List.mem_append_left _ hr)

lemma sameTable_fastpathCallBoost {msgInfo : ℕ} {s : KernelState} {o : Outcome}
    (h : fastpathCallBoost msgInfo s = some o) : SameTable s o.state := by
  rw [fastpathCallBoost] at h
  cases hitem : serverItem s (portOf s) with
  | none =>
      rw [hitem] at h
      cases h
  | some item =>
      cases hdest : item.serverThread with
      | none =>
          simp only [hitem, hdest] at h
          cases h
      | some dest =>
          simp only [hitem, hdest] at h
          split_ifs at h with hasid hlength
          · obtain rfl := Option.some.inj h
            exact sameTable_commitCallBoost _ _ _ _
          · obtain rfl := Option.some.inj h
            exact ⟨rfl, rfl⟩

lemma tableInv_step {w w' : World} {e : Event} (h : TableInv w) (hstep : World.Step w e w') :
    TableInv w' := by
  cases hstep with
  | register => exact tableInv_register h
  | delete hdel => exact h.frame (sameTable_deletes hdel) rfl
  | callBoost hcall => exact h.frame (sameTable_fastpathCallBoost hcall) rfl
  | other hsame => exact h.frame hsame rfl

/-- What the table holds after a run. -/
lemma tableInv_run {s : KernelState} {events : List Event} {w : World} (h : BootTable s)
    (hrun : Runs World.Step (.start s) events w) : TableInv w :=
  hrun.invariant TableInv (fun _ _ _ => tableInv_step) h.tableInv

/-! ### Calls -/

namespace World

variable (w : World)

/-- The registration that wrote the entry of the port. -/
def Wrote (r : Registration) (port : ℤ) : Prop :=
  ∃ before after, w.registrations = before ++ r :: after ∧ (r.port : ℤ) = port ∧
    ∀ r' ∈ after, r'.port ≠ r.port

/-- The call enters the thread where it registered. -/
def Enters (msgInfo : ℕ) (r : Registration) : Prop :=
  ∃ badge info s', fastpathCallBoost msgInfo w.kernel = some (.restored badge info s') ∧
    s'.ksCurThread = r.thread ∧ s'.getRegister r.thread 32 = r.func ∧
      s'.getRegister r.thread 21 = r.stk

/-- The call changes at most registers of the caller. -/
def OnlyCaller (msgInfo : ℕ) : Prop :=
  ∃ o registers, fastpathCallBoost msgInfo w.kernel = some o ∧
    o.state = { w.kernel with
      tcb := Function.update w.kernel.tcb w.kernel.ksCurThread
        { w.kernel.tcb w.kernel.ksCurThread with registers } }

/-- What a call is to do: a port that was returned to a living thread leads into this thread,
no entry of a deleted thread is read, and a port that is not in the table or was never
returned changes nothing. -/
structure PortSpec (msgInfo : ℕ) : Prop where
  enters : ∀ r ∈ w.registrations, (r.port : ℤ) = portOf w.kernel → w.Alive r → w.Enters msgInfo r
  live : ∀ item r, serverItem w.kernel (portOf w.kernel) = some item →
    w.Wrote r (portOf w.kernel) → w.Alive r
  unknown : serverItem w.kernel (portOf w.kernel) = none ∨
      (∀ r ∈ w.registrations, (r.port : ℤ) ≠ portOf w.kernel) → w.OnlyCaller msgInfo

/-- The port is that of one of the last 128 registrations, whose thread is alive, no other
registration of a living thread got the same port, and the checks on the thread and the
message pass. -/
structure LiveAt (msgInfo i : ℕ) (r : Registration) : Prop where
  registered : w.registrations[i]? = some r
  port : portOf w.kernel = ((10 + i) % serverPortNum : ℕ)
  recent : w.registrations.length ≤ i + serverPortNum
  alive : w.Alive r
  sole : ∀ j r', w.registrations[j]? = some r' → j % serverPortNum = i % serverPortNum →
    w.Alive r' → r'.thread = r.thread ∧ r'.func = r.func ∧ r'.stk = r.stk
  asid : AsidValid w.kernel r.thread
  length : msgRegister0 + messageLength msgInfo ≤ nContextRegisters

/-- The condition on a call. -/
def CallOk (msgInfo : ℕ) : Prop := ∃ i r, w.LiveAt msgInfo i r

end World

section Call

variable {w : World} {msgInfo i : ℕ} {r : Registration}

lemma serverItem_eq_some {s : KernelState} {port : ℕ} (h : port < serverPortNum) :
    serverItem s port = some (s.ipcServerList port) := by
  rw [serverItem, if_pos (by omega), Int.toNat_natCast]

lemma port_lt : (10 + i) % serverPortNum < serverPortNum := Nat.mod_lt _ (by decide)

/-- The fast path on the entry of a registration that is in the table. -/
lemma TableInv.fastpathCallBoost (h : TableInv w) (hr : w.registrations[i]? = some r)
    (hlast : w.registrations.length ≤ i + serverPortNum)
    (hport : portOf w.kernel = ((10 + i) % serverPortNum : ℕ)) :
    fastpathCallBoost msgInfo w.kernel =
      if ¬ AsidValid w.kernel r.thread then some (.slowpath w.kernel)
      else if nContextRegisters < msgRegister0 + messageLength msgInfo then none
      else some (.restored 1 (clearCapsUnwrapped msgInfo)
        (commitCallBoost (messageLength msgInfo) r.thread ⟨some r.thread, r.func, r.stk⟩
          w.kernel)) := by
  have hitem : serverItem w.kernel (portOf w.kernel) = some ⟨some r.thread, r.func, r.stk⟩ := by
    rw [hport, serverItem_eq_some port_lt, ← h.port i r hr, h.entry i r hr hlast]
  simp only [Kernel.fastpathCallBoost, hitem]

lemma getRegister_commitCallBoost (length dest : ℕ) (item : IpcServerItem) (s : KernelState) :
    (commitCallBoost length dest item s).getRegister dest 32 = item.func ∧
      (commitCallBoost length dest item s).getRegister dest 21 = item.stk := by
  constructor
  · exact getRegister_setTsType.trans
      (getRegister_setRegister.trans (if_pos ⟨rfl, rfl⟩))
  · exact getRegister_setTsType.trans (getRegister_setRegister.trans
      ((if_neg fun h => absurd h.2 (by decide)).trans
        (getRegister_setRegister.trans (if_pos ⟨rfl, rfl⟩))))

/-- A registration that is in the table is entered if the checks pass, and then every other
one that is entered is the same. -/
lemma TableInv.enters_iff (h : TableInv w) (hr : w.registrations[i]? = some r)
    (hlast : w.registrations.length ≤ i + serverPortNum)
    (hport : portOf w.kernel = ((10 + i) % serverPortNum : ℕ)) (r' : Registration) :
    w.Enters msgInfo r' ↔ AsidValid w.kernel r.thread ∧
      msgRegister0 + messageLength msgInfo ≤ nContextRegisters ∧
        r'.thread = r.thread ∧ r'.func = r.func ∧ r'.stk = r.stk := by
  obtain ⟨hfunc, hstk⟩ := getRegister_commitCallBoost (messageLength msgInfo) r.thread
    ⟨some r.thread, r.func, r.stk⟩ w.kernel
  rw [World.Enters, h.fastpathCallBoost hr hlast hport]
  constructor
  · rintro ⟨badge, info, s', hrun, hcur, hfunc', hstk'⟩
    split_ifs at hrun with hasid hlength
    · obtain ⟨-, -, rfl⟩ := Outcome.restored.inj (Option.some.inj hrun)
      have hthread : r.thread = r'.thread := hcur
      rw [← hthread, hfunc] at hfunc'
      rw [← hthread, hstk] at hstk'
      exact ⟨hasid, by omega, hthread.symm, hfunc'.symm, hstk'.symm⟩
    · cases Option.some.inj hrun
  · rintro ⟨hasid, hlength, hthread, hfunc', hstk'⟩
    rw [if_neg (not_not.mpr hasid), if_neg (by omega)]
    refine ⟨_, _, _, rfl, hthread.symm, ?_, ?_⟩
    · rw [hthread, hfunc, hfunc']
    · rw [hthread, hstk, hstk']

/-- The entry of a port was written by the one among the last 128 registrations that got
the port. -/
lemma TableInv.wrote_iff (h : TableInv w) {port : ℤ} :
    w.Wrote r port ↔ ∃ i, w.registrations[i]? = some r ∧
      port = ((10 + i) % serverPortNum : ℕ) ∧ w.registrations.length ≤ i + serverPortNum := by
  constructor
  · rintro ⟨before, after, hsplit, hport, hafter⟩
    have hr : w.registrations[before.length]? = some r := by
      rw [hsplit, List.getElem?_append_right le_rfl, Nat.sub_self, List.getElem?_cons_zero]
    refine ⟨before.length, hr, by rw [← h.port _ _ hr, hport], ?_⟩
    -- otherwise the port was handed out again 128 registrations later
    by_contra hlong
    have hlt : before.length + serverPortNum < w.registrations.length := by omega
    obtain ⟨r', hget⟩ : ∃ r', w.registrations[before.length + serverPortNum]? = some r' :=
      ⟨_, List.getElem?_eq_getElem hlt⟩
    have hmem : r' ∈ after := by
      have hget' := hget
      rw [hsplit, List.getElem?_append_right (by omega), Nat.add_sub_cancel_left,
        show serverPortNum = 127 + 1 from rfl, List.getElem?_cons_succ] at hget'
      exact List.mem_of_getElem? hget'
    refine hafter _ hmem ?_
    rw [h.port _ _ hget, h.port _ _ hr, ← Nat.add_assoc, Nat.add_mod_right]
  · rintro ⟨i, hr, hport, hlast⟩
    have hi := (List.getElem?_eq_some_iff.mp hr).1
    refine ⟨w.registrations.take i, w.registrations.drop (i + 1), ?_, ?_, ?_⟩
    · rw [← (List.getElem?_eq_some_iff.mp hr).2, List.getElem_cons_drop, List.take_append_drop]
    · rw [hport, h.port i r hr]
    · intro r' hmem
      obtain ⟨k, hk⟩ := List.mem_iff_getElem?.mp hmem
      rw [List.getElem?_drop] at hk
      have hlt := (List.getElem?_eq_some_iff.mp hk).1
      rw [h.port _ _ hk, h.port _ _ hr]
      simp only [serverPortNum] at hlast ⊢
      omega

/-- Some registration among the last 128 got the port, if any did. -/
lemma TableInv.exists_recent (h : TableInv w) (hmem : r ∈ w.registrations) :
    ∃ i r', w.registrations[i]? = some r' ∧ r.port = (10 + i) % serverPortNum ∧
      w.registrations.length ≤ i + serverPortNum := by
  obtain ⟨j, hj⟩ := List.mem_iff_getElem?.mp hmem
  have hlt := (List.getElem?_eq_some_iff.mp hj).1
  let i := j + (w.registrations.length - 1 - j) / serverPortNum * serverPortNum
  have hdiv := Nat.div_add_mod (w.registrations.length - 1 - j) serverPortNum
  have hmod := Nat.mod_lt (w.registrations.length - 1 - j) (show 0 < serverPortNum by decide)
  have hi : i = j + (w.registrations.length - 1 - j) / serverPortNum * serverPortNum := rfl
  rw [Nat.mul_comm] at hdiv
  have hlast : i < w.registrations.length := by omega
  refine ⟨i, w.registrations[i], List.getElem?_eq_getElem hlast, ?_, by omega⟩
  rw [h.port j r hj, hi, ← Nat.add_assoc, Nat.add_mul_mod_self_right]

/-- A call to a port that nobody got has no result. -/
lemma TableInv.fastpathCallBoost_unknown (h : TableInv w)
    (hunknown : serverItem w.kernel (portOf w.kernel) = none ∨
      ∀ r ∈ w.registrations, (r.port : ℤ) ≠ portOf w.kernel) :
    Kernel.fastpathCallBoost msgInfo w.kernel = none := by
  rw [Kernel.fastpathCallBoost]
  rcases hitem : serverItem w.kernel (portOf w.kernel) with _ | item
  · rfl
  have hnone := hunknown.resolve_left (by simp [hitem])
  rw [serverItem] at hitem
  split_ifs at hitem with hrange
  obtain rfl := Option.some.inj hitem
  have hthread := h.empty (portOf w.kernel).toNat fun r hr heq => hnone r hr (by omega)
  simp only [hthread]

/-- **One call**: after any run, a call does what it is to do exactly if it meets the
condition. -/
lemma TableInv.portSpec_iff (h : TableInv w) : w.PortSpec msgInfo ↔ w.CallOk msgInfo := by
  constructor
  · intro hspec
    have hknown : ¬ (serverItem w.kernel (portOf w.kernel) = none ∨
        ∀ r ∈ w.registrations, (r.port : ℤ) ≠ portOf w.kernel) := by
      intro hunknown
      obtain ⟨o, registers, hrun, -⟩ := hspec.unknown hunknown
      rw [h.fastpathCallBoost_unknown hunknown] at hrun
      cases hrun
    obtain ⟨hitem, hsome⟩ := not_or.mp hknown
    push Not at hsome
    obtain ⟨r₀, hmem, hport₀⟩ := hsome
    obtain ⟨i, r, hr, hport, hlast⟩ := h.exists_recent hmem
    rw [hport] at hport₀
    -- the entry that is read belongs to the latest registration of the port, so that one has to
    -- be alive
    have halive : w.Alive r := by
      obtain ⟨item, hitem⟩ := Option.ne_none_iff_exists'.mp hitem
      exact hspec.live item r hitem (h.wrote_iff.mpr ⟨i, hr, hport₀.symm, hlast⟩)
    have henters : ∀ r', w.Enters msgInfo r' ↔ _ := h.enters_iff hr hlast hport₀.symm
    have hown := hspec.enters r (List.mem_of_getElem? hr) (by rw [h.port i r hr, hport₀]) halive
    obtain ⟨hasid, hlength, -⟩ := (henters r).mp hown
    refine ⟨i, r, hr, hport₀.symm, hlast, halive, fun j r' hr' hmod halive' => ?_, hasid, hlength⟩
    have hport' : (r'.port : ℤ) = portOf w.kernel := by
      rw [h.port j r' hr', ← hport₀, Nat.add_mod, hmod, ← Nat.add_mod]
    exact ((henters r').mp (hspec.enters r' (List.mem_of_getElem? hr') hport' halive')).2.2
  · rintro ⟨i, r, hok⟩
    have henters : ∀ r', w.Enters msgInfo r' ↔ _ :=
      h.enters_iff hok.registered hok.recent hok.port
    constructor
    · intro r' hmem hport halive
      obtain ⟨j, hj⟩ := List.mem_iff_getElem?.mp hmem
      rw [h.port j r' hj, hok.port] at hport
      have hmod : j % serverPortNum = i % serverPortNum := by
        simp only [serverPortNum] at hport ⊢
        omega
      exact (henters r').mpr ⟨hok.asid, hok.length, hok.sole j r' hj hmod halive⟩
    · intro _ r' _ hwrote
      obtain ⟨j, hj, hport, hrecent⟩ := h.wrote_iff.mp hwrote
      have hi := (List.getElem?_eq_some_iff.mp hok.registered).1
      have hjlt := (List.getElem?_eq_some_iff.mp hj).1
      -- two registrations of one port that are both the latest are the same
      have hsame : j = i := by
        have hlast := hok.recent
        rw [hok.port] at hport
        simp only [serverPortNum] at hport hlast hrecent
        omega
      rw [hsame, hok.registered] at hj
      rw [← Option.some.inj hj]
      exact hok.alive
    · rintro (hitem | hnone)
      · rw [hok.port, serverItem_eq_some port_lt] at hitem
        cases hitem
      · refine absurd ?_ (hnone r (List.mem_of_getElem? hok.registered))
        rw [h.port i r hok.registered, hok.port]

end Call

/-- Every call of the run, in the state in which it is made. -/
def Calls (P : World → ℕ → Prop) (s : KernelState) (events : List Event) : Prop :=
  ∀ before msgInfo after w, events = before ++ .callBoost msgInfo :: after →
    Runs World.Step (.start s) before w → P w msgInfo

/-- **The port table over runs**: from boot, a run of registrations, deletions, calls and
anything else has every call do what it is to do exactly if every call of the run meets the
condition. -/
theorem serverPort_run (s : KernelState) (hboot : BootTable s) (events : List Event) :
    Calls World.PortSpec s events ↔ Calls World.CallOk s events := by
  constructor
  · intro hcalls before msgInfo after w hsplit hrun
    exact (tableInv_run hboot hrun).portSpec_iff.mp (hcalls before msgInfo after w hsplit hrun)
  · intro hcalls before msgInfo after w hsplit hrun
    exact (tableInv_run hboot hrun).portSpec_iff.mpr (hcalls before msgInfo after w hsplit hrun)

/-- At boot, with thread 2 about to register. -/
def registering : KernelState where
  ksCurThread := 2
  ksSchedulerAction := .resumeCurrentThread
  tcb _ := ⟨⟨.running, 0, false⟩, fun reg => if reg = 4 then 0x500000 else 0x400000⟩
  cspace _ := ⟨.null, nullMDBNode⟩
  epQueue _ := []
  readyQueue _ := []
  asidMap _ := none
  ipcServerList _ := ⟨none, 0, 0⟩
  ipcServerListTop := 10

lemma bootTable_registering : BootTable registering := ⟨rfl, fun _ => rfl⟩

/-- Thread 1 calls port 10 after thread 2 has registered. -/
lemma sameTable_portState (server : ThreadState) :
    SameTable (handleRegister registering) (portState server []) := by
  constructor
  · have hlist : (handleRegister registering).ipcServerList =
        Function.update (fun _ => ⟨none, 0, 0⟩) 10 ⟨some 2, 0x400000, 0x500000⟩ := rfl
    rw [hlist]
    funext port
    rw [Function.update_apply]
    rfl
  · rfl

/-- Thread 2 registers, and thread 1 calls it. -/
theorem serverPort_run_registered : Calls World.PortSpec registering
    [.register, .other (portState ⟨.inactive, 0, false⟩ []), .callBoost 0x1002] := by
  refine (serverPort_run registering bootTable_registering _).mpr ?_
  intro before msgInfo after w hsplit hrun
  obtain ⟨rfl, rfl⟩ : before = [.register, .other (portState ⟨.inactive, 0, false⟩ [])] ∧
      msgInfo = 0x1002 := by
    rcases before with _ | ⟨e₁, _ | ⟨e₂, _ | ⟨e₃, before⟩⟩⟩ <;> simp_all
  obtain ⟨w₁, hregister, hrun⟩ := hrun.of_cons
  obtain ⟨w₂, hother, hrun⟩ := hrun.of_cons
  obtain rfl := hrun.of_nil
  cases hregister
  cases hother
  exact ⟨0, (World.start registering).registration,
    { registered := rfl
      port := by decide
      recent := by decide
      alive := rfl
      sole := by
        intro j r' hr' hmod _
        have hj := (List.getElem?_eq_some_iff.mp hr').1
        obtain rfl : j = 0 := Nat.lt_one_iff.mp hj
        cases hr'
        exact ⟨rfl, rfl, rfl⟩
      asid := rfl
      length := by decide }⟩

/-- **A deleted thread**: thread 2 registers and is deleted, another thread comes to lie at
its address, and thread 1 calls the port. -/
theorem callBoost_uses_deleted :
    ¬ ∀ s : KernelState, BootTable s → ∀ events, Calls World.PortSpec s events := by
  intro hclaim
  let gone : KernelState :=
    { (handleRegister registering).suspend 2 with cspace := fun _ => ⟨.null, nullMDBNode⟩ }
  have hgone : Deletes 2 (handleRegister registering) gone := ⟨_, fun _ _ => rfl, rfl⟩
  have hback := sameTable_portState ⟨.inactive, 0, false⟩
  have hgone' := sameTable_deletes hgone
  have hreuse : SameTable gone (portState ⟨.inactive, 0, false⟩ []) :=
    ⟨hback.list.trans hgone'.list.symm, hback.top.trans hgone'.top.symm⟩
  have hrun : Runs World.Step (.start registering)
      [.register, .delete 2 gone, .other (portState ⟨.inactive, 0, false⟩ [])] _ :=
    .cons (.register _) (.cons (.delete _ hgone) (.cons (.other _ hreuse) .nil))
  have hspec := hclaim registering bootTable_registering _ _ 0x1002 [] _ rfl hrun
  have halive := hspec.live _ (World.start registering).registration item_portState
    ⟨[], [], rfl, rfl, fun _ h => by cases h⟩
  cases halive

end Kernel
