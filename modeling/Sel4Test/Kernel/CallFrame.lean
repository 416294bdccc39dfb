import Sel4Test.Kernel.CallBoost

/-!
What the CallBoost fast path writes to the registers of the server, `fastpath_callBoost` of
`fastpath/fastpath.c` with `fastpath_copy_mrs`, `fastpath_mi_check` and `fastpath_restore` of
the AArch64 port.

An IPC transfers at most four message registers. `fastpath_call` makes sure of that with
`fastpath_mi_check` before it copies; `fastpath_callBoost` has the same copy loop without the
check, so that a longer length field copies further registers of the caller over those of the
server, and beyond register 36 the memory behind the context.

* `getRegister_commit`: all registers after the fast path.
* `callBoost_frame_iff`: the fast path changes what an IPC may change exactly if the port is
  registered and the message passes `fastpath_mi_check`, or the slow path is taken.
* `callBoost_overwrites`: a message of five words.
-/

namespace Kernel

/-! ### Message infos and the return to user mode -/

/-- `n_msgRegisters`. -/
def nMsgRegisters : ℕ := 4

/-- `badgeRegister`. -/
def badgeRegister : ℕ := 0

/-- `msgInfoRegister`. -/
def msgInfoRegister : ℕ := 1

/-- `seL4_MessageInfo_get_extraCaps`. -/
def messageExtraCaps (msgInfo : ℕ) : ℕ := msgInfo / 2 ^ 7 % 2 ^ 2

/-- `fastpath_mi_check`: length and extra caps, as one number, exceed four. -/
def fastpathMiCheck (msgInfo : ℕ) : Bool := 4 < msgInfo % 2 ^ 9

/-- The registers in user mode after `fastpath_restore`: badge and message info come as
arguments, all others from the context of the current thread. -/
def fastpathRestore (badge msgInfo : ℕ) (s : KernelState) (reg : ℕ) : ℕ :=
  if reg = badgeRegister then badge
  else if reg = msgInfoRegister then msgInfo
  else s.getRegister s.ksCurThread reg

/-! ### What an IPC may change -/

/-- The register of the server after an IPC: badge, message info, stack and program counter of
its port, the transferred message registers of the caller, and its own for all others. -/
def ipcRegister (msgInfo : ℕ) (s : KernelState) (item : IpcServerItem) (dest badge info : ℕ)
    (reg : ℕ) : ℕ :=
  if reg = badgeRegister then badge
  else if reg = msgInfoRegister then info
  else if reg = 21 then item.stk
  else if reg = 32 then item.func
  else if msgRegister0 ≤ reg ∧ reg < msgRegister0 + min (messageLength msgInfo) nMsgRegisters then
    s.getRegister s.ksCurThread reg
  else s.getRegister dest reg

/-- The call changes of the server what an IPC may change, reads registers that exist, and
delivers a message info that fits. -/
structure Delivered (msgInfo : ℕ) (s : KernelState) (item : IpcServerItem) (dest badge info : ℕ)
    (s' : KernelState) : Prop where
  current : s'.ksCurThread = dest
  registers : ∀ reg, fastpathRestore badge info s' reg =
    ipcRegister msgInfo s item dest badge info reg
  state : s'.stateOf dest = { s.stateOf dest with tsType := .running, blockingObject := 0 }
  others : ∀ t, t ≠ dest → ∀ reg, s'.getRegister t reg = s.getRegister t reg
  sources : ∀ i < messageLength msgInfo, msgRegister0 + i < nContextRegisters
  words : messageLength info ≤ min (messageLength msgInfo) nMsgRegisters
  caps : messageExtraCaps info = 0

/-- The fast path finds a server and either leaves the state to the slow path or delivers. -/
def CallFrame (msgInfo : ℕ) (s : KernelState) : Prop :=
  ∃ item dest, serverItem s (portOf s) = some item ∧ item.serverThread = some dest ∧
    (fastpathCallBoost msgInfo s = some (.slowpath s) ∨
      ∃ badge info s', fastpathCallBoost msgInfo s = some (.restored badge info s') ∧
        Delivered msgInfo s item dest badge info s')

/-! ### The registers after the fast path -/

variable {s : KernelState} {msgInfo length src dest : ℕ} {item : IpcServerItem}

/-- The copy loop overwrites the registers of the destination from the first message register
on, as many as it is told. -/
lemma getRegister_fastpathCopyMrs (s : KernelState) (length src dest t reg : ℕ) :
    (fastpathCopyMrs length src dest s).getRegister t reg =
      if t = dest ∧ msgRegister0 ≤ reg ∧ reg < msgRegister0 + length then s.getRegister src reg
      else s.getRegister t reg := by
  induction length generalizing t reg with
  | zero =>
      rw [if_neg (by omega)]
      rfl
  | succ n ih =>
      have hlast : fastpathCopyMrs (n + 1) src dest s =
          (fastpathCopyMrs n src dest s).setRegister dest (msgRegister0 + n)
            ((fastpathCopyMrs n src dest s).getRegister src (msgRegister0 + n)) := by
        simp only [fastpathCopyMrs, List.range_succ, List.foldl_append, List.foldl_cons,
          List.foldl_nil]
      have hsrc : (fastpathCopyMrs n src dest s).getRegister src (msgRegister0 + n) =
          s.getRegister src (msgRegister0 + n) := by
        rw [ih, if_neg (by omega)]
      rw [hlast, getRegister_setRegister, hsrc, ih]
      by_cases hnew : t = dest ∧ reg = msgRegister0 + n
      · obtain ⟨rfl, rfl⟩ := hnew
        rw [if_pos ⟨rfl, rfl⟩, if_pos ⟨rfl, by omega, by omega⟩]
      · rw [if_neg hnew]
        by_cases hold : t = dest ∧ msgRegister0 ≤ reg ∧ reg < msgRegister0 + n
        · rw [if_pos hold, if_pos ⟨hold.1, hold.2.1, by omega⟩]
        · have hnot : ¬ (t = dest ∧ msgRegister0 ≤ reg ∧ reg < msgRegister0 + (n + 1)) := by
            rintro ⟨ht, hlo, hhi⟩
            by_cases heq : reg = msgRegister0 + n
            · exact hnew ⟨ht, heq⟩
            · exact hold ⟨ht, hlo, by omega⟩
          rw [if_neg hold, if_neg hnot]

/-- The state when the copying starts: the caller waits for its reply, and the server has the
reply cap. -/
def replyLinked (s : KernelState) (dest : ℕ) : KernelState :=
  let start := s.setTsType s.ksCurThread .blockedOnReply
  { start with
    cspace := insertReplyCap (start.tcb dest).tcbState.blockingIPCCanGrant s.ksCurThread dest
      s.cspace }

/-- The state when the registers of the server are complete. -/
def registersWritten (s : KernelState) (length dest : ℕ) (item : IpcServerItem) : KernelState :=
  ((fastpathCopyMrs length s.ksCurThread dest (replyLinked s dest)).setRegister dest 21
    item.stk).setRegister dest 32 item.func

/-- **All registers after the fast path**: stack and program counter, the registers that were
copied, and the others as they were. -/
lemma getRegister_commit (s : KernelState) (length dest : ℕ) (item : IpcServerItem) (t reg : ℕ) :
    (commitCallBoost length dest item s).getRegister t reg =
      if t = dest ∧ reg = 32 then item.func
      else if t = dest ∧ reg = 21 then item.stk
      else if t = dest ∧ msgRegister0 ≤ reg ∧ reg < msgRegister0 + length then
        s.getRegister s.ksCurThread reg
      else s.getRegister t reg := by
  have hlinked : ∀ t reg, (replyLinked s dest).getRegister t reg = s.getRegister t reg :=
    fun t reg => getRegister_setTsType
  calc (commitCallBoost length dest item s).getRegister t reg
      = (registersWritten s length dest item).getRegister t reg := getRegister_setTsType
    _ = _ := by
        rw [registersWritten, getRegister_setRegister, getRegister_setRegister,
          getRegister_fastpathCopyMrs, hlinked, hlinked]

/-- The state of the server after the fast path. -/
lemma stateOf_commit (s : KernelState) (length dest : ℕ) (item : IpcServerItem) :
    (commitCallBoost length dest item s).stateOf dest =
      { s.stateOf dest with tsType := .running, blockingObject := 0 } := by
  have hregs : OnlyRegisters (replyLinked s dest) (registersWritten s length dest item) :=
    (onlyRegisters_fastpathCopyMrs length _ dest).setRegister.setRegister
  have hlinked : (replyLinked s dest).stateOf dest =
      if dest = s.ksCurThread then
        { s.stateOf s.ksCurThread with tsType := .blockedOnReply, blockingObject := 0 }
      else s.stateOf dest := stateOf_setTsType
  calc (commitCallBoost length dest item s).stateOf dest
      = if dest = dest then
          { (registersWritten s length dest item).stateOf dest with
            tsType := .running, blockingObject := 0 }
        else (registersWritten s length dest item).stateOf dest := stateOf_setTsType
    _ = { s.stateOf dest with tsType := .running, blockingObject := 0 } := by
        rw [if_pos rfl, hregs.state, hlinked]
        split_ifs with heq
        · rw [heq]
        · rfl

/-! ### The message info that is delivered -/

lemma messageLength_clearCapsUnwrapped (w : ℕ) :
    messageLength (clearCapsUnwrapped w) = messageLength w := by
  simp only [messageLength, clearCapsUnwrapped]
  omega

lemma messageExtraCaps_clearCapsUnwrapped (w : ℕ) :
    messageExtraCaps (clearCapsUnwrapped w) = messageExtraCaps w := by
  simp only [messageExtraCaps, clearCapsUnwrapped]
  omega

/-- The check passes for at most four words and no extra caps. -/
lemma fastpathMiCheck_eq_false (w : ℕ) :
    fastpathMiCheck w = false ↔ messageLength w ≤ nMsgRegisters ∧ messageExtraCaps w = 0 := by
  simp only [fastpathMiCheck, messageLength, messageExtraCaps, nMsgRegisters,
    decide_eq_false_iff_not]
  omega

/-- A message that passes the check is delivered as an IPC may. -/
lemma delivered_of_miCheck (hcheck : fastpathMiCheck msgInfo = false) :
    Delivered msgInfo s item dest 1 (clearCapsUnwrapped msgInfo)
      (commitCallBoost (messageLength msgInfo) dest item s) := by
  obtain ⟨hlength, hcaps⟩ := (fastpathMiCheck_eq_false msgInfo).mp hcheck
  rw [nMsgRegisters] at hlength
  exact
    { current := rfl
      registers := by
        intro reg
        rw [fastpathRestore, ipcRegister]
        by_cases hbadge : reg = badgeRegister
        · rw [if_pos hbadge, if_pos hbadge]
        by_cases hinfo : reg = msgInfoRegister
        · rw [if_neg hbadge, if_neg hbadge, if_pos hinfo, if_pos hinfo]
        rw [if_neg hbadge, if_neg hbadge, if_neg hinfo, if_neg hinfo]
        have hmin : min (messageLength msgInfo) nMsgRegisters = messageLength msgInfo :=
          Nat.min_eq_left hlength
        show (commitCallBoost (messageLength msgInfo) dest item s).getRegister dest reg = _
        rw [getRegister_commit, hmin]
        simp only [true_and]
        split_ifs with hpc hstk <;> first | rfl | omega
      state := stateOf_commit s _ dest item
      others := by
        intro t ht reg
        rw [getRegister_commit, if_neg (by tauto), if_neg (by tauto), if_neg (by tauto)]
      sources := by
        intro i hi
        rw [msgRegister0, nContextRegisters]
        omega
      words := by
        rw [messageLength_clearCapsUnwrapped]
        exact le_min le_rfl hlength
      caps := by rw [messageExtraCaps_clearCapsUnwrapped, hcaps] }

/-- **What CallBoost changes**: for every message info and every state, the fast path changes
what an IPC may change exactly if the port of the caller is registered and, unless the address
space of the server is gone, the message passes the check that `fastpath_call` makes. -/
theorem callBoost_frame_iff (msgInfo : ℕ) (s : KernelState) :
    CallFrame msgInfo s ↔
      ∃ item dest, serverItem s (portOf s) = some item ∧ item.serverThread = some dest ∧
        (AsidValid s dest → fastpathMiCheck msgInfo = false) := by
  constructor
  · rintro ⟨item, dest, hitem, hdest, hcall⟩
    refine ⟨item, dest, hitem, hdest, fun hasid => ?_⟩
    simp only [fastpathCallBoost, hitem, hdest, hasid, not_true_eq_false, if_false] at hcall
    rw [fastpathMiCheck_eq_false]
    rcases hcall with hslow | ⟨badge, info, s', hrest, hdelivered⟩
    · split_ifs at hslow
      cases Option.some.inj hslow
    · split_ifs at hrest
      obtain ⟨-, rfl, -⟩ := Outcome.restored.inj (Option.some.inj hrest)
      have hwords := hdelivered.words
      have hcaps := hdelivered.caps
      rw [messageLength_clearCapsUnwrapped] at hwords
      rw [messageExtraCaps_clearCapsUnwrapped] at hcaps
      exact ⟨hwords.trans (min_le_right _ _), hcaps⟩
  · rintro ⟨item, dest, hitem, hdest, hcheck⟩
    refine ⟨item, dest, hitem, hdest, ?_⟩
    simp only [fastpathCallBoost, hitem, hdest]
    by_cases hasid : AsidValid s dest
    · have hlength := ((fastpathMiCheck_eq_false msgInfo).mp (hcheck hasid)).1
      have hread : ¬ nContextRegisters < msgRegister0 + messageLength msgInfo := by
        rw [nContextRegisters, msgRegister0]
        rw [nMsgRegisters] at hlength
        omega
      rw [if_neg (not_not.mpr hasid), if_neg hread]
      exact Or.inr ⟨_, _, _, rfl, delivered_of_miCheck (hcheck hasid)⟩
    · rw [if_pos hasid]
      exact Or.inl rfl

/-- The caller and the server of `portState`, where register X6 of the caller is 7. -/
def frameState : KernelState := (portState ⟨.inactive, 0, false⟩ []).setRegister 1 6 7

/-- A message of five words overwrites X6 of the server, and one of 36 words reads beyond the
registers of the caller. -/
theorem callBoost_overwrites :
    (∃ s', fastpathCallBoost 5 frameState = some (.restored 1 5 s') ∧
      frameState.getRegister 2 6 = 0 ∧ s'.getRegister 2 6 = 7) ∧
    fastpathCallBoost 36 frameState = none ∧
    ¬ CallFrame 5 frameState ∧ ¬ CallFrame 36 frameState := by
  have hport : portOf frameState = 10 := by decide
  have hitem : serverItem frameState (portOf frameState) = some ⟨some 2, 0x400000, 0x500000⟩ := by
    rw [hport]
    rfl
  have hasid : AsidValid frameState 2 := by decide
  have hfive : fastpathCallBoost 5 frameState =
      some (.restored 1 5 (commitCallBoost 5 2 ⟨some 2, 0x400000, 0x500000⟩ frameState)) := by
    simp only [fastpathCallBoost, hitem, hasid, not_true_eq_false, if_false]
    rfl
  have hmany : fastpathCallBoost 36 frameState = none := by
    simp only [fastpathCallBoost, hitem, hasid, not_true_eq_false, if_false]
    rfl
  refine ⟨⟨_, hfive, rfl, ?_⟩, hmany, ?_, ?_⟩
  · rw [getRegister_commit]
    rfl
  · rintro ⟨item, dest, -, -, hslow | ⟨badge, info, s', hrest, hdelivered⟩⟩
    · rw [hfive] at hslow
      cases Option.some.inj hslow
    · rw [hfive] at hrest
      obtain ⟨-, rfl, -⟩ := Outcome.restored.inj (Option.some.inj hrest)
      exact absurd hdelivered.words (by decide)
  · rintro ⟨item, dest, -, -, hslow | ⟨badge, info, s', hrest, -⟩⟩
    · rw [hmany] at hslow
      cases hslow
    · rw [hmany] at hrest
      cases hrest

end Kernel
