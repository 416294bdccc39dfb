import Sel4Test.Frontend.Ids
import Sel4Test.Server.Forward

/-!
The two sessions of CH1, `hyperamp-server/src/channel_ch1.c`.

`ch1_init` creates a text and a bulk session and keeps a pointer to each;
`ch1_is_text_ready`, `ch1_is_bulk_ready` and the sends go through the pointers. The
session itself belongs to the pool of the frontend engine, which frees it when it
has processed a CLOSE message. The pointer is cleared by the callback of the
session, and only on the event CLOSE. `frontend_high_speed_close_sess_step2` reports
that event if the byte `code` of the message is zero and ABNORMAL otherwise; the
session is deleted in both cases.

The server is the engine with the two pointers and the callbacks bound to the
sessions. Its callbacks only print and clear a pointer, so that they run within the
step that enters them.

* `effect_inTable`: only a deletion takes a session out of the table.
* `ch1_sessions_in_pool`: if `ch1_init` has sent the CREATE commands, then along every
  run in which CLOSE messages for the two sessions have code 0 each pointer is null
  or refers to a live session of the pool.
* `ch1_session_dangling`: after a CLOSE message with another code the pointer refers
  to a session that was freed. `ch1NewSession_refused` is the other way to leave the
  pool: `ch1_init` keeps the pointer when the CREATE command was not sent.
-/

namespace Server

open ByteMem Hyperamp Frontend Exec

/-! ### The state of the server -/

/-- The two sessions of CH1. -/
inductive Which
  | text
  | bulk
  deriving DecidableEq, Repr

/-- `FrontendSessionEvent`. -/
inductive SessEvent
  | conn
  | recvData
  | close
  | timeout
  | abnormal
  deriving DecidableEq, Repr

/-- The engine, `g_ch1_text_session` and `g_ch1_bulk_session`, and the callback of each
session; `none` is `default_session_event_callback`, which does nothing. -/
structure State where
  engine : Frontend.State
  session : Which → Option SessPtr
  callback : SessPtr → Option Which

/-- `ch1_text_session_callback` and `ch1_bulk_session_callback`. -/
def ch1SessionCallback (w : Which) (event : SessEvent) (session : Which → Option SessPtr) :
    Which → Option SessPtr :=
  match event with
  | .close => Function.update session w none
  | .conn => session
  | .recvData => session
  | .timeout => session
  | .abnormal => session

/-- The event that a step of the engine reports, and the session it is for. -/
def eventOf (s : Frontend.State) (l : Label) (ctrl : Frontend.Ctrl) : Option (SessPtr × SessEvent) :=
  match ctrl, l with
  | .rxCallback (some p), .rxMsg buf _ =>
      some (p, if buf (proxyMsgHdrSize + innerHdrSize + 1) ≠ 0 then .abnormal else .close)
  | .rxCallback none, .rxMsg buf _ =>
      (searchSess s.core.pool (ProxyMsgHeader.read buf 0).frontendSessId).map (·, .conn)
  | .b2fCallback p _, _ => some (p, .recvData)
  | .f2bCallback _, _ =>
      match s.ctrl with
      | .f2b p _ => some (p, .abnormal)
      | _ => none
  | _, _ => none

/-- The callback of the session is run. -/
def deliver (callback : SessPtr → Option Which) (event : Option (SessPtr × SessEvent))
    (session : Which → Option SessPtr) : Which → Option SessPtr :=
  match event with
  | none => session
  | some (p, ev) =>
      match callback p with
      | none => session
      | some w => ch1SessionCallback w ev session

/-- A piece of `frontend_engine_run_hyperamp_once`. -/
def ofEngine : Label → Bool
  | .runOnce => true
  | .rxMsg _ _ => true
  | .rxAgain => true
  | .rxError => true
  | .callbackReturn => true
  | .f2bSend _ => true
  | .sessNew _ => false
  | .sessConnect _ _ _ => false
  | .sessSend _ _ _ => false
  | .sessRecv _ _ => false
  | .sessClose _ _ => false
  | .deleteSess _ => false

/-- The steps of the server. -/
inductive ServerLabel
  /-- A piece of a round of the engine. -/
  | engine (l : Label)
  /-- CH0 sends bytes over a session, as `ch1_send_with_header` and
  `ch1_forward_bulk_raw_data` do. -/
  | forward (w : Which) (data : List UInt8) (alloc : ℕ → Bool)

/-- `ch1_is_text_ready` and `ch1_is_bulk_ready`; there is no result when the session was
freed. -/
def ch1IsReady (s : State) (w : Which) : Option Bool :=
  match s.session w with
  | none => some false
  | some p => (s.engine.core.heap p).map fun sess => sess.sessState = some .connected

/-- **One step of the server.** -/
def serverStep (s : State) : ServerLabel → Option State
  | .engine l =>
      if ofEngine l then
        (step s.engine l).map fun e =>
          { s with
            engine := e
            session := deliver s.callback (eventOf s.engine l e.ctrl) s.session }
      else none
  | .forward w data alloc =>
      if s.engine.ctrl = .idle then do
        let ready ← ch1IsReady s w
        match s.session w with
        | none => return s
        | some p =>
            if ready then
              (step s.engine (.sessSend p data alloc)).map fun e => { s with engine := e }
            else return s
      else none

/-! ### Initialisation -/

/-- The parameters of `frontend_sess_connect_by_addrstr` for 192.168.137.2 and the port
of the session, 8888 or 8889. -/
def connectPara : Which → SessMsgPara
  | .text => ⟨0xFFFF, 0xFF, 4, 0, #v[192, 168, 137, 2, 0xB8, 0x22]⟩
  | .bulk => ⟨0xFFFF, 0xFF, 4, 0, #v[192, 168, 137, 2, 0xB9, 0x22]⟩

/-- What `ch1_init` meets at the creation of a session: whether its memory can be
allocated, the bits it holds, and the answer of the TX ring to the CREATE command. -/
structure SessEnv where
  alloc : Bool
  linked : Dir → Bool
  ans : HyperampRet

/-- The creation of one session in `ch1_init`: the pointer is set whatever
`frontend_sess_connect_by_addrstr` returns. -/
def ch1NewSession (w : Which) (env : SessEnv) (s : State) : Option State :=
  if env.alloc = false then some s
  else do
    let p := s.engine.core.nextPtr
    let c := frontendSessNew env.linked s.engine.core
    let (_, c) ← createSessStep1 (connectPara w) env.ans p c
    return { engine := { s.engine with core := c }
             session := Function.update s.session w (some p)
             callback := Function.update s.callback p (some w) }

/-- `ch1_init` after the initialisation of the pool. -/
def ch1Init (env : Which → SessEnv) : Option State := do
  let s ← ch1NewSession .text (env .text)
    { engine := initState, session := fun _ => none, callback := fun _ => none }
  ch1NewSession .bulk (env .bulk) s

/-! ### What keeps a session in the table -/

section Table

variable {s s' : Frontend.State} {l : Label} {c' : Core} {p q : SessPtr}

/-- **Only a deletion takes a session out of the table.** -/
lemma effect_inTable (h : Effect s l c') (hq : s.core.InTable q) :
    c'.InTable q ∨ l = .deleteSess q ∨ l = .callbackReturn ∧ s.ctrl = .rxCallback (some q) := by
  cases h with
  | same => exact .inl hq
  | new linked => exact .inl hq
  | idLost => exact .inl hq
  | connectFailed => exact .inl hq
  | connected =>
      obtain ⟨e, he, hp⟩ := hq
      exact .inl ⟨e, List.mem_append_left _ he, hp⟩
  | response => exact .inl hq
  | dropped => exact .inl hq
  | stored => exact .inl hq
  | refused => exact .inl hq
  | sent => exact .inl hq
  | received => exact .inl hq
  | @deleted _ p sess _ hl hsess htable _ =>
      by_cases hqp : q = p
      · subst hqp
        exact .inr hl
      · obtain ⟨e, he, hp⟩ := hq
        refine .inl ⟨e, ?_, hp⟩
        exact (List.mem_eraseP_of_neg (by simpa [hp] using hqp)).mpr he
  | b2fEmptied => exact .inl hq
  | f2bDone => exact .inl hq
  | f2bAgain => exact .inl hq
  | f2bFailed => exact .inl hq

/-- The session that a message closes: the message is a CLOSE that the processor
accepts, and its id is in the table. -/
def closedBy (buf : Mem) (c : Core) : Option SessPtr :=
  if ProxyMsgType.ofCode? (ProxyMsgHeader.read buf 0).proxyMsgType = some .sess ∧
      sessMsgAccepted (sessHdrOf buf) = true ∧ (sessHdrOf buf).msgType ≠ sessMsgCreate then
    searchSess c.pool (ProxyMsgHeader.read buf 0).frontendSessId
  else none

lemma closedBy_of_process {buf : Mem} {alloc : Bool} {c : Core}
    (h : frontendProxyMsgProcess buf alloc c = some (c', .rxCallback (some q))) :
    closedBy buf c = some q := by
  unfold frontendProxyMsgProcess at h
  simp only at h
  split at h
  case h_1 htype =>
    simp only [sessMsgProcess] at h
    split_ifs at h with haccepted hcreate haction
    · simp at h
    · rw [sessMsgProcessActiveCreate] at h
      split at h
      · simp at h
      · obtain ⟨c₁, -, h⟩ := Option.bind_eq_some_iff.mp h
        simp at h
    · rw [sessMsgProcessPassiveCreate] at h
      split_ifs at h <;> simp at h
    · rw [closedBy, if_pos ⟨htype, by simpa using haccepted, hcreate⟩]
      rw [sessMsgProcessClose] at h
      split at h
      · simp at h
      · rename_i p hsearch
        simp only [Option.some.injEq, Prod.mk.injEq, Ctrl.rxCallback.injEq] at h
        rw [hsearch, h.2]
  case h_2 htype =>
    obtain ⟨c₁, -, h⟩ := Option.bind_eq_some_iff.mp h
    simp at h
  all_goals simp at h

/-- Step 3 does not enter a callback of step 1. -/
lemma enterF2b_ctrl {c : Core} {next : Option SessPtr} (h : enterF2b c next = some s') :
    s'.ctrl ≠ .rxCallback (some q) := by
  cases next with
  | none =>
      obtain rfl := Option.some.inj h
      simp
  | some p =>
      obtain ⟨sess, -, rfl⟩ := Option.map_eq_some_iff.mp h
      simp

/-- Neither does step 2. -/
lemma enterB2f_ctrl {c : Core} {next : Option SessPtr} (h : enterB2f c next = some s') :
    s'.ctrl ≠ .rxCallback (some q) := by
  cases next with
  | none => exact enterF2b_ctrl h
  | some p =>
      obtain ⟨sess, -, rfl⟩ := Option.map_eq_some_iff.mp h
      simp

/-- The engine enters the callback before a deletion only for a CLOSE message. -/
lemma rxCallback_of_step (h : step s l = some s') (hl : ofEngine l = true)
    (hctrl : s'.ctrl = .rxCallback (some q)) :
    ∃ buf alloc, l = .rxMsg buf alloc ∧ closedBy buf s.core = some q := by
  -- of all labels, only a message leads to the callback for a session
  cases l with
  | runOnce =>
      simp only [step] at h
      split at h
      · obtain rfl := Option.some.inj h
        cases hctrl
      · cases h
  | rxMsg buf alloc =>
      simp only [step] at h
      split at h
      · obtain ⟨⟨c', ctrl⟩, hproc, rfl⟩ := Option.map_eq_some_iff.mp h
        obtain rfl : ctrl = .rxCallback (some q) := hctrl
        exact ⟨buf, alloc, rfl, closedBy_of_process hproc⟩
      · cases h
  | rxAgain =>
      simp only [step] at h
      split at h
      · exact absurd hctrl (enterB2f_ctrl h)
      · cases h
  | rxError =>
      simp only [step] at h
      split at h
      · obtain rfl := Option.some.inj h
        cases hctrl
      · cases h
  | callbackReturn =>
      simp only [step] at h
      split at h
      · obtain rfl := Option.some.inj h
        cases hctrl
      · obtain ⟨c₁, -, rfl⟩ := Option.map_eq_some_iff.mp h
        cases hctrl
      · obtain ⟨c₁, -, h⟩ := Option.bind_eq_some_iff.mp h
        exact absurd hctrl (enterB2f_ctrl h)
      · exact absurd hctrl (enterF2b_ctrl h)
      · cases h
  | f2bSend ans =>
      simp only [step] at h
      split at h
      · obtain ⟨r, -, h⟩ := Option.bind_eq_some_iff.mp h
        split_ifs at h
        · obtain rfl := Option.some.inj h
          cases hctrl
        · exact absurd hctrl (enterF2b_ctrl h)
      · cases h
  | sessNew => cases hl
  | sessConnect => cases hl
  | sessSend => cases hl
  | sessRecv => cases hl
  | sessClose => cases hl
  | deleteSess => cases hl

/-- A send leaves the engine where it is. -/
lemma sessSend_ctrl {data : List UInt8} {alloc : ℕ → Bool}
    (h : step s (.sessSend p data alloc) = some s') : s'.ctrl = s.ctrl := by
  simp only [step, appCall] at h
  split_ifs at h
  obtain ⟨c, -, rfl⟩ := Option.map_eq_some_iff.mp h
  rfl

end Table

/-! ### The invariant -/

/-- A CLOSE message for a session that CH1 points to has code 0. -/
def ClosesCleanly (s : State) : ServerLabel → Prop
  | .engine (.rxMsg buf _) =>
      ∀ p ∈ closedBy buf s.engine.core, (∃ w, s.session w = some p) →
        buf (proxyMsgHdrSize + innerHdrSize + 1) = 0
  | _ => True

/-- The pointers refer to sessions of the table that have the callback which clears
them, and not to the session that the engine is about to delete. -/
structure SessionsOk (s : State) : Prop where
  table : TableOk s.engine.core
  inTable : ∀ w p, s.session w = some p → s.engine.core.InTable p
  bound : ∀ w p, s.session w = some p → s.callback p = some w
  closing : ∀ q, s.engine.ctrl = .rxCallback (some q) → ∀ w, s.session w ≠ some q

/-- A callback only clears pointers. -/
lemma deliver_some {callback : SessPtr → Option Which} {event : Option (SessPtr × SessEvent)}
    {session : Which → Option SessPtr} {w : Which} {p : SessPtr}
    (h : deliver callback event session w = some p) : session w = some p := by
  rcases event with _ | ⟨q, ev⟩
  · exact h
  · cases hq : callback q with
    | none => simpa [deliver, hq] using h
    | some w' =>
        simp only [deliver, hq] at h
        cases ev with
        | close =>
            simp only [ch1SessionCallback, Function.update_apply] at h
            split_ifs at h
            exact h
        | conn => exact h
        | recvData => exact h
        | timeout => exact h
        | abnormal => exact h

/-- The event CLOSE clears the pointer to the session. -/
lemma deliver_close {callback : SessPtr → Option Which} {session : Which → Option SessPtr}
    {q : SessPtr} (hbound : ∀ w p, session w = some p → callback p = some w) (w : Which) :
    deliver callback (some (q, .close)) session w ≠ some q := by
  intro h
  have hq := hbound w q (deliver_some h)
  simp [deliver, hq, ch1SessionCallback] at h

/-- **A step of the server keeps the pointers in order** if it closes cleanly. -/
lemma serverStep_sessionsOk {s s' : State} {l : ServerLabel} (hi : SessionsOk s)
    (hgood : ClosesCleanly s l) (h : serverStep s l = some s') : SessionsOk s' := by
  cases l with
  | engine l =>
      rw [serverStep] at h
      split_ifs at h with hl
      obtain ⟨e, hstep, rfl⟩ := Option.map_eq_some_iff.mp h
      have heffect := step_effect hstep
      refine ⟨effect_tableOk heffect hi.table, ?_, ?_, ?_⟩
      · intro w p hp
        have hold := deliver_some hp
        rcases effect_inTable heffect (hi.inTable w p hold) with hin | rfl | ⟨-, hctrl⟩
        · exact hin
        · cases hl
        · exact absurd hold (hi.closing p hctrl w)
      · intro w p hp
        exact hi.bound w p (deliver_some hp)
      · intro q hctrl w hq
        obtain ⟨buf, alloc, rfl, hclosed⟩ := rxCallback_of_step hstep hl hctrl
        -- the session that is closed is told so with code 0, and the server then forgets it
        have hcode := hgood q hclosed ⟨w, deliver_some hq⟩
        have hevent : eventOf s.engine (.rxMsg buf alloc) e.ctrl = some (q, .close) := by
          have hctrl' : e.ctrl = .rxCallback (some q) := hctrl
          simp [eventOf, hctrl', hcode]
        simp only [hevent] at hq
        exact deliver_close hi.bound w hq
  | forward w data alloc =>
      rw [serverStep] at h
      split_ifs at h with hidle
      obtain ⟨ready, -, h⟩ := Option.bind_eq_some_iff.mp h
      split at h
      · obtain rfl := Option.some.inj h
        exact hi
      · rename_i p hp
        split_ifs at h
        · obtain ⟨e, hstep, rfl⟩ := Option.map_eq_some_iff.mp h
          have heffect := step_effect hstep
          refine ⟨effect_tableOk heffect hi.table, ?_, hi.bound, ?_⟩
          · intro w' q hq
            rcases effect_inTable heffect (hi.inTable w' q hq) with hin | hno | ⟨hno, -⟩
            · exact hin
            · cases hno
            · cases hno
          · intro q hctrl
            rw [sessSend_ctrl hstep, hidle] at hctrl
            cases hctrl
        · obtain rfl := Option.some.inj h
          exact hi

/-! ### Initialisation with room in the TX ring -/

/-- A CREATE command of `ch1_init` is sent if the ring takes it. -/
lemma create_sent (id : UInt16) (w : Which) :
    ∃ out, buildProxyGeneralMessage (fun _ => .ok) (createHeader id (connectPara w))
      (some (createPayload (connectPara w))) = some (.ok, out) := by
  cases w with
  | text => exact ⟨_, rfl⟩
  | bulk => exact ⟨_, rfl⟩

/-- A new session is not in the table. -/
lemma frontendSessNew_outside {c : Core} (linked : Dir → Bool) (h : TableOk c) :
    ¬ (frontendSessNew linked c).InTable c.nextPtr := by
  rintro ⟨e, he, hp⟩
  obtain ⟨sess, hsess, -⟩ := h.alive e he
  exact absurd hp (Nat.ne_of_lt (h.lt hsess))

/-- While ids are left, a session whose CREATE command is sent enters the table. -/
lemma createSessStep1_inserts {c c' : Core} {p : SessPtr} {w : Which} {ret : ProcessRet}
    (hids : IdsOk c) (hroom : c.pool.htable.length < 1024) (htable : ¬ c.InTable p)
    (h : createSessStep1 (connectPara w) .ok p c = some (ret, c')) :
    c'.InTable p ∧ c'.pool.htable.length = c.pool.htable.length + 1 := by
  obtain ⟨sess, hsess, h⟩ := Option.bind_eq_some_iff.mp h
  have hlen := hids.perm.length_eq
  simp only [List.length_append, List.length_map, fillIdQueue, List.length_range'] at hlen
  cases hid : c.pool.idQueue with
  | nil =>
      rw [hid, List.length_nil] at hlen
      omega
  | cons id rest =>
      have hperm := hids.perm
      rw [hid, List.cons_append] at hperm
      have hmem : id ∈ fillIdQueue := hperm.mem_iff.mp List.mem_cons_self
      have hne : id ≠ 0 := by
        rintro rfl
        exact absurd ((mem_fillIdQueue 0).mp hmem).1 (by decide)
      have hnot : id ∉ c.pool.htable.map Prod.fst := by
        have hnodup := hperm.nodup_iff.mpr nodup_fillIdQueue
        exact fun hk => (List.nodup_cons.mp hnodup).1 (List.mem_append_right _ hk)
      have hfree : (c.pool.htable.find? fun e => e.1 = id).map Prod.snd = none := by
        rw [Option.map_eq_none_iff, List.find?_eq_none]
        intro e he
        simpa using fun hk => hnot (List.mem_map.mpr ⟨e, he, hk⟩)
      obtain ⟨out, hsent⟩ := create_sent id w
      have htable' : ¬ Core.InTable { c with pool := { c.pool with idQueue := rest } } p := htable
      simp only [hid, allocateId, if_neg hne, if_neg htable', hsent, Option.bind_eq_bind,
        Option.bind_some,
        insertSess, searchSess, Core.record, Core.setSess, hfree, Option.pure_def,
        Option.some.injEq, Prod.mk.injEq] at h
      obtain ⟨-, rfl⟩ := h
      refine ⟨⟨(id, p), by simp, rfl⟩, ?_⟩
      simp

/-- The creation of a session whose CREATE command is sent. -/
lemma ch1NewSession_sessionsOk {w : Which} {env : SessEnv} {s s' : State} (hi : SessionsOk s)
    (hids : IdsOk s.engine.core) (hroom : s.engine.core.pool.htable.length < 1024)
    (hidle : s.engine.ctrl = .idle) (hans : env.alloc = true → env.ans = .ok)
    (h : ch1NewSession w env s = some s') :
    SessionsOk s' ∧ IdsOk s'.engine.core ∧ s'.engine.ctrl = .idle ∧
      s'.engine.core.pool.htable.length ≤ s.engine.core.pool.htable.length + 1 := by
  rw [ch1NewSession] at h
  split_ifs at h with halloc
  · obtain rfl := Option.some.inj h
    exact ⟨hi, hids, hidle, Nat.le_succ _⟩
  have hok := hans (by simpa using halloc)
  obtain ⟨⟨ret, c⟩, hcreate, h⟩ := Option.bind_eq_some_iff.mp h
  obtain rfl := Option.some.inj h
  rw [hok] at hcreate
  set p := s.engine.core.nextPtr with hp
  set c₁ := frontendSessNew env.linked s.engine.core with hc₁
  have hnew : Effect s.engine (.sessNew env.linked) c₁ := .new env.linked
  have htable₁ := effect_tableOk hnew hi.table
  have hids₁ := effect_idsOk hnew (noFailedCreate_of_none _ rfl) hi.table hids
  -- the new session is at an address that no session in the table has
  have hout : ¬ c₁.InTable p := frontendSessNew_outside env.linked hi.table
  have heffect : Effect ⟨c₁, .idle⟩ (.sessConnect p (connectPara w) .ok) c :=
    createSessStep1_effect (s := ⟨c₁, .idle⟩) hcreate
  obtain ⟨hin, hlen⟩ := createSessStep1_inserts hids₁ hroom hout hcreate
  refine ⟨⟨effect_tableOk heffect htable₁, ?_, ?_, ?_⟩,
    effect_idsOk heffect (noFailedCreate_of_none _ rfl) htable₁ hids₁, hidle, ?_⟩
  · intro w' q hq
    simp only [Function.update_apply] at hq
    split_ifs at hq with hw
    · obtain rfl := Option.some.inj hq
      exact hin
    · have hold : c₁.InTable q := hi.inTable w' q hq
      rcases effect_inTable heffect hold with hin | hno | ⟨hno, -⟩
      · exact hin
      · cases hno
      · cases hno
  · intro w' q hq
    simp only [Function.update_apply] at hq ⊢
    split_ifs at hq with hw
    · obtain rfl := Option.some.inj hq
      rw [if_pos rfl, hw]
    · obtain ⟨e, he, hq'⟩ := hi.inTable w' q hq
      obtain ⟨sess, hsess, -⟩ := hi.table.alive e he
      rw [hq'] at hsess
      rw [if_neg (Nat.ne_of_lt (hi.table.lt hsess)), hi.bound w' q hq]
  · intro q hctrl
    rw [show s.engine.ctrl = .idle from hidle] at hctrl
    cases hctrl
  · exact Nat.le_of_eq hlen

/-- Without room for the CREATE command the session does not enter the table. -/
lemma createSessStep1_refused {c c' : Core} {p : SessPtr} {para : SessMsgPara}
    {ans : HyperampRet} {ret : ProcessRet} (htable : ¬ c.InTable p) (hans : ans ≠ .ok)
    (h : createSessStep1 para ans p c = some (ret, c')) : ¬ c'.InTable p := by
  obtain ⟨sess, hsess, h⟩ := Option.bind_eq_some_iff.mp h
  simp only at h
  split_ifs at h
  · obtain ⟨-, rfl⟩ := Prod.mk.inj (Option.some.inj h)
    exact htable
  · obtain ⟨⟨ret', out⟩, hbuild, h⟩ := Option.bind_eq_some_iff.mp h
    cases ret' with
    | ok =>
        rw [buildProxyGeneralMessage] at hbuild
        split at hbuild
        · cases hbuild
        · cases ans with
          | ok => exact absurd rfl hans
          | error => cases hbuild
          | again => cases hbuild
        · cases hbuild
    | error =>
        obtain ⟨-, rfl⟩ := Prod.mk.inj (Option.some.inj h)
        exact htable
    | again =>
        obtain ⟨-, rfl⟩ := Prod.mk.inj (Option.some.inj h)
        exact htable

/-- The pointer is then set all the same, to a session that is not in the pool. -/
lemma ch1NewSession_refused {w : Which} {env : SessEnv} {s s' : State}
    (htable : TableOk s.engine.core) (halloc : env.alloc = true) (hans : env.ans ≠ .ok)
    (h : ch1NewSession w env s = some s') :
    ∃ p, s'.session w = some p ∧ ¬ s'.engine.core.InTable p := by
  rw [ch1NewSession, if_neg (by simp [halloc])] at h
  obtain ⟨⟨ret, c⟩, hcreate, h⟩ := Option.bind_eq_some_iff.mp h
  obtain rfl := Option.some.inj h
  exact ⟨_, Function.update_self _ _ _,
    createSessStep1_refused (frontendSessNew_outside env.linked htable) hans hcreate⟩

lemma ch1Init_sessionsOk {env : Which → SessEnv} {s : State}
    (hans : ∀ w, (env w).alloc = true → (env w).ans = .ok) (h : ch1Init env = some s) :
    SessionsOk s := by
  obtain ⟨s₁, htext, hbulk⟩ := Option.bind_eq_some_iff.mp h
  have hinit : SessionsOk
      { engine := initState, session := fun _ => none, callback := fun _ => none } :=
    ⟨tableOk_init, nofun, nofun, nofun⟩
  have hids : IdsOk initState.core := ⟨by simp [initState, initPool], rfl⟩
  obtain ⟨hi, hids, hidle, hlen⟩ :=
    ch1NewSession_sessionsOk hinit hids (by decide) rfl (hans .text) htext
  have hlen' : s₁.engine.core.pool.htable.length < 1024 :=
    Nat.lt_of_le_of_lt hlen (by decide)
  exact (ch1NewSession_sessionsOk hi hids hlen' hidle (hans .bulk) hbulk).1

/-- **CH1 points into the pool.** If the TX ring takes the CREATE commands of `ch1_init`,
then in every run in which the CLOSE messages for the sessions of CH1 have code 0,
each pointer is null or refers to a live session of the pool, and the readiness checks
read no freed session. -/
theorem ch1_sessions_in_pool (env : Which → SessEnv) (s₀ s : State) (ls : List ServerLabel)
    (hans : ∀ w, (env w).alloc = true → (env w).ans = .ok) (hinit : ch1Init env = some s₀)
    (hrun : Runs (Guarded ClosesCleanly (OfFun serverStep)) s₀ ls s) :
    (∀ w p, s.session w = some p → s.engine.core.InTable p) ∧
      ∀ w, ch1IsReady s w ≠ none := by
  have hi : SessionsOk s :=
    hrun.invariant SessionsOk
      (fun s l s' hi hstep => serverStep_sessionsOk hi hstep.1 hstep.2)
      (ch1Init_sessionsOk hans hinit)
  refine ⟨hi.inTable, fun w => ?_⟩
  rw [ch1IsReady]
  split
  · simp
  · rename_i p hp
    obtain ⟨e, he, hq⟩ := hi.inTable w p hp
    obtain ⟨sess, hsess, -⟩ := hi.table.alive e he
    rw [← hq, hsess]
    simp

/-- Both sessions are created. -/
def bothSessions : Which → SessEnv := fun _ => ⟨true, fun _ => false, .ok⟩

/-- The CLOSE response of the backend for an id below 256. -/
def closeResponseMsg (id code : UInt8) : Mem :=
  store (fun _ => 0) 0 [1, 2, id, 0, 9, 0, 12, 0, 1, 0, 0, 0, 1, 0, 4, 0, 2, 0, 0, code]

/-- The backend accepts the first session, bytes are sent over it, and the backend
closes it. -/
def closeRun (code : UInt8) : List ServerLabel :=
  [.engine .runOnce, .engine (.rxMsg (createResponseMsg 1 0) true), .engine .callbackReturn,
    .engine .rxError, .forward .text [1, 2, 3] fun _ => true,
    .engine .runOnce, .engine (.rxMsg (closeResponseMsg 1 code) true), .engine .callbackReturn]

/-- A check for `ClosesCleanly` that does not look at the sessions. -/
def onlyCodeZero : ServerLabel → Bool
  | .engine (.rxMsg buf _) => buf (proxyMsgHdrSize + innerHdrSize + 1) = 0
  | _ => true

lemma closesCleanly_of_codeZero (s : State) (l : ServerLabel) (h : onlyCodeZero l = true) :
    ClosesCleanly s l := by
  unfold onlyCodeZero at h
  split at h
  · intro p _ _
    simpa using h
  · rename_i hno
    unfold ClosesCleanly
    split
    · exact absurd rfl (hno _ _)
    · trivial

/-- After a CLOSE with code 0 the text session is gone and its pointer cleared, and the
bulk session is there. -/
theorem ch1_sessions_in_pool_closed :
    ∃ s₀ s, ch1Init bothSessions = some s₀ ∧
      Runs (Guarded ClosesCleanly (OfFun serverStep)) s₀ (closeRun 0) s ∧
      s.session .text = none ∧ s.session .bulk = some 1 ∧ s.engine.core.InTable 1 := by
  have heval : ((ch1Init bothSessions).bind fun s₀ =>
      runFun (fun _ l => onlyCodeZero l) serverStep s₀ (closeRun 0)).map
        (fun s => (s.session .text, s.session .bulk)) = some (none, some 1) := by
    decide +kernel
  obtain ⟨s, hs, hsession⟩ := Option.map_eq_some_iff.mp heval
  obtain ⟨s₀, hinit, hs⟩ := Option.bind_eq_some_iff.mp hs
  simp only [Prod.mk.injEq] at hsession
  have hrun := runs_of_runFun ClosesCleanly closesCleanly_of_codeZero hs
  have hin := ch1_sessions_in_pool bothSessions s₀ s _ (fun _ _ => rfl) hinit hrun
  exact ⟨s₀, s, hinit, hrun, hsession.1, hsession.2, hin.1 .bulk 1 hsession.2⟩

/-- After a CLOSE with code 1 the pointer to the text session stays, and the session is
neither in the pool nor in memory: the readiness check reads a freed session. -/
theorem ch1_session_dangling :
    ∃ s₀ s, ch1Init bothSessions = some s₀ ∧ Runs (OfFun serverStep) s₀ (closeRun 1) s ∧
      s.session .text = some 0 ∧ ¬ s.engine.core.InTable 0 ∧ ch1IsReady s .text = none := by
  have heval : ((ch1Init bothSessions).bind fun s₀ =>
      runFun (fun _ _ => true) serverStep s₀ (closeRun 1)).map
        (fun s => (s.session .text, decide (s.engine.core.InTable 0), ch1IsReady s .text)) =
      some (some 0, false, none) := by
    decide +kernel
  obtain ⟨s, hs, hobs⟩ := Option.map_eq_some_iff.mp heval
  obtain ⟨s₀, hinit, hs⟩ := Option.bind_eq_some_iff.mp hs
  simp only [Prod.mk.injEq, decide_eq_false_iff_not] at hobs
  exact ⟨s₀, s, hinit, runs_of_eval hs, hobs⟩

end Server
