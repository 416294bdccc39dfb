import Sel4Test.Frontend.Effect

/-!
Conservation of session ids.

The ids `1, …, 1024` are either free, in the id queue, or in use, as keys of the hash
table. Creation moves an id from the queue to the table and deletion moves it back.
There are three exceptions:

* after a CREATE response that reports a failure,
  `frontend_high_speed_create_sess_step2` releases the id and leaves the session in the table;
* a session of the table that is connected again gets a second id, over its first one;
* a session that is not in the table, such as one whose creation failed, is deleted all the
  same and gives back an id that it does not have.

`IdSafe` excludes them.

* `TableOk`, `effect_tableOk`: the entries of the table are distinct live sessions
  that have their key as id; every step keeps this.
* `ids_conserved`: in runs of safe steps every id is free or in use exactly once, and a
  safe creation has a result.
* `failed_create_keeps_id`: after one failure response an id is both.
-/

namespace Frontend

open ByteMem Hyperamp Exec

variable {c c' : Core} {s s' : State} {p : SessPtr} {l : Label} {sess sess' : FrontendSession}

/-! ### The hash table -/

lemma inTable_of_search {id : UInt16} (h : searchSess c.pool id = some p) : c.InTable p := by
  obtain ⟨e, he, rfl⟩ := Option.map_eq_some_iff.mp h
  exact ⟨e, List.mem_of_find?_eq_some he, rfl⟩

/-- The entries of the hash table are distinct live sessions with their key as id,
and memory that was not allocated yet holds no session. -/
structure TableOk (c : Core) : Prop where
  nodup : (c.pool.htable.map Prod.snd).Nodup
  alive : ∀ e ∈ c.pool.htable, ∃ sess, c.heap e.2 = some sess ∧ sess.frontendSessId = e.1
  fresh : ∀ p, c.nextPtr ≤ p → c.heap p = none

/-- An entry of the table and the rest of it. -/
lemma table_split (h : TableOk c) (htable : c.InTable p) (hsess : c.heap p = some sess) :
    ∃ l₁ l₂, c.pool.htable = l₁ ++ (sess.frontendSessId, p) :: l₂ ∧
      (c.pool.htable.eraseP fun e => e.2 = p) = l₁ ++ l₂ ∧ ∀ e ∈ l₁ ++ l₂, e.2 ≠ p := by
  obtain ⟨e, he, hp⟩ := htable
  obtain ⟨⟨id, q⟩, l₁, l₂, hl₁, hq, hsplit, herase⟩ :=
    List.exists_of_eraseP (p := fun e => decide (e.2 = p)) he (by simpa using hp)
  obtain rfl : q = p := by simpa using hq
  obtain ⟨sess₁, hsess₁, hid⟩ := h.alive (id, q) (by simp [hsplit])
  obtain rfl : sess₁ = sess := Option.some.inj (hsess₁.symm.trans hsess)
  refine ⟨l₁, l₂, ?_, herase, ?_⟩
  · rw [hsplit]
    exact congrArg (fun id => l₁ ++ (id, q) :: l₂) hid.symm
  · intro e he hp
    have hnodup := h.nodup
    rw [hsplit, List.map_append, List.map_cons] at hnodup
    have hnot := (List.nodup_cons.mp (List.nodup_middle.mp hnodup)).1
    rw [← List.map_append] at hnot
    exact hnot (List.mem_map.mpr ⟨e, he, hp⟩)

/-- A session that was allocated is below the next address. -/
lemma TableOk.lt (h : TableOk c) (hsess : c.heap p = some sess) : p < c.nextPtr := by
  by_contra hlt
  rw [h.fresh p (Nat.le_of_not_lt hlt)] at hsess
  cases hsess

/-- The table is as good as before when one session is written and keeps its id. -/
lemma TableOk.rewrite (h : TableOk c) (hsess : c.heap p = some sess)
    (hheap : c'.heap = Function.update c.heap p (some sess'))
    (hid : sess'.frontendSessId = sess.frontendSessId) (hnext : c'.nextPtr = c.nextPtr)
    (htable : c'.pool.htable = c.pool.htable) : TableOk c' := by
  refine ⟨htable ▸ h.nodup, ?_, ?_⟩
  · intro e he
    rw [htable] at he
    obtain ⟨sess₁, hsess₁, hid₁⟩ := h.alive e he
    rw [hheap]
    by_cases hp : e.2 = p
    · obtain rfl : sess₁ = sess := by
        rw [hp, hsess] at hsess₁
        exact (Option.some.inj hsess₁).symm
      exact ⟨sess', by rw [hp, Function.update_self], hid.trans hid₁⟩
    · exact ⟨sess₁, by rw [Function.update_of_ne hp, hsess₁], hid₁⟩
  · intro q hq
    rw [hnext] at hq
    rw [hheap, Function.update_of_ne (Nat.ne_of_gt (lt_of_lt_of_le (h.lt hsess) hq)),
      h.fresh q hq]

/-- A session outside the table may be written in any way. -/
lemma TableOk.rewrite_outside (h : TableOk c) (hlt : p < c.nextPtr) (hout : ¬ c.InTable p)
    (hheap : c'.heap = Function.update c.heap p (some sess')) (hnext : c'.nextPtr = c.nextPtr)
    (htable : c'.pool.htable = c.pool.htable) : TableOk c' := by
  refine ⟨htable ▸ h.nodup, ?_, ?_⟩
  · intro e he
    rw [htable] at he
    rw [hheap, Function.update_of_ne fun hp => hout ⟨e, he, hp⟩]
    exact h.alive e he
  · intro q hq
    rw [hnext] at hq
    rw [hheap, Function.update_of_ne (Nat.ne_of_gt (lt_of_lt_of_le hlt hq)), h.fresh q hq]

/-- A session enters the table under its id. -/
lemma TableOk.insert (h : TableOk c) (hout : ¬ c.InTable p) (hsess : c.heap p = some sess)
    (hheap : c'.heap = c.heap) (hnext : c'.nextPtr = c.nextPtr)
    (htable : c'.pool.htable = c.pool.htable ++ [(sess.frontendSessId, p)]) : TableOk c' := by
  refine ⟨?_, ?_, ?_⟩
  · rw [htable, List.map_append, List.map_singleton, List.nodup_append']
    refine ⟨h.nodup, List.nodup_singleton _, ?_⟩
    rw [List.disjoint_singleton]
    intro hmem
    obtain ⟨e, he, hp⟩ := List.mem_map.mp hmem
    exact hout ⟨e, he, hp⟩
  · intro e he
    rw [htable, List.mem_append, List.mem_singleton] at he
    rw [hheap]
    rcases he with he | rfl
    · exact h.alive e he
    · exact ⟨sess, hsess, rfl⟩
  · intro q hq
    rw [hheap, h.fresh q (hnext ▸ hq)]

/-- A session leaves the table and is freed. -/
lemma TableOk.delete (h : TableOk c) (htable : c.InTable p) (hsess : c.heap p = some sess)
    (hheap : c'.heap = Function.update c.heap p none) (hnext : c'.nextPtr = c.nextPtr)
    (herase : c'.pool.htable = c.pool.htable.eraseP fun e => e.2 = p) : TableOk c' := by
  obtain ⟨l₁, l₂, hsplit, herased, hother⟩ := table_split h htable hsess
  rw [herased] at herase
  have hsub : (l₁ ++ l₂).Sublist c.pool.htable := by
    rw [hsplit]
    exact List.Sublist.append_left (List.sublist_cons_self _ _) _
  refine ⟨?_, ?_, ?_⟩
  · rw [herase]
    exact h.nodup.sublist (hsub.map _)
  · intro e he
    rw [herase] at he
    rw [hheap, Function.update_of_ne (hother e he)]
    exact h.alive e (hsub.subset he)
  · intro q hq
    rw [hheap, Function.update_apply, h.fresh q (hnext ▸ hq), ite_self]

/-- **An effect keeps the table in order.** -/
lemma effect_tableOk (h : Effect s l c') (hi : TableOk s.core) : TableOk c' := by
  cases h with
  | same => exact hi
  | new linked =>
      refine ⟨hi.nodup, ?_, ?_⟩
      · intro e he
        obtain ⟨sess, hsess, hid⟩ := hi.alive e he
        exact ⟨sess, (Function.update_of_ne (Nat.ne_of_lt (hi.lt hsess)) _ _).trans hsess, hid⟩
      · intro q hq
        have hlt : s.core.nextPtr < q := hq
        exact (Function.update_of_ne (Nat.ne_of_gt hlt) _ _).trans (hi.fresh q hlt.le)
  | idLost _ => exact ⟨hi.nodup, hi.alive, hi.fresh⟩
  | connectFailed hsess hout _ _ =>
      exact hi.rewrite_outside (hi.lt hsess) hout rfl rfl rfl
  | @connected p para _ sess id _ hsess hout _ _ =>
      -- the session is written first and then enters the table
      let c₁ := s.core.put p { initSess sess id para with sessState := some .connecting }
        s.core.pool.queue []
      have hwritten : TableOk c₁ := hi.rewrite_outside (hi.lt hsess) hout rfl rfl rfl
      exact hwritten.insert hout (Function.update_self _ _ _) rfl rfl rfl
  | response _ _ hsess => exact hi.rewrite hsess rfl rfl rfl rfl
  | dropped => exact ⟨hi.nodup, hi.alive, hi.fresh⟩
  | stored _ hsess _ => exact hi.rewrite hsess rfl rfl rfl rfl
  | refused => exact ⟨hi.nodup, hi.alive, hi.fresh⟩
  | sent hsess _ _ _ => exact hi.rewrite hsess rfl rfl rfl rfl
  | received hsess _ _ => exact hi.rewrite hsess rfl rfl rfl rfl
  | deleted _ hsess htable _ => exact hi.delete htable hsess rfl rfl rfl
  | b2fEmptied hsess _ => exact hi.rewrite hsess rfl rfl rfl rfl
  | f2bDone hsess _ _ => exact hi.rewrite hsess rfl rfl rfl rfl
  | f2bAgain hsess _ _ => exact hi.rewrite hsess rfl rfl rfl rfl
  | f2bFailed hsess _ _ => exact hi.rewrite hsess rfl rfl rfl rfl

lemma tableOk_init : TableOk initState.core where
  nodup := List.nodup_nil
  alive := by simp [initState, initPool]
  fresh := fun _ _ => rfl

/-! ### Ids -/

/-- Every id is in the id queue or a key of the table, once, and the counter is the
size of the table. -/
structure IdsConserved (c : Core) : Prop where
  once : ∀ id : UInt16, c.pool.idQueue.count id + (c.pool.htable.map Prod.fst).count id =
    if 1 ≤ id.toNat ∧ id.toNat ≤ 1024 then 1 else 0
  sessions : ∀ e ∈ c.pool.htable, ∃ sess, c.heap e.2 = some sess ∧ sess.frontendSessId = e.1
  counter : c.pool.sessNum = c.pool.htable.length

/-- The ids of the queue and of the table together are those of the full queue. -/
structure IdsOk (c : Core) : Prop where
  perm : (c.pool.idQueue ++ c.pool.htable.map Prod.fst).Perm fillIdQueue
  counter : c.pool.sessNum = c.pool.htable.length

lemma mem_fillIdQueue (id : UInt16) : id ∈ fillIdQueue ↔ 1 ≤ id.toNat ∧ id.toNat ≤ 1024 := by
  rw [fillIdQueue, List.mem_map]
  constructor
  · rintro ⟨n, hn, rfl⟩
    rw [List.mem_range'_1] at hn
    rw [UInt16.toNat_ofNat', Nat.mod_eq_of_lt (by omega)]
    omega
  · intro hid
    refine ⟨id.toNat, ?_, UInt16.ofNat_toNat⟩
    rw [List.mem_range'_1]
    omega

lemma nodup_fillIdQueue : fillIdQueue.Nodup := by
  refine List.Nodup.map_on ?_ List.nodup_range'
  intro x hx y hy hxy
  rw [List.mem_range'_1] at hx hy
  have hnat := congrArg UInt16.toNat hxy
  rw [UInt16.toNat_ofNat', UInt16.toNat_ofNat', Nat.mod_eq_of_lt (by omega),
    Nat.mod_eq_of_lt (by omega)] at hnat
  exact hnat

lemma IdsOk.conserved (h : IdsOk c) (htable : TableOk c) : IdsConserved c := by
  refine ⟨?_, htable.alive, h.counter⟩
  intro id
  rw [← List.count_append, h.perm.count_eq]
  split_ifs with hid
  · exact List.count_eq_one_of_mem nodup_fillIdQueue ((mem_fillIdQueue id).mpr hid)
  · exact List.count_eq_zero.mpr fun hmem => hid ((mem_fillIdQueue id).mp hmem)

/-- The id and the status of the CREATE response that a step processes. -/
def Label.createResponse? : Label → Option (UInt16 × UInt8)
  | .rxMsg buf _ => Frontend.createResponse? buf
  | _ => none

/-- The step does not process a CREATE response with a failure for a session in the
table. -/
def NoFailedCreate (s : State) (l : Label) : Prop :=
  ∀ r ∈ l.createResponse?, r.2 = 0 ∨ searchSess s.core.pool r.1 = none

instance (s : State) (l : Label) : Decidable (NoFailedCreate s l) :=
  Option.decidableForallMem l.createResponse?

/-- A step that processes no CREATE response. -/
lemma noFailedCreate_of_none (s : State) (h : l.createResponse? = none) :
    NoFailedCreate s l := by
  intro r hr
  rw [h] at hr
  cases hr

/-- The session that the application connects. -/
def Label.connects? : Label → Option SessPtr
  | .sessConnect p _ _ => some p
  | _ => none

/-- The session that is deleted, by the application or after the callback of a CLOSE
command. -/
def State.deletes? (s : State) : Label → Option SessPtr
  | .deleteSess p => some p
  | .callbackReturn =>
      match s.ctrl with
      | .rxCallback closed => closed
      | _ => none
  | _ => none

/-- The calls find the table as they need it: a session that is connected is not in it,
unless no id is left, and a session that is deleted is. -/
structure TableCalls (s : State) (l : Label) : Prop where
  connects : ∀ p ∈ l.connects?, s.core.InTable p → (allocateId s.core.pool.idQueue).1 = 0
  deletes : ∀ p ∈ s.deletes? l, s.core.InTable p

instance (s : State) (l : Label) : Decidable (TableCalls s l) :=
  decidable_of_iff
    ((∀ p ∈ l.connects?, s.core.InTable p → (allocateId s.core.pool.idQueue).1 = 0) ∧
      ∀ p ∈ s.deletes? l, s.core.InTable p)
    ⟨fun h => ⟨h.1, h.2⟩, fun h => ⟨h.connects, h.deletes⟩⟩

/-- The step is none of the three exceptions. -/
structure IdSafe (s : State) (l : Label) : Prop where
  noFailedCreate : NoFailedCreate s l
  tableCalls : TableCalls s l

instance (s : State) (l : Label) : Decidable (IdSafe s l) :=
  decidable_of_iff (NoFailedCreate s l ∧ TableCalls s l)
    ⟨fun h => ⟨h.1, h.2⟩, fun h => ⟨h.noFailedCreate, h.tableCalls⟩⟩

/-- The CREATE command is built, or refused, whatever the ring answers. -/
lemma buildCreate_isSome (ans : HyperampRet) (id : UInt16) (para : SessMsgPara) :
    (buildProxyGeneralMessage (fun _ => ans) (createHeader id para)
      (some (createPayload para))).isSome = true := by
  have hinner : buildInner (createHeader id para) (some (createPayload para))
      (outerBuf (createHeader id para).outerHeader) proxyMsgHdrSize =
        some (buildProxySessMessage (createHeader id para).innerHeader.sessHdr
          (some (createPayload para)) (outerBuf (createHeader id para).outerHeader)
          proxyMsgHdrSize) := rfl
  have hsize : innerSize (createHeader id para) = some innerHdrSize := rfl
  rw [buildProxyGeneralMessage, fillMessage, hsize]
  simp only [hinner, Option.bind_eq_bind, Option.bind_some]
  split_ifs <;> cases ans <;> rfl

/-- A creation has a result where the table is as it needs it. -/
lemma createSessStep1_isSome (para : SessMsgPara) (ans : HyperampRet)
    (hsess : c.heap p = some sess) (hcall : c.InTable p → (allocateId c.pool.idQueue).1 = 0) :
    (createSessStep1 para ans p c).isSome = true := by
  rw [createSessStep1, hsess]
  simp only [Option.bind_eq_bind, Option.bind_some]
  split_ifs with hzero htable
  · rfl
  · exact absurd (hcall htable) hzero
  · obtain ⟨⟨ret, out⟩, hbuild⟩ := Option.isSome_iff_exists.mp
      (buildCreate_isSome ans (allocateId c.pool.idQueue).1 para)
    rw [hbuild, Option.bind_some]
    cases ret with
    | ok =>
        simp only
        split <;> rfl
    | again => rfl
    | error => rfl

/-- **An effect conserves the ids**, unless it is a failure response. -/
lemma effect_idsOk (h : Effect s l c') (hgood : NoFailedCreate s l) (htable : TableOk s.core)
    (hi : IdsOk s.core) : IdsOk c' := by
  cases h with
  | same => exact hi
  | new linked => exact ⟨hi.perm, hi.counter⟩
  | idLost hid =>
      -- the ids are those of the full queue, which has no `0`
      have hmem : (0 : UInt16) ∈ fillIdQueue := by
        refine hi.perm.subset (List.mem_append_left _ ?_)
        rw [hid]
        exact List.mem_cons_self
      exact absurd ((mem_fillIdQueue 0).mp hmem).1 (by decide)
  | @connectFailed _ _ _ _ id rest _ _ _ _ hid _ =>
      refine ⟨?_, hi.counter⟩
      have hperm := hi.perm
      rw [hid] at hperm
      exact ((List.perm_append_singleton id rest).append_right _).trans hperm
  | @connected p _ _ _ id rest _ _ hid _ =>
      have hperm := hi.perm
      rw [hid] at hperm
      refine ⟨?_, ?_⟩
      · simp only [List.map_append, List.map_singleton]
        rw [← List.append_assoc]
        exact (List.perm_append_singleton id _).trans hperm
      · simp only [List.length_append, List.length_singleton, hi.counter]
        push_cast
        rfl
  | @response _ _ _ _ _ _ status hresp hsearch _ =>
      obtain hzero | hnone := hgood _ hresp
      · refine ⟨?_, hi.counter⟩
        simp only [ne_eq] at hzero ⊢
        rw [if_neg (not_not.mpr hzero)]
        exact hi.perm
      · rw [hnone] at hsearch
        cases hsearch
  | dropped => exact ⟨hi.perm, hi.counter⟩
  | stored => exact ⟨hi.perm, hi.counter⟩
  | refused => exact ⟨hi.perm, hi.counter⟩
  | sent => exact ⟨hi.perm, hi.counter⟩
  | received => exact ⟨hi.perm, hi.counter⟩
  | @deleted _ p sess _ _ hsess hin _ =>
      obtain ⟨l₁, l₂, hsplit, herase, -⟩ := table_split htable hin hsess
      have hperm := hi.perm
      have hcounter := hi.counter
      rw [hsplit] at hperm hcounter
      refine ⟨?_, ?_⟩
      · simp only [herase]
        refine List.Perm.trans ?_ hperm
        simp only [List.map_append, List.map_cons, List.append_assoc, List.singleton_append]
        exact List.Perm.append_left _ List.perm_middle.symm
      · simp only [herase, hcounter, List.length_append, List.length_cons]
        push_cast
        ring
  | b2fEmptied => exact ⟨hi.perm, hi.counter⟩
  | f2bDone => exact ⟨hi.perm, hi.counter⟩
  | f2bAgain => exact ⟨hi.perm, hi.counter⟩
  | f2bFailed => exact ⟨hi.perm, hi.counter⟩

/-- **Ids are conserved.** In every run in which no CREATE response with a failure is
processed for a session in the table, no session of the table is connected again and only
sessions of the table are deleted, every id is free or in use, exactly once, and the
session counter is right; and the next such call of `frontend_sess_connect` has a result. -/
theorem ids_conserved (ls : List Label) (s : State)
    (hrun : Runs (Guarded IdSafe (OfFun step)) initState ls s) :
    IdsConserved s.core ∧
      ∀ p para ans, s.ctrl.appRuns = true → (s.core.heap p).isSome = true →
        TableCalls s (.sessConnect p para ans) →
        (step s (.sessConnect p para ans)).isSome = true := by
  have hinv : TableOk s.core ∧ IdsOk s.core := by
    refine hrun.invariant (fun s => TableOk s.core ∧ IdsOk s.core) ?_ ⟨tableOk_init, ?_⟩
    · rintro s l s' ⟨htable, hids⟩ ⟨hgood, hstep⟩
      exact ⟨effect_tableOk (step_effect hstep) htable,
        effect_idsOk (step_effect hstep) hgood.noFailedCreate htable hids⟩
    · exact ⟨by simp [initState, initPool], rfl⟩
  refine ⟨hinv.2.conserved hinv.1, ?_⟩
  intro p para ans happ hlive hcall
  obtain ⟨sess, hsess⟩ := Option.isSome_iff_exists.mp hlive
  obtain ⟨r, hr⟩ := Option.isSome_iff_exists.mp
    (createSessStep1_isSome para ans hsess (hcall.connects p rfl))
  rw [step, appCall, if_pos happ, hr]
  rfl

/-- The parameters of a TCP connection to 10.0.0.1:80, as
`frontend_sess_connect_by_addrstr` fills them in. -/
def tcpPara : SessMsgPara := ⟨0xFFFF, 0xFF, 4, 1, #v[10, 0, 0, 1, 80, 0]⟩

/-- The CREATE response of the backend for an id below 256. -/
def createResponseMsg (id status : UInt8) : Mem :=
  store (fun _ => 0) 0 [1, 2, id, 0, 9, 0, 12, 0, 1, 0, 1, 0, 1, 0, 4, 0, 2, 0, status, 0]

/-- A session is created, and the backend answers. -/
def createRun (status : UInt8) : List Label :=
  [.sessNew fun _ => false, .sessConnect 0 tcpPara .ok, .runOnce,
    .rxMsg (createResponseMsg 1 status) true, .callbackReturn]

/-- Two sessions are created. The backend accepts the first, and the application deletes the
second. -/
def createTwoRun : List Label :=
  createRun 0 ++ [.rxAgain, .sessNew fun _ => false, .sessConnect 1 tcpPara .ok, .deleteSess 1]

/-- Ids are conserved when two sessions are created and one is deleted. -/
theorem ids_conserved_create :
    ∃ s, Runs (Guarded IdSafe (OfFun step)) initState createTwoRun s ∧
      searchSess s.core.pool 1 = some 0 ∧ searchSess s.core.pool 2 = none ∧
      IdsConserved s.core := by
  have heval : (runFun (fun s l => decide (IdSafe s l)) step initState createTwoRun).map
      (fun s => (searchSess s.core.pool 1, searchSess s.core.pool 2)) = some (some 0, none) := by
    decide +kernel
  obtain ⟨s, hs, hsearch⟩ := Option.map_eq_some_iff.mp heval
  obtain ⟨hfirst, hsecond⟩ := Prod.mk.inj hsearch
  have hrun := runs_of_runFun IdSafe (fun _ _ => of_decide_eq_true) hs
  exact ⟨s, hrun, hfirst, hsecond, (ids_conserved _ s hrun).1⟩

/-- After a failure response the id of the session is free and in use. -/
theorem failed_create_keeps_id :
    ∃ s, Runs (OfFun step) initState (createRun 1) s ∧ 1 ∈ s.core.pool.idQueue ∧
      searchSess s.core.pool 1 = some 0 ∧ ¬ IdsConserved s.core := by
  have heval : (runFun (fun _ _ => true) step initState (createRun 1)).map
      (fun s => (searchSess s.core.pool 1, s.core.pool.idQueue.count 1,
        (s.core.pool.htable.map Prod.fst).count 1)) = some (some 0, 1, 1) := by
    decide +kernel
  obtain ⟨s, hs, hcounts⟩ := Option.map_eq_some_iff.mp heval
  simp only [Prod.mk.injEq] at hcounts
  obtain ⟨hsearch, hqueue, htable⟩ := hcounts
  refine ⟨s, runs_of_eval hs, ?_, hsearch, ?_⟩
  · exact List.count_pos_iff.mp (by omega)
  · intro h
    have hone := h.once 1
    rw [hqueue, htable] at hone
    revert hone
    decide

end Frontend
