import Sel4Test.Frontend.Ids

/-!
The active queues and the linked bits.

A session is in `queue_f2b` or `queue_b2f` when it has data for that direction, and a bit
of the session says so. The bit and the queue are changed together everywhere but in
four places:

* `frontend_sess_new` leaves the bits as the memory has them, and
  `frontend_high_speed_create_sess_step1` clears all bits but these;
* `frontend_high_speed_delete_sess` takes the session from `queue_f2b` only;
* after an error of the TX ring, `frontend_engine_run_hyperamp_once` takes the session from
  `queue_f2b` and leaves its bit;
* `frontend_sess_send` links a session that is not in the hash table.

Besides, uthash finds no session any more whose bucket was corrupted by a session that was
connected twice, or deleted without being in the table.

`linked_exactly` says that these are all: in runs that avoid them a bit is set exactly
when the session is in the queue, and queued sessions are in the hash table.
-/

namespace Frontend

open ByteMem Hyperamp Exec

variable {c c' : Core} {s s' : State} {p : SessPtr} {l : Label} {sess sess' : FrontendSession}
  {d : Dir}

/-- A linked bit is set exactly when the session is in the queue, where it is once,
and the sessions of a queue are in the hash table. -/
structure LinkedExactly (c : Core) : Prop where
  linked_iff : ∀ d p sess, c.heap p = some sess → (sess.linked d = true ↔ p ∈ c.pool.queue d)
  once : ∀ d, (c.pool.queue d).Nodup
  inTable : ∀ d, ∀ p ∈ c.pool.queue d, c.InTable p

/-- The step avoids the four places where bit and queue part. -/
def BitsKept (s : State) : Label → Prop
  | .sessNew linked => ∀ d, linked d = false
  | .sessSend p data alloc => s.core.InTable p ∨ data = [] ∨ alloc 0 = false
  | .deleteSess p => p ∉ s.core.pool.queue .b2f
  | .callbackReturn => ∀ p, s.ctrl = .rxCallback (some p) → p ∉ s.core.pool.queue .b2f
  | .f2bSend ans => ∀ i, ans i ≠ .error
  | _ => True

/-- The step avoids the four places, and its call finds the table as it needs it. -/
structure LinkSafe (s : State) (l : Label) : Prop where
  bitsKept : BitsKept s l
  tableCalls : TableCalls s l

/-! ### One session is written -/

/-- A session is written with its bits, and the queues stay. -/
lemma LinkedExactly.keep (h : LinkedExactly c) (hsess : c.heap p = some sess)
    (hheap : c'.heap = Function.update c.heap p (some sess'))
    (hlinked : sess'.linked = sess.linked) (hqueue : c'.pool.queue = c.pool.queue)
    (htable : ∀ q, c.InTable q → c'.InTable q) : LinkedExactly c' := by
  refine ⟨?_, ?_, ?_⟩
  · intro d q sess₁ hsess₁
    rw [hheap, Function.update_apply] at hsess₁
    rw [hqueue]
    split_ifs at hsess₁ with hq
    · obtain rfl := Option.some.inj hsess₁
      rw [hlinked, hq]
      exact h.linked_iff d p sess hsess
    · exact h.linked_iff d q sess₁ hsess₁
  · intro d
    rw [hqueue]
    exact h.once d
  · intro d q hq
    rw [hqueue] at hq
    exact htable q (h.inTable d q hq)

/-- A session of the table is linked. -/
lemma LinkedExactly.link (h : LinkedExactly c) (hsess : c.heap p = some sess)
    (hin : c.InTable p) (hheap : c'.heap = Function.update c.heap p (some sess'))
    (hlinked : sess'.linked = Function.update sess.linked d true)
    (hqueue : c'.pool.queue = linkedQueue c d p sess)
    (htable : c'.pool.htable = c.pool.htable) : LinkedExactly c' := by
  -- a session whose bit is set is in the queue already and is not added again
  have hmem : ∀ d' q, q ∈ linkedQueue c d p sess d' ↔
      q ∈ c.pool.queue d' ∨ d' = d ∧ q = p := by
    intro d' q
    rw [linkedQueue]
    split_ifs with hset
    · have hp := (h.linked_iff d p sess hsess).mp hset
      constructor
      · exact .inl
      · rintro (hq | ⟨rfl, rfl⟩)
        · exact hq
        · exact hp
    · rw [Function.update_apply]
      split_ifs with hd
      · subst hd
        simp
      · simp [hd]
  refine ⟨?_, ?_, ?_⟩
  · intro d' q sess₁ hsess₁
    rw [hheap, Function.update_apply] at hsess₁
    rw [hqueue, hmem]
    split_ifs at hsess₁ with hq
    · obtain rfl := Option.some.inj hsess₁
      subst hq
      rw [hlinked, Function.update_apply]
      split_ifs with hd
      · simp [hd]
      · simpa [hd] using h.linked_iff d' q sess hsess
    · simpa [hq] using h.linked_iff d' q sess₁ hsess₁
  · intro d'
    rw [hqueue, linkedQueue]
    split_ifs with hset
    · exact h.once d'
    · rw [Function.update_apply]
      split_ifs with hd
      · subst hd
        have hp : p ∉ c.pool.queue d' := fun hp =>
          hset ((h.linked_iff d' p sess hsess).mpr hp)
        rw [← List.concat_eq_append]
        exact (h.once d').concat hp
      · exact h.once d'
  · intro d' q hq
    rw [hqueue, hmem] at hq
    rw [Core.InTable, htable]
    rcases hq with hq | ⟨-, rfl⟩
    · exact h.inTable d' q hq
    · exact hin

/-- A session is taken from a queue and its bit cleared. -/
lemma LinkedExactly.unlink (h : LinkedExactly c) (hsess : c.heap p = some sess)
    (hheap : c'.heap = Function.update c.heap p (some sess'))
    (hlinked : sess'.linked = Function.update sess.linked d false)
    (hqueue : c'.pool.queue = unlinkedQueue c d p)
    (htable : c'.pool.htable = c.pool.htable) : LinkedExactly c' := by
  have hmem : ∀ d' q, q ∈ unlinkedQueue c d p d' ↔
      q ∈ c.pool.queue d' ∧ ¬ (d' = d ∧ q = p) := by
    intro d' q
    rw [unlinkedQueue, Function.update_apply]
    split_ifs with hd
    · subst hd
      rw [(h.once d').mem_erase_iff]
      tauto
    · simp [hd]
  refine ⟨?_, ?_, ?_⟩
  · intro d' q sess₁ hsess₁
    rw [hheap, Function.update_apply] at hsess₁
    rw [hqueue, hmem]
    split_ifs at hsess₁ with hq
    · obtain rfl := Option.some.inj hsess₁
      subst hq
      rw [hlinked, Function.update_apply]
      split_ifs with hd
      · simp [hd]
      · simpa [hd] using h.linked_iff d' q sess hsess
    · simpa [hq] using h.linked_iff d' q sess₁ hsess₁
  · intro d'
    rw [hqueue, unlinkedQueue, Function.update_apply]
    split_ifs
    · exact (h.once d).erase p
    · exact h.once d'
  · intro d' q hq
    rw [hqueue, hmem] at hq
    rw [Core.InTable, htable]
    exact h.inTable d' q hq.1

/-- A session that is not in `queue_b2f` is deleted. -/
lemma LinkedExactly.delete {queueF2b : List SessPtr} (h : LinkedExactly c)
    (hsess : c.heap p = some sess) (hout : p ∉ c.pool.queue .b2f)
    (hheap : c'.heap = Function.update c.heap p none)
    (hqueueF2b : queueF2b = if sess.linked .f2b then (c.pool.queue .f2b).erase p
      else c.pool.queue .f2b)
    (hqueue : c'.pool.queue = Function.update c.pool.queue .f2b queueF2b)
    (htable : c'.pool.htable = c.pool.htable.eraseP fun e => e.2 = p) : LinkedExactly c' := by
  -- the session leaves the queue that its bit names, and it was in no other
  have hmem : ∀ d q, q ∈ c'.pool.queue d ↔ q ∈ c.pool.queue d ∧ q ≠ p := by
    intro d q
    rw [hqueue]
    cases d with
    | f2b =>
        rw [Function.update_self, hqueueF2b]
        split_ifs with hset
        · rw [(h.once .f2b).mem_erase_iff]
          exact and_comm
        · have hp : p ∉ c.pool.queue .f2b := fun hp => hset ((h.linked_iff _ p sess hsess).mpr hp)
          exact ⟨fun hq => ⟨hq, fun heq => hp (heq ▸ hq)⟩, And.left⟩
    | b2f =>
        rw [Function.update_of_ne (by decide)]
        exact ⟨fun hq => ⟨hq, fun heq => hout (heq ▸ hq)⟩, And.left⟩
  refine ⟨?_, ?_, ?_⟩
  · intro d q sess₁ hsess₁
    rw [hheap, Function.update_apply] at hsess₁
    split_ifs at hsess₁ with hq
    rw [hmem]
    simpa [hq] using h.linked_iff d q sess₁ hsess₁
  · intro d
    rw [hqueue]
    cases d with
    | f2b =>
        rw [Function.update_self, hqueueF2b]
        split_ifs
        · exact (h.once .f2b).erase p
        · exact h.once .f2b
    | b2f =>
        rw [Function.update_of_ne (by decide)]
        exact h.once .b2f
  · intro d q hq
    rw [hmem] at hq
    obtain ⟨e, he, rfl⟩ := h.inTable d q hq.1
    refine ⟨e, ?_, rfl⟩
    rw [htable]
    exact (List.mem_eraseP_of_neg (by simpa using hq.2)).mpr he

/-! ### Steps and runs -/

/-- The bytes that `frontend_sess_send` accepts are none without data or memory. -/
lemma fragment_none {data : List UInt8} {alloc : ℕ → Bool} (h : data = [] ∨ alloc 0 = false) :
    fragment alloc 0 data.length data = [] := by
  cases data with
  | nil => rfl
  | cons b bs =>
      have halloc : alloc 0 = false := h.resolve_left (List.cons_ne_nil b bs)
      rw [List.length_cons, fragment, if_neg (by simp [halloc])]

/-- **An effect keeps bits and queues together**, if it avoids the four places. -/
lemma effect_linked (h : Effect s l c') (hgood : BitsKept s l) (htable : TableOk s.core)
    (hi : LinkedExactly s.core) : LinkedExactly c' := by
  -- one case for each effect; what links, unlinks or deletes a session has its own lemma
  cases h with
  | same => exact hi
  | new linked =>
      refine ⟨?_, hi.once, hi.inTable⟩
      intro d q sess hsess
      have hsess' := hsess
      rw [frontendSessNew, Core.setSess] at hsess'
      simp only [Function.update_apply] at hsess'
      split_ifs at hsess' with hq
      · obtain rfl := Option.some.inj hsess'
        have hout : q ∉ s.core.pool.queue d := by
          intro hmem
          obtain ⟨e, he, rfl⟩ := hi.inTable d q hmem
          obtain ⟨sess₁, hsess₁, -⟩ := htable.alive e he
          exact absurd hq (Nat.ne_of_lt (htable.lt hsess₁))
        exact ⟨fun hset => absurd hset (by simp [hgood d]), fun hmem => absurd hmem hout⟩
      · exact hi.linked_iff d q sess hsess'
  | idLost _ => exact ⟨hi.linked_iff, hi.once, hi.inTable⟩
  | connectFailed hsess _ _ _ => exact hi.keep hsess rfl rfl rfl fun _ hq => hq
  | connected hsess _ _ _ =>
      refine hi.keep hsess rfl rfl rfl ?_
      rintro q ⟨e, he, rfl⟩
      exact ⟨e, List.mem_append_left _ he, rfl⟩
  | response _ _ hsess => exact hi.keep hsess rfl rfl rfl fun _ hq => hq
  | dropped => exact ⟨hi.linked_iff, hi.once, hi.inTable⟩
  | stored hsearch hsess _ => exact hi.link hsess (inTable_of_search hsearch) rfl rfl rfl rfl
  | refused => exact ⟨hi.linked_iff, hi.once, hi.inTable⟩
  | sent hsess _ hsegs hfragment =>
      rcases hgood with hin | hnone
      · exact hi.link hsess hin rfl rfl rfl rfl
      · rw [hfragment, fragment_none hnone] at hsegs
        exact absurd rfl hsegs
  | received hsess _ _ => exact hi.keep hsess rfl rfl rfl fun _ hq => hq
  | @deleted _ p _ _ hl hsess _ hqueue =>
      have hout : p ∉ s.core.pool.queue .b2f := by
        rcases hl with rfl | ⟨rfl, hctrl⟩
        · exact hgood
        · exact hgood p hctrl
      exact hi.delete hsess hout rfl hqueue rfl rfl
  | b2fEmptied hsess _ => exact hi.unlink hsess rfl rfl rfl rfl
  | f2bDone hsess _ _ => exact hi.unlink hsess rfl rfl rfl rfl
  | f2bAgain hsess _ _ => exact hi.keep hsess rfl rfl rfl fun _ hq => hq
  | f2bFailed _ _ hloop =>
      obtain ⟨j, hj⟩ := (dataProcessF2bLoop_spec hloop).2.2.2 rfl
      exact absurd hj (hgood j)

/-- **Bits and queues agree.** In every run that avoids the four places, connects no
session of the table again and deletes only sessions of the table, for both directions: a
linked bit is set exactly when the session is in the active queue, the session is there
once, and every session in an active queue is in the hash table. -/
theorem linked_exactly (ls : List Label) (s : State)
    (hrun : Runs (Guarded LinkSafe (OfFun step)) initState ls s) : LinkedExactly s.core := by
  have hinv : TableOk s.core ∧ LinkedExactly s.core := by
    refine hrun.invariant (fun s => TableOk s.core ∧ LinkedExactly s.core) ?_ ⟨tableOk_init, ?_⟩
    · rintro s l s' ⟨htable, hlinked⟩ ⟨hgood, hstep⟩
      exact ⟨effect_tableOk (step_effect hstep) htable,
        effect_linked (step_effect hstep) hgood.bitsKept htable hlinked⟩
    · exact ⟨by simp [initState], fun _ => List.nodup_nil, by simp [initState, initPool]⟩
  exact hinv.2

/-- A check for `BitsKept` on labels other than `f2bSend`. -/
def bitsKeptCheck (s : State) : Label → Bool
  | .sessNew linked => !linked .f2b && !linked .b2f
  | .sessSend p data alloc => s.core.InTable p ∨ data = [] ∨ alloc 0 = false
  | .deleteSess p => p ∉ s.core.pool.queue .b2f
  | .callbackReturn =>
      match s.ctrl with
      | .rxCallback (some p) => p ∉ s.core.pool.queue .b2f
      | _ => true
  | .f2bSend _ => false
  | _ => true

lemma bitsKept_of_check (s : State) (l : Label) (h : bitsKeptCheck s l = true) :
    BitsKept s l := by
  cases l with
  | sessNew linked =>
      intro d
      simp only [bitsKeptCheck, Bool.and_eq_true, Bool.not_eq_true'] at h
      cases d with
      | f2b => exact h.1
      | b2f => exact h.2
  | sessSend p data alloc => simpa [bitsKeptCheck, BitsKept] using h
  | deleteSess p => simpa [bitsKeptCheck, BitsKept] using h
  | callbackReturn =>
      intro p hctrl
      simp only [bitsKeptCheck, hctrl] at h
      exact of_decide_eq_true h
  | f2bSend ans => cases h
  | sessConnect => trivial
  | sessRecv => trivial
  | sessClose => trivial
  | runOnce => trivial
  | rxMsg => trivial
  | rxAgain => trivial
  | rxError => trivial

/-- A check for `LinkSafe` on labels other than `f2bSend`. -/
def linkSafeCheck (s : State) (l : Label) : Bool := bitsKeptCheck s l && decide (TableCalls s l)

lemma linkSafe_of_check (s : State) (l : Label) (h : linkSafeCheck s l = true) :
    LinkSafe s l := by
  obtain ⟨hbits, hcalls⟩ := Bool.and_eq_true_iff.mp h
  exact ⟨bitsKept_of_check s l hbits, of_decide_eq_true hcalls⟩

/-- A session is created and sends three bytes in its callback. -/
def sendRun : List Label :=
  [.sessNew fun _ => false, .sessConnect 0 tcpPara .ok, .runOnce,
    .rxMsg (createResponseMsg 1 0) true, .sessSend 0 [1, 2, 3] fun _ => true]

/-- Bits and queues agree when a session was created and sends. -/
theorem linked_exactly_send :
    ∃ s, Runs (Guarded LinkSafe (OfFun step)) initState sendRun s ∧
      s.core.pool.queue .f2b = [0] ∧ LinkedExactly s.core := by
  have heval : (runFun linkSafeCheck step initState sendRun).map
      (fun s => s.core.pool.queue .f2b) = some [0] := by
    decide +kernel
  obtain ⟨s, hs, hqueue⟩ := Option.map_eq_some_iff.mp heval
  have hrun := runs_of_runFun LinkSafe linkSafe_of_check hs
  exact ⟨s, hrun, hqueue, linked_exactly _ s hrun⟩

/-- The DATA message of the backend for an id below 256 and a short payload. -/
def dataMsg (id : UInt8) (payload : List UInt8) : Mem :=
  store (fun _ => 0) 0 ([1, 3, id, 0, 9, 0, UInt8.ofNat payload.length, 0] ++ payload)

/-- The CLOSE command of the backend for an id below 256. -/
def closeMsg (id : UInt8) : Mem :=
  store (fun _ => 0) 0 [1, 2, id, 0, 9, 0, 10, 0, 1, 0, 0, 0, 0, 0, 4, 0, 0, 0]

/-- The backend sends data to a session and closes it in the same round. -/
def dataCloseRun : List Label :=
  createRun 0 ++ [.rxMsg (dataMsg 1 [7]) true, .rxMsg (closeMsg 1) true, .callbackReturn]

/-- The closed session is freed, but stays in `queue_b2f`. -/
theorem closed_session_stays_queued :
    ∃ s, Runs (OfFun step) initState dataCloseRun s ∧ s.core.pool.queue .b2f = [0] ∧
      (s.core.heap 0).isNone ∧ ¬ LinkedExactly s.core := by
  have heval : (runFun (fun _ _ => true) step initState dataCloseRun).map
      (fun s => (s.core.pool.queue .b2f, (s.core.heap 0).isNone, s.core.pool.htable)) =
        some ([0], true, []) := by
    decide +kernel
  obtain ⟨s, hs, hstate⟩ := Option.map_eq_some_iff.mp heval
  simp only [Prod.mk.injEq] at hstate
  obtain ⟨hqueue, hfreed, htable⟩ := hstate
  refine ⟨s, runs_of_eval hs, hqueue, hfreed, ?_⟩
  intro h
  obtain ⟨e, he, -⟩ := h.inTable .b2f 0 (by simp [hqueue])
  rw [htable] at he
  cases he

end Frontend
