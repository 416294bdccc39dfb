import Sel4Test.Frontend.Linked

/-!
The byte streams of a session.

In both directions a session is a queue of bytes: those that entered it are those
that left it, followed by those that are pending. From the frontend to the backend
bytes enter by `frontend_sess_send` and leave in DATA messages; from the backend to the
frontend they enter with DATA messages and leave by `frontend_sess_recv`. The streams
of a session start when `create_sess_step1` initialises it.

* `streamOf`: the bytes of the events of a session, since its start.
* `Conserved`, `streamInv_of_run`: the streams in every state.
* `send_stream`: DATA messages carry the accepted bytes, in order and without loss.
* `recv_stream`: `frontend_sess_recv` returns the stored bytes, in order and without
  loss, and as many as it can.
-/

namespace Frontend

open ByteMem Hyperamp Exec

variable {c c' : Core} {s s' : State} {p q : SessPtr} {l : Label} {sess sess' : FrontendSession}
  {d : Dir} {log events : List Event} {bytes : Event → List UInt8}

/-! ### Streams in the history -/

/-- The session of an event. -/
def Event.owner : Event → SessPtr
  | .started p => p
  | .createSent p _ => p
  | .createResp p _ _ => p
  | .accepted p _ => p
  | .placed p _ => p
  | .arrived p _ _ => p
  | .returned p _ => p

/-- The bytes that an event puts in a session. -/
def Event.entering : Dir → Event → List UInt8
  | .f2b, .accepted _ bytes => bytes
  | .b2f, .arrived _ payload true => payload
  | _, _ => []

/-- The bytes that an event takes out of a session. -/
def Event.leaving : Dir → Event → List UInt8
  | .f2b, .placed _ block => dataPayload block
  | .b2f, .returned _ bytes => bytes
  | _, _ => []

/-- The bytes of the events of a session since its start, in their order. -/
def streamOf (bytes : Event → List UInt8) (p : SessPtr) : List Event → List UInt8
  | [] => []
  | e :: log =>
      if e = .started p then []
      else if e.owner = p then streamOf bytes p log ++ bytes e
      else streamOf bytes p log

/-- The bytes that entered a session. -/
def entered (d : Dir) (p : SessPtr) (log : List Event) : List UInt8 :=
  streamOf (Event.entering d) p log

/-- The bytes that left a session. -/
def left (d : Dir) (p : SessPtr) (log : List Event) : List UInt8 :=
  streamOf (Event.leaving d) p log

/-- Events of other sessions do not matter. -/
lemma streamOf_other (h : ∀ e ∈ events, e.owner ≠ p) :
    streamOf bytes p (events ++ log) = streamOf bytes p log := by
  induction events with
  | nil => rfl
  | cons e events ih =>
      have hne : e.owner ≠ p := h e List.mem_cons_self
      have hstart : e ≠ .started p := fun heq => hne (heq ▸ rfl)
      rw [List.cons_append, streamOf, if_neg hstart, if_neg hne]
      exact ih fun e' he' => h e' (List.mem_cons_of_mem _ he')

/-- The events of the session itself append their bytes. -/
lemma streamOf_own (h : ∀ e ∈ events, e.owner = p ∧ e ≠ .started p) :
    streamOf bytes p (events ++ log) = streamOf bytes p log ++ events.reverse.flatMap bytes := by
  induction events with
  | nil => simp
  | cons e events ih =>
      obtain ⟨howner, hstart⟩ := h e List.mem_cons_self
      rw [List.cons_append, streamOf, if_neg hstart, if_pos howner,
        ih fun e' he' => h e' (List.mem_cons_of_mem _ he'), List.reverse_cons,
        List.flatMap_append, List.append_assoc]
      simp

/-- An event without bytes does not matter, unless it starts the session. -/
lemma streamOf_silent {e : Event} (hstart : e ≠ .started p) (hbytes : bytes e = []) :
    streamOf bytes p (e :: log) = streamOf bytes p log := by
  rw [streamOf, if_neg hstart]
  split_ifs
  · rw [hbytes, List.append_nil]
  · rfl

/-! ### Conservation -/

/-- What left a session and what is pending in it is what entered it. -/
def Conserved (c : Core) : Prop :=
  ∀ d p sess segs, c.heap p = some sess → sess.msg d = some segs →
    left d p c.log ++ segBytes segs = entered d p c.log

/-- A session is written, with events of its own that account for the change of its
queues. -/
lemma Conserved.rewrite (h : Conserved c) (hsess : c.heap p = some sess)
    (hheap : c'.heap = Function.update c.heap p (some sess')) (hlog : c'.log = events ++ c.log)
    (hown : ∀ e ∈ events, e.owner = p ∧ e ≠ .started p)
    (hmsg : ∀ d segs', sess'.msg d = some segs' → ∃ segs, sess.msg d = some segs ∧
      events.reverse.flatMap (Event.leaving d) ++ segBytes segs' =
        segBytes segs ++ events.reverse.flatMap (Event.entering d)) : Conserved c' := by
  intro d q sess₁ segs₁ hsess₁ hsegs₁
  rw [hheap, Function.update_apply] at hsess₁
  rw [hlog, left, entered]
  split_ifs at hsess₁ with hq
  · obtain rfl := Option.some.inj hsess₁
    subst hq
    obtain ⟨segs, hsegs, hbytes⟩ := hmsg d segs₁ hsegs₁
    rw [streamOf_own hown, streamOf_own hown]
    calc streamOf (Event.leaving d) q c.log ++ events.reverse.flatMap (Event.leaving d) ++
          segBytes segs₁
        = streamOf (Event.leaving d) q c.log ++ (segBytes segs ++
            events.reverse.flatMap (Event.entering d)) := by rw [List.append_assoc, hbytes]
      _ = (left d q c.log ++ segBytes segs) ++ events.reverse.flatMap (Event.entering d) := by
            rw [left, List.append_assoc]
      _ = streamOf (Event.entering d) q c.log ++ events.reverse.flatMap (Event.entering d) := by
            rw [h d q sess segs hsess hsegs, entered]
  · have hother : ∀ e ∈ events, e.owner ≠ q := fun e he heq =>
      hq (heq.symm.trans (hown e he).1)
    rw [streamOf_other hother, streamOf_other hother]
    exact h d q sess₁ segs₁ hsess₁ hsegs₁

/-- One queue of a session changes, and the events have bytes for its direction
only. -/
lemma msg_change {segs segs' : List SessMsgSeg} (hmsg : sess.msg d = some segs)
    (hmsg' : sess'.msg = Function.update sess.msg d (some segs'))
    (hsilent : ∀ d', d' ≠ d → ∀ e ∈ events, e.leaving d' = [] ∧ e.entering d' = [])
    (hbytes : events.reverse.flatMap (Event.leaving d) ++ segBytes segs' =
      segBytes segs ++ events.reverse.flatMap (Event.entering d)) :
    ∀ d' segs₁', sess'.msg d' = some segs₁' → ∃ segs₁, sess.msg d' = some segs₁ ∧
      events.reverse.flatMap (Event.leaving d') ++ segBytes segs₁' =
        segBytes segs₁ ++ events.reverse.flatMap (Event.entering d') := by
  intro d' segs₁' h
  rw [hmsg', Function.update_apply] at h
  split_ifs at h with hd
  · obtain rfl := Option.some.inj h
    subst hd
    exact ⟨segs, hmsg, hbytes⟩
  · have hleaving : events.reverse.flatMap (Event.leaving d') = [] :=
      List.flatMap_eq_nil_iff.mpr fun e he => (hsilent d' hd e (List.mem_reverse.mp he)).1
    have hentering : events.reverse.flatMap (Event.entering d') = [] :=
      List.flatMap_eq_nil_iff.mpr fun e he => (hsilent d' hd e (List.mem_reverse.mp he)).2
    refine ⟨segs₁', h, ?_⟩
    rw [hleaving, hentering, List.nil_append, List.append_nil]

/-- A session starts with empty streams. -/
lemma Conserved.start (events : List Event) (h : Conserved c)
    (hheap : c'.heap = Function.update c.heap p (some sess'))
    (hmsg : sess'.msg = fun _ => some []) (hlog : c'.log = events ++ .started p :: c.log)
    (hown : ∀ e ∈ events, e.owner = p ∧ e ≠ .started p)
    (hsilent : ∀ d, ∀ e ∈ events, e.leaving d = [] ∧ e.entering d = []) : Conserved c' := by
  intro d q sess₁ segs₁ hsess₁ hsegs₁
  rw [hheap, Function.update_apply] at hsess₁
  rw [hlog, left, entered]
  split_ifs at hsess₁ with hq
  · obtain rfl := Option.some.inj hsess₁
    subst hq
    obtain rfl : [] = segs₁ := by simpa [hmsg] using hsegs₁
    have hempty (bytes : Event → List UInt8) :
        streamOf bytes q (.started q :: c.log) = [] := by rw [streamOf, if_pos rfl]
    rw [streamOf_own hown, streamOf_own hown, hempty, hempty, segBytes_nil, List.append_nil,
      List.nil_append, List.nil_append,
      List.flatMap_eq_nil_iff.mpr fun e he => (hsilent d e (List.mem_reverse.mp he)).1,
      List.flatMap_eq_nil_iff.mpr fun e he => (hsilent d e (List.mem_reverse.mp he)).2]
  · have hother : ∀ e ∈ events ++ [.started p], e.owner ≠ q := by
      intro e he heq
      rcases List.mem_append.mp he with he | he
      · exact hq (heq.symm.trans (hown e he).1)
      · rw [List.mem_singleton.mp he] at heq
        exact hq heq.symm
    rw [List.append_cons, streamOf_other hother, streamOf_other hother]
    exact h d q sess₁ segs₁ hsess₁ hsegs₁

/-- An event without bytes that starts no session. -/
lemma Conserved.record {e : Event} (h : Conserved c) (hstart : ∀ p, e ≠ .started p)
    (hsilent : ∀ d, e.leaving d = [] ∧ e.entering d = []) : Conserved (c.record e) := by
  intro d p sess segs hsess hsegs
  have hlog : (c.record e).log = e :: c.log := rfl
  rw [hlog, left, entered, streamOf_silent (hstart p) (hsilent d).1,
    streamOf_silent (hstart p) (hsilent d).2]
  exact h d p sess segs hsess hsegs

lemma placedEvents_own {blocks : List (List UInt8)} :
    ∀ e ∈ placedEvents p blocks, e.owner = p ∧ e ≠ .started p := by
  intro e he
  obtain ⟨block, -, rfl⟩ := List.mem_map.mp (List.mem_reverse.mp he)
  exact ⟨rfl, by simp⟩

/-- The blocks that the sending loop puts in the ring account for the segments that
it removes. -/
lemma placed_change {ans : ℕ → HyperampRet} {segs rest : List SessMsgSeg} {ret : ProcessRet}
    {blocks : List (List UInt8)}
    (hmsg : sess.msg .f2b = some segs)
    (hmsg' : sess'.msg = Function.update sess.msg .f2b (some rest))
    (hloop : dataProcessF2bLoop (dataMsgHeader sess) ans 0 segs = some (ret, rest, blocks)) :
    ∀ d' segs₁', sess'.msg d' = some segs₁' → ∃ segs₁, sess.msg d' = some segs₁ ∧
      (placedEvents p blocks).reverse.flatMap (Event.leaving d') ++ segBytes segs₁' =
        segBytes segs₁ ++ (placedEvents p blocks).reverse.flatMap (Event.entering d') := by
  refine msg_change hmsg hmsg' ?_ ?_
  · intro d' hd e he
    obtain ⟨block, -, rfl⟩ := List.mem_map.mp (List.mem_reverse.mp he)
    cases d' with
    | f2b => exact absurd rfl hd
    | b2f => exact ⟨rfl, rfl⟩
  · have hentering : (placedEvents p blocks).reverse.flatMap (Event.entering .f2b) = [] := by
      refine List.flatMap_eq_nil_iff.mpr fun e he => ?_
      obtain ⟨block, -, rfl⟩ := List.mem_map.mp
        (List.mem_reverse.mp (List.mem_reverse.mp he))
      rfl
    have hleaving : (placedEvents p blocks).reverse.flatMap (Event.leaving .f2b) =
        blocks.flatMap dataPayload := by
      rw [placedEvents, List.reverse_reverse, List.flatMap_map]
      rfl
    rw [hentering, hleaving, List.append_nil, (dataProcessF2bLoop_spec hloop).1]

/-- **An effect conserves the streams.** -/
lemma effect_conserved (h : Effect s l c') (hi : Conserved s.core) : Conserved c' := by
  -- one case for each effect; what moves bytes logs them, and a rewrite that does not keeps the
  -- streams
  cases h with
  | same => exact hi
  | new linked =>
      intro d q sess segs hsess hsegs
      rw [frontendSessNew, Core.setSess] at hsess
      simp only [Function.update_apply] at hsess
      split_ifs at hsess
      · obtain rfl := Option.some.inj hsess
        cases hsegs
      · exact hi d q sess segs hsess hsegs
  | idLost _ => exact hi
  | connectFailed _ _ _ hst =>
      rcases hst with ⟨rfl, rfl⟩ | ⟨rfl, rfl⟩
      · exact hi.start [] rfl rfl rfl (by simp) (by simp)
      · refine hi.start [_] rfl rfl rfl (by simp [Event.owner]) ?_
        intro d e he
        rw [List.mem_singleton.mp he]
        cases d <;> exact ⟨rfl, rfl⟩
  | connected _ _ _ _ =>
      refine hi.start [_] rfl rfl rfl (by simp [Event.owner]) ?_
      intro d e he
      rw [List.mem_singleton.mp he]
      cases d <;> exact ⟨rfl, rfl⟩
  | response _ _ hsess =>
      refine hi.rewrite hsess rfl rfl (by simp [Event.owner]) ?_
      intro d segs hsegs
      refine ⟨segs, hsegs, ?_⟩
      cases d <;> simp [Event.leaving, Event.entering]
  | dropped => exact hi.record (by simp) (fun d => by cases d <;> exact ⟨rfl, rfl⟩)
  | stored _ hsess hmsg =>
      refine hi.rewrite hsess rfl rfl (by simp [Event.owner]) (msg_change hmsg rfl ?_ ?_)
      · intro d' hd e he
        rw [List.mem_singleton.mp he]
        cases d' with
        | f2b => exact ⟨rfl, rfl⟩
        | b2f => exact absurd rfl hd
      · simp [Event.leaving, Event.entering]
  | refused => exact hi.record (by simp) (fun d => by cases d <;> exact ⟨rfl, rfl⟩)
  | sent hsess hmsg _ _ =>
      refine hi.rewrite hsess rfl rfl (by simp [Event.owner]) (msg_change hmsg rfl ?_ ?_)
      · intro d' hd e he
        rw [List.mem_singleton.mp he]
        cases d' with
        | f2b => exact absurd rfl hd
        | b2f => exact ⟨rfl, rfl⟩
      · simp [Event.leaving, Event.entering]
  | @received p size _ queued hsess _ hmsg =>
      refine hi.rewrite hsess rfl rfl (by simp [Event.owner]) (msg_change hmsg rfl ?_ ?_)
      · intro d' hd e he
        rw [List.mem_singleton.mp he]
        cases d' with
        | f2b => exact ⟨rfl, rfl⟩
        | b2f => exact absurd rfl hd
      · obtain ⟨htake, hdrop⟩ := recvLoop_spec queued size
        simp [Event.leaving, Event.entering, htake, hdrop]
  | deleted _ _ _ _ =>
      intro d q sess segs hsess hsegs
      simp only [Function.update_apply] at hsess
      split_ifs at hsess
      exact hi d q sess segs hsess hsegs
  | b2fEmptied hsess _ =>
      refine hi.rewrite hsess rfl rfl (by simp) ?_
      intro d segs hsegs
      exact ⟨segs, hsegs, by simp⟩
  | f2bDone hsess hmsg hloop =>
      exact hi.rewrite hsess rfl rfl placedEvents_own (placed_change hmsg rfl hloop)
  | f2bAgain hsess hmsg hloop =>
      exact hi.rewrite hsess rfl rfl placedEvents_own (placed_change hmsg rfl hloop)
  | f2bFailed hsess hmsg hloop =>
      exact hi.rewrite hsess rfl rfl placedEvents_own (placed_change hmsg rfl hloop)

/-! ### Initialised sessions and blocks -/

/-- A session that was started has its queues, and a session of the table was
started. -/
structure Initialised (c : Core) : Prop where
  msg : ∀ p sess, c.heap p = some sess → sess.sessState ≠ none → ∀ d, sess.msg d ≠ none
  started : ∀ p sess, c.heap p = some sess → c.InTable p → sess.sessState ≠ none

/-- A session is written that has its queues. -/
lemma Initialised.rewrite (h : Initialised c)
    (hheap : c'.heap = Function.update c.heap p (some sess'))
    (hstate : sess'.sessState ≠ none) (hmsg : ∀ d, sess'.msg d ≠ none)
    (htable : ∀ q, q ≠ p → c'.InTable q → c.InTable q) : Initialised c' := by
  refine ⟨?_, ?_⟩
  · intro q sess₁ hsess₁ hstate₁
    rw [hheap, Function.update_apply] at hsess₁
    split_ifs at hsess₁ with hq
    · obtain rfl := Option.some.inj hsess₁
      exact hmsg
    · exact h.msg q sess₁ hsess₁ hstate₁
  · intro q sess₁ hsess₁ hin
    rw [hheap, Function.update_apply] at hsess₁
    split_ifs at hsess₁ with hq
    · obtain rfl := Option.some.inj hsess₁
      exact hstate
    · exact h.started q sess₁ hsess₁ (htable q hq hin)

/-- A session is written and keeps its state, and no queue is lost. -/
lemma Initialised.keep (h : Initialised c) (hsess : c.heap p = some sess)
    (hheap : c'.heap = Function.update c.heap p (some sess'))
    (hstate : sess'.sessState = sess.sessState)
    (hmsg : ∀ d, sess.msg d ≠ none → sess'.msg d ≠ none)
    (htable : c'.pool.htable = c.pool.htable) : Initialised c' := by
  refine ⟨?_, ?_⟩
  · intro q sess₁ hsess₁ hstate₁ d
    rw [hheap, Function.update_apply] at hsess₁
    split_ifs at hsess₁ with hq
    · obtain rfl := Option.some.inj hsess₁
      rw [hstate] at hstate₁
      exact hmsg d (h.msg p sess hsess hstate₁ d)
    · exact h.msg q sess₁ hsess₁ hstate₁ d
  · intro q sess₁ hsess₁ hin
    rw [Core.InTable, htable] at hin
    rw [hheap, Function.update_apply] at hsess₁
    split_ifs at hsess₁ with hq
    · obtain rfl := Option.some.inj hsess₁
      rw [hstate]
      exact h.started p sess hsess (hq ▸ hin)
    · exact h.started q sess₁ hsess₁ hin

lemma setMsg_ne_none {segs : List SessMsgSeg} {d' : Dir} (h : sess.msg d' ≠ none) :
    (sess.setMsg d segs).msg d' ≠ none := by
  rw [FrontendSession.setMsg]
  simp only [Function.update_apply]
  split_ifs
  · simp
  · exact h

/-- An effect keeps sessions initialised. -/
lemma effect_initialised (h : Effect s l c') (htable : TableOk s.core)
    (hi : Initialised s.core) : Initialised c' := by
  -- one case for each effect; only a creation starts a session, and it sets both messages
  cases h with
  | same => exact hi
  | new linked =>
      refine ⟨?_, ?_⟩
      · intro q sess hsess hstate
        rw [frontendSessNew, Core.setSess] at hsess
        simp only [Function.update_apply] at hsess
        split_ifs at hsess
        · obtain rfl := Option.some.inj hsess
          exact absurd rfl hstate
        · exact hi.msg q sess hsess hstate
      · rintro q sess hsess ⟨e, he, rfl⟩
        obtain ⟨sess₁, hsess₁, -⟩ := htable.alive e he
        rw [frontendSessNew, Core.setSess] at hsess
        simp only [Function.update_of_ne (Nat.ne_of_lt (htable.lt hsess₁))] at hsess
        exact hi.started e.2 sess hsess ⟨e, he, rfl⟩
  | idLost _ => exact ⟨hi.msg, hi.started⟩
  | connectFailed _ _ _ _ => exact hi.rewrite rfl (by simp) (by simp [initSess]) fun _ _ hin => hin
  | connected _ _ _ _ =>
      refine hi.rewrite rfl (by simp) (by simp [initSess]) ?_
      rintro q hq ⟨e, he, rfl⟩
      rcases List.mem_append.mp he with he | he
      · exact ⟨e, he, rfl⟩
      · exact absurd (congrArg Prod.snd (List.mem_singleton.mp he)) hq
  | response _ hsearch hsess =>
      have hmsg := hi.msg _ _ hsess (hi.started _ _ hsess (inTable_of_search hsearch))
      exact hi.rewrite rfl (by simp) hmsg fun _ _ hin => hin
  | dropped => exact ⟨hi.msg, hi.started⟩
  | stored _ hsess _ => exact hi.keep hsess rfl rfl (fun _ => setMsg_ne_none) rfl
  | refused => exact ⟨hi.msg, hi.started⟩
  | sent hsess _ _ _ => exact hi.keep hsess rfl rfl (fun _ => setMsg_ne_none) rfl
  | received hsess _ _ => exact hi.keep hsess rfl rfl (fun _ => setMsg_ne_none) rfl
  | deleted _ hsess hin _ =>
      obtain ⟨l₁, l₂, hsplit, herase, hother⟩ := table_split htable hin hsess
      refine ⟨?_, ?_⟩
      · intro q sess₁ hsess₁ hstate
        simp only [Function.update_apply] at hsess₁
        split_ifs at hsess₁
        exact hi.msg q sess₁ hsess₁ hstate
      · rintro q sess₁ hsess₁ ⟨e, he, rfl⟩
        simp only [Function.update_apply] at hsess₁
        split_ifs at hsess₁
        exact hi.started e.2 sess₁ hsess₁ ⟨e, List.mem_of_mem_eraseP he, rfl⟩
  | b2fEmptied hsess _ => exact hi.keep hsess rfl rfl (fun _ hmsg => hmsg) rfl
  | f2bDone hsess _ _ => exact hi.keep hsess rfl rfl (fun _ => setMsg_ne_none) rfl
  | f2bAgain hsess _ _ => exact hi.keep hsess rfl rfl (fun _ => setMsg_ne_none) rfl
  | f2bFailed hsess _ _ => exact hi.keep hsess rfl rfl (fun _ => setMsg_ne_none) rfl

/-- The blocks in the ring are blocks of the queue. -/
def BlocksFit (c : Core) : Prop := ∀ p block, .placed p block ∈ c.log → block.length ≤ msgBufSize

lemma BlocksFit.extend (events : List Event) (h : BlocksFit c) (hlog : c'.log = events ++ c.log)
    (hevents : ∀ p block, .placed p block ∈ events → block.length ≤ msgBufSize) :
    BlocksFit c' := by
  intro p block hmem
  rw [hlog] at hmem
  rcases List.mem_append.mp hmem with hmem | hmem
  · exact hevents p block hmem
  · exact h p block hmem

/-- The blocks of the sending loop fit. -/
lemma placedEvents_fit {ans : ℕ → HyperampRet} {segs rest : List SessMsgSeg} {ret : ProcessRet}
    {blocks : List (List UInt8)}
    (hloop : dataProcessF2bLoop (dataMsgHeader sess) ans 0 segs = some (ret, rest, blocks)) :
    ∀ q block, .placed q block ∈ placedEvents p blocks → block.length ≤ msgBufSize := by
  intro q block hmem
  obtain ⟨block', hblock', heq⟩ := List.mem_map.mp (List.mem_reverse.mp hmem)
  obtain rfl := (Event.placed.inj heq).2
  exact (dataProcessF2bLoop_spec hloop).2.1 block' hblock'

lemma effect_blocksFit (h : Effect s l c') (hi : BlocksFit s.core) : BlocksFit c' := by
  cases h with
  | same => exact hi
  | new => exact hi
  | idLost => exact hi
  | connectFailed _ _ _ hst =>
      rcases hst with ⟨rfl, rfl⟩ | ⟨rfl, rfl⟩
      · exact hi.extend _ rfl (by simp)
      · exact hi.extend _ rfl (by simp)
  | connected => exact hi.extend _ rfl (by simp)
  | response => exact hi.extend _ rfl (by simp)
  | dropped => exact hi.extend [_] rfl (by simp)
  | stored => exact hi.extend _ rfl (by simp)
  | refused => exact hi.extend [_] rfl (by simp)
  | sent => exact hi.extend _ rfl (by simp)
  | received => exact hi.extend _ rfl (by simp)
  | deleted => exact hi
  | b2fEmptied => exact hi.extend _ rfl (by simp)
  | f2bDone _ _ hloop => exact hi.extend _ rfl (placedEvents_fit hloop)
  | f2bAgain _ _ hloop => exact hi.extend _ rfl (placedEvents_fit hloop)
  | f2bFailed _ _ hloop => exact hi.extend _ rfl (placedEvents_fit hloop)

/-! ### The streams of a run -/

/-- The invariants of the streams. -/
structure StreamInv (c : Core) : Prop where
  table : TableOk c
  initialised : Initialised c
  conserved : Conserved c
  fit : BlocksFit c

lemma streamInv_of_run {ls : List Label} (h : Runs (OfFun step) initState ls s) :
    StreamInv s.core := by
  refine h.invariant (fun s => StreamInv s.core) ?_ ⟨tableOk_init, ?_, ?_, ?_⟩
  · intro s l s' hi hstep
    have heffect := step_effect hstep
    exact ⟨effect_tableOk heffect hi.table, effect_initialised heffect hi.table hi.initialised,
      effect_conserved heffect hi.conserved, effect_blocksFit heffect hi.fit⟩
  · exact ⟨by simp [initState], by simp [initState]⟩
  · intro d p sess segs hsess
    cases hsess
  · intro p block hmem
    cases hmem

/-- **The stream to the backend.** In every run and for every session that was started,
hence every connected one: the payloads of its DATA messages in the TX ring, in order,
followed by the bytes in its send queue, are the bytes that its `frontend_sess_send`
calls accepted, in order. They are a prefix of these, and all of these once the send
queue is empty. Every DATA message fits a block. -/
theorem send_stream (ls : List Label) (s : State) (hrun : Runs (OfFun step) initState ls s)
    (p : SessPtr) (sess : FrontendSession) (hsess : s.core.heap p = some sess)
    (hstate : sess.sessState ≠ none) :
    ∃ segs, sess.msg .f2b = some segs ∧
      left .f2b p s.core.log ++ segBytes segs = entered .f2b p s.core.log ∧
      left .f2b p s.core.log <+: entered .f2b p s.core.log ∧
      (segs = [] → left .f2b p s.core.log = entered .f2b p s.core.log) ∧
      ∀ block, .placed p block ∈ s.core.log → block.length ≤ msgBufSize := by
  have hinv := streamInv_of_run hrun
  obtain ⟨segs, hmsg⟩ := Option.ne_none_iff_exists'.mp
    (hinv.initialised.msg p sess hsess hstate .f2b)
  have hbytes := hinv.conserved .f2b p sess segs hsess hmsg
  refine ⟨segs, hmsg, hbytes, ⟨_, hbytes⟩, ?_, hinv.fit p⟩
  rintro rfl
  rwa [segBytes_nil, List.append_nil] at hbytes

/-- A connected session sends three bytes; the ring is full in the first round and
takes them in the second. -/
def againRun : List Label :=
  createRun 0 ++ [.rxAgain, .sessSend 0 [1, 2, 3] fun _ => true, .runOnce, .rxAgain,
    .f2bSend fun _ => .again, .runOnce, .rxAgain, .f2bSend fun _ => .ok]

/-- After both rounds the stream to the backend is complete. -/
theorem send_stream_again :
    ∃ s sess, Runs (OfFun step) initState againRun s ∧ s.core.heap 0 = some sess ∧
      sess.sessState = some .connected ∧
      left .f2b 0 s.core.log = [1, 2, 3] ∧
      left .f2b 0 s.core.log = entered .f2b 0 s.core.log := by
  have heval : (runFun (fun _ _ => true) step initState againRun).map
      (fun s => ((s.core.heap 0).map fun sess => (sess.sessState, sess.msg .f2b),
        left .f2b 0 s.core.log)) =
        some (some (some .connected, some []), [1, 2, 3]) := by
    decide +kernel
  obtain ⟨s, hs, hstate⟩ := Option.map_eq_some_iff.mp heval
  obtain ⟨hheap, hleft⟩ := Prod.mk.inj hstate
  obtain ⟨sess, hsess, hfields⟩ := Option.map_eq_some_iff.mp hheap
  obtain ⟨hconn, hmsg⟩ := Prod.mk.inj hfields
  obtain ⟨segs, hsegs, -, -, hwhole, -⟩ := send_stream _ s (runs_of_eval hs) 0 sess hsess
    (by simp [hconn])
  obtain rfl : [] = segs := Option.some.inj (hmsg.symm.trans hsegs)
  exact ⟨s, sess, runs_of_eval hs, hsess, hconn, hleft, hwhole rfl⟩

/-- **The stream from the backend.** In every run and for every session that was
started: the bytes that its `frontend_sess_recv` calls returned, followed by those in its
receive queue, are the payloads of the DATA messages that were stored for it, in order.
They are a prefix of these, and all of these once the receive queue is empty. A further
call with a buffer of `size` bytes returns the first `size` pending bytes, or all of them
if there are fewer. -/
theorem recv_stream (ls : List Label) (s : State) (hrun : Runs (OfFun step) initState ls s)
    (p : SessPtr) (sess : FrontendSession) (hsess : s.core.heap p = some sess)
    (hstate : sess.sessState ≠ none) :
    ∃ segs, sess.msg .b2f = some segs ∧
      left .b2f p s.core.log ++ segBytes segs = entered .b2f p s.core.log ∧
      left .b2f p s.core.log <+: entered .b2f p s.core.log ∧
      (segs = [] → left .b2f p s.core.log = entered .b2f p s.core.log) ∧
      ∀ size, 0 < size → ∃ bytes c', bytes = (segBytes segs).take size ∧
        frontendSessRecv size p s.core =
          some (((min size (segBytes segs).length : ℕ) : ℤ), bytes, c') ∧
        c'.log = .returned p bytes :: s.core.log := by
  have hinv := streamInv_of_run hrun
  obtain ⟨segs, hmsg⟩ := Option.ne_none_iff_exists'.mp
    (hinv.initialised.msg p sess hsess hstate .b2f)
  have hbytes := hinv.conserved .b2f p sess segs hsess hmsg
  refine ⟨segs, hmsg, hbytes, ⟨_, hbytes⟩, ?_, ?_⟩
  · rintro rfl
    rwa [segBytes_nil, List.append_nil] at hbytes
  · intro size hsize
    have htake := (recvLoop_spec segs size).1
    refine ⟨_, ((s.core.setSess p (sess.setMsg .b2f (recvLoop segs size).2)).record
      (.returned p ((segBytes segs).take size))), rfl, ?_, rfl⟩
    rw [frontendSessRecv, if_neg hsize.ne', hsess]
    simp only [Option.bind_eq_bind, Option.bind_some, hmsg, htake, List.length_take]
    rfl

/-- The backend sends three messages to a connected session, and the application reads
up to ten bytes; `alloc` says whether there is memory for the second message. -/
def recvRun (alloc : Bool) : List Label :=
  createRun 0 ++ [.rxMsg (dataMsg 1 [1]) true, .rxMsg (dataMsg 1 [2]) alloc,
    .rxMsg (dataMsg 1 [3]) true, .rxAgain, .sessRecv 0 10]

/-- With memory for all messages the stream from the backend is complete. -/
theorem recv_stream_complete :
    ∃ s sess, Runs (OfFun step) initState (recvRun true) s ∧ s.core.heap 0 = some sess ∧
      left .b2f 0 s.core.log = [1, 2, 3] ∧
      left .b2f 0 s.core.log = entered .b2f 0 s.core.log := by
  have heval : (runFun (fun _ _ => true) step initState (recvRun true)).map
      (fun s => ((s.core.heap 0).map fun sess => (sess.sessState, sess.msg .b2f),
        left .b2f 0 s.core.log)) =
        some (some (some .connected, some []), [1, 2, 3]) := by
    decide +kernel
  obtain ⟨s, hs, hstate⟩ := Option.map_eq_some_iff.mp heval
  obtain ⟨hheap, hleft⟩ := Prod.mk.inj hstate
  obtain ⟨sess, hsess, hfields⟩ := Option.map_eq_some_iff.mp hheap
  obtain ⟨hconn, hmsg⟩ := Prod.mk.inj hfields
  obtain ⟨segs, hsegs, -, -, hwhole, -⟩ := recv_stream _ s (runs_of_eval hs) 0 sess hsess
    (by simp [hconn])
  obtain rfl : [] = segs := Option.some.inj (hmsg.symm.trans hsegs)
  exact ⟨s, sess, runs_of_eval hs, hsess, hleft, hwhole rfl⟩

/-- The payloads of all DATA messages for a session, stored or not. -/
def Event.received : Event → List UInt8
  | .arrived _ payload _ => payload
  | _ => []

/-- A message without memory is missing from what the application reads. -/
theorem dropped_message_missing :
    ∃ s, Runs (OfFun step) initState (recvRun false) s ∧
      streamOf Event.received 0 s.core.log = [1, 2, 3] ∧ left .b2f 0 s.core.log = [1, 3] ∧
      ¬ left .b2f 0 s.core.log <+: streamOf Event.received 0 s.core.log := by
  have heval : (runFun (fun _ _ => true) step initState (recvRun false)).map
      (fun s => (streamOf Event.received 0 s.core.log, left .b2f 0 s.core.log)) =
        some ([1, 2, 3], [1, 3]) := by
    decide +kernel
  obtain ⟨s, hs, hstate⟩ := Option.map_eq_some_iff.mp heval
  obtain ⟨hreceived, hleft⟩ := Prod.mk.inj hstate
  refine ⟨s, runs_of_eval hs, hreceived, hleft, ?_⟩
  rw [hreceived, hleft]
  decide

end Frontend
