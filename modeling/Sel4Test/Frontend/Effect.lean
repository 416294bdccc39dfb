import Sel4Test.Frontend.Engine
import Sel4Test.Frontend.RoundTrip

/-!
What a step of the frontend engine does to the sessions.

* `dataMessage_cases`: a DATA message is put in the ring, or refused as the ring
  says.
* `dataProcessF2bLoop_spec`: what the sending loop leaves and what it sends.
* `Effect`, `step_effect`: the sessions after a step, by the operation of the pool
  that the step calls. Invariants are proved by cases on it and never look at
  `step` again.
-/

namespace Frontend

open ByteMem Hyperamp

variable {c c' : Core} {p : SessPtr} {sess : FrontendSession}

/-! ### Messages of a session -/

/-- The payload of a DATA message. -/
def dataPayload (block : List UInt8) : List UInt8 := block.drop proxyMsgHdrSize

/-- What the DATA builder leaves in the buffer. -/
def dataBuf (header : GeneralProxyMsgHeader) (data : List UInt8) : Mem :=
  writeU16 (store (outerBuf header.outerHeader) proxyMsgHdrSize data) 6
    (UInt16.ofNat data.length)

lemma fillMessage_data {header : GeneralProxyMsgHeader} {data : List UInt8}
    (htype : ProxyMsgType.ofCode? header.outerHeader.proxyMsgType = some .data) :
    fillMessage header (some data) =
      if proxyMsgHdrSize + data.length ≤ msgBufSize then
        some (.ok, load (dataBuf header data) 0 (data.length + proxyMsgHdrSize))
      else none := by
  split_ifs with hfits
  · have hcopy (m : Mem) : copyToBuf m proxyMsgHdrSize (payloadBytes (some data)) =
        some (store m proxyMsgHdrSize data) := if_pos hfits
    simp only [fillMessage, innerSize, htype, buildInner, buildProxyDataMessage, hcopy]
    rfl
  · have hcopy (m : Mem) : copyToBuf m proxyMsgHdrSize (payloadBytes (some data)) = none :=
      if_neg hfits
    simp only [fillMessage, innerSize, htype, buildInner, buildProxyDataMessage, hcopy]
    rfl

/-- A DATA message is built and enqueued as it is, or not at all. -/
lemma dataMessage_cases {a : HyperampRet} {len : ℕ} {data : List UInt8} {ret : ProcessRet}
    {out : Option (List UInt8)}
    (h : buildProxyGeneralMessage (fun _ => a) (dataMsgHeader sess len) (some data) =
      some (ret, out)) :
    (ret = .ok ∧ ∃ block, out = some block ∧ dataPayload block = data ∧
        block.length ≤ msgBufSize) ∨
      (ret = .again ∧ a = .again) ∨ (ret = .error ∧ a = .error) := by
  have htype : ProxyMsgType.ofCode? (dataMsgHeader sess len).outerHeader.proxyMsgType =
      some .data := rfl
  rw [buildProxyGeneralMessage, fillMessage_data htype] at h
  split_ifs at h with hfits
  cases a with
  | ok =>
      simp only [Option.some.injEq, Prod.mk.injEq] at h
      obtain ⟨rfl, rfl⟩ := h
      refine .inl ⟨rfl, _, rfl, ?_, ?_⟩
      · rw [dataPayload, drop_load, Nat.add_sub_cancel, Nat.zero_add, dataBuf,
          load_writeU16_disjoint (by rw [proxyMsgHdrSize]; omega), load_store_same]
      · rw [length_load]
        omega
  | again =>
      simp only [Option.some.injEq, Prod.mk.injEq] at h
      exact .inr (.inl ⟨h.1.symm, rfl⟩)
  | error =>
      simp only [Option.some.injEq, Prod.mk.injEq] at h
      exact .inr (.inr ⟨h.1.symm, rfl⟩)

@[simp]
lemma segBytes_nil : segBytes [] = [] := rfl

@[simp]
lemma segBytes_cons (seg : SessMsgSeg) (segs : List SessMsgSeg) :
    segBytes (seg :: segs) = seg.data ++ segBytes segs := rfl

@[simp]
lemma segBytes_append (xs ys : List SessMsgSeg) :
    segBytes (xs ++ ys) = segBytes xs ++ segBytes ys := by
  rw [segBytes, List.flatMap_append]
  rfl

/-- **The sending loop** sends a part of the queue from its front, in blocks, and
keeps the rest. It keeps nothing when it is done, and an error is one of the
ring. -/
lemma dataProcessF2bLoop_spec {ans : ℕ → HyperampRet} {i : ℕ} {segs rest : List SessMsgSeg}
    {ret : ProcessRet} {blocks : List (List UInt8)}
    (h : dataProcessF2bLoop (dataMsgHeader sess) ans i segs = some (ret, rest, blocks)) :
    segBytes segs = blocks.flatMap dataPayload ++ segBytes rest ∧
      (∀ block ∈ blocks, block.length ≤ msgBufSize) ∧ (ret = .ok → rest = []) ∧
      (ret = .error → ∃ j, ans j = .error) := by
  induction segs generalizing i rest blocks with
  | nil =>
      simp only [dataProcessF2bLoop, Option.some.injEq, Prod.mk.injEq] at h
      obtain ⟨rfl, rfl, rfl⟩ := h
      simp
  | cons seg segs ih =>
      rw [dataProcessF2bLoop] at h
      obtain ⟨⟨ret', out⟩, hbuild, h⟩ := Option.bind_eq_some_iff.mp h
      rcases dataMessage_cases hbuild with ⟨rfl, block, rfl, hpayload, hlen⟩ | ⟨rfl, -⟩ | ⟨rfl, ha⟩
      · obtain ⟨⟨ret'', rest', blocks'⟩, hloop, h⟩ := Option.bind_eq_some_iff.mp h
        simp only [pure, Option.some.injEq, Prod.mk.injEq] at h
        obtain ⟨rfl, rfl, rfl⟩ := h
        obtain ⟨hbytes, hblocks, hok, herror⟩ := ih hloop
        refine ⟨?_, ?_, hok, herror⟩
        · rw [segBytes_cons, List.flatMap_cons, hpayload, hbytes, List.append_assoc]
        · exact List.forall_mem_cons.mpr ⟨hlen, hblocks⟩
      · simp only [pure, Option.some.injEq, Prod.mk.injEq] at h
        obtain ⟨rfl, rfl, rfl⟩ := h
        simp
      · simp only [pure, Option.some.injEq, Prod.mk.injEq] at h
        obtain ⟨rfl, rfl, rfl⟩ := h
        exact ⟨rfl, by simp, by simp, fun _ => ⟨i, ha⟩⟩

/-! ### The send and receive loops -/

/-- The segments of `frontend_sess_send` are a part of the data from its front. -/
lemma fragment_spec (alloc : ℕ → Bool) (i rounds : ℕ) (data : List UInt8) :
    segBytes (fragment alloc i rounds data) <+: data := by
  induction rounds generalizing i data with
  | zero => simp [fragment]
  | succ rounds ih =>
      cases data with
      | nil => simp [fragment]
      | cons b bs =>
          rw [fragment]
          split_ifs
          · rw [segBytes_cons]
            calc (b :: bs).take maxPayloadPerSeg ++
                  segBytes (fragment alloc (i + 1) rounds ((b :: bs).drop maxPayloadPerSeg))
                <+: (b :: bs).take maxPayloadPerSeg ++ (b :: bs).drop maxPayloadPerSeg :=
                  List.prefix_append_right_inj _ |>.mpr (ih _ _)
              _ = b :: bs := List.take_append_drop _ _
          · simp

/-- No segment is empty. -/
lemma fragment_eq_nil {alloc : ℕ → Bool} {i rounds : ℕ} {data : List UInt8}
    (h : segBytes (fragment alloc i rounds data) = []) : fragment alloc i rounds data = [] := by
  cases rounds with
  | zero => rfl
  | succ rounds =>
      cases data with
      | nil => rfl
      | cons b bs =>
          rw [fragment] at h ⊢
          split_ifs at h ⊢
          · simp [maxPayloadPerSeg, msgBufSize, proxyMsgHdrSize] at h
          · rfl

/-- The receive loop cuts the queued bytes in two, after `n` bytes or at the end. -/
lemma recvLoop_spec (segs : List SessMsgSeg) (n : ℕ) :
    (recvLoop segs n).1 = (segBytes segs).take n ∧
      segBytes (recvLoop segs n).2 = (segBytes segs).drop n := by
  induction segs generalizing n with
  | nil => cases n <;> simp [recvLoop]
  | cons seg segs ih =>
      cases n with
      | zero => simp [recvLoop]
      | succ n =>
          rw [recvLoop]
          split_ifs with hfits
          · obtain ⟨htake, hdrop⟩ := ih (n + 1 - seg.data.length)
            simp only [segBytes_cons, List.take_append, List.drop_append,
              List.take_of_length_le hfits, List.drop_of_length_le hfits, htake, hdrop,
              List.nil_append, and_self]
          · have hshort : n + 1 - seg.data.length = 0 := by omega
            simp [List.take_append, List.drop_append, hshort]

/-! ### Effects -/

/-- The id and the status of a CREATE response that the processor accepts. -/
def createResponse? (buf : Mem) : Option (UInt16 × UInt8) :=
  let outer := ProxyMsgHeader.read buf 0
  let hdr := sessHdrOf buf
  if ProxyMsgType.ofCode? outer.proxyMsgType = some .sess ∧ sessMsgAccepted hdr = true ∧
      hdr.msgType = sessMsgCreate ∧ hdr.actionType = actionTypeResponse then
    some (outer.frontendSessId, respStatus buf)
  else none

/-- One session, the active queues and the history are replaced. -/
def Core.put (c : Core) (p : SessPtr) (sess : FrontendSession) (queue : Dir → List SessPtr)
    (events : List Event) : Core :=
  { c with
    heap := Function.update c.heap p (some sess)
    pool := { c.pool with queue := queue }
    log := events ++ c.log }

/-- A message queue of the session is replaced. -/
def FrontendSession.setMsg (sess : FrontendSession) (d : Dir) (segs : List SessMsgSeg) :
    FrontendSession :=
  { sess with msg := Function.update sess.msg d (some segs) }

/-- A linked bit of the session is replaced. -/
def FrontendSession.setLinked (sess : FrontendSession) (d : Dir) (linked : Bool) :
    FrontendSession :=
  { sess with linked := Function.update sess.linked d linked }

/-- The active queues after a session was linked. -/
def linkedQueue (c : Core) (d : Dir) (p : SessPtr) (sess : FrontendSession) :
    Dir → List SessPtr :=
  if sess.linked d then c.pool.queue else Function.update c.pool.queue d (c.pool.queue d ++ [p])

/-- The active queues after a session was removed from one. -/
def unlinkedQueue (c : Core) (d : Dir) (p : SessPtr) : Dir → List SessPtr :=
  Function.update c.pool.queue d ((c.pool.queue d).erase p)

/-- The blocks of a session go to the ring. -/
def placedEvents (p : SessPtr) (blocks : List (List UInt8)) : List Event :=
  (blocks.map (Event.placed p)).reverse

/-- **What a step can do** to the sessions, label by label. -/
inductive Effect (s : State) : Label → Core → Prop
  | same (l : Label) : Effect s l s.core
  | new (linked : Dir → Bool) : Effect s (.sessNew linked) (frontendSessNew linked s.core)
  /-- An id `0` was in the queue. -/
  | idLost {p para ans rest} (hid : s.core.pool.idQueue = 0 :: rest) :
      Effect s (.sessConnect p para ans)
        { s.core with pool := { s.core.pool with idQueue := rest } }
  /-- The CREATE command is not sent, or the session cannot be inserted. The id goes
  back to the queue. -/
  | connectFailed {p para ans sess id rest st events} (hsess : s.core.heap p = some sess)
      (htable : ¬ s.core.InTable p) (hid : s.core.pool.idQueue = id :: rest)
      (hst : st = .initial ∧ events = [.started p] ∨
        st = .connecting ∧ events = [.createSent p id, .started p]) :
      Effect s (.sessConnect p para ans)
        { s.core.put p { initSess sess id para with sessState := some st } s.core.pool.queue
            events with
          pool := { s.core.pool with idQueue := rest ++ [id] } }
  | connected {p para ans sess id rest} (hsess : s.core.heap p = some sess)
      (htable : ¬ s.core.InTable p) (hid : s.core.pool.idQueue = id :: rest)
      (hfree : searchSess s.core.pool id = none) :
      Effect s (.sessConnect p para ans)
        { s.core.put p { initSess sess id para with sessState := some .connecting }
            s.core.pool.queue [.createSent p id, .started p] with
          pool := { s.core.pool with
            idQueue := rest
            htable := s.core.pool.htable ++ [(id, p)]
            sessNum := s.core.pool.sessNum + 1 } }
  | response {buf alloc p sess id bid status} (hresp : createResponse? buf = some (id, status))
      (hsearch : searchSess s.core.pool id = some p) (hsess : s.core.heap p = some sess) :
      Effect s (.rxMsg buf alloc)
        { s.core.put p { sess with backendSessId := bid, sessState := some .connected }
            s.core.pool.queue [.createResp p sess.frontendSessId status] with
          pool := { s.core.pool with
            idQueue := if status ≠ 0 then s.core.pool.idQueue ++ [sess.frontendSessId]
              else s.core.pool.idQueue } }
  | dropped {buf alloc p payload} :
      Effect s (.rxMsg buf alloc) (s.core.record (.arrived p payload false))
  | stored {buf alloc id p sess queued payload} (hsearch : searchSess s.core.pool id = some p)
      (hsess : s.core.heap p = some sess) (hmsg : sess.msg .b2f = some queued) :
      Effect s (.rxMsg buf alloc)
        (s.core.put p ((sess.setMsg .b2f (queued ++ [⟨payload, 0⟩])).setLinked .b2f true)
          (linkedQueue s.core .b2f p sess) [.arrived p payload true])
  /-- No byte is accepted. -/
  | refused {p data alloc} : Effect s (.sessSend p data alloc) (s.core.record (.accepted p []))
  | sent {p data alloc sess queued segs} (hsess : s.core.heap p = some sess)
      (hmsg : sess.msg .f2b = some queued) (hsegs : segBytes segs ≠ [])
      (hfragment : segs = fragment alloc 0 data.length data) :
      Effect s (.sessSend p data alloc)
        (s.core.put p ((sess.setMsg .f2b (queued ++ segs)).setLinked .f2b true)
          (linkedQueue s.core .f2b p sess) [.accepted p (segBytes segs)])
  | received {p size sess queued} (hsess : s.core.heap p = some sess) (hsize : 0 < size)
      (hmsg : sess.msg .b2f = some queued) :
      Effect s (.sessRecv p size)
        (s.core.put p (sess.setMsg .b2f (recvLoop queued size).2) s.core.pool.queue
          [.returned p (recvLoop queued size).1])
  /-- The application or a CLOSE message deletes a session. -/
  | deleted {l p sess queueF2b}
      (hl : l = .deleteSess p ∨ l = .callbackReturn ∧ s.ctrl = .rxCallback (some p))
      (hsess : s.core.heap p = some sess) (htable : s.core.InTable p)
      (hqueue : queueF2b = if sess.linked .f2b then (s.core.pool.queue .f2b).erase p
        else s.core.pool.queue .f2b) :
      Effect s l
        { s.core with
          heap := Function.update s.core.heap p none
          pool :=
            { sessNum := s.core.pool.sessNum - 1
              idQueue := s.core.pool.idQueue ++ [sess.frontendSessId]
              queue := Function.update s.core.pool.queue .f2b queueF2b
              htable := s.core.pool.htable.eraseP fun e => e.2 = p } }
  | b2fEmptied {p : SessPtr} {sess : FrontendSession} (hsess : s.core.heap p = some sess)
      (hmsg : sess.msg .b2f = some []) :
      Effect s .callbackReturn
        (s.core.put p (sess.setLinked .b2f false) (unlinkedQueue s.core .b2f p) [])
  | f2bDone {p sess ans segs rest blocks} (hsess : s.core.heap p = some sess)
      (hmsg : sess.msg .f2b = some segs)
      (hloop : dataProcessF2bLoop (dataMsgHeader sess) ans 0 segs = some (.ok, rest, blocks)) :
      Effect s (.f2bSend ans)
        (s.core.put p ((sess.setMsg .f2b rest).setLinked .f2b false)
          (unlinkedQueue s.core .f2b p) (placedEvents p blocks))
  | f2bAgain {p sess ans segs rest blocks} (hsess : s.core.heap p = some sess)
      (hmsg : sess.msg .f2b = some segs)
      (hloop : dataProcessF2bLoop (dataMsgHeader sess) ans 0 segs =
        some (.again, rest, blocks)) :
      Effect s (.f2bSend ans)
        (s.core.put p (sess.setMsg .f2b rest) s.core.pool.queue (placedEvents p blocks))
  | f2bFailed {p sess ans segs rest blocks} (hsess : s.core.heap p = some sess)
      (hmsg : sess.msg .f2b = some segs)
      (hloop : dataProcessF2bLoop (dataMsgHeader sess) ans 0 segs =
        some (.error, rest, blocks)) :
      Effect s (.f2bSend ans)
        (s.core.put p (sess.setMsg .f2b rest) (unlinkedQueue s.core .f2b p)
          (placedEvents p blocks))

section Operations

variable {s : State}

/-- Linking a session writes it, with its bit set. -/
lemma linkToQueue_eq (d : Dir) (p : SessPtr) (sess : FrontendSession) (c : Core) :
    linkToQueue d p sess c = c.put p (sess.setLinked d true) (linkedQueue c d p sess) [] := by
  rw [linkToQueue, linkedQueue]
  split_ifs with hlinked
  · have hsame : sess.setLinked d true = sess := by
      rw [FrontendSession.setLinked, ← hlinked, Function.update_eq_self]
    rw [hsame]
    rfl
  · rfl

lemma tailqRemove_some {q q' : List SessPtr} (h : tailqRemove q p = some q') :
    q' = q.erase p := by
  rw [tailqRemove] at h
  split_ifs at h
  exact (Option.some.inj h).symm

lemma createSessStep1_effect {para : SessMsgPara} {ans : HyperampRet} {ret : ProcessRet}
    (h : createSessStep1 para ans p s.core = some (ret, c')) :
    Effect s (.sessConnect p para ans) c' := by
  obtain ⟨sess, hsess, h⟩ := Option.bind_eq_some_iff.mp h
  cases hid : s.core.pool.idQueue with
  | nil =>
      have hsame : { s.core with pool := { s.core.pool with idQueue := [] } } = s.core := by
        rw [← hid]
      simp only [hid, allocateId, if_pos, pure, Option.some.injEq, Prod.mk.injEq, hsame] at h
      obtain ⟨-, rfl⟩ := h
      exact .same _
  | cons id rest =>
      simp only [hid, allocateId] at h
      split_ifs at h with hzero htable
      · simp only [pure, Option.some.injEq, Prod.mk.injEq] at h
        obtain ⟨-, rfl⟩ := h
        exact .idLost (hzero ▸ hid)
      · -- the session is not in the table: the id is its own from here on
        obtain ⟨⟨ret', out⟩, -, h⟩ := Option.bind_eq_some_iff.mp h
        cases ret' with
        | ok =>
            simp only [insertSess, searchSess, Core.record, Core.setSess] at h
            cases hfree : searchSess s.core.pool id with
            | none =>
                simp only [searchSess] at hfree
                simp only [hfree, pure, Option.some.injEq, Prod.mk.injEq] at h
                obtain ⟨-, rfl⟩ := h
                exact .connected hsess htable hid hfree
            | some q =>
                simp only [searchSess] at hfree
                simp only [hfree, pure, Option.some.injEq, Prod.mk.injEq] at h
                obtain ⟨-, rfl⟩ := h
                exact .connectFailed hsess htable hid (.inr ⟨rfl, rfl⟩)
        | error =>
            simp only [pure, Option.some.injEq, Prod.mk.injEq] at h
            obtain ⟨-, rfl⟩ := h
            exact .connectFailed hsess htable hid (.inl ⟨rfl, rfl⟩)
        | again =>
            simp only [pure, Option.some.injEq, Prod.mk.injEq] at h
            obtain ⟨-, rfl⟩ := h
            exact .connectFailed hsess htable hid (.inl ⟨rfl, rfl⟩)

lemma deleteSess_effect {l : Label}
    (hl : l = .deleteSess p ∨ l = .callbackReturn ∧ s.ctrl = .rxCallback (some p))
    (h : deleteSess p s.core = some c') : Effect s l c' := by
  obtain ⟨sess, hsess, h⟩ := Option.bind_eq_some_iff.mp h
  by_cases htable : s.core.InTable p
  · simp only [not_true, htable, if_false] at h
    obtain ⟨queueF2b, hqueue, h⟩ := Option.bind_eq_some_iff.mp h
    split_ifs at h with hfree
    simp only [pure, Option.some.injEq] at h
    obtain rfl := h
    refine .deleted hl hsess htable ?_
    rw [unlinkFromQueue] at hqueue
    split_ifs at hqueue ⊢ with hlinked
    · exact tailqRemove_some hqueue
    · exact (Option.some.inj hqueue).symm
  · simp [htable] at h

lemma frontendSessSend_effect {data : List UInt8} {alloc : ℕ → Bool} {ret : ℤ}
    (h : frontendSessSend data alloc p s.core = some (ret, c')) :
    Effect s (.sessSend p data alloc) c' := by
  rw [frontendSessSend] at h
  split_ifs at h with hdata
  · simp only [Option.some.injEq, Prod.mk.injEq] at h
    obtain ⟨-, rfl⟩ := h
    exact .same _
  · obtain ⟨sess, hsess, h⟩ := Option.bind_eq_some_iff.mp h
    obtain ⟨queued, hmsg, h⟩ := Option.bind_eq_some_iff.mp h
    simp only [pure, Option.some.injEq, Prod.mk.injEq] at h
    obtain ⟨-, rfl⟩ := h
    have htake : data.take (segBytes (fragment alloc 0 data.length data)).length =
        segBytes (fragment alloc 0 data.length data) :=
      (List.prefix_iff_eq_take.mp (fragment_spec alloc 0 data.length data)).symm
    rw [htake]
    split_ifs with htotal
    · rw [linkToQueue_eq]
      exact .sent hsess hmsg (List.length_pos_iff.mp htotal) rfl
    · have hnil : fragment alloc 0 data.length data = [] :=
        fragment_eq_nil (List.length_eq_zero_iff.mp (Nat.eq_zero_of_not_pos htotal))
      have hsame : Function.update sess.msg .f2b (some (queued ++ [])) = sess.msg := by
        rw [List.append_nil, ← hmsg, Function.update_eq_self]
      simp only [hnil, hsame, segBytes_nil, Core.setSess, Core.record, ← hsess,
        Function.update_eq_self]
      exact .refused

/-- The receive loop on a session. -/
lemma frontendSessRecv_effect {size : ℕ} {ret : ℤ} {bytes : List UInt8}
    (h : frontendSessRecv size p s.core = some (ret, bytes, c')) :
    Effect s (.sessRecv p size) c' := by
  rw [frontendSessRecv] at h
  split_ifs at h with hsize
  · simp only [Option.some.injEq, Prod.mk.injEq] at h
    obtain ⟨-, -, rfl⟩ := h
    exact .same _
  · obtain ⟨sess, hsess, h⟩ := Option.bind_eq_some_iff.mp h
    obtain ⟨queued, hmsg, h⟩ := Option.bind_eq_some_iff.mp h
    simp only [pure, Option.some.injEq, Prod.mk.injEq] at h
    obtain ⟨-, -, rfl⟩ := h
    exact .received hsess (Nat.pos_of_ne_zero hsize) hmsg

lemma dataMsgProcess_effect {id : UInt16} {len : ℕ} {buf : Mem} {alloc : Bool}
    {ret : ProcessRet} (h : dataMsgProcess id len buf alloc s.core = some (ret, c')) :
    Effect s (.rxMsg buf alloc) c' := by
  rw [dataMsgProcess] at h
  cases hsearch : searchSess s.core.pool id with
  | none =>
      simp only [hsearch, Option.some.injEq, Prod.mk.injEq] at h
      obtain ⟨-, rfl⟩ := h
      exact .same _
  | some p =>
      simp only [hsearch] at h
      split_ifs at h
      · simp only [Option.some.injEq, Prod.mk.injEq] at h
        obtain ⟨-, rfl⟩ := h
        exact .dropped
      · obtain ⟨sess, hsess, h⟩ := Option.bind_eq_some_iff.mp h
        obtain ⟨queued, hmsg, h⟩ := Option.bind_eq_some_iff.mp h
        simp only [pure, Option.some.injEq, Prod.mk.injEq, linkToQueue_eq] at h
        obtain ⟨-, rfl⟩ := h
        exact .stored hsearch hsess hmsg

lemma b2fDone_effect (h : b2fDone p s.core = some c') : Effect s .callbackReturn c' := by
  obtain ⟨sess, hsess, h⟩ := Option.bind_eq_some_iff.mp h
  obtain ⟨segs, hmsg, h⟩ := Option.bind_eq_some_iff.mp h
  split_ifs at h with hempty
  · obtain ⟨queue, hqueue, h⟩ := Option.bind_eq_some_iff.mp h
    obtain rfl := tailqRemove_some hqueue
    obtain rfl := Option.some.inj h
    rw [hempty] at hmsg
    exact .b2fEmptied hsess hmsg
  · obtain rfl := Option.some.inj h
    exact .same _

lemma f2bSend_effect {ans : ℕ → HyperampRet} {ret : ProcessRet}
    (h : f2bSend ans p s.core = some (ret, c')) : Effect s (.f2bSend ans) c' := by
  obtain ⟨⟨ret', sess', c₁⟩, hsend, h⟩ := Option.bind_eq_some_iff.mp h
  obtain ⟨sess, hsess, hsend⟩ := Option.bind_eq_some_iff.mp hsend
  obtain ⟨segs, hmsg, hsend⟩ := Option.bind_eq_some_iff.mp hsend
  obtain ⟨⟨ret'', rest, blocks⟩, hloop, hsend⟩ := Option.bind_eq_some_iff.mp hsend
  simp only [pure, Option.some.injEq, Prod.mk.injEq] at hsend
  obtain ⟨rfl, rfl, rfl⟩ := hsend
  cases ret'' with
  | ok =>
      obtain ⟨queue, hqueue, h⟩ := Option.bind_eq_some_iff.mp h
      obtain rfl := tailqRemove_some hqueue
      simp only [pure, Option.some.injEq, Prod.mk.injEq, setLinked, Core.setSess,
        Function.update_idem] at h
      obtain ⟨-, rfl⟩ := h
      exact .f2bDone hsess hmsg hloop
  | error =>
      obtain ⟨queue, hqueue, h⟩ := Option.bind_eq_some_iff.mp h
      obtain rfl := tailqRemove_some hqueue
      simp only [pure, Option.some.injEq, Prod.mk.injEq] at h
      obtain ⟨-, rfl⟩ := h
      exact .f2bFailed hsess hmsg hloop
  | again =>
      simp only [pure, Option.some.injEq, Prod.mk.injEq] at h
      obtain ⟨-, rfl⟩ := h
      exact .f2bAgain hsess hmsg hloop

/-- The CREATE response of a message reaches the session that has the id. -/
lemma sessMsgProcess_effect {buf : Mem} {alloc : Bool} {ctrl : Ctrl}
    (htype : ProxyMsgType.ofCode? (ProxyMsgHeader.read buf 0).proxyMsgType = some .sess)
    (h : sessMsgProcess (ProxyMsgHeader.read buf 0).frontendSessId
      (ProxyMsgHeader.read buf 0).backendSessId buf alloc s.core = some (c', ctrl)) :
    Effect s (.rxMsg buf alloc) c' := by
  simp only [sessMsgProcess] at h
  split_ifs at h with haccepted hcreate haction
  · simp only [Option.some.injEq, Prod.mk.injEq] at h
    obtain ⟨rfl, -⟩ := h
    exact .same _
  · rw [sessMsgProcessActiveCreate] at h
    have hresp : createResponse? buf =
        some ((ProxyMsgHeader.read buf 0).frontendSessId, respStatus buf) := by
      simp only [createResponse?]
      rw [if_pos ⟨htype, by simpa using haccepted, hcreate, haction⟩]
    split at h
    · simp only [Option.some.injEq, Prod.mk.injEq] at h
      obtain ⟨rfl, -⟩ := h
      exact .same _
    · rename_i p hsearch
      obtain ⟨c₁, hstep, h⟩ := Option.bind_eq_some_iff.mp h
      obtain ⟨sess, hsess, hstep⟩ := Option.bind_eq_some_iff.mp hstep
      obtain rfl := Option.some.inj hstep
      simp only [pure, Option.some.injEq, Prod.mk.injEq] at h
      obtain ⟨rfl, -⟩ := h
      exact .response hresp hsearch hsess
  · rw [sessMsgProcessPassiveCreate] at h
    split_ifs at h
    all_goals
      simp only [Option.some.injEq, Prod.mk.injEq] at h
      obtain ⟨rfl, -⟩ := h
      exact .same _
  · rw [sessMsgProcessClose] at h
    split at h
    all_goals
      simp only [Option.some.injEq, Prod.mk.injEq] at h
      obtain ⟨rfl, -⟩ := h
      exact .same _

lemma frontendProxyMsgProcess_effect {buf : Mem} {alloc : Bool} {ctrl : Ctrl}
    (h : frontendProxyMsgProcess buf alloc s.core = some (c', ctrl)) :
    Effect s (.rxMsg buf alloc) c' := by
  simp only [frontendProxyMsgProcess] at h
  split at h
  · exact sessMsgProcess_effect (by assumption) h
  · obtain ⟨⟨ret, c₁⟩, hdata, h⟩ := Option.bind_eq_some_iff.mp h
    simp only [pure, Option.some.injEq, Prod.mk.injEq] at h
    obtain ⟨rfl, -⟩ := h
    exact dataMsgProcess_effect hdata
  all_goals
    simp only [Option.some.injEq, Prod.mk.injEq] at h
    obtain ⟨rfl, -⟩ := h
    exact .same _

end Operations

/-! ### Steps -/

lemma enterF2b_core {next : Option SessPtr} {s' : State} (h : enterF2b c next = some s') :
    s'.core = c := by
  cases next with
  | none =>
      obtain rfl := Option.some.inj h
      rfl
  | some p =>
      obtain ⟨-, -, rfl⟩ := Option.map_eq_some_iff.mp h
      rfl

lemma enterB2f_core {next : Option SessPtr} {s' : State} (h : enterB2f c next = some s') :
    s'.core = c := by
  cases next with
  | none => exact enterF2b_core h
  | some p =>
      obtain ⟨-, -, rfl⟩ := Option.map_eq_some_iff.mp h
      rfl

lemma appCall_core {s s' : State} {core : Option Core} (h : appCall s core = some s') :
    core = some s'.core := by
  rw [appCall] at h
  split_ifs at h
  obtain ⟨c, hc, rfl⟩ := Option.map_eq_some_iff.mp h
  exact hc

/-- **A step changes the sessions by one effect.** -/
theorem step_effect {s s' : State} {l : Label} (h : step s l = some s') :
    Effect s l s'.core := by
  -- one case for each label: the function that it runs has an effect of its own
  cases l with
  | sessNew linked =>
      rw [← Option.some.inj (appCall_core h)]
      exact .new linked
  | sessConnect p para ans =>
      obtain ⟨⟨ret, c⟩, hc, rfl⟩ := Option.map_eq_some_iff.mp (appCall_core h)
      exact createSessStep1_effect hc
  | sessSend p data alloc =>
      obtain ⟨⟨ret, c⟩, hc, rfl⟩ := Option.map_eq_some_iff.mp (appCall_core h)
      exact frontendSessSend_effect hc
  | sessRecv p size =>
      obtain ⟨⟨ret, bytes, c⟩, hc, rfl⟩ := Option.map_eq_some_iff.mp (appCall_core h)
      exact frontendSessRecv_effect hc
  | sessClose p ans =>
      obtain ⟨ret, -, hc⟩ := Option.map_eq_some_iff.mp (appCall_core h)
      rw [← hc]
      exact .same _
  | deleteSess p => exact deleteSess_effect (.inl rfl) (appCall_core h)
  | runOnce =>
      simp only [step] at h
      split at h
      · obtain rfl := Option.some.inj h
        exact .same _
      · cases h
  | rxMsg buf alloc =>
      simp only [step] at h
      split at h
      · obtain ⟨⟨c, ctrl⟩, hc, rfl⟩ := Option.map_eq_some_iff.mp h
        exact frontendProxyMsgProcess_effect hc
      · cases h
  | rxAgain =>
      simp only [step] at h
      split at h
      · rw [enterB2f_core h]
        exact .same _
      · cases h
  | rxError =>
      simp only [step] at h
      split at h
      · obtain rfl := Option.some.inj h
        exact .same _
      · cases h
  | callbackReturn =>
      simp only [step] at h
      split at h
      · obtain rfl := Option.some.inj h
        exact .same _
      · rename_i p hctrl
        obtain ⟨c, hc, rfl⟩ := Option.map_eq_some_iff.mp h
        exact deleteSess_effect (.inr ⟨rfl, hctrl⟩) hc
      · obtain ⟨c, hc, h⟩ := Option.bind_eq_some_iff.mp h
        rw [enterB2f_core h]
        exact b2fDone_effect hc
      · rw [enterF2b_core h]
        exact .same _
      · cases h
  | f2bSend ans =>
      simp only [step] at h
      split at h
      · obtain ⟨⟨ret, c⟩, hc, h⟩ := Option.bind_eq_some_iff.mp h
        have hcore : s'.core = c := by
          split_ifs at h
          · obtain rfl := Option.some.inj h
            rfl
          · exact enterF2b_core h
        rw [hcore]
        exact f2bSend_effect hc
      · cases h

end Frontend
