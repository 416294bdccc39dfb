import Sel4Test.Frontend.Ids

/-!
The connection of a session.

A session is CONNECTING once its CREATE command was sent, and CONNECTED once the
backend has answered. `frontend_high_speed_create_sess_step2` does not look at the answer
when it sets the state: after a failure the session is CONNECTED too, stays in the
hash table, and its id is free for other sessions.

* `Acknowledged`: a success was received after the command was sent.
* `connect_safe`: without failure responses for sessions in the table, sessions are
  CONNECTED only with an acknowledgement.
* `failed_create_connects`: one failure response connects a session.
-/

namespace Frontend

open ByteMem Hyperamp Exec

variable {c c' : Core} {s s' : State} {p q : SessPtr} {l : Label} {sess sess' : FrontendSession}
  {id : UInt16} {log : List Event}

/-- A CREATE response with success for the id of the session was processed after its
CREATE command was sent. The history has the newest event first. -/
def Acknowledged (log : List Event) (p : SessPtr) (id : UInt16) : Prop :=
  ∃ l₁ l₂ l₃, log = l₁ ++ .createResp p id 0 :: (l₂ ++ .createSent p id :: l₃)

/-- Sessions are CONNECTED only with an acknowledgement, and a session for which a
failure was received is out of the hash table, with its id in one place. -/
structure ConnectSafe (c : Core) : Prop where
  connected : ∀ p sess, c.heap p = some sess → sess.sessState = some .connected →
    Acknowledged c.log p sess.frontendSessId
  failed : ∀ p id status, .createResp p id status ∈ c.log → status ≠ 0 →
    ¬ c.InTable p ∧ c.pool.idQueue.count id + (c.pool.htable.map Prod.fst).count id = 1

lemma Acknowledged.append (events : List Event) (h : Acknowledged log p id) :
    Acknowledged (events ++ log) p id := by
  obtain ⟨l₁, l₂, l₃, rfl⟩ := h
  exact ⟨events ++ l₁, l₂, l₃, by rw [List.append_assoc]⟩

lemma Acknowledged.of_sent (h : .createSent p id ∈ log) :
    Acknowledged (.createResp p id 0 :: log) p id := by
  obtain ⟨l₂, l₃, rfl⟩ := List.append_of_mem h
  exact ⟨[], l₂, l₃, rfl⟩

/-- The commands of the sessions in the table were sent, CONNECTED sessions are
acknowledged, and no failure was processed. -/
structure ConnectInv (c : Core) : Prop where
  sent : ∀ p sess, c.heap p = some sess → c.InTable p →
    .createSent p sess.frontendSessId ∈ c.log
  connected : ∀ p sess, c.heap p = some sess → sess.sessState = some .connected →
    Acknowledged c.log p sess.frontendSessId
  success : ∀ p id status, .createResp p id status ∈ c.log → status = 0

/-- A session is written and keeps its id and state. -/
lemma ConnectInv.keep (events : List Event) (h : ConnectInv c) (hsess : c.heap p = some sess)
    (hheap : c'.heap = Function.update c.heap p (some sess'))
    (hid : sess'.frontendSessId = sess.frontendSessId)
    (hstate : sess'.sessState = sess.sessState) (htable : c'.pool.htable = c.pool.htable)
    (hlog : c'.log = events ++ c.log)
    (hevents : ∀ p id status, .createResp p id status ∉ events) : ConnectInv c' := by
  have hmem : ∀ e ∈ c.log, e ∈ c'.log := fun e he => hlog ▸ List.mem_append_right _ he
  refine ⟨?_, ?_, ?_⟩
  · intro q sess₁ hsess₁ hin
    rw [Core.InTable, htable] at hin
    rw [hheap, Function.update_apply] at hsess₁
    split_ifs at hsess₁ with hq
    · obtain rfl := Option.some.inj hsess₁
      subst hq
      rw [hid]
      exact hmem _ (h.sent q sess hsess hin)
    · exact hmem _ (h.sent q sess₁ hsess₁ hin)
  · intro q sess₁ hsess₁ hconn
    rw [hheap, Function.update_apply] at hsess₁
    rw [hlog]
    split_ifs at hsess₁ with hq
    · obtain rfl := Option.some.inj hsess₁
      subst hq
      rw [hid]
      exact (h.connected q sess hsess (hstate ▸ hconn)).append _
    · exact (h.connected q sess₁ hsess₁ hconn).append _
  · intro q id status hresp
    rw [hlog] at hresp
    rcases List.mem_append.mp hresp with hresp | hresp
    · exact absurd hresp (hevents q id status)
    · exact h.success q id status hresp

/-- A session that is not connected yet is written; if it is in the table then, its
command was sent. -/
lemma ConnectInv.connecting (events : List Event) (h : ConnectInv c)
    (hheap : c'.heap = Function.update c.heap p (some sess'))
    (hstate : sess'.sessState ≠ some .connected)
    (hsent : c'.InTable p → .createSent p sess'.frontendSessId ∈ events)
    (htable : ∀ q, q ≠ p → c'.InTable q → c.InTable q) (hlog : c'.log = events ++ c.log)
    (hevents : ∀ p id status, .createResp p id status ∉ events) : ConnectInv c' := by
  refine ⟨?_, ?_, ?_⟩
  · intro q sess₁ hsess₁ hin
    rw [hheap, Function.update_apply] at hsess₁
    rw [hlog]
    split_ifs at hsess₁ with hq
    · obtain rfl := Option.some.inj hsess₁
      subst hq
      exact List.mem_append_left _ (hsent hin)
    · exact List.mem_append_right _ (h.sent q sess₁ hsess₁ (htable q hq hin))
  · intro q sess₁ hsess₁ hconn
    rw [hheap, Function.update_apply] at hsess₁
    rw [hlog]
    split_ifs at hsess₁ with hq
    · obtain rfl := Option.some.inj hsess₁
      exact absurd hconn hstate
    · exact (h.connected q sess₁ hsess₁ hconn).append _
  · intro q id status hresp
    rw [hlog] at hresp
    rcases List.mem_append.mp hresp with hresp | hresp
    · exact absurd hresp (hevents q id status)
    · exact h.success q id status hresp

/-- An event that is no response. -/
lemma ConnectInv.record {e : Event} (h : ConnectInv c)
    (he : ∀ p id status, e ≠ .createResp p id status) : ConnectInv (c.record e) := by
  refine ⟨?_, ?_, ?_⟩
  · intro p sess hsess hin
    exact List.mem_cons_of_mem _ (h.sent p sess hsess hin)
  · intro p sess hsess hconn
    exact (h.connected p sess hsess hconn).append [e]
  · intro p id status hresp
    rcases List.mem_cons.mp hresp with hresp | hresp
    · exact absurd hresp.symm (he p id status)
    · exact h.success p id status hresp

/-- **An effect keeps connections acknowledged**, unless it is a failure response. -/
lemma effect_connectInv (h : Effect s l c') (hgood : NoFailedCreate s l)
    (htable : TableOk s.core) (hi : ConnectInv s.core) : ConnectInv c' := by
  -- one case for each effect; only a connection and a response change what was sent or connected
  cases h with
  | same => exact hi
  | new linked =>
      refine hi.connecting [] rfl (by simp) ?_ (fun _ _ hin => hin) rfl (by simp)
      rintro ⟨e, he, hp⟩
      obtain ⟨sess, hsess, -⟩ := htable.alive e he
      exact absurd hp (Nat.ne_of_lt (htable.lt hsess))
  | idLost _ => exact ⟨hi.sent, hi.connected, hi.success⟩
  | connectFailed _ hout _ hst =>
      rcases hst with ⟨rfl, rfl⟩ | ⟨rfl, rfl⟩
      · exact hi.connecting _ rfl (by simp) (fun hin => absurd hin hout) (fun _ _ hin => hin)
          rfl (by simp)
      · exact hi.connecting _ rfl (by simp) (fun hin => absurd hin hout) (fun _ _ hin => hin)
          rfl (by simp)
  | connected _ _ _ _ =>
      refine hi.connecting _ rfl (by simp) (fun _ => by simp [initSess]) ?_ rfl (by simp)
      rintro q hq ⟨e, he, rfl⟩
      rcases List.mem_append.mp he with he | he
      · exact ⟨e, he, rfl⟩
      · exact absurd (congrArg Prod.snd (List.mem_singleton.mp he)) hq
  | @response _ _ p sess _ _ status hresp hsearch hsess =>
      have hin := inTable_of_search hsearch
      -- the run has no failed response for a session in the table
      have hzero : status = 0 := by
        rcases hgood _ hresp with hzero | hnone
        · exact hzero
        · rw [hnone] at hsearch
          cases hsearch
      subst hzero
      refine ⟨?_, ?_, ?_⟩
      · intro q sess₁ hsess₁ hin₁
        simp only [Core.put, Function.update_apply] at hsess₁
        refine List.mem_append_right _ ?_
        split_ifs at hsess₁ with hq
        · obtain rfl := Option.some.inj hsess₁
          subst hq
          exact hi.sent q sess hsess hin
        · exact hi.sent q sess₁ hsess₁ hin₁
      · intro q sess₁ hsess₁ hconn
        simp only [Core.put, Function.update_apply] at hsess₁
        split_ifs at hsess₁ with hq
        · obtain rfl := Option.some.inj hsess₁
          subst hq
          exact .of_sent (hi.sent q sess hsess hin)
        · exact (hi.connected q sess₁ hsess₁ hconn).append [_]
      · intro q id status hmem
        rcases List.mem_cons.mp hmem with hmem | hmem
        · exact (Event.createResp.inj hmem).2.2
        · exact hi.success q id status hmem
  | dropped => exact hi.record (by simp)
  | stored _ hsess _ => exact hi.keep _ hsess rfl rfl rfl rfl rfl (by simp)
  | refused => exact hi.record (by simp)
  | sent hsess _ _ _ => exact hi.keep _ hsess rfl rfl rfl rfl rfl (by simp)
  | received hsess _ _ => exact hi.keep _ hsess rfl rfl rfl rfl rfl (by simp)
  | deleted _ _ _ _ =>
      refine ⟨?_, ?_, hi.success⟩
      · rintro q sess₁ hsess₁ ⟨e, he, rfl⟩
        simp only [Function.update_apply] at hsess₁
        split_ifs at hsess₁
        exact hi.sent e.2 sess₁ hsess₁ ⟨e, List.mem_of_mem_eraseP he, rfl⟩
      · intro q sess₁ hsess₁ hconn
        simp only [Function.update_apply] at hsess₁
        split_ifs at hsess₁
        exact hi.connected q sess₁ hsess₁ hconn
  | b2fEmptied hsess _ => exact hi.keep _ hsess rfl rfl rfl rfl rfl (by simp)
  | f2bDone hsess _ _ => exact hi.keep _ hsess rfl rfl rfl rfl rfl (by simp [placedEvents])
  | f2bAgain hsess _ _ => exact hi.keep _ hsess rfl rfl rfl rfl rfl (by simp [placedEvents])
  | f2bFailed hsess _ _ => exact hi.keep _ hsess rfl rfl rfl rfl rfl (by simp [placedEvents])

/-- **Connections are acknowledged.** In every run in which no CREATE response with a
failure is processed for a session in the table, a session is CONNECTED only after a
CREATE response with success for its id was processed, after its CREATE command was
sent; and no session for which a failure was processed is in the table. -/
theorem connect_safe (ls : List Label) (s : State)
    (hrun : Runs (Guarded NoFailedCreate (OfFun step)) initState ls s) : ConnectSafe s.core := by
  have hinv : TableOk s.core ∧ ConnectInv s.core := by
    refine hrun.invariant (fun s => TableOk s.core ∧ ConnectInv s.core) ?_ ⟨tableOk_init, ?_⟩
    · rintro s l s' ⟨htable, hconnect⟩ ⟨hgood, hstep⟩
      exact ⟨effect_tableOk (step_effect hstep) htable,
        effect_connectInv (step_effect hstep) hgood htable hconnect⟩
    · exact ⟨by simp [initState], by simp [initState], by simp [initState]⟩
  refine ⟨hinv.2.connected, ?_⟩
  intro p id status hresp hstatus
  exact absurd (hinv.2.success p id status hresp) hstatus

/-- A session that the backend accepts is connected and acknowledged. -/
theorem connect_safe_create :
    ∃ s sess, Runs (Guarded NoFailedCreate (OfFun step)) initState (createRun 0) s ∧
      s.core.heap 0 = some sess ∧ sess.sessState = some .connected ∧
      Acknowledged s.core.log 0 sess.frontendSessId := by
  have heval : (runFun (fun s l => decide (NoFailedCreate s l)) step initState
      (createRun 0)).map (fun s => (s.core.heap 0).map FrontendSession.sessState) =
        some (some (some .connected)) := by
    decide +kernel
  obtain ⟨s, hs, hheap⟩ := Option.map_eq_some_iff.mp heval
  obtain ⟨sess, hsess, hconn⟩ := Option.map_eq_some_iff.mp hheap
  have hrun := runs_of_runFun NoFailedCreate (fun _ _ => of_decide_eq_true) hs
  exact ⟨s, sess, hrun, hsess, hconn, (connect_safe _ s hrun).connected 0 sess hsess hconn⟩

/-- A session that the backend refuses is connected, in the table and without an
acknowledgement. -/
theorem failed_create_connects :
    ∃ s sess, Runs (OfFun step) initState (createRun 1) s ∧ s.core.heap 0 = some sess ∧
      sess.sessState = some .connected ∧ s.core.InTable 0 ∧
      ¬ Acknowledged s.core.log 0 sess.frontendSessId ∧ ¬ ConnectSafe s.core := by
  have heval : (runFun (fun _ _ => true) step initState (createRun 1)).map
      (fun s => ((s.core.heap 0).map fun sess => (sess.sessState, sess.frontendSessId),
        decide (s.core.InTable 0), s.core.log)) =
        some (some (some .connected, 1), true,
          [.createResp 0 1 1, .createSent 0 1, .started 0]) := by
    decide +kernel
  obtain ⟨s, hs, hstate⟩ := Option.map_eq_some_iff.mp heval
  simp only [Prod.mk.injEq] at hstate
  obtain ⟨hheap, hin, hlog⟩ := hstate
  obtain ⟨sess, hsess, hfields⟩ := Option.map_eq_some_iff.mp hheap
  obtain ⟨hconn, hid⟩ := Prod.mk.inj hfields
  have hnot : ¬ Acknowledged s.core.log 0 sess.frontendSessId := by
    rintro ⟨l₁, l₂, l₃, hsplit⟩
    have hmem : Event.createResp 0 sess.frontendSessId 0 ∈ s.core.log := by simp [hsplit]
    rw [hlog, hid] at hmem
    revert hmem
    decide
  exact ⟨s, sess, runs_of_eval hs, hsess, hconn, of_decide_eq_true hin, hnot,
    fun h => hnot (h.connected 0 sess hsess hconn)⟩

end Frontend
