import Sel4Test.Kernel.IpcQueues

/-!
Endpoints: what `sendIPC`, `receiveIPC`, `cancelAllIPC`, `cancelBadgedSends` and a reply do to
the queues.

Each operation returns without a failed assertion from a state with the queues in order, leaves
them in order, and says nothing to notifications.

* `Wf.sendIPC`, `Wf.receiveMessage`: a transfer to the first who waits, or a new last one.
* `Wf.cancelAllIPC`, `Wf.cancelBadgedSends`: the loops. The second keeps the queue it rebuilds
  outside the endpoint; the invariant of the loop is that the endpoint with this queue put back
  is in order.
-/

namespace Kernel.Ipc

open Checked LinkedQueue Rendezvous
open Function (update update_self update_of_ne update_idem update_eq_self)

variable {s s' : State} {L : Place → List ℕ} {t d e n b : ℕ} {l r : List ℕ} {ts : TsType}

/-- The word that a notification keeps for a thread to come. -/
def State.pendingWord (s : State) (n : ℕ) : ℕ :=
  if s.ntfnState n = .active then s.ntfnMsgIdentifier n else 0

/-- Nothing is signalled, delivered or forgotten. -/
structure Quiet (s s' : State) : Prop where
  sent : s'.ntfnSent = s.ntfnSent
  delivered : s'.ntfnDelivered = s.ntfnDelivered
  pending : s'.pendingWord = s.pendingWord

lemma Quiet.refl (s : State) : Quiet s s := ⟨rfl, rfl, rfl⟩

lemma Quiet.trans {s'' : State} (h : Quiet s s') (h' : Quiet s' s'') : Quiet s s'' where
  sent := h'.sent.trans h.sent
  delivered := h'.delivered.trans h.delivered
  pending := h'.pending.trans h.pending

lemma quiet_setThreadState (t : ℕ) (ts : TsType) : Quiet s (s.setThreadState t ts) :=
  ⟨rfl, rfl, rfl⟩

/-- The queues are in order, and what was signalled is where it was. -/
def Kept (s s' : State) : Prop := (∃ L, Wf s' L) ∧ Quiet s s'

/-! ### Leaving a queue -/

/-- The field `tcbEPNext` after `tcbEPDequeue`. -/
def nextWithout (s : State) (t : ℕ) : ℕ → Option ℕ :=
  (s.tcbEPPrev t).elim s.tcbEPNext fun prev => update s.tcbEPNext prev (s.tcbEPNext t)

/-- The field `tcbEPPrev` after `tcbEPDequeue`. -/
def prevWithout (s : State) (t : ℕ) : ℕ → Option ℕ :=
  (nextWithout s t t).elim s.tcbEPPrev fun next => update s.tcbEPPrev next (s.tcbEPPrev t)

/-- `tcbEPDequeue` reads and writes links only. -/
lemma tcbEPDequeue_eq (s : State) (t : ℕ) (q : Queue ℕ) :
    s.tcbEPDequeue t q =
      (⟨(s.tcbEPPrev t).elim (s.tcbEPNext t) fun _ => q.head,
        (nextWithout s t t).elim (s.tcbEPPrev t) fun _ => q.last⟩,
        { s with tcbEPNext := nextWithout s t, tcbEPPrev := prevWithout s t }) := by
  rw [State.tcbEPDequeue, prevWithout, nextWithout]
  cases hprev : s.tcbEPPrev t with
  | none =>
      simp only [Option.elim_none]
      cases s.tcbEPNext t with
      | none => simp [hprev]
      | some y => simp [hprev]
  | some x =>
      simp only [Option.elim_some]
      cases update s.tcbEPNext x (s.tcbEPNext t) t with
      | none => simp [hprev]
      | some y => simp [hprev]

/-- Taking a thread out of the queue of an endpoint writes links and the endpoint. -/
lemma epRemove_eq (s : State) (e t : ℕ) :
    ∃ next prev states queues, s.epRemove e t = { s with
      tcbEPNext := next, tcbEPPrev := prev, epState := states, epQueue := queues } := by
  rw [State.epRemove, tcbEPDequeue_eq]
  exact ⟨_, _, _, _, rfl⟩

/-- Taking a thread out of the queue of a notification writes links and the notification. -/
lemma ntfnRemove_eq (s : State) (n t : ℕ) :
    ∃ next prev queues, s.ntfnRemove n t = { s with
      tcbEPNext := next
      tcbEPPrev := prev
      ntfnState := if (s.tcbEPDequeue t (s.ntfnQueue n)).1.head = none then
        update s.ntfnState n .idle else s.ntfnState
      ntfnQueue := queues } := by
  rw [State.ntfnRemove, tcbEPDequeue_eq]
  exact ⟨_, _, _, rfl⟩

/-- A message goes from `t` to `u`, and `d`, who is one of the two, leaves the queue. -/
lemma exchange_eq {v : Rendezvous.Event ℕ ℕ} {u : ℕ} :
    (((s.epRemove e d).note e v).doIPCTransfer t (some e) b u).setThreadState d ts =
      { s.epRemove e d with
        tsType := update s.tsType d ts
        badgeRegister := update s.badgeRegister u b
        epTrace := update s.epTrace e (s.epTrace e ++ [v, .transfer t u b]) } := by
  obtain ⟨next, prev, states, queues, h⟩ := epRemove_eq s e d
  rw [h]
  simp [State.setThreadState, State.doIPCTransfer, State.note]

lemma quiet_exchange {v : Rendezvous.Event ℕ ℕ} {u : ℕ} :
    Quiet s ((((s.epRemove e d).note e v).doIPCTransfer t (some e) b u).setThreadState d ts) := by
  obtain ⟨next, prev, states, queues, h⟩ := epRemove_eq s e d
  rw [exchange_eq, h]
  exact ⟨rfl, rfl, rfl⟩

namespace Wf

/-! ### Transfers and new arrivals -/

/-- The thread that asked for an answer is given its next state. -/
lemma answer (W : Wf s' L) (hquiet : Quiet s s') (ht : Free (s'.tsType t)) (hts : Free ts) :
    Kept s (s'.setThreadState t ts) :=
  ⟨⟨L, W.setThreadState ht hts⟩, hquiet.trans (quiet_setThreadState ..)⟩

/-- `tcbEPAppend`, in a state with the same links. -/
lemma append (W : Wf s L) (ht : s.waitsAt t = none) (p : Place)
    (hnext : s'.tcbEPNext = s.tcbEPNext) (hprev : s'.tcbEPPrev = s.tcbEPPrev) :
    Gives (s'.tcbEPAppend t (s.queue p)) fun r => ∃ next prev,
      r.2 = { s' with tcbEPNext := next, tcbEPPrev := prev } ∧
      Placed next prev (update s.queue p r.1) (update s.waitsAt t (some p))
        (update L p (L p ++ [t])) := by
  have P := W.placed
  rw [← hnext, ← hprev] at P
  exact gives_tcbEPAppend P ht

/-- **`sendIPC`.** -/
theorem sendIPC (W : Wf s L) (ht : Free (s.tsType t)) (haddr : 0 < t ∧ t < wordBound)
    (blocking doCall canGrant canGrantReply : Bool) (badge e : ℕ) :
    Gives (s.sendIPC blocking doCall badge canGrant canGrantReply t e) (Kept s) := by
  have hwaits : s.waitsAt t = none := waitsAt_eq_none.mpr ht
  rw [State.sendIPC]
  by_cases hrecv : s.epState e = .recv
  · rw [if_pos hrecv]
    obtain ⟨d, r, hL, hhead⟩ := W.ep_cons (by rw [hrecv]; simp)
    have htd : t ≠ d := by
      rintro rfl
      exact W.not_free (by rw [hL]; simp) ht
    refine (gives_assert (by rw [hhead]; simp)).bind fun _ _ => ?_
    refine (gives_deref hhead).bind fun d' hd => ?_
    subst hd
    have hport : [Rendezvous.Event.send t badge, .transfer t d' badge].foldlM Port.step (s.port L e) =
        some (s.port (update L (.ep e) ([] ++ r)) e) := by
      simp only [State.port, hrecv, hL, update_self]
      exact Port.foldlM_send_transfer t badge d' r
    -- whether or not a reply is owed, all that is left is the state of the sender
    suffices hgoal : ∀ s₁ : State, Wf s₁ (update L (.ep e) ([] ++ r)) → Quiet s s₁ →
        Free (s₁.tsType t) → Kept s (if doCall = true then
          if canGrant = true ∨ canGrantReply = true then s₁.setupCallerCap t
          else s₁.setThreadState t .inactive else s₁) by
      refine gives_pure (hgoal _ ?_ quiet_exchange ?_)
      · rw [exchange_eq]
        exact W.epLeave (l := []) hL (by decide) _ hport
      · rw [exchange_eq]
        show Free (update s.tsType d' .running t)
        rwa [update_of_ne htd]
    intro s₁ W₁ hquiet hfree
    split_ifs
    · exact W₁.answer hquiet hfree (by decide)
    · exact W₁.answer hquiet hfree (by decide)
    · exact ⟨⟨_, W₁⟩, hquiet⟩
  · rw [if_neg hrecv]
    -- nobody receives: a poll gives up, and a send that may block joins the queue
    cases blocking with
    | false => exact gives_pure ⟨⟨L, W⟩, .refl s⟩
    | true =>
        rw [if_pos rfl]
        have hstate : s.epState e = .idle ∨ s.epState e = .send := by
          cases h : s.epState e <;> simp_all
        refine Gives.bind (W.append hwaits (.ep e) ?_ ?_) ?_
        · rfl
        · rfl
        rintro ⟨q, s₁⟩ ⟨next, prev, rfl, hplaced⟩
        refine gives_pure ⟨⟨_, W.epJoin hwaits haddr (.inl ⟨rfl, rfl⟩) hstate ?_ ?_ hplaced rfl⟩,
          rfl, rfl, rfl⟩
        · intro u hu
          exact update_of_ne hu ..
        · exact W.step_send hstate (W.placed.notMem hwaits)

/-- `receiveIPC`, when no signal is pending for the thread. -/
theorem receiveMessage (W : Wf s L) (ht : Free (s.tsType t)) (haddr : 0 < t ∧ t < wordBound)
    (e : ℕ) (capCanGrant isBlocking : Bool) :
    Gives (s.receiveMessage t e capCanGrant isBlocking) (Kept s) := by
  have hwaits : s.waitsAt t = none := waitsAt_eq_none.mpr ht
  rw [State.receiveMessage]
  by_cases hsend : s.epState e = .send
  · rw [if_pos hsend]
    obtain ⟨d, r, hL, hhead⟩ := W.ep_cons (by rw [hsend]; simp)
    refine (gives_assert (by rw [hhead]; simp)).bind fun _ _ => ?_
    refine (gives_deref hhead).bind fun d' hd => ?_
    subst hd
    obtain ⟨b, hb⟩ : ∃ b, b = ((s.epRemove e d').note e (.receive t)).blockingIPCBadge d' :=
      ⟨_, rfl⟩
    have hbadge : b = s.blockingIPCBadge d' := by
      obtain ⟨next, prev, states, queues, h⟩ := epRemove_eq s e d'
      rw [hb, h]
      rfl
    have hport : [Rendezvous.Event.receive t, .transfer d' t b].foldlM Port.step (s.port L e) =
        some (s.port (update L (.ep e) ([] ++ r)) e) := by
      simp only [State.port, hsend, hL, update_self, hbadge]
      exact Port.foldlM_receive_transfer d' _ _ t
    -- whatever the sender becomes, it has left the queue
    have hkept : ∀ ts, Free ts → Kept s ((((s.epRemove e d').note e (.receive t)).doIPCTransfer d'
        (some e) b t).setThreadState d' ts) := by
      intro ts hts
      refine ⟨⟨update L (.ep e) ([] ++ r), ?_⟩, quiet_exchange⟩
      rw [exchange_eq]
      exact W.epLeave (l := []) hL hts _ hport
    subst hb
    refine gives_pure ?_
    split_ifs
    · exact hkept .blockedOnReply (by decide)
    · exact hkept .inactive (by decide)
    · exact hkept .running (by decide)
  · rw [if_neg hsend]
    cases isBlocking with
    | false =>
        exact gives_pure ⟨⟨L, W.frame (fun _ => .inl rfl) rfl rfl rfl rfl rfl rfl (fun _ => Iff.rfl)
          rfl rfl rfl rfl⟩, rfl, rfl, rfl⟩
    | true =>
        rw [if_pos rfl]
        have hstate : s.epState e = .idle ∨ s.epState e = .recv := by
          cases h : s.epState e <;> simp_all
        refine Gives.bind (W.append hwaits (.ep e) ?_ ?_) ?_
        · rfl
        · rfl
        rintro ⟨q, s₁⟩ ⟨next, prev, rfl, hplaced⟩
        refine gives_pure ⟨⟨_, W.epJoin hwaits haddr (.inr ⟨rfl, rfl⟩) hstate ?_ ?_ hplaced rfl⟩,
          rfl, rfl, rfl⟩
        · intro u _
          rfl
        · exact W.step_receive hstate

/-! ### The loops -/

/-- The object after an object of a queue. -/
lemma next_of_split (W : Wf s L) {p : Place} (hL : L p = l ++ t :: r) :
    s.tcbEPNext t = r.head? :=
  ((W.placed.holds p).links l t r hL).2

lemma notMem_of_split (W : Wf s L) {p : Place} (hL : L p = l ++ t :: r) : t ∉ l := by
  have hnodup := (W.placed.holds p).nodup
  rw [hL, List.nodup_middle, List.nodup_cons] at hnodup
  exact fun h => hnodup.1 (List.mem_append_left _ h)

/-- One more thread restarts. -/
lemma restart_snoc (types : ℕ → TsType) (done : List ℕ) (t : ℕ) :
    update (fun u => if u ∈ done then .restart else types u) t .restart =
      fun u => if u ∈ done ++ [t] then .restart else types u := by
  funext u
  by_cases hu : u = t
  · subst hu
    simp
  · simp [hu]

/-- **`cancelAllIPC`.** -/
theorem cancelAllIPC (W : Wf s L) (e : ℕ) : Gives (s.cancelAllIPC e) (Kept s) := by
  rw [State.cancelAllIPC]
  by_cases hidle : s.epState e = .idle
  · rw [if_pos hidle]
    exact gives_pure ⟨⟨L, W⟩, .refl s⟩
  · rw [if_neg hidle]
    have hhead : (s.epQueue e).head = (L (.ep e)).head? := (W.placed.holds (.ep e)).head_eq
    show Gives (follow _ (s.epQueue e).head _) _
    rw [hhead]
    -- the threads `done` have left the queue of the beginning
    refine (Gives.follow (fun ts v => ∃ done, L (.ep e) = done ++ ts ∧ v = { s with
        tsType := fun u => if u ∈ done then .restart else s.tsType u
        epState := update s.epState e .idle
        epQueue := update s.epQueue e .empty
        epTrace := update s.epTrace e (s.epTrace e ++ done.map (leaving s)) }) ?_ ?_
      (W.length_lt (.ep e))).mono ?_
    · rintro t ts v ⟨done, hL, rfl⟩
      have ht := W.notMem_of_split hL
      refine ⟨W.next_of_split hL, done ++ [t], by rw [hL]; simp, ?_⟩
      simp only [State.noteLeave, State.note, State.setThreadState, if_neg ht, update_self,
        update_idem, restart_snoc, List.append_assoc, List.map_append, List.map_cons, List.map_nil,
        leaving]
    · exact ⟨[], rfl, by simp⟩
    · rintro v ⟨done, hL, rfl⟩
      rw [List.append_nil] at hL
      subst hL
      exact ⟨⟨_, W.epClear rfl⟩, rfl, rfl, rfl⟩

end Wf

/-- The endpoint gets the queue that the loop of `cancelBadgedSends` has rebuilt. -/
def closeBadged (e : ℕ) (v : Queue ℕ × State) : State :=
  { v.2 with
    epQueue := update v.2.epQueue e v.1
    epState := if v.1.head = none then v.2.epState else update v.2.epState e .send }

/-- A cancelled thread leaves the endpoint with its queue put back. -/
lemma closeBadged_dequeue {v : Queue ℕ × State} (hidle : v.2.epState e = .idle)
    (hhead : v.1.head ≠ none) :
    closeBadged e (((v.2.noteLeave e t).setThreadState t ts).tcbEPDequeue t v.1) =
      { (closeBadged e v).epRemove e t with
        tsType := update v.2.tsType t ts
        badgeRegister := v.2.badgeRegister
        epTrace := update v.2.epTrace e (v.2.epTrace e ++ [leaving v.2 t]) } := by
  have hstate : update v.2.epState e .idle = v.2.epState := by
    rw [← hidle, update_eq_self]
  -- both sides take the thread out of the same queue
  obtain ⟨q, hq⟩ : ∃ q, q = (v.2.tcbEPDequeue t v.1).1 := ⟨_, rfl⟩
  rw [tcbEPDequeue_eq] at hq
  have hloop : ((v.2.noteLeave e t).setThreadState t ts).tcbEPDequeue t v.1 =
      (q, { (v.2.noteLeave e t).setThreadState t ts with
        tcbEPNext := nextWithout v.2 t, tcbEPPrev := prevWithout v.2 t }) := by
    rw [hq]
    exact tcbEPDequeue_eq ..
  have hback : (closeBadged e v).tcbEPDequeue t ((closeBadged e v).epQueue e) =
      (q, { closeBadged e v with
        tcbEPNext := nextWithout v.2 t, tcbEPPrev := prevWithout v.2 t }) := by
    have hqueue : (closeBadged e v).epQueue e = v.1 := update_self ..
    rw [hqueue, hq]
    exact tcbEPDequeue_eq ..
  rw [State.epRemove, hback, hloop]
  by_cases hnil : q.head = none
  · simp [closeBadged, hnil, hhead, hstate, State.noteLeave, State.note, State.setThreadState,
      leaving]
  · simp [closeBadged, hnil, hhead, State.noteLeave, State.note, State.setThreadState, leaving]

/-- The loop of `cancelBadgedSends`, when the threads `done` have been looked at and the threads
`ts` are still to come. -/
structure BadgeLoop (s : State) (L : Place → List ℕ) (e b : ℕ) (done ts : List ℕ)
    (v : Queue ℕ × State) : Prop where
  split : L (.ep e) = done ++ ts
  wf : Wf (closeBadged e v)
    (update L (.ep e) ((done.filter fun t => s.blockingIPCBadge t ≠ b) ++ ts))
  idle : v.2.epState e = .idle
  quiet : Quiet s v.2
  badges : v.2.blockingIPCBadge = s.blockingIPCBadge
  types : v.2.tsType = fun t =>
    if t ∈ done ∧ s.blockingIPCBadge t = b then .restart else s.tsType t

namespace Wf

lemma badgeLoop_start (W : Wf s L) (hsend : s.epState e = .send) (b : ℕ) :
    BadgeLoop s L e b [] (L (.ep e)) (s.epQueue e, { s with
      epState := update s.epState e .idle
      epQueue := update s.epQueue e .empty }) where
  split := rfl
  wf := by
    have hhead : (s.epQueue e).head ≠ none := by
      obtain ⟨t, r, -, hhead⟩ := W.ep_cons (e := e) (by rw [hsend]; simp)
      rw [hhead]
      simp
    have hclose : closeBadged e (s.epQueue e, { s with
        epState := update s.epState e .idle
        epQueue := update s.epQueue e .empty }) = s := by
      simp only [closeBadged, if_neg hhead, update_idem, ← hsend, update_eq_self]
    rw [hclose]
    simpa using W
  idle := update_self ..
  quiet := ⟨rfl, rfl, rfl⟩
  badges := rfl
  types := by simp

lemma badgeLoop_step (W : Wf s L) {done ts : List ℕ} {v : Queue ℕ × State}
    (h : BadgeLoop s L e b done (t :: ts) v) :
    (State.cancelBadged e b v t).2 = ts.head? ∧
      BadgeLoop s L e b (done ++ [t]) ts (State.cancelBadged e b v t).1 := by
  have W₁ := h.wf
  have hL₁ := update_self (Place.ep e) ((done.filter fun t => s.blockingIPCBadge t ≠ b) ++ t :: ts) L
  have hnext : v.2.tcbEPNext t = ts.head? := W₁.next_of_split hL₁
  have hhead : v.1.head ≠ none := by
    have hqueue : (closeBadged e v).queue (.ep e) = v.1 := update_self ..
    rw [← hqueue, (W₁.placed.holds (.ep e)).head_eq, hL₁]
    simp
  have ht : t ∉ done := W.notMem_of_split h.split
  have hsplit : L (.ep e) = (done ++ [t]) ++ ts := by rw [h.split, List.append_assoc]; rfl
  rw [State.cancelBadged, h.badges]
  by_cases hb : s.blockingIPCBadge t = b
  · rw [if_pos hb]
    have hkept : (done ++ [t]).filter (fun t => s.blockingIPCBadge t ≠ b) =
        done.filter fun t => s.blockingIPCBadge t ≠ b := by
      simp [hb]
    -- the thread leaves the queue, and those kept so far stay as they are
    refine ⟨hnext, ?_⟩
    exact
      { split := hsplit
        wf := by
          rw [hkept, closeBadged_dequeue h.idle hhead]
          have W₂ := W₁.epLeave hL₁ (show Free .restart by decide) v.2.badgeRegister
            (W₁.foldlM_leave hL₁)
          rw [update_idem] at W₂
          exact W₂
        idle := by
          rw [tcbEPDequeue_eq]
          exact h.idle
        quiet := by
          rw [tcbEPDequeue_eq]
          exact h.quiet.trans ⟨rfl, rfl, rfl⟩
        badges := by
          rw [tcbEPDequeue_eq]
          exact h.badges
        types := by
          rw [tcbEPDequeue_eq]
          show update v.2.tsType t .restart = _
          rw [h.types]
          funext u
          by_cases hu : u = t
          · subst hu
            simp [hb]
          · simp [hu] }
  · rw [if_neg hb]
    -- the thread stays, behind those kept so far
    refine ⟨hnext, ?_⟩
    exact
      { split := hsplit
        wf := by
          have hkept : (done ++ [t]).filter (fun t => s.blockingIPCBadge t ≠ b) =
              (done.filter fun t => s.blockingIPCBadge t ≠ b) ++ [t] := by
            simp [hb]
          rw [hkept, List.append_assoc]
          exact W₁
        idle := h.idle
        quiet := h.quiet
        badges := h.badges
        types := by
          rw [h.types]
          funext u
          by_cases hu : u = t
          · subst hu
            simp [hb]
          · simp [hu] }

/-- **`cancelBadgedSends`** takes out the senders with the badge, and leaves the others in their
order. -/
theorem cancelBadgedSends (W : Wf s L) (hsend : s.epState e = .send) (b : ℕ) :
    Gives (s.cancelBadgedSends e b) fun s' =>
      Wf s' (update L (.ep e) ((L (.ep e)).filter fun t => s.blockingIPCBadge t ≠ b)) ∧
      Quiet s s' ∧ s'.blockingIPCBadge = s.blockingIPCBadge ∧
      s'.tsType = fun t =>
        if t ∈ L (.ep e) ∧ s.blockingIPCBadge t = b then .restart else s.tsType t := by
  have hhead : (s.epQueue e).head = (L (.ep e)).head? := (W.placed.holds (.ep e)).head_eq
  rw [State.cancelBadgedSends, if_pos hsend]
  show Gives (follow _ (s.epQueue e).head _ >>= _) _
  rw [hhead]
  refine Gives.bind (Gives.follow (fun ts v => ∃ done, BadgeLoop s L e b done ts v) ?_ ?_
    (W.length_lt (.ep e))) ?_
  · rintro t ts v ⟨done, h⟩
    have hstep := W.badgeLoop_step h
    exact ⟨hstep.1, _, hstep.2⟩
  · exact ⟨[], W.badgeLoop_start hsend b⟩
  · rintro ⟨q, s₁⟩ ⟨done, h⟩
    have hdone : L (.ep e) = done := by rw [h.split, List.append_nil]
    have hwf := h.wf
    rw [List.append_nil, ← hdone] at hwf
    have htypes := h.types
    rw [← hdone] at htypes
    exact gives_pure ⟨hwf, h.quiet.trans ⟨rfl, rfl, rfl⟩, h.badges, htypes⟩

end Wf

end Kernel.Ipc
