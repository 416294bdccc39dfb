import Sel4Test.Kernel.Notification

/-!
What each operation notes down in the traces of the endpoints, whatever the state it begins in.

`Continues P s s'` says that from `s` to `s'` the trace of every endpoint goes on with events
that satisfy `P`. The lemmas are about the result of an operation, if there is one; that there is
one is the matter of `Sel4Test.Kernel.Endpoint` and `Sel4Test.Kernel.Notification`.

* `only_sendIPC`, `only_receiveIPC`: the send or the receive, and a transfer after which the badge
  register of the receiver holds the badge.
* `only_cancelIPC`, `only_cancelAllIPC`, `only_cancelBadgedSends`: threads that leave.
* `only_sendSignal`, `only_receiveSignal`: at most the bound thread leaves, and no sender.
-/

namespace Kernel.Ipc

open Checked
open LinkedQueue (Queue)
open Function (update update_self update_of_ne update_eq_self)

variable {s s' s'' : State} {P : ℕ → Rendezvous.Event ℕ ℕ → Prop} {t e n b : ℕ}
  {es : List (Rendezvous.Event ℕ ℕ)}

/-- The trace of every endpoint goes on with events that satisfy `P`. -/
def Continues (P : ℕ → Rendezvous.Event ℕ ℕ → Prop) (s s' : State) : Prop :=
  ∀ e, ∃ es, s'.epTrace e = s.epTrace e ++ es ∧ ∀ v ∈ es, P e v

lemma continues_of_eq (h : s'.epTrace = s.epTrace) : Continues P s s' := fun e =>
  ⟨[], by rw [h, List.append_nil], by simp⟩

lemma Continues.trans (h : Continues P s s') (h' : Continues P s' s'') : Continues P s s'' := by
  intro e
  obtain ⟨es, hes, hP⟩ := h e
  obtain ⟨fs, hfs, hP'⟩ := h' e
  refine ⟨es ++ fs, by rw [hfs, hes, List.append_assoc], fun v hv => ?_⟩
  rcases List.mem_append.mp hv with hv | hv
  · exact hP v hv
  · exact hP' v hv

/-- The trace of one endpoint goes on. -/
lemma continues_update (es : List (Rendezvous.Event ℕ ℕ))
    (h : s'.epTrace = update s.epTrace e (s.epTrace e ++ es))
    (hes : ∀ v ∈ es, P e v) : Continues P s s' := by
  intro e'
  rw [h]
  by_cases he : e' = e
  · subst he
    exact ⟨es, update_self .., hes⟩
  · exact ⟨[], by rw [update_of_ne he, List.append_nil], by simp⟩

lemma continues_noteLeave (h : P e (leaving s t)) : Continues P s (s.noteLeave e t) :=
  continues_update [leaving s t] rfl (by simpa using h)

/-! ### Links -/

/-- `tcbEPAppend` writes no trace and no register. -/
lemma only_tcbEPAppend (s : State) (t : ℕ) (q : Queue ℕ) :
    Only (s.tcbEPAppend t q) fun r =>
      r.2.epTrace = s.epTrace ∧ r.2.badgeRegister = s.badgeRegister := by
  rw [State.tcbEPAppend]
  by_cases hempty : q.head = none
  · rw [if_pos hempty]
    exact only_pure ⟨rfl, rfl⟩
  · rw [if_neg hempty]
    exact only_bind fun last => only_pure ⟨rfl, rfl⟩

lemma epTrace_epRemove : (s.epRemove e t).epTrace = s.epTrace := by
  obtain ⟨next, prev, states, queues, h⟩ := epRemove_eq s e t
  rw [h]

lemma epTrace_ntfnRemove : (s.ntfnRemove n t).epTrace = s.epTrace := by
  obtain ⟨next, prev, queues, h⟩ := ntfnRemove_eq s n t
  rw [h]

/-! ### Messages -/

/-- The events of a send: the send itself, and a transfer that puts the badge into the register of
the receiver. -/
def SendEvent (s' : State) (t b : ℕ) (v : Rendezvous.Event ℕ ℕ) : Prop :=
  v = .send t b ∨ ∃ r, v = .transfer t r b ∧ s'.badgeRegister r = b

/-- The events of a receive: the receive itself, and a transfer that puts the badge of the sender
into the register. -/
def ReceiveEvent (s' : State) (r : ℕ) (v : Rendezvous.Event ℕ ℕ) : Prop :=
  v = .receive r ∨ ∃ t b, v = .transfer t r b ∧ s'.badgeRegister r = b

/-- The events of `sendIPC`. A blocking send is always noted down. -/
lemma only_sendIPC (s : State) (blocking doCall canGrant canGrantReply : Bool) (b t e : ℕ) :
    Only (s.sendIPC blocking doCall b canGrant canGrantReply t e) fun s' =>
      ∃ es, s'.epTrace = update s.epTrace e (s.epTrace e ++ es) ∧
        (blocking = true → .send t b ∈ es) ∧ ∀ v ∈ es, SendEvent s' t b v := by
  rw [State.sendIPC]
  by_cases hrecv : s.epState e = .recv
  · rw [if_pos hrecv]
    refine only_bind fun _ => only_bind fun d => ?_
    have hgoal : ∀ s₁ : State, s₁.epTrace =
        update s.epTrace e (s.epTrace e ++ [.send t b, .transfer t d b]) → s₁.badgeRegister d = b →
        ∃ es, s₁.epTrace = update s.epTrace e (s.epTrace e ++ es) ∧
          (blocking = true → .send t b ∈ es) ∧ ∀ v ∈ es, SendEvent s₁ t b v := by
      intro s₁ htrace hregister
      refine ⟨_, htrace, fun _ => by simp, fun v hv => ?_⟩
      rcases List.mem_cons.mp hv with rfl | hv
      · exact .inl rfl
      · obtain rfl := List.mem_singleton.mp hv
        exact .inr ⟨d, rfl, hregister⟩
    refine only_pure ?_
    rw [exchange_eq]
    -- what becomes of the sender is not in the trace
    split_ifs <;> exact hgoal _ rfl (update_self ..)
  · rw [if_neg hrecv]
    cases blocking with
    | false => exact only_pure ⟨[], by rw [List.append_nil, update_eq_self], by simp, by simp⟩
    | true =>
        rw [if_pos rfl]
        refine (only_tcbEPAppend _ _ _).bind fun r hr => only_pure ?_
        exact ⟨[.send t b], hr.1, fun _ => by simp, fun v hv => .inl (List.mem_singleton.mp hv)⟩

/-- The events of `sendFaultIPC`. -/
lemma only_sendFaultIPC (s : State) (b : ℕ) (canGrant : Bool) (t e : ℕ) :
    Only (s.sendFaultIPC b canGrant t e) fun s' =>
      ∃ es, s'.epTrace = update s.epTrace e (s.epTrace e ++ es) ∧
        .send t b ∈ es ∧ ∀ v ∈ es, SendEvent s' t b v := by
  refine (only_sendIPC _ true true canGrant true b t e).mono ?_
  rintro s' ⟨es, htrace, hsend, hes⟩
  exact ⟨es, htrace, hsend rfl, hes⟩

/-- The events of `receiveMessage`. A blocking receive is always noted down. -/
lemma only_receiveMessage (s : State) (t e : ℕ) (capCanGrant isBlocking : Bool) :
    Only (s.receiveMessage t e capCanGrant isBlocking) fun s' =>
      ∃ es, s'.epTrace = update s.epTrace e (s.epTrace e ++ es) ∧
        (isBlocking = true → .receive t ∈ es) ∧ ∀ v ∈ es, ReceiveEvent s' t v := by
  rw [State.receiveMessage]
  by_cases hsend : s.epState e = .send
  · rw [if_pos hsend]
    refine only_bind fun _ => only_bind fun d => ?_
    obtain ⟨b, hb⟩ : ∃ b, b = ((s.epRemove e d).note e (.receive t)).blockingIPCBadge d := ⟨_, rfl⟩
    have hgoal : ∀ s₁ : State, s₁.epTrace =
        update s.epTrace e (s.epTrace e ++ [.receive t, .transfer d t b]) →
        s₁.badgeRegister t = b →
        ∃ es, s₁.epTrace = update s.epTrace e (s.epTrace e ++ es) ∧
          (isBlocking = true → .receive t ∈ es) ∧ ∀ v ∈ es, ReceiveEvent s₁ t v := by
      intro s₁ htrace hregister
      refine ⟨_, htrace, fun _ => by simp, fun v hv => ?_⟩
      rcases List.mem_cons.mp hv with rfl | hv
      · exact .inl rfl
      · obtain rfl := List.mem_singleton.mp hv
        exact .inr ⟨d, b, rfl, hregister⟩
    have hexchange : ∀ ts, ∃ es, ((((s.epRemove e d).note e (.receive t)).doIPCTransfer d (some e) b
          t).setThreadState d ts).epTrace = update s.epTrace e (s.epTrace e ++ es) ∧
        (isBlocking = true → .receive t ∈ es) ∧ ∀ v ∈ es, ReceiveEvent
          ((((s.epRemove e d).note e (.receive t)).doIPCTransfer d (some e) b t).setThreadState d
            ts) t v := by
      intro ts
      rw [exchange_eq]
      exact hgoal _ rfl (update_self ..)
    subst hb
    refine only_pure ?_
    split_ifs
    · exact hexchange .blockedOnReply
    · exact hexchange .inactive
    · exact hexchange .running
  · rw [if_neg hsend]
    cases isBlocking with
    | false => exact only_pure ⟨[], by rw [List.append_nil, update_eq_self]; rfl, by simp, by simp⟩
    | true =>
        rw [if_pos rfl]
        refine (only_tcbEPAppend _ _ _).bind fun r hr => only_pure ?_
        exact ⟨[.receive t], hr.1, fun _ => by simp, fun v hv => .inl (List.mem_singleton.mp hv)⟩

/-- The notification that is bound to the thread, if a signal is pending there. -/
def signalFor (s : State) (t : ℕ) : Option ℕ :=
  (s.tcbBoundNotification t).filter fun n => s.ntfnState n = .active

/-- The events of `receiveIPC`: none, if a signal is pending. -/
lemma only_receiveIPC (s : State) (t e : ℕ) (capCanGrant isBlocking : Bool) :
    Only (s.receiveIPC t e capCanGrant isBlocking) fun s' =>
      ∃ es, s'.epTrace = update s.epTrace e (s.epTrace e ++ es) ∧
        (isBlocking = true ∧ signalFor s t = none → .receive t ∈ es) ∧
        ∀ v ∈ es, ReceiveEvent s' t v := by
  rw [State.receiveIPC]
  show Only ((signalFor s t).elim _ _) _
  cases hsignal : signalFor s t with
  | none =>
      refine (only_receiveMessage s t e capCanGrant isBlocking).mono ?_
      rintro s' ⟨es, htrace, hreceive, hes⟩
      exact ⟨es, htrace, fun h => hreceive h.1, hes⟩
  | some n =>
      refine only_bind fun _ => only_pure ⟨[], ?_, by simp, by simp⟩
      rw [List.append_nil, update_eq_self]
      rfl

/-- A reply is no event at an endpoint. -/
lemma only_doReplyTransfer (s : State) (sender receiver : ℕ) (restart : Bool) :
    Only (s.doReplyTransfer sender receiver restart) fun s' => s'.epTrace = s.epTrace := by
  rw [State.doReplyTransfer]
  refine only_bind fun _ => only_pure ?_
  split_ifs <;> rfl

/-! ### Cancelling -/

/-- `cancelSignal` is no event at an endpoint. -/
lemma only_cancelSignal (s : State) (t n : ℕ) :
    Only (s.cancelSignal t n) fun s' => s'.epTrace = s.epTrace := by
  rw [State.cancelSignal]
  exact only_bind fun _ => only_pure epTrace_ntfnRemove

/-- The events of `cancelIPC`: at most, the thread leaves the endpoint where it is blocked. -/
lemma only_cancelIPC (s : State) (t : ℕ) (hleave : ∀ e, P e (leaving s t)) :
    Only (s.cancelIPC t) (Continues P s) := by
  rw [State.cancelIPC]
  split_ifs
  · refine only_bind fun _ => ?_
    show Only (pure (((s.epRemove _ t).noteLeave _ t).setThreadState t .inactive)) _
    rw [leave_eq]
    exact only_pure (continues_update [leaving s t] rfl (by simpa using hleave _))
  · exact (only_cancelSignal s t _).mono fun _ h => continues_of_eq h
  · exact only_pure (continues_of_eq rfl)
  · exact only_pure (continues_of_eq rfl)

/-- The events of `suspend`. -/
lemma only_suspend (s : State) (t : ℕ) (hleave : ∀ e, P e (leaving s t)) :
    Only (s.suspend t) (Continues P s) :=
  (only_cancelIPC s t hleave).bind fun _ h => only_pure (h.trans (continues_of_eq rfl))

/-- The events of `restart`. -/
lemma only_restart (s : State) (t : ℕ) (hleave : ∀ e, P e (leaving s t)) :
    Only (s.restart t) (Continues P s) := by
  rw [State.restart]
  split_ifs
  · exact (only_cancelIPC s t hleave).bind fun _ h => only_pure (h.trans (continues_of_eq rfl))
  · exact only_pure (continues_of_eq rfl)

/-- The events of `cancelAllIPC`: threads leave this endpoint. -/
lemma only_cancelAllIPC (s : State) (e : ℕ) (hleave : ∀ (v : State) t, P e (leaving v t)) :
    Only (s.cancelAllIPC e) (Continues P s) := by
  rw [State.cancelAllIPC]
  split_ifs
  · exact only_pure (continues_of_eq rfl)
  · refine only_follow (fun v t hv => ?_) (continues_of_eq rfl) _
    exact hv.trans ((continues_noteLeave (hleave v t)).trans (continues_of_eq rfl))

/-- The events of `cancelBadgedSends`: threads with the badge leave this endpoint. -/
lemma only_cancelBadgedSends (s : State) (e b : ℕ)
    (hleave : ∀ (v : State) t, v.blockingIPCBadge t = b → P e (leaving v t)) :
    Only (s.cancelBadgedSends e b) (Continues P s) := by
  rw [State.cancelBadgedSends]
  split_ifs
  · refine Only.bind (P := fun r => Continues P s r.2)
      (only_follow (fun (r : Queue ℕ × State) t (hr : Continues P s r.2) => ?_)
        (continues_of_eq rfl) _) fun r hr => only_pure (hr.trans (continues_of_eq rfl))
    rw [State.cancelBadged]
    split_ifs with hb
    · refine hr.trans ((continues_noteLeave (hleave r.2 t hb)).trans (continues_of_eq ?_))
      rw [tcbEPDequeue_eq]
      rfl
    · exact hr
  · exact only_pure (continues_of_eq rfl)

/-! ### Signals -/

/-- The events of `sendSignal`: at most, the bound thread leaves the endpoint where it waits to
receive. -/
lemma only_sendSignal (s : State) (n b : ℕ) (hleave : ∀ e t, P e (.leaveReceive t)) :
    Only (s.sendSignal n b) (Continues P s) := by
  rw [State.sendSignal]
  split_ifs
  · show Only ((s.ntfnBoundTCB n).elim _ _) _
    cases s.ntfnBoundTCB n with
    | none => exact only_pure (continues_of_eq rfl)
    | some t =>
        rw [Option.elim_some]
        split_ifs with hreceive
        · refine (only_cancelIPC (P := P) _ t fun e => ?_).bind fun v hv =>
            only_pure (Continues.trans (fun e => hv e) (continues_of_eq rfl))
          have hleaving : leaving s t = .leaveReceive t := if_neg (by
            show s.tsType t ≠ _
            rw [show s.tsType t = .blockedOnReceive from hreceive]
            decide)
          show P e (leaving s t)
          rw [hleaving]
          exact hleave e t
        · exact only_pure (continues_of_eq rfl)
  · exact only_bind fun _ => only_bind fun d => only_pure (continues_of_eq epTrace_ntfnRemove)
  · exact only_pure (continues_of_eq rfl)

/-- `receiveSignal` is no event at an endpoint. -/
lemma only_receiveSignal (s : State) (t n : ℕ) (isBlocking : Bool) :
    Only (s.receiveSignal t n isBlocking) fun s' => s'.epTrace = s.epTrace := by
  rw [State.receiveSignal]
  split_ifs
  · exact only_pure rfl
  · exact (only_tcbEPAppend _ _ _).bind fun r hr => only_pure hr.1
  · exact only_pure rfl

/-- `cancelAllSignals` is no event at an endpoint. -/
lemma only_cancelAllSignals (s : State) (n : ℕ) : Only (s.cancelAllSignals n) (Continues P s) := by
  rw [State.cancelAllSignals]
  split_ifs
  · refine only_follow (fun v t hv => ?_) (continues_of_eq rfl) _
    exact hv.trans (continues_of_eq rfl)
  · exact only_pure (continues_of_eq rfl)

end Kernel.Ipc
