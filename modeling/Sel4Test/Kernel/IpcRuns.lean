import Sel4Test.Lib.Exec
import Sel4Test.Kernel.IpcTraces

/-!
Runs of endpoints and notifications: any operations of any threads, in any order.

`Op.Allowed` is what the callers see to: a thread that sends, receives or waits for a signal is
in no queue, and a reply is for a thread that waits for one. `Op.gives` is the step lemma, for
all operations: from a state in order, an allowed operation returns without a failed assertion
or a null pointer, leaves a state in order, and what it notes down is true of the threads: a
transfer and a delivery leave their word in the badge register of the thread that got it.

* `endpoints_consistent`: what holds of every endpoint in every state of every run, and of every
  operation there.
* `signals_conserved`: what holds of every notification in every state of every run, and of every
  operation there.
-/

namespace Kernel.Ipc

open Checked LinkedQueue Rendezvous Exec
open Function (update update_self update_of_ne update_idem)

/-! ### Steps -/

/-- The operations. -/
inductive Op
  | sendIPC (blocking doCall canGrant canGrantReply : Bool) (badge thread epptr : ℕ)
  | receiveIPC (thread epptr : ℕ) (capCanGrant isBlocking : Bool)
  | sendFaultIPC (badge : ℕ) (canGrant : Bool) (tptr epptr : ℕ)
  | cancelIPC (tptr : ℕ)
  | cancelAllIPC (epptr : ℕ)
  | cancelBadgedSends (epptr badge : ℕ)
  | doReplyTransfer (sender receiver : ℕ) (restart : Bool)
  | sendSignal (ntfnPtr badge : ℕ)
  | receiveSignal (thread ntfnPtr : ℕ) (isBlocking : Bool)
  | cancelSignal (threadPtr ntfnPtr : ℕ)
  | cancelAllSignals (ntfnPtr : ℕ)
  | bindNotification (tcb ntfnPtr : ℕ)
  | unbindNotification (tcb : ℕ)
  | unbindMaybeNotification (ntfnPtr : ℕ)
  | suspend (target : ℕ)
  | restart (target : ℕ)
  | setThreadState (tptr : ℕ) (ts : TsType)

/-- A thread that can act: it is in no queue, and it has an address. -/
def Acting (s : State) (thread : ℕ) : Prop :=
  Free (s.tsType thread) ∧ 0 < thread ∧ thread < wordBound

namespace Op

/-- What the operation does. -/
def exec (s : State) : Op → Except Fault State
  | sendIPC blocking doCall canGrant canGrantReply badge thread epptr =>
      s.sendIPC blocking doCall badge canGrant canGrantReply thread epptr
  | receiveIPC thread epptr capCanGrant isBlocking =>
      s.receiveIPC thread epptr capCanGrant isBlocking
  | sendFaultIPC badge canGrant tptr epptr => s.sendFaultIPC badge canGrant tptr epptr
  | cancelIPC tptr => s.cancelIPC tptr
  | cancelAllIPC epptr => s.cancelAllIPC epptr
  | cancelBadgedSends epptr badge => s.cancelBadgedSends epptr badge
  | doReplyTransfer sender receiver again => s.doReplyTransfer sender receiver again
  | sendSignal ntfnPtr badge => s.sendSignal ntfnPtr badge
  | receiveSignal thread ntfnPtr isBlocking => s.receiveSignal thread ntfnPtr isBlocking
  | cancelSignal threadPtr ntfnPtr => s.cancelSignal threadPtr ntfnPtr
  | cancelAllSignals ntfnPtr => s.cancelAllSignals ntfnPtr
  | bindNotification tcb ntfnPtr => .ok (s.decodeBindNotification tcb ntfnPtr)
  | unbindNotification tcb => .ok (s.unbindNotification tcb)
  | unbindMaybeNotification ntfnPtr => .ok (s.unbindMaybeNotification ntfnPtr)
  | suspend target => s.suspend target
  | restart target => s.restart target
  | setThreadState tptr ts => .ok (s.setThreadState tptr ts)

/-- What the callers see to. -/
def Allowed (s : State) : Op → Prop
  | sendIPC _ _ _ _ _ thread _ => Acting s thread
  | receiveIPC thread _ _ _ => Acting s thread
  | sendFaultIPC _ _ tptr _ => Acting s tptr
  | doReplyTransfer _ receiver _ => s.tsType receiver = .blockedOnReply
  | receiveSignal thread _ _ => Acting s thread
  | cancelSignal threadPtr ntfnPtr =>
      s.tsType threadPtr = .blockedOnNotification ∧ s.blockingObject threadPtr = ntfnPtr
  | setThreadState tptr ts => Free (s.tsType tptr) ∧ Free ts
  | _ => True

/-! ### What an operation may note down -/

/-- The operation sends the badge to the endpoint, for the thread. -/
def Sends (epptr thread badge : ℕ) : Op → Prop
  | sendIPC _ _ _ _ b t e => e = epptr ∧ t = thread ∧ b = badge
  | sendFaultIPC b _ t e => e = epptr ∧ t = thread ∧ b = badge
  | _ => False

/-- The operation receives from the endpoint, for the thread. -/
def Receives (epptr thread : ℕ) : Op → Prop
  | receiveIPC t e _ _ => e = epptr ∧ t = thread
  | _ => False

/-- The operation cancels what the thread sends to the endpoint with the badge. -/
def Cancels (epptr thread badge : ℕ) : Op → Prop
  | cancelIPC t => t = thread
  | suspend t => t = thread
  | restart t => t = thread
  | cancelAllIPC e => e = epptr
  | cancelBadgedSends e b => e = epptr ∧ b = badge
  | _ => False

/-- The event is one that the operation stands for, and a transfer has put the badge into the
register of the receiver. -/
def Explains (op : Op) (s' : State) (epptr : ℕ) : Rendezvous.Event ℕ ℕ → Prop
  | .send t b => op.Sends epptr t b
  | .receive r => op.Receives epptr r
  | .transfer t r b => (op.Sends epptr t b ∨ op.Receives epptr r) ∧ s'.badgeRegister r = b
  | .leaveSend t b => op.Cancels epptr t b
  | .leaveReceive _ => True

/-- The send or the receive that the operation must note down, and where: a thread that has a
signal pending does not receive. -/
def offers (s : State) : Op → Option (ℕ × Rendezvous.Event ℕ ℕ)
  | sendIPC true _ _ _ badge thread epptr => some (epptr, .send thread badge)
  | sendFaultIPC badge _ tptr epptr => some (epptr, .send tptr badge)
  | receiveIPC thread epptr _ true =>
      if signalFor s thread = none then some (epptr, .receive thread) else none
  | _ => none

/-- The badge that the operation signals at the notification. -/
def signals (ntfnPtr : ℕ) : Op → List ℕ
  | sendSignal n badge => if n = ntfnPtr then [badge] else []
  | _ => []

end Op

/-- What an operation does at an endpoint: it notes down its own send or receive, and nothing that
it does not do. -/
def Serves (op : Op) (s s' : State) (e : ℕ) : Prop :=
  ∃ es, s'.epTrace e = s.epTrace e ++ es ∧ (∀ v, op.offers s = some (e, v) → v ∈ es) ∧
    ∀ v ∈ es, op.Explains s' e v

/-- What an operation does at a notification: the badges it signals, and the words it delivers, each
of which is in the badge register of its thread. -/
def Delivers (op : Op) (s s' : State) (n : ℕ) : Prop :=
  s'.ntfnSent n = s.ntfnSent n ++ op.signals n ∧
    ∃ words, s'.ntfnDelivered n = s.ntfnDelivered n ++ words ∧
      ∀ p ∈ words, s'.badgeRegister p.1 = p.2

/-- An allowed operation returns. -/
def IpcStep (s : State) (op : Op) (s' : State) : Prop := op.Allowed s ∧ op.exec s = .ok s'

/-- The queues are in order and the signals are conserved. -/
def IpcInv (s : State) : Prop := (∃ L, Wf s L) ∧ Conserved s

/-- The state before anything has happened: all endpoints and notifications are idle, nothing is
bound, and nobody waits. -/
structure Fresh (s : State) : Prop where
  free : ∀ t, Free (s.tsType t)
  epState : ∀ e, s.epState e = .idle
  epQueue : ∀ e, s.epQueue e = .empty
  ntfnState : ∀ n, s.ntfnState n = .idle
  ntfnQueue : ∀ n, s.ntfnQueue n = .empty
  tcbBound : ∀ t, s.tcbBoundNotification t = none
  ntfnBound : ∀ n, s.ntfnBoundTCB n = none
  epTrace : ∀ e, s.epTrace e = []
  sent : ∀ n, s.ntfnSent n = []
  delivered : ∀ n, s.ntfnDelivered n = []

variable {s s' s₀ : State} {ops : List Op} {L : Place → List ℕ} {t e n : ℕ}

lemma Fresh.inv (h : Fresh s) : IpcInv s := by
  have hwaits : ∀ t, s.waitsAt t = none := fun t => waitsAt_eq_none.mpr (h.free t)
  refine ⟨⟨fun _ => [], ?_⟩, fun n => ?_⟩
  · exact
      { placed := by
          refine ⟨fun p => ?_, fun p t => ?_⟩
          · have hqueue : s.queue p = .empty := by
              cases p with
              | ep e => exact h.epQueue e
              | ntfn n => exact h.ntfnQueue n
            rw [hqueue]
            exact .nil
          · rw [hwaits]
            simp
        address := fun t ht => absurd (hwaits t) ht
        ep_idle := fun e => by simp [h.epState]
        ep_send := fun e he => by simp [h.epState] at he
        ep_recv := fun e he => by simp [h.epState] at he
        ntfn_waiting := fun n => by simp [h.ntfnState]
        bound := fun t n => by simp [h.tcbBound, h.ntfnBound]
        ports := fun e => by
          rw [h.epTrace, State.port]
          simp [Port.replay, Port.empty] }
  · rw [h.sent, h.delivered, pendingWord_of_ne (by rw [h.ntfnState]; simp)]
    rfl

/-! ### Traces -/

/-- An operation with no send or receive of its own. -/
lemma serves_of_continues {op : Op} (hoffers : op.offers s = none)
    (h : Continues (op.Explains s') s s') : Serves op s s' e := by
  obtain ⟨es, htrace, hes⟩ := h e
  refine ⟨es, htrace, fun v hv => ?_, hes⟩
  rw [hoffers] at hv
  cases hv

lemma serves_of_eq {op : Op} (hoffers : op.offers s = none) (h : s'.epTrace = s.epTrace) :
    Serves op s s' e :=
  serves_of_continues hoffers (continues_of_eq h)

/-- An operation at the endpoint `e`. -/
lemma serves_update {op : Op} {es : List (Rendezvous.Event ℕ ℕ)}
    (htrace : s'.epTrace = update s.epTrace e (s.epTrace e ++ es))
    (hoffers : ∀ e' v, op.offers s = some (e', v) → e' = e ∧ v ∈ es)
    (hes : ∀ v ∈ es, op.Explains s' e v) (e' : ℕ) : Serves op s s' e' := by
  by_cases he : e' = e
  · subst he
    exact ⟨es, by rw [htrace, update_self], fun v hv => (hoffers e' v hv).2, hes⟩
  · exact ⟨[], by rw [htrace, update_of_ne he, List.append_nil],
      fun v hv => absurd (hoffers e' v hv).1 he, by simp⟩

/-- Leaving is explained, for a sender that the operation cancels. -/
lemma explains_leaving {op : Op} (h : op.Cancels e t (s.blockingIPCBadge t)) :
    op.Explains s' e (leaving s t) := by
  rw [leaving]
  split_ifs
  · exact h
  · exact True.intro

/-- The events of a send are explained by it. -/
lemma SendEvent.explains {op : Op} {b : ℕ} {v : Rendezvous.Event ℕ ℕ} (h : SendEvent s' t b v)
    (hop : op.Sends e t b) : op.Explains s' e v := by
  obtain rfl | ⟨r, rfl, hregister⟩ := h
  · exact hop
  · exact ⟨.inl hop, hregister⟩

/-- The events of a receive are explained by it. -/
lemma ReceiveEvent.explains {op : Op} {v : Rendezvous.Event ℕ ℕ} (h : ReceiveEvent s' t v)
    (hop : op.Receives e t) : op.Explains s' e v := by
  obtain rfl | ⟨u, b, rfl, hregister⟩ := h
  · exact hop
  · exact ⟨.inr hop, hregister⟩

/-- **Every operation notes down what it does**, and only that. -/
theorem Op.serves (op : Op) (hexec : op.exec s = .ok s') (e : ℕ) : Serves op s s' e := by
  -- the operations that log offer what they were called with, or remove threads that gave up
  cases op with
  | sendIPC blocking doCall canGrant canGrantReply badge thread epptr =>
      obtain ⟨es, htrace, hsend, hes⟩ := only_sendIPC _ _ _ _ _ _ _ _ _ hexec
      have hsends : (Op.sendIPC blocking doCall canGrant canGrantReply badge thread epptr).Sends
          epptr thread badge := ⟨rfl, rfl, rfl⟩
      refine serves_update htrace (fun e' v hv => ?_) (fun v hv => (hes v hv).explains hsends) e
      cases blocking with
      | false => cases hv
      | true =>
          obtain ⟨rfl, rfl⟩ := Prod.mk.inj (Option.some.inj hv)
          exact ⟨rfl, hsend rfl⟩
  | receiveIPC thread epptr capCanGrant isBlocking =>
      obtain ⟨es, htrace, hreceive, hes⟩ := only_receiveIPC _ _ _ _ _ _ hexec
      have hreceives : (Op.receiveIPC thread epptr capCanGrant isBlocking).Receives epptr thread :=
        ⟨rfl, rfl⟩
      refine serves_update htrace (fun e' v hv => ?_) (fun v hv => (hes v hv).explains hreceives) e
      cases isBlocking with
      | false => cases hv
      | true =>
          rw [Op.offers] at hv
          split_ifs at hv with hsignal
          obtain ⟨rfl, rfl⟩ := Prod.mk.inj (Option.some.inj hv)
          exact ⟨rfl, hreceive ⟨rfl, hsignal⟩⟩
  | sendFaultIPC badge canGrant tptr epptr =>
      obtain ⟨es, htrace, hsend, hes⟩ := only_sendFaultIPC _ _ _ _ _ _ hexec
      have hsends : (Op.sendFaultIPC badge canGrant tptr epptr).Sends epptr tptr badge :=
        ⟨rfl, rfl, rfl⟩
      refine serves_update htrace (fun e' v hv => ?_) (fun v hv => (hes v hv).explains hsends) e
      obtain ⟨rfl, rfl⟩ := Prod.mk.inj (Option.some.inj hv)
      exact ⟨rfl, hsend⟩
  | cancelIPC tptr =>
      refine serves_of_continues rfl (only_cancelIPC s tptr (fun _ => ?_) _ hexec)
      exact explains_leaving rfl
  | cancelAllIPC epptr =>
      refine serves_of_continues rfl (only_cancelAllIPC s epptr (fun _ _ => ?_) _ hexec)
      exact explains_leaving rfl
  | cancelBadgedSends epptr badge =>
      refine serves_of_continues rfl
        (only_cancelBadgedSends s epptr badge (fun _ _ hb => ?_) _ hexec)
      exact explains_leaving ⟨rfl, hb.symm⟩
  | doReplyTransfer sender receiver again =>
      exact serves_of_eq rfl (only_doReplyTransfer s sender receiver again _ hexec)
  | sendSignal ntfnPtr badge =>
      exact serves_of_continues rfl
        (only_sendSignal s ntfnPtr badge (fun _ _ => True.intro) _ hexec)
  | receiveSignal thread ntfnPtr isBlocking =>
      exact serves_of_eq rfl (only_receiveSignal s thread ntfnPtr isBlocking _ hexec)
  | cancelSignal threadPtr ntfnPtr =>
      exact serves_of_eq rfl (only_cancelSignal s threadPtr ntfnPtr _ hexec)
  | cancelAllSignals ntfnPtr =>
      exact serves_of_continues rfl (only_cancelAllSignals s ntfnPtr _ hexec)
  | bindNotification tcb ntfnPtr =>
      obtain rfl := Except.ok.inj hexec
      refine serves_of_eq rfl ?_
      rw [State.decodeBindNotification]
      split_ifs <;> rfl
  | unbindNotification tcb =>
      obtain rfl := Except.ok.inj hexec
      refine serves_of_eq rfl ?_
      rw [State.unbindNotification]
      cases s.tcbBoundNotification tcb <;> rfl
  | unbindMaybeNotification ntfnPtr =>
      obtain rfl := Except.ok.inj hexec
      refine serves_of_eq rfl ?_
      rw [State.unbindMaybeNotification]
      cases s.ntfnBoundTCB ntfnPtr <;> rfl
  | suspend target =>
      refine serves_of_continues rfl (only_suspend s target (fun _ => ?_) _ hexec)
      exact explains_leaving rfl
  | restart target =>
      refine serves_of_continues rfl (only_restart s target (fun _ => ?_) _ hexec)
      exact explains_leaving rfl
  | setThreadState tptr ts =>
      obtain rfl := Except.ok.inj hexec
      exact serves_of_eq rfl rfl

/-! ### Every step -/

/-- What an operation leaves: a state in order, with words that are where they were, or that a
thread has taken, or that a signal has brought. -/
def Op.Keeps (op : Op) (s s' : State) : Prop :=
  (∃ L, Wf s' L) ∧ ((∀ n, op.signals n = []) ∧ (Quiet s s' ∨ ∃ n t, Taken s n t s') ∨
    ∃ n badge, op = .sendSignal n badge ∧ Signalled s n badge s')

/-- The signals stay conserved. -/
lemma Op.Keeps.inv {op : Op} (h : op.Keeps s s') (hcons : Conserved s) : IpcInv s' := by
  refine ⟨h.1, ?_⟩
  obtain ⟨-, hquiet | ⟨n, t, htaken⟩⟩ | ⟨n, badge, -, hsignal⟩ := h.2
  · exact hcons.quiet hquiet
  · exact hcons.taken htaken
  · exact hcons.signalled hsignal

/-- One more word at one notification, which is in the register of its thread. -/
lemma delivered_snoc {m t w : ℕ} (hdelivered : s'.ntfnDelivered =
      update s.ntfnDelivered m (s.ntfnDelivered m ++ [(t, w)]))
    (hregister : s'.badgeRegister t = w) (n : ℕ) :
    ∃ words, s'.ntfnDelivered n = s.ntfnDelivered n ++ words ∧
      ∀ p ∈ words, s'.badgeRegister p.1 = p.2 := by
  rw [hdelivered]
  by_cases hn : n = m
  · subst hn
    refine ⟨[(t, w)], update_self .., fun p hp => ?_⟩
    rw [List.mem_singleton.mp hp]
    exact hregister
  · exact ⟨[], by rw [update_of_ne hn, List.append_nil], by simp⟩

/-- Every word that an operation delivers is in a register. -/
lemma Op.Keeps.delivers {op : Op} (h : op.Keeps s s') (n : ℕ) : Delivers op s s' n := by
  obtain ⟨hnone, hquiet | ⟨m, t, htaken⟩⟩ | ⟨m, badge, rfl, hsent, hsignal⟩ := h.2
  · refine ⟨by rw [hquiet.sent, hnone, List.append_nil], [], ?_, by simp⟩
    rw [hquiet.delivered, List.append_nil]
  · exact ⟨by rw [htaken.sent, hnone, List.append_nil],
      delivered_snoc htaken.delivered htaken.register n⟩
  · refine ⟨?_, ?_⟩
    · rw [hsent, Op.signals]
      by_cases hm : m = n
      · subst hm
        rw [update_self, if_pos rfl]
      · rw [update_of_ne (Ne.symm hm), if_neg hm, List.append_nil]
    · obtain ⟨t, -, hdelivered, hregister, -⟩ | ⟨hdelivered, -⟩ := hsignal
      · exact delivered_snoc hdelivered hregister n
      · exact ⟨[], by rw [hdelivered, List.append_nil], by simp⟩

/-- **Every step**: an allowed operation returns, and the state stays in order. -/
theorem Op.gives (op : Op) (h : IpcInv s) (hallowed : op.Allowed s) :
    Gives (op.exec s) (op.Keeps s) := by
  obtain ⟨⟨L, W⟩, -⟩ := h
  have hkept : ∀ {x}, (∀ n, op.signals n = []) → Gives x (Kept s) → Gives x (op.Keeps s) :=
    fun hnone hx => hx.mono fun _ hs' => ⟨hs'.1, .inl ⟨hnone, .inl hs'.2⟩⟩
  -- one case for each operation; only a signal and what takes it touch the words
  cases op with
  | sendIPC blocking doCall canGrant canGrantReply badge thread epptr =>
      exact hkept (fun _ => rfl) (W.sendIPC hallowed.1 hallowed.2 ..)
  | receiveIPC thread epptr capCanGrant isBlocking =>
      refine (W.receiveIPC hallowed.1 hallowed.2 epptr capCanGrant isBlocking).mono ?_
      rintro s' (hs' | ⟨W', n, -, htaken⟩)
      · exact ⟨hs'.1, .inl ⟨fun _ => rfl, .inl hs'.2⟩⟩
      · exact ⟨W', .inl ⟨fun _ => rfl, .inr ⟨n, thread, htaken⟩⟩⟩
  | sendFaultIPC badge canGrant tptr epptr =>
      exact hkept (fun _ => rfl) (W.sendFaultIPC hallowed.1 hallowed.2 ..)
  | cancelIPC tptr => exact hkept (fun _ => rfl) ((W.cancelIPC tptr).mono fun _ hs' => hs'.1)
  | cancelAllIPC epptr => exact hkept (fun _ => rfl) (W.cancelAllIPC epptr)
  | cancelBadgedSends epptr badge =>
      refine hkept (fun _ => rfl) ?_
      by_cases hsend : s.epState epptr = .send
      · exact (W.cancelBadgedSends hsend badge).mono fun _ hs' => ⟨⟨_, hs'.1⟩, hs'.2.1⟩
      · rw [exec, State.cancelBadgedSends, if_neg hsend]
        exact gives_pure ⟨⟨L, W⟩, .refl s⟩
  | doReplyTransfer sender receiver again =>
      exact hkept (fun _ => rfl) (W.doReplyTransfer hallowed sender again)
  | sendSignal ntfnPtr badge =>
      exact (W.sendSignal ntfnPtr badge).mono fun _ hs' => ⟨hs'.1, .inr ⟨_, _, rfl, hs'.2⟩⟩
  | receiveSignal thread ntfnPtr isBlocking =>
      refine (W.receiveSignal hallowed.1 hallowed.2 ntfnPtr isBlocking).mono ?_
      rintro s' (hs' | ⟨W', htaken⟩)
      · exact ⟨hs'.1, .inl ⟨fun _ => rfl, .inl hs'.2⟩⟩
      · exact ⟨W', .inl ⟨fun _ => rfl, .inr ⟨ntfnPtr, thread, htaken⟩⟩⟩
  | cancelSignal threadPtr ntfnPtr =>
      obtain ⟨hblocked, rfl⟩ := hallowed
      exact hkept (fun _ => rfl) ((W.cancelSignal hblocked).mono fun _ hs' => hs'.1)
  | cancelAllSignals ntfnPtr => exact hkept (fun _ => rfl) (W.cancelAllSignals ntfnPtr)
  | bindNotification tcb ntfnPtr =>
      exact hkept (fun _ => rfl) (gives_ok (W.decodeBindNotification tcb ntfnPtr))
  | unbindNotification tcb => exact hkept (fun _ => rfl) (gives_ok (W.unbindNotification tcb))
  | unbindMaybeNotification ntfnPtr =>
      exact hkept (fun _ => rfl) (gives_ok (W.unbindMaybeNotification ntfnPtr))
  | suspend target => exact hkept (fun _ => rfl) (W.suspend target)
  | restart target => exact hkept (fun _ => rfl) (W.restart target)
  | setThreadState tptr ts =>
      exact hkept (fun _ => rfl) (gives_ok ⟨⟨L, W.setThreadState hallowed.1 hallowed.2⟩,
        quiet_setThreadState tptr ts⟩)

/-- **Every run**: the state stays in order. -/
theorem ipcInv_run (hs : Fresh s₀) (hrun : Runs IpcStep s₀ ops s) : IpcInv s := by
  refine hrun.invariant IpcInv (fun s op s' hinv hstep => ?_) hs.inv
  obtain ⟨s'', hexec, hkeeps⟩ := op.gives hinv hstep.1
  rw [hstep.2] at hexec
  obtain rfl := Except.ok.inj hexec
  exact hkeeps.inv hinv.2

/-! ### Endpoints -/

/-- The threads `ts` are the queue of the endpoint: a well formed list without doubles, of those
who are blocked on the endpoint on the side that the tag says, in the order of their arrival. -/
structure EndpointInOrder (s : State) (e : ℕ) (ts : List ℕ) : Prop where
  links : Holds s.tcbEPNext s.tcbEPPrev (s.epQueue e) ts
  idle_iff : s.epState e = .idle ↔ s.epQueue e = .empty
  blocked : ∀ t, t ∈ ts ↔
    (s.tsType t = .blockedOnSend ∨ s.tsType t = .blockedOnReceive) ∧ s.blockingObject t = e
  senders : s.epState e = .send → ∀ t, t ∈ ts ↔ s.tsType t = .blockedOnSend ∧ s.blockingObject t = e
  receivers : s.epState e = .recv →
    ∀ t, t ∈ ts ↔ s.tsType t = .blockedOnReceive ∧ s.blockingObject t = e
  arrival : Port.replay (s.epTrace e) = some
    { senders := if s.epState e = .send then ts.map fun t => (t, s.blockingIPCBadge t) else []
      receivers := if s.epState e = .recv then ts else [] }

/-- The senders who wait at the endpoint, with their badges. -/
def waitingSends (s : State) (e : ℕ) (ts : List ℕ) : List (ℕ × ℕ) :=
  if s.epState e = .send then ts.map fun t => (t, s.blockingIPCBadge t) else []

/-- Every send is received once with its badge, or taken back, or waits; and what is received is
in the order of the sends. -/
structure SendsServed (s : State) (e : ℕ) (ts : List ℕ) : Prop where
  once : (sent (s.epTrace e)).Perm
    (transferred (s.epTrace e) ++ (takenBack (s.epTrace e) ++ waitingSends s e ts))
  inOrder : (transferred (s.epTrace e) ++ waitingSends s e ts).Sublist (sent (s.epTrace e))

/-- `cancelBadgedSends` restarts the senders with the badge and leaves the others in the queue. -/
def CancelsBadge (s : State) (e : ℕ) (ts : List ℕ) (badge : ℕ) : Prop :=
  ∃ s', s.cancelBadgedSends e badge = .ok s' ∧
    EndpointInOrder s' e (ts.filter fun t => s.blockingIPCBadge t ≠ badge) ∧
    s'.tsType = fun t =>
      if t ∈ ts ∧ s.blockingIPCBadge t = badge then .restart else s.tsType t

/-- A queue in order. -/
lemma Wf.endpointInOrder (W : Wf s L) (e : ℕ) : EndpointInOrder s e (L (.ep e)) where
  links := W.placed.holds (.ep e)
  idle_iff := by
    have hqueue : s.epQueue e = ⟨(L (.ep e)).head?, (L (.ep e)).getLast?⟩ :=
      (W.placed.holds (.ep e)).queue_eq
    rw [W.ep_idle, hqueue]
    simp [Queue.empty]
  blocked t := W.mem_ep
  senders hsend t := by
    rw [W.mem_ep]
    constructor
    · rintro ⟨htype, hobject⟩
      exact ⟨W.ep_send e hsend t (W.mem_ep.mpr ⟨htype, hobject⟩), hobject⟩
    · rintro ⟨htype, hobject⟩
      exact ⟨.inl htype, hobject⟩
  receivers hrecv t := by
    rw [W.mem_ep]
    constructor
    · rintro ⟨htype, hobject⟩
      exact ⟨W.ep_recv e hrecv t (W.mem_ep.mpr ⟨htype, hobject⟩), hobject⟩
    · rintro ⟨htype, hobject⟩
      exact ⟨.inr htype, hobject⟩
  arrival := W.ports e

lemma Wf.cancelsBadge (W : Wf s L) (hsend : s.epState e = .send) (badge : ℕ) :
    CancelsBadge s e (L (.ep e)) badge := by
  obtain ⟨s', hexec, W', -, -, htypes⟩ := W.cancelBadgedSends hsend badge
  have horder := W'.endpointInOrder e
  rw [update_self] at horder
  exact ⟨s', hexec, horder, htypes⟩

/-- **Endpoints.** In every state of every run every endpoint is in order and has served its
senders first come first served, `cancelBadgedSends` takes out exactly the senders with the
badge, and no operation stops at an assertion or a null pointer. Every operation notes down what
it does at the endpoint: a transfer leaves the badge of the sender in the register of the
receiver, and only a cancelling operation takes a send back. -/
theorem endpoints_consistent (hs : Fresh s₀) (hrun : Runs IpcStep s₀ ops s) (e : ℕ) :
    (∃ ts, EndpointInOrder s e ts ∧ SendsServed s e ts ∧
      (s.epState e = .send → ∀ badge, CancelsBadge s e ts badge)) ∧
    ∀ op : Op, op.Allowed s → ∃ s', op.exec s = .ok s' ∧ Serves op s s' e := by
  have hinv := ipcInv_run hs hrun
  obtain ⟨⟨L, W⟩, -⟩ := id hinv
  refine ⟨⟨L (.ep e), W.endpointInOrder e, ?_, fun hsend => W.cancelsBadge hsend⟩, fun op hop => ?_⟩
  · exact ⟨replay_sent (W.ports e), replay_order (W.ports e)⟩
  · obtain ⟨s', hexec, -⟩ := op.gives hinv hop
    exact ⟨s', hexec, op.serves hexec e⟩

/-! ### Notifications -/

/-- A thread that acts while a signal is pending takes the pending word: with `receiveSignal`, and
with `receiveIPC` if it is the bound thread. -/
def Collects (s : State) (n t : ℕ) : Prop :=
  (∀ isBlocking, ∃ s', s.receiveSignal t n isBlocking = .ok s' ∧ Taken s n t s') ∧
    (s.tcbBoundNotification t = some n → ∀ e capCanGrant isBlocking,
      ∃ s', s.receiveIPC t e capCanGrant isBlocking = .ok s' ∧ Taken s n t s')

lemma Wf.collects (W : Wf s L) (hactive : s.ntfnState n = .active) (t : ℕ) : Collects s n t := by
  refine ⟨fun isBlocking => ⟨_, ?_, (W.take hactive t rfl).2⟩,
    fun hbound e capCanGrant isBlocking => ⟨_, ?_, (W.take hactive t rfl).2⟩⟩
  · rw [State.receiveSignal, if_pos hactive]
    rfl
  · have hsignal : signalFor s t = some n := by
      rw [signalFor, Option.filter_eq_some_iff]
      exact ⟨hbound, by rw [hactive]; rfl⟩
    show (signalFor s t).elim _ _ = _
    rw [hsignal, Option.elim_some, State.completeSignal, assert, if_pos hactive]
    rfl

/-- **Notifications.** In every state of every run the words delivered and the pending word have
the bits of the badges signalled, a notification waits exactly if its queue is not empty, a
signal wakes at most one thread, a thread that collects a pending signal has the pending word in
its badge register, and the bound pointers refer to each other. Every word that an operation
delivers is in the badge register of the thread that got it. -/
theorem signals_conserved (hs : Fresh s₀) (hrun : Runs IpcStep s₀ ops s) (n : ℕ) :
    orAll (s.ntfnSent n) = orAll ((s.ntfnDelivered n).map Prod.snd) ||| s.pendingWord n ∧
    (s.ntfnState n = .waiting ↔ s.ntfnQueue n ≠ .empty) ∧
    (s.ntfnState n = .active → s.ntfnQueue n = .empty) ∧
    (∀ badge, ∃ s', s.sendSignal n badge = .ok s' ∧ Signalled s n badge s') ∧
    (s.ntfnState n = .active → ∀ t, Collects s n t) ∧
    (∀ t, s.tcbBoundNotification t = some n ↔ s.ntfnBoundTCB n = some t) ∧
    ∀ op : Op, op.Allowed s → ∃ s', op.exec s = .ok s' ∧ Delivers op s s' n := by
  have hinv := ipcInv_run hs hrun
  obtain ⟨⟨L, W⟩, hcons⟩ := id hinv
  have hqueue : s.ntfnQueue n = ⟨(L (.ntfn n)).head?, (L (.ntfn n)).getLast?⟩ :=
    (W.placed.holds (.ntfn n)).queue_eq
  have hwaiting : s.ntfnState n = .waiting ↔ s.ntfnQueue n ≠ .empty := by
    rw [W.ntfn_waiting, hqueue]
    simp [Queue.empty]
  refine ⟨hcons n, hwaiting, fun hactive => ?_, fun badge => ?_, fun hactive => W.collects hactive,
    fun t => W.bound t n, fun op hop => ?_⟩
  · by_contra hne
    rw [hwaiting.mpr hne] at hactive
    cases hactive
  · obtain ⟨s', hexec, -, hsignal⟩ := W.sendSignal n badge
    exact ⟨s', hexec, hsignal⟩
  · obtain ⟨s', hexec, hkeeps⟩ := op.gives hinv hop
    exact ⟨s', hexec, hkeeps.delivers n⟩

/-! ### A first state -/

/-- Threads that run, and nothing else. -/
def boot : State where
  tsType := fun _ => .running
  blockingObject := fun _ => 0
  blockingIPCBadge := fun _ => 0
  blockingIPCCanGrant := fun _ => false
  blockingIPCCanGrantReply := fun _ => false
  blockingIPCIsCall := fun _ => false
  tcbFault := fun _ => false
  badgeRegister := fun _ => 0
  tcbEPNext := fun _ => none
  tcbEPPrev := fun _ => none
  tcbBoundNotification := fun _ => none
  epState := fun _ => .idle
  epQueue := fun _ => .empty
  ntfnState := fun _ => .idle
  ntfnQueue := fun _ => .empty
  ntfnMsgIdentifier := fun _ => 0
  ntfnBoundTCB := fun _ => none
  epTrace := fun _ => []
  ntfnSent := fun _ => []
  ntfnDelivered := fun _ => []

lemma fresh_boot : Fresh boot where
  free := fun _ => show Free .running by decide
  epState := fun _ => rfl
  epQueue := fun _ => rfl
  ntfnState := fun _ => rfl
  ntfnQueue := fun _ => rfl
  tcbBound := fun _ => rfl
  ntfnBound := fun _ => rfl
  epTrace := fun _ => rfl
  sent := fun _ => rfl
  delivered := fun _ => rfl

/-- Thread 1 waits to send at endpoint 9, and thread 2 receives its badge. -/
theorem endpoints_consistent_send :
    ∃ s s' ts, boot.sendIPC true false 5 false false 1 9 = .ok s ∧ s.epState 9 = .send ∧
      EndpointInOrder s 9 ts ∧ s.receiveIPC 2 9 false true = .ok s' ∧
      Serves (.receiveIPC 2 9 false true) s s' 9 ∧ s'.badgeRegister 2 = 5 ∧
      s'.epTrace 9 = [.send 1 5, .receive 2, .transfer 1 2 5] := by
  have hstep : IpcStep boot (.sendIPC true false false false 5 1 9) _ :=
    ⟨⟨by decide, by decide, by norm_num [wordBound]⟩, rfl⟩
  obtain ⟨⟨ts, horder, -⟩, hops⟩ := endpoints_consistent fresh_boot (.snoc .nil hstep) 9
  obtain ⟨s', hexec, hserves⟩ := hops (.receiveIPC 2 9 false true)
    ⟨by decide, by decide, by norm_num [wordBound]⟩
  obtain rfl := Except.ok.inj hexec
  exact ⟨_, _, ts, rfl, rfl, horder, hexec, hserves, rfl, rfl⟩

/-- A signal at notification 3 is pending, and thread 2 collects it. -/
theorem signals_conserved_pending :
    ∃ s s', boot.sendSignal 3 5 = .ok s ∧ s.pendingWord 3 = 5 ∧
      orAll (s.ntfnSent 3) = orAll ((s.ntfnDelivered 3).map Prod.snd) ||| s.pendingWord 3 ∧
      s.receiveSignal 2 3 true = .ok s' ∧ Taken s 3 2 s' ∧ s'.badgeRegister 2 = 5 ∧
      s'.ntfnDelivered 3 = [(2, 5)] := by
  have hstep : IpcStep boot (.sendSignal 3 5) _ := ⟨True.intro, rfl⟩
  obtain ⟨hcons, -, -, -, hcollects, -⟩ := signals_conserved fresh_boot (.snoc .nil hstep) 3
  obtain ⟨s', hexec, htaken⟩ := (hcollects rfl 2).1 true
  obtain rfl := Except.ok.inj hexec
  exact ⟨_, _, rfl, rfl, hcons, hexec, htaken, rfl, rfl⟩

end Kernel.Ipc
