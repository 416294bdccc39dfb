import Sel4Test.Kernel.Endpoint

/-!
Notifications: what `sendSignal`, `receiveSignal` and the functions around them do.

`Conserved s` says that at every notification the words that were delivered, together with the
pending word, have exactly the bits of the badges that were signalled.

* `Wf.sendSignal`: a signal goes to one thread, which it wakes, or into the pending word.
* `Wf.receiveSignal`, `Wf.receiveIPC`: a thread takes the pending word, or waits.
* `Wf.cancelIPC`: a thread leaves whatever it waits for, and no word is touched.
* `Wf.bound_bind`, `Wf.bound_unbind`: the two bound pointers are written together.
-/

namespace Kernel.Ipc

open Checked LinkedQueue Rendezvous
open Function (update update_self update_of_ne update_idem update_eq_self)

variable {s s' : State} {L : Place → List ℕ} {t u e n w : ℕ} {l r : List ℕ} {ts : TsType}

/-! ### Words -/

/-- The bits of all words. -/
def orAll (l : List ℕ) : ℕ := l.foldr (· ||| ·) 0

@[simp] lemma orAll_nil : orAll [] = 0 := rfl

lemma orAll_snoc (l : List ℕ) (w : ℕ) : orAll (l ++ [w]) = orAll l ||| w := by
  induction l with
  | nil => simp [orAll]
  | cons v l ih =>
      calc orAll (v :: l ++ [w]) = v ||| orAll (l ++ [w]) := rfl
        _ = v ||| (orAll l ||| w) := by rw [ih]
        _ = orAll (v :: l) ||| w := (Nat.or_assoc ..).symm

/-- Nothing that was signalled is lost, and nothing is invented. -/
def Conserved (s : State) : Prop :=
  ∀ n, orAll (s.ntfnSent n) = orAll ((s.ntfnDelivered n).map Prod.snd) ||| s.pendingWord n

/-- What a signal does: one thread is woken and gets the badge, or the badge becomes pending.
The thread is the bound thread, receiving from an endpoint, or the first one that waits. -/
def Signalled (s : State) (n badge : ℕ) (s' : State) : Prop :=
  s'.ntfnSent = update s.ntfnSent n (s.ntfnSent n ++ [badge]) ∧
    ((∃ t, (s.ntfnBoundTCB n = some t ∧ s.tsType t = .blockedOnReceive ∨
          (s.ntfnQueue n).head = some t) ∧
        s'.ntfnDelivered = update s.ntfnDelivered n (s.ntfnDelivered n ++ [(t, badge)]) ∧
        s'.badgeRegister t = badge ∧ s'.pendingWord = s.pendingWord ∧ s'.tsType t = .running ∧
        ∀ u, u ≠ t → s'.tsType u = s.tsType u) ∨
      s'.ntfnDelivered = s.ntfnDelivered ∧
        s'.pendingWord = update s.pendingWord n (s.pendingWord n ||| badge) ∧ s'.tsType = s.tsType)

/-- A thread takes the pending word. -/
structure Taken (s : State) (n t : ℕ) (s' : State) : Prop where
  sent : s'.ntfnSent = s.ntfnSent
  delivered : s'.ntfnDelivered =
    update s.ntfnDelivered n (s.ntfnDelivered n ++ [(t, s.pendingWord n)])
  register : s'.badgeRegister t = s.pendingWord n
  pending : s'.pendingWord = update s.pendingWord n 0

lemma Conserved.quiet (h : Conserved s) (hquiet : Quiet s s') : Conserved s' := by
  intro n
  rw [hquiet.sent, hquiet.delivered, hquiet.pending]
  exact h n

lemma Conserved.signalled {badge : ℕ} (h : Conserved s) (hsignal : Signalled s n badge s') :
    Conserved s' := by
  intro m
  obtain ⟨hsent, ⟨t, -, hdelivered, -, hpending, -⟩ | ⟨hdelivered, hpending, -⟩⟩ := hsignal
  · rw [hsent, hdelivered, hpending]
    by_cases hm : m = n
    · subst hm
      rw [update_self, update_self, List.map_append, List.map_singleton, orAll_snoc, orAll_snoc, h m]
      calc orAll ((s.ntfnDelivered m).map Prod.snd) ||| s.pendingWord m ||| badge
          = orAll ((s.ntfnDelivered m).map Prod.snd) ||| (s.pendingWord m ||| badge) :=
            Nat.or_assoc ..
        _ = orAll ((s.ntfnDelivered m).map Prod.snd) ||| (badge ||| s.pendingWord m) := by
            rw [Nat.or_comm badge]
        _ = orAll ((s.ntfnDelivered m).map Prod.snd) ||| badge ||| s.pendingWord m :=
            (Nat.or_assoc ..).symm
    · rw [update_of_ne hm, update_of_ne hm]
      exact h m
  · rw [hsent, hdelivered, hpending]
    by_cases hm : m = n
    · subst hm
      rw [update_self, update_self, orAll_snoc, h m, Nat.or_assoc]
    · rw [update_of_ne hm, update_of_ne hm]
      exact h m

lemma Conserved.taken (h : Conserved s) (htaken : Taken s n t s') : Conserved s' := by
  intro m
  rw [htaken.sent, htaken.delivered, htaken.pending]
  by_cases hm : m = n
  · subst hm
    rw [update_self, update_self, List.map_append, List.map_singleton, orAll_snoc, Nat.or_zero]
    exact h m
  · rw [update_of_ne hm, update_of_ne hm]
    exact h m

lemma pendingWord_of_ne (h : s.ntfnState n ≠ .active) : s.pendingWord n = 0 := if_neg h

lemma pendingWord_of_active (h : s.ntfnState n = .active) :
    s.pendingWord n = s.ntfnMsgIdentifier n := if_pos h

/-- The pending words, when the state of one notification has changed. -/
lemma pendingWord_update (state : NtfnState) {word : ℕ}
    (hstate : s'.ntfnState = update s.ntfnState n state)
    (hword : ∀ m, m ≠ n → s'.ntfnMsgIdentifier m = s.ntfnMsgIdentifier m)
    (hn : s'.pendingWord n = word) : s'.pendingWord = update s.pendingWord n word := by
  funext m
  by_cases hm : m = n
  · subst hm
    rw [update_self, hn]
  · rw [update_of_ne hm, State.pendingWord, State.pendingWord, hstate, update_of_ne hm, hword m hm]

/-- A notification without a pending word changes to a state without one. -/
lemma pendingWord_keep (state : NtfnState) (hstate : s'.ntfnState = update s.ntfnState n state)
    (hword : s'.ntfnMsgIdentifier = s.ntfnMsgIdentifier) (hold : s.ntfnState n ≠ .active)
    (hnew : state ≠ .active) : s'.pendingWord = s.pendingWord := by
  have hn : s'.pendingWord n = s.pendingWord n := by
    rw [pendingWord_of_ne hold, pendingWord_of_ne]
    rwa [hstate, update_self]
  rw [pendingWord_update state hstate (fun m _ => by rw [hword]) hn, update_eq_self]

/-! ### Threads that stop to wait -/

/-- A thread leaves an endpoint without a transfer. -/
lemma leave_eq : ((s.epRemove e t).noteLeave e t).setThreadState t ts =
    { s.epRemove e t with
      tsType := update s.tsType t ts
      badgeRegister := s.badgeRegister
      epTrace := update s.epTrace e (s.epTrace e ++ [leaving s t]) } := by
  obtain ⟨next, prev, states, queues, h⟩ := epRemove_eq s e t
  rw [h]
  rfl

lemma tsType_ntfnRemove : (s.ntfnRemove n t).tsType = s.tsType := by
  obtain ⟨next, prev, queues, h⟩ := ntfnRemove_eq s n t
  rw [h]

lemma quiet_ntfnRemove (t : ℕ) (hwaiting : s.ntfnState n = .waiting) :
    Quiet s (s.ntfnRemove n t) := by
  obtain ⟨next, prev, queues, h⟩ := ntfnRemove_eq s n t
  rw [h]
  refine ⟨rfl, rfl, ?_⟩
  split_ifs
  · exact pendingWord_keep .idle rfl rfl (by rw [hwaiting]; simp) (by simp)
  · rfl

namespace Wf

/-- **`cancelSignal`**: the thread leaves the notification. -/
theorem cancelSignal (W : Wf s L) (ht : s.tsType t = .blockedOnNotification) :
    Gives (s.cancelSignal t (s.blockingObject t)) fun s' =>
      Kept s s' ∧ Free (s'.tsType t) ∧ ∀ u, u ≠ t → s'.tsType u = s.tsType u := by
  rw [State.cancelSignal]
  have hmem : t ∈ L (.ntfn (s.blockingObject t)) := W.mem_ntfn.mpr ⟨ht, rfl⟩
  have hwaiting : s.ntfnState (s.blockingObject t) = .waiting :=
    (W.ntfn_waiting _).mpr (List.ne_nil_of_mem hmem)
  obtain ⟨l, r, hL⟩ := List.append_of_mem hmem
  refine (gives_assert hwaiting).bind fun _ _ => ?_
  have hquiet := quiet_ntfnRemove t hwaiting
  refine gives_pure ⟨⟨⟨_, W.ntfnLeave hL (by decide)⟩, hquiet.trans (quiet_setThreadState ..)⟩,
    ?_, ?_⟩
  · rw [tsType_setThreadState, update_self]
    decide
  · intro u hu
    rw [tsType_setThreadState, update_of_ne hu, tsType_ntfnRemove]

/-- **`cancelIPC`**: the thread leaves the queue that it is in. -/
theorem cancelIPC (W : Wf s L) (t : ℕ) :
    Gives (s.cancelIPC t) fun s' =>
      Kept s s' ∧ Free (s'.tsType t) ∧ ∀ u, u ≠ t → s'.tsType u = s.tsType u := by
  rw [State.cancelIPC]
  by_cases hep : s.tsType t = .blockedOnSend ∨ s.tsType t = .blockedOnReceive
  · rw [if_pos hep]
    have hmem : t ∈ L (.ep (s.blockingObject t)) := W.mem_ep.mpr ⟨hep, rfl⟩
    have hbusy : s.epState (s.blockingObject t) ≠ .idle := by
      intro h
      rw [(W.ep_idle _).mp h] at hmem
      cases hmem
    obtain ⟨l, r, hL⟩ := List.append_of_mem hmem
    refine (gives_assert hbusy).bind fun _ _ => ?_
    show Gives (pure (((s.epRemove _ t).noteLeave _ t).setThreadState t .inactive)) _
    rw [leave_eq]
    refine gives_pure ⟨⟨⟨_, W.epLeave hL (by decide) _ (W.foldlM_leave hL)⟩, ?_⟩, ?_, ?_⟩
    · obtain ⟨next, prev, states, queues, h⟩ := epRemove_eq s (s.blockingObject t) t
      rw [h]
      exact ⟨rfl, rfl, rfl⟩
    · show Free (update s.tsType t .inactive t)
      rw [update_self]
      decide
    · intro u hu
      exact update_of_ne hu ..
  · rw [if_neg hep]
    by_cases hntfn : s.tsType t = .blockedOnNotification
    · rw [if_pos hntfn]
      exact W.cancelSignal hntfn
    · rw [if_neg hntfn]
      have hfree : Free (s.tsType t) := ⟨fun h => hep (.inl h), fun h => hep (.inr h), hntfn⟩
      by_cases hreply : s.tsType t = .blockedOnReply
      · rw [if_pos hreply]
        exact gives_pure ⟨⟨⟨L, W.frame (fun _ => .inl rfl) rfl rfl rfl rfl rfl rfl
          (fun _ => Iff.rfl) rfl rfl rfl rfl⟩, rfl, rfl, rfl⟩, hfree, fun _ _ => rfl⟩
      · rw [if_neg hreply]
        exact gives_pure ⟨⟨⟨L, W⟩, .refl s⟩, hfree, fun _ _ => rfl⟩

/-- `suspend`. -/
theorem suspend (W : Wf s L) (t : ℕ) : Gives (s.suspend t) (Kept s) := by
  rw [State.suspend]
  refine (W.cancelIPC t).bind ?_
  rintro s₁ ⟨⟨⟨L₁, W₁⟩, hquiet⟩, hfree, -⟩
  exact gives_pure (W₁.answer hquiet hfree (by decide))

/-- `restart`. -/
theorem restart (W : Wf s L) (t : ℕ) : Gives (s.restart t) (Kept s) := by
  rw [State.restart]
  by_cases hstopped : s.isStopped t
  · rw [if_pos hstopped]
    refine (W.cancelIPC t).bind ?_
    rintro s₁ ⟨⟨⟨L₁, W₁⟩, hquiet⟩, hfree, -⟩
    exact gives_pure (W₁.answer hquiet hfree (by decide))
  · rw [if_neg hstopped]
    exact gives_pure ⟨⟨L, W⟩, .refl s⟩

/-- `sendFaultIPC`. -/
theorem sendFaultIPC (W : Wf s L) (ht : Free (s.tsType t)) (haddr : 0 < t ∧ t < wordBound)
    (badge : ℕ) (canGrant : Bool) (e : ℕ) :
    Gives (s.sendFaultIPC badge canGrant t e) (Kept s) := by
  rw [State.sendFaultIPC]
  have W' : Wf { s with tcbFault := update s.tcbFault t true } L :=
    W.frame (fun _ => .inl rfl) rfl rfl rfl rfl rfl rfl (fun _ => Iff.rfl) rfl rfl rfl rfl
  refine (W'.sendIPC ht haddr true true canGrant true badge e).mono ?_
  rintro s₁ ⟨hwf, hquiet⟩
  exact ⟨hwf, hquiet.sent, hquiet.delivered, hquiet.pending⟩

/-- `doReplyTransfer`. -/
theorem doReplyTransfer (W : Wf s L) (hreply : s.tsType t = .blockedOnReply) (sender : ℕ)
    (restart : Bool) : Gives (s.doReplyTransfer sender t restart) (Kept s) := by
  have hfree : Free (s.tsType t) := by
    rw [hreply]
    decide
  rw [State.doReplyTransfer]
  refine (gives_assert hreply).bind fun _ _ => gives_pure ?_
  by_cases hfault : s.tcbFault t
  · rw [if_pos hfault]
    have W' : Wf { s with tcbFault := update s.tcbFault t false } L :=
      W.frame (fun _ => .inl rfl) rfl rfl rfl rfl rfl rfl (fun _ => Iff.rfl) rfl rfl rfl rfl
    cases restart with
    | true => exact W'.answer ⟨rfl, rfl, rfl⟩ hfree (by decide)
    | false => exact W'.answer ⟨rfl, rfl, rfl⟩ hfree (by decide)
  · rw [if_neg hfault]
    have W' : Wf (s.doIPCTransfer sender none 0 t) L :=
      W.frame (fun _ => .inl rfl) rfl rfl rfl rfl rfl rfl (fun _ => Iff.rfl) rfl rfl rfl rfl
    exact W'.answer ⟨rfl, rfl, rfl⟩ hfree (by decide)

/-! ### Words on their way -/

/-- A thread takes the pending word. -/
lemma take (W : Wf s L) (hactive : s.ntfnState n = .active) (t : ℕ)
    (hs' : s' = { s.deliver n t (s.ntfnMsgIdentifier n) with
      ntfnState := update s.ntfnState n .idle }) : Wf s' L ∧ Taken s n t s' := by
  subst hs'
  refine ⟨W.frame (fun _ => .inl rfl) rfl rfl rfl rfl rfl rfl (fun m => ?_) rfl rfl rfl rfl, rfl, ?_,
    ?_, ?_⟩
  · show update s.ntfnState n .idle m = .waiting ↔ _
    by_cases hm : m = n
    · subst hm
      simp [hactive]
    · rw [update_of_ne hm]
  · rw [pendingWord_of_active hactive]
    rfl
  · rw [pendingWord_of_active hactive]
    exact update_self ..
  · refine pendingWord_update .idle rfl (fun _ _ => rfl) (pendingWord_of_ne ?_)
    show update s.ntfnState n .idle n ≠ .active
    simp

/-- **`receiveIPC`**: a pending word of the bound notification comes first. -/
theorem receiveIPC (W : Wf s L) (ht : Free (s.tsType t)) (haddr : 0 < t ∧ t < wordBound)
    (e : ℕ) (capCanGrant isBlocking : Bool) :
    Gives (s.receiveIPC t e capCanGrant isBlocking) fun s' =>
      Kept s s' ∨ (∃ L', Wf s' L') ∧ ∃ n, s.tcbBoundNotification t = some n ∧ Taken s n t s' := by
  rw [State.receiveIPC]
  cases hbound : (s.tcbBoundNotification t).filter fun n => s.ntfnState n = .active with
  | none => exact (W.receiveMessage ht haddr e capCanGrant isBlocking).mono fun _ h => .inl h
  | some n =>
      rw [Option.filter_eq_some_iff, decide_eq_true_eq] at hbound
      rw [Option.elim_some, State.completeSignal]
      refine (gives_assert hbound.2).bind fun _ _ => ?_
      obtain ⟨W', htaken⟩ := W.take hbound.2 t rfl
      exact gives_pure (.inr ⟨⟨L, W'⟩, n, hbound.1, htaken⟩)

/-- **`receiveSignal`**. -/
theorem receiveSignal (W : Wf s L) (ht : Free (s.tsType t)) (haddr : 0 < t ∧ t < wordBound)
    (n : ℕ) (isBlocking : Bool) :
    Gives (s.receiveSignal t n isBlocking) fun s' =>
      Kept s s' ∨ (∃ L', Wf s' L') ∧ Taken s n t s' := by
  have hwaits : s.waitsAt t = none := waitsAt_eq_none.mpr ht
  rw [State.receiveSignal]
  by_cases hactive : s.ntfnState n = .active
  · rw [if_pos hactive]
    obtain ⟨W', htaken⟩ := W.take hactive t rfl
    exact gives_pure (.inr ⟨⟨L, W'⟩, htaken⟩)
  · rw [if_neg hactive]
    cases isBlocking with
    | false =>
        exact gives_pure (.inl ⟨⟨L, W.frame (fun _ => .inl rfl) rfl rfl rfl rfl rfl rfl
          (fun _ => Iff.rfl) rfl rfl rfl rfl⟩, rfl, rfl, rfl⟩)
    | true =>
        rw [if_pos rfl]
        refine Gives.bind (W.append hwaits (.ntfn n) ?_ ?_) ?_
        · rfl
        · rfl
        rintro ⟨q, s₁⟩ ⟨next, prev, rfl, hplaced⟩
        exact gives_pure (.inl ⟨⟨_, W.ntfnJoin hwaits haddr hplaced rfl⟩, rfl, rfl,
          pendingWord_keep .waiting rfl rfl hactive (by simp)⟩)

/-- **`cancelAllSignals`**. -/
theorem cancelAllSignals (W : Wf s L) (n : ℕ) : Gives (s.cancelAllSignals n) (Kept s) := by
  rw [State.cancelAllSignals]
  by_cases hwaiting : s.ntfnState n = .waiting
  · rw [if_pos hwaiting]
    have hhead : (s.ntfnQueue n).head = (L (.ntfn n)).head? := (W.placed.holds (.ntfn n)).head_eq
    show Gives (follow _ (s.ntfnQueue n).head _) _
    rw [hhead]
    -- the threads `done` have left the queue of the beginning
    refine (Gives.follow (fun ts v => ∃ done, L (.ntfn n) = done ++ ts ∧ v = { s with
        tsType := fun u => if u ∈ done then .restart else s.tsType u
        ntfnState := update s.ntfnState n .idle
        ntfnQueue := update s.ntfnQueue n .empty }) ?_ ?_ (W.length_lt (.ntfn n))).mono ?_
    · rintro t ts v ⟨done, hL, rfl⟩
      refine ⟨W.next_of_split hL, done ++ [t], by rw [hL]; simp, ?_⟩
      simp only [State.setThreadState, restart_snoc]
    · exact ⟨[], rfl, by simp⟩
    · rintro v ⟨done, hL, rfl⟩
      rw [List.append_nil] at hL
      subst hL
      exact ⟨⟨_, W.ntfnClear rfl⟩, rfl, rfl, pendingWord_keep .idle rfl rfl
        (by rw [hwaiting]; simp) (by simp)⟩
  · rw [if_neg hwaiting]
    exact gives_pure ⟨⟨L, W⟩, .refl s⟩

/-- A badge becomes the pending word, or a part of it. -/
lemma store (W : Wf s L) (hwaiting : s.ntfnState n ≠ .waiting) (badge : ℕ)
    (hs' : s' = { s with
      ntfnSent := update s.ntfnSent n (s.ntfnSent n ++ [badge])
      ntfnState := update s.ntfnState n .active
      ntfnMsgIdentifier := update s.ntfnMsgIdentifier n (s.pendingWord n ||| badge) }) :
    Wf s' L ∧ Signalled s n badge s' := by
  have hstate : s'.ntfnState = update s.ntfnState n .active := by rw [hs']
  have hword : s'.ntfnMsgIdentifier =
      update s.ntfnMsgIdentifier n (s.pendingWord n ||| badge) := by rw [hs']
  refine ⟨?_, by rw [hs'], .inr ⟨by rw [hs'], ?_, by rw [hs']⟩⟩
  · subst hs'
    refine W.frame (fun _ => .inl rfl) rfl rfl rfl rfl rfl rfl (fun m => ?_) rfl rfl rfl rfl
    rw [hstate]
    by_cases hm : m = n
    · subst hm
      simp [hwaiting]
    · rw [update_of_ne hm]
  · refine pendingWord_update .active hstate (fun m hm => by rw [hword, update_of_ne hm]) ?_
    rw [pendingWord_of_active (by rw [hstate, update_self]), hword, update_self]

lemma deliver (W : Wf s L) (n t word : ℕ) : Wf (s.deliver n t word) L :=
  W.frame (fun _ => .inl rfl) rfl rfl rfl rfl rfl rfl (fun _ => Iff.rfl) rfl rfl rfl rfl

/-- A thread that runs is given the badge. -/
lemma signalled_deliver {badge : ℕ}
    (hsent : s'.ntfnSent = update s.ntfnSent n (s.ntfnSent n ++ [badge]))
    (hdelivered : s'.ntfnDelivered = s.ntfnDelivered) (hpending : s'.pendingWord = s.pendingWord)
    (hwho : s.ntfnBoundTCB n = some t ∧ s.tsType t = .blockedOnReceive ∨
      (s.ntfnQueue n).head = some t)
    (htype : s'.tsType t = .running) (hother : ∀ u, u ≠ t → s'.tsType u = s.tsType u) :
    Signalled s n badge (s'.deliver n t badge) := by
  refine ⟨hsent, .inl ⟨t, hwho, ?_, update_self .., hpending, htype, hother⟩⟩
  rw [← hdelivered]
  rfl

/-- **`sendSignal`** wakes one thread or adds to the pending word. -/
theorem sendSignal (W : Wf s L) (n badge : ℕ) :
    Gives (s.sendSignal n badge) fun s' => (∃ L', Wf s' L') ∧ Signalled s n badge s' := by
  obtain ⟨s₀, hs₀⟩ : ∃ s₀ : State, s₀ = { s with
    ntfnSent := update s.ntfnSent n (s.ntfnSent n ++ [badge]) } := ⟨_, rfl⟩
  have W₀ : Wf s₀ L := by
    rw [hs₀]
    exact W.frame (fun _ => .inl rfl) rfl rfl rfl rfl rfl rfl (fun _ => Iff.rfl) rfl rfl rfl rfl
  have hsent₀ : s₀.ntfnSent = update s.ntfnSent n (s.ntfnSent n ++ [badge]) := by rw [hs₀]
  have hdelivered₀ : s₀.ntfnDelivered = s.ntfnDelivered := by rw [hs₀]
  have hpending₀ : s₀.pendingWord = s.pendingWord := by
    rw [hs₀]
    rfl
  have htypes₀ : s₀.tsType = s.tsType := by rw [hs₀]
  -- by the state of the notification; where it is idle, the bound thread may be receiving
  rw [State.sendSignal]
  by_cases hidle : s.ntfnState n = .idle
  · show Gives (if s.ntfnState n = .idle then _ else _) _
    rw [if_pos hidle]
    have hnone : s.pendingWord n = 0 := pendingWord_of_ne (by rw [hidle]; simp)
    obtain ⟨W', hstored⟩ := W.store (by rw [hidle]; simp) badge rfl
    rw [hnone, Nat.zero_or] at W' hstored
    show Gives ((s.ntfnBoundTCB n).elim _ _) _
    cases hbound : s.ntfnBoundTCB n with
    | none => exact gives_pure ⟨⟨L, W'⟩, hstored⟩
    | some t =>
        show Gives (if s.tsType t = .blockedOnReceive then _ else _) _
        by_cases hreceive : s.tsType t = .blockedOnReceive
        · rw [if_pos hreceive, ← hs₀]
          refine (W₀.cancelIPC t).bind ?_
          rintro s₁ ⟨⟨⟨L₁, W₁⟩, hquiet⟩, hfree, hother⟩
          rw [htypes₀] at hother
          have hwoken := hquiet.trans (quiet_setThreadState t .running)
          refine gives_pure ⟨⟨L₁, (W₁.setThreadState hfree (by decide)).deliver n t badge⟩,
            signalled_deliver (hwoken.sent.trans hsent₀) (hwoken.delivered.trans hdelivered₀)
              (hwoken.pending.trans hpending₀) (.inl ⟨hbound, hreceive⟩) (update_self ..)
              fun u hu => ?_⟩
          rw [tsType_setThreadState, update_of_ne hu, hother u hu]
        · rw [if_neg hreceive]
          exact gives_pure ⟨⟨L, W'⟩, hstored⟩
  · show Gives (if s.ntfnState n = .idle then _ else if s.ntfnState n = .waiting then _ else _) _
    rw [if_neg hidle]
    by_cases hwaiting : s.ntfnState n = .waiting
    · rw [if_pos hwaiting, ← hs₀]
      have hwaiting₀ : s₀.ntfnState n = .waiting := by
        rw [hs₀]
        exact hwaiting
      obtain ⟨d, r, hL, hhead⟩ := W₀.ntfn_cons hwaiting₀
      refine (gives_assert (by rw [hhead]; simp)).bind fun _ _ => ?_
      refine (gives_deref hhead).bind fun d' hd => ?_
      subst hd
      have hwoken := (quiet_ntfnRemove d' hwaiting₀).trans
        (quiet_setThreadState d' .running)
      refine gives_pure ⟨⟨_, (W₀.ntfnLeave (l := []) hL (by decide)).deliver n d' badge⟩,
        signalled_deliver (hwoken.sent.trans hsent₀) (hwoken.delivered.trans hdelivered₀)
          (hwoken.pending.trans hpending₀) (.inr ?_) (update_self ..) fun u hu => ?_⟩
      · rw [hs₀] at hhead
        exact hhead
      rw [tsType_setThreadState, update_of_ne hu, tsType_ntfnRemove, htypes₀]
    · rw [if_neg hwaiting]
      -- an active notification collects the badge in its pending word
      have hactive : s.ntfnState n = .active := by
        cases h : s.ntfnState n <;> simp_all
      have hstate : update s.ntfnState n .active = s.ntfnState := by
        rw [← hactive, update_eq_self]
      obtain ⟨W', hstored⟩ := W.store hwaiting badge rfl
      rw [pendingWord_of_active hactive, hstate] at W' hstored
      exact gives_pure ⟨⟨L, W'⟩, hstored⟩

/-! ### The bound thread -/

/-- The bound pointers are written together. -/
lemma changeBound (W : Wf s L) {f g : ℕ → Option ℕ} (h : Pointers.Paired f g) :
    Wf { s with tcbBoundNotification := f, ntfnBoundTCB := g } L :=
  { W with bound := h }

/-- `decodeBindNotification`. -/
theorem decodeBindNotification (W : Wf s L) (t n : ℕ) :
    Kept s (s.decodeBindNotification t n) := by
  rw [State.decodeBindNotification]
  split_ifs with htcb hntfn
  · exact ⟨⟨L, W⟩, .refl s⟩
  · exact ⟨⟨L, W⟩, .refl s⟩
  · rw [not_not] at htcb
    obtain ⟨-, hfree⟩ := not_or.mp hntfn
    rw [not_not] at hfree
    exact ⟨⟨L, W.changeBound (W.bound.link htcb hfree)⟩, rfl, rfl, rfl⟩

/-- `unbindMaybeNotification`. -/
theorem unbindMaybeNotification (W : Wf s L) (n : ℕ) : Kept s (s.unbindMaybeNotification n) := by
  rw [State.unbindMaybeNotification]
  cases htcb : s.ntfnBoundTCB n with
  | none => exact ⟨⟨L, W⟩, .refl s⟩
  | some t =>
      exact ⟨⟨L, W.changeBound (W.bound.unlink ((W.bound t n).mpr htcb))⟩, rfl, rfl, rfl⟩

/-- `unbindNotification`. -/
theorem unbindNotification (W : Wf s L) (t : ℕ) : Kept s (s.unbindNotification t) := by
  rw [State.unbindNotification]
  cases hntfn : s.tcbBoundNotification t with
  | none => exact ⟨⟨L, W⟩, .refl s⟩
  | some n => exact ⟨⟨L, W.changeBound (W.bound.unlink hntfn)⟩, rfl, rfl, rfl⟩

end Wf

end Kernel.Ipc
