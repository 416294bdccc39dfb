import Sel4Test.Lib.Pointers
import Sel4Test.Kernel.Ipc

/-!
The queues of endpoints and notifications: who waits where, in which order.

`Wf s L` says that in the state `s` the lists `L` are the queues, that a thread is in the
queue its thread state names, that the tags of endpoints and notifications fit, and that
the queue of each endpoint is the one its trace leads to.

* `gives_tcbEPAppend`, `tcbEPDequeue_spec`: what the two operations of the source do to the
  links.
* `Wf.epJoin`, `Wf.epLeave`, `Wf.ntfnJoin`, `Wf.ntfnLeave`: a thread joins or leaves one
  queue.
* `Wf.frame`, `Wf.setThreadState`: what does not touch the queues.
-/

namespace Kernel.Ipc

open Checked LinkedQueue Rendezvous
open Function (update update_self update_of_ne update_idem)

/-! ### Who waits where -/

/-- An endpoint or a notification. -/
inductive Place
  | ep (epptr : ℕ)
  | ntfn (ntfnPtr : ℕ)
  deriving DecidableEq

/-- Where a thread in a state waits, with the blocking object of the state. -/
def placeOf : TsType → ℕ → Option Place
  | .blockedOnSend, o => some (.ep o)
  | .blockedOnReceive, o => some (.ep o)
  | .blockedOnNotification, o => some (.ntfn o)
  | _, _ => none

/-- A thread in the state is in no queue. -/
def Free (ts : TsType) : Prop :=
  ts ≠ .blockedOnSend ∧ ts ≠ .blockedOnReceive ∧ ts ≠ .blockedOnNotification

instance (ts : TsType) : Decidable (Free ts) := inferInstanceAs (Decidable (_ ∧ _ ∧ _))

namespace State

/-- Where a thread waits. -/
def waitsAt (s : State) (t : ℕ) : Option Place := placeOf (s.tsType t) (s.blockingObject t)

/-- The queue of a place. -/
def queue (s : State) : Place → Queue ℕ
  | .ep e => s.epQueue e
  | .ntfn n => s.ntfnQueue n

/-- The endpoint as a port: its queue, on the side that the tag says. -/
def port (s : State) (L : Place → List ℕ) (e : ℕ) : Port ℕ ℕ where
  senders := if s.epState e = .send then (L (.ep e)).map fun t => (t, s.blockingIPCBadge t) else []
  receivers := if s.epState e = .recv then L (.ep e) else []

end State

/-- What happens when a thread leaves an endpoint without a transfer. -/
def leaving (s : State) (t : ℕ) : Rendezvous.Event ℕ ℕ :=
  if s.tsType t = .blockedOnSend then .leaveSend t (s.blockingIPCBadge t) else .leaveReceive t

variable {s s' : State} {L : Place → List ℕ} {t e n : ℕ} {l r : List ℕ} {ts : TsType}

lemma tsType_setThreadState : (s.setThreadState t ts).tsType = update s.tsType t ts := rfl

lemma placeOf_eq_none {o : ℕ} : placeOf ts o = none ↔ Free ts := by
  cases ts <;> simp [placeOf, Free]

lemma waitsAt_eq_none : s.waitsAt t = none ↔ Free (s.tsType t) := placeOf_eq_none

lemma waitsAt_eq_ep : s.waitsAt t = some (.ep e) ↔
    (s.tsType t = .blockedOnSend ∨ s.tsType t = .blockedOnReceive) ∧ s.blockingObject t = e := by
  rw [State.waitsAt]
  cases s.tsType t <;> simp [placeOf]

lemma waitsAt_eq_ntfn : s.waitsAt t = some (.ntfn n) ↔
    s.tsType t = .blockedOnNotification ∧ s.blockingObject t = n := by
  rw [State.waitsAt]
  cases s.tsType t <;> simp [placeOf]

/-- A change of the state of one thread changes where that thread waits. -/
lemma waitsAt_update {types : ℕ → TsType} {objects : ℕ → ℕ} {o : ℕ}
    (htypes : types = update s.tsType t ts) (hobjects : ∀ u, u ≠ t → objects u = s.blockingObject u)
    (ho : objects t = o) :
    (fun u => placeOf (types u) (objects u)) = update s.waitsAt t (placeOf ts o) := by
  funext u
  by_cases hu : u = t
  · subst hu
    rw [update_self, htypes, update_self, ho]
  · rw [update_of_ne hu, htypes, update_of_ne hu, hobjects u hu]
    rfl

lemma queue_updateEp {q : Queue ℕ} (hep : s'.epQueue = update s.epQueue e q)
    (hntfn : s'.ntfnQueue = s.ntfnQueue) : s'.queue = update s.queue (.ep e) q := by
  funext p
  cases p with
  | ep e' =>
      by_cases he : e' = e
      · subst he
        rw [update_self, State.queue, hep, update_self]
      · rw [update_of_ne (by simpa using he), State.queue, hep, update_of_ne he]
        rfl
  | ntfn n =>
      rw [update_of_ne (by simp), State.queue, hntfn]
      rfl

lemma queue_updateNtfn {q : Queue ℕ} (hntfn : s'.ntfnQueue = update s.ntfnQueue n q)
    (hep : s'.epQueue = s.epQueue) : s'.queue = update s.queue (.ntfn n) q := by
  funext p
  cases p with
  | ep e =>
      rw [update_of_ne (by simp), State.queue, hep]
      rfl
  | ntfn n' =>
      by_cases hn : n' = n
      · subst hn
        rw [update_self, State.queue, hntfn, update_self]
      · rw [update_of_ne (by simpa using hn), State.queue, hntfn, update_of_ne hn]
        rfl

/-! ### The links -/

section Links

variable {queues : Place → Queue ℕ} {place : ℕ → Option Place} {p : Place}

/-- `tcbEPAppend` puts the thread at the end of the queue. -/
lemma gives_tcbEPAppend (P : Placed s.tcbEPNext s.tcbEPPrev queues place L)
    (ht : place t = none) :
    Gives (s.tcbEPAppend t (queues p)) fun r => ∃ next prev,
      r.2 = { s with tcbEPNext := next, tcbEPPrev := prev } ∧
      Placed next prev (update queues p r.1) (update place t (some p))
        (update L p (L p ++ [t])) := by
  have H := P.holds p
  have htL : t ∉ L p := P.notMem ht
  rw [State.tcbEPAppend]
  by_cases hhead : (queues p).head = none
  · have hnil : L p = [] := H.head_none.mp hhead
    have hlast : (queues p).last = none := H.last_none.mpr hnil
    rw [if_pos hhead, if_pos hhead, hlast]
    refine gives_ok ⟨update s.tcbEPNext t none, update s.tcbEPPrev t none, rfl, ?_⟩
    have hplaced := P.append (i := p) ht (update_self t none s.tcbEPNext)
      (p := update s.tcbEPPrev t none) (by rw [update_self, hnil]; rfl) fun x hx => by
        rw [update_of_ne hx, update_of_ne hx, hnil]
        exact ⟨rfl, rfl⟩
    simpa [hnil] using hplaced
  · obtain ⟨last, hlast⟩ := Option.ne_none_iff_exists'.mp fun h =>
      hhead (H.head_none.mpr (H.last_none.mp h))
    have hgetLast : (L p).getLast? = some last := by rw [← H.last_eq, hlast]
    have hne : last ≠ t := by
      rintro rfl
      exact htL (List.mem_of_mem_getLast? hgetLast)
    rw [if_neg hhead, if_neg hhead]
    refine (gives_deref hlast).bind fun a ha => ?_
    subst ha
    refine gives_ok ⟨update (update s.tcbEPNext a (some t)) t none,
      update s.tcbEPPrev t (queues p).last, rfl, ?_⟩
    have hplaced := P.append (i := p) ht (update_self t none (update s.tcbEPNext a (some t)))
      (p := update s.tcbEPPrev t (queues p).last) (by rw [update_self, H.last_eq])
      fun x hx => by
        rw [update_of_ne hx, update_of_ne hx, hgetLast]
        refine ⟨?_, rfl⟩
        by_cases hxa : x = a
        · rw [hxa, update_self, if_pos rfl]
        · rw [update_of_ne hxa, if_neg (by simpa using Ne.symm hxa)]
    have hhead' : (queues p).head = (L p ++ [t]).head? := by
      rw [List.head?_append_of_ne_nil _ (fun h => hhead (H.head_none.mpr h)), H.head_eq]
    rw [hhead']
    exact hplaced

/-- `tcbEPDequeue` takes the thread out of the queue. -/
lemma tcbEPDequeue_spec (P : Placed s.tcbEPNext s.tcbEPPrev queues place L)
    (hL : L p = l ++ t :: r) :
    ∃ next prev,
      s.tcbEPDequeue t (queues p) = (⟨(l ++ r).head?, (l ++ r).getLast?⟩,
        { s with tcbEPNext := next, tcbEPPrev := prev }) ∧
      Placed next prev (update queues p ⟨(l ++ r).head?, (l ++ r).getLast?⟩)
        (update place t none) (update L p (l ++ r)) := by
  have H := P.holds p
  rw [hL] at H
  obtain ⟨hprev, hnext⟩ := H.links l t r rfl
  have hnodup := H.nodup
  have hlt : l.getLast? ≠ some t := by
    intro h
    have hmem := List.mem_of_mem_getLast? h
    rw [List.nodup_middle, List.nodup_cons] at hnodup
    exact hnodup.1 (List.mem_append_left _ hmem)
  refine ⟨l.getLast?.elim s.tcbEPNext fun x => update s.tcbEPNext x r.head?,
    r.head?.elim s.tcbEPPrev fun x => update s.tcbEPPrev x l.getLast?, ?_, ?_⟩
  · have hhead : (queues p).head = (l ++ t :: r).head? := H.head_eq
    have hlast : (queues p).last = (l ++ t :: r).getLast? := H.last_eq
    rw [State.tcbEPDequeue, hprev, hhead, hlast]
    rcases List.eq_nil_or_concat l with rfl | ⟨l', a, rfl⟩
    · rw [hnext]
      cases r with
      | nil => simp [hnext, hprev]
      | cons b r => simp [hnext, hprev]
    · rw [List.concat_eq_append, List.getLast?_concat] at hlt hprev ⊢
      have hta : t ≠ a := by
        rintro rfl
        exact hlt rfl
      cases r with
      | nil => simp [hnext, hprev, update_of_ne hta]
      | cons b r => simp [hnext, hprev, update_of_ne hta]
  · refine P.remove hL (fun x _ => ?_) fun x _ => ?_
    · cases hlast : l.getLast? with
      | none => rfl
      | some y =>
          by_cases hx : x = y
          · rw [hx, Option.elim_some, update_self, if_pos rfl]
          · rw [Option.elim_some, update_of_ne hx, if_neg (by simpa using Ne.symm hx)]
    · cases hhead : r.head? with
      | none => rfl
      | some y =>
          by_cases hx : x = y
          · rw [hx, Option.elim_some, update_self, if_pos rfl]
          · rw [Option.elim_some, update_of_ne hx, if_neg (by simpa using Ne.symm hx)]

end Links

/-! ### The invariant -/

/-- The lists are the queues, threads and tags agree with them, the bound pointers agree with
each other, and each endpoint is where its trace leads to. -/
structure Wf (s : State) (L : Place → List ℕ) : Prop where
  placed : Placed s.tcbEPNext s.tcbEPPrev s.queue s.waitsAt L
  address : ∀ t, s.waitsAt t ≠ none → 0 < t ∧ t < wordBound
  ep_idle : ∀ e, s.epState e = .idle ↔ L (.ep e) = []
  ep_send : ∀ e, s.epState e = .send → ∀ t ∈ L (.ep e), s.tsType t = .blockedOnSend
  ep_recv : ∀ e, s.epState e = .recv → ∀ t ∈ L (.ep e), s.tsType t = .blockedOnReceive
  ntfn_waiting : ∀ n, s.ntfnState n = .waiting ↔ L (.ntfn n) ≠ []
  bound : Pointers.Paired s.tcbBoundNotification s.ntfnBoundTCB
  ports : ∀ e, Port.replay (s.epTrace e) = some (s.port L e)

namespace Wf

lemma mem_ep (W : Wf s L) : t ∈ L (.ep e) ↔
    (s.tsType t = .blockedOnSend ∨ s.tsType t = .blockedOnReceive) ∧ s.blockingObject t = e := by
  rw [W.placed.mem, waitsAt_eq_ep]

lemma mem_ntfn (W : Wf s L) : t ∈ L (.ntfn n) ↔
    s.tsType t = .blockedOnNotification ∧ s.blockingObject t = n := by
  rw [W.placed.mem, waitsAt_eq_ntfn]

lemma not_free (W : Wf s L) {p : Place} (ht : t ∈ L p) : ¬ Free (s.tsType t) := by
  rw [W.placed.mem] at ht
  rw [← waitsAt_eq_none, ht]
  simp

/-- A queue is shorter than the loops of the source can go on. -/
lemma length_lt (W : Wf s L) (p : Place) : (L p).length < wordBound := by
  have hsub : (L p).toFinset ⊆ Finset.Ico 1 wordBound := by
    intro t ht
    have hmem := (W.placed.mem p t).mp (List.mem_toFinset.mp ht)
    have haddr := W.address t (by rw [hmem]; simp)
    exact Finset.mem_Ico.mpr ⟨haddr.1, haddr.2⟩
  have hcard := Finset.card_le_card hsub
  rw [List.toFinset_card_of_nodup (W.placed.holds p).nodup, Nat.card_Ico] at hcard
  have hpos : 0 < wordBound := by norm_num [wordBound]
  omega

/-- The queue of an endpoint with a tag has a first thread. -/
lemma ep_cons (W : Wf s L) (h : s.epState e ≠ .idle) :
    ∃ t r, L (.ep e) = t :: r ∧ (s.epQueue e).head = some t := by
  obtain ⟨t, r, hL⟩ := List.exists_cons_of_ne_nil fun hnil => h ((W.ep_idle e).mpr hnil)
  have hhead : (s.epQueue e).head = (L (.ep e)).head? := (W.placed.holds (.ep e)).head_eq
  rw [hL] at hhead
  exact ⟨t, r, hL, hhead⟩

/-- The queue of a waiting notification has a first thread. -/
lemma ntfn_cons (W : Wf s L) (h : s.ntfnState n = .waiting) :
    ∃ t r, L (.ntfn n) = t :: r ∧ (s.ntfnQueue n).head = some t := by
  obtain ⟨t, r, hL⟩ := List.exists_cons_of_ne_nil ((W.ntfn_waiting n).mp h)
  have hhead : (s.ntfnQueue n).head = (L (.ntfn n)).head? := (W.placed.holds (.ntfn n)).head_eq
  rw [hL] at hhead
  exact ⟨t, r, hL, hhead⟩

/-- **Frame**: threads outside the queues change their state, notifications become active or
idle, and the rest is not part of the invariant. -/
lemma frame (W : Wf s L)
    (htypes : ∀ t, s'.tsType t = s.tsType t ∨ Free (s.tsType t) ∧ Free (s'.tsType t))
    (hobject : s'.blockingObject = s.blockingObject)
    (hbadge : s'.blockingIPCBadge = s.blockingIPCBadge)
    (hnext : s'.tcbEPNext = s.tcbEPNext) (hprev : s'.tcbEPPrev = s.tcbEPPrev)
    (hepState : s'.epState = s.epState) (hepQueue : s'.epQueue = s.epQueue)
    (hntfnState : ∀ n, s'.ntfnState n = .waiting ↔ s.ntfnState n = .waiting)
    (hntfnQueue : s'.ntfnQueue = s.ntfnQueue)
    (hbound : s'.tcbBoundNotification = s.tcbBoundNotification)
    (hboundTCB : s'.ntfnBoundTCB = s.ntfnBoundTCB) (htrace : s'.epTrace = s.epTrace) :
    Wf s' L := by
  have hwaits : s'.waitsAt = s.waitsAt := by
    funext t
    rcases htypes t with htype | ⟨hfree, hfree'⟩
    · rw [State.waitsAt, htype, hobject]
      rfl
    · rw [waitsAt_eq_none.mpr hfree', waitsAt_eq_none.mpr hfree]
  have hqueue : s'.queue = s.queue := by
    funext p
    cases p with
    | ep e => exact congrFun hepQueue e
    | ntfn n => exact congrFun hntfnQueue n
  -- a thread in a queue is not free, so it is one whose type is kept
  have hblocked : ∀ p, ∀ t ∈ L p, s'.tsType t = s.tsType t := fun p t ht =>
    (htypes t).resolve_right fun h => W.not_free ht h.1
  exact
    { placed := by
        rw [hnext, hprev, hqueue, hwaits]
        exact W.placed
      address := by
        rw [hwaits]
        exact W.address
      ep_idle := by
        rw [hepState]
        exact W.ep_idle
      ep_send := by
        intro e he t ht
        rw [hepState] at he
        rw [hblocked _ t ht]
        exact W.ep_send e he t ht
      ep_recv := by
        intro e he t ht
        rw [hepState] at he
        rw [hblocked _ t ht]
        exact W.ep_recv e he t ht
      ntfn_waiting := fun n => (hntfnState n).trans (W.ntfn_waiting n)
      bound := by
        rw [hbound, hboundTCB]
        exact W.bound
      ports := by
        intro e
        rw [htrace, W.ports, State.port, State.port, hepState, hbadge] }

/-- A thread outside the queues changes its state. -/
lemma setThreadState (W : Wf s L) (ht : Free (s.tsType t)) (hts : Free ts) :
    Wf (s.setThreadState t ts) L := by
  refine W.frame (fun u => ?_) rfl rfl rfl rfl rfl rfl (fun _ => Iff.rfl) rfl rfl rfl rfl
  rw [tsType_setThreadState]
  by_cases hu : u = t
  · subst hu
    exact .inr ⟨ht, by rwa [update_self]⟩
  · exact .inl (by rw [update_of_ne hu])

/-- **One endpoint changes.** -/
lemma changeEp (W : Wf s L) {xs : List ℕ}
    (hplaced : Placed s'.tcbEPNext s'.tcbEPPrev s'.queue s'.waitsAt (update L (.ep e) xs))
    (haddress : ∀ u, s'.waitsAt u ≠ none → 0 < u ∧ u < wordBound)
    (hepState : ∀ e', e' ≠ e → s'.epState e' = s.epState e')
    (hkeep : ∀ p, p ≠ .ep e → ∀ u ∈ L p,
      s'.tsType u = s.tsType u ∧ s'.blockingIPCBadge u = s.blockingIPCBadge u)
    (hidle : s'.epState e = .idle ↔ xs = [])
    (hsend : s'.epState e = .send → ∀ u ∈ xs, s'.tsType u = .blockedOnSend)
    (hrecv : s'.epState e = .recv → ∀ u ∈ xs, s'.tsType u = .blockedOnReceive)
    (hntfn : s'.ntfnState = s.ntfnState)
    (hbound : s'.tcbBoundNotification = s.tcbBoundNotification)
    (hboundTCB : s'.ntfnBoundTCB = s.ntfnBoundTCB)
    (htrace : ∀ e', e' ≠ e → s'.epTrace e' = s.epTrace e')
    (hport : Port.replay (s'.epTrace e) = some (s'.port (update L (.ep e) xs) e)) :
    Wf s' (update L (.ep e) xs) where
  placed := hplaced
  address := haddress
  ep_idle e' := by
    by_cases he : e' = e
    · subst he
      rw [update_self]
      exact hidle
    · rw [update_of_ne (by simpa using he), hepState e' he]
      exact W.ep_idle e'
  ep_send e' := by
    by_cases he : e' = e
    · subst he
      rw [update_self]
      exact hsend
    · rw [update_of_ne (by simpa using he), hepState e' he]
      intro hs u hu
      rw [(hkeep _ (by simpa using he) u hu).1]
      exact W.ep_send e' hs u hu
  ep_recv e' := by
    by_cases he : e' = e
    · subst he
      rw [update_self]
      exact hrecv
    · rw [update_of_ne (by simpa using he), hepState e' he]
      intro hs u hu
      rw [(hkeep _ (by simpa using he) u hu).1]
      exact W.ep_recv e' hs u hu
  ntfn_waiting n := by
    rw [update_of_ne (by simp), hntfn]
    exact W.ntfn_waiting n
  bound := by
    rw [hbound, hboundTCB]
    exact W.bound
  -- the log of another endpoint is explained by a queue and badges that are what they were
  ports e' := by
    by_cases he : e' = e
    · subst he
      exact hport
    · have hne : Place.ep e' ≠ .ep e := by simpa using he
      have hsenders : (L (.ep e')).map (fun u => (u, s'.blockingIPCBadge u)) =
          (L (.ep e')).map fun u => (u, s.blockingIPCBadge u) :=
        List.map_congr_left fun u hu => by rw [(hkeep _ hne u hu).2]
      rw [htrace e' he, W.ports, State.port, State.port, update_of_ne hne, hepState e' he,
        hsenders]

/-- **One notification changes.** -/
lemma changeNtfn (W : Wf s L) {xs : List ℕ}
    (hplaced : Placed s'.tcbEPNext s'.tcbEPPrev s'.queue s'.waitsAt (update L (.ntfn n) xs))
    (haddress : ∀ u, s'.waitsAt u ≠ none → 0 < u ∧ u < wordBound)
    (hntfnState : ∀ n', n' ≠ n → s'.ntfnState n' = s.ntfnState n')
    (hkeep : ∀ p, p ≠ .ntfn n → ∀ u ∈ L p, s'.tsType u = s.tsType u)
    (hwaiting : s'.ntfnState n = .waiting ↔ xs ≠ [])
    (hbadge : s'.blockingIPCBadge = s.blockingIPCBadge) (hep : s'.epState = s.epState)
    (hbound : s'.tcbBoundNotification = s.tcbBoundNotification)
    (hboundTCB : s'.ntfnBoundTCB = s.ntfnBoundTCB) (htrace : s'.epTrace = s.epTrace) :
    Wf s' (update L (.ntfn n) xs) where
  placed := hplaced
  address := haddress
  ep_idle e := by
    rw [update_of_ne (by simp), hep]
    exact W.ep_idle e
  ep_send e := by
    rw [update_of_ne (by simp), hep]
    intro hs u hu
    rw [hkeep _ (by simp) u hu]
    exact W.ep_send e hs u hu
  ep_recv e := by
    rw [update_of_ne (by simp), hep]
    intro hs u hu
    rw [hkeep _ (by simp) u hu]
    exact W.ep_recv e hs u hu
  ntfn_waiting n' := by
    by_cases hn : n' = n
    · subst hn
      rw [update_self]
      exact hwaiting
    · rw [update_of_ne (by simpa using hn), hntfnState n' hn]
      exact W.ntfn_waiting n'
  bound := by
    rw [hbound, hboundTCB]
    exact W.bound
  ports e := by
    rw [htrace, W.ports, State.port, State.port, update_of_ne (by simp), hep, hbadge]

/-! ### Threads join and leave -/

/-- What a thread that has left all queues waits at, and who else. -/
lemma waits_leave (hts : Free ts) {types : ℕ → TsType} (htypes : types = update s.tsType t ts) :
    (fun u => placeOf (types u) (s.blockingObject u)) = update s.waitsAt t none := by
  rw [waitsAt_update htypes (fun _ _ => rfl) rfl, placeOf_eq_none.mpr hts]

lemma address_leave (W : Wf s L) (u : ℕ) (hu : update s.waitsAt t none u ≠ none) :
    0 < u ∧ u < wordBound := by
  by_cases hut : u = t
  · subst hut
    exact absurd (update_self ..) hu
  · rw [update_of_ne hut] at hu
    exact W.address u hu

/-- The first half of a split of a queue without doubles has neither the middle nor more. -/
lemma rest_mem {p : Place} (W : Wf s L) (hL : L p = l ++ t :: r) :
    ∀ u ∈ l ++ r, u ∈ L p ∧ u ≠ t := by
  intro u hu
  have hnodup := (W.placed.holds p).nodup
  rw [hL, List.nodup_middle, List.nodup_cons] at hnodup
  refine ⟨?_, ?_⟩
  · rw [hL]
    rcases List.mem_append.mp hu with hu | hu <;> simp [hu]
  · rintro rfl
    exact hnodup.1 hu

/-- **A thread leaves an endpoint**, and what happens there is `es`. -/
lemma epLeave (W : Wf s L) (hL : L (.ep e) = l ++ t :: r) (hts : Free ts) (badges : ℕ → ℕ)
    {es : List (Rendezvous.Event ℕ ℕ)}
    (hes : es.foldlM Port.step (s.port L e) = some (s.port (update L (.ep e) (l ++ r)) e)) :
    Wf { s.epRemove e t with
      tsType := update s.tsType t ts
      badgeRegister := badges
      epTrace := update s.epTrace e (s.epTrace e ++ es) } (update L (.ep e) (l ++ r)) := by
  obtain ⟨next, prev, hdequeue, hplaced⟩ := tcbEPDequeue_spec W.placed hL
  have hdequeue : s.tcbEPDequeue t (s.epQueue e) = _ := hdequeue
  have hremove : s.epRemove e t = { s with
      tcbEPNext := next
      tcbEPPrev := prev
      epQueue := update s.epQueue e ⟨(l ++ r).head?, (l ++ r).getLast?⟩
      epState := if l ++ r = [] then update s.epState e .idle else s.epState } := by
    rw [State.epRemove, hdequeue]
    simp only [List.head?_eq_none_iff]
  -- the state after the step gets a name, so that its fields are read off once
  suffices hgoal : ∀ s' : State, s' = { s.epRemove e t with
      tsType := update s.tsType t ts
      badgeRegister := badges
      epTrace := update s.epTrace e (s.epTrace e ++ es) } →
      Wf s' (update L (.ep e) (l ++ r)) from hgoal _ rfl
  intro s' hs'
  rw [hremove] at hs'
  have htypes : s'.tsType = update s.tsType t ts := by rw [hs']
  have hobject : s'.blockingObject = s.blockingObject := by rw [hs']
  have hbadge : s'.blockingIPCBadge = s.blockingIPCBadge := by rw [hs']
  have hqueue : s'.queue = update s.queue (.ep e) ⟨(l ++ r).head?, (l ++ r).getLast?⟩ :=
    queue_updateEp (by rw [hs']) (by rw [hs'])
  have hstate : s'.epState = if l ++ r = [] then update s.epState e .idle else s.epState := by
    rw [hs']
  have htrace : s'.epTrace = update s.epTrace e (s.epTrace e ++ es) := by rw [hs']
  have hwaits : s'.waitsAt = update s.waitsAt t none := by
    rw [← waits_leave hts htypes, ← hobject]
    rfl
  have hmem : t ∈ L (.ep e) := by
    rw [hL]
    simp
  have hrest := W.rest_mem hL
  have hother : ∀ p, p ≠ .ep e → ∀ u ∈ L p, u ≠ t := by
    rintro p hp u hu rfl
    exact hp (W.placed.apart hu hmem)
  have hbusy : s.epState e ≠ .idle := by
    intro h
    rw [W.ep_idle, hL] at h
    simp at h
  -- a queue that is not left empty keeps its direction
  have hkept : l ++ r ≠ [] → s'.epState = s.epState := fun h => hstate.trans (if_neg h)
  have hidle : s'.epState e = .idle ↔ l ++ r = [] := by
    rw [hstate]
    split_ifs with hnil
    · simp [hnil]
    · simp [hnil, hbusy]
  refine W.changeEp ?_ ?_ ?_ ?_ hidle ?_ ?_ (by rw [hs']) (by rw [hs']) (by rw [hs']) ?_ ?_
  · rw [hqueue, hwaits, hs']
    exact hplaced
  · rw [hwaits]
    exact W.address_leave
  · intro e' he
    rw [hstate]
    split_ifs
    · exact update_of_ne he ..
    · rfl
  · intro p hp u hu
    rw [htypes, hbadge, update_of_ne (hother p hp u hu)]
    exact ⟨rfl, rfl⟩
  · intro hs u hu
    rw [hkept (List.ne_nil_of_mem hu)] at hs
    rw [htypes, update_of_ne (hrest u hu).2]
    exact W.ep_send e hs u (hrest u hu).1
  · intro hs u hu
    rw [hkept (List.ne_nil_of_mem hu)] at hs
    rw [htypes, update_of_ne (hrest u hu).2]
    exact W.ep_recv e hs u (hrest u hu).1
  · intro e' he
    rw [htrace, update_of_ne he]
  · rw [htrace, update_self, Port.replay_append (W.ports e), hes, State.port, State.port, hbadge]
    by_cases hnil : l ++ r = []
    · simp [hnil]
    · rw [hkept hnil]

/-- Who waits where after a thread has come to a queue. -/
lemma waits_join {o : ℕ} (htypes : s'.tsType = update s.tsType t ts)
    (hobject : s'.blockingObject = update s.blockingObject t o) :
    s'.waitsAt = update s.waitsAt t (placeOf ts o) :=
  waitsAt_update htypes (fun u hu => by rw [hobject, update_of_ne hu]) (by rw [hobject, update_self])

lemma address_join (W : Wf s L) (haddr : 0 < t ∧ t < wordBound) {p : Place} (u : ℕ)
    (hu : update s.waitsAt t (some p) u ≠ none) : 0 < u ∧ u < wordBound := by
  by_cases hut : u = t
  · subst hut
    exact haddr
  · rw [update_of_ne hut] at hu
    exact W.address u hu

/-- **A thread comes to an endpoint**, on a side where others wait or nobody waits. -/
lemma epJoin (W : Wf s L) (ht : s.waitsAt t = none) (haddr : 0 < t ∧ t < wordBound)
    {side : EpState} {event : Rendezvous.Event ℕ ℕ} {badges : ℕ → ℕ} {grants replies calls : ℕ → Bool}
    {next prev : ℕ → Option ℕ} {q : Queue ℕ}
    (hside : side = .send ∧ ts = .blockedOnSend ∨ side = .recv ∧ ts = .blockedOnReceive)
    (hold : s.epState e = .idle ∨ s.epState e = side)
    (hbadges : ∀ u, u ≠ t → badges u = s.blockingIPCBadge u)
    (hport : (s.port L e).step event = some
      { senders := if side = .send then (L (.ep e) ++ [t]).map fun u => (u, badges u) else []
        receivers := if side = .recv then L (.ep e) ++ [t] else [] })
    (hplaced : Placed next prev (update s.queue (.ep e) q) (update s.waitsAt t (some (.ep e)))
      (update L (.ep e) (L (.ep e) ++ [t])))
    (hs' : s' = { s with
      tsType := update s.tsType t ts
      blockingObject := update s.blockingObject t e
      blockingIPCBadge := badges
      blockingIPCCanGrant := grants
      blockingIPCCanGrantReply := replies
      blockingIPCIsCall := calls
      tcbEPNext := next
      tcbEPPrev := prev
      epState := update s.epState e side
      epQueue := update s.epQueue e q
      epTrace := update s.epTrace e (s.epTrace e ++ [event]) }) :
    Wf s' (update L (.ep e) (L (.ep e) ++ [t])) := by
  have htypes : s'.tsType = update s.tsType t ts := by rw [hs']
  have hobject : s'.blockingObject = update s.blockingObject t e := by rw [hs']
  have hbadge : s'.blockingIPCBadge = badges := by rw [hs']
  have hqueue : s'.queue = update s.queue (.ep e) q := queue_updateEp (by rw [hs']) (by rw [hs'])
  have hstate : s'.epState = update s.epState e side := by rw [hs']
  have htrace : s'.epTrace = update s.epTrace e (s.epTrace e ++ [event]) := by rw [hs']
  have hplace : placeOf ts e = some (.ep e) := by
    rcases hside with ⟨-, rfl⟩ | ⟨-, rfl⟩ <;> rfl
  have hwaits : s'.waitsAt = update s.waitsAt t (some (.ep e)) := by
    rw [waits_join htypes hobject, hplace]
  have hnot : ∀ p, ∀ u ∈ L p, u ≠ t := by
    rintro p u hu rfl
    exact W.placed.notMem ht hu
  have hside_ne : side ≠ .idle := by
    rcases hside with ⟨rfl, -⟩ | ⟨rfl, -⟩ <;> simp
  -- those who wait already are on the side that the thread comes to
  have hsame : s.epState e ≠ side → L (.ep e) = [] := fun h =>
    (W.ep_idle e).mp (hold.resolve_right h)
  refine W.changeEp ?_ ?_ ?_ ?_ ?_ ?_ ?_ (by rw [hs']) (by rw [hs']) (by rw [hs']) ?_ ?_
  · rw [hqueue, hwaits, hs']
    exact hplaced
  · rw [hwaits]
    exact W.address_join haddr
  · intro e' he
    rw [hstate, update_of_ne he]
  · intro p _ u hu
    rw [htypes, hbadge, update_of_ne (hnot p u hu), hbadges u (hnot p u hu)]
    exact ⟨rfl, rfl⟩
  · rw [hstate, update_self]
    simp [hside_ne]
  · intro hs u hu
    rw [hstate, update_self] at hs
    subst hs
    have hts : ts = .blockedOnSend := by simpa using hside
    rcases List.mem_append.mp hu with hu | hu
    · by_cases hsend : s.epState e = .send
      · rw [htypes, update_of_ne (hnot _ u hu)]
        exact W.ep_send e hsend u hu
      · rw [hsame hsend] at hu
        cases hu
    · rw [List.mem_singleton.mp hu, htypes, update_self, hts]
  · intro hs u hu
    rw [hstate, update_self] at hs
    subst hs
    have hts : ts = .blockedOnReceive := by simpa using hside
    rcases List.mem_append.mp hu with hu | hu
    · by_cases hrecv : s.epState e = .recv
      · rw [htypes, update_of_ne (hnot _ u hu)]
        exact W.ep_recv e hrecv u hu
      · rw [hsame hrecv] at hu
        cases hu
    · rw [List.mem_singleton.mp hu, htypes, update_self, hts]
  · intro e' he
    rw [htrace, update_of_ne he]
  · rw [htrace, update_self, Port.replay_snoc (W.ports e), hport, State.port, hstate, update_self,
      hbadge, update_self]

/-- The port takes a new sender. -/
lemma step_send (W : Wf s L) {b : ℕ} (hold : s.epState e = .idle ∨ s.epState e = .send)
    (ht : t ∉ L (.ep e)) :
    (s.port L e).step (.send t b) = some
      { senders := if EpState.send = .send then
          (L (.ep e) ++ [t]).map fun u => (u, update s.blockingIPCBadge t b u) else []
        receivers := if EpState.send = .recv then L (.ep e) ++ [t] else [] } := by
  have hbadges : (L (.ep e)).map (fun u => (u, update s.blockingIPCBadge t b u)) =
      (L (.ep e)).map fun u => (u, s.blockingIPCBadge u) := by
    refine List.map_congr_left fun u hu => ?_
    rw [update_of_ne]
    rintro rfl
    exact ht hu
  rw [List.map_append, hbadges]
  rcases hold with hidle | hsend
  · simp [Port.step, State.port, hidle, (W.ep_idle e).mp hidle]
  · simp [Port.step, State.port, hsend]

/-- The port takes a new receiver. -/
lemma step_receive (W : Wf s L) (hold : s.epState e = .idle ∨ s.epState e = .recv) :
    (s.port L e).step (.receive t) = some
      { senders := if EpState.recv = .send then
          (L (.ep e) ++ [t]).map fun u => (u, s.blockingIPCBadge u) else []
        receivers := if EpState.recv = .recv then L (.ep e) ++ [t] else [] } := by
  rcases hold with hidle | hrecv
  · simp [Port.step, State.port, hidle, (W.ep_idle e).mp hidle]
  · simp [Port.step, State.port, hrecv]

/-- One thread leaves, wherever in the queue it is. -/
lemma foldlM_leave (W : Wf s L) (hL : L (.ep e) = l ++ t :: r) :
    [leaving s t].foldlM Port.step (s.port L e) =
      some (s.port (update L (.ep e) (l ++ r)) e) := by
  have hmem : t ∈ L (.ep e) := by
    rw [hL]
    simp
  have hnot : t ∉ l := by
    have hnodup := (W.placed.holds (.ep e)).nodup
    rw [hL, List.nodup_middle, List.nodup_cons] at hnodup
    exact fun h => hnodup.1 (List.mem_append_left _ h)
  rw [List.foldlM_cons, State.port, State.port, update_self, hL]
  cases hstate : s.epState e with
  | idle =>
      rw [W.ep_idle, hL] at hstate
      simp at hstate
  | send =>
      have hpair : (t, s.blockingIPCBadge t) ∉ l.map fun u => (u, s.blockingIPCBadge u) := by
        intro h
        obtain ⟨u, hu, heq⟩ := List.mem_map.mp h
        rw [(Prod.mk.inj heq).1] at hu
        exact hnot hu
      rw [leaving, if_pos (W.ep_send e hstate t hmem), if_pos rfl, if_neg (by simp), List.map_append,
        List.map_cons, Port.step_leaveSend hpair, List.map_append]
      rfl
  | recv =>
      have htype : s.tsType t ≠ .blockedOnSend := by
        rw [W.ep_recv e hstate t hmem]
        simp
      rw [leaving, if_neg htype, if_neg (by simp), if_pos rfl, Port.step_leaveReceive hnot]
      rfl

/-- Where threads wait after all have left one queue. -/
lemma waits_clear (W : Wf s L) {p : Place} {types : ℕ → TsType}
    (htypes : ∀ u, types u = if u ∈ L p then .restart else s.tsType u) (u : ℕ) :
    placeOf (types u) (s.blockingObject u) =
      if s.waitsAt u = some p then none else s.waitsAt u := by
  rw [htypes]
  by_cases hu : u ∈ L p
  · rw [if_pos hu, if_pos ((W.placed.mem p u).mp hu)]
    rfl
  · rw [if_neg hu, if_neg fun h => hu ((W.placed.mem p u).mpr h)]
    rfl

/-- All threads leave, in the order of the queue. -/
lemma foldlM_leaving (W : Wf s L) :
    ((L (.ep e)).map (leaving s)).foldlM Port.step (s.port L e) = some ⟨[], []⟩ := by
  have hport : s.port L e = { senders := _, receivers := _ } := rfl
  cases hstate : s.epState e with
  | idle =>
      rw [(W.ep_idle e).mp hstate, hport, hstate]
      simp
  | send =>
      have hevents : (L (.ep e)).map (leaving s) =
          ((L (.ep e)).map fun t => (t, s.blockingIPCBadge t)).map fun x => .leaveSend x.1 x.2 := by
        rw [List.map_map]
        refine List.map_congr_left fun t ht => ?_
        rw [leaving, if_pos (W.ep_send e hstate t ht)]
        rfl
      rw [hevents, hport, hstate]
      exact Port.foldlM_leaveSend _ _
  | recv =>
      have hevents : (L (.ep e)).map (leaving s) = (L (.ep e)).map .leaveReceive := by
        refine List.map_congr_left fun t ht => ?_
        rw [leaving, if_neg (by rw [W.ep_recv e hstate t ht]; simp)]
      rw [hevents, hport, hstate]
      exact Port.foldlM_leaveReceive _ _

/-- **All threads leave an endpoint.** -/
lemma epClear (W : Wf s L)
    (hs' : s' = { s with
      tsType := fun u => if u ∈ L (.ep e) then .restart else s.tsType u
      epState := update s.epState e .idle
      epQueue := update s.epQueue e .empty
      epTrace := update s.epTrace e (s.epTrace e ++ (L (.ep e)).map (leaving s)) }) :
    Wf s' (update L (.ep e) []) := by
  have htypes : ∀ u, s'.tsType u = if u ∈ L (.ep e) then .restart else s.tsType u := by
    intro u
    rw [hs']
  have hobject : s'.blockingObject = s.blockingObject := by rw [hs']
  have hqueue : s'.queue = update s.queue (.ep e) .empty :=
    queue_updateEp (by rw [hs']) (by rw [hs'])
  have hstate : s'.epState = update s.epState e .idle := by rw [hs']
  have htrace : s'.epTrace = update s.epTrace e (s.epTrace e ++ (L (.ep e)).map (leaving s)) := by
    rw [hs']
  have hwaits : ∀ u, s'.waitsAt u = if s.waitsAt u = some (.ep e) then none else s.waitsAt u := by
    intro u
    rw [← W.waits_clear htypes, State.waitsAt, hobject]
  refine W.changeEp ?_ (fun u hu => ?_) ?_ ?_ ?_ ?_ ?_ (by rw [hs']) (by rw [hs']) (by rw [hs'])
    ?_ ?_
  · rw [hqueue]
    have hlinks : s'.tcbEPNext = s.tcbEPNext ∧ s'.tcbEPPrev = s.tcbEPPrev := by
      rw [hs']
      exact ⟨rfl, rfl⟩
    rw [hlinks.1, hlinks.2]
    exact W.placed.clear hwaits
  · rw [hwaits] at hu
    refine W.address u fun h => hu ?_
    rw [h]
    simp
  · intro e' he
    rw [hstate, update_of_ne he]
  · intro p hp u hu
    have hout : u ∉ L (.ep e) := fun h => hp (W.placed.apart hu h)
    rw [htypes, if_neg hout, hs']
    exact ⟨rfl, rfl⟩
  · rw [hstate, update_self]
    simp
  · intro _ u hu
    cases hu
  · intro _ u hu
    cases hu
  · intro e' he
    rw [htrace, update_of_ne he]
  · rw [htrace, update_self, Port.replay_append (W.ports e), W.foldlM_leaving, State.port]
    simp

/-- **A thread leaves a notification.** -/
lemma ntfnLeave (W : Wf s L) (hL : L (.ntfn n) = l ++ t :: r) (hts : Free ts) :
    Wf ((s.ntfnRemove n t).setThreadState t ts) (update L (.ntfn n) (l ++ r)) := by
  obtain ⟨next, prev, hdequeue, hplaced⟩ := tcbEPDequeue_spec W.placed hL
  have hdequeue : s.tcbEPDequeue t (s.ntfnQueue n) = _ := hdequeue
  have hremove : s.ntfnRemove n t = { s with
      tcbEPNext := next
      tcbEPPrev := prev
      ntfnQueue := update s.ntfnQueue n ⟨(l ++ r).head?, (l ++ r).getLast?⟩
      ntfnState := if l ++ r = [] then update s.ntfnState n .idle else s.ntfnState } := by
    rw [State.ntfnRemove, hdequeue]
    simp only [List.head?_eq_none_iff]
  obtain ⟨s', hs'⟩ : ∃ s', s' = (s.ntfnRemove n t).setThreadState t ts := ⟨_, rfl⟩
  rw [← hs']
  rw [hremove, State.setThreadState] at hs'
  have htypes : s'.tsType = update s.tsType t ts := by rw [hs']
  have hobject : s'.blockingObject = s.blockingObject := by rw [hs']
  have hqueue : s'.queue = update s.queue (.ntfn n) ⟨(l ++ r).head?, (l ++ r).getLast?⟩ :=
    queue_updateNtfn (by rw [hs']) (by rw [hs'])
  have hstate : s'.ntfnState = if l ++ r = [] then update s.ntfnState n .idle else s.ntfnState := by
    rw [hs']
  have hwaits : s'.waitsAt = update s.waitsAt t none := by
    rw [← waits_leave hts htypes, ← hobject]
    rfl
  have hmem : t ∈ L (.ntfn n) := by
    rw [hL]
    simp
  have hwaiting : s.ntfnState n = .waiting := (W.ntfn_waiting n).mpr (List.ne_nil_of_mem hmem)
  refine W.changeNtfn ?_ ?_ ?_ ?_ ?_ (by rw [hs']) (by rw [hs']) (by rw [hs']) (by rw [hs'])
    (by rw [hs'])
  · rw [hqueue, hwaits, hs']
    exact hplaced
  · rw [hwaits]
    exact W.address_leave
  · intro n' hn
    rw [hstate]
    split_ifs
    · exact update_of_ne hn ..
    · rfl
  · intro p hp u hu
    have hut : u ≠ t := by
      rintro rfl
      exact hp (W.placed.apart hu hmem)
    rw [htypes, update_of_ne hut]
  · rw [hstate]
    split_ifs with hnil
    · simp [hnil]
    · simp [hnil, hwaiting]

/-- **A thread comes to a notification.** -/
lemma ntfnJoin (W : Wf s L) (ht : s.waitsAt t = none) (haddr : 0 < t ∧ t < wordBound)
    {next prev : ℕ → Option ℕ} {q : Queue ℕ}
    (hplaced : Placed next prev (update s.queue (.ntfn n) q) (update s.waitsAt t (some (.ntfn n)))
      (update L (.ntfn n) (L (.ntfn n) ++ [t])))
    (hs' : s' = { s with
      tsType := update s.tsType t .blockedOnNotification
      blockingObject := update s.blockingObject t n
      tcbEPNext := next
      tcbEPPrev := prev
      ntfnState := update s.ntfnState n .waiting
      ntfnQueue := update s.ntfnQueue n q }) :
    Wf s' (update L (.ntfn n) (L (.ntfn n) ++ [t])) := by
  have htypes : s'.tsType = update s.tsType t .blockedOnNotification := by rw [hs']
  have hobject : s'.blockingObject = update s.blockingObject t n := by rw [hs']
  have hqueue : s'.queue = update s.queue (.ntfn n) q :=
    queue_updateNtfn (by rw [hs']) (by rw [hs'])
  have hstate : s'.ntfnState = update s.ntfnState n .waiting := by rw [hs']
  have hwaits : s'.waitsAt = update s.waitsAt t (some (.ntfn n)) := waits_join htypes hobject
  refine W.changeNtfn ?_ ?_ ?_ ?_ ?_ (by rw [hs']) (by rw [hs']) (by rw [hs']) (by rw [hs'])
    (by rw [hs'])
  · rw [hqueue, hwaits, hs']
    exact hplaced
  · rw [hwaits]
    exact W.address_join haddr
  · intro n' hn
    rw [hstate, update_of_ne hn]
  · intro p _ u hu
    have hut : u ≠ t := by
      rintro rfl
      exact W.placed.notMem ht hu
    rw [htypes, update_of_ne hut]
  · rw [hstate, update_self]
    simp

/-- **All threads leave a notification.** -/
lemma ntfnClear (W : Wf s L)
    (hs' : s' = { s with
      tsType := fun u => if u ∈ L (.ntfn n) then .restart else s.tsType u
      ntfnState := update s.ntfnState n .idle
      ntfnQueue := update s.ntfnQueue n .empty }) :
    Wf s' (update L (.ntfn n) []) := by
  have htypes : ∀ u, s'.tsType u = if u ∈ L (.ntfn n) then .restart else s.tsType u := by
    intro u
    rw [hs']
  have hobject : s'.blockingObject = s.blockingObject := by rw [hs']
  have hqueue : s'.queue = update s.queue (.ntfn n) .empty :=
    queue_updateNtfn (by rw [hs']) (by rw [hs'])
  have hstate : s'.ntfnState = update s.ntfnState n .idle := by rw [hs']
  have hwaits : ∀ u, s'.waitsAt u =
      if s.waitsAt u = some (.ntfn n) then none else s.waitsAt u := by
    intro u
    rw [← W.waits_clear htypes, State.waitsAt, hobject]
  refine W.changeNtfn ?_ (fun u hu => ?_) ?_ ?_ ?_ (by rw [hs']) (by rw [hs']) (by rw [hs'])
    (by rw [hs']) (by rw [hs'])
  · rw [hqueue]
    have hlinks : s'.tcbEPNext = s.tcbEPNext ∧ s'.tcbEPPrev = s.tcbEPPrev := by
      rw [hs']
      exact ⟨rfl, rfl⟩
    rw [hlinks.1, hlinks.2]
    exact W.placed.clear hwaits
  · rw [hwaits] at hu
    refine W.address u fun h => hu ?_
    rw [h]
    simp
  · intro n' hn
    rw [hstate, update_of_ne hn]
  · intro p hp u hu
    rw [htypes, if_neg fun h => hp (W.placed.apart hu h)]
  · rw [hstate, update_self]
    simp

end Wf

end Kernel.Ipc
