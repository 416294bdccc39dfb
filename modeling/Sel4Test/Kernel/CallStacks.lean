import Sel4Test.Lib.Exec
import Sel4Test.Lib.Pointers
import Sel4Test.Kernel.Reply

/-!
The pointers between threads, scheduling contexts and reply objects agree with each other
over every run, so that each call stack is a finite list and no reply object is in two.

`Wired` is the invariant. Its four pairs of fields are the claim; besides, a reply object in
a stack belongs to a thread that is blocked on it, and every path of `replyPrev` ends. An
operation is a few changes of one pair each, named in `Stacks`: a link of the chain or the
link to the head is cut or put.

* `gives_replyPush`, `gives_replyPop`, `gives_replyRemove`, `gives_replyRemoveTcb`, and so
  on: one lemma for each operation. No assertion fails, and no null pointer is followed.
* `callStacks_consistent`: what holds in every state of every run.
-/

namespace Kernel.Mcs

open Checked Pointers
open Function (update update_self update_of_ne update_idem update_comm)

/-! ### Stacks -/

/-- The scheduling context of a head link. -/
def CallStack.head (c : CallStack) : Option ℕ := if c.isHead then c.callStackPtr else none

/-- The reply object of a link that is not a head link. -/
def CallStack.next (c : CallStack) : Option ℕ := if c.isHead then none else c.callStackPtr

@[simp] lemma CallStack.head_null : CallStack.null.head = none := rfl
@[simp] lemma CallStack.next_null : CallStack.null.next = none := rfl
@[simp] lemma CallStack.ptr_null : CallStack.null.callStackPtr = none := rfl
@[simp] lemma CallStack.head_mk_true (p : Option ℕ) : CallStack.head ⟨p, true⟩ = p := rfl
@[simp] lemma CallStack.next_mk_true (p : Option ℕ) : CallStack.next ⟨p, true⟩ = none := rfl
@[simp] lemma CallStack.head_mk_false (p : Option ℕ) : CallStack.head ⟨p, false⟩ = none := rfl
@[simp] lemma CallStack.next_mk_false (p : Option ℕ) : CallStack.next ⟨p, false⟩ = p := rfl

lemma CallStack.head_eq_some {c : CallStack} {sc : ℕ} :
    c.head = some sc ↔ c = ⟨some sc, true⟩ := by
  obtain ⟨p, b⟩ := c
  cases b <;> simp

lemma CallStack.next_eq_some {c : CallStack} {r : ℕ} :
    c.next = some r ↔ c = ⟨some r, false⟩ := by
  obtain ⟨p, b⟩ := c
  cases b <;> simp

lemma CallStack.of_not_head {c : CallStack}
    (h : ¬ (c.callStackPtr.isSome = true ∧ c.isHead = true)) :
    c.head = none ∧ c.callStackPtr = c.next := by
  obtain ⟨p, b⟩ := c
  cases b <;> cases p <;> simp_all

/-- The four pointer fields of the call stacks. -/
structure Stacks (scReply head prev next : ℕ → Option ℕ) : Prop where
  heads : Paired scReply head
  chain : Paired prev next
  ends : ∀ r, Ends prev (some r)

namespace Stacks

variable {scReply head prev next : ℕ → Option ℕ} {sc r q : ℕ}

/-- The head leaves the scheduling context. -/
lemma cutHead (h : Stacks scReply head prev next) (hsc : scReply sc = some r) :
    Stacks (update scReply sc none) (update head r none) prev next :=
  ⟨h.heads.unlink hsc, h.chain, h.ends⟩

/-- A free reply object becomes the head of a free scheduling context. -/
lemma putHead (h : Stacks scReply head prev next) (hsc : scReply sc = none)
    (hr : head r = none) :
    Stacks (update scReply sc (some r)) (update head r (some sc)) prev next :=
  ⟨h.heads.link hsc hr, h.chain, h.ends⟩

/-- The link between two reply objects is cut. -/
lemma cutLink (h : Stacks scReply head prev next) (hr : prev r = some q) :
    Stacks scReply head (update prev r none) (update next q none) where
  heads := h.heads
  chain := h.chain.unlink hr
  ends x := (h.ends x).cut fun y => by
    by_cases hy : y = r
    · exact .inr (by rw [hy, update_self])
    · exact .inl (by rw [update_of_ne hy])

/-- The part of the stack above `r` is cut off, if there is one. -/
lemma cutNext (h : Stacks scReply head prev next) :
    Stacks scReply head ((next r).elim prev fun n => update prev n none)
      (update next r none) := by
  cases hn : next r with
  | none => rwa [Option.elim_none, update_none hn]
  | some n => exact h.cutLink ((h.chain n r).mpr hn)

/-- The part of the stack below `r` is cut off, if there is one. -/
lemma cutPrev (h : Stacks scReply head prev next) :
    Stacks scReply head (update prev r none)
      ((prev r).elim next fun q => update next q none) := by
  cases hq : prev r with
  | none => rwa [Option.elim_none, update_none hq]
  | some q => exact h.cutLink hq

/-- A reply object with no links is put above one that no other is above. -/
lemma putLink (h : Stacks scReply head prev next) (hr : prev r = none) (hrnext : next r = none)
    (hq : next q = none) (hne : q ≠ r) :
    Stacks scReply head (update prev r (some q)) (update next q (some r)) where
  heads := h.heads
  chain := h.chain.link hr hq
  ends := Ends.push h.ends
    (fun x hx => by
      rw [h.chain, hrnext] at hx
      cases hx)
    (by simpa using hne)

/-- The head `r` is taken off, and the one below it, if there is one, becomes the head. -/
lemma pop (h : Stacks scReply head prev next) (hsc : scReply sc = some r)
    (hnext : next r = none) (hbelow : ∀ p, prev r = some p → head p = none) :
    Stacks (update scReply sc (prev r))
      (update ((prev r).elim head fun p => update head p (some sc)) r none) (update prev r none)
      (update ((prev r).elim next fun p => update next p none) r none) := by
  have hcut := h.cutHead hsc
  cases hp : prev r with
  | none =>
      rw [Option.elim_none, Option.elim_none, update_none hp, update_none hnext]
      exact hcut
  | some p =>
      have hup := (h.chain r p).mp hp
      have hne : p ≠ r := by
        intro heq
        rw [heq, hnext] at hup
        cases hup
      have hfree : update head r none p = none := by
        rw [update_of_ne hne]
        exact hbelow p hp
      have hput := (hcut.cutLink hp).putHead (update_self ..) hfree
      have hnext' : update next p none r = none := by rwa [update_of_ne hne.symm]
      rw [update_idem, update_comm hne.symm] at hput
      rwa [Option.elim_some, Option.elim_some, update_none hnext']

/-- `r` is taken out of the middle, and the chain is broken there. -/
lemma remove (h : Stacks scReply head prev next) (hself : prev r ≠ some r) :
    Stacks scReply head
      (update ((next r).elim prev fun n => update prev n none) r none)
      (update ((prev r).elim next fun p => update next p none) r none) := by
  have hcut := (h.cutNext (r := r)).cutPrev (r := r)
  cases hn : next r with
  | none =>
      rw [hn, Option.elim_none, update_none hn] at hcut
      cases hp : prev r with
      | none =>
          rw [hp] at hcut
          rwa [Option.elim_none, Option.elim_none, update_none hn]
      | some p =>
          have hne : p ≠ r := fun heq => hself (heq ▸ hp)
          rw [hp, Option.elim_some] at hcut
          have hnext' : update next p none r = none := by rwa [update_of_ne hne.symm]
          rwa [Option.elim_none, Option.elim_some, update_none hnext']
  | some n =>
      have hne : n ≠ r := by
        intro heq
        rw [heq, ← h.chain] at hn
        exact hself hn
      rw [hn, Option.elim_some, update_of_ne hne.symm] at hcut
      cases hp : prev r with
      | none =>
          rw [hp, Option.elim_none] at hcut
          rwa [Option.elim_some, Option.elim_none]
      | some p =>
          have hpr : p ≠ r := fun heq => hself (heq ▸ hp)
          rw [hp, Option.elim_some, update_comm hpr.symm] at hcut
          rwa [Option.elim_some, Option.elim_some]

/-- A reply object with no links becomes the head, above the head so far. -/
lemma push (h : Stacks scReply head prev next) (hprev : prev r = none) (hhead : head r = none)
    (hnext : next r = none) (hold : ∀ o, scReply sc = some o → next o = none) :
    Stacks (update scReply sc (some r))
      (update ((scReply sc).elim head fun o => update head o none) r (some sc))
      (update prev r (scReply sc))
      (update ((scReply sc).elim next fun o => update next o (some r)) r none) := by
  cases hsc : scReply sc with
  | none =>
      rw [Option.elim_none, Option.elim_none, update_none hprev, update_none hnext]
      exact h.putHead hsc hhead
  | some o =>
      have hne : o ≠ r := by
        intro heq
        rw [h.heads, heq, hhead] at hsc
        cases hsc
      have hlink := (h.cutHead hsc).putLink hprev hnext (hold o hsc) hne
      have hput := hlink.putHead (update_self ..) (by rwa [update_of_ne hne.symm])
      have hnext' : update next o (some r) r = none := by rwa [update_of_ne hne.symm]
      rw [update_idem] at hput
      rwa [Option.elim_some, Option.elim_some, update_none hnext']

end Stacks

/-! ### The invariant -/

namespace State

variable (s : State)

/-- The reply object that the state of a thread names. -/
def names (t : ℕ) : Option ℕ :=
  if s.tsType t = .blockedOnReceive ∨ s.tsType t = .blockedOnReply then s.replyObject t else none

/-- The next reply object down the stack. -/
def prev : ℕ → Option ℕ := CallStack.callStackPtr ∘ s.replyPrev

/-- The scheduling context that a reply object is the head of. -/
def head : ℕ → Option ℕ := CallStack.head ∘ s.replyNext

/-- The next reply object up the stack. -/
def next : ℕ → Option ℕ := CallStack.next ∘ s.replyNext

/-- The reply object has a link. -/
def Linked (r : ℕ) : Prop := s.prev r ≠ none ∨ s.head r ≠ none ∨ s.next r ≠ none

end State

/-- The pointers agree with each other. -/
structure Wired (s : State) : Prop where
  sched : Paired s.scTcb s.tcbSchedContext
  blocked : Paired s.replyTCB s.names
  calls : Stacks s.scReply s.head s.prev s.next
  linked : ∀ r, s.Linked r → ∃ t, s.replyTCB r = some t ∧ s.tsType t = .blockedOnReply
  named : ∀ t, s.tsType t = .blockedOnReply → s.replyObject t ≠ none

variable {s : State} {sc t r : ℕ}

namespace Wired

/-- A thread that is blocked on a reply object is the thread of that object. -/
lemma blocked_iff (h : Wired s) (ht : s.tsType t = .blockedOnReply ∨ s.tsType t = .blockedOnReceive) :
    s.replyTCB r = some t ↔ s.replyObject t = some r := by
  rw [h.blocked, State.names, if_pos (Or.comm.mp ht)]

/-- A reply object without a thread has no link. -/
lemma not_linked (h : Wired s) (hr : s.replyTCB r = none) : ¬ s.Linked r := by
  intro hlinked
  obtain ⟨t, ht, -⟩ := h.linked r hlinked
  rw [hr] at ht
  cases ht

/-- The reply object of a thread that is blocked in a receive has no link. -/
lemma not_linked_of_receive (h : Wired s) (ht : s.tsType t = .blockedOnReceive)
    (hr : s.replyObject t = some r) : ¬ s.Linked r := by
  intro hlinked
  obtain ⟨t', ht', hts⟩ := h.linked r hlinked
  rw [(h.blocked_iff (.inr ht)).mpr hr] at ht'
  obtain rfl := Option.some.inj ht'
  rw [ht] at hts
  cases hts

end Wired

/-- The pointers between threads and scheduling contexts change. -/
lemma Wired.resched (h : Wired s) {f g : ℕ → Option ℕ} (hfg : Paired f g) :
    Wired { s with scTcb := f, tcbSchedContext := g } :=
  ⟨hfg, h.blocked, h.calls, h.linked, h.named⟩

/-! ### Scheduling contexts -/

/-- `schedContext_donate` changes the pointers between threads and scheduling contexts. -/
lemma gives_schedContextDonate (h : Paired s.scTcb s.tcbSchedContext)
    (hto : s.tcbSchedContext t = none) :
    Gives (s.schedContextDonate sc t) fun s' =>
      ∃ f g, s' = { s with scTcb := f, tcbSchedContext := g } ∧ Paired f g := by
  refine (gives_assert hto).bind fun _ _ => gives_pure ?_
  cases hfrom : s.scTcb sc with
  | none =>
      refine ⟨_, _, rfl, ?_⟩
      exact h.link hfrom hto
  | some old =>
      refine ⟨_, _, rfl, ?_⟩
      exact h.move hfrom hto

lemma gives_schedContextBindTCB (h : Wired s) (hsc : s.scTcb sc = none)
    (ht : s.tcbSchedContext t = none) : Gives (s.schedContextBindTCB sc t) Wired := by
  refine (gives_assert hsc).bind fun _ _ => ?_
  refine (gives_assert ht).bind fun _ _ => gives_pure ?_
  exact h.resched (h.sched.link hsc ht)

/-- `schedContext_unbindTCB` frees the scheduling context and its thread. -/
lemma gives_schedContextUnbindTCB (h : Wired s) (hsc : s.scTcb sc = some t) :
    Gives (s.schedContextUnbindTCB sc) fun s' => Wired s' ∧ s'.tcbSchedContext t = none := by
  refine (gives_deref hsc).bind fun t' ht' => ?_
  subst ht'
  refine gives_pure ⟨h.resched (h.sched.unlink hsc), ?_⟩
  exact update_self ..

lemma gives_schedContextUnbindAllTCBs (h : Wired s) :
    Gives (s.schedContextUnbindAllTCBs sc) Wired := by
  rw [State.schedContextUnbindAllTCBs]
  split_ifs with hsc
  · obtain ⟨t, ht⟩ := Option.isSome_iff_exists.mp hsc
    exact (gives_schedContextUnbindTCB h ht).mono fun s' hs' => hs'.1
  · exact gives_pure h

lemma Wired.bindNtfn (h : Wired s) (ntfn : ℕ) : Wired (s.schedContextBindNtfn sc ntfn) :=
  ⟨h.sched, h.blocked, h.calls, h.linked, h.named⟩

lemma Wired.unbindNtfn (h : Wired s) : Wired (s.schedContextUnbindNtfn sc) := by
  rw [State.schedContextUnbindNtfn]
  cases s.scNotification sc with
  | none => exact h
  | some ntfn => exact ⟨h.sched, h.blocked, h.calls, h.linked, h.named⟩

/-- The links of the call stacks change, and no reply object gains its first one. -/
lemma Wired.restack (h : Wired s) {f : ℕ → Option ℕ} {p n : ℕ → CallStack}
    (hstacks : Stacks f (CallStack.head ∘ n) (CallStack.callStackPtr ∘ p) (CallStack.next ∘ n))
    (hlinked : ∀ r, (p r).callStackPtr ≠ none ∨ (n r).head ≠ none ∨ (n r).next ≠ none →
      s.Linked r) :
    Wired { s with scReply := f, replyPrev := p, replyNext := n } :=
  ⟨h.sched, h.blocked, hstacks, fun r hr => h.linked r (hlinked r hr), h.named⟩

/-- The head of the call stack is let go. -/
lemma Wired.dropReply (h : Wired s) : Wired (s.dropReply sc) := by
  rw [State.dropReply]
  cases hr : s.scReply sc with
  | none => exact h
  | some r =>
      have hhead := (h.calls.heads sc r).mp hr
      have hnext : s.next r = none := by
        rw [State.head, Function.comp_apply, CallStack.head_eq_some] at hhead
        rw [State.next, Function.comp_apply, hhead]
        rfl
      have hcut := h.calls.cutHead hr
      refine h.restack ?_ ?_
      · rw [Function.comp_update, Function.comp_update, CallStack.head_null, CallStack.next_null]
        show Stacks _ (update s.head r none) s.prev (update s.next r none)
        rwa [update_none hnext]
      · intro x hx
        by_cases hxr : x = r
        · subst hxr
          exact .inr (.inl (by rw [hhead]; simp))
        · rwa [update_of_ne hxr] at hx

/-! ### Thread states -/

lemma tsType_self (s : State) (t : ℕ) (ts : TsType) : (s.setThreadState t ts).tsType t = ts :=
  update_self ..

lemma tsType_of_ne (s : State) {t x : ℕ} (ts : TsType) (hx : x ≠ t) :
    (s.setThreadState t ts).tsType x = s.tsType x :=
  update_of_ne hx ..

/-- A change of the state of one thread changes what that thread names. -/
lemma names_update (s : State) (t : ℕ) (ts : TsType) (o : Option ℕ) :
    State.names { s with tsType := update s.tsType t ts, replyObject := update s.replyObject t o }
      = update s.names t (if ts = .blockedOnReceive ∨ ts = .blockedOnReply then o else none) := by
  funext x
  by_cases hx : x = t
  · subst hx
    simp only [State.names, update_self]
  · simp only [State.names, update_of_ne hx]

lemma names_setThreadState (s : State) (t : ℕ) {ts : TsType} (hreceive : ts ≠ .blockedOnReceive)
    (hreply : ts ≠ .blockedOnReply) :
    (s.setThreadState t ts).names = update s.names t none := by
  have hnames := names_update s t ts (s.replyObject t)
  rwa [Function.update_eq_self, if_neg (by simp [hreceive, hreply])] at hnames

/-- The thread names a reply object that is not in a stack. -/
structure Waiting (s : State) (r t : ℕ) : Prop where
  wired : Wired s
  tsType : s.tsType t = .blockedOnReceive ∨ s.tsType t = .blockedOnReply
  replyObject : s.replyObject t = some r
  free : ¬ s.Linked r

/-- The thread `t` has been taken off what it waited for, and nothing else has been. -/
structure Released (s : State) (t : ℕ) (s' : State) : Prop where
  wired : Wired s'
  names : s'.names t = none
  others : ∀ x ≠ t, s'.tsType x = s.tsType x
  replies : ∀ r, s.replyTCB r = some t → s'.replyTCB r = none

/-- `reply_unlink` frees a thread and a reply object that is in no stack. -/
lemma gives_replyUnlink (h : Waiting s r t) : Gives (s.replyUnlink r t) (Released s t) := by
  have htcb : s.replyTCB r = some t := by
    rw [h.wired.blocked_iff h.tsType.symm]
    exact h.replyObject
  have hnames : (s.setThreadState t .inactive).names = update s.names t none :=
    names_setThreadState s t (by decide) (by decide)
  refine (gives_assert h.tsType).bind fun _ _ => ?_
  refine (gives_assert htcb).bind fun _ _ => ?_
  refine (gives_assert h.replyObject).bind fun _ _ => gives_pure ?_
  refine ⟨⟨h.wired.sched, ?_, h.wired.calls, ?_, ?_⟩, ?_, ?_, ?_⟩
  · have hunlink := h.wired.blocked.unlink htcb
    rwa [← hnames] at hunlink
  · intro x hx
    obtain ⟨t', ht', hts⟩ := h.wired.linked x hx
    have hxr : x ≠ r := by
      intro heq
      subst heq
      exact h.free hx
    have htt : t' ≠ t := by
      intro heq
      subst heq
      exact hxr (h.wired.blocked.inj ht' htcb)
    exact ⟨t', by simpa [State.setThreadState, hxr] using ht',
      by simpa [State.setThreadState, htt] using hts⟩
  · intro x hx
    by_cases hxt : x = t
    · subst hxt
      simp [State.setThreadState] at hx
    · exact h.wired.named x (by simpa [State.setThreadState, hxt] using hx)
  · show (s.setThreadState t .inactive).names t = none
    rw [hnames, update_self]
  · exact fun x hx => update_of_ne hx ..
  · intro x hx
    obtain rfl := h.wired.blocked.inj hx htcb
    exact update_self ..

/-- A thread that names no reply object may take any state that names none. -/
lemma Wired.setThreadState (h : Wired s) {ts : TsType} (hnames : s.names t = none)
    (hreceive : ts ≠ .blockedOnReceive) (hreply : ts ≠ .blockedOnReply) :
    Wired (s.setThreadState t ts) where
  sched := h.sched
  blocked := by
    rw [names_setThreadState s t hreceive hreply, update_none hnames]
    exact h.blocked
  calls := h.calls
  linked x hx := by
    obtain ⟨t', ht', hts⟩ := h.linked x hx
    have hne : t' ≠ t := by
      intro heq
      subst heq
      rw [h.blocked, hnames] at ht'
      cases ht'
    exact ⟨t', ht', by rw [tsType_of_ne s ts hne, hts]⟩
  named x hx := by
    by_cases hxt : x = t
    · subst hxt
      rw [tsType_self] at hx
      exact absurd hx hreply
    · rw [tsType_of_ne s ts hxt] at hx
      exact h.named x hx

lemma Released.setThreadState {s' : State} (h : Released s t s') {ts : TsType}
    (hreceive : ts ≠ .blockedOnReceive) (hreply : ts ≠ .blockedOnReply) :
    Released s t (s'.setThreadState t ts) where
  wired := h.wired.setThreadState h.names hreceive hreply
  names := by rw [names_setThreadState s' t hreceive hreply, update_self]
  others x hx := by rw [tsType_of_ne s' ts hx, h.others x hx]
  replies := h.replies

/-! ### Taking a reply object out of its stack -/

lemma Wired.ptr_of_head (h : Wired s) (hsc : s.scReply sc = some r) :
    s.replyNext r = ⟨some sc, true⟩ :=
  CallStack.head_eq_some.mp ((h.calls.heads sc r).mp hsc)

lemma Wired.ptr_of_prev (h : Wired s) {p : ℕ} (hp : (s.replyPrev r).callStackPtr = some p) :
    s.replyNext p = ⟨some r, false⟩ :=
  CallStack.next_eq_some.mp ((h.calls.chain r p).mp hp)

/-- No reply object is below itself. -/
lemma Wired.prev_ne_self (h : Wired s) : s.prev r ≠ some r := by
  intro heq
  obtain ⟨l, hl⟩ := h.calls.ends r
  cases hl with
  | cons hl =>
      rw [heq] at hl
      have hsame := hl.unique (.cons (heq ▸ hl))
      have hlen := congrArg List.length hsame
      simp at hlen

/-- The links of `replyNext` when `r` is taken out, and the one below `r` has the link `c`. -/
def nextWithout (s : State) (r : ℕ) (c : CallStack) : ℕ → CallStack :=
  update ((s.replyPrev r).callStackPtr.elim s.replyNext fun p => update s.replyNext p c) r .null

lemma comp_nextWithout (s : State) (r : ℕ) (c : CallStack) (φ : CallStack → Option ℕ)
    (hφ : φ .null = none) :
    φ ∘ nextWithout s r c
      = update ((s.prev r).elim (φ ∘ s.replyNext) fun p => update (φ ∘ s.replyNext) p (φ c)) r
        none := by
  rw [nextWithout, Function.comp_update, hφ, State.prev, Function.comp_apply]
  cases (s.replyPrev r).callStackPtr with
  | none => rfl
  | some p => rw [Option.elim_some, Option.elim_some, Function.comp_update]

/-- Only what was linked is linked when `r` is taken out. -/
lemma Wired.linked_without (h : Wired s) {c : CallStack} {x : ℕ} (hx : x ≠ r)
    (hlinked : (nextWithout s r c x).head ≠ none ∨ (nextWithout s r c x).next ≠ none) :
    s.Linked x := by
  rw [nextWithout, update_of_ne hx] at hlinked
  cases hp : (s.replyPrev r).callStackPtr with
  | none =>
      rw [hp, Option.elim_none] at hlinked
      exact .inr hlinked
  | some p =>
      rw [hp, Option.elim_some] at hlinked
      by_cases hxp : x = p
      · subst hxp
        refine .inr (.inr ?_)
        rw [State.next, Function.comp_apply, h.ptr_of_prev hp]
        simp
      · rw [update_of_ne hxp] at hlinked
        exact .inr hlinked

/-- The links after `reply_pop`. -/
lemma Wired.pop (h : Wired s) (hnext : s.replyNext r = ⟨some sc, true⟩) {f g : ℕ → Option ℕ}
    (hfg : Paired f g) :
    Wired { s with
      scTcb := f, tcbSchedContext := g
      scReply := update s.scReply sc (s.replyPrev r).callStackPtr
      replyPrev := update s.replyPrev r .null
      replyNext := nextWithout s r ⟨some sc, true⟩ } := by
  have hsc : s.scReply sc = some r := by
    rw [h.calls.heads, State.head, Function.comp_apply, hnext]
    rfl
  have hbelow : ∀ p, s.prev r = some p → s.head p = none := by
    intro p hp
    rw [State.head, Function.comp_apply, h.ptr_of_prev hp]
    rfl
  have hstacks := h.calls.pop hsc (by rw [State.next, Function.comp_apply, hnext]; rfl) hbelow
  refine ⟨hfg, h.blocked, ?_, fun x hx => h.linked x ?_, h.named⟩
  · show Stacks _ (CallStack.head ∘ nextWithout s r _) (CallStack.callStackPtr ∘ update _ _ _)
      (CallStack.next ∘ nextWithout s r _)
    rw [comp_nextWithout s r _ _ CallStack.head_null, comp_nextWithout s r _ _ CallStack.next_null,
      Function.comp_update]
    exact hstacks
  · by_cases hxr : x = r
    · subst hxr
      exact .inr (.inl (by rw [State.head, Function.comp_apply, hnext]; simp))
    · rcases hx with hx | hx
      · exact .inl (by simpa [State.prev, hxr] using hx)
      · exact h.linked_without hxr hx

/-- The links of `replyPrev` when `r` is taken out of the middle. -/
def prevWithout (s : State) (r : ℕ) : ℕ → CallStack :=
  update ((s.next r).elim s.replyPrev fun n => update s.replyPrev n .null) r .null

lemma comp_prevWithout (s : State) (r : ℕ) :
    CallStack.callStackPtr ∘ prevWithout s r
      = update ((s.next r).elim s.prev fun n => update s.prev n none) r none := by
  rw [prevWithout, Function.comp_update]
  cases s.next r with
  | none => rfl
  | some n =>
      rw [Option.elim_some, Option.elim_some, Function.comp_update]
      rfl

/-- Only what was linked downwards is linked downwards when `r` is taken out. -/
lemma prev_of_prevWithout {x : ℕ} (hx : x ≠ r) (hprev : (prevWithout s r x).callStackPtr ≠ none) :
    s.prev x ≠ none := by
  rw [prevWithout, update_of_ne hx] at hprev
  cases hn : s.next r with
  | none => rwa [hn, Option.elim_none] at hprev
  | some n =>
      rw [hn, Option.elim_some] at hprev
      by_cases hxn : x = n
      · subst hxn
        rw [update_self] at hprev
        exact absurd rfl hprev
      · rwa [update_of_ne hxn] at hprev

/-- The object below `r` had no head link, so only `r` can lose one. -/
lemma Wired.head_without (h : Wired s) :
    CallStack.head ∘ nextWithout s r .null = update s.head r none := by
  rw [comp_nextWithout s r _ _ CallStack.head_null]
  cases hp : s.prev r with
  | none => rfl
  | some p =>
      have hfree : s.head p = none := by
        rw [State.head, Function.comp_apply, h.ptr_of_prev hp]
        rfl
      have hsame := update_none hfree
      rw [State.head] at hsame
      rw [Option.elim_some, CallStack.head_null, hsame]
      rfl

/-- The links after a removal from the middle, or from the top of a stack without a
scheduling context. -/
lemma Wired.remove (h : Wired s) (hhead : s.head r = none) :
    Wired { s with replyPrev := prevWithout s r, replyNext := nextWithout s r .null } := by
  have hstacks := h.calls.remove (h.prev_ne_self (r := r))
  refine ⟨h.sched, h.blocked, ?_, fun x hx => h.linked x ?_, h.named⟩
  · show Stacks _ (CallStack.head ∘ nextWithout s r _) (CallStack.callStackPtr ∘ prevWithout s r)
      (CallStack.next ∘ nextWithout s r _)
    rw [h.head_without, update_none hhead, comp_nextWithout s r _ _ CallStack.next_null,
      comp_prevWithout]
    exact hstacks
  · by_cases hxr : x = r
    · subst hxr
      simp [State.Linked, State.prev, State.head, State.next, prevWithout, nextWithout] at hx
    · rcases hx with hx | hx
      · exact .inl (prev_of_prevWithout hxr hx)
      · exact h.linked_without hxr hx

/-- The links after `reply_remove_tcb` of the head. -/
lemma Wired.removeHead (h : Wired s) (hnext : s.replyNext r = ⟨some sc, true⟩) :
    Wired { s with
      scReply := update s.scReply sc none
      replyPrev := update s.replyPrev r .null
      replyNext := nextWithout s r .null } := by
  have hsc : s.scReply sc = some r := by
    rw [h.calls.heads, State.head, Function.comp_apply, hnext]
    rfl
  have hfree : s.next r = none := by
    rw [State.next, Function.comp_apply, hnext]
    rfl
  have hstacks := (h.calls.cutHead hsc).cutPrev (r := r)
  have hnext' : CallStack.next ∘ nextWithout s r .null
      = (s.prev r).elim s.next fun p => update s.next p none := by
    rw [comp_nextWithout s r _ _ CallStack.next_null]
    cases hp : s.prev r with
    | none => exact update_none hfree
    | some p =>
        have hne : r ≠ p := by
          intro heq
          exact h.prev_ne_self (heq ▸ hp)
        exact update_none (by rw [Option.elim_some, update_of_ne hne]; exact hfree)
  refine ⟨h.sched, h.blocked, ?_, fun x hx => h.linked x ?_, h.named⟩
  · show Stacks _ (CallStack.head ∘ nextWithout s r _) (CallStack.callStackPtr ∘ update _ _ _)
      (CallStack.next ∘ nextWithout s r _)
    rw [h.head_without, hnext', Function.comp_update]
    exact hstacks
  · by_cases hxr : x = r
    · subst hxr
      exact .inr (.inl (by rw [State.head, Function.comp_apply, hnext]; simp))
    · rcases hx with hx | hx
      · exact .inl (by simpa [State.prev, hxr] using hx)
      · exact h.linked_without hxr hx

/-! ### Operations on reply objects -/

lemma elim_replyNext (s : State) (o : Option ℕ) (f : ℕ → ℕ → CallStack) :
    (o.elim s fun p => { s with replyNext := f p })
      = { s with replyNext := o.elim s.replyNext f } := by
  cases o <;> rfl

lemma elim_replyPrev (s : State) (o : Option ℕ) (f : ℕ → ℕ → CallStack) :
    (o.elim s fun n => { s with replyPrev := f n })
      = { s with replyPrev := o.elim s.replyPrev f } := by
  cases o <;> rfl

lemma not_linked_without (s : State) (r : ℕ) (c : CallStack) {p : ℕ → CallStack}
    (hp : p r = .null) :
    ¬ State.Linked { s with replyPrev := p, replyNext := nextWithout s r c } r := by
  simp [State.Linked, State.prev, State.head, State.next, nextWithout, hp]

/-- The thread is freed from a reply object that has been taken out. -/
lemma Waiting.released {s₁ : State} (h : Waiting s₁ r t) (hts : s₁.tsType = s.tsType)
    (hreply : s₁.replyTCB = s.replyTCB) : Gives (s₁.replyUnlink r t) (Released s t) := by
  refine (gives_replyUnlink h).mono fun s' hs' => ⟨hs'.wired, hs'.names, ?_, ?_⟩
  · rw [← hts]
    exact hs'.others
  · rw [← hreply]
    exact hs'.replies

/-- `reply_pop` of the head of a call stack. -/
lemma gives_replyPop (h : Wired s) (ht : s.tsType t = .blockedOnReply)
    (hr : s.replyObject t = some r) (hnext : s.replyNext r = ⟨some sc, true⟩) :
    Gives (s.replyPop r t) (Released s t) := by
  have htcb : s.replyTCB r = some t := (h.blocked_iff (.inl ht)).mpr hr
  have hptr : (s.replyNext r).callStackPtr = some sc := by rw [hnext]
  have hhead : ∀ p ∈ (s.replyPrev r).callStackPtr,
      ((s.replyPrev r).callStackPtr.elim s.replyNext (fun prev =>
        update s.replyNext prev (s.replyNext r)) p).isHead = true := by
    intro p hp
    rw [Option.mem_def] at hp
    rw [hp, Option.elim_some, update_self, hnext]
  have hunlink : ∀ f g, Paired f g → Gives (State.replyUnlink { s with
      scTcb := f, tcbSchedContext := g
      scReply := update s.scReply sc (s.replyPrev r).callStackPtr
      replyPrev := update s.replyPrev r .null
      replyNext := nextWithout s r ⟨some sc, true⟩ } r t) (Released s t) := by
    intro f g hfg
    have hwait : Waiting _ r t := ⟨h.pop hnext hfg, .inr ht, hr,
      not_linked_without s r _ (update_self ..)⟩
    exact hwait.released rfl rfl
  rw [State.replyPop]
  refine (gives_assert htcb).bind fun _ _ => ?_
  refine (gives_assert ht).bind fun _ _ => ?_
  refine (gives_assert hr).bind fun _ _ => ?_
  refine (gives_deref hptr).bind fun sc' hsc' => ?_
  subst hsc'
  dsimp only
  rw [elim_replyNext]
  dsimp only
  refine (gives_assert hhead).bind fun _ _ => ?_
  rw [hnext]
  split_ifs with hto
  · -- the scheduling context is given back
    refine Gives.bind (gives_schedContextDonate ?_ ?_) ?_
    · exact h.sched
    · exact hto
    · rintro s₁ ⟨f, g, rfl, hfg⟩
      exact hunlink f g hfg
  · exact hunlink s.scTcb s.tcbSchedContext h.sched

/-- `reply_remove`. -/
lemma gives_replyRemove (h : Wired s) (ht : s.tsType t = .blockedOnReply)
    (hr : s.replyObject t = some r) : Gives (s.replyRemove r t) (Released s t) := by
  have htcb : s.replyTCB r = some t := (h.blocked_iff (.inl ht)).mpr hr
  rw [State.replyRemove]
  refine (gives_assert htcb).bind fun _ _ => ?_
  refine (gives_assert ht).bind fun _ _ => ?_
  refine (gives_assert hr).bind fun _ _ => ?_
  dsimp only
  split_ifs with hhead
  · obtain ⟨hsome, htrue⟩ := hhead
    obtain ⟨sc, hsc⟩ := Option.isSome_iff_exists.mp hsome
    have hnext : s.replyNext r = ⟨some sc, true⟩ := by
      rw [← hsc, ← htrue]
    exact gives_replyPop h ht hr hnext
  · obtain ⟨hnone, hprev⟩ := CallStack.of_not_head hhead
    have hwait : Waiting { s with
        replyPrev := prevWithout s r, replyNext := nextWithout s r .null } r t :=
      ⟨h.remove hnone, .inr ht, hr, not_linked_without s r _ (update_self ..)⟩
    rw [elim_replyPrev]
    dsimp only
    rw [elim_replyNext, hprev]
    exact hwait.released rfl rfl

/-- `reply_remove_tcb`. -/
lemma gives_replyRemoveTcb (h : Wired s) (ht : s.tsType t = .blockedOnReply) :
    Gives (s.replyRemoveTcb t) (Released s t) := by
  obtain ⟨r, hr⟩ := Option.ne_none_iff_exists'.mp (h.named t ht)
  rw [State.replyRemoveTcb]
  refine (gives_assert ht).bind fun _ _ => ?_
  refine (gives_deref hr).bind fun r' hr' => ?_
  subst hr'
  dsimp only
  by_cases hhead : (s.replyNext r').callStackPtr.isSome = true ∧ (s.replyNext r').isHead = true
  · obtain ⟨hsome, htrue⟩ := hhead
    obtain ⟨sc, hsc⟩ := Option.isSome_iff_exists.mp hsome
    have hnext : s.replyNext r' = ⟨some sc, true⟩ := by
      rw [← hsc, ← htrue]
    have hwait : Waiting { s with
        scReply := update s.scReply sc none
        replyPrev := update s.replyPrev r' .null
        replyNext := nextWithout s r' .null } r' t :=
      ⟨h.removeHead hnext, .inr ht, hr, not_linked_without s r' _ (update_self ..)⟩
    rw [hnext, Option.elim_some, if_pos rfl, elim_replyNext]
    exact hwait.released rfl rfl
  · obtain ⟨hnone, hprev⟩ := CallStack.of_not_head hhead
    have hwait : Waiting { s with
        replyPrev := prevWithout s r', replyNext := nextWithout s r' .null } r' t :=
      ⟨h.remove hnone, .inr ht, hr, not_linked_without s r' _ (update_self ..)⟩
    have hmiddle : ((s.replyNext r').callStackPtr.elim s fun next =>
        if (s.replyNext r').isHead then { s with scReply := update s.scReply next none }
        else { s with replyPrev := update s.replyPrev next .null })
        = { s with replyPrev :=
            (s.next r').elim s.replyPrev fun n => update s.replyPrev n .null } := by
      have hsame : s.next r' = (s.replyNext r').callStackPtr := hprev.symm
      rw [hsame]
      cases hp : (s.replyNext r').callStackPtr with
      | none => rfl
      | some n =>
          have hfalse : ¬ (s.replyNext r').isHead = true := fun htrue =>
            hhead ⟨by rw [hp]; rfl, htrue⟩
          rw [Option.elim_some, Option.elim_some, if_neg hfalse]
    rw [hmiddle, elim_replyNext]
    exact hwait.released rfl rfl

/-- `cancelIPC` takes a thread off what it waits for. -/
lemma gives_cancelIPC (h : Wired s) : Gives (s.cancelIPC t) (Released s t) := by
  have hkeep : s.names t = none → Released s t s := fun hnames =>
    ⟨h, hnames, fun _ _ => rfl, fun r hr => by
      rw [h.blocked, hnames] at hr
      cases hr⟩
  rw [State.cancelIPC]
  split_ifs with hwaits hreceive hreply
  · have hnames : s.names t = none := by
      rw [State.names, if_neg]
      rcases hwaits with hts | hts <;> simp [hts]
    exact gives_pure ((hkeep hnames).setThreadState (by decide) (by decide))
  · cases hr : s.replyObject t with
    | none =>
        have hnames : s.names t = none := by
          rw [State.names, hr, ite_self]
        exact gives_pure ((hkeep hnames).setThreadState (by decide) (by decide))
    | some r =>
        have hfree := h.not_linked_of_receive hreceive hr
        refine (gives_replyUnlink ⟨h, .inl hreceive, hr, hfree⟩).bind fun s' hs' => ?_
        exact gives_pure (hs'.setThreadState (by decide) (by decide))
  · exact gives_replyRemoveTcb h hreply
  · have hnames : s.names t = none := by
      rw [State.names, if_neg]
      exact fun hts => hts.elim hreceive hreply
    exact gives_pure (hkeep hnames)

/-! ### Blocking and pushing -/

/-- A thread that names no reply object blocks, and names one that is free. -/
lemma Wired.block (h : Wired s) {ts : TsType} {o : Option ℕ}
    (hts : ts = .blockedOnReceive ∨ ts = .blockedOnReply) (ho : ts = .blockedOnReply → o ≠ none)
    (hnames : s.names t = none) (hfree : ∀ r, o = some r → s.replyTCB r = none)
    (hnot : s.tsType t ≠ .blockedOnReply) :
    Wired { s with
      tsType := update s.tsType t ts
      replyObject := update s.replyObject t o
      replyTCB := o.elim s.replyTCB fun r => update s.replyTCB r (some t) } where
  sched := h.sched
  blocked := by
    have hupdate := names_update s t ts o
    rw [if_pos hts] at hupdate
    show Paired _ (State.names { s with
      tsType := update s.tsType t ts, replyObject := update s.replyObject t o })
    rw [hupdate]
    -- a thread that receives need not name a reply object
    cases o with
    | none =>
        rw [update_none hnames]
        exact h.blocked
    | some r => exact h.blocked.link (hfree r rfl) hnames
  calls := h.calls
  linked x hx := by
    obtain ⟨t', ht', hts'⟩ := h.linked x hx
    have hne : t' ≠ t := by
      intro heq
      subst heq
      exact hnot hts'
    refine ⟨t', ?_, by simpa [hne] using hts'⟩
    cases o with
    | none => exact ht'
    | some r =>
        have hxr : x ≠ r := by
          intro heq
          subst heq
          exact h.not_linked (hfree x rfl) hx
        simpa [hxr] using ht'
  named x hx := by
    change update s.replyObject t o x ≠ none
    change update s.tsType t ts x = .blockedOnReply at hx
    by_cases hxt : x = t
    · subst hxt
      rw [update_self] at hx
      rw [update_self]
      exact ho hx
    · rw [update_of_ne hxt] at hx
      rw [update_of_ne hxt]
      exact h.named x hx

/-- The links after `reply_push`. -/
lemma Wired.push (sc : ℕ) (h : Wired s) (hfree : s.prev r = none ∧ s.head r = none ∧ s.next r = none)
    (hr : s.replyTCB r = some t) (ht : s.tsType t = .blockedOnReply) :
    Wired { s with
      replyPrev := update s.replyPrev r ⟨s.scReply sc, false⟩
      scReply := update s.scReply sc (some r)
      replyNext := update ((s.scReply sc).elim s.replyNext fun old =>
        update s.replyNext old ⟨some r, false⟩) r ⟨some sc, true⟩ } := by
  have hold : ∀ o, s.scReply sc = some o → s.next o = none := by
    intro o ho
    rw [State.next, Function.comp_apply, h.ptr_of_head ho]
    rfl
  have hstacks := h.calls.push hfree.1 hfree.2.1 hfree.2.2 hold
  refine ⟨h.sched, h.blocked, ?_, fun x hx => ?_, h.named⟩
  · show Stacks _ (CallStack.head ∘ update _ r _) (CallStack.callStackPtr ∘ update _ r _)
      (CallStack.next ∘ update _ r _)
    rw [Function.comp_update, Function.comp_update, Function.comp_update]
    -- an empty stack has no old head to be linked with the new one
    cases ho : s.scReply sc with
    | none =>
        rw [ho] at hstacks
        exact hstacks
    | some o =>
        rw [ho] at hstacks
        rw [Option.elim_some, Function.comp_update, Function.comp_update]
        exact hstacks
  · by_cases hxr : x = r
    · subst hxr
      exact ⟨t, hr, ht⟩
    · refine h.linked x ?_
      simp only [State.Linked, State.prev, State.head, State.next, Function.comp_apply,
        update_of_ne hxr] at hx
      cases ho : s.scReply sc with
      | none =>
          rw [ho, Option.elim_none] at hx
          exact hx
      | some o =>
          rw [ho, Option.elim_some] at hx
          by_cases hxo : x = o
          · subst hxo
            refine .inr (.inl ?_)
            rw [(h.calls.heads sc x).mp ho]
            simp
          · rwa [update_of_ne hxo] at hx

lemma not_linked_iff : ¬ s.Linked r ↔ s.prev r = none ∧ s.head r = none ∧ s.next r = none := by
  rw [State.Linked, not_or, not_or, not_not, not_not, not_not]

/-- `reply_push`: the caller waits for the reply object, and a donated scheduling context
has it on top. -/
lemma gives_replyPush {caller callee : ℕ} {canDonate : Bool} (h : Wired s)
    (hr : s.replyTCB r = none)
    (hcaller : s.tsType caller = .blockedOnSend ∨ s.tsType caller = .running ∨
      s.tsType caller = .restart)
    (hcallee : s.tsType callee = .inactive ∨ s.tsType callee = .running ∨
      s.tsType callee = .restart) :
    Gives (s.replyPush caller callee r canDonate) Wired := by
  have hfree := not_linked_iff.mp (h.not_linked hr)
  have hprev : (s.replyPrev r).callStackPtr = none := hfree.1
  have hnext : (s.replyNext r).callStackPtr = none := by
    by_contra hne
    by_cases htrue : (s.replyNext r).isHead = true
    · have hhead := hfree.2.1
      rw [State.head, Function.comp_apply, CallStack.head, if_pos htrue] at hhead
      exact hne hhead
    · have hlink := hfree.2.2
      rw [State.next, Function.comp_apply, CallStack.next, if_neg htrue] at hlink
      exact hne hlink
  have hnot : s.tsType caller ≠ .blockedOnReply := by
    rcases hcaller with hts | hts | hts <;> simp [hts]
  have hnames : s.names caller = none := by
    rw [State.names, if_neg]
    rcases hcaller with hts | hts | hts <;> simp [hts]
  have hblock := h.block (o := some r) (.inr rfl) (by simp) hnames
    (fun x hx => by rwa [← Option.some.inj hx]) hnot
  rw [State.replyPush]
  refine (gives_assert hr).bind fun _ _ => ?_
  refine (gives_assert hprev).bind fun _ _ => ?_
  refine (gives_assert hnext).bind fun _ _ => ?_
  refine (gives_assert hcaller).bind fun _ _ => ?_
  refine (gives_assert hcallee).bind fun _ _ => ?_
  dsimp only [State.setThreadStateBlockedOnReply]
  -- without a scheduling context there is no stack, and the caller is only blocked
  cases hsc : s.tcbSchedContext caller with
  | none => exact gives_pure hblock
  | some sc =>
      rw [Option.elim_some]
      split_ifs with hdonate
      · have htop : ∀ old ∈ s.scReply sc, (s.replyNext old).callStackPtr = some sc := by
          intro old hold
          rw [h.ptr_of_head hold]
        have hpush := hblock.push sc (r := r) (t := caller) hfree (update_self ..)
          (update_self ..)
        refine (gives_assert htop).bind fun _ _ => ?_
        rw [elim_replyNext]
        refine (gives_schedContextDonate ?_ ?_).mono ?_
        · exact h.sched
        · exact hdonate.1
        · rintro s' ⟨f, g, rfl, hfg⟩
          exact hpush.resched hfg
      · exact gives_pure hblock

/-- The blocking part of `receiveIPC`. -/
lemma gives_receiveBlocks {o : Option ℕ} (h : Wired s) (ht : s.tsType t = .running) :
    Gives (s.receiveBlocks t o) Wired := by
  have hnames : ∀ s' : State, s'.tsType t = .running → s'.names t = none := by
    intro s' hts
    rw [State.names, if_neg]
    simp [hts]
  -- the reply object is free once the thread that waited for it is cancelled
  have hcancel : Gives ((o.bind s.replyTCB).elim (pure s) fun tcb =>
      if tcb ≠ t then s.cancelIPC tcb else pure s) fun s' =>
        Wired s' ∧ s'.tsType t = .running ∧ ∀ r, o = some r → s'.replyTCB r = none := by
    cases ho : o.bind s.replyTCB with
    | none =>
        refine gives_pure ⟨h, ht, fun r hr => ?_⟩
        subst hr
        exact ho
    | some t' =>
        obtain ⟨r, rfl, hr⟩ := Option.bind_eq_some_iff.mp ho
        have hne : t' ≠ t := by
          intro heq
          subst heq
          rw [h.blocked, hnames s ht] at hr
          cases hr
        rw [Option.elim_some, if_pos hne]
        refine (gives_cancelIPC h).mono fun s' hs' => ⟨hs'.wired, ?_, ?_⟩
        · rw [hs'.others t hne.symm, ht]
        · intro x hx
          obtain rfl := Option.some.inj hx
          exact hs'.replies r hr
  refine hcancel.bind fun s' ⟨hs', hts, hfree⟩ => gives_pure ?_
  have hblock := hs'.block (o := o) (Or.inl (rfl : TsType.blockedOnReceive = _)) (by simp)
    (hnames s' hts) hfree (by simp [hts])
  cases o with
  | none => exact hblock
  | some r => exact hblock

/-! ### Deletion -/

/-- A reply object that is deleted belongs to no thread any more. -/
lemma gives_finaliseReply (h : Wired s) :
    Gives (s.finaliseReply r) fun s' => Wired s' ∧ s'.replyTCB r = none := by
  rw [State.finaliseReply]
  cases hr : s.replyTCB r with
  | none => exact gives_pure ⟨h, hr⟩
  | some t =>
      have hnames := (h.blocked r t).mp hr
      have hdone : ∀ s', Released s t s' → Wired s' ∧ s'.replyTCB r = none := fun s' hs' =>
        ⟨hs'.wired, hs'.replies r hr⟩
      rw [Option.elim_some]
      split_ifs with hreply hreceive
      · have hobject := (h.blocked_iff (.inl hreply)).mp hr
        exact (gives_replyRemove h hreply hobject).mono hdone
      · exact (gives_cancelIPC h).mono hdone
      · rw [State.names, if_neg (fun hts => hts.elim hreceive hreply)] at hnames
        cases hnames

/-- A thread that is deleted has no scheduling context and waits for nothing. -/
lemma gives_finaliseThread (h : Wired s) :
    Gives (s.finaliseThread t) fun s' => Wired s' ∧ s'.names t = none := by
  have hunbind : Gives ((s.tcbSchedContext t).elim (pure s) fun sc => s.schedContextUnbindTCB sc)
      Wired := by
    cases hsc : s.tcbSchedContext t with
    | none => exact gives_pure h
    | some sc =>
        have hback := (h.sched sc t).mpr hsc
        exact (gives_schedContextUnbindTCB h hback).mono fun s' hs' => hs'.1
  refine hunbind.bind fun s₁ hs₁ => ?_
  refine (gives_cancelIPC hs₁).bind fun s₂ hs₂ => ?_
  have hs₃ := hs₂.setThreadState (show TsType.inactive ≠ _ by decide) (by decide)
  exact gives_pure ⟨hs₃.wired, hs₃.names⟩

lemma gives_finaliseSchedContext (h : Wired s) : Gives (s.finaliseSchedContext sc) Wired := by
  refine (gives_schedContextUnbindAllTCBs h).bind fun s₁ hs₁ => ?_
  have hs₂ : Wired (s₁.schedContextUnbindNtfn sc) := hs₁.unbindNtfn
  have htop : ∀ reply ∈ (s₁.schedContextUnbindNtfn sc).scReply sc,
      ((s₁.schedContextUnbindNtfn sc).replyNext reply).isHead = true := by
    intro reply hreply
    rw [hs₂.ptr_of_head hreply]
  exact (gives_assert htop).bind fun _ _ => gives_pure hs₂.dropReply

lemma gives_invokeSchedContextUnbind (h : Wired s) :
    Gives (s.invokeSchedContextUnbind sc) Wired :=
  (gives_schedContextUnbindAllTCBs h).bind fun _ hs₁ => gives_pure hs₁.unbindNtfn.dropReply

/-! ### Runs -/

/-- The operations on the pointers. The last four stand for the rest of the kernel: a thread
blocks in `receiveIPC`, `sendIPC` wakes it, `cancelIPC` is called for any thread, and a
thread that names no reply object changes its state. -/
inductive Op
  | replyPush (tcbCaller tcbCallee reply : ℕ) (canDonate : Bool)
  | replyPop (reply tcb : ℕ)
  | replyRemove (reply tcb : ℕ)
  | replyRemoveTcb (tcb : ℕ)
  | donate (sc tcbTo : ℕ)
  | bindTCB (sc tcb : ℕ)
  | unbindTCB (sc : ℕ)
  | bindNtfn (sc ntfn : ℕ)
  | unbindNtfn (sc : ℕ)
  | unbind (sc : ℕ)
  | finaliseReply (reply : ℕ)
  | finaliseThread (tcb : ℕ)
  | finaliseSchedContext (sc : ℕ)
  | receiveBlocks (thread : ℕ) (replyPtr : Option ℕ)
  | replyUnlink (reply tcb : ℕ)
  | cancelIPC (tptr : ℕ)
  | setThreadState (tptr : ℕ) (ts : TsType)

/-- The operation. -/
def perform (s : State) : Op → Except Fault State
  | .replyPush caller callee reply canDonate => s.replyPush caller callee reply canDonate
  | .replyPop reply tcb => s.replyPop reply tcb
  | .replyRemove reply tcb => s.replyRemove reply tcb
  | .replyRemoveTcb tcb => s.replyRemoveTcb tcb
  | .donate sc tcbTo => s.schedContextDonate sc tcbTo
  | .bindTCB sc tcb => s.schedContextBindTCB sc tcb
  | .unbindTCB sc => s.schedContextUnbindTCB sc
  | .bindNtfn sc ntfn => .ok (s.schedContextBindNtfn sc ntfn)
  | .unbindNtfn sc => .ok (s.schedContextUnbindNtfn sc)
  | .unbind sc => s.invokeSchedContextUnbind sc
  | .finaliseReply reply => s.finaliseReply reply
  | .finaliseThread tcb => s.finaliseThread tcb
  | .finaliseSchedContext sc => s.finaliseSchedContext sc
  | .receiveBlocks thread replyPtr => s.receiveBlocks thread replyPtr
  | .replyUnlink reply tcb => s.replyUnlink reply tcb
  | .cancelIPC tptr => s.cancelIPC tptr
  | .setThreadState tptr ts => .ok (s.setThreadState tptr ts)

/-- What the callers see to: which threads are in which state, and for `reply_pop` that the
reply object is the head of a stack. -/
def Admits (s : State) : Op → Prop
  | .replyPush caller callee reply _ =>
      s.replyTCB reply = none ∧
      (s.tsType caller = .blockedOnSend ∨ s.tsType caller = .running ∨
        s.tsType caller = .restart) ∧
      (s.tsType callee = .inactive ∨ s.tsType callee = .running ∨ s.tsType callee = .restart)
  | .replyPop reply tcb =>
      s.replyTCB reply = some tcb ∧ s.tsType tcb = .blockedOnReply ∧
        ∃ sc, s.replyNext reply = ⟨some sc, true⟩
  | .replyRemove reply tcb => s.replyTCB reply = some tcb ∧ s.tsType tcb = .blockedOnReply
  | .replyRemoveTcb tcb => s.tsType tcb = .blockedOnReply
  | .donate _ tcbTo => s.tcbSchedContext tcbTo = none
  | .bindTCB sc tcb => s.scTcb sc = none ∧ s.tcbSchedContext tcb = none
  | .unbindTCB sc => s.scTcb sc ≠ none
  | .receiveBlocks thread _ => s.tsType thread = .running
  | .replyUnlink reply tcb =>
      s.replyTCB reply = some tcb ∧ s.tsType tcb = .blockedOnReceive
  | .setThreadState tptr ts =>
      (s.tsType tptr = .blockedOnReceive → s.replyObject tptr = none) ∧
        s.tsType tptr ≠ .blockedOnReply ∧ ts ≠ .blockedOnReceive ∧ ts ≠ .blockedOnReply
  | _ => True

/-- The operation ends without a fault. -/
def Performs (s : State) (op : Op) (s' : State) : Prop := perform s op = .ok s'

/-- No object refers to another. -/
def State.initial : State where
  tsType _ := .inactive
  replyObject _ := none
  tcbSchedContext _ := none
  scTcb _ := none
  scReply _ := none
  scNotification _ := none
  replyTCB _ := none
  replyPrev _ := .null
  replyNext _ := .null
  ntfnSchedContext _ := none

/-- The call stack of a scheduling context, from its head down. -/
def CallStackOf (s : State) (sc : ℕ) (l : List ℕ) : Prop :=
  Path (fun r => (s.replyPrev r).callStackPtr) (s.scReply sc) l

/-- The pointers of threads, scheduling contexts and reply objects agree with each other:
each call stack is a finite list without repetition, and no two share a reply object. -/
structure Consistent (s : State) : Prop where
  scTcb_iff : ∀ sc t, s.scTcb sc = some t ↔ s.tcbSchedContext t = some sc
  replyTCB_iff : ∀ r t, s.replyTCB r = some t ↔
    (s.tsType t = .blockedOnReceive ∨ s.tsType t = .blockedOnReply) ∧ s.replyObject t = some r
  scReply_iff : ∀ sc r, s.scReply sc = some r ↔ s.replyNext r = ⟨some sc, true⟩
  replyPrev_iff : ∀ r q, (s.replyPrev r).callStackPtr = some q ↔ s.replyNext q = ⟨some r, false⟩
  stack : ∀ sc, ∃ l, CallStackOf s sc l ∧ l.Nodup
  apart : ∀ sc sc' l l' r, CallStackOf s sc l → CallStackOf s sc' l' → r ∈ l → r ∈ l' → sc = sc'

lemma Wired.initial : Wired .initial where
  sched := .empty
  blocked := by
    have hnames : State.names .initial = fun _ => none := by
      funext t
      simp [State.names, State.initial]
    rw [hnames]
    exact .empty
  calls := ⟨.empty, .empty, fun _ => Ends.cons .none⟩
  linked r hr := by
    rcases hr with hr | hr | hr <;> exact absurd rfl hr
  named t ht := by cases ht

lemma Wired.consistent (h : Wired s) : Consistent s := by
  have hscReply : ∀ sc r, s.scReply sc = some r ↔ s.replyNext r = ⟨some sc, true⟩ := by
    intro sc r
    rw [h.calls.heads, State.head, Function.comp_apply, CallStack.head_eq_some]
  refine ⟨h.sched, fun r t => ?_, hscReply, fun r q => ?_, fun sc => ?_, ?_⟩
  · rw [h.blocked, State.names]
    split_ifs with hts <;> simp [hts]
  · rw [← CallStack.next_eq_some]
    exact h.calls.chain r q
  · have hends : Ends s.prev (s.scReply sc) := by
      cases s.scReply sc with
      | none => exact .none
      | some r => exact h.calls.ends r
    obtain ⟨l, hl⟩ := hends
    exact ⟨l, hl, hl.nodup⟩
  · intro sc sc' l l' r hl hl' hr hr'
    -- nothing leads to the head of a stack
    have htop : ∀ sc a, s.scReply sc = some a → ∀ p, s.prev p ≠ some a := by
      intro sc a ha p hp
      have hhead := h.ptr_of_head ha
      rw [h.ptr_of_prev hp] at hhead
      cases hhead
    cases ha : s.scReply sc with
    | none =>
        rw [CallStackOf, ha] at hl
        cases hl
        cases hr
    | some a =>
        cases hb : s.scReply sc' with
        | none =>
            rw [CallStackOf, hb] at hl'
            cases hl'
            cases hr'
        | some b =>
            rw [CallStackOf, ha] at hl
            rw [CallStackOf, hb] at hl'
            have heq := hl.disjoint (fun p q x hp hq => h.calls.chain.inj hp hq) (htop sc a ha)
              (htop sc' b hb) hl' hr hr'
            subst heq
            exact h.calls.heads.inj ha hb

/-- **One step**: an operation whose caller does its part ends without a fault. -/
lemma Wired.step {op : Op} (h : Wired s) (hop : Admits s op) : Gives (perform s op) Wired := by
  cases op with
  | replyPush caller callee reply canDonate => exact gives_replyPush h hop.1 hop.2.1 hop.2.2
  | replyPop reply tcb =>
      obtain ⟨htcb, hts, sc, hnext⟩ := hop
      have hobject := (h.blocked_iff (.inl hts)).mp htcb
      exact (gives_replyPop h hts hobject hnext).mono fun s' hs' => hs'.wired
  | replyRemove reply tcb =>
      have hobject := (h.blocked_iff (.inl hop.2)).mp hop.1
      exact (gives_replyRemove h hop.2 hobject).mono fun s' hs' => hs'.wired
  | replyRemoveTcb tcb => exact (gives_replyRemoveTcb h hop).mono fun s' hs' => hs'.wired
  | donate sc tcbTo =>
      refine (gives_schedContextDonate h.sched hop).mono ?_
      rintro s' ⟨f, g, rfl, hfg⟩
      exact h.resched hfg
  | bindTCB sc tcb => exact gives_schedContextBindTCB h hop.1 hop.2
  | unbindTCB sc =>
      obtain ⟨t, ht⟩ := Option.ne_none_iff_exists'.mp hop
      exact (gives_schedContextUnbindTCB h ht).mono fun s' hs' => hs'.1
  | bindNtfn sc ntfn => exact gives_ok (h.bindNtfn ntfn)
  | unbindNtfn sc => exact gives_ok h.unbindNtfn
  | unbind sc => exact gives_invokeSchedContextUnbind h
  | finaliseReply reply => exact (gives_finaliseReply h).mono fun s' hs' => hs'.1
  | finaliseThread tcb => exact (gives_finaliseThread h).mono fun s' hs' => hs'.1
  | finaliseSchedContext sc => exact gives_finaliseSchedContext h
  | receiveBlocks thread replyPtr => exact gives_receiveBlocks h hop
  | replyUnlink reply tcb =>
      have hobject := (h.blocked_iff (.inr hop.2)).mp hop.1
      have hfree := h.not_linked_of_receive hop.2 hobject
      exact (gives_replyUnlink ⟨h, .inl hop.2, hobject, hfree⟩).mono fun s' hs' => hs'.wired
  | cancelIPC tptr => exact (gives_cancelIPC h).mono fun s' hs' => hs'.wired
  | setThreadState tptr ts =>
      obtain ⟨hreceive, hreply, hts, hts'⟩ := hop
      have hnames : s.names tptr = none := by
        rw [State.names]
        split_ifs with hold
        · exact hreceive (hold.resolve_right hreply)
        · rfl
      exact gives_ok (h.setThreadState hnames hts hts')

/-- **Call stacks**: in every state of every run the pointers agree, and the next operation
ends without a failed assertion or a null pointer that is followed. -/
theorem callStacks_consistent {ops : List Op}
    (h : Exec.Runs (Exec.Guarded Admits Performs) .initial ops s) :
    Consistent s ∧ ∀ op, Admits s op → ∃ s', perform s op = .ok s' := by
  have hwired : Wired s := by
    refine h.invariant Wired (fun s op s' hs hstep => ?_) .initial
    obtain ⟨s'', hs'', hwired⟩ := hs.step hstep.1
    have hsame : perform s op = .ok s' := hstep.2
    rw [hs''] at hsame
    obtain rfl : s'' = s' := by simpa using hsame
    exact hwired
  refine ⟨hwired.consistent, fun op hop => ?_⟩
  obtain ⟨s', hs', -⟩ := hwired.step hop
  exact ⟨s', hs'⟩

/-- Thread 1 runs on the scheduling context 7 and calls the thread 2, which calls the thread 3: the
stack of 7 has the reply object of the second call, and below it that of the first one. -/
theorem callStacks_consistent_call :
    ∃ s, Exec.Runs (Exec.Guarded Admits Performs) .initial
      [.setThreadState 1 .running, .setThreadState 2 .running, .setThreadState 3 .running,
        .bindTCB 7 1, .receiveBlocks 2 (some 30), .replyUnlink 30 2, .replyPush 1 2 30 true,
        .setThreadState 2 .running, .receiveBlocks 3 (some 31), .replyUnlink 31 3,
        .replyPush 2 3 31 true] s ∧
      s.scTcb 7 = some 3 ∧ s.scReply 7 = some 31 ∧ (s.replyPrev 31).callStackPtr = some 30 ∧
      s.replyTCB 31 = some 2 ∧ s.replyTCB 30 = some 1 ∧
      Consistent s ∧ ∀ op, Admits s op → ∃ s', perform s op = .ok s' := by
  have hthread : ∀ s : State, ∀ t ts, s.tsType t = .inactive → ts ≠ .blockedOnReceive →
      ts ≠ .blockedOnReply → Admits s (.setThreadState t ts) := by
    intro s t ts ht hreceive hreply
    exact ⟨by simp [ht], by simp [ht], hreceive, hreply⟩
  have hrun : Exec.Runs (Exec.Guarded Admits Performs) .initial
      [.setThreadState 1 .running, .setThreadState 2 .running, .setThreadState 3 .running,
        .bindTCB 7 1, .receiveBlocks 2 (some 30), .replyUnlink 30 2, .replyPush 1 2 30 true,
        .setThreadState 2 .running, .receiveBlocks 3 (some 31), .replyUnlink 31 3,
        .replyPush 2 3 31 true] _ :=
    .cons ⟨hthread _ 1 .running rfl (by decide) (by decide), rfl⟩ <|
    .cons ⟨hthread _ 2 .running rfl (by decide) (by decide), rfl⟩ <|
    .cons ⟨hthread _ 3 .running rfl (by decide) (by decide), rfl⟩ <|
    .cons ⟨⟨rfl, rfl⟩, rfl⟩ <|
    .cons ⟨(rfl : _ = TsType.running), rfl⟩ <|
    .cons ⟨⟨rfl, rfl⟩, rfl⟩ <|
    .cons ⟨⟨rfl, .inr (.inl rfl), .inl rfl⟩, rfl⟩ <|
    -- the callee of the first call runs, and is the caller of the second one
    .cons ⟨hthread _ 2 .running rfl (by decide) (by decide), rfl⟩ <|
    .cons ⟨(rfl : _ = TsType.running), rfl⟩ <|
    .cons ⟨⟨rfl, rfl⟩, rfl⟩ <|
    .cons ⟨⟨rfl, .inr (.inl rfl), .inl rfl⟩, rfl⟩ .nil
  exact ⟨_, hrun, rfl, rfl, rfl, rfl, rfl, callStacks_consistent hrun⟩

end Kernel.Mcs
