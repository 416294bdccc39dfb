import Mathlib.Tactic

/-!
A port where senders and receivers meet, first come first served.

A port holds the senders that wait, each with what it sends, and the receivers that wait,
both in the order in which they came. A transfer is between the first sender and the first
receiver; either side may leave before it is served. `Port.replay` runs a port over a trace
of events and has a result only if every transfer was one the port allows.

* `replay_sent`: what was sent is what was transferred, what was taken back and what still
  waits.
* `replay_order`: transfers are in the order of the sends, each with what was sent, and no
  send is transferred twice.
-/

namespace Rendezvous

variable {α β : Type*}

/-- What happens at a port. -/
inductive Event (α β : Type*)
  | send (t : α) (b : β)
  | receive (r : α)
  | transfer (t r : α) (b : β)
  | leaveSend (t : α) (b : β)
  | leaveReceive (r : α)
  deriving DecidableEq

/-- Those who wait, in the order in which they came. -/
@[ext]
structure Port (α β : Type*) where
  senders : List (α × β)
  receivers : List α
  deriving DecidableEq

namespace Port

/-- The port where nobody waits. -/
def empty : Port α β := ⟨[], []⟩

variable [DecidableEq α] [DecidableEq β]

/-- One event, if the port allows it. -/
def step (p : Port α β) : Event α β → Option (Port α β)
  | .send t b => some { p with senders := p.senders ++ [(t, b)] }
  | .receive r => some { p with receivers := p.receivers ++ [r] }
  | .transfer t r b =>
      if p.senders.head? = some (t, b) ∧ p.receivers.head? = some r then
        some ⟨p.senders.tail, p.receivers.tail⟩
      else none
  | .leaveSend t b =>
      if (t, b) ∈ p.senders then some { p with senders := p.senders.erase (t, b) } else none
  | .leaveReceive r =>
      if r ∈ p.receivers then some { p with receivers := p.receivers.erase r } else none

/-- The port after a trace that begins with nobody waiting. -/
def replay (es : List (Event α β)) : Option (Port α β) := es.foldlM step empty

lemma replay_append {es fs : List (Event α β)} {p : Port α β} (h : replay es = some p) :
    replay (es ++ fs) = fs.foldlM step p := by
  rw [replay, List.foldlM_append]
  change (replay es).bind _ = _
  rw [h]
  rfl

lemma replay_snoc {es : List (Event α β)} {e : Event α β} {p : Port α β}
    (h : replay es = some p) : replay (es ++ [e]) = p.step e := by
  rw [replay_append h, List.foldlM_cons]
  change (p.step e).bind _ = _
  cases p.step e <;> rfl

/-- All senders leave, the first one first. -/
lemma foldlM_leaveSend (xs : List (α × β)) (rs : List α) :
    (xs.map fun x => Event.leaveSend x.1 x.2).foldlM step ⟨xs, rs⟩ = some ⟨[], rs⟩ := by
  induction xs with
  | nil => rfl
  | cons x xs ih =>
      have hstep : step ⟨x :: xs, rs⟩ (.leaveSend x.1 x.2) = some ⟨xs, rs⟩ := by
        simp [step]
      rw [List.map_cons, List.foldlM_cons, hstep]
      exact ih

/-- All receivers leave, the first one first. -/
lemma foldlM_leaveReceive (xs : List (α × β)) (rs : List α) :
    (rs.map Event.leaveReceive).foldlM step ⟨xs, rs⟩ = some ⟨xs, []⟩ := by
  induction rs with
  | nil => rfl
  | cons r rs ih =>
      have hstep : step ⟨xs, r :: rs⟩ (.leaveReceive r) = some ⟨xs, rs⟩ := by
        simp [step]
      rw [List.map_cons, List.foldlM_cons, hstep]
      exact ih

/-- A sender leaves that is there once. -/
lemma step_leaveSend {l r : List (α × β)} {t : α} {b : β} {rs : List α} (ht : (t, b) ∉ l) :
    step ⟨l ++ (t, b) :: r, rs⟩ (.leaveSend t b) = some ⟨l ++ r, rs⟩ := by
  have herase : (l ++ (t, b) :: r).erase (t, b) = l ++ r := by
    rw [List.erase_append_right _ ht, List.erase_cons_head]
  rw [step, if_pos (by simp), herase]

/-- A receiver leaves that is there once. -/
lemma step_leaveReceive {xs : List (α × β)} {l r : List α} {t : α} (ht : t ∉ l) :
    step ⟨xs, l ++ t :: r⟩ (.leaveReceive t) = some ⟨xs, l ++ r⟩ := by
  have herase : (l ++ t :: r).erase t = l ++ r := by
    rw [List.erase_append_right _ ht, List.erase_cons_head]
  rw [step, if_pos (by simp), herase]

/-- The first of those who wait is served at once. -/
lemma foldlM_send_transfer (t : α) (b : β) (r : α) (rs : List α) :
    [Event.send t b, .transfer t r b].foldlM step ⟨[], r :: rs⟩ = some ⟨[], rs⟩ := by
  simp [step]

lemma foldlM_receive_transfer (t : α) (b : β) (xs : List (α × β)) (r : α) :
    [Event.receive r, .transfer t r b].foldlM step ⟨(t, b) :: xs, []⟩ = some ⟨xs, []⟩ := by
  simp [step]

end Port

/-! ### Sends and transfers -/

namespace Event

/-- Who sends what. -/
def send? : Event α β → Option (α × β)
  | .send t b => some (t, b)
  | _ => none

/-- What is transferred: who sent it, and what it is. -/
def transfer? : Event α β → Option (α × β)
  | .transfer t _ b => some (t, b)
  | _ => none

/-- What is taken back. -/
def leaveSend? : Event α β → Option (α × β)
  | .leaveSend t b => some (t, b)
  | _ => none

end Event

/-- The sends of a trace. -/
def sent (es : List (Event α β)) : List (α × β) := es.filterMap Event.send?

/-- The transfers of a trace. -/
def transferred (es : List (Event α β)) : List (α × β) := es.filterMap Event.transfer?

/-- The sends of a trace that were taken back. -/
def takenBack (es : List (Event α β)) : List (α × β) := es.filterMap Event.leaveSend?

variable [DecidableEq α] [DecidableEq β] {es : List (Event α β)} {e : Event α β} {p q : Port α β}

open Port

/-- An event of a trace is one its port allows. -/
lemma replay_of_snoc (h : replay (es ++ [e]) = some p) :
    ∃ q, replay es = some q ∧ q.step e = some p := by
  cases hq : replay es with
  | none =>
      rw [replay, List.foldlM_append] at h
      change (replay es).bind _ = _ at h
      rw [hq] at h
      cases h
  | some q => exact ⟨q, rfl, (replay_snoc hq).symm.trans h⟩

/-- What an event does to those who wait to send. -/
lemma step_senders (h : q.step e = some p) :
    (∃ t b, e = .send t b ∧ p.senders = q.senders ++ [(t, b)]) ∨
    (∃ t r b, e = .transfer t r b ∧ q.senders = (t, b) :: p.senders) ∨
    (∃ t b, e = .leaveSend t b ∧ (t, b) ∈ q.senders ∧ p.senders = q.senders.erase (t, b)) ∨
    (p.senders = q.senders ∧ ((∃ r, e = .receive r) ∨ ∃ r, e = .leaveReceive r)) := by
  cases e with
  | send t b =>
      obtain rfl := Option.some.inj h
      exact .inl ⟨t, b, rfl, rfl⟩
  | receive r =>
      obtain rfl := Option.some.inj h
      exact .inr (.inr (.inr ⟨rfl, .inl ⟨r, rfl⟩⟩))
  | transfer t r b =>
      rw [step] at h
      split_ifs at h with hhead
      obtain rfl := Option.some.inj h
      exact .inr (.inl ⟨t, r, b, rfl, (List.cons_head?_tail hhead.1).symm⟩)
  | leaveSend t b =>
      rw [step] at h
      split_ifs at h with hmem
      obtain rfl := Option.some.inj h
      exact .inr (.inr (.inl ⟨t, b, rfl, hmem, rfl⟩))
  | leaveReceive r =>
      rw [step] at h
      split_ifs at h
      obtain rfl := Option.some.inj h
      exact .inr (.inr (.inr ⟨rfl, .inr ⟨r, rfl⟩⟩))

/-- **Nothing is lost or doubled**: every send was transferred, or taken back, or waits. -/
theorem replay_sent (h : replay es = some p) :
    (sent es).Perm (transferred es ++ (takenBack es ++ p.senders)) := by
  induction es using List.reverseRecOn generalizing p with
  | nil =>
      obtain rfl : empty = p := Option.some.inj h
      rfl
  | append_singleton es e ih =>
      obtain ⟨q, hq, hstep⟩ := replay_of_snoc h
      have hperm := ih hq
      simp only [sent, transferred, takenBack, List.filterMap_append] at hperm ⊢
      rcases step_senders hstep with ⟨t, b, rfl, hp⟩ | ⟨t, r, b, rfl, hp⟩ |
        ⟨t, b, rfl, hmem, hp⟩ | ⟨hp, ⟨r, rfl⟩ | ⟨r, rfl⟩⟩
      · rw [hp]
        simpa [List.filterMap_cons, Event.send?, Event.transfer?, Event.leaveSend?] using
          hperm.append_right [(t, b)]
      · rw [hp] at hperm
        have hmiddle : (es.filterMap Event.leaveSend? ++ (t, b) :: p.senders).Perm
            ((t, b) :: (es.filterMap Event.leaveSend? ++ p.senders)) := List.perm_middle
        have hperm := hperm.trans (hmiddle.append_left _)
        simpa [List.filterMap_cons, Event.send?, Event.transfer?, Event.leaveSend?] using hperm
      · rw [hp]
        have herase := ((List.perm_cons_erase hmem).append_left
          (es.filterMap Event.leaveSend?)).append_left (es.filterMap Event.transfer?)
        simpa [List.filterMap_cons, Event.send?, Event.transfer?, Event.leaveSend?] using
          hperm.trans herase
      · rw [hp]
        simpa [List.filterMap_cons, Event.send?, Event.transfer?, Event.leaveSend?] using hperm
      · rw [hp]
        simpa [List.filterMap_cons, Event.send?, Event.transfer?, Event.leaveSend?] using hperm

/-- **First come first served**: the transfers, and after them those who wait, are in the
order of the sends. -/
theorem replay_order (h : replay es = some p) :
    (transferred es ++ p.senders).Sublist (sent es) := by
  induction es using List.reverseRecOn generalizing p with
  | nil =>
      obtain rfl : empty = p := Option.some.inj h
      exact List.Sublist.refl _
  | append_singleton es e ih =>
      obtain ⟨q, hq, hstep⟩ := replay_of_snoc h
      have hsub := ih hq
      simp only [sent, transferred, List.filterMap_append] at hsub ⊢
      rcases step_senders hstep with ⟨t, b, rfl, hp⟩ | ⟨t, r, b, rfl, hp⟩ |
        ⟨t, b, rfl, hmem, hp⟩ | ⟨hp, ⟨r, rfl⟩ | ⟨r, rfl⟩⟩
      · rw [hp]
        simpa [List.filterMap_cons, Event.send?, Event.transfer?] using hsub.append_right [(t, b)]
      · rw [hp] at hsub
        simpa [List.filterMap_cons, Event.send?, Event.transfer?] using hsub
      · rw [hp]
        have herase : (q.senders.erase (t, b)).Sublist q.senders := List.erase_sublist
        simpa [List.filterMap_cons, Event.send?, Event.transfer?] using
          (herase.append_left _).trans hsub
      · rw [hp]
        simpa [List.filterMap_cons, Event.send?, Event.transfer?] using hsub
      · rw [hp]
        simpa [List.filterMap_cons, Event.send?, Event.transfer?] using hsub

end Rendezvous
