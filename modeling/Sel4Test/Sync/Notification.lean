import Mathlib.Tactic

/-!
Notification objects as a thread sees them through `seL4_Signal` and `seL4_Wait`.

The kernel keeps the threads that wait in the order in which they came. A signal wakes up the
first of them, or is kept until a thread waits; several signals that nobody waits for are one.
-/

namespace Sync

variable {ι : Type}

/-- A notification object. -/
structure Notification (ι : Type) where
  active : Bool
  queue : List ι

namespace Notification

variable {n : Notification ι} {i t : ι} {q : List ι}

/-- `seL4_Signal`: the thread that goes on, and the notification after it. -/
def signal (n : Notification ι) : Option ι × Notification ι :=
  match n.queue with
  | [] => (none, { n with active := true })
  | t :: q => (some t, { n with queue := q })

/-- `seL4_Wait`: whether the thread goes on at once. -/
def wait (n : Notification ι) (i : ι) : Bool × Notification ι :=
  if n.active then (true, { n with active := false })
  else (false, { n with queue := n.queue ++ [i] })

lemma wait_active (h : n.active = true) : n.wait i = (true, ⟨false, n.queue⟩) := if_pos h

lemma wait_idle (h : n.active = false) : n.wait i = (false, ⟨false, n.queue ++ [i]⟩) := by
  simp [wait, h]

lemma signal_nil (h : n.queue = []) : n.signal = (none, ⟨true, []⟩) := by
  simp [signal, h]

lemma signal_cons (hactive : n.active = false) (h : n.queue = t :: q) :
    n.signal = (some t, ⟨false, q⟩) := by
  simp [signal, h, hactive]

end Notification

end Sync
