import Sel4Test.Hyperamp.FrontQueue
import Sel4Test.Hyperamp.ServerQueue
import Sel4Test.Hyperamp.MnemosyneQueue

/-!
The three copies of the HyperAMP queue agree.

The front end, the HyperAMP server and monkey-mnemosyne are each built with a copy of the queue.
The copies are translated from their files in `Sel4Test.Hyperamp.FrontQueue`,
`Sel4Test.Hyperamp.ServerQueue` and `Sel4Test.Hyperamp.MnemosyneQueue`.

* `User.queue`: the functions that a user of a channel is built with.
* `copies_agree`: whatever the users, the functions do the same on every memory and every argument.
* `copies_refine`: for buffers outside of the queue they do what the model of the queue says.
-/

namespace Hyperamp

open ByteMem

/-- The functions of a copy of the queue: the return code and the memory afterwards, and nothing
while the lock is taken. -/
structure QueueFunctions where
  enqueue : (m : Mem) → (queue zoneId data dataLen virtBase : ℕ) → Option (ℤ × Mem)
  dequeue : (m : Mem) → (queue zoneId data maxLen actualLen virtBase : ℕ) → Option (ℤ × Mem)
  init : (m : Mem) → (queue : ℕ) → Option HyperampQueueConfig → (isCreator : Bool) → ℤ × Mem
  isInitialized : (m : Mem) → (queue : ℕ) → ℤ

/-- The users of a channel. -/
inductive User
  | front
  | server
  | mnemosyne
  deriving DecidableEq, Repr

/-- The copy that a user is built with. -/
def User.queue : User → QueueFunctions
  | .front =>
      { enqueue := FrontQueue.queueEnqueue
        dequeue := FrontQueue.queueDequeue
        init := FrontQueue.queueInit
        isInitialized := FrontQueue.queueIsInitialized }
  | .server =>
      { enqueue := ServerQueue.queueEnqueue
        dequeue := ServerQueue.queueDequeue
        init := ServerQueue.queueInit
        isInitialized := ServerQueue.queueIsInitialized }
  | .mnemosyne =>
      { enqueue := MnemosyneQueue.queueEnqueue
        dequeue := MnemosyneQueue.queueDequeue
        init := MnemosyneQueue.queueInit
        isInitialized := MnemosyneQueue.queueIsInitialized }

/-- Two copies do the same on a memory. -/
structure Agree (C D : QueueFunctions) (m : Mem) (q : ℕ) : Prop where
  enqueue : ∀ zone data dataLen virtBase,
    C.enqueue m q zone data dataLen virtBase = D.enqueue m q zone data dataLen virtBase
  dequeue : ∀ zone data maxLen actualLen virtBase,
    C.dequeue m q zone data maxLen actualLen virtBase =
      D.dequeue m q zone data maxLen actualLen virtBase
  init : ∀ config isCreator, C.init m q config isCreator = D.init m q config isCreator
  isInitialized : C.isInitialized m q = D.isInitialized m q

lemma Agree.symm {C D : QueueFunctions} {m : Mem} {q : ℕ} (h : Agree C D m q) : Agree D C m q where
  enqueue zone data dataLen virtBase := (h.enqueue zone data dataLen virtBase).symm
  dequeue zone data maxLen actualLen virtBase :=
    (h.dequeue zone data maxLen actualLen virtBase).symm
  init config isCreator := (h.init config isCreator).symm
  isInitialized := h.isInitialized.symm

lemma Agree.trans {C D E : QueueFunctions} {m : Mem} {q : ℕ} (h : Agree C D m q)
    (h' : Agree D E m q) : Agree C E m q where
  enqueue zone data dataLen virtBase :=
    (h.enqueue zone data dataLen virtBase).trans (h'.enqueue zone data dataLen virtBase)
  dequeue zone data maxLen actualLen virtBase :=
    (h.dequeue zone data maxLen actualLen virtBase).trans
      (h'.dequeue zone data maxLen actualLen virtBase)
  init config isCreator := (h.init config isCreator).trans (h'.init config isCreator)
  isInitialized := h.isInitialized.trans h'.isInitialized

/-- The functions on words. -/
def wordQueue : QueueFunctions where
  enqueue := Words.enqueue
  dequeue := Words.dequeue
  init := Words.init
  isInitialized := Words.isInitialized

/-- Every copy does what the functions on words do. -/
lemma User.agree_words (u : User) (m : Mem) (q : ℕ) : Agree u.queue wordQueue m q := by
  cases u with
  | front =>
      exact
        { enqueue := fun _ _ dataLen _ => FrontQueue.queueEnqueue_eq dataLen
          dequeue := fun _ _ maxLen actualLen _ => FrontQueue.queueDequeue_eq maxLen actualLen
          init := FrontQueue.queueInit_eq
          isInitialized := FrontQueue.queueIsInitialized_eq }
  | server =>
      exact
        { enqueue := fun _ _ dataLen _ => ServerQueue.queueEnqueue_eq dataLen
          dequeue := fun _ _ maxLen actualLen _ => ServerQueue.queueDequeue_eq maxLen actualLen
          init := ServerQueue.queueInit_eq
          isInitialized := ServerQueue.queueIsInitialized_eq }
  | mnemosyne =>
      exact
        { enqueue := fun _ _ dataLen _ => MnemosyneQueue.queueEnqueue_eq dataLen
          dequeue := fun _ _ maxLen actualLen _ => MnemosyneQueue.queueDequeue_eq maxLen actualLen
          init := MnemosyneQueue.queueInit_eq
          isInitialized := MnemosyneQueue.queueIsInitialized_eq }

/-- **The three copies agree**: on every memory and every argument, also when the buffers
overlap the queue or a pointer is null, enqueue, dequeue, initialisation and the test of
initialisation return the same code and leave the same memory, whichever copy is used. -/
theorem copies_agree (u v : User) (m : Mem) (q : ℕ) : Agree u.queue v.queue m q :=
  (u.agree_words m q).trans (v.agree_words m q).symm

/-! ### The model of the queue -/

/-- **Every copy refines the model**: enqueue, for a source outside of the lock and of the slot
that is written, dequeue, for buffers outside of the control block and of the slot that is read,
initialisation, and its test. -/
theorem copies_refine (u : User) (m : Mem) (q : ℕ) :
    (∀ zone data dataLen virtBase, (data + dataLen ≤ q + 4036 ∨ q + 4048 ≤ data) →
      (data + dataLen ≤ slotAddr virtBase (header m q) (blockSize m q) ∨
        slotAddr virtBase (header m q) (blockSize m q) + dataLen ≤ data) →
      u.queue.enqueue m q zone data dataLen virtBase =
        (hyperampQueueEnqueue m q zone (if data = 0 then none else some (load m data dataLen))
          virtBase).map fun r => (r.1.code, r.2)) ∧
    (∀ zone data maxLen actualLen virtBase,
      BuffersClear q data actualLen (min maxLen (blockSize m q)) →
      (data + min maxLen (blockSize m q) ≤ slotAddr virtBase (tail m q) (blockSize m q) ∨
        slotAddr virtBase (tail m q) (blockSize m q) + min maxLen (blockSize m q) ≤ data) →
      u.queue.dequeue m q zone data maxLen actualLen virtBase =
        (hyperampQueueDequeue m q zone (data ≠ 0) maxLen virtBase).map fun r =>
          (r.1.code, delivered data actualLen r)) ∧
    (∀ config isCreator, u.queue.init m q config isCreator =
      ((hyperampQueueInit m q config isCreator).1.code,
        (hyperampQueueInit m q config isCreator).2)) ∧
    u.queue.isInitialized m q = if hyperampQueueIsInitialized m q then 1 else 0 := by
  have hagree := u.agree_words m q
  refine ⟨fun zone data dataLen virtBase hlock hslot => ?_,
    fun zone data maxLen actualLen virtBase hclear hslot => ?_, fun config isCreator => ?_, ?_⟩
  · rw [hagree.enqueue]
    exact Words.enqueue_refines zone hlock hslot
  · rw [hagree.dequeue]
    exact Words.dequeue_refines zone hclear hslot
  · rw [hagree.init]
    exact Words.init_refines config isCreator
  · rw [hagree.isInitialized]
    exact Words.isInitialized_refines

end Hyperamp
