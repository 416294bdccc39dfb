import Sel4Test.HelloWorld.Hex
import Sel4Test.Lib.Exec
import Sel4Test.Lib.Ring

/-!
The polling server, `hyperamp_server_main_loop` of `hello-world/src/main.c`.

The peer posts messages into successive entries of the root queue; each poll of the loop looks
at the entry `proc_ing_h`, and where that holds a message that is not dealt with, serves it and
moves on to the entry it is linked with. After 32 polls in a row that found nothing,
`proc_ing_h` is set to zero, wherever the peer will post next.

* `PollInv`: what the queue looks like as long as this does no harm.
* `polling_order_iff`: the server serves every message once and in order in exactly those runs
  in which the reset finds `proc_ing_h` at zero already, and messages are posted into free
  entries with a length and an offset that the server accepts.
* `reset_starves`: behind a reset, messages are posted that no number of polls finds.
-/

namespace HelloWorld

open ByteMem Exec

/-! ### The queue -/

/-- `SHM_SIZE_DATA`. -/
def shmSizeData : ℕ := 0x00400000

/-- `INIT_MARK_INITIALIZED`. -/
def initMarkInitialized : UInt32 := 0xEEEEEEEE

/-- `MSG_QUEUE_MARK_IDLE`. -/
def msgQueueMarkIdle : UInt32 := 0xBBBBBBBB

/-- `MSG_SERVICE_RET_NONE` and so on, in the two bits of the field. -/
inductive ServiceResult
  | none
  | success
  | fail
  | notExits
  deriving DecidableEq, Repr

/-- `AmpMsgQueue`. -/
structure AmpMsgQueue where
  workingMark : UInt32
  bufSize : UInt16
  emptyH : UInt16
  waitH : UInt16
  procIngH : UInt16
  deriving DecidableEq, Repr

/-- `Msg`; `dealState` is `MSG_DEAL_STATE_YES`. -/
structure Msg where
  dealState : Bool
  serviceResult : ServiceResult
  serviceId : UInt16
  offset : UInt32
  length : UInt32
  deriving DecidableEq, Repr

/-- `MsgEntry`. -/
structure MsgEntry where
  msg : Msg
  nxtIdx : UInt16
  deriving DecidableEq, Repr

/-- `init_root_linux_queue`. -/
def initRootLinuxQueue (q : AmpMsgQueue) : AmpMsgQueue :=
  if q.workingMark ≠ initMarkInitialized then
    { workingMark := msgQueueMarkIdle, bufSize := 16, emptyH := 0, waitH := 0, procIngH := 0 }
  else q

/-- `init_sel4_queue`. -/
def initSel4Queue (q : AmpMsgQueue) : AmpMsgQueue :=
  if q.workingMark ≠ initMarkInitialized then
    { workingMark := initMarkInitialized, bufSize := 16, emptyH := 0, waitH := 0, procIngH := 0 }
  else q

/-! ### Services -/

/-- `hyperamp_encrypt_service`; `none` is the error. -/
def hyperampEncryptService (data : Mem) (addr dataLen bufSize : ℕ) : Option Mem :=
  if dataLen = 0 ∨ bufSize ≤ dataLen then none
  else some (store data addr ((load data addr dataLen).map (· ^^^ 0x5A)))

/-- `hyperamp_decrypt_service`. -/
def hyperampDecryptService (data : Mem) (addr dataLen bufSize : ℕ) : Option Mem :=
  hyperampEncryptService data addr dataLen bufSize

/-- The page of the root queue, the data region, and `binary_buf` on the stack. -/
inductive Area
  | rootQ | data | binary
  deriving DecidableEq, Repr

/-- `sizeof(binary_buf)`. -/
def binaryBufSize : ℕ := 2048

/-- What `hex_string_to_binary` returns for a text of the data region; `char` is not signed on
the board. -/
def binaryLen (data : Mem) (addr hexLen : ℕ) : ℤ :=
  (Hex.hexStringToBinary false Area.data addr hexLen Area.binary binaryBufSize
    ⟨Function.update (fun _ _ => 0) Area.data data, []⟩).1

/-- The dispatch on the service of a message: its result and the data region. The parsers of
the proxy messages only print. -/
def dispatchService (msg : Msg) (data : Mem) : ServiceResult × Mem :=
  let addr := msg.offset.toNat
  let room := shmSizeData - msg.offset.toNat
  if msg.serviceId = 1 then
    ((hyperampEncryptService data addr msg.length.toNat room).elim .fail fun _ => .success,
      (hyperampEncryptService data addr msg.length.toNat room).getD data)
  else if msg.serviceId = 2 then
    ((hyperampDecryptService data addr msg.length.toNat room).elim .fail fun _ => .success,
      (hyperampDecryptService data addr msg.length.toNat room).getD data)
  else if 10 ≤ msg.serviceId ∧ msg.serviceId ≤ 13 then
    (if 0 < binaryLen data addr msg.length.toNat then .success else .fail, data)
  else (.success, data)

/-! ### The loop -/

/-- A message as it was posted: the entry and what the producer wrote there. -/
structure Posting where
  entry : ℕ
  serviceId : UInt16
  offset : UInt32
  length : UInt32
  deriving DecidableEq, Repr

/-- Both queues, the entries of the root queue, the data region and the counters of the loop;
the messages it served; and the producer, with the entry it fills next and what it posted. -/
structure PollState where
  queue : AmpMsgQueue
  sel4Queue : AmpMsgQueue
  entries : ℕ → MsgEntry
  data : Mem
  consecutiveInvalidCount : ℕ
  messageCount : ℕ
  processed : List Posting
  next : ℕ
  posted : List Posting

/-- The server takes the message: it has a length, length and offset lie below the size of the
data region, and it is not dealt with. -/
def Msg.Accepted (msg : Msg) : Prop :=
  0 < msg.length.toNat ∧ msg.length.toNat < shmSizeData ∧ msg.offset.toNat < shmSizeData ∧
    msg.dealState = false

instance (msg : Msg) : Decidable msg.Accepted :=
  inferInstanceAs (Decidable (_ ∧ _ ∧ _ ∧ _))

/-- The entry after the current one: the one it is linked with, or else the successor. -/
def newHead (queue : AmpMsgQueue) (entry : MsgEntry) : UInt16 :=
  if entry.nxtIdx < queue.bufSize then entry.nxtIdx
  else UInt16.ofNat ((queue.procIngH.toNat + 1) % queue.bufSize.toNat)

/-- The branch for a message that is accepted. -/
def serveEntry (s : PollState) : PollState :=
  let current := s.queue.procIngH.toNat
  let entry := s.entries current
  let (result, data) := dispatchService entry.msg s.data
  let dealt := { entry with msg := { entry.msg with dealState := true, serviceResult := result } }
  { s with
    queue := { s.queue with procIngH := newHead s.queue entry, workingMark := msgQueueMarkIdle }
    entries := Function.update s.entries current dealt
    data := data
    consecutiveInvalidCount := 0
    messageCount := s.messageCount + 1
    processed := s.processed ++
      [⟨current, entry.msg.serviceId, entry.msg.offset, entry.msg.length⟩] }

/-- The branch for any other entry, with the recovery after 32 of them in a row. -/
def skipEntry (s : PollState) : PollState :=
  if 32 ≤ s.consecutiveInvalidCount + 1 then
    { s with
      queue := { s.queue with procIngH := 0, workingMark := msgQueueMarkIdle }
      consecutiveInvalidCount := 0 }
  else { s with consecutiveInvalidCount := s.consecutiveInvalidCount + 1 }

/-- One round of the loop of `hyperamp_server_main_loop`. -/
def pollOnce (s : PollState) : PollState :=
  if s.queue.procIngH < s.queue.bufSize then
    if (s.entries s.queue.procIngH.toNat).msg.Accepted then serveEntry s else skipEntry s
  else s

/-- What the producer writes into an entry, which it links with its successor or leaves
unlinked, with an index that is none. -/
def fillEntry (entry : MsgEntry) (serviceId : UInt16) (offset length : UInt32) (nxtIdx : UInt16) :
    MsgEntry :=
  { msg := { entry.msg with dealState := false, serviceId, offset, length }, nxtIdx }

/-- The producer posts a message into the entry that is next. -/
def postMessage (s : PollState) (serviceId : UInt16) (offset length : UInt32) (linked : Bool) :
    PollState :=
  let succ := (s.next + 1) % s.queue.bufSize.toNat
  let nxtIdx := if linked then UInt16.ofNat succ else s.queue.bufSize
  { s with
    entries := Function.update s.entries s.next
      (fillEntry (s.entries s.next) serviceId offset length nxtIdx)
    next := succ
    posted := s.posted ++ [⟨s.next, serviceId, offset, length⟩] }

/-- A step of the system. -/
inductive PollOp
  | post (serviceId : UInt16) (offset length : UInt32) (linked : Bool)
  | poll
  deriving DecidableEq, Repr

def pollStep (s : PollState) : PollOp → PollState
  | .post serviceId offset length linked => postMessage s serviceId offset length linked
  | .poll => pollOnce s

/-- The state at the start of the loop: both queues initialised, and a producer that begins at
the head of the queue. -/
def pollStart (queue sel4Queue : AmpMsgQueue) (entries : ℕ → MsgEntry) (data : Mem) : PollState where
  queue := initRootLinuxQueue queue
  sel4Queue := initSel4Queue sel4Queue
  entries := entries
  data := data
  consecutiveInvalidCount := 0
  messageCount := 0
  processed := []
  next := (initRootLinuxQueue queue).procIngH.toNat
  posted := []

/-- The queue has entries, its head is one of them, and none holds a message yet. -/
structure CleanStart (queue : AmpMsgQueue) (entries : ℕ → MsgEntry) : Prop where
  head_lt : (initRootLinuxQueue queue).procIngH < (initRootLinuxQueue queue).bufSize
  idle : ∀ i < (initRootLinuxQueue queue).bufSize.toNat, ¬ (entries i).msg.Accepted

/-! ### Order -/

/-- The messages posted and not yet served. -/
def PollState.pending (s : PollState) : List Posting := s.posted.drop s.processed.length

/-- `proc_ing_h` designates the oldest pending entry, or else the one that is filled next; what
was served are the oldest messages, each once; and the next polls serve the others in turn. -/
structure InOrder (s : PollState) : Prop where
  prefix_posted : s.processed <+: s.posted
  distinct : s.pending.length ≤ s.queue.bufSize.toNat
  head : s.queue.procIngH.toNat = (s.pending.head?.map Posting.entry).getD s.next
  drains : ∀ k ≤ s.pending.length, (pollOnce^[k] s).processed = s.processed ++ s.pending.take k

/-- The step does no harm: a message that the server accepts is posted into an entry that is not
pending, and the recovery does not move the head. -/
def Harmless (s : PollState) : PollOp → Prop
  | .post _ offset length _ =>
      ¬ (s.entries s.next).msg.Accepted ∧ 0 < length.toNat ∧ length.toNat < shmSizeData ∧
        offset.toNat < shmSizeData
  | .poll =>
      s.queue.procIngH < s.queue.bufSize → ¬ (s.entries s.queue.procIngH.toNat).msg.Accepted →
        32 ≤ s.consecutiveInvalidCount + 1 → s.queue.procIngH = 0

/-! ### The queue as the server sees it -/

/-- The entry of a pending message holds it and is linked with its successor, or with none. -/
structure EntryOf (s : PollState) (x : Posting) : Prop where
  accepted : (s.entries x.entry).msg.Accepted
  serviceId : (s.entries x.entry).msg.serviceId = x.serviceId
  offset : (s.entries x.entry).msg.offset = x.offset
  length : (s.entries x.entry).msg.length = x.length
  link : (s.entries x.entry).nxtIdx.toNat = (x.entry + 1) % s.queue.bufSize.toNat ∨
    ¬ (s.entries x.entry).nxtIdx < s.queue.bufSize

/-- The messages `xs` lie one after the other from the head on, and no other entry holds a
message that would be accepted. -/
structure Queued (s : PollState) (xs : List Posting) : Prop where
  head_lt : s.queue.procIngH.toNat < s.queue.bufSize.toNat
  count : xs.length ≤ s.queue.bufSize.toNat
  place : ∀ k x, xs[k]? = some x →
    x.entry = Ring.index s.queue.bufSize.toNat s.queue.procIngH.toNat k
  holds : ∀ x ∈ xs, EntryOf s x
  idle : ∀ i < s.queue.bufSize.toNat, (∀ x ∈ xs, x.entry ≠ i) → ¬ (s.entries i).msg.Accepted

variable {s s' : PollState} {serviceId : UInt16} {offset length : UInt32} {linked : Bool}
  {x : Posting} {xs rest : List Posting} {op : PollOp}

lemma EntryOf.congr (h : EntryOf s x) (hentries : s'.entries x.entry = s.entries x.entry)
    (hsize : s'.queue.bufSize = s.queue.bufSize) : EntryOf s' x where
  accepted := by rw [hentries]; exact h.accepted
  serviceId := by rw [hentries]; exact h.serviceId
  offset := by rw [hentries]; exact h.offset
  length := by rw [hentries]; exact h.length
  link := by rw [hentries, hsize]; exact h.link

namespace Queued

/-- The place of a message of the queue. -/
lemma place_of_mem (h : Queued s xs) (hx : x ∈ xs) :
    ∃ k < xs.length, x.entry = Ring.index s.queue.bufSize.toNat s.queue.procIngH.toNat k := by
  obtain ⟨k, hk⟩ := List.mem_iff_getElem?.mp hx
  exact ⟨k, (List.getElem?_eq_some_iff.mp hk).1, h.place k x hk⟩

/-- The entry at the head is that of the oldest message. -/
lemma head_entry (h : Queued s (x :: rest)) : x.entry = s.queue.procIngH.toNat := by
  have hentry := h.place 0 x rfl
  rwa [Ring.index_zero h.head_lt] at hentry

/-- The oldest message lies in no other place. -/
lemma entry_ne_head (h : Queued s (x :: rest)) {y : Posting} (hy : y ∈ rest) :
    y.entry ≠ s.queue.procIngH.toNat := by
  obtain ⟨k, hk⟩ := List.mem_iff_getElem?.mp hy
  have hlt := (List.getElem?_eq_some_iff.mp hk).1
  have hcount := h.count
  have hindex := h.place (k + 1) y hk
  rw [List.length_cons] at hcount
  intro heq
  rw [heq] at hindex
  nth_rewrite 1 [← Ring.index_zero h.head_lt] at hindex
  have := (Ring.index_inj (by omega) (by omega)).mp hindex
  omega

/-- An empty queue has nothing at its head. -/
lemma head_idle (h : Queued s []) : ¬ (s.entries s.queue.procIngH.toNat).msg.Accepted :=
  h.idle _ h.head_lt fun _ hx => absurd hx List.not_mem_nil

/-- A poll of a queue with a message serves the oldest one. -/
lemma pollOnce_cons (h : Queued s (x :: rest)) : pollOnce s = serveEntry s := by
  rw [pollOnce, if_pos (UInt16.lt_iff_toNat_lt.mpr h.head_lt), if_pos]
  rw [← h.head_entry]
  exact (h.holds x List.mem_cons_self).accepted

lemma processed_serveEntry (h : Queued s (x :: rest)) :
    (serveEntry s).processed = s.processed ++ [x] := by
  have hholds := h.holds x List.mem_cons_self
  show s.processed ++ [_] = s.processed ++ [x]
  rw [← h.head_entry, hholds.serviceId, hholds.offset, hholds.length]

/-- The head moves on to the next entry, whichever way that is linked. -/
lemma toNat_newHead (h : Queued s (x :: rest)) :
    (newHead s.queue (s.entries s.queue.procIngH.toNat)).toNat =
      Ring.index s.queue.bufSize.toNat s.queue.procIngH.toNat 1 := by
  have hlink := (h.holds x List.mem_cons_self).link
  rw [h.head_entry] at hlink
  rw [newHead, ← Ring.succ_mod h.head_lt]
  by_cases hlt : (s.entries s.queue.procIngH.toNat).nxtIdx < s.queue.bufSize
  · rw [if_pos hlt]
    exact hlink.resolve_right (not_not.mpr hlt)
  · have hmod := Nat.mod_lt (s.queue.procIngH.toNat + 1)
      (Nat.lt_of_le_of_lt (Nat.zero_le _) h.head_lt)
    rw [if_neg hlt, UInt16.toNat_ofNat']
    exact Nat.mod_eq_of_lt (hmod.trans s.queue.bufSize.toNat_lt)

/-- Serving the oldest message leaves the others. -/
lemma serve (h : Queued s (x :: rest)) : Queued (serveEntry s) rest := by
  have hcount := h.count
  rw [List.length_cons] at hcount
  have hhead : (serveEntry s).queue.procIngH.toNat =
      Ring.index s.queue.bufSize.toNat s.queue.procIngH.toNat 1 := h.toNat_newHead
  have hother : ∀ i, i ≠ s.queue.procIngH.toNat → (serveEntry s).entries i = s.entries i :=
    fun i hi => Function.update_of_ne hi _ _
  exact
    { head_lt := by
        rw [hhead]
        exact Ring.index_lt h.head_lt (by omega)
      count := by
        show rest.length ≤ s.queue.bufSize.toNat
        omega
      place := by
        intro k y hk
        have hlt := (List.getElem?_eq_some_iff.mp hk).1
        rw [hhead, h.place (k + 1) y hk]
        exact (Ring.index_succ h.head_lt (by omega)).symm
      holds := fun y hy =>
        (h.holds y (List.mem_cons_of_mem _ hy)).congr (hother y.entry (h.entry_ne_head hy)) rfl
      idle := by
        intro i hi hnot
        by_cases hcur : i = s.queue.procIngH.toNat
        · -- the entry that was just served is dealt with
          have hself : ((serveEntry s).entries i).msg.dealState = true := by
            rw [hcur]
            show (Function.update s.entries _ _ _).msg.dealState = true
            rw [Function.update_self]
          rintro ⟨-, -, -, hdeal⟩
          rw [hself] at hdeal
          cases hdeal
        · rw [hother i hcur]
          refine h.idle i hi fun y hy => ?_
          rcases List.mem_cons.mp hy with rfl | hy
          · rw [h.head_entry]
            exact fun heq => hcur heq.symm
          · exact hnot y hy }

/-- The first polls serve the messages one after the other. -/
lemma drain (h : Queued s xs) {k : ℕ} (hk : k ≤ xs.length) :
    (pollOnce^[k] s).processed = s.processed ++ xs.take k ∧
      Queued (pollOnce^[k] s) (xs.drop k) := by
  induction k generalizing s xs with
  | zero => exact ⟨by simp, h⟩
  | succ k ih =>
      cases xs with
      | nil => cases hk
      | cons x rest =>
          have hserve := ih h.serve (Nat.le_of_succ_le_succ hk)
          rw [Function.iterate_succ_apply, h.pollOnce_cons]
          refine ⟨?_, hserve.2⟩
          rw [hserve.1, h.processed_serveEntry, List.append_assoc]
          rfl

end Queued

/-! ### Idle polls -/

/-- What an idle poll leaves as it is. -/
structure SameQueue (s s' : PollState) : Prop where
  bufSize : s'.queue.bufSize = s.queue.bufSize
  entries : s'.entries = s.entries
  processed : s'.processed = s.processed
  posted : s'.posted = s.posted
  next : s'.next = s.next

lemma sameQueue_skipEntry (s : PollState) : SameQueue s (skipEntry s) := by
  rw [skipEntry]
  split_ifs
  · exact ⟨rfl, rfl, rfl, rfl, rfl⟩
  · exact ⟨rfl, rfl, rfl, rfl, rfl⟩

lemma head_skipEntry (s : PollState) :
    (skipEntry s).queue.procIngH =
      if 32 ≤ s.consecutiveInvalidCount + 1 then 0 else s.queue.procIngH := by
  rw [skipEntry]
  split_ifs <;> rfl

/-- A poll that finds nothing changes the head at most. -/
lemma sameQueue_pollOnce (hnot : ¬ (s.entries s.queue.procIngH.toNat).msg.Accepted) :
    SameQueue s (pollOnce s) := by
  rw [pollOnce, if_neg hnot]
  split_ifs
  · exact sameQueue_skipEntry s
  · exact ⟨rfl, rfl, rfl, rfl, rfl⟩

lemma Queued.pollOnce_nil (h : Queued s []) : pollOnce s = skipEntry s := by
  rw [pollOnce, if_pos (UInt16.lt_iff_toNat_lt.mpr h.head_lt), if_neg h.head_idle]

/-- A queue stays the same queue where the head does. -/
lemma Queued.same (h : Queued s xs) (hsame : SameQueue s s')
    (hhead : s'.queue.procIngH = s.queue.procIngH) : Queued s' xs where
  head_lt := by rw [hhead, hsame.bufSize]; exact h.head_lt
  count := by rw [hsame.bufSize]; exact h.count
  place := by rw [hsame.bufSize, hhead]; exact h.place
  holds := fun x hx => (h.holds x hx).congr (by rw [hsame.entries]) hsame.bufSize
  idle := by rw [hsame.bufSize, hsame.entries]; exact h.idle

/-! ### Posting -/

/-- The entry that a post fills. -/
lemma entries_postMessage_self (s : PollState) :
    (postMessage s serviceId offset length linked).entries s.next =
      fillEntry (s.entries s.next) serviceId offset length
        (if linked then UInt16.ofNat ((s.next + 1) % s.queue.bufSize.toNat)
          else s.queue.bufSize) :=
  Function.update_self _ _ _

lemma entries_postMessage_of_ne {i : ℕ} (hi : i ≠ s.next) :
    (postMessage s serviceId offset length linked).entries i = s.entries i :=
  Function.update_of_ne hi _ _

/-- A message that is not accepted, posted into an entry that is not pending, changes nothing
for the server. -/
lemma Queued.post_bad (h : Queued s xs) (hfree : ∀ x ∈ xs, x.entry ≠ s.next)
    (hbad : ¬ (0 < length.toNat ∧ length.toNat < shmSizeData ∧ offset.toNat < shmSizeData)) :
    Queued (postMessage s serviceId offset length linked) xs where
  head_lt := h.head_lt
  count := h.count
  place := h.place
  holds := fun x hx => (h.holds x hx).congr (entries_postMessage_of_ne (hfree x hx)) rfl
  idle := by
    intro i hi hnot
    by_cases hnext : i = s.next
    · rw [hnext, entries_postMessage_self]
      rintro ⟨hpos, hlt, hoff, -⟩
      exact hbad ⟨hpos, hlt, hoff⟩
    · rw [entries_postMessage_of_ne hnext]
      exact h.idle i hi hnot

/-- A message that is accepted, posted into the free entry behind the others, is queued behind
them. -/
lemma Queued.post (h : Queued s xs)
    (hnext : s.next = Ring.index s.queue.bufSize.toNat s.queue.procIngH.toNat xs.length)
    (hroom : xs.length < s.queue.bufSize.toNat) (hfree : ∀ x ∈ xs, x.entry ≠ s.next)
    (hgood : 0 < length.toNat ∧ length.toNat < shmSizeData ∧ offset.toNat < shmSizeData) :
    Queued (postMessage s serviceId offset length linked)
      (xs ++ [⟨s.next, serviceId, offset, length⟩]) where
  head_lt := h.head_lt
  count := by
    rw [List.length_append, List.length_singleton]
    exact hroom
  place := by
    intro k y hk
    -- the new message is the last one, in the entry that was free
    by_cases hlt : k < xs.length
    · exact h.place k y (by rwa [List.getElem?_append_left hlt] at hk)
    · have hk' := (List.getElem?_eq_some_iff.mp hk).1
      have hkl : k = xs.length := by
        simp only [List.length_append, List.length_singleton] at hk'
        omega
      subst hkl
      obtain rfl : (⟨s.next, serviceId, offset, length⟩ : Posting) = y := by simpa using hk
      exact hnext
  holds := by
    intro y hy
    rcases List.mem_append.mp hy with hold | hnew
    · exact (h.holds y hold).congr (entries_postMessage_of_ne (hfree y hold)) rfl
    · obtain rfl := List.mem_singleton.mp hnew
      have hself : (postMessage s serviceId offset length linked).entries s.next =
          fillEntry (s.entries s.next) serviceId offset length
            (if linked then UInt16.ofNat ((s.next + 1) % s.queue.bufSize.toNat)
              else s.queue.bufSize) := entries_postMessage_self s
      exact
        { accepted := by rw [hself]; exact ⟨hgood.1, hgood.2.1, hgood.2.2, rfl⟩
          serviceId := by rw [hself]; rfl
          offset := by rw [hself]; rfl
          length := by rw [hself]; rfl
          link := by
            rw [hself]
            cases linked with
            | true =>
                have hmod := Nat.mod_lt (s.next + 1) (Nat.zero_lt_of_lt hroom)
                refine Or.inl ?_
                show (UInt16.ofNat ((s.next + 1) % s.queue.bufSize.toNat)).toNat = _
                rw [UInt16.toNat_ofNat']
                exact Nat.mod_eq_of_lt (hmod.trans s.queue.bufSize.toNat_lt)
            | false => exact Or.inr (UInt16.lt_irrefl s.queue.bufSize) }
  idle := by
    intro i hi hnot
    have hne : i ≠ s.next := fun heq =>
      hnot ⟨s.next, serviceId, offset, length⟩ (by simp) heq.symm
    rw [entries_postMessage_of_ne hne]
    exact h.idle i hi fun y hy => hnot y (List.mem_append_left _ hy)

/-! ### The invariant -/

/-- What was served are the oldest messages, the others are queued, and the producer stands
behind them. -/
structure PollInv (s : PollState) : Prop where
  prefix_posted : s.processed <+: s.posted
  queued : Queued s s.pending
  next_eq : s.next =
    Ring.index s.queue.bufSize.toNat s.queue.procIngH.toNat s.pending.length

namespace PollInv

/-- As long as an entry is free, the next one is not pending. -/
lemma entry_ne_next (h : PollInv s) (hroom : s.pending.length < s.queue.bufSize.toNat)
    (hx : x ∈ s.pending) : x.entry ≠ s.next := by
  obtain ⟨k, hk, hentry⟩ := h.queued.place_of_mem hx
  rw [hentry, h.next_eq]
  intro heq
  have := (Ring.index_inj (hk.trans hroom) hroom).mp heq
  omega

/-- The next entry is free exactly when not all entries are pending. -/
lemma free_iff (h : PollInv s) :
    ¬ (s.entries s.next).msg.Accepted ↔ s.pending.length < s.queue.bufSize.toNat := by
  have hhead := h.queued.head_lt
  constructor
  · intro hfree
    by_contra hfull
    have hlen : s.pending.length = s.queue.bufSize.toNat :=
      le_antisymm h.queued.count (not_lt.mp hfull)
    have hnext : s.next = s.queue.procIngH.toNat := by
      rw [h.next_eq, hlen, Ring.index_self]
    have hqueued := h.queued
    cases hpending : s.pending with
    | nil =>
        rw [hpending, List.length_nil] at hlen
        omega
    | cons x rest =>
        rw [hpending] at hqueued
        have haccepted := (hqueued.holds x List.mem_cons_self).accepted
        rw [hqueued.head_entry, ← hnext] at haccepted
        exact hfree haccepted
  · intro hroom
    refine h.queued.idle s.next ?_ fun x hx => h.entry_ne_next hroom hx
    rw [h.next_eq]
    exact Ring.index_lt hhead h.queued.count

/-- What is pending is what was posted after the messages that were served. -/
lemma posted_eq (h : PollInv s) : s.posted = s.processed ++ s.pending := by
  obtain ⟨rest, hrest⟩ := h.prefix_posted
  rw [PollState.pending, ← hrest, List.drop_left]

lemma pending_postMessage (h : PollInv s) :
    (postMessage s serviceId offset length linked).pending =
      s.pending ++ [⟨s.next, serviceId, offset, length⟩] :=
  List.drop_append_of_le_length h.prefix_posted.length_le

/-- A harmless post keeps the invariant. -/
lemma post (h : PollInv s) (hharmless : Harmless s (.post serviceId offset length linked)) :
    PollInv (postMessage s serviceId offset length linked) := by
  obtain ⟨hfree, hgood⟩ := hharmless
  have hroom := h.free_iff.mp hfree
  have hnext := h.next_eq
  have hlt : s.next < s.queue.bufSize.toNat := by
    rw [hnext]
    exact Ring.index_lt h.queued.head_lt hroom.le
  refine ⟨h.prefix_posted.trans (List.prefix_append _ _), ?_, ?_⟩
  · rw [h.pending_postMessage]
    exact h.queued.post hnext hroom (fun x hx => h.entry_ne_next hroom hx) hgood
  · rw [h.pending_postMessage, List.length_append, List.length_singleton]
    show (s.next + 1) % s.queue.bufSize.toNat = _
    rw [Ring.succ_mod hlt, hnext, Ring.index_next h.queued.head_lt hroom]
    rfl

/-- A poll that serves the oldest message keeps the invariant. -/
lemma serve (h : PollInv s) (hpending : s.pending = x :: rest) : PollInv (serveEntry s) := by
  have hqueued := h.queued
  have hposted := h.posted_eq
  rw [hpending] at hqueued hposted
  have hserved := hqueued.processed_serveEntry
  have hrest : (serveEntry s).pending = rest := by
    show s.posted.drop (serveEntry s).processed.length = rest
    rw [hserved, hposted, List.length_append, List.length_singleton, ← List.drop_drop,
      List.drop_left]
    rfl
  have hhead : (serveEntry s).queue.procIngH.toNat =
      Ring.index s.queue.bufSize.toNat s.queue.procIngH.toNat 1 := hqueued.toNat_newHead
  refine ⟨?_, by rw [hrest]; exact hqueued.serve, ?_⟩
  · rw [hserved]
    show s.processed ++ [x] <+: s.posted
    rw [hposted]
    exact ⟨rest, by rw [List.append_assoc]; rfl⟩
  · rw [hrest, hhead]
    show s.next = Ring.index s.queue.bufSize.toNat _ rest.length
    have hcount := hqueued.count
    rw [List.length_cons] at hcount
    rw [Ring.index_succ hqueued.head_lt hcount, h.next_eq, hpending, List.length_cons]

/-- An idle poll that leaves the head where it is keeps the invariant. -/
lemma skip (h : PollInv s) (hhead : (skipEntry s).queue.procIngH = s.queue.procIngH) :
    PollInv (skipEntry s) := by
  have hsame := sameQueue_skipEntry s
  have hpending : (skipEntry s).pending = s.pending := by
    rw [PollState.pending, hsame.posted, hsame.processed]
    rfl
  refine ⟨?_, ?_, ?_⟩
  · rw [hsame.processed, hsame.posted]
    exact h.prefix_posted
  · rw [hpending]
    exact h.queued.same hsame hhead
  · rw [hsame.next, hsame.bufSize, hhead, hpending]
    exact h.next_eq

/-- **The step**: a harmless step keeps the invariant. -/
lemma step (h : PollInv s) (hharmless : Harmless s op) : PollInv (pollStep s op) := by
  cases op with
  | post serviceId offset length linked => exact h.post hharmless
  | poll =>
      show PollInv (pollOnce s)
      have hqueued := h.queued
      cases hpending : s.pending with
      | nil =>
          rw [hpending] at hqueued
          rw [hqueued.pollOnce_nil]
          refine h.skip ?_
          rw [head_skipEntry]
          split_ifs with hreset
          · exact (hharmless (UInt16.lt_iff_toNat_lt.mpr hqueued.head_lt) hqueued.head_idle
              hreset).symm
          · rfl
      | cons x rest =>
          rw [hpending] at hqueued
          rw [hqueued.pollOnce_cons]
          exact h.serve hpending

/-- The invariant gives the order. -/
lemma inOrder (h : PollInv s) : InOrder s where
  prefix_posted := h.prefix_posted
  distinct := h.queued.count
  head := by
    have hqueued := h.queued
    have hnext := h.next_eq
    cases hpending : s.pending with
    | nil =>
        rw [hpending, List.length_nil, Ring.index_zero hqueued.head_lt] at hnext
        exact hnext.symm
    | cons x rest =>
        rw [hpending] at hqueued
        exact hqueued.head_entry.symm
  drains := fun _ hk => (h.queued.drain hk).1

/-- **Every other step does harm**: after it the order is lost. -/
lemma harmless_of_inOrder (h : PollInv s) (horder : InOrder (pollStep s op)) :
    Harmless s op := by
  cases op with
  | post serviceId offset length linked =>
      have horder : InOrder (postMessage s serviceId offset length linked) := horder
      have hdistinct := horder.distinct
      have hdrains := horder.drains
      rw [h.pending_postMessage, List.length_append, List.length_singleton] at hdistinct hdrains
      have hroom : s.pending.length < s.queue.bufSize.toNat := hdistinct
      refine ⟨h.free_iff.mpr hroom, ?_⟩
      by_contra hbad
      -- after the messages before it, the new one is not served
      have hqueued : Queued (postMessage s serviceId offset length linked) s.pending :=
        h.queued.post_bad (fun x hx => h.entry_ne_next hroom hx) hbad
      obtain ⟨hbefore, hempty⟩ := hqueued.drain le_rfl
      rw [List.drop_length] at hempty
      rw [List.take_length] at hbefore
      have hlast := hdrains (s.pending.length + 1) le_rfl
      rw [Function.iterate_succ_apply', (sameQueue_pollOnce hempty.head_idle).processed,
        hbefore] at hlast
      have hlen := congrArg List.length hlast
      rw [List.take_of_length_le (by simp)] at hlen
      simp at hlen
  | poll =>
      intro hlt hnot hreset
      have hqueued := h.queued
      have hnext := h.next_eq
      cases hpending : s.pending with
      | nil =>
          have horder : InOrder (pollOnce s) := horder
          have hsame := sameQueue_skipEntry s
          rw [hpending] at hqueued
          rw [hqueued.pollOnce_nil] at horder
          have hhead := horder.head
          have hpending' : (skipEntry s).pending = [] := by
            rw [PollState.pending, hsame.posted, hsame.processed]
            exact hpending
          rw [hpending, List.length_nil, Ring.index_zero hqueued.head_lt] at hnext
          rw [hpending', head_skipEntry, if_pos hreset, hsame.next] at hhead
          have hzero : (0 : UInt16).toNat = s.queue.procIngH.toNat := hhead.trans hnext
          exact (UInt16.toNat_inj.mp hzero).symm
      | cons x rest =>
          rw [hpending] at hqueued
          have haccepted := (hqueued.holds x List.mem_cons_self).accepted
          rw [hqueued.head_entry] at haccepted
          exact absurd haccepted hnot

end PollInv

/-! ### Runs of the loop -/

lemma pollInv_start {queue sel4Queue : AmpMsgQueue} {entries : ℕ → MsgEntry} {data : Mem}
    (h : CleanStart queue entries) : PollInv (pollStart queue sel4Queue entries data) where
  prefix_posted := List.nil_prefix
  queued :=
    { head_lt := UInt16.lt_iff_toNat_lt.mp h.head_lt
      count := Nat.zero_le _
      place := fun _ _ hk => absurd hk (by simp [PollState.pending, pollStart])
      holds := fun _ hx => absurd hx (by simp [PollState.pending, pollStart])
      idle := fun i hi _ => h.idle i hi }
  next_eq := (Ring.index_zero (UInt16.lt_iff_toNat_lt.mp h.head_lt)).symm

/-- **The polling server**: from any start without a message, a run of posts and polls in any
order has `proc_ing_h` at the oldest pending message in all its states, and all messages served
once and in order, exactly if all its steps are harmless. -/
theorem polling_order_iff (queue sel4Queue : AmpMsgQueue) (entries : ℕ → MsgEntry) (data : Mem)
    (hstart : CleanStart queue entries) (ops : List PollOp) :
    (∀ pre, pre <+: ops → InOrder (pre.foldl pollStep (pollStart queue sel4Queue entries data))) ↔
      ∀ pre op, pre ++ [op] <+: ops →
        Harmless (pre.foldl pollStep (pollStart queue sel4Queue entries data)) op :=
  always_iff (fun _ h => h.inOrder) (fun _ _ h hharmless => h.step hharmless)
    (fun _ _ h horder => h.harmless_of_inOrder horder) (pollInv_start hstart) ops

/-- A queue that nobody has initialised, in memory full of zeros. -/
def blankQueue : AmpMsgQueue where
  workingMark := 0
  bufSize := 0
  emptyH := 0
  waitH := 0
  procIngH := 0

/-- An entry in memory full of zeros. -/
def blankEntry : MsgEntry where
  msg := { dealState := false, serviceResult := .none, serviceId := 0, offset := 0, length := 0 }
  nxtIdx := 0

/-- The loop starts over memory full of zeros. -/
def blankStart : PollState := pollStart blankQueue blankQueue (fun _ => blankEntry) fun _ => 0

lemma cleanStart_blank : CleanStart blankQueue fun _ => blankEntry where
  head_lt := by decide
  idle := fun _ _ h => absurd h.1 (by decide)

/-- A message is posted and served. -/
theorem polling_order_two :
    InOrder ([PollOp.post 66 0 4 true, .poll].foldl pollStep blankStart) := by
  refine (polling_order_iff blankQueue blankQueue (fun _ => blankEntry) (fun _ => 0)
    cleanStart_blank [.post 66 0 4 true, .poll]).mpr ?_ _ List.prefix_rfl
  intro pre op hpre
  cases pre with
  | nil =>
      obtain rfl : op = .post 66 0 4 true := (List.cons_prefix_cons.mp hpre).1
      exact ⟨fun h => absurd h.1 (by decide), by decide, by decide, by decide⟩
  | cons op₀ pre =>
      obtain ⟨rfl, hrest⟩ := List.cons_prefix_cons.mp hpre
      cases pre with
      | nil =>
          obtain rfl : op = .poll := (List.cons_prefix_cons.mp hrest).1
          intro _ hnot _
          exact absurd (show Msg.Accepted _ from ⟨by decide, by decide, by decide, rfl⟩) hnot
      | cons op₁ pre =>
          have hlen := hrest.length_le
          simp at hlen

/-! ### The reset -/

/-- Idle polls only count until the reset. -/
lemma idle_polls (h : Queued s []) (k : ℕ) (hk : s.consecutiveInvalidCount + k < 32) :
    pollOnce^[k] s = { s with consecutiveInvalidCount := s.consecutiveInvalidCount + k } := by
  induction k with
  | zero => rfl
  | succ k ih =>
      have hidle : Queued { s with consecutiveInvalidCount := s.consecutiveInvalidCount + k } [] :=
        h.same ⟨rfl, rfl, rfl, rfl, rfl⟩ rfl
      rw [Function.iterate_succ_apply', ih (by omega), hidle.pollOnce_nil, skipEntry, if_neg]
      · rfl
      · show ¬ 32 ≤ s.consecutiveInvalidCount + k + 1
        omega

/-- **The reset comes**: with nothing to serve, the head is at zero after at most 32 polls. -/
theorem head_reset (h : Queued s []) (hcount : s.consecutiveInvalidCount < 32) :
    (pollOnce^[32 - s.consecutiveInvalidCount] s).queue.procIngH = 0 := by
  obtain ⟨k, hk⟩ : ∃ k, 32 - s.consecutiveInvalidCount = k + 1 :=
    ⟨31 - s.consecutiveInvalidCount, by omega⟩
  have hidle : Queued { s with consecutiveInvalidCount := s.consecutiveInvalidCount + k } [] :=
    h.same ⟨rfl, rfl, rfl, rfl, rfl⟩ rfl
  rw [hk, Function.iterate_succ_apply', idle_polls h k (by omega), hidle.pollOnce_nil,
    head_skipEntry, if_pos]
  show 32 ≤ s.consecutiveInvalidCount + k + 1
  omega

/-- **Behind the reset**: with the head at an entry that is dealt with, no number of polls serves
anything, whatever the other entries hold. -/
theorem reset_starves (hhead : s.queue.procIngH = 0) (hnot : ¬ (s.entries 0).msg.Accepted)
    (k : ℕ) : (pollOnce^[k] s).processed = s.processed := by
  have hkeep : (pollOnce^[k] s).queue.procIngH = 0 ∧ (pollOnce^[k] s).entries = s.entries ∧
      (pollOnce^[k] s).processed = s.processed := by
    induction k with
    | zero => exact ⟨hhead, rfl, rfl⟩
    | succ k ih =>
        obtain ⟨hzero, hentries, hprocessed⟩ := ih
        have hidle : ¬ ((pollOnce^[k] s).entries
            (pollOnce^[k] s).queue.procIngH.toNat).msg.Accepted := by
          rw [hzero, hentries]
          exact hnot
        have hsame := sameQueue_pollOnce hidle
        rw [Function.iterate_succ_apply']
        refine ⟨?_, hsame.entries.trans hentries, hsame.processed.trans hprocessed⟩
        rw [pollOnce, if_neg hidle]
        split_ifs
        · rw [head_skipEntry]
          split_ifs
          · rfl
          · exact hzero
        · exact hzero
  exact hkeep.2.2

lemma foldl_replicate_poll (k : ℕ) (s : PollState) :
    (List.replicate k .poll).foldl pollStep s = pollOnce^[k] s := by
  induction k generalizing s with
  | zero => rfl
  | succ k ih =>
      rw [List.replicate_succ, List.foldl_cons, ih, Function.iterate_succ_apply]
      rfl

/-- The state after one message was posted and served. -/
def servedOnce : PollState := pollStep (pollStep blankStart (.post 66 0 4 true)) .poll

lemma pollInv_servedOnce : PollInv servedOnce := by
  have hposted : PollInv (postMessage blankStart 66 0 4 true) :=
    (pollInv_start cleanStart_blank).post
      ⟨fun h => absurd h.1 (by decide), by decide, by decide, by decide⟩
  have hharmless : Harmless (postMessage blankStart 66 0 4 true) .poll := fun _ hnot _ =>
    absurd (show Msg.Accepted _ from ⟨by decide, by decide, by decide, rfl⟩) hnot
  exact hposted.step hharmless

/-- A message that is posted elsewhere behind the reset is never served. -/
lemma post_after_reset (hhead : s.queue.procIngH = 0)
    (hdealt : (s.entries 0).msg.dealState = true) (hnext : s.next ≠ 0) (k : ℕ) :
    (pollOnce^[k] (postMessage s serviceId offset length linked)).processed = s.processed := by
  refine reset_starves (s := postMessage s serviceId offset length linked) hhead ?_ k
  rw [entries_postMessage_of_ne hnext.symm]
  rintro ⟨-, -, -, hdeal⟩
  rw [hdealt] at hdeal
  cases hdeal

/-- A message is posted and served, 32 polls find nothing, and the second message that is posted
is never served. -/
theorem reset_loses_message :
    ∃ s, s = (.post 66 0 4 true :: .poll :: List.replicate 32 .poll).foldl pollStep blankStart ∧
      s.queue.procIngH = 0 ∧ s.next = 1 ∧ ¬ InOrder s ∧
      ∀ k, (pollOnce^[k] (postMessage s 66 0 4 true)).processed = [⟨0, 66, 0, 4⟩] := by
  have hlist : ∀ n, (.post 66 0 4 true :: .poll :: List.replicate n .poll).foldl pollStep
      blankStart = pollOnce^[n] servedOnce := fun n => foldl_replicate_poll n servedOnce
  have hqueued : Queued servedOnce [] := pollInv_servedOnce.queued
  have hcount : servedOnce.consecutiveInvalidCount = 0 := rfl
  have hidle : Queued { servedOnce with consecutiveInvalidCount := 31 } [] :=
    hqueued.same ⟨rfl, rfl, rfl, rfl, rfl⟩ rfl
  have hhead := head_reset hqueued (by rw [hcount]; decide)
  rw [hcount, Nat.sub_zero] at hhead
  have hlast := Function.iterate_succ_apply' pollOnce 31 servedOnce
  rw [idle_polls hqueued 31 (by rw [hcount]; decide), hcount] at hlast
  have hsame := sameQueue_pollOnce hidle.head_idle
  rw [show Nat.succ 31 = 32 from rfl] at hlast
  obtain ⟨s, hs⟩ : ∃ s, s = pollOnce^[32] servedOnce := ⟨_, rfl⟩
  have hhead : s.queue.procIngH = 0 := by rw [hs]; exact hhead
  have hsame : SameQueue { servedOnce with consecutiveInvalidCount := 31 } s := by
    rw [hs, hlast]
    exact hsame
  have hnext : s.next = 1 := hsame.next
  refine ⟨s, by rw [hs, hlist], hhead, hnext, fun horder => ?_, fun k => ?_⟩
  · have hpending : s.pending = [] := by
      rw [PollState.pending, hsame.posted, hsame.processed]
      rfl
    have hwrong := horder.head
    rw [hpending, hhead, hnext] at hwrong
    cases hwrong
  · have hdealt : (s.entries 0).msg.dealState = true := by
      rw [hsame.entries]
      rfl
    rw [post_after_reset hhead hdealt (by rw [hnext]; decide)]
    exact hsame.processed

end HelloWorld
