import Sel4Test.Lib.ByteMem
import Sel4Test.Lib.Dialogue

/-!
Messages of the Monkey protocol, `monkey/net/protocol/ProtocolConnection.cc`.

A message is a header of 16 bytes, the magic `mkOS`, the type and the length of the
data, both in network byte order, and the data. `sendMsg` hands header and data to
the socket in two calls and adds up what the calls return. `recvMsg` reads the header,
allocates a message of the announced length and reads the data into it.

The functions are programs of `Dialogue`: the calls of `send` may be short or fail,
those of `recv` cut the stream as they like, and the allocation of a message may fail.
A null pointer for the data comes with length 0 from every caller; it is the empty
list here.

* `sendMsg_spec`: `sendMsg` succeeds exactly if header and data were taken.
* `recvMsg_spec`: on a stream that starts with a message, `recvMsg` returns it.
* `messages_roundTrip`: a sequence of messages that were all sent with success is
  received as it was sent, up to the first message for which there is no memory.
-/

namespace Monkey

open ByteMem Dialogue Dialogue.Prog

/-! ### Types -/

/-- `Status`. -/
inductive Status
  | success
  | outOfResource
  | networkError
  | protocolError
  | invalidParameters
  | notFound
  | notInitialized
  | failed
  deriving DecidableEq, Repr

/-- The codes of `MsgType`. -/
abbrev MsgType := UInt32

namespace MsgType

def none : MsgType := 0x0000
def response : MsgType := 0xA001
def hello : MsgType := 0x1000
def auth : MsgType := 0x1001
def memoryNodeShowId : MsgType := 0x2000
def memoryNodeClockIn : MsgType := 0x2001
def tryAlloc : MsgType := 0x3001
def readBlock : MsgType := 0x3002
def writeBlock : MsgType := 0x3003
def checkAvailMem : MsgType := 0x3004
def freeBlock : MsgType := 0x3005
def refBlock : MsgType := 0x3006
def unrefBlock : MsgType := 0x3007
def getBlockDataVersion : MsgType := 0x3008

end MsgType

/-- `protocol::MAGIC`, the text `mkOS`. -/
def magic : List UInt8 := [0x6D, 0x6B, 0x4F, 0x53]

/-- `protocol::Header`, in host byte order. -/
structure Header where
  type : MsgType
  length : UInt64
  deriving DecidableEq, Repr

/-- `sizeof(Header)`. -/
def headerSize : ℕ := 16

/-- `protocol::Msg`: a header and as many bytes as it announces. -/
@[ext]
structure Msg where
  type : MsgType
  data : List UInt8
  deriving DecidableEq, Repr

/-- `header.length` of a message. -/
def Msg.length (m : Msg) : ℕ := m.data.length

/-! ### Sending -/

/-- `makeHeader` in network byte order. -/
def makeHeader (type : MsgType) (length : UInt64) : List UInt8 :=
  magic ++ toBE 4 type.toNat ++ toBE 8 length.toNat

/-- `sendMsg`. -/
def sendMsg (type : MsgType) (data : List UInt8) : Prog UInt8 Status := do
  let header := makeHeader type (UInt64.ofNat data.length)
  let msgSize : ℕ := (headerSize + data.length) % 2 ^ 64
  let dataWrote ← put header
  let dataWrote ← if data ≠ [] then do
      let more ← put data
      pure (dataWrote + more)
    else pure dataWrote
  return if 0 ≤ dataWrote ∧ dataWrote = (msgSize : ℤ) then .success else .networkError

/-- The bytes of a message on the wire. -/
def frame (m : Msg) : List UInt8 := makeHeader m.type (UInt64.ofNat m.data.length) ++ m.data

@[simp] lemma length_makeHeader (type : MsgType) (length : UInt64) :
    (makeHeader type length).length = headerSize := by
  simp [makeHeader, magic, headerSize]

lemma length_frame (m : Msg) : (frame m).length = headerSize + m.data.length := by
  simp [frame]

/-! ### Receiving -/

/-- `recvHeader`: the four bytes of the magic are compared and the fields converted to
host byte order. -/
def recvHeader : Prog UInt8 (Except Status Header) := do
  match ← recvAll headerSize with
  | none => return .error .networkError
  | some bs =>
      if bs.take 4 ≠ magic then return .error .protocolError
      else return .ok ⟨UInt32.ofNat (ofBE ((bs.drop 4).take 4)),
        UInt64.ofNat (ofBE ((bs.drop 8).take 8))⟩

/-- `recvMsg`; the type `None` accepts every message. -/
def recvMsg (type : MsgType) : Prog UInt8 (Except Status Msg) := do
  match ← recvHeader with
  | .error status => return .error status
  | .ok header =>
      if ← new then
        match ← recvAll header.length.toNat with
        | none => return .error .networkError
        | some data =>
            if type ≠ MsgType.none ∧ header.type ≠ type then return .error .protocolError
            else return .ok ⟨header.type, data⟩
      else return .error .outOfResource

/-! ### What a call does -/

variable {F : Faults} {S rest : List UInt8}

/-- What the two calls took is the message exactly if their answers add up to its
size. -/
lemma append_eq_frame_iff (m : Msg) {a b : ℤ} {t u : List UInt8}
    (hhead : a = -1 ∧ t = [] ∨
      ∃ n ≤ headerSize, a = n ∧ t = (makeHeader m.type (UInt64.ofNat m.data.length)).take n)
    (hdata : b = -1 ∧ u = [] ∧ m.data ≠ [] ∨ ∃ n ≤ m.data.length, b = n ∧ u = m.data.take n) :
    (if 0 ≤ a + b ∧ a + b = ((headerSize + m.data.length : ℕ) : ℤ) then Status.success
      else .networkError) = .success ↔ t ++ u = frame m := by
  have hsum : a + b = ((headerSize + m.data.length : ℕ) : ℤ) ↔ t ++ u = frame m := by
    constructor
    · intro h
      have hsize : headerSize = 16 := rfl
      obtain ⟨rfl, rfl⟩ | ⟨n, hn, rfl, rfl⟩ := hhead
      · obtain ⟨rfl, -⟩ | ⟨k, hk, rfl, -⟩ := hdata <;> omega
      · obtain ⟨rfl, -⟩ | ⟨k, hk, rfl, rfl⟩ := hdata
        · omega
        · rw [List.take_of_length_le (by rw [length_makeHeader]; omega),
            List.take_of_length_le (by omega), frame]
    · intro h
      have hlen := congrArg List.length h
      rw [length_frame, List.length_append] at hlen
      obtain ⟨-, rfl⟩ | ⟨n, hn, rfl, rfl⟩ := hhead
      · obtain ⟨-, rfl, -⟩ | ⟨k, hk, rfl, rfl⟩ := hdata
        · simp only [headerSize, List.length_nil] at hlen
          omega
        · rw [List.length_nil, List.length_take] at hlen
          simp only [headerSize] at hlen
          omega
      · rw [List.length_take, length_makeHeader] at hlen
        obtain ⟨-, rfl, hne⟩ | ⟨k, hk, rfl, rfl⟩ := hdata
        · have := List.length_pos_of_ne_nil hne
          rw [List.length_nil] at hlen
          omega
        · rw [List.length_take] at hlen
          push_cast
          omega
  rw [← hsum]
  split_ifs with hw
  · exact ⟨fun _ => hw.2, fun _ => rfl⟩
  · constructor
    · intro hno
      cases hno
    · intro hw'
      exact absurd ⟨by omega, hw'⟩ hw

/-- **`sendMsg` succeeds exactly if the socket took the header and all of the data**,
whatever the two calls of `send` return. -/
lemma sendMsg_spec (m : Msg) (hlen : headerSize + m.data.length < 2 ^ 64) :
    wp F (sendMsg m.type m.data) S fun r rest out =>
      rest = S ∧ ∃ status, r = some status ∧ (status = .success ↔ out = frame m) := by
  -- the part of the program after the header, on the answer `a` of its `send`
  have hrest {a : ℤ} {t : List UInt8}
      (hhead : a = -1 ∧ t = [] ∨
        ∃ n ≤ headerSize, a = n ∧
          t = (makeHeader m.type (UInt64.ofNat m.data.length)).take n) :
      wp F (if m.data ≠ [] then (put m.data).bind fun more => done
              (if 0 ≤ a + more ∧ a + more = ((headerSize + m.data.length : ℕ) : ℤ) then
                Status.success else .networkError)
          else done
            (if 0 ≤ a ∧ a = ((headerSize + m.data.length : ℕ) : ℤ) then
              Status.success else .networkError)) S
        fun r rest out =>
          rest = S ∧ ∃ status, r = some status ∧ (status = .success ↔ t ++ out = frame m) := by
    by_cases hdata : m.data ≠ []
    · rw [if_pos hdata]
      apply wp_bind
      apply wp_put
      · exact ⟨rfl, _, rfl, append_eq_frame_iff m hhead (.inl ⟨rfl, rfl, hdata⟩)⟩
      · intro n hn
        refine ⟨rfl, _, rfl, ?_⟩
        rw [List.append_nil]
        exact append_eq_frame_iff m hhead (.inr ⟨n, hn, rfl, rfl⟩)
    · rw [if_neg hdata]
      refine ⟨rfl, _, rfl, ?_⟩
      have h := append_eq_frame_iff m hhead (b := 0) (u := []) (.inr ⟨0, Nat.zero_le _, rfl, rfl⟩)
      rwa [Int.add_zero] at h
  unfold sendMsg
  rw [Nat.mod_eq_of_lt hlen]
  apply wp_bind
  apply wp_put
  · exact hrest (.inl ⟨rfl, rfl⟩)
  · intro n hn
    rw [length_makeHeader] at hn
    exact hrest (.inr ⟨n, hn, rfl, rfl⟩)

/-- On a reliable socket `sendMsg` sends the message. -/
lemma wp_sendMsg {Q : Option Status → List UInt8 → List UInt8 → Prop} (hF : ¬ F.send) (m : Msg)
    (hlen : headerSize + m.data.length < 2 ^ 64) (h : Q (some .success) S (frame m)) :
    wp F (sendMsg m.type m.data) S Q := by
  unfold sendMsg
  rw [Nat.mod_eq_of_lt hlen]
  apply wp_bind
  apply wp_put_of_reliable hF
  rw [length_makeHeader]
  by_cases hdata : m.data ≠ []
  · simp only [if_pos hdata]
    apply wp_bind
    apply wp_put_of_reliable hF
    have hstatus : (0 : ℤ) ≤ (headerSize : ℤ) + (m.data.length : ℤ) ∧
        (headerSize : ℤ) + (m.data.length : ℤ) = ((headerSize + m.data.length : ℕ) : ℤ) := by
      push_cast
      omega
    simpa [wp, hstatus.1, frame] using h
  · simp only [if_neg hdata]
    have hnil : m.data = [] := not_not.mp hdata
    simpa [wp, hnil, frame] using h

/-- The header of a message is read as it was written. -/
lemma wp_recvHeader {Q : Option (Except Status Header) → List UInt8 → List UInt8 → Prop}
    (hF : ¬ F.recv) (type : MsgType) (length : UInt64) (h : Q (some (.ok ⟨type, length⟩)) rest []) :
    wp F recvHeader (makeHeader type length ++ rest) Q := by
  have hlen := length_makeHeader type length
  apply wp_bind
  apply wp_recvAll hF
  · intro _
    have hheader : (makeHeader type length ++ rest).take headerSize = makeHeader type length :=
      List.take_left' hlen
    have hmagic : (makeHeader type length).take 4 = magic := rfl
    have htype : ((makeHeader type length).drop 4).take 4 = toBE 4 type.toNat := by
      rw [makeHeader, List.append_assoc, List.drop_left' (show magic.length = 4 from rfl),
        List.take_left' (length_toBE _ _)]
    have hlength : ((makeHeader type length).drop 8).take 8 = toBE 8 length.toNat := by
      rw [makeHeader, List.drop_left' (by simp [magic]), List.take_of_length_le (by simp)]
    rw [hheader, List.drop_left' hlen]
    simp only [hmagic, htype, hlength, ne_eq, not_true_eq_false, if_false, ofBE_toBE_u32,
      ofBE_toBE_u64]
    exact h
  · intro hshort
    rw [List.length_append, hlen] at hshort
    omega

/-- **`recvMsg` reads the message that was sent**, however the stream is cut, unless
there is no memory for it. -/
lemma wp_recvMsg {Q : Option (Except Status Msg) → List UInt8 → List UInt8 → Prop}
    (hF : ¬ F.recv) (m : Msg) (hlen : m.data.length < 2 ^ 64) {type : MsgType}
    (htype : type = MsgType.none ∨ type = m.type) (h : Q (some (.ok m)) rest [])
    (hmem : F.alloc → Q (some (.error .outOfResource)) (m.data ++ rest) []) :
    wp F (recvMsg type) (frame m ++ rest) Q := by
  have hlength : (UInt64.ofNat m.data.length).toNat = m.data.length := by
    rw [UInt64.toNat_ofNat', Nat.mod_eq_of_lt hlen]
  rw [frame, List.append_assoc]
  apply wp_bind
  apply wp_recvHeader hF
  apply wp_bind
  apply wp_new
  · apply wp_bind
    apply wp_recvAll hF
    · intro _
      rw [hlength, List.take_left' rfl, List.drop_left' rfl]
      have hok : ¬ (type ≠ MsgType.none ∧ m.type ≠ type) := by
        rintro ⟨hno, hother⟩
        exact htype.elim hno fun heq => hother heq.symm
      simp only [if_neg hok]
      exact h
    · intro hshort
      rw [hlength, List.length_append] at hshort
      omega
  · intro hfail
    exact hmem hfail

/-- Without a message `recvMsg` waits. -/
lemma wp_recvMsg_nil {Q : Option (Except Status Msg) → List UInt8 → List UInt8 → Prop}
    (hF : ¬ F.recv) (type : MsgType) (h : Q none [] []) : wp F (recvMsg type) [] Q := by
  apply wp_bind
  apply wp_bind
  apply wp_recvAll hF
  · intro hlong
    exact absurd hlong (by decide)
  · exact fun _ => h

/-! ### Sequences of messages -/

/-- `sendMsg` for one message after the other; the results of all calls. -/
def sendMsgs : List Msg → Prog UInt8 (List Status)
  | [] => done []
  | m :: ms => do
      let status ← sendMsg m.type m.data
      let more ← sendMsgs ms
      return status :: more

/-- `recvMsg` with one expected type after the other, until a call fails. -/
def recvMsgs : List MsgType → Prog UInt8 (List Msg × Status)
  | [] => done ([], .success)
  | type :: types => do
      match ← recvMsg type with
      | .error status => return ([], status)
      | .ok m => do
          let (ms, status) ← recvMsgs types
          return (m :: ms, status)

/-- The bytes of a sequence of messages. -/
def frames (ms : List Msg) : List UInt8 := ms.flatMap frame

/-- If every `sendMsg` of a sequence succeeds, the socket has taken the messages. -/
lemma sendMsgs_spec {ms : List Msg} (hlen : ∀ m ∈ ms, headerSize + m.data.length < 2 ^ 64) :
    wp F (sendMsgs ms) S fun r _ out =>
      ∃ statuses, r = some statuses ∧ ((∀ s ∈ statuses, s = .success) → out = frames ms) := by
  induction ms generalizing S with
  | nil => exact ⟨[], rfl, fun _ => rfl⟩
  | cons m ms ih =>
      have ih := fun S => ih (S := S) fun m hm => hlen m (List.mem_cons_of_mem _ hm)
      apply wp_bind
      refine wp_mono (sendMsg_spec m (hlen m List.mem_cons_self)) ?_
      rintro r rest out ⟨-, status, rfl, hiff⟩
      apply wp_bind
      refine wp_mono (ih rest) ?_
      rintro r rest' out' ⟨statuses, rfl, hmore⟩
      refine ⟨status :: statuses, rfl, fun hall => ?_⟩
      rw [List.forall_mem_cons] at hall
      rw [hiff.mp hall.1, hmore hall.2, List.append_nil]
      rfl

/-- The expected types fit the messages. -/
def Expected (types : List MsgType) (ms : List Msg) : Prop :=
  List.Forall₂ (fun type m => type = MsgType.none ∨ type = m.type) types ms

/-- The messages of a stream are received as they were sent. Where memory may be
short, a call may fail for want of it after some of them. -/
lemma recvMsgs_spec {types : List MsgType} {ms : List Msg} (hF : ¬ F.recv)
    (hlen : ∀ m ∈ ms, m.data.length < 2 ^ 64) (hexpected : Expected types ms) :
    wp F (recvMsgs types) (frames ms ++ rest) fun r rest' _ =>
      r = some (ms, .success) ∧ rest' = rest ∨
        F.alloc ∧ ∃ k < ms.length, r = some (ms.take k, .outOfResource) := by
  induction hexpected with
  | nil => exact .inl ⟨rfl, rfl⟩
  | @cons type m types ms htype _ ih =>
      have ih := ih fun m hm => hlen m (List.mem_cons_of_mem _ hm)
      have hframes : frames (m :: ms) ++ rest = frame m ++ (frames ms ++ rest) := by
        rw [frames, List.flatMap_cons, List.append_assoc]
        rfl
      rw [hframes]
      apply wp_bind
      apply wp_recvMsg hF m (hlen m List.mem_cons_self) htype
      · apply wp_bind
        refine wp_mono ih ?_
        rintro r rest' out (⟨rfl, rfl⟩ | ⟨hfail, k, hk, rfl⟩)
        · exact .inl ⟨rfl, rfl⟩
        · exact .inr ⟨hfail, k + 1, by simpa using hk, rfl⟩
      · intro hfail
        exact .inr ⟨hfail, 0, by simp, rfl⟩

/-- The sockets are reliable and memory may be short. -/
def shortOfMemory : Faults := ⟨False, False, True⟩

/-- **Framing.** Whatever the calls of `send` return, `sendMsg` succeeds exactly if the
header and the data were taken. If all calls of a sequence succeed, then successive
calls of `recvMsg` on the bytes that were taken return the same types and data, however
the stream is cut, and leave what follows; where memory is short, they do so up to the
first message that cannot be allocated. -/
theorem messages_roundTrip (ms : List Msg) (hlen : ∀ m ∈ ms, m.data.length < 2 ^ 32) :
    (∀ F S, ∀ m ∈ ms, wp F (sendMsg m.type m.data) S fun r _ out =>
      ∃ status, r = some status ∧ (status = .success ↔ out = frame m)) ∧
    ∀ F S, wp F (sendMsgs ms) S fun r _ out =>
      ∃ statuses, r = some statuses ∧ ((∀ s ∈ statuses, s = .success) →
        ∀ types rest, Expected types ms →
          (wp reliable (recvMsgs types) (out ++ rest) fun r rest' _ =>
            r = some (ms, .success) ∧ rest' = rest) ∧
          wp shortOfMemory (recvMsgs types) (out ++ rest) fun r rest' _ =>
            r = some (ms, .success) ∧ rest' = rest ∨
              ∃ k < ms.length, r = some (ms.take k, .outOfResource)) := by
  have hsmall : ∀ m ∈ ms, headerSize + m.data.length < 2 ^ 64 := by
    intro m hm
    have := hlen m hm
    simp only [headerSize]
    omega
  refine ⟨fun F S m hm => wp_mono (sendMsg_spec m (hsmall m hm)) fun _ _ _ h => h.2, ?_⟩
  intro F S
  refine wp_mono (sendMsgs_spec hsmall) ?_
  rintro r _ out ⟨statuses, rfl, hout⟩
  refine ⟨statuses, rfl, fun hall types rest hexpected => ?_⟩
  rw [hout hall]
  have hdata : ∀ m ∈ ms, m.data.length < 2 ^ 64 := fun m hm => by
    have := hlen m hm
    omega
  constructor
  · refine wp_mono (recvMsgs_spec (fun h => h) hdata hexpected) ?_
    rintro r rest' out' (h | ⟨hno, -⟩)
    · exact h
    · exact hno.elim
  · refine wp_mono (recvMsgs_spec (fun h => h) hdata hexpected) ?_
    rintro r rest' out' (h | ⟨-, h⟩)
    · exact .inl h
    · exact .inr h

/-- A message with three bytes of data. -/
def threeBytes : Msg := ⟨MsgType.hello, [1, 2, 3]⟩

/-- Two messages, received with and without an expected type. -/
theorem messages_roundTrip_two :
    wp reliable (sendMsgs [threeBytes, threeBytes]) [] fun r _ out =>
      ∃ statuses, r = some statuses ∧ ((∀ s ∈ statuses, s = .success) →
        wp reliable (recvMsgs [MsgType.none, MsgType.hello]) out fun r _ _ =>
          r = some ([threeBytes, threeBytes], .success)) := by
  have h := messages_roundTrip [threeBytes, threeBytes] (by decide)
  refine wp_mono (h.2 reliable []) ?_
  rintro r _ out ⟨statuses, rfl, hrecv⟩
  refine ⟨statuses, rfl, fun hall => ?_⟩
  have hexpected : Expected [MsgType.none, MsgType.hello] [threeBytes, threeBytes] :=
    .cons (.inl rfl) (.cons (.inr rfl) .nil)
  have hwp := (hrecv hall _ [] hexpected).1
  rw [List.append_nil] at hwp
  exact wp_mono hwp fun _ _ _ h => h.1

/-- Without memory for the message, `recvMsg` does not return what was sent. -/
theorem recvMsg_out_of_memory :
    ¬ wp shortOfMemory (recvMsgs [MsgType.none]) (frame threeBytes) fun r _ _ =>
      r = some ([threeBytes], .success) := by
  intro h
  -- the header comes in one piece, and the allocation fails
  have hheader := h.2.2 (makeHeader MsgType.hello 3) [1, 2, 3] rfl (by decide) (by decide)
  have hfail : some (([] : List Msg), Status.outOfResource) = some ([threeBytes], .success) :=
    hheader.2 trivial
  cases hfail

end Monkey
