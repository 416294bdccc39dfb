import Sel4Test.Monkey.Blocks
import Sel4Test.Monkey.MsgBuffer

/-!
The one-click calls of `Protocol1Connection.cc` and `Protocol2Connection.cc`, over the memory of
a message.

A call sends its request and hands the code for a success to the macro
`MONKEY_PROTOCOL_RECV_AND_HANDLE_RESPONSE`, which receives the response, keeps the text of an
error, and releases the message behind that code. The macro is a `do … while (0)`: a `break` in
the code for a success leaves the macro itself.

`Handled` says what the code does with a response: the ranges that it reads, counted from the
first byte of the message, and what it stores for the caller. The bytes around the message are
arbitrary.

* `decode_leaves`: the calls that leave the macro, and when.
* `oneClick_releases_iff`: exactly when a call releases its response.
-/

namespace Monkey.MsgBuffer

open ByteMem

/-! ### A response in memory -/

/-- The `n` bytes from `o` on. -/
def loadAt (bytes : ℤ → UInt8) (o : ℤ) (n : ℕ) : List UInt8 :=
  (List.range n).map fun (i : ℕ) => bytes (o + i)

/-- The bytes of a message in memory, the header in host byte order. -/
def Received.image (m : Received) (o : ℤ) : UInt8 :=
  if o < 0 then m.beyond o
  else (magic ++ toLE 4 m.header.type.toNat ++ toLE 8 m.header.length.toNat ++
    m.data)[o.toNat]?.getD (m.beyond o)

/-- `ntohl(code)`. -/
def Received.code (m : Received) : UInt32 := UInt32.ofNat (ofBE (loadAt m.image 16 4))

/-- `ntohl(msgLen)`. -/
def Received.msgLen (m : Received) : UInt32 := UInt32.ofNat (ofBE (loadAt m.image 20 4))

/-- A response, and the bytes of its message in memory. -/
structure Response where
  length : UInt64
  code : UInt32
  msgLen : UInt32
  bytes : ℤ → UInt8

/-- The message as `recvResponse` leaves it: two words are replaced in place. -/
def Received.response (m : Received) : Response where
  length := m.header.length
  code := m.code
  msgLen := m.msgLen
  bytes o :=
    if 16 ≤ o ∧ o < 24 then
      (toLE 4 m.code.toNat ++ toLE 4 m.msgLen.toNat)[(o - 16).toNat]?.getD 0
    else m.image o

/-! ### The code for a success -/

/-- The parameters that a call stores something in. -/
inductive Param
  | id | nodes | idOut | buf | availMem | blockId | dataVer | readKey | writeKey | checksum
  deriving DecidableEq, Repr

/-- What is stored for the caller. -/
inductive Out
  | clear (param : Param)
  | word (param : Param) (value : Int64)
  | bytes (param : Param) (value : List UInt8)
  | node (id : Int64) (port : UInt16) (tcpVersion : UInt32) (ip : List UInt8)
  deriving DecidableEq

/-- What was done with a response: `status` afterwards, none if the code never ends; whether the
macro was left by a `break`; the ranges that were read; what was stored. -/
structure Handled where
  status : Option Status
  leaves : Bool
  reads : List (ℤ × ℕ)
  outs : List Out

/-- Fields are read one after the other, and each is stored. -/
def Handled.of (fields : List ((ℤ × ℕ) × Out)) : Handled :=
  ⟨some .success, false, fields.map Prod.fst, fields.map Prod.snd⟩

/-- The code stops with an error. -/
def Handled.error (leaves : Bool) : Handled := ⟨some .protocolError, leaves, [], []⟩

/-- Something was done before. -/
def Handled.after (reads : List (ℤ × ℕ)) (outs : List Out) (d : Handled) : Handled :=
  { d with reads := reads ++ d.reads, outs := outs ++ d.outs }

/-- `ntohq` of the eight bytes at `o`. -/
def Response.word (r : Response) (o : ℤ) : Int64 := ofNetq (loadAt r.bytes o 8)

/-- `if (param) *param = ntohq(…)`. -/
def fetch (wanted : Bool) (param : Param) (o : ℤ) (r : Response) : List ((ℤ × ℕ) × Out) :=
  if wanted then [((o, 8), .word param (r.word o))] else []

namespace Protocol1Connection

def memoryNodeClockIn (r : Response) : Handled :=
  if r.length < 16 then .error false else .of [((24, 8), .word .id (r.word 24))]

/-- The loop of `locateMemoryNodes`, `off` in 64 bits. -/
def locateLoop (r : Response) : ℕ → UInt64 → Handled
  | 0, _ => ⟨none, false, [], []⟩
  | fuel + 1, off =>
      if off < r.length - 8 then
        let entry : ℤ := 24 + off.toNat
        let tcpVer := UInt32.ofNat (ofBE (loadAt r.bytes (entry + 8) 4))
        if tcpVer ≠ 4 then .after [(entry + 8, 4)] [] (locateLoop r fuel (off + 32))
        else
          .after [(entry + 8, 4), (entry, 8), (entry + 12, 4), (entry + 16, 4)]
            [.node (r.word entry) (UInt16.ofNat (ofBE (loadAt r.bytes (entry + 12) 4))) tcpVer
              (loadAt r.bytes (entry + 16) 4)]
            (locateLoop r fuel (off + 32))
      else ⟨some .success, false, [], []⟩

def locateMemoryNodes (r : Response) : Handled :=
  .after [] [.clear .nodes] (locateLoop r (2 ^ 64) 0)

/-- The loop ends at a pointer, which lies before its start where the message is short. -/
def tryAlloc (r : Response) : Handled :=
  .after [] [.clear .idOut] (.of ((List.range ((r.length.toNat - 8 + 7) / 8)).map fun (i : ℕ) =>
    ((24 + 8 * (i : ℤ), 8), .word .idOut (r.word (24 + 8 * (i : ℤ))))))

def readBlock (bufSize : UInt64) (r : Response) : Handled :=
  if r.length - 8 ≠ bufSize then .error false
  else .of [((24, bufSize.toNat), .bytes .buf (loadAt r.bytes 24 bufSize.toNat))]

def writeBlock (_ : Response) : Handled := .of []

def checkAvailMem (r : Response) : Handled := .of [((24, 8), .word .availMem (r.word 24))]

def freeBlock (_ : Response) : Handled := .of []

end Protocol1Connection

namespace Protocol2Connection

def tryAlloc (blockId dataVer readKey writeKey : Bool) (r : Response) : Handled :=
  if r.length < 32 then .error true
  else
    .of (fetch blockId .blockId 24 r ++ fetch dataVer .dataVer 32 r ++
      (if readKey then [((40, 8), .word .readKey (ofRawq (loadAt r.bytes 40 8)))] else []) ++
      (if writeKey then [((48, 8), .word .writeKey (ofRawq (loadAt r.bytes 48 8)))] else []))

def readBlock (dataVer : Bool) (r : Response) : Handled :=
  if r.length - 8 - 8 ≠ 4096 then .error false
  else .of (fetch dataVer .dataVer 24 r ++ [((32, 4096), .bytes .buf (loadAt r.bytes 32 4096))])

def writeBlock (dataVer : Bool) (r : Response) : Handled :=
  if r.msgLen ≠ 8 then .error true else .of (fetch dataVer .dataVer 24 r)

def refBlock (blockId : Bool) (r : Response) : Handled := .of (fetch blockId .blockId 24 r)

def unrefBlock (_ : Response) : Handled := .of []

def getBlockDataVersion (dataVer : Bool) (r : Response) : Handled :=
  .of (fetch dataVer .dataVer 24 r)

def plainText (checksum : Bool) (r : Response) : Handled :=
  if checksum = false then ⟨some .success, true, [], []⟩ else .of (fetch true .checksum 24 r)

end Protocol2Connection

/-! ### Calls -/

/-- The one-click calls. A pointer that the code compares with null is there or not. -/
inductive Call
  | memoryNodeClockIn
  | locateMemoryNodes
  | tryAlloc1
  | readBlock1 (bufSize : UInt64)
  | writeBlock1
  | checkAvailMem
  | freeBlock
  | tryAlloc2 (blockId dataVer readKey writeKey : Bool)
  | readBlock2 (dataVer : Bool)
  | writeBlock2 (dataVer : Bool)
  | refBlock (blockId : Bool)
  | unrefBlock
  | getBlockDataVersion (dataVer : Bool)
  | plainText (checksum : Bool)

/-- The code that a call hands to the macro. -/
def Call.onSuccess : Call → Response → Handled
  | .memoryNodeClockIn => Protocol1Connection.memoryNodeClockIn
  | .locateMemoryNodes => Protocol1Connection.locateMemoryNodes
  | .tryAlloc1 => Protocol1Connection.tryAlloc
  | .readBlock1 bufSize => Protocol1Connection.readBlock bufSize
  | .writeBlock1 => Protocol1Connection.writeBlock
  | .checkAvailMem => Protocol1Connection.checkAvailMem
  | .freeBlock => Protocol1Connection.freeBlock
  | .tryAlloc2 blockId dataVer readKey writeKey =>
      Protocol2Connection.tryAlloc blockId dataVer readKey writeKey
  | .readBlock2 dataVer => Protocol2Connection.readBlock dataVer
  | .writeBlock2 dataVer => Protocol2Connection.writeBlock dataVer
  | .refBlock blockId => Protocol2Connection.refBlock blockId
  | .unrefBlock => Protocol2Connection.unrefBlock
  | .getBlockDataVersion dataVer => Protocol2Connection.getBlockDataVersion dataVer
  | .plainText checksum => Protocol2Connection.plainText checksum

/-- What the call returns before the macro, after its request was sent with this status.
`refBlock` does not look at it. -/
def Call.refuses (call : Call) (sent : Status) : Option Status :=
  match call with
  | .refBlock _ => none
  | .memoryNodeClockIn => if sent = .success then none else some .protocolError
  | _ => if sent = .success then none else some sent

/-- The macro on a message. `text` says whether there is memory for the text of an error, which
`lastError.set` copies. -/
def decode (call : Call) (text : Bool) (m : Received) : Handled :=
  let r := m.response
  .after [(16, 4), (20, 4)] []
    (if r.code ≠ 0 then
      .after (if r.msgLen = 0 ∨ text = false then [] else [(24, r.msgLen.toNat)]) [] (.error false)
    else call.onSuccess r)

/-- What a call comes to: its status, none while it waits, what it stored, and the blocks. -/
structure Done where
  status : Option Status
  outs : List Out
  machine : Machine

/-- A one-click call, after its request was sent with the status `sent`. -/
def oneClick (call : Call) (sent : Status) (p : Peer) (text : Bool) (h : Machine) : Done :=
  match call.refuses sent with
  | some status => ⟨some status, [], h⟩
  | none =>
      let r := recvMsg MsgType.response p none h
      match r.msg with
      | none => ⟨r.status, [], r.machine⟩
      | some m =>
          let d := decode call text m
          let left := d.leaves = true ∨ d.status = none
          ⟨d.status, d.outs, if left then r.machine else r.machine.free m.block⟩

/-! ### Release -/

/-- When the call returns, the block of its response is released, and nothing was released that
is not live. -/
def ReleasedOnce (call : Call) (sent : Status) (p : Peer) (text : Bool) (h : Machine) : Prop :=
  (oneClick call sent p text h).status ≠ none →
    (oneClick call sent p text h).machine.live = h.live ∧
      (oneClick call sent p text h).machine.badFree = h.badFree

/-- The call leaves the macro on this response: with code 0, `tryAlloc` of version 2 if the
message is shorter than its payload, `writeBlock` of version 2 unless the length of the text is
8, `plainText` if the caller wants no checksum. -/
def Call.Leaves (call : Call) (m : Received) : Prop :=
  m.code = 0 ∧
    match call with
    | .tryAlloc2 .. => m.header.length < 32
    | .writeBlock2 _ => m.msgLen ≠ 8
    | .plainText checksum => checksum = false
    | _ => False

@[simp]
lemma Handled.after_leaves (reads : List (ℤ × ℕ)) (outs : List Out) (d : Handled) :
    (d.after reads outs).leaves = d.leaves := rfl

@[simp]
lemma Handled.after_status (reads : List (ℤ × ℕ)) (outs : List Out) (d : Handled) :
    (d.after reads outs).status = d.status := rfl

lemma decode_refused {call : Call} {text : Bool} {m : Received} (hcode : m.code ≠ 0) :
    decode call text m = .after [(16, 4), (20, 4)] []
      (.after (if m.msgLen = 0 ∨ text = false then [] else [(24, m.msgLen.toNat)]) []
        (.error false)) := by
  rw [decode]
  exact congrArg _ (if_pos hcode)

lemma decode_success {call : Call} {text : Bool} {m : Received} (hcode : m.code = 0) :
    decode call text m = .after [(16, 4), (20, 4)] [] (call.onSuccess m.response) := by
  rw [decode]
  exact congrArg _ (if_neg (not_not.mpr hcode))

namespace Protocol1Connection

lemma locateLoop_leaves (r : Response) (fuel : ℕ) (off : UInt64) :
    (locateLoop r fuel off).leaves = false := by
  induction fuel generalizing off with
  | zero => rfl
  | succ fuel ih =>
      rw [locateLoop]
      dsimp only
      split_ifs
      · exact ih _
      · exact ih _
      · rfl

end Protocol1Connection

/-- **The calls that leave the macro**. -/
lemma decode_leaves (call : Call) (text : Bool) (m : Received) :
    (decode call text m).leaves = true ↔ call.Leaves m := by
  by_cases hcode : m.code ≠ 0
  · rw [decode_refused hcode]
    exact ⟨fun h => (by cases h), fun h => absurd h.1 hcode⟩
  · rw [not_not] at hcode
    rw [decode_success hcode, Handled.after_leaves]
    simp only [Call.Leaves, hcode, true_and]
    cases call with
    | memoryNodeClockIn =>
        rw [Call.onSuccess, Protocol1Connection.memoryNodeClockIn, apply_ite Handled.leaves]
        simp [Handled.error, Handled.of]
    | locateMemoryNodes =>
        rw [Call.onSuccess, Protocol1Connection.locateMemoryNodes, Handled.after_leaves,
          Protocol1Connection.locateLoop_leaves]
        simp
    | tryAlloc1 => simp [Call.onSuccess, Protocol1Connection.tryAlloc, Handled.of]
    | readBlock1 bufSize =>
        rw [Call.onSuccess, Protocol1Connection.readBlock, apply_ite Handled.leaves]
        simp [Handled.error, Handled.of]
    | tryAlloc2 blockId dataVer readKey writeKey =>
        rw [Call.onSuccess, Protocol2Connection.tryAlloc, apply_ite Handled.leaves]
        simp [Handled.error, Handled.of, Received.response]
    | readBlock2 dataVer =>
        rw [Call.onSuccess, Protocol2Connection.readBlock, apply_ite Handled.leaves]
        simp [Handled.error, Handled.of]
    | writeBlock2 dataVer =>
        rw [Call.onSuccess, Protocol2Connection.writeBlock, apply_ite Handled.leaves]
        by_cases hlen : m.msgLen = 8 <;> simp [Handled.error, Handled.of, Received.response, hlen]
    | plainText checksum =>
        rw [Call.onSuccess, Protocol2Connection.plainText, apply_ite Handled.leaves]
        simp [Handled.of]
    | writeBlock1 => simp [Call.onSuccess, Protocol1Connection.writeBlock, Handled.of]
    | checkAvailMem => simp [Call.onSuccess, Protocol1Connection.checkAvailMem, Handled.of]
    | freeBlock => simp [Call.onSuccess, Protocol1Connection.freeBlock, Handled.of]
    | refBlock blockId => simp [Call.onSuccess, Protocol2Connection.refBlock, Handled.of]
    | unrefBlock => simp [Call.onSuccess, Protocol2Connection.unrefBlock, Handled.of]
    | getBlockDataVersion dataVer =>
        simp [Call.onSuccess, Protocol2Connection.getBlockDataVersion, Handled.of]

/-- A call that leaves the macro returns. -/
lemma decode_returns {call : Call} {m : Received} (text : Bool) (h : call.Leaves m) :
    (decode call text m).status ≠ none := by
  obtain ⟨hcode, h⟩ := h
  rw [decode_success hcode, Handled.after_status]
  cases call with
  | tryAlloc2 blockId dataVer readKey writeKey =>
      have hshort : m.response.length < 32 := h
      rw [Call.onSuccess, Protocol2Connection.tryAlloc, if_pos hshort]
      rintro ⟨⟩
  | writeBlock2 dataVer =>
      have hlen : m.response.msgLen ≠ 8 := h
      rw [Call.onSuccess, Protocol2Connection.writeBlock, if_pos hlen]
      rintro ⟨⟩
  | plainText checksum =>
      have hnone : checksum = false := h
      rw [Call.onSuccess, Protocol2Connection.plainText, if_pos hnone]
      rintro ⟨⟩
  | _ => exact h.elim

section Release

variable {call : Call} {sent : Status} {p : Peer} {text : Bool} {h : Machine} {m : Received}

/-- The call on a message that is delivered. -/
lemma oneClick_delivers (text : Bool) (hr : h.live h.next = none) (hsent : call.refuses sent = none)
    (hm : Delivers MsgType.response p m) :
    ∃ h', h'.live = Function.update h.live h.next (some (blockSize m.header)) ∧
      h'.badFree = h.badFree ∧
      oneClick call sent p text h = ⟨(decode call text m).status, (decode call text m).outs,
        if (decode call text m).leaves = true ∨ (decode call text m).status = none then h'
        else h'.free h.next⟩ := by
  obtain ⟨h', heq, hlive, hbad⟩ := recvMsg_delivers none hr hm
  refine ⟨h', hlive, hbad, ?_⟩
  simp only [oneClick, hsent, heq]
  rfl

/-- **The leak**: a call that leaves the macro keeps the block. -/
lemma oneClick_leaks (hr : h.live h.next = none) (hsent : call.refuses sent = none)
    (hm : Delivers MsgType.response p m) (hl : call.Leaves m) :
    ¬ ReleasedOnce call sent p text h := by
  intro hreleased
  obtain ⟨h', hlive, -, heq⟩ := oneClick_delivers text hr hsent hm
  rw [ReleasedOnce, heq] at hreleased
  dsimp only at hreleased
  have hleft : (decode call text m).leaves = true ∨ (decode call text m).status = none :=
    .inl ((decode_leaves call text m).mpr hl)
  have hsame := (hreleased (decode_returns text hl)).1
  rw [if_pos hleft, hlive] at hsame
  have hblock := congrFun hsame h.next
  rw [Function.update_self, hr] at hblock
  cases hblock

/-- A call that stays in the macro releases the block. -/
lemma oneClick_releases (hr : h.live h.next = none) (hsent : call.refuses sent = none)
    (hm : Delivers MsgType.response p m) (hl : ¬ call.Leaves m) :
    ReleasedOnce call sent p text h := by
  intro hstatus
  obtain ⟨h', hlive, hbad, heq⟩ := oneClick_delivers text hr hsent hm
  rw [heq] at hstatus ⊢
  dsimp only at hstatus ⊢
  have hstays : ¬ ((decode call text m).leaves = true ∨ (decode call text m).status = none) := by
    rintro (hleaves | hnone)
    · exact hl ((decode_leaves call text m).mp hleaves)
    · exact hstatus hnone
  have hblock : h'.live h.next = some (blockSize m.header) := by
    rw [hlive, Function.update_self]
  rw [if_neg hstays, Machine.free_live hblock]
  refine ⟨?_, hbad⟩
  show Function.update h'.live h.next none = h.live
  rw [hlive, update_next hr]

/-- **When a call releases its response**: exactly if it does not leave the macro on a response
that the peer delivers after the request. -/
theorem oneClick_releases_iff (call : Call) (sent : Status) (p : Peer) (text : Bool) (h : Machine)
    (hr : Ready h) :
    ReleasedOnce call sent p text h ↔ ¬ (call.refuses sent = none ∧
      ∃ m, Delivers MsgType.response p m ∧ call.Leaves m) := by
  constructor
  · rintro hreleased ⟨hsent, m, hm, hl⟩
    exact oneClick_leaks hr.fresh hsent hm hl hreleased
  · intro hno
    cases hsent : call.refuses sent with
    | some status =>
        intro _
        simp only [oneClick, hsent]
        exact ⟨trivial, trivial⟩
    | none =>
        by_cases hm : ∃ m, Delivers MsgType.response p m
        · obtain ⟨m, hm⟩ := hm
          exact oneClick_releases hr.fresh hsent hm fun hl => hno ⟨hsent, m, hm, hl⟩
        · obtain ⟨hmsg, -, hbad, hlive⟩ := recvMsg_not_delivers none hr.fresh
            (not_exists.mp hm)
          intro hstatus
          simp only [oneClick, hsent, hmsg] at hstatus ⊢
          exact ⟨hlive hstatus, hbad⟩

end Release

/-! ### An empty reply -/

/-- The message of an empty reply. -/
def emptyMsg : Received := ⟨0, ⟨MsgType.response, 8⟩, List.replicate 8 0, fun _ => 0⟩

lemma emptyReply_delivers : Delivers MsgType.response emptyReply emptyMsg where
  head := recvHeader_emptyReply
  room := rfl
  type := by decide
  data := by decide +kernel
  beyond := rfl

lemma code_emptyMsg : emptyMsg.code = 0 := by decide +kernel

/-- `freeBlock` releases an empty reply. -/
theorem oneClick_releases_empty :
    Ready idle ∧ ReleasedOnce .freeBlock .success emptyReply true idle := by
  refine ⟨idle_ready, (oneClick_releases_iff _ _ _ _ _ idle_ready).mpr ?_⟩
  rintro ⟨-, m, -, -, hl⟩
  exact hl

/-- `plainText` without a checksum keeps an empty reply. -/
theorem plainText_keeps_empty :
    Ready idle ∧ ¬ ReleasedOnce (.plainText false) .success emptyReply true idle :=
  ⟨idle_ready, oneClick_leaks rfl rfl emptyReply_delivers ⟨code_emptyMsg, rfl⟩⟩

end Monkey.MsgBuffer
