import Sel4Test.Lib.Ledger
import Sel4Test.Monkey.Message

/-!
The buffer of a message, `recvMsg` of `monkey/net/protocol/ProtocolConnection.cc` and
`adl/Allocator.h`.

`recvMsg` adds the size of the header to the length that the peer announced, and the allocator
adds the size of its own bookkeeping; both sums are of 64 bits. What `malloc` returns is a
block of so many bytes. A ledger has the live blocks with their sizes, every access to a block
is compared with the size, and a flag stays set after one outside.

The peer is given by the bytes of its header, by what the calls of `recv` for the data return,
one after the other, and by whether there is memory.

* `recvMsg_delivers`, `recvMsg_not_delivers`: what becomes of the ledger, whatever the length.
* `Safe.of_noWrap`: without a wrap `recvMsg` keeps its promise.
* `recvMsg_safe_iff`: exactly when it keeps it.
-/

namespace Monkey.MsgBuffer

open ByteMem

/-! ### Blocks -/

/-- The live blocks of `malloc` with their sizes, the name of the next one, and whether a byte
outside a block was accessed or something else than a live block released. -/
structure Machine where
  live : ℕ → Option ℕ
  next : ℕ
  stray : Bool
  badFree : Bool

namespace Machine

/-- The `n` bytes from `lo` on belong to the block. -/
def inside (h : Machine) (b lo n : ℕ) : Bool := n == 0 || (h.live b).any fun size => lo + n ≤ size

/-- The `n` bytes from `lo` on are accessed. -/
def access (h : Machine) (b lo n : ℕ) : Machine := { h with stray := h.stray || !h.inside b lo n }

/-- `malloc`. -/
def malloc (h : Machine) (room : Bool) (size : ℕ) : Option ℕ × Machine :=
  if room then
    (some h.next, { h with live := Function.update h.live h.next (some size), next := h.next + 1 })
  else (none, h)

/-- `free`. -/
def free (h : Machine) (b : ℕ) : Machine :=
  (Ledger.free h.live (some b)).elim { h with badFree := true } fun live => { h with live }

end Machine

/-- Nothing went wrong so far, and the next block is new. -/
structure Ready (h : Machine) : Prop where
  stray : h.stray = false
  badFree : h.badFree = false
  fresh : h.live h.next = none

/-- `sizeof(Allocator::Header)`. -/
def allocHeaderSize : ℕ := 16

/-- `alloc<Msg>(1, true, objSize)`: the bookkeeping is written, and the constructor of the
message writes the magic. -/
def allocMsg (h : Machine) (room : Bool) (objSize : ℕ) : Option ℕ × Machine :=
  let a := h.malloc room ((objSize * 1 + allocHeaderSize) % 2 ^ 64)
  a.1.elim (none, a.2) fun b =>
    (some b, (a.2.access b 0 allocHeaderSize).access b allocHeaderSize magic.length)

/-! ### Receiving -/

/-- What a peer sends, and whether there is memory for it. `head` are the bytes of the header,
`chunks` what the calls of `recv` for the data return, and `none` is an error. `beyond` are the
bytes around the message in memory. -/
structure Peer where
  head : Option (Vector UInt8 16)
  room : Bool
  chunks : List (Option (List UInt8))
  beyond : ℤ → UInt8

/-- `recvHeader`. -/
def recvHeader (p : Peer) : Except Status Header :=
  match p.head with
  | none => .error .networkError
  | some bs =>
      if bs.toList.take 4 ≠ magic then .error .protocolError
      else .ok ⟨UInt32.ofNat (ofBE ((bs.toList.drop 4).take 4)),
        UInt64.ofNat (ofBE ((bs.toList.drop 8).take 8))⟩

/-- What comes of the data. -/
inductive Arrival
  | data (bs : List UInt8)
  | failed
  | waiting
  deriving DecidableEq, Repr

/-- What the calls of `recv` deliver, after `data`. -/
def arrive (length : ℕ) : List (Option (List UInt8)) → List UInt8 → Arrival
  | [], data => if length ≤ data.length then .data data else .waiting
  | chunk :: chunks, data =>
      if length ≤ data.length then .data data
      else chunk.elim .failed fun bs =>
        arrive length chunks (data ++ bs.take (length - data.length))

/-- The loop of `recvMsg`, which writes behind the two headers of the block. -/
def recvData (b length : ℕ) : List (Option (List UInt8)) → List UInt8 → Machine →
    Arrival × Machine
  | [], data, h => if length ≤ data.length then (.data data, h) else (.waiting, h)
  | chunk :: chunks, data, h =>
      if length ≤ data.length then (.data data, h)
      else chunk.elim (.failed, h.free b) fun bs =>
        let got := bs.take (length - data.length)
        recvData b length chunks (data ++ got)
          (h.access b (allocHeaderSize + headerSize + data.length) got.length)

/-- A message in memory. -/
structure Received where
  block : ℕ
  header : Header
  data : List UInt8
  beyond : ℤ → UInt8

/-- What a call of `recvMsg` comes to: its status, none while it waits, and `*msg`. -/
structure Result where
  status : Option Status
  msg : Option Received
  machine : Machine

/-- `recvMsg`. -/
def recvMsg (type : MsgType) (p : Peer) (msg : Option Received) (h : Machine) : Result :=
  match recvHeader p with
  | .error status => ⟨some status, msg, h⟩
  | .ok header =>
      let msgSize := (header.length.toNat + headerSize) % 2 ^ 64
      let a := allocMsg h p.room msgSize
      a.1.elim ⟨some .outOfResource, msg, a.2⟩ fun b =>
        let r := recvData b header.length.toNat p.chunks []
          (a.2.access b allocHeaderSize headerSize)
        match r.1 with
        | .waiting => ⟨none, msg, r.2⟩
        | .failed => ⟨some .networkError, msg, r.2⟩
        | .data data =>
            if type ≠ MsgType.none ∧ header.type ≠ type then
              ⟨some .protocolError, msg, r.2.free b⟩
            else ⟨some .success, some ⟨b, header, data, p.beyond⟩, r.2⟩

/-- The peer sends the message `m`, of the type that is asked for, and there is memory for
it. -/
structure Delivers (type : MsgType) (p : Peer) (m : Received) : Prop where
  head : recvHeader p = .ok m.header
  room : p.room = true
  type : ¬ (type ≠ MsgType.none ∧ m.header.type ≠ type)
  data : arrive m.header.length.toNat p.chunks [] = .data m.data
  beyond : m.beyond = p.beyond

/-! ### Promise -/

/-- The message is the one that was announced, in a live block with room for the allocator's
bookkeeping, the header and the data, and the three together are a number of 64 bits. -/
structure Holds (h h' : Machine) (header : Header) (m : Received) : Prop where
  announced : m.header = header
  complete : m.data.length = header.length.toNat
  live : h'.live = Function.update h.live m.block
    (some (allocHeaderSize + headerSize + header.length.toNat))
  fresh : h.live m.block = none
  noWrap : allocHeaderSize + headerSize + header.length.toNat < 2 ^ 64

/-- What `recvMsg` promises: it accesses no byte outside a block and releases only what is
live; on an error it leaves the blocks and `*msg` as they were, and on success the message is
in its block. It waits only for data that the peer did not send yet. -/
structure Safe (type : MsgType) (p : Peer) (msg : Option Received) (h : Machine) : Prop where
  inside : (recvMsg type p msg h).machine.stray = false
  releases : (recvMsg type p msg h).machine.badFree = false
  error : ∀ status, (recvMsg type p msg h).status = some status → status ≠ .success →
    (recvMsg type p msg h).machine.live = h.live ∧ (recvMsg type p msg h).msg = msg
  success : (recvMsg type p msg h).status = some .success →
    ∃ header m, recvHeader p = .ok header ∧ (recvMsg type p msg h).msg = some m ∧
      Holds h (recvMsg type p msg h).machine header m
  waits : (recvMsg type p msg h).status = none →
    ∃ header, ∃ sent : List (List UInt8), recvHeader p = .ok header ∧
      p.chunks = sent.map some ∧ sent.flatten.length < header.length.toNat

/-! ### Accesses -/

namespace Machine

variable {h : Machine} {b lo n size : ℕ}

@[simp]
lemma access_live : (h.access b lo n).live = h.live := rfl

@[simp]
lemma access_badFree : (h.access b lo n).badFree = h.badFree := rfl

lemma access_inside (hlive : h.live b = some size) (hle : lo + n ≤ size)
    (hstray : h.stray = false) : (h.access b lo n).stray = false := by
  simp [access, inside, hlive, hle, hstray]

lemma access_outside (hlive : h.live b = some size) (hn : n ≠ 0) (hlt : size < lo + n) :
    (h.access b lo n).stray = true := by
  simp [access, inside, hlive, hn, hlt]

lemma access_stray (hstray : h.stray = true) : (h.access b lo n).stray = true := by
  simp [access, hstray]

lemma free_live (hlive : h.live b = some size) :
    h.free b = { h with live := Function.update h.live b none } := by
  rw [free, Ledger.free_base (by simp [hlive]), Option.elim_some]

lemma free_stray : (h.free b).stray = h.stray := by
  rw [free]
  cases Ledger.free h.live (some b) <;> rfl

end Machine

/-! ### The loop -/

section Loop

variable {b length : ℕ} {chunks : List (Option (List UInt8))} {data : List UInt8} {h : Machine}

/-- What arrives depends on the peer alone. -/
lemma recvData_arrive (b length : ℕ) (chunks : List (Option (List UInt8))) (data : List UInt8)
    (h : Machine) : (recvData b length chunks data h).1 = arrive length chunks data := by
  induction chunks generalizing data h with
  | nil =>
      by_cases hdone : length ≤ data.length
      · rw [recvData, arrive, if_pos hdone, if_pos hdone]
      · rw [recvData, arrive, if_neg hdone, if_neg hdone]
  | cons chunk chunks ih =>
      by_cases hdone : length ≤ data.length
      · rw [recvData, arrive, if_pos hdone, if_pos hdone]
      · rw [recvData, arrive, if_neg hdone, if_neg hdone]
        cases chunk with
        | none => rfl
        | some bs => exact ih _ _

lemma arrive_length {bs : List UInt8} (hle : data.length ≤ length)
    (hbs : arrive length chunks data = .data bs) : bs.length = length := by
  induction chunks generalizing data with
  | nil =>
      by_cases hdone : length ≤ data.length
      · rw [arrive, if_pos hdone] at hbs
        cases hbs
        omega
      · rw [arrive, if_neg hdone] at hbs
        cases hbs
  | cons chunk chunks ih =>
      by_cases hdone : length ≤ data.length
      · rw [arrive, if_pos hdone] at hbs
        cases hbs
        omega
      · rw [arrive, if_neg hdone] at hbs
        cases chunk with
        | none => cases hbs
        | some bs' =>
            refine ih ?_ hbs
            rw [List.length_append, List.length_take]
            omega

/-- The loop waits only while data is missing. -/
lemma arrive_waiting (hw : arrive length chunks data = .waiting) :
    ∃ sent : List (List UInt8), chunks = sent.map some ∧
      data.length + sent.flatten.length < length := by
  induction chunks generalizing data with
  | nil =>
      by_cases hdone : length ≤ data.length
      · rw [arrive, if_pos hdone] at hw
        cases hw
      · refine ⟨[], rfl, ?_⟩
        rw [List.flatten_nil, List.length_nil]
        omega
  | cons chunk chunks ih =>
      by_cases hdone : length ≤ data.length
      · rw [arrive, if_pos hdone] at hw
        cases hw
      · rw [arrive, if_neg hdone] at hw
        cases chunk with
        | none => cases hw
        | some bs =>
            obtain ⟨sent, hsent, hlt⟩ := ih hw
            refine ⟨bs :: sent, by rw [hsent, List.map_cons], ?_⟩
            rw [List.length_append, List.length_take] at hlt
            rw [List.flatten_cons, List.length_append]
            omega

/-- What was outside before the loop is so after it. -/
lemma recvData_stray (hstray : h.stray = true) :
    (recvData b length chunks data h).2.stray = true := by
  induction chunks generalizing data h with
  | nil => rwa [recvData, apply_ite Prod.snd, ite_self]
  | cons chunk chunks ih =>
      by_cases hdone : length ≤ data.length
      · rwa [recvData, if_pos hdone]
      · rw [recvData, if_neg hdone]
        cases chunk with
        | none => exact Machine.free_stray.trans hstray
        | some bs => exact ih (Machine.access_stray hstray)

/-- **The loop and the ledger**: the block is released when an error comes in between, and
otherwise all stays live. -/
lemma recvData_ledger {size : ℕ} (length : ℕ) (chunks : List (Option (List UInt8)))
    (data : List UInt8) (hlive : h.live b = some size) :
    (recvData b length chunks data h).2.badFree = h.badFree ∧
      (recvData b length chunks data h).2.live =
        if arrive length chunks data = .failed then Function.update h.live b none
        else h.live := by
  induction chunks generalizing data h with
  | nil =>
      by_cases hdone : length ≤ data.length
      · rw [recvData, arrive, if_pos hdone, if_pos hdone]
        exact ⟨rfl, rfl⟩
      · rw [recvData, arrive, if_neg hdone, if_neg hdone]
        exact ⟨rfl, rfl⟩
  | cons chunk chunks ih =>
      by_cases hdone : length ≤ data.length
      · rw [recvData, arrive, if_pos hdone, if_pos hdone]
        exact ⟨rfl, rfl⟩
      · rw [recvData, arrive, if_neg hdone, if_neg hdone]
        cases chunk with
        | none =>
            show (h.free b).badFree = h.badFree ∧
              (h.free b).live = Function.update h.live b none
            rw [Machine.free_live hlive]
            exact ⟨rfl, rfl⟩
        | some bs => exact ih _ hlive

/-- **The loop stays inside its block** if that has room for both headers and the data. -/
lemma recvData_inside (chunks : List (Option (List UInt8))) (data : List UInt8)
    (hlive : h.live b = some (allocHeaderSize + headerSize + length))
    (hstray : h.stray = false) (hle : data.length ≤ length) :
    (recvData b length chunks data h).2.stray = false := by
  induction chunks generalizing data h with
  | nil => rwa [recvData, apply_ite Prod.snd, ite_self]
  | cons chunk chunks ih =>
      by_cases hdone : length ≤ data.length
      · rwa [recvData, if_pos hdone]
      · rw [recvData, if_neg hdone]
        cases chunk with
        | none => exact Machine.free_stray.trans hstray
        | some bs =>
            have hgot : (bs.take (length - data.length)).length ≤ length - data.length := by
              rw [List.length_take]
              exact Nat.min_le_left ..
            refine ih _ hlive (Machine.access_inside hlive ?_ hstray) ?_
            · omega
            · rw [List.length_append]
              omega

end Loop

/-! ### The block of a message -/

section Block

variable {type : MsgType} {p : Peer} {msg : Option Received} {h : Machine} {header : Header}

/-- The bytes that the allocator asks for. -/
def blockSize (header : Header) : ℕ :=
  ((header.length.toNat + headerSize) % 2 ^ 64 * 1 + allocHeaderSize) % 2 ^ 64

/-- The block as the loop finds it. -/
def opened (h : Machine) (header : Header) : Machine :=
  let live := Function.update h.live h.next (some (blockSize header))
  (({ h with live := live, next := h.next + 1 }.access h.next 0 allocHeaderSize).access h.next
    allocHeaderSize magic.length).access h.next allocHeaderSize headerSize

lemma opened_live (h : Machine) (header : Header) :
    (opened h header).live h.next = some (blockSize header) := Function.update_self ..

/-- What is done with the data. -/
def finish (type : MsgType) (p : Peer) (msg : Option Received) (b : ℕ) (header : Header)
    (r : Arrival × Machine) : Result :=
  match r.1 with
  | .waiting => ⟨none, msg, r.2⟩
  | .failed => ⟨some .networkError, msg, r.2⟩
  | .data data =>
      if type ≠ MsgType.none ∧ header.type ≠ type then ⟨some .protocolError, msg, r.2.free b⟩
      else ⟨some .success, some ⟨b, header, data, p.beyond⟩, r.2⟩

/-- With memory for the request, `recvMsg` is its loop over the new block. -/
lemma recvMsg_eq (hheader : recvHeader p = .ok header) (hroom : p.room = true) :
    recvMsg type p msg h = finish type p msg h.next header
      (recvData h.next header.length.toNat p.chunks [] (opened h header)) := by
  rw [recvMsg, hheader]
  simp only [allocMsg, Machine.malloc, hroom, if_true, Option.elim_some]
  rfl

lemma finish_stray {b : ℕ} {r : Arrival × Machine} (hstray : r.2.stray = true) :
    (finish type p msg b header r).machine.stray = true := by
  rw [finish]
  split
  · exact hstray
  · exact hstray
  · split_ifs
    · exact Machine.free_stray.trans hstray
    · exact hstray

/-- **The wrap**: where the sum is no number of 64 bits, the block is smaller than the two
headers, and the header is written past its end. -/
lemma opened_stray (hwrap : 2 ^ 64 ≤ allocHeaderSize + headerSize + header.length.toNat) :
    (opened h header).stray = true := by
  have hlength : header.length.toNat < 2 ^ 64 := header.length.toNat_lt
  refine Machine.access_outside (opened_live h header) ?_ ?_
  · rw [headerSize]
    omega
  · rw [blockSize]
    simp only [allocHeaderSize, headerSize] at hwrap ⊢
    omega

/-- **No wrap**: the block has room for everything, and both headers are written inside it. -/
lemma opened_inside (hr : Ready h)
    (hlt : allocHeaderSize + headerSize + header.length.toNat < 2 ^ 64) :
    blockSize header = allocHeaderSize + headerSize + header.length.toNat ∧
      (opened h header).stray = false := by
  have hsize : blockSize header = allocHeaderSize + headerSize + header.length.toNat := by
    rw [blockSize]
    simp only [allocHeaderSize, headerSize] at hlt ⊢
    omega
  refine ⟨hsize, ?_⟩
  have hlive := opened_live h header
  rw [hsize] at hlive
  refine Machine.access_inside hlive ?_ (Machine.access_inside hlive ?_
    (Machine.access_inside hlive ?_ hr.stray))
  · omega
  · rw [headerSize, magic]
    simp only [List.length_cons, List.length_nil]
    omega
  · omega

/-- A block that is gone leaves the ledger as it was. -/
lemma update_next (hr : h.live h.next = none) (size : Option ℕ) :
    Function.update (Function.update h.live h.next size) h.next none = h.live := by
  rw [Function.update_idem, ← hr, Function.update_eq_self]

lemma recvMsg_error {status : Status} (hheader : recvHeader p = .error status) :
    recvMsg type p msg h = ⟨some status, msg, h⟩ := by
  rw [recvMsg, hheader]

lemma recvMsg_noRoom (hheader : recvHeader p = .ok header) (hroom : p.room = false) :
    recvMsg type p msg h = ⟨some .outOfResource, msg, h⟩ := by
  rw [recvMsg, hheader]
  simp only [allocMsg, Machine.malloc, hroom, Bool.false_eq_true, if_false, Option.elim_none]

lemma recvHeader_failed {status : Status} (hheader : recvHeader p = .error status) :
    status ≠ .success := by
  rintro rfl
  rw [recvHeader] at hheader
  split at hheader
  · cases hheader
  · split_ifs at hheader
    cases hheader

/-- A call that ends before there is a block changes nothing. -/
lemma Safe.of_early {status : Status} (hr : Ready h) (hne : status ≠ .success)
    (heq : recvMsg type p msg h = ⟨some status, msg, h⟩) : Safe type p msg h where
  inside := by rw [heq]; exact hr.stray
  releases := by rw [heq]; exact hr.badFree
  error _ _ _ := by rw [heq]; exact ⟨rfl, rfl⟩
  success hs := by
    rw [heq] at hs
    exact absurd (Option.some.inj hs) hne
  waits hs := by
    rw [heq] at hs
    cases hs

/-- The ledger after the loop. -/
lemma recvData_opened (p : Peer) (header : Header) (hr : h.live h.next = none) :
    (recvData h.next header.length.toNat p.chunks [] (opened h header)).2.badFree = h.badFree ∧
      (recvData h.next header.length.toNat p.chunks [] (opened h header)).2.live =
        if arrive header.length.toNat p.chunks [] = .failed then h.live
        else Function.update h.live h.next (some (blockSize header)) := by
  obtain ⟨hbad, hlive⟩ := recvData_ledger header.length.toNat p.chunks []
    (opened_live h header)
  refine ⟨hbad, hlive.trans ?_⟩
  show (if _ then Function.update (Function.update h.live h.next (some (blockSize header)))
    h.next none else Function.update h.live h.next (some (blockSize header))) = _
  rw [update_next hr]

/-- **What the peer delivers is returned**, in a new block. -/
lemma recvMsg_delivers {m : Received} (msg : Option Received) (hr : h.live h.next = none)
    (hm : Delivers type p m) :
    ∃ h', recvMsg type p msg h = ⟨some .success, some { m with block := h.next }, h'⟩ ∧
      h'.live = Function.update h.live h.next (some (blockSize m.header)) ∧
      h'.badFree = h.badFree := by
  obtain ⟨hbad, hlive⟩ := recvData_opened p m.header hr
  have harrive := recvData_arrive h.next m.header.length.toNat p.chunks [] (opened h m.header)
  rw [hm.data] at harrive hlive
  rw [if_neg (by rintro ⟨⟩)] at hlive
  refine ⟨_, ?_, hlive, hbad⟩
  rw [recvMsg_eq hm.head hm.room]
  simp only [finish, harrive]
  rw [if_neg hm.type, hm.beyond]

/-- **Nothing else is returned**: without a message `recvMsg` waits, or it fails and leaves the
ledger as it was. -/
lemma recvMsg_not_delivers (msg : Option Received) (hr : h.live h.next = none)
    (hm : ∀ m, ¬ Delivers type p m) :
    (recvMsg type p msg h).msg = msg ∧ (recvMsg type p msg h).status ≠ some .success ∧
      (recvMsg type p msg h).machine.badFree = h.badFree ∧
      ((recvMsg type p msg h).status ≠ none →
        (recvMsg type p msg h).machine.live = h.live) := by
  cases hheader : recvHeader p with
  | error status =>
      rw [recvMsg_error hheader]
      exact ⟨rfl, fun hs => recvHeader_failed hheader (Option.some.inj hs), rfl, fun _ => rfl⟩
  | ok header =>
      cases hroom : p.room with
      | false =>
          rw [recvMsg_noRoom hheader hroom]
          exact ⟨rfl, by rintro ⟨⟩, rfl, fun _ => rfl⟩
      | true =>
          obtain ⟨hbad, hlive⟩ := recvData_opened p header hr
          have harrive := recvData_arrive h.next header.length.toNat p.chunks [] (opened h header)
          rw [recvMsg_eq hheader hroom]
          generalize recvData h.next header.length.toNat p.chunks [] (opened h header) = r
            at hbad hlive harrive ⊢
          rw [finish]
          cases hr1 : r.1 with
          | waiting => exact ⟨rfl, by rintro ⟨⟩, hbad, fun hs => absurd rfl hs⟩
          | failed =>
              rw [← harrive, if_pos hr1] at hlive
              exact ⟨rfl, by rintro ⟨⟩, hbad, fun _ => hlive⟩
          | data bs =>
              rw [hr1] at harrive
              rw [← harrive, if_neg (by rintro ⟨⟩)] at hlive
              by_cases htype : type ≠ MsgType.none ∧ header.type ≠ type
              · have hblock : r.2.live h.next = some (blockSize header) := by
                  rw [hlive, Function.update_self]
                dsimp only
                rw [if_pos htype, Machine.free_live hblock]
                refine ⟨rfl, by rintro ⟨⟩, hbad, fun _ => ?_⟩
                show Function.update r.2.live h.next none = h.live
                rw [hlive, update_next hr]
              · exact absurd ⟨hheader, hroom, htype, harrive.symm, rfl⟩
                  (hm ⟨h.next, header, bs, p.beyond⟩)

/-- **Without a wrap** nothing outside the block is accessed. -/
lemma recvMsg_inside (hr : Ready h) (hheader : recvHeader p = .ok header) (hroom : p.room = true)
    (hlt : allocHeaderSize + headerSize + header.length.toNat < 2 ^ 64) :
    (recvMsg type p msg h).machine.stray = false := by
  obtain ⟨hsize, hstray⟩ := opened_inside hr hlt
  have hlive := opened_live h header
  rw [hsize] at hlive
  have hinside := recvData_inside p.chunks [] hlive hstray (Nat.zero_le _)
  rw [recvMsg_eq hheader hroom]
  rw [finish]
  split
  · exact hinside
  · exact hinside
  · split_ifs
    · exact Machine.free_stray.trans hinside
    · exact hinside

/-- `recvMsg` waits for nothing but data. -/
lemma recvMsg_waits (hheader : recvHeader p = .ok header) (hroom : p.room = true)
    (hwait : (recvMsg type p msg h).status = none) :
    ∃ sent : List (List UInt8), p.chunks = sent.map some ∧
      sent.flatten.length < header.length.toNat := by
  have harrive := recvData_arrive h.next header.length.toNat p.chunks [] (opened h header)
  rw [recvMsg_eq hheader hroom] at hwait
  generalize recvData h.next header.length.toNat p.chunks [] (opened h header) = r
    at harrive hwait
  rw [finish] at hwait
  cases hr1 : r.1 with
  | waiting =>
      obtain ⟨sent, hsent, hlt⟩ := arrive_waiting (harrive.symm.trans hr1)
      rw [List.length_nil, Nat.zero_add] at hlt
      exact ⟨sent, hsent, hlt⟩
  | failed =>
      simp only [hr1] at hwait
      cases hwait
  | data bs =>
      simp only [hr1, apply_ite Result.status] at hwait
      split_ifs at hwait

/-- **Without a wrap** `recvMsg` keeps its promise. -/
lemma Safe.of_noWrap (hr : Ready h) (hheader : recvHeader p = .ok header)
    (hroom : p.room = true)
    (hlt : allocHeaderSize + headerSize + header.length.toNat < 2 ^ 64) :
    Safe type p msg h := by
  have hinside : (recvMsg type p msg h).machine.stray = false :=
    recvMsg_inside hr hheader hroom hlt
  have hwaits : (recvMsg type p msg h).status = none →
      ∃ header, ∃ sent : List (List UInt8), recvHeader p = .ok header ∧
        p.chunks = sent.map some ∧ sent.flatten.length < header.length.toNat := by
    intro hs
    obtain ⟨sent, hsent⟩ := recvMsg_waits hheader hroom hs
    exact ⟨header, sent, hheader, hsent⟩
  by_cases hm : ∃ m, Delivers type p m
  · obtain ⟨m, hm⟩ := hm
    obtain rfl : m.header = header := Except.ok.inj (hm.head.symm.trans hheader)
    obtain ⟨h', heq, hlive, hbad⟩ := recvMsg_delivers msg hr.fresh hm
    rw [(opened_inside hr hlt).1] at hlive
    refine ⟨hinside, ?_, ?_, ?_, hwaits⟩
    · rw [heq]
      exact hbad.trans hr.badFree
    · intro status hs hne
      rw [heq] at hs
      exact absurd (Option.some.inj hs).symm hne
    · intro _
      refine ⟨m.header, { m with block := h.next }, hheader, by rw [heq], ?_⟩
      have hcomplete := arrive_length (Nat.zero_le _) hm.data
      exact ⟨rfl, hcomplete, by rw [heq]; exact hlive, hr.fresh, hlt⟩
  · obtain ⟨hmsg, hne, hbad, hlive⟩ := recvMsg_not_delivers msg hr.fresh
      (not_exists.mp hm)
    refine ⟨hinside, hbad.trans hr.badFree, ?_, fun hs => absurd hs hne, hwaits⟩
    intro status hs _
    refine ⟨hlive ?_, hmsg⟩
    rw [hs]
    rintro ⟨⟩

/-- **The wrap, in a call**. -/
lemma recvMsg_wraps (hheader : recvHeader p = .ok header) (hroom : p.room = true)
    (hwrap : 2 ^ 64 ≤ allocHeaderSize + headerSize + header.length.toNat) :
    (recvMsg type p msg h).machine.stray = true := by
  rw [recvMsg_eq hheader hroom]
  exact finish_stray (recvData_stray (opened_stray hwrap))

/-- **When `recvMsg` keeps its promise**: exactly if no message is announced for which there is
memory although the allocator's bookkeeping, the header and the data are together no number of
64 bits. -/
theorem recvMsg_safe_iff (type : MsgType) (p : Peer) (msg : Option Received) (h : Machine)
    (hr : Ready h) :
    Safe type p msg h ↔ ∀ header, recvHeader p = .ok header → p.room = true →
      allocHeaderSize + headerSize + header.length.toNat < 2 ^ 64 := by
  constructor
  · intro hsafe header hheader hroom
    by_contra hwrap
    have hstray := hsafe.inside
    rw [recvMsg_wraps hheader hroom (Nat.not_lt.mp hwrap)] at hstray
    cases hstray
  · intro hno
    cases hheader : recvHeader p with
    | error status => exact Safe.of_early hr (recvHeader_failed hheader) (recvMsg_error hheader)
    | ok header =>
        cases hroom : p.room with
        | false =>
            refine Safe.of_early hr ?_ (recvMsg_noRoom hheader hroom)
            rintro ⟨⟩
        | true => exact Safe.of_noWrap hr hheader hroom (hno header hheader hroom)

end Block

/-! ### Two peers -/

/-- Nothing is allocated. -/
def idle : Machine := ⟨fun _ => none, 0, false, false⟩

lemma idle_ready : Ready idle := ⟨rfl, rfl, rfl⟩

/-- A response of eight zero bytes. -/
def emptyReply : Peer where
  head := some #v[0x6D, 0x6B, 0x4F, 0x53, 0, 0, 0xA0, 0x01, 0, 0, 0, 0, 0, 0, 0, 8]
  room := true
  chunks := [some (List.replicate 8 0)]
  beyond _ := 0

/-- A header whose length is 16 bytes short of 2⁶⁴, and nothing behind it. -/
def hugeReply : Peer where
  head := some #v[0x6D, 0x6B, 0x4F, 0x53, 0, 0, 0xA0, 0x01, 0xFF, 0xFF, 0xFF, 0xFF, 0xFF, 0xFF,
    0xFF, 0xF0]
  room := true
  chunks := []
  beyond _ := 0

lemma recvHeader_emptyReply : recvHeader emptyReply = .ok ⟨MsgType.response, 8⟩ := by decide +kernel

lemma recvHeader_hugeReply :
    recvHeader hugeReply = .ok ⟨MsgType.response, 0xFFFFFFFFFFFFFFF0⟩ := by decide +kernel

theorem recvMsg_safe_emptyReply :
    Ready idle ∧ Safe MsgType.response emptyReply none idle := by
  refine ⟨idle_ready, (recvMsg_safe_iff _ _ _ _ idle_ready).mpr ?_⟩
  intro header hheader _
  rw [recvHeader_emptyReply] at hheader
  cases hheader
  decide

/-- The request for a huge message wraps to 16 bytes, and the header is written behind them. -/
theorem recvMsg_unsafe_hugeReply :
    Ready idle ∧ ¬ Safe MsgType.response hugeReply none idle := by
  refine ⟨idle_ready, fun hsafe => ?_⟩
  have hstray := hsafe.inside
  rw [recvMsg_wraps recvHeader_hugeReply rfl (by decide)] at hstray
  cases hstray

end Monkey.MsgBuffer
