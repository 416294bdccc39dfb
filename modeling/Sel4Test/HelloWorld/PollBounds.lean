import Sel4Test.HelloWorld.PollServer

/-!
What one round of `hyperamp_server_main_loop` touches, `hello-world/src/main.c`.

The round of `PollServer` is a function of queue and entries. Here it is written again as a
program that touches bytes: the root queue, the data region and the local `binary_buf`. All that
it goes by (size and head of the queue, index, offset, length and service) is in the hands of the
other zone, and is what it is when the round begins.

* `pollBytes_doesIff`: the exact condition under which a round touches bytes of these areas only,
  composed along the round from those of its parts.
* `pollBytes_refines`: what it does to queue, entries and data is what `pollOnce` does.
* `poll_safe_iff`: exactly when a round stays inside, for every content of the areas.
-/

namespace HelloWorld

open ByteMem Touch

/-! ### Areas -/

/-- The page of the root queue, `SHM_PAGE_SIZE`. -/
def shmPageSize : ℕ := 0x1000

/-- `sizeof(struct AmpMsgQueue)`. -/
def sizeofAmpMsgQueue : ℕ := 12

/-- `sizeof(struct MsgEntry)`. -/
def sizeofMsgEntry : ℕ := 16

/-- `&root_msg_entries[i]`; the fields follow at 0 (`flag`), 2 (`service_id`), 4 (`offset`),
8 (`length`) and 12 (`nxt_idx`). -/
def entryAddr (i : ℕ) : ℕ := sizeofAmpMsgQueue + sizeofMsgEntry * i

/-- The byte lies in its area. What is given to the cache is not read or written. -/
def Inside : Event Area → Prop
  | .read .rootQ a => a < shmPageSize
  | .write .rootQ a => a < shmPageSize
  | .read .data a => a < shmSizeData
  | .write .data a => a < shmSizeData
  | .read .binary a => a < binaryBufSize
  | .write .binary a => a < binaryBufSize
  | .invalidate _ _ _ => True
  | .clean _ _ _ => True

/-! ### Queue and entries in the page -/

/-- The number of a result. -/
def ServiceResult.code : ServiceResult → ℕ
  | .none => 0
  | .success => 1
  | .fail => 2
  | .notExits => 3

/-- The result that two bits stand for. -/
def ServiceResult.ofCode : ℕ → ServiceResult
  | 0 => .none
  | 1 => .success
  | 2 => .fail
  | _ => .notExits

lemma ServiceResult.ofCode_code (r : ServiceResult) : ofCode r.code = r := by
  cases r <;> rfl

lemma ServiceResult.code_lt (r : ServiceResult) : r.code < 4 := by
  cases r <;> decide

/-- The header of the queue, at the start of the page. -/
def queueAt (q : Mem) : AmpMsgQueue where
  workingMark := UInt32.ofNat (readLE q 0 4)
  bufSize := readU16 q 4
  emptyH := readU16 q 6
  waitH := readU16 q 8
  procIngH := readU16 q 10

/-- The entry `i`; the flag is a half word with `deal_state` in its lowest bit and
`service_result` in the next two. -/
def msgEntryAt (q : Mem) (i : ℕ) : MsgEntry where
  msg :=
    { dealState := decide (readLE q (entryAddr i) 2 % 2 = 1)
      serviceResult := .ofCode (readLE q (entryAddr i) 2 / 2 % 4)
      serviceId := readU16 q (entryAddr i + 2)
      offset := UInt32.ofNat (readLE q (entryAddr i + 4) 4)
      length := UInt32.ofNat (readLE q (entryAddr i + 8) 4) }
  nxtIdx := readU16 q (entryAddr i + 12)

/-! ### The services -/

/-- `hyperamp_encrypt_service` at an address of the data region; the result is whether it
returned 0. -/
def encryptBytes (addr dataLen bufSize : ℕ) : Prog Area Bool :=
  if dataLen = 0 ∨ bufSize ≤ dataLen then return false
  else do
    mapBlock (· ^^^ 0x5A) .data addr dataLen
    return true

/-- The `i`-th half word of a header. -/
def halfWord (hdr : List UInt8) (i : ℕ) : ℕ := ofLE ((hdr.drop (2 * i)).take 2)

/-- A parser of the proxy messages with an inner header of five half words, of which the payload
that is shown depends. -/
def parseInner (payload : (ℕ → ℕ) → ℕ) (length : ℕ) : Prog Area Unit :=
  if length < 18 then return
  else do
    let _ ← readBlock .binary 0 8
    let inner ← readBlock .binary 8 10
    let _ ← readBlock .binary 18 (payload (halfWord inner))
    return

/-- `parse_device_message`: the response to a query, or else the mask. -/
def parseDeviceMessage : ℕ → Prog Area Unit :=
  parseInner fun inner =>
    if inner 1 = 2 ∧ inner 3 = 1 then (if 4 ≤ inner 4 then 4 else 0)
    else if 2 ≤ inner 4 then 2 else 0

/-- `parse_strategy_message`: the response to a query, or else the parameter. -/
def parseStrategyMessage : ℕ → Prog Area Unit :=
  parseInner fun inner =>
    if inner 1 = 1 ∧ inner 3 = 1 then (if 4 ≤ inner 4 then 4 else 0)
    else if 2 ≤ inner 4 then 2 else 0

/-- `parse_session_message`: the response, or else the parameters of an IPv4 session. -/
def parseSessionMessage : ℕ → Prog Area Unit :=
  parseInner fun inner =>
    if inner 2 = 1 then (if 2 ≤ inner 4 then 2 else 0)
    else if inner 3 = 4 ∧ 10 ≤ inner 4 then 10 else 0

/-- `parse_data_message`: 100 bytes of a text or 64 of anything else. The comparison with the
names looks at the first four bytes. -/
def parseDataMessage (length : ℕ) : Prog Area Unit :=
  if length < 8 then return
  else do
    let outer ← readBlock .binary 0 8
    let payloadLen := halfWord outer 3
    if 4 < payloadLen then
      let start ← readBlock .binary 8 4
      if start = [0x48, 0x54, 0x54, 0x50] ∨ start = [0x47, 0x45, 0x54, 0x20] ∨
          start = [0x50, 0x4F, 0x53, 0x54] then
        let _ ← readBlock .binary 8 (min payloadLen 100)
        return
      else
        let _ ← readBlock .binary 8 (min payloadLen 64)
        return
    else
      let _ ← readBlock .binary 8 (min payloadLen 64)
      return

/-- The case of a proxy service: the conversion, and then the parser. -/
def proxyService (parse : ℕ → Prog Area Unit) (addr length : ℕ) :
    Prog Area (ServiceResult × Bool) := do
  let binaryLen ← Hex.hexStringToBinary false .data addr length .binary binaryBufSize
  if 0 < binaryLen then
    parse binaryLen.toNat
    return (.success, false)
  else return (.fail, false)

/-- The case of a service that encrypts: `data_modified` is set where it did. -/
def xorService (addr length room : ℕ) : Prog Area (ServiceResult × Bool) := do
  let ok ← encryptBytes addr length room
  return if ok then (.success, true) else (.fail, false)

/-- The dispatch on `service_id`: the result of the service and `data_modified`. -/
def serviceBytes (serviceId offset length : ℕ) : Prog Area (ServiceResult × Bool) :=
  if serviceId = 1 then xorService offset length (shmSizeData - offset)
  else if serviceId = 2 then xorService offset length (shmSizeData - offset)
  else if serviceId = 10 then proxyService parseDeviceMessage offset length
  else if serviceId = 11 then proxyService parseStrategyMessage offset length
  else if serviceId = 12 then proxyService parseSessionMessage offset length
  else if serviceId = 13 then proxyService parseDataMessage offset length
  else return (.success, false)

/-! ### The round -/

/-- `c >= 32 && c <= 126`. -/
def isPrintable (c : UInt8) : Bool := 32 ≤ c.toNat && c.toNat ≤ 126

/-- The loop that shows the first characters, `n` of them left: a NUL ends it once a character was
printed. -/
def showChars (addr : ℕ) (printed : Bool) : ℕ → Prog Area Unit
  | 0 => return
  | n + 1 => do
      let c ← readByte .data addr
      if isPrintable c then showChars (addr + 1) true n
      else if c = 0 ∧ printed then return
      else showChars (addr + 1) printed n

/-- The data of the message as it is shown: 64 characters, and 256 bytes in hexadecimal of what is
longer than that. -/
def showData (offset length : ℕ) : Prog Area Unit := do
  showChars offset false (min length 64)
  if 64 < length then
    let _ ← readBlock .data offset (min length 256)
    return
  else return

/-- The first 32 bytes of the data, shown again where a service has modified them. -/
def showResult (modified : Bool) (offset length : ℕ) : Prog Area Unit :=
  if modified then do
    let _ ← readBlock .data offset (min length 32)
    return
  else return

/-- A message that is accepted, in the order in which its fields are looked at. -/
def acceptedBytes (entry : ℕ) : Prog Area Bool := do
  let length ← readWord .rootQ (entry + 8) 4
  if length = 0 ∨ shmSizeData ≤ length then return false
  else
    let offset ← readWord .rootQ (entry + 4) 4
    if shmSizeData ≤ offset then return false
    else
      let flag ← readWord .rootQ entry 2
      return flag % 2 ≠ 1

/-- `msg->flag.deal_state = MSG_DEAL_STATE_YES`, the lowest bit. -/
def setDealState (entry : ℕ) : Prog Area Unit := do
  let flag ← readWord .rootQ entry 2
  writeBlock .rootQ entry (toLE 2 (flag / 2 * 2 + 1))

/-- `msg->flag.service_result = service_result`, the two bits above. -/
def setServiceResult (entry : ℕ) (result : ServiceResult) : Prog Area Unit := do
  let flag ← readWord .rootQ entry 2
  writeBlock .rootQ entry (toLE 2 (flag / 8 * 8 + result.code * 2 + flag % 2))

/-- A round that ended, with the counter of invalid messages and whether a message was found; or
a remainder by zero. -/
inductive Round
  | ended (consecutiveInvalidCount : ℕ) (found : Bool)
  | remainderByZero
  deriving DecidableEq, Repr

/-- `proc_ing_h` and `working_mark` are written, and written back. -/
def setHead (newHead : ℕ) : Prog Area Unit := do
  writeBlock .rootQ 10 (toLE 2 newHead)
  writeBlock .rootQ 0 (toLE 4 msgQueueMarkIdle.toNat)
  emit (.clean .rootQ 0 sizeofAmpMsgQueue)

/-- The end of the branch: the new head is written, and the data is written back. -/
def leaveEntry (newHead entry offset : ℕ) : Prog Area Round := do
  setHead newHead
  let length ← readWord .rootQ (entry + 8) 4
  emit (.clean .data offset length)
  return .ended 0 true

/-- The head moves on from a message that was served: to the entry that it is linked with, or
else to the successor. -/
def moveOn (current entry offset : ℕ) : Prog Area Round := do
  let nxtIdx ← readWord .rootQ (entry + 12) 2
  let bufSize ← readWord .rootQ 4 2
  if nxtIdx < bufSize then leaveEntry nxtIdx entry offset
  else
    let size ← readWord .rootQ 4 2
    if size = 0 then return .remainderByZero
    else leaveEntry ((current + 1) % size) entry offset

/-- The service of a message that was shown, what is shown of its result, and the end of the
branch. -/
def executeService (current entry serviceId offset length : ℕ) : Prog Area Round := do
  let served ← serviceBytes serviceId offset length
  showResult served.2 offset length
  setDealState entry
  setServiceResult entry served.1
  moveOn current entry offset

/-- The branch for a message that is accepted. -/
def serveBytes (current entry : ℕ) : Prog Area Round := do
  let offset ← readWord .rootQ (entry + 4) 4
  let length ← readWord .rootQ (entry + 8) 4
  showData offset length
  let serviceId ← readWord .rootQ (entry + 2) 2
  executeService current entry serviceId offset length

/-- The branch for any other entry. -/
def skipBytes (consecutiveInvalidCount : ℕ) : Prog Area Round :=
  if 32 ≤ consecutiveInvalidCount + 1 then do
    setHead 0
    return .ended 0 false
  else return .ended (consecutiveInvalidCount + 1) false

/-- The entry at the head. -/
def handleEntry (consecutiveInvalidCount current : ℕ) : Prog Area Round := do
  let ok ← acceptedBytes (entryAddr current)
  if ok then serveBytes current (entryAddr current)
  else skipBytes consecutiveInvalidCount

/-- One round of the loop of `hyperamp_server_main_loop`. -/
def pollBytes (consecutiveInvalidCount : ℕ) : Prog Area Round := do
  let size ← readWord .rootQ 4 2
  emit (.clean .rootQ 0 (sizeofAmpMsgQueue + size * sizeofMsgEntry))
  let current ← readWord .rootQ 10 2
  let bufSize ← readWord .rootQ 4 2
  if current < bufSize then handleEntry consecutiveInvalidCount current
  else return .ended consecutiveInvalidCount false

/-! ### Conditions -/

/-- The text ends with the byte `j`: it is a NUL, and a character was printed before. -/
def EndsText (data : Mem) (addr : ℕ) (printed : Bool) (j : ℕ) : Prop :=
  data (addr + j) = 0 ∧ (printed = true ∨ ∃ k < j, isPrintable (data (addr + k)) = true)

/-- What is shown of a text of `n` characters lies in the data region. -/
def TextInside (data : Mem) (addr : ℕ) (printed : Bool) (n : ℕ) : Prop :=
  Until (EndsText data addr printed) (fun i => addr + i < shmSizeData) n

/-- The pairs of characters up to the first that is not one of digits lie in the data region. -/
def PairsInside (data : Mem) (addr n : ℕ) : Prop :=
  Until (fun j => invalidPair (data (addr + 2 * j)) (data (addr + 2 * j + 1)) = true)
    (fun i => addr + 2 * i + 1 < shmSizeData) n

/-- What `hex_string_to_binary` looks at: the last character of an odd length, and the pairs of an
even one, if there are not too many. -/
def HexInside (data : Mem) (addr hexLen : ℕ) : Prop :=
  if hexLen % 2 ≠ 0 then addr + hexLen ≤ shmSizeData
  else hexLen / 2 ≤ binaryBufSize → PairsInside data addr (hexLen / 2)

/-- What is looked at of a message: the text, the bytes in hexadecimal of a long one, and what the
proxy services convert. -/
def DataInside (data : Mem) (msg : Msg) : Prop :=
  TextInside data msg.offset.toNat false (min msg.length.toNat 64) ∧
    (64 < msg.length.toNat → msg.offset.toNat + min msg.length.toNat 256 ≤ shmSizeData) ∧
    (10 ≤ msg.serviceId ∧ msg.serviceId ≤ 13 →
      HexInside data msg.offset.toNat msg.length.toNat)

/-- The head is not below the size of the queue; or it designates one of the 255 entries that the
page has room for, and where that holds a message which is accepted, what is looked at of its data
lies in the data region. -/
def PollInside (mem : Area → Mem) : Prop :=
  let queue := queueAt (mem .rootQ)
  let msg := (msgEntryAt (mem .rootQ) queue.procIngH.toNat).msg
  queue.procIngH < queue.bufSize →
    queue.procIngH.toNat < 255 ∧ (msg.Accepted → DataInside (mem .data) msg)

/-! ### The text -/

section Parts

variable {s : State Area} {addr n i off w : ℕ} {printed : Bool} {data : Mem}

lemma endsText_zero : EndsText data addr printed 0 ↔ data addr = 0 ∧ printed = true := by
  rw [EndsText, Nat.add_zero, or_iff_left]
  rintro ⟨k, hk, -⟩
  exact Nat.not_lt_zero k hk

lemma endsText_succ {j : ℕ} : EndsText data addr printed (j + 1) ↔
    EndsText data (addr + 1) (printed || isPrintable (data addr)) j := by
  have hdata : ∀ k, data (addr + (k + 1)) = data (addr + 1 + k) := by
    intro k
    rw [Nat.add_assoc, Nat.add_comm 1]
  rw [EndsText, EndsText, Nat.exists_lt_succ_left, Bool.or_eq_true, or_assoc, Nat.add_zero]
  simp only [hdata]
  rfl

/-- The first character, and the others where it does not end the text. -/
lemma textInside_succ : TextInside data addr printed (n + 1) ↔
    addr < shmSizeData ∧ (¬ (data addr = 0 ∧ printed = true) →
      TextInside data (addr + 1) (printed || isPrintable (data addr)) n) := by
  have hlt : ∀ k, addr + (k + 1) < shmSizeData ↔ addr + 1 + k < shmSizeData := fun k => by omega
  rw [TextInside, until_succ, endsText_zero, Nat.add_zero]
  simp only [endsText_succ, hlt]
  rfl

/-- A printable character is no NUL. -/
lemma ne_zero_of_printable {c : UInt8} (h : isPrintable c = true) : c ≠ 0 := by
  rintro rfl
  exact absurd h (by decide)

/-- **The text**, by induction on its length. -/
lemma showChars_doesIff : DoesIff Inside (TextInside (s.mem .data) addr printed n) s
    (showChars addr printed n) fun _ t => Same s t := by
  induction n generalizing s addr printed with
  | zero => exact DoesIff.congr (DoesIff.pure rfl) (iff_of_true trivial until_zero)
  | succ n ih =>
      rw [showChars, textInside_succ]
      refine DoesIff.congr (DoesIff.readByte.bind ?_) Iff.rfl
      rintro c t ⟨rfl, rfl⟩
      by_cases hprint : isPrintable (s.mem .data addr) = true
      · rw [if_pos hprint, hprint, Bool.or_true]
        refine (ih.mono fun _ t ht => ht).congr ?_
        rw [imp_iff_right fun h => ne_zero_of_printable hprint h.1]
      · rw [if_neg hprint, Bool.not_eq_true _ |>.mp hprint, Bool.or_false]
        by_cases hend : s.mem .data addr = 0 ∧ printed = true
        · rw [if_pos hend]
          exact DoesIff.congr (DoesIff.pure rfl) (iff_of_true trivial fun h => absurd hend h)
        · rw [if_neg hend, imp_iff_right hend]
          exact ih.mono fun _ t ht => ht

/-! ### The pairs of digits -/

/-- The first pair, and the others where it is one of digits. -/
lemma pairsInside_succ : PairsInside data addr (n + 1) ↔
    addr + 1 < shmSizeData ∧ (¬ invalidPair (data addr) (data (addr + 1)) = true →
      PairsInside data (addr + 2) n) := by
  have haddr : ∀ k, addr + 2 * (k + 1) = addr + 2 + 2 * k := fun k => by omega
  rw [PairsInside, until_succ]
  simp only [haddr]
  rfl

/-- The data region and the queue are as they were. -/
def SameShared (s t : State Area) : Prop := t.mem .data = s.mem .data ∧ t.mem .rootQ = s.mem .rootQ

/-- **The conversion**, by induction on the pairs. -/
lemma hexPairs_doesIff (hroom : i + n ≤ binaryBufSize) :
    DoesIff Inside (PairsInside (s.mem .data) addr n) s (Hex.hexPairs .data .binary addr i n)
      fun _ t => SameShared s t := by
  induction n generalizing s addr i with
  | zero => exact DoesIff.congr (DoesIff.pure ⟨rfl, rfl⟩) (iff_of_true trivial until_zero)
  | succ n ih =>
      have hboth : ∀ p, (addr < shmSizeData ∧ addr + 1 < shmSizeData ∧ p) ↔
          addr + 1 < shmSizeData ∧ p := by
        intro p
        rw [← and_assoc, and_iff_right_of_imp fun h => Nat.lt_of_succ_lt h]
      rw [Hex.hexPairs, pairsInside_succ]
      refine (DoesIff.readByte.bind ?_).congr (hboth _)
      rintro high t ⟨rfl, rfl⟩
      refine DoesIff.congr (DoesIff.readByte.bind ?_) Iff.rfl
      rintro low t ⟨rfl, rfl⟩
      dsimp only
      by_cases hpair : invalidPair (s.mem .data addr) (s.mem .data (addr + 1)) = true
      · rw [if_pos hpair]
        exact DoesIff.congr (DoesIff.pure ⟨rfl, rfl⟩)
          (iff_of_true trivial fun h => absurd hpair h)
      · rw [if_neg hpair, imp_iff_right hpair]
        have hwrite : Inside (.write .binary i) := by
          show i < binaryBufSize
          omega
        refine (DoesIff.writeByte.bind ?_).congr (and_iff_right hwrite)
        rintro - t rfl
        exact ih (by omega)

/-- A few bytes of the local buffer are read. -/
lemma readBinary_doesIff (h : addr + n ≤ binaryBufSize) :
    DoesIff Inside True s (readBlock .binary addr n) fun bs t =>
      bs = load (s.mem .binary) addr n ∧ Same s t := by
  refine DoesIff.readBlock.congr (iff_true_intro fun i hi => ?_)
  show addr + i < binaryBufSize
  omega

lemma hexEven_doesIff :
    DoesIff Inside (n / 2 ≤ binaryBufSize → PairsInside (s.mem .data) addr (n / 2)) s
      (Hex.hexEven .data addr n .binary binaryBufSize) fun _ t => SameShared s t := by
  rw [Hex.hexEven]
  by_cases hzero : n = 0
  · rw [if_pos hzero, hzero]
    exact DoesIff.congr (DoesIff.pure ⟨rfl, rfl⟩) (iff_of_true trivial fun _ => until_zero)
  rw [if_neg hzero]
  by_cases hroom : binaryBufSize < n / 2
  · rw [if_pos hroom]
    exact DoesIff.congr (DoesIff.pure ⟨rfl, rfl⟩)
      (iff_of_true trivial fun h => absurd hroom (Nat.not_lt.mpr h))
  · have hle : n / 2 ≤ binaryBufSize := Nat.not_lt.mp hroom
    rw [if_neg hroom, imp_iff_right hle]
    refine ((hexPairs_doesIff (by omega)).bind ?_).congr (and_iff_left trivial)
    rintro ok t ⟨hdata, hq⟩
    by_cases h : ok = true
    · rw [if_pos h]
      refine ((readBinary_doesIff (by omega)).bind ?_).congr (and_iff_left trivial)
      rintro _ t' ⟨-, ht'⟩
      exact DoesIff.pure ⟨by rw [ht', hdata], by rw [ht', hq]⟩
    · rw [if_neg h]
      exact DoesIff.pure ⟨hdata, hq⟩

/-- **`hex_string_to_binary`**, for even and odd lengths. -/
lemma hexStringToBinary_doesIff :
    DoesIff Inside (HexInside (s.mem .data) addr n) s
      (Hex.hexStringToBinary false .data addr n .binary binaryBufSize) fun len t =>
        len = binaryLen (s.mem .data) addr n ∧ SameShared s t := by
  have htouch : DoesIff Inside (HexInside (s.mem .data) addr n) s
      (Hex.hexStringToBinary false .data addr n .binary binaryBufSize)
      fun _ t => SameShared s t := by
    rw [Hex.hexStringToBinary]
    by_cases hodd : n % 2 ≠ 0
    · have hlast : Inside (.read .data (addr + n - 1)) ↔ addr + n ≤ shmSizeData := by
        show addr + n - 1 < shmSizeData ↔ _
        omega
      rw [if_pos hodd, HexInside, if_pos hodd, ← hlast]
      by_cases hc : Hex.ignored false (s.mem .data (addr + n - 1)) = true
      · -- the pairs lie before the last character, which was read
        have hpairs : Inside (.read .data (addr + n - 1)) →
            ((n - 1) / 2 ≤ binaryBufSize → PairsInside (s.mem .data) addr ((n - 1) / 2)) := by
          intro h _ i hi _
          have hend : addr + n ≤ shmSizeData := hlast.mp h
          omega
        refine DoesIff.congr (DoesIff.readByte.bind ?_) (and_iff_left_of_imp hpairs)
        rintro c t ⟨rfl, rfl⟩
        rw [if_pos hc]
        exact hexEven_doesIff
      · refine DoesIff.congr (DoesIff.readByte.bind ?_) (and_iff_left trivial)
        rintro c t ⟨rfl, rfl⟩
        rw [if_neg hc]
        exact DoesIff.pure ⟨rfl, rfl⟩
    · rw [if_neg hodd, HexInside, if_neg hodd]
      exact hexEven_doesIff
  refine ⟨htouch.1, ?_, htouch.2⟩
  refine Hex.hexStringToBinary_congr (by decide) ?_
  dsimp only
  rw [Function.update_self]

/-! ### The services -/

/-- A parser of the proxy messages reads the local buffer only. -/
lemma parseInner_doesIff {payload : (ℕ → ℕ) → ℕ} (hpayload : ∀ inner, payload inner ≤ 10) :
    DoesIff Inside True s (parseInner payload n) fun _ t => Same s t := by
  by_cases hshort : n < 18
  · rw [parseInner, if_pos hshort]
    exact DoesIff.pure rfl
  · rw [parseInner, if_neg hshort]
    refine ((readBinary_doesIff (by decide)).bind ?_).congr (and_iff_left trivial)
    rintro _ t ⟨-, ht⟩
    refine ((readBinary_doesIff (by decide)).bind ?_).congr (and_iff_left trivial)
    rintro inner t' ⟨-, ht'⟩
    have hsize : 18 + payload (halfWord inner) ≤ binaryBufSize :=
      (Nat.add_le_add_left (hpayload _) 18).trans (by decide)
    refine ((readBinary_doesIff hsize).bind ?_).congr (and_iff_left trivial)
    rintro _ t'' ⟨-, ht''⟩
    exact DoesIff.pure (ht''.trans (ht'.trans ht))

lemma parseDeviceMessage_doesIff :
    DoesIff Inside True s (parseDeviceMessage n) fun _ t => Same s t :=
  parseInner_doesIff fun inner => by split_ifs <;> omega

lemma parseStrategyMessage_doesIff :
    DoesIff Inside True s (parseStrategyMessage n) fun _ t => Same s t :=
  parseInner_doesIff fun inner => by split_ifs <;> omega

lemma parseSessionMessage_doesIff :
    DoesIff Inside True s (parseSessionMessage n) fun _ t => Same s t :=
  parseInner_doesIff fun inner => by split_ifs <;> omega

lemma parseDataMessage_doesIff :
    DoesIff Inside True s (parseDataMessage n) fun _ t => Same s t := by
  have hshow : ∀ {t : State Area} (payloadLen k : ℕ), k ≤ 100 → Same s t →
      DoesIff Inside True t (do let _ ← readBlock .binary 8 (min payloadLen k); return)
        fun _ t => Same s t := by
    intro t payloadLen k hk ht
    have hmin := Nat.min_le_right payloadLen k
    have hsize : 8 + min payloadLen k ≤ binaryBufSize :=
      (Nat.add_le_add_left (hmin.trans hk) 8).trans (by decide)
    refine ((readBinary_doesIff hsize).bind ?_).congr (and_iff_left trivial)
    rintro _ t' ⟨-, ht'⟩
    exact DoesIff.pure (ht'.trans ht)
  by_cases hshort : n < 8
  · rw [parseDataMessage, if_pos hshort]
    exact DoesIff.pure rfl
  · rw [parseDataMessage, if_neg hshort]
    refine ((readBinary_doesIff (by decide)).bind ?_).congr (and_iff_left trivial)
    rintro outer t ⟨-, ht⟩
    by_cases hlong : 4 < halfWord outer 3
    · rw [if_pos hlong]
      refine ((readBinary_doesIff (by decide)).bind ?_).congr (and_iff_left trivial)
      rintro start t' ⟨-, ht'⟩
      split_ifs
      · exact hshow _ _ le_rfl (ht'.trans ht)
      · exact hshow _ _ (by decide) (ht'.trans ht)
    · rw [if_neg hlong]
      exact hshow _ _ (by decide) ht

/-- What a service leaves: its result and the data region are those of the dispatch, the queue is
as it was, and where the data was modified it lies in the data region. -/
def Served (s : State Area) (msg : Msg) (served : ServiceResult × Bool) (t : State Area) : Prop :=
  (served.1, t.mem .data) = dispatchService msg (s.mem .data) ∧
    t.mem .rootQ = s.mem .rootQ ∧
    (served.2 = true → msg.offset.toNat + msg.length.toNat ≤ shmSizeData)

variable {msg : Msg}

/-- The proxy services convert and show; the data region stays as it was. -/
lemma proxyService_doesIff {parse : ℕ → Prog Area Unit}
    (hparse : ∀ {t : State Area} {k : ℕ}, DoesIff Inside True t (parse k) fun _ t' => Same t t')
    (hdispatch : dispatchService msg (s.mem .data) =
      (if 0 < binaryLen (s.mem .data) msg.offset.toNat msg.length.toNat then .success else .fail,
        s.mem .data)) :
    DoesIff Inside (HexInside (s.mem .data) msg.offset.toNat msg.length.toNat) s
      (proxyService parse msg.offset.toNat msg.length.toNat) (Served s msg) := by
  rw [proxyService]
  refine (hexStringToBinary_doesIff.bind ?_).congr (and_iff_left trivial)
  rintro _ t ⟨rfl, hdata, hq⟩
  by_cases hpos : 0 < binaryLen (s.mem .data) msg.offset.toNat msg.length.toNat
  · rw [if_pos hpos]
    refine (hparse.bind ?_).congr (and_iff_left trivial)
    rintro _ t' ht'
    refine DoesIff.pure ⟨?_, by rw [ht', hq], nofun⟩
    rw [hdispatch, ht', hdata, if_pos hpos]
  · rw [if_neg hpos]
    refine DoesIff.pure ⟨?_, hq, nofun⟩
    rw [hdispatch, hdata, if_neg hpos]

/-- `hyperamp_encrypt_service` stays in the data region, whatever the length is. -/
lemma encryptBytes_doesIff (haddr : addr < shmSizeData) :
    DoesIff Inside True s (encryptBytes addr n (shmSizeData - addr)) fun ok t =>
      ok = (hyperampEncryptService (s.mem .data) addr n (shmSizeData - addr)).isSome ∧
        t.mem .data =
          (hyperampEncryptService (s.mem .data) addr n (shmSizeData - addr)).getD (s.mem .data) ∧
        t.mem .rootQ = s.mem .rootQ ∧ (ok = true → addr + n ≤ shmSizeData) := by
  rw [encryptBytes, hyperampEncryptService]
  by_cases hbad : n = 0 ∨ shmSizeData - addr ≤ n
  · rw [if_pos hbad, if_pos hbad]
    exact DoesIff.pure ⟨rfl, rfl, rfl, nofun⟩
  · rw [if_neg hbad, if_neg hbad]
    have hfits : addr + n ≤ shmSizeData := by omega
    have hinside : ∀ i < n, Inside (.read .data (addr + i)) ∧ Inside (.write .data (addr + i)) := by
      intro i hi
      have hlt : addr + i < shmSizeData := by omega
      exact ⟨hlt, hlt⟩
    refine ((Does.mapBlock hinside).doesIff.bind ?_).congr (and_iff_left trivial)
    rintro _ t ht
    refine DoesIff.pure ⟨rfl, ?_, ?_, fun _ => hfits⟩
    · rw [ht, Function.update_self, mapRange_eq_store]
      rfl
    · rw [ht, Function.update_of_ne (by decide)]

/-- The services that encrypt and decrypt. -/
lemma xorService_doesIff (hoffset : msg.offset.toNat < shmSizeData)
    (hdispatch : dispatchService msg (s.mem .data) =
      ((hyperampEncryptService (s.mem .data) msg.offset.toNat msg.length.toNat
          (shmSizeData - msg.offset.toNat)).elim .fail fun _ => .success,
        (hyperampEncryptService (s.mem .data) msg.offset.toNat msg.length.toNat
          (shmSizeData - msg.offset.toNat)).getD (s.mem .data))) :
    DoesIff Inside True s (xorService msg.offset.toNat msg.length.toNat
      (shmSizeData - msg.offset.toNat)) (Served s msg) := by
  rw [xorService]
  refine ((encryptBytes_doesIff hoffset).bind ?_).congr (and_iff_left trivial)
  rintro ok t ⟨hok, hdata, hq, hfits⟩
  refine DoesIff.pure ⟨?_, hq, fun h => hfits ?_⟩
  · rw [hdispatch, hdata, hok]
    cases hyperampEncryptService (s.mem .data) msg.offset.toNat msg.length.toNat
      (shmSizeData - msg.offset.toNat) <;> rfl
  · cases ok with
    | true => rfl
    | false => exact absurd h Bool.false_ne_true

lemma serviceId_eq_iff (msg : Msg) (k : UInt16) :
    msg.serviceId = k ↔ msg.serviceId.toNat = k.toNat :=
  UInt16.toNat_inj.symm

lemma proxy_iff : (10 ≤ msg.serviceId ∧ msg.serviceId ≤ 13) ↔
    10 ≤ msg.serviceId.toNat ∧ msg.serviceId.toNat ≤ 13 := by
  rw [UInt16.le_iff_toNat_le, UInt16.le_iff_toNat_le]
  rfl

/-- **The dispatch**: only the proxy services may leave the data region. -/
lemma serviceBytes_doesIff (hoffset : msg.offset.toNat < shmSizeData) :
    DoesIff Inside (10 ≤ msg.serviceId ∧ msg.serviceId ≤ 13 →
        HexInside (s.mem .data) msg.offset.toNat msg.length.toNat) s
      (serviceBytes msg.serviceId.toNat msg.offset.toNat msg.length.toNat) (Served s msg) := by
  have hone := serviceId_eq_iff msg 1
  have htwo := serviceId_eq_iff msg 2
  have hproxy : ∀ {parse : ℕ → Prog Area Unit}, 10 ≤ msg.serviceId.toNat →
      msg.serviceId.toNat ≤ 13 →
      (∀ {t : State Area} {k : ℕ}, DoesIff Inside True t (parse k) fun _ t' => Same t t') →
      DoesIff Inside (HexInside (s.mem .data) msg.offset.toNat msg.length.toNat) s
        (proxyService parse msg.offset.toNat msg.length.toNat) (Served s msg) := by
    intro parse hlow hhigh hparse
    refine proxyService_doesIff hparse ?_
    rw [dispatchService, if_neg (by rw [hone]; show _ ≠ 1; omega),
      if_neg (by rw [htwo]; show _ ≠ 2; omega), if_pos (proxy_iff.mpr ⟨hlow, hhigh⟩)]
  rw [serviceBytes, proxy_iff]
  -- along the dispatch, in the order of the source
  by_cases h1 : msg.serviceId.toNat = 1
  · rw [if_pos h1]
    refine (xorService_doesIff hoffset ?_).congr (iff_of_true trivial fun h => by omega)
    rw [dispatchService, if_pos (hone.mpr h1)]
  rw [if_neg h1]
  by_cases h2 : msg.serviceId.toNat = 2
  · rw [if_pos h2]
    refine (xorService_doesIff hoffset ?_).congr (iff_of_true trivial fun h => by omega)
    rw [dispatchService, if_neg (mt hone.mp h1), if_pos (htwo.mpr h2)]
    rfl
  rw [if_neg h2]
  by_cases hrange : 10 ≤ msg.serviceId.toNat ∧ msg.serviceId.toNat ≤ 13
  · rw [imp_iff_right hrange]
    by_cases h10 : msg.serviceId.toNat = 10
    · rw [if_pos h10]
      exact hproxy hrange.1 hrange.2 parseDeviceMessage_doesIff
    rw [if_neg h10]
    by_cases h11 : msg.serviceId.toNat = 11
    · rw [if_pos h11]
      exact hproxy hrange.1 hrange.2 parseStrategyMessage_doesIff
    rw [if_neg h11]
    by_cases h12 : msg.serviceId.toNat = 12
    · rw [if_pos h12]
      exact hproxy hrange.1 hrange.2 parseSessionMessage_doesIff
    rw [if_neg h12, if_pos (by omega)]
    exact hproxy hrange.1 hrange.2 parseDataMessage_doesIff
  · rw [if_neg (by omega), if_neg (by omega), if_neg (by omega), if_neg (by omega)]
    refine DoesIff.congr (DoesIff.pure ⟨?_, rfl, nofun⟩)
      (iff_of_true trivial fun h => absurd h hrange)
    rw [dispatchService, if_neg (mt hone.mp h1), if_neg (mt htwo.mp h2),
      if_neg (mt proxy_iff.mp hrange)]

/-! ### What is shown -/

lemma showData_doesIff :
    DoesIff Inside (TextInside (s.mem .data) addr false (min n 64) ∧
        (64 < n → addr + min n 256 ≤ shmSizeData)) s (showData addr n) fun _ t => Same s t := by
  rw [showData]
  refine showChars_doesIff.bind ?_
  intro _ t ht
  by_cases hlong : 64 < n
  · have hrange : (∀ i < min n 256, Inside (.read .data (addr + i))) ↔
        (64 < n → addr + min n 256 ≤ shmSizeData) := by
      rw [imp_iff_right hlong]
      refine ⟨fun h => ?_, fun h i hi => ?_⟩
      · have hlast : addr + (min n 256 - 1) < shmSizeData := h _ (by omega)
        omega
      · show addr + i < shmSizeData
        omega
    rw [if_pos hlong]
    refine DoesIff.congr (DoesIff.readBlock.bind ?_) ((and_iff_left trivial).trans hrange)
    rintro _ t' ⟨-, ht'⟩
    exact DoesIff.pure (ht'.trans ht)
  · rw [if_neg hlong]
    exact DoesIff.congr (DoesIff.pure ht) (iff_of_true trivial fun h => absurd h hlong)

lemma showResult_doesIff {modified : Bool} (h : modified = true → addr + n ≤ shmSizeData) :
    DoesIff Inside True s (showResult modified addr n) fun _ t => Same s t := by
  cases modified with
  | false => exact DoesIff.pure rfl
  | true =>
      have hfits := h rfl
      have hinside : ∀ i < min n 32, Inside (.read .data (addr + i)) := by
        intro i hi
        show addr + i < shmSizeData
        omega
      refine ((Does.readBlock hinside).doesIff.bind ?_).congr (and_iff_left trivial)
      rintro _ t ⟨-, ht⟩
      exact DoesIff.pure ht

end Parts

/-! ### The page of the queue -/

section Page

variable {q q' : Mem} {i j off w v : ℕ} {s : State Area}

/-- The field lies in the page. -/
def InPage (i off w : ℕ) : Prop := ∀ k < w, entryAddr i + off + k < shmPageSize

lemma entryAddr_eq (i : ℕ) : entryAddr i = 12 + 16 * i := rfl

/-- The page has room for 255 entries. -/
lemma inPage_of_lt (hi : i < 255) (hw : off + w ≤ 16) : InPage i off w := by
  intro k hk
  rw [entryAddr_eq]
  show _ < 4096
  omega

lemma inPage_length : InPage i 8 4 ↔ i < 255 := by
  refine ⟨fun h => ?_, fun h => inPage_of_lt h (by omega)⟩
  have h0 : 12 + 16 * i + 8 + 0 < 4096 := h 0 (by omega)
  omega

/-- The header depends on the first 12 bytes. -/
lemma queueAt_congr (h : ∀ k < 12, q k = q' k) : queueAt q = queueAt q' := by
  have hword : ∀ a w, a + w ≤ 12 → readLE q a w = readLE q' a w :=
    fun a w ha => readLE_congr fun k hk => h _ (by omega)
  rw [queueAt, queueAt, readU16, readU16, readU16, readU16, hword 0 4 (by omega),
    hword 4 2 (by omega), hword 6 2 (by omega), hword 8 2 (by omega), hword 10 2 (by omega)]
  rfl

/-- An entry depends on its first 14 bytes. -/
lemma msgEntryAt_congr (h : ∀ k < 14, q (entryAddr i + k) = q' (entryAddr i + k)) :
    msgEntryAt q i = msgEntryAt q' i := by
  have hword : ∀ off w, off + w ≤ 14 → readLE q (entryAddr i + off) w =
      readLE q' (entryAddr i + off) w := by
    intro off w hoff
    refine readLE_congr fun k hk => ?_
    rw [Nat.add_assoc]
    exact h _ (by omega)
  have hflag : readLE q (entryAddr i) 2 = readLE q' (entryAddr i) 2 := hword 0 2 (by omega)
  rw [msgEntryAt, msgEntryAt, readU16, readU16, hflag, hword 2 2 (by omega), hword 4 4 (by omega),
    hword 8 4 (by omega), hword 12 2 (by omega)]
  rfl

/-- The page after the flag of an entry is written. -/
def writeFlag (q : Mem) (i flag : ℕ) : Mem := writeLE q (entryAddr i) 2 flag

lemma queueAt_writeFlag : queueAt (writeFlag q i v) = queueAt q := by
  refine queueAt_congr fun k hk => writeLE_of_outside (Or.inl ?_)
  rw [entryAddr_eq]
  omega

/-- The flag of the message of an entry. -/
def withFlag (entry : MsgEntry) (flag : ℕ) : MsgEntry :=
  { entry with
    msg := { entry.msg with
      dealState := decide (flag % 2 = 1), serviceResult := .ofCode (flag / 2 % 4) } }

lemma msgEntryAt_writeFlag (hv : v < 65536) :
    msgEntryAt (writeFlag q i v) =
      Function.update (msgEntryAt q) i (withFlag (msgEntryAt q i) v) := by
  funext j
  by_cases hj : j = i
  · obtain rfl := hj
    have hflag : readLE (writeFlag q j v) (entryAddr j) 2 = v := by
      rw [writeFlag, readLE_writeLE]
      exact Nat.mod_eq_of_lt hv
    have hword : ∀ off w, 2 ≤ off →
        readLE (writeFlag q j v) (entryAddr j + off) w = readLE q (entryAddr j + off) w :=
      fun off w hoff => readLE_writeLE_disjoint (Or.inr (by omega))
    rw [Function.update_self, withFlag, msgEntryAt, msgEntryAt, readU16, readU16, hflag,
      hword 2 2 (by omega), hword 4 4 (by omega), hword 8 4 (by omega), hword 12 2 (by omega)]
    rfl
  · rw [Function.update_of_ne hj]
    refine msgEntryAt_congr fun k hk => writeLE_of_outside ?_
    rw [entryAddr_eq, entryAddr_eq]
    omega

/-- The page after the head is moved. -/
def writeHead (q : Mem) (newHead : ℕ) : Mem :=
  writeLE (writeLE q 10 2 newHead) 0 4 msgQueueMarkIdle.toNat

lemma queueAt_writeHead :
    queueAt (writeHead q v) =
      { queueAt q with procIngH := UInt16.ofNat v, workingMark := msgQueueMarkIdle } := by
  have hmark : readLE (writeHead q v) 0 4 = msgQueueMarkIdle.toNat := by
    rw [writeHead, readLE_writeLE]
    rfl
  have hhead : readLE (writeHead q v) 10 2 = v % 65536 := by
    rw [writeHead, readLE_writeLE_disjoint (Or.inr (by omega)), readLE_writeLE]
    rfl
  have hword : ∀ a w, 4 ≤ a → a + w ≤ 10 → readLE (writeHead q v) a w = readLE q a w := by
    intro a w ha hw
    rw [writeHead, readLE_writeLE_disjoint (Or.inr (by omega)),
      readLE_writeLE_disjoint (Or.inl (by omega))]
  rw [queueAt, queueAt, readU16, readU16, readU16, readU16, hmark, hhead, hword 4 2 (by omega)
    (by omega), hword 6 2 (by omega) (by omega), hword 8 2 (by omega) (by omega),
    UInt16.ofNat_mod_size]
  rfl

lemma msgEntryAt_writeHead : msgEntryAt (writeHead q v) = msgEntryAt q := by
  funext i
  refine msgEntryAt_congr fun k hk => ?_
  have haddr := entryAddr_eq i
  rw [writeHead, writeLE_of_outside (Or.inr (by omega)), writeLE_of_outside (Or.inr (by omega))]

/-! ### Programs on the page -/

lemma readField_doesIff :
    DoesIff Inside (InPage i off w) s (readWord .rootQ (entryAddr i + off) w) fun v t =>
      v = readLE (s.mem .rootQ) (entryAddr i + off) w ∧ Same s t :=
  DoesIff.readWord

lemma readFlag_doesIff :
    DoesIff Inside (InPage i 0 2) s (readWord .rootQ (entryAddr i) 2) fun v t =>
      v = readLE (s.mem .rootQ) (entryAddr i) 2 ∧ Same s t :=
  DoesIff.readWord

lemma readHeader_doesIff {a : ℕ} (ha : a + w ≤ 12) :
    DoesIff Inside True s (readWord .rootQ a w) fun v t =>
      v = readLE (s.mem .rootQ) a w ∧ Same s t := by
  refine DoesIff.readWord.congr (iff_true_intro fun k hk => ?_)
  show a + k < 4096
  omega

lemma writeHeader_doesIff {a : ℕ} (ha : a + w ≤ 12) :
    DoesIff Inside True s (writeBlock .rootQ a (toLE w v)) fun _ t =>
      t.mem = Function.update s.mem .rootQ (writeLE (s.mem .rootQ) a w v) := by
  refine DoesIff.writeBlock.congr (iff_true_intro fun k hk => ?_)
  rw [length_toLE] at hk
  show a + k < 4096
  omega

/-- The message that is accepted: the entry has to lie in the page, whatever it holds. -/
lemma acceptedBytes_doesIff :
    DoesIff Inside (i < 255) s (acceptedBytes (entryAddr i)) fun ok t =>
      (ok = true ↔ (msgEntryAt (s.mem .rootQ) i).msg.Accepted) ∧ Same s t := by
  set msg := (msgEntryAt (s.mem .rootQ) i).msg with hmsg
  have hlen : msg.length.toNat = readLE (s.mem .rootQ) (entryAddr i + 8) 4 := toNat_ofNat_readLE _ _
  have hoff : msg.offset.toNat = readLE (s.mem .rootQ) (entryAddr i + 4) 4 := toNat_ofNat_readLE _ _
  have hflag : msg.dealState = decide (readLE (s.mem .rootQ) (entryAddr i) 2 % 2 = 1) := rfl
  rw [acceptedBytes]
  -- the fields are read one after the other, and the entry is in the page if its length is
  by_cases hbadLen : msg.length.toNat = 0 ∨ shmSizeData ≤ msg.length.toNat
  · refine (readField_doesIff.bind ?_).congr ((and_iff_left trivial).trans inPage_length)
    rintro _ t ⟨rfl, ht⟩
    rw [← hlen, if_pos hbadLen]
    refine DoesIff.pure ⟨iff_of_false Bool.false_ne_true fun h => ?_, ht⟩
    obtain ⟨hpos, hlt, -⟩ := h
    omega
  by_cases hbadOff : shmSizeData ≤ msg.offset.toNat
  · have himp : i < 255 → InPage i 4 4 ∧ True :=
      fun hi => ⟨inPage_of_lt hi (by omega), trivial⟩
    refine (readField_doesIff.bind ?_).congr
      ((and_congr_left' inPage_length).trans (and_iff_left_of_imp himp))
    rintro _ t ⟨rfl, ht⟩
    rw [← hlen, if_neg hbadLen]
    refine readField_doesIff.bind ?_
    rintro _ t' ⟨rfl, ht'⟩
    rw [ht, ← hoff, if_pos hbadOff]
    refine DoesIff.pure ⟨iff_of_false Bool.false_ne_true fun h => ?_, ht'.trans ht⟩
    exact absurd h.2.2.1 (Nat.not_lt.mpr hbadOff)
  · have himp : i < 255 → InPage i 4 4 ∧ InPage i 0 2 ∧ True :=
      fun hi => ⟨inPage_of_lt hi (by omega), inPage_of_lt hi (by omega), trivial⟩
    refine (readField_doesIff.bind ?_).congr
      ((and_congr_left' inPage_length).trans (and_iff_left_of_imp himp))
    rintro _ t ⟨rfl, ht⟩
    rw [← hlen, if_neg hbadLen]
    refine readField_doesIff.bind ?_
    rintro _ t' ⟨rfl, ht'⟩
    rw [ht, ← hoff, if_neg hbadOff]
    refine readFlag_doesIff.bind ?_
    rintro _ t'' ⟨rfl, ht''⟩
    refine DoesIff.pure ⟨?_, ht''.trans (ht'.trans ht)⟩
    rw [ht', ht, decide_eq_true_iff]
    refine ⟨fun h => ⟨by omega, by omega, by omega, ?_⟩, fun h => ?_⟩
    · rw [hflag]
      exact decide_eq_false h
    · have hundealt := h.2.2.2
      rw [hflag] at hundealt
      exact of_decide_eq_false hundealt

/-- Only the page is written: it holds `q`. -/
def Paged (s : State Area) (q : Mem) (t : State Area) : Prop :=
  t.mem = Function.update s.mem .rootQ q

lemma Paged.rootQ {t : State Area} (h : Paged s q t) : t.mem .rootQ = q := by
  rw [h, Function.update_self]

lemma Paged.data {t : State Area} (h : Paged s q t) : t.mem .data = s.mem .data := by
  rw [h, Function.update_of_ne (by decide)]

lemma Paged.trans {t t' : State Area} (h : Paged s q t) (h' : Paged t q' t') : Paged s q' t' := by
  rw [Paged, h', h, Function.update_idem]

lemma writeFlag_doesIff :
    DoesIff Inside (InPage i 0 2) s (writeBlock .rootQ (entryAddr i) (toLE 2 v)) fun _ t =>
      Paged s (writeFlag (s.mem .rootQ) i v) t :=
  DoesIff.writeBlock.congr (by rw [length_toLE]; exact Iff.rfl)

lemma setDealState_doesIff :
    DoesIff Inside (InPage i 0 2) s (setDealState (entryAddr i)) fun _ t =>
      Paged s (writeFlag (s.mem .rootQ) i
        (readLE (s.mem .rootQ) (entryAddr i) 2 / 2 * 2 + 1)) t := by
  refine DoesIff.congr (readFlag_doesIff.bind ?_) (and_self _).to_iff
  rintro _ t ⟨rfl, ht⟩
  refine writeFlag_doesIff.mono fun _ t' ht' => ?_
  rw [Paged, ht', ht]

lemma setServiceResult_doesIff {result : ServiceResult} :
    DoesIff Inside (InPage i 0 2) s (setServiceResult (entryAddr i) result) fun _ t =>
      Paged s (writeFlag (s.mem .rootQ) i (readLE (s.mem .rootQ) (entryAddr i) 2 / 8 * 8 +
        result.code * 2 + readLE (s.mem .rootQ) (entryAddr i) 2 % 2)) t := by
  refine DoesIff.congr (readFlag_doesIff.bind ?_) (and_self _).to_iff
  rintro _ t ⟨rfl, ht⟩
  refine writeFlag_doesIff.mono fun _ t' ht' => ?_
  rw [Paged, ht', ht]

/-- The page after a message is marked as dealt with, with its result. -/
def markPage (q : Mem) (i : ℕ) (result : ServiceResult) : Mem :=
  let dealt := writeFlag q i (readLE q (entryAddr i) 2 / 2 * 2 + 1)
  writeFlag dealt i (readLE dealt (entryAddr i) 2 / 8 * 8 + result.code * 2 +
    readLE dealt (entryAddr i) 2 % 2)

lemma queueAt_markPage {result : ServiceResult} : queueAt (markPage q i result) = queueAt q := by
  rw [markPage, queueAt_writeFlag, queueAt_writeFlag]

/-- The flag says what was assigned to its two members. -/
lemma msgEntryAt_markPage {result : ServiceResult} :
    msgEntryAt (markPage q i result) = Function.update (msgEntryAt q) i
      { msgEntryAt q i with
        msg := { (msgEntryAt q i).msg with dealState := true, serviceResult := result } } := by
  have hflag : readLE q (entryAddr i) 2 < 65536 := readLE_lt q (entryAddr i) 2
  have hcode := result.code_lt
  have hread : readLE (writeFlag q i (readLE q (entryAddr i) 2 / 2 * 2 + 1)) (entryAddr i) 2 =
      readLE q (entryAddr i) 2 / 2 * 2 + 1 := by
    rw [writeFlag, readLE_writeLE]
    exact Nat.mod_eq_of_lt (by omega)
  rw [markPage, hread, msgEntryAt_writeFlag (by omega), msgEntryAt_writeFlag (by omega),
    Function.update_idem, Function.update_self]
  congr 1
  set flag := readLE q (entryAddr i) 2
  have hdeal : ((flag / 2 * 2 + 1) / 8 * 8 + result.code * 2 + (flag / 2 * 2 + 1) % 2) % 2 = 1 := by
    omega
  have hresult : ((flag / 2 * 2 + 1) / 8 * 8 + result.code * 2 + (flag / 2 * 2 + 1) % 2) / 2 % 4 =
      result.code := by
    omega
  rw [withFlag, withFlag, hresult, ServiceResult.ofCode_code, decide_eq_true hdeal]

lemma setHead_doesIff :
    DoesIff Inside True s (setHead v) fun _ t => Paged s (writeHead (s.mem .rootQ) v) t := by
  rw [setHead]
  refine ((writeHeader_doesIff (by omega)).bind ?_).congr (and_iff_left trivial)
  rintro _ t (ht : Paged s _ t)
  refine ((writeHeader_doesIff (by omega)).bind ?_).congr (and_iff_left trivial)
  rintro _ t' (ht' : Paged t _ t')
  have hpaged := ht.trans ht'
  rw [ht.rootQ] at hpaged
  refine DoesIff.congr (DoesIff.emit.mono ?_) Iff.rfl
  rintro _ t'' rfl
  exact hpaged

lemma leaveEntry_doesIff {offset : ℕ} :
    DoesIff Inside (InPage i 8 4) s (leaveEntry v (entryAddr i) offset) fun r t =>
      r = .ended 0 true ∧ Paged s (writeHead (s.mem .rootQ) v) t := by
  rw [leaveEntry]
  refine (setHead_doesIff.bind ?_).congr (and_iff_right trivial)
  intro _ t ht
  refine (readField_doesIff.bind ?_).congr (and_iff_left trivial)
  rintro length t' ⟨-, ht'⟩
  refine DoesIff.congr (DoesIff.emit.bind ?_) (and_self True).to_iff
  rintro _ t'' rfl
  refine DoesIff.pure ⟨rfl, ?_⟩
  rw [Paged, ht', ht]

/-- **The head moves on**, without a remainder by zero: the size is above the head. -/
lemma moveOn_doesIff {offset : ℕ} (hi : i = (queueAt (s.mem .rootQ)).procIngH.toNat)
    (hlt : (queueAt (s.mem .rootQ)).procIngH < (queueAt (s.mem .rootQ)).bufSize) :
    DoesIff Inside (i < 255) s (moveOn i (entryAddr i) offset) fun r t =>
      r = .ended 0 true ∧ Paged s (writeHead (s.mem .rootQ)
        (newHead (queueAt (s.mem .rootQ)) (msgEntryAt (s.mem .rootQ) i)).toNat) t := by
  have hsize : (queueAt (s.mem .rootQ)).bufSize.toNat = readLE (s.mem .rootQ) 4 2 :=
    toNat_readU16 _ _
  have hnxt : (msgEntryAt (s.mem .rootQ) i).nxtIdx.toNat =
      readLE (s.mem .rootQ) (entryAddr i + 12) 2 := toNat_readU16 _ _
  have hpos : i < (queueAt (s.mem .rootQ)).bufSize.toNat := by
    rw [hi]
    exact UInt16.lt_iff_toNat_lt.mp hlt
  have hleave : ∀ {t : State Area} {newHead : ℕ}, Same s t →
      DoesIff Inside (InPage i 8 4) t (leaveEntry newHead (entryAddr i) offset) fun r t' =>
        r = .ended 0 true ∧ Paged s (writeHead (s.mem .rootQ) newHead) t' := by
    intro t newHead ht
    refine leaveEntry_doesIff.mono fun r t' h => ⟨h.1, ?_⟩
    rw [Paged, h.2, ht]
  have hpage : InPage i 12 2 ∧ True ∧ InPage i 8 4 ↔ i < 255 := by
    rw [true_and, inPage_length]
    exact and_iff_right_of_imp fun h => inPage_of_lt h (by omega)
  rw [moveOn, newHead]
  by_cases hlink : (msgEntryAt (s.mem .rootQ) i).nxtIdx < (queueAt (s.mem .rootQ)).bufSize
  · have hlink' := UInt16.lt_iff_toNat_lt.mp hlink
    refine (readField_doesIff.bind ?_).congr hpage
    rintro _ t ⟨rfl, ht⟩
    refine (readHeader_doesIff (by omega)).bind ?_
    rintro _ t' ⟨rfl, ht'⟩
    rw [if_pos hlink, ht, ← hsize, ← hnxt, if_pos hlink']
    exact hleave (ht'.trans ht)
  · have hlink' := mt UInt16.lt_iff_toNat_lt.mpr hlink
    have hmod : ((queueAt (s.mem .rootQ)).procIngH.toNat + 1) %
        (queueAt (s.mem .rootQ)).bufSize.toNat < 65536 :=
      (Nat.mod_lt _ (by omega)).trans_le (UInt16.toNat_lt _).le
    refine (readField_doesIff.bind ?_).congr
      ((and_congr_right' (and_congr_right' (and_iff_right trivial))).trans hpage)
    rintro _ t ⟨rfl, ht⟩
    refine (readHeader_doesIff (by omega)).bind ?_
    rintro _ t' ⟨rfl, ht'⟩
    rw [if_neg hlink, ht, ← hsize, ← hnxt, if_neg hlink']
    refine (readHeader_doesIff (by omega)).bind ?_
    rintro _ t'' ⟨rfl, ht''⟩
    rw [ht', ht, ← hsize, if_neg (by omega), UInt16.toNat_ofNat_of_lt' hmod, ← hi]
    exact hleave (ht''.trans (ht'.trans ht))

/-! ### The round -/

variable {msg : Msg}

/-- What a message that is served leaves: the data region and the page. -/
def Executed (s : State Area) (i : ℕ) (msg : Msg) (r : Round) (t : State Area) : Prop :=
  r = .ended 0 true ∧ t.mem .data = (dispatchService msg (s.mem .data)).2 ∧
    t.mem .rootQ = writeHead (markPage (s.mem .rootQ) i (dispatchService msg (s.mem .data)).1)
      (newHead (queueAt (s.mem .rootQ)) (msgEntryAt (s.mem .rootQ) i)).toNat

lemma executeService_doesIff (hoffset : msg.offset.toNat < shmSizeData)
    (hi : i = (queueAt (s.mem .rootQ)).procIngH.toNat)
    (hlt : (queueAt (s.mem .rootQ)).procIngH < (queueAt (s.mem .rootQ)).bufSize) :
    DoesIff Inside (i < 255 ∧ (10 ≤ msg.serviceId ∧ msg.serviceId ≤ 13 →
        HexInside (s.mem .data) msg.offset.toNat msg.length.toNat)) s
      (executeService i (entryAddr i) msg.serviceId.toNat msg.offset.toNat msg.length.toNat)
      (Executed s i msg) := by
  have hparts : ∀ {p : Prop}, (p ∧ True ∧ InPage i 0 2 ∧ InPage i 0 2 ∧ i < 255) ↔ i < 255 ∧ p := by
    intro p
    refine ⟨fun h => ⟨h.2.2.2.2, h.1⟩, fun h => ?_⟩
    exact ⟨h.2, trivial, inPage_of_lt h.1 (by omega), inPage_of_lt h.1 (by omega), h.1⟩
  rw [executeService]
  refine ((serviceBytes_doesIff hoffset).bind ?_).congr hparts
  rintro served t ⟨hserved, hq, hfits⟩
  refine (showResult_doesIff hfits).bind ?_
  intro _ t₁ h₁
  refine setDealState_doesIff.bind ?_
  intro _ t₂ h₂
  refine setServiceResult_doesIff.bind ?_
  intro _ t₃ h₃
  have hpage : t₃.mem .rootQ = markPage (s.mem .rootQ) i served.1 := by
    rw [h₃.rootQ, h₂.rootQ, h₁, hq]
    rfl
  have hdata : t₃.mem .data = t.mem .data := by
    rw [h₃.data, h₂.data, h₁]
  have hqueue : queueAt (t₃.mem .rootQ) = queueAt (s.mem .rootQ) := by
    rw [hpage, queueAt_markPage]
  have hhead : newHead (queueAt (t₃.mem .rootQ)) (msgEntryAt (t₃.mem .rootQ) i) =
      newHead (queueAt (s.mem .rootQ)) (msgEntryAt (s.mem .rootQ) i) := by
    rw [hqueue, hpage, msgEntryAt_markPage, Function.update_self]
    rfl
  refine (moveOn_doesIff (by rw [hqueue, hi]) (by rw [hqueue]; exact hlt)).mono ?_
  rintro r u ⟨rfl, hu⟩
  rw [hhead] at hu
  refine ⟨rfl, ?_, ?_⟩
  · rw [hu.data, hdata, ← hserved]
  · rw [hu.rootQ, hpage, ← hserved]

/-- **A message is served.** -/
lemma serveBytes_doesIff (hmsg : msg = (msgEntryAt (s.mem .rootQ) i).msg)
    (haccepted : msg.Accepted) (hi : i = (queueAt (s.mem .rootQ)).procIngH.toNat)
    (hlt : (queueAt (s.mem .rootQ)).procIngH < (queueAt (s.mem .rootQ)).bufSize) :
    DoesIff Inside (i < 255 ∧ DataInside (s.mem .data) msg) s (serveBytes i (entryAddr i))
      (Executed s i msg) := by
  have hlen : msg.length.toNat = readLE (s.mem .rootQ) (entryAddr i + 8) 4 := by
    rw [hmsg]
    exact toNat_ofNat_readLE _ _
  have hoff : msg.offset.toNat = readLE (s.mem .rootQ) (entryAddr i + 4) 4 := by
    rw [hmsg]
    exact toNat_ofNat_readLE _ _
  have hid : msg.serviceId.toNat = readLE (s.mem .rootQ) (entryAddr i + 2) 2 := by
    rw [hmsg]
    exact toNat_readU16 _ _
  obtain ⟨-, -, hoffset, -⟩ := haccepted
  have hparts : ∀ {p p' r : Prop}, (InPage i 4 4 ∧ InPage i 8 4 ∧ (p ∧ p') ∧ InPage i 2 2 ∧
      i < 255 ∧ r) ↔ i < 255 ∧ p ∧ p' ∧ r := by
    intro p p' r
    refine ⟨fun ⟨_, _, ⟨h, h'⟩, _, hlast, h''⟩ => ⟨hlast, h, h', h''⟩, ?_⟩
    rintro ⟨hlast, h, h', h''⟩
    exact ⟨inPage_of_lt hlast (by omega), inPage_of_lt hlast (by omega), ⟨h, h'⟩,
      inPage_of_lt hlast (by omega), hlast, h''⟩
  rw [serveBytes]
  refine DoesIff.congr (readField_doesIff.bind ?_) hparts
  rintro _ t ⟨rfl, ht⟩
  refine readField_doesIff.bind ?_
  rintro _ t₁ ⟨rfl, h₁⟩
  have hsame₁ : t₁.mem = s.mem := h₁.trans ht
  rw [ht, ← hlen, ← hoff, ← hsame₁]
  refine showData_doesIff.bind ?_
  intro _ t₂ h₂
  refine readField_doesIff.bind ?_
  rintro _ t₃ ⟨rfl, h₃⟩
  have hsame₂ : t₂.mem = s.mem := Eq.trans h₂ hsame₁
  have hsame₃ : t₃.mem = s.mem := Eq.trans h₃ hsame₂
  rw [hsame₂, ← hid, hsame₁, ← hsame₃]
  rw [← hsame₃] at hi hlt
  refine (executeService_doesIff hoffset hi hlt).mono fun r u hu => ?_
  rwa [Executed, hsame₃] at hu

lemma skipBytes_doesIff {count : ℕ} :
    DoesIff Inside True s (skipBytes count) fun r t =>
      r = .ended (if 32 ≤ count + 1 then 0 else count + 1) false ∧
        Paged s (if 32 ≤ count + 1 then writeHead (s.mem .rootQ) 0 else s.mem .rootQ) t := by
  by_cases hmany : 32 ≤ count + 1
  · rw [skipBytes, if_pos hmany, if_pos hmany, if_pos hmany]
    refine (setHead_doesIff.bind ?_).congr (and_iff_left trivial)
    exact fun _ t ht => DoesIff.pure ⟨rfl, ht⟩
  · rw [skipBytes, if_neg hmany, if_neg hmany, if_neg hmany]
    exact DoesIff.pure ⟨rfl, (Function.update_eq_self _ _).symm⟩

/-- The memory holds the queue, the entries and the data of a state. -/
structure Shows (mem : Area → Mem) (p : PollState) : Prop where
  queue : queueAt (mem .rootQ) = p.queue
  entries : msgEntryAt (mem .rootQ) = p.entries
  data : mem .data = p.data

variable {p : PollState} {t : State Area} {r : Round}

/-- A message that is served is the one that `serveEntry` serves. -/
lemma Executed.shows (h : Executed s p.queue.procIngH.toNat
    (p.entries p.queue.procIngH.toNat).msg r t) (hs : Shows s.mem p) :
    Shows t.mem (serveEntry p) := by
  obtain ⟨-, hdata, hq⟩ := h
  rw [hs.data] at hdata
  rw [hs.data, hs.queue, hs.entries] at hq
  refine ⟨?_, ?_, hdata⟩
  · rw [hq, queueAt_writeHead, queueAt_markPage, hs.queue, UInt16.ofNat_toNat]
    rfl
  · rw [hq, msgEntryAt_writeHead, msgEntryAt_markPage, hs.entries]
    rfl

lemma consecutiveInvalidCount_skipEntry :
    (skipEntry p).consecutiveInvalidCount =
      if 32 ≤ p.consecutiveInvalidCount + 1 then 0 else p.consecutiveInvalidCount + 1 := by
  rw [skipEntry]
  split_ifs <;> rfl

/-- An entry that is skipped is the one that `skipEntry` skips. -/
lemma Shows.skip (hs : Shows s.mem p)
    (h : Paged s (if 32 ≤ p.consecutiveInvalidCount + 1 then writeHead (s.mem .rootQ) 0
      else s.mem .rootQ) t) : Shows t.mem (skipEntry p) := by
  rw [skipEntry]
  by_cases hmany : 32 ≤ p.consecutiveInvalidCount + 1
  · rw [if_pos hmany] at h ⊢
    refine ⟨?_, ?_, h.data.trans hs.data⟩
    · rw [h.rootQ, queueAt_writeHead, hs.queue]
      rfl
    · rw [h.rootQ, msgEntryAt_writeHead, hs.entries]
  · rw [if_neg hmany] at h ⊢
    exact ⟨by rw [h.rootQ, hs.queue], by rw [h.rootQ, hs.entries], h.data.trans hs.data⟩

/-- What a round does: to queue, entries and data what `pollOnce` does, and it ends without a
remainder by zero. -/
def Polled (p : PollState) (r : Round) (t : State Area) : Prop :=
  (∃ found, r = .ended (pollOnce p).consecutiveInvalidCount found) ∧ Shows t.mem (pollOnce p)

lemma pollOnce_of_lt (hlt : p.queue.procIngH < p.queue.bufSize) :
    pollOnce p =
      if (p.entries p.queue.procIngH.toNat).msg.Accepted then serveEntry p else skipEntry p :=
  if_pos hlt

lemma handleEntry_doesIff (hs : Shows s.mem p) (hlt : p.queue.procIngH < p.queue.bufSize) :
    DoesIff Inside (p.queue.procIngH.toNat < 255 ∧
        ((p.entries p.queue.procIngH.toNat).msg.Accepted →
          DataInside p.data (p.entries p.queue.procIngH.toNat).msg)) s
      (handleEntry p.consecutiveInvalidCount p.queue.procIngH.toNat) (Polled p) := by
  have hmsg : (p.entries p.queue.procIngH.toNat).msg =
      (msgEntryAt (s.mem .rootQ) p.queue.procIngH.toNat).msg := by
    rw [hs.entries]
  rw [handleEntry]
  by_cases haccepted : (p.entries p.queue.procIngH.toNat).msg.Accepted
  · have hparts : (p.queue.procIngH.toNat < 255 ∧ p.queue.procIngH.toNat < 255 ∧
        DataInside p.data (p.entries p.queue.procIngH.toNat).msg) ↔
          p.queue.procIngH.toNat < 255 ∧ ((p.entries p.queue.procIngH.toNat).msg.Accepted →
            DataInside p.data (p.entries p.queue.procIngH.toNat).msg) := by
      rw [← and_assoc, and_self, imp_iff_right haccepted]
    refine (acceptedBytes_doesIff.bind ?_).congr hparts
    rintro ok t ⟨hok, ht⟩
    rw [← ht] at hs hmsg
    rw [if_pos (hok.mpr (by rw [← ht, ← hmsg]; exact haccepted)), ← hs.data]
    refine (serveBytes_doesIff hmsg haccepted (by rw [hs.queue])
      (by rw [hs.queue]; exact hlt)).mono fun r u hu => ⟨⟨true, ?_⟩, ?_⟩
    · rw [pollOnce_of_lt hlt, if_pos haccepted]
      exact hu.1
    · rw [pollOnce_of_lt hlt, if_pos haccepted]
      exact hu.shows hs
  · have hparts : (p.queue.procIngH.toNat < 255 ∧ True) ↔
        p.queue.procIngH.toNat < 255 ∧ ((p.entries p.queue.procIngH.toNat).msg.Accepted →
          DataInside p.data (p.entries p.queue.procIngH.toNat).msg) :=
      and_congr_right' (iff_of_true trivial fun h => absurd h haccepted)
    refine (acceptedBytes_doesIff.bind ?_).congr hparts
    rintro ok t ⟨hok, ht⟩
    rw [← hmsg] at hok
    rw [← ht] at hs
    rw [if_neg (mt hok.mp haccepted)]
    refine skipBytes_doesIff.mono fun r u hu => ?_
    rw [Polled, pollOnce_of_lt hlt, if_neg haccepted, consecutiveInvalidCount_skipEntry]
    exact ⟨⟨false, hu.1⟩, hs.skip hu.2⟩

/-- **The round.** It touches bytes of the areas only exactly under the condition, ends without a
remainder by zero, and does to queue, entries and data what `pollOnce` does. -/
lemma pollBytes_doesIff (hs : Shows s.mem p) :
    DoesIff Inside (PollInside s.mem) s (pollBytes p.consecutiveInvalidCount) (Polled p) := by
  have hsize : p.queue.bufSize.toNat = readLE (s.mem .rootQ) 4 2 := by
    rw [← hs.queue]
    exact toNat_readU16 _ _
  have hcurrent : p.queue.procIngH.toNat = readLE (s.mem .rootQ) 10 2 := by
    rw [← hs.queue]
    exact toNat_readU16 _ _
  rw [pollBytes]
  refine ((readHeader_doesIff (by omega)).bind ?_).congr (and_iff_right trivial)
  rintro _ t ⟨rfl, ht⟩
  refine DoesIff.congr (DoesIff.emit.bind ?_) (and_iff_right trivial)
  rintro _ t₁ rfl
  refine ((readHeader_doesIff (by omega)).bind ?_).congr (and_iff_right trivial)
  rintro _ t₂ ⟨rfl, h₂⟩
  refine ((readHeader_doesIff (by omega)).bind ?_).congr (and_iff_right trivial)
  rintro _ t₃ ⟨rfl, h₃⟩
  have hsame₂ : t₂.mem = s.mem := Eq.trans h₂ ht
  have hsame₃ : t₃.mem = s.mem := Eq.trans h₃ hsame₂
  rw [hsame₂, ht, ← hsize, ← hcurrent, PollInside]
  rw [hs.queue, hs.entries, hs.data]
  rw [← hsame₃] at hs
  by_cases hlt : p.queue.procIngH < p.queue.bufSize
  · rw [if_pos (UInt16.lt_iff_toNat_lt.mp hlt), imp_iff_right hlt]
    exact handleEntry_doesIff hs hlt
  · rw [if_neg (mt UInt16.lt_iff_toNat_lt.mpr hlt)]
    refine DoesIff.congr (DoesIff.pure ?_) (iff_of_true trivial fun h => absurd h hlt)
    rw [Polled, pollOnce, if_neg hlt]
    exact ⟨⟨false, rfl⟩, hs⟩

/-- The round on bytes does what the round of the polling server does, and ends: there is no
remainder by zero. -/
theorem pollBytes_refines (hs : Shows s.mem p) :
    Polled p (pollBytes p.consecutiveInvalidCount s).1 (pollBytes p.consecutiveInvalidCount s).2 :=
  (pollBytes_doesIff hs).2

end Page

/-! ### Safety -/

/-- What a round promises: it reads and writes bytes of the page, of the data region and of the
local buffer only, and computes no remainder by zero. -/
def RoundSafe (mem : Area → Mem) (consecutiveInvalidCount : ℕ) : Prop :=
  (∀ e ∈ (pollBytes consecutiveInvalidCount ⟨mem, []⟩).2.log, Inside e) ∧
    (pollBytes consecutiveInvalidCount ⟨mem, []⟩).1 ≠ .remainderByZero

/-- A state that the memory shows. -/
def shownBy (mem : Area → Mem) (consecutiveInvalidCount : ℕ) : PollState where
  queue := queueAt (mem .rootQ)
  sel4Queue := queueAt (mem .rootQ)
  entries := msgEntryAt (mem .rootQ)
  data := mem .data
  consecutiveInvalidCount := consecutiveInvalidCount
  messageCount := 0
  processed := []
  next := 0
  posted := []

lemma roundSafe_iff (mem : Area → Mem) (count : ℕ) : RoundSafe mem count ↔ PollInside mem := by
  have hround : DoesIff Inside (PollInside mem) ⟨mem, []⟩ (pollBytes count)
      (Polled (shownBy mem count)) :=
    pollBytes_doesIff (p := shownBy mem count) (s := ⟨mem, []⟩) ⟨rfl, rfl, rfl⟩
  rw [RoundSafe, hround.log_allowed_iff rfl]
  refine and_iff_left ?_
  obtain ⟨found, hended⟩ := hround.2.1
  rw [hended]
  exact nofun

/-- **When a round stays inside**, for every content of the areas: exactly if the head is not
below the size of the queue, or it designates one of the 255 entries of the page, and what is
looked at of a message that is accepted lies in the data region. -/
theorem poll_safe_iff (mem : Area → Mem) (count : ℕ) : RoundSafe mem count ↔ PollInside mem :=
  roundSafe_iff mem count

/-- A queue of 16 entries, with a message of two bytes at the last byte of the data region in the
first. -/
def lastByteQueue : Mem :=
  store (fun _ => 0) 0 [0xBB, 0xBB, 0xBB, 0xBB, 16, 0, 0, 0, 0, 0, 0, 0,
    0, 0, 66, 0, 0xFF, 0xFF, 0x3F, 0x00, 2, 0, 0, 0, 1, 0]

/-- The page holds that queue; all else is zero. -/
def lastByteAreas (area : Area) : Mem := if area = .rootQ then lastByteQueue else fun _ => 0

/-- The second byte of the message, which is shown, lies behind the data region. -/
theorem poll_shows_outside : ¬ RoundSafe lastByteAreas 0 := by
  rw [roundSafe_iff]
  intro hinside
  obtain ⟨-, hdata⟩ := hinside (by decide +kernel)
  obtain ⟨htext, -, -⟩ := hdata (by decide +kernel)
  have hreached : ∀ j < 1, ¬ EndsText (lastByteAreas .data)
      (msgEntryAt (lastByteAreas .rootQ)
        (queueAt (lastByteAreas .rootQ)).procIngH.toNat).msg.offset.toNat false j := by
    intro j hj
    obtain rfl : j = 0 := by omega
    rw [endsText_zero]
    exact fun h => Bool.false_ne_true h.2
  exact absurd (htext 1 (by decide +kernel) hreached) (by decide +kernel)

end HelloWorld
