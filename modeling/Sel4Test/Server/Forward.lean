import Sel4Test.Lib.Framing
import Sel4Test.Frontend.Streams

/-!
Bulk forwarding, `hyperamp-server/src/channel_ch0.c` and `channel_ch1.c`.

`ch0_try_forward_bulk_to_ch1` cuts a record into chunks of 4096 bytes. The first
chunk goes through `ch1_send_with_header`, which sends a `ForwardHeader` before
it, the others through `ch1_forward_bulk_raw_data`. Each `frontend_sess_send`
may take the bytes whole, a short count of them, none, or fail; what it does,
and what state the bulk session is in, is an input of the model (`Env`);
`frontendSessSend_answer` ties the answers to the engine, and what is queued to the
stream of the session. Between two chunks the engine runs once, so the
session may be another one by then; the chunk loop has no result while it has
answers left to wait for.

* `forwardRest_spec` is what the loop over the later chunks appends, and
  `forward_allOrNothing_iff` when one request is all or nothing;
* `forwardAll_streamOk_iff` is the same for a sequence of requests and the
  stream they leave: it parses back into the records reported as forwarded if
  and only if each request found the session unready, or was taken whole, or
  failed before a byte of it was taken;
* `forwardAll_header_lost` is a request for which it is not so: the count that
  `frontend_sess_send` returns for the header and the first chunk is only
  compared with zero.
-/

namespace Server

open ByteMem Hyperamp Frontend

/-! ### The forward header -/

/-- `FORWARD_HEADER_MAGIC`. -/
def forwardHeaderMagic : UInt32 := 0x48465744

/-- `ForwardHeader`, a packed structure of 12 bytes. -/
structure ForwardHeader where
  magic : UInt32
  serviceId : UInt8
  isBulk : UInt8
  reserved : UInt16
  totalLen : UInt32
  deriving DecidableEq, Repr

namespace ForwardHeader

/-- The bytes of the header in memory. -/
def bytes (h : ForwardHeader) : List UInt8 :=
  toLE 4 h.magic.toNat ++ [h.serviceId, h.isBulk] ++ toLE 2 h.reserved.toNat ++
    toLE 4 h.totalLen.toNat

/-- The format `<IBBHI` of the receiver, off the front of a stream. -/
def unpack : List UInt8 → Option (ForwardHeader × List UInt8)
  | m0 :: m1 :: m2 :: m3 :: service :: bulk :: r0 :: r1 :: t0 :: t1 :: t2 :: t3 :: rest =>
      some (⟨UInt32.ofNat (ofLE [m0, m1, m2, m3]), service, bulk,
        UInt16.ofNat (ofLE [r0, r1]), UInt32.ofNat (ofLE [t0, t1, t2, t3])⟩, rest)
  | _ => none

@[simp] lemma length_bytes (h : ForwardHeader) : h.bytes.length = 12 := by
  simp [bytes]

lemma bytes_ne_nil (h : ForwardHeader) : h.bytes ≠ [] :=
  List.ne_nil_of_length_pos (by simp)

lemma unpack_bytes (h : ForwardHeader) (rest : List UInt8) :
    unpack (h.bytes ++ rest) = some (h, rest) := by
  calc unpack (h.bytes ++ rest)
      = some (⟨UInt32.ofNat (ofLE (toLE 4 h.magic.toNat)), h.serviceId, h.isBulk,
          UInt16.ofNat (ofLE (toLE 2 h.reserved.toNat)),
          UInt32.ofNat (ofLE (toLE 4 h.totalLen.toNat))⟩, rest) := rfl
    _ = some (h, rest) := by rw [ofLE_toLE_u32, ofLE_toLE_u16, ofLE_toLE_u32]

/-- A header that was read took 12 bytes. -/
lemma length_of_unpack {bs rest : List UInt8} {h : ForwardHeader}
    (hread : unpack bs = some (h, rest)) : bs.length = 12 + rest.length := by
  unfold unpack at hread
  split at hread
  · simp only [Option.some.injEq, Prod.mk.injEq] at hread
    rw [← hread.2]
    simp only [List.length_cons]
    omega
  · cases hread

end ForwardHeader

/-! ### Records and the stream of a receiver -/

/-- A bulk record: its service and its bytes, of which a descriptor gives the
number as a `uint32_t`. -/
structure Record where
  serviceId : UInt8
  data : List UInt8
  length_lt : data.length < 2 ^ 32

namespace Record

/-- The header that announces a record. -/
def header (r : Record) : ForwardHeader :=
  ⟨forwardHeaderMagic, r.serviceId, 1, 0, UInt32.ofNat r.data.length⟩

/-- One `ForwardHeader` with the type and length of the record, and its bytes. -/
def encode (r : Record) : List UInt8 := r.header.bytes ++ r.data

@[simp] lemma totalLen_header (r : Record) : r.header.totalLen.toNat = r.data.length := by
  rw [header, UInt32.toNat_ofNat', Nat.mod_eq_of_lt r.length_lt]

lemma length_encode (r : Record) : r.encode.length = 12 + r.data.length := by
  simp [encode]

end Record

/-- The first record of a stream, as `tools/receiver.py` reads it: a header with
the right magic, and as many bytes as it announces. -/
def receive (bs : List UInt8) : Option (Record × List UInt8) :=
  match ForwardHeader.unpack bs with
  | none => none
  | some (h, rest) =>
      if hlen : h.magic = forwardHeaderMagic ∧ h.totalLen.toNat ≤ rest.length then
        some (⟨h.serviceId, rest.take h.totalLen.toNat, by
          have := h.totalLen.toNat_lt
          rw [List.length_take]
          omega⟩, rest.drop h.totalLen.toNat)
      else none

lemma receive_encode : Framing.Undoes receive Record.encode := by
  intro r rest
  have hread : ForwardHeader.unpack (r.encode ++ rest) = some (r.header, r.data ++ rest) := by
    rw [Record.encode, List.append_assoc, ForwardHeader.unpack_bytes]
  have hmagic : r.header.magic = forwardHeaderMagic := rfl
  have hservice : r.header.serviceId = r.serviceId := rfl
  unfold receive
  rw [hread]
  simp [hmagic, hservice]

/-- A record that was read accounts for its bytes and those of its header. -/
lemma measures_receive : Framing.Measures receive fun r => 12 + r.data.length := by
  intro bs r rest h
  unfold receive at h
  split at h
  · cases h
  · rename_i hdr body hread
    have hlen := ForwardHeader.length_of_unpack hread
    split_ifs at h with hfits
    simp only [Option.some.injEq, Prod.mk.injEq] at h
    obtain ⟨rfl, rfl⟩ := h
    simp only [List.length_take, List.length_drop]
    omega

lemma encode_ne_nil (r : Record) : r.encode ≠ [] := by
  apply List.ne_nil_of_length_pos
  rw [Record.length_encode]
  omega

/-! ### Forwarding a record -/

/-- What a call of `frontend_sess_send` does: it fails, or takes at most `n` bytes. -/
inductive SendAns
  | error
  | took (n : ℕ)
  deriving DecidableEq, Repr

/-- `frontend_sess_send`: its return value and the bytes it queues. -/
def sessSend (ans : SendAns) (data : List UInt8) : ℤ × List UInt8 :=
  match ans with
  | .error => (-1, [])
  | .took n => ((data.take n).length, data.take n)

/-- **The answers are those of the engine**: every call of `frontend_sess_send` has one of them as
its result, and what enters the stream of the session are the bytes that `sessSend` queues. -/
lemma frontendSessSend_answer {data : List UInt8} {alloc : ℕ → Bool} {p : SessPtr}
    {c c' : Core} {ret : ℤ} (h : frontendSessSend data alloc p c = some (ret, c')) :
    ∃ ans, (sessSend ans data).1 = ret ∧
      entered .f2b p c'.log = entered .f2b p c.log ++ (sessSend ans data).2 := by
  unfold frontendSessSend at h
  split_ifs at h with hdata
  · obtain ⟨rfl, rfl⟩ := Prod.mk.inj (Option.some.inj h)
    exact ⟨.error, rfl, (List.append_nil _).symm⟩
  · obtain ⟨sess, hsess, h⟩ := Option.bind_eq_some_iff.mp h
    obtain ⟨queued, hmsg, h⟩ := Option.bind_eq_some_iff.mp h
    simp only [Option.pure_def, Option.some.injEq, Prod.mk.injEq] at h
    obtain ⟨rfl, hcore⟩ := h
    have hlen := (fragment_spec alloc 0 data.length data).length_le
    refine ⟨.took (segBytes (fragment alloc 0 data.length data)).length, ?_, ?_⟩
    · rw [sessSend, List.length_take, Nat.min_eq_left hlen]
    · have hlog : c'.log = [.accepted p (data.take
          (segBytes (fragment alloc 0 data.length data)).length)] ++ c.log := by
        rw [← hcore]
        split_ifs
        · rw [linkToQueue_eq]
          rfl
        · rfl
      rw [hlog, entered, entered, streamOf_own (by simp [Event.owner])]
      simp [Event.entering, sessSend]

/-- The bulk session at the time of a call: `none` for the null pointer. -/
abbrev SessView := Option FrontendSessState

/-- `ch1_is_bulk_ready`. -/
def ch1IsBulkReady (sess : SessView) : Bool :=
  match sess with
  | none => false
  | some state => state = .connected

/-- `ch1_send_with_header`: its return code and the bytes it queues. -/
def ch1SendWithHeader (sess : SessView) (header first : SendAns) (data : List UInt8)
    (serviceId isBulk : UInt8) (totalLength : UInt32) : HyperampRet × List UInt8 :=
  match sess with
  | none => (.error, [])
  | some state =>
      if state ≠ .connected then (.error, [])
      else
        let hdr : ForwardHeader := ⟨forwardHeaderMagic, serviceId, isBulk, 0, totalLength⟩
        let (ret, sent) := sessSend header hdr.bytes
        if ret < 0 then (.error, sent)
        else
          let (ret, sent') := sessSend first data
          if ret ≥ 0 then (.ok, sent ++ sent') else (.error, sent ++ sent')

/-- `ch1_forward_bulk_data`. -/
def ch1ForwardBulkData (sess : SessView) (header first : SendAns) (data : List UInt8)
    (serviceId : UInt8) (totalLength : UInt32) : HyperampRet × List UInt8 :=
  ch1SendWithHeader sess header first data serviceId 1 totalLength

/-- `ch1_forward_bulk_raw_data`. -/
def ch1ForwardBulkRawData (sess : SessView) (ans : SendAns) (data : List UInt8) :
    ℤ × List UInt8 :=
  match sess with
  | some .connected => sessSend ans data
  | _ => (-1, [])

/-- `FORWARD_CHUNK_SIZE`. -/
def forwardChunkSize : ℕ := 4096

/-- What a record meets on its way: the bulk session when it is forwarded, the
answers to its header and first chunk, and the session and answer of each later
call. -/
structure Env where
  sess : SessView
  header : SendAns
  first : SendAns
  rest : List (SessView × SendAns)
  deriving DecidableEq, Repr

/-- The loop of `ch0_try_forward_bulk_to_ch1` after the first chunk, on the bytes that
remain. It is still running when the answers end first. -/
def forwardRest : List (SessView × SendAns) → List UInt8 → Option (HyperampRet × List UInt8)
  | _, [] => some (.ok, [])
  | [], _ :: _ => none
  | (sess, ans) :: rest, b :: bs =>
      let (ret, sent) := ch1ForwardBulkRawData sess ans ((b :: bs).take forwardChunkSize)
      if ret < 0 then some (.error, sent)
      else if ret = 0 then forwardRest rest (b :: bs)
      else do
        let (code, more) ← forwardRest rest ((b :: bs).drop ret.toNat)
        return (code, sent ++ more)

/-- `ch0_try_forward_bulk_to_ch1`: its return code and the bytes appended to the
stream of the bulk session. -/
def ch0TryForwardBulkToCh1 (r : Record) (env : Env) : Option (HyperampRet × List UInt8) :=
  if !ch1IsBulkReady env.sess then some (.error, [])
  else if r.data = [] then some (.ok, [])
  else
    match ch1ForwardBulkData env.sess env.header env.first (r.data.take forwardChunkSize)
        r.serviceId (UInt32.ofNat r.data.length) with
    | (.ok, sent) => do
        let (code, more) ← forwardRest env.rest (r.data.drop forwardChunkSize)
        return (code, sent ++ more)
    | (_, sent) => some (.error, sent)

/-! ### The later chunks -/

/-- The call for a later chunk fails: the session is not ready, or its send fails. -/
def fails (a : SessView × SendAns) : Bool := a.1 ≠ some .connected || a.2 = .error

/-- The number of bytes that an answer takes off a whole chunk. -/
def counted : SessView × SendAns → ℕ
  | (_, .error) => 0
  | (_, .took n) => min n forwardChunkSize

/-- The number of bytes taken by the answers before the first that fails. -/
def takenBefore (answers : List (SessView × SendAns)) : ℕ :=
  ((answers.takeWhile fun a => !fails a).map counted).sum

lemma takenBefore_cons_of_fails {a : SessView × SendAns} {rest : List (SessView × SendAns)}
    (h : fails a = true) : takenBefore (a :: rest) = 0 := by
  simp [takenBefore, h]

lemma takenBefore_cons {a : SessView × SendAns} {rest : List (SessView × SendAns)}
    (h : fails a = false) : takenBefore (a :: rest) = counted a + takenBefore rest := by
  simp [takenBefore, h]

/-- A call that does not fail finds the session connected and takes a number of bytes. -/
lemma eq_of_not_fails {a : SessView × SendAns} (h : fails a = false) :
    ∃ n, a = (some .connected, .took n) := by
  obtain ⟨sess, ans⟩ := a
  simp only [fails, Bool.or_eq_false_iff, decide_eq_false_iff_not, not_not] at h
  obtain ⟨rfl, hans⟩ := h
  cases ans with
  | error => exact absurd rfl hans
  | took n => exact ⟨n, rfl⟩

lemma ch1ForwardBulkRawData_of_fails {a : SessView × SendAns} (h : fails a = true)
    (data : List UInt8) : ch1ForwardBulkRawData a.1 a.2 data = (-1, []) := by
  obtain ⟨sess, ans⟩ := a
  simp only [fails, Bool.or_eq_true, decide_eq_true_eq] at h
  rcases h with h | rfl
  · unfold ch1ForwardBulkRawData
    split <;> simp_all
  · unfold ch1ForwardBulkRawData
    split <;> rfl

lemma forwardRest_of_fails {a : SessView × SendAns} (h : fails a = true)
    (rest : List (SessView × SendAns)) {data : List UInt8} (hdata : data ≠ []) :
    forwardRest (a :: rest) data = some (.error, []) := by
  obtain ⟨b, bs, rfl⟩ := List.exists_cons_of_ne_nil hdata
  rw [forwardRest, ch1ForwardBulkRawData_of_fails h]
  rfl

/-- A call that takes bytes moves on by them; with none taken, the chunk is tried
again. -/
lemma forwardRest_of_took {n k : ℕ} {rest : List (SessView × SendAns)} {data : List UInt8}
    (hdata : data ≠ []) (hk : k = min n (min forwardChunkSize data.length)) :
    forwardRest ((some .connected, .took n) :: rest) data =
      (forwardRest rest (data.drop k)).map fun out => (out.1, data.take k ++ out.2) := by
  obtain ⟨b, bs, rfl⟩ := List.exists_cons_of_ne_nil hdata
  have hsent : ((b :: bs).take forwardChunkSize).take n = (b :: bs).take k := by
    rw [List.take_take, hk, List.take_eq_take_iff]
    omega
  have hret : ((b :: bs).take k).length = k := by
    rw [List.length_take]
    omega
  rw [forwardRest, ch1ForwardBulkRawData, sessSend, hsent, hret]
  rcases Nat.eq_zero_or_pos k with rfl | hpos
  · simp
  · have hneg : ¬ ((k : ℤ) < 0) := by omega
    have hzero : ¬ ((k : ℤ) = 0) := by omega
    simp only [if_neg hneg, if_neg hzero, Int.toNat_natCast]
    cases forwardRest rest ((b :: bs).drop k) <;> rfl

/-- **The loop over the later chunks** forwards them all, or stops at the first answer
that fails, with the bytes taken by then appended. -/
lemma forwardRest_spec {rest : List (SessView × SendAns)} {data sent : List UInt8}
    {code : HyperampRet} (h : forwardRest rest data = some (code, sent)) :
    (code = .ok ∧ sent = data ∧ (rest.any fails = true → data.length ≤ takenBefore rest)) ∨
      (code = .error ∧ rest.any fails = true ∧ takenBefore rest < data.length ∧
        sent = data.take (takenBefore rest)) := by
  rcases eq_or_ne data [] with rfl | hdata
  · simp only [forwardRest, Option.some.injEq, Prod.mk.injEq] at h
    exact .inl ⟨h.1.symm, h.2.symm, by simp⟩
  -- on the answers: the first that fails ends the loop, and each other takes its piece
  induction rest generalizing data code sent with
  | nil =>
      obtain ⟨b, bs, rfl⟩ := List.exists_cons_of_ne_nil hdata
      cases h
  | cons a rest ih =>
      have hpos : 0 < data.length := List.length_pos_of_ne_nil hdata
      cases hfail : fails a with
      | true =>
          rw [forwardRest_of_fails hfail rest hdata] at h
          simp only [Option.some.injEq, Prod.mk.injEq] at h
          rw [takenBefore_cons_of_fails hfail]
          exact .inr ⟨h.1.symm, by simp [hfail], hpos, by rw [← h.2, List.take_zero]⟩
      | false =>
          obtain ⟨n, rfl⟩ := eq_of_not_fails hfail
          have hany : ((some .connected, .took n) :: rest).any fails = rest.any fails := by
            simp [hfail]
          have hcount : counted (some .connected, .took n) = min n forwardChunkSize := rfl
          rw [takenBefore_cons hfail, hany, hcount]
          rw [forwardRest_of_took hdata rfl] at h
          set k := min n (min forwardChunkSize data.length) with hk
          obtain ⟨⟨code', more⟩, hrest, hout⟩ := Option.map_eq_some_iff.mp h
          simp only [Prod.mk.injEq] at hout
          obtain ⟨rfl, rfl⟩ := hout
          rcases eq_or_ne (data.drop k) [] with hnil | hmore
          · rw [hnil] at hrest
            simp only [forwardRest, Option.some.injEq, Prod.mk.injEq] at hrest
            obtain ⟨rfl, rfl⟩ := hrest
            have hall : data.length ≤ k := List.drop_eq_nil_iff.mp hnil
            refine .inl ⟨rfl, ?_, fun _ => by omega⟩
            rw [List.append_nil, List.take_of_length_le hall]
          · have hk' : k < data.length := by
              by_contra hle
              exact hmore (List.drop_eq_nil_of_le (by omega))
            have hmin : min n forwardChunkSize = k := by omega
            rw [hmin]
            rcases ih hrest hmore with ⟨rfl, rfl, hend⟩ | ⟨rfl, hany', hlt, rfl⟩
            · refine .inl ⟨rfl, List.take_append_drop _ _, fun hf => ?_⟩
              have := hend hf
              rw [List.length_drop] at this
              omega
            · rw [List.length_drop] at hlt
              refine .inr ⟨rfl, hany', by omega, ?_⟩
              rw [← List.take_add]

/-! ### One request -/

/-- The session takes the header and the first chunk whole, and no later call fails
before the rest of a record of `n` bytes is taken. -/
def Env.TakesWhole (env : Env) (n : ℕ) : Prop :=
  (∃ k, env.header = .took k ∧ 12 ≤ k) ∧
    (∃ k, env.first = .took k ∧ min forwardChunkSize n ≤ k) ∧
    (env.rest.any fails = true → n - forwardChunkSize ≤ takenBefore env.rest)

/-- A call fails, and the calls before it take no byte. The first chunk does not end
the record, or a later call would not be made. -/
def Env.TakesNothing (env : Env) (n : ℕ) : Prop :=
  env.header = .error ∨
    env.header = .took 0 ∧
      (env.first = .error ∨
        env.first = .took 0 ∧ forwardChunkSize < n ∧ env.rest.any fails = true ∧
          takenBefore env.rest = 0)

/-- The bulk session is not ready, or takes a record that is not empty whole or fails
before it takes any of it. -/
def Undisturbed (r : Record) (env : Env) : Prop :=
  ch1IsBulkReady env.sess = false ∨
    r.data ≠ [] ∧ (env.TakesWhole r.data.length ∨ env.TakesNothing r.data.length)

/-- A request reported as successful has appended its record, any other nothing. -/
def AllOrNothing (r : Record) (code : HyperampRet) (sent : List UInt8) : Prop :=
  (code = .ok → sent = r.encode) ∧ (code ≠ .ok → sent = [])

lemma eq_connected_of_ready {sess : SessView} (h : ch1IsBulkReady sess = true) :
    sess = some .connected := by
  cases sess with
  | none => cases h
  | some state =>
      have : state = .connected := by simpa [ch1IsBulkReady] using h
      rw [this]

/-- A ready session is asked for the header of the record and for its first chunk. -/
lemma forward_of_ready {r : Record} {env : Env} (hready : ch1IsBulkReady env.sess = true)
    (hdata : r.data ≠ []) :
    ch0TryForwardBulkToCh1 r env =
      match env.header, env.first with
      | .error, _ => some (.error, [])
      | .took h, .error => some (.error, r.header.bytes.take h)
      | .took h, .took k =>
          (forwardRest env.rest (r.data.drop forwardChunkSize)).map fun out =>
            (out.1, r.header.bytes.take h ++ (r.data.take forwardChunkSize).take k ++ out.2) := by
  have hhdr : (⟨forwardHeaderMagic, r.serviceId, 1, 0, UInt32.ofNat r.data.length⟩ :
      ForwardHeader) = r.header := rfl
  rw [ch0TryForwardBulkToCh1, hready, if_neg (by simp), if_neg hdata,
    eq_connected_of_ready hready, ch1ForwardBulkData, ch1SendWithHeader]
  simp only [hhdr, ne_eq, not_true_eq_false, if_false]
  cases env.header with
  | error => rfl
  | took h =>
      cases env.first with
      | error => simp [sessSend]
      | took k =>
          simp only [sessSend]
          cases forwardRest env.rest (r.data.drop forwardChunkSize) <;> rfl

/-- The pieces of a record that is reported as forwarded make up the record exactly if
the header and the first chunk are whole. -/
lemma pieces_eq_encode_iff {r : Record} {h k : ℕ} :
    r.header.bytes.take h ++ (r.data.take forwardChunkSize).take k ++
        r.data.drop forwardChunkSize = r.encode ↔
      12 ≤ h ∧ min forwardChunkSize r.data.length ≤ k := by
  constructor
  · intro heq
    have hlen := congrArg List.length heq
    rw [Record.length_encode] at hlen
    simp only [List.length_append, List.length_take, List.length_drop,
      ForwardHeader.length_bytes] at hlen
    omega
  · rintro ⟨hh, hk⟩
    rw [List.take_of_length_le (by simpa using hh),
      List.take_of_length_le (by rwa [List.length_take]), List.append_assoc,
      List.take_append_drop, Record.encode]

/-- Nothing is appended exactly if each piece is empty. -/
lemma pieces_eq_nil_iff {r : Record} {h k n : ℕ} (hdata : r.data ≠ [])
    (hrest : forwardChunkSize < r.data.length) :
    r.header.bytes.take h ++ (r.data.take forwardChunkSize).take k ++
        (r.data.drop forwardChunkSize).take n = [] ↔ h = 0 ∧ k = 0 ∧ n = 0 := by
  have hchunk : r.data.take forwardChunkSize ≠ [] := by
    simp [List.take_eq_nil_iff, hdata, forwardChunkSize]
  have hdrop : r.data.drop forwardChunkSize ≠ [] := by
    simpa [List.drop_eq_nil_iff] using hrest
  rw [List.append_eq_nil_iff, List.append_eq_nil_iff,
    List.take_eq_nil_iff (l := r.header.bytes),
    List.take_eq_nil_iff (l := r.data.take forwardChunkSize),
    List.take_eq_nil_iff (l := r.data.drop forwardChunkSize)]
  simp only [ForwardHeader.bytes_ne_nil, hchunk, hdrop, or_false, and_assoc]

lemma allOrNothing_iff_of_ready {r : Record} {env : Env} {code : HyperampRet}
    {sent : List UInt8} (hready : ch1IsBulkReady env.sess = true) (hdata : r.data ≠ [])
    (h : ch0TryForwardBulkToCh1 r env = some (code, sent)) :
    AllOrNothing r code sent ↔
      env.TakesWhole r.data.length ∨ env.TakesNothing r.data.length := by
  rw [forward_of_ready hready hdata] at h
  cases hheader : env.header with
  | error =>
      simp only [hheader, Option.some.injEq, Prod.mk.injEq] at h
      obtain ⟨rfl, rfl⟩ := h
      exact iff_of_true ⟨nofun, fun _ => rfl⟩ (.inr (.inl hheader))
  | took n =>
      cases hfirst : env.first with
      | error =>
          simp only [hheader, hfirst, Option.some.injEq, Prod.mk.injEq] at h
          obtain ⟨rfl, rfl⟩ := h
          simp [AllOrNothing, Env.TakesWhole, Env.TakesNothing, hheader, hfirst,
            ForwardHeader.bytes_ne_nil]
      | took k =>
          simp only [hheader, hfirst] at h
          obtain ⟨⟨code', more⟩, hrest, hout⟩ := Option.map_eq_some_iff.mp h
          simp only [Prod.mk.injEq] at hout
          obtain ⟨rfl, rfl⟩ := hout
          -- header and first piece may have been taken in part, since only errors are noticed
          -- there
          rcases forwardRest_spec hrest with ⟨rfl, rfl, hend⟩ | ⟨rfl, hany, hlt, rfl⟩
          · -- the record is reported as forwarded
            rw [List.length_drop] at hend
            have hall : AllOrNothing r .ok (r.header.bytes.take n ++
                (r.data.take forwardChunkSize).take k ++ r.data.drop forwardChunkSize) ↔
                12 ≤ n ∧ min forwardChunkSize r.data.length ≤ k := by
              simp only [AllOrNothing, pieces_eq_encode_iff]
              simp
            have hnot : ¬ env.TakesNothing r.data.length := by
              rintro (herr | ⟨-, herr | ⟨-, hlong, hany, hzero⟩⟩)
              · simp [hheader] at herr
              · simp [hfirst] at herr
              · have := hend hany
                omega
            simp only [hall, hnot, or_false, Env.TakesWhole, hheader, hfirst, SendAns.took.injEq,
              exists_eq_left']
            exact ⟨fun hs => ⟨hs.1, hs.2, hend⟩, fun hs => ⟨hs.1, hs.2.1⟩⟩
          · -- a later call fails
            rw [List.length_drop] at hlt
            have hall : AllOrNothing r .error (r.header.bytes.take n ++
                (r.data.take forwardChunkSize).take k ++
                (r.data.drop forwardChunkSize).take (takenBefore env.rest)) ↔
                n = 0 ∧ k = 0 ∧ takenBefore env.rest = 0 := by
              rw [← pieces_eq_nil_iff hdata (by omega)]
              simp [AllOrNothing]
            have hnot : ¬ env.TakesWhole r.data.length := by
              rintro ⟨-, -, hend⟩
              have := hend hany
              omega
            have hlong : forwardChunkSize < r.data.length := by omega
            rw [hall]
            simp [hnot, Env.TakesNothing, hheader, hfirst, hany, hlong]

/-- **One request is all or nothing** if and only if the session leaves it
undisturbed. -/
lemma forward_allOrNothing_iff {r : Record} {env : Env} {code : HyperampRet}
    {sent : List UInt8} (h : ch0TryForwardBulkToCh1 r env = some (code, sent)) :
    AllOrNothing r code sent ↔ Undisturbed r env := by
  cases hready : ch1IsBulkReady env.sess with
  | false =>
      rw [ch0TryForwardBulkToCh1, hready] at h
      simp only [Bool.not_false, if_true, Option.some.injEq, Prod.mk.injEq] at h
      obtain ⟨rfl, rfl⟩ := h
      exact iff_of_true ⟨nofun, fun _ => rfl⟩ (.inl hready)
  | true =>
      rcases eq_or_ne r.data [] with hdata | hdata
      · -- an empty record is reported as forwarded without its header
        rw [ch0TryForwardBulkToCh1, hready] at h
        simp only [Bool.not_true, Bool.false_eq_true, if_false, if_pos hdata, Option.some.injEq,
          Prod.mk.injEq] at h
        obtain ⟨rfl, rfl⟩ := h
        refine iff_of_false (fun hall => encode_ne_nil r (hall.1 rfl).symm) ?_
        rintro (hno | ⟨hne, -⟩)
        · simp [hready] at hno
        · exact hne hdata
      · have hund : Undisturbed r env ↔
            env.TakesWhole r.data.length ∨ env.TakesNothing r.data.length := by
          simp [Undisturbed, hready, hdata]
        rw [hund]
        exact allOrNothing_iff_of_ready hready hdata h

/-! ### Sequences of requests -/

/-- What became of a request. -/
structure Outcome where
  record : Record
  code : HyperampRet
  sent : List UInt8

/-- Bulk requests forwarded one after the other. -/
def forwardAll : List (Record × Env) → Option (List Outcome)
  | [] => some []
  | (r, env) :: reqs => do
      let (code, sent) ← ch0TryForwardBulkToCh1 r env
      let outs ← forwardAll reqs
      return ⟨r, code, sent⟩ :: outs

/-- The stream of the bulk session. -/
def stream (outs : List Outcome) : List UInt8 := outs.flatMap Outcome.sent

/-- The records that were reported as forwarded. -/
def forwarded (outs : List Outcome) : List Record :=
  outs.filterMap fun o => if o.code = .ok then some o.record else none

/-- The bytes that were left behind by requests reported as failed. -/
def leftBehind (outs : List Outcome) : List UInt8 :=
  outs.flatMap fun o => if o.code = .ok then [] else o.sent

/-- The records reported as forwarded are in the stream as they should be, and the
receiver reads them, and no others, off it. -/
def StreamOk (outs : List Outcome) : Prop :=
  (∀ o ∈ outs, o.code = .ok → o.sent = o.record.encode) ∧
    Framing.parseAll receive (stream outs) = some (forwarded outs)

lemma length_stream {outs : List Outcome}
    (h : ∀ o ∈ outs, o.code = .ok → o.sent = o.record.encode) :
    (stream outs).length =
      ((forwarded outs).map fun r => 12 + r.data.length).sum + (leftBehind outs).length := by
  induction outs with
  | nil => rfl
  | cons o outs ih =>
      have ih := ih fun o ho => h o (List.mem_cons_of_mem _ ho)
      simp only [stream, forwarded, leftBehind, List.flatMap_cons, List.filterMap_cons,
        List.length_append] at ih ⊢
      by_cases hok : o.code = .ok
      · rw [h o List.mem_cons_self hok, Record.length_encode]
        simp only [hok, if_true, List.map_cons, List.sum_cons, List.length_nil]
        omega
      · simp only [hok, if_false]
        omega

lemma stream_eq {outs : List Outcome} (h : ∀ o ∈ outs, AllOrNothing o.record o.code o.sent) :
    stream outs = (forwarded outs).flatMap Record.encode := by
  induction outs with
  | nil => rfl
  | cons o outs ih =>
      have ih := ih fun o ho => h o (List.mem_cons_of_mem _ ho)
      have ho := h o List.mem_cons_self
      simp only [stream, forwarded, List.flatMap_cons, List.filterMap_cons] at ih ⊢
      by_cases hok : o.code = .ok
      · rw [ih, ho.1 hok]
        simp [hok]
      · rw [ih, ho.2 hok]
        simp [hok]

/-- The stream is as it should be exactly if each request was all or nothing: a byte
left behind by a failed request would be one more than the records account for. -/
lemma streamOk_iff (outs : List Outcome) :
    StreamOk outs ↔ ∀ o ∈ outs, AllOrNothing o.record o.code o.sent := by
  constructor
  · rintro ⟨hsent, hparse⟩ o ho
    refine ⟨hsent o ho, fun hok => ?_⟩
    have hlen := Framing.length_of_parseAll measures_receive hparse
    rw [length_stream hsent] at hlen
    have hnone : leftBehind outs = [] := List.length_eq_zero_iff.mp (by omega)
    have := List.flatMap_eq_nil_iff.mp hnone o ho
    rwa [if_neg hok] at this
  · intro hall
    refine ⟨fun o ho => (hall o ho).1, ?_⟩
    rw [stream_eq hall]
    exact Framing.parseAll_flatMap receive_encode encode_ne_nil _

lemma forwardAll_allOrNothing_iff {reqs : List (Record × Env)} {outs : List Outcome}
    (h : forwardAll reqs = some outs) :
    (∀ o ∈ outs, AllOrNothing o.record o.code o.sent) ↔ ∀ q ∈ reqs, Undisturbed q.1 q.2 := by
  induction reqs generalizing outs with
  | nil =>
      obtain rfl : [] = outs := by simpa [forwardAll] using h
      simp
  | cons q reqs ih =>
      obtain ⟨r, env⟩ := q
      rw [forwardAll] at h
      obtain ⟨⟨code, sent⟩, hone, h⟩ := Option.bind_eq_some_iff.mp h
      obtain ⟨outs', hrest, h⟩ := Option.bind_eq_some_iff.mp h
      obtain rfl : ⟨r, code, sent⟩ :: outs' = outs := by simpa using h
      simp only [List.forall_mem_cons]
      rw [ih hrest, forward_allOrNothing_iff hone]

/-- **Bulk forwarding**: for every sequence of requests and all answers of the session,
the stream holds the records reported as forwarded, each behind its header, and parses
back into them, if and only if each request was left undisturbed. -/
theorem forwardAll_streamOk_iff {reqs : List (Record × Env)} {outs : List Outcome}
    (h : forwardAll reqs = some outs) :
    StreamOk outs ↔ ∀ q ∈ reqs, Undisturbed q.1 q.2 := by
  rw [streamOk_iff, forwardAll_allOrNothing_iff h]

/-- A record of two bytes. -/
def twoBytes : Record := ⟨1, [7, 9], by decide⟩

/-- Two records in a row, both taken whole. -/
theorem forwardAll_streamOk_twice :
    ∃ outs, forwardAll [(twoBytes, ⟨some .connected, .took 12, .took 2, []⟩),
        (twoBytes, ⟨some .connected, .took 99, .took 2, []⟩)] = some outs ∧ StreamOk outs := by
  obtain ⟨outs, h⟩ : ∃ outs, forwardAll [(twoBytes, ⟨some .connected, .took 12, .took 2, []⟩),
      (twoBytes, ⟨some .connected, .took 99, .took 2, []⟩)] = some outs := ⟨_, rfl⟩
  refine ⟨outs, h, (forwardAll_streamOk_iff h).mpr ?_⟩
  have hfits (k : ℕ) (hk : 12 ≤ k) :
      Undisturbed twoBytes ⟨some .connected, .took k, .took 2, []⟩ :=
    .inr ⟨by simp [twoBytes], .inl ⟨⟨k, rfl, hk⟩, ⟨2, rfl, by decide⟩, by simp⟩⟩
  simp only [List.forall_mem_cons, List.not_mem_nil, false_implies, implies_true, and_true]
  exact ⟨hfits 12 (by decide), hfits 99 (by decide)⟩

/-- The session has no memory for the header but has for the data: the request is
reported as successful, and the stream is the bare data. -/
theorem forwardAll_header_lost :
    ∃ outs, forwardAll [(twoBytes, ⟨some .connected, .took 0, .took 2, []⟩)] = some outs ∧
      forwarded outs = [twoBytes] ∧ stream outs = [7, 9] ∧ ¬ StreamOk outs := by
  refine ⟨_, rfl, rfl, rfl, fun hok => ?_⟩
  have hsent := hok.1 _ List.mem_cons_self rfl
  have hlen := congrArg List.length hsent
  rw [Record.length_encode] at hlen
  exact absurd hlen (by decide)

end Server
