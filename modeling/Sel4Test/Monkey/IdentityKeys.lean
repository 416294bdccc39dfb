import Sel4Test.Monkey.Decoders

/-!
`appreciateGetIdentityKeys` of `Protocol1Connection.cc`.

The body of the response has the number of keys, a header of 40 bytes for each, and the bytes of
the keys. A header has the offset of its key, counted from the text of the response, and its
length, both signed. The number of keys is compared with the length of the message in 64 bits,
after a multiplication, and the end of a key as a signed number; nothing compares the offset or
the length of a key with zero.

* `keysLoop_inside_iff`, `keysLoop_refused_iff`: the loop over the headers.
* `decoders_keep_iff`: exactly which responses all decoders handle well.
-/

namespace Monkey.MsgBuffer

open ByteMem

/-! ### Key headers -/

/-- `GetIdentityKeysKeyHeaderPacked` number `i` begins here. -/
def keyHeader (i : ℕ) : ℤ := 32 + 40 * (i : ℤ)

namespace Response

def nodeType (r : Response) (i : ℕ) : UInt8 := r.bytes (keyHeader i)

def keyType (r : Response) (i : ℕ) : UInt8 := r.bytes (keyHeader i + 1)

def keyOffset (r : Response) (i : ℕ) : Int64 := r.word (keyHeader i + 4)

def keyLen (r : Response) (i : ℕ) : Int32 :=
  (UInt32.ofNat (ofBE (loadAt r.bytes (keyHeader i + 12) 4))).toInt32

def keyId (r : Response) (i : ℕ) : Int64 := r.word (keyHeader i + 16)

/-- `nkeys`. -/
def nkeys (r : Response) : UInt64 := UInt64.ofNat (ofBE (loadAt r.bytes 24 8))

/-- The types are not those that are known. -/
def BadType (r : Response) (i : ℕ) : Prop :=
  r.keyType i ≠ 0 ∨ r.nodeType i ≠ 1 ∧ r.nodeType i ≠ 0

/-- `offset + len`. -/
def keyEnd (r : Response) (i : ℕ) : ℤ := (r.keyOffset i).toInt + (r.keyLen i).toInt

/-- The sum is no signed number of 64 bits. -/
def Overflows (r : Response) (i : ℕ) : Prop := ¬ (-2 ^ 63 ≤ r.keyEnd i ∧ r.keyEnd i < 2 ^ 63)

/-- `offset + len > adl::int64_t(msgLen)`. -/
def Beyond (r : Response) (i : ℕ) : Prop := (r.length - 8).toInt64.toInt < r.keyEnd i

instance (r : Response) (i : ℕ) : Decidable (r.BadType i) := by
  unfold BadType
  infer_instance

instance (r : Response) (i : ℕ) : Decidable (r.Overflows i) := by
  unfold Overflows
  infer_instance

instance (r : Response) (i : ℕ) : Decidable (r.Beyond i) := by
  unfold Beyond
  infer_instance

end Response

/-- A call of `record`. -/
structure KeyRecord where
  nodeType : UInt8
  keyType : UInt8
  key : List UInt8
  id : Int64
  deriving DecidableEq

/-- What `appreciateGetIdentityKeys` comes to: its status, none once a signed sum overflowed, the
ranges of the message that it read, and its calls of `record`. -/
structure Appreciated where
  status : Option Status
  reads : List (ℤ × ℕ)
  records : List KeyRecord

/-- Something was done before. -/
def Appreciated.after (reads : List (ℤ × ℕ)) (records : List KeyRecord) (d : Appreciated) :
    Appreciated :=
  { d with reads := reads ++ d.reads, records := records ++ d.records }

/-- The types of a header, read by the check or for the log. -/
def typeReads (i : ℕ) : List (ℤ × ℕ) := [(keyHeader i + 1, 1), (keyHeader i, 1)]

/-- All of a header. -/
def headerReads (i : ℕ) : List (ℤ × ℕ) :=
  typeReads i ++ [(keyHeader i + 4, 8), (keyHeader i + 12, 4), (keyHeader i + 16, 8)]

/-- The bytes of a key; `(adl::size_t) len` extends the sign. -/
def Response.keyRange (r : Response) (i : ℕ) : ℤ × ℕ :=
  (24 + (r.keyOffset i).toInt, (r.keyLen i).toInt64.toUInt64.toNat)

/-- The loop over `n` headers from number `i` on. `rooms` says for which keys there is memory; a
key without bytes needs none. -/
def keysLoop (rooms : ℕ → Bool) (r : Response) : ℕ → ℕ → Appreciated
  | 0, _ => ⟨some .success, [], []⟩
  | n + 1, i =>
      if r.BadType i then ⟨some .protocolError, typeReads i, []⟩
      else if r.Overflows i then ⟨none, headerReads i, []⟩
      else if r.Beyond i then ⟨some .protocolError, headerReads i, []⟩
      else if r.keyLen i = 0 then
        .after (headerReads i) [⟨r.nodeType i, r.keyType i, [], r.keyId i⟩]
          (keysLoop rooms r n (i + 1))
      else if rooms i = false then ⟨some .outOfResource, headerReads i, []⟩
      else
        .after (headerReads i ++ [r.keyRange i])
          [⟨r.nodeType i, r.keyType i, loadAt r.bytes (r.keyRange i).1 (r.keyRange i).2, r.keyId i⟩]
          (keysLoop rooms r n (i + 1))

/-- `appreciateGetIdentityKeys`. -/
def appreciateGetIdentityKeys (rooms : ℕ → Bool) (r : Response) : Appreciated :=
  if r.code ≠ 0 then ⟨some .protocolError, [(16, 4)], []⟩
  else
    let msgLen := r.length - 8
    if msgLen < 8 + r.nkeys * 40 then ⟨some .protocolError, [(16, 4), (24, 8)], []⟩
    else .after [(16, 4), (24, 8)] [] (keysLoop rooms r r.nkeys.toNat 0)

/-! ### Bounds -/

/-- What was read lies inside the message, no sum overflowed, and if the message is too short it
was refused before the first call of `record`. -/
def Appreciated.Keeps (d : Appreciated) (length : UInt64) (short : Prop) : Prop :=
  ((∀ x ∈ d.reads, Inside length x) ∧ d.status ≠ none) ∧
    (short → d.status = some .protocolError ∧ d.records = [])

/-- The message is too short for its code, for the number of keys, for the headers or for the
bytes of a key. -/
def KeysCut (r : Response) : Prop :=
  r.length.toNat < 4 ∨ r.code = 0 ∧ (r.length.toNat < 16 ∨
    r.length.toNat < 16 + 40 * r.nkeys.toNat ∨
      ∃ i < r.nkeys.toNat, (r.length.toNat : ℤ) - 8 < r.keyEnd i)

/-- The loop goes on behind this key. -/
def Passes (rooms : ℕ → Bool) (r : Response) (i : ℕ) : Prop :=
  ¬ r.BadType i ∧ ¬ r.Overflows i ∧ ¬ r.Beyond i ∧ (r.keyLen i = 0 ∨ rooms i = true)

/-- The key is refused with an error of the protocol. -/
def Refused (r : Response) (i : ℕ) : Prop :=
  r.BadType i ∨ ¬ r.Overflows i ∧ r.Beyond i

/-- The header of the key lies in the message, or its types do and are unknown; the end of the
key does not overflow; and the key is refused, or empty, or there is no memory for it, or it does
not begin before the message nor, with its length as a size, end behind it. -/
def KeyFits (rooms : ℕ → Bool) (r : Response) (i : ℕ) : Prop :=
  r.BadType i ∧ 18 + 40 * i ≤ r.length.toNat ∨
    ¬ r.BadType i ∧ 40 + 40 * i ≤ r.length.toNat ∧ ¬ r.Overflows i ∧
      (r.Beyond i ∨ r.keyLen i = 0 ∨ rooms i = false ∨
        -24 ≤ (r.keyOffset i).toInt ∧
          (r.keyOffset i).toInt + (r.keyRange i).2 + 8 ≤ (r.length.toNat : ℤ))

/-- The message suits `appreciateGetIdentityKeys`: with code 0 the number of keys is there, and
the check of the number refuses the message, or every key that the loop comes to fits and a
message that is too short is refused at its first key. -/
def KeysFit (rooms : ℕ → Bool) (r : Response) : Prop :=
  4 ≤ r.length.toNat ∧ (r.code = 0 → 16 ≤ r.length.toNat ∧
    (r.length - 8 < 8 + r.nkeys * 40 ∨
      (∀ i < r.nkeys.toNat, (∀ j < i, Passes rooms r j) → KeyFits rooms r i) ∧
        (KeysCut r → Refused r 0)))

section Loop

variable {rooms : ℕ → Bool} {r : Response}

lemma typeReads_inside (i : ℕ) :
    (∀ x ∈ typeReads i, Inside r.length x) ↔ 18 + 40 * i ≤ r.length.toNat := by
  have hkey := inside_iff r.length (keyHeader i + 1) 1
    (by rw [keyHeader]; omega) (by decide)
  have hnode := inside_iff r.length (keyHeader i) 1
    (by rw [keyHeader]; omega) (by decide)
  rw [typeReads, List.forall_mem_cons, List.forall_mem_singleton, hkey, hnode, keyHeader]
  omega

lemma headerReads_inside (i : ℕ) :
    (∀ x ∈ headerReads i, Inside r.length x) ↔ 40 + 40 * i ≤ r.length.toNat := by
  have hoffset := inside_iff r.length (keyHeader i + 4) 8
    (by rw [keyHeader]; omega) (by decide)
  have hlen := inside_iff r.length (keyHeader i + 12) 4
    (by rw [keyHeader]; omega) (by decide)
  have hid := inside_iff r.length (keyHeader i + 16) 8
    (by rw [keyHeader]; omega) (by decide)
  rw [headerReads, List.forall_mem_append, typeReads_inside, List.forall_mem_cons,
    List.forall_mem_cons, List.forall_mem_singleton, hoffset, hlen, hid, keyHeader]
  omega

/-- The bytes of a key that has some. -/
lemma keyRange_inside {i : ℕ} (hlen : r.keyLen i ≠ 0) :
    Inside r.length (r.keyRange i) ↔ -24 ≤ (r.keyOffset i).toInt ∧
      (r.keyOffset i).toInt + (r.keyRange i).2 + 8 ≤ (r.length.toNat : ℤ) := by
  have hsize : (r.keyRange i).2 ≠ 0 := by
    intro hzero
    have hword : (r.keyLen i).toInt64.toUInt64 = 0 := UInt64.toNat_inj.mp hzero
    have hint64 : (r.keyLen i).toInt64 = 0 := by
      rw [← Int64.toInt64_toUInt64 (r.keyLen i).toInt64, hword]
      rfl
    have hint : (r.keyLen i).toInt64.toInt = 0 := congrArg Int64.toInt hint64
    rw [Int32.toInt_toInt64] at hint
    exact hlen (Int32.toInt_inj.mp hint)
  have hstart : (r.keyRange i).1 = 24 + (r.keyOffset i).toInt := rfl
  rw [Inside, or_iff_right hsize, hstart]
  omega

/-- One header: what is read for it lies inside and nothing overflows exactly if it fits, as far
as the loop does not go on. -/
lemma keysLoop_succ {n i : ℕ} :
    ((∀ x ∈ (keysLoop rooms r (n + 1) i).reads, Inside r.length x) ∧
      (keysLoop rooms r (n + 1) i).status ≠ none) ↔
      KeyFits rooms r i ∧ (Passes rooms r i →
        (∀ x ∈ (keysLoop rooms r n (i + 1)).reads, Inside r.length x) ∧
          (keysLoop rooms r n (i + 1)).status ≠ none) := by
  have htypes := typeReads_inside (r := r) i
  have hheader := headerReads_inside (r := r) i
  rw [keysLoop, KeyFits, Passes]
  -- along the checks of the loop body, in the order in which it makes them
  by_cases hbad : r.BadType i
  · rw [if_pos hbad]
    dsimp only
    rw [htypes]
    simp only [hbad, true_and, not_true_eq_false, false_and, or_false, false_imp_iff, and_true,
      ne_eq, reduceCtorEq, not_false_eq_true]
  · rw [if_neg hbad]
    by_cases hover : r.Overflows i
    · rw [if_pos hover]
      simp only [hbad, hover, false_and, not_true_eq_false, and_false, or_false, ne_eq]
    · rw [if_neg hover]
      by_cases hbeyond : r.Beyond i
      · rw [if_pos hbeyond]
        dsimp only
        rw [hheader]
        simp only [hbad, hover, hbeyond, false_and, not_false_eq_true, true_and, true_or, and_true,
          not_true_eq_false, and_false, false_imp_iff, false_or, ne_eq, reduceCtorEq]
      · rw [if_neg hbeyond]
        by_cases hlen : r.keyLen i = 0
        · rw [if_pos hlen, Appreciated.after]
          dsimp only
          rw [List.forall_mem_append, hheader]
          simp only [hbad, hover, hbeyond, hlen, false_and, not_false_eq_true, true_and, true_or,
            or_true, false_or, and_true, true_imp_iff, and_assoc]
        · rw [if_neg hlen]
          by_cases hroom : rooms i = false
          · rw [if_pos hroom]
            dsimp only
            rw [hheader]
            simp only [hbad, hover, hbeyond, hlen, hroom, false_and, not_false_eq_true, true_and,
              true_or, or_true, false_or, and_true, Bool.false_eq_true, and_false, false_imp_iff,
              ne_eq, reduceCtorEq]
          · have hkey := keyRange_inside (r := r) hlen
            rw [if_neg hroom, Appreciated.after]
            dsimp only
            rw [List.forall_mem_append, List.forall_mem_append, hheader, List.forall_mem_singleton,
              hkey]
            have hyes : rooms i = true := Bool.eq_true_of_not_eq_false hroom
            simp only [hbad, hover, hbeyond, hlen, hyes, false_and, not_false_eq_true, true_and,
              or_true, false_or, Bool.true_eq_false, true_imp_iff, and_assoc]

/-- A statement about all keys that the loop comes to. -/
lemma forall_visited_succ {n i : ℕ} {P : ℕ → Prop} :
    (∀ k < n + 1, (∀ j < k, Passes rooms r (i + j)) → P (i + k)) ↔
      P i ∧ (Passes rooms r i →
        ∀ k < n, (∀ j < k, Passes rooms r (i + 1 + j)) → P (i + 1 + k)) := by
  constructor
  · intro h
    refine ⟨h 0 (by omega) fun j hj => absurd hj (by omega), fun hp k hk hpass => ?_⟩
    have hshift : i + (k + 1) = i + 1 + k := by omega
    rw [← hshift]
    refine h (k + 1) (by omega) fun j hj => ?_
    cases j with
    | zero => exact hp
    | succ j =>
        have hnext := hpass j (by omega)
        rwa [show i + (j + 1) = i + 1 + j by omega]
  · rintro ⟨h0, h⟩ k hk hpass
    cases k with
    | zero => exact h0
    | succ k =>
        have hshift : i + (k + 1) = i + 1 + k := by omega
        rw [hshift]
        refine h (hpass 0 (by omega)) k (by omega) fun j hj => ?_
        have hnext := hpass (j + 1) (by omega)
        rwa [show i + (j + 1) = i + 1 + j by omega] at hnext

/-- **The loop over the headers** reads inside, and nothing overflows, exactly if all headers that
it comes to fit. -/
lemma keysLoop_inside_iff (rooms : ℕ → Bool) (r : Response) (n i : ℕ) :
    ((∀ x ∈ (keysLoop rooms r n i).reads, Inside r.length x) ∧
      (keysLoop rooms r n i).status ≠ none) ↔
      ∀ k < n, (∀ j < k, Passes rooms r (i + j)) → KeyFits rooms r (i + k) := by
  induction n generalizing i with
  | zero =>
      refine iff_of_true ⟨fun x hx => (by cases hx), by rintro ⟨⟩⟩ ?_
      intro k hk
      omega
  | succ n ih => rw [keysLoop_succ, forall_visited_succ, ih]

/-- The loop refuses before the first call of `record` exactly if it refuses its first key. -/
lemma keysLoop_refused_iff (rooms : ℕ → Bool) (r : Response) (n i : ℕ) :
    ((keysLoop rooms r n i).status = some .protocolError ∧ (keysLoop rooms r n i).records = []) ↔
      n ≠ 0 ∧ Refused r i := by
  cases n with
  | zero =>
      refine iff_of_false ?_ fun h => h.1 rfl
      rintro ⟨⟨⟩, -⟩
  | succ n =>
      rw [keysLoop, Refused]
      split_ifs with hbad hover hbeyond hlen hroom
      · simp [hbad]
      · simp [hbad, hover]
      · simp [hbad, hover, hbeyond]
      · simp [hbad, hbeyond, Appreciated.after]
      · simp [hbad, hbeyond]
      · simp [hbad, hbeyond, Appreciated.after]

/-- A message that is too short although its number of keys is there has keys. -/
lemma nkeys_ne_zero (hL : 16 ≤ r.length.toNat) (hcut : KeysCut r) : r.nkeys.toNat ≠ 0 := by
  intro hzero
  rw [KeysCut, hzero] at hcut
  rcases hcut with hshort | ⟨-, hshort | hshort | ⟨i, hi, -⟩⟩ <;> omega

/-- **Which responses `appreciateGetIdentityKeys` handles well**. -/
lemma appreciate_keeps_iff (rooms : ℕ → Bool) (r : Response) :
    (appreciateGetIdentityKeys rooms r).Keeps r.length (KeysCut r) ↔ KeysFit rooms r := by
  have hcode := inside_iff r.length 16 4 (by decide) (by decide)
  have hnkeys := inside_iff r.length 24 8 (by decide) (by decide)
  have hfront : (∀ x ∈ [((16 : ℤ), 4), (24, 8)], Inside r.length x) ↔ 16 ≤ r.length.toNat := by
    rw [List.forall_mem_cons, List.forall_mem_singleton, hcode, hnkeys]
    omega
  rw [appreciateGetIdentityKeys, KeysFit, Appreciated.Keeps]
  by_cases hc : r.code = 0
  · rw [if_neg (not_not.mpr hc)]
    dsimp only
    by_cases hcheck : r.length - 8 < 8 + r.nkeys * 40
    · rw [if_pos hcheck]
      dsimp only
      rw [hfront]
      constructor
      · rintro ⟨⟨hL, -⟩, -⟩
        exact ⟨by omega, fun _ => ⟨hL, .inl hcheck⟩⟩
      · rintro ⟨-, hfit⟩
        exact ⟨⟨(hfit hc).1, by rintro ⟨⟩⟩, fun _ => ⟨rfl, rfl⟩⟩
    · have hloop := keysLoop_inside_iff rooms r r.nkeys.toNat 0
      have hrefused := keysLoop_refused_iff rooms r r.nkeys.toNat 0
      simp only [Nat.zero_add] at hloop
      rw [if_neg hcheck, Appreciated.after]
      dsimp only
      rw [List.forall_mem_append, hfront, List.nil_append, hrefused]
      constructor
      · rintro ⟨⟨⟨hL, hreads⟩, hstatus⟩, hcut⟩
        exact ⟨by omega, fun _ => ⟨hL, .inr ⟨hloop.mp ⟨hreads, hstatus⟩, fun h => (hcut h).2⟩⟩⟩
      · rintro ⟨-, hfit⟩
        obtain ⟨hL, hfit⟩ := hfit hc
        obtain ⟨hkeys, hcut⟩ := hfit.resolve_left hcheck
        obtain ⟨hreads, hstatus⟩ := hloop.mpr hkeys
        exact ⟨⟨⟨hL, hreads⟩, hstatus⟩, fun h => ⟨nkeys_ne_zero hL h, hcut h⟩⟩
  · rw [if_pos hc]
    dsimp only
    rw [List.forall_mem_singleton, hcode]
    constructor
    · rintro ⟨⟨hL, -⟩, -⟩
      exact ⟨by omega, fun h => absurd h hc⟩
    · rintro ⟨hL, -⟩
      exact ⟨⟨by omega, by rintro ⟨⟩⟩, fun _ => ⟨rfl, rfl⟩⟩

end Loop

/-! ### All decoders -/

/-- **When the decoders keep to their message**: for every message in memory, whatever lies
around it, a one-click call reads inside it and refuses what is too short exactly if the message
fits the call, and `appreciateGetIdentityKeys` exactly if the message suits it. -/
theorem decoders_keep_iff (call : Call) (text : Bool) (rooms : ℕ → Bool) (m : Received) :
    ((decode call text m).Keeps m.header.length (call.Cut m) ↔ call.Fits text m) ∧
      ((appreciateGetIdentityKeys rooms m.response).Keeps m.header.length (KeysCut m.response) ↔
        KeysFit rooms m.response) :=
  ⟨decode_keeps_iff call text m, appreciate_keeps_iff rooms m.response⟩

/-- On an empty reply, `refBlock` reads the eight bytes behind the message. -/
theorem refBlock_strays :
    ¬ (decode (.refBlock true) true emptyMsg).Keeps emptyMsg.header.length
      (Call.Cut (.refBlock true) emptyMsg) := by
  rw [decode_keeps_iff]
  rintro ⟨-, -, hsuits⟩
  have hlong := hsuits code_emptyMsg rfl
  revert hlong
  decide

end Monkey.MsgBuffer
