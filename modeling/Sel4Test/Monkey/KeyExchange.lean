import Sel4Test.Adl.ByteArray
import Sel4Test.Monkey.IdentityKeys

/-!
Identity keys from one side to the other, `addKey`, `replyGetIdentityKeys` and
`appreciateGetIdentityKeys` of `Protocol1Connection.cc`.

`addKey` appends a header of 40 bytes to one array and the key to another; the header has the
offset of the key in the second array. `replyGetIdentityKeys` sends the number of keys, the
headers and the keys, and replaces in each header the offset by the one in what it sends, and the
byte order. Both arrays are full as long as every call of `addKey` succeeds, so that they grow by
what is appended and nothing else.

* `addKeys_spec`: what the two arrays hold.
* `swapLoop_headers`: what is sent.
* `keysLoop_wires`: what the other side makes of it.
* `getIdentityKeys_roundTrips`: every key comes through.
-/

namespace Monkey.MsgBuffer

open ByteMem Dialogue Dialogue.Prog Adl

/-! ### Adding keys -/

/-- The arguments of `addKey`, and the answers of the allocator for the headers and the keys. -/
structure AddKey where
  nodeType : UInt8
  keyType : UInt8
  key : List UInt8
  id : Int64
  forHeaders : Grant
  forKeys : Grant

/-- `ReplyGetIdentityKeysParams`. -/
structure ReplyGetIdentityKeysParams where
  keyHeaders : Adl.ByteArray
  keys : Adl.ByteArray

/-- Parameters without a key. -/
def ReplyGetIdentityKeysParams.new : ReplyGetIdentityKeysParams :=
  ⟨Adl.ByteArray.new, Adl.ByteArray.new⟩

/-- `sizeof(GetIdentityKeysKeyHeaderPacked)`. -/
def keyHeaderSize : ℕ := 40

/-- The packed header of a key, in host byte order. -/
def packed (a : AddKey) (offset : ℕ) : List UInt8 :=
  [a.nodeType, a.keyType, 0, 0] ++ toLE 8 offset ++ toLE 4 a.key.length ++ rawq a.id ++
    List.replicate 16 0

/-- `addKey`. -/
def addKey (a : AddKey) (p : ReplyGetIdentityKeysParams) : Status × ReplyGetIdentityKeysParams :=
  if a.nodeType ≠ 0 ∧ a.nodeType ≠ 1 then (.invalidParameters, p)
  else if a.keyType ≠ 0 then (.invalidParameters, p)
  else if 2 ^ 31 - 1 < a.key.length then (.invalidParameters, p)
  else
    let h := p.keyHeaders.resize a.forHeaders (p.keyHeaders.data.length + keyHeaderSize)
    if h.1 = false then (.outOfResource, { p with keyHeaders := h.2 })
    else
      let heads := h.2.writeEnd (packed a p.keys.data.length)
      let k := p.keys.append a.forKeys a.key
      if k.1 = false then
        (.outOfResource,
          ⟨(heads.resize a.forHeaders (heads.data.length - keyHeaderSize)).2, k.2⟩)
      else (.success, ⟨heads, k.2⟩)

/-- One call of `addKey` after the other, and what they return. -/
def addKeys : List AddKey → ReplyGetIdentityKeysParams → List Status × ReplyGetIdentityKeysParams
  | [], p => ([], p)
  | a :: as, p =>
      let r := addKey a p
      let rs := addKeys as r.2
      (r.1 :: rs.1, rs.2)

/-! ### Replying -/

/-- A header as it is sent: length and id in network byte order, and so the offset, with `base`
added to it. -/
def swapHeader (base : ℕ) (bs : List UInt8) : List UInt8 :=
  bs.take 4 ++ toBE 8 (ofLE ((bs.drop 4).take 8) + base) ++ toBE 4 (ofLE ((bs.drop 12).take 4)) ++
    toBE 8 (ofLE ((bs.drop 16).take 8)) ++ bs.drop 24

/-- The loop over the headers in `msg`, which ends at `stop`. -/
def swapLoop (stop base : ℕ) : ℕ → ℕ → List UInt8 → List UInt8
  | 0, _, msg => msg
  | fuel + 1, pos, msg =>
      if pos < stop then
        swapLoop stop base fuel (pos + keyHeaderSize)
          (msg.take pos ++ (swapHeader base ((msg.drop pos).take keyHeaderSize) ++
            msg.drop (pos + keyHeaderSize)))
      else msg

/-- The text of `replyGetIdentityKeys`, none without memory for it. The three parts fill it. -/
def replyText (g : Grant) (p : ReplyGetIdentityKeysParams) : Option (List UInt8) :=
  let headers := p.keyHeaders.data
  let r := Adl.ByteArray.new.resize g (8 + headers.length + p.keys.data.length)
  if r.1 = false then none
  else
    some (swapLoop (8 + headers.length) (8 + headers.length) (8 + headers.length) 8
      (toBE 8 (headers.length / keyHeaderSize) ++ (headers ++ p.keys.data)))

/-- `replyGetIdentityKeys`. -/
def replyGetIdentityKeys (g : Grant) (p : ReplyGetIdentityKeysParams) : Prog UInt8 Ret :=
  (replyText g p).elim (done (.returns .outOfResource)) fun msg => sendResponse 0 msg []

/-- What `record` should be called with. -/
def AddKey.record (a : AddKey) : KeyRecord := ⟨a.nodeType, a.keyType, a.key, a.id⟩

/-! ### What the arrays hold -/

/-- The parameters are those that `addKey` accepts. -/
structure AddKey.Valid (a : AddKey) : Prop where
  nodeType : a.nodeType = 0 ∨ a.nodeType = 1
  keyType : a.keyType = 0
  short : a.key.length < 2 ^ 31

/-- The headers of keys whose bytes begin at `offset`. -/
def packedAll : ℕ → List AddKey → List UInt8
  | _, [] => []
  | offset, a :: as => packed a offset ++ packedAll (offset + a.key.length) as

/-- The bytes of the keys. -/
def keyBytes (as : List AddKey) : List UInt8 := as.flatMap AddKey.key

/-- Both arrays are full. -/
structure ReplyGetIdentityKeysParams.Full (p : ReplyGetIdentityKeysParams) : Prop where
  keyHeaders : p.keyHeaders.Full
  keys : p.keys.Full

lemma length_packed (a : AddKey) (offset : ℕ) : (packed a offset).length = keyHeaderSize := by
  simp [packed, keyHeaderSize]

lemma length_packedAll (offset : ℕ) (as : List AddKey) :
    (packedAll offset as).length = keyHeaderSize * as.length := by
  induction as generalizing offset with
  | nil => rfl
  | cons a as ih =>
      rw [packedAll, List.length_append, length_packed, ih, List.length_cons, Nat.mul_succ,
        Nat.add_comm]

/-- **One key**: a call that succeeds appends the header and the bytes. -/
lemma addKey_spec {a : AddKey} {p : ReplyGetIdentityKeysParams} (hp : p.Full)
    (hok : (addKey a p).1 = .success) :
    a.Valid ∧ (addKey a p).2.Full ∧
      (addKey a p).2.keyHeaders.data = p.keyHeaders.data ++ packed a p.keys.data.length ∧
      (addKey a p).2.keys.data = p.keys.data ++ a.key := by
  -- a key that was added has passed every check, and both arrays had room
  by_cases hnode : a.nodeType ≠ 0 ∧ a.nodeType ≠ 1
  · rw [addKey, if_pos hnode] at hok
    cases hok
  by_cases htype : a.keyType ≠ 0
  · rw [addKey, if_neg hnode, if_pos htype] at hok
    cases hok
  by_cases hlong : 2 ^ 31 - 1 < a.key.length
  · rw [addKey, if_neg hnode, if_neg htype, if_pos hlong] at hok
    cases hok
  have hvalid : a.Valid := by
    refine ⟨?_, not_not.mp htype, by omega⟩
    by_cases h0 : a.nodeType = 0
    · exact .inl h0
    · exact .inr (not_not.mp fun h1 => hnode ⟨h0, h1⟩)
  have heq := addKey.eq_1 a p
  rw [if_neg hnode, if_neg htype, if_neg hlong] at heq
  cases hh : (p.keyHeaders.resize a.forHeaders (p.keyHeaders.data.length + keyHeaderSize)).1 with
  | false =>
      simp only [hh, if_true] at heq
      rw [heq] at hok
      cases hok
  | true =>
      obtain ⟨fresh, hlen, hres, hfull⟩ := Adl.ByteArray.resize_full hp.keyHeaders (by decide) hh
      have hheads : (⟨p.keyHeaders.data ++ fresh, []⟩ : Adl.ByteArray).writeEnd
          (packed a p.keys.data.length) =
          ⟨p.keyHeaders.data ++ packed a p.keys.data.length, []⟩ := by
        rw [Adl.ByteArray.writeEnd]
        dsimp only
        rw [List.length_append, hlen, length_packed, Nat.add_sub_cancel, List.take_left]
      cases hk : (p.keys.append a.forKeys a.key).1 with
      | false =>
          simp only [hh, hk, Bool.true_eq_false, if_true, if_false] at heq
          rw [heq] at hok
          cases hok
      | true =>
          obtain ⟨hkeys, hkfull⟩ := Adl.ByteArray.append_full hp.keys
            (by have := hvalid.short; omega) hk
          simp only [hh, hk, Bool.true_eq_false, if_false] at heq
          rw [hres, hheads, hkeys] at heq
          rw [heq]
          refine ⟨hvalid, ⟨⟨rfl, ?_⟩, hkfull⟩, rfl, rfl⟩
          have hsmall := hfull.small
          rw [List.length_append, hlen] at hsmall
          rw [List.length_append, length_packed]
          exact hsmall

/-- **All keys**: the first array has the headers, the second the bytes. -/
lemma addKeys_spec {as : List AddKey} {p : ReplyGetIdentityKeysParams} (hp : p.Full)
    (hok : ∀ s ∈ (addKeys as p).1, s = Status.success) :
    (∀ a ∈ as, a.Valid) ∧ (addKeys as p).2.Full ∧
      (addKeys as p).2.keyHeaders.data = p.keyHeaders.data ++ packedAll p.keys.data.length as ∧
      (addKeys as p).2.keys.data = p.keys.data ++ keyBytes as := by
  induction as generalizing p with
  | nil =>
      refine ⟨fun a ha => (by cases ha), hp, ?_, ?_⟩
      · exact (List.append_nil _).symm
      · exact (List.append_nil _).symm
  | cons a as ih =>
      rw [addKeys] at hok
      obtain ⟨hfirst, hrest⟩ := List.forall_mem_cons.mp hok
      obtain ⟨hvalid, hfull, hheaders, hkeys⟩ := addKey_spec hp hfirst
      obtain ⟨hvalids, hfull', hheaders', hkeys'⟩ := ih hfull hrest
      rw [addKeys]
      refine ⟨List.forall_mem_cons.mpr ⟨hvalid, hvalids⟩, hfull', ?_, ?_⟩
      · dsimp only
        rw [hheaders', hheaders, hkeys, List.length_append, packedAll, List.append_assoc]
      · dsimp only
        rw [hkeys', hkeys, keyBytes, keyBytes, List.flatMap_cons, List.append_assoc]

/-! ### What is sent -/

/-- The header of a key as it is sent. -/
def wire (base : ℕ) (a : AddKey) (offset : ℕ) : List UInt8 :=
  [a.nodeType, a.keyType, 0, 0] ++ toBE 8 (offset + base) ++ toBE 4 a.key.length ++ netq a.id ++
    List.replicate 16 0

/-- The headers as they are sent. -/
def wireAll (base : ℕ) : ℕ → List AddKey → List UInt8
  | _, [] => []
  | offset, a :: as => wire base a offset ++ wireAll base (offset + a.key.length) as

lemma length_wire (base : ℕ) (a : AddKey) (offset : ℕ) :
    (wire base a offset).length = keyHeaderSize := by
  simp [wire, keyHeaderSize]

lemma length_wireAll (base offset : ℕ) (as : List AddKey) :
    (wireAll base offset as).length = keyHeaderSize * as.length := by
  induction as generalizing offset with
  | nil => rfl
  | cons a as ih =>
      rw [wireAll, List.length_append, length_wire, ih, List.length_cons, Nat.mul_succ,
        Nat.add_comm]

/-- **One header**: the loop makes of it what is sent. -/
lemma swapHeader_packed {base offset : ℕ} {a : AddKey} (hoffset : offset < 2 ^ 64)
    (hlen : a.key.length < 2 ^ 32) : swapHeader base (packed a offset) = wire base a offset := by
  have hpacked : packed a offset = [a.nodeType, a.keyType, 0, 0] ++ (toLE 8 offset ++
      (toLE 4 a.key.length ++ (rawq a.id ++ List.replicate 16 0))) := by
    simp only [packed, List.append_assoc]
  have h4 : (packed a offset).drop 4 =
      toLE 8 offset ++ (toLE 4 a.key.length ++ (rawq a.id ++ List.replicate 16 0)) := by
    rw [hpacked]
    exact List.drop_left' rfl
  have h12 : (packed a offset).drop 12 =
      toLE 4 a.key.length ++ (rawq a.id ++ List.replicate 16 0) := by
    rw [show 12 = 4 + 8 from rfl, ← List.drop_drop, h4]
    exact List.drop_left' (length_toLE _ _)
  have h16 : (packed a offset).drop 16 = rawq a.id ++ List.replicate 16 0 := by
    rw [show 16 = 12 + 4 from rfl, ← List.drop_drop, h12]
    exact List.drop_left' (length_toLE _ _)
  have h24 : (packed a offset).drop 24 = List.replicate 16 0 := by
    rw [show 24 = 16 + 8 from rfl, ← List.drop_drop, h16]
    exact List.drop_left' (length_rawq _)
  have htypes : (packed a offset).take 4 = [a.nodeType, a.keyType, 0, 0] := by
    rw [hpacked]
    exact List.take_left' rfl
  have hid : ofLE (rawq a.id) = a.id.toUInt64.toNat :=
    ofLE_toLE_of_lt (Nat.lt_of_lt_of_le a.id.toUInt64.toNat_lt (by norm_num))
  rw [swapHeader, htypes, h4, h12, h16, h24, List.take_left' (length_toLE _ _),
    List.take_left' (length_toLE _ _), List.take_left' (length_rawq _),
    ofLE_toLE_of_lt (Nat.lt_of_lt_of_le hoffset (by norm_num)),
    ofLE_toLE_of_lt (Nat.lt_of_lt_of_le hlen (by norm_num)), hid]
  rfl

/-- **All headers**: by induction on the headers that are left. -/
lemma swapLoop_headers (base fuel offset : ℕ) (as : List AddKey) (pre post : List UInt8)
    (hfuel : as.length ≤ fuel) (hshort : ∀ a ∈ as, a.key.length < 2 ^ 32)
    (hoffset : offset + (keyBytes as).length < 2 ^ 64) :
    swapLoop (pre.length + keyHeaderSize * as.length) base fuel pre.length
      (pre ++ (packedAll offset as ++ post)) = pre ++ (wireAll base offset as ++ post) := by
  induction as generalizing fuel offset pre with
  | nil =>
      cases fuel with
      | zero => rfl
      | succ fuel =>
          rw [swapLoop, if_neg (by simp)]
          rfl
  | cons a as ih =>
      obtain ⟨hfirst, hrest⟩ := List.forall_mem_cons.mp hshort
      rw [keyBytes, List.flatMap_cons, List.length_append] at hoffset
      cases fuel with
      | zero =>
          rw [List.length_cons] at hfuel
          omega
      | succ fuel =>
          have hlt : pre.length < pre.length + keyHeaderSize * (a :: as).length := by
            rw [List.length_cons, keyHeaderSize]
            omega
          have hstop : pre.length + keyHeaderSize * (a :: as).length =
              (pre ++ wire base a offset).length + keyHeaderSize * as.length := by
            rw [List.length_append, length_wire, List.length_cons, Nat.mul_succ]
            omega
          have hpos : pre.length + keyHeaderSize = (pre ++ wire base a offset).length := by
            rw [List.length_append, length_wire]
          have hhead : ((pre ++ (packedAll offset (a :: as) ++ post)).drop pre.length).take
              keyHeaderSize = packed a offset := by
            rw [List.drop_left, packedAll, List.append_assoc]
            exact List.take_left' (length_packed a offset)
          have htail : (pre ++ (packedAll offset (a :: as) ++ post)).drop
              (pre.length + keyHeaderSize) = packedAll (offset + a.key.length) as ++ post := by
            rw [← List.drop_drop, List.drop_left, packedAll, List.append_assoc]
            exact List.drop_left' (length_packed a offset)
          rw [swapLoop, if_pos hlt, hhead, htail, List.take_left,
            swapHeader_packed (by omega) hfirst, ← List.append_assoc, hpos, hstop,
            ih _ _ (pre ++ wire base a offset) (Nat.le_of_succ_le_succ hfuel) hrest
              (by rw [keyBytes]; omega), wireAll, List.append_assoc, List.append_assoc]

/-- The text that is sent for the keys. -/
def keysText (as : List AddKey) : List UInt8 :=
  toBE 8 as.length ++ (wireAll (8 + keyHeaderSize * as.length) 0 as ++ keyBytes as)

lemma length_keysText (as : List AddKey) :
    (keysText as).length = 8 + keyHeaderSize * as.length + (keyBytes as).length := by
  rw [keysText, List.length_append, List.length_append, length_toBE, length_wireAll]
  omega

/-- **What is sent**, and that it takes less than half of the address space. -/
lemma replyText_spec {as : List AddKey} {g : Grant} {msg : List UInt8}
    (hok : ∀ s ∈ (addKeys as .new).1, s = Status.success)
    (hmsg : replyText g (addKeys as .new).2 = some msg) :
    msg = keysText as ∧ msg.length < 2 ^ 63 - 16 ∧ ∀ a ∈ as, a.Valid := by
  have hnew : ReplyGetIdentityKeysParams.new.Full :=
    ⟨Adl.ByteArray.Full.new, Adl.ByteArray.Full.new⟩
  obtain ⟨hvalid, hfull, hheaders, hkeys⟩ := addKeys_spec hnew hok
  generalize (addKeys as .new).2 = p at hmsg hfull hheaders hkeys
  replace hheaders : p.keyHeaders.data = packedAll 0 as := hheaders
  replace hkeys : p.keys.data = keyBytes as := hkeys
  have hlenHeaders : p.keyHeaders.data.length = keyHeaderSize * as.length := by
    rw [hheaders, length_packedAll]
  have hlenKeys : p.keys.data.length = (keyBytes as).length := by rw [hkeys]
  have hsmallHeaders := hfull.keyHeaders.small
  have hsmallKeys := hfull.keys.small
  rw [replyText] at hmsg
  split_ifs at hmsg with hroom
  have hfits := Adl.ByteArray.resize_new (by omega) (by omega) (Bool.eq_true_of_not_eq_false hroom)
  have hcount : p.keyHeaders.data.length / keyHeaderSize = as.length := by
    rw [hlenHeaders, Nat.mul_div_cancel_left _ (by decide)]
  have hswap := swapLoop_headers (8 + keyHeaderSize * as.length)
    (8 + keyHeaderSize * as.length) 0 as (toBE 8 as.length) (keyBytes as) (by rw [keyHeaderSize]; omega)
    (fun a ha => by have := (hvalid a ha).short; omega) (by omega)
  rw [length_toBE] at hswap
  rw [hcount, hlenHeaders, hheaders, hkeys, hswap] at hmsg
  obtain rfl := Option.some.inj hmsg
  refine ⟨rfl, ?_, hvalid⟩
  show (keysText as).length < 2 ^ 63 - 16
  rw [length_keysText]
  omega

/-! ### What is received -/

/-- A number of 63 bits in network byte order. -/
lemma ofNetq_toBE {v : ℕ} (hv : v < 2 ^ 63) : (ofNetq (toBE 8 v)).toInt = v := by
  rw [ofNetq, ofBE_toBE_of_lt (Nat.lt_of_lt_of_le hv (by norm_num)), UInt64.toInt64_ofNat',
    Int64.toInt_ofNat_of_lt hv]

/-- The length of a key in network byte order, as a signed number and as a size. -/
lemma keyLen_toBE {v : ℕ} (hv : v < 2 ^ 31) :
    (UInt32.ofNat (ofBE (toBE 4 v))).toInt32.toInt = v ∧
      (UInt32.ofNat (ofBE (toBE 4 v))).toInt32.toInt64.toUInt64.toNat = v := by
  have hint : (UInt32.ofNat (ofBE (toBE 4 v))).toInt32.toInt = v := by
    rw [ofBE_toBE_of_lt (Nat.lt_of_lt_of_le hv (by norm_num)), UInt32.toInt32_ofNat',
      Int32.toInt_ofNat_of_lt hv]
  refine ⟨hint, ?_⟩
  have hword : (UInt32.ofNat (ofBE (toBE 4 v))).toInt32.toInt64 = Int64.ofNat v := by
    apply Int64.toInt_inj.mp
    rw [Int32.toInt_toInt64, hint, Int64.toInt_ofNat_of_lt (by omega)]
  rw [hword, ← UInt64.toInt64_ofNat', UInt64.toUInt64_toInt64, UInt64.toNat_ofNat']
  exact Nat.mod_eq_of_lt (by omega)

/-- The data of a message lies behind its header. -/
lemma loadAt_image {m : Received} {k n : ℕ} (hle : k + n ≤ m.data.length) :
    loadAt m.image (16 + (k : ℤ)) n = (m.data.drop k).take n := by
  apply List.ext_getElem?
  intro i
  rw [loadAt, List.getElem?_map, List.getElem?_take]
  by_cases hi : i < n
  · have hfront : (magic ++ toLE 4 m.header.type.toNat ++ toLE 8 m.header.length.toNat).length =
        16 := by simp [magic]
    have hpos : ¬ 16 + (k : ℤ) + (i : ℤ) < 0 := by omega
    have hnat : (16 + (k : ℤ) + (i : ℤ)).toNat = 16 + (k + i) := by omega
    have hlt : k + i < m.data.length := by omega
    rw [List.getElem?_range hi, if_pos hi, List.getElem?_drop, Option.map_some, Received.image,
      if_neg hpos, hnat, List.getElem?_append_right (by omega), hfront, Nat.add_sub_cancel_left,
      List.getElem?_eq_getElem hlt, Option.getD_some]
  · rw [if_neg hi, List.getElem?_eq_none (by simpa using hi), Option.map_none]

/-- The text of the response is in memory. -/
def Loads (r : Response) (msg : List UInt8) : Prop :=
  ∀ k n, k + n ≤ msg.length → loadAt r.bytes (24 + (k : ℤ)) n = (msg.drop k).take n

/-- The memory of a message with a response. -/
lemma loads_response {m : Received} {msg : List UInt8} (hdata : m.data = responseData 0 msg []) :
    Loads m.response msg := by
  intro k n hle
  have hlen := length_responseData 0 msg []
  have hdrop : m.data.drop 8 = msg := by
    rw [hdata, responseData, List.append_nil]
    exact List.drop_left' (by simp)
  have himage := loadAt_image (m := m) (k := 8 + k) (n := n) (by
    rw [hdata, hlen, List.length_nil]
    omega)
  rw [← List.drop_drop, hdrop] at himage
  rw [← himage, loadAt, loadAt]
  refine List.map_congr_left fun i _ => ?_
  have hout : ¬ (16 ≤ 24 + (k : ℤ) + (i : ℤ) ∧ 24 + (k : ℤ) + (i : ℤ) < 24) := by omega
  show (if _ then _ else _) = _
  rw [if_neg hout]
  congr 1
  push_cast
  omega

lemma code_response {m : Received} {msg : List UInt8} (hdata : m.data = responseData 0 msg []) :
    m.code = 0 := by
  have hlen := length_responseData 0 msg []
  have himage := loadAt_image (m := m) (k := 0) (n := 4) (by
    rw [hdata, hlen]
    omega)
  have hcode : m.data.take 4 = toBE 4 0 := by
    rw [hdata, responseData, List.append_assoc, List.append_assoc]
    exact List.take_left' rfl
  rw [List.drop_zero, hcode] at himage
  rw [Received.code]
  refine Eq.trans (congrArg (fun bs => UInt32.ofNat (ofBE bs)) himage) ?_
  rw [ofBE_toBE_of_lt (by norm_num)]
  rfl

section Receive

variable {r : Response} {msg : List UInt8} {a : AddKey} {rest : List UInt8} {i base offset : ℕ}

/-- **One header**: its fields are those of the key. -/
lemma fields_wire (hr : Loads r msg) (hmsg : msg.drop (8 + keyHeaderSize * i) =
      wire base a offset ++ rest) (hshort : a.key.length < 2 ^ 31)
    (hoffset : offset + base < 2 ^ 63) :
    r.nodeType i = a.nodeType ∧ r.keyType i = a.keyType ∧ r.keyId i = a.id ∧
      (r.keyOffset i).toInt = offset + base ∧ (r.keyLen i).toInt = a.key.length ∧
      (r.keyLen i).toInt64.toUInt64.toNat = a.key.length := by
  have hlong : 8 + keyHeaderSize * i + keyHeaderSize ≤ msg.length := by
    have hlen := congrArg List.length hmsg
    rw [List.length_drop, List.length_append, length_wire] at hlen
    rw [keyHeaderSize] at hlen ⊢
    omega
  -- A field of the header is a field of the bytes that were sent for it.
  have hfield : ∀ k n, k + n ≤ keyHeaderSize →
      loadAt r.bytes (keyHeader i + (k : ℤ)) n = ((wire base a offset ++ rest).drop k).take n := by
    intro k n hle
    rw [← hmsg, List.drop_drop, ← hr _ _ (by omega)]
    congr 1
    rw [keyHeader, keyHeaderSize]
    push_cast
    omega
  have hwire : wire base a offset ++ rest = [a.nodeType, a.keyType, 0, 0] ++
      (toBE 8 (offset + base) ++ (toBE 4 a.key.length ++ (netq a.id ++
        (List.replicate 16 0 ++ rest)))) := by
    simp only [wire, List.append_assoc]
  have h4 : (wire base a offset ++ rest).drop 4 = toBE 8 (offset + base) ++
      (toBE 4 a.key.length ++ (netq a.id ++ (List.replicate 16 0 ++ rest))) := by
    rw [hwire]
    exact List.drop_left' rfl
  have h12 : (wire base a offset ++ rest).drop 12 =
      toBE 4 a.key.length ++ (netq a.id ++ (List.replicate 16 0 ++ rest)) := by
    rw [show 12 = 4 + 8 from rfl, ← List.drop_drop, h4]
    exact List.drop_left' (length_toBE _ _)
  have h16 : (wire base a offset ++ rest).drop 16 =
      netq a.id ++ (List.replicate 16 0 ++ rest) := by
    rw [show 16 = 12 + 4 from rfl, ← List.drop_drop, h12]
    exact List.drop_left' (length_toBE _ _)
  have hoffset' := hfield 4 8 (by decide)
  have hlen' := hfield 12 4 (by decide)
  have hid' := hfield 16 8 (by decide)
  rw [h4, List.take_left' (length_toBE _ _)] at hoffset'
  rw [h12, List.take_left' (length_toBE _ _)] at hlen'
  rw [h16, List.take_left' (length_netq _)] at hid'
  have hbytes := keyLen_toBE hshort
  rw [← hlen'] at hbytes
  refine ⟨?_, ?_, ?_, ?_, hbytes.1, hbytes.2⟩
  · have hnode := hfield 0 1 (by decide)
    rw [hwire] at hnode
    simpa [loadAt, Response.nodeType] using hnode
  · have htype := hfield 1 1 (by decide)
    rw [hwire] at htype
    simpa [loadAt, Response.keyType] using htype
  · rw [Response.keyId, Response.word]
    exact (congrArg ofNetq hid').trans (ofNetq_netq a.id)
  · rw [Response.keyOffset, Response.word]
    refine (congrArg (fun bs => (ofNetq bs).toInt) hoffset').trans ?_
    rw [ofNetq_toBE hoffset]
    push_cast
    rfl

/-- `msgLen`. -/
lemma length_body (hlength : r.length.toNat = 8 + msg.length) :
    (r.length - 8).toNat = msg.length := by
  have h8 : (8 : UInt64).toNat = 8 := rfl
  have hsub := toNat_sub (a := r.length) (b := 8) (by omega)
  omega

/-- **All headers**: by induction on the keys that are left, `record` is called for each. -/
lemma keysLoop_wires {as : List AddKey} (rooms : ℕ → Bool) {keys : List UInt8} (hr : Loads r msg)
    (hlength : r.length.toNat = 8 + msg.length) (hsmall : msg.length < 2 ^ 63 - 16)
    (hheaders : msg.drop (8 + keyHeaderSize * i) = wireAll base offset as ++ keys)
    (hkeys : msg.drop (offset + base) = keyBytes as)
    (hend : offset + base + (keyBytes as).length = msg.length) (hvalid : ∀ a ∈ as, a.Valid)
    (hrooms : ∀ j < as.length, rooms (i + j) = true) :
    (keysLoop rooms r as.length i).status = some .success ∧
      (keysLoop rooms r as.length i).records = as.map AddKey.record := by
  induction as generalizing i offset with
  | nil => exact ⟨rfl, rfl⟩
  | cons a as ih =>
      obtain ⟨hfirst, hrest⟩ := List.forall_mem_cons.mp hvalid
      rw [keyBytes, List.flatMap_cons] at hkeys
      rw [keyBytes, List.flatMap_cons, List.length_append] at hend
      rw [wireAll, List.append_assoc] at hheaders
      obtain ⟨hnode, htype, hid, hoffset, hlen, hsize⟩ :=
        fields_wire hr hheaders hfirst.short (by omega)
      have hkeyEnd : r.keyEnd i = offset + base + a.key.length := by
        rw [Response.keyEnd, hoffset, hlen]
      have hbad : ¬ r.BadType i := by
        rw [Response.BadType, htype, hnode]
        rintro (hbad | ⟨h1, h0⟩)
        · exact hbad hfirst.keyType
        · exact hfirst.nodeType.elim h0 h1
      have hover : ¬ r.Overflows i := by
        rw [Response.Overflows, hkeyEnd]
        omega
      have hbeyond : ¬ r.Beyond i := by
        have hbody := length_body hlength
        have hsigned : (r.length - 8).toInt64.toInt = msg.length := by
          rw [← UInt64.ofNat_toNat (x := r.length - 8), UInt64.toInt64_ofNat', hbody,
            Int64.toInt_ofNat_of_lt (by omega)]
        rw [Response.Beyond, hsigned, hkeyEnd]
        omega
      -- the other records follow behind this one, and their keys behind this key
      have hnext := @ih (i + 1) (offset + a.key.length) (by
          rw [Nat.mul_succ, ← Nat.add_assoc, ← List.drop_drop, hheaders]
          exact List.drop_left' (length_wire base a offset)) (by
          rw [show offset + a.key.length + base = offset + base + a.key.length by omega,
            ← List.drop_drop, hkeys]
          exact List.drop_left' rfl) (by rw [keyBytes]; omega) hrest (fun j hj => by
          have hroom := hrooms (j + 1) (Nat.succ_lt_succ hj)
          rwa [show i + (j + 1) = i + 1 + j by omega] at hroom)
      rw [List.length_cons, keysLoop, if_neg hbad, if_neg hover, if_neg hbeyond]
      by_cases hzero : r.keyLen i = 0
      · have hnil : a.key = [] := by
          rw [hzero] at hlen
          exact List.length_eq_zero_iff.mp (Int.ofNat_eq_zero.mp hlen.symm)
        rw [if_pos hzero]
        refine ⟨hnext.1, ?_⟩
        show _ :: (keysLoop rooms r as.length (i + 1)).records = _
        rw [hnext.2, List.map_cons, AddKey.record, hnode, htype, hid, hnil]
      · have hkey : loadAt r.bytes (r.keyRange i).1 (r.keyRange i).2 = a.key := by
          rw [Response.keyRange]
          dsimp only
          rw [hsize, hoffset]
          have hload := hr (offset + base) a.key.length (by omega)
          rw [hkeys, List.take_left' rfl] at hload
          refine Eq.trans ?_ hload
          push_cast
          rfl
        have hroom : ¬ rooms i = false := by
          have hyes := hrooms 0 (by simp)
          rw [Nat.add_zero] at hyes
          rw [hyes]
          exact Bool.true_eq_false.mp
        rw [if_neg hzero, if_neg hroom]
        refine ⟨hnext.1, ?_⟩
        show _ :: (keysLoop rooms r as.length (i + 1)).records = _
        rw [hnext.2, List.map_cons, AddKey.record, hnode, htype, hid, hkey]

end Receive

/-- `appreciateGetIdentityKeys` on the text that is sent. -/
lemma appreciate_keysText {as : List AddKey} {m : Received} {rooms : ℕ → Bool}
    (hvalid : ∀ a ∈ as, a.Valid) (hsmall : (keysText as).length < 2 ^ 63 - 16)
    (hlength : m.header.length.toNat = 8 + (keysText as).length)
    (hdata : m.data = responseData 0 (keysText as) [])
    (hrooms : ∀ j < as.length, rooms j = true) :
    (appreciateGetIdentityKeys rooms m.response).status = some .success ∧
      (appreciateGetIdentityKeys rooms m.response).records = as.map AddKey.record := by
  have hr := loads_response hdata
  have hcode : ¬ m.response.code ≠ 0 := not_not.mpr (code_response hdata)
  have hlen := length_keysText as
  rw [keyHeaderSize] at hlen
  have hnkeys : m.response.nkeys = UInt64.ofNat as.length := by
    have hload := hr 0 8 (by omega)
    rw [List.drop_zero, keysText, List.take_left' (length_toBE _ _)] at hload
    rw [Response.nkeys]
    refine (congrArg (fun bs => UInt64.ofNat (ofBE bs)) hload).trans ?_
    rw [ofBE_toBE_of_lt (by norm_num; omega)]
  have hcount : m.response.nkeys.toNat = as.length := by
    rw [hnkeys, UInt64.toNat_ofNat']
    exact Nat.mod_eq_of_lt (by omega)
  have hcheck : ¬ m.response.length - 8 < 8 + m.response.nkeys * 40 := by
    have hbody := length_body (r := m.response) hlength
    rw [UInt64.lt_iff_toNat_lt, hbody, UInt64.toNat_add, UInt64.toNat_mul, hcount]
    have h8 : (8 : UInt64).toNat = 8 := rfl
    have h40 : (40 : UInt64).toNat = 40 := rfl
    rw [h8, h40]
    omega
  have hheaders : (keysText as).drop (8 + keyHeaderSize * 0) =
      wireAll (8 + keyHeaderSize * as.length) 0 as ++ keyBytes as :=
    List.drop_left' (length_toBE _ _)
  have hkeys : (keysText as).drop (0 + (8 + keyHeaderSize * as.length)) = keyBytes as := by
    rw [Nat.zero_add, ← List.drop_drop, keysText, List.drop_left' (length_toBE _ _)]
    exact List.drop_left' (length_wireAll _ _ _)
  have hloop := keysLoop_wires rooms hr hlength hsmall hheaders hkeys
    (by rw [keyHeaderSize]; omega) hvalid (fun j hj => by rw [Nat.zero_add]; exact hrooms j hj)
  rw [appreciateGetIdentityKeys, if_neg hcode]
  dsimp only
  rw [if_neg hcheck, hcount]
  exact hloop

/-- **Every key comes through**: where all calls of `addKey` succeed and `replyGetIdentityKeys`
has memory, it sends a response on which the other side, with memory for the keys, calls `record`
once for each key, in order, and returns success. -/
theorem getIdentityKeys_roundTrips (as : List AddKey) (g : Grant) (msg : List UInt8)
    (hadded : ∀ s ∈ (addKeys as .new).1, s = Status.success)
    (hmsg : replyText g (addKeys as .new).2 = some msg) :
    Encodes (replyGetIdentityKeys g (addKeys as .new).2) (frame (responseMsg 0 msg [])) ∧
      ∀ (m : Received) (rooms : ℕ → Bool),
        m.header = ⟨MsgType.response, UInt64.ofNat (responseMsg 0 msg []).data.length⟩ →
        m.data = (responseMsg 0 msg []).data → (∀ i < as.length, rooms i = true) →
        (appreciateGetIdentityKeys rooms m.response).status = some .success ∧
          (appreciateGetIdentityKeys rooms m.response).records = as.map AddKey.record := by
  obtain ⟨rfl, hsmall, hvalid⟩ := replyText_spec hadded hmsg
  constructor
  · rw [replyGetIdentityKeys, hmsg, Option.elim_some]
    apply encodes_sendResponse
    rw [List.length_nil]
    omega
  · intro m rooms hheader hdata hrooms
    refine appreciate_keysText hvalid hsmall ?_ hdata hrooms
    have hlen := length_responseData 0 (keysText as) []
    rw [List.length_nil, Nat.add_zero] at hlen
    rw [hheader, responseMsg, hlen, UInt64.toNat_ofNat']
    exact Nat.mod_eq_of_lt (by omega)

/-- An allocator with memory. -/
def plenty : Grant := ⟨true, fun _ => 0⟩

/-- An empty key of an application, and the key `k` of a memory node. -/
def twoKeys : List AddKey := [⟨0, 0, [], 7, plenty, plenty⟩, ⟨1, 0, [0x6B], 0, plenty, plenty⟩]

/-- Both keys come through. -/
theorem getIdentityKeys_roundTrips_two :
    ∃ msg, replyText plenty (addKeys twoKeys .new).2 = some msg ∧
      (appreciateGetIdentityKeys (fun _ => true)
        (⟨0, ⟨MsgType.response, UInt64.ofNat (responseMsg 0 msg []).data.length⟩,
          (responseMsg 0 msg []).data, fun _ => 0⟩ : Received).response).records =
        twoKeys.map AddKey.record := by
  have hsome : (replyText plenty (addKeys twoKeys .new).2).isSome = true := by decide +kernel
  obtain ⟨msg, hmsg⟩ := Option.isSome_iff_exists.mp hsome
  have htrip := getIdentityKeys_roundTrips twoKeys plenty msg (by decide +kernel) hmsg
  exact ⟨msg, hmsg, (htrip.2 _ _ rfl rfl fun _ _ => rfl).2⟩

end Monkey.MsgBuffer
