import Sel4Test.Frontend.Effect

/-!
How `frontend_sess_send` of `front/src/frontend_api.c` cuts the caller's buffer into
segments, with the 16-bit and 32-bit fields of the source and any block size of the TX
queue.

The answers of `malloc` are an argument: the `i`-th call of `sess_msg_seg_alloc` asks for the
segment and then for its buffer. A round of the loop takes at least one byte, so the size
bounds the rounds.

* `SendInv`: after a number of rounds the new segments are the bytes taken so far, all
  of them full but the last one of the buffer.
* `segments_queued`: what is queued, and what is returned.
* `queued_eq_fragment`: with blocks of 4096 bytes these are the segments of the engine model.
-/

namespace Frontend.Fragmentation

/-! ### Segments -/

/-- `SessMsgSeg` with the type `SESS_MSG_SEG_DYNAMIC_ALLOC`: the bytes at `data`, and the two
fields that count them. -/
structure MsgSeg where
  data : List UInt8
  len : UInt16
  offset : UInt16
  deriving DecidableEq, Repr

/-- `sess_msg_seg_alloc` with the answers of its two calls of `malloc`; the buffer is not
set. -/
def sessMsgSegAlloc (len : UInt32) (mallocs : Bool × Bool) : Option MsgSeg :=
  if mallocs.1 then
    if mallocs.2 then some ⟨List.replicate len.toNat 0, len.toUInt16, 0⟩ else none
  else none

/-- `CALC_MSG_SEG_NUM`. -/
def calcMsgSegNum (dsize bsize hsize : ℕ) : ℕ :=
  if bsize ≤ hsize then 0
  else if dsize = 0 then 0
  else (dsize - 1) / (bsize - hsize) + 1

/-- The variables of the loop: `src` is what `src_ptr` points to, and `calls` counts the
calls of `sess_msg_seg_alloc`. -/
structure SendState where
  msgF2b : List MsgSeg
  totalEnqueued : UInt32
  remainingData : UInt32
  src : List UInt8
  calls : ℕ

/-- One round: on the right the loop is left. -/
def sendRound (maxPayload : UInt32) (mallocs : ℕ → Bool × Bool) (v : SendState) :
    SendState ⊕ SendState :=
  let cur := if maxPayload < v.remainingData then maxPayload else v.remainingData
  (sessMsgSegAlloc cur (mallocs v.calls)).elim (.inr v) fun seg =>
    let seg := { seg with data := v.src.take cur.toNat, len := cur.toUInt16, offset := 0 }
    .inl
      { msgF2b := v.msgF2b ++ [seg]
        totalEnqueued := v.totalEnqueued + cur
        remainingData := v.remainingData - cur
        src := v.src.drop cur.toNat
        calls := v.calls + 1 }

/-- The loop, for a number of rounds. -/
def sendLoop (maxPayload : UInt32) (mallocs : ℕ → Bool × Bool) : ℕ → SendState → Option SendState
  | 0, v => if v.remainingData = 0 then some v else none
  | rounds + 1, v =>
      if v.remainingData = 0 then some v
      else (sendRound maxPayload mallocs v).elim (sendLoop maxPayload mallocs rounds) some

/-- `(int) x`. -/
def toInt (x : UInt32) : ℤ := if x.toNat < 2 ^ 31 then x.toNat else x.toNat - 2 ^ 32

/-- `frontend_sess_send` on a session with the segments `msgF2b` in its queue: the return
code, the queue, and whether the session is linked to `queue_f2b` afterwards. A block size of
zero is that of a queue that is not initialised. -/
def frontendSessSend (blockSize : UInt16) (mallocs : ℕ → Bool × Bool)
    (data : Option (List UInt8)) (size : UInt32) (msgF2b : List MsgSeg) (linked : Bool) :
    Option (ℤ × List MsgSeg × Bool) :=
  data.elim (some (-1, msgF2b, linked)) fun data =>
    if size = 0 then some (-1, msgF2b, linked)
    else if blockSize = 0 then some (-1, msgF2b, linked)
    else if blockSize.toNat ≤ proxyMsgHdrSize then some (-1, msgF2b, linked)
    else do
      let maxPayload := blockSize.toUInt32 - UInt32.ofNat proxyMsgHdrSize
      let v ← sendLoop maxPayload mallocs size.toNat ⟨msgF2b, 0, size, data, 0⟩
      return (toInt v.totalEnqueued, v.msgF2b, linked || decide (0 < v.totalEnqueued))

/-! ### The loop -/

/-- The bytes of a list of segments. -/
def msgSegBytes (segs : List MsgSeg) : List UInt8 := segs.flatMap MsgSeg.data

/-- **The invariant of the loop**: the segments `segs` are new, and hold the bytes of the
buffer that are taken; as long as bytes remain they are all full. -/
structure SendInv (full : ℕ) (msgF2b : List MsgSeg) (data : List UInt8) (segs : List MsgSeg)
    (v : SendState) : Prop where
  queued : v.msgF2b = msgF2b ++ segs
  bytes : msgSegBytes segs = data.take v.totalEnqueued.toNat
  total_add : v.totalEnqueued.toNat + v.remainingData.toNat = data.length
  size_lt : data.length < 2 ^ 32
  src_eq : v.src = data.drop v.totalEnqueued.toNat
  fits : ∀ seg ∈ segs, seg.data.length ≤ full ∧ seg.len.toNat = seg.data.length ∧ seg.offset = 0
  count : segs.length = calcMsgSegNum v.totalEnqueued.toNat (full + proxyMsgHdrSize) proxyMsgHdrSize
  whole : v.remainingData ≠ 0 → v.totalEnqueued.toNat = segs.length * full

variable {full rounds : ℕ} {maxPayload : UInt32} {mallocs : ℕ → Bool × Bool}
  {msgF2b segs : List MsgSeg} {data : List UInt8} {v v' : SendState}

lemma calcMsgSegNum_add (hfull : 0 < full) (k : ℕ) {n : ℕ} (hpos : 0 < n) (hn : n ≤ full) :
    calcMsgSegNum (k * full + n) (full + proxyMsgHdrSize) proxyMsgHdrSize = k + 1 := by
  have hdiv : (k * full + n - 1) / full = k := by
    rw [show k * full + n - 1 = n - 1 + k * full by omega, Nat.add_mul_div_right _ _ hfull,
      Nat.div_eq_of_lt (by omega), Nat.zero_add]
  rw [calcMsgSegNum, if_neg (by omega), if_neg (by omega), Nat.add_sub_cancel, hdiv]

/-- The chunk of a round. -/
lemma chunk_toNat (hmax : maxPayload.toNat = full) :
    (if maxPayload < v.remainingData then maxPayload else v.remainingData).toNat =
      min full v.remainingData.toNat := by
  rw [← hmax]
  split_ifs with h
  · rw [UInt32.lt_iff_toNat_lt] at h
    omega
  · rw [UInt32.lt_iff_toNat_lt] at h
    omega

/-- **A round** whose allocations succeed queues one more segment. -/
lemma SendInv.round (h : SendInv full msgF2b data segs v) (hmax : maxPayload.toNat = full)
    (hfull : 0 < full) (hshort : full < 2 ^ 16) (hremains : v.remainingData ≠ 0)
    (hmallocs : mallocs v.calls = (true, true)) :
    ∃ seg v', sendRound maxPayload mallocs v = .inl v' ∧
      SendInv full msgF2b data (segs ++ [seg]) v' ∧
      v'.remainingData.toNat < v.remainingData.toNat := by
  have hcur := chunk_toNat (v := v) hmax
  rw [sendRound, sessMsgSegAlloc, hmallocs]
  generalize (if maxPayload < v.remainingData then maxPayload else v.remainingData) = cur at hcur ⊢
  have hpos : 0 < v.remainingData.toNat := by
    refine Nat.pos_of_ne_zero fun hzero => hremains ?_
    exact UInt32.toNat_inj.mp hzero
  have htotal := h.total_add
  have hle : cur.toNat ≤ v.remainingData.toNat := by omega
  have hadd : (v.totalEnqueued + cur).toNat = v.totalEnqueued.toNat + cur.toNat := by
    have hsize := h.size_lt
    rw [UInt32.toNat_add, Nat.mod_eq_of_lt (by omega)]
  -- neither sum nor difference wraps, since the chunk is no longer than what remains
  have hsub : (v.remainingData - cur).toNat = v.remainingData.toNat - cur.toNat :=
    UInt32.toNat_sub_of_le _ _ (UInt32.le_iff_toNat_le.mpr hle)
  have hlen : (v.src.take cur.toNat).length = cur.toNat := by
    rw [h.src_eq, List.length_take, List.length_drop]
    omega
  refine ⟨⟨v.src.take cur.toNat, cur.toUInt16, 0⟩, _, rfl, ?_, by rw [hsub]; omega⟩
  exact
    { queued := by rw [h.queued, List.append_assoc]
      bytes := by
        rw [msgSegBytes, List.flatMap_append, ← msgSegBytes, h.bytes, hadd, h.src_eq]
        simp [List.take_add]
      total_add := by
        rw [hadd, hsub]
        omega
      size_lt := h.size_lt
      src_eq := by rw [h.src_eq, hadd, List.drop_drop]
      fits := by
        intro seg hseg
        rcases List.mem_append.mp hseg with hseg | hseg
        · exact h.fits seg hseg
        · obtain rfl := List.mem_singleton.mp hseg
          refine ⟨by rw [hlen]; omega, ?_, rfl⟩
          rw [hlen, UInt32.toNat_toUInt16, Nat.mod_eq_of_lt (by omega)]
      count := by
        rw [hadd, h.whole hremains, calcMsgSegNum_add hfull _ (by omega) (by omega)]
        simp
      whole := by
        intro hleft
        have hpos' : 0 < (v.remainingData - cur).toNat :=
          Nat.pos_of_ne_zero fun hzero => hleft (UInt32.toNat_inj.mp hzero)
        rw [hsub] at hpos'
        rw [hadd, h.whole hremains, List.length_append, List.length_singleton, Nat.add_mul]
        omega }

lemma sessMsgSegAlloc_none {len : UInt32} {answers : Bool × Bool} (h : answers ≠ (true, true)) :
    sessMsgSegAlloc len answers = none := by
  rw [sessMsgSegAlloc]
  split_ifs with h₁ h₂
  · exact absurd (Prod.ext h₁ h₂) h
  · rfl
  · rfl

/-- **The loop** ends, with all bytes taken or before a failed allocation. -/
lemma sendLoop_spec (mallocs : ℕ → Bool × Bool) (h : SendInv full msgF2b data segs v)
    (hmax : maxPayload.toNat = full)
    (hfull : 0 < full) (hshort : full < 2 ^ 16) (hrounds : v.remainingData.toNat ≤ rounds) :
    ∃ segs' v', sendLoop maxPayload mallocs rounds v = some v' ∧
      SendInv full msgF2b data segs' v' ∧
      (v'.remainingData = 0 ∨ mallocs v'.calls ≠ (true, true)) := by
  induction rounds generalizing segs v with
  | zero =>
      have hzero : v.remainingData = 0 := UInt32.toNat_inj.mp (Nat.le_zero.mp hrounds)
      exact ⟨segs, v, by rw [sendLoop, if_pos hzero], h, .inl hzero⟩
  | succ rounds ih =>
      rw [sendLoop]
      by_cases hzero : v.remainingData = 0
      · exact ⟨segs, v, by rw [if_pos hzero], h, .inl hzero⟩
      · rw [if_neg hzero]
        by_cases hmallocs : mallocs v.calls = (true, true)
        · obtain ⟨seg, v', hround, hinv, hless⟩ := h.round hmax hfull hshort hzero hmallocs
          rw [hround]
          exact ih hinv (by omega)
        · refine ⟨segs, v, ?_, h, .inr hmallocs⟩
          rw [sendRound, sessMsgSegAlloc_none hmallocs]
          rfl

/-! ### What is queued -/

lemma maxPayload_toNat {blockSize : UInt16} (hblock : proxyMsgHdrSize < blockSize.toNat) :
    (blockSize.toUInt32 - UInt32.ofNat proxyMsgHdrSize).toNat =
      blockSize.toNat - proxyMsgHdrSize := by
  rw [UInt32.toNat_sub_of_le, UInt16.toNat_toUInt32]
  · rfl
  · rw [UInt32.le_iff_toNat_le, UInt16.toNat_toUInt32]
    exact hblock.le

/-- With data and room for it the function runs the loop. -/
lemma frontendSessSend_spec (mallocs : ℕ → Bool × Bool) {blockSize : UInt16} {size : UInt32}
    (hsize : data.length = size.toNat) (hzero : size ≠ 0)
    (hblock : proxyMsgHdrSize < blockSize.toNat) (msgF2b : List MsgSeg) (linked : Bool) :
    ∃ segs v,
      frontendSessSend blockSize mallocs (some data) size msgF2b linked =
        some (toInt v.totalEnqueued, v.msgF2b, linked || decide (0 < v.totalEnqueued)) ∧
      sendLoop (blockSize.toUInt32 - UInt32.ofNat proxyMsgHdrSize) mallocs size.toNat
        ⟨msgF2b, 0, size, data, 0⟩ = some v ∧
      SendInv (blockSize.toNat - proxyMsgHdrSize) msgF2b data segs v ∧
      (v.remainingData = 0 ∨ mallocs v.calls ≠ (true, true)) := by
  have hset : blockSize ≠ 0 := by
    rintro rfl
    exact absurd hblock (Nat.not_lt_zero _)
  have hshort : blockSize.toNat - proxyMsgHdrSize < 2 ^ 16 :=
    (Nat.sub_le _ _).trans_lt blockSize.toNat_lt
  have hstart : SendInv (blockSize.toNat - proxyMsgHdrSize) msgF2b data []
      ⟨msgF2b, 0, size, data, 0⟩ :=
    { queued := by simp
      bytes := rfl
      total_add := by
        rw [hsize]
        exact Nat.zero_add _
      size_lt := by
        rw [hsize]
        exact size.toNat_lt
      src_eq := rfl
      fits := by simp
      count := by simp [calcMsgSegNum]
      whole := by simp }
  obtain ⟨segs, v, hloop, hinv, hleft⟩ := sendLoop_spec mallocs hstart
    (maxPayload_toNat hblock) (by omega) hshort le_rfl
  refine ⟨segs, v, ?_, hloop, hinv, hleft⟩
  rw [frontendSessSend, Option.elim_some, if_neg hzero, if_neg hset, if_neg (by omega)]
  dsimp only
  rw [hloop]
  rfl

/-- **The segments of a buffer.** What `frontend_sess_send` queues after the segments that are
there are the first `total` bytes of the buffer, in segments that fit a block together with
the proxy header, as many as `CALC_MSG_SEG_NUM` says for `total` bytes; `total` is what
is returned, and the whole size if no allocation fails. Without data or without room for it
in a block the queue stays as it is. -/
theorem segments_queued (blockSize : UInt16) (mallocs : ℕ → Bool × Bool) (data : List UInt8)
    (size : UInt32) (hsize : data.length = size.toNat) (msgF2b : List MsgSeg) (linked : Bool) :
    if size = 0 ∨ blockSize.toNat ≤ proxyMsgHdrSize then
      frontendSessSend blockSize mallocs (some data) size msgF2b linked = some (-1, msgF2b, linked)
    else ∃ (total : ℕ) (segs : List MsgSeg) (ret : ℤ),
      frontendSessSend blockSize mallocs (some data) size msgF2b linked =
        some (ret, msgF2b ++ segs, linked || decide (0 < total)) ∧
      (total < 2 ^ 31 → ret = total) ∧ total ≤ data.length ∧
      msgSegBytes segs = data.take total ∧
      (∀ seg ∈ segs, proxyMsgHdrSize + seg.data.length ≤ blockSize.toNat ∧
        seg.len.toNat = seg.data.length ∧ seg.offset = 0) ∧
      segs.length = calcMsgSegNum total blockSize.toNat proxyMsgHdrSize ∧
      ((∀ i, mallocs i = (true, true)) → total = data.length) := by
  split_ifs with hinvalid
  · rw [frontendSessSend, Option.elim_some]
    rcases hinvalid with rfl | hblock
    · rw [if_pos rfl]
    · split_ifs <;> rfl
  · obtain ⟨hzero, hblock⟩ := not_or.mp hinvalid
    have hblock : proxyMsgHdrSize < blockSize.toNat := Nat.lt_of_not_le hblock
    obtain ⟨segs, v, hsend, -, hinv, hleft⟩ :=
      frontendSessSend_spec mallocs hsize hzero hblock msgF2b linked
    have htotal := hinv.total_add
    refine ⟨v.totalEnqueued.toNat, segs, toInt v.totalEnqueued, ?_, ?_, by omega, hinv.bytes,
      ?_, ?_, ?_⟩
    · rw [hsend, hinv.queued]
      rfl
    · intro hlt
      rw [toInt, if_pos hlt]
    · intro seg hseg
      obtain ⟨hlen, hfield, hoffset⟩ := hinv.fits seg hseg
      exact ⟨by omega, hfield, hoffset⟩
    · rw [hinv.count, Nat.sub_add_cancel hblock.le]
    · intro hall
      rcases hleft with hdone | hfailed
      · rw [hdone] at htotal
        exact htotal
      · exact absurd (hall _) hfailed

/-- Nine bytes go into two segments of a queue with 16-byte blocks. -/
theorem segments_queued_nine :
    ∃ (total : ℕ) (segs : List MsgSeg) (ret : ℤ),
      frontendSessSend 16 (fun _ => (true, true)) (some [1, 2, 3, 4, 5, 6, 7, 8, 9]) 9 [] false =
        some (ret, [] ++ segs, false || decide (0 < total)) ∧
      segs.length = calcMsgSegNum total 16 proxyMsgHdrSize ∧ total = 9 := by
  have h := segments_queued 16 (fun _ => (true, true)) [1, 2, 3, 4, 5, 6, 7, 8, 9] 9 rfl [] false
  rw [if_neg (by decide)] at h
  obtain ⟨total, segs, ret, hsend, -, -, -, -, hcount, hall⟩ := h
  exact ⟨total, segs, ret, hsend, hcount, hall fun _ => rfl⟩

/-- When the second of two allocations fails there is one segment, and `CALC_MSG_SEG_NUM` of
the size is two. -/
theorem partial_send_one_segment :
    ∃ seg, frontendSessSend 16 (fun i => (decide (i = 0), true))
        (some [1, 2, 3, 4, 5, 6, 7, 8, 9]) 9 [] false = some (8, [seg], true) ∧
      calcMsgSegNum 9 16 proxyMsgHdrSize = 2 :=
  ⟨⟨[1, 2, 3, 4, 5, 6, 7, 8], 8, 0⟩, by decide +kernel, rfl⟩

/-! ### The engine model -/

/-- The segment without its length field. -/
def MsgSeg.toSessMsgSeg (seg : MsgSeg) : SessMsgSeg := ⟨seg.data, seg.offset.toNat⟩

/-- The two allocations of the `i`-th segment. -/
def bothSucceed (mallocs : ℕ → Bool × Bool) (i : ℕ) : Bool := decide (mallocs i = (true, true))

/-- Taking more bytes than there are. -/
lemma take_drop_min {l : List UInt8} {n k : ℕ} (hk : k = min n l.length) :
    l.take k = l.take n ∧ l.drop k = l.drop n := by
  rcases le_total n l.length with hle | hle
  · rw [hk, min_eq_left hle]
    exact ⟨rfl, rfl⟩
  · rw [hk, min_eq_right hle, List.take_length, List.drop_length, List.take_of_length_le hle,
      List.drop_of_length_le hle]
    exact ⟨rfl, rfl⟩

lemma sendLoop_fragment (hmax : maxPayload.toNat = maxPayloadPerSeg)
    (hsrc : v.src.length = v.remainingData.toNat)
    (hloop : sendLoop maxPayload mallocs rounds v = some v') :
    v'.msgF2b.map MsgSeg.toSessMsgSeg = v.msgF2b.map MsgSeg.toSessMsgSeg ++
      fragment (bothSucceed mallocs) v.calls rounds v.src := by
  induction rounds generalizing v with
  | zero =>
      rw [sendLoop] at hloop
      split_ifs at hloop with hzero
      obtain rfl := Option.some.inj hloop
      simp [fragment]
  | succ rounds ih =>
      rw [sendLoop] at hloop
      split_ifs at hloop with hzero
      · obtain rfl := Option.some.inj hloop
        rw [hzero] at hsrc
        rw [List.length_eq_zero_iff.mp hsrc]
        simp [fragment]
      · have hcur := chunk_toNat (v := v) hmax
        obtain ⟨b, bs, hbs⟩ := List.exists_cons_of_ne_nil (l := v.src) (by
          intro hnil
          rw [hnil] at hsrc
          exact hzero (UInt32.toNat_inj.mp hsrc.symm))
        by_cases hmallocs : mallocs v.calls = (true, true)
        · rw [sendRound, sessMsgSegAlloc, hmallocs] at hloop
          generalize (if maxPayload < v.remainingData then maxPayload else v.remainingData) = cur
            at hcur hloop
          have hchunk := take_drop_min (l := v.src) (hcur.trans (by rw [hsrc]))
          have hle : cur.toNat ≤ v.remainingData.toNat := by omega
          have hsub : (v.remainingData - cur).toNat = v.remainingData.toNat - cur.toNat :=
            UInt32.toNat_sub_of_le _ _ (UInt32.le_iff_toNat_le.mpr hle)
          have hrest : (v.src.drop cur.toNat).length = (v.remainingData - cur).toNat := by
            rw [List.length_drop, hsrc, hsub]
          have hqueue := ih (v := ⟨_, v.totalEnqueued + cur, _, _, v.calls + 1⟩) hrest hloop
          rw [hqueue, List.map_append, List.append_assoc, hchunk.1, hchunk.2, hbs, fragment,
            if_pos (show bothSucceed mallocs v.calls = true from decide_eq_true hmallocs)]
          rfl
        · rw [sendRound, sessMsgSegAlloc_none hmallocs] at hloop
          obtain rfl := Option.some.inj hloop
          rw [hbs, fragment,
            if_neg (show ¬ bothSucceed mallocs v.calls = true by simpa [bothSucceed] using hmallocs),
            List.append_nil]

/-- **With blocks of 4096 bytes** the segments are those of the engine model. -/
theorem queued_eq_fragment {data : List UInt8} {size : UInt32} (hsize : data.length = size.toNat)
    (hdata : data ≠ []) (linked : Bool) :
    ∃ ret queue linked', frontendSessSend 4096 mallocs (some data) size msgF2b linked =
        some (ret, queue, linked') ∧
      queue.map MsgSeg.toSessMsgSeg = msgF2b.map MsgSeg.toSessMsgSeg ++
        fragment (bothSucceed mallocs) 0 data.length data := by
  have hzero : size ≠ 0 := by
    rintro rfl
    exact hdata (List.length_eq_zero_iff.mp hsize)
  have hblock : proxyMsgHdrSize < (4096 : UInt16).toNat := by decide
  obtain ⟨segs, v, hsend, hloop, -, -⟩ :=
    frontendSessSend_spec mallocs hsize hzero hblock msgF2b linked
  refine ⟨_, _, _, hsend, ?_⟩
  rw [sendLoop_fragment (maxPayload_toNat hblock) hsize hloop, hsize]

end Frontend.Fragmentation
