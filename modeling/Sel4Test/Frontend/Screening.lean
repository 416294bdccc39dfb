import Sel4Test.Frontend.Receive

/-!
The messages that the processors refuse.

A malformed message should be refused with an error and leave the sessions alone. Of the checks
on its lengths and ids none has an effect, and what is left are the checks of the processors for
other purposes: versions, types, the length that a type has, and whether a session is there.

* `Malformed`: a payload beyond the block, a session id that no application session has, or two
  lengths that disagree.
* `Refused`: the messages that the remaining checks refuse.
* `receivesSafely_iff`: a block is received safely if and only if it is no strategy message of
  the admin session, and those checks refuse it if it is malformed.
-/

namespace Frontend.Rx

open ByteMem Touch

/-! ### What is refused -/

/-- A session id that no application session has. -/
def NoAppId (x : UInt16) : Prop := x = 0 ∨ x = 0xFFFF

/-- The payload reaches beyond the block, a message of the application has a session id of no
application session, or the inner length does not fit the outer. -/
def Malformed (buf : Mem) : Prop :=
  msgBufSize < proxyMsgHdrSize + (outerOf buf).payloadLen.toNat ∨
    match ProxyMsgType.ofCode? (outerOf buf).proxyMsgType with
    | none => False
    | some .dev | some .strgy =>
        innerHdrSize + (adminOf buf).payloadLen.toNat ≠ (outerOf buf).payloadLen.toNat
    | some .sess =>
        innerHdrSize + (sessHdrOf buf).payloadLen.toNat ≠ (outerOf buf).payloadLen.toNat
    | some .data => NoAppId (outerOf buf).frontendSessId ∨ NoAppId (outerOf buf).backendSessId
    | some .iot => iotHdrSize + (iotOf buf).payloadLen.toNat ≠ (outerOf buf).payloadLen.toNat

/-- A device or strategy message comes from the admin session on both sides. -/
def FromAdmin (buf : Mem) : Prop :=
  (outerOf buf).frontendSessId = 0 ∧ (outerOf buf).backendSessId = 0

/-- The checks of the device processor. -/
def AdminRefused (payloadLenOf : UInt16 → UInt16 → ℤ) (hdr : AdminMsgHeader) : Prop :=
  hdr.actionType ≠ actionTypeResponse ∨
    hdr.version = 1 ∧ (payloadLenOf hdr.msgType hdr.actionType = -1 ∨
      payloadLenOf hdr.msgType hdr.actionType ≠ hdr.payloadLen.toNat)

/-- Those of the session processor. -/
def SessRefused (fid : UInt16) (hdr : SessMsgHeader) (alloc : Bool) (c : Core) : Prop :=
  sessMsgAccepted hdr = false ∨
    if hdr.msgType = sessMsgCreate ∧ hdr.actionType ≠ actionTypeResponse then
      hdr.ipVersion ≠ sessIpv4Proto ∨ fid ≠ frontendHandoverSessionId ∨ alloc = false ∨
        (allocateId c.pool.idQueue).1 = 0
    else searchSess c.pool fid = none

/-- Those of the IoT processor. -/
def IotRefused (sess : IotProtoType → Bool) (msgLen : ℕ) (hdr : IotMsgHeader) : Prop :=
  match IotProtoType.ofCode? hdr.protoType with
  | none => True
  | some proto =>
      msgLen < iotHdrSize + getIotAddrLength proto ∨
        delivers proto = true ∧ hdr.payloadLen.toNat ≤ getIotAddrLength proto ∨
        sess proto = false

/-- The checks that a message does not pass, apart from the two macros. -/
def Refused (alloc : Bool) (iotSess : IotProtoType → Bool) (c : Core) (buf : Mem) : Prop :=
  match ProxyMsgType.ofCode? (outerOf buf).proxyMsgType with
  | none => True
  | some .dev => ¬ FromAdmin buf ∨ AdminRefused devMsgPayloadLen (adminOf buf)
  | some .strgy => ¬ FromAdmin buf
  | some .sess => SessRefused (outerOf buf).frontendSessId (sessHdrOf buf) alloc c
  | some .data => searchSess c.pool (outerOf buf).frontendSessId = none ∨ alloc = false
  | some .iot => IotRefused iotSess (outerOf buf).payloadLen.toNat (iotOf buf)

/-- A strategy message that the strategy processor is called for. -/
def ReachesStrgy (buf : Mem) : Prop :=
  ProxyMsgType.ofCode? (outerOf buf).proxyMsgType = some .strgy ∧ FromAdmin buf

/-- The sessions and the pool are as they were. -/
def SameSessions (c : Core) (h : Handled) : Prop :=
  ∃ c', h.core = some c' ∧ c'.heap = c.heap ∧ c'.pool = c.pool

/-- Only bytes of the block have been read; and if the message was malformed, it has been refused
with an error and the sessions are as they were. -/
structure Screened (buf : Mem) (c : Core) (h : Handled) (t : Touch.State Area) : Prop where
  reads : ∀ o a, .read o a ∈ t.log → o = .block ∧ a < msgBufSize
  refuses : Malformed buf → h.refused = true ∧ SameSessions c h

/-- A block is received safely whatever the unassigned pointer holds. -/
def ReceivesSafely (alloc : Bool) (iotSess : IotProtoType → Bool) (c : Core) (buf : Mem) : Prop :=
  ∀ (strgymsgHdr : Option (Area × ℕ)) (s : Touch.State Area), s.mem .block = buf → s.log = [] →
    Screened buf c (frontendProxyMsgProcess ⟨strgymsgHdr, alloc, iotSess⟩ c s).1
      (frontendProxyMsgProcess ⟨strgymsgHdr, alloc, iotSess⟩ c s).2

section Screening

variable {n : ℕ} {s : Touch.State Area} {c : Core} {R : Prop} {buf : Mem}

/-! ### How it is refused -/

/-- A message is refused if and only if `R`, and leaves the sessions then. -/
def Refuses (R : Prop) (c : Core) (h : Handled) : Prop :=
  (h.refused = true ↔ R) ∧ (R → h.core = some c)

lemma Refuses.error (h : R) : Refuses R c (.error c) := ⟨iff_of_true rfl h, fun _ => rfl⟩

lemma Refuses.of_not {h : Handled} (hret : h.refused = false) (hR : ¬ R) : Refuses R c h :=
  ⟨iff_of_false (by rw [hret]; exact Bool.false_ne_true) hR, fun h => absurd h hR⟩

lemma devMsgProcess_spec (hn : 4096 ≤ n) : Does (Reads n) s (frontendProxyDevMsgProcess c)
    fun h _ => Refuses (AdminRefused devMsgPayloadLen (adminOf (s.mem .block))) c h := by
  refine (readInnerHeader_spec (by rw [proxyMsgHdrSize]; omega)).bind ?_
  rintro hdr t ⟨rfl, -⟩
  rw [← AdminMsgHeader.read, ← adminOf]
  dsimp only
  split_ifs with haction hversion hlen
  · exact Does.pure (.error (.inl haction))
  · exact Does.pure ⟨iff_of_true rfl (.inr ⟨hversion, hlen⟩), fun _ => rfl⟩
  · exact Does.pure (.of_not rfl fun h => h.elim haction fun h => hlen h.2)
  · exact Does.pure (.of_not rfl fun h => h.elim haction fun h => hversion h.1)

lemma sessMsgProcess_spec {fid bid : UInt16} {alloc : Bool} (hn : 4096 ≤ n) :
    Does (Reads n) s (frontendProxySessMsgProcess fid bid alloc c) fun h _ =>
      Refuses (SessRefused fid (sessHdrOf (s.mem .block)) alloc c) c h := by
  have hpayload : sessPayload = 18 := rfl
  refine (readInnerHeader_spec (by rw [proxyMsgHdrSize]; omega)).bind ?_
  rintro hdr t ⟨rfl, -⟩
  rw [← SessMsgHeader.read, ← sessHdrOf]
  generalize sessHdrOf (s.mem .block) = hdr
  -- a response to a creation, a request for one, and anything else, which closes
  split_ifs with haccepted hcreate hresponse
  · exact Does.pure (.error (.inl haccepted))
  · have hiff : SessRefused fid hdr alloc c ↔ searchSess c.pool fid = none := by
      rw [SessRefused, if_neg fun h => h.2 hresponse]
      exact or_iff_right haccepted
    rw [sessMsgProcessActiveCreate]
    cases hsearch : searchSess c.pool fid with
    | none => exact Does.pure (.error (hiff.mpr hsearch))
    | some p =>
        refine (readByte_spec (by omega)).bind ?_
        rintro status t₁ -
        refine (readByte_spec (by omega)).bind ?_
        rintro - t₂ -
        exact Does.pure (.of_not rfl fun h => by rw [hiff, hsearch] at h; cases h)
  · have hiff : SessRefused fid hdr alloc c ↔ hdr.ipVersion ≠ sessIpv4Proto ∨
        fid ≠ frontendHandoverSessionId ∨ alloc = false ∨ (allocateId c.pool.idQueue).1 = 0 := by
      rw [SessRefused, if_pos ⟨hcreate, hresponse⟩]
      exact or_iff_right haccepted
    rw [sessMsgProcessPassiveCreate]
    split_ifs with hip hfid halloc hid
    · exact Does.pure (.error (hiff.mpr (.inl hip)))
    · exact Does.pure (.error (hiff.mpr (.inr (.inl hfid))))
    · exact Does.pure (.error (hiff.mpr (.inr (.inr (.inl halloc)))))
    · exact Does.pure (.error (hiff.mpr (.inr (.inr (.inr hid)))))
    · refine (Does.readBlock fun i hi => ?_).bind ?_
      · show sessPayload + i < n
        omega
      · rintro - t₁ -
        refine Does.pure (.of_not rfl fun h => ?_)
        rcases hiff.mp h with h | h | h | h
        · exact hip h
        · exact hfid h
        · exact halloc h
        · exact hid h
  · have hiff : SessRefused fid hdr alloc c ↔ searchSess c.pool fid = none := by
      rw [SessRefused, if_neg fun h => hcreate h.1]
      exact or_iff_right haccepted
    rw [sessMsgProcessClose]
    cases hsearch : searchSess c.pool fid with
    | none => exact Does.pure (.error (hiff.mpr hsearch))
    | some p =>
        refine (readByte_spec (by omega)).bind ?_
        rintro - t₁ -
        exact Does.pure (.of_not rfl fun h => by rw [hiff, hsearch] at h; cases h)

lemma dataMsgProsess_spec {fid : UInt16} {len : ℕ} {alloc : Bool}
    (hn : ¬ (searchSess c.pool fid = none ∨ alloc = false) → proxyMsgHdrSize + len ≤ n) :
    Does (Reads n) s (frontendProxyDataMsgProsess fid len alloc c) fun h _ =>
      Refuses (searchSess c.pool fid = none ∨ alloc = false) c h := by
  rw [frontendProxyDataMsgProsess]
  cases hsearch : searchSess c.pool fid with
  | none => exact Does.pure (.error (.inl rfl))
  | some p =>
      dsimp only
      split_ifs with halloc
      · exact Does.pure (.error (.inr halloc))
      · have hlen : proxyMsgHdrSize + len ≤ n := by
          refine hn ?_
          rw [hsearch]
          rintro (h | h)
          · cases h
          · exact halloc h
        refine (Does.readBlock fun i hi => ?_).bind ?_
        · show proxyMsgHdrSize + i < n
          omega
        · rintro data t -
          refine Does.pure (.of_not rfl fun h => ?_)
          rcases h with h | h
          · cases h
          · exact halloc h

lemma iotHandler_spec {proto : IotProtoType} {sess : Bool} (hn : 4096 ≤ n) :
    Does (Reads n) s (iotHandler proto sess proxyMsgHdrSize (proxyMsgHdrSize + iotHdrSize) c)
      fun h _ => Refuses (delivers proto = true ∧
        (iotOf (s.mem .block)).payloadLen.toNat ≤ getIotAddrLength proto ∨ sess = false) c h := by
  rw [iotHandler]
  by_cases hdelivers : delivers proto = true
  · rw [if_pos hdelivers]
    refine (readU16_spec (by rw [proxyMsgHdrSize]; omega)).bind ?_
    rintro len t ⟨rfl, -⟩
    have hlen : (ByteMem.readU16 (s.mem .block) (proxyMsgHdrSize + 8)) =
        (iotOf (s.mem .block)).payloadLen := rfl
    rw [hlen]
    split_ifs with hshort hsess
    · exact Does.pure (.error (.inl ⟨hdelivers, hshort⟩))
    · exact Does.pure (.error (.inr hsess))
    · refine (Does.readBlock fun i hi => ?_).bind ?_
      · have haddr := getIotAddrLength_le proto
        show proxyMsgHdrSize + iotHdrSize + i < n
        rw [addrInfoSize] at haddr
        rw [proxyMsgHdrSize, iotHdrSize]
        omega
      · rintro - t₁ -
        refine Does.pure (.of_not rfl fun h => ?_)
        rcases h with h | h
        · exact hshort h.2
        · exact hsess h
  · rw [if_neg hdelivers]
    split_ifs with hsess
    · exact Does.pure (.error (.inr hsess))
    · refine Does.pure (.of_not rfl fun h => ?_)
      rcases h with h | h
      · exact hdelivers h.1
      · exact hsess h

lemma iotMsgProcess_spec {iotSess : IotProtoType → Bool} {msgLen : ℕ} (hn : 4096 ≤ n) :
    Does (Reads n) s (frontendProxyIotMsgProcess iotSess msgLen c) fun h _ =>
      Refuses (IotRefused iotSess msgLen (iotOf (s.mem .block))) c h := by
  refine (readU16_spec (by rw [proxyMsgHdrSize]; omega)).bind ?_
  rintro protoType t ⟨rfl, ht⟩
  have htype : ByteMem.readU16 (s.mem .block) (proxyMsgHdrSize + 2) =
      (iotOf (s.mem .block)).protoType := rfl
  rw [htype, IotRefused]
  cases IotProtoType.ofCode? (iotOf (s.mem .block)).protoType with
  | none => exact Does.pure (.error trivial)
  | some proto =>
      dsimp only
      split_ifs with hlen
      · exact Does.pure (.error (.inl hlen))
      · refine (iotHandler_spec hn).mono ?_
        rintro h t₁ hrefuses
        rw [ht] at hrefuses
        rwa [or_iff_right hlen]

lemma Refuses.dropRet {h : Handled} (hrefuses : Refuses R c h) : Refuses R c h.dropRet := hrefuses

lemma refuses_congr {R' : Prop} (hiff : R ↔ R') {h : Handled} (hrefuses : Refuses R c h) :
    Refuses R' c h := by
  rwa [← propext hiff]

/-- **A message** is refused by the checks that are not macros, and by no other. -/
lemma msgProcess_spec (env : Env) (hn : 4096 ≤ n) (hbuf : s.mem .block = buf)
    (hstrgy : ¬ ReachesStrgy buf)
    (hdata : ¬ Refused env.alloc env.iotSess c buf →
      proxyMsgHdrSize + (outerOf buf).payloadLen.toNat ≤ n) :
    Does (Reads n) s (frontendProxyMsgProcess env c) fun h _ =>
      Refuses (Refused env.alloc env.iotSess c buf) c h := by
  refine (readProxyMsgHeader_spec (by omega)).bind ?_
  rintro hdr t ⟨rfl, ht⟩
  rw [Same] at ht
  rw [hbuf]
  have hbuf' : t.mem .block = buf := by rw [ht, hbuf]
  have hadmin : ((outerOf buf).frontendSessId ≠ 0 ∨ (outerOf buf).backendSessId ≠ 0) ↔
      ¬ FromAdmin buf := by
    rw [FromAdmin, not_and_or]
  rw [Refused] at hdata ⊢
  rw [ReachesStrgy] at hstrgy
  cases htype : ProxyMsgType.ofCode? (outerOf buf).proxyMsgType with
  | none => exact Does.pure (.error trivial)
  | some msgType =>
      rw [htype] at hdata hstrgy
      dsimp only at hdata ⊢
      rw [if_neg (by rw [proxyMsgLenValid_true]; decide)]
      -- by the type of the message: each handler refuses what it does not take
      cases msgType with
      | dev =>
          dsimp only
          split_ifs with hids
          · exact Does.pure (.error (.inl (hadmin.mp hids)))
          · refine (devMsgProcess_spec hn).bind ?_
            rintro h t₁ hrefuses
            rw [hbuf'] at hrefuses
            refine Does.pure (refuses_congr ?_ hrefuses.dropRet)
            rw [or_iff_right (fun h => hids (hadmin.mpr h))]
      | strgy =>
          dsimp only
          split_ifs with hids
          · exact Does.pure (.error (hadmin.mp hids))
          · exact absurd ⟨rfl, not_not.mp fun h => hids (hadmin.mpr h)⟩ hstrgy
      | sess =>
          refine (sessMsgProcess_spec hn).bind ?_
          rintro h t₁ hrefuses
          rw [hbuf'] at hrefuses
          exact Does.pure hrefuses.dropRet
      | data =>
          dsimp only at hdata ⊢
          rw [if_neg (by rw [appSessionIdValid_true, appSessionIdValid_true]; decide)]
          refine (dataMsgProsess_spec hdata).bind ?_
          rintro h t₁ hrefuses
          exact Does.pure hrefuses.dropRet
      | iot =>
          refine (iotMsgProcess_spec hn).bind ?_
          rintro h t₁ hrefuses
          rw [hbuf'] at hrefuses
          exact Does.pure hrefuses.dropRet

/-- The strategy processor reads what its pointer happens to point at. -/
lemma strgyMsgProcess_reads {o : Area} {a : ℕ} :
    Does (fun _ => True) s (frontendProxyStrgyMsgProcess (some (o, a)) c) fun _ t =>
      .read o a ∈ t.log := by
  have hfirst : Does (fun _ => True) s (readU16 o a) fun _ t => .read o a ∈ t.log :=
    ⟨readU16_does.1, (mem_log_readBlock Nat.zero_lt_two : .read o a ∈ (Touch.readBlock o a 2 s).2.log)⟩
  have hhdr : Does (fun _ => True) s (readInnerHeader AdminMsgHeader.mk o a) fun _ t =>
      .read o a ∈ t.log := by
    refine hfirst.bind ?_
    rintro v t₁ h₁
    refine (readU16_does.keep_log h₁).bind ?_
    rintro v t₂ ⟨-, h₂⟩
    refine (readU16_does.keep_log h₂).bind ?_
    rintro v t₃ ⟨-, h₃⟩
    refine (readU16_does.keep_log h₃).bind ?_
    rintro v t₄ ⟨-, h₄⟩
    refine (readU16_does.keep_log h₄).bind ?_
    rintro v t₅ ⟨-, h₅⟩
    exact Does.pure h₅
  refine hhdr.bind ?_
  rintro hdr t hread
  dsimp only
  split_ifs
  · exact Does.pure hread
  · exact Does.pure hread
  · exact Does.pure hread
  · exact Does.pure hread

lemma strgy_reads (env : Env) (hbuf : s.mem .block = buf) (hstrgy : ReachesStrgy buf)
    (hptr : env.strgymsgHdr = some (.elsewhere, 0)) :
    .read .elsewhere 0 ∈ (frontendProxyMsgProcess env c s).2.log := by
  suffices h : Does (fun _ => True) s (frontendProxyMsgProcess env c) fun _ t =>
      .read .elsewhere 0 ∈ t.log from h.2
  refine ((readProxyMsgHeader_spec le_rfl).weaken fun _ _ => trivial).bind ?_
  rintro hdr t ⟨rfl, -⟩
  have hids : ¬ ((outerOf buf).frontendSessId ≠ 0 ∨ (outerOf buf).backendSessId ≠ 0) := by
    rw [not_or, not_not, not_not]
    exact hstrgy.2
  rw [hbuf, hstrgy.1]
  dsimp only
  rw [if_neg (by rw [proxyMsgLenValid_true]; decide), if_neg hids, hptr]
  refine strgyMsgProcess_reads.bind ?_
  rintro h t₁ hread
  exact Does.pure hread

/-- A strategy message of the admin session is read through an unassigned pointer. -/
lemma ReceivesSafely.not_strgy {alloc : Bool} {iotSess : IotProtoType → Bool}
    (h : ReceivesSafely alloc iotSess c buf) : ¬ ReachesStrgy buf := by
  intro hstrgy
  have hreads := (h (some (.elsewhere, 0)) ⟨fun _ => buf, []⟩ rfl rfl).reads _ _
    (strgy_reads _ rfl hstrgy rfl)
  cases hreads.1

/-- A malformed message that is received safely is refused by one of the checks. -/
lemma ReceivesSafely.refused {alloc : Bool} {iotSess : IotProtoType → Bool}
    (h : ReceivesSafely alloc iotSess c buf) (hbad : Malformed buf) :
    Refused alloc iotSess c buf := by
  have hrefused := ((h none ⟨fun _ => buf, []⟩ rfl rfl).refuses hbad).1
  have hlen : proxyMsgHdrSize + (outerOf buf).payloadLen.toNat ≤
      4096 + (outerOf buf).payloadLen.toNat := Nat.add_le_add_right (by decide) _
  have hspec := msgProcess_spec (s := ⟨fun _ => buf, []⟩) (c := c) ⟨none, alloc, iotSess⟩
    (Nat.le_add_right _ _) rfl h.not_strgy fun _ => hlen
  exact hspec.2.1.mp hrefused

lemma receivesSafely_of {alloc : Bool} {iotSess : IotProtoType → Bool}
    (hstrgy : ¬ ReachesStrgy buf) (hbad : Malformed buf → Refused alloc iotSess c buf) :
    ReceivesSafely alloc iotSess c buf := by
  intro strgymsgHdr s hbuf hlog
  have hspec := msgProcess_spec (n := 4096) (c := c) ⟨strgymsgHdr, alloc, iotSess⟩ le_rfl hbuf
    hstrgy fun h => by
      by_contra hlen
      exact h (hbad (.inl (not_le.mp hlen)))
  refine ⟨fun o a hread => ?_, fun hmal => ?_⟩
  · have hin := hspec.log_allowed hlog _ hread
    cases o with
    | block => exact ⟨rfl, hin⟩
    | elsewhere => exact hin.elim
  · have hrefused := hbad hmal
    exact ⟨hspec.2.1.mpr hrefused, c, hspec.2.2 hrefused, rfl, rfl⟩

/-- **The blocks that are received safely.** -/
theorem receivesSafely_iff (alloc : Bool) (iotSess : IotProtoType → Bool) (c : Core) (buf : Mem) :
    ReceivesSafely alloc iotSess c buf ↔
      ¬ ReachesStrgy buf ∧ (Malformed buf → Refused alloc iotSess c buf) :=
  ⟨fun h => ⟨h.not_strgy, h.refused⟩, fun h => receivesSafely_of h.1 h.2⟩

/-- A session with id 5. -/
def oneSession : Core where
  heap p := if p = 0 then some ⟨some .connected, 4, 5, 7, fun _ => false, fun _ => some []⟩ else none
  nextPtr := 1
  pool := { initPool with htable := [(5, 0)], sessNum := 1 }
  engineOps := true
  log := []

/-- A DATA message for it with a payload of 65535 bytes. -/
def longData : Mem := store (fun _ => 0) 0 [1, 3, 5, 0, 7, 0, 0xFF, 0xFF]

theorem not_receivesSafely_longData :
    ¬ ReceivesSafely true (fun _ => false) oneSession longData := by
  intro h
  have hmal : Malformed longData := .inl (by decide)
  have hrefused := h.refused hmal
  have htype : ProxyMsgType.ofCode? (outerOf longData).proxyMsgType = some .data := by decide
  rw [Refused, htype] at hrefused
  exact absurd hrefused (by decide)

end Screening

end Frontend.Rx
