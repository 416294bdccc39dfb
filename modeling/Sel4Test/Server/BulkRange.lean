import Sel4Test.Server.Bulk

/-!
The range check of a bulk request.

The check lets a range pass whose 32-bit sum has wrapped around to a small value. Such a range
ends behind the region, and nothing that follows looks at its end again.

* `BulkSafe`: whatever the region holds, a request with this descriptor stays inside its range
  and the region, and is refused when the two disagree.
* `bulkSafe_of`: it holds unless the sum slips through the check, and for the ranges that are
  refused for their length alone.
* `bulkSafe_iff`: it holds of no other descriptor.
-/

namespace Ch0

open ByteMem Touch Hyperamp

/-! ### The range check -/

/-- A byte of the region has been read or written. -/
def Touched (t : State Buf) (x : ℕ) : Prop := .read .region x ∈ t.log ∨ .write .region x ∈ t.log

/-- Whatever the region holds and the network answers: a request with this descriptor touches
bytes of its range inside the region only, and is refused with an error and leaves the region
if the range does not lie in it. -/
def BulkSafe (d : BulkDescriptor) : Prop :=
  ∀ (env : Server.Env) (p len : ℕ) (s : State Buf), s.log = [] → bulkDescriptorSize ≤ len →
    BulkDescriptor.read (s.mem .msgBuf) p = d →
    (∀ x, Touched (ch0ProcessBulk env p len s).2 x →
      d.data ≤ x ∧ x < d.data + d.len ∧ x < ch0DataSize) ∧
    (ch0DataSize < d.data + d.len →
      (BulkDescriptor.read ((ch0ProcessBulk env p len s).2.mem .msgBuf) p).status < 0 ∧
        (ch0ProcessBulk env p len s).2.mem .region = s.mem .region)

/-- The end of the range lies behind the region, and its 32-bit sum does not. -/
def BulkDescriptor.Slips (d : BulkDescriptor) : Prop :=
  ch0DataSize < d.data + d.len ∧ (d.data + d.len) % 2 ^ 32 ≤ ch0DataSize

lemma Allowed.of_touched {lo hi p : ℕ} {c : ℕ → Prop} {t : State Buf} {x : ℕ}
    (h : ∀ e ∈ t.log, Allowed lo hi p c e) (hx : Touched t x) : lo ≤ x ∧ x < hi := by
  rcases hx with hx | hx
  · exact h _ hx
  · exact h _ hx

lemma bulkSafe_of {d : BulkDescriptor} (h : ¬ d.Slips ∨ d.TooShort) : BulkSafe d := by
  intro env p len s hlog hlen hd
  by_cases haccept : (d.data + d.len) % 2 ^ 32 ≤ ch0DataSize
  · have hrange : d.TooShort ∨ d.data + d.len ≤ ch0DataSize := by
      rcases h with h | h
      · exact .inr (not_lt.mp fun hlt => h ⟨hlt, haccept⟩)
      · exact .inl h
    obtain ⟨d', hspec⟩ := processBulk_spec (p := p) env hlen hd haccept fun _ => hrange
    obtain ⟨hserved, hread, -, -⟩ := hspec.2
    refine ⟨fun x hx => ?_, fun hout => ?_⟩
    · obtain ⟨hlo, hhi⟩ := Allowed.of_touched (hspec.log_allowed hlog) hx
      have hreach := reach_le d
      refine ⟨hlo, by omega, ?_⟩
      rcases hrange with hshort | hrange
      · rw [BulkDescriptor.reach, if_pos hshort] at hhi
        omega
      · omega
    · have hshort : d.TooShort := hrange.resolve_right (not_le.mpr hout)
      rw [hread]
      exact (hserved.of_tooShort hshort).symm
  · have hspec := processBulk_rejected env hlen hd (not_le.mp haccept)
    obtain ⟨hregion, hread, -⟩ := hspec.2
    refine ⟨fun x hx => ?_, fun _ => ⟨?_, hregion⟩⟩
    · have hnone := (Allowed.of_touched (hspec.log_allowed hlog) hx).2
      exact absurd hnone (Nat.not_lt_zero x)
    · rw [hread]
      show (-1 : Int32) < 0
      decide

/-! ### The ranges that slip through -/

section Slip

variable {d d' : BulkDescriptor} {m m' : Mem}

/-- A message that starts with a descriptor. -/
def descriptorMem (d : BulkDescriptor) : Mem :=
  store (store (store (store (fun _ => 0) 8 (toLE 4 d.serviceId.toNat))
    0 (toLE 4 d.offset.toNat)) (0 + 4) (toLE 4 d.length.toNat))
    (0 + 12) (toLE 4 d.status.toUInt32.toNat)

lemma read_descriptorMem (d : BulkDescriptor) :
    BulkDescriptor.read (descriptorMem d) 0 = d := by
  have hservice : (BulkDescriptor.read
      (store (fun _ => 0) 8 (toLE 4 d.serviceId.toNat)) 0).serviceId = d.serviceId := by
    simp only [BulkDescriptor.read, readLE_store_toLE d.serviceId.toNat_lt, UInt32.ofNat_toNat]
  rw [descriptorMem, read_setStatus, read_setLength, read_setOffset]
  show (⟨d.offset, d.length, _, d.status⟩ : BulkDescriptor) = d
  rw [hservice]

/-- The buffers before a request, nothing of them touched yet. -/
def bulkState (d : BulkDescriptor) (m : Mem) : State Buf where
  mem o := if o = .region then m else descriptorMem d
  log := []

lemma bulkState_region (d : BulkDescriptor) (m : Mem) : (bulkState d m).mem .region = m := rfl

/-- No session of the network channel is up. -/
def quietEnv : Server.Env := ⟨none, .error, .error, []⟩

lemma not_ready_quietEnv : Server.ch1IsBulkReady quietEnv.sess = true → False := by decide

lemma BulkDescriptor.Slips.len_pos (h : d.Slips) : 0 < d.len := by
  have hlt := data_lt d
  obtain ⟨hout, hmod⟩ := h
  rcases Nat.eq_zero_or_pos d.len with hzero | hpos
  · rw [hzero, Nat.add_zero] at hout hmod
    rw [Nat.mod_eq_of_lt hlt] at hmod
    omega
  · exact hpos

/-- The last byte of the range lies behind the region, with room to spare. -/
lemma BulkDescriptor.Slips.end_ge (h : d.Slips) : 2 ^ 32 ≤ d.data + d.len := by
  obtain ⟨hout, hmod⟩ := h
  by_contra hlt
  rw [Nat.mod_eq_of_lt (not_le.mp hlt)] at hmod
  omega

/-- A service that reports an error and leaves the region has refused the range. -/
lemma Served.refused_of_error (h : Served d m m' d') (hlen : 0 < d.len) (hneg : d'.status < 0)
    (hsame : m' = m) : d.Refused m := by
  cases h with
  | refused h => exact h
  | spoiled =>
      have hat := congrFun hsame d.data
      rw [mapRange_of_inside ⟨le_rfl, by omega⟩] at hat
      exact absurd hat (cipher_ne _)
  | crypt | verified | signed | validated | restored =>
      have hone : (1 : Int32) < 0 := hneg
      exact absurd hone (by decide)

/-- A safe range that slips through the check is refused for every content. -/
lemma BulkSafe.refused (h : BulkSafe d) (hslips : d.Slips) (m : Mem) : d.Refused m := by
  have hd : BulkDescriptor.read ((bulkState d m).mem .msgBuf) 0 = d := read_descriptorMem d
  obtain ⟨hneg, hsame⟩ := (h quietEnv 0 bulkDescriptorSize (bulkState d m) rfl le_rfl hd).2 hslips.1
  obtain ⟨d', hspec⟩ := processBulk_spec (s := bulkState d m) quietEnv le_rfl hd hslips.2
    fun hready => (not_ready_quietEnv hready).elim
  obtain ⟨hserved, hread, -, -⟩ := hspec.2
  rw [hread] at hneg
  exact hserved.refused_of_error hslips.len_pos hneg hsame

/-- A signed header that announces no payload. -/
def signedMem (a : ℕ) : Mem :=
  store (store (store (fun _ => 0) (a + 12) [0x30]) (a + 4) (toLE 2 64)) a (toLE 4 sigMagic)

lemma signedOk_signedMem {a n : ℕ} (h : signedHeaderSize ≤ n) : SignedOk (signedMem a) a n := by
  have hmagic : readLE (signedMem a) a 4 = sigMagic := readLE_store_toLE (by decide)
  have hsigLen : readLE (signedMem a) (a + 4) 2 = 64 := by
    rw [signedMem, readLE_store_disjoint (by simp), ← writeLE, readLE_writeLE]
    rfl
  have hpayload : payloadLen (signedMem a) a = 0 := by
    rw [payloadLen, signedMem, readLE_store_disjoint (by simp), readLE_store_disjoint (by simp),
      readLE_store_disjoint (by simp)]
    rfl
  have hsig : signedMem a (a + 12) = 0x30 := by
    rw [signedMem, store_of_outside (by simp), store_of_outside (by simp)]
    simp [store]
  exact ⟨by rw [hpayload]; exact h, hmagic, by rw [hsigLen]; decide, hsig⟩

/-! ### The places that a search reads -/

/-- A needle whose first byte nowhere occurs is looked for at every place. -/
lemma searchFrom_reads {a n i : ℕ} {s : State Buf} {b : UInt8} {bs : List UInt8}
    (hne : ∀ x, s.mem .region x ≠ b) (hi : i < n) :
    .read .region (a + i) ∈ (searchFrom .region a (b :: bs) n s).2.log := by
  induction n generalizing s a i with
  | zero => omega
  | succ n ih =>
      have hmatch : matchAt .region a (b :: bs) s =
          (false, { s with log := .read .region a :: s.log }) := by
        show (if s.mem .region a ≠ b then pure false else matchAt .region (a + 1) bs)
          { s with log := .read .region a :: s.log } = _
        rw [if_pos (hne a)]
        rfl
      have hstep : searchFrom .region a (b :: bs) (n + 1) s =
          searchFrom .region (a + 1) (b :: bs) n { s with log := .read .region a :: s.log } := by
        show (fun r : Bool × State Buf => (if r.1 = true then pure (some a)
          else searchFrom .region (a + 1) (b :: bs) n) r.2) (matchAt .region a (b :: bs) s) = _
        rw [hmatch]
        rfl
      rw [hstep]
      cases i with
      | zero =>
          have hspec := @searchFrom_spec (fun _ => True)
            { s with log := .read .region a :: s.log } (a + 1) n (b :: bs) fun _ _ _ _ => trivial
          exact hspec.log_mono List.mem_cons_self
      | succ i =>
          have hrest := ih (s := { s with log := .read .region a :: s.log }) (a := a + 1) hne
            (Nat.lt_of_succ_lt_succ hi)
          rwa [Nat.add_right_comm, Nat.add_assoc] at hrest

/-- Of five bytes and more without a quote, the last place a field may start at is read. -/
lemma validateMissionData_reads {lo hi p a n : ℕ} {c : ℕ → Prop} {s : State Buf}
    (hquote : ∀ x, s.mem .region x ≠ 0x22) (hfive : 5 ≤ n) (hlo : lo ≤ a) (hhi : a + n ≤ hi) :
    Does (Allowed lo hi p c) s (ch0ValidateMissionData a n) fun _ t =>
      Same s t ∧ .read .region (a + (n - 5)) ∈ t.log := by
  have hsearch : .read .region (a + (n - 5)) ∈
      (ch0SimpleStrstr .region a n (field [0x74, 0x73]) s).2.log := by
    have hlen : (field [0x74, 0x73]).length = 5 := by decide
    rw [ch0SimpleStrstr, hlen, if_neg (by omega)]
    exact searchFrom_reads hquote (by omega)
  have hinside : ∀ x, a ≤ x → x < a + n → Allowed lo hi p c (.read .region x) :=
    fun x hle hlt => ⟨hlo.trans hle, hlt.trans_le hhi⟩
  have hfirst := @simpleStrstr_spec (Allowed lo hi p c) s a n (field [0x74, 0x73]) fun _ => hinside
  refine Does.bind (R := fun _ t => Same s t ∧ .read .region (a + (n - 5)) ∈ t.log)
    ⟨hfirst.1, hfirst.2.1, hsearch⟩ ?_
  rintro found t ⟨ht, hread⟩
  split_ifs
  · exact Does.pure ⟨ht, hread⟩
  · refine ((checkFields_spec fun f _ _ => hinside).keep_log hread).mono ?_
    rintro r t' ⟨⟨ht', -⟩, hread'⟩
    exact ⟨ht'.trans ht, hread'⟩

lemma validateEncrypt_reads {p len : ℕ} {s : State Buf} (hlen : bulkDescriptorSize ≤ len)
    (hd : BulkDescriptor.read (s.mem .msgBuf) p = d)
    (haccept : (d.data + d.len) % 2 ^ 32 ≤ ch0DataSize) (hservice : d.service = .validateEncrypt)
    (hfive : 5 ≤ d.len) (hquote : ∀ x, s.mem .region x ≠ 0x22) :
    .read .region (d.data + (d.len - 5)) ∈ (ch0ProcessBulk quietEnv p len s).2.log := by
  have hall : ∀ (d' : BulkDescriptor) (e : Event Buf),
      Allowed d.data (d.data + d.len) p (fun _ => False) e →
        Allowed d.data (d.data + d.len) p (· = d'.len) e :=
    fun d' e he => he.mono le_rfl nofun
  -- the read is logged in the service, and what comes behind keeps the log
  suffices hdoes : ∃ d' : BulkDescriptor, Does (Allowed d.data (d.data + d.len) p (· = d'.len)) s
      (ch0ProcessBulk quietEnv p len)
      fun _ t => .read .region (d.data + (d.len - 5)) ∈ t.log by
    obtain ⟨d', hdoes⟩ := hdoes
    exact hdoes.2
  rw [ch0ProcessBulk, if_neg (not_lt.mpr hlen)]
  refine readDescriptor_spec.exists_bind hall ?_
  rintro d₀ t₁ ⟨rfl, h₁⟩
  rw [Same] at h₁
  have hcheck : ¬ (d.offset + d.length).toNat > ch0DataSize := by
    rw [toNat_add]
    exact not_lt.mpr haccept
  rw [hd, if_neg hcheck]
  have hemit : Does (Allowed d.data (d.data + d.len) p fun _ => False) t₁
      (emit (.invalidate .region d.data d.len)) fun _ t => t.mem = t₁.mem :=
    (Does.emit trivial).mono fun _ _ h => by rw [h]
  refine hemit.exists_bind hall ?_
  rintro - t₂ h₂
  have hquote₂ : ∀ x, t₂.mem .region x ≠ 0x22 := by rw [h₂, h₁]; exact hquote
  have hserve : Does (Allowed d.data (d.data + d.len) p fun _ => False) t₂
      (bulkService p d.data d) fun _ t => .read .region (d.data + (d.len - 5)) ∈ t.log := by
    rw [bulkService, hservice]
    refine (validateMissionData_reads hquote₂ hfive le_rfl le_rfl).bind ?_
    rintro r t₃ ⟨-, hread⟩
    split_ifs
    · exact (setStatus_spec.keep_log hread).mono fun _ _ h => h.2
    · refine ((mapBlock_spec le_rfl le_rfl).keep_log hread).bind ?_
      rintro - t₄ ⟨-, hread₄⟩
      exact (setStatus_spec.keep_log hread₄).mono fun _ _ h => h.2
  refine hserve.exists_bind hall ?_
  rintro - t₃ hread
  refine ⟨_, ((bulkFinish_spec quietEnv rfl fun hready => ?_).keep_log hread).mono
    fun _ _ h => h.2⟩
  exact (not_ready_quietEnv hready).elim

/-! ### Exactly the safe descriptors -/

lemma BulkSafe.tooShort (h : BulkSafe d) (hslips : d.Slips) : d.TooShort := by
  rcases h.refused hslips (signedMem d.data) with ⟨hverifies, hbad⟩ | ⟨hvalidate, -⟩
  · left
    exact ⟨hverifies, not_le.mp fun hle => hbad (signedOk_signedMem hle)⟩
  · right
    refine ⟨hvalidate, not_le.mp fun hfive => ?_⟩
    have hd : BulkDescriptor.read ((bulkState d fun _ => 0).mem .msgBuf) 0 = d :=
      read_descriptorMem d
    have hread := validateEncrypt_reads (s := bulkState d fun _ => 0) le_rfl hd hslips.2
      hvalidate hfive fun _ => (by decide : (0 : UInt8) ≠ 0x22)
    have hin := (h quietEnv 0 bulkDescriptorSize (bulkState d fun _ => 0) rfl le_rfl hd).1 _
      (.inl hread)
    have hend := hslips.end_ge
    have hsize : d.data + (d.len - 5) < 2 ^ 21 - 8192 := hin.2.2
    omega

/-- **Exactly the safe descriptors.** -/
theorem bulkSafe_iff (d : BulkDescriptor) : BulkSafe d ↔ ¬ d.Slips ∨ d.TooShort := by
  constructor
  · intro h
    by_cases hslips : d.Slips
    · exact .inr (h.tooShort hslips)
    · exact .inl hslips
  · exact bulkSafe_of

/-- Thirty-two bytes that end behind the address space, to be encrypted. -/
theorem not_bulkSafe_wrapped : ¬ BulkSafe ⟨0xFFFFFFF0, 0x20, 1, 0⟩ := by
  intro h
  have hslips : BulkDescriptor.Slips ⟨0xFFFFFFF0, 0x20, 1, 0⟩ := by
    constructor <;> decide
  exact absurd (h.tooShort hslips) (by decide)

end Slip

end Ch0
