import Sel4Test.Lib.Search
import Sel4Test.Server.Ch0

/-!
What a bulk request of the cipher channel does.

A request carries a descriptor of a range of the data region, and the check compares the 32-bit
sum of its offset and length with the size of the region. The specifications here bound what
each part touches by the range itself, without wraparound, and say what it leaves in the region
and in the descriptor.

* `Allowed`: the accesses that a range permits.
* `verifySignedData_spec`, `validateMissionData_spec`: the two tests of a content, with the
  properties they decide (`SignedOk`, `MissionOk`).
* `contents_tested`: both tests, and the search under the second, stay within the given length.
* `bulkService_spec`: a service takes the region and the descriptor through one case of
  `Served`.
* `processBulk_spec`, `processBulk_rejected`: a whole request, accepted and rejected.
-/

namespace Ch0

open ByteMem Touch Hyperamp Search

/-! ### The cipher -/

lemma cipher_ne (b : UInt8) : cipher b ≠ b := by
  intro h
  have hxor : b ^^^ (b ^^^ 0x5A) = b ^^^ b := congrArg (b ^^^ ·) h
  rw [← UInt8.xor_assoc, UInt8.xor_self, UInt8.zero_xor] at hxor
  exact absurd hxor (by decide)

lemma cipher_involutive : Function.Involutive cipher := by
  intro b
  rw [cipher, cipher, UInt8.xor_assoc, UInt8.xor_self, UInt8.xor_zero]

/-! ### The descriptor in the message -/

section Descriptor

variable {m m' : Mem} {p : ℕ}

lemma BulkDescriptor.read_of_load_eq {p' : ℕ} (h : load m p 16 = load m' p' 16) :
    BulkDescriptor.read m p = BulkDescriptor.read m' p' := by
  have h0 : readLE m p 4 = readLE m' p' 4 := by
    rw [← Nat.add_zero p, ← Nat.add_zero p']
    exact readLE_of_load_eq h (by norm_num)
  rw [BulkDescriptor.read, BulkDescriptor.read, h0, readLE_of_load_eq h (by norm_num),
    readLE_of_load_eq h (by norm_num), readLE_of_load_eq h (by norm_num)]

lemma readLE_store_toLE {a v : ℕ} (hv : v < 2 ^ 32) : readLE (store m a (toLE 4 v)) a 4 = v := by
  have h := readLE_writeLE m a 4 v
  rw [writeLE] at h
  rw [h]
  exact Nat.mod_eq_of_lt (by norm_num at hv ⊢; exact hv)

lemma readLE_store_toLE_ne {a b v : ℕ} (h : a + 4 ≤ b ∨ b + 4 ≤ a) :
    readLE (store m b (toLE 4 v)) a 4 = readLE m a 4 :=
  readLE_store_disjoint (by simpa using h)

lemma read_setOffset (v : UInt32) : BulkDescriptor.read (store m p (toLE 4 v.toNat)) p =
    { BulkDescriptor.read m p with offset := v } := by
  simp (disch := omega) only [BulkDescriptor.read, readLE_store_toLE v.toNat_lt,
    readLE_store_toLE_ne, UInt32.ofNat_toNat]

lemma read_setLength (v : UInt32) : BulkDescriptor.read (store m (p + 4) (toLE 4 v.toNat)) p =
    { BulkDescriptor.read m p with length := v } := by
  simp (disch := omega) only [BulkDescriptor.read, readLE_store_toLE v.toNat_lt,
    readLE_store_toLE_ne, UInt32.ofNat_toNat]

lemma read_setStatus (v : Int32) :
    BulkDescriptor.read (store m (p + 12) (toLE 4 v.toUInt32.toNat)) p =
      { BulkDescriptor.read m p with status := v } := by
  simp (disch := omega) only [BulkDescriptor.read, readLE_store_toLE v.toUInt32.toNat_lt,
    readLE_store_toLE_ne, UInt32.ofNat_toNat]
  rfl

end Descriptor

/-! ### What is touched -/

/-- Bytes of the region from `lo` to `hi`, the descriptor at `p`, and bytes inside the other
buffers; a range of the region from `lo` on, of a length in `c`, is cleaned. -/
def Allowed (lo hi p : ℕ) (c : ℕ → Prop) : Event Buf → Prop
  | .read .region x | .write .region x => lo ≤ x ∧ x < hi
  | .read .msgBuf x | .write .msgBuf x => p ≤ x ∧ x < p + 16
  | .read o x | .write o x => x < o.size
  | .invalidate _ _ _ => True
  | .clean o a n => o = .region ∧ a = lo ∧ c n

lemma Allowed.mono {lo hi hi' p : ℕ} {c c' : ℕ → Prop} (hhi : hi ≤ hi') (hc : ∀ n, c n → c' n)
    {e : Event Buf} (h : Allowed lo hi p c e) : Allowed lo hi' p c' e := by
  cases e with
  | read o x | write o x =>
      cases o with
      | region => exact ⟨h.1, h.2.trans_le hhi⟩
      | _ => exact h
  | invalidate => exact h
  | clean o a n => exact ⟨h.1, h.2.1, hc n h.2.2⟩

section Parts

variable {lo hi p : ℕ} {c : ℕ → Prop} {s : State Buf}

lemma readDescriptor_spec : Does (Allowed lo hi p c) s (readDescriptor p) fun d t =>
    d = BulkDescriptor.read (s.mem .msgBuf) p ∧ Same s t := by
  have hword : ∀ {k : ℕ} {t : State Buf}, k + 4 ≤ 16 →
      Does (Allowed lo hi p c) t (readWord .msgBuf (p + k) 4) fun v t' =>
        v = readLE (t.mem .msgBuf) (p + k) 4 ∧ Same t t' := by
    intro k t hk
    refine Does.readWord fun i hi => ?_
    exact ⟨by omega, by omega⟩
  refine (hword (k := 0) (by norm_num)).bind ?_
  rintro v t₁ ⟨rfl, h₁⟩
  refine (hword (k := 4) (by norm_num)).bind ?_
  rintro v t₂ ⟨rfl, h₂⟩
  refine (hword (k := 8) (by norm_num)).bind ?_
  rintro v t₃ ⟨rfl, h₃⟩
  refine (hword (k := 12) (by norm_num)).bind ?_
  rintro v t₄ ⟨rfl, h₄⟩
  rw [Same] at h₁ h₂ h₃ h₄
  refine Does.pure ⟨?_, h₄.trans (h₃.trans (h₂.trans h₁))⟩
  rw [h₃, h₂, h₁]
  rfl

/-- A field of the descriptor is written. -/
lemma writeField_spec {k v : ℕ} {d : BulkDescriptor} (hk : k + 4 ≤ 16)
    (hread : BulkDescriptor.read (store (s.mem .msgBuf) (p + k) (toLE 4 v)) p = d) :
    Does (Allowed lo hi p c) s (writeBlock .msgBuf (p + k) (toLE 4 v)) fun _ t =>
      t.mem .region = s.mem .region ∧ BulkDescriptor.read (t.mem .msgBuf) p = d := by
  refine (Does.writeBlock fun i hi => ?_).mono ?_
  · rw [length_toLE] at hi
    exact ⟨by omega, by omega⟩
  · rintro - t ht
    rw [ht, Function.update_self]
    exact ⟨Function.update_of_ne (by decide) _ _, hread⟩

lemma setStatus_spec {v : Int32} : Does (Allowed lo hi p c) s (setStatus p v) fun _ t =>
    t.mem .region = s.mem .region ∧ BulkDescriptor.read (t.mem .msgBuf) p =
      { BulkDescriptor.read (s.mem .msgBuf) p with status := v } :=
  writeField_spec (by norm_num) (read_setStatus v)

lemma setOffset_spec {v : UInt32} : Does (Allowed lo hi p c) s (setOffset p v) fun _ t =>
    t.mem .region = s.mem .region ∧ BulkDescriptor.read (t.mem .msgBuf) p =
      { BulkDescriptor.read (s.mem .msgBuf) p with offset := v } :=
  writeField_spec (k := 0) (by norm_num) (read_setOffset v)

lemma setLength_spec {v : UInt32} : Does (Allowed lo hi p c) s (setLength p v) fun _ t =>
    t.mem .region = s.mem .region ∧ BulkDescriptor.read (t.mem .msgBuf) p =
      { BulkDescriptor.read (s.mem .msgBuf) p with length := v } :=
  writeField_spec (by norm_num) (read_setLength v)

/-- The cipher on a part of the range. -/
lemma mapBlock_spec {a n : ℕ} (hlo : lo ≤ a) (hhi : a + n ≤ hi) :
    Does (Allowed lo hi p c) s (mapBlock cipher .region a n) fun _ t =>
      t.mem .region = mapRange cipher (s.mem .region) a n ∧ t.mem .msgBuf = s.mem .msgBuf := by
  refine (Does.mapBlock fun i hi => ⟨⟨by omega, by omega⟩, by omega, by omega⟩).mono ?_
  rintro - t ht
  rw [ht, Function.update_self]
  exact ⟨rfl, Function.update_of_ne (by decide) _ _⟩

end Parts

section Content

variable {P : Event Buf → Prop} {s : State Buf} {a n : ℕ} {needle : List UInt8}

/-! ### Signatures -/

/-- The payload length that a signed header announces. -/
def payloadLen (m : Mem) (a : ℕ) : ℕ := readLE m (a + 8) 4

/-- A signed header, and the payload it announces, in the `n` bytes from `a` on. -/
structure SignedOk (m : Mem) (a n : ℕ) : Prop where
  fits : signedHeaderSize + payloadLen m a ≤ n
  magic : readLE m a 4 = sigMagic
  sigLen : 64 ≤ readLE m (a + 4) 2 ∧ readLE m (a + 4) 2 ≤ 72
  sig : m (a + 12) = 0x30

lemma SignedOk.le {m : Mem} (h : SignedOk m a n) : signedHeaderSize ≤ n :=
  (Nat.le_add_right _ _).trans h.fits

/-- Nothing is read of fewer bytes than a header has. -/
lemma verifySignedData_spec
    (hreads : signedHeaderSize ≤ n → ∀ x, a ≤ x → x < a + n → P (.read .region x)) :
    Does P s (ch0VerifySignedData a n) fun r t => Same s t ∧
      (SignedOk (s.mem .region) a n ∧ r = (authOk, payloadLen (s.mem .region) a) ∨
        ¬ SignedOk (s.mem .region) a n ∧ r.1 < 0) := by
  rw [ch0VerifySignedData]
  split_ifs with hshort
  · exact Does.pure ⟨rfl, .inr ⟨fun h => absurd h.le (not_le.mpr hshort), by decide⟩⟩
  · have hread := hreads (not_lt.mp hshort)
    rw [signedHeaderSize] at hshort
    have hword : ∀ {k w : ℕ} {t : State Buf}, k + w ≤ 84 →
        Does P t (readWord .region (a + k) w) fun v t' =>
          v = readLE (t.mem .region) (a + k) w ∧ Same t t' := by
      intro k w t hk
      exact Does.readWord fun i hi => hread _ (by omega) (by omega)
    -- the fields of the header, each read only if those before it were right
    refine (hword (k := 0) (by norm_num)).bind ?_
    rintro magic t₁ ⟨rfl, h₁⟩
    split_ifs with hmagic
    · exact Does.pure ⟨h₁, .inr ⟨fun h => hmagic h.magic, by decide⟩⟩
    refine (hword (k := 4) (by norm_num)).bind ?_
    rintro sigLen t₂ ⟨rfl, h₂⟩
    rw [Same] at h₁ h₂
    rw [h₁]
    split_ifs with hsigLen
    · exact Does.pure ⟨h₂.trans h₁, .inr ⟨fun h => by
        rcases hsigLen with hlt | hlt
        · exact absurd h.sigLen.1 (not_le.mpr hlt)
        · exact absurd h.sigLen.2 (not_le.mpr hlt), by decide⟩⟩
    refine (hword (k := 8) (by norm_num)).bind ?_
    rintro len t₃ ⟨rfl, h₃⟩
    rw [Same] at h₃
    rw [h₂, h₁]
    split_ifs with hlen
    · exact Does.pure ⟨h₃.trans (h₂.trans h₁),
        .inr ⟨fun h => absurd h.fits (not_le.mpr hlen), by decide⟩⟩
    refine (Does.readByte (hread _ (by omega) (by omega))).bind ?_
    rintro sig t₄ ⟨rfl, rfl⟩
    rw [h₃, h₂, h₁]
    split_ifs with hsig
    · exact Does.pure ⟨rfl, .inr ⟨fun h => hsig h.sig, by decide⟩⟩
    · push Not at hmagic hsigLen hsig
      exact Does.pure ⟨rfl,
        .inl ⟨⟨not_lt.mp hlen, hmagic, hsigLen, hsig⟩, rfl⟩⟩

/-! ### Fields -/

/-- All required fields occur. -/
def MissionOk (bs : List UInt8) : Prop := ∀ f ∈ requiredFields, f <:+: bs

lemma matchAt_spec (hread : ∀ x, a ≤ x → x < a + needle.length → P (.read .region x)) :
    Does P s (matchAt .region a needle) fun r t => Same s t ∧
      r = decide (load (s.mem .region) a needle.length = needle) := by
  induction needle generalizing s a with
  | nil => exact Does.pure ⟨rfl, by simp [load_zero]⟩
  | cons b bs ih =>
      rw [List.length_cons] at hread ⊢
      refine (Does.readByte (hread a le_rfl (by omega))).bind ?_
      rintro b' t ⟨rfl, rfl⟩
      split_ifs with hne
      · exact Does.pure ⟨rfl, by simp [load_succ, hne]⟩
      · refine (ih fun x hlo hhi => hread x (by omega) (by omega)).mono ?_
        rintro r t ⟨ht, rfl⟩
        refine ⟨ht, ?_⟩
        rw [load_succ, not_not.mp hne]
        simp

lemma searchFrom_spec
    (hread : 0 < n → ∀ x, a ≤ x → x + 1 < a + n + needle.length → P (.read .region x)) :
    Does P s (searchFrom .region a needle n) fun r t =>
      Same s t ∧ Found (s.mem .region) a n needle r := by
  induction n generalizing s a with
  | zero =>
      exact Does.pure ⟨rfl, .nowhere⟩
  | succ n ih =>
      have hread := hread (Nat.succ_pos n)
      refine (matchAt_spec fun x hlo hhi => hread x hlo (by omega)).bind ?_
      rintro found t ⟨ht, rfl⟩
      rw [Same] at ht
      split_ifs with hfound
      · exact Does.pure ⟨ht, .here (of_decide_eq_true hfound)⟩
      · refine (ih fun _ x hlo hhi => hread x (by omega) (by omega)).mono ?_
        rintro r t' ⟨ht', hr⟩
        rw [ht] at hr
        exact ⟨ht'.trans ht, hr.later fun heq => hfound (decide_eq_true heq)⟩

/-- Nothing is read of fewer bytes than the needle has. -/
lemma simpleStrstr_spec
    (hreads : needle.length ≤ n → ∀ x, a ≤ x → x < a + n → P (.read .region x)) :
    Does P s (ch0SimpleStrstr .region a n needle) fun r t => Same s t ∧
      (r = none ↔ ¬ needle <:+: load (s.mem .region) a n) ∧
      ∀ q, r = some q → ∃ i, i + needle.length ≤ n ∧ q = a + i ∧
        load (s.mem .region) (a + i) needle.length = needle ∧
        ∀ j < i, load (s.mem .region) (a + j) needle.length ≠ needle := by
  rw [ch0SimpleStrstr]
  split_ifs with hshort
  · refine Does.pure ⟨rfl, iff_of_true rfl fun h => ?_, ?_⟩
    · have := h.length_le
      rw [length_load] at this
      omega
    · rintro q hq
      cases hq
  · have hread := hreads (by omega)
    refine (searchFrom_spec fun _ x hlo hhi => hread x hlo (by omega)).mono ?_
    rintro r t ⟨ht, hr⟩
    refine ⟨ht, hr.infix_iff (by omega), fun q hq => ?_⟩
    obtain ⟨i, hi, rest⟩ := hr.first q hq
    exact ⟨i, by omega, rest⟩

lemma checkFields_spec {fs : List (List UInt8)}
    (hreads : ∀ f ∈ fs, f.length ≤ n → ∀ x, a ≤ x → x < a + n → P (.read .region x)) :
    Does P s (checkFields a n fs) fun r t => Same s t ∧
      ((∀ f ∈ fs, f <:+: load (s.mem .region) a n) ∧ r = validateOk ∨
        ¬ (∀ f ∈ fs, f <:+: load (s.mem .region) a n) ∧ r = validateFailedMissing) := by
  induction fs generalizing s with
  | nil => exact Does.pure ⟨rfl, .inl ⟨nofun, rfl⟩⟩
  | cons f fs ih =>
      rw [checkFields]
      refine (simpleStrstr_spec (hreads f List.mem_cons_self)).bind ?_
      rintro found t ⟨ht, hfound, -⟩
      rw [Same] at ht
      split_ifs with hnone
      · refine Does.pure ⟨ht, .inr ⟨fun h => ?_, rfl⟩⟩
        exact hfound.mp hnone (h f List.mem_cons_self)
      · refine (ih fun f hf => hreads f (List.mem_cons_of_mem _ hf)).mono ?_
        rintro r t' ⟨ht', hr⟩
        have hf : f <:+: load (s.mem .region) a n := not_not.mp fun h => hnone (hfound.mpr h)
        rw [ht] at hr
        simpa only [List.forall_mem_cons, hf, true_and] using ⟨ht'.trans ht, hr⟩

/-- The shortest field has five bytes. -/
lemma length_requiredField : ∀ f ∈ requiredFields, 5 ≤ f.length := by decide

/-- Nothing is read of fewer than five bytes. -/
lemma validateMissionData_spec
    (hreads : 5 ≤ n → ∀ x, a ≤ x → x < a + n → P (.read .region x)) :
    Does P s (ch0ValidateMissionData a n) fun r t => Same s t ∧
      (MissionOk (load (s.mem .region) a n) ∧ r = validateOk ∨
        ¬ MissionOk (load (s.mem .region) a n) ∧ r = validateFailedMissing) :=
  checkFields_spec fun f hf hle => hreads ((length_requiredField f hf).trans hle)

/-- Bytes of the region from `a` to `a + n` are read, and nothing else is done. -/
def ReadsOnly (a n : ℕ) : Event Buf → Prop
  | .read o x => o = .region ∧ a ≤ x ∧ x < a + n
  | .write _ _ => False
  | .invalidate _ _ _ => False
  | .clean _ _ _ => False

/-- **The tests of a content** read within its length: a signed content is accepted only if its
header and the payload it announces lie inside, a mission exactly if all required fields occur,
and the search finds the first place of any needle that occurs. -/
theorem contents_tested (s : State Buf) (a n : ℕ) :
    Does (ReadsOnly a n) s (ch0VerifySignedData a n) (fun r t => Same s t ∧
        (r.1 = authOk → r.2 = payloadLen (s.mem .region) a ∧ signedHeaderSize + r.2 ≤ n)) ∧
      Does (ReadsOnly a n) s (ch0ValidateMissionData a n) (fun r t => Same s t ∧
        (r = validateOk ↔ ∀ f ∈ requiredFields, f <:+: load (s.mem .region) a n)) ∧
      ∀ needle, Does (ReadsOnly a n) s (ch0SimpleStrstr .region a n needle) fun r t => Same s t ∧
        (r = none ↔ ¬ needle <:+: load (s.mem .region) a n) ∧
        ∀ q, r = some q → ∃ i, i + needle.length ≤ n ∧ q = a + i ∧
          load (s.mem .region) (a + i) needle.length = needle ∧
          ∀ j < i, load (s.mem .region) (a + j) needle.length ≠ needle := by
  have hreads : ∀ x, a ≤ x → x < a + n → ReadsOnly a n (.read .region x) :=
    fun x hlo hhi => ⟨rfl, hlo, hhi⟩
  refine ⟨?_, ?_, fun needle => simpleStrstr_spec fun _ => hreads⟩
  · refine (verifySignedData_spec fun _ => hreads).mono ?_
    rintro r t ⟨ht, ⟨hok, rfl⟩ | ⟨-, hneg⟩⟩
    · exact ⟨ht, fun _ => ⟨rfl, hok.fits⟩⟩
    · refine ⟨ht, fun h => ?_⟩
      rw [h] at hneg
      exact absurd hneg (by decide)
  · refine (validateMissionData_spec fun _ => hreads).mono ?_
    rintro r t ⟨ht, ⟨hok, rfl⟩ | ⟨hbad, rfl⟩⟩
    · exact ⟨ht, iff_of_true rfl hok⟩
    · exact ⟨ht, iff_of_false (by decide) hbad⟩

end Content

/-! ### Services -/

namespace BulkDescriptor

variable (d : BulkDescriptor)

/-- The first offset of the range. -/
def data : ℕ := d.offset.toNat

def len : ℕ := d.length.toNat

/-- The service verifies a signature. -/
def Verifies : Prop :=
  d.service = .verifyOnly ∨ d.service = .verifyEncrypt ∨ d.service = .verifyDecrypt

/-- The service refuses the range for its length alone. -/
def TooShort : Prop :=
  d.Verifies ∧ d.len < signedHeaderSize ∨ d.service = .validateEncrypt ∧ d.len < 5

instance : Decidable d.Verifies := inferInstanceAs (Decidable (_ ∨ _))

instance : Decidable d.TooShort := inferInstanceAs (Decidable (_ ∨ _))

/-- The bytes of the range that are touched. -/
def reach : ℕ := if d.TooShort then 0 else d.len

/-- The service refuses the range and leaves it. -/
def Refused (m : Mem) : Prop :=
  d.Verifies ∧ ¬ SignedOk m d.data d.len ∨
    d.service = .validateEncrypt ∧ ¬ MissionOk (load m d.data d.len)

end BulkDescriptor

/-- What a service makes of the region and the descriptor. -/
inductive Served (d : BulkDescriptor) (m : Mem) : Mem → BulkDescriptor → Prop
  | crypt (h : d.service = .encrypt ∨ d.service = .decrypt ∨ d.service = .unknown) :
      Served d m (mapRange cipher m d.data d.len) { d with status := 1 }
  | refused {status : Int32} (h : d.Refused m) (hneg : status < 0) :
      Served d m m { d with status := status }
  | verified (h : d.service = .verifyOnly) (hok : SignedOk m d.data d.len) :
      Served d m m { d with status := 1 }
  | signed (h : d.service = .verifyEncrypt ∨ d.service = .verifyDecrypt)
      (hok : SignedOk m d.data d.len) :
      Served d m (mapRange cipher m (d.data + signedHeaderSize) (payloadLen m d.data))
        { d with offset := d.offset + UInt32.ofNat signedHeaderSize,
                 length := UInt32.ofNat (payloadLen m d.data), status := 1 }
  | validated (h : d.service = .validateEncrypt) (hok : MissionOk (load m d.data d.len)) :
      Served d m (mapRange cipher m d.data d.len) { d with status := 1 }
  | restored (h : d.service = .validateDecrypt)
      (hok : MissionOk (load (mapRange cipher m d.data d.len) d.data d.len)) :
      Served d m (mapRange cipher m d.data d.len) { d with status := 1 }
  | spoiled (h : d.service = .validateDecrypt)
      (hbad : ¬ MissionOk (load (mapRange cipher m d.data d.len) d.data d.len)) :
      Served d m (mapRange cipher m d.data d.len) { d with status := validateFailedMissing }

section Service

variable {p : ℕ} {c : ℕ → Prop} {s : State Buf} {d : BulkDescriptor}

/-- The state after a service. -/
def ServedIn (d : BulkDescriptor) (m : Mem) (p : ℕ) (t : State Buf) : Prop :=
  Served d m (t.mem .region) (BulkDescriptor.read (t.mem .msgBuf) p)

lemma cryptBlock_spec (hd : BulkDescriptor.read (s.mem .msgBuf) p = d) (hreach : d.reach = d.len) :
    Does (Allowed d.data (d.data + d.reach) p c) s (mapBlock cipher .region d.data d.len)
      fun _ t => t.mem .region = mapRange cipher (s.mem .region) d.data d.len ∧
        BulkDescriptor.read (t.mem .msgBuf) p = d := by
  refine (mapBlock_spec le_rfl (by rw [hreach])).mono ?_
  rintro - t ⟨hregion, hmsg⟩
  exact ⟨hregion, by rw [hmsg, hd]⟩

/-- The status is set last. -/
lemma setStatus_served {t : State Buf} {d' : BulkDescriptor} {m : Mem} {v : Int32}
    (hd : BulkDescriptor.read (t.mem .msgBuf) p = d')
    (hserved : Served d m (t.mem .region) { d' with status := v }) :
    Does (Allowed d.data (d.data + d.reach) p c) t (setStatus p v) fun _ t' =>
      ServedIn d m p t' := by
  refine setStatus_spec.mono ?_
  rintro - t' ⟨hregion, hread⟩
  rw [ServedIn, hregion, hread, hd]
  exact hserved

lemma verify_spec (hverifies : d.Verifies) :
    Does (Allowed d.data (d.data + d.reach) p c) s (ch0VerifySignedData d.data d.len) fun r t =>
      Same s t ∧
        (SignedOk (s.mem .region) d.data d.len ∧ r = (authOk, payloadLen (s.mem .region) d.data) ∨
          ¬ SignedOk (s.mem .region) d.data d.len ∧ r.1 < 0) := by
  refine verifySignedData_spec fun hlen x hlo hhi => ⟨hlo, hhi.trans_eq ?_⟩
  rw [BulkDescriptor.reach, if_neg]
  rintro (⟨-, hshort⟩ | ⟨hvalidate, -⟩)
  · exact absurd hlen (not_le.mpr hshort)
  · rcases hverifies with h | h | h <;> rw [h] at hvalidate <;> cases hvalidate

lemma reach_eq_len (hverifies : ¬ d.Verifies) (hvalidate : d.service ≠ .validateEncrypt) :
    d.reach = d.len := by
  rw [BulkDescriptor.reach, if_neg]
  rintro (h | h)
  · exact hverifies h.1
  · exact hvalidate h.1

/-- The services that run the cipher over the range and look at nothing. -/
lemma cryptService_spec (hd : BulkDescriptor.read (s.mem .msgBuf) p = d)
    (h : d.service = .encrypt ∨ d.service = .decrypt ∨ d.service = .unknown) :
    Does (Allowed d.data (d.data + d.reach) p c) s (do
      mapBlock cipher .region d.data d.len
      setStatus p 1) fun _ t => ServedIn d (s.mem .region) p t := by
  have hreach : d.reach = d.len := by
    apply reach_eq_len
    · rintro (hv | hv | hv) <;> rcases h with h | h | h <;> rw [h] at hv <;> cases hv
    · intro hv
      rcases h with h | h | h <;> rw [h] at hv <;> cases hv
  refine (cryptBlock_spec hd hreach).bind ?_
  rintro - t ⟨hregion, hread⟩
  exact setStatus_served hread (hregion ▸ .crypt h)

/-- The services that check the signature and run the cipher over the payload. -/
lemma signedService_spec (hd : BulkDescriptor.read (s.mem .msgBuf) p = d)
    (h : d.service = .verifyEncrypt ∨ d.service = .verifyDecrypt) :
    Does (Allowed d.data (d.data + d.reach) p c) s (do
      let result ← ch0VerifySignedData d.data d.len
      if result.1 ≠ authOk then
        setStatus p result.1
      else
        mapBlock cipher .region (d.data + signedHeaderSize) result.2
        setOffset p (d.offset + UInt32.ofNat signedHeaderSize)
        setLength p (UInt32.ofNat result.2)
        setStatus p 1) fun _ t => ServedIn d (s.mem .region) p t := by
  have hverifies : d.Verifies := .inr h
  refine (verify_spec hverifies).bind ?_
  rintro r t ⟨ht, ⟨hok, rfl⟩ | ⟨hbad, hneg⟩⟩
  · rw [Same] at ht
    have hreach : d.reach = d.len := by
      rw [BulkDescriptor.reach, if_neg]
      rintro (⟨-, hshort⟩ | ⟨hvalidate, -⟩)
      · exact absurd hok.le (not_le.mpr hshort)
      · rcases h with h | h <;> rw [h] at hvalidate <;> cases hvalidate
    have hfits := hok.fits
    rw [if_neg (not_not.mpr rfl)]
    -- the payload, then the fields of the descriptor, the status last
    refine (mapBlock_spec (by omega) (by omega)).bind ?_
    rintro - t₁ ⟨hregion₁, hmsg₁⟩
    refine setOffset_spec.bind ?_
    rintro - t₂ ⟨hregion₂, hread₂⟩
    refine setLength_spec.bind ?_
    rintro - t₃ ⟨hregion₃, hread₃⟩
    rw [hread₂, hmsg₁, ht, hd] at hread₃
    refine setStatus_served hread₃ ?_
    rw [hregion₃, hregion₂, hregion₁, ht]
    exact .signed h hok
  · rw [Same] at ht
    rw [if_pos fun heq => absurd (heq ▸ hneg) (by decide)]
    refine setStatus_served (by rw [ht, hd]) ?_
    rw [ht]
    exact .refused (.inl ⟨hverifies, hbad⟩) hneg

/-- **A service** touches the range only, and nothing of it if it is too short. -/
lemma bulkService_spec (hd : BulkDescriptor.read (s.mem .msgBuf) p = d) :
    Does (Allowed d.data (d.data + d.reach) p c) s (bulkService p d.data d) fun _ t =>
      ServedIn d (s.mem .region) p t := by
  rw [bulkService]
  -- three services do the same, and so do the two that verify before they crypt
  cases hservice : d.service with
  | encrypt => exact cryptService_spec hd (.inl hservice)
  | decrypt => exact cryptService_spec hd (.inr (.inl hservice))
  | unknown => exact cryptService_spec hd (.inr (.inr hservice))
  | verifyEncrypt => exact signedService_spec hd (.inl hservice)
  | verifyDecrypt => exact signedService_spec hd (.inr hservice)
  | verifyOnly =>
      refine (verify_spec (.inl hservice)).bind ?_
      rintro r t ⟨ht, ⟨hok, rfl⟩ | ⟨hbad, hneg⟩⟩
      · rw [Same] at ht
        refine setStatus_served (by rw [ht, hd]) ?_
        rw [ht, if_pos rfl]
        exact .verified hservice hok
      · rw [Same] at ht
        refine setStatus_served (by rw [ht, hd]) ?_
        rw [ht, if_neg fun heq => absurd (heq ▸ hneg) (by decide)]
        exact .refused (.inl ⟨.inl hservice, hbad⟩) hneg
  | validateEncrypt =>
      have hreach : 5 ≤ d.len → d.reach = d.len := by
        intro hlen
        rw [BulkDescriptor.reach, if_neg]
        rintro (⟨h | h | h, -⟩ | ⟨-, hshort⟩)
        · rw [h] at hservice; cases hservice
        · rw [h] at hservice; cases hservice
        · rw [h] at hservice; cases hservice
        · omega
      refine (validateMissionData_spec fun hlen x hlo hhi => ⟨hlo, by rwa [hreach hlen]⟩).bind ?_
      rintro r t ⟨ht, ⟨hok, rfl⟩ | ⟨hbad, rfl⟩⟩
      · rw [Same] at ht
        have hlen : 5 ≤ d.len := by
          have hle := (hok _ List.mem_cons_self).length_le
          rw [length_load] at hle
          exact (by decide : 5 ≤ (field [0x74, 0x73]).length).trans hle
        rw [if_neg (not_not.mpr rfl)]
        refine (cryptBlock_spec (by rw [ht, hd]) (hreach hlen)).bind ?_
        rintro - t₁ ⟨hregion, hread⟩
        refine setStatus_served hread ?_
        rw [hregion, ht]
        exact .validated hservice hok
      · rw [Same] at ht
        rw [if_pos (by decide)]
        refine setStatus_served (by rw [ht, hd]) ?_
        rw [ht]
        exact .refused (.inr ⟨hservice, hbad⟩) (by decide)
  -- the only service that changes the data before it looks at it
  | validateDecrypt =>
      have hreach : d.reach = d.len := by
        apply reach_eq_len
        · rintro (hv | hv | hv) <;> rw [hservice] at hv <;> cases hv
        · rw [hservice]
          exact nofun
      refine (cryptBlock_spec hd hreach).bind ?_
      rintro - t₁ ⟨hregion, hread⟩
      refine (validateMissionData_spec fun _ x hlo hhi => ⟨hlo, by rwa [hreach]⟩).bind ?_
      rintro r t ⟨ht, hr⟩
      rw [Same] at ht
      refine setStatus_served (by rw [ht, hread]) ?_
      rw [ht, hregion]
      rw [hregion] at hr
      rcases hr with ⟨hok, rfl⟩ | ⟨hbad, rfl⟩
      · exact .restored hservice hok
      · exact .spoiled hservice hbad

end Service

/-! ### Forwarding and the reply -/

/-- The region and the message are as they were. -/
def Keeps (s t : State Buf) : Prop :=
  t.mem .region = s.mem .region ∧ t.mem .msgBuf = s.mem .msgBuf

/-- What is permitted once the range has been cleaned: the region is only read. -/
def Sends (lo hi p : ℕ) : Event Buf → Prop
  | .write .region _ | .clean _ _ _ => False
  | e => Allowed lo hi p (fun _ => False) e

lemma Sends.allowed {lo hi p : ℕ} {c : ℕ → Prop} {e : Event Buf} (h : Sends lo hi p e) :
    Allowed lo hi p c e := by
  cases e with
  | read o x => cases o <;> exact h
  | write o x =>
      cases o with
      | region => exact h.elim
      | _ => exact h
  | invalidate => exact trivial
  | clean => exact h.elim

/-- A range has been given to the cache to clean, and no byte of the region written since. -/
def Cleaned (a n : ℕ) (t : State Buf) : Prop :=
  ∃ after before, t.log = after ++ .clean .region a n :: before ∧ ∀ x, .write .region x ∉ after

section Finish

variable {lo hi p : ℕ} {s : State Buf}

lemma Cleaned.of_sends {α : Type} {x : Prog Buf α} {R : α → State Buf → Prop} {a n : ℕ}
    (h : Cleaned a n s) (hx : Does (Sends lo hi p) s x R) : Cleaned a n (x s).2 := by
  obtain ⟨after, before, hlog, hwrite⟩ := h
  obtain ⟨⟨new, hnew, hsends⟩, -⟩ := hx
  refine ⟨new ++ after, before, by rw [hnew, hlog, List.append_assoc], fun y hy => ?_⟩
  rcases List.mem_append.mp hy with hy | hy
  · exact hsends _ hy
  · exact hwrite y hy

lemma Keeps.trans {t u : State Buf} (h : Keeps s t) (h' : Keeps t u) : Keeps s u :=
  ⟨h'.1.trans h.1, h'.2.trans h.2⟩

lemma Keeps.of_same {t : State Buf} (h : Same s t) : Keeps s t := by
  rw [Same] at h
  rw [Keeps, h]
  exact ⟨rfl, rfl⟩

/-- A chunk of the range is copied out. -/
lemma copyChunk_spec {a remaining : ℕ} (hlo : lo ≤ a) (hhi : a + remaining ≤ hi) :
    Does (Sends lo hi p) s
      (copy .chunkBuf 0 .region a (min remaining Server.forwardChunkSize)) fun _ t =>
        Keeps s t := by
  refine (Does.copy (by decide) fun i hi => ⟨⟨by omega, by omega⟩, ?_⟩).mono ?_
  · show 0 + i < Server.forwardChunkSize
    omega
  · rintro - t ht
    rw [Keeps, ht, Function.update_of_ne (by decide), Function.update_of_ne (by decide)]
    exact ⟨rfl, rfl⟩

lemma readChunk_spec {remaining : ℕ} :
    Does (Sends lo hi p) s
      (readBlock .chunkBuf 0 (min remaining Server.forwardChunkSize)) fun bytes t =>
        bytes.length ≤ remaining ∧ Keeps s t := by
  refine (Does.readBlock fun i hi => ?_).mono ?_
  · show 0 + i < Server.forwardChunkSize
    omega
  · rintro bytes t ⟨rfl, ht⟩
    rw [length_load]
    exact ⟨Nat.min_le_left _ _, .of_same ht⟩

/-- A call takes at most the bytes it is given. -/
lemma ch1ForwardBulkRawData_le (sess : Server.SessView) (ans : Server.SendAns)
    (bytes : List UInt8) :
    (Server.ch1ForwardBulkRawData sess ans bytes).1.toNat ≤ bytes.length := by
  unfold Server.ch1ForwardBulkRawData
  split
  · cases ans with
    | error => exact Nat.zero_le _
    | took n =>
        rw [Server.sessSend, Int.toNat_natCast, List.length_take]
        exact Nat.min_le_right _ _
  · exact Nat.zero_le _

lemma forwardLater_spec (answers : List (Server.SessView × Server.SendAns)) {src remaining : ℕ}
    (hlo : lo ≤ src) (hhi : src + remaining ≤ hi) :
    Does (Sends lo hi p) s (forwardLater answers src remaining) fun _ t => Keeps s t := by
  induction answers generalizing s src remaining with
  | nil =>
      rw [forwardLater]
      split_ifs
      · exact Does.pure (.of_same rfl)
      · refine (copyChunk_spec hlo hhi).bind ?_
        rintro - t ht
        exact Does.pure ht
  | cons a rest ih =>
      obtain ⟨sess, ans⟩ := a
      rw [forwardLater]
      split_ifs
      · exact Does.pure (.of_same rfl)
      · refine (copyChunk_spec hlo hhi).bind ?_
        rintro - t ht
        refine readChunk_spec.bind ?_
        rintro bytes t' ⟨hlen, ht'⟩
        have hkeeps := ht.trans ht'
        have hle := (ch1ForwardBulkRawData_le sess ans bytes).trans hlen
        dsimp only
        split_ifs
        · exact Does.pure hkeeps
        · exact (ih hlo hhi).mono fun _ _ h => hkeeps.trans h
        · exact (ih (by omega) (by omega)).mono fun _ _ h => hkeeps.trans h

lemma tryForwardBulk_spec (env : Server.Env) {offset length : ℕ} {serviceId : UInt8}
    (hrange : Server.ch1IsBulkReady env.sess = true → lo ≤ offset ∧ offset + length ≤ hi) :
    Does (Sends lo hi p) s (ch0TryForwardBulkToCh1 env offset length serviceId)
      fun _ t => Keeps s t := by
  rw [ch0TryForwardBulkToCh1]
  split_ifs with hready
  · exact Does.pure (.of_same rfl)
  · exact Does.pure (.of_same rfl)
  · obtain ⟨hlo, hhi⟩ := hrange (by simpa using hready)
    refine (copyChunk_spec hlo hhi).bind ?_
    rintro - t ht
    refine readChunk_spec.bind ?_
    rintro bytes t' ⟨-, ht'⟩
    have hkeeps := ht.trans ht'
    split_ifs
    · exact (forwardLater_spec _ (by omega) (by omega)).mono fun _ _ h => hkeeps.trans h
    · exact Does.pure hkeeps

lemma length_msgHeader (msgType : UInt8) (fs bs len : UInt16) :
    (msgHeader msgType fs bs len).length = msgHeaderSize := by
  simp [msgHeader, msgHeaderSize]

/-- A reply is built in a local array: a header, and bytes of another buffer. -/
lemma buildReply_spec {P : Event Buf → Prop} {b src : Buf} {header : List UInt8} {a n : ℕ}
    (hsrc : src ≠ b) (hregion : b ≠ .region) (hmsgBuf : b ≠ .msgBuf)
    (hheader : header.length = msgHeaderSize)
    (hbuf : ∀ i < msgHeaderSize + n, P (.read b i) ∧ P (.write b i))
    (hreads : ∀ i < n, P (.read src (a + i))) :
    Does P s (do
      writeBlock b 0 header
      copy b msgHeaderSize src a n
      let msg ← readBlock b 0 (msgHeaderSize + n)
      return Outcome.reply msg) fun out t =>
        Keeps s t ∧ out = .reply (header ++ load (s.mem src) a n) := by
  refine (Does.writeBlock fun i hi => ?_).bind ?_
  · rw [Nat.zero_add]
    exact (hbuf i (by omega)).2
  rintro - t₁ h₁
  refine (Does.copy hsrc fun i hi => ⟨hreads i hi, (hbuf _ (by omega)).2⟩).bind ?_
  rintro - t₂ h₂
  refine (Does.readBlock fun i hi => ?_).bind ?_
  · rw [Nat.zero_add]
    exact (hbuf i hi).1
  rintro msg t₃ ⟨rfl, h₃⟩
  have hreply : t₂.mem b = store (store (s.mem b) 0 header) msgHeaderSize
      (load (s.mem src) a n) := by
    rw [h₂, Function.update_self, h₁, Function.update_self, Function.update_of_ne hsrc]
  have hkeeps : Keeps s t₂ := by
    refine ⟨?_, ?_⟩
    · rw [h₂, Function.update_of_ne hregion.symm, h₁, Function.update_of_ne hregion.symm]
    · rw [h₂, Function.update_of_ne hmsgBuf.symm, h₁, Function.update_of_ne hmsgBuf.symm]
  have hfull := load_store_same (s.mem b) 0 (header ++ load (s.mem src) a n)
  rw [List.length_append, length_load, ← store_append, hheader, Nat.zero_add] at hfull
  exact Does.pure ⟨hkeeps.trans (.of_same h₃), by rw [hreply, hfull]⟩

/-- The reply is a header, and the descriptor as it is in the message. -/
lemma sendBulkReply_spec : Does (Sends lo hi p) s (ch0SendBulkReply p) fun out t =>
    Keeps s t ∧ out = .reply (msgHeader msgTypeBulk 0 0 16 ++ load (s.mem .msgBuf) p 16) := by
  refine buildReply_spec (by decide) (by decide) (by decide) (length_msgHeader ..) ?_ ?_
  · intro i hi
    rw [msgHeaderSize, bulkDescriptorSize] at hi
    have hsize : i < 128 := by omega
    exact ⟨hsize, hsize⟩
  · intro i hi
    rw [bulkDescriptorSize] at hi
    exact ⟨by omega, by omega⟩

/-- The message of a bulk reply, for the descriptor in a buffer. -/
def bulkReply (m : Mem) (p : ℕ) : Outcome :=
  .reply (msgHeader msgTypeBulk 0 0 16 ++ load m p 16)

/-- Before the reply the range is cleaned, for the length that the descriptor has by then. -/
lemma bulkFinish_spec (env : Server.Env) {d : BulkDescriptor}
    (hd : BulkDescriptor.read (s.mem .msgBuf) p = d)
    (hforward : Server.ch1IsBulkReady env.sess = true → d.status = 1 →
      d.service.forwards = true → lo ≤ d.data ∧ d.data + d.len ≤ hi) :
    Does (Allowed lo hi p (· = d.len)) s (bulkFinish env p lo) fun out t =>
      Keeps s t ∧ Cleaned lo d.len t ∧ (out = .running ∨ out = bulkReply (t.mem .msgBuf) p) := by
  have hreply : ∀ {t : State Buf}, Keeps s t → Cleaned lo d.len t →
      Does (Allowed lo hi p (· = d.len)) t (ch0SendBulkReply p) fun out t =>
        Keeps s t ∧ Cleaned lo d.len t ∧
          (out = .running ∨ out = bulkReply (t.mem .msgBuf) p) := by
    intro t hkeeps hclean
    have hspec := @sendBulkReply_spec lo hi p t
    have hcleaned := hclean.of_sends hspec
    refine Does.weaken (P := Sends lo hi p) ⟨hspec.1, hkeeps.trans hspec.2.1, hcleaned, .inr ?_⟩
      fun _ => Sends.allowed
    rw [bulkReply, hspec.2.1.2]
    exact hspec.2.2
  refine readDescriptor_spec.bind ?_
  rintro d' t ⟨rfl, ht⟩
  rw [hd]
  refine (Does.emit (by exact ⟨rfl, rfl, rfl⟩)).bind ?_
  rintro - t₁ ht₁
  have hkeeps : Keeps s t₁ := .of_same (by rw [Same, ht₁]; exact ht)
  have hclean : Cleaned lo d.len t₁ := ⟨[], t.log, by rw [ht₁]; rfl, nofun⟩
  split_ifs with hstatus
  · have hspec : Does (Sends lo hi p) t₁
        (ch0TryForwardBulkToCh1 env d.data d.len (UInt8.ofNat d.serviceId.toNat))
        fun _ t' => Keeps t₁ t' :=
      tryForwardBulk_spec env fun hready => hforward hready hstatus.1 hstatus.2
    have hcleaned := hclean.of_sends hspec
    refine Does.bind (R := fun _ t => Keeps s t ∧ Cleaned lo d.len t)
      (Does.weaken (P := Sends lo hi p) ⟨hspec.1, hkeeps.trans hspec.2, hcleaned⟩
        fun _ => Sends.allowed) ?_
    rintro code t' ⟨hkeeps', hclean'⟩
    split_ifs
    · exact Does.pure ⟨hkeeps', hclean', .inl rfl⟩
    · exact hreply hkeeps' hclean'
  · exact hreply hkeeps hclean

end Finish

/-! ### A whole request -/

section Request

variable {p len : ℕ} {s : State Buf} {d d' : BulkDescriptor} {m m' : Mem}

lemma data_lt (d : BulkDescriptor) : d.data < 2 ^ 32 := d.offset.toNat_lt

lemma len_lt (d : BulkDescriptor) : d.len < 2 ^ 32 := d.length.toNat_lt

/-- The sum that is compared with the size of the region. -/
lemma toNat_add (d : BulkDescriptor) :
    (d.offset + d.length).toNat = (d.data + d.len) % 2 ^ 32 := UInt32.toNat_add ..

lemma reach_le (d : BulkDescriptor) : d.reach ≤ d.len := by
  rw [BulkDescriptor.reach]
  split_ifs
  · exact Nat.zero_le _
  · exact le_rfl

/-- A range that is too short is refused. -/
lemma Served.of_tooShort (h : Served d m m' d') (hshort : d.TooShort) :
    m' = m ∧ d'.status < 0 := by
  have hsigned : signedHeaderSize ≤ d.len → ¬ d.Verifies := by
    intro hle hv
    rcases hshort with ⟨-, hlt⟩ | ⟨hval, -⟩
    · omega
    · rcases hv with hv | hv | hv <;> rw [hv] at hval <;> cases hval
  have hservice : d.Verifies ∨ d.service = .validateEncrypt := hshort.imp And.left And.left
  cases h with
  | crypt h =>
      rcases hservice with (hv | hv | hv) | hv <;> rcases h with h | h | h <;> rw [h] at hv <;>
        cases hv
  | refused h hneg => exact ⟨rfl, hneg⟩
  | verified h hok => exact absurd (.inl h) (hsigned hok.le)
  | signed h hok => exact absurd (.inr h) (hsigned hok.le)
  | validated h hok =>
      have hle := (hok _ List.mem_cons_self).length_le
      rw [length_load] at hle
      rcases hshort with ⟨hv | hv | hv, -⟩ | ⟨-, hlt⟩
      · rw [hv] at h; cases h
      · rw [hv] at h; cases h
      · rw [hv] at h; cases h
      · exact absurd ((by decide : 5 ≤ (field [0x74, 0x73]).length).trans hle) (not_le.mpr hlt)
  | restored h | spoiled h =>
      rcases hservice with (hv | hv | hv) | hv <;> rw [h] at hv <;> cases hv

/-- What is forwarded lies in the range. -/
lemma Served.forward (h : Served d m m' d') (hrange : d.data + d.len ≤ ch0DataSize)
    (hstatus : d'.status = 1) (hforwards : d'.service.forwards = true) :
    d.data ≤ d'.data ∧ d'.data + d'.len ≤ d.data + d.reach := by
  have hreach : d.reach = d.len := by
    rw [BulkDescriptor.reach, if_neg]
    intro hshort
    exact absurd (hstatus ▸ (h.of_tooShort hshort).2) (by decide)
  rw [hreach]
  cases h with
  | refused _ hneg =>
      dsimp only at hstatus
      rw [hstatus] at hneg
      exact absurd hneg (by decide)
  | verified h =>
      have hsame : BulkService.forwards d.service = true := hforwards
      rw [h] at hsame
      cases hsame
  | signed _ hok =>
      have hfits := hok.fits
      have hlt := len_lt d
      have hdata : (d.offset + UInt32.ofNat signedHeaderSize).toNat = d.data + 84 := by
        rw [UInt32.toNat_add]
        exact Nat.mod_eq_of_lt (show d.data + 84 < 2 ^ 32 by
          simp only [ch0DataSize] at hrange
          omega)
      have hlen : (UInt32.ofNat (payloadLen m d.data)).toNat = payloadLen m d.data := by
        rw [UInt32.toNat_ofNat', Nat.mod_eq_of_lt (by omega)]
      show d.data ≤ (d.offset + UInt32.ofNat signedHeaderSize).toNat ∧
        (d.offset + UInt32.ofNat signedHeaderSize).toNat +
          (UInt32.ofNat (payloadLen m d.data)).toNat ≤ d.data + d.len
      rw [hdata, hlen]
      rw [signedHeaderSize] at hfits
      omega
  | crypt | validated | restored | spoiled => exact ⟨le_rfl, le_rfl⟩

/-- **A request whose range the check lets pass.** What is forwarded lies in the range if the
range lies in the region. -/
lemma processBulk_spec (env : Server.Env) (hlen : bulkDescriptorSize ≤ len)
    (hd : BulkDescriptor.read (s.mem .msgBuf) p = d)
    (haccept : (d.data + d.len) % 2 ^ 32 ≤ ch0DataSize)
    (hrange : Server.ch1IsBulkReady env.sess = true →
      d.TooShort ∨ d.data + d.len ≤ ch0DataSize) :
    ∃ d', Does (Allowed d.data (d.data + d.reach) p (· = d'.len)) s (ch0ProcessBulk env p len)
      fun out t => Served d (s.mem .region) (t.mem .region) d' ∧
        BulkDescriptor.read (t.mem .msgBuf) p = d' ∧ Cleaned d.data d'.len t ∧
          (out = .running ∨ out = bulkReply (t.mem .msgBuf) p) := by
  rw [ch0ProcessBulk, if_neg (not_lt.mpr hlen)]
  have hmono : ∀ (d' : BulkDescriptor) (e : Event Buf),
      Allowed d.data (d.data + d.reach) p (fun _ => False) e →
        Allowed d.data (d.data + d.reach) p (· = d'.len) e :=
    fun d' e he => he.mono le_rfl nofun
  refine readDescriptor_spec.exists_bind hmono ?_
  rintro d₀ t₁ ⟨rfl, h₁⟩
  rw [Same] at h₁
  have hcheck : ¬ (d.offset + d.length).toNat > ch0DataSize := by
    rw [toNat_add]
    exact not_lt.mpr haccept
  rw [hd, if_neg hcheck]
  have hemit : Does (Allowed d.data (d.data + d.reach) p fun _ => False) t₁
      (emit (.invalidate .region d.data d.len)) fun _ t => t.mem = t₁.mem :=
    (Does.emit trivial).mono fun _ _ h => by rw [h]
  refine hemit.exists_bind hmono ?_
  rintro - t₂ h₂
  have hd₂ : BulkDescriptor.read (t₂.mem .msgBuf) p = d := by rw [h₂, h₁, hd]
  refine (bulkService_spec hd₂).exists_bind hmono ?_
  rintro - t₃ hserved
  rw [ServedIn] at hserved
  refine ⟨_, (bulkFinish_spec env rfl fun hready hstatus hforwards => ?_).mono ?_⟩
  · rcases hrange hready with hshort | hrange
    · exact absurd (hstatus ▸ (hserved.of_tooShort hshort).2) (by decide)
    · exact hserved.forward hrange hstatus hforwards
  · rintro out t₄ ⟨⟨hregion, hmsg⟩, hclean, hout⟩
    rw [h₂, h₁] at hserved
    rw [hregion, hmsg]
    rw [hmsg] at hout
    exact ⟨hserved, rfl, hclean, hout⟩

/-- **A request that the check rejects.** -/
lemma processBulk_rejected (env : Server.Env) (hlen : bulkDescriptorSize ≤ len)
    (hd : BulkDescriptor.read (s.mem .msgBuf) p = d)
    (hreject : ch0DataSize < (d.data + d.len) % 2 ^ 32) :
    Does (Allowed 0 0 p fun _ => False) s (ch0ProcessBulk env p len) fun out t =>
      t.mem .region = s.mem .region ∧
        BulkDescriptor.read (t.mem .msgBuf) p = { d with status := -1 } ∧
          out = bulkReply (t.mem .msgBuf) p := by
  rw [ch0ProcessBulk, if_neg (not_lt.mpr hlen)]
  refine readDescriptor_spec.bind ?_
  rintro d₀ t₁ ⟨rfl, h₁⟩
  rw [Same] at h₁
  have hcheck : (d.offset + d.length).toNat > ch0DataSize := by
    rw [toNat_add]
    exact hreject
  rw [hd, if_pos hcheck]
  refine setStatus_spec.bind ?_
  rintro - t₂ ⟨hregion, hread⟩
  refine (sendBulkReply_spec.weaken fun _ => Sends.allowed).mono ?_
  rintro out t₃ ⟨hkeeps, rfl⟩
  rw [hkeeps.1, hkeeps.2, hregion, hread, h₁, hd]
  exact ⟨rfl, rfl, rfl⟩

end Request

end Ch0
