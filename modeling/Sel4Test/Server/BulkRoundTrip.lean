import Sel4Test.Server.BulkStatus

/-!
Encryption and decryption of a range.

The peer sends a descriptor, and sends the descriptor of the reply back for the inverse
service. Between the two requests the rest of the region may change, as the rings of the
channel lie in it too; the bytes of the range are those that the first request has left.

* `replyDescriptor`: the descriptor that the peer reads in a reply.
* `Inverse`: the second request is the inverse of the first, on the descriptor of its reply.
* `bulk_restores`: the range is as it was before the two requests, and no other byte has been
  changed by them.
-/

namespace Ch0

open ByteMem Touch Hyperamp

/-- The descriptor in a reply. -/
def replyDescriptor (msg : List UInt8) : BulkDescriptor :=
  .read (store (fun _ => 0) 0 (msg.drop msgHeaderSize)) 0

/-- A request has been served: it still forwards, or the peer is told so. -/
def Reports (out : Outcome) : Prop :=
  out = .running ∨ ∃ msg, out = .reply msg ∧ (replyDescriptor msg).status = 1

/-- The inverse of a request, on the descriptor `r` of its reply. A content that is validated
has the required fields. -/
structure Inverse (d r d₂ : BulkDescriptor) (m : Mem) : Prop where
  offset : d₂.offset = r.offset
  length : d₂.length = r.length
  service : d.service = .encrypt ∧ d₂.service = .decrypt ∨
    d.service = .validateEncrypt ∧ d₂.service = .validateDecrypt ∧
      MissionOk (load m d.data d.len)

/-- What two requests make of the region: `m` before, `m₁` after the first, `m₂` before the
second, `m₃` after it. -/
structure Restored (d : BulkDescriptor) (m m₁ m₂ m₃ : Mem) : Prop where
  inside : ∀ x, d.data ≤ x → x < d.data + d.len → m₃ x = m x
  first : ∀ x, x < d.data ∨ d.data + d.len ≤ x → m₁ x = m x
  second : ∀ x, x < d.data ∨ d.data + d.len ≤ x → m₃ x = m₂ x
  exact : m₂ = m₁ → m₃ = m

section RoundTrip

variable {d d' d₂ d₂' : BulkDescriptor} {m m₁ m₂ m₃ : Mem}

lemma replyDescriptor_append (msgType : UInt8) (fs bs n : UInt16) (m : Mem) (p : ℕ) :
    replyDescriptor (msgHeader msgType fs bs n ++ load m p 16) = BulkDescriptor.read m p := by
  have hdrop : (msgHeader msgType fs bs n ++ load m p 16).drop msgHeaderSize = load m p 16 := by
    rw [← length_msgHeader msgType fs bs n, List.drop_left]
  rw [replyDescriptor, hdrop]
  refine BulkDescriptor.read_of_load_eq ?_
  have hload := load_store_same (fun _ => 0) 0 (load m p 16)
  rwa [length_load] at hload

/-- Both requests replace every byte of the range. -/
lemma Restored.of_mapRange (hkept : ∀ x, d.data ≤ x → x < d.data + d.len → m₂ x = m₁ x)
    (h₁ : m₁ = mapRange cipher m d.data d.len) (h₃ : m₃ = mapRange cipher m₂ d.data d.len) :
    Restored d m m₁ m₂ m₃ where
  inside x hle hlt := by
    rw [h₃, mapRange_of_inside ⟨hle, hlt⟩, hkept x hle hlt, h₁, mapRange_of_inside ⟨hle, hlt⟩,
      cipher_involutive]
  first x hx := by rw [h₁, mapRange_of_outside hx]
  second x hx := by rw [h₃, mapRange_of_outside hx]
  exact h := by rw [h₃, h, h₁, mapRange_mapRange cipher_involutive]

/-- What a reply tells the peer is what the message buffer holds. -/
lemma replyDescriptor_bulkReply {p : ℕ} {msg : List UInt8} (h : bulkReply m p = .reply msg) :
    replyDescriptor msg = BulkDescriptor.read m p := by
  rw [bulkReply, Outcome.reply.injEq] at h
  rw [← h]
  exact replyDescriptor_append ..

/-- A service that is not refused replaces the whole range and keeps it in the descriptor. -/
lemma Served.of_first (h : Served d m m₁ d') (hinverse : Inverse d d' d₂ m) :
    m₁ = mapRange cipher m d.data d.len ∧ d'.offset = d.offset ∧ d'.length = d.length ∧
      d'.status = 1 := by
  have hservice : d.service = .encrypt ∨ d.service = .validateEncrypt :=
    hinverse.service.imp And.left And.left
  cases h with
  | crypt | validated => exact ⟨rfl, rfl, rfl, rfl⟩
  | restored h | spoiled h => rcases hservice with he | he <;> rw [he] at h <;> cases h
  | refused h =>
      rcases hinverse.service with ⟨he, -⟩ | ⟨he, -, hok⟩ <;>
        rcases h with ⟨h | h | h, -⟩ | ⟨h, hbad⟩ <;> rw [he] at h <;> cases h
      exact absurd hok hbad
  | verified h => rcases hservice with he | he <;> rw [he] at h <;> cases h
  | signed h => rcases hservice with he | he <;> rcases h with h | h <;> rw [he] at h <;> cases h

/-- So does the inverse service, and reports success. -/
lemma Served.of_second (h : Served d₂ m₂ m₃ d₂') (hinverse : Inverse d d' d₂ m)
    (hdata : d₂.data = d.data) (hlen : d₂.len = d.len)
    (hback : load (mapRange cipher m₂ d.data d.len) d.data d.len = load m d.data d.len) :
    m₃ = mapRange cipher m₂ d.data d.len ∧ d₂'.status = 1 := by
  have hservice : d₂.service = .decrypt ∨ d₂.service = .validateDecrypt :=
    hinverse.service.imp And.right fun h => h.2.1
  cases h with
  | crypt | validated | restored => exact ⟨by rw [hdata, hlen], rfl⟩
  | refused h =>
      rcases hservice with he | he <;> rcases h with ⟨h | h | h, -⟩ | ⟨h, -⟩ <;>
        rw [he] at h <;> cases h
  | verified h => rcases hservice with he | he <;> rw [he] at h <;> cases h
  | signed h => rcases hservice with he | he <;> rcases h with h | h <;> rw [he] at h <;> cases h
  | spoiled h hbad =>
      rcases hinverse.service with ⟨-, he⟩ | ⟨-, -, hok⟩
      · rw [he] at h
        cases h
      · rw [hdata, hlen, hback] at hbad
        exact absurd hok hbad

/-- The content is back before the second test. -/
lemma Restored.load_eq (h : Restored d m m₁ m₂ m₃) :
    load m₃ d.data d.len = load m d.data d.len :=
  load_congr fun i hi => h.inside _ (by omega) (by omega)

end RoundTrip

section Requests

variable {p len p₂ len₂ : ℕ} {s s₂ : State Buf} {d d₂ : BulkDescriptor} {msg : List UInt8}

/-- **The round trip.** -/
theorem bulk_restores (env env₂ : Server.Env) (hlen : bulkDescriptorSize ≤ len)
    (hd : BulkDescriptor.read (s.mem .msgBuf) p = d) (hrange : d.data + d.len ≤ ch0DataSize)
    (hreply : (ch0ProcessBulk env p len s).1 = .reply msg) (hlen₂ : bulkDescriptorSize ≤ len₂)
    (hd₂ : BulkDescriptor.read (s₂.mem .msgBuf) p₂ = d₂)
    (hinverse : Inverse d (replyDescriptor msg) d₂ (s.mem .region))
    (hkept : ∀ x, d.data ≤ x → x < d.data + d.len →
      s₂.mem .region x = (ch0ProcessBulk env p len s).2.mem .region x) :
    Restored d (s.mem .region) ((ch0ProcessBulk env p len s).2.mem .region) (s₂.mem .region)
        ((ch0ProcessBulk env₂ p₂ len₂ s₂).2.mem .region) ∧
      (replyDescriptor msg).status = 1 ∧ Reports (ch0ProcessBulk env₂ p₂ len₂ s₂).1 := by
  obtain ⟨d', hspec⟩ := processBulk_spec env hlen hd ((Nat.mod_le _ _).trans hrange)
    fun _ => .inr hrange
  obtain ⟨hserved, hread, -, hout⟩ := hspec.2
  have hd' : replyDescriptor msg = d' := by
    rw [hreply] at hout
    rcases hout with hout | hout
    · cases hout
    · rw [replyDescriptor_bulkReply hout.symm, hread]
  rw [hd'] at hinverse ⊢
  obtain ⟨hregion, hoffset, hlength, hstatus⟩ := hserved.of_first hinverse
  -- the second request has the same range
  have hdata₂ : d₂.data = d.data := by
    rw [BulkDescriptor.data, hinverse.offset, hoffset, BulkDescriptor.data]
  have hlen₂' : d₂.len = d.len := by
    rw [BulkDescriptor.len, hinverse.length, hlength, BulkDescriptor.len]
  have hrange₂ : d₂.data + d₂.len ≤ ch0DataSize := by rw [hdata₂, hlen₂']; exact hrange
  obtain ⟨d₂', hspec₂⟩ := processBulk_spec env₂ hlen₂ hd₂ ((Nat.mod_le _ _).trans hrange₂)
    fun _ => .inr hrange₂
  obtain ⟨hserved₂, hread₂, -, hout₂⟩ := hspec₂.2
  have hback := (Restored.of_mapRange (d := d) hkept hregion rfl).load_eq
  obtain ⟨hregion₂, hstatus₂⟩ := hserved₂.of_second hinverse hdata₂ hlen₂' hback
  refine ⟨.of_mapRange hkept hregion hregion₂, hstatus, ?_⟩
  rcases hout₂ with hout₂ | hout₂
  · exact .inl hout₂
  · refine .inr ⟨_, hout₂, ?_⟩
    rw [replyDescriptor_append, hread₂, hstatus₂]

/-- The six fields. -/
def fieldsMem : Mem := store (fun _ => 0) 0 requiredFields.flatten

/-- The reply to their encryption. -/
def fieldsReply : List UInt8 :=
  msgHeader msgTypeBulk 0 0 16 ++ [0, 0, 0, 0, 35, 0, 0, 0, 7, 0, 0, 0, 1, 0, 0, 0]

/-- The region then. -/
def fieldsEncrypted : Mem :=
  (ch0ProcessBulk quietEnv 0 16 (bulkState ⟨0, 35, 7, 0⟩ fieldsMem)).2.mem .region

/-- They are validated and encrypted, decrypted and validated. -/
theorem bulk_restores_fields :
    Restored ⟨0, 35, 7, 0⟩ fieldsMem fieldsEncrypted fieldsEncrypted
        ((ch0ProcessBulk quietEnv 0 16
          (bulkState ⟨0, 35, 8, 1⟩ fieldsEncrypted)).2.mem .region) ∧
      (replyDescriptor fieldsReply).status = 1 ∧
      Reports (ch0ProcessBulk quietEnv 0 16 (bulkState ⟨0, 35, 8, 1⟩ fieldsEncrypted)).1 := by
  have hreply : (ch0ProcessBulk quietEnv 0 16 (bulkState ⟨0, 35, 7, 0⟩ fieldsMem)).1 =
      .reply fieldsReply := by decide +kernel
  have hfields : MissionOk (load fieldsMem 0 35) := by unfold MissionOk; decide +kernel
  have hinverse : Inverse ⟨0, 35, 7, 0⟩ (replyDescriptor fieldsReply) ⟨0, 35, 8, 1⟩ fieldsMem :=
    ⟨by decide +kernel, by decide +kernel, .inr ⟨by decide, by decide, hfields⟩⟩
  have hkept : ∀ x, 0 ≤ x → x < 0 + 35 →
      (bulkState ⟨0, 35, 8, 1⟩ fieldsEncrypted).mem .region x =
        (ch0ProcessBulk quietEnv 0 16 (bulkState ⟨0, 35, 7, 0⟩ fieldsMem)).2.mem .region x := by
    intro x _ _
    rw [bulkState_region, fieldsEncrypted]
  have h := @bulk_restores 0 16 0 16 (bulkState ⟨0, 35, 7, 0⟩ fieldsMem)
    (bulkState ⟨0, 35, 8, 1⟩ fieldsEncrypted) ⟨0, 35, 7, 0⟩ ⟨0, 35, 8, 1⟩ fieldsReply quietEnv
    quietEnv le_rfl (read_descriptorMem _) (by decide) hreply le_rfl (read_descriptorMem _) hinverse
    hkept
  rwa [bulkState_region, bulkState_region, ← fieldsEncrypted] at h

end Requests

end Ch0
