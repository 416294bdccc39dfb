import Sel4Test.Server.BulkRange

/-!
The status of a bulk request, and what it says of the data region.

A request that fails should leave the region alone, and the bytes that a successful one has
changed should be cleaned from the cache before the peer is told. Two groups of services do
otherwise. One decrypts in place before it looks at the content, and keeps the decrypted bytes
when it refuses them. The other works on the payload behind a signed header, and then cleans
the payload's length from the start of the header on.

* `BulkAtomic`: the property of the region and the log before and after a request.
* `BulkDescriptor.Strays`: the contents on which a service does otherwise.
* `bulkAtomic_iff`: for a range in the region, these are exactly the failing contents.
-/

namespace Ch0

open ByteMem Touch Hyperamp

/-- With an error nothing of the region has changed; with success every byte that has changed
was cleaned after its last write. -/
structure BulkAtomic (p : ℕ) (s t : State Buf) : Prop where
  error : (BulkDescriptor.read (t.mem .msgBuf) p).status ≠ 1 → t.mem .region = s.mem .region
  success : (BulkDescriptor.read (t.mem .msgBuf) p).status = 1 →
    ∀ x, t.mem .region x ≠ s.mem .region x → ∃ a n, Cleaned a n t ∧ a ≤ x ∧ x < a + n

/-- The service spoils a content that it refuses, or changes bytes behind those it cleans. -/
def BulkDescriptor.Strays (d : BulkDescriptor) (m : Mem) : Prop :=
  match d.service with
  | .validateDecrypt => 0 < d.len ∧ ¬ MissionOk ((load m d.data d.len).map cipher)
  | .verifyEncrypt | .verifyDecrypt => SignedOk m d.data d.len ∧ 0 < payloadLen m d.data
  | _ => False

section Status

variable {d d' : BulkDescriptor} {m m' : Mem} {x : ℕ}

/-- What `BulkAtomic` says, when the range that is cleaned is the one of the descriptor. -/
def Faithful (d : BulkDescriptor) (m m' : Mem) (d' : BulkDescriptor) : Prop :=
  (d'.status ≠ 1 → m' = m) ∧
    (d'.status = 1 → ∀ x, m' x ≠ m x → d.data ≤ x ∧ x < d.data + d'.len)

/-- A byte that differs lies in the range that was replaced. -/
lemma inside_of_mapRange_ne {f : UInt8 → UInt8} {a n : ℕ} (h : mapRange f m a n x ≠ m x) :
    a ≤ x ∧ x < a + n := by
  by_contra hout
  exact h (mapRange_of_outside (by omega))

lemma faithful_crypt (status : Int32) (hstatus : status = 1) :
    Faithful d m (mapRange cipher m d.data d.len) { d with status := status } :=
  ⟨fun h => absurd hstatus h, fun _ _ hx => inside_of_mapRange_ne hx⟩

/-- **The contents on which a service is faithful.** -/
lemma Served.faithful_iff (h : Served d m m' d') : Faithful d m m' d' ↔ ¬ d.Strays m := by
  cases h with
  | crypt h =>
      refine iff_of_true (faithful_crypt 1 rfl) fun hstrays => ?_
      rw [BulkDescriptor.Strays] at hstrays
      rcases h with h | h | h <;> rw [h] at hstrays <;> exact hstrays
  | refused h hneg =>
      refine iff_of_true ⟨fun _ => rfl, fun _ x hx => absurd rfl hx⟩ fun hstrays => ?_
      rw [BulkDescriptor.Strays] at hstrays
      rcases h with ⟨h | h | h, hbad⟩ | ⟨h, -⟩ <;> rw [h] at hstrays
      · exact hstrays
      · exact hbad hstrays.1
      · exact hbad hstrays.1
      · exact hstrays
  | verified h =>
      refine iff_of_true ⟨fun _ => rfl, fun _ x hx => absurd rfl hx⟩ fun hstrays => ?_
      rw [BulkDescriptor.Strays, h] at hstrays
      exact hstrays
  | signed h hok =>
      have hfits := hok.fits
      have hlen : (UInt32.ofNat (payloadLen m d.data)).toNat = payloadLen m d.data := by
        rw [UInt32.toNat_ofNat', Nat.mod_eq_of_lt]
        have := len_lt d
        omega
      have hstrays : d.Strays m ↔ 0 < payloadLen m d.data := by
        rw [BulkDescriptor.Strays]
        rcases h with h | h <;> rw [h] <;> exact and_iff_right hok
      rw [hstrays, not_lt, Nat.le_zero]
      constructor
      · intro hfaithful
        by_contra hpos
        -- the last byte of the payload has changed and is not cleaned
        have hlast : mapRange cipher m (d.data + signedHeaderSize) (payloadLen m d.data)
            (d.data + signedHeaderSize + (payloadLen m d.data - 1)) ≠
              m (d.data + signedHeaderSize + (payloadLen m d.data - 1)) := by
          rw [mapRange_of_inside ⟨by omega, by omega⟩]
          exact cipher_ne _
        have hcleaned := (hfaithful.2 rfl _ hlast).2
        rw [BulkDescriptor.len, hlen, signedHeaderSize] at hcleaned
        omega
      · intro hzero
        rw [hzero, mapRange_zero]
        exact ⟨fun _ => rfl, fun _ x hx => absurd rfl hx⟩
  | validated h =>
      refine iff_of_true (faithful_crypt 1 rfl) fun hstrays => ?_
      rw [BulkDescriptor.Strays, h] at hstrays
      exact hstrays
  | restored h hok =>
      refine iff_of_true (faithful_crypt 1 rfl) fun hstrays => ?_
      rw [load_mapRange] at hok
      rw [BulkDescriptor.Strays, h] at hstrays
      exact hstrays.2 hok
  | spoiled h hbad =>
      rw [load_mapRange] at hbad
      have hstrays : d.Strays m ↔ 0 < d.len := by
        rw [BulkDescriptor.Strays, h]
        exact and_iff_left hbad
      rw [hstrays, not_lt, Nat.le_zero]
      constructor
      · intro hfaithful
        by_contra hpos
        have hsame := congrFun (hfaithful.1 (show validateFailedMissing ≠ 1 by decide)) d.data
        rw [mapRange_of_inside ⟨le_rfl, by omega⟩] at hsame
        exact cipher_ne _ hsame
      · intro hzero
        rw [hzero, mapRange_zero]
        exact ⟨fun _ => rfl, fun _ x hx => absurd rfl hx⟩

end Status

section Request

variable {p len : ℕ} {s : State Buf} {d : BulkDescriptor}

lemma Cleaned.mem_log {a n : ℕ} {t : State Buf} (h : Cleaned a n t) :
    .clean .region a n ∈ t.log := by
  obtain ⟨after, before, hlog, -⟩ := h
  rw [hlog]
  exact List.mem_append_right _ List.mem_cons_self

/-- **Error atomicity and the cleaned range**, for a range in the region. -/
theorem bulkAtomic_iff (env : Server.Env) (hlog : s.log = []) (hlen : bulkDescriptorSize ≤ len)
    (hd : BulkDescriptor.read (s.mem .msgBuf) p = d) (hrange : d.data + d.len ≤ ch0DataSize) :
    BulkAtomic p s (ch0ProcessBulk env p len s).2 ↔ ¬ d.Strays (s.mem .region) := by
  have haccept : (d.data + d.len) % 2 ^ 32 ≤ ch0DataSize := (Nat.mod_le _ _).trans hrange
  obtain ⟨d', hspec⟩ := processBulk_spec env hlen hd haccept fun _ => .inr hrange
  obtain ⟨hserved, hread, hcleaned, -⟩ := hspec.2
  rw [← hserved.faithful_iff]
  constructor
  · intro h
    have herror := h.error
    have hsuccess := h.success
    rw [hread] at herror hsuccess
    refine ⟨herror, fun hone x hx => ?_⟩
    obtain ⟨a, n, hclean, hle, hlt⟩ := hsuccess hone x hx
    -- no other range is given to the cache
    obtain ⟨-, rfl, rfl⟩ := hspec.log_allowed hlog _ hclean.mem_log
    exact ⟨hle, hlt⟩
  · rintro ⟨herror, hsuccess⟩
    rw [← hread] at herror hsuccess
    refine ⟨herror, fun hone x hx => ?_⟩
    have hx' := hsuccess hone x hx
    rw [hread] at hx'
    exact ⟨d.data, d'.len, hcleaned, hx'⟩

/-- A byte to be encrypted. -/
theorem bulkAtomic_encrypt :
    BulkAtomic 0 (bulkState ⟨0, 1, 1, 0⟩ fun _ => 0)
        (ch0ProcessBulk quietEnv 0 16 (bulkState ⟨0, 1, 1, 0⟩ fun _ => 0)).2 ↔
      ¬ BulkDescriptor.Strays ⟨0, 1, 1, 0⟩ fun _ => 0 :=
  bulkAtomic_iff quietEnv rfl le_rfl (read_descriptorMem _) (by decide)

/-- A byte to be decrypted that has no fields: it is refused, and stays decrypted. -/
theorem not_bulkAtomic_refused :
    ¬ BulkAtomic 0 (bulkState ⟨0, 1, 8, 0⟩ fun _ => 0)
      (ch0ProcessBulk quietEnv 0 16 (bulkState ⟨0, 1, 8, 0⟩ fun _ => 0)).2 := by
  intro h
  have hsame := congrFun (h.error (by decide +kernel)) 0
  exact absurd hsame (by decide +kernel)

end Request

end Ch0
