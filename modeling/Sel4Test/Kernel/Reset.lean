import Sel4Test.Kernel.Boot
import Sel4Test.Kernel.Untyped
import Sel4Test.Lib.ByteMem

/-!
The reset of an untyped and the memory it clears, `resetUntypedCap` of `object/untyped.c`.

The memory below the offset of the free index is cleared from the top in chunks. The loop
counts down in words and ends when the offset wraps around zero. After each chunk the free
index is put into the cap, and then the kernel may be preempted; the invocation is made again
later, and begins at the offset of the cap it then finds. The size of the chunks is a
parameter, and so are the chunks at which a call is preempted.

* `clearMemory_eq`: the bytes that are cleared.
* `Machine.resetLoop_spec`: the chunks that a call has cleared.
* `Machine.resetUntypedCap_outcome`: a call of `resetUntypedCap`, which agrees with the
  `resetUntypedCap` of slots alone.
* `Preempted.zeroFrom`: after any number of preempted calls, what is above the free index is
  zero.
* `resetUntypedCap_restarts`: a call after any number of preempted ones.
-/

namespace Kernel

open ByteMem

/-! ### Clearing memory -/

/-- The loop of `memzero`, for a number of words. -/
def memzeroLoop : ℕ → ℕ → Mem → Mem
  | 0, _, m => m
  | words + 1, p, m => memzeroLoop words (wordAdd p 8) (store m p (List.replicate 8 0))

/-- `memzero`; none if one of its assertions fails. -/
def memzero (s n : ℕ) (m : Mem) : Option Mem :=
  if s % 8 = 0 ∧ n % 8 = 0 then some (memzeroLoop (n / 8) s m) else none

/-- `clearMemory`. -/
def clearMemory (ptr bits : ℕ) (m : Mem) : Option Mem := memzero ptr (wordShl 1 bits) m

/-- The memory with zeros from `a` on, up to `b`. -/
def cleared (m : Mem) (a b : ℕ) : Mem := fun x => if a ≤ x ∧ x < b then 0 else m x

/-- The bytes from `a` on, up to `b`, are zero. -/
def ZeroFrom (m : Mem) (a b : ℕ) : Prop := ∀ x, a ≤ x → x < b → m x = 0

section Memory

variable {m : Mem} {a b c x : ℕ}

lemma cleared_of_outside (h : x < a ∨ b ≤ x) : cleared m a b x = m x := if_neg (by omega)

/-- Two neighbouring ranges. -/
lemma cleared_cleared (hab : a ≤ b) (hbc : b ≤ c) :
    cleared (cleared m b c) a b = cleared m a c := by
  funext x
  simp only [cleared]
  split_ifs with hlow hhigh hall <;> first | rfl | omega

lemma ZeroFrom.cleared (h : ZeroFrom m b c) : ZeroFrom (cleared m a b) a c := by
  intro x hax hxc
  rw [Kernel.cleared]
  split_ifs with hx
  · rfl
  · exact h x (by omega) hxc

lemma store_zeros : store m a (List.replicate 8 0) = cleared m a (a + 8) := by
  funext x
  by_cases hx : a ≤ x ∧ x < a + 8
  · obtain ⟨i, rfl⟩ := Nat.exists_eq_add_of_le hx.1
    rw [store_of_inside i (by rw [List.length_replicate]; omega), List.getElem_replicate, cleared,
      if_pos hx]
  · rw [store_of_outside (by rw [List.length_replicate]; omega), cleared, if_neg hx]

/-- The words of a range that ends with the address space at the latest. -/
lemma memzeroLoop_eq (words : ℕ) : ∀ (p : ℕ) (m : Mem), p + 8 * words ≤ 2 ^ 64 →
    memzeroLoop words p m = cleared m p (p + 8 * words) := by
  induction words with
  | zero =>
      intro p m _
      funext x
      rw [memzeroLoop, cleared_of_outside (by omega)]
  | succ words ih =>
      intro p m hend
      rw [memzeroLoop, store_zeros]
      rcases Nat.eq_zero_or_pos words with rfl | hwords
      · rfl
      · rw [wordAdd_eq (by omega), ih _ _ (by omega)]
        funext x
        simp only [cleared]
        split_ifs with hhigh hlow hall <;> first | rfl | omega

/-- **A range is cleared** that is not smaller than a word, aligned and in the address space. -/
lemma clearMemory_eq {ptr bits : ℕ} (hmin : 3 ≤ bits) (hbits : bits < 64) (hptr : 2 ^ 3 ∣ ptr)
    (hend : ptr + 2 ^ bits ≤ 2 ^ 64) :
    clearMemory ptr bits m = some (cleared m ptr (ptr + 2 ^ bits)) := by
  obtain ⟨words, hwords⟩ := pow_dvd_pow 2 hmin
  have hlt : 2 ^ bits < 2 ^ 64 := Nat.pow_lt_pow_right (by norm_num) hbits
  rw [clearMemory, memzero, wordShl_eq (by omega), one_mul, if_pos (by omega),
    memzeroLoop_eq _ _ _ (by omega)]
  congr 2
  omega

end Memory

/-! ### The reset -/

/-- The slots with their caps, and the memory. -/
structure Machine where
  cspace : CSpace
  mem : Mem

namespace Machine

/-- The loop of `resetUntypedCap`, from an offset downwards; none if the fuel does not suffice.
The result is true if the loop ended, and false if it was preempted. -/
def resetLoop (chunk regionBase : ℕ) (slot : CtePtr) (preempt : ℕ → Bool) :
    ℕ → ℕ → Machine → Option (Bool × Machine)
  | 0, _, _ => none
  | fuel + 1, offset, s =>
      if offset = wordSub 0 (wordShl 1 chunk) then some (true, s)
      else do
        let mem ← clearMemory (wordAdd regionBase offset) chunk s.mem
        let s := ⟨setFreeIndex slot (offset / 2 ^ minUntypedBits) s.cspace, mem⟩
        if preempt (offset / 2 ^ chunk) then some (false, s)
        else resetLoop chunk regionBase slot preempt fuel (wordSub offset (wordShl 1 chunk)) s

/-- `resetUntypedCap`. -/
def resetUntypedCap (chunk : ℕ) (slot : CtePtr) (preempt : ℕ → Bool) (fuel : ℕ) (s : Machine) :
    Option (Bool × Machine) :=
  match (s.cspace slot).cap with
  | .untyped freeIndex deviceMemory blockSize regionBase =>
      let offset := freeIndexToOffset freeIndex
      if offset = 0 then some (true, s)
      else if deviceMemory ∨ blockSize < chunk then do
        let mem ← if !deviceMemory then clearMemory regionBase blockSize s.mem else some s.mem
        some (true, ⟨setFreeIndex slot 0 s.cspace, mem⟩)
      else
        resetLoop chunk regionBase slot preempt fuel (roundDown (wordSub offset 1) chunk) s
  | _ => some (true, s)

end Machine

/-! ### One call -/

section Fuel

variable {chunk regionBase : ℕ} {slot : CtePtr} {preempt : ℕ → Bool} {r : Bool × Machine}

lemma Machine.resetLoop_fuel (fuel : ℕ) : ∀ {offset : ℕ} {s : Machine},
    resetLoop chunk regionBase slot preempt fuel offset s = some r →
    resetLoop chunk regionBase slot preempt (fuel + 1) offset s = some r := by
  induction fuel with
  | zero =>
      intro offset s h
      simp [resetLoop] at h
  | succ fuel ih =>
      intro offset s h
      rw [resetLoop] at h ⊢
      by_cases hend : offset = wordSub 0 (wordShl 1 chunk)
      · rwa [if_pos hend] at h ⊢
      · rw [if_neg hend] at h ⊢
        obtain ⟨mem, hmem, h⟩ := Option.bind_eq_some_iff.mp h
        refine Option.bind_eq_some_iff.mpr ⟨mem, hmem, ?_⟩
        by_cases hpreempt : preempt (offset / 2 ^ chunk) = true
        · rwa [if_pos hpreempt] at h ⊢
        · rw [if_neg hpreempt] at h ⊢
          exact ih h

/-- More fuel does not change the result. -/
lemma Machine.resetUntypedCap_mono {fuel fuel' : ℕ} {s : Machine} (hle : fuel ≤ fuel')
    (h : s.resetUntypedCap chunk slot preempt fuel = some r) :
    s.resetUntypedCap chunk slot preempt fuel' = some r := by
  induction hle with
  | refl => exact h
  | step _ ih =>
      unfold resetUntypedCap at ih ⊢
      cases hcap : (s.cspace slot).cap with
      | untyped freeIndex isDevice bits ptr =>
          simp only [hcap] at ih ⊢
          by_cases hzero : freeIndexToOffset freeIndex = 0
          · rwa [if_pos hzero] at ih ⊢
          by_cases hwhole : isDevice = true ∨ bits < chunk
          · rwa [if_neg hzero, if_pos hwhole] at ih ⊢
          · rw [if_neg hzero, if_neg hwhole] at ih ⊢
            exact resetLoop_fuel _ ih
      | _ => simpa only [hcap] using ih

end Fuel

section Call

variable {chunk freeIndex bits ptr k : ℕ} {isDevice : Bool} {slot : CtePtr} {preempt : ℕ → Bool}
  {s : Machine}

namespace Machine

/-- What the loop has done when it stops at chunk `i`, from chunk `k` on. -/
structure LoopStop (chunk bits ptr : ℕ) (isDevice : Bool) (slot : CtePtr) (preempt : ℕ → Bool)
    (k i : ℕ) (s : Machine) (r : Bool × Machine) : Prop where
  le : i ≤ k
  cap : (r.2.cspace slot).cap =
    .untyped (i * 2 ^ chunk / 2 ^ minUntypedBits) isDevice bits ptr
  others : ∀ p, p ≠ slot → (r.2.cspace p).cap = (s.cspace p).cap
  mem : r.2.mem = cleared s.mem (ptr + i * 2 ^ chunk) (ptr + (k + 1) * 2 ^ chunk)
  ended : r.1 = true → i = 0
  ends : (∀ n, preempt n = false) → r.1 = true
  slots : chunk = resetChunkBits → (r.1, r.2.cspace) = Kernel.resetLoop slot preempt k s.cspace

/-- An iteration of the loop. -/
lemma resetLoop_succ (hmin : 3 ≤ chunk) (hle : chunk ≤ bits) (hok : UntypedOk freeIndex bits ptr)
    (hk : (k + 1) * 2 ^ chunk ≤ 2 ^ bits) (fuel : ℕ) :
    resetLoop chunk ptr slot preempt (fuel + 1) (k * 2 ^ chunk) s =
      if preempt k then
        some (false, ⟨setFreeIndex slot (k * 2 ^ chunk / 2 ^ minUntypedBits) s.cspace,
          cleared s.mem (ptr + k * 2 ^ chunk) (ptr + (k + 1) * 2 ^ chunk)⟩)
      else
        resetLoop chunk ptr slot preempt fuel (wordSub (k * 2 ^ chunk) (2 ^ chunk))
          ⟨setFreeIndex slot (k * 2 ^ chunk / 2 ^ minUntypedBits) s.cspace,
            cleared s.mem (ptr + k * 2 ^ chunk) (ptr + (k + 1) * 2 ^ chunk)⟩ := by
  have htop := hok.top_le
  have hbits : 2 ^ bits ≤ 2 ^ 47 := Nat.pow_le_pow_right (by norm_num) hok.le_max
  have hchunk : 2 ^ chunk ≤ 2 ^ bits := Nat.pow_le_pow_right (by norm_num) hle
  have hpos : 0 < 2 ^ chunk := Nat.two_pow_pos chunk
  have hlt : chunk < 64 := hle.trans_lt (hok.le_max.trans_lt (by decide))
  have hword : wordShl 1 chunk = 2 ^ chunk := by
    rw [wordShl_eq (by omega), one_mul]
  have hnot : k * 2 ^ chunk ≠ wordSub 0 (2 ^ chunk) := by
    rw [wordSub]
    rw [Nat.succ_mul] at hk
    omega
  have haligned : 2 ^ 3 ∣ ptr + k * 2 ^ chunk :=
    (pow_dvd_pow 2 hmin).trans
      (Nat.dvd_add ((pow_dvd_pow 2 hle).trans hok.aligned) (Nat.dvd_mul_left _ _))
  rw [Nat.succ_mul] at hk
  rw [resetLoop, hword, if_neg hnot, wordAdd_eq (by omega),
    clearMemory_eq hmin hlt haligned (by omega), Nat.mul_div_cancel _ hpos, Nat.succ_mul,
    ← Nat.add_assoc]
  rfl

/-- The state after an iteration. -/
def afterChunk (chunk ptr : ℕ) (slot : CtePtr) (k : ℕ) (s : Machine) : Machine :=
  ⟨setFreeIndex slot (k * 2 ^ chunk / 2 ^ minUntypedBits) s.cspace,
    cleared s.mem (ptr + k * 2 ^ chunk) (ptr + (k + 1) * 2 ^ chunk)⟩

/-- The loop stops right after an iteration. -/
lemma LoopStop.here {j : ℕ} {done : Bool} (h : (s.cspace slot).cap = .untyped j isDevice bits ptr)
    (hended : done = true → k = 0) (hends : (∀ n, preempt n = false) → done = true)
    (hslots : chunk = resetChunkBits → (done, (afterChunk chunk ptr slot k s).cspace) =
      Kernel.resetLoop slot preempt k s.cspace) :
    LoopStop chunk bits ptr isDevice slot preempt k k s
      (done, afterChunk chunk ptr slot k s) where
  le := le_rfl
  cap := cap_setFreeIndex_self h
  others := fun _ hp => cap_setFreeIndex_of_ne hp
  mem := rfl
  ended := hended
  ends := hends
  slots := hslots

/-- The loop goes on after an iteration. -/
lemma LoopStop.next {i : ℕ} {r : Bool × Machine} (hgo : preempt (k + 1) = false)
    (h : LoopStop chunk bits ptr isDevice slot preempt k i
      (afterChunk chunk ptr slot (k + 1) s) r) :
    LoopStop chunk bits ptr isDevice slot preempt (k + 1) i s r where
  le := h.le.trans (Nat.le_succ k)
  cap := h.cap
  others := fun p hp => (h.others p hp).trans (cap_setFreeIndex_of_ne hp)
  mem := by
    have hi : i * 2 ^ chunk ≤ (k + 1) * 2 ^ chunk :=
      Nat.mul_le_mul_right _ (h.le.trans (Nat.le_succ k))
    have hk : (k + 1) * 2 ^ chunk ≤ (k + 1 + 1) * 2 ^ chunk :=
      Nat.mul_le_mul_right _ (Nat.le_succ _)
    rw [h.mem, afterChunk, cleared_cleared (Nat.add_le_add_left hi ptr)
      (Nat.add_le_add_left hk ptr)]
  ended := h.ended
  ends := h.ends
  slots := by
    intro hchunk
    rw [h.slots hchunk, Kernel.resetLoop, hgo, if_neg Bool.false_ne_true, afterChunk, hchunk]

/-- **The loop** stops at the chunk at which it is preempted, or when it has wrapped around
zero. By induction on the chunk. -/
lemma resetLoop_spec (preempt : ℕ → Bool) (hmin : 3 ≤ chunk) (hle : chunk ≤ bits)
    (hok : UntypedOk freeIndex bits ptr) (k : ℕ) : ∀ {s : Machine} {j : ℕ},
    (s.cspace slot).cap = .untyped j isDevice bits ptr → (k + 1) * 2 ^ chunk ≤ 2 ^ bits →
    ∃ r, (∀ fuel, k + 2 ≤ fuel →
        resetLoop chunk ptr slot preempt fuel (k * 2 ^ chunk) s = some r) ∧
      ∃ i, LoopStop chunk bits ptr isDevice slot preempt k i s r := by
  have hbits : 2 ^ bits ≤ 2 ^ 47 := Nat.pow_le_pow_right (by norm_num) hok.le_max
  have hchunk : 2 ^ chunk ≤ 2 ^ bits := Nat.pow_le_pow_right (by norm_num) hle
  have hpos : 0 < 2 ^ chunk := Nat.two_pow_pos chunk
  -- on the chunks that are left, from the one at which the loop is downwards
  induction k with
  | zero =>
      intro s j hcap hk
      have hslots (hsize : chunk = resetChunkBits) : (!preempt 0, (afterChunk chunk ptr slot 0
          s).cspace) = Kernel.resetLoop slot preempt 0 s.cspace := by
        rw [Kernel.resetLoop, afterChunk, Nat.zero_mul, Nat.zero_div]
      refine ⟨(!preempt 0, afterChunk chunk ptr slot 0 s), fun fuel hfuel => ?_, 0,
        .here hcap (fun _ => rfl) (fun hgo => by rw [hgo 0]; rfl) hslots⟩
      obtain ⟨fuel, rfl⟩ := Nat.exists_eq_add_of_le' hfuel
      rw [resetLoop_succ hmin hle hok hk]
      cases hpreempt : preempt 0 with
      | true => rfl
      | false =>
          rw [if_neg Bool.false_ne_true, resetLoop, wordShl_eq (by omega), one_mul, Nat.zero_mul,
            if_pos rfl]
          simp [afterChunk]
  | succ k ih =>
      intro s j hcap hk
      cases hpreempt : preempt (k + 1) with
      | true =>
          refine ⟨(false, afterChunk chunk ptr slot (k + 1) s), fun fuel hfuel => ?_, k + 1,
            .here hcap (fun h => Bool.noConfusion h) (fun hgo => ?_) fun hsize => ?_⟩
          · obtain ⟨fuel, rfl⟩ := Nat.exists_eq_add_of_le' (Nat.one_le_of_lt hfuel)
            rw [resetLoop_succ hmin hle hok hk, if_pos hpreempt]
            rfl
          · rw [hgo (k + 1)] at hpreempt
            cases hpreempt
          · rw [Kernel.resetLoop, if_pos hpreempt, afterChunk, hsize]
      | false =>
          have hk' : (k + 1) * 2 ^ chunk ≤ 2 ^ bits := by
            rw [Nat.succ_mul] at hk
            omega
          have hback : wordSub ((k + 1) * 2 ^ chunk) (2 ^ chunk) = k * 2 ^ chunk := by
            rw [Nat.succ_mul] at hk' ⊢
            rw [wordSub_eq (by omega) (by omega), Nat.add_sub_cancel]
          obtain ⟨r, hrun, i, hstop⟩ := ih (s := afterChunk chunk ptr slot (k + 1) s)
            (cap_setFreeIndex_self hcap) hk'
          refine ⟨r, fun fuel hfuel => ?_, i, hstop.next hpreempt⟩
          obtain ⟨fuel, rfl⟩ := Nat.exists_eq_add_of_le' (Nat.one_le_of_lt hfuel)
          rw [resetLoop_succ hmin hle hok hk, hpreempt, if_neg Bool.false_ne_true, hback]
          exact hrun _ (by omega)

/-! ### The call -/

/-- What a call of `resetUntypedCap` does, preempted or not. -/
structure Outcome (chunk freeIndex bits ptr : ℕ) (isDevice : Bool) (slot : CtePtr)
    (preempt : ℕ → Bool) (s : Machine) (i : ℕ) (r : Bool × Machine) : Prop where
  le : i ≤ freeIndex
  cap : (r.2.cspace slot).cap = .untyped i isDevice bits ptr
  others : ∀ p, p ≠ slot → (r.2.cspace p).cap = (s.cspace p).cap
  ended : r.1 = true → i = 0
  ends : (∀ n, preempt n = false) → r.1 = true
  outside : ∀ x, x < ptr ∨ ptr + 2 ^ bits ≤ x → r.2.mem x = s.mem x
  device : isDevice = true → r.1 = true ∧ r.2.mem = s.mem
  zero : isDevice = false → minUntypedBits ≤ chunk →
    ZeroFrom s.mem (ptr + freeIndexToOffset freeIndex) (ptr + 2 ^ bits) →
    ZeroFrom r.2.mem (ptr + freeIndexToOffset i) (ptr + 2 ^ bits)
  slots : chunk = resetChunkBits →
    (r.1, r.2.cspace) = Kernel.resetUntypedCap slot preempt s.cspace

/-- Nothing is cleared. -/
lemma Outcome.kept (hzero : freeIndexToOffset freeIndex = 0) (hok : UntypedOk freeIndex bits ptr)
    (hcap : (s.cspace slot).cap = .untyped freeIndex isDevice bits ptr) :
    Outcome chunk freeIndex bits ptr isDevice slot preempt s 0 (true, s) := by
  have hfree : freeIndex = 0 := by
    rw [freeIndexToOffset_eq hok le_rfl] at hzero
    exact (Nat.mul_eq_zero.mp hzero).resolve_right (by decide)
  subst hfree
  refine ⟨le_rfl, hcap, fun _ _ => rfl, fun _ => rfl, fun _ => rfl, fun _ _ => rfl,
    fun _ => ⟨rfl, rfl⟩,
    fun _ _ h => h, fun _ => ?_⟩
  simp only [Kernel.resetUntypedCap, hcap, hzero, if_true]

/-- Device memory, and an untyped that is smaller than a chunk. -/
lemma Outcome.atOnce (hoffset : freeIndexToOffset freeIndex ≠ 0)
    (hwhole : isDevice = true ∨ bits < chunk)
    (hcap : (s.cspace slot).cap = .untyped freeIndex isDevice bits ptr) {mem : Mem}
    (hmem : mem = if isDevice then s.mem else cleared s.mem ptr (ptr + 2 ^ bits)) :
    Outcome chunk freeIndex bits ptr isDevice slot preempt s 0
      (true, ⟨setFreeIndex slot 0 s.cspace, mem⟩) where
  le := Nat.zero_le _
  cap := cap_setFreeIndex_self hcap
  others := fun _ hp => cap_setFreeIndex_of_ne hp
  ended := fun _ => rfl
  ends := fun _ => rfl
  outside := by
    intro x hx
    rw [hmem]
    cases isDevice with
    | true => rfl
    | false => exact cleared_of_outside hx
  device := by
    intro hdevice
    rw [hmem, hdevice]
    exact ⟨rfl, rfl⟩
  zero := by
    intro hdevice _ _ x hx hend
    rw [hmem, hdevice]
    exact if_pos ⟨(Nat.le_add_right _ _).trans hx, hend⟩
  slots := by
    intro hchunk
    rw [hchunk] at hwhole
    simp only [Kernel.resetUntypedCap, hcap, if_neg hoffset, if_pos hwhole]

/-- The loop, from the chunk below the offset of the free index. -/
lemma LoopStop.outcome {i : ℕ} {r : Bool × Machine} (hok : UntypedOk freeIndex bits ptr)
    (hcap : (s.cspace slot).cap = .untyped freeIndex isDevice bits ptr)
    (hnormal : isDevice = false) (hle : chunk ≤ bits)
    (hoffset : freeIndexToOffset freeIndex ≠ 0)
    (hk : (freeIndexToOffset freeIndex - 1) / 2 ^ chunk = k) (hend : (k + 1) * 2 ^ chunk ≤ 2 ^ bits)
    (h : LoopStop chunk bits ptr isDevice slot preempt k i s r) :
    Outcome chunk freeIndex bits ptr isDevice slot preempt s
      (i * 2 ^ chunk / 2 ^ minUntypedBits) r where
  le := by
    have hmul : i * 2 ^ chunk ≤ freeIndexToOffset freeIndex :=
      calc i * 2 ^ chunk ≤ k * 2 ^ chunk := Nat.mul_le_mul_right _ h.le
        _ ≤ freeIndexToOffset freeIndex - 1 := hk ▸ Nat.div_mul_le_self _ _
        _ ≤ freeIndexToOffset freeIndex := Nat.sub_le _ _
    rw [freeIndexToOffset_eq hok le_rfl] at hmul
    exact Nat.div_le_of_le_mul (hmul.trans_eq (mul_comm _ _))
  cap := h.cap
  others := h.others
  ended := by
    intro hdone
    rw [h.ended hdone, Nat.zero_mul, Nat.zero_div]
  ends := h.ends
  outside := by
    intro x hx
    rw [h.mem]
    exact cleared_of_outside (hx.imp (fun hx => by omega) fun hx => by omega)
  device := fun hdevice => absurd hdevice (by rw [hnormal]; exact Bool.false_ne_true)
  zero := by
    intro _ hmin hzero
    have hi : i * 2 ^ chunk / 2 ^ minUntypedBits * 2 ^ minUntypedBits = i * 2 ^ chunk :=
      Nat.div_mul_cancel ((pow_dvd_pow 2 hmin).trans (Nat.dvd_mul_left _ _))
    have hik : i * 2 ^ chunk ≤ (k + 1) * 2 ^ chunk :=
      Nat.mul_le_mul_right _ (h.le.trans (Nat.le_succ k))
    have hbits : 2 ^ bits < 2 ^ 64 :=
      Nat.pow_lt_pow_right (by norm_num) (hok.le_max.trans_lt (by decide))
    -- all that was in use lies below the chunk at which the loop began
    have habove : freeIndexToOffset freeIndex ≤ (k + 1) * 2 ^ chunk := by
      have hlt := Nat.lt_mul_div_succ (freeIndexToOffset freeIndex - 1) (Nat.two_pow_pos chunk)
      rw [hk, mul_comm] at hlt
      omega
    rw [h.mem, freeIndexToOffset, wordShl_eq (by omega), hi]
    exact ZeroFrom.cleared fun x hx hxend => hzero x (by omega) hxend
  slots := by
    intro hchunk
    have hloop : ¬ (isDevice = true ∨ bits < resetChunkBits) := by
      rw [hnormal, ← hchunk]
      simpa using hle
    simp only [Kernel.resetUntypedCap, hcap, if_neg hoffset, if_neg hloop]
    rw [h.slots hchunk, ← hk, hchunk]

/-- **A call** of `resetUntypedCap` ends for every size of the untyped and of the chunks. -/
lemma resetUntypedCap_outcome (preempt : ℕ → Bool) (hmin : 3 ≤ chunk)
    (hok : UntypedOk freeIndex bits ptr)
    (hcap : (s.cspace slot).cap = .untyped freeIndex isDevice bits ptr) :
    ∃ r, (∀ fuel, freeIndexToOffset freeIndex + 2 ≤ fuel →
        s.resetUntypedCap chunk slot preempt fuel = some r) ∧
      ∃ i, Outcome chunk freeIndex bits ptr isDevice slot preempt s i r := by
  have hbits : bits < 64 := hok.le_max.trans_lt (by decide)
  have hlt : 2 ^ bits < 2 ^ 64 := Nat.pow_lt_pow_right (by norm_num) hbits
  have hle := hok.offset_le le_rfl
  have hoffset := freeIndexToOffset_eq hok le_rfl
  simp only [resetUntypedCap, hcap]
  by_cases hzero : freeIndexToOffset freeIndex = 0
  · exact ⟨(true, s), fun _ _ => if_pos hzero, 0, .kept hzero hok hcap⟩
  by_cases hwhole : isDevice = true ∨ bits < chunk
  · refine ⟨_, fun fuel _ => ?_, 0, .atOnce hzero hwhole hcap rfl⟩
    rw [if_neg hzero, if_pos hwhole]
    cases isDevice with
    | true => rfl
    | false =>
        have hptr : 2 ^ 3 ∣ ptr :=
          (pow_dvd_pow 2 (le_trans (by decide) hok.min_le)).trans hok.aligned
        simp only [Bool.not_false, if_true, clearMemory_eq (le_trans (by decide) hok.min_le) hbits
          hptr hok.top_le]
        rfl
  · have hnormal : isDevice = false := by
      cases isDevice with
      | true => exact absurd (.inl rfl) hwhole
      | false => rfl
    have hchunk : chunk ≤ bits := Nat.le_of_not_lt fun h => hwhole (.inr h)
    have hend : ((freeIndexToOffset freeIndex - 1) / 2 ^ chunk + 1) * 2 ^ chunk ≤ 2 ^ bits := by
      have hpow : 2 ^ (bits - chunk) * 2 ^ chunk = 2 ^ bits := by
        rw [← pow_add, Nat.sub_add_cancel hchunk]
      rw [← hpow]
      refine Nat.mul_le_mul_right _ (Nat.div_lt_of_lt_mul ?_)
      rw [mul_comm, hpow]
      omega
    obtain ⟨r, hrun, i, hstop⟩ := resetLoop_spec preempt hmin hchunk hok _ hcap hend
    refine ⟨r, fun fuel hfuel => ?_, _, hstop.outcome hok hcap hnormal hchunk hzero rfl hend⟩
    rw [if_neg hzero, if_neg hwhole, roundDown, wordSub_eq (by omega) (by omega)]
    have hdiv := Nat.div_le_self (freeIndexToOffset freeIndex - 1) (2 ^ chunk)
    exact hrun fuel (by omega)

end Machine

end Call

/-! ### Calls that are preempted -/

/-- What may happen between two calls: the cap of the untyped stays as it is, and so does the
memory at and above the offset of its free index. -/
def Between (slot : CtePtr) (s t : Machine) : Prop :=
  (t.cspace slot).cap = (s.cspace slot).cap ∧
    ∀ freeIndex isDevice bits ptr, (s.cspace slot).cap = .untyped freeIndex isDevice bits ptr →
      ∀ x, ptr + freeIndexToOffset freeIndex ≤ x → x < ptr + 2 ^ bits → t.mem x = s.mem x

/-- Any number of calls that are preempted, each at a chunk of its own. -/
inductive Preempted (chunk : ℕ) (slot : CtePtr) (s : Machine) : Machine → Prop
  | refl : Preempted chunk slot s s
  | call {t t' u : Machine} {preempt : ℕ → Bool} {fuel : ℕ} (h : Preempted chunk slot s t)
      (hbetween : Between slot t t')
      (hcall : t'.resetUntypedCap chunk slot preempt fuel = some (false, u)) :
      Preempted chunk slot s u

section Runs

variable {chunk freeIndex bits ptr : ℕ} {isDevice : Bool} {slot : CtePtr} {s t t' : Machine}

lemma UntypedOk.mono {i : ℕ} (h : UntypedOk freeIndex bits ptr) (hle : i ≤ freeIndex) :
    UntypedOk i bits ptr :=
  ⟨h.min_le, h.le_max, h.aligned, h.top_le, hle.trans h.free_le⟩

/-- The invariant over calls: the cap with the free index it has come to, and the zeros above
it, if the memory is to be cleared. -/
structure ResetProgress (chunk freeIndex bits ptr : ℕ) (isDevice : Bool) (slot : CtePtr)
    (s : Machine) (i : ℕ) (t : Machine) : Prop where
  le : i ≤ freeIndex
  cap : (t.cspace slot).cap = .untyped i isDevice bits ptr
  zero : isDevice = false → minUntypedBits ≤ chunk →
    ZeroFrom s.mem (ptr + freeIndexToOffset freeIndex) (ptr + 2 ^ bits) →
    ZeroFrom t.mem (ptr + freeIndexToOffset i) (ptr + 2 ^ bits)

lemma ResetProgress.between {i : ℕ}
    (h : ResetProgress chunk freeIndex bits ptr isDevice slot s i t)
    (hbetween : Between slot t t') :
    ResetProgress chunk freeIndex bits ptr isDevice slot s i t' where
  le := h.le
  cap := hbetween.1.trans h.cap
  zero := by
    intro hdevice hmin hzero x hx hend
    rw [hbetween.2 _ _ _ _ h.cap x hx hend]
    exact h.zero hdevice hmin hzero x hx hend

/-- **A step**: the call, from where the calls before it have come to. -/
lemma ResetProgress.call {i : ℕ} (h : ResetProgress chunk freeIndex bits ptr isDevice slot s i t)
    (hmin : 3 ≤ chunk) (hok : UntypedOk freeIndex bits ptr) (preempt : ℕ → Bool) :
    ∃ r, (∀ fuel, freeIndexToOffset i + 2 ≤ fuel →
        t.resetUntypedCap chunk slot preempt fuel = some r) ∧
      ∃ j, Machine.Outcome chunk i bits ptr isDevice slot preempt t j r ∧
        ResetProgress chunk freeIndex bits ptr isDevice slot s j r.2 := by
  obtain ⟨r, hrun, j, hout⟩ := Machine.resetUntypedCap_outcome preempt hmin (hok.mono h.le) h.cap
  exact ⟨r, hrun, j, hout, hout.le.trans h.le, hout.cap, fun hdevice hsize hzero =>
    hout.zero hdevice hsize (h.zero hdevice hsize hzero)⟩

/-- **Any number of preempted calls** keep the invariant. -/
lemma Preempted.progress (h : Preempted chunk slot s t) (hmin : 3 ≤ chunk)
    (hok : UntypedOk freeIndex bits ptr)
    (hcap : (s.cspace slot).cap = .untyped freeIndex isDevice bits ptr) :
    ∃ i, ResetProgress chunk freeIndex bits ptr isDevice slot s i t := by
  induction h with
  | refl => exact ⟨freeIndex, le_rfl, hcap, fun _ _ hzero => hzero⟩
  | @call t t' u preempt fuel h hbetween hcall ih =>
      obtain ⟨i, hi⟩ := ih
      obtain ⟨r, hrun, j, -, hj⟩ := (hi.between hbetween).call hmin hok preempt
      have hsame : some r = some (false, u) :=
        (hrun _ (le_max_left _ fuel)).symm.trans (Machine.resetUntypedCap_mono (le_max_right _ _)
          hcall)
      rw [Option.some.inj hsame] at hj
      exact ⟨j, hj⟩

/-- **The reset is restartable**: after any number of preempted calls on an untyped as boot
and Retype make them, with memory that was zero above the free index at the start, the memory
above the free index recorded in the cap is zero, if it is not device memory and a chunk is at
least the unit of the free index. The next call ends, clears nothing outside of the untyped,
and if it is not preempted leaves the free index zero and the whole untyped zero. It is not
preempted if no chunk is a place to be preempted at. Device memory is left as it is, and its reset
is never preempted. -/
theorem resetUntypedCap_restarts (hmin : 3 ≤ chunk) (hok : UntypedOk freeIndex bits ptr)
    (hcap : (s.cspace slot).cap = .untyped freeIndex isDevice bits ptr)
    (hrun : Preempted chunk slot s t) :
    ∃ i ≤ freeIndex, (t.cspace slot).cap = .untyped i isDevice bits ptr ∧
      (isDevice = false → minUntypedBits ≤ chunk →
        ZeroFrom s.mem (ptr + freeIndexToOffset freeIndex) (ptr + 2 ^ bits) →
        ZeroFrom t.mem (ptr + freeIndexToOffset i) (ptr + 2 ^ bits)) ∧
      ∀ t' preempt, Between slot t t' → ∃ r,
        (∀ fuel, 2 ^ bits + 2 ≤ fuel → t'.resetUntypedCap chunk slot preempt fuel = some r) ∧
        (∀ x, x < ptr ∨ ptr + 2 ^ bits ≤ x → r.2.mem x = t'.mem x) ∧
        (∀ p, p ≠ slot → (r.2.cspace p).cap = (t'.cspace p).cap) ∧
        ((∀ n, preempt n = false) → r.1 = true) ∧
        (r.1 = true → (r.2.cspace slot).cap = .untyped 0 isDevice bits ptr) ∧
        (r.1 = true → isDevice = false → minUntypedBits ≤ chunk →
          ZeroFrom s.mem (ptr + freeIndexToOffset freeIndex) (ptr + 2 ^ bits) →
          ZeroFrom r.2.mem ptr (ptr + 2 ^ bits)) ∧
        (isDevice = true → r.1 = true ∧ r.2.mem = t'.mem) ∧
        (chunk = resetChunkBits →
          (r.1, r.2.cspace) = Kernel.resetUntypedCap slot preempt t'.cspace) := by
  obtain ⟨i, hi⟩ := hrun.progress hmin hok hcap
  refine ⟨i, hi.le, hi.cap, hi.zero, fun t' preempt hbetween => ?_⟩
  obtain ⟨r, hcall, j, hout, hj⟩ := (hi.between hbetween).call hmin hok preempt
  have hfuel : freeIndexToOffset i ≤ 2 ^ bits := by
    rw [freeIndexToOffset_eq (hok.mono hi.le) le_rfl]
    exact (hok.mono hi.le).offset_le le_rfl
  refine ⟨r, fun fuel hle => hcall fuel (by omega), hout.outside, hout.others, hout.ends,
    fun hdone => ?_, fun hdone hdevice hsize hzero => ?_, hout.device, hout.slots⟩
  · rw [hout.cap, hout.ended hdone]
  · have hall := hj.zero hdevice hsize hzero
    rwa [hout.ended hdone] at hall

end Runs

/-- An untyped of 32 bytes that are all in use. -/
def usedUntyped (isDevice : Bool) (bits : ℕ) : Machine :=
  ⟨untypedSpace isDevice bits 0x1000, fun _ => 1⟩

/-- The untyped after its upper half has been cleared. -/
def halfReset : Machine :=
  ⟨setFreeIndex ⟨0, 1⟩ 1 (usedUntyped false 5).cspace,
    memzeroLoop 2 0x1010 (usedUntyped false 5).mem⟩

/-- A call that is preempted after the upper half, and one that is not, and ends. -/
theorem resetUntypedCap_restarts_half : ∃ r,
    (∀ fuel, 34 ≤ fuel →
      halfReset.resetUntypedCap 4 ⟨0, 1⟩ (fun _ => false) fuel = some r) ∧
      r.1 = true ∧ ZeroFrom r.2.mem 0x1000 0x1020 := by
  have hok : UntypedOk 2 5 0x1000 := ⟨by decide, by decide, by decide, by norm_num, by decide⟩
  have hcap : ((usedUntyped false 5).cspace ⟨0, 1⟩).cap = .untyped 2 false 5 0x1000 := rfl
  have hcall : (usedUntyped false 5).resetUntypedCap 4 ⟨0, 1⟩ (fun _ => true) 3 =
      some (false, halfReset) := rfl
  have hrun : Preempted 4 ⟨0, 1⟩ (usedUntyped false 5) halfReset :=
    .call .refl ⟨rfl, fun _ _ _ _ _ _ _ _ => rfl⟩ hcall
  obtain ⟨i, -, -, -, hnext⟩ := resetUntypedCap_restarts (by decide) hok hcap hrun
  obtain ⟨r, hrun, -, -, hends, -, hzero, -⟩ := hnext halfReset (fun _ => false)
    ⟨rfl, fun _ _ _ _ _ _ _ _ => rfl⟩
  have hdone : r.1 = true := hends fun _ => rfl
  refine ⟨r, hrun, hdone, hzero hdone rfl (by decide) fun x hx hend => absurd hend ?_⟩
  exact Nat.not_lt.mpr hx

/-- Device memory is not cleared. With chunks of eight bytes the free index of an untyped of
sixteen bytes is zero after the upper half, and then the next call has nothing to do. -/
theorem resetUntypedCap_not_cleared :
    (((usedUntyped true 4).resetUntypedCap 8 ⟨0, 1⟩ (fun _ => false) 18).map fun r =>
        (r.1, r.2.mem 0x1000)) = some (true, 1) ∧
      ((((usedUntyped false 4).resetUntypedCap 3 ⟨0, 1⟩ (fun _ => true) 18).bind fun r =>
        r.2.resetUntypedCap 3 ⟨0, 1⟩ (fun _ => false) 18).map fun r =>
          (r.1, r.2.mem 0x1000)) = some (true, 1) :=
  ⟨rfl, rfl⟩

end Kernel
