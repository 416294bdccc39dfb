import Sel4Test.Kernel.RootServer
import Sel4Test.Kernel.Untyped
import Sel4Test.Lib.Checked

/-!
The lookup of caps on the fast path, `lookup_fp` of `fastpath/fastpath.h`, against
`resolveAddressBits` of `kernel/cspace.c`.

Both walk through the CNodes. The fast one takes the bits from the top of the pointer by
shifts to the left and checks the depth at the end; the other counts the bits that remain and
checks at each level. Here both are programs that stop at a fault: a shift by the width of a
word or more, a slot past the end of its CNode, or a loop that does not end.

* `CNodeValues.bounds`: the radices and guards that CNode caps have, by the functions that make and
  change them.
* `field_eq`: bits taken from the top, and bits taken by a mask.
* `resolveAddressBits_cnode`: a level of the walk.
* `resolveChecked_gives`, `lookupFp_gives`: both walks, by the loop rule.
* `lookupFp_eq_lookupCap`: the fast lookup finds what the slow one finds.
-/

namespace Kernel

open Checked

/-! ### CNode caps -/

/-- `cap_capType_equals(cap, cap_cnode_cap)`. -/
def isCNodeCap : Cap → Bool
  | .cnode .. => true
  | _ => false

/-- The radices, the guard sizes and the guards of CNode caps: `create_root_cnode`,
`createObject` for an accepted request, and `updateCapData` make and change them. -/
inductive CNodeValues : ℕ → ℕ → ℕ → Prop
  | root (rc : RootConfig) : CNodeValues rc.rootCNodeSizeBits (wordBits - rc.rootCNodeSizeBits) 0
  | retype {call : UntypedCall} {slot : CtePtr} {cap : Cap} {s : CSpace} {r : Retype}
      {base radix guardSize guard ptr : ℕ} (h : decodeUntypedInvocation call slot cap s = .ok r)
      (hcap : createObject r.newType base r.userSize r.deviceMemory =
        .cnode radix guardSize guard ptr) : CNodeValues radix guardSize guard
  | update {preserve : Bool} {newData radix guardSize guard ptr radix' guardSize' guard' ptr' : ℕ}
      (h : CNodeValues radix guardSize guard)
      (hcap : Cap.updateCapData preserve newData (.cnode radix guardSize guard ptr) =
        .cnode radix' guardSize' guard' ptr') : CNodeValues radix' guardSize' guard'

/-- Every CNode cap of the slots is one of these. -/
def CNodesHold (s : CSpace) : Prop :=
  ∀ p radix guardSize guard ptr, (s p).cap = .cnode radix guardSize guard ptr →
    CNodeValues radix guardSize guard

/-- A request for CNodes that is accepted has a size other than zero. -/
lemma decodeUntypedInvocation_userSize {call : UntypedCall} {slot : CtePtr} {cap : Cap}
    {s : CSpace} {r : Retype} (h : decodeUntypedInvocation call slot cap s = .ok r) :
    r.userSize < wordBits ∧ (r.newType = .capTable → r.userSize ≠ 0) := by
  unfold decodeUntypedInvocation at h
  obtain ⟨-, h⟩ := failIf_bind_eq_ok h
  obtain ⟨-, h⟩ := failIf_bind_eq_ok h
  split at h
  · split at h
    · cases h
    · obtain ⟨hsize, h⟩ := failIf_bind_eq_ok h
      obtain ⟨hzero, h⟩ := failIf_bind_eq_ok h
      obtain ⟨-, h⟩ := failIf_bind_eq_ok h
      obtain ⟨nodeCap, -, h⟩ := bind_eq_ok h
      split at h
      · unfold decodeWindow at h
        obtain ⟨-, h⟩ := failIf_bind_eq_ok h
        obtain ⟨-, h⟩ := failIf_bind_eq_ok h
        obtain ⟨-, h⟩ := failIf_bind_eq_ok h
        obtain ⟨_, -, h⟩ := bind_eq_ok h
        obtain ⟨-, h⟩ := failIf_bind_eq_ok h
        obtain ⟨-, h⟩ := failIf_bind_eq_ok h
        cases h
        rw [not_or] at hsize
        exact ⟨not_le.mp hsize.1, fun ht h => hzero ⟨ht, h⟩⟩
      · cases h
  · cases h

/-- **The values** that a CNode cap has: a level resolves at least one bit, and the guard has
no more bits than its size says. -/
lemma CNodeValues.bounds {radix guardSize guard : ℕ} (h : CNodeValues radix guardSize guard) :
    1 ≤ radix ∧ radix < 64 ∧ guardSize < 64 ∧ guard < 2 ^ guardSize := by
  induction h with
  | root rc =>
      have hvalid := rc.cnode_valid
      refine ⟨by omega, by omega, ?_, Nat.two_pow_pos _⟩
      rw [wordBits]
      omega
  | @retype call slot cap s r base radix guardSize guard ptr h hcap =>
      obtain ⟨hlt, hne⟩ := decodeUntypedInvocation_userSize h
      cases ht : r.newType with
      | capTable =>
          rw [ht, createObject] at hcap
          injection hcap with hradix hsize hguard
          have hpos := hne ht
          rw [wordBits] at hlt
          subst hradix hsize hguard
          exact ⟨by omega, hlt, by omega, Nat.two_pow_pos _⟩
      | _ =>
          rw [ht, createObject] at hcap
          cases hcap
  | @update preserve newData radix guardSize guard ptr _ _ _ _ h hcap ih =>
      rw [Cap.updateCapData] at hcap
      split_ifs at hcap
      injection hcap with hradix hsize hguard
      subst hradix hsize hguard
      exact ⟨ih.1, ih.2.1, Nat.mod_lt _ (by norm_num), Nat.mod_lt _ (Nat.two_pow_pos _)⟩

/-! ### The two walks -/

/-- The slot of a CNode with an index, which is a fault past its end. -/
def cnodeSlot (ptr radixBits index : ℕ) : Except Fault CtePtr := do
  assert (index < 2 ^ radixBits)
  return ⟨ptr, index⟩

/-- The check of the guard in `lookup_fp`, which is skipped if its size is zero. -/
def guardMismatch (cptr2 guardBits capGuard : ℕ) : Except Fault Bool :=
  if guardBits ≠ 0 then do return decide ((← shr cptr2 (wordBits - guardBits)) ≠ capGuard)
  else .ok false

/-- A round of the loop of `lookup_fp`, with the cap and the bits that are resolved; it ends
with the cap that is returned. -/
def lookupFpRound (s : CSpace) (cptr : ℕ) (v : Cap × ℕ) : Except Fault ((Cap × ℕ) ⊕ Cap) :=
  match v.1 with
  | .cnode radixBits guardBits capGuard ptr => do
      let cptr2 ← shl cptr v.2
      if ← guardMismatch cptr2 guardBits capGuard then return .inr .null
      else
        let radix ← shr (← shl cptr2 guardBits) (wordBits - radixBits)
        let slot ← cnodeSlot ptr radixBits radix
        let cap := (s slot).cap
        let bits := v.2 + (guardBits + radixBits)
        if bits < wordBits ∧ isCNodeCap cap then return .inl (cap, bits)
        else if bits > wordBits then return .inr .null
        else return .inr cap
  | _ => .error .asserts

/-- `lookup_fp`. -/
def lookupFp (s : CSpace) (cap : Cap) (cptr : ℕ) : Except Fault Cap :=
  if !isCNodeCap cap then .ok .null else loop (lookupFpRound s cptr) wordBound (cap, 0)

/-- A round of the loop of `resolveAddressBits`, with the cap and the bits that remain. -/
def resolveRound (s : CSpace) (capptr : ℕ) (v : Cap × ℕ) :
    Except Fault ((Cap × ℕ) ⊕ Except LookupFault (CtePtr × ℕ)) :=
  match v.1 with
  | .cnode radixBits guardBits capGuard ptr => do
      let levelBits := radixBits + guardBits
      assert (levelBits ≠ 0)
      let guard ← shr capptr ((v.2 + 2 ^ 64 - guardBits) % 64)
      let guardBit ← shl 1 guardBits
      let guard := guard % guardBit
      if v.2 < guardBits ∨ guard ≠ capGuard then
        return .inr (.error (.guardMismatch capGuard v.2 guardBits))
      else if v.2 < levelBits then return .inr (.error (.depthMismatch levelBits v.2))
      else
        let offset ← shr capptr (v.2 - levelBits)
        let radixBit ← shl 1 radixBits
        let slot ← cnodeSlot ptr radixBits (offset % radixBit)
        if v.2 = levelBits then return .inr (.ok (slot, 0))
        else if isCNodeCap (s slot).cap then return .inl ((s slot).cap, v.2 - levelBits)
        else return .inr (.ok (slot, v.2 - levelBits))
  | _ => .error .asserts

/-- `resolveAddressBits`, with its shifts and its assertion checked. -/
def resolveChecked (s : CSpace) (nodeCap : Cap) (capptr nBits : ℕ) :
    Except Fault (Except LookupFault (CtePtr × ℕ)) :=
  if !isCNodeCap nodeCap then .ok (.error .invalidRoot)
  else loop (resolveRound s capptr) wordBound (nodeCap, nBits)

/-! ### Bits -/

/-- **Bits of a pointer**: the `k` uppermost of the `n` that remain, taken by a shift to the
left and one to the right, or by a shift and a mask. -/
lemma field_eq (cptr : ℕ) {n k : ℕ} (hn : n ≤ 64) (hk : k ≤ n) :
    cptr * 2 ^ (64 - n) % 2 ^ 64 / 2 ^ (64 - k) = cptr / 2 ^ (n - k) % 2 ^ k := by
  have hword : 2 ^ 64 = 2 ^ n * 2 ^ (64 - n) := by
    rw [← pow_add]
    congr 1
    omega
  have hdiv : 2 ^ (64 - k) = 2 ^ (n - k) * 2 ^ (64 - n) := by
    rw [← pow_add]
    congr 1
    omega
  have hrest : 2 ^ n = 2 ^ (n - k) * 2 ^ k := by
    rw [← pow_add]
    congr 1
    omega
  calc cptr * 2 ^ (64 - n) % 2 ^ 64 / 2 ^ (64 - k)
      = cptr % 2 ^ n * 2 ^ (64 - n) / (2 ^ (n - k) * 2 ^ (64 - n)) := by
        rw [hdiv, hword, Nat.mul_mod_mul_right]
    _ = cptr % 2 ^ n / 2 ^ (n - k) := Nat.mul_div_mul_right _ _ (Nat.two_pow_pos _)
    _ = cptr / 2 ^ (n - k) % 2 ^ k := by rw [hrest, Nat.mod_mul_right_div_self]

/-- What is shifted out at the top. -/
lemma shifted_lt {x k : ℕ} (hx : x < 2 ^ 64) (hk : k ≤ 64) : x / 2 ^ (64 - k) < 2 ^ k := by
  refine Nat.div_lt_of_lt_mul ?_
  rwa [← pow_add, Nat.sub_add_cancel hk]

/-- The index on the fast path. -/
lemma index_eq (cptr : ℕ) {bits guardSize radix : ℕ} (h : radix + guardSize ≤ 64 - bits)
    (hbits : bits < 64) :
    cptr * 2 ^ bits % 2 ^ 64 * 2 ^ guardSize % 2 ^ 64 / 2 ^ (64 - radix) =
      cptr / 2 ^ (64 - bits - (radix + guardSize)) % 2 ^ radix := by
  have hfield := field_eq cptr (n := 64 - bits - guardSize) (k := radix) (by omega) (by omega)
  have hshift : 64 - (64 - bits - guardSize) = bits + guardSize := by omega
  have hleft : 64 - bits - guardSize - radix = 64 - bits - (radix + guardSize) := by omega
  rw [hshift, hleft, pow_add, ← Nat.mul_assoc] at hfield
  rw [Nat.mod_mul_mod]
  exact hfield

/-! ### A level of the walk -/

section Level

variable {s : CSpace} {capptr radix guardSize guard ptr : ℕ}

lemma eq_cnode_of_isCNodeCap {cap : Cap} (h : isCNodeCap cap = true) :
    ∃ radix guardSize guard ptr, cap = .cnode radix guardSize guard ptr := by
  cases cap with
  | cnode radix guardSize guard ptr => exact ⟨radix, guardSize, guard, ptr, rfl⟩
  | _ => cases h

/-- A level of `resolveLoop`. -/
lemma resolveLoop_cnode (fuel n : ℕ) :
    resolveLoop s capptr (fuel + 1) (.cnode radix guardSize guard ptr) n =
      if n < guardSize ∨
          capptr / 2 ^ ((n + 2 ^ 64 - guardSize) % 64) % 2 ^ guardSize ≠ guard then
        .error (.guardMismatch guard n guardSize)
      else if n < radix + guardSize then .error (.depthMismatch (radix + guardSize) n)
      else if n = radix + guardSize then
        .ok (⟨ptr, capptr / 2 ^ (n - (radix + guardSize)) % 2 ^ radix⟩, 0)
      else if isCNodeCap (s ⟨ptr, capptr / 2 ^ (n - (radix + guardSize)) % 2 ^ radix⟩).cap then
        resolveLoop s capptr fuel
          (s ⟨ptr, capptr / 2 ^ (n - (radix + guardSize)) % 2 ^ radix⟩).cap
          (n - (radix + guardSize))
      else .ok (⟨ptr, capptr / 2 ^ (n - (radix + guardSize)) % 2 ^ radix⟩,
        n - (radix + guardSize)) := by
  rw [resolveLoop]
  dsimp only
  cases (s ⟨ptr, capptr / 2 ^ (n - (radix + guardSize)) % 2 ^ radix⟩).cap <;> rfl

/-- More levels than there are bits do not change the result. -/
lemma resolveLoop_fuel (hs : CNodesHold s) (fuel : ℕ) : ∀ {fuel' n : ℕ} {cap : Cap},
    (∀ radix guardSize guard ptr, cap = .cnode radix guardSize guard ptr → 1 ≤ radix) →
    n < fuel → n < fuel' → resolveLoop s capptr fuel cap n = resolveLoop s capptr fuel' cap n := by
  induction fuel with
  | zero =>
      intro fuel' n cap _ hn
      omega
  | succ fuel ih =>
      intro fuel' n cap hcap hn hn'
      obtain ⟨fuel', rfl⟩ := Nat.exists_eq_add_of_le' (Nat.one_le_of_lt hn')
      cases hkind : isCNodeCap cap with
      | false =>
          cases cap <;> first | rfl | cases hkind
      | true =>
          obtain ⟨radix, guardSize, guard, ptr, rfl⟩ := eq_cnode_of_isCNodeCap hkind
          have hradix := hcap _ _ _ _ rfl
          rw [resolveLoop_cnode, resolveLoop_cnode]
          split_ifs with hguard hdepth hend hnext
          · rfl
          · rfl
          · rfl
          · exact ih (fun _ _ _ _ h => (hs _ _ _ _ _ h).bounds.1) (by omega) (by omega)
          · rfl

/-- **A level** of `resolveAddressBits`. -/
lemma resolveAddressBits_cnode (hs : CNodesHold s) (h : CNodeValues radix guardSize guard) (n : ℕ) :
    resolveAddressBits s (.cnode radix guardSize guard ptr) capptr n =
      if n < guardSize ∨
          capptr / 2 ^ ((n + 2 ^ 64 - guardSize) % 64) % 2 ^ guardSize ≠ guard then
        .error (.guardMismatch guard n guardSize)
      else if n < radix + guardSize then .error (.depthMismatch (radix + guardSize) n)
      else if n = radix + guardSize then
        .ok (⟨ptr, capptr / 2 ^ (n - (radix + guardSize)) % 2 ^ radix⟩, 0)
      else if isCNodeCap (s ⟨ptr, capptr / 2 ^ (n - (radix + guardSize)) % 2 ^ radix⟩).cap then
        resolveAddressBits s
          (s ⟨ptr, capptr / 2 ^ (n - (radix + guardSize)) % 2 ^ radix⟩).cap capptr
          (n - (radix + guardSize))
      else .ok (⟨ptr, capptr / 2 ^ (n - (radix + guardSize)) % 2 ^ radix⟩,
        n - (radix + guardSize)) := by
  have hradix := h.bounds.1
  rw [resolveAddressBits, resolveLoop_cnode]
  split_ifs with hguard hdepth hend hnext
  · rfl
  · rfl
  · rfl
  · exact resolveLoop_fuel hs n (fun _ _ _ _ h => (hs _ _ _ _ _ h).bounds.1) (by omega)
      (Nat.lt_succ_self _)
  · rfl

end Level

/-! ### The walks end without a fault -/

section Walks

variable {s : CSpace} {cptr : ℕ}

/-- The caps that a walk can be at. -/
def AtCNode (cap : Cap) : Prop :=
  ∃ radix guardSize guard ptr, cap = .cnode radix guardSize guard ptr ∧ CNodeValues radix guardSize guard

lemma CNodesHold.atCNode (hs : CNodesHold s) {p : CtePtr} (h : isCNodeCap (s p).cap = true) :
    AtCNode (s p).cap := by
  obtain ⟨radix, guardSize, guard, ptr, hcap⟩ := eq_cnode_of_isCNodeCap h
  exact ⟨radix, guardSize, guard, ptr, hcap, hs _ _ _ _ _ hcap⟩

lemma gives_cnodeSlot {ptr radix index : ℕ} (h : index < 2 ^ radix) :
    Gives (cnodeSlot ptr radix index) (· = ⟨ptr, index⟩) :=
  (gives_assert h).bind fun _ _ => gives_pure rfl

/-- A round of `resolveAddressBits` ends with the result, or goes on with fewer bits. -/
lemma resolveRound_gives (hs : CNodesHold s) {cap : Cap} {n : ℕ} (hcap : AtCNode cap)
    (hn : n ≤ 64) :
    Gives (resolveRound s cptr (cap, n)) (Sum.elim
      (fun v => v.2 < n ∧ AtCNode v.1 ∧
        resolveAddressBits s v.1 cptr v.2 = resolveAddressBits s cap cptr n)
      (· = resolveAddressBits s cap cptr n)) := by
  obtain ⟨radix, guardSize, guard, ptr, rfl, hholds⟩ := hcap
  obtain ⟨hpos, hradix, hsize, -⟩ := hholds.bounds
  have hbit {k : ℕ} (hk : k < 64) : 1 * 2 ^ k % wordBound = 2 ^ k := by
    rw [one_mul]
    exact Nat.mod_eq_of_lt (Nat.pow_lt_pow_right (by norm_num) hk)
  rw [resolveAddressBits_cnode hs hholds]
  refine (gives_assert (by omega)).bind fun _ _ => ?_
  refine (gives_shr (Nat.mod_lt _ (by norm_num))).bind fun g hg => ?_
  refine (gives_shl hsize).bind fun guardBit hguardBit => ?_
  subst hg hguardBit
  dsimp only
  rw [hbit hsize]
  by_cases hguard : n < guardSize ∨
      cptr / 2 ^ ((n + 2 ^ 64 - guardSize) % 64) % 2 ^ guardSize ≠ guard
  · rw [if_pos hguard, if_pos hguard]
    exact gives_pure rfl
  rw [if_neg hguard, if_neg hguard]
  by_cases hdepth : n < radix + guardSize
  · rw [if_pos hdepth, if_pos hdepth]
    exact gives_pure rfl
  rw [if_neg hdepth, if_neg hdepth]
  refine (gives_shr (by omega)).bind fun offset hoffset => ?_
  refine (gives_shl hradix).bind fun radixBit hradixBit => ?_
  subst hoffset hradixBit
  rw [hbit hradix]
  refine (gives_cnodeSlot (Nat.mod_lt _ (Nat.two_pow_pos _))).bind fun slot hslot => ?_
  subst hslot
  split_ifs with hend hnext
  · exact gives_pure rfl
  · exact gives_pure ⟨by dsimp only; omega, hs.atCNode hnext, rfl⟩
  · exact gives_pure rfl

/-- **`resolveAddressBits`** ends, and no shift reaches the width of a word. -/
lemma resolveChecked_gives (hs : CNodesHold s) {cap : Cap} {n : ℕ}
    (hcap : isCNodeCap cap = true → AtCNode cap) (hn : n ≤ 64) :
    resolveChecked s cap cptr n = .ok (resolveAddressBits s cap cptr n) := by
  rw [resolveChecked]
  cases hkind : isCNodeCap cap with
  | false =>
      cases cap <;> first | rfl | cases hkind
  | true =>
      rw [if_neg (by decide)]
      have hgives : Gives (loop (resolveRound s cptr) wordBound (cap, n))
          (· = resolveAddressBits s cap cptr n) := by
        refine Gives.loop (fun m v => m = v.2 ∧ m ≤ 64 ∧ AtCNode v.1 ∧
          resolveAddressBits s v.1 cptr v.2 = resolveAddressBits s cap cptr n) ?_
          ⟨rfl, hn, hcap hkind, rfl⟩ (hn.trans_lt (by norm_num [wordBound]))
        rintro m ⟨cap', n'⟩ ⟨rfl, hm, hcap', hsame⟩
        refine (resolveRound_gives hs hcap' hm).mono fun r hr => ?_
        cases r with
        | inl v => exact ⟨v.2, hr.1, rfl, hr.1.le.trans hm, hr.2.1, hr.2.2.trans hsame⟩
        | inr b => exact hr.trans hsame
      obtain ⟨b, hb, rfl⟩ := hgives
      exact hb

/-- The cap that a lookup finds, null if it fails. -/
def found (s : CSpace) : Except LookupFault (CtePtr × ℕ) → Cap
  | .error _ => .null
  | .ok v => (s v.1).cap

/-- The guard on the fast path; without the bits that are shifted in at the end, it is the
guard of `resolveAddressBits`. -/
lemma guardMismatch_gives {radix guardSize guard bits : ℕ} (h : CNodeValues radix guardSize guard)
    (hbits : bits < 64) :
    Gives (guardMismatch (cptr * 2 ^ bits % wordBound) guardSize guard) fun mismatch =>
      guardSize ≤ 64 - bits → (mismatch = true ↔
        cptr / 2 ^ ((64 - bits + 2 ^ 64 - guardSize) % 64) % 2 ^ guardSize ≠ guard) := by
  obtain ⟨-, -, hsize, hguard⟩ := h.bounds
  rw [guardMismatch]
  by_cases hzero : guardSize = 0
  · rw [if_neg (not_not.mpr hzero)]
    subst hzero
    refine gives_ok fun _ => ?_
    have hnone : guard = 0 := by simpa using hguard
    rw [hnone, pow_zero, Nat.mod_one]
    simp
  · rw [if_pos hzero]
    refine (gives_shr (by rw [wordBits]; omega)).bind fun g hg => gives_pure fun hle => ?_
    have hfield := field_eq cptr (Nat.sub_le 64 bits) hle
    have hshift : (64 - bits + 2 ^ 64 - guardSize) % 64 = 64 - bits - guardSize := by omega
    rw [Nat.sub_sub_self hbits.le] at hfield
    rw [hg, hshift, ← hfield, decide_eq_true_iff]
    rfl

/-- A round of `lookup_fp` ends with the cap that `resolveAddressBits` finds with the bits
that remain, or goes on with fewer. -/
lemma lookupFpRound_gives (hs : CNodesHold s) {cap : Cap} {bits : ℕ} (hcap : AtCNode cap)
    (hbits : bits < 64) :
    Gives (lookupFpRound s cptr (cap, bits)) (Sum.elim
      (fun v => bits < v.2 ∧ v.2 < 64 ∧ AtCNode v.1 ∧
        found s (resolveAddressBits s v.1 cptr (64 - v.2)) =
          found s (resolveAddressBits s cap cptr (64 - bits)))
      (· = found s (resolveAddressBits s cap cptr (64 - bits)))) := by
  obtain ⟨radix, guardSize, guard, ptr, rfl, hholds⟩ := hcap
  obtain ⟨hpos, hradix, hsize, -⟩ := hholds.bounds
  rw [resolveAddressBits_cnode hs hholds]
  refine (gives_shl hbits).bind fun cptr2 hcptr2 => ?_
  subst hcptr2
  refine (guardMismatch_gives hholds hbits).bind fun mismatch hmismatch => ?_
  cases mismatch with
  | true =>
      refine gives_pure ?_
      rw [if_pos]
      · rfl
      · by_cases hle : guardSize ≤ 64 - bits
        · exact .inr ((hmismatch hle).mp rfl)
        · exact .inl (not_le.mp hle)
  | false =>
      refine (gives_shl hsize).bind fun x hx => ?_
      refine (gives_shr (by rw [wordBits]; omega)).bind fun index hindex => ?_
      have hlt : index < 2 ^ radix := by
        rw [hindex, hx]
        exact shifted_lt (Nat.mod_lt _ (by norm_num [wordBound])) hradix.le
      refine (gives_cnodeSlot hlt).bind fun slot hslot => ?_
      subst hslot
      dsimp only
      -- the fast lookup finds out behind the read what the slow one checks before it
      by_cases hover : 64 - bits < radix + guardSize
      · rw [if_neg (by rw [wordBits]; omega), if_pos (by rw [wordBits]; omega)]
        refine gives_pure ?_
        split_ifs <;> rfl
      · have hguard : ¬ (64 - bits < guardSize ∨
            cptr / 2 ^ ((64 - bits + 2 ^ 64 - guardSize) % 64) % 2 ^ guardSize ≠ guard) := by
          rintro (hlt | hne)
          · omega
          · exact Bool.false_ne_true ((hmismatch (by omega)).mpr hne)
        have hsame : index = cptr / 2 ^ (64 - bits - (radix + guardSize)) % 2 ^ radix := by
          rw [hindex, hx]
          exact index_eq cptr (by omega) hbits
        have hleft : 64 - bits - (radix + guardSize) = 64 - (bits + (guardSize + radix)) := by omega
        rw [if_neg hguard, if_neg hover, ← hsame]
        by_cases hend : 64 - bits = radix + guardSize
        · rw [if_pos hend, if_neg (by rw [wordBits]; omega), if_neg (by rw [wordBits]; omega)]
          exact gives_pure rfl
        rw [if_neg hend]
        by_cases hnext : isCNodeCap (s ⟨ptr, index⟩).cap = true
        · rw [if_pos hnext, if_pos ⟨by rw [wordBits]; omega, hnext⟩, hleft]
          exact gives_pure ⟨by dsimp only; omega, by dsimp only; omega, hs.atCNode hnext, rfl⟩
        · rw [if_neg hnext, if_neg (fun h => hnext h.2), if_neg (by rw [wordBits]; omega)]
          exact gives_pure rfl

/-- **`lookup_fp`** ends without a fault, with the cap that `resolveAddressBits` finds. -/
lemma lookupFp_gives (hs : CNodesHold s) {cap : Cap} (hcap : isCNodeCap cap = true → AtCNode cap) :
    lookupFp s cap cptr = .ok (found s (resolveAddressBits s cap cptr wordBits)) := by
  rw [lookupFp]
  cases hkind : isCNodeCap cap with
  | false =>
      cases cap <;> first | rfl | cases hkind
  | true =>
      rw [if_neg (by decide)]
      have hgives : Gives (loop (lookupFpRound s cptr) wordBound (cap, 0))
          (· = found s (resolveAddressBits s cap cptr wordBits)) := by
        refine Gives.loop (fun m v => m = 64 - v.2 ∧ v.2 < 64 ∧ AtCNode v.1 ∧
          found s (resolveAddressBits s v.1 cptr (64 - v.2)) =
            found s (resolveAddressBits s cap cptr wordBits)) ?_
          ⟨rfl, by norm_num, hcap hkind, rfl⟩ (by norm_num [wordBound])
        rintro m ⟨cap', bits⟩ ⟨rfl, hbits, hcap', hsame⟩
        refine (lookupFpRound_gives hs hcap' hbits).mono fun r hr => ?_
        cases r with
        | inl v =>
            obtain ⟨hmore, hlt, hat, hv⟩ := hr
            exact ⟨64 - v.2, Nat.sub_lt_sub_left hbits hmore, rfl, hlt, hat, hv.trans hsame⟩
        | inr b => exact hr.trans hsame
      obtain ⟨b, hb, rfl⟩ := hgives
      exact hb

end Walks

/-! ### The two lookups -/

/-- **The fast lookup**: in every CSpace, a cyclic one included, `lookup_fp` ends and gives
the cap that `lookupCap` finds, or the null cap if `lookupCap` fails; it gives the null cap
exactly if `lookupCap` fails or finds one. Both walks end, no shift reaches the width of a
word, every index is within its CNode, and the assertion of `resolveAddressBits` holds. -/
theorem lookupFp_eq_lookupCap (s : CSpace) (thread cptr : ℕ) (hs : CNodesHold s) :
    lookupFp s (s ⟨thread, tcbCTable⟩).cap cptr =
        .ok ((lookupCap s thread cptr).toOption.getD .null) ∧
      (lookupFp s (s ⟨thread, tcbCTable⟩).cap cptr = .ok .null ↔
        ∀ cap, lookupCap s thread cptr = .ok cap → cap = .null) ∧
      resolveChecked s (s ⟨thread, tcbCTable⟩).cap cptr wordBits =
        .ok (resolveAddressBits s (s ⟨thread, tcbCTable⟩).cap cptr wordBits) := by
  have hcap : isCNodeCap (s ⟨thread, tcbCTable⟩).cap = true → AtCNode (s ⟨thread, tcbCTable⟩).cap :=
    hs.atCNode
  have hfp : lookupFp s (s ⟨thread, tcbCTable⟩).cap cptr =
      .ok (found s (resolveAddressBits s (s ⟨thread, tcbCTable⟩).cap cptr wordBits)) :=
    lookupFp_gives hs hcap
  refine ⟨?_, ?_, resolveChecked_gives hs hcap le_rfl⟩
  · rw [hfp, lookupCap, lookupSlot]
    cases resolveAddressBits s (s ⟨thread, tcbCTable⟩).cap cptr wordBits with
    | error fault => rfl
    | ok v => rfl
  · rw [hfp, lookupCap, lookupSlot]
    cases resolveAddressBits s (s ⟨thread, tcbCTable⟩).cap cptr wordBits with
    | error fault => simp [found]
    | ok v => simp [found]

/-- A CNode of `2 ^ 16` slots that all hold its own cap, with a guard of size zero. -/
def cyclicSpace : CSpace := fun _ => ⟨.cnode 16 0 0 0x10000, ⟨none, none, false, false⟩⟩

/-- Four levels of the same CNode. -/
theorem lookupFp_eq_lookupCap_cyclic :
    lookupFp cyclicSpace (cyclicSpace ⟨0, tcbCTable⟩).cap 0x0001000200030004 =
      .ok ((lookupCap cyclicSpace 0 0x0001000200030004).toOption.getD .null) := by
  have hroot : CNodeValues 16 48 0 := .root ⟨.el1, 16, 11, false, by decide, by decide⟩
  have hupdate : Cap.updateCapData false 0 (.cnode 16 48 0 0) = .cnode 16 0 0 0 := rfl
  have hholds : CNodeValues 16 0 0 := .update hroot hupdate
  refine (lookupFp_eq_lookupCap cyclicSpace 0 0x0001000200030004 ?_).1
  intro p radix guardSize guard ptr hp
  injection hp with hradix hsize hguard
  subst hradix hsize hguard
  exact hholds

end Kernel
