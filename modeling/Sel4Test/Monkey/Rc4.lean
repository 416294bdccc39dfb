import Mathlib.Tactic

/-!
The cipher of the authentication, `monkey/crypto/rc4.cc`.

`rc4Init` permutes the bytes by the key, and `rc4Inplace` combines the data with the
stream of bytes that the permutation yields. All indices are taken modulo 256, so they
are bytes here; `char` is unsigned on the target. An empty key makes the source divide
by its size; the functions have no result then.

The stream does not depend on the data, so the cipher is its own inverse (`rc4_rc4`)
and a verification may exchange challenge and cipher (`verifies_swap`), as the check
of the memory nodes does.
-/

namespace Monkey

/-- The permutation `s`. -/
abbrev SBox := Vector UInt8 256

/-- The exchange of two entries. -/
def SBox.swap (s : SBox) (i j : UInt8) : SBox :=
  (s.set i.toNat (s.get j.toFin) i.toNat_lt).set j.toNat (s.get i.toFin) j.toNat_lt

/-- `rc4Init`. -/
def rc4Init (key : List UInt8) : Option SBox :=
  if key = [] then none
  else
    let start : SBox := Vector.ofFn fun i => UInt8.ofNat i
    let (s, _) := (List.range 256).foldl (fun (s, j) i =>
      let i' := UInt8.ofNat i
      let j := j + s.get i'.toFin + key.getD (i % key.length) 0
      (s.swap i' j, j)) (start, (0 : UInt8))
    some s

/-- The loop of `rc4Inplace`. -/
def rc4Loop (s : SBox) (i j : UInt8) : List UInt8 → List UInt8
  | [] => []
  | b :: data =>
      let i := i + 1
      let j := j + s.get i.toFin
      let s := s.swap i j
      let t := s.get i.toFin + s.get j.toFin
      (b ^^^ s.get t.toFin) :: rc4Loop s i j data

/-- `rc4Inplace` and `rc4`. -/
def rc4 (data key : List UInt8) : Option (List UInt8) :=
  (rc4Init key).map fun s => rc4Loop s 0 0 data

/-- `rc4Verify` for one key. -/
def rc4Verify (key challenge cipher : List UInt8) : Option Bool :=
  (rc4 challenge key).map fun data => data = cipher

/-- `rc4Verify` for a keyring: the index of the first key that verifies, or `-1`. -/
def rc4VerifyKeyring (challenge cipher : List UInt8) : ℕ → List (List UInt8) → Option ℤ
  | _, [] => some (-1)
  | i, key :: keyring =>
      match rc4Verify key challenge cipher with
      | none => none
      | some true => some i
      | some false => rc4VerifyKeyring challenge cipher (i + 1) keyring

@[simp] lemma length_rc4Loop (s : SBox) (i j : UInt8) (data : List UInt8) :
    (rc4Loop s i j data).length = data.length := by
  induction data generalizing s i j with
  | nil => rfl
  | cons b data ih => rw [rc4Loop, List.length_cons, List.length_cons, ih]

/-- The stream does not depend on the data. -/
lemma rc4Loop_rc4Loop (s : SBox) (i j : UInt8) (data : List UInt8) :
    rc4Loop s i j (rc4Loop s i j data) = data := by
  induction data generalizing s i j with
  | nil => rfl
  | cons b data ih =>
      simp only [rc4Loop]
      rw [ih, UInt8.xor_assoc, UInt8.xor_self, UInt8.xor_zero]

lemma rc4_isSome_iff {data key : List UInt8} : (rc4 data key).isSome = true ↔ key ≠ [] := by
  rw [rc4, Option.isSome_map, rc4Init]
  split_ifs with h
  · simp [h]
  · simp [h]

lemma length_of_rc4 {data key out : List UInt8} (h : rc4 data key = some out) :
    out.length = data.length := by
  obtain ⟨s, -, rfl⟩ := Option.map_eq_some_iff.mp h
  exact length_rc4Loop s 0 0 data

/-- **RC4 is its own inverse.** -/
lemma rc4_rc4 {data key out : List UInt8} (h : rc4 data key = some out) :
    rc4 out key = some data := by
  obtain ⟨s, hs, rfl⟩ := Option.map_eq_some_iff.mp h
  rw [rc4, hs, Option.map_some, rc4Loop_rc4Loop]

/-- The key is not empty, and turns the challenge into the cipher. -/
def Verifies (challenge cipher key : List UInt8) : Prop := rc4 challenge key = some cipher

instance (challenge cipher key : List UInt8) : Decidable (Verifies challenge cipher key) :=
  inferInstanceAs (Decidable (rc4 challenge key = some cipher))

lemma Verifies.ne_nil {challenge cipher key : List UInt8} (h : Verifies challenge cipher key) :
    key ≠ [] :=
  rc4_isSome_iff.mp (by rw [h]; rfl)

lemma verifies_swap {challenge cipher key : List UInt8} :
    Verifies cipher challenge key ↔ Verifies challenge cipher key :=
  ⟨rc4_rc4, rc4_rc4⟩

lemma rc4Verify_nil (challenge cipher : List UInt8) : rc4Verify [] challenge cipher = none := rfl

lemma rc4Verify_eq {challenge cipher key : List UInt8} (hkey : key ≠ []) :
    rc4Verify key challenge cipher = some (decide (Verifies challenge cipher key)) := by
  have hsome : (rc4 challenge key).isSome = true := rc4_isSome_iff.mpr hkey
  obtain ⟨out, hout⟩ := Option.isSome_iff_exists.mp hsome
  simp [rc4Verify, Verifies, hout]

end Monkey
