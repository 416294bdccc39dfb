import Sel4Test.Lib.Checked
import Sel4Test.Lib.PermCipher
import Sel4Test.Monkey.Rc4

/-!
The indices of the cipher, `monkey/crypto/rc4.cc`, under both readings of plain `char`.

The source computes with `int` indices, and the key schedule adds the key bytes after they
went through an array of plain `char`. Where `char` is signed, a key byte from 128 on counts
as negative, and the remainder by 256 keeps the sign of a sum below zero. Here every access to
an array checks its index and every remainder its divisor, and a violation ends the program
with a fault.

* `scheduleRun_spec`, `streamRun_spec`: as long as no sum of the key schedule is negative, both
  loops compute the standard cipher of `PermCipher`.
* `rc4_bytes`: so does the cipher on bytes that the authentication is modelled with.
* `rc4_standard_iff`: exactly which keys are safe.
-/

namespace Monkey.PlainChar

open PermCipher Checked

/-! ### Checked accesses -/

/-- The reading of plain `char`. -/
inductive Signedness
  | signed
  | unsigned
  deriving DecidableEq, Repr

/-- A plain `char` as an `int`. -/
def Signedness.read : Signedness → UInt8 → ℤ
  | .signed, b => if b.toNat < 128 then b.toNat else b.toNat - 256
  | .unsigned, b => b.toNat

/-- The ways the program leaves the language. -/
inductive Fault
  | byZero
  | outside
  deriving DecidableEq, Repr

/-- `a % b` of unsigned numbers. -/
def rem (a b : ℕ) : Except Fault ℕ := if b = 0 then .error .byZero else .ok (a % b)

/-- An element of a `ByteArray`. -/
def element (bs : List UInt8) (i : ℕ) : Except Fault UInt8 := (bs[i]?).elim (.error .outside) .ok

/-- `s[i]`. -/
def entry (s : SBox) (i : ℤ) : Except Fault UInt8 :=
  if h : i.toNat < 256 ∧ 0 ≤ i then .ok (s.get ⟨i.toNat, h.1⟩) else .error .outside

/-- `s[i] = b`. -/
def setEntry (s : SBox) (i : ℤ) (b : UInt8) : Except Fault SBox :=
  if h : i.toNat < 256 ∧ 0 ≤ i then .ok (s.set i.toNat b h.1) else .error .outside

/-- `tmp = s[i]; s[i] = s[j]; s[j] = tmp`. -/
def exchange (s : SBox) (i j : ℤ) : Except Fault SBox := do
  let tmp ← entry s i
  let b ← entry s j
  let s ← setEntry s i b
  setEntry s j tmp

/-! ### The key schedule -/

/-- A round of the first loop of `rc4Init`. -/
def fillStep (key : List UInt8) (v : SBox × SBox) (i : ℕ) : Except Fault (SBox × SBox) := do
  let s ← setEntry v.1 i (UInt8.ofNat i)
  let r ← rem i key.length
  let b ← element key r
  let k ← setEntry v.2 i b
  return (s, k)

/-- The first loop of `rc4Init`. `s` holds anything before. -/
def fill (key : List UInt8) (s : SBox) : Except Fault (SBox × SBox) :=
  (List.range 256).foldlM (fillStep key) (s, Vector.replicate 256 0)

/-- A round of the second loop of `rc4Init`, on `s` and `j`. -/
def scheduleStep (c : Signedness) (k : SBox) (v : SBox × ℤ) (i : ℕ) :
    Except Fault (SBox × ℤ) := do
  let si ← entry v.1 i
  let ki ← entry k i
  let j := (v.2 + si.toNat + c.read ki).tmod 256
  let s ← exchange v.1 i j
  return (s, j)

/-- `rc4Init` after `m` rounds of its second loop. -/
def scheduleRun (c : Signedness) (key : List UInt8) (s : SBox) (m : ℕ) :
    Except Fault (SBox × ℤ) := do
  let v ← fill key s
  (List.range m).foldlM (scheduleStep c v.2) (v.1, 0)

/-- `rc4Init`. -/
def rc4Init (c : Signedness) (key : List UInt8) (s : SBox) : Except Fault SBox := do
  let v ← scheduleRun c key s 256
  return v.1

/-! ### The stream -/

/-- The variables of `rc4Inplace`. -/
structure Vars where
  s : SBox
  i : ℤ
  j : ℤ
  t : ℤ
  data : List UInt8

/-- A round of `rc4Inplace`, on the byte `k` of the data. -/
def streamStep (v : Vars) (k : ℕ) : Except Fault Vars := do
  let i := (v.i + 1).tmod 256
  let si ← entry v.s i
  let j := (v.j + si.toNat).tmod 256
  let s ← exchange v.s i j
  let a ← entry s i
  let b ← entry s j
  let t : ℤ := ((a.toNat + b.toNat : ℕ) : ℤ).tmod 256
  let d ← element v.data k
  let x ← entry s t
  return ⟨s, i, j, t, v.data.set k (d ^^^ x)⟩

/-- `rc4Inplace` after `m` rounds of its loop. -/
def streamRun (c : Signedness) (key data : List UInt8) (s : SBox) (m : ℕ) :
    Except Fault Vars := do
  let s ← rc4Init c key s
  (List.range m).foldlM streamStep ⟨s, 0, 0, 0, data⟩

/-- `rc4Inplace`. -/
def rc4Inplace (c : Signedness) (data key : List UInt8) (s : SBox) :
    Except Fault (List UInt8) := do
  let v ← streamRun c key data s data.length
  return v.data

/-- `rc4`. -/
def rc4 (c : Signedness) (dataIn key : List UInt8) (s : SBox) : Except Fault (List UInt8) :=
  rc4Inplace c dataIn key s

/-! ### The standard cipher -/

/-- The key, with its bytes read as unsigned. -/
def residues (key : List UInt8) : List (Fin 256) := key.map UInt8.toFin

/-- RC4 as it is specified. -/
def standard (key data : List UInt8) : List UInt8 :=
  crypt (fun b k => b ^^^ UInt8.ofFin k) (residues key) data

/-- The array holds a permutation. -/
def Holds (s : SBox) (σ : Equiv.Perm (Fin 256)) : Prop := ∀ x, (s.get x).toFin = σ x

/-- The sum of round `m` of the standard key schedule, with the key byte read as `char`. -/
def keySum (c : Signedness) (key : List UInt8) (m : ℕ) : ℤ :=
  let (σ, j) := schedule (residues key) m
  (j.val : ℤ) + (σ (Fin.ofNat 256 m)).val + c.read (key.getD (m % key.length) 0)

/-! ### Accesses in range -/

lemma entry_val (s : SBox) (x : Fin 256) : entry s x.val = .ok (s.get x) := by
  have hx : (x.val : ℤ).toNat = x.val := Int.toNat_natCast _
  have hr : (x.val : ℤ).toNat < 256 ∧ (0 : ℤ) ≤ x.val := ⟨by omega, by omega⟩
  rw [entry, dif_pos hr]
  congr 2

lemma setEntry_val (s : SBox) (x : Fin 256) (b : UInt8) :
    setEntry s x.val b = .ok (s.set x.val b x.isLt) := by
  have hr : (x.val : ℤ).toNat < 256 ∧ (0 : ℤ) ≤ x.val := ⟨by omega, by omega⟩
  rw [setEntry, dif_pos hr]
  congr 2

lemma entry_neg (s : SBox) {i : ℤ} (hi : i < 0) : entry s i = .error .outside :=
  dif_neg fun h => by omega

lemma ofNat_val {m : ℕ} (hm : m < 256) : (Fin.ofNat 256 m).val = m := Nat.mod_eq_of_lt hm

lemma element_lt {bs : List UInt8} {i : ℕ} (hi : i < bs.length) :
    element bs i = .ok (bs.getD i 0) := by
  rw [element, List.getD_eq_getElem?_getD, List.getElem?_eq_getElem hi]
  rfl

lemma get_set (s : SBox) (x y : Fin 256) (b : UInt8) :
    (s.set x.val b x.isLt).get y = if x = y then b else s.get y := by
  have hget : ∀ (t : SBox), t.get y = t[y.val] := fun _ => rfl
  rw [hget, hget, Vector.getElem_set]
  simp only [Fin.ext_iff]

/-- The exchange of two entries exchanges two values of the permutation. -/
lemma Holds.swap {s : SBox} {σ : Equiv.Perm (Fin 256)} (h : Holds s σ) (i j : Fin 256) :
    Holds ((s.set i.val (s.get j) i.isLt).set j.val (s.get i) j.isLt) (σ * Equiv.swap i j) := by
  intro x
  rw [get_set, get_set, Equiv.Perm.mul_apply]
  rcases eq_or_ne j x with rfl | hj
  · rw [if_pos rfl, Equiv.swap_apply_right, h]
  · rcases eq_or_ne i x with rfl | hi
    · rw [if_neg hj, if_pos rfl, Equiv.swap_apply_left, h]
    · rw [if_neg hj, if_neg hi, Equiv.swap_apply_of_ne_of_ne hi.symm hj.symm, h]

lemma exchange_spec {s : SBox} {σ : Equiv.Perm (Fin 256)} (h : Holds s σ) (i j : Fin 256) :
    ∃ s', exchange s i.val j.val = .ok s' ∧ Holds s' (σ * Equiv.swap i j) := by
  refine ⟨(s.set i.val (s.get j) i.isLt).set j.val (s.get i) j.isLt, ?_, h.swap i j⟩
  rw [exchange, entry_val, entry_val]
  show (setEntry s i.val (s.get j) >>= fun s => setEntry s j.val _) = _
  rw [setEntry_val]
  exact setEntry_val _ _ _

/-! ### The key schedule -/

/-- The first `m` entries of both arrays are filled. -/
def Filled (key : List UInt8) (m : ℕ) (v : SBox × SBox) : Prop :=
  (∀ x : Fin 256, x.val < m → (v.1.get x).toFin = x) ∧
    ∀ x : Fin 256, x.val < m → v.2.get x = key.getD (x.val % key.length) 0

/-- The first loop leaves the identity in `s`, and the key, repeated, in `k`. -/
lemma fill_spec {key : List UInt8} (hkey : key ≠ []) (s : SBox) :
    ∃ v, fill key s = .ok v ∧ Holds v.1 1 ∧
      ∀ m < 256, v.2.get (Fin.ofNat 256 m) = key.getD (m % key.length) 0 := by
  have hlen : 0 < key.length := List.length_pos_iff.mpr hkey
  have hround : ∀ m < 256, ∀ v : SBox × SBox, Filled key m v →
      ∃ v', fillStep key v m = .ok v' ∧ Filled key (m + 1) v' := by
    rintro m hm v ⟨hs, hk⟩
    have hset : ∀ t b, setEntry t (m : ℤ) b = .ok (t.set m b hm) :=
      fun t b => setEntry_val t ⟨m, hm⟩ b
    have hrem : rem m key.length = .ok (m % key.length) := if_neg (by omega)
    refine ⟨(v.1.set m (UInt8.ofNat m) hm, v.2.set m (key.getD (m % key.length) 0) hm), ?_,
      fun x hx => ?_, fun x hx => ?_⟩
    · rw [fillStep, hset, hrem]
      show (element key (m % key.length) >>= fun b => setEntry v.2 m b >>= _) = _
      rw [element_lt (Nat.mod_lt _ hlen)]
      show (setEntry v.2 m _ >>= _) = _
      rw [hset]
      rfl
    · have hget := get_set v.1 ⟨m, hm⟩ x (UInt8.ofNat m)
      rcases eq_or_ne (⟨m, hm⟩ : Fin 256) x with rfl | hne
      · rw [if_pos rfl] at hget
        rw [hget]
        exact Fin.ext (by simp [Nat.mod_eq_of_lt hm])
      · rw [if_neg hne] at hget
        rw [hget]
        have hval : m ≠ x.val := fun h => hne (Fin.ext h)
        exact hs x (by omega)
    · have hget := get_set v.2 ⟨m, hm⟩ x (key.getD (m % key.length) 0)
      rcases eq_or_ne (⟨m, hm⟩ : Fin 256) x with rfl | hne
      · rw [if_pos rfl] at hget
        exact hget
      · rw [if_neg hne] at hget
        rw [hget]
        have hval : m ≠ x.val := fun h => hne (Fin.ext h)
        exact hk x (by omega)
  have hstart : Filled key 0 (s, Vector.replicate 256 0) :=
    ⟨fun _ hx => absurd hx (Nat.not_lt_zero _), fun _ hx => absurd hx (Nat.not_lt_zero _)⟩
  obtain ⟨v, hv, hs, hk⟩ := counted_spec (Filled key) hstart hround
  refine ⟨v, hv, fun x => hs x x.isLt, fun m hm => ?_⟩
  rw [hk _ (Fin.isLt _), ofNat_val hm]

lemma residues_getD (key : List UInt8) (m : ℕ) :
    (residues key).getD (m % (residues key).length) 0 = (key.getD (m % key.length) 0).toFin := by
  rw [residues, List.length_map, List.getD_eq_getElem?_getD, List.getD_eq_getElem?_getD,
    List.getElem?_map]
  cases key[m % key.length]? with
  | none => rfl
  | some b => rfl

/-- The remainder of a sum that is not negative is the position of the standard cipher. -/
lemma keySum_tmod (c : Signedness) {key : List UInt8} {m : ℕ} (h : 0 ≤ keySum c key m) :
    (keySum c key m).tmod 256 = (schedule (residues key) (m + 1)).2.val := by
  rw [Int.tmod_eq_emod_of_nonneg h]
  simp only [schedule, residues_getD, Fin.val_add, keySum]
  cases c with
  | signed =>
      simp only [Signedness.read, UInt8.toFin_val]
      split_ifs <;> omega
  | unsigned =>
      simp only [Signedness.read, UInt8.toFin_val]
      omega

/-- A round whose sum is not negative is one exchange of the standard key schedule. -/
lemma scheduleStep_spec {c : Signedness} {key : List UInt8} {k s : SBox} {m : ℕ} (hm : m < 256)
    (hk : k.get (Fin.ofNat 256 m) = key.getD (m % key.length) 0)
    (hs : Holds s (schedule (residues key) m).1) (h : 0 ≤ keySum c key m) :
    ∃ s', scheduleStep c k (s, (schedule (residues key) m).2.val) m
        = .ok (s', ((schedule (residues key) (m + 1)).2.val : ℤ)) ∧
      Holds s' (schedule (residues key) (m + 1)).1 := by
  have hi : (m : ℤ) = (Fin.ofNat 256 m).val := by rw [ofNat_val hm]
  obtain ⟨s', hs', hholds⟩ :=
    exchange_spec hs (Fin.ofNat 256 m) (schedule (residues key) (m + 1)).2
  have hval : (s.get (Fin.ofNat 256 m)).toNat
      = ((schedule (residues key) m).1 (Fin.ofNat 256 m)).val := by
    rw [← hs]
    rfl
  refine ⟨s', ?_, hholds⟩
  rw [scheduleStep, hi, entry_val, entry_val]
  show (exchange s _ ((_ + ((s.get (Fin.ofNat 256 m)).toNat : ℤ) + c.read (k.get _)).tmod 256)
    >>= fun s' => Except.ok (s', (_ : ℤ))) = _
  rw [hval, hk]
  show (exchange s _ ((keySum c key m).tmod 256) >>= fun s' =>
    Except.ok (s', (keySum c key m).tmod 256)) = _
  rw [keySum_tmod c h, hs']
  rfl

/-- A round whose sum is negative leaves the array. -/
lemma scheduleStep_neg {c : Signedness} {key : List UInt8} {k s : SBox} {m : ℕ} (hm : m < 256)
    (hk : k.get (Fin.ofNat 256 m) = key.getD (m % key.length) 0)
    (hs : Holds s (schedule (residues key) m).1) (h : keySum c key m < 0) :
    scheduleStep c k (s, (schedule (residues key) m).2.val) m = .error .outside := by
  have hi : (m : ℤ) = (Fin.ofNat 256 m).val := by rw [ofNat_val hm]
  have hval : (s.get (Fin.ofNat 256 m)).toNat
      = ((schedule (residues key) m).1 (Fin.ofNat 256 m)).val := by
    rw [← hs]
    rfl
  have hneg : (keySum c key m).tmod 256 < 0 := by
    have hread : -128 ≤ c.read (key.getD (m % key.length) 0) := by
      cases c with
      | signed =>
          rw [Signedness.read]
          split_ifs <;> omega
      | unsigned =>
          rw [Signedness.read]
          omega
    have hlow : -128 ≤ keySum c key m := by
      simp only [keySum]
      omega
    have habs : (- keySum c key m).tmod 256 = - keySum c key m :=
      Int.tmod_eq_of_lt (by omega) (by omega)
    rw [Int.neg_tmod] at habs
    omega
  rw [scheduleStep, hi, entry_val, entry_val]
  show (exchange s _ ((_ + ((s.get (Fin.ofNat 256 m)).toNat : ℤ) + c.read (k.get _)).tmod 256)
    >>= fun s' => Except.ok (s', (_ : ℤ))) = _
  rw [hval, hk]
  show (exchange s _ ((keySum c key m).tmod 256) >>= fun s' =>
    Except.ok (s', (keySum c key m).tmod 256)) = _
  rw [exchange, entry_val, entry_neg s hneg]
  rfl

/-- **The key schedule** is the standard one as long as no sum is negative. -/
lemma scheduleRun_spec {c : Signedness} {key : List UInt8} (hkey : key ≠ []) (s₀ : SBox) {n : ℕ}
    (hn : n ≤ 256) (h : ∀ m < n, 0 ≤ keySum c key m) :
    ∃ s, scheduleRun c key s₀ n = .ok (s, ((schedule (residues key) n).2.val : ℤ)) ∧
      Holds s (schedule (residues key) n).1 := by
  obtain ⟨v, hv, hs, hk⟩ := fill_spec hkey s₀
  obtain ⟨w, hw, hj, hholds⟩ := counted_spec (f := scheduleStep c v.2) (n := n) (s := (v.1, 0))
    (fun m w => w.2 = (schedule (residues key) m).2.val ∧ Holds w.1 (schedule (residues key) m).1)
    ⟨rfl, hs⟩ (by
      rintro m hm ⟨s, j⟩ ⟨rfl, hs⟩
      obtain ⟨s', hs', hholds⟩ := scheduleStep_spec (by omega) (hk m (by omega)) hs (h m hm)
      exact ⟨_, hs', rfl, hholds⟩)
  refine ⟨w.1, ?_, hholds⟩
  rw [scheduleRun, hv, ← hj]
  exact hw

/-- The key schedule ends at the first negative sum. -/
lemma scheduleRun_neg {c : Signedness} {key : List UInt8} (hkey : key ≠ []) (s₀ : SBox) {n : ℕ}
    (hn : n < 256) (h : ∀ m < n, 0 ≤ keySum c key m) (hneg : keySum c key n < 0) :
    scheduleRun c key s₀ (n + 1) = .error .outside := by
  obtain ⟨v, hv, -, hk⟩ := fill_spec hkey s₀
  obtain ⟨s, hs, hholds⟩ := scheduleRun_spec hkey s₀ hn.le h
  rw [scheduleRun, hv] at hs ⊢
  show (List.range (n + 1)).foldlM (scheduleStep c v.2) (v.1, 0) = _
  rw [counted_succ]
  have hn' : (List.range n).foldlM (scheduleStep c v.2) (v.1, 0)
    = .ok (s, ((schedule (residues key) n).2.val : ℤ)) := hs
  rw [hn']
  exact scheduleStep_neg hn (hk n hn) hholds hneg

/-- For an empty key the first remainder is one by zero. -/
lemma scheduleRun_nil (c : Signedness) (s₀ : SBox) (n : ℕ) :
    scheduleRun c [] s₀ n = .error .byZero := by
  have hfill : fill [] s₀ = .error .byZero := by
    have hrange : List.range 256 = 0 :: (List.range 255).map Nat.succ := List.range_succ_eq_map
    rw [fill, hrange, List.foldlM_cons]
    rfl
  rw [scheduleRun, hfill]
  rfl

/-! ### The stream -/

/-- The variables after `m` rounds: those of the standard cipher, and the first `m` bytes of the
data combined with the stream. -/
structure StreamInv (key data : List UInt8) (m : ℕ) (v : Vars) : Prop where
  holds : Holds v.s (after (residues key) m).perm
  i : v.i = (after (residues key) m).i.val
  j : v.j = (after (residues key) m).j.val
  t : 0 ≤ v.t ∧ v.t < 256
  data : v.data = data.mapIdx fun k b =>
    if k < m then b ^^^ UInt8.ofFin (keystream (residues key) k) else b

lemma tmod_add_val (x y : Fin 256) : ((x.val : ℤ) + (y.val : ℤ)).tmod 256 = (x + y).val := by
  rw [Int.tmod_eq_emod_of_nonneg (by omega), Fin.val_add]
  omega

/-- A round of the stream is one exchange of the standard cipher. -/
lemma streamStep_spec {key data : List UInt8} {m : ℕ} {v : Vars} (h : StreamInv key data m v)
    (hm : m < data.length) : ∃ v', streamStep v m = .ok v' ∧ StreamInv key data (m + 1) v' := by
  obtain ⟨s, i, j, t, d⟩ := v
  obtain ⟨hs, rfl, rfl, -, rfl⟩ := h
  dsimp only at hs
  obtain ⟨st, hst⟩ : ∃ st, st = after (residues key) m := ⟨_, rfl⟩
  obtain ⟨st', hst'⟩ : ∃ st', st' = after (residues key) (m + 1) := ⟨_, rfl⟩
  have hnext : st' = next st := by rw [hst', hst, after_succ]
  -- both indices stay elements of the box, so the remainders of C are those of numbers
  have hi : ((st.i.val : ℤ) + 1).tmod 256 = st'.i.val := by
    rw [hnext]
    exact tmod_add_val st.i 1
  have hval : ∀ {s σ} (_ : Holds s σ) (x : Fin 256), ((s.get x).toNat : ℤ) = (σ x).val := by
    intro s σ h x
    rw [← h]
    rfl
  have hj : ((st.j.val : ℤ) + (st.perm st'.i).val).tmod 256 = st'.j.val := by
    rw [tmod_add_val, hnext]
    rfl
  rw [← hst] at hs
  obtain ⟨s', hs', hholds⟩ := exchange_spec hs st'.i st'.j
  have hperm : Holds s' st'.perm := by
    rw [hnext] at hholds ⊢
    exact hholds
  have ht : (((s'.get st'.i).toNat + (s'.get st'.j).toNat : ℕ) : ℤ).tmod 256 = (tap st').val := by
    rw [Nat.cast_add, hval hperm, hval hperm, tmod_add_val]
    rfl
  have hget : s'.get (tap st') = UInt8.ofFin (keystream (residues key) m) := by
    have hk : keystream (residues key) m = st'.perm (tap st') := by
      rw [keystream, ← hst']
    rw [hk, ← hperm]
    rfl
  have helem : element (data.mapIdx fun k b =>
      if k < m then b ^^^ UInt8.ofFin (keystream (residues key) k) else b) m = .ok data[m] := by
    rw [element, List.getElem?_mapIdx, List.getElem?_eq_getElem hm, Option.map_some,
      if_neg (lt_irrefl m)]
    rfl
  have hdata : (data.mapIdx fun k b =>
      if k < m then b ^^^ UInt8.ofFin (keystream (residues key) k) else b).set m
        (data[m] ^^^ s'.get (tap st')) = data.mapIdx fun k b =>
      if k < m + 1 then b ^^^ UInt8.ofFin (keystream (residues key) k) else b := by
    rw [hget]
    refine List.ext_getElem (by simp) fun k hk _ => ?_
    rw [List.getElem_set, List.getElem_mapIdx, List.getElem_mapIdx]
    rcases eq_or_ne m k with rfl | hne
    · rw [if_pos rfl, if_pos (Nat.lt_succ_self m)]
    · have hlt : k < m ↔ k < m + 1 := by omega
      simp only [if_neg hne, hlt]
  refine ⟨⟨s', st'.i.val, st'.j.val, (tap st').val, data.mapIdx fun k b =>
      if k < m + 1 then b ^^^ UInt8.ofFin (keystream (residues key) k) else b⟩, ?_,
    ⟨by rw [← hst']; exact hperm, by rw [hst'], by rw [hst'],
      ⟨Int.natCast_nonneg _, by dsimp only; omega⟩, rfl⟩⟩
  -- the step itself, access by access
  rw [streamStep]
  dsimp only
  rw [← hst, hi, entry_val]
  show (exchange s _ (((st.j.val : ℤ) + ((s.get st'.i).toNat : ℤ)).tmod 256) >>= _) = _
  rw [hval hs, hj, hs']
  show (entry s' _ >>= fun a => entry s' _ >>= _) = _
  rw [entry_val, entry_val]
  show (element _ m >>= fun d => entry s' ((((s'.get st'.i).toNat + (s'.get st'.j).toNat : ℕ)
    : ℤ).tmod 256) >>= _) = _
  rw [helem, ht, entry_val]
  show Except.ok (Vars.mk s' _ _ _ (List.set _ m (data[m] ^^^ s'.get (tap st')))) = _
  rw [hdata]

/-- **The loop of `rc4Inplace`** computes the standard cipher. -/
lemma streamRun_spec {c : Signedness} {key : List UInt8} (data : List UInt8) (hkey : key ≠ [])
    (s₀ : SBox) (h : ∀ m < 256, 0 ≤ keySum c key m) {n : ℕ} (hn : n ≤ data.length) :
    ∃ v, streamRun c key data s₀ n = .ok v ∧ StreamInv key data n v := by
  obtain ⟨s, hs, hholds⟩ := scheduleRun_spec hkey s₀ le_rfl h
  obtain ⟨hperm, hi, hj⟩ := after_zero (residues key)
  have hstart : StreamInv key data 0 ⟨s, 0, 0, 0, data⟩ := by
    refine ⟨by rw [hperm]; exact hholds, by rw [hi]; rfl, by rw [hj]; rfl,
      ⟨le_rfl, by norm_num⟩, List.ext_getElem (by simp) fun k _ _ => ?_⟩
    rw [List.getElem_mapIdx, if_neg (Nat.not_lt_zero k)]
  obtain ⟨v, hv, hinv⟩ := counted_spec (n := n) (StreamInv key data) hstart
    fun m hm v hinv => streamStep_spec hinv (by omega)
  refine ⟨v, ?_, hinv⟩
  rw [streamRun, rc4Init, hs]
  exact hv

lemma rc4_spec {c : Signedness} {key : List UInt8} (data : List UInt8) (hkey : key ≠ [])
    (s₀ : SBox) (h : ∀ m < 256, 0 ≤ keySum c key m) :
    rc4 c data key s₀ = .ok (standard key data) := by
  obtain ⟨v, hv, hinv⟩ := streamRun_spec data hkey s₀ h le_rfl
  rw [rc4, rc4Inplace, hv]
  show Except.ok v.data = _
  rw [hinv.data, standard, crypt]
  congr 1
  refine List.ext_getElem (by simp) fun k hk _ => ?_
  rw [List.getElem_mapIdx, List.getElem_mapIdx, if_pos (by simpa using hk)]

lemma standard_standard (key data : List UInt8) : standard key (standard key data) = data :=
  crypt_crypt (fun b k => by rw [UInt8.xor_assoc, UInt8.xor_self, UInt8.xor_zero]) _ _

/-! ### The cipher on bytes -/

/-- A round of the loop of `Monkey.rc4Init`. -/
def byteRound (key : List UInt8) (v : SBox × UInt8) (i : ℕ) : SBox × UInt8 :=
  let i' := UInt8.ofNat i
  let j := v.2 + v.1.get i'.toFin + key.getD (i % key.length) 0
  (v.1.swap i' j, j)

lemma rc4Init_eq {key : List UInt8} (hkey : key ≠ []) : Monkey.rc4Init key =
    some ((List.range 256).foldl (byteRound key) (Vector.ofFn fun i => UInt8.ofNat i, 0)).1 := by
  rw [Monkey.rc4Init, if_neg hkey]
  generalize List.range 256 = rounds
  rfl

/-- The loop of `Monkey.rc4Init` is the standard key schedule. -/
lemma holds_byteRound (key : List UInt8) (n : ℕ) (hn : n ≤ 256) :
    let v := (List.range n).foldl (byteRound key) (Vector.ofFn fun i => UInt8.ofNat i, 0)
    Holds v.1 (schedule (residues key) n).1 ∧ v.2.toFin = (schedule (residues key) n).2 := by
  induction n with
  | zero =>
      refine ⟨fun x => ?_, rfl⟩
      have hget : (Vector.ofFn fun i : Fin 256 => UInt8.ofNat i).get x = UInt8.ofNat x :=
        Vector.getElem_ofFn _
      show ((Vector.ofFn fun i : Fin 256 => UInt8.ofNat i).get x).toFin = x
      rw [hget]
      exact Fin.ext (by simp)
  | succ n ih =>
      obtain ⟨hs, hj⟩ := ih (by omega)
      rw [List.range_succ, List.foldl_append]
      simp only [List.foldl_cons, List.foldl_nil, byteRound, schedule, residues_getD]
      have hi : (UInt8.ofNat n).toFin = Fin.ofNat 256 n := rfl
      have hnext : ∀ (a b c : UInt8), (a + b + c).toFin = a.toFin + b.toFin + c.toFin :=
        fun _ _ _ => rfl
      refine ⟨?_, by rw [hnext, hj, hs, hi]⟩
      rw [← hj, ← hi, ← hs, ← hnext]
      exact hs.swap _ _

/-- The loop of `Monkey.rc4` combines the data with the stream. -/
lemma rc4Loop_eq {s : SBox} {i j : UInt8} {st : State 256} (hs : Holds s st.perm)
    (hi : i.toFin = st.i) (hj : j.toFin = st.j) (data : List UInt8) :
    rc4Loop s i j data = data.mapIdx fun k b =>
      b ^^^ UInt8.ofFin ((next^[k + 1] st).perm (tap (next^[k + 1] st))) := by
  induction data generalizing s i j st with
  | nil => rfl
  | cons b data ih =>
      have hadd : ∀ a b : UInt8, (a + b).toFin = a.toFin + b.toFin := fun _ _ => rfl
      have hi' : (i + 1).toFin = (next st).i := by
        rw [hadd, hi]
        rfl
      have hj' : (j + s.get (i + 1).toFin).toFin = (next st).j := by
        rw [hadd, hj, hs, hi']
        rfl
      have hperm : st.perm * Equiv.swap (i + 1).toFin (j + s.get (i + 1).toFin).toFin
          = (next st).perm := by
        rw [hj', hi']
        rfl
      obtain ⟨s', hs'⟩ : ∃ s', s' = s.swap (i + 1) (j + s.get (i + 1).toFin) := ⟨_, rfl⟩
      have hholds : Holds s' (next st).perm := by
        rw [hs', ← hperm]
        exact hs.swap _ _
      have htap : (s'.get (i + 1).toFin + s'.get (j + s.get (i + 1).toFin).toFin).toFin
          = tap (next st) := by
        rw [hadd, hholds, hholds, hj', hi', tap]
      have hout : s'.get (tap (next st)) = UInt8.ofFin ((next st).perm (tap (next st))) := by
        rw [← hholds]
        rfl
      have hloop : rc4Loop s i j (b :: data)
          = (b ^^^ s'.get (s'.get (i + 1).toFin + s'.get (j + s.get (i + 1).toFin).toFin).toFin)
            :: rc4Loop s' (i + 1) (j + s.get (i + 1).toFin) data := by
        rw [hs', rc4Loop]
      rw [hloop, htap, hout, ih hholds hi' hj', List.mapIdx_cons]
      rfl

/-- The cipher that the authentication is modelled with is the standard one. -/
theorem rc4_bytes (key data : List UInt8) :
    Monkey.rc4 data key = if key = [] then none else some (standard key data) := by
  by_cases hkey : key = []
  · rw [if_pos hkey, Monkey.rc4, Monkey.rc4Init, if_pos hkey]
    rfl
  · obtain ⟨hs, -⟩ := holds_byteRound key 256 le_rfl
    obtain ⟨hperm, hi, hj⟩ := after_zero (residues key)
    rw [← hperm] at hs
    rw [if_neg hkey, Monkey.rc4, rc4Init_eq hkey, Option.map_some,
      rc4Loop_eq (i := 0) (j := 0) hs hi.symm hj.symm data]
    rfl

/-! ### Which keys are safe -/

/-- The index is one of an array of 256 entries. -/
def InRange (i : ℤ) : Prop := 0 ≤ i ∧ i ≤ 255

/-- What the cipher promises: for a key that is not empty every round of both loops is reached
with its indices in range and a permutation in `s`, the output is that of the standard cipher,
and the cipher is its own inverse. For an empty key there is no remainder by zero. -/
structure Safe (c : Signedness) (key data : List UInt8) (s₀ : SBox) : Prop where
  schedule : key ≠ [] → ∀ m ≤ 256, ∃ s j, scheduleRun c key s₀ m = .ok (s, j) ∧ InRange j ∧
    s.get.Bijective
  stream : key ≠ [] → ∀ m ≤ data.length, ∃ v, streamRun c key data s₀ m = .ok v ∧
    InRange v.i ∧ InRange v.j ∧ InRange v.t ∧ v.s.get.Bijective
  output : key ≠ [] → rc4 c data key s₀ = .ok (standard key data)
  twice : key ≠ [] → ∀ s₁, (rc4 c data key s₀ >>= fun out => rc4 c out key s₁) = .ok data
  empty : key = [] → rc4 c data key s₀ ≠ .error .byZero

lemma Holds.bijective {s : SBox} {σ : Equiv.Perm (Fin 256)} (h : Holds s σ) :
    s.get.Bijective := by
  have hcomp : UInt8.toFin ∘ s.get = σ := funext h
  have hinj : Function.Injective UInt8.toFin := fun a b hab => UInt8.toFin_inj.mp hab
  refine ⟨fun x y hxy => σ.injective ?_, fun b => ?_⟩
  · rw [← h, ← h, hxy]
  · obtain ⟨x, hx⟩ := σ.surjective b.toFin
    exact ⟨x, hinj (by rw [h, hx])⟩

lemma inRange_val (x : Fin 256) : InRange (x.val : ℤ) := ⟨by omega, by omega⟩

/-- The claim of every round of the key schedule, read backwards: no sum was negative. -/
lemma keySum_nonneg_of_runs {c : Signedness} {key : List UInt8} (hkey : key ≠ []) (s₀ : SBox)
    (h : ∀ m ≤ 256, ∃ v, scheduleRun c key s₀ m = .ok v) : ∀ m < 256, 0 ≤ keySum c key m := by
  intro m
  induction m using Nat.strong_induction_on with
  | _ m ih =>
      intro hm
      by_contra hneg
      obtain ⟨v, hv⟩ := h (m + 1) hm
      have hfault := scheduleRun_neg hkey s₀ hm (fun k hk => ih k hk (by omega)) (by omega)
      rw [hfault] at hv
      cases hv

/-- The unsigned reading never gives a negative sum. -/
lemma keySum_unsigned (key : List UInt8) (m : ℕ) : 0 ≤ keySum .unsigned key m := by
  simp only [keySum, Signedness.read]
  omega

/-- **The cipher keeps its promise** exactly for a key that is not empty and, where `char` is
signed, takes no sum of the standard key schedule below zero. -/
theorem rc4_standard_iff (c : Signedness) (key data : List UInt8) (s₀ : SBox) :
    Safe c key data s₀ ↔ key ≠ [] ∧ (c = .signed → ∀ m < 256, 0 ≤ keySum .signed key m) := by
  constructor
  · intro h
    rcases eq_or_ne key [] with rfl | hkey
    · refine absurd ?_ (h.empty rfl)
      rw [rc4, rc4Inplace, streamRun, rc4Init, scheduleRun_nil]
      rfl
    · refine ⟨hkey, ?_⟩
      rintro rfl
      refine keySum_nonneg_of_runs hkey s₀ fun m hm => ?_
      obtain ⟨s, j, hrun, -⟩ := h.schedule hkey m hm
      exact ⟨_, hrun⟩
  · rintro ⟨hkey, hsigned⟩
    have hsum : ∀ m < 256, 0 ≤ keySum c key m := by
      cases c with
      | signed => exact hsigned rfl
      | unsigned => exact fun m _ => keySum_unsigned key m
    refine ⟨fun _ m hm => ?_, fun _ m hm => ?_, fun _ => rc4_spec data hkey s₀ hsum,
      fun _ s₁ => ?_, fun h => absurd h hkey⟩
    · obtain ⟨s, hs, hholds⟩ := scheduleRun_spec hkey s₀ hm fun k hk => hsum k (by omega)
      exact ⟨s, _, hs, inRange_val _, hholds.bijective⟩
    · obtain ⟨v, hv, hinv⟩ := streamRun_spec data hkey s₀ hsum hm
      refine ⟨v, hv, ?_, ?_, ⟨hinv.t.1, by have := hinv.t.2; omega⟩, hinv.holds.bijective⟩
      · rw [hinv.i]
        exact inRange_val _
      · rw [hinv.j]
        exact inRange_val _
    · rw [rc4_spec data hkey s₀ hsum]
      show rc4 c (standard key data) key s₁ = _
      rw [rc4_spec _ hkey s₁ hsum, standard_standard]

/-- A key byte from 128 on at the start of a key leaves the array, where `char` is signed. -/
theorem rc4_signed_leaves : ¬ Safe .signed [0x80] [] (Vector.replicate 256 0) := by
  intro h
  obtain ⟨s, j, hrun, -⟩ := h.schedule (by decide) 1 (by norm_num)
  have hfault : scheduleRun .signed [0x80] (Vector.replicate 256 0) (0 + 1) = .error .outside :=
    scheduleRun_neg (by decide) _ (by norm_num) (fun _ hm => absurd hm (Nat.not_lt_zero _))
      (by decide)
  rw [hfault] at hrun
  cases hrun

end Monkey.PlainChar
