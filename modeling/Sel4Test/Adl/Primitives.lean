import Mathlib.Data.List.TakeWhile
import Sel4Test.Lib.Search
import Sel4Test.Lib.Touch
import Sel4Test.Lib.ZeroByte

/-!
The string primitives of the monkey library, `adl/string.cpp`.

Addresses are natural numbers, and a word has eight bytes. The end of a loop is a sum of a pointer
and a count, and such a sum is a word.

* `strlen_eq`: `strlen` is the index of the first NUL, at every alignment; the words are tested
  by `ZeroByte.test`.
* `memcpy_eq`: `memcpy` copies the bytes and changes no other, by either of its paths.
* `strncmp_sign`: `strncmp` has the sign of the lexicographic order, if the sum of the left string
  and the count does not wrap.
* `strstr_found`: `strstr` finds the first place.
* `primitives_iff`: all four are right exactly if that sum does not wrap, or there is no difference
  to be found.
-/

namespace Adl

namespace Primitives

open ByteMem Search
open Touch (load_zero load_succ store_append)

/-- A pointer and a count. -/
def ptrAdd (p n : ℕ) : ℕ := (p + n) % 2 ^ 64

/-! ### The functions -/

section Defs

variable (m : Mem)

/-- `highMagic`. -/
def highMagic : BitVec 64 := (0x80808080 <<< 16) <<< 16 ||| 0x80808080

/-- `lowMagic`. -/
def lowMagic : BitVec 64 := (0x01010101 <<< 16) <<< 16 ||| 0x01010101

/-- The word at an address. -/
def longWord (p : ℕ) : BitVec 64 := BitVec.ofNat 64 (readLE m p 8)

/-- The loop over the bytes of a word. -/
def scanWord (str : ℕ) : ℕ → ℕ → Option ℕ
  | 0, _ => none
  | n + 1, p => if m p = 0 then some (p - str) else scanWord str n (p + 1)

/-- The loop over the words, for at most `fuel` of them. -/
def strlenWords (str : ℕ) : ℕ → ℕ → Option ℕ
  | 0, _ => none
  | fuel + 1, p =>
      if (longWord m p - lowMagic) &&& ~~~longWord m p &&& highMagic ≠ 0 then
        (scanWord m str (ptrAdd p 8 - p) p).or (strlenWords str fuel (p + 8))
      else strlenWords str fuel (p + 8)

/-- The loop over the bytes in front of the first word, and what comes behind it. -/
def strlenBytes (str : ℕ) : ℕ → ℕ → Option ℕ
  | 0, _ => none
  | fuel + 1, p =>
      if p % 8 ≠ 0 then
        if m p = 0 then some (p - str) else strlenBytes str fuel (p + 1)
      else strlenWords m str fuel p

/-- `strlen`, for at most `fuel` rounds of its loops. -/
def strlen (fuel str : ℕ) : Option ℕ := strlenBytes m str fuel str

/-- The loop of `strncmp`, for the rounds that its end leaves. -/
def strncmpLoop : ℕ → ℕ → ℕ → ℤ
  | 0, _, _ => 0
  | n + 1, pLhs, pRhs =>
      if m pLhs ≠ m pRhs then (m pLhs).toNat - (m pRhs).toNat
      else if m pLhs = 0 then 0
      else strncmpLoop n (pLhs + 1) (pRhs + 1)

/-- `strncmp`. -/
def strncmp (lhs rhs count : ℕ) : ℤ := strncmpLoop m (ptrAdd lhs count - lhs) lhs rhs

/-- The loop of `strstr`. -/
def strstrLoop (str substr lenOfStr lenOfSubstr : ℕ) : ℕ → ℕ → Option ℕ
  | 0, _ => none
  | fuel + 1, pStr =>
      if lenOfSubstr + (pStr - str) ≤ lenOfStr then
        if strncmp m pStr substr lenOfSubstr = 0 then some pStr
        else strstrLoop str substr lenOfStr lenOfSubstr fuel (pStr + 1)
      else none

/-- `strstr`, with the bound for `strlen`. -/
def strstr (fuel str substr : ℕ) : Option (Option ℕ) := do
  let lenOfSubstr ← strlen m fuel substr
  let lenOfStr ← strlen m fuel str
  return strstrLoop m str substr lenOfStr lenOfSubstr (lenOfStr + 1) str

end Defs

/-- The variables of `memcpy_aligned`, and the memory. -/
structure Cursor where
  mem : Mem
  pDest : ℕ
  pSrc : ℕ
  remain : ℕ

namespace Cursor

/-- `w` bytes are read and then written, and the pointers moved on. -/
def copy (w : ℕ) (c : Cursor) : Cursor :=
  ⟨store c.mem c.pDest (load c.mem c.pSrc w), c.pDest + w, c.pSrc + w, c.remain - w⟩

/-- The bytes in front of the first word of the source. -/
def headLoop (limit : ℕ) : ℕ → Cursor → Cursor
  | 0, c => c
  | fuel + 1, c =>
      if c.pSrc < limit ∧ c.pSrc % 8 ≠ 0 then headLoop limit fuel (c.copy 1) else c

/-- The words. -/
def wordLoop : ℕ → Cursor → Cursor
  | 0, c => c
  | fuel + 1, c => if 8 ≤ c.remain then wordLoop fuel (c.copy 8) else c

/-- The bytes that remain. -/
def tailLoop : ℕ → Cursor → Cursor
  | 0, c => c
  | fuel + 1, c => if c.remain ≠ 0 then tailLoop fuel (c.copy 1) else c

end Cursor

/-- `memcpy_aligned`; no loop has more than `count` rounds. -/
def memcpyAligned (m : Mem) (dest src count : ℕ) : Mem :=
  let c := Cursor.headLoop (ptrAdd src count) count ⟨m, dest, src, count⟩
  let c := c.wordLoop count
  (c.tailLoop count).mem

/-- The loop of `memcpy` over single bytes. -/
def byteLoop (limit : ℕ) : ℕ → Mem → ℕ → ℕ → Mem
  | 0, m, _, _ => m
  | fuel + 1, m, pDest, pSrc =>
      if pSrc < limit then byteLoop limit fuel (store m pDest [m pSrc]) (pDest + 1) (pSrc + 1)
      else m

/-- `memcpy`. -/
def memcpy (m : Mem) (dest src count : ℕ) : Mem :=
  if (dest ^^^ src) % 8 = 0 then memcpyAligned m dest src count
  else byteLoop (ptrAdd src count) count m dest src

/-! ### Strings -/

/-- A string of `len` characters, with its NUL. -/
structure CString (m : Mem) (a len : ℕ) : Prop where
  nul : m (a + len) = 0
  chars : ∀ i < len, m (a + i) ≠ 0

/-- No object comes near the last word of the address space; the memory of a program ends far
below. -/
def Fits (a n : ℕ) : Prop := a + n + 8 < 2 ^ 64

variable {m : Mem} {a b k n p len fuel : ℕ}

lemma ptrAdd_eq (h : a + n < 2 ^ 64) : ptrAdd a n = a + n := Nat.mod_eq_of_lt h

/-- **A word** passes the test exactly if one of its bytes is NUL. -/
lemma word_test : (longWord m p - lowMagic) &&& ~~~longWord m p &&& highMagic ≠ 0 ↔
    ∃ i < 8, m (p + i) = 0 := by
  have hlow : lowMagic = BitVec.ofNat 64 (ZeroByte.repeated 1 8) := by decide
  have hhigh : highMagic = BitVec.ofNat 64 (ZeroByte.repeated 128 8) := by decide
  have hword : (longWord m p).toNat = ofLE (load m p 8) := by
    rw [longWord, BitVec.toNat_ofNat]
    exact Nat.mod_eq_of_lt (readLE_lt m p 8)
  have hbytes := ZeroByte.test_ofLE (load m p 8)
  rw [length_load] at hbytes
  rw [ne_eq, ← BitVec.toNat_inj, hlow, hhigh, ZeroByte.toNat_word_test, hword]
  refine hbytes.trans ?_
  simp only [load, List.mem_map, List.mem_range]

lemma scanWord_eq (h : CString m a len) (hk : k ≤ len) (hn : len < k + n) :
    scanWord m a n (a + k) = some len := by
  induction n generalizing k with
  | zero => omega
  | succ n ih =>
      rw [scanWord]
      by_cases hend : k = len
      · rw [hend, if_pos h.nul, Nat.add_sub_cancel_left]
      · rw [if_neg (h.chars k (by omega)), Nat.add_assoc]
        exact ih (by omega) (by omega)

lemma strlenWords_eq (h : CString m a len) (hfit : Fits a len) (hk : k ≤ len)
    (hfuel : len < k + 8 * fuel) : strlenWords m a fuel (a + k) = some len := by
  rw [Fits] at hfit
  induction fuel generalizing k with
  | zero => omega
  | succ fuel ih =>
      rw [strlenWords]
      split_ifs with hzero
      · obtain ⟨i, hi, hnul⟩ := word_test.mp hzero
        have hnear : len < k + 8 := by
          by_contra hfar
          exact h.chars (k + i) (by omega) (by rwa [← Nat.add_assoc])
        have hrounds : ptrAdd (a + k) 8 - (a + k) = 8 := by
          rw [ptrAdd_eq (by omega)]
          omega
        rw [hrounds, scanWord_eq h hk hnear]
        rfl
      · have hfar : k + 8 ≤ len := by
          by_contra hnear
          refine hzero (word_test.mpr ⟨len - k, by omega, ?_⟩)
          rw [show a + k + (len - k) = a + len by omega]
          exact h.nul
        rw [Nat.add_assoc]
        exact ih hfar (by omega)

/-- **`strlen`** is the index of the first NUL. -/
lemma strlen_eq (h : CString m a len) (hfit : Fits a len) (hfuel : len + 2 ≤ fuel) :
    strlen m fuel a = some len := by
  have hrest : ∀ k, k ≤ len → ∀ fuel, len + 2 ≤ k + fuel →
      strlenBytes m a fuel (a + k) = some len := by
    intro k hk fuel hfuel
    induction fuel generalizing k with
    | zero => omega
    | succ fuel ih =>
        rw [strlenBytes]
        split_ifs with halign hnul
        · have hend : k = len := by
            by_contra hne
            exact h.chars k (by omega) hnul
          rw [hend, Nat.add_sub_cancel_left]
        · have hne : k ≠ len := by
            rintro rfl
            exact hnul h.nul
          rw [Nat.add_assoc]
          exact ih (k + 1) (by omega) (by omega)
        · exact strlenWords_eq h hfit hk (by omega)
  exact hrest 0 (Nat.zero_le _) fuel (by omega)

/-! ### Copies -/

section Copies

variable {dest src w limit : ℕ} {c : Cursor}

/-- A block, in two pieces. -/
lemma load_split (m : Mem) (a k w : ℕ) : load m a (k + w) = load m a k ++ load m (a + k) w := by
  have htake := take_load m a (k + w) k
  have hdrop := drop_load m a (k + w) k
  rw [Nat.min_eq_left (by omega)] at htake
  rw [Nat.add_sub_cancel_left] at hdrop
  rw [← htake, ← hdrop, List.take_append_drop]

/-- The memory, when `k` bytes are copied. -/
def copied (m : Mem) (dest src k : ℕ) : Mem := store m dest (load m src k)

/-- Another `w` bytes, where source and destination do not overlap. -/
lemma store_copied (hapart : dest + n ≤ src ∨ src + n ≤ dest) (hk : k + w ≤ n) :
    store (copied m dest src k) (dest + k) (load (copied m dest src k) (src + k) w) =
      copied m dest src (k + w) := by
  have hsrc : load (copied m dest src k) (src + k) w = load m (src + k) w := by
    refine load_store_disjoint ?_
    rw [length_load]
    omega
  have happend := store_append m dest (load m src k) (load m (src + k) w)
  rw [length_load] at happend
  rw [hsrc, copied, copied, load_split, ← happend]

/-- `k` bytes of `n` are copied. -/
structure Copied (m : Mem) (dest src n k : ℕ) (c : Cursor) : Prop where
  mem_eq : c.mem = copied m dest src k
  pDest_eq : c.pDest = dest + k
  pSrc_eq : c.pSrc = src + k
  remain_eq : c.remain + k = n

/-- **A piece** of the copy. -/
lemma Copied.copy (h : Copied m dest src n k c) (hapart : dest + n ≤ src ∨ src + n ≤ dest)
    (hw : w ≤ c.remain) : Copied m dest src n (k + w) (c.copy w) where
  mem_eq := by
    have hremain := h.remain_eq
    rw [Cursor.copy, h.mem_eq, h.pDest_eq, h.pSrc_eq]
    exact store_copied hapart (by omega)
  pDest_eq := by
    rw [Cursor.copy, h.pDest_eq, Nat.add_assoc]
  pSrc_eq := by
    rw [Cursor.copy, h.pSrc_eq, Nat.add_assoc]
  remain_eq := by
    have hremain := h.remain_eq
    rw [Cursor.copy]
    dsimp only
    omega

lemma headLoop_copied (h : Copied m dest src n k c) (hapart : dest + n ≤ src ∨ src + n ≤ dest) :
    ∃ k, Copied m dest src n k (c.headLoop (src + n) fuel) := by
  induction fuel generalizing k c with
  | zero => exact ⟨k, h⟩
  | succ fuel ih =>
      rw [Cursor.headLoop]
      split_ifs with hmore
      · have hsrc := h.pSrc_eq
        have hremain := h.remain_eq
        exact ih (h.copy hapart (by omega))
      · exact ⟨k, h⟩

lemma wordLoop_copied (h : Copied m dest src n k c) (hapart : dest + n ≤ src ∨ src + n ≤ dest) :
    ∃ k, Copied m dest src n k (c.wordLoop fuel) := by
  induction fuel generalizing k c with
  | zero => exact ⟨k, h⟩
  | succ fuel ih =>
      rw [Cursor.wordLoop]
      split_ifs with hmore
      · exact ih (h.copy hapart hmore)
      · exact ⟨k, h⟩

/-- The last loop copies all that remains. -/
lemma tailLoop_copied (h : Copied m dest src n k c) (hapart : dest + n ≤ src ∨ src + n ≤ dest)
    (hfuel : c.remain ≤ fuel) : (c.tailLoop fuel).mem = copied m dest src n := by
  induction fuel generalizing k c with
  | zero =>
      have hremain := h.remain_eq
      rw [Cursor.tailLoop, h.mem_eq, show k = n by omega]
  | succ fuel ih =>
      rw [Cursor.tailLoop]
      split_ifs with hmore
      · refine ih (h.copy hapart (by omega)) ?_
        rw [Cursor.copy]
        dsimp only
        omega
      · have hremain := h.remain_eq
        rw [h.mem_eq, show k = n by omega]

/-- The loop over single bytes. -/
lemma byteLoop_copied (hapart : dest + n ≤ src ∨ src + n ≤ dest) (hk : k ≤ n)
    (hfuel : n ≤ k + fuel) :
    byteLoop (src + n) fuel (copied m dest src k) (dest + k) (src + k) = copied m dest src n := by
  induction fuel generalizing k with
  | zero => rw [byteLoop, show k = n by omega]
  | succ fuel ih =>
      rw [byteLoop]
      split_ifs with hmore
      · have hstep := store_copied (m := m) (w := 1) hapart (show k + 1 ≤ n by omega)
        rw [load_succ, load_zero] at hstep
        rw [hstep, Nat.add_assoc, Nat.add_assoc]
        exact ih (by omega) (by omega)
      · rw [show k = n by omega]

/-- **`memcpy`** copies the bytes and changes no other, for every alignment of its arguments. -/
lemma memcpy_eq (hapart : dest + n ≤ src ∨ src + n ≤ dest) (hsrc : Fits src n) :
    memcpy m dest src n = store m dest (load m src n) := by
  have hlimit : ptrAdd src n = src + n := ptrAdd_eq (by rw [Fits] at hsrc; omega)
  have hnone : m = copied m dest src 0 := by rw [copied, load_zero, store_nil]
  rw [memcpy]
  split_ifs
  · have hstart : Copied m dest src n 0 ⟨m, dest, src, n⟩ := ⟨hnone, rfl, rfl, rfl⟩
    rw [memcpyAligned, hlimit]
    obtain ⟨j, hhead⟩ : ∃ j, Copied m dest src n j
        (Cursor.headLoop (src + n) n ⟨m, dest, src, n⟩) := headLoop_copied hstart hapart
    obtain ⟨k, hword⟩ : ∃ k, Copied m dest src n k
        (Cursor.wordLoop n (Cursor.headLoop (src + n) n ⟨m, dest, src, n⟩)) :=
      wordLoop_copied hhead hapart
    have hremain := hword.remain_eq
    exact tailLoop_copied hword hapart (by omega)
  · rw [hlimit]
    have hloop : byteLoop (src + n) n (copied m dest src 0) (dest + 0) (src + 0) =
        copied m dest src n := byteLoop_copied hapart (Nat.zero_le n) (by omega)
    rwa [← hnone] at hloop

end Copies

/-! ### Comparison -/

section Comparison

variable {lhs rhs : ℕ} {x y : List UInt8}

/-- The first `n` characters of a string, or as many as there are. -/
def chars (m : Mem) (a n : ℕ) : List UInt8 := (load m a n).takeWhile (· ≠ 0)

/-- The result has the sign of the comparison. -/
def HasSign (r : ℤ) (x y : List UInt8) : Prop :=
  (r < 0 ↔ x < y) ∧ (r = 0 ↔ x = y) ∧ (0 < r ↔ y < x)

lemma chars_succ (m : Mem) (a n : ℕ) :
    chars m a (n + 1) = if m a = 0 then [] else m a :: chars m (a + 1) n := by
  rw [chars, load_succ, List.takeWhile_cons]
  by_cases h : m a = 0 <;> simp [h, chars]

lemma hasSign_zero : HasSign 0 x y ↔ x = y := by
  constructor
  · intro h
    exact h.2.1.mp rfl
  · rintro rfl
    exact ⟨by simp, by simp, by simp⟩

/-- Characters in front that are the same. -/
lemma HasSign.cons {r : ℤ} {c : UInt8} (h : HasSign r x y) : HasSign r (c :: x) (c :: y) := by
  simpa [HasSign, List.cons_lt_cons_iff] using h

/-- The difference of two characters. -/
lemma hasSign_sub {c d : UInt8} (hne : c ≠ d) :
    HasSign ((c.toNat : ℤ) - d.toNat) (if c = 0 then [] else c :: x)
      (if d = 0 then [] else d :: y) := by
  have hnat : c.toNat ≠ d.toNat := fun h => hne (UInt8.toNat_inj.mp h)
  have hzero : ∀ e : UInt8, e = 0 ↔ e.toNat = 0 := fun e => UInt8.toNat_inj.symm
  by_cases hc : c = 0
  · have hd : d ≠ 0 := fun hd => hne (hc.trans hd.symm)
    have hcn := (hzero c).mp hc
    rw [if_pos hc, if_neg hd, HasSign]
    refine ⟨iff_of_true (by omega) (List.nil_lt_cons d y), iff_of_false (by omega) (by simp),
      iff_of_false (by omega) (List.not_lt_nil _)⟩
  · by_cases hd : d = 0
    · have hdn := (hzero d).mp hd
      rw [if_neg hc, if_pos hd, HasSign]
      exact ⟨iff_of_false (by omega) (List.not_lt_nil _), iff_of_false (by omega) (by simp),
        iff_of_true (by omega) (List.nil_lt_cons c x)⟩
    · have hcd : c < d ↔ c.toNat < d.toNat := UInt8.lt_iff_toNat_lt
      have hdc : d < c ↔ d.toNat < c.toNat := UInt8.lt_iff_toNat_lt
      rw [if_neg hc, if_neg hd, HasSign, List.cons_lt_cons_iff, List.cons_lt_cons_iff,
        List.cons.injEq, hcd, hdc]
      simp only [hne, Ne.symm hne, false_and, or_false]
      refine ⟨?_, ?_, ?_⟩
      · rw [sub_neg, Int.ofNat_lt]
      · exact iff_of_false (by omega) not_false
      · rw [sub_pos, Int.ofNat_lt]

lemma strncmpLoop_sign : HasSign (strncmpLoop m n lhs rhs) (chars m lhs n) (chars m rhs n) := by
  induction n generalizing lhs rhs with
  | zero => exact hasSign_zero.mpr rfl
  | succ n ih =>
      rw [strncmpLoop, chars_succ, chars_succ]
      by_cases hne : m lhs ≠ m rhs
      · rw [if_pos hne]
        exact hasSign_sub hne
      · rw [if_neg hne, ← not_not.mp hne]
        split_ifs
        · exact hasSign_zero.mpr rfl
        · exact ih.cons

/-- **`strncmp`** has the sign of the order if the end of its loop does not wrap, and otherwise
only where there is no difference. -/
lemma strncmp_sign (hlhs : lhs < 2 ^ 64) (hn : n < 2 ^ 64) :
    HasSign (strncmp m lhs rhs n) (chars m lhs n) (chars m rhs n) ↔
      lhs + n < 2 ^ 64 ∨ chars m lhs n = chars m rhs n := by
  by_cases hwrap : lhs + n < 2 ^ 64
  · rw [strncmp, ptrAdd_eq hwrap, Nat.add_sub_cancel_left]
    exact iff_of_true strncmpLoop_sign (.inl hwrap)
  · have hrounds : ptrAdd lhs n - lhs = 0 := by
      rw [ptrAdd]
      omega
    rw [strncmp, hrounds, strncmpLoop, hasSign_zero]
    exact (or_iff_right hwrap).symm

end Comparison

/-! ### Search -/

section Search

variable {str substr lenOfStr lenOfSubstr : ℕ}

/-- A piece of a string has no NUL. -/
lemma CString.chars_eq (h : CString m a len) (hk : k + n ≤ len) :
    Primitives.chars m (a + k) n = load m (a + k) n := by
  rw [Primitives.chars, List.takeWhile_eq_self_iff]
  intro c hc
  obtain ⟨i, hi, rfl⟩ := List.mem_map.mp hc
  have hne := h.chars (k + i) (by have := List.mem_range.mp hi; omega)
  rw [← Nat.add_assoc] at hne
  simpa using hne

/-- **A place** is accepted if the needle is there. -/
lemma strncmp_eq_zero (hstr : CString m str lenOfStr) (hsub : CString m substr lenOfSubstr)
    (hfit : Fits str lenOfStr) (hk : k + lenOfSubstr ≤ lenOfStr) :
    strncmp m (str + k) substr lenOfSubstr = 0 ↔
      load m (str + k) lenOfSubstr = load m substr lenOfSubstr := by
  rw [Fits] at hfit
  have hneedle : Primitives.chars m substr lenOfSubstr = load m substr lenOfSubstr :=
    hsub.chars_eq (k := 0) (by omega)
  rw [strncmp, ptrAdd_eq (by omega), Nat.add_sub_cancel_left, strncmpLoop_sign.2.1,
    hstr.chars_eq hk, hneedle]

lemma strstrLoop_found (hstr : CString m str lenOfStr) (hsub : CString m substr lenOfSubstr)
    (hfit : Fits str lenOfStr) (hfuel : lenOfStr < k + fuel) :
    Found m (str + k) (lenOfStr + 1 - (k + lenOfSubstr)) (load m substr lenOfSubstr)
      (strstrLoop m str substr lenOfStr lenOfSubstr fuel (str + k)) := by
  induction fuel generalizing k with
  | zero =>
      rw [show lenOfStr + 1 - (k + lenOfSubstr) = 0 by omega]
      exact .nowhere
  | succ fuel ih =>
      rw [strstrLoop, Nat.add_sub_cancel_left]
      split_ifs with hroom hhere
      · rw [strncmp_eq_zero hstr hsub hfit (by omega)] at hhere
        rw [show lenOfStr + 1 - (k + lenOfSubstr) = lenOfStr - (k + lenOfSubstr) + 1 by omega]
        exact .here (by rwa [length_load])
      · rw [strncmp_eq_zero hstr hsub hfit (by omega)] at hhere
        have hrest := ih (k := k + 1) (by omega)
        rw [show lenOfStr + 1 - (k + 1 + lenOfSubstr) = lenOfStr - (k + lenOfSubstr) by omega,
          ← Nat.add_assoc] at hrest
        rw [show lenOfStr + 1 - (k + lenOfSubstr) = lenOfStr - (k + lenOfSubstr) + 1 by omega]
        exact .later (by rwa [length_load]) hrest
      · rw [show lenOfStr + 1 - (k + lenOfSubstr) = 0 by omega]
        exact .nowhere

/-- **`strstr`** finds the first place of the needle, or there is none. -/
lemma strstr_found (hstr : CString m str lenOfStr) (hsub : CString m substr lenOfSubstr)
    (hfit : Fits str lenOfStr) (hfit' : Fits substr lenOfSubstr) (hfuel : lenOfStr + 2 ≤ fuel)
    (hfuel' : lenOfSubstr + 2 ≤ fuel) : ∃ r, strstr m fuel str substr = some r ∧
      (r = none ↔ ¬ load m substr lenOfSubstr <:+: load m str lenOfStr) ∧
      ∀ q, r = some q → ∃ i, i + lenOfSubstr ≤ lenOfStr ∧ q = str + i ∧
        load m (str + i) lenOfSubstr = load m substr lenOfSubstr ∧
        ∀ j < i, load m (str + j) lenOfSubstr ≠ load m substr lenOfSubstr := by
  have hlen : (load m substr lenOfSubstr).length = lenOfSubstr := length_load ..
  have hfound : Found m (str + 0) (lenOfStr + 1 - (0 + lenOfSubstr)) (load m substr lenOfSubstr)
      (strstrLoop m str substr lenOfStr lenOfSubstr (lenOfStr + 1) (str + 0)) :=
    strstrLoop_found hstr hsub hfit (by omega)
  rw [Nat.zero_add, Nat.add_zero] at hfound
  refine ⟨_, by rw [strstr, strlen_eq hsub hfit' hfuel', strlen_eq hstr hfit hfuel]; rfl, ?_,
    fun q hq => ?_⟩
  · by_cases hroom : lenOfSubstr ≤ lenOfStr
    · rw [show lenOfStr + 1 - lenOfSubstr =
        lenOfStr - (load m substr lenOfSubstr).length + 1 by omega] at hfound
      exact hfound.infix_iff (by omega)
    · rw [show lenOfStr + 1 - lenOfSubstr = 0 by omega] at hfound
      refine iff_of_true (hfound.none_iff.mpr fun i hi => by omega) fun h => ?_
      have hle := h.length_le
      rw [length_load, length_load] at hle
      omega
  · obtain ⟨i, hi, heq, hhere, hfirst⟩ := hfound.first q hq
    rw [hlen] at hhere hfirst
    exact ⟨i, by omega, heq, hhere, hfirst⟩

end Search

/-- **The primitives** mean what they are named for, if the end of `strncmp` does not wrap or there
is no difference to be found, and only then. -/
theorem primitives_iff (m : Mem) {lhs rhs n : ℕ} (hlhs : lhs < 2 ^ 64) (hn : n < 2 ^ 64) :
    (∀ a len fuel, CString m a len → Fits a len → len + 2 ≤ fuel → strlen m fuel a = some len) ∧
      (∀ dest src k, dest + k ≤ src ∨ src + k ≤ dest → Fits src k →
        memcpy m dest src k = store m dest (load m src k)) ∧
      HasSign (strncmp m lhs rhs n) (chars m lhs n) (chars m rhs n) ∧
      (∀ a len b len' fuel, CString m a len → CString m b len' → Fits a len → Fits b len' →
        len + 2 ≤ fuel → len' + 2 ≤ fuel → ∃ r, strstr m fuel a b = some r ∧
          (r = none ↔ ¬ load m b len' <:+: load m a len) ∧
          ∀ q, r = some q → ∃ i, i + len' ≤ len ∧ q = a + i ∧ load m (a + i) len' = load m b len' ∧
            ∀ j < i, load m (a + j) len' ≠ load m b len') ↔
      lhs + n < 2 ^ 64 ∨ chars m lhs n = chars m rhs n := by
  rw [← strncmp_sign hlhs hn]
  constructor
  · rintro ⟨-, -, hsign, -⟩
    exact hsign
  · intro hsign
    refine ⟨fun a len fuel h hfit hfuel => strlen_eq h hfit hfuel,
      fun dest src k hapart hsrc => memcpy_eq hapart hsrc, hsign, ?_⟩
    intro a len b len' fuel hstr hsub hfit hfit' hfuel hfuel'
    exact strstr_found hstr hsub hfit hfit' hfuel hfuel'

/-- The strings `a` and `b`, at two addresses. -/
def twoStrings : Mem := fun p => if p = 0x1000 then 97 else if p = 0x2000 then 98 else 0

theorem primitives_iff_one :
    HasSign (strncmp twoStrings 0x1000 0x2000 1) (chars twoStrings 0x1000 1)
      (chars twoStrings 0x2000 1) :=
  ((primitives_iff twoStrings (by norm_num) (by norm_num)).mpr (.inl (by norm_num))).2.2.1

/-- A count that wraps. -/
theorem strncmp_wraps : ¬ ∀ (m : Mem) (lhs rhs n : ℕ), lhs < 2 ^ 64 → n < 2 ^ 64 →
    HasSign (strncmp m lhs rhs n) (chars m lhs n) (chars m rhs n) := by
  intro h
  have hsign := h twoStrings 0x1000 0x2000 (2 ^ 64 - 2 + 1) (by norm_num) (by norm_num)
  have hzero : strncmp twoStrings 0x1000 0x2000 (2 ^ 64 - 2 + 1) = 0 := by
    have hrounds : ptrAdd 0x1000 (2 ^ 64 - 2 + 1) - 0x1000 = 0 := by decide
    rw [strncmp, hrounds, strncmpLoop]
  rw [hzero, hasSign_zero, chars_succ, chars_succ] at hsign
  have hlhs : twoStrings 0x1000 = 97 := by decide
  have hrhs : twoStrings 0x2000 = 98 := by decide
  rw [hlhs, hrhs, if_neg (by decide), if_neg (by decide)] at hsign
  exact absurd (List.cons.inj hsign).1 (by decide)

end Primitives

end Adl
