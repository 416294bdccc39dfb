import Mathlib.Tactic

/-!
Strings, `adl/TString.cc`.

A string is the bytes before its terminating NUL. `operator +=` leaves out a NUL, `split` drops
empty pieces, `toInt64` stops at the first byte that is not a digit, and the overflow of its
signed result has no meaning. A string that finds no memory ends the program, so memory is
taken to suffice.

* `split_eq`: the pieces that `split` finds between single bytes.
* `startsWith_iff`: where a key is found, which need not be where it is.
* `split_iff`: when `split` finds the pieces between the occurrences of any key, which joined by
  the key are the string again.
* `toInt64_digits`: `toInt64` reads decimal digits.
* `isDecimal_toString`: `to_string` writes them.
* `toInt64_toString64`: `toInt64` is the inverse of `to_string`.
-/

namespace Adl

/-- The bytes of a string. -/
abbrev TString := List UInt8

namespace TString

/-- `operator +=` with a character. -/
def push (s : TString) (c : UInt8) : TString := if c = 0 then s else s ++ [c]

/-- `c + s`, through a C string of one character. -/
def cons (c : UInt8) (s : TString) : TString := if c = 0 then s else c :: s

/-- `strncmp(key, s, key.length()) == 0`, with a NUL behind `s`: it ends at a NUL in both. -/
def startsWith : TString → TString → Bool
  | [], _ => true
  | k :: _, [] => k = 0
  | k :: key, c :: s => if k ≠ c then false else if k = 0 then true else startsWith key s

/-- `tmp` goes to the end of `out`, unless it is empty. -/
def addPiece (tmp : TString) (out : List TString) : List TString :=
  if tmp = [] then out else out ++ [tmp]

/-- The loop of `split` on the rest of the content; `skip` bytes of it belong to a key that
was found. -/
def splitLoop (key : TString) : ℕ → TString → List TString → TString → List TString
  | _, tmp, out, [] => addPiece tmp out
  | skip + 1, tmp, out, _ :: rest => splitLoop key skip tmp out rest
  | 0, tmp, out, c :: rest =>
      if startsWith key (c :: rest) then splitLoop key (key.length - 1) [] (addPiece tmp out) rest
      else splitLoop key 0 (push tmp c) out rest

/-- `split`. -/
def split (s key : TString) : List TString :=
  if key.length = 0 then [key] else splitLoop key 0 [] [] s

/-- `INT64_MAX`. -/
def int64Max : ℤ := 2 ^ 63 - 1

/-- The loop of `toInt64`. -/
def toInt64Loop : ℤ → TString → Option ℤ
  | res, [] => some res
  | res, ch :: rest =>
      if ch < 0x30 ∨ 0x39 < ch then some res
      else
        let res := res * 10 + (ch.toNat - 0x30 : ℕ)
        if res ≤ int64Max then toInt64Loop res rest else none

/-- `toInt64`, without a result where the number overflows. -/
def toInt64 : TString → Option ℤ
  | [] => some 0
  | c :: rest =>
      if c = 0x2D then (toInt64Loop 0 rest).map fun res => -res else toInt64Loop 0 (c :: rest)

/-- The loop of `to_string`, with room for as many rounds as it takes. -/
def toStringLoop : ℕ → ℕ → TString → TString
  | 0, _, res => res
  | rounds + 1, value, res =>
      if value = 0 then res
      else toStringLoop rounds (value / 10) (cons (UInt8.ofNat (value % 10 + 0x30)) res)

/-- `to_string`. -/
def toString (x : UInt32) : TString :=
  let res := toStringLoop x.toNat x.toNat []
  if res.length = 0 then [0x30] else res

/-- `to_string` of a `uint64_t`. -/
def toString64 (x : UInt64) : TString :=
  let res := toStringLoop x.toNat x.toNat []
  if res.length = 0 then [0x30] else res

/-! ### Decimal numbers -/

/-- The number with the digits `s` after the number `v`. -/
def digitsValue : ℕ → TString → ℕ
  | v, [] => v
  | v, c :: s => digitsValue (v * 10 + (c.toNat - 0x30)) s

/-- The bytes are decimal digits. -/
def Digits (s : TString) : Prop := ∀ c ∈ s, 0x30 ≤ c.toNat ∧ c.toNat ≤ 0x39

/-- The string is the decimal number `n`, perhaps with zeros in front. -/
structure IsDecimal (s : TString) (n : ℕ) : Prop where
  ne_nil : s ≠ []
  digits : Digits s
  value : digitsValue 0 s = n

lemma Digits.of_cons {c : UInt8} {s : TString} (h : Digits (c :: s)) :
    (0x30 ≤ c.toNat ∧ c.toNat ≤ 0x39) ∧ Digits s :=
  ⟨h c List.mem_cons_self, fun b hb => h b (List.mem_cons_of_mem _ hb)⟩

/-- More digits make no smaller number. -/
lemma le_digitsValue (v : ℕ) (s : TString) : v ≤ digitsValue v s := by
  induction s generalizing v with
  | nil => exact le_rfl
  | cons c s ih =>
      have hle := ih (v * 10 + (c.toNat - 0x30))
      exact le_trans (by omega) hle

lemma toInt64Loop_digits {v : ℕ} {s : TString} (hs : Digits s)
    (hmax : (digitsValue v s : ℤ) ≤ int64Max) : toInt64Loop v s = some (digitsValue v s : ℤ) := by
  induction s generalizing v with
  | nil => rfl
  | cons c s ih =>
      obtain ⟨⟨hlow, hhigh⟩, hs⟩ := hs.of_cons
      have hdigit : ¬ (c < 0x30 ∨ 0x39 < c) := by
        rw [UInt8.lt_iff_toNat_lt, UInt8.lt_iff_toNat_lt]
        simp only [UInt8.reduceToNat]
        omega
      have hnext : (v : ℤ) * 10 + (c.toNat - 0x30 : ℕ) = (v * 10 + (c.toNat - 0x30) : ℕ) := by
        push_cast
        ring
      have hle : ((v * 10 + (c.toNat - 0x30) : ℕ) : ℤ) ≤ int64Max :=
        le_trans (by exact_mod_cast le_digitsValue _ s) hmax
      rw [toInt64Loop, if_neg hdigit]
      simp only [hnext]
      rw [if_pos hle, ih hs hmax]
      rfl

/-- **A decimal number is read.** -/
lemma toInt64_digits {s : TString} {n : ℕ} (h : IsDecimal s n) (hmax : (n : ℤ) ≤ int64Max) :
    toInt64 s = some (n : ℤ) := by
  obtain ⟨hne, hdigits, rfl⟩ := h
  cases s with
  | nil => exact absurd rfl hne
  | cons c s =>
      have hminus : c ≠ 0x2D := by
        rintro rfl
        exact absurd hdigits.of_cons.1.1 (by decide)
      rw [toInt64, if_neg hminus]
      exact toInt64Loop_digits hdigits hmax

/-- What `to_string` has written so far, and the number that is left, make the whole. -/
lemma toStringLoop_spec {rounds value : ℕ} {res : TString} (hrounds : value ≤ rounds)
    (hres : Digits res) : Digits (toStringLoop rounds value res) ∧
      digitsValue 0 (toStringLoop rounds value res) = digitsValue value res ∧
      (value ≠ 0 → toStringLoop rounds value res ≠ []) ∧
      (res ≠ [] → toStringLoop rounds value res ≠ []) := by
  induction rounds generalizing value res with
  | zero =>
      obtain rfl : value = 0 := by omega
      exact ⟨hres, rfl, fun h => absurd rfl h, fun h => h⟩
  | succ rounds ih =>
      rw [toStringLoop]
      split_ifs with hzero
      · subst hzero
        exact ⟨hres, rfl, fun h => absurd rfl h, fun h => h⟩
      · have hbyte : (UInt8.ofNat (value % 10 + 0x30)).toNat = value % 10 + 0x30 := by
          rw [UInt8.toNat_ofNat']
          omega
        have hne : UInt8.ofNat (value % 10 + 0x30) ≠ 0 := by
          intro h
          rw [h, UInt8.toNat_zero] at hbyte
          omega
        have hcons : cons (UInt8.ofNat (value % 10 + 0x30)) res =
            UInt8.ofNat (value % 10 + 0x30) :: res := if_neg hne
        have hdigits : Digits (UInt8.ofNat (value % 10 + 0x30) :: res) := by
          intro c hc
          rcases List.mem_cons.mp hc with rfl | hc
          · omega
          · exact hres c hc
        have hsmaller : value / 10 ≤ rounds := by omega
        obtain ⟨h₁, h₂, -, h₄⟩ := ih hsmaller hdigits
        rw [hcons]
        have hwhole :
            value / 10 * 10 + ((UInt8.ofNat (value % 10 + 0x30)).toNat - 0x30) = value := by
          omega
        refine ⟨h₁, h₂.trans ?_, fun _ => h₄ (by simp), fun _ => h₄ (by simp)⟩
        exact congrArg (digitsValue · res) hwhole

/-- What both versions of `to_string` write. -/
lemma isDecimal_written (n : ℕ) :
    IsDecimal (if (toStringLoop n n []).length = 0 then [0x30] else toStringLoop n n []) n := by
  have hempty : Digits [] := fun c hc => absurd hc (by simp)
  obtain ⟨hdigits, hvalue, hne, -⟩ := toStringLoop_spec (le_refl n) hempty
  by_cases hn : n = 0
  · have hnil : toStringLoop n n [] = [] := by rw [hn, toStringLoop]
    rw [hnil, if_pos List.length_nil]
    refine ⟨by simp, fun c hc => ?_, ?_⟩
    · obtain rfl := List.mem_singleton.mp hc
      decide
    · rw [hn]
      rfl
  · have hpos := List.length_pos_of_ne_nil (hne hn)
    rw [if_neg (by omega)]
    exact ⟨hne hn, hdigits, hvalue⟩

/-- **A number is written as a decimal number.** -/
lemma isDecimal_toString (x : UInt32) : IsDecimal (toString x) x.toNat :=
  isDecimal_written x.toNat

/-- **What is written is read again**, where the number is not too large to be signed. -/
lemma toInt64_toString64 {x : UInt64} (hx : x.toNat < 2 ^ 63) :
    toInt64 (toString64 x) = some (x.toNat : ℤ) := by
  refine toInt64_digits (isDecimal_written x.toNat) ?_
  rw [int64Max]
  omega

/-! ### Pieces -/

/-- The pieces between the bytes `d` that are not empty, without regard to NUL. -/
def pieces (d : UInt8) (s : TString) : List TString :=
  ((s.filter (· ≠ 0)).splitOn d).filter (· ≠ [])

lemma splitLoop_eq {d : UInt8} (hd : d ≠ 0) (s tmp : TString) (out : List TString) :
    splitLoop [d] 0 tmp out s =
      out ++ ((s.filter (· ≠ 0)).splitOnPPrepend (· == d) tmp.reverse).filter (· ≠ []) := by
  induction s generalizing tmp out with
  | nil =>
      rw [splitLoop, List.filter_nil, List.splitOnPPrepend_nil, List.reverse_reverse, addPiece]
      split_ifs with htmp
      · rw [htmp, List.filter_cons_of_neg (by simp), List.filter_nil, List.append_nil]
      · rw [List.filter_cons_of_pos (by simpa using htmp), List.filter_nil]
  | cons c s ih =>
      have hstart : startsWith [d] (c :: s) = true ↔ c = d := by
        rw [startsWith, startsWith, if_neg hd]
        split_ifs with hne
        · simp [Ne.symm hne]
        · simp [not_not.mp hne]
      rcases eq_or_ne c d with rfl | hne
      · have hrest := ih [] (addPiece tmp out)
        have hkeep : (c :: s).filter (· ≠ 0) = c :: s.filter (· ≠ 0) :=
          List.filter_cons_of_pos (by simpa using hd)
        have hcut : (c :: s.filter (· ≠ 0)).splitOnPPrepend (· == c) tmp.reverse
            = tmp :: (s.filter (· ≠ 0)).splitOnP (· == c) := by
          rw [List.splitOnPPrepend_cons_pos (by simp), List.reverse_reverse]
        rw [splitLoop, if_pos (hstart.mpr rfl), hkeep, hcut]
        show splitLoop [c] 0 [] (addPiece tmp out) s = _
        rw [hrest, List.reverse_nil, List.splitOnPPrepend_nil_right, addPiece]
        split_ifs with htmp
        · rw [htmp, List.filter_cons_of_neg (by simp)]
        · rw [List.filter_cons_of_pos (by simpa using htmp), List.append_assoc]
          rfl
      · rw [splitLoop, if_neg (by simpa [hstart] using hne), ih]
        rcases eq_or_ne c 0 with rfl | hzero
        · rw [push, if_pos rfl, List.filter_cons_of_neg (by simp)]
        · rw [push, if_neg hzero, List.filter_cons_of_pos (by simpa using hzero),
            List.splitOnPPrepend_cons_neg (by simpa using hne), List.reverse_append]
          rfl

/-- **`split` by a single byte** finds the pieces between these bytes. -/
lemma split_eq {d : UInt8} (hd : d ≠ 0) (s : TString) : split s [d] = pieces d s := by
  rw [split, if_neg (by simp), splitLoop_eq hd]
  rfl

/-! ### Any key -/

/-- The pieces of a string between the occurrences of `key`, from left to right: what is before
the first occurrence, and the pieces of what is behind it. -/
inductive Cut (key : TString) : TString → List TString → Prop
  | last {s : TString} (h : ¬ key <:+: s) : Cut key s [s]
  | key {u rest : TString} {ps : List TString}
      (hfirst : ∀ j < u.length, ¬ key <+: (u ++ key ++ rest).drop j) (h : Cut key rest ps) :
      Cut key (u ++ key ++ rest) (u :: ps)

lemma Cut.ne_nil {key s : TString} {ps : List TString} (h : Cut key s ps) : ps ≠ [] := by
  cases h with
  | last h => simp
  | key hfirst h => simp

/-- **Nothing but occurrences of the key is lost.** -/
lemma Cut.intercalate {key s : TString} {ps : List TString} (h : Cut key s ps) :
    key.intercalate ps = s := by
  induction h with
  | last h => simp [List.intercalate]
  | @key u rest ps hfirst h ih =>
      obtain ⟨p, ps, rfl⟩ := List.exists_cons_of_ne_nil h.ne_nil
      rw [List.intercalate, List.intersperse_cons_cons, List.flatten_cons, List.flatten_cons,
        ← List.append_assoc]
      exact congrArg _ ih

/-- Any string can be cut. -/
lemma exists_cut {key : TString} (hkey : key ≠ []) (s : TString) : ∃ ps, Cut key s ps := by
  induction hn : s.length using Nat.strong_induction_on generalizing s with
  | _ n ih =>
      subst hn
      by_cases h : ∃ j, key <+: s.drop j
      · -- the first occurrence, and what is behind it
        obtain ⟨rest, hrest⟩ := Nat.find_spec h
        have hmin : ∀ j < Nat.find h, ¬ key <+: s.drop j := fun j hj => Nat.find_min h hj
        set i := Nat.find h with hi
        have hpos := List.length_pos_of_ne_nil hkey
        have hlen := congrArg List.length hrest
        rw [List.length_append, List.length_drop] at hlen
        have hs : s.take i ++ key ++ rest = s := by
          rw [List.append_assoc, hrest, List.take_append_drop]
        obtain ⟨ps, hps⟩ := ih rest.length (by omega) rest rfl
        have hcut : Cut key (s.take i ++ key ++ rest) (s.take i :: ps) := by
          refine .key (fun j hj => ?_) hps
          rw [hs]
          exact hmin j (lt_of_lt_of_le hj (List.length_take_le ..))
        rw [hs] at hcut
        exact ⟨_, hcut⟩
      · refine ⟨[s], .last fun hinfix => h ?_⟩
        obtain ⟨u, v, rfl⟩ := hinfix
        refine ⟨u.length, ?_⟩
        rw [List.append_assoc, List.drop_left]
        exact List.prefix_append key v

/-- The part of a key before its first NUL. -/
structure Stops (key u v : TString) : Prop where
  eq : key = u ++ 0 :: v
  nul : 0 ∉ u

lemma startsWith_of_isPrefix {key s : TString} (h : key <+: s) : startsWith key s = true := by
  induction key generalizing s with
  | nil => rw [startsWith]
  | cons k key ih =>
      obtain ⟨rest, rfl⟩ := h
      rw [List.cons_append, startsWith, if_neg (not_not.mpr rfl)]
      split_ifs
      · rfl
      · exact ih (List.prefix_append key rest)

/-- **Where a key is found**: where it is, or where its part before a NUL is before a NUL. -/
lemma startsWith_iff {key s : TString} : startsWith key s = true ↔
    key <+: s ∨ ∃ u v, Stops key u v ∧ (s = u ∨ ∃ rest, s = u ++ 0 :: rest) := by
  constructor
  · intro h
    induction key generalizing s with
    | nil => exact .inl List.nil_prefix
    | cons k key ih =>
        cases s with
        | nil =>
            rw [startsWith, decide_eq_true_eq] at h
            exact .inr ⟨[], key, ⟨by rw [h, List.nil_append], by simp⟩, .inl rfl⟩
        | cons c s =>
            rw [startsWith] at h
            split_ifs at h with hne hzero
            · have hc : c = 0 := (not_not.mp hne).symm.trans hzero
              exact .inr ⟨[], key, ⟨by rw [hzero, List.nil_append], by simp⟩,
                .inr ⟨s, by rw [hc, List.nil_append]⟩⟩
            · obtain rfl := not_not.mp hne
              rcases ih h with ⟨rest, rfl⟩ | ⟨u, v, ⟨rfl, hu⟩, hs⟩
              · exact .inl ⟨rest, rfl⟩
              · refine .inr ⟨k :: u, v, ⟨rfl, ?_⟩, ?_⟩
                · rw [List.mem_cons, not_or]
                  exact ⟨Ne.symm hzero, hu⟩
                · rcases hs with rfl | ⟨rest, rfl⟩
                  · exact .inl rfl
                  · exact .inr ⟨rest, rfl⟩
  · rintro (h | ⟨u, v, ⟨rfl, hu⟩, hs⟩)
    · exact startsWith_of_isPrefix h
    · induction u generalizing s with
      | nil =>
          rcases hs with rfl | ⟨rest, rfl⟩
          · rfl
          · rfl
      | cons c u ih =>
          have hc : c ≠ 0 := fun h => hu (h ▸ List.mem_cons_self)
          have hu' : 0 ∉ u := fun h => hu (List.mem_cons_of_mem _ h)
          rcases hs with rfl | ⟨rest, rfl⟩
          · rw [List.cons_append, startsWith, if_neg (not_not.mpr rfl), if_neg hc]
            exact ih (.inl rfl) hu'
          · rw [List.cons_append, List.cons_append, startsWith, if_neg (not_not.mpr rfl),
              if_neg hc]
            exact ih (.inr ⟨rest, rfl⟩) hu'

/-- The bytes of a key that was found are passed over. -/
lemma splitLoop_skip {key tmp : TString} {out : List TString} (n : ℕ) (s : TString) :
    splitLoop key n tmp out s = splitLoop key 0 tmp out (s.drop n) := by
  induction n generalizing s with
  | zero => rfl
  | succ n ih =>
      cases s with
      | nil => rfl
      | cons c s =>
          rw [splitLoop, List.drop_succ_cons]
          exact ih s

/-- What the loop puts behind `out`: pieces without a NUL. -/
lemma splitLoop_append (key : TString) (skip : ℕ) (tmp : TString) (out : List TString)
    (s : TString) (htmp : 0 ∉ tmp) :
    ∃ rs, splitLoop key skip tmp out s = out ++ rs ∧ ∀ r ∈ rs, 0 ∉ r := by
  have hadd : ∀ (tmp : TString) (out : List TString), 0 ∉ tmp →
      ∃ rs, addPiece tmp out = out ++ rs ∧ ∀ r ∈ rs, 0 ∉ r := by
    intro tmp out htmp
    rw [addPiece]
    split_ifs
    · exact ⟨[], (List.append_nil _).symm, by simp⟩
    · exact ⟨[tmp], rfl, by simpa using htmp⟩
  induction s generalizing skip tmp out with
  | nil =>
      rw [splitLoop]
      exact hadd tmp out htmp
  | cons c s ih =>
      cases skip with
      | succ skip =>
          rw [splitLoop]
          exact ih skip tmp out htmp
      | zero =>
          rw [splitLoop]
          split_ifs with hstart
          · obtain ⟨ps, hps, hnul⟩ := hadd tmp out htmp
            obtain ⟨rs, hrs, hnul'⟩ := ih (key.length - 1) [] (addPiece tmp out) (by simp)
            refine ⟨ps ++ rs, by rw [hrs, hps, List.append_assoc], fun r hr => ?_⟩
            exact (List.mem_append.mp hr).elim (hnul r) (hnul' r)
          · refine ih 0 _ out ?_
            rw [push]
            split_ifs with hc
            · exact htmp
            · rw [List.mem_append, List.mem_singleton, not_or]
              exact ⟨htmp, Ne.symm hc⟩

/-- The condition for `split`: there is no NUL in a piece, and the last piece does not end with
the part of the key that is before a NUL in it. -/
structure Plain (key : TString) (ps : List TString) : Prop where
  nul : ∀ p ∈ ps, 0 ∉ p
  last : ∀ u v, Stops key u v → u ≠ [] → ∀ p ∈ ps.getLast?, ¬ u <:+ p

/-- Without a NUL there is nothing to look out for. -/
lemma Plain.of_notMem {key s : TString} {ps : List TString} (hcut : Cut key s ps) (hs : 0 ∉ s)
    (hkey : 0 ∉ key) : Plain key ps := by
  refine ⟨fun p hp => ?_, fun u v hstops => ?_⟩
  · induction hcut with
    | last h =>
        obtain rfl := List.mem_singleton.mp hp
        exact hs
    | key hfirst h ih =>
        rw [List.append_assoc, List.mem_append, List.mem_append, not_or, not_or] at hs
        rcases List.mem_cons.mp hp with rfl | hp
        · exact hs.1
        · exact ih hs.2.2 hp
  · refine absurd ?_ hkey
    rw [hstops.eq]
    simp

/-- What is behind a shorter list is in the longer one. -/
lemma mem_of_append_eq {α : Type*} {a : α} {xs ys zs ws : List α} (h : xs ++ a :: ys = zs ++ ws)
    (hlt : xs.length < zs.length) : a ∈ zs := by
  rcases List.append_eq_append_iff.mp h with ⟨us, rfl, hus⟩ | ⟨us, rfl, -⟩
  · cases us with
    | nil => simp at hlt
    | cons u us =>
        obtain ⟨rfl, -⟩ := List.cons.inj hus
        exact List.mem_append_right _ List.mem_cons_self
  · rw [List.length_append] at hlt
    omega

/-- A key that stops at a NUL is found before the NUL, and then this NUL is in a piece: an
occurrence that covers it would begin before. -/
lemma nul_mem_of_stops {key u v t rest : TString} {ps : List TString} (hstops : Stops key u v)
    (ht : ∀ j ≤ t.length, ¬ key <+: (t ++ (u ++ 0 :: rest)).drop j)
    (hcut : Cut key (t ++ (u ++ 0 :: rest)) ps) : ∃ p ∈ ps, 0 ∈ p := by
  generalize hs : t ++ (u ++ 0 :: rest) = s at hcut
  cases hcut with
  | last h =>
      refine ⟨s, List.mem_singleton_self s, ?_⟩
      rw [← hs]
      simp
  | @key u' rest' ps hfirst h =>
      refine ⟨u', List.mem_cons_self, ?_⟩
      have hocc : key <+: (t ++ (u ++ 0 :: rest)).drop u'.length := by
        rw [hs, List.append_assoc, List.drop_left]
        exact List.prefix_append key rest'
      -- the first occurrence begins behind the NUL
      have hbehind : t.length + u.length < u'.length := by
        by_contra hle
        have hlt : t.length < u'.length := by
          by_contra hge
          exact ht _ (not_lt.mp hge) hocc
        obtain ⟨j, hj⟩ := Nat.exists_eq_add_of_lt hlt
        have hju : j + 1 ≤ u.length := by omega
        rw [hj, Nat.add_assoc, ← List.drop_drop, List.drop_left,
          List.drop_append_of_le_length hju, hstops.eq] at hocc
        obtain ⟨w, hw⟩ := hocc
        rw [List.append_assoc] at hw
        refine hstops.nul (mem_of_append_eq hw.symm ?_)
        rw [List.length_drop]
        omega
      rw [← List.append_assoc, List.append_assoc u'] at hs
      refine mem_of_append_eq hs ?_
      rwa [List.length_append]

lemma addPiece_eq (tmp : TString) (out : List TString) :
    addPiece tmp out = out ++ [tmp].filter (· ≠ []) := by
  rw [addPiece]
  split_ifs with htmp
  · rw [List.filter_cons_of_neg (by simpa using htmp), List.filter_nil, List.append_nil]
  · rw [List.filter_cons_of_pos (by simpa using htmp), List.filter_nil]

/-- A piece without its NULs is the piece if there are none. -/
lemma filter_append_iff {t : TString} {rs qs : List TString} (hrs : ∀ r ∈ rs, 0 ∉ r) :
    [t.filter (· ≠ 0)].filter (· ≠ []) ++ rs = [t].filter (· ≠ []) ++ qs ↔
      0 ∉ t ∧ rs = qs := by
  constructor
  · intro h
    have ht : 0 ∉ t := by
      intro hmem
      have hne : t ≠ [] := List.ne_nil_of_mem hmem
      have hright : t ∈ [t].filter (· ≠ []) ++ qs := by simp [hne]
      rw [← h] at hright
      rcases List.mem_append.mp hright with hleft | hleft
      · have heq : t = t.filter (· ≠ 0) := List.mem_singleton.mp (List.mem_of_mem_filter hleft)
        rw [heq] at hmem
        simp at hmem
      · exact hrs t hleft hmem
    have hsame : t.filter (· ≠ 0) = t := by
      refine List.filter_eq_self.mpr fun c hc => ?_
      simpa using fun h : c = 0 => ht (h ▸ hc)
    rw [hsame] at h
    exact ⟨ht, List.append_cancel_left h⟩
  · rintro ⟨ht, rfl⟩
    have hsame : t.filter (· ≠ 0) = t := by
      refine List.filter_eq_self.mpr fun c hc => ?_
      simpa using fun h : c = 0 => ht (h ▸ hc)
    rw [hsame]

/-- The condition for one more piece in front. -/
lemma plain_cons {key t : TString} {ps : List TString} (hps : ps ≠ []) :
    Plain key (t :: ps) ↔ 0 ∉ t ∧ Plain key ps := by
  obtain ⟨p, ps, rfl⟩ := List.exists_cons_of_ne_nil hps
  constructor
  · rintro ⟨hnul, hlast⟩
    refine ⟨hnul t List.mem_cons_self, fun q hq => hnul q (List.mem_cons_of_mem _ hq), ?_⟩
    rwa [List.getLast?_cons_cons] at hlast
  · rintro ⟨ht, hnul, hlast⟩
    refine ⟨fun q hq => ?_, by rwa [List.getLast?_cons_cons]⟩
    rcases List.mem_cons.mp hq with rfl | hq
    · exact ht
    · exact hnul q hq

/-- Where a key is found that is not there, a NUL is in a piece, or what is passed over is missing
in the last one. -/
lemma splitLoop_stops {key u v t s : TString} {c : UInt8} (out : List TString) (hkey : key ≠ [])
    (hstops : Stops key u v) (hs : c :: s = u ∨ ∃ rest, c :: s = u ++ 0 :: rest)
    (hpre : ¬ key <+: c :: s) (hocc : ∀ j < t.length, ¬ key <+: (t ++ c :: s).drop j) :
    ∃ ps, Cut key (t ++ c :: s) ps ∧ ¬ Plain key ps ∧
      splitLoop key (key.length - 1) [] (addPiece (t.filter (· ≠ 0)) out) s ≠
        out ++ ps.filter (· ≠ []) := by
  rcases hs with rfl | ⟨rest, hrest⟩
  · -- the key is longer than what is left
    have hlong : (c :: s).length < key.length := by
      rw [hstops.eq, List.length_append, List.length_cons (a := 0)]
      omega
    refine ⟨[t ++ c :: s], .last ?_, fun h => h.last _ v hstops (by simp) _ rfl
      (List.suffix_append t _), ?_⟩
    · rintro ⟨w, w', hw⟩
      have hlen := congrArg List.length hw
      rw [List.length_append, List.length_append, List.length_append] at hlen
      refine hocc w.length (by omega) ?_
      rw [← hw, List.append_assoc, List.drop_left]
      exact List.prefix_append key w'
    · rw [List.length_cons] at hlong
      rw [splitLoop_skip, List.drop_eq_nil_of_le (by omega), splitLoop, addPiece_eq, addPiece_eq,
        List.append_assoc, List.filter_cons_of_neg (a := ([] : TString)) (by simp),
        List.filter_nil, List.append_nil,
        List.filter_cons_of_pos (a := t ++ c :: s) (by simp)]
      intro heq
      have hmem : t ++ c :: s ∈ [t.filter (· ≠ 0)] :=
        List.mem_of_mem_filter (List.append_cancel_left heq ▸ List.mem_cons_self)
      have hlen := congrArg List.length (List.mem_singleton.mp hmem)
      have hle := List.length_filter_le (· ≠ 0) t
      rw [List.length_append, List.length_cons] at hlen
      omega
  · obtain ⟨ps, hcut⟩ := exists_cut hkey (t ++ c :: s)
    have hmem : ∃ p ∈ ps, 0 ∈ p := by
      rw [hrest] at hcut hocc hpre
      refine nul_mem_of_stops hstops (fun j hj => ?_) hcut
      rcases Nat.lt_or_eq_of_le hj with hlt | rfl
      · exact hocc j hlt
      · rwa [List.drop_left]
    obtain ⟨p, hp, hzero⟩ := hmem
    refine ⟨ps, hcut, fun h => h.nul p hp hzero, ?_⟩
    -- the pieces of the loop have no NUL
    obtain ⟨rs, hrs, hfree⟩ := splitLoop_append key (key.length - 1) []
      (addPiece (t.filter (· ≠ 0)) out) s (by simp)
    rw [hrs, addPiece_eq, List.append_assoc]
    intro heq
    have hin : p ∈ ps.filter (· ≠ []) :=
      List.mem_filter.mpr ⟨hp, by simpa using List.ne_nil_of_mem hzero⟩
    rw [← List.append_cancel_left heq] at hin
    rcases List.mem_append.mp hin with hin | hin
    · rw [List.mem_singleton.mp (List.mem_of_mem_filter hin)] at hzero
      simp at hzero
    · exact hfree p hin hzero

/-- **The loop of `split`** finds the pieces exactly under the condition; `t` is what it has seen
of the piece that it is in, which is in `tmp` without the NULs. -/
lemma splitLoop_iff {key : TString} (hkey : key ≠ []) (s t : TString) (out : List TString)
    (ht : ∀ j < t.length, startsWith key ((t ++ s).drop j) ≠ true) :
    ∃ ps, Cut key (t ++ s) ps ∧
      (splitLoop key 0 (t.filter (· ≠ 0)) out s = out ++ ps.filter (· ≠ []) ↔ Plain key ps) := by
  induction hn : s.length using Nat.strong_induction_on generalizing s t out with
  | _ n ih =>
      subst hn
      cases s with
      | nil =>
          rw [List.append_nil] at ht ⊢
          refine ⟨[t], .last ?_, ?_⟩
          · rintro ⟨u, v, rfl⟩
            have hpos := List.length_pos_of_ne_nil hkey
            refine ht u.length (by simp only [List.length_append]; omega) ?_
            rw [List.append_assoc, List.drop_left]
            exact startsWith_of_isPrefix (List.prefix_append key v)
          · have hend := @filter_append_iff t [] [] (by simp)
            rw [splitLoop, addPiece_eq, List.append_cancel_left_eq]
            rw [List.append_nil, List.append_nil] at hend
            rw [hend, eq_self_iff_true, and_true]
            refine ⟨fun hnul => ⟨by simpa using hnul, fun u v hstops hu p hp => ?_⟩, fun h =>
              h.nul t List.mem_cons_self⟩
            -- the loop would have found the key where its part before the NUL begins
            obtain rfl : t = p := by simpa using hp
            rintro ⟨w, rfl⟩
            have hpos := List.length_pos_of_ne_nil hu
            refine ht w.length (by simp only [List.length_append]; omega) ?_
            rw [List.drop_left]
            exact startsWith_iff.mpr (.inr ⟨u, v, hstops, .inl rfl⟩)
      | cons c s =>
          rw [splitLoop]
          have hocc : ∀ j < t.length, ¬ key <+: (t ++ c :: s).drop j := fun j hj h =>
            ht j hj (startsWith_of_isPrefix h)
          by_cases hpre : key <+: c :: s
          · -- an occurrence: the piece ends, and the loop goes on behind it
            obtain ⟨rest, hrest⟩ := hpre
            have hpos := List.length_pos_of_ne_nil hkey
            have hdrop : s.drop (key.length - 1) = rest := by
              have hall : (c :: s).drop key.length = rest := by rw [← hrest, List.drop_left]
              obtain ⟨k, hk⟩ := Nat.exists_eq_succ_of_ne_zero hpos.ne'
              rw [hk, List.drop_succ_cons] at hall
              rwa [hk]
            have hshorter : rest.length < (c :: s).length := by
              rw [← hrest, List.length_append]
              omega
            obtain ⟨ps, hcut, hloop⟩ := ih rest.length hshorter rest []
              (addPiece (t.filter (· ≠ 0)) out) (fun j hj => absurd hj (Nat.not_lt_zero j)) rfl
            obtain ⟨rs, hrs, hfree⟩ :=
              splitLoop_append key 0 [] (addPiece (t.filter (· ≠ 0)) out) rest (by simp)
            refine ⟨t :: ps, ?_, ?_⟩
            · rw [← hrest, ← List.append_assoc] at hocc ⊢
              exact .key hocc hcut
            · have hcons : (t :: ps).filter (· ≠ []) =
                  [t].filter (· ≠ []) ++ ps.filter (· ≠ []) := by
                rw [← List.filter_append, List.singleton_append]
              rw [List.nil_append] at hcut
              rw [List.filter_nil, hrs, List.append_cancel_left_eq] at hloop
              rw [if_pos (startsWith_of_isPrefix ⟨rest, hrest⟩), splitLoop_skip, hdrop, hrs,
                addPiece_eq, hcons, List.append_assoc, List.append_cancel_left_eq,
                filter_append_iff hfree, hloop, plain_cons hcut.ne_nil]
          · by_cases hstart : startsWith key (c :: s) = true
            · -- a key that ends at a NUL is found where it is not: neither side holds
              rw [if_pos hstart]
              obtain ⟨u, v, hstops, hs⟩ := (startsWith_iff.mp hstart).resolve_left hpre
              obtain ⟨ps, hcut, hplain, hne⟩ := splitLoop_stops out hkey hstops hs hpre hocc
              exact ⟨ps, hcut, iff_of_false hne hplain⟩
            · -- no piece ends here
              have hshift : t ++ c :: s = (t ++ [c]) ++ s := by simp
              have hpush : push (t.filter (· ≠ 0)) c = (t ++ [c]).filter (· ≠ 0) := by
                rw [List.filter_append, push]
                split_ifs with hc <;> simp [hc]
              obtain ⟨ps, hcut, hloop⟩ := ih s.length (Nat.lt_succ_self _) s (t ++ [c]) out (by
                intro j hj
                rw [← hshift]
                rcases Nat.lt_or_ge j t.length with hlt | hge
                · exact ht j hlt
                · obtain rfl : j = t.length := by
                    rw [List.length_append, List.length_singleton] at hj
                    omega
                  rwa [List.drop_left]) rfl
              rw [if_neg hstart, hpush, hshift]
              exact ⟨ps, hcut, hloop⟩

/-- **`split` by any key** finds the pieces that are not empty, exactly if no NUL is in the
way. -/
lemma split_iff {key : TString} (hkey : key ≠ []) (s : TString) :
    ∃ ps, Cut key s ps ∧ key.intercalate ps = s ∧
      (split s key = ps.filter (· ≠ []) ↔ Plain key ps) := by
  obtain ⟨ps, hcut, hloop⟩ :=
    splitLoop_iff hkey s [] [] fun j hj => absurd hj (Nat.not_lt_zero j)
  rw [List.nil_append] at hcut
  rw [List.filter_nil, List.nil_append] at hloop
  refine ⟨ps, hcut, hcut.intercalate, ?_⟩
  rwa [split, if_neg (by simpa using hkey)]

end TString

end Adl
