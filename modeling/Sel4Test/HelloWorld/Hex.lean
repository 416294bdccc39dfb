import Sel4Test.Lib.Touch

/-!
The decoder of hexadecimal text, `hex_string_to_binary` of `hello-world/src/main.c`, for any
string and any buffer.

Where the length is odd, a last character below 32 is left out; this comparison is one of `char`s,
and whether that type is signed is a parameter of the model (on the board it is not).

* `HexText`: a text of digits, in lower or upper case, for some bytes.
* `isDigit_iff`: the characters with a value are the digits.
* `hexPairs_does`: the loop decodes a text, or ends at a pair that is none.
* `hexStringToBinary_inverts`: the decoder accepts the texts, with or without a byte that is
  left out, and refuses everything else; it never writes behind the buffer.
* `hexStringToBinary_congr`: what it returns depends on the text only.
-/

namespace HelloWorld

/-- `hex_char_to_value`. -/
def hexCharToValue (c : UInt8) : Option ℕ :=
  if 48 ≤ c.toNat ∧ c.toNat ≤ 57 then some (c.toNat - 48)
  else if 97 ≤ c.toNat ∧ c.toNat ≤ 102 then some (c.toNat - 97 + 10)
  else if 65 ≤ c.toNat ∧ c.toNat ≤ 70 then some (c.toNat - 65 + 10)
  else none

/-- The two characters are no digits. -/
def invalidPair (high low : UInt8) : Bool :=
  (hexCharToValue high).isNone || (hexCharToValue low).isNone

/-- The byte of two digits. -/
def pairValue (high low : UInt8) : UInt8 :=
  UInt8.ofNat ((hexCharToValue high).getD 0 * 16 + (hexCharToValue low).getD 0)

namespace Hex

open ByteMem Touch

/-! ### The decoder -/

section Defs

variable {Obj : Type} [DecidableEq Obj]

/-- The value of a `char`. -/
def charValue (charSigned : Bool) (c : UInt8) : ℤ :=
  if charSigned then c.toInt8.toInt else c.toNat

/-- The last character is left out. -/
def ignored (charSigned : Bool) (lastChar : UInt8) : Bool :=
  lastChar = 0 || lastChar = 10 || lastChar = 13 || charValue charSigned lastChar < 32

/-- The loop over the pairs of characters from the address `addr` on, the next byte going to
`i`. -/
def hexPairs (hexStr binaryBuf : Obj) (addr i : ℕ) : ℕ → Prog Obj Bool
  | 0 => return true
  | n + 1 => do
      let high ← readByte hexStr addr
      let low ← readByte hexStr (addr + 1)
      if invalidPair high low then return false
      else
        writeByte binaryBuf i (pairValue high low)
        hexPairs hexStr binaryBuf (addr + 2) (i + 1) n

/-- What is done with an even length. The first bytes are read again, to be shown. -/
def hexEven (hexStr : Obj) (addr hexLen : ℕ) (binaryBuf : Obj) (bufSize : ℕ) : Prog Obj ℤ :=
  if hexLen = 0 then return -1
  else if bufSize < hexLen / 2 then return -1
  else do
    let ok ← hexPairs hexStr binaryBuf addr 0 (hexLen / 2)
    if ok then
      let _ ← readBlock binaryBuf 0 (min (hexLen / 2) 8)
      return (hexLen / 2 : ℕ)
    else return -1

/-- `hex_string_to_binary`, for a string at the address `addr`. -/
def hexStringToBinary (charSigned : Bool) (hexStr : Obj) (addr hexLen : ℕ) (binaryBuf : Obj)
    (bufSize : ℕ) : Prog Obj ℤ :=
  if hexLen % 2 ≠ 0 then do
    let lastChar ← readByte hexStr (addr + hexLen - 1)
    if ignored charSigned lastChar then hexEven hexStr addr (hexLen - 1) binaryBuf bufSize
    else return -1
  else hexEven hexStr addr hexLen binaryBuf bufSize

end Defs

/-! ### Digits and texts -/

/-- A digit, in lower case. -/
def lowerDigit (v : ℕ) : ℕ := if v < 10 then 48 + v else 97 + (v - 10)

/-- A digit, in upper case. -/
def upperDigit (v : ℕ) : ℕ := if v < 10 then 48 + v else 65 + (v - 10)

/-- The character `c` is the digit `v`. -/
def IsDigit (c : UInt8) (v : ℕ) : Prop :=
  v < 16 ∧ (c.toNat = lowerDigit v ∨ c.toNat = upperDigit v)

/-- A hexadecimal text, of lower, upper or mixed case, for some bytes. -/
inductive HexText : List UInt8 → List UInt8 → Prop
  | nil : HexText [] []
  | cons {h l x : UInt8} {text b : List UInt8} (high : IsDigit h (x.toNat / 16))
      (low : IsDigit l (x.toNat % 16)) (rest : HexText text b) : HexText (h :: l :: text) (x :: b)

variable {c h l x : UInt8} {v : ℕ} {text b b' : List UInt8}

/-- **Characters with a value** are the digits. -/
lemma isDigit_iff : IsDigit c v ↔ hexCharToValue c = some v := by
  have hc := c.toNat_lt
  rw [IsDigit, lowerDigit, upperDigit, hexCharToValue]
  split_ifs <;> simp only [Option.some.injEq, iff_false, not_and_or] <;> omega

lemma IsDigit.lt (h : IsDigit c v) : v < 16 := h.1

/-- A pair of digits is the byte it stands for. -/
lemma pairValue_eq (hh : IsDigit h (x.toNat / 16)) (hl : IsDigit l (x.toNat % 16)) :
    invalidPair h l = false ∧ pairValue h l = x := by
  rw [isDigit_iff] at hh hl
  constructor
  · simp [invalidPair, hh, hl]
  · have hx : x.toNat / 16 * 16 + x.toNat % 16 = x.toNat := by omega
    rw [pairValue, hh, hl, Option.getD_some, Option.getD_some, hx, UInt8.ofNat_toNat]

/-- A pair that is valid is a pair of digits. -/
lemma isDigit_of_valid (h : invalidPair c l = false) :
    IsDigit c ((pairValue c l).toNat / 16) ∧ IsDigit l ((pairValue c l).toNat % 16) := by
  rw [invalidPair, Bool.or_eq_false_iff] at h
  obtain ⟨v, hv⟩ := Option.isSome_iff_exists.mp (by simpa using h.1)
  obtain ⟨w, hw⟩ := Option.isSome_iff_exists.mp (by simpa using h.2)
  have hvlt := (isDigit_iff.mpr hv).lt
  have hwlt := (isDigit_iff.mpr hw).lt
  have hval : (pairValue c l).toNat = v * 16 + w := by
    rw [pairValue, hv, hw, Option.getD_some, Option.getD_some, UInt8.toNat_ofNat']
    omega
  rw [hval, isDigit_iff, isDigit_iff, hv, hw]
  constructor <;> congr 1 <;> omega

lemma HexText.length_eq (h : HexText text b) : text.length = 2 * b.length := by
  induction h with
  | nil => rfl
  | cons high low rest ih =>
      rw [List.length_cons, List.length_cons, List.length_cons, ih]
      ring

/-- A text stands for no other bytes. -/
lemma HexText.unique (h : HexText text b) (h' : HexText text b') : b = b' := by
  induction h generalizing b' with
  | nil =>
      cases h'
      rfl
  | cons high low rest ih =>
      cases h' with
      | cons high' low' rest' =>
          rw [← (pairValue_eq high low).2, ← (pairValue_eq high' low').2, ih rest']

/-! ### The loop -/

section Loop

variable {Obj : Type} [DecidableEq Obj] {s : State Obj} {hexStr binaryBuf : Obj}
  {start addr hexLen bufSize i n : ℕ} {charSigned : Bool}

/-- What the decoder may touch: the string, and the buffer. -/
def Inside (hexStr : Obj) (addr hexLen : ℕ) (binaryBuf : Obj) (bufSize : ℕ) : Event Obj → Prop
  | .read o a => o = hexStr ∧ addr ≤ a ∧ a < addr + hexLen ∨ o = binaryBuf ∧ a < bufSize
  | .write o a => o = binaryBuf ∧ a < bufSize
  | .invalidate _ _ _ => False
  | .clean _ _ _ => False

/-- Some bytes were written from `i` on, and nothing else. -/
def Written (s : State Obj) (binaryBuf : Obj) (i : ℕ) (bs : List UInt8) (t : State Obj) : Prop :=
  t.mem = Function.update s.mem binaryBuf (store (s.mem binaryBuf) i bs)

lemma written_nil {t : State Obj} (h : t.mem = s.mem) : Written s binaryBuf i [] t := by
  rw [Written, store_nil, Function.update_eq_self, h]

/-- **The loop** decodes a text, or ends at a pair that is none. -/
lemma hexPairs_does (hne : hexStr ≠ binaryBuf) (hn : addr + 2 * n ≤ start + hexLen)
    (hstart : start ≤ addr) (hroom : i + n ≤ bufSize) :
    Does (Inside hexStr start hexLen binaryBuf bufSize) s (hexPairs hexStr binaryBuf addr i n)
      fun ok t => ∃ bs, bs.length ≤ n ∧ Written s binaryBuf i bs t ∧
        (ok = true → HexText (load (s.mem hexStr) addr (2 * n)) bs) ∧
        (ok = false → ∀ b, ¬ HexText (load (s.mem hexStr) addr (2 * n)) b) := by
  -- on the pairs that are left; the text of the others is not touched by the write
  induction n generalizing s addr i with
  | zero =>
      refine Does.pure ⟨[], le_rfl, written_nil rfl, fun _ => .nil, ?_⟩
      intro h
      cases h
  | succ n ih =>
      have htext : load (s.mem hexStr) addr (2 * (n + 1)) =
          s.mem hexStr addr :: s.mem hexStr (addr + 1) ::
            load (s.mem hexStr) (addr + 2) (2 * n) := by
        rw [show 2 * (n + 1) = 2 * n + 1 + 1 by ring, load_succ, load_succ]
      rw [hexPairs]
      refine (Does.readByte (Or.inl ⟨rfl, by omega, by omega⟩)).bind ?_
      rintro high t ⟨rfl, rfl⟩
      refine (Does.readByte (Or.inl ⟨rfl, by omega, by omega⟩)).bind ?_
      rintro low t ⟨rfl, rfl⟩
      dsimp only
      split
      case isTrue hinv =>
        refine Does.pure ⟨[], Nat.zero_le _, written_nil rfl, ?_, fun _ b htxt => ?_⟩
        · intro h
          cases h
        · rw [htext] at htxt
          cases htxt with
          | cons hhigh hlow hrest =>
              rw [(pairValue_eq hhigh hlow).1] at hinv
              cases hinv
      case isFalse hinv =>
        rw [Bool.not_eq_true] at hinv
        obtain ⟨hhigh, hlow⟩ := isDigit_of_valid hinv
        refine (Does.writeByte ⟨rfl, by omega⟩).bind ?_
        rintro - t rfl
        refine (ih (by omega) (by omega) (by omega)).mono ?_
        rintro ok t ⟨bs, hlen, hwritten, hok, hfail⟩
        dsimp only at hok hfail
        rw [Function.update_of_ne hne] at hok hfail
        refine ⟨pairValue (s.mem hexStr addr) (s.mem hexStr (addr + 1)) :: bs, ?_, ?_,
          fun h => ?_, fun h b htxt => ?_⟩
        · rw [List.length_cons]
          omega
        · rw [Written] at hwritten ⊢
          rw [hwritten]
          dsimp only
          rw [Function.update_idem, Function.update_self, store_cons]
        · rw [htext]
          exact .cons hhigh hlow (hok h)
        · rw [htext] at htxt
          cases htxt with
          | cons hhigh' hlow' hrest => exact hfail h _ hrest

/-! ### The decoder -/

/-- What the decoder returns and leaves, for the bytes that its text stands for. -/
def Decodes (accepted : List UInt8 → Prop) (s : State Obj) (binaryBuf : Obj) (bufSize : ℕ) (r : ℤ)
    (t : State Obj) : Prop :=
  (∃ bs, bs.length ≤ bufSize ∧ Written s binaryBuf 0 bs t) ∧
    (∀ b, 0 < b.length → b.length ≤ bufSize → accepted b →
      r = b.length ∧ Written s binaryBuf 0 b t) ∧
    ((¬∃ b, 0 < b.length ∧ b.length ≤ bufSize ∧ accepted b) → r = -1)

/-- A refusal that is due to the text. -/
lemma decodes_refusal {accepted : List UInt8 → Prop} {t : State Obj} (hmem : ∃ bs,
    bs.length ≤ bufSize ∧ Written s binaryBuf 0 bs t)
    (h : ∀ b, 0 < b.length → b.length ≤ bufSize → ¬ accepted b) :
    Decodes accepted s binaryBuf bufSize (-1) t :=
  ⟨hmem, fun b hpos hle hb => absurd hb (h b hpos hle), fun _ => rfl⟩

/-- An even length. -/
lemma hexEven_does (hne : hexStr ≠ binaryBuf) (heven : n % 2 = 0) (hn : n ≤ hexLen) :
    Does (Inside hexStr addr hexLen binaryBuf bufSize) s (hexEven hexStr addr n binaryBuf bufSize)
      (Decodes (HexText (load (s.mem hexStr) addr n)) s binaryBuf bufSize) := by
  have hlen : ∀ b, HexText (load (s.mem hexStr) addr n) b → n = 2 * b.length := by
    intro b hb
    rw [← hb.length_eq, length_load]
  have hnothing : ∃ bs, bs.length ≤ bufSize ∧ Written s binaryBuf 0 bs s :=
    ⟨[], Nat.zero_le _, written_nil rfl⟩
  by_cases hzero : n = 0
  · rw [hexEven, if_pos hzero]
    refine Does.pure (decodes_refusal hnothing fun b hpos _ hb => ?_)
    have := hlen b hb
    omega
  · by_cases hbig : bufSize < n / 2
    · rw [hexEven, if_neg hzero, if_pos hbig]
      refine Does.pure (decodes_refusal hnothing fun b _ hle hb => ?_)
      have := hlen b hb
      omega
    · have hhalf : 2 * (n / 2) = n := by omega
      rw [hexEven, if_neg hzero, if_neg hbig]
      refine (hexPairs_does hne (by omega) le_rfl (by omega)).bind ?_
      rintro ok t ⟨bs, hle, hwritten, hok, hfail⟩
      rw [hhalf] at hok hfail
      split
      case isTrue htrue =>
        have htext := hok htrue
        have hbs := hlen bs htext
        refine (Does.readBlock fun i hi => Or.inr ⟨rfl, by omega⟩).bind ?_
        rintro - u ⟨-, hsame⟩
        have hu : Written s binaryBuf 0 bs u := by
          rw [Written, hsame]
          exact hwritten
        refine Does.pure ⟨⟨bs, by omega, hu⟩, fun b _ _ hb => ?_, fun hnone => ?_⟩
        · rw [hb.unique htext]
          exact ⟨by omega, hu⟩
        · exact absurd ⟨bs, by omega, by omega, htext⟩ hnone
      case isFalse hfalse =>
        rw [Bool.not_eq_true] at hfalse
        exact Does.pure (decodes_refusal ⟨bs, by omega, hwritten⟩ fun b _ _ => hfail hfalse b)

/-- The byte that is left out behind a text: a control character below 32 and, for signed `char`s,
any byte that is not ASCII. -/
def Trailing (charSigned : Bool) (c : UInt8) : Prop :=
  c.toNat < 32 ∨ charSigned = true ∧ 128 ≤ c.toNat

/-- The value of a signed `char`. -/
lemma charValue_signed :
    charValue true c = if c.toNat < 128 then (c.toNat : ℤ) else c.toNat - 256 := by
  have hvalue : charValue true c = c.toBitVec.toInt := rfl
  have hnat : c.toBitVec.toNat = c.toNat := rfl
  rw [hvalue, BitVec.toInt_eq_toNat_cond, hnat]
  split_ifs <;> omega

lemma ignored_iff : ignored charSigned c = true ↔ Trailing charSigned c := by
  have hlt := c.toNat_lt
  have hzero : c = 0 ↔ c.toNat = 0 := UInt8.toNat_inj.symm
  have hten : c = 10 ↔ c.toNat = 10 := UInt8.toNat_inj.symm
  have hthirteen : c = 13 ↔ c.toNat = 13 := UInt8.toNat_inj.symm
  simp only [ignored, Bool.or_eq_true, decide_eq_true_eq, hzero, hten, hthirteen]
  cases charSigned with
  | false =>
      have hvalue : charValue false c = c.toNat := rfl
      simp only [Trailing, hvalue, Bool.false_eq_true, false_and, or_false]
      omega
  | true =>
      simp only [Trailing, charValue_signed, true_and]
      split_ifs <;> omega

/-- The text of the input stands for `b`, with or without a byte that is left out. -/
def Encodes (charSigned : Bool) (input b : List UInt8) : Prop :=
  HexText input b ∨ ∃ text c, input = text ++ [c] ∧ Trailing charSigned c ∧ HexText text b

/-- An input of even length has no byte that is left out. -/
lemma encodes_even {input : List UInt8} (heven : input.length % 2 = 0) :
    Encodes charSigned input b ↔ HexText input b := by
  refine ⟨?_, Or.inl⟩
  rintro (h | ⟨text, c, rfl, -, h⟩)
  · exact h
  · have := h.length_eq
    rw [List.length_append, List.length_singleton] at heven
    omega

/-- An input of odd length has one. -/
lemma encodes_odd (hodd : (text ++ [c]).length % 2 ≠ 0) :
    Encodes charSigned (text ++ [c]) b ↔ Trailing charSigned c ∧ HexText text b := by
  constructor
  · rintro (h | ⟨text', c', heq, hc, h⟩)
    · have := h.length_eq
      omega
    · obtain ⟨rfl, heq⟩ := List.append_inj' heq rfl
      obtain rfl : c = c' := by simpa using heq
      exact ⟨hc, h⟩
  · rintro ⟨hc, h⟩
    exact Or.inr ⟨text, c, rfl, hc, h⟩

/-- What the decoder does, whether the length is odd or even. -/
lemma hexStringToBinary_does (hne : hexStr ≠ binaryBuf) :
    Does (Inside hexStr addr hexLen binaryBuf bufSize) s
      (hexStringToBinary charSigned hexStr addr hexLen binaryBuf bufSize)
      (Decodes (Encodes charSigned (load (s.mem hexStr) addr hexLen)) s binaryBuf bufSize) := by
  by_cases hodd : hexLen % 2 ≠ 0
  · obtain ⟨n, rfl⟩ : ∃ n, hexLen = n + 1 := ⟨hexLen - 1, by omega⟩
    have hsplit : load (s.mem hexStr) addr (n + 1) =
        load (s.mem hexStr) addr n ++ [s.mem hexStr (addr + n)] := by
      rw [load, load, List.range_succ, List.map_append]
      rfl
    have hlen : (load (s.mem hexStr) addr n ++ [s.mem hexStr (addr + n)]).length % 2 ≠ 0 := by
      rwa [← hsplit, length_load]
    have haccepted : Encodes charSigned (load (s.mem hexStr) addr (n + 1)) = fun b =>
        Trailing charSigned (s.mem hexStr (addr + n)) ∧
          HexText (load (s.mem hexStr) addr n) b := by
      funext b
      rw [hsplit]
      exact propext (encodes_odd hlen)
    rw [haccepted, hexStringToBinary, if_pos hodd]
    refine (Does.readByte (Or.inl ⟨rfl, by omega, by omega⟩)).bind ?_
    rintro lastChar t ⟨rfl, rfl⟩
    rw [show addr + (n + 1) - 1 = addr + n by omega, Nat.add_sub_cancel]
    split
    case isTrue hignored =>
      rw [ignored_iff] at hignored
      simp only [hignored, true_and]
      exact hexEven_does hne (by omega) (by omega)
    case isFalse hkept =>
      rw [ignored_iff] at hkept
      exact Does.pure (decodes_refusal ⟨[], Nat.zero_le _, written_nil rfl⟩
        fun b _ _ hb => hkept hb.1)
  · have haccepted : Encodes charSigned (load (s.mem hexStr) addr hexLen) =
        HexText (load (s.mem hexStr) addr hexLen) := by
      funext b
      refine propext (encodes_even ?_)
      rw [length_load]
      omega
    rw [haccepted, hexStringToBinary, if_neg hodd]
    exact hexEven_does hne (by omega) le_rfl

/-- What is returned follows from the bytes that are accepted. -/
lemma Decodes.unique {accepted : List UInt8 → Prop} {s' t t' : State Obj} {r r' : ℤ}
    (h : Decodes accepted s binaryBuf bufSize r t)
    (h' : Decodes accepted s' binaryBuf bufSize r' t') : r = r' := by
  obtain ⟨-, haccept, hrefuse⟩ := h
  obtain ⟨-, haccept', hrefuse'⟩ := h'
  by_cases hex : ∃ b, 0 < b.length ∧ b.length ≤ bufSize ∧ accepted b
  · obtain ⟨b, hpos, hle, hb⟩ := hex
    rw [(haccept b hpos hle hb).1, (haccept' b hpos hle hb).1]
  · rw [hrefuse hex, hrefuse' hex]

/-- **What the decoder returns** depends on the text only: not on what the buffer holds before,
nor on anything else. -/
lemma hexStringToBinary_congr {s' : State Obj} (hne : hexStr ≠ binaryBuf)
    (htext : load (s.mem hexStr) addr hexLen = load (s'.mem hexStr) addr hexLen) :
    (hexStringToBinary charSigned hexStr addr hexLen binaryBuf bufSize s).1 =
      (hexStringToBinary charSigned hexStr addr hexLen binaryBuf bufSize s').1 := by
  have hs : Decodes (Encodes charSigned (load (s.mem hexStr) addr hexLen)) s binaryBuf bufSize
      (hexStringToBinary charSigned hexStr addr hexLen binaryBuf bufSize s).1 _ :=
    (hexStringToBinary_does hne).2
  rw [htext] at hs
  exact hs.unique (hexStringToBinary_does hne).2

/-- **The decoder inverts the coding**, and refuses what is none: a text of some bytes that fit
into the buffer, of any case, with or without a byte that is left out, is decoded to just these
bytes; anything else gives -1; and nothing is written but the front of the buffer. -/
theorem hexStringToBinary_inverts (hne : hexStr ≠ binaryBuf) :
    Does (Inside hexStr addr hexLen binaryBuf bufSize) s
      (hexStringToBinary charSigned hexStr addr hexLen binaryBuf bufSize) fun r t =>
        (∃ bs, bs.length ≤ bufSize ∧ Written s binaryBuf 0 bs t) ∧
          (∀ b, 0 < b.length → b.length ≤ bufSize →
            Encodes charSigned (load (s.mem hexStr) addr hexLen) b →
              r = b.length ∧ Written s binaryBuf 0 b t) ∧
          ((¬∃ b, 0 < b.length ∧ b.length ≤ bufSize ∧
            Encodes charSigned (load (s.mem hexStr) addr hexLen) b) → r = -1) :=
  hexStringToBinary_does hne

end Loop

theorem hexStringToBinary_inverts_one :
    Does (Inside false 0 3 true 4) ⟨fun _ a => [97, 70, 10].getD a 0, []⟩
      (hexStringToBinary false false 0 3 true 4) fun r t =>
        (∃ bs, bs.length ≤ 4 ∧ Written ⟨fun _ a => [97, 70, 10].getD a 0, []⟩ true 0 bs t) ∧
          (∀ b, 0 < b.length → b.length ≤ 4 →
            Encodes false (load (fun a => [97, 70, 10].getD a 0) 0 3) b →
              r = b.length ∧ Written ⟨fun _ a => [97, 70, 10].getD a 0, []⟩ true 0 b t) ∧
          ((¬∃ b, 0 < b.length ∧ b.length ≤ 4 ∧
            Encodes false (load (fun a => [97, 70, 10].getD a 0) 0 3) b) → r = -1) :=
  hexStringToBinary_inverts (by decide)

/-- A control character, as `iscntrl` has it. -/
def IsControl (c : UInt8) : Prop := c.toNat < 32 ∨ c.toNat = 127

/-- The text `00` with a DEL behind it is refused. -/
theorem hexStringToBinary_refuses_del :
    ¬ ∀ (s : State Bool) (text b : List UInt8) (c : UInt8) (bufSize : ℕ), 0 < b.length →
      b.length ≤ bufSize → HexText text b → IsControl c →
        load (s.mem false) 0 (text.length + 1) = text ++ [c] →
          (hexStringToBinary false false 0 (text.length + 1) true bufSize s).1 = b.length := by
  intro h
  have htext : HexText [48, 48] [0] :=
    .cons ⟨by decide, by decide⟩ ⟨by decide, by decide⟩ .nil
  have hrun := h ⟨fun _ a => [48, 48, 127].getD a 0, []⟩ [48, 48] [0] 127 1 (by decide)
    (by decide) htext (Or.inr rfl) (by decide)
  exact absurd hrun (by decide)

end Hex

end HelloWorld
