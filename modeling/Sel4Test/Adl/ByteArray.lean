import Mathlib.Tactic

/-!
Growing arrays of bytes, `ArrayList` and `ByteArray` of `adl/collections/ArrayList.hpp`.

An array has the bytes up to its size and those behind them up to its capacity. `resize` to a
larger size sets the size to the capacity, and so fails where the capacity was larger already. The
allocator asks for 16 bytes more than the array takes, and `malloc` gives no more than half of the
address space.

An array is `Full` if its size is its capacity. A full array either grows to the new size exactly
or keeps its bytes and fails.

* `resize_full`, `append_full`: the two operations on a full array.
-/

namespace Adl

/-- An answer of the allocator: whether there is memory, and the bytes that are found in it. -/
structure Grant where
  ok : Bool
  found : ℕ → UInt8

/-- `alloc<uint8_t>(count)` is granted. -/
def Grant.gives (g : Grant) (count : ℕ) : Bool :=
  g.ok && decide ((count + 16) % 2 ^ 64 < 2 ^ 63)

/-- The bytes below the size, and those behind up to the capacity. -/
structure ByteArray where
  data : List UInt8
  spare : List UInt8

namespace ByteArray

def capacity (a : ByteArray) : ℕ := a.data.length + a.spare.length

/-- An array that is new. -/
def new : ByteArray := ⟨[], []⟩

/-- `reserve`. -/
def reserve (g : Grant) (a : ByteArray) (newCapacity : ℕ) : ByteArray :=
  if newCapacity ≤ a.capacity then a
  else if g.gives newCapacity then
    ⟨a.data, (List.range (newCapacity - a.data.length)).map fun i => g.found (a.data.length + i)⟩
  else a

/-- `resize`, and whether the array has the new size. -/
def resize (g : Grant) (a : ByteArray) (newSize : ℕ) : Bool × ByteArray :=
  if a.data.length < newSize then
    let b := a.reserve g newSize
    (decide (b.capacity = newSize), ⟨b.data ++ b.spare, []⟩)
  else (true, ⟨a.data.take newSize, a.data.drop newSize ++ a.spare⟩)

/-- `memcpy` to the last bytes of the array. -/
def writeEnd (a : ByteArray) (bs : List UInt8) : ByteArray :=
  { a with data := a.data.take (a.data.length - bs.length) ++ bs }

/-- `append`, and whether it succeeded. -/
def append (g : Grant) (a : ByteArray) (bs : List UInt8) : Bool × ByteArray :=
  if bs = [] then (true, a)
  else
    let r := a.resize g (a.data.length + bs.length)
    (r.1, if r.1 then r.2.writeEnd bs else r.2)

/-- The size is the capacity, and the allocator has given that much. -/
structure Full (a : ByteArray) : Prop where
  spare : a.spare = []
  small : a.data.length + 16 < 2 ^ 63

lemma Full.new : Full new := ⟨rfl, by decide⟩

variable {g : Grant} {a : ByteArray} {bs : List UInt8} {n : ℕ}

lemma Full.capacity (h : a.Full) : a.capacity = a.data.length := by
  rw [ByteArray.capacity, h.spare]
  rfl

/-- **A full array grows exactly, or not at all.** -/
lemma resize_full (h : a.Full) (hn : n < 2 ^ 32) (hok : (a.resize g (a.data.length + n)).1 = true) :
    ∃ bs, bs.length = n ∧ (a.resize g (a.data.length + n)).2 = ⟨a.data ++ bs, []⟩ ∧
      (⟨a.data ++ bs, []⟩ : ByteArray).Full := by
  by_cases hzero : n = 0
  · subst hzero
    refine ⟨[], rfl, ?_, ?_⟩
    · rw [resize, if_neg (by omega)]
      simp [h.spare]
    · rw [List.append_nil]
      exact ⟨rfl, h.small⟩
  · have hlt : a.data.length < a.data.length + n := by omega
    have hcap : ¬ a.data.length + n ≤ a.capacity := by
      rw [h.capacity]
      omega
    rw [resize, if_pos hlt, reserve, if_neg hcap] at hok
    rw [resize, if_pos hlt, reserve, if_neg hcap]
    by_cases hgives : g.gives (a.data.length + n) = true
    · rw [if_pos hgives]
      refine ⟨_, ?_, rfl, rfl, ?_⟩
      · simp
      · rw [Grant.gives, Bool.and_eq_true, decide_eq_true_eq] at hgives
        have hsmall := h.small
        simp only [List.length_append, List.length_map, List.length_range]
        omega
    · rw [if_neg hgives] at hok
      have hsame : a.capacity = a.data.length + n := of_decide_eq_true hok
      omega

/-- A new array gets no more than `malloc` gives. -/
lemma resize_new (hpos : 0 < n) (hn : n + 16 < 2 ^ 64) (hok : (new.resize g n).1 = true) :
    n + 16 < 2 ^ 63 := by
  have hcap : ¬ n ≤ new.capacity := Nat.not_le.mpr hpos
  rw [resize, if_pos (show new.data.length < n from hpos), reserve, if_neg hcap] at hok
  by_cases hgives : g.gives n = true
  · rw [Grant.gives, Bool.and_eq_true, decide_eq_true_eq] at hgives
    omega
  · rw [if_neg hgives] at hok
    have hsame : new.capacity = n := of_decide_eq_true hok
    omega

/-- **Bytes are appended to a full array**, which stays full. -/
lemma append_full (h : a.Full) (hn : bs.length < 2 ^ 32) (hok : (a.append g bs).1 = true) :
    (a.append g bs).2 = ⟨a.data ++ bs, []⟩ ∧ (⟨a.data ++ bs, []⟩ : ByteArray).Full := by
  by_cases hnil : bs = []
  · subst hnil
    rw [append, if_pos rfl, List.append_nil]
    exact ⟨by rw [← h.spare], rfl, h.small⟩
  · rw [append, if_neg hnil] at hok
    obtain ⟨fresh, hlen, heq, hfull⟩ := resize_full h hn hok
    have hdata : (⟨a.data ++ fresh, []⟩ : ByteArray).writeEnd bs = ⟨a.data ++ bs, []⟩ := by
      rw [writeEnd]
      dsimp only
      rw [List.length_append, hlen, Nat.add_sub_cancel, List.take_left]
    rw [append, if_neg hnil]
    dsimp only at hok ⊢
    rw [if_pos hok, heq, hdata]
    refine ⟨rfl, rfl, ?_⟩
    have hsmall := hfull.small
    rw [List.length_append, hlen] at hsmall
    rw [List.length_append]
    exact hsmall

end ByteArray

end Adl
