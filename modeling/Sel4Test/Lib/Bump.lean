import Mathlib.Tactic

/-!
Bump allocation of aligned blocks.

A block has a size that is a power of two and a base that is a multiple of it. An allocator
hands out blocks from the bottom of a region upwards: a request for some blocks of one size
is served from the first multiple of this size above what is in use.

* `roundUp_add_le`: whatever fits into the rest of the region without alignment also fits
  aligned, as the end of the region is a multiple of the size.
* `Packed`: blocks inside a range, aligned and pairwise apart.
* `Packed.serve`: the blocks that serve a request, behind those that are there.
-/

namespace Bump

/-- A block of `2 ^ bits` bytes. -/
structure Block where
  base : ℕ
  bits : ℕ
  deriving DecidableEq, Repr

/-- The first address behind the block. -/
def Block.stop (b : Block) : ℕ := b.base + 2 ^ b.bits

/-- The two blocks have no byte in common. -/
def Apart (a b : Block) : Prop := a.stop ≤ b.base ∨ b.stop ≤ a.base

/-- The first multiple of `2 ^ bits` from `x` on. -/
def roundUp (x bits : ℕ) : ℕ := (x + (2 ^ bits - 1)) / 2 ^ bits * 2 ^ bits

section RoundUp

variable {x bits e n top : ℕ}

lemma dvd_roundUp : 2 ^ bits ∣ roundUp x bits := Dvd.intro_left _ rfl

lemma le_roundUp : x ≤ roundUp x bits := by
  have hpos : 0 < 2 ^ bits := Nat.two_pow_pos bits
  have hdiv := Nat.lt_div_mul_add hpos (a := x + (2 ^ bits - 1))
  rw [roundUp]
  omega

/-- No multiple from `x` on is smaller. -/
lemma roundUp_le (he : 2 ^ bits ∣ e) (hx : x ≤ e) : roundUp x bits ≤ e := by
  obtain ⟨k, rfl⟩ := he
  have hpos : 0 < 2 ^ bits := Nat.two_pow_pos bits
  rw [roundUp, mul_comm (2 ^ bits) k]
  refine Nat.mul_le_mul_right _ (Nat.lt_succ_iff.mp ((Nat.div_lt_iff_lt_mul hpos).mpr ?_))
  rw [Nat.succ_mul, mul_comm k]
  omega

/-- What fits unaligned below a multiple fits aligned. -/
lemma roundUp_add_le (htop : 2 ^ bits ∣ top) (hfits : x + n * 2 ^ bits ≤ top) :
    roundUp x bits + n * 2 ^ bits ≤ top := by
  have hroom : n * 2 ^ bits ≤ top := by omega
  have hdvd : 2 ^ bits ∣ top - n * 2 ^ bits := Nat.dvd_sub htop (Dvd.intro_left _ rfl)
  have hle := roundUp_le hdvd (x := x) (by omega)
  omega

end RoundUp

/-- Blocks inside a range, aligned and apart from each other. -/
structure Packed (start stop : ℕ) (blocks : List Block) : Prop where
  inside : ∀ b ∈ blocks, start ≤ b.base ∧ b.stop ≤ stop
  aligned : ∀ b ∈ blocks, 2 ^ b.bits ∣ b.base
  apart : blocks.Pairwise Apart

/-- `n` blocks of one size in a row. -/
def row (base bits n : ℕ) : List Block := (List.range n).map fun i => ⟨base + i * 2 ^ bits, bits⟩

section Packed

variable {start stop stop' base bits n : ℕ} {blocks blocks' : List Block}

lemma Packed.nil : Packed start stop [] := ⟨by simp, by simp, .nil⟩

lemma Packed.mono (h : Packed start stop blocks) (hle : stop ≤ stop') :
    Packed start stop' blocks :=
  ⟨fun b hb => ⟨(h.inside b hb).1, (h.inside b hb).2.trans hle⟩, h.aligned, h.apart⟩

lemma Packed.row (hdvd : 2 ^ bits ∣ base) :
    Packed base (base + n * 2 ^ bits) (row base bits n) := by
  have hpos : 0 < 2 ^ bits := Nat.two_pow_pos bits
  refine ⟨fun b hb => ?_, fun b hb => ?_, ?_⟩
  · obtain ⟨i, hi, rfl⟩ := List.mem_map.mp hb
    have hmul : (i + 1) * 2 ^ bits ≤ n * 2 ^ bits :=
      Nat.mul_le_mul_right _ (List.mem_range.mp hi)
    rw [Nat.succ_mul] at hmul
    constructor
    · dsimp only
      omega
    · rw [Block.stop]
      dsimp only
      omega
  · obtain ⟨i, -, rfl⟩ := List.mem_map.mp hb
    exact (Nat.dvd_add_right hdvd).mpr (Dvd.intro_left _ rfl)
  · rw [Bump.row, List.pairwise_map]
    refine List.pairwise_lt_range.imp fun {i j} hij => .inl ?_
    have hmul : (i + 1) * 2 ^ bits ≤ j * 2 ^ bits := Nat.mul_le_mul_right _ hij
    rw [Nat.succ_mul] at hmul
    rw [Block.stop]
    dsimp only
    omega

lemma Packed.append {mid mid' : ℕ} (h : Packed start mid blocks) (h' : Packed mid' stop blocks')
    (hmid : mid ≤ mid') (hstart : start ≤ mid') (hstop : mid ≤ stop) :
    Packed start stop (blocks ++ blocks') := by
  refine ⟨fun b hb => ?_, fun b hb => ?_, ?_⟩
  · rcases List.mem_append.mp hb with hb | hb
    · exact ⟨(h.inside b hb).1, (h.inside b hb).2.trans hstop⟩
    · exact ⟨hstart.trans (h'.inside b hb).1, (h'.inside b hb).2⟩
  · rcases List.mem_append.mp hb with hb | hb
    · exact h.aligned b hb
    · exact h'.aligned b hb
  · refine List.pairwise_append.mpr ⟨h.apart, h'.apart, fun a ha b hb => .inl ?_⟩
    exact ((h.inside a ha).2.trans hmid).trans (h'.inside b hb).1

/-- **A request** is served behind the blocks that are there, and what is in use then still
ends inside the region. -/
lemma Packed.serve {used top : ℕ} (h : Packed start used blocks) (hstart : start ≤ used)
    (htop : 2 ^ bits ∣ top) (hfits : used + n * 2 ^ bits ≤ top) :
    Packed start (roundUp used bits + n * 2 ^ bits) (blocks ++ Bump.row (roundUp used bits) bits n) ∧
      used ≤ roundUp used bits + n * 2 ^ bits ∧ roundUp used bits + n * 2 ^ bits ≤ top := by
  have hle : used ≤ roundUp used bits := le_roundUp
  refine ⟨h.append (.row dvd_roundUp) hle (hstart.trans hle) (by omega), by omega, ?_⟩
  exact roundUp_add_le htop hfits

end Packed

end Bump
