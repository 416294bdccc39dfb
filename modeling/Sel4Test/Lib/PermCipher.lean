import Mathlib.Tactic

/-!
Stream ciphers whose state is a permutation, as RC4.

The state is a permutation of the residues modulo `n` and two positions. A key is mixed into
the permutation by `n` exchanges, and each further exchange yields one value of the key
stream, which is combined with the data.

* `schedule`: the permutation and the position after some exchanges of the key schedule.
* `keystream`: the values that the exchanges after the key schedule yield.
* `crypt_crypt`: where the combination is undone by being made again, the cipher is its own
  inverse.
-/

namespace PermCipher

variable {n : ℕ} [NeZero n]

/-- The permutation and the position `j` after `m` exchanges of the key schedule. -/
def schedule (key : List (Fin n)) : ℕ → Equiv.Perm (Fin n) × Fin n
  | 0 => (1, 0)
  | m + 1 =>
      let (σ, j) := schedule key m
      let i := Fin.ofNat n m
      let j := j + σ i + key.getD (m % key.length) 0
      (σ * Equiv.swap i j, j)

/-- The state of the stream. -/
structure State (n : ℕ) where
  perm : Equiv.Perm (Fin n)
  i : Fin n
  j : Fin n

/-- The state after the key schedule. -/
def start (key : List (Fin n)) : State n := ⟨(schedule key n).1, 0, 0⟩

/-- One exchange of the stream. -/
def next (st : State n) : State n :=
  let i := st.i + 1
  let j := st.j + st.perm i
  ⟨st.perm * Equiv.swap i j, i, j⟩

/-- The position that the value after an exchange is taken from. -/
def tap (st : State n) : Fin n := st.perm st.i + st.perm st.j

/-- The state after `m` exchanges. -/
def after (key : List (Fin n)) (m : ℕ) : State n := next^[m] (start key)

/-- The values that the stream yields. -/
def keystream (key : List (Fin n)) (m : ℕ) : Fin n :=
  let st := after key (m + 1)
  st.perm (tap st)

lemma after_zero (key : List (Fin n)) :
    (after key 0).perm = (schedule key n).1 ∧ (after key 0).i = 0 ∧ (after key 0).j = 0 :=
  ⟨rfl, rfl, rfl⟩

lemma after_succ (key : List (Fin n)) (m : ℕ) : after key (m + 1) = next (after key m) :=
  Function.iterate_succ_apply' next m (start key)

/-- The data combined with the stream. -/
def crypt {α : Type*} (op : α → Fin n → α) (key : List (Fin n)) (data : List α) : List α :=
  data.mapIdx fun m b => op b (keystream key m)

/-- **The cipher is its own inverse.** -/
lemma crypt_crypt {α : Type*} {op : α → Fin n → α} (hop : ∀ b k, op (op b k) k = b)
    (key : List (Fin n)) (data : List α) : crypt op key (crypt op key data) = data := by
  rw [crypt, crypt, List.mapIdx_mapIdx]
  refine List.ext_getElem (by simp) fun m _ _ => ?_
  rw [List.getElem_mapIdx]
  exact hop _ _

end PermCipher
