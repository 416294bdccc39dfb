import Sel4Test.Lib.BlockHeap

/-!
Lists in arrays that grow, `ArrayList` and `ByteArray` of `adl/collections/ArrayList.hpp`, with
their storage.

The storage of a list is a block of the heap. A program over lists stops at a fault, `none`,
where it reads or writes outside of live storage or releases storage that is not live. What is
passed by reference, an element or a range of bytes, may be in the storage of a list, and is
read where the source reads it. A value takes `w` bytes and owns no storage, and a request for
more than a word can say gets the bytes that are left of it.

* `Stored`, `Becomes`: the storage of a list, and what one operation may do to it and the heap.
* `replace_spec`, `resize_becomes`, `append_becomes`, `appendBytes_becomes`: the operations on one
  list; `resize_short`, `append_fault`, `assign_dangling`: where they go wrong.
* `Inv.set`, `Inv.remove`: what an operation on one list is for all of them.
* `step_refines`: a call that meets its condition does what it does to sequences.
* `arrayList_refines`: so does every call of a run, and no storage is lost or released twice.
-/

namespace Adl

variable {α : Type}

/-! ### One list -/

/-- An answer of the allocator: the values that are found in the memory, or none. -/
abbrev Supply (α : Type) := Option (ℕ → α)

/-- The values for which a request for `count` of them, of `w` bytes each, gets memory: the
request is for a word of bytes, and the header takes 16 of them. -/
def room (w count : ℕ) : ℕ := ((w * count + 16) % 2 ^ 64 - 16) / w

/-- The request is a word. -/
def RequestFits (w count : ℕ) : Prop := w * count + 16 < 2 ^ 64

/-- What is passed by reference, or by a pointer and a length: values of the caller, or a range
of a block. -/
inductive Source (α : Type)
  | values (vs : List α)
  | range (p : Option ℕ) (i n : ℕ)

namespace Source

/-- The number of values. -/
def len : Source α → ℕ
  | values vs => vs.length
  | range _ _ n => n

/-- The values, at the time they are read. -/
def get (h : BlockHeap α) : Source α → Option (List α)
  | values vs => some vs
  | range p i n => h.read p i n

/-- A range in the block `p`. -/
def At (p : Option ℕ) : Source α → Prop
  | values _ => False
  | range q _ _ => q = p

end Source

/-- `_size`, `_capacity` and `_data`. -/
structure ArrayList where
  size : ℕ
  capacity : ℕ
  data : Option ℕ
deriving DecidableEq, Repr

namespace ArrayList

/-- A list that is new. -/
def new : ArrayList := ⟨0, 0, none⟩

/-- A block of `newCapacity` values, to which the elements are copied, becomes the storage,
and the old one is released. -/
def replace (w newCapacity : ℕ) (found : ℕ → α) (a : ArrayList) (h : BlockHeap α) :
    Option (ArrayList × BlockHeap α) := do
  let newAddr := some h.next
  let h := h.alloc ((List.range (room w newCapacity)).map found)
  let elements ← h.read a.data 0 a.size
  let h ← h.write newAddr 0 elements
  let h ← if a.capacity ≠ 0 then h.free a.data else some h
  return (⟨a.size, newCapacity, newAddr⟩, h)

/-- `reserve`. -/
def reserve (w newCapacity : ℕ) (g : Supply α) (a : ArrayList) (h : BlockHeap α) :
    Option (ArrayList × BlockHeap α) :=
  if newCapacity ≤ a.capacity then some (a, h)
  else g.elim (some (a, h)) fun found => replace w newCapacity found a h

/-- `resize`. -/
def resize (w newSize : ℕ) (g : Supply α) (a : ArrayList) (h : BlockHeap α) :
    Option (Bool × ArrayList × BlockHeap α) :=
  if newSize > a.size then do
    let r ← reserve w newSize g a h
    return (r.1.capacity = newSize, { r.1 with size := r.1.capacity }, r.2)
  else some (true, { a with size := newSize }, h)

/-- `_data[_size++] = data`. -/
def store (x : Source α) (a : ArrayList) (h : BlockHeap α) :
    Option (Bool × ArrayList × BlockHeap α) := do
  let v ← x.get h
  let h ← h.write a.data a.size v
  return (true, { a with size := a.size + 1 }, h)

/-- The capacity that follows a capacity, before it is cut to a word. -/
def grown (capacity : ℕ) : ℕ := if capacity = 0 then 16 else capacity + capacity / 2

/-- `append`; the result is false if there is no memory. -/
def append (w : ℕ) (x : Source α) (g : Supply α) (a : ArrayList) (h : BlockHeap α) :
    Option (Bool × ArrayList × BlockHeap α) :=
  if a.size = a.capacity then
    let newCapacity := grown a.capacity % 2 ^ 64
    (if newCapacity = 0 then none else g).elim (some (false, a, h)) fun found => do
      let r ← replace w newCapacity found a h
      store x r.1 r.2
  else store x a h

/-- `push`. -/
def push (w : ℕ) (x : Source α) (g : Supply α) (a : ArrayList) (h : BlockHeap α) :
    Option (Bool × ArrayList × BlockHeap α) :=
  append w x g a h

/-- `pop`, with the values that it returns; it follows a null pointer if the list is empty. -/
def pop (a : ArrayList) (h : BlockHeap α) : Option (List α × ArrayList) :=
  if a.size ≠ 0 then do
    let v ← h.read a.data (a.size - 1) 1
    return (v, { a with size := a.size - 1 })
  else none

/-- `clear`. -/
def clear (a : ArrayList) : ArrayList := { a with size := 0 }

/-- The size is set and the values are copied to the storage: `ByteArray::construct`. -/
def construct (w : ℕ) (data : Source α) (g : Supply α) (a : ArrayList) (h : BlockHeap α) :
    Option (Bool × ArrayList × BlockHeap α) := do
  let r ← resize w data.len g a h
  if r.1 then
    let values ← data.get r.2.2
    let h ← r.2.2.write r.2.1.data 0 values
    return (true, r.2.1, h)
  else return r

/-- The elements of another list are copied, by the copy constructor and by `operator =`. -/
def copyFrom (w : ℕ) (other : ArrayList) (g : Supply α) (a : ArrayList) (h : BlockHeap α) :
    Option (Bool × ArrayList × BlockHeap α) :=
  construct w (.range other.data 0 other.size) g a h

/-- `operator =`, for another list. -/
def assign (w : ℕ) (other : ArrayList) (g : Supply α) (a : ArrayList) (h : BlockHeap α) :
    Option (Bool × ArrayList × BlockHeap α) := do
  let h ← if a.capacity ≠ 0 then h.free a.data else some h
  copyFrom w other g a h

/-- The destructor. -/
def destroy (a : ArrayList) (h : BlockHeap α) : Option (BlockHeap α) :=
  if a.capacity ≠ 0 then h.free a.data else some h

/-- `ByteArray::append`. -/
def appendBytes (w : ℕ) (data : Source α) (g : Supply α) (a : ArrayList) (h : BlockHeap α) :
    Option (Bool × ArrayList × BlockHeap α) :=
  if data.len = 0 then some (true, a, h)
  else do
    let r ← resize w ((a.size + data.len) % 2 ^ 64) g a h
    if r.1 then
      let bytes ← data.get r.2.2
      let h ← r.2.2.write r.2.1.data (r.2.1.size - data.len) bytes
      return (true, r.2.1, h)
    else return r

end ArrayList

/-! ### The storage of a list -/

/-- The storage of a list, and the values below its size. -/
inductive Stored (h : BlockHeap α) : ArrayList → List α → Prop
  | empty : Stored h .new []
  | block {p size : ℕ} {xs : List α} (hp : h.block p = some xs) (hle : size ≤ xs.length)
      (hpos : 0 < xs.length) : Stored h ⟨size, xs.length, some p⟩ (xs.take size)

/-- What an operation may do to a list and the heap: another size, other values in the
storage, or a new storage in the place of the old one. -/
inductive Becomes (h : BlockHeap α) (a : ArrayList) : ArrayList → BlockHeap α → List α → Prop
  | sized {size : ℕ} {vs : List α} (hs : Stored h ⟨size, a.capacity, a.data⟩ vs) :
      Becomes h a ⟨size, a.capacity, a.data⟩ h vs
  | written {p size : ℕ} {xs : List α} (hdata : a.data = some p) (hp : h.block p ≠ none)
      (hle : size ≤ xs.length) (hpos : 0 < xs.length) :
      Becomes h a ⟨size, xs.length, some p⟩ (h.put p xs) (xs.take size)
  | moved {size : ℕ} {xs : List α} (hle : size ≤ xs.length) (hpos : 0 < xs.length) :
      Becomes h a ⟨size, xs.length, some h.next⟩ (h.moved a.data xs) (xs.take size)

section Storage

variable {h h' : BlockHeap α} {a a' : ArrayList} {vs vs' : List α}

lemma Stored.length (hs : Stored h a vs) : vs.length = a.size := by
  cases hs with
  | empty => rfl
  | block hp hle hpos => exact List.length_take_of_le hle

lemma Stored.size_le (hs : Stored h a vs) : a.size ≤ a.capacity := by
  cases hs with
  | empty => exact le_rfl
  | block hp hle hpos => exact hle

/-- A range of the values below the size. -/
lemma Stored.read_range (hs : Stored h a vs) {i n : ℕ} (hle : i + n ≤ a.size) :
    h.read a.data i n = some ((vs.drop i).take n) := by
  cases hs with
  | empty =>
      obtain rfl : n = 0 := by
        have hsize : i + n ≤ 0 := hle
        omega
      rw [BlockHeap.read_zero, List.take_zero]
  | @block p size xs hp hsize hpos =>
      dsimp only at hle ⊢
      rw [BlockHeap.read_block hp (hle.trans hsize), List.drop_take, List.take_take,
        Nat.min_eq_left (by omega)]

lemma Stored.read (hs : Stored h a vs) : h.read a.data 0 a.size = some vs := by
  rw [hs.read_range (Nat.zero_add _).le, List.drop_zero, ← hs.length, List.take_length]

/-- The storage of a list is in the heap as long as its block is. -/
lemma Stored.congr (hs : Stored h a vs) (hsame : ∀ p, a.data = some p → h'.block p = h.block p) :
    Stored h' a vs := by
  cases hs with
  | empty => exact .empty
  | block hp hle hpos => exact .block ((hsame _ rfl).trans hp) hle hpos

lemma Becomes.stored (hb : Becomes h a a' h' vs') : Stored h' a' vs' := by
  cases hb with
  | sized hs => exact hs
  | written hdata hp hle hpos => exact .block BlockHeap.block_put_self hle hpos
  | moved hle hpos => exact .block BlockHeap.block_moved_next hle hpos

lemma Becomes.fresh (hb : Becomes h a a' h' vs') (hf : h.Fresh) : h'.Fresh := by
  cases hb with
  | sized hs => exact hf
  | written hdata hp hle hpos => exact hf.put hp
  | moved hle hpos => exact hf.moved

/-- The blocks of other lists stay as they are. -/
lemma Becomes.block_of_ne (hb : Becomes h a a' h' vs') {p : ℕ} (hp : a.data ≠ some p)
    (hnext : p ≠ h.next) : h'.block p = h.block p := by
  cases hb with
  | sized hs => rfl
  | written hdata _ hle hpos =>
      refine BlockHeap.block_put_of_ne ?_
      rintro rfl
      exact hp hdata
  | moved hle hpos => exact BlockHeap.block_moved_of_ne hnext hp

/-- A list has no storage, or a block of its capacity. -/
lemma Stored.cases (hs : Stored h a vs) : (a = .new ∧ vs = []) ∨ ∃ p xs, a.data = some p ∧
    h.block p = some xs ∧ a.capacity = xs.length ∧ a.size ≤ xs.length ∧ 0 < xs.length ∧
    vs = xs.take a.size := by
  cases hs with
  | empty => exact .inl ⟨rfl, rfl⟩
  | block hp hle hpos => exact .inr ⟨_, _, rfl, hp, rfl, hle, hpos, rfl⟩

lemma Stored.of_block {p size : ℕ} {xs : List α} (hdata : a.data = some p)
    (hp : h.block p = some xs) (hcap : a.capacity = xs.length) (hle : size ≤ xs.length)
    (hpos : 0 < xs.length) : Stored h ⟨size, a.capacity, a.data⟩ (xs.take size) := by
  rw [hdata, hcap]
  exact .block hp hle hpos

/-- The same storage with fewer values. -/
lemma Stored.shrink (hs : Stored h a vs) {n : ℕ} (hn : n ≤ a.size) :
    Stored h ⟨n, a.capacity, a.data⟩ (vs.take n) := by
  rcases hs.cases with ⟨rfl, rfl⟩ | ⟨p, xs, hdata, hp, hcap, hle, hpos, rfl⟩
  · obtain rfl : n = 0 := Nat.le_zero.mp hn
    exact .empty
  · rw [List.take_take, Nat.min_eq_left hn]
    exact .of_block hdata hp hcap (hn.trans hle) hpos

/-- **Values are written** behind the first `i` ones, within the capacity. -/
lemma Becomes.write (hb : Becomes h a a' h' vs') {i : ℕ} {bs : List α} (hi : i ≤ a'.size)
    (hcap : i + bs.length ≤ a'.capacity) : ∃ h'', h'.write a'.data i bs = some h'' ∧
      Becomes h a ⟨i + bs.length, a'.capacity, a'.data⟩ h'' (vs'.take i ++ bs) := by
  have htake {size : ℕ} (xs : List α) (hi : i ≤ size) (hle : size ≤ xs.length) :
      (xs.take size).take i ++ bs = (BlockHeap.splice xs i bs).take (i + bs.length) := by
    rw [List.take_take, Nat.min_eq_left hi, BlockHeap.take_splice (hi.trans hle)]
  cases hb with
  | @sized size _ hs =>
      rcases hs.cases with ⟨hnew, rfl⟩ | ⟨p, xs, hdata, hp, hlen, hle, hpos, rfl⟩
      · injection hnew with hsize hcapacity hdata
        dsimp only at hi hcap
        obtain rfl : i = 0 := by omega
        obtain rfl : bs = [] := List.length_eq_zero_iff.mp (by omega)
        refine ⟨h, BlockHeap.write_nil, .sized ?_⟩
        rw [hcapacity, hdata]
        exact .empty
      · dsimp only at hdata hlen hle hi hcap ⊢
        rw [hlen] at hcap
        have hsplice := BlockHeap.length_splice hcap
        refine ⟨_, by rw [hdata]; exact BlockHeap.write_block hp hcap, ?_⟩
        rw [htake xs hi hle, hlen, hdata, ← hsplice]
        exact .written hdata (by rw [hp]; simp) (by omega) (by omega)
  | @written p size xs hdata hp hle hpos =>
      have hsplice := BlockHeap.length_splice hcap
      refine ⟨_, BlockHeap.write_block BlockHeap.block_put_self hcap, ?_⟩
      dsimp only at hi hcap ⊢
      rw [BlockHeap.put_put, htake xs hi hle, ← hsplice]
      exact .written hdata hp (by omega) (by omega)
  | @moved size xs hle hpos =>
      have hsplice := BlockHeap.length_splice hcap
      refine ⟨_, BlockHeap.write_block BlockHeap.block_moved_next hcap, ?_⟩
      dsimp only at hi hcap ⊢
      rw [BlockHeap.moved_put, htake xs hi hle, ← hsplice]
      exact .moved (by omega) (by omega)

end Storage

/-! ### The operations on one list -/

section Operations

variable {h h' : BlockHeap α} {a a' other : ArrayList} {vs vs' bs : List α} {g : Supply α}
  {w n : ℕ}

/-- What is read from other blocks is read later as well. -/
lemma Becomes.read (hb : Becomes h a a' h' vs') (hf : h.Fresh) {p : Option ℕ} {i n : ℕ}
    (hp : p ≠ a.data) (hread : h.read p i n = some bs) : h'.read p i n = some bs := by
  rw [BlockHeap.read] at hread ⊢
  by_cases hn : n = 0
  · rwa [if_pos hn] at hread ⊢
  · rw [if_neg hn] at hread ⊢
    cases p with
    | none => cases hread
    | some q =>
        simp only [Option.bind_eq_bind, Option.bind_some] at hread ⊢
        obtain ⟨xs, hq, -⟩ := Option.bind_eq_some_iff.mp hread
        have hne : q ≠ h.next := by
          rintro rfl
          rw [hf _ le_rfl] at hq
          cases hq
        rwa [hb.block_of_ne (Ne.symm hp) hne]

lemma Source.get_later {x : Source α} (hb : Becomes h a a' h' vs') (hf : h.Fresh)
    (hx : ¬ x.At a.data) (hget : x.get h = some bs) : x.get h' = some bs := by
  cases x with
  | values vs => exact hget
  | range p i n => exact hb.read hf hx hget

lemma room_of_fits {w n : ℕ} (hw : 0 < w) (hn : RequestFits w n) : room w n = n := by
  rw [room, Nat.mod_eq_of_lt hn, Nat.add_sub_cancel, Nat.mul_div_cancel_left n hw]

/-- **A new storage**: the elements are copied, and the old storage is released. -/
lemma replace_spec (hw : 0 < w) (hs : Stored h a vs) (hf : h.Fresh) (hle : a.size ≤ n)
    (hfits : RequestFits w n) (found : ℕ → α) : ∃ xs : List α, xs.length = n ∧ xs.take a.size = vs ∧
      a.replace w n found h = some (⟨a.size, n, some h.next⟩, h.moved a.data xs) := by
  set junk := (List.range n).map found with hjunk
  have hlen : junk.length = n := by rw [hjunk, List.length_map, List.length_range]
  have hvs := hs.length
  refine ⟨BlockHeap.splice junk 0 vs, ?_, ?_, ?_⟩
  · rw [BlockHeap.length_splice (by omega), hlen]
  · have htake : (BlockHeap.splice junk 0 vs).take (0 + vs.length) = junk.take 0 ++ vs :=
      BlockHeap.take_splice (Nat.zero_le _)
    rwa [Nat.zero_add, List.take_zero, List.nil_append, hvs] at htake
  · have hread : (h.alloc junk).read a.data 0 a.size = some vs := by
      rw [BlockHeap.alloc_eq_moved]
      refine Stored.read (hs.congr fun p hp => ?_)
      refine BlockHeap.block_moved_of_ne ?_ (by simp)
      rintro rfl
      rcases hs.cases with ⟨rfl, -⟩ | ⟨p, xs, hdata, hblock, -⟩
      · cases hp
      · rw [hdata] at hp
        rw [Option.some.inj hp, hf _ le_rfl] at hblock
        cases hblock
    have hnext : (h.alloc junk).block h.next = some junk := Function.update_self ..
    have hwrite : (h.alloc junk).write (some h.next) 0 vs =
        some (h.alloc (BlockHeap.splice junk 0 vs)) := by
      rw [BlockHeap.write_block hnext (by omega), BlockHeap.alloc_eq_moved,
        BlockHeap.moved_put, ← BlockHeap.alloc_eq_moved]
    rw [ArrayList.replace, room_of_fits hw hfits]
    simp only [← hjunk, hread, hwrite, Option.bind_eq_bind, Option.bind_some]
    rcases hs.cases with ⟨rfl, rfl⟩ | ⟨p, xs, hdata, hblock, hcap, -, hpos, -⟩
    · rw [if_neg (by simp [ArrayList.new]), BlockHeap.alloc_eq_moved]
      rfl
    · rw [if_pos (by omega), hdata, BlockHeap.alloc_free hf hblock]
      rfl

/-- The condition for `resize`: a size beyond the present one does not stop short of the
capacity, and if it goes beyond there is memory for it, or none and no room is left. -/
def CanResize (w n : ℕ) (a : ArrayList) (g : Supply α) : Prop :=
  a.size < n → a.capacity = n ∨
    a.capacity < n ∧ if g = none then a.size = a.capacity else RequestFits w n

/-- No memory for `resize`. -/
def Refused (n : ℕ) (a : ArrayList) (g : Supply α) : Prop :=
  a.size < n ∧ a.capacity < n ∧ g = none

lemma resize_refused (hn : CanResize w n a g) (hg : Refused n a g) :
    a.resize w n g h = some (false, a, h) := by
  obtain ⟨hsize, hcap, rfl⟩ := hg
  have heq : a.size = a.capacity := by
    rcases hn hsize with heq | ⟨-, hroom⟩
    · omega
    · rwa [if_pos rfl] at hroom
  have hsame : ({ a with size := a.capacity } : ArrayList) = a := by
    obtain ⟨size, capacity, data⟩ := a
    dsimp only at heq
    rw [heq]
  rw [ArrayList.resize, if_pos hsize, ArrayList.reserve, if_neg (by omega)]
  simp only [Option.elim_none, Option.bind_eq_bind, Option.bind_some, hsame, hcap.ne,
    decide_false]
  rfl

/-- **`resize`** to a size that it can have. -/
lemma resize_becomes (hw : 0 < w) (hs : Stored h a vs) (hf : h.Fresh) (hn : CanResize w n a g)
    (hg : ¬ Refused n a g) : ∃ a' h' vs', a.resize w n g h = some (true, a', h') ∧
      Becomes h a a' h' vs' ∧ a'.size = n ∧ n ≤ a'.capacity ∧
      vs'.take (min n a.size) = vs.take (min n a.size) ∧ (n ≤ a.capacity → h' = h) := by
  rw [ArrayList.resize]
  by_cases hgt : n > a.size
  · rw [if_pos hgt, ArrayList.reserve]
    by_cases hle : n ≤ a.capacity
    · have heq : a.capacity = n := (hn hgt).elim id fun hlt => absurd hle hlt.1.not_ge
      rw [if_pos hle]
      rcases hs.cases with ⟨rfl, rfl⟩ | ⟨p, xs, hdata, hp, hlen, hsize, hpos, rfl⟩
      · exact absurd (heq.symm.trans_le (Nat.zero_le _) |>.trans_lt' hgt) (lt_irrefl _)
      · refine ⟨⟨a.capacity, a.capacity, a.data⟩, h, xs.take a.capacity, ?_,
          .sized (.of_block hdata hp hlen hlen.le hpos), heq, heq.symm.le, ?_, fun _ => rfl⟩
        · simp [heq]
        · rw [List.take_take, List.take_take]
          congr 1
          omega
    · have hmem : g ≠ none := fun hnone => hg ⟨hgt, not_le.mp hle, hnone⟩
      have hfits : RequestFits w n := by
        rcases hn hgt with heq | ⟨-, hroom⟩
        · omega
        · rwa [if_neg hmem] at hroom
      obtain ⟨found, rfl⟩ := Option.ne_none_iff_exists'.mp hmem
      obtain ⟨xs, hlen, htake, hreplace⟩ := replace_spec hw hs hf hgt.le hfits found
      rw [if_neg hle]
      refine ⟨⟨n, n, some h.next⟩, h.moved a.data xs, xs.take n, ?_, ?_, rfl, le_rfl, ?_,
        fun h => absurd h hle⟩
      · simp only [Option.elim_some, hreplace, Option.bind_eq_bind, Option.bind_some]
        simp
      · rw [← hlen]
        exact .moved le_rfl (by omega)
      · rw [← htake, List.take_take, List.take_take]
        congr 1
        omega
  · rw [if_neg hgt]
    refine ⟨_, h, vs.take n, rfl, .sized (hs.shrink (not_lt.mp hgt)), rfl,
      (not_lt.mp hgt).trans hs.size_le, ?_, fun _ => rfl⟩
    rw [List.take_take]
    congr 1
    omega

/-- **Values at the end**: what is written behind all elements is appended. -/
lemma Becomes.append (hb : Becomes h a a' h' vs') (hcap : a'.size + bs.length ≤ a'.capacity) :
    ∃ h'', h'.write a'.data a'.size bs = some h'' ∧
      Becomes h a ⟨a'.size + bs.length, a'.capacity, a'.data⟩ h'' (vs' ++ bs) := by
  obtain ⟨h'', hwrite, hbecomes⟩ := hb.write le_rfl hcap
  rw [← hb.stored.length, List.take_length] at hbecomes
  rw [← hb.stored.length] at hwrite ⊢
  exact ⟨h'', hwrite, hbecomes⟩

lemma Source.length_get {src : Source α} (hsrc : src.get h = some bs) : bs.length = src.len := by
  cases src with
  | values vs =>
      obtain rfl := Option.some.inj hsrc
      rfl
  | range p i n => exact BlockHeap.length_read hsrc

/-- `_data[_size++] = data`, with room for one more. -/
lemma store_becomes {x : Source α} (hb : Becomes h a a' h' vs') (hx : x.get h' = some bs)
    (hone : x.len = 1) (hroom : a'.size < a'.capacity) :
    ∃ a'' h'', a'.store x h' = some (true, a'', h'') ∧ Becomes h a a'' h'' (vs' ++ bs) := by
  have hlen := (Source.length_get hx).trans hone
  obtain ⟨h'', hwrite, hbecomes⟩ :=
    hb.append (show a'.size + bs.length ≤ a'.capacity by omega)
  refine ⟨_, h'', ?_, hbecomes⟩
  rw [ArrayList.store, hx, hlen]
  simp only [Option.bind_eq_bind, Option.bind_some, hwrite]
  rfl

/-- The condition for `append` of what is at `x`: if the list has to grow and there is memory,
its capacity is not one, the request is a word, and `x` is not in the storage of the list. -/
def CanAppend (w : ℕ) (x : Source α) (a : ArrayList) (g : Supply α) : Prop :=
  a.size = a.capacity → g ≠ none →
    a.capacity ≠ 1 ∧ RequestFits w (ArrayList.grown a.capacity) ∧ ¬ x.At a.data

/-- A capacity other than one grows. -/
lemma lt_grown {c : ℕ} (hc : c ≠ 1) : c < ArrayList.grown c := by
  rw [ArrayList.grown]
  split_ifs <;> omega

lemma append_refused {x : Source α} (hfull : a.size = a.capacity) :
    a.append w x none h = some (false, a, h) := by
  rw [ArrayList.append, if_pos hfull]
  simp only [ite_self, Option.elim_none]

/-- **`append`**. -/
lemma append_becomes {x : Source α} (hw : 0 < w) (hs : Stored h a vs) (hf : h.Fresh)
    (hx : x.get h = some bs) (hone : x.len = 1) (hc : CanAppend w x a g)
    (hg : a.size = a.capacity → g ≠ none) :
    ∃ a' h', a.append w x g h = some (true, a', h') ∧ Becomes h a a' h' (vs ++ bs) := by
  rw [ArrayList.append]
  by_cases hfull : a.size = a.capacity
  · obtain ⟨hne, hfits, haway⟩ := hc hfull (hg hfull)
    obtain ⟨found, rfl⟩ := Option.ne_none_iff_exists'.mp (hg hfull)
    have hlt := lt_grown hne
    have hword : ArrayList.grown a.capacity < 2 ^ 64 := by
      have hmul := Nat.le_mul_of_pos_left (ArrayList.grown a.capacity) hw
      rw [RequestFits] at hfits
      omega
    obtain ⟨xs, hlen, htake, hreplace⟩ := replace_spec hw hs hf (by omega) hfits found
    have hmoved : Becomes h a ⟨a.size, ArrayList.grown a.capacity, some h.next⟩
        (h.moved a.data xs) (xs.take a.size) := by
      rw [← hlen]
      exact .moved (by omega) (by omega)
    obtain ⟨a', h', hstore, hb⟩ := store_becomes hmoved (x.get_later hmoved hf haway hx) hone
      (show a.size < ArrayList.grown a.capacity by omega)
    rw [htake] at hb
    refine ⟨a', h', ?_, hb⟩
    have hpos : ArrayList.grown a.capacity ≠ 0 := by omega
    rw [if_pos hfull, Nat.mod_eq_of_lt hword]
    simp only [if_neg hpos, Option.elim_some, hreplace, Option.bind_eq_bind, Option.bind_some,
      hstore]
  · rw [if_neg hfull]
    exact store_becomes (.sized hs) hx hone (lt_of_le_of_ne hs.size_le hfull)

/-- The condition for bytes that are written after `resize`: they are not in the storage of the
list if it is replaced. -/
def Away (n : ℕ) (src : Source α) (a : ArrayList) : Prop := a.capacity < n → ¬ src.At a.data

/-- **`construct`**, of a list without elements. -/
lemma construct_becomes {src : Source α} (hw : 0 < w) (hs : Stored h a vs) (hf : h.Fresh)
    (hsrc : src.get h = some bs) (hn : CanResize w src.len a g) (hg : ¬ Refused src.len a g)
    (haway : Away src.len src a) :
    ∃ a' h', a.construct w src g h = some (true, a', h') ∧ Becomes h a a' h' bs := by
  obtain ⟨a', h', vs', hresize, hb, hsize, hcap, -, hsame⟩ := resize_becomes hw hs hf hn hg
  have hlen := Source.length_get hsrc
  have hlater : src.get h' = some bs := by
    by_cases hle : src.len ≤ a.capacity
    · rwa [hsame hle]
    · exact src.get_later hb hf (haway (not_le.mp hle)) hsrc
  obtain ⟨h'', hwrite, hbecomes⟩ := hb.write (Nat.zero_le _)
    (show 0 + bs.length ≤ a'.capacity by omega)
  rw [List.take_zero, List.nil_append] at hbecomes
  refine ⟨_, h'', ?_, hbecomes⟩
  rw [ArrayList.construct, hresize]
  simp only [Option.bind_eq_bind, Option.bind_some, if_true, hlater, hwrite]
  congr 3
  obtain ⟨size, capacity, data⟩ := a'
  dsimp only at hsize ⊢
  rw [hsize, Nat.zero_add, hlen]

/-- **`ByteArray::append`**. -/
lemma appendBytes_becomes {src : Source α} (hw : 0 < w) (hs : Stored h a vs) (hf : h.Fresh)
    (hsrc : src.get h = some bs) (hword : a.size + src.len < 2 ^ 64)
    (hn : CanResize w (a.size + src.len) a g) (hg : ¬ Refused (a.size + src.len) a g)
    (haway : Away (a.size + src.len) src a) :
    ∃ a' h', a.appendBytes w src g h = some (true, a', h') ∧ Becomes h a a' h' (vs ++ bs) := by
  have hlen := Source.length_get hsrc
  rw [ArrayList.appendBytes]
  by_cases hzero : src.len = 0
  · obtain rfl : bs = [] := List.length_eq_zero_iff.mp (hlen.trans hzero)
    rw [if_pos hzero, List.append_nil]
    exact ⟨a, h, rfl, .sized hs⟩
  · obtain ⟨a', h', vs', hresize, hb, hsize, hcap, hkept, hsame⟩ := resize_becomes hw hs hf hn hg
    have hlater : src.get h' = some bs := by
      by_cases hle : a.size + src.len ≤ a.capacity
      · rwa [hsame hle]
      · exact src.get_later hb hf (haway (not_le.mp hle)) hsrc
    have hmin : min (a.size + src.len) a.size = a.size := by omega
    rw [hmin, ← hs.length, List.take_length, hs.length] at hkept
    obtain ⟨h'', hwrite, hbecomes⟩ := hb.write (show a.size ≤ a'.size by omega)
      (show a.size + bs.length ≤ a'.capacity by omega)
    rw [hkept] at hbecomes
    have hat : a'.size - src.len = a.size := by omega
    refine ⟨_, h'', ?_, hbecomes⟩
    rw [if_neg hzero, Nat.mod_eq_of_lt hword, hresize]
    simp only [Option.bind_eq_bind, Option.bind_some, if_true, hlater, hat, hwrite]
    congr 3
    obtain ⟨size, capacity, data⟩ := a'
    dsimp only at hsize ⊢
    rw [hsize, hlen]

lemma construct_refused {src : Source α} (hn : CanResize w src.len a g)
    (hg : Refused src.len a g) : a.construct w src g h = some (false, a, h) := by
  rw [ArrayList.construct, resize_refused hn hg]
  rfl

lemma appendBytes_refused {src : Source α} (hword : a.size + src.len < 2 ^ 64)
    (hn : CanResize w (a.size + src.len) a g) (hg : Refused (a.size + src.len) a g) :
    a.appendBytes w src g h = some (false, a, h) := by
  have hne : src.len ≠ 0 := by
    have hlt := hg.1
    omega
  rw [ArrayList.appendBytes, if_neg hne, Nat.mod_eq_of_lt hword, resize_refused hn hg]
  rfl

/-- **`reserve`**, where the request is a word. -/
lemma reserve_becomes (hw : 0 < w) (hs : Stored h a vs) (hf : h.Fresh)
    (hn : a.capacity < n → g ≠ none → RequestFits w n) :
    ∃ a' h', a.reserve w n g h = some (a', h') ∧ Becomes h a a' h' vs := by
  rw [ArrayList.reserve]
  by_cases hle : n ≤ a.capacity
  · rw [if_pos hle]
    exact ⟨a, h, rfl, .sized hs⟩
  · rw [if_neg hle]
    cases hg : g with
    | none => exact ⟨a, h, rfl, .sized hs⟩
    | some found =>
        have hsize := hs.size_le
        have hfits := hn (not_le.mp hle) (by simp [hg])
        obtain ⟨xs, hlen, htake, hreplace⟩ := replace_spec hw hs hf (by omega) hfits found
        refine ⟨_, _, hreplace, ?_⟩
        rw [← htake, ← hlen]
        exact .moved (by omega) (by omega)

/-- **`pop`**. -/
lemma pop_becomes {v : α} (hs : Stored h a (vs ++ [v])) :
    ∃ a', a.pop h = some ([v], a') ∧ Becomes h a a' h vs := by
  have hlen := hs.length
  rw [List.length_append, List.length_singleton] at hlen
  have hread : h.read a.data (a.size - 1) 1 = some [v] := by
    rw [hs.read_range (by omega), ← hlen, Nat.add_sub_cancel, List.drop_left, List.take_succ_cons,
      List.take_zero]
  have hshrink := hs.shrink (n := vs.length) (by omega)
  rw [List.take_left] at hshrink
  refine ⟨⟨a.size - 1, a.capacity, a.data⟩, ?_, ?_⟩
  · rw [ArrayList.pop, if_pos (by omega), hread]
    rfl
  · rw [← hlen, Nat.add_sub_cancel]
    exact .sized hshrink

end Operations

/-! ### What the conditions leave out -/

section Faults

variable {h h' : BlockHeap α} {a a' other : ArrayList} {vs : List α} {g : Supply α} {w n p : ℕ}

/-- A size between the present one and the capacity is a failure, and the size becomes the
capacity. -/
lemma resize_short (hsize : a.size < n) (hcap : n < a.capacity) :
    a.resize w n g h = some (false, { a with size := a.capacity }, h) := by
  rw [ArrayList.resize, if_pos hsize, ArrayList.reserve, if_pos hcap.le]
  simp only [Option.bind_eq_bind, Option.bind_some, hcap.ne', decide_false]
  rfl

/-- A list of capacity one does not grow, and the storage that an element was in is gone. -/
lemma append_fault {x : Source α} {found : ℕ → α} (hw : 0 < w) (hs : Stored h a vs)
    (hf : h.Fresh) (hone : x.len = 1) (hfull : a.size = a.capacity) (hcap : a.capacity ≠ 0)
    (hfits : RequestFits w (ArrayList.grown a.capacity)) (hbad : a.capacity = 1 ∨ x.At a.data) :
    a.append w x (some found) h = none := by
  have hpos : ArrayList.grown a.capacity % 2 ^ 64 = ArrayList.grown a.capacity ∧
      a.capacity ≤ ArrayList.grown a.capacity := by
    have hmul := Nat.le_mul_of_pos_left (ArrayList.grown a.capacity) hw
    rw [RequestFits] at hfits
    refine ⟨Nat.mod_eq_of_lt (by omega), ?_⟩
    rw [ArrayList.grown, if_neg hcap]
    omega
  obtain ⟨xs, hlen, -, hreplace⟩ := replace_spec hw hs hf (by omega) hfits found
  have hne : ArrayList.grown a.capacity ≠ 0 := by omega
  rw [ArrayList.append, if_pos hfull, hpos.1]
  simp only [if_neg hne, Option.elim_some, hreplace, Option.bind_eq_bind, Option.bind_some,
    ArrayList.store]
  refine Option.bind_eq_none_iff.mpr fun bs hget => Option.bind_eq_none_iff.mpr fun h' hwrite => ?_
  exfalso
  have hbs := (Source.length_get hget).trans hone
  rcases hbad with hcap1 | hat
  · -- the new storage is as short as the old one
    have hgrown : ArrayList.grown a.capacity = 1 := by rw [hcap1]; rfl
    have hnil : bs ≠ [] := by
      rintro rfl
      cases hbs
    rw [BlockHeap.write, if_neg hnil] at hwrite
    simp only [Option.bind_eq_bind, Option.bind_some, BlockHeap.block_moved_next] at hwrite
    rw [if_neg (by omega)] at hwrite
    cases hwrite
  · -- the element is read after the old storage is released
    cases x with
    | values vs => exact hat
    | range q i m =>
        obtain rfl : q = a.data := hat
        obtain rfl : m = 1 := hone
        rcases hs.cases with ⟨rfl, -⟩ | ⟨p, ys, hdata, hp, -⟩
        · exact hcap rfl
        · have hnext : p ≠ h.next := by
            rintro rfl
            rw [hf _ le_rfl] at hp
            cases hp
          rw [hdata, Source.get,
            BlockHeap.read_released (BlockHeap.block_moved_old hnext) Nat.one_ne_zero] at hget
          cases hget

/-- A storage that is released cannot be replaced. -/
lemma replace_released {found : ℕ → α} (hdata : a.data = some p) (hcap : a.capacity ≠ 0)
    (hgone : h.block p = none) (hnext : p ≠ h.next) : a.replace w n found h = none := by
  rw [ArrayList.replace]
  refine Option.bind_eq_none_iff.mpr fun elements _ => Option.bind_eq_none_iff.mpr fun h' hw => ?_
  have hold : h'.block p = none := by
    rw [BlockHeap.block_write_of_ne hw fun h => hnext (Option.some.inj h).symm]
    exact (Function.update_of_ne hnext ..).trans hgone
  rw [if_pos hcap, hdata, BlockHeap.free_released hold]
  rfl

/-- Nor does `resize` get the list another one. -/
lemma resize_released {ok : Bool} (hdata : a.data = some p) (hcap : a.capacity ≠ 0)
    (hgone : h.block p = none) (hnext : p ≠ h.next)
    (hresize : a.resize w n g h = some (ok, a', h')) :
    a'.data = some p ∧ a'.capacity ≠ 0 ∧ h' = h := by
  rw [ArrayList.resize] at hresize
  by_cases hgt : n > a.size
  · rw [if_pos hgt] at hresize
    obtain ⟨⟨b, k⟩, hreserve, hsized⟩ := Option.bind_eq_some_iff.mp hresize
    have hsame : b = a ∧ k = h := by
      rw [ArrayList.reserve] at hreserve
      by_cases hle : n ≤ a.capacity
      · rw [if_pos hle] at hreserve
        simpa [eq_comm] using hreserve
      · rw [if_neg hle] at hreserve
        cases hg : g with
        | none =>
            rw [hg] at hreserve
            simpa [eq_comm] using hreserve
        | some found =>
            rw [hg, Option.elim_some, replace_released hdata hcap hgone hnext] at hreserve
            cases hreserve
    obtain ⟨rfl, rfl⟩ := hsame
    obtain ⟨-, rfl, rfl⟩ : _ ∧ _ ∧ _ := by simpa using hsized
    exact ⟨hdata, hcap, rfl⟩
  · rw [if_neg hgt] at hresize
    obtain ⟨-, rfl, rfl⟩ : _ ∧ _ ∧ _ := by simpa using hresize
    exact ⟨hdata, hcap, rfl⟩

/-- A list that had storage keeps the name of it when it is assigned to, after the release: it
will be released again. -/
lemma assign_dangling {ok : Bool} (hf : h.Fresh) (hdata : a.data = some p)
    (hcap : a.capacity ≠ 0) (hassign : ArrayList.assign w other g a h = some (ok, a', h')) :
    a'.destroy h' = none := by
  rw [ArrayList.assign, if_pos hcap, hdata] at hassign
  obtain ⟨freed, hfree, hassign⟩ := Option.bind_eq_some_iff.mp hassign
  obtain ⟨hlive, rfl⟩ := BlockHeap.eq_of_free hfree
  have hgone : BlockHeap.block { h with block := Function.update h.block p none } p = none :=
    Function.update_self ..
  have hnext : p ≠ h.next := by
    rintro rfl
    exact hlive (hf _ le_rfl)
  dsimp only [ArrayList.copyFrom, ArrayList.construct] at hassign
  obtain ⟨⟨done, b, k⟩, hresize, hcopy⟩ := Option.bind_eq_some_iff.mp hassign
  obtain ⟨hb, hcap', rfl⟩ := resize_released hdata hcap hgone hnext hresize
  have hrelease : b.destroy { h with block := Function.update h.block p none } = none := by
    rw [ArrayList.destroy, if_pos hcap', hb, BlockHeap.free_released hgone]
  dsimp only at hcopy
  by_cases hdone : done = true
  · rw [if_pos hdone] at hcopy
    obtain ⟨values, -, hvalues⟩ := Option.bind_eq_some_iff.mp hcopy
    obtain ⟨k, hwrite, hresult⟩ := Option.bind_eq_some_iff.mp hvalues
    obtain ⟨-, rfl, rfl⟩ : _ ∧ _ ∧ _ := by simpa using hresult
    by_cases hnil : values = []
    · rw [hnil, BlockHeap.write_nil] at hwrite
      rwa [← Option.some.inj hwrite]
    · rw [hb, BlockHeap.write_released hgone hnil] at hwrite
      cases hwrite
  · rw [if_neg hdone] at hcopy
    obtain ⟨-, rfl, rfl⟩ : _ ∧ _ ∧ _ := by simpa using hcopy
    exact hrelease

end Faults

/-! ### Any number of lists -/

/-- The storage, and the lists of a program under their names. -/
structure Lists (α : Type) where
  heap : BlockHeap α
  list : ℕ → Option ArrayList

namespace Lists

/-- No list. -/
def empty : Lists α := ⟨.empty, fun _ => none⟩

/-- What a call passes: values of the caller, or a range of the elements of a list. -/
inductive Arg (α : Type)
  | values (vs : List α)
  | range (l i n : ℕ)

/-- The calls, with the names of the lists that they are for. -/
inductive Op (α : Type)
  | new (l : ℕ)
  | copy (l l' : ℕ)
  | construct (l : ℕ) (data : Arg α)
  | assign (l l' : ℕ)
  | append (l : ℕ) (x : Arg α)
  | push (l : ℕ) (x : Arg α)
  | pop (l : ℕ)
  | clear (l : ℕ)
  | reserve (l n : ℕ)
  | resize (l n : ℕ)
  | appendBytes (l : ℕ) (data : Arg α)
  | destroy (l : ℕ)

/-- Where the values that a call passes are. -/
def source (s : Lists α) : Arg α → Option (Source α)
  | .values vs => some (.values vs)
  | .range l i n => (s.list l).map fun a => .range a.data i n

/-- A list and the heap after a call. -/
def set (s : Lists α) (l : ℕ) (a : ArrayList) (h : BlockHeap α) : Lists α :=
  ⟨h, Function.update s.list l (some a)⟩

/-- A call: whether it has done what it is for, and the values that it returns. -/
def step (w : ℕ) (g : Supply α) (s : Lists α) : Op α → Option (Bool × List α × Lists α)
  | .new l => some (true, [], s.set l .new s.heap)
  | .copy l l' => do
      let other ← s.list l'
      let r ← ArrayList.copyFrom w other g .new s.heap
      return (r.1, [], s.set l r.2.1 r.2.2)
  | .construct l data => do
      let data ← s.source data
      let r ← ArrayList.construct w data g .new s.heap
      return (r.1, [], s.set l r.2.1 r.2.2)
  | .assign l l' => do
      let a ← s.list l
      if l = l' then return (true, [], s)
      else
        let other ← s.list l'
        let r ← ArrayList.assign w other g a s.heap
        return (r.1, [], s.set l r.2.1 r.2.2)
  | .append l x => do
      let a ← s.list l
      let x ← s.source x
      let r ← a.append w x g s.heap
      return (r.1, [], s.set l r.2.1 r.2.2)
  | .push l x => do
      let a ← s.list l
      let x ← s.source x
      let r ← a.push w x g s.heap
      return (r.1, [], s.set l r.2.1 r.2.2)
  | .pop l => do
      let a ← s.list l
      let r ← a.pop s.heap
      return (true, r.1, s.set l r.2 s.heap)
  | .clear l => do
      let a ← s.list l
      return (true, [], s.set l a.clear s.heap)
  | .reserve l n => do
      let a ← s.list l
      let r ← a.reserve w n g s.heap
      return (true, [], s.set l r.1 r.2)
  | .resize l n => do
      let a ← s.list l
      let r ← a.resize w n g s.heap
      return (r.1, [], s.set l r.2.1 r.2.2)
  | .appendBytes l data => do
      let a ← s.list l
      let data ← s.source data
      let r ← a.appendBytes w data g s.heap
      return (r.1, [], s.set l r.2.1 r.2.2)
  | .destroy l => do
      let a ← s.list l
      let h ← a.destroy s.heap
      return (true, [], ⟨h, Function.update s.list l none⟩)

/-- `size()` and the elements below it. -/
def view (s : Lists α) (l : ℕ) : Option (List α) :=
  (s.list l).bind fun a => s.heap.read a.data 0 a.size

/-- The storage that a list has to release. -/
def owns (s : Lists α) (l : ℕ) : List ℕ := (s.list l).elim [] fun a => a.data.toList

/-- Every list is in its storage, the capacity is the length of it, and the live storage is that
of the lists, of each its own. -/
structure Inv (s : Lists α) : Prop where
  fresh : s.heap.Fresh
  stored : ∀ l a, s.list l = some a → ∃ vs, Stored s.heap a vs
  owned : Ledger.Owned s.heap.live s.owns

section Invariant

variable {s : Lists α} {l : ℕ} {a a' : ArrayList} {h' : BlockHeap α} {vs : List α}

lemma Inv.empty : (empty : Lists α).Inv where
  fresh := .empty
  stored l a ha := by cases ha
  owned := .empty

lemma view_of_stored (ha : s.list l = some a) (hs : Stored s.heap a vs) :
    s.view l = some vs := by
  rw [view, ha]
  exact hs.read

lemma owns_of_list (ha : s.list l = some a) : s.owns l = a.data.toList := by
  rw [owns, ha, Option.elim_some]

lemma owns_set : (s.set l a h').owns = Function.update s.owns l a.data.toList := by
  funext l'
  by_cases hl : l' = l
  · subst hl
    simp [owns, set]
  · simp [owns, set, hl]

lemma owns_destroy : (⟨h', Function.update s.list l none⟩ : Lists α).owns =
    Function.update s.owns l [] := by
  funext l'
  by_cases hl : l' = l
  · subst hl
    simp [owns]
  · simp [owns, hl]

/-- The ledger after an operation on a list, or on a new one. -/
lemma Inv.owned_set (hi : s.Inv) (hown : s.owns l = a.data.toList)
    (hb : Becomes s.heap a a' h' vs) : Ledger.Owned h'.live (s.set l a' h').owns := by
  rw [owns_set]
  cases hb with
  | sized hs =>
      rw [← hown, Function.update_eq_self]
      exact hi.owned
  | @written p size xs hdata hp hle hpos =>
      have hsame : s.owns l = (some p).toList := by rw [hown, hdata]
      rw [← hsame, Function.update_eq_self]
      exact BlockHeap.owned_put hi.owned hp
  | moved hle hpos =>
      cases hdata : a.data with
      | none =>
          rw [hdata] at hown
          rw [← BlockHeap.alloc_eq_moved]
          exact BlockHeap.owned_alloc hi.owned hi.fresh hown
      | some p =>
          rw [hdata] at hown
          exact BlockHeap.owned_moved hi.owned hi.fresh hown

/-- The storage of another list is another block. -/
lemma Inv.data_ne (hi : s.Inv) (hown : s.owns l = a.data.toList) {l' p : ℕ} (hne : l' ≠ l)
    {b : ArrayList} (hlist : s.list l' = some b) (hp : b.data = some p) :
    a.data ≠ some p ∧ p ≠ s.heap.next := by
  have hmem : p ∈ s.owns l' := by
    rw [owns_of_list hlist, hp]
    exact List.mem_singleton_self p
  constructor
  · intro hdata
    refine hne (hi.owned.apart l' l p hmem ?_)
    rw [hown, hdata]
    exact List.mem_singleton_self p
  · rintro rfl
    exact BlockHeap.live_ne_none.mp (hi.owned.live_of_mem hmem) (hi.fresh _ le_rfl)

/-- The other lists are as before. -/
lemma Inv.stored_of_ne (hi : s.Inv) (hown : s.owns l = a.data.toList)
    (hb : Becomes s.heap a a' h' vs) {l' : ℕ} (hne : l' ≠ l) {b : ArrayList} {ws : List α}
    (hlist : s.list l' = some b) (hs : Stored s.heap b ws) : Stored h' b ws :=
  hs.congr fun _ hp =>
    have hdata := hi.data_ne hown hne hlist hp
    hb.block_of_ne hdata.1 hdata.2

/-- **What an operation does to one list**, and nothing to the others. -/
lemma Inv.set (hi : s.Inv) (hown : s.owns l = a.data.toList)
    (hb : Becomes s.heap a a' h' vs) :
    (s.set l a' h').Inv ∧ (s.set l a' h').view = Function.update s.view l (some vs) := by
  have hlist : (s.set l a' h').list l = some a' := Function.update_self ..
  refine ⟨⟨hb.fresh hi.fresh, fun l' b hl' => ?_, hi.owned_set hown hb⟩, ?_⟩
  · by_cases hne : l' = l
    · subst hne
      obtain rfl := Option.some.inj (hlist.symm.trans hl')
      exact ⟨vs, hb.stored⟩
    · have hold : s.list l' = some b := (Function.update_of_ne hne ..).symm.trans hl'
      obtain ⟨ws, hs⟩ := hi.stored l' b hold
      exact ⟨ws, hi.stored_of_ne hown hb hne hold hs⟩
  · funext l'
    by_cases hne : l' = l
    · subst hne
      rw [Function.update_self, view_of_stored hlist hb.stored]
    · rw [Function.update_of_ne hne]
      have hsame : (s.set l a' h').list l' = s.list l' := Function.update_of_ne hne ..
      cases hold : s.list l' with
      | none => rw [view, view, hsame, hold, Option.bind_none, Option.bind_none]
      | some b =>
          obtain ⟨ws, hs⟩ := hi.stored l' b hold
          rw [view_of_stored hold hs,
            view_of_stored (hsame.trans hold) (hi.stored_of_ne hown hb hne hold hs)]

/-- **A list is taken out**, with its storage. -/
lemma Inv.remove (hi : s.Inv) (hown : s.owns l = a.data.toList) (hf : h'.Fresh)
    (hsame : ∀ p, a.data ≠ some p → h'.block p = s.heap.block p)
    (ho : Ledger.Owned h'.live (Function.update s.owns l [])) :
    (⟨h', Function.update s.list l none⟩ : Lists α).Inv ∧
      (⟨h', Function.update s.list l none⟩ : Lists α).view = Function.update s.view l none := by
  have hstored : ∀ l' b ws, l' ≠ l → s.list l' = some b → Stored s.heap b ws → Stored h' b ws :=
    fun l' b ws hne hb hs => hs.congr fun p hp => hsame p (hi.data_ne hown hne hb hp).1
  refine ⟨⟨hf, fun l' b hb => ?_, ?_⟩, ?_⟩
  · dsimp only at hb ⊢
    by_cases hne : l' = l
    · subst hne
      rw [Function.update_self] at hb
      cases hb
    · rw [Function.update_of_ne hne] at hb
      obtain ⟨ws, hs⟩ := hi.stored l' b hb
      exact ⟨ws, hstored l' b ws hne hb hs⟩
  · rw [owns_destroy]
    exact ho
  · funext l'
    by_cases hne : l' = l
    · subst hne
      rw [Function.update_self, view]
      dsimp only
      rw [Function.update_self, Option.bind_none]
    · rw [Function.update_of_ne hne, view, view]
      dsimp only
      rw [Function.update_of_ne hne]
      cases hold : s.list l' with
      | none => rfl
      | some b =>
          obtain ⟨ws, hs⟩ := hi.stored l' b hold
          rw [Option.bind_some, Option.bind_some, hs.read, (hstored l' b ws hne hold hs).read]

end Invariant

/-! ### What the calls are for -/

/-- The values that a call passes, in sequences. -/
def Arg.get (σ : ℕ → Option (List α)) : Arg α → Option (List α)
  | values vs => some vs
  | range l i n => (σ l).map fun vs => (vs.drop i).take n

/-- The number of values that a call passes. -/
def Arg.len : Arg α → ℕ
  | values vs => vs.length
  | range _ _ n => n

/-- A range is below the size of its list. -/
def Arg.Valid (σ : ℕ → Option (List α)) : Arg α → Prop
  | values _ => True
  | range l i n => ∃ vs, σ l = some vs ∧ i + n ≤ vs.length

/-- A call on sequences: the values that it returns, and the sequences after it. The values that
a longer size brings in are not determined. -/
inductive Does (σ : ℕ → Option (List α)) : Op α → List α → (ℕ → Option (List α)) → Prop
  | new {l : ℕ} : Does σ (.new l) [] (Function.update σ l (some []))
  | copy {l l' : ℕ} {vs : List α} (h : σ l' = some vs) :
      Does σ (.copy l l') [] (Function.update σ l (some vs))
  | construct {l : ℕ} {data : Arg α} {bs : List α} (h : data.get σ = some bs) :
      Does σ (.construct l data) [] (Function.update σ l (some bs))
  | assign {l l' : ℕ} {vs : List α} (h : σ l' = some vs) :
      Does σ (.assign l l') [] (Function.update σ l (some vs))
  | append {l : ℕ} {x : Arg α} {vs : List α} {v : α} (h : σ l = some vs)
      (hx : x.get σ = some [v]) :
      Does σ (.append l x) [] (Function.update σ l (some (vs ++ [v])))
  | push {l : ℕ} {x : Arg α} {vs : List α} {v : α} (h : σ l = some vs)
      (hx : x.get σ = some [v]) :
      Does σ (.push l x) [] (Function.update σ l (some (vs ++ [v])))
  | pop {l : ℕ} {vs : List α} {v : α} (h : σ l = some (vs ++ [v])) :
      Does σ (.pop l) [v] (Function.update σ l (some vs))
  | clear {l : ℕ} : Does σ (.clear l) [] (Function.update σ l (some []))
  | reserve {l n : ℕ} : Does σ (.reserve l n) [] σ
  | resize {l n : ℕ} {vs vs' : List α} (h : σ l = some vs) (hlen : vs'.length = n)
      (hkept : vs'.take (min n vs.length) = vs.take (min n vs.length)) :
      Does σ (.resize l n) [] (Function.update σ l (some vs'))
  | appendBytes {l : ℕ} {data : Arg α} {vs bs : List α} (h : σ l = some vs)
      (hdata : data.get σ = some bs) :
      Does σ (.appendBytes l data) [] (Function.update σ l (some (vs ++ bs)))
  | destroy {l : ℕ} : Does σ (.destroy l) [] (Function.update σ l none)

/-- The sequences after a call that got no memory: a list that is constructed has no values, and
nothing else is done. -/
def Op.failed (σ : ℕ → Option (List α)) : Op α → ℕ → Option (List α)
  | copy l _ | construct l _ => Function.update σ l (some [])
  | new _ | assign _ _ | append _ _ | push _ _ | pop _ | clear _ | reserve _ _ | resize _ _
  | appendBytes _ _ | destroy _ => σ

/-- What has become of a call: it has done what it is for, or there was no memory. -/
inductive Outcome (g : Supply α) (op : Op α) (σ σ' : ℕ → Option (List α)) :
    List α → Bool → Prop
  | done {out : List α} (h : Does σ op out σ') : Outcome g op σ σ' out true
  | refused (hg : g = none) (h : σ' = op.failed σ) : Outcome g op σ σ' [] false

/-- The calls that a program can make: on lists that are there, or are not yet, with arguments
that are there, and `pop` where there is a value. -/
def Legal (σ : ℕ → Option (List α)) : Op α → Prop
  | .new l => σ l = none
  | .copy l l' => σ l = none ∧ σ l' ≠ none
  | .construct l data => σ l = none ∧ data.Valid σ
  | .assign l l' => σ l ≠ none ∧ σ l' ≠ none
  | .append l x | .push l x => σ l ≠ none ∧ x.Valid σ ∧ x.len = 1
  | .pop l => ∃ vs, σ l = some vs ∧ vs ≠ []
  | .clear l | .reserve l _ | .resize l _ | .destroy l => σ l ≠ none
  | .appendBytes l data => σ l ≠ none ∧ data.Valid σ

/-- The condition under which a call does what it is for. -/
def Safe (w : ℕ) (g : Supply α) (s : Lists α) : Op α → Prop
  | .new _ | .pop _ | .clear _ | .destroy _ => True
  | .copy _ l' => ∀ other, s.list l' = some other → CanResize w other.size .new g
  | .construct _ data => ∀ src, s.source data = some src → CanResize w src.len .new g
  | .assign l l' => l ≠ l' → (∀ a, s.list l = some a → a.capacity = 0) ∧
      ∀ other, s.list l' = some other → CanResize w other.size .new g
  | .append l x | .push l x => ∀ a src, s.list l = some a → s.source x = some src →
      CanAppend w src a g
  | .reserve l n => ∀ a, s.list l = some a → a.capacity < n → g ≠ none → RequestFits w n
  | .resize l n => ∀ a, s.list l = some a → CanResize w n a g
  | .appendBytes l data => ∀ a src, s.list l = some a → s.source data = some src →
      a.size + src.len < 2 ^ 64 ∧ CanResize w (a.size + src.len) a g ∧
        Away (a.size + src.len) src a

/-- A call goes through, keeps the invariant, and does what it is for if there is memory. -/
def Refines (w : ℕ) (g : Supply α) (s : Lists α) (op : Op α) : Prop :=
  ∃ ok out s', s.step w g op = some (ok, out, s') ∧ s'.Inv ∧ Outcome g op s.view s'.view out ok

section Refinement

variable {w n l l' : ℕ} {g : Supply α} {s : Lists α} {a : ArrayList} {vs bs : List α}

lemma list_of_view (hi : s.Inv) (hl : s.view l ≠ none) :
    ∃ a vs, s.list l = some a ∧ Stored s.heap a vs ∧ s.view l = some vs := by
  cases ha : s.list l with
  | none =>
      rw [view, ha] at hl
      exact absurd rfl hl
  | some a =>
      obtain ⟨vs, hs⟩ := hi.stored l a ha
      exact ⟨a, vs, rfl, hs, view_of_stored ha hs⟩

lemma list_of_view_none (hi : s.Inv) (hl : s.view l = none) : s.list l = none := by
  cases ha : s.list l with
  | none => rfl
  | some a =>
      obtain ⟨vs, hs⟩ := hi.stored l a ha
      rw [view_of_stored ha hs] at hl
      cases hl

lemma owns_of_view_none (hi : s.Inv) (hl : s.view l = none) : s.owns l = [] := by
  rw [owns, list_of_view_none hi hl, Option.elim_none]

/-- The values that a call passes are where it says. -/
lemma source_of_valid (hi : s.Inv) {x : Arg α} (hx : x.Valid s.view) :
    ∃ src bs, s.source x = some src ∧ src.get s.heap = some bs ∧ x.get s.view = some bs ∧
      src.len = x.len := by
  cases x with
  | values vs => exact ⟨.values vs, vs, rfl, rfl, rfl, rfl⟩
  | range l i n =>
      obtain ⟨vs, hview, hle⟩ := hx
      obtain ⟨a, ws, ha, hs, hws⟩ := list_of_view hi (by rw [hview]; simp)
      obtain rfl := Option.some.inj (hview.symm.trans hws)
      rw [hs.length] at hle
      refine ⟨.range a.data i n, (vs.drop i).take n, ?_, hs.read_range hle, ?_, rfl⟩
      · rw [source, ha, Option.map_some]
      · rw [Arg.get, hview, Option.map_some]

/-- A list that a call has made, or has changed, and what it returns. -/
lemma Refines.of_becomes {op : Op α} {ok : Bool} {out : List α} {a' : ArrayList}
    {h' : BlockHeap α} (hi : s.Inv) (hown : s.owns l = a.data.toList)
    (hstep : s.step w g op = some (ok, out, s.set l a' h')) (hb : Becomes s.heap a a' h' vs)
    (ho : Outcome g op s.view (Function.update s.view l (some vs)) out ok) :
    s.Refines w g op := by
  obtain ⟨hinv, hview⟩ := hi.set hown hb
  refine ⟨ok, out, _, hstep, hinv, ?_⟩
  rwa [hview]

/-- A list that a call has left as it was. -/
lemma Refines.of_same {op : Op α} {ok : Bool} (hi : s.Inv) (ha : s.list l = some a)
    (hstep : s.step w g op = some (ok, [], s.set l a s.heap))
    (ho : Outcome g op s.view s.view [] ok) : s.Refines w g op := by
  have hsame : s.set l a s.heap = s := by
    rw [set, ← ha, Function.update_eq_self]
  rw [hsame] at hstep
  exact ⟨ok, [], s, hstep, hi, ho⟩

/-- Nothing of a list that is new can be read. -/
lemma not_at_new {h : BlockHeap α} {src : Source α} (hsrc : src.get h = some bs) :
    Away src.len src .new := by
  intro hpos hat
  cases src with
  | values vs => exact hat
  | range p i n =>
      have hp : p = none := hat
      have hn : n ≠ 0 := (Nat.zero_lt_of_lt hpos).ne'
      rw [Source.get, hp, BlockHeap.read, if_neg hn] at hsrc
      cases hsrc

/-- The values are copied to a list that is new, if there is memory. -/
lemma construct_new (hw : 0 < w) (hi : s.Inv) {src : Source α}
    (hsrc : src.get s.heap = some bs) (hn : CanResize w src.len .new g) :
    (g = none ∧ ArrayList.construct w src g .new s.heap = some (false, .new, s.heap)) ∨
      ∃ a' h', ArrayList.construct w src g .new s.heap = some (true, a', h') ∧
        Becomes s.heap .new a' h' bs := by
  by_cases hg : Refused src.len .new g
  · exact .inl ⟨hg.2.2, construct_refused hn hg⟩
  · exact .inr (construct_becomes hw .empty hi.fresh hsrc hn hg (not_at_new hsrc))

lemma new_sized {h : BlockHeap α} : Becomes h .new .new h [] := .sized .empty

/-- The elements of a list, as a range that is copied. -/
lemma get_elements (hs : Stored s.heap a vs) :
    (Source.range a.data 0 a.size : Source α).get s.heap = some vs := hs.read

lemma new_refines (hi : s.Inv) (hl : s.view l = none) : s.Refines w g (.new l) :=
  .of_becomes hi (owns_of_view_none hi hl) rfl new_sized (.done .new)

lemma copy_refines (hw : 0 < w) (hi : s.Inv) (hl : s.view l = none) (hl' : s.view l' ≠ none)
    (hsafe : s.Safe w g (.copy l l')) : s.Refines w g (.copy l l') := by
  obtain ⟨other, vs, ha, hs, hview⟩ := list_of_view hi hl'
  have hown := owns_of_view_none hi hl
  rcases construct_new hw hi (get_elements hs) (hsafe other ha) with
    ⟨hg, hcopy⟩ | ⟨a', h', hcopy, hb⟩
  · refine .of_becomes hi hown ?_ new_sized (.refused hg rfl)
    rw [step, ha, Option.bind_eq_bind, Option.bind_some, ArrayList.copyFrom, hcopy]
    rfl
  · refine .of_becomes hi hown ?_ hb (.done (.copy hview))
    rw [step, ha, Option.bind_eq_bind, Option.bind_some, ArrayList.copyFrom, hcopy]
    rfl

lemma construct_refines (hw : 0 < w) (hi : s.Inv) {data : Arg α} (hl : s.view l = none)
    (hdata : data.Valid s.view) (hsafe : s.Safe w g (.construct l data)) :
    s.Refines w g (.construct l data) := by
  obtain ⟨src, bs, hsource, hget, hbs, -⟩ := source_of_valid hi hdata
  have hown := owns_of_view_none hi hl
  rcases construct_new hw hi hget (hsafe src hsource) with ⟨hg, hcopy⟩ | ⟨a', h', hcopy, hb⟩
  · refine .of_becomes hi hown ?_ new_sized (.refused hg rfl)
    rw [step, hsource, Option.bind_eq_bind, Option.bind_some, hcopy]
    rfl
  · refine .of_becomes hi hown ?_ hb (.done (.construct hbs))
    rw [step, hsource, Option.bind_eq_bind, Option.bind_some, hcopy]
    rfl

lemma assign_refines (hw : 0 < w) (hi : s.Inv) (hl : s.view l ≠ none) (hl' : s.view l' ≠ none)
    (hsafe : s.Safe w g (.assign l l')) : s.Refines w g (.assign l l') := by
  obtain ⟨a, ws, ha, hs, hws⟩ := list_of_view hi hl
  by_cases hself : l = l'
  · subst hself
    refine ⟨true, [], s, ?_, hi, .done ?_⟩
    · rw [step, ha, Option.bind_eq_bind, Option.bind_some, if_pos rfl]
      rfl
    · have hsame := Does.assign (l := l) hws
      rwa [← hws, Function.update_eq_self] at hsame
  · obtain ⟨hcap, hn⟩ := hsafe hself
    obtain ⟨other, vs, hother, hvs, hview⟩ := list_of_view hi hl'
    -- a list without storage is one that is new
    rcases hs.cases with ⟨rfl, rfl⟩ | ⟨p, xs, -, -, hlen, -, hpos, -⟩
    · have hassign : ∀ r, ArrayList.construct w (.range other.data 0 other.size) g .new s.heap =
          some r → s.step w g (.assign l l') = some (r.1, [], s.set l r.2.1 r.2.2) := by
        intro r hr
        have hassign : ArrayList.assign w other g .new s.heap = some r := hr
        simp only [step, ha, if_neg hself, hother, hassign, Option.bind_eq_bind, Option.bind_some]
        rfl
      rcases construct_new hw hi (get_elements hvs) (hn other hother) with
        ⟨hg, hcopy⟩ | ⟨a', h', hcopy, hb⟩
      · exact .of_same hi ha (hassign _ hcopy) (.refused hg rfl)
      · exact .of_becomes hi (owns_of_list ha) (hassign _ hcopy) hb (.done (.assign hview))
    · have hzero := hcap a ha
      omega

lemma append_refines (hw : 0 < w) (hi : s.Inv) {x : Arg α} (hl : s.view l ≠ none)
    (hx : x.Valid s.view) (hone : x.len = 1) (hsafe : s.Safe w g (.append l x)) :
    s.Refines w g (.append l x) := by
  obtain ⟨a, vs, ha, hs, hview⟩ := list_of_view hi hl
  obtain ⟨src, bs, hsource, hget, hbs, hlen⟩ := source_of_valid hi hx
  have hc := hsafe a src ha hsource
  obtain ⟨v, rfl⟩ := List.length_eq_one_iff.mp ((Source.length_get hget).trans (hlen.trans hone))
  have happend : ∀ r, a.append w src g s.heap = some r →
      s.step w g (.append l x) = some (r.1, [], s.set l r.2.1 r.2.2) := by
    intro r hr
    simp only [step, ha, hsource, hr, Option.bind_eq_bind, Option.bind_some]
    rfl
  by_cases hg : a.size = a.capacity ∧ g = none
  · obtain ⟨hfull, rfl⟩ := hg
    exact .of_same hi ha (happend _ (append_refused hfull)) (.refused rfl rfl)
  · obtain ⟨a', h', happ, hb⟩ := append_becomes hw hs hi.fresh hget (hlen.trans hone) hc
      fun hfull hnone => hg ⟨hfull, hnone⟩
    exact .of_becomes hi (owns_of_list ha) (happend _ happ) hb (.done (.append hview hbs))

/-- `push` is `append`. -/
lemma push_refines {x : Arg α} (h : s.Refines w g (.append l x)) : s.Refines w g (.push l x) := by
  obtain ⟨ok, out, s', hstep, hinv, ho⟩ := h
  refine ⟨ok, out, s', hstep, hinv, ?_⟩
  generalize s'.view = σ' at ho
  cases ho with
  | done hd =>
      cases hd with
      | append hvs hx => exact .done (.push hvs hx)
  | refused hg hsame => exact .refused hg hsame

lemma pop_refines (hi : s.Inv) (hl : ∃ vs, s.view l = some vs ∧ vs ≠ []) :
    s.Refines w g (.pop l) := by
  obtain ⟨ws, hws, hne⟩ := hl
  obtain ⟨a, vs, ha, hs, hview⟩ := list_of_view hi (by rw [hws]; simp)
  obtain rfl := Option.some.inj (hws.symm.trans hview)
  rw [← List.dropLast_append_getLast hne] at hs hview
  obtain ⟨a', hpop, hb⟩ := pop_becomes hs
  refine .of_becomes hi (owns_of_list ha) ?_ hb (.done (.pop hview))
  rw [step, ha, Option.bind_eq_bind, Option.bind_some, hpop]
  rfl

lemma clear_refines (hi : s.Inv) (hl : s.view l ≠ none) : s.Refines w g (.clear l) := by
  obtain ⟨a, vs, ha, hs, -⟩ := list_of_view hi hl
  have hnone := hs.shrink (Nat.zero_le _)
  rw [List.take_zero] at hnone
  refine .of_becomes hi (owns_of_list ha) ?_ (.sized hnone) (.done .clear)
  rw [step, ha]
  rfl

lemma reserve_refines (hw : 0 < w) (hi : s.Inv) (hl : s.view l ≠ none)
    (hsafe : s.Safe w g (.reserve l n)) : s.Refines w g (.reserve l n) := by
  obtain ⟨a, vs, ha, hs, hview⟩ := list_of_view hi hl
  obtain ⟨a', h', hreserve, hb⟩ := reserve_becomes hw hs hi.fresh (hsafe a ha)
  have hstep : s.step w g (.reserve l n) = some (true, [], s.set l a' h') := by
    rw [step, ha, Option.bind_eq_bind, Option.bind_some, hreserve]
    rfl
  refine .of_becomes hi (owns_of_list ha) hstep hb (.done ?_)
  rw [← hview, Function.update_eq_self]
  exact .reserve

lemma resize_refines (hw : 0 < w) (hi : s.Inv) (hl : s.view l ≠ none)
    (hsafe : s.Safe w g (.resize l n)) : s.Refines w g (.resize l n) := by
  obtain ⟨a, vs, ha, hs, hview⟩ := list_of_view hi hl
  have hn := hsafe a ha
  have hresize : ∀ r, a.resize w n g s.heap = some r →
      s.step w g (.resize l n) = some (r.1, [], s.set l r.2.1 r.2.2) := by
    intro r hr
    rw [step, ha, Option.bind_eq_bind, Option.bind_some, hr]
    rfl
  by_cases hg : Refused n a g
  · exact .of_same hi ha (hresize _ (resize_refused hn hg)) (.refused hg.2.2 rfl)
  · obtain ⟨a', h', vs', hr, hb, hsize, -, hkept, -⟩ := resize_becomes hw hs hi.fresh hn hg
    rw [← hs.length] at hkept
    exact .of_becomes hi (owns_of_list ha) (hresize _ hr) hb
      (.done (.resize hview (hb.stored.length.trans hsize) hkept))

lemma appendBytes_refines (hw : 0 < w) (hi : s.Inv) {data : Arg α} (hl : s.view l ≠ none)
    (hdata : data.Valid s.view) (hsafe : s.Safe w g (.appendBytes l data)) :
    s.Refines w g (.appendBytes l data) := by
  obtain ⟨a, vs, ha, hs, hview⟩ := list_of_view hi hl
  obtain ⟨src, bs, hsource, hget, hbs, -⟩ := source_of_valid hi hdata
  obtain ⟨hword, hn, haway⟩ := hsafe a src ha hsource
  have happend : ∀ r, a.appendBytes w src g s.heap = some r →
      s.step w g (.appendBytes l data) = some (r.1, [], s.set l r.2.1 r.2.2) := by
    intro r hr
    simp only [step, ha, hsource, hr, Option.bind_eq_bind, Option.bind_some]
    rfl
  by_cases hg : Refused (a.size + src.len) a g
  · exact .of_same hi ha (happend _ (appendBytes_refused hword hn hg)) (.refused hg.2.2 rfl)
  · obtain ⟨a', h', hr, hb⟩ := appendBytes_becomes hw hs hi.fresh hget hword hn hg haway
    exact .of_becomes hi (owns_of_list ha) (happend _ hr) hb (.done (.appendBytes hview hbs))

/-- The storage of a list is released, and nothing else. -/
lemma destroy_refines (hi : s.Inv) (hl : s.view l ≠ none) : s.Refines w g (.destroy l) := by
  obtain ⟨a, vs, ha, hs, -⟩ := list_of_view hi hl
  have hown := owns_of_list ha
  have hremove : ∀ h', a.destroy s.heap = some h' → h'.Fresh →
      (∀ p, a.data ≠ some p → h'.block p = s.heap.block p) →
      Ledger.Owned h'.live (Function.update s.owns l []) → s.Refines w g (.destroy l) := by
    intro h' hdestroy hf hsame ho
    obtain ⟨hinv, hview⟩ := hi.remove hown hf hsame ho
    refine ⟨true, [], _, ?_, hinv, .done ?_⟩
    · rw [step, ha, Option.bind_eq_bind, Option.bind_some, hdestroy]
      rfl
    · rw [hview]
      exact .destroy
  rcases hs.cases with ⟨rfl, rfl⟩ | ⟨p, xs, hdata, hp, hlen, -, hpos, -⟩
  · have hnone : s.owns l = [] := hown
    refine hremove s.heap rfl hi.fresh (fun _ _ => rfl) ?_
    rw [← hnone, Function.update_eq_self]
    exact hi.owned
  · refine hremove { s.heap with block := Function.update s.heap.block p none } ?_ ?_ ?_ ?_
    · rw [ArrayList.destroy, if_pos (by omega), hdata, BlockHeap.free_block hp]
    · exact hi.fresh.release
    · intro q hq
      refine Function.update_of_ne ?_ ..
      rintro rfl
      exact hq hdata
    · exact BlockHeap.owned_free hi.owned (by rw [hown, hdata]; rfl)

/-- **One call** that meets its condition. -/
lemma step_refines (hw : 0 < w) (hi : s.Inv) {op : Op α} (hl : Legal s.view op)
    (hsafe : s.Safe w g op) : s.Refines w g op := by
  cases op with
  | new l => exact new_refines hi hl
  | copy l l' => exact copy_refines hw hi hl.1 hl.2 hsafe
  | construct l data => exact construct_refines hw hi hl.1 hl.2 hsafe
  | assign l l' => exact assign_refines hw hi hl.1 hl.2 hsafe
  | append l x => exact append_refines hw hi hl.1 hl.2.1 hl.2.2 hsafe
  | push l x => exact push_refines (append_refines hw hi hl.1 hl.2.1 hl.2.2 hsafe)
  | pop l => exact pop_refines hi hl
  | clear l => exact clear_refines hi hl
  | reserve l n => exact reserve_refines hw hi hl hsafe
  | resize l n => exact resize_refines hw hi hl hsafe
  | appendBytes l data => exact appendBytes_refines hw hi hl.1 hl.2 hsafe
  | destroy l => exact destroy_refines hi hl

end Refinement

/-! ### Runs -/

/-- The states of a program that begins without lists, and whose calls meet the condition. -/
inductive Reached (w : ℕ) (P : Supply α → Lists α → Op α → Prop) : Lists α → Prop
  | empty : Reached w P .empty
  | step {s s' : Lists α} {op : Op α} {g : Supply α} {ok : Bool} {out : List α}
      (hr : Reached w P s) (hl : Legal s.view op) (hsafe : P g s op)
      (hstep : s.step w g op = some (ok, out, s')) : Reached w P s'

lemma Reached.inv {w : ℕ} {s : Lists α} (hw : 0 < w) (hr : Reached w (Safe w) s) : s.Inv := by
  induction hr with
  | empty => exact .empty
  | step hr hl hsafe hstep ih =>
      obtain ⟨ok, out, s', hstep', hinv, -⟩ := step_refines hw ih hl hsafe
      rw [hstep] at hstep'
      obtain ⟨-, -, rfl⟩ : _ ∧ _ ∧ _ := by simpa using hstep'
      exact hinv

/-- **The lists are finite sequences**, in every run whose calls meet their conditions: the
elements are in storage of the list's capacity, the live storage is that of the lists, of each
its own, and a call finds no fault and does what it does to sequences, or there was no memory. -/
theorem arrayList_refines {w : ℕ} {s : Lists α} (hw : 0 < w) (hr : Reached w (Safe w) s) :
    (∀ l a, s.list l = some a → a.size ≤ a.capacity ∧
      ∃ vs, s.view l = some vs ∧ vs.length = a.size ∧ Stored s.heap a vs) ∧
    Ledger.Owned s.heap.live s.owns ∧
    ∀ op g, Legal s.view op → s.Safe w g op → ∃ ok out s', s.step w g op = some (ok, out, s') ∧
      Reached w (Safe w) s' ∧ Outcome g op s.view s'.view out ok := by
  have hi := hr.inv hw
  refine ⟨fun l a ha => ?_, hi.owned, fun op g hl hsafe => ?_⟩
  · obtain ⟨vs, hs⟩ := hi.stored l a ha
    exact ⟨hs.size_le, vs, view_of_stored ha hs, hs.length, hs⟩
  · obtain ⟨ok, out, s', hstep, -, ho⟩ := step_refines hw hi hl hsafe
    exact ⟨ok, out, s', hstep, hr.step hl hsafe hstep, ho⟩

/-- A list that two values have filled grows by a third one, and is assigned to a new list. -/
theorem arrayList_refines_grown : ∃ s : Lists ℕ, Reached 1 (Safe 1) s ∧
    s.view 0 = some [7, 8, 9] ∧ s.view 1 = some [7, 8, 9] := by
  set g : Supply ℕ := some fun _ => 0 with hgiven
  have hfits : RequestFits 1 2 ∧ RequestFits 1 3 := by norm_num [RequestFits]
  have hroom {size : ℕ} (v : ℕ) (p : Option ℕ) (hlt : size < 2) :
      CanAppend 1 (.values [v]) ⟨size, 2, p⟩ g := fun hfull _ => absurd hfull hlt.ne
  have happend {s : Lists ℕ} {v : ℕ} {a : ArrayList} (hlist : s.list 0 = some a)
      (hc : CanAppend 1 (.values [v]) a g) : Safe 1 g s (.append 0 (.values [v])) := by
    intro b x hb hx
    obtain rfl := Option.some.inj (hlist.symm.trans hb)
    obtain rfl := Option.some.inj hx
    exact hc
  have call {s s' : Lists ℕ} (op : Op ℕ) (hr : Reached 1 (Safe 1) s) (hl : Legal s.view op)
      (hsafe : Safe 1 g s op) (hstep : s.step 1 g op = some (true, [], s')) :
      Reached 1 (Safe 1) s' := .step hr hl hsafe hstep
  obtain ⟨s, hr, h0, h1, hlist0, hlist1⟩ : ∃ s : Lists ℕ, Reached 1 (Safe 1) s ∧
      s.view 0 = some [7, 8, 9] ∧ s.view 1 = some [] ∧
      s.list 0 = some ⟨3, 3, some 1⟩ ∧ s.list 1 = some .new := by
    have hr₁ : Reached 1 (Safe 1) _ := call (.new 0) .empty rfl trivial rfl
    have hr₂ : Reached 1 (Safe 1) _ := call (.reserve 0 2) hr₁ (Option.some_ne_none _)
      (fun _ _ _ _ => hfits.1) rfl
    have hr₃ : Reached 1 (Safe 1) _ := call (.append 0 (.values [7])) hr₂
      ⟨Option.some_ne_none _, trivial, rfl⟩ (happend rfl (hroom 7 _ (by decide))) rfl
    have hr₄ : Reached 1 (Safe 1) _ := call (.append 0 (.values [8])) hr₃
      ⟨Option.some_ne_none _, trivial, rfl⟩ (happend rfl (hroom 8 _ (by decide))) rfl
    -- the storage of two values is replaced by one of three
    have hr₅ : Reached 1 (Safe 1) _ := call (.append 0 (.values [9])) hr₄
      ⟨Option.some_ne_none _, trivial, rfl⟩ (happend rfl fun _ _ => ⟨by decide, hfits.2, id⟩) rfl
    have hr₆ : Reached 1 (Safe 1) _ := call (.new 1) hr₅ rfl trivial rfl
    exact ⟨_, hr₆, rfl, rfl, rfl, rfl⟩
  have hthere : Legal s.view (.assign 1 0) := by simp [Legal, h0, h1]
  have hsafe : Safe 1 g s (.assign 1 0) := by
    refine fun _ => ⟨fun a ha => ?_, fun other hother => ?_⟩
    · obtain rfl := Option.some.inj (hlist1.symm.trans ha)
      rfl
    · obtain rfl := Option.some.inj (hlist0.symm.trans hother)
      exact fun _ => .inr ⟨by decide, hfits.2⟩
  obtain ⟨ok, out, s', -, hr', ho⟩ := (arrayList_refines Nat.one_pos hr).2.2 _ _ hthere hsafe
  refine ⟨s', hr', ?_⟩
  generalize s'.view = σ at ho ⊢
  cases ho with
  | refused hg =>
      rw [hgiven] at hg
      cases hg
  | done hd =>
      cases hd with
      | assign hvs =>
          obtain rfl := Option.some.inj (h0.symm.trans hvs)
          exact ⟨h0, rfl⟩

/-- **A size below the capacity cannot be had**: after `reserve` for sixteen values, `resize` to
five fails, with all the memory there is. -/
theorem arrayList_not_refines : ¬ ∀ s : Lists ℕ, Reached 1 (fun _ _ _ => True) s →
    ∀ op g, Legal s.view op → ∃ ok out s', s.step 1 g op = some (ok, out, s') ∧
      Outcome g op s.view s'.view out ok := by
  intro h
  set s : Lists ℕ := Lists.set .empty 0 .new .empty
  set heap : BlockHeap ℕ := .alloc .empty ((List.range (room 1 16)).map fun _ => 0)
  set s' : Lists ℕ := s.set 0 ⟨0, 16, some 0⟩ heap
  have hnew : empty.step 1 none (.new 0) = some (true, [], s) := rfl
  have hreserve : s.step 1 (some fun _ => 0) (.reserve 0 16) = some (true, [], s') := rfl
  have hlegal : Legal (empty : Lists ℕ).view (.new 0) := rfl
  have hview : s.view 0 = some [] := rfl
  have hthere : Legal s.view (.reserve 0 16) := by simp [Legal, hview]
  have hview' : s'.view 0 = some [] := rfl
  have hthere' : Legal s'.view (.resize 0 5) := by simp [Legal, hview']
  have hr : Reached 1 (fun _ _ _ => True) s' :=
    .step (.step .empty hlegal trivial hnew) hthere trivial hreserve
  obtain ⟨ok, out, s'', hstep, ho⟩ := h s' hr (.resize 0 5) (some fun _ => 0) hthere'
  have hshort : s'.step 1 (some fun _ => 0) (.resize 0 5) =
      some (false, [], s'.set 0 ⟨16, 16, some 0⟩ heap) := rfl
  rw [hshort] at hstep
  obtain ⟨rfl, -⟩ := Prod.mk.inj (Option.some.inj hstep)
  cases ho with
  | refused hg => cases hg

end Lists

end Adl
