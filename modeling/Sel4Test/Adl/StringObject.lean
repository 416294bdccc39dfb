import Mathlib.Tactic
import Sel4Test.Adl.ArrayList

/-!
Strings in memory, the fields `content` and `len` of `adl/TString.cc`.

A content is a block of the heap with the characters and a NUL behind them. A C string is a
pointer into a block, or null. Characters are of any type with a zero. Memory is taken to
suffice; what the allocator has no answer to, and what is read or written outside of live
storage, is a fault, `none`.

* `StringObject.Holds`, `CString.Holds`: the characters of a string and of a C string.
* `strlen_eq`: `strlen` of a C string.
* `ofCString_made`, `copy_made`: the constructors.
-/

namespace Adl

variable {α : Type}

/-- `content` and `len`. -/
structure StringObject where
  content : Option ℕ
  len : ℕ
deriving DecidableEq, Repr

/-- A pointer to characters: a block and an offset, or null. -/
structure CString where
  base : Option ℕ
  offset : ℕ
deriving DecidableEq, Repr

/-- The null pointer. -/
def CString.null : CString := ⟨none, 0⟩

/-- `c_str()`. -/
def StringObject.cStr (a : StringObject) : CString := ⟨a.content, 0⟩

namespace CString

/-- `p[i]`. -/
def charAt (h : BlockHeap α) (p : CString) (i : ℕ) : Option α :=
  (h.read p.base (p.offset + i) 1).bind List.head?

variable [Zero α] [DecidableEq α]

/-- `strlen`. -/
def strlen (h : BlockHeap α) (p : CString) : Option ℕ := do
  let b ← p.base
  let xs ← h.block b
  if 0 ∈ xs.drop p.offset then some ((xs.drop p.offset).idxOf 0) else none

/-- `str == nullptr ? 0 : strlen(str)`. -/
def lengthOf (h : BlockHeap α) (p : CString) : Option ℕ :=
  if p = null then some 0 else p.strlen h

/-- `str == nullptr || str[0] == '\0'`. -/
def isEmpty (h : BlockHeap α) (p : CString) : Option Bool :=
  if p = null then some true else (p.charAt h 0).map fun c => c = 0

omit [DecidableEq α] in
/-- The characters of a C string: no NUL is among them, and one follows. -/
inductive Holds (h : BlockHeap α) : CString → List α → Prop
  | null : Holds h .null []
  | block {b i : ℕ} {xs cs rest : List α} (hb : h.block b = some xs)
      (hdrop : xs.drop i = cs ++ 0 :: rest) (hcs : 0 ∉ cs) : Holds h ⟨some b, i⟩ cs

/-- The characters from `i` on are `cs`. -/
def Reads (h : BlockHeap α) (p : CString) : ℕ → List α → Prop
  | _, [] => True
  | i, c :: cs => p.charAt h i = some c ∧ Reads h p (i + 1) cs

section Reading

variable {h : BlockHeap α} {p : CString} {b i k : ℕ} {xs cs rest : List α} {c : α}

omit [Zero α] [DecidableEq α] in
lemma charAt_block (hb : h.block b = some xs) (hdrop : xs.drop (i + k) = c :: rest) :
    charAt h ⟨some b, i⟩ k = some c := by
  have hlt : i + k + 1 ≤ xs.length := by
    have hlen := congrArg List.length hdrop
    rw [List.length_drop, List.length_cons] at hlen
    omega
  rw [charAt, BlockHeap.read_block hb hlt, hdrop, List.take_succ_cons, Option.bind_some,
    List.head?_cons]

omit [Zero α] [DecidableEq α] in
lemma reads_block (hb : h.block b = some xs) (hdrop : xs.drop (i + k) = cs ++ rest) :
    Reads h ⟨some b, i⟩ k cs := by
  induction cs generalizing k with
  | nil => trivial
  | cons c cs ih =>
      refine ⟨charAt_block hb hdrop, ih ?_⟩
      rw [← Nat.add_assoc, ← List.drop_drop, hdrop, List.cons_append, List.drop_succ_cons,
        List.drop_zero]

omit [DecidableEq α] in
lemma Holds.reads (hp : p.Holds h cs) : p.Reads h 0 cs := by
  cases hp with
  | null => trivial
  | block hb hdrop hcs => exact reads_block hb hdrop

lemma Holds.strlen (hp : p.Holds h cs) (hne : p ≠ .null) : p.strlen h = some cs.length := by
  cases hp with
  | null => exact absurd rfl hne
  | @block b i xs cs rest hb hdrop hcs =>
      have hidx : (cs ++ 0 :: rest).idxOf 0 = cs.length := by
        rw [List.idxOf_append_of_notMem hcs, List.idxOf_cons_self, Nat.add_zero]
      simp only [CString.strlen, hb, hdrop, hidx, Option.bind_eq_bind, Option.bind_some]
      rw [if_pos (by simp)]

lemma Holds.lengthOf (hp : p.Holds h cs) : p.lengthOf h = some cs.length := by
  rw [CString.lengthOf]
  by_cases hnull : p = .null
  · subst hnull
    cases hp
    rfl
  · rw [if_neg hnull, hp.strlen hnull]

/-- A C string is empty if it begins with NUL. -/
lemma Holds.isEmpty (hp : p.Holds h cs) : p.isEmpty h = some (decide (cs = [])) := by
  rw [CString.isEmpty]
  cases hp with
  | null => rfl
  | @block b i xs cs rest hb hdrop hcs =>
      have hne : (⟨some b, i⟩ : CString) ≠ .null := by simp [CString.null]
      rw [if_neg hne]
      cases cs with
      | nil =>
          rw [charAt_block hb (k := 0) hdrop, Option.map_some]
          simp
      | cons c cs =>
          have hc : c ≠ 0 := by
            rintro rfl
            exact hcs List.mem_cons_self
          rw [charAt_block hb (k := 0) hdrop, Option.map_some, decide_eq_false hc]
          simp

omit [DecidableEq α] in
/-- The characters, without the NUL. -/
lemma Holds.read_chars (hp : p.Holds h cs) : h.read p.base p.offset cs.length = some cs := by
  cases hp with
  | null => exact BlockHeap.read_zero
  | @block b i xs cs rest hb hdrop hcs =>
      have hlen := congrArg List.length hdrop
      rw [List.length_drop, List.length_append] at hlen
      dsimp only
      rw [BlockHeap.read_block hb (by rw [List.length_cons] at hlen; omega), hdrop, List.take_left]

omit [DecidableEq α] in
/-- The characters and the NUL behind them. -/
lemma Holds.read (hp : p.Holds h cs) (hne : p ≠ .null) :
    h.read p.base p.offset (cs.length + 1) = some (cs ++ [0]) := by
  cases hp with
  | null => exact absurd rfl hne
  | @block b i xs cs rest hb hdrop hcs =>
      have hlen := congrArg List.length hdrop
      rw [List.length_drop, List.length_append, List.length_cons] at hlen
      dsimp only
      rw [BlockHeap.read_block hb (by omega), hdrop, List.take_append, List.take_of_length_le
        (Nat.le_succ _), Nat.add_sub_cancel_left, List.take_succ_cons, List.take_zero]

omit [DecidableEq α] in
/-- A C string is where it was when another block has come in. -/
lemma Holds.moved (hp : p.Holds h cs) (hf : h.Fresh) : p.Holds (h.moved none xs) cs := by
  cases hp with
  | null => exact .null
  | block hb hdrop hcs =>
      refine .block ((BlockHeap.block_moved_of_ne ?_ (by simp)).trans hb) hdrop hcs
      rintro rfl
      rw [hf _ le_rfl] at hb
      cases hb

end Reading

end CString

/-! ### Making strings -/

/-- `alloc<char>`: a block, where the request is not for nothing. -/
def allocate (count : ℕ) (found : ℕ → α) (h : BlockHeap α) : Option (ℕ × BlockHeap α) :=
  if count = 0 then none
  else some (h.next, h.alloc ((List.range (room 1 count)).map found))

namespace StringObject

/-- The characters of a string: its content is they and a NUL. -/
inductive Holds [Zero α] (h : BlockHeap α) : StringObject → List α → Prop
  | empty : Holds h ⟨none, 0⟩ []
  | block {p : ℕ} {cs : List α} (hp : h.block p = some (cs ++ [0])) :
      Holds h ⟨some p, cs.length⟩ cs

variable [Zero α] [DecidableEq α]

/-- `strcpy` to a new content. -/
def strcpy (dest : ℕ) (src : CString) (h : BlockHeap α) : Option (BlockHeap α) := do
  let n ← src.strlen h
  let bytes ← h.read src.base src.offset (n + 1)
  h.write (some dest) 0 bytes

/-- `TString(const char* str)`. -/
def ofCString (str : CString) (found : ℕ → α) (h : BlockHeap α) :
    Option (StringObject × BlockHeap α) := do
  let empty ← str.isEmpty h
  if empty then return (⟨none, 0⟩, h)
  else
    let len ← str.strlen h
    let r ← allocate ((len + 1) % 2 ^ 64) found h
    let h ← strcpy r.1 str r.2
    return (⟨some r.1, len⟩, h)

/-- `TString(const TString& str)`. -/
def copy (str : StringObject) (found : ℕ → α) (h : BlockHeap α) :
    Option (StringObject × BlockHeap α) :=
  if str.len = 0 then some (⟨none, 0⟩, h)
  else do
    let r ← allocate ((str.len + 1) % 2 ^ 64) found h
    let h ← strcpy r.1 str.cStr r.2
    return (⟨some r.1, str.len⟩, h)

section Objects

variable {h h' : BlockHeap α} {a d : StringObject} {cs : List α} {found : ℕ → α} {n : ℕ}
  {p : CString}

omit [DecidableEq α] in
lemma Holds.length (ha : a.Holds h cs) : cs.length = a.len := by
  cases ha with
  | empty => rfl
  | block hp => rfl

omit [DecidableEq α] in
/-- A string without a content has no characters. -/
lemma Holds.eq_nil (ha : a.Holds h cs) (hnone : a.content = none) : cs = [] := by
  cases ha with
  | empty => rfl
  | block hp => cases hnone

omit [DecidableEq α] in
lemma Holds.reads (ha : a.Holds h cs) : a.cStr.Reads h 0 cs := by
  cases ha with
  | empty => trivial
  | block hp => exact CString.reads_block hp rfl

omit [DecidableEq α] in
/-- A range of the characters. -/
lemma Holds.read_range (ha : a.Holds h cs) {i : ℕ} (hle : i + n ≤ cs.length) :
    h.read a.content i n = some ((cs.drop i).take n) := by
  cases ha with
  | empty =>
      have hlen : i + n ≤ 0 := hle
      obtain rfl : n = 0 := by omega
      rw [BlockHeap.read_zero, List.take_zero]
  | block hp =>
      have hroom : i + n ≤ (cs ++ [(0 : α)]).length := by
        rw [List.length_append]
        omega
      rw [BlockHeap.read_block hp hroom, List.drop_append_of_le_length (by omega),
        List.take_append_of_le_length (by rw [List.length_drop]; omega)]

omit [DecidableEq α] in
lemma Holds.read (ha : a.Holds h cs) : h.read a.content 0 a.len = some cs := by
  rw [← ha.length, ha.read_range (by omega), List.drop_zero, List.take_length]

omit [DecidableEq α] in
/-- What `c_str()` points to, if there is no NUL among the characters. -/
lemma Holds.cStr (ha : a.Holds h cs) (hcs : 0 ∉ cs) : a.cStr.Holds h cs := by
  cases ha with
  | empty => exact .null
  | @block p cs hp =>
      have hdrop : (cs ++ [(0 : α)]).drop 0 = cs ++ 0 :: [] := rfl
      exact .block hp hdrop hcs

omit [DecidableEq α] in
/-- A string is in the heap as long as its content is. -/
lemma Holds.congr (ha : a.Holds h cs) (hsame : ∀ p, a.content = some p → h'.block p = h.block p) :
    a.Holds h' cs := by
  cases ha with
  | empty => exact .empty
  | block hp => exact .block ((hsame _ rfl).trans hp)

omit [DecidableEq α] in
lemma Holds.ne_next (ha : a.Holds h cs) (hf : h.Fresh) : a.content ≠ some h.next := by
  cases ha with
  | empty => simp
  | block hp =>
      intro hnext
      rw [Option.some.inj hnext, hf _ le_rfl] at hp
      cases hp

/-- What a constructor leaves: the characters, in a content of their own if there is one, and
the other blocks as they were. -/
structure Made (h : BlockHeap α) (cs : List α) (d : StringObject) (h' : BlockHeap α) : Prop where
  holds : d.Holds h' cs
  content : d.content = none ∨ d.content = some h.next
  frame : ∀ b, b ≠ h.next → h'.block b = h.block b

omit [Zero α] [DecidableEq α] in
lemma allocate_eq {r : ℕ × BlockHeap α} (hr : allocate n found h = some r) :
    ∃ junk : List α, junk.length = room 1 n ∧ r = (h.next, h.moved none junk) := by
  rw [allocate] at hr
  split_ifs at hr
  refine ⟨(List.range (room 1 n)).map found, by simp, ?_⟩
  rw [← BlockHeap.alloc_eq_moved]
  exact (Option.some.inj hr).symm

omit [Zero α] [DecidableEq α] in
/-- A new block that takes everything that is written has been filled. -/
lemma fill_eq {junk bytes : List α} (hne : bytes ≠ []) (hlen : junk.length ≤ bytes.length)
    (hw : (h.moved none junk).write (some h.next) 0 bytes = some h') :
    h' = h.moved none bytes := by
  by_cases hle : bytes.length ≤ junk.length
  · rw [BlockHeap.moved_write_zero hle, List.drop_eq_nil_of_le hlen, List.append_nil] at hw
    exact (Option.some.inj hw).symm
  · rw [BlockHeap.write, if_neg hne] at hw
    simp only [Option.bind_eq_bind, Option.bind_some, BlockHeap.block_moved_next] at hw
    rw [if_neg (by omega)] at hw
    cases hw

/-- The characters of a C string, copied to a content of their number. -/
lemma strcpy_eq {r : ℕ × BlockHeap α} (hf : h.Fresh) (hp : p.Holds h cs) (hne : p ≠ .null)
    (hr : allocate ((cs.length + 1) % 2 ^ 64) found h = some r)
    (hcopy : strcpy r.1 p r.2 = some h') : r.1 = h.next ∧ h' = h.moved none (cs ++ [0]) := by
  obtain ⟨junk, hjunk, rfl⟩ := allocate_eq hr
  have hp' : p.Holds (h.moved none junk) cs := hp.moved hf
  rw [strcpy] at hcopy
  simp only [hp'.strlen hne, hp'.read hne, Option.bind_eq_bind, Option.bind_some] at hcopy
  refine ⟨rfl, fill_eq (by simp) ?_ hcopy⟩
  rw [hjunk, room, List.length_append, List.length_singleton]
  omega

omit [DecidableEq α] in
lemma made_moved : Made h cs ⟨some h.next, cs.length⟩ (h.moved none (cs ++ [0])) :=
  ⟨.block BlockHeap.block_moved_next, .inr rfl,
    fun _ hb => BlockHeap.block_moved_of_ne hb (by simp)⟩

/-- **`TString(const char* str)`** has the characters of the C string. -/
lemma ofCString_made (hf : h.Fresh) (hp : p.Holds h cs)
    (hd : ofCString p found h = some (d, h')) :
    Made h cs d h' ∧ (d.content = none ↔ cs = []) := by
  rw [ofCString, hp.isEmpty] at hd
  by_cases hnil : cs = []
  · subst hnil
    obtain ⟨rfl, rfl⟩ : (⟨none, 0⟩ : StringObject) = d ∧ h = h' := by simpa using hd
    exact ⟨⟨.empty, .inl rfl, fun _ _ => rfl⟩, by simp⟩
  · have hne : p ≠ .null := by
      rintro rfl
      cases hp
      exact hnil rfl
    simp only [Option.bind_eq_bind, Option.bind_some, decide_eq_true_eq, if_neg hnil,
      hp.strlen hne] at hd
    obtain ⟨r, hr, hrest⟩ := Option.bind_eq_some_iff.mp hd
    obtain ⟨k, hcopy, hresult⟩ := Option.bind_eq_some_iff.mp hrest
    obtain ⟨hnext, rfl⟩ := strcpy_eq hf hp hne hr hcopy
    rw [hnext] at hresult
    obtain ⟨rfl, rfl⟩ : _ ∧ _ := by simpa using hresult
    exact ⟨made_moved, by simp [hnil]⟩

/-- **`TString(const TString& str)`** has the characters of the other string. -/
lemma copy_made (hf : h.Fresh) (ha : a.Holds h cs) (hcs : 0 ∉ cs)
    (hd : a.copy found h = some (d, h')) : Made h cs d h' ∧ (d.content = none ↔ cs = []) := by
  have hlen := ha.length
  rw [copy] at hd
  by_cases hzero : a.len = 0
  · rw [if_pos hzero] at hd
    obtain rfl : cs = [] := List.length_eq_zero_iff.mp (hlen.trans hzero)
    obtain ⟨rfl, rfl⟩ : (⟨none, 0⟩ : StringObject) = d ∧ h = h' := by simpa using hd
    exact ⟨⟨.empty, .inl rfl, fun _ _ => rfl⟩, by simp⟩
  · have hne : a.cStr ≠ .null := by
      intro hnull
      rw [ha.eq_nil (congrArg CString.base hnull)] at hlen
      exact hzero hlen.symm
    rw [if_neg hzero, ← hlen] at hd
    obtain ⟨r, hr, hrest⟩ := Option.bind_eq_some_iff.mp hd
    obtain ⟨k, hcopy, hresult⟩ := Option.bind_eq_some_iff.mp hrest
    obtain ⟨hnext, rfl⟩ := strcpy_eq hf (ha.cStr hcs) hne hr hcopy
    rw [hnext] at hresult
    obtain ⟨rfl, rfl⟩ : _ ∧ _ := by simpa using hresult
    refine ⟨made_moved, ?_⟩
    simp only [reduceCtorEq, false_iff]
    rintro rfl
    exact hzero hlen.symm

omit [Zero α] [DecidableEq α] in
lemma allocate_fits (h : BlockHeap α) (found : ℕ → α) (hn : n ≠ 0) (hfits : RequestFits 1 n) :
    ∃ junk : List α, junk.length = n ∧ allocate n found h = some (h.next, h.moved none junk) := by
  refine ⟨(List.range (room 1 n)).map found, ?_, ?_⟩
  · rw [List.length_map, List.length_range, room_of_fits Nat.one_pos hfits]
  · rw [allocate, if_neg hn, BlockHeap.alloc_eq_moved]

end Objects

end StringObject

end Adl
