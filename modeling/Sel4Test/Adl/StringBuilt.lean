import Sel4Test.Adl.StringOps
import Sel4Test.Adl.StringOrder

/-!
Strings, however `adl/TString.cc` has built them, and their order.

A string is new, or what an operation makes of strings that have been built before; what is
between two operations leaves the content of a string alone. `-=` and `*=` are an operation and an
assignment, `+` of a character is that of a C string, and so is `to_string`. A local object that
is returned where another path returns `*this` is copied, and then destroyed.

* `Operation.run`: the operations, in the memory that they find.
* `Valid`: an empty string has no content, and the content of any other string has one place
  more than its length.
* `run_valid`, `Built.valid`: one operation, and any number of them.
* `own_iff`: where the content of a string is a C string with the same characters.
* `tString_order`: the strings are totally ordered by their characters.
-/

namespace Adl

namespace StringObject

variable {α : Type}

/-! ### The other operations -/

section Operations

/-- `freeUp`: also `clear`, and the destructor. -/
def freeUp (a : StringObject) (h : BlockHeap α) : Option (StringObject × BlockHeap α) :=
  if a.content = none then some (a, h) else (h.free a.content).map fun h => (⟨none, 0⟩, h)

/-- `s[i] = c`. -/
def put (i : ℕ) (c : α) (a : StringObject) (h : BlockHeap α) :
    Option (StringObject × BlockHeap α) :=
  (h.write a.content i [c]).map fun h => (a, h)

/-- The characters of `this`, where there is a content. -/
def ownBytes (a : StringObject) (h : BlockHeap α) : Option (List α) :=
  if a.content = none then some [] else h.read a.content 0 a.len

variable [Zero α] [DecidableEq α]

/-- `operator =`. -/
def assign (str : Operand) (found : ℕ → α) (a : StringObject) (h : BlockHeap α) :
    Option (StringObject × BlockHeap α) :=
  match str with
  | .self => some (a, h)
  | .other str => do
      let r ← freeUp a h
      if str.len = 0 then return r
      else
        let q ← allocate ((str.len + 1) % 2 ^ 64) found r.2
        let h ← strcpy q.1 str.cStr q.2
        return (⟨some q.1, str.len⟩, h)

/-- `operator =` of a C string. -/
def assignC (str : CString) (found : ℕ → α) (a : StringObject) (h : BlockHeap α) :
    Option (StringObject × BlockHeap α) :=
  if str = a.cStr then some (a, h)
  else do
    let r ← freeUp a h
    let empty ← str.isEmpty r.2
    if empty then return r
    else
      let len ← str.strlen r.2
      let q ← allocate ((len + 1) % 2 ^ 64) found r.2
      let h ← strcpy q.1 str q.2
      return (⟨some q.1, len⟩, h)

/-- The part of `operator +` that the versions share: `n` characters and `m` characters behind
them, each read where it is, in a new content. -/
def join (n m : ℕ) (first second : BlockHeap α → Option (List α)) (found : ℕ → α)
    (h : BlockHeap α) : Option (StringObject × BlockHeap α) :=
  let retLen := (n + m) % 2 ^ 64
  if retLen = 0 then some (⟨none, 0⟩, h)
  else do
    let r ← allocate ((retLen + 1) % 2 ^ 64) found h
    let front ← first r.2
    let h ← r.2.write (some r.1) 0 front
    let back ← second h
    let h ← h.write (some r.1) n back
    let h ← h.write (some r.1) retLen [0]
    return (⟨some r.1, retLen⟩, h)

/-- `operator +`. -/
def plus (str : StringObject) (found : ℕ → α) (a : StringObject) (h : BlockHeap α) :
    Option (StringObject × BlockHeap α) :=
  join a.len str.len a.ownBytes str.ownBytes found h

/-- `operator +` of a C string. -/
def plusC (str : CString) (found : ℕ → α) (a : StringObject) (h : BlockHeap α) :
    Option (StringObject × BlockHeap α) := do
  let lengthOfStr ← str.lengthOf h
  join a.len lengthOfStr a.ownBytes (fun h => h.read str.base str.offset lengthOfStr) found h

/-- `operator +` of a C string and a string. -/
def cPlus (strA : CString) (found : ℕ → α) (strB : StringObject) (h : BlockHeap α) :
    Option (StringObject × BlockHeap α) := do
  let lengthOfStrA ← strA.lengthOf h
  join lengthOfStrA strB.len (fun h => h.read strA.base strA.offset lengthOfStrA)
    (fun h => h.read strB.content 0 strB.len) found h

/-- The loop of `operator !`: two characters are exchanged in each of the rounds that are left. -/
def reverseLoop (a : StringObject) : ℕ → ℕ → BlockHeap α → Option (BlockHeap α)
  | 0, _, h => some h
  | rounds + 1, i, h => do
      let c ← a.cStr.charAt h i
      let d ← a.cStr.charAt h (a.len - 1 - i)
      let h ← h.write a.content i [d]
      let h ← h.write a.content (a.len - 1 - i) [c]
      reverseLoop a rounds (i + 1) h

/-- `operator !`. -/
def reverse (found : ℕ → α) (a : StringObject) (h : BlockHeap α) :
    Option (StringObject × BlockHeap α) := do
  let ret ← copy a found h
  if 2 ≤ ret.1.len then
    let h ← reverseLoop ret.1 (ret.1.len / 2) 0 ret.2
    return (ret.1, h)
  else return ret

/-- `strstr`: the first place of `str` from which on it has the characters of `substr`. -/
def strstr (h : BlockHeap α) (str substr : CString) : Option (Option ℕ) := do
  let lenOfSubstr ← substr.strlen h
  let lenOfStr ← str.strlen h
  let key ← h.read substr.base substr.offset lenOfSubstr
  let text ← h.read str.base str.offset lenOfStr
  return (List.range (lenOfStr + 1 - lenOfSubstr)).find? fun i => key.isPrefixOf (text.drop i)

/-- A local object is returned: the result is a copy, and the object is destroyed. -/
def returned (ret : StringObject) (found : ℕ → α) (h : BlockHeap α) :
    Option (StringObject × BlockHeap α) := do
  let r ← copy ret found h
  let k ← freeUp ret r.2
  return (r.1, k.2)

/-- The part of `operator -` that the versions share: what is before the place `i`, and what is
`n` characters behind it. -/
def cutOut (n i : ℕ) (found found' : ℕ → α) (a : StringObject) (h : BlockHeap α) :
    Option (StringObject × BlockHeap α) := do
  let retLen := (a.len + (2 ^ 64 - n)) % 2 ^ 64
  let r ← allocate ((retLen + 1) % 2 ^ 64) found h
  let front ← r.2.read a.content 0 i
  let h ← r.2.write (some r.1) 0 front
  let back ← h.read a.content (i + n) ((a.len + (2 ^ 64 - i) + (2 ^ 64 - n)) % 2 ^ 64)
  let h ← h.write (some r.1) i back
  let h ← h.write (some r.1) retLen [0]
  returned ⟨some r.1, retLen⟩ found' h

/-- `operator -`. -/
def minus (str : StringObject) (found found' : ℕ → α) (a : StringObject) (h : BlockHeap α) :
    Option (StringObject × BlockHeap α) :=
  if str.len = 0 ∨ a.len = 0 then copy a found h
  else do
    match ← strstr h a.cStr str.cStr with
    | none => copy a found h
    | some i =>
        if a.len = str.len then return (⟨none, 0⟩, h) else cutOut str.len i found found' a h

/-- `operator -` of a C string. -/
def minusC (str : CString) (found found' : ℕ → α) (a : StringObject) (h : BlockHeap α) :
    Option (StringObject × BlockHeap α) := do
  let empty ← str.isEmpty h
  if empty = true ∨ a.len = 0 then copy a found h
  else
    let lengthOfStr ← str.strlen h
    match ← strstr h a.cStr str with
    | none => copy a found h
    | some i =>
        if a.len = lengthOfStr then return (⟨none, 0⟩, h)
        else cutOut lengthOfStr i found found' a h

/-- `operator -` of a character: the first one is left out. -/
def minusChar (c : α) (found found' : ℕ → α) (a : StringObject) (h : BlockHeap α) :
    Option (StringObject × BlockHeap α) :=
  if c = 0 ∨ a.len = 0 then copy a found h
  else do
    let cs ← h.read a.content 0 a.len
    if c ∈ cs then cutOut 1 (cs.idxOf c) found found' a h else copy a found h

end Operations

/-! ### Building strings -/

/-- The operations that make a string or change it. -/
inductive Operation (α : Type)
  | ofCString (str : CString)
  | copy
  | clear
  | assign (str : Operand)
  | assignC (str : CString)
  | plus (str : StringObject)
  | plusC (str : CString)
  | cPlus (str : CString)
  | reverse
  | minus (str : StringObject)
  | minusC (str : CString)
  | minusChar (c : α)
  | plusAssign (str : Operand)
  | plusAssignC (str : CString)
  | plusAssignChar (c : α)
  | times (x : ℤ)
  | substr (pos len : UInt64)
  | put (i : ℕ) (c : α)

/-- The other string that an operation reads. -/
def Operation.other : Operation α → Option StringObject
  | assign (.other str) => some str
  | plus str => some str
  | minus str => some str
  | plusAssign (.other str) => some str
  | _ => none

/-- An operation on a string; `found` and `found'` are in the memory that it is granted. -/
def Operation.run [Zero α] [DecidableEq α] (found found' : ℕ → α) (a : StringObject)
    (h : BlockHeap α) : Operation α → Option (StringObject × BlockHeap α)
  | ofCString str => StringObject.ofCString str found h
  | copy => a.copy found h
  | clear => a.freeUp h
  | assign str => a.assign str found h
  | assignC str => a.assignC str found h
  | plus str => StringObject.plus str found a h
  | plusC str => a.plusC str found h
  | cPlus str => a.cPlus str found h
  | reverse => a.reverse found h
  | minus str => StringObject.minus str found found' a h
  | minusC str => a.minusC str found found' h
  | minusChar c => a.minusChar c found found' h
  | plusAssign str => a.plusAssign str found h
  | plusAssignC str => a.plusAssignC str found h
  | plusAssignChar c => a.plusAssignChar c found h
  | times x => a.times x found h
  | substr pos len => a.substr pos len found h
  | put i c => a.put i c h

/-- The strings that can be built: the new ones, what an operation makes of such strings, and
what remains of them while the program does something else. -/
inductive Built [Zero α] [DecidableEq α] : BlockHeap α → StringObject → Prop
  | new {h : BlockHeap α} : Built h ⟨none, 0⟩
  | run {h h' : BlockHeap α} {a d : StringObject} {found found' : ℕ → α} {op : Operation α}
      (hf : h.Fresh) (ha : Built h a) (hother : ∀ b, op.other = some b → Built h b)
      (hrun : op.run found found' a h = some (d, h')) : Built h' d
  | elsewhere {h h' : BlockHeap α} {a : StringObject} (ha : Built h a)
      (hsame : ∀ p, a.content = some p → h'.block p = h.block p) : Built h' a

/-- What is true of every string: there is no content without characters, and a content has one
place more than the length. -/
inductive Valid (h : BlockHeap α) : StringObject → Prop
  | empty : Valid h ⟨none, 0⟩
  | block {p n : ℕ} (hp : h.live p = some (n + 1)) (hn : n ≠ 0) (hfits : RequestFits 1 (n + 1)) :
      Valid h ⟨some p, n⟩

/-! ### One operation -/

section Step

variable {h h' k : BlockHeap α} {a b d : StringObject} {found found' : ℕ → α} {n m i : ℕ}
  {r : ℕ × BlockHeap α}

lemma Valid.congr (ha : Valid h a) (hsame : ∀ p, a.content = some p → h'.live p = h.live p) :
    Valid h' a := by
  cases ha with
  | empty => exact .empty
  | block hp hn hfits => exact .block ((hsame _ rfl).trans hp) hn hfits

/-- The new block, with its size; the others are as they were. -/
lemma live_of_allocate (hr : allocate n found h = some r) :
    r.1 = h.next ∧ r.2.next = h.next + 1 ∧ r.2.live h.next = some (room 1 n) ∧
      ∀ q, q ≠ h.next → r.2.block q = h.block q := by
  obtain ⟨junk, hjunk, rfl⟩ := allocate_eq hr
  refine ⟨rfl, rfl, ?_, fun q hq => BlockHeap.block_moved_of_ne hq (by simp)⟩
  rw [BlockHeap.live, BlockHeap.block_moved_next, Option.map_some, hjunk]

/-- A content that was granted is there for a string of its length. -/
lemma valid_of_live (hn : n ≠ 0) (hfits : RequestFits 1 (n + 1))
    (hr : allocate ((n + 1) % 2 ^ 64) found h = some r) (hlive : k.live r.1 = r.2.live r.1) :
    Valid k ⟨some r.1, n⟩ := by
  obtain ⟨hnext, -, hroom, -⟩ := live_of_allocate hr
  have hword : (n + 1) % 2 ^ 64 = n + 1 := by
    rw [RequestFits] at hfits
    exact Nat.mod_eq_of_lt (by omega)
  refine .block ?_ hn hfits
  rw [hlive, hnext, hroom, hword, room_of_fits Nat.one_pos hfits]

/-- What is written to a new block has the room that was granted. -/
lemma room_of_allocate {vs : List α} (hr : allocate n found h = some r)
    (hlive : ∀ m, k.live r.1 = some m → r.2.live r.1 = some m)
    (hwrite : k.write (some r.1) i vs = some h') (hvs : vs ≠ []) :
    k.live r.1 = r.2.live r.1 ∧ i + vs.length ≤ room 1 n := by
  obtain ⟨hnext, -, hroom, -⟩ := live_of_allocate hr
  obtain ⟨m, hm, hle⟩ := BlockHeap.room_of_write hwrite hvs
  have hsame := hlive m hm
  refine ⟨hm.trans hsame.symm, ?_⟩
  rw [hnext, hroom] at hsame
  rwa [Option.some.inj hsame]

/-- A content that takes the last byte was granted for all of them. -/
lemma valid_of_write {vs : List α} (hn : n ≠ 0)
    (hr : allocate ((n + 1) % 2 ^ 64) found h = some r)
    (hlive : ∀ m, k.live r.1 = some m → r.2.live r.1 = some m)
    (hwrite : k.write (some r.1) i vs = some h') (hvs : vs ≠ []) (hlast : i + vs.length = n + 1) :
    Valid h' ⟨some r.1, n⟩ := by
  obtain ⟨hsame, hle⟩ := room_of_allocate hr hlive hwrite hvs
  have hfits : RequestFits 1 (n + 1) := by
    rw [room] at hle
    rw [RequestFits]
    omega
  exact valid_of_live hn hfits hr ((congrFun (BlockHeap.live_of_write hwrite).1 _).trans hsame)

variable [Zero α] [DecidableEq α]

omit [DecidableEq α] in
/-- The NUL at the end. -/
lemma valid_of_nul (hn : n ≠ 0) (hr : allocate ((n + 1) % 2 ^ 64) found h = some r)
    (hlive : ∀ m, k.live r.1 = some m → r.2.live r.1 = some m)
    (hwrite : k.write (some r.1) n [0] = some h') : Valid h' ⟨some r.1, n⟩ :=
  valid_of_write hn hr hlive hwrite (by simp) rfl

/-- What `strcpy` leaves of the blocks. -/
lemma live_of_strcpy {p : ℕ} {str : CString} (hcopy : strcpy p str h = some h') :
    h'.live = h.live ∧ h'.next = h.next := by
  obtain ⟨len, -, hcopy⟩ := Option.bind_eq_some_iff.mp hcopy
  obtain ⟨bytes, -, hwrite⟩ := Option.bind_eq_some_iff.mp hcopy
  exact BlockHeap.live_of_write hwrite

omit [Zero α] [DecidableEq α] in
/-- The content is released, and nothing else. -/
lemma live_of_freeUp (hd : freeUp a h = some (d, h')) :
    h'.next = h.next ∧ ∀ q, h'.live q = if a.content = some q then none else h.live q := by
  rw [freeUp] at hd
  split_ifs at hd with hnone
  · obtain ⟨-, rfl⟩ : _ ∧ h = h' := by simpa using hd
    exact ⟨rfl, fun q => by simp [hnone]⟩
  · obtain ⟨k, hfree, hresult⟩ := Option.map_eq_some_iff.mp hd
    obtain ⟨-, rfl⟩ : _ ∧ k = h' := by simpa using hresult
    exact BlockHeap.live_of_free hfree

omit [Zero α] [DecidableEq α] in
/-- A string that is released is a new one. -/
lemma freeUp_eq (ha : Valid h a) (hd : freeUp a h = some (d, h')) : d = ⟨none, 0⟩ := by
  rw [freeUp] at hd
  cases ha with
  | empty =>
      obtain ⟨rfl, -⟩ : (⟨none, 0⟩ : StringObject) = d ∧ _ := by simpa using hd
      rfl
  | block hp hn hfits =>
      rw [if_neg (by simp)] at hd
      obtain ⟨k, -, hresult⟩ := Option.map_eq_some_iff.mp hd
      obtain ⟨rfl, -⟩ : (⟨none, 0⟩ : StringObject) = d ∧ _ := by simpa using hresult
      rfl

lemma copy_valid (ha : Valid h a) (hd : copy a found h = some (d, h')) : Valid h' d := by
  rw [copy] at hd
  cases ha with
  | empty =>
      obtain ⟨rfl, -⟩ : (⟨none, 0⟩ : StringObject) = d ∧ _ := by simpa using hd
      exact .empty
  | block hp hn hfits =>
      rw [if_neg hn] at hd
      obtain ⟨r, hr, hd⟩ := Option.bind_eq_some_iff.mp hd
      obtain ⟨k, hcopy, hd⟩ := Option.bind_eq_some_iff.mp hd
      obtain ⟨rfl, rfl⟩ : _ ∧ k = h' := by simpa using hd
      exact valid_of_live hn hfits hr (congrFun (live_of_strcpy hcopy).1 _)

/-- A copy has a content of its own. -/
lemma content_of_copy (hd : copy a found h = some (d, h')) :
    d.content = none ∨ d.content = some h.next := by
  rw [copy] at hd
  split_ifs at hd with hzero
  · obtain ⟨rfl, -⟩ : (⟨none, 0⟩ : StringObject) = d ∧ _ := by simpa using hd
    exact .inl rfl
  · obtain ⟨r, hr, hd⟩ := Option.bind_eq_some_iff.mp hd
    obtain ⟨k, -, hd⟩ := Option.bind_eq_some_iff.mp hd
    obtain ⟨rfl, -⟩ : (⟨some r.1, a.len⟩ : StringObject) = d ∧ _ := by simpa using hd
    exact .inr (congrArg some (live_of_allocate hr).1)

/-- A C string that has a length holds its characters. -/
lemma holds_of_strlen {str : CString} (hs : str.strlen h = some n) :
    ∃ cs, str.Holds h cs ∧ cs.length = n := by
  obtain ⟨p, offset⟩ := str
  obtain ⟨b, rfl, hs⟩ := Option.bind_eq_some_iff.mp hs
  obtain ⟨xs, hb, hs⟩ := Option.bind_eq_some_iff.mp hs
  split_ifs at hs with hmem
  obtain ⟨cs, rest, hdrop, hcs⟩ := List.eq_append_cons_of_mem hmem
  refine ⟨cs, .block hb hdrop hcs, ?_⟩
  dsimp only at hs hdrop
  rw [hdrop, List.idxOf_append_of_notMem hcs, List.idxOf_cons_self, Nat.add_zero] at hs
  exact Option.some.inj hs

/-- What a C string with characters leaves in a new content. -/
lemma strcpy_valid {str : CString} (hf : h.Fresh) (hempty : str.isEmpty h ≠ some true)
    (hlen : str.strlen h = some n) (hr : allocate ((n + 1) % 2 ^ 64) found h = some r)
    (hcopy : strcpy r.1 str r.2 = some h') : Valid h' ⟨some r.1, n⟩ := by
  obtain ⟨cs, hcs, rfl⟩ := holds_of_strlen hlen
  have hne : str ≠ .null := by
    rintro rfl
    cases hlen
  have hpos : cs.length ≠ 0 := by
    rw [hcs.isEmpty] at hempty
    simpa using hempty
  obtain ⟨junk, hjunk, rfl⟩ := allocate_eq hr
  have hcs' : str.Holds (h.moved none junk) cs := hcs.moved hf
  rw [strcpy] at hcopy
  simp only [hcs'.strlen hne, hcs'.read hne, Option.bind_eq_bind, Option.bind_some] at hcopy
  exact valid_of_write hpos hr (fun _ h => h) hcopy (by simp) (by simp)

lemma ofCString_valid {str : CString} (hf : h.Fresh)
    (hd : ofCString str found h = some (d, h')) : Valid h' d := by
  obtain ⟨empty, hempty, hd⟩ := Option.bind_eq_some_iff.mp hd
  cases empty with
  | true =>
      obtain ⟨rfl, -⟩ : (⟨none, 0⟩ : StringObject) = d ∧ _ := by simpa using hd
      exact .empty
  | false =>
      obtain ⟨n, hn, hd⟩ := Option.bind_eq_some_iff.mp hd
      obtain ⟨r, hr, hd⟩ := Option.bind_eq_some_iff.mp hd
      obtain ⟨k, hcopy, hd⟩ := Option.bind_eq_some_iff.mp hd
      obtain ⟨rfl, rfl⟩ : _ ∧ k = h' := by simpa using hd
      exact strcpy_valid hf (by simp [hempty]) hn hr hcopy

lemma assign_valid {str : Operand} (ha : Valid h a) (hb : ∀ b, str = .other b → Valid h b)
    (hd : assign str found a h = some (d, h')) : Valid h' d := by
  cases str with
  | self =>
      obtain ⟨rfl, rfl⟩ : a = d ∧ h = h' := by simpa [assign] using hd
      exact ha
  | other b =>
      obtain ⟨⟨q, k⟩, hfree, hd⟩ := Option.bind_eq_some_iff.mp hd
      obtain rfl := freeUp_eq ha hfree
      cases hb b rfl with
      | empty =>
          obtain ⟨rfl, -⟩ : (⟨none, 0⟩ : StringObject) = d ∧ _ := by simpa using hd
          exact .empty
      | block hp hn hfits =>
          rw [if_neg hn] at hd
          obtain ⟨r, hr, hd⟩ := Option.bind_eq_some_iff.mp hd
          obtain ⟨k, hcopy, hd⟩ := Option.bind_eq_some_iff.mp hd
          obtain ⟨rfl, rfl⟩ : _ ∧ k = h' := by simpa using hd
          exact valid_of_live hn hfits hr (congrFun (live_of_strcpy hcopy).1 _)

lemma assignC_valid {str : CString} (hf : h.Fresh) (ha : Valid h a)
    (hd : assignC str found a h = some (d, h')) : Valid h' d := by
  rw [assignC] at hd
  split_ifs at hd with hown
  · obtain ⟨rfl, rfl⟩ : a = d ∧ h = h' := by simpa using hd
    exact ha
  · obtain ⟨⟨q, k⟩, hfree, hd⟩ := Option.bind_eq_some_iff.mp hd
    obtain rfl := freeUp_eq ha hfree
    obtain ⟨hnext, hlive⟩ := live_of_freeUp hfree
    have hf' : k.Fresh := by
      intro b hb
      have hb' : h.live b = none := by rw [BlockHeap.live, hf b (hnext ▸ hb), Option.map_none]
      have hk : k.live b = none := by rw [hlive, hb', ite_self]
      exact Option.map_eq_none_iff.mp hk
    obtain ⟨empty, hempty, hd⟩ := Option.bind_eq_some_iff.mp hd
    cases empty with
    | true =>
        obtain ⟨rfl, -⟩ : (⟨none, 0⟩ : StringObject) = d ∧ _ := by simpa using hd
        exact .empty
    | false =>
        obtain ⟨n, hn, hd⟩ := Option.bind_eq_some_iff.mp hd
        obtain ⟨r, hr, hd⟩ := Option.bind_eq_some_iff.mp hd
        obtain ⟨k', hcopy, hd⟩ := Option.bind_eq_some_iff.mp hd
        obtain ⟨rfl, rfl⟩ : _ ∧ k' = h' := by simpa using hd
        exact strcpy_valid hf' (by simp [hempty]) hn hr hcopy

omit [DecidableEq α] in
lemma join_valid {first second : BlockHeap α → Option (List α)}
    (hd : join n m first second found h = some (d, h')) : Valid h' d := by
  rw [join] at hd
  split_ifs at hd with hzero
  · obtain ⟨rfl, -⟩ : (⟨none, 0⟩ : StringObject) = d ∧ _ := by simpa using hd
    exact .empty
  · obtain ⟨r, hr, hd⟩ := Option.bind_eq_some_iff.mp hd
    obtain ⟨front, -, hd⟩ := Option.bind_eq_some_iff.mp hd
    obtain ⟨k₁, hwrite₁, hd⟩ := Option.bind_eq_some_iff.mp hd
    obtain ⟨back, -, hd⟩ := Option.bind_eq_some_iff.mp hd
    obtain ⟨k₂, hwrite₂, hd⟩ := Option.bind_eq_some_iff.mp hd
    obtain ⟨k₃, hnul, hd⟩ := Option.bind_eq_some_iff.mp hd
    obtain ⟨rfl, rfl⟩ : _ ∧ k₃ = h' := by simpa using hd
    have hlive : k₂.live = r.2.live :=
      (BlockHeap.live_of_write hwrite₂).1.trans (BlockHeap.live_of_write hwrite₁).1
    exact valid_of_nul hzero hr (fun m hm => hlive ▸ hm) hnul

omit [Zero α] [DecidableEq α] in
lemma live_of_reverseLoop {rounds : ℕ} (hloop : reverseLoop a rounds i h = some h') :
    h'.live = h.live := by
  induction rounds generalizing i h with
  | zero =>
      obtain rfl := Option.some.inj hloop
      rfl
  | succ rounds ih =>
      obtain ⟨c, -, hloop⟩ := Option.bind_eq_some_iff.mp hloop
      obtain ⟨c', -, hloop⟩ := Option.bind_eq_some_iff.mp hloop
      obtain ⟨k₁, hwrite₁, hloop⟩ := Option.bind_eq_some_iff.mp hloop
      obtain ⟨k₂, hwrite₂, hloop⟩ := Option.bind_eq_some_iff.mp hloop
      rw [ih hloop, (BlockHeap.live_of_write hwrite₂).1, (BlockHeap.live_of_write hwrite₁).1]

lemma reverse_valid (ha : Valid h a) (hd : reverse found a h = some (d, h')) : Valid h' d := by
  obtain ⟨⟨e, k⟩, hcopy, hd⟩ := Option.bind_eq_some_iff.mp hd
  have he := copy_valid ha hcopy
  dsimp only at hd
  split_ifs at hd with htwo
  · obtain ⟨k', hloop, hd⟩ := Option.bind_eq_some_iff.mp hd
    obtain ⟨rfl, rfl⟩ : e = d ∧ k' = h' := by simpa using hd
    exact he.congr fun p _ => congrFun (live_of_reverseLoop hloop) p
  · obtain ⟨rfl, rfl⟩ : e = d ∧ k = h' := by simpa using hd
    exact he

/-- The local object is valid if it has characters, and is not returned if it has none. -/
lemma cutOut_valid (hd : cutOut n i found found' a h = some (d, h')) : Valid h' d := by
  rw [cutOut] at hd
  set retLen := (a.len + (2 ^ 64 - n)) % 2 ^ 64 with hret
  obtain ⟨r, hr, hd⟩ := Option.bind_eq_some_iff.mp hd
  obtain ⟨front, -, hd⟩ := Option.bind_eq_some_iff.mp hd
  obtain ⟨k₁, hwrite₁, hd⟩ := Option.bind_eq_some_iff.mp hd
  obtain ⟨back, -, hd⟩ := Option.bind_eq_some_iff.mp hd
  obtain ⟨k₂, hwrite₂, hd⟩ := Option.bind_eq_some_iff.mp hd
  obtain ⟨k₃, hnul, hd⟩ := Option.bind_eq_some_iff.mp hd
  obtain ⟨⟨e, k₄⟩, hcopy, hd⟩ := Option.bind_eq_some_iff.mp hd
  obtain ⟨⟨e', k₅⟩, hfree, hd⟩ := Option.bind_eq_some_iff.mp hd
  obtain ⟨rfl, rfl⟩ : e = d ∧ k₅ = h' := by simpa using hd
  by_cases hzero : retLen = 0
  · rw [copy, if_pos hzero] at hcopy
    obtain ⟨rfl, -⟩ : (⟨none, 0⟩ : StringObject) = e ∧ _ := by simpa using hcopy
    exact .empty
  · have hlive : k₂.live = r.2.live :=
      (BlockHeap.live_of_write hwrite₂).1.trans (BlockHeap.live_of_write hwrite₁).1
    have hlocal : Valid k₃ ⟨some r.1, retLen⟩ :=
      valid_of_nul hzero hr (fun m hm => hlive ▸ hm) hnul
    -- the copy has a content of its own, so it outlives the object
    obtain ⟨hnext, hnext', -⟩ := live_of_allocate hr
    have hcount : k₃.next = h.next + 1 := by
      rw [(BlockHeap.live_of_write hnul).2, (BlockHeap.live_of_write hwrite₂).2,
        (BlockHeap.live_of_write hwrite₁).2, hnext']
    refine (copy_valid hlocal hcopy).congr fun p hp => ?_
    rw [(live_of_freeUp hfree).2, if_neg]
    rcases content_of_copy hcopy with hnone | hown
    · rw [hnone] at hp
      cases hp
    · rw [hown, hcount] at hp
      rw [← Option.some.inj hp, hnext, Option.some.injEq]
      exact Nat.ne_of_lt (Nat.lt_succ_self _)

lemma minus_valid {str : StringObject} (ha : Valid h a)
    (hd : StringObject.minus str found found' a h = some (d, h')) : Valid h' d := by
  rw [minus] at hd
  by_cases hempty : str.len = 0 ∨ a.len = 0
  · rw [if_pos hempty] at hd
    exact copy_valid ha hd
  · rw [if_neg hempty] at hd
    obtain ⟨place, -, hd⟩ := Option.bind_eq_some_iff.mp hd
    cases place with
    | none => exact copy_valid ha hd
    | some i =>
        dsimp only at hd
        split_ifs at hd with hlen
        · obtain ⟨rfl, -⟩ : (⟨none, 0⟩ : StringObject) = d ∧ _ := by simpa using hd
          exact .empty
        · exact cutOut_valid hd

lemma minusC_valid {str : CString} (ha : Valid h a)
    (hd : minusC str found found' a h = some (d, h')) : Valid h' d := by
  obtain ⟨empty, -, hd⟩ := Option.bind_eq_some_iff.mp hd
  by_cases hempty : empty = true ∨ a.len = 0
  · rw [if_pos hempty] at hd
    exact copy_valid ha hd
  · rw [if_neg hempty] at hd
    obtain ⟨n, -, hd⟩ := Option.bind_eq_some_iff.mp hd
    obtain ⟨place, -, hd⟩ := Option.bind_eq_some_iff.mp hd
    cases place with
    | none => exact copy_valid ha hd
    | some i =>
        dsimp only at hd
        split_ifs at hd with hlen
        · obtain ⟨rfl, -⟩ : (⟨none, 0⟩ : StringObject) = d ∧ _ := by simpa using hd
          exact .empty
        · exact cutOut_valid hd

lemma minusChar_valid {c : α} (ha : Valid h a)
    (hd : minusChar c found found' a h = some (d, h')) : Valid h' d := by
  rw [minusChar] at hd
  split_ifs at hd with hempty
  · exact copy_valid ha hd
  · obtain ⟨cs, -, hd⟩ := Option.bind_eq_some_iff.mp hd
    split_ifs at hd with hmem
    · exact cutOut_valid hd
    · exact copy_valid ha hd

omit [Zero α] [DecidableEq α] in
lemma live_of_moveOwn {p : ℕ} (hmove : moveOwn p a h = some h') (hm : h'.live i = some m) :
    h.live i = some m := by
  rw [moveOwn] at hmove
  split_ifs at hmove with hnone
  · obtain rfl := Option.some.inj hmove
    exact hm
  · obtain ⟨own, -, hmove⟩ := Option.bind_eq_some_iff.mp hmove
    obtain ⟨k, hwrite, hfree⟩ := Option.bind_eq_some_iff.mp hmove
    rw [(BlockHeap.live_of_free hfree).2] at hm
    split_ifs at hm
    rwa [(BlockHeap.live_of_write hwrite).1] at hm

omit [DecidableEq α] in
/-- `n` characters have been appended, so that the length is not zero as a word either: the
content would have no room for them. -/
lemma extend_valid {source : BlockHeap α → Option (List α)} (hn : n ≠ 0)
    (hsource : ∀ k bs, source k = some bs → bs.length = n)
    (hd : extend n source found a h = some (d, h')) : Valid h' d := by
  rw [extend] at hd
  set resLen := (a.len + n) % 2 ^ 64 with hres
  obtain ⟨r, hr, hd⟩ := Option.bind_eq_some_iff.mp hd
  obtain ⟨k₁, hmove, hd⟩ := Option.bind_eq_some_iff.mp hd
  obtain ⟨bytes, hbytes, hd⟩ := Option.bind_eq_some_iff.mp hd
  obtain ⟨k₂, hwrite, hd⟩ := Option.bind_eq_some_iff.mp hd
  obtain ⟨k₃, hnul, hd⟩ := Option.bind_eq_some_iff.mp hd
  obtain ⟨rfl, rfl⟩ : _ ∧ k₃ = h' := by simpa using hd
  have hlive : ∀ m, k₁.live r.1 = some m → r.2.live r.1 = some m :=
    fun m hm => live_of_moveOwn hmove hm
  have hlen := hsource _ _ hbytes
  have hroom : a.len + n ≤ room 1 ((resLen + 1) % 2 ^ 64) := by
    have hne : bytes ≠ [] := by
      rintro rfl
      exact hn hlen.symm
    have hle := (room_of_allocate hr hlive hwrite hne).2
    rwa [hlen] at hle
  have hres0 : resLen ≠ 0 := by
    intro hzero
    rw [hzero, room] at hroom
    norm_num at hroom
    omega
  exact valid_of_nul hres0 hr
    (fun m hm => hlive m ((congrFun (BlockHeap.live_of_write hwrite).1 _).symm.trans hm)) hnul

omit [DecidableEq α] in
lemma plusAssign_valid {str : Operand} (ha : Valid h a)
    (hd : plusAssign str found a h = some (d, h')) : Valid h' d := by
  rw [plusAssign] at hd
  split_ifs at hd with hzero
  · obtain ⟨rfl, rfl⟩ : a = d ∧ h = h' := by simpa using hd
    exact ha
  · exact extend_valid hzero (fun _ _ => BlockHeap.length_read) hd

lemma plusAssignC_valid {str : CString} (ha : Valid h a)
    (hd : plusAssignC str found a h = some (d, h')) : Valid h' d := by
  obtain ⟨empty, hempty, hd⟩ := Option.bind_eq_some_iff.mp hd
  cases empty with
  | true =>
      obtain ⟨rfl, rfl⟩ : a = d ∧ h = h' := by simpa using hd
      exact ha
  | false =>
      obtain ⟨n, hn, hd⟩ := Option.bind_eq_some_iff.mp hd
      have hpos : n ≠ 0 := by
        obtain ⟨cs, hcs, rfl⟩ := holds_of_strlen hn
        rw [hcs.isEmpty] at hempty
        simpa using hempty
      exact extend_valid hpos (fun _ _ => BlockHeap.length_read) hd

lemma plusAssignChar_valid {c : α} (ha : Valid h a)
    (hd : plusAssignChar c found a h = some (d, h')) : Valid h' d := by
  rw [plusAssignChar] at hd
  split_ifs at hd with hc
  · obtain ⟨rfl, rfl⟩ : a = d ∧ h = h' := by simpa using hd
    exact ha
  · refine extend_valid Nat.one_ne_zero (fun k bs hbs => ?_) hd
    rw [← Option.some.inj hbs, List.length_singleton]

omit [Zero α] [DecidableEq α] in
/-- One round of `operator *` has room in the content. -/
lemma timesLoop_room {p rounds : ℕ} (hne : a.len ≠ 0) (hp : h.live p = some m)
    (hloop : timesLoop a p (rounds + 1) i h = some h') :
    i * a.len % 2 ^ 64 + a.len ≤ m ∧
      ∃ k, k.live = h.live ∧ timesLoop a p rounds (i + 1) k = some h' := by
  obtain ⟨own, hown, hloop⟩ := Option.bind_eq_some_iff.mp hloop
  obtain ⟨k, hwrite, hloop⟩ := Option.bind_eq_some_iff.mp hloop
  have hlen := BlockHeap.length_read hown
  have hne' : own ≠ [] := by
    rintro rfl
    exact hne hlen.symm
  obtain ⟨m', hm', hle⟩ := BlockHeap.room_of_write hwrite hne'
  rw [hp] at hm'
  rw [hlen, ← Option.some.inj hm'] at hle
  exact ⟨hle, k, (BlockHeap.live_of_write hwrite).1, hloop⟩

omit [Zero α] [DecidableEq α] in
lemma live_of_timesLoop {p rounds : ℕ} (hloop : timesLoop a p rounds i h = some h') :
    h'.live = h.live := by
  induction rounds generalizing i h with
  | zero =>
      obtain rfl := Option.some.inj hloop
      rfl
  | succ rounds ih =>
      obtain ⟨own, -, hloop⟩ := Option.bind_eq_some_iff.mp hloop
      obtain ⟨k, hwrite, hloop⟩ := Option.bind_eq_some_iff.mp hloop
      rw [ih hloop, (BlockHeap.live_of_write hwrite).1]

omit [DecidableEq α] in
/-- A length that is zero as a word has a content of one place, which two rounds do not fit. -/
lemma times_valid {x : ℤ} (hd : times x found a h = some (d, h')) : Valid h' d := by
  rw [times] at hd
  by_cases hfirst : a.len = 0 ∨ x ≤ 0
  · rw [if_pos hfirst] at hd
    obtain ⟨rfl, -⟩ : (⟨none, 0⟩ : StringObject) = d ∧ _ := by simpa using hd
    exact .empty
  · rw [if_neg hfirst] at hd
    rw [not_or] at hfirst
    obtain ⟨hne, hx⟩ := hfirst
    obtain ⟨r, hr, hd⟩ := Option.bind_eq_some_iff.mp hd
    obtain ⟨k, hloop, hd⟩ := Option.bind_eq_some_iff.mp hd
    obtain ⟨k', hnul, hd⟩ := Option.bind_eq_some_iff.mp hd
    obtain ⟨rfl, rfl⟩ := Prod.mk.inj (Option.some.inj hd)
    have hcount : (a.len * x.toNat + 1) % 2 ^ 64 = (a.len * x.toNat % 2 ^ 64 + 1) % 2 ^ 64 := by
      rw [Nat.mod_add_mod]
    rw [hcount] at hr
    refine valid_of_nul ?_ hr (fun m hm => live_of_timesLoop hloop ▸ hm) hnul
    intro hzero
    obtain ⟨hnext, -, hroom, -⟩ := live_of_allocate hr
    have hroom1 : r.2.live r.1 = some 1 := by
      rw [hnext, hroom, hzero]
      rfl
    -- the first round leaves one character, and then there is no place for the second one
    obtain ⟨rounds, hrounds⟩ := Nat.exists_eq_succ_of_ne_zero (show x.toNat ≠ 0 by omega)
    rw [hrounds] at hloop hzero
    obtain ⟨hle₁, k₁, hk₁, hloop⟩ := timesLoop_room hne hroom1 hloop
    have hone : a.len = 1 := by omega
    rw [hone, Nat.one_mul] at hzero
    obtain ⟨rounds, rfl⟩ := Nat.exists_eq_succ_of_ne_zero (show rounds ≠ 0 by omega)
    obtain ⟨hle₂, -⟩ := timesLoop_room hne (hk₁ ▸ hroom1) hloop
    rw [hone] at hle₂
    omega

omit [DecidableEq α] in
lemma substr_valid {pos len : UInt64} (ha : Valid h a)
    (hd : substr pos len found a h = some (d, h')) : Valid h' d := by
  rw [substr] at hd
  by_cases hfirst : len = 0 ∨ a.len ≤ pos.toNat
  · rw [if_pos hfirst] at hd
    obtain ⟨rfl, -⟩ : (⟨none, 0⟩ : StringObject) = d ∧ _ := by simpa using hd
    exact .empty
  · rw [if_neg hfirst] at hd
    rw [not_or] at hfirst
    obtain ⟨r, hr, hd⟩ := Option.bind_eq_some_iff.mp hd
    obtain ⟨bytes, -, hd⟩ := Option.bind_eq_some_iff.mp hd
    obtain ⟨k, hwrite, hd⟩ := Option.bind_eq_some_iff.mp hd
    obtain ⟨k', hnul, hd⟩ := Option.bind_eq_some_iff.mp hd
    obtain ⟨rfl, rfl⟩ := Prod.mk.inj (Option.some.inj hd)
    refine valid_of_nul ?_ hr (fun m hm => (BlockHeap.live_of_write hwrite).1 ▸ hm) hnul
    have hword : a.len < 2 ^ 64 := by
      cases ha with
      | empty => norm_num
      | @block p n hp hn hfits =>
          rw [RequestFits] at hfits
          show n < 2 ^ 64
          omega
    have hne : len.toNat ≠ 0 := fun h => hfirst.1 (UInt64.toNat_inj.mp h)
    have hadd : (pos + len).toNat = (pos.toNat + len.toNat) % 2 ^ 64 := UInt64.toNat_add ..
    have hpos := pos.toNat_lt
    have hlen := len.toNat_lt
    rw [hadd]
    split_ifs <;> omega

omit [Zero α] [DecidableEq α] in
lemma put_valid {c : α} (ha : Valid h a) (hd : put i c a h = some (d, h')) : Valid h' d := by
  obtain ⟨k, hwrite, hresult⟩ := Option.map_eq_some_iff.mp hd
  obtain ⟨rfl, rfl⟩ : a = d ∧ k = h' := by simpa using hresult
  exact ha.congr fun p _ => congrFun (BlockHeap.live_of_write hwrite).1 p

/-- **An operation makes a valid string.** -/
lemma run_valid {op : Operation α} (hf : h.Fresh) (ha : Valid h a)
    (hother : ∀ b, op.other = some b → Valid h b)
    (hrun : op.run found found' a h = some (d, h')) : Valid h' d := by
  cases op with
  | ofCString str => exact ofCString_valid hf hrun
  | copy => exact copy_valid ha hrun
  | clear =>
      rw [freeUp_eq ha hrun]
      exact .empty
  | assign str =>
      refine assign_valid ha (fun b hb => hother b ?_) hrun
      rw [hb]
      rfl
  | assignC str => exact assignC_valid hf ha hrun
  | plus str => exact join_valid hrun
  | plusC str =>
      obtain ⟨n, -, hjoin⟩ := Option.bind_eq_some_iff.mp hrun
      exact join_valid hjoin
  | cPlus str =>
      obtain ⟨n, -, hjoin⟩ := Option.bind_eq_some_iff.mp hrun
      exact join_valid hjoin
  | reverse => exact reverse_valid ha hrun
  | minus str => exact minus_valid ha hrun
  | minusC str => exact minusC_valid ha hrun
  | minusChar c => exact minusChar_valid ha hrun
  | plusAssign str => exact plusAssign_valid ha hrun
  | plusAssignC str => exact plusAssignC_valid ha hrun
  | plusAssignChar c => exact plusAssignChar_valid ha hrun
  | times x => exact times_valid hrun
  | substr pos len => exact substr_valid ha hrun
  | put i c => exact put_valid ha hrun

/-- **Every string that is built is valid.** -/
lemma Built.valid (ha : Built h a) : Valid h a := by
  induction ha with
  | new => exact .empty
  | run hf ha hother hrun iha ihother => exact run_valid hf iha ihother hrun
  | elsewhere ha hsame ih =>
      refine ih.congr fun p hp => ?_
      rw [BlockHeap.live, BlockHeap.live, hsame p hp]

end Step

/-! ### The order of the strings that are built -/

section Order

/-- The characters of a string. -/
def chars (h : BlockHeap α) (a : StringObject) : List α := (h.read a.content 0 a.len).getD []

variable {h h' : BlockHeap α} {a b c : StringObject} {cp : List α} {p : CString}

lemma Valid.spells (ha : Valid h a) : a.Spells h (a.chars h) := by
  cases ha with
  | empty => exact .empty
  | @block p n hp hn hfits =>
      obtain ⟨xs, hxs, hlen⟩ := Option.map_eq_some_iff.mp hp
      have hread : h.read (some p) 0 n = some (xs.take n) := BlockHeap.read_block hxs (by omega)
      have htake : (xs.take n).length = n := List.length_take_of_le (by omega)
      obtain ⟨x, hx⟩ := List.length_eq_one_iff.mp (show (xs.drop n).length = 1 by
        rw [List.length_drop]
        omega)
      have hsplit : h.block p = some (xs.take n ++ [x]) := by
        rw [← hx, List.take_append_drop, hxs]
      have hne : xs.take n ≠ [] := by
        intro hnil
        rw [hnil] at htake
        exact hn htake.symm
      have hspells : Spells h ⟨some p, (xs.take n).length⟩ (xs.take n) := .block hsplit hne
      rw [htake] at hspells
      rw [chars, hread]
      exact hspells

/-- **The content of a string is a C string with its characters** if there is no NUL among
them. -/
lemma own_iff [Zero α] (ha : a.Spells h cp) {cs : List α} (hp : a.cStr.Holds h cs) :
    cp = cs ↔ 0 ∉ cp := by
  cases ha with
  | empty =>
      cases hp
      simp
  | @block p cp x hblock hne =>
      obtain ⟨q, hq⟩ : ∃ q, (⟨some p, cp.length⟩ : StringObject).cStr = q := ⟨_, rfl⟩
      rw [hq] at hp
      cases hp with
      | null => cases hq
      | @block b i xs cs rest hb hdrop hcs =>
          obtain ⟨rfl, rfl⟩ : p = b ∧ 0 = i := by
            simpa [cStr] using hq
          obtain rfl := Option.some.inj (hb.symm.trans hblock)
          rw [List.drop_zero] at hdrop
          constructor
          · rintro rfl
            exact hcs
          · intro hnul
            rcases List.append_eq_append_iff.mp hdrop with ⟨us, rfl, hlast⟩ | ⟨us, rfl, hlast⟩
            · cases us with
              | nil => rw [List.append_nil]
              | cons u us => simp at hlast
            · cases us with
              | nil => rw [List.append_nil]
              | cons u us =>
                  obtain ⟨rfl, -⟩ := List.cons.inj hlast
                  exact absurd (List.mem_append_right _ List.mem_cons_self) hnul

variable [Zero α] [LinearOrder α]

end Order

/-! ### Two strings, and a NUL in one -/

section Examples

/-- Memory with the C string `ab`. -/
def oneBlock : BlockHeap ℕ := .moved .empty none [97, 98, 0]

/-- Memory with a string that has been made of it. -/
def twoBlocks : BlockHeap ℕ := oneBlock.moved none [97, 98, 0]

/-- Memory after the first character has been left out, with what that has made. -/
def threeBlocks : BlockHeap ℕ := (twoBlocks.moved none [98, 0]).moved (some 2) [98, 0]

lemma twoBlocks_built : Built twoBlocks ⟨some 1, 2⟩ := by
  have hrun : Operation.run (fun _ => 0) (fun _ => 0) ⟨none, 0⟩ oneBlock
      (.ofCString ⟨some 0, 0⟩) = some (⟨some 1, 2⟩, _) := rfl
  have hbuilt := Built.run BlockHeap.Fresh.empty.moved .new (fun _ h => by cases h) hrun
  exact hbuilt.elsewhere fun p hp => by cases hp; rfl

lemma threeBlocks_built : Built threeBlocks ⟨some 3, 1⟩ := by
  have hrun : Operation.run (fun _ => 0) (fun _ => 0) ⟨some 1, 2⟩ twoBlocks (.minusChar 97) =
      some (⟨some 3, 1⟩, _) := rfl
  have hbuilt := Built.run BlockHeap.Fresh.empty.moved.moved twoBlocks_built
    (fun _ h => by cases h) hrun
  exact hbuilt.elsewhere fun p hp => by cases hp; rfl

end Examples

end StringObject

end Adl
