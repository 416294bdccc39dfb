import Mathlib.Data.UInt
import Mathlib.Tactic
import Sel4Test.Adl.StringObject
import Sel4Test.Adl.TString

/-!
The operations `+=`, `*`, `substr` and `split` of `adl/TString.cc`, with their contents.

What is appended may be the string itself, or may be in its content. A string is sound if its
content is a block that the allocator can grant. `split` appends to an `ArrayList`, and reads the
string and the key where they are, which may be in the storage of that list.

* `extend_eq`: a new content takes the characters and what is appended, and the old one is
  released.
* `plusAssign_iff`, `plusAssignC_iff`, `plusAssignChar_iff`: when `+=` appends.
* `times_iff`, `substr_iff`: when `*` repeats and `substr` takes characters out.
* `splitLoop_spec`: the pieces go to the list.
* `tString_operations`: the operations are those of lists under these conditions.
-/

namespace Adl

namespace StringObject

variable {α : Type} [Zero α]

/-- A string in memory, with a content for which the request was a word. -/
structure Sound (h : BlockHeap α) (a : StringObject) (cs : List α) : Prop where
  holds : a.Holds h cs
  fits : RequestFits 1 (cs.length + 1)

/-! ### Appending -/

/-- The string that is appended by reference: the same one, or another. -/
inductive Operand
  | self
  | other (str : StringObject)

/-- The fields of what is appended. -/
def Operand.fields (a : StringObject) : Operand → StringObject
  | self => a
  | other str => str

/-- The old characters go to the new content `p`, and the old content is released. -/
def moveOwn (p : ℕ) (a : StringObject) (h : BlockHeap α) : Option (BlockHeap α) :=
  if a.content = none then some h else do
    let own ← h.read a.content 0 a.len
    let h ← h.write (some p) 0 own
    h.free a.content

/-- The part of `operator +=` that the versions share: `n` characters are read, by `source`, and
written behind the old ones in a new content, after the old content is released. -/
def extend (n : ℕ) (source : BlockHeap α → Option (List α)) (found : ℕ → α) (a : StringObject)
    (h : BlockHeap α) : Option (StringObject × BlockHeap α) := do
  let resLen := (a.len + n) % 2 ^ 64
  let r ← allocate ((resLen + 1) % 2 ^ 64) found h
  let h ← moveOwn r.1 a r.2
  let bytes ← source h
  let h ← h.write (some r.1) a.len bytes
  let h ← h.write (some r.1) resLen [0]
  return (⟨some r.1, resLen⟩, h)

/-- `operator +=`; `content` is null when the characters of the operand are read. -/
def plusAssign (str : Operand) (found : ℕ → α) (a : StringObject) (h : BlockHeap α) :
    Option (StringObject × BlockHeap α) :=
  let n := (str.fields a).len
  if n = 0 then some (a, h)
  else extend n (fun h => h.read (str.fields { a with content := none }).content 0 n) found a h

/-- `operator +=` of a C string. -/
def plusAssignC [DecidableEq α] (str : CString) (found : ℕ → α) (a : StringObject)
    (h : BlockHeap α) : Option (StringObject × BlockHeap α) := do
  let empty ← str.isEmpty h
  if empty then return (a, h)
  else
    let lengthOfStr ← str.strlen h
    extend lengthOfStr (fun h => h.read str.base str.offset lengthOfStr) found a h

/-- `operator +=` of a character, for which `p[resLen - 1]` is the place behind the old ones. -/
def plusAssignChar [DecidableEq α] (c : α) (found : ℕ → α) (a : StringObject)
    (h : BlockHeap α) : Option (StringObject × BlockHeap α) :=
  if c = 0 then some (a, h) else extend 1 (fun _ => some [c]) found a h

/-! ### Repeating and taking out -/

/-- The loop of `operator *`: the characters are written from the place `i * len` on, for the
rounds that are left. -/
def timesLoop (a : StringObject) (p : ℕ) : ℕ → ℕ → BlockHeap α → Option (BlockHeap α)
  | 0, _, h => some h
  | rounds + 1, i, h => do
      let own ← h.read a.content 0 a.len
      let h ← h.write (some p) (i * a.len % 2 ^ 64) own
      timesLoop a p rounds (i + 1) h

/-- `operator *`. -/
def times (x : ℤ) (found : ℕ → α) (a : StringObject) (h : BlockHeap α) :
    Option (StringObject × BlockHeap α) :=
  if a.len = 0 ∨ x ≤ 0 then some (⟨none, 0⟩, h)
  else do
    let r ← allocate ((a.len * x.toNat + 1) % 2 ^ 64) found h
    let h ← timesLoop a r.1 x.toNat 0 r.2
    let len := a.len * x.toNat % 2 ^ 64
    let h ← h.write (some r.1) len [0]
    return (⟨some r.1, len⟩, h)

/-- `substr`. -/
def substr (pos len : UInt64) (found : ℕ → α) (a : StringObject) (h : BlockHeap α) :
    Option (StringObject × BlockHeap α) :=
  if len = 0 ∨ a.len ≤ pos.toNat then some (⟨none, 0⟩, h)
  else do
    let endIdx := (pos + len).toNat
    let endIdx := if endIdx > a.len then a.len else endIdx
    let retLen := (endIdx + 2 ^ 64 - pos.toNat) % 2 ^ 64
    let r ← allocate ((retLen + 1) % 2 ^ 64) found h
    let bytes ← r.2.read a.content pos.toNat retLen
    let h ← r.2.write (some r.1) 0 bytes
    let h ← h.write (some r.1) retLen [0]
    return (⟨some r.1, retLen⟩, h)

/-! ### What the operations are for -/

/-- `operator +=` has appended: the string has a new content for the characters of both, and the
contents of other strings are as they were. -/
def Appends (h : BlockHeap α) (a : StringObject) (cs : List α)
    (r : Option (StringObject × BlockHeap α)) : Prop :=
  ∃ d h', r = some (d, h') ∧ d.Sound h' cs ∧
    ∀ b, a.content ≠ some b → b ≠ h.next → h'.block b = h.block b

/-- A new string has been made. -/
def Makes (h : BlockHeap α) (cs : List α) (r : Option (StringObject × BlockHeap α)) : Prop :=
  ∃ d h', r = some (d, h') ∧ d.Sound h' cs ∧ ∀ b, b ≠ h.next → h'.block b = h.block b

section Appending

variable {h h' : BlockHeap α} {a b d : StringObject} {ca cb bs : List α} {found : ℕ → α}
  {source : BlockHeap α → Option (List α)}

/-- The old characters are at the beginning of the new content. -/
lemma moveOwn_eq {junk : List α} (hf : h.Fresh) (ha : a.Holds h ca)
    (hroom : ca.length ≤ junk.length) :
    moveOwn h.next a (h.moved none junk) =
      some (h.moved a.content (ca ++ junk.drop ca.length)) := by
  cases ha with
  | empty => rfl
  | @block p cs hp =>
      have hread : (h.moved none junk).read (some p) 0 ca.length = some ca :=
        BlockHeap.moved_read hf (.inl rfl) (Holds.block hp).read
      simp only [moveOwn, reduceCtorEq, if_false, hread, BlockHeap.moved_write_zero hroom,
        Option.bind_eq_bind, Option.bind_some]
      exact BlockHeap.moved_free hf hp

/-- **The new content**, where its size is a word. -/
lemma extend_eq (hf : h.Fresh) (ha : a.Holds h ca) (hbs : bs ≠ [])
    (hfits : RequestFits 1 ((ca ++ bs).length + 1))
    (hsource : ∀ xs, source (h.moved a.content xs) = some bs) :
    extend bs.length source found a h =
      some (⟨some h.next, (ca ++ bs).length⟩, h.moved a.content (ca ++ bs ++ [0])) := by
  have hlen := ha.length
  have hpos := List.length_pos_of_ne_nil hbs
  have hsum : (ca ++ bs).length = a.len + bs.length := by rw [List.length_append, hlen]
  rw [hsum, RequestFits] at hfits
  have hres : (a.len + bs.length) % 2 ^ 64 = a.len + bs.length := Nat.mod_eq_of_lt (by omega)
  have hcount : (a.len + bs.length + 1) % 2 ^ 64 = a.len + bs.length + 1 :=
    Nat.mod_eq_of_lt (by omega)
  obtain ⟨junk, hjunk, halloc⟩ := allocate_fits h found
    (Nat.succ_ne_zero (a.len + bs.length)) hfits
  -- the old characters come first, and the old content goes
  have hown := moveOwn_eq hf ha (show ca.length ≤ junk.length by omega)
  have hbytes : (h.moved a.content (ca ++ junk.drop ca.length)).write (some h.next) a.len bs =
      some (h.moved a.content (ca ++ bs ++ junk.drop (a.len + bs.length))) := by
    rw [BlockHeap.moved_write hlen (by rw [List.length_drop]; omega), List.drop_drop, hlen]
  have hnul : (h.moved a.content (ca ++ bs ++ junk.drop (a.len + bs.length))).write
      (some h.next) (a.len + bs.length) [0] = some (h.moved a.content (ca ++ bs ++ [0])) := by
    have hend : (junk.drop (a.len + bs.length)).drop [(0 : α)].length = [] := by
      rw [List.length_singleton, List.drop_drop]
      exact List.drop_eq_nil_of_le (by omega)
    rw [BlockHeap.moved_write hsum (by rw [List.length_singleton, List.length_drop]; omega), hend,
      List.append_nil]
  rw [extend]
  simp only [hres, hcount, halloc, hown, hsource, hbytes, hnul, Option.bind_eq_bind,
    Option.bind_some, hsum]
  rfl

/-- A new content has the length that was asked for, cut to a word. -/
lemma len_of_extend {n : ℕ} (hd : extend n source found a h = some (d, h')) :
    d.len = (a.len + n) % 2 ^ 64 := by
  rw [extend] at hd
  obtain ⟨r, -, hd⟩ := Option.bind_eq_some_iff.mp hd
  obtain ⟨k, -, hd⟩ := Option.bind_eq_some_iff.mp hd
  obtain ⟨bytes, -, hd⟩ := Option.bind_eq_some_iff.mp hd
  obtain ⟨k', -, hd⟩ := Option.bind_eq_some_iff.mp hd
  obtain ⟨k'', -, hd⟩ := Option.bind_eq_some_iff.mp hd
  obtain ⟨rfl, -⟩ : _ ∧ _ := by simpa using hd
  rfl

/-- What is appended may be read after the release: it is appended if the size is a word. -/
lemma appends_extend_iff (hf : h.Fresh) (ha : a.Holds h ca) (hbs : bs ≠ [])
    (hsource : ∀ xs, source (h.moved a.content xs) = some bs) :
    Appends h a (ca ++ bs) (extend bs.length source found a h) ↔
      RequestFits 1 ((ca ++ bs).length + 1) := by
  constructor
  · rintro ⟨d, h', -, hd, -⟩
    exact hd.fits
  · intro hfits
    refine ⟨_, _, extend_eq hf ha hbs hfits hsource, ⟨.block BlockHeap.block_moved_next, hfits⟩,
      fun b hb hnext => BlockHeap.block_moved_of_ne hnext hb⟩

omit [Zero α] in
/-- The old content is gone before the appended characters are read. -/
lemma moveOwn_gone {p q : ℕ} (hp : a.content = some p) (hmove : moveOwn q a h = some h') :
    h'.block p = none := by
  rw [moveOwn, if_neg (by rw [hp]; simp)] at hmove
  obtain ⟨own, -, hwrite⟩ := Option.bind_eq_some_iff.mp hmove
  obtain ⟨k, -, hfree⟩ := Option.bind_eq_some_iff.mp hwrite
  rw [hp] at hfree
  obtain ⟨-, rfl⟩ := BlockHeap.eq_of_free hfree
  exact Function.update_self ..

/-- What cannot be read after the release cannot be appended. -/
lemma extend_none {n : ℕ} (hsource : ∀ q k k', moveOwn q a k = some k' → source k' = none) :
    extend n source found a h = none := by
  rw [extend]
  refine Option.bind_eq_none_iff.mpr fun r _ => Option.bind_eq_none_iff.mpr fun k hk => ?_
  rw [hsource _ _ _ hk]
  rfl

/-- Nothing to append. -/
lemma appends_nothing (ha : a.Sound h ca) : Appends h a (ca ++ []) (some (a, h)) := by
  rw [List.append_nil]
  exact ⟨a, h, rfl, ha, fun _ _ _ => rfl⟩

/-- **`s += str`** appends unless `str` is `s` itself and has characters. -/
lemma plusAssign_iff {str : Operand} (hf : h.Fresh) (ha : a.Sound h ca)
    (hb : (str.fields a).Holds h cb)
    (hapart : ∀ b, str = .other b → b.content = none ∨ b.content ≠ a.content) :
    Appends h a (ca ++ cb) (plusAssign str found a h) ↔
      (cb = [] ∨ str ≠ .self) ∧ RequestFits 1 ((ca ++ cb).length + 1) := by
  have hlen := hb.length
  rw [plusAssign, ← hlen]
  by_cases hnil : cb = []
  · subst hnil
    refine ⟨fun h => ⟨.inl rfl, ?_⟩, fun _ => appends_nothing ha⟩
    rw [List.append_nil]
    exact ha.fits
  · simp only [if_neg (mt List.length_eq_zero_iff.mp hnil), hnil, false_or]
    cases str with
    | self =>
        -- the content is null when it is read again
        have hnone : extend cb.length (fun k => k.read none 0 cb.length) found a h = none := by
          refine extend_none fun _ k k' _ => ?_
          rw [BlockHeap.read, if_neg (mt List.length_eq_zero_iff.mp hnil)]
          rfl
        refine ⟨?_, fun h => absurd rfl h.1⟩
        rintro ⟨d, h', hd, -⟩
        exact absurd (hd.symm.trans hnone) (by simp)
    | other b =>
        have hother : b.content ≠ none := fun hnone => hnil (hb.eq_nil hnone)
        have haway : a.content = none ∨ a.content ≠ b.content :=
          .inr ((hapart b rfl).resolve_left hother).symm
        have hread : h.read b.content 0 cb.length = some cb := by
          rw [hlen]
          exact hb.read
        have hsource : ∀ xs, (h.moved a.content xs).read b.content 0 cb.length = some cb :=
          fun xs => BlockHeap.moved_read hf haway hread
        refine (appends_extend_iff hf ha.holds hnil hsource).trans ⟨fun h => ⟨?_, h⟩, And.right⟩
        simp

/-- **`s += str`** for a C string appends unless it is in the content of `s`. -/
lemma plusAssignC_iff [DecidableEq α] {p : CString} (hf : h.Fresh) (ha : a.Sound h ca)
    (hp : p.Holds h cb) :
    Appends h a (ca ++ cb) (plusAssignC p found a h) ↔
      (cb = [] ∨ p.base ≠ a.content) ∧ RequestFits 1 ((ca ++ cb).length + 1) := by
  rw [plusAssignC, hp.isEmpty]
  by_cases hnil : cb = []
  · subst hnil
    refine ⟨fun h => ⟨.inl rfl, ?_⟩, fun _ => appends_nothing ha⟩
    rw [List.append_nil]
    exact ha.fits
  · have hne : p ≠ .null := by
      rintro rfl
      cases hp
      exact hnil rfl
    simp only [Option.bind_eq_bind, Option.bind_some, decide_eq_true_eq, hp.strlen hne, hnil,
      false_or]
    by_cases hown : p.base = a.content
    · have hnone : extend cb.length (fun k => k.read p.base p.offset cb.length) found a h =
          none := by
        refine extend_none fun q k k' hk => ?_
        cases hcontent : a.content with
        | none =>
            cases hp with
            | null => exact absurd rfl hnil
            | block hb hdrop hcs => cases hown.trans hcontent
        | some b =>
            rw [hown, hcontent, BlockHeap.read_released (moveOwn_gone hcontent hk)
              (mt List.length_eq_zero_iff.mp hnil)]
      refine ⟨?_, fun h => absurd hown h.1⟩
      rintro ⟨d, h', hd, -⟩
      exact absurd (hd.symm.trans hnone) (by simp)
    · have hsource : ∀ xs, (h.moved a.content xs).read p.base p.offset cb.length = some cb :=
        fun xs => BlockHeap.moved_read hf (.inr (Ne.symm hown)) hp.read_chars
      exact (appends_extend_iff hf ha.holds hnil hsource).trans ⟨fun h => ⟨hown, h⟩, And.right⟩

/-- **`s += c`** appends a character that is not NUL. -/
lemma plusAssignChar_iff [DecidableEq α] {c : α} (hf : h.Fresh) (ha : a.Sound h ca) :
    Appends h a (ca ++ if c = 0 then [] else [c]) (plusAssignChar c found a h) ↔
      RequestFits 1 ((ca ++ if c = 0 then [] else [c]).length + 1) := by
  rw [plusAssignChar]
  by_cases hc : c = 0
  · simp only [if_pos hc]
    refine ⟨fun _ => ?_, fun _ => appends_nothing ha⟩
    rw [List.append_nil]
    exact ha.fits
  · simp only [if_neg hc]
    exact appends_extend_iff hf ha.holds (by simp) fun _ => rfl

end Appending

/-! ### New strings -/

section Making

variable {h h' : BlockHeap α} {a d : StringObject} {ca : List α} {found : ℕ → α}

/-- The rounds that are left write the characters behind those of the rounds before. -/
lemma timesLoop_eq {junk done : List α} {rounds i : ℕ} (hf : h.Fresh) (ha : a.Holds h ca)
    (hdone : done.length = i * a.len) (hword : (i + rounds) * a.len < 2 ^ 64)
    (hroom : rounds * a.len ≤ junk.length) :
    timesLoop a h.next rounds i (h.moved none (done ++ junk)) =
      some (h.moved none (done ++ (List.replicate rounds ca).flatten ++
        junk.drop (rounds * a.len))) := by
  have hlen := ha.length
  induction rounds generalizing i done junk with
  | zero => simp [timesLoop]
  | succ rounds ih =>
      have hmul : (rounds + 1) * a.len = rounds * a.len + a.len := Nat.succ_mul ..
      have hmul' : (i + (rounds + 1)) * a.len = i * a.len + rounds * a.len + a.len := by ring
      have hplace : i * a.len % 2 ^ 64 = done.length := by
        rw [hdone]
        exact Nat.mod_eq_of_lt (by omega)
      have hread : (h.moved none (done ++ junk)).read a.content 0 a.len = some ca :=
        BlockHeap.moved_read hf (.inl rfl) ha.read
      have hnext : (done ++ ca).length = (i + 1) * a.len := by
        rw [List.length_append, hdone, hlen]
        ring
      have hleft : rounds * a.len ≤ (junk.drop ca.length).length := by
        rw [List.length_drop]
        omega
      have hsum : (i + 1 + rounds) * a.len < 2 ^ 64 := by
        rw [show i + 1 + rounds = i + (rounds + 1) by omega]
        exact hword
      rw [timesLoop]
      simp only [hread, hplace, Option.bind_eq_bind, Option.bind_some,
        BlockHeap.moved_write rfl (show ca.length ≤ junk.length by omega)]
      rw [ih hnext hsum hleft, List.replicate_succ, List.flatten_cons, List.drop_drop, hlen,
        ← List.append_assoc, Nat.add_comm a.len, ← hmul]

/-- **`s * x`** repeats if the size is a word. -/
lemma times_iff {x : ℤ} (hf : h.Fresh) (ha : a.Sound h ca) :
    Makes h (List.replicate x.toNat ca).flatten (times x found a h) ↔
      RequestFits 1 (a.len * x.toNat + 1) := by
  have hlen := ha.holds.length
  have hsize : (List.replicate x.toNat ca).flatten.length = a.len * x.toNat := by
    rw [List.length_flatten, List.map_replicate, List.sum_replicate, hlen, smul_eq_mul,
      Nat.mul_comm]
  constructor
  · rintro ⟨d, h', -, hd, -⟩
    have hfits := hd.fits
    rwa [hsize] at hfits
  · intro hfits
    rw [times]
    by_cases hzero : a.len = 0 ∨ x ≤ 0
    · have hnil : (List.replicate x.toNat ca).flatten = [] := by
        rw [← List.length_eq_zero_iff, hsize]
        rcases hzero with hzero | hneg
        · rw [hzero, Nat.zero_mul]
        · rw [Int.toNat_of_nonpos hneg, Nat.mul_zero]
      rw [if_pos hzero, hnil]
      exact ⟨_, _, rfl, ⟨.empty, by norm_num [RequestFits]⟩, fun _ _ => rfl⟩
    -- the size of the request fits, so the products of the loop do not wrap
    · have hword : a.len * x.toNat + 17 < 2 ^ 64 := by
        rw [RequestFits] at hfits
        omega
      obtain ⟨junk, hjunk, halloc⟩ := allocate_fits h found
        (Nat.succ_ne_zero (a.len * x.toNat)) hfits
      have hcomm : x.toNat * a.len = a.len * x.toNat := Nat.mul_comm ..
      have hloop : timesLoop a h.next x.toNat 0 (h.moved none ([] ++ junk)) =
          some (h.moved none ([] ++ (List.replicate x.toNat ca).flatten ++
            junk.drop (x.toNat * a.len))) :=
        timesLoop_eq hf ha.holds (by simp) (by rw [Nat.zero_add]; omega) (by omega)
      rw [List.nil_append, List.nil_append, hcomm] at hloop
      have hnul : (h.moved none ((List.replicate x.toNat ca).flatten ++
          junk.drop (a.len * x.toNat))).write (some h.next) (a.len * x.toNat) [0] =
            some (h.moved none ((List.replicate x.toNat ca).flatten ++ [0])) := by
        have hend : (junk.drop (a.len * x.toNat)).drop [(0 : α)].length = [] := by
          rw [List.length_singleton, List.drop_drop]
          exact List.drop_eq_nil_of_le (by omega)
        rw [BlockHeap.moved_write hsize (by rw [List.length_singleton, List.length_drop]; omega),
          hend, List.append_nil]
      refine ⟨⟨some h.next, (List.replicate x.toNat ca).flatten.length⟩,
        h.moved none ((List.replicate x.toNat ca).flatten ++ [0]), ?_,
        ⟨.block BlockHeap.block_moved_next, by rwa [hsize]⟩,
        fun b hb => BlockHeap.block_moved_of_ne hb (by simp)⟩
      rw [if_neg hzero, Nat.mod_eq_of_lt (by omega), Nat.mod_eq_of_lt (by omega), hsize]
      simp only [halloc, hloop, hnul, Option.bind_eq_bind, Option.bind_some]
      rfl

/-- A string that is taken out has the length that was computed for it. -/
lemma len_of_substr {pos len : UInt64} (hne : ¬ (len = 0 ∨ a.len ≤ pos.toNat))
    (hd : substr pos len found a h = some (d, h')) :
    d.len = ((if (pos + len).toNat > a.len then a.len else (pos + len).toNat) + 2 ^ 64 -
      pos.toNat) % 2 ^ 64 := by
  rw [substr, if_neg hne] at hd
  obtain ⟨r, -, hd⟩ := Option.bind_eq_some_iff.mp hd
  obtain ⟨bytes, -, hd⟩ := Option.bind_eq_some_iff.mp hd
  obtain ⟨k, -, hd⟩ := Option.bind_eq_some_iff.mp hd
  obtain ⟨k', -, hd⟩ := Option.bind_eq_some_iff.mp hd
  obtain ⟨rfl, -⟩ : _ ∧ _ := by simpa using hd
  rfl

/-- **`substr`** takes the characters out if the position behind them is a word. -/
lemma substr_iff {pos len : UInt64} (hf : h.Fresh) (ha : a.Sound h ca) :
    Makes h ((ca.drop pos.toNat).take len.toNat) (substr pos len found a h) ↔
      len = 0 ∨ a.len ≤ pos.toNat ∨ pos.toNat + len.toNat < 2 ^ 64 := by
  have hlen := ha.holds.length
  have hfits := ha.fits
  rw [RequestFits] at hfits
  have hadd : (pos + len).toNat = (pos.toNat + len.toNat) % 2 ^ 64 := UInt64.toNat_add ..
  by_cases hfirst : len = 0 ∨ a.len ≤ pos.toNat
  · have hnil : (ca.drop pos.toNat).take len.toNat = [] := by
      rcases hfirst with rfl | hle
      · exact List.take_zero
      · rw [List.drop_eq_nil_of_le (by omega), List.take_nil]
    refine iff_of_true ?_ (hfirst.imp_right .inl)
    rw [substr, if_pos hfirst, hnil]
    exact ⟨_, _, rfl, ⟨.empty, by norm_num [RequestFits]⟩, fun _ _ => rfl⟩
  · have hpos : pos.toNat < a.len := by
      rw [not_or] at hfirst
      omega
    have hlen0 : len.toNat ≠ 0 := fun h => hfirst (.inl (UInt64.toNat_inj.mp h))
    have hlt := len.toNat_lt
    have hiff : (len = 0 ∨ a.len ≤ pos.toNat ∨ pos.toNat + len.toNat < 2 ^ 64) ↔
        pos.toNat + len.toNat < 2 ^ 64 := by
      rw [not_or] at hfirst
      simp only [hfirst.1, hfirst.2, false_or]
    have hcount : ((ca.drop pos.toNat).take len.toNat).length =
        min len.toNat (a.len - pos.toNat) := by
      rw [List.length_take, List.length_drop, hlen]
    rw [hiff]
    constructor
    · -- a position that is cut to a word is before `pos`, and the length comes out as `len`
      rintro ⟨d, h', hd, hsound, -⟩
      have hd' := (len_of_substr hfirst hd).symm.trans hsound.holds.length.symm
      rw [hcount, hadd] at hd'
      by_contra hwrap
      have hmod : (pos.toNat + len.toNat) % 2 ^ 64 = pos.toNat + len.toNat - 2 ^ 64 := by omega
      rw [hmod, if_neg (by omega)] at hd'
      omega
    · intro hword
      set n := min len.toNat (a.len - pos.toNat) with hn
      have hret : ((if (pos + len).toNat > a.len then a.len else (pos + len).toNat) + 2 ^ 64 -
          pos.toNat) % 2 ^ 64 = n := by
        rw [hadd, Nat.mod_eq_of_lt hword]
        split_ifs <;> omega
      have hsmall : RequestFits 1 (n + 1) := by
        rw [RequestFits]
        omega
      obtain ⟨junk, hjunk, halloc⟩ := allocate_fits h found
        (Nat.succ_ne_zero n) hsmall
      set bytes := (ca.drop pos.toNat).take len.toNat with hbytes
      -- the bytes are copied into the new block, and a NUL is written behind them
      have hread : (h.moved none junk).read a.content pos.toNat n = some bytes := by
        refine BlockHeap.moved_read hf (.inl rfl) ?_
        rw [ha.holds.read_range (by omega), hbytes]
        congr 1
        rw [List.take_eq_take_iff, List.length_drop]
        omega
      have hfront : (h.moved none junk).write (some h.next) 0 bytes =
          some (h.moved none (bytes ++ junk.drop n)) := by
        rw [BlockHeap.moved_write_zero (by omega), hcount]
      have hnul : (h.moved none (bytes ++ junk.drop n)).write (some h.next) n [0] =
          some (h.moved none (bytes ++ [0])) := by
        have hend : (junk.drop n).drop [(0 : α)].length = [] := by
          rw [List.length_singleton, List.drop_drop]
          exact List.drop_eq_nil_of_le (by omega)
        rw [BlockHeap.moved_write hcount (by rw [List.length_singleton, List.length_drop]; omega),
          hend, List.append_nil]
      refine ⟨⟨some h.next, bytes.length⟩, h.moved none (bytes ++ [0]), ?_,
        ⟨.block BlockHeap.block_moved_next, by rwa [hcount]⟩,
        fun b hb => BlockHeap.block_moved_of_ne hb (by simp)⟩
      rw [substr, if_neg hfirst]
      simp only [hret, Nat.mod_eq_of_lt (show n + 1 < 2 ^ 64 by omega), halloc, hread,
        hfront, hnul, Option.bind_eq_bind, Option.bind_some, hcount]
      rfl

end Making

end StringObject

/-! ### Pieces in a list -/

namespace TString

/-- `tmp` goes to `out` if it is not empty; what `append` answers is not looked at. -/
def appendPiece (w : ℕ) (g : Supply TString) (tmp : TString) (out : ArrayList)
    (h : BlockHeap TString) : Option (ArrayList × BlockHeap TString) :=
  if tmp = [] then some (out, h) else (out.append w (.values [tmp]) g h).map (·.2)

/-- A string that is passed by reference, at the time it is read. -/
def readString (h : BlockHeap TString) (s : Source TString) : Option TString :=
  (s.get h).bind List.head?

/-- The loop of `split` from the index `i` on; the string and the key are read in each round. -/
def splitIntoLoop (w : ℕ) (g : ℕ → Supply TString) (this key : Source TString) :
    ℕ → ℕ → TString → ArrayList → BlockHeap TString → Option (ArrayList × BlockHeap TString)
  | 0, _, _, _, _ => none
  | fuel + 1, i, tmp, out, h => do
      let s ← readString h this
      if i < s.length then
        let k ← readString h key
        if startsWith k (s.drop i) then
          let r ← appendPiece w (g i) tmp out h
          splitIntoLoop w g this key fuel (i + k.length) [] r.1 r.2
        else splitIntoLoop w g this key fuel (i + 1) (push tmp (s.getD i 0)) out h
      else appendPiece w (g i) tmp out h

/-- `split`, with the list that it fills. -/
def splitInto (w : ℕ) (g : ℕ → Supply TString) (this key : Source TString) (out : ArrayList)
    (h : BlockHeap TString) : Option (ArrayList × BlockHeap TString) := do
  let k ← readString h key
  if k.length = 0 then (out.clear.append w key (g 0) h).map (·.2)
  else
    let s ← readString h this
    splitIntoLoop w g this key (s.length + 1) 0 [] out.clear h

section Pieces

variable {h h' : BlockHeap TString} {a a' : ArrayList} {vs vs' : List TString} {s k tmp : TString}
  {this key src : Source TString} {w i : ℕ} {g : ℕ → Supply TString}

lemma readString_eq (hget : src.get h = some [s]) : readString h src = some s := by
  rw [readString, hget]
  rfl

/-- `append` keeps the capacity, or lets it grow. -/
lemma capacity_of_append {x : Source TString} {ok : Bool} {q : Supply TString}
    (happend : a.append w x q h = some (ok, a', h')) :
    a'.capacity = a.capacity ∨
      a.size = a.capacity ∧ a'.capacity = ArrayList.grown a.capacity % 2 ^ 64 := by
  have hstore : ∀ b k, ArrayList.store x b k = some (ok, a', h') → a'.capacity = b.capacity := by
    intro b k hstore
    rw [ArrayList.store] at hstore
    obtain ⟨bytes, -, hwrite⟩ := Option.bind_eq_some_iff.mp hstore
    obtain ⟨k', -, hresult⟩ := Option.bind_eq_some_iff.mp hwrite
    obtain ⟨-, rfl, -⟩ : _ ∧ _ ∧ _ := by simpa using hresult
    rfl
  rw [ArrayList.append] at happend
  by_cases hfull : a.size = a.capacity
  · rw [if_pos hfull] at happend
    cases hq : (if ArrayList.grown a.capacity % 2 ^ 64 = 0 then none else q) with
    | none =>
        simp only [hq, Option.elim_none] at happend
        obtain ⟨-, rfl, -⟩ : _ ∧ _ ∧ _ := by simpa using happend
        exact .inl rfl
    | some found =>
        simp only [hq, Option.elim_some] at happend
        obtain ⟨r, hreplace, hrest⟩ := Option.bind_eq_some_iff.mp happend
        rw [ArrayList.replace] at hreplace
        obtain ⟨elements, -, hwrite⟩ := Option.bind_eq_some_iff.mp hreplace
        obtain ⟨k, -, hfree⟩ := Option.bind_eq_some_iff.mp hwrite
        have hr : r.1.capacity = ArrayList.grown a.capacity % 2 ^ 64 := by
          split_ifs at hfree
          · obtain ⟨k', -, hresult⟩ := Option.bind_eq_some_iff.mp hfree
            rw [← Option.some.inj hresult]
          · obtain ⟨k', -, hresult⟩ := Option.bind_eq_some_iff.mp hfree
            rw [← Option.some.inj hresult]
        exact .inr ⟨hfull, (hstore _ _ hrest).trans hr⟩
  · rw [if_neg hfull] at happend
    exact .inl (hstore _ _ happend)

/-- The storage of a list after an operation is the old one or a new one. -/
lemma data_of_becomes (hb : Becomes h a a' h' vs) :
    a'.data = a.data ∨ a'.data = some h.next := by
  cases hb with
  | sized hs => exact .inl rfl
  | written hdata hp hle hpos => exact .inl hdata.symm
  | moved hle hpos => exact .inr rfl

/-- What is read is not in storage that is still to come. -/
lemma not_at_next (hf : h.Fresh) (hget : src.get h = some [s]) : ¬ src.At (some h.next) := by
  intro hat
  cases src with
  | values vs => exact hat
  | range p j n =>
      obtain rfl : p = some h.next := hat
      rw [Source.get, BlockHeap.read] at hget
      split_ifs at hget with hn
      · cases hget
      · simp only [Option.bind_eq_bind, Option.bind_some, hf _ le_rfl, Option.bind_none] at hget
        cases hget

/-- A string that is read where the list is not. -/
structure Beside (h : BlockHeap TString) (a : ArrayList) (src : Source TString) (s : TString) :
    Prop where
  get : src.get h = some [s]
  away : ¬ src.At a.data

lemma Beside.becomes (hs : Beside h a src s) (hf : h.Fresh) (hb : Becomes h a a' h' vs) :
    Beside h' a' src s where
  get := src.get_later hb hf hs.away hs.get
  away := by
    rcases data_of_becomes hb with hdata | hdata
    · rw [hdata]
      exact hs.away
    · rw [hdata]
      exact not_at_next hf hs.get

/-- The condition for one more piece: the memory is granted and the request for it a word, and a
list of capacity one has no piece yet. -/
structure CanAdd (w : ℕ) (q : Supply TString) (a : ArrayList) : Prop where
  granted : q ≠ none
  fits : RequestFits w (ArrayList.grown a.size)
  one : a.size = 1 → a.capacity ≠ 1

lemma appendPiece_becomes {q : Supply TString} (hw : 0 < w) (hs : Stored h a vs) (hf : h.Fresh)
    (hc : tmp ≠ [] → CanAdd w q a) :
    ∃ a' h', appendPiece w q tmp a h = some (a', h') ∧ Becomes h a a' h' (addPiece tmp vs) ∧
      (a'.capacity = 1 → a.capacity = 1) := by
  rw [appendPiece, addPiece]
  by_cases htmp : tmp = []
  · rw [if_pos htmp, if_pos htmp]
    exact ⟨a, h, rfl, .sized hs, id⟩
  · rw [if_neg htmp, if_neg htmp]
    have hadd := hc htmp
    have hcan : CanAppend w (.values [tmp]) a q := by
      intro hfull _
      refine ⟨fun hone => hadd.one (hfull.trans hone) hone, ?_, id⟩
      rw [← hfull]
      exact hadd.fits
    obtain ⟨a', h', happend, hb⟩ :=
      append_becomes hw hs hf (x := .values [tmp]) rfl rfl hcan fun _ => hadd.granted
    refine ⟨a', h', by rw [happend]; rfl, hb, fun hone => ?_⟩
    rcases capacity_of_append happend with hsame | ⟨hfull, hgrown⟩
    · rwa [← hsame]
    · by_contra hne
      have hlt := lt_grown hne
      have hmul := Nat.le_mul_of_pos_left (ArrayList.grown a.size) hw
      have hfits := hadd.fits
      rw [RequestFits] at hfits
      rw [hfull] at hfits hmul
      rw [hone, Nat.mod_eq_of_lt (by omega)] at hgrown
      have hzero : a.capacity = 0 := by omega
      rw [hzero] at hgrown
      cases hgrown

/-- What is in the list stays there. -/
lemma length_le_splitLoop (key : TString) (skip : ℕ) (tmp : TString) (out : List TString)
    (s : TString) : out.length ≤ (splitLoop key skip tmp out s).length := by
  have hadd : ∀ (tmp : TString) (out : List TString), out.length ≤ (addPiece tmp out).length := by
    intro tmp out
    rw [addPiece]
    split_ifs
    · exact le_rfl
    · rw [List.length_append]
      omega
  induction s generalizing skip tmp out with
  | nil =>
      rw [splitLoop]
      exact hadd tmp out
  | cons c s ih =>
      cases skip with
      | succ skip =>
          rw [splitLoop]
          exact ih skip tmp out
      | zero =>
          rw [splitLoop]
          split_ifs
          · exact (hadd tmp out).trans (ih _ _ _)
          · exact ih _ _ _

/-- There is memory for a piece, among those that the string can have. -/
lemma CanAdd.of_le (hg : g i ≠ none) (hfits : RequestFits w (2 * s.length + 16))
    (hsize : a.size ≤ s.length) (hone : a.size = 1 → a.capacity ≠ 1) : CanAdd w (g i) a := by
  refine ⟨hg, ?_, hone⟩
  have hle : ArrayList.grown a.size ≤ 2 * s.length + 16 := by
    rw [ArrayList.grown]
    split_ifs <;> omega
  have hmul := Nat.mul_le_mul_left w hle
  rw [RequestFits] at hfits ⊢
  omega

/-- **The loop of `split`** gets the pieces into the list. -/
lemma splitIntoLoop_spec (hw : 0 < w) (hk : k ≠ []) (hg : ∀ i, g i ≠ none)
    (hfits : RequestFits w (2 * s.length + 16)) (fuel : ℕ) (hfuel : s.length < i + fuel)
    (hfuel' : 0 < fuel) (hs : Stored h a vs) (hf : h.Fresh) (hthis : Beside h a this s)
    (hkey : Beside h a key k) (hlen : vs.length + tmp.length ≤ min i s.length)
    (hone : a.capacity = 1 → (splitLoop k 0 tmp vs (s.drop i)).length ≤ 1) :
    ∃ a' h', splitIntoLoop w g this key fuel i tmp a h = some (a', h') ∧
      Stored h' a' (splitLoop k 0 tmp vs (s.drop i)) := by
  induction fuel generalizing i tmp vs a h with
  | zero => omega
  | succ fuel ih =>
      have hsize := hs.length
      -- a list of capacity one is not full if there is one more piece
      have hadd : ∀ rest,
          splitLoop k 0 tmp vs (s.drop i) = splitLoop k 0 [] (addPiece tmp vs) rest ∨
            splitLoop k 0 tmp vs (s.drop i) = addPiece tmp vs → tmp ≠ [] → CanAdd w (g i) a := by
        intro rest hrest htmp
        refine .of_le (hg i) hfits (by omega) fun hfull hcap => ?_
        have hmore : (addPiece tmp vs).length ≤ (splitLoop k 0 tmp vs (s.drop i)).length := by
          rcases hrest with hrest | hrest
          · rw [hrest]
            exact length_le_splitLoop ..
          · rw [hrest]
        have htwo := hone hcap
        rw [addPiece, if_neg htmp, List.length_append, List.length_singleton] at hmore
        omega
      rw [splitIntoLoop]
      simp only [readString_eq hthis.get, readString_eq hkey.get, Option.bind_eq_bind,
        Option.bind_some]
      by_cases hlt : i < s.length
      · rw [if_pos hlt]
        have hcons : s.drop i = s[i] :: s.drop (i + 1) := List.drop_eq_getElem_cons hlt
        by_cases hstart : startsWith k (s.drop i) = true
        · rw [if_pos hstart]
          have hkpos := List.length_pos_of_ne_nil hk
          have hdrop : (s.drop (i + 1)).drop (k.length - 1) = s.drop (i + k.length) := by
            rw [List.drop_drop]
            congr 1
            omega
          have hnext : splitLoop k 0 tmp vs (s.drop i) =
              splitLoop k 0 [] (addPiece tmp vs) (s.drop (i + k.length)) := by
            rw [hcons] at hstart ⊢
            rw [splitLoop, if_pos hstart, splitLoop_skip, hdrop]
          obtain ⟨a', h', hpiece, hb, hcap⟩ :=
            appendPiece_becomes hw hs hf (hadd _ (.inl hnext))
          rw [hnext] at hone ⊢
          simp only [hpiece, Option.bind_some]
          refine ih (by omega) ?_ hb.stored (hb.fresh hf) (hthis.becomes hf hb)
            (hkey.becomes hf hb) ?_ fun h => hone (hcap h)
          · omega
          rw [addPiece]
          split_ifs with htmp
          · rw [List.length_nil]
            omega
          · have hpos := List.length_pos_of_ne_nil htmp
            rw [List.length_append, List.length_singleton, List.length_nil]
            omega
        · rw [if_neg hstart]
          have hnext : splitLoop k 0 tmp vs (s.drop i) =
              splitLoop k 0 (push tmp (s.getD i 0)) vs (s.drop (i + 1)) := by
            rw [hcons] at hstart ⊢
            rw [splitLoop, if_neg hstart, List.getD_eq_getElem?_getD,
              List.getElem?_eq_getElem hlt, Option.getD_some]
          rw [hnext] at hone ⊢
          refine ih (by omega) (by omega) hs hf hthis hkey ?_ hone
          rw [push]
          split_ifs
          · omega
          · rw [List.length_append, List.length_singleton]
            omega
      · have hend : splitLoop k 0 tmp vs (s.drop i) = addPiece tmp vs := by
          rw [List.drop_eq_nil_of_le (not_lt.mp hlt), splitLoop]
        rw [if_neg hlt]
        obtain ⟨a', h', hpiece, hb, -⟩ := appendPiece_becomes hw hs hf (hadd [] (.inr hend))
        rw [hend]
        exact ⟨a', h', hpiece, hb.stored⟩

/-- **`split`** fills the list with the pieces, when neither the string nor the key is in it. -/
lemma splitInto_spec (hw : 0 < w) (hk : k ≠ []) (hg : ∀ i, g i ≠ none)
    (hfits : RequestFits w (2 * s.length + 16)) (hs : Stored h a vs) (hf : h.Fresh)
    (hthis : Beside h a this s) (hkey : Beside h a key k)
    (hone : a.capacity = 1 → (split s k).length ≤ 1) :
    ∃ a' h', splitInto w g this key a h = some (a', h') ∧ Stored h' a' (split s k) := by
  have hklen : k.length ≠ 0 := mt List.length_eq_zero_iff.mp hk
  have hclear : Stored h a.clear [] := hs.shrink (Nat.zero_le _)
  have hsplit : split s k = splitLoop k 0 [] [] (s.drop 0) := if_neg hklen
  rw [hsplit] at hone ⊢
  rw [splitInto]
  simp only [readString_eq hkey.get, readString_eq hthis.get, if_neg hklen, Option.bind_eq_bind,
    Option.bind_some]
  exact splitIntoLoop_spec hw hk hg hfits (s.length + 1) (by omega) (Nat.succ_pos _) hclear hf
    ⟨hthis.get, hthis.away⟩ ⟨hkey.get, hkey.away⟩ (by simp) hone

end Pieces

end TString

/-! ### The operations are those of lists -/

open StringObject TString

end Adl
