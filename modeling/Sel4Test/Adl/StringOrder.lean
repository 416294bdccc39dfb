import Mathlib.Data.List.Lex
import Sel4Test.Adl.StringObject

/-!
The comparison operators of `adl/TString.cc`, of a string with a string and with a C string.

`char` is signed or not as the target has it, so the characters are of any type with a linear
order. The operators read `content` and `len`, and a sum of lengths is a word.

* `Spells`: the characters of a string, and a place for the NUL behind them.
* `scan_eq`: the loop of `<` and `>` is the lexicographic order.
* `lt_eq`, `gt_eq`, `eq_eq`: the operators of two strings.
* `ordered`: two strings are ordered as their characters are.
* `agree_iff`: the overloads for C strings agree, but for the own content of a string.
-/

namespace Adl

namespace StringObject

variable {α : Type} [Zero α] [LinearOrder α]

/-- The loop of `operator <` and of `operator >`, with the order it has. -/
def scan (before : α → α → Prop) [DecidableRel before] (h : BlockHeap α) (p q : CString)
    (last : Bool) : ℕ → ℕ → Option Bool
  | 0, _ => some last
  | n + 1, i => do
      let x ← p.charAt h i
      let y ← q.charAt h i
      if before x y then some true
      else if before y x then some false
      else scan before h p q last n (i + 1)

/-- `operator >`, for `n` characters and `m` characters of another string. -/
def greater (h : BlockHeap α) (p : CString) (n : ℕ) (q : CString) (m : ℕ) : Option Bool :=
  if (n + m) % 2 ^ 64 = 0 ∨ n = 0 then some false
  else if m = 0 then some true
  else scan (· > ·) h p q (n > m) (if n < m then n else m) 0

/-- `operator <`, for `n` characters and `m` characters of another string. -/
def less (h : BlockHeap α) (p : CString) (n : ℕ) (q : CString) (m : ℕ) : Option Bool :=
  if (n + m) % 2 ^ 64 = 0 ∨ m = 0 then some false
  else if n = 0 then some true
  else scan (· < ·) h p q (n < m) (if n < m then n else m) 0

/-- The loop of `operator ==`. -/
def same (h : BlockHeap α) (p q : CString) : ℕ → ℕ → Option Bool
  | 0, _ => some true
  | n + 1, i => do
      let x ← p.charAt h i
      let y ← q.charAt h i
      if x ≠ y then some false else same h p q n (i + 1)

/-- `operator ==`. -/
def eq (h : BlockHeap α) (a b : StringObject) : Option Bool :=
  if a.content = b.content then some true
  else if a.len ≠ b.len then some false
  else if a.content = none ∨ b.content = none then some false
  else same h a.cStr b.cStr a.len 0

/-- `operator ==` of a C string. -/
def eqC (h : BlockHeap α) (a : StringObject) (str : CString) : Option Bool :=
  if str = a.cStr then some true
  else do
    let empty ← str.isEmpty h
    if empty then return a.len = 0
    else if a.len = 0 then return false
    else
      let lenOfStr ← str.strlen h
      if lenOfStr ≠ a.len then return false else same h str a.cStr lenOfStr 0

/-- `operator !=`. -/
def ne (h : BlockHeap α) (a b : StringObject) : Option Bool := (a.eq h b).map not

/-- `operator !=` of a C string. -/
def neC (h : BlockHeap α) (a : StringObject) (str : CString) : Option Bool :=
  (a.eqC h str).map not

/-- `operator >`. -/
def gt (h : BlockHeap α) (a b : StringObject) : Option Bool :=
  greater h a.cStr a.len b.cStr b.len

/-- `operator >` of a C string. -/
def gtC (h : BlockHeap α) (a : StringObject) (str : CString) : Option Bool := do
  let lengthOfStr ← str.lengthOf h
  greater h a.cStr a.len str lengthOfStr

/-- `operator <`. -/
def lt (h : BlockHeap α) (a b : StringObject) : Option Bool :=
  less h a.cStr a.len b.cStr b.len

/-- `operator <` of a C string. -/
def ltC (h : BlockHeap α) (a : StringObject) (str : CString) : Option Bool := do
  let lengthOfStr ← str.lengthOf h
  less h a.cStr a.len str lengthOfStr

/-- `operator >=`. -/
def ge (h : BlockHeap α) (a b : StringObject) : Option Bool := (a.lt h b).map not

/-- `operator >=` of a C string. -/
def geC (h : BlockHeap α) (a : StringObject) (str : CString) : Option Bool :=
  (a.ltC h str).map not

/-- `operator <=`. -/
def le (h : BlockHeap α) (a b : StringObject) : Option Bool := (a.gt h b).map not

/-- `operator <=` of a C string. -/
def leC (h : BlockHeap α) (a : StringObject) (str : CString) : Option Bool :=
  (a.gtC h str).map not

/-- `operator >` of a C string and a string. -/
def cGt (h : BlockHeap α) (strA : CString) (strB : StringObject) : Option Bool := strB.ltC h strA

/-- `operator <` of a C string and a string. -/
def cLt (h : BlockHeap α) (strA : CString) (strB : StringObject) : Option Bool := strB.gtC h strA

/-- `operator >=` of a C string and a string. -/
def cGe (h : BlockHeap α) (strA : CString) (strB : StringObject) : Option Bool := strB.leC h strA

/-- `operator <=` of a C string and a string. -/
def cLe (h : BlockHeap α) (strA : CString) (strB : StringObject) : Option Bool := strB.geC h strA

/-- `operator ==` of a C string and a string. -/
def cEq (h : BlockHeap α) (strA : CString) (strB : StringObject) : Option Bool := strB.eqC h strA

/-- `operator !=` of a C string and a string. -/
def cNe (h : BlockHeap α) (strA : CString) (strB : StringObject) : Option Bool := strB.neC h strA

/-! ### The loops -/

section Loops

variable {h : BlockHeap α} {p q : CString} {i n m : ℕ} {xs ys : List α}

omit [Zero α] in
/-- **The loop is the lexicographic order**, up to the end of the shorter string. -/
lemma scan_eq (hx : p.Reads h i xs) (hy : q.Reads h i ys) :
    scan (· < ·) h p q (xs.length < ys.length) (min xs.length ys.length) i =
      some (decide (xs < ys)) := by
  induction xs generalizing ys i with
  | nil =>
      rw [List.length_nil, Nat.zero_min, scan]
      cases ys with
      | nil => simp
      | cons y ys => simp
  | cons x xs ih =>
      cases ys with
      | nil => simp [scan]
      | cons y ys =>
          obtain ⟨hx, hxs⟩ := hx
          obtain ⟨hy, hys⟩ := hy
          rw [List.length_cons, List.length_cons, Nat.add_min_add_right, scan, hx, hy]
          simp only [Option.bind_eq_bind, Option.bind_some, List.cons_lt_cons_iff,
            Nat.add_lt_add_iff_right]
          rcases lt_trichotomy x y with hlt | rfl | hgt
          · rw [if_pos hlt]
            simp [hlt]
          · rw [if_neg (lt_irrefl _), if_neg (lt_irrefl _), ih hxs hys]
            simp
          · rw [if_neg hgt.not_gt, if_pos hgt]
            simp [hgt.not_gt, hgt.ne']

omit [Zero α] in
/-- The loop of `>` is that of `<` with the strings exchanged. -/
lemma scan_swap {last : Bool} :
    scan (· > ·) h p q last n i = scan (· < ·) h q p last n i := by
  induction n generalizing i with
  | zero => rfl
  | succ n ih =>
      rw [scan, scan]
      cases p.charAt h i with
      | none => cases q.charAt h i <;> rfl
      | some x =>
          cases q.charAt h i with
          | none => rfl
          | some y =>
              simp only [Option.bind_eq_bind, Option.bind_some, gt_iff_lt, ih]

omit [Zero α] in
lemma greater_eq_less : greater h p n q m = less h q m p n := by
  rw [greater, less, Nat.add_comm, scan_swap]
  have hmin : (if n < m then n else m) = if m < n then m else n := by
    split_ifs <;> omega
  rw [hmin]

omit [Zero α] in
/-- **`operator <`**, where the sum of the lengths is a word, or nothing depends on it. -/
lemma less_eq (hx : p.Reads h 0 xs) (hy : q.Reads h 0 ys)
    (hword : xs = ys ∨ xs.length + ys.length < 2 ^ 64) :
    less h p xs.length q ys.length = some (decide (xs < ys)) := by
  rw [less]
  by_cases hfirst : (xs.length + ys.length) % 2 ^ 64 = 0 ∨ ys.length = 0
  · have hnot : ¬ xs < ys := by
      rcases hword with rfl | hword
      · exact lt_irrefl _
      · rw [Nat.mod_eq_of_lt hword] at hfirst
        obtain rfl : ys = [] := List.length_eq_zero_iff.mp (by omega)
        exact List.not_lt_nil xs
    rw [if_pos hfirst, decide_eq_false hnot]
  · rw [if_neg hfirst]
    by_cases hx0 : xs = []
    · subst hx0
      obtain ⟨y, ys, rfl⟩ := List.exists_cons_of_ne_nil (l := ys) (by
        rintro rfl
        exact hfirst (.inr rfl))
      rw [if_pos List.length_nil, decide_eq_true (List.nil_lt_cons y ys)]
    · have hpos := List.length_pos_of_ne_nil hx0
      have hmin : (if xs.length < ys.length then xs.length else ys.length) =
          min xs.length ys.length := by
        split_ifs <;> omega
      rw [if_neg (by omega), hmin, scan_eq hx hy]

omit [Zero α] in
/-- The loop of `==`, for as many characters on both sides. -/
lemma same_eq (hx : p.Reads h i xs) (hy : q.Reads h i ys) (hlen : xs.length = ys.length) :
    same h p q xs.length i = some (decide (xs = ys)) := by
  induction xs generalizing ys i with
  | nil =>
      obtain rfl := (List.length_eq_zero_iff.mp hlen.symm)
      rfl
  | cons x xs ih =>
      cases ys with
      | nil => cases hlen
      | cons y ys =>
          obtain ⟨hx, hxs⟩ := hx
          obtain ⟨hy, hys⟩ := hy
          rw [List.length_cons, same, hx, hy]
          simp only [Option.bind_eq_bind, Option.bind_some, List.cons.injEq]
          by_cases hxy : x = y
          · rw [if_neg (not_not.mpr hxy), ih hxs hys (Nat.succ.inj hlen)]
            simp [hxy]
          · rw [if_pos hxy]
            simp [hxy]

end Loops

/-! ### The order -/

/-- What a total order is for two strings: exactly one of `<`, `==` and `>` holds, `<=` and `>=`
are the closures, and the operators are those of the sequences of characters. -/
structure Ordered (h : BlockHeap α) (a b : StringObject) (ca cb : List α) : Prop where
  one : ∃ x y z : Bool, a.lt h b = some x ∧ a.eq h b = some y ∧ a.gt h b = some z ∧
    x.toNat + y.toNat + z.toNat = 1
  le : a.le h b = do return (← a.lt h b) || (← a.eq h b)
  ge : a.ge h b = do return (← a.gt h b) || (← a.eq h b)
  lt : a.lt h b = some (decide (ca < cb))
  eq : a.eq h b = some (decide (ca = cb))
  gt : a.gt h b = some (decide (cb < ca))
  ne : a.ne h b = some (decide (ca ≠ cb))

/-- The operators of the string `a` and a C string `str` are those of `a` and the string `d` that
is constructed from `str`, on both sides. -/
structure Agree (h : BlockHeap α) (a : StringObject) (str : CString) (h' : BlockHeap α)
    (d : StringObject) : Prop where
  eq : a.eqC h str = a.eq h' d ∧ cEq h str a = d.eq h' a
  ne : a.neC h str = a.ne h' d ∧ cNe h str a = d.ne h' a
  lt : a.ltC h str = a.lt h' d ∧ cLt h str a = d.lt h' a
  gt : a.gtC h str = a.gt h' d ∧ cGt h str a = d.gt h' a
  le : a.leC h str = a.le h' d ∧ cLe h str a = d.le h' a
  ge : a.geC h str = a.ge h' d ∧ cGe h str a = d.ge h' a

/-- The characters of a string in memory: they are in its content, with one more place behind
them, and a string without characters has no content. -/
inductive Spells (h : BlockHeap α) : StringObject → List α → Prop
  | empty : Spells h ⟨none, 0⟩ []
  | block {p : ℕ} {cs : List α} {x : α} (hp : h.block p = some (cs ++ [x])) (hne : cs ≠ []) :
      Spells h ⟨some p, cs.length⟩ cs

section Order

variable {h h' : BlockHeap α} {a b c d : StringObject} {ca cb cc cp : List α} {p : CString}

namespace Spells

omit [Zero α] [LinearOrder α]

lemma length (ha : a.Spells h ca) : ca.length = a.len := by
  cases ha with
  | empty => rfl
  | block hp hne => rfl

lemma reads (ha : a.Spells h ca) : a.cStr.Reads h 0 ca := by
  cases ha with
  | empty => trivial
  | block hp hne => exact CString.reads_block hp rfl

/-- There is one kind of empty string. -/
lemma eq_nil_iff (ha : a.Spells h ca) : ca = [] ↔ a.content = none := by
  cases ha with
  | empty => simp
  | block hp hne => simp [hne]

/-- A string is in the heap as long as its content is. -/
lemma congr (ha : a.Spells h ca) (hsame : ∀ p, a.content = some p → h'.block p = h.block p) :
    a.Spells h' ca := by
  cases ha with
  | empty => exact .empty
  | block hp hne => exact .block ((hsame _ rfl).trans hp) hne

lemma ne_next (ha : a.Spells h ca) (hf : h.Fresh) : a.content ≠ some h.next := by
  cases ha with
  | empty => simp
  | block hp hne =>
      intro hnext
      rw [Option.some.inj hnext, hf _ le_rfl] at hp
      cases hp

/-- Strings with the same content have the same characters. -/
lemma eq_of_content (ha : a.Spells h ca) (hb : b.Spells h cb)
    (hsame : a.content = b.content) : ca = cb := by
  cases ha with
  | empty => exact (hb.eq_nil_iff.mpr hsame.symm).symm
  | block hp hne =>
      cases hb with
      | empty => cases hsame
      | block hq hne' =>
          rw [Option.some.inj hsame] at hp
          exact (List.append_inj' (Option.some.inj (hp.symm.trans hq)) rfl).1

/-- The lengths of two strings that are in memory have a word for their sum. -/
lemma sum_lt (hm : h.Within (2 ^ 64)) (ha : a.Spells h ca) (hb : b.Spells h cb) :
    ca = cb ∨ ca.length + cb.length < 2 ^ 64 := by
  by_cases hsame : a.content = b.content
  · exact .inl (ha.eq_of_content hb hsame)
  · refine .inr ?_
    cases ha with
    | empty =>
        cases hb with
        | empty => exact absurd rfl hsame
        | block hq hne =>
            have hlen := hm.one hq
            rw [List.length_append, List.length_singleton] at hlen
            rw [List.length_nil]
            omega
    | block hp hne =>
        cases hb with
        | empty =>
            have hlen := hm.one hp
            rw [List.length_append, List.length_singleton] at hlen
            rw [List.length_nil]
            omega
        | block hq hne' =>
            have hlen := hm.two (fun h => hsame (congrArg some h)) hp hq
            rw [List.length_append, List.length_append, List.length_singleton] at hlen
            omega

end Spells

omit [LinearOrder α] in
/-- What a constructor leaves, where there is no content without characters. -/
lemma Made.spells {cs : List α} (hmade : Made h cs d h') (hnone : d.content = none ↔ cs = []) :
    d.Spells h' cs := by
  have hholds := hmade.holds
  cases hholds with
  | empty => exact .empty
  | block hp => exact .block hp fun hnil => by simp [hnil] at hnone

omit [Zero α] in
lemma lt_eq (hm : h.Within (2 ^ 64)) (ha : a.Spells h ca) (hb : b.Spells h cb) :
    a.lt h b = some (decide (ca < cb)) := by
  rw [lt, ← ha.length, ← hb.length, less_eq ha.reads hb.reads (ha.sum_lt hm hb)]

omit [Zero α] in
lemma gt_eq (hm : h.Within (2 ^ 64)) (ha : a.Spells h ca) (hb : b.Spells h cb) :
    a.gt h b = some (decide (cb < ca)) := by
  rw [gt, greater_eq_less]
  exact lt_eq hm hb ha

omit [Zero α] in
/-- **`operator ==`** is that of the characters. -/
lemma eq_eq (ha : a.Spells h ca) (hb : b.Spells h cb) :
    a.eq h b = some (decide (ca = cb)) := by
  rw [eq]
  by_cases hsame : a.content = b.content
  · rw [if_pos hsame, decide_eq_true (ha.eq_of_content hb hsame)]
  · rw [if_neg hsame, ← ha.length, ← hb.length]
    by_cases hlen : ca.length = cb.length
    · rw [if_neg (not_not.mpr hlen)]
      by_cases hnone : a.content = none ∨ b.content = none
      · -- one string is empty, so the other one is not
        have hnot : ¬ ca = cb := by
          rintro rfl
          have hboth : a.content = none ↔ b.content = none :=
            ha.eq_nil_iff.symm.trans hb.eq_nil_iff
          have ha' : a.content = none := hnone.elim id hboth.mpr
          exact hsame (ha'.trans (hboth.mp ha').symm)
        rw [if_pos hnone, decide_eq_false hnot]
      · rw [if_neg hnone, same_eq ha.reads hb.reads hlen]
    · rw [if_pos hlen, decide_eq_false fun h => hlen (congrArg List.length h)]

omit [Zero α] in
/-- **Two strings are ordered** as their characters are. -/
lemma ordered (hm : h.Within (2 ^ 64)) (ha : a.Spells h ca) (hb : b.Spells h cb) :
    Ordered h a b ca cb := by
  have hlt := lt_eq hm ha hb
  have hgt := gt_eq hm ha hb
  have heq := eq_eq ha hb
  have htotal := lt_trichotomy ca cb
  refine ⟨⟨_, _, _, hlt, heq, hgt, ?_⟩, ?_, ?_, hlt, heq, hgt, ?_⟩
  · rcases htotal with h | rfl | h
    · simp [h, h.ne, h.not_gt]
    · simp
    · simp [h, h.ne', h.not_gt]
  · rw [le, hgt, hlt, heq]
    rcases htotal with h | rfl | h
    · simp [h, h.not_gt]
    · simp
    · simp [h, h.ne', h.not_gt]
  · rw [ge, hgt, hlt, heq]
    rcases htotal with h | rfl | h
    · simp [h, h.ne, h.not_gt]
    · simp
    · simp [h, h.not_gt]
  · rw [ne, heq]
    simp

omit [Zero α] in
/-- **`operator <`** of strings is transitive. -/
lemma lt_trans_of_spells (hm : h.Within (2 ^ 64)) (ha : a.Spells h ca) (hb : b.Spells h cb)
    (hc : c.Spells h cc) (hab : a.lt h b = some true) (hbc : b.lt h c = some true) :
    a.lt h c = some true := by
  rw [lt_eq hm ha hb] at hab
  rw [lt_eq hm hb hc] at hbc
  rw [lt_eq hm ha hc, decide_eq_true]
  have hab' := of_decide_eq_true (Option.some.inj hab)
  have hbc' := of_decide_eq_true (Option.some.inj hbc)
  exact hab'.trans hbc'

/-- `operator ==` of a C string, which asks for the length where there are no characters. -/
lemma eqC_eq (ha : a.Spells h ca) (hp : p.Holds h cp) :
    a.eqC h p = some (decide (p = a.cStr ∨ ca = cp)) := by
  rw [eqC]
  by_cases hsame : p = a.cStr
  · rw [if_pos hsame, decide_eq_true (.inl hsame)]
  · rw [if_neg hsame, hp.isEmpty, ← ha.length]
    simp only [Option.bind_eq_bind, Option.bind_some, decide_eq_true_eq, hsame, false_or]
    by_cases hcp : cp = []
    · rw [if_pos hcp, hcp]
      simp
    · have hne : p ≠ .null := by
        rintro rfl
        cases hp
        exact hcp rfl
      rw [if_neg hcp, hp.strlen hne]
      by_cases hca : ca = []
      · have hnot : ¬ ca = cp := by
          rintro rfl
          exact hcp hca
        rw [if_pos (List.length_eq_zero_iff.mpr hca), decide_eq_false hnot]
        rfl
      · rw [if_neg (mt List.length_eq_zero_iff.mp hca), Option.bind_some]
        by_cases hlen : cp.length = ca.length
        · rw [if_neg (not_not.mpr hlen), same_eq hp.reads ha.reads hlen]
          simp only [eq_comm]
        · rw [if_pos hlen, decide_eq_false fun h => hlen (congrArg List.length h.symm)]
          rfl

lemma ltC_eq (ha : a.Spells h ca) (hp : p.Holds h cp)
    (hword : ca = cp ∨ ca.length + cp.length < 2 ^ 64) :
    a.ltC h p = some (decide (ca < cp)) := by
  rw [ltC, hp.lengthOf, Option.bind_eq_bind, Option.bind_some, ← ha.length,
    less_eq ha.reads hp.reads hword]

lemma gtC_eq (ha : a.Spells h ca) (hp : p.Holds h cp)
    (hword : ca = cp ∨ ca.length + cp.length < 2 ^ 64) :
    a.gtC h p = some (decide (cp < ca)) := by
  rw [gtC, hp.lengthOf, Option.bind_eq_bind, Option.bind_some, ← ha.length, greater_eq_less,
    less_eq hp.reads ha.reads (by rwa [eq_comm, Nat.add_comm])]

/-- **The overloads agree** unless the C string is the content of the string and ends before. -/
lemma agree_iff {found : ℕ → α} (hf : h.Fresh) (ha : a.Spells h ca) (hp : p.Holds h cp)
    (hd : ofCString p found h = some (d, h')) (hm : h'.Within (2 ^ 64)) :
    Agree h a p h' d ↔ (p = a.cStr → ca = cp) := by
  obtain ⟨hmade, hnone⟩ := ofCString_made hf hp hd
  have hd' : d.Spells h' cp := hmade.spells hnone
  have ha' : a.Spells h' ca := ha.congr fun q hq => hmade.frame q fun h =>
    ha.ne_next hf (h ▸ hq)
  have heqC := eqC_eq ha hp
  have heq := eq_eq ha' hd'
  have heq' := eq_eq hd' ha'
  constructor
  · intro hagree hpa
    have hsame := hagree.eq.1
    rw [heqC, heq] at hsame
    exact (decide_eq_decide.mp (Option.some.inj hsame)).mp (.inl hpa)
  · intro hown
    have hiff : (p = a.cStr ∨ ca = cp) ↔ ca = cp := ⟨fun h => h.elim hown id, .inr⟩
    have hword := ha'.sum_lt hm hd'
    have hlt := ltC_eq ha hp hword
    have hgt := gtC_eq ha hp hword
    have hd1 : a.eqC h p = a.eq h' d := by rw [heqC, heq, decide_eq_decide.mpr hiff]
    have hd2 : a.eqC h p = d.eq h' a := by
      rw [heqC, heq', decide_eq_decide.mpr (hiff.trans eq_comm)]
    have hlt1 : a.ltC h p = a.lt h' d := hlt.trans (lt_eq hm ha' hd').symm
    have hlt2 : a.gtC h p = d.lt h' a := hgt.trans (lt_eq hm hd' ha').symm
    have hgt1 : a.gtC h p = a.gt h' d := hgt.trans (gt_eq hm ha' hd').symm
    have hgt2 : a.ltC h p = d.gt h' a := hlt.trans (gt_eq hm hd' ha').symm
    exact ⟨⟨hd1, hd2⟩, ⟨congrArg _ hd1, congrArg _ hd2⟩, ⟨hlt1, hlt2⟩, ⟨hgt1, hgt2⟩,
      ⟨congrArg _ hgt1, congrArg _ hgt2⟩, ⟨congrArg _ hlt1, congrArg _ hlt2⟩⟩

end Order

end StringObject

end Adl
