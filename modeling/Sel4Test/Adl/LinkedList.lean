import Sel4Test.Lib.LinkedQueue

/-!
The intrusive list of the monkey library, `adl/collections/LinkedList.cpp`.

An operation is a function to `Option`: it gives nothing where it goes through a null pointer, or
where the length is no `int` any more. The list is compared with the sequence of its nodes.

* `Agrees`: length, `get`, the order of `forEach` and the links are those of the sequence.
* `agrees_iff`: this is a matter of the links and of the length.
* `Meets`: the calls that do what they should; not among them are `insert` anywhere but at the
  end, `removeLast` of the empty list and `clear` of any other.
* `step_iff`: on a list that agrees with its sequence, a call does what it should exactly if it is
  one of these.
* `linkedList_refines_iff`: a run agrees with its sequence all along exactly if all its calls are.
-/

namespace Adl

open LinkedQueue
open Function (update update_self update_of_ne)

/-- `LinkedList`, with the fields of the nodes. -/
structure LinkedList (α : Type) where
  head : Option α
  tail : Option α
  length : ℤ
  next : α → Option α
  prev : α → Option α

namespace LinkedList

variable {α : Type}

section Operations

variable [DecidableEq α]

/-- The empty list, among nodes of any content. -/
def empty (next prev : α → Option α) : LinkedList α := ⟨none, none, 0, next, prev⟩

def setNext (s : LinkedList α) (node : α) (v : Option α) : LinkedList α :=
  { s with next := update s.next node v }

def setPrev (s : LinkedList α) (node : α) (v : Option α) : LinkedList α :=
  { s with prev := update s.prev node v }

@[simp] lemma next_setNext (s : LinkedList α) (node : α) (v : Option α) :
    (s.setNext node v).next = update s.next node v := rfl

@[simp] lemma prev_setNext (s : LinkedList α) (node : α) (v : Option α) :
    (s.setNext node v).prev = s.prev := rfl

@[simp] lemma next_setPrev (s : LinkedList α) (node : α) (v : Option α) :
    (s.setPrev node v).next = s.next := rfl

@[simp] lemma prev_setPrev (s : LinkedList α) (node : α) (v : Option α) :
    (s.setPrev node v).prev = update s.prev node v := rfl

/-- The length is an `int`. -/
def setLength (s : LinkedList α) (v : ℤ) : Option (LinkedList α) :=
  if -2 ^ 31 ≤ v ∧ v < 2 ^ 31 then some { s with length := v } else none

/-- `append`. -/
def append (s : LinkedList α) (node : α) : Option (LinkedList α) :=
  let linked :=
    match s.tail with
    | some tail =>
        { ((s.setNext tail (some node)).setPrev node (some tail)).setNext node none with
          tail := some node }
    | none => { (s.setPrev node none).setNext node none with head := some node, tail := some node }
  linked.setLength (linked.length + 1)

/-- The `counter` steps along a field from `res` on. -/
def steps (field : α → Option α) : ℕ → Option α → Option (Option α)
  | 0, res => some res
  | counter + 1, res => res.bind fun node => steps field counter (field node)

/-- `while (counter--)`: a negative counter does not get to zero before the list ends. -/
def follow (field : α → Option α) (counter : ℤ) (res : Option α) : Option (Option α) :=
  if counter < 0 then none else steps field counter.toNat res

/-- `get`. -/
def get (s : LinkedList α) (index : ℤ) : Option (Option α) :=
  if index < s.length then
    if index < s.length.tdiv 2 then follow s.next index s.head
    else follow s.prev (s.length - index - 1) s.tail
  else some none

/-- The case of `insert` for an index of at most zero: what is done to a list with a head. -/
def linkFront (s : LinkedList α) (node : α) : Option (LinkedList α) :=
  match s.head with
  | some head =>
      let s := s.setNext node (s.next head)
      (s.next head).map fun second => s.setPrev second (some node)
  | none => some s

/-- The other case, behind a node. -/
def linkBehind (s : LinkedList α) (node prevNode : α) : Option (LinkedList α) :=
  let s := s.setPrev node (some prevNode)
  let s := s.setNext node (s.next prevNode)
  (s.next prevNode).map fun after => (s.setPrev after (some node)).setNext prevNode (some node)

/-- `insert`. -/
def insert (s : LinkedList α) (node : α) (index : ℤ) : Option (LinkedList α) :=
  if s.length ≤ index then s.append node
  else if index ≤ 0 then do
    let s ← s.linkFront node
    let s := { s.setPrev node none with head := some node }
    s.setLength (s.length + 1)
  else do
    let prevNode ← s.get index
    let s ← s.linkBehind node (← prevNode)
    s.setLength (s.length + 1)

/-- The node goes between `prev` and `next`. -/
def linkBetween (s : LinkedList α) (node : α) : Option α → Option α → LinkedList α
  | some prev, some next =>
      (((s.setNext prev (some node)).setPrev next (some node)).setPrev node (some prev)).setNext
        node (some next)
  | some prev, none =>
      { ((s.setNext prev (some node)).setNext node none).setPrev node (some prev) with
        tail := some node }
  | none, some next =>
      { ((s.setPrev next (some node)).setNext node (some next)).setPrev node none with
        head := some node }
  | none, none =>
      { (s.setNext node none).setPrev node none with head := some node, tail := some node }

/-- The loop of `insertWhen`, for at most `fuel` places. -/
def insertWhenLoop (s : LinkedList α) (node : α) (judge : Option α → Option α → ℤ) :
    ℕ → Option α → Option α → Option (LinkedList α)
  | 0, _, _ => none
  | fuel + 1, prev, next =>
      if judge prev next = 0 then
        (s.setLength (s.length + 1)).map fun s => s.linkBetween node prev next
      else if judge prev next < 0 then some s
      else if next = none then some s
      else insertWhenLoop s node judge fuel next (next.bind s.next)

/-- `insertWhen`, for the `judge` of a cargo. -/
def insertWhen (s : LinkedList α) (fuel : ℕ) (node : α) (judge : Option α → Option α → ℤ) :
    Option (LinkedList α) :=
  s.insertWhenLoop node judge fuel none s.head

/-- What `remove` does to the links. -/
def unlink (s : LinkedList α) (node : Option α) : Option (LinkedList α) :=
  if node = s.head ∧ node = s.tail then some { s with head := none, tail := none }
  else if node = s.head then do
    let second ← s.next (← s.head)
    some { s.setPrev second none with head := some second }
  else if node = s.tail then do
    let second ← s.prev (← s.tail)
    some { s.setNext second none with tail := some second }
  else do
    let node ← node
    let before ← s.prev node
    let s := s.setNext before (s.next node)
    let after ← s.next node
    some (s.setPrev after (s.prev node))

/-- `remove`, of a pointer to a node. -/
def remove (s : LinkedList α) (node : Option α) : Option (LinkedList α) :=
  (s.unlink node).bind fun s => s.setLength (s.length - 1)

/-- `removeAt`. -/
def removeAt (s : LinkedList α) (index : ℤ) : Option (Option α × LinkedList α) := do
  let node ← s.get index
  let s ← s.remove node
  return (node, s)

/-- `removeFirst`. -/
def removeFirst (s : LinkedList α) : Option (Option α × LinkedList α) :=
  match s.head with
  | some head => do
      let s ← s.setLength (s.length - 1)
      if s.head = s.tail then
        return (some head, { s with head := none, tail := none })
      else
        let second ← s.next head
        return (some head, { s.setPrev second none with head := some second })
  | none => return (none, s)

/-- What `removeLast` does to the links of the other nodes. -/
def unlinkLast (s : LinkedList α) (res : α) : LinkedList α :=
  let s := { s with tail := s.prev res }.setPrev res none
  match s.tail with
  | some tail => s.setNext tail none
  | none => { s with head := none }

/-- `removeLast`; the fields of the result are cleared whether there is one or not. -/
def removeLast (s : LinkedList α) : Option (Option α × LinkedList α) := do
  let res ← s.tail
  let s := s.unlinkLast res
  let s ← s.setLength (s.length - 1)
  return (some res, (s.setNext res none).setPrev res none)

/-- `clear`. -/
def clear (s : LinkedList α) : LinkedList α := { s with head := none, tail := none }

/-- The nodes that `forEach` goes through, for at most `fuel` of them. -/
def forEach (s : LinkedList α) : ℕ → Option α → Option (List α)
  | _, none => some []
  | 0, some _ => none
  | fuel + 1, some curr => (s.forEach fuel (s.next curr)).map (curr :: ·)

end Operations

/-! ### Links and length -/

variable {s s' : LinkedList α} {xs l r : List α} {node x y : α} {p q : Option α} {fuel : ℕ}

/-- The links of the list are those of the sequence, and so is its length. -/
structure Linked (s : LinkedList α) (xs : List α) : Prop where
  holds : Holds s.next s.prev ⟨s.head, s.tail⟩ xs
  length_eq : s.length = xs.length

namespace Linked

lemma nodup (h : Linked s xs) : xs.Nodup := h.holds.nodup

lemma head_eq (h : Linked s xs) : s.head = xs.head? := h.holds.head_eq

lemma tail_eq (h : Linked s xs) : s.tail = xs.getLast? := h.holds.last_eq

lemma next_eq (h : Linked s (l ++ x :: r)) : s.next x = r.head? := (h.holds.links l x r rfl).2

lemma prev_eq (h : Linked s (l ++ x :: r)) : s.prev x = l.getLast? := (h.holds.links l x r rfl).1

end Linked

/-- The operation ends, with a list for the sequence. -/
def Gives (o : Option (LinkedList α)) (xs : List α) : Prop := ∃ s, o = some s ∧ Linked s xs

lemma not_gives_none : ¬ Gives (none : Option (LinkedList α)) xs := by
  rintro ⟨s, h, -⟩
  cases h

/-- Where the links are right, the length is the rest. -/
lemma gives_setLength {v : ℤ} (h : Holds s.next s.prev ⟨s.head, s.tail⟩ xs) (hv : v = xs.length) :
    Gives (s.setLength v) xs ↔ xs.length < 2 ^ 31 := by
  rw [setLength, hv]
  constructor
  · rintro ⟨s', hs', -⟩
    split_ifs at hs' with hint
    · exact_mod_cast hint.2
  · intro hlt
    rw [if_pos ⟨by omega, by exact_mod_cast hlt⟩]
    exact ⟨_, rfl, h, rfl⟩

/-- Where a node is out, the length goes down. -/
lemma gives_shorter {u : LinkedList α} (h : Linked s (l ++ node :: r))
    (hlen : (l ++ node :: r).length < 2 ^ 31)
    (hu : Holds u.next u.prev ⟨u.head, u.tail⟩ (l ++ r)) (hulen : u.length = s.length) :
    Gives (u.setLength (u.length - 1)) (l ++ r) := by
  rw [List.length_append, List.length_cons] at hlen
  refine (gives_setLength hu ?_).mpr ?_
  · rw [hulen, h.length_eq, List.length_append, List.length_append, List.length_cons]
    push_cast
    ring
  · rw [List.length_append]
    omega

/-- What does not look at the length may come before it is written. -/
lemma setLength_map {f : LinkedList α → LinkedList α} {v : ℤ}
    (hf : ∀ v, f { s with length := v } = { f s with length := v }) :
    (s.setLength v).map f = (f s).setLength v := by
  rw [setLength, setLength]
  split_ifs
  · rw [Option.map_some, hf]
  · rfl

/-- The list stays as it is. -/
lemma gives_self (h : Linked s xs) (hlen : xs.length < 2 ^ 31) :
    Gives (some s) xs ↔ xs.length < 2 ^ 31 :=
  iff_of_true ⟨s, rfl, h⟩ hlen

/-- The front and the back of a sequence that is cut have nothing in common. -/
lemma apart (h : (l ++ r).Nodup) (hl : x ∈ l) (hr : x ∈ r) : False :=
  (List.nodup_append.mp h).2.2 x hl x hr rfl

/-- The node at a position. -/
lemma exists_cut {i : ℕ} (hi : i < xs.length) : ∃ l x r, xs = l ++ x :: r ∧ l.length = i := by
  refine ⟨xs.take i, xs[i], xs.drop (i + 1), ?_, ?_⟩
  · rw [List.getElem_cons_drop, List.take_append_drop]
  · rw [List.length_take]
    omega

lemma insertIdx_length (l r : List α) (x : α) : (l ++ r).insertIdx l.length x = l ++ x :: r := by
  induction l with
  | nil => rfl
  | cons y l ih => rw [List.cons_append, List.length_cons, List.insertIdx_succ_cons, ih]; rfl

/-! ### The ends -/

lemma Linked.head_iff (h : Linked s (l ++ node :: r)) : some node = s.head ↔ l = [] := by
  have hnodup := h.nodup
  rw [List.nodup_middle, List.nodup_cons] at hnodup
  rw [h.head_eq]
  constructor
  · intro heq
    cases l with
    | nil => rfl
    | cons x l =>
        obtain rfl : node = x := Option.some.inj heq
        exact absurd (by simp) hnodup.1
  · rintro rfl
    rfl

lemma Linked.tail_iff (h : Linked s (l ++ node :: r)) : some node = s.tail ↔ r = [] := by
  have hnodup := h.nodup
  rw [List.nodup_middle, List.nodup_cons] at hnodup
  rw [h.tail_eq, List.getLast?_append_cons]
  constructor
  · intro heq
    cases r with
    | nil => rfl
    | cons x r =>
        rw [List.getLast?_cons_cons] at heq
        have hmem := List.mem_of_mem_getLast? heq.symm
        exact absurd (List.mem_append_right l hmem) hnodup.1
  · rintro rfl
    rfl

/-! ### Reading -/

section Read

variable {next prev : α → Option α} {ends : Queue α} {n : ℕ}

/-- Steps from some place on. -/
lemma steps_next (h : Holds next prev ends (l ++ r)) (hn : n < r.length) :
    steps next n r.head? = some r[n]? := by
  induction n generalizing l r with
  | zero => rw [steps, List.head?_eq_getElem?]
  | succ n ih =>
      cases r with
      | nil => simp at hn
      | cons x r =>
          have hsplit : l ++ x :: r = (l ++ [x]) ++ r := by simp
          have hlinks := h.links l x r rfl
          rw [hsplit] at h
          rw [List.head?_cons, steps, Option.bind_some, hlinks.2, List.getElem?_cons_succ]
          exact ih h (Nat.lt_of_succ_lt_succ hn)

end Read

/-- **`get`**, from whichever end it is nearer. -/
lemma Linked.get_eq (h : Linked s xs) (i : ℕ) : s.get i = some xs[i]? := by
  rw [LinkedList.get, h.length_eq]
  split_ifs with hin hhalf
  · have hi : i < xs.length := by exact_mod_cast hin
    rw [follow, if_neg (by omega), Int.toNat_natCast, h.head_eq]
    exact steps_next (l := []) h.holds hi
  · have hi : i < xs.length := by exact_mod_cast hin
    have hcounter : ((xs.length : ℤ) - i - 1).toNat = xs.length - 1 - i := by omega
    rw [follow, if_neg (by omega), hcounter, h.tail_eq, ← List.head?_reverse]
    have hreverse : Holds s.prev s.next ⟨s.tail, s.head⟩ ([] ++ xs.reverse) := h.holds.reverse
    rw [steps_next hreverse (by rw [List.length_reverse]; omega),
      List.getElem?_reverse (by omega)]
    congr 2
    omega
  · rw [List.getElem?_eq_none (by omega)]

lemma Linked.forEach_rest (h : Linked s (l ++ r)) (hfuel : r.length ≤ fuel) :
    s.forEach fuel r.head? = some r := by
  induction r generalizing l fuel with
  | nil => cases fuel <;> rfl
  | cons x r ih =>
      cases fuel with
      | zero => simp at hfuel
      | succ fuel =>
          have hnext := h.next_eq
          have hsplit : l ++ x :: r = (l ++ [x]) ++ r := by simp
          rw [hsplit] at h
          rw [List.head?_cons, forEach, hnext, ih h (Nat.le_of_succ_le_succ hfuel)]
          rfl

/-- **`forEach`** goes through the nodes in order. -/
lemma Linked.forEach_eq (h : Linked s xs) (hfuel : xs.length ≤ fuel) :
    s.forEach fuel s.head = some xs := by
  rw [h.head_eq]
  exact Linked.forEach_rest (l := []) h hfuel

/-! ### A node comes in -/

variable [DecidableEq α]

/-- What `linkBetween` does to the fields, between two other nodes. -/
lemma linkBetween_fields (hp : p ≠ some node) (hq : q ≠ some node) :
    (s.linkBetween node p q).next =
        update (fun x => if p = some x then some node else s.next x) node q ∧
      (s.linkBetween node p q).prev =
        update (fun x => if q = some x then some node else s.prev x) node p ∧
      (s.linkBetween node p q).head = (if p = none then some node else s.head) ∧
      (s.linkBetween node p q).tail = (if q = none then some node else s.tail) ∧
      (s.linkBetween node p q).length = s.length := by
  have hset : ∀ (f : α → Option α) (x : α),
      update f x (some node) = fun y => if some x = some y then some node else f y := by
    intro f x
    funext y
    by_cases h : x = y
    · subst h
      simp
    · rw [update_of_ne (Ne.symm h), if_neg (by simpa using h)]
  cases p with
  | none =>
      cases q with
      | none => simp [linkBetween, setNext, setPrev]
      | some b => simp [linkBetween, setNext, setPrev, hset]
  | some a =>
      cases q with
      | none => simp [linkBetween, setNext, setPrev, hset]
      | some b => simp [linkBetween, setNext, setPrev, hset]

/-- **A node** between two parts of the sequence. -/
lemma Linked.linkBetween (h : Linked s (l ++ r)) (hnode : node ∉ l ++ r) :
    Holds (s.linkBetween node l.getLast? r.head?).next (s.linkBetween node l.getLast? r.head?).prev
      ⟨(s.linkBetween node l.getLast? r.head?).head, (s.linkBetween node l.getLast? r.head?).tail⟩
      (l ++ node :: r) := by
  have hne : ∀ x ∈ l ++ r, x ≠ node := by
    rintro x hx rfl
    exact hnode hx
  have hp : l.getLast? ≠ some node := fun heq =>
    hnode (List.mem_append_left r (List.mem_of_mem_getLast? heq))
  have hq : r.head? ≠ some node := fun heq =>
    hnode (List.mem_append_right l (List.mem_of_mem_head? heq))
  obtain ⟨hnext, hprev, hhead, htail, -⟩ := linkBetween_fields (s := s) hp hq
  rw [hnext, hprev, hhead, htail]
  refine h.holds.insert hnode (update_self ..) (update_self ..) (fun x hx => ?_) (fun x hx => ?_) ?_
  · rw [update_of_ne (hne x hx)]
  · rw [update_of_ne (hne x hx)]
  · rw [h.head_eq, h.tail_eq]
    congr 1
    · cases l with
      | nil => rfl
      | cons x l => simp
    · cases r with
      | nil => simp
      | cons x r => simp

lemma append_eq : s.append node =
    (s.linkBetween node s.tail none).setLength (s.length + 1) := by
  rw [append]
  cases s.tail <;> rfl

/-- **`append`**. -/
lemma gives_append (h : Linked s xs) (hnode : node ∉ xs) :
    Gives (s.append node) (xs ++ [node]) ↔ (xs ++ [node]).length < 2 ^ 31 := by
  have h' : Linked s (xs ++ []) := by rwa [List.append_nil]
  rw [append_eq, h.tail_eq]
  refine gives_setLength (h'.linkBetween (by rwa [List.append_nil])) ?_
  rw [h.length_eq, List.length_append]
  rfl

/-! ### `insertWhen` -/

/-- The node goes to the first place that `judge` accepts, unless it refuses one before. -/
def insertedWhen (node : α) (judge : Option α → Option α → ℤ) : Option α → List α → List α
  | prev, [] => if judge prev none = 0 then [node] else []
  | prev, x :: xs =>
      if judge prev (some x) = 0 then node :: x :: xs
      else if judge prev (some x) < 0 then x :: xs
      else x :: insertedWhen node judge (some x) xs

/-- The node comes in, and the length goes up. -/
lemma gives_linkBetween (h : Linked s (l ++ r)) (hnode : node ∉ l ++ r) :
    Gives ((s.setLength (s.length + 1)).map fun s => s.linkBetween node l.getLast? r.head?)
        (l ++ node :: r) ↔ (l ++ node :: r).length < 2 ^ 31 := by
  rw [setLength_map fun v => by cases l.getLast? <;> cases r.head? <;> rfl]
  refine gives_setLength (h.linkBetween hnode) ?_
  rw [h.length_eq, List.length_append, List.length_append, List.length_cons]
  push_cast
  ring

lemma gives_insertWhenLoop {judge : Option α → Option α → ℤ} (h : Linked s (l ++ r))
    (hnode : node ∉ l ++ r) (hlen : (l ++ r).length < 2 ^ 31) (hfuel : r.length < fuel) :
    Gives (s.insertWhenLoop node judge fuel l.getLast? r.head?)
        (l ++ insertedWhen node judge l.getLast? r) ↔
      (l ++ insertedWhen node judge l.getLast? r).length < 2 ^ 31 := by
  induction r generalizing l fuel with
  | nil =>
      obtain ⟨fuel, rfl⟩ : ∃ k, fuel = k + 1 := ⟨fuel - 1, by simp at hfuel; omega⟩
      rw [insertWhenLoop, insertedWhen, List.head?_nil]
      split_ifs with hzero hneg hnone
      · exact gives_linkBetween h hnode
      · exact gives_self h hlen
      · exact gives_self h hlen
      · exact absurd rfl hnone
  | cons x r ih =>
      obtain ⟨fuel, rfl⟩ : ∃ k, fuel = k + 1 := ⟨fuel - 1, by simp at hfuel; omega⟩
      rw [insertWhenLoop, insertedWhen, List.head?_cons]
      split_ifs with hzero hneg hnone
      · exact gives_linkBetween h hnode
      · exact gives_self h hlen
      · cases hnone
      · have hsplit : l ++ x :: r = (l ++ [x]) ++ r := by simp
        have hlast : (l ++ [x]).getLast? = some x := by simp
        rw [Option.bind_some, h.next_eq]
        rw [hsplit] at h hnode hlen
        have hrest := ih h hnode hlen (Nat.lt_of_succ_lt_succ hfuel)
        rwa [hlast, List.append_assoc, List.singleton_append] at hrest

/-! ### `insert` -/

/-- In front of the first node, the first node gets lost. -/
lemma not_gives_insert_front (h : Linked s (x :: r)) (hnode : node ∉ x :: r) :
    ¬ Gives (s.insert node 0) (node :: x :: r) := by
  have hnext : s.next x = r.head? := Linked.next_eq (l := []) h
  have hne : x ≠ node := by
    rintro rfl
    exact hnode List.mem_cons_self
  have hlt : ¬ s.length ≤ 0 := by
    rw [h.length_eq, List.length_cons]
    omega
  rw [insert, if_neg hlt, if_pos le_rfl, linkFront, h.head_eq]
  cases r with
  | nil =>
      have hnull : (s.setNext node (s.next x)).next x = none := by
        rw [next_setNext, update_of_ne hne, hnext]
        rfl
      simp only [List.head?_cons, hnull]
      exact not_gives_none
  | cons y r =>
      have hsecond : (s.setNext node (s.next x)).next x = some y := by
        rw [next_setNext, update_of_ne hne, hnext]
        rfl
      simp only [List.head?_cons, hsecond, Option.map_some]
      rintro ⟨s', hs', hlinked⟩
      have hfirst : s'.next node = some x := Linked.next_eq (l := []) hlinked
      have hgot : s'.next node = some y := by
        simp only [Option.bind_eq_bind, Option.bind_some, setLength] at hs'
        split_ifs at hs'
        obtain rfl := Option.some.inj hs'
        simp [setNext, setPrev, hnext]
      have hxy : x = y := Option.some.inj (hfirst.symm.trans hgot)
      exact (List.nodup_cons.mp h.nodup).1 (by simp [hxy])

/-- Further on, the node comes one place too late, or there is none. -/
lemma not_gives_insert_middle {i : ℤ} (h : Linked s (l ++ x :: r)) (hnode : node ∉ l ++ x :: r)
    (hi : i = l.length) (hpos : 0 < i) : ¬ Gives (s.insert node i) (l ++ node :: x :: r) := by
  have hlen : ¬ s.length ≤ i := by
    rw [h.length_eq, hi, List.length_append, List.length_cons]
    push_cast
    omega
  have hget : s.get i = some (some x) := by
    rw [hi, h.get_eq]
    simp
  have hne : x ≠ node := by
    rintro rfl
    exact hnode (by simp)
  rw [insert, if_neg hlen, if_neg (not_le.mpr hpos), hget]
  rintro ⟨s', hs', hlinked⟩
  have hgot : s'.prev node = some x := by
    have hnext := h.next_eq
    have hafter : ((s.setPrev node (some x)).setNext node ((s.setPrev node (some x)).next x)).next x
        = r.head? := by
      rw [next_setNext, update_of_ne hne, next_setPrev, hnext]
    simp only [Option.bind_eq_bind, Option.bind_some, linkBehind, hafter] at hs'
    cases r with
    | nil => simp at hs'
    | cons y r =>
        have hyne : y ≠ node := by
          rintro rfl
          exact hnode (by simp)
        simp only [List.head?_cons, Option.map_some, Option.bind_some, setLength] at hs'
        split_ifs at hs'
        obtain rfl := Option.some.inj hs'
        simp [setNext, setPrev, update_of_ne (Ne.symm hyne)]
  have hlast : l.getLast? = some x := by
    rw [← hlinked.prev_eq, hgot]
  exact apart h.nodup (List.mem_of_mem_getLast? hlast) List.mem_cons_self

/-- **`insert`** does what it should at the end only. -/
lemma gives_insert {i : ℤ} (h : Linked s xs) (hnode : node ∉ xs) (hpos : 0 ≤ i)
    (hi : i ≤ xs.length) : Gives (s.insert node i) (xs.insertIdx i.toNat node) ↔
      i = xs.length ∧ (xs.insertIdx i.toNat node).length < 2 ^ 31 := by
  by_cases hend : i = xs.length
  · have hat : xs.insertIdx i.toNat node = xs ++ [node] := by
      rw [hend, Int.toNat_natCast, List.insertIdx_length_self]
    rw [hat, insert, if_pos (by rw [h.length_eq, hend]), gives_append h hnode]
    exact (and_iff_right hend).symm
  · obtain ⟨l, x, r, rfl, hl⟩ := exists_cut (show i.toNat < xs.length by omega)
    have hil : i = l.length := by omega
    rw [← hl, insertIdx_length]
    refine iff_of_false ?_ fun hand => hend hand.1
    by_cases hzero : 0 < i
    · exact not_gives_insert_middle h hnode hil hzero
    · obtain rfl : i = 0 := by omega
      obtain rfl : l = [] := List.length_eq_zero_iff.mp (by omega)
      exact not_gives_insert_front h hnode

/-! ### A node goes out -/

/-- The links without the node. -/
lemma Linked.erased {u : LinkedList α} (h : Linked s (l ++ node :: r))
    (hnext : ∀ x ∈ l ++ r, u.next x = if l.getLast? = some x then r.head? else s.next x)
    (hprev : ∀ x ∈ l ++ r, u.prev x = if r.head? = some x then l.getLast? else s.prev x)
    (hhead : u.head = (l ++ r).head?) (htail : u.tail = (l ++ r).getLast?) :
    Holds u.next u.prev ⟨u.head, u.tail⟩ (l ++ r) :=
  h.holds.erase hnext hprev (by rw [hhead, htail])

/-- A field that is written at one node. -/
lemma update_eq_if (field : α → Option α) (x y : α) (v : Option α) :
    update field x v y = if some x = some y then v else field y := by
  by_cases h : x = y
  · subst h
    simp
  · rw [update_of_ne (Ne.symm h), if_neg (by simpa using h)]

/-- **The links** after the node is out: four cases, by what is on either side of it. -/
lemma unlink_spec (h : Linked s (l ++ node :: r)) : ∃ u, s.unlink (some node) = some u ∧
    u.length = s.length ∧ Holds u.next u.prev ⟨u.head, u.tail⟩ (l ++ r) := by
  have hnext := h.next_eq
  have hprev := h.prev_eq
  have hhead := h.head_iff
  have htail := h.tail_iff
  rw [unlink]
  -- the node is alone, first, last, or between two others
  rcases List.eq_nil_or_concat l with rfl | ⟨l, z, rfl⟩
  · have hfirst : some node = s.head := hhead.mpr rfl
    cases r with
    | nil =>
        rw [if_pos ⟨hfirst, htail.mpr rfl⟩]
        exact ⟨_, rfl, rfl, .nil⟩
    | cons y r =>
        have hlast : s.tail = ([] ++ y :: r).getLast? := by
          rw [h.tail_eq, List.nil_append, List.getLast?_cons_cons, List.nil_append]
        rw [if_neg fun hand => List.cons_ne_nil y r (htail.mp hand.2), if_pos hfirst, ← hfirst]
        simp only [Option.bind_eq_bind, Option.bind_some, hnext, List.head?_cons]
        exact ⟨_, rfl, rfl, h.erased (fun x _ => rfl) (fun x _ => update_eq_if ..) rfl hlast⟩
  · rw [List.concat_eq_append] at *
    have hz : (l ++ [z]).getLast? = some z := by simp
    have hnil : l ++ [z] ≠ [] := by simp
    have hfront : ∀ r' : List α, (l ++ [z] ++ r').head? = (l ++ [z]).head? := by
      intro r'
      cases l <;> rfl
    have hfirst : s.head = (l ++ [z] ++ r).head? := by rw [h.head_eq, hfront, hfront]
    rw [if_neg fun hand => hnil (hhead.mp hand.1), if_neg fun heq => hnil (hhead.mp heq)]
    cases r with
    | nil =>
        have hlast : some node = s.tail := htail.mpr rfl
        rw [if_pos hlast, ← hlast]
        simp only [Option.bind_eq_bind, Option.bind_some, hprev, hz]
        refine ⟨_, rfl, rfl, h.erased (fun x _ => ?_) (fun x _ => rfl) hfirst ?_⟩
        · rw [hz]
          exact update_eq_if ..
        · rw [List.append_nil, hz]
    | cons y r =>
        have hzn : node ≠ z := by
          rintro rfl
          exact apart h.nodup (by simp) List.mem_cons_self
        have hlast : s.tail = (l ++ [z] ++ y :: r).getLast? := by
          rw [h.tail_eq, List.getLast?_append_cons, List.getLast?_cons_cons,
            List.getLast?_append_cons]
        rw [if_neg fun heq => List.cons_ne_nil y r (htail.mp heq)]
        simp only [Option.bind_eq_bind, Option.bind_some, hprev, hz, next_setNext,
          update_of_ne hzn, hnext, List.head?_cons, prev_setNext]
        refine ⟨_, rfl, rfl, h.erased (fun x _ => ?_) (fun x _ => ?_) hfirst hlast⟩
        · rw [hz]
          exact update_eq_if ..
        · rw [hz]
          exact update_eq_if ..

/-- **`remove`** of a member. -/
lemma gives_remove (h : Linked s (l ++ node :: r)) (hlen : (l ++ node :: r).length < 2 ^ 31) :
    Gives (s.remove (some node)) (l ++ r) := by
  obtain ⟨u, hu, hulen, hholds⟩ := unlink_spec h
  rw [remove, hu, Option.bind_some]
  exact gives_shorter h hlen hholds hulen

/-- The first node is removed as any other. -/
lemma removeFirst_eq (h : s.head = some x) :
    s.removeFirst = (s.remove (some x)).map fun u => (some x, u) := by
  rw [removeFirst, remove, unlink, h]
  by_cases htail : some x = s.tail
  · rw [if_pos ⟨rfl, htail⟩]
    simp only [setLength, Option.bind_eq_bind, Option.bind_some]
    split_ifs
    · simp [h, htail]
    · rfl
  · rw [if_neg fun hand => htail hand.2, if_pos rfl]
    simp only [setLength, Option.bind_eq_bind, Option.bind_some]
    cases hnext : s.next x with
    | none =>
        split_ifs
        · simp [h, htail, hnext]
        · rfl
    | some y =>
        simp only [Option.bind_some, setPrev]
        split_ifs
        · simp [h, htail, hnext]
        · rfl

/-- **`removeFirst`**. -/
lemma removeFirst_spec (h : Linked s xs) (hlen : xs.length < 2 ^ 31) :
    ∃ s', s.removeFirst = some (xs.head?, s') ∧ Linked s' xs.tail := by
  cases xs with
  | nil =>
      refine ⟨s, ?_, h⟩
      rw [removeFirst, h.head_eq]
      rfl
  | cons x xs =>
      obtain ⟨s', hs', hlinked⟩ := gives_remove (l := []) h hlen
      refine ⟨s', ?_, hlinked⟩
      rw [removeFirst_eq (x := x) h.head_eq, hs']
      rfl

lemma length_unlinkLast : (s.unlinkLast x).length = s.length := by
  rw [unlinkLast]
  dsimp only [setPrev]
  cases s.prev x <;> rfl

lemma unlinkLast_spec (h : Linked s (l ++ [x])) :
    let u := ((s.unlinkLast x).setNext x none).setPrev x none
    Holds u.next u.prev ⟨u.head, u.tail⟩ l := by
  have hx : x ∉ l := fun hl => apart h.nodup hl List.mem_cons_self
  have hprev := h.prev_eq
  have hne : ∀ y ∈ l, y ≠ x := by
    rintro y hy rfl
    exact hx hy
  have herased : ∀ {u : LinkedList α}, (∀ y ∈ l, u.next y =
      if l.getLast? = some y then none else s.next y) → (∀ y ∈ l, u.prev y = s.prev y) →
      u.head = l.head? → u.tail = l.getLast? → Holds u.next u.prev ⟨u.head, u.tail⟩ l := by
    intro u hn hp hhead htail
    have hholds := h.erased (u := u) (fun y hy => hn y (by simpa using hy))
      (fun y hy => hp y (by simpa using hy)) (by rw [hhead, List.append_nil])
      (by rw [htail, List.append_nil])
    rwa [List.append_nil] at hholds
  intro u
  rcases List.eq_nil_or_concat l with rfl | ⟨l, z, rfl⟩
  · refine herased (fun y hy => ?_) (fun y hy => ?_) ?_ ?_
    · cases hy
    · cases hy
    · simp [u, unlinkLast, setNext, setPrev, hprev]
    · simp [u, unlinkLast, setNext, setPrev, hprev]
  · rw [List.concat_eq_append] at *
    have hz : (l ++ [z]).getLast? = some z := by simp
    have hhead : s.head = (l ++ [z]).head? := by
      rw [h.head_eq]
      cases l <;> rfl
    rw [hz] at hprev herased
    refine herased (fun y hy => ?_) (fun y hy => ?_) ?_ ?_
    · simp only [u, unlinkLast, next_setPrev, next_setNext, hprev, update_of_ne (hne y hy)]
      exact update_eq_if ..
    · simp [u, unlinkLast, setNext, setPrev, hprev, update_of_ne (hne y hy)]
    · simpa [u, unlinkLast, setNext, setPrev, hprev] using hhead
    · simp [u, unlinkLast, setNext, setPrev, hprev]

/-- **`removeLast`** of a list that is not empty. -/
lemma removeLast_spec (h : Linked s (l ++ [x])) (hlen : (l ++ [x]).length < 2 ^ 31) :
    ∃ s', s.removeLast = some (some x, s') ∧ Linked s' l := by
  have htail : s.tail = some x := by rw [h.tail_eq]; simp
  obtain ⟨s', hs', hlinked⟩ := gives_shorter (r := [])
    (u := ((s.unlinkLast x).setNext x none).setPrev x none) h hlen
    (by rw [List.append_nil]; exact unlinkLast_spec h) length_unlinkLast
  rw [List.append_nil] at hlinked
  refine ⟨s', ?_, hlinked⟩
  have hmap := setLength_map (s := s.unlinkLast x) (v := (s.unlinkLast x).length - 1)
    (f := fun u => (u.setNext x none).setPrev x none) fun v => rfl
  obtain ⟨u, hu, rfl⟩ := Option.map_eq_some_iff.mp (hmap.trans hs')
  rw [removeLast, htail]
  simp only [Option.bind_eq_bind, Option.bind_some, hu]
  rfl

/-! ### Calls -/

/-- The calls of the list. -/
inductive Call (α : Type)
  | append (node : α)
  | insert (node : α) (index : ℤ)
  | insertWhen (node : α) (judge : Option α → Option α → ℤ)
  | remove (node : α)
  | removeAt (index : ℤ)
  | removeFirst
  | removeLast
  | clear

/-- What a call returns, if it returns a node, and the list it leaves. -/
def step (fuel : ℕ) : Call α → LinkedList α → Option (Option α × LinkedList α)
  | .append node, s => (s.append node).map fun s => (none, s)
  | .insert node index, s => (s.insert node index).map fun s => (none, s)
  | .insertWhen node judge, s => (s.insertWhen fuel node judge).map fun s => (none, s)
  | .remove node, s => (s.remove (some node)).map fun s => (none, s)
  | .removeAt index, s => s.removeAt index
  | .removeFirst, s => s.removeFirst
  | .removeLast, s => s.removeLast
  | .clear, s => some (none, s.clear)

namespace Call

/-- The sequence after a call. -/
def after : Call α → List α → List α
  | append node, xs => xs ++ [node]
  | insert node index, xs => xs.insertIdx index.toNat node
  | insertWhen node judge, xs => insertedWhen node judge none xs
  | remove node, xs => xs.erase node
  | removeAt index, xs => xs.eraseIdx index.toNat
  | removeFirst, xs => xs.tail
  | removeLast, xs => xs.dropLast
  | clear, _ => []

/-- The node that a call returns. -/
def result : Call α → List α → Option α
  | removeAt index, xs => xs[index.toNat]?
  | removeFirst, xs => xs.head?
  | removeLast, xs => xs.getLast?
  | append _, _ => none
  | insert _ _, _ => none
  | insertWhen _ _, _ => none
  | remove _, _ => none
  | clear, _ => none

/-- The calls that the list is made for: a node comes in once, at a position there is, and what
goes out is there. -/
def Valid : Call α → List α → Prop
  | append node, xs => node ∉ xs
  | insert node index, xs => node ∉ xs ∧ 0 ≤ index ∧ index ≤ xs.length
  | insertWhen node _, xs => node ∉ xs
  | remove node, xs => node ∈ xs
  | removeAt index, xs => 0 ≤ index ∧ index < xs.length
  | removeFirst, _ => True
  | removeLast, _ => True
  | clear, _ => True

/-- The calls that do what they should: `insert` at the end, `removeLast` of a list with nodes,
`clear` of one without, and all others. -/
def Sound : Call α → List α → Prop
  | insert _ index, xs => index = xs.length
  | removeLast, xs => xs ≠ []
  | clear, xs => xs = []
  | append _, _ => True
  | insertWhen _ _, _ => True
  | remove _, _ => True
  | removeAt _, _ => True
  | removeFirst, _ => True

/-- Such a call, and no more nodes behind it than an `int` counts. -/
def Meets (c : Call α) (xs : List α) : Prop := c.Sound xs ∧ (c.after xs).length < 2 ^ 31

end Call

/-- What can be seen of the list is what the sequence has: its length, its nodes by position, the
order of `forEach`; and the links of head, tail and nodes are those of the sequence. -/
structure Agrees (s : LinkedList α) (xs : List α) : Prop where
  length_eq : s.length = xs.length
  get_eq : ∀ i : ℕ, s.get i = some xs[i]?
  forEach_eq : ∀ fuel, xs.length ≤ fuel → s.forEach fuel s.head = some xs
  links : Holds s.next s.prev ⟨s.head, s.tail⟩ xs

omit [DecidableEq α] in
/-- **What can be seen** is a matter of the links and of the length. -/
lemma agrees_iff : Agrees s xs ↔ Linked s xs :=
  ⟨fun h => ⟨h.links, h.length_eq⟩,
    fun h => ⟨h.length_eq, h.get_eq, fun _ => h.forEach_eq, h.holds⟩⟩

/-- **A call** on a list that agrees with its sequence. -/
theorem step_iff {c : Call α} (h : Linked s xs) (hlen : xs.length < 2 ^ 31)
    (hfuel : xs.length < fuel) (hvalid : c.Valid xs) :
    (∃ s', step fuel c s = some (c.result xs, s') ∧ Linked s' (c.after xs)) ↔ c.Meets xs := by
  have hmap : ∀ {o : Option (LinkedList α)} {ys : List α},
      (∃ s', (o.map fun s => ((none : Option α), s)) = some (none, s') ∧ Linked s' ys) ↔
        Gives o ys := by
    intro o ys
    cases o <;> simp [Gives]
  -- one case for each call; only insertions, `removeLast` and `clear` have a condition
  cases c with
  | append node =>
      exact (hmap.trans (gives_append h hvalid)).trans (and_iff_right trivial).symm
  | insert node index =>
      exact hmap.trans (gives_insert h hvalid.1 hvalid.2.1 hvalid.2.2)
  | insertWhen node judge =>
      have hgives : Gives (s.insertWhen fuel node judge) (insertedWhen node judge none xs) ↔
          (insertedWhen node judge none xs).length < 2 ^ 31 := by
        rw [insertWhen, h.head_eq]
        exact gives_insertWhenLoop (l := []) h hvalid hlen hfuel
      exact (hmap.trans hgives).trans (and_iff_right trivial).symm
  | remove node =>
      obtain ⟨l, r, rfl⟩ := List.append_of_mem hvalid
      have hnode : node ∉ l := fun hl => apart h.nodup hl List.mem_cons_self
      have herase : (l ++ node :: r).erase node = l ++ r := by
        rw [List.erase_append_right _ hnode, List.erase_cons_head]
      refine iff_of_true (hmap.mpr ?_) ⟨trivial, ?_⟩
      · rw [Call.after, herase]
        exact gives_remove h hlen
      · exact (List.length_erase_le ..).trans_lt hlen
  | removeAt index =>
      obtain ⟨hpos, hlt⟩ := hvalid
      obtain ⟨l, x, r, rfl, hl⟩ := exists_cut (show index.toNat < xs.length by omega)
      have hget : s.get index = some (some x) := by
        rw [← Int.toNat_of_nonneg hpos, h.get_eq, ← hl]
        simp
      have herase : (l ++ x :: r).eraseIdx index.toNat = l ++ r := by
        rw [← hl, List.eraseIdx_append_of_length_le le_rfl, Nat.sub_self]
        rfl
      obtain ⟨s', hs', hlinked⟩ := gives_remove h hlen
      refine iff_of_true ⟨s', ?_, ?_⟩ ⟨trivial, ?_⟩
      · rw [step, LinkedList.removeAt, hget, Call.result, ← hl]
        simp [hs']
      · rw [Call.after, herase]
        exact hlinked
      · exact (List.length_eraseIdx_le ..).trans_lt hlen
  | removeFirst =>
      refine iff_of_true (removeFirst_spec h hlen) ⟨trivial, ?_⟩
      rw [Call.after, List.length_tail]
      omega
  | removeLast =>
      rcases List.eq_nil_or_concat xs with rfl | ⟨l, x, rfl⟩
      · refine iff_of_false ?_ fun hmeets => hmeets.1 rfl
        rintro ⟨s', hs', -⟩
        rw [step, LinkedList.removeLast, h.tail_eq] at hs'
        cases hs'
      · rw [List.concat_eq_append] at *
        have hgives := removeLast_spec h hlen
        rw [Call.after, Call.result, List.dropLast_concat, List.getLast?_concat]
        refine iff_of_true hgives ⟨by simp [Call.Sound], ?_⟩
        rw [Call.after, List.length_dropLast]
        omega
  | clear =>
      constructor
      · rintro ⟨s', hs', hlinked⟩
        obtain rfl : s.clear = s' := by simpa [step, Call.result] using hs'
        have hzero : s.length = 0 := hlinked.length_eq
        rw [h.length_eq] at hzero
        exact ⟨List.length_eq_zero_iff.mp (by exact_mod_cast hzero), by simp [Call.after]⟩
      · rintro ⟨hnil, -⟩
        obtain rfl : xs = [] := hnil
        exact ⟨s.clear, rfl, .nil, h.length_eq⟩

/-! ### Runs -/

/-- All along the calls of a run, in front of each of them and at the end, the list agrees with
the sequence, and each call returns what it should. -/
def Correct (fuel : ℕ) : List (Call α) → LinkedList α → List α → Prop
  | [], s, xs => Agrees s xs
  | c :: cs, s, xs =>
      Agrees s xs ∧ ∃ s', step fuel c s = some (c.result xs, s') ∧ Correct fuel cs s' (c.after xs)

/-- Each call of a run, with the sequence it meets. -/
def Along (p : Call α → List α → Prop) : List (Call α) → List α → Prop
  | [], _ => True
  | c :: cs, xs => p c xs ∧ Along p cs (c.after xs)

omit [DecidableEq α] in
lemma length_insertedWhen_le {judge : Option α → Option α → ℤ} (p : Option α) (xs : List α) :
    (insertedWhen node judge p xs).length ≤ xs.length + 1 := by
  induction xs generalizing p with
  | nil =>
      rw [insertedWhen]
      split_ifs <;> simp
  | cons x xs ih =>
      rw [insertedWhen]
      split_ifs
      · simp
      · simp
      · rw [List.length_cons, List.length_cons]
        have := ih (some x)
        omega

/-- A call makes the sequence longer by at most one node. -/
lemma length_after_le (c : Call α) (xs : List α) : (c.after xs).length ≤ xs.length + 1 := by
  cases c with
  | append node => simp [Call.after]
  | insert node index => exact List.length_insertIdx_le_succ
  | insertWhen node judge => exact length_insertedWhen_le none xs
  | remove node => exact (List.length_erase_le ..).trans (Nat.le_succ _)
  | removeAt index => exact (List.length_eraseIdx_le ..).trans (Nat.le_succ _)
  | removeFirst => simp [Call.after]; omega
  | removeLast => simp [Call.after]; omega
  | clear => simp [Call.after]

lemma Correct.agrees {cs : List (Call α)} (h : Correct fuel cs s xs) : Agrees s xs := by
  cases cs with
  | nil => exact h
  | cons c cs => exact h.1

lemma correct_iff {cs : List (Call α)} (h : Linked s xs) (hlen : xs.length < 2 ^ 31)
    (hfuel : xs.length + cs.length < fuel) (hvalid : Along Call.Valid cs xs) :
    Correct fuel cs s xs ↔ Along Call.Meets cs xs := by
  induction cs generalizing s xs with
  | nil => exact iff_of_true (agrees_iff.mpr h) trivial
  | cons c cs ih =>
      rw [List.length_cons] at hfuel
      have hstep : (∃ s', step fuel c s = some (c.result xs, s') ∧ Linked s' (c.after xs)) ↔
          c.Meets xs := step_iff h hlen (by omega) hvalid.1
      have hafter := length_after_le c xs
      constructor
      · rintro ⟨-, s', hs', hrest⟩
        have hlinked := agrees_iff.mp hrest.agrees
        have hmeets := hstep.mp ⟨s', hs', hlinked⟩
        exact ⟨hmeets, (ih hlinked hmeets.2 (by omega) hvalid.2).mp hrest⟩
      · rintro ⟨hmeets, hrest⟩
        obtain ⟨s', hs', hlinked⟩ := hstep.mpr hmeets
        exact ⟨agrees_iff.mpr h, s', hs', (ih hlinked hmeets.2 (by omega) hvalid.2).mpr hrest⟩

end LinkedList

end Adl
