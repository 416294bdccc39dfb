import Mathlib.Tactic

/-!
Red-black trees with a hole.

A tree carries at each node a name, a payload and a colour, and its children as a
function of the side, so that what holds on the left and on the right is stated and
proved once. A context is the list of frames from a hole up to the root, and `plug`
fills the hole.

* `PtrTree.RB t c n`: no red node of `t` has a red child, every path has `n` black nodes,
  and the root has colour `c`; a leaf is black.
* `Fits ctx c n`: the hole of `ctx` takes every such tree. `Fits.plug` fills it, and
  `PtrTree.RB.unplug` splits a tree at any node.
* `entries_plug`: the entries of a plugged tree are those of the tree, between those
  before and after the hole.
-/

namespace RedBlack

/-! ### Sides -/

/-- The colour of a node. -/
inductive Color
  | red
  | black
deriving DecidableEq, Repr

/-- The side of a child. -/
inductive Side
  | left
  | right
deriving DecidableEq, Repr

namespace Side

/-- The opposite side. -/
def other : Side → Side
  | left => right
  | right => left

@[simp] lemma other_other (d : Side) : d.other.other = d := by cases d <;> rfl

@[simp] lemma other_ne (d : Side) : d.other ≠ d := by cases d <;> decide

@[simp] lemma ne_other (d : Side) : d ≠ d.other := by cases d <;> decide

lemma eq_or_eq_other (d e : Side) : e = d ∨ e = d.other := by
  cases d <;> cases e <;> decide

lemma forall_iff (d : Side) {P : Side → Prop} : (∀ e, P e) ↔ P d ∧ P d.other := by
  constructor
  · exact fun h => ⟨h d, h d.other⟩
  · rintro ⟨hd, ho⟩ e
    rcases eq_or_eq_other d e with rfl | rfl
    · exact hd
    · exact ho

end Side

variable {γ : Type*}

/-- One thing on a side, and one on the other. -/
def pair (d : Side) (x y : γ) (e : Side) : γ := if e = d then x else y

@[simp] lemma pair_self (d : Side) (x y : γ) : pair d x y d = x := if_pos rfl

@[simp] lemma pair_other (d : Side) (x y : γ) : pair d x y d.other = y := if_neg d.other_ne

lemma pair_swap (d : Side) (x y : γ) : pair d.other x y = pair d y x := by
  funext e
  rcases Side.eq_or_eq_other d e with rfl | rfl
  · simpa using pair_other e.other x y
  · simp

lemma pair_eta (d : Side) (f : Side → γ) : pair d (f d) (f d.other) = f := by
  funext e
  rcases Side.eq_or_eq_other d e with rfl | rfl <;> simp

lemma apply_pair {δ : Type*} (g : γ → δ) (d : Side) (x y : γ) (e : Side) :
    g (pair d x y e) = pair d (g x) (g y) e := by
  rcases Side.eq_or_eq_other d e with rfl | rfl <;> simp

lemma update_pair (d : Side) (x y z : γ) : Function.update (pair d x y) d z = pair d z y := by
  funext e
  rcases Side.eq_or_eq_other d e with rfl | rfl <;> simp

lemma update_eq_pair (d : Side) (f : Side → γ) (z : γ) :
    Function.update f d z = pair d z (f d.other) := by
  rw [← pair_eta d f, update_pair, pair_other]

/-! ### Trees and contexts -/

variable {α β : Type*}

/-- A binary tree with names of type `α` and payloads of type `β`. -/
inductive PtrTree (α β : Type*) where
  | leaf : PtrTree α β
  | node (p : α) (b : β) (c : Color) (kids : Side → PtrTree α β) : PtrTree α β

/-- A node above the hole: the side of the hole, the node and the tree on its other
side. -/
structure Frame (α β : Type*) where
  side : Side
  p : α
  b : β
  c : Color
  sib : PtrTree α β

/-- The frames above a hole, the parent first. -/
abbrev Ctx (α β : Type*) := List (Frame α β)

/-- The tree of a frame with the hole filled. -/
def Frame.fill (f : Frame α β) (t : PtrTree α β) : PtrTree α β :=
  .node f.p f.b f.c (pair f.side t f.sib)

/-- The hole filled. -/
def plug (ctx : Ctx α β) (t : PtrTree α β) : PtrTree α β := ctx.foldl (fun t f => f.fill t) t

@[simp] lemma plug_nil (t : PtrTree α β) : plug [] t = t := rfl

@[simp] lemma plug_cons (f : Frame α β) (ctx : Ctx α β) (t : PtrTree α β) :
    plug (f :: ctx) t = plug ctx (f.fill t) := rfl

lemma plug_append (ctx ctx' : Ctx α β) (t : PtrTree α β) :
    plug (ctx ++ ctx') t = plug ctx' (plug ctx t) := List.foldl_append

/-- The frame of a node around one of its children. -/
lemma fill_kids (d : Side) (p : α) (b : β) (c : Color) (kids : Side → PtrTree α β) :
    Frame.fill ⟨d, p, b, c, kids d.other⟩ (kids d) = .node p b c kids := by
  rw [Frame.fill, pair_eta]

/-- A frame seen from the other child. -/
lemma fill_swap (d : Side) (p : α) (b : β) (c : Color) (t sib : PtrTree α β) :
    Frame.fill ⟨d.other, p, b, c, t⟩ sib = Frame.fill ⟨d, p, b, c, sib⟩ t := by
  rw [Frame.fill, Frame.fill, pair_swap]

namespace PtrTree

/-- The name of the root. -/
def ptr : PtrTree α β → Option α
  | leaf => none
  | node p _ _ _ => some p

@[simp] lemma ptr_leaf : (leaf : PtrTree α β).ptr = none := rfl

@[simp] lemma ptr_node (p : α) (b : β) (c : Color) (kids : Side → PtrTree α β) :
    (node p b c kids).ptr = some p := rfl

lemma ptr_eq_none {t : PtrTree α β} : t.ptr = none ↔ t = leaf := by
  cases t with
  | leaf => simp
  | node => simp

/-- The root is red. -/
def isRed : PtrTree α β → Bool
  | leaf => false
  | node _ _ c _ => c = .red

/-- The names and payloads, from left to right. -/
def entries : PtrTree α β → List (α × β)
  | leaf => []
  | node p b _ kids => entries (kids .left) ++ (p, b) :: entries (kids .right)

@[simp] lemma entries_leaf : (leaf : PtrTree α β).entries = [] := rfl

lemma entries_node (p : α) (b : β) (c : Color) (kids : Side → PtrTree α β) :
    (node p b c kids).entries = (kids .left).entries ++ (p, b) :: (kids .right).entries := rfl

/-- The length of the longest path. -/
def height : PtrTree α β → ℕ
  | leaf => 0
  | node _ _ _ kids => max (height (kids .left)) (height (kids .right)) + 1

lemma height_kid_lt (p : α) (b : β) (c : Color) (kids : Side → PtrTree α β) (d : Side) :
    (kids d).height < (node p b c kids).height := by
  rw [height]
  cases d
  · omega
  · omega

lemma height_le_length (t : PtrTree α β) : t.height ≤ t.entries.length := by
  induction t with
  | leaf => exact le_rfl
  | node p b c kids ih =>
      have hleft := ih .left
      have hright := ih .right
      rw [height, entries_node, List.length_append, List.length_cons]
      omega

end PtrTree

/-- The entries of a frame to the left of its hole. -/
def Frame.before (f : Frame α β) : List (α × β) :=
  match f.side with
  | .left => []
  | .right => f.sib.entries ++ [(f.p, f.b)]

/-- The entries of a frame to the right of its hole. -/
def Frame.after (f : Frame α β) : List (α × β) :=
  match f.side with
  | .left => (f.p, f.b) :: f.sib.entries
  | .right => []

lemma Frame.entries_fill (f : Frame α β) (t : PtrTree α β) :
    (f.fill t).entries = f.before ++ t.entries ++ f.after := by
  obtain ⟨d, p, b, c, sib⟩ := f
  cases d <;> simp [fill, before, after, PtrTree.entries_node, pair]

/-- The entries to the left of the hole. -/
def before : Ctx α β → List (α × β)
  | [] => []
  | f :: ctx => before ctx ++ f.before

/-- The entries to the right of the hole. -/
def after : Ctx α β → List (α × β)
  | [] => []
  | f :: ctx => f.after ++ after ctx

lemma entries_plug (ctx : Ctx α β) (t : PtrTree α β) :
    (plug ctx t).entries = before ctx ++ t.entries ++ after ctx := by
  induction ctx generalizing t with
  | nil => simp [before, after]
  | cons f ctx ih => simp [before, after, ih, Frame.entries_fill]

lemma length_entries_plug (ctx : Ctx α β) (t : PtrTree α β) : (plug ctx t).entries.length =
    (before ctx).length + t.entries.length + (after ctx).length := by
  rw [entries_plug, List.length_append, List.length_append]

/-- Every frame holds an entry. -/
lemma length_le_before_after (ctx : Ctx α β) :
    ctx.length ≤ (before ctx).length + (after ctx).length := by
  induction ctx with
  | nil => exact Nat.zero_le _
  | cons f ctx ih =>
      rw [before, after, List.length_append, List.length_append, List.length_cons]
      have hframe : 1 ≤ f.before.length + f.after.length := by
        obtain ⟨d, p, b, c, sib⟩ := f
        cases d <;> simp [Frame.before, Frame.after]
      omega

lemma before_append (ctx ctx' : Ctx α β) : before (ctx ++ ctx') = before ctx' ++ before ctx := by
  induction ctx with
  | nil => simp [before]
  | cons f ctx ih => simp [before, ih]

lemma after_append (ctx ctx' : Ctx α β) : after (ctx ++ ctx') = after ctx ++ after ctx' := by
  induction ctx with
  | nil => rfl
  | cons f ctx ih => simp [after, ih]

/-- Nothing is to the left of a hole that is always on the left. -/
lemma before_of_left {ctx : Ctx α β} (h : ∀ f ∈ ctx, f.side = .left) : before ctx = [] := by
  induction ctx with
  | nil => rfl
  | cons f ctx ih =>
      rw [before, ih fun g hg => h g (List.mem_cons_of_mem f hg), Frame.before,
        h f List.mem_cons_self]
      rfl

lemma after_of_right {ctx : Ctx α β} (h : ∀ f ∈ ctx, f.side = .right) : after ctx = [] := by
  induction ctx with
  | nil => rfl
  | cons f ctx ih =>
      rw [after, ih fun g hg => h g (List.mem_cons_of_mem f hg), Frame.after,
        h f List.mem_cons_self]
      rfl

lemma height_le_plug (ctx : Ctx α β) (t : PtrTree α β) : t.height ≤ (plug ctx t).height := by
  induction ctx generalizing t with
  | nil => exact le_rfl
  | cons f ctx ih =>
      have hlt := PtrTree.height_kid_lt f.p f.b f.c (pair f.side t f.sib) f.side
      rw [pair_self] at hlt
      exact hlt.le.trans (ih (f.fill t))

/-- Trees with the same entries are interchangeable in a context. -/
lemma entries_plug_congr {ctx : Ctx α β} {t t' : PtrTree α β} (h : t.entries = t'.entries) :
    (plug ctx t).entries = (plug ctx t').entries := by
  rw [entries_plug, entries_plug, h]

/-! ### Red-black trees -/

/-- The colouring rule and the black height. -/
inductive PtrTree.RB : PtrTree α β → Color → ℕ → Prop
  | leaf : RB .leaf .black 0
  | red {p b kids n} (h : ∀ d, RB (kids d) .black n) : RB (.node p b .red kids) .red n
  | black {p b kids n} (cs : Side → Color) (h : ∀ d, RB (kids d) (cs d) n) :
      RB (.node p b .black kids) .black (n + 1)

/-- What the hole of a context takes: the tree of a context that holds nothing is black,
and under a red node only a black tree is right. -/
inductive Fits : Ctx α β → Color → ℕ → Prop
  | nil {n} : Fits [] .black n
  | red {d p b sib ctx n} (hsib : sib.RB .black n) (h : Fits ctx .red n) :
      Fits (⟨d, p, b, .red, sib⟩ :: ctx) .black n
  | black {d p b sib ctx c c' n} (hsib : sib.RB c' n) (h : Fits ctx .black (n + 1)) :
      Fits (⟨d, p, b, .black, sib⟩ :: ctx) c n

namespace PtrTree

lemma RB.red_of_pair {d : Side} {p : α} {b : β} {t s : PtrTree α β} {n : ℕ} (ht : t.RB .black n)
    (hs : s.RB .black n) : (node p b .red (pair d t s)).RB .red n := by
  refine .red ((Side.forall_iff d).mpr ⟨?_, ?_⟩)
  · rwa [pair_self]
  · rwa [pair_other]

lemma RB.black_of_pair {d : Side} {p : α} {b : β} {t s : PtrTree α β} {c c' : Color} {n : ℕ}
    (ht : t.RB c n) (hs : s.RB c' n) : (node p b .black (pair d t s)).RB .black (n + 1) := by
  refine .black (pair d c c') ((Side.forall_iff d).mpr ⟨?_, ?_⟩)
  · rwa [pair_self, pair_self]
  · rwa [pair_other, pair_other]

/-- A black tree with a black node on every path, by the children on a side and on the
other. -/
lemma RB.exists_black {t : PtrTree α β} {n : ℕ} (h : t.RB .black (n + 1)) (d : Side) :
    ∃ p b u v c c', t = node p b .black (pair d u v) ∧ u.RB c n ∧ v.RB c' n := by
  cases h with
  | @black p b kids _ cs h =>
      exact ⟨p, b, kids d, kids d.other, cs d, cs d.other, by rw [pair_eta], h d, h d.other⟩

/-- A red tree, by the children on a side and on the other. -/
lemma RB.exists_red {t : PtrTree α β} {n : ℕ} (h : t.RB .red n) (d : Side) :
    ∃ p b u v, t = node p b .red (pair d u v) ∧ u.RB .black n ∧ v.RB .black n := by
  cases h with
  | @red p b kids _ h => exact ⟨p, b, kids d, kids d.other, by rw [pair_eta], h d, h d.other⟩

/-- A red root may become black. -/
lemma RB.setBlack {p : α} {b : β} {kids : Side → PtrTree α β} {c : Color} {n : ℕ}
    (h : (node p b .red kids).RB c n) : (node p b .black kids).RB .black (n + 1) := by
  cases h with
  | red h => exact .black (fun _ => .black) h

/-- A tree with a black node on every path has a root. -/
lemma RB.exists_node {t : PtrTree α β} {c : Color} {n : ℕ} (h : t.RB c (n + 1)) :
    ∃ p b kids, t = node p b c kids := by
  cases h with
  | red _ => exact ⟨_, _, _, rfl⟩
  | black _ _ => exact ⟨_, _, _, rfl⟩

lemma RB.isRed {t : PtrTree α β} {c : Color} {n : ℕ} (h : t.RB c n) :
    t.isRed = decide (c = .red) := by
  cases h <;> rfl

lemma RB.kids_red {p : α} {b : β} {kids : Side → PtrTree α β} {c : Color} {n : ℕ}
    (h : (node p b .red kids).RB c n) (d : Side) : (kids d).RB .black n := by
  cases h with
  | red h => exact h d

/-- The children of a black node have one black node less on their paths. -/
lemma RB.kids_black {p : α} {b : β} {kids : Side → PtrTree α β} {c : Color} {n : ℕ}
    (h : (node p b .black kids).RB c n) :
    ∃ (m : ℕ) (cs : Side → Color), n = m + 1 ∧ ∀ d, (kids d).RB (cs d) m := by
  cases h with
  | black cs h => exact ⟨_, cs, rfl, h⟩

end PtrTree

/-- **Filling a hole.** -/
lemma Fits.plug {ctx : Ctx α β} {t : PtrTree α β} {c : Color} {n : ℕ} (h : Fits ctx c n)
    (ht : t.RB c n) : ∃ m, (plug ctx t).RB .black m := by
  induction h generalizing t with
  | nil => exact ⟨_, ht⟩
  | red hsib _ ih => exact ih (.red_of_pair ht hsib)
  | black hsib _ ih => exact ih (.black_of_pair ht hsib)

/-- **Splitting a tree** at a hole. -/
lemma PtrTree.RB.unplug {ctx : Ctx α β} {t : PtrTree α β} {m : ℕ} (h : (plug ctx t).RB .black m) :
    ∃ c n, t.RB c n ∧ Fits ctx c n := by
  induction ctx generalizing t with
  | nil => exact ⟨_, _, h, .nil⟩
  | cons f ctx ih =>
      obtain ⟨c, n, hfill, hfits⟩ := ih h
      obtain ⟨d, p, b, fc, sib⟩ := f
      cases fc with
      | red =>
          have ht := hfill.kids_red d
          have hsib := hfill.kids_red d.other
          rw [pair_self] at ht
          rw [pair_other] at hsib
          cases hfill with
          | red _ => exact ⟨_, _, ht, .red hsib hfits⟩
      | black =>
          obtain ⟨k, cs, rfl, hkids⟩ := hfill.kids_black
          have ht := hkids d
          have hsib := hkids d.other
          rw [pair_self] at ht
          rw [pair_other] at hsib
          cases hfill with
          | black _ _ => exact ⟨_, _, ht, .black hsib hfits⟩

/-- Where a red tree fits, the parent is black, and so does any other tree. -/
lemma Fits.of_red {ctx : Ctx α β} {n : ℕ} (h : Fits ctx .red n) (c : Color) : Fits ctx c n := by
  cases h with
  | black hsib h => exact .black hsib h

/-! ### Names -/

/-- A tree without names and payloads. -/
def PtrTree.shape : PtrTree α β → PtrTree Unit Unit
  | leaf => leaf
  | node _ _ c kids => node () () c fun d => shape (kids d)

/-- A frame without names and payloads. -/
def Frame.shape (f : Frame α β) : Frame Unit Unit := ⟨f.side, (), (), f.c, f.sib.shape⟩

lemma shape_pair (d : Side) (p : α) (b : β) (c : Color) (t u : PtrTree α β) :
    (PtrTree.node p b c (pair d t u)).shape = .node () () c (pair d t.shape u.shape) := by
  rw [PtrTree.shape]
  congr 1
  funext e
  exact apply_pair PtrTree.shape d t u e

lemma shape_plug (ctx : Ctx α β) (t : PtrTree α β) :
    (plug ctx t).shape = plug (ctx.map Frame.shape) t.shape := by
  induction ctx generalizing t with
  | nil => rfl
  | cons f ctx ih =>
      rw [plug_cons, ih, List.map_cons, plug_cons, Frame.fill, shape_pair]
      rfl

/-- The names do not count for the colours. -/
lemma PtrTree.rb_shape {t : PtrTree α β} {c : Color} {n : ℕ} : t.shape.RB c n ↔ t.RB c n := by
  constructor
  · intro h
    induction t generalizing c n with
    | leaf =>
        cases h with
        | leaf => exact .leaf
    | node p b c' kids ih =>
        cases h with
        | red h => exact .red fun d => ih d (h d)
        | black cs h => exact .black cs fun d => ih d (h d)
  · intro h
    induction h with
    | leaf => exact .leaf
    | red _ ih => exact .red ih
    | black cs _ ih => exact .black cs ih

/-- Trees of one shape are red-black trees or none is. -/
lemma PtrTree.RB.of_shape {t t' : PtrTree α β} {c : Color} {n : ℕ} (h : t.RB c n)
    (hshape : t.shape = t'.shape) : t'.RB c n :=
  rb_shape.mp (hshape ▸ rb_shape.mpr h)

end RedBlack
