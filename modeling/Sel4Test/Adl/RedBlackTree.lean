import Mathlib.Tactic
import Sel4Test.Lib.RedBlack

/-!
The red-black tree of the ADL, `adl/collections/RedBlackTree.hpp`, which is also its
`HashMap`.

The tree is a heap of nodes with pointers to the parent and to the children. A pointer
is `none` where the source has `nullptr`. What the source would do wrong is a fault: a
null pointer or a freed node is accessed, the allocator gives no block to `setData`, or
`__die` is called. Loops and recursions take the number of rounds they may use, and
running out of it is a fault too.

The source writes what it does for the left and for the right side one after the other,
each the mirror of the other. Here the side is an argument: `rotateLeft` and
`rotateRight` are `rotate` with the two sides, and of a pair of mirrored branches one is
kept, for the side `far` that the sibling is on, with `near` the other side.
-/

namespace Adl

open RedBlack

/-- `NodeColor`. -/
abbrev NodeColor := Color

/-- `ChildSide`. -/
abbrev ChildSide := Side

variable {α κ ν : Type}

/-- `Node`; `leftChild` and `rightChild` are `child .left` and `child .right`. -/
structure Node (α κ ν : Type) where
  key : κ
  data : ν
  color : NodeColor
  parent : Option α
  child : ChildSide → Option α

/-- What ends the program. -/
inductive Fault
  | nullPointer
  | dangling
  | outOfMemory
  | died
  | outOfFuel
deriving DecidableEq, Repr

/-- The allocator, which is bound when the program starts: which block it gives at its
`n`-th call when some blocks are in use, or none. A block that it gives is not in use. -/
structure Allocator (α : Type) where
  alloc : ℕ → (α → Bool) → Option α
  fresh : ∀ {n inUse p}, alloc n inUse = some p → inUse p = false

/-- A `RedBlackTree` with the nodes that are allocated, and the number of allocations so
far. -/
structure RedBlackTree (α κ ν : Type) where
  root : Option α
  heap : α → Option (Node α κ ν)
  allocs : ℕ

namespace RedBlackTree

/-- The constructor. -/
def empty : RedBlackTree α κ ν := ⟨none, fun _ => none, 0⟩

variable [DecidableEq α]

/-! ### Nodes -/

/-- The node that a pointer points to. -/
def deref (s : RedBlackTree α κ ν) : Option α → Except Fault (Node α κ ν)
  | none => .error .nullPointer
  | some p =>
      match s.heap p with
      | none => .error .dangling
      | some n => .ok n

/-- An assignment to a field of a node. -/
def write (s : RedBlackTree α κ ν) (f : Node α κ ν → Node α κ ν) :
    Option α → Except Fault (RedBlackTree α κ ν)
  | none => .error .nullPointer
  | some p =>
      match s.heap p with
      | none => .error .dangling
      | some n => .ok { s with heap := Function.update s.heap p (some (f n)) }

def setColor (s : RedBlackTree α κ ν) (p : Option α) (c : NodeColor) :
    Except Fault (RedBlackTree α κ ν) :=
  s.write (fun n => { n with color := c }) p

def setParent (s : RedBlackTree α κ ν) (p parent : Option α) : Except Fault (RedBlackTree α κ ν) :=
  s.write (fun n => { n with parent }) p

def setChild (s : RedBlackTree α κ ν) (p : Option α) (d : ChildSide) (q : Option α) :
    Except Fault (RedBlackTree α κ ν) :=
  s.write (fun n => { n with child := Function.update n.child d q }) p

/-- An assignment to the data of a node, in `setData` or through a reference that
`operator[]` returned. -/
def setNodeData (s : RedBlackTree α κ ν) (p : Option α) (f : ν → ν) :
    Except Fault (RedBlackTree α κ ν) :=
  s.write (fun n => { n with data := f n.data }) p

/-- The colour of the node that a pointer points to. -/
def color (s : RedBlackTree α κ ν) (p : Option α) : Except Fault NodeColor := do
  let n ← s.deref p
  return n.color

/-- A node that is there is told its new parent. -/
def adopt (s : RedBlackTree α κ ν) (parent : Option α) :
    Option α → Except Fault (RedBlackTree α κ ν)
  | none => .ok s
  | some p => s.setParent (some p) parent

/-- The parent of a node points to another one in its place. -/
def replaceChild (s : RedBlackTree α κ ν) (parent node new : Option α) :
    Except Fault (RedBlackTree α κ ν) := do
  let p ← s.deref parent
  if p.child .left = node then s.setChild parent .left new else s.setChild parent .right new

/-- The same where the node may be the root. -/
def rebind (s : RedBlackTree α κ ν) (parent node new : Option α) :
    Except Fault (RedBlackTree α κ ν) :=
  match parent with
  | none => .ok { s with root := new }
  | some p => s.replaceChild (some p) node new

/-- `allocator->free`. -/
def free (s : RedBlackTree α κ ν) : Option α → Except Fault (RedBlackTree α κ ν)
  | none => .error .nullPointer
  | some p =>
      match s.heap p with
      | none => .error .dangling
      | some _ => .ok { s with heap := Function.update s.heap p none }

/-! ### Rotations -/

/-- Rotation towards a side. -/
def rotate (s : RedBlackTree α κ ν) (d : ChildSide) (node : Option α) :
    Except Fault (RedBlackTree α κ ν) := do
  let n ← s.deref node
  let targetRoot := n.child d.other
  let s ← s.rebind n.parent node targetRoot
  let s ← s.setParent targetRoot n.parent
  let target ← s.deref targetRoot
  let s ← s.setChild node d.other (target.child d)
  let s ← s.adopt node (target.child d)
  let s ← s.setChild targetRoot d node
  s.setParent node targetRoot

def rotateLeft (s : RedBlackTree α κ ν) (node : Option α) : Except Fault (RedBlackTree α κ ν) :=
  s.rotate .left node

def rotateRight (s : RedBlackTree α κ ν) (node : Option α) : Except Fault (RedBlackTree α κ ν) :=
  s.rotate .right node

/-! ### Repair -/

/-- The other child of a parent. -/
def siblingOf (p : Node α κ ν) (node : Option α) : Option α :=
  if p.child .left ≠ node then p.child .left else p.child .right

/-- The side that a child is on. -/
def sideOf (p : Node α κ ν) (node : Option α) : ChildSide :=
  if node = p.child .left then .left else .right

/-- The last rotations and colours of `rebalanceRedNode`: the uncle is black. `d` is the
side of the parent. -/
def rebalanceOuter (s : RedBlackTree α κ ν) (d : ChildSide) (node parent grandpa : Option α) :
    Except Fault (RedBlackTree α κ ν) := do
  let p ← s.deref parent
  if node = p.child d then
    let s ← s.rotate d.other grandpa
    let s ← s.setColor parent .black
    s.setColor grandpa .red
  else
    let s ← s.rotate d parent
    let s ← s.rotate d.other grandpa
    let s ← s.setColor grandpa .red
    s.setColor node .black

/-- Whether a pointer points to a red node. -/
def isRed (s : RedBlackTree α κ ν) : Option α → Except Fault Bool
  | none => .ok false
  | some p => do
      let c ← s.color (some p)
      return c = .red

/-- `rebalanceRedNode`. -/
def rebalanceRedNode (s : RedBlackTree α κ ν) (node : Option α) :
    ℕ → Except Fault (RedBlackTree α κ ν)
  | 0 => .error .outOfFuel
  | fuel + 1 => do
      let n ← s.deref node
      if n.color = .black then .ok s
      else
        match n.parent with
        | none => s.setColor node .black
        | some parent => do
            let p ← s.deref (some parent)
            if p.color = .black then .ok s
            else
              let g ← s.deref p.parent
              let uncle := siblingOf g (some parent)
              if ← s.isRed uncle then
                let s ← s.setColor uncle .black
                let s ← s.setColor (some parent) .black
                let s ← s.setColor p.parent .red
                s.rebalanceRedNode p.parent fuel
              else s.rebalanceOuter (sideOf g (some parent)) node (some parent) p.parent

/-- The first two tests of `rebalanceChildren` on a black sibling. -/
def kidsBlack (s : RedBlackTree α κ ν) (n : Node α κ ν) : Except Fault Bool := do
  let l ← s.color (n.child .left)
  if l = .black then
    let r ← s.color (n.child .right)
    return r = .black
  else return false

/-- One round of `rebalanceChildren` under a red parent, which is the last one. -/
def rebalanceRedParent (s : RedBlackTree α κ ν) (parent sibling : Option α) (far : ChildSide)
    (fuel : ℕ) : Except Fault (RedBlackTree α κ ν) := do
  let near := far.other
  let sib ← s.deref sibling
  let c ← s.color (sib.child near)
  if c = .black then s.rotate near parent
  else
    let c ← s.color (sib.child far)
    if c = .black then
      let s ← s.setColor parent .black
      let s ← s.setColor sibling .red
      s.rebalanceRedNode (sib.child near) fuel
    else
      let s ← s.setColor parent .black
      let s ← s.setColor sibling .red
      let s ← s.setColor (sib.child far) .black
      s.rotate near parent

/-- The last round of `rebalanceChildren` under a black parent: the sibling is black and
has a red child. -/
def rebalanceRedNephew (s : RedBlackTree α κ ν) (parent sibling : Option α) (far : ChildSide) :
    Except Fault (RedBlackTree α κ ν) := do
  let near := far.other
  let sib ← s.deref sibling
  let c ← s.color (sib.child far)
  if c = .red then
    let s ← s.setColor (sib.child far) .black
    s.rotate near parent
  else
    let s ← s.setColor (sib.child near) .black
    let s ← s.rotate far sibling
    s.rotate near parent

/-- `rebalanceChildren`. -/
def rebalanceChildren (s : RedBlackTree α κ ν) (node : Option α) :
    ℕ → Except Fault (RedBlackTree α κ ν)
  | 0 => .error .outOfFuel
  | fuel + 1 =>
      if node = s.root then .ok s
      else do
        let n ← s.deref node
        let p ← s.deref n.parent
        let sibling := siblingOf p node
        let far := sideOf p sibling
        let sib ← s.deref sibling
        if p.color = .red then s.rebalanceRedParent n.parent sibling far fuel
        else if sib.color = .red then
          let s ← s.setColor n.parent .red
          let s ← s.setColor sibling .black
          let s ← s.rotate far.other n.parent
          s.rebalanceChildren node fuel
        else if ← s.kidsBlack sib then
          let s ← s.setColor sibling .red
          s.rebalanceChildren n.parent fuel
        else s.rebalanceRedNephew n.parent sibling far

/-! ### Search -/

section Search

variable [LinearOrder κ]

/-- The loop of `locateNode`, which `removeKey` has as well. -/
def locateFrom (s : RedBlackTree α κ ν) (key : κ) : Option α → ℕ → Except Fault (Option α)
  | _, 0 => .error .outOfFuel
  | none, _ + 1 => .ok none
  | some p, fuel + 1 => do
      let n ← s.deref (some p)
      if key = n.key then .ok (some p)
      else s.locateFrom key (if n.key > key then n.child .left else n.child .right) fuel

def locateNode (s : RedBlackTree α κ ν) (key : κ) (fuel : ℕ) : Except Fault (Option α) :=
  s.locateFrom key s.root fuel

def hasKey (s : RedBlackTree α κ ν) (key : κ) (fuel : ℕ) : Except Fault Bool := do
  let p ← s.locateNode key fuel
  return p.isSome

def getData (s : RedBlackTree α κ ν) (key : κ) (fuel : ℕ) : Except Fault ν := do
  let p ← s.locateNode key fuel
  match p with
  | none => .error .died
  | some p => do
      let n ← s.deref (some p)
      return n.data

def copyData (s : RedBlackTree α κ ν) (key : κ) (fallback : Option ν) (fuel : ℕ) :
    Except Fault ν := do
  let p ← s.locateNode key fuel
  match p, fallback with
  | some p, _ => do
      let n ← s.deref (some p)
      return n.data
  | none, some v => .ok v
  | none, none => .error .died

/-! ### Insertion -/

/-- The loop of `setData`: the node with the key, or none and the last node visited. -/
def findSpot (s : RedBlackTree α κ ν) (key : κ) :
    Option α → Option α → ℕ → Except Fault (Option α × Option α)
  | _, _, 0 => .error .outOfFuel
  | none, currentParent, _ + 1 => .ok (none, currentParent)
  | some p, currentParent, fuel + 1 => do
      let n ← s.deref (some p)
      if key = n.key then .ok (some p, currentParent)
      else s.findSpot key (if n.key > key then n.child .left else n.child .right) (some p) fuel

/-- The second half of `setData`: a new node below the last one visited. Without a block
the source writes to a null pointer. -/
def insertNode (A : Allocator α) (s : RedBlackTree α κ ν) (key : κ) (data : ν)
    (currentParent : Option α) (fuel : ℕ) : Except Fault (RedBlackTree α κ ν) :=
  match A.alloc s.allocs fun p => (s.heap p).isSome with
  | none => .error .outOfMemory
  | some p =>
      match currentParent with
      | none => .ok { s with
          root := some p
          heap := Function.update s.heap p (some ⟨key, data, .black, none, fun _ => none⟩)
          allocs := s.allocs + 1 }
      | some q => do
          let s := { s with
            heap := Function.update s.heap p (some ⟨key, data, .red, some q, fun _ => none⟩)
            allocs := s.allocs + 1 }
          let n ← s.deref (some q)
          let s ← s.setChild (some q) (if n.key > key then .left else .right) (some p)
          s.rebalanceRedNode (some p) fuel

def setData (A : Allocator α) (s : RedBlackTree α κ ν) (key : κ) (data : ν) (fuel : ℕ) :
    Except Fault (RedBlackTree α κ ν) := do
  let spot ← s.findSpot key s.root none fuel
  match spot.1 with
  | some p => s.setNodeData (some p) fun _ => data
  | none => s.insertNode A key data spot.2 fuel

/-- `operator[]`, with the node that the returned reference is into. -/
def index [Inhabited ν] (A : Allocator α) (s : RedBlackTree α κ ν) (key : κ) (fuel : ℕ) :
    Except Fault (Option α × RedBlackTree α κ ν) := do
  let p ← s.locateNode key fuel
  match p with
  | some p => .ok (some p, s)
  | none => do
      let s ← s.setData A key default fuel
      let p ← s.locateNode key fuel
      let _ ← s.deref p
      return (p, s)

/-! ### Removal -/

/-- The inner loops of `removeKey`: the last node towards a side. -/
def outermost (s : RedBlackTree α κ ν) (d : ChildSide) (p : Option α) :
    ℕ → Except Fault (Option α)
  | 0 => .error .outOfFuel
  | fuel + 1 => do
      let n ← s.deref p
      if n.child d ≠ none then s.outermost d (n.child d) fuel else .ok p

/-- A node and its neighbour in order change places and colours; `d` is the side of the
child that the neighbour is under. -/
def exchange (s : RedBlackTree α κ ν) (d : ChildSide) (currentNode replacementNode : Option α) :
    Except Fault (RedBlackTree α κ ν) := do
  let curr ← s.deref currentNode
  let repl ← s.deref replacementNode
  let s ← s.setColor currentNode repl.color
  let s ← s.setColor replacementNode curr.color
  let s ← s.rebind curr.parent currentNode replacementNode
  let s ← s.adopt replacementNode (curr.child d.other)
  let s ← s.adopt currentNode (repl.child d)
  let s ← s.setChild currentNode d.other none
  let s ← s.setChild currentNode d (repl.child d)
  let s ← s.setParent currentNode (if repl.parent = currentNode then replacementNode else repl.parent)
  let s ← s.setChild replacementNode d.other (curr.child d.other)
  let s ← s.setParent replacementNode curr.parent
  let s ← s.setChild replacementNode d
    (if curr.child d = replacementNode then currentNode else curr.child d)
  if curr.child d ≠ replacementNode then
    let s ← s.setParent (curr.child d) replacementNode
    s.setChild repl.parent d.other currentNode
  else .ok s

/-- The first loop of `removeKey`: the node changes places until it has no child. -/
def sink (s : RedBlackTree α κ ν) (currentNode : Option α) :
    ℕ → Except Fault (RedBlackTree α κ ν)
  | 0 => .error .outOfFuel
  | fuel + 1 => do
      let n ← s.deref currentNode
      if n.child .left ≠ none ∨ n.child .right ≠ none then
        let d := if n.child .right ≠ none then .right else .left
        let replacementNode ← s.outermost d.other (n.child d) fuel
        let s ← s.exchange d currentNode replacementNode
        s.sink currentNode fuel
      else .ok s

/-- What follows the removal of a black node under a red parent. -/
def repairRedParent (s : RedBlackTree α κ ν) (parent sibling : Option α) (far : ChildSide) :
    Except Fault (RedBlackTree α κ ν) := do
  let near := far.other
  let sib ← s.deref sibling
  if sib.child .left ≠ none ∧ sib.child .right ≠ none then
    let s ← s.setColor sibling .red
    let s ← s.setColor parent .black
    let s ← s.setColor (sib.child far) .black
    s.rotate near parent
  else if sib.child near ≠ none then
    let s ← s.setColor parent .black
    let s ← s.rotate far sibling
    s.rotate near parent
  else if sib.child far ≠ none then
    let s ← s.setColor parent .black
    let s ← s.setColor sibling .red
    let s ← s.setColor (sib.child far) .black
    s.rotate near parent
  else
    let s ← s.setColor sibling .red
    s.setColor parent .black

/-- The sibling is red. -/
def repairRedSibling (s : RedBlackTree α κ ν) (parent sibling : Option α) (far : ChildSide)
    (fuel : ℕ) : Except Fault (RedBlackTree α κ ν) := do
  let near := far.other
  let s ← s.setColor sibling .black
  let s ← s.setColor parent .red
  let s ← s.rotate near parent
  let s ← s.rotate near parent
  let p ← s.deref parent
  if p.child far ≠ none then s.rebalanceRedNode (p.child far) fuel else .ok s

/-- What follows the removal of a black node under a black parent. -/
def repairBlackParent (s : RedBlackTree α κ ν) (parent sibling : Option α) (far : ChildSide)
    (fuel : ℕ) : Except Fault (RedBlackTree α κ ν) := do
  let near := far.other
  let sib ← s.deref sibling
  if sib.color = .black ∧ sib.child .left ≠ none ∧ sib.child .right ≠ none then
    let s ← s.setColor (sib.child near) .black
    let s ← s.rotate far sibling
    s.rotate near parent
  else if sib.color = .black ∧ (sib.child .left ≠ none ∨ sib.child .right ≠ none) then
    if sib.child far ≠ none then
      let s ← s.setColor (sib.child far) .black
      s.rotate near parent
    else
      let s ← s.setColor (sib.child near) .black
      let s ← s.rotate far sibling
      s.rotate near parent
  else if sib.color = .black then
    let p ← s.deref parent
    let s ← s.setColor (if p.child .left = none then p.child .right else p.child .left) .red
    s.rebalanceChildren parent fuel
  else s.repairRedSibling parent sibling far fuel

/-- The second half of `removeKey`: a node without children is removed. -/
def removeLeaf (s : RedBlackTree α κ ν) (currentNode : Option α) (fuel : ℕ) :
    Except Fault (RedBlackTree α κ ν) :=
  if currentNode = s.root then { s with root := none }.free currentNode
  else do
    let n ← s.deref currentNode
    if n.color = .red then
      let s ← s.replaceChild n.parent currentNode none
      s.free currentNode
    else
      let p ← s.deref n.parent
      let sibling := siblingOf p currentNode
      let far := sideOf p sibling
      let s ← s.replaceChild n.parent currentNode none
      let s ← s.free currentNode
      let p ← s.deref n.parent
      if p.color = .red then s.repairRedParent n.parent sibling far
      else s.repairBlackParent n.parent sibling far fuel

def removeKey (s : RedBlackTree α κ ν) (key : κ) (noExcept : Bool) (fuel : ℕ) :
    Except Fault (RedBlackTree α κ ν) := do
  let p ← s.locateFrom key s.root fuel
  match p with
  | none => if noExcept then .ok s else .error .died
  | some p => do
      let s ← s.sink (some p) fuel
      s.removeLeaf (some p) fuel

end Search

/-! ### Clearing -/

/-- `cleanup`. -/
def cleanup (s : RedBlackTree α κ ν) (node : Option α) : ℕ → Except Fault (RedBlackTree α κ ν)
  | 0 => .error .outOfFuel
  | fuel + 1 => do
      let n ← s.deref node
      let s ← (if n.child .left ≠ none then s.cleanup (n.child .left) fuel else .ok s)
      let n ← s.deref node
      let s ← (if n.child .right ≠ none then s.cleanup (n.child .right) fuel else .ok s)
      s.free node

def clear (s : RedBlackTree α κ ν) (fuel : ℕ) : Except Fault (RedBlackTree α κ ν) :=
  if s.root ≠ none then do
    let s ← s.cleanup s.root fuel
    return { s with root := none }
  else .ok s

end RedBlackTree

end Adl
