import Sel4Test.Lib.ByteMem

/-!
Programs over byte buffers that log what they touch.

A program is a state transformer over a family of buffers. Every byte it reads or writes and
every range it gives to the cache is logged, so that a bound on what a function touches is a
statement about its log.

* `Prog`: the programs, with the loops over ranges of bytes (`readBlock`, `writeBlock`, `copy`,
  `mapBlock`).
* `Does`: all that a program logs from a state is allowed, and what holds of its result and of
  the state it leaves. `Does.bind` composes two such facts, and each loop has one rule that
  gives its effect on the buffers in closed form.
* `DoesIff`: the same with the exact condition under which all is allowed. The conditions of two
  programs in a row are joined by a conjunction, so that the bound is necessary as well.
-/

namespace Touch

open ByteMem

/-! ### Programs -/

/-- What a program does to a buffer, in the order of the source. -/
inductive Event (Obj : Type)
  | read (o : Obj) (a : ℕ)
  | write (o : Obj) (a : ℕ)
  | invalidate (o : Obj) (a n : ℕ)
  | clean (o : Obj) (a n : ℕ)
  deriving DecidableEq, Repr

/-- The buffers, and what has been done to them, the latest first. -/
structure State (Obj : Type) where
  mem : Obj → Mem
  log : List (Event Obj)

abbrev Prog (Obj α : Type) := StateM (State Obj) α

section Defs

variable {Obj : Type}

/-- One event. -/
def emit (e : Event Obj) : Prog Obj Unit := fun s => ((), { s with log := e :: s.log })

def readByte (o : Obj) (a : ℕ) : Prog Obj UInt8 := fun s =>
  (s.mem o a, { s with log := .read o a :: s.log })

def writeByte [DecidableEq Obj] (o : Obj) (a : ℕ) (b : UInt8) : Prog Obj Unit := fun s =>
  ((), ⟨Function.update s.mem o (store (s.mem o) a [b]), .write o a :: s.log⟩)

/-- The `n` bytes from `a` on, one after the other. -/
def readBlock (o : Obj) (a : ℕ) : ℕ → Prog Obj (List UInt8)
  | 0 => pure []
  | n + 1 => do
      let b ← readByte o a
      let bs ← readBlock o (a + 1) n
      return b :: bs

/-- A little-endian word of `w` bytes. -/
def readWord (o : Obj) (a w : ℕ) : Prog Obj ℕ := do
  let bs ← readBlock o a w
  return ofLE bs

variable [DecidableEq Obj]

def writeBlock (o : Obj) (a : ℕ) : List UInt8 → Prog Obj Unit
  | [] => pure ()
  | b :: bs => do
      writeByte o a b
      writeBlock o (a + 1) bs

/-- `n` bytes, one after the other. -/
def copy (dst : Obj) (d : ℕ) (src : Obj) (a : ℕ) : ℕ → Prog Obj Unit
  | 0 => pure ()
  | n + 1 => do
      let b ← readByte src a
      writeByte dst d b
      copy dst (d + 1) src (a + 1) n

/-- Every byte of a range is replaced in place. -/
def mapBlock (f : UInt8 → UInt8) (o : Obj) (a : ℕ) : ℕ → Prog Obj Unit
  | 0 => pure ()
  | n + 1 => do
      let b ← readByte o a
      writeByte o a (f b)
      mapBlock f o (a + 1) n

end Defs

/-! ### What a program does -/

section Does

variable {Obj α β : Type} {P P' : Event Obj → Prop} {s : State Obj} {x : Prog Obj α}
  {f : α → Prog Obj β} {R R' : α → State Obj → Prop} {Q : β → State Obj → Prop}

/-- From `s`, the program `x` logs allowed events only, and `R` holds of what it returns and
leaves. -/
def Does (P : Event Obj → Prop) (s : State Obj) (x : Prog Obj α)
    (R : α → State Obj → Prop) : Prop :=
  (∃ new, (x s).2.log = new ++ s.log ∧ ∀ e ∈ new, P e) ∧ R (x s).1 (x s).2

/-- Only the log differs. -/
def Same (s t : State Obj) : Prop := t.mem = s.mem

lemma Does.pure {a : α} (h : R a s) : Does P s (pure a) R := ⟨⟨[], rfl, nofun⟩, h⟩

lemma Does.bind (hx : Does P s x R) (hf : ∀ a t, R a t → Does P t (f a) Q) :
    Does P s (x >>= f) Q := by
  obtain ⟨⟨new, hlog, hnew⟩, hR⟩ := hx
  obtain ⟨⟨new', hlog', hnew'⟩, hQ⟩ := hf _ _ hR
  refine ⟨⟨new' ++ new, ?_, fun e he => ?_⟩, hQ⟩
  · rw [List.append_assoc, ← hlog]
    exact hlog'
  · rcases List.mem_append.mp he with he | he
    · exact hnew' e he
    · exact hnew e he

lemma Does.mono (h : Does P s x R) (hR : ∀ a t, R a t → R' a t) : Does P s x R' :=
  ⟨h.1, hR _ _ h.2⟩

lemma Does.weaken (h : Does P s x R) (hP : ∀ e, P e → P' e) : Does P' s x R := by
  obtain ⟨⟨new, hlog, hnew⟩, hR⟩ := h
  exact ⟨⟨new, hlog, fun e he => hP e (hnew e he)⟩, hR⟩

/-- The bound on a later part may depend on what an earlier part has left. -/
lemma Does.exists_bind {ι : Type} {B : ι → Event Obj → Prop} {S : ι → β → State Obj → Prop}
    (hx : Does P s x R) (hP : ∀ i e, P e → B i e)
    (hf : ∀ a t, R a t → ∃ i, Does (B i) t (f a) (S i)) : ∃ i, Does (B i) s (x >>= f) (S i) := by
  obtain ⟨i, hi⟩ := hf _ _ hx.2
  obtain ⟨⟨new, hlog, hnew⟩, -⟩ := hx
  obtain ⟨⟨new', hlog', hnew'⟩, hS⟩ := hi
  refine ⟨i, ⟨new' ++ new, ?_, fun e he => ?_⟩, hS⟩
  · rw [List.append_assoc, ← hlog]
    exact hlog'
  · rcases List.mem_append.mp he with he | he
    · exact hnew' e he
    · exact hP i e (hnew e he)

lemma Does.emit {e : Event Obj} (h : P e) :
    Does P s (emit e) fun _ t => t = { s with log := e :: s.log } :=
  ⟨⟨[e], rfl, by simpa using h⟩, rfl⟩

lemma Does.readByte {o : Obj} {a : ℕ} (h : P (.read o a)) :
    Does P s (readByte o a) fun b t => b = s.mem o a ∧ t = { s with log := .read o a :: s.log } :=
  ⟨⟨[.read o a], rfl, by simpa using h⟩, rfl, rfl⟩

/-- All that was logged is still logged. -/
lemma Does.log_mono (h : Does P s x R) {e : Event Obj} (he : e ∈ s.log) : e ∈ (x s).2.log := by
  obtain ⟨⟨new, hlog, -⟩, -⟩ := h
  rw [hlog]
  exact List.mem_append_right _ he

lemma Does.keep_log (h : Does P s x R) {e : Event Obj} (he : e ∈ s.log) :
    Does P s x fun a t => R a t ∧ e ∈ t.log :=
  ⟨h.1, h.2, h.log_mono he⟩

/-- From an empty log, all that is logged is allowed. -/
lemma Does.log_allowed (h : Does P s x R) (hs : s.log = []) : ∀ e ∈ (x s).2.log, P e := by
  obtain ⟨⟨new, hlog, hnew⟩, -⟩ := h
  rw [hlog, hs, List.append_nil]
  exact hnew

/-! ### When a program does what is allowed -/

variable {φ φ' ψ : Prop}

/-- From `s`, all that the program `x` logs is allowed exactly if `φ` holds, and `R` holds of what
it returns and leaves. -/
def DoesIff (P : Event Obj → Prop) (φ : Prop) (s : State Obj) (x : Prog Obj α)
    (R : α → State Obj → Prop) : Prop :=
  (∃ new, (x s).2.log = new ++ s.log ∧ ((∀ e ∈ new, P e) ↔ φ)) ∧ R (x s).1 (x s).2

lemma DoesIff.does (h : DoesIff P φ s x R) (hφ : φ) : Does P s x R := by
  obtain ⟨⟨new, hlog, hnew⟩, hR⟩ := h
  exact ⟨⟨new, hlog, hnew.mpr hφ⟩, hR⟩

lemma Does.doesIff (h : Does P s x R) : DoesIff P True s x R := by
  obtain ⟨⟨new, hlog, hnew⟩, hR⟩ := h
  exact ⟨⟨new, hlog, iff_true_intro hnew⟩, hR⟩

lemma DoesIff.congr (h : DoesIff P φ s x R) (hφ : φ ↔ φ') : DoesIff P φ' s x R := by
  obtain ⟨⟨new, hlog, hnew⟩, hR⟩ := h
  exact ⟨⟨new, hlog, hnew.trans hφ⟩, hR⟩

lemma DoesIff.mono (h : DoesIff P φ s x R) (hR : ∀ a t, R a t → R' a t) : DoesIff P φ s x R' :=
  ⟨h.1, hR _ _ h.2⟩

lemma DoesIff.pure {a : α} (h : R a s) : DoesIff P True s (pure a) R := (Does.pure h).doesIff

/-- Both parts are allowed what they do. -/
lemma DoesIff.bind (hx : DoesIff P φ s x R) (hf : ∀ a t, R a t → DoesIff P ψ t (f a) Q) :
    DoesIff P (φ ∧ ψ) s (x >>= f) Q := by
  obtain ⟨⟨new, hlog, hnew⟩, hR⟩ := hx
  obtain ⟨⟨new', hlog', hnew'⟩, hQ⟩ := hf _ _ hR
  refine ⟨⟨new' ++ new, ?_, ?_⟩, hQ⟩
  · rw [List.append_assoc, ← hlog]
    exact hlog'
  · rw [List.forall_mem_append, hnew, hnew', and_comm]

lemma DoesIff.emit {e : Event Obj} :
    DoesIff P (P e) s (Touch.emit e) fun _ t => t = { s with log := e :: s.log } :=
  ⟨⟨[e], rfl, List.forall_mem_singleton⟩, rfl⟩

lemma DoesIff.readByte {o : Obj} {a : ℕ} :
    DoesIff P (P (.read o a)) s (Touch.readByte o a) fun b t =>
      b = s.mem o a ∧ t = { s with log := .read o a :: s.log } :=
  ⟨⟨[.read o a], rfl, List.forall_mem_singleton⟩, rfl, rfl⟩

/-- From an empty log. -/
lemma DoesIff.log_allowed_iff (h : DoesIff P φ s x R) (hs : s.log = []) :
    (∀ e ∈ (x s).2.log, P e) ↔ φ := by
  obtain ⟨⟨new, hlog, hnew⟩, -⟩ := h
  rw [hlog, hs, List.append_nil, hnew]

end Does

/-! ### Loops that end early -/

/-- `B` holds of all that a loop of `n` rounds comes to, which ends with the first round of which
`E` holds. -/
def Until (E B : ℕ → Prop) (n : ℕ) : Prop := ∀ i < n, (∀ j < i, ¬ E j) → B i

lemma until_zero {E B : ℕ → Prop} : Until E B 0 := fun _ hi => absurd hi (Nat.not_lt_zero _)

/-- The first round, and the others where it does not end the loop. -/
lemma until_succ {E B : ℕ → Prop} {n : ℕ} :
    Until E B (n + 1) ↔
      B 0 ∧ (¬ E 0 → Until (fun j => E (j + 1)) (fun i => B (i + 1)) n) := by
  rw [Until, Nat.forall_lt_succ_left]
  refine and_congr (by simp) ⟨fun h h0 i hi hrest => h i hi ?_, fun h i hi hrest => ?_⟩
  · rw [Nat.forall_lt_succ_left]
    exact ⟨h0, hrest⟩
  · rw [Nat.forall_lt_succ_left] at hrest
    exact h hrest.1 i hi hrest.2

/-! ### Blocks of bytes -/

lemma load_zero (m : Mem) (a : ℕ) : load m a 0 = [] := rfl

lemma load_succ (m : Mem) (a n : ℕ) : load m a (n + 1) = m a :: load m (a + 1) n := by
  simp only [load, List.range_succ_eq_map, List.map_cons, List.map_map, Nat.add_zero]
  congr 1
  apply List.map_congr_left
  intro i _
  rw [Function.comp_apply, Nat.succ_eq_add_one, Nat.add_assoc, Nat.add_comm 1]

lemma store_cons (m : Mem) (a : ℕ) (b : UInt8) (bs : List UInt8) :
    store (store m a [b]) (a + 1) bs = store m a (b :: bs) := by
  funext x
  rcases Nat.lt_trichotomy x a with h | rfl | h
  · rw [store_of_outside (by omega), store_of_outside (by omega), store_of_outside (by omega)]
  · rw [store_of_outside (by omega)]
    simp [store]
  · have hx : x - a = (x - (a + 1)) + 1 := by omega
    have hone : store m a [b] x = m x := store_of_outside (Or.inr (by simpa using h))
    rw [store, if_pos (by omega), hone, store, if_pos (by omega), hx, List.getElem?_cons_succ]

/-- Two writes in a row are one. -/
lemma store_append (m : Mem) (a : ℕ) (xs ys : List UInt8) :
    store (store m a xs) (a + xs.length) ys = store m a (xs ++ ys) := by
  induction xs generalizing m a with
  | nil => simp
  | cons x xs ih =>
      rw [← store_cons, List.length_cons, ← Nat.add_assoc, Nat.add_right_comm, ih, store_cons,
        List.cons_append]

/-- The memory after every byte of a range is replaced. -/
def mapRange (f : UInt8 → UInt8) (m : Mem) (a n : ℕ) : Mem := fun x =>
  if a ≤ x ∧ x < a + n then f (m x) else m x

lemma mapRange_zero (f : UInt8 → UInt8) (m : Mem) (a : ℕ) : mapRange f m a 0 = m := by
  funext x
  rw [mapRange, if_neg (by omega)]

lemma mapRange_succ (f : UInt8 → UInt8) (m : Mem) (a n : ℕ) :
    mapRange f (store m a [f (m a)]) (a + 1) n = mapRange f m a (n + 1) := by
  funext x
  rcases Nat.lt_trichotomy x a with h | rfl | h
  · rw [mapRange, mapRange, if_neg (by omega), if_neg (by omega), store_of_outside (by omega)]
  · rw [mapRange, mapRange, if_neg (by omega), if_pos (by omega)]
    simp [store]
  · have hone : store m a [f (m a)] x = m x := store_of_outside (Or.inr (by simpa using h))
    rw [mapRange, mapRange, hone]
    congr 1
    rw [eq_iff_iff]
    omega

lemma mapRange_of_outside {f : UInt8 → UInt8} {m : Mem} {a n x : ℕ} (h : x < a ∨ a + n ≤ x) :
    mapRange f m a n x = m x := by
  rw [mapRange, if_neg (by omega)]

lemma mapRange_of_inside {f : UInt8 → UInt8} {m : Mem} {a n x : ℕ} (h : a ≤ x ∧ x < a + n) :
    mapRange f m a n x = f (m x) := by
  rw [mapRange, if_pos h]

/-- The change of a range is a write of the changed bytes. -/
lemma mapRange_eq_store (f : UInt8 → UInt8) (m : Mem) (a n : ℕ) :
    mapRange f m a n = store m a ((load m a n).map f) := by
  funext x
  by_cases h : a ≤ x ∧ x < a + n
  · obtain ⟨i, rfl⟩ := Nat.exists_eq_add_of_le h.1
    have hi : i < ((load m a n).map f).length := by
      rw [List.length_map, length_load]
      omega
    rw [mapRange_of_inside h, store_of_inside i hi]
    simp [load]
  · rw [mapRange_of_outside (by omega), store_of_outside]
    rw [List.length_map, length_load]
    omega

lemma load_mapRange (f : UInt8 → UInt8) (m : Mem) (a n : ℕ) :
    load (mapRange f m a n) a n = (load m a n).map f := by
  rw [load, load, List.map_map]
  refine List.map_congr_left fun i hi => ?_
  have hlt : i < n := List.mem_range.mp hi
  exact mapRange_of_inside ⟨by omega, by omega⟩

/-- A change that is its own inverse, made twice. -/
lemma mapRange_mapRange {f : UInt8 → UInt8} (hf : Function.Involutive f) (m : Mem) (a n : ℕ) :
    mapRange f (mapRange f m a n) a n = m := by
  funext x
  by_cases h : a ≤ x ∧ x < a + n
  · rw [mapRange_of_inside h, mapRange_of_inside h, hf]
  · rw [mapRange_of_outside (by omega), mapRange_of_outside (by omega)]

/-! ### The loops -/

section Loops

variable {Obj : Type} {P : Event Obj → Prop} {s : State Obj} {o : Obj} {a n : ℕ}

/-- The bytes of a block are those of its first byte and of the rest. -/
lemma forall_block {p : ℕ → Prop} :
    (p a ∧ ∀ i < n, p (a + 1 + i)) ↔ ∀ i < n + 1, p (a + i) := by
  rw [Nat.forall_lt_succ_left]
  simp only [Nat.add_zero, Nat.add_assoc, Nat.add_comm 1]

lemma DoesIff.readBlock :
    DoesIff P (∀ i < n, P (.read o (a + i))) s (Touch.readBlock o a n) fun bs t =>
      bs = load (s.mem o) a n ∧ Same s t := by
  induction n generalizing s a with
  | zero => exact (DoesIff.pure ⟨rfl, rfl⟩).congr (by simp)
  | succ n ih =>
      refine (DoesIff.readByte.bind ?_).congr (forall_block (p := fun i => P (.read o i)))
      rintro b t ⟨rfl, rfl⟩
      refine (ih.bind ?_).congr (and_true _).to_iff
      rintro bs t ⟨rfl, ht⟩
      exact DoesIff.pure ⟨by rw [load_succ], ht⟩

lemma Does.readBlock (h : ∀ i < n, P (.read o (a + i))) :
    Does P s (readBlock o a n) fun bs t => bs = load (s.mem o) a n ∧ Same s t :=
  DoesIff.readBlock.does h

lemma DoesIff.readWord {w : ℕ} :
    DoesIff P (∀ i < w, P (.read o (a + i))) s (Touch.readWord o a w) fun v t =>
      v = readLE (s.mem o) a w ∧ Same s t := by
  refine (DoesIff.readBlock.bind ?_).congr (and_true _).to_iff
  rintro bs t ⟨rfl, ht⟩
  exact DoesIff.pure ⟨rfl, ht⟩

lemma Does.readWord {w : ℕ} (h : ∀ i < w, P (.read o (a + i))) :
    Does P s (readWord o a w) fun v t => v = readLE (s.mem o) a w ∧ Same s t :=
  DoesIff.readWord.does h

/-- The first byte of a block is read. -/
lemma mem_log_readBlock (hn : 0 < n) : .read o a ∈ (Touch.readBlock o a n s).2.log := by
  cases n with
  | zero => omega
  | succ n =>
      have hrest : Does (fun _ => True) { s with log := .read o a :: s.log }
          (Touch.readBlock o (a + 1) n) fun _ _ => True :=
        (Does.readBlock fun _ _ => trivial).mono fun _ _ _ => trivial
      exact hrest.log_mono List.mem_cons_self

variable [DecidableEq Obj]

lemma DoesIff.writeByte {b : UInt8} :
    DoesIff P (P (.write o a)) s (Touch.writeByte o a b) fun _ t =>
      t = ⟨Function.update s.mem o (store (s.mem o) a [b]), .write o a :: s.log⟩ :=
  ⟨⟨[.write o a], rfl, List.forall_mem_singleton⟩, rfl⟩

lemma Does.writeByte {b : UInt8} (h : P (.write o a)) :
    Does P s (writeByte o a b) fun _ t =>
      t = ⟨Function.update s.mem o (store (s.mem o) a [b]), .write o a :: s.log⟩ :=
  DoesIff.writeByte.does h

lemma DoesIff.writeBlock {bs : List UInt8} :
    DoesIff P (∀ i < bs.length, P (.write o (a + i))) s (Touch.writeBlock o a bs) fun _ t =>
      t.mem = Function.update s.mem o (store (s.mem o) a bs) := by
  induction bs generalizing s a with
  | nil => exact (DoesIff.pure (by simp)).congr (by simp)
  | cons b bs ih =>
      refine (DoesIff.writeByte.bind ?_).congr (forall_block (p := fun i => P (.write o i)))
      rintro - t rfl
      refine ih.mono ?_
      rintro - t ht
      dsimp only at ht
      rw [ht, Function.update_idem, Function.update_self, store_cons]

lemma Does.writeBlock {bs : List UInt8} (h : ∀ i < bs.length, P (.write o (a + i))) :
    Does P s (writeBlock o a bs) fun _ t =>
      t.mem = Function.update s.mem o (store (s.mem o) a bs) :=
  DoesIff.writeBlock.does h

lemma Does.copy {dst src : Obj} {d : ℕ} (hne : src ≠ dst)
    (h : ∀ i < n, P (.read src (a + i)) ∧ P (.write dst (d + i))) :
    Does P s (copy dst d src a n) fun _ t =>
      t.mem = Function.update s.mem dst (store (s.mem dst) d (load (s.mem src) a n)) := by
  induction n generalizing s a d with
  | zero => exact Does.pure (by simp [load_zero])
  | succ n ih =>
      have h0 := h 0 (by omega)
      refine (Does.readByte (by simpa using h0.1)).bind ?_
      rintro b t ⟨rfl, rfl⟩
      refine (Does.writeByte (by simpa using h0.2)).bind ?_
      rintro - t rfl
      refine (ih fun i hi => ?_).mono ?_
      · have := h (i + 1) (by omega)
        rwa [← Nat.add_assoc, ← Nat.add_assoc, Nat.add_right_comm a, Nat.add_right_comm d] at this
      · rintro - t ht
        dsimp only at ht
        rw [ht, Function.update_idem, Function.update_self, Function.update_of_ne hne, load_succ,
          store_cons]

lemma DoesIff.mapBlock {f : UInt8 → UInt8} :
    DoesIff P (∀ i < n, P (.read o (a + i)) ∧ P (.write o (a + i))) s (Touch.mapBlock f o a n)
      fun _ t => t.mem = Function.update s.mem o (mapRange f (s.mem o) a n) := by
  induction n generalizing s a with
  | zero => exact (DoesIff.pure (by rw [mapRange_zero, Function.update_eq_self])).congr (by simp)
  | succ n ih =>
      have hblock : (P (.read o a) ∧ P (.write o a) ∧
          ∀ i < n, P (.read o (a + 1 + i)) ∧ P (.write o (a + 1 + i))) ↔
            ∀ i < n + 1, P (.read o (a + i)) ∧ P (.write o (a + i)) := by
        rw [← and_assoc]
        exact forall_block (p := fun i => P (.read o i) ∧ P (.write o i))
      refine (DoesIff.readByte.bind ?_).congr hblock
      rintro b t ⟨rfl, rfl⟩
      refine DoesIff.writeByte.bind ?_
      rintro - t rfl
      refine ih.mono ?_
      rintro - t ht
      dsimp only at ht
      rw [ht, Function.update_idem, Function.update_self, mapRange_succ]

lemma Does.mapBlock {f : UInt8 → UInt8}
    (h : ∀ i < n, P (.read o (a + i)) ∧ P (.write o (a + i))) :
    Does P s (mapBlock f o a n) fun _ t =>
      t.mem = Function.update s.mem o (mapRange f (s.mem o) a n) :=
  DoesIff.mapBlock.does h

end Loops

end Touch
