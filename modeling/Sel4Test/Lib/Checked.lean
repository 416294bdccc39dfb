import Mathlib.Tactic

/-!
Programs over 64-bit words that stop at a fault.

A program is a value of `Except Fault`: an addition that exceeds 64 bits, a
subtraction below zero, a shift by the width of a word, a failed assertion, a null
pointer that is followed and a loop that uses up its rounds are faults. `Gives x Q`
says that the program `x` returns without a fault, and that what it returns satisfies `Q`.

* **Steps.** `Gives.bind`, `Gives.mono`, `gives_add`, `gives_sub`, `gives_shl`,
  `gives_shr`, `gives_assert`, `gives_deref`.
* **Loops.** `Gives.loop`: a round that keeps an invariant and lowers a measure,
  or leaves with the result, makes a loop that returns. `Gives.follow`: a loop along a
  linked list. `counted_spec`: a loop that counts its rounds, with any type of faults.
* **Partial correctness.** `Only x Q`: what `x` returns, if it returns, satisfies `Q`.
-/

namespace Checked

/-- The values of a 64-bit word. -/
def wordBound : ℕ := 2 ^ 64

/-- The ways a program stops short of its result. -/
inductive Fault
  | wraps
  | asserts
  | null
  | diverges
  deriving DecidableEq

/-- `x + y`, without a carry out of 64 bits. -/
def add (x y : ℕ) : Except Fault ℕ := if x + y < wordBound then .ok (x + y) else .error .wraps

/-- `x - y`, without a borrow. -/
def sub (x y : ℕ) : Except Fault ℕ := if y ≤ x then .ok (x - y) else .error .wraps

/-- `x << n`, with `n` below the width of a word. -/
def shl (x n : ℕ) : Except Fault ℕ :=
  if n < 64 then .ok (x * 2 ^ n % wordBound) else .error .wraps

/-- `x >> n`, with `n` below the width of a word. -/
def shr (x n : ℕ) : Except Fault ℕ := if n < 64 then .ok (x / 2 ^ n) else .error .wraps

/-- `assert(p)`. -/
def assert (p : Prop) [Decidable p] : Except Fault Unit := if p then .ok () else .error .asserts

/-- The object that a pointer refers to. -/
def deref (p : Option ℕ) : Except Fault ℕ := p.elim (.error .null) .ok

variable {σ β α : Type}

/-- Rounds of `body` until one leaves the loop with a result. -/
def loop (body : σ → Except Fault (σ ⊕ β)) : ℕ → σ → Except Fault β
  | 0, _ => .error .diverges
  | fuel + 1, s => body s >>= Sum.elim (loop body fuel) .ok

/-- `while (cond) body`, with room for `2 ^ 64` rounds. -/
def whileLoop (cond : σ → Except Fault Bool) (body : σ → Except Fault σ) (s : σ) :
    Except Fault σ :=
  loop (fun s => do
    if ← cond s then return .inl (← body s) else return .inr s) wordBound s

/-- `for (; x; x = next) body`, with room for `2 ^ 64` rounds: the body gives the new state
and the next object. -/
def follow (body : σ → ℕ → σ × Option ℕ) (x : Option ℕ) (s : σ) : Except Fault σ :=
  loop (fun v => .ok (v.2.elim (.inr v.1) fun t => .inl (body v.1 t))) wordBound (s, x)

/-- The program returns, with a result that satisfies `Q`. -/
def Gives (x : Except Fault α) (Q : α → Prop) : Prop := ∃ a, x = .ok a ∧ Q a

variable {x : Except Fault α} {f : α → Except Fault β} {P : α → Prop} {Q : β → Prop}

lemma gives_ok {a : α} (h : P a) : Gives (.ok a) P := ⟨a, rfl, h⟩

lemma gives_pure {a : α} (h : P a) : Gives (pure a) P := ⟨a, rfl, h⟩

lemma Gives.mono {P' : α → Prop} (h : Gives x P) (hP : ∀ a, P a → P' a) : Gives x P' := by
  obtain ⟨a, hx, ha⟩ := h
  exact ⟨a, hx, hP a ha⟩

lemma Gives.bind (h : Gives x P) (hf : ∀ a, P a → Gives (f a) Q) : Gives (x >>= f) Q := by
  obtain ⟨a, rfl, ha⟩ := h
  exact hf a ha

lemma gives_add {m n : ℕ} (h : m + n < wordBound) : Gives (add m n) (· = m + n) :=
  ⟨m + n, if_pos h, rfl⟩

lemma gives_sub {m n : ℕ} (h : n ≤ m) : Gives (sub m n) (· = m - n) := ⟨m - n, if_pos h, rfl⟩

lemma gives_shl {m n : ℕ} (h : n < 64) : Gives (shl m n) (· = m * 2 ^ n % wordBound) :=
  ⟨_, if_pos h, rfl⟩

lemma gives_shr {m n : ℕ} (h : n < 64) : Gives (shr m n) (· = m / 2 ^ n) := ⟨_, if_pos h, rfl⟩

lemma gives_assert {p : Prop} [Decidable p] (h : p) : Gives (assert p) fun _ => True :=
  ⟨(), if_pos h, True.intro⟩

lemma gives_deref {p : Option ℕ} {a : ℕ} (h : p = some a) : Gives (deref p) (· = a) := by
  subst h
  exact gives_ok rfl

/-- **The loop rule**: `Inv n s` says that at most `n` more rounds begin in `s`, and a
round leaves fewer. -/
lemma Gives.loop {body : σ → Except Fault (σ ⊕ β)} (Inv : ℕ → σ → Prop)
    (hbody : ∀ n s, Inv n s → Gives (body s) (Sum.elim (fun s' => ∃ m < n, Inv m s') Q))
    {n fuel : ℕ} {s : σ} (hs : Inv n s) (hfuel : n < fuel) :
    Gives (Checked.loop body fuel s) Q := by
  induction fuel generalizing n s with
  | zero => exact absurd hfuel (Nat.not_lt_zero _)
  | succ fuel ih =>
      refine (hbody n s hs).bind fun r hr => ?_
      cases r with
      | inl s' =>
          obtain ⟨m, hm, hs'⟩ := hr
          exact ih hs' (by omega)
      | inr b => exact gives_ok hr

/-- The rule for `while`: `c` is what the condition tests, and fails at the end. -/
lemma Gives.while {cond : σ → Except Fault Bool} {body : σ → Except Fault σ}
    (Inv : ℕ → σ → Prop) (c : σ → Prop)
    (hcond : ∀ n s, Inv n s → Gives (cond s) fun b => b = true ↔ c s)
    (hbody : ∀ n s, Inv n s → c s → Gives (body s) fun s' => ∃ m < n, Inv m s')
    {n : ℕ} {s : σ} (hs : Inv n s) (hfuel : n < wordBound) :
    Gives (whileLoop cond body s) fun s' => (∃ m, Inv m s') ∧ ¬ c s' := by
  refine Gives.loop Inv (fun n s hs => ?_) hs hfuel
  refine (hcond n s hs).bind fun b hb => ?_
  cases b with
  | true =>
      refine (hbody n s hs (hb.mp rfl)).bind fun s' hs' => ?_
      exact gives_pure hs'
  | false => exact gives_pure ⟨⟨n, hs⟩, fun hc => by cases hb.mpr hc⟩

/-- The rule for `follow`: `Inv ts s` says that the objects `ts` are still to come in `s`. -/
lemma Gives.follow {body : σ → ℕ → σ × Option ℕ} (Inv : List ℕ → σ → Prop)
    (hbody : ∀ t ts s, Inv (t :: ts) s → (body s t).2 = ts.head? ∧ Inv ts (body s t).1)
    {ts : List ℕ} {s : σ} (hs : Inv ts s) (hlen : ts.length < wordBound) :
    Gives (Checked.follow body ts.head? s) (Inv []) := by
  refine Gives.loop (fun n v => ∃ ts : List ℕ, ts.length = n ∧ v.2 = ts.head? ∧ Inv ts v.1) ?_
    ⟨ts, rfl, rfl, hs⟩ hlen
  rintro n ⟨s, x⟩ ⟨ts, rfl, hx, hs⟩
  cases ts with
  | nil =>
      obtain rfl : x = none := hx
      exact gives_ok hs
  | cons t ts =>
      obtain rfl : x = some t := hx
      obtain ⟨hnext, hinv⟩ := hbody t ts s hs
      exact gives_ok ⟨ts.length, by simp, ts, rfl, hnext, hinv⟩

/-! ### What a program returns, if it does -/

/-- What the program returns, if it returns, satisfies `Q`. -/
def Only (x : Except Fault α) (Q : α → Prop) : Prop := ∀ a, x = .ok a → Q a

lemma only_pure {a : α} (h : P a) : Only (pure a) P := by
  intro a' ha'
  obtain rfl := Except.ok.inj ha'
  exact h

lemma only_error {e : Fault} : Only (.error e) P := fun _ h => by cases h

lemma Only.mono {P' : α → Prop} (h : Only x P) (hP : ∀ a, P a → P' a) : Only x P' :=
  fun a ha => hP a (h a ha)

lemma Only.bind (h : Only x P) (hf : ∀ a, P a → Only (f a) Q) : Only (x >>= f) Q := by
  intro b hb
  cases x with
  | error e => cases hb
  | ok a => exact hf a (h a rfl) b hb

/-- Nothing need be known of the first program. -/
lemma only_bind (hf : ∀ a, Only (f a) Q) : Only (x >>= f) Q :=
  Only.bind (P := fun _ => True) (fun _ _ => trivial) fun a _ => hf a

/-- What every round keeps holds after a loop, if it returns. -/
lemma only_loop {body : σ → Except Fault (σ ⊕ β)} (Inv : σ → Prop)
    (hbody : ∀ s, Inv s → Only (body s) (Sum.elim Inv Q)) {fuel : ℕ} {s : σ} (hs : Inv s) :
    Only (Checked.loop body fuel s) Q := by
  induction fuel generalizing s with
  | zero => exact only_error
  | succ fuel ih =>
      refine (hbody s hs).bind fun r hr => ?_
      cases r with
      | inl s' => exact ih hr
      | inr b => exact only_pure hr

/-- What the body keeps holds after a loop along a linked list. -/
lemma only_follow {body : σ → ℕ → σ × Option ℕ} {Inv : σ → Prop}
    (hbody : ∀ s t, Inv s → Inv (body s t).1) {s : σ} (hs : Inv s) (x : Option ℕ) :
    Only (Checked.follow body x s) Inv := by
  refine only_loop (fun v : σ × Option ℕ => Inv v.1) (fun v hv => only_pure ?_) hs
  obtain ⟨s, x⟩ := v
  cases x with
  | none => exact hv
  | some t => exact hbody s t hv

/-- What every round keeps, a loop over a list keeps. -/
lemma only_foldlM {γ : Type} {f : β → γ → Except Fault β} (hf : ∀ b c, Q b → Only (f b c) Q) {b : β}
    (hb : Q b) (l : List γ) : Only (l.foldlM f b) Q := by
  induction l generalizing b with
  | nil => exact only_pure hb
  | cons c l ih =>
      rw [List.foldlM_cons]
      exact (hf b c hb).bind fun b' hb' => ih hb'

/-! ### Counted loops -/

section Counted

variable {ε : Type} {f : σ → ℕ → Except ε σ} {s : σ} {n : ℕ}

/-- The last round of `for (i = 0; i < n + 1; i++)`. -/
lemma counted_succ :
    (List.range (n + 1)).foldlM f s = (List.range n).foldlM f s >>= fun s' => f s' n := by
  rw [List.range_succ, List.foldlM_append]
  congr 1
  funext s'
  rw [List.foldlM_cons]
  exact bind_pure _

/-- What every round of `for (i = 0; i < n; i++)` keeps holds at its end. -/
lemma counted_spec (Inv : ℕ → σ → Prop) (hs : Inv 0 s)
    (hround : ∀ m < n, ∀ s, Inv m s → ∃ s', f s m = .ok s' ∧ Inv (m + 1) s') :
    ∃ s', (List.range n).foldlM f s = .ok s' ∧ Inv n s' := by
  induction n with
  | zero => exact ⟨s, rfl, hs⟩
  | succ n ih =>
      obtain ⟨s₁, hs₁, hinv⟩ := ih fun m hm => hround m (by omega)
      obtain ⟨s₂, hs₂, hinv₂⟩ := hround n (by omega) s₁ hinv
      refine ⟨s₂, ?_, hinv₂⟩
      rw [counted_succ, hs₁]
      exact hs₂

end Counted

end Checked
