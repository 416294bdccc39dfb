import Mathlib.Tactic

/-!
Routines on a state that end with a value or with an exception.

A routine may also halt. Before it changes the state it may look at it, and give up: it then
writes a report and nothing else, and ends with one fixed exception.

* `inspect`: a look at the state, by a function that returns a value or an error.
* `screened`: what a routine comes to that goes on with the value of such a function.
  `inspect_bind_eq` brings a routine into this form, one look at a time.
* `of_screened_eq_error`: where the fixed exception comes from.
* `Never`: routines that do not end with an exception.
-/

/-- A routine halts, or ends with a value or an exception and the new state. -/
def Routine (ε σ α : Type) : Type := σ → Option (Except ε α × σ)

namespace Routine

variable {ε η σ α β : Type}

/-- The next routine goes on with the value, unless there is none. -/
def andThen (f : α → Routine ε σ β) : Option (Except ε α × σ) → Option (Except ε β × σ)
  | none => none
  | some (.error x, s) => some (.error x, s)
  | some (.ok a, s) => f a s

instance : Monad (Routine ε σ) where
  pure a := fun s => some (.ok a, s)
  bind m f := fun s => andThen f (m s)

lemma pure_apply (a : α) (s : σ) : (pure a : Routine ε σ α) s = some (.ok a, s) := rfl

lemma bind_apply (m : Routine ε σ α) (f : α → Routine ε σ β) (s : σ) :
    (m >>= f) s = andThen f (m s) := rfl

/-- The routine ends with an exception. -/
def throws (x : ε) : Routine ε σ α := fun s => some (.error x, s)

/-- The routine does not end. -/
def halt : Routine ε σ α := fun _ => none

/-- A part of the state. -/
def look (f : σ → α) : Routine ε σ α := fun s => some (.ok (f s), s)

/-- A change of the state. -/
def change (f : σ → σ) : Routine ε σ Unit := fun s => some (.ok (), f s)

/-- An assertion about the state. -/
def require (p : σ → Prop) [∀ s, Decidable (p s)] : Routine ε σ Unit :=
  fun s => if p s then some (.ok (), s) else none

/-- An exception is a value like others. -/
def attempt (m : Routine ε σ α) : Routine ε σ (Except ε α) :=
  fun s => (m s).map fun r => (.ok r.1, r.2)

lemma look_bind (f : σ → β) (g : β → Routine ε σ α) (s : σ) :
    ((look f : Routine ε σ β) >>= g) s = g (f s) s := rfl

lemma change_bind (f : σ → σ) (g : Unit → Routine ε σ α) (s : σ) :
    ((change f : Routine ε σ Unit) >>= g) s = g () (f s) := rfl

lemma require_bind {p : σ → Prop} [∀ s, Decidable (p s)] {g : Unit → Routine ε σ α} {s : σ}
    (h : p s) : ((require p : Routine ε σ Unit) >>= g) s = g () s := by
  rw [bind_apply, require, if_pos h]
  rfl

/-! ### Looking before anything is changed -/

section Screen

variable (report : η → σ → σ) (bad : ε)

/-- An error is reported, a value is used. -/
def screened (x : Except η β) (k : β → Option (Except ε α × σ)) (s : σ) :
    Option (Except ε α × σ) :=
  match x with
  | .error e => some (.error bad, report e s)
  | .ok b => k b

/-- What a function of the state returns, or its error. -/
def inspect (f : σ → Except η α) : Routine ε σ α :=
  fun s => screened report bad (f s) (fun a => some (.ok a, s)) s

variable {report bad} {s s' : σ}

lemma screened_error (e : η) (k : β → Option (Except ε α × σ)) :
    screened report bad (.error e) k s = some (.error bad, report e s) := rfl

lemma screened_pure (b : β) (k : β → Option (Except ε α × σ)) :
    screened report bad (pure b) k s = k b := rfl

/-- Of two functions the second is asked if the first returns. -/
lemma screened_bind {γ : Type} (x : Except η β) (f : β → Except η γ)
    (k : γ → Option (Except ε α × σ)) :
    screened report bad (x >>= f) k s =
      screened report bad x (fun b => screened report bad (f b) k s) s := by
  cases x with
  | error e => rfl
  | ok b => rfl

/-- A routine that starts with a look. -/
lemma inspect_bind (f : σ → Except η β) (g : β → Routine ε σ α) (s : σ) :
    (inspect report bad f >>= g) s = screened report bad (f s) (fun b => g b s) s := by
  rw [bind_apply, inspect]
  cases f s with
  | error e => rfl
  | ok b => rfl

/-- A routine that starts with a look screens by two functions, if the rest screens by the
second. -/
lemma inspect_bind_eq {γ : Type} {f : σ → Except η β} {g : β → Routine ε σ α}
    {f' : β → Except η γ} {k : γ → Option (Except ε α × σ)}
    (h : ∀ b, g b s = screened report bad (f' b) k s) :
    (inspect report bad f >>= g) s = screened report bad (f s >>= f') k s := by
  rw [inspect_bind, screened_bind]
  exact congrArg (screened report bad (f s) · s) (funext h)

/-- A report takes the place of an earlier one. -/
lemma screened_report {x : Except η β} {k : β → Option (Except ε α × σ)} {e' : η}
    (h : ∀ e, report e (report e' s) = report e s) :
    screened report bad x k (report e' s) = screened report bad x k s := by
  cases x with
  | error e => rw [screened_error, screened_error, h]
  | ok b => rfl

/-- A look whose exception is caught. -/
lemma attempt_inspect_ok {f : σ → Except η β} {g : Except ε β → Routine ε σ α} {b : β}
    (h : f s = .ok b) : (attempt (inspect report bad f) >>= g) s = g (.ok b) s := by
  rw [bind_apply, attempt, inspect, h]
  rfl

lemma attempt_inspect_error {f : σ → Except η β} {g : Except ε β → Routine ε σ α} {e : η}
    (h : f s = .error e) :
    (attempt (inspect report bad f) >>= g) s = g (.error bad) (report e s) := by
  rw [bind_apply, attempt, inspect, h]
  rfl

/-- The fixed exception is that of a look, or comes later. -/
lemma of_screened_eq_error {x : Except η β} {k : β → Option (Except ε α × σ)}
    (h : screened report bad x k s = some (.error bad, s')) :
    (∃ e, x = .error e ∧ s' = report e s) ∨ ∃ b, x = .ok b ∧ k b = some (.error bad, s') := by
  cases x with
  | error e =>
      rw [screened_error] at h
      cases h
      exact .inl ⟨e, rfl, rfl⟩
  | ok b => exact .inr ⟨b, rfl, h⟩

/-- A look either fails or gives a value. -/
lemma screened_cases (x : Except η β) (k : β → Option (Except ε α × σ)) (s : σ) :
    (∃ e, screened report bad x k s = some (.error bad, report e s)) ∨
      ∃ b, x = .ok b ∧ screened report bad x k s = k b := by
  cases x with
  | error e => exact .inl ⟨e, rfl⟩
  | ok b => exact .inr ⟨b, rfl, rfl⟩

end Screen

/-! ### Exceptions that do not occur -/

/-- The routine does not end with this exception. -/
def Never (x : ε) (m : Routine ε σ α) : Prop := ∀ s s', m s ≠ some (.error x, s')

section Never

variable {x : ε}

lemma never_pure (a : α) : Never x (pure a : Routine ε σ α) := by
  intro s s' h
  cases h

lemma never_halt : Never x (halt : Routine ε σ α) := by
  intro s s' h
  cases h

lemma never_look (f : σ → α) : Never x (look f : Routine ε σ α) := by
  intro s s' h
  cases h

lemma never_change (f : σ → σ) : Never x (change f : Routine ε σ Unit) := by
  intro s s' h
  cases h

lemma never_require (p : σ → Prop) [∀ s, Decidable (p s)] :
    Never x (require p : Routine ε σ Unit) := by
  intro s s' h
  rw [require] at h
  split_ifs at h
  cases h

lemma Never.bind {m : Routine ε σ α} {f : α → Routine ε σ β} (hm : Never x m)
    (hf : ∀ a, Never x (f a)) : Never x (m >>= f) := by
  intro s s' h
  rw [bind_apply] at h
  cases hrun : m s with
  | none =>
      rw [hrun] at h
      cases h
  | some r =>
      obtain ⟨outcome, s₁⟩ := r
      rw [hrun] at h
      cases outcome with
      | error y =>
          cases h
          exact hm s s' hrun
      | ok a => exact hf a s₁ s' h

end Never

end Routine
