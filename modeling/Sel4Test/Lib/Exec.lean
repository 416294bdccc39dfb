import Mathlib.Tactic

/-!
Runs of a labelled transition system.

`Runs step s ls s'` says that the labels `ls`, in order, lead from `s` to `s'`.
Transitions are a relation; `Guarded good step` keeps those that meet a
condition on the state before the step, and `OfFun f` are those of a partial
function. `Runs.invariant` is the rule by which every invariant of this
development is carried from a step to a run, and `runs_of_runFun` turns an
evaluation into a run. `always_iff` is the rule for a condition on the steps that is
exact for a property of the states.
-/

namespace Exec

variable {σ ℓ : Type*} {step : σ → ℓ → σ → Prop}

/-- The labels `ls` lead from the first state to the second. -/
inductive Runs (step : σ → ℓ → σ → Prop) : σ → List ℓ → σ → Prop
  | nil {s} : Runs step s [] s
  | snoc {s ls s' l s''} : Runs step s ls s' → step s' l s'' → Runs step s (ls ++ [l]) s''

/-- The transitions that meet a condition on the state before the step. -/
def Guarded (good : σ → ℓ → Prop) (step : σ → ℓ → σ → Prop) (s : σ) (l : ℓ) (s' : σ) : Prop :=
  good s l ∧ step s l s'

/-- The transitions of a partial function. -/
def OfFun (f : σ → ℓ → Option σ) (s : σ) (l : ℓ) (s' : σ) : Prop := f s l = some s'

/-- **The invariant rule**: what a step keeps, a run keeps. -/
lemma Runs.invariant (Inv : σ → Prop) {s s' : σ} {ls : List ℓ} (h : Runs step s ls s')
    (hstep : ∀ s l s', Inv s → step s l s' → Inv s') (hs : Inv s) : Inv s' := by
  induction h with
  | nil => exact hs
  | snoc _ hlast ih => exact hstep _ _ _ ih hlast

/-- A run of one system is a run of any system with more transitions. -/
lemma Runs.mono {step' : σ → ℓ → σ → Prop} {s s' : σ} {ls : List ℓ} (h : Runs step s ls s')
    (hstep : ∀ s l s', step s l s' → step' s l s') : Runs step' s ls s' := by
  induction h with
  | nil => exact .nil
  | snoc _ hlast ih => exact .snoc ih (hstep _ _ _ hlast)

/-- A run may start with one more step. -/
lemma Runs.cons {s s' s'' : σ} {l : ℓ} {ls : List ℓ} (hfirst : step s l s')
    (h : Runs step s' ls s'') : Runs step s (l :: ls) s'' := by
  induction h with
  | nil =>
      have h : Runs step s ([] ++ [l]) _ := .snoc .nil hfirst
      exact h
  | snoc _ hlast ih => exact .snoc ih hlast

/-- A run without labels stays where it is. -/
lemma Runs.of_nil {s s' : σ} (h : Runs step s [] s') : s' = s := by
  generalize hls : ([] : List ℓ) = ls at h
  cases h with
  | nil => rfl
  | snoc => exact absurd hls (by simp)

/-- The first step of a run. -/
lemma Runs.of_cons {s s'' : σ} {l : ℓ} {ls : List ℓ} (h : Runs step s (l :: ls) s'') :
    ∃ s', step s l s' ∧ Runs step s' ls s'' := by
  generalize hls : l :: ls = ls' at h
  induction h generalizing ls with
  | nil => cases hls
  | @snoc ls₀ s₁ l₁ s₂ h₀ hlast ih =>
      cases ls₀ with
      | nil =>
          obtain ⟨rfl, rfl⟩ := List.cons.inj hls
          obtain rfl := h₀.of_nil
          exact ⟨_, hlast, .nil⟩
      | cons l₀ ls₀ =>
          obtain ⟨rfl, rfl⟩ := List.cons.inj hls
          obtain ⟨s', hfirst, hrest⟩ := ih rfl
          exact ⟨s', hfirst, .snoc hrest hlast⟩

/-- The evaluation of a list of labels, which stops where the function does or
where the condition fails. -/
def runFun (good : σ → ℓ → Bool) (f : σ → ℓ → Option σ) (s : σ) : List ℓ → Option σ
  | [] => some s
  | l :: ls => if good s l then (f s l).bind fun s' => runFun good f s' ls else none

/-- An evaluation is a run. -/
lemma runs_of_runFun (good : σ → ℓ → Prop) {check : σ → ℓ → Bool} {f : σ → ℓ → Option σ}
    {s s' : σ} {ls : List ℓ} (hcheck : ∀ s l, check s l = true → good s l)
    (h : runFun check f s ls = some s') :
    Runs (Guarded good (OfFun f)) s ls s' := by
  induction ls generalizing s with
  | nil =>
      obtain rfl : s = s' := by simpa [runFun] using h
      exact .nil
  | cons l ls ih =>
      rw [runFun] at h
      split at h
      · rename_i hgood
        obtain ⟨s₁, hf, hrest⟩ := Option.bind_eq_some_iff.mp h
        exact .cons ⟨hcheck s l hgood, hf⟩ (ih hrest)
      · cases h

/-- An evaluation without a condition is a run. -/
lemma runs_of_eval {f : σ → ℓ → Option σ} {s s' : σ} {ls : List ℓ}
    (h : runFun (fun _ _ => true) f s ls = some s') : Runs (OfFun f) s ls s' :=
  (runs_of_runFun (fun _ _ => True) (fun _ _ _ => trivial) h).mono fun _ _ _ hstep => hstep.2

/-- **The rule for exact conditions**: where an invariant gives a property, is kept by the good
steps and by no other step that leaves the property true, a run has the property in all its
states exactly if all its steps are good. -/
lemma always_iff {f : σ → ℓ → σ} {Inv P : σ → Prop} {good : σ → ℓ → Prop}
    (hprop : ∀ s, Inv s → P s) (hkeep : ∀ s l, Inv s → good s l → Inv (f s l))
    (honly : ∀ s l, Inv s → P (f s l) → good s l) {s : σ} (hs : Inv s) (ls : List ℓ) :
    (∀ pre, pre <+: ls → P (pre.foldl f s)) ↔
      ∀ pre l, pre ++ [l] <+: ls → good (pre.foldl f s) l := by
  induction ls generalizing s with
  | nil =>
      constructor
      · intro _ pre l hpre
        have hlen := hpre.length_le
        simp at hlen
      · intro _ pre hpre
        rw [List.prefix_nil.mp hpre]
        exact hprop s hs
  | cons l ls ih =>
      constructor
      · intro hall pre l' hpre
        have hgood : good s l :=
          honly s l hs (hall [l] (List.prefix_cons_inj l |>.mpr (List.nil_prefix)))
        cases pre with
        | nil =>
            obtain rfl : l' = l := (List.cons_prefix_cons.mp hpre).1
            exact hgood
        | cons l₀ pre =>
            obtain ⟨rfl, hrest⟩ := List.cons_prefix_cons.mp hpre
            refine (ih (hkeep s l₀ hs hgood)).mp (fun pre' hpre' => ?_) pre l' hrest
            exact hall (l₀ :: pre') (List.cons_prefix_cons.mpr ⟨rfl, hpre'⟩)
      · intro hall pre hpre
        cases pre with
        | nil => exact hprop s hs
        | cons l₀ pre =>
            obtain ⟨rfl, hrest⟩ := List.cons_prefix_cons.mp hpre
            have hgood : good s l₀ := hall [] l₀ (List.cons_prefix_cons.mpr ⟨rfl, List.nil_prefix⟩)
            refine (ih (hkeep s l₀ hs hgood)).mpr (fun pre' l' hpre' => ?_) pre hrest
            exact hall (l₀ :: pre') l' (List.cons_prefix_cons.mpr ⟨rfl, hpre'⟩)

end Exec
