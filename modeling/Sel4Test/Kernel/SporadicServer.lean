import Sel4Test.Lib.Exec
import Sel4Test.Kernel.Refills

/-!
Runs of a sporadic server: `refill_new`, and then any sequence of `refill_budget_check`,
`refill_unblock_check` and `refill_update`.

The invariant is `Serving`: the refills are spaced, the head begins less than a period
after `MAX_RELEASE_TIME` and holds `MIN_BUDGET`, or all refills begin that early. It gives
every sum and difference its room, and every loop its measure: the usage that is left in
`handle_overrun`, the number of refills in the two merging loops.

* `gives_refillNew`, `gives_refillUpdate`, `gives_refillBudgetCheck`,
  `gives_refillUnblockCheck`: one lemma for each operation.
* `refills_sound`: every run keeps the refills sound, when no update asks for fewer than
  two refills, or for one that does not hold the budget already.
-/

namespace Kernel.Sporadic

open Checked

/-! ### The invariant -/

/-- What `decodeSchedControl_ConfigureFlags` admits. -/
structure Configured (T : Timing) (p budget : ℕ) : Prop where
  minBudget_le : T.minBudget ≤ budget
  budget_le : budget ≤ p
  period_le : p ≤ T.maxPeriod

/-- No head begins later than this. -/
def Timing.latest (T : Timing) : ℕ := T.maxReleaseTime + T.maxPeriod

lemma Timing.latest_add (T : Timing) :
    T.maxReleaseTime + T.maxPeriod = T.latest ∧ T.latest + 4 * T.maxPeriod < wordBound := by
  have hroom := T.room
  refine ⟨rfl, ?_⟩
  rw [Timing.latest, Timing.maxReleaseTime, Timing.maxPeriod, wordBound]
  omega

/-- The refills while the head is being charged. -/
structure Serving (T : Timing) (p c budget : ℕ) (h : Refill) (rest : List Refill)
    (sc : SchedContext) : Prop where
  holds : Holds p c (h :: rest) sc
  spaced : Spaced p budget (h :: rest)
  early : h.rTime < T.latest
  enough : T.minBudget ≤ h.rAmount ∨ ∀ r ∈ rest, r.rTime < T.latest

variable {T : Timing} {p c budget usage : ℕ} {h r new : Refill} {l rest : List Refill}
  {sc : SchedContext}

/-- Refills that begin within a period of an early head end in 64 bits. -/
lemma ends_lt (cfg : Configured T p budget) (hearly : h.rTime < T.latest)
    (hamount : r.rAmount ≤ budget) (hwindow : r.rTime ≤ h.rTime + p) :
    r.rTime + r.rAmount < wordBound := by
  have hlatest := T.latest_add.2
  have hb := cfg.budget_le
  have hp := cfg.period_le
  omega

lemma budget_lt (cfg : Configured T p budget) : budget < wordBound := by
  have hlatest := T.latest_add.2
  have hb := cfg.budget_le
  have hp := cfg.period_le
  omega

namespace Serving

lemma fits (s : Serving T p c budget h rest sc) (cfg : Configured T p budget) :
    ∀ r ∈ h :: rest, r.rTime + r.rAmount < wordBound := fun r hr =>
  ends_lt cfg s.early (s.spaced.rAmount_le hr) (s.spaced.window h List.mem_cons_self r hr)

/-- All refills are early when the list came out of a charge. -/
lemma of_early (holds : Holds p c l sc) (spaced : Spaced p budget l)
    (early : ∀ r ∈ l, r.rTime < T.latest) :
    ∃ h rest, Serving T p c budget h rest sc := by
  obtain ⟨h, rest, rfl⟩ := List.exists_cons_of_ne_nil holds.ne_nil
  exact ⟨h, rest, holds, spaced, early h List.mem_cons_self,
    .inr fun r hr => early r (List.mem_cons_of_mem _ hr)⟩

end Serving

namespace Serving

lemma pos (s : Serving T p c budget h rest sc) : 0 < h.rAmount :=
  s.spaced.pos h List.mem_cons_self

/-- The sanity checks pass. -/
lemma sanityCheck (s : Serving T p c budget h rest sc) (cfg : Configured T p budget) :
    Gives (sc.refillSanityCheck budget) fun _ => True := by
  have htotal := s.spaced.total_eq
  have hcheck := gives_refillSanityCheck s.holds s.spaced.ordered (s.fits cfg)
    (htotal ▸ budget_lt cfg)
  rwa [htotal] at hcheck

lemma sanityStart (s : Serving T p c budget h rest sc) (cfg : Configured T p budget) :
    Gives sc.refillSanityStart (· = budget) := by
  have htotal := s.spaced.total_eq
  have hstart := gives_refillSanityStart s.holds s.spaced.ordered (s.fits cfg)
    (htotal ▸ budget_lt cfg)
  rwa [htotal] at hstart

end Serving

lemma Configured.pos (cfg : Configured T p budget) : 0 < budget ∧ 0 < p := by
  have hmin := T.minBudget_pos
  have hle := cfg.minBudget_le
  have hb := cfg.budget_le
  omega

lemma Holds.not_isRoundRobin (s : Holds p c l sc) (cfg : Configured T p budget) :
    ¬ sc.isRoundRobin := by
  have hp := cfg.pos.2
  rw [SchedContext.isRoundRobin, s.period_eq]
  omega

lemma gives_maybeAddEmptyTail (s : Holds p c l sc) (cfg : Configured T p budget) :
    Gives sc.maybeAddEmptyTail (Holds p c l) := by
  rw [SchedContext.maybeAddEmptyTail, if_neg (s.not_isRoundRobin cfg)]
  exact gives_pure s

/-! ### Setting up -/

/-- `refill_new` gives one refill of the whole budget, from now on. -/
lemma gives_refillNew (cfg : Configured T p budget) {ksCurTime : ℕ} (sc : SchedContext)
    (hc : 0 < c) (hword : c < 2 ^ 64) (htime : ksCurTime < T.maxReleaseTime) :
    Gives (sc.refillNew T ksCurTime c budget p)
      (Serving T p c budget ⟨ksCurTime, budget⟩ []) := by
  have hlatest := T.latest_add
  rw [SchedContext.refillNew]
  refine (gives_assert cfg.minBudget_le).bind fun _ _ => ?_
  have h0 : Holds p c _
      { sc with scPeriod := p, scRefillHead := 0, scRefillTail := 0, scRefillMax := c } :=
    ⟨rfl, rfl, hword, Circular.Items.one hc⟩
  have h2 := (h0.setHeadAmount budget).setHeadTime ksCurTime
  refine (gives_maybeAddEmptyTail h2 cfg).bind fun sc' hs' => ?_
  have hserving : Serving T p c budget ⟨ksCurTime, budget⟩ [] sc' := by
    have hone := Spaced.singleton (p := p) (r := ⟨ksCurTime, budget⟩) cfg.pos.1
    refine ⟨hs', hone, ?_, .inl cfg.minBudget_le⟩
    show ksCurTime < T.latest
    omega
  refine (hserving.sanityCheck cfg).bind fun _ _ => ?_
  exact gives_pure hserving

/-- One refill is left, the head, which begins now or at its time. -/
lemma Holds.keepHead {p' c' ksCurTime : ℕ} (s : Holds p c (h :: rest) sc) (hc' : 0 < c')
    (hword : c' < 2 ^ 64) :
    ∃ time, (time = ksCurTime ∨ time = h.rTime) ∧
      Holds p' c' [⟨time, h.rAmount⟩] (sc.keepHead ksCurTime p' c') := by
  have h0 : Holds p' c' [h] { sc.setRefill 0 sc.refillHead with
      scRefillHead := 0, scRefillTail := 0, scRefillMax := c', scPeriod := p' } := by
    have hone : Holds p' c' _ { sc.setRefill 0 sc.refillHead with
        scRefillHead := 0, scRefillTail := 0, scRefillMax := c', scPeriod := p' } :=
      ⟨rfl, rfl, hword, Circular.Items.one hc'⟩
    simpa only [SchedContext.setRefill, Function.update_self, s.head_eq] using hone
  rw [SchedContext.keepHead]
  dsimp only
  split_ifs
  · exact ⟨ksCurTime, .inl rfl, h0.setHeadTime ksCurTime⟩
  · exact ⟨h.rTime, .inr rfl, h0⟩

/-- `refill_update` keeps what the head holds, up to the new budget, and gives the rest a
period later, in a second refill. -/
lemma gives_refillUpdate {p' budget' c' ksCurTime : ℕ} (cfg' : Configured T p' budget')
    (s : Serving T p c budget h rest sc) (henough : T.minBudget ≤ h.rAmount)
    (hword : c' < 2 ^ 64) (hroom : 2 ≤ c' ∨ c' = 1 ∧ budget' ≤ h.rAmount)
    (htime : ksCurTime < T.maxReleaseTime) :
    Gives (sc.refillUpdate ksCurTime p' budget' c') fun sc' => ∃ h' rest',
      Serving T p' c' budget' h' rest' sc' ∧ T.minBudget ≤ h'.rAmount := by
  have hlatest := T.latest_add
  have hearly := s.early
  have hle := cfg'.budget_le
  have hp' := cfg'.period_le
  have hmax : 0 < sc.scRefillMax := by
    rw [s.holds.max_eq]
    exact Nat.zero_lt_of_lt s.holds.items.head_lt
  obtain ⟨time, hfrom, h1⟩ :=
    @Holds.keepHead p c h rest sc p' c' ksCurTime s.holds (by omega) hword
  have hbegin : time < T.latest := by omega
  rw [SchedContext.refillUpdate]
  refine (gives_assert hmax).bind fun _ _ => ?_
  generalize sc.keepHead ksCurTime p' c' = sc1 at h1 ⊢
  have hcheck : ∀ sc' : SchedContext, (∃ h' rest', Serving T p' c' budget' h' rest' sc' ∧
      T.minBudget ≤ h'.rAmount) → Gives (do
        sc'.refillSanityCheck budget'
        pure sc') fun sc' => ∃ h' rest', Serving T p' c' budget' h' rest' sc' ∧
          T.minBudget ≤ h'.rAmount := by
    rintro sc' ⟨h', rest', hs', hmin'⟩
    exact (hs'.sanityCheck cfg').bind fun _ _ => gives_pure ⟨h', rest', hs', hmin'⟩
  dsimp only
  rw [h1.head_eq]
  split_ifs with htrim
  · -- the head is trimmed
    have h2 : Holds p' c' [⟨time, budget'⟩]
        (sc1.setRefill sc1.scRefillHead ⟨time, budget'⟩) := h1.setHead
    refine ((gives_maybeAddEmptyTail h2 cfg').mono fun sc' hs' => ?_).bind hcheck
    have hone : Spaced p' budget' [⟨time, budget'⟩] :=
      Spaced.singleton (r := ⟨time, budget'⟩) cfg'.pos.1
    exact ⟨_, _, ⟨hs', hone, hbegin, .inl cfg'.minBudget_le⟩, cfg'.minBudget_le⟩
  · -- the rest of the budget follows a period later
    have hlt : h.rAmount < budget' := not_le.mp htrim
    have hcap : [(⟨time, h.rAmount⟩ : Refill)].length < c' := by
      rw [List.length_singleton]
      omega
    have hadd : time + p' < wordBound := by omega
    refine (gives_sub hlt.le).bind fun amount hamount => ?_
    refine (gives_add hadd).bind fun later hlater => ?_
    subst hamount hlater
    refine ((gives_refillAddTail h1 hcap).mono fun sc' hs' => ?_).bind hcheck
    have hback : Spaced p' (budget' - h.rAmount) [⟨time + p', budget' - h.rAmount⟩] :=
      Spaced.singleton (r := ⟨time + p', budget' - h.rAmount⟩) (Nat.sub_pos_of_lt hlt)
    have htwo : Spaced p' (h.rAmount + (budget' - h.rAmount))
        [⟨time, h.rAmount⟩, ⟨time + p', budget' - h.rAmount⟩] := by
      refine Spaced.cons (h := ⟨time, h.rAmount⟩) hback s.pos ?_ ?_
      · intro r hr
        obtain rfl := List.mem_singleton.mp hr
        show time + h.rAmount ≤ time + p'
        omega
      · intro r hr
        obtain rfl := List.mem_singleton.mp hr
        exact le_rfl
    rw [Nat.add_sub_cancel' hlt.le] at htwo
    exact ⟨_, _, ⟨hs', htwo, hbegin, .inl henough⟩, henough⟩

/-- An update to one refill fails its assertion when the head does not hold the budget: no
slot is left for the rest. -/
lemma refillUpdate_one {p' budget' ksCurTime : ℕ} (cfg' : Configured T p' budget')
    (s : Serving T p c budget h rest sc) (hless : h.rAmount < budget')
    (htime : ksCurTime < T.maxReleaseTime) :
    sc.refillUpdate ksCurTime p' budget' 1 = .error .asserts := by
  have hlatest := T.latest_add
  have hearly := s.early
  have hp' := cfg'.period_le
  have hmax : 0 < sc.scRefillMax := by
    rw [s.holds.max_eq]
    exact Nat.zero_lt_of_lt s.holds.items.head_lt
  obtain ⟨time, hfrom, h1⟩ :=
    @Holds.keepHead p c h rest sc p' 1 ksCurTime s.holds Nat.one_pos (by decide)
  have hsub : sub budget' h.rAmount = .ok (budget' - h.rAmount) := if_pos hless.le
  have hadd : add time p' = .ok (time + p') := if_pos (by omega)
  have hfull : ¬ (sc.keepHead ksCurTime p' 1).refillSize <
      (sc.keepHead ksCurTime p' 1).scRefillMax := by
    rw [h1.size_eq, h1.max_eq]
    exact Nat.lt_irrefl 1
  rw [SchedContext.refillUpdate, assert, if_pos hmax]
  generalize sc.keepHead ksCurTime p' 1 = sc1 at h1 hfull ⊢
  dsimp only [bind, Except.bind]
  rw [h1.head_eq, if_neg (not_le.mpr hless)]
  dsimp only
  rw [hsub, hadd]
  dsimp only
  rw [SchedContext.refillAddTail, assert, if_neg hfull]
  rfl

/-! ### Charging -/

/-- `charge_entire_head_refill` gives the amount of the head back a period later. -/
lemma gives_chargeEntireHeadRefill (cfg : Configured T p budget)
    (s : Serving T p c budget h rest sc) (hearly : h.rTime < T.maxReleaseTime)
    (husage : h.rAmount ≤ usage) :
    Gives (sc.chargeEntireHeadRefill usage) fun out =>
      out.2 = usage - h.rAmount ∧ ∃ h' rest', Serving T p c budget h' rest' out.1 := by
  have hlatest := T.latest_add
  have hp := cfg.period_le
  have hadd : h.rTime + p < wordBound := by omega
  rw [SchedContext.chargeEntireHeadRefill, s.holds.head_eq, s.holds.period_eq]
  have hback : ∀ sc' : SchedContext, (∃ h' rest', Serving T p c budget h' rest' sc') →
      Gives (do
        let u ← sub usage h.rAmount
        pure (sc', u)) fun out : SchedContext × ℕ =>
          out.2 = usage - h.rAmount ∧ ∃ h' rest', Serving T p c budget h' rest' out.1 :=
    fun sc' hs' => (gives_sub husage).bind fun u hu => gives_pure ⟨hu, hs'⟩
  -- a single refill is moved a period on; otherwise it is popped and scheduled behind the others
  split_ifs with hsingle
  · obtain rfl : rest = [] := by
      have hlen := s.holds.single_iff.mp hsingle
      simpa using hlen
    refine (gives_add hadd).bind fun t ht => ?_
    subst ht
    have htotal := s.spaced.total_eq
    rw [total_cons, total_nil, Nat.add_zero] at htotal
    have hone : Spaced p budget [⟨h.rTime + p, h.rAmount⟩] :=
      htotal ▸ Spaced.singleton (r := ⟨h.rTime + p, h.rAmount⟩) s.pos
    refine (gives_pure ?_).bind hback
    exact Serving.of_early s.holds.setHead hone (by simp; omega)
  · obtain ⟨y, ys, rfl⟩ := List.exists_cons_of_ne_nil (l := rest) fun hnil => by
      subst hnil
      exact hsingle (s.holds.single_iff.mpr rfl)
    refine (gives_refillPopHead s.holds).bind ?_
    rintro out ⟨hout, hpop⟩
    rw [hout, hpop.period_eq]
    refine (gives_add hadd).bind fun t ht => ?_
    subst ht
    have htail := s.spaced.tail
    have hsum := s.spaced.rAmount_add
    have hfits : ∀ r ∈ y :: ys, r.rTime + r.rAmount < wordBound := fun r hr =>
      s.fits cfg r (List.mem_cons_of_mem _ hr)
    have htotal : total (y :: ys) + h.rAmount < wordBound := by
      have hb := budget_lt cfg
      rw [htail.total_eq]
      omega
    have hlate : ∀ r ∈ y :: ys, r.rTime < T.latest ∧ h.rTime + p ≤ r.rTime + p := by
      intro r hr
      have hbefore := s.spaced.head_before hr
      have hwindow := s.spaced.window h List.mem_cons_self r (List.mem_cons_of_mem _ hr)
      rw [Before] at hbefore
      omega
    have hcharge : Gives (out.2.scheduleUsed ⟨h.rTime + p, h.rAmount⟩) fun sc' =>
        ∃ l', Used c ⟨h.rTime + p, h.rAmount⟩ (y :: ys) l' ∧ Holds p c l' sc' :=
      gives_scheduleUsed hpop hfits htotal
    refine (hcharge.mono ?_).bind hback
    rintro sc' ⟨l', hused, hs'⟩
    have hpos : 0 < (⟨h.rTime + p, h.rAmount⟩ : Refill).rAmount := s.pos
    have hspaced := htail.used hpos (fun r hr => (hlate r hr).2) hused
    rw [Nat.add_comm, hsum] at hspaced
    refine Serving.of_early hs' hspaced (hused.rTime_lt (fun r hr => (hlate r hr).1) ?_)
    show h.rTime + p < T.latest
    omega

/-- `handle_overrun` leaves less usage than the head holds, or a late head. -/
lemma gives_handleOverrun (cfg : Configured T p budget) (s : Serving T p c budget h rest sc)
    (husage : usage < wordBound) :
    Gives (sc.handleOverrun T usage) fun out =>
      (∃ h' rest', Serving T p c budget h' rest' out.1) ∧ ¬ out.1.headRefillOverrun T out.2 := by
  -- a round charges a positive amount
  let Inv : ℕ → SchedContext × ℕ → Prop := fun n w =>
    w.2 = n ∧ ∃ h' rest', Serving T p c budget h' rest' w.1
  have hstart : Inv usage (sc, usage) := ⟨rfl, h, rest, s⟩
  refine (Gives.while Inv (fun w => w.1.headRefillOverrun T w.2)
    (fun n w _ => gives_pure (by simp)) ?_ hstart husage).mono ?_
  · rintro n w ⟨rfl, h', rest', hs'⟩ ⟨hamount, hearly⟩
    rw [hs'.holds.head_eq] at hamount hearly
    have hpos := hs'.pos
    refine (gives_chargeEntireHeadRefill cfg hs' hearly hamount).mono fun out hout => ?_
    exact ⟨w.2 - h'.rAmount, by omega, hout⟩
  · rintro w ⟨⟨n, -, hs'⟩, hover⟩
    exact ⟨hs', hover⟩

/-- The usage that is left is charged to the head, and given back a period later. -/
lemma gives_chargePartOfHeadRefill (cfg : Configured T p budget)
    (s : Serving T p c budget h rest sc) (hover : ¬ sc.headRefillOverrun T usage) :
    Gives (sc.chargePartOfHeadRefill T usage) fun sc' =>
      ∃ h' rest', Serving T p c budget h' rest' sc' := by
  have hlatest := T.latest_add
  have hp := cfg.period_le
  have hb := cfg.budget_le
  have hamount := s.spaced.rAmount_le List.mem_cons_self
  rw [SchedContext.headRefillOverrun, s.holds.head_eq] at hover
  rw [SchedContext.chargePartOfHeadRefill, s.holds.head_eq]
  dsimp only
  split_ifs with hcharge
  · obtain ⟨hpos, hearly⟩ := hcharge
    have hless : usage < h.rAmount := by
      rw [not_and'] at hover
      exact not_le.mp (hover hearly)
    have hwindow : ∀ r ∈ rest, Before h r ∧ r.rTime ≤ h.rTime + p := fun r hr =>
      ⟨s.spaced.head_before hr, s.spaced.window h List.mem_cons_self r (List.mem_cons_of_mem _ hr)⟩
    refine (gives_assert hless).bind fun _ _ => ?_
    rw [s.holds.period_eq]
    refine (gives_add (by omega)).bind fun later hlater => ?_
    refine (gives_sub hless.le).bind fun left hleft => ?_
    refine (gives_add (by omega)).bind fun time htime => ?_
    subst hlater hleft htime
    have hholds := (s.holds.setHeadAmount (h.rAmount - usage)).setHeadTime (h.rTime + usage)
    rw [s.holds.head_eq] at hholds
    -- the head ends where it ended
    have hspaced : Spaced p (h.rAmount - usage + (budget - h.rAmount))
        (⟨h.rTime + usage, h.rAmount - usage⟩ :: rest) := by
      refine Spaced.cons (h := ⟨h.rTime + usage, h.rAmount - usage⟩) s.spaced.tail
        (Nat.sub_pos_of_lt hless) ?_ ?_
      · intro r hr
        have hbefore := (hwindow r hr).1
        rw [Before] at hbefore ⊢
        show h.rTime + usage + (h.rAmount - usage) ≤ r.rTime
        omega
      · intro r hr
        have hle := (hwindow r hr).2
        show r.rTime ≤ h.rTime + usage + p
        omega
    have hsum : h.rAmount - usage + (budget - h.rAmount) + usage = budget := by omega
    have hlate : ∀ r ∈ (⟨h.rTime + usage, h.rAmount - usage⟩ : Refill) :: rest,
        r.rTime < T.latest ∧ h.rTime + p ≤ r.rTime + p ∧ r.rTime + r.rAmount < wordBound := by
      intro r hr
      rcases List.mem_cons.mp hr with rfl | hr
      · show h.rTime + usage < T.latest ∧ h.rTime + p ≤ h.rTime + usage + p ∧
          h.rTime + usage + (h.rAmount - usage) < wordBound
        omega
      · have hr' := hwindow r hr
        have hfits := s.fits cfg r (List.mem_cons_of_mem _ hr)
        rw [Before] at hr'
        omega
    have htotal : total ((⟨h.rTime + usage, h.rAmount - usage⟩ : Refill) :: rest) + usage
        < wordBound := by
      have hlt := budget_lt cfg
      rw [hspaced.total_eq]
      omega
    have hcharge : Gives (SchedContext.scheduleUsed _ ⟨h.rTime + p, usage⟩) fun sc' =>
        ∃ l', Used c ⟨h.rTime + p, usage⟩ _ l' ∧ Holds p c l' sc' :=
      gives_scheduleUsed hholds (fun r hr => (hlate r hr).2.2) htotal
    refine hcharge.mono ?_
    rintro sc' ⟨l', hused, hs'⟩
    have hpos' : 0 < (⟨h.rTime + p, usage⟩ : Refill).rAmount := hpos
    have hspaced' := hspaced.used hpos' (fun r hr => (hlate r hr).2.1) hused
    rw [hsum] at hspaced'
    refine Serving.of_early hs' hspaced' (hused.rTime_lt (fun r hr => (hlate r hr).1) ?_)
    show h.rTime + p < T.latest
    omega
  · exact gives_pure ⟨h, rest, s⟩

/-- An insufficient head has a refill behind it, and joins that one from the front. -/
lemma gives_mergeNonoverlappingHeadRefill (cfg : Configured T p budget)
    (s : Serving T p c budget h rest sc) (hless : h.rAmount < T.minBudget) :
    Gives sc.mergeNonoverlappingHeadRefill fun sc' =>
      ∃ h' rest', rest'.length + 1 = rest.length ∧ Serving T p c budget h' rest' sc' := by
  have hmin := cfg.minBudget_le
  have htotal := s.spaced.total_eq
  cases rest with
  | nil =>
      rw [total_cons, total_nil] at htotal
      omega
  | cons y ys =>
      have hlt := budget_lt cfg
      rw [total_cons, total_cons] at htotal
      have hearly := s.enough.resolve_left (not_le.mpr hless)
      have hbefore : h.rTime + h.rAmount ≤ y.rTime := s.spaced.head_before List.mem_cons_self
      have hytail := s.spaced.tail.tail
      rw [SchedContext.mergeNonoverlappingHeadRefill]
      refine (gives_refillPopHead s.holds).bind ?_
      rintro out ⟨hout, hpop⟩
      dsimp only
      rw [hout, hpop.head_eq]
      have hadd : y.rAmount + h.rAmount < wordBound := by omega
      have hsub : h.rAmount ≤ y.rTime := by omega
      refine (gives_add hadd).bind fun amount hamount => ?_
      subst hamount
      have h1 : Holds p c (⟨y.rTime, y.rAmount + h.rAmount⟩ :: ys)
          (out.2.setRefill out.2.scRefillHead ⟨y.rTime, y.rAmount + h.rAmount⟩) := hpop.setHead
      rw [h1.head_eq]
      refine (gives_sub hsub).bind fun time htime => ?_
      subst htime
      -- the merged refill starts earlier by what it gained, so it ends where the second one ended
      refine gives_pure ⟨⟨y.rTime - h.rAmount, y.rAmount + h.rAmount⟩, ys, rfl, h1.setHead, ?_, ?_,
        .inr fun r hr => hearly r (List.mem_cons_of_mem _ hr)⟩
      · have hspaced : Spaced p (y.rAmount + h.rAmount + (budget - h.rAmount - y.rAmount))
            (⟨y.rTime - h.rAmount, y.rAmount + h.rAmount⟩ :: ys) := by
          refine Spaced.cons (h := ⟨y.rTime - h.rAmount, y.rAmount + h.rAmount⟩) hytail
            (Nat.add_pos_right _ s.pos) ?_ ?_
          · intro r hr
            have hb : y.rTime + y.rAmount ≤ r.rTime := s.spaced.tail.head_before hr
            show y.rTime - h.rAmount + (y.rAmount + h.rAmount) ≤ r.rTime
            omega
          · intro r hr
            have hw := s.spaced.window h List.mem_cons_self r
              (List.mem_cons_of_mem _ (List.mem_cons_of_mem _ hr))
            show r.rTime ≤ y.rTime - h.rAmount + p
            omega
        have hsum : y.rAmount + h.rAmount + (budget - h.rAmount - y.rAmount) = budget := by omega
        rwa [hsum] at hspaced
      · have hy := hearly y List.mem_cons_self
        exact lt_of_le_of_lt (Nat.sub_le _ _) hy

/-- **`refill_budget_check`** charges any usage. -/
lemma gives_refillBudgetCheck (cfg : Configured T p budget)
    (s : Serving T p c budget h rest sc) (husage : usage < wordBound) :
    Gives (sc.refillBudgetCheck T usage) fun sc' => ∃ h' rest',
      Serving T p c budget h' rest' sc' ∧ T.minBudget ≤ h'.rAmount := by
  rw [SchedContext.refillBudgetCheck]
  refine (gives_assert (s.holds.not_isRoundRobin cfg)).bind fun _ _ => ?_
  refine (s.sanityStart cfg).bind fun sum hsum => ?_
  rw [hsum]
  refine (gives_handleOverrun cfg s husage).bind ?_
  rintro out ⟨⟨h1, rest1, hs1⟩, hover⟩
  refine (gives_chargePartOfHeadRefill cfg hs1 hover).bind ?_
  rintro sc2 ⟨h2, rest2, hs2⟩
  -- every merge takes one refill away
  let Inv : ℕ → SchedContext → Prop := fun n sc' =>
    ∃ h' rest', rest'.length = n ∧ Serving T p c budget h' rest' sc'
  have hstart : Inv rest2.length sc2 := ⟨h2, rest2, rfl, hs2⟩
  have hfuel : rest2.length < wordBound := by
    have hle := hs2.holds.items.length_le
    have hword := hs2.holds.word
    rw [List.length_cons] at hle
    rw [wordBound]
    omega
  refine Gives.bind (P := fun sc' => ∃ h' rest',
      Serving T p c budget h' rest' sc' ∧ T.minBudget ≤ h'.rAmount) ?_ ?_
  · refine (Gives.while Inv (fun sc' => sc'.headRefillInsufficient T)
      (fun n w _ => gives_pure (by simp)) ?_ hstart hfuel).mono ?_
    · rintro n sc' ⟨h', rest', rfl, hs'⟩ hless
      rw [SchedContext.headRefillInsufficient, hs'.holds.head_eq] at hless
      refine (gives_mergeNonoverlappingHeadRefill cfg hs' hless).mono ?_
      rintro sc3 ⟨h3, rest3, hlen, hs3⟩
      exact ⟨rest3.length, by omega, h3, rest3, rfl, hs3⟩
    · rintro sc' ⟨⟨n, h', rest', -, hs'⟩, hless⟩
      rw [SchedContext.headRefillInsufficient, hs'.holds.head_eq] at hless
      exact ⟨h', rest', hs', not_lt.mp hless⟩
  · rintro sc' ⟨h', rest', hs', hmin⟩
    exact (hs'.sanityCheck cfg).bind fun _ _ => gives_pure ⟨h', rest', hs', hmin⟩

/-! ### Unblocking -/

/-- The refills while a head that begins now may overlap those behind it. -/
structure Waking (T : Timing) (p c budget : ℕ) (h : Refill) (rest : List Refill)
    (sc : SchedContext) : Prop where
  holds : Holds p c (h :: rest) sc
  behind : Spaced p (budget - h.rAmount) rest
  amount_le : h.rAmount ≤ budget
  enough : T.minBudget ≤ h.rAmount
  early : h.rTime < T.maxReleaseTime
  window : ∀ r ∈ rest, r.rTime ≤ h.rTime + p

/-- The head overlaps the refill behind it. -/
def Overlapping : List Refill → Prop
  | h :: y :: _ => y.rTime ≤ h.rTime + h.rAmount
  | _ => False

namespace Waking

/-- Once nothing overlaps, the refills are spaced again. -/
lemma serving (s : Waking T p c budget h rest sc) (hover : ¬ Overlapping (h :: rest)) :
    Serving T p c budget h rest sc where
  holds := s.holds
  spaced := by
    have hmin := T.minBudget_pos
    have henough := s.enough
    have hbefore : ∀ r ∈ rest, Before h r := by
      intro r hr
      cases rest with
      | nil => exact absurd hr List.not_mem_nil
      | cons y ys =>
          have hy : h.rTime + h.rAmount < y.rTime := not_le.mp hover
          rw [Before]
          rcases List.mem_cons.mp hr with rfl | hr
          · exact hy.le
          · have hb : y.rTime + y.rAmount ≤ r.rTime := s.behind.head_before hr
            omega
    have hspaced := s.behind.cons (by omega) hbefore s.window
    rwa [Nat.add_sub_cancel' s.amount_le] at hspaced
  early := by
    have hearly := s.early
    have hlatest := T.latest_add
    omega
  enough := .inl s.enough

/-- `refill_head_overlapping` tests the first two refills. -/
lemma gives_overlapping (cfg : Configured T p budget) (s : Waking T p c budget h rest sc) :
    Gives sc.refillHeadOverlapping fun b => b = true ↔ Overlapping (h :: rest) := by
  have hearly := s.early
  have hlatest := T.latest_add
  have hamount := s.amount_le
  have hb := cfg.budget_le
  have hp := cfg.period_le
  rw [SchedContext.refillHeadOverlapping]
  cases rest with
  | nil =>
      rw [if_neg (not_not.mpr (s.holds.single_iff.mpr rfl))]
      exact gives_pure (by simp [Overlapping])
  | cons y ys =>
      have hmany : ¬ sc.refillSingle := by
        rw [s.holds.single_iff]
        simp
      have hsecond : sc.refillIndex (sc.refillNext sc.scRefillHead) = y := by
        rw [s.holds.next_eq s.holds.items.head_lt]
        exact s.holds.items.second
      rw [if_pos hmany, s.holds.head_eq, hsecond]
      refine (gives_add (by omega)).bind fun e he => ?_
      subst he
      exact gives_pure (by simp [Overlapping])

/-- An overlapping head takes the refill behind it in. -/
lemma gives_merge (cfg : Configured T p budget) (s : Waking T p c budget h rest sc)
    (hover : Overlapping (h :: rest)) :
    Gives sc.mergeOverlappingHeadRefill fun sc' => ∃ h' rest',
      rest'.length + 1 = rest.length ∧ Waking T p c budget h' rest' sc' := by
  cases rest with
  | nil => exact absurd hover not_false
  | cons y ys =>
      have hlt := budget_lt cfg
      have hy := s.behind.rAmount_le List.mem_cons_self
      have hle := s.amount_le
      have henough := s.enough
      rw [SchedContext.mergeOverlappingHeadRefill]
      refine (gives_refillPopHead s.holds).bind ?_
      rintro out ⟨hout, hpop⟩
      have hadd : y.rAmount + h.rAmount < wordBound := by omega
      rw [hout]
      have h1 := hpop.setHeadTime h.rTime
      dsimp only
      rw [h1.head_eq]
      refine (gives_add hadd).bind fun amount hamount => ?_
      subst hamount
      have h2 : Holds p c (⟨h.rTime, y.rAmount + h.rAmount⟩ :: ys) _ := h1.setHead
      refine gives_pure ⟨_, ys, rfl, h2, ?_, ?_, ?_, s.early, ?_⟩
      · have hbehind := s.behind.tail
        have hsum : budget - h.rAmount - y.rAmount = budget - (y.rAmount + h.rAmount) := by omega
        rwa [hsum] at hbehind
      · show y.rAmount + h.rAmount ≤ budget
        omega
      · show T.minBudget ≤ y.rAmount + h.rAmount
        omega
      · exact fun r hr => s.window r (List.mem_cons_of_mem _ hr)

end Waking

/-- **`refill_unblock_check`** brings a ready head to the present time. -/
lemma gives_refillUnblockCheck {ksCurTime : ℕ} {ksReprogram : Bool} (cfg : Configured T p budget)
    (s : Serving T p c budget h rest sc) (henough : T.minBudget ≤ h.rAmount)
    (htime : ksCurTime < T.maxReleaseTime) :
    Gives (sc.refillUnblockCheck T ksCurTime ksReprogram) fun out => ∃ h' rest',
      Serving T p c budget h' rest' out.1 ∧ T.minBudget ≤ h'.rAmount := by
  rw [SchedContext.refillUnblockCheck, if_neg (s.holds.not_isRoundRobin cfg)]
  refine (s.sanityStart cfg).bind fun sum hsum => ?_
  rw [hsum]
  have hcheck : ∀ out : SchedContext × Bool,
      (∃ h' rest', Serving T p c budget h' rest' out.1 ∧ T.minBudget ≤ h'.rAmount) →
      Gives (do
        out.1.refillSanityCheck budget
        pure out) fun out => ∃ h' rest',
          Serving T p c budget h' rest' out.1 ∧ T.minBudget ≤ h'.rAmount := by
    rintro out ⟨h', rest', hs', hmin⟩
    exact (hs'.sanityCheck cfg).bind fun _ _ => gives_pure ⟨h', rest', hs', hmin⟩
  split_ifs with hready
  · rw [SchedContext.refillReady, s.holds.head_eq] at hready
    have hwake : Waking T p c budget ⟨ksCurTime, h.rAmount⟩ rest
        (sc.setRefill sc.scRefillHead { sc.refillHead with rTime := ksCurTime }) := by
      have hle : h.rAmount ≤ budget := s.spaced.rAmount_le List.mem_cons_self
      refine ⟨s.holds.setHeadTime ksCurTime, s.spaced.tail, hle, henough, htime, ?_⟩
      intro r hr
      have hw := s.spaced.window h List.mem_cons_self r (List.mem_cons_of_mem _ hr)
      show r.rTime ≤ ksCurTime + p
      omega
    dsimp only
    generalize sc.setRefill sc.scRefillHead { sc.refillHead with rTime := ksCurTime } = sc1
      at hwake ⊢
    -- every merge takes one refill away
    let Inv : ℕ → SchedContext → Prop := fun n sc' =>
      ∃ h' rest', rest'.length = n ∧ Waking T p c budget h' rest' sc'
    have hstart : Inv rest.length sc1 := ⟨_, rest, rfl, hwake⟩
    have hfuel : rest.length < wordBound := by
      have hle := s.holds.items.length_le
      have hword := s.holds.word
      rw [List.length_cons] at hle
      rw [wordBound]
      omega
    have hloop : Gives (whileLoop SchedContext.refillHeadOverlapping
        SchedContext.mergeOverlappingHeadRefill sc1) fun sc' => ∃ h' rest',
          Serving T p c budget h' rest' sc' ∧ T.minBudget ≤ h'.rAmount := by
      refine (Gives.while Inv (fun sc' => Overlapping sc'.refills) ?_ ?_ hstart hfuel).mono ?_
      · rintro n sc' ⟨h', rest', -, hs'⟩
        rw [hs'.holds.refills_eq]
        exact hs'.gives_overlapping cfg
      · rintro n sc' ⟨h', rest', rfl, hs'⟩ hover
        rw [hs'.holds.refills_eq] at hover
        refine (hs'.gives_merge cfg hover).mono ?_
        rintro sc2 ⟨h2, rest2, hlen, hs2⟩
        exact ⟨rest2.length, by omega, h2, rest2, rfl, hs2⟩
      · rintro sc' ⟨⟨n, h', rest', -, hs'⟩, hover⟩
        rw [hs'.holds.refills_eq] at hover
        exact ⟨h', rest', hs'.serving hover, hs'.enough⟩
    refine hloop.bind ?_
    rintro sc' ⟨h', rest', hs', hmin⟩
    have hsufficient : sc'.refillSufficient T 0 := by
      rw [SchedContext.refillSufficient, SchedContext.refillCapacity, if_neg (by omega),
        hs'.holds.head_eq]
      exact hmin
    refine (gives_assert hsufficient).bind fun _ _ => ?_
    exact (gives_pure ⟨h', rest', hs', hmin⟩).bind hcheck
  · exact (gives_pure ⟨h, rest, s, henough⟩).bind hcheck

/-! ### Runs -/

/-- The operations on a scheduling context that is set up. -/
inductive RefillOp
  | budgetCheck (usage : ℕ)
  | unblockCheck
  | update (period budget maxRefills : ℕ)

/-- An operation, and the time at which the kernel runs. -/
structure Event where
  ksCurTime : ℕ
  op : RefillOp

/-- A scheduling context, the budget it was last given, and `ksReprogram`. -/
structure Server where
  sc : SchedContext
  budget : ℕ
  ksReprogram : Bool

/-- The operation of an event. -/
def perform (T : Timing) (s : Server) (e : Event) : Except Fault Server :=
  match e.op with
  | .budgetCheck usage => do
      let sc ← s.sc.refillBudgetCheck T usage
      return { s with sc }
  | .unblockCheck => do
      let r ← s.sc.refillUnblockCheck T e.ksCurTime s.ksReprogram
      return { s with sc := r.1, ksReprogram := r.2 }
  | .update period budget maxRefills => do
      let sc ← s.sc.refillUpdate e.ksCurTime period budget maxRefills
      return { s with sc, budget }

/-- The operation of an event ends without a fault. -/
def Performs (T : Timing) (s : Server) (e : Event) (s' : Server) : Prop := perform T s e = .ok s'

/-- The times, usages and configurations that reach the operations. -/
def Event.Admissible (T : Timing) (e : Event) : Prop :=
  e.ksCurTime < T.maxReleaseTime ∧
    match e.op with
    | .budgetCheck usage => usage < wordBound
    | .unblockCheck => True
    | .update period budget maxRefills => Configured T period budget ∧ maxRefills < 2 ^ 64

/-- An update leaves room for two refills, or for the head when it holds the budget. -/
def HasRoom (s : Server) (e : Event) : Prop :=
  match e.op with
  | .update _ budget maxRefills =>
      2 ≤ maxRefills ∨ maxRefills = 1 ∧ budget ≤ s.sc.refillHead.rAmount
  | _ => True

/-- What the refills of a server have to be. -/
structure Sound (T : Timing) (s : Server) : Prop where
  size_pos : 1 ≤ s.sc.refillSize
  size_le : s.sc.refillSize ≤ s.sc.scRefillMax
  total_eq : total s.sc.refills = s.budget
  ordered : s.sc.refills.IsChain Before
  sufficient : T.minBudget ≤ s.sc.refillHead.rAmount

/-- In every run of admissible events that are good, the refills are sound in every state,
and the operation of the next good event ends without a fault. -/
def KeepsRefills (good : Server → Event → Prop) (T : Timing) (s₀ : Server) : Prop :=
  ∀ es s, Exec.Runs (Exec.Guarded (fun s e => e.Admissible T ∧ good s e) (Performs T)) s₀ es s →
    Sound T s ∧ ∀ e : Event, e.Admissible T → good s e → ∃ s', perform T s e = .ok s'

/-- A server between two operations. -/
def AtRest (T : Timing) (s : Server) : Prop :=
  ∃ p c h rest, Configured T p s.budget ∧ Serving T p c s.budget h rest s.sc ∧
    T.minBudget ≤ h.rAmount

lemma AtRest.sound {s : Server} (hs : AtRest T s) : Sound T s := by
  obtain ⟨p, c, h, rest, -, hserving, hmin⟩ := hs
  have hholds := hserving.holds
  refine ⟨?_, ?_, ?_, ?_, ?_⟩
  · rw [hholds.size_eq]
    exact hholds.items.length_pos
  · rw [hholds.size_eq, hholds.max_eq]
    exact hholds.items.length_le
  · rw [hholds.refills_eq]
    exact hserving.spaced.total_eq
  · rw [hholds.refills_eq]
    exact hserving.spaced.ordered.isChain
  · rw [hholds.head_eq]
    exact hmin

/-- **One step**: an admissible event with room ends without a fault, at rest. -/
lemma AtRest.step {s : Server} {e : Event} (hs : AtRest T s) (hadm : e.Admissible T)
    (hroom : HasRoom s e) : Gives (perform T s e) (AtRest T) := by
  obtain ⟨p, c, h, rest, cfg, hserving, hmin⟩ := hs
  obtain ⟨time, op⟩ := e
  obtain ⟨htime, hop⟩ := hadm
  cases op with
  | budgetCheck usage =>
      refine (gives_refillBudgetCheck cfg hserving hop).bind fun sc' ⟨h', rest', hs', hmin'⟩ => ?_
      exact gives_pure ⟨p, c, h', rest', cfg, hs', hmin'⟩
  | unblockCheck =>
      refine (gives_refillUnblockCheck cfg hserving hmin htime).bind
        fun out ⟨h', rest', hs', hmin'⟩ => ?_
      exact gives_pure ⟨p, c, h', rest', cfg, hs', hmin'⟩
  | update period budget maxRefills =>
      obtain ⟨cfg', hword⟩ := hop
      have hroom' : 2 ≤ maxRefills ∨ maxRefills = 1 ∧ budget ≤ h.rAmount := by
        rw [← hserving.holds.head_eq]
        exact hroom
      refine (gives_refillUpdate cfg' hserving hmin hword hroom' htime).bind
        fun sc' ⟨h', rest', hs', hmin'⟩ => ?_
      exact gives_pure ⟨period, maxRefills, h', rest', cfg', hs', hmin'⟩

/-- **Sporadic refills**: after `refill_new` every run in which the updates leave room
keeps the refills sound. -/
theorem refillNew_keepsRefills {maxRefills ksCurTime : ℕ} {ksReprogram : Bool}
    (sc : SchedContext) (cfg : Configured T p budget) (hmax : 2 ≤ maxRefills)
    (hword : maxRefills < 2 ^ 64) (htime : ksCurTime < T.maxReleaseTime) :
    ∃ sc', sc.refillNew T ksCurTime maxRefills budget p = .ok sc' ∧
      KeepsRefills HasRoom T ⟨sc', budget, ksReprogram⟩ := by
  obtain ⟨sc', hnew, hserving⟩ :=
    gives_refillNew cfg sc (show 0 < maxRefills by omega) hword htime
  refine ⟨sc', hnew, fun es s hrun => ?_⟩
  have hstart : AtRest T ⟨sc', budget, ksReprogram⟩ :=
    ⟨p, maxRefills, _, _, cfg, hserving, cfg.minBudget_le⟩
  have hrest : AtRest T s := by
    refine hrun.invariant (AtRest T) (fun s e s' hs hstep => ?_) hstart
    obtain ⟨⟨hadm, hroom⟩, hperform⟩ := hstep
    obtain ⟨s'', hs'', hrest⟩ := hs.step hadm hroom
    rw [Performs, hs''] at hperform
    obtain rfl : s'' = s' := by simpa using hperform
    exact hrest
  refine ⟨hrest.sound, fun e hadm hroom => ?_⟩
  obtain ⟨s', hs', -⟩ := hrest.step hadm hroom
  exact ⟨s', hs'⟩

/-- A clock of 24 ticks a microsecond, periods of up to a second, and a `MIN_BUDGET` of
twenty microseconds. -/
def Timing.arm : Timing where
  usToTicks us := us * 24
  maxPeriodUs := 1000000
  minBudget := 480
  usToTicks_mono _ _ hle _ := Nat.mul_le_mul_right 24 hle
  minBudget_pos := by decide
  room := by decide

/-- A scheduling context before it is set up. -/
def SchedContext.fresh : SchedContext := ⟨0, 0, 0, 0, fun _ => ⟨0, 0⟩⟩

/-- A budget of 50 of 100 microseconds, in three refills. -/
theorem refillNew_keepsRefills_arm :
    ∃ sc', SchedContext.fresh.refillNew .arm 1000 3 1200 2400 = .ok sc' ∧
      KeepsRefills HasRoom .arm ⟨sc', 1200, false⟩ :=
  refillNew_keepsRefills .fresh ⟨by decide, by decide, by decide⟩ (by decide) (by decide)
    (by decide)

/-- An update from 50 to 75 of 100 microseconds, in one refill. -/
theorem not_keepsRefills_oneRefill :
    ∃ sc', SchedContext.fresh.refillNew .arm 1000 2 1200 2400 = .ok sc' ∧
      ¬ KeepsRefills (fun _ _ => True) .arm ⟨sc', 1200, false⟩ := by
  have cfg : Configured .arm 2400 1200 := ⟨by decide, by decide, by decide⟩
  have cfg' : Configured .arm 2400 1800 := ⟨by decide, by decide, by decide⟩
  obtain ⟨sc', hnew, hserving⟩ :=
    gives_refillNew cfg .fresh (show 0 < 2 by decide) (by decide)
      (show 1000 < Timing.arm.maxReleaseTime by decide)
  refine ⟨sc', hnew, fun hkeeps => ?_⟩
  have hfault := refillUpdate_one cfg' hserving (show 1200 < 1800 by decide)
    (show 2000 < Timing.arm.maxReleaseTime by decide)
  have hadm : Event.Admissible .arm ⟨2000, .update 2400 1800 1⟩ :=
    ⟨by decide, cfg', by decide⟩
  obtain ⟨s', hs'⟩ := (hkeeps [] _ .nil).2 ⟨2000, .update 2400 1800 1⟩ hadm trivial
  rw [perform] at hs'
  dsimp only at hs'
  rw [hfault] at hs'
  cases hs'

end Kernel.Sporadic
