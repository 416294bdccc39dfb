import Sel4Test.Lib.Checked
import Sel4Test.Lib.Circular
import Sel4Test.Kernel.Boot

/-!
Refills of a scheduling context: `src/kernel/sporadic.c`, with the checks of
`decodeSchedControl_ConfigureFlags` of `src/object/schedcontrol.c`, on a debug build.

A scheduling context has a circular buffer of refills behind its fields. Times and
amounts are 64-bit counts of ticks, added and subtracted with a check; indices are words
and wrap around. Every `assert` of the source is an assertion of the model, the sanity
checks of the debug build included, and every `while` may run for `2 ^ 64` rounds.
-/

namespace Kernel.Sporadic

open Checked

/-! ### Data -/

/-- What the clock and the configuration fix: `usToTicks`, `MAX_PERIOD_US` and
`MIN_BUDGET`. `MAX_RELEASE_TIME` does not wrap. -/
structure Timing where
  usToTicks : ℕ → ℕ
  maxPeriodUs : ℕ
  minBudget : ℕ
  usToTicks_mono : ∀ a b, a ≤ b → b ≤ maxPeriodUs → usToTicks a ≤ usToTicks b
  minBudget_pos : 0 < minBudget
  room : 5 * usToTicks maxPeriodUs < 2 ^ 64

namespace Timing

/-- `usToTicks(MAX_PERIOD_US)`. -/
def maxPeriod (T : Timing) : ℕ := T.usToTicks T.maxPeriodUs

/-- `MAX_RELEASE_TIME`. -/
def maxReleaseTime (T : Timing) : ℕ := 2 ^ 64 - 1 - 5 * T.maxPeriod

end Timing

/-- `refill_t`. -/
structure Refill where
  rTime : ℕ
  rAmount : ℕ
  deriving DecidableEq, Repr

/-- `MIN_REFILLS`. -/
def minRefills : ℕ := 2

/-- `sched_context_t`: the fields of the sporadic server, and `refill_index`. -/
structure SchedContext where
  scPeriod : ℕ
  scRefillMax : ℕ
  scRefillHead : ℕ
  scRefillTail : ℕ
  refillIndex : ℕ → Refill

namespace SchedContext

variable (sc : SchedContext)

/-- `refill_head`. -/
def refillHead : Refill := sc.refillIndex sc.scRefillHead

/-- `refill_tail`. -/
def refillTail : Refill := sc.refillIndex sc.scRefillTail

/-- `*refill_index(sc, index) = refill`. -/
def setRefill (index : ℕ) (refill : Refill) : SchedContext :=
  { sc with refillIndex := Function.update sc.refillIndex index refill }

/-- `isRoundRobin`. -/
def isRoundRobin : Prop := sc.scPeriod = 0

instance : Decidable sc.isRoundRobin := inferInstanceAs (Decidable (sc.scPeriod = 0))

/-- `refill_next`. -/
def refillNext (index : ℕ) : ℕ := if index = wsub sc.scRefillMax 1 then 0 else wadd index 1

/-- `refill_size`. -/
def refillSize : ℕ :=
  if sc.scRefillHead ≤ sc.scRefillTail then wadd (wsub sc.scRefillTail sc.scRefillHead) 1
  else wadd (wadd sc.scRefillTail 1) (wsub sc.scRefillMax sc.scRefillHead)

/-- `refill_full`. -/
def refillFull : Prop := sc.refillSize = sc.scRefillMax

instance : Decidable sc.refillFull := inferInstanceAs (Decidable (_ = _))

/-- `refill_single`. -/
def refillSingle : Prop := sc.scRefillHead = sc.scRefillTail

instance : Decidable sc.refillSingle := inferInstanceAs (Decidable (_ = _))

/-- `refill_capacity`. -/
def refillCapacity (usage : ℕ) : ℕ :=
  if usage > sc.refillHead.rAmount then 0 else sc.refillHead.rAmount - usage

/-- `refill_sufficient`. -/
def refillSufficient (T : Timing) (usage : ℕ) : Prop := T.minBudget ≤ sc.refillCapacity usage

instance (T : Timing) (usage : ℕ) : Decidable (sc.refillSufficient T usage) :=
  inferInstanceAs (Decidable (_ ≤ _))

/-- `refill_ready`. -/
def refillReady (ksCurTime : ℕ) : Prop := sc.refillHead.rTime ≤ ksCurTime

instance (ksCurTime : ℕ) : Decidable (sc.refillReady ksCurTime) :=
  inferInstanceAs (Decidable (_ ≤ _))

/-- The refills in the buffer, head first. -/
def refills : List Refill :=
  (List.range sc.refillSize).map fun k =>
    sc.refillIndex (Ring.index sc.scRefillMax sc.scRefillHead k)

/-! ### Sanity checks -/

/-- `refill_sum`: the loop is at an index with the sum up to it. -/
def refillSum : Except Fault ℕ := do
  let r ← whileLoop (fun s : ℕ × ℕ => pure (decide (s.1 ≠ sc.scRefillTail)))
    (fun s => do
      let current := sc.refillNext s.1
      let sum ← add s.2 (sc.refillIndex current).rAmount
      return (current, sum))
    (sc.scRefillHead, sc.refillHead.rAmount)
  return r.2

/-- `refill_ordered`: the loop is at an index and the next one. -/
def refillOrdered : Except Fault Bool :=
  if sc.isRoundRobin then return true
  else
    loop (fun s : ℕ × ℕ =>
      if s.1 ≠ sc.scRefillTail then do
        let tail ← add (sc.refillIndex s.1).rTime (sc.refillIndex s.1).rAmount
        if tail ≤ (sc.refillIndex s.2).rTime then return .inl (s.2, sc.refillNext s.2)
        else return .inr false
      else return .inr true) wordBound (sc.scRefillHead, sc.refillNext sc.scRefillHead)

/-- `assert(isRoundRobin(sc) || refill_ordered(sc))`. -/
def assertOrdered : Except Fault Unit :=
  if sc.isRoundRobin then return () else do assert ((← sc.refillOrdered) = true)

/-- `REFILL_SANITY_START`. -/
def refillSanityStart : Except Fault ℕ := do
  let sum ← sc.refillSum
  sc.assertOrdered
  return sum

/-- `REFILL_SANITY_CHECK`. -/
def refillSanityCheck (budget : ℕ) : Except Fault Unit := do
  assert ((← sc.refillSum) = budget)
  sc.assertOrdered

/-! ### The buffer -/

/-- `refill_pop_head`. -/
def refillPopHead : Except Fault (Refill × SchedContext) := do
  assert (¬ sc.refillSingle)
  let prevSize := sc.refillSize
  let refill := sc.refillHead
  let sc : SchedContext := { sc with scRefillHead := sc.refillNext sc.scRefillHead }
  assert (prevSize = wadd sc.refillSize 1)
  assert (sc.scRefillHead < sc.scRefillMax)
  return (refill, sc)

/-- `refill_add_tail`. -/
def refillAddTail (refill : Refill) : Except Fault SchedContext := do
  assert (sc.refillSize < sc.scRefillMax)
  let newTail := sc.refillNext sc.scRefillTail
  let sc := { sc with scRefillTail := newTail }.setRefill newTail refill
  assert (newTail < sc.scRefillMax)
  return sc

/-- `maybe_add_empty_tail`. -/
def maybeAddEmptyTail : Except Fault SchedContext :=
  if sc.isRoundRobin then do
    let sc ← sc.refillAddTail ⟨sc.refillHead.rTime, 0⟩
    assert (sc.refillSize = minRefills)
    return sc
  else return sc

/-! ### Setting up -/

/-- `refill_new`. -/
def refillNew (T : Timing) (ksCurTime maxRefills budget period : ℕ) :
    Except Fault SchedContext := do
  let sc : SchedContext :=
    { sc with
      scPeriod := period, scRefillHead := 0, scRefillTail := 0, scRefillMax := maxRefills }
  assert (T.minBudget ≤ budget)
  let sc := sc.setRefill sc.scRefillHead { sc.refillHead with rAmount := budget }
  let sc := sc.setRefill sc.scRefillHead { sc.refillHead with rTime := ksCurTime }
  let sc ← sc.maybeAddEmptyTail
  sc.refillSanityCheck budget
  return sc

/-- The first part of `refill_update`: the head stays, alone and in the first slot, and
begins now if it is ready. -/
def keepHead (ksCurTime newPeriod newMaxRefills : ℕ) : SchedContext :=
  let sc := sc.setRefill 0 sc.refillHead
  let sc : SchedContext :=
    { sc with
      scRefillHead := 0, scRefillTail := 0, scRefillMax := newMaxRefills
      scPeriod := newPeriod }
  if sc.refillReady ksCurTime then
    sc.setRefill sc.scRefillHead { sc.refillHead with rTime := ksCurTime }
  else sc

/-- `refill_update`. -/
def refillUpdate (ksCurTime newPeriod newBudget newMaxRefills : ℕ) :
    Except Fault SchedContext := do
  assert (0 < sc.scRefillMax)
  let sc := sc.keepHead ksCurTime newPeriod newMaxRefills
  let sc ←
    if newBudget ≤ sc.refillHead.rAmount then
      (sc.setRefill sc.scRefillHead { sc.refillHead with rAmount := newBudget }).maybeAddEmptyTail
    else do
      let rAmount ← sub newBudget sc.refillHead.rAmount
      let rTime ← add sc.refillHead.rTime newPeriod
      sc.refillAddTail ⟨rTime, rAmount⟩
  sc.refillSanityCheck newBudget
  return sc

/-! ### Charging -/

/-- `schedule_used`. -/
def scheduleUsed (new : Refill) : Except Fault SchedContext := do
  let tail := sc.refillTail
  let tailEnd ← add tail.rTime tail.rAmount
  if new.rTime ≤ tailEnd then
    let rAmount ← add tail.rAmount new.rAmount
    return sc.setRefill sc.scRefillTail { tail with rAmount }
  else if ¬ sc.refillFull then
    sc.refillAddTail new
  else
    let rTime ← sub new.rTime tail.rAmount
    let rAmount ← add tail.rAmount new.rAmount
    return sc.setRefill sc.scRefillTail ⟨rTime, rAmount⟩

/-- `refill_head_overlapping`. -/
def refillHeadOverlapping : Except Fault Bool :=
  if ¬ sc.refillSingle then do
    let tail ← add sc.refillHead.rTime sc.refillHead.rAmount
    return decide ((sc.refillIndex (sc.refillNext sc.scRefillHead)).rTime ≤ tail)
  else return false

/-- `head_refill_overrun`. -/
def headRefillOverrun (T : Timing) (usage : ℕ) : Prop :=
  sc.refillHead.rAmount ≤ usage ∧ sc.refillHead.rTime < T.maxReleaseTime

instance (T : Timing) (usage : ℕ) : Decidable (sc.headRefillOverrun T usage) :=
  inferInstanceAs (Decidable (_ ∧ _))

/-- `charge_entire_head_refill`. -/
def chargeEntireHeadRefill (usage : ℕ) : Except Fault (SchedContext × ℕ) := do
  let head := sc.refillHead
  let sc ←
    if sc.refillSingle then do
      let rTime ← add head.rTime sc.scPeriod
      pure (sc.setRefill sc.scRefillHead { head with rTime })
    else do
      let r ← sc.refillPopHead
      let rTime ← add r.1.rTime r.2.scPeriod
      r.2.scheduleUsed { r.1 with rTime }
  let usage ← sub usage head.rAmount
  return (sc, usage)

/-- `handle_overrun`. -/
def handleOverrun (T : Timing) (usage : ℕ) : Except Fault (SchedContext × ℕ) :=
  whileLoop (fun s : SchedContext × ℕ => pure (decide (s.1.headRefillOverrun T s.2)))
    (fun s => s.1.chargeEntireHeadRefill s.2) (sc, usage)

/-- `head_refill_insufficient`. -/
def headRefillInsufficient (T : Timing) : Prop := sc.refillHead.rAmount < T.minBudget

instance (T : Timing) : Decidable (sc.headRefillInsufficient T) :=
  inferInstanceAs (Decidable (_ < _))

/-- `merge_nonoverlapping_head_refill`. -/
def mergeNonoverlappingHeadRefill : Except Fault SchedContext := do
  let r ← sc.refillPopHead
  let head := r.1
  let sc := r.2
  let rAmount ← add sc.refillHead.rAmount head.rAmount
  let sc := sc.setRefill sc.scRefillHead { sc.refillHead with rAmount }
  let rTime ← sub sc.refillHead.rTime head.rAmount
  return sc.setRefill sc.scRefillHead { sc.refillHead with rTime }

/-- The part of `refill_budget_check` after the overrun: what is left of the usage is
charged to the head. -/
def chargePartOfHeadRefill (T : Timing) (usage : ℕ) : Except Fault SchedContext := do
  let head := sc.refillHead
  if usage > 0 ∧ head.rTime < T.maxReleaseTime then
    assert (head.rAmount > usage)
    let rTime ← add head.rTime sc.scPeriod
    let used : Refill := ⟨rTime, usage⟩
    let rAmount ← sub head.rAmount usage
    let sc := sc.setRefill sc.scRefillHead { sc.refillHead with rAmount }
    let rTime ← add head.rTime usage
    let sc := sc.setRefill sc.scRefillHead { sc.refillHead with rTime }
    sc.scheduleUsed used
  else return sc

/-- `refill_budget_check`. -/
def refillBudgetCheck (T : Timing) (usage : ℕ) : Except Fault SchedContext := do
  assert (¬ sc.isRoundRobin)
  let sum ← sc.refillSanityStart
  let r ← sc.handleOverrun T usage
  let sc ← r.1.chargePartOfHeadRefill T r.2
  let sc ← whileLoop (fun sc : SchedContext => pure (decide (sc.headRefillInsufficient T)))
    mergeNonoverlappingHeadRefill sc
  sc.refillSanityCheck sum
  return sc

/-! ### Unblocking -/

/-- `merge_overlapping_head_refill`. -/
def mergeOverlappingHeadRefill : Except Fault SchedContext := do
  let r ← sc.refillPopHead
  let oldHead := r.1
  let sc := r.2
  let sc := sc.setRefill sc.scRefillHead { sc.refillHead with rTime := oldHead.rTime }
  let rAmount ← add sc.refillHead.rAmount oldHead.rAmount
  return sc.setRefill sc.scRefillHead { sc.refillHead with rAmount }

/-- `refill_unblock_check`, with `ksReprogram`. -/
def refillUnblockCheck (T : Timing) (ksCurTime : ℕ) (ksReprogram : Bool) :
    Except Fault (SchedContext × Bool) :=
  if sc.isRoundRobin then return (sc, ksReprogram)
  else do
    let sum ← sc.refillSanityStart
    let r ←
      if sc.refillReady ksCurTime then do
        let sc := sc.setRefill sc.scRefillHead { sc.refillHead with rTime := ksCurTime }
        let sc ← whileLoop refillHeadOverlapping mergeOverlappingHeadRefill sc
        assert (sc.refillSufficient T 0)
        pure (sc, true)
      else pure (sc, ksReprogram)
    r.1.refillSanityCheck sum
    return r

end SchedContext

/-! ### Configuration -/

/-- The range that a `seL4_RangeError` reports. -/
structure RangeError where
  rangeErrorMin : ℕ
  rangeErrorMax : ℕ
  deriving DecidableEq, Repr

/-- The checks of `decodeSchedControl_ConfigureFlags` on the message: the budget, the
period and the number of refills that go to `invokeSchedControl_ConfigureFlags`. The sum
of the extra refills and `MIN_REFILLS` is a word and wraps around. -/
def decodeConfigureFlags (T : Timing) (minBudgetUs refillAbsoluteMax budgetUs periodUs
    extraRefills : ℕ) : Except RangeError (ℕ × ℕ × ℕ) :=
  let budgetTicks := T.usToTicks budgetUs
  let periodTicks := T.usToTicks periodUs
  if T.maxPeriodUs < budgetUs ∨ budgetTicks < T.minBudget then
    .error ⟨minBudgetUs, T.maxPeriodUs⟩
  else if T.maxPeriodUs < periodUs ∨ periodTicks < T.minBudget then
    .error ⟨minBudgetUs, T.maxPeriodUs⟩
  else if periodTicks < budgetTicks then .error ⟨minBudgetUs, periodUs⟩
  else if refillAbsoluteMax < wadd extraRefills minRefills then
    .error ⟨0, wsub refillAbsoluteMax minRefills⟩
  else .ok (budgetTicks, periodTicks, wadd extraRefills minRefills)

/-- What is configured meets `MIN_BUDGET ≤ budget ≤ period ≤ MAX_PERIOD`. -/
lemma decodeConfigureFlags_bounds {T : Timing} {minBudgetUs refillAbsoluteMax budgetUs periodUs
    extraRefills budget period maxRefills : ℕ}
    (h : decodeConfigureFlags T minBudgetUs refillAbsoluteMax budgetUs periodUs extraRefills
      = .ok (budget, period, maxRefills)) :
    T.minBudget ≤ budget ∧ budget ≤ period ∧ period ≤ T.maxPeriod := by
  unfold decodeConfigureFlags at h
  dsimp only at h
  split_ifs at h with h1 h2 h3 h4
  obtain ⟨rfl, rfl, rfl⟩ : T.usToTicks budgetUs = budget ∧ T.usToTicks periodUs = period ∧
      wadd extraRefills minRefills = maxRefills := by simpa using h
  exact ⟨by omega, by omega, T.usToTicks_mono _ _ (by omega) le_rfl⟩

/-- The largest number of extra refills is accepted, and asks for one refill. -/
lemma decodeConfigureFlags_wraps {T : Timing} {minBudgetUs refillAbsoluteMax budgetUs periodUs : ℕ}
    (hmax : 0 < refillAbsoluteMax) (hbudget : T.minBudget ≤ T.usToTicks budgetUs)
    (horder : T.usToTicks budgetUs ≤ T.usToTicks periodUs)
    (hb : budgetUs ≤ T.maxPeriodUs) (hp : periodUs ≤ T.maxPeriodUs) :
    decodeConfigureFlags T minBudgetUs refillAbsoluteMax budgetUs periodUs (2 ^ 64 - 1)
      = .ok (T.usToTicks budgetUs, T.usToTicks periodUs, 1) := by
  have hone : wadd (2 ^ 64 - 1) minRefills = 1 := by decide
  unfold decodeConfigureFlags
  dsimp only
  rw [hone, if_neg (by omega), if_neg (by omega), if_neg (by omega), if_neg (by omega)]

end Kernel.Sporadic
