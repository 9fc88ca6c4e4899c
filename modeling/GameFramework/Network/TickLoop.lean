import GameFramework.Lib.Accumulator
import GameFramework.Lib.Transition
import Mathlib.Algebra.Order.BigOperators.Group.List
import Mathlib.Algebra.Order.Ring.Rat
import Mathlib.Data.Rat.Floor
import Mathlib.Tactic.NormNum

/-!
# The network loop

The loop of {lit}`NetworkServer::run` in exact arithmetic.  A label is the wall time since the
previous iteration, which is at least the sleep that iteration asked for.  What a tick is to do is
not written yet; what is there is its pace.

Main results:

- Theorem {lit}`TickLoop.after_eq`: the loop is an accumulator of elapsed times.
- Theorem {lit}`TickLoop.due_of_slept`: after its sleep an iteration has a period to tick off.
- Theorem {lit}`TickLoop.paced`: the loop never wakes in vain and never ticks early.
-/

namespace GameFramework

/-- The local variables that the loop carries from one iteration to the next, and the sleep it has
asked for. -/
structure TickLoop where
  remainingTime : ℚ
  sleepTime : ℚ
  deriving DecidableEq

inductive TickEvent where
  | ticked
  deriving DecidableEq

namespace TickLoop

/-- {lit}`m_tickPeriod` -/
def tickPeriod : ℚ := 1 / 10

/-- The elapsed time of an iteration. -/
def elapsedOf (wall : ℚ) : ℚ := min 2 wall

/-- What is left of the time of an iteration. -/
def leftover (s : TickLoop) (wall : ℚ) : ℚ :=
  if tickPeriod ≤ s.remainingTime + elapsedOf wall then
    s.remainingTime + elapsedOf wall - tickPeriod
  else s.remainingTime + elapsedOf wall

/-- One iteration of the loop. -/
def iterate (s : TickLoop) (wall : ℚ) : Option (TickLoop × List TickEvent) :=
  if s.sleepTime ≤ wall then
    some
      ({ remainingTime := s.leftover wall
         sleepTime := max 0 (min (tickPeriod - s.leftover wall) 1) },
        if tickPeriod ≤ s.remainingTime + elapsedOf wall then [.ticked] else [])
  else none

/-- The variables before the first iteration. -/
def start : TickLoop where
  remainingTime := 0
  sleepTime := 0

/-- The network loop as a labelled system over wall times. -/
def system : Labelled.System TickLoop ℚ TickEvent where
  step := iterate

variable {s t : TickLoop} {wall first : ℚ} {walls : List ℚ} {h out : List TickEvent}

/-- What an iteration does. -/
theorem iterate_spec (hstep : s.iterate wall = some (t, out)) :
    s.sleepTime ≤ wall ∧ t.sleepTime = max 0 (min (tickPeriod - t.remainingTime) 1) ∧
      ∀ n, (⟨t.remainingTime, n + out.length⟩ : Accumulator ℚ) =
        Accumulator.add tickPeriod ⟨s.remainingTime, n⟩ (elapsedOf wall) := by
  unfold iterate at hstep
  split at hstep
  · rename_i hslept
    cases hstep
    refine ⟨hslept, rfl, fun n => ?_⟩
    unfold leftover Accumulator.add
    split <;> rfl
  · contradiction

/-- The loop is an accumulator of elapsed times, which are not negative. -/
theorem after_eq (hrun : system.run start walls = some (s, h)) :
    Accumulator.after tickPeriod (walls.map elapsedOf) = ⟨s.remainingTime, h.length⟩ ∧
      0 ≤ s.sleepTime ∧ ∀ wall ∈ walls, 0 ≤ wall := by
  induction walls using List.reverseRecOn generalizing s h with
  | nil =>
      cases hrun
      exact ⟨rfl, le_refl _, by simp⟩
  | append_singleton walls wall ih =>
      rcases system.run_append.mp hrun with ⟨t, h₁, h₂, hpre, hlast, rfl⟩
      rcases ih hpre with ⟨hafter, hsleep, hnonneg⟩
      rcases iterate_spec (system.run_singleton.mp hlast) with ⟨hslept, hnext, hadd⟩
      refine ⟨?_, hnext ▸ le_max_left _ _, fun w hw => ?_⟩
      · rw [List.map_append, List.map_singleton, Accumulator.after_concat, hafter,
          List.length_append, hadd]
      · rcases List.mem_append.mp hw with hold | hnew
        · exact hnonneg w hold
        · exact List.mem_singleton.mp hnew ▸ hsleep.trans hslept

/-- Some time is always left. -/
theorem remainingTime_nonneg (hrun : system.run start walls = some (s, h)) :
    0 ≤ s.remainingTime := by
  rcases after_eq hrun with ⟨hafter, _, hnonneg⟩
  have helapsed : ∀ e ∈ walls.map elapsedOf, 0 ≤ e := by
    intro e he
    rcases List.mem_map.mp he with ⟨wall, hwall, rfl⟩
    exact le_min (by norm_num) (hnonneg wall hwall)
  have hbacklog : 0 ≤ (Accumulator.after tickPeriod (walls.map elapsedOf)).backlog :=
    Accumulator.backlog_nonneg helapsed
  rwa [hafter] at hbacklog

/-- The sleep after an iteration makes up the rest of a period. -/
theorem due_of_slept (hstep : s.iterate wall = some (t, out)) (hremaining : 0 ≤ t.remainingTime)
    {wall' : ℚ} (hslept : t.sleepTime ≤ wall') :
    tickPeriod ≤ t.remainingTime + elapsedOf wall' := by
  rcases iterate_spec hstep with ⟨_, hsleep, _⟩
  have hperiod : tickPeriod = 1 / 10 := rfl
  -- the rest of a period is less than the second that a sleep is cut down to
  have hrest : tickPeriod - t.remainingTime ≤ t.sleepTime := by
    rw [hsleep, min_eq_left (by linarith)]
    exact le_max_right _ _
  rcases le_total 2 wall' with hlong | hshort
  · rw [elapsedOf, min_eq_left hlong]
    linarith
  · rw [elapsedOf, min_eq_right hshort]
    linarith

/-- The iterations of a run after the first one. -/
theorem length_eq (hrun : system.run start (first :: walls) = some (s, h)) :
    h.length = walls.length + (if tickPeriod ≤ first then 1 else 0) ∧
      ∀ wall, s.sleepTime ≤ wall → tickPeriod ≤ s.remainingTime + elapsedOf wall := by
  induction walls using List.reverseRecOn generalizing s h with
  | nil =>
      have hstep : start.iterate first = some (s, h) := system.run_singleton.mp hrun
      refine ⟨?_, fun wall hslept => due_of_slept hstep (remainingTime_nonneg hrun) hslept⟩
      have hadd := (iterate_spec hstep).2.2 0
      have hticks := congrArg Accumulator.ticks hadd
      have hdue : tickPeriod ≤ start.remainingTime + elapsedOf first ↔ tickPeriod ≤ first := by
        have hperiod : tickPeriod ≤ 2 := by norm_num [tickPeriod]
        rw [start, zero_add, elapsedOf, le_min_iff, and_iff_right hperiod]
      simp only [Accumulator.add, hdue] at hticks
      split at hticks
      · rename_i hfirst
        simpa [hfirst] using hticks
      · rename_i hfirst
        simpa [hfirst] using hticks
  | append_singleton walls wall ih =>
      rw [← List.cons_append] at hrun
      rcases system.run_append.mp hrun with ⟨t, h₁, h₂, hpre, hlast, rfl⟩
      rcases ih hpre with ⟨hlength, hdue⟩
      have hstep : t.iterate wall = some (s, h₂) := system.run_singleton.mp hlast
      rcases iterate_spec hstep with ⟨hslept, _, hadd⟩
      have hticks := congrArg Accumulator.ticks (hadd 0)
      rw [Accumulator.add, if_pos (hdue wall hslept)] at hticks
      simp only [zero_add] at hticks
      refine ⟨?_, fun wall' hslept' => due_of_slept hstep (remainingTime_nonneg hrun) hslept'⟩
      rw [List.length_append, List.length_append, List.length_singleton, hlength, hticks]
      omega

/-- However long the iterations take, each of them ticks, but for the first one if it comes at
once; the time of the ticks never runs ahead of the wall time, and what it lags behind is on the
backlog or was cut off. -/
theorem paced (hrun : system.run start (first :: walls) = some (s, h)) :
    h.length = walls.length + (if tickPeriod ≤ first then 1 else 0) ∧
      h.length * tickPeriod ≤ (first :: walls).sum ∧
      ((first :: walls).map elapsedOf).sum = s.remainingTime + h.length * tickPeriod := by
  rcases after_eq hrun with ⟨hafter, _, hnonneg⟩
  have hsum := Accumulator.sum_eq tickPeriod ((first :: walls).map elapsedOf)
  rw [hafter] at hsum
  refine ⟨(length_eq hrun).1, ?_, hsum⟩
  calc
    h.length * tickPeriod ≤ ((first :: walls).map elapsedOf).sum := by
      rw [hsum]
      exact le_add_of_nonneg_left (remainingTime_nonneg hrun)
    _ ≤ (first :: walls).sum := by
      have hle : ((first :: walls).map elapsedOf).sum ≤ ((first :: walls).map id).sum :=
        List.sum_le_sum fun w _ => min_le_right 2 w
      rwa [List.map_id] at hle

/-- An iteration at once, a prompt one, a late one, and one that catches up. -/
theorem paced_late :
    ∃ s h, system.run start [0, 1 / 10, 3 / 10, 0] = some (s, h) ∧ h.length = 3 + 0 := by
  have hrun : system.run start [0, 1 / 10, 3 / 10, 0] =
      some (⟨1 / 10, 0⟩, [.ticked, .ticked, .ticked]) := by
    decide +kernel
  have hlength := (paced hrun).1
  rw [if_neg (by norm_num [tickPeriod])] at hlength
  exact ⟨_, _, hrun, hlength⟩

end TickLoop

end GameFramework
