import Mathlib.Algebra.Order.Floor.Semiring
import Mathlib.Data.List.Induction
import Mathlib.Order.Bounds.Basic
import Mathlib.Tactic.Linarith
import Mathlib.Tactic.Ring

/-!
# Time accumulators

A loop with a fixed timestep puts the time of every round on a backlog and, once the backlog
holds a period, takes one period off and ticks.  It ticks at most once a round, so that a long
round is made up for by later ones, or not at all.

Main results:

- Theorem {lit}`Accumulator.sum_eq`: the time of all rounds is the backlog and a period for every
  tick.
- Theorem {lit}`Accumulator.ticks_isLeast`: the number of ticks in closed form.
-/

/-- The backlog and the number of ticks so far. -/
structure Accumulator (K : Type*) where
  backlog : K
  ticks : ℕ

namespace Accumulator

variable {K : Type*} [Field K] [LinearOrder K]

/-- One round. -/
def add (period : K) (a : Accumulator K) (duration : K) : Accumulator K :=
  if period ≤ a.backlog + duration then ⟨a.backlog + duration - period, a.ticks + 1⟩
  else ⟨a.backlog + duration, a.ticks⟩

/-- After rounds of some durations. -/
def after (period : K) (durations : List K) : Accumulator K :=
  durations.foldl (add period) ⟨0, 0⟩

@[simp]
theorem after_nil (period : K) : after period [] = ⟨0, 0⟩ :=
  rfl

@[simp]
theorem after_concat (period : K) (durations : List K) (duration : K) :
    after period (durations ++ [duration]) = add period (after period durations) duration := by
  simp [after]

variable {period : K} {durations pre post : List K}

/-- One duration makes at most one tick. -/
theorem ticks_add_le (period : K) (a : Accumulator K) (duration : K) :
    (add period a duration).ticks ≤ a.ticks + 1 := by
  unfold add
  split
  · exact le_refl _
  · exact Nat.le_succ _

/-- Later rounds tick at most once each. -/
theorem ticks_append_le (period : K) (pre post : List K) :
    (after period (pre ++ post)).ticks ≤ (after period pre).ticks + post.length := by
  induction post using List.reverseRecOn with
  | nil => simp
  | append_singleton post duration ih =>
      rw [← List.append_assoc, after_concat, List.length_append, List.length_singleton]
      have hstep := ticks_add_le period (after period (pre ++ post)) duration
      omega

/-- Nothing of the time gets lost. -/
theorem sum_eq (period : K) (durations : List K) :
    durations.sum = (after period durations).backlog + (after period durations).ticks * period := by
  induction durations using List.reverseRecOn with
  | nil => simp
  | append_singleton durations duration ih =>
      rw [after_concat, List.sum_append, List.sum_singleton, ih, add]
      split
      · push_cast
        ring
      · ring

variable [IsStrictOrderedRing K]

/-- The backlog is never negative. -/
theorem backlog_nonneg (hdurations : ∀ d ∈ durations, 0 ≤ d) :
    0 ≤ (after period durations).backlog := by
  induction durations using List.reverseRecOn with
  | nil => exact le_refl _
  | append_singleton durations duration ih =>
      have hbefore := ih fun d hd => hdurations d (List.mem_append_left _ hd)
      have hduration : 0 ≤ duration := hdurations duration (by simp)
      rw [after_concat, add]
      split
      · rename_i hdue
        exact sub_nonneg.mpr hdue
      · exact add_nonneg hbefore hduration

variable [FloorSemiring K]

/-- There are no more ticks than whole periods. -/
theorem ticks_le_floor (hperiod : 0 < period) (hdurations : ∀ d ∈ durations, 0 ≤ d) :
    (after period durations).ticks ≤ ⌊durations.sum / period⌋₊ := by
  refine Nat.le_floor ?_
  rw [le_div_iff₀ hperiod, sum_eq period durations]
  exact le_add_of_nonneg_left (backlog_nonneg hdurations)

/-- A round that does not tick leaves less than a period, so that all whole periods have been
ticked off. -/
theorem ticks_eq_floor (hperiod : 0 < period) (hdurations : ∀ d ∈ durations, 0 ≤ d)
    (hbacklog : (after period durations).backlog < period) :
    (after period durations).ticks = ⌊durations.sum / period⌋₊ := by
  refine le_antisymm (ticks_le_floor hperiod hdurations) (Nat.lt_succ_iff.mp ?_)
  refine Nat.floor_lt' (Nat.succ_ne_zero _) |>.mpr ?_
  rw [div_lt_iff₀ hperiod, sum_eq period durations]
  push_cast
  linarith

/-- Since some time, at which no whole period was left, every round has ticked. -/
theorem exists_split (hperiod : 0 < period) (hdurations : ∀ d ∈ durations, 0 ≤ d) :
    ∃ pre post, durations = pre ++ post ∧
      (after period durations).ticks = ⌊pre.sum / period⌋₊ + post.length := by
  induction durations using List.reverseRecOn with
  | nil => exact ⟨[], [], rfl, by simp⟩
  | append_singleton durations duration ih =>
      rcases ih fun d hd => hdurations d (List.mem_append_left _ hd) with
        ⟨pre, post, rfl, hticks⟩
      by_cases hdue : period ≤ (after period (pre ++ post)).backlog + duration
      · refine ⟨pre, post ++ [duration], by simp, ?_⟩
        rw [after_concat, add, if_pos hdue, hticks, List.length_append, List.length_singleton]
        rfl
      · refine ⟨pre ++ post ++ [duration], [], by simp, ?_⟩
        refine ticks_eq_floor hperiod hdurations ?_
        rw [after_concat, add, if_neg hdue]
        exact not_le.mp hdue

/-- The number of ticks is the least, over all times in between, of the whole periods until then
and the rounds since. -/
theorem ticks_isLeast (hperiod : 0 < period) (hdurations : ∀ d ∈ durations, 0 ≤ d) :
    IsLeast {n | ∃ pre post, durations = pre ++ post ∧ n = ⌊pre.sum / period⌋₊ + post.length}
      (after period durations).ticks := by
  refine ⟨exists_split hperiod hdurations, ?_⟩
  rintro n ⟨pre, post, rfl, rfl⟩
  have hpre := ticks_le_floor hperiod fun d hd => hdurations d (List.mem_append_left post hd)
  exact (ticks_append_le period pre post).trans (Nat.add_le_add_right hpre _)

end Accumulator
