import GameFramework.Game.Game
import GameFramework.Lib.Window
import Mathlib.Algebra.Order.Archimedean.Basic
import Mathlib.Algebra.Order.Ring.Rat
import Mathlib.Tactic.Linarith
import Mathlib.Tactic.NormNum
import Mathlib.Tactic.Ring

/-!
# The server loop

The main loop of {lit}`ServerInstance::run` in exact arithmetic.  A label is the wall
time since the previous iteration, which is at least the sleep that iteration
asked for; the output records the elapsed time that was counted and the game
step, if any, with the time it took off the backlog.

Main results:

- Theorem {lit}`ServerLoop.totalElapsed_eq`: elapsed time is backlog plus the time
  taken off by steps.
- Theorem {lit}`ServerLoop.one_le_timescale_iff`: when an iteration does not run the game
  fast.
- Theorem {lit}`ServerLoop.steps_le_totalElapsed`: simulated time stays behind real time
  while no iteration runs the game fast.
- Theorem {lit}`ServerLoop.remainingTime_lt_iff`: when a step made far behind grows the
  backlog.
- Theorem {lit}`ServerLoop.remainingTime_bounded`: the backlog is bounded while no
  saturated iteration grows it.
-/

namespace GameFramework

/-- The local variables that {lit}`ServerInstance::run` carries from one iteration to
the next, and the sleep it has asked for. -/
structure ServerLoop where
  stepDurationRecord : List ℚ
  timescale : ℚ
  remainingTime : ℚ
  sleepTime : ℚ
  deriving DecidableEq

/-- What an iteration records. -/
inductive ServerEvent where
  | elapsed (duration : ℚ)
  | stepped (timestep : ℚ)
  deriving DecidableEq

namespace ServerLoop

open SlidingWindow

/-- {lit}`Game::getFixedTimestepDuration` -/
def fixedTimestep : ℚ := Game.fixedTimestep

/-- The elapsed time of an iteration: major time skips are cut off. -/
def elapsedOf (wall : ℚ) : ℚ := min 2 wall

/-- The durations of the last 20 iterations. -/
def recordOf (s : ServerLoop) (wall : ℚ) : List ℚ :=
  push 20 s.stepDurationRecord (elapsedOf wall)

def meanStepDuration (s : ServerLoop) (wall : ℚ) : ℚ := mean (s.recordOf wall)

def targetTimescale (s : ServerLoop) (wall : ℚ) : ℚ :=
  9 / 10 * s.meanStepDuration wall / fixedTimestep

/-- How far behind the loop is, from 0 to 1. -/
def alpha (remainingTime : ℚ) : ℚ :=
  max 0 (min ((remainingTime - fixedTimestep) / (fixedTimestep * 3)) 1)

/-- The backlog with the elapsed time of the iteration. -/
def backlog (s : ServerLoop) (wall : ℚ) : ℚ := s.remainingTime + elapsedOf wall

/-- The timescale of an iteration. -/
def nextTimescale (s : ServerLoop) (wall : ℚ) : ℚ :=
  if fixedTimestep < s.backlog wall then
    s.targetTimescale wall * alpha (s.backlog wall) + 1 * (1 - alpha (s.backlog wall))
  else 1

def currentTimestep (s : ServerLoop) (wall : ℚ) : ℚ := fixedTimestep * s.nextTimescale wall

/-- The iteration makes a game step. -/
def due (s : ServerLoop) (wall : ℚ) : Bool := s.currentTimestep wall ≤ s.backlog wall

/-- The backlog after the iteration. -/
def leftover (s : ServerLoop) (wall : ℚ) : ℚ :=
  if s.due wall then s.backlog wall - s.currentTimestep wall else s.backlog wall

/-- One iteration of the loop. -/
def iterate (s : ServerLoop) (wall : ℚ) : Option (ServerLoop × List ServerEvent) :=
  if s.sleepTime ≤ wall then
    some
      ({ stepDurationRecord := s.recordOf wall
         timescale := s.nextTimescale wall
         remainingTime := s.leftover wall
         sleepTime := max 0 (min (s.currentTimestep wall - s.leftover wall) 1) },
        .elapsed (elapsedOf wall) ::
          if s.due wall then [.stepped (s.currentTimestep wall)] else [])
  else none

/-- The variables before the first iteration. -/
def start : ServerLoop where
  stepDurationRecord := []
  timescale := 1
  remainingTime := 0
  sleepTime := 0

/-- The server loop as a labelled system over wall times. -/
def system : Labelled.System ServerLoop ℚ ServerEvent where
  step := iterate

/-! ## Accounting -/

/-- The elapsed time that a history counts. -/
def totalElapsed (h : List ServerEvent) : ℚ :=
  (h.map fun
    | .elapsed duration => duration
    | .stepped _ => 0).sum

/-- The time that the steps of a history took off the backlog. -/
def totalConsumed (h : List ServerEvent) : ℚ :=
  (h.map fun
    | .elapsed _ => 0
    | .stepped timestep => timestep).sum

/-- The number of {lit}`Game::step` calls of a history. -/
def steps (h : List ServerEvent) : ℕ :=
  h.countP fun
    | .elapsed _ => false
    | .stepped _ => true

/-- Elapsed time adds up. -/
theorem totalElapsed_append (h₁ h₂ : List ServerEvent) :
    totalElapsed (h₁ ++ h₂) = totalElapsed h₁ + totalElapsed h₂ := by
  simp [totalElapsed]

/-- So does the time that is taken off. -/
theorem totalConsumed_append (h₁ h₂ : List ServerEvent) :
    totalConsumed (h₁ ++ h₂) = totalConsumed h₁ + totalConsumed h₂ := by
  simp [totalConsumed]

theorem steps_append (h₁ h₂ : List ServerEvent) :
    steps (h₁ ++ h₂) = steps h₁ + steps h₂ := by
  simp [steps]

section Iterate

variable {s s' : ServerLoop} {wall : ℚ} {out : List ServerEvent}

/-- What an iteration does to the state that later iterations read. -/
theorem iterate_spec (h : s.iterate wall = some (s', out)) :
    s.sleepTime ≤ wall ∧ s'.stepDurationRecord = s.recordOf wall ∧
      s'.remainingTime = s.leftover wall ∧
      s'.sleepTime = max 0 (min (s.currentTimestep wall - s.leftover wall) 1) ∧
      totalElapsed out = elapsedOf wall ∧
      totalConsumed out = s.backlog wall - s.leftover wall ∧
      steps out = if s.due wall then 1 else 0 := by
  unfold iterate at h
  split at h
  · rename_i hsleep
    cases h
    refine ⟨hsleep, rfl, rfl, rfl, ?_, ?_, ?_⟩ <;> by_cases hdue : s.due wall = true <;>
      simp [totalElapsed, totalConsumed, steps, leftover, hdue]
  · contradiction

end Iterate

/-- The backlog and the recorded durations are not negative. -/
structure Sane (s : ServerLoop) : Prop where
  remainingTime_nonneg : 0 ≤ s.remainingTime
  record_nonneg : ∀ d ∈ s.stepDurationRecord, 0 ≤ d
  sleepTime_nonneg : 0 ≤ s.sleepTime

theorem sane_start : Sane start where
  remainingTime_nonneg := le_refl _
  record_nonneg _ h := by cases h
  sleepTime_nonneg := le_refl _

theorem fixedTimestep_pos : 0 < fixedTimestep := by
  norm_num [fixedTimestep, Game.fixedTimestep]

theorem alpha_nonneg (r : ℚ) : 0 ≤ alpha r :=
  le_max_left _ _

theorem alpha_le_one (r : ℚ) : alpha r ≤ 1 :=
  max_le zero_le_one (min_le_right _ _)

/-- Behind by more than a timestep, the ramp has begun. -/
theorem alpha_pos {r : ℚ} (h : fixedTimestep < r) : 0 < alpha r := by
  have hdt := fixedTimestep_pos
  apply lt_max_of_lt_right
  apply lt_min _ zero_lt_one
  apply div_pos
  · linarith
  · linarith

/-- The ramp is saturated from a backlog of four timesteps on. -/
theorem alpha_eq_one {r : ℚ} (h : 4 * fixedTimestep ≤ r) : alpha r = 1 := by
  have hdt := fixedTimestep_pos
  have hone : 1 ≤ (r - fixedTimestep) / (fixedTimestep * 3) := by
    rw [le_div_iff₀ (by linarith)]
    linarith
  rw [alpha, min_eq_right hone]
  exact max_eq_right zero_le_one

namespace Sane

variable {s s' : ServerLoop} {wall : ℚ} {out : List ServerEvent}

/-- An iteration does not count negative time. -/
theorem elapsed_nonneg (hs : Sane s) (hwall : s.sleepTime ≤ wall) : 0 ≤ elapsedOf wall :=
  le_min (by norm_num) (hs.sleepTime_nonneg.trans hwall)

/-- The recorded durations are not negative. -/
theorem recordOf_nonneg (hs : Sane s) (hwall : s.sleepTime ≤ wall) :
    ∀ d ∈ s.recordOf wall, 0 ≤ d :=
  forall_mem_push hs.record_nonneg (hs.elapsed_nonneg hwall)

theorem recordOf_ne_nil (s : ServerLoop) (wall : ℚ) : s.recordOf wall ≠ [] :=
  push_ne_nil (by norm_num) _ _

/-- Neither is their mean. -/
theorem mean_nonneg (hs : Sane s) (hwall : s.sleepTime ≤ wall) :
    0 ≤ s.meanStepDuration wall :=
  le_mean (recordOf_ne_nil s wall) (hs.recordOf_nonneg hwall)

/-- A step does not give time back. -/
theorem currentTimestep_nonneg (hs : Sane s) (hwall : s.sleepTime ≤ wall) :
    0 ≤ s.currentTimestep wall := by
  have hmean := hs.mean_nonneg hwall
  have hdt := fixedTimestep_pos
  have htarget : 0 ≤ s.targetTimescale wall := by
    unfold targetTimescale
    positivity
  apply mul_nonneg hdt.le
  unfold nextTimescale
  split
  · have hfast := mul_nonneg htarget (alpha_nonneg (s.backlog wall))
    have hslow := alpha_le_one (s.backlog wall)
    linarith
  · exact zero_le_one

/-- A step is made only when the backlog covers it. -/
theorem leftover_nonneg (hs : Sane s) (hwall : s.sleepTime ≤ wall) : 0 ≤ s.leftover wall := by
  unfold leftover
  split
  · rename_i hdue
    have hle : s.currentTimestep wall ≤ s.backlog wall := by simpa [due] using hdue
    linarith
  · exact add_nonneg hs.remainingTime_nonneg (hs.elapsed_nonneg hwall)

/-- An iteration leaves no more than the backlog. -/
theorem leftover_le (hs : Sane s) (hwall : s.sleepTime ≤ wall) :
    s.leftover wall ≤ s.backlog wall := by
  have hstep := hs.currentTimestep_nonneg hwall
  unfold leftover
  split
  · linarith
  · exact le_refl _

/-- An iteration keeps backlog, record and sleep from becoming negative. -/
theorem iterate (hs : Sane s) (h : s.iterate wall = some (s', out)) : Sane s' := by
  rcases iterate_spec h with ⟨hwall, hrecord, hremaining, hsleep, _, _, _⟩
  constructor
  · rw [hremaining]
    exact hs.leftover_nonneg hwall
  · rw [hrecord]
    exact hs.recordOf_nonneg hwall
  · rw [hsleep]
    exact le_max_left _ _

end Sane

/-- Elapsed time is the backlog plus the time that the steps took off it. -/
theorem totalElapsed_eq {walls : List ℚ} {s : ServerLoop} {h : List ServerEvent}
    (hrun : system.run start walls = some (s, h)) :
    Sane s ∧ totalElapsed h = s.remainingTime + totalConsumed h := by
  refine system.run_invariant
    (fun s h => Sane s ∧ totalElapsed h = s.remainingTime + totalConsumed h)
    ⟨sane_start, by simp [totalElapsed, totalConsumed, start]⟩ ?_ hrun
  rintro s h wall s' out ⟨hs, haccount⟩ hstep
  rcases iterate_spec hstep with ⟨_, _, hremaining, _, helapsed, hconsumed, _⟩
  refine ⟨hs.iterate hstep, ?_⟩
  rw [totalElapsed_append, totalConsumed_append, helapsed, hconsumed, haccount, hremaining,
    backlog]
  ring

/-! ## Simulated time and real time -/

/-- A step takes at least one timestep off the backlog exactly when the loop is not
behind or nine tenths of the mean duration make up a timestep. -/
theorem one_le_timescale_iff (s : ServerLoop) (wall : ℚ) :
    1 ≤ s.nextTimescale wall ↔
      (fixedTimestep < s.backlog wall → fixedTimestep ≤ 9 / 10 * s.meanStepDuration wall) := by
  have hdt := fixedTimestep_pos
  unfold nextTimescale
  split
  · rename_i hbehind
    have hpos := alpha_pos hbehind
    have htarget : 1 ≤ s.targetTimescale wall ↔
        fixedTimestep ≤ 9 / 10 * s.meanStepDuration wall := by
      rw [targetTimescale, le_div_iff₀ hdt, one_mul]
    rw [imp_iff_right hbehind, ← htarget]
    constructor
    · intro hone
      by_contra hslow
      have hloss := mul_pos hpos (sub_pos.mpr (not_le.mp hslow))
      linarith
    · intro hfast
      have hgain := mul_nonneg hpos.le (sub_nonneg.mpr hfast)
      linarith
  · rename_i hnot
    simp [hnot]

/-- The iteration does not run the game fast: the loop is not behind, or nine tenths
of the mean duration make up a timestep. -/
def KeepsPace (s : ServerLoop) (wall : ℚ) : Prop :=
  fixedTimestep < s.backlog wall → fixedTimestep ≤ 9 / 10 * s.meanStepDuration wall

instance (s : ServerLoop) (wall : ℚ) : Decidable (KeepsPace s wall) :=
  inferInstanceAs (Decidable (_ → _))

/-- Simulated time does not run ahead of real time in a run whose iterations keep
pace. -/
theorem steps_le_totalElapsed {walls : List ℚ} {s : ServerLoop} {h : List ServerEvent}
    (hrun : system.run start walls = some (s, h))
    (hpace : ∀ pre wall post, walls = pre ++ wall :: post → ∀ t h',
      system.run start pre = some (t, h') → KeepsPace t wall) :
    (steps h : ℚ) * fixedTimestep ≤ totalElapsed h := by
  have hconsumed : (steps h : ℚ) * fixedTimestep ≤ totalConsumed h := by
    refine system.run_invariant_of_steps
      (fun _ h => (steps h : ℚ) * fixedTimestep ≤ totalConsumed h)
      (fun s _ wall => KeepsPace s wall) ?_ ?_ hpace hrun
    · simp [steps, totalConsumed]
    · intro s h wall s' out hle hkeeps hstep
      rcases iterate_spec hstep with ⟨_, _, _, _, _, hconsumed, hsteps⟩
      have hone := (one_le_timescale_iff s wall).mpr hkeeps
      have hfull : fixedTimestep ≤ s.currentTimestep wall :=
        le_mul_of_one_le_right fixedTimestep_pos.le hone
      rw [steps_append, totalConsumed_append, hsteps, hconsumed]
      unfold leftover
      split
      · push_cast
        linarith
      · push_cast
        linarith
  have haccount := totalElapsed_eq hrun
  linarith [haccount.1.remainingTime_nonneg, haccount.2]

/-- One long iteration. -/
theorem steps_le_totalElapsed_stall :
    (steps [.elapsed (1 / 10), .stepped (9 / 100)] : ℚ) * fixedTimestep ≤
      totalElapsed [.elapsed (1 / 10), .stepped (9 / 100)] := by
  have hrun : system.run start [1 / 10] =
      some (⟨[1 / 10], 27 / 5, 1 / 100, 2 / 25⟩, [.elapsed (1 / 10), .stepped (9 / 100)]) := by
    decide +kernel
  refine steps_le_totalElapsed hrun (system.forall_steps_of_check ?_)
  decide +kernel

/-- Three steps within less than three timesteps. -/
theorem exists_totalElapsed_lt_steps :
    ∃ s h, system.run start [1 / 120, 1 / 60, 1 / 120, 47 / 3000] = some (s, h) ∧
      totalElapsed h < (steps h : ℚ) * fixedTimestep := by
  have hfast : ((system.run start [1 / 120, 1 / 60, 1 / 120, 47 / 3000]).any fun p =>
      decide (totalElapsed p.2 < (steps p.2 : ℚ) * fixedTimestep)) = true := by
    decide +kernel
  rcases (Option.any_eq_true _ _).mp hfast with ⟨⟨s, h⟩, hrun, hlt⟩
  exact ⟨s, h, hrun, of_decide_eq_true hlt⟩

/-! ## Catching up -/

/-- Far behind, an iteration takes nine tenths of the mean duration off the
backlog. -/
theorem currentTimestep_of_saturated {s : ServerLoop} {wall : ℚ}
    (h : 4 * fixedTimestep < s.backlog wall) :
    s.currentTimestep wall = 9 / 10 * s.meanStepDuration wall := by
  have hdt := fixedTimestep_pos
  have hbehind : fixedTimestep < s.backlog wall := by linarith
  rw [currentTimestep, nextTimescale, if_pos hbehind, alpha_eq_one h.le, targetTimescale]
  field_simp
  ring

/-- The iteration does not fall further behind: with more than four timesteps of
backlog, it took at most nine tenths of the mean duration. -/
def Drains (s : ServerLoop) (wall : ℚ) : Prop :=
  4 * fixedTimestep < s.backlog wall → elapsedOf wall ≤ 9 / 10 * s.meanStepDuration wall

instance (s : ServerLoop) (wall : ℚ) : Decidable (Drains s wall) :=
  inferInstanceAs (Decidable (_ → _))

/-- A step made far behind grows the backlog exactly when the iteration does not
drain. -/
theorem remainingTime_lt_iff {s s' : ServerLoop} {wall : ℚ} {out : List ServerEvent}
    (h : s.iterate wall = some (s', out)) (hfar : 4 * fixedTimestep < s.backlog wall)
    (hdue : s.due wall = true) : s.remainingTime < s'.remainingTime ↔ ¬ Drains s wall := by
  rcases iterate_spec h with ⟨_, _, hremaining, _, _, _, _⟩
  rw [hremaining, leftover, if_pos hdue, currentTimestep_of_saturated hfar, Drains,
    imp_iff_right hfar, not_le, backlog]
  constructor <;> intro hlt <;> linarith

/-- In a run whose iterations last at most {lit}`E` and all drain, the backlog is bounded
after every iteration. -/
theorem remainingTime_bounded (E : ℚ) :
    ∃ B, ∀ walls s h, system.run start walls = some (s, h) → (∀ wall ∈ walls, wall ≤ E) →
      (∀ pre wall post, walls = pre ++ wall :: post → ∀ t h',
        system.run start pre = some (t, h') → Drains t wall) →
      s.remainingTime ≤ B := by
  refine ⟨max E (4 * fixedTimestep), fun walls s h hrun hE hdrains => ?_⟩
  have hdt := fixedTimestep_pos
  have hinv := system.run_invariant_of_steps
    (fun s _ => Sane s ∧ (∀ d ∈ s.stepDurationRecord, d ≤ E) ∧
      s.remainingTime ≤ max E (4 * fixedTimestep))
    (fun s _ wall => wall ≤ E ∧ Drains s wall) ?_ ?_ ?_ hrun
  · exact hinv.2.2
  · refine ⟨sane_start, by simp [start], ?_⟩
    apply le_max_of_le_right
    norm_num [start, fixedTimestep, Game.fixedTimestep]
  · rintro s h wall s' out ⟨hs, hrecord, hbound⟩ ⟨hwall, hdrain⟩ hstep
    rcases iterate_spec hstep with ⟨hsleep, hrecord', hremaining, _, _, _, _⟩
    have helapsed : elapsedOf wall ≤ E := (min_le_right _ _).trans hwall
    have hnew : ∀ d ∈ s.recordOf wall, d ≤ E := forall_mem_push hrecord helapsed
    refine ⟨hs.iterate hstep, hrecord' ▸ hnew, ?_⟩
    rw [hremaining]
    rcases le_or_gt (s.backlog wall) (4 * fixedTimestep) with hnear | hfar
    · exact le_max_of_le_right ((hs.leftover_le hsleep).trans hnear)
    · have hmean : s.meanStepDuration wall ≤ E := mean_le (Sane.recordOf_ne_nil s wall) hnew
      have hpos := hs.mean_nonneg hsleep
      have hstep := currentTimestep_of_saturated hfar
      unfold leftover
      split
      · have htake := hdrain hfar
        rw [hstep, backlog]
        linarith
      · rename_i hnot
        have hlt : s.backlog wall < s.currentTimestep wall := by
          simpa [due] using hnot
        rw [hstep] at hlt
        apply le_max_of_le_left
        linarith
  · intro pre wall post hsplit t h' hpre
    exact ⟨hE wall (by simp [hsplit]), hdrains pre wall post hsplit t h' hpre⟩

/-- Iterations with a stall of four timesteps, in tenths of one.  When the first one leaves the
window the mean rises, and an iteration far behind drains although it lasts longer than nine
tenths of the mean before it. -/
def stallWalls : List ℚ :=
  [0, 40, 18, 17, 17, 16, 16, 16, 16, 15, 16, 15, 15, 15, 15, 15, 14, 15, 14, 15, 15].map
    (· / 600)

/-- The stall goes through, and its last iteration is made with more than four timesteps of
backlog. -/
theorem remainingTime_bounded_stall :
    ∃ B s t h h', system.run start (stallWalls.take 20) = some (t, h') ∧
      4 * fixedTimestep < t.backlog (15 / 600) ∧
      system.run start stallWalls = some (s, h) ∧ s.remainingTime ≤ B := by
  rcases remainingTime_bounded (40 / 600) with ⟨B, hB⟩
  have hfar : ((system.run start (stallWalls.take 20)).any fun p =>
      decide (4 * fixedTimestep < p.1.backlog (15 / 600))) = true := by
    decide +kernel
  have hthrough : (system.run start stallWalls).isSome = true := by
    decide +kernel
  have hdrains : system.check Drains start stallWalls = true := by
    decide +kernel
  rcases (Option.any_eq_true _ _).mp hfar with ⟨⟨t, h'⟩, hpre, hbacklog⟩
  rcases Option.isSome_iff_exists.mp hthrough with ⟨⟨s, h⟩, hrun⟩
  refine ⟨B, s, t, h, h', hpre, of_decide_eq_true hbacklog, hrun, ?_⟩
  exact hB stallWalls s h hrun (by decide +kernel) (system.forall_steps_of_check hdrains)

/-- The loop after a number of iterations of a tenth of a second. -/
structure Growing (n : ℕ) (s : ServerLoop) : Prop where
  record_eq : ∀ d ∈ s.stepDurationRecord, d = 1 / 10
  remainingTime_eq : s.remainingTime = n / 100
  sleepTime_le : s.sleepTime ≤ 1 / 10

/-- Every such iteration counts a tenth of a second and takes nine hundredths off. -/
theorem Growing.iterate {n : ℕ} {s : ServerLoop} (h : Growing n s) :
    ∃ s' out, s.iterate (1 / 10) = some (s', out) ∧ Growing (n + 1) s' := by
  have hsome : (s.iterate (1 / 10)).isSome := by
    rw [ServerLoop.iterate, if_pos h.sleepTime_le]
    rfl
  rcases Option.isSome_iff_exists.mp hsome with ⟨⟨s', out⟩, hstep⟩
  rcases iterate_spec hstep with ⟨_, hrecord, hremaining, hsleep, _, _, _⟩
  have helapsed : elapsedOf (1 / 10) = 1 / 10 := by norm_num [elapsedOf]
  have hrecords : ∀ d ∈ s.recordOf (1 / 10), d = 1 / 10 := forall_mem_push h.record_eq helapsed
  have hmean : s.meanStepDuration (1 / 10) = 1 / 10 :=
    mean_eq_of_forall_eq (Sane.recordOf_ne_nil s _) hrecords
  have hn : (0 : ℚ) ≤ n := Nat.cast_nonneg n
  have hbacklog : s.backlog (1 / 10) = n / 100 + 1 / 10 := by
    rw [backlog, helapsed, h.remainingTime_eq]
  have hfar : 4 * fixedTimestep < s.backlog (1 / 10) := by
    norm_num [hbacklog, fixedTimestep, Game.fixedTimestep]
    linarith
  have htimestep : s.currentTimestep (1 / 10) = 9 / 100 := by
    rw [currentTimestep_of_saturated hfar, hmean]
    norm_num
  have hdue : s.due (1 / 10) = true := by
    rw [due, decide_eq_true_eq, htimestep, hbacklog]
    linarith
  have hleft : s.leftover (1 / 10) = ((n + 1 : ℕ) : ℚ) / 100 := by
    rw [leftover, if_pos hdue, htimestep, hbacklog]
    push_cast
    ring
  refine ⟨s', out, hstep, ⟨hrecord ▸ hrecords, hremaining.trans hleft, ?_⟩⟩
  rw [hsleep, htimestep, hleft]
  push_cast
  apply max_le
  · norm_num
  · apply (min_le_left _ _).trans
    linarith

/-- Iterations of a tenth of a second let the backlog grow without bound. -/
theorem not_exists_bound :
    ¬ ∃ B, ∀ walls s h, system.run start walls = some (s, h) →
      (∀ wall ∈ walls, wall ≤ 1 / 10) → s.remainingTime ≤ B := by
  rintro ⟨B, hB⟩
  have hgrow : ∀ n, ∃ s h, system.run start (List.replicate n (1 / 10)) = some (s, h) ∧
      Growing n s := by
    intro n
    induction n with
    | zero =>
        refine ⟨start, [], rfl, ⟨by simp [start], by simp [start], by norm_num [start]⟩⟩
    | succ n ih =>
        rcases ih with ⟨s, h, hrun, hs⟩
        rcases hs.iterate with ⟨s', out, hstep, hs'⟩
        rw [List.replicate_succ']
        exact ⟨s', h ++ out, system.run_concat hrun hstep, hs'⟩
  rcases exists_nat_gt (100 * B) with ⟨n, hn⟩
  rcases hgrow n with ⟨s, h, hrun, hs⟩
  have hle := hB _ s h hrun fun wall hwall => (List.eq_of_mem_replicate hwall).le
  rw [hs.remainingTime_eq] at hle
  linarith

end ServerLoop

end GameFramework
