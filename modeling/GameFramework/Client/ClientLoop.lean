import GameFramework.Game.Game
import GameFramework.Lib.Accumulator
import Mathlib.Algebra.Order.BigOperators.Group.List
import Mathlib.Algebra.Order.Floor.Semiring
import Mathlib.Data.Rat.Floor
import Mathlib.Tactic.Linarith
import Mathlib.Tactic.NormNum
import Mathlib.Tactic.Ring

/-!
# The client loop

The frames of {lit}`ClientInstance::run` in exact arithmetic, with the timescale 1.  A label is
the time since the previous frame; the clock is steady, so it is not negative.  A frame makes
at most one game step, however long the time was.

Main results:

- Theorem {lit}`ClientLoop.sum_eq`: the time of the frames is the backlog plus one timestep for
  each game step.
- Theorem {lit}`ClientLoop.keepsUp_iff`: the frames that leave a backlog of less than two
  timesteps.
- Theorem {lit}`ClientLoop.exists_even_frames`: the same time cut into timesteps.
- Theorem {lit}`ClientLoop.keepsUp_iff_evenPace`: the number of game steps does not depend on the
  frames exactly while the frames keep up.
- Theorem {lit}`ClientLoop.steps_isLeast`: the number of game steps in closed form.
-/

namespace GameFramework

/-- The local variable that {lit}`ClientInstance::run` carries from one frame to the next. -/
structure ClientLoop (K : Type*) where
  remainingTime : K
  deriving DecidableEq

/-- The calls of a frame. -/
inductive ClientEvent where
  | inputHandled
  | stepped
  | rendered
  deriving DecidableEq

namespace ClientLoop

variable {K : Type*} [Field K] [LinearOrder K]

/-- {lit}`current_timestep` -/
def currentTimestep : K := Game.fixedTimestep * 1

/-- One frame. -/
def frame (s : ClientLoop K) (elapsed : K) : Option (ClientLoop K × List ClientEvent) :=
  if 0 ≤ elapsed then
    let remainingTime := s.remainingTime + elapsed
    if currentTimestep ≤ remainingTime then
      some (⟨remainingTime - currentTimestep⟩, [.inputHandled, .stepped, .rendered])
    else some (⟨remainingTime⟩, [.inputHandled, .rendered])
  else none

/-- Before the first frame. -/
def start : ClientLoop K where
  remainingTime := 0

/-- The client loop as a labelled system over frame durations. -/
def system : Labelled.System (ClientLoop K) K ClientEvent where
  step := frame

/-- The number of {lit}`step()` calls of a history. -/
def steps (h : List ClientEvent) : ℕ :=
  h.count .stepped

/-! ## Pace -/

/-- Every frame finds less than three timesteps to catch up with. -/
def KeepsUp (frames : List K) : Prop :=
  ∀ pre elapsed post, frames = pre ++ elapsed :: post → ∀ s h, system.run start pre = some (s, h) →
    s.remainingTime + elapsed < 3 * currentTimestep

/-- After every frame, the number of steps differs by at most one from that of frames which
keep up and take the same time. -/
def EvenPace (frames : List K) : Prop :=
  ∀ pre post, frames = pre ++ post → ∀ s h, system.run start pre = some (s, h) →
    ∀ other t h', KeepsUp other → other.sum = pre.sum → system.run start other = some (t, h') →
      steps h ≤ steps h' + 1 ∧ steps h' ≤ steps h + 1

/-- After every frame, the backlog is not negative and less than two timesteps. -/
def BoundedBacklog (frames : List K) : Prop :=
  ∀ pre post, frames = pre ++ post → ∀ s h, system.run start pre = some (s, h) →
    0 ≤ s.remainingTime ∧ s.remainingTime < 2 * currentTimestep

theorem steps_append (h h' : List ClientEvent) : steps (h ++ h') = steps h + steps h' :=
  List.count_append

variable [IsStrictOrderedRing K] {s t : ClientLoop K} {elapsed : K} {frames : List K}
  {h out : List ClientEvent}

theorem currentTimestep_pos : (0 : K) < currentTimestep := by
  norm_num [currentTimestep, Game.fixedTimestep]

/-- A frame adds its time and takes off one timestep if there is one. -/
theorem frame_spec (hframe : s.frame elapsed = some (t, out)) :
    0 ≤ elapsed ∧ t.remainingTime + steps out * currentTimestep = s.remainingTime + elapsed ∧
      (0 ≤ s.remainingTime → 0 ≤ t.remainingTime) ∧
      ∀ bound, currentTimestep ≤ bound → (t.remainingTime < bound ↔
        s.remainingTime + elapsed < bound + currentTimestep) := by
  have hdt : (0 : K) < currentTimestep := currentTimestep_pos
  unfold frame at hframe
  split at hframe
  · rename_i helapsed
    refine ⟨helapsed, ?_⟩
    simp only at hframe
    split at hframe
    · rename_i hdue
      cases hframe
      refine ⟨by simp [steps], fun _ => sub_nonneg.mpr hdue, fun bound _ => ?_⟩
      exact sub_lt_iff_lt_add
    · rename_i hdue
      cases hframe
      refine ⟨by simp [steps], fun hs => add_nonneg hs helapsed, fun bound hbound => ?_⟩
      rw [not_le] at hdue
      constructor <;> intro _ <;> linarith
  · contradiction

/-- The frames of a run take the backlog and one timestep for each game step. -/
theorem sum_eq (hrun : system.run start frames = some (s, h)) :
    frames.sum = s.remainingTime + steps h * currentTimestep ∧ 0 ≤ s.remainingTime := by
  induction frames using List.reverseRecOn generalizing s h with
  | nil =>
      cases hrun
      simp [start, steps]
  | append_singleton frames elapsed ih =>
      rcases (system.run_append).mp hrun with ⟨t, h₁, h₂, hpre, hlast, rfl⟩
      rcases ih hpre with ⟨hsum, hpos⟩
      rcases frame_spec ((system.run_singleton).mp hlast) with ⟨_, haccount, hnonneg, _⟩
      refine ⟨?_, hnonneg hpos⟩
      rw [List.sum_append, List.sum_singleton, steps_append, hsum]
      push_cast
      linarith

omit [IsStrictOrderedRing K] in
/-- The clock decides nothing else: frames of any durations go through. -/
theorem run_isSome (s : ClientLoop K) (hframes : ∀ e ∈ frames, 0 ≤ e) :
    (system.run s frames).isSome := by
  refine (system.run_isSome_iff s frames).mpr ?_
  intro pre elapsed post hsplit t h _
  have helapsed : 0 ≤ elapsed := hframes elapsed (by simp [hsplit])
  change (t.frame elapsed).isSome
  simp only [frame, helapsed, if_true]
  split <;> rfl

/-! ## The frames that keep up -/

/-- A frame leaves less than two timesteps exactly when it finds less than three. -/
theorem keepsUp_iff (hrun : system.run start frames = some (s, h)) :
    KeepsUp frames ↔ BoundedBacklog frames := by
  have hdt : (0 : K) < currentTimestep := currentTimestep_pos
  have hframe : ∀ (t v : ClientLoop K) (elapsed : K) (out : List ClientEvent),
      t.frame elapsed = some (v, out) → (v.remainingTime < 2 * currentTimestep ↔
        t.remainingTime + elapsed < 3 * currentTimestep) := by
    intro t v elapsed out hframe
    have hiff := (frame_spec hframe).2.2.2 (2 * currentTimestep) (by linarith)
    rwa [show (2 * currentTimestep + currentTimestep : K) = 3 * currentTimestep by ring] at hiff
  refine (system.forall_states_iff
    (fun s _ => 0 ≤ s.remainingTime ∧ s.remainingTime < 2 * currentTimestep)
    (fun s elapsed => s.remainingTime + elapsed < 3 * currentTimestep)
    (fun s => 0 ≤ s.remainingTime ∧ s.remainingTime < 2 * currentTimestep) ?_ ?_ ?_ ?_ hrun).symm
  · exact ⟨le_refl _, by simpa [start] using hdt⟩
  · intro t h elapsed v out hinv hok hstep
    exact ⟨(frame_spec hstep).2.2.1 hinv.1, (hframe t v elapsed out hstep).mpr hok⟩
  · intro t h hinv
    exact hinv
  · intro pre t h elapsed v out _ hstep hgood
    exact (hframe t v elapsed out hstep).mp hgood.2

/-- Frames of the same time make at most one step more than frames with a backlog of less
than two timesteps. -/
theorem steps_le_of_sum_eq {other : List K} {h' : List ClientEvent}
    (hrun : system.run start frames = some (s, h))
    (hother : system.run start other = some (t, h')) (hsum : other.sum = frames.sum)
    (hbacklog : t.remainingTime < 2 * currentTimestep) : steps h ≤ steps h' + 1 := by
  have hdt : (0 : K) < currentTimestep := currentTimestep_pos
  rcases sum_eq hrun with ⟨htotal, hpos⟩
  rcases sum_eq hother with ⟨htotal', -⟩
  have hlt : (steps h : K) * currentTimestep < (steps h' + 2) * currentTimestep := by
    calc
      (steps h : K) * currentTimestep ≤ frames.sum := by linarith
      _ = t.remainingTime + steps h' * currentTimestep := by rw [← hsum, htotal']
      _ < (steps h' + 2) * currentTimestep := by linarith
  have hcount : (steps h : K) < ((steps h' + 2 : ℕ) : K) := by
    push_cast
    exact lt_of_mul_lt_mul_right hlt hdt.le
  have := Nat.cast_lt.mp hcount
  omega

/-- Frames of at most one timestep leave less than one. -/
theorem remainingTime_lt (hrun : system.run start frames = some (s, h))
    (hframes : ∀ e ∈ frames, e ≤ currentTimestep) : s.remainingTime < currentTimestep := by
  induction frames using List.reverseRecOn generalizing s h with
  | nil =>
      cases hrun
      exact currentTimestep_pos
  | append_singleton frames elapsed ih =>
      rcases (system.run_append).mp hrun with ⟨t, h₁, h₂, hpre, hlast, rfl⟩
      have hlt := ih hpre fun e he => hframes e (List.mem_append_left _ he)
      have hle : elapsed ≤ currentTimestep := hframes elapsed (by simp)
      have hframe := frame_spec ((system.run_singleton).mp hlast)
      exact (hframe.2.2.2 currentTimestep le_rfl).mpr (by linarith)

/-- Frames of at most one timestep keep up. -/
theorem keepsUp_of_le (hframes : ∀ e ∈ frames, e ≤ currentTimestep) : KeepsUp frames := by
  intro pre elapsed post hsplit s h hpre
  have hdt : (0 : K) < currentTimestep := currentTimestep_pos
  have hlt := remainingTime_lt hpre fun e he => hframes e (by simp [hsplit, he])
  have hle : elapsed ≤ currentTimestep := hframes elapsed (by simp [hsplit])
  linarith

/-- Any time can be cut into frames of at most one timestep. -/
theorem exists_even_frames [FloorSemiring K] {total : K} (htotal : 0 ≤ total) :
    ∃ frames : List K, (∀ e ∈ frames, 0 ≤ e ∧ e ≤ currentTimestep) ∧ frames.sum = total := by
  have hdt : (0 : K) < currentTimestep := currentTimestep_pos
  have hfloor := Nat.floor_le (div_nonneg htotal hdt.le)
  have hceil := Nat.lt_floor_add_one (total / currentTimestep)
  rw [le_div_iff₀ hdt] at hfloor
  rw [div_lt_iff₀ hdt] at hceil
  refine ⟨List.replicate ⌊total / currentTimestep⌋₊ currentTimestep ++
    [total - ⌊total / currentTimestep⌋₊ * currentTimestep], ?_, ?_⟩
  · intro e he
    rcases List.mem_append.mp he with hfull | hrest
    · rw [List.eq_of_mem_replicate hfull]
      exact ⟨hdt.le, le_refl _⟩
    · rw [List.mem_singleton.mp hrest]
      constructor <;> linarith
  · rw [List.sum_append, List.sum_replicate, List.sum_singleton, nsmul_eq_mul]
    exact add_sub_cancel _ _

/-- The number of steps does not depend on the frames, up to one, exactly as long as the frames
keep up; then the backlog is bounded, too. -/
theorem keepsUp_iff_evenPace [FloorSemiring K] (frames : List K) (hframes : ∀ e ∈ frames, 0 ≤ e) :
    (KeepsUp frames ↔ EvenPace frames) ∧ (KeepsUp frames → BoundedBacklog frames) := by
  rcases Option.isSome_iff_exists.mp (run_isSome start hframes) with ⟨⟨s, h⟩, hrun⟩
  refine ⟨⟨fun hkeeps => ?_, fun heven => ?_⟩, (keepsUp_iff hrun).mp⟩
  · intro pre post hsplit t h₁ hpre other u h₂ hkeeps' hsum hother
    have hbacklog := (keepsUp_iff hrun).mp hkeeps pre post hsplit t h₁ hpre
    have hbacklog' := (keepsUp_iff hother).mp hkeeps' other [] (by simp) u h₂ hother
    exact ⟨steps_le_of_sum_eq hpre hother hsum hbacklog'.2,
      steps_le_of_sum_eq hother hpre hsum.symm hbacklog.2⟩
  · -- a prefix that falls behind is compared with the same time cut into timesteps
    refine (keepsUp_iff hrun).mpr ?_
    intro pre post hsplit t h₁ hpre
    rcases sum_eq hpre with ⟨htotal, hpos⟩
    refine ⟨hpos, ?_⟩
    have hdt : (0 : K) < currentTimestep := currentTimestep_pos
    have hnonneg : 0 ≤ pre.sum := List.sum_nonneg fun e he => hframes e (by simp [hsplit, he])
    rcases exists_even_frames hnonneg with ⟨other, hother, hsum⟩
    rcases Option.isSome_iff_exists.mp (run_isSome start fun e he => (hother e he).1) with
      ⟨⟨u, h₂⟩, hrun'⟩
    have hshort : ∀ e ∈ other, e ≤ currentTimestep := fun e he => (hother e he).2
    have hle := (heven pre post hsplit t h₁ hpre other u h₂ (keepsUp_of_le hshort) hsum hrun').2
    have hlt := remainingTime_lt hrun' hshort
    rcases sum_eq hrun' with ⟨htotal', -⟩
    have hcast : (steps h₂ : K) ≤ steps h₁ + 1 := by exact_mod_cast hle
    have hscaled := mul_le_mul_of_nonneg_right hcast hdt.le
    linarith

/-- Two frames of one timestep. -/
theorem keepsUp_iff_evenPace_two :
    (∀ e ∈ [(1 / 60 : ℚ), 1 / 60], 0 ≤ e) ∧ EvenPace [(1 / 60 : ℚ), 1 / 60] := by
  have hnonneg : ∀ e ∈ [(1 / 60 : ℚ), 1 / 60], 0 ≤ e := by
    intro e he
    simp only [List.mem_cons, List.not_mem_nil, or_false, or_self] at he
    rw [he]
    norm_num
  refine ⟨hnonneg, (keepsUp_iff_evenPace _ hnonneg).1.mp (keepsUp_of_le ?_)⟩
  intro e he
  simp only [List.mem_cons, List.not_mem_nil, or_false, or_self] at he
  rw [he]
  norm_num [currentTimestep, Game.fixedTimestep]

/-- One frame of ten timesteps, and ten frames of one. -/
theorem exists_steps_uneven :
    ∃ (s t : ClientLoop ℚ) (h h' : List ClientEvent),
      system.run start [(10 / 60 : ℚ)] = some (s, h) ∧
      system.run start (List.replicate 10 (1 / 60 : ℚ)) = some (t, h') ∧
      [(10 / 60 : ℚ)].sum = (List.replicate 10 (1 / 60 : ℚ)).sum ∧
      steps h = 1 ∧ steps h' = 10 := by
  have hlong : system.run start [(10 / 60 : ℚ)] =
      some (⟨9 / 60⟩, [.inputHandled, .stepped, .rendered]) := by
    decide +kernel
  have hshort : system.run start (List.replicate 10 (1 / 60 : ℚ)) = some (⟨0⟩,
      (List.replicate 10 [.inputHandled, .stepped, .rendered]).flatten) := by
    decide +kernel
  exact ⟨_, _, _, _, hlong, hshort, by norm_num, by decide, by decide⟩

/-! ## The number of steps -/

omit [IsStrictOrderedRing K] in
/-- The loop is an accumulator of frames. -/
theorem after_eq (hrun : system.run start frames = some (s, h)) :
    Accumulator.after currentTimestep frames = ⟨s.remainingTime, steps h⟩ ∧
      ∀ e ∈ frames, 0 ≤ e := by
  induction frames using List.reverseRecOn generalizing s h with
  | nil =>
      cases hrun
      exact ⟨rfl, by simp⟩
  | append_singleton frames elapsed ih =>
      rcases (system.run_append).mp hrun with ⟨t, h₁, h₂, hpre, hlast, rfl⟩
      have hframe : t.frame elapsed = some (s, h₂) := (system.run_singleton).mp hlast
      rcases ih hpre with ⟨hafter, hnonneg⟩
      rw [Accumulator.after_concat, hafter, Accumulator.add, steps_append]
      unfold frame at hframe
      split at hframe
      · rename_i helapsed
        have hall : ∀ e ∈ frames ++ [elapsed], 0 ≤ e := by
          intro e he
          rcases List.mem_append.mp he with hold | hnew
          · exact hnonneg e hold
          · exact List.mem_singleton.mp hnew ▸ helapsed
        simp only at hframe
        split at hframe
        · rename_i hdue
          cases hframe
          exact ⟨by rw [if_pos hdue]; rfl, hall⟩
        · rename_i hdue
          cases hframe
          exact ⟨by rw [if_neg hdue]; rfl, hall⟩
      · contradiction

/-- The number of steps is the least, over all times of the run, of the whole timesteps until then
and the frames since. -/
theorem steps_isLeast [FloorSemiring K] (hrun : system.run start frames = some (s, h)) :
    IsLeast {n | ∃ pre post, frames = pre ++ post ∧
      n = ⌊pre.sum / currentTimestep⌋₊ + post.length} (steps h) := by
  rcases after_eq hrun with ⟨hafter, hnonneg⟩
  have hleast := Accumulator.ticks_isLeast currentTimestep_pos hnonneg
  rwa [hafter] at hleast

end ClientLoop

end GameFramework
