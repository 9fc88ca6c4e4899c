import GameFramework.Game.FrameRate

/-!
# Top speed

Input pushes a tank without bound between two steps.  The movement system applies friction and
the speed limit before it moves the tank, and nothing else moves a tank, so in every run of calls
a tank covers at most its speed limit times the timestep in one step.

Main results:

- Theorem {lit}`Game.row_update_of_tank`: what the movement system does to a tank of a reachable
  game.
- Theorem {lit}`Game.transform_call`: calls other than steps leave transforms alone.
- Theorem {lit}`Game.speedLimited_of_reachable`: the speed limit over whole runs.
-/

namespace GameFramework

open EntityRegistry

namespace Game

variable {K : Type*} [Field K] [LinearOrder K] [FloatOps K] [FloorSemiring K]
  {isServer : Bool} {calls : List (GameCall K)} {g g' : Game K} {h out : List GameEvent}

/-- The velocity that moves a tank is within its speed limit, and the division that brings it
there is by a speed that is not zero. -/
structure Moves (tank : Tank K) (transform : Transform K) (velocity : Velocity K)
    (c' : Components K) : Prop where
  velocity_eq : c'.velocity = some (tank.cruise velocity)
  transform_eq : c'.transform = some
    { position := transform.position.advance (tank.cruise velocity).linear fixedTimestep
      rotation := transform.rotation + (tank.cruise velocity).angular * fixedTimestep }
  speed_le : b2Length (tank.cruise velocity).linear ≤ tank.maxSpeed
  divisor_ne : tank.maxSpeed < b2Length (tank.brake velocity).linear →
    b2Length (tank.brake velocity).linear ≠ 0

/-- The speed limit at a state: in the movement system of every step, in every step as a whole,
and in all other calls. -/
structure SpeedLimited (g : Game K) : Prop where
  applied : ∀ order e c tank, g.registry.row e = some c → c.tank = some tank →
    ∃ transform velocity c', c.transform = some transform ∧ c.velocity = some velocity ∧
      (MovementSystem.update order g.registry fixedTimestep).row e = some c' ∧
        Moves tank transform velocity c'
  perTick : ∀ order g' out, g.step order = some (g', out) → ∀ e c tank,
    g.registry.row e = some c → c.tank = some tank →
      ∃ transform velocity c' transform', c.transform = some transform ∧
        c.velocity = some velocity ∧ g'.registry.row e = some c' ∧
          Moves tank transform velocity c' ∧ c'.transform = some transform' ∧
            b2Distance transform.position transform'.position ≤ tank.maxSpeed * fixedTimestep
  still : ∀ call g' out, (∀ order, call ≠ .step order) → g.call call = some (g', out) →
    ∀ e c c', g.registry.row e = some c → g'.registry.row e = some c' →
      c'.transform = c.transform

/-- Calls other than steps leave transforms alone. -/
theorem transform_call {call : GameCall K} (hcall : g.call call = some (g', out))
    (hstep : ∀ order, call ≠ .step order) {e : Entity} {c c' : Components K}
    (hrow : g.registry.row e = some c) (hrow' : g'.registry.row e = some c') :
    c'.transform = c.transform := by
  have he : e < g.registry.next := Registry.lt_next_of_row hrow
  rcases call_cases hcall with ⟨order, rfl, _⟩ | ⟨order, input, peerId, rfl, rfl, rfl⟩ |
    ⟨entityType, position, rotation, peerId, _, rfl, rfl⟩ | ⟨entity, rfl, rfl, rfl⟩
  · exact absurd rfl (hstep order)
  · rw [row_queueInput order input peerId g he, hrow] at hrow'
    rw [← Option.some.inj hrow', InputSystem.transform_onRow]
  · rw [row_spawn, if_neg (Nat.ne_of_lt he), hrow] at hrow'
    rw [Option.some.inj hrow']
  · rw [row_destroyEntity, hrow] at hrow'
    split at hrow'
    · contradiction
    · rw [Option.some.inj hrow']

section Reachable

variable [IsStrictOrderedRing K] [LawfulFloatOps K]

omit [FloorSemiring K] in
/-- A row with the velocity and the transform of a cruise moves as the limit says. -/
theorem Moves.of_cruise {tank : Tank K} (hdrivable : tank.Drivable) {transform : Transform K}
    {velocity : Velocity K} {c' : Components K}
    (hvelocity : c'.velocity = some (tank.cruise velocity))
    (htransform : c'.transform = some
      { position := transform.position.advance (tank.cruise velocity).linear fixedTimestep
        rotation := transform.rotation + (tank.cruise velocity).angular * fixedTimestep }) :
    Moves tank transform velocity c' where
  velocity_eq := hvelocity
  transform_eq := htransform
  speed_le := Tank.b2Length_cruise_le hdrivable velocity
  divisor_ne hfast := (hdrivable.maxSpeed_pos.trans hfast).ne'

/-- What the movement system does to a tank of a reachable game. -/
theorem row_update_of_tank (hrun : (system K).run (init isServer) calls = some (g, h))
    (order : ViewOrder) {e : Entity} {c : Components K} {tank : Tank K}
    (hrow : g.registry.row e = some c) (htank : c.tank = some tank) :
    ∃ transform velocity c', c.transform = some transform ∧ c.velocity = some velocity ∧
      (MovementSystem.update order g.registry fixedTimestep).row e = some c' ∧
        Moves tank transform velocity c' := by
  have hfits := fits_tank_of_reachable hrun hrow htank
  rcases Option.isSome_iff_exists.mp (hfits.isSome (k := .transform) (by decide)) with
    ⟨transform, ht⟩
  rcases Option.isSome_iff_exists.mp (hfits.isSome (k := .velocity) (by decide)) with
    ⟨velocity, hv⟩
  refine ⟨transform, velocity, MovementSystem.onRow fixedTimestep c, ht, hv, ?_, ?_⟩
  · rw [MovementSystem.row_update, hrow, Option.map_some]
  · apply Moves.of_cruise (drivable_of_reachable hrun e c hrow tank htank)
    · simp [MovementSystem.onRow, ht, hv, htank, MovementSystem.move_eq]
    · simp [MovementSystem.onRow, ht, hv, htank, MovementSystem.move_eq]

/-- What a step does to a tank of a reachable game. -/
theorem row_step_of_tank (hrun : (system K).run (init isServer) calls = some (g, h))
    {order : ViewOrder} (hstep : g.step order = some (g', out)) {e : Entity}
    {c : Components K} {tank : Tank K} (hrow : g.registry.row e = some c)
    (htank : c.tank = some tank) :
    ∃ transform velocity c', c.transform = some transform ∧ c.velocity = some velocity ∧
      g'.registry.row e = some c' ∧ Moves tank transform velocity c' := by
  have hfits := fits_tank_of_reachable hrun hrow htank
  have hvalid := valid_step_of_fits (by decide) hstep hrow hfits
  rcases Registry.valid_iff_exists_row.mp hvalid with ⟨c', hrow'⟩
  rcases advances_step hstep hrow' (exists_fits_of_reachable hrun e) with
    ⟨a, c₀, hrow₀, ha, _, hadvance⟩
  rw [hrow] at hrow₀
  cases hrow₀
  have heq : a = .tank := ha.unique hfits
  subst heq
  rcases hadvance with ⟨transform, velocity, tank', ht, hv, hk, _, hvelocity, htransform⟩
  rw [htank] at hk
  cases hk
  exact ⟨transform, velocity, c', ht, hv, hrow',
    Moves.of_cruise (drivable_of_reachable hrun e c hrow tank htank) hvelocity htransform⟩

/-- In every run of calls: a tank is moved in steps only, by a velocity within its speed limit, so
that one step moves it by at most the speed limit times the timestep; and the speed limit never
divides by zero. -/
theorem speedLimited_of_reachable (hrun : (system K).run (init isServer) calls = some (g, h)) :
    SpeedLimited g where
  applied order e c tank hrow htank := row_update_of_tank hrun order hrow htank
  perTick order g' out hstep e c tank hrow htank := by
    have htimestep : (0 : K) ≤ fixedTimestep := by
      norm_num [fixedTimestep]
    rcases row_step_of_tank hrun hstep hrow htank with
      ⟨transform, velocity, c', ht, hv, hrow', hmoves⟩
    refine ⟨transform, velocity, c', _, ht, hv, hrow', hmoves, hmoves.transform_eq, ?_⟩
    rw [b2Distance_advance _ _ htimestep]
    exact mul_le_mul_of_nonneg_right hmoves.speed_le htimestep
  still call g' out hnot hcall e c c' hrow hrow' := transform_call hcall hnot hrow hrow'

end Reachable

/-- A tank after many deliveries of a large throttle. -/
theorem speedLimited_of_reachable_pushed :
    ∃ g h, (system ℝ).run (init false) [.spawnTank ⟨0, 0⟩ 0 7,
        .queueInput (Enumeration.stored View) { throttle := 1000, turn := 1, shoot := false } 7,
        .queueInput (Enumeration.stored View) { throttle := 1000, turn := 1, shoot := false } 7] =
      some (g, h) ∧ SpeedLimited g := by
  have hrun : (system ℝ).run (init false) [.spawnTank ⟨0, 0⟩ 0 7,
      .queueInput (Enumeration.stored View) { throttle := 1000, turn := 1, shoot := false } 7,
      .queueInput (Enumeration.stored View) { throttle := 1000, turn := 1, shoot := false } 7] =
    some (_, _) := rfl
  exact ⟨_, _, hrun, speedLimited_of_reachable hrun⟩

end Game

end GameFramework
