import GameFramework.Game.Effects
import Mathlib.Analysis.SpecialFunctions.Trigonometric.Basic
import Mathlib.Algebra.Order.Floor.Semiring
import Mathlib.Analysis.Real.Sqrt

/-!
# Flight of a bullet

A bullet fired by an input moves on a straight path from the muzzle of its tank
and is tested against its targets once per tick, at the end of the tick, so that
the sample points of its path lie 20/3 apart.

Main results:

- Theorem {lit}`Game.InFlight.run`: where a bullet is after any calls.
- Theorem {lit}`Game.InFlight.row_beforeCheck_of_lt`: the sample point at which the
  collision system finds it.
- Theorem {lit}`b2Distance_pathPoint`: distances along the path.
-/

namespace GameFramework

open EntityRegistry

variable {K : Type*} [Field K] [LinearOrder K] [FloatOps K]

/-! ## The path -/

section Path

/-- The point of the path at a distance from the muzzle. -/
def pathPoint (transform : Transform K) (s : K) : B2Vec2 K :=
  ⟨transform.position.x + cosf transform.rotation * (3 + s),
    transform.position.y + sinf transform.rotation * (3 + s)⟩

/-- The row of a fired bullet after a number of ticks. -/
def flightRow (transform : Transform K) (peerId : PeerID) (tick : UInt64) (k : ℕ) :
    Components K :=
  { ShootSystem.bulletRow transform peerId tick with
    transform := some
      { position := pathPoint transform (20 / 3 * (k : K))
        rotation := transform.rotation } }

omit [LinearOrder K] in
/-- A fired bullet has not flown yet. -/
theorem flightRow_zero (transform : Transform K) (peerId : PeerID) (tick : UInt64) :
    flightRow transform peerId tick 0 = ShootSystem.bulletRow transform peerId tick := by
  simp [flightRow, ShootSystem.bulletRow, ShootSystem.muzzle, pathPoint]

variable [FloorSemiring K]

/-- One tick moves a bullet on by 20/3. -/
theorem onRow_flightRow (transform : Transform K) (peerId : PeerID) (tick : UInt64)
    (k : ℕ) (currentTick : UInt64) :
    (ShootSystem.onRow Game.fixedTimestep currentTick (flightRow transform peerId tick k)).1 =
      flightRow transform peerId tick (k + 1) := by
  have hx : transform.position.x + cosf transform.rotation * (3 + 20 / 3 * (k : K)) +
        cosf transform.rotation * 400 * (1 / 60) =
      transform.position.x + cosf transform.rotation * (3 + 20 / 3 * ((k : K) + 1)) := by
    ring
  have hy : transform.position.y + sinf transform.rotation * (3 + 20 / 3 * (k : K)) +
        sinf transform.rotation * 400 * (1 / 60) =
      transform.position.y + sinf transform.rotation * (3 + 20 / 3 * ((k : K) + 1)) := by
    ring
  simp only [ShootSystem.onRow, flightRow, ShootSystem.bulletRow, Game.fixedTimestep, pathPoint,
    hx, hy, Nat.cast_add, Nat.cast_one]

/-- A bullet expires in its tick 120 and not before. -/
theorem not_expired_flightRow [IsStrictOrderedRing K] (transform : Transform K)
    (peerId : PeerID) (tick : UInt64) {k : ℕ} (hk : k < 120) (k' : ℕ) :
    (ShootSystem.onRow Game.fixedTimestep (tick + UInt64.ofNat k)
      (flightRow transform peerId tick k')).2 = false := by
  have hfloor : ⌊(2 : K) * 60⌋₊ = 120 := by norm_num
  have hlt : UInt64.ofNat k < 120 := by
    rw [UInt64.lt_iff_toNat_lt, UInt64.toNat_ofNat']
    have hmod : k % 2 ^ 64 = k := Nat.mod_eq_of_lt (by omega)
    rw [hmod]
    exact hk
  have hsub : tick + UInt64.ofNat k - tick = UInt64.ofNat k := by
    rw [UInt64.add_comm, UInt64.add_sub_cancel]
  simp only [ShootSystem.onRow, flightRow, ShootSystem.bulletRow, ShootSystem.expired, hfloor,
    hsub, decide_eq_false_iff_not, ge_iff_le, UInt64.not_le]
  exact hlt

variable [IsStrictOrderedRing K] [LawfulFloatOps K]

omit [FloorSemiring K] in
/-- Distances along the path. -/
theorem b2Distance_pathPoint (transform : Transform K) (s s' : K) :
    b2Distance (pathPoint transform s) (pathPoint transform s') = |s' - s| := by
  have hunit := LawfulFloatOps.cosf_sq_add_sinf_sq transform.rotation
  rw [LawfulFloatOps.b2Distance_eq]
  have hsq : b2Length (⟨(pathPoint transform s').x - (pathPoint transform s).x,
      (pathPoint transform s').y - (pathPoint transform s).y⟩ : B2Vec2 K) ^ 2 =
      |s' - s| ^ 2 := by
    rw [LawfulFloatOps.b2Length_sq, sq_abs]
    simp only [pathPoint]
    linear_combination (s' - s) ^ 2 * hunit
  exact (pow_left_inj₀ (LawfulFloatOps.b2Length_nonneg _) (abs_nonneg _) two_ne_zero).mp hsq

end Path

namespace Game

variable [FloorSemiring K]

/-! ## A bullet in flight -/

/-- The steps among some calls. -/
def stepCount (calls : List (GameCall K)) : ℕ :=
  calls.countP fun
    | .step _ => true
    | _ => false

omit [Field K] [LinearOrder K] [FloatOps K] [FloorSemiring K] in
theorem stepCount_cons (call : GameCall K) (calls : List (GameCall K)) :
    stepCount (call :: calls) = stepCount [call] + stepCount calls := by
  simp only [stepCount, ← List.countP_append, List.singleton_append]

omit [Field K] [LinearOrder K] [FloatOps K] [FloorSemiring K] in
/-- Steps add up. -/
theorem stepCount_append (calls later : List (GameCall K)) :
    stepCount (calls ++ later) = stepCount calls + stepCount later :=
  List.countP_append

omit [Field K] [LinearOrder K] [FloatOps K] [FloorSemiring K] in
/-- Other calls are not counted. -/
theorem stepCount_of_ne_step {call : GameCall K} (h : ∀ order, call ≠ .step order) :
    stepCount [call] = 0 := by
  cases call with
  | step order => exact absurd rfl (h order)
  | _ => rfl

/-- The tick count counts the steps. -/
theorem tickCount_call {g g' : Game K} {call : GameCall K} {out : List GameEvent}
    (hcall : g.call call = some (g', out)) :
    g'.tickCount = g.tickCount + UInt64.ofNat (stepCount [call]) := by
  rcases call_cases hcall with ⟨order, rfl, hstep⟩ | ⟨order, input, p, rfl, rfl, _⟩ |
    ⟨entityType, position, rotation, p, hne, rfl, _⟩ | ⟨entity, rfl, rfl, _⟩
  · exact (step_spec hstep).1
  · rw [tickCount_queueInput]
    exact (UInt64.add_zero _).symm
  · rw [stepCount_of_ne_step hne]
    exact (UInt64.add_zero _).symm
  · rw [tickCount_destroyEntity]
    exact (UInt64.add_zero _).symm

/-- The tick count is the number of steps, modulo the width of the counter. -/
theorem tickCount_run {g g' : Game K} {calls : List (GameCall K)} {h : List GameEvent}
    (hrun : (system K).run g calls = some (g', h)) :
    g'.tickCount = g.tickCount + UInt64.ofNat (stepCount calls) := by
  induction calls generalizing g h with
  | nil =>
      cases hrun
      exact (UInt64.add_zero _).symm
  | cons call calls ih =>
      rcases (Labelled.System.run_cons_eq_some _).mp hrun with ⟨g₁, out, rest, hcall, htail, _⟩
      rw [ih htail, tickCount_call hcall, stepCount_cons call calls, UInt64.ofNat_add,
        UInt64.add_assoc]

/-- The bullet was fired in the given tick and the game has made {lit}`k` steps since;
while the bullet exists it is on its path. -/
structure InFlight (transform : Transform K) (peerId : PeerID) (tick : UInt64) (b : Entity)
    (g : Game K) (k : ℕ) : Prop where
  lt_next : b < g.registry.next
  tickCount : g.tickCount = tick + UInt64.ofNat k
  row : ∀ c, g.registry.row b = some c → c = flightRow transform peerId tick k

variable {transform : Transform K} {peerId : PeerID} {tick : UInt64} {b : Entity}
  {g g' : Game K} {out : List GameEvent} {k : ℕ}

omit [LinearOrder K] [FloorSemiring K] in
/-- The movement of tanks leaves bullets alone. -/
theorem onRow_flightRow_movement (transform : Transform K) (peerId : PeerID) (tick : UInt64)
    (k : ℕ) [LinearOrder K] :
    MovementSystem.onRow fixedTimestep (flightRow transform peerId tick k) =
      flightRow transform peerId tick k :=
  MovementSystem.onRow_of_not_tank rfl

omit [FloorSemiring K] in
/-- Collisions change nothing in the row of a bullet. -/
theorem collided_flightRow (n m : ℕ) :
    CollisionSystem.collided n m (flightRow transform peerId tick k) =
      flightRow transform peerId tick k := by
  have hdest : (bulletEngagement (K := K)).absorb^[n] none = none :=
    Function.iterate_fixed rfl n
  have hcoll : (collectEngagement (K := K)).absorb^[m] none = none :=
    Function.iterate_fixed rfl m
  simp [CollisionSystem.collided, flightRow, ShootSystem.bulletRow, hdest, hcoll]

/-- The bullet in the registry that the collision system of the next step finds. -/
theorem InFlight.row_beforeCheck (h : InFlight transform peerId tick b g k)
    (order : ViewOrder) {c : Components K} (hrow : (g.beforeCheck order).row b = some c) :
    c = flightRow transform peerId tick (k + 1) := by
  rw [Game.row_beforeCheck] at hrow
  cases hold : g.registry.row b with
  | none => simp [hold] at hrow
  | some c₀ =>
      rw [hold, h.row c₀ hold, Option.map_some, onRow_flightRow_movement,
        Option.bind_some, ShootSystem.rowUpdate] at hrow
      split at hrow
      · contradiction
      · rw [onRow_flightRow] at hrow
        exact (Option.some.inj hrow).symm

/-- A bullet in flight flies on with every step. -/
theorem InFlight.call (h : InFlight transform peerId tick b g k) {call : GameCall K}
    (hcall : g.call call = some (g', out)) :
    InFlight transform peerId tick b g' (k + stepCount [call]) := by
  have hnext := next_le_call hcall
  have htick : g'.tickCount = tick + UInt64.ofNat (k + stepCount [call]) := by
    rw [tickCount_call hcall, h.tickCount, UInt64.ofNat_add, UInt64.add_assoc]
  refine ⟨h.lt_next.trans_le hnext, htick, fun c hrow => ?_⟩
  rcases call_cases hcall with ⟨order, rfl, hstep⟩ | ⟨order, input, p, rfl, rfl, _⟩ |
    ⟨entityType, position, rotation, p, hne, rfl, _⟩ | ⟨entity, rfl, rfl, _⟩
  · rcases exists_row_of_row_step hstep hrow with ⟨c₀, n, m, hc₀, _, rfl⟩
    rw [h.row c₀ hc₀, onRow_flightRow_movement, onRow_flightRow, collided_flightRow]
    rfl
  · rw [row_queueInput order input p g h.lt_next, Option.map_eq_some_iff] at hrow
    rcases hrow with ⟨c₀, hc₀, rfl⟩
    have htank : c₀.tank = none := by
      rw [h.row c₀ hc₀]
      rfl
    rw [InputSystem.onRow_of_not_tank htank]
    exact h.row c₀ hc₀
  · rw [stepCount_of_ne_step hne]
    rw [row_spawn, if_neg (Nat.ne_of_lt h.lt_next)] at hrow
    exact h.row c hrow
  · rw [row_destroyEntity] at hrow
    split at hrow
    · contradiction
    · exact h.row c hrow

/-- Over any calls a bullet stays on its path, one sample point per step. -/
theorem InFlight.run {calls : List (GameCall K)} {h : List GameEvent}
    (hflight : InFlight transform peerId tick b g k)
    (hrun : (system K).run g calls = some (g', h)) :
    InFlight transform peerId tick b g' (k + stepCount calls) := by
  induction calls generalizing g k h with
  | nil =>
      cases hrun
      exact hflight
  | cons call calls ih =>
      rcases (Labelled.System.run_cons_eq_some _).mp hrun with ⟨g₁, out, rest, hcall, htail, _⟩
      rw [stepCount_cons call calls, ← Nat.add_assoc]
      exact ih (hflight.call hcall) htail

omit [FloorSemiring K] [LinearOrder K] in
/-- A bullet that an input fires starts its flight at the muzzle. -/
theorem inFlight_of_mem_fired {order : ViewOrder} {input : InputState K} {t : Entity}
    (h : .fired t b ∈ (g.queueInput order input peerId).2) :
    ∃ transform, (g.registry.row t).bind (·.transform) = some transform ∧
      InFlight transform peerId g.tickCount b (g.queueInput order input peerId).1 0 := by
  rcases of_mem_fired order input peerId g h with
    ⟨transform, _, htransform, _, _, _, _, hrow⟩
  refine ⟨transform, htransform, Registry.lt_next_of_row hrow, ?_, fun c hc => ?_⟩
  · rw [tickCount_queueInput]
    simp
  · rw [hrow] at hc
    rw [flightRow_zero]
    exact (Option.some.inj hc).symm

/-- Before its tick 120 a bullet that exists reaches the collision system, at its
sample point. -/
theorem InFlight.row_beforeCheck_of_lt [IsStrictOrderedRing K]
    (h : InFlight transform peerId tick b g k) (order : ViewOrder) (hk : k + 1 < 120)
    (hvalid : g.registry.valid b) :
    (g.beforeCheck order).row b = some (flightRow transform peerId tick (k + 1)) := by
  rcases Registry.valid_iff_exists_row.mp hvalid with ⟨c, hrow⟩
  have htick : g.tickCount + 1 = tick + UInt64.ofNat (k + 1) := by
    rw [h.tickCount, UInt64.ofNat_add, UInt64.add_assoc]
    rfl
  rw [Game.row_beforeCheck, hrow, h.row c hrow, Option.map_some, onRow_flightRow_movement,
    Option.bind_some, ShootSystem.rowUpdate, htick, not_expired_flightRow transform peerId tick hk,
    onRow_flightRow]
  rfl

end Game

/-! ## Over the reals -/

/-- The true functions. -/
noncomputable instance : FloatOps ℝ where
  cosf := Real.cos
  sinf := Real.sin
  b2Length v := √(v.x ^ 2 + v.y ^ 2)
  b2Distance a b := √((b.x - a.x) ^ 2 + (b.y - a.y) ^ 2)

instance : LawfulFloatOps ℝ where
  cosf_sq_add_sinf_sq := Real.cos_sq_add_sin_sq
  b2Length_nonneg _ := Real.sqrt_nonneg _
  b2Length_sq v := Real.sq_sqrt (add_nonneg (sq_nonneg v.x) (sq_nonneg v.y))
  b2Distance_eq _ _ := rfl

end GameFramework
