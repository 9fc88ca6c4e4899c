import GameFramework.Game.Effects
import Mathlib.Algebra.Order.Ring.Rat
import Mathlib.Data.Rat.Floor

/-!
# Archetypes

Which component sets occur, and what one step does to the positions.  Two systems
integrate positions over overlapping views; that nothing is moved twice or
skipped rests on the component set of every row, which all creations produce and
all systems keep.

Main results:

- Definition {lit}`Archetype`: the four component sets.
- Theorem {lit}`Game.exists_fits_of_reachable`: every row of a reachable game has one
  of them.
- Theorem {lit}`Game.advances_step`: a step integrates each surviving row once.
- Theorem {lit}`Game.archetypes_step`: both together.
-/

namespace GameFramework

open EntityRegistry

/-! ## Component sets -/

/-- The component types of the registry. -/
inductive ComponentType where
  | transform
  | velocity
  | tank
  | bullet
  | collectible
  | destructible
  deriving DecidableEq

/-- The kinds of entities, named by the component that tells them apart. -/
inductive Archetype where
  | tank
  | bullet
  | collectible
  | destructible
  deriving DecidableEq

namespace Archetype

/-- The component set of an archetype. -/
def components : Archetype → List ComponentType
  | tank => [.transform, .velocity, .tank]
  | bullet => [.transform, .velocity, .bullet]
  | collectible => [.transform, .collectible]
  | destructible => [.transform, .destructible]

/-- The component that no other archetype has. -/
def mark : Archetype → ComponentType
  | tank => .tank
  | bullet => .bullet
  | collectible => .collectible
  | destructible => .destructible

/-- The component that marks a set is in no other set. -/
theorem mark_mem_components_iff (a b : Archetype) : a.mark ∈ b.components ↔ a = b := by
  cases a <;> cases b <;> decide

end Archetype

section Carries

variable {K : Type*}

/-- The row carries a component of the given type. -/
def Components.carries (c : Components K) : ComponentType → Bool
  | .transform => c.transform.isSome
  | .velocity => c.velocity.isSome
  | .tank => c.tank.isSome
  | .bullet => c.bullet.isSome
  | .collectible => c.collectible.isSome
  | .destructible => c.destructible.isSome

/-- The row carries the components of the archetype and no others. -/
def Archetype.Fits (a : Archetype) (c : Components K) : Prop :=
  ∀ k, c.carries k = true ↔ k ∈ a.components

namespace Archetype.Fits

variable {a b : Archetype} {c : Components K}

/-- A row has at most one archetype. -/
theorem unique (ha : a.Fits c) (hb : b.Fits c) : a = b := by
  have hmark : c.carries a.mark = true :=
    (ha a.mark).mpr ((mark_mem_components_iff a a).mpr rfl)
  exact (mark_mem_components_iff a b).mp ((hb a.mark).mp hmark)

/-- A component of the archetype has a value. -/
theorem isSome (h : a.Fits c) {k : ComponentType} (hk : k ∈ a.components) :
    c.carries k = true :=
  (h k).mpr hk

/-- A component that the archetype lacks is absent. -/
theorem not_carries (h : a.Fits c) {k : ComponentType} (hk : k ∉ a.components) :
    c.carries k = false :=
  Bool.eq_false_iff.mpr fun hcarries => hk ((h k).mp hcarries)

/-- Only tanks have a tank component. -/
theorem tank_eq_none (h : a.Fits c) (ha : a ≠ .tank) : c.tank = none := by
  have habsent := h.not_carries fun hk => ha ((mark_mem_components_iff .tank a).mp hk).symm
  exact Option.not_isSome_iff_eq_none.mp (Bool.eq_false_iff.mp habsent)

/-- A row with a tank has the components of a tank. -/
theorem tank_fits (h : a.Fits c) {tank : Tank K} (htank : c.tank = some tank) :
    Archetype.tank.Fits c := by
  have heq : a = .tank := by
    by_contra hne
    rw [h.tank_eq_none hne] at htank
    contradiction
  exact heq ▸ h

/-- Only bullets have a bullet component. -/
theorem bullet_eq_none (h : a.Fits c) (ha : a ≠ .bullet) : c.bullet = none := by
  have habsent := h.not_carries fun hk => ha ((mark_mem_components_iff .bullet a).mp hk).symm
  exact Option.not_isSome_iff_eq_none.mp (Bool.eq_false_iff.mp habsent)

/-- Only destructibles have a destructible component. -/
theorem destructible_eq_none (h : a.Fits c) (ha : a ≠ .destructible) :
    c.destructible = none := by
  have habsent := h.not_carries fun hk =>
    ha ((mark_mem_components_iff .destructible a).mp hk).symm
  exact Option.not_isSome_iff_eq_none.mp (Bool.eq_false_iff.mp habsent)

end Archetype.Fits

end Carries

/-! ## The systems keep component sets -/

section Systems

variable {K : Type*} [Field K] [LinearOrder K] [FloatOps K]

/-- Movement adds and removes no component. -/
theorem MovementSystem.carries_onRow (deltaTime : K) (c : Components K) :
    (onRow deltaTime c).carries = c.carries := by
  unfold onRow
  split
  · rename_i htransform hvelocity _
    funext k
    cases k <;> simp [Components.carries, htransform, hvelocity]
  · rfl

omit [LinearOrder K] in
/-- Neither do inputs. -/
theorem InputSystem.carries_onRow (peerId : UInt32) (input : InputState K)
    (c : Components K) : (onRow peerId input c).carries = c.carries := by
  unfold onRow
  split
  · rename_i hvelocity _
    funext k
    cases k <;> simp [Components.carries, hvelocity]
  · rfl

omit [FloatOps K] in
/-- Neither does the flight of bullets. -/
theorem ShootSystem.carries_onRow [FloorSemiring K] (deltaTime : K) (tick : UInt64)
    (c : Components K) : (onRow deltaTime tick c).1.carries = c.carries := by
  unfold onRow
  split
  · rename_i htransform _ _
    funext k
    cases k <;> simp [Components.carries, htransform]
  · rfl

/-- Neither do collisions. -/
theorem CollisionSystem.carries_collided (n m : ℕ) (c : Components K) :
    (collided n m c).carries = c.carries := by
  funext k
  cases k <;> simp [Components.carries, collided, Engagement.isSome_iterate_absorb]

end Systems

/-! ## Integration -/

section Advance

variable {K : Type*} [Field K]

/-- A point moved by a velocity for some time. -/
def B2Vec2.advance (p v : B2Vec2 K) (deltaTime : K) : B2Vec2 K :=
  ⟨p.x + v.x * deltaTime, p.y + v.y * deltaTime⟩

/-- Friction. -/
def Tank.brake (tank : Tank K) (v : Velocity K) : Velocity K where
  linear := ⟨v.linear.x * tank.friction, v.linear.y * tank.friction⟩
  angular := v.angular * tank.friction

variable [LinearOrder K] [FloatOps K]

/-- The speed limit, which scales the linear velocity down. -/
def Tank.limit (tank : Tank K) (v : Velocity K) : Velocity K :=
  if tank.maxSpeed < b2Length v.linear then
    { v with
      linear := ⟨v.linear.x * (tank.maxSpeed / b2Length v.linear),
        v.linear.y * (tank.maxSpeed / b2Length v.linear)⟩ }
  else v

/-- The velocity that a tank moves with in a step. -/
def Tank.cruise (tank : Tank K) (v : Velocity K) : Velocity K :=
  tank.limit (tank.brake v)

/-- A moved tank advances with its cruising velocity for the whole time. -/
theorem MovementSystem.move_eq (deltaTime : K) (transform : Transform K)
    (velocity : Velocity K) (tank : Tank K) :
    move deltaTime transform velocity tank =
      ({ position := transform.position.advance (tank.cruise velocity).linear deltaTime
         rotation := transform.rotation + (tank.cruise velocity).angular * deltaTime },
        tank.cruise velocity) :=
  rfl

/-- What a step does to the row of a surviving entity: a tank moves once with its
velocity after friction and speed limit, a bullet moves once with its velocity,
and nothing else moves. -/
def Archetype.Advances : Archetype → Components K → Components K → Prop
  | .tank, c, c' => ∃ transform velocity tank, c.transform = some transform ∧
      c.velocity = some velocity ∧ c.tank = some tank ∧ c'.tank = some tank ∧
      c'.velocity = some (tank.cruise velocity) ∧
      c'.transform = some
        { position :=
            transform.position.advance (tank.cruise velocity).linear Game.fixedTimestep
          rotation :=
            transform.rotation + (tank.cruise velocity).angular * Game.fixedTimestep }
  | .bullet, c, c' => ∃ transform velocity, c.transform = some transform ∧
      c.velocity = some velocity ∧ c'.bullet = c.bullet ∧ c'.velocity = some velocity ∧
      c'.transform = some
        { transform with
          position := transform.position.advance velocity.linear Game.fixedTimestep }
  | .collectible, c, c' => c'.transform = c.transform
  | .destructible, c, c' => c'.transform = c.transform

end Advance

/-! ## Reachable games -/

namespace Game

variable {K : Type*} [Field K] [LinearOrder K] [FloatOps K] [FloorSemiring K]
  {isServer : Bool} {calls : List (GameCall K)} {g g' : Game K} {h out : List GameEvent}

/-- Every system keeps the archetype of a row. -/
theorem kept_fits (a : Archetype) : Kept (a.Fits (K := K)) where
  move c hc := by
    unfold Archetype.Fits
    rw [MovementSystem.carries_onRow]
    exact hc
  steer peerId input c hc := by
    unfold Archetype.Fits
    rw [InputSystem.carries_onRow]
    exact hc
  advance tick c hc := by
    unfold Archetype.Fits
    rw [ShootSystem.carries_onRow]
    exact hc
  collide n m c hc := by
    unfold Archetype.Fits
    rw [CollisionSystem.carries_collided]
    exact hc

/-- A property that is kept for each index is kept for some index. -/
theorem Kept.exists {ι : Type*} {P : ι → Components K → Prop} (hP : ∀ i, Kept (P i)) :
    Kept fun c => ∃ i, P i c where
  move c := fun ⟨i, hi⟩ => ⟨i, (hP i).move c hi⟩
  steer peerId input c := fun ⟨i, hi⟩ => ⟨i, (hP i).steer peerId input c hi⟩
  advance tick c := fun ⟨i, hi⟩ => ⟨i, (hP i).advance tick c hi⟩
  collide n m c := fun ⟨i, hi⟩ => ⟨i, (hP i).collide n m c hi⟩

omit [LinearOrder K] [FloatOps K] [FloorSemiring K] in
/-- The rows that the spawn calls create. -/
theorem exists_fits_row {entityType : UInt8} (htype : entityType ∈ spawnedTypes)
    (position : B2Vec2 K) (rotation : K) (peerId : UInt32) :
    ∃ a : Archetype, a.Fits (SpawnSystem.row entityType position rotation peerId) := by
  simp only [spawnedTypes, List.mem_cons, List.not_mem_nil, or_false] at htype
  rcases htype with rfl | rfl | rfl | rfl
  · refine ⟨.tank, fun k => ?_⟩
    cases k <;> simp [SpawnSystem.row, Components.carries, Archetype.components]
  · refine ⟨.bullet, fun k => ?_⟩
    cases k <;>
      simp [SpawnSystem.row, Components.carries, Archetype.components, entityTypeBullet,
        entityTypePlayer]
  · refine ⟨.collectible, fun k => ?_⟩
    cases k <;>
      simp [SpawnSystem.row, Components.carries, Archetype.components, entityTypeCollectible,
        entityTypeBullet, entityTypePlayer]
  · refine ⟨.destructible, fun k => ?_⟩
    cases k <;>
      simp [SpawnSystem.row, Components.carries, Archetype.components, entityTypeDestructible,
        entityTypeCollectible, entityTypeBullet, entityTypePlayer]

omit [LinearOrder K] [FloorSemiring K] in
/-- A fired bullet has the components of a bullet. -/
theorem fits_bulletRow (transform : Transform K) (peerId : PeerID) (tick : UInt64) :
    Archetype.bullet.Fits (ShootSystem.bulletRow transform peerId tick) := by
  intro k
  cases k <;> simp [ShootSystem.bulletRow, Components.carries, Archetype.components]

/-- Every row of a reachable game has an archetype. -/
theorem exists_fits_of_reachable
    (hrun : (system K).run (init isServer) calls = some (g, h)) :
    ∀ e c, g.registry.row e = some c → ∃ a : Archetype, a.Fits c :=
  row_of_reachable_of_spawnedTypes (Kept.exists kept_fits)
    (fun _ htype position rotation peerId => exists_fits_row htype position rotation peerId)
    (fun transform peerId tick => ⟨.bullet, fits_bulletRow transform peerId tick⟩) hrun

/-- An entity with a tank has the components of a tank. -/
theorem fits_tank_of_reachable (hrun : (system K).run (init isServer) calls = some (g, h))
    {e : Entity} {c : Components K} {tank : Tank K} (hrow : g.registry.row e = some c)
    (htank : c.tank = some tank) : Archetype.tank.Fits c := by
  rcases exists_fits_of_reachable hrun e c hrow with ⟨a, ha⟩
  exact ha.tank_fits htank

/-- One round of both integrating systems on a row. -/
theorem advances_onRow {a : Archetype} {c : Components K} (hc : a.Fits c) (tick : UInt64)
    (n m : ℕ) :
    a.Advances c (CollisionSystem.collided n m
      (ShootSystem.onRow fixedTimestep tick (MovementSystem.onRow fixedTimestep c)).1) := by
  have htransform : c.transform.isSome = true :=
    hc.isSome (k := .transform) (by cases a <;> decide)
  rcases Option.isSome_iff_exists.mp htransform with ⟨transform, ht⟩
  cases a with
  | tank =>
      rcases Option.isSome_iff_exists.mp (hc.isSome (k := .velocity) (by decide)) with
        ⟨velocity, hv⟩
      rcases Option.isSome_iff_exists.mp (hc.isSome (k := .tank) (by decide)) with ⟨tank, hk⟩
      have hbullet : c.bullet = none := hc.bullet_eq_none (by decide)
      refine ⟨transform, velocity, tank, ht, hv, hk, ?_⟩
      simp [CollisionSystem.collided, ShootSystem.onRow, MovementSystem.onRow, ht, hv, hk,
        hbullet, MovementSystem.move_eq]
  | bullet =>
      rcases Option.isSome_iff_exists.mp (hc.isSome (k := .velocity) (by decide)) with
        ⟨velocity, hv⟩
      rcases Option.isSome_iff_exists.mp (hc.isSome (k := .bullet) (by decide)) with
        ⟨bullet, hb⟩
      refine ⟨transform, velocity, ht, hv, ?_⟩
      rw [MovementSystem.onRow_of_not_tank (hc.tank_eq_none (by decide))]
      simp [CollisionSystem.collided, ShootSystem.onRow, ht, hv, hb, B2Vec2.advance]
  | collectible | destructible =>
      have htank : c.tank = none := hc.tank_eq_none (by decide)
      have hbullet : c.bullet = none := hc.bullet_eq_none (by decide)
      have hview : c.hasTransformVelocityBullet = false := by
        simp [Components.hasTransformVelocityBullet, hbullet]
      rw [MovementSystem.onRow_of_not_tank htank,
        ShootSystem.onRow_of_not_view fixedTimestep tick hview]
      rfl

/-- A step integrates each surviving row once. -/
theorem advances_step {order : ViewOrder} (hstep : g.step order = some (g', out))
    {e : Entity} {c' : Components K} (hrow : g'.registry.row e = some c')
    (hfits : ∀ c, g.registry.row e = some c → ∃ a : Archetype, a.Fits c) :
    ∃ a : Archetype, ∃ c, g.registry.row e = some c ∧ a.Fits c ∧ a.Fits c' ∧
      a.Advances c c' := by
  rcases exists_row_of_row_step hstep hrow with ⟨c, n, m, hc, _, rfl⟩
  rcases hfits c hc with ⟨a, ha⟩
  have hkept := kept_fits (K := K) a
  exact ⟨a, c, hc, ha, hkept.collide n m _ (hkept.advance _ _ (hkept.move c ha)),
    advances_onRow ha _ n m⟩

/-- In every reachable game each entity has exactly one of the four component
sets, and a step that goes through creates no entity and integrates the position
of each survivor as its archetype says. -/
theorem archetypes_step (hrun : (system K).run (init isServer) calls = some (g, h)) :
    (∀ e c, g.registry.row e = some c → ∃! a : Archetype, a.Fits c) ∧
      ∀ order g' out, g.step order = some (g', out) →
        g'.registry.next = g.registry.next ∧
          ∀ e c', g'.registry.row e = some c' →
            ∃ a : Archetype, ∃ c, g.registry.row e = some c ∧ a.Fits c ∧ a.Fits c' ∧
              a.Advances c c' := by
  have hfits := exists_fits_of_reachable hrun
  constructor
  · intro e c hrow
    rcases hfits e c hrow with ⟨a, ha⟩
    exact ⟨a, ha, fun b hb => hb.unique ha⟩
  · intro order g' out hstep
    exact ⟨(step_spec hstep).2.1, fun e c' hrow => advances_step hstep hrow (hfits e)⟩

/-- A tank and a bullet of a server game. -/
def archetypeCalls : List (GameCall ℚ) :=
  [.spawnTank ⟨0, 0⟩ 0 7,
    .queueInput (Enumeration.stored View) { throttle := 1, turn := 0, shoot := true } 7]

/-- A step of a server game with a tank and a bullet. -/
theorem archetypes_step_stored :
    ∃ g h g' out, (system ℚ).run (init true) archetypeCalls = some (g, h) ∧
      g.step (Enumeration.stored View) = some (g', out) ∧
      (∀ e c, g.registry.row e = some c → ∃! a : Archetype, a.Fits c) ∧
      g'.registry.next = g.registry.next := by
  have hsome : ((system ℚ).run (init true)
      (archetypeCalls ++ [.step (Enumeration.stored View)])).isSome = true := by
    decide +kernel
  rcases Option.isSome_iff_exists.mp hsome with ⟨⟨g', h'⟩, hrun'⟩
  rcases (Labelled.System.run_append _).mp hrun' with ⟨g, h, out, hrun, hlast, _⟩
  have hstep : g.step (Enumeration.stored View) = some (g', out) :=
    (Labelled.System.run_singleton _).mp hlast
  have hboth := archetypes_step hrun
  exact ⟨g, h, g', out, hrun, hstep, hboth.1, (hboth.2 _ g' out hstep).1⟩

end Game

end GameFramework
