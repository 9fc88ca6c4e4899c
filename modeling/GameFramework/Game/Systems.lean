import GameFramework.Lib.Registry
import GameFramework.Game.Components
import Mathlib.Algebra.Order.Floor.Defs

/-!
# Tank systems

The systems of {lit}`tank_systems.h`.  Each loop body is a definition of its own and
each loop runs over a registry view, so the order in which entities are visited
is that of an arbitrary {lit}`Enumeration`.

Destroying an entity requires that it is valid; a system whose removal loop breaks
that requirement returns {lit}`none`.

Main results:

- Definitions {lit}`MovementSystem.update`, {lit}`InputSystem.apply`,
  {lit}`ShootSystem.process`, {lit}`ShootSystem.update`, {lit}`CollisionSystem.check`
  and {lit}`SpawnSystem.process`: the systems.
-/

namespace GameFramework

open EntityRegistry

variable {K : Type*} [Field K] [LinearOrder K] [FloatOps K]

/-- The order in which a storage enumerates the views of the systems. -/
abbrev ViewOrder := Enumeration View

/-- The registry of the game state. -/
abbrev GameRegistry (K : Type*) := Registry (Components K)

/-! ## Movement system -/

namespace MovementSystem

/-- Friction, speed limit and integration for one tank. -/
def move (deltaTime : K) (transform : Transform K) (velocity : Velocity K)
    (tank : Tank K) : Transform K × Velocity K :=
  let velocity : Velocity K :=
    { linear := ⟨velocity.linear.x * tank.friction, velocity.linear.y * tank.friction⟩
      angular := velocity.angular * tank.friction }
  let speed := b2Length velocity.linear
  let velocity : Velocity K :=
    if tank.maxSpeed < speed then
      { velocity with
        linear := ⟨velocity.linear.x * (tank.maxSpeed / speed),
          velocity.linear.y * (tank.maxSpeed / speed)⟩ }
    else velocity
  ({ position := ⟨transform.position.x + velocity.linear.x * deltaTime,
      transform.position.y + velocity.linear.y * deltaTime⟩
     rotation := transform.rotation + velocity.angular * deltaTime },
   velocity)

/-- The loop body of {lit}`MovementSystem::update` on one row. -/
def onRow (deltaTime : K) (c : Components K) : Components K :=
  match c.transform, c.velocity, c.tank with
  | some transform, some velocity, some tank =>
      { c with
        transform := some (move deltaTime transform velocity tank).1
        velocity := some (move deltaTime transform velocity tank).2 }
  | _, _, _ => c

def update (order : ViewOrder) (registry : GameRegistry K) (deltaTime : K) :
    GameRegistry K :=
  registry.each
    (registry.view order .transformVelocityTank Components.hasTransformVelocityTank)
    (onRow deltaTime)

end MovementSystem

/-! ## Input system -/

namespace InputSystem

/-- Throttle and turn for one tank.  The peer parameter has 32 bits. -/
def steer (peerId : UInt32) (input : InputState K) (transform : Transform K)
    (velocity : Velocity K) (tank : Tank K) : Velocity K :=
  if !tank.isPlayer || tank.peerId != peerId.toUInt64 then velocity
  else
    let cosRot := cosf transform.rotation
    let sinRot := sinf transform.rotation
    { linear := ⟨velocity.linear.x + cosRot * input.throttle * tank.acceleration,
        velocity.linear.y + sinRot * input.throttle * tank.acceleration⟩
      angular := input.turn * tank.turnSpeed }

/-- The loop body of {lit}`InputSystem::apply` on one row. -/
def onRow (peerId : UInt32) (input : InputState K) (c : Components K) : Components K :=
  match c.transform, c.velocity, c.tank with
  | some transform, some velocity, some tank =>
      { c with velocity := some (steer peerId input transform velocity tank) }
  | _, _, _ => c

def apply (order : ViewOrder) (registry : GameRegistry K) (peerId : UInt32)
    (input : InputState K) : GameRegistry K :=
  registry.each
    (registry.view order .transformVelocityTank Components.hasTransformVelocityTank)
    (onRow peerId input)

end InputSystem

/-! ## Shoot system -/

namespace ShootSystem

/-- Where a bullet fired from a tank starts. -/
def muzzle (transform : Transform K) : Transform K where
  position := ⟨transform.position.x + cosf transform.rotation * 3,
    transform.position.y + sinf transform.rotation * 3⟩
  rotation := transform.rotation

/-- The row of a bullet fired from a tank. -/
def bulletRow (transform : Transform K) (peerId : PeerID) (tick : UInt64) :
    Components K where
  transform := some (muzzle transform)
  velocity := some
    { linear := ⟨cosf transform.rotation * 400, sinf transform.rotation * 400⟩
      angular := 0 }
  bullet := some
    { speed := 400, lifetime := 2, ownerPeerId := peerId, spawnTick := tick }

/-- The loop body of {lit}`ShootSystem::process`.  The list pairs each firing tank
with the bullet created for it. -/
def fire (tick : UInt64) (inputEvent : InputEvent K)
    (acc : GameRegistry K × List (Entity × Entity)) (e : Entity) :
    GameRegistry K × List (Entity × Entity) :=
  match (acc.1.row e).bind (·.transform), (acc.1.row e).bind (·.tank) with
  | some transform, some tank =>
      if !tank.isPlayer || tank.peerId != inputEvent.peerId then acc
      else
        let (registry, bulletId) := acc.1.create {}
        (registry.modify bulletId fun _ => bulletRow transform inputEvent.peerId tick,
          acc.2 ++ [(e, bulletId)])
  | _, _ => acc

def process (order : ViewOrder) (registry : GameRegistry K) (tick : UInt64)
    (inputEvent : InputEvent K) : GameRegistry K × List (Entity × Entity) :=
  if !inputEvent.input.shoot then (registry, [])
  else
    (registry.view order .transformTank Components.hasTransformTank).foldl
      (fire tick inputEvent) (registry, [])

/-- The bullet has outlived its lifetime; the tick difference is unsigned. -/
def expired [FloorSemiring K] (currentTick : UInt64) (bullet : Bullet K) : Bool :=
  currentTick - bullet.spawnTick ≥ UInt64.ofNat ⌊bullet.lifetime * 60⌋₊

/-- The loop body of {lit}`ShootSystem::update` on one row: the moved row, and whether
the entity goes on the removal list. -/
def onRow [FloorSemiring K] (deltaTime : K) (currentTick : UInt64)
    (c : Components K) : Components K × Bool :=
  match c.transform, c.velocity, c.bullet with
  | some transform, some velocity, some bullet =>
      ({ c with
         transform := some
          { transform with
            position := ⟨transform.position.x + velocity.linear.x * deltaTime,
              transform.position.y + velocity.linear.y * deltaTime⟩ } },
       expired currentTick bullet)
  | _, _, _ => (c, false)

/-- The moved registry and the removal list, before the removal loop. -/
def advance [FloorSemiring K] (order : ViewOrder) (registry : GameRegistry K)
    (deltaTime : K) (currentTick : UInt64) : GameRegistry K × List Entity :=
  registry.sweep
    (registry.view order .transformVelocityBullet Components.hasTransformVelocityBullet)
    (onRow deltaTime currentTick)

/-- The registry after the removal loop, with the removed bullets. -/
def update [FloorSemiring K] (order : ViewOrder) (registry : GameRegistry K)
    (deltaTime : K) (currentTick : UInt64) : Option (GameRegistry K × List Entity) :=
  let (registry, toRemove) := advance order registry deltaTime currentTick
  (registry.destroyAll toRemove).map fun registry => (registry, toRemove)

end ShootSystem

/-! ## Collision system -/

namespace CollisionSystem

/-- The position of an entity. -/
def positionOf (registry : GameRegistry K) (e : Entity) : Option (B2Vec2 K) :=
  ((registry.row e).bind (·.transform)).map (·.position)

/-- The range test of a bullet against a destructible. -/
def inDestructibleRange (bullet dest : B2Vec2 K) (destructible : Destructible K) : Bool :=
  b2Distance bullet dest < destructible.radius + 1 / 2

/-- The range test of a bullet against a tank. -/
def inTankRange (bullet tank : B2Vec2 K) : Bool :=
  b2Distance bullet tank < 3 / 2 + 1 / 2

/-- The range test of a tank against a collectible. -/
def inCollectibleRange (tank coll : B2Vec2 K) (collectible : Collectible K) : Bool :=
  b2Distance tank coll < collectible.radius + 3 / 2

/-- What one hit does to a destructible. -/
def damage (destructible : Destructible K) : Destructible K :=
  let health := destructible.health - 25
  { destructible with
    health := health
    active := if health ≤ 0 then false else destructible.active }

/-- The inner body of the bullet against destructible loops. -/
def strikeDestructible (bulletEntity : Entity)
    (acc : GameRegistry K × List Entity) (destEntity : Entity) :
    GameRegistry K × List Entity :=
  match positionOf acc.1 bulletEntity, positionOf acc.1 destEntity,
      (acc.1.row destEntity).bind (·.destructible) with
  | some bullet, some dest, some destructible =>
      if !destructible.active then acc
      else if inDestructibleRange bullet dest destructible then
        (acc.1.modify destEntity fun c =>
            { c with destructible := some (damage destructible) },
          acc.2 ++ [bulletEntity])
      else acc
  | _, _, _ => acc

/-- Bullet against destructible: damaged registry and bullets to remove. -/
def bulletVsDestructible (registry : GameRegistry K) (bullets dests : List Entity) :
    GameRegistry K × List Entity :=
  bullets.foldl (fun acc bulletEntity => dests.foldl (strikeDestructible bulletEntity) acc)
    (registry, [])

/-- The inner test of the bullet against tank loops. -/
def strikesTank (registry : GameRegistry K) (bulletEntity tankEntity : Entity) : Bool :=
  match positionOf registry bulletEntity, (registry.row bulletEntity).bind (·.bullet),
      positionOf registry tankEntity, (registry.row tankEntity).bind (·.tank) with
  | some bulletPos, some bullet, some tankPos, some tank =>
      if bullet.ownerPeerId == tank.peerId then false
      else inTankRange bulletPos tankPos
  | _, _, _, _ => false

/-- Bullet against tank: further bullets to remove, one push per struck tank. -/
def bulletVsTank (registry : GameRegistry K) (bullets tanks : List Entity) :
    List Entity :=
  bullets.flatMap fun bulletEntity =>
    (tanks.filter (strikesTank registry bulletEntity)).map fun _ => bulletEntity

/-- The inner body of the tank against collectible loops. -/
def collect (tankEntity : Entity) (registry : GameRegistry K) (collEntity : Entity) :
    GameRegistry K :=
  match positionOf registry tankEntity, positionOf registry collEntity,
      (registry.row collEntity).bind (·.collectible) with
  | some tank, some coll, some collectible =>
      if !collectible.active then registry
      else if inCollectibleRange tank coll collectible then
        registry.modify collEntity fun c =>
          { c with collectible := some { collectible with active := false } }
      else registry
  | _, _, _ => registry

/-- Tank against collectible. -/
def tankVsCollectible (registry : GameRegistry K) (tanks colls : List Entity) :
    GameRegistry K :=
  tanks.foldl (fun registry tankEntity => colls.foldl (collect tankEntity) registry) registry

/-- The component updates and the removal list, before the removal loop. -/
def resolve (order : ViewOrder) (registry : GameRegistry K) :
    GameRegistry K × List Entity :=
  let bullets := registry.view order .transformBullet Components.hasTransformBullet
  let dests := registry.view order .transformDestructible Components.hasTransformDestructible
  let tanks := registry.view order .transformTank Components.hasTransformTank
  let colls := registry.view order .transformCollectible Components.hasTransformCollectible
  let (registry, struck) := bulletVsDestructible registry bullets dests
  let bulletsToRemove := struck ++ bulletVsTank registry bullets tanks
  (tankVsCollectible registry tanks colls, bulletsToRemove)

/-- The registry after the removal loop, with the removal list. -/
def check (order : ViewOrder) (registry : GameRegistry K) :
    Option (GameRegistry K × List Entity) :=
  let (registry, bulletsToRemove) := resolve order registry
  (registry.destroyAll bulletsToRemove).map fun registry => (registry, bulletsToRemove)

end CollisionSystem

/-! ## Spawn system -/

namespace SpawnSystem

/-- The components that each entity type is created with.  The peer parameter
has 32 bits; a tank and a bullet widen it again. -/
def row (entityType : UInt8) (position : B2Vec2 K) (rotation : K) (peerId : UInt32) :
    Components K :=
  if entityType = entityTypePlayer then
    { transform := some ⟨position, rotation⟩
      velocity := some Velocity.default
      tank := some
        { maxSpeed := 100, acceleration := 20, turnSpeed := 2, friction := 98 / 100,
          isPlayer := true, peerId := peerId.toUInt64 } }
  else if entityType = entityTypeBullet then
    { transform := some ⟨position, rotation⟩
      velocity := some Velocity.default
      bullet := some
        { speed := 400, lifetime := 2, ownerPeerId := peerId.toUInt64, spawnTick := 0 } }
  else if entityType = entityTypeCollectible then
    { transform := some ⟨position, 0⟩
      collectible := some Collectible.default }
  else if entityType = entityTypeDestructible then
    { transform := some ⟨position, 0⟩
      destructible := some Destructible.default }
  else {}

/-- Create an entity and emplace the components of its type. -/
def process (registry : GameRegistry K) (entityType : UInt8) (position : B2Vec2 K)
    (rotation : K) (peerId : UInt32) : GameRegistry K × Entity :=
  let (registry, entity) := registry.create {}
  (registry.modify entity fun _ => row entityType position rotation peerId, entity)

end SpawnSystem

end GameFramework
