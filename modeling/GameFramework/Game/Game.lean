import GameFramework.Lib.Transition
import GameFramework.Game.Systems

/-!
# The game

{lit}`Game` with its public operations, as a labelled system: a label is one call,
and its output records what the call created, fired and destroyed.  A call is
not possible exactly when it would destroy an entity that is no longer valid.

Main results:

- Definition {lit}`Game.step`, {lit}`Game.queueInput`, {lit}`Game.spawn` and
  {lit}`Game.destroyEntity`: the operations.
- Definition {lit}`Game.init`: the constructor.
- Definition {lit}`Game.system`: the labelled system of all calls.
-/

namespace GameFramework

open EntityRegistry

/-! ## State and calls -/

/-- The tick count and the registry of {lit}`GameState`, with the server flag. -/
structure Game (K : Type*) where
  isServer : Bool
  tickCount : UInt64
  registry : GameRegistry K

/-- What a call records: an entity spawned for a peer, a bullet fired by a tank,
and entities destroyed by expiry, by a collision or by request. -/
inductive GameEvent where
  | spawned (entityType : UInt8) (entity : Entity) (peerId : PeerID)
  | fired (tank bullet : Entity)
  | expired (entity : Entity)
  | collided (entity : Entity)
  | destroyed (entity : Entity)
  deriving DecidableEq

/-- The calls that change a game. -/
inductive GameCall (K : Type*) where
  | step (order : ViewOrder)
  | queueInput (order : ViewOrder) (input : InputState K) (peerId : PeerID)
  | spawnTank (position : B2Vec2 K) (rotation : K) (peerId : PeerID)
  | spawnBullet (position : B2Vec2 K) (rotation : K) (peerId : PeerID)
  | spawnCollectible (position : B2Vec2 K)
  | spawnDestructible (position : B2Vec2 K)
  | destroyEntity (entity : Entity)

namespace Game

variable {K : Type*} [Field K] [LinearOrder K] [FloatOps K]

/-- {lit}`FIXED_TIMESTEP` -/
def fixedTimestep : K := 1 / 60

/-- {lit}`Game::step`. -/
def step [FloorSemiring K] (order : ViewOrder) (g : Game K) :
    Option (Game K × List GameEvent) :=
  let tickCount := g.tickCount + 1
  let registry := MovementSystem.update order g.registry fixedTimestep
  match ShootSystem.update order registry fixedTimestep tickCount with
  | none => none
  | some (registry, expired) =>
      match CollisionSystem.check order registry with
      | none => none
      | some (registry, removed) =>
          some ({ g with tickCount := tickCount, registry := registry },
            expired.map .expired ++ removed.map .collided)

/-- {lit}`Game::queueInput`: the 64-bit peer identifier is narrowed for the input
system and kept for the shoot system. -/
def queueInput (order : ViewOrder) (input : InputState K) (peerId : PeerID) (g : Game K) :
    Game K × List GameEvent :=
  let registry := InputSystem.apply order g.registry peerId.toUInt32 input
  if input.shoot then
    let (registry, shots) :=
      ShootSystem.process order registry g.tickCount ⟨g.tickCount, peerId, input⟩
    ({ g with registry := registry }, shots.map fun shot => .fired shot.1 shot.2)
  else ({ g with registry := registry }, [])

/-- The spawn calls: {lit}`SpawnSystem::process` with the peer identifier narrowed. -/
def spawn (entityType : UInt8) (position : B2Vec2 K) (rotation : K) (peerId : PeerID)
    (g : Game K) : Game K × List GameEvent :=
  let (registry, entity) :=
    SpawnSystem.process g.registry entityType position rotation peerId.toUInt32
  ({ g with registry := registry }, [.spawned entityType entity peerId])

def spawnTank (position : B2Vec2 K) (rotation : K) (peerId : PeerID) :
    Game K → Game K × List GameEvent :=
  spawn entityTypePlayer position rotation peerId

def spawnBullet (position : B2Vec2 K) (rotation : K) (peerId : PeerID) :
    Game K → Game K × List GameEvent :=
  spawn entityTypeBullet position rotation peerId

def spawnCollectible (position : B2Vec2 K) : Game K → Game K × List GameEvent :=
  spawn entityTypeCollectible position 0 0

def spawnDestructible (position : B2Vec2 K) : Game K → Game K × List GameEvent :=
  spawn entityTypeDestructible position 0 0

/-- {lit}`Game::destroyEntity`: an invalid entity is ignored. -/
def destroyEntity (entity : Entity) (g : Game K) : Game K × List GameEvent :=
  match g.registry.destroy entity with
  | none => (g, [])
  | some registry => ({ g with registry := registry }, [.destroyed entity])

def setupInitialGameState (g : Game K) : Game K :=
  let g := (spawnCollectible ⟨10, 10⟩ g).1
  let g := (spawnCollectible ⟨-10, 15⟩ g).1
  let g := (spawnCollectible ⟨15, -10⟩ g).1
  let g := (spawnDestructible ⟨20, 0⟩ g).1
  let g := (spawnDestructible ⟨-20, 5⟩ g).1
  (spawnDestructible ⟨0, -25⟩ g).1

/-- The constructor. -/
def init (isServer : Bool) : Game K :=
  let g : Game K := { isServer := isServer, tickCount := 0, registry := Registry.empty }
  if isServer then setupInitialGameState g else g

/-- One call on a game. -/
def call [FloorSemiring K] (g : Game K) : GameCall K → Option (Game K × List GameEvent)
  | .step order => g.step order
  | .queueInput order input peerId => some (g.queueInput order input peerId)
  | .spawnTank position rotation peerId => some (g.spawnTank position rotation peerId)
  | .spawnBullet position rotation peerId => some (g.spawnBullet position rotation peerId)
  | .spawnCollectible position => some (g.spawnCollectible position)
  | .spawnDestructible position => some (g.spawnDestructible position)
  | .destroyEntity entity => some (g.destroyEntity entity)

/-- The game as a labelled system over its calls. -/
def system (K : Type*) [Field K] [LinearOrder K] [FloatOps K] [FloorSemiring K] :
    Labelled.System (Game K) (GameCall K) GameEvent where
  step := call

end Game

end GameFramework
