import Mathlib.Algebra.Order.Field.Basic
import Mathlib.Data.Rat.Sqrt
import Mathlib.Data.UInt

/-!
# Tank components

The component records of {lit}`tank_components.h` over an arbitrary field of
scalars, the row type that the entity registry stores, and the floating point
operations the systems call.

The scalars are exact.  Trigonometry, vector length and distance come from
outside the repository and stay a parameter, {lit}`FloatOps`; results that need
them to be the true functions say so through {lit}`LawfulFloatOps`.

Main results:

- Definitions {lit}`Transform`, {lit}`Velocity`, {lit}`Tank`, {lit}`Bullet`,
  {lit}`Collectible` and {lit}`Destructible`: the components.
- Definition {lit}`Components`: one row of the registry, a value or nothing for each
  component type.
-/

namespace GameFramework

/-- Peer identifiers are 64-bit everywhere the source spells the type. -/
abbrev PeerID := UInt64

/-- A point or vector of the plane. -/
structure B2Vec2 (K : Type*) where
  x : K
  y : K
  deriving DecidableEq

/-- The floating point functions that the systems take from the C library and
from box2d. -/
class FloatOps (K : Type*) where
  cosf : K → K
  sinf : K → K
  b2Length : B2Vec2 K → K
  b2Distance : B2Vec2 K → B2Vec2 K → K

export FloatOps (cosf sinf b2Length b2Distance)

/-- The exact-arithmetic reading of the floating point functions: a rotation
gives a unit vector, and length and distance are the Euclidean ones. -/
class LawfulFloatOps (K : Type*) [Field K] [LinearOrder K] [FloatOps K] : Prop where
  cosf_sq_add_sinf_sq : ∀ rotation : K, cosf rotation ^ 2 + sinf rotation ^ 2 = 1
  b2Length_nonneg : ∀ v : B2Vec2 K, 0 ≤ b2Length v
  b2Length_sq : ∀ v : B2Vec2 K, b2Length v ^ 2 = v.x ^ 2 + v.y ^ 2
  b2Distance_eq : ∀ a b : B2Vec2 K, b2Distance a b = b2Length ⟨b.x - a.x, b.y - a.y⟩

/-- Rational operations that are exact along the horizontal axis: rotation zero,
and the rational square root for lengths. -/
instance : FloatOps ℚ where
  cosf _ := 1
  sinf _ := 0
  b2Length v := Rat.sqrt (v.x ^ 2 + v.y ^ 2)
  b2Distance a b := Rat.sqrt ((b.x - a.x) ^ 2 + (b.y - a.y) ^ 2)

/-! ## Numerals

The general instance at the numerals of the source that occur in several modules, each under a
name.  Definitions that write such a numeral share this name; without it every module has a
private copy of the general proof. -/

instance atLeastTwo_two : Nat.AtLeastTwo 2 := inferInstance

instance atLeastTwo_three : Nat.AtLeastTwo 3 := inferInstance

instance atLeastTwo_ten : Nat.AtLeastTwo 10 := inferInstance

instance atLeastTwo_twenty : Nat.AtLeastTwo 20 := inferInstance

instance atLeastTwo_twentyFive : Nat.AtLeastTwo 25 := inferInstance

instance atLeastTwo_sixty : Nat.AtLeastTwo 60 := inferInstance

instance atLeastTwo_hundred : Nat.AtLeastTwo 100 := inferInstance

/-! ## Entity types -/

/-- {lit}`ENTITY_TYPE_PLAYER` -/
def entityTypePlayer : UInt8 := 1

/-- {lit}`ENTITY_TYPE_BULLET` -/
def entityTypeBullet : UInt8 := 2

/-- {lit}`ENTITY_TYPE_COLLECTIBLE` -/
def entityTypeCollectible : UInt8 := 3

/-- {lit}`ENTITY_TYPE_DESTRUCTIBLE` -/
def entityTypeDestructible : UInt8 := 4

/-! ## Components -/

section Components

variable (K : Type*)

structure Transform where
  position : B2Vec2 K
  rotation : K
  deriving DecidableEq

structure Velocity where
  linear : B2Vec2 K
  angular : K
  deriving DecidableEq

structure Tank where
  maxSpeed : K
  acceleration : K
  turnSpeed : K
  friction : K
  isPlayer : Bool
  peerId : PeerID
  deriving DecidableEq

structure Bullet where
  speed : K
  lifetime : K
  ownerPeerId : PeerID
  spawnTick : UInt64
  deriving DecidableEq

structure Collectible where
  value : K
  radius : K
  active : Bool
  deriving DecidableEq

structure Destructible where
  health : K
  maxHealth : K
  radius : K
  active : Bool
  deriving DecidableEq

structure InputState where
  throttle : K
  turn : K
  shoot : Bool
  deriving DecidableEq

structure InputEvent where
  tick : UInt64
  peerId : PeerID
  input : InputState K
  deriving DecidableEq

/-- One row of the registry: the components that an entity carries. -/
structure Components where
  transform : Option (Transform K) := none
  velocity : Option (Velocity K) := none
  tank : Option (Tank K) := none
  bullet : Option (Bullet K) := none
  collectible : Option (Collectible K) := none
  destructible : Option (Destructible K) := none
  deriving DecidableEq

end Components

variable {K : Type*} [Field K]

/-- The default-constructed {lit}`Velocity`. -/
def Velocity.default : Velocity K where
  linear := ⟨0, 0⟩
  angular := 0

/-- The default-constructed {lit}`Collectible`. -/
def Collectible.default : Collectible K where
  value := 10
  radius := 1
  active := true

/-- The default-constructed {lit}`Destructible`. -/
def Destructible.default : Destructible K where
  health := 100
  maxHealth := 100
  radius := 2
  active := true

/-! ## View tests -/

namespace Components

variable {K : Type*}

/-- The row carries the components of {lit}`view<Transform, Velocity, Tank>`. -/
def hasTransformVelocityTank (c : Components K) : Bool :=
  c.transform.isSome && c.velocity.isSome && c.tank.isSome

/-- The row carries the components of {lit}`view<Transform, Tank>`. -/
def hasTransformTank (c : Components K) : Bool :=
  c.transform.isSome && c.tank.isSome

/-- The row carries the components of {lit}`view<Transform, Velocity, Bullet>`. -/
def hasTransformVelocityBullet (c : Components K) : Bool :=
  c.transform.isSome && c.velocity.isSome && c.bullet.isSome

/-- The row carries the components of {lit}`view<Transform, Bullet>`. -/
def hasTransformBullet (c : Components K) : Bool :=
  c.transform.isSome && c.bullet.isSome

/-- The row carries the components of {lit}`view<Transform, Collectible>`. -/
def hasTransformCollectible (c : Components K) : Bool :=
  c.transform.isSome && c.collectible.isSome

/-- The row carries the components of {lit}`view<Transform, Destructible>`. -/
def hasTransformDestructible (c : Components K) : Bool :=
  c.transform.isSome && c.destructible.isSome

end Components

/-- The views that the systems iterate, named by their component lists. -/
inductive View where
  | transformVelocityTank
  | transformTank
  | transformVelocityBullet
  | transformBullet
  | transformCollectible
  | transformDestructible
  deriving DecidableEq

end GameFramework
