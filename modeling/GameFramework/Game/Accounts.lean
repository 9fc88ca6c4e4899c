import GameFramework.Game.CollisionOutcome
import GameFramework.Game.LifeCycle
import GameFramework.Game.Lifetime
import GameFramework.Game.Population
import GameFramework.Game.Spacing
import GameFramework.Lib.Stock

/-!
# Shots and damage

Where the shots of a game have gone.  A bullet is in flight until it expires or collides, and a
collision with a destructible costs that destructible 25 of its health; nothing else does.  So the
bullets and the health of all destructibles together account for every collision, whatever the
order of the loops and however many bullets and destructibles meet.

Main results:

- Definition {lit}`Game.inFlight`: the number of bullets.
- Definition {lit}`Game.damage`: the health that all destructibles together have lost.
- Theorem {lit}`Game.inFlight_step` and {lit}`Game.damage_step`: the accounts of a step.
- Theorem {lit}`Game.accounts`: the accounts of all calls together.
-/

namespace GameFramework

open EntityRegistry Labelled

/-! ## What is counted -/

/-- The event adds a bullet. -/
def GameEvent.isLaunch : GameEvent → Bool
  | .spawned entityType _ _ => entityType == entityTypeBullet
  | .fired _ _ => true
  | _ => false

/-- The event is the expiry of a bullet. -/
def GameEvent.isExpiry : GameEvent → Bool
  | .expired _ => true
  | _ => false

/-- The event is the collision of a bullet. -/
def GameEvent.isCollision : GameEvent → Bool
  | .collided _ => true
  | _ => false

variable {K : Type*}

/-- One for a bullet. -/
def Components.shots (c : Components K) : ℕ :=
  if c.bullet.isSome then 1 else 0

theorem Components.shots_congr {c c' : Components K} (h : c'.bullet = c.bullet) :
    c'.shots = c.shots := by
  rw [shots, shots, h]

variable [Field K]

/-- The health that a destructible has lost. -/
def Components.lost (c : Components K) : K :=
  c.destructible.elim 0 fun d => d.maxHealth - d.health

/-- What is no destructible has lost nothing. -/
theorem Components.lost_of_none {c : Components K} (h : c.destructible = none) : c.lost = 0 := by
  rw [lost, h]
  rfl

namespace Game

/-- The number of bullets. -/
def inFlight (g : Game K) : ℕ :=
  g.registry.total Components.shots

/-- The health that all destructibles together have lost. -/
def damage (g : Game K) : K :=
  g.registry.total Components.lost

end Game

variable [LinearOrder K] [FloatOps K]

/-! ## Destructibles -/

/-- Movement leaves destructibles alone. -/
theorem MovementSystem.destructible_onRow (deltaTime : K) (c : Components K) :
    (onRow deltaTime c).destructible = c.destructible := by
  unfold onRow
  split <;> rfl

omit [LinearOrder K] in
/-- So do inputs. -/
theorem InputSystem.destructible_onRow (peerId : UInt32) (input : InputState K)
    (c : Components K) : (onRow peerId input c).destructible = c.destructible := by
  unfold onRow
  split <;> rfl

variable [FloorSemiring K]

omit [FloatOps K] in
/-- So does the flight of bullets. -/
theorem ShootSystem.destructible_onRow (deltaTime : K) (tick : UInt64) (c : Components K) :
    (onRow deltaTime tick c).1.destructible = c.destructible := by
  unfold onRow
  split <;> rfl

namespace CollisionSystem

omit [FloatOps K] in
/-- Damage is 25 for each hit that the destructible bears. -/
theorem lost_damagedBy (n : ℕ) (d : Destructible K) :
    (damagedBy n d).maxHealth - (damagedBy n d).health =
      d.maxHealth - d.health + min n (capacity d) • 25 := by
  rw [nsmul_eq_mul, damagedBy]
  split
  · simp only
    ring
  · rename_i hactive
    rw [capacity, if_neg hactive, Nat.min_zero, Nat.cast_zero, zero_mul, add_zero]

omit [FloorSemiring K] in
/-- How often an entity is noted as a target. -/
theorem count_noted (order : ViewOrder) (r : GameRegistry K) (d : Entity) :
    ((noted order r).2.map Prod.snd).count d = (markedFor order r d).length := by
  rw [markedFor, Volley.account, List.length_map, ← List.countP_eq_length_filter, List.count,
    List.countP_map]
  refine List.countP_congr fun note _ => ?_
  simp

omit [FloorSemiring K] in
/-- The removal list names one bullet for each hit and then the bullets that meet tanks. -/
theorem length_resolve (order : ViewOrder) (r : GameRegistry K) :
    (resolve order r).2.length =
      ((noted order r).2.map Prod.snd).length + (markedForTanks order r).length := by
  have hsplit : (resolve order r).2 =
      (bulletVsDestructible r (bullets order r) (destructibles order r)).2 ++
        markedForTanks order r := rfl
  rw [hsplit, forget_noted, List.length_append, List.length_map, Volley.forget]
  simp only [List.length_map]

end CollisionSystem

namespace Game

variable {isServer : Bool} {order : ViewOrder} {g g' : Game K} {call : GameCall K}
  {calls : List (GameCall K)} {h out : List GameEvent} {e : Entity} {p : PeerID}

/-! ## A step -/

/-- Movement and expiry leave bullets and destructibles as they are, if they leave them. -/
theorem exists_row_of_row_beforeCheck {c : Components K}
    (hrow : (g.beforeCheck order).row e = some c) :
    ∃ c₀, g.registry.row e = some c₀ ∧ c.bullet = c₀.bullet ∧
      c.destructible = c₀.destructible := by
  rw [row_beforeCheck] at hrow
  rcases Option.bind_eq_some_iff.mp hrow with ⟨c₁, hc₁, hupdate⟩
  rcases Option.map_eq_some_iff.mp hc₁ with ⟨c₀, hc₀, rfl⟩
  rw [ShootSystem.rowUpdate] at hupdate
  split at hupdate
  · contradiction
  · cases hupdate
    refine ⟨c₀, hc₀, ?_, ?_⟩
    · rw [ShootSystem.bullet_onRow, MovementSystem.bullet_onRow]
    · rw [ShootSystem.destructible_onRow, MovementSystem.destructible_onRow]

/-- What a step removes is a bullet. -/
theorem exists_bullet_of_released (hstep : g.step order = some (g', out))
    (he : e ∈ (books K).released out) :
    ∃ c, g.registry.row e = some c ∧ c.bullet.isSome := by
  rw [(books_step hstep).2] at he
  rcases List.mem_append.mp he with hexpired | hcollided
  · rcases (ShootSystem.mem_expiredBullets order _ _ _).mp hexpired with ⟨c, hrow, htime⟩
    rw [MovementSystem.row_update] at hrow
    rcases Option.map_eq_some_iff.mp hrow with ⟨c₀, hc₀, rfl⟩
    refine ⟨c₀, hc₀, ?_⟩
    by_contra hsome
    have hnone : c₀.bullet = none := Option.not_isSome_iff_eq_none.mp hsome
    have hview : (MovementSystem.onRow fixedTimestep c₀).hasTransformVelocityBullet = false := by
      simp [Components.hasTransformVelocityBullet, MovementSystem.bullet_onRow, hnone]
    rw [ShootSystem.onRow_of_not_view _ _ hview] at htime
    cases htime
  · have hbullets := CollisionSystem.mem_bullets_of_mem_resolve hcollided
    rcases Registry.mem_view.mp hbullets with ⟨c, hrow, htest⟩
    rcases exists_row_of_row_beforeCheck hrow with ⟨c₀, hc₀, hbullet, _⟩
    simp only [Components.hasTransformBullet, Bool.and_eq_true, hbullet] at htest
    exact ⟨c₀, hc₀, htest.2⟩

/-- How often a step records expiries and collisions. -/
theorem countP_step (hstep : g.step order = some (g', out)) :
    out.countP GameEvent.isExpiry + out.countP GameEvent.isCollision =
        ((books K).released out).length ∧
      out.countP GameEvent.isCollision =
        (CollisionSystem.resolve order (g.beforeCheck order)).2.length ∧
      out.countP GameEvent.isLaunch = 0 := by
  rw [(books_step hstep).2, out_of_step hstep]
  simp [List.countP_map, Function.comp_def, GameEvent.isExpiry, GameEvent.isCollision,
    GameEvent.isLaunch]

/-- An entity outlives a step that does not release it. -/
theorem valid_step_iff_released (hstep : g.step order = some (g', out)) :
    g'.registry.valid e ↔ g.registry.valid e ∧ e ∉ (books K).released out := by
  have hiff := (ledger_step hstep).live_iff e
  rw [Books.LiveAfter, (books_step hstep).1] at hiff
  simpa [books, Registry.valid] using hiff

/-- The row of one entity is a bullet after a step if it was one and is not released. -/
theorem shots_step (hstep : g.step order = some (g', out)) :
    (g'.registry.row e).elim 0 Components.shots + ((books K).released out).count e =
      (g.registry.row e).elim 0 Components.shots := by
  have hvalid := valid_step_iff_released (e := e) hstep
  rw [(ledger_step hstep).nodup.count]
  by_cases he : e ∈ (books K).released out
  · rcases exists_bullet_of_released hstep he with ⟨c, hrow, hbullet⟩
    have hnone : g'.registry.row e = none := by
      by_contra hsome
      rcases Option.ne_none_iff_exists'.mp hsome with ⟨c', hc'⟩
      exact (hvalid.mp (Registry.valid_of_row hc')).2 he
    simp [hnone, hrow, he, Components.shots, hbullet]
  · rw [if_neg he, Nat.add_zero]
    cases hrow : g'.registry.row e with
    | some c' =>
        rcases exists_row_of_row_step hstep hrow with ⟨c, n, m, hc, _, rfl⟩
        rw [hc]
        refine Components.shots_congr ?_
        change (ShootSystem.onRow _ _ _).1.bullet = _
        rw [ShootSystem.bullet_onRow, MovementSystem.bullet_onRow]
    | none =>
        have hgone : g.registry.row e = none := by
          by_contra hsome
          rcases Option.ne_none_iff_exists'.mp hsome with ⟨c, hc⟩
          rcases Registry.valid_iff_exists_row.mp
            (hvalid.mpr ⟨Registry.valid_of_row hc, he⟩) with ⟨c', hc'⟩
          rw [hrow] at hc'
          cases hc'
        rw [hgone]

/-- In a step no bullet is lost: what is not in flight any more has expired or collided. -/
theorem inFlight_step (hstep : g.step order = some (g', out)) :
    g'.inFlight + (out.countP GameEvent.isExpiry + out.countP GameEvent.isCollision) =
      g.inFlight := by
  have htotal : g'.registry.total Components.shots + ((books K).released out).length • 1 =
      g.registry.total Components.shots + ([] : List Entity).length • 0 := by
    refine Registry.total_balance (step_spec hstep).2.1 (fun e he => ?_)
      (fun e he => absurd he List.not_mem_nil) fun e => ?_
    · rcases exists_bullet_of_released hstep he with ⟨c, hrow, _⟩
      exact Registry.lt_next_of_row hrow
    · rw [smul_eq_mul, mul_one, smul_zero, add_zero]
      exact shots_step hstep
  rw [(countP_step hstep).1]
  rw [smul_eq_mul, mul_one, smul_zero, add_zero] at htotal
  exact htotal

section Ordered

variable [IsStrictOrderedRing K]

omit [IsStrictOrderedRing K] in
/-- A destructible meets the collision loops as it is. -/
theorem row_beforeCheck_of_destructible {c : Components K} (hrow : g.registry.row e = some c)
    (hc : Archetype.destructible.Fits c) : (g.beforeCheck order).row e = some c := by
  have hview : c.hasTransformVelocityBullet = false := by
    simp [Components.hasTransformVelocityBullet, hc.bullet_eq_none (by decide)]
  rw [row_beforeCheck, hrow, Option.map_some, Option.bind_some,
    MovementSystem.onRow_of_not_tank (hc.tank_eq_none (by decide)), ShootSystem.rowUpdate,
    ShootSystem.onRow_of_not_view _ _ hview]
  rfl

/-- A destructible is still there after a step, with the hits that it could take. -/
theorem row_step_of_destructible (hstep : g.step order = some (g', out))
    (hsound : CollisionSystem.Sound (g.beforeCheck order)) {c : Components K}
    (hrow : g.registry.row e = some c) (hc : Archetype.destructible.Fits c) :
    g'.registry.row e = some (CollisionSystem.outcomeRow (g.beforeCheck order) e c) := by
  have hbefore : (g.beforeCheck order).row e = some c := row_beforeCheck_of_destructible hrow hc
  have hkept : .collided e ∉ out := by
    rw [mem_collided_iff hstep]
    intro hmem
    rcases Registry.mem_view.mp (CollisionSystem.mem_bullets_of_mem_resolve hmem) with
      ⟨c₁, hc₁, htest⟩
    rw [hbefore] at hc₁
    cases hc₁
    simp [Components.hasTransformBullet, hc.bullet_eq_none (by decide)] at htest
  rw [(step_spec hstep).2.2 e, if_neg hkept, CollisionSystem.row_resolve_eq order hsound, hbefore,
    Option.map_some]

omit [IsStrictOrderedRing K] in
/-- What is no destructible does not become one in a step, nor for its collision system. -/
theorem destructible_eq_none_of_step (hstep : g.step order = some (g', out))
    (hnone : ∀ c, g.registry.row e = some c → c.destructible = none) :
    destructibleOf (g.beforeCheck order) e = none ∧
      ∀ c', g'.registry.row e = some c' → c'.destructible = none := by
  constructor
  · refine Option.bind_eq_none_iff.mpr fun c₁ hc₁ => ?_
    rcases exists_row_of_row_beforeCheck hc₁ with ⟨c, hc, _, hsame⟩
    exact hsame.trans (hnone c hc)
  · intro c' hrow
    rcases exists_row_of_row_step hstep hrow with ⟨c, n, m, hc, _, rfl⟩
    change bulletEngagement.absorb^[n] (ShootSystem.onRow _ _ _).1.destructible = none
    rw [ShootSystem.destructible_onRow, MovementSystem.destructible_onRow, hnone c hc,
      ← Option.not_isSome_iff_eq_none, Engagement.isSome_iterate_absorb]
    exact Bool.false_ne_true

/-- The damage that a step does to the row of one entity. -/
theorem lost_step (hstep : g.step order = some (g', out))
    (hsound : CollisionSystem.Sound (g.beforeCheck order))
    (hfits : ∀ c, g.registry.row e = some c → ∃ a : Archetype, a.Fits c) :
    (g'.registry.row e).elim 0 Components.lost =
      (g.registry.row e).elim 0 Components.lost +
        (CollisionSystem.markedFor order (g.beforeCheck order) e).length • (25 : K) := by
  by_cases hkind : ∃ c, g.registry.row e = some c ∧ Archetype.destructible.Fits c
  · rcases hkind with ⟨c, hrow, hc⟩
    rcases Option.isSome_iff_exists.mp (hc.isSome (k := .destructible) (by decide)) with ⟨d, hd⟩
    have hof : destructibleOf (g.beforeCheck order) e = some d := by
      simp [destructibleOf, Engagement.of, row_beforeCheck_of_destructible hrow hc,
        bulletEngagement, hd]
    rw [row_step_of_destructible hstep hsound hrow hc, hrow,
      CollisionSystem.length_markedFor order hof (hsound e d hof)]
    simp only [Option.elim_some, Components.lost, CollisionSystem.outcomeRow, hd,
      Option.map_some]
    exact CollisionSystem.lost_damagedBy _ d
  · have hnone : ∀ c, g.registry.row e = some c → c.destructible = none := by
      intro c hrow
      rcases hfits c hrow with ⟨a, ha⟩
      refine ha.destructible_eq_none fun heq => hkind ⟨c, hrow, ?_⟩
      exact heq ▸ ha
    have hzero : ∀ r : GameRegistry K, (∀ c, r.row e = some c → c.destructible = none) →
        (r.row e).elim 0 Components.lost = 0 := by
      intro r hr
      cases hrow : r.row e with
      | none => rfl
      | some c => exact Components.lost_of_none (hr c hrow)
    rcases destructible_eq_none_of_step hstep hnone with ⟨hof, hafter⟩
    rw [hzero _ hnone, hzero _ hafter, CollisionSystem.markedFor_of_none hof]
    simp

/-- In a step every collision with a destructible costs 25 of its health, and nothing else does. -/
theorem damage_step (hstep : g.step order = some (g', out))
    (hsound : CollisionSystem.Sound (g.beforeCheck order))
    (hfits : ∀ e c, g.registry.row e = some c → ∃ a : Archetype, a.Fits c) :
    g'.damage + 25 * ((CollisionSystem.markedForTanks order (g.beforeCheck order)).length : K) =
      g.damage + 25 * (out.countP GameEvent.isCollision : K) := by
  have htargets : ∀ e ∈ (CollisionSystem.noted order (g.beforeCheck order)).2.map Prod.snd,
      e < g.registry.next := by
    intro e he
    rw [← List.count_pos_iff, CollisionSystem.count_noted] at he
    have hsome : (destructibleOf (g.beforeCheck order) e).isSome := by
      by_contra hnone
      rw [CollisionSystem.markedFor_of_none (Option.not_isSome_iff_eq_none.mp hnone)] at he
      exact Nat.lt_irrefl 0 he
    rcases Option.isSome_iff_exists.mp hsome with ⟨d, hd⟩
    rcases Option.bind_eq_some_iff.mp hd with ⟨c, hc, _⟩
    rcases exists_row_of_row_beforeCheck hc with ⟨c₀, hc₀, _⟩
    exact Registry.lt_next_of_row hc₀
  have htotal : g'.registry.total Components.lost + ([] : List Entity).length • (0 : K) =
      g.registry.total Components.lost +
        ((CollisionSystem.noted order (g.beforeCheck order)).2.map Prod.snd).length •
          (25 : K) := by
    refine Registry.total_balance (step_spec hstep).2.1
      (fun e he => absurd he List.not_mem_nil) htargets fun e => ?_
    rw [CollisionSystem.count_noted, smul_zero, add_zero]
    exact lost_step hstep hsound (hfits e)
  rw [smul_zero, add_zero, nsmul_eq_mul] at htotal
  rw [damage, damage, htotal, (countP_step hstep).2.1, CollisionSystem.length_resolve]
  push_cast
  ring

end Ordered

/-! ## The other calls -/

section QueueInput

variable (order : ViewOrder) (input : InputState K) (peerId : PeerID) (g : Game K)

omit [LinearOrder K] [FloorSemiring K] in
/-- An input call records launches and nothing else. -/
theorem countP_queueInput :
    (g.queueInput order input peerId).2.countP GameEvent.isLaunch =
        (g.queueInput order input peerId).2.length ∧
      (g.queueInput order input peerId).2.countP GameEvent.isExpiry = 0 ∧
      (g.queueInput order input peerId).2.countP GameEvent.isCollision = 0 := by
  rcases exists_shots_of_queueInput order input peerId g with ⟨shots, hout, _, _⟩
  rw [hout]
  simp [List.countP_map, Function.comp_def, GameEvent.isLaunch, GameEvent.isExpiry,
    GameEvent.isCollision]

omit [LinearOrder K] [FloorSemiring K] in
/-- An input call adds the weight of its bullets to what it only steers. -/
theorem total_queueInput {M : Type*} [AddCommMonoid M] {weight : Components K → M} {a : M}
    (hsteer : ∀ c, weight (InputSystem.onRow peerId.toUInt32 input c) = weight c)
    (hbullet : ∀ transform, weight (ShootSystem.bulletRow transform peerId g.tickCount) = a) :
    (g.queueInput order input peerId).1.registry.total weight =
      g.registry.total weight + (g.queueInput order input peerId).2.length • a := by
  rcases exists_shots_of_queueInput order input peerId g with ⟨shots, hout, _, hnext⟩
  have hlength : (g.queueInput order input peerId).2.length = shots.length := by
    rw [hout, List.length_map]
  rw [hlength]
  refine Registry.total_grow hnext (fun e he => ?_) fun e hle hlt => ?_
  · rw [row_queueInput order input peerId g he]
    cases g.registry.row e with
    | none => rfl
    | some c => exact hsteer c
  · rw [← hnext] at hlt
    rcases exists_bulletRow_of_queueInput order input peerId g hle hlt with ⟨transform, hrow⟩
    rw [hrow]
    exact hbullet transform

omit [LinearOrder K] [FloorSemiring K] in
/-- An input call puts its shots in flight, and does no damage. -/
theorem accounts_queueInput :
    (g.queueInput order input peerId).1.inFlight =
        g.inFlight + (g.queueInput order input peerId).2.countP GameEvent.isLaunch ∧
      (g.queueInput order input peerId).1.damage = g.damage := by
  constructor
  · have hbullets := total_queueInput order input peerId g (a := 1)
      (fun c => Components.shots_congr (InputSystem.bullet_onRow _ _ c)) fun _ => rfl
    rw [inFlight, hbullets, (countP_queueInput order input peerId g).1, smul_eq_mul, mul_one]
    rfl
  · have hsteer : ∀ c : Components K,
        (InputSystem.onRow peerId.toUInt32 input c).lost = c.lost := by
      intro c
      rw [Components.lost, InputSystem.destructible_onRow, Components.lost]
    have hhealth := total_queueInput order input peerId g (a := 0) hsteer fun _ => rfl
    rw [damage, hhealth, smul_zero, add_zero]
    rfl

end QueueInput

omit [LinearOrder K] [FloatOps K] [FloorSemiring K] in
/-- The row of a spawned entity is a bullet or not by its type, and has lost no health. -/
theorem weights_row (entityType : UInt8) (position : B2Vec2 K) (rotation : K) (peerId : UInt32) :
    (SpawnSystem.row entityType position rotation peerId).shots =
        (if entityType = entityTypeBullet then 1 else 0) ∧
      (SpawnSystem.row entityType position rotation peerId).lost = 0 := by
  constructor
  · rw [Components.shots]
    refine if_congr ⟨entityType_of_bullet_row, ?_⟩ rfl rfl
    rintro rfl
    rcases (timed_row position rotation peerId).bullet with ⟨bullet, hbullet, _⟩
    rw [hbullet]
    rfl
  · rw [Components.lost]
    cases hd : (SpawnSystem.row entityType position rotation peerId).destructible with
    | none => rfl
    | some d =>
        rw [destructible_row hd]
        exact sub_self _

omit [LinearOrder K] [FloatOps K] [FloorSemiring K] in
/-- A spawn call adds the weight of its row. -/
theorem total_spawn {M : Type*} [AddCommMonoid M] (weight : Components K → M)
    (entityType : UInt8) (position : B2Vec2 K) (rotation : K) (peerId : PeerID) (g : Game K) :
    (g.spawn entityType position rotation peerId).1.registry.total weight =
      g.registry.total weight +
        1 • weight (SpawnSystem.row entityType position rotation peerId.toUInt32) := by
  refine Registry.total_grow rfl (fun e he => ?_) fun e hle hlt => ?_
  · rw [row_spawn, if_neg (Nat.ne_of_lt he)]
  · rw [row_spawn, if_pos (Nat.le_antisymm (Nat.le_of_lt_succ hlt) hle)]
    rfl

omit [LinearOrder K] [FloatOps K] [FloorSemiring K] in
/-- A spawn call puts a bullet in flight if it spawns one, and does no damage. -/
theorem accounts_spawn (entityType : UInt8) (position : B2Vec2 K) (rotation : K)
    (peerId : PeerID) (g : Game K) :
    (g.spawn entityType position rotation peerId).1.inFlight =
        g.inFlight + (g.spawn entityType position rotation peerId).2.countP GameEvent.isLaunch ∧
      (g.spawn entityType position rotation peerId).1.damage = g.damage := by
  have hweights := weights_row entityType position rotation peerId.toUInt32
  constructor
  · rw [inFlight, total_spawn, hweights.1, one_smul]
    simp [inFlight, spawn, List.countP_singleton, GameEvent.isLaunch]
  · rw [damage, total_spawn, hweights.2, smul_zero, add_zero]
    rfl

omit [LinearOrder K] [FloatOps K] [FloorSemiring K] in
/-- The constructor makes no bullets, and destructibles in full health. -/
theorem accounts_init (isServer : Bool) :
    (init isServer : Game K).inFlight = 0 ∧ (init isServer : Game K).damage = 0 := by
  have hrows : ∀ e c, (init isServer : Game K).registry.row e = some c →
      c.shots = 0 ∧ c.lost = 0 := by
    refine row_init (fun entityType htype position rotation peerId => ?_) isServer
    rcases weights_row entityType position rotation peerId with ⟨hshots, hlost⟩
    refine ⟨hshots.trans (if_neg ?_), hlost⟩
    rintro rfl
    exact absurd htype (by decide)
  exact ⟨Registry.total_eq_zero fun e c hrow => (hrows e c hrow).1,
    Registry.total_eq_zero fun e c hrow => (hrows e c hrow).2⟩

/-! ## Runs -/

/-- How often the next call marks a bullet on account of a tank. -/
def tankHits (g : Game K) : GameCall K → ℕ
  | .step order => (CollisionSystem.markedForTanks order (g.beforeCheck order)).length
  | _ => 0

section Ordered

variable [IsStrictOrderedRing K]

/-- The accounts of one call. -/
theorem accounts_call (hrun : (system K).run (init isServer) calls = some (g, h))
    (hcall : g.call call = some (g', out)) (hkept : ∀ entity, call ≠ .destroyEntity entity) :
    g'.inFlight + (out.countP GameEvent.isExpiry + out.countP GameEvent.isCollision) =
        g.inFlight + out.countP GameEvent.isLaunch ∧
      g'.damage + 25 * (g.tankHits call : K) =
        g.damage + 25 * (out.countP GameEvent.isCollision : K) := by
  rcases call_cases hcall with ⟨order, rfl, hstep⟩ | ⟨order, input, peerId, rfl, rfl, rfl⟩ |
    ⟨entityType, position, rotation, peerId, hne, rfl, rfl⟩ | ⟨entity, rfl, rfl, rfl⟩
  · rw [inFlight_step hstep, (countP_step hstep).2.2]
    exact ⟨rfl, damage_step hstep (sound_beforeCheck hrun order) (exists_fits_of_reachable hrun)⟩
  · rcases accounts_queueInput order input peerId g with ⟨hbullets, hdamage⟩
    rcases countP_queueInput order input peerId g with ⟨_, hexpiry, hcollision⟩
    rw [hbullets, hdamage, hexpiry, hcollision]
    exact ⟨rfl, by simp [tankHits]⟩
  · rcases accounts_spawn entityType position rotation peerId g with ⟨hbullets, hdamage⟩
    have hhits : g.tankHits call = 0 := by
      cases call with
      | step order => exact absurd rfl (hne order)
      | _ => rfl
    rw [hbullets, hdamage, hhits]
    exact ⟨rfl, by simp [spawn, GameEvent.isCollision]⟩
  · exact absurd rfl (hkept entity)

/-- The accounts of any calls in a reachable game. -/
theorem accounts_run (hreached : (system K).run (init isServer) calls = some (g, h))
    {later : List (GameCall K)} (hrun : (system K).run g later = some (g', out))
    (hkept : ∀ call ∈ later, ∀ entity, call ≠ .destroyEntity entity) :
    g'.inFlight + (out.countP GameEvent.isExpiry + out.countP GameEvent.isCollision) =
        g.inFlight + out.countP GameEvent.isLaunch ∧
      g'.damage + 25 * ((system K).tally tankHits g later : K) =
        g.damage + 25 * (out.countP GameEvent.isCollision : K) := by
  induction later using List.reverseRecOn generalizing g' out with
  | nil =>
      cases hrun
      exact ⟨rfl, by simp [System.tally]⟩
  | append_singleton later call ih =>
      rcases (System.run_append _).mp hrun with ⟨g₁, h₁, out, hpre, hlast, rfl⟩
      have hcall := (System.run_singleton _).mp hlast
      have hreached₁ := (System.run_append _).mpr ⟨_, _, _, hreached, hpre, rfl⟩
      rcases ih hpre fun c hc => hkept c (List.mem_append_left _ hc) with ⟨hbullets, hdamage⟩
      rcases accounts_call hreached₁ hcall (hkept call (by simp)) with ⟨hbullets', hdamage'⟩
      rw [(system K).tally_concat tankHits hpre (Option.isSome_iff_exists.mpr ⟨_, hcall⟩)]
      simp only [List.countP_append]
      refine ⟨by omega, ?_⟩
      push_cast
      linarith

/-- Whatever the calls are, every bullet that was launched is in flight, has expired or has
collided; and the health that is lost pays for the collisions, those with tanks apart. -/
theorem accounts (hrun : (system K).run (init isServer) calls = some (g, h))
    (hkept : ∀ call ∈ calls, ∀ entity, call ≠ .destroyEntity entity) :
    g.inFlight + (h.countP GameEvent.isExpiry + h.countP GameEvent.isCollision) =
        h.countP GameEvent.isLaunch ∧
      g.damage + 25 * ((system K).tally tankHits (init isServer) calls : K) =
        25 * (h.countP GameEvent.isCollision : K) := by
  rcases accounts_init (K := K) isServer with ⟨hbullets, hdamage⟩
  have hstart : (system K).run (init isServer) [] = some (init isServer, []) := rfl
  simpa only [hbullets, hdamage, zero_add] using accounts_run hstart hrun hkept

/-- A shot at a destructible, which removes the bullet. -/
def shotCalls : List (GameCall ℚ) :=
  [.spawnTank ⟨10, 0⟩ 0 7,
    .queueInput (Enumeration.stored View) { throttle := 0, turn := 0, shoot := true } 7,
    .step (Enumeration.stored View)]

/-- The shot pays for itself. -/
theorem accounts_shot :
    ∃ g h, (system ℚ).run (init true) shotCalls = some (g, h) ∧
      h.countP GameEvent.isCollision = 1 ∧
      g.inFlight + (h.countP GameEvent.isExpiry + h.countP GameEvent.isCollision) =
        h.countP GameEvent.isLaunch ∧
      g.damage + 25 * ((system ℚ).tally tankHits (init true) shotCalls : ℚ) =
        25 * (h.countP GameEvent.isCollision : ℚ) := by
  have hhistory : ((system ℚ).run (init true) shotCalls).map Prod.snd =
      some [.spawned entityTypePlayer 6 7, .fired 6 7, .collided 7] := by
    decide +kernel
  rcases Option.map_eq_some_iff.mp hhistory with ⟨⟨g, h⟩, hrun, rfl⟩
  refine ⟨g, _, hrun, rfl, accounts hrun ?_⟩
  simp [shotCalls]

end Ordered

/-! ## One peer -/

/-- The bullets of one peer are not marked on account of its tanks. -/
theorem tally_tankHits_of_peer (hrun : (system K).run (init isServer) calls = some (g, h))
    (hpeer : ∀ call ∈ calls, OfPeer p call) :
    (system K).tally tankHits (init isServer) calls = 0 := by
  induction calls using List.reverseRecOn generalizing g h with
  | nil => rfl
  | append_singleton calls call ih =>
      rcases (System.run_append _).mp hrun with ⟨g₁, h₁, out, hpre, hlast, _⟩
      have hcall := (System.run_singleton _).mp hlast
      have hpeer' : ∀ c ∈ calls, OfPeer p c := fun c hc => hpeer c (List.mem_append_left _ hc)
      rw [(system K).tally_concat tankHits hpre (Option.isSome_iff_exists.mpr ⟨_, hcall⟩),
        ih hpre hpeer', Nat.zero_add]
      cases call with
      | step order =>
          have hnone : CollisionSystem.markedForTanks order (g₁.beforeCheck order) = [] := by
            refine List.eq_nil_iff_forall_not_mem.mpr fun b hb => ?_
            rcases CollisionSystem.mem_markedForTanks_iff.mp hb with
              ⟨t, cb, ct, _, bullet, _, tank, hcb, _, hbullet, hct, _, htank, hother, _⟩
            have hrows := fun e =>
              (kept_ofPeer p).beforeCheck order (ofPeer_of_reachable hpre hpeer' e)
            refine hother ?_
            rw [(hrows b cb hcb).bullet bullet hbullet, (hrows t ct hct).tank tank htank]
          rw [tankHits, hnone]
          rfl
      | _ => rfl

/-- The accounts of one peer: all collisions are with destructibles. -/
theorem accounts_of_peer [IsStrictOrderedRing K]
    (hrun : (system K).run (init isServer) calls = some (g, h))
    (hkept : ∀ call ∈ calls, ∀ entity, call ≠ .destroyEntity entity)
    (hpeer : ∀ call ∈ calls, OfPeer p call) :
    g.inFlight + (h.countP GameEvent.isExpiry + h.countP GameEvent.isCollision) =
        h.countP GameEvent.isLaunch ∧
      g.damage = 25 * (h.countP GameEvent.isCollision : K) := by
  rcases accounts_init (K := K) isServer with ⟨hbullets, hdamage⟩
  have hstart : (system K).run (init isServer) [] = some (init isServer, []) := rfl
  simpa only [hbullets, hdamage, tally_tankHits_of_peer hrun hpeer, zero_add, Nat.cast_zero,
    mul_zero, add_zero] using accounts_run hstart hrun hkept

end Game

end GameFramework
