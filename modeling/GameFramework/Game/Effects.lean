import GameFramework.Game.Collision
import GameFramework.Game.Game

/-!
# Effects of the calls

One lemma for each system and each call says what it does to a row of the
registry, whatever the enumeration order.  Later modules reason with these
lemmas and not with the loops.

Main results:

- Theorem {lit}`ShootSystem.process_spec`: the bullets fired for one input.
- Theorem {lit}`ShootSystem.update_isSome`: expiry always goes through.
- Theorem {lit}`Game.step_eq`: a step is the movement and expiry part followed by the
  collision system.
- Theorem {lit}`Game.row_call_of_kept`: a property of rows that every system keeps is
  kept by every call.
- Theorem {lit}`Game.row_new`: where a new row comes from.
- Theorem {lit}`Game.row_run_of_kept`: a kept property of one row over any calls.
- Theorem {lit}`Game.row_of_reachable`: the induction rule for rows of reachable games.
-/

namespace GameFramework

open EntityRegistry

/-! ## What the systems do to a row -/

variable {K : Type*} [Field K]

omit [Field K] in
/-- The input and the shoot system skip a tank unless it is a player tank of the peer. -/
theorem Tank.skipped_iff {tank : Tank K} {peerId : PeerID} :
    (!tank.isPlayer || tank.peerId != peerId) = true ↔
      ¬ (tank.isPlayer = true ∧ tank.peerId = peerId) := by
  simp only [Bool.or_eq_true, Bool.not_eq_true', bne_iff_ne, not_and_or, Bool.not_eq_true, ne_eq]

namespace MovementSystem

variable [LinearOrder K] [FloatOps K]

/-- A row without the components of a tank is not moved. -/
theorem onRow_of_not_view (deltaTime : K) {c : Components K}
    (h : c.hasTransformVelocityTank = false) : onRow deltaTime c = c := by
  unfold onRow
  cases htransform : c.transform <;> cases hvelocity : c.velocity <;>
    cases htank : c.tank <;> simp_all [Components.hasTransformVelocityTank]

/-- Movement leaves everything but tanks alone. -/
theorem onRow_of_not_tank {deltaTime : K} {c : Components K} (h : c.tank = none) :
    onRow deltaTime c = c :=
  onRow_of_not_view deltaTime (by simp [Components.hasTransformVelocityTank, h])

/-- Movement changes every row once, whatever the order of the view. -/
theorem row_update (order : ViewOrder) (r : GameRegistry K) (deltaTime : K) (e : Entity) :
    (update order r deltaTime).row e = (r.row e).map (onRow deltaTime) :=
  r.row_each_view order _ (fun _ hc => onRow_of_not_view deltaTime hc) e

@[simp]
theorem next_update (order : ViewOrder) (r : GameRegistry K) (deltaTime : K) :
    (update order r deltaTime).next = r.next :=
  Registry.next_each _ _ _

end MovementSystem

namespace InputSystem

variable [FloatOps K]

/-- An input does not move anything. -/
@[simp]
theorem transform_onRow (peerId : UInt32) (input : InputState K) (c : Components K) :
    (onRow peerId input c).transform = c.transform := by
  unfold onRow
  split <;> rfl

/-- An input does not change tanks themselves. -/
@[simp]
theorem tank_onRow (peerId : UInt32) (input : InputState K) (c : Components K) :
    (onRow peerId input c).tank = c.tank := by
  unfold onRow
  split <;> rfl

/-- A row without the components of a tank is not steered. -/
theorem onRow_of_not_view (peerId : UInt32) (input : InputState K) {c : Components K}
    (h : c.hasTransformVelocityTank = false) : onRow peerId input c = c := by
  unfold onRow
  cases htransform : c.transform <;> cases hvelocity : c.velocity <;>
    cases htank : c.tank <;> simp_all [Components.hasTransformVelocityTank]

/-- An input leaves everything but tanks alone. -/
theorem onRow_of_not_tank {peerId : UInt32} {input : InputState K} {c : Components K}
    (h : c.tank = none) : onRow peerId input c = c :=
  onRow_of_not_view peerId input (by simp [Components.hasTransformVelocityTank, h])

/-- A row without a player tank of the peer is not steered. -/
theorem onRow_of_skipped {peerId : UInt32} {c : Components K}
    (h : ∀ tank, c.tank = some tank →
      ¬ (tank.isPlayer = true ∧ tank.peerId = peerId.toUInt64)) (input : InputState K) :
    onRow peerId input c = c := by
  unfold onRow
  split
  · rename_i transform velocity tank _ hvelocity htank
    rw [steer, if_pos (Tank.skipped_iff.mpr (h tank htank)), ← hvelocity]
  · rfl

/-- An input steers every row once, whatever the order of the view. -/
theorem row_apply (order : ViewOrder) (r : GameRegistry K) (peerId : UInt32)
    (input : InputState K) (e : Entity) :
    (apply order r peerId input).row e = (r.row e).map (onRow peerId input) :=
  r.row_each_view order _ (fun _ hc => onRow_of_not_view peerId input hc) e

@[simp]
theorem next_apply (order : ViewOrder) (r : GameRegistry K) (peerId : UInt32)
    (input : InputState K) : (apply order r peerId input).next = r.next :=
  Registry.next_each _ _ _

end InputSystem

namespace ShootSystem

section Process

variable [FloatOps K]

/-- What the shoot system has done when it has visited some of the tanks: old
rows are untouched, and every new row is a bullet of the firing peer that is
paired with the tank it left. -/
structure Fired (tick : UInt64) (ev : InputEvent K) (r : GameRegistry K)
    (acc : GameRegistry K × List (Entity × Entity)) : Prop where
  next_le : r.next ≤ acc.1.next
  row_old : ∀ e, e < r.next → acc.1.row e = r.row e
  row_new : ∀ e c, r.next ≤ e → acc.1.row e = some c → ∃ t, (t, e) ∈ acc.2
  shot : ∀ t b, (t, b) ∈ acc.2 →
    ∃ transform tank, (r.row t).bind (·.transform) = some transform ∧
      (r.row t).bind (·.tank) = some tank ∧ tank.isPlayer = true ∧
      tank.peerId = ev.peerId ∧ r.next ≤ b ∧ b < acc.1.next ∧
      acc.1.row b = some (bulletRow transform ev.peerId tick)

/-- Nothing is fired before the loop. -/
theorem Fired.refl (tick : UInt64) (ev : InputEvent K) (r : GameRegistry K) :
    Fired tick ev r (r, []) where
  next_le := le_refl _
  row_old _ _ := rfl
  row_new e c he hrow := by
    rw [Registry.row_eq_none_of_next_le he] at hrow
    cases hrow
  shot _ _ h := by cases h

/-- Visiting one more tank. -/
theorem Fired.fire {tick : UInt64} {ev : InputEvent K} {r : GameRegistry K}
    {acc : GameRegistry K × List (Entity × Entity)} (h : Fired tick ev r acc) {t : Entity}
    (ht : t < r.next) : Fired tick ev r (ShootSystem.fire tick ev acc t) := by
  unfold ShootSystem.fire
  rw [h.row_old t ht]
  cases htransform : (r.row t).bind (·.transform) with
  | none => exact h
  | some transform =>
      cases htank : (r.row t).bind (·.tank) with
      | none => exact h
      | some tank =>
          by_cases hskip : (!tank.isPlayer || tank.peerId != ev.peerId) = true
          · simpa only [hskip, if_true] using h
          · have hmatch : tank.isPlayer = true ∧ tank.peerId = ev.peerId :=
              not_not.mp (mt Tank.skipped_iff.mpr hskip)
            simp only [hskip]
            have hrow : ∀ e, ((acc.1.create {}).1.modify acc.1.next fun _ =>
                  bulletRow transform ev.peerId tick).row e =
                if e = acc.1.next then some (bulletRow transform ev.peerId tick)
                else acc.1.row e := by
              intro e
              rw [Registry.row_modify]
              by_cases he : e = acc.1.next <;> simp [he, Registry.row_create]
            constructor
            · exact Nat.le_succ_of_le h.next_le
            · intro e he
              have hne : e ≠ acc.1.next := Nat.ne_of_lt (he.trans_le h.next_le)
              simpa [hrow, hne] using h.row_old e he
            · intro e c he hec
              by_cases hnew : e = acc.1.next
              · exact ⟨t, by simp [hnew]⟩
              · have hold : acc.1.row e = some c := by simpa [hrow, hnew] using hec
                rcases h.row_new e c he hold with ⟨t', ht'⟩
                exact ⟨t', List.mem_append_left _ ht'⟩
            · intro t' b hmem
              rcases List.mem_append.mp hmem with hold | hlast
              · rcases h.shot t' b hold with
                  ⟨tr, tk, htr, htk, hplayer, hpeer, hle, hlt, hb⟩
                have hne : b ≠ acc.1.next := Nat.ne_of_lt hlt
                exact ⟨tr, tk, htr, htk, hplayer, hpeer, hle, Nat.lt_succ_of_lt hlt, by
                  simpa [hrow, hne] using hb⟩
              · simp only [Registry.create_snd, List.mem_singleton, Prod.mk.injEq] at hlast
                rcases hlast with ⟨rfl, rfl⟩
                exact ⟨transform, tank, htransform, htank, hmatch.1, hmatch.2, h.next_le,
                  Nat.lt_succ_self _, (hrow _).trans (if_pos rfl)⟩

/-- The whole loop of {lit}`ShootSystem::process`. -/
theorem process_spec (order : ViewOrder) (r : GameRegistry K) (tick : UInt64)
    (ev : InputEvent K) : Fired tick ev r (process order r tick ev) := by
  unfold process
  split
  · exact Fired.refl tick ev r
  · have hview : ∀ t ∈ r.view order .transformTank Components.hasTransformTank,
        t < r.next := fun t ht => r.lt_next t (Registry.valid_of_mem_view ht)
    revert hview
    generalize r.view order .transformTank Components.hasTransformTank = ts
    intro hview
    have hloop : ∀ acc, Fired tick ev r acc → Fired tick ev r (ts.foldl (fire tick ev) acc) := by
      induction ts with
      | nil => exact fun _ h => h
      | cons t ts ih =>
          intro acc h
          exact ih (fun t' ht' => hview t' (List.mem_cons_of_mem t ht')) _
            (h.fire (hview t List.mem_cons_self))
    exact hloop _ (Fired.refl tick ev r)

end Process

/-- What expiry leaves of a row: nothing, or the row moved on. -/
def rowUpdate [LinearOrder K] [FloorSemiring K] (deltaTime : K) (tick : UInt64) (c : Components K) :
    Option (Components K) :=
  if (onRow deltaTime tick c).2 then none else some (onRow deltaTime tick c).1

section Update

variable [LinearOrder K] [FloorSemiring K] (order : ViewOrder) (r : GameRegistry K) (deltaTime : K)
  (tick : UInt64)

/-- A row without the bullet components is neither moved nor removed. -/
theorem onRow_of_not_view {c : Components K}
    (h : c.hasTransformVelocityBullet = false) : onRow deltaTime tick c = (c, false) := by
  unfold onRow
  cases htransform : c.transform <;> cases hvelocity : c.velocity <;>
    cases hbullet : c.bullet <;> simp_all [Components.hasTransformVelocityBullet]

/-- The expired bullets, in loop order. -/
def expiredBullets : List Entity :=
  (r.view order .transformVelocityBullet Components.hasTransformVelocityBullet).filter
    fun e => (r.row e).any fun c => (onRow deltaTime tick c).2

/-- The bullets that expire are those whose round says so. -/
theorem mem_expiredBullets {e : Entity} :
    e ∈ expiredBullets order r deltaTime tick ↔
      ∃ c, r.row e = some c ∧ (onRow deltaTime tick c).2 = true := by
  unfold expiredBullets
  rw [List.mem_filter, Registry.mem_view]
  constructor
  · rintro ⟨⟨c, hrow, _⟩, hany⟩
    exact ⟨c, hrow, by simpa [hrow] using hany⟩
  · rintro ⟨c, hrow, hexpired⟩
    refine ⟨⟨c, hrow, ?_⟩, by simp [hrow, hexpired]⟩
    cases hview : c.hasTransformVelocityBullet with
    | true => rfl
    | false => simp [onRow_of_not_view deltaTime tick hview] at hexpired

/-- The flight of bullets is a plain loop, and collects the expired ones. -/
theorem advance_eq :
    advance order r deltaTime tick =
      (r.each (r.view order .transformVelocityBullet Components.hasTransformVelocityBullet)
        (fun c => (onRow deltaTime tick c).1), expiredBullets order r deltaTime tick) :=
  Registry.sweep_eq (r.nodup_view order _ _) r _ fun _ he => Registry.valid_of_mem_view he

/-- The removal loop of the shoot system always goes through: an expired bullet
is collected once. -/
theorem update_isSome : (update order r deltaTime tick).isSome := by
  unfold update
  rw [advance_eq]
  simp only [Option.isSome_map]
  rw [Registry.destroyAll_isSome_iff]
  refine ⟨(r.nodup_view order _ _).filter _, fun e he => ?_⟩
  rw [Registry.valid, Registry.entities_each]
  exact Registry.valid_of_mem_view (List.mem_filter.mp he).1

/-- Registry and removal list of the shoot system. -/
def updated : GameRegistry K × List Entity :=
  (update order r deltaTime tick).get (update_isSome order r deltaTime tick)

/-- The expired bullets are valid and distinct, so their removal goes through. -/
theorem update_eq_some : update order r deltaTime tick = some (updated order r deltaTime tick) :=
  (Option.some_get _).symm

/-- A row flies on or expires. -/
theorem row_updated (e : Entity) :
    (updated order r deltaTime tick).1.row e = (r.row e).bind (rowUpdate deltaTime tick) := by
  have hupdate := update_eq_some order r deltaTime tick
  unfold update at hupdate
  rw [advance_eq] at hupdate
  simp only [Option.map_eq_some_iff] at hupdate
  rcases hupdate with ⟨r', hdestroy, hr'⟩
  rw [← hr', Registry.row_destroyAll hdestroy, r.row_each_view order _ fun c hc => by
    rw [onRow_of_not_view deltaTime tick hc]]
  cases hrow : r.row e with
  | none => simp
  | some c =>
      have hmem := @mem_expiredBullets _ _ _ _ order r deltaTime tick e
      simp only [hrow, Option.some.injEq, exists_eq_left'] at hmem
      simp only [hmem, rowUpdate, Option.map_some, Option.bind_some]

/-- What the shoot system reports are the expired bullets. -/
theorem updated_snd :
    (updated order r deltaTime tick).2 = expiredBullets order r deltaTime tick := by
  have hupdate := update_eq_some order r deltaTime tick
  unfold update at hupdate
  rw [advance_eq] at hupdate
  simp only [Option.map_eq_some_iff] at hupdate
  rcases hupdate with ⟨r', _, hr'⟩
  rw [← hr']

theorem next_updated : (updated order r deltaTime tick).1.next = r.next := by
  have hupdate := update_eq_some order r deltaTime tick
  unfold update at hupdate
  rw [advance_eq] at hupdate
  simp only [Option.map_eq_some_iff] at hupdate
  rcases hupdate with ⟨r', hdestroy, hr'⟩
  rw [← hr']
  exact (Registry.next_destroyAll hdestroy).trans (Registry.next_each _ _ _)

end Update

end ShootSystem

namespace CollisionSystem

variable [LinearOrder K] [FloatOps K]

/-- A row after some bullets and some tanks had it in range. -/
def collided (n m : ℕ) (c : Components K) : Components K :=
  { c with
    destructible := bulletEngagement.absorb^[n] c.destructible
    collectible := collectEngagement.absorb^[m] c.collectible }

/-- The loops over bullets do to a row what a number of collisions does. -/
theorem exists_row_resolve (order : ViewOrder) (r : GameRegistry K) (e : Entity) :
    ∃ n m, (resolve order r).1.row e = (r.row e).map (collided n m) := by
  refine ⟨(bulletEngagement.rules r).pressure (bullets order r) e,
    (collectEngagement.rules r).pressure (tanks order r) e, ?_⟩
  rw [row_resolve]
  cases hrow : r.row e with
  | none => rfl
  | some c =>
      have hdest : destructibleOf r e = c.destructible := by
        simp [destructibleOf, Engagement.of, hrow, bulletEngagement]
      have hcoll : collectibleOf r e = c.collectible := by
        simp [collectibleOf, Engagement.of, hrow, collectEngagement]
      simp only [Option.map_some, collided, destructibleAfter, collectibleAfter,
        Volley.Rules.after, hdest, hcoll, Engagement.absorb_rules]

end CollisionSystem

/-! ## What the calls do -/

namespace Game

/-- A spawn call adds the row of the next entity. -/
theorem row_spawn (entityType : UInt8) (position : B2Vec2 K) (rotation : K)
    (peerId : PeerID) (g : Game K) (e : Entity) :
    (g.spawn entityType position rotation peerId).1.registry.row e =
      if e = g.registry.next then
        some (SpawnSystem.row entityType position rotation peerId.toUInt32)
      else g.registry.row e := by
  simp only [spawn, SpawnSystem.process, Registry.create_snd, Registry.row_modify]
  split <;> simp_all [Registry.row_create]

omit [Field K] in
/-- A destruction removes the row of the entity and no other. -/
theorem row_destroyEntity (entity : Entity) (g : Game K) (e : Entity) :
    (g.destroyEntity entity).1.registry.row e =
      if e = entity then none else g.registry.row e := by
  unfold destroyEntity
  cases hdestroy : g.registry.destroy entity with
  | some r => exact Registry.row_destroy hdestroy e
  | none =>
      have hinvalid : ¬ g.registry.valid entity := by
        rw [← Registry.destroy_isSome_iff, hdestroy]
        simp
      by_cases he : e = entity
      · subst he
        cases hrow : g.registry.row e with
        | none => simp
        | some c => exact absurd (Registry.valid_of_row hrow) hinvalid
      · simp [he]

omit [Field K] in
theorem next_destroyEntity (entity : Entity) (g : Game K) :
    (g.destroyEntity entity).1.registry.next = g.registry.next := by
  unfold destroyEntity
  cases hdestroy : g.registry.destroy entity with
  | none => rfl
  | some r => exact Registry.next_destroy hdestroy

omit [Field K] in
theorem tickCount_destroyEntity (entity : Entity) (g : Game K) :
    (g.destroyEntity entity).1.tickCount = g.tickCount := by
  unfold destroyEntity
  split <;> rfl

omit [Field K] in
/-- It makes the entity invalid and no other. -/
theorem valid_destroyEntity_iff (entity : Entity) (g : Game K) (e : Entity) :
    (g.destroyEntity entity).1.registry.valid e ↔ e ≠ entity ∧ g.registry.valid e := by
  rw [Registry.valid_iff_exists_row, Registry.valid_iff_exists_row, row_destroyEntity]
  by_cases he : e = entity <;> simp [he]

omit [Field K] in
/-- A destruction is recorded when the entity is valid. -/
theorem destroyEntity_snd (entity : Entity) (g : Game K) :
    (g.destroyEntity entity).2 =
      if g.registry.valid entity then [.destroyed entity] else [] := by
  have hsome := Registry.destroy_isSome_iff g.registry entity
  unfold destroyEntity
  cases hdestroy : g.registry.destroy entity with
  | none =>
      rw [hdestroy] at hsome
      rw [if_neg fun hvalid => by simpa using hsome.mpr hvalid]
  | some r =>
      rw [hdestroy] at hsome
      rw [if_pos (hsome.mp rfl)]

section QueueInput

variable [FloatOps K] (order : ViewOrder) (input : InputState K) (peerId : PeerID) (g : Game K)

/-- The bullets and tanks of an input call, before they are turned into events. -/
theorem queueInput_fired :
    ∃ shots, (g.queueInput order input peerId).2 = shots.map (fun s => .fired s.1 s.2) ∧
      ShootSystem.Fired g.tickCount ⟨g.tickCount, peerId, input⟩
        (InputSystem.apply order g.registry peerId.toUInt32 input)
        ((g.queueInput order input peerId).1.registry, shots) := by
  unfold queueInput
  split
  · exact ⟨_, rfl, ShootSystem.process_spec order _ _ _⟩
  · exact ⟨[], rfl, ShootSystem.Fired.refl _ _ _⟩

/-- An input takes no tick. -/
theorem tickCount_queueInput :
    (g.queueInput order input peerId).1.tickCount = g.tickCount := by
  unfold queueInput
  split <;> rfl

/-- An input removes nothing. -/
theorem next_le_queueInput :
    g.registry.next ≤ (g.queueInput order input peerId).1.registry.next := by
  rcases queueInput_fired order input peerId g with ⟨shots, _, hfired⟩
  have hnext := hfired.next_le
  rwa [InputSystem.next_apply] at hnext

/-- The rows that exist before an input call are steered and nothing else. -/
theorem row_queueInput {e : Entity} (he : e < g.registry.next) :
    (g.queueInput order input peerId).1.registry.row e =
      (g.registry.row e).map (InputSystem.onRow peerId.toUInt32 input) := by
  rcases queueInput_fired order input peerId g with ⟨shots, _, hfired⟩
  have hold := hfired.row_old e
  rw [InputSystem.next_apply] at hold
  rw [hold he, InputSystem.row_apply]

/-- A row that an input call adds is recorded as a fired bullet. -/
theorem exists_fired_of_row_queueInput {e : Entity} {c : Components K}
    (he : g.registry.next ≤ e)
    (hrow : (g.queueInput order input peerId).1.registry.row e = some c) :
    ∃ t, .fired t e ∈ (g.queueInput order input peerId).2 := by
  rcases queueInput_fired order input peerId g with ⟨shots, hout, hfired⟩
  have hnew := hfired.row_new e c
  rw [InputSystem.next_apply] at hnew
  rcases hnew he hrow with ⟨t, ht⟩
  exact ⟨t, hout ▸ List.mem_map.mpr ⟨(t, e), ht, rfl⟩⟩

/-- A fired bullet leaves a player tank whose stored peer is the sender of the
input, at that tank's muzzle. -/
theorem of_mem_fired {t b : Entity}
    (h : .fired t b ∈ (g.queueInput order input peerId).2) :
    ∃ transform tank, (g.registry.row t).bind (·.transform) = some transform ∧
      (g.registry.row t).bind (·.tank) = some tank ∧ tank.isPlayer = true ∧
      tank.peerId = peerId ∧ g.registry.next ≤ b ∧
      (g.queueInput order input peerId).1.registry.row b =
        some (ShootSystem.bulletRow transform peerId g.tickCount) := by
  rcases queueInput_fired order input peerId g with ⟨shots, hout, hfired⟩
  rw [hout] at h
  rcases List.mem_map.mp h with ⟨⟨t', b'⟩, hmem, heq⟩
  simp only [GameEvent.fired.injEq] at heq
  rcases heq with ⟨rfl, rfl⟩
  rcases hfired.shot t' b' hmem with
    ⟨transform, tank, htransform, htank, hplayer, hpeer, hle, _, hrow⟩
  rw [InputSystem.row_apply] at htransform htank
  rw [InputSystem.next_apply] at hle
  refine ⟨transform, tank, ?_, ?_, hplayer, hpeer, hle, hrow⟩
  · cases hg : g.registry.row t' with
    | none => simp [hg] at htransform
    | some c =>
        rw [hg] at htransform
        simpa [InputSystem.transform_onRow] using htransform
  · cases hg : g.registry.row t' with
    | none => simp [hg] at htank
    | some c =>
        rw [hg] at htank
        simpa [InputSystem.tank_onRow] using htank

end QueueInput

variable [LinearOrder K] [FloatOps K] [FloorSemiring K]

section Step

variable (order : ViewOrder) (g : Game K)

/-- The registry that the collision system of a step finds. -/
def beforeCheck : GameRegistry K :=
  (ShootSystem.updated order (MovementSystem.update order g.registry fixedTimestep)
    fixedTimestep (g.tickCount + 1)).1

/-- A step is movement and expiry, which always go through, and then the
collision system. -/
theorem step_eq :
    g.step order = (CollisionSystem.check order (g.beforeCheck order)).map fun p =>
      ({ g with tickCount := g.tickCount + 1, registry := p.1 },
        (ShootSystem.expiredBullets order
          (MovementSystem.update order g.registry fixedTimestep) fixedTimestep
          (g.tickCount + 1)).map .expired ++ p.2.map .collided) := by
  unfold step beforeCheck
  simp only [ShootSystem.update_eq_some]
  cases CollisionSystem.check order (ShootSystem.updated order
      (MovementSystem.update order g.registry fixedTimestep) fixedTimestep
      (g.tickCount + 1)).1 with
  | none => rfl
  | some p => simp only [Option.map_some, ShootSystem.updated_snd]

/-- The rows that the collision system meets have moved, and expired bullets are gone. -/
theorem row_beforeCheck (e : Entity) :
    (g.beforeCheck order).row e =
      ((g.registry.row e).map (MovementSystem.onRow fixedTimestep)).bind
        (ShootSystem.rowUpdate fixedTimestep (g.tickCount + 1)) := by
  rw [beforeCheck, ShootSystem.row_updated, MovementSystem.row_update]

/-- A step goes through exactly when the removal list of its collision system
names valid entities, each once. -/
theorem step_isSome_iff :
    (g.step order).isSome ↔
      (CollisionSystem.resolve order (g.beforeCheck order)).2.Nodup ∧
        ∀ e ∈ (CollisionSystem.resolve order (g.beforeCheck order)).2,
          (g.beforeCheck order).valid e := by
  rw [step_eq, Option.isSome_map]
  unfold CollisionSystem.check
  simp only [Option.isSome_map]
  rw [Registry.destroyAll_isSome_iff]
  simp only [Registry.valid, CollisionSystem.entities_resolve]

variable {order g}

/-- What a step that goes through leaves behind. -/
theorem step_spec {g' : Game K} {out : List GameEvent} (h : g.step order = some (g', out)) :
    g'.tickCount = g.tickCount + 1 ∧ g'.registry.next = g.registry.next ∧
      ∀ e, g'.registry.row e =
        if .collided e ∈ out then none
        else (CollisionSystem.resolve order (g.beforeCheck order)).1.row e := by
  rw [step_eq] at h
  unfold CollisionSystem.check at h
  simp only [Option.map_map, Option.map_eq_some_iff] at h
  rcases h with ⟨r, hdestroy, heq⟩
  simp only [Function.comp_apply, Prod.mk.injEq] at heq
  rcases heq with ⟨rfl, rfl⟩
  refine ⟨rfl, ?_, fun e => ?_⟩
  · calc
      r.next = (CollisionSystem.resolve order (g.beforeCheck order)).1.next :=
        Registry.next_destroyAll hdestroy
      _ = (g.beforeCheck order).next := CollisionSystem.next_resolve order _
      _ = g.registry.next := by
        rw [beforeCheck, ShootSystem.next_updated, MovementSystem.next_update]
  · rw [Registry.row_destroyAll hdestroy]
    simp

/-- A row after a step comes from a row before it, moved by both integrating
systems, not expired, and then collided. -/
theorem exists_row_of_row_step {g' : Game K} {out : List GameEvent}
    (h : g.step order = some (g', out)) {e : Entity} {c' : Components K}
    (hrow : g'.registry.row e = some c') :
    ∃ c n m, g.registry.row e = some c ∧
      (ShootSystem.onRow fixedTimestep (g.tickCount + 1)
        (MovementSystem.onRow fixedTimestep c)).2 = false ∧
      c' = CollisionSystem.collided n m
        (ShootSystem.onRow fixedTimestep (g.tickCount + 1)
          (MovementSystem.onRow fixedTimestep c)).1 := by
  rw [(step_spec h).2.2 e] at hrow
  split at hrow
  · contradiction
  · rcases CollisionSystem.exists_row_resolve order (g.beforeCheck order) e with
      ⟨n, m, hresolve⟩
    rw [hresolve, row_beforeCheck] at hrow
    cases hold : g.registry.row e with
    | none => simp [hold] at hrow
    | some c =>
        rw [hold, Option.map_some, Option.bind_some, ShootSystem.rowUpdate] at hrow
        split at hrow
        · contradiction
        · rename_i hexpired
          exact ⟨c, n, m, rfl, Bool.eq_false_iff.mpr hexpired, (Option.some.inj hrow).symm⟩

/-- The bullets that the collision system of a step removes. -/
theorem mem_collided_iff {g' : Game K} {out : List GameEvent}
    (h : g.step order = some (g', out)) (e : Entity) :
    .collided e ∈ out ↔ e ∈ (CollisionSystem.resolve order (g.beforeCheck order)).2 := by
  rw [step_eq] at h
  unfold CollisionSystem.check at h
  simp only [Option.map_map, Option.map_eq_some_iff] at h
  rcases h with ⟨r, _, heq⟩
  simp only [Function.comp_apply, Prod.mk.injEq] at heq
  rw [← heq.2]
  simp

end Step

/-! ## Survival -/

/-- The bullets that the shoot system of a step removes. -/
theorem mem_expired_iff {order : ViewOrder} {g g' : Game K} {out : List GameEvent}
    (h : g.step order = some (g', out)) (e : Entity) :
    .expired e ∈ out ↔ ∃ c, g.registry.row e = some c ∧
      (ShootSystem.onRow fixedTimestep (g.tickCount + 1)
        (MovementSystem.onRow fixedTimestep c)).2 = true := by
  rw [step_eq, Option.map_eq_some_iff] at h
  rcases h with ⟨r, _, heq⟩
  have hout := congrArg Prod.snd heq
  simp only at hout
  rw [← hout]
  simp only [List.mem_append, List.mem_map, GameEvent.expired.injEq, exists_eq_right,
    reduceCtorEq, and_false, exists_false, or_false]
  rw [ShootSystem.mem_expiredBullets]
  simp only [MovementSystem.row_update]
  constructor
  · rintro ⟨c', hrow, hexpired⟩
    rcases Option.map_eq_some_iff.mp hrow with ⟨c, hc, rfl⟩
    exact ⟨c, hc, hexpired⟩
  · rintro ⟨c, hc, hexpired⟩
    exact ⟨_, by rw [hc]; rfl, hexpired⟩

/-- A step records no destruction by request. -/
theorem not_mem_destroyed_step {order : ViewOrder} {g g' : Game K} {out : List GameEvent}
    (h : g.step order = some (g', out)) (e : Entity) : .destroyed e ∉ out := by
  rw [step_eq, Option.map_eq_some_iff] at h
  rcases h with ⟨r, _, heq⟩
  have hout := congrArg Prod.snd heq
  simp only at hout
  rw [← hout]
  simp

/-- An entity survives a step unless the step records its expiry or its collision. -/
theorem valid_step_iff {order : ViewOrder} {g g' : Game K} {out : List GameEvent}
    (h : g.step order = some (g', out)) (e : Entity) :
    g'.registry.valid e ↔
      g.registry.valid e ∧ .expired e ∉ out ∧ .collided e ∉ out := by
  have hrow := (step_spec h).2.2 e
  rcases CollisionSystem.exists_row_resolve order (g.beforeCheck order) e with
    ⟨n, m, hresolve⟩
  rw [hresolve, row_beforeCheck] at hrow
  rw [mem_expired_iff h, Registry.valid_iff_exists_row, Registry.valid_iff_exists_row, hrow]
  cases g.registry.row e with
  | none => simp
  | some c =>
      by_cases hcollided : .collided e ∈ out <;>
        by_cases hexpired : (ShootSystem.onRow fixedTimestep (g.tickCount + 1)
          (MovementSystem.onRow fixedTimestep c)).2 = true <;>
        simp [hcollided, hexpired, ShootSystem.rowUpdate]

/-! ## Induction rules for rows -/

/-- A property of rows that every system keeps. -/
structure Kept (P : Components K → Prop) : Prop where
  move : ∀ c, P c → P (MovementSystem.onRow fixedTimestep c)
  steer : ∀ peerId input c, P c → P (InputSystem.onRow peerId input c)
  advance : ∀ tick c, P c → P (ShootSystem.onRow fixedTimestep tick c).1
  collide : ∀ n m c, P c → P (CollisionSystem.collided n m c)

/-- A property in which transform and velocity have no part is kept if collisions
keep it. -/
theorem Kept.of_collide {P : Components K → Prop}
    (hP : ∀ c transform velocity, P c →
      P { c with transform := transform, velocity := velocity })
    (hcollide : ∀ n m c, P c → P (CollisionSystem.collided n m c)) : Kept P where
  move c h := by
    unfold MovementSystem.onRow
    split
    · exact hP c _ _ h
    · exact h
  steer peerId input c h := by
    unfold InputSystem.onRow
    split
    · exact hP c _ _ h
    · exact h
  advance tick c h := by
    unfold ShootSystem.onRow
    split
    · exact hP c _ _ h
    · exact h
  collide := hcollide

/-- A property of destructibles that one hit keeps is kept by every system. -/
theorem Kept.destructible {P : Destructible K → Prop}
    (hP : ∀ d, d.active = true → P d → P (CollisionSystem.damage d)) :
    Kept fun c => ∀ d, c.destructible = some d → P d :=
  Kept.of_collide (fun _ _ _ h => h)
    fun n _ _ h => bulletEngagement.forall_iterate_absorb hP n h

/-- A property of collectibles that collection keeps is kept by every system. -/
theorem Kept.collectible {P : Collectible K → Prop}
    (hP : ∀ x, x.active = true → P x → P { x with active := false }) :
    Kept fun c => ∀ x, c.collectible = some x → P x :=
  Kept.of_collide (fun _ _ _ h => h)
    fun _ m _ h => collectEngagement.forall_iterate_absorb hP m h

/-- No system writes to a tank. -/
theorem Kept.tank (P : Tank K → Prop) :
    Kept fun c => ∀ tank, c.tank = some tank → P tank :=
  Kept.of_collide (fun _ _ _ h => h) fun _ _ _ h => h

variable {g g' : Game K} {out : List GameEvent} {call : GameCall K}

/-- What the collision system finds in a row keeps a kept property. -/
theorem Kept.beforeCheck {P : Components K → Prop} (hP : Kept P) (order : ViewOrder)
    {e : Entity} (h : ∀ c, g.registry.row e = some c → P c) :
    ∀ c, (g.beforeCheck order).row e = some c → P c := by
  intro c hrow
  rw [row_beforeCheck] at hrow
  cases hold : g.registry.row e with
  | none => simp [hold] at hrow
  | some c₀ =>
      rw [hold] at hrow
      simp only [Option.map_some, Option.bind_some, ShootSystem.rowUpdate] at hrow
      split at hrow
      · contradiction
      · cases hrow
        exact hP.advance _ _ (hP.move _ (h c₀ hold))

/-- The four kinds of calls, with the state and the events they end in. -/
theorem call_cases (hcall : g.call call = some (g', out)) :
    (∃ order, call = .step order ∧ g.step order = some (g', out)) ∨
      (∃ order input peerId, call = .queueInput order input peerId ∧
        g' = (g.queueInput order input peerId).1 ∧
        out = (g.queueInput order input peerId).2) ∨
      (∃ entityType position rotation peerId, (∀ order, call ≠ .step order) ∧
        g' = (g.spawn entityType position rotation peerId).1 ∧
        out = (g.spawn entityType position rotation peerId).2) ∨
      ∃ entity, call = .destroyEntity entity ∧ g' = (g.destroyEntity entity).1 ∧
        out = (g.destroyEntity entity).2 := by
  have hpair : ∀ p : Game K × List GameEvent, some p = some (g', out) →
      g' = p.1 ∧ out = p.2 := by
    intro p hp
    rw [Option.some.inj hp]
    exact ⟨rfl, rfl⟩
  cases call with
  | step order => exact Or.inl ⟨order, rfl, hcall⟩
  | queueInput order input peerId =>
      exact Or.inr (Or.inl ⟨order, input, peerId, rfl, hpair _ hcall⟩)
  | destroyEntity entity =>
      exact Or.inr (Or.inr (Or.inr ⟨entity, rfl, hpair _ hcall⟩))
  | spawnTank position rotation peerId =>
      exact Or.inr (Or.inr (Or.inl ⟨_, _, _, _, nofun, hpair _ hcall⟩))
  | spawnBullet position rotation peerId =>
      exact Or.inr (Or.inr (Or.inl ⟨_, _, _, _, nofun, hpair _ hcall⟩))
  | spawnCollectible position =>
      exact Or.inr (Or.inr (Or.inl ⟨_, _, _, _, nofun, hpair _ hcall⟩))
  | spawnDestructible position =>
      exact Or.inr (Or.inr (Or.inl ⟨_, _, _, _, nofun, hpair _ hcall⟩))

/-- No call takes the number of an entity back. -/
theorem next_le_call (hcall : g.call call = some (g', out)) :
    g.registry.next ≤ g'.registry.next := by
  rcases call_cases hcall with ⟨order, rfl, hstep⟩ | ⟨order, input, peerId, rfl, rfl, rfl⟩ |
    ⟨entityType, position, rotation, peerId, _, rfl, rfl⟩ | ⟨entity, rfl, rfl, rfl⟩
  · exact (step_spec hstep).2.1.ge
  · exact next_le_queueInput order input peerId g
  · exact Nat.le_succ _
  · exact (next_destroyEntity entity g).ge

/-- An existing entity survives a call unless the call records its removal. -/
theorem valid_call_iff {g g' : Game K} {call : GameCall K} {out : List GameEvent}
    (hcall : g.call call = some (g', out)) {e : Entity} (he : e < g.registry.next) :
    g'.registry.valid e ↔ g.registry.valid e ∧ .expired e ∉ out ∧ .collided e ∉ out ∧
      .destroyed e ∉ out := by
  have hquiet : ∀ {g' : Game K} {out : List GameEvent},
      (g'.registry.valid e ↔ g.registry.valid e) → .expired e ∉ out → .collided e ∉ out →
      .destroyed e ∉ out → (g'.registry.valid e ↔ g.registry.valid e ∧ .expired e ∉ out ∧
        .collided e ∉ out ∧ .destroyed e ∉ out) :=
    fun hvalid hexpired hcollided hdestroyed =>
      ⟨fun h => ⟨hvalid.mp h, hexpired, hcollided, hdestroyed⟩, fun h => hvalid.mpr h.1⟩
  rcases call_cases hcall with ⟨order, rfl, hstep⟩ | ⟨order, input, peerId, rfl, rfl, rfl⟩ |
    ⟨entityType, position, rotation, peerId, _, rfl, rfl⟩ | ⟨entity, rfl, rfl, rfl⟩
  · rw [valid_step_iff hstep]
    simp [not_mem_destroyed_step hstep e]
  · rcases queueInput_fired order input peerId g with ⟨shots, hshots, _⟩
    refine hquiet ?_ ?_ ?_ ?_
    · rw [Registry.valid_iff_exists_row, Registry.valid_iff_exists_row,
        row_queueInput order input peerId g he]
      simp
    all_goals
      rw [hshots]
      simp
  · refine hquiet ?_ ?_ ?_ ?_
    · rw [Registry.valid_iff_exists_row, Registry.valid_iff_exists_row, row_spawn,
        if_neg (Nat.ne_of_lt he)]
    all_goals simp [spawn]
  · rw [valid_destroyEntity_iff]
    by_cases heq : e = entity
    · subst heq
      by_cases hvalid : g.registry.valid e <;> simp [destroyEntity_snd, hvalid]
    · by_cases hvalid : g.registry.valid entity <;> simp [destroyEntity_snd, heq, hvalid]

/-- Every call keeps a kept property of an existing row. -/
theorem row_call_of_kept {P : Components K → Prop} (hP : Kept P)
    (hcall : g.call call = some (g', out)) {e : Entity} (he : e < g.registry.next)
    (h : ∀ c, g.registry.row e = some c → P c) :
    ∀ c, g'.registry.row e = some c → P c := by
  intro c hrow
  rcases call_cases hcall with ⟨order, rfl, hstep⟩ | ⟨order, input, peerId, rfl, rfl, rfl⟩ |
    ⟨entityType, position, rotation, peerId, _, rfl, rfl⟩ | ⟨entity, rfl, rfl, rfl⟩
  · rw [(step_spec hstep).2.2 e] at hrow
    split at hrow
    · contradiction
    · rcases CollisionSystem.exists_row_resolve order (g.beforeCheck order) e with
        ⟨n, m, hresolve⟩
      rw [hresolve, Option.map_eq_some_iff] at hrow
      rcases hrow with ⟨c', hc', rfl⟩
      exact hP.collide n m c' (hP.beforeCheck order h c' hc')
  · rw [row_queueInput order input peerId g he, Option.map_eq_some_iff] at hrow
    rcases hrow with ⟨c', hc', rfl⟩
    exact hP.steer _ _ c' (h c' hc')
  · rw [row_spawn, if_neg (Nat.ne_of_lt he)] at hrow
    exact h c hrow
  · rw [row_destroyEntity] at hrow
    split at hrow
    · contradiction
    · exact h c hrow

/-- A row that a call adds is a spawned one or a fired bullet. -/
theorem row_new (hcall : g.call call = some (g', out)) {e : Entity}
    (he : g.registry.next ≤ e) {c : Components K} (hrow : g'.registry.row e = some c) :
    (∃ entityType position rotation peerId, .spawned entityType e peerId ∈ out ∧
        c = SpawnSystem.row entityType position rotation peerId.toUInt32) ∨
      ∃ t transform peerId, .fired t e ∈ out ∧
        c = ShootSystem.bulletRow transform peerId g.tickCount := by
  have hold : g.registry.row e = none := Registry.row_eq_none_of_next_le he
  rcases call_cases hcall with ⟨order, rfl, hstep⟩ | ⟨order, input, peerId, rfl, rfl, rfl⟩ |
    ⟨entityType, position, rotation, peerId, _, rfl, rfl⟩ | ⟨entity, rfl, rfl, rfl⟩
  · have hlt := Registry.lt_next_of_row hrow
    rw [(step_spec hstep).2.1] at hlt
    exact absurd hlt (Nat.not_lt.mpr he)
  · rcases exists_fired_of_row_queueInput order input peerId g he hrow with ⟨t, ht⟩
    rcases of_mem_fired order input peerId g ht with ⟨transform, _, _, _, _, _, _, hb⟩
    rw [hb] at hrow
    exact Or.inr ⟨t, transform, peerId, ht, (Option.some.inj hrow).symm⟩
  · rw [row_spawn] at hrow
    split at hrow
    · rename_i heq
      refine Or.inl ⟨entityType, position, rotation, peerId, ?_, (Option.some.inj hrow).symm⟩
      rw [heq]
      exact List.mem_singleton.mpr rfl
    · rw [hold] at hrow
      contradiction
  · rw [row_destroyEntity, hold] at hrow
    split at hrow <;> contradiction

/-- The entity types that the spawn calls use. -/
def spawnedTypes : List UInt8 :=
  [entityTypePlayer, entityTypeBullet, entityTypeCollectible, entityTypeDestructible]

/-- The entity type that a call spawns. -/
def spawns : GameCall K → Option UInt8
  | .spawnTank _ _ _ => some entityTypePlayer
  | .spawnBullet _ _ _ => some entityTypeBullet
  | .spawnCollectible _ => some entityTypeCollectible
  | .spawnDestructible _ => some entityTypeDestructible
  | _ => none

/-- What a call records as spawned is what it spawns. -/
theorem spawns_of_mem_spawned (hcall : g.call call = some (g', out)) {entityType : UInt8}
    {e : Entity} {peerId : PeerID} (h : .spawned entityType e peerId ∈ out) :
    spawns call = some entityType := by
  have hspawn : ∀ ty position rotation p,
      some (g.spawn ty position rotation p) = some (g', out) → ty = entityType := by
    intro ty position rotation p heq
    have hout : out = [.spawned ty g.registry.next p] :=
      (congrArg Prod.snd (Option.some.inj heq)).symm
    rw [hout, List.mem_singleton, GameEvent.spawned.injEq] at h
    exact h.1.symm
  cases call with
  | step order =>
      have hstep : g.step order = some (g', out) := hcall
      rw [step_eq, Option.map_eq_some_iff] at hstep
      rcases hstep with ⟨p, _, heq⟩
      have hout := congrArg Prod.snd heq
      simp only at hout
      rw [← hout] at h
      simp at h
  | queueInput order input p =>
      rcases queueInput_fired order input p g with ⟨shots, hshots, _⟩
      have hout : (g.queueInput order input p).2 = out :=
        congrArg Prod.snd (Option.some.inj hcall)
      rw [← hout, hshots] at h
      simp at h
  | destroyEntity entity =>
      have hout : (g.destroyEntity entity).2 = out :=
        congrArg Prod.snd (Option.some.inj hcall)
      rw [← hout] at h
      unfold destroyEntity at h
      split at h <;> simp at h
  | spawnTank position rotation p => exact congrArg some (hspawn _ _ _ _ hcall)
  | spawnBullet position rotation p => exact congrArg some (hspawn _ _ _ _ hcall)
  | spawnCollectible position => exact congrArg some (hspawn _ _ _ _ hcall)
  | spawnDestructible position => exact congrArg some (hspawn _ _ _ _ hcall)

omit [Field K] [LinearOrder K] [FloatOps K] [FloorSemiring K] in
/-- A spawn call is for one of the known types. -/
theorem mem_spawnedTypes {entityType : UInt8} (h : spawns call = some entityType) :
    entityType ∈ spawnedTypes := by
  unfold spawns at h
  split at h
  all_goals first
    | contradiction
    | (rw [← Option.some.inj h]; decide)

/-- A property of rows that holds of the row of an entity, and that every system
keeps, holds of it after any calls. -/
theorem row_run_of_kept {P : Components K → Prop} (hP : Kept P) {calls : List (GameCall K)}
    {h : List GameEvent} (hrun : (system K).run g calls = some (g', h)) {e : Entity}
    (he : e < g.registry.next) (hrow : ∀ c, g.registry.row e = some c → P c) :
    e < g'.registry.next ∧ ∀ c, g'.registry.row e = some c → P c := by
  refine (system K).run_invariant
    (fun g _ => e < g.registry.next ∧ ∀ c, g.registry.row e = some c → P c)
    ⟨he, hrow⟩ ?_ hrun
  rintro g₁ _ call g₂ out ⟨hlt, hg₁⟩ hcall
  exact ⟨hlt.trans_le (next_le_call hcall), row_call_of_kept hP hcall hlt hg₁⟩

omit [LinearOrder K] [FloatOps K] [FloorSemiring K] in
/-- The rows of a new game are those of its initial collectibles and destructibles. -/
theorem row_init {P : Components K → Prop}
    (hspawned : ∀ entityType ∈ [entityTypeCollectible, entityTypeDestructible],
      ∀ position rotation peerId, P (SpawnSystem.row entityType position rotation peerId))
    (isServer : Bool) :
    ∀ e c, (init isServer : Game K).registry.row e = some c → P c := by
  have hspawn : ∀ (g : Game K) entityType position rotation peerId,
      entityType ∈ [entityTypeCollectible, entityTypeDestructible] →
      (∀ e c, g.registry.row e = some c → P c) →
      ∀ e c, (g.spawn entityType position rotation peerId).1.registry.row e = some c →
        P c := by
    intro g entityType position rotation peerId htype hg e c hrow
    rw [row_spawn] at hrow
    split at hrow
    · cases hrow
      exact hspawned _ htype _ _ _
    · exact hg e c hrow
  have hempty : ∀ e c, (init false : Game K).registry.row e = some c → P c := by
    intro e c hrow
    cases hrow
  cases isServer with
  | false => exact hempty
  | true =>
      have hcoll : entityTypeCollectible ∈ [entityTypeCollectible, entityTypeDestructible] :=
        by decide
      have hdest : entityTypeDestructible ∈ [entityTypeCollectible, entityTypeDestructible] :=
        by decide
      exact hspawn _ _ _ _ _ hdest (hspawn _ _ _ _ _ hdest (hspawn _ _ _ _ _ hdest
        (hspawn _ _ _ _ _ hcoll (hspawn _ _ _ _ _ hcoll
          (hspawn _ _ _ _ _ hcoll hempty)))))

/-- The induction rule for rows: a property that holds of every row the spawn
calls create and of every fired bullet, and that every system keeps, holds of
every row of every reachable game. -/
theorem row_of_reachable_of_spawnedTypes {P : Components K → Prop} (hP : Kept P)
    (hspawned : ∀ entityType ∈ spawnedTypes, ∀ position rotation peerId,
      P (SpawnSystem.row entityType position rotation peerId))
    (hfired : ∀ transform peerId tick, P (ShootSystem.bulletRow transform peerId tick))
    {isServer : Bool} {calls : List (GameCall K)} {h : List GameEvent}
    (hrun : (system K).run (init isServer) calls = some (g, h)) :
    ∀ e c, g.registry.row e = some c → P c := by
  refine (system K).run_invariant (fun g _ => ∀ e c, g.registry.row e = some c → P c)
    ?_ ?_ hrun
  · refine row_init (fun entityType htype => hspawned entityType ?_) isServer
    exact List.mem_cons_of_mem _ (List.mem_cons_of_mem _ htype)
  · intro g _ call g' out hg hcall e c hrow
    rcases Nat.lt_or_ge e g.registry.next with he | he
    · exact row_call_of_kept hP hcall he (hg e) c hrow
    · rcases row_new hcall he hrow with ⟨_, _, _, _, hmem, rfl⟩ | ⟨_, _, _, _, rfl⟩
      · exact hspawned _ (mem_spawnedTypes (spawns_of_mem_spawned hcall hmem)) _ _ _
      · exact hfired _ _ _

/-- The induction rule for rows when the property holds of every row that
{lit}`SpawnSystem::process` can create. -/
theorem row_of_reachable {P : Components K → Prop} (hP : Kept P)
    (hspawned : ∀ entityType position rotation peerId,
      P (SpawnSystem.row entityType position rotation peerId))
    (hfired : ∀ transform peerId tick, P (ShootSystem.bulletRow transform peerId tick))
    {isServer : Bool} {calls : List (GameCall K)} {h : List GameEvent}
    (hrun : (system K).run (init isServer) calls = some (g, h)) :
    ∀ e c, g.registry.row e = some c → P c :=
  row_of_reachable_of_spawnedTypes hP (fun entityType _ => hspawned entityType) hfired hrun

end Game

end GameFramework
