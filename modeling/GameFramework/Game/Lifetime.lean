import GameFramework.Game.Archetypes
import GameFramework.Game.Flight

/-!
# Lifetime of a bullet

A bullet expires once the tick count has moved 120 on from the spawn tick that its
row stores.  The shoot system stores the tick of the shot; the spawn system stores
zero whatever the tick.  A bullet therefore lives for exactly 120 steps when it is
fired, or spawned at tick zero, and for another number of steps otherwise.

Main results:

- Definition {lit}`Game.LivesOut`: a bullet lives for 120 steps unless it is removed.
- Theorem {lit}`Game.livesOut_iff`: which bullets do.
- Theorem {lit}`Game.age_of_reachable`: the age of every bullet between two steps.
- Theorem {lit}`Game.lifetime_iff`: both, over whole runs.
- Theorem {lit}`Game.exists_not_livesOut`: a bullet spawned after the first step dies
  one step early.
-/

namespace GameFramework

open EntityRegistry

variable {K : Type*} [Field K] [LinearOrder K] [FloatOps K]

/-! ## Timed rows -/

/-- The row of a bullet with the lifetime of two seconds and the given spawn tick. -/
structure Components.Timed (s : UInt64) (c : Components K) : Prop where
  fits : Archetype.bullet.Fits c
  bullet : ∃ bullet, c.bullet = some bullet ∧ bullet.lifetime = 2 ∧ bullet.spawnTick = s

theorem MovementSystem.bullet_onRow (deltaTime : K) (c : Components K) :
    (onRow deltaTime c).bullet = c.bullet := by
  unfold onRow
  split <;> rfl

omit [LinearOrder K] in
theorem InputSystem.bullet_onRow (peerId : UInt32) (input : InputState K)
    (c : Components K) : (onRow peerId input c).bullet = c.bullet := by
  unfold onRow
  split <;> rfl

namespace ShootSystem

variable [FloorSemiring K]

omit [FloatOps K] in
/-- The flight of a bullet does not change its spawn tick. -/
theorem bullet_onRow (deltaTime : K) (tick : UInt64) (c : Components K) :
    (onRow deltaTime tick c).1.bullet = c.bullet := by
  unfold onRow
  split <;> rfl

omit [FloatOps K] in
/-- A timed row expires when the tick count is 120 or more past its spawn tick. -/
theorem onRow_snd_of_timed [IsStrictOrderedRing K] {s : UInt64} {c : Components K}
    (h : c.Timed s) (deltaTime : K) (tick : UInt64) :
    (onRow deltaTime tick c).2 = true ↔ 120 ≤ tick - s := by
  rcases h.bullet with ⟨bullet, hb, hlifetime, htick⟩
  rcases Option.isSome_iff_exists.mp (h.fits.isSome (k := .transform) (by decide)) with
    ⟨transform, ht⟩
  rcases Option.isSome_iff_exists.mp (h.fits.isSome (k := .velocity) (by decide)) with
    ⟨velocity, hv⟩
  have hfloor : ⌊(2 : K) * 60⌋₊ = 120 := by norm_num
  unfold onRow
  rw [ht, hv, hb]
  simp only [expired, hlifetime, htick, hfloor, decide_eq_true_eq, ge_iff_le]
  rfl

end ShootSystem

namespace Game

variable [FloorSemiring K]

/-- Every system keeps the timing of a row. -/
theorem kept_timed (s : UInt64) : Kept (Components.Timed (K := K) s) where
  move c h := by
    refine ⟨(kept_fits .bullet).move c h.fits, ?_⟩
    rw [MovementSystem.bullet_onRow]
    exact h.bullet
  steer peerId input c h := by
    refine ⟨(kept_fits .bullet).steer peerId input c h.fits, ?_⟩
    rw [InputSystem.bullet_onRow]
    exact h.bullet
  advance tick c h := by
    refine ⟨(kept_fits .bullet).advance tick c h.fits, ?_⟩
    rw [ShootSystem.bullet_onRow]
    exact h.bullet
  collide n m c h := ⟨(kept_fits .bullet).collide n m c h.fits, h.bullet⟩

omit [LinearOrder K] [FloorSemiring K] in
/-- A fired bullet is timed from the tick of its shot. -/
theorem timed_bulletRow (transform : Transform K) (peerId : PeerID) (tick : UInt64) :
    (ShootSystem.bulletRow transform peerId tick).Timed tick :=
  ⟨fits_bulletRow transform peerId tick, _, rfl, rfl, rfl⟩

omit [LinearOrder K] [FloatOps K] [FloorSemiring K] in
/-- The spawn system starts every bullet at tick zero. -/
theorem timed_row (position : B2Vec2 K) (rotation : K) (peerId : UInt32) :
    (SpawnSystem.row entityTypeBullet position rotation peerId).Timed 0 := by
  refine ⟨fun k => ?_, _, rfl, rfl, rfl⟩
  cases k <;>
    simp [SpawnSystem.row, Components.carries, Archetype.components, entityTypeBullet,
      entityTypePlayer]

/-! ## Aging -/

/-- The entity was created with a timed row, which it has while it exists. -/
structure Tracked (s : UInt64) (b : Entity) (g : Game K) : Prop where
  lt_next : b < g.registry.next
  row : ∀ c, g.registry.row b = some c → c.Timed s

/-- A tracked bullet that is {lit}`k` ticks old, and still exists if it is young enough. -/
structure Aged (s : UInt64) (b : Entity) (g : Game K) (k : ℕ) : Prop where
  tracked : Tracked s b g
  tickCount : g.tickCount = s + UInt64.ofNat k
  valid_iff : g.registry.valid b ↔ k < 120

/-- The events record neither a collision nor a requested destruction of the entity. -/
def Spared (b : Entity) (h : List GameEvent) : Prop :=
  .collided b ∉ h ∧ .destroyed b ∉ h

/-- What is spared over a history is spared over its parts. -/
theorem Spared.of_append {b : Entity} {h h' : List GameEvent} (hs : Spared b (h ++ h')) :
    Spared b h ∧ Spared b h' := by
  unfold Spared at hs ⊢
  simp only [List.mem_append, not_or] at hs
  exact ⟨⟨hs.1.1, hs.2.1⟩, hs.1.2, hs.2.2⟩

/-- And the other way round. -/
theorem Spared.append {b : Entity} {h h' : List GameEvent} (hs : Spared b h)
    (hs' : Spared b h') : Spared b (h ++ h') := by
  unfold Spared
  simp only [List.mem_append, not_or]
  exact ⟨⟨hs.1, hs'.1⟩, hs.2, hs'.2⟩

variable {s : UInt64} {b : Entity} {g g' : Game K} {calls : List (GameCall K)}
  {h out : List GameEvent} {k : ℕ}

/-- A bullet that is followed stays the same bullet over any calls. -/
theorem Tracked.run (ht : Tracked s b g) (hrun : (system K).run g calls = some (g', h)) :
    Tracked s b g' := by
  have hrows := row_run_of_kept (kept_timed s) hrun ht.lt_next ht.row
  exact ⟨hrows.1, hrows.2⟩

theorem Tracked.call (ht : Tracked s b g) {call : GameCall K}
    (hcall : g.call call = some (g', out)) : Tracked s b g' :=
  ht.run ((system K).run_singleton.mpr hcall)

/-- Only a step records expiry. -/
theorem expired_not_mem {call : GameCall K} (hcall : g.call call = some (g', out))
    (hne : ∀ order, call ≠ .step order) : .expired b ∉ out := by
  rcases call_cases hcall with ⟨order, rfl, _⟩ | ⟨order, input, p, rfl, rfl, rfl⟩ |
    ⟨entityType, position, rotation, p, _, rfl, rfl⟩ | ⟨entity, rfl, rfl, rfl⟩
  · exact absurd rfl (hne order)
  · rcases queueInput_fired order input p g with ⟨shots, hshots, _⟩
    rw [hshots]
    simp
  · simp [spawn]
  · rw [destroyEntity_snd]
    split <;> simp

section Ordered

variable [IsStrictOrderedRing K]

/-- A step lets a tracked bullet expire when its tick count is 120 past the spawn tick. -/
theorem Tracked.expired_iff (ht : Tracked s b g) {order : ViewOrder}
    (hstep : g.step order = some (g', out)) :
    .expired b ∈ out ↔ g.registry.valid b ∧ 120 ≤ g.tickCount + 1 - s := by
  have hmoved : ∀ c, g.registry.row b = some c →
      ((ShootSystem.onRow fixedTimestep (g.tickCount + 1)
        (MovementSystem.onRow fixedTimestep c)).2 = true ↔ 120 ≤ g.tickCount + 1 - s) :=
    fun c hc => ShootSystem.onRow_snd_of_timed ((kept_timed s).move c (ht.row c hc)) _ _
  rw [mem_expired_iff hstep, Registry.valid_iff_exists_row]
  constructor
  · rintro ⟨c, hc, hexpired⟩
    exact ⟨⟨c, hc⟩, (hmoved c hc).mp hexpired⟩
  · rintro ⟨⟨c, hc⟩, hage⟩
    exact ⟨c, hc, (hmoved c hc).mpr hage⟩

/-- In a step that takes a bullet from {lit}`k` ticks to the next, it expires exactly when
it becomes 120 ticks old. -/
theorem Aged.expired_iff (ha : Aged s b g k) {order : ViewOrder}
    (hstep : g.step order = some (g', out)) : .expired b ∈ out ↔ k + 1 = 120 := by
  rw [ha.tracked.expired_iff hstep, ha.valid_iff]
  have hage : g.tickCount + 1 - s = UInt64.ofNat (k + 1) := by
    rw [ha.tickCount, UInt64.add_assoc, UInt64.add_comm, UInt64.add_sub_cancel,
      UInt64.ofNat_add]
    rfl
  rw [hage, UInt64.le_iff_toNat_le, UInt64.toNat_ofNat']
  constructor
  · rintro ⟨hk, hle⟩
    have hmod : (k + 1) % 2 ^ 64 = k + 1 := Nat.mod_eq_of_lt (by omega)
    rw [hmod] at hle
    change 120 ≤ k + 1 at hle
    omega
  · rintro hk
    have hmod : (k + 1) % 2 ^ 64 = k + 1 := Nat.mod_eq_of_lt (by omega)
    rw [hmod]
    exact ⟨by omega, by change 120 ≤ k + 1; omega⟩

/-- One call on a bullet that nothing else removes. -/
theorem Aged.call (ha : Aged s b g k) {call : GameCall K}
    (hcall : g.call call = some (g', out)) (hspared : Spared b out) :
    Aged s b g' (k + stepCount [call]) where
  tracked := ha.tracked.call hcall
  tickCount := by
    rw [tickCount_call hcall, ha.tickCount, UInt64.ofNat_add, UInt64.add_assoc]
  valid_iff := by
    rw [valid_call_iff hcall ha.tracked.lt_next, ha.valid_iff]
    by_cases hstep : ∃ order, call = .step order
    · rcases hstep with ⟨order, rfl⟩
      rw [ha.expired_iff hcall]
      have hone : stepCount [(.step order : GameCall K)] = 1 := rfl
      rw [hone]
      constructor
      · rintro ⟨hk, hne, _⟩
        omega
      · intro hk
        exact ⟨by omega, by omega, hspared⟩
    · have hne : ∀ order, call ≠ .step order := fun order heq => hstep ⟨order, heq⟩
      rw [stepCount_of_ne_step hne]
      exact ⟨fun hv => hv.1, fun hk => ⟨hk, expired_not_mem hcall hne, hspared⟩⟩

/-- Any calls on a bullet that nothing else removes. -/
theorem Aged.run (ha : Aged s b g k) (hrun : (system K).run g calls = some (g', h))
    (hspared : Spared b h) : Aged s b g' (k + stepCount calls) := by
  induction calls generalizing g k h with
  | nil =>
      cases hrun
      exact ha
  | cons call calls ih =>
      rcases (Labelled.System.run_cons_eq_some _).mp hrun with
        ⟨g₁, out, rest, hcall, htail, rfl⟩
      have hparts := hspared.of_append
      rw [stepCount_cons call calls, ← Nat.add_assoc]
      exact ih (ha.call hcall hparts.1) htail hparts.2

end Ordered

/-! ## Living out -/

/-- After its creation the bullet exists for 120 steps, and expires in the last of
them, unless a collision or a request removes it. -/
def LivesOut (b : Entity) (g : Game K) : Prop :=
  ∀ calls g' h, (system K).run g calls = some (g', h) → Spared b h →
    (g'.registry.valid b ↔ stepCount calls < 120) ∧
      ∀ order g'' out, g'.step order = some (g'', out) →
        (.expired b ∈ out ↔ stepCount calls + 1 = 120)

/-- The events of a call record the creation of a bullet. -/
def CreatesBullet (out : List GameEvent) (b : Entity) : Prop :=
  (∃ t, .fired t b ∈ out) ∨ ∃ peerId, .spawned entityTypeBullet b peerId ∈ out

/-- The call spawns no bullet, unless the tick count is zero. -/
def SpawnsOnTime (call : GameCall K) (g : Game K) : Prop :=
  spawns call = some entityTypeBullet → g.tickCount = 0

/-- A bullet that is created is tracked from the tick of the shot, or from zero. -/
theorem exists_tracked_of_creates {call : GameCall K}
    (hcall : g.call call = some (g', out)) (hb : CreatesBullet out b) :
    g'.registry.valid b ∧ g'.tickCount = g.tickCount ∧
      ((spawns call = none ∧ Tracked g.tickCount b g') ∨
        spawns call = some entityTypeBullet ∧ Tracked 0 b g') := by
  have htracked : ∀ {s : UInt64} {c : Components K}, c.Timed s →
      g'.registry.row b = some c → g'.registry.valid b ∧ Tracked s b g' := by
    intro s c hc hrow
    refine ⟨Registry.valid_of_row hrow, Registry.lt_next_of_row hrow, fun c' hc' => ?_⟩
    rw [hrow] at hc'
    exact Option.some.inj hc' ▸ hc
  rcases call_cases hcall with ⟨order, rfl, hstep⟩ | ⟨order, input, p, rfl, rfl, rfl⟩ |
    ⟨entityType, position, rotation, p, hne, rfl, rfl⟩ | ⟨entity, rfl, rfl, rfl⟩
  · rw [step_eq, Option.map_eq_some_iff] at hstep
    rcases hstep with ⟨r, _, heq⟩
    have hout := congrArg Prod.snd heq
    simp only at hout
    rw [← hout] at hb
    simp [CreatesBullet] at hb
  · rcases hb with ⟨t, ht⟩ | ⟨peerId, hspawned⟩
    · rcases of_mem_fired order input p g ht with ⟨transform, _, _, _, _, _, _, hrow⟩
      have h := htracked (timed_bulletRow transform p g.tickCount) hrow
      exact ⟨h.1, tickCount_queueInput order input p g, Or.inl ⟨rfl, h.2⟩⟩
    · rcases queueInput_fired order input p g with ⟨shots, hshots, _⟩
      rw [hshots] at hspawned
      simp at hspawned
  · rcases hb with ⟨t, ht⟩ | ⟨peerId, hspawned⟩
    · simp [spawn] at ht
    · have htype : spawns call = some entityTypeBullet :=
        spawns_of_mem_spawned hcall hspawned
      simp only [spawn, List.mem_singleton, GameEvent.spawned.injEq] at hspawned
      rcases hspawned with ⟨rfl, rfl, _⟩
      have hrow := row_spawn entityTypeBullet position rotation p g g.registry.next
      have h := htracked (timed_row position rotation p.toUInt32) (hrow.trans (if_pos rfl))
      exact ⟨h.1, rfl, Or.inr ⟨htype, h.2⟩⟩
  · rw [CreatesBullet, destroyEntity_snd] at hb
    split at hb <;> simp at hb

/-- A bullet tracked from the current tick lives out. -/
theorem Tracked.livesOut [IsStrictOrderedRing K] (ht : Tracked g.tickCount b g)
    (hvalid : g.registry.valid b) : LivesOut b g := by
  have ha : Aged g.tickCount b g 0 :=
    ⟨ht, (UInt64.add_zero _).symm, iff_of_true hvalid (by decide)⟩
  intro calls g' h hrun hspared
  have ha' := ha.run hrun hspared
  rw [Nat.zero_add] at ha'
  exact ⟨ha'.valid_iff, fun order g'' out hstep => ha'.expired_iff hstep⟩

/-! ## A bullet alone -/

/-- The game has no other entity. -/
def Alone (b : Entity) (g : Game K) : Prop :=
  ∀ e c, g.registry.row e = some c → e = b

/-- A bullet that is alone meets nothing. -/
theorem resolve_snd_of_alone (ht : Tracked s b g) (halone : Alone b g) (order : ViewOrder) :
    (CollisionSystem.resolve order (g.beforeCheck order)).2 = [] := by
  have hfits : ∀ e c, (g.beforeCheck order).row e = some c → Archetype.bullet.Fits c := by
    intro e
    refine (kept_fits .bullet).beforeCheck order fun c hc => ?_
    rw [halone e c hc] at hc
    exact (ht.row c hc).fits
  have hdestructibles : CollisionSystem.destructibles order (g.beforeCheck order) = [] := by
    refine List.eq_nil_iff_forall_not_mem.mpr fun e he => ?_
    rcases Registry.mem_view.mp he with ⟨c, hc, hview⟩
    have hnone : c.destructible = none := (hfits e c hc).destructible_eq_none (by decide)
    simp [Components.hasTransformDestructible, hnone] at hview
  have htanks : CollisionSystem.tanks order (g.beforeCheck order) = [] := by
    refine List.eq_nil_iff_forall_not_mem.mpr fun e he => ?_
    rcases Registry.mem_view.mp he with ⟨c, hc, hview⟩
    have hnone : c.tank = none := (hfits e c hc).tank_eq_none (by decide)
    simp [Components.hasTransformTank, hnone] at hview
  rw [CollisionSystem.resolve_snd, CollisionSystem.scoredBullets, hdestructibles, htanks]
  refine List.eq_nil_iff_forall_not_mem.mpr fun e he => ?_
  rcases List.mem_append.mp he with hscored | hstruck
  · rcases (Volley.Rules.mem_of_mem_scored _ hscored).2 with ⟨d, hd, _⟩
    simp at hd
  · simp [CollisionSystem.bulletVsTank] at hstruck

/-- A step on a bullet that is alone goes through and leaves it alone. -/
theorem exists_step_of_alone (ht : Tracked s b g) (halone : Alone b g) (order : ViewOrder) :
    ∃ g' out, g.step order = some (g', out) ∧ Spared b out ∧ Alone b g' := by
  have hnil := resolve_snd_of_alone ht halone order
  have hsome : (g.step order).isSome := by
    rw [step_isSome_iff, hnil]
    simp
  rcases Option.isSome_iff_exists.mp hsome with ⟨⟨g', out⟩, hstep⟩
  refine ⟨g', out, hstep, ⟨?_, not_mem_destroyed_step hstep b⟩, fun e c' hrow => ?_⟩
  · rw [mem_collided_iff hstep, hnil]
    simp
  · rcases exists_row_of_row_step hstep hrow with ⟨c, _, _, hc, _, _⟩
    exact halone e c hc

omit [Field K] [LinearOrder K] [FloatOps K] [FloorSemiring K] in
/-- The number of steps of a list of steps. -/
theorem stepCount_replicate (order : ViewOrder) (n : ℕ) :
    stepCount (List.replicate n (.step order : GameCall K)) = n := by
  rw [stepCount, List.countP_replicate]
  rfl

/-- Any number of steps. -/
theorem exists_run_of_alone (ht : Tracked s b g) (halone : Alone b g) (order : ViewOrder)
    (n : ℕ) :
    ∃ g' h, (system K).run g (List.replicate n (.step order)) = some (g', h) ∧
      Spared b h ∧ Alone b g' := by
  induction n generalizing g with
  | zero => exact ⟨g, [], rfl, ⟨by simp, by simp⟩, halone⟩
  | succ n ih =>
      rcases exists_step_of_alone ht halone order with ⟨g₁, out, hstep, hspared, halone₁⟩
      have hcall : g.call (.step order) = some (g₁, out) := hstep
      rcases ih (ht.call hcall) halone₁ with ⟨g', h, hrun, hspared', halone'⟩
      exact ⟨g', out ++ h, (system K).run_cons_eq_some.mpr ⟨g₁, out, h, hcall, hrun, rfl⟩,
        hspared.append hspared', halone'⟩

/-- Destroying other entities one after the other. -/
theorem exists_run_destroy {es : List Entity} (hb : b ∉ es) (g : Game K) :
    ∃ g' h, (system K).run g (es.map .destroyEntity) = some (g', h) ∧ Spared b h ∧
      g'.tickCount = g.tickCount ∧
      ∀ e, g'.registry.row e = if e ∈ es then none else g.registry.row e := by
  induction es generalizing g with
  | nil => exact ⟨g, [], rfl, ⟨by simp, by simp⟩, rfl, by simp⟩
  | cons d es ih =>
      have hne : b ≠ d := fun heq => hb (heq ▸ List.mem_cons_self)
      have hcall : g.call (.destroyEntity d) = some (g.destroyEntity d) := rfl
      rcases ih (fun hmem => hb (List.mem_cons_of_mem d hmem)) (g.destroyEntity d).1 with
        ⟨g', h, hrun, hspared, htick, hrow⟩
      refine ⟨g', (g.destroyEntity d).2 ++ h,
        (system K).run_cons_eq_some.mpr ⟨_, _, h, hcall, hrun, rfl⟩,
        Spared.append ?_ hspared, ?_, fun e => ?_⟩
      · rw [destroyEntity_snd]
        split <;> simp [Spared, hne]
      · rw [htick, tickCount_destroyEntity]
      · rw [hrow, row_destroyEntity]
        by_cases hd : e = d <;> simp [hd]

/-- Some calls other than steps leave a bullet alone. -/
theorem exists_run_alone (g : Game K) (b : Entity) :
    ∃ calls g' h, (system K).run g calls = some (g', h) ∧ stepCount calls = 0 ∧
      Spared b h ∧ Alone b g' ∧ g'.tickCount = g.tickCount := by
  have hb : b ∉ g.registry.entities.filter (· ≠ b) := by simp
  rcases exists_run_destroy hb g with ⟨g', h, hrun, hspared, htick, hrow⟩
  refine ⟨_, g', h, hrun, ?_, hspared, fun e c hc => ?_, htick⟩
  · rw [stepCount, List.countP_eq_zero]
    intro call hmem
    rcases List.mem_map.mp hmem with ⟨e, _, rfl⟩
    exact Bool.false_ne_true
  · rw [hrow] at hc
    split at hc
    · contradiction
    · rename_i hmem
      by_contra hne
      have hvalid : e ∈ g.registry.entities := Registry.valid_of_row hc
      exact hmem (List.mem_filter.mpr ⟨hvalid, by simpa using hne⟩)

section Ordered

variable [IsStrictOrderedRing K]

/-- A bullet with spawn tick zero that lives out was created at tick zero.  Left alone,
it must survive its step 119 and expire in its step 120. -/
theorem Tracked.tickCount_eq_zero (ht : Tracked 0 b g) (hlives : LivesOut b g) :
    g.tickCount = 0 := by
  rcases exists_run_alone g b with ⟨calls, g₁, h₁, hrun₁, hcount, hspared₁, halone, htick⟩
  have ht₁ := ht.run hrun₁
  have hexpires : ∀ n, n < 120 →
      (120 ≤ g.tickCount + UInt64.ofNat n + 1 ↔ n + 1 = 120) := by
    intro n hn
    rcases exists_run_of_alone ht₁ halone (Enumeration.stored View) n with
      ⟨g₂, h₂, hrun₂, hspared₂, halone₂⟩
    have ht₂ := ht₁.run hrun₂
    rcases exists_step_of_alone ht₂ halone₂ (Enumeration.stored View) with
      ⟨g₃, out, hstep, _, _⟩
    have hrun := ((system K).run_append).mpr ⟨g₁, h₁, h₂, hrun₁, hrun₂, rfl⟩
    have hsteps : stepCount (calls ++ List.replicate n (.step (Enumeration.stored View))) =
        n := by
      rw [stepCount_append, hcount, Nat.zero_add, stepCount_replicate]
    have hboth := hlives _ g₂ _ hrun (hspared₁.append hspared₂)
    rw [hsteps] at hboth
    have hage := hboth.2 _ g₃ out hstep
    rw [ht₂.expired_iff hstep, tickCount_run hrun, hsteps, UInt64.sub_zero] at hage
    rw [← hage]
    exact (and_iff_right (hboth.1.mpr hn)).symm
  have hearly := hexpires 118 (by decide)
  have hlate := hexpires 119 (by decide)
  have hlt : ¬ (120 : UInt64) ≤ g.tickCount + UInt64.ofNat 118 + 1 := by
    rw [hearly]
    decide
  have hle : (120 : UInt64) ≤ g.tickCount + UInt64.ofNat 119 + 1 := hlate.mpr rfl
  rw [UInt64.le_iff_toNat_le, UInt64.toNat_add, UInt64.toNat_add] at hlt hle
  have hbound := g.tickCount.toNat_lt
  change ¬ 120 ≤ ((g.tickCount.toNat + 118) % 2 ^ 64 + 1) % 2 ^ 64 at hlt
  change 120 ≤ ((g.tickCount.toNat + 119) % 2 ^ 64 + 1) % 2 ^ 64 at hle
  apply UInt64.toNat_inj.mp
  change g.tickCount.toNat = 0
  omega

/-- A bullet lives out exactly when it is fired, or spawned at tick zero. -/
theorem livesOut_iff {call : GameCall K} (hcall : g.call call = some (g', out))
    (hb : CreatesBullet out b) : LivesOut b g' ↔ SpawnsOnTime call g := by
  rcases exists_tracked_of_creates hcall hb with ⟨hvalid, htick, ⟨hnone, ht⟩ | ⟨hsome, ht⟩⟩
  · rw [← htick] at ht
    refine iff_of_true (ht.livesOut hvalid) fun hspawns => ?_
    rw [hnone] at hspawns
    contradiction
  · constructor
    · intro hlives _
      rw [← htick]
      exact ht.tickCount_eq_zero hlives
    · intro hontime
      have hzero : g'.tickCount = 0 := htick.trans (hontime hsome)
      rw [← hzero] at ht
      exact ht.livesOut hvalid

end Ordered

/-! ## Ages -/

/-- The call does not take the tick count around to zero. -/
def KeepsCounting (call : GameCall K) (g : Game K) : Prop :=
  ∀ order, call = .step order → g.tickCount + 1 ≠ 0

/-- A bullet is timed from a tick that is not ahead and less than 120 back. -/
def Young (tick : UInt64) (c : Components K) : Prop :=
  c.bullet.isSome → ∃ s, c.Timed s ∧ s ≤ tick ∧ tick - s < 120

/-- Every system keeps bullets from being older than the tick. -/
theorem kept_young (tick : UInt64) : Kept (Young (K := K) tick) where
  move c h hbullet := by
    rw [MovementSystem.bullet_onRow] at hbullet
    rcases h hbullet with ⟨s, hs, hage⟩
    exact ⟨s, (kept_timed s).move c hs, hage⟩
  steer peerId input c h hbullet := by
    rw [InputSystem.bullet_onRow] at hbullet
    rcases h hbullet with ⟨s, hs, hage⟩
    exact ⟨s, (kept_timed s).steer peerId input c hs, hage⟩
  advance tick' c h hbullet := by
    rw [ShootSystem.bullet_onRow] at hbullet
    rcases h hbullet with ⟨s, hs, hage⟩
    exact ⟨s, (kept_timed s).advance tick' c hs, hage⟩
  collide n m c h hbullet := by
    rcases h hbullet with ⟨s, hs, hage⟩
    exact ⟨s, (kept_timed s).collide n m c hs, hage⟩

omit [LinearOrder K] [FloatOps K] [FloorSemiring K] in
/-- The spawn system creates a bullet only for the bullet type. -/
theorem entityType_of_bullet_row {entityType : UInt8} {position : B2Vec2 K} {rotation : K}
    {peerId : UInt32}
    (hbullet : (SpawnSystem.row entityType position rotation peerId).bullet.isSome) :
    entityType = entityTypeBullet := by
  unfold SpawnSystem.row at hbullet
  split at hbullet
  · simp at hbullet
  · split at hbullet
    · assumption
    · split at hbullet
      · simp at hbullet
      · split at hbullet <;> simp at hbullet

section Ordered

variable [IsStrictOrderedRing K]

/-- One call keeps all bullets young, if it spawns on time and keeps counting. -/
theorem young_call {call : GameCall K} (hcall : g.call call = some (g', out))
    (hontime : SpawnsOnTime call g) (hcount : KeepsCounting call g)
    (hyoung : ∀ e c, g.registry.row e = some c → Young g.tickCount c) :
    ∀ e c, g'.registry.row e = some c → Young g'.tickCount c := by
  intro e c' hrow
  by_cases hstep : ∃ order, call = .step order
  · rcases hstep with ⟨order, rfl⟩
    rcases exists_row_of_row_step hcall hrow with ⟨c, n, m, hc, halive, rfl⟩
    intro hbullet
    change (ShootSystem.onRow fixedTimestep (g.tickCount + 1)
      (MovementSystem.onRow fixedTimestep c)).1.bullet.isSome at hbullet
    rw [ShootSystem.bullet_onRow, MovementSystem.bullet_onRow] at hbullet
    rcases hyoung e c hc hbullet with ⟨s, hs, hle, _⟩
    have hmoved := (kept_timed s).move c hs
    have hage : ¬ 120 ≤ g.tickCount + 1 - s := by
      rw [← ShootSystem.onRow_snd_of_timed hmoved fixedTimestep, halive]
      exact Bool.false_ne_true
    rw [(step_spec hcall).1]
    refine ⟨s, (kept_timed s).collide n m _ ((kept_timed s).advance _ _ hmoved), ?_,
      UInt64.not_le.mp hage⟩
    have hwrap := hcount order rfl
    rw [UInt64.le_iff_toNat_le] at hle ⊢
    have hsucc : (g.tickCount + 1).toNat = g.tickCount.toNat + 1 := by
      have hne : (g.tickCount + 1).toNat ≠ 0 := fun hzero =>
        hwrap (UInt64.toNat_inj.mp hzero)
      have hbound := g.tickCount.toNat_lt
      rw [UInt64.toNat_add] at hne ⊢
      change (g.tickCount.toNat + 1) % 2 ^ 64 ≠ 0 at hne
      change (g.tickCount.toNat + 1) % 2 ^ 64 = g.tickCount.toNat + 1
      omega
    omega
  · have hne : ∀ order, call ≠ .step order := fun order heq => hstep ⟨order, heq⟩
    have htick : g'.tickCount = g.tickCount := by
      rw [tickCount_call hcall, stepCount_of_ne_step hne]
      exact UInt64.add_zero _
    rw [htick]
    rcases Nat.lt_or_ge e g.registry.next with he | he
    · exact row_call_of_kept (kept_young g.tickCount) hcall he (hyoung e) c' hrow
    · rcases row_new hcall he hrow with ⟨ty, position, rotation, p, hmem, rfl⟩ |
        ⟨_, transform, p, _, rfl⟩
      · intro hbullet
        have htype := entityType_of_bullet_row hbullet
        subst htype
        have hzero := hontime (spawns_of_mem_spawned hcall hmem)
        refine ⟨0, timed_row position rotation p.toUInt32, ?_, ?_⟩
        · exact UInt64.zero_le
        · rw [hzero]
          decide
      · intro _
        refine ⟨g.tickCount, timed_bulletRow transform p g.tickCount, UInt64.le_refl _, ?_⟩
        rw [UInt64.sub_self]
        decide

/-- In a run that spawns on time and keeps counting, every bullet is less than 120 ticks
old, and its spawn tick is never ahead of the tick count. -/
theorem age_of_reachable {isServer : Bool}
    (hrun : (system K).run (init isServer) calls = some (g, h))
    (hok : ∀ pre call post, calls = pre ++ call :: post → ∀ g₁ h₁,
      (system K).run (init isServer) pre = some (g₁, h₁) →
      SpawnsOnTime call g₁ ∧ KeepsCounting call g₁) :
    ∀ e c, g.registry.row e = some c → Young g.tickCount c := by
  refine (system K).run_invariant_of_steps
    (fun g _ => ∀ e c, g.registry.row e = some c → Young g.tickCount c)
    (fun g _ call => SpawnsOnTime call g ∧ KeepsCounting call g) ?_ ?_ hok hrun
  · refine row_init (fun entityType htype position rotation peerId hbullet => ?_) isServer
    have hbulletType := entityType_of_bullet_row hbullet
    subst hbulletType
    exact absurd htype (by decide)
  · intro g _ call g' out hyoung hcond hcall
    exact young_call hcall hcond.1 hcond.2 hyoung

/-- Over whole runs: a bullet lives for exactly 120 steps if and only if it is fired, or
spawned at tick zero; and where every spawned bullet is, and the tick count does not
wrap, the age of every bullet is a true difference below 120. -/
theorem lifetime_iff {isServer : Bool}
    (hrun : (system K).run (init isServer) calls = some (g, h)) :
    (∀ pre call post g₁ h₁ g₂ out b, calls = pre ++ call :: post →
      (system K).run (init isServer) pre = some (g₁, h₁) → g₁.call call = some (g₂, out) →
      CreatesBullet out b → (LivesOut b g₂ ↔ SpawnsOnTime call g₁)) ∧
    ((∀ pre call post, calls = pre ++ call :: post → ∀ g₁ h₁,
        (system K).run (init isServer) pre = some (g₁, h₁) →
        SpawnsOnTime call g₁ ∧ KeepsCounting call g₁) →
      ∀ e c bullet, g.registry.row e = some c → c.bullet = some bullet →
        bullet.spawnTick ≤ g.tickCount ∧ g.tickCount - bullet.spawnTick < 120) := by
  constructor
  · intro pre call post g₁ h₁ g₂ out b _ _ hcall hb
    exact livesOut_iff hcall hb
  · intro hok e c bullet hrow hbullet
    have hsome : c.bullet.isSome := by
      rw [hbullet]
      rfl
    rcases age_of_reachable hrun hok e c hrow hsome with ⟨s, hs, hage⟩
    rcases hs.bullet with ⟨bullet', hbullet', _, htick⟩
    rw [hbullet] at hbullet'
    rw [Option.some.inj hbullet', htick]
    exact hage

end Ordered

/-- A bullet spawned into a new game lives out. -/
theorem lifetime_iff_spawn :
    ∃ g h, (system ℚ).run (init false) [.spawnBullet ⟨0, 0⟩ 0 7] = some (g, h) ∧
      LivesOut 0 g := by
  have hrun : (system ℚ).run (init false) [.spawnBullet ⟨0, 0⟩ 0 7] = some (_, _) := rfl
  refine ⟨_, _, hrun, ?_⟩
  exact ((lifetime_iff hrun).1 [] (.spawnBullet ⟨0, 0⟩ 0 7) [] (init false) [] _ _ 0 rfl rfl
    rfl (Or.inr ⟨7, List.mem_singleton.mpr rfl⟩)).mpr fun _ => rfl

/-- A step, a spawned bullet, and 118 steps more. -/
def lateCalls : List (GameCall ℚ) :=
  [.step (Enumeration.stored View)] ++
    .spawnBullet ⟨0, 0⟩ 0 7 :: List.replicate 118 (.step (Enumeration.stored View))

/-- A bullet spawned when the tick count is one expires in its step 119. -/
theorem exists_not_livesOut :
    ∃ g h g' out, (system ℚ).run (init false) [.step (Enumeration.stored View)] =
        some (g, h) ∧
      g.call (.spawnBullet ⟨0, 0⟩ 0 7) = some (g', out) ∧ CreatesBullet out 0 ∧
      ¬ LivesOut 0 g' := by
  have hlate : ((system ℚ).run (init false) lateCalls).map Prod.snd =
      some [.spawned entityTypeBullet 0 7] := by
    decide +kernel
  have hlast : ((system ℚ).run (init false)
      (lateCalls ++ [.step (Enumeration.stored View)])).map Prod.snd =
      some [.spawned entityTypeBullet 0 7, .expired 0] := by
    decide +kernel
  rcases Option.map_eq_some_iff.mp hlate with ⟨⟨g₂, h₂⟩, hrun, hh₂⟩
  rcases Option.map_eq_some_iff.mp hlast with ⟨⟨g₃, h₃⟩, hrun', hh₃⟩
  simp only at hh₂ hh₃
  rcases (system ℚ).run_append.mp hrun' with ⟨g₂', h₂', out₃, hrun'', hstep, hsplit⟩
  rw [hrun] at hrun''
  cases hrun''
  rw [hh₂, hh₃] at hsplit
  have hout : [.expired 0] = out₃ := (List.cons.inj hsplit).2
  rcases (system ℚ).run_split.mp hrun with ⟨g, g', h₁, out, h, hpre, hcall, hpost, hparts⟩
  have hmem : ∀ ev, ev ∈ h₁ ++ out ++ h → ev = .spawned entityTypeBullet 0 7 := by
    intro ev hev
    rw [← hparts, hh₂] at hev
    exact List.mem_singleton.mp hev
  refine ⟨g, h₁, g', out, hpre, hcall, Or.inr ⟨7, ?_⟩, fun hlives => ?_⟩
  · have hspawned : out = [.spawned entityTypeBullet g.registry.next 7] :=
      (congrArg Prod.snd (Option.some.inj hcall)).symm
    have hev := hmem (.spawned entityTypeBullet g.registry.next 7) (by simp [hspawned])
    rw [hspawned, hev]
    exact List.mem_singleton.mpr rfl
  · have hspared : Spared 0 h := by
      constructor
      · intro hev
        have hbad := hmem _ (List.mem_append_right _ hev)
        contradiction
      · intro hev
        have hbad := hmem _ (List.mem_append_right _ hev)
        contradiction
    have hnever := (hlives _ g₂ h hpost hspared).2 (Enumeration.stored View) g₃ out₃
      ((system ℚ).run_singleton.mp hstep)
    rw [← hout, stepCount_replicate] at hnever
    exact absurd (hnever.mp (List.mem_singleton.mpr rfl)) (by decide)

end Game

end GameFramework
