import GameFramework.Game.Archetypes
import GameFramework.Game.Flight
import GameFramework.Game.Removal

/-!
# Detection of a bullet

Which targets on the path of a fired bullet {lit}`CollisionSystem::check` detects.  In each tick
the bullet is tested at one sample point; the test there decides what becomes of a target and of
the bullet, as far as no other bullet and no other target interferes.  A centre that lies between
two samples can go undetected.

Main results:

- Theorem {lit}`CollisionSystem.detectsDestructible`: what the test of a bullet against an active
  destructible decides.
- Theorem {lit}`CollisionSystem.detectsTank`: the same for the tank of another peer.
- Theorem {lit}`Game.detects_iff_sample_near`: a target whose centre lies on the path of a fired
  bullet is detected in a tick exactly when it is close to the sample point of that tick.
- Theorem {lit}`Game.exists_passed_unharmed`: a destructible whose centre a bullet passes through
  without a hit.
-/

namespace GameFramework

open EntityRegistry

variable {K : Type*} [Field K] [LinearOrder K] [FloatOps K]

/-! ## What a test decides -/

namespace CollisionSystem

/-- No other bullet has the destructible in range. -/
def OnlyBullet (order : ViewOrder) (r : GameRegistry K) (b d : Entity) : Prop :=
  ∀ b' ∈ bullets order r, bulletEngagement.inRange r b' d = true → b' = b

/-- The bullet has no active destructible in range but perhaps this one, and strikes no tank. -/
def OnlyDestructible (order : ViewOrder) (r : GameRegistry K) (b d : Entity) : Prop :=
  (∀ d' ∈ destructibles order r, (destructibleOf r d').any (·.active) = true →
    bulletEngagement.inRange r b d' = true → d' = d) ∧
  ∀ t ∈ tanks order r, strikesTank r b t = false

/-- The bullet has no active destructible in range, and strikes no tank but perhaps this one. -/
def OnlyTank (order : ViewOrder) (r : GameRegistry K) (b t : Entity) : Prop :=
  (∀ d ∈ destructibles order r, (destructibleOf r d).any (·.active) = true →
    bulletEngagement.inRange r b d = false) ∧
  ∀ t' ∈ tanks order r, strikesTank r b t' = true → t' = t

/-- A destructible has less health than before. -/
def Harmed (r r' : GameRegistry K) (d : Entity) : Prop :=
  ∃ x y, destructibleOf r d = some x ∧ destructibleOf r' d = some y ∧ y.health < x.health

/-- What {lit}`near` decides for a bullet and an active destructible, between the registry that the
collision system finds and a later one, where {lit}`removed` says that the bullet is removed. -/
structure DetectsDestructible (order : ViewOrder) (r r' : GameRegistry K) (b d : Entity)
    (removed near : Prop) : Prop where
  harmed : near → Harmed r r' d
  harmed_iff : OnlyBullet order r b d → (Harmed r r' d ↔ near)
  removes : OnlyBullet order r b d → near → removed
  removes_iff : OnlyBullet order r b d → OnlyDestructible order r b d → (removed ↔ near)

/-- What {lit}`near` decides for a bullet and the tank of another peer. -/
structure DetectsTank (order : ViewOrder) (r : GameRegistry K) (b t : Entity)
    (removed near : Prop) : Prop where
  removes : near → removed
  removes_iff : OnlyTank order r b t → (removed ↔ near)

section Decides

variable {order : ViewOrder} {r : GameRegistry K} {b d t : Entity} {x : Destructible K}

/-- A struck tank is among the tanks. -/
theorem mem_tanks_of_strikesTank (hstrikes : strikesTank r b t = true) : t ∈ tanks order r := by
  unfold strikesTank at hstrikes
  split at hstrikes
  · rename_i bulletPos bullet tankPos tank _ _ hpos htank
    rcases Option.bind_eq_some_iff.mp htank with ⟨c, hrow, hget⟩
    rcases Option.map_eq_some_iff.mp hpos with ⟨transform, htransform, _⟩
    rw [hrow, Option.bind_some] at htransform
    exact Registry.mem_view.mpr ⟨c, hrow, by simp [Components.hasTransformTank, htransform, hget]⟩
  · contradiction

/-- A bullet that is alone with a destructible has earlier bullets nowhere near it. -/
theorem OnlyBullet.after_eq {pre post : List Entity} (honly : OnlyBullet order r b d)
    (hsplit : bullets order r = pre ++ b :: post) :
    (bulletEngagement.rules r).after (destructibleOf r) pre d = destructibleOf r d := by
  refine (bulletEngagement.rules r).after_of_forall_not_inRange (fun b' hb' => ?_) _
  have hnodup : (bullets order r).Nodup := r.nodup_view order _ _
  rw [hsplit, List.nodup_append] at hnodup
  have hne : b' ≠ b := hnodup.2.2 b' hb' b List.mem_cons_self
  have hmem : b' ∈ bullets order r := hsplit ▸ List.mem_append_left _ hb'
  cases hrange : bulletEngagement.inRange r b' d with
  | false => exact hrange
  | true => exact absurd (honly b' hmem hrange) hne

/-- A bullet that is alone with an active destructible in range is on the removal list. -/
theorem mem_resolve_of_onlyBullet (hb : b ∈ bullets order r) (honly : OnlyBullet order r b d)
    (hx : destructibleOf r d = some x) (hactive : x.active = true)
    (hrange : bulletEngagement.inRange r b d = true) : b ∈ (resolve order r).2 := by
  rcases List.append_of_mem hb with ⟨pre, post, hsplit⟩
  rw [resolve_snd]
  refine List.mem_append_left _ ((bulletEngagement.rules r).mem_scored_iff.mpr
    ⟨pre, post, d, hsplit, mem_destructibles_of_inRange hrange, ?_⟩)
  have halive : (bulletEngagement.rules r).alive (destructibleOf r d) = true := by
    rw [hx]
    exact hactive
  rw [List.nil_append, Volley.Rules.scores, honly.after_eq hsplit, halive]
  exact hrange

/-- A bullet that strikes a tank is on the removal list. -/
theorem mem_resolve_of_strikesTank (hb : b ∈ bullets order r)
    (hstrikes : strikesTank r b t = true) : b ∈ (resolve order r).2 := by
  rw [resolve_snd]
  refine List.mem_append_right _ (List.mem_flatMap.mpr ⟨b, hb, List.mem_map.mpr ⟨t, ?_, rfl⟩⟩)
  exact List.mem_filter.mpr ⟨mem_tanks_of_strikesTank hstrikes, hstrikes⟩

/-- A bullet on the removal list has an active destructible in range or strikes a tank. -/
theorem exists_of_mem_resolve (hmem : b ∈ (resolve order r).2) :
    (∃ d ∈ destructibles order r, (destructibleOf r d).any (·.active) = true ∧
      bulletEngagement.inRange r b d = true) ∨
    ∃ t ∈ tanks order r, strikesTank r b t = true := by
  rw [resolve_snd, List.mem_append] at hmem
  rcases hmem with hscored | hstruck
  · rcases (bulletEngagement.rules r).mem_scored_iff.mp hscored with ⟨_, _, d, _, hd, hscores⟩
    exact Or.inl ⟨d, hd, (bulletEngagement.rules r).alive_of_scores hscores⟩
  · rcases List.mem_flatMap.mp hstruck with ⟨b', _, hmap⟩
    rcases List.mem_map.mp hmap with ⟨t, ht, rfl⟩
    exact Or.inr ⟨t, (List.mem_filter.mp ht).1, (List.mem_filter.mp ht).2⟩

/-- A destructible that no bullet has in range stays what it is. -/
theorem destructibleOf_resolve_eq (hfar : ∀ b ∈ bullets order r,
    bulletEngagement.inRange r b d = false) :
    destructibleOf (resolve order r).1 d = destructibleOf r d := by
  have hafter : destructibleAfter order r d = destructibleOf r d :=
    (bulletEngagement.rules r).after_of_forall_not_inRange hfar _
  have hrow := row_resolve order r d
  rw [hafter] at hrow
  simp only [destructibleOf, Engagement.of, hrow]
  cases r.row d with
  | none => rfl
  | some c => rfl

variable [IsStrictOrderedRing K]

/-- Further hits never restore health. -/
theorem health_iterate_absorb_le (n : ℕ) (x : Destructible K) :
    ∃ y, bulletEngagement.absorb^[n] (some x) = some y ∧ y.health ≤ x.health := by
  have hsome : (bulletEngagement.absorb^[n] (some x)).isSome = true :=
    bulletEngagement.isSome_iterate_absorb n (some x)
  rcases Option.isSome_iff_exists.mp hsome with ⟨y, hy⟩
  refine ⟨y, hy, ?_⟩
  refine bulletEngagement.forall_iterate_absorb (P := fun z => z.health ≤ x.health) ?_ n ?_ y hy
  · intro z _ hz
    have hhit : (damage z).health = z.health - 25 := rfl
    calc
      (damage z).health ≤ z.health := by linarith
      _ ≤ x.health := hz
  · intro z hz
    cases hz
    exact le_refl _

/-- An active destructible with a bullet in range loses health. -/
theorem harmed_resolve (hb : b ∈ bullets order r) (hx : destructibleOf r d = some x)
    (hactive : x.active = true) (hrange : bulletEngagement.inRange r b d = true) :
    Harmed r (resolve order r).1 d := by
  have hpressure : 0 < (bulletEngagement.rules r).pressure (bullets order r) d :=
    List.countP_pos_iff.mpr ⟨b, hb, hrange⟩
  rcases Nat.exists_eq_succ_of_ne_zero hpressure.ne' with ⟨n, hn⟩
  have hhit : bulletEngagement.absorb (some x) = some (damage x) := by
    simp [Engagement.absorb, bulletEngagement, hactive]
  rcases health_iterate_absorb_le n (damage x) with ⟨y, hy, hle⟩
  have hafter : destructibleAfter order r d = some y := by
    rw [destructibleAfter, Volley.Rules.after, hn, hx, Engagement.absorb_rules,
      Function.iterate_succ_apply, hhit, hy]
  refine ⟨x, y, hx, ?_, ?_⟩
  · rcases Option.bind_eq_some_iff.mp hx with ⟨c, hrow, _⟩
    have hresolve := row_resolve order r d
    rw [hrow, hafter] at hresolve
    simp only [destructibleOf, Engagement.of, hresolve, Option.map_some, Option.bind_some]
    rfl
  · simp only [damage] at hle
    linarith

variable {r' : GameRegistry K} {removed near : Prop}

/-- The range test decides whether an active destructible loses health and whether the bullet
stays, where no other bullet and no other target interferes. -/
theorem detectsDestructible (hb : b ∈ bullets order r) (hx : destructibleOf r d = some x)
    (hactive : x.active = true) (hnear : bulletEngagement.inRange r b d = true ↔ near)
    (hremoved : removed ↔ b ∈ (resolve order r).2)
    (hd : destructibleOf r' d = destructibleOf (resolve order r).1 d) :
    DetectsDestructible order r r' b d removed near := by
  have hharmed : near → Harmed r r' d := by
    intro h
    rw [Harmed, hd]
    exact harmed_resolve hb hx hactive (hnear.mpr h)
  have hremoves : OnlyBullet order r b d → near → removed := by
    intro honly h
    rw [hremoved]
    exact mem_resolve_of_onlyBullet hb honly hx hactive (hnear.mpr h)
  refine ⟨hharmed, fun honly => ⟨fun h => ?_, hharmed⟩, hremoves, fun honly hothers =>
    ⟨fun h => ?_, hremoves honly⟩⟩
  · by_contra hfar
    have hnone : ∀ b' ∈ bullets order r, bulletEngagement.inRange r b' d = false := by
      intro b' hb'
      cases hrange : bulletEngagement.inRange r b' d with
      | false => rfl
      | true => exact absurd (hnear.mp (honly b' hb' hrange ▸ hrange)) hfar
    rcases h with ⟨x', y, hx', hy, hlt⟩
    rw [hd, destructibleOf_resolve_eq hnone, hx'] at hy
    cases hy
    exact lt_irrefl _ hlt
  · rcases exists_of_mem_resolve (hremoved.mp h) with
      ⟨d', hd', hactive', hrange⟩ | ⟨t, ht, hstrikes⟩
    · exact hnear.mp (hothers.1 d' hd' hactive' hrange ▸ hrange)
    · rw [hothers.2 t ht] at hstrikes
      contradiction

omit [IsStrictOrderedRing K] in
/-- The range test decides whether the tank of another peer removes the bullet, where no other
target interferes. -/
theorem detectsTank (hb : b ∈ bullets order r) (hnear : strikesTank r b t = true ↔ near)
    (hremoved : removed ↔ b ∈ (resolve order r).2) : DetectsTank order r b t removed near := by
  have hremoves : near → removed := by
    intro h
    rw [hremoved]
    exact mem_resolve_of_strikesTank hb (hnear.mpr h)
  refine ⟨hremoves, fun hothers => ⟨fun h => ?_, hremoves⟩⟩
  rcases exists_of_mem_resolve (hremoved.mp h) with
    ⟨d, hd, hactive, hrange⟩ | ⟨t', ht', hstrikes⟩
  · rw [hothers.1 d hd hactive] at hrange
    contradiction
  · exact hnear.mp (hothers.2 t' ht' hstrikes ▸ hstrikes)

end Decides

end CollisionSystem

/-! ## The range tests of a fired bullet -/

namespace Game

variable {transform : Transform K} {peerId : PeerID} {tick : UInt64} {b : Entity} {k : ℕ}

section Tests

variable {r : GameRegistry K} {order : ViewOrder} {d : Entity} {s : K}

omit [LinearOrder K] in
/-- Where the collision system finds a bullet in flight. -/
theorem positionOf_flightRow (hb : r.row b = some (flightRow transform peerId tick k)) :
    CollisionSystem.positionOf r b = some (pathPoint transform (20 / 3 * (k : K))) := by
  simp [CollisionSystem.positionOf, hb, flightRow]

omit [LinearOrder K] in
/-- A bullet in flight is in the view of bullets. -/
theorem mem_bullets_of_flightRow
    (hb : r.row b = some (flightRow transform peerId tick k)) :
    b ∈ CollisionSystem.bullets order r :=
  Registry.mem_view.mpr ⟨_, hb, rfl⟩

variable [IsStrictOrderedRing K] [LawfulFloatOps K]

/-- The range test of a bullet in flight against a destructible on its path. -/
theorem inRange_flightRow_iff (hb : r.row b = some (flightRow transform peerId tick k))
    (hd : CollisionSystem.positionOf r d = some (pathPoint transform s))
    {x : Destructible K} (hx : destructibleOf r d = some x) :
    bulletEngagement.inRange r b d = true ↔ |s - 20 / 3 * (k : K)| < x.radius + 1 / 2 := by
  have hof : bulletEngagement.of r d = some x := hx
  simp only [Engagement.inRange, positionOf_flightRow hb, hd, hof]
  simp only [bulletEngagement, CollisionSystem.inDestructibleRange, b2Distance_pathPoint,
    decide_eq_true_eq]

/-- The range test of a bullet in flight against another peer's tank on its path. -/
theorem strikesTank_flightRow_iff
    (hb : r.row b = some (flightRow transform peerId tick k))
    (hd : CollisionSystem.positionOf r d = some (pathPoint transform s))
    {tank : Tank K} (htank : (r.row d).bind (·.tank) = some tank)
    (hpeer : tank.peerId ≠ peerId) :
    CollisionSystem.strikesTank r b d = true ↔ |s - 20 / 3 * (k : K)| < 2 := by
  have hbullet : (r.row b).bind (·.bullet) =
      (ShootSystem.bulletRow transform peerId tick).bullet := by
    rw [hb]
    rfl
  have howner : ((peerId == tank.peerId) = true) = False := by
    simpa using hpeer.symm
  have htwo : (3 / 2 + 1 / 2 : K) = 2 := by norm_num
  simp only [CollisionSystem.strikesTank, positionOf_flightRow hb, hbullet, hd, htank,
    ShootSystem.bulletRow, howner, if_false, CollisionSystem.inTankRange,
    b2Distance_pathPoint, htwo, decide_eq_true_eq]

end Tests

/-! ## Detection -/

section Detection

variable [FloorSemiring K]

/-- An entity that is a bullet for the collision system is gone after the step exactly when it is
on the removal list. -/
theorem not_valid_step_iff {g g' : Game K} {order : ViewOrder} {out : List GameEvent}
    (hstep : g.step order = some (g', out)) (hvalid : (g.beforeCheck order).valid b) :
    ¬ g'.registry.valid b ↔ b ∈ (CollisionSystem.resolve order (g.beforeCheck order)).2 := by
  have hrow := (step_spec hstep).2.2 b
  rw [Registry.valid_iff_exists_row, hrow, ← mem_collided_iff hstep]
  rcases Registry.valid_iff_exists_row.mp hvalid with ⟨c, hc⟩
  by_cases hmem : .collided b ∈ out
  · simp [hmem]
  · simp [hmem, CollisionSystem.row_resolve, hc]

/-- In a reachable game a destructible survives every step. -/
theorem destructibleOf_step_eq {isServer : Bool} {calls : List (GameCall K)} {g g' : Game K}
    {h out : List GameEvent} {order : ViewOrder} {d : Entity} {x : Destructible K}
    (hrun : (system K).run (init isServer) calls = some (g, h))
    (hstep : g.step order = some (g', out))
    (hx : destructibleOf (g.beforeCheck order) d = some x) :
    destructibleOf g'.registry d =
      destructibleOf (CollisionSystem.resolve order (g.beforeCheck order)).1 d := by
  have hkept : .collided d ∉ out := by
    rw [mem_collided_iff hstep]
    intro hmem
    rcases Registry.mem_view.mp (CollisionSystem.mem_bullets_of_mem_resolve hmem) with
      ⟨c, hrow, htest⟩
    rcases Option.bind_eq_some_iff.mp hx with ⟨c', hrow', hget⟩
    rw [hrow] at hrow'
    cases hrow'
    have hfits : ∀ e c, g.registry.row e = some c → ∃ a : Archetype, a.Fits c :=
      exists_fits_of_reachable hrun
    rcases (Kept.exists kept_fits).beforeCheck order (fun c hc => hfits d c hc) c hrow with ⟨a, ha⟩
    have hdest : c.destructible = some x := hget
    have hne : a ≠ .bullet := by
      rintro rfl
      rw [ha.destructible_eq_none (by decide)] at hdest
      contradiction
    simp [Components.hasTransformBullet, ha.bullet_eq_none hne] at htest
  simp only [destructibleOf, Engagement.of, (step_spec hstep).2.2 d, if_neg hkept]

variable [IsStrictOrderedRing K] [LawfulFloatOps K] {g g' : Game K}

/-- A target whose centre lies on the path of a fired bullet is detected in a tick exactly when it
is close enough to the sample point of that tick.  An active destructible loses health, and the
bullet is removed if no other bullet takes part; the tank of another peer removes the bullet.
Where no other target is in range of the bullet, it is removed for no other reason.  Removed means
put on the removal list, and gone after the step if the step goes through. -/
theorem detects_iff_sample_near {isServer : Bool} {earlier : List (GameCall K)}
    {h₀ : List GameEvent} (hreach : (system K).run (init isServer) earlier = some (g, h₀))
    {order₀ : ViewOrder} {input : InputState K} {t : Entity}
    (hfired : .fired t b ∈ (g.queueInput order₀ input peerId).2)
    {calls : List (GameCall K)} {h : List GameEvent}
    (hrun : (system K).run (g.queueInput order₀ input peerId).1 calls = some (g', h))
    (hvalid : g'.registry.valid b) (hk : stepCount calls + 1 < 120) :
    ∃ transform, (g.registry.row t).bind (·.transform) = some transform ∧
      ∀ order d s,
        CollisionSystem.positionOf (g'.beforeCheck order) d = some (pathPoint transform s) →
        (∀ x, destructibleOf (g'.beforeCheck order) d = some x → x.active = true →
          CollisionSystem.DetectsDestructible order (g'.beforeCheck order)
              (CollisionSystem.resolve order (g'.beforeCheck order)).1 b d
              (b ∈ (CollisionSystem.resolve order (g'.beforeCheck order)).2)
              (|s - 20 / 3 * ((stepCount calls + 1 : ℕ) : K)| < x.radius + 1 / 2) ∧
            ∀ v out, g'.step order = some (v, out) →
              CollisionSystem.DetectsDestructible order (g'.beforeCheck order) v.registry b d
                (¬ v.registry.valid b)
                (|s - 20 / 3 * ((stepCount calls + 1 : ℕ) : K)| < x.radius + 1 / 2)) ∧
        ∀ tank, ((g'.beforeCheck order).row d).bind (·.tank) = some tank →
          tank.peerId ≠ peerId →
          CollisionSystem.DetectsTank order (g'.beforeCheck order) b d
              (b ∈ (CollisionSystem.resolve order (g'.beforeCheck order)).2)
              (|s - 20 / 3 * ((stepCount calls + 1 : ℕ) : K)| < 2) ∧
            ∀ v out, g'.step order = some (v, out) →
              CollisionSystem.DetectsTank order (g'.beforeCheck order) b d
                (¬ v.registry.valid b)
                (|s - 20 / 3 * ((stepCount calls + 1 : ℕ) : K)| < 2) := by
  rcases inFlight_of_mem_fired hfired with ⟨transform, htransform, hstart⟩
  have hflight := hstart.run hrun
  rw [Nat.zero_add] at hflight
  have hreach' : (system K).run (init isServer)
      (earlier ++ .queueInput order₀ input peerId :: calls) =
        some (g', h₀ ++ ((g.queueInput order₀ input peerId).2 ++ h)) :=
    (Labelled.System.run_append _).mpr ⟨g, h₀, _, hreach,
      (Labelled.System.run_cons_eq_some _).mpr ⟨_, _, h, rfl, hrun, rfl⟩, rfl⟩
  refine ⟨transform, htransform, fun order d s hd => ?_⟩
  have hrow := hflight.row_beforeCheck_of_lt order hk hvalid
  have hbullet : b ∈ CollisionSystem.bullets order (g'.beforeCheck order) :=
    mem_bullets_of_flightRow hrow
  have hvalid' := Registry.valid_of_row hrow
  constructor
  · intro x hx hactive
    have hnear := inRange_flightRow_iff hrow hd hx
    exact ⟨CollisionSystem.detectsDestructible hbullet hx hactive hnear Iff.rfl rfl,
      fun v out hstep => CollisionSystem.detectsDestructible hbullet hx hactive hnear
        (not_valid_step_iff hstep hvalid') (destructibleOf_step_eq hreach' hstep hx)⟩
  · intro tank htank hpeer
    have hnear := strikesTank_flightRow_iff hrow hd htank hpeer
    exact ⟨CollisionSystem.detectsTank hbullet hnear Iff.rfl, fun v out hstep =>
      CollisionSystem.detectsTank hbullet hnear (not_valid_step_iff hstep hvalid')⟩

end Detection

end Game

/-! ## A duel -/

namespace Game

section Duel

/-- A game with a tank of peer 1 at the origin and a destructible to its right. -/
noncomputable def duel (x : ℝ) : Game ℝ :=
  (spawnDestructible ⟨x, 0⟩ (spawnTank ⟨0, 0⟩ 0 1 (init false)).1).1

/-- A shot without throttle or turn. -/
def shootInput : InputState ℝ where
  throttle := 0
  turn := 0
  shoot := true

/-- The tank fires. -/
noncomputable def duelShot (x : ℝ) : Game ℝ × List GameEvent :=
  (duel x).queueInput (Enumeration.stored View) shootInput 1

/-- The calls that lead there. -/
def duelCalls (x : ℝ) : List (GameCall ℝ) :=
  [.spawnTank ⟨0, 0⟩ 0 1, .spawnDestructible ⟨x, 0⟩,
    .queueInput (Enumeration.stored View) shootInput 1]

/-- The transform of the tank. -/
def duelTransform : Transform ℝ where
  position := ⟨0, 0⟩
  rotation := 0

/-- The shot of the duel flies along the first axis. -/
theorem pathPoint_duel (s : ℝ) : pathPoint duelTransform s = ⟨3 + s, 0⟩ := by
  simp [pathPoint, duelTransform, cosf, sinf]

theorem duelShot_fired (x : ℝ) : .fired 0 2 ∈ (duelShot x).2 :=
  List.mem_singleton.mpr rfl

/-- What the calls of the duel record. -/
theorem run_duelCalls (x : ℝ) :
    (system ℝ).run (init false) (duelCalls x) =
      some ((duelShot x).1,
        [.spawned entityTypePlayer 0 1, .spawned entityTypeDestructible 1 0, .fired 0 2]) :=
  rfl

theorem row_duel_zero (x : ℝ) :
    (duel x).registry.row 0 = some (SpawnSystem.row entityTypePlayer ⟨0, 0⟩ 0 1) :=
  rfl

theorem row_duel_one (x : ℝ) :
    (duel x).registry.row 1 = some (SpawnSystem.row entityTypeDestructible ⟨x, 0⟩ 0 0) :=
  rfl

/-- The shot leaves the two rows alone. -/
theorem row_duelShot (x : ℝ) :
    (duelShot x).1.registry.row 0 = (duel x).registry.row 0 ∧
      (duelShot x).1.registry.row 1 = (duel x).registry.row 1 := by
  constructor
  · rw [duelShot, row_queueInput _ _ _ _ Nat.two_pos, row_duel_zero]
    simp [InputSystem.onRow, InputSystem.steer, SpawnSystem.row, shootInput, Velocity.default]
  · rw [duelShot, row_queueInput _ _ _ _ Nat.one_lt_two, row_duel_one]
    rfl

/-- The centre of the destructible. -/
theorem positionOf_duel {x : ℝ} {r : GameRegistry ℝ}
    (h : r.row 1 = (duel x).registry.row 1) :
    CollisionSystem.positionOf r 1 = some (pathPoint duelTransform (x - 3)) := by
  have hx : 3 + (x - 3) = x := by ring
  rw [CollisionSystem.positionOf, h, row_duel_one, pathPoint_duel, hx]
  rfl

/-- The destructible of the duel is unharmed while its row stays. -/
theorem destructibleOf_duel {x : ℝ} {r : GameRegistry ℝ}
    (h : r.row 1 = (duel x).registry.row 1) :
    destructibleOf r 1 = some Destructible.default := by
  simp only [destructibleOf, Engagement.of, h, row_duel_one]
  rfl

/-- The duel after a number of steps, when nothing has been hit. -/
structure Unharmed (x : ℝ) (g : Game ℝ) (n : ℕ) : Prop where
  next_eq : g.registry.next = 3
  bullet : InFlight duelTransform 1 0 2 g n
  tank : g.registry.row 0 = (duel x).registry.row 0
  target : g.registry.row 1 = (duel x).registry.row 1

/-- Before the first step nothing is harmed. -/
theorem unharmed_duelShot (x : ℝ) : Unharmed x (duelShot x).1 0 where
  next_eq := rfl
  bullet := by
    rcases inFlight_of_mem_fired (duelShot_fired x) with ⟨transform, htransform, hflight⟩
    cases htransform
    exact hflight
  tank := (row_duelShot x).1
  target := (row_duelShot x).2

variable {x : ℝ} {g : Game ℝ} {n : ℕ}

/-- A tank without speed stays where it is. -/
theorem onRow_duel_tank :
    MovementSystem.onRow (fixedTimestep : ℝ) (SpawnSystem.row entityTypePlayer ⟨0, 0⟩ 0 1) =
      SpawnSystem.row entityTypePlayer ⟨0, 0⟩ 0 1 := by
  have hslow : ¬ (100 : ℝ) < b2Length ⟨0, 0⟩ := by
    simp [b2Length]
  simp [MovementSystem.onRow, MovementSystem.move, SpawnSystem.row, Velocity.default, hslow]

/-- What the collision system finds of the duel. -/
theorem Unharmed.row_beforeCheck (h : Unharmed x g n) (order : ViewOrder) :
    (g.beforeCheck order).row 0 = (duel x).registry.row 0 ∧
      (g.beforeCheck order).row 1 = (duel x).registry.row 1 := by
  constructor
  · rw [Game.row_beforeCheck, h.tank, row_duel_zero, Option.map_some, onRow_duel_tank]
    rfl
  · rw [Game.row_beforeCheck, h.target, row_duel_one]
    rfl

/-- The duel has three entities. -/
theorem Unharmed.entity_cases (h : Unharmed x g n) (order : ViewOrder) {e : Entity}
    {c : Components ℝ} (hrow : (g.beforeCheck order).row e = some c) :
    e = 0 ∨ e = 1 ∨ e = 2 := by
  have hcases : ∀ m : ℕ, m < 3 → m = 0 ∨ m = 1 ∨ m = 2 := by omega
  have hlt := Registry.lt_next_of_row hrow
  rw [beforeCheck, ShootSystem.next_updated, MovementSystem.next_update, h.next_eq] at hlt
  exact hcases e hlt

/-- The only bullet of the duel is the fired one. -/
theorem Unharmed.bullets_eq (h : Unharmed x g n) (order : ViewOrder) {b : Entity}
    (hb : b ∈ CollisionSystem.bullets order (g.beforeCheck order)) :
    b = 2 ∧ (g.beforeCheck order).row b = some (flightRow duelTransform 1 0 (n + 1)) := by
  rcases Registry.mem_view.mp hb with ⟨c, hrow, htest⟩
  have hrows := h.row_beforeCheck order
  rcases h.entity_cases order hrow with rfl | rfl | rfl
  · rw [hrows.1, row_duel_zero] at hrow
    cases hrow
    cases htest
  · rw [hrows.2, row_duel_one] at hrow
    cases hrow
    cases htest
  · rw [hrow, h.bullet.row_beforeCheck order hrow]
    exact ⟨rfl, rfl⟩

/-- Between two samples: a centre 10 away from the muzzle is more than 5/2 from every
sample point. -/
theorem sample_far (k : ℕ) : ¬ |(13 - 3 : ℝ) - 20 / 3 * (k : ℝ)| < 2 + 1 / 2 := by
  rw [not_lt, le_abs]
  rcases Nat.lt_or_ge k 2 with hk | hk
  · left
    have hle : (k : ℝ) ≤ 1 := by exact_mod_cast Nat.lt_succ_iff.mp hk
    linarith
  · right
    have hge : (2 : ℝ) ≤ k := by exact_mod_cast hk
    linarith

/-- At a distance of 13 no sample of the path is in range. -/
theorem Unharmed.not_inRange (h : Unharmed 13 g n) (order : ViewOrder) {b d : Entity}
    (hb : b ∈ CollisionSystem.bullets order (g.beforeCheck order))
    (hd : d ∈ CollisionSystem.destructibles order (g.beforeCheck order)) :
    bulletEngagement.inRange (g.beforeCheck order) b d = false := by
  rcases h.bullets_eq order hb with ⟨rfl, hrow⟩
  have hrows := h.row_beforeCheck order
  rcases Registry.mem_view.mp hd with ⟨c, hc, htest⟩
  rcases h.entity_cases order hc with rfl | rfl | rfl
  · rw [hrows.1, row_duel_zero] at hc
    cases hc
    cases htest
  · have hiff := inRange_flightRow_iff hrow (positionOf_duel hrows.2)
      (destructibleOf_duel hrows.2)
    exact Bool.eq_false_iff.mpr fun hrange => sample_far (n + 1) (hiff.mp hrange)
  · rw [hrow] at hc
    cases hc
    cases htest

/-- The bullet of the duel strikes no tank: the only one is its own. -/
theorem Unharmed.not_strikesTank (h : Unharmed x g n) (order : ViewOrder) {b t : Entity}
    (hb : b ∈ CollisionSystem.bullets order (g.beforeCheck order))
    (ht : t ∈ CollisionSystem.tanks order (g.beforeCheck order)) :
    CollisionSystem.strikesTank (g.beforeCheck order) b t = false := by
  rcases h.bullets_eq order hb with ⟨rfl, hrow⟩
  have hrows := h.row_beforeCheck order
  rcases Registry.mem_view.mp ht with ⟨c, hc, htest⟩
  rcases h.entity_cases order hc with rfl | rfl | rfl
  · unfold CollisionSystem.strikesTank CollisionSystem.positionOf
    rw [hrow, hrows.1, row_duel_zero]
    rfl
  · rw [hrows.2, row_duel_one] at hc
    cases hc
    cases htest
  · rw [hrow] at hc
    cases hc
    cases htest

/-- The only tank is the one that has fired. -/
theorem Unharmed.bulletVsTank_eq_nil (h : Unharmed x g n) (order : ViewOrder) :
    CollisionSystem.bulletVsTank (g.beforeCheck order)
      (CollisionSystem.bullets order (g.beforeCheck order))
      (CollisionSystem.tanks order (g.beforeCheck order)) = [] := by
  rw [CollisionSystem.bulletVsTank, List.flatMap_eq_nil_iff]
  intro b hb
  rw [List.map_eq_nil_iff, List.filter_eq_nil_iff]
  intro t ht
  rw [h.not_strikesTank order hb ht]
  exact Bool.false_ne_true

/-- The only destructible of the duel is the one on the path. -/
theorem Unharmed.destructibles_eq (h : Unharmed x g n) (order : ViewOrder) {d : Entity}
    (hd : d ∈ CollisionSystem.destructibles order (g.beforeCheck order)) : d = 1 := by
  have hrows := h.row_beforeCheck order
  rcases Registry.mem_view.mp hd with ⟨c, hc, htest⟩
  rcases h.entity_cases order hc with rfl | rfl | rfl
  · rw [hrows.1, row_duel_zero] at hc
    cases hc
    cases htest
  · rfl
  · rw [h.bullet.row_beforeCheck order hc] at htest
    cases htest

/-- The step of a duel goes through: one bullet cannot hit one destructible twice. -/
theorem Unharmed.step_isSome (h : Unharmed x g n) (order : ViewOrder) :
    (g.step order).isSome := by
  rw [step_isSome_iff]
  refine ⟨?_, fun b hb => CollisionSystem.valid_of_mem_resolve hb⟩
  have hbullets : (CollisionSystem.bullets order (g.beforeCheck order)).Nodup :=
    (g.beforeCheck order).nodup_view order _ _
  have hdestructibles : (CollisionSystem.destructibles order (g.beforeCheck order)).Nodup :=
    (g.beforeCheck order).nodup_view order _ _
  rw [CollisionSystem.resolve_snd, h.bulletVsTank_eq_nil order, CollisionSystem.scoredBullets,
    (bulletEngagement.rules _).nodup_scored_append_iff hbullets (by simp)]
  intro pre b post _
  have hsub : CollisionSystem.destructibles order (g.beforeCheck order) ⊆ [1] := fun d hd =>
    List.mem_singleton.mpr (h.destructibles_eq order hd)
  rw [List.count_nil, Nat.add_zero]
  exact (List.length_filter_le _ _).trans (hdestructibles.subperm hsub).length_le

/-- A destructible with its centre on the first sample point is hit in the first tick, and the
bullet is gone. -/
theorem detects_iff_sample_near_duel :
    ∃ v out, (duelShot (29 / 3)).1.step (Enumeration.stored View) = some (v, out) ∧
      CollisionSystem.Harmed ((duelShot (29 / 3)).1.beforeCheck (Enumeration.stored View))
        v.registry 1 ∧ ¬ v.registry.valid 2 := by
  have hfired := duelShot_fired (29 / 3)
  have hreach : (system ℝ).run (init false)
      [.spawnTank ⟨0, 0⟩ 0 1, .spawnDestructible ⟨29 / 3, 0⟩] = some (duel (29 / 3),
        [.spawned entityTypePlayer 0 1, .spawned entityTypeDestructible 1 0]) := rfl
  have hrun : (system ℝ).run (duelShot (29 / 3)).1 [] = some ((duelShot (29 / 3)).1, []) := rfl
  have hvalid : (duelShot (29 / 3)).1.registry.valid 2 := by
    rcases of_mem_fired _ _ _ _ hfired with ⟨_, _, _, _, _, _, _, hrow⟩
    exact Registry.valid_of_row hrow
  have hduel := unharmed_duelShot (29 / 3)
  have hrows := hduel.row_beforeCheck (Enumeration.stored View)
  rcases Option.isSome_iff_exists.mp (hduel.step_isSome (Enumeration.stored View)) with
    ⟨⟨v, out⟩, hstep⟩
  rcases detects_iff_sample_near hreach hfired hrun hvalid (by decide) with
    ⟨transform, htransform, hdetects⟩
  cases htransform
  rcases (hdetects _ 1 _ (positionOf_duel hrows.2)).1 Destructible.default
    (destructibleOf_duel hrows.2) rfl with ⟨_, hafter⟩
  have hdetected := hafter v out hstep
  have hnear : |(29 / 3 - 3 : ℝ) - 20 / 3 * ((stepCount ([] : List (GameCall ℝ)) + 1 : ℕ) : ℝ)| <
      (Destructible.default : Destructible ℝ).radius + 1 / 2 := by
    norm_num [stepCount, Destructible.default]
  have honly : CollisionSystem.OnlyBullet (Enumeration.stored View)
      ((duelShot (29 / 3)).1.beforeCheck (Enumeration.stored View)) 2 1 :=
    fun b hb _ => (hduel.bullets_eq _ hb).1
  exact ⟨v, out, hstep, hdetected.harmed hnear, hdetected.removes honly hnear⟩

/-- The removal list of the duel is empty. -/
theorem Unharmed.resolve_snd (h : Unharmed 13 g n) (order : ViewOrder) :
    (CollisionSystem.resolve order (g.beforeCheck order)).2 = [] := by
  rw [CollisionSystem.resolve_snd, List.append_eq_nil_iff]
  refine ⟨?_, h.bulletVsTank_eq_nil order⟩
  rw [List.eq_nil_iff_forall_not_mem]
  intro b hb
  rcases (bulletEngagement.rules _).mem_of_mem_scored hb with ⟨hbullet, d, hd, hrange⟩
  have hfalse := h.not_inRange order hbullet hd
  exact Bool.false_ne_true (hfalse.symm.trans hrange)

/-- One more step of the duel goes through and hits nothing. -/
theorem Unharmed.step (h : Unharmed 13 g n) (order : ViewOrder) :
    ∃ g' out, g.step order = some (g', out) ∧ Unharmed 13 g' (n + 1) ∧
      ∀ e, .collided e ∉ out := by
  have hempty := h.resolve_snd order
  rcases Option.isSome_iff_exists.mp (h.step_isSome order) with ⟨⟨g', out⟩, hstep⟩
  have hspec := step_spec hstep
  have hnone : ∀ e, .collided e ∉ out := by
    intro e
    rw [mem_collided_iff hstep, hempty]
    simp
  have hrows := h.row_beforeCheck order
  refine ⟨g', out, hstep, ⟨hspec.2.1.trans h.next_eq, ?_, ?_, ?_⟩, hnone⟩
  · have hcall : g.call (.step order) = some (g', out) := hstep
    exact h.bullet.call hcall
  · rw [hspec.2.2, if_neg (hnone 0)]
    rcases CollisionSystem.exists_row_resolve order (g.beforeCheck order) 0 with ⟨n, m, hrow⟩
    have hdest : (bulletEngagement (K := ℝ)).absorb^[n] none = none :=
      Function.iterate_fixed rfl n
    have hcoll : (collectEngagement (K := ℝ)).absorb^[m] none = none :=
      Function.iterate_fixed rfl m
    rw [hrow, hrows.1, row_duel_zero, Option.map_some]
    simp [CollisionSystem.collided, SpawnSystem.row, hdest, hcoll]
  · rw [hspec.2.2, if_neg (hnone 1), CollisionSystem.row_resolve, hrows.2]
    have hdest : CollisionSystem.destructibleAfter order (g.beforeCheck order) 1 =
        some Destructible.default := by
      have hzero : (bulletEngagement.rules (g.beforeCheck order)).pressure
          (CollisionSystem.bullets order (g.beforeCheck order)) 1 = 0 := by
        rw [Volley.Rules.pressure, List.countP_eq_zero]
        intro b hb
        have hd : 1 ∈ CollisionSystem.destructibles order (g.beforeCheck order) :=
          Registry.mem_view.mpr ⟨_, hrows.2.trans (row_duel_one 13), rfl⟩
        have hfalse := h.not_inRange order hb hd
        exact Bool.eq_false_iff.mp hfalse
      rw [CollisionSystem.destructibleAfter, Volley.Rules.after, hzero]
      exact destructibleOf_duel hrows.2
    have hcoll : CollisionSystem.collectibleAfter order (g.beforeCheck order) 1 = none := by
      have hof : collectibleOf (g.beforeCheck order) 1 = none := by
        simp only [collectibleOf, Engagement.of, hrows.2, row_duel_one]
        rfl
      rw [CollisionSystem.collectibleAfter, Volley.Rules.after, hof, Engagement.absorb_rules]
      exact Function.iterate_fixed rfl _
    rw [hdest, hcoll]
    rfl

/-- A bullet passes through the centre of an active destructible, 10 away from the
muzzle, and no step ever detects a hit. -/
theorem exists_passed_unharmed :
    ∃ g h, (system ℝ).run (init false) (duelCalls 13) = some (g, h) ∧ .fired 0 2 ∈ h ∧
      CollisionSystem.positionOf g.registry 1 = some (pathPoint duelTransform (13 - 3)) ∧
      ∀ n, ∃ g' h', (system ℝ).run g
          (List.replicate n (.step (Enumeration.stored View))) = some (g', h') ∧
        CollisionSystem.positionOf g'.registry 1 = some (pathPoint duelTransform (13 - 3)) ∧
        destructibleOf g'.registry 1 = some Destructible.default ∧ ∀ e, .collided e ∉ h' := by
  have hsteps : ∀ n g k, Unharmed 13 g k → ∃ g' h', (system ℝ).run g
      (List.replicate n (.step (Enumeration.stored View))) = some (g', h') ∧
      Unharmed 13 g' (k + n) ∧ ∀ e, .collided e ∉ h' := by
    intro n
    induction n with
    | zero => exact fun g k h => ⟨g, [], rfl, h, by simp⟩
    | succ n ih =>
        intro g k h
        rcases h.step (Enumeration.stored View) with ⟨g₁, out, hstep, hg₁, hout⟩
        rcases ih g₁ (k + 1) hg₁ with ⟨g', h', hrun, hg', hh'⟩
        refine ⟨g', out ++ h', ?_, ?_, ?_⟩
        · exact (Labelled.System.run_cons_eq_some _).mpr ⟨g₁, out, h', hstep, hrun, rfl⟩
        · rwa [Nat.add_assoc, Nat.add_comm 1 n] at hg'
        · intro e he
          rcases List.mem_append.mp he with he | he
          · exact hout e he
          · exact hh' e he
  refine ⟨_, _, run_duelCalls 13, by simp, positionOf_duel (row_duelShot 13).2, fun n => ?_⟩
  rcases hsteps n _ 0 (unharmed_duelShot 13) with ⟨g', h', hrun, hg', hh'⟩
  exact ⟨g', h', hrun, positionOf_duel hg'.target, destructibleOf_duel hg'.target, hh'⟩

end Duel

end Game

end GameFramework
