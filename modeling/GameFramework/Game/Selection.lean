import GameFramework.Game.FrameRate
import GameFramework.Game.Isolation
import Mathlib.Data.List.Forall2

/-!
# Driving and shooting

One input call selects tanks twice: the input system by the low half of the peer
identifier, the shoot system by the whole of it.  Tanks store low halves.  Where no
other peer shares the low half, the input system therefore finds the tanks that were
spawned for the peer, and the shoot system finds the same tanks exactly when the
identifier fits into 32 bits.

Main results:

- Theorem {lit}`Game.recorded_of_reachable`: every tank of a reachable game was spawned.
- Theorem {lit}`Game.isTankOf_iff_listens`: the input system selects the tanks of the peer.
- Theorem {lit}`Game.exists_shots`: what an input call creates.
- Theorem {lit}`Game.drivesAndShoots_iff`: when both systems select the same tanks.
-/

namespace GameFramework

open EntityRegistry

/-- Where a partial function is defined on a list, and its values there. -/
theorem forall₂_filter_filterMap {α β : Type*} (f : α → Option β) (as : List α) :
    List.Forall₂ (fun a b => f a = some b) (as.filter fun a => (f a).isSome)
      (as.filterMap f) := by
  induction as with
  | nil => exact List.Forall₂.nil
  | cons a as ih =>
      cases hfa : f a with
      | none => simpa [hfa] using ih
      | some b => simpa [hfa] using ih

variable {K : Type*} [Field K] [FloatOps K]

namespace Game

/-! ## The selected tanks -/

/-- A live tank that was spawned for the peer. -/
def IsTankOf (g : Game K) (h : List GameEvent) (p : PeerID) (e : Entity) : Prop :=
  g.registry.valid e ∧ .spawned entityTypePlayer e p ∈ h

/-- No tank was spawned for another peer with the same low half. -/
def Unshared (p : PeerID) (h : List GameEvent) : Prop :=
  ∀ e q, .spawned entityTypePlayer e q ∈ h → q.toUInt32 = p.toUInt32 → q = p

/-- A bullet that starts three units ahead of a tank along its rotation, is owned by the
peer and stores the current tick. -/
def IsShotOf (g : Game K) (p : PeerID) (e : Entity) (x : Components K) : Prop :=
  ∃ transform bullet, (g.registry.row e).bind (·.transform) = some transform ∧
    x.transform =
      some ⟨transform.position.push transform.heading 3, transform.rotation⟩ ∧
    x.bullet = some bullet ∧ bullet.ownerPeerId = p ∧ bullet.spawnTick = g.tickCount

/-- An input call with a shot drives the tanks of the peer, lets each of them fire one
bullet and does nothing else. -/
structure DrivesAndShoots (order : ViewOrder) (input : InputState K) (p : PeerID) (g : Game K)
    (h : List GameEvent) : Prop where
  driven : ∀ e, IsTankOf g h p e → ∃ c transform velocity tank, g.registry.row e = some c ∧
    c.transform = some transform ∧ c.velocity = some velocity ∧ c.tank = some tank ∧
    (g.queueInput order input p).1.registry.row e = some
      { c with
        velocity := some
          { linear := velocity.linear.push transform.heading (input.throttle * tank.acceleration)
            angular := input.turn * tank.turnSpeed } }
  spared : ∀ e, e < g.registry.next → ¬ IsTankOf g h p e →
    (g.queueInput order input p).1.registry.row e = g.registry.row e
  shot : ∃ ts xs, ts.Nodup ∧ (∀ e, e ∈ ts ↔ IsTankOf g h p e) ∧
    List.Forall₂ (IsShotOf g p) ts xs ∧
    (g.queueInput order input p).1.registry.next = g.registry.next + xs.length ∧
    ∀ i, (g.queueInput order input p).1.registry.row (g.registry.next + i) = xs[i]?

/-! ## Every tank was spawned -/

/-- Every tank was spawned for some peer, and stores the low half of that peer. -/
def Recorded (g : Game K) (h : List GameEvent) : Prop :=
  ∀ e c, g.registry.row e = some c → ∀ tank, c.tank = some tank →
    ∃ q, .spawned entityTypePlayer e q ∈ h ∧ tank.isPlayer = true ∧
      tank.peerId = q.toUInt32.toUInt64

omit [FloatOps K] in
/-- Only a spawn of a player creates a tank. -/
theorem of_tank_row {entityType : UInt8} {position : B2Vec2 K} {rotation : K} {p : UInt32}
    {tank : Tank K}
    (htank : (SpawnSystem.row entityType position rotation p).tank = some tank) :
    entityType = entityTypePlayer ∧ tank.isPlayer = true ∧ tank.peerId = p.toUInt64 := by
  unfold SpawnSystem.row at htank
  split at htank
  · rename_i htype
    cases htank
    exact ⟨htype, rfl, rfl⟩
  · split at htank
    · cases htank
    · split at htank
      · cases htank
      · split at htank <;> cases htank

section Reachable

variable [LinearOrder K] [FloorSemiring K] {g g' : Game K} {h out : List GameEvent}
  {isServer : Bool} {calls : List (GameCall K)} {p : PeerID}

theorem recorded_call {gameCall : GameCall K} (hrecorded : Recorded g h)
    (hcall : g.call gameCall = some (g', out)) : Recorded g' (h ++ out) := by
  intro e c hrow tank htank
  rcases Nat.lt_or_ge e g.registry.next with he | he
  · have hkept := Kept.tank (K := K) fun tank =>
      ∃ q, .spawned entityTypePlayer e q ∈ h ∧ tank.isPlayer = true ∧
        tank.peerId = q.toUInt32.toUInt64
    rcases row_call_of_kept hkept hcall he (hrecorded e) c hrow tank htank with
      ⟨q, hspawned, hplayer, hpeer⟩
    exact ⟨q, List.mem_append_left out hspawned, hplayer, hpeer⟩
  · rcases row_new hcall he hrow with
      ⟨entityType, position, rotation, q, hspawned, rfl⟩ | ⟨_, transform, q, _, rfl⟩
    · rcases of_tank_row htank with ⟨rfl, hplayer, hpeer⟩
      exact ⟨q, List.mem_append_right h hspawned, hplayer, hpeer⟩
    · cases htank

/-- Every tank of a reachable game was spawned. -/
theorem recorded_of_reachable (hrun : (system K).run (init isServer) calls = some (g, h)) :
    Recorded g h := by
  refine (system K).run_invariant Recorded ?_ ?_ hrun
  · have hnone : ∀ e c, (init isServer : Game K).registry.row e = some c → c.tank = none := by
      refine row_init ?_ isServer
      intro entityType htype position rotation peerId
      have hne : entityTypePlayer ∉ [entityTypeCollectible, entityTypeDestructible] := by decide
      by_contra htank
      rcases Option.ne_none_iff_exists'.mp htank with ⟨tank, htank⟩
      exact hne ((of_tank_row htank).1 ▸ htype)
    intro e c hrow tank htank
    rw [hnone e c hrow] at htank
    contradiction
  · intro g h gameCall g' out hrecorded hcall
    exact recorded_call hrecorded hcall

/-- Only an identifier that fits into 32 bits is stored. -/
theorem toUInt64_eq_of_stored (hrun : (system K).run (init isServer) calls = some (g, h))
    {e : Entity} {c : Components K} {tank : Tank K} (hrow : g.registry.row e = some c)
    (htank : c.tank = some tank) (hpeer : tank.peerId = p) : p.toUInt32.toUInt64 = p := by
  rcases recorded_of_reachable hrun e c hrow tank htank with ⟨q, _, _, hlow⟩
  rw [hpeer] at hlow
  rw [hlow, UInt32.toUInt32_toUInt64]

/-- Where no other peer shares the low half, the tanks that listen to the peer are those
spawned for it. -/
theorem isTankOf_iff_listens (hrun : (system K).run (init isServer) calls = some (g, h))
    (hunshared : Unshared p h) {e : Entity} :
    IsTankOf g h p e ↔
      ∃ c tank, g.registry.row e = some c ∧ c.tank = some tank ∧ tank.Listens p := by
  constructor
  · rintro ⟨hvalid, hspawned⟩
    rcases Registry.valid_iff_exists_row.mp hvalid with ⟨c, hrow⟩
    rcases (owned_of_reachable hrun e p hspawned).2 c hrow with ⟨tank, htank, hpeer⟩
    rcases recorded_of_reachable hrun e c hrow tank htank with ⟨_, _, hplayer, _⟩
    exact ⟨c, tank, hrow, htank, hplayer, hpeer⟩
  · rintro ⟨c, tank, hrow, htank, hlistens⟩
    rcases recorded_of_reachable hrun e c hrow tank htank with ⟨q, hspawned, _, hpeer⟩
    have hlow : q.toUInt32 = p.toUInt32 := UInt32.toUInt64_inj.mp (hpeer.symm.trans hlistens.2)
    have hq : q = p := hunshared e q hspawned hlow
    exact ⟨Registry.valid_of_row hrow, hq ▸ hspawned⟩

/-! ## What the two systems do -/

omit [LinearOrder K] [FloorSemiring K] in
/-- What a tank fires is a shot of it. -/
theorem isShotOf_of_shotRow {e : Entity} {x : Components K}
    (hshot : (g.registry.row e).bind (ShootSystem.shotRow g.tickCount p) = some x) :
    IsShotOf g p e x := by
  rcases Option.bind_eq_some_iff.mp hshot with ⟨c, hrow, hfires⟩
  unfold ShootSystem.shotRow at hfires
  split at hfires
  · rename_i transform tank htransform htank
    split at hfires
    · contradiction
    · cases hfires
      exact ⟨transform, _, by rw [hrow]; exact htransform, rfl, rfl, rfl, rfl⟩
  · contradiction

/-- The tanks that fire are those that store the whole identifier of the peer. -/
theorem isSome_shotRow_iff (hrun : (system K).run (init isServer) calls = some (g, h))
    {e : Entity} :
    ((g.registry.row e).bind (ShootSystem.shotRow g.tickCount p)).isSome ↔
      ∃ c tank, g.registry.row e = some c ∧ c.tank = some tank ∧ tank.isPlayer = true ∧
        tank.peerId = p := by
  cases hrow : g.registry.row e with
  | none => simp
  | some c =>
      cases htank : c.tank with
      | none => simp [ShootSystem.shotRow_of_not_tank htank, htank]
      | some tank =>
          have htransform := (fits_tank_of_reachable hrun hrow htank).isSome (k := .transform)
            (by decide)
          rcases Option.isSome_iff_exists.mp htransform with ⟨transform, ht⟩
          simp only [Option.bind_some, ShootSystem.shotRow, ht, htank, Option.some.injEq,
            exists_and_left, exists_eq_left']
          by_cases hfires : tank.isPlayer = true ∧ tank.peerId = p
          · simp [hfires.1, hfires.2]
          · rw [if_pos (Tank.skipped_iff.mpr hfires)]
            simp only [Option.isSome_none, Bool.false_eq_true, false_iff]
            exact hfires

/-- What an input call with a shot creates: one shot for each tank that stores the whole
identifier of the peer, and nothing else. -/
theorem exists_shots (hrun : (system K).run (init isServer) calls = some (g, h))
    {input : InputState K} (hshoot : input.shoot = true) (order : ViewOrder) (p : PeerID) :
    ∃ ts xs, ts.Nodup ∧
      (∀ e, e ∈ ts ↔ ∃ c tank, g.registry.row e = some c ∧ c.tank = some tank ∧
        tank.isPlayer = true ∧ tank.peerId = p) ∧
      List.Forall₂ (IsShotOf g p) ts xs ∧
      (g.queueInput order input p).1.registry.next = g.registry.next + xs.length ∧
      ∀ i, (g.queueInput order input p).1.registry.row (g.registry.next + i) = xs[i]? := by
  rcases queueInput_tanks order hshoot p g with ⟨ts, hperm, hregistry⟩
  have hnodup : ts.Nodup := hperm.nodup_iff.mpr (g.registry.nodup.filter _)
  have hshots := forall₂_filter_filterMap
    (fun e => (g.registry.row e).bind (ShootSystem.shotRow g.tickCount p)) ts
  refine ⟨_, _, hnodup.filter _, fun e => ?_,
    hshots.imp fun e x hshot => isShotOf_of_shotRow hshot, ?_, fun i => ?_⟩
  · rw [List.mem_filter, isSome_shotRow_iff hrun, hperm.mem_iff, List.mem_filter]
    constructor
    · rintro ⟨_, hfires⟩
      exact hfires
    · rintro ⟨c, tank, hrow, htank, hfires⟩
      have hfits := fits_tank_of_reachable hrun hrow htank
      refine ⟨⟨Registry.valid_of_row hrow, ?_⟩, c, tank, hrow, htank, hfires⟩
      have htransform := hfits.isSome (k := .transform) (by decide)
      rw [hrow, Option.any_some, Components.hasTransformTank, htank]
      exact (Bool.and_true _).trans htransform
  · rw [hregistry, Registry.next_createAll, InputSystem.next_apply]
  · rw [hregistry, ← InputSystem.next_apply order g.registry p.toUInt32 input,
      Registry.row_createAll_add]

/-! ## Both together -/

/-- Where no other peer shares the low half, the input system drives the tanks of the
peer and no others. -/
theorem row_queueInput_of_isTankOf
    (hrun : (system K).run (init isServer) calls = some (g, h)) (hunshared : Unshared p h)
    (order : ViewOrder) (input : InputState K) {e : Entity} (htankOf : IsTankOf g h p e) :
    ∃ c transform velocity tank, g.registry.row e = some c ∧ c.transform = some transform ∧
      c.velocity = some velocity ∧ c.tank = some tank ∧
      (g.queueInput order input p).1.registry.row e = some
        { c with
          velocity := some
            { linear :=
                velocity.linear.push transform.heading (input.throttle * tank.acceleration)
              angular := input.turn * tank.turnSpeed } } := by
  rcases (isTankOf_iff_listens hrun hunshared).mp htankOf with ⟨c, tank, hrow, htank, hlistens⟩
  have hfits := fits_tank_of_reachable hrun hrow htank
  rcases Option.isSome_iff_exists.mp (hfits.isSome (k := .transform) (by decide)) with
    ⟨transform, ht⟩
  rcases Option.isSome_iff_exists.mp (hfits.isSome (k := .velocity) (by decide)) with
    ⟨velocity, hv⟩
  refine ⟨c, transform, velocity, tank, hrow, ht, hv, htank, ?_⟩
  rw [row_queueInput order input p g (Registry.lt_next_of_row hrow), hrow, Option.map_some]
  simp only [InputSystem.onRow, ht, hv, htank, InputSystem.steer_of_listens hlistens]

theorem row_queueInput_of_not_isTankOf
    (hrun : (system K).run (init isServer) calls = some (g, h)) (hunshared : Unshared p h)
    (order : ViewOrder) (input : InputState K) {e : Entity} (he : e < g.registry.next)
    (hnot : ¬ IsTankOf g h p e) :
    (g.queueInput order input p).1.registry.row e = g.registry.row e := by
  rw [row_queueInput order input p g he]
  cases hrow : g.registry.row e with
  | none => rfl
  | some c =>
      rw [Option.map_some, InputSystem.onRow_of_skipped]
      intro tank htank hlistens
      exact hnot ((isTankOf_iff_listens hrun hunshared).mpr ⟨c, tank, hrow, htank, hlistens⟩)

/-- In every reachable game, where no other peer shares the low half of the identifier: an
input call with a shot drives exactly the tanks of the peer and lets exactly them fire,
once each, if and only if the identifier fits into 32 bits or the peer has no tank. -/
theorem drivesAndShoots_iff (hrun : (system K).run (init isServer) calls = some (g, h))
    (hunshared : Unshared p h) {input : InputState K} (hshoot : input.shoot = true)
    (order : ViewOrder) :
    DrivesAndShoots order input p g h ↔
      p.toUInt32.toUInt64 = p ∨ ∀ e, ¬ IsTankOf g h p e := by
  rcases exists_shots hrun hshoot order p with ⟨ts, xs, hnodup, hmem, hshots, hnext, hrows⟩
  constructor
  · intro hboth
    rcases hboth.shot with ⟨ts', xs', _, hmem', hshots', hnext', _⟩
    by_contra hnot
    rw [not_or, not_forall_not] at hnot
    rcases hnot with ⟨hwide, e, he⟩
    have hnone : ts = [] := by
      refine List.eq_nil_iff_forall_not_mem.mpr fun t ht => ?_
      rcases (hmem t).mp ht with ⟨c, tank, hrow, htank, _, hpeer⟩
      exact hwide (toUInt64_eq_of_stored hrun hrow htank hpeer)
    have hlength : xs.length = xs'.length := Nat.add_left_cancel (hnext.symm.trans hnext')
    rw [← hshots.length_eq, ← hshots'.length_eq, hnone] at hlength
    have hpos : 0 < ts'.length := List.length_pos_of_mem ((hmem' e).mpr he)
    rw [← hlength] at hpos
    contradiction
  · intro hfits
    refine ⟨fun e he => row_queueInput_of_isTankOf hrun hunshared order input he,
      fun e he hnot => row_queueInput_of_not_isTankOf hrun hunshared order input he hnot,
      ts, xs, hnodup, fun e => ?_, hshots, hnext, hrows⟩
    rw [hmem]
    rcases hfits with hnarrow | hnone
    · rw [isTankOf_iff_listens hrun hunshared]
      simp only [Tank.Listens, hnarrow]
    · constructor
      · rintro ⟨c, tank, hrow, htank, hplayer, hpeer⟩
        have hnarrow := toUInt64_eq_of_stored hrun hrow htank hpeer
        exact (isTankOf_iff_listens hrun hunshared).mpr
          ⟨c, tank, hrow, htank, hplayer, hpeer.trans hnarrow.symm⟩
      · intro he
        exact absurd he (hnone e)

end Reachable

/-- Full throttle and a shot. -/
def attack : InputState ℚ where
  throttle := 1
  turn := 0
  shoot := true

/-- A peer with a small identifier. -/
theorem drivesAndShoots_iff_small :
    ∃ g h, (system ℚ).run (init false) [.spawnTank ⟨0, 0⟩ 0 7] = some (g, h) ∧
      DrivesAndShoots (Enumeration.stored View) attack 7 g h := by
  have hrun : (system ℚ).run (init false) [.spawnTank ⟨0, 0⟩ 0 7] =
    some ((init false : Game ℚ).spawnTank ⟨0, 0⟩ 0 7) := rfl
  have hunshared : Unshared 7 ((init false : Game ℚ).spawnTank ⟨0, 0⟩ 0 7).2 := by
    intro e q hspawned _
    exact (eq_next_of_mem_spawn hspawned).2.2.symm
  exact ⟨_, _, hrun, (drivesAndShoots_iff hrun hunshared rfl (Enumeration.stored View)).mpr
    (Or.inl rfl)⟩

/-- A peer whose identifier has more than 32 bits drives its tank and cannot fire. -/
theorem exists_not_drivesAndShoots :
    ∃ g h, (system ℚ).run (init false) [.spawnTank ⟨0, 0⟩ 0 4294967297] = some (g, h) ∧
      Unshared 4294967297 h ∧ attack.shoot = true ∧
      ¬ DrivesAndShoots (Enumeration.stored View) attack 4294967297 g h := by
  have hrun : (system ℚ).run (init false) [.spawnTank ⟨0, 0⟩ 0 4294967297] =
    some ((init false : Game ℚ).spawnTank ⟨0, 0⟩ 0 4294967297) := rfl
  have hunshared : Unshared 4294967297 ((init false : Game ℚ).spawnTank ⟨0, 0⟩ 0 4294967297).2 := by
    intro e q hspawned _
    exact (eq_next_of_mem_spawn hspawned).2.2.symm
  have htank : IsTankOf ((init false : Game ℚ).spawnTank ⟨0, 0⟩ 0 4294967297).1
      ((init false : Game ℚ).spawnTank ⟨0, 0⟩ 0 4294967297).2 4294967297 0 :=
    ⟨List.mem_singleton.mpr rfl, List.mem_singleton.mpr rfl⟩
  refine ⟨_, _, hrun, hunshared, rfl, fun hboth => ?_⟩
  rcases hboth.shot with ⟨ts, xs, _, hmem, hshots, hnext, _⟩
  have hquiet : (((init false : Game ℚ).spawnTank ⟨0, 0⟩ 0 4294967297).1.queueInput
      (Enumeration.stored View) attack 4294967297).1.registry.next = 1 := rfl
  have hlength : 1 = 1 + xs.length := hquiet.symm.trans hnext
  rw [← hshots.length_eq] at hlength
  have hpos : 0 < ts.length := List.length_pos_of_mem ((hmem 0).mpr htank)
  omega

end Game

end GameFramework
