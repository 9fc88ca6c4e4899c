import GameFramework.Game.Commute
import GameFramework.Game.Flight
import GameFramework.Game.Removal
import GameFramework.Game.SpeedLimit

/-!
# Frames and ticks

The client delivers the held keys once per frame and steps once per tick.  Every
delivery adds the throttle to the velocity again, so a tick with several frames
pushes a tank several times as hard.  Nothing shows of this in exactly three cases:
there was one frame, the throttle was released, or the speed limit hides it because
the tank drives along its heading at the limit either way.

Main results:

- Definition {lit}`ThrottleHidden`: when a tank does not show how often it was pushed.
- Theorem {lit}`cruise_steer_iff`: that it does not is what a step makes of the pushes.
- Theorem {lit}`Game.step_queueAll_iff`: which games step to the same game after one
  delivery and after several.
- Theorem {lit}`Game.play_eq`: the same over many ticks.
- Theorem {lit}`Game.exists_not_frameRate`: two frames in the first tick move a tank
  twice as far as one.
-/

namespace GameFramework

open EntityRegistry

variable {K : Type*} [Field K] [LinearOrder K] [FloatOps K]

/-! ## Repeated steering -/

/-- The tank is one that an input of the peer steers. -/
def Tank.Listens (tank : Tank K) (peerId : PeerID) : Prop :=
  tank.isPlayer = true ∧ tank.peerId = peerId.toUInt32.toUInt64

/-- The unit vector along the rotation. -/
def Transform.heading (transform : Transform K) : B2Vec2 K :=
  ⟨cosf transform.rotation, sinf transform.rotation⟩

omit [LinearOrder K] [FloatOps K] in
theorem B2Vec2.push_push (p heading : B2Vec2 K) (a b : K) :
    (p.push heading a).push heading b = p.push heading (a + b) := by
  simp only [push, mul_add, add_assoc]

namespace InputSystem

variable {peerId : PeerID} {input : InputState K} {tank : Tank K}

omit [LinearOrder K] in
/-- A tank that listens is pushed along its heading and turned. -/
theorem steer_of_listens (h : tank.Listens peerId) (transform : Transform K)
    (velocity : Velocity K) :
    steer peerId.toUInt32 input transform velocity tank =
      { linear := velocity.linear.push transform.heading (input.throttle * tank.acceleration)
        angular := input.turn * tank.turnSpeed } := by
  simp only [steer, h.1, h.2, Bool.not_true, bne_self_eq_false, Bool.or_self,
    Bool.false_eq_true, if_false, B2Vec2.push, Transform.heading, mul_assoc]

omit [LinearOrder K] in
theorem steer_of_not_listens (h : ¬ tank.Listens peerId) (transform : Transform K)
    (velocity : Velocity K) :
    steer peerId.toUInt32 input transform velocity tank = velocity := by
  rw [steer, if_pos (Tank.skipped_iff.mpr h)]

omit [LinearOrder K] in
/-- Repeated pushes add up, and the last turn stays. -/
theorem steer_iterate (h : tank.Listens peerId) (transform : Transform K)
    (velocity : Velocity K) (k : ℕ) :
    (fun v => steer peerId.toUInt32 input transform v tank)^[k + 1] velocity =
      { linear := velocity.linear.push transform.heading
          (((k + 1 : ℕ) : K) * (input.throttle * tank.acceleration))
        angular := input.turn * tank.turnSpeed } := by
  induction k with
  | zero =>
      rw [Function.iterate_one, steer_of_listens h, Nat.zero_add, Nat.cast_one, one_mul]
  | succ k ih =>
      rw [Function.iterate_succ_apply', ih, steer_of_listens h, B2Vec2.push_push]
      push_cast
      congr 2
      ring

omit [LinearOrder K] in
/-- Repeated steering of a row changes its velocity. -/
theorem onRow_iterate (p : UInt32) (input : InputState K) {c : Components K}
    {transform : Transform K} {velocity : Velocity K} {tank : Tank K}
    (ht : c.transform = some transform) (hv : c.velocity = some velocity)
    (hk : c.tank = some tank) (k : ℕ) :
    (onRow p input)^[k] c =
      { c with velocity := some ((fun v => steer p input transform v tank)^[k] velocity) } := by
  induction k with
  | zero =>
      rw [Function.iterate_zero_apply, Function.iterate_zero_apply, ← hv]
  | succ k ih =>
      rw [Function.iterate_succ_apply', ih, Function.iterate_succ_apply']
      simp only [onRow, ht, hk]

end InputSystem

/-- The tank does not show whether an input pushed it {lit}`k` times or once: it was once, or
the throttle is released, or the tank drives along its heading and the speed limit
binds either way. -/
def ThrottleHidden (k : ℕ) (input : InputState K) (transform : Transform K)
    (velocity : Velocity K) (tank : Tank K) : Prop :=
  k = 1 ∨ input.throttle = 0 ∨ ∃ s, velocity.linear = transform.heading.scale s ∧
    0 < (s + (k : K) * (input.throttle * tank.acceleration)) *
        (s + input.throttle * tank.acceleration) ∧
      tank.maxSpeed ≤
        tank.friction * |s + (k : K) * (input.throttle * tank.acceleration)| ∧
      tank.maxSpeed ≤ tank.friction * |s + input.throttle * tank.acceleration|

/-- What a step makes of the velocity is the same after {lit}`k` deliveries as after one
exactly when the throttle is hidden. -/
theorem cruise_steer_iff [IsStrictOrderedRing K] [LawfulFloatOps K] {peerId : PeerID}
    {tank : Tank K} (htank : tank.Drivable) (hlistens : tank.Listens peerId)
    (input : InputState K) (transform : Transform K) (velocity : Velocity K) {k : ℕ}
    (hk : 1 ≤ k) :
    tank.cruise ((fun v => InputSystem.steer peerId.toUInt32 input transform v tank)^[k]
        velocity) =
        tank.cruise (InputSystem.steer peerId.toUInt32 input transform velocity tank) ↔
      ThrottleHidden k input transform velocity tank := by
  have hunit : transform.heading.x ^ 2 + transform.heading.y ^ 2 = 1 :=
    LawfulFloatOps.cosf_sq_add_sinf_sq transform.rotation
  rcases Nat.exists_eq_add_of_le' hk with ⟨n, rfl⟩
  have heq : ((n + 1 : ℕ) : K) * (input.throttle * tank.acceleration) =
      input.throttle * tank.acceleration ↔ n + 1 = 1 ∨ input.throttle = 0 := by
    constructor
    · intro hsame
      by_cases hthrottle : input.throttle = 0
      · exact Or.inr hthrottle
      · left
        have hone := (mul_eq_right₀ (mul_ne_zero hthrottle htank.acceleration_ne)).mp hsame
        exact_mod_cast hone
    · rintro (hone | hzero)
      · rw [hone, Nat.cast_one, one_mul]
      · rw [hzero, zero_mul, mul_zero]
  rw [InputSystem.steer_iterate hlistens, InputSystem.steer_of_listens hlistens,
    Tank.cruise_eq_iff htank hunit, heq, ThrottleHidden, or_assoc]

/-! ## Deliveries between two steps -/

/-- The throttle of the input is hidden on the row. -/
def Components.Hides (c : Components K) (k : ℕ) (input : InputState K) (peerId : PeerID) :
    Prop :=
  ∀ transform velocity tank, c.transform = some transform → c.velocity = some velocity →
    c.tank = some tank → tank.Listens peerId → ThrottleHidden k input transform velocity tank

namespace Game

/-- The throttle of the input is hidden on every row. -/
def Hides (g : Game K) (k : ℕ) (input : InputState K) (peerId : PeerID) : Prop :=
  ∀ e c, g.registry.row e = some c → c.Hides k input peerId

/-- The same input for the same peer, once for each call. -/
def held (input : InputState K) (peerId : PeerID) (orders : List ViewOrder) :
    List (Delivery K) :=
  orders.map fun order => (order, input, peerId)

omit [LinearOrder K] in
theorem steerAll_held (input : InputState K) (peerId : PeerID) (orders : List ViewOrder) :
    steerAll ((held input peerId orders).map Prod.snd) =
      (InputSystem.onRow peerId.toUInt32 input)^[orders.length] := by
  funext c
  induction orders generalizing c with
  | nil => rfl
  | cons order orders ih =>
      rw [List.length_cons, Function.iterate_succ_apply]
      exact ih _

omit [LinearOrder K] in
/-- Without a shot, deliveries only steer the rows. -/
theorem delivered_held {input : InputState K} (hshoot : input.shoot = false)
    (peerId : PeerID) (orders : List ViewOrder) (g : Game K) :
    (g.queueAll (held input peerId orders)).isServer = g.isServer ∧
      (g.queueAll (held input peerId orders)).tickCount = g.tickCount ∧
      (g.queueAll (held input peerId orders)).registry.next = g.registry.next ∧
      (g.queueAll (held input peerId orders)).registry.entities = g.registry.entities ∧
      ∀ e, (g.queueAll (held input peerId orders)).registry.row e =
        (g.registry.row e).map
          (InputSystem.onRow peerId.toUInt32 input)^[orders.length] := by
  rcases delivered_queueAll g (held input peerId orders) with ⟨xs, h⟩
  have hnil : xs = [] := by
    refine List.eq_nil_iff_forall_not_mem.mpr fun x hx => ?_
    rcases List.mem_flatMap.mp (h.perm.mem_iff.mp hx) with ⟨y, hy, hshot⟩
    rcases List.mem_map.mp hy with ⟨d, hd, rfl⟩
    rcases List.mem_map.mp hd with ⟨order, _, rfl⟩
    simp [volley, hshoot] at hshot
  subst hnil
  refine ⟨h.isServer, h.tickCount, h.next, h.entities.trans (List.append_nil _), fun e => ?_⟩
  rcases Nat.lt_or_ge e g.registry.next with he | he
  · rw [h.row_old e he, steerAll_held]
  · rw [Registry.row_eq_none_of_next_le he,
      Registry.row_eq_none_of_next_le (h.next.trans_le he)]
    rfl

variable [FloorSemiring K]

/-- A step depends on the registry only through what the movement system makes of it. -/
theorem step_congr {g₁ g₂ : Game K} (order : ViewOrder) (hserver : g₁.isServer = g₂.isServer)
    (htick : g₁.tickCount = g₂.tickCount)
    (hentities : g₁.registry.entities = g₂.registry.entities)
    (hnext : g₁.registry.next = g₂.registry.next)
    (hrow : ∀ e, (g₁.registry.row e).map (MovementSystem.onRow fixedTimestep) =
      (g₂.registry.row e).map (MovementSystem.onRow fixedTimestep)) :
    g₁.step order = g₂.step order := by
  have hmoved : MovementSystem.update order g₁.registry fixedTimestep =
      MovementSystem.update order g₂.registry fixedTimestep := by
    refine Registry.ext ?_ (fun e => ?_) ?_
    · exact (Registry.entities_each _ _ _).trans
        (hentities.trans (Registry.entities_each _ _ _).symm)
    · rw [MovementSystem.row_update, MovementSystem.row_update, hrow]
    · rw [MovementSystem.next_update, MovementSystem.next_update, hnext]
  unfold step
  rw [hmoved, htick, hserver]

section Ordered

variable [IsStrictOrderedRing K] {isServer : Bool} {calls : List (GameCall K)}
  {g g₁ g₂ : Game K} {h out : List GameEvent}

omit [IsStrictOrderedRing K] in
/-- A step removes nothing but bullets. -/
theorem valid_step_of_fits {a : Archetype} (ha : a ≠ .bullet) {order : ViewOrder}
    (hstep : g.step order = some (g₁, out)) {e : Entity} {c : Components K}
    (hrow : g.registry.row e = some c) (hc : a.Fits c) : g₁.registry.valid e := by
  rw [valid_step_iff hstep]
  refine ⟨Registry.valid_of_row hrow, ?_, ?_⟩
  · rw [mem_expired_iff hstep]
    rintro ⟨c', hc', hexpired⟩
    rw [hrow] at hc'
    cases hc'
    have hbullet := ((kept_fits a).move c hc).bullet_eq_none ha
    have hview : (MovementSystem.onRow fixedTimestep c).hasTransformVelocityBullet = false := by
      simp [Components.hasTransformVelocityBullet, hbullet]
    rw [ShootSystem.onRow_of_not_view _ _ hview] at hexpired
    contradiction
  · rw [mem_collided_iff hstep]
    intro hmem
    rcases Registry.mem_view.mp (CollisionSystem.mem_bullets_of_mem_resolve hmem) with
      ⟨c', hc', hview⟩
    have hfits : a.Fits c' := by
      refine (kept_fits a).beforeCheck order (fun c₀ hc₀ => ?_) c' hc'
      rw [hrow] at hc₀
      exact Option.some.inj hc₀ ▸ hc
    simp [Components.hasTransformBullet, hfits.bullet_eq_none ha] at hview

/-- Every tank of a reachable game is drivable. -/
theorem drivable_of_reachable
    (hrun : (system K).run (init isServer) calls = some (g, h)) :
    ∀ e c, g.registry.row e = some c → ∀ tank, c.tank = some tank → tank.Drivable := by
  refine row_of_reachable (Kept.tank _) ?_ ?_ hrun
  · intro entityType position rotation peerId tank htank
    unfold SpawnSystem.row at htank
    split at htank
    · rw [← Option.some.inj htank]
      constructor <;> norm_num
    · split at htank
      · cases htank
      · split at htank
        · cases htank
        · split at htank <;> cases htank
  · intro transform peerId tick tank htank
    cases htank

variable {input : InputState K} {peerId : PeerID} {orders : List ViewOrder}

omit [IsStrictOrderedRing K] in
/-- The row of a tank that listens, before a step that goes through, and the velocity
that the step makes of it. -/
theorem cruise_of_step (hshoot : input.shoot = false) {order : ViewOrder}
    (hstep : (g.queueAll (held input peerId orders)).step order = some (g₁, out))
    (hfits : ∀ e c, g.registry.row e = some c → ∃ a : Archetype, a.Fits c) {e : Entity}
    {c : Components K} {transform : Transform K} {velocity : Velocity K} {tank : Tank K}
    (hrow : g.registry.row e = some c) (ht : c.transform = some transform)
    (hv : c.velocity = some velocity) (hk : c.tank = some tank) :
    ∃ c', g₁.registry.row e = some c' ∧ c'.velocity = some (tank.cruise
      ((fun v => InputSystem.steer peerId.toUInt32 input transform v tank)^[orders.length]
        velocity)) := by
  have hiterate : ∀ (a : Archetype) (n : ℕ) (c : Components K), a.Fits c →
      a.Fits ((InputSystem.onRow peerId.toUInt32 input)^[n] c) := by
    intro a n
    induction n with
    | zero => exact fun _ hc => hc
    | succ n ih => exact fun c hc => ih _ ((kept_fits a).steer _ _ c hc)
  have htank : Archetype.tank.Fits c := by
    rcases hfits e c hrow with ⟨a, ha⟩
    exact ha.tank_fits hk
  have hrow' := (delivered_held hshoot peerId orders g).2.2.2.2 e
  rw [hrow, Option.map_some] at hrow'
  have hfits' := hiterate .tank orders.length c htank
  have hvalid := valid_step_of_fits (by decide) hstep hrow' hfits'
  rcases Registry.valid_iff_exists_row.mp hvalid with ⟨c', hc'⟩
  refine ⟨c', hc', ?_⟩
  rcases advances_step hstep hc' (fun c₀ hc₀ => ⟨.tank, by
    rw [hrow'] at hc₀
    exact Option.some.inj hc₀ ▸ hfits'⟩) with ⟨a, c₀, hc₀, ha, _, hadvance⟩
  rw [hrow'] at hc₀
  cases hc₀
  have heq : a = .tank := ha.unique hfits'
  subst heq
  rcases hadvance with ⟨transform', velocity', tank', _, hv', hk', _, hcruise, _⟩
  rw [InputSystem.onRow_iterate _ _ ht hv hk] at hv' hk'
  simp only [hk, Option.some.injEq] at hv' hk'
  rw [hcruise, ← hv', ← hk']

variable [LawfulFloatOps K]

omit [FloorSemiring K] in
/-- Where the throttle is hidden on a row, the movement system makes the same of several
deliveries as of one. -/
theorem onRow_iterate_eq {c : Components K}
    (hdrivable : ∀ tank, c.tank = some tank → tank.Drivable) {k : ℕ} (hk : 1 ≤ k)
    (hhides : c.Hides k input peerId) :
    MovementSystem.onRow fixedTimestep ((InputSystem.onRow peerId.toUInt32 input)^[k] c) =
      MovementSystem.onRow fixedTimestep (InputSystem.onRow peerId.toUInt32 input c) := by
  cases hview : c.hasTransformVelocityTank with
  | false =>
      have hfixed := InputSystem.onRow_of_not_view peerId.toUInt32 input hview
      rw [Function.iterate_fixed hfixed, hfixed]
  | true =>
      simp only [Components.hasTransformVelocityTank, Bool.and_eq_true] at hview
      rcases Option.isSome_iff_exists.mp hview.1.1 with ⟨transform, ht⟩
      rcases Option.isSome_iff_exists.mp hview.1.2 with ⟨velocity, hv⟩
      rcases Option.isSome_iff_exists.mp hview.2 with ⟨tank, htank⟩
      have hcruise : tank.cruise
          ((fun v => InputSystem.steer peerId.toUInt32 input transform v tank)^[k] velocity) =
          tank.cruise (InputSystem.steer peerId.toUInt32 input transform velocity tank) := by
        by_cases hlistens : tank.Listens peerId
        · exact (cruise_steer_iff (hdrivable tank htank) hlistens input transform velocity
            hk).mpr (hhides transform velocity tank ht hv htank hlistens)
        · have hfixed : InputSystem.steer peerId.toUInt32 input transform velocity tank =
              velocity := InputSystem.steer_of_not_listens hlistens transform velocity
          rw [Function.iterate_fixed hfixed, hfixed]
      have honce := InputSystem.onRow_iterate peerId.toUInt32 input ht hv htank 1
      rw [Function.iterate_one, Function.iterate_one] at honce
      rw [honce, InputSystem.onRow_iterate _ _ ht hv htank]
      simp only [MovementSystem.onRow, ht, htank, MovementSystem.move_eq, hcruise]

/-- Where the throttle is hidden, a step makes the same of several deliveries as of
one. -/
theorem step_queueAll_eq (hdrivable : ∀ e c, g.registry.row e = some c →
      ∀ tank, c.tank = some tank → tank.Drivable)
    (hshoot : input.shoot = false) (horders : orders ≠ [])
    (hhides : g.Hides orders.length input peerId) (order first : ViewOrder) :
    (g.queueAll (held input peerId orders)).step order =
      (g.queueAll (held input peerId [first])).step order := by
  rcases delivered_held hshoot peerId orders g with ⟨hs, ht, hn, he, hrow⟩
  rcases delivered_held hshoot peerId [first] g with ⟨hs', ht', hn', he', hrow'⟩
  refine step_congr order (hs.trans hs'.symm) (ht.trans ht'.symm) (he.trans he'.symm)
    (hn.trans hn'.symm) fun e => ?_
  rw [hrow e, hrow' e]
  cases hc : g.registry.row e with
  | none => rfl
  | some c =>
      exact congrArg some (onRow_iterate_eq (hdrivable e c hc)
        (List.length_pos_of_ne_nil horders) (hhides e c hc))

/-- A step makes the same game of several deliveries as of one exactly when the
throttle is hidden. -/
theorem step_queueAll_iff (hrun : (system K).run (init isServer) calls = some (g, h))
    (hshoot : input.shoot = false) (horders : orders ≠ []) {order first : ViewOrder}
    (hstep : (g.queueAll (held input peerId [first])).step order = some (g₁, out)) :
    (∃ out', (g.queueAll (held input peerId orders)).step order = some (g₁, out')) ↔
      g.Hides orders.length input peerId := by
  have hdrivable := drivable_of_reachable hrun
  have hfits := exists_fits_of_reachable hrun
  constructor
  · rintro ⟨out', hstep'⟩ e c hrow transform velocity tank ht hv hk hlistens
    rcases cruise_of_step hshoot hstep hfits hrow ht hv hk with ⟨c₁, hc₁, honce⟩
    rcases cruise_of_step hshoot hstep' hfits hrow ht hv hk with ⟨c₂, hc₂, hmany⟩
    rw [hc₁] at hc₂
    cases hc₂
    rw [honce, List.length_singleton, Function.iterate_one] at hmany
    exact (cruise_steer_iff (hdrivable e c hrow tank hk) hlistens input transform velocity
      (List.length_pos_of_ne_nil horders)).mp (Option.some.inj hmany).symm
  · intro hhides
    rw [step_queueAll_eq hdrivable hshoot horders hhides order first, hstep]
    exact ⟨out, rfl⟩

/-! ## Many ticks -/

/-- Ticks of the client loop: in each one the held input is delivered once for each
frame, and then the game steps.  A step that fails stops the loop. -/
def play (input : InputState K) (peerId : PeerID) (g : Game K) :
    List (List ViewOrder × ViewOrder) → Option (Game K)
  | [] => some g
  | (orders, order) :: ticks =>
      match (g.queueAll (held input peerId orders)).step order with
      | none => none
      | some (g', _) => play input peerId g' ticks

/-- The tick with its first frame only. -/
def firstFrame (tick : List ViewOrder × ViewOrder) : List ViewOrder × ViewOrder :=
  (tick.1.take 1, tick.2)

omit [IsStrictOrderedRing K] [LawfulFloatOps K] in
/-- A tick is a run of calls. -/
theorem exists_run_tick {ds : List (Delivery K)} {order : ViewOrder}
    (hrun : (system K).run (init isServer) calls = some (g, h))
    (hstep : (g.queueAll ds).step order = some (g₁, out)) :
    ∃ calls' h', (system K).run (init isServer) calls' = some (g₁, h') := by
  rcases exists_run_queueAll g ds with ⟨h₂, hqueue⟩
  have hcall : (system K).step (g.queueAll ds) (.step order) = some (g₁, out) := hstep
  have htick := (system K).run_concat hqueue hcall
  exact ⟨_, _, (system K).run_append.mpr ⟨g, h, _, hrun, htick, rfl⟩⟩

/-- Over many ticks: where the throttle is hidden at the start of each tick, the loop
does not depend on the numbers of frames. -/
theorem play_eq (hrun : (system K).run (init isServer) calls = some (g, h))
    (hshoot : input.shoot = false) {ticks : List (List ViewOrder × ViewOrder)}
    (hframes : ∀ tick ∈ ticks, tick.1 ≠ [])
    (hhides : ∀ pre tick post, ticks = pre ++ tick :: post → ∀ g',
      play input peerId g (pre.map firstFrame) = some g' →
      g'.Hides tick.1.length input peerId) :
    play input peerId g ticks = play input peerId g (ticks.map firstFrame) := by
  induction ticks generalizing g calls h with
  | nil => rfl
  | cons tick ticks ih =>
      rcases tick with ⟨orders, order⟩
      have horders : orders ≠ [] := hframes _ List.mem_cons_self
      rcases List.exists_cons_of_ne_nil horders with ⟨first, rest, rfl⟩
      have hsame := step_queueAll_eq (drivable_of_reachable hrun) hshoot horders
        (hhides [] _ ticks rfl g rfl) order first
      have hplay : ∀ ticks', play input peerId g (firstFrame (first :: rest, order) :: ticks') =
          match (g.queueAll (held input peerId [first])).step order with
          | none => none
          | some (g', _) => play input peerId g' ticks' := fun _ => rfl
      rw [List.map_cons, hplay, play, hsame]
      cases hstep : (g.queueAll (held input peerId [first])).step order with
      | none => rfl
      | some p =>
          rcases p with ⟨g', out'⟩
          rcases exists_run_tick hrun hstep with ⟨calls', h', hrun'⟩
          refine ih hrun' (fun tick htick => hframes tick (List.mem_cons_of_mem _ htick)) ?_
          intro pre tick post hsplit g'' hpre
          refine hhides ((first :: rest, order) :: pre) tick post (by rw [hsplit]; rfl) g'' ?_
          rw [List.map_cons, hplay, hstep]
          exact hpre

/-- In every reachable game and for every input without a shot: stepping after several
deliveries gives the game that one delivery gives exactly when the throttle is hidden,
and where it is at the start of each tick, no number of ticks depends on the numbers
of frames. -/
theorem frameRate_iff (hrun : (system K).run (init isServer) calls = some (g, h))
    (hshoot : input.shoot = false) (peerId : PeerID) :
    (∀ orders first order g₁ out, orders ≠ [] →
      (g.queueAll (held input peerId [first])).step order = some (g₁, out) →
      ((∃ out', (g.queueAll (held input peerId orders)).step order = some (g₁, out')) ↔
        g.Hides orders.length input peerId)) ∧
    ∀ ticks, (∀ tick ∈ ticks, tick.1 ≠ []) →
      (∀ pre tick post, ticks = pre ++ tick :: post → ∀ g',
        play input peerId g (pre.map firstFrame) = some g' →
        g'.Hides tick.1.length input peerId) →
      play input peerId g ticks = play input peerId g (ticks.map firstFrame) := by
  constructor
  · intro orders first order g₁ out horders hstep
    exact step_queueAll_iff hrun hshoot horders hstep
  · intro ticks hframes hhides
    exact play_eq hrun hshoot hframes hhides

end Ordered

/-- Turning on the spot. -/
def spin : InputState ℝ where
  throttle := 0
  turn := 1
  shoot := false

/-- A tank that turns for a tick of two frames and a tick of one. -/
theorem frameRate_iff_spin :
    ∃ g h, (system ℝ).run (init false) [.spawnTank ⟨0, 0⟩ 0 7] = some (g, h) ∧
      play spin 7 g
          [([Enumeration.stored View, Enumeration.stored View], Enumeration.stored View),
            ([Enumeration.stored View], Enumeration.stored View)] =
        play spin 7 g
          [([Enumeration.stored View], Enumeration.stored View),
            ([Enumeration.stored View], Enumeration.stored View)] := by
  have hrun : (system ℝ).run (init false) [.spawnTank ⟨0, 0⟩ 0 7] = some (_, _) := rfl
  have hshoot : spin.shoot = false := rfl
  refine ⟨_, _, hrun, ?_⟩
  refine (frameRate_iff hrun hshoot 7).2
    [([Enumeration.stored View, Enumeration.stored View], Enumeration.stored View),
      ([Enumeration.stored View], Enumeration.stored View)] ?_ ?_
  · simp
  · intro pre tick post _ g' _ e c _ transform velocity tank _ _ _ _
    exact Or.inr (Or.inl rfl)

/-- Full throttle. -/
def forward : InputState ℚ where
  throttle := 1
  turn := 0
  shoot := false

/-- Two frames of full throttle before the first step leave a new tank with twice the
velocity that one frame gives. -/
theorem exists_not_frameRate :
    ∃ g h g₁ out, (system ℚ).run (init false) [.spawnTank ⟨0, 0⟩ 0 7] = some (g, h) ∧
      (g.queueAll (held forward 7 [Enumeration.stored View])).step (Enumeration.stored View) =
        some (g₁, out) ∧
      ¬ ∃ out', (g.queueAll (held forward 7
          [Enumeration.stored View, Enumeration.stored View])).step
        (Enumeration.stored View) = some (g₁, out') := by
  have honce : ((system ℚ).run (init false) [.spawnTank ⟨0, 0⟩ 0 7]).bind (fun p =>
      ((p.1.queueAll (held forward 7 [Enumeration.stored View])).step
        (Enumeration.stored View)).map fun q => (q.1.registry.row 0).bind (·.velocity)) =
      some (some ⟨⟨98 / 5, 0⟩, 0⟩) := by
    decide +kernel
  have htwice : ((system ℚ).run (init false) [.spawnTank ⟨0, 0⟩ 0 7]).bind (fun p =>
      ((p.1.queueAll (held forward 7
        [Enumeration.stored View, Enumeration.stored View])).step
        (Enumeration.stored View)).map fun q => (q.1.registry.row 0).bind (·.velocity)) =
      some (some ⟨⟨196 / 5, 0⟩, 0⟩) := by
    decide +kernel
  rcases Option.bind_eq_some_iff.mp honce with ⟨⟨g, h⟩, hrun, hstep⟩
  rcases Option.map_eq_some_iff.mp hstep with ⟨⟨g₁, out⟩, hone, hslow⟩
  refine ⟨g, h, g₁, out, hrun, hone, ?_⟩
  rintro ⟨out', htwo⟩
  rw [hrun, Option.bind_some, htwo, Option.map_some] at htwice
  have hfast := Option.some.inj htwice
  simp only at hslow hfast
  rw [hslow] at hfast
  exact absurd hfast (by decide +kernel)

end Game

end GameFramework
