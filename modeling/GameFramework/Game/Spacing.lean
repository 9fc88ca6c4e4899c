import GameFramework.Game.Flight
import GameFramework.Game.Removal

/-!
# Games without a second hit

A step is not possible when a bullet hits twice in it.  This cannot happen while all tanks and
bullets are of one peer and no two destructibles are so close to each other that a bullet has
both in range.  Destructibles never move, so this is a matter of where they are spawned.

Main results:

- Definition {lit}`Game.Spread`: destructibles that stand where they were spawned, apart from
  each other.
- Theorem {lit}`CollisionSystem.singleHit_of_apart`: no bullet hits twice.
- Theorem {lit}`Game.isSome_step_of_apart`: the next step is possible.
- Theorem {lit}`Game.run_isSome_of_apart`: all calls go through.
-/

namespace GameFramework

open EntityRegistry

/-! Further numerals of the constructor, shared like those of the components. -/

instance atLeastTwo_five : Nat.AtLeastTwo 5 := inferInstance

instance atLeastTwo_fifteen : Nat.AtLeastTwo 15 := inferInstance

variable {K : Type*} [Field K] [LinearOrder K]

/-- No bullet can have destructibles at both points in range. -/
def B2Vec2.Apart (p q : B2Vec2 K) : Prop :=
  25 ≤ (q.x - p.x) ^ 2 + (q.y - p.y) ^ 2

theorem B2Vec2.Apart.symm {p q : B2Vec2 K} (h : p.Apart q) : q.Apart p := by
  have hsymm : (p.x - q.x) ^ 2 + (p.y - q.y) ^ 2 = (q.x - p.x) ^ 2 + (q.y - p.y) ^ 2 := by ring
  rw [Apart, hsymm]
  exact h

/-- The row of a destructible of the default size that stands at a point. -/
structure Components.StandsAt (point : Option (B2Vec2 K)) (c : Components K) : Prop where
  radius_eq : ∀ d, c.destructible = some d → d.radius = 2
  still : c.destructible.isSome → c.tank = none ∧ c.bullet = none
  placed : c.destructible.isSome → ∃ p rotation, point = some p ∧
    c.transform = some ⟨p, rotation⟩

/-- Tanks and bullets of one peer. -/
structure Components.OfPeer (p : PeerID) (c : Components K) : Prop where
  tank : ∀ tank, c.tank = some tank → tank.peerId = p
  bullet : ∀ bullet, c.bullet = some bullet → bullet.ownerPeerId = p

namespace CollisionSystem

variable [FloatOps K]

/-! ## The range of a bullet -/

/-- A bullet is not in range of two destructibles that are apart. -/
theorem not_inDestructibleRange_of_apart [IsStrictOrderedRing K] [LawfulFloatOps K]
    {bullet p q : B2Vec2 K} {d d' : Destructible K} (hd : d.radius = 2) (hd' : d'.radius = 2)
    (hapart : p.Apart q) (hp : inDestructibleRange bullet p d = true) :
    inDestructibleRange bullet q d' = false := by
  have hsquare : ∀ {r : B2Vec2 K} {x : Destructible K}, x.radius = 2 →
      inDestructibleRange bullet r x = true →
      (r.x - bullet.x) ^ 2 + (r.y - bullet.y) ^ 2 < 25 / 4 := by
    intro r x hx hrange
    rw [inDestructibleRange, decide_eq_true_eq, hx, LawfulFloatOps.b2Distance_eq] at hrange
    have hnonneg := LawfulFloatOps.b2Length_nonneg (⟨r.x - bullet.x, r.y - bullet.y⟩ : B2Vec2 K)
    have hlength := LawfulFloatOps.b2Length_sq (⟨r.x - bullet.x, r.y - bullet.y⟩ : B2Vec2 K)
    dsimp only at hlength
    rw [← hlength]
    calc
      b2Length (⟨r.x - bullet.x, r.y - bullet.y⟩ : B2Vec2 K) ^ 2 < (2 + 1 / 2) ^ 2 :=
        pow_lt_pow_left₀ hrange hnonneg two_ne_zero
      _ = 25 / 4 := by norm_num
  by_contra hq
  have hp' := hsquare hd hp
  have hq' := hsquare hd' (Bool.eq_true_of_not_eq_false hq)
  -- the two differences add up to the one between the points
  have hx := sq_nonneg ((p.x - bullet.x) + (q.x - bullet.x))
  have hy := sq_nonneg ((p.y - bullet.y) + (q.y - bullet.y))
  rw [B2Vec2.Apart] at hapart
  linarith

/-- Destructibles at points that are apart from each other. -/
structure Spread (place : Entity → Option (B2Vec2 K)) (r : GameRegistry K) : Prop where
  apart : ∀ e e' p p', e ≠ e' → place e = some p → place e' = some p' → p.Apart p'
  stands : ∀ e c, r.row e = some c → c.StandsAt (place e)

/-- A destructible in range of a bullet is in range at the point where it stands. -/
theorem Spread.of_inRange {place : Entity → Option (B2Vec2 K)} {r : GameRegistry K}
    (hspread : Spread place r) {b d : Entity} (hrange : bulletEngagement.inRange r b d = true) :
    ∃ bullet p x, positionOf r b = some bullet ∧ place d = some p ∧ x.radius = 2 ∧
      inDestructibleRange bullet p x = true := by
  unfold Engagement.inRange at hrange
  split at hrange
  · rename_i bullet q x hbullet hq hx
    rcases Option.bind_eq_some_iff.mp hx with ⟨c, hrow, hget⟩
    have hget : c.destructible = some x := hget
    have hstands := hspread.stands d c hrow
    rcases hstands.placed (by simp [hget]) with ⟨p, rotation, hp, htransform⟩
    have hposition : q = p := by
      simpa [positionOf, hrow, htransform, eq_comm] using hq
    exact ⟨bullet, p, x, hbullet, hp, hstands.radius_eq x hget, hposition ▸ hrange⟩
  · contradiction

/-- A bullet has at most one destructible in range. -/
theorem Spread.eq_of_inRange [IsStrictOrderedRing K] [LawfulFloatOps K]
    {place : Entity → Option (B2Vec2 K)} {r : GameRegistry K} (hspread : Spread place r)
    {b d d' : Entity} (hd : bulletEngagement.inRange r b d = true)
    (hd' : bulletEngagement.inRange r b d' = true) : d = d' := by
  by_contra hne
  rcases hspread.of_inRange hd with ⟨bullet, p, x, hbullet, hp, hx, hrange⟩
  rcases hspread.of_inRange hd' with ⟨bullet', p', x', hbullet', hp', hx', hrange'⟩
  rw [hbullet] at hbullet'
  cases hbullet'
  have hapart := hspread.apart d d' p p' hne hp hp'
  rw [not_inDestructibleRange_of_apart hx hx' hapart hrange] at hrange'
  contradiction

/-- A bullet does not strike the tanks of its own peer. -/
theorem not_strikesTank_of_peer {p : PeerID} {r : GameRegistry K}
    (hpeer : ∀ e c, r.row e = some c → c.OfPeer p) (b t : Entity) :
    strikesTank r b t = false := by
  unfold strikesTank
  split
  · rename_i bulletPos bullet tankPos tank _ hbullet _ htank
    rcases Option.bind_eq_some_iff.mp hbullet with ⟨c, hrow, hget⟩
    rcases Option.bind_eq_some_iff.mp htank with ⟨c', hrow', hget'⟩
    rw [(hpeer b c hrow).bullet bullet hget, (hpeer t c' hrow').tank tank hget']
    simp
  · rfl

/-- Distinct entities of which at most one passes a test. -/
theorem length_filter_le_one {es : List Entity} {test : Entity → Bool} (hnodup : es.Nodup)
    (hone : ∀ e e', test e = true → test e' = true → e = e') : (es.filter test).length ≤ 1 := by
  have hfilter := hnodup.filter test
  have hall : ∀ e ∈ es.filter test, test e = true := fun e he => (List.mem_filter.mp he).2
  match hes : es.filter test with
  | [] => simp
  | [_] => simp
  | e :: e' :: rest =>
      rw [hes] at hfilter hall
      have heq : e = e' := hone e e' (hall e (by simp)) (hall e' (by simp))
      simp [heq] at hfilter

/-- Among destructibles that are apart, no bullet of the only peer hits twice. -/
theorem singleHit_of_apart [IsStrictOrderedRing K] [LawfulFloatOps K] {p : PeerID}
    {place : Entity → Option (B2Vec2 K)} {r : GameRegistry K} (hspread : Spread place r)
    (hpeer : ∀ e c, r.row e = some c → c.OfPeer p) (order : ViewOrder) :
    SingleHit order r := by
  intro pre b post _
  have hmeets : ∀ d, meets r pre b d = true → bulletEngagement.inRange r b d = true := by
    intro d hd
    unfold meets at hd
    split at hd
    · contradiction
    · simp only [Bool.and_eq_true] at hd
      exact hd.1.2
  have htanks : (tanks order r).filter (strikesTank r b) = [] :=
    List.filter_eq_nil_iff.mpr fun t _ => by simp [not_strikesTank_of_peer hpeer b t]
  rw [hits, htanks, List.length_nil, Nat.add_zero]
  exact length_filter_le_one (r.nodup_view order _ _) fun d d' hd hd' =>
    hspread.eq_of_inRange (hmeets d hd) (hmeets d' hd')

end CollisionSystem

namespace Game

open CollisionSystem Labelled

/-- The calls that make tanks and bullets make them for one peer. -/
def OfPeer (p : PeerID) : GameCall K → Prop
  | .spawnTank _ _ peerId => peerId.toUInt32.toUInt64 = p
  | .spawnBullet _ _ peerId => peerId.toUInt32.toUInt64 = p
  | _ => True

/-- Where a call puts a destructible. -/
def destructiblePoint : GameCall K → Option (B2Vec2 K)
  | .spawnDestructible position => some position
  | _ => none

/-- Where the constructor puts destructibles. -/
def initialPoints (isServer : Bool) : List (B2Vec2 K) :=
  if isServer then [⟨20, 0⟩, ⟨-20, 5⟩, ⟨0, -25⟩] else []

/-- The calls of {lit}`setupInitialGameState`. -/
def setupCalls : List (GameCall K) :=
  [.spawnCollectible ⟨10, 10⟩, .spawnCollectible ⟨-10, 15⟩, .spawnCollectible ⟨15, -10⟩,
    .spawnDestructible ⟨20, 0⟩, .spawnDestructible ⟨-20, 5⟩, .spawnDestructible ⟨0, -25⟩]

/-- Destructibles at some of the given points, apart from each other. -/
structure Spread (points : List (B2Vec2 K)) (place : Entity → Option (B2Vec2 K)) (g : Game K) :
    Prop where
  registry : CollisionSystem.Spread place g.registry
  known : ∀ e p, place e = some p → e < g.registry.next ∧ p ∈ points

variable [FloatOps K] [FloorSemiring K] {g g' : Game K} {call : GameCall K}
  {calls : List (GameCall K)} {h out : List GameEvent} {points : List (B2Vec2 K)}
  {place : Entity → Option (B2Vec2 K)} {p : PeerID}

/-! ## What the calls keep -/

/-- Destructibles stand still. -/
theorem kept_standsAt (point : Option (B2Vec2 K)) : Kept (Components.StandsAt point) where
  move c h := by
    cases hdest : c.destructible with
    | some d =>
        rw [MovementSystem.onRow_of_not_tank (h.still (by simp [hdest])).1]
        exact h
    | none =>
        unfold MovementSystem.onRow
        split <;> constructor <;> simp [hdest]
  steer peerId input c h := by
    cases hdest : c.destructible with
    | some d =>
        rw [InputSystem.onRow_of_not_tank (h.still (by simp [hdest])).1]
        exact h
    | none =>
        unfold InputSystem.onRow
        split <;> constructor <;> simp [hdest]
  advance tick c h := by
    cases hdest : c.destructible with
    | some d =>
        rw [ShootSystem.onRow_of_not_view fixedTimestep tick
          (by simp [Components.hasTransformVelocityBullet, (h.still (by simp [hdest])).2])]
        exact h
    | none =>
        unfold ShootSystem.onRow
        split <;> constructor <;> simp [hdest]
  collide n m c h := by
    have hsome : (collided n m c).destructible.isSome = c.destructible.isSome :=
      bulletEngagement.isSome_iterate_absorb n c.destructible
    refine ⟨?_, fun hd => h.still (hsome ▸ hd), fun hd => h.placed (hsome ▸ hd)⟩
    exact bulletEngagement.forall_iterate_absorb (P := fun d => d.radius = 2)
      (fun _ _ hd => hd) n h.radius_eq

/-- No system changes a tank or the owner of a bullet. -/
theorem kept_ofPeer (p : PeerID) : Kept (Components.OfPeer (K := K) p) :=
  Kept.of_collide (fun _ _ _ h => ⟨h.tank, h.bullet⟩) fun _ _ _ h => ⟨h.tank, h.bullet⟩

omit [LinearOrder K] [FloatOps K] [FloorSemiring K] in
/-- A row without a destructible stands anywhere. -/
theorem standsAt_of_none {point : Option (B2Vec2 K)} {c : Components K}
    (h : c.destructible = none) : c.StandsAt point := by
  constructor <;> simp [h]

omit [LinearOrder K] [FloatOps K] [FloorSemiring K] in
/-- Only destructibles have one. -/
theorem destructible_row_of_ne {entityType : UInt8} (hother : entityType ≠ entityTypeDestructible)
    (position : B2Vec2 K) (rotation : K) (peerId : UInt32) :
    (SpawnSystem.row entityType position rotation peerId).destructible = none := by
  unfold SpawnSystem.row
  split
  · rfl
  · split
    · rfl
    · split <;> rfl

omit [LinearOrder K] [FloatOps K] [FloorSemiring K] in
/-- A destructible stands where it was spawned. -/
theorem standsAt_row (position : B2Vec2 K) (rotation : K) (peerId : UInt32) :
    (SpawnSystem.row entityTypeDestructible position rotation peerId).StandsAt
      (some position) where
  radius_eq := by
    rintro d ⟨⟩
    rfl
  still _ := ⟨rfl, rfl⟩
  placed _ := ⟨position, 0, rfl, rfl⟩

omit [LinearOrder K] [FloatOps K] [FloorSemiring K] in
/-- A spawned row is one of the peer, if tanks and bullets are spawned for this peer. -/
theorem ofPeer_row {entityType : UInt8} {position : B2Vec2 K} {rotation : K} {peerId : UInt32}
    (hpeer : entityType = entityTypePlayer ∨ entityType = entityTypeBullet →
      peerId.toUInt64 = p) :
    (SpawnSystem.row entityType position rotation peerId).OfPeer p := by
  unfold SpawnSystem.row
  split
  · rename_i htype
    exact ⟨by simp [hpeer (Or.inl htype)], by simp⟩
  · split
    · rename_i htype
      exact ⟨by simp, by simp [hpeer (Or.inr htype)]⟩
    · split
      · exact ⟨by simp, by simp⟩
      · split <;> exact ⟨by simp, by simp⟩

/-- What a spawn call records. -/
theorem of_mem_spawned (hcall : g.call call = some (g', out)) {entityType : UInt8} {e : Entity}
    {peerId : PeerID} (hspawned : .spawned entityType e peerId ∈ out) :
    (OfPeer p call → entityType = entityTypePlayer ∨ entityType = entityTypeBullet →
        peerId.toUInt32.toUInt64 = p) ∧
      (destructiblePoint call = none → entityType ≠ entityTypeDestructible) := by
  have htype := spawns_of_mem_spawned hcall hspawned
  have hpeer : ∀ ty position rotation q,
      some (g.spawn ty position rotation q) = some (g', out) → q = peerId := by
    intro ty position rotation q heq
    have hout : out = [.spawned ty g.registry.next q] :=
      (congrArg Prod.snd (Option.some.inj heq)).symm
    rw [hout, List.mem_singleton, GameEvent.spawned.injEq] at hspawned
    exact hspawned.2.2.symm
  have hkinds : entityTypeCollectible ≠ entityTypePlayer ∧
      entityTypeCollectible ≠ entityTypeBullet ∧ entityTypeDestructible ≠ entityTypePlayer ∧
      entityTypeDestructible ≠ entityTypeBullet := by decide
  cases call with
  | spawnTank position rotation q =>
      cases htype
      exact ⟨fun hp _ => hpeer _ _ _ _ hcall ▸ hp, fun _ => by decide⟩
  | spawnBullet position rotation q =>
      cases htype
      exact ⟨fun hp _ => hpeer _ _ _ _ hcall ▸ hp, fun _ => by decide⟩
  | spawnCollectible position =>
      cases htype
      refine ⟨fun _ htype => ?_, fun _ => by decide⟩
      rcases htype with htype | htype
      · exact absurd htype hkinds.1
      · exact absurd htype hkinds.2.1
  | spawnDestructible position =>
      cases htype
      refine ⟨fun _ htype => ?_, nofun⟩
      rcases htype with htype | htype
      · exact absurd htype hkinds.2.2.1
      · exact absurd htype hkinds.2.2.2
  | step order => cases htype
  | queueInput order input q => cases htype
  | destroyEntity entity => cases htype

/-- All tanks and bullets stay with the peer. -/
theorem ofPeer_call (hpeer : ∀ e c, g.registry.row e = some c → c.OfPeer p)
    (hcall : g.call call = some (g', out)) (hmakes : OfPeer p call) :
    ∀ e c, g'.registry.row e = some c → c.OfPeer p := by
  intro e c hrow
  rcases Nat.lt_or_ge e g.registry.next with he | he
  · exact row_call_of_kept (kept_ofPeer p) hcall he (hpeer e) c hrow
  · rcases row_new hcall he hrow with ⟨_, _, _, _, hspawned, rfl⟩ |
      ⟨t, transform, peerId, hfired, rfl⟩
    · exact ofPeer_row ((of_mem_spawned hcall hspawned).1 hmakes)
    · -- a bullet belongs to the peer whose tank has fired it
      rcases call_cases hcall with ⟨order, rfl, hstep⟩ | ⟨order, input, q, rfl, rfl, rfl⟩ |
        ⟨_, _, _, _, _, rfl, rfl⟩ | ⟨entity, rfl, rfl, rfl⟩
      · have hnext := Registry.lt_next_of_row hrow
        rw [(step_spec hstep).2.1] at hnext
        exact absurd hnext (Nat.not_lt.mpr he)
      · rcases of_mem_fired order input q g hfired with ⟨tr, tank, _, htank, _, hq, _, hb⟩
        rcases Option.bind_eq_some_iff.mp htank with ⟨ct, hct, hget⟩
        have howner : q = p := hq.symm.trans ((hpeer t ct hct).tank tank hget)
        rw [hb] at hrow
        refine ⟨by simp [ShootSystem.bulletRow], ?_⟩
        intro bullet hbullet
        rw [← Option.some.inj hrow] at hbullet
        cases hbullet
        exact howner
      · simp [spawn] at hfired
      · rw [destroyEntity_snd] at hfired
        split at hfired <;> simp at hfired

/-- A destructible that is spawned apart from all others leaves them spread. -/
theorem Spread.of_call (hspread : Spread points place g) (hcall : g.call call = some (g', out))
    (hnew : ∀ q ∈ destructiblePoint call, ∀ p ∈ points, p.Apart q) :
    ∃ place', Spread (points ++ (destructiblePoint call).toList) place' g' := by
  cases hpoint : destructiblePoint call with
  | none =>
      rw [Option.toList_none, List.append_nil]
      refine ⟨place, ⟨hspread.registry.apart, fun e c hrow => ?_⟩, fun e p hp => ?_⟩
      · rcases Nat.lt_or_ge e g.registry.next with he | he
        · exact row_call_of_kept (kept_standsAt (place e)) hcall he (hspread.registry.stands e) c
            hrow
        · rcases row_new hcall he hrow with ⟨_, _, _, _, hspawned, rfl⟩ | ⟨_, _, _, _, rfl⟩
          · have hother := (of_mem_spawned (p := 0) hcall hspawned).2 hpoint
            exact standsAt_of_none (destructible_row_of_ne hother _ _ _)
          · exact standsAt_of_none rfl
      · exact ⟨(hspread.known e p hp).1.trans_le (next_le_call hcall), (hspread.known e p hp).2⟩
  | some q =>
      cases call with
      | spawnDestructible position =>
          cases hpoint
          have hspawn : g' = (g.spawn entityTypeDestructible q 0 0).1 :=
            (congrArg Prod.fst (Option.some.inj hcall)).symm
          subst hspawn
          refine ⟨Function.update place g.registry.next (some q), ⟨?_, ?_⟩, ?_⟩
          · intro e e' p p' hne hp hp'
            have hapart := hnew q rfl
            by_cases he : e = g.registry.next
            · have he' : e' ≠ g.registry.next := fun h => hne (he.trans h.symm)
              rw [Function.update_of_ne he'] at hp'
              rw [he, Function.update_self] at hp
              cases hp
              exact (hapart p' (hspread.known e' p' hp').2).symm
            · rw [Function.update_of_ne he] at hp
              by_cases he' : e' = g.registry.next
              · rw [he', Function.update_self] at hp'
                cases hp'
                exact hapart p (hspread.known e p hp).2
              · rw [Function.update_of_ne he'] at hp'
                exact hspread.registry.apart e e' p p' hne hp hp'
          · intro e c hrow
            rw [row_spawn] at hrow
            split at hrow
            · rename_i he
              cases hrow
              rw [he, Function.update_self]
              exact standsAt_row q 0 _
            · rename_i he
              rw [Function.update_of_ne he]
              exact hspread.registry.stands e c hrow
          · intro e p hp
            by_cases he : e = g.registry.next
            · rw [he, Function.update_self] at hp
              cases hp
              exact ⟨he ▸ Nat.lt_succ_self _, by simp⟩
            · rw [Function.update_of_ne he] at hp
              exact ⟨Nat.lt_succ_of_lt (hspread.known e p hp).1,
                List.mem_append_left _ (hspread.known e p hp).2⟩
      | _ => cases hpoint

/-- The constructor makes the calls of {lit}`setupInitialGameState`. -/
theorem registry_setup (isServer : Bool) :
    ∃ h, (system K).run { isServer := isServer, tickCount := 0, registry := Registry.empty }
      (if isServer then setupCalls else []) = some (init isServer, h) := by
  cases isServer <;> exact ⟨_, rfl⟩

/-- Calls that put all destructibles apart leave them spread. -/
theorem Spread.run (hspread : Spread points place g)
    (hrun : (system K).run g calls = some (g', h))
    (hapart : (points ++ calls.filterMap destructiblePoint).Pairwise B2Vec2.Apart) :
    ∃ place', Spread (points ++ calls.filterMap destructiblePoint) place' g' := by
  induction calls generalizing points place g h with
  | nil =>
      cases hrun
      exact ⟨place, by simpa using hspread⟩
  | cons call calls ih =>
      rcases (System.run_cons_eq_some _).mp hrun with ⟨v, out, rest, hcall, hrest, _⟩
      have hsplit : points ++ (call :: calls).filterMap destructiblePoint =
          (points ++ (destructiblePoint call).toList) ++ calls.filterMap destructiblePoint := by
        cases hpoint : destructiblePoint call <;> simp [hpoint]
      rw [hsplit] at hapart ⊢
      have hnew : ∀ q ∈ destructiblePoint call, ∀ p ∈ points, p.Apart q := by
        intro q hq p hp
        have hpair := (List.pairwise_append.mp hapart).1
        exact (List.pairwise_append.mp hpair).2.2 p hp q (Option.mem_toList.mpr hq)
      rcases hspread.of_call hcall hnew with ⟨place', hspread'⟩
      exact ih hspread' hrest hapart

/-- Calls that put all destructibles apart from the initial ones and from each other leave a
game in which the destructibles are spread. -/
theorem exists_spread {isServer : Bool} (hrun : (system K).run (init isServer) calls = some (g, h))
    (hapart : (initialPoints isServer ++ calls.filterMap destructiblePoint).Pairwise B2Vec2.Apart) :
    ∃ place, Spread (initialPoints isServer ++ calls.filterMap destructiblePoint) place g := by
  rcases registry_setup (K := K) isServer with ⟨h₀, hsetup⟩
  have hempty : Spread (K := K) [] (fun _ => none)
      { isServer := isServer, tickCount := 0, registry := Registry.empty } :=
    ⟨⟨nofun, nofun⟩, nofun⟩
  have hpoints : initialPoints (K := K) isServer =
      [] ++ (if isServer then setupCalls else []).filterMap destructiblePoint := by
    cases isServer <;> rfl
  rw [hpoints, List.append_assoc, ← List.filterMap_append] at hapart ⊢
  exact hempty.run ((System.run_append _).mpr ⟨_, _, _, hsetup, hrun, rfl⟩) hapart

/-- Calls that make tanks and bullets for one peer leave a game of this peer. -/
theorem ofPeer_of_reachable {isServer : Bool}
    (hrun : (system K).run (init isServer) calls = some (g, h))
    (hpeer : ∀ call ∈ calls, OfPeer p call) :
    ∀ e c, g.registry.row e = some c → c.OfPeer p := by
  induction calls using List.reverseRecOn generalizing g h with
  | nil =>
      cases hrun
      refine row_init (fun entityType htype position rotation peerId => ?_) isServer
      refine ofPeer_row fun hkind => ?_
      have hother : entityType ≠ entityTypePlayer ∧ entityType ≠ entityTypeBullet := by
        simp only [List.mem_cons, List.not_mem_nil, or_false] at htype
        rcases htype with rfl | rfl <;> decide
      rcases hkind with hkind | hkind
      · exact absurd hkind hother.1
      · exact absurd hkind hother.2
  | append_singleton calls call ih =>
      rcases (System.run_append _).mp hrun with ⟨v, h₁, h₂, hpre, hlast, _⟩
      have hbefore := ih hpre fun c hc => hpeer c (List.mem_append_left _ hc)
      exact ofPeer_call hbefore ((System.run_singleton _).mp hlast) (hpeer call (by simp))

/-! ## The calls go through -/

variable [IsStrictOrderedRing K] [LawfulFloatOps K]

/-- Among spread destructibles, the game of one peer can make the next step. -/
theorem isSome_step_of_apart {isServer : Bool}
    (hrun : (system K).run (init isServer) calls = some (g, h))
    (hpeer : ∀ call ∈ calls, OfPeer p call)
    (hapart : (initialPoints isServer ++ calls.filterMap destructiblePoint).Pairwise B2Vec2.Apart)
    (order : ViewOrder) : (g.step order).isSome := by
  rcases exists_spread hrun hapart with ⟨place, hspread⟩
  have hbefore : CollisionSystem.Spread place (g.beforeCheck order) :=
    ⟨hspread.registry.apart, fun e =>
      (kept_standsAt (place e)).beforeCheck order (hspread.registry.stands e)⟩
  have hrows : ∀ e c, (g.beforeCheck order).row e = some c → c.OfPeer p := fun e =>
    (kept_ofPeer p).beforeCheck order (ofPeer_of_reachable hrun hpeer e)
  exact (destroysValid_iff_step_isSome order g).mp
    ((destroysValid_iff_singleHit hrun order).mpr (singleHit_of_apart hbefore hrows order))

/-- Calls that make tanks and bullets for one peer and put all destructibles apart go through. -/
theorem run_isSome_of_apart (isServer : Bool) (hpeer : ∀ call ∈ calls, OfPeer p call)
    (hapart : (initialPoints isServer ++ calls.filterMap destructiblePoint).Pairwise B2Vec2.Apart) :
    ((system K).run (init isServer) calls).isSome := by
  rw [System.run_isSome_iff]
  intro pre call post hsplit g h hrun
  cases call with
  | step order =>
      refine isSome_step_of_apart hrun (fun c hc => hpeer c (by simp [hsplit, hc])) ?_ order
      rw [hsplit, List.filterMap_append, ← List.append_assoc] at hapart
      exact (List.pairwise_append.mp hapart).1
  | _ => rfl

/-- One tank among the initial destructibles of a server game and one more. -/
def crowdedCalls : List (GameCall ℝ) :=
  [.spawnTank ⟨0, 0⟩ 0 1, .spawnDestructible ⟨15, 0⟩,
    .queueInput (Enumeration.stored View) ⟨1, 0, true⟩ 1, .step (Enumeration.stored View)]

/-- The calls of this tank go through. -/
theorem run_isSome_of_apart_crowded :
    ((system ℝ).run (init true) crowdedCalls).isSome := by
  refine run_isSome_of_apart (p := 1) true ?_ ?_
  · simp [crowdedCalls, OfPeer]
  · have hpoints : crowdedCalls.filterMap destructiblePoint = [⟨15, 0⟩] := rfl
    rw [hpoints]
    simp [initialPoints, B2Vec2.Apart]
    norm_num

end Game

end GameFramework
