import GameFramework.Game.Effects
import Mathlib.Algebra.Order.Ring.Rat
import Mathlib.Data.Rat.Floor

/-!
# Removal of bullets

The removal loop of {lit}`CollisionSystem::check` destroys a bullet once per push, and
every hit of a tick pushes.  A step is therefore sound exactly when no bullet
hits twice in one tick; this module turns that into a condition on the registry
that the collision system finds.

Main results:

- Definition {lit}`CollisionSystem.SingleHit`: no bullet has two hits.
- Theorem {lit}`CollisionSystem.nodup_resolve_iff`: the removal loop destroys
  valid entities exactly then.
- Theorem {lit}`Game.run_destroysValid_iff`: the same over whole runs.
-/

namespace GameFramework

open EntityRegistry

variable {K : Type*} [Field K] [LinearOrder K]

/-! ## Health of destructibles -/

/-- An active destructible has health left. -/
def Destructible.Sound (d : Destructible K) : Prop :=
  d.active = true → 0 < d.health

namespace CollisionSystem

theorem Sound.damage {d : Destructible K} : (damage d).Sound := by
  intro hactive
  by_contra hle
  have hhealth : (CollisionSystem.damage d).health ≤ 0 := not_lt.mp hle
  simp only [CollisionSystem.damage] at hactive hhealth
  simp [hhealth] at hactive

section Range

variable [FloatOps K]

/-- A destructible outlives a number of hits exactly while they do not use up its
health. -/
theorem alive_iterate_absorb [IsStrictOrderedRing K] {d : Destructible K} (hd : d.Sound)
    (n : ℕ) :
    (bulletEngagement.absorb^[n] (some d)).any (·.active) =
      (d.active && decide (25 * (n : K) < d.health)) := by
  induction n generalizing d with
  | zero =>
      cases hactive : d.active with
      | false => simp [hactive]
      | true => simp [hactive, hd hactive]
  | succ n ih =>
      rw [Function.iterate_succ_apply]
      cases hactive : d.active with
      | false =>
          have hstill : ∀ m, bulletEngagement.absorb^[m] (some d) = some d := by
            intro m
            apply Function.iterate_fixed
            simp [Engagement.absorb, bulletEngagement, hactive]
          have hone : bulletEngagement.absorb (some d) = some d := hstill 1
          simp [hone, hstill, hactive]
      | true =>
          have hone : bulletEngagement.absorb (some d) = some (damage d) := by
            simp [Engagement.absorb, bulletEngagement, hactive]
          rw [hone, ih Sound.damage]
          have hsucc : 25 * ((n + 1 : ℕ) : K) = 25 * (n : K) + 25 := by
            push_cast
            ring
          rw [hsucc]
          by_cases hout : d.health - 25 ≤ 0
          · have hdead : ¬ 25 * (n : K) + 25 < d.health := by
              have hn : (0 : K) ≤ 25 * (n : K) := by positivity
              linarith
            simp only [damage, hout, if_true, hdead, decide_false, Bool.and_false,
              Bool.false_and]
          · have hiff : 25 * (n : K) < d.health - 25 ↔ 25 * (n : K) + 25 < d.health := by
              constructor <;> intro h <;> linarith
            simp [damage, hout, hactive, hiff]

/-! ## Hits of one bullet -/

/-- A bullet meets an active destructible in range whose health the earlier bullets
in range have not used up. -/
def meets (r : GameRegistry K) (earlier : List Entity) (b d : Entity) : Bool :=
  match destructibleOf r d with
  | none => false
  | some x =>
      x.active && bulletEngagement.inRange r b d &&
        decide (25 * ((earlier.countP fun b' => bulletEngagement.inRange r b' d : ℕ) : K) <
          x.health)

/-- The hits of one bullet in a tick: destructibles met after the earlier bullets,
and tanks of another peer in range. -/
def hits (order : ViewOrder) (r : GameRegistry K) (earlier : List Entity) (b : Entity) : ℕ :=
  ((destructibles order r).filter (meets r earlier b)).length +
    ((tanks order r).filter (strikesTank r b)).length

/-- No bullet has two hits in the tick. -/
def SingleHit (order : ViewOrder) (r : GameRegistry K) : Prop :=
  ∀ pre b post, bullets order r = pre ++ b :: post → hits order r pre b ≤ 1

/-- Every destructible of the registry is sound. -/
def Sound (r : GameRegistry K) : Prop :=
  ∀ e d, destructibleOf r e = some d → d.Sound

/-- In a sound registry the bullets that score are those that meet. -/
theorem scores_eq_meets [IsStrictOrderedRing K] {r : GameRegistry K} (hsound : Sound r)
    (earlier : List Entity) (b d : Entity) :
    (bulletEngagement.rules r).scores (destructibleOf r) earlier b d = meets r earlier b d := by
  unfold meets
  simp only [Volley.Rules.scores, Volley.Rules.after, Engagement.absorb_rules]
  cases hdest : destructibleOf r d with
  | none =>
      have hrange : (bulletEngagement.rules r).inRange b d = false := by
        have hof : bulletEngagement.of r d = none := hdest
        simp only [Engagement.rules, Engagement.inRange, hof]
        split <;> simp_all
      simp [hrange]
  | some x =>
      have halive := alive_iterate_absorb (hsound d x hdest)
        ((bulletEngagement.rules r).pressure earlier d)
      have hrules : (bulletEngagement.rules r).alive = fun s => s.any (·.active) := rfl
      rw [hrules]
      simp only [halive]
      have hpressure : (bulletEngagement.rules r).pressure earlier d =
        earlier.countP fun b' => bulletEngagement.inRange r b' d := rfl
      have hrange : (bulletEngagement.rules r).inRange b d = bulletEngagement.inRange r b d :=
        rfl
      rw [hpressure, hrange, Bool.and_assoc, Bool.and_assoc, Bool.and_comm (decide _)]

/-- Bullets against tanks as a volley: a tank is never out. -/
def tankRules (r : GameRegistry K) : Volley.Rules Entity Entity Unit where
  inRange := strikesTank r
  alive _ := true
  hit s := s

/-- The loop over bullets and tanks lists the bullets that strike one. -/
theorem bulletVsTank_eq_scored (r : GameRegistry K) (earlier bs ts : List Entity) :
    bulletVsTank r bs ts = (tankRules r).scored (fun _ => ()) ts earlier bs := by
  induction bs generalizing earlier with
  | nil => rfl
  | cons b bs ih =>
      have hscores : (tankRules r).scores (fun _ => ()) earlier b = strikesTank r b := by
        funext t
        simp [Volley.Rules.scores, tankRules]
      rw [Volley.Rules.scored, ← ih, hscores]
      rfl

/-- A bullet is pushed once for each tank it strikes. -/
theorem count_bulletVsTank (r : GameRegistry K) {pre post : List Entity} {b : Entity}
    (ts : List Entity) (hnodup : (pre ++ b :: post).Nodup) :
    (bulletVsTank r (pre ++ b :: post) ts).count b = (ts.filter (strikesTank r b)).length := by
  have hscores : (tankRules r).scores (fun _ => ()) ([] ++ pre) b = strikesTank r b := by
    funext t
    simp [Volley.Rules.scores, tankRules]
  rw [bulletVsTank_eq_scored r [], (tankRules r).count_scored hnodup, hscores]

/-- It lists bullets only. -/
theorem mem_of_mem_bulletVsTank {r : GameRegistry K} {bs ts : List Entity} {b : Entity}
    (h : b ∈ bulletVsTank r bs ts) : b ∈ bs := by
  rw [bulletVsTank_eq_scored r []] at h
  exact ((tankRules r).mem_of_mem_scored h).1

/-! ## The removal loop -/

/-- The removal list names only bullets. -/
theorem mem_bullets_of_mem_resolve {order : ViewOrder} {r : GameRegistry K} {b : Entity}
    (h : b ∈ (resolve order r).2) : b ∈ bullets order r := by
  rw [resolve_snd, List.mem_append] at h
  rcases h with h | h
  · exact ((bulletEngagement.rules r).mem_of_mem_scored h).1
  · exact mem_of_mem_bulletVsTank h

/-- What is to be removed is valid before the removals. -/
theorem valid_of_mem_resolve {order : ViewOrder} {r : GameRegistry K} {b : Entity}
    (h : b ∈ (resolve order r).2) : r.valid b :=
  Registry.valid_of_mem_view (mem_bullets_of_mem_resolve h)

/-- The removal loop destroys valid entities exactly when no bullet has two hits. -/
theorem nodup_resolve_iff [IsStrictOrderedRing K] (order : ViewOrder) {r : GameRegistry K}
    (hsound : Sound r) : (resolve order r).2.Nodup ↔ SingleHit order r := by
  have hnodup : (bullets order r).Nodup := r.nodup_view order _ _
  have hscores : (bulletEngagement.rules r).scores (destructibleOf r) = meets r := by
    funext earlier b d
    exact scores_eq_meets hsound earlier b d
  have hcount : ∀ pre b post, bullets order r = pre ++ b :: post →
      (bulletVsTank r (bullets order r) (tanks order r)).count b =
        ((tanks order r).filter (strikesTank r b)).length := by
    intro pre b post hsplit
    rw [hsplit] at hnodup ⊢
    exact count_bulletVsTank r _ hnodup
  rw [resolve_snd, scoredBullets,
    (bulletEngagement.rules r).nodup_scored_append_iff hnodup fun b => mem_of_mem_bulletVsTank,
    hscores]
  constructor
  · intro h pre b post hsplit
    have hle := h pre b post hsplit
    rwa [hcount pre b post hsplit] at hle
  · intro h pre b post hsplit
    rw [hcount pre b post hsplit]
    exact h pre b post hsplit

end Range

end CollisionSystem

namespace Game

variable [FloatOps K] [FloorSemiring K]

/-- Both removal loops of the next step destroy valid entities only. -/
def DestroysValid (order : ViewOrder) (g : Game K) : Prop :=
  (ShootSystem.advance order (MovementSystem.update order g.registry fixedTimestep)
      fixedTimestep (g.tickCount + 1)).1.RemovesValid
    (ShootSystem.advance order (MovementSystem.update order g.registry fixedTimestep)
      fixedTimestep (g.tickCount + 1)).2 ∧
  (CollisionSystem.resolve order (g.beforeCheck order)).1.RemovesValid
    (CollisionSystem.resolve order (g.beforeCheck order)).2

/-- A step is possible exactly when its removals are. -/
theorem destroysValid_iff_step_isSome (order : ViewOrder) (g : Game K) :
    g.DestroysValid order ↔ (g.step order).isSome := by
  have hexpiry := ShootSystem.update_isSome order
    (MovementSystem.update order g.registry fixedTimestep) fixedTimestep (g.tickCount + 1)
  unfold ShootSystem.update at hexpiry
  rw [Option.isSome_map, Registry.destroyAll_isSome_iff_removesValid] at hexpiry
  unfold DestroysValid
  rw [step_eq, Option.isSome_map, CollisionSystem.check, Option.isSome_map,
    Registry.destroyAll_isSome_iff_removesValid]
  exact and_iff_right hexpiry

/-- Soundness of the destructible of a row. -/
def SoundRow (c : Components K) : Prop :=
  ∀ d, c.destructible = some d → d.Sound

theorem kept_soundRow : Kept (SoundRow (K := K)) :=
  Kept.destructible fun _ _ _ => CollisionSystem.Sound.damage

section Reachable

variable [IsStrictOrderedRing K]

/-- Every destructible of a reachable game is sound. -/
theorem sound_of_reachable {isServer : Bool} {calls : List (GameCall K)} {g : Game K}
    {h : List GameEvent} (hrun : (system K).run (init isServer) calls = some (g, h)) :
    ∀ e c, g.registry.row e = some c → SoundRow c := by
  refine row_of_reachable kept_soundRow ?_ ?_ hrun
  · intro entityType position rotation peerId d hd
    unfold SpawnSystem.row at hd
    split at hd
    · cases hd
    · split at hd
      · cases hd
      · split at hd
        · cases hd
        · split at hd
          · cases hd
            intro _
            norm_num [Destructible.default]
          · cases hd
  · intro transform peerId tick d hd
    cases hd

/-- The destructibles that the collision system meets are sound. -/
theorem sound_beforeCheck {isServer : Bool} {calls : List (GameCall K)} {g : Game K}
    {h : List GameEvent} (hrun : (system K).run (init isServer) calls = some (g, h))
    (order : ViewOrder) : CollisionSystem.Sound (g.beforeCheck order) := by
  intro e d hd
  rcases Option.bind_eq_some_iff.mp hd with ⟨c, hrow, hget⟩
  exact kept_soundRow.beforeCheck order (sound_of_reachable hrun e) c hrow d hget

/-- In a reachable game the next step destroys valid entities only, exactly when no
bullet has two hits in it. -/
theorem destroysValid_iff_singleHit {isServer : Bool} {calls : List (GameCall K)}
    {g : Game K} {h : List GameEvent}
    (hrun : (system K).run (init isServer) calls = some (g, h)) (order : ViewOrder) :
    g.DestroysValid order ↔ CollisionSystem.SingleHit order (g.beforeCheck order) := by
  rw [destroysValid_iff_step_isSome, step_isSome_iff,
    CollisionSystem.nodup_resolve_iff order (sound_beforeCheck hrun order)]
  exact and_iff_left fun b hb => CollisionSystem.valid_of_mem_resolve hb

/-- Over whole runs: every step is reached and destroys valid entities only,
exactly when in every step that is reached no bullet has two hits. -/
theorem run_destroysValid_iff (isServer : Bool) (calls : List (GameCall K)) :
    (∀ pre order post, calls = pre ++ .step order :: post →
      ∃ g h, (system K).run (init isServer) pre = some (g, h) ∧ g.DestroysValid order) ↔
    ∀ pre order post, calls = pre ++ .step order :: post →
      ∀ g h, (system K).run (init isServer) pre = some (g, h) →
        CollisionSystem.SingleHit order (g.beforeCheck order) := by
  constructor
  · intro hvalid pre order post hsplit g h hrun
    rcases hvalid pre order post hsplit with ⟨g', h', hrun', hdestroys⟩
    rw [hrun] at hrun'
    cases hrun'
    exact (destroysValid_iff_singleHit hrun order).mp hdestroys
  · intro hsingle
    have hsteps : ((system K).run (init isServer) calls).isSome := by
      rw [Labelled.System.run_isSome_iff]
      intro pre call post hsplit g h hrun
      cases call with
      | step order =>
          have hhit := hsingle pre order post hsplit g h hrun
          exact (destroysValid_iff_step_isSome order g).mp
            ((destroysValid_iff_singleHit hrun order).mpr hhit)
      | _ => rfl
    intro pre order post hsplit
    rcases Option.isSome_iff_exists.mp hsteps with ⟨⟨u, h⟩, hrun⟩
    rw [hsplit] at hrun
    rcases (Labelled.System.run_append _).mp hrun with ⟨g, h₁, _, hpre, _, _⟩
    exact ⟨g, h₁, hpre,
      (destroysValid_iff_singleHit hpre order).mpr (hsingle pre order post hsplit g h₁ hpre)⟩

end Reachable

/-- A bullet on a destructible. -/
def struckCalls : List (GameCall ℚ) :=
  [.spawnDestructible ⟨20, 0⟩, .spawnBullet ⟨20, 0⟩ 0 1]

/-- The step after {lit}`struckCalls` destroys the bullet, once. -/
theorem run_destroysValid_iff_struck :
    ∃ g h, (system ℚ).run (init false) struckCalls = some (g, h) ∧
      g.DestroysValid (Enumeration.stored View) ∧
      (g.step (Enumeration.stored View)).map Prod.snd = some [.collided 1] := by
  have hcollided : ((system ℚ).run (init false) struckCalls).bind
      (fun p => (p.1.step (Enumeration.stored View)).map Prod.snd) = some [.collided 1] := by
    decide +kernel
  have hbullets : ((system ℚ).run (init false) struckCalls).map (fun p =>
      CollisionSystem.bullets (Enumeration.stored View)
        (p.1.beforeCheck (Enumeration.stored View))) = some [1] := by
    decide +kernel
  have hhits : ((system ℚ).run (init false) struckCalls).map (fun p =>
      CollisionSystem.hits (Enumeration.stored View)
        (p.1.beforeCheck (Enumeration.stored View)) [] 1) = some 1 := by
    decide +kernel
  have hsingle := (run_destroysValid_iff false
    (struckCalls ++ [.step (Enumeration.stored View)])).mpr ?_ struckCalls
    (Enumeration.stored View) [] rfl
  · rcases hsingle with ⟨g, h, hrun, hvalid⟩
    rw [hrun] at hcollided
    exact ⟨g, h, hrun, hvalid, hcollided⟩
  · intro pre order post hsplit g h hrun
    rcases pre with _ | ⟨c₁, _ | ⟨c₂, _ | ⟨c₃, pre⟩⟩⟩ <;>
      simp only [struckCalls, List.cons_append, List.nil_append, List.cons.injEq, reduceCtorEq,
        false_and, and_false, GameCall.step.injEq] at hsplit
    · rcases hsplit with ⟨rfl, rfl, rfl, _⟩
      have hsame : (system ℚ).run (init false) struckCalls = some (g, h) := hrun
      rw [hsame] at hbullets hhits
      -- the only bullet has its only hit
      intro earlier b later hb
      rw [Option.map_some, Option.some.injEq] at hbullets hhits
      rw [hbullets] at hb
      rcases List.append_eq_singleton_iff.mp hb.symm with ⟨rfl, hb⟩ | ⟨_, hb⟩
      · cases hb
        exact hhits.le
      · cases hb
    · simp at hsplit

/-- A bullet on two destructibles. -/
def stackedCalls : List (GameCall ℚ) :=
  [.spawnDestructible ⟨20, 0⟩, .spawnDestructible ⟨20, 0⟩, .spawnBullet ⟨20, 0⟩ 0 1]

/-- The step after {lit}`stackedCalls` destroys the bullet a second time. -/
theorem exists_not_destroysValid :
    ∃ g h, (system ℚ).run (init false) stackedCalls = some (g, h) ∧
      ¬ g.DestroysValid (Enumeration.stored View) := by
  have hrun : ((system ℚ).run (init false) stackedCalls).isSome = true := by
    decide +kernel
  rcases Option.isSome_iff_exists.mp hrun with ⟨⟨g, h⟩, hgh⟩
  refine ⟨g, h, hgh, ?_⟩
  rw [destroysValid_iff_step_isSome]
  have hstuck : ((system ℚ).run (init false)
      (stackedCalls ++ [.step (Enumeration.stored View)])).isSome = false := by
    decide +kernel
  intro hstep
  rcases Option.isSome_iff_exists.mp hstep with ⟨⟨g', out⟩, hg'⟩
  have hcall : (system ℚ).step g (.step (Enumeration.stored View)) = some (g', out) := hg'
  rw [(system ℚ).run_concat hgh hcall] at hstuck
  contradiction

end Game

end GameFramework
