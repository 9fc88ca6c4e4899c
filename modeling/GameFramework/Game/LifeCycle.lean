import GameFramework.Client.Renderer
import GameFramework.Game.Effects
import Mathlib.Algebra.Order.Ring.Rat
import Mathlib.Data.Rat.Floor

/-!
# Life cycle of destructibles and collectibles

Health only falls, in steps of 25, and a destructible goes out exactly when its
health is used up; from then on nothing changes it.  A collectible goes out once.
The drawing of destructibles relies on the bounds this gives.

Main results:

- Definition {lit}`Destructible.Worn`: what holds of every destructible.
- Definition {lit}`Destructible.Later`: how two states of one destructible compare.
- Theorem {lit}`Game.worn_of_reachable`: every destructible of a reachable game is worn.
- Theorem {lit}`Game.later_of_run`: over any calls a destructible only wears.
- Theorem {lit}`Game.radius_of_reachable`: every destructible of a reachable game has the default
  size.
- Theorem {lit}`Game.lifeCycle`: wear, collectibles, and the colour of what is drawn.
-/

namespace GameFramework

open EntityRegistry

variable {K : Type*} [Field K] [LinearOrder K]

/-! ## Wear -/

/-- Health is a number of hits short of full, and the destructible is active exactly
while some is left. -/
structure Destructible.Worn (d : Destructible K) : Prop where
  active_iff : d.active = true ↔ 0 < d.health
  multiple : ∃ n : ℕ, d.health = 25 * (n : K)
  nonneg : 0 ≤ d.health
  le_maxHealth : d.health ≤ d.maxHealth

/-- A later state of the same destructible. -/
structure Destructible.Later (d d' : Destructible K) : Prop where
  health_le : d'.health ≤ d.health
  frozen : d.active = false → d'.health = d.health ∧ d'.active = false

omit [Field K] in
theorem Destructible.Later.refl (d : Destructible K) : d.Later d where
  health_le := le_refl _
  frozen h := ⟨rfl, h⟩

namespace CollisionSystem

variable [IsStrictOrderedRing K] {d d' : Destructible K}

/-- A hit takes one multiple of 25 off an active destructible. -/
theorem worn_damage (hactive : d.active = true) (h : d.Worn) : (damage d).Worn := by
  have hpos : 0 < d.health := h.active_iff.mp hactive
  rcases h.multiple with ⟨n, hn⟩
  cases n with
  | zero =>
      rw [hn] at hpos
      simp at hpos
  | succ n =>
      have hleft : d.health - 25 = 25 * (n : K) := by
        rw [hn]
        push_cast
        ring
      have hnonneg : 0 ≤ d.health - 25 := by
        rw [hleft]
        positivity
      refine ⟨?_, ⟨n, hleft⟩, hnonneg, ?_⟩
      · change (if d.health - 25 ≤ 0 then false else d.active) = true ↔ 0 < d.health - 25
        rw [hactive]
        split
        · rename_i hout
          simpa using hout
        · rename_i hout
          simpa using hout
      · calc
          d.health - 25 ≤ d.health := by linarith
          _ ≤ d.maxHealth := h.le_maxHealth

/-- A hit comes later. -/
theorem later_damage (hactive : d'.active = true) (h : d.Later d') : d.Later (damage d') where
  health_le := by
    have hle := h.health_le
    simp only [damage]
    linarith
  frozen hout := by
    have hstill := (h.frozen hout).2
    rw [hactive] at hstill
    contradiction

end CollisionSystem

/-! ## Reachable games -/

namespace Game

variable [FloatOps K] [FloorSemiring K] {isServer : Bool} {calls : List (GameCall K)}
  {g g' : Game K} {h : List GameEvent}

omit [LinearOrder K] [FloatOps K] [FloorSemiring K] in
/-- A created destructible is the default one. -/
theorem destructible_row {entityType : UInt8} {position : B2Vec2 K} {rotation : K}
    {peerId : UInt32} {d : Destructible K}
    (hd : (SpawnSystem.row entityType position rotation peerId).destructible = some d) :
    d = Destructible.default := by
  unfold SpawnSystem.row at hd
  split at hd
  · cases hd
  · split at hd
    · cases hd
    · split at hd
      · cases hd
      · split at hd
        · exact (Option.some.inj hd).symm
        · cases hd

/-- A component over any calls: what every system keeps holds of every later component
of the entity. -/
theorem component_run {τ : Type*} {get : Components K → Option τ} {P : τ → Prop}
    (hP : Kept fun c => ∀ x, get c = some x → P x)
    (hrun : (system K).run g calls = some (g', h)) {e : Entity} {x x' : τ}
    (hx : (g.registry.row e).bind get = some x) (hstart : P x)
    (hx' : (g'.registry.row e).bind get = some x') : P x' := by
  rcases Option.bind_eq_some_iff.mp hx with ⟨c, hrow, hget⟩
  rcases Option.bind_eq_some_iff.mp hx' with ⟨c', hrow', hget'⟩
  have hrows := row_run_of_kept hP hrun (Registry.lt_next_of_row hrow) ?_
  · exact hrows.2 c' hrow' x' hget'
  · intro c₀ hc₀ x₀ hx₀
    rw [hrow] at hc₀
    cases hc₀
    rw [hget] at hx₀
    cases hx₀
    exact hstart

/-- A collectible that is out stays out. -/
theorem inactive_of_run (hrun : (system K).run g calls = some (g', h)) {e : Entity}
    {x x' : Collectible K} (hx : collectibleOf g.registry e = some x)
    (hx' : collectibleOf g'.registry e = some x') (hout : x.active = false) :
    x'.active = false :=
  component_run (Kept.collectible (P := fun x => x.active = false) fun _ _ _ => rfl) hrun hx
    hout hx'

variable [IsStrictOrderedRing K]

omit [FloatOps K] [FloorSemiring K] in
theorem worn_default : (Destructible.default : Destructible K).Worn where
  active_iff := by norm_num [Destructible.default]
  multiple := ⟨4, by norm_num [Destructible.default]⟩
  nonneg := by norm_num [Destructible.default]
  le_maxHealth := le_refl _

/-- Every destructible of a reachable game is worn. -/
theorem worn_of_reachable (hrun : (system K).run (init isServer) calls = some (g, h))
    {e : Entity} {d : Destructible K} (hd : destructibleOf g.registry e = some d) :
    d.Worn := by
  rcases Option.bind_eq_some_iff.mp hd with ⟨c, hrow, hget⟩
  refine row_of_reachable (Kept.destructible fun _ => CollisionSystem.worn_damage) ?_ ?_ hrun
    e c hrow d hget
  · intro entityType position rotation peerId d hd
    rw [destructible_row hd]
    exact worn_default
  · intro transform peerId tick d hd
    cases hd

omit [IsStrictOrderedRing K] in
/-- Every destructible of a reachable game has the default size. -/
theorem radius_of_reachable (hrun : (system K).run (init isServer) calls = some (g, h))
    {e : Entity} {d : Destructible K} (hd : destructibleOf g.registry e = some d) :
    d.radius = 2 := by
  rcases Option.bind_eq_some_iff.mp hd with ⟨c, hrow, hget⟩
  refine row_of_reachable (Kept.destructible (P := fun d => d.radius = 2) fun _ _ hd => hd)
    ?_ ?_ hrun e c hrow d hget
  · intro entityType position rotation peerId d hd
    rw [destructible_row hd]
    rfl
  · intro transform peerId tick d hd
    cases hd

/-- Over any calls a destructible only wears. -/
theorem later_of_run (hrun : (system K).run g calls = some (g', h)) {e : Entity}
    {d d' : Destructible K} (hd : destructibleOf g.registry e = some d)
    (hd' : destructibleOf g'.registry e = some d') : d.Later d' :=
  component_run (Kept.destructible fun _ => CollisionSystem.later_damage) hrun hd
    (Destructible.Later.refl d) hd'

/-- The life cycle of destructibles and collectibles in every reachable game and over
every further run, and the drawing of an active destructible. -/
theorem lifeCycle (hrun : (system K).run (init isServer) calls = some (g, h)) :
    (∀ e d, destructibleOf g.registry e = some d → d.Worn) ∧
      (∀ later g' h', (system K).run g later = some (g', h') → ∀ e,
        (∀ d d', destructibleOf g.registry e = some d →
          destructibleOf g'.registry e = some d' → d.Later d') ∧
        ∀ x x', collectibleOf g.registry e = some x →
          collectibleOf g'.registry e = some x' → x.active = false → x'.active = false) ∧
      ∀ e d, destructibleOf g.registry e = some d → d.active = true →
        (0 < GameRenderer.healthRatio d ∧ GameRenderer.healthRatio d ≤ 1) ∧
          ((0 ≤ GameRenderer.red d ∧ GameRenderer.red d ≤ 255) ∧
            0 ≤ GameRenderer.green d ∧ GameRenderer.green d ≤ 255) ∧
          (GameRenderer.color d).isSome := by
  refine ⟨fun e d hd => worn_of_reachable hrun hd, ?_, ?_⟩
  · intro later g' h' hlater e
    exact ⟨fun d d' => later_of_run hlater, fun x x' => inactive_of_run hlater⟩
  · intro e d hd hactive
    have hworn := worn_of_reachable hrun hd
    have hratio := GameRenderer.healthRatio_mem (hworn.active_iff.mp hactive)
      hworn.le_maxHealth
    exact ⟨hratio, GameRenderer.components_of_ratio hratio, GameRenderer.isSome_color hratio⟩

/-- A bullet next to the first destructible of a server game, and the step that
hits it. -/
def hitCalls : List (GameCall ℚ) :=
  [.spawnBullet ⟨20, 0⟩ 0 7, .step (Enumeration.stored View)]

theorem lifeCycle_hit :
    ∃ g h, (system ℚ).run (init true) hitCalls = some (g, h) ∧
      (destructibleOf g.registry 3).map (·.health) = some 75 ∧
      ∀ e d, destructibleOf g.registry e = some d → d.Worn := by
  have hhealth : ((system ℚ).run (init true) hitCalls).bind
      (fun p => (destructibleOf p.1.registry 3).map (·.health)) = some 75 := by
    decide +kernel
  rcases Option.bind_eq_some_iff.mp hhealth with ⟨⟨g, h⟩, hrun, hleft⟩
  exact ⟨g, h, hrun, hleft, (lifeCycle hrun).1⟩

end Game

end GameFramework
