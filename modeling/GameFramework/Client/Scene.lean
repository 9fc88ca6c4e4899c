import GameFramework.Game.Archetypes
import GameFramework.Game.LifeCycle

/-!
# What a frame shows

{lit}`GameRenderer::render` over the registry of the game: it points the camera at a player
tank and then draws the entities view by view.  The drawing of a tank, a bullet or a
collectible is recorded with its arguments, that of a destructible with its calls into the
graphics library.  There is no drawing when a destructible has none.

Main results:

- Definition {lit}`GameRenderer.renderGameContent`: the drawings of a frame, in order.
- Definition {lit}`GameRenderer.cameraTarget`: what the camera is pointed at.
- Theorem {lit}`Game.scene_of_drawable`: a frame shows every entity once, as its component set
  says, if the health bars fit.
- Theorem {lit}`Game.scene_of_reachable`: a frame of a reachable game has a drawing exactly when
  they do.
-/

namespace GameFramework

open EntityRegistry

/-- What {lit}`renderGameContent` draws. -/
inductive Drawing (K : Type*) where
  | tank (entity : Entity) (transform : Transform K) (tank : Tank K)
  | bullet (transform : Transform K) (bullet : Bullet K)
  | collectible (transform : Transform K) (collectible : Collectible K)
  | destructible (call : DrawCall K)

namespace GameRenderer

variable {K : Type*}

def renderTank (entity : Entity) (transform : Transform K) (tank : Tank K) : List (Drawing K) :=
  [.tank entity transform tank]

def renderBullet (transform : Transform K) (bullet : Bullet K) : List (Drawing K) :=
  [.bullet transform bullet]

/-- An inactive collectible is not drawn. -/
def renderCollectible (transform : Transform K) (collectible : Collectible K) :
    List (Drawing K) :=
  if !collectible.active then [] else [.collectible transform collectible]

/-- One round of the loop over {lit}`view<entt::entity, Transform, Tank>`. -/
def tankDrawings (entity : Entity) (c : Components K) : Option (List (Drawing K)) :=
  match c.transform, c.tank with
  | some transform, some tank => some (renderTank entity transform tank)
  | _, _ => none

/-- One round of the loop over {lit}`view<Transform, Bullet>`. -/
def bulletDrawings (c : Components K) : Option (List (Drawing K)) :=
  match c.transform, c.bullet with
  | some transform, some bullet => some (renderBullet transform bullet)
  | _, _ => none

/-- One round of the loop over {lit}`view<Transform, Collectible>`. -/
def collectibleDrawings (c : Components K) : Option (List (Drawing K)) :=
  match c.transform, c.collectible with
  | some transform, some collectible => some (renderCollectible transform collectible)
  | _, _ => none

/-- One round of the loop over {lit}`view<Transform, Destructible>`. -/
def destructibleDrawings [Field K] [LinearOrder K] [FloorSemiring K] (c : Components K) :
    Option (List (Drawing K)) :=
  match c.transform, c.destructible with
  | some transform, some destructible =>
      (renderDestructible transform destructible).map fun calls => calls.map .destructible
  | _, _ => none

/-- A loop of drawings.  It has none if one of its rounds has none. -/
def renderEach (registry : GameRegistry K)
    (render : Entity → Components K → Option (List (Drawing K))) :
    List Entity → Option (List (Drawing K))
  | [] => some []
  | e :: es =>
      match (registry.row e).bind (render e), renderEach registry render es with
      | some drawings, some rest => some (drawings ++ rest)
      | _, _ => none

/-- The four loops. -/
def renderGameContent [Field K] [LinearOrder K] [FloorSemiring K] (order : ViewOrder)
    (registry : GameRegistry K) : Option (List (Drawing K)) :=
  let tanks := registry.view order .transformTank Components.hasTransformTank
  let bullets := registry.view order .transformBullet Components.hasTransformBullet
  let colls := registry.view order .transformCollectible Components.hasTransformCollectible
  let dests := registry.view order .transformDestructible Components.hasTransformDestructible
  match renderEach registry tankDrawings tanks,
      renderEach registry (fun _ => bulletDrawings) bullets,
      renderEach registry (fun _ => collectibleDrawings) colls,
      renderEach registry (fun _ => destructibleDrawings) dests with
  | some tanks, some bullets, some colls, some dests =>
      some (tanks ++ bullets ++ colls ++ dests)
  | _, _, _, _ => none

/-- The health bars of all active destructibles have corners that fit. -/
def Drawable [Field K] [LinearOrder K] (registry : GameRegistry K) : Prop :=
  ∀ e c transform d, registry.row e = some c → c.transform = some transform →
    c.destructible = some d → d.active = true → BarFits transform d

/-- The loop of {lit}`render` that points the camera at the player tank it visits last. -/
def cameraTarget (order : ViewOrder) (registry : GameRegistry K) (target : B2Vec2 K) :
    B2Vec2 K :=
  (registry.view order .transformTank Components.hasTransformTank).foldl
    (fun target e =>
      match (registry.row e).bind (·.transform), (registry.row e).bind (·.tank) with
      | some transform, some tank => if tank.isPlayer then transform.position else target
      | _, _ => target)
    target

/-- The drawings of an entity, whichever view it is in. -/
def drawings [Field K] [LinearOrder K] [FloorSemiring K] (entity : Entity) (c : Components K) :
    Option (List (Drawing K)) :=
  tankDrawings entity c <|> bulletDrawings c <|> collectibleDrawings c <|> destructibleDrawings c

/-- The drawings of an entity of the registry. -/
def shown [Field K] [LinearOrder K] [FloorSemiring K] (registry : GameRegistry K)
    (entity : Entity) : List (Drawing K) :=
  ((registry.row entity).bind (drawings entity)).getD []

end GameRenderer

section Shows

open GameRenderer

variable {K : Type*} [Field K] [LinearOrder K] [FloorSemiring K] {c : Components K} {e : Entity}

/-- How an entity with the component set is shown. -/
def Archetype.Shows (e : Entity) (c : Components K) : Archetype → List (Drawing K) → Prop
  | .tank, ds => ∃ transform tank, c.transform = some transform ∧ c.tank = some tank ∧
      ds = renderTank e transform tank
  | .bullet, ds => ∃ transform bullet, c.transform = some transform ∧ c.bullet = some bullet ∧
      ds = renderBullet transform bullet
  | .collectible, ds => ∃ transform collectible, c.transform = some transform ∧
      c.collectible = some collectible ∧ ds = renderCollectible transform collectible
  | .destructible, ds => ∃ transform destructible calls, c.transform = some transform ∧
      c.destructible = some destructible ∧
      renderDestructible transform destructible = some calls ∧ ds = calls.map .destructible

namespace Archetype

/-- The view that draws the entities with the component set. -/
def test : Archetype → Components K → Bool
  | .tank => Components.hasTransformTank
  | .bullet => Components.hasTransformBullet
  | .collectible => Components.hasTransformCollectible
  | .destructible => Components.hasTransformDestructible

/-- One round of the loop over this view. -/
def round (e : Entity) : Archetype → Components K → Option (List (Drawing K))
  | .tank => tankDrawings e
  | .bullet => bulletDrawings
  | .collectible => collectibleDrawings
  | .destructible => destructibleDrawings

omit [Field K] [LinearOrder K] [FloorSemiring K] in
/-- An entity is in the view of its component set and in no other one. -/
theorem test_iff {a b : Archetype} (ha : a.Fits c) : b.test c = true ↔ a = b := by
  have htransform : c.transform.isSome = true :=
    ha.isSome (k := .transform) (by cases a <;> decide)
  have hmark : b.test c = c.carries b.mark := by
    cases b <;> simp [test, mark, Components.carries, Components.hasTransformTank,
      Components.hasTransformBullet, Components.hasTransformCollectible,
      Components.hasTransformDestructible, htransform]
  rw [hmark, ha b.mark, mark_mem_components_iff, eq_comm]

/-- The round of an entity in the loop of its component set. -/
theorem exists_shows {a : Archetype} (ha : a.Fits c)
    (hdrawn : ∀ transform d, c.transform = some transform → c.destructible = some d →
      (renderDestructible transform d).isSome) :
    ∃ ds, a.round e c = some ds ∧ drawings e c = some ds ∧ a.Shows e c ds := by
  have hnone : ∀ b : Archetype, a ≠ b → b.round e c = none := by
    intro b hb
    have habsent : c.carries b.mark = false :=
      ha.not_carries fun hmem => hb ((mark_mem_components_iff b a).mp hmem).symm
    cases b <;> simp only [mark, Components.carries, Option.isSome_eq_false_iff,
      Option.isNone_iff_eq_none] at habsent <;>
      simp [round, tankDrawings, bulletDrawings, collectibleDrawings, destructibleDrawings,
        habsent]
  rcases Option.isSome_iff_exists.mp (ha.isSome (k := .transform) (by cases a <;> decide)) with
    ⟨transform, ht⟩
  have hmark : c.carries a.mark = true := ha.isSome ((mark_mem_components_iff a a).mpr rfl)
  have hround : drawings e c = (tank.round e c <|> bullet.round e c <|>
    collectible.round e c <|> destructible.round e c) := rfl
  cases a with
  | tank =>
      rcases Option.isSome_iff_exists.mp hmark with ⟨x, hx⟩
      have hsome : tank.round e c = some (renderTank e transform x) := by
        simp [round, tankDrawings, ht, hx]
      exact ⟨_, hsome, by rw [hround, hsome]; rfl, transform, x, ht, hx, rfl⟩
  | bullet =>
      rcases Option.isSome_iff_exists.mp hmark with ⟨x, hx⟩
      have hsome : bullet.round e c = some (renderBullet transform x) := by
        simp [round, bulletDrawings, ht, hx]
      refine ⟨_, hsome, ?_, transform, x, ht, hx, rfl⟩
      rw [hround, hnone .tank (by decide), hsome]
      rfl
  | collectible =>
      rcases Option.isSome_iff_exists.mp hmark with ⟨x, hx⟩
      have hsome : collectible.round e c = some (renderCollectible transform x) := by
        simp [round, collectibleDrawings, ht, hx]
      refine ⟨_, hsome, ?_, transform, x, ht, hx, rfl⟩
      rw [hround, hnone .tank (by decide), hnone .bullet (by decide), hsome]
      rfl
  | destructible =>
      rcases Option.isSome_iff_exists.mp hmark with ⟨x, hx⟩
      rcases Option.isSome_iff_exists.mp (hdrawn transform x ht hx) with ⟨calls, hcalls⟩
      have hsome : destructible.round e c = some (calls.map .destructible) := by
        simp [round, destructibleDrawings, ht, hx, hcalls]
      refine ⟨_, hsome, ?_, transform, x, calls, ht, hx, hcalls, rfl⟩
      rw [hround, hnone .tank (by decide), hnone .bullet (by decide),
        hnone .collectible (by decide), hsome]
      rfl

end Archetype

end Shows

namespace GameRenderer

variable {K : Type*} [Field K] [LinearOrder K] [FloorSemiring K]

/-- A loop whose rounds draw what is shown of their entities. -/
theorem renderEach_eq {registry : GameRegistry K}
    {render : Entity → Components K → Option (List (Drawing K))} {es : List Entity}
    (hround : ∀ e ∈ es, (registry.row e).bind (render e) = some (shown registry e)) :
    renderEach registry render es = some (es.flatMap (shown registry)) := by
  induction es with
  | nil => rfl
  | cons e es ih =>
      have hrest := ih fun e' he' => hround e' (List.mem_cons_of_mem e he')
      simp only [renderEach, hround e List.mem_cons_self, hrest, List.flatMap_cons]

omit [Field K] [LinearOrder K] [FloorSemiring K] in
/-- A loop that has drawings has some in every round. -/
theorem isSome_round {registry : GameRegistry K}
    {render : Entity → Components K → Option (List (Drawing K))} {es : List Entity}
    (hloop : (renderEach registry render es).isSome) :
    ∀ e ∈ es, ((registry.row e).bind (render e)).isSome := by
  induction es with
  | nil => simp
  | cons e es ih =>
      simp only [renderEach] at hloop
      split at hloop
      · rename_i drawings rest hround hrest
        refine List.forall_mem_cons.mpr ⟨?_, ih (by rw [hrest, Option.isSome_some])⟩
        rw [hround, Option.isSome_some]
      · cases hloop

/-- A frame that has drawings has some of every destructible. -/
theorem isSome_destructibleDrawings {order : ViewOrder} {registry : GameRegistry K}
    (hdrawn : (renderGameContent order registry).isSome) {e : Entity} {c : Components K}
    (hrow : registry.row e = some c) (hc : c.hasTransformDestructible = true) :
    (destructibleDrawings c).isSome := by
  simp only [renderGameContent] at hdrawn
  split at hdrawn
  · rename_i hdests
    have hround := isSome_round (Option.isSome_of_eq_some hdests) e
      (Registry.mem_view.mpr ⟨c, hrow, hc⟩)
    rwa [hrow, Option.bind_some] at hround
  · cases hdrawn

end GameRenderer

namespace Game

open GameRenderer

variable {K : Type*} [Field K] [LinearOrder K] [IsStrictOrderedRing K] [FloatOps K]
  [FloorSemiring K] {isServer : Bool} {calls : List (GameCall K)} {g : Game K}
  {h : List GameEvent}

/-- An active destructible of a reachable game has a drawing exactly when the corner of its
health bar fits. -/
theorem isSome_renderDestructible_iff (hrun : (system K).run (init isServer) calls = some (g, h))
    {e : Entity} {c : Components K} (hrow : g.registry.row e = some c) {transform : Transform K}
    {d : Destructible K} (hd : c.destructible = some d) (hactive : d.active = true) :
    (renderDestructible transform d).isSome ↔ BarFits transform d := by
  have hof : destructibleOf g.registry e = some d := by
    rw [destructibleOf, Engagement.of, hrow]
    exact hd
  have hworn := worn_of_reachable hrun hof
  exact GameRenderer.isSome_renderDestructible_iff hactive (radius_of_reachable hrun hof)
    (healthRatio_mem (hworn.active_iff.mp hactive) hworn.le_maxHealth)

/-- Every entity of a reachable game has drawings, if the health bars fit. -/
theorem exists_shows_of_reachable (hrun : (system K).run (init isServer) calls = some (g, h))
    (hdrawable : Drawable g.registry) {e : Entity} {c : Components K}
    (hrow : g.registry.row e = some c) {a : Archetype} (ha : a.Fits c) :
    a.round e c = some (shown g.registry e) ∧ a.Shows e c (shown g.registry e) := by
  have hdrawn : ∀ transform d, c.transform = some transform → c.destructible = some d →
      (renderDestructible transform d).isSome := by
    intro transform d htransform hd
    cases hactive : d.active with
    | false => simp [renderDestructible, hactive]
    | true =>
        exact (isSome_renderDestructible_iff hrun hrow hd hactive).mpr
          (hdrawable e c transform d hrow htransform hd hactive)
  rcases Archetype.exists_shows (e := e) ha hdrawn with ⟨ds, hround, hdrawings, hshows⟩
  have hshown : shown g.registry e = ds := by
    rw [shown, hrow, Option.bind_some, hdrawings, Option.getD_some]
  exact ⟨hshown ▸ hround, hshown ▸ hshows⟩

/-- A frame of a reachable game in which the health bars fit shows every entity once and each as
its component set says, in an order that the views decide. -/
theorem scene_of_drawable (hrun : (system K).run (init isServer) calls = some (g, h))
    (hdrawable : Drawable g.registry) (order : ViewOrder) :
    ∃ es, List.Perm es g.registry.entities ∧
      renderGameContent order g.registry = some (es.flatMap (shown g.registry)) ∧
      ∀ e c, g.registry.row e = some c → ∀ a : Archetype, a.Fits c →
        a.Shows e c (shown g.registry e) := by
  have hview : ∀ (a : Archetype) (v : View) e, e ∈ g.registry.view order v a.test ↔
      ∃ c, g.registry.row e = some c ∧ a.Fits c := by
    intro a v e
    rw [Registry.mem_view]
    constructor
    · rintro ⟨c, hrow, htest⟩
      rcases exists_fits_of_reachable hrun e c hrow with ⟨b, hb⟩
      exact ⟨c, hrow, (Archetype.test_iff hb).mp htest ▸ hb⟩
    · rintro ⟨c, hrow, ha⟩
      exact ⟨c, hrow, (Archetype.test_iff ha).mpr rfl⟩
  have hloop : ∀ (a : Archetype) (v : View),
      renderEach g.registry (fun e => a.round e) (g.registry.view order v a.test) =
        some ((g.registry.view order v a.test).flatMap (shown g.registry)) := by
    intro a v
    refine renderEach_eq fun e he => ?_
    rcases (hview a v e).mp he with ⟨c, hrow, ha⟩
    rw [hrow, Option.bind_some]
    exact (exists_shows_of_reachable hrun hdrawable hrow ha).1
  have hdisjoint : ∀ (a b : Archetype) (v w : View), a ≠ b →
      List.Disjoint (g.registry.view order v a.test) (g.registry.view order w b.test) := by
    intro a b v w hne e hea heb
    rcases (hview a v e).mp hea with ⟨c, hrow, ha⟩
    rcases (hview b w e).mp heb with ⟨c', hrow', hb⟩
    rw [hrow] at hrow'
    cases hrow'
    exact hne (ha.unique hb)
  have hnodup : ∀ (a : Archetype) (v : View), (g.registry.view order v a.test).Nodup :=
    fun a v => g.registry.nodup_view order v a.test
  refine ⟨g.registry.view order .transformTank Archetype.tank.test ++
    g.registry.view order .transformBullet Archetype.bullet.test ++
    g.registry.view order .transformCollectible Archetype.collectible.test ++
    g.registry.view order .transformDestructible Archetype.destructible.test, ?_, ?_, ?_⟩
  · refine (List.perm_ext_iff_of_nodup ?_ g.registry.nodup).mpr fun e => ?_
    · have hpair := (hnodup .tank .transformTank).append (hnodup .bullet .transformBullet)
        (hdisjoint _ _ _ _ (by decide))
      have htriple := hpair.append (hnodup .collectible .transformCollectible)
        (List.disjoint_append_left.mpr
          ⟨hdisjoint _ _ _ _ (by decide), hdisjoint _ _ _ _ (by decide)⟩)
      refine htriple.append (hnodup .destructible .transformDestructible)
        (List.disjoint_append_left.mpr ⟨List.disjoint_append_left.mpr ⟨?_, ?_⟩, ?_⟩) <;>
        exact hdisjoint _ _ _ _ (by decide)
    · simp only [List.mem_append, hview]
      constructor
      · rintro (((⟨c, hrow, _⟩ | ⟨c, hrow, _⟩) | ⟨c, hrow, _⟩) | ⟨c, hrow, _⟩) <;>
          exact Registry.valid_of_row hrow
      · intro he
        rcases Registry.valid_iff_exists_row.mp he with ⟨c, hrow⟩
        rcases exists_fits_of_reachable hrun e c hrow with ⟨a, ha⟩
        cases a with
        | tank => exact Or.inl (Or.inl (Or.inl ⟨c, hrow, ha⟩))
        | bullet => exact Or.inl (Or.inl (Or.inr ⟨c, hrow, ha⟩))
        | collectible => exact Or.inl (Or.inr ⟨c, hrow, ha⟩)
        | destructible => exact Or.inr ⟨c, hrow, ha⟩
  · have htanks : renderEach g.registry tankDrawings
        (g.registry.view order .transformTank Components.hasTransformTank) = _ :=
      hloop .tank .transformTank
    have hbullets : renderEach g.registry (fun _ => bulletDrawings)
        (g.registry.view order .transformBullet Components.hasTransformBullet) = _ :=
      hloop .bullet .transformBullet
    have hcolls : renderEach g.registry (fun _ => collectibleDrawings)
        (g.registry.view order .transformCollectible Components.hasTransformCollectible) = _ :=
      hloop .collectible .transformCollectible
    have hdests : renderEach g.registry (fun _ => destructibleDrawings)
        (g.registry.view order .transformDestructible Components.hasTransformDestructible) = _ :=
      hloop .destructible .transformDestructible
    simp only [renderGameContent, htanks, hbullets, hcolls, hdests, List.flatMap_append]
  · intro e c hrow a ha
    exact (exists_shows_of_reachable hrun hdrawable hrow ha).2

/-- A frame of a reachable game has a drawing exactly when the health bars of all active
destructibles fit, and then it shows every entity once, as its component set says. -/
theorem scene_of_reachable (hrun : (system K).run (init isServer) calls = some (g, h))
    (order : ViewOrder) :
    ((renderGameContent order g.registry).isSome ↔ Drawable g.registry) ∧
      ∀ drawings, renderGameContent order g.registry = some drawings →
        ∃ es, List.Perm es g.registry.entities ∧ drawings = es.flatMap (shown g.registry) ∧
          ∀ e c, g.registry.row e = some c → ∀ a : Archetype, a.Fits c →
            a.Shows e c (shown g.registry e) := by
  have hdrawable : (renderGameContent order g.registry).isSome → Drawable g.registry := by
    intro hdrawn e c transform d hrow htransform hd hactive
    have hround := isSome_destructibleDrawings hdrawn hrow
      (by simp [Components.hasTransformDestructible, htransform, hd])
    simp only [destructibleDrawings, htransform, hd, Option.isSome_map] at hround
    exact (isSome_renderDestructible_iff hrun hrow hd hactive).mp hround
  refine ⟨⟨hdrawable, fun hfits => ?_⟩, fun drawings hdrawings => ?_⟩
  · rcases scene_of_drawable hrun hfits order with ⟨es, _, hscene, _⟩
    rw [hscene, Option.isSome_some]
  · rcases scene_of_drawable hrun (hdrawable (hdrawings ▸ rfl)) order with
      ⟨es, hperm, hscene, hshows⟩
    rw [hscene, Option.some.injEq] at hdrawings
    exact ⟨es, hperm, hdrawings.symm, hshows⟩

/-- A frame of a server game with a tank and a bullet. -/
theorem scene_of_reachable_archetypes :
    ∃ g h drawings, (system ℚ).run (init true) archetypeCalls = some (g, h) ∧
      renderGameContent (Enumeration.stored View) g.registry = some drawings ∧
      Drawable g.registry ∧
      ∃ es, List.Perm es g.registry.entities ∧ drawings = es.flatMap (shown g.registry) := by
  have hdrawn : (((system ℚ).run (init true) archetypeCalls).bind fun p =>
      renderGameContent (Enumeration.stored View) p.1.registry).isSome := by
    decide +kernel
  rcases Option.isSome_iff_exists.mp hdrawn with ⟨drawings, hdrawings⟩
  rcases Option.bind_eq_some_iff.mp hdrawings with ⟨⟨g, h⟩, hrun, hscene⟩
  rcases scene_of_reachable hrun (Enumeration.stored View) with ⟨hiff, hshown⟩
  rcases hshown drawings hscene with ⟨es, hperm, heq, _⟩
  exact ⟨g, h, drawings, hrun, hscene, hiff.mp (hscene ▸ rfl), es, hperm, heq⟩

-- a destructible whose health bar starts outside the type
example : ((system ℚ).run (init false) [.spawnDestructible ⟨2 ^ 31 + 2, 0⟩]).map
    (fun p => (renderGameContent (Enumeration.stored View) p.1.registry).isSome) = some false := by
  decide +kernel

end Game

end GameFramework
