import GameFramework.Game.Systems
import GameFramework.Lib.Volley
import Mathlib.Algebra.Order.Field.Basic
import Mathlib.Tactic.Linarith
import Mathlib.Tactic.NormNum

/-!
# The collision loops as volleys

The double loops of {lit}`CollisionSystem::check` write one component of the inner
entity and read positions and radii that the loops never write.  This module
shows that they refine the volleys of the abstract layer: bullets against
destructibles, where a scoring bullet goes on the removal list, and tanks against
collectibles.  The closed form of a volley then describes the registry after the
loops, for every enumeration order.

Main results:

- Theorem {lit}`Engagement.loop_refines`: the double loop of an engagement is its
  volley.
- Theorem {lit}`bulletVsDestructible_spec`: destructibles after the bullet loops, and
  the removal list.
- Theorem {lit}`tankVsCollectible_spec`: collectibles after the tank loops.
- Theorem {lit}`row_resolve`: every row after all loops.
-/

namespace GameFramework

open EntityRegistry

section Engagement

variable {K τ : Type*}

/-! ## Loops that write one component -/

/-- One pairing of the collision system: which component of the inner entity the
loop body reads and writes, its range test, and what happens within range.
Writing the component leaves positions and radii alone. -/
structure Engagement (K τ : Type*) where
  get : Components K → Option τ
  set : Option τ → Components K → Components K
  radius : τ → K
  test : B2Vec2 K → B2Vec2 K → τ → Bool
  active : τ → Bool
  hit : τ → τ
  get_set : ∀ x c, get (set x c) = x
  set_set : ∀ x y c, set x (set y c) = set x c
  set_get : ∀ c, set (get c) c = c
  transform_set : ∀ x c, (set x c).transform = c.transform
  test_congr : ∀ p q x y, radius x = radius y → test p q x = test p q y
  radius_hit : ∀ x, radius (hit x) = radius x

namespace Engagement

variable (E : Engagement K τ)

/-- The component of an entity. -/
def of (r : GameRegistry K) (e : Entity) : Option τ :=
  (r.row e).bind E.get

/-- The outer entity has the inner one in range. -/
def inRange (r : GameRegistry K) (b d : Entity) : Bool :=
  match CollisionSystem.positionOf r b, CollisionSystem.positionOf r d, E.of r d with
  | some p, some q, some x => E.test p q x
  | _, _, _ => false

/-- The rules of the volley that the double loop carries out. -/
def rules (r : GameRegistry K) : Volley.Rules Entity Entity (Option τ) where
  inRange := E.inRange r
  alive x := x.any E.active
  hit := Option.map E.hit

/-- What one entity in range does to the component. -/
def absorb (x : Option τ) : Option τ :=
  if x.any E.active then x.map E.hit else x

theorem absorb_rules (r : GameRegistry K) : (E.rules r).absorb = E.absorb :=
  rfl

/-- Hits neither add nor remove the component. -/
theorem isSome_iterate_absorb (n : ℕ) (x : Option τ) :
    (E.absorb^[n] x).isSome = x.isSome := by
  induction n generalizing x with
  | zero => rfl
  | succ n ih =>
      rw [Function.iterate_succ_apply, ih, absorb]
      split
      · exact Option.isSome_map
      · rfl

/-- A property that a hit of an active component keeps survives any number of
hits. -/
theorem forall_iterate_absorb {P : τ → Prop}
    (hP : ∀ x, E.active x = true → P x → P (E.hit x)) (n : ℕ) {x : Option τ}
    (hx : ∀ y, x = some y → P y) : ∀ y, E.absorb^[n] x = some y → P y := by
  induction n generalizing x with
  | zero => exact hx
  | succ n ih =>
      rw [Function.iterate_succ_apply]
      refine ih fun y hy => ?_
      unfold absorb at hy
      split at hy
      · rename_i hactive
        rcases Option.map_eq_some_iff.mp hy with ⟨z, rfl, rfl⟩
        exact hP z hactive (hx z rfl)
      · exact hx y hy

/-- The inner loop body: skip an inactive component, hit one in range, and push
the outer entity. -/
def body (b : Entity) (acc : GameRegistry K × List Entity) (d : Entity) :
    GameRegistry K × List Entity :=
  match CollisionSystem.positionOf acc.1 b, CollisionSystem.positionOf acc.1 d,
      E.of acc.1 d with
  | some p, some q, some x =>
      if !E.active x then acc
      else if E.test p q x then
        (acc.1.modify d (E.set (some (E.hit x))), acc.2 ++ [b])
      else acc
  | _, _, _ => acc

/-- The registry differs from an earlier one exactly in the component of the
engagement, which has the given values and the old radii. -/
structure Updated (r r' : GameRegistry K) (st : Entity → Option τ) : Prop where
  entities : r'.entities = r.entities
  next : r'.next = r.next
  row : ∀ e, r'.row e = (r.row e).map (E.set (st e))
  radius : ∀ e, (st e).map E.radius = (E.of r e).map E.radius

namespace Updated

variable {E} {r r' : GameRegistry K} {st : Entity → Option τ}

/-- Nothing has been written yet. -/
theorem refl (r : GameRegistry K) : E.Updated r r (E.of r) where
  entities := rfl
  next := rfl
  row e := by
    cases hrow : r.row e with
    | none => rfl
    | some c => simp [of, hrow, E.set_get]
  radius _ := rfl

/-- Collisions move nothing. -/
theorem positionOf_eq (h : E.Updated r r' st) (e : Entity) :
    CollisionSystem.positionOf r' e = CollisionSystem.positionOf r e := by
  unfold CollisionSystem.positionOf
  rw [h.row e]
  cases r.row e with
  | none => rfl
  | some c => simp [E.transform_set]

/-- The components after the loop are those of the volley. -/
theorem of_eq (h : E.Updated r r' st) (e : Entity) : E.of r' e = st e := by
  unfold of
  rw [h.row e]
  cases hrow : r.row e with
  | none =>
      have hradius := h.radius e
      simp only [of, hrow, Option.bind_none, Option.map_none, Option.map_eq_none_iff] at hradius
      simp [hradius]
  | some c => simp [E.get_set]

/-- The range test at the current component is the range test at the start: it
reads the radius only. -/
theorem inRange_eq (h : E.Updated r r' st) {b d : Entity} {x : τ} (hx : st d = some x) :
    E.inRange r b d =
      match CollisionSystem.positionOf r b, CollisionSystem.positionOf r d with
      | some p, some q => E.test p q x
      | _, _ => false := by
  have hradius := h.radius d
  rw [hx] at hradius
  unfold inRange
  cases hof : E.of r d with
  | none => simp [hof] at hradius
  | some x₀ =>
      have heq : E.radius x₀ = E.radius x := by simpa [hof, eq_comm] using hradius
      cases CollisionSystem.positionOf r b with
      | none => rfl
      | some p =>
          cases CollisionSystem.positionOf r d with
          | none => rfl
          | some q => exact E.test_congr p q x₀ x heq

/-- Hitting the component of one entity once more. -/
theorem modify (h : E.Updated r r' st) {e : Entity} {x : τ} (hx : st e = some x) :
    E.Updated r (r'.modify e (E.set (some (E.hit x))))
      (Function.update st e (some (E.hit x))) where
  entities := h.entities
  next := h.next
  row e' := by
    rw [Registry.row_modify]
    by_cases he : e' = e
    · subst he
      simp only [if_true, Function.update_self, h.row e', Option.map_map]
      congr 1
      funext c
      exact E.set_set _ _ c
    · simp [he, h.row e']
  radius e' := by
    by_cases he : e' = e
    · subst he
      rw [Function.update_self, ← h.radius e', hx]
      simp [E.radius_hit]
    · rw [Function.update_of_ne he]
      exact h.radius e'

end Updated

/-- The loop data stand for the volley data: same components, same list. -/
def Refines (r : GameRegistry K) (acc : GameRegistry K × List Entity)
    (abs : (Entity → Option τ) × List Entity) : Prop :=
  E.Updated r acc.1 abs.1 ∧ acc.2 = abs.2

/-- The inner loop body is a strike of the volley. -/
theorem body_refines {r : GameRegistry K} (b d : Entity)
    (acc : GameRegistry K × List Entity) (abs : (Entity → Option τ) × List Entity)
    (h : E.Refines r acc abs) :
    E.Refines r (E.body b acc d) ((E.rules r).strike b abs d) := by
  rcases h with ⟨hupd, hmarks⟩
  unfold Refines
  unfold body
  rw [hupd.positionOf_eq, hupd.positionOf_eq, hupd.of_eq]
  cases hst : abs.1 d with
  | none =>
      rw [Volley.Rules.strike]
      simp [rules, hst, hupd, hmarks]
  | some x =>
      have hrange : (E.rules r).inRange b d = _ := hupd.inRange_eq (b := b) hst
      have halive : (E.rules r).alive (abs.1 d) = E.active x := by simp [rules, hst]
      rw [Volley.Rules.strike, hrange, halive]
      cases CollisionSystem.positionOf r b with
      | none => simp [hupd, hmarks]
      | some p =>
          cases CollisionSystem.positionOf r d with
          | none => simp [hupd, hmarks]
          | some q =>
              cases hactive : E.active x with
              | false => simp [hactive, hupd, hmarks]
              | true =>
                  cases htest : E.test p q x with
                  | false => simp [hactive, htest, hupd, hmarks]
                  | true => simpa [hactive, htest, rules, hst, hmarks] using hupd.modify hst

/-- An entity in range of something has a position and the component. -/
theorem exists_of_inRange {r : GameRegistry K} {b d : Entity} (h : E.inRange r b d = true) :
    ∃ c, r.row d = some c ∧ c.transform.isSome ∧ (E.get c).isSome := by
  unfold inRange at h
  cases hrow : r.row d with
  | none => simp [of, hrow] at h
  | some c =>
      refine ⟨c, rfl, ?_, ?_⟩
      · cases htransform : c.transform with
        | none => simp [CollisionSystem.positionOf, hrow, htransform] at h
        | some t => rfl
      · cases hget : E.get c with
        | none => simp [of, hrow, hget] at h
        | some x => rfl

/-- A target that nothing has in range keeps its component. -/
theorem after_eq_of_forall_not_inRange {r : GameRegistry K} {d : Entity}
    (h : ∀ b, E.inRange r b d = false) (st : Entity → Option τ) (bs : List Entity) :
    (E.rules r).after st bs d = st d :=
  (E.rules r).after_of_forall_not_inRange (fun b _ => h b) st

/-- The double loop of an engagement carries out its volley. -/
theorem loop_refines (r : GameRegistry K) (bs : List Entity) {ds : List Entity}
    (hnodup : ds.Nodup) :
    E.Refines r (bs.foldl (fun acc b => ds.foldl (E.body b) acc) (r, []))
      (fun d => if d ∈ ds then (E.rules r).after (E.of r) bs d else E.of r d,
        (E.rules r).scored (E.of r) ds [] bs) := by
  have hstart : E.Refines r (r, []) (E.of r, []) := ⟨Updated.refl r, rfl⟩
  have hrel := (E.rules r).volley_rel (E.Refines r) E.body_refines hstart bs ds
  rwa [(E.rules r).volley_eq hnodup] at hrel

end Engagement

end Engagement

variable {K : Type*} [Field K] [LinearOrder K] [FloatOps K]

/-- Bullets against destructibles: a hit damages. -/
def bulletEngagement : Engagement K (Destructible K) where
  get c := c.destructible
  set x c := { c with destructible := x }
  radius d := d.radius
  test := CollisionSystem.inDestructibleRange
  active d := d.active
  hit := CollisionSystem.damage
  get_set _ _ := rfl
  set_set _ _ _ := rfl
  set_get _ := rfl
  transform_set _ _ := rfl
  test_congr _ _ _ _ h := by simp [CollisionSystem.inDestructibleRange, h]
  radius_hit _ := rfl

/-- Tanks against collectibles: a hit deactivates. -/
def collectEngagement : Engagement K (Collectible K) where
  get c := c.collectible
  set x c := { c with collectible := x }
  radius c := c.radius
  test := CollisionSystem.inCollectibleRange
  active c := c.active
  hit c := { c with active := false }
  get_set _ _ := rfl
  set_set _ _ _ := rfl
  set_get _ := rfl
  transform_set _ _ := rfl
  test_congr _ _ _ _ h := by simp [CollisionSystem.inCollectibleRange, h]
  radius_hit _ := rfl

/-- The destructible of an entity. -/
abbrev destructibleOf (r : GameRegistry K) : Entity → Option (Destructible K) :=
  bulletEngagement.of r

/-- The collectible of an entity. -/
abbrev collectibleOf (r : GameRegistry K) : Entity → Option (Collectible K) :=
  collectEngagement.of r

namespace CollisionSystem

/-! ## The loops of the collision system -/

section Views

variable (order : ViewOrder) (r : GameRegistry K)

/-- The bullets in loop order. -/
def bullets : List Entity :=
  r.view order .transformBullet Components.hasTransformBullet

/-- The destructibles in loop order. -/
def destructibles : List Entity :=
  r.view order .transformDestructible Components.hasTransformDestructible

/-- The tanks in loop order. -/
def tanks : List Entity :=
  r.view order .transformTank Components.hasTransformTank

/-- The collectibles in loop order. -/
def collectibles : List Entity :=
  r.view order .transformCollectible Components.hasTransformCollectible

variable {order r} in
/-- What is in range of a bullet is in the view of the inner loop. -/
theorem mem_destructibles_of_inRange {b d : Entity} (h : bulletEngagement.inRange r b d = true) :
    d ∈ destructibles order r := by
  rcases bulletEngagement.exists_of_inRange h with ⟨c, hrow, htransform, hget⟩
  refine Registry.mem_view.mpr ⟨c, hrow, ?_⟩
  rw [Components.hasTransformDestructible, htransform, Bool.true_and]
  exact hget

end Views

/-- The inner body of the bullet loops is that of its engagement. -/
theorem strikeDestructible_eq_body (b : Entity) (acc : GameRegistry K × List Entity)
    (d : Entity) : strikeDestructible b acc d = bulletEngagement.body b acc d := by
  have hof : (acc.1.row d).bind (·.destructible) = bulletEngagement.of acc.1 d := rfl
  simp only [Engagement.body, strikeDestructible, hof]
  cases positionOf acc.1 b with
  | none => rfl
  | some p =>
      cases positionOf acc.1 d with
      | none => rfl
      | some q =>
          cases bulletEngagement.of acc.1 d with
          | none => rfl
          | some x => rfl

/-- The inner body of the collection loops is that of its engagement, without
the list. -/
theorem collect_eq_body (t : Entity) (acc : GameRegistry K × List Entity) (d : Entity) :
    (collectEngagement.body t acc d).1 = collect t acc.1 d := by
  have hof : (acc.1.row d).bind (·.collectible) = collectEngagement.of acc.1 d := rfl
  simp only [Engagement.body, collect, hof]
  cases positionOf acc.1 t with
  | none => rfl
  | some p =>
      cases positionOf acc.1 d with
      | none => rfl
      | some q =>
          cases collectEngagement.of acc.1 d with
          | none => rfl
          | some x =>
              simp only [collectEngagement]
              by_cases hactive : x.active = true
              · by_cases hrange : inCollectibleRange p q x = true <;> simp [hactive, hrange]
              · simp [hactive]

/-- The bullet loops: damaged destructibles and the removal list. -/
theorem bulletVsDestructible_spec (r : GameRegistry K) (bs : List Entity)
    {ds : List Entity} (hnodup : ds.Nodup) :
    bulletEngagement.Refines r (bulletVsDestructible r bs ds)
      (fun d => if d ∈ ds then (bulletEngagement.rules r).after (destructibleOf r) bs d
        else destructibleOf r d,
        (bulletEngagement.rules r).scored (destructibleOf r) ds [] bs) := by
  have hbody : (strikeDestructible : Entity → _ → _ → GameRegistry K × List Entity) =
      bulletEngagement.body := by
    funext b acc d
    exact strikeDestructible_eq_body b acc d
  unfold bulletVsDestructible
  rw [hbody]
  exact bulletEngagement.loop_refines r bs hnodup

/-- The collection loops: deactivated collectibles. -/
theorem tankVsCollectible_spec (r : GameRegistry K) (ts : List Entity)
    {ds : List Entity} (hnodup : ds.Nodup) :
    collectEngagement.Updated r (tankVsCollectible r ts ds)
      (fun d => if d ∈ ds then (collectEngagement.rules r).after (collectibleOf r) ts d
        else collectibleOf r d) := by
  have hloop := collectEngagement.loop_refines r ts hnodup
  -- the collection loops are the engagement without its list
  have hinner : ∀ t (acc : GameRegistry K × List Entity),
      ds.foldl (collect t) acc.1 = (ds.foldl (collectEngagement.body t) acc).1 :=
    fun t _ => List.foldl_hom Prod.fst fun acc d => (collect_eq_body t acc d).symm
  have hfst : ts.foldl (fun registry t => ds.foldl (collect t) registry)
        (r, ([] : List Entity)).1 =
      (ts.foldl (fun acc t => ds.foldl (collectEngagement.body t) acc) (r, [])).1 :=
    List.foldl_hom Prod.fst fun acc t => hinner t acc
  unfold tankVsCollectible
  rw [hfst]
  exact hloop.1

/-- Writing destructibles changes neither the collection loops' view of a
registry nor the tank tests. -/
theorem collect_rules_eq {r r' : GameRegistry K} {st : Entity → Option (Destructible K)}
    (h : bulletEngagement.Updated r r' st) :
    collectEngagement.rules r' = collectEngagement.rules r ∧
      collectibleOf r' = collectibleOf r := by
  have hof : collectibleOf r' = collectibleOf r := by
    funext e
    simp only [collectibleOf, Engagement.of, h.row e]
    cases r.row e <;> rfl
  refine ⟨?_, hof⟩
  have hrange : collectEngagement.inRange r' = collectEngagement.inRange r := by
    funext t d
    have hd : collectEngagement.of r' d = collectEngagement.of r d := congrFun hof d
    simp only [Engagement.inRange, h.positionOf_eq, hd]
  simp only [Engagement.rules, hrange]

/-- Damage to destructibles does not change which tanks are struck. -/
theorem strikesTank_eq {r r' : GameRegistry K} {st : Entity → Option (Destructible K)}
    (h : bulletEngagement.Updated r r' st) : strikesTank r' = strikesTank r := by
  funext b t
  have hbullet : (r'.row b).bind (·.bullet) = (r.row b).bind (·.bullet) := by
    rw [h.row b]
    cases r.row b <;> rfl
  have htank : (r'.row t).bind (·.tank) = (r.row t).bind (·.tank) := by
    rw [h.row t]
    cases r.row t <;> rfl
  simp only [strikesTank, h.positionOf_eq, hbullet, htank]

/-! ## The registry after the collision loops -/

section Resolve

variable (order : ViewOrder) (r : GameRegistry K)

/-- The destructible of an entity after the bullet loops. -/
def destructibleAfter (e : Entity) : Option (Destructible K) :=
  (bulletEngagement.rules r).after (destructibleOf r) (bullets order r) e

/-- The collectible of an entity after the collection loops. -/
def collectibleAfter (e : Entity) : Option (Collectible K) :=
  (collectEngagement.rules r).after (collectibleOf r) (tanks order r) e

/-- The bullets that score on destructibles, once per score. -/
def scoredBullets : List Entity :=
  (bulletEngagement.rules r).scored (destructibleOf r) (destructibles order r) []
    (bullets order r)

/-- The loop over bullets and destructibles is a volley, and lists the bullets that score. -/
theorem bulletVsDestructible_updated :
    bulletEngagement.Updated r
        (bulletVsDestructible r (bullets order r) (destructibles order r)).1
        (destructibleAfter order r) ∧
      (bulletVsDestructible r (bullets order r) (destructibles order r)).2 =
        scoredBullets order r := by
  have hspec := bulletVsDestructible_spec r (bullets order r)
    (r.nodup_view order .transformDestructible Components.hasTransformDestructible)
  have hafter : (fun d => if d ∈ destructibles order r then
        (bulletEngagement.rules r).after (destructibleOf r) (bullets order r) d
      else destructibleOf r d) = destructibleAfter order r := by
    funext d
    split
    · rfl
    · rename_i hd
      refine (bulletEngagement.after_eq_of_forall_not_inRange (fun b => ?_) _ _).symm
      cases hrange : bulletEngagement.inRange r b d with
      | false => rfl
      | true => exact absurd (mem_destructibles_of_inRange hrange) hd
  rw [Engagement.Refines] at hspec
  exact ⟨hafter ▸ hspec.1, hspec.2⟩

/-- The loop over tanks and collectibles is another one. -/
theorem tankVsCollectible_updated {r' : GameRegistry K}
    {st : Entity → Option (Destructible K)} (h : bulletEngagement.Updated r r' st) :
    collectEngagement.Updated r'
      (tankVsCollectible r' (tanks order r) (collectibles order r))
      (collectibleAfter order r) := by
  have hspec := tankVsCollectible_spec r' (tanks order r)
    (r.nodup_view order .transformCollectible Components.hasTransformCollectible)
  rw [(collect_rules_eq h).1, (collect_rules_eq h).2] at hspec
  have hafter : (fun d => if d ∈ collectibles order r then
        (collectEngagement.rules r).after (collectibleOf r) (tanks order r) d
      else collectibleOf r d) = collectibleAfter order r := by
    funext d
    split
    · rfl
    · rename_i hd
      refine (collectEngagement.after_eq_of_forall_not_inRange (fun t => ?_) _ _).symm
      cases hrange : collectEngagement.inRange r t d with
      | false => rfl
      | true =>
          rcases collectEngagement.exists_of_inRange hrange with ⟨c, hrow, htransform, hget⟩
          refine absurd (Registry.mem_view.mpr ⟨c, hrow, ?_⟩) hd
          simp only [Components.hasTransformCollectible, htransform, Bool.true_and]
          exact hget
  exact hafter ▸ hspec

/-- Every row after the collision loops: only the destructible and the
collectible component may differ. -/
theorem row_resolve (e : Entity) :
    (resolve order r).1.row e =
      (r.row e).map fun c =>
        { c with
          destructible := destructibleAfter order r e
          collectible := collectibleAfter order r e } := by
  have hdest := (bulletVsDestructible_updated order r).1
  have hcoll := tankVsCollectible_updated order r hdest
  have hrow : (resolve order r).1.row e = _ := hcoll.row e
  rw [hrow, hdest.row e, Option.map_map]
  rfl

/-- The loops remove nothing. -/
theorem entities_resolve : (resolve order r).1.entities = r.entities := by
  have hdest := (bulletVsDestructible_updated order r).1
  exact (tankVsCollectible_updated order r hdest).entities.trans hdest.entities

theorem next_resolve : (resolve order r).1.next = r.next := by
  have hdest := (bulletVsDestructible_updated order r).1
  exact (tankVsCollectible_updated order r hdest).next.trans hdest.next

/-- The removal list: one entry per score on a destructible, then one per struck
tank. -/
theorem resolve_snd :
    (resolve order r).2 =
      scoredBullets order r ++ bulletVsTank r (bullets order r) (tanks order r) := by
  have hdest := bulletVsDestructible_updated order r
  have hsnd : (resolve order r).2 =
      (bulletVsDestructible r (bullets order r) (destructibles order r)).2 ++
        bulletVsTank (bulletVsDestructible r (bullets order r) (destructibles order r)).1
          (bullets order r) (tanks order r) := rfl
  rw [hsnd, hdest.2]
  simp only [bulletVsTank, strikesTank_eq hdest.1]

end Resolve

end CollisionSystem

end GameFramework
