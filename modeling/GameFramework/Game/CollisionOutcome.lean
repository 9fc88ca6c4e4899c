import GameFramework.Game.Removal
import Mathlib.Algebra.Order.Floor.Semiring

/-!
# The outcome of the collision system

What the loops of {lit}`CollisionSystem::check` leave behind, without reference to the order in
which they visit the entities.  The removal list does not say what a bullet was marked for, so
the bullet loops are run a second time with notes: forgetting the notes gives back the loops of
the source.

Main results:

- Theorem {lit}`CollisionSystem.iterate_absorb_damage`: a destructible after any number of hits.
- Theorem {lit}`CollisionSystem.forget_noted`: the loops with notes are the loops of the source.
- Theorem {lit}`CollisionSystem.markedFor_eq`: the bullets that a destructible takes with it are the
  first in range, as many as its health can bear.
- Theorem {lit}`CollisionSystem.outcome_resolve`: every row and every mark after the loops.
- Theorem {lit}`CollisionSystem.resolve_fst_eq`: two enumeration orders give the same components.
-/

namespace GameFramework

open EntityRegistry

namespace CollisionSystem

variable {K : Type*} [Field K] [LinearOrder K] [FloatOps K]

/-! ## Marks and what they are for -/

section Marks

variable (order : ViewOrder) (r : GameRegistry K)

/-- The bullet loops, with a note of the destructible that each push is made for. -/
def noted : GameRegistry K × List (Entity × Entity) :=
  (bullets order r).foldl
    (fun acc bulletEntity =>
      (destructibles order r).foldl (Volley.noting strikeDestructible bulletEntity) acc)
    (r, [])

/-- The bullets that are marked for removal on account of a destructible. -/
def markedFor (d : Entity) : List Entity :=
  Volley.account (noted order r).2 d

/-- The bullets that are marked for removal on account of tanks. -/
def markedForTanks : List Entity :=
  bulletVsTank (bulletVsDestructible r (bullets order r) (destructibles order r)).1
    (bullets order r) (tanks order r)

end Marks

/-! ## The outcome -/

section Outcome

variable (r : GameRegistry K)

/-- The bullets that have the destructible of an entity in range. -/
def bulletsInRange (d : Entity) : List Entity :=
  r.entities.filter fun b =>
    (r.row b).any Components.hasTransformBullet && bulletEngagement.inRange r b d

/-- The tanks that have the collectible of an entity in range. -/
def tanksInRange (d : Entity) : List Entity :=
  r.entities.filter fun t =>
    (r.row t).any Components.hasTransformTank && collectEngagement.inRange r t d

/-- A tank of another peer has the bullet in range. -/
def StruckByTank (b : Entity) : Prop :=
  ∃ t cb ct bulletTransform bullet tankTransform tank,
    r.row b = some cb ∧ cb.transform = some bulletTransform ∧ cb.bullet = some bullet ∧
      r.row t = some ct ∧ ct.transform = some tankTransform ∧ ct.tank = some tank ∧
        bullet.ownerPeerId ≠ tank.peerId ∧
          inTankRange bulletTransform.position tankTransform.position = true

/-- A collectible after some tanks have had it in range. -/
def collectedBy (ts : List Entity) (collectible : Collectible K) : Collectible K :=
  { collectible with active := collectible.active && ts.isEmpty }

variable [FloorSemiring K]

/-- The number of hits that a destructible can take. -/
def capacity (destructible : Destructible K) : ℕ :=
  if destructible.active then ⌈destructible.health / 25⌉₊ else 0

/-- A destructible after some bullets have had it in range. -/
def damagedBy (n : ℕ) (destructible : Destructible K) : Destructible K :=
  if destructible.active then
    let health := destructible.health - 25 * (min n (capacity destructible) : ℕ)
    { destructible with health := health, active := decide (0 < health) }
  else destructible

/-- A row after the collision loops. -/
def outcomeRow (e : Entity) (c : Components K) : Components K :=
  { c with
    destructible := c.destructible.map (damagedBy (bulletsInRange r e).length)
    collectible := c.collectible.map (collectedBy (tanksInRange r e)) }

/-- The registry and the removal list after the collision loops. -/
structure Outcome (order : ViewOrder) : Prop where
  entities : (resolve order r).1.entities = r.entities
  row : ∀ e, (resolve order r).1.row e = (r.row e).map (outcomeRow r e)
  marks : (resolve order r).2 = (noted order r).2.map Prod.fst ++ markedForTanks order r
  active : ∀ d x, destructibleOf r d = some x → x.active = true →
    (markedFor order r d).Nodup ∧ markedFor order r d ⊆ bulletsInRange r d ∧
      (markedFor order r d).length = min (bulletsInRange r d).length ⌈x.health / 25⌉₊
  inactive : ∀ d, (∀ x, destructibleOf r d = some x → x.active = false) →
    markedFor order r d = []
  tanks : ∀ b, b ∈ markedForTanks order r ↔ StruckByTank r b
  bullets : ∀ b ∈ (resolve order r).2, ∃ c bullet, r.row b = some c ∧ c.bullet = some bullet

end Outcome

/-! ## Repeated hits -/

section Hits

/-- A collectible is gone after one tank. -/
theorem iterate_absorb_collect (n : ℕ) (c : Collectible K) :
    collectEngagement.absorb^[n] (some c) =
      some { c with active := c.active && decide (n = 0) } := by
  induction n with
  | zero => simp
  | succ n ih =>
      rw [Function.iterate_succ_apply', ih]
      cases hactive : c.active <;> cases n <;>
        simp [Engagement.absorb, collectEngagement]

variable [IsStrictOrderedRing K] [FloorSemiring K]

omit [FloatOps K] in
/-- A destructible bears another hit exactly while its health lasts. -/
theorem lt_capacity_iff {d : Destructible K} (hactive : d.active = true) (n : ℕ) :
    n < capacity d ↔ 25 * (n : K) < d.health := by
  rw [capacity, if_pos hactive, Nat.lt_ceil, lt_div_iff₀ (by norm_num), mul_comm]

omit [IsStrictOrderedRing K] [FloorSemiring K] in
/-- A hit damages what is active. -/
theorem absorb_of_active {d : Destructible K} (hactive : d.active = true) :
    bulletEngagement.absorb (some d) = some (damage d) := by
  simp [Engagement.absorb, bulletEngagement, hactive]

omit [IsStrictOrderedRing K] [FloorSemiring K] in
/-- It does nothing else. -/
theorem absorb_of_inactive {d : Destructible K} (hactive : d.active = false) :
    bulletEngagement.absorb (some d) = some d := by
  simp [Engagement.absorb, bulletEngagement, hactive]

/-- A destructible after any number of hits. -/
theorem iterate_absorb_damage {d : Destructible K} (hd : d.Sound) (n : ℕ) :
    bulletEngagement.absorb^[n] (some d) = some (damagedBy n d) := by
  cases hactive : d.active with
  | false =>
      rw [Function.iterate_fixed (absorb_of_inactive hactive), damagedBy, hactive]
      rfl
  | true =>
      have hdamaged : ∀ k, damagedBy k d =
          { d with
            health := d.health - 25 * (min k (capacity d) : ℕ)
            active := decide (0 < d.health - 25 * (min k (capacity d) : ℕ)) } := by
        intro k
        rw [damagedBy, if_pos hactive]
      induction n with
      | zero =>
          rw [hdamaged]
          simp [hd hactive, ← hactive]
      | succ n ih =>
          rw [Function.iterate_succ_apply', ih]
          have hlasts : ∀ k : ℕ, 0 < d.health - 25 * (k : K) ↔ k < capacity d := by
            intro k
            rw [lt_capacity_iff hactive, sub_pos]
          by_cases hbears : n < capacity d
          · -- one more hit
            have hbefore : damagedBy n d =
                { d with health := d.health - 25 * (n : K) } := by
              rw [hdamaged, min_eq_left hbears.le]
              simp [(hlasts n).mpr hbears, ← hactive]
            have hhealth : d.health - 25 * ((n + 1 : ℕ) : K) = d.health - 25 * (n : K) - 25 := by
              push_cast
              ring
            have hstill : (damagedBy n d).active = true := by
              rw [hbefore]
              exact hactive
            rw [absorb_of_active hstill, hbefore, hdamaged,
              min_eq_left (Nat.succ_le_of_lt hbears), hhealth]
            by_cases hout : d.health - 25 * (n : K) - 25 ≤ 0
            · simp [damage, hout, not_lt.mpr hout]
            · simp [damage, hout, not_le.mp hout, hactive]
          · -- the destructible is out
            have hle : capacity d ≤ n := not_lt.mp hbears
            have hdead : (damagedBy n d).active = false := by
              rw [hdamaged, min_eq_right hle]
              exact decide_eq_false ((hlasts _).not.mpr (lt_irrefl _))
            rw [absorb_of_inactive hdead, hdamaged, hdamaged, min_eq_right hle,
              min_eq_right (hle.trans (Nat.le_succ n))]

end Hits

/-! ## The loops with notes -/

section Noted

variable {order : ViewOrder} {r : GameRegistry K}

/-- The inner body only pushes. -/
theorem strikeDestructible_push (b : Entity) (r : GameRegistry K) (marks : List Entity)
    (d : Entity) :
    strikeDestructible b (r, marks) d =
      ((strikeDestructible b (r, []) d).1, marks ++ (strikeDestructible b (r, []) d).2) := by
  simp only [strikeDestructible]
  cases positionOf r b with
  | none => simp
  | some p =>
      cases positionOf r d with
      | none => simp
      | some q =>
          cases (r.row d).bind (·.destructible) with
          | none => simp
          | some x =>
              by_cases hactive : x.active = true
              · by_cases hrange : inDestructibleRange p q x = true <;> simp [hactive, hrange]
              · simp [hactive]

/-- Forgetting the notes gives back the loops of the source. -/
theorem forget_noted (order : ViewOrder) (r : GameRegistry K) :
    bulletVsDestructible r (bullets order r) (destructibles order r) =
      Volley.forget (noted order r) :=
  Volley.foldl_noting strikeDestructible_push (bullets order r) (destructibles order r) r

omit [Field K] [LinearOrder K] [FloatOps K] in
theorem nodup_destructibles (order : ViewOrder) (r : GameRegistry K) :
    (destructibles order r).Nodup :=
  r.nodup_view order _ _

/-- The loop data with notes stand for the data of the volley. -/
def RefinesNoted (r : GameRegistry K) (acc : GameRegistry K × List (Entity × Entity))
    (abs : (Entity → Option (Destructible K)) × List (Entity × Entity)) : Prop :=
  bulletEngagement.Updated r acc.1 abs.1 ∧ acc.2 = abs.2

/-- The inner body with notes is a strike with notes. -/
theorem noting_refines (b d : Entity) (acc : GameRegistry K × List (Entity × Entity))
    (abs : (Entity → Option (Destructible K)) × List (Entity × Entity))
    (h : RefinesNoted r acc abs) :
    RefinesNoted r (Volley.noting strikeDestructible b acc d)
      ((bulletEngagement.rules r).strikeWith Prod.mk b abs d) := by
  have hbody := bulletEngagement.body_refines b d (acc.1, []) (abs.1, []) ⟨h.1, rfl⟩
  rw [← strikeDestructible_eq_body] at hbody
  rw [← Volley.Rules.noting_strike]
  refine ⟨hbody.1, ?_⟩
  simp only [Volley.noting]
  rw [hbody.2, h.2]

/-- The notes are those of the volley. -/
theorem noted_snd (order : ViewOrder) (r : GameRegistry K) :
    (noted order r).2 = (bulletEngagement.rules r).recorded Prod.mk (destructibleOf r)
      (destructibles order r) [] (bullets order r) := by
  have hstart : RefinesNoted r (r, []) (destructibleOf r, []) :=
    ⟨Engagement.Updated.refl r, rfl⟩
  have hloop := (bulletEngagement.rules r).volleyWith_rel Prod.mk (RefinesNoted r)
    noting_refines hstart (bullets order r) (destructibles order r)
  rw [Volley.Rules.volleyWith_eq _ (nodup_destructibles order r)] at hloop
  exact hloop.2

end Noted

/-! ## The marks -/

section Account

variable {order : ViewOrder} {r : GameRegistry K}

/-- The bullets in range, in loop order. -/
theorem filter_bullets_perm (order : ViewOrder) (r : GameRegistry K) (d : Entity) :
    ((bullets order r).filter fun b => bulletEngagement.inRange r b d).Perm
      (bulletsInRange r d) := by
  have hview := (order.perm .transformBullet (r.entities.filter fun e =>
    (r.row e).any Components.hasTransformBullet)).filter fun b => bulletEngagement.inRange r b d
  have hstored : bulletsInRange r d = (r.entities.filter fun e =>
      (r.row e).any Components.hasTransformBullet).filter
        fun b => bulletEngagement.inRange r b d := by
    rw [List.filter_filter, bulletsInRange]
    exact List.filter_congr fun b _ => Bool.and_comm _ _
  rw [hstored]
  exact hview

/-- The same for the tanks of a collectible. -/
theorem filter_tanks_perm (order : ViewOrder) (r : GameRegistry K) (d : Entity) :
    ((tanks order r).filter fun t => collectEngagement.inRange r t d).Perm (tanksInRange r d) := by
  have hview := (order.perm .transformTank (r.entities.filter fun e =>
    (r.row e).any Components.hasTransformTank)).filter fun t => collectEngagement.inRange r t d
  have hstored : tanksInRange r d = (r.entities.filter fun e =>
      (r.row e).any Components.hasTransformTank).filter
        fun t => collectEngagement.inRange r t d := by
    rw [List.filter_filter, tanksInRange]
    exact List.filter_congr fun t _ => Bool.and_comm _ _
  rw [hstored]
  exact hview

variable [IsStrictOrderedRing K] [FloorSemiring K]

/-- A destructible takes with it the first bullets in range, as many as it can bear. -/
theorem markedFor_eq (order : ViewOrder) {d : Entity} {x : Destructible K}
    (hx : destructibleOf r d = some x) (hsound : x.Sound) :
    markedFor order r d =
      ((bullets order r).filter fun b => bulletEngagement.inRange r b d).take (capacity x) := by
  have halive : ∀ k, (bulletEngagement.rules r).alive
      ((bulletEngagement.rules r).absorb^[k] (destructibleOf r d)) = decide (k < capacity x) := by
    intro k
    have hiterate := alive_iterate_absorb hsound k
    rw [hx]
    refine hiterate.trans ?_
    cases hactive : x.active with
    | false => simp [capacity, hactive]
    | true => simp [lt_capacity_iff hactive]
  rw [markedFor, noted_snd, Volley.Rules.account_recorded _ (nodup_destructibles order r)]
  split
  · rw [(bulletEngagement.rules r).scoredOn_eq_take halive]
    rfl
  · rename_i hd
    have hnone : ((bullets order r).filter fun b => bulletEngagement.inRange r b d) = [] := by
      refine List.filter_eq_nil_iff.mpr fun b _ hrange => ?_
      exact hd (mem_destructibles_of_inRange hrange)
    rw [hnone, List.take_nil]

/-- As many bullets are marked for a destructible as it can take. -/
theorem length_markedFor (order : ViewOrder) {d : Entity} {x : Destructible K}
    (hx : destructibleOf r d = some x) (hsound : x.Sound) :
    (markedFor order r d).length = min (bulletsInRange r d).length (capacity x) := by
  rw [markedFor_eq order hx hsound, List.length_take, (filter_bullets_perm order r d).length_eq,
    min_comm]

omit [IsStrictOrderedRing K] [FloorSemiring K] in
/-- What has no destructible takes no bullet with it. -/
theorem markedFor_of_none {d : Entity} (hd : destructibleOf r d = none) :
    markedFor order r d = [] := by
  rw [markedFor, noted_snd, Volley.Rules.account_recorded _ (nodup_destructibles order r),
    if_neg]
  intro hmem
  rcases Registry.mem_view.mp hmem with ⟨c, hrow, htest⟩
  simp only [Components.hasTransformDestructible, Bool.and_eq_true] at htest
  have hnone : c.destructible = none := by
    simpa [destructibleOf, Engagement.of, hrow, bulletEngagement] using hd
  rw [hnone] at htest
  cases htest.2

omit [IsStrictOrderedRing K] [FloorSemiring K] in
/-- The test of a bullet against a tank, in terms of their components. -/
theorem mem_markedForTanks_iff {b : Entity} :
    b ∈ markedForTanks order r ↔ StruckByTank r b := by
  have hstrikes := strikesTank_eq (bulletVsDestructible_updated order r).1
  unfold markedForTanks bulletVsTank
  rw [hstrikes, List.mem_flatMap]
  constructor
  · rintro ⟨b', _, hb⟩
    rcases List.mem_map.mp hb with ⟨t, ht, rfl⟩
    have hstruck := (List.mem_filter.mp ht).2
    unfold strikesTank at hstruck
    split at hstruck
    · rename_i bulletPos bullet tankPos tank hbulletPos hbullet htankPos htank
      split at hstruck
      · cases hstruck
      · rename_i howner
        rcases Option.bind_eq_some_iff.mp hbullet with ⟨cb, hcb, hbullet⟩
        rcases Option.bind_eq_some_iff.mp htank with ⟨ct, hct, htank⟩
        simp only [positionOf, hcb, hct, Option.bind_some, Option.map_eq_some_iff]
          at hbulletPos htankPos
        rcases hbulletPos with ⟨bulletTransform, hbulletTransform, rfl⟩
        rcases htankPos with ⟨tankTransform, htankTransform, rfl⟩
        exact ⟨t, cb, ct, bulletTransform, bullet, tankTransform, tank, hcb, hbulletTransform,
          hbullet, hct, htankTransform, htank, by simpa using howner, hstruck⟩
    · cases hstruck
  · rintro ⟨t, cb, ct, bulletTransform, bullet, tankTransform, tank, hcb, hbulletTransform,
      hbullet, hct, htankTransform, htank, howner, hrange⟩
    refine ⟨b, Registry.mem_view.mpr ⟨cb, hcb, ?_⟩, List.mem_map.mpr ⟨t, ?_, rfl⟩⟩
    · simp [Components.hasTransformBullet, hbulletTransform, hbullet]
    · refine List.mem_filter.mpr ⟨Registry.mem_view.mpr ⟨ct, hct, ?_⟩, ?_⟩
      · simp [Components.hasTransformTank, htankTransform, htank]
      · simp [strikesTank, positionOf, hcb, hct, hbulletTransform, hbullet, htankTransform, htank,
          howner, hrange]

end Account

/-! ## Rows and marks together -/

section Result

variable [IsStrictOrderedRing K] [FloorSemiring K] {r : GameRegistry K}

/-- A destructible is damaged by the bullets in range. -/
theorem destructibleAfter_eq (order : ViewOrder) (hsound : Sound r) (e : Entity) :
    destructibleAfter order r e =
      (destructibleOf r e).map (damagedBy (bulletsInRange r e).length) := by
  have hpressure : (bulletEngagement.rules r).pressure (bullets order r) e =
      (bulletsInRange r e).length := by
    rw [← (filter_bullets_perm order r e).length_eq]
    exact List.countP_eq_length_filter
  rw [destructibleAfter, Volley.Rules.after, hpressure, Engagement.absorb_rules]
  cases hx : destructibleOf r e with
  | none => exact Function.iterate_fixed rfl _
  | some x => exact iterate_absorb_damage (hsound e x hx) _

omit [IsStrictOrderedRing K] [FloorSemiring K] in
/-- A collectible is collected by the tanks in range. -/
theorem collectibleAfter_eq (order : ViewOrder) (r : GameRegistry K) (e : Entity) :
    collectibleAfter order r e = (collectibleOf r e).map (collectedBy (tanksInRange r e)) := by
  have hpressure : (collectEngagement.rules r).pressure (tanks order r) e =
      (tanksInRange r e).length := by
    rw [← (filter_tanks_perm order r e).length_eq]
    exact List.countP_eq_length_filter
  rw [collectibleAfter, Volley.Rules.after, hpressure, Engagement.absorb_rules]
  cases hx : collectibleOf r e with
  | none => exact Function.iterate_fixed rfl _
  | some x =>
      rw [iterate_absorb_collect, Option.map_some, collectedBy]
      cases tanksInRange r e <;> simp

/-- Every row after the collision loops. -/
theorem row_resolve_eq (order : ViewOrder) (hsound : Sound r) (e : Entity) :
    (resolve order r).1.row e = (r.row e).map (outcomeRow r e) := by
  rw [row_resolve, destructibleAfter_eq order hsound, collectibleAfter_eq]
  cases hrow : r.row e with
  | none => rfl
  | some c =>
      simp only [Option.map_some, outcomeRow, destructibleOf, collectibleOf, Engagement.of, hrow,
        Option.bind_some]
      rfl

/-- Two enumeration orders leave the same components. -/
theorem resolve_fst_eq (order order' : ViewOrder) (hsound : Sound r) :
    (resolve order r).1 = (resolve order' r).1 := by
  refine Registry.ext ?_ ?_ ?_
  · rw [entities_resolve, entities_resolve]
  · intro e
    rw [row_resolve_eq order hsound, row_resolve_eq order' hsound]
  · rw [next_resolve, next_resolve]

/-- What the collision loops do to a registry whose active destructibles have health left,
whatever the order in which the views enumerate the entities. -/
theorem outcome_resolve (order : ViewOrder) (r : GameRegistry K) (hsound : Sound r) :
    Outcome r order where
  entities := entities_resolve order r
  row := row_resolve_eq order hsound
  marks := by
    have hforget : (bulletVsDestructible r (bullets order r) (destructibles order r)).2 =
        (noted order r).2.map Prod.fst := by
      rw [forget_noted]
      rfl
    rw [← hforget]
    rfl
  active d x hx hactive := by
    have hmarked := markedFor_eq order hx (hsound d x hx)
    refine ⟨?_, ?_, ?_⟩
    · rw [hmarked]
      exact ((r.nodup_view order _ _).filter _).sublist (List.take_sublist _ _)
    · rw [hmarked]
      intro b hb
      exact (filter_bullets_perm order r d).subset (List.mem_of_mem_take hb)
    · rw [length_markedFor order hx (hsound d x hx), capacity, if_pos hactive]
  inactive d hinactive := by
    cases hx : destructibleOf r d with
    | none => exact markedFor_of_none hx
    | some x =>
        rw [markedFor_eq order hx (hsound d x hx), capacity, hinactive x hx]
        rfl
  tanks b := mem_markedForTanks_iff
  bullets b hb := by
    rcases Registry.mem_view.mp (mem_bullets_of_mem_resolve hb) with ⟨c, hrow, htest⟩
    simp only [Components.hasTransformBullet, Bool.and_eq_true] at htest
    rcases Option.isSome_iff_exists.mp htest.2 with ⟨bullet, hbullet⟩
    exact ⟨c, bullet, hrow, hbullet⟩

end Result

/-- The registry in which one bullet has two destructibles in range. -/
theorem outcome_resolve_stacked :
    ∃ g h, (Game.system ℚ).run (Game.init false) Game.stackedCalls = some (g, h) ∧
      Sound (g.beforeCheck (Enumeration.stored View)) ∧
      Outcome (g.beforeCheck (Enumeration.stored View)) (Enumeration.stored View) := by
  have hrun : ((Game.system ℚ).run (Game.init false) Game.stackedCalls).isSome = true := by
    decide +kernel
  rcases Option.isSome_iff_exists.mp hrun with ⟨⟨g, h⟩, hgh⟩
  have hsound := Game.sound_beforeCheck hgh (Enumeration.stored View)
  exact ⟨g, h, hgh, hsound, outcome_resolve (Enumeration.stored View) _ hsound⟩

end CollisionSystem

end GameFramework
