import GameFramework.Game.Archetypes
import Mathlib.Tactic.FieldSimp
import Mathlib.Tactic.LinearCombination
import Mathlib.Tactic.Positivity

/-!
# The speed limit

The speed limit of {lit}`MovementSystem::update` keeps the direction of a velocity and
forgets how far above the limit it was.  This module says when it makes two
velocities equal, and in particular when it hides how hard a tank was pushed along
its heading.

Main results:

- Theorem {lit}`capped_eq_iff`: two vectors are capped to the same one exactly when they
  are equal, or point the same way and both reach the cap.
- Theorem {lit}`pushed_eq_iff`: the same for one vector with two pushes along a unit
  heading.
- Theorem {lit}`Tank.cruise_eq_iff`: which pushes a tank cannot tell apart.
-/

namespace GameFramework

variable {K : Type*} [Field K]

/-! ## Vectors -/

/-- A vector times a number. -/
def B2Vec2.scale (p : B2Vec2 K) (r : K) : B2Vec2 K :=
  ⟨p.x * r, p.y * r⟩

/-- A vector with a multiple of another one added to it. -/
def B2Vec2.push (p heading : B2Vec2 K) (r : K) : B2Vec2 K :=
  ⟨p.x + heading.x * r, p.y + heading.y * r⟩

theorem B2Vec2.scale_scale (p : B2Vec2 K) (r s : K) :
    (p.scale r).scale s = p.scale (r * s) := by
  simp only [scale, mul_assoc]

theorem B2Vec2.scale_one (p : B2Vec2 K) : p.scale 1 = p := by
  simp [scale]

/-- Scaling by anything but zero loses nothing. -/
theorem B2Vec2.scale_injective {r : K} (hr : r ≠ 0) {p q : B2Vec2 K} :
    p.scale r = q.scale r ↔ p = q := by
  rcases p with ⟨px, py⟩
  rcases q with ⟨qx, qy⟩
  simp [scale, hr]

variable [LinearOrder K] [IsStrictOrderedRing K] [FloatOps K] [LawfulFloatOps K]

/-- Scaling scales the length. -/
theorem b2Length_scale (p : B2Vec2 K) (r : K) : b2Length (p.scale r) = |r| * b2Length p := by
  have hnonneg : 0 ≤ |r| * b2Length p :=
    mul_nonneg (abs_nonneg r) (LawfulFloatOps.b2Length_nonneg p)
  have hsq : b2Length (p.scale r) ^ 2 = (|r| * b2Length p) ^ 2 := by
    rw [LawfulFloatOps.b2Length_sq, mul_pow, sq_abs, LawfulFloatOps.b2Length_sq]
    simp only [B2Vec2.scale]
    ring
  exact (pow_left_inj₀ (LawfulFloatOps.b2Length_nonneg _) hnonneg two_ne_zero).mp hsq

/-! ## Capping -/

/-- A vector scaled down to a length, unless it is shorter. -/
def capped (cap : K) (p : B2Vec2 K) : B2Vec2 K :=
  if cap < b2Length p then p.scale (cap / b2Length p) else p

omit [IsStrictOrderedRing K] [LawfulFloatOps K] in
/-- A vector of at least the cap is cut to it. -/
theorem capped_of_le {cap : K} (hcap : 0 < cap) {p : B2Vec2 K} (h : cap ≤ b2Length p) :
    capped cap p = p.scale (cap / b2Length p) := by
  unfold capped
  split
  · rfl
  · rename_i hnot
    have heq : b2Length p = cap := le_antisymm (not_lt.mp hnot) h
    rw [heq, div_self hcap.ne', B2Vec2.scale_one]

omit [IsStrictOrderedRing K] [LawfulFloatOps K] in
/-- A shorter one is left alone. -/
theorem capped_of_lt {cap : K} {p : B2Vec2 K} (h : b2Length p < cap) : capped cap p = p :=
  if_neg (not_lt.mpr h.le)

/-- A capped vector is as long as the cap where the vector reaches it. -/
theorem b2Length_capped_of_le {cap : K} (hcap : 0 < cap) {p : B2Vec2 K}
    (h : cap ≤ b2Length p) : b2Length (capped cap p) = cap := by
  have hpos : 0 < b2Length p := hcap.trans_le h
  rw [capped_of_le hcap h, b2Length_scale, abs_of_pos (div_pos hcap hpos),
    div_mul_cancel₀ cap hpos.ne']

/-- The result is not longer than the cap. -/
theorem b2Length_capped_le {cap : K} (hcap : 0 < cap) (p : B2Vec2 K) :
    b2Length (capped cap p) ≤ cap := by
  rcases lt_or_ge (b2Length p) cap with hp | hp
  · rw [capped_of_lt hp]
    exact hp.le
  · exact (b2Length_capped_of_le hcap hp).le

/-- Two vectors are capped to the same one exactly when they are equal, or point the
same way and both reach the cap. -/
theorem capped_eq_iff {cap : K} (hcap : 0 < cap) {p q : B2Vec2 K} :
    capped cap p = capped cap q ↔
      p = q ∨ cap ≤ b2Length p ∧ cap ≤ b2Length q ∧ ∃ r, 0 < r ∧ p = q.scale r := by
  constructor
  · intro heq
    rcases lt_or_ge (b2Length p) cap with hp | hp <;>
      rcases lt_or_ge (b2Length q) cap with hq | hq
    · rw [capped_of_lt hp, capped_of_lt hq] at heq
      exact Or.inl heq
    · have hlength := b2Length_capped_of_le hcap hq
      rw [← heq, capped_of_lt hp] at hlength
      exact absurd hlength hp.ne
    · have hlength := b2Length_capped_of_le hcap hp
      rw [heq, capped_of_lt hq] at hlength
      exact absurd hlength hq.ne
    · right
      have hpPos : 0 < b2Length p := hcap.trans_le hp
      have hqPos : 0 < b2Length q := hcap.trans_le hq
      refine ⟨hp, hq, b2Length p / b2Length q, div_pos hpPos hqPos, ?_⟩
      have hscaled : (capped cap p).scale (b2Length p / cap) = p := by
        rw [capped_of_le hcap hp, B2Vec2.scale_scale]
        have hone : cap / b2Length p * (b2Length p / cap) = 1 := by
          field_simp
        rw [hone, B2Vec2.scale_one]
      have hratio : cap / b2Length q * (b2Length p / cap) = b2Length p / b2Length q := by
        field_simp
      calc
        p = (capped cap p).scale (b2Length p / cap) := hscaled.symm
        _ = (capped cap q).scale (b2Length p / cap) := by rw [heq]
        _ = q.scale (b2Length p / b2Length q) := by
          rw [capped_of_le hcap hq, B2Vec2.scale_scale, hratio]
  · rintro (rfl | ⟨hp, hq, r, hr, heq⟩)
    · rfl
    · have hqPos : 0 < b2Length q := hcap.trans_le hq
      have hlength : b2Length p = r * b2Length q := by
        rw [heq, b2Length_scale, abs_of_pos hr]
      have hratio : r * (cap / (r * b2Length q)) = cap / b2Length q := by
        field_simp
      rw [capped_of_le hcap hp, capped_of_le hcap hq, hlength, heq, B2Vec2.scale_scale, hratio]

/-! ## Pushes along a heading -/

omit [IsStrictOrderedRing K] [LinearOrder K] [FloatOps K] [LawfulFloatOps K] in
/-- A push along the heading adds to the speed. -/
theorem push_scale (heading : B2Vec2 K) (s a : K) :
    (heading.scale s).push heading a = heading.scale (s + a) := by
  simp only [B2Vec2.scale, B2Vec2.push, mul_add]

variable {heading : B2Vec2 K}

omit [LinearOrder K] [IsStrictOrderedRing K] [FloatOps K] [LawfulFloatOps K] in
/-- Different pushes along a unit heading differ. -/
theorem push_injective (hunit : heading.x ^ 2 + heading.y ^ 2 = 1) (v : B2Vec2 K) {a b : K} :
    v.push heading a = v.push heading b ↔ a = b := by
  constructor
  · intro heq
    simp only [B2Vec2.push, B2Vec2.mk.injEq] at heq
    linear_combination heading.x * heq.1 + heading.y * heq.2 - (a - b) * hunit
  · intro heq
    rw [heq]

omit [LinearOrder K] [IsStrictOrderedRing K] [FloatOps K] [LawfulFloatOps K] in
/-- A vector whose different pushes are parallel lies along the heading. -/
theorem exists_scale_of_push_eq (hunit : heading.x ^ 2 + heading.y ^ 2 = 1) {v : B2Vec2 K}
    {a b r : K} (hab : a ≠ b) (heq : v.push heading a = (v.push heading b).scale r) :
    ∃ s, v = heading.scale s ∧ s + a = r * (s + b) := by
  have hr : 1 - r ≠ 0 := by
    intro hone
    have hr' : r = 1 := by linear_combination -hone
    rw [hr', B2Vec2.scale_one] at heq
    exact hab ((push_injective hunit v).mp heq)
  refine ⟨(r * b - a) / (1 - r), ?_, ?_⟩
  · rcases v with ⟨vx, vy⟩
    simp only [B2Vec2.push, B2Vec2.scale, B2Vec2.mk.injEq] at heq ⊢
    constructor
    · field_simp
      linear_combination heq.1
    · field_simp
      linear_combination heq.2
  · field_simp
    ring

/-- A heading has length one. -/
theorem b2Length_heading (hunit : heading.x ^ 2 + heading.y ^ 2 = 1) :
    b2Length heading = 1 := by
  have hsq : b2Length heading ^ 2 = 1 ^ 2 := by
    rw [LawfulFloatOps.b2Length_sq, hunit, one_pow]
  exact (pow_left_inj₀ (LawfulFloatOps.b2Length_nonneg _) zero_le_one two_ne_zero).mp hsq

omit [FloatOps K] [LawfulFloatOps K] in
/-- Numbers of one sign are positive multiples of each other. -/
theorem mul_pos_iff_exists_ratio {x y : K} :
    0 < x * y ↔ y ≠ 0 ∧ ∃ r, 0 < r ∧ x = r * y := by
  constructor
  · intro hpos
    have hne : y ≠ 0 := by
      intro hzero
      rw [hzero, mul_zero] at hpos
      exact lt_irrefl 0 hpos
    have hsq : 0 < y ^ 2 := by positivity
    have hratio : x / y = x * y / y ^ 2 := by
      field_simp
    refine ⟨hne, x / y, ?_, (div_mul_cancel₀ x hne).symm⟩
    rw [hratio]
    exact div_pos hpos hsq
  · rintro ⟨hne, r, hr, rfl⟩
    have hsq : 0 < y ^ 2 := by positivity
    calc
      0 < r * y ^ 2 := mul_pos hr hsq
      _ = r * y * y := by ring

/-- Capping after a friction factor hides the difference between two pushes along a
unit heading exactly when the pushes are equal, or the vector lies along the heading
and both pushes drive it the same way and up to the cap. -/
theorem pushed_eq_iff {cap factor : K} (hcap : 0 < cap) (hfactor : 0 < factor)
    (hunit : heading.x ^ 2 + heading.y ^ 2 = 1) (v : B2Vec2 K) (a b : K) :
    capped cap ((v.push heading a).scale factor) =
        capped cap ((v.push heading b).scale factor) ↔
      a = b ∨ ∃ s, v = heading.scale s ∧ 0 < (s + a) * (s + b) ∧
        cap ≤ factor * |s + a| ∧ cap ≤ factor * |s + b| := by
  have hlength : ∀ s, b2Length ((heading.scale s).scale factor) = factor * |s| := by
    intro s
    rw [b2Length_scale, b2Length_scale, b2Length_heading hunit, mul_one, abs_of_pos hfactor]
  rw [capped_eq_iff hcap, B2Vec2.scale_injective hfactor.ne', push_injective hunit]
  constructor
  · rintro (heq | ⟨hp, hq, r, hr, heq⟩)
    · exact Or.inl heq
    · by_cases hab : a = b
      · exact Or.inl hab
      · right
        rw [B2Vec2.scale_scale, mul_comm factor r, ← B2Vec2.scale_scale,
          B2Vec2.scale_injective hfactor.ne'] at heq
        -- the common direction is the heading, since the pushes differ
        rcases exists_scale_of_push_eq hunit hab heq with ⟨s, rfl, hsum⟩
        rw [push_scale, hlength] at hp hq
        have hne : s + b ≠ 0 := by
          intro hzero
          rw [hzero, abs_zero, mul_zero] at hq
          exact absurd hcap (not_lt.mpr hq)
        exact ⟨s, rfl, mul_pos_iff_exists_ratio.mpr ⟨hne, r, hr, hsum⟩, hp, hq⟩
  · rintro (heq | ⟨s, rfl, hpos, hp, hq⟩)
    · exact Or.inl heq
    · right
      rcases (mul_pos_iff_exists_ratio.mp hpos).2 with ⟨r, hr, hsum⟩
      rw [push_scale, push_scale, hlength, hlength]
      refine ⟨hp, hq, r, hr, ?_⟩
      have hfactors : r * (s + b) * factor = (s + b) * (factor * r) := by ring
      rw [B2Vec2.scale_scale, B2Vec2.scale_scale, B2Vec2.scale_scale, hsum, hfactors]

/-! ## Tanks -/

/-- The parameters with which a tank can be driven. -/
structure Tank.Drivable (tank : Tank K) : Prop where
  maxSpeed_pos : 0 < tank.maxSpeed
  friction_pos : 0 < tank.friction
  acceleration_ne : tank.acceleration ≠ 0

omit [IsStrictOrderedRing K] [LawfulFloatOps K] in
/-- Friction and speed limit as scaling and capping. -/
theorem Tank.cruise_eq (tank : Tank K) (v : Velocity K) :
    tank.cruise v =
      { linear := capped tank.maxSpeed (v.linear.scale tank.friction)
        angular := v.angular * tank.friction } := by
  have hbrake : (tank.brake v).linear = v.linear.scale tank.friction := rfl
  unfold cruise limit capped
  rw [hbrake]
  by_cases hfast : tank.maxSpeed < b2Length (v.linear.scale tank.friction)
  · rw [if_pos hfast, if_pos hfast]
    rfl
  · rw [if_neg hfast, if_neg hfast]
    rfl

/-- A tank never moves faster than its speed limit. -/
theorem Tank.b2Length_cruise_le {tank : Tank K} (htank : tank.Drivable) (v : Velocity K) :
    b2Length (tank.cruise v).linear ≤ tank.maxSpeed := by
  rw [Tank.cruise_eq]
  exact b2Length_capped_le htank.maxSpeed_pos _

/-- A point moves by the length of its velocity times the time. -/
theorem b2Distance_advance (p v : B2Vec2 K) {deltaTime : K} (htime : 0 ≤ deltaTime) :
    b2Distance p (p.advance v deltaTime) = b2Length v * deltaTime := by
  have hstep : (⟨(p.advance v deltaTime).x - p.x, (p.advance v deltaTime).y - p.y⟩ : B2Vec2 K) =
      v.scale deltaTime := by
    simp [B2Vec2.advance, B2Vec2.scale]
  rw [LawfulFloatOps.b2Distance_eq, hstep, b2Length_scale, abs_of_nonneg htime, mul_comm]

/-- Which pushes along its heading a drivable tank cannot tell apart. -/
theorem Tank.cruise_eq_iff {tank : Tank K} (htank : tank.Drivable)
    (hunit : heading.x ^ 2 + heading.y ^ 2 = 1) (v : B2Vec2 K) (angular a b : K) :
    tank.cruise ⟨v.push heading a, angular⟩ = tank.cruise ⟨v.push heading b, angular⟩ ↔
      a = b ∨ ∃ s, v = heading.scale s ∧ 0 < (s + a) * (s + b) ∧
        tank.maxSpeed ≤ tank.friction * |s + a| ∧
        tank.maxSpeed ≤ tank.friction * |s + b| := by
  rw [← pushed_eq_iff htank.maxSpeed_pos htank.friction_pos hunit v a b, Tank.cruise_eq,
    Tank.cruise_eq]
  simp

end GameFramework
