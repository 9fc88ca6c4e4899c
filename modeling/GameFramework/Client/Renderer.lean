import GameFramework.Game.Components
import Mathlib.Algebra.Order.Floor.Semiring
import Mathlib.Tactic.Linarith

/-!
# Drawing a destructible

{lit}`GameRenderer::renderDestructible`.  Its calls into the graphics library are data:
each names the shape, its arguments as they are passed, and the paint.  The two casts to
{lit}`unsigned char` and the conversions of the arguments of {lit}`raylib::DrawRectangle` to
{lit}`int` are only defined on values that the type can hold, so a destructible whose colour or
health bar does not fit has no drawing.

Main results:

- Definition {lit}`GameRenderer.renderDestructible`: the drawing calls.
- Theorem {lit}`GameRenderer.components_of_ratio`: a health ratio of at most one keeps
  the colour components within their type.
- Theorem {lit}`GameRenderer.isSome_renderDestructible_iff`: a destructible with such a ratio has
  a drawing exactly when the corner of its health bar fits.
- Theorem {lit}`GameRenderer.height_eq_zero`: the health bar has no height.
-/

namespace GameFramework

/-- {lit}`raylib::Color`. -/
structure Color where
  r : UInt8
  g : UInt8
  b : UInt8
  a : UInt8
  deriving DecidableEq

/-- What a shape is drawn in: a colour of the library by name, or a colour faded
by {lit}`raylib::Fade`. -/
inductive Paint (K : Type*) where
  | white
  | green
  | fade (color : Color) (alpha : K)
  deriving DecidableEq

/-- The drawing calls, with their arguments as they are passed; those of
{lit}`raylib::DrawRectangle` are of type {lit}`int`. -/
inductive DrawCall (K : Type*) where
  | drawCircleV (center : B2Vec2 K) (radius : K) (paint : Paint K)
  | drawCircleLinesV (center : B2Vec2 K) (radius : K) (paint : Paint K)
  | drawRectangle (posX posY width height : Int32) (paint : Paint K)
  deriving DecidableEq

namespace GameRenderer

variable {K : Type*} [Field K]

def healthRatio (destructible : Destructible K) : K :=
  destructible.health / destructible.maxHealth

/-- The first colour component before its cast. -/
def red (destructible : Destructible K) : K :=
  200 * healthRatio destructible + 50

/-- The second colour component before its cast. -/
def green (destructible : Destructible K) : K :=
  50 + 150 * (1 - healthRatio destructible)

variable [LinearOrder K] [FloorSemiring K]

/-- The cast to {lit}`unsigned char` truncates; a value that does not fit afterwards has
no cast. -/
def unsignedChar (x : K) : Option UInt8 :=
  if -1 < x ∧ x < 256 then some (UInt8.ofNat ⌊x⌋₊) else none

def color (destructible : Destructible K) : Option Color :=
  match unsignedChar (red destructible), unsignedChar (green destructible) with
  | some r, some g => some ⟨r, g, 50, 255⟩
  | _, _ => none

/-- The fractional part of a value is cut off. -/
def trunc (x : K) : ℤ :=
  if 0 ≤ x then ⌊x⌋₊ else -⌊-x⌋₊

/-- What is left of a value without its fractional part is an {lit}`int`. -/
def FitsInt (x : K) : Prop :=
  -2 ^ 31 - 1 < x ∧ x < 2 ^ 31

instance (x : K) : Decidable (FitsInt x) :=
  inferInstanceAs (Decidable (_ ∧ _))

/-- The conversion to {lit}`int` truncates; a value that does not fit afterwards has none. -/
def int (x : K) : Option Int32 :=
  if FitsInt x then some (Int32.ofInt (trunc x)) else none

/-- The corner of the health bar of a destructible fits. -/
def BarFits (transform : Transform K) (destructible : Destructible K) : Prop :=
  FitsInt (transform.position.x - destructible.radius) ∧
    FitsInt (transform.position.y - destructible.radius - 6 / 10)

/-- An inactive destructible is not drawn. -/
def renderDestructible (transform : Transform K) (destructible : Destructible K) :
    Option (List (DrawCall K)) :=
  if !destructible.active then some []
  else
    let pos := transform.position
    let barWidth := destructible.radius * 2
    let barHeight : K := 4 / 10
    match color destructible, int (pos.x - destructible.radius),
        int (pos.y - destructible.radius - 6 / 10), int (barWidth * healthRatio destructible),
        int barHeight with
    | some color, some posX, some posY, some width, some height =>
        some [.drawCircleV pos destructible.radius (.fade color (8 / 10)),
          .drawCircleLinesV pos destructible.radius .white,
          .drawRectangle posX posY width height .green]
    | _, _, _, _, _ => none

variable [IsStrictOrderedRing K]

omit [FloorSemiring K] in
/-- Health that is left and not above the maximum has a ratio in (0, 1]. -/
theorem healthRatio_mem {d : Destructible K} (hpos : 0 < d.health)
    (hle : d.health ≤ d.maxHealth) : 0 < healthRatio d ∧ healthRatio d ≤ 1 :=
  ⟨div_pos hpos (hpos.trans_le hle), (div_le_one (hpos.trans_le hle)).mpr hle⟩

omit [FloorSemiring K] in
/-- The colour components at a health ratio in (0, 1]. -/
theorem components_of_ratio {d : Destructible K}
    (h : 0 < healthRatio d ∧ healthRatio d ≤ 1) :
    (0 ≤ red d ∧ red d ≤ 255) ∧ 0 ≤ green d ∧ green d ≤ 255 := by
  unfold red green
  refine ⟨⟨?_, ?_⟩, ?_, ?_⟩ <;> linarith [h.1, h.2]

theorem isSome_unsignedChar {x : K} (h : 0 ≤ x ∧ x ≤ 255) : (unsignedChar x).isSome := by
  have hfits : -1 < x ∧ x < 256 := by
    constructor <;> linarith [h.1, h.2]
  rw [unsignedChar, if_pos hfits]
  rfl

/-- The casts of the colour of a destructible with a health ratio in (0, 1] are defined. -/
theorem isSome_color {d : Destructible K} (h : 0 < healthRatio d ∧ healthRatio d ≤ 1) :
    (color d).isSome := by
  have hcomponents := components_of_ratio h
  rcases Option.isSome_iff_exists.mp (isSome_unsignedChar hcomponents.1) with ⟨r, hr⟩
  rcases Option.isSome_iff_exists.mp (isSome_unsignedChar hcomponents.2) with ⟨g, hg⟩
  simp only [color, hr, hg, Option.isSome_some]

omit [IsStrictOrderedRing K] in
theorem isSome_int_iff {x : K} : (int x).isSome ↔ FitsInt x := by
  unfold int
  split <;> simp_all

/-- A value that is neither negative nor as large as one is converted to zero. -/
theorem int_eq_zero {x : K} (h : 0 ≤ x ∧ x < 1) : int x = some 0 := by
  have hfits : FitsInt x := by
    constructor <;> linarith [h.1, h.2]
  have htrunc : trunc x = 0 := by
    rw [trunc, if_pos h.1, Nat.floor_eq_zero.mpr h.2]
    rfl
  rw [int, if_pos hfits, htrunc]
  rfl

omit [FloorSemiring K] in
/-- The width of the health bar of a destructible of the default size fits. -/
theorem fitsInt_width {d : Destructible K} (hradius : d.radius = 2)
    (h : 0 < healthRatio d ∧ healthRatio d ≤ 1) : FitsInt (d.radius * 2 * healthRatio d) := by
  rw [hradius]
  constructor <;> linarith [h.1, h.2]

/-- The height of the health bar. -/
theorem int_barHeight : int (4 / 10 : K) = some 0 :=
  int_eq_zero (by constructor <;> norm_num)

/-- A destructible of the default size with a health ratio in (0, 1] has a drawing exactly when
the corner of its health bar fits. -/
theorem isSome_renderDestructible_iff {transform : Transform K} {d : Destructible K}
    (hactive : d.active = true) (hradius : d.radius = 2)
    (h : 0 < healthRatio d ∧ healthRatio d ≤ 1) :
    (renderDestructible transform d).isSome ↔ BarFits transform d := by
  rcases Option.isSome_iff_exists.mp (isSome_color h) with ⟨color, hcolor⟩
  rcases Option.isSome_iff_exists.mp (isSome_int_iff.mpr (fitsInt_width hradius h)) with
    ⟨width, hwidth⟩
  simp only [renderDestructible, BarFits, hactive, hcolor, hwidth, int_barHeight,
    ← isSome_int_iff]
  cases int (transform.position.x - d.radius) <;>
    cases int (transform.position.y - d.radius - 6 / 10) <;> simp

/-- The health bar has no height. -/
theorem height_eq_zero {transform : Transform K} {d : Destructible K}
    {calls : List (DrawCall K)} (hcalls : renderDestructible transform d = some calls)
    {posX posY width height : Int32} {paint : Paint K}
    (hmem : .drawRectangle posX posY width height paint ∈ calls) : height = 0 := by
  simp only [renderDestructible, int_barHeight] at hcalls
  split at hcalls
  · cases hcalls
    cases hmem
  · split at hcalls
    · rename_i hheight
      cases hcalls
      cases hheight
      simp only [List.mem_cons, reduceCtorEq, DrawCall.drawRectangle.injEq, List.not_mem_nil,
        false_or, or_false] at hmem
      exact hmem.2.2.2.1
    · contradiction

end GameRenderer

end GameFramework
