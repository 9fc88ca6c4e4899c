import Mathlib.Data.List.TakeWhile
import Mathlib.Data.UInt
import Mathlib.Tactic.Ring

/-!
# Decimal numerals

Printing a number in decimal and reading a 64-bit number back the way the C++
standard library does: leading white space and a sign are accepted, the longest
prefix of digits counts, a minus sign wraps around, and a value that does not fit
is an error.

Main results:

- Theorem {lit}`value_render`: a printed number denotes itself.
- Theorem {lit}`stoull_toString`: reading inverts printing.
- Theorem {lit}`stoi_of_forall_isDigit`: a digit string that fits reads as its value.
-/

namespace Decimal

/-! ## Digits -/

/-- The character of a digit. -/
def digit (d : ℕ) : UInt8 := UInt8.ofNat (48 + d)

def isDigit (b : UInt8) : Bool := 48 ≤ b && b ≤ 57

def digitValue (b : UInt8) : ℕ := b.toNat - 48

/-- The number that a digit string denotes. -/
def value (s : List UInt8) : ℕ :=
  s.foldl (fun acc b => acc * 10 + digitValue b) 0

/-- Print a number in front of a string; the first argument bounds the number of
digits. -/
def renderOnto : ℕ → ℕ → List UInt8 → List UInt8
  | 0, _, s => s
  | fuel + 1, n, s =>
      if n / 10 = 0 then digit n :: s else renderOnto fuel (n / 10) (digit (n % 10) :: s)

/-- Print a number. -/
def render (n : ℕ) : List UInt8 :=
  renderOnto (n + 1) n []

theorem isDigit_digit {d : ℕ} (h : d < 10) : isDigit (digit d) = true := by
  have hcases : d = 0 ∨ d = 1 ∨ d = 2 ∨ d = 3 ∨ d = 4 ∨ d = 5 ∨ d = 6 ∨ d = 7 ∨ d = 8 ∨ d = 9 := by
    omega
  rcases hcases with rfl | rfl | rfl | rfl | rfl | rfl | rfl | rfl | rfl | rfl <;> decide

theorem digitValue_digit {d : ℕ} (h : d < 10) : digitValue (digit d) = d := by
  have hmod : (48 + d) % 2 ^ 8 = 48 + d := Nat.mod_eq_of_lt (by omega)
  rw [digitValue, digit, UInt8.toNat_ofNat', hmod]
  omega

/-- Reading on from a value. -/
theorem foldl_value (acc : ℕ) (s : List UInt8) :
    s.foldl (fun acc b => acc * 10 + digitValue b) acc =
      acc * 10 ^ s.length + value s := by
  unfold value
  induction s generalizing acc with
  | nil => simp
  | cons b s ih =>
      rw [List.foldl_cons, List.foldl_cons, ih, ih (0 * 10 + digitValue b), List.length_cons,
        Nat.pow_succ]
      ring

/-- The first digit counts most. -/
theorem value_cons (b : UInt8) (s : List UInt8) :
    value (b :: s) = digitValue b * 10 ^ s.length + value s := by
  rw [value, List.foldl_cons, foldl_value]
  simp

/-- Printing in front of a string shifts the number by the length of the string. -/
theorem value_renderOnto {fuel n : ℕ} (hfuel : n < fuel) (s : List UInt8) :
    value (renderOnto fuel n s) = n * 10 ^ s.length + value s := by
  induction fuel generalizing n s with
  | zero => omega
  | succ fuel ih =>
      unfold renderOnto
      split
      · rename_i hsmall
        rw [value_cons, digitValue_digit (by omega)]
      · have hlast : n % 10 < 10 := Nat.mod_lt n (by omega)
        have hdiv : 10 * (n / 10) + n % 10 = n := Nat.div_add_mod n 10
        rw [ih (by omega), value_cons, digitValue_digit hlast, List.length_cons, Nat.pow_succ]
        calc
          n / 10 * (10 ^ s.length * 10) + (n % 10 * 10 ^ s.length + value s)
              = (10 * (n / 10) + n % 10) * 10 ^ s.length + value s := by ring
          _ = n * 10 ^ s.length + value s := by rw [hdiv]

/-- A printed number denotes itself. -/
theorem value_render (n : ℕ) : value (render n) = n := by
  rw [render, value_renderOnto (Nat.lt_succ_self n)]
  simp [value]

/-- Only digits are written. -/
theorem forall_isDigit_renderOnto {fuel n : ℕ} {s : List UInt8}
    (hs : ∀ b ∈ s, isDigit b = true) : ∀ b ∈ renderOnto fuel n s, isDigit b = true := by
  induction fuel generalizing n s with
  | zero => exact hs
  | succ fuel ih =>
      unfold renderOnto
      split
      · intro b hb
        rcases List.mem_cons.mp hb with rfl | hb
        · exact isDigit_digit (by omega)
        · exact hs b hb
      · apply ih
        intro b hb
        rcases List.mem_cons.mp hb with rfl | hb
        · exact isDigit_digit (Nat.mod_lt n (by omega))
        · exact hs b hb

/-- A printed number consists of digits. -/
theorem forall_isDigit_render (n : ℕ) : ∀ b ∈ render n, isDigit b = true :=
  forall_isDigit_renderOnto fun _ h => by cases h

theorem length_le_length_renderOnto (fuel n : ℕ) (s : List UInt8) :
    s.length ≤ (renderOnto fuel n s).length := by
  induction fuel generalizing n s with
  | zero => exact le_refl _
  | succ fuel ih =>
      unfold renderOnto
      split
      · simp
      · have hrest := ih (n / 10) (digit (n % 10) :: s)
        rw [List.length_cons] at hrest
        omega

/-- A printed number has at least one digit. -/
theorem render_ne_nil (n : ℕ) : render n ≠ [] := by
  intro hnil
  unfold render renderOnto at hnil
  split at hnil
  · contradiction
  · have hlength := length_le_length_renderOnto n (n / 10) [digit (n % 10)]
    rw [hnil] at hlength
    simp at hlength

/-! ## The C++ conversions -/

/-- The exceptions of {lit}`std::stoull` and {lit}`std::stoi`. -/
inductive StoullError where
  | invalidArgument
  | outOfRange
  deriving DecidableEq

/-- {lit}`std::isspace` in the C locale. -/
def isSpace (b : UInt8) : Bool := b == 32 || 9 ≤ b && b ≤ 13

/-- The sign of a numeral, minus as {lit}`true`, and what follows it. -/
def splitSign : List UInt8 → Bool × List UInt8
  | 45 :: s => (true, s)
  | 43 :: s => (false, s)
  | s => (false, s)

/-- {lit}`std::stoull` in base ten. -/
def stoull (s : List UInt8) : Except StoullError UInt64 :=
  let (negative, s) := splitSign (s.dropWhile isSpace)
  let digits := s.takeWhile isDigit
  if digits = [] then .error .invalidArgument
  else if 2 ^ 64 ≤ value digits then .error .outOfRange
  else .ok (if negative then -UInt64.ofNat (value digits) else UInt64.ofNat (value digits))

/-- {lit}`std::stoi` in base ten. -/
def stoi (s : List UInt8) : Except StoullError ℤ :=
  let (negative, s) := splitSign (s.dropWhile isSpace)
  let digits := s.takeWhile isDigit
  let n : ℤ := if negative then -(value digits : ℤ) else value digits
  if digits = [] then .error .invalidArgument
  else if n < -2 ^ 31 ∨ 2 ^ 31 ≤ n then .error .outOfRange
  else .ok n

/-- {lit}`std::to_string` of a 64-bit number. -/
def toString (n : UInt64) : List UInt8 :=
  render n.toNat

/-- A digit is no white space. -/
theorem not_isSpace_of_isDigit {b : UInt8} (h : isDigit b = true) : isSpace b = false := by
  simp only [isDigit, Bool.and_eq_true, decide_eq_true_eq, UInt8.le_iff_toNat_le] at h
  simp only [isSpace, Bool.or_eq_false_iff, Bool.and_eq_false_iff, beq_eq_false_iff_ne,
    decide_eq_false_iff_not, UInt8.le_iff_toNat_le, ne_eq, UInt8.toNat_inj.symm]
  have h₁ : (48 : UInt8).toNat = 48 := rfl
  have h₂ : (57 : UInt8).toNat = 57 := rfl
  have h₃ : (32 : UInt8).toNat = 32 := rfl
  have h₄ : (9 : UInt8).toNat = 9 := rfl
  have h₅ : (13 : UInt8).toNat = 13 := rfl
  omega

/-- Before a digit there is no sign. -/
theorem splitSign_of_isDigit {b : UInt8} (h : isDigit b = true) (s : List UInt8) :
    splitSign (b :: s) = (false, b :: s) := by
  unfold splitSign
  split
  · rename_i heq
    cases heq
    contradiction
  · rename_i heq
    cases heq
    contradiction
  · rfl

/-- A digit string has no white space or sign in front. -/
theorem splitSign_of_forall_isDigit {s : List UInt8} (hdigits : ∀ b ∈ s, isDigit b = true) :
    splitSign (s.dropWhile isSpace) = (false, s) := by
  cases s with
  | nil => rfl
  | cons b s =>
      have hb := hdigits b List.mem_cons_self
      rw [List.dropWhile_cons, not_isSpace_of_isDigit hb]
      exact splitSign_of_isDigit hb s

/-- Reading a digit string that fits. -/
theorem stoull_of_forall_isDigit {s : List UInt8} (hne : s ≠ [])
    (hdigits : ∀ b ∈ s, isDigit b = true) (hfits : value s < 2 ^ 64) :
    stoull s = .ok (UInt64.ofNat (value s)) := by
  have htake : s.takeWhile isDigit = s := List.takeWhile_eq_self_iff.mpr hdigits
  simp only [stoull, splitSign_of_forall_isDigit hdigits, htake]
  rw [if_neg hne, if_neg (Nat.not_le.mpr hfits)]
  rfl

/-- Reading a digit string that fits into an {lit}`int`. -/
theorem stoi_of_forall_isDigit {s : List UInt8} (hne : s ≠ [])
    (hdigits : ∀ b ∈ s, isDigit b = true) (hfits : value s < 2 ^ 31) :
    stoi s = .ok (value s) := by
  have htake : s.takeWhile isDigit = s := List.takeWhile_eq_self_iff.mpr hdigits
  simp only [stoi, splitSign_of_forall_isDigit hdigits, htake]
  rw [if_neg hne, if_neg ?_]
  · rfl
  · simp only [Bool.false_eq_true, if_false]
    omega

/-- Reading inverts printing. -/
theorem stoull_toString (n : UInt64) : stoull (toString n) = .ok n := by
  have hvalue : value (toString n) = n.toNat := value_render n.toNat
  have hne : toString n ≠ [] := render_ne_nil n.toNat
  have hdigits : ∀ b ∈ toString n, isDigit b = true := forall_isDigit_render n.toNat
  have hfits : value (toString n) < 2 ^ 64 := by
    rw [hvalue]
    exact n.toNat_lt
  rw [stoull_of_forall_isDigit hne hdigits hfits, hvalue, UInt64.ofNat_toNat]

/-- Different numbers are printed differently. -/
theorem toString_inj {n m : UInt64} : toString n = toString m ↔ n = m := by
  refine ⟨fun heq => ?_, fun heq => heq ▸ rfl⟩
  have hread := stoull_toString n
  rw [heq, stoull_toString] at hread
  exact (Except.ok.inj hread).symm

end Decimal
