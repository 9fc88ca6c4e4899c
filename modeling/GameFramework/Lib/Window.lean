import Mathlib.Algebra.Order.BigOperators.Group.List
import Mathlib.Algebra.Order.Field.Basic
import Mathlib.Tactic.FieldSimp
import Mathlib.Tactic.Positivity

/-!
# Sliding windows

A window keeps the most recent entries of a sequence up to a capacity, and
reports their mean.

Main results:

- Theorem {lit}`mem_of_mem_push`: a window contains nothing but pushed entries.
- Theorems {lit}`mean_le` and {lit}`le_mean`: the mean lies between bounds of the entries.
- Theorem {lit}`mean_eq_of_forall_eq`: the mean of equal entries.
-/

namespace SlidingWindow

variable {α : Type*}

/-- Append an entry and drop the oldest one when the window is over capacity. -/
def push (capacity : ℕ) (w : List α) (x : α) : List α :=
  if capacity < (w ++ [x]).length then (w ++ [x]).tail else w ++ [x]

theorem mem_of_mem_push {capacity : ℕ} {w : List α} {x y : α}
    (h : y ∈ push capacity w x) : y = x ∨ y ∈ w := by
  have hmem : y ∈ w ++ [x] := by
    unfold push at h
    split at h
    · exact List.mem_of_mem_tail h
    · exact h
  rcases List.mem_append.mp hmem with hw | hx
  · exact Or.inr hw
  · exact Or.inl (List.mem_singleton.mp hx)

/-- The window is never empty after a push. -/
theorem push_ne_nil {capacity : ℕ} (hcapacity : 0 < capacity) (w : List α) (x : α) :
    push capacity w x ≠ [] := by
  unfold push
  split
  · rename_i hover
    intro hnil
    have hlength := congrArg List.length hnil
    rw [List.length_tail, List.length_nil] at hlength
    omega
  · simp

/-- A property of all entries survives a push of an entry that has it. -/
theorem forall_mem_push {P : α → Prop} {capacity : ℕ} {w : List α} {x : α}
    (hw : ∀ y ∈ w, P y) (hx : P x) : ∀ y ∈ push capacity w x, P y := by
  intro y hy
  rcases mem_of_mem_push hy with rfl | hmem
  · exact hx
  · exact hw y hmem

section Mean

variable {K : Type*} [Field K]

/-- The arithmetic mean. -/
def mean (w : List K) : K :=
  w.sum / (w.length : K)

variable [LinearOrder K] [IsStrictOrderedRing K]

theorem mean_le {w : List K} {b : K} (hne : w ≠ []) (h : ∀ x ∈ w, x ≤ b) : mean w ≤ b := by
  have hlength : (0 : K) < w.length := by
    exact_mod_cast List.length_pos_of_ne_nil hne
  have hsum := List.sum_le_card_nsmul w b h
  rw [mean, div_le_iff₀ hlength, mul_comm]
  simpa using hsum

theorem le_mean {w : List K} {b : K} (hne : w ≠ []) (h : ∀ x ∈ w, b ≤ x) : b ≤ mean w := by
  have hlength : (0 : K) < w.length := by
    exact_mod_cast List.length_pos_of_ne_nil hne
  have hsum := List.card_nsmul_le_sum w b h
  rw [mean, le_div_iff₀ hlength, mul_comm]
  simpa using hsum

/-- The mean of equal entries is their value. -/
theorem mean_eq_of_forall_eq {w : List K} {b : K} (hne : w ≠ []) (h : ∀ x ∈ w, x = b) :
    mean w = b :=
  le_antisymm (mean_le hne fun x hx => (h x hx).le) (le_mean hne fun x hx => (h x hx).ge)

end Mean

end SlidingWindow
