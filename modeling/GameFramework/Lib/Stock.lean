import GameFramework.Lib.Registry
import Mathlib.Algebra.Module.BigOperators
import Mathlib.Algebra.BigOperators.Intervals

/-!
# Stocks of a registry

A weight on rows gives a registry a stock: the weight of all its rows together.  A change of a
registry changes the stock by what it does to the single rows, and a list of entities that the
change records pays for it.

Main results:

- Theorem {lit}`Registry.total_balance`: what every row gains or loses, counted along two lists of
  entities, adds up to the lengths of the lists.
- Theorem {lit}`Registry.total_grow`: new rows of one weight.
-/

namespace EntityRegistry

namespace Registry

variable {ρ M : Type*} [AddCommMonoid M]

/-- The weight of all rows together. -/
def total (weight : ρ → M) (r : Registry ρ) : M :=
  ∑ e ∈ Finset.range r.next, (r.row e).elim 0 weight

/-- The entries of a list of entities, counted one by one. -/
theorem sum_count_range {es : List Entity} {n : ℕ} (hes : ∀ e ∈ es, e < n) :
    ∑ e ∈ Finset.range n, es.count e = es.length := by
  have hsum := Multiset.sum_count_eq_card (s := Finset.range n) (m := (es : Multiset Entity))
    fun e he => Finset.mem_range.mpr (hes e he)
  simpa only [Multiset.coe_count, Multiset.coe_card] using hsum

variable {weight : ρ → M} {r r' : Registry ρ}

theorem total_eq_zero (hrow : ∀ e c, r.row e = some c → weight c = 0) : r.total weight = 0 := by
  refine Finset.sum_eq_zero fun e _ => ?_
  cases he : r.row e with
  | none => rfl
  | some c => exact hrow e c he

theorem total_balance (hnext : r'.next = r.next) {a b : M} {es es' : List Entity}
    (hes : ∀ e ∈ es, e < r.next) (hes' : ∀ e ∈ es', e < r.next)
    (hrow : ∀ e, (r'.row e).elim 0 weight + es.count e • a =
      (r.row e).elim 0 weight + es'.count e • b) :
    r'.total weight + es.length • a = r.total weight + es'.length • b := by
  rw [← sum_count_range hes, ← sum_count_range hes', Finset.sum_smul, Finset.sum_smul, total,
    hnext, total, ← Finset.sum_add_distrib, ← Finset.sum_add_distrib]
  exact Finset.sum_congr rfl fun e _ => hrow e

theorem total_grow {n : ℕ} {a : M} (hnext : r'.next = r.next + n)
    (hold : ∀ e, e < r.next → (r'.row e).elim 0 weight = (r.row e).elim 0 weight)
    (hnew : ∀ e, r.next ≤ e → e < r.next + n → (r'.row e).elim 0 weight = a) :
    r'.total weight = r.total weight + n • a := by
  rw [total, hnext, Finset.sum_range_add, total]
  congr 1
  · exact Finset.sum_congr rfl fun e he => hold e (Finset.mem_range.mp he)
  · calc
      ∑ e ∈ Finset.range n, (r'.row (r.next + e)).elim 0 weight = ∑ _ ∈ Finset.range n, a := by
        refine Finset.sum_congr rfl fun e he => hnew _ (Nat.le_add_right _ _) ?_
        exact Nat.add_lt_add_left (Finset.mem_range.mp he) _
      _ = n • a := by rw [Finset.sum_const, Finset.card_range]

end Registry

end EntityRegistry
