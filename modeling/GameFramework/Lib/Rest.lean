import GameFramework.Lib.Transition
import Mathlib.Tactic.Push

/-!
# Runs that come to rest

If every step of some kind takes from a rank, then such steps come to an end in whatever order
they are taken.

Main results:

- Theorem {lit}`System.length_add_rank_le`: a run of such steps is as short as the rank.
- Theorem {lit}`System.exists_atRest`: there is a run of such steps after which none is possible.
-/

namespace Labelled

namespace System

variable {σ ℓ ε : Type*} (M : System σ ℓ ε)

/-- No step of this kind is possible. -/
def AtRest (Kind : ℓ → Prop) (s : σ) : Prop :=
  ∀ l, Kind l → M.step s l = none

section Rank

variable {Inv : σ → Prop} {Kind : ℓ → Prop} {rank : σ → ℕ}

/-- A run whose steps take from the rank is as short as the rank. -/
theorem length_add_rank_le
    (hstep : ∀ s l t out, Inv s → Kind l → M.step s l = some (t, out) →
      Inv t ∧ rank t < rank s)
    {s u : σ} {ls : List ℓ} {h : List ε} (hinv : Inv s) (hkind : ∀ l ∈ ls, Kind l)
    (hrun : M.run s ls = some (u, h)) : ls.length + rank u ≤ rank s := by
  induction ls generalizing s h with
  | nil =>
      cases hrun
      simp
  | cons l ls ih =>
      rcases (run_cons_eq_some M).mp hrun with ⟨t, out, rest, hl, hls, _⟩
      rcases hstep s l t out hinv (hkind l List.mem_cons_self) hl with ⟨hinv', hless⟩
      have hrest := ih hinv' (fun l' hl' => hkind l' (List.mem_cons_of_mem l hl')) hls
      rw [List.length_cons]
      omega

/-- Steps that take from the rank can be taken until none is possible. -/
theorem exists_atRest
    (hstep : ∀ s l t out, Inv s → Kind l → M.step s l = some (t, out) →
      Inv t ∧ rank t < rank s)
    {s : σ} (hinv : Inv s) :
    ∃ ls u h, (∀ l ∈ ls, Kind l) ∧ M.run s ls = some (u, h) ∧ M.AtRest Kind u := by
  induction hrank : rank s using Nat.strongRecOn generalizing s with
  | ind n ih =>
      by_cases hrest : M.AtRest Kind s
      · exact ⟨[], s, [], by simp, rfl, hrest⟩
      · unfold AtRest at hrest
        push Not at hrest
        rcases hrest with ⟨l, hl, hsome⟩
        rcases Option.ne_none_iff_exists'.mp hsome with ⟨⟨t, out⟩, ht⟩
        rcases hstep s l t out hinv hl ht with ⟨hinv', hless⟩
        rcases ih (rank t) (hrank ▸ hless) hinv' rfl with ⟨ls, u, h, hkind, hrun, hatRest⟩
        refine ⟨l :: ls, u, out ++ h, ?_, ?_, hatRest⟩
        · exact List.forall_mem_cons.mpr ⟨hl, hkind⟩
        · exact (run_cons_eq_some M).mpr ⟨t, out, h, ht, hrun, rfl⟩

end Rank

end System

end Labelled
