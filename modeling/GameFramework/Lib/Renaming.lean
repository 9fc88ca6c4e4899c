import GameFramework.Lib.Registry
import Mathlib.Logic.Equiv.Basic

/-!
# Renaming of entities

Numbers of entities are names.  Two ways to create the same rows differ in which
number each row gets; this module says that such registries are the same up to a
renaming of the entities that were made meanwhile.

Main results:

- Definition {lit}`Registry.createAll`: create one entity for each row of a list.
- Definition {lit}`Registry.SameUpTo`: registries that agree after a renaming.
- Theorem {lit}`exists_renaming`: registries whose new rows are permutations of each
  other agree after a renaming of the new entities.
- Theorem {lit}`Registry.SameUpTo.rows_perm`: such registries have the same rows.
-/

namespace EntityRegistry

variable {ρ : Type*}

/-! ## Creating many entities -/

namespace Registry

/-- Create an entity for each row, in order. -/
def createAll (r : Registry ρ) (xs : List ρ) : Registry ρ :=
  xs.foldl (fun r x => (r.create x).1) r

/-- A row that is written right after the creation is the created row. -/
theorem modify_create (r : Registry ρ) (x y : ρ) :
    ((r.create x).1.modify r.next fun _ => y) = (r.create y).1 := by
  refine Registry.ext rfl (fun e => ?_) rfl
  rw [row_modify, row_create, row_create, row_create]
  by_cases he : e = r.next <;> simp [he]

@[simp]
theorem next_createAll (r : Registry ρ) (xs : List ρ) :
    (r.createAll xs).next = r.next + xs.length := by
  induction xs generalizing r with
  | nil => rfl
  | cons x xs ih =>
      have hnext : (r.createAll (x :: xs)).next = ((r.create x).1.createAll xs).next := rfl
      rw [hnext, ih, next_create, List.length_cons, Nat.add_assoc, Nat.add_comm 1]

/-- Old rows are untouched by creation. -/
theorem row_createAll_of_lt (r : Registry ρ) (xs : List ρ) {e : Entity} (he : e < r.next) :
    (r.createAll xs).row e = r.row e := by
  induction xs generalizing r with
  | nil => rfl
  | cons x xs ih =>
      have hrow : (r.createAll (x :: xs)).row e = ((r.create x).1.createAll xs).row e := rfl
      rw [hrow, ih _ (Nat.lt_succ_of_lt he), row_create, if_neg (Nat.ne_of_lt he)]

/-- The new rows are those of the list, in order. -/
theorem row_createAll_add (r : Registry ρ) (xs : List ρ) (i : ℕ) :
    (r.createAll xs).row (r.next + i) = xs[i]? := by
  induction xs generalizing r i with
  | nil => exact row_eq_none_of_next_le (Nat.le_add_right _ i)
  | cons x xs ih =>
      have hrow : (r.createAll (x :: xs)).row (r.next + i) =
        ((r.create x).1.createAll xs).row (r.next + i) := rfl
      rw [hrow]
      cases i with
      | zero =>
          rw [Nat.add_zero, row_createAll_of_lt _ _ (Nat.lt_succ_self r.next), row_create,
            if_pos rfl]
          rfl
      | succ i =>
          have hshift : r.next + (i + 1) = (r.create x).1.next + i := by
            rw [next_create, Nat.add_assoc, Nat.add_comm 1]
          rw [hshift, ih]
          rfl

theorem entities_createAll (r : Registry ρ) (xs : List ρ) :
    (r.createAll xs).entities =
      r.entities ++ (List.range xs.length).map fun i => r.next + i := by
  induction xs generalizing r with
  | nil => exact (List.append_nil _).symm
  | cons x xs ih =>
      have hentities : (r.createAll (x :: xs)).entities =
        ((r.create x).1.createAll xs).entities := rfl
      have hcreate : (r.create x).1.entities = r.entities ++ [r.next] := rfl
      have hshift : ∀ i, r.next + 1 + i = r.next + (i + 1) := fun i => by
        rw [Nat.add_assoc, Nat.add_comm 1]
      rw [hentities, ih, hcreate, List.append_assoc, List.length_cons,
        List.range_succ_eq_map, List.map_cons, List.map_map]
      simp only [next_create, hshift]
      rfl

end Registry

/-! ## Renamings -/

/-- A permutation of entities that leaves those below a boundary alone. -/
structure Renaming (boundary : Entity) where
  toPerm : Equiv.Perm Entity
  fixed : ∀ e, e < boundary → toPerm e = e

/-- A permutation carried out above a boundary. -/
def Renaming.above (boundary : Entity) (σ : Equiv.Perm ℕ) : Renaming boundary where
  toPerm :=
    { toFun := fun e => if e < boundary then e else boundary + σ (e - boundary)
      invFun := fun e => if e < boundary then e else boundary + σ.symm (e - boundary)
      left_inv := by
        intro e
        by_cases he : e < boundary
        · simp [he]
        · have hback : boundary + (e - boundary) = e := Nat.add_sub_cancel' (Nat.le_of_not_lt he)
          simp [he, hback]
      right_inv := by
        intro e
        by_cases he : e < boundary
        · simp [he]
        · have hback : boundary + (e - boundary) = e := Nat.add_sub_cancel' (Nat.le_of_not_lt he)
          simp [he, hback] }
  fixed := fun _ he => if_pos he

theorem Renaming.above_add (boundary : Entity) (σ : Equiv.Perm ℕ) (i : ℕ) :
    (above boundary σ).toPerm (boundary + i) = boundary + σ i := by
  have hnot : ¬ boundary + i < boundary := Nat.not_lt.mpr (Nat.le_add_right boundary i)
  have hback : boundary + i - boundary = i := Nat.add_sub_cancel_left boundary i
  change (if boundary + i < boundary then boundary + i
    else boundary + σ (boundary + i - boundary)) = boundary + σ i
  rw [if_neg hnot, hback]

/-- A permutation of a list is a permutation of its positions. -/
theorem exists_perm_getElem? {xs ys : List ρ} (h : xs.Perm ys) :
    ∃ σ : Equiv.Perm ℕ, ∀ i, ys[σ i]? = xs[i]? := by
  induction h with
  | nil => exact ⟨Equiv.refl ℕ, fun _ => rfl⟩
  | cons x _ ih =>
      rcases ih with ⟨σ, hσ⟩
      refine ⟨(Renaming.above 1 σ).toPerm, fun i => ?_⟩
      cases i with
      | zero => rfl
      | succ i =>
          rw [Nat.add_comm i 1, Renaming.above_add, Nat.add_comm 1 (σ i), Nat.add_comm 1 i,
            List.getElem?_cons_succ, List.getElem?_cons_succ]
          exact hσ i
  | swap x y l =>
      refine ⟨Equiv.swap 0 1, fun i => ?_⟩
      match i with
      | 0 => rfl
      | 1 => rfl
      | i + 2 =>
          rw [Equiv.swap_apply_of_ne_of_ne (by omega) (by omega)]
          rfl
  | trans _ _ ih₁ ih₂ =>
      rcases ih₁ with ⟨σ, hσ⟩
      rcases ih₂ with ⟨τ, hτ⟩
      exact ⟨σ.trans τ, fun i => (hτ (σ i)).trans (hσ i)⟩

namespace Registry

variable {boundary : Entity} {r r' : Registry ρ}

/-- The registries agree once the entities of the first one are renamed. -/
structure SameUpTo (σ : Renaming boundary) (r r' : Registry ρ) : Prop where
  next : r'.next = r.next
  row : ∀ e, r'.row (σ.toPerm e) = r.row e

/-- The rows of the valid entities, in storage order. -/
def rows (r : Registry ρ) : List ρ :=
  r.entities.filterMap r.row

/-- Registries that agree up to renaming have the same rows, as often. -/
theorem SameUpTo.rows_perm {σ : Renaming boundary} (h : SameUpTo σ r r') :
    r.rows.Perm r'.rows := by
  have hmem : ∀ e, e ∈ r.entities.map σ.toPerm ↔ e ∈ r'.entities := by
    intro e
    have hrow := h.row (σ.toPerm.symm e)
    rw [Equiv.apply_symm_apply] at hrow
    rw [r'.mem_iff, hrow, ← r.mem_iff]
    constructor
    · intro he
      rcases List.mem_map.mp he with ⟨e', he', rfl⟩
      rwa [Equiv.symm_apply_apply]
    · intro he
      exact List.mem_map.mpr ⟨_, he, Equiv.apply_symm_apply _ _⟩
  have hnodup : (r.entities.map σ.toPerm).Nodup := r.nodup.map σ.toPerm.injective
  have hperm : (r.entities.map σ.toPerm).Perm r'.entities :=
    (List.perm_ext_iff_of_nodup hnodup r'.nodup).mpr hmem
  have hrows : (r.entities.map σ.toPerm).filterMap r'.row = r.rows := by
    rw [List.filterMap_map, rows]
    congr 1
    funext e
    exact h.row e
  rw [← hrows]
  exact hperm.filterMap r'.row

end Registry

/-- Registries with the same old rows, and new rows that are permutations of each
other, agree up to a renaming of the new entities. -/
theorem exists_renaming {n : Entity} {r r' : Registry ρ} {xs ys : List ρ}
    (hnext : r.next = n + xs.length) (hnext' : r'.next = n + ys.length)
    (hold : ∀ e, e < n → r'.row e = r.row e) (hnew : ∀ i, r.row (n + i) = xs[i]?)
    (hnew' : ∀ i, r'.row (n + i) = ys[i]?) (hperm : xs.Perm ys) :
    ∃ σ : Renaming n, r.SameUpTo σ r' := by
  rcases exists_perm_getElem? hperm with ⟨τ, hτ⟩
  refine ⟨Renaming.above n τ, ?_, fun e => ?_⟩
  · rw [hnext, hnext', hperm.length_eq]
  · rcases Nat.lt_or_ge e n with he | he
    · rw [(Renaming.above n τ).fixed e he]
      exact hold e he
    · rcases Nat.exists_eq_add_of_le he with ⟨i, rfl⟩
      rw [Renaming.above_add, hnew', hnew]
      exact hτ i

end EntityRegistry
