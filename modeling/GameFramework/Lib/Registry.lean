import Mathlib.Data.List.Nodup
import Mathlib.Data.List.Perm.Basic
import Mathlib.Data.Option.Basic

/-!
# Entity registries

A registry makes entities and stores one row of data per valid entity.  The
entities are numbered in the order in which they are made.  The number only names
an entity here: which handle a program gets for it is not recorded, and a handle
may be used again where a number is not.  Views enumerate the entities
whose row passes a test; the order of an enumeration is an implementation
detail of the storage, so it is a parameter: an {lit}`Enumeration` may permute
every view in its own way.

Main results:

- Theorem {lit}`Registry.row_each`: a loop over distinct entities that changes only
  the row of the entity it stands on changes every row exactly once.
- Theorem {lit}`Registry.sweep_eq`: a loop that also collects entities collects the
  flagged ones, in loop order.
- Theorem {lit}`Registry.destroyAll_isSome_iff`: destroying a list of entities meets
  the validity precondition at every call exactly when the entities are valid and
  distinct.
-/

namespace EntityRegistry

/-- Entities, by the order in which they were made. -/
abbrev Entity := Nat

/-- Valid entities in storage order, the row of each one, and the number of the next
entity. -/
structure Registry (ρ : Type*) where
  entities : List Entity
  row : Entity → Option ρ
  next : Entity
  nodup : entities.Nodup
  mem_iff : ∀ e, e ∈ entities ↔ (row e).isSome
  lt_next : ∀ e ∈ entities, e < next

/-- How a storage enumerates its views: any permutation, chosen per view. -/
structure Enumeration (ν : Type*) where
  arrange : ν → List Entity → List Entity
  perm : ∀ v es, (arrange v es).Perm es

/-- Enumeration in storage order. -/
def Enumeration.stored (ν : Type*) : Enumeration ν where
  arrange _ es := es
  perm _ es := List.Perm.refl es

namespace Registry

variable {ρ ν : Type*}

/-- Registries are equal when they agree on entities, rows and the next entity. -/
@[ext]
theorem ext {r r' : Registry ρ} (hentities : r.entities = r'.entities)
    (hrow : ∀ e, r.row e = r'.row e) (hnext : r.next = r'.next) : r = r' := by
  cases r
  cases r'
  have hfun := funext hrow
  simp_all

/-- The registry without entities. -/
def empty : Registry ρ where
  entities := []
  row _ := none
  next := 0
  nodup := List.nodup_nil
  mem_iff := by simp
  lt_next := by simp

/-- An entity is valid until it is destroyed. -/
def valid (r : Registry ρ) (e : Entity) : Prop :=
  e ∈ r.entities

instance (r : Registry ρ) (e : Entity) : Decidable (r.valid e) :=
  inferInstanceAs (Decidable (e ∈ r.entities))

@[simp]
theorem not_valid_empty (e : Entity) : ¬ (empty : Registry ρ).valid e := by
  simp [valid, empty]

/-- Exactly the valid entities have a row. -/
theorem valid_iff_exists_row {r : Registry ρ} {e : Entity} :
    r.valid e ↔ ∃ x, r.row e = some x := by
  rw [valid, r.mem_iff, Option.isSome_iff_exists]

/-- An entity with a row is valid. -/
theorem valid_of_row {r : Registry ρ} {e : Entity} {x : ρ} (h : r.row e = some x) :
    r.valid e :=
  valid_iff_exists_row.mpr ⟨x, h⟩

/-- It was made before the next one. -/
theorem lt_next_of_row {r : Registry ρ} {e : Entity} {x : ρ} (h : r.row e = some x) :
    e < r.next :=
  r.lt_next e (valid_of_row h)

/-- What is still to be made has no row. -/
theorem row_eq_none_of_next_le {r : Registry ρ} {e : Entity} (h : r.next ≤ e) :
    r.row e = none := by
  cases hrow : r.row e with
  | none => rfl
  | some x => exact absurd (lt_next_of_row hrow) (Nat.not_lt.mpr h)

/-! ## Creation, modification and destruction -/

/-- Make the next entity, with an initial row. -/
def create (r : Registry ρ) (x : ρ) : Registry ρ × Entity :=
  ({ entities := r.entities ++ [r.next]
     row := Function.update r.row r.next (some x)
     next := r.next + 1
     nodup := by
       have hfresh : r.next ∉ r.entities := fun h => Nat.lt_irrefl _ (r.lt_next _ h)
       exact r.nodup.append (List.nodup_singleton _) (by simpa using hfresh)
     mem_iff := by
       intro e
       by_cases he : e = r.next
       · simp [he]
       · simp [he, r.mem_iff]
     lt_next := by
       intro e he
       rcases List.mem_append.mp he with he | he
       · exact Nat.lt_succ_of_lt (r.lt_next e he)
       · simp_all },
   r.next)

@[simp]
theorem create_snd (r : Registry ρ) (x : ρ) : (r.create x).2 = r.next :=
  rfl

@[simp]
theorem next_create (r : Registry ρ) (x : ρ) : (r.create x).1.next = r.next + 1 :=
  rfl

/-- A creation adds the row of the new entity and changes no other. -/
theorem row_create (r : Registry ρ) (x : ρ) (e : Entity) :
    (r.create x).1.row e = if e = r.next then some x else r.row e := by
  simp [create, Function.update_apply]

/-- Change the row of one entity; an invalid one has none. -/
def modify (r : Registry ρ) (e : Entity) (f : ρ → ρ) : Registry ρ where
  entities := r.entities
  row := Function.update r.row e ((r.row e).map f)
  next := r.next
  nodup := r.nodup
  mem_iff := by
    intro e'
    by_cases he : e' = e
    · simp [he, r.mem_iff]
    · simp [he, r.mem_iff]
  lt_next := r.lt_next

/-- A modification changes the row of one entity. -/
theorem row_modify (r : Registry ρ) (e e' : Entity) (f : ρ → ρ) :
    (r.modify e f).row e' = if e' = e then (r.row e).map f else r.row e' := by
  simp [modify, Function.update_apply]

/-- The rows of the others stay. -/
theorem row_modify_of_ne (r : Registry ρ) {e e' : Entity} (f : ρ → ρ) (h : e' ≠ e) :
    (r.modify e f).row e' = r.row e' := by
  simp [row_modify, h]

/-- Destroy an entity.  It must be valid; {lit}`none` is the violation of that
precondition. -/
def destroy (r : Registry ρ) (e : Entity) : Option (Registry ρ) :=
  if r.valid e then
    some
      { entities := r.entities.erase e
        row := Function.update r.row e none
        next := r.next
        nodup := r.nodup.erase e
        mem_iff := by
          intro e'
          rw [r.nodup.mem_erase_iff, r.mem_iff]
          by_cases he : e' = e
          · simp [he]
          · simp [he]
        lt_next := fun e' he => r.lt_next e' (List.mem_of_mem_erase he) }
  else none

/-- The valid entities are those that can be destroyed. -/
theorem destroy_isSome_iff (r : Registry ρ) (e : Entity) :
    (r.destroy e).isSome ↔ r.valid e := by
  unfold destroy
  split <;> simp_all

/-- A destruction removes the row of the entity and changes no other. -/
theorem row_destroy {r r' : Registry ρ} {e : Entity} (h : r.destroy e = some r')
    (e' : Entity) : r'.row e' = if e' = e then none else r.row e' := by
  unfold destroy at h
  split at h
  · cases h
    simp [Function.update_apply]
  · contradiction

theorem next_destroy {r r' : Registry ρ} {e : Entity} (h : r.destroy e = some r') :
    r'.next = r.next := by
  unfold destroy at h
  split at h
  · cases h
    rfl
  · contradiction

/-- It takes the entity off the list. -/
theorem entities_destroy {r r' : Registry ρ} {e : Entity} (h : r.destroy e = some r') :
    r'.entities = r.entities.erase e := by
  unfold destroy at h
  split at h
  · cases h
    rfl
  · contradiction

/-- Destroy a list of entities one after the other. -/
def destroyAll (r : Registry ρ) : List Entity → Option (Registry ρ)
  | [] => some r
  | e :: es =>
      match r.destroy e with
      | none => none
      | some r' => destroyAll r' es

/-- Every call of a destruction loop meets a valid entity exactly when the
entities are valid at the start and pairwise distinct. -/
theorem destroyAll_isSome_iff (r : Registry ρ) (es : List Entity) :
    (r.destroyAll es).isSome ↔ es.Nodup ∧ ∀ e ∈ es, r.valid e := by
  induction es generalizing r with
  | nil => simp [destroyAll]
  | cons e es ih =>
      cases hdestroy : r.destroy e with
      | none =>
          have hinvalid : ¬ r.valid e := by
            rw [← destroy_isSome_iff, hdestroy]
            simp
          simp [destroyAll, hdestroy, hinvalid]
      | some r' =>
          have hvalid : r.valid e := by
            rw [← destroy_isSome_iff, hdestroy]
            rfl
          have hrest : ∀ e', r'.valid e' ↔ e' ≠ e ∧ r.valid e' := by
            intro e'
            rw [valid, entities_destroy hdestroy, r.nodup.mem_erase_iff]
            rfl
          simp only [destroyAll, hdestroy, ih, hrest, List.nodup_cons, List.mem_cons,
            forall_eq_or_imp]
          constructor
          · rintro ⟨hnodup, hall⟩
            exact ⟨⟨fun hmem => (hall e hmem).1 rfl, hnodup⟩, hvalid,
              fun e' he' => (hall e' he').2⟩
          · rintro ⟨⟨hnotMem, hnodup⟩, _, hall⟩
            exact ⟨hnodup, fun e' he' => ⟨fun heq => hnotMem (heq ▸ he'), hall e' he'⟩⟩

/-- Every entity of a removal list is valid when its turn comes. -/
def RemovesValid (r : Registry ρ) (es : List Entity) : Prop :=
  ∀ pre e post, es = pre ++ e :: post → ∀ r', r.destroyAll pre = some r' → r'.valid e

/-- A removal loop goes through exactly when each of its entities is valid in
turn. -/
theorem destroyAll_isSome_iff_removesValid (r : Registry ρ) (es : List Entity) :
    (r.destroyAll es).isSome ↔ r.RemovesValid es := by
  induction es generalizing r with
  | nil => simp [destroyAll, RemovesValid]
  | cons e es ih =>
      cases hdestroy : r.destroy e with
      | none =>
          have hinvalid : ¬ r.valid e := by
            rw [← destroy_isSome_iff, hdestroy]
            simp
          simp only [destroyAll, hdestroy, Option.isSome_none, Bool.false_eq_true, false_iff]
          exact fun hvalid => hinvalid (hvalid [] e es rfl r rfl)
      | some r₁ =>
          simp only [destroyAll, hdestroy, ih r₁]
          constructor
          · intro hrest pre e' post hsplit r' hpre
            cases pre with
            | nil =>
                simp only [List.nil_append, List.cons.injEq] at hsplit
                simp only [destroyAll, Option.some.injEq] at hpre
                rw [← hsplit.1, ← hpre, ← destroy_isSome_iff, hdestroy]
                rfl
            | cons e₀ pre =>
                simp only [List.cons_append, List.cons.injEq] at hsplit
                rcases hsplit with ⟨rfl, hes⟩
                simp only [destroyAll, hdestroy] at hpre
                exact hrest pre e' post hes r' hpre
          · intro hall pre e' post hsplit r' hpre
            apply hall (e :: pre) e' post (by simp [hsplit]) r'
            simpa only [destroyAll, hdestroy] using hpre

/-- A destruction loop removes the listed rows and no other. -/
theorem row_destroyAll {r r' : Registry ρ} {es : List Entity}
    (h : r.destroyAll es = some r') (e : Entity) :
    r'.row e = if e ∈ es then none else r.row e := by
  induction es generalizing r with
  | nil =>
      simp only [destroyAll, Option.some.injEq] at h
      simp [h]
  | cons d es ih =>
      simp only [destroyAll] at h
      split at h
      · contradiction
      · rename_i r₁ hdestroy
        rw [ih h, row_destroy hdestroy]
        by_cases hd : e = d
        · simp [hd]
        · simp [hd]

theorem next_destroyAll {r r' : Registry ρ} {es : List Entity}
    (h : r.destroyAll es = some r') : r'.next = r.next := by
  induction es generalizing r with
  | nil =>
      simp only [destroyAll, Option.some.injEq] at h
      rw [h]
  | cons d es ih =>
      simp only [destroyAll] at h
      split at h
      · contradiction
      · rename_i r₁ hdestroy
        rw [ih h, next_destroy hdestroy]

/-! ## Views and loops -/

/-- The entities whose row passes the test, in the order of the enumeration. -/
def view (r : Registry ρ) (order : Enumeration ν) (v : ν) (test : ρ → Bool) :
    List Entity :=
  order.arrange v (r.entities.filter fun e => (r.row e).any test)

/-- A view has the entities whose row passes the test. -/
theorem mem_view {r : Registry ρ} {order : Enumeration ν} {v : ν} {test : ρ → Bool}
    {e : Entity} : e ∈ r.view order v test ↔ ∃ x, r.row e = some x ∧ test x = true := by
  rw [view, (order.perm v _).mem_iff, List.mem_filter, r.mem_iff]
  cases r.row e with
  | none => simp
  | some x => simp

/-- A view has every entity once. -/
theorem nodup_view (r : Registry ρ) (order : Enumeration ν) (v : ν) (test : ρ → Bool) :
    (r.view order v test).Nodup :=
  (order.perm v _).nodup_iff.mpr (r.nodup.filter _)

/-- The entities of a view are valid. -/
theorem valid_of_mem_view {r : Registry ρ} {order : Enumeration ν} {v : ν}
    {test : ρ → Bool} {e : Entity} (h : e ∈ r.view order v test) : r.valid e := by
  rcases mem_view.mp h with ⟨x, hx, _⟩
  exact valid_of_row hx

/-- A loop over entities whose body changes the row of the entity it stands on. -/
def each (r : Registry ρ) (es : List Entity) (f : ρ → ρ) : Registry ρ :=
  es.foldl (fun r e => r.modify e f) r

@[simp]
theorem entities_each (r : Registry ρ) (es : List Entity) (f : ρ → ρ) :
    (r.each es f).entities = r.entities := by
  induction es generalizing r with
  | nil => rfl
  | cons e es ih => exact ih (r.modify e f)

@[simp]
theorem next_each (r : Registry ρ) (es : List Entity) (f : ρ → ρ) :
    (r.each es f).next = r.next := by
  induction es generalizing r with
  | nil => rfl
  | cons e es ih => exact ih (r.modify e f)

/-- Over distinct entities the loop changes each listed row once. -/
theorem row_each {es : List Entity} (hnodup : es.Nodup) (r : Registry ρ) (f : ρ → ρ)
    (e : Entity) :
    (r.each es f).row e = if e ∈ es then (r.row e).map f else r.row e := by
  induction es generalizing r with
  | nil => simp [each]
  | cons d es ih =>
      have htail := (List.nodup_cons.mp hnodup).2
      have hd := (List.nodup_cons.mp hnodup).1
      have hstep : (r.each (d :: es) f).row e = ((r.modify d f).each es f).row e := rfl
      rw [hstep, ih htail, row_modify]
      by_cases he : e = d
      · subst he
        simp [hd]
      · simp [he]

/-- A loop over a view whose body is the identity on rows outside the view
applies the body to every row, whatever the enumeration. -/
theorem row_each_view (r : Registry ρ) (order : Enumeration ν) (v : ν) {test : ρ → Bool}
    {f : ρ → ρ} (hf : ∀ x, test x = false → f x = x) (e : Entity) :
    (r.each (r.view order v test) f).row e = (r.row e).map f := by
  rw [row_each (r.nodup_view order v test)]
  split
  · rfl
  · rename_i hmem
    cases hrow : r.row e with
    | none => rfl
    | some x =>
        have hfalse : test x = false := by
          cases htest : test x with
          | false => rfl
          | true => exact absurd (mem_view.mpr ⟨x, hrow, htest⟩) hmem
        simp [hf x hfalse]

/-- One round of a loop whose body changes the row it stands on and may put the
entity on a list for later. -/
def sweepStep (f : ρ → ρ × Bool) (acc : Registry ρ × List Entity) (e : Entity) :
    Registry ρ × List Entity :=
  match acc.1.row e with
  | none => acc
  | some x =>
      (acc.1.modify e (fun x => (f x).1), if (f x).2 then acc.2 ++ [e] else acc.2)

/-- A loop that changes rows and collects entities. -/
def sweep (r : Registry ρ) (es : List Entity) (f : ρ → ρ × Bool) :
    Registry ρ × List Entity :=
  es.foldl (sweepStep f) (r, [])

/-- The sweep with entities collected before. -/
private theorem sweep_from {es : List Entity} (hnodup : es.Nodup) (r : Registry ρ)
    (f : ρ → ρ × Bool) (collected : List Entity) (hvalid : ∀ e ∈ es, r.valid e) :
    es.foldl (sweepStep f) (r, collected) =
      (r.each es (fun x => (f x).1),
        collected ++ es.filter fun e => (r.row e).any fun x => (f x).2) := by
  induction es generalizing r collected with
  | nil => simp [each]
  | cons d es ih =>
      have htail := (List.nodup_cons.mp hnodup).2
      have hd := (List.nodup_cons.mp hnodup).1
      rcases valid_iff_exists_row.mp (hvalid d List.mem_cons_self) with ⟨x, hx⟩
      have hvalid' : ∀ e ∈ es, (r.modify d (fun x => (f x).1)).valid e :=
        fun e he => hvalid e (List.mem_cons_of_mem d he)
      -- the rows of the later entities are untouched by the first modification
      have hfilter : (es.filter fun e =>
            ((r.modify d (fun x => (f x).1)).row e).any fun x => (f x).2) =
          es.filter fun e => (r.row e).any fun x => (f x).2 := by
        apply List.filter_congr
        intro e he
        have hne : e ≠ d := fun heq => hd (heq ▸ he)
        rw [row_modify_of_ne r _ hne]
      simp only [List.foldl_cons, sweepStep, hx]
      rw [ih htail _ _ hvalid', hfilter]
      refine Prod.ext rfl ?_
      cases hflag : (f x).2 <;> simp [hx, hflag]

/-- Over distinct valid entities the sweep is the plain loop together with the
flagged entities in loop order. -/
theorem sweep_eq {es : List Entity} (hnodup : es.Nodup) (r : Registry ρ)
    (f : ρ → ρ × Bool) (hvalid : ∀ e ∈ es, r.valid e) :
    r.sweep es f =
      (r.each es (fun x => (f x).1), es.filter fun e => (r.row e).any fun x => (f x).2) := by
  simpa [sweep] using sweep_from hnodup r f [] hvalid

end Registry

end EntityRegistry
