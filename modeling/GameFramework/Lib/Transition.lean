import Mathlib.Data.List.Induction
import Mathlib.Data.Option.Basic

/-!
# Labelled systems with recorded output

A program that reacts to its environment is modelled as a deterministic step
function: the label carries everything the environment decides, `none` means
that the label is not possible in that state, and every step may record output
events.  A run is a list of labels; its history is the concatenation of the
recorded outputs.

Main results:

- Theorem {lit}`System.run_append`: runs compose, and so do their histories.
- Theorem {lit}`System.run_invariant`: a property of state and history that every
  step keeps holds at the end of every run.
- Theorem {lit}`System.forall_states_iff`: the exact condition on the steps of a run for a
  property of all its states.
- Theorem {lit}`System.exists_step_of_mem_history`: every recorded event has one
  step of the run that recorded it.
- Theorem {lit}`System.forall_mem_history_iff`: what holds of all events of a history is
  what every step guarantees of the events it records.
- Theorem {lit}`System.run_isSome_iff`: a run goes through exactly when each of
  its steps is possible where it is taken.
- Theorem {lit}`System.mem_gather_of_prefix`: what is read off the labels of a run.
-/

namespace Labelled

/-- A deterministic system that reads labels and records events. -/
structure System (σ ℓ ε : Type*) where
  step : σ → ℓ → Option (σ × List ε)

namespace System

variable {σ ℓ ε : Type*} (M : System σ ℓ ε)

/-- Execute a list of labels, collecting the events of all steps in order. -/
def run (s : σ) : List ℓ → Option (σ × List ε)
  | [] => some (s, [])
  | l :: ls =>
      match M.step s l with
      | none => none
      | some (t, out) =>
          match run t ls with
          | none => none
          | some (u, rest) => some (u, out ++ rest)

@[simp]
theorem run_nil (s : σ) : M.run s [] = some (s, []) :=
  rfl

/-- A nonempty run is its first step followed by a run of the other labels. -/
theorem run_cons_eq_some {s u : σ} {l : ℓ} {ls : List ℓ} {h : List ε} :
    M.run s (l :: ls) = some (u, h) ↔
      ∃ t out rest, M.step s l = some (t, out) ∧ M.run t ls = some (u, rest) ∧
        h = out ++ rest := by
  constructor
  · intro hrun
    simp only [run] at hrun
    split at hrun
    · contradiction
    · rename_i t out hstep
      split at hrun
      · contradiction
      · rename_i v rest htail
        cases hrun
        exact ⟨t, out, rest, hstep, htail, rfl⟩
  · rintro ⟨t, out, rest, hstep, htail, rfl⟩
    simp only [run, hstep, htail]

/-- A run of one label is that step. -/
theorem run_singleton {s u : σ} {l : ℓ} {h : List ε} :
    M.run s [l] = some (u, h) ↔ M.step s l = some (u, h) := by
  rw [run_cons_eq_some]
  constructor
  · rintro ⟨t, out, rest, hstep, htail, rfl⟩
    simp only [run_nil, Option.some.injEq, Prod.mk.injEq] at htail
    rcases htail with ⟨rfl, rfl⟩
    simpa using hstep
  · intro hstep
    exact ⟨u, h, [], hstep, rfl, by simp⟩

/-- A run over a concatenation is a run of the prefix followed by one of the
suffix, and the histories concatenate. -/
theorem run_append {s u : σ} {ls ms : List ℓ} {h : List ε} :
    M.run s (ls ++ ms) = some (u, h) ↔
      ∃ t h₁ h₂, M.run s ls = some (t, h₁) ∧ M.run t ms = some (u, h₂) ∧
        h = h₁ ++ h₂ := by
  induction ls generalizing s h with
  | nil =>
      constructor
      · intro hrun
        exact ⟨s, [], h, rfl, hrun, rfl⟩
      · rintro ⟨t, h₁, h₂, hnil, hrun, rfl⟩
        simp only [run_nil, Option.some.injEq, Prod.mk.injEq] at hnil
        rcases hnil with ⟨rfl, rfl⟩
        exact hrun
  | cons l ls ih =>
      rw [List.cons_append, run_cons_eq_some]
      constructor
      · rintro ⟨v, out, rest, hstep, hrun, rfl⟩
        rcases ih.mp hrun with ⟨t, h₁, h₂, hls, hms, rfl⟩
        exact ⟨t, out ++ h₁, h₂, (run_cons_eq_some M).mpr ⟨v, out, h₁, hstep, hls, rfl⟩,
          hms, (List.append_assoc _ _ _).symm⟩
      · rintro ⟨t, h₁, h₂, hls, hms, rfl⟩
        rcases (run_cons_eq_some M).mp hls with ⟨v, out, rest, hstep, htail, rfl⟩
        exact ⟨v, out, rest ++ h₂, hstep, ih.mpr ⟨t, rest, h₂, htail, hms, rfl⟩,
          List.append_assoc _ _ _⟩

/-- A run extended by one label. -/
theorem run_concat {s t u : σ} {ls : List ℓ} {l : ℓ} {h out : List ε}
    (hrun : M.run s ls = some (t, h)) (hstep : M.step t l = some (u, out)) :
    M.run s (ls ++ [l]) = some (u, h ++ out) :=
  (run_append M).mpr ⟨t, h, out, hrun, (run_singleton M).mpr hstep, rfl⟩

/-- A run over a split label list passes through the state before the middle
label, takes that step, and goes on. -/
theorem run_split {s u : σ} {pre post : List ℓ} {l : ℓ} {h : List ε} :
    M.run s (pre ++ l :: post) = some (u, h) ↔
      ∃ t v h₁ out h₂, M.run s pre = some (t, h₁) ∧ M.step t l = some (v, out) ∧
        M.run v post = some (u, h₂) ∧ h = h₁ ++ out ++ h₂ := by
  rw [run_append]
  constructor
  · rintro ⟨t, h₁, h₂, hpre, hrest, rfl⟩
    rcases (run_cons_eq_some M).mp hrest with ⟨v, out, rest, hstep, hpost, rfl⟩
    exact ⟨t, v, h₁, out, rest, hpre, hstep, hpost, (List.append_assoc _ _ _).symm⟩
  · rintro ⟨t, v, h₁, out, h₂, hpre, hstep, hpost, rfl⟩
    exact ⟨t, h₁, out ++ h₂, hpre,
      (run_cons_eq_some M).mpr ⟨v, out, h₂, hstep, hpost, rfl⟩, List.append_assoc _ _ _⟩

/-- A run whose state before a label is known goes on from there. -/
theorem run_split_of_prefix {s t u : σ} {pre post : List ℓ} {l : ℓ} {h h₁ : List ε}
    (hrun : M.run s (pre ++ l :: post) = some (u, h)) (hpre : M.run s pre = some (t, h₁)) :
    ∃ v out h₂, M.step t l = some (v, out) ∧ M.run v post = some (u, h₂) ∧
      h = h₁ ++ out ++ h₂ := by
  rcases (run_split M).mp hrun with ⟨t', v, h₁', out, h₂, hpre', hstep, hpost, hsplit⟩
  rw [hpre] at hpre'
  cases hpre'
  exact ⟨v, out, h₂, hstep, hpost, hsplit⟩

/-! ## Invariants of runs -/

/-- The induction rule over runs that start anywhere: a property of the state
and of the history so far, once kept by every step, is kept by every run. -/
theorem run_invariant_from (Inv : σ → List ε → Prop)
    (hstep : ∀ s h l t out, Inv s h → M.step s l = some (t, out) → Inv t (h ++ out))
    {s u : σ} {ls : List ℓ} {h₀ h : List ε}
    (hstart : Inv s h₀) (hrun : M.run s ls = some (u, h)) : Inv u (h₀ ++ h) := by
  induction ls generalizing s h₀ h with
  | nil =>
      simp only [run_nil, Option.some.injEq, Prod.mk.injEq] at hrun
      rcases hrun with ⟨rfl, rfl⟩
      simpa using hstart
  | cons l ls ih =>
      rcases (run_cons_eq_some M).mp hrun with ⟨t, out, rest, hl, hls, rfl⟩
      rw [← List.append_assoc]
      exact ih (hstep s h₀ l t out hstart hl) hls

/-- The induction rule over whole runs. -/
theorem run_invariant (Inv : σ → List ε → Prop) {s u : σ} {ls : List ℓ} {h : List ε}
    (hinit : Inv s [])
    (hstep : ∀ s h l t out, Inv s h → M.step s l = some (t, out) → Inv t (h ++ out))
    (hrun : M.run s ls = some (u, h)) : Inv u h := by
  simpa using M.run_invariant_from Inv hstep hinit hrun

/-- The induction rule when the steps may rely on a side condition that the run
guarantees for every label at the state where it is taken. -/
theorem run_invariant_of_steps (Inv : σ → List ε → Prop) (Ok : σ → List ε → ℓ → Prop)
    {s u : σ} {ls : List ℓ} {h : List ε} (hinit : Inv s [])
    (hstep : ∀ s h l t out, Inv s h → Ok s h l → M.step s l = some (t, out) →
      Inv t (h ++ out))
    (hok : ∀ pre l post, ls = pre ++ l :: post → ∀ t h', M.run s pre = some (t, h') →
      Ok t h' l)
    (hrun : M.run s ls = some (u, h)) : Inv u h := by
  induction ls using List.reverseRecOn generalizing u h with
  | nil =>
      simp only [run_nil, Option.some.injEq, Prod.mk.injEq] at hrun
      rcases hrun with ⟨rfl, rfl⟩
      exact hinit
  | append_singleton ls l ih =>
      rcases (run_append M).mp hrun with ⟨t, h₁, h₂, hls, hl, rfl⟩
      have hprefix : Inv t h₁ := by
        refine ih ?_ hls
        intro pre l' post hsplit
        exact hok pre l' (post ++ [l]) (by simp [hsplit])
      exact hstep t h₁ l u h₂ hprefix (hok ls l [] rfl t h₁ hls) ((run_singleton M).mp hl)

/-- A condition on the steps of a run, step by step. -/
theorem forall_steps_cons (Ok : σ → ℓ → Prop) {s v : σ} {l : ℓ} {ls : List ℓ} {out : List ε}
    (hl : M.step s l = some (v, out)) (hok : Ok s l)
    (hls : ∀ pre l' post, ls = pre ++ l' :: post → ∀ t h, M.run v pre = some (t, h) → Ok t l') :
    ∀ pre l' post, l :: ls = pre ++ l' :: post → ∀ t h, M.run s pre = some (t, h) → Ok t l' := by
  intro pre l' post hsplit t h hpre
  cases pre with
  | nil =>
      rw [List.nil_append, List.cons.injEq] at hsplit
      rw [run_nil, Option.some.injEq, Prod.mk.injEq] at hpre
      rw [← hsplit.1, ← hpre.1]
      exact hok
  | cons l₀ pre =>
      rw [List.cons_append, List.cons.injEq] at hsplit
      rcases hsplit with ⟨rfl, rfl⟩
      rcases (run_cons_eq_some M).mp hpre with ⟨v', out', rest, hl', hrest, rfl⟩
      rw [hl] at hl'
      cases hl'
      exact hls pre l' post rfl t rest hrest

/-- A condition on the steps of a run, tested one step after the other. -/
def check (Ok : σ → ℓ → Prop) [∀ s l, Decidable (Ok s l)] (s : σ) : List ℓ → Bool
  | [] => true
  | l :: ls =>
      decide (Ok s l) &&
        match M.step s l with
        | none => true
        | some (t, _) => check Ok t ls

/-- A condition that passes the test holds of every step. -/
theorem forall_steps_of_check {Ok : σ → ℓ → Prop} [∀ s l, Decidable (Ok s l)] {s : σ}
    {ls : List ℓ} (hcheck : M.check Ok s ls = true) :
    ∀ pre l post, ls = pre ++ l :: post → ∀ t h, M.run s pre = some (t, h) → Ok t l := by
  induction ls generalizing s with
  | nil => simp
  | cons l ls ih =>
      rw [check, Bool.and_eq_true, decide_eq_true_eq] at hcheck
      cases hl : M.step s l with
      | none =>
          intro pre l' post hsplit t h hpre
          cases pre with
          | nil =>
              cases hpre
              cases hsplit
              exact hcheck.1
          | cons l₀ pre =>
              rw [List.cons_append, List.cons.injEq] at hsplit
              rw [run, ← hsplit.1, hl] at hpre
              contradiction
      | some p =>
          rw [hl] at hcheck
          exact M.forall_steps_cons Ok hl hcheck.1 (ih hcheck.2)

/-- The exact condition for a property of all states of a run: a step that meets it
keeps an invariant that has the property, and a step that does not ends in a state
without the property. -/
theorem forall_states_iff (Inv : σ → List ε → Prop) (Ok : σ → ℓ → Prop) (Good : σ → Prop)
    {s u : σ} {ls : List ℓ} {h : List ε} (hinit : Inv s [])
    (hstep : ∀ t h l v out, Inv t h → Ok t l → M.step t l = some (v, out) → Inv v (h ++ out))
    (hgood : ∀ t h, Inv t h → Good t)
    (hok : ∀ pre t h l v out, M.run s pre = some (t, h) → M.step t l = some (v, out) →
      Good v → Ok t l)
    (hrun : M.run s ls = some (u, h)) :
    (∀ pre post, ls = pre ++ post → ∀ t h', M.run s pre = some (t, h') → Good t) ↔
      ∀ pre l post, ls = pre ++ l :: post → ∀ t h', M.run s pre = some (t, h') → Ok t l := by
  constructor
  · intro hall pre l post hsplit t h' hpre
    rw [hsplit] at hrun
    rcases M.run_split_of_prefix hrun hpre with ⟨v, out, _, hl, _, _⟩
    refine hok pre t h' l v out hpre hl ?_
    exact hall (pre ++ [l]) post (by simp [hsplit]) v (h' ++ out) (M.run_concat hpre hl)
  · intro hmet pre post hsplit t h' hpre
    refine hgood t h' (M.run_invariant_of_steps Inv (fun t _ l => Ok t l) hinit hstep ?_ hpre)
    intro pre' l post' hsplit' t' h'' hpre'
    exact hmet pre' l (post' ++ post) (by simp [hsplit, hsplit']) t' h'' hpre'

/-! ## Histories and enabledness -/

/-- Every event of a history was recorded by one step of the run; the history
before it is the history of the run up to that step and what that step recorded
earlier. -/
theorem exists_step_of_mem_history {s u : σ} {ls : List ℓ} {a b : List ε} {e : ε}
    (hrun : M.run s ls = some (u, a ++ e :: b)) :
    ∃ pre l post t v h out₁ out₂, ls = pre ++ l :: post ∧ M.run s pre = some (t, h) ∧
      M.step t l = some (v, out₁ ++ e :: out₂) ∧ a = h ++ out₁ := by
  induction ls generalizing s a with
  | nil =>
      simp only [run_nil, Option.some.injEq, Prod.mk.injEq] at hrun
      simp at hrun
  | cons l ls ih =>
      rcases (run_cons_eq_some M).mp hrun with ⟨t, out, rest, hl, hls, hsplit⟩
      rcases List.append_eq_append_iff.mp hsplit with ⟨c, hout, htail⟩ | ⟨c, ha, hrest⟩
      · -- the event is recorded by the first step unless `c` is empty
        cases c with
        | nil =>
            simp only [List.append_nil, List.nil_append] at hout htail
            rcases ih (a := []) (by rw [hls, ← htail]; rfl) with
              ⟨pre, l', post, t', v, h, out₁, out₂, hpre, hrunpre, hstep, hnil⟩
            refine ⟨l :: pre, l', post, t', v, out ++ h, out₁, out₂, by simp [hpre],
              (run_cons_eq_some M).mpr ⟨t, out, h, hl, hrunpre, rfl⟩, hstep, ?_⟩
            rw [List.append_assoc, ← hnil, List.append_nil, hout]
        | cons e' c =>
            simp only [List.cons_append, List.cons.injEq] at htail
            rcases htail with ⟨rfl, hb⟩
            exact ⟨[], l, ls, s, t, [], a, c, rfl, rfl, hout ▸ hl, rfl⟩
      · rcases ih (a := c) (by rw [hls, hrest]) with
          ⟨pre, l', post, t', v, h, out₁, out₂, hpre, hrunpre, hstep, hc⟩
        exact ⟨l :: pre, l', post, t', v, out ++ h, out₁, out₂, by simp [hpre],
          (run_cons_eq_some M).mpr ⟨t, out, h, hl, hrunpre, rfl⟩, hstep, by
            rw [ha, hc, List.append_assoc]⟩

/-- An event of a history was recorded by a step of the run. -/
theorem exists_step_of_mem {s u : σ} {ls : List ℓ} {h : List ε} {e : ε}
    (hrun : M.run s ls = some (u, h)) (he : e ∈ h) :
    ∃ pre l post t v h' out, ls = pre ++ l :: post ∧ M.run s pre = some (t, h') ∧
      M.step t l = some (v, out) ∧ e ∈ out := by
  rcases List.append_of_mem he with ⟨a, b, rfl⟩
  rcases exists_step_of_mem_history M hrun with
    ⟨pre, l, post, t, v, h', out₁, out₂, hsplit, hpre, hstep, _⟩
  exact ⟨pre, l, post, t, v, h', _, hsplit, hpre, hstep,
    List.mem_append_right out₁ List.mem_cons_self⟩

/-- A property of events holds throughout a history exactly when every step of the
run records only such events. -/
theorem forall_mem_history_iff (P : ε → Prop) {s u : σ} {ls : List ℓ} {h : List ε}
    (hrun : M.run s ls = some (u, h)) :
    (∀ e ∈ h, P e) ↔
      ∀ pre l post, ls = pre ++ l :: post → ∀ t h' v out, M.run s pre = some (t, h') →
        M.step t l = some (v, out) → ∀ e ∈ out, P e := by
  constructor
  · intro hall pre l post hsplit t h' v out hpre hstep e he
    rw [hsplit] at hrun
    rcases M.run_split_of_prefix hrun hpre with ⟨v', out', h₂, hstep', _, rfl⟩
    rw [hstep] at hstep'
    cases hstep'
    exact hall e (List.mem_append_left h₂ (List.mem_append_right h' he))
  · intro hsteps e he
    rcases M.exists_step_of_mem hrun he with
      ⟨pre, l, post, t, v, h', out, hsplit, hpre, hstep, hmem⟩
    exact hsteps pre l post hsplit t h' v out hpre hstep e hmem

/-- A run goes through exactly when every label is possible in the state that
the labels before it lead to. -/
theorem run_isSome_iff (s : σ) (ls : List ℓ) :
    (M.run s ls).isSome ↔
      ∀ pre l post, ls = pre ++ l :: post → ∀ t h, M.run s pre = some (t, h) →
        (M.step t l).isSome := by
  induction ls using List.reverseRecOn with
  | nil => simp
  | append_singleton ls l ih =>
      constructor
      · intro hsome pre l' post hsplit t h hpre
        rcases Option.isSome_iff_exists.mp hsome with ⟨⟨u, h'⟩, hrun⟩
        rw [hsplit] at hrun
        rcases (run_split M).mp hrun with ⟨t', v, h₁, out, h₂, hpre', hstep, _, _⟩
        rw [hpre] at hpre'
        cases hpre'
        simp [hstep]
      · intro hsteps
        have hls : (M.run s ls).isSome := by
          refine ih.mpr fun pre l' post hsplit => ?_
          exact hsteps pre l' (post ++ [l]) (by simp [hsplit])
        rcases Option.isSome_iff_exists.mp hls with ⟨⟨t, h⟩, hrun⟩
        rcases Option.isSome_iff_exists.mp (hsteps ls l [] rfl t h hrun) with ⟨⟨u, out⟩, hl⟩
        simp [M.run_concat hrun hl]

/-! ## Costs -/

/-- What the labels of a run cost in the states where they are taken. -/
def tally (cost : σ → ℓ → ℕ) (s : σ) : List ℓ → ℕ
  | [] => 0
  | l :: ls =>
      match M.step s l with
      | none => 0
      | some (t, _) => cost s l + tally cost t ls

/-- The cost of a run extended by one label. -/
theorem tally_concat (cost : σ → ℓ → ℕ) {s t : σ} {ls : List ℓ} {h : List ε}
    (hrun : M.run s ls = some (t, h)) {l : ℓ} (hl : (M.step t l).isSome) :
    M.tally cost s (ls ++ [l]) = M.tally cost s ls + cost t l := by
  induction ls generalizing s h with
  | nil =>
      cases hrun
      rcases Option.isSome_iff_exists.mp hl with ⟨⟨u, out⟩, hstep⟩
      simp [tally, hstep]
  | cons l' ls ih =>
      rcases (run_cons_eq_some M).mp hrun with ⟨v, out, rest, hstep, htail, _⟩
      simp only [List.cons_append, tally, hstep]
      rw [ih htail, Nat.add_assoc]

/-! ## Readings -/

/-- What is read off the labels of a run, each in the state where it is taken. -/
def gather {α : Type*} (read : σ → ℓ → Option α) (s : σ) : List ℓ → List α
  | [] => []
  | l :: ls =>
      (read s l).toList ++
        match M.step s l with
        | none => []
        | some (t, _) => gather read t ls

/-- What is read off one label of a run is gathered. -/
theorem mem_gather_of_prefix {α : Type*} {read : σ → ℓ → Option α} {s t : σ} {pre post : List ℓ}
    {l : ℓ} {h : List ε} (hpre : M.run s pre = some (t, h)) {a : α} (ha : read t l = some a) :
    a ∈ M.gather read s (pre ++ l :: post) := by
  induction pre generalizing s h with
  | nil =>
      cases hpre
      exact List.mem_append_left _ (by simp [ha])
  | cons l' pre ih =>
      rcases (run_cons_eq_some M).mp hpre with ⟨v, out, rest, hstep, htail, _⟩
      simp only [List.cons_append, gather, hstep]
      exact List.mem_append_right _ (ih htail)

/-- What is read off the labels of a run stays there when the run goes on. -/
theorem mem_gather_append {α : Type*} {read : σ → ℓ → Option α} {s : σ} {pre post : List ℓ} {a : α}
    (ha : a ∈ M.gather read s pre) : a ∈ M.gather read s (pre ++ post) := by
  induction pre generalizing s with
  | nil => cases ha
  | cons l pre ih =>
      rcases List.mem_append.mp ha with hhere | hlater
      · exact List.mem_append_left _ hhere
      · refine List.mem_append_right _ ?_
        cases hstep : M.step s l with
        | none =>
            simp only [hstep] at hlater
            cases hlater
        | some p =>
            simp only [hstep] at hlater
            exact ih hlater

end System

end Labelled
