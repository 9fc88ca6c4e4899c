import GameFramework.Lib.Transition
import Mathlib.Data.List.Nodup
import Mathlib.Data.List.Perm.Basic

/-!
# Ledgers of handles

A system makes things and removes them.  The things are numbered in the order in which they are
made, and each event may make one or remove one.  If every step keeps the books, so does every
run: the numbers are consecutive, nothing is removed before it was made or twice, and what is
live is what was made and not removed.

The number of a thing is not its handle.  Which handle a thing gets is up to the system, which
may use a handle again once it is not in use any more: {lit}`FreshWhenIssued` is all that is
asked of it.

Main results:

- Definition {lit}`Ledger`: the books between two states.
- Theorem {lit}`Ledger.trans`: books that follow each other.
- Theorem {lit}`System.ledger_of_run`: the books of a run.
- Theorem {lit}`Ledger.perm`: what was live and what was made is what is live and what was
  removed.
- Theorem {lit}`Ledger.nodup_map`: handles that are not in use when they are issued stay
  distinct.
-/

namespace Labelled

variable {σ ℓ ε : Type*}

/-- How a system counts its things: which are live, which number is next, and what the events
make and remove. -/
structure Books (σ ε : Type*) where
  live : σ → List ℕ
  next : σ → ℕ
  issues : ε → Option ℕ
  releases : ε → Option ℕ
  nodup_live : ∀ s, (live s).Nodup
  lt_next : ∀ s, ∀ n ∈ live s, n < next s

namespace Books

variable (B : Books σ ε)

/-- What a history makes. -/
def issued (h : List ε) : List ℕ :=
  h.filterMap B.issues

/-- What a history removes. -/
def released (h : List ε) : List ℕ :=
  h.filterMap B.releases

/-- What is live after a history. -/
def LiveAfter (s : σ) (h : List ε) (n : ℕ) : Prop :=
  (n ∈ B.live s ∨ n ∈ B.issued h) ∧ n ∉ B.released h

theorem issued_append (h h' : List ε) : B.issued (h ++ h') = B.issued h ++ B.issued h' :=
  List.filterMap_append

theorem released_append (h h' : List ε) :
    B.released (h ++ h') = B.released h ++ B.released h' :=
  List.filterMap_append

variable {B} in
theorem mem_released {pre post : List ε} {e : ε} {n : ℕ} (hn : B.releases e = some n) :
    n ∈ B.released (pre ++ e :: post) :=
  List.mem_filterMap.mpr ⟨e, by simp, hn⟩

/-- The books between two states. -/
structure Ledger (s t : σ) (h : List ε) : Prop where
  issued_eq : B.issued h = List.range' (B.next s) (B.issued h).length
  next_eq : B.next t = B.next s + (B.issued h).length
  nodup : (B.released h).Nodup
  released_before : ∀ pre e post n, h = pre ++ e :: post → B.releases e = some n →
    n ∈ B.live s ∨ n ∈ B.issued pre
  live_iff : ∀ n, n ∈ B.live t ↔ B.LiveAfter s h n

namespace Ledger

variable {B} {s t u : σ} {h h' : List ε}

theorem refl (s : σ) : B.Ledger s s [] where
  issued_eq := rfl
  next_eq := rfl
  nodup := List.nodup_nil
  released_before := by simp
  live_iff n := by simp [LiveAfter, issued, released]

/-- The numbers of what was made are those between the two next ones. -/
theorem mem_issued_iff (hbooks : B.Ledger s t h) {n : ℕ} :
    n ∈ B.issued h ↔ B.next s ≤ n ∧ n < B.next t := by
  rw [hbooks.issued_eq, List.mem_range'_1, hbooks.next_eq]

/-- What is removed was live before or was made. -/
theorem released_mem (hbooks : B.Ledger s t h) {n : ℕ} (hn : n ∈ B.released h) :
    n ∈ B.live s ∨ n ∈ B.issued h := by
  rcases List.mem_filterMap.mp hn with ⟨e, he, hrelease⟩
  rcases List.append_of_mem he with ⟨pre, post, rfl⟩
  refine (hbooks.released_before pre e post n rfl hrelease).imp_right fun hissued => ?_
  rw [B.issued_append]
  exact List.mem_append_left _ hissued

/-- What is removed is live at that moment. -/
theorem liveAfter_of_releases (hbooks : B.Ledger s t h) {pre post : List ε} {e : ε} {n : ℕ}
    (hsplit : h = pre ++ e :: post) (hn : B.releases e = some n) : B.LiveAfter s pre n := by
  refine ⟨hbooks.released_before pre e post n hsplit hn, fun hbefore => ?_⟩
  have hnodup := hbooks.nodup
  rw [hsplit, B.released_append] at hnodup
  have hafter : n ∈ B.released ([] ++ e :: post) := mem_released hn
  exact (List.nodup_append'.mp hnodup).2.2 hbefore hafter

/-- What is removed is not removed again. -/
theorem not_mem_released (hbooks : B.Ledger s t h) (hbooks' : B.Ledger t u h') {n : ℕ}
    (hn : n ∈ B.released h) : n ∉ B.released h' := by
  intro hn'
  have hlt : n < B.next t := by
    rcases hbooks.released_mem hn with hlive | hissued
    · have hlt := B.lt_next s n hlive
      have hnext := hbooks.next_eq
      omega
    · exact (hbooks.mem_issued_iff.mp hissued).2
  rcases hbooks'.released_mem hn' with hlive | hissued
  · exact ((hbooks.live_iff n).mp hlive).2 hn
  · have hle := (hbooks'.mem_issued_iff.mp hissued).1
    omega

/-- Books that follow each other. -/
theorem trans (hbooks : B.Ledger s t h) (hbooks' : B.Ledger t u h') :
    B.Ledger s u (h ++ h') where
  issued_eq := by
    rw [B.issued_append, List.length_append, ← List.range'_append_1, ← hbooks.issued_eq,
      ← hbooks.next_eq, ← hbooks'.issued_eq]
  next_eq := by
    rw [hbooks'.next_eq, hbooks.next_eq, B.issued_append, List.length_append, Nat.add_assoc]
  nodup := by
    rw [B.released_append]
    exact hbooks.nodup.append hbooks'.nodup fun _ hn hn' => hbooks.not_mem_released hbooks' hn hn'
  released_before pre e post n hsplit hn := by
    rcases List.append_eq_append_iff.mp hsplit with ⟨mid, rfl, hlater⟩ | ⟨mid, rfl, hmid⟩
    · rcases hbooks'.released_before mid e post n hlater hn with hlive | hissued
      · rw [B.issued_append, List.mem_append]
        exact ((hbooks.live_iff n).mp hlive).1.imp_right Or.inl
      · rw [B.issued_append]
        exact Or.inr (List.mem_append_right _ hissued)
    · cases mid with
      | nil =>
          rw [List.append_nil] at hbooks
          rcases hbooks'.released_before [] e post n hmid.symm hn with hlive | hissued
          · exact ((hbooks.live_iff n).mp hlive).1
          · cases hissued
      | cons e' mid =>
          cases hmid
          exact hbooks.released_before pre e mid n rfl hn
  live_iff n := by
    rw [hbooks'.live_iff, LiveAfter, LiveAfter, hbooks.live_iff, LiveAfter, B.issued_append,
      B.released_append, List.mem_append, List.mem_append]
    constructor
    · rintro ⟨⟨hlive, hkept⟩ | hissued, hkept'⟩
      · exact ⟨hlive.imp_right Or.inl, fun hn => hn.elim hkept hkept'⟩
      · -- what is made now was not there to be removed before
        refine ⟨Or.inr (Or.inr hissued), fun hn => hn.elim (fun hn => ?_) hkept'⟩
        have hle := (hbooks'.mem_issued_iff.mp hissued).1
        rcases hbooks.released_mem hn with hlive | hissued'
        · have hlt := B.lt_next s n hlive
          have hnext := hbooks.next_eq
          omega
        · have hlt := (hbooks.mem_issued_iff.mp hissued').2
          omega
    · rintro ⟨hlive | hissued | hissued, hkept⟩
      · exact ⟨Or.inl ⟨Or.inl hlive, fun hn => hkept (Or.inl hn)⟩, fun hn => hkept (Or.inr hn)⟩
      · exact ⟨Or.inl ⟨Or.inr hissued, fun hn => hkept (Or.inl hn)⟩, fun hn => hkept (Or.inr hn)⟩
      · exact ⟨Or.inr hissued, fun hn => hkept (Or.inr hn)⟩

/-- What is live and what was removed make up what was live before and what was made. -/
theorem perm (hbooks : B.Ledger s t h) :
    List.Perm (B.live t ++ B.released h) (B.live s ++ B.issued h) := by
  have hissued : (B.issued h).Nodup := by
    rw [hbooks.issued_eq]
    exact List.nodup_range'
  refine (List.perm_ext_iff_of_nodup ?_ ?_).mpr fun n => ?_
  · exact (B.nodup_live t).append hbooks.nodup fun n hlive => ((hbooks.live_iff n).mp hlive).2
  · refine (B.nodup_live s).append hissued fun n hlive hn => ?_
    have hlt := B.lt_next s n hlive
    have hle := (hbooks.mem_issued_iff.mp hn).1
    omega
  · rw [List.mem_append, List.mem_append, hbooks.live_iff]
    constructor
    · rintro (⟨hn, _⟩ | hn)
      · exact hn
      · exact hbooks.released_mem hn
    · intro hn
      by_cases hreleased : n ∈ B.released h
      · exact Or.inr hreleased
      · exact Or.inl ⟨hn, hreleased⟩

end Ledger

/-! ## Handles -/

section Handles

variable {H : Type*} (handle : ℕ → H)

/-- No handle is issued while it is in use. -/
def FreshWhenIssued (s : σ) (h : List ε) : Prop :=
  ∀ pre e post n, h = pre ++ e :: post → B.issues e = some n →
    ∀ m, B.LiveAfter s pre m → handle m ≠ handle n

variable {B handle} {s t : σ} {h : List ε}

/-- What is live after one more event was live before, or the event has made it. -/
theorem LiveAfter.of_concat {e : ε} {n : ℕ} (hlive : B.LiveAfter s (h ++ [e]) n) :
    B.LiveAfter s h n ∨ B.issues e = some n := by
  rcases hlive with ⟨hmem, hkept⟩
  rw [B.issued_append, List.mem_append] at hmem
  rw [B.released_append, List.mem_append, not_or] at hkept
  rcases hmem with hmem | hmem | hmem
  · exact Or.inl ⟨Or.inl hmem, hkept.1⟩
  · exact Or.inl ⟨Or.inr hmem, hkept.1⟩
  · rcases List.mem_filterMap.mp hmem with ⟨e', he', hissues⟩
    rw [List.mem_singleton.mp he'] at hissues
    exact Or.inr hissues

theorem freshWhenIssued_nil : B.FreshWhenIssued handle s [] := by
  simp [FreshWhenIssued]

/-- A history that is fresh up to its last event, and then this event issues no handle in use. -/
theorem freshWhenIssued_concat {e : ε} :
    B.FreshWhenIssued handle s (h ++ [e]) ↔ B.FreshWhenIssued handle s h ∧
      ∀ n, B.issues e = some n → ∀ m, B.LiveAfter s h m → handle m ≠ handle n := by
  constructor
  · intro hfresh
    refine ⟨fun pre e' post n hsplit => ?_, fun n => hfresh h e [] n rfl⟩
    exact hfresh pre e' (post ++ [e]) n (by rw [hsplit, List.append_assoc, List.cons_append])
  · rintro ⟨hbefore, hlast⟩ pre e' post n hsplit
    rcases List.eq_nil_or_concat post with rfl | ⟨post, e'', rfl⟩
    · rcases List.append_inj' hsplit rfl with ⟨rfl, heq⟩
      cases heq
      exact hlast n
    · rw [List.concat_eq_append, ← List.cons_append, ← List.append_assoc] at hsplit
      exact hbefore pre e' post n (List.append_inj' hsplit rfl).1

/-- Distinct handles stay distinct if none is issued while it is in use. -/
theorem FreshWhenIssued.inj (hfresh : B.FreshWhenIssued handle s h)
    (hdistinct : ((B.live s).map handle).Nodup) {m n : ℕ} (hm : B.LiveAfter s h m)
    (hn : B.LiveAfter s h n) (heq : handle m = handle n) : m = n := by
  -- on the events of the history, one after the other
  induction h using List.reverseRecOn with
  | nil =>
      have hinj := List.inj_on_of_nodup_map hdistinct
      exact hinj (by simpa [LiveAfter, issued, released] using hm)
        (by simpa [LiveAfter, issued, released] using hn) heq
  | append_singleton h e ih =>
      rcases freshWhenIssued_concat.mp hfresh with ⟨hbefore, hnew⟩
      rcases LiveAfter.of_concat hm with hm | hm <;> rcases LiveAfter.of_concat hn with hn | hn
      · exact ih hbefore hm hn
      · exact absurd heq (hnew n hn m hm)
      · exact absurd heq.symm (hnew m hm n hn)
      · rw [hm, Option.some.injEq] at hn
        exact hn

/-- What is live has distinct handles if none is issued while it is in use. -/
theorem Ledger.nodup_map (hbooks : B.Ledger s t h) (hfresh : B.FreshWhenIssued handle s h)
    (hdistinct : ((B.live s).map handle).Nodup) : ((B.live t).map handle).Nodup :=
  (B.nodup_live t).map_on fun m hm n hn heq =>
    hfresh.inj hdistinct ((hbooks.live_iff m).mp hm) ((hbooks.live_iff n).mp hn) heq

/-- Handles in use and handles given back make up those that were in use and those issued. -/
theorem Ledger.perm_map (hbooks : B.Ledger s t h) (handle : ℕ → H) :
    List.Perm ((B.live t).map handle ++ (B.released h).map handle)
      ((B.live s).map handle ++ (B.issued h).map handle) := by
  rw [← List.map_append, ← List.map_append]
  exact hbooks.perm.map handle

end Handles

end Books

/-- If every step keeps the books, every run does. -/
theorem System.ledger_of_run (M : System σ ℓ ε) {B : Books σ ε}
    (hstep : ∀ s l t out, M.step s l = some (t, out) → B.Ledger s t out) {s t : σ} {ls : List ℓ}
    {h : List ε} (hrun : M.run s ls = some (t, h)) : B.Ledger s t h := by
  induction ls generalizing s h with
  | nil =>
      cases hrun
      exact Books.Ledger.refl _
  | cons l ls ih =>
      rcases (M.run_cons_eq_some).mp hrun with ⟨v, out, rest, hl, hrest, rfl⟩
      exact (hstep s l v out hl).trans (ih hrest)

end Labelled
