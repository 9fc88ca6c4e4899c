import GameFramework.Lib.Transition
import Mathlib.Data.List.Perm.Basic
import Mathlib.Data.Sum.Basic
import Mathlib.Logic.Function.Basic

/-!
# Parties joined by channels

Labelled systems side by side, a family of them, and a system whose events put
messages on channels from which some of its labels are taken.  A label that takes a
message is not chosen freely: the environment only decides which message of which
channel is next, and the label is made of it.  Channels that keep the order of their
messages are a condition on the choices of the environment.

Every composition projects onto its parts: a run of the whole is a run of each
part, with the part's share of the history.  Results about a part hold in every whole.

Main results:

- Theorem {lit}`System.exists_run_of_steps`: a projection that maps steps to runs maps runs
  to runs.
- Theorems {lit}`System.exists_run_left`, {lit}`System.exists_run_right`,
  {lit}`System.exists_run_member` and {lit}`System.exists_run_own`: the runs of the parts.
- Theorem {lit}`System.takenOn_append_queue_perm`: what a channel has given out and what is
  still on it is what was put on it.
- Theorem {lit}`System.takenOn_append_queue`: the same in order, if every message is taken from
  the head of its channel.
- Theorem {lit}`System.exists_sends_of_taken`: a message is taken after it was sent.
-/

namespace Labelled

namespace System

/-! ## Projections -/

section Projection

variable {σ ℓ ε τ ℓ' ε' : Type*} (M : System σ ℓ ε) (N : System τ ℓ' ε')

/-- A projection of states and events under which every step becomes a run maps
every run to one. -/
theorem exists_run_of_steps (f : σ → τ) (φ : ε → Option ε')
    (hsteps : ∀ s l t out, M.step s l = some (t, out) →
      ∃ ls', N.run (f s) ls' = some (f t, out.filterMap φ))
    {s u : σ} {ls : List ℓ} {h : List ε} (hrun : M.run s ls = some (u, h)) :
    ∃ ls', N.run (f s) ls' = some (f u, h.filterMap φ) := by
  refine M.run_invariant
    (fun t h => ∃ ls', N.run (f s) ls' = some (f t, h.filterMap φ)) ⟨[], rfl⟩ ?_ hrun
  intro t h l v out hbefore hstep
  rcases hbefore with ⟨ls₁, hrun₁⟩
  rcases hsteps t l v out hstep with ⟨ls₂, hrun₂⟩
  rw [List.filterMap_append]
  exact ⟨ls₁ ++ ls₂, (run_append N).mpr ⟨f t, _, _, hrun₁, hrun₂, rfl⟩⟩

end Projection

/-! ## Side by side -/

section Parallel

variable {σ₁ σ₂ ℓ₁ ℓ₂ ε₁ ε₂ : Type*} (M : System σ₁ ℓ₁ ε₁) (N : System σ₂ ℓ₂ ε₂)

/-- Two systems side by side: every label is one of either, and the other one stands
still. -/
def parallel : System (σ₁ × σ₂) (ℓ₁ ⊕ ℓ₂) (ε₁ ⊕ ε₂) where
  step s
    | .inl l => (M.step s.1 l).map fun r => ((r.1, s.2), r.2.map .inl)
    | .inr l => (N.step s.2 l).map fun r => ((s.1, r.1), r.2.map .inr)

variable {M N} {s t : σ₁ × σ₂} {out : List (ε₁ ⊕ ε₂)}

/-- A label of the left system. -/
theorem step_parallel_inl {l : ℓ₁} (hstep : (M.parallel N).step s (.inl l) = some (t, out)) :
    ∃ out', M.step s.1 l = some (t.1, out') ∧ t.2 = s.2 ∧ out = out'.map .inl := by
  rcases Option.map_eq_some_iff.mp hstep with ⟨⟨t', out'⟩, hl, heq⟩
  cases heq
  exact ⟨out', hl, rfl, rfl⟩

/-- A label of the right one. -/
theorem step_parallel_inr {l : ℓ₂} (hstep : (M.parallel N).step s (.inr l) = some (t, out)) :
    ∃ out', N.step s.2 l = some (t.2, out') ∧ t.1 = s.1 ∧ out = out'.map .inr := by
  rcases Option.map_eq_some_iff.mp hstep with ⟨⟨t', out'⟩, hl, heq⟩
  cases heq
  exact ⟨out', hl, rfl, rfl⟩

variable (M N)

/-- The left system runs in every run of the two. -/
theorem exists_run_left {u : σ₁ × σ₂} {ls : List (ℓ₁ ⊕ ℓ₂)} {h : List (ε₁ ⊕ ε₂)}
    (hrun : (M.parallel N).run s ls = some (u, h)) :
    ∃ ls', M.run s.1 ls' = some (u.1, h.filterMap Sum.getLeft?) := by
  refine exists_run_of_steps (M.parallel N) M Prod.fst Sum.getLeft? ?_ hrun
  intro s l t out hstep
  cases l with
  | inl l =>
      rcases step_parallel_inl hstep with ⟨out', hl, _, rfl⟩
      refine ⟨[l], (run_singleton M).mpr ?_⟩
      simpa [List.filterMap_map, Function.comp_def] using hl
  | inr l =>
      rcases step_parallel_inr hstep with ⟨out', _, hsame, rfl⟩
      refine ⟨[], ?_⟩
      simp [hsame, List.filterMap_map, Function.comp_def]

/-- So does the right one. -/
theorem exists_run_right {u : σ₁ × σ₂} {ls : List (ℓ₁ ⊕ ℓ₂)} {h : List (ε₁ ⊕ ε₂)}
    (hrun : (M.parallel N).run s ls = some (u, h)) :
    ∃ ls', N.run s.2 ls' = some (u.2, h.filterMap Sum.getRight?) := by
  refine exists_run_of_steps (M.parallel N) N Prod.snd Sum.getRight? ?_ hrun
  intro s l t out hstep
  cases l with
  | inl l =>
      rcases step_parallel_inl hstep with ⟨out', _, hsame, rfl⟩
      refine ⟨[], ?_⟩
      simp [hsame, List.filterMap_map, Function.comp_def]
  | inr l =>
      rcases step_parallel_inr hstep with ⟨out', hl, _, rfl⟩
      refine ⟨[l], (run_singleton N).mpr ?_⟩
      simpa [List.filterMap_map, Function.comp_def] using hl

end Parallel

/-! ## Families -/

section Family

variable {ι σ ℓ ε : Type*} [DecidableEq ι] (M : System σ ℓ ε)

/-- A copy of a system for every index. -/
def family (ι : Type*) [DecidableEq ι] (M : System σ ℓ ε) :
    System (ι → σ) (ι × ℓ) (ι × ε) where
  step s l := (M.step (s l.1) l.2).map fun r =>
    (Function.update s l.1 r.1, r.2.map fun e => (l.1, e))

/-- The share of one member in a history. -/
def ofMember (i : ι) (e : ι × ε) : Option ε :=
  if e.1 = i then some e.2 else none

variable {M} {s t : ι → σ} {out : List (ι × ε)}

/-- A label of a member. -/
theorem step_family {l : ι × ℓ} (hstep : (M.family ι).step s l = some (t, out)) :
    ∃ t' out', M.step (s l.1) l.2 = some (t', out') ∧ t = Function.update s l.1 t' ∧
      out = out'.map fun e => (l.1, e) := by
  rcases Option.map_eq_some_iff.mp hstep with ⟨⟨t', out'⟩, hl, heq⟩
  cases heq
  exact ⟨t', out', hl, rfl, rfl⟩

variable (M)

/-- Every member runs in every run of the family. -/
theorem exists_run_member (i : ι) {u : ι → σ} {ls : List (ι × ℓ)} {h : List (ι × ε)}
    (hrun : (M.family ι).run s ls = some (u, h)) :
    ∃ ls', M.run (s i) ls' = some (u i, h.filterMap (ofMember i)) := by
  refine exists_run_of_steps (M.family ι) M (fun s => s i) (ofMember i) ?_ hrun
  intro s l t out hstep
  rcases step_family hstep with ⟨t', out', hl, rfl, rfl⟩
  by_cases hi : l.1 = i
  · subst hi
    refine ⟨[l.2], (run_singleton M).mpr ?_⟩
    simpa [List.filterMap_map, Function.comp_def, ofMember] using hl
  · refine ⟨[], ?_⟩
    simp [Function.update_of_ne (Ne.symm hi), List.filterMap_map, Function.comp_def, ofMember, hi]

end Family

end System

/-! ## Channels -/

/-- How the events and labels of a system are joined: the message that an event puts on
a channel, the labels that need no message, and the label that a message becomes when it
is taken, where the environment has one more choice. -/
structure Wiring (ℓ ε κ α χ : Type*) where
  sends : ε → Option (κ × α)
  free : ℓ → Bool
  label : κ → α → χ → Option ℓ

/-- A label of the system itself, or that one of the messages of a channel is taken. -/
inductive WiredLabel (ℓ κ χ : Type*) where
  | own (l : ℓ)
  | take (k : κ) (i : ℕ) (x : χ)

/-- Every message is taken from the head of its channel. -/
def FirstInFirstOut {ℓ κ χ : Type*} (ls : List (WiredLabel ℓ κ χ)) : Prop :=
  ∀ k i x, .take k i x ∈ ls → i = 0

/-- An event of the system itself, or that a message was taken. -/
inductive WiredEvent (ε κ α : Type*) where
  | own (e : ε)
  | taken (k : κ) (a : α)

namespace WiredEvent

variable {ε κ α : Type*} [DecidableEq κ]

/-- The event of the system itself. -/
def ownOf : WiredEvent ε κ α → Option ε
  | .own e => some e
  | .taken _ _ => none

/-- The message that was taken from a channel. -/
def takenOf (k : κ) : WiredEvent ε κ α → Option α
  | .own _ => none
  | .taken k' a => if k' = k then some a else none

end WiredEvent

namespace Wiring

variable {ℓ ε κ α χ : Type*} [DecidableEq κ] (W : Wiring ℓ ε κ α χ)

/-- The messages that events put on a channel. -/
def sentOn (k : κ) (out : List ε) : List α :=
  out.filterMap fun e => (W.sends e).bind fun m => if m.1 = k then some m.2 else none

/-- The channels after events. -/
def push (q : κ → List α) (out : List ε) : κ → List α :=
  fun k => q k ++ W.sentOn k out

theorem sentOn_append (k : κ) (out out' : List ε) :
    W.sentOn k (out ++ out') = W.sentOn k out ++ W.sentOn k out' :=
  List.filterMap_append

/-- What is put on a channel was sent by an event. -/
theorem mem_sentOn_iff {k : κ} {a : α} {out : List ε} :
    a ∈ W.sentOn k out ↔ ∃ e ∈ out, W.sends e = some (k, a) := by
  simp only [sentOn, List.mem_filterMap, Option.bind_eq_some_iff, Option.ite_none_right_eq_some,
    Option.some.injEq]
  constructor
  · rintro ⟨e, he, m, hm, hk, ha⟩
    exact ⟨e, he, by rw [hm, ← hk, ← ha]⟩
  · rintro ⟨e, he, hm⟩
    exact ⟨e, he, (k, a), hm, rfl, rfl⟩

end Wiring

namespace System

section Wired

variable {σ ℓ ε κ α χ : Type*} [DecidableEq κ] (M : System σ ℓ ε) (W : Wiring ℓ ε κ α χ)

/-- A system whose messages travel on the channels. -/
def wired : System (σ × (κ → List α)) (WiredLabel ℓ κ χ) (WiredEvent ε κ α) where
  step s
    | .own l =>
        if W.free l then
          (M.step s.1 l).map fun r => ((r.1, W.push s.2 r.2), r.2.map .own)
        else none
    | .take k i x =>
        match (s.2 k)[i]? with
        | none => none
        | some a =>
            match W.label k a x with
            | none => none
            | some l =>
                (M.step s.1 l).map fun r =>
                  ((r.1, W.push (Function.update s.2 k ((s.2 k).eraseIdx i)) r.2),
                    .taken k a :: r.2.map .own)

/-- The two kinds of steps. -/
inductive WiredStep (s t : σ × (κ → List α)) :
    WiredLabel ℓ κ χ → List (WiredEvent ε κ α) → Prop
  | own (l : ℓ) (out : List ε) (hfree : W.free l = true)
      (hstep : M.step s.1 l = some (t.1, out)) (hqueue : t.2 = W.push s.2 out) :
      WiredStep s t (.own l) (out.map .own)
  | take (k : κ) (i : ℕ) (x : χ) (a : α) (l : ℓ) (out : List ε) (hnext : (s.2 k)[i]? = some a)
      (hlabel : W.label k a x = some l) (hstep : M.step s.1 l = some (t.1, out))
      (hqueue : t.2 = W.push (Function.update s.2 k ((s.2 k).eraseIdx i)) out) :
      WiredStep s t (.take k i x) (.taken k a :: out.map .own)

variable {M W} {s t u : σ × (κ → List α)} {l : WiredLabel ℓ κ χ} {ls : List (WiredLabel ℓ κ χ)}
  {out h : List (WiredEvent ε κ α)}

/-- Every step is of one of the two kinds. -/
theorem wiredStep_of_step (hstep : (M.wired W).step s l = some (t, out)) :
    WiredStep M W s t l out := by
  cases l with
  | own l =>
      simp only [wired] at hstep
      split at hstep
      · rename_i hfree
        rcases Option.map_eq_some_iff.mp hstep with ⟨⟨t', out'⟩, hl, heq⟩
        cases heq
        exact .own l out' hfree hl rfl
      · contradiction
  | take k i x =>
      simp only [wired] at hstep
      split at hstep
      · contradiction
      · rename_i a hnext
        split at hstep
        · contradiction
        · rename_i l hlabel
          rcases Option.map_eq_some_iff.mp hstep with ⟨⟨t', out'⟩, hl, heq⟩
          cases heq
          exact .take k i x a l out' hnext hlabel hl rfl

omit [DecidableEq κ] in
theorem filterMap_ownOf_map (out : List ε) :
    (out.map WiredEvent.own : List (WiredEvent ε κ α)).filterMap WiredEvent.ownOf = out := by
  rw [List.filterMap_map]
  exact List.filterMap_some

theorem filterMap_takenOf_map (k : κ) (out : List ε) :
    (out.map WiredEvent.own : List (WiredEvent ε κ α)).filterMap (WiredEvent.takenOf k) = [] := by
  rw [List.filterMap_map]
  exact List.filterMap_eq_nil_iff.mpr fun _ _ => rfl

/-- The wired system runs as the system itself. -/
theorem exists_run_own (hrun : (M.wired W).run s ls = some (u, h)) :
    ∃ ls', M.run s.1 ls' = some (u.1, h.filterMap WiredEvent.ownOf) := by
  refine exists_run_of_steps (M.wired W) M Prod.fst WiredEvent.ownOf ?_ hrun
  intro s l t out hstep
  cases wiredStep_of_step hstep with
  | own l out hfree hl hqueue =>
      refine ⟨[l], (run_singleton M).mpr ?_⟩
      rw [filterMap_ownOf_map]
      exact hl
  | take k i x a l out hnext hlabel hl hqueue =>
      refine ⟨[l], (run_singleton M).mpr ?_⟩
      rw [List.filterMap_cons_none rfl, filterMap_ownOf_map]
      exact hl

/-- A step puts its messages behind those of the channel, or first takes one of them out. -/
theorem WiredStep.takenOn_cases (hstep : WiredStep M W s t l out) (k : κ) :
    (out.filterMap (WiredEvent.takenOf k) = [] ∧
        t.2 k = s.2 k ++ W.sentOn k (out.filterMap WiredEvent.ownOf)) ∨
      ∃ i x a, l = .take k i x ∧ (s.2 k)[i]? = some a ∧
        out.filterMap (WiredEvent.takenOf k) = [a] ∧
        t.2 k = (s.2 k).eraseIdx i ++ W.sentOn k (out.filterMap WiredEvent.ownOf) := by
  cases hstep with
  | own l out hfree hl hqueue =>
      refine Or.inl ⟨filterMap_takenOf_map k out, ?_⟩
      rw [hqueue, filterMap_ownOf_map, Wiring.push]
  | take k' i x a l out hnext hlabel hl hqueue =>
      by_cases hk : k' = k
      · subst hk
        refine Or.inr ⟨i, x, a, rfl, hnext, ?_, ?_⟩
        · simp [WiredEvent.takenOf]
        · rw [hqueue, List.filterMap_cons_none rfl, filterMap_ownOf_map, Wiring.push,
            Function.update_self]
      · refine Or.inl ⟨?_, ?_⟩
        · simp [WiredEvent.takenOf, hk]
        · rw [hqueue, List.filterMap_cons_none rfl, filterMap_ownOf_map, Wiring.push,
            Function.update_of_ne (Ne.symm hk)]

/-- What was taken from a channel and what is on it make up what was on it at first and what was
sent. -/
theorem takenOn_append_queue_perm (k : κ) (hrun : (M.wired W).run s ls = some (u, h)) :
    List.Perm (h.filterMap (WiredEvent.takenOf k) ++ u.2 k)
      (s.2 k ++ W.sentOn k (h.filterMap WiredEvent.ownOf)) := by
  refine (M.wired W).run_invariant (fun u h => List.Perm
    (h.filterMap (WiredEvent.takenOf k) ++ u.2 k)
      (s.2 k ++ W.sentOn k (h.filterMap WiredEvent.ownOf))) ?_ ?_ hrun
  · simp [Wiring.sentOn]
  · intro t h l v out hbefore hstep
    simp only [List.filterMap_append, Wiring.sentOn_append]
    rw [← List.append_assoc (s.2 k)]
    refine List.Perm.trans ?_ (hbefore.append_right _)
    rcases (wiredStep_of_step hstep).takenOn_cases k with
      ⟨hnone, hqueue⟩ | ⟨i, x, a, _, hnext, htaken, hqueue⟩
    · rw [hnone, hqueue, List.append_nil, List.append_assoc]
    · rw [htaken, hqueue]
      rcases List.getElem?_eq_some_iff.mp hnext with ⟨hlt, rfl⟩
      have hperm : List.Perm ((t.2 k)[i] :: (t.2 k).eraseIdx i) (t.2 k) :=
        List.getElem_cons_eraseIdx_perm hlt
      simpa using (hperm.append_left (h.filterMap (WiredEvent.takenOf k))).append_right
        (W.sentOn k (out.filterMap WiredEvent.ownOf))

/-- If every message is taken from the head of its channel, what was taken from one, followed by
what is on it, is what was on it at first, followed by what was sent. -/
theorem takenOn_append_queue (k : κ) (hfifo : FirstInFirstOut ls)
    (hrun : (M.wired W).run s ls = some (u, h)) :
    h.filterMap (WiredEvent.takenOf k) ++ u.2 k =
      s.2 k ++ W.sentOn k (h.filterMap WiredEvent.ownOf) := by
  refine (M.wired W).run_invariant_of_steps (fun u h =>
    h.filterMap (WiredEvent.takenOf k) ++ u.2 k =
      s.2 k ++ W.sentOn k (h.filterMap WiredEvent.ownOf))
    (fun _ _ l => ∀ k i x, l = .take k i x → i = 0) ?_ ?_ ?_ hrun
  · simp [Wiring.sentOn]
  · intro t h l v out hbefore hhead hstep
    simp only [List.filterMap_append, Wiring.sentOn_append]
    rw [← List.append_assoc (s.2 k), ← hbefore]
    rcases (wiredStep_of_step hstep).takenOn_cases k with
      ⟨hnone, hqueue⟩ | ⟨i, x, a, hlabel, hnext, htaken, hqueue⟩
    · rw [hnone, hqueue, List.append_nil, List.append_assoc]
    · rw [hhead k i x hlabel] at hnext hqueue
      rw [htaken, hqueue]
      cases hchannel : t.2 k with
      | nil => simp [hchannel] at hnext
      | cons a' rest =>
          rw [hchannel, List.getElem?_cons_zero, Option.some.injEq] at hnext
          simp [hnext]
  · intro pre l post hsplit t h' _ k i x hlabel
    exact hfifo k i x (by simp [hsplit, hlabel])

/-- What is on a channel was sent, if the channels were empty at first. -/
theorem exists_sends_of_mem_queue (hempty : ∀ k, s.2 k = []) {k : κ} {a : α}
    (hrun : (M.wired W).run s ls = some (u, h)) (ha : a ∈ u.2 k) :
    ∃ e, .own e ∈ h ∧ W.sends e = some (k, a) := by
  have hperm := takenOn_append_queue_perm k hrun
  rw [hempty k, List.nil_append] at hperm
  have hsent : a ∈ W.sentOn k (h.filterMap WiredEvent.ownOf) :=
    hperm.subset (List.mem_append_right _ ha)
  rcases W.mem_sentOn_iff.mp hsent with ⟨e, he, hsends⟩
  rcases List.mem_filterMap.mp he with ⟨e', he', hown⟩
  cases e' with
  | own e₀ =>
      cases hown
      exact ⟨e, he', hsends⟩
  | taken k' a' => cases hown

/-- A message that is taken from a channel was sent before. -/
theorem exists_sends_of_taken (hempty : ∀ k, s.2 k = []) {k : κ} {a : α}
    {before after : List (WiredEvent ε κ α)}
    (hrun : (M.wired W).run s ls = some (u, before ++ .taken k a :: after)) :
    ∃ e, .own e ∈ before ∧ W.sends e = some (k, a) := by
  rcases exists_step_of_mem_history _ hrun with
    ⟨pre, l, post, t, v, h, out₁, out₂, _, hpre, hstep, rfl⟩
  generalize hout : out₁ ++ .taken k a :: out₂ = out at hstep
  have hmem : .taken k a ∈ out := hout ▸ List.mem_append_right out₁ List.mem_cons_self
  cases wiredStep_of_step hstep with
  | own l out hfree hl hqueue => simp at hmem
  | take k' i x a' l out hnext hlabel hl hqueue =>
      simp only [List.mem_cons, WiredEvent.taken.injEq, List.mem_map, reduceCtorEq, and_false,
        exists_false, or_false] at hmem
      rcases hmem with ⟨rfl, rfl⟩
      rcases exists_sends_of_mem_queue hempty hpre (List.mem_of_getElem? hnext) with
        ⟨e, he, hsends⟩
      exact ⟨e, List.mem_append_left out₁ he, hsends⟩

end Wired

end System

end Labelled
