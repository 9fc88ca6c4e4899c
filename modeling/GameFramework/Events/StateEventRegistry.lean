import GameFramework.Lib.Transition
import Mathlib.Algebra.Group.Nat.Defs
import Mathlib.Data.Fintype.Card
import Mathlib.Data.List.Nodup
import Mathlib.Logic.Function.Basic

/-!
# The registry of state events

{lit}`StateEventRegistry` stores functions behind an interface and hands out an id for each.
This module is about the ids: the counter is 32 bits wide and has no initial value, and
{lit}`emplace` leaves the map alone when the key exists.  What a call of a stored function
does is the subject of {lit}`GameFramework.Events.Invocation`.

A label is one call of a public method; the output is the id that was returned, the function
that was dispatched to, or the exception.

Main results:

- Theorem {lit}`StateEventRegistry.registeredIds_eq`: the ids are consecutive numbers modulo
  {lit}`2 ^ 32`.
- Theorem {lit}`StateEventRegistry.eventFuncs_eq_some_iff`: the map holds the registrations of
  the run as long as their ids are distinct.
- Theorem {lit}`StateEventRegistry.idsNeverReused_iff`: ids are never reused in the runs with at
  most {lit}`2 ^ 32` registrations, and in no other run.
-/

namespace GameFramework

abbrev EventId := UInt32

/-- The type {lit}`F` stands for {lit}`std::unique_ptr<IEvent>`. -/
structure StateEventRegistry (F : Type*) where
  eventFuncs : EventId → Option F
  nextId : EventId

inductive StateEventLabel (F A : Type*) where
  | register (f : F)
  | invoke (id : EventId) (args : List A)
  deriving DecidableEq

/-- Where a call goes. -/
inductive Dispatch (F A : Type*) where
  /-- {lit}`std::out_of_range`: "Provided event id has not been registered". -/
  | outOfRange
  | function (f : F) (args : List A)
  deriving DecidableEq

inductive StateEvent (F A : Type*) where
  | registered (id : EventId) (f : F)
  | invoked (id : EventId) (dispatch : Dispatch F A)
  deriving DecidableEq

namespace StateEventRegistry

variable {F A : Type*}

/-- A new registry; the member {lit}`m_nextId` is whatever its memory held. -/
def init (nextId : EventId) : StateEventRegistry F where
  eventFuncs _ := none
  nextId := nextId

/-- {lit}`std::unordered_map::emplace` -/
def emplace (eventFuncs : EventId → Option F) (id : EventId) (f : F) : EventId → Option F :=
  match eventFuncs id with
  | some _ => eventFuncs
  | none => Function.update eventFuncs id (some f)

def registerStateEventFunc (r : StateEventRegistry F) (f : F) : StateEventRegistry F × EventId :=
  let id := r.nextId + 1
  ({ eventFuncs := emplace r.eventFuncs id f, nextId := id }, id)

/-- The function that a call is dispatched to, with its arguments, or the exception. -/
def invokeStateEventFunc (r : StateEventRegistry F) (id : EventId) (args : List A) :
    Dispatch F A :=
  match r.eventFuncs id with
  | none => .outOfRange
  | some f => .function f args

def step (r : StateEventRegistry F) (label : StateEventLabel F A) :
    Option (StateEventRegistry F × List (StateEvent F A)) :=
  match label with
  | .register f =>
      let (r, id) := r.registerStateEventFunc f
      some (r, [.registered id f])
  | .invoke id args => some (r, [.invoked id (r.invokeStateEventFunc id args)])

/-- The registry as a labelled system. -/
def system : Labelled.System (StateEventRegistry F) (StateEventLabel F A) (StateEvent F A) where
  step := step

/-! ## Ids and dispatch -/

/-- The ids that registrations have returned, oldest first. -/
def registeredIds (h : List (StateEvent F A)) : List EventId :=
  h.filterMap fun
    | .registered id _ => some id
    | _ => none

/-- The number of registrations of a run. -/
def registrations (labels : List (StateEventLabel F A)) : ℕ :=
  labels.countP fun
    | .register _ => true
    | .invoke _ _ => false

/-- A call with a returned id goes to the function whose registration returned it, and a call
with any other id throws. -/
structure Dispatches (r : StateEventRegistry F) (h : List (StateEvent F A)) : Prop where
  returned : ∀ id f, .registered id f ∈ h → ∀ args : List A,
    r.invokeStateEventFunc id args = .function f args
  unknown : ∀ id, id ∉ registeredIds h → ∀ args : List A,
    r.invokeStateEventFunc id args = .outOfRange

/-- What the ids of a run that starts with this counter should satisfy, at every moment of the
run. -/
structure IdsNeverReused (nextId : EventId) (labels : List (StateEventLabel F A))
    (h : List (StateEvent F A)) : Prop where
  nodup : (registeredIds h).Nodup
  dispatches : ∀ pre post, labels = pre ++ post → ∀ r h',
    system.run (init nextId) pre = some (r, h') → Dispatches r h'
  kept : ∀ pre f post, labels = pre ++ .register f :: post → ∀ r h',
    system.run (init nextId) pre = some (r, h') → ∀ id ∈ registeredIds h', ∀ args : List A,
      (r.registerStateEventFunc f).1.invokeStateEventFunc id args =
        r.invokeStateEventFunc id args

variable {nextId id : EventId} {f g : F} {r u : StateEventRegistry F}
  {labels : List (StateEventLabel F A)} {h : List (StateEvent F A)}

theorem mem_registeredIds_iff : id ∈ registeredIds h ↔ ∃ f, .registered id f ∈ h := by
  unfold registeredIds
  rw [List.mem_filterMap]
  constructor
  · rintro ⟨e, he, hid⟩
    cases e with
    | registered id' f =>
        cases hid
        exact ⟨f, he⟩
    | invoked id' dispatch => cases hid
  · rintro ⟨f, hf⟩
    exact ⟨_, hf, rfl⟩

theorem invokeStateEventFunc_of_none (hid : r.eventFuncs id = none) (args : List A) :
    r.invokeStateEventFunc id args = .outOfRange := by
  unfold invokeStateEventFunc
  rw [hid]

theorem invokeStateEventFunc_of_some (hid : r.eventFuncs id = some f) (args : List A) :
    r.invokeStateEventFunc id args = .function f args := by
  unfold invokeStateEventFunc
  rw [hid]

/-! ## What a registration does to the map -/

/-- {lit}`emplace` never changes an existing entry. -/
theorem emplace_of_eq_some {eventFuncs : EventId → Option F} (hid : eventFuncs id = some f)
    (id' : EventId) (g : F) : emplace eventFuncs id' g id = some f := by
  unfold emplace
  cases hkey : eventFuncs id' with
  | some _ => exact hid
  | none =>
      have hne : id ≠ id' := by
        rintro rfl
        rw [hid] at hkey
        cases hkey
      simp only [Function.update_of_ne hne]
      exact hid

/-- Under a fresh key it adds the entry and nothing else. -/
theorem emplace_eq_some_iff {eventFuncs : EventId → Option F} {id' : EventId}
    (hfresh : eventFuncs id' = none) :
    emplace eventFuncs id' g id = some f ↔ id = id' ∧ f = g ∨ eventFuncs id = some f := by
  unfold emplace
  rw [hfresh]
  simp only
  by_cases hid : id = id'
  · subst hid
    simp [hfresh, eq_comm]
  · simp [hid]

/-! ## The ids of a run -/

/-- The numbers after the counter, modulo {lit}`2 ^ 32`. -/
theorem registeredIds_eq (hrun : system.run (init nextId) labels = some (u, h)) :
    registeredIds h = (List.range (registrations labels)).map (fun k => nextId + .ofNat (k + 1)) ∧
      u.nextId = nextId + .ofNat (registrations labels) := by
  induction labels using List.reverseRecOn generalizing u h with
  | nil =>
      cases hrun
      exact ⟨rfl, by simp [registrations, init]⟩
  | append_singleton labels label ih =>
      rcases (system.run_append).mp hrun with ⟨t, h₁, h₂, hpre, hlast, rfl⟩
      have hstep := (system.run_singleton).mp hlast
      rcases ih hpre with ⟨hids, hnext⟩
      cases label with
      | register f =>
          cases hstep
          have hcount : registrations (labels ++ [.register f]) = registrations labels + 1 := by
            simp [registrations]
          have hid : t.nextId + 1 = nextId + .ofNat (registrations labels + 1) := by
            rw [hnext, UInt32.ofNat_add, UInt32.add_assoc]
            rfl
          refine ⟨?_, by rw [hcount]; exact hid⟩
          rw [hcount, List.range_succ, List.map_append, ← hids, List.map_singleton, ← hid]
          simp [registeredIds]
      | invoke id args =>
          cases hstep
          have hcount : registrations (labels ++ [.invoke id args]) = registrations labels := by
            simp [registrations]
          refine ⟨?_, by rw [hcount]; exact hnext⟩
          rw [hcount, ← hids]
          simp [registeredIds]

/-- Consecutive numbers are distinct up to once around. -/
theorem nodup_registeredIds_iff (hrun : system.run (init nextId) labels = some (u, h)) :
    (registeredIds h).Nodup ↔ registrations labels ≤ 2 ^ 32 := by
  constructor
  · intro hnodup
    have hfin := (hnodup.map fun a b hab => UInt32.toFin_inj.mp hab).length_le_card
    simpa [(registeredIds_eq hrun).1, UInt32.size] using hfin
  · intro hle
    rw [(registeredIds_eq hrun).1]
    refine List.Nodup.map_on ?_ List.nodup_range
    intro i hi j hj heq
    rw [List.mem_range] at hi hj
    have hmod := congrArg UInt32.toNat ((UInt32.add_right_inj nextId).mp heq)
    simp only [UInt32.toNat_ofNat'] at hmod
    omega

/-! ## The map of a run -/

/-- While the ids are distinct, every registration finds a fresh key, so the map holds exactly
the registrations. -/
theorem eventFuncs_eq_some_iff (hrun : system.run (init nextId) labels = some (u, h))
    (hnodup : (registeredIds h).Nodup) :
    u.eventFuncs id = some f ↔ .registered id f ∈ h := by
  revert id f
  refine system.run_invariant (fun r h => (registeredIds h).Nodup →
    ∀ {id f}, r.eventFuncs id = some f ↔ StateEvent.registered id f ∈ h) ?_ ?_ hrun hnodup
  · intro _ id f
    simp [init]
  · intro r h label v out hinv hstep hnodup id f
    have hids : registeredIds (h ++ out) = registeredIds h ++ registeredIds out :=
      List.filterMap_append
    rw [hids, List.nodup_append] at hnodup
    rcases hnodup with ⟨hbefore, -, hdisjoint⟩
    cases label with
    | register g =>
        cases hstep
        have hfresh : r.eventFuncs (r.nextId + 1) = none := by
          cases hkey : r.eventFuncs (r.nextId + 1) with
          | none => rfl
          | some f' =>
              have hmem := mem_registeredIds_iff.mpr ⟨f', (hinv hbefore).mp hkey⟩
              exact absurd rfl (hdisjoint _ hmem (r.nextId + 1) (by simp [registeredIds]))
        change emplace r.eventFuncs (r.nextId + 1) g id = some f ↔ _
        rw [emplace_eq_some_iff hfresh, hinv hbefore]
        simp [or_comm]
    | invoke id' args =>
        cases hstep
        rw [hinv hbefore]
        simp

/-- Distinct ids are all that dispatching needs. -/
theorem dispatches_of_nodup (hrun : system.run (init nextId) labels = some (u, h))
    (hnodup : (registeredIds h).Nodup) : Dispatches u h := by
  constructor
  · intro id f hf args
    exact invokeStateEventFunc_of_some ((eventFuncs_eq_some_iff hrun hnodup).mpr hf) args
  · intro id hid args
    refine invokeStateEventFunc_of_none ?_ args
    cases hkey : u.eventFuncs id with
    | none => rfl
    | some f =>
        exact absurd (mem_registeredIds_iff.mpr ⟨f, (eventFuncs_eq_some_iff hrun hnodup).mp hkey⟩)
          hid

/-- A registration changes no entry that is there, in whatever state. -/
theorem invokeStateEventFunc_registerStateEventFunc (hid : r.eventFuncs id = some f) (g : F)
    (args : List A) :
    (r.registerStateEventFunc g).1.invokeStateEventFunc id args =
      r.invokeStateEventFunc id args := by
  rw [invokeStateEventFunc_of_some hid]
  exact invokeStateEventFunc_of_some (emplace_of_eq_some hid (r.nextId + 1) g) args

/-- Ids are never reused, and calls always reach the function that was registered, exactly in
the runs whose registrations do not go more than once around the counter. -/
theorem idsNeverReused_iff (nextId : EventId) (labels : List (StateEventLabel F A))
    {u : StateEventRegistry F} {h : List (StateEvent F A)}
    (hrun : system.run (init nextId) labels = some (u, h)) :
    IdsNeverReused nextId labels h ↔ registrations labels ≤ 2 ^ 32 := by
  constructor
  · intro hlaw
    exact (nodup_registeredIds_iff hrun).mp hlaw.nodup
  · intro hle
    have hdistinct : ∀ pre post, labels = pre ++ post → ∀ r h',
        system.run (init nextId) pre = some (r, h') → (registeredIds h').Nodup := by
      intro pre post hsplit r h' hpre
      refine (nodup_registeredIds_iff hpre).mpr (le_trans ?_ hle)
      rw [hsplit, registrations, registrations, List.countP_append]
      exact Nat.le_add_right _ _
    refine ⟨(nodup_registeredIds_iff hrun).mpr hle, ?_, ?_⟩
    · intro pre post hsplit r h' hpre
      exact dispatches_of_nodup hpre (hdistinct pre post hsplit r h' hpre)
    · intro pre f post hsplit r h' hpre id hid args
      rcases mem_registeredIds_iff.mp hid with ⟨f', hf'⟩
      have hnodup := hdistinct pre (.register f :: post) hsplit r h' hpre
      exact invokeStateEventFunc_registerStateEventFunc
        ((eventFuncs_eq_some_iff hpre hnodup).mpr hf') f args

/-- The counter of the first registry has wrapped around to the id of a key, and nothing is
reused yet. -/
theorem idsNeverReused_iff_wrapped :
    ∃ u h, system.run (init 0xFFFFFFFF) [.register true, .invoke 0 [()], .register false] =
        some (u, h) ∧
      IdsNeverReused 0xFFFFFFFF [.register true, .invoke 0 [()], .register false] h :=
  ⟨_, _, rfl, (idsNeverReused_iff 0xFFFFFFFF _ rfl).mpr (by decide)⟩

/-- One registration more than there are ids. -/
theorem exists_not_idsNeverReused :
    ∃ u h, system.run (init 0) (List.replicate (2 ^ 32 + 1) (.register ())) =
        some (u, (h : List (StateEvent Unit Unit))) ∧
      ¬ IdsNeverReused 0 (List.replicate (2 ^ 32 + 1) (.register ())) h := by
  have htotal : (system.run (init 0)
      (List.replicate (2 ^ 32 + 1) (StateEventLabel.register (A := Unit) ()))).isSome := by
    refine (system.run_isSome_iff _ _).mpr ?_
    intro pre label post _ r h _
    cases label with
    | register f => rfl
    | invoke id args => rfl
  rcases Option.isSome_iff_exists.mp htotal with ⟨⟨u, h⟩, hrun⟩
  refine ⟨u, h, hrun, fun hlaw => ?_⟩
  have hle := (nodup_registeredIds_iff hrun).mp hlaw.nodup
  rw [registrations, List.countP_replicate] at hle
  simp at hle

end StateEventRegistry

end GameFramework
