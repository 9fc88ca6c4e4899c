import GameFramework.Game.Effects
import Mathlib.Algebra.Order.Ring.Rat
import Mathlib.Data.Rat.Floor

/-!
# Player isolation

The input system and the spawn system take the peer identifier in 32 bits, so a
tank answers to every peer whose identifier has the same low half as the one it
was spawned for.  This module shows that inputs are isolated between two peers
exactly when those halves differ.

Main results:

- Theorem {lit}`Game.owned_of_reachable`: a tank stores the low half of the peer it
  was spawned for, in every reachable game.
- Theorem {lit}`Game.isolated_iff`: inputs of one peer leave the tanks of another alone
  exactly when the low halves of their identifiers differ.
-/

namespace GameFramework

open EntityRegistry

namespace Game

variable {K : Type*} [Field K] [FloatOps K]

/-- An input of peer {lit}`p` changes no component of a tank spawned for peer {lit}`q` and
fires no bullet from it. -/
def Isolated (p q : PeerID) (g : Game K) (h : List GameEvent) : Prop :=
  ∀ order input e, .spawned entityTypePlayer e q ∈ h →
    (g.queueInput order input p).1.registry.row e = g.registry.row e ∧
      ∀ b, .fired e b ∉ (g.queueInput order input p).2

/-! ## What a tank stores of its peer -/

/-- The row is a tank that stores the low half of the peer identifier. -/
def StoresPeer (q : PeerID) (c : Components K) : Prop :=
  ∃ tank, c.tank = some tank ∧ tank.peerId = q.toUInt32.toUInt64

theorem kept_storesPeer [LinearOrder K] [FloorSemiring K] (q : PeerID) :
    Kept (StoresPeer (K := K) q) :=
  Kept.of_collide (fun _ _ _ h => h) fun _ _ _ h => h

omit [FloatOps K] in
/-- Only a spawn call records a spawned entity, and it records the next one. -/
theorem eq_next_of_mem_spawn {g : Game K} {entityType : UInt8} {position : B2Vec2 K}
    {rotation : K} {peerId q : PeerID} {e : Entity}
    (h : .spawned entityTypePlayer e q ∈ (g.spawn entityType position rotation peerId).2) :
    e = g.registry.next ∧ entityType = entityTypePlayer ∧ peerId = q := by
  simp only [spawn, SpawnSystem.process, Registry.create_snd, List.mem_singleton,
    GameEvent.spawned.injEq] at h
  exact ⟨h.2.1, h.1.symm, h.2.2.symm⟩

/-- A recorded tank was made before, and stores the low half of its
peer for as long as it exists. -/
def Owned (g : Game K) (h : List GameEvent) : Prop :=
  ∀ e q, .spawned entityTypePlayer e q ∈ h →
    e < g.registry.next ∧ ∀ c, g.registry.row e = some c → StoresPeer q c

theorem owned_call [LinearOrder K] [FloorSemiring K] {g g' : Game K} {h out : List GameEvent}
    {call : GameCall K} (howned : Owned g h) (hcall : g.call call = some (g', out)) :
    Owned g' (h ++ out) := by
  intro e q hmem
  rcases List.mem_append.mp hmem with hold | hnew
  · rcases howned e q hold with ⟨hlt, hstores⟩
    exact ⟨hlt.trans_le (next_le_call hcall),
      row_call_of_kept (kept_storesPeer q) hcall hlt hstores⟩
  · rcases call_cases hcall with ⟨order, rfl, hstep⟩ | ⟨order, input, peerId, rfl, _, rfl⟩ |
      ⟨entityType, position, rotation, peerId, _, rfl, rfl⟩ | ⟨entity, _, _, rfl⟩
    · rw [step_eq] at hstep
      simp only [Option.map_eq_some_iff, Prod.mk.injEq] at hstep
      rcases hstep with ⟨p, _, _, rfl⟩
      simp at hnew
    · rcases queueInput_fired order input peerId g with ⟨shots, hout, _⟩
      rw [hout] at hnew
      simp at hnew
    · rcases eq_next_of_mem_spawn hnew with ⟨rfl, rfl, rfl⟩
      refine ⟨Nat.lt_succ_self _, fun c hrow => ?_⟩
      rw [row_spawn, if_pos rfl] at hrow
      cases hrow
      exact ⟨_, rfl, rfl⟩
    · unfold destroyEntity at hnew
      split at hnew <;> simp at hnew

/-- In every reachable game the recorded tanks store the low half of their peer. -/
theorem owned_of_reachable [LinearOrder K] [FloorSemiring K] {isServer : Bool}
    {calls : List (GameCall K)} {g : Game K} {h : List GameEvent}
    (hrun : (system K).run (init isServer) calls = some (g, h)) : Owned g h := by
  refine (system K).run_invariant Owned ?_ ?_ hrun
  · intro e q hmem
    cases hmem
  · intro g h call g' out howned hcall
    exact owned_call howned hcall

/-! ## Isolation -/

omit [Field K] [FloatOps K] in
/-- Widening loses nothing: the stored identifier is a peer's own only when the
low halves agree. -/
theorem toUInt32_eq_of_toUInt64_eq {p q : PeerID} (h : q.toUInt32.toUInt64 = p) :
    p.toUInt32 = q.toUInt32 := by
  rw [← h]
  exact UInt32.toUInt32_toUInt64 _

/-- A tank that stores another low half ignores the input. -/
theorem onRow_eq_of_ne {p q : PeerID} (hne : p.toUInt32 ≠ q.toUInt32)
    (input : InputState K) {c : Components K} (h : StoresPeer q c) :
    InputSystem.onRow p.toUInt32 input c = c := by
  rcases h with ⟨tank, htank, hpeer⟩
  refine InputSystem.onRow_of_skipped (fun tank' htank' hsame => hne ?_) input
  rw [htank] at htank'
  cases htank'
  exact (UInt32.toUInt64_inj.mp (hpeer.symm.trans hsame.2)).symm

theorem isolated_of_toUInt32_ne {p q : PeerID} (hne : p.toUInt32 ≠ q.toUInt32)
    {g : Game K} {h : List GameEvent} (howned : Owned g h) : Isolated p q g h := by
  intro order input e hmem
  rcases howned e q hmem with ⟨hlt, hstores⟩
  constructor
  · rw [row_queueInput order input p g hlt]
    cases hrow : g.registry.row e with
    | none => rfl
    | some c => rw [Option.map_some, onRow_eq_of_ne hne input (hstores c hrow)]
  · intro b hfired
    rcases of_mem_fired order input p g hfired with ⟨_, tank, _, htank, _, hpeer, _⟩
    rcases Option.bind_eq_some_iff.mp htank with ⟨c, hrow, hget⟩
    rcases hstores c hrow with ⟨tank', htank', hpeer'⟩
    have heq : tank' = tank := by
      rw [htank'] at hget
      exact Option.some.inj hget
    rw [heq, hpeer] at hpeer'
    exact hne (toUInt32_eq_of_toUInt64_eq hpeer'.symm)

/-- A full turn to the left. -/
def turnInput : InputState K where
  throttle := 0
  turn := 1
  shoot := false

variable [LinearOrder K] [FloorSemiring K]

/-- A tank spawned for one peer turns when a peer with the same low half sends a
turn. -/
theorem not_isolated_of_toUInt32_eq {p q : PeerID}
    (heq : p.toUInt32 = q.toUInt32) :
    ∃ calls g h, (system K).run (init false) calls = some (g, h) ∧ ¬ Isolated p q g h := by
  have hrun : (system K).run (init false) [.spawnTank ⟨0, 0⟩ 0 q] =
      some ((init false : Game K).spawnTank ⟨0, 0⟩ 0 q) := by
    rw [Labelled.System.run_singleton]
    rfl
  refine ⟨_, ((init false : Game K).spawnTank ⟨0, 0⟩ 0 q).1,
    ((init false : Game K).spawnTank ⟨0, 0⟩ 0 q).2, hrun, fun hisolated => ?_⟩
  have hrow : ((init false : Game K).spawnTank ⟨0, 0⟩ 0 q).1.registry.row 0 =
      some (SpawnSystem.row entityTypePlayer ⟨0, 0⟩ 0 q.toUInt32) := by
    rw [spawnTank, row_spawn]
    exact if_pos rfl
  have hsame := (hisolated (Enumeration.stored View) turnInput 0
    (List.mem_singleton.mpr rfl)).1
  rw [row_queueInput _ _ _ _ (Nat.lt_succ_self 0), hrow, Option.map_some, heq] at hsame
  have hangular := congrArg (fun c => (c.bind (·.velocity)).map (·.angular)) hsame
  simp [InputSystem.onRow, InputSystem.steer, SpawnSystem.row, turnInput,
    Velocity.default] at hangular

/-- Inputs of peer {lit}`p` are isolated from the tanks of peer {lit}`q` in every reachable
game exactly when the low halves of the identifiers differ. -/
theorem isolated_iff (p q : PeerID) :
    (∀ isServer (calls : List (GameCall K)) g h,
      (system K).run (init isServer) calls = some (g, h) → Isolated p q g h) ↔
    p.toUInt32 ≠ q.toUInt32 := by
  constructor
  · intro hall heq
    rcases not_isolated_of_toUInt32_eq (K := K) heq with ⟨calls, g, h, hrun, hnot⟩
    exact hnot (hall false calls g h hrun)
  · intro hne isServer calls g h hrun
    exact isolated_of_toUInt32_ne hne (owned_of_reachable hrun)

/-- Two distinct identifiers with the same low half. -/
theorem exists_not_isolated :
    (4294967297 : PeerID) ≠ 1 ∧
      ∃ calls g h, (system ℚ).run (init false) calls = some (g, h) ∧
        ¬ Isolated 4294967297 1 g h :=
  ⟨by decide, not_isolated_of_toUInt32_eq (by decide)⟩

end Game

end GameFramework
