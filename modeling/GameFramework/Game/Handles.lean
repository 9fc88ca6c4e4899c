import GameFramework.Game.Population
import Mathlib.Algebra.Order.Ring.Rat
import Mathlib.Data.Rat.Floor

/-!
# Handles

The model numbers the entities of a game in the order in which they are made.  A program does not
see these numbers: the registry gives it a handle for every entity, and may give the handle of a
removed entity to a new one.  Here the handle of every entity is a parameter, and the program
names the entity that it wants destroyed by a handle.

That no handle is issued while it is valid is all that is assumed of the registry.

Main results:

- Definition {lit}`Game.handled`: the game as a program drives it, with handles.
- Theorem {lit}`Game.exists_run_of_handled`: its runs are runs of the game.
- Theorem {lit}`Game.mem_handles_destroyHandle`: a destroyed handle is not valid any more, and the
  others stay as they are.
- Theorem {lit}`Game.population`: the valid handles are distinct, and they are the ones that were
  issued and not given back.
-/

namespace GameFramework

open EntityRegistry Labelled

/-- The calls of a program: an entity to be destroyed is named by its handle. -/
inductive HandledCall (K H : Type*) where
  | call (call : GameCall K) (hplain : ∀ entity, call ≠ .destroyEntity entity)
  | destroyEntity (handle : H)

namespace Game

variable {K H : Type*} [DecidableEq H] (handle : Entity → H)

/-- The handles that are valid. -/
def handles (g : Game K) : List H :=
  g.registry.entities.map handle

/-- The valid entity with a handle. -/
def find (g : Game K) (x : H) : Option Entity :=
  g.registry.entities.find? fun e => handle e = x

/-- {lit}`Game::destroyEntity`: a handle that is not valid is ignored. -/
def destroyHandle (x : H) (g : Game K) : Game K × List GameEvent :=
  match g.find handle x with
  | none => (g, [])
  | some entity => g.destroyEntity entity

variable [Field K] [LinearOrder K] [FloatOps K] [FloorSemiring K]

/-- One call of a program. -/
def handledCall (g : Game K) : HandledCall K H → Option (Game K × List GameEvent)
  | .call call _ => g.call call
  | .destroyEntity x => some (g.destroyHandle handle x)

/-- The game as a labelled system over the calls of a program. -/
def handled (K : Type*) [Field K] [LinearOrder K] [FloatOps K] [FloorSemiring K]
    (handle : Entity → H) : System (Game K) (HandledCall K H) GameEvent where
  step := handledCall handle

variable {handle} {g g' : Game K} {h : List GameEvent}

omit [Field K] [LinearOrder K] [FloatOps K] [FloorSemiring K] in
/-- The entity with a handle, if valid entities have distinct ones. -/
theorem find_eq_some_iff (hdistinct : (g.handles handle).Nodup) {x : H} {e : Entity} :
    g.find handle x = some e ↔ g.registry.valid e ∧ handle e = x := by
  constructor
  · intro hfind
    exact ⟨List.mem_of_find?_eq_some hfind, by simpa using List.find?_some hfind⟩
  · rintro ⟨hvalid, rfl⟩
    cases hfind : g.find handle (handle e) with
    | none =>
        have habsent := List.find?_eq_none.mp hfind e hvalid
        simp at habsent
    | some e' =>
        have hsame : handle e' = handle e := by simpa using List.find?_some hfind
        rw [List.inj_on_of_nodup_map hdistinct (List.mem_of_find?_eq_some hfind) hvalid hsame]

omit [DecidableEq H] [Field K] [LinearOrder K] [FloatOps K] [FloorSemiring K] in
theorem mem_handles_iff {x : H} : x ∈ g.handles handle ↔ ∃ e, g.registry.valid e ∧ handle e = x :=
  List.mem_map

omit [Field K] [LinearOrder K] [FloatOps K] [FloorSemiring K] in
/-- A destroyed handle is not valid any more; the other ones are as before. -/
theorem mem_handles_destroyHandle (hdistinct : (g.handles handle).Nodup) (x y : H) :
    y ∈ (g.destroyHandle handle x).1.handles handle ↔ y ≠ x ∧ y ∈ g.handles handle := by
  unfold destroyHandle
  split
  · rename_i hnone
    have habsent : x ∉ g.handles handle := by
      intro hx
      rcases mem_handles_iff.mp hx with ⟨e, hvalid, hhandle⟩
      rw [(find_eq_some_iff hdistinct).mpr ⟨hvalid, hhandle⟩] at hnone
      contradiction
    exact ⟨fun hy => ⟨fun heq => habsent (heq ▸ hy), hy⟩, And.right⟩
  · rename_i entity hfind
    rcases (find_eq_some_iff hdistinct).mp hfind with ⟨hvalid, rfl⟩
    simp only [mem_handles_iff, valid_destroyEntity_iff]
    constructor
    · rintro ⟨e, ⟨hne, he⟩, rfl⟩
      exact ⟨fun heq => hne (List.inj_on_of_nodup_map hdistinct he hvalid heq), e, he, rfl⟩
    · rintro ⟨hne, e, he, rfl⟩
      exact ⟨e, ⟨fun heq => hne (heq ▸ rfl), he⟩, rfl⟩

/-- A call of a program is a run of the game, of one call or none. -/
theorem exists_run_of_handledCall {call : HandledCall K H} {out : List GameEvent}
    (hcall : g.handledCall handle call = some (g', out)) :
    ∃ calls, (system K).run g calls = some (g', out) := by
  cases call with
  | call call hplain => exact ⟨[call], (System.run_singleton _).mpr hcall⟩
  | destroyEntity x =>
      rw [handledCall, Option.some.injEq] at hcall
      unfold destroyHandle at hcall
      split at hcall
      · cases hcall
        exact ⟨[], rfl⟩
      · rename_i entity _
        refine ⟨[.destroyEntity entity], (System.run_singleton _).mpr ?_⟩
        rw [← hcall]
        rfl

/-- Whatever the handles are, the game runs as it does without them. -/
theorem exists_run_of_handled {calls : List (HandledCall K H)}
    (hrun : (handled K handle).run g calls = some (g', h)) :
    ∃ calls', (system K).run g calls' = some (g', h) := by
  refine (handled K handle).run_invariant
    (fun v h => ∃ calls', (system K).run g calls' = some (v, h)) ⟨[], rfl⟩ ?_ hrun
  rintro v h call w out ⟨calls', hbefore⟩ hcall
  rcases exists_run_of_handledCall hcall with ⟨more, hmore⟩
  exact ⟨calls' ++ more, (System.run_append _).mpr ⟨v, _, _, hbefore, hmore, rfl⟩⟩

/-- Whatever the calls are and however the registry chooses its handles, if it issues none that
is valid, then valid entities have distinct handles, the valid handles with those given back are
the earlier ones with those issued, and every handle is valid when it is given back. -/
theorem population {calls : List (HandledCall K H)}
    (hrun : (handled K handle).run g calls = some (g', h))
    (hdistinct : (g.handles handle).Nodup) (hfresh : (books K).FreshWhenIssued handle g h) :
    (g'.handles handle).Nodup ∧
      List.Perm (g'.handles handle ++ ((books K).released h).map handle)
        (g.handles handle ++ ((books K).issued h).map handle) ∧
      ∀ pre event post e, h = pre ++ event :: post → event.dead = some e →
        (books K).LiveAfter g pre e := by
  rcases exists_run_of_handled hrun with ⟨calls', hgame⟩
  have hbooks := ledger_of_run hgame
  refine ⟨hbooks.nodup_map hfresh hdistinct, hbooks.perm_map handle, ?_⟩
  intro pre event post e hsplit hdead
  exact hbooks.liveAfter_of_releases hsplit hdead

/-- Handles as pairs of a slot and its version: the slot of the second entity after the initial
ones is used again for the third one. -/
def recycling : Entity → ℕ × ℕ := fun e =>
  if e = 8 then (7, 1) else (e, 0)

/-- A shot at a destructible, which removes the bullet, and another shot, whose bullet gets the
slot of the first one and is destroyed.  The handle of the first bullet is ignored. -/
def recyclingCalls : List (HandledCall ℚ (ℕ × ℕ)) :=
  let shoot : GameCall ℚ :=
    .queueInput (Enumeration.stored View) { throttle := 0, turn := 0, shoot := true } 7
  [.call (.spawnTank ⟨10, 0⟩ 0 7) nofun, .call shoot nofun,
    .call (.step (Enumeration.stored View)) nofun, .call shoot nofun, .destroyEntity (7, 0),
    .destroyEntity (7, 1)]

theorem population_recycling :
    ∃ g h, (handled ℚ recycling).run (init true) recyclingCalls = some (g, h) ∧
      ((books ℚ).issued h).map recycling = [(6, 0), (7, 0), (7, 1)] ∧
      ((books ℚ).released h).map recycling = [(7, 0), (7, 1)] ∧
      (g.handles recycling).Nodup ∧
      List.Perm (g.handles recycling ++ ((books ℚ).released h).map recycling)
        ((init true : Game ℚ).handles recycling ++ ((books ℚ).issued h).map recycling) := by
  have hhistory : ((handled ℚ recycling).run (init true) recyclingCalls).map Prod.snd =
      some [.spawned entityTypePlayer 6 7, .fired 6 7, .collided 7, .fired 6 8,
        .destroyed 8] := by
    decide +kernel
  rcases Option.map_eq_some_iff.mp hhistory with ⟨⟨g, h⟩, hrun, rfl⟩
  have hentities : (init true : Game ℚ).registry.entities = [0, 1, 2, 3, 4, 5] := rfl
  have hfresh : (books ℚ).FreshWhenIssued recycling (init true)
      ([] ++ [.spawned entityTypePlayer 6 7] ++ [.fired 6 7] ++ [.collided 7] ++ [.fired 6 8] ++
        [.destroyed 8]) := by
    simp only [Books.freshWhenIssued_concat, Books.freshWhenIssued_nil]
    -- at each of the three births the live entities have other handles
    refine ⟨⟨⟨⟨⟨trivial, ?_⟩, ?_⟩, ?_⟩, ?_⟩, ?_⟩ <;> intro n hn m hm <;> cases hn <;>
      simp [Books.LiveAfter, Books.issued, Books.released, books, GameEvent.born, GameEvent.dead,
        hentities] at hm <;> unfold recycling <;> split <;> simp_all <;> omega
  rcases population hrun (by decide) hfresh with ⟨hnodup, hperm, _⟩
  exact ⟨g, _, hrun, rfl, rfl, hnodup, hperm⟩

end Game

end GameFramework
