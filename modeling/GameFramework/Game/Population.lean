import GameFramework.Game.Effects
import GameFramework.Lib.Ledger

/-!
# Births and deaths

What the calls of a game create and remove: spawned entities and fired bullets come in, expired,
collided and destroyed entities go out.  Every call keeps the books, so the history of a game
accounts for every entity in it.

Main results:

- Definition {lit}`Game.books`: births and deaths in a history.
- Theorem {lit}`ShootSystem.bullets_process`: the bullets of a volley are numbered one after the
  other.
- Theorem {lit}`Game.ledger_call`: every call keeps the books.
- Theorem {lit}`Game.ledger_of_run`: so do all calls together.
-/

namespace GameFramework

open EntityRegistry Labelled

/-- The entity that an event creates. -/
def GameEvent.born : GameEvent → Option Entity
  | .spawned _ entity _ => some entity
  | .fired _ bullet => some bullet
  | _ => none

/-- The entity that an event removes. -/
def GameEvent.dead : GameEvent → Option Entity
  | .expired entity => some entity
  | .collided entity => some entity
  | .destroyed entity => some entity
  | _ => none

variable {K : Type*}

namespace Game

/-- The valid entities of a game, and the number that the next one gets. -/
def books (K : Type*) : Books (Game K) GameEvent where
  live g := g.registry.entities
  next g := g.registry.next
  issues := GameEvent.born
  releases := GameEvent.dead
  nodup_live g := g.registry.nodup
  lt_next g := g.registry.lt_next

end Game

variable [Field K]

namespace ShootSystem

/-- The bullets of a volley are numbered one after the other. -/
theorem bullets_process [FloatOps K] (order : ViewOrder) (r : GameRegistry K) (tick : UInt64)
    (ev : InputEvent K) :
    (process order r tick ev).2.map Prod.snd =
        List.range' r.next (process order r tick ev).2.length ∧
      (process order r tick ev).1.next = r.next + (process order r tick ev).2.length := by
  have hfire : ∀ (es : List Entity) (acc : GameRegistry K × List (Entity × Entity)),
      acc.2.map Prod.snd = List.range' r.next acc.2.length →
      acc.1.next = r.next + acc.2.length →
      (es.foldl (fire tick ev) acc).2.map Prod.snd =
          List.range' r.next (es.foldl (fire tick ev) acc).2.length ∧
        (es.foldl (fire tick ev) acc).1.next =
          r.next + (es.foldl (fire tick ev) acc).2.length := by
    intro es
    induction es with
    | nil => exact fun acc hnumbers hnext => ⟨hnumbers, hnext⟩
    | cons e es ih =>
        intro acc hnumbers hnext
        rw [List.foldl_cons]
        unfold fire
        split
        · split
          · exact ih acc hnumbers hnext
          · refine ih _ ?_ ?_
            · simp only [List.map_append, hnumbers, Registry.create_snd, List.map_cons,
                List.map_nil, List.length_append, List.length_singleton, List.range'_concat, hnext,
                one_mul]
            · rw [List.length_append, List.length_singleton, ← Nat.add_assoc, ← hnext]
              rfl
        · exact ih acc hnumbers hnext
  unfold process
  split
  · exact ⟨rfl, rfl⟩
  · exact hfire _ _ rfl rfl

end ShootSystem

namespace Game

variable [LinearOrder K] [FloatOps K] [FloorSemiring K] {g g' : Game K} {call : GameCall K}
  {calls : List (GameCall K)} {h out : List GameEvent}

omit [LinearOrder K] [FloorSemiring K] in
/-- The bullets of an input call. -/
theorem exists_shots_of_queueInput (order : ViewOrder) (input : InputState K) (peerId : PeerID)
    (g : Game K) :
    ∃ shots : List (Entity × Entity),
      (g.queueInput order input peerId).2 = shots.map (fun s => .fired s.1 s.2) ∧
      shots.map Prod.snd = List.range' g.registry.next shots.length ∧
      (g.queueInput order input peerId).1.registry.next = g.registry.next + shots.length := by
  unfold queueInput
  split
  · have hprocess := ShootSystem.bullets_process order
      (InputSystem.apply order g.registry peerId.toUInt32 input) g.tickCount
      ⟨g.tickCount, peerId, input⟩
    rw [InputSystem.next_apply] at hprocess
    exact ⟨_, rfl, hprocess⟩
  · exact ⟨[], rfl, rfl, InputSystem.next_apply _ _ _ _⟩

omit [LinearOrder K] [FloorSemiring K] in
/-- What an input call adds are bullets. -/
theorem exists_bulletRow_of_queueInput (order : ViewOrder) (input : InputState K)
    (peerId : PeerID) (g : Game K) {e : Entity} (hle : g.registry.next ≤ e)
    (hlt : e < (g.queueInput order input peerId).1.registry.next) :
    ∃ transform, (g.queueInput order input peerId).1.registry.row e =
      some (ShootSystem.bulletRow transform peerId g.tickCount) := by
  rcases exists_shots_of_queueInput order input peerId g with ⟨shots, hout, hnumbers, hnext⟩
  have hmem : e ∈ shots.map Prod.snd := by
    rw [hnumbers, List.mem_range'_1, ← hnext]
    exact ⟨hle, hlt⟩
  rcases List.mem_map.mp hmem with ⟨⟨t, b⟩, hshot, rfl⟩
  have hfired : .fired t b ∈ (g.queueInput order input peerId).2 :=
    hout ▸ List.mem_map.mpr ⟨_, hshot, rfl⟩
  rcases of_mem_fired order input peerId g hfired with ⟨transform, _, _, _, _, _, _, hrow⟩
  exact ⟨transform, hrow⟩

/-- What a step records. -/
theorem out_of_step {order : ViewOrder} (hstep : g.step order = some (g', out)) :
    out =
      (ShootSystem.expiredBullets order (MovementSystem.update order g.registry fixedTimestep)
          fixedTimestep (g.tickCount + 1)).map .expired ++
        (CollisionSystem.resolve order (g.beforeCheck order)).2.map .collided := by
  rw [step_eq] at hstep
  unfold CollisionSystem.check at hstep
  simp only [Option.map_map, Option.map_eq_some_iff] at hstep
  rcases hstep with ⟨r, _, heq⟩
  simp only [Function.comp_apply, Prod.mk.injEq] at heq
  exact heq.2.symm

/-- A step makes nothing, and removes what has expired and what has collided. -/
theorem books_step {order : ViewOrder} (hstep : g.step order = some (g', out)) :
    (books K).issued out = [] ∧
      (books K).released out =
        ShootSystem.expiredBullets order (MovementSystem.update order g.registry fixedTimestep)
            fixedTimestep (g.tickCount + 1) ++
          (CollisionSystem.resolve order (g.beforeCheck order)).2 := by
  have hborn : ∀ es : List Entity, (es.map GameEvent.expired).filterMap GameEvent.born = [] ∧
      (es.map GameEvent.collided).filterMap GameEvent.born = [] ∧
      (es.map GameEvent.expired).filterMap GameEvent.dead = es ∧
      (es.map GameEvent.collided).filterMap GameEvent.dead = es := by
    intro es
    induction es with
    | nil => exact ⟨rfl, rfl, rfl, rfl⟩
    | cons e es ih => simpa [GameEvent.born, GameEvent.dead] using ih
  rw [out_of_step hstep, Books.issued_append, Books.released_append]
  exact ⟨congrArg₂ _ (hborn _).1 (hborn _).2.1, congrArg₂ _ (hborn _).2.2.1 (hborn _).2.2.2⟩

/-- A step makes nothing and removes valid entities once each. -/
theorem ledger_step {order : ViewOrder} (hstep : g.step order = some (g', out)) :
    (books K).Ledger g g' out := by
  rcases books_step hstep with ⟨hnone, hreleased⟩
  have hmem : ∀ e, e ∈ (books K).released out ↔ .expired e ∈ out ∨ .collided e ∈ out := by
    intro e
    have hdestroyed := not_mem_destroyed_step hstep e
    rw [Books.released, List.mem_filterMap]
    constructor
    · rintro ⟨event, hevent, hdead⟩
      cases event <;> cases hdead
      · exact Or.inl hevent
      · exact Or.inr hevent
      · exact absurd hevent hdestroyed
    · rintro (hevent | hevent)
      · exact ⟨_, hevent, rfl⟩
      · exact ⟨_, hevent, rfl⟩
  have hsome := (step_isSome_iff order g).mp (hstep ▸ rfl)
  have hvalid : ∀ e, e ∈ (books K).released out → g.registry.valid e := by
    intro e he
    rcases (hmem e).mp he with hexpired | hcollided
    · rcases (mem_expired_iff hstep e).mp hexpired with ⟨c, hrow, _⟩
      exact Registry.valid_of_row hrow
    · have hbefore := hsome.2 e ((mem_collided_iff hstep e).mp hcollided)
      rcases Registry.valid_iff_exists_row.mp hbefore with ⟨c, hrow⟩
      rw [row_beforeCheck] at hrow
      rcases Option.bind_eq_some_iff.mp hrow with ⟨c', hc', _⟩
      rcases Option.map_eq_some_iff.mp hc' with ⟨c₀, hc₀, _⟩
      exact Registry.valid_of_row hc₀
  refine ⟨?_, ?_, ?_, ?_, fun e => ?_⟩
  · rw [hnone]
    rfl
  · rw [hnone]
    exact (step_spec hstep).2.1
  · rw [hreleased]
    refine List.Nodup.append ((Registry.nodup_view _ order _ _).filter _) hsome.1 ?_
    -- what has expired is not there any more when bullets collide
    intro e hexpired hcollided
    rcases (ShootSystem.mem_expiredBullets order _ _ _).mp hexpired with ⟨c, hrow, htime⟩
    have hbefore := hsome.2 e hcollided
    rcases Registry.valid_iff_exists_row.mp hbefore with ⟨c', hrow'⟩
    rw [row_beforeCheck, ← MovementSystem.row_update order, hrow, Option.bind_some,
      ShootSystem.rowUpdate, if_pos htime] at hrow'
    cases hrow'
  · rintro pre event post e rfl hdead
    exact Or.inl (hvalid e (Books.mem_released hdead))
  · change g'.registry.valid e ↔ (g.registry.valid e ∨ e ∈ (books K).issued out) ∧ _
    rw [valid_step_iff hstep, hmem, hnone]
    simp

omit [LinearOrder K] [FloorSemiring K] in
/-- An input call makes its volley and removes nothing. -/
theorem ledger_queueInput (order : ViewOrder) (input : InputState K) (peerId : PeerID)
    (g : Game K) :
    (books K).Ledger g (g.queueInput order input peerId).1 (g.queueInput order input peerId).2 := by
  rcases exists_shots_of_queueInput order input peerId g with ⟨shots, hout, hnumbers, hnext⟩
  have hissued : (books K).issued (g.queueInput order input peerId).2 = shots.map Prod.snd := by
    rw [hout]
    simp [Books.issued, books, GameEvent.born, List.filterMap_map, Function.comp_def]
  have hreleased : (books K).released (g.queueInput order input peerId).2 = [] := by
    rw [hout]
    simp [Books.released, books, GameEvent.dead, List.filterMap_map, Function.comp_def]
  have hlength : ((books K).issued (g.queueInput order input peerId).2).length = shots.length := by
    rw [hissued, List.length_map]
  refine ⟨by rw [hlength, hissued]; exact hnumbers, by rw [hlength]; exact hnext, ?_, ?_, ?_⟩
  · rw [hreleased]
    exact List.nodup_nil
  · intro pre event post e hsplit hdead
    rw [hsplit] at hreleased
    exact absurd (hreleased ▸ Books.mem_released hdead) List.not_mem_nil
  · intro e
    rw [Books.LiveAfter, hreleased]
    change (g.queueInput order input peerId).1.registry.valid e ↔ _
    rcases Nat.lt_or_ge e g.registry.next with he | he
    · have hold : e ∉ shots.map Prod.snd := by
        rw [hnumbers, List.mem_range'_1]
        omega
      have hrow := row_queueInput order input peerId g he
      rw [hissued, Registry.valid_iff_exists_row, hrow]
      have hlive : e ∈ (books K).live g ↔ ∃ c, g.registry.row e = some c :=
        Registry.valid_iff_exists_row
      simp [hold, hlive]
    · have hdead : e ∉ (books K).live g := fun hlive =>
        Nat.not_lt.mpr he (g.registry.lt_next e hlive)
      rw [hissued, hnumbers, List.mem_range'_1]
      simp only [hdead, false_or, List.not_mem_nil, not_false_iff, and_true]
      constructor
      · intro hvalid
        exact ⟨he, hnext ▸ Registry.lt_next _ e hvalid⟩
      · rintro ⟨_, hlt⟩
        rw [← hnext] at hlt
        rcases exists_bulletRow_of_queueInput order input peerId g he hlt with ⟨_, hrow⟩
        exact Registry.valid_of_row hrow

omit [LinearOrder K] [FloatOps K] [FloorSemiring K] in
/-- A spawn call makes the next entity. -/
theorem ledger_spawn (entityType : UInt8) (position : B2Vec2 K) (rotation : K) (peerId : PeerID)
    (g : Game K) :
    (books K).Ledger g (g.spawn entityType position rotation peerId).1
      (g.spawn entityType position rotation peerId).2 where
  issued_eq := rfl
  next_eq := rfl
  nodup := List.nodup_nil
  released_before pre event post e hsplit hdead :=
    absurd (hsplit ▸ Books.mem_released hdead :
      e ∈ (books K).released (g.spawn entityType position rotation peerId).2) List.not_mem_nil
  live_iff e := by
    change (g.spawn entityType position rotation peerId).1.registry.valid e ↔
      (g.registry.valid e ∨ e ∈ [g.registry.next]) ∧ e ∉ []
    rw [Registry.valid_iff_exists_row, Registry.valid_iff_exists_row, row_spawn]
    by_cases he : e = g.registry.next <;> simp [he]

omit [Field K] [LinearOrder K] [FloatOps K] [FloorSemiring K] in
/-- A valid entity is removed by its destruction. -/
theorem ledger_destroyEntity (entity : Entity) (g : Game K) :
    (books K).Ledger g (g.destroyEntity entity).1 (g.destroyEntity entity).2 := by
  have hlive : ∀ e, e ∈ (books K).live (g.destroyEntity entity).1 ↔
      e ≠ entity ∧ e ∈ (books K).live g := fun e => valid_destroyEntity_iff entity g e
  rw [destroyEntity_snd]
  by_cases hvalid : g.registry.valid entity
  · rw [if_pos hvalid]
    refine ⟨rfl, next_destroyEntity entity g, List.nodup_singleton _, ?_, fun e => ?_⟩
    · intro pre event post e hsplit hdead
      have he : e ∈ (books K).released [.destroyed entity] := hsplit ▸ Books.mem_released hdead
      rw [List.mem_singleton.mp he]
      exact Or.inl hvalid
    · rw [hlive]
      simp [Books.LiveAfter, Books.issued, Books.released, books, GameEvent.born, GameEvent.dead,
        and_comm]
  · rw [if_neg hvalid]
    refine ⟨rfl, next_destroyEntity entity g, List.nodup_nil, by simp, fun e => ?_⟩
    rw [hlive]
    have hne : e ∈ (books K).live g → e ≠ entity := fun he heq => hvalid (heq ▸ he)
    simpa [Books.LiveAfter, Books.issued, Books.released] using hne

/-- Every call keeps the books. -/
theorem ledger_call (hcall : g.call call = some (g', out)) : (books K).Ledger g g' out := by
  rcases call_cases hcall with ⟨order, rfl, hstep⟩ | ⟨order, input, peerId, rfl, rfl, rfl⟩ |
    ⟨entityType, position, rotation, peerId, _, rfl, rfl⟩ | ⟨entity, rfl, rfl, rfl⟩
  · exact ledger_step hstep
  · exact ledger_queueInput order input peerId g
  · exact ledger_spawn entityType position rotation peerId g
  · exact ledger_destroyEntity entity g

/-- So do all calls together. -/
theorem ledger_of_run (hrun : (system K).run g calls = some (g', h)) : (books K).Ledger g g' h :=
  (system K).ledger_of_run (fun _ _ _ _ hcall => ledger_call hcall) hrun

end Game

end GameFramework
