import GameFramework.Game.Archetypes
import GameFramework.Server.ServerLoop

/-!
# The world of a dedicated server

{lit}`ServerInstance` with its game.  Nothing in the server program makes a tank for a client
that has joined or hands its inputs on, so the game has what its constructor puts there, and
the steps of the server loop only count.

Main results:

- Definition {lit}`ServerInstance.system`: the main loop with its game.
- Theorem {lit}`Game.step_of_inert`: a step without tanks and bullets counts the tick.
- Theorem {lit}`ServerInstance.run_eq`: a run is one of the server loop, and the world stands
  still.
-/

namespace GameFramework

open EntityRegistry Labelled

variable {K : Type*} [Field K] [LinearOrder K] [FloatOps K] [FloorSemiring K]

/-! ## Games without tanks and bullets -/

namespace Game

/-- No entity is a tank or a bullet. -/
def Inert (r : GameRegistry K) : Prop :=
  ∀ e c, r.row e = some c → c.tank = none ∧ c.bullet = none

variable {r : GameRegistry K} {g : Game K}

omit [Field K] [LinearOrder K] [FloatOps K] [FloorSemiring K] in
/-- A loop that changes no row changes nothing. -/
theorem each_eq_of_fixed {es : List Entity} {f : Components K → Components K} (hes : es.Nodup)
    (hfixed : ∀ e c, r.row e = some c → f c = c) : r.each es f = r := by
  refine Registry.ext (Registry.entities_each _ _ _) (fun e => ?_) (Registry.next_each _ _ _)
  rw [Registry.row_each hes]
  split
  · cases hrow : r.row e with
    | none => rfl
    | some c => exact congrArg some (hfixed e c hrow)
  · rfl

/-- What a step does before the collision system changes nothing. -/
theorem beforeCheck_of_inert (hinert : Inert g.registry) (order : ViewOrder) :
    g.beforeCheck order = g.registry ∧
      ShootSystem.expiredBullets order (MovementSystem.update order g.registry fixedTimestep)
        fixedTimestep (g.tickCount + 1) = [] := by
  have hview : ∀ e c, g.registry.row e = some c → c.hasTransformVelocityBullet = false := by
    intro e c hrow
    simp [Components.hasTransformVelocityBullet, (hinert e c hrow).2]
  have hmoved : MovementSystem.update order g.registry fixedTimestep = g.registry :=
    each_eq_of_fixed (g.registry.nodup_view order _ _) fun e c hrow =>
      MovementSystem.onRow_of_not_tank (hinert e c hrow).1
  have hexpired : ShootSystem.expiredBullets order g.registry fixedTimestep
      (g.tickCount + 1) = [] := by
    refine List.eq_nil_iff_forall_not_mem.mpr fun e he => ?_
    rcases (ShootSystem.mem_expiredBullets order _ _ _).mp he with ⟨c, hrow, htime⟩
    rw [ShootSystem.onRow_of_not_view _ _ (hview e c hrow)] at htime
    cases htime
  rw [hmoved]
  refine ⟨?_, hexpired⟩
  have hupdate := ShootSystem.update_eq_some order g.registry fixedTimestep (g.tickCount + 1)
  have hkept : g.registry.each (g.registry.view order .transformVelocityBullet
      Components.hasTransformVelocityBullet)
      (fun c => (ShootSystem.onRow fixedTimestep (g.tickCount + 1) c).1) = g.registry := by
    refine each_eq_of_fixed (g.registry.nodup_view order _ _) fun e c hrow => ?_
    rw [ShootSystem.onRow_of_not_view _ _ (hview e c hrow)]
  unfold ShootSystem.update at hupdate
  rw [ShootSystem.advance_eq, hkept, hexpired] at hupdate
  rw [beforeCheck, hmoved]
  exact (congrArg Prod.fst (Option.some.inj hupdate)).symm

omit [FloorSemiring K] in
/-- Without tanks and bullets the collision system changes nothing. -/
theorem resolve_of_inert (hinert : Inert r) (order : ViewOrder) :
    CollisionSystem.resolve order r = (r, []) := by
  have hbullets : CollisionSystem.bullets order r = [] := by
    refine List.eq_nil_iff_forall_not_mem.mpr fun e he => ?_
    rcases Registry.mem_view.mp he with ⟨c, hrow, htest⟩
    simp [Components.hasTransformBullet, (hinert e c hrow).2] at htest
  have htanks : CollisionSystem.tanks order r = [] := by
    refine List.eq_nil_iff_forall_not_mem.mpr fun e he => ?_
    rcases Registry.mem_view.mp he with ⟨c, hrow, htest⟩
    simp [Components.hasTransformTank, (hinert e c hrow).1] at htest
  unfold CollisionSystem.bullets at hbullets
  unfold CollisionSystem.tanks at htanks
  simp only [CollisionSystem.resolve, hbullets, htanks]
  rfl

/-- A step without tanks and bullets counts the tick and does nothing else. -/
theorem step_of_inert (hinert : Inert g.registry) (order : ViewOrder) :
    g.step order = some ({ g with tickCount := g.tickCount + 1 }, []) := by
  rcases beforeCheck_of_inert hinert order with ⟨hbefore, hexpired⟩
  rw [step_eq, hbefore, hexpired, CollisionSystem.check, resolve_of_inert hinert]
  rfl

omit [LinearOrder K] [FloatOps K] [FloorSemiring K] in
/-- The constructor makes neither tanks nor bullets. -/
theorem inert_init (isServer : Bool) : Inert (init isServer : Game K).registry := by
  refine row_init (fun entityType htype position rotation peerId => ?_) isServer
  simp only [List.mem_cons, List.not_mem_nil, or_false] at htype
  rcases htype with rfl | rfl <;> exact ⟨rfl, rfl⟩

end Game

/-! ## The main loop -/

/-- The game and the local variables of {lit}`run`. -/
structure ServerInstance (K : Type*) where
  game : Game K
  loop : ServerLoop

/-- What the environment decides about an iteration. -/
structure Iteration where
  wall : ℚ
  order : ViewOrder

/-- What an iteration records: the events of the loop and those of the game. -/
inductive WorldEvent where
  | loop (event : ServerEvent)
  | game (event : GameEvent)
  deriving DecidableEq

namespace ServerInstance

def step (order : ViewOrder) (s : ServerInstance K) : Option (ServerInstance K × List GameEvent) :=
  (s.game.step order).map fun p => ({ s with game := p.1 }, p.2)

/-- One iteration: the loop decides whether {lit}`step` is called. -/
def iterate (s : ServerInstance K) (it : Iteration) :
    Option (ServerInstance K × List WorldEvent) :=
  match s.loop.iterate it.wall with
  | none => none
  | some (loop, events) =>
      let s : ServerInstance K := { s with loop := loop }
      if 0 < ServerLoop.steps events then
        (s.step it.order).map fun p => (p.1, events.map .loop ++ p.2.map .game)
      else some (s, events.map .loop)

/-- Before the first iteration. -/
def start : ServerInstance K where
  game := Game.init true
  loop := ServerLoop.start

/-- The main loop as a labelled system. -/
def system (K : Type*) [Field K] [LinearOrder K] [FloatOps K] [FloorSemiring K] :
    System (ServerInstance K) Iteration WorldEvent where
  step := iterate

/-- An iteration on a game without tanks and bullets is one of the loop. -/
theorem iterate_of_inert {g : Game K} (hinert : Game.Inert g.registry) (loop : ServerLoop)
    (it : Iteration) :
    iterate { game := g, loop := loop } it = (loop.iterate it.wall).map fun p =>
      ({ game := { g with tickCount := g.tickCount + UInt64.ofNat (ServerLoop.steps p.2) }
         loop := p.1 }, p.2.map .loop) := by
  cases hloop : loop.iterate it.wall with
  | none => simp [iterate, hloop]
  | some p =>
      rcases p with ⟨loop', events⟩
      have hsteps := (ServerLoop.iterate_spec hloop).2.2.2.2.2.2
      simp only [iterate, hloop, step, Game.step_of_inert hinert, Option.map_some, List.map_nil,
        List.append_nil]
      by_cases hdue : loop.due it.wall = true
      · rw [if_pos hdue] at hsteps
        rw [hsteps]
        rfl
      · rw [if_neg hdue] at hsteps
        rw [hsteps]
        exact congrArg (fun t => some (({ game := { g with tickCount := t }, loop := loop' } :
          ServerInstance K), events.map WorldEvent.loop)) (UInt64.add_zero _).symm

/-- From a game without tanks and bullets on. -/
theorem run_of_inert {g : Game K} (hinert : Game.Inert g.registry) (loop : ServerLoop)
    (its : List Iteration) :
    (system K).run { game := g, loop := loop } its =
      (ServerLoop.system.run loop (its.map Iteration.wall)).map fun p =>
        ({ game := { g with tickCount := g.tickCount + UInt64.ofNat (ServerLoop.steps p.2) }
           loop := p.1 }, p.2.map .loop) := by
  induction its generalizing g loop with
  | nil =>
      exact congrArg (fun t => some (({ game := { g with tickCount := t }, loop := loop } :
        ServerInstance K), [])) (UInt64.add_zero _).symm
  | cons it its ih =>
      have hiterate := iterate_of_inert hinert loop it
      have hstep : (system K).step { game := g, loop := loop } it = _ := hiterate
      have hloop : ServerLoop.system.step loop it.wall = loop.iterate it.wall := rfl
      simp only [System.run, List.map_cons, hstep, hloop]
      cases loop.iterate it.wall with
      | none => rfl
      | some p =>
          rcases p with ⟨loop', events⟩
          simp only [Option.map_some]
          rw [ih (g := { g with
            tickCount := g.tickCount + UInt64.ofNat (ServerLoop.steps events) }) hinert]
          cases ServerLoop.system.run loop' (its.map Iteration.wall) with
          | none => rfl
          | some q =>
              simp only [Option.map_some, ServerLoop.steps_append, UInt64.ofNat_add,
                UInt64.add_assoc, List.map_append]

/-- Whatever the wall times are, a dedicated server keeps the world that the constructor makes:
its run is one of the server loop, the tick count is the number of its steps, no entity comes,
goes or changes, and no step of the game is ever impossible. -/
theorem run_start_eq (its : List Iteration) :
    (system K).run start its =
      (ServerLoop.system.run ServerLoop.start (its.map Iteration.wall)).map fun p =>
        ({ game := { Game.init true with tickCount := UInt64.ofNat (ServerLoop.steps p.2) }
           loop := p.1 }, p.2.map .loop) := by
  have hrun := run_of_inert (Game.inert_init (K := K) true) ServerLoop.start its
  have hzero : (Game.init true : Game K).tickCount = 0 := rfl
  simp only [hzero, UInt64.zero_add] at hrun
  exact hrun

end ServerInstance

end GameFramework
