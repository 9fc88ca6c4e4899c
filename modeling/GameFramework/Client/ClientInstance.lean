import GameFramework.Client.ClientLoop
import GameFramework.Client.Scene
import GameFramework.Game.Accounts
import GameFramework.Game.Selection
import GameFramework.Game.Spacing

/-!
# Playing locally

{lit}`ClientInstance` as {lit}`main` makes it: with a game of its own and one tank.  The client
loop decides which calls a frame makes; here the calls act.  A label is what the environment
decides about a frame: the time since the previous one, the keys, and the order in which the
views enumerate entities in each call.

A frame is not possible when the clock runs backwards, when the game step destroys an entity
that is no longer valid, and when a destructible has no drawing.

Main results:

- Definition {lit}`ClientInstance.system`: the frames as a labelled system.
- Theorem {lit}`ClientInstance.run_spec`: a run is one of the game and one of the client loop.
- Theorem {lit}`ClientInstance.solo_of_reachable`: there is one tank, and it never goes.
- Theorem {lit}`ClientInstance.played_of_reachable`: every press of the trigger fires one
  bullet, and the camera follows the tank.
- Theorem {lit}`ClientInstance.tickCount_isLeast`: the tick count in terms of the frame times.
- Theorem {lit}`ClientInstance.shots_accounted`: where the shots of a session have gone.
- Theorem {lit}`ClientInstance.run_isSome_of_clear`: without further destructibles every frame
  is possible.
-/

namespace GameFramework

open EntityRegistry Labelled

/-- The keys that {lit}`handleInput` asks for. -/
inductive Key where
  | w | up | s | down | a | left | d | right
  | space | g | c | x
  deriving DecidableEq

/-- What the window library says about the keys in a frame. -/
structure Keyboard where
  isKeyDown : Key → Bool
  isKeyPressed : Key → Bool

/-- {lit}`RenderState`; of the camera only its target changes. -/
structure RenderState (K : Type*) where
  debugDrawEnabled : Bool
  target : B2Vec2 K

/-- The game, the renderer and the local variable of {lit}`run`. -/
structure ClientInstance (K : Type*) where
  game : Game K
  renderState : RenderState K
  loop : ClientLoop K

/-- What the environment decides about a frame. -/
structure Frame (K : Type*) where
  elapsed : K
  keyboard : Keyboard
  order : ClientEvent → ViewOrder

/-- What a frame records: the events of the game, and what is drawn under which camera. -/
inductive SessionEvent (K : Type*) where
  | game (event : GameEvent)
  | drawn (target : B2Vec2 K) (drawings : List (Drawing K))

namespace ClientInstance

variable {K : Type*} [Field K] [LinearOrder K] [FloatOps K] [FloorSemiring K]

/-- {lit}`m_localPeerId` -/
def localPeerId : PeerID := 1

/-! ## The calls of a frame -/

/-- The input that the keys stand for. -/
def inputState (keyboard : Keyboard) : InputState K :=
  let throttleInput : K := 0
  let turnInput : K := 0
  let throttleInput :=
    if keyboard.isKeyDown .w || keyboard.isKeyDown .up then throttleInput + 1 else throttleInput
  let throttleInput :=
    if keyboard.isKeyDown .s || keyboard.isKeyDown .down then throttleInput - 1 else throttleInput
  let turnInput :=
    if keyboard.isKeyDown .a || keyboard.isKeyDown .left then turnInput - 1 else turnInput
  let turnInput :=
    if keyboard.isKeyDown .d || keyboard.isKeyDown .right then turnInput + 1 else turnInput
  { throttle := throttleInput, turn := turnInput, shoot := keyboard.isKeyPressed .space }

def handleInput (order : ViewOrder) (keyboard : Keyboard) (s : ClientInstance K) :
    ClientInstance K × List GameEvent :=
  let renderState : RenderState K :=
    if keyboard.isKeyPressed .g then
      { s.renderState with debugDrawEnabled := !s.renderState.debugDrawEnabled }
    else s.renderState
  let (game, collectible) :=
    if keyboard.isKeyPressed .c then s.game.spawnCollectible ⟨10, 10⟩ else (s.game, [])
  let (game, destructible) :=
    if keyboard.isKeyPressed .x then game.spawnDestructible ⟨20, 0⟩ else (game, [])
  let (game, fired) := game.queueInput order (inputState keyboard) localPeerId
  ({ s with game := game, renderState := renderState }, collectible ++ destructible ++ fired)

def step (order : ViewOrder) (s : ClientInstance K) :
    Option (ClientInstance K × List GameEvent) :=
  (s.game.step order).map fun p => ({ s with game := p.1 }, p.2)

/-- {lit}`GameRenderer::render` -/
def render (order : ViewOrder) (s : ClientInstance K) :
    Option (ClientInstance K × List (SessionEvent K)) :=
  let target := GameRenderer.cameraTarget order s.game.registry s.renderState.target
  (GameRenderer.renderGameContent order s.game.registry).map fun drawings =>
    ({ s with renderState := { s.renderState with target := target } }, [.drawn target drawings])

/-- What a call of a frame does. -/
def act (frame : Frame K) (s : ClientInstance K) :
    ClientEvent → Option (ClientInstance K × List (SessionEvent K))
  | .inputHandled =>
      let p := s.handleInput (frame.order .inputHandled) frame.keyboard
      some (p.1, p.2.map .game)
  | .stepped => (s.step (frame.order .stepped)).map fun p => (p.1, p.2.map .game)
  | .rendered => s.render (frame.order .rendered)

/-- The calls of a frame as a labelled system. -/
def actions (frame : Frame K) : System (ClientInstance K) ClientEvent (SessionEvent K) where
  step := act frame

/-- One frame. -/
def frame (s : ClientInstance K) (frame : Frame K) :
    Option (ClientInstance K × List (SessionEvent K)) :=
  match s.loop.frame frame.elapsed with
  | none => none
  | some (loop, calls) => (actions frame).run { s with loop := loop } calls

/-- Before the first frame. -/
def start : ClientInstance K where
  game := ((Game.init true).spawnTank ⟨0, 0⟩ 0 localPeerId).1
  renderState := { debugDrawEnabled := false, target := ⟨0, 0⟩ }
  loop := ClientLoop.start

/-- The frames as a labelled system. -/
def system (K : Type*) [Field K] [LinearOrder K] [FloatOps K] [FloorSemiring K] :
    System (ClientInstance K) (Frame K) (SessionEvent K) where
  step := frame

/-! ## The game of a session -/

/-- The call of {lit}`run` that makes the tank. -/
def opening : List (GameCall K) :=
  [.spawnTank ⟨0, 0⟩ 0 localPeerId]

/-- The calls on the game in a call of a frame. -/
def gameCalls (frame : Frame K) : ClientEvent → List (GameCall K)
  | .inputHandled =>
      (if frame.keyboard.isKeyPressed .c then [.spawnCollectible ⟨10, 10⟩] else []) ++
        (if frame.keyboard.isKeyPressed .x then [.spawnDestructible ⟨20, 0⟩] else []) ++
        [.queueInput (frame.order .inputHandled) (inputState frame.keyboard) localPeerId]
  | .stepped => [.step (frame.order .stepped)]
  | .rendered => []

/-- The calls on the game in some frames. -/
def sessionCalls (loop : ClientLoop K) : List (Frame K) → List (GameCall K)
  | [] => []
  | frame :: frames =>
      match loop.frame frame.elapsed with
      | none => []
      | some (loop, calls) => calls.flatMap (gameCalls frame) ++ sessionCalls loop frames

/-- The events of the game in a history. -/
def gameHistory (h : List (SessionEvent K)) : List GameEvent :=
  h.filterMap fun
    | .game event => some event
    | .drawn _ _ => none

/-- The tank of the session. -/
def ownTank : Entity := 6

/-- The calls that neither make nor remove tanks, and inputs of the local player. -/
def Plain : GameCall K → Prop
  | .spawnTank _ _ _ => False
  | .destroyEntity _ => False
  | .queueInput _ _ peerId => peerId = localPeerId
  | _ => True

/-- The calls that fire. -/
def fires : GameCall K → Bool
  | .queueInput _ input _ => input.shoot
  | _ => false

/-- The events of fired bullets. -/
def isShot : GameEvent → Bool
  | .fired _ _ => true
  | _ => false

/-- There is one tank, that of the local player. -/
structure Solo (r : GameRegistry K) : Prop where
  own : ∃ c transform tank, r.row ownTank = some c ∧ c.transform = some transform ∧
    c.tank = some tank ∧ tank.isPlayer = true ∧ tank.peerId = localPeerId
  only : ∀ e c, r.row e = some c → c.tank ≠ none → e = ownTank

variable {s t : ClientInstance K} {f : Frame K} {frames : List (Frame K)}
  {h : List (SessionEvent K)} {g g' : Game K} {calls : List (GameCall K)} {call : GameCall K}
  {out gameOut : List GameEvent}

omit [Field K] [LinearOrder K] [FloatOps K] [FloorSemiring K] in
/-- The events of the game in what a call records. -/
@[simp]
theorem gameHistory_map (out : List GameEvent) :
    gameHistory (out.map (SessionEvent.game (K := K))) = out := by
  rw [gameHistory, List.filterMap_map]
  exact List.filterMap_some

omit [Field K] [LinearOrder K] [FloatOps K] [FloorSemiring K] in
@[simp]
theorem gameHistory_append (h h' : List (SessionEvent K)) :
    gameHistory (h ++ h') = gameHistory h ++ gameHistory h' :=
  List.filterMap_append

/-- The input of a frame makes the calls that the keys stand for. -/
theorem handleInput_spec (f : Frame K) (s : ClientInstance K) :
    (Game.system K).run s.game (gameCalls f .inputHandled) =
        some ((s.handleInput (f.order .inputHandled) f.keyboard).1.game,
          (s.handleInput (f.order .inputHandled) f.keyboard).2) ∧
      (s.handleInput (f.order .inputHandled) f.keyboard).1.loop = s.loop := by
  refine ⟨?_, rfl⟩
  cases hc : f.keyboard.isKeyPressed .c <;> cases hx : f.keyboard.isKeyPressed .x <;>
    simp [gameCalls, handleInput, hc, hx, System.run, Game.system, Game.call]

/-- A call of a frame acts on the game by its calls, and not on the clock. -/
theorem act_spec {event : ClientEvent} (hact : act f s event = some (t, h)) :
    (Game.system K).run s.game (gameCalls f event) = some (t.game, gameHistory h) ∧
      t.loop = s.loop := by
  cases event with
  | inputHandled =>
      rcases Prod.mk.inj (Option.some.inj hact) with ⟨rfl, rfl⟩
      rw [gameHistory_map]
      exact handleInput_spec f s
  | stepped =>
      rcases Option.map_eq_some_iff.mp hact with ⟨⟨v, out⟩, hv, heq⟩
      rcases Option.map_eq_some_iff.mp hv with ⟨⟨g, gameOut⟩, hg, heq'⟩
      cases heq'
      cases heq
      rw [gameHistory_map]
      exact ⟨(System.run_singleton _).mpr hg, rfl⟩
  | rendered =>
      rcases Option.map_eq_some_iff.mp hact with ⟨ds, _, heq⟩
      cases heq
      exact ⟨rfl, rfl⟩

/-- The calls of a frame act on the game one after the other. -/
theorem actions_spec {events : List ClientEvent}
    (hrun : (actions f).run s events = some (t, h)) :
    (Game.system K).run s.game (events.flatMap (gameCalls f)) = some (t.game, gameHistory h) ∧
      t.loop = s.loop := by
  induction events generalizing s h with
  | nil =>
      cases hrun
      exact ⟨rfl, rfl⟩
  | cons event events ih =>
      rcases (System.run_cons_eq_some _).mp hrun with ⟨v, out, rest, hact, hrest, rfl⟩
      rcases act_spec hact with ⟨hgame, hloop⟩
      rcases ih hrest with ⟨hgame', hloop'⟩
      rw [List.flatMap_cons, gameHistory_append]
      exact ⟨(System.run_append _).mpr ⟨_, _, _, hgame, hgame', rfl⟩, hloop'.trans hloop⟩

/-- A frame is one of the client loop, and its calls act on the game. -/
theorem frame_spec (hframe : s.frame f = some (t, h)) :
    ∃ events, s.loop.frame f.elapsed = some (t.loop, events) ∧
      (actions f).run { s with loop := t.loop } events = some (t, h) ∧
      (Game.system K).run s.game (events.flatMap (gameCalls f)) =
        some (t.game, gameHistory h) := by
  unfold frame at hframe
  split at hframe
  · contradiction
  · rename_i loop events hloop
    rcases actions_spec hframe with ⟨hgame, hsame⟩
    have hloop' : t.loop = loop := hsame
    exact ⟨events, hloop'.symm ▸ hloop, hloop'.symm ▸ hframe, hgame⟩

omit [LinearOrder K] [FloatOps K] [FloorSemiring K] in
/-- The game steps of a frame are those of the client loop. -/
theorem stepCount_gameCalls (f : Frame K) (events : List ClientEvent) :
    Game.stepCount (events.flatMap (gameCalls f)) = ClientLoop.steps events := by
  induction events with
  | nil => rfl
  | cons event events ih =>
      have hcons : ClientLoop.steps (event :: events) =
          ClientLoop.steps [event] + ClientLoop.steps events :=
        ClientLoop.steps_append [event] events
      rw [List.flatMap_cons, Game.stepCount_append, ih, hcons]
      refine congrArg (· + ClientLoop.steps events) ?_
      cases event with
      | inputHandled =>
          cases hc : f.keyboard.isKeyPressed .c <;> cases hx : f.keyboard.isKeyPressed .x <;>
            simp [gameCalls, Game.stepCount, ClientLoop.steps, hc, hx]
      | stepped => rfl
      | rendered => rfl

/-- A run of the session is a run of the game and a run of the client loop. -/
theorem run_spec (hrun : (system K).run s frames = some (t, h)) :
    (Game.system K).run s.game (sessionCalls s.loop frames) = some (t.game, gameHistory h) ∧
      ∃ events, ClientLoop.system.run s.loop (frames.map Frame.elapsed) =
          some (t.loop, events) ∧
        Game.stepCount (sessionCalls s.loop frames) = ClientLoop.steps events := by
  induction frames generalizing s h with
  | nil =>
      cases hrun
      exact ⟨rfl, [], rfl, rfl⟩
  | cons f frames ih =>
      rcases (System.run_cons_eq_some _).mp hrun with ⟨v, out, rest, hframe, hrest, rfl⟩
      rcases frame_spec hframe with ⟨events, hloop, _, hgame⟩
      rcases ih hrest with ⟨hgame', events', hloop', hsteps⟩
      simp only [sessionCalls, hloop]
      refine ⟨?_, events ++ events', ?_, ?_⟩
      · rw [gameHistory_append]
        exact (System.run_append _).mpr ⟨_, _, _, hgame, hgame', rfl⟩
      · exact (System.run_cons_eq_some _).mpr ⟨_, _, _, hloop, hloop', rfl⟩
      · rw [Game.stepCount_append, stepCount_gameCalls, hsteps, ClientLoop.steps_append]

/-! ## One tank -/

/-- No call changes the tank of an entity that has one of the local player. -/
theorem kept_own : Game.Kept fun c : Components K => ∀ tank, c.tank = some tank →
    tank.isPlayer = true ∧ tank.peerId = localPeerId :=
  Game.Kept.tank _

/-- The own tank outlives a plain call. -/
theorem valid_ownTank_of_call (hplain : Plain call) (hcall : g.call call = some (g', out))
    {c : Components K} (hrow : g.registry.row ownTank = some c) (hc : Archetype.tank.Fits c) :
    g'.registry.valid ownTank := by
  have hlt := Registry.lt_next_of_row hrow
  rcases Game.call_cases hcall with ⟨order, rfl, hstep⟩ | ⟨order, input, peerId, rfl, rfl, rfl⟩ |
    ⟨entityType, position, rotation, peerId, _, rfl, rfl⟩ | ⟨entity, rfl, rfl, rfl⟩
  · exact Game.valid_step_of_fits (by decide) hstep hrow hc
  · rw [Registry.valid_iff_exists_row, Game.row_queueInput order input peerId g hlt, hrow]
    exact ⟨_, rfl⟩
  · rw [Registry.valid_iff_exists_row, Game.row_spawn, if_neg (Nat.ne_of_lt hlt), hrow]
    exact ⟨_, rfl⟩
  · exact absurd hplain id

/-- A plain call makes no tank. -/
theorem tank_eq_none_of_call (hplain : Plain call) (hcall : g.call call = some (g', out))
    {e : Entity} (he : g.registry.next ≤ e) {c : Components K}
    (hrow : g'.registry.row e = some c) : c.tank = none := by
  rcases Game.row_new hcall he hrow with ⟨entityType, position, rotation, peerId, hspawned, rfl⟩ |
    ⟨_, _, _, _, rfl⟩
  · have htype := Game.spawns_of_mem_spawned hcall hspawned
    by_contra htank
    rcases Option.ne_none_iff_exists'.mp htank with ⟨tank, htank⟩
    have hplayer := (Game.of_tank_row htank).1
    have hkinds : entityTypeBullet ≠ entityTypePlayer ∧
        entityTypeCollectible ≠ entityTypePlayer ∧
        entityTypeDestructible ≠ entityTypePlayer := by decide
    cases call with
    | spawnTank => exact hplain
    | destroyEntity => exact hplain
    | spawnBullet => exact hkinds.1 ((Option.some.inj htype).trans hplayer)
    | spawnCollectible => exact hkinds.2.1 ((Option.some.inj htype).trans hplayer)
    | spawnDestructible => exact hkinds.2.2 ((Option.some.inj htype).trans hplayer)
    | step => cases htype
    | queueInput => cases htype
  · rfl

/-- Plain calls leave the one tank alone. -/
theorem solo_call (hsolo : Solo g.registry) (hplain : Plain call)
    (hfits : ∀ c, g.registry.row ownTank = some c → c.tank ≠ none → Archetype.tank.Fits c)
    (hcall : g.call call = some (g', out)) : Solo g'.registry := by
  rcases hsolo.own with ⟨c, transform, tank, hrow, _, htank, hplayer, hpeer⟩
  have hlt := Registry.lt_next_of_row hrow
  have hc := hfits c hrow (by simp [htank])
  constructor
  · have hvalid := valid_ownTank_of_call hplain hcall hrow hc
    rcases Registry.valid_iff_exists_row.mp hvalid with ⟨c', hrow'⟩
    have hc' : Archetype.tank.Fits c' := by
      refine Game.row_call_of_kept (Game.kept_fits .tank) hcall hlt (fun c₀ hc₀ => ?_) c' hrow'
      rw [hrow] at hc₀
      exact Option.some.inj hc₀ ▸ hc
    have hown : ∀ tank, c'.tank = some tank → tank.isPlayer = true ∧ tank.peerId = localPeerId := by
      refine Game.row_call_of_kept kept_own hcall hlt (fun c₀ hc₀ tank₀ htank₀ => ?_) c' hrow'
      rw [hrow] at hc₀
      cases hc₀
      rw [htank] at htank₀
      exact Option.some.inj htank₀ ▸ ⟨hplayer, hpeer⟩
    rcases Option.isSome_iff_exists.mp (hc'.isSome (k := .transform) (by decide)) with
      ⟨transform', ht'⟩
    rcases Option.isSome_iff_exists.mp (hc'.isSome (k := .tank) (by decide)) with ⟨tank', hk'⟩
    exact ⟨c', transform', tank', hrow', ht', hk', hown tank' hk'⟩
  · intro e c' hrow' htank'
    by_contra hne
    refine htank' ?_
    rcases Nat.lt_or_ge e g.registry.next with he | he
    · have hnone : ∀ tank, c'.tank = some tank → False := by
        refine Game.row_call_of_kept (Game.Kept.tank fun _ => False) hcall he ?_ c' hrow'
        intro c₀ hc₀ tank₀ htank₀
        exact hne (hsolo.only e c₀ hc₀ (by simp [htank₀]))
      exact Option.eq_none_iff_forall_not_mem.mpr hnone
    · exact tank_eq_none_of_call hplain hcall he hrow'

/-- The tank that {lit}`run` makes is the only one. -/
theorem solo_start : Solo (start : ClientInstance K).game.registry := by
  constructor
  · exact ⟨_, _, _, rfl, rfl, rfl, rfl, rfl⟩
  · intro e c hrow htank
    change (Game.spawn _ _ _ _ _).1.registry.row e = some c at hrow
    rw [Game.row_spawn] at hrow
    split at hrow
    · assumption
    · -- the constructor makes no tanks
      rcases Option.ne_none_iff_exists'.mp htank with ⟨tank, htank⟩
      have hinit : (Game.system K).run (Game.init true) [] = some (Game.init true, []) := rfl
      rcases Game.recorded_of_reachable hinit e c hrow tank htank with ⟨_, hspawned, _⟩
      cases hspawned

/-- After the opening and plain calls there is one tank. -/
theorem solo_of_plain
    (hrun : (Game.system K).run (Game.init true) (opening ++ calls) = some (g, gameOut))
    (hplain : ∀ call ∈ calls, Plain call) : Solo g.registry := by
  induction calls using List.reverseRecOn generalizing g gameOut with
  | nil =>
      cases hrun
      exact solo_start
  | append_singleton calls call ih =>
      rw [← List.append_assoc] at hrun
      rcases (System.run_append _).mp hrun with ⟨v, h₁, h₂, hpre, hlast, _⟩
      have hbefore := ih hpre fun c hc => hplain c (List.mem_append_left _ hc)
      refine solo_call hbefore (hplain call (by simp)) (fun c hrow htank => ?_)
        ((System.run_singleton _).mp hlast)
      rcases Option.ne_none_iff_exists'.mp htank with ⟨tank, htank⟩
      exact Game.fits_tank_of_reachable hpre hrow htank

/-! ## Shots and camera -/

omit [Field K] [LinearOrder K] [FloatOps K] [FloorSemiring K] in
/-- The loops over tanks visit the one tank. -/
theorem view_of_solo {r : GameRegistry K} (hsolo : Solo r) (order : ViewOrder) (v : View) :
    r.view order v Components.hasTransformTank = [ownTank] := by
  refine List.perm_singleton.mp ((List.perm_ext_iff_of_nodup (r.nodup_view order v _)
    (List.nodup_singleton _)).mpr fun e => ?_)
  rw [Registry.mem_view, List.mem_singleton]
  constructor
  · rintro ⟨c, hrow, htest⟩
    refine hsolo.only e c hrow fun hnone => ?_
    simp [Components.hasTransformTank, hnone] at htest
  · rintro rfl
    rcases hsolo.own with ⟨c, transform, tank, hrow, ht, hk, _⟩
    exact ⟨c, hrow, by simp [Components.hasTransformTank, ht, hk]⟩

omit [Field K] [LinearOrder K] [FloatOps K] [FloorSemiring K] in
/-- The camera is pointed at the one tank. -/
theorem positionOf_ownTank {r : GameRegistry K} (hsolo : Solo r) (order : ViewOrder)
    (target : B2Vec2 K) : CollisionSystem.positionOf r ownTank =
      some (GameRenderer.cameraTarget order r target) := by
  rcases hsolo.own with ⟨c, transform, tank, hrow, ht, hk, hplayer, _⟩
  simp [GameRenderer.cameraTarget, view_of_solo hsolo, CollisionSystem.positionOf, hrow, ht, hk,
    hplayer]

omit [LinearOrder K] [FloorSemiring K] in
/-- Inputs do not change who is there. -/
theorem solo_apply {r : GameRegistry K} (hsolo : Solo r) (order : ViewOrder) (peerId : UInt32)
    (input : InputState K) : Solo (InputSystem.apply order r peerId input) := by
  rcases hsolo.own with ⟨c, transform, tank, hrow, ht, hk, hown⟩
  constructor
  · refine ⟨InputSystem.onRow peerId input c, transform, tank, ?_, ?_, ?_, hown⟩
    · rw [InputSystem.row_apply, hrow, Option.map_some]
    · rw [InputSystem.transform_onRow, ht]
    · rw [InputSystem.tank_onRow, hk]
  · intro e c' hrow' htank
    rw [InputSystem.row_apply] at hrow'
    rcases Option.map_eq_some_iff.mp hrow' with ⟨c₀, hc₀, rfl⟩
    rw [InputSystem.tank_onRow] at htank
    exact hsolo.only e c₀ hc₀ htank

omit [LinearOrder K] [FloorSemiring K] in
/-- An input of the local player fires one bullet if it is to shoot. -/
theorem queueInput_of_solo (hsolo : Solo g.registry) (order : ViewOrder) (input : InputState K) :
    (g.queueInput order input localPeerId).2 =
      if input.shoot then [.fired ownTank g.registry.next] else [] := by
  have hsteered := solo_apply hsolo order localPeerId.toUInt32 input
  rcases hsteered.own with ⟨c, transform, tank, hrow, ht, hk, hplayer, hpeer⟩
  cases hshoot : input.shoot with
  | false => simp [Game.queueInput, hshoot]
  | true =>
      simp [Game.queueInput, hshoot, ShootSystem.process, view_of_solo hsteered,
        ShootSystem.fire, hrow, ht, hk, hplayer, hpeer]

/-- The shots of a plain call. -/
theorem shots_call (hsolo : Solo g.registry) (hplain : Plain call)
    (hcall : g.call call = some (g', out)) :
    out.filter isShot = if fires call then [.fired ownTank g.registry.next] else [] := by
  have hspawn : ∀ entityType position rotation peerId,
      (g.spawn entityType position rotation peerId).2.filter isShot = [] :=
    fun _ _ _ _ => rfl
  cases call with
  | step order =>
      have hstep : g.step order = some (g', out) := hcall
      rw [Game.step_eq, Option.map_eq_some_iff] at hstep
      rcases hstep with ⟨p, _, heq⟩
      have hout := congrArg Prod.snd heq
      simp only at hout
      rw [← hout]
      simp [fires, isShot]
  | queueInput order input peerId =>
      have hout : (g.queueInput order input peerId).2 = out :=
        congrArg Prod.snd (Option.some.inj hcall)
      have hpeer : peerId = localPeerId := hplain
      rw [← hout, hpeer, queueInput_of_solo hsolo, fires]
      split <;> rfl
  | spawnTank => exact absurd hplain id
  | destroyEntity => exact absurd hplain id
  | spawnBullet | spawnCollectible | spawnDestructible =>
      have hout : _ = out := congrArg Prod.snd (Option.some.inj hcall)
      rw [← hout]
      exact hspawn _ _ _ _

/-- After the opening, the shots are the calls that fire, and the one tank has fired them. -/
theorem shots_of_plain
    (hrun : (Game.system K).run (Game.init true) (opening ++ calls) = some (g, gameOut))
    (hplain : ∀ call ∈ calls, Plain call) :
    (gameOut.filter isShot).length = calls.countP fires ∧
      ∀ t b, .fired t b ∈ gameOut → t = ownTank := by
  induction calls using List.reverseRecOn generalizing g gameOut with
  | nil =>
      cases hrun
      exact ⟨rfl, by simp⟩
  | append_singleton calls call ih =>
      rw [← List.append_assoc] at hrun
      rcases (System.run_append _).mp hrun with ⟨v, h₁, h₂, hpre, hlast, rfl⟩
      have hplain' : ∀ c ∈ calls, Plain c := fun c hc => hplain c (List.mem_append_left _ hc)
      rcases ih hpre hplain' with ⟨hcount, hown⟩
      have hshots := shots_call (solo_of_plain hpre hplain') (hplain call (by simp))
        ((System.run_singleton _).mp hlast)
      constructor
      · rw [List.filter_append, List.length_append, hcount, hshots, List.countP_append,
          List.countP_singleton]
        split <;> rfl
      · intro t b hfired
        rcases List.mem_append.mp hfired with hold | hnew
        · exact hown t b hold
        · have hmem : .fired t b ∈ h₂.filter isShot := List.mem_filter.mpr ⟨hnew, rfl⟩
          rw [hshots] at hmem
          split at hmem
          · exact (GameEvent.fired.inj (List.mem_singleton.mp hmem)).1
          · cases hmem

/-! ## Sessions -/

omit [FloatOps K] [FloorSemiring K] in
/-- The calls of a frame are plain, and one of them fires if the trigger is pressed. -/
theorem gameCalls_spec {loop loop' : ClientLoop K} {events : List ClientEvent}
    (hloop : loop.frame f.elapsed = some (loop', events)) :
    (∀ call ∈ events.flatMap (gameCalls f), Plain call) ∧
      (events.flatMap (gameCalls f)).countP fires =
        (if f.keyboard.isKeyPressed .space then 1 else 0) ∧
      ∃ before, events = before ++ [.rendered] := by
  have hinput : (∀ call ∈ gameCalls f .inputHandled, Plain call) ∧
      (gameCalls f .inputHandled).countP fires =
        if f.keyboard.isKeyPressed .space then 1 else 0 := by
    constructor
    · simp only [gameCalls, List.mem_append]
      rintro call ((hcall | hcall) | hcall)
      · split at hcall <;> simp_all [Plain]
      · split at hcall <;> simp_all [Plain]
      · simp_all [Plain]
    · cases hc : f.keyboard.isKeyPressed .c <;> cases hx : f.keyboard.isKeyPressed .x <;>
        cases hspace : f.keyboard.isKeyPressed .space <;>
        simp [gameCalls, fires, inputState, hc, hx, hspace]
  unfold ClientLoop.frame at hloop
  split at hloop
  · simp only at hloop
    split at hloop
    · cases hloop
      refine ⟨?_, ?_, [.inputHandled, .stepped], rfl⟩
      · simp only [List.flatMap_cons, List.flatMap_nil, List.append_nil, List.forall_mem_append]
        exact ⟨hinput.1, by simp [gameCalls, Plain], by simp [gameCalls]⟩
      · simp only [List.flatMap_cons, List.flatMap_nil, List.append_nil, List.countP_append,
          hinput.2]
        rfl
    · cases hloop
      refine ⟨?_, ?_, [.inputHandled], rfl⟩
      · simp only [List.flatMap_cons, List.flatMap_nil, List.append_nil, List.forall_mem_append]
        exact ⟨hinput.1, by simp [gameCalls]⟩
      · simp only [List.flatMap_cons, List.flatMap_nil, List.append_nil, List.countP_append,
          hinput.2]
        rfl
  · contradiction

/-- The calls of a session are plain, and those that fire are the presses of the trigger. -/
theorem sessionCalls_spec (hrun : (system K).run s frames = some (t, h)) :
    (∀ call ∈ sessionCalls s.loop frames, Plain call) ∧
      (sessionCalls s.loop frames).countP fires =
        frames.countP fun f => f.keyboard.isKeyPressed .space := by
  induction frames generalizing s h with
  | nil => exact ⟨nofun, rfl⟩
  | cons f frames ih =>
      rcases (System.run_cons_eq_some _).mp hrun with ⟨v, out, rest, hframe, hrest, rfl⟩
      rcases frame_spec hframe with ⟨events, hloop, _, _⟩
      rcases gameCalls_spec hloop with ⟨hplain, hcount, _⟩
      rcases ih hrest with ⟨hplain', hcount'⟩
      simp only [sessionCalls, hloop]
      refine ⟨List.forall_mem_append.mpr ⟨hplain, hplain'⟩, ?_⟩
      rw [List.countP_append, hcount, hcount', List.countP_cons, Nat.add_comm]

/-- The game starts with one tank. -/
theorem run_opening : (Game.system K).run (Game.init true) opening =
    some (start.game, [.spawned entityTypePlayer ownTank localPeerId]) :=
  rfl

/-- The game of a session is reachable. -/
theorem run_game (hrun : (system K).run start frames = some (s, h)) :
    (Game.system K).run (Game.init true) (opening ++ sessionCalls ClientLoop.start frames) =
      some (s.game, .spawned entityTypePlayer ownTank localPeerId :: gameHistory h) :=
  (System.run_append _).mpr ⟨_, _, _, run_opening, (run_spec hrun).1, rfl⟩

/-- There is one tank throughout a session. -/
theorem solo_of_reachable (hrun : (system K).run start frames = some (s, h)) :
    Solo s.game.registry :=
  solo_of_plain (run_game hrun) (sessionCalls_spec hrun).1

/-- A frame ends with the camera at the one tank. -/
theorem target_frame (hsolo : Solo t.game.registry) (hframe : s.frame f = some (t, h)) :
    CollisionSystem.positionOf t.game.registry ownTank = some t.renderState.target := by
  rcases frame_spec hframe with ⟨events, hloop, hactions, _⟩
  rcases (gameCalls_spec hloop).2.2 with ⟨before, rfl⟩
  rcases (System.run_append _).mp hactions with ⟨v, h₁, h₂, _, hlast, _⟩
  have hrender : v.render (f.order .rendered) = some (t, h₂) := (System.run_singleton _).mp hlast
  rcases Option.map_eq_some_iff.mp hrender with ⟨ds, _, heq⟩
  cases heq
  exact positionOf_ownTank hsolo _ _

/-- What holds after some frames: there is one tank, which has fired one bullet for every press
of the trigger, the game has made the steps of the client loop, and the camera is at the tank. -/
structure Played (frames : List (Frame K)) (s : ClientInstance K) (h : List (SessionEvent K)) :
    Prop where
  solo : Solo s.game.registry
  shots : ((gameHistory h).filter isShot).length =
    frames.countP fun f => f.keyboard.isKeyPressed .space
  own : ∀ t b, .game (.fired t b) ∈ h → t = ownTank
  ticks : ∃ events, ClientLoop.system.run ClientLoop.start (frames.map Frame.elapsed) =
      some (s.loop, events) ∧ s.game.tickCount = UInt64.ofNat (ClientLoop.steps events)
  followed : frames ≠ [] →
    CollisionSystem.positionOf s.game.registry ownTank = some s.renderState.target

/-- However long the frames are and whatever keys are pressed, no shot is lost or doubled, and
the tank is there and in view. -/
theorem played_of_reachable (hrun : (system K).run start frames = some (s, h)) :
    Played frames s h := by
  have hsolo := solo_of_reachable hrun
  rcases sessionCalls_spec hrun with ⟨hplain, hcount⟩
  rcases shots_of_plain (run_game hrun) hplain with ⟨hshots, hown⟩
  refine ⟨hsolo, hshots.trans hcount, fun t b hfired => ?_, ?_, fun hne => ?_⟩
  · exact hown t b (List.mem_cons_of_mem _ (List.mem_filterMap.mpr ⟨_, hfired, rfl⟩))
  · rcases run_spec hrun with ⟨hgame, events, hloop, hsteps⟩
    refine ⟨events, hloop, ?_⟩
    have hticks := Game.tickCount_run hgame
    have hzero : (start : ClientInstance K).game.tickCount = 0 := rfl
    rw [hticks, hzero, UInt64.zero_add, hsteps]
  · rcases List.eq_nil_or_concat frames with rfl | ⟨pre, f, rfl⟩
    · exact absurd rfl hne
    · rw [List.concat_eq_append] at hrun
      rcases (System.run_append _).mp hrun with ⟨v, h₁, h₂, _, hlast, _⟩
      exact target_frame hsolo ((System.run_singleton _).mp hlast)

/-- A frame with some keys held and some pressed. -/
def ofKeys (elapsed : K) (held pressed : List Key) : Frame K where
  elapsed := elapsed
  keyboard := { isKeyDown := held.contains, isKeyPressed := pressed.contains }
  order _ := Enumeration.stored View

/-- Three frames: driving, a shot without a step, and another one. -/
def driveFrames : List (Frame ℚ) :=
  [ofKeys (1 / 60) [.w] [], ofKeys (1 / 120) [.w] [.space], ofKeys (1 / 120) [] [.space]]

/-- Driving and shooting. -/
theorem played_of_reachable_drive :
    ∃ s h, (system ℚ).run start driveFrames = some (s, h) ∧ Played driveFrames s h := by
  have hsome : ((system ℚ).run start driveFrames).isSome = true := by decide +kernel
  rcases Option.isSome_iff_exists.mp hsome with ⟨⟨s, h⟩, hrun⟩
  exact ⟨s, h, hrun, played_of_reachable hrun⟩

/-- The tick count of the game is the least, over all times of the session, of the whole timesteps
until then and the frames since; whatever else the frames do has no part in it. -/
theorem tickCount_isLeast [IsStrictOrderedRing K]
    (hrun : (system K).run start frames = some (s, h)) :
    ∃ n, s.game.tickCount = UInt64.ofNat n ∧
      IsLeast {m | ∃ pre post, frames = pre ++ post ∧
        m = ⌊(pre.map Frame.elapsed).sum / ClientLoop.currentTimestep⌋₊ + post.length} n := by
  rcases run_spec hrun with ⟨hgame, events, hloop, hsteps⟩
  refine ⟨ClientLoop.steps events, ?_, ?_⟩
  · have hticks := Game.tickCount_run hgame
    have hzero : (start : ClientInstance K).game.tickCount = 0 := rfl
    rw [hticks, hzero, UInt64.zero_add, hsteps]
  · rcases ClientLoop.steps_isLeast hloop with ⟨⟨pre, post, hsplit, hcount⟩, hleast⟩
    refine ⟨?_, ?_⟩
    · rcases List.map_eq_append_iff.mp hsplit with ⟨pre', post', hframes, rfl, rfl⟩
      exact ⟨pre', post', hframes, by rw [hcount, List.length_map]⟩
    · rintro m ⟨pre', post', rfl, rfl⟩
      exact hleast ⟨pre'.map Frame.elapsed, post'.map Frame.elapsed, by rw [List.map_append],
        by rw [List.length_map]⟩

/-- The tick count of this session. -/
theorem tickCount_isLeast_drive :
    ∃ s h, (system ℚ).run start driveFrames = some (s, h) ∧ ∃ n, s.game.tickCount = UInt64.ofNat n ∧
      IsLeast {m | ∃ pre post, driveFrames = pre ++ post ∧
        m = ⌊(pre.map Frame.elapsed).sum / ClientLoop.currentTimestep⌋₊ + post.length} n := by
  have hsome : ((system ℚ).run start driveFrames).isSome = true := by decide +kernel
  rcases Option.isSome_iff_exists.mp hsome with ⟨⟨s, h⟩, hrun⟩
  exact ⟨s, h, hrun, tickCount_isLeast hrun⟩

/-! ## Accounts -/

omit [LinearOrder K] [FloatOps K] [FloorSemiring K] in
/-- The calls of a frame make nothing for other peers, and no bullets but by shooting. -/
theorem own_gameCalls (f : Frame K) (event : ClientEvent) :
    ∀ call ∈ gameCalls f event,
      Game.OfPeer localPeerId call ∧ Game.spawns call ≠ some entityTypeBullet := by
  have hkinds : entityTypeCollectible ≠ entityTypeBullet ∧
      entityTypeDestructible ≠ entityTypeBullet := by decide
  intro call hcall
  cases event with
  | inputHandled =>
      simp only [gameCalls, List.mem_append] at hcall
      rcases hcall with (hcall | hcall) | hcall
      · split at hcall <;> simp_all [Game.OfPeer, Game.spawns]
      · split at hcall <;> simp_all [Game.OfPeer, Game.spawns]
      · simp_all [Game.OfPeer, Game.spawns]
  | stepped => simp_all [gameCalls, Game.OfPeer, Game.spawns]
  | rendered => cases hcall

omit [FloatOps K] [FloorSemiring K] in
/-- What holds of the calls of every frame holds of the calls of a session. -/
theorem forall_sessionCalls {P : GameCall K → Prop}
    (hP : ∀ f ∈ frames, ∀ event, ∀ call ∈ gameCalls f event, P call) (loop : ClientLoop K) :
    ∀ call ∈ sessionCalls loop frames, P call := by
  induction frames generalizing loop with
  | nil => exact fun call hcall => absurd hcall List.not_mem_nil
  | cons f frames ih =>
      simp only [sessionCalls]
      split
      · exact fun call hcall => absurd hcall List.not_mem_nil
      · rename_i loop' events _
        refine List.forall_mem_append.mpr ⟨fun call hcall => ?_, ?_⟩
        · rcases List.mem_flatMap.mp hcall with ⟨event, _, hmem⟩
          exact hP f List.mem_cons_self event call hmem
        · exact ih (fun f' hf' => hP f' (List.mem_cons_of_mem f hf')) loop'

/-- If no call spawns a bullet, the launches are shots. -/
theorem countP_isLaunch (hrun : (Game.system K).run g calls = some (g', gameOut))
    (hspawns : ∀ call ∈ calls, Game.spawns call ≠ some entityTypeBullet) :
    gameOut.countP GameEvent.isLaunch = (gameOut.filter isShot).length := by
  rw [← List.countP_eq_length_filter]
  refine List.countP_congr fun event hevent => ?_
  cases event with
  | spawned entityType entity peerId =>
      rcases System.exists_step_of_mem _ hrun hevent with
        ⟨pre, call, post, v, w, _, _, hsplit, _, hcall, hmem⟩
      have hne : entityType ≠ entityTypeBullet := by
        rintro rfl
        exact hspawns call (by simp [hsplit]) (Game.spawns_of_mem_spawned hcall hmem)
      simp [GameEvent.isLaunch, isShot, hne]
  | _ => rfl

/-- Every press of the trigger is a bullet in flight, an expiry or a collision, and every collision
has cost a destructible 25 of its health. -/
theorem shots_accounted [IsStrictOrderedRing K] (hrun : (system K).run start frames = some (s, h)) :
    s.game.inFlight + ((gameHistory h).countP GameEvent.isExpiry +
          (gameHistory h).countP GameEvent.isCollision) =
        frames.countP (fun f => f.keyboard.isKeyPressed .space) ∧
      s.game.damage = 25 * ((gameHistory h).countP GameEvent.isCollision : K) := by
  have hgame := run_game hrun
  rcases sessionCalls_spec hrun with ⟨hplain, hcount⟩
  have hown : ∀ call ∈ sessionCalls ClientLoop.start frames,
      Game.OfPeer localPeerId call ∧ Game.spawns call ≠ some entityTypeBullet :=
    forall_sessionCalls (fun f _ => own_gameCalls f) _
  have hspawns : ∀ call ∈ opening ++ sessionCalls ClientLoop.start frames,
      Game.spawns call ≠ some entityTypeBullet := by
    refine List.forall_mem_append.mpr ⟨fun call hcall => ?_, fun call hcall => (hown call hcall).2⟩
    rw [List.mem_singleton.mp hcall]
    exact fun heq => absurd (Option.some.inj heq) (by decide)
  have hpeer : ∀ call ∈ opening ++ sessionCalls ClientLoop.start frames,
      Game.OfPeer localPeerId call := by
    refine List.forall_mem_append.mpr ⟨fun call hcall => ?_, fun call hcall => (hown call hcall).1⟩
    rw [List.mem_singleton.mp hcall]
    rfl
  have hkept : ∀ call ∈ opening ++ sessionCalls ClientLoop.start frames,
      ∀ entity, call ≠ .destroyEntity entity := by
    refine List.forall_mem_append.mpr ⟨fun call hcall entity heq => ?_, ?_⟩
    · rw [List.mem_singleton.mp hcall] at heq
      cases heq
    · rintro call hcall entity rfl
      exact hplain _ hcall
  rcases Game.accounts_of_peer hgame hkept hpeer with ⟨hbullets, hdamage⟩
  rw [countP_isLaunch hgame hspawns, (shots_of_plain hgame hplain).1] at hbullets
  exact ⟨hbullets.trans hcount, hdamage⟩

/-- Driving towards the first destructible and shooting twice. -/
def assaultFrames : List (Frame ℚ) :=
  [ofKeys (1 / 60) [.w] [], ofKeys (1 / 60) [.w] [], ofKeys (1 / 60) [.w] [],
    ofKeys (1 / 60) [] [.space], ofKeys (1 / 60) [] [.space]]

/-- One shot has hit, the other one is in flight. -/
theorem shots_accounted_assault :
    ∃ s h, (system ℚ).run start assaultFrames = some (s, h) ∧
      (gameHistory h).countP GameEvent.isCollision = 1 ∧
      s.game.inFlight + ((gameHistory h).countP GameEvent.isExpiry +
          (gameHistory h).countP GameEvent.isCollision) = 2 ∧
        s.game.damage = 25 * ((gameHistory h).countP GameEvent.isCollision : ℚ) := by
  have hcollision : ((system ℚ).run start assaultFrames).map
      (fun p => (gameHistory p.2).countP GameEvent.isCollision) = some 1 := by
    decide +kernel
  rcases Option.map_eq_some_iff.mp hcollision with ⟨⟨s, h⟩, hrun, hone⟩
  exact ⟨s, h, hrun, hone, shots_accounted hrun⟩

/-! ## Every frame is possible -/

omit [LinearOrder K] [FloatOps K] [FloorSemiring K] in
/-- A call of a frame without a further destructible puts none anywhere. -/
theorem destructiblePoint_gameCalls (hclear : f.keyboard.isKeyPressed .x = false)
    (event : ClientEvent) : ∀ call ∈ gameCalls f event, Game.destructiblePoint call = none := by
  intro call hcall
  cases event with
  | inputHandled =>
      simp only [gameCalls, hclear, List.mem_append] at hcall
      rcases hcall with (hcall | hcall) | hcall
      · split at hcall <;> simp_all [Game.destructiblePoint]
      · simp at hcall
      · simp_all [Game.destructiblePoint]
  | stepped => simp_all [gameCalls, Game.destructiblePoint]
  | rendered => cases hcall

variable [IsStrictOrderedRing K] [LawfulFloatOps K]

omit [FloatOps K] [FloorSemiring K] [LawfulFloatOps K] in
/-- The initial destructibles are apart from each other. -/
theorem initialPoints_apart : (Game.initialPoints (K := K) true).Pairwise B2Vec2.Apart := by
  simp only [Game.initialPoints, if_true, List.pairwise_cons, List.mem_cons, List.not_mem_nil,
    or_false, forall_eq_or_imp, forall_eq, B2Vec2.Apart, List.Pairwise.nil, and_true]
  norm_num

omit [LawfulFloatOps K] in
/-- A game with the initial destructibles only can be drawn: they stand where they were put. -/
theorem drawable_of_clear {calls : List (GameCall K)} {g : Game K} {h : List GameEvent}
    (hrun : (Game.system K).run (Game.init true) calls = some (g, h))
    (hpoints : calls.filterMap Game.destructiblePoint = []) :
    GameRenderer.Drawable g.registry := by
  have hapart : (Game.initialPoints true ++ calls.filterMap Game.destructiblePoint).Pairwise
      B2Vec2.Apart := by
    rw [hpoints, List.append_nil]
    exact initialPoints_apart
  rcases Game.exists_spread hrun hapart with ⟨place, hspread⟩
  rw [hpoints, List.append_nil] at hspread
  intro e c transform d hrow htransform hd _
  have hstands := hspread.registry.stands e c hrow
  rcases hstands.placed (by simp [hd]) with ⟨p, rotation, hplace, hplaced⟩
  have hposition : transform.position = p := by
    rw [htransform, Option.some.injEq] at hplaced
    rw [hplaced]
  have hinitial := (hspread.known e p hplace).2
  rw [GameRenderer.BarFits, hposition, hstands.radius_eq d hd]
  simp only [Game.initialPoints, if_true, List.mem_cons, List.not_mem_nil, or_false] at hinitial
  rcases hinitial with rfl | rfl | rfl <;> norm_num [GameRenderer.FitsInt]

/-- Without further destructibles every frame is possible: no bullet is destroyed twice, and
every destructible can be drawn. -/
theorem run_isSome_of_clear
    (hframes : ∀ f ∈ frames, 0 ≤ f.elapsed ∧ f.keyboard.isKeyPressed .x = false) :
    ((system K).run start frames).isSome := by
  rw [System.run_isSome_iff]
  intro pre f post hsplit s h hrun
  have hclear : ∀ f' ∈ pre, f'.keyboard.isKeyPressed .x = false :=
    fun f' hf' => (hframes f' (by simp [hsplit, hf'])).2
  rcases hframes f (by simp [hsplit]) with ⟨helapsed, hf⟩
  have hown : ∀ call ∈ sessionCalls ClientLoop.start pre,
      Game.OfPeer localPeerId call ∧ Game.spawns call ≠ some entityTypeBullet :=
    forall_sessionCalls (fun f' _ => own_gameCalls f') _
  have hpoints := List.filterMap_eq_nil_iff.mpr
    (forall_sessionCalls (fun f' hf' => destructiblePoint_gameCalls (hclear f' hf'))
      ClientLoop.start)
  have hclock : (ClientLoop.system.run s.loop [f.elapsed]).isSome :=
    ClientLoop.run_isSome s.loop (by simpa using helapsed)
  rcases Option.isSome_iff_exists.mp hclock with ⟨⟨loop, events⟩, hloop⟩
  have hloop := (System.run_singleton _).mp hloop
  have hframe : s.frame f = (actions f).run { s with loop := loop } events := by
    unfold frame
    rw [show s.loop.frame f.elapsed = some (loop, events) from hloop]
  change (s.frame f).isSome
  rw [hframe, System.run_isSome_iff]
  intro done event rest _ v h' hdone
  -- the game when the call is made
  have hgame := (System.run_append _).mpr
    ⟨_, _, _, run_game hrun, (actions_spec hdone).1, rfl⟩
  have hdone : ∀ call ∈ done.flatMap (gameCalls f),
      Game.OfPeer localPeerId call ∧ Game.destructiblePoint call = none := by
    intro call hcall
    rcases List.mem_flatMap.mp hcall with ⟨event, _, hmem⟩
    exact ⟨(own_gameCalls f event call hmem).1, destructiblePoint_gameCalls hf event call hmem⟩
  have hpoints' := List.filterMap_eq_nil_iff.mpr fun call hcall => (hdone call hcall).2
  cases event with
  | inputHandled => rfl
  | stepped =>
      change ((v.step (f.order .stepped)).map _).isSome
      rw [Option.isSome_map, step, Option.isSome_map]
      refine Game.isSome_step_of_apart (p := localPeerId) hgame ?_ ?_ _
      · refine List.forall_mem_append.mpr ⟨List.forall_mem_append.mpr ⟨?_, ?_⟩, ?_⟩
        · intro call hcall
          rw [List.mem_singleton.mp hcall]
          rfl
        · exact fun call hcall => (hown call hcall).1
        · exact fun call hcall => (hdone call hcall).1
      · rw [List.filterMap_append, List.filterMap_append, hpoints, hpoints', List.append_nil,
          List.append_nil]
        exact initialPoints_apart
  | rendered =>
      have hdrawable : GameRenderer.Drawable v.game.registry := by
        refine drawable_of_clear hgame ?_
        rw [List.filterMap_append, List.filterMap_append, hpoints, hpoints', List.append_nil]
        rfl
      rcases Game.scene_of_drawable hgame hdrawable (f.order .rendered) with ⟨es, _, hscene, _⟩
      change ((GameRenderer.renderGameContent _ _).map _).isSome
      rw [Option.isSome_map, hscene]
      rfl

/-- A session with a shot, a collectible and a long frame. -/
theorem run_isSome_of_clear_shot :
    ((system ℝ).run start [ofKeys (1 / 60) [.w] [.space], ofKeys 3 [.up] [.c, .g]]).isSome := by
  refine run_isSome_of_clear ?_
  simp [ofKeys]

-- a second destructible in the place of the first, and a bullet that reaches both
example : ((system ℚ).run start [ofKeys (1 / 60) [.w] [.x], ofKeys (1 / 60) [.w] [],
    ofKeys (1 / 60) [.w] [], ofKeys (1 / 60) [] [.space], ofKeys (1 / 60) [] []]).isSome =
      false := by
  decide +kernel

end ClientInstance

end GameFramework
