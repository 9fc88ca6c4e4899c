import GameFramework.Game.Effects
import GameFramework.Lib.Renaming
import Mathlib.Algebra.Order.Ring.Rat
import Mathlib.Data.List.Nodup
import Mathlib.Data.Rat.Floor

/-!
# Inputs of different peers commute

An input steers the tanks of its peer and lets them fire.  Inputs of different
peers steer different tanks, and what a tank fires depends on its transform, which
inputs leave alone.  The order of the inputs is therefore visible only in the order
in which the fired bullets are made.

Main results:

- Theorem {lit}`Game.queueInput_tanks`: what an input call with a shot creates, tank by tank.
- Theorem {lit}`Game.queueInput_registry`: an input call steers every row and then
  creates the volley of its peer.
- Theorem {lit}`InputSystem.onRow_comm`: steering by different peers commutes.
- Theorem {lit}`Game.delivered_queueAll`: the registry after a list of inputs.
- Theorem {lit}`Game.queueAll_perm`: permuted inputs end in the same game up to a
  renaming of the new entities.
-/

namespace GameFramework

open EntityRegistry

variable {K : Type*} [Field K] [FloatOps K]

/-! ## Volleys -/

namespace ShootSystem

/-- The bullet that a row fires for a peer: none unless it is a player tank of the
peer. -/
def shotRow (tick : UInt64) (peerId : PeerID) (c : Components K) : Option (Components K) :=
  match c.transform, c.tank with
  | some transform, some tank =>
      if !tank.isPlayer || tank.peerId != peerId then none
      else some (bulletRow transform peerId tick)
  | _, _ => none

/-- A row without the components of a tank fires nothing. -/
theorem shotRow_of_not_view {tick : UInt64} {peerId : PeerID} {c : Components K}
    (h : c.hasTransformTank = false) : shotRow tick peerId c = none := by
  unfold shotRow
  cases htransform : c.transform with
  | none => rfl
  | some transform =>
      cases htank : c.tank with
      | none => rfl
      | some tank => simp [Components.hasTransformTank, htransform, htank] at h

/-- Only tanks fire. -/
theorem shotRow_of_not_tank {tick : UInt64} {peerId : PeerID} {c : Components K}
    (h : c.tank = none) : shotRow tick peerId c = none :=
  shotRow_of_not_view (by simp [Components.hasTransformTank, h])

theorem tank_of_shotRow {tick : UInt64} {peerId : PeerID} {c x : Components K}
    (h : shotRow tick peerId c = some x) : x.tank = none := by
  unfold shotRow at h
  split at h
  · split at h
    · contradiction
    · rw [← Option.some.inj h]
      rfl
  · contradiction

/-- What a row fires does not depend on its velocity. -/
theorem shotRow_onRow (tick : UInt64) (peerId : PeerID) (p : UInt32) (input : InputState K)
    (c : Components K) : shotRow tick peerId (InputSystem.onRow p input c) =
      shotRow tick peerId c := by
  unfold shotRow
  rw [InputSystem.transform_onRow, InputSystem.tank_onRow]

/-- Steering does not change what the rows fire. -/
theorem bind_shotRow_apply (order : ViewOrder) (r : GameRegistry K) (p : UInt32)
    (input : InputState K) (tick : UInt64) (peerId : PeerID) (e : Entity) :
    ((InputSystem.apply order r p input).row e).bind (shotRow tick peerId) =
      (r.row e).bind (shotRow tick peerId) := by
  rw [InputSystem.row_apply]
  cases r.row e with
  | none => rfl
  | some c => exact shotRow_onRow tick peerId p input c

/-- Steering does not change which rows the shooting loop visits. -/
theorem any_hasTransformTank_apply (order : ViewOrder) (r : GameRegistry K) (p : UInt32)
    (input : InputState K) (e : Entity) :
    ((InputSystem.apply order r p input).row e).any Components.hasTransformTank =
      (r.row e).any Components.hasTransformTank := by
  rw [InputSystem.row_apply]
  cases r.row e with
  | none => rfl
  | some c =>
      simp only [Option.map_some, Option.any_some, Components.hasTransformTank,
        InputSystem.transform_onRow, InputSystem.tank_onRow]

/-- One round of the shooting loop creates what the visited row fires. -/
theorem fire_fst (tick : UInt64) (ev : InputEvent K)
    (acc : GameRegistry K × List (Entity × Entity)) (e : Entity) :
    (fire tick ev acc e).1 =
      acc.1.createAll (((acc.1.row e).bind (shotRow tick ev.peerId)).toList) := by
  unfold fire
  cases hrow : acc.1.row e with
  | none => rfl
  | some c =>
      simp only [Option.bind_some, shotRow]
      cases c.transform with
      | none => rfl
      | some transform =>
          cases c.tank with
          | none => rfl
          | some tank =>
              by_cases hskip : (!tank.isPlayer || tank.peerId != ev.peerId) = true
              · simp only [hskip, if_true]
                rfl
              · simp only [hskip]
                exact Registry.modify_create acc.1 {} _

/-- The shooting loop creates what the visited rows fire, in loop order. -/
theorem foldl_fire_fst (tick : UInt64) (ev : InputEvent K) (r : GameRegistry K)
    {es : List Entity} (hes : ∀ e ∈ es, e < r.next)
    (acc : GameRegistry K × List (Entity × Entity)) (hnext : r.next ≤ acc.1.next)
    (hrow : ∀ e, e < r.next → acc.1.row e = r.row e) :
    (es.foldl (fire tick ev) acc).1 =
      acc.1.createAll (es.filterMap fun e => (r.row e).bind (shotRow tick ev.peerId)) := by
  induction es generalizing acc with
  | nil => rfl
  | cons e es ih =>
      have hlt := hes e List.mem_cons_self
      have hfire := fire_fst tick ev acc e
      rw [hrow e hlt] at hfire
      have hnext' : r.next ≤ (fire tick ev acc e).1.next := by
        rw [hfire, Registry.next_createAll]
        exact hnext.trans (Nat.le_add_right _ _)
      have hrow' : ∀ e', e' < r.next → (fire tick ev acc e).1.row e' = r.row e' := by
        intro e' he'
        rw [hfire, Registry.row_createAll_of_lt _ _ (he'.trans_le hnext)]
        exact hrow e' he'
      rw [List.foldl_cons, ih (fun e' he' => hes e' (List.mem_cons_of_mem e he')) _ hnext' hrow',
        hfire]
      cases hshot : (r.row e).bind (shotRow tick ev.peerId) with
      | none =>
          simp only [List.filterMap_cons, hshot]
          rfl
      | some x =>
          simp only [List.filterMap_cons, hshot]
          rfl

end ShootSystem

namespace Game

/-- What the tanks of a peer fire for an input. -/
def volley (g : Game K) (input : InputState K) (peerId : PeerID) : List (Components K) :=
  if input.shoot then
    g.registry.entities.filterMap fun e =>
      (g.registry.row e).bind (ShootSystem.shotRow g.tickCount peerId)
  else []

/-- What is fired is no tank. -/
theorem tank_of_mem_volley {g : Game K} {input : InputState K} {peerId : PeerID}
    {x : Components K} (h : x ∈ g.volley input peerId) : x.tank = none := by
  unfold volley at h
  split at h
  · rcases List.mem_filterMap.mp h with ⟨e, _, hshot⟩
    rcases Option.bind_eq_some_iff.mp hshot with ⟨c, _, hc⟩
    exact ShootSystem.tank_of_shotRow hc
  · simp at h

/-- An input call with a shot steers every row and then creates what the tanks fire, one tank
after the other. -/
theorem queueInput_tanks (order : ViewOrder) {input : InputState K} (hshoot : input.shoot = true)
    (peerId : PeerID) (g : Game K) :
    ∃ ts : List Entity, ts.Perm (g.registry.entities.filter fun e =>
          (g.registry.row e).any Components.hasTransformTank) ∧
      (g.queueInput order input peerId).1.registry =
        (InputSystem.apply order g.registry peerId.toUInt32 input).createAll
          (ts.filterMap fun e =>
            (g.registry.row e).bind (ShootSystem.shotRow g.tickCount peerId)) := by
  have hentities : (InputSystem.apply order g.registry peerId.toUInt32 input).entities =
    g.registry.entities := Registry.entities_each _ _ _
  have hview : ∀ e ∈ (InputSystem.apply order g.registry peerId.toUInt32 input).view order
      .transformTank Components.hasTransformTank,
      e < (InputSystem.apply order g.registry peerId.toUInt32 input).next :=
    fun e he => Registry.lt_next _ e (Registry.valid_of_mem_view he)
  have hloop := ShootSystem.foldl_fire_fst g.tickCount ⟨g.tickCount, peerId, input⟩ _ hview
    (InputSystem.apply order g.registry peerId.toUInt32 input, []) le_rfl fun _ _ => rfl
  simp only [ShootSystem.bind_shotRow_apply] at hloop
  refine ⟨(InputSystem.apply order g.registry peerId.toUInt32 input).view order .transformTank
    Components.hasTransformTank, ?_, ?_⟩
  · simp only [Registry.view, ShootSystem.any_hasTransformTank_apply, hentities]
    exact order.perm _ _
  · simp only [queueInput, ShootSystem.process, hshoot, Bool.not_true, Bool.false_eq_true,
      if_false, if_true]
    exact hloop

/-- An input call steers every row and then creates the volley, in some order. -/
theorem queueInput_registry (order : ViewOrder) (input : InputState K) (peerId : PeerID)
    (g : Game K) :
    ∃ xs, xs.Perm (g.volley input peerId) ∧
      (g.queueInput order input peerId).1.registry =
        (InputSystem.apply order g.registry peerId.toUInt32 input).createAll xs := by
  cases hshoot : input.shoot with
  | false =>
      refine ⟨[], ?_, ?_⟩
      · rw [volley, hshoot]
        exact List.Perm.refl _
      · rw [queueInput, hshoot]
        rfl
  | true =>
      rcases queueInput_tanks order hshoot peerId g with ⟨ts, hperm, hregistry⟩
      refine ⟨_, ?_, hregistry⟩
      rw [volley, if_pos hshoot]
      -- the view drops only rows that fire nothing
      refine (hperm.filterMap _).trans (List.Perm.of_eq ?_)
      rw [List.filterMap_filter]
      apply List.filterMap_congr
      intro e _
      split
      · rfl
      · rename_i hview
        cases hrow : g.registry.row e with
        | none => rfl
        | some c =>
            rw [hrow, Option.any_some, Bool.not_eq_true] at hview
            exact (ShootSystem.shotRow_of_not_view hview).symm

end Game

/-! ## Steering -/

namespace InputSystem

/-- Steering by two different peers commutes: a tank listens to one of them at most. -/
theorem onRow_comm {p q : UInt32} (hne : p ≠ q) (i j : InputState K) (c : Components K) :
    onRow p i (onRow q j c) = onRow q j (onRow p i c) := by
  have hwide : p.toUInt64 ≠ q.toUInt64 := fun heq => hne (UInt32.toUInt64_inj.mp heq)
  rcases c with ⟨transform, velocity, tank, bullet, collectible, destructible⟩
  cases transform with
  | none => rfl
  | some transform =>
      cases velocity with
      | none => rfl
      | some velocity =>
          cases tank with
          | none => rfl
          | some tank =>
              simp only [onRow, steer]
              cases tank.isPlayer with
              | false => rfl
              | true =>
                  by_cases hp : tank.peerId = p.toUInt64
                  · have hq : tank.peerId ≠ q.toUInt64 := fun hq => hwide (hp.symm.trans hq)
                    simp [hp, hwide]
                  · simp [hp]

end InputSystem

/-! ## Lists of inputs -/

/-- One input as it is delivered: the enumeration order of the call, the input and the
peer. -/
abbrev Delivery (K : Type*) := ViewOrder × InputState K × PeerID

namespace Game

/-- Deliver inputs one after the other. -/
def queueAll (g : Game K) (ds : List (Delivery K)) : Game K :=
  ds.foldl (fun g d => (g.queueInput d.1 d.2.1 d.2.2).1) g

/-- What all the inputs do to a row. -/
def steerAll (inputs : List (InputState K × PeerID)) (c : Components K) : Components K :=
  inputs.foldl (fun c x => InputSystem.onRow x.2.toUInt32 x.1 c) c

/-- The last input steers last. -/
theorem steerAll_concat (inputs : List (InputState K × PeerID)) (input : InputState K)
    (peerId : PeerID) :
    steerAll (inputs ++ [(input, peerId)]) =
      InputSystem.onRow peerId.toUInt32 input ∘ steerAll inputs := by
  funext c
  simp [steerAll]

/-- What all the inputs fire. -/
def volleys (g : Game K) (inputs : List (InputState K × PeerID)) : List (Components K) :=
  inputs.flatMap fun x => g.volley x.1 x.2

/-- The game after some inputs: every old row is steered, and the new rows are the
volleys in some order. -/
structure Delivered (g : Game K) (inputs : List (InputState K × PeerID)) (g' : Game K)
    (xs : List (Components K)) : Prop where
  isServer : g'.isServer = g.isServer
  tickCount : g'.tickCount = g.tickCount
  next : g'.registry.next = g.registry.next + xs.length
  entities : g'.registry.entities =
    g.registry.entities ++ (List.range xs.length).map fun i => g.registry.next + i
  row_old : ∀ e, e < g.registry.next →
    g'.registry.row e = (g.registry.row e).map (steerAll inputs)
  row_new : ∀ i, g'.registry.row (g.registry.next + i) = xs[i]?
  perm : xs.Perm (g.volleys inputs)

theorem isServer_queueInput (order : ViewOrder) (input : InputState K) (peerId : PeerID)
    (g : Game K) :
    (g.queueInput order input peerId).1.isServer = g.isServer := by
  unfold queueInput
  split <;> rfl

theorem Delivered.refl (g : Game K) : Delivered g [] g [] where
  isServer := rfl
  tickCount := rfl
  next := rfl
  entities := (List.append_nil _).symm
  row_old e _ := by
    cases g.registry.row e <;> rfl
  row_new i := Registry.row_eq_none_of_next_le (Nat.le_add_right _ i)
  perm := List.Perm.refl _

/-- Later volleys are those of the start: inputs add only bullets, which fire nothing,
and leave transforms alone. -/
theorem Delivered.volley_eq {g g' : Game K} {inputs : List (InputState K × PeerID)}
    {xs : List (Components K)} (h : Delivered g inputs g' xs) (input : InputState K)
    (peerId : PeerID) : g'.volley input peerId = g.volley input peerId := by
  have hsteer : ∀ (inputs : List (InputState K × PeerID)) (c : Components K),
      ShootSystem.shotRow g.tickCount peerId (steerAll inputs c) =
        ShootSystem.shotRow g.tickCount peerId c := by
    intro inputs
    induction inputs with
    | nil => exact fun _ => rfl
    | cons x inputs ih =>
        intro c
        exact (ih _).trans (ShootSystem.shotRow_onRow _ _ _ _ c)
  have hold : ∀ e ∈ g.registry.entities,
      (g'.registry.row e).bind (ShootSystem.shotRow g.tickCount peerId) =
        (g.registry.row e).bind (ShootSystem.shotRow g.tickCount peerId) := by
    intro e he
    rw [h.row_old e (g.registry.lt_next e he)]
    cases g.registry.row e with
    | none => rfl
    | some c => exact hsteer inputs c
  have hnew : ∀ e ∈ (List.range xs.length).map fun i => g.registry.next + i,
      (g'.registry.row e).bind (ShootSystem.shotRow g.tickCount peerId) = none := by
    intro e he
    rcases List.mem_map.mp he with ⟨i, _, rfl⟩
    rw [h.row_new i]
    cases hx : xs[i]? with
    | none => rfl
    | some x =>
        have hmem : x ∈ g.volleys inputs := h.perm.mem_iff.mp (List.mem_of_getElem? hx)
        rcases List.mem_flatMap.mp hmem with ⟨y, _, hy⟩
        exact ShootSystem.shotRow_of_not_tank (tank_of_mem_volley hy)
  unfold volley
  rw [h.tickCount, h.entities, List.filterMap_append, List.filterMap_congr hold,
    List.filterMap_eq_nil_iff.mpr hnew, List.append_nil]

/-- One more input. -/
theorem Delivered.queueInput {g g' : Game K} {inputs : List (InputState K × PeerID)}
    {xs : List (Components K)} (h : Delivered g inputs g' xs) (order : ViewOrder)
    (input : InputState K) (peerId : PeerID) :
    ∃ ys, Delivered g (inputs ++ [(input, peerId)]) (g'.queueInput order input peerId).1
      (xs ++ ys) := by
  rcases queueInput_registry order input peerId g' with ⟨ys, hperm, hregistry⟩
  have hnext : (InputSystem.apply order g'.registry peerId.toUInt32 input).next =
      g.registry.next + xs.length := by
    rw [InputSystem.next_apply, h.next]
  have hentities : (InputSystem.apply order g'.registry peerId.toUInt32 input).entities =
    g'.registry.entities := Registry.entities_each _ _ _
  refine ⟨ys, ?_, ?_, ?_, ?_, fun e he => ?_, fun i => ?_, ?_⟩
  · rw [isServer_queueInput, h.isServer]
  · rw [tickCount_queueInput, h.tickCount]
  · rw [hregistry, Registry.next_createAll, hnext, List.length_append, Nat.add_assoc]
  · rw [hregistry, Registry.entities_createAll, hentities, hnext, h.entities,
      List.append_assoc, List.length_append, List.range_add, List.map_append, List.map_map]
    refine congrArg _ (congrArg _ (List.map_congr_left fun i _ => ?_))
    exact Nat.add_assoc _ _ _
  · rw [row_queueInput order input peerId g' (by rw [h.next]; exact Nat.lt_add_right _ he),
      h.row_old e he, Option.map_map, steerAll_concat]
  · rcases Nat.lt_or_ge i xs.length with hi | hi
    · rw [row_queueInput order input peerId g' (by rw [h.next]; exact Nat.add_lt_add_left hi _),
        h.row_new i, List.getElem?_append_left hi]
      cases hx : xs[i]? with
      | none => rfl
      | some x =>
          have hmem : x ∈ g.volleys inputs := h.perm.mem_iff.mp (List.mem_of_getElem? hx)
          rcases List.mem_flatMap.mp hmem with ⟨y, _, hy⟩
          rw [Option.map_some, InputSystem.onRow_of_not_tank (tank_of_mem_volley hy)]
    · rcases Nat.exists_eq_add_of_le hi with ⟨j, rfl⟩
      rw [hregistry, ← Nat.add_assoc, ← hnext, Registry.row_createAll_add,
        List.getElem?_append_right (Nat.le_add_right _ j), Nat.add_sub_cancel_left]
  · have hvolley : (g.volleys (inputs ++ [(input, peerId)])) =
        g.volleys inputs ++ g'.volley input peerId := by
      rw [h.volley_eq, volleys, volleys, List.flatMap_append, List.flatMap_singleton]
    rw [hvolley]
    exact h.perm.append hperm

/-- The game after a list of inputs. -/
theorem delivered_queueAll (g : Game K) (ds : List (Delivery K)) :
    ∃ xs, Delivered g (ds.map Prod.snd) (g.queueAll ds) xs := by
  induction ds using List.reverseRecOn with
  | nil => exact ⟨[], Delivered.refl g⟩
  | append_singleton ds d ih =>
      rcases ih with ⟨xs, hxs⟩
      rcases hxs.queueInput d.1 d.2.1 d.2.2 with ⟨ys, hys⟩
      refine ⟨xs ++ ys, ?_⟩
      rw [List.map_append, List.map_singleton, queueAll, List.foldl_append]
      exact hys

/-- Steering by inputs of different peers does not depend on their order. -/
theorem steerAll_perm {inputs inputs' : List (InputState K × PeerID)}
    (hperm : inputs.Perm inputs')
    (hdistinct : (inputs.map fun x => x.2.toUInt32).Nodup) :
    steerAll inputs = steerAll inputs' := by
  funext c
  refine hperm.foldl_eq' (fun x hx y hy c => ?_) c
  by_cases hxy : x.2.toUInt32 = y.2.toUInt32
  · rw [List.inj_on_of_nodup_map hdistinct hx hy hxy]
  · exact InputSystem.onRow_comm (Ne.symm hxy) y.1 x.1 c

/-- Inputs of peers that differ modulo 2 ^ 32, delivered in two orders and with any
enumerations, end in the same game up to a renaming of the entities created
meanwhile: the same flag and tick count, the same row for every old entity, and the
same bullets as often. -/
theorem queueAll_perm (g : Game K) {ds ds' : List (Delivery K)}
    (hperm : (ds.map Prod.snd).Perm (ds'.map Prod.snd))
    (hdistinct : (ds.map fun d => d.2.2.toUInt32).Nodup) :
    (g.queueAll ds').isServer = (g.queueAll ds).isServer ∧
      (g.queueAll ds').tickCount = (g.queueAll ds).tickCount ∧
      (∀ e, e < g.registry.next →
        (g.queueAll ds').registry.row e = (g.queueAll ds).registry.row e) ∧
      (∃ σ : Renaming g.registry.next,
        (g.queueAll ds).registry.SameUpTo σ (g.queueAll ds').registry) ∧
      ((g.queueAll ds).registry.rows.filter (·.bullet.isSome)).Perm
        ((g.queueAll ds').registry.rows.filter (·.bullet.isSome)) := by
  rcases delivered_queueAll g ds with ⟨xs, hxs⟩
  rcases delivered_queueAll g ds' with ⟨ys, hys⟩
  have hdistinct' : ((ds.map Prod.snd).map fun x => x.2.toUInt32).Nodup := by
    rwa [List.map_map]
  have hold : ∀ e, e < g.registry.next →
      (g.queueAll ds').registry.row e = (g.queueAll ds).registry.row e := by
    intro e he
    rw [hxs.row_old e he, hys.row_old e he, steerAll_perm hperm hdistinct']
  have hnew : xs.Perm ys := by
    have hvolleys : (g.volleys (ds.map Prod.snd)).Perm (g.volleys (ds'.map Prod.snd)) :=
      hperm.flatMap_right _
    exact (hxs.perm.trans hvolleys).trans hys.perm.symm
  rcases exists_renaming hxs.next hys.next hold hxs.row_new hys.row_new hnew with ⟨σ, hσ⟩
  exact ⟨hys.isServer.trans hxs.isServer.symm, hys.tickCount.trans hxs.tickCount.symm, hold,
    ⟨σ, hσ⟩, hσ.rows_perm.filter _⟩

/-- Delivering a list of inputs is a run of input calls. -/
theorem exists_run_queueAll [LinearOrder K] [FloorSemiring K] (g : Game K)
    (ds : List (Delivery K)) :
    ∃ h, (system K).run g (ds.map fun d => .queueInput d.1 d.2.1 d.2.2) =
      some (g.queueAll ds, h) := by
  induction ds generalizing g with
  | nil => exact ⟨[], rfl⟩
  | cons d ds ih =>
      rcases ih (g.queueInput d.1 d.2.1 d.2.2).1 with ⟨h, hrun⟩
      exact ⟨_, ((system K).run_cons_eq_some).mpr ⟨_, _, h, rfl, hrun, rfl⟩⟩

/-- Two tanks of different peers. -/
def duelists : List (GameCall ℚ) :=
  [.spawnTank ⟨0, 0⟩ 0 7, .spawnTank ⟨50, 0⟩ 0 8]

/-- Each of them drives and fires. -/
def exchange : List (Delivery ℚ) :=
  [(Enumeration.stored View, { throttle := 1, turn := 0, shoot := true }, 7),
    (Enumeration.stored View, { throttle := -1, turn := 1, shoot := true }, 8)]

/-- Two tanks fire, in either order. -/
theorem queueAll_perm_exchange :
    ∃ g h, (system ℚ).run (init false) duelists = some (g, h) ∧
      (g.queueAll exchange).registry.next = 4 ∧
      ((g.queueAll exchange).registry.rows.filter (·.bullet.isSome)).Perm
        ((g.queueAll exchange.reverse).registry.rows.filter (·.bullet.isSome)) := by
  have hcreated : ((system ℚ).run (init false) duelists).map
      (fun p => (p.1.queueAll exchange).registry.next) = some 4 := by
    decide +kernel
  rcases Option.map_eq_some_iff.mp hcreated with ⟨⟨g, h⟩, hrun, hnext⟩
  exact ⟨g, h, hrun, hnext, (queueAll_perm g (by decide) (by decide)).2.2.2.2⟩

end Game

end GameFramework
