import GameFramework.Lib.Rest
import GameFramework.Signalling.Delivery
import GameFramework.Signalling.PeerRegistry
import Mathlib.Algebra.Order.BigOperators.Group.Finset

/-!
# The end of all connections

When nobody connects and nothing more is read, every connection of the relay comes to its end,
in whatever order the handlers and the shutdown go on: reads fail, writes end, handlers leave,
and the registry is empty.  In particular the lock that the shutdown takes blocks no handler
for ever.

Main results:

- Theorem {lit}`Relay.rank_step`: what remains to be done gets less with every step.
- Theorem {lit}`Relay.drained_of_atRest`: where nothing goes on, nothing is left.
- Theorem {lit}`Relay.drains`: every reachable state drains, after a bounded number of steps.
-/

namespace GameFramework

/-- Nothing comes in: no connection, no frame, no ping and no signal. -/
def RelayLabel.Silent : RelayLabel → Prop
  | .accept _ _ | .handler _ (.frame _) | .handler _ .ping | .shutdownLock => False
  | .handler _ _ | .shutdownClose _ | .shutdownUnlock => True

/-- The statements that a handler has before it if nothing more is read. -/
def Phase.rank : Phase → ℕ
  | done => 0
  | closing => 1
  | exiting => 2
  | reading => 3
  | ponging | accepted | inWrite _ => 4
  | registering _ | writing _ _ => 5
  | roleCheck _ _ => 6
  | lookup _ _ => 7

theorem Phase.rank_le (phase : Phase) : phase.rank ≤ 7 := by
  cases phase <;> simp [rank]

/-- The steps that the shutdown has before it. -/
def Shutdown.rank : Shutdown → ℕ
  | waiting | finished => 0
  | closing todo => todo.length + 1

namespace Relay

/-- What the handler of a connection has before it. -/
def handlerRank (t : Relay) (c : Conn) : ℕ :=
  match t.handlers c with
  | none => 0
  | some hd => hd.phase.rank

/-- What the handlers of some connections and the shutdown have before them. -/
def rank (s : Finset Conn) (t : Relay) : ℕ :=
  ∑ c ∈ s, t.handlerRank c + t.shutdown.rank

/-- All handlers are those of some connections. -/
def Within (s : Finset Conn) (t : Relay) : Prop :=
  ∀ c, t.handlers c ≠ none → c ∈ s

/-- The connections that were opened. -/
def openings (h : List RelayEvent) : List Conn :=
  h.filterMap fun
    | .opened c _ => some c
    | _ => none

/-- All connections are at their end, and the registry is empty. -/
structure Drained (t : Relay) (h : List RelayEvent) : Prop where
  closed : ∀ c i, .opened c i ∈ h → .closed c ∈ h
  removed : ∀ i, t.manager.get i = none
  len_eq : t.manager.len = 0
  servers_eq : t.manager.getServerList = []
  unlocked : t.locked = false

variable {t v : Relay} {c : Conn} {hd : Handler} {out h : List RelayEvent} {s : Finset Conn}

/-! ## Less and less to do -/

theorem shutdown_unregister (t : Relay) (id : GoString) :
    (t.unregister id).shutdown = t.shutdown := by
  unfold unregister
  split <;> rfl

/-- A handler that reads nothing gets on. -/
theorem rank_handle {action : Action} (hsilent : RelayLabel.Silent (.handler c action))
    (hstep : t.handle c hd action = some (v, out)) :
    ∃ hd', v.handlers = Function.update t.handlers c (some hd') ∧
      hd'.phase.rank < hd.phase.rank ∧ v.shutdown = t.shutdown := by
  have hgoto : ∀ (u : Relay) (phase : Phase), u.handlers = t.handlers →
      u.shutdown = t.shutdown → phase.rank < hd.phase.rank → v = u.goto c hd phase →
      ∃ hd', v.handlers = Function.update t.handlers c (some hd') ∧
        hd'.phase.rank < hd.phase.rank ∧ v.shutdown = t.shutdown := by
    rintro u phase hhandlers hshutdown hrank rfl
    exact ⟨{ hd with phase := phase }, hhandlers ▸ rfl, hrank, hshutdown⟩
  unfold handle at hstep
  split at hstep
  all_goals (repeat' split at hstep)
  all_goals first
    | exact absurd hsilent id
    | contradiction
    | cases hstep
      refine hgoto _ _ ?_ ?_ ?_ rfl
      · rfl
      · rfl
      · rw [‹hd.phase = _›]
        simp [Phase.rank]
    | skip
  case h_9 hphase =>
    cases hstep
    exact ⟨{ hd with registered := true, phase := .reading }, rfl, by simp [hphase, Phase.rank],
      rfl⟩
  case h_16.isFalse.isFalse hphase _ _ =>
    cases hstep
    exact hgoto _ _ (handlers_unregister t hd.id) (shutdown_unregister t hd.id)
      (by simp [hphase, Phase.rank]) rfl

/-- A step without input takes from what remains to be done. -/
theorem rank_step {label : RelayLabel} (hwithin : Within s t) (hsilent : label.Silent)
    (hstep : t.step label = some (v, out)) : Within s v ∧ v.rank s < t.rank s := by
  have hshutdown : v.handlers = t.handlers → v.shutdown.rank < t.shutdown.rank →
      Within s v ∧ v.rank s < t.rank s := by
    intro hhandlers hless
    have hsame : ∀ c, v.handlerRank c = t.handlerRank c := fun c => by
      rw [handlerRank, handlerRank, hhandlers]
    refine ⟨fun c hc => hwithin c (hhandlers ▸ hc), ?_⟩
    simp only [rank, hsame]
    omega
  cases label with
  | accept c path => exact absurd hsilent id
  | shutdownLock => exact absurd hsilent id
  | handler c action =>
      simp only [step] at hstep
      split at hstep
      · contradiction
      · rename_i hd hhandler
        rcases rank_handle hsilent hstep with ⟨hd', hhandlers, hless, hsame⟩
        have hmem : c ∈ s := hwithin c (by simp [hhandler])
        refine ⟨fun c' hc' => ?_, ?_⟩
        · by_cases hc : c' = c
          · exact hc ▸ hmem
          · rw [hhandlers, Function.update_of_ne hc] at hc'
            exact hwithin c' hc'
        · have hsum : ∑ c' ∈ s, v.handlerRank c' < ∑ c' ∈ s, t.handlerRank c' := by
            refine Finset.sum_lt_sum (fun c' _ => ?_) ⟨c, hmem, ?_⟩
            · by_cases hc : c' = c
              · subst hc
                simp only [handlerRank, hhandlers, Function.update_self, hhandler]
                omega
              · simp only [handlerRank, hhandlers, Function.update_of_ne hc]
                exact le_rfl
            · simp only [handlerRank, hhandlers, Function.update_self, hhandler]
              exact hless
          rw [rank, rank, hsame]
          omega
  | shutdownClose c =>
      simp only [step] at hstep
      split at hstep
      · rename_i todo hclosing
        split at hstep
        · rename_i hmem
          cases hstep
          refine hshutdown rfl ?_
          have hlength := List.length_erase_of_mem hmem
          have hpos := List.length_pos_of_mem hmem
          simp only [hclosing, Shutdown.rank]
          omega
        · contradiction
      · contradiction
  | shutdownUnlock =>
      simp only [step] at hstep
      split at hstep
      · rename_i hclosing
        cases hstep
        refine hshutdown rfl ?_
        simp [hclosing, Shutdown.rank]
      · contradiction

/-! ## At rest -/

/-- At rest the shutdown does not hold the lock. -/
theorem unlocked_of_atRest (hrest : system.AtRest RelayLabel.Silent t) : t.locked = false := by
  unfold locked
  split
  · rename_i todo hclosing
    cases todo with
    | nil =>
        have hnone : t.step .shutdownUnlock = none := hrest .shutdownUnlock trivial
        simp [step, hclosing] at hnone
    | cons c todo =>
        have hnone : t.step (.shutdownClose c) = none := hrest (.shutdownClose c) trivial
        simp [step, hclosing] at hnone
  · rfl

/-- At rest every handler has come to its end. -/
theorem done_of_atRest (hrest : system.AtRest RelayLabel.Silent t)
    (hhandler : t.handlers c = some hd) : hd.phase = .done := by
  have hlocked := unlocked_of_atRest hrest
  have hnone : ∀ action, RelayLabel.Silent (.handler c action) → t.handle c hd action = none := by
    intro action hsilent
    have hstep : t.step (.handler c action) = none := hrest (.handler c action) hsilent
    simpa only [step, hhandler] using hstep
  cases hphase : hd.phase with
  | reading =>
      have hstep := hnone .readError trivial
      simp [handle, hphase] at hstep
  | ponging =>
      have hstep := hnone (.ponged .error) trivial
      simp [handle, hphase] at hstep
  | registering role =>
      have hstep := hnone .advance trivial
      rcases hregister : t.manager.register hd.id c role with ⟨manager, outcome⟩
      cases outcome <;> simp [handle, hphase, hlocked, hregister] at hstep
  | accepted =>
      have hstep := hnone .advance trivial
      simp [handle, hphase] at hstep
  | lookup msg targetID =>
      have hstep := hnone .advance trivial
      cases hget : t.manager.get targetID <;> simp [handle, hphase, hlocked, hget] at hstep
  | roleCheck msg targetPeer =>
      have hstep := hnone .advance trivial
      by_cases hroles : t.manager.getRole hd.id = roleClient ∧ targetPeer.role = roleClient <;>
        simp [handle, hphase, hlocked, hroles] at hstep
  | writing data target =>
      have hstep := hnone .advance trivial
      simp [handle, hphase] at hstep
  | inWrite target =>
      have hstep := hnone (.wrote .error) trivial
      simp [handle, hphase] at hstep
  | exiting =>
      have hstep := hnone .advance trivial
      cases hflag : hd.registered <;> simp [handle, hphase, hlocked, hflag] at hstep
  | closing =>
      have hstep := hnone .advance trivial
      simp [handle, hphase] at hstep
  | done => rfl

/-- A handler at its end has closed its connection. -/
def ClosedWhenDone (t : Relay) (h : List RelayEvent) : Prop :=
  ∀ c hd, t.handlers c = some hd → hd.phase = .done → .closed c ∈ h

/-- A handler that is done has closed its connection. -/
theorem closedWhenDone_step (hclosed : ClosedWhenDone t h) (hcase : StepCase t v out) :
    ClosedWhenDone v (h ++ out) := by
  intro c hd hhandler hdone
  rcases hcase.other c with ⟨hd', hown, hhd'⟩ | ⟨hsame, _⟩
  · rw [hhd', Option.some.injEq] at hhandler
    subst hhandler
    have hbefore := hclosed c
    generalize t.handlers c = before at hown hbefore
    generalize v.manager = pm' at hown
    cases hown with
    | opened path => cases hdone
    | moved hd phase out hmove =>
        cases hmove with
        | finished hphase => exact List.mem_append_right h (by simp)
        | dispatched msg hphase => exact absurd hdone (dispatch_ne hd msg).2.2.2
        | _ => cases hdone
    | _ => cases hdone
  · exact List.mem_append_left out (hclosed c hd (hsame ▸ hhandler) hdone)

/-- A relay that can go no further on its own is drained. -/
theorem drained_of_atRest {maxConns : Int} {labels : List RelayLabel}
    (hrun : system.run (init maxConns) labels = some (t, h))
    (hrest : system.AtRest RelayLabel.Silent t) : Drained t h := by
  have hclosed : ClosedWhenDone t h := by
    refine system.run_invariant ClosedWhenDone ?_ ?_ hrun
    · intro c hd hhandler
      cases hhandler
    · intro t h label v out hclosed hstep
      exact closedWhenDone_step hclosed (step_cases hstep)
  rcases relaying_of_reachable hrun with ⟨howned, _, hrelaying⟩
  have hremoved : ∀ i, t.manager.get i = none := by
    intro i
    by_contra hentry
    rcases Option.ne_none_iff_exists'.mp hentry with ⟨peer, hpeer⟩
    rcases howned.owner i peer hpeer with ⟨hd, hhandler, _, howns⟩
    have hdone := done_of_atRest hrest hhandler
    simp [Handler.Owns, hdone] at howns
  refine ⟨fun c i hopened => ?_, hremoved, ?_, ?_, unlocked_of_atRest hrest⟩
  · rcases (hrelaying.2 c i).mp hopened with ⟨hd, hhandler, _⟩
    exact hclosed c hd hhandler (done_of_atRest hrest hhandler)
  · rw [PeerManager.len_eq_ncard]
    simp [hremoved]
  · refine List.eq_nil_iff_forall_not_mem.mpr fun i hmem => ?_
    rcases (howned.listed.mem_iff i).mp hmem with ⟨peer, hpeer, _⟩
    rw [hremoved i] at hpeer
    cases hpeer

/-! ## Draining -/

/-- From every reachable state on, runs without input are bounded: seven steps for every
connection and those of the shutdown.  Such a run drains the relay if it is not stopped before
its end, and there is one. -/
theorem drains {maxConns : Int} {labels : List RelayLabel}
    (hrun : system.run (init maxConns) labels = some (t, h)) :
    (∀ ls u out, (∀ label ∈ ls, RelayLabel.Silent label) → system.run t ls = some (u, out) →
      ls.length ≤ 7 * (openings h).length + t.shutdown.rank ∧
        (system.AtRest RelayLabel.Silent u → Drained u (h ++ out))) ∧
      ∃ ls u out, (∀ label ∈ ls, RelayLabel.Silent label) ∧ system.run t ls = some (u, out) ∧
        Drained u (h ++ out) := by
  have hwithin : Within (openings h).toFinset t := by
    intro c hc
    rcases Option.ne_none_iff_exists'.mp hc with ⟨hd, hhandler⟩
    have hopened := ((relaying_of_reachable hrun).2.2.2 c hd.id).mpr ⟨hd, hhandler, rfl⟩
    exact List.mem_toFinset.mpr (List.mem_filterMap.mpr ⟨_, hopened, rfl⟩)
  have hstep : ∀ t label v out, Within (openings h).toFinset t → RelayLabel.Silent label →
      system.step t label = some (v, out) → Within (openings h).toFinset v ∧
        v.rank (openings h).toFinset < t.rank (openings h).toFinset :=
    fun t label v out hwithin hsilent hlabel => rank_step hwithin hsilent hlabel
  have hrank : t.rank (openings h).toFinset ≤ 7 * (openings h).length + t.shutdown.rank := by
    have hsum : ∑ c ∈ (openings h).toFinset, t.handlerRank c ≤
        (openings h).toFinset.card * 7 := by
      refine Finset.sum_le_card_nsmul _ _ _ fun c _ => ?_
      unfold handlerRank
      split
      · exact Nat.zero_le 7
      · exact Phase.rank_le _
    have hcard := List.toFinset_card_le (openings h)
    rw [rank]
    omega
  refine ⟨fun ls u out hsilent hls => ⟨?_, fun hrest => ?_⟩, ?_⟩
  · have hlength := system.length_add_rank_le hstep hwithin hsilent hls
    omega
  · exact drained_of_atRest (system.run_append.mpr ⟨t, h, out, hrun, hls, rfl⟩) hrest
  · rcases system.exists_atRest hstep hwithin with ⟨ls, u, out, hsilent, hls, hrest⟩
    exact ⟨ls, u, out, hsilent, hls,
      drained_of_atRest (system.run_append.mpr ⟨t, h, out, hrun, hls, rfl⟩) hrest⟩

/-- A relay with two peers comes to rest. -/
theorem drains_join :
    ∃ t h, system.run (init 0) (joinLabels (goString "7")) = some (t, h) ∧
      ∃ ls u out, (∀ label ∈ ls, RelayLabel.Silent label) ∧ system.run t ls = some (u, out) ∧
        Drained u (h ++ out) := by
  have hrun : ∃ t h, system.run (init 0) (joinLabels (goString "7")) = some (t, h) := ⟨_, _, rfl⟩
  rcases hrun with ⟨t, h, hrun⟩
  exact ⟨t, h, hrun, (drains hrun).2⟩

end Relay

end GameFramework
