import GameFramework.Signalling.Ownership
import Mathlib.Data.List.Perm.Basic

/-!
# The graceful shutdown

The shutdown goroutine of {lit}`main` closes the peers under the lock of the registry, while the
handlers of all connections go on.  What it closes is settled at the moment it takes the lock.
The run is followed to the unlocking and not to the end of the process: {lit}`srv.Shutdown`, which
comes after it and leaves upgraded connections alone, is not modelled.

Main results:

- Theorem {lit}`Relay.shutdown_cases`: what a step means for the shutdown.
- Theorem {lit}`Relay.swept_step`: under the lock, what is closed and what is left to close make
  up the peers of the registry.
- Theorem {lit}`Relay.shutdown_sweeps`: every peer is closed once and nobody else is; the loop
  misses who registers after the lock is released.
-/

namespace GameFramework

/-- The handler has a registration behind it. -/
def Handler.HasRegistered (hd : Handler) : Prop :=
  hd.phase = .accepted ∨ hd.registered = true ∧ ∀ role, hd.phase ≠ .registering role

/-- Two peers of a registry never share a connection. -/
def PeerManager.Separate (pm : PeerManager) : Prop :=
  ∀ i j peer peer', pm.get i = some peer → pm.get j = some peer' → peer.conn = peer'.conn → i = j

namespace PeerManager

variable {pm : PeerManager} {c : Conn}

/-- The connections of the peer map are those of its entries. -/
theorem mem_conns_iff : c ∈ pm.conns ↔ ∃ i role, pm.get i = some ⟨c, role⟩ := by
  constructor
  · intro hmem
    rcases List.mem_map.mp hmem with ⟨⟨i, peer⟩, hentry, rfl⟩
    exact ⟨i, peer.role, AList.mem_lookup_iff.mpr hentry⟩
  · rintro ⟨i, role, hget⟩
    exact List.mem_map.mpr ⟨⟨i, ⟨c, role⟩⟩, AList.mem_lookup_iff.mp hget, rfl⟩

/-- Then no connection is closed twice by closing those of the registry. -/
theorem Separate.nodup_conns (hseparate : pm.Separate) : pm.conns.Nodup := by
  refine List.Nodup.map_on ?_ pm.peers.nodupKeys.nodup
  rintro ⟨i, peer⟩ hi ⟨j, peer'⟩ hj hconn
  have hgeti : pm.get i = some peer := AList.mem_lookup_iff.mpr hi
  have hgetj : pm.get j = some peer' := AList.mem_lookup_iff.mpr hj
  have hid : i = j := hseparate i j peer peer' hgeti hgetj hconn
  subst hid
  rw [hgeti] at hgetj
  cases hgetj
  rfl

end PeerManager

namespace Relay

/-- The connections that the shutdown closed. -/
def closings (h : List RelayEvent) : List Conn :=
  h.filterMap fun
    | .shutdownClosed c => some c
    | _ => none

theorem closings_append (h out : List RelayEvent) :
    closings (h ++ out) = closings h ++ closings out :=
  List.filterMap_append

variable {t t₀ v : Relay} {c : Conn} {hd : Handler} {h out : List RelayEvent}

/-! ## Steps seen from the shutdown -/

/-- A handler leaves the shutdown goroutine alone, and while that holds the lock the peer map
too. -/
theorem handle_shutdown {action : Action} (hstep : t.handle c hd action = some (v, out)) :
    v.shutdown = t.shutdown ∧ closings out = [] ∧ (t.locked = true → v.manager = t.manager) ∧
      ∀ c', t.closed c' = true → v.closed c' = true := by
  have hclose : ∀ c c' : Conn, t.closed c' = true → (t.close c).closed c' = true := by
    intro c c' hclosed
    by_cases hc : c' = c
    · simp [close, hc]
    · simp [close, Function.update_of_ne hc, hclosed]
  unfold handle at hstep
  split at hstep
  all_goals (repeat' split at hstep)
  all_goals first
    | contradiction
    | cases hstep
      exact ⟨rfl, rfl, fun _ => rfl, fun _ hclosed => hclosed⟩
    | skip
  case h_1 hunlocked _ _ _ =>
    cases hstep
    exact ⟨rfl, rfl, fun hlocked => absurd hlocked hunlocked, fun _ hclosed => hclosed⟩
  case h_2 hunlocked _ _ _ =>
    cases hstep
    exact ⟨rfl, rfl, fun hlocked => absurd hlocked hunlocked, fun _ hclosed => hclosed⟩
  case h_16.isFalse.isFalse hunlocked =>
    cases hstep
    refine ⟨?_, rfl, fun hlocked => absurd hlocked hunlocked, fun c' hclosed => ?_⟩
    · change (t.unregister hd.id).shutdown = t.shutdown
      unfold unregister
      split <;> rfl
    · change (t.unregister hd.id).closed c' = true
      unfold unregister
      split
      · exact hclose _ c' hclosed
      · exact hclosed
  case h_17 =>
    cases hstep
    exact ⟨rfl, rfl, fun _ => rfl, hclose c⟩

/-- A step takes the lock and notes the peers, closes one of those left, releases the lock, or is
none of the shutdown and leaves the registry alone under the lock. -/
theorem shutdown_cases {label : RelayLabel} (hstep : t.step label = some (v, out)) :
    (∀ c', t.closed c' = true → v.closed c' = true) ∧
      ((t.shutdown = .waiting ∧ v.shutdown = .closing t.manager.conns ∧ v.manager = t.manager ∧
          out = []) ∨
        (∃ c todo, t.shutdown = .closing todo ∧ c ∈ todo ∧ v.shutdown = .closing (todo.erase c) ∧
          v.manager = t.manager ∧ v.closed c = true ∧ out = [.shutdownClosed c]) ∨
        (t.shutdown = .closing [] ∧ v.shutdown = .finished ∧ out = []) ∨
        v.shutdown = t.shutdown ∧ closings out = [] ∧
          (t.locked = true → v.manager = t.manager)) := by
  cases label with
  | accept c path =>
      simp only [step] at hstep
      split at hstep
      · cases hstep
        exact ⟨fun _ hclosed => hclosed, Or.inr (Or.inr (Or.inr ⟨rfl, rfl, fun _ => rfl⟩))⟩
      · split at hstep
        · contradiction
        · cases hstep
          exact ⟨fun _ hclosed => hclosed, Or.inr (Or.inr (Or.inr ⟨rfl, rfl, fun _ => rfl⟩))⟩
  | handler c action =>
      simp only [step] at hstep
      split at hstep
      · contradiction
      · rcases handle_shutdown hstep with ⟨hshutdown, hclosings, hmanager, hclosed⟩
        exact ⟨hclosed, Or.inr (Or.inr (Or.inr ⟨hshutdown, hclosings, hmanager⟩))⟩
  | shutdownLock =>
      simp only [step] at hstep
      split at hstep
      · rename_i hwaiting
        cases hstep
        exact ⟨fun _ hclosed => hclosed, Or.inl ⟨hwaiting, rfl, rfl, rfl⟩⟩
      · contradiction
  | shutdownClose c =>
      simp only [step] at hstep
      split at hstep
      · rename_i todo hclosing
        split at hstep
        · rename_i hmem
          cases hstep
          refine ⟨fun c' hclosed => ?_,
            Or.inr (Or.inl ⟨c, todo, hclosing, hmem, rfl, rfl, ?_, rfl⟩)⟩
          · by_cases hc : c' = c
            · simp [close, hc]
            · simp [close, Function.update_of_ne hc, hclosed]
          · simp [close]
        · contradiction
      · contradiction
  | shutdownUnlock =>
      simp only [step] at hstep
      split at hstep
      · rename_i hclosing
        cases hstep
        exact ⟨fun _ hclosed => hclosed, Or.inr (Or.inr (Or.inl ⟨hclosing, rfl, rfl⟩))⟩
      · contradiction

/-! ## Closing the peers -/

/-- Since the lock was taken on a registry: what was closed and what is left to close make up its
peers, and under the lock the registry is still the same. -/
def Swept (pm : PeerManager) (t : Relay) (h : List RelayEvent) : Prop :=
  (∀ c ∈ closings h, t.closed c = true) ∧
    ∃ todo, (closings h ++ todo).Perm pm.conns ∧
      (t.shutdown = .closing todo ∧ t.manager = pm ∨ t.shutdown = .finished ∧ todo = [])

/-- Every step keeps the sweep in line with the peer map at the lock. -/
theorem swept_step {pm : PeerManager} {label : RelayLabel} (hswept : Swept pm t h)
    (hstep : t.step label = some (v, out)) : Swept pm v (h ++ out) := by
  rcases hswept with ⟨hclosed, todo, hperm, hshutdown⟩
  rcases shutdown_cases hstep with ⟨hkept, hcases⟩
  have hbefore : ∀ c ∈ closings h, v.closed c = true := fun c hc => hkept c (hclosed c hc)
  rw [Swept, closings_append]
  rcases hcases with ⟨hwaiting, _, _, _⟩ | ⟨c, todo', hclosing, hmem, hnext, hmanager, hc, rfl⟩ |
    ⟨hclosing, hnext, rfl⟩ | ⟨hsame, hnone, hmanager⟩
  · rcases hshutdown with ⟨hclosing, _⟩ | ⟨hfinished, _⟩
    · rw [hwaiting] at hclosing
      cases hclosing
    · rw [hwaiting] at hfinished
      cases hfinished
  · rcases hshutdown with ⟨htodo, hsame⟩ | ⟨hfinished, _⟩
    · rw [hclosing] at htodo
      cases htodo
      refine ⟨fun c' hc' => ?_, todo.erase c, ?_, Or.inl ⟨hnext, hmanager.trans hsame⟩⟩
      · rcases List.mem_append.mp hc' with hold | hnew
        · exact hbefore c' hold
        · rw [List.mem_singleton.mp hnew]
          exact hc
      · rw [List.append_assoc]
        exact ((List.perm_cons_erase hmem).symm.append_left (closings h)).trans hperm
    · rw [hclosing] at hfinished
      cases hfinished
  · rcases hshutdown with ⟨htodo, _⟩ | ⟨hfinished, _⟩
    · rw [hclosing] at htodo
      cases htodo
      exact ⟨by simpa [closings] using hbefore, [], by simpa [closings] using hperm,
        Or.inr ⟨hnext, rfl⟩⟩
    · rw [hclosing] at hfinished
      cases hfinished
  · rw [hnone, List.append_nil]
    refine ⟨hbefore, todo, hperm, ?_⟩
    rcases hshutdown with ⟨hclosing, hpm⟩ | ⟨hfinished, hnil⟩
    · have hlocked : t.locked = true := by simp [locked, hclosing]
      exact Or.inl ⟨hsame.trans hclosing, (hmanager hlocked).trans hpm⟩
    · exact Or.inr ⟨hsame.trans hfinished, hnil⟩

/-! ## One registration for a connection -/

/-- A handler whose flag is set registers nothing. -/
theorem dispatch_ne_registering (hflag : hd.registered = true) (msg : Message) (role : PeerRole) :
    hd.dispatch msg ≠ .registering role := by
  intro hdispatch
  unfold Handler.dispatch at hdispatch
  rw [hflag] at hdispatch
  repeat' split at hdispatch
  all_goals contradiction

/-- A handler whose flag is set does not register again. -/
def FlagFinal (t : Relay) : Prop :=
  ∀ c hd, t.handlers c = some hd → hd.registered = true → ∀ role, hd.phase ≠ .registering role

/-- A handler whose flag is set does not go on to register. -/
theorem Move.phase_ne {pm : PeerManager} {phase : Phase} (hmove : Move pm c hd phase out)
    (hflag : hd.registered = true) (role : PeerRole) : phase ≠ .registering role := by
  cases hmove with
  | dispatched msg hphase => exact dispatch_ne_registering hflag msg role
  | _ => exact Phase.noConfusion

/-- No step lets it. -/
theorem flagFinal_step (hfinal : FlagFinal t) (hcase : StepCase t v out) : FlagFinal v := by
  intro c hd hhandler hflag role
  rcases hcase.other c with ⟨hd', hown, hhd'⟩ | ⟨hsame, _⟩
  · rw [hhd', Option.some.injEq] at hhandler
    subst hhandler
    have hbefore := hfinal c
    generalize t.handlers c = before at hown hbefore
    generalize v.manager = pm' at hown
    cases hown with
    | moved hd phase out hmove => exact hmove.phase_ne hflag role
    | _ => exact Phase.noConfusion
  · exact hfinal c hd (hsame ▸ hhandler) hflag role

/-- So it registers once. -/
theorem flagFinal_of_reachable {maxConns : Int} {labels : List RelayLabel}
    (hrun : system.run (init maxConns) labels = some (t, h)) : FlagFinal t := by
  refine system.run_invariant (fun t _ => FlagFinal t) ?_ ?_ hrun
  · intro c hd hhandler
    cases hhandler
  · intro t h label v out hfinal hstep
    exact flagFinal_step hfinal (step_cases hstep)

/-- A handler that has registered goes on without a second registration. -/
theorem hasRegistered_step (hcase : StepCase t v out) (hhandler : t.handlers c = some hd)
    (hpast : hd.HasRegistered) :
    (∃ hd', v.handlers c = some hd' ∧ hd'.HasRegistered) ∧
      ∀ i role, .registered c i role ∉ out := by
  rcases hcase.other c with ⟨hd', hown, hhd'⟩ | ⟨hsame, hsilent⟩
  · rw [hhandler] at hown
    generalize v.manager = pm' at hown
    cases hown with
    | moved _ phase out hmove =>
        refine ⟨⟨_, hhd', ?_⟩, ?_⟩
        · rcases hpast with haccepted | ⟨hflag, _⟩
          · cases hmove <;> simp_all
          · exact Or.inr ⟨hflag, hmove.phase_ne hflag⟩
        · intro i role hmem
          cases hmove <;> simp at hmem
    | registered _ role pm' hphase hregister =>
        rcases hpast with haccepted | ⟨_, hne⟩
        · rw [hphase] at haccepted
          cases haccepted
        · exact absurd hphase (hne role)
    | flagged _ hphase =>
        exact ⟨⟨_, hhd', Or.inr ⟨rfl, fun _ => Phase.noConfusion⟩⟩, fun _ _ => List.not_mem_nil⟩
    | unregistered _ hphase hflag =>
        refine ⟨⟨_, hhd', Or.inr ⟨hflag, fun _ => Phase.noConfusion⟩⟩, fun i role hmem => ?_⟩
        cases List.mem_singleton.mp hmem
  · exact ⟨⟨hd, hsame.trans hhandler, hpast⟩, fun i role hmem => hsilent _ hmem rfl⟩

/-! ## What the shutdown closes -/

/-- What a shutdown that took the lock in one state has done when the relay is in another. -/
structure ShutdownLaw (t₀ t : Relay) (h : List RelayEvent) : Prop where
  /-- No connection is closed twice. -/
  nodup : (closings h).Nodup
  /-- Only peers that were registered when the lock was taken are closed. -/
  registered : ∀ c ∈ closings h, ∃ i role, t₀.manager.get i = some ⟨c, role⟩
  closed : ∀ c ∈ closings h, t.closed c = true
  /-- Under the lock nobody registers or leaves. -/
  frozen : t.locked = true → t.manager = t₀.manager
  /-- Past the lock all of them are closed. -/
  complete : t.locked = false → ∀ i peer, t₀.manager.get i = some peer → peer.conn ∈ closings h
  /-- Who registers later is not closed by the shutdown. -/
  late : ∀ c i role, .registered c i role ∈ h → c ∉ closings h

/-- Before the lock is taken nothing is closed. -/
theorem closings_of_waiting {maxConns : Int} {labels : List RelayLabel}
    (hrun : system.run (init maxConns) labels = some (t, h)) (hwaiting : t.shutdown = .waiting) :
    closings h = [] := by
  refine system.run_invariant (fun t h => t.shutdown = .waiting → closings h = []) ?_ ?_ hrun
    hwaiting
  · exact fun _ => rfl
  · intro t h label v out hnone hstep hv
    rcases (shutdown_cases hstep).2 with ⟨_, hnext, _, _⟩ | ⟨_, _, _, _, hnext, _, _, _⟩ |
      ⟨_, hnext, _⟩ | ⟨hsame, hout, _⟩
    · rw [hnext] at hv
      cases hv
    · rw [hnext] at hv
      cases hv
    · rw [hnext] at hv
      cases hv
    · rw [closings_append, hnone (hsame.symm.trans hv), hout, List.append_nil]

/-- Owned entries are of different connections. -/
theorem Owned.separate (howned : Owned t) : t.manager.Separate := by
  intro i j peer peer' hi hj hconn
  rcases howned.owner i peer hi with ⟨hd, hhandler, rfl, _⟩
  rcases howned.owner j peer' hj with ⟨hd', hhandler', rfl, _⟩
  rw [← hconn, hhandler] at hhandler'
  cases hhandler'
  rfl

/-- A connection whose handler has registered does not register any more. -/
theorem not_registered_of_run {labels : List RelayLabel} (hhandler : t₀.handlers c = some hd)
    (hpast : hd.HasRegistered) (hrun : system.run t₀ labels = some (t, h)) (i : GoString)
    (role : PeerRole) : .registered c i role ∉ h := by
  have hinv := system.run_invariant (fun t h => (∃ hd, t.handlers c = some hd ∧
    hd.HasRegistered) ∧ ∀ i role, .registered c i role ∉ h) ?_ ?_ hrun
  · exact hinv.2 i role
  · exact ⟨⟨hd, hhandler, hpast⟩, fun _ _ => List.not_mem_nil⟩
  · rintro t h label v out ⟨⟨hd, hhd, hbefore⟩, hnone⟩ hstep
    rcases hasRegistered_step (step_cases hstep) hhd hbefore with ⟨hafter, hout⟩
    refine ⟨hafter, fun i role hmem => ?_⟩
    rcases List.mem_append.mp hmem with hold | hnew
    · exact hnone i role hold
    · exact hout i role hnew

/-- However handlers and shutdown interleave, the shutdown closes every peer that is registered
when it takes the lock, each of them once, and nobody else; the loop never closes a peer that
registers once the lock is released. -/
theorem shutdown_sweeps {maxConns : Int} {pre post : List RelayLabel}
    (hrun : system.run (init maxConns) (pre ++ .shutdownLock :: post) = some (t, h)) :
    ∃ t₀ h₀ h₁, system.run (init maxConns) pre = some (t₀, h₀) ∧ h = h₀ ++ h₁ ∧
      closings h₀ = [] ∧ ShutdownLaw t₀ t h₁ := by
  rcases system.run_split.mp hrun with ⟨t₀, v, h₀, out, h₁, hpre, hlock, hpost, rfl⟩
  have hstep : t₀.shutdown = .waiting ∧ v = { t₀ with shutdown := .closing t₀.manager.conns } ∧
      out = [] := by
    change t₀.step .shutdownLock = some (v, out) at hlock
    simp only [step] at hlock
    split at hlock
    · rename_i hwaiting
      cases hlock
      exact ⟨hwaiting, rfl, rfl⟩
    · contradiction
  rcases hstep with ⟨hwaiting, rfl, rfl⟩
  have howned : Owned t₀ := (owned_of_reachable hpre).1
  have hfinal : FlagFinal t₀ := flagFinal_of_reachable hpre
  have hswept : Swept t₀.manager t h₁ := by
    refine system.run_invariant (Swept t₀.manager) ?_ ?_ hpost
    · exact ⟨fun _ hc => absurd hc List.not_mem_nil, _, List.Perm.refl _, Or.inl ⟨rfl, rfl⟩⟩
    · intro t h label v out hswept hstep
      exact swept_step hswept hstep
  rcases hswept with ⟨hclosed, todo, hperm, hshutdown⟩
  have hregistered : ∀ c ∈ closings h₁, ∃ i role, t₀.manager.get i = some ⟨c, role⟩ := by
    intro c hc
    exact PeerManager.mem_conns_iff.mp (hperm.subset (List.mem_append_left todo hc))
  refine ⟨t₀, h₀, h₁, hpre, by rw [List.append_nil], closings_of_waiting hpre hwaiting,
    ⟨?_, hregistered, hclosed, ?_, ?_, ?_⟩⟩
  · exact (hperm.nodup_iff.mpr howned.separate.nodup_conns).of_append_left
  · intro hlocked
    rcases hshutdown with ⟨_, hsame⟩ | ⟨hfinished, _⟩
    · exact hsame
    · simp [locked, hfinished] at hlocked
  · intro hunlocked i peer hget
    rcases hshutdown with ⟨hclosing, _⟩ | ⟨_, rfl⟩
    · simp [locked, hclosing] at hunlocked
    · rw [List.append_nil] at hperm
      exact hperm.mem_iff.mpr (PeerManager.mem_conns_iff.mpr ⟨i, peer.role, hget⟩)
  · intro c i role hlate hc
    rcases hregistered c hc with ⟨j, role', hget⟩
    rcases howned.owner j _ hget with ⟨hd, hhandler, _, howns⟩
    have hpast : hd.HasRegistered := by
      rcases howns with haccepted | ⟨hflag, _⟩
      · exact Or.inl haccepted
      · exact Or.inr ⟨hflag, hfinal c hd hhandler hflag⟩
    have hlocked : Relay.handlers { t₀ with shutdown := .closing t₀.manager.conns } c = some hd :=
      hhandler
    exact not_registered_of_run hlocked hpast hpost i role hlate

/-- A client registers after a shutdown that closed a game server. -/
theorem shutdown_sweeps_late :
    ∃ t h, system.run (init 0) (serverLabels ++ .shutdownLock ::
        [.shutdownClose 0, .shutdownUnlock, .accept 1 (goString "/connect/7"),
          .handler 1 (.frame (some { id := [], type := msgTypeRegister, role := roleClient })),
          .handler 1 .advance]) = some (t, h) ∧
      (∃ t₀ h₀ h₁, system.run (init 0) serverLabels = some (t₀, h₀) ∧ h = h₀ ++ h₁ ∧
        closings h₀ = [] ∧ ShutdownLaw t₀ t h₁) ∧
      closings h = [0] ∧ t.manager.get (goString "7") = some ⟨1, roleClient⟩ ∧
      t.closed 1 = false := by
  have hsome : ((system.run (init 0) (serverLabels ++ .shutdownLock ::
        [.shutdownClose 0, .shutdownUnlock, .accept 1 (goString "/connect/7"),
          .handler 1 (.frame (some { id := [], type := msgTypeRegister, role := roleClient })),
          .handler 1 .advance])).any fun p =>
      decide (closings p.2 = [0] ∧ p.1.manager.get (goString "7") = some ⟨1, roleClient⟩ ∧
        p.1.closed 1 = false)) = true := by
    decide +kernel
  rcases (Option.any_eq_true _ _).mp hsome with ⟨⟨t, h⟩, hrun, hlate⟩
  exact ⟨t, h, hrun, shutdown_sweeps hrun, of_decide_eq_true hlate⟩

end Relay

end GameFramework
