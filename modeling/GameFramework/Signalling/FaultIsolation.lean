import GameFramework.Signalling.Ownership

/-!
# Fault isolation of the relay

A handler returns when its own connection cannot be read, and also when a write to
the connection of another peer fails.  The second return lets one peer's departure
take another peer off the registry.  This module shows that nothing else does:
faults are isolated in exactly the runs in which no relayed write fails, except for
handlers whose connection the shutdown goroutine has closed.

Main results:

- Theorem {lit}`Relay.exited_of_reachable`: the handlers that have returned are those in
  their deferred function or past it.
- Theorem {lit}`Relay.returned_cases`: what a return is recorded with.
- Theorem {lit}`Relay.faultIsolated_iff`: faults are isolated exactly when every failed or
  panicking write is one of a handler that is being shut down.
-/

namespace GameFramework

namespace Relay

/-- The connection could not be read, or the shutdown goroutine has closed it. -/
def OwnFault (h : List RelayEvent) (c : Conn) : Prop :=
  .readFailed c ∈ h ∨ .shutdownClosed c ∈ h

/-- Handlers return, and entries leave the peer map or the server list, only for a
fault of the handler's or the entry's own connection. -/
structure FaultIsolated (maxConns : Int) (labels : List RelayLabel) (h : List RelayEvent) :
    Prop where
  returns : ∀ a c b, h = a ++ .returned c :: b → OwnFault a c
  removals : ∀ pre label post t h₁ v out, labels = pre ++ label :: post →
    system.run (init maxConns) pre = some (t, h₁) → t.step label = some (v, out) →
    ∀ i peer, t.manager.get i = some peer →
      v.manager.get i ≠ some peer ∨ i ∈ t.manager.servers ∧ i ∉ v.manager.servers →
      OwnFault h₁ peer.conn

/-- A write by a handler has failed or panicked. -/
def WriteFault (c : Conn) (e : RelayEvent) : Prop :=
  (∃ d, e = .writeFailed c d ∨ e = .writePanicked c d) ∨ e = .pongPanicked c

/-- Failed and panicking writes are only those of handlers whose connection the
shutdown goroutine has closed. -/
def WritesSucceed (h : List RelayEvent) : Prop :=
  ∀ a e b c, h = a ++ e :: b → WriteFault c e → .shutdownClosed c ∈ a

/-! ## Returned handlers -/

/-- The handler is in its deferred function or past it. -/
def Exited (t : Relay) (c : Conn) : Prop :=
  ∃ hd, t.handlers c = some hd ∧
    (hd.phase = .exiting ∨ hd.phase = .closing ∨ hd.phase = .done)

/-- A handler that returns has not been in its deferred function, and records a failed
read, or a failed or panicking write. -/
theorem Move.returned_cases {pm : PeerManager} {c : Conn} {hd : Handler} {phase : Phase}
    {out : List RelayEvent} (hmove : Move pm c hd phase out) (hmem : .returned c ∈ out) :
    ∃ e, out = [e, .returned c] ∧ (e = .readFailed c ∨ WriteFault c e) ∧
      hd.phase ≠ .exiting ∧ hd.phase ≠ .closing ∧ hd.phase ≠ .done := by
  cases hmove with
  | readError hphase => exact ⟨_, rfl, Or.inl rfl, by simp [hphase]⟩
  | pongError hphase => exact ⟨_, rfl, Or.inl rfl, by simp [hphase]⟩
  | pongPanic hphase => exact ⟨_, rfl, Or.inr (Or.inr rfl), by simp [hphase]⟩
  | writeError target hphase =>
      exact ⟨_, rfl, Or.inr (Or.inl ⟨target, Or.inl rfl⟩), by simp [hphase]⟩
  | writePanic target hphase =>
      exact ⟨_, rfl, Or.inr (Or.inl ⟨target, Or.inr rfl⟩), by simp [hphase]⟩
  | _ => simp at hmem

/-- A step that records a return is one of the returning handler. -/
theorem returned_cases {t v : Relay} {out : List RelayEvent} {c : Conn}
    (hcase : StepCase t v out) (hmem : .returned c ∈ out) :
    ∃ e, out = [e, .returned c] ∧ (e = .readFailed c ∨ WriteFault c e) ∧
      (∀ hd, t.handlers c = some hd → hd.phase ≠ .exiting ∧ hd.phase ≠ .closing ∧
        hd.phase ≠ .done) := by
  rcases hcase.other c with ⟨h', hown, _⟩ | ⟨_, hactor⟩
  · generalize hbefore : t.handlers c = before at hown
    generalize v.manager = pm' at hown
    cases hown with
    | moved h₀ phase out hmove =>
        rcases hmove.returned_cases hmem with ⟨e, hout, he, hphases⟩
        refine ⟨e, hout, he, fun hd hhandler => ?_⟩
        cases hhandler
        exact hphases
    | _ => simp at hmem
  · exact absurd rfl (hactor _ hmem)

/-- A failed read or write ends the handler in the same step. -/
theorem returned_of_fault {t v : Relay} {out : List RelayEvent} {c : Conn} {e : RelayEvent}
    (hcase : StepCase t v out) (hmem : e ∈ out) (he : e = .readFailed c ∨ WriteFault c e) :
    out = [e, .returned c] := by
  cases hcase with
  | refused path _ _ =>
      rcases he with rfl | ⟨d, rfl | rfl⟩ | rfl <;> simp at hmem
  | shutdown closes _ _ =>
      rcases he with rfl | ⟨d, rfl | rfl⟩ | rfl <;> simp at hmem
  | own c' h' out hown _ =>
      generalize t.handlers c' = before at hown
      generalize v.manager = pm' at hown
      cases hown with
      | moved h₀ phase out hmove =>
          cases hmove <;> rcases he with rfl | ⟨d, rfl | rfl⟩ | rfl <;> simp_all
      | _ => rcases he with rfl | ⟨d, rfl | rfl⟩ | rfl <;> simp at hmem

/-- The handlers that have returned are those in their deferred function or past
it. -/
theorem exited_step {t v : Relay} {h out : List RelayEvent} {c : Conn}
    (hexited : .returned c ∈ h ↔ Exited t c) (hcase : StepCase t v out) :
    .returned c ∈ h ++ out ↔ Exited v c := by
  rw [List.mem_append, hexited]
  rcases hcase.other c with ⟨h', hown, hh'⟩ | ⟨hsame, hactor⟩
  · unfold Exited
    rw [hh']
    generalize t.handlers c = before at hown
    generalize v.manager = pm' at hown
    cases hown with
    | moved h₀ phase out hmove =>
        cases hmove with
        | dispatched msg hphase =>
            simp [hphase, dispatch_ne h₀ msg]
        | _ => simp_all
    | _ => simp_all
  · have hnot : .returned c ∉ out := fun hmem => hactor _ hmem rfl
    simp [Exited, hsame, hnot]

theorem exited_of_reachable {maxConns : Int} {labels : List RelayLabel} {t : Relay}
    {h : List RelayEvent} (hrun : system.run (init maxConns) labels = some (t, h)) (c : Conn) :
    .returned c ∈ h ↔ Exited t c := by
  refine system.run_invariant (fun t h => .returned c ∈ h ↔ Exited t c) ?_ ?_ hrun
  · simp [Exited, init]
  · intro t h label v out hexited hstep
    exact exited_step hexited (step_cases hstep)

/-- The two positions of an element of a pair. -/
private theorem append_cons_eq_pair {α : Type*} {a b : List α} {x y z : α}
    (h : a ++ z :: b = [x, y]) :
    a = [] ∧ z = x ∧ b = [y] ∨ a = [x] ∧ z = y ∧ b = [] := by
  rcases List.append_eq_cons_iff.mp h with ⟨ha, hb⟩ | ⟨rest, ha, hrest⟩
  · cases hb
    exact Or.inl ⟨ha, rfl, rfl⟩
  · rcases List.append_eq_singleton_iff.mp hrest.symm with ⟨hnil, hb⟩ | ⟨_, hb⟩
    · cases hb
      exact Or.inr ⟨by rw [ha, hnil], rfl, rfl⟩
    · contradiction

/-! ## Isolation -/

section Run

variable {maxConns : Int} {labels : List RelayLabel} {t : Relay} {h : List RelayEvent}

/-- A handler that has not returned has not failed to read. -/
theorem readFailed_returned (hrun : system.run (init maxConns) labels = some (t, h)) {c : Conn}
    (hmem : .readFailed c ∈ h) : .returned c ∈ h := by
  rcases List.append_of_mem hmem with ⟨a, b, rfl⟩
  rcases system.exists_step_of_mem_history hrun with
    ⟨pre, label, post, u, v, h₁, out₁, out₂, rfl, hpre, hstep, rfl⟩
  have hout := returned_of_fault (step_cases hstep)
    (List.mem_append_right out₁ List.mem_cons_self) (Or.inl rfl)
  rcases system.run_split_of_prefix hrun hpre with ⟨v', out', h₂, hstep', _, hsplit⟩
  rw [hstep] at hstep'
  cases hstep'
  rw [hsplit, hout]
  simp

/-- In a run whose writes succeed, handlers return for their own faults. -/
theorem returns_of_writesSucceed (hrun : system.run (init maxConns) labels = some (t, h))
    (hwrites : WritesSucceed h) :
    ∀ a c b, h = a ++ .returned c :: b → OwnFault a c := by
  rintro a c b rfl
  rcases system.exists_step_of_mem_history hrun with
    ⟨pre, label, post, u, v, h₁, out₁, out₂, rfl, hpre, hstep, rfl⟩
  rcases returned_cases (step_cases hstep) (List.mem_append_right out₁ List.mem_cons_self) with
    ⟨e, hout, he, _⟩
  have hne : e ≠ .returned c := by
    rcases he with rfl | ⟨d, rfl | rfl⟩ | rfl <;> simp
  have hsplit : out₁ = [e] ∧ out₂ = [] := by
    rcases append_cons_eq_pair hout with ⟨_, heq, _⟩ | ⟨hout₁, _, hout₂⟩
    · exact absurd heq.symm hne
    · exact ⟨hout₁, hout₂⟩
  rcases hsplit with ⟨rfl, rfl⟩
  rcases he with rfl | hfault
  · exact Or.inl (by simp)
  · have hshutdown := hwrites h₁ e (.returned c :: b) c (by simp) hfault
    exact Or.inr (List.mem_append_left _ hshutdown)

theorem OwnFault.append {a : List RelayEvent} {c : Conn} (hfault : OwnFault a c)
    (b : List RelayEvent) : OwnFault (a ++ b) c :=
  hfault.imp (List.mem_append_left b) (List.mem_append_left b)

/-- When handlers return for their own faults, so do entries leave. -/
theorem removals_of_returns
    (hreturns : ∀ a c b, h = a ++ .returned c :: b → OwnFault a c)
    (hrun : system.run (init maxConns) labels = some (t, h)) :
    ∀ pre label post t h₁ v out, labels = pre ++ label :: post →
      system.run (init maxConns) pre = some (t, h₁) → t.step label = some (v, out) →
      ∀ i peer, t.manager.get i = some peer →
        v.manager.get i ≠ some peer ∨ i ∈ t.manager.servers ∧ i ∉ v.manager.servers →
        OwnFault h₁ peer.conn := by
  intro pre label post u h₁ v out hlabels hpre hstep i peer hget hleaves
  have howned := (owned_of_reachable hpre).1
  have hnext := owned_step howned (step_cases hstep)
  rcases get_step howned (step_cases hstep) hget with hsame | ⟨_, _, hd, hhandler, hphase, _⟩
  · -- an entry that stays keeps its place on the server list
    rcases hleaves with hne | ⟨hlisted, hnot⟩
    · exact absurd hsame hne
    · rcases (howned.listed.mem_iff i).mp hlisted with ⟨peer', hpeer', hrole⟩
      rw [hget] at hpeer'
      cases hpeer'
      exact absurd ((hnext.listed.mem_iff i).mpr ⟨peer, hsame, hrole⟩) hnot
  · have hreturned := (exited_of_reachable hpre peer.conn).mpr ⟨hd, hhandler, Or.inl hphase⟩
    rcases List.append_of_mem hreturned with ⟨a, b, hsplit⟩
    rw [hlabels] at hrun
    rcases system.run_split_of_prefix hrun hpre with ⟨v', out', h₂, _, _, hh⟩
    have hfault := hreturns a peer.conn (b ++ (out' ++ h₂)) (by rw [hh, hsplit]; simp)
    rw [hsplit]
    exact hfault.append _

/-- When handlers return for their own faults, writes fail only for handlers that are
being shut down. -/
theorem writesSucceed_of_returns
    (hreturns : ∀ a c b, h = a ++ .returned c :: b → OwnFault a c)
    (hrun : system.run (init maxConns) labels = some (t, h)) : WritesSucceed h := by
  rintro a e b c rfl hfault
  rcases system.exists_step_of_mem_history hrun with
    ⟨pre, label, post, u, v, h₁, out₁, out₂, rfl, hpre, hstep, rfl⟩
  have hcase := step_cases hstep
  have hout := returned_of_fault hcase (List.mem_append_right out₁ List.mem_cons_self)
    (Or.inr hfault)
  have hne : e ≠ .returned c := by
    rcases hfault with ⟨d, rfl | rfl⟩ | rfl <;> simp
  have hsplit : out₁ = [] ∧ out₂ = [.returned c] := by
    rcases append_cons_eq_pair hout with ⟨hout₁, _, hout₂⟩ | ⟨_, heq, _⟩
    · exact ⟨hout₁, hout₂⟩
    · exact absurd heq hne
  rcases hsplit with ⟨rfl, rfl⟩
  rcases system.run_split_of_prefix hrun hpre with ⟨v', out', h₂, hstep', _, hh⟩
  rw [hstep] at hstep'
  cases hstep'
  rw [List.append_nil]
  rcases hreturns (h₁ ++ [e]) c h₂ (by rw [hh]; simp) with hread | hshutdown
  · -- the handler has not returned before this step
    have hread₁ : .readFailed c ∈ h₁ := by
      rcases List.mem_append.mp hread with hmem | hmem
      · exact hmem
      · rw [← List.mem_singleton.mp hmem] at hfault
        rcases hfault with ⟨d, hd | hd⟩ | hd <;> simp at hd
    have hexited := (exited_of_reachable hpre c).mp (readFailed_returned hpre hread₁)
    rcases hexited with ⟨hd, hhandler, hphase⟩
    have hmem : .returned c ∈ ([] ++ e :: [.returned c] : List RelayEvent) := by simp
    rcases returned_cases hcase hmem with ⟨_, _, _, hnot⟩
    rcases hnot hd hhandler with ⟨hexiting, hclosing, hdone⟩
    rcases hphase with hphase | hphase | hphase
    · exact absurd hphase hexiting
    · exact absurd hphase hclosing
    · exact absurd hphase hdone
  · rcases List.mem_append.mp hshutdown with hmem | hmem
    · exact hmem
    · rw [← List.mem_singleton.mp hmem] at hfault
      rcases hfault with ⟨d, hd | hd⟩ | hd <;> simp at hd

/-- Faults are isolated in a run exactly when writes fail or panic only in handlers
whose connection the shutdown goroutine has closed. -/
theorem faultIsolated_iff (hrun : system.run (init maxConns) labels = some (t, h)) :
    FaultIsolated maxConns labels h ↔ WritesSucceed h := by
  constructor
  · intro hisolated
    exact writesSucceed_of_returns hisolated.returns hrun
  · intro hwrites
    have hreturns := returns_of_writesSucceed hrun hwrites
    exact ⟨hreturns, removals_of_returns hreturns hrun⟩

end Run

/-- A game server sends a client an offer, and the client disconnects. -/
def offeredLabels : List RelayLabel :=
  serverLabels ++
    [.accept 1 (goString "/connect/7"),
      .handler 1 (.frame (some { id := [], type := msgTypeRegister, role := roleClient })),
      .handler 1 .advance, .handler 1 .advance,
      .handler 0 (.frame (some { id := goString "7", type := msgTypeOffer })),
      .handler 0 .advance, .handler 0 .advance, .handler 0 .advance,
      .handler 0 (.wrote .ok), .handler 1 .readError, .handler 1 .advance, .handler 1 .advance]

/-- The write succeeds, and the client leaves for its own failed read. -/
theorem faultIsolated_iff_offered :
    ∃ t h, system.run (init 0) offeredLabels = some (t, h) ∧ .returned 1 ∈ h ∧
      t.manager.get (goString "7") = none ∧ FaultIsolated 0 offeredLabels h := by
  have hrun : ∃ t data, system.run (init 0) offeredLabels = some (t,
      [.opened 0 (goString "12345"),
        .received 0 { id := goString "12345", type := msgTypeRegister, role := roleServer },
        .registered 0 (goString "12345") roleServer,
        .opened 1 (goString "7"),
        .received 1 { id := [], type := msgTypeRegister, role := roleClient },
        .registered 1 (goString "7") roleClient,
        .received 0 { id := goString "7", type := msgTypeOffer },
        .lookedUp 0 (goString "7"), .delivered 0 1 data, .readFailed 1, .returned 1,
        .unregistered 1 (goString "7") (.removed ⟨1, roleClient⟩ true), .closed 1]) ∧
      t.manager.get (goString "7") = none :=
    ⟨_, _, rfl, rfl⟩
  rcases hrun with ⟨t, data, hrun, hgone⟩
  refine ⟨t, _, hrun, by simp, hgone, (faultIsolated_iff hrun).mpr ?_⟩
  intro a e b c hsplit hfault
  have hmem : e ∈ a ++ e :: b := List.mem_append_right a List.mem_cons_self
  rw [← hsplit] at hmem
  rcases hfault with ⟨d, rfl | rfl⟩ | rfl <;> simp at hmem

/-- A game server looks a client up to send it an offer, the client disconnects, and
the server writes. -/
def departedLabels : List RelayLabel :=
  serverLabels ++
    [.accept 1 (goString "/connect/7"),
      .handler 1 (.frame (some { id := [], type := msgTypeRegister, role := roleClient })),
      .handler 1 .advance, .handler 1 .advance,
      .handler 0 (.frame (some { id := goString "7", type := msgTypeOffer })),
      .handler 0 .advance, .handler 0 .advance,
      .handler 1 .readError, .handler 1 .advance, .handler 1 .advance,
      .handler 0 .advance, .handler 0 (.wrote .error), .handler 0 .advance]

/-- The departure of the client takes the game server off the registry: its handler
returns without a fault of its own connection. -/
theorem exists_not_faultIsolated :
    ∃ t h, system.run (init 0) departedLabels = some (t, h) ∧
      .unregistered 0 (goString "12345") (.removed ⟨0, roleServer⟩ true) ∈ h ∧
      ¬ FaultIsolated 0 departedLabels h := by
  have hrun : ∃ t data, system.run (init 0) departedLabels = some (t,
      [.opened 0 (goString "12345"),
        .received 0 { id := goString "12345", type := msgTypeRegister, role := roleServer },
        .registered 0 (goString "12345") roleServer,
        .opened 1 (goString "7"),
        .received 1 { id := [], type := msgTypeRegister, role := roleClient },
        .registered 1 (goString "7") roleClient,
        .received 0 { id := goString "7", type := msgTypeOffer },
        .lookedUp 0 (goString "7"), .readFailed 1, .returned 1,
        .unregistered 1 (goString "7") (.removed ⟨1, roleClient⟩ true), .closed 1,
        .delivered 0 1 data, .writeFailed 0 1] ++ .returned 0 ::
        [.unregistered 0 (goString "12345") (.removed ⟨0, roleServer⟩ true)]) :=
    ⟨_, _, rfl⟩
  rcases hrun with ⟨t, data, hrun⟩
  refine ⟨t, _, hrun, by simp, fun hisolated => ?_⟩
  have hfault := hisolated.returns _ 0 _ rfl
  simp [OwnFault] at hfault

end Relay

end GameFramework
