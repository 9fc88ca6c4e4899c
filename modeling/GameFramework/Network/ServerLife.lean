import GameFramework.Network.NetworkServer

/-!
# The shutdown of the network server

{lit}`NetworkServer::stop` against the messages that the signalling websocket keeps
delivering: {lit}`stop` does not close the websocket, nor does it wait for the calls of the
message handler that are under way on the threads of the websocket.  Both are taken apart where
they touch shared state.  {lit}`stop` clears the flag, joins its thread and clears the map, and
returns; a call looks its id up without the lock, creates a connection, stores it under the lock,
and looks it up again.  The two lookups and the storing are atomic here, although the lookups
race with {lit}`stop` in C++.  The assertion in {lit}`createClientConnection` is not checked, as
in a build without assertions; every run of a build with them is one of these up to its abort.

Main results:

- Theorem {lit}`ServerLife.exists_run_call`: a call that nothing interrupts does what
  {lit}`NetworkServer.handleSignallingMessage` does in one step.
- Theorem {lit}`ServerLife.empty_iff`: the map is empty after {lit}`stop` and stays so exactly when
  no offer or join is delivered after the map is cleared, or before and not yet stored then.
-/

namespace GameFramework

/-- The message is from a numeric id and of one of these types. -/
def IsFrom (message : Json) (types : List StdString) : Prop :=
  ∃ id type, readHeader message = .ok (id, type) ∧ type ∈ types

/-- Where a call of {lit}`NetworkServer::handleSignallingMessage` is in its code. -/
inductive ServerCallPhase where
  /-- Before the first {lit}`m_clients.find`. -/
  | delivered
  /-- Before {lit}`createClientConnection`. -/
  | missed (id : PeerID) (type : StdString)
  /-- In {lit}`createClientConnection`, before the lock under which the entry is stored. -/
  | creating (id : PeerID) (type : StdString) (clientConn : PeerConnection)
  /-- Before the second {lit}`m_clients.find`. -/
  | stored (id : PeerID) (type : StdString)
  /-- With a peer connection at hand. -/
  | found (id : PeerID) (type : StdString)

/-- A call of {lit}`NetworkServer::handleSignallingMessage` that is under way. -/
structure ServerCall where
  sender : Conn
  message : Json
  taken : Bool
  phase : ServerCallPhase

/-- The call is about to store an entry unless it finds one. -/
def ServerCall.Pending (call : ServerCall) : Prop :=
  match call.phase with
  | .delivered => IsFrom call.message [goString "offer", goString "join"]
  | .missed _ _ | .creating _ _ _ => True
  | .stored _ _ | .found _ _ => False

/-- The next step of a call, up to where it next touches shared state; the call that is left is
absent when the handler returns. -/
def NetworkServer.advance (t : NetworkServer) (call : ServerCall) :
    NetworkServer × Option ServerCall × List NetworkServerEvent :=
  match call.phase with
  | .delivered =>
      match readHeader call.message with
      | .error failure =>
          let (t, out) := t.fail failure
          (t, none, out)
      | .ok (id, type) =>
          match t.clients id with
          | some _ => (t, some { call with phase := .found id type }, [])
          | none =>
              if type = goString "offer" ∨ type = goString "join" then
                (t, some { call with phase := .missed id type }, [])
              else
                let (t, out) := t.fail (noConnection id type)
                (t, none, out)
  | .missed id type =>
      (t, some { call with phase := .creating id type ⟨id, t.signallingWebsocket⟩ }, [])
  | .creating id type clientConn =>
      ({ t with clients := Function.update t.clients id (some clientConn) },
        some { call with phase := .stored id type }, [.created call.sender id])
  | .stored id type =>
      match t.clients id with
      | some _ => (t, some { call with phase := .found id type }, [])
      | none => (t, none, [.failed (.logged (goString "Failed to find newly created connection"))])
  | .found id type =>
      let (t, out) := t.finish call.sender id (handOver call.message type call.taken)
      (t, none, out)

/-- Where {lit}`NetworkServer::stop` is in its code. -/
inductive StopPhase where
  /-- Not called, or returned. -/
  | idle
  /-- The flag is cleared, the map is not. -/
  | flagged
  /-- The map is cleared, and {lit}`stop` is about to return. -/
  | cleared
  deriving DecidableEq

/-- A network server with the calls of its message handler and the progress of {lit}`stop`. -/
structure ServerLife where
  server : NetworkServer
  calls : ℕ → Option ServerCall
  stop : StopPhase
  /-- {lit}`stop` has returned and {lit}`start` has not been called since. -/
  down : Bool

inductive ServerLifeLabel where
  | start
  /-- {lit}`stop` up to {lit}`m_running.store(false)`, or all of it when nothing runs. -/
  | stopFlag
  /-- The thread has ended, and the map is cleared. -/
  | stopClear
  | stopReturn
  | startSignallingWebsocket (opened : Bool)
  /-- The websocket delivers a message: a new call of the handler. -/
  | message (k : ℕ) (sender : Conn) (message : Json) (taken : Bool)
  | advance (k : ℕ)
  | negotiate (key : PeerID) (negotiation : Negotiation)

/-- What is under way goes on: a call of the message handler, or the return of {lit}`stop`. -/
def ServerLifeLabel.GoesOn : ServerLifeLabel → Prop
  | .advance _ | .stopReturn => True
  | _ => False

namespace ServerLife

def init : ServerLife where
  server := NetworkServer.init
  calls _ := none
  stop := .idle
  down := false

/-- A step; {lit}`start` and {lit}`stop` are called by one thread, one after the other. -/
def step (t : ServerLife) (label : ServerLifeLabel) :
    Option (ServerLife × List NetworkServerEvent) :=
  if t.server.undefined then none
  else
    match label with
    | .start =>
        if t.stop = .idle then
          some ({ t with server := { t.server with running := true }, down := false }, [])
        else none
    | .stopFlag =>
        if t.stop = .idle then
          if !t.server.running then some ({ t with down := true }, [])
          else some ({ t with server := { t.server with running := false }, stop := .flagged }, [])
        else none
    | .stopClear =>
        if t.stop = .flagged then
          let server := { t.server with clients := fun _ => none }
          some ({ t with server := server, stop := .cleared }, [])
        else none
    | .stopReturn =>
        if t.stop = .cleared then some ({ t with stop := .idle, down := true }, []) else none
    | .startSignallingWebsocket opened =>
        if t.server.running ∨ t.stop = .flagged then
          let (server, out) := t.server.startSignallingWebsocket opened
          some ({ t with server := server }, out)
        else none
    | .message k sender message taken =>
        if t.server.signallingWebsocket then
          match t.calls k with
          | some _ => none
          | none =>
              let call := ⟨sender, message, taken, .delivered⟩
              some ({ t with calls := Function.update t.calls k (some call) }, [])
        else none
    | .advance k =>
        match t.calls k with
        | none => none
        | some call =>
            let (server, call', out) := t.server.advance call
            some ({ t with server := server, calls := Function.update t.calls k call' }, out)
    | .negotiate key negotiation =>
        match t.server.clients key with
        | some pc => some (t, NetworkServer.negotiate key pc negotiation)
        | none => none

/-- The network server with its shutdown as a labelled system. -/
def system : Labelled.System ServerLife ServerLifeLabel NetworkServerEvent where
  step := step

/-- The map is empty if the server is down, and remains so while what is under way goes on. -/
def StaysEmpty (t : ServerLife) : Prop :=
  ∀ rest u out, (∀ label ∈ rest, ServerLifeLabel.GoesOn label) →
    system.run t rest = some (u, out) → u.down = true → ∀ key, u.server.clients key = none

/-- In every state of a run between {lit}`stop` and {lit}`start` the map is empty and stays so. -/
def EmptyWhenDown (labels : List ServerLifeLabel) : Prop :=
  ∀ pre post, labels = pre ++ post → ∀ t h, system.run init pre = some (t, h) → t.StaysEmpty

/-- The label delivers an offer or a join once {lit}`stop` has cleared the map, or clears the map
while a call is about to store an entry. -/
def Late (t : ServerLife) : ServerLifeLabel → Prop
  | .message _ _ message _ => (t.stop = .cleared ∨ t.down = true) ∧
      IsFrom message [goString "offer", goString "join"]
  | .stopClear => ∃ k call, t.calls k = some call ∧ call.Pending
  | _ => False

/-- A run in which no offer or join comes late. -/
def NoneLate (labels : List ServerLifeLabel) : Prop :=
  ∀ pre label post, labels = pre ++ label :: post → ∀ t h,
    system.run init pre = some (t, h) → ¬ t.Late label

variable {t v : ServerLife} {label : ServerLifeLabel} {out : List NetworkServerEvent} {k : ℕ}
  {call : ServerCall}

/-! ## A call without interruption -/

/-- A step of a call that is under way. -/
theorem step_advance (hdefined : t.server.undefined = false) (hcall : t.calls k = some call) :
    t.step (.advance k) = some
      ({ t with
          server := (t.server.advance call).1
          calls := Function.update t.calls k (t.server.advance call).2.1 },
        (t.server.advance call).2.2) := by
  simp [step, hdefined, hcall]

section Call

variable {server server' : NetworkServer} {calls : ℕ → Option ServerCall} {stop : StopPhase}
  {down : Bool} {call' : ServerCall} {rest : List NetworkServerEvent} {n : ℕ}

/-- The last step of a call. -/
theorem run_call_last (hdefined : server.undefined = false)
    (hadvance : server.advance call = (server', none, out)) :
    system.run ⟨server, Function.update calls k (some call), stop, down⟩ [.advance k] =
      some (⟨server', Function.update calls k none, stop, down⟩, out) := by
  refine system.run_singleton.mpr
    ((step_advance hdefined (Function.update_self k (some call) calls)).trans ?_)
  simp only [hadvance, Function.update_idem]

/-- A step of a call and the steps after it. -/
theorem run_call_cons (hdefined : server.undefined = false)
    (hadvance : server.advance call = (server', some call', out))
    (hrest : system.run ⟨server', Function.update calls k (some call'), stop, down⟩
      (List.replicate n (.advance k)) = some (v, rest)) :
    system.run ⟨server, Function.update calls k (some call), stop, down⟩
      (List.replicate (n + 1) (.advance k)) = some (v, out ++ rest) := by
  refine system.run_cons_eq_some.mpr ⟨_, out, rest,
    (step_advance hdefined (Function.update_self k (some call) calls)).trans ?_, hrest, rfl⟩
  simp only [hadvance, Function.update_idem]

/-- A call that has found an entry hands over what the message brings. -/
theorem run_call_found {sender : Conn} {message : Json} {taken : Bool} {id : PeerID}
    {type : StdString} (hdefined : server.undefined = false) :
    system.run ⟨server, Function.update calls k (some ⟨sender, message, taken, .found id type⟩),
        stop, down⟩ (List.replicate 1 (.advance k)) = some
      (⟨(server.finish sender id (handOver message type taken)).1, Function.update calls k none,
        stop, down⟩, (server.finish sender id (handOver message type taken)).2) :=
  run_call_last hdefined rfl

end Call

/-- A call of which every step is taken at once is the call that other modules take as one
step. -/
theorem exists_run_call {sender : Conn} {message : Json} {taken : Bool}
    (hdefined : t.server.undefined = false)
    (hcall : t.calls k = some ⟨sender, message, taken, .delivered⟩) :
    ∃ n, system.run t (List.replicate n (.advance k)) = some
      ({ t with
          server := (t.server.handleSignallingMessage sender message taken).1
          calls := Function.update t.calls k none },
        (t.server.handleSignallingMessage sender message taken).2) := by
  rcases t with ⟨server, calls, stop, down⟩
  have hself : calls = Function.update calls k (some ⟨sender, message, taken, .delivered⟩) := by
    rw [← hcall, Function.update_eq_self]
  simp only at hdefined
  unfold NetworkServer.handleSignallingMessage
  cases hheader : readHeader message with
  | error failure =>
      refine ⟨1, ?_⟩
      rw [hself, Function.update_idem]
      exact run_call_last hdefined (by simp only [NetworkServer.advance, hheader])
  | ok header =>
      rcases header with ⟨id, type⟩
      dsimp only
      cases hentry : server.clients id with
      | some pc =>
          have hfound : server.advance ⟨sender, message, taken, .delivered⟩ =
              (server, some ⟨sender, message, taken, .found id type⟩, []) := by
            simp only [NetworkServer.advance, hheader, hentry]
          refine ⟨2, ?_⟩
          rw [hself, Function.update_idem]
          exact run_call_cons hdefined hfound (run_call_found hdefined)
      | none =>
          by_cases htype : type = goString "offer" ∨ type = goString "join"
          · have hmissed : server.advance ⟨sender, message, taken, .delivered⟩ =
                (server, some ⟨sender, message, taken, .missed id type⟩, []) := by
              simp only [NetworkServer.advance, hheader, hentry, if_pos htype]
            have hcreating : server.advance ⟨sender, message, taken, .missed id type⟩ =
                (server, some ⟨sender, message, taken,
                  .creating id type ⟨id, server.signallingWebsocket⟩⟩, []) := rfl
            have hstored : server.advance ⟨sender, message, taken,
                  .creating id type ⟨id, server.signallingWebsocket⟩⟩ =
                (server.createClientConnection id, some ⟨sender, message, taken, .stored id type⟩,
                  [.created sender id]) := rfl
            have hfound : (server.createClientConnection id).advance
                  ⟨sender, message, taken, .stored id type⟩ =
                (server.createClientConnection id, some ⟨sender, message, taken, .found id type⟩,
                  []) := by
              simp only [NetworkServer.advance, NetworkServer.clients_createClientConnection_self]
            have hdefined' : (server.createClientConnection id).undefined = false := hdefined
            refine ⟨5, ?_⟩
            rw [hself, Function.update_idem]
            simp only [if_pos htype, NetworkServer.clients_createClientConnection_self]
            exact run_call_cons hdefined hmissed (run_call_cons hdefined hcreating
              (run_call_cons hdefined hstored
                (run_call_cons hdefined' hfound (run_call_found hdefined'))))
          · have hfailed : server.advance ⟨sender, message, taken, .delivered⟩ =
                ((server.fail (noConnection id type)).1, none,
                  (server.fail (noConnection id type)).2) := by
              simp only [NetworkServer.advance, hheader, hentry, if_neg htype]
            refine ⟨1, ?_⟩
            rw [hself, Function.update_idem]
            simp only [if_neg htype]
            exact run_call_last hdefined hfailed

/-! ## What keeps the map empty -/

/-- Without a call that is about to store an entry, an empty map stays empty through a step of a
call, and the call does not come to store one. -/
theorem clients_advance_of_not_pending {server : NetworkServer}
    (hempty : ∀ key, server.clients key = none) (hnot : ¬ call.Pending) :
    (∀ key, (server.advance call).1.clients key = none) ∧
      ∀ call', (server.advance call).2.1 = some call' → ¬ call'.Pending := by
  rcases call with ⟨sender, message, taken, phase⟩
  cases phase with
  | delivered =>
      unfold NetworkServer.advance
      cases hheader : readHeader message with
      | error failure => exact ⟨hempty, by simp⟩
      | ok header =>
          rcases header with ⟨id, type⟩
          have htype : ¬ (type = goString "offer" ∨ type = goString "join") := by
            intro htype
            exact hnot ⟨id, type, hheader, by simpa using htype⟩
          simp only [hempty id, if_neg htype]
          exact ⟨hempty, by simp⟩
  | missed id type => exact absurd trivial hnot
  | creating id type clientConn => exact absurd trivial hnot
  | stored id type =>
      simp only [NetworkServer.advance, hempty id]
      exact ⟨hempty, by simp⟩
  | found id type =>
      simp only [NetworkServer.advance]
      rw [NetworkServer.clients_finish]
      exact ⟨hempty, by simp⟩

/-- A call does not touch the flag or the websocket. -/
theorem running_advance (server : NetworkServer) (call : ServerCall) :
    (server.advance call).1.running = server.running ∧
      (server.advance call).1.signallingWebsocket = server.signallingWebsocket := by
  rcases call with ⟨sender, message, taken, phase⟩
  unfold NetworkServer.advance
  cases phase with
  | delivered =>
      dsimp only
      split
      · exact ⟨rfl, rfl⟩
      · split
        · exact ⟨rfl, rfl⟩
        · split <;> exact ⟨rfl, rfl⟩
  | stored id type =>
      dsimp only
      split <;> exact ⟨rfl, rfl⟩
  | found id type =>
      unfold NetworkServer.finish
      dsimp only
      split <;> exact ⟨rfl, rfl⟩
  | _ => exact ⟨rfl, rfl⟩

/-- While nothing runs and {lit}`stop` has nothing left to clear, the map is empty and no call is
about to store an entry; before the first {lit}`start` there is no websocket. -/
structure Quiet (t : ServerLife) : Prop where
  down : t.down = true → t.server.running = false ∧ t.stop = .idle
  stopping : t.stop ≠ .idle → t.server.running = false
  empty : t.server.running = false → t.stop ≠ .flagged → ∀ key, t.server.clients key = none
  settled : t.server.running = false → t.stop ≠ .flagged →
    ∀ k call, t.calls k = some call → ¬ call.Pending
  fresh : t.server.running = false → t.stop = .idle →
    t.down = true ∨ t.server.signallingWebsocket = false

theorem quiet_init : Quiet init where
  down hdown := by cases hdown
  stopping hstopping := absurd rfl hstopping
  empty _ _ _ := rfl
  settled _ _ _ _ hcall := by cases hcall
  fresh _ _ := Or.inr rfl

/-- A delivered message that is not late does not disturb. -/
theorem Quiet.message {sender : Conn} {message : Json} {taken : Bool} (hquiet : Quiet t)
    (hwebsocket : t.server.signallingWebsocket = true)
    (hlate : ¬ t.Late (.message k sender message taken)) :
    Quiet { t with calls :=
      Function.update t.calls k (some ⟨sender, message, taken, .delivered⟩) } := by
  refine ⟨hquiet.down, hquiet.stopping, hquiet.empty, ?_, hquiet.fresh⟩
  intro hrunning hstop
  dsimp only at hrunning hstop
  -- nothing runs: the map has been cleared, or there is no websocket to deliver from
  have hcleared : t.stop = .cleared ∨ t.down = true := by
    cases hphase : t.stop with
    | idle =>
        rcases hquiet.fresh hrunning hphase with hdown | hnone
        · exact Or.inr hdown
        · rw [hnone] at hwebsocket
          contradiction
    | flagged => exact absurd hphase hstop
    | cleared => exact Or.inl rfl
  refine (Function.forall_update_iff t.calls fun _ c => ∀ call, c = some call → ¬ call.Pending).mpr
    ⟨fun call' hcall' hpending => ?_, fun k' _ => hquiet.settled hrunning hstop k'⟩
  cases hcall'
  exact hlate ⟨hcleared, hpending⟩

/-- A step of a call does not disturb. -/
theorem Quiet.advance (hquiet : Quiet t) (hcall : t.calls k = some call) :
    Quiet { t with
      server := (t.server.advance call).1
      calls := Function.update t.calls k (t.server.advance call).2.1 } := by
  rcases running_advance t.server call with ⟨hrunning, hsocket⟩
  have hkept : t.server.running = false → t.stop ≠ .flagged →
      (∀ key, (t.server.advance call).1.clients key = none) ∧
        ∀ call', (t.server.advance call).2.1 = some call' → ¬ call'.Pending := fun hrun hstop =>
    clients_advance_of_not_pending (hquiet.empty hrun hstop)
      (hquiet.settled hrun hstop k call hcall)
  constructor
  · intro hdown
    dsimp only
    rw [hrunning]
    exact hquiet.down hdown
  · intro hstop
    dsimp only
    rw [hrunning]
    exact hquiet.stopping hstop
  · intro hrun hstop
    dsimp only at hrun hstop
    rw [hrunning] at hrun
    exact (hkept hrun hstop).1
  · intro hrun hstop
    dsimp only at hrun hstop
    rw [hrunning] at hrun
    exact (Function.forall_update_iff t.calls fun _ c => ∀ call, c = some call → ¬ call.Pending).mpr
      ⟨(hkept hrun hstop).2, fun k' _ => hquiet.settled hrun hstop k'⟩
  · intro hrun hstop
    dsimp only at hrun hstop ⊢
    rw [hrunning] at hrun
    rw [hsocket]
    exact hquiet.fresh hrun hstop

/-- Every step that is not late keeps the map empty. -/
theorem quiet_step (hquiet : Quiet t) (hlate : ¬ t.Late label)
    (hstep : t.step label = some (v, out)) : Quiet v := by
  unfold step at hstep
  split at hstep
  · contradiction
  · cases label with
    | start =>
        simp only at hstep
        split at hstep
        · rename_i hidle
          cases hstep
          exact ⟨fun hdown => absurd hdown (by simp), fun hstop => absurd hidle hstop,
            fun hrunning => absurd hrunning (by simp), fun hrunning => absurd hrunning (by simp),
            fun hrunning => absurd hrunning (by simp)⟩
        · contradiction
    | stopFlag =>
        simp only at hstep
        split at hstep
        · rename_i hidle
          split at hstep
          · rename_i hrunning
            cases hstep
            have hrun : t.server.running = false := by simpa using hrunning
            exact ⟨fun _ => ⟨hrun, hidle⟩, hquiet.stopping, hquiet.empty, hquiet.settled,
              fun _ _ => Or.inl rfl⟩
          · rename_i hrunning
            cases hstep
            refine ⟨fun hdown => ?_, fun _ => rfl, fun _ hstop => absurd rfl hstop,
              fun _ hstop => absurd rfl hstop, fun _ hstop => absurd hstop (by simp)⟩
            exact absurd (hquiet.down hdown).1 (by simpa using hrunning)
        · contradiction
    | stopClear =>
        simp only at hstep
        split at hstep
        · rename_i hflagged
          cases hstep
          have hrun : t.server.running = false := hquiet.stopping (by simp [hflagged])
          refine ⟨fun hdown => ?_, fun _ => hrun, fun _ _ _ => rfl, fun _ _ k call hcall hpending =>
            hlate ⟨k, call, hcall, hpending⟩, fun _ hstop => absurd hstop (by simp)⟩
          rw [(hquiet.down hdown).2] at hflagged
          contradiction
        · contradiction
    | stopReturn =>
        simp only at hstep
        split at hstep
        · rename_i hcleared
          cases hstep
          have hrun : t.server.running = false := hquiet.stopping (by simp [hcleared])
          exact ⟨fun _ => ⟨hrun, rfl⟩, fun hstop => absurd rfl hstop,
            fun _ _ => hquiet.empty hrun (by simp [hcleared]),
            fun _ _ => hquiet.settled hrun (by simp [hcleared]), fun _ _ => Or.inl rfl⟩
        · contradiction
    | startSignallingWebsocket opened =>
        simp only at hstep
        split at hstep
        · rename_i hthread
          cases hstep
          refine ⟨hquiet.down, hquiet.stopping, hquiet.empty, hquiet.settled, fun hrun hstop => ?_⟩
          -- the thread that connects ends before `stop` returns
          rcases hthread with hrunning | hflagged
          · exact absurd hrun (by simpa [NetworkServer.startSignallingWebsocket] using hrunning)
          · exact absurd hstop (by simp [hflagged])
        · contradiction
    | message k sender message taken =>
        simp only at hstep
        split at hstep
        · rename_i hwebsocket
          split at hstep
          · contradiction
          · cases hstep
            exact hquiet.message hwebsocket hlate
        · contradiction
    | advance k =>
        simp only at hstep
        split at hstep
        · contradiction
        · rename_i call hcall
          cases hstep
          exact hquiet.advance hcall
    | negotiate key negotiation =>
        simp only at hstep
        split at hstep
        · cases hstep
          exact hquiet
        · contradiction

/-- In a quiet state the map stays empty while what is under way goes on. -/
theorem Quiet.staysEmpty (hquiet : Quiet t) : t.StaysEmpty := by
  intro rest u out hrest hrun hdown
  have hquiet' : Quiet u := by
    refine system.run_invariant_of_steps (fun t _ => Quiet t) (fun _ _ label => label.GoesOn) hquiet
      ?_ ?_ hrun
    · intro t h label v out hquiet hgoes hstep
      refine quiet_step hquiet ?_ hstep
      cases label with
      | advance k => exact id
      | stopReturn => exact id
      | _ => exact absurd hgoes id
    · intro pre label post hsplit t h _
      exact hrest label (by simp [hsplit])
  exact hquiet'.empty (hquiet'.down hdown).1 (by simp [(hquiet'.down hdown).2])

/-! ## What fills the map -/

theorem StaysEmpty.clients_eq_none (hstays : t.StaysEmpty) (hdown : t.down = true) (key : PeerID) :
    t.server.clients key = none :=
  hstays [] t [] (by simp) (system.run_nil t) hdown key

/-- What stays empty stays so when what is under way takes a step. -/
theorem StaysEmpty.step (hstays : t.StaysEmpty) (hgoes : label.GoesOn)
    (hstep : t.step label = some (v, out)) : v.StaysEmpty := by
  intro rest u out' hrest hrun
  refine hstays (label :: rest) u (out ++ out') ?_
    (system.run_cons_eq_some.mpr ⟨v, out, out', hstep, hrun, rfl⟩)
  intro l hl
  rcases List.mem_cons.mp hl with rfl | hl
  · exact hgoes
  · exact hrest l hl

/-- A call that goes on stores nothing once the entries stay empty. -/
theorem StaysEmpty.advance (hstays : t.StaysEmpty) (hdefined : t.server.undefined = false)
    (hcall : t.calls k = some call) :
    StaysEmpty { t with
      server := (t.server.advance call).1
      calls := Function.update t.calls k (t.server.advance call).2.1 } := by
  have hgoes : ServerLifeLabel.GoesOn (.advance k) := trivial
  exact hstays.step hgoes (step_advance hdefined hcall)

/-- The end of {lit}`stop` changes nothing. -/
theorem StaysEmpty.stopReturn (hstays : t.StaysEmpty) (hdefined : t.server.undefined = false)
    (hcleared : t.stop = .cleared) : StaysEmpty { t with stop := .idle, down := true } := by
  have hgoes : ServerLifeLabel.GoesOn .stopReturn := trivial
  have hstep : t.step .stopReturn = some ({ t with stop := .idle, down := true }, []) := by
    simp [ServerLife.step, hdefined, hcleared]
  exact hstays.step hgoes hstep

/-- A call that is about to store an entry would do so in a server that is down. -/
theorem StaysEmpty.not_pending (hstays : t.StaysEmpty) (hdefined : t.server.undefined = false)
    (hdown : t.down = true) (hcall : t.calls k = some call) : ¬ call.Pending := by
  have hcreating : ∀ {t : ServerLife} {id type clientConn}, t.StaysEmpty →
      t.server.undefined = false → t.down = true →
        t.calls k ≠ some { call with phase := .creating id type clientConn } := by
    intro t id type clientConn hstays hdefined hdown hcall
    have hempty := (hstays.advance hdefined hcall).clients_eq_none hdown id
    simp [NetworkServer.advance] at hempty
  have hmissed : ∀ {t : ServerLife} {id type}, t.StaysEmpty → t.server.undefined = false →
      t.down = true → t.calls k ≠ some { call with phase := .missed id type } := by
    intro t id type hstays hdefined hdown hcall
    exact hcreating (hstays.advance hdefined hcall) hdefined hdown (Function.update_self _ _ _)
  rcases call with ⟨sender, message, taken, phase⟩
  cases phase with
  | delivered =>
      rintro ⟨id, type, hheader, hmem⟩
      have htype : type = goString "offer" ∨ type = goString "join" := by simpa using hmem
      have hadvance : t.server.advance ⟨sender, message, taken, .delivered⟩ =
          (t.server, some ⟨sender, message, taken, .missed id type⟩, []) := by
        simp only [NetworkServer.advance, hheader, hstays.clients_eq_none hdown id, if_pos htype]
      have hstays' := hstays.advance hdefined hcall
      rw [hadvance] at hstays'
      exact hmissed hstays' hdefined hdown (Function.update_self _ _ _)
  | missed id type => exact fun _ => hmissed hstays hdefined hdown hcall
  | creating id type clientConn => exact fun _ => hcreating hstays hdefined hdown hcall
  | stored id type => exact not_false
  | found id type => exact not_false

/-- After a late offer or join the map does not stay empty. -/
theorem not_late_of_staysEmpty (hstep : t.step label = some (v, out)) (hstays : v.StaysEmpty) :
    ¬ t.Late label := by
  unfold step at hstep
  split at hstep
  · contradiction
  · rename_i hundefined
    have hdefined : t.server.undefined = false := by simpa using hundefined
    cases label with
    | stopClear =>
        simp only at hstep
        split at hstep
        · cases hstep
          rintro ⟨k, call, hcall, hpending⟩
          exact (hstays.stopReturn hdefined rfl).not_pending hdefined rfl hcall hpending
        · contradiction
    | message k sender message taken =>
        simp only at hstep
        split at hstep
        · split at hstep
          · contradiction
          · cases hstep
            rintro ⟨hcleared | hdown, hfrom⟩
            · exact (hstays.stopReturn hdefined hcleared).not_pending hdefined rfl
                (Function.update_self _ _ _) hfrom
            · exact hstays.not_pending hdefined hdown (Function.update_self _ _ _) hfrom
        · contradiction
    | _ => exact not_false

/-- Between {lit}`stop` and {lit}`start` the map is empty and stays so, in every state of a run,
exactly when no offer or join comes late. -/
theorem empty_iff {labels : List ServerLifeLabel} {h : List NetworkServerEvent}
    (hrun : system.run init labels = some (t, h)) : EmptyWhenDown labels ↔ NoneLate labels := by
  refine system.forall_states_iff (fun t _ => Quiet t) (fun t label => ¬ t.Late label) StaysEmpty
    quiet_init ?_ (fun _ _ hquiet => hquiet.staysEmpty) ?_ hrun
  · intro t h label v out hquiet hlate hstep
    exact quiet_step hquiet hlate hstep
  · intro pre t h label v out _ hstep hstays
    exact not_late_of_staysEmpty hstep hstays

end ServerLife

end GameFramework
