import GameFramework.Network.NetworkClient
import GameFramework.Network.ServerLife

/-!
# The shutdown of the network client

{lit}`NetworkClient::disconnect` against the messages that the signalling websocket keeps
delivering, as for the server: {lit}`disconnect` neither closes the websocket nor waits for the
calls of the message handler that are under way.  {lit}`disconnect` tests the connection, closes
it and lets go of it, and returns; a call tests the connection, stores a new one and attaches its
callbacks, and hands over what the message brings.  A call reads the member
{lit}`m_connection.peerConnection` anew each time; once {lit}`disconnect` has let go of it, that
is a null pointer, and following it is undefined.

Main results:

- Theorem {lit}`ClientLife.exists_run_call`: a call that nothing interrupts does what
  {lit}`NetworkClient.handleSignallingMessage` does in one step.
- Theorem {lit}`ClientLife.null_iff`: the connection is null after {lit}`disconnect` and stays so
  exactly when no offer is delivered after the last statement on the connection, or before and
  not yet stored then.
-/

namespace GameFramework

/-- Where a call of {lit}`NetworkClient::handleSignallingMessage` is in its code. -/
inductive ClientCallPhase where
  /-- Before the test of {lit}`m_connection.peerConnection`. -/
  | delivered
  /-- In {lit}`createServerConnection`, before the connection is stored. -/
  | creating (id : PeerID) (type : StdString)
  /-- In {lit}`createServerConnection`, before the callbacks are attached. -/
  | attaching (id : PeerID) (type : StdString)
  /-- Before the last statements, which use the connection. -/
  | ready (id : PeerID) (type : StdString)

/-- A call of {lit}`NetworkClient::handleSignallingMessage` that is under way. -/
structure ClientCall where
  message : Json
  taken : Bool
  phase : ClientCallPhase

/-- The call is about to store a connection unless it finds one. -/
def ClientCall.Pending (call : ClientCall) : Prop :=
  match call.phase with
  | .delivered => IsFrom call.message [goString "offer"]
  | .creating _ _ => True
  | .attaching _ _ | .ready _ _ => False

/-- The end of the handler leaves the connection. -/
theorem NetworkClient.peerConnection_finish (t : NetworkClient) (id : PeerID)
    (outcome : Except Failure (Option Remote)) :
    (t.finish id outcome).1.peerConnection = t.peerConnection := by
  unfold finish fail
  split <;> rfl

/-- The next step of a call, up to where it next touches shared state; the call that is left is
absent when the handler returns. -/
def NetworkClient.advance (t : NetworkClient) (call : ClientCall) :
    NetworkClient × Option ClientCall × List NetworkClientEvent :=
  match call.phase with
  | .delivered =>
      match readHeader call.message with
      | .error failure =>
          let (t, out) := t.fail failure
          (t, none, out)
      | .ok (id, type) =>
          if type = goString "join" then
            let (t, out) :=
              t.fail (.logged (goString "Unexpected join message received by client"))
            (t, none, out)
          else
            match t.peerConnection with
            | some _ => (t, some { call with phase := .ready id type }, [])
            | none =>
                if type = goString "offer" then
                  (t, some { call with phase := .creating id type }, [])
                else
                  let (t, out) := t.fail (noConnection id type)
                  (t, none, out)
  | .creating id type =>
      (t.createServerConnection id, some { call with phase := .attaching id type }, [.created id])
  | .attaching id type =>
      match t.peerConnection with
      | some _ => (t, some { call with phase := .ready id type }, [])
      | none =>
          let (t, out) := t.fail .undefined
          (t, none, out)
  | .ready id type =>
      match readRemote call.message type, t.peerConnection with
      | .ok (some _), none =>
          let (t, out) := t.fail .undefined
          (t, none, out)
      | _, _ =>
          let (t, out) := t.finish id (handOver call.message type call.taken)
          (t, none, out)

/-- Where {lit}`NetworkClient::disconnect` is in its code. -/
inductive DisconnectPhase where
  /-- Not called, or returned. -/
  | idle
  /-- There was a connection, before {lit}`close`. -/
  | tested
  /-- The connection is closed, before {lit}`reset`. -/
  | closed
  /-- Past all statements on the connection. -/
  | passed
  deriving DecidableEq

/-- A network client with the calls of its message handler and the progress of
{lit}`disconnect`. -/
structure ClientLife where
  client : NetworkClient
  calls : ℕ → Option ClientCall
  disconnect : DisconnectPhase
  /-- {lit}`disconnect` has returned and {lit}`connect` has not been called since. -/
  down : Bool

inductive ClientLifeLabel where
  | connect (localID serverID : PeerID) (opened : Bool)
  | disconnectTest
  | disconnectClose
  | disconnectReset
  | disconnectReturn
  /-- The websocket delivers a message: a new call of the handler. -/
  | message (k : ℕ) (message : Json) (taken : Bool)
  | advance (k : ℕ)
  | negotiate (negotiation : Negotiation)

/-- What is under way goes on: a call of the message handler, or the return of
{lit}`disconnect`. -/
def ClientLifeLabel.GoesOn : ClientLifeLabel → Prop
  | .advance _ | .disconnectReturn => True
  | _ => False

namespace ClientLife

def init : ClientLife where
  client := NetworkClient.init
  calls _ := none
  disconnect := .idle
  down := false

/-- A step; {lit}`connect` and {lit}`disconnect` are called by one thread, one after the other. -/
def step (t : ClientLife) (label : ClientLifeLabel) :
    Option (ClientLife × List NetworkClientEvent) :=
  if t.client.undefined then none
  else
    match label with
    | .connect localID serverID opened =>
        if t.disconnect = .idle then
          let (client, out) := t.client.connect localID serverID opened
          some ({ t with client := client, down := false }, out)
        else none
    | .disconnectTest =>
        if t.disconnect = .idle then
          match t.client.peerConnection with
          | some _ => some ({ t with disconnect := .tested }, [])
          | none => some ({ t with disconnect := .passed }, [])
        else none
    | .disconnectClose =>
        if t.disconnect = .tested then
          match t.client.peerConnection with
          | some _ => some ({ t with disconnect := .closed }, [.closed])
          | none =>
              let (client, out) := t.client.fail .undefined
              some ({ t with client := client }, out)
        else none
    | .disconnectReset =>
        if t.disconnect = .closed then
          let client := { t.client with peerConnection := none }
          some ({ t with client := client, disconnect := .passed }, [])
        else none
    | .disconnectReturn =>
        if t.disconnect = .passed then some ({ t with disconnect := .idle, down := true }, [])
        else none
    | .message k message taken =>
        if t.client.signallingWebsocket then
          match t.calls k with
          | some _ => none
          | none =>
              let call := ⟨message, taken, .delivered⟩
              some ({ t with calls := Function.update t.calls k (some call) }, [])
        else none
    | .advance k =>
        match t.calls k with
        | none => none
        | some call =>
            let (client, call', out) := t.client.advance call
            some ({ t with client := client, calls := Function.update t.calls k call' }, out)
    | .negotiate negotiation =>
        match t.client.peerConnection with
        | some pc => some (t, NetworkClient.negotiate pc negotiation)
        | none => none

/-- The network client with its shutdown as a labelled system. -/
def system : Labelled.System ClientLife ClientLifeLabel NetworkClientEvent where
  step := step

/-- The connection is null if the client is down, and remains so while what is under way goes
on. -/
def StaysNull (t : ClientLife) : Prop :=
  ∀ rest u out, (∀ label ∈ rest, ClientLifeLabel.GoesOn label) →
    system.run t rest = some (u, out) → u.down = true → u.client.peerConnection = none

/-- In every state of a run between {lit}`disconnect` and {lit}`connect` there is no connection, and
none comes. -/
def NullWhenDown (labels : List ClientLifeLabel) : Prop :=
  ∀ pre post, labels = pre ++ post → ∀ t h, system.run init pre = some (t, h) → t.StaysNull

/-- A call is about to store a connection. -/
def AnyPending (t : ClientLife) : Prop :=
  ∃ k call, t.calls k = some call ∧ call.Pending

/-- The label delivers an offer once {lit}`disconnect` is past its statements on the connection, or
it is the last of these statements while a call is about to store a connection. -/
def Late (t : ClientLife) : ClientLifeLabel → Prop
  | .message _ message _ => (t.disconnect = .passed ∨ t.down = true) ∧
      IsFrom message [goString "offer"]
  | .disconnectTest => t.client.peerConnection = none ∧ t.AnyPending
  | .disconnectReset => t.AnyPending
  | _ => False

/-- A run in which no offer comes late. -/
def NoneLate (labels : List ClientLifeLabel) : Prop :=
  ∀ pre label post, labels = pre ++ label :: post → ∀ t h,
    system.run init pre = some (t, h) → ¬ t.Late label

variable {t v : ClientLife} {label : ClientLifeLabel} {out : List NetworkClientEvent} {k : ℕ}
  {call : ClientCall}

/-! ## A call without interruption -/

/-- A step of a call that is under way. -/
theorem step_advance (hdefined : t.client.undefined = false) (hcall : t.calls k = some call) :
    t.step (.advance k) = some
      ({ t with
          client := (t.client.advance call).1
          calls := Function.update t.calls k (t.client.advance call).2.1 },
        (t.client.advance call).2.2) := by
  simp [step, hdefined, hcall]

section Call

variable {client client' : NetworkClient} {calls : ℕ → Option ClientCall}
  {disconnect : DisconnectPhase} {down : Bool} {call' : ClientCall}
  {rest : List NetworkClientEvent} {n : ℕ}

/-- The last step of a call. -/
theorem run_call_last (hdefined : client.undefined = false)
    (hadvance : client.advance call = (client', none, out)) :
    system.run ⟨client, Function.update calls k (some call), disconnect, down⟩
      (List.replicate 1 (.advance k)) =
        some (⟨client', Function.update calls k none, disconnect, down⟩, out) := by
  refine system.run_singleton.mpr
    ((step_advance hdefined (Function.update_self k (some call) calls)).trans ?_)
  simp only [hadvance, Function.update_idem]

/-- A step of a call and the steps after it. -/
theorem run_call_cons (hdefined : client.undefined = false)
    (hadvance : client.advance call = (client', some call', out))
    (hrest : system.run ⟨client', Function.update calls k (some call'), disconnect, down⟩
      (List.replicate n (.advance k)) = some (v, rest)) :
    system.run ⟨client, Function.update calls k (some call), disconnect, down⟩
      (List.replicate (n + 1) (.advance k)) = some (v, out ++ rest) := by
  refine system.run_cons_eq_some.mpr ⟨_, out, rest,
    (step_advance hdefined (Function.update_self k (some call) calls)).trans ?_, hrest, rfl⟩
  simp only [hadvance, Function.update_idem]

/-- A call that has a connection hands over what the message brings. -/
theorem run_call_ready {message : Json} {taken : Bool} {id : PeerID} {type : StdString}
    {pc : PeerConnection} (hdefined : client.undefined = false)
    (hpc : client.peerConnection = some pc) :
    system.run ⟨client, Function.update calls k (some ⟨message, taken, .ready id type⟩),
        disconnect, down⟩ (List.replicate 1 (.advance k)) = some
      (⟨(client.finish id (handOver message type taken)).1, Function.update calls k none,
        disconnect, down⟩, (client.finish id (handOver message type taken)).2) := by
  refine run_call_last hdefined ?_
  simp only [NetworkClient.advance, hpc]
  split
  · contradiction
  · rfl

end Call

/-- A call of which every step is taken at once is the call that other modules take as one
step. -/
theorem exists_run_call {message : Json} {taken : Bool} (hdefined : t.client.undefined = false)
    (hcall : t.calls k = some ⟨message, taken, .delivered⟩) :
    ∃ n, system.run t (List.replicate n (.advance k)) = some
      ({ t with
          client := (t.client.handleSignallingMessage message taken).1
          calls := Function.update t.calls k none },
        (t.client.handleSignallingMessage message taken).2) := by
  rcases t with ⟨client, calls, disconnect, down⟩
  have hself : calls = Function.update calls k (some ⟨message, taken, .delivered⟩) := by
    rw [← hcall, Function.update_eq_self]
  simp only at hdefined
  unfold NetworkClient.handleSignallingMessage
  cases hheader : readHeader message with
  | error failure =>
      refine ⟨1, ?_⟩
      rw [hself, Function.update_idem]
      exact run_call_last hdefined (by simp only [NetworkClient.advance, hheader])
  | ok header =>
      rcases header with ⟨id, type⟩
      dsimp only
      by_cases hjoin : type = goString "join"
      · refine ⟨1, ?_⟩
        rw [hself, Function.update_idem]
        simp only [if_pos hjoin]
        exact run_call_last hdefined (by simp only [NetworkClient.advance, hheader, if_pos hjoin])
      · simp only [if_neg hjoin]
        cases hpc : client.peerConnection with
        | some pc =>
            have hready : client.advance ⟨message, taken, .delivered⟩ =
                (client, some ⟨message, taken, .ready id type⟩, []) := by
              simp only [NetworkClient.advance, hheader, if_neg hjoin, hpc]
            refine ⟨2, ?_⟩
            rw [hself, Function.update_idem]
            exact run_call_cons hdefined hready (run_call_ready hdefined hpc)
        | none =>
            by_cases hoffer : type = goString "offer"
            · have hcreating : client.advance ⟨message, taken, .delivered⟩ =
                  (client, some ⟨message, taken, .creating id type⟩, []) := by
                simp only [NetworkClient.advance, hheader, if_neg hjoin, hpc, if_pos hoffer]
              have hattaching : client.advance ⟨message, taken, .creating id type⟩ =
                  (client.createServerConnection id, some ⟨message, taken, .attaching id type⟩,
                    [.created id]) := rfl
              have hready : (client.createServerConnection id).advance
                    ⟨message, taken, .attaching id type⟩ =
                  (client.createServerConnection id, some ⟨message, taken, .ready id type⟩, []) :=
                rfl
              have hdefined' : (client.createServerConnection id).undefined = false := hdefined
              have hpc' : (client.createServerConnection id).peerConnection =
                  some ⟨id, client.signallingWebsocket⟩ := rfl
              refine ⟨4, ?_⟩
              rw [hself, Function.update_idem]
              simp only [if_pos hoffer]
              exact run_call_cons hdefined hcreating (run_call_cons hdefined hattaching
                (run_call_cons hdefined' hready (run_call_ready hdefined' hpc')))
            · refine ⟨1, ?_⟩
              rw [hself, Function.update_idem]
              simp only [if_neg hoffer]
              exact run_call_last hdefined
                (by simp only [NetworkClient.advance, hheader, if_neg hjoin, hpc, if_neg hoffer])

/-! ## What keeps the connection null -/

/-- Without a call that is about to store a connection, none comes by a step of a call, and the
call does not come to store one. -/
theorem peerConnection_advance_of_not_pending {client : NetworkClient}
    (hnull : client.peerConnection = none) (hnot : ¬ call.Pending) :
    (client.advance call).1.peerConnection = none ∧
      ∀ call', (client.advance call).2.1 = some call' → ¬ call'.Pending := by
  rcases call with ⟨message, taken, phase⟩
  cases phase with
  | delivered =>
      unfold NetworkClient.advance
      cases hheader : readHeader message with
      | error failure => exact ⟨hnull, by simp⟩
      | ok header =>
          rcases header with ⟨id, type⟩
          have hoffer : type ≠ goString "offer" := by
            rintro rfl
            exact hnot ⟨id, _, hheader, by simp⟩
          simp only [hnull, if_neg hoffer]
          split <;> exact ⟨hnull, by simp⟩
  | creating id type => exact absurd trivial hnot
  | attaching id type =>
      simp only [NetworkClient.advance, hnull]
      exact ⟨hnull, by simp⟩
  | ready id type =>
      simp only [NetworkClient.advance]
      split
      · exact ⟨hnull, by simp⟩
      · rw [NetworkClient.peerConnection_finish]
        exact ⟨hnull, by simp⟩

/-- Once {lit}`disconnect` is past its statements on the connection there is none, and no call is
about to store one. -/
structure Quiet (t : ClientLife) : Prop where
  down : t.down = true → t.disconnect = .idle ∨ t.disconnect = .passed
  null : t.disconnect = .passed ∨ t.down = true → t.client.peerConnection = none
  settled : t.disconnect = .passed ∨ t.down = true → ¬ t.AnyPending

theorem quiet_init : Quiet init where
  down hdown := by cases hdown
  null _ := rfl
  settled := by
    rintro _ ⟨k, call, hcall, _⟩
    cases hcall

/-- A delivered message that is not late does not disturb. -/
theorem Quiet.message {message : Json} {taken : Bool} (hquiet : Quiet t)
    (hlate : ¬ t.Late (.message k message taken)) :
    Quiet { t with calls := Function.update t.calls k (some ⟨message, taken, .delivered⟩) } := by
  refine ⟨hquiet.down, hquiet.null, ?_⟩
  intro hpassed hany
  rcases (Function.exists_update_iff t.calls fun _ c => ∃ call, c = some call ∧ call.Pending).mp
    hany with ⟨call', hcall', hpending⟩ | ⟨k', _, hbefore⟩
  · cases hcall'
    exact hlate ⟨hpassed, hpending⟩
  · exact hquiet.settled hpassed ⟨k', hbefore⟩

/-- A step of a call does not disturb. -/
theorem Quiet.advance (hquiet : Quiet t) (hcall : t.calls k = some call) :
    Quiet { t with
      client := (t.client.advance call).1
      calls := Function.update t.calls k (t.client.advance call).2.1 } := by
  have hkept : t.disconnect = .passed ∨ t.down = true →
      (t.client.advance call).1.peerConnection = none ∧
        ∀ call', (t.client.advance call).2.1 = some call' → ¬ call'.Pending := fun hpassed =>
    peerConnection_advance_of_not_pending (hquiet.null hpassed)
      fun hpending => hquiet.settled hpassed ⟨k, call, hcall, hpending⟩
  refine ⟨hquiet.down, fun hpassed => (hkept hpassed).1, ?_⟩
  intro hpassed hany
  rcases (Function.exists_update_iff t.calls fun _ c => ∃ call, c = some call ∧ call.Pending).mp
    hany with ⟨call', hcall', hpending⟩ | ⟨k', _, hbefore⟩
  · exact (hkept hpassed).2 call' hcall' hpending
  · exact hquiet.settled hpassed ⟨k', hbefore⟩

/-- Every step that is not late keeps the connection null. -/
theorem quiet_step (hquiet : Quiet t) (hlate : ¬ t.Late label)
    (hstep : t.step label = some (v, out)) : Quiet v := by
  unfold step at hstep
  split at hstep
  · contradiction
  · cases label with
    | connect localID serverID opened =>
        simp only at hstep
        split at hstep
        · rename_i hidle
          cases hstep
          have hnot : ¬ (t.disconnect = .passed ∨ false = true) := by simp [hidle]
          exact ⟨fun hdown => absurd hdown (by simp), fun hpassed => absurd hpassed hnot,
            fun hpassed => absurd hpassed hnot⟩
        · contradiction
    | disconnectTest =>
        simp only at hstep
        split at hstep
        · rename_i hidle
          split at hstep
          · rename_i pc hpc
            cases hstep
            have hup : ¬ t.down = true := fun hdown => by simp [hquiet.null (Or.inr hdown)] at hpc
            have hnot : ¬ (DisconnectPhase.tested = .passed ∨ t.down = true) := by simp [hup]
            exact ⟨fun hdown => absurd hdown hup, fun hpassed => absurd hpassed hnot,
              fun hpassed => absurd hpassed hnot⟩
          · rename_i hnull
            cases hstep
            exact ⟨fun _ => Or.inr rfl, fun _ => hnull, fun _ hany => hlate ⟨hnull, hany⟩⟩
        · contradiction
    | disconnectClose =>
        simp only at hstep
        split at hstep
        · rename_i htested
          have hup : ¬ t.down = true := fun hdown => by
            rcases hquiet.down hdown with hidle | hpassed
            · rw [hidle] at htested
              contradiction
            · rw [hpassed] at htested
              contradiction
          split at hstep
          · cases hstep
            have hnot : ¬ (DisconnectPhase.closed = .passed ∨ t.down = true) := by simp [hup]
            exact ⟨fun hdown => absurd hdown hup, fun hpassed => absurd hpassed hnot,
              fun hpassed => absurd hpassed hnot⟩
          · rename_i hnull
            cases hstep
            exact ⟨hquiet.down, fun _ => hnull, hquiet.settled⟩
        · contradiction
    | disconnectReset =>
        simp only at hstep
        split at hstep
        · cases hstep
          exact ⟨fun _ => Or.inr rfl, fun _ => rfl, fun _ => hlate⟩
        · contradiction
    | disconnectReturn =>
        simp only at hstep
        split at hstep
        · rename_i hpassed
          cases hstep
          exact ⟨fun _ => Or.inl rfl, fun _ => hquiet.null (Or.inl hpassed),
            fun _ => hquiet.settled (Or.inl hpassed)⟩
        · contradiction
    | message k message taken =>
        simp only at hstep
        split at hstep
        · split at hstep
          · contradiction
          · cases hstep
            exact hquiet.message hlate
        · contradiction
    | advance k =>
        simp only at hstep
        split at hstep
        · contradiction
        · rename_i call hcall
          cases hstep
          exact hquiet.advance hcall
    | negotiate negotiation =>
        simp only at hstep
        split at hstep
        · cases hstep
          exact hquiet
        · contradiction

/-- In a quiet state the connection stays null while what is under way goes on. -/
theorem Quiet.staysNull (hquiet : Quiet t) : t.StaysNull := by
  intro rest u out hrest hrun hdown
  have hquiet' : Quiet u := by
    refine system.run_invariant_of_steps (fun t _ => Quiet t) (fun _ _ label => label.GoesOn) hquiet
      ?_ ?_ hrun
    · intro t h label v out hquiet hgoes hstep
      refine quiet_step hquiet ?_ hstep
      cases label with
      | advance k => exact id
      | disconnectReturn => exact id
      | _ => exact absurd hgoes id
    · intro pre label post hsplit t h _
      exact hrest label (by simp [hsplit])
  exact hquiet'.null (Or.inr hdown)

/-! ## What makes a connection -/

theorem StaysNull.peerConnection_eq_none (hstays : t.StaysNull) (hdown : t.down = true) :
    t.client.peerConnection = none :=
  hstays [] t [] (by simp) (system.run_nil t) hdown

/-- What stays null stays so when what is under way takes a step. -/
theorem StaysNull.step (hstays : t.StaysNull) (hgoes : label.GoesOn)
    (hstep : t.step label = some (v, out)) : v.StaysNull := by
  intro rest u out' hrest hrun
  refine hstays (label :: rest) u (out ++ out') ?_
    (system.run_cons_eq_some.mpr ⟨v, out, out', hstep, hrun, rfl⟩)
  intro l hl
  rcases List.mem_cons.mp hl with rfl | hl
  · exact hgoes
  · exact hrest l hl

/-- A call that goes on stores nothing once the pointer stays null. -/
theorem StaysNull.advance (hstays : t.StaysNull) (hdefined : t.client.undefined = false)
    (hcall : t.calls k = some call) :
    StaysNull { t with
      client := (t.client.advance call).1
      calls := Function.update t.calls k (t.client.advance call).2.1 } := by
  have hgoes : ClientLifeLabel.GoesOn (.advance k) := trivial
  exact hstays.step hgoes (step_advance hdefined hcall)

/-- The end of {lit}`disconnect` changes nothing. -/
theorem StaysNull.disconnectReturn (hstays : t.StaysNull) (hdefined : t.client.undefined = false)
    (hpassed : t.disconnect = .passed) : StaysNull { t with disconnect := .idle, down := true } := by
  have hgoes : ClientLifeLabel.GoesOn .disconnectReturn := trivial
  have hstep : t.step .disconnectReturn =
      some ({ t with disconnect := .idle, down := true }, []) := by
    simp [ClientLife.step, hdefined, hpassed]
  exact hstays.step hgoes hstep

/-- A call that is about to store a connection would do so in a client that is down. -/
theorem StaysNull.not_pending (hstays : t.StaysNull) (hdefined : t.client.undefined = false)
    (hdown : t.down = true) (hcall : t.calls k = some call) : ¬ call.Pending := by
  have hcreating : ∀ {t : ClientLife} {id type}, t.StaysNull → t.client.undefined = false →
      t.down = true → t.calls k ≠ some { call with phase := .creating id type } := by
    intro t id type hstays hdefined hdown hcall
    have hnull := (hstays.advance hdefined hcall).peerConnection_eq_none hdown
    cases hnull
  rcases call with ⟨message, taken, phase⟩
  cases phase with
  | delivered =>
      rintro ⟨id, type, hheader, hmem⟩
      rw [List.mem_singleton.mp hmem] at hheader
      have hjoin : goString "offer" ≠ goString "join" := by decide
      have hadvance : t.client.advance ⟨message, taken, .delivered⟩ =
          (t.client, some ⟨message, taken, .creating id (goString "offer")⟩, []) := by
        simp only [NetworkClient.advance, hheader, if_neg hjoin,
          hstays.peerConnection_eq_none hdown, if_true]
      have hstays' := hstays.advance hdefined hcall
      rw [hadvance] at hstays'
      exact hcreating hstays' hdefined hdown (Function.update_self _ _ _)
  | creating id type => exact fun _ => hcreating hstays hdefined hdown hcall
  | attaching id type => exact not_false
  | ready id type => exact not_false

/-- Nor does {lit}`disconnect` return with such a call. -/
theorem StaysNull.not_anyPending (hstays : t.StaysNull) (hdefined : t.client.undefined = false)
    (hpassed : t.disconnect = .passed) : ¬ t.AnyPending := by
  rintro ⟨k, call, hcall, hpending⟩
  exact (hstays.disconnectReturn hdefined hpassed).not_pending hdefined rfl hcall hpending

/-- After a late offer the connection does not stay null. -/
theorem not_late_of_staysNull (hstep : t.step label = some (v, out)) (hstays : v.StaysNull) :
    ¬ t.Late label := by
  unfold step at hstep
  split at hstep
  · contradiction
  · rename_i hundefined
    have hdefined : t.client.undefined = false := by simpa using hundefined
    cases label with
    | disconnectTest =>
        rintro ⟨hnull, hany⟩
        simp only [hnull] at hstep
        split at hstep
        · cases hstep
          exact hstays.not_anyPending hdefined rfl hany
        · contradiction
    | disconnectReset =>
        simp only at hstep
        split at hstep
        · cases hstep
          exact hstays.not_anyPending hdefined rfl
        · contradiction
    | message k message taken =>
        simp only at hstep
        split at hstep
        · split at hstep
          · contradiction
          · cases hstep
            rintro ⟨hpassed | hdown, hfrom⟩
            · exact hstays.not_anyPending hdefined hpassed
                ⟨k, _, Function.update_self _ _ _, hfrom⟩
            · exact hstays.not_pending hdefined hdown (Function.update_self _ _ _) hfrom
        · contradiction
    | _ => exact not_false

/-- Between {lit}`disconnect` and {lit}`connect` the connection is null and stays so, in every state
of a run, exactly when no offer comes late. -/
theorem null_iff {labels : List ClientLifeLabel} {h : List NetworkClientEvent}
    (hrun : system.run init labels = some (t, h)) : NullWhenDown labels ↔ NoneLate labels := by
  refine system.forall_states_iff (fun t _ => Quiet t) (fun t label => ¬ t.Late label) StaysNull
    quiet_init ?_ (fun _ _ hquiet => hquiet.staysNull) ?_ hrun
  · intro t h label v out hquiet hlate hstep
    exact quiet_step hquiet hlate hstep
  · intro pre t h label v out _ hstep hstays
    exact not_late_of_staysNull hstep hstays

end ClientLife

end GameFramework
