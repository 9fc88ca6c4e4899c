import GameFramework.Network.ClientLife
import GameFramework.Network.ServerLife

/-!
# Shutting down

What is established after {lit}`NetworkServer::stop` and {lit}`NetworkClient::disconnect`, for both
programs together.

Main results:

- Theorem {lit}`nothing_established_iff`: nothing is established after the shutdown exactly when no
  message that asks for it comes late, delivered then or overtaken by the shutdown.
-/

namespace GameFramework

/-- Nothing is established between {lit}`stop` and {lit}`start` of a server, and between
{lit}`disconnect` and {lit}`connect` of a client, exactly when no message that asks for it comes
late. -/
theorem nothing_established_iff {serverLabels : List ServerLifeLabel} {t : ServerLife}
    {h : List NetworkServerEvent} {clientLabels : List ClientLifeLabel} {u : ClientLife}
    {k : List NetworkClientEvent}
    (hserver : ServerLife.system.run ServerLife.init serverLabels = some (t, h))
    (hclient : ClientLife.system.run ClientLife.init clientLabels = some (u, k)) :
    (ServerLife.EmptyWhenDown serverLabels ↔ ServerLife.NoneLate serverLabels) ∧
      (ClientLife.NullWhenDown clientLabels ↔ ClientLife.NoneLate clientLabels) :=
  ⟨ServerLife.empty_iff hserver, ClientLife.null_iff hclient⟩

/-- A server that is started. -/
def startLabels : List ServerLifeLabel :=
  [.start, .startSignallingWebsocket true]

/-- {lit}`stop` without anything in between. -/
def stopLabels : List ServerLifeLabel :=
  [.stopFlag, .stopClear, .stopReturn]

/-- A call that handles the join of client {lit}`7`. -/
def joinCall : ServerLifeLabel :=
  .message 0 1 (Relay.joinData (goString "7")) true

/-- {lit}`disconnect` without anything in between, with a connection. -/
def disconnectLabels : List ClientLifeLabel :=
  [.disconnectTest, .disconnectClose, .disconnectReset, .disconnectReturn]

/-- A call that handles an offer of the game server. -/
def offerCall : ClientLifeLabel :=
  .message 0 (NetworkClient.offerData (goString "12345")) true

/-- A join and an offer that are handled before the shutdown. -/
theorem nothing_established_iff_stop :
    ServerLife.EmptyWhenDown
        (startLabels ++ joinCall :: List.replicate 5 (.advance 0) ++ stopLabels) ∧
      ClientLife.NullWhenDown
        (.connect 7 12345 true :: offerCall :: List.replicate 4 (.advance 0) ++
          disconnectLabels) := by
  have hserver : ∃ t h, ServerLife.system.run ServerLife.init
      (startLabels ++ joinCall :: List.replicate 5 (.advance 0) ++ stopLabels) = some (t, h) :=
    ⟨_, _, rfl⟩
  have hclient : ∃ u k, ClientLife.system.run ClientLife.init
      (.connect 7 12345 true :: offerCall :: List.replicate 4 (.advance 0) ++
        disconnectLabels) = some (u, k) :=
    ⟨_, _, rfl⟩
  rcases hserver with ⟨t, h, hserver⟩
  rcases hclient with ⟨u, k, hclient⟩
  rcases nothing_established_iff hserver hclient with ⟨hempty, hnull⟩
  refine ⟨hempty.mpr ?_, hnull.mpr ?_⟩
  · refine ServerLife.system.forall_steps_cons _ rfl not_false ?_
    refine ServerLife.system.forall_steps_cons _ rfl not_false ?_
    refine ServerLife.system.forall_steps_cons _ rfl ?_ ?_
    · rintro ⟨hcleared | hdown, _⟩
      · cases hcleared
      · cases hdown
    iterate 6 refine ServerLife.system.forall_steps_cons _ rfl not_false ?_
    refine ServerLife.system.forall_steps_cons _ rfl ?_ ?_
    · -- the call is past its end
      rintro ⟨k, call, hcall, _⟩
      cases k <;> cases hcall
    refine ServerLife.system.forall_steps_cons _ rfl not_false ?_
    simp
  · refine ClientLife.system.forall_steps_cons _ rfl not_false ?_
    refine ClientLife.system.forall_steps_cons _ rfl ?_ ?_
    · rintro ⟨hpassed | hdown, _⟩
      · cases hpassed
      · cases hdown
    iterate 4 refine ClientLife.system.forall_steps_cons _ rfl not_false ?_
    refine ClientLife.system.forall_steps_cons _ rfl ?_ ?_
    · rintro ⟨hnull, _⟩
      cases hnull
    refine ClientLife.system.forall_steps_cons _ rfl not_false ?_
    refine ClientLife.system.forall_steps_cons _ rfl ?_ ?_
    · rintro ⟨k, call, hcall, _⟩
      cases k <;> cases hcall
    refine ClientLife.system.forall_steps_cons _ rfl not_false ?_
    simp

/-- A join that is delivered after {lit}`stop` gets an entry, and so does one that is delivered
before and has not found one by then.  An offer that is delivered after {lit}`disconnect` gets a
connection, and so does one that is delivered before and has found none. -/
theorem exists_established :
    (∃ t h, ServerLife.system.run ServerLife.init
        (startLabels ++ stopLabels ++ joinCall :: List.replicate 5 (.advance 0)) = some (t, h) ∧
      t.down = true ∧ t.server.clients 7 ≠ none) ∧
    (∃ t h, ServerLife.system.run ServerLife.init
        (startLabels ++ joinCall :: .advance 0 :: stopLabels ++ List.replicate 4 (.advance 0)) =
          some (t, h) ∧
      t.down = true ∧ t.server.clients 7 ≠ none) ∧
    (∃ u k, ClientLife.system.run ClientLife.init
        (.connect 7 12345 true :: .disconnectTest :: .disconnectReturn :: offerCall ::
          List.replicate 4 (.advance 0)) = some (u, k) ∧
      u.down = true ∧ u.client.peerConnection ≠ none) ∧
    ∃ u k, ClientLife.system.run ClientLife.init
        (.connect 7 12345 true :: offerCall :: .advance 0 :: .disconnectTest ::
          .disconnectReturn :: List.replicate 3 (.advance 0)) = some (u, k) ∧
      u.down = true ∧ u.client.peerConnection ≠ none := by
  refine ⟨⟨_, _, rfl, rfl, ?_⟩, ⟨_, _, rfl, rfl, ?_⟩, ⟨_, _, rfl, rfl, ?_⟩, ⟨_, _, rfl, rfl, ?_⟩⟩
  all_goals
    intro hnone
    cases hnone

end GameFramework
