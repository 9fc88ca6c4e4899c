import GameFramework.Network.NetworkClient
import GameFramework.Network.NetworkServer
import GameFramework.Network.RoundTrip

/-!
# What makes the network classes act

For every event of a network server or a network client the call that it is recorded in, with
what that call has read; and how the relay reads the messages that the two announce
themselves with.

Main results:

- Theorems {lit}`NetworkServer.cause_of_mem` and {lit}`NetworkClient.cause_of_mem`: the call behind
  an event.
- Theorem {lit}`NetworkServer.entry_of_step`: an entry that is new was created.
- Theorem {lit}`NetworkClient.step_spec`: what a call leaves alone.
- Theorems {lit}`NetworkClient.applied_of_step` and {lit}`NetworkServer.applied_of_step`: a message
  is applied at most once.
- Theorems {lit}`NetworkClient.unmarshal_registerMsg` and {lit}`NetworkClient.unmarshal_joinMsg`: a
  client asks for the role of a client, and for the server that it wants to join.
-/

namespace GameFramework

/-! ## The calls behind the events -/

namespace NetworkServer

variable {t u : NetworkServer} {label : NetworkServerLabel} {out : List NetworkServerEvent}
  {e : NetworkServerEvent}

/-- The call behind an event. -/
def Cause (t : NetworkServer) (label : NetworkServerLabel) : NetworkServerEvent → Prop
  | .registered _ => ∃ opened, label = .startSignallingWebsocket opened
  | .created sender key => ∃ message taken type, label = .message sender message taken ∧
      readHeader message = .ok (key, type) ∧ (type = goString "offer" ∨ type = goString "join")
  | .handled sender key => ∃ message taken type, label = .message sender message taken ∧
      readHeader message = .ok (key, type)
  | .applied sender key remote => ∃ message taken type, label = .message sender message taken ∧
      readHeader message = .ok (key, type) ∧ readRemote message type = .ok (some remote)
  | .sent key data => ∃ pc negotiation, label = .negotiate key negotiation ∧
      t.clients key = some pc ∧ data = Negotiation.message pc.id negotiation
  | .failed _ => True

/-- The end of the handler applies what the message brings. -/
theorem cause_finish {v : NetworkServer} {sender : Conn} {message : Json} {taken : Bool}
    {id : PeerID} {type : StdString} (hheader : readHeader message = .ok (id, type))
    (he : e ∈ (v.finish sender id (handOver message type taken)).2) :
    Cause t (.message sender message taken) e := by
  unfold finish fail at he
  split at he
  · simp only [List.mem_cons, List.not_mem_nil, or_false] at he
    rcases he with rfl | rfl
    · exact ⟨message, taken, type, rfl, hheader⟩
    · trivial
  · rw [List.mem_singleton.mp he]
    exact ⟨message, taken, type, rfl, hheader⟩
  · rename_i remote hremote
    simp only [List.mem_cons, List.not_mem_nil, or_false] at he
    rcases he with rfl | rfl
    · exact ⟨message, taken, type, rfl, hheader⟩
    · exact ⟨message, taken, type, rfl, hheader, (handOver_eq_ok_some_iff.mp hremote).1⟩

/-- The handler does nothing but for its message. -/
theorem cause_handleSignallingMessage {sender : Conn} {message : Json} {taken : Bool}
    (he : e ∈ (t.handleSignallingMessage sender message taken).2) :
    Cause t (.message sender message taken) e := by
  unfold handleSignallingMessage at he
  split at he
  · rw [fail, List.mem_singleton] at he
    subst he
    trivial
  · rename_i id type hheader
    split at he
    · exact cause_finish hheader he
    · split at he
      · rename_i htype
        simp only at he
        split at he
        · rcases List.mem_cons.mp he with rfl | he
          · exact ⟨message, taken, type, rfl, hheader, htype⟩
          · exact cause_finish hheader he
        · simp only [List.mem_cons, List.not_mem_nil, or_false] at he
          rcases he with rfl | rfl
          · exact ⟨message, taken, type, rfl, hheader, htype⟩
          · trivial
      · rw [fail, List.mem_singleton] at he
        subst he
        trivial

/-- Every event of a game server has its call. -/
theorem cause_of_mem (hstep : t.step label = some (u, out)) (he : e ∈ out) : Cause t label e := by
  have hcase : StepCase t u label out := step_cases hstep
  cases hcase with
  | quiet label _ => cases he
  | registered opened _ =>
      rw [List.mem_singleton.mp he]
      exact ⟨opened, rfl⟩
  | message sender message taken _ => exact cause_handleSignallingMessage he
  | negotiated key pc negotiation hentry _ =>
      unfold negotiate at he
      split at he
      · rw [List.mem_singleton.mp he]
        exact ⟨pc, negotiation, rfl, hentry, rfl⟩
      · rw [List.mem_singleton.mp he]
        trivial
  | stopped _ => cases he

/-- An entry was there before the step, or is created in it. -/
theorem entry_of_step (hstep : t.step label = some (u, out)) {key : PeerID}
    (hentry : u.clients key ≠ none) :
    t.clients key ≠ none ∨ ∃ sender, .created sender key ∈ out := by
  have hcase : StepCase t u label out := step_cases hstep
  cases hcase with
  | quiet label hclients => exact Or.inl (hclients ▸ hentry)
  | registered opened hclients => exact Or.inl (hclients ▸ hentry)
  | message sender message taken hclients =>
      rcases handle_creates t sender message taken with ⟨hsame, _, _⟩ | ⟨id, _, _, hnew, hfind⟩
      · rw [hclients, hsame] at hentry
        exact Or.inl hentry
      · rcases List.exists_of_findSome?_eq_some hfind with ⟨e, he, hkey⟩
        cases e with
        | created sender' key' =>
            cases hkey
            by_cases hid : key = id
            · exact Or.inr ⟨sender', hid ▸ he⟩
            · rw [hclients, hnew, createClientConnection] at hentry
              dsimp only at hentry
              rw [Function.update_of_ne hid] at hentry
              exact Or.inl hentry
        | _ => cases hkey
  | negotiated key' pc negotiation _ hclients => exact Or.inl (hclients ▸ hentry)
  | stopped hclients =>
      rw [hclients] at hentry
      exact absurd rfl hentry

end NetworkServer

namespace NetworkClient

variable {t u : NetworkClient} {label : NetworkClientLabel} {out : List NetworkClientEvent}
  {e : NetworkClientEvent}

/-- The call behind an event. -/
def Cause (t : NetworkClient) (label : NetworkClientLabel) : NetworkClientEvent → Prop
  | .announced _ => False
  | .created id => ∃ message taken, label = .message message taken ∧
      readHeader message = .ok (id, goString "offer")
  | .applied id remote => ∃ message taken type, label = .message message taken ∧
      readHeader message = .ok (id, type) ∧ readRemote message type = .ok (some remote)
  | .sent data => ∃ pc negotiation, label = .negotiate negotiation ∧
      t.peerConnection = some pc ∧ data = Negotiation.message pc.id negotiation
  | .failed _ | .closed => True

/-- The end of the handler applies what the message brings. -/
theorem cause_finish {v : NetworkClient} {message : Json} {taken : Bool} {id : PeerID}
    {type : StdString} (hheader : readHeader message = .ok (id, type))
    (he : e ∈ (v.finish id (handOver message type taken)).2) :
    Cause t (.message message taken) e := by
  unfold finish fail at he
  split at he
  · rw [List.mem_singleton.mp he]
    trivial
  · cases he
  · rename_i remote hremote
    rw [List.mem_singleton.mp he]
    exact ⟨message, taken, type, rfl, hheader, (handOver_eq_ok_some_iff.mp hremote).1⟩

/-- Every event of a client has its call. -/
theorem cause_of_mem (hstep : t.step label = some (u, out)) (he : e ∈ out) : Cause t label e := by
  unfold step at hstep
  split at hstep
  · contradiction
  · cases label with
    | message message taken =>
        have hout : out = (t.handleSignallingMessage message taken).2 := by
          rw [Option.some.inj hstep]
        rw [hout] at he
        unfold handleSignallingMessage at he
        split at he
        · rw [fail, List.mem_singleton] at he
          subst he
          trivial
        · rename_i id type hheader
          split at he
          · rw [fail, List.mem_singleton] at he
            subst he
            trivial
          · split at he
            · exact cause_finish hheader he
            · split at he
              · rename_i htype
                rcases List.mem_cons.mp he with rfl | he
                · exact ⟨message, taken, rfl, htype ▸ hheader⟩
                · exact cause_finish hheader he
              · rw [fail, List.mem_singleton] at he
                subst he
                trivial
    | negotiate negotiation =>
        dsimp only at hstep
        split at hstep
        · rename_i pc hpc
          cases hstep
          unfold negotiate at he
          split at he
          · rw [List.mem_singleton.mp he]
            exact ⟨pc, negotiation, rfl, hpc, rfl⟩
          · rw [List.mem_singleton.mp he]
            trivial
        · contradiction
    | disconnect =>
        have hout : out = t.disconnect.2 := by
          rw [Option.some.inj hstep]
        rw [hout] at he
        unfold disconnect at he
        split at he
        · rw [List.mem_singleton.mp he]
          trivial
        · cases he

/-- A call changes neither the id nor the websocket; the peer connection stays, goes, or is
created. -/
theorem step_spec (hstep : t.step label = some (u, out)) :
    u.localID = t.localID ∧ u.signallingWebsocket = t.signallingWebsocket ∧
      ∀ pc, u.peerConnection = some pc → t.peerConnection = some pc ∨ .created pc.id ∈ out := by
  have hfinish : ∀ (v : NetworkClient) (id : PeerID) (outcome : Except Failure (Option Remote)),
      (v.finish id outcome).1.localID = v.localID ∧
        (v.finish id outcome).1.signallingWebsocket = v.signallingWebsocket ∧
        (v.finish id outcome).1.peerConnection = v.peerConnection := by
    intro v id outcome
    unfold finish fail
    split <;> exact ⟨rfl, rfl, rfl⟩
  unfold step at hstep
  split at hstep
  · contradiction
  · cases label with
    | message message taken =>
        have heq : t.handleSignallingMessage message taken = (u, out) := Option.some.inj hstep
        unfold handleSignallingMessage at heq
        split at heq
        · cases heq
          exact ⟨rfl, rfl, fun pc hpc => Or.inl hpc⟩
        · rename_i id type hheader
          split at heq
          · cases heq
            exact ⟨rfl, rfl, fun pc hpc => Or.inl hpc⟩
          · split at heq
            · rename_i pc₀ hpc₀
              rcases hfinish t id (handOver message type taken) with ⟨hlocal, hsocket, hpc⟩
              rw [heq] at hlocal hsocket hpc
              exact ⟨hlocal, hsocket, fun pc hsome => Or.inl (hpc ▸ hsome)⟩
            · split at heq
              · rcases hfinish (t.createServerConnection id) id (handOver message type taken) with
                  ⟨hlocal, hsocket, hpc⟩
                cases heq
                refine ⟨hlocal, hsocket, fun pc hsome => Or.inr ?_⟩
                have hmade : some (⟨id, t.signallingWebsocket⟩ : PeerConnection) = some pc :=
                  hpc.symm.trans hsome
                cases hmade
                exact List.mem_cons_self
              · cases heq
                exact ⟨rfl, rfl, fun pc hpc => Or.inl hpc⟩
    | negotiate negotiation =>
        dsimp only at hstep
        split at hstep
        · cases hstep
          exact ⟨rfl, rfl, fun pc hpc => Or.inl hpc⟩
        · contradiction
    | disconnect =>
        have heq : t.disconnect = (u, out) := Option.some.inj hstep
        unfold disconnect at heq
        split at heq
        · cases heq
          exact ⟨rfl, rfl, fun pc hpc => by cases hpc⟩
        · cases heq
          exact ⟨rfl, rfl, fun pc hpc => Or.inl hpc⟩

end NetworkClient

/-! ## What is applied -/

/-- What the data of a message brings to a peer connection. -/
def remoteOf (data : Json) : Option Remote :=
  match readHeader data with
  | .error _ => none
  | .ok (_, type) =>
      match readRemote data type with
      | .error _ => none
      | .ok remote => remote

/-- What is handed over is what the message brings. -/
theorem remoteOf_of_handOver {message : Json} {type : StdString} {taken : Bool} {id : PeerID}
    {remote : Remote} (hheader : readHeader message = .ok (id, type))
    (hremote : handOver message type taken = .ok (some remote)) :
    remoteOf message = some remote := by
  rw [remoteOf, hheader]
  dsimp only
  rw [(handOver_eq_ok_some_iff.mp hremote).1]

namespace NetworkClient

/-- What is applied to the peer connection. -/
def appliedOf : NetworkClientEvent → Option Remote
  | .applied _ remote => some remote
  | .announced _ | .failed _ | .created _ | .sent _ | .closed => none

/-- What a call brings to the peer connection. -/
def brought : NetworkClientLabel → Option Remote
  | .message message _ => remoteOf message
  | .negotiate _ | .disconnect => none

theorem applied_finish {v : NetworkClient} {message : Json} {taken : Bool} {id : PeerID}
    {type : StdString} (hheader : readHeader message = .ok (id, type)) :
    ((v.finish id (handOver message type taken)).2.filterMap appliedOf).Sublist
      (remoteOf message).toList := by
  unfold finish fail
  split
  · exact List.nil_sublist _
  · exact List.nil_sublist _
  · rename_i remote hremote
    rw [remoteOf_of_handOver hheader hremote]
    exact List.Sublist.refl _

/-- A client applies at most what a message brings. -/
theorem applied_handle (t : NetworkClient) (message : Json) (taken : Bool) :
    ((t.handleSignallingMessage message taken).2.filterMap appliedOf).Sublist
      (remoteOf message).toList := by
  unfold handleSignallingMessage
  split
  · exact List.nil_sublist _
  · rename_i id type hheader
    split
    · exact List.nil_sublist _
    · split
      · exact applied_finish hheader
      · split
        · exact applied_finish hheader
        · exact List.nil_sublist _

/-- A call applies at most what its message brings. -/
theorem applied_of_step {t v : NetworkClient} {label : NetworkClientLabel}
    {out : List NetworkClientEvent} (hstep : t.step label = some (v, out)) :
    (out.filterMap appliedOf).Sublist (brought label).toList := by
  have hquiet : (∀ message taken, label ≠ .message message taken) →
      out.filterMap appliedOf = [] := by
    intro hlabel
    refine List.filterMap_eq_nil_iff.mpr fun e he => ?_
    have hcause := cause_of_mem hstep he
    cases e with
    | applied id remote =>
        rcases hcause with ⟨message, taken, type, heq, _⟩
        exact absurd heq (hlabel message taken)
    | _ => rfl
  cases label with
  | message message taken =>
      have hout : out = (t.handleSignallingMessage message taken).2 := by
        unfold step at hstep
        split at hstep
        · contradiction
        · rw [Option.some.inj hstep]
      rw [hout]
      exact applied_handle t message taken
  | _ =>
      rw [hquiet (by simp)]
      exact List.nil_sublist _

end NetworkClient

namespace NetworkServer

/-- What is applied to a peer connection by a message of some sender. -/
def appliedOf (s : Conn) : NetworkServerEvent → Option Remote
  | .applied sender _ remote => if sender = s then some remote else none
  | .registered _ | .failed _ | .created _ _ | .handled _ _ | .sent _ _ => none

/-- What a call brings to a peer connection if its message is of some sender. -/
def brought (s : Conn) : NetworkServerLabel → Option Remote
  | .message sender message _ => if sender = s then remoteOf message else none
  | .start | .startSignallingWebsocket _ | .negotiate _ _ | .stop => none

theorem applied_finish {v : NetworkServer} {s sender : Conn} {message : Json} {taken : Bool}
    {id : PeerID} {type : StdString} (hheader : readHeader message = .ok (id, type)) :
    ((v.finish sender id (handOver message type taken)).2.filterMap (appliedOf s)).Sublist
      (if sender = s then remoteOf message else none).toList := by
  unfold finish fail
  split
  · exact List.nil_sublist _
  · exact List.nil_sublist _
  · rename_i remote hremote
    rw [remoteOf_of_handOver hheader hremote]
    by_cases hs : sender = s <;> simp [List.filterMap_cons, appliedOf, hs]

/-- A game server applies at most what a message brings. -/
theorem applied_handle (t : NetworkServer) (s sender : Conn) (message : Json) (taken : Bool) :
    ((t.handleSignallingMessage sender message taken).2.filterMap (appliedOf s)).Sublist
      (if sender = s then remoteOf message else none).toList := by
  unfold handleSignallingMessage
  split
  · exact List.nil_sublist _
  · rename_i id type hheader
    split
    · exact applied_finish hheader
    · split
      · dsimp only
        split
        · exact applied_finish hheader
        · exact List.nil_sublist _
      · exact List.nil_sublist _

/-- A call applies at most what its message brings. -/
theorem applied_of_step {t v : NetworkServer} {label : NetworkServerLabel} {s : Conn}
    {out : List NetworkServerEvent} (hstep : t.step label = some (v, out)) :
    (out.filterMap (appliedOf s)).Sublist (brought s label).toList := by
  have hcase : StepCase t v label out := step_cases hstep
  cases hcase with
  | message sender message taken hclients => exact applied_handle t s sender message taken
  | negotiated key pc negotiation hentry hclients =>
      unfold negotiate
      split <;> exact List.nil_sublist _
  | _ => exact List.nil_sublist _

end NetworkServer

/-! ## What the relay reads -/

/-- A string is stored in a string field. -/
theorem Message.store_str (msg : Message) {field s : GoString}
    (hne : field ≠ goString "max_players") :
    msg.store field (.str s) = some (msg.setString field (Utf8.coerce s)) := by
  rw [store, if_neg hne]
  rfl

/-- The names that register and join messages begin with. -/
theorem Message.fieldOf_names :
    fieldOf (Utf8.coerce (goString "id")) = some (goString "id") ∧
      fieldOf (Utf8.coerce (goString "type")) = some (goString "type") ∧
      fieldOf (Utf8.coerce (goString "role")) = some (goString "role") := by
  decide

/-- A game server registers as a server. -/
theorem NetworkServer.unmarshal_registerMsg (localID : PeerID) :
    ∃ msg, Message.unmarshal (registerMsg localID) = some msg ∧ msg.type = msgTypeRegister := by
  rcases Message.fieldOf_names with ⟨hid, htype, hrole⟩
  have hname : Message.fieldOf (Utf8.coerce (goString "name")) = some (goString "name") := by decide
  have hplayers : Message.fieldOf (Utf8.coerce (goString "max_players")) =
      some (goString "max_players") := by decide
  have hmode : Message.fieldOf (Utf8.coerce (goString "game_mode")) =
      some (goString "game_mode") := by decide
  have hnumber : ∀ msg : Message, msg.store (goString "max_players") (.number 32) =
      some { msg with maxPlayers := 32 } := fun _ => rfl
  have hregister : Utf8.coerce (goString "register") = goString "register" := by decide
  simp (disch := decide) only [registerMsg, Message.unmarshal, Message.storeAll, hid, htype, hrole,
    hname, hplayers, hmode, hnumber, Message.store_str, hregister]
  exact ⟨_, rfl, rfl⟩

/-- A client registers as a client. -/
theorem NetworkClient.unmarshal_registerMsg (localID : PeerID) :
    Message.unmarshal (registerMsg localID) = some
      { id := Decimal.toString localID, type := msgTypeRegister, role := roleClient } := by
  rcases Message.fieldOf_names with ⟨hid, htype, hrole⟩
  have hregister : Utf8.coerce (goString "register") = goString "register" := by decide
  have hclient : Utf8.coerce (goString "client") = goString "client" := by decide
  simp (disch := decide) only [registerMsg, Message.unmarshal, Message.storeAll, hid, htype, hrole,
    Message.store_str, coerce_toString, hregister, hclient]
  rfl

/-- A join is for the id that it names. -/
theorem NetworkClient.unmarshal_joinMsg (serverID : PeerID) :
    Message.unmarshal (joinMsg serverID) = some
      { id := Decimal.toString serverID, type := msgTypeJoin, role := roleClient } := by
  rcases Message.fieldOf_names with ⟨hid, htype, hrole⟩
  have hjoin : Utf8.coerce (goString "join") = goString "join" := by decide
  have hclient : Utf8.coerce (goString "client") = goString "client" := by decide
  simp (disch := decide) only [joinMsg, Message.unmarshal, Message.storeAll, hid, htype, hrole,
    Message.store_str, coerce_toString, hjoin, hclient]
  rfl

end GameFramework
