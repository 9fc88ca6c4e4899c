import GameFramework.Network.Deployment

/-!
# The handshake

What holds between clients and game servers when all parties run at once: whom a client
negotiates with, whose messages reach an entry of a game server, and in which order a
connection comes about.

Main results:

- Theorem {lit}`Deployment.registered_of_negotiated`: a client negotiates only with peers that have
  registered as servers.
- Theorem {lit}`Deployment.offered_of_negotiated`: if only game servers register as servers, a
  client negotiates only with game servers, about what they have produced for this client.
- Theorem {lit}`Deployment.asked_of_used`: a client is on a game server only under its own id, and
  only by joining or by what its peer connection has produced.
- Theorem {lit}`Deployment.joined_of_negotiated`: join, entry, offer and peer connection come in
  this order.
-/

namespace GameFramework

namespace Deployment

open Labelled

variable {maxConns : Int} {programs : Conn → Program} {labels : List Label} {u : State}
  {a b : List Event} {c s g : Conn}

/-! ## Assumptions on the other programs -/

/-- Only game servers have registered as servers. -/
def Genuine (programs : Conn → Program) (h : List Event) : Prop :=
  ∀ s i, ofRelay (.registered s i roleServer) ∈ h → programs s = .server

/-- No other connection was opened under an id that reads as the id of this program. -/
def Sole (h : List Event) (c : Conn) : Prop :=
  ∀ localID, ofPeer c (.dialled (connectPath localID)) ∈ h →
    ∀ s i, ofRelay (.opened s i) ∈ h → Decimal.stoull (Utf8.coerce i) = .ok localID → s = c

/-- What the relay makes of the join of a client with this id. -/
def relayedJoin (localID : PeerID) : Json :=
  ({ id := Decimal.toString localID, type := msgTypeJoin, role := roleClient } : Message).marshal

/-! ## A handshake -/

/-- Connection 0 is a game server's and connection 1 a client's. -/
def meeting : Conn → Program := fun c =>
  if c = 0 then .server else if c = 1 then .client else .stranger

/-- The relay's handler of a connection goes on. -/
def advance (c : Conn) : Label := .own (.inl (.handler c .advance))

/-- The relay reads from a connection. -/
def read (c : Conn) : Label := .take (.toRelay c) 0 none

/-- The game server and the client with id 7 connect, and the join arrives. -/
def joinLabels : List Label :=
  [.own (.inr (0, .serve true)), read 0, read 0, advance 0, advance 0,
    .own (.inr (1, .connect 7 12345 true)), read 1, read 1, advance 1, advance 1, read 1,
    advance 1, advance 1, advance 1, .take (.toPeer 0) 0 (some true)]

/-- The message that registers the game server, as the relay reads it. -/
def serverRegisters : Message where
  id := goString "12345"
  type := msgTypeRegister
  role := roleServer
  name := goString "Server 12345"
  maxPlayers := 32
  gameMode := goString "default"

/-- The message that registers the client. -/
def clientRegisters : Message where
  id := goString "7"
  type := msgTypeRegister
  role := roleClient

/-- The join of the client. -/
def clientJoins : Message where
  id := goString "12345"
  type := msgTypeJoin
  role := roleClient

/-- What happens until the join arrives. -/
def joinHistory : List Event :=
  [ofPeer 0 (.dialled (connectPath 12345)),
    ofPeer 0 (.server (.registered (NetworkServer.registerMsg 12345))),
    .taken (.toRelay 0) (.dial (connectPath 12345)), ofRelay (.opened 0 (goString "12345")),
    .taken (.toRelay 0) (.frame (some serverRegisters)), ofRelay (.received 0 serverRegisters),
    ofRelay (.registered 0 (goString "12345") roleServer),
    ofPeer 1 (.dialled (connectPath 7)),
    ofPeer 1 (.client (.announced (NetworkClient.registerMsg 7))),
    ofPeer 1 (.client (.announced (NetworkClient.joinMsg 12345))),
    .taken (.toRelay 1) (.dial (connectPath 7)), ofRelay (.opened 1 (goString "7")),
    .taken (.toRelay 1) (.frame (some clientRegisters)), ofRelay (.received 1 clientRegisters),
    ofRelay (.registered 1 (goString "7") roleClient),
    .taken (.toRelay 1) (.frame (some clientJoins)), ofRelay (.received 1 clientJoins),
    ofRelay (.lookedUp 1 (goString "12345")), ofRelay (.delivered 1 0 (relayedJoin 7)),
    .taken (.toPeer 0) (.text 1 (relayedJoin 7))]

/-- The offer of the game server. -/
def serverOffers : Negotiation := .offer (goString "v=0")

/-- The game server offers, and the offer arrives. -/
def offerLabels : List Label :=
  joinLabels ++ [.own (.inr (0, .negotiate 7 serverOffers)), read 0, advance 0, advance 0,
    advance 0, .take (.toPeer 1) 0 (some true)]

/-- What happens until the offer arrives. -/
def offerHistory : List Event :=
  joinHistory ++
    [ofPeer 0 (.server (.created 1 7)), ofPeer 0 (.server (.handled 1 7)),
      ofPeer 0 (.server (.sent 7 (serverOffers.message 7))),
      .taken (.toRelay 0) (.frame (some (serverOffers.decoded 7))),
      ofRelay (.received 0 (serverOffers.decoded 7)), ofRelay (.lookedUp 0 (goString "7")),
      ofRelay (.delivered 0 1 (NetworkClient.offerData (goString "12345"))),
      .taken (.toPeer 1) (.text 0 (NetworkClient.offerData (goString "12345")))]

/-- The game server makes an entry for the client. -/
theorem run_joinLabels : ∃ u, system.run (start 0 meeting) joinLabels =
    some (u, joinHistory ++ ofPeer 0 (.server (.created 1 7)) ::
      [ofPeer 0 (.server (.handled 1 7))]) :=
  ⟨_, rfl⟩

/-- The client makes its peer connection. -/
theorem run_offerLabels : ∃ u, system.run (start 0 meeting) offerLabels =
    some (u, offerHistory ++ ofPeer 1 (.client (.created 12345)) ::
      [ofPeer 1 (.client (.applied 12345 serverOffers.remote.2))]) :=
  ⟨_, rfl⟩

/-- Only the game server has registered as one. -/
theorem genuine_offerHistory : Genuine meeting offerHistory := by
  intro s i hregistered
  have hroles : roleServer ≠ roleClient := by decide
  have hserver : s = 0 ∧ i = goString "12345" := by
    simpa [offerHistory, joinHistory, hroles] using hregistered
  rw [hserver.1]
  rfl

/-- Nobody else has the id of the client. -/
theorem sole_offerHistory : Sole offerHistory 1 := by
  intro localID hdialled s i hopened hread
  have hseven : localID = 7 := by
    have hpath : connectPath localID = connectPath 7 := by
      simpa [offerHistory, joinHistory] using hdialled
    rw [connectPath, connectPath, List.append_cancel_left_eq] at hpath
    exact Decimal.toString_inj.mp hpath
  have hid : s = 0 ∧ i = goString "12345" ∨ s = 1 ∧ i = goString "7" := by
    simpa [offerHistory, joinHistory] using hopened
  rcases hid with ⟨_, rfl⟩ | ⟨rfl, _⟩
  · rw [hseven] at hread
    exact absurd hread (by decide)
  · rfl

/-! ## Servers of a client -/

/-- What was routed stays routed. -/
theorem Routed.of_subset {h h' : List RelayEvent} {d : Conn} {data : Json} {i : GoString}
    {msg : Message} (hrouted : Relay.Routed h s d data i msg) (hsubset : ∀ e ∈ h, e ∈ h') :
    Relay.Routed h' s d data i msg where
  opened := hsubset _ hrouted.opened
  received := hsubset _ hrouted.received
  valid := hrouted.valid
  relayed := hrouted.relayed
  data_eq := hrouted.data_eq
  roles := by
    rcases hrouted.roles with ⟨role, role', hsender, htarget, hserver⟩
    exact ⟨role, role', hsubset _ hsender, hsubset _ htarget, hserver⟩

/-- What was delivered was routed. -/
theorem exists_routed {d : Conn} {data : Json}
    (hrun : system.run (start maxConns programs) labels = some (u, a ++ b))
    (hdelivered : ofRelay (.delivered s d data) ∈ a) :
    ∃ i msg, Relay.Routed (relayHistory a) s d data i msg := by
  rcases List.append_of_mem hdelivered with ⟨x, y, rfl⟩
  rcases exists_relay_run hrun with ⟨ls, hrelay⟩
  rw [List.append_assoc, List.cons_append, relayHistory_split] at hrelay
  rcases Relay.routed_of_delivered hrelay with ⟨i, msg, hrouted⟩
  refine ⟨i, msg, Routed.of_subset hrouted fun e he => ?_⟩
  rw [relayHistory_split]
  exact List.mem_append_left _ he

/-- The sender id that a receiver reads is the id of the sender's connection. -/
theorem stoull_of_routed {h : List RelayEvent} {d : Conn} {data : Json} {i : GoString}
    {msg : Message} {id : PeerID} (hrouted : Relay.Routed h s d data i msg)
    (hread : readId data = .ok id) : Decimal.stoull (Utf8.coerce i) = .ok id := by
  rcases readId_eq_ok_iff.mp hread with ⟨text, htext, hstoull⟩
  rw [hrouted.data_eq, Message.findString_id, Option.some.injEq] at htext
  rw [htext]
  exact hstoull

/-- A client creates its peer connection for an offer and uses it for what messages bring, and
these are messages that the relay has delivered. -/
theorem exists_delivered_of_client {e : NetworkClientEvent} {id : PeerID}
    (hrun : system.run (start maxConns programs) labels = some (u, a ++ ofPeer c (.client e) :: b))
    (hclient : programs c = .client) (hpeer : NetworkClient.peer e = some id) :
    ∃ s data type, ofRelay (.delivered s c data) ∈ a ∧ readHeader data = .ok (id, type) ∧
      (e = .created id → type = goString "offer") ∧
      ∀ remote, e = .applied id remote → readRemote data type = .ok (some remote) := by
  rcases exists_peer_step hrun with ⟨ls, t, v, label, h, out, hbefore, hstep, he, hdelivered⟩
  rw [hclient] at hbefore
  rcases Peer.client_of_reachable hbefore with ⟨t, rfl, _⟩
  have hcase : Peer.ClientCase t label v out := Peer.client_cases hstep
  cases hcase with
  | lost => cases he
  | dialled localID serverID opened hnew =>
      rcases List.mem_cons.mp he with heq | he
      · cases heq
      · rcases List.mem_append.mp he with he | he
        · split at he
          · cases List.mem_singleton.mp he
            cases hpeer
          · cases he
        · cases List.mem_singleton.mp he
          cases hpeer
  | called label call v out hcall hv =>
      rcases List.mem_map.mp he with ⟨e', he', heq⟩
      cases heq
      have hcause := NetworkClient.cause_of_mem hv he'
      cases e with
      | created id' =>
          cases hpeer
          rcases hcause with ⟨message, taken, rfl, hheader⟩
          rcases hcall with ⟨sender, rfl⟩
          exact ⟨sender, message, _, hdelivered, hheader, fun _ => rfl,
            fun remote heq => by cases heq⟩
      | applied id' remote =>
          cases hpeer
          rcases hcause with ⟨message, taken, type, rfl, hheader, hremote⟩
          rcases hcall with ⟨sender, rfl⟩
          refine ⟨sender, message, type, hdelivered, hheader, fun heq => ?_, fun remote' heq => ?_⟩
          · cases heq
          · cases heq
            exact hremote
      | _ => cases hpeer

/-- What a client gets comes from a peer that has registered as a server. -/
theorem registered_of_routed {data : Json} {i : GoString} {msg : Message}
    (hrun : system.run (start maxConns programs) labels = some (u, a ++ b))
    (hclient : programs c = .client) (hrouted : Relay.Routed (relayHistory a) s c data i msg) :
    ofRelay (.registered s i roleServer) ∈ a := by
  rcases hrouted.roles with ⟨role, role', hsender, htarget, hserver⟩
  have hclientRole : role' ≠ roleServer :=
    role_of_client hrun hclient (mem_relayHistory.mp htarget)
  rw [hserver.resolve_right hclientRole] at hsender
  exact mem_relayHistory.mp hsender

/-- A client negotiates only with peers that have registered as servers: it creates its peer
connection for an offer that such a peer has got through to it, and applies to it what such a
message brings, each under the id that the peer's id reads as. -/
theorem registered_of_negotiated {e : NetworkClientEvent} {id : PeerID}
    (hrun : system.run (start maxConns programs) labels = some (u, a ++ ofPeer c (.client e) :: b))
    (hclient : programs c = .client) (hpeer : NetworkClient.peer e = some id) :
    ∃ s i data type, ofRelay (.registered s i roleServer) ∈ a ∧
      Decimal.stoull (Utf8.coerce i) = .ok id ∧ ofRelay (.delivered s c data) ∈ a ∧
      readHeader data = .ok (id, type) ∧ (e = .created id → type = goString "offer") ∧
      ∀ remote, e = .applied id remote → readRemote data type = .ok (some remote) := by
  rcases exists_delivered_of_client hrun hclient hpeer with
    ⟨s, data, type, hdelivered, hheader, hoffer, happlied⟩
  rcases exists_routed hrun hdelivered with ⟨i, msg, hrouted⟩
  have hread := stoull_of_routed hrouted (readHeader_eq_ok_iff.mp hheader).1
  exact ⟨s, i, data, type, registered_of_routed hrun hclient hrouted, hread, hdelivered, hheader,
    hoffer, happlied⟩

/-- The client applies the offer of the game server, which has registered. -/
theorem registered_of_negotiated_offer :
    ∃ u, system.run (start 0 meeting) offerLabels =
        some (u, (offerHistory ++ [ofPeer 1 (.client (.created 12345))]) ++
          ofPeer 1 (.client (.applied 12345 serverOffers.remote.2)) :: []) ∧
      ∃ s i data type, ofRelay (.registered s i roleServer) ∈
          offerHistory ++ [ofPeer 1 (.client (.created 12345))] ∧
        Decimal.stoull (Utf8.coerce i) = .ok 12345 ∧ ofRelay (.delivered s 1 data) ∈
          offerHistory ++ [ofPeer 1 (.client (.created 12345))] ∧
        readHeader data = .ok (12345, type) ∧
        readRemote data type = .ok (some serverOffers.remote.2) := by
  rcases run_offerLabels with ⟨u, hrun⟩
  rw [List.append_cons] at hrun
  rcases registered_of_negotiated hrun rfl rfl with
    ⟨s, i, data, type, hregistered, hread, hdelivered, hheader, _, happlied⟩
  exact ⟨u, hrun, s, i, data, type, hregistered, hread, hdelivered, hheader, happlied _ rfl⟩

/-! ## Offers of game servers -/

/-- A game server has made an entry for a client id, and the peer connection of this entry has
then produced a message for this client. -/
structure Offered (h : List Event) (s : Conn) (localID : PeerID) (negotiation : Negotiation) :
    Prop where
  wellFormed : negotiation.WellFormed
  order : ∃ sender, [ofPeer s (.server (.created sender localID)),
    ofPeer s (.server (.sent localID (negotiation.message localID)))].Sublist h

/-- The id under which the target of a message is registered. -/
theorem opened_of_routed {d : Conn} {data : Json} {i : GoString} {key : PeerID} {msg : Message}
    (hrun : system.run (start maxConns programs) labels = some (u, a ++ b))
    (hrouted : Relay.Routed (relayHistory a) s d data i msg)
    (hkey : msg.id = Decimal.toString key) :
    ofRelay (.opened d (Decimal.toString key)) ∈ a := by
  rcases hrouted.roles with ⟨_, role, _, htarget, _⟩
  have hne : Decimal.toString key ≠ [] := Decimal.render_ne_nil key.toNat
  rw [hkey, if_neg hne] at htarget
  exact (opened_of_registered hrun (mem_relayHistory.mp htarget)).1

/-- What a client gets from a game server was produced for it. -/
theorem offered_of_delivered {data : Json}
    (hrun : system.run (start maxConns programs) labels = some (u, a ++ b))
    (hclient : programs c = .client) (hserver : programs s = .server)
    (hdelivered : ofRelay (.delivered s c data) ∈ a) :
    ∃ localID negotiation, ofPeer c (.dialled (connectPath localID)) ∈ a ∧
      Offered a s localID negotiation ∧ data = negotiation.relayed 12345 localID := by
  rcases exists_routed hrun hdelivered with ⟨i, msg, hrouted⟩
  have hid : i = Decimal.toString 12345 :=
    id_of_server hrun hserver (mem_relayHistory.mp hrouted.opened)
  rcases exists_written hrun (mem_relayHistory.mp hrouted.received) with ⟨e, he, hframe⟩
  rcases exists_peer_run_split hrun he with ⟨x, y, ls, v, z, rfl, hpeer⟩
  rw [hserver] at hpeer
  rcases Peer.sent_of_frame hpeer hframe hrouted.relayed with
    ⟨key, negotiation, rfl, hwell, rfl, sender, hcreated⟩
  have hopened := opened_of_routed hrun hrouted (negotiation.id_decoded key)
  rcases id_of_client hrun hclient hopened with ⟨localID, heq, hpath⟩
  cases Decimal.toString_inj.mp heq
  refine ⟨key, negotiation, (hpath _).mpr rfl, ⟨hwell, sender, ?_⟩, ?_⟩
  · have hfirst := List.singleton_sublist.mpr (mem_peerHistory.mp hcreated)
    exact hfirst.append ((List.nil_sublist y).cons_cons _)
  · rw [hrouted.data_eq, hid, Negotiation.relayed]

/-- What a client does with its peer connection comes from a game server with an offer. -/
theorem exists_offered {e : NetworkClientEvent} {id : PeerID}
    (hrun : system.run (start maxConns programs) labels = some (u, a ++ ofPeer c (.client e) :: b))
    (hclient : programs c = .client) (hgenuine : Genuine programs a)
    (hpeer : NetworkClient.peer e = some id) :
    ∃ s localID negotiation type, programs s = .server ∧
      ofPeer c (.dialled (connectPath localID)) ∈ a ∧ Offered a s localID negotiation ∧
      readHeader (negotiation.relayed 12345 localID) = .ok (id, type) ∧
      ∀ remote, e = .applied id remote →
        readRemote (negotiation.relayed 12345 localID) type = .ok (some remote) := by
  rcases exists_delivered_of_client hrun hclient hpeer with
    ⟨s, data, type, hdelivered, hheader, _, happlied⟩
  rcases exists_routed hrun hdelivered with ⟨i, msg, hrouted⟩
  have hserver : programs s = .server := hgenuine s i (registered_of_routed hrun hclient hrouted)
  rcases offered_of_delivered hrun hclient hserver hdelivered with
    ⟨localID, negotiation, hdialled, hoffered, rfl⟩
  exact ⟨s, localID, negotiation, type, hserver, hdialled, hoffered, hheader, happlied⟩

/-- If only game servers register as servers, a client negotiates only with game servers: with
what they have produced for its own id. -/
theorem offered_of_negotiated {e : NetworkClientEvent} {id : PeerID}
    (hrun : system.run (start maxConns programs) labels = some (u, a ++ ofPeer c (.client e) :: b))
    (hclient : programs c = .client) (hgenuine : Genuine programs a)
    (hpeer : NetworkClient.peer e = some id) :
    id = 12345 ∧ ∃ s localID negotiation, programs s = .server ∧
      ofPeer c (.dialled (connectPath localID)) ∈ a ∧ Offered a s localID negotiation ∧
        ∀ remote, e = .applied id remote → remote = negotiation.remote.2 := by
  rcases exists_offered hrun hclient hgenuine hpeer with
    ⟨s, localID, negotiation, type, hserver, hdialled, hoffered, hheader, happlied⟩
  rw [Negotiation.readHeader_relayed hoffered.wellFormed] at hheader
  cases hheader
  refine ⟨rfl, s, localID, negotiation, hserver, hdialled, hoffered, fun remote heq => ?_⟩
  exact Negotiation.remote_of_readRemote hoffered.wellFormed (happlied remote heq)

/-- The offer was produced for this client. -/
theorem offered_of_negotiated_offer :
    ∃ u b, system.run (start 0 meeting) offerLabels =
        some (u, offerHistory ++ ofPeer 1 (.client (.created 12345)) :: b) ∧
      ∃ s localID negotiation, meeting s = .server ∧
        ofPeer 1 (.dialled (connectPath localID)) ∈ offerHistory ∧
        Offered offerHistory s localID negotiation := by
  rcases run_offerLabels with ⟨u, hrun⟩
  rcases (offered_of_negotiated hrun rfl genuine_offerHistory rfl).2 with
    ⟨s, localID, negotiation, hserver, hdialled, hoffered, _⟩
  exact ⟨u, _, hrun, s, localID, negotiation, hserver, hdialled, hoffered⟩

/-! ## Clients at a game server -/

/-- A game server makes and uses an entry for messages that the relay has delivered. -/
theorem exists_delivered_of_server {e : NetworkServerEvent} {key : PeerID}
    (hrun : system.run (start maxConns programs) labels = some (u, a ++ ofPeer g (.server e) :: b))
    (hserver : programs g = .server) (hkey : NetworkServer.senderKey e = some (s, key)) :
    ∃ data type, ofRelay (.delivered s g data) ∈ a ∧ readHeader data = .ok (key, type) ∧
      ∀ remote, e = .applied s key remote → readRemote data type = .ok (some remote) := by
  rcases exists_peer_step hrun with ⟨ls, t, v, label, h, out, hbefore, hstep, he, hdelivered⟩
  rw [hserver] at hbefore
  rcases Peer.server_of_reachable hbefore with ⟨t, rfl, _⟩
  have hcase : Peer.ServerCase t label v out := Peer.server_cases hstep
  cases hcase with
  | lost => cases he
  | dialled opened v hclients =>
      rcases List.mem_cons.mp he with heq | he
      · cases heq
      · split at he
        · cases List.mem_singleton.mp he
          cases hkey
        · cases he
  | called label call v out hcall hv =>
      rcases List.mem_map.mp he with ⟨e', he', heq⟩
      cases heq
      have hcause := NetworkServer.cause_of_mem hv he'
      cases e with
      | created sender key' =>
          cases hkey
          rcases hcause with ⟨message, taken, type, rfl, hheader, _⟩
          cases hcall
          exact ⟨message, type, hdelivered, hheader, fun remote heq => by cases heq⟩
      | handled sender key' =>
          cases hkey
          rcases hcause with ⟨message, taken, type, rfl, hheader⟩
          cases hcall
          exact ⟨message, type, hdelivered, hheader, fun remote heq => by cases heq⟩
      | applied sender key' remote =>
          cases hkey
          rcases hcause with ⟨message, taken, type, rfl, hheader, hremote⟩
          cases hcall
          refine ⟨message, type, hdelivered, hheader, fun remote' heq => ?_⟩
          cases heq
          exact hremote
      | _ => cases hkey

/-- What a client has written for a game server: its join, or what its peer connection for the
game server has produced. -/
inductive Asked (h : List Event) (s : Conn) (localID : PeerID) (data : Json) : Prop
  | joined (announced : ofPeer s (.client (.announced (NetworkClient.joinMsg 12345))) ∈ h)
      (data_eq : data = relayedJoin localID)
  | negotiated (negotiation : Negotiation) (wellFormed : negotiation.WellFormed)
      (order : [ofPeer s (.client (.created 12345)),
        ofPeer s (.client (.sent (negotiation.message 12345)))].Sublist h)
      (data_eq : data = negotiation.relayed localID 12345)

/-- What a game server gets from a client was written for it. -/
theorem asked_of_delivered {data : Json}
    (hrun : system.run (start maxConns programs) labels = some (u, a ++ b))
    (hclient : programs s = .client) (hserver : programs g = .server)
    (hdelivered : ofRelay (.delivered s g data) ∈ a) :
    ∃ localID, ofPeer s (.dialled (connectPath localID)) ∈ a ∧ Asked a s localID data := by
  rcases exists_routed hrun hdelivered with ⟨i, msg, hrouted⟩
  rcases id_of_client hrun hclient (mem_relayHistory.mp hrouted.opened) with ⟨localID, rfl, hpath⟩
  refine ⟨localID, (hpath _).mpr rfl, ?_⟩
  -- the target is the game server, which is registered under its only id
  have htarget : ∀ key, msg.id = Decimal.toString key → key = 12345 := fun key hkey =>
    Decimal.toString_inj.mp (id_of_server hrun hserver (opened_of_routed hrun hrouted hkey))
  rcases exists_written hrun (mem_relayHistory.mp hrouted.received) with ⟨e, he, hframe⟩
  rcases exists_peer_run_split hrun he with ⟨x, y, ls, v, z, rfl, hpeer⟩
  rw [hclient] at hpeer
  rcases Peer.frame_cases hpeer hframe with ⟨hregister, _⟩ | ⟨serverID, rfl, rfl⟩ |
    ⟨key, negotiation, rfl, hwell, rfl, hcreated⟩
  · exact absurd hregister hrouted.relayed
  · cases htarget serverID rfl
    exact .joined he hrouted.data_eq
  · cases htarget key (negotiation.id_decoded key)
    have hfirst := List.singleton_sublist.mpr (mem_peerHistory.mp hcreated)
    exact .negotiated negotiation hwell (hfirst.append ((List.nil_sublist y).cons_cons _))
      hrouted.data_eq

/-- A game server reads a join of the client that has written it. -/
theorem readHeader_relayedJoin (localID : PeerID) :
    readHeader (relayedJoin localID) = .ok (localID, goString "join") := by
  refine readHeader_eq_ok_iff.mpr ⟨readId_eq_ok_iff.mpr ⟨Decimal.toString localID, ?_, ?_⟩,
    readType_eq_ok_iff.mpr ?_⟩
  · rw [relayedJoin, Message.findString_id, coerce_toString]
  · exact Decimal.stoull_toString localID
  · have htype : Utf8.coerce msgTypeJoin = goString "join" := by decide
    rw [relayedJoin, Message.findString_type, htype]

/-- A client is at a game server under its own id: by its join, or by what its peer connection
for this game server has produced, and it is the latter that is applied there. -/
theorem asked_of_used {e : NetworkServerEvent} {key : PeerID}
    (hrun : system.run (start maxConns programs) labels = some (u, a ++ ofPeer g (.server e) :: b))
    (hserver : programs g = .server) (hclient : programs s = .client)
    (hkey : NetworkServer.senderKey e = some (s, key)) :
    ofPeer s (.dialled (connectPath key)) ∈ a ∧
      (ofPeer s (.client (.announced (NetworkClient.joinMsg 12345))) ∈ a ∧
          (∀ remote, e ≠ .applied s key remote) ∨
        ∃ negotiation : Negotiation, negotiation.WellFormed ∧
          [ofPeer s (.client (.created 12345)),
            ofPeer s (.client (.sent (negotiation.message 12345)))].Sublist a ∧
          ∀ remote, e = .applied s key remote → remote = negotiation.remote.2) := by
  rcases exists_delivered_of_server hrun hserver hkey with
    ⟨data, type, hdelivered, hheader, happlied⟩
  rcases asked_of_delivered hrun hclient hserver hdelivered with ⟨localID, hdialled, hasked⟩
  cases hasked with
  | joined hannounced hdata =>
      rw [hdata, readHeader_relayedJoin] at hheader
      cases hheader
      refine ⟨hdialled, Or.inl ⟨hannounced, fun remote heq => ?_⟩⟩
      have hremote := happlied remote heq
      rw [NetworkClient.readRemote_join] at hremote
      cases hremote
  | negotiated negotiation hwell horder hdata =>
      rw [hdata, Negotiation.readHeader_relayed hwell] at hheader
      cases hheader
      refine ⟨hdialled, Or.inr ⟨negotiation, hwell, horder, fun remote heq => ?_⟩⟩
      exact Negotiation.remote_of_readRemote hwell (hdata ▸ happlied remote heq)

/-- The entry of the game server was asked for by a join. -/
theorem asked_of_used_join :
    ∃ u b, system.run (start 0 meeting) joinLabels =
        some (u, joinHistory ++ ofPeer 0 (.server (.created 1 7)) :: b) ∧
      ofPeer 1 (.dialled (connectPath 7)) ∈ joinHistory ∧
      (ofPeer 1 (.client (.announced (NetworkClient.joinMsg 12345))) ∈ joinHistory ∨
        ∃ negotiation : Negotiation, negotiation.WellFormed ∧
          [ofPeer 1 (.client (.created 12345)),
            ofPeer 1 (.client (.sent (negotiation.message 12345)))].Sublist joinHistory) := by
  rcases run_joinLabels with ⟨u, hrun⟩
  rcases asked_of_used hrun rfl rfl rfl with ⟨hdialled, hasked⟩
  exact ⟨u, _, hrun, hdialled,
    hasked.imp And.left fun ⟨negotiation, hwell, horder, _⟩ => ⟨negotiation, hwell, horder⟩⟩

/-! ## The order of a handshake -/

theorem Genuine.of_subset {h h' : List Event} (hgenuine : Genuine programs h')
    (hsubset : ∀ e ∈ h, e ∈ h') : Genuine programs h :=
  fun s i hregistered => hgenuine s i (hsubset _ hregistered)

theorem Sole.of_subset {h h' : List Event} (hsole : Sole h' c) (hsubset : ∀ e ∈ h, e ∈ h') :
    Sole h c :=
  fun localID hdialled s i hopened => hsole localID (hsubset _ hdialled) s i (hsubset _ hopened)

/-- An entry of a game server for the id of a program without double was made by this
program. -/
theorem sender_of_created {h : List Event} {localID : PeerID}
    (hrun : system.run (start maxConns programs) labels =
      some (u, a ++ ofPeer g (.server (.created s localID)) :: b))
    (hserver : programs g = .server) (hsubset : ∀ e ∈ a, e ∈ h) (hsole : Sole h c)
    (hdialled : ofPeer c (.dialled (connectPath localID)) ∈ h) : s = c := by
  rcases exists_delivered_of_server hrun hserver rfl with ⟨data, type, hdelivered, hheader, _⟩
  rcases exists_routed hrun hdelivered with ⟨i, msg, hrouted⟩
  exact hsole localID hdialled s i (hsubset _ (mem_relayHistory.mp hrouted.opened))
    (stoull_of_routed hrouted (readHeader_eq_ok_iff.mp hheader).1)

/-- Join, entry, offer and peer connection come in this order, if only game servers register as
servers and nobody else has the id of the client. -/
theorem joined_of_negotiated {e : NetworkClientEvent} {id : PeerID}
    (hrun : system.run (start maxConns programs) labels = some (u, a ++ ofPeer c (.client e) :: b))
    (hclient : programs c = .client) (hgenuine : Genuine programs a) (hsole : Sole a c)
    (hpeer : NetworkClient.peer e = some id) :
    ∃ s localID negotiation, programs s = .server ∧
      List.Sublist [ofPeer c (.client (.announced (NetworkClient.joinMsg 12345))),
        ofPeer s (.server (.created c localID)),
        ofPeer s (.server (.sent localID (Negotiation.message localID negotiation)))] a := by
  -- on the length of the history: without a join, the peer connection was there before
  induction hlength : a.length using Nat.strong_induction_on generalizing a b e id with
  | _ n ih =>
      rcases exists_offered hrun hclient hgenuine hpeer with
        ⟨s, localID, negotiation, type, hserver, hdialled, hoffered, _⟩
      rcases hoffered.order with ⟨sender, horder⟩
      rcases List.cons_sublist_iff.mp horder with ⟨r₁, r₂, rfl, hcreated, hsent⟩
      rcases List.append_of_mem hcreated with ⟨x, y, rfl⟩
      have hbefore := hrun
      simp only [List.append_assoc, List.cons_append] at hbefore
      have hsubset : ∀ e' ∈ x,
          e' ∈ x ++ ofPeer s (.server (.created sender localID)) :: y ++ r₂ := by
        intro e' he'
        exact List.mem_append_left _ (List.mem_append_left _ he')
      have hsender : sender = c := sender_of_created hbefore hserver hsubset hsole hdialled
      subst hsender
      rcases (asked_of_used hbefore hserver hclient rfl).2 with ⟨hannounced, _⟩ |
        ⟨negotiation', _, hnegotiated, _⟩
      · refine ⟨s, localID, negotiation, hserver, ?_⟩
        have hjoin := List.singleton_sublist.mpr hannounced
        exact (hjoin.append ((List.nil_sublist y).cons_cons _)).append hsent
      · have hpeer' : ofPeer sender (.client (.created 12345)) ∈ x :=
          hnegotiated.subset List.mem_cons_self
        rcases List.append_of_mem hpeer' with ⟨x₁, x₂, rfl⟩
        have hfirst := hbefore
        rw [List.append_assoc, List.cons_append] at hfirst
        have hsubset' : ∀ e' ∈ x₁, e' ∈ (x₁ ++ ofPeer sender (.client (.created 12345)) :: x₂) ++
            ofPeer s (.server (.created sender localID)) :: y ++ r₂ := by
          intro e' he'
          exact hsubset e' (List.mem_append_left _ he')
        have hshorter : x₁.length < n := by
          simp only [← hlength, List.length_append, List.length_cons]
          omega
        rcases ih x₁.length hshorter hfirst (hgenuine.of_subset hsubset')
          (hsole.of_subset hsubset') rfl rfl with ⟨s', localID', negotiation'', hserver', hchain⟩
        refine ⟨s', localID', negotiation'', hserver', hchain.trans ?_⟩
        simp

/-- The client has joined before. -/
theorem joined_of_negotiated_offer :
    ∃ u b, system.run (start 0 meeting) offerLabels =
        some (u, offerHistory ++ ofPeer 1 (.client (.created 12345)) :: b) ∧
      ∃ s localID negotiation, meeting s = .server ∧
        List.Sublist [ofPeer 1 (.client (.announced (NetworkClient.joinMsg 12345))),
          ofPeer s (.server (.created 1 localID)),
          ofPeer s (.server (.sent localID (Negotiation.message localID negotiation)))]
            offerHistory := by
  rcases run_offerLabels with ⟨u, hrun⟩
  exact ⟨u, _, hrun,
    joined_of_negotiated hrun rfl genuine_offerHistory sole_offerHistory rfl⟩

end Deployment

end GameFramework
