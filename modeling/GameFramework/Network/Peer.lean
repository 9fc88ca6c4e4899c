import GameFramework.Network.Causes

/-!
# Programs behind the signalling server

A program at the other end of a websocket of the signalling server: a game server, a
client, or a stranger, which writes what it likes.  A game program connects once, as
{lit}`ServerInstance::run` and {lit}`ClientInstance::run` do; it writes the messages of its
network class, and the websocket callback hands it what arrives.  What a peer connection
produces is an offer, an answer or a candidate in valid UTF-8: for other strings
{lit}`nlohmann::json::dump` throws, and nothing is written.

Main results:

- Theorem {lit}`Peer.server_of_reachable`: a game server has one path, and its entries were
  created.
- Theorem {lit}`Peer.sent_of_frame`: what a game server writes after its registration is for an
  entry that was created before.
- Theorem {lit}`Peer.client_of_reachable`: a client has one path, and its peer connection was
  created.
- Theorem {lit}`Peer.frame_cases`: a client registers as a client, joins, and passes on what its
  peer connection produces.
- Theorem {lit}`Peer.applied_of_step`: a program applies at most what it receives.
-/

namespace GameFramework

/-- Which program is behind a websocket. -/
inductive Program where
  | server
  | client
  | stranger
  deriving DecidableEq

inductive Peer where
  | server (t : NetworkServer)
  | client (t : NetworkClient)
  | stranger

/-- The state of a program that has not connected. -/
def Program.start : Program → Peer
  | server => .server NetworkServer.init
  | client => .client NetworkClient.init
  | stranger => .stranger

inductive PeerLabel where
  /-- {lit}`NetworkServer::start` and its thread up to the loop. -/
  | serve (opened : Bool)
  /-- {lit}`NetworkClient::connect`; the random number is an argument. -/
  | connect (localID serverID : PeerID) (opened : Bool)
  /-- A callback of a peer connection; the key is for a game server. -/
  | negotiate (key : PeerID) (negotiation : Negotiation)
  /-- The websocket callback gets a message. -/
  | receive (sender : Conn) (message : Json) (taken : Bool)
  /-- A message does not arrive: its write has failed. -/
  | lose
  /-- {lit}`NetworkServer::stop` or {lit}`NetworkClient::disconnect`. -/
  | leave
  /-- A stranger opens a websocket. -/
  | dial (path : GoString)
  /-- A stranger writes a frame. -/
  | write (frame : Option Message)

inductive PeerEvent where
  | dialled (path : GoString)
  | server (e : NetworkServerEvent)
  | client (e : NetworkClientEvent)
  | wrote (frame : Option Message)

/-- What travels on a websocket: the request that opens it, frames to the relay as it
unmarshals them, and messages from the relay with the connection whose handler has
written them. -/
inductive Packet where
  | dial (path : GoString)
  | frame (msg : Option Message)
  | text (sender : Conn) (data : Json)

/-- What an event puts on the websocket. -/
def PeerEvent.packet : PeerEvent → Option Packet
  | dialled path => some (.dial path)
  | server (.registered message) | server (.sent _ message) | client (.announced message)
  | client (.sent message) => some (.frame (Message.unmarshal message))
  | wrote frame => some (.frame frame)
  | server _ | client _ => none

/-- The path of the url that a game program opens. -/
def connectPath (localID : PeerID) : GoString :=
  goString "/connect/" ++ Decimal.toString localID

/-- The relay takes the numeral out of the path again. -/
theorem trimConnect_connectPath (localID : PeerID) :
    trimConnect (connectPath localID) = Decimal.toString localID := by
  have hprefixed : (goString "/connect/").isPrefixOf (connectPath localID) = true := by
    rw [List.isPrefixOf_iff_prefix]
    exact List.prefix_append _ _
  rw [trimConnect, if_pos hprefixed, connectPath, List.drop_left]

/-- Whether a peer connection can have produced this. -/
instance Negotiation.decidableWellFormed : (negotiation : Negotiation) →
    Decidable negotiation.WellFormed
  | localDescription typeString description =>
      decidable_of_iff
        ((typeString = msgTypeOffer ∨ typeString = msgTypeAnswer) ∧ Utf8.Valid description)
        ⟨fun h => ⟨h.1, fun member hmember => by rw [List.mem_singleton.mp hmember]; exact h.2⟩,
          fun h => ⟨h.type, h.valid _ (List.mem_singleton_self ("description", description))⟩⟩
  | localCandidate candidate mid =>
      decidable_of_iff (Utf8.Valid candidate ∧ Utf8.Valid mid)
        ⟨fun h => ⟨trivial, fun member hmember => by
            simp only [strings, List.mem_cons, List.not_mem_nil, or_false] at hmember
            rcases hmember with rfl | rfl
            · exact h.1
            · exact h.2⟩,
          fun h => ⟨h.valid _ List.mem_cons_self,
            h.valid _ (List.mem_cons_of_mem _ List.mem_cons_self)⟩⟩

namespace Peer

/-- A step of the network server of a program. -/
def serverStep (t : NetworkServer) (label : NetworkServerLabel) :
    Option (Peer × List PeerEvent) :=
  (t.step label).map fun r => (.server r.1, r.2.map .server)

/-- A step of the network client of a program. -/
def clientStep (t : NetworkClient) (label : NetworkClientLabel) :
    Option (Peer × List PeerEvent) :=
  (t.step label).map fun r => (.client r.1, r.2.map .client)

def step : Peer → PeerLabel → Option (Peer × List PeerEvent)
  | t, .lose => some (t, [])
  | .server t, .serve opened =>
      if t.signallingWebsocket then none
      else
        let r := ({ t with running := true } : NetworkServer).startSignallingWebsocket opened
        some (.server r.1, .dialled (connectPath r.1.localID) :: r.2.map .server)
  | .server t, .negotiate key negotiation =>
      if negotiation.WellFormed then serverStep t (.negotiate key negotiation) else none
  | .server t, .receive sender message taken => serverStep t (.message sender message taken)
  | .server t, .leave => serverStep t .stop
  | .client t, .connect localID serverID opened =>
      if t.signallingWebsocket then none
      else
        let r := t.connect localID serverID opened
        some (.client r.1, .dialled (connectPath r.1.localID) :: r.2.map .client)
  | .client t, .negotiate _ negotiation =>
      if negotiation.WellFormed then clientStep t (.negotiate negotiation) else none
  | .client t, .receive _ message taken =>
      if t.signallingWebsocket then clientStep t (.message message taken) else none
  | .client t, .leave => clientStep t .disconnect
  | .stranger, .dial path => some (.stranger, [.dialled path])
  | .stranger, .write frame => some (.stranger, [.wrote frame])
  | .stranger, .receive _ _ _ => some (.stranger, [])
  | _, _ => none

/-- A program does not notice that a message is lost. -/
theorem step_lose (t : Peer) : t.step .lose = some (t, []) := by
  cases t <;> rfl

/-- A program as a labelled system. -/
def system : Labelled.System Peer PeerLabel PeerEvent where
  step := step

variable {u : Peer} {label : PeerLabel} {labels : List PeerLabel} {out h : List PeerEvent}

/-! ## Game servers -/

/-- The calls of a network server that a label of its program stands for. -/
def ServerCall (label : PeerLabel) : NetworkServerLabel → Prop
  | .message sender message taken => label = .receive sender message taken
  | .negotiate key negotiation => label = .negotiate key negotiation ∧ negotiation.WellFormed
  | .stop => label = .leave
  | .start | .startSignallingWebsocket _ => False

/-- The steps of a game server. -/
inductive ServerCase (t : NetworkServer) : PeerLabel → Peer → List PeerEvent → Prop
  | lost : ServerCase t .lose (.server t) []
  | dialled (opened : Bool) (v : NetworkServer) (hclients : v.clients = t.clients) :
      ServerCase t (.serve opened) (.server v) (.dialled (connectPath 12345) ::
        if opened then [.server (.registered (NetworkServer.registerMsg 12345))] else [])
  | called (label : PeerLabel) (call : NetworkServerLabel) (v : NetworkServer)
      (out : List NetworkServerEvent) (hcall : ServerCall label call)
      (hstep : t.step call = some (v, out)) : ServerCase t label (.server v) (out.map .server)

/-- The steps of a game server. -/
theorem server_cases {t : NetworkServer} {label : PeerLabel}
    (hstep : step (.server t) label = some (u, out)) : ServerCase t label u out := by
  have hcalled : ∀ call : NetworkServerLabel, ServerCall label call →
      serverStep t call = some (u, out) → ServerCase t label u out := by
    intro call hcall hserver
    rcases Option.map_eq_some_iff.mp hserver with ⟨⟨v, out'⟩, hv, heq⟩
    cases heq
    exact .called label call v out' hcall hv
  cases label with
  | lose =>
      cases hstep
      exact .lost
  | serve opened =>
      simp only [step] at hstep
      split at hstep
      · contradiction
      · cases hstep
        have hclients : (({ t with running := true } : NetworkServer).startSignallingWebsocket
            opened).1.clients = t.clients := rfl
        have hcase := ServerCase.dialled opened _ hclients
        cases opened with
        | true => exact hcase
        | false => exact hcase
  | negotiate key negotiation =>
      simp only [step] at hstep
      split at hstep
      · rename_i hwell
        exact hcalled (.negotiate key negotiation) ⟨rfl, hwell⟩ hstep
      · contradiction
  | receive sender message taken => exact hcalled (.message sender message taken) rfl hstep
  | leave => exact hcalled .stop rfl hstep
  | _ => contradiction

/-- The entries of a game server have captured their keys, and were created. -/
structure Serves (t : NetworkServer) (h : List PeerEvent) : Prop where
  keyed : NetworkServer.Keyed t
  created : ∀ key, t.clients key ≠ none → ∃ sender, .server (.created sender key) ∈ h

theorem Serves.of_clients_eq {t v : NetworkServer} (hserves : Serves t h)
    (hclients : v.clients = t.clients) (out : List PeerEvent) : Serves v (h ++ out) where
  keyed := hserves.keyed.of_clients_eq hclients
  created key hentry := by
    rcases hserves.created key (hclients ▸ hentry) with ⟨sender, hcreated⟩
    exact ⟨sender, List.mem_append_left out hcreated⟩

/-- A game server stays one, and has its entries from its history. -/
theorem server_of_reachable (hrun : system.run Program.server.start labels = some (u, h)) :
    ∃ t, u = .server t ∧ Serves t h := by
  refine system.run_invariant (fun u h => ∃ t, u = .server t ∧ Serves t h) ?_ ?_ hrun
  · refine ⟨NetworkServer.init, rfl, ⟨?_, fun key hentry => absurd rfl hentry⟩⟩
    intro key pc hentry
    cases hentry
  · intro s h label v out hbefore hstep
    rcases hbefore with ⟨t, rfl, hserves⟩
    have hcase : ServerCase t label v out := server_cases hstep
    cases hcase with
    | lost => exact ⟨t, rfl, hserves.of_clients_eq rfl []⟩
    | dialled opened v hclients => exact ⟨v, rfl, hserves.of_clients_eq hclients _⟩
    | called label call v out hcall hv =>
        refine ⟨v, rfl, NetworkServer.keyed_step hserves.keyed (NetworkServer.step_cases hv), ?_⟩
        intro key hentry
        rcases NetworkServer.entry_of_step hv hentry with hold | ⟨sender, hnew⟩
        · rcases hserves.created key hold with ⟨sender, hcreated⟩
          exact ⟨sender, List.mem_append_left _ hcreated⟩
        · exact ⟨sender, List.mem_append_right h (List.mem_map_of_mem hnew)⟩

/-- What a game server puts on its websocket: its path, its registration, and what the peer
connections of its entries produce. -/
def ServerWrites (before : List PeerEvent) : PeerEvent → Prop
  | .dialled path => path = connectPath 12345
  | .server (.registered message) => message = NetworkServer.registerMsg 12345
  | .server (.sent key message) => ∃ negotiation : Negotiation, negotiation.WellFormed ∧
      message = negotiation.message key ∧ ∃ sender, .server (.created sender key) ∈ before
  | .server _ => True
  | .client _ | .wrote _ => False

/-- What a game server writes. -/
theorem serverWrites_of_mem {a b : List PeerEvent} {e : PeerEvent}
    (hrun : system.run Program.server.start labels = some (u, a ++ e :: b)) :
    ServerWrites a e := by
  rcases system.exists_step_of_mem_history hrun with
    ⟨pre, label, post, s, v, h, out₁, out₂, _, hpre, hstep, rfl⟩
  rcases server_of_reachable hpre with ⟨t, rfl, hserves⟩
  have hcase : ServerCase t label v (out₁ ++ e :: out₂) := server_cases hstep
  generalize hout : out₁ ++ e :: out₂ = out at hcase
  have hmem : e ∈ out := hout ▸ List.mem_append_right out₁ List.mem_cons_self
  cases hcase with
  | lost => cases hmem
  | dialled opened v hclients =>
      rcases List.mem_cons.mp hmem with rfl | hmem
      · rfl
      · split at hmem
        · rw [List.mem_singleton.mp hmem]
          rfl
        · cases hmem
  | called label call v out hcall hv =>
      rcases List.mem_map.mp hmem with ⟨e', he', rfl⟩
      have hcause := NetworkServer.cause_of_mem hv he'
      cases e' with
      | registered message =>
          rcases hcause with ⟨opened, rfl⟩
          exact absurd hcall id
      | sent key data =>
          rcases hcause with ⟨pc, negotiation, rfl, hentry, rfl⟩
          rcases hserves.created key (by simp [hentry]) with ⟨sender, hcreated⟩
          refine ⟨negotiation, hcall.2, ?_, sender, List.mem_append_left out₁ hcreated⟩
          rw [hserves.keyed key pc hentry]
      | _ => trivial

/-- A frame of a game server that asks for no registration was produced for an entry. -/
theorem sent_of_frame {a b : List PeerEvent} {e : PeerEvent} {msg : Message}
    (hrun : system.run Program.server.start labels = some (u, a ++ e :: b))
    (hframe : e.packet = some (.frame (some msg))) (htype : msg.type ≠ msgTypeRegister) :
    ∃ (key : PeerID) (negotiation : Negotiation),
      e = .server (.sent key (negotiation.message key)) ∧ negotiation.WellFormed ∧
        msg = negotiation.decoded key ∧ ∃ sender, .server (.created sender key) ∈ a := by
  have hwrites := serverWrites_of_mem hrun
  cases e with
  | dialled path => cases hframe
  | server e =>
      cases e with
      | registered message =>
          rcases NetworkServer.unmarshal_registerMsg 12345 with ⟨msg', hmsg', htype'⟩
          have hmessage : message = NetworkServer.registerMsg 12345 := hwrites
          rw [hmessage, PeerEvent.packet, hmsg'] at hframe
          cases hframe
          exact absurd htype' htype
      | sent key message =>
          rcases hwrites with ⟨negotiation, hwell, rfl, hcreated⟩
          rw [PeerEvent.packet, Negotiation.unmarshal_message hwell] at hframe
          cases hframe
          exact ⟨key, negotiation, rfl, hwell, rfl, hcreated⟩
      | _ => cases hframe
  | client e => exact absurd hwrites id
  | wrote frame => exact absurd hwrites id

/-! ## Clients -/

/-- The calls of a network client that a label of its program stands for. -/
def ClientCall (label : PeerLabel) : NetworkClientLabel → Prop
  | .message message taken => ∃ sender, label = .receive sender message taken
  | .negotiate negotiation => (∃ key, label = .negotiate key negotiation) ∧ negotiation.WellFormed
  | .disconnect => label = .leave

/-- The steps of a client. -/
inductive ClientCase (t : NetworkClient) : PeerLabel → Peer → List PeerEvent → Prop
  | lost : ClientCase t .lose (.client t) []
  | dialled (localID serverID : PeerID) (opened : Bool) (hnew : t.signallingWebsocket = false) :
      ClientCase t (.connect localID serverID opened)
        (.client { t with localID := localID, signallingWebsocket := true })
        (.dialled (connectPath localID) ::
          ((if opened then [.client (.announced (NetworkClient.registerMsg localID))] else []) ++
            [.client (.announced (NetworkClient.joinMsg serverID))]))
  | called (label : PeerLabel) (call : NetworkClientLabel) (v : NetworkClient)
      (out : List NetworkClientEvent) (hcall : ClientCall label call)
      (hstep : t.step call = some (v, out)) : ClientCase t label (.client v) (out.map .client)

/-- The steps of a client. -/
theorem client_cases {t : NetworkClient} {label : PeerLabel}
    (hstep : step (.client t) label = some (u, out)) : ClientCase t label u out := by
  have hcalled : ∀ call : NetworkClientLabel, ClientCall label call →
      clientStep t call = some (u, out) → ClientCase t label u out := by
    intro call hcall hclient
    rcases Option.map_eq_some_iff.mp hclient with ⟨⟨v, out'⟩, hv, heq⟩
    cases heq
    exact .called label call v out' hcall hv
  cases label with
  | lose =>
      cases hstep
      exact .lost
  | connect localID serverID opened =>
      simp only [step] at hstep
      split at hstep
      · contradiction
      · rename_i hnew
        cases hstep
        have hcase := ClientCase.dialled (t := t) localID serverID opened (by simpa using hnew)
        cases opened with
        | true => exact hcase
        | false => exact hcase
  | negotiate key negotiation =>
      simp only [step] at hstep
      split at hstep
      · rename_i hwell
        exact hcalled (.negotiate negotiation) ⟨⟨key, rfl⟩, hwell⟩ hstep
      · contradiction
  | receive sender message taken =>
      simp only [step] at hstep
      split at hstep
      · exact hcalled (.message message taken) ⟨sender, rfl⟩ hstep
      · contradiction
  | leave => exact hcalled .disconnect rfl hstep
  | _ => contradiction

/-- A client has one path, and its peer connection was created. -/
structure Joins (t : NetworkClient) (h : List PeerEvent) : Prop where
  path : ∀ path, .dialled path ∈ h → path = connectPath t.localID ∧ t.signallingWebsocket = true
  created : ∀ pc, t.peerConnection = some pc → .client (.created pc.id) ∈ h

/-- A client stays one, and has its id from its history. -/
theorem client_of_reachable (hrun : system.run Program.client.start labels = some (u, h)) :
    ∃ t, u = .client t ∧ Joins t h := by
  refine system.run_invariant (fun u h => ∃ t, u = .client t ∧ Joins t h) ?_ ?_ hrun
  · refine ⟨NetworkClient.init, rfl, ⟨fun path hpath => ?_, fun pc hpc => ?_⟩⟩
    · cases hpath
    · cases hpc
  · intro s h label v out hbefore hstep
    rcases hbefore with ⟨t, rfl, hjoins⟩
    have hcase : ClientCase t label v out := client_cases hstep
    cases hcase with
    | lost => exact ⟨t, rfl, by simpa using hjoins⟩
    | dialled localID serverID opened hnew =>
        refine ⟨_, rfl, ⟨fun path hpath => ?_, fun pc hpc => ?_⟩⟩
        · rcases List.mem_append.mp hpath with hold | hpath
          · rw [(hjoins.path path hold).2] at hnew
            contradiction
          · rcases List.mem_cons.mp hpath with heq | hpath
            · cases heq
              exact ⟨rfl, rfl⟩
            · rcases List.mem_append.mp hpath with hpath | hpath
              · split at hpath <;> simp at hpath
              · simp at hpath
        · exact List.mem_append_left _ (hjoins.created pc hpc)
    | called label call v out hcall hv =>
        rcases NetworkClient.step_spec hv with ⟨hlocal, hsocket, hpc⟩
        refine ⟨v, rfl, ⟨fun path hpath => ?_, fun pc hsome => ?_⟩⟩
        · rcases List.mem_append.mp hpath with hpath | hpath
          · rw [hlocal, hsocket]
            exact hjoins.path path hpath
          · rcases List.mem_map.mp hpath with ⟨e, _, heq⟩
            cases heq
        · rcases hpc pc hsome with hold | hnew
          · exact List.mem_append_left _ (hjoins.created pc hold)
          · exact List.mem_append_right h (List.mem_map_of_mem hnew)

/-- What a client puts on its websocket: its path, a register message and a join, and what its
peer connection produces. -/
def ClientWrites (before : List PeerEvent) : PeerEvent → Prop
  | .client (.announced message) => (∃ localID, message = NetworkClient.registerMsg localID) ∨
      ∃ serverID, message = NetworkClient.joinMsg serverID
  | .client (.sent message) => ∃ (id : PeerID) (negotiation : Negotiation),
      negotiation.WellFormed ∧ message = negotiation.message id ∧ .client (.created id) ∈ before
  | .client _ | .dialled _ => True
  | .server _ | .wrote _ => False

/-- What a client writes. -/
theorem clientWrites_of_mem {a b : List PeerEvent} {e : PeerEvent}
    (hrun : system.run Program.client.start labels = some (u, a ++ e :: b)) :
    ClientWrites a e := by
  rcases system.exists_step_of_mem_history hrun with
    ⟨pre, label, post, s, v, h, out₁, out₂, _, hpre, hstep, rfl⟩
  rcases client_of_reachable hpre with ⟨t, rfl, hjoins⟩
  have hcase : ClientCase t label v (out₁ ++ e :: out₂) := client_cases hstep
  generalize hout : out₁ ++ e :: out₂ = out at hcase
  have hmem : e ∈ out := hout ▸ List.mem_append_right out₁ List.mem_cons_self
  cases hcase with
  | lost => cases hmem
  | dialled localID serverID opened hnew =>
      rcases List.mem_cons.mp hmem with rfl | hmem
      · trivial
      · rcases List.mem_append.mp hmem with hmem | hmem
        · split at hmem
          · rw [List.mem_singleton.mp hmem]
            exact Or.inl ⟨localID, rfl⟩
          · cases hmem
        · rw [List.mem_singleton.mp hmem]
          exact Or.inr ⟨serverID, rfl⟩
  | called label call v out hcall hv =>
      rcases List.mem_map.mp hmem with ⟨e', he', rfl⟩
      have hcause := NetworkClient.cause_of_mem hv he'
      cases e' with
      | announced message => exact absurd hcause id
      | sent data =>
          rcases hcause with ⟨pc, negotiation, rfl, hpc, rfl⟩
          exact ⟨pc.id, negotiation, hcall.2, rfl,
            List.mem_append_left out₁ (hjoins.created pc hpc)⟩
      | _ => trivial

/-- The frames of a client. -/
theorem frame_cases {a b : List PeerEvent} {e : PeerEvent} {msg : Message}
    (hrun : system.run Program.client.start labels = some (u, a ++ e :: b))
    (hframe : e.packet = some (.frame (some msg))) :
    (msg.type = msgTypeRegister ∧ msg.role = roleClient) ∨
      (∃ serverID, e = .client (.announced (NetworkClient.joinMsg serverID)) ∧
        msg = { id := Decimal.toString serverID, type := msgTypeJoin, role := roleClient }) ∨
      ∃ (id : PeerID) (negotiation : Negotiation),
        e = .client (.sent (negotiation.message id)) ∧ negotiation.WellFormed ∧
          msg = negotiation.decoded id ∧ .client (.created id) ∈ a := by
  have hwrites := clientWrites_of_mem hrun
  cases e with
  | dialled path => cases hframe
  | client e =>
      cases e with
      | announced message =>
          rcases hwrites with ⟨localID, rfl⟩ | ⟨serverID, rfl⟩
          · rw [PeerEvent.packet, NetworkClient.unmarshal_registerMsg] at hframe
            cases hframe
            exact Or.inl ⟨rfl, rfl⟩
          · rw [PeerEvent.packet, NetworkClient.unmarshal_joinMsg] at hframe
            cases hframe
            exact Or.inr (Or.inl ⟨serverID, rfl, rfl⟩)
      | sent message =>
          rcases hwrites with ⟨id, negotiation, hwell, rfl, hcreated⟩
          rw [PeerEvent.packet, Negotiation.unmarshal_message hwell] at hframe
          cases hframe
          exact Or.inr (Or.inr ⟨id, negotiation, rfl, hwell, rfl, hcreated⟩)
      | _ => cases hframe
  | server e => exact absurd hwrites id
  | wrote frame => exact absurd hwrites id

/-- A client never asks for the role of a server. -/
theorem role_of_frame {a b : List PeerEvent} {e : PeerEvent} {msg : Message}
    (hrun : system.run Program.client.start labels = some (u, a ++ e :: b))
    (hframe : e.packet = some (.frame (some msg))) : msg.role ≠ roleServer := by
  have hroles : roleClient ≠ roleServer := by decide
  rcases frame_cases hrun hframe with ⟨_, hrole⟩ | ⟨serverID, _, rfl⟩ |
    ⟨id, negotiation, _, _, rfl, _⟩
  · exact hrole ▸ hroles
  · exact hroles
  · cases negotiation <;> exact (by decide : ([] : PeerRole) ≠ roleServer)

/-! ## What a program applies -/

/-- What a client applies. -/
def appliedByClient : PeerEvent → Option Remote
  | .client e => NetworkClient.appliedOf e
  | .dialled _ | .server _ | .wrote _ => none

/-- What a game server applies for messages of some sender. -/
def appliedFrom (s : Conn) : PeerEvent → Option Remote
  | .server e => NetworkServer.appliedOf s e
  | .dialled _ | .client _ | .wrote _ => none

/-- What a message brings to a client. -/
def broughtToClient : Packet → Option Remote
  | .text _ data => remoteOf data
  | .dial _ | .frame _ => none

/-- What a message brings to a game server if it is of some sender. -/
def broughtFrom (s : Conn) : Packet → Option Remote
  | .text sender data => if sender = s then remoteOf data else none
  | .dial _ | .frame _ => none

/-- The message that a label hands to the program. -/
def received : PeerLabel → Option Packet
  | .receive s data _ => some (.text s data)
  | .serve _ | .connect _ _ _ | .negotiate _ _ | .lose | .leave | .dial _ | .write _ => none

/-- A program applies at most what it receives. -/
theorem applied_of_step {t : Peer} (hstep : step t label = some (u, out)) (s : Conn) :
    (out.filterMap appliedByClient).Sublist ((received label).bind broughtToClient).toList ∧
      (out.filterMap (appliedFrom s)).Sublist ((received label).bind (broughtFrom s)).toList := by
  cases t with
  | stranger =>
      cases label <;> cases hstep <;> exact ⟨List.nil_sublist _, List.nil_sublist _⟩
  | server t =>
      have hcase : ServerCase t label u out := server_cases hstep
      cases hcase with
      | lost => exact ⟨List.nil_sublist _, List.nil_sublist _⟩
      | dialled opened v hclients =>
          cases opened <;> exact ⟨List.nil_sublist _, List.nil_sublist _⟩
      | called label call v out hcall hv =>
          have hcall' : (received label).bind (broughtFrom s) = NetworkServer.brought s call := by
            cases call with
            | message sender message taken => rw [hcall]; rfl
            | negotiate key negotiation => rw [hcall.1]; rfl
            | stop => rw [hcall]; rfl
            | _ => exact absurd hcall id
          have hnone : out.filterMap (appliedByClient ∘ PeerEvent.server) = [] :=
            List.filterMap_eq_nil_iff.mpr fun _ _ => rfl
          rw [hcall', List.filterMap_map, List.filterMap_map, hnone]
          exact ⟨List.nil_sublist _, NetworkServer.applied_of_step hv⟩
  | client t =>
      have hcase : ClientCase t label u out := client_cases hstep
      cases hcase with
      | lost => exact ⟨List.nil_sublist _, List.nil_sublist _⟩
      | dialled localID serverID opened hnew =>
          cases opened <;> exact ⟨List.nil_sublist _, List.nil_sublist _⟩
      | called label call v out hcall hv =>
          have hcall' : (received label).bind broughtToClient = NetworkClient.brought call := by
            cases call with
            | message message taken =>
                rcases hcall with ⟨sender, rfl⟩
                rfl
            | negotiate negotiation =>
                rcases hcall.1 with ⟨key, rfl⟩
                rfl
            | disconnect => rw [hcall]; rfl
          have hnone : out.filterMap (appliedFrom s ∘ PeerEvent.client) = [] :=
            List.filterMap_eq_nil_iff.mpr fun _ _ => rfl
          rw [hcall', List.filterMap_map, List.filterMap_map, hnone]
          exact ⟨NetworkClient.applied_of_step hv, List.nil_sublist _⟩

end Peer

end GameFramework
