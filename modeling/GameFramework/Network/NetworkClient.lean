import GameFramework.Network.Common
import GameFramework.Signalling.Authenticity

/-!
# The network client

{lit}`NetworkClient` of the game: it registers at the signalling server, asks a game server
to be let in, and has one peer connection, which the first offer creates.

A run starts after {lit}`connect`.  The client does not store the id of the server it has
joined, and it does not look at the sender of a message once it has a connection.

Main results:

- Theorem {lit}`NetworkClient.exists_peer_iff`: which messages create the connection or are
  applied to it.
- Theorem {lit}`NetworkClient.negotiatesOnlyWith_iff`: the client negotiates only with the
  server it joined exactly when no other sender's message is of that kind.
-/

namespace GameFramework

structure NetworkClient where
  localID : PeerID
  /-- {lit}`m_signallingWebsocket` is not null. -/
  signallingWebsocket : Bool
  /-- {lit}`m_connection.peerConnection` -/
  peerConnection : Option PeerConnection
  /-- Undefined behaviour has occurred; nothing is known from there on. -/
  undefined : Bool

inductive NetworkClientLabel where
  /-- The peer connection takes or refuses what the message brings, if anything. -/
  | message (message : Json) (taken : Bool)
  | negotiate (negotiation : Negotiation)
  | disconnect

inductive NetworkClientEvent where
  | announced (message : Json)
  | failed (failure : Failure)
  | created (id : PeerID)
  | applied (id : PeerID) (remote : Remote)
  | sent (message : Json)
  | closed

namespace NetworkClient

/-- The constructor. -/
def init : NetworkClient where
  localID := 0
  signallingWebsocket := false
  peerConnection := none
  undefined := false

/-- The message that registers a client. -/
def registerMsg (localID : PeerID) : Json :=
  .obj [(goString "id", .str (Decimal.toString localID)),
    (goString "type", .str (goString "register")), (goString "role", .str (goString "client"))]

/-- The message that asks a server to be let in. -/
def joinMsg (serverID : PeerID) : Json :=
  .obj [(goString "id", .str (Decimal.toString serverID)),
    (goString "type", .str (goString "join")), (goString "role", .str (goString "client"))]

/-- The websocket opens in time or does not; the random number is an argument. -/
def startSignallingWebsocket (t : NetworkClient) (localID : PeerID) (opened : Bool) :
    NetworkClient × List NetworkClientEvent :=
  let t := { t with localID := localID, signallingWebsocket := true }
  (t, if opened then [.announced (registerMsg t.localID)] else [])

def connect (t : NetworkClient) (localID serverID : PeerID) (opened : Bool) :
    NetworkClient × List NetworkClientEvent :=
  let (t, out) := t.startSignallingWebsocket localID opened
  (t, if t.signallingWebsocket then out ++ [.announced (joinMsg serverID)] else out)

def createServerConnection (t : NetworkClient) (id : PeerID) : NetworkClient :=
  { t with peerConnection := some ⟨id, t.signallingWebsocket⟩ }

/-- Leave the handler. -/
def fail (t : NetworkClient) (failure : Failure) : NetworkClient × List NetworkClientEvent :=
  ({ t with undefined := t.undefined || decide (failure = .undefined) }, [.failed failure])

/-- The end of the handler, once there is a peer connection. -/
def finish (t : NetworkClient) (id : PeerID) (outcome : Except Failure (Option Remote)) :
    NetworkClient × List NetworkClientEvent :=
  match outcome with
  | .error failure => t.fail failure
  | .ok none => (t, [])
  | .ok (some remote) => (t, [.applied id remote])

def handleSignallingMessage (t : NetworkClient) (message : Json) (taken : Bool) :
    NetworkClient × List NetworkClientEvent :=
  match readHeader message with
  | .error failure => t.fail failure
  | .ok (id, type) =>
      if type = goString "join" then
        t.fail (.logged (goString "Unexpected join message received by client"))
      else
        match t.peerConnection with
        | some _ => t.finish id (handOver message type taken)
        | none =>
            if type = goString "offer" then
              let (t, out) := (t.createServerConnection id).finish id (handOver message type taken)
              (t, .created id :: out)
            else t.fail (noConnection id type)

/-- The callbacks {lit}`onLocalDescription` and {lit}`onLocalCandidate` of the peer
connection. -/
def negotiate (pc : PeerConnection) (negotiation : Negotiation) : List NetworkClientEvent :=
  if pc.ws then [.sent (negotiation.message pc.id)] else [.failed negotiation.closedError]

def disconnect (t : NetworkClient) : NetworkClient × List NetworkClientEvent :=
  match t.peerConnection with
  | some _ => ({ t with peerConnection := none }, [.closed])
  | none => (t, [])

def step (t : NetworkClient) (label : NetworkClientLabel) :
    Option (NetworkClient × List NetworkClientEvent) :=
  if t.undefined then none
  else
    match label with
    | .message message taken => some (t.handleSignallingMessage message taken)
    | .negotiate negotiation =>
        match t.peerConnection with
        | some pc => some (t, negotiate pc negotiation)
        | none => none
    | .disconnect => some t.disconnect

/-- The network client as a labelled system. -/
def system : Labelled.System NetworkClient NetworkClientLabel NetworkClientEvent where
  step := step

/-! ## What the message handler does -/

/-- The sender of the message that created the connection or was applied to it. -/
def peer : NetworkClientEvent → Option PeerID
  | .created id | .applied id _ => some id
  | .announced _ | .failed _ | .sent _ | .closed => none

/-- The handler makes the connection or uses it for a message of this sender. -/
def Accepts (t : NetworkClient) (message : Json) (taken : Bool) (id : PeerID) : Prop :=
  ∃ type, readHeader message = .ok (id, type) ∧
    match t.peerConnection with
    | none => type = goString "offer"
    | some _ => taken = true ∧ ∃ remote, readRemote message type = .ok (some remote)

variable {t u : NetworkClient} {message : Json} {taken : Bool} {id : PeerID}
  {e : NetworkClientEvent}

/-- A join brings nothing to a peer connection. -/
theorem readRemote_join (message : Json) : readRemote message (goString "join") = .ok none := by
  have hoffer : goString "join" ≠ goString "offer" := by decide
  have hanswer : goString "join" ≠ goString "answer" := by decide
  have hcandidate : goString "join" ≠ goString "candidate" := by decide
  simp [readRemote, hoffer, hanswer, hcandidate]

/-- The end of the handler applies what the message brings, if the connection takes it. -/
theorem exists_peer_finish_iff {id' : PeerID} {type : StdString} :
    (∃ e ∈ (t.finish id' (handOver message type taken)).2, peer e = some id) ↔
      id' = id ∧ taken = true ∧ ∃ remote, readRemote message type = .ok (some remote) := by
  constructor
  · rintro ⟨e, he, hpeer⟩
    unfold finish at he
    split at he
    · rw [List.mem_singleton.mp he] at hpeer
      cases hpeer
    · cases he
    · rename_i remote hremote
      rw [List.mem_singleton.mp he] at hpeer
      cases hpeer
      rcases handOver_eq_ok_some_iff.mp hremote with ⟨hread, htaken⟩
      exact ⟨rfl, htaken, remote, hread⟩
  · rintro ⟨rfl, htaken, remote, hread⟩
    rw [handOver_eq_ok_some_iff.mpr ⟨hread, htaken⟩]
    exact ⟨.applied id' remote, List.mem_singleton.mpr rfl, rfl⟩

/-- The messages that create the connection or are applied to it. -/
theorem exists_peer_iff :
    (∃ e ∈ (t.handleSignallingMessage message taken).2, peer e = some id) ↔
      t.Accepts message taken id := by
  unfold handleSignallingMessage Accepts
  cases hheader : readHeader message with
  | error failure => simp [fail, peer]
  | ok header =>
      rcases header with ⟨id', type⟩
      simp only [Except.ok.injEq, Prod.mk.injEq, and_assoc, exists_and_left, exists_eq_left']
      cases hpc : t.peerConnection with
      | some pc =>
          simp only
          split
          · rename_i hjoin
            simp [fail, peer, hjoin, readRemote_join]
          · exact exists_peer_finish_iff
      | none =>
          simp only
          split
          · rename_i hjoin
            have hne : goString "join" ≠ goString "offer" := by decide
            simp [fail, peer, hjoin, hne]
          · split
            · rename_i hoffer
              constructor
              · rintro ⟨e, he, hpeer⟩
                rcases List.mem_cons.mp he with rfl | he
                · exact ⟨Option.some.inj hpeer, hoffer⟩
                · exact ⟨(exists_peer_finish_iff.mp ⟨e, he, hpeer⟩).1, hoffer⟩
              · -- whatever becomes of the offer, the connection has been created
                rintro ⟨rfl, _⟩
                exact ⟨.created id', List.mem_cons_self, rfl⟩
            · rename_i hoffer
              simp [fail, peer, hoffer]

/-! ## Negotiating with one server -/

/-- The connection is created for one server, and what is applied to it came from that
server. -/
structure NegotiatesOnlyWith (serverID : PeerID) (h : List NetworkClientEvent) : Prop where
  created : ∀ id, .created id ∈ h → id = serverID
  applied : ∀ id remote, .applied id remote ∈ h → id = serverID

theorem negotiatesOnlyWith_iff_forall {serverID : PeerID} {h : List NetworkClientEvent} :
    NegotiatesOnlyWith serverID h ↔ ∀ e ∈ h, ∀ id, peer e = some id → id = serverID := by
  constructor
  · intro honly e he id hpeer
    cases e with
    | created id' =>
        cases hpeer
        exact honly.created id he
    | applied id' remote =>
        cases hpeer
        exact honly.applied id remote he
    | _ => cases hpeer
  · intro hall
    exact ⟨fun id he => hall _ he id rfl, fun id remote he => hall _ he id rfl⟩

/-- The label is a message from someone else than the server that the client accepts. -/
def AcceptsForeign (serverID : PeerID) (t : NetworkClient) : NetworkClientLabel → Prop
  | .message message taken => ∃ id, id ≠ serverID ∧ t.Accepts message taken id
  | _ => False

/-- A step is about the server exactly when it accepts no foreign message. -/
theorem step_forall_iff {serverID : PeerID} {label : NetworkClientLabel}
    {out : List NetworkClientEvent} (hstep : t.step label = some (u, out)) :
    (∀ e ∈ out, ∀ id, peer e = some id → id = serverID) ↔ ¬ AcceptsForeign serverID t label := by
  unfold step at hstep
  split at hstep
  · contradiction
  · cases label with
    | message message taken =>
        have hout : out = (t.handleSignallingMessage message taken).2 := by
          rw [Option.some.inj hstep]
        rw [hout]
        constructor
        · rintro hall ⟨id, hne, haccepts⟩
          rcases exists_peer_iff.mpr haccepts with ⟨e, he, hpeer⟩
          exact hne (hall e he id hpeer)
        · intro hnot e he id hpeer
          by_contra hne
          exact hnot ⟨id, hne, exists_peer_iff.mp ⟨e, he, hpeer⟩⟩
    | negotiate negotiation =>
        have hquiet : ∀ e ∈ out, peer e = none := by
          simp only at hstep
          split at hstep
          · cases hstep
            intro e he
            unfold negotiate at he
            split at he <;> rw [List.mem_singleton.mp he] <;> rfl
          · contradiction
        simp only [AcceptsForeign, not_false_eq_true, iff_true]
        intro e he id hpeer
        rw [hquiet e he] at hpeer
        cases hpeer
    | disconnect =>
        have hquiet : ∀ e ∈ out, peer e = none := by
          have hout : out = t.disconnect.2 := by
            rw [Option.some.inj hstep]
          rw [hout]
          unfold disconnect
          split <;> simp [peer]
        simp only [AcceptsForeign, not_false_eq_true, iff_true]
        intro e he id hpeer
        rw [hquiet e he] at hpeer
        cases hpeer

/-- After {lit}`connect`, the client negotiates only with the server it joined exactly when
it never meets a message of another sender that is an offer, while it has no
connection, or brings something that its connection takes. -/
theorem negotiatesOnlyWith_iff (t : NetworkClient) (localID serverID : PeerID) (opened : Bool)
    {labels : List NetworkClientLabel} {h : List NetworkClientEvent}
    (hrun : system.run (t.connect localID serverID opened).1 labels = some (u, h)) :
    NegotiatesOnlyWith serverID h ↔
      ∀ pre label post, labels = pre ++ label :: post → ∀ v h',
        system.run (t.connect localID serverID opened).1 pre = some (v, h') →
          ¬ AcceptsForeign serverID v label := by
  rw [negotiatesOnlyWith_iff_forall, system.forall_mem_history_iff _ hrun]
  constructor
  · intro hsteps pre label post hsplit v h' hpre
    rw [hsplit] at hrun
    rcases system.run_split_of_prefix hrun hpre with ⟨w, out, _, hstep, _, _⟩
    exact (step_forall_iff hstep).mp (hsteps pre label post hsplit v h' w out hpre hstep)
  · intro hnot pre label post hsplit v h' w out hpre hstep
    exact (step_forall_iff hstep).mpr (hnot pre label post hsplit v h' hpre)

/-- An offer as the signalling server relays it. -/
def offerData (id : GoString) : Json :=
  ({ id := id, type := msgTypeOffer, description := goString "v=0" } : Message).marshal

theorem negotiatesOnlyWith_iff_offer :
    ∃ u h, system.run (init.connect 7 12345 true).1
        [.message (offerData (goString "12345")) true] = some (u, h) ∧
      .created 12345 ∈ h ∧ NegotiatesOnlyWith 12345 h := by
  have hrun : ∃ u, system.run (init.connect 7 12345 true).1
      [.message (offerData (goString "12345")) true] = some (u, [.created 12345,
        .applied 12345 (.description (goString "v=0") (goString "offer"))]) := ⟨_, rfl⟩
  rcases hrun with ⟨u, hrun⟩
  refine ⟨u, _, hrun, by simp, (negotiatesOnlyWith_iff init 7 12345 true hrun).mpr ?_⟩
  intro pre label post hsplit v h' _ haccepts
  have hlabel : label ∈ pre ++ label :: post := List.mem_append_right pre List.mem_cons_self
  rw [← hsplit, List.mem_singleton] at hlabel
  subst hlabel
  rcases haccepts with ⟨id, hne, type, hheader, _⟩
  have hread : readHeader (offerData (goString "12345")) = .ok (12345, goString "offer") := rfl
  rw [hread] at hheader
  cases hheader
  exact hne rfl

/-- A client joins the game server {lit}`12345`, and another game server, {lit}`666`, sends it an
offer. -/
def foreignOfferLabels : List RelayLabel :=
  Relay.joinLabels (goString "7") ++
    [.accept 2 (goString "/connect/666"),
      .handler 2 (.frame (some
        { id := goString "666", type := msgTypeRegister, role := roleServer })),
      .handler 2 .advance, .handler 2 .advance,
      .handler 2 (.frame (some
        { id := goString "7", type := msgTypeOffer, description := goString "v=0" })),
      .handler 2 .advance, .handler 2 .advance, .handler 2 .advance]

/-- The client connects to the wrong server. -/
theorem exists_not_negotiatesOnlyWith :
    ∃ r h u out, Relay.system.run (Relay.init 0) foreignOfferLabels = some (r, h) ∧
      .delivered 2 1 (offerData (goString "666")) ∈ h ∧
      system.run (init.connect 7 12345 true).1
        [.message (offerData (goString "666")) true] = some (u, out) ∧
      ¬ NegotiatesOnlyWith 12345 out := by
  have hrelay : ∃ r, Relay.system.run (Relay.init 0) foreignOfferLabels = some (r,
      Relay.joinHistory (goString "7") ++ [.delivered 1 0 (Relay.joinData (goString "7")),
        .opened 2 (goString "666"),
        .received 2 { id := goString "666", type := msgTypeRegister, role := roleServer },
        .registered 2 (goString "666") roleServer,
        .received 2 { id := goString "7", type := msgTypeOffer, description := goString "v=0" },
        .lookedUp 2 (goString "7"),
        .delivered 2 1 (offerData (goString "666"))]) := ⟨_, rfl⟩
  have hrun : ∃ u, system.run (init.connect 7 12345 true).1
      [.message (offerData (goString "666")) true] = some (u, [.created 666,
        .applied 666 (.description (goString "v=0") (goString "offer"))]) := ⟨_, rfl⟩
  rcases hrelay with ⟨r, hrelay⟩
  rcases hrun with ⟨u, hrun⟩
  refine ⟨r, _, u, _, hrelay, by simp, hrun, fun honly => ?_⟩
  have hcreated := honly.created 666 (by simp)
  contradiction

end NetworkClient

end GameFramework
