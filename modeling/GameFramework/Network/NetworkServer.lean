import GameFramework.Lib.Transition
import GameFramework.Network.Common
import GameFramework.Signalling.PeerManager
import Mathlib.Logic.Function.Basic

/-!
# The network server

{lit}`NetworkServer` of the game: it registers at the signalling server and keeps one
peer connection for every client, in a map that is keyed by the client's numeric id.

A label is one call: of the public methods, of the message handler, or of a callback
of a peer connection.  The message handler does not learn which connection of the
signalling server a message came from; the label and the events name it for the
statements about senders.

Main results:

- Theorem {lit}`NetworkServer.handle_creates`: which entries the message handler makes.
- Theorem {lit}`NetworkServer.of_senderKey_eq_some`: an entry is created and used by messages
  whose id reads as its key.
- Theorem {lit}`NetworkServer.findString_id_of_sent`: what an entry sends is addressed by the
  numeral of its key.
-/

namespace GameFramework

structure NetworkServer where
  running : Bool
  localID : PeerID
  /-- {lit}`m_signallingWebsocket` is not null. -/
  signallingWebsocket : Bool
  clients : PeerID → Option PeerConnection
  /-- Undefined behaviour has occurred; nothing is known from there on. -/
  undefined : Bool

inductive NetworkServerLabel where
  | start
  /-- The network thread connects; the websocket opens in time or does not. -/
  | startSignallingWebsocket (opened : Bool)
  /-- The peer connection takes or refuses what the message brings, if anything. -/
  | message (sender : Conn) (message : Json) (taken : Bool)
  | negotiate (key : PeerID) (negotiation : Negotiation)
  | stop

inductive NetworkServerEvent where
  | registered (message : Json)
  | failed (failure : Failure)
  | created (sender : Conn) (key : PeerID)
  | handled (sender : Conn) (key : PeerID)
  | applied (sender : Conn) (key : PeerID) (remote : Remote)
  | sent (key : PeerID) (message : Json)

namespace NetworkServer

/-- The constructor. -/
def init : NetworkServer where
  running := false
  localID := 0
  signallingWebsocket := false
  clients _ := none
  undefined := false

/-- The message that registers a game server. -/
def registerMsg (localID : PeerID) : Json :=
  .obj [(goString "id", .str (Decimal.toString localID)),
    (goString "type", .str (goString "register")), (goString "role", .str (goString "server")),
    (goString "name", .str (goString "Server " ++ Decimal.toString localID)),
    (goString "max_players", .number 32), (goString "game_mode", .str (goString "default"))]

def startSignallingWebsocket (t : NetworkServer) (opened : Bool) :
    NetworkServer × List NetworkServerEvent :=
  let t := { t with localID := 12345, signallingWebsocket := true }
  (t, if opened then [.registered (registerMsg t.localID)] else [])

def createClientConnection (t : NetworkServer) (id : PeerID) : NetworkServer :=
  { t with clients := Function.update t.clients id (some ⟨id, t.signallingWebsocket⟩) }

/-- Leave the handler. -/
def fail (t : NetworkServer) (failure : Failure) : NetworkServer × List NetworkServerEvent :=
  ({ t with undefined := t.undefined || decide (failure = .undefined) }, [.failed failure])

/-- The end of the handler, once it has the peer connection of an entry. -/
def finish (t : NetworkServer) (sender : Conn) (id : PeerID)
    (outcome : Except Failure (Option Remote)) : NetworkServer × List NetworkServerEvent :=
  match outcome with
  | .error failure =>
      let (t, out) := t.fail failure
      (t, .handled sender id :: out)
  | .ok none => (t, [.handled sender id])
  | .ok (some remote) => (t, [.handled sender id, .applied sender id remote])

def handleSignallingMessage (t : NetworkServer) (sender : Conn) (message : Json) (taken : Bool) :
    NetworkServer × List NetworkServerEvent :=
  match readHeader message with
  | .error failure => t.fail failure
  | .ok (id, type) =>
      match t.clients id with
      | some _ => t.finish sender id (handOver message type taken)
      | none =>
          if type = goString "offer" ∨ type = goString "join" then
            let t := t.createClientConnection id
            match t.clients id with
            | some _ =>
                let (t, out) := t.finish sender id (handOver message type taken)
                (t, .created sender id :: out)
            | none =>
                (t, [.created sender id,
                  .failed (.logged (goString "Failed to find newly created connection"))])
          else t.fail (noConnection id type)

/-- The callbacks {lit}`onLocalDescription` and {lit}`onLocalCandidate` of an entry's peer
connection. -/
def negotiate (key : PeerID) (pc : PeerConnection) (negotiation : Negotiation) :
    List NetworkServerEvent :=
  if pc.ws then [.sent key (negotiation.message pc.id)] else [.failed negotiation.closedError]

def step (t : NetworkServer) (label : NetworkServerLabel) :
    Option (NetworkServer × List NetworkServerEvent) :=
  if t.undefined then none
  else
    match label with
    | .start => some ({ t with running := true }, [])
    | .startSignallingWebsocket opened =>
        if t.running then some (t.startSignallingWebsocket opened) else none
    | .message sender message taken =>
        if t.signallingWebsocket then some (t.handleSignallingMessage sender message taken)
        else none
    | .negotiate key negotiation =>
        match t.clients key with
        | some pc => some (t, negotiate key pc negotiation)
        | none => none
    | .stop =>
        if !t.running then some (t, [])
        else some ({ t with running := false, clients := fun _ => none }, [])

/-- The network server as a labelled system. -/
def system : Labelled.System NetworkServer NetworkServerLabel NetworkServerEvent where
  step := step

/-! ## What the message handler does -/

/-- The sender and the entry of an event about an entry. -/
def senderKey : NetworkServerEvent → Option (Conn × PeerID)
  | .created sender key | .handled sender key | .applied sender key _ => some (sender, key)
  | .registered _ | .failed _ | .sent _ _ => none

/-- The key of a new entry. -/
def createdKey : NetworkServerEvent → Option PeerID
  | .created _ key => some key
  | _ => none

variable {t v : NetworkServer} {sender : Conn} {id : PeerID} {message : Json} {taken : Bool}
  {out : List NetworkServerEvent} {e : NetworkServerEvent}

/-- The end of the handler leaves the entries alone. -/
theorem clients_finish (t : NetworkServer) (sender : Conn) (id : PeerID)
    (outcome : Except Failure (Option Remote)) :
    (t.finish sender id outcome).1.clients = t.clients := by
  unfold finish fail
  split <;> rfl

theorem findSome_createdKey_finish (t : NetworkServer) (sender : Conn) (id : PeerID)
    (outcome : Except Failure (Option Remote)) :
    (t.finish sender id outcome).2.findSome? createdKey = none := by
  unfold finish
  split <;> rfl

/-- The new entry has captured its key and the websocket. -/
theorem clients_createClientConnection_self (t : NetworkServer) (id : PeerID) :
    (t.createClientConnection id).clients id = some ⟨id, t.signallingWebsocket⟩ :=
  Function.update_self _ _ _

/-- The end of the handler is about one entry. -/
theorem of_mem_finish {outcome : Except Failure (Option Remote)}
    (he : e ∈ (t.finish sender id outcome).2) :
    senderKey e = some (sender, id) ∨ ∃ failure, e = .failed failure := by
  unfold finish fail at he
  split at he
  · rcases List.mem_cons.mp he with rfl | he
    · exact Or.inl rfl
    · exact Or.inr ⟨_, List.mem_singleton.mp he⟩
  · rw [List.mem_singleton.mp he]
    exact Or.inl rfl
  · rcases List.mem_cons.mp he with rfl | he
    · exact Or.inl rfl
    · rw [List.mem_singleton.mp he]
      exact Or.inl rfl

/-- The events of the handler are errors or about the entry of the message's id. -/
theorem of_mem_handleSignallingMessage
    (he : e ∈ (t.handleSignallingMessage sender message taken).2) :
    (∃ key, readId message = .ok key ∧ senderKey e = some (sender, key)) ∨
      ∃ failure, e = .failed failure := by
  unfold handleSignallingMessage at he
  split at he
  · exact Or.inr ⟨_, List.mem_singleton.mp he⟩
  · rename_i key type hheader
    have hid := (readHeader_eq_ok_iff.mp hheader).1
    have hfinish : ∀ {u : NetworkServer} {outcome : Except Failure (Option Remote)},
        e ∈ (u.finish sender key outcome).2 →
          (∃ key, readId message = .ok key ∧ senderKey e = some (sender, key)) ∨
            ∃ failure, e = .failed failure := by
      intro u outcome he
      rcases of_mem_finish he with hkey | hfailed
      · exact Or.inl ⟨key, hid, hkey⟩
      · exact Or.inr hfailed
    split at he
    · exact hfinish he
    · split at he
      · simp only at he
        split at he
        · rcases List.mem_cons.mp he with rfl | he
          · exact Or.inl ⟨key, hid, rfl⟩
          · exact hfinish he
        · rcases List.mem_cons.mp he with rfl | he
          · exact Or.inl ⟨key, hid, rfl⟩
          · exact Or.inr ⟨_, List.mem_singleton.mp he⟩
      · exact Or.inr ⟨_, List.mem_singleton.mp he⟩

/-- The handler makes no entry, or the one of the message's id.  A join finds or makes the
entry of its sender. -/
theorem handle_creates (t : NetworkServer) (sender : Conn) (message : Json) (taken : Bool) :
    ((t.handleSignallingMessage sender message taken).1.clients = t.clients ∧
        (t.handleSignallingMessage sender message taken).2.findSome? createdKey = none ∧
        ∀ p, readHeader message = .ok (p, goString "join") → t.clients p ≠ none) ∨
      ∃ id, t.clients id = none ∧ readId message = .ok id ∧
        (t.handleSignallingMessage sender message taken).1.clients =
          (t.createClientConnection id).clients ∧
        (t.handleSignallingMessage sender message taken).2.findSome? createdKey = some id := by
  unfold handleSignallingMessage
  cases hheader : readHeader message with
  | error failure => exact Or.inl ⟨rfl, rfl, fun p hp => by cases hp⟩
  | ok header =>
      rcases header with ⟨id, type⟩
      dsimp only
      cases hentry : t.clients id with
      | some pc =>
          refine Or.inl ⟨clients_finish t sender id _, findSome_createdKey_finish t sender id _, ?_⟩
          intro p hp
          cases hp
          rw [hentry]
          exact Option.some_ne_none pc
      | none =>
          by_cases htype : type = goString "offer" ∨ type = goString "join"
          · simp only [if_pos htype, clients_createClientConnection_self]
            exact Or.inr ⟨id, hentry, (readHeader_eq_ok_iff.mp hheader).1,
              clients_finish (t.createClientConnection id) sender id _, rfl⟩
          · simp only [if_neg htype]
            refine Or.inl ⟨rfl, rfl, fun p hp => ?_⟩
            cases hp
            exact absurd (Or.inr rfl) htype

/-! ## The kinds of steps -/

inductive StepCase (t v : NetworkServer) : NetworkServerLabel → List NetworkServerEvent → Prop
  | quiet (label : NetworkServerLabel) (hclients : v.clients = t.clients) : StepCase t v label []
  | registered (opened : Bool) (hclients : v.clients = t.clients) :
      StepCase t v (.startSignallingWebsocket opened) [.registered (registerMsg v.localID)]
  | message (sender : Conn) (message : Json) (taken : Bool)
      (hclients : v.clients = (t.handleSignallingMessage sender message taken).1.clients) :
      StepCase t v (.message sender message taken)
        (t.handleSignallingMessage sender message taken).2
  | negotiated (key : PeerID) (pc : PeerConnection) (negotiation : Negotiation)
      (hentry : t.clients key = some pc) (hclients : v.clients = t.clients) :
      StepCase t v (.negotiate key negotiation) (negotiate key pc negotiation)
  | stopped (hclients : v.clients = fun _ => none) : StepCase t v .stop []

/-- What each call does to the entries. -/
theorem step_cases {label : NetworkServerLabel} (hstep : t.step label = some (v, out)) :
    StepCase t v label out := by
  unfold step at hstep
  split at hstep
  · contradiction
  · cases label with
    | start =>
        cases hstep
        exact .quiet _ rfl
    | startSignallingWebsocket opened =>
        simp only at hstep
        split at hstep
        · cases hstep
          cases opened with
          | false => exact .quiet _ rfl
          | true => exact .registered true rfl
        · contradiction
    | message sender message taken =>
        simp only at hstep
        split at hstep
        · have hresult : t.handleSignallingMessage sender message taken = (v, out) :=
            Option.some.inj hstep
          have hcase : StepCase t v (.message sender message taken)
              (t.handleSignallingMessage sender message taken).2 :=
            .message sender message taken (by rw [hresult])
          rwa [hresult] at hcase
        · contradiction
    | negotiate key negotiation =>
        simp only at hstep
        split at hstep
        · rename_i pc hentry
          cases hstep
          exact .negotiated key pc negotiation hentry rfl
        · contradiction
    | stop =>
        simp only at hstep
        split at hstep
        · cases hstep
          exact .quiet _ rfl
        · cases hstep
          exact .stopped rfl

/-! ## Keys -/

/-- Every peer connection has captured the key of its entry. -/
def Keyed (t : NetworkServer) : Prop :=
  ∀ key pc, t.clients key = some pc → pc.id = key

theorem Keyed.of_clients_eq (hkeyed : Keyed t) (hclients : v.clients = t.clients) : Keyed v := by
  intro key pc hentry
  rw [hclients] at hentry
  exact hkeyed key pc hentry

/-- A new entry is stored under the id that it is made for. -/
theorem Keyed.createClientConnection (hkeyed : Keyed t) (id : PeerID) :
    Keyed (t.createClientConnection id) := by
  intro key pc hentry
  simp only [NetworkServer.createClientConnection] at hentry
  by_cases hkey : key = id
  · subst hkey
    rw [Function.update_self] at hentry
    rw [← Option.some.inj hentry]
  · rw [Function.update_of_ne hkey] at hentry
    exact hkeyed key pc hentry

/-- Every call keeps entries under their ids. -/
theorem keyed_step {label : NetworkServerLabel} (hkeyed : Keyed t)
    (hcase : StepCase t v label out) : Keyed v := by
  cases hcase with
  | quiet label hclients => exact hkeyed.of_clients_eq hclients
  | registered opened hclients => exact hkeyed.of_clients_eq hclients
  | message sender message taken hclients =>
      rcases handle_creates t sender message taken with ⟨hsame, _, _⟩ | ⟨id, _, _, hnew, _⟩
      · exact hkeyed.of_clients_eq (hclients.trans hsame)
      · exact (hkeyed.createClientConnection id).of_clients_eq (hclients.trans hnew)
  | negotiated key pc negotiation hentry hclients => exact hkeyed.of_clients_eq hclients
  | stopped hclients =>
      intro key pc hentry
      rw [hclients] at hentry
      cases hentry

/-- So every reachable game server has its entries under their ids. -/
theorem keyed_of_reachable {labels : List NetworkServerLabel}
    (hrun : system.run init labels = some (t, out)) : Keyed t := by
  refine system.run_invariant (fun t _ => Keyed t) ?_ ?_ hrun
  · intro key pc hentry
    cases hentry
  · intro t h label v out hkeyed hstep
    exact keyed_step hkeyed (step_cases hstep)

/-! ## Events and the labels that cause them -/

/-- Entries are created and used by messages only, whose id reads as the key. -/
theorem of_senderKey_eq_some {label : NetworkServerLabel} {key : PeerID}
    (hcase : StepCase t v label out) (he : e ∈ out) (hkey : senderKey e = some (sender, key)) :
    ∃ message taken, label = .message sender message taken ∧ readId message = .ok key := by
  cases hcase with
  | quiet label _ => cases he
  | registered opened _ =>
      rw [List.mem_singleton.mp he] at hkey
      cases hkey
  | message sender' message taken _ =>
      rcases of_mem_handleSignallingMessage he with ⟨key', hid, hkey'⟩ | ⟨failure, rfl⟩
      · rw [hkey] at hkey'
        cases hkey'
        exact ⟨message, taken, rfl, hid⟩
      · cases hkey
  | negotiated key' pc negotiation _ _ =>
      unfold negotiate at he
      split at he <;> rw [List.mem_singleton.mp he] at hkey <;> cases hkey
  | stopped _ => cases he

/-- Only the peer connections of entries send, addressed by the captured id. -/
theorem of_mem_sent {label : NetworkServerLabel} {key : PeerID} {data : Json}
    (hcase : StepCase t v label out) (he : .sent key data ∈ out) :
    ∃ pc negotiation, t.clients key = some pc ∧
      data = Negotiation.message pc.id negotiation := by
  cases hcase with
  | quiet label _ => cases he
  | registered opened _ => simp at he
  | message sender message taken _ =>
      rcases of_mem_handleSignallingMessage he with ⟨_, _, hkey⟩ | ⟨_, hfailed⟩
      · cases hkey
      · cases hfailed
  | negotiated key' pc negotiation hentry _ =>
      unfold negotiate at he
      split at he
      · simp only [List.mem_singleton, NetworkServerEvent.sent.injEq] at he
        rcases he with ⟨rfl, rfl⟩
        exact ⟨pc, negotiation, hentry, rfl⟩
      · simp at he
  | stopped _ => cases he

/-- Whatever an entry sends is addressed by the numeral of its key. -/
theorem findString_id_of_sent {labels : List NetworkServerLabel} {h : List NetworkServerEvent}
    {key : PeerID} {data : Json} (hrun : system.run init labels = some (t, h))
    (hsent : .sent key data ∈ h) :
    data.findString (goString "id") = some (Decimal.toString key) := by
  rcases system.exists_step_of_mem hrun hsent with
    ⟨pre, label, post, u, v, h', out, _, hpre, hstep, hmem⟩
  rcases of_mem_sent (step_cases hstep) hmem with ⟨pc, negotiation, hentry, rfl⟩
  rw [Negotiation.findString_id_message, keyed_of_reachable hpre key pc hentry]

/-- An event about an entry was caused by a message of the run whose id reads as the
key. -/
theorem exists_message_of_senderKey {labels : List NetworkServerLabel}
    {h : List NetworkServerEvent} {key : PeerID} (hrun : system.run init labels = some (t, h))
    (he : e ∈ h) (hkey : senderKey e = some (sender, key)) :
    ∃ message taken, .message sender message taken ∈ labels ∧ readId message = .ok key := by
  rcases system.exists_step_of_mem hrun he with
    ⟨pre, label, post, u, v, h', out, hlabels, _, hstep, hmem⟩
  rcases of_senderKey_eq_some (step_cases hstep) hmem hkey with ⟨message, taken, rfl, hid⟩
  exact ⟨message, taken, by simp [hlabels], hid⟩

end NetworkServer

end GameFramework
