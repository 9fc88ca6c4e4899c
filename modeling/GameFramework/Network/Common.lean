import GameFramework.Game.Components
import GameFramework.Lib.Decimal
import GameFramework.Signalling.Message

/-!
# Signalling messages of the game

What the network server and the network client share: reading a signalling message,
whose sender id is a decimal numeral for them, and the messages that they send.

Reading fails in three ways.  The handler logs an error and returns; an exception
that it does not catch leaves it; or {lit}`operator[]` is applied to a constant JSON value
without the member, which the JSON library leaves undefined.

Main results:

- Definitions {lit}`readHeader` and {lit}`handOver`: the two ends of both message handlers.
- Theorem {lit}`readHeader_eq_ok_iff`: which messages have a sender and a type.
- Theorem {lit}`Negotiation.findString_id_message`: negotiation messages are addressed by
  the decimal numeral of an id.
-/

namespace GameFramework

/-- {lit}`std::string` is a byte string. -/
abbrev StdString := List UInt8

/-- Exceptions that leave a message handler. -/
inductive UncaughtException where
  /-- {lit}`nlohmann::json::type_error`, from {lit}`get<std::string>` of another value. -/
  | typeError
  /-- {lit}`std::out_of_range`, from {lit}`std::stoull`. -/
  | outOfRange
  /-- A peer connection refuses a description or a candidate. -/
  | refused
  deriving DecidableEq

/-- How a message handler is left early. -/
inductive Failure where
  | logged (text : StdString)
  | threw (exception : UncaughtException)
  | undefined
  deriving DecidableEq

/-! ## Reading -/

/-- {lit}`value.get<std::string>()` -/
def getStdString (value : Json) : Except Failure StdString :=
  match value.getString with
  | some s => .ok s
  | none => .error (.threw .typeError)

/-- The sender of a message. -/
def readId (message : Json) : Except Failure PeerID :=
  match message.find (goString "id") with
  | none => .error (.logged (goString "Message missing 'id' field"))
  | some value => do
      let s ← getStdString value
      match Decimal.stoull s with
      | .ok id => .ok id
      | .error .invalidArgument => .error (.logged (goString "Invalid peer ID in message"))
      | .error .outOfRange => .error (.threw .outOfRange)

def readType (message : Json) : Except Failure StdString :=
  match message.find (goString "type") with
  | none => .error (.logged (goString "Message missing 'type' field"))
  | some value => getStdString value

/-- Sender and type of a message. -/
def readHeader (message : Json) : Except Failure (PeerID × StdString) := do
  let id ← readId message
  let type ← readType message
  .ok (id, type)

/-- {lit}`message[name].get<std::string>()` -/
def getMember (message : Json) (name : StdString) : Except Failure StdString :=
  match message.find name with
  | none => .error .undefined
  | some value => getStdString value

/-- What a message brings to a peer connection. -/
inductive Remote where
  | description (sdp type : StdString)
  | candidate (candidate mid : StdString)

def readRemote (message : Json) (type : StdString) : Except Failure (Option Remote) :=
  if type = goString "offer" ∨ type = goString "answer" then do
    let sdp ← getMember message (goString "description")
    .ok (some (.description sdp type))
  else if type = goString "candidate" then do
    let candidate ← getMember message (goString "candidate")
    let mid ← getMember message (goString "mid")
    .ok (some (.candidate candidate mid))
  else .ok none

/-- The last statements of a handler: {lit}`setRemoteDescription` or
{lit}`addRemoteCandidate`, which the peer connection takes or refuses. -/
def handOver (message : Json) (type : StdString) (taken : Bool) :
    Except Failure (Option Remote) := do
  match ← readRemote message type with
  | none => .ok none
  | some remote => if taken then .ok (some remote) else .error (.threw .refused)

/-- The error for a message from a peer without a connection. -/
def noConnection (id : PeerID) (type : StdString) : Failure :=
  .logged (goString "No connection exists for peer " ++ Decimal.toString id ++
    goString " and type is " ++ type)

theorem readId_eq_ok_iff {message : Json} {id : PeerID} :
    readId message = .ok id ↔
      ∃ s, message.findString (goString "id") = some s ∧ Decimal.stoull s = .ok id := by
  unfold readId Json.findString
  cases message.find (goString "id") with
  | none => simp
  | some value =>
      cases hvalue : value.getString with
      | none => simp [getStdString, hvalue, bind, Except.bind]
      | some s =>
          simp only [getStdString, hvalue, bind, Except.bind, Option.bind, Option.some.injEq,
            exists_eq_left']
          split <;> rename_i heq <;> simp [heq]

theorem readType_eq_ok_iff {message : Json} {type : StdString} :
    readType message = .ok type ↔ message.findString (goString "type") = some type := by
  unfold readType Json.findString
  cases message.find (goString "type") with
  | none => simp
  | some value =>
      cases hvalue : value.getString with
      | none => simp [getStdString, hvalue]
      | some s => simp [getStdString, hvalue]

theorem getMember_eq_ok_iff {message : Json} {name s : StdString} :
    getMember message name = .ok s ↔ message.findString name = some s := by
  unfold getMember Json.findString
  cases message.find name with
  | none => simp
  | some value =>
      cases hvalue : value.getString with
      | none => simp [getStdString, hvalue]
      | some s' => simp [getStdString, hvalue]

/-- The messages that pass the first two checks of the handlers. -/
theorem readHeader_eq_ok_iff {message : Json} {id : PeerID} {type : StdString} :
    readHeader message = .ok (id, type) ↔
      readId message = .ok id ∧ readType message = .ok type := by
  unfold readHeader
  cases readId message with
  | error failure => simp [bind, Except.bind]
  | ok id' =>
      cases readType message with
      | error failure => simp [bind, Except.bind]
      | ok type' => simp [bind, Except.bind]

/-- Where the header fails. -/
theorem readHeader_eq_error_iff {message : Json} {failure : Failure} :
    readHeader message = .error failure ↔ readId message = .error failure ∨
      ∃ id, readId message = .ok id ∧ readType message = .error failure := by
  unfold readHeader
  cases readId message with
  | error failure' => simp [bind, Except.bind]
  | ok id =>
      cases readType message with
      | error failure' => simp [bind, Except.bind]
      | ok type => simp [bind, Except.bind]

/-- A connection is handed exactly what a message brings, if it takes it. -/
theorem handOver_eq_ok_some_iff {message : Json} {type : StdString} {taken : Bool}
    {remote : Remote} :
    handOver message type taken = .ok (some remote) ↔
      readRemote message type = .ok (some remote) ∧ taken = true := by
  unfold handOver
  cases readRemote message type with
  | error failure => simp [bind, Except.bind]
  | ok brought =>
      cases brought with
      | none => simp [bind, Except.bind]
      | some remote' => cases taken <;> simp [bind, Except.bind]

/-! ## Sending -/

/-- Numerals are ASCII: the JSON encoder of the signalling server does not change
them. -/
theorem coerce_toString (id : PeerID) :
    Utf8.coerce (Decimal.toString id) = Decimal.toString id := by
  refine (Utf8.coerce_eq_self_iff _).mpr (Utf8.valid_of_forall_lt fun b hb => ?_)
  have hdigit := Decimal.forall_isDigit_render id.toNat b hb
  simp only [Decimal.isDigit, Bool.and_eq_true, decide_eq_true_eq] at hdigit
  exact UInt8.lt_of_le_of_lt hdigit.2 (by decide)

/-- What a peer connection wants to tell the other side. -/
inductive Negotiation where
  | localDescription (typeString description : StdString)
  | localCandidate (candidate mid : StdString)

namespace Negotiation

/-- The message of {lit}`onLocalDescription` or {lit}`onLocalCandidate`. -/
def message (id : PeerID) : Negotiation → Json
  | localDescription typeString description =>
      .obj [(goString "id", .str (Decimal.toString id)), (goString "type", .str typeString),
        (goString "description", .str description)]
  | localCandidate candidate mid =>
      .obj [(goString "id", .str (Decimal.toString id)),
        (goString "type", .str (goString "candidate")),
        (goString "candidate", .str candidate), (goString "mid", .str mid)]

/-- The error when the callbacks have captured no websocket. -/
def closedError : Negotiation → Failure
  | localDescription typeString _ =>
      .logged (goString "WebSocket is closed, cannot send " ++ typeString)
  | localCandidate _ _ => .logged (goString "WebSocket is closed, cannot send candidate")

/-- Both kinds of message are addressed the same way. -/
theorem findString_id_message (id : PeerID) (negotiation : Negotiation) :
    (negotiation.message id).findString (goString "id") = some (Decimal.toString id) := by
  cases negotiation <;> simp [message, Json.findString]

end Negotiation

/-- A peer connection, as the values that its callbacks have captured. -/
structure PeerConnection where
  id : PeerID
  /-- The signalling websocket was not null. -/
  ws : Bool

end GameFramework
