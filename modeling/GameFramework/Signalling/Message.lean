import GameFramework.Lib.Json
import GameFramework.Lib.Utf8

/-!
# Signalling messages

The {lit}`Message` record of the signalling server with its type and role constants,
and what {lit}`json.Marshal` makes of it.  Strings are byte strings: an id is taken from
a request path and need not be valid UTF-8, and the JSON encoder repairs strings
that are not.

Main results:

- Definition {lit}`Message.marshal`: the JSON object of a message.
- Theorems {lit}`Message.findString_id` and {lit}`Message.findString_type`: the members
  that every encoded message has.
-/

namespace GameFramework

/-- Go strings are byte strings. -/
abbrev GoString := List UInt8

/-- The bytes of an ASCII literal. -/
def goString (s : String) : GoString :=
  s.toList.map fun c => UInt8.ofNat c.toNat

abbrev PeerRole := GoString

/-- {lit}`RoleClient` -/
def roleClient : PeerRole := goString "client"

/-- {lit}`RoleServer` -/
def roleServer : PeerRole := goString "server"

structure Message where
  id : GoString
  type : GoString
  role : PeerRole := []
  description : GoString := []
  candidate : GoString := []
  mid : GoString := []
  name : GoString := []
  maxPlayers : Int := 0
  gameMode : GoString := []
  deriving DecidableEq

/-- {lit}`MsgTypeOffer` -/
def msgTypeOffer : GoString := goString "offer"

/-- {lit}`MsgTypeAnswer` -/
def msgTypeAnswer : GoString := goString "answer"

/-- {lit}`MsgTypeCandidate` -/
def msgTypeCandidate : GoString := goString "candidate"

/-- {lit}`MsgTypeRegister` -/
def msgTypeRegister : GoString := goString "register"

/-- {lit}`MsgTypeJoin` -/
def msgTypeJoin : GoString := goString "join"

def validateMessageType (t : GoString) : Bool :=
  t == msgTypeOffer || t == msgTypeAnswer || t == msgTypeCandidate || t == msgTypeRegister ||
    t == msgTypeJoin

namespace Message

/-- A string as the encoder writes it. -/
def encodeString (s : GoString) : Json :=
  .str (Utf8.coerce s)

/-- A string member with {lit}`omitempty`. -/
def optionalString (name : String) (s : GoString) : List (GoString × Json) :=
  if s = [] then [] else [(goString name, encodeString s)]

/-- {lit}`json.Marshal` of a message. -/
def marshal (msg : Message) : Json :=
  .obj ((goString "id", encodeString msg.id) :: (goString "type", encodeString msg.type) ::
    (optionalString "role" msg.role ++ optionalString "description" msg.description ++
      optionalString "candidate" msg.candidate ++ optionalString "mid" msg.mid ++
      optionalString "name" msg.name ++
      (if msg.maxPlayers = 0 then [] else [(goString "max_players", .number msg.maxPlayers)]) ++
      optionalString "game_mode" msg.gameMode))

theorem findString_id (msg : Message) :
    msg.marshal.findString (goString "id") = some (Utf8.coerce msg.id) := by
  simp [Json.findString, marshal, encodeString]

theorem findString_type (msg : Message) :
    msg.marshal.findString (goString "type") = some (Utf8.coerce msg.type) := by
  have hne : goString "type" ≠ goString "id" := by decide
  rw [Json.findString, marshal, Json.find_obj_cons_of_ne hne]
  simp [encodeString]

end Message

/-- The message types are ASCII: the encoder does not change them. -/
theorem coerce_of_validateMessageType {t : GoString} (h : validateMessageType t = true) :
    Utf8.coerce t = t := by
  have hcases : t = msgTypeOffer ∨ t = msgTypeAnswer ∨ t = msgTypeCandidate ∨
      t = msgTypeRegister ∨ t = msgTypeJoin := by
    simpa [validateMessageType, or_assoc] using h
  rcases hcases with rfl | rfl | rfl | rfl | rfl <;> decide

end GameFramework
