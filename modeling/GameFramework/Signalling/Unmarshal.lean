import GameFramework.Signalling.Authenticity

/-!
# Decoding and encoding at the relay

{lit}`json.Unmarshal` into a {lit}`Message`, and how the members of what {lit}`json.Marshal`
writes are found again.  Unmarshalling goes through the members of an object in
order, finds the field by its name or, failing that, by its name up to case, and
fails when a value does not fit its field; {lit}`null` leaves a field alone.

Main results:

- Definition {lit}`Message.unmarshal`.
- Theorem {lit}`Message.find_omitempty`: an {lit}`omitempty` member of an encoded message
  is there exactly when it is not empty.
- Theorem {lit}`Relay.data_of_delivered`: what a handler delivers is the encoding of the last
  message it received, with its own id.
-/

namespace GameFramework

namespace Message

/-! ## Decoding -/

/-- The JSON names of the fields. -/
def fieldNames : List GoString :=
  [goString "id", goString "type", goString "role", goString "description",
    goString "candidate", goString "mid", goString "name", goString "max_players",
    goString "game_mode"]

/-- A name in lower case, as far as field names are concerned: ASCII letters, and the two
other characters that fold to one. -/
def foldName : GoString → GoString
  | 0xC5 :: 0xBF :: rest => 0x73 :: foldName rest
  | 0xE2 :: 0x84 :: 0xAA :: rest => 0x6B :: foldName rest
  | b :: rest => (if 0x41 ≤ b ∧ b ≤ 0x5A then b + 0x20 else b) :: foldName rest
  | [] => []

/-- The field that a member is for. -/
def fieldOf (key : GoString) : Option GoString :=
  if fieldNames.contains key then some key
  else if fieldNames.contains (foldName key) then some (foldName key)
  else none

/-- The message with a string field set. -/
def setString (msg : Message) (field s : GoString) : Message :=
  if field = goString "id" then { msg with id := s }
  else if field = goString "type" then { msg with type := s }
  else if field = goString "role" then { msg with role := s }
  else if field = goString "description" then { msg with description := s }
  else if field = goString "candidate" then { msg with candidate := s }
  else if field = goString "mid" then { msg with mid := s }
  else if field = goString "name" then { msg with name := s }
  else { msg with gameMode := s }

/-- A value for the one field that is an {lit}`int`; {lit}`none` is a value of the wrong type or
size. -/
def storeInt (msg : Message) : Json → Option Message
  | .number n => if -2 ^ 63 ≤ n ∧ n < 2 ^ 63 then some { msg with maxPlayers := n } else none
  | .null => some msg
  | _ => none

/-- A value for a string field; {lit}`none` is a value of the wrong type. -/
def storeString (msg : Message) (field : GoString) : Json → Option Message
  | .str s => some (msg.setString field (Utf8.coerce s))
  | .null => some msg
  | _ => none

/-- A member is stored in its field. -/
def store (msg : Message) (field : GoString) (value : Json) : Option Message :=
  if field = goString "max_players" then msg.storeInt value else msg.storeString field value

/-- The members of an object, in order. -/
def storeAll (msg : Message) : List (GoString × Json) → Option Message
  | [] => some msg
  | (key, value) :: members =>
      match fieldOf (Utf8.coerce key) with
      | none => storeAll msg members
      | some field =>
          match msg.store field value with
          | none => none
          | some msg' => storeAll msg' members

/-- {lit}`json.Unmarshal` into a zero message; {lit}`none` is an error. -/
def unmarshal : Json → Option Message
  | .obj members => storeAll { id := [], type := [] } members
  | .null => some { id := [], type := [] }
  | _ => none

/-! ## Members of an encoded message -/

/-- Another member is looked up behind an {lit}`omitempty` one. -/
theorem lookup_optionalString_of_ne {name : String} {name' : GoString}
    (h : name' ≠ goString name) (s : GoString) (rest : List (GoString × Json)) :
    (optionalString name s ++ rest).lookup name' = rest.lookup name' := by
  unfold optionalString
  split
  · rfl
  · have hne : (name' == goString name) = false := by simpa using h
    rw [List.singleton_append, List.lookup_cons, hne]

/-- An {lit}`omitempty` member is there when it is not empty. -/
theorem lookup_optionalString_self (name : String) (s : GoString)
    (rest : List (GoString × Json)) :
    (optionalString name s ++ rest).lookup (goString name) =
      if s = [] then rest.lookup (goString name) else some (encodeString s) := by
  unfold optionalString
  split
  · rfl
  · simp

/-- An omitted member hides no other one. -/
theorem lookup_maxPlayers_of_ne {name' : GoString} (h : name' ≠ goString "max_players") (n : Int)
    (rest : List (GoString × Json)) :
    ((if n = 0 then [] else [(goString "max_players", Json.number n)]) ++ rest).lookup name' =
      rest.lookup name' := by
  split
  · rfl
  · have hne : (name' == goString "max_players") = false := by simpa using h
    rw [List.singleton_append, List.lookup_cons, hne]

/-- The members behind id and type. -/
theorem find_marshal_of_ne (msg : Message) {name : GoString} (hid : name ≠ goString "id")
    (htype : name ≠ goString "type") :
    msg.marshal.find name =
      (optionalString "role" msg.role ++ (optionalString "description" msg.description ++
        (optionalString "candidate" msg.candidate ++ (optionalString "mid" msg.mid ++
          (optionalString "name" msg.name ++
            ((if msg.maxPlayers = 0 then [] else
              [(goString "max_players", Json.number msg.maxPlayers)]) ++
                (optionalString "game_mode" msg.gameMode ++ []))))))).lookup name := by
  rw [marshal, Json.find_obj_cons_of_ne hid, Json.find_obj_cons_of_ne htype, Json.find]
  simp only [List.append_assoc, List.append_nil]

/-- The {lit}`omitempty` string members. -/
def omitempty (msg : Message) : List (String × GoString) :=
  [("role", msg.role), ("description", msg.description), ("candidate", msg.candidate),
    ("mid", msg.mid), ("name", msg.name), ("game_mode", msg.gameMode)]

/-- An {lit}`omitempty` member of an encoded message is there when it is not empty. -/
theorem find_omitempty (msg : Message) {name : String} {s : GoString}
    (h : (name, s) ∈ msg.omitempty) :
    msg.marshal.find (goString name) = if s = [] then none else some (encodeString s) := by
  simp only [omitempty, List.mem_cons, Prod.mk.injEq, List.not_mem_nil, or_false] at h
  rcases h with ⟨rfl, rfl⟩ | ⟨rfl, rfl⟩ | ⟨rfl, rfl⟩ | ⟨rfl, rfl⟩ | ⟨rfl, rfl⟩ | ⟨rfl, rfl⟩
  all_goals
    rw [find_marshal_of_ne msg (by decide) (by decide)]
    simp (disch := decide) only [lookup_optionalString_of_ne, lookup_optionalString_self,
      lookup_maxPlayers_of_ne, List.lookup_nil]

end Message

namespace Relay

/-! ## What a handler delivers -/

/-- There is one last message. -/
theorem LastReceived.unique {h : List RelayEvent} {c : Conn} {msg msg' : Message}
    (hlast : LastReceived h c msg) (hlast' : LastReceived h c msg') : msg = msg' := by
  rcases hlast with ⟨a, b, rfl, hb⟩
  rcases hlast' with ⟨a', b', hsplit, hb'⟩
  rcases List.append_eq_append_iff.mp hsplit with ⟨x, _, htail⟩ | ⟨x, _, htail⟩
  · cases x with
    | nil =>
        rw [List.nil_append, List.cons.injEq] at htail
        cases htail.1
        rfl
    | cons e x =>
        rw [List.cons_append, List.cons.injEq] at htail
        exact absurd (htail.2 ▸ List.mem_append_right x List.mem_cons_self) (hb msg')
  · cases x with
    | nil =>
        rw [List.nil_append, List.cons.injEq] at htail
        cases htail.1
        rfl
    | cons e x =>
        rw [List.cons_append, List.cons.injEq] at htail
        exact absurd (htail.2 ▸ List.mem_append_right x List.mem_cons_self) (hb' msg)

/-- Between the lookup and the write a handler works on the last message that it
received. -/
def Carries (h : List RelayEvent) (c : Conn) (hd : Handler) : Prop :=
  match hd.phase with
  | .lookup msg _ | .roleCheck msg _ => LastReceived h c msg
  | .writing data _ =>
      ∃ msg, LastReceived h c msg ∧ data = ({ msg with id := hd.id } : Message).marshal
  | _ => True

/-- A handler carries its message until it receives another one. -/
theorem Carries.append {h out : List RelayEvent} {c : Conn} {hd : Handler}
    (hcarries : Carries h c hd) (hout : ∀ m, .received c m ∉ out) : Carries (h ++ out) c hd := by
  unfold Carries at hcarries ⊢
  split at hcarries
  · exact hcarries.append hout
  · exact hcarries.append hout
  · rcases hcarries with ⟨msg, hlast, hdata⟩
    exact ⟨msg, hlast.append hout, hdata⟩
  · trivial

/-- It carries it through all its statements. -/
theorem Carries.move {pm : PeerManager} {h out : List RelayEvent} {c : Conn} {hd : Handler}
    {phase : Phase} (hcarries : Carries h c hd) (hmove : Move pm c hd phase out) :
    Carries (h ++ out) c { hd with phase := phase } := by
  cases hmove with
  | dispatched msg hphase =>
      rcases hd.dispatch_cases msg with heq | ⟨heq, _⟩ | ⟨heq, _⟩
      · rw [heq]
        trivial
      · rw [heq]
        trivial
      · rw [heq]
        exact LastReceived.self h c msg
  | found msg targetID peer hphase hpeer =>
      rw [Carries, hphase] at hcarries
      exact LastReceived.append hcarries (by simp)
  | allowed msg peer hphase hroles =>
      rw [Carries, hphase] at hcarries
      exact ⟨msg, LastReceived.append hcarries (by simp), rfl⟩
  | _ => trivial

/-- In a reachable relay every handler works on what it has received last. -/
theorem carries_of_reachable {maxConns : Int} {labels : List RelayLabel} {t : Relay}
    {h : List RelayEvent} (hrun : system.run (init maxConns) labels = some (t, h)) :
    ∀ c hd, t.handlers c = some hd → Carries h c hd := by
  refine system.run_invariant (fun t h => ∀ c hd, t.handlers c = some hd → Carries h c hd)
    ?_ ?_ hrun
  · intro c hd hhandler
    cases hhandler
  · intro t h label v out hbefore hstep c hd hhandler
    rcases (step_cases hstep).other c with ⟨h', hown, hh'⟩ | ⟨hsame, hactor⟩
    · rw [hh'] at hhandler
      cases hhandler
      generalize hbefore' : t.handlers c = before at hown
      generalize v.manager = pm' at hown
      cases hown with
      | moved hd₀ phase out hmove => exact (hbefore c hd₀ hbefore').move hmove
      | _ => trivial
    · rw [hsame] at hhandler
      exact (hbefore c hd hhandler).append fun m hm => hactor _ hm rfl

/-- What a handler delivers is the last message that it received, with the id of its own
connection. -/
theorem data_of_delivered {maxConns : Int} {labels : List RelayLabel} {t : Relay}
    {a b : List RelayEvent} {s d : Conn} {data : Json}
    (hrun : system.run (init maxConns) labels = some (t, a ++ .delivered s d data :: b)) :
    ∃ id msg, (∀ i, .opened s i ∈ a ↔ i = id) ∧ LastReceived a s msg ∧
      data = ({ msg with id := id } : Message).marshal := by
  rcases system.exists_step_of_mem_history hrun with
    ⟨pre, label, post, u, v, h, out₁, out₂, _, hpre, hstep, rfl⟩
  rcases relaying_of_reachable hpre with ⟨_, _, hrelaying⟩
  have hcarries := carries_of_reachable hpre
  have hcase := step_cases hstep
  generalize hout : out₁ ++ .delivered s d data :: out₂ = out at hcase
  have hmem : .delivered s d data ∈ out := hout ▸ List.mem_append_right _ List.mem_cons_self
  rcases hcase.other s with ⟨h', hown, _⟩ | ⟨_, hactor⟩
  · generalize hbefore : u.handlers s = before at hown
    generalize v.manager = pm' at hown
    cases hown with
    | moved hd phase out hmove =>
        cases hmove with
        | handed data' target hphase =>
            simp only [List.mem_singleton, RelayEvent.delivered.injEq] at hmem
            rcases hmem with ⟨_, rfl, rfl⟩
            rcases List.append_eq_singleton_iff.mp hout with ⟨rfl, _⟩ | ⟨_, hnil⟩
            case inr => contradiction
            rw [List.append_nil]
            have hcarry := hcarries s hd hbefore
            rw [Carries, hphase] at hcarry
            rcases hcarry with ⟨msg, hlast, hdata⟩
            refine ⟨hd.id, msg, fun i => ?_, hlast, hdata⟩
            rw [hrelaying.2 s i, hbefore]
            simp [eq_comm]
        | _ => simp at hmem
    | _ => simp at hmem
  · exact absurd rfl (hactor _ hmem)

end Relay

end GameFramework
