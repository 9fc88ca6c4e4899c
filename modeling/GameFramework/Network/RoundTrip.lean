import GameFramework.Network.Common
import GameFramework.Signalling.Unmarshal

/-!
# Negotiation messages across the relay

An offer, an answer or a candidate is written by one game program, decoded and
encoded again by the signalling server, and read by the other game program.  The
server's encoder leaves empty strings out, and the readers do not ask whether a
member is there.

Main results:

- Theorem {lit}`Negotiation.agrees_iff`: what a handler delivers has all members of what
  the sender wrote exactly when the sender wrote no empty string.
- Theorem {lit}`Negotiation.readRemote_eq`: the receiver then reads what was written, and
  its behaviour is undefined otherwise.
-/

namespace GameFramework

namespace Negotiation

/-! ## The message at the relay -/

/-- The strings that a message carries besides id and type, with the names of their
members. -/
def strings : Negotiation → List (String × StdString)
  | localDescription _ description => [("description", description)]
  | localCandidate candidate mid => [("candidate", candidate), ("mid", mid)]

/-- The type of a message, and what it brings to the peer connection that it is for. -/
def remote : Negotiation → StdString × Remote
  | localDescription typeString description => (typeString, .description description typeString)
  | localCandidate candidate mid => (goString "candidate", .candidate candidate mid)

/-- The message is an offer, an answer or a candidate, with strings that are valid
UTF-8. -/
structure WellFormed (negotiation : Negotiation) : Prop where
  type : match negotiation with
    | localDescription typeString _ => typeString = msgTypeOffer ∨ typeString = msgTypeAnswer
    | localCandidate _ _ => True
  valid : ∀ member ∈ negotiation.strings, Utf8.Valid member.2

/-- No string of the message is empty. -/
def Complete (negotiation : Negotiation) : Prop :=
  ∀ member ∈ negotiation.strings, member.2 ≠ []

/-- The data has every member that the sender wrote, with the same value except that the
id is the sender's. -/
def Agrees (negotiation : Negotiation) (localID : PeerID) (data : Json) : Prop :=
  ∀ name value, (negotiation.message localID).findString name = some value →
    data.findString name = some value

/-- The message as the signalling server decodes it. -/
def decoded (id : PeerID) : Negotiation → Message
  | localDescription typeString description =>
      { id := Decimal.toString id, type := typeString, description := description }
  | localCandidate candidate mid =>
      { id := Decimal.toString id, type := msgTypeCandidate, candidate := candidate, mid := mid }

/-- What the signalling server makes of a message from a sender with this id. -/
def relayed (negotiation : Negotiation) (localID id : PeerID) : Json :=
  ({ negotiation.decoded id with id := Decimal.toString localID } : Message).marshal

variable {negotiation : Negotiation} {localID id : PeerID}

theorem type_decoded (negotiation : Negotiation) (id : PeerID) :
    (negotiation.decoded id).type = negotiation.remote.1 := by
  cases negotiation <;> rfl

theorem id_decoded (negotiation : Negotiation) (id : PeerID) :
    (negotiation.decoded id).id = Decimal.toString id := by
  cases negotiation <;> rfl

/-- The relay relays the messages of a negotiation. -/
theorem validateMessageType_type (hwell : negotiation.WellFormed) :
    validateMessageType negotiation.remote.1 = true := by
  cases negotiation with
  | localDescription typeString description =>
      rcases hwell.type with rfl | rfl
      · exact (by decide : validateMessageType msgTypeOffer = true)
      · exact (by decide : validateMessageType msgTypeAnswer = true)
  | localCandidate candidate mid =>
      exact (by decide : validateMessageType msgTypeCandidate = true)

/-- The signalling server understands what the game programs write. -/
theorem unmarshal_message (hwell : negotiation.WellFormed) (id : PeerID) :
    Message.unmarshal (negotiation.message id) = some (negotiation.decoded id) := by
  have hid : Message.fieldOf (Utf8.coerce (goString "id")) = some (goString "id") := by decide
  have htype : Message.fieldOf (Utf8.coerce (goString "type")) = some (goString "type") := by decide
  have hdescription : Message.fieldOf (Utf8.coerce (goString "description")) =
      some (goString "description") := by decide
  have hcandidate : Message.fieldOf (goString "candidate") = some (goString "candidate") := by
    decide
  have hmid : Message.fieldOf (Utf8.coerce (goString "mid")) = some (goString "mid") := by decide
  have hstr : ∀ (msg : Message) (field s : GoString), field ≠ goString "max_players" →
      msg.store field (.str s) = some (msg.setString field (Utf8.coerce s)) := by
    intro msg field s hne
    rw [Message.store, if_neg hne]
    rfl
  have htypev := coerce_of_validateMessageType (validateMessageType_type hwell)
  cases negotiation with
  | localDescription typeString description =>
      have hdesc := (Utf8.coerce_eq_self_iff description).mpr
        (hwell.valid ("description", description) (by simp [strings]))
      simp only [remote] at htypev
      simp (disch := decide) only [message, Message.unmarshal, Message.storeAll, hid, htype,
        hdescription, hstr, coerce_toString, htypev, hdesc]
      rfl
  | localCandidate candidate mid =>
      have hcand := (Utf8.coerce_eq_self_iff candidate).mpr
        (hwell.valid ("candidate", candidate) (by simp [strings]))
      have hmidv := (Utf8.coerce_eq_self_iff mid).mpr
        (hwell.valid ("mid", mid) (by simp [strings]))
      simp only [remote] at htypev
      simp (disch := decide) only [message, Message.unmarshal, Message.storeAll, hid, htype,
        hcandidate, hmid, hstr, coerce_toString, hcand, hmidv, htypev]
      rfl

/-! ## The members of the messages -/

/-- The string members that the sender writes. -/
theorem findString_message_iff {name value : StdString} :
    (negotiation.message localID).findString name = some value ↔
      name = goString "id" ∧ value = Decimal.toString localID ∨
        name = goString "type" ∧ value = negotiation.remote.1 ∨
        ∃ member ∈ negotiation.strings, name = goString member.1 ∧ value = member.2 := by
  have hmessage : negotiation.message localID = .obj (((goString "id", Decimal.toString localID) ::
      (goString "type", negotiation.remote.1) ::
      negotiation.strings.map fun member => (goString member.1, member.2)).map
        fun member => (member.1, .str member.2)) := by
    cases negotiation <;> simp [message, remote, strings]
  have hnodup : (((goString "id", Decimal.toString localID) ::
      (goString "type", negotiation.remote.1) ::
      negotiation.strings.map fun member => (goString member.1, member.2)).map
        Prod.fst).Nodup := by
    cases negotiation with
    | localDescription typeString description =>
        have hnames : [goString "id", goString "type", goString "description"].Nodup := by decide
        simpa [strings] using hnames
    | localCandidate candidate mid =>
        have hnames :
            [goString "id", goString "type", goString "candidate", goString "mid"].Nodup := by
          decide
        simpa [strings] using hnames
  rw [hmessage, Json.findString_obj_iff hnodup]
  simp only [List.mem_cons, List.mem_map, Prod.mk.injEq]
  simp only [eq_comm]

/-- A relayed message has the id of its sender. -/
theorem findString_id_relayed :
    (negotiation.relayed localID id).findString (goString "id") =
      some (Decimal.toString localID) := by
  rw [relayed, Message.findString_id, coerce_toString]

/-- It has the type that it was sent with. -/
theorem findString_type_relayed (hwell : negotiation.WellFormed) :
    (negotiation.relayed localID id).findString (goString "type") =
      some negotiation.remote.1 := by
  rw [relayed, Message.findString_type]
  dsimp only
  rw [type_decoded, coerce_of_validateMessageType (validateMessageType_type hwell)]

/-- A string that the sender wrote is there when it is not empty. -/
theorem find_relayed (hwell : negotiation.WellFormed) {member : String × StdString}
    (hmember : member ∈ negotiation.strings) :
    (negotiation.relayed localID id).find (goString member.1) =
      if member.2 = [] then none else some (.str member.2) := by
  have homitempty : (member.1, member.2) ∈ ({ negotiation.decoded id with
      id := Decimal.toString localID } : Message).omitempty := by
    cases negotiation with
    | localDescription typeString description =>
        rw [List.mem_singleton.mp hmember]
        simp [Message.omitempty, decoded]
    | localCandidate candidate mid =>
        simp only [strings, List.mem_cons, List.not_mem_nil, or_false] at hmember
        rcases hmember with rfl | rfl <;> simp [Message.omitempty, decoded]
  rw [relayed, Message.find_omitempty _ homitempty, Message.encodeString,
    (Utf8.coerce_eq_self_iff _).mpr (hwell.valid member hmember)]

/-- All members arrive when no string is empty. -/
theorem agrees_relayed_iff (hwell : negotiation.WellFormed) :
    negotiation.Agrees localID (negotiation.relayed localID id) ↔ negotiation.Complete := by
  constructor
  · intro hagrees member hmember hempty
    have hfind := hagrees (goString member.1) member.2
      (findString_message_iff.mpr (Or.inr (Or.inr ⟨member, hmember, rfl, rfl⟩)))
    rw [Json.findString, find_relayed hwell hmember, if_pos hempty] at hfind
    contradiction
  · intro hcomplete name value hfind
    rcases findString_message_iff.mp hfind with ⟨rfl, rfl⟩ | ⟨rfl, rfl⟩ |
      ⟨member, hmember, rfl, rfl⟩
    · exact findString_id_relayed
    · exact findString_type_relayed hwell
    · rw [Json.findString, find_relayed hwell hmember, if_neg (hcomplete member hmember)]
      rfl

/-! ## The receiver -/

/-- The receiver learns sender and type. -/
theorem readHeader_relayed (hwell : negotiation.WellFormed) :
    readHeader (negotiation.relayed localID id) = .ok (localID, negotiation.remote.1) := by
  refine readHeader_eq_ok_iff.mpr ⟨readId_eq_ok_iff.mpr ?_, ?_⟩
  · exact ⟨_, findString_id_relayed, Decimal.stoull_toString localID⟩
  · exact readType_eq_ok_iff.mpr (findString_type_relayed hwell)

/-- Its members are those that were sent, but for empty ones, which are left out. -/
theorem getMember_relayed (hwell : negotiation.WellFormed) {member : String × StdString}
    (hmember : member ∈ negotiation.strings) :
    getMember (negotiation.relayed localID id) (goString member.1) =
      if member.2 = [] then .error .undefined else .ok member.2 := by
  rw [getMember, find_relayed hwell hmember]
  by_cases hempty : member.2 = []
  · simp [hempty]
  · simp [hempty, getStdString]

/-- The receiver reads what the sender wrote, or its behaviour is undefined. -/
theorem readRemote_relayed (hwell : negotiation.WellFormed) :
    (negotiation.Complete → readRemote (negotiation.relayed localID id) negotiation.remote.1 =
        .ok (some negotiation.remote.2)) ∧
      (¬ negotiation.Complete → readRemote (negotiation.relayed localID id)
        negotiation.remote.1 = .error .undefined) := by
  cases negotiation with
  | localDescription typeString description =>
      have hread : getMember ((localDescription typeString description).relayed localID id)
          (goString "description") =
            if description = [] then .error .undefined else .ok description :=
        getMember_relayed hwell (List.mem_singleton_self ("description", description))
      have htype : typeString = goString "offer" ∨ typeString = goString "answer" := hwell.type
      simp only [Complete, strings, List.mem_singleton, forall_eq, readRemote, remote,
        if_pos htype, hread]
      by_cases hempty : description = []
      · simp [hempty, bind, Except.bind]
      · simp [hempty, bind, Except.bind]
  | localCandidate candidate mid =>
      have hcandidate : getMember ((localCandidate candidate mid).relayed localID id)
          (goString "candidate") =
            if candidate = [] then .error .undefined else .ok candidate :=
        getMember_relayed hwell List.mem_cons_self
      have hmid : getMember ((localCandidate candidate mid).relayed localID id)
          (goString "mid") = if mid = [] then .error .undefined else .ok mid :=
        getMember_relayed hwell (List.mem_cons_of_mem _ List.mem_cons_self)
      have htype : ¬ (goString "candidate" = goString "offer" ∨
          goString "candidate" = goString "answer") := by decide
      simp only [Complete, strings, List.mem_cons, List.not_mem_nil, or_false, forall_eq_or_imp,
        forall_eq, readRemote, remote, if_neg htype, if_true, hcandidate, hmid]
      by_cases hempty : candidate = []
      · simp [hempty, bind, Except.bind]
      · by_cases hempty' : mid = []
        · simp [hempty, hempty', bind, Except.bind]
        · simp [hempty, hempty', bind, Except.bind]

/-- What the receiver reads is what the sender wrote. -/
theorem remote_of_readRemote {remote : Remote} (hwell : negotiation.WellFormed)
    (hread : readRemote (negotiation.relayed localID id) negotiation.remote.1 =
      .ok (some remote)) : remote = negotiation.remote.2 := by
  by_cases hall : negotiation.Complete
  · rw [(readRemote_relayed hwell).1 hall] at hread
    cases hread
    rfl
  · rw [(readRemote_relayed hwell).2 hall] at hread
    contradiction

/-! ## Across the relay -/

/-- What a handler delivers for a message of a game program. -/
theorem eq_relayed_of_delivered {maxConns : Int} {labels : List RelayLabel} {t : Relay}
    {a b : List RelayEvent} {s d : Conn} {data : Json}
    (hrun : Relay.system.run (Relay.init maxConns) labels = some (t, a ++ .delivered s d data :: b))
    (hwell : negotiation.WellFormed) (hopened : .opened s (Decimal.toString localID) ∈ a)
    (hread : ∃ msg, Message.unmarshal (negotiation.message id) = some msg ∧
      Relay.LastReceived a s msg) : data = negotiation.relayed localID id := by
  rcases Relay.data_of_delivered hrun with ⟨i, msg', hi, hlast', rfl⟩
  rcases hread with ⟨msg, hmsg, hlast⟩
  rw [unmarshal_message hwell, Option.some.injEq] at hmsg
  rw [Relay.LastReceived.unique hlast' hlast, ← hmsg, relayed, (hi _).mp hopened]

/-- A program with some id sends an offer, an answer or a candidate, and its handler at the
signalling server relays it: what it delivers has all that was written, with the id
of the sender, exactly when no string of the message is empty. -/
theorem agrees_iff {maxConns : Int} {labels : List RelayLabel} {t : Relay}
    {a b : List RelayEvent} {s d : Conn} {data : Json}
    (hrun : Relay.system.run (Relay.init maxConns) labels = some (t, a ++ .delivered s d data :: b))
    (hwell : negotiation.WellFormed) (hopened : .opened s (Decimal.toString localID) ∈ a)
    (hread : ∃ msg, Message.unmarshal (negotiation.message id) = some msg ∧
      Relay.LastReceived a s msg) :
    negotiation.Agrees localID data ↔ negotiation.Complete := by
  rw [eq_relayed_of_delivered hrun hwell hopened hread]
  exact agrees_relayed_iff hwell

/-- The receiver of such a message reads what was written, or its behaviour is
undefined. -/
theorem readRemote_eq {maxConns : Int} {labels : List RelayLabel} {t : Relay}
    {a b : List RelayEvent} {s d : Conn} {data : Json}
    (hrun : Relay.system.run (Relay.init maxConns) labels = some (t, a ++ .delivered s d data :: b))
    (hwell : negotiation.WellFormed) (hopened : .opened s (Decimal.toString localID) ∈ a)
    (hread : ∃ msg, Message.unmarshal (negotiation.message id) = some msg ∧
      Relay.LastReceived a s msg) :
    readHeader data = .ok (localID, negotiation.remote.1) ∧
      (negotiation.Complete →
        readRemote data negotiation.remote.1 = .ok (some negotiation.remote.2)) ∧
      (¬ negotiation.Complete → readRemote data negotiation.remote.1 = .error .undefined) := by
  rw [eq_relayed_of_delivered hrun hwell hopened hread]
  exact ⟨readHeader_relayed hwell, readRemote_relayed hwell⟩

/-- A client with id 7 sends the game server an offer with some description. -/
def offer (description : StdString) : Negotiation :=
  localDescription msgTypeOffer description

/-- The game server and the client register, and the client's offer is relayed. -/
def offerLabels (description : StdString) : List RelayLabel :=
  Relay.serverLabels ++
    [.accept 1 (goString "/connect/7"),
      .handler 1 (.frame (some
        { id := goString "7", type := msgTypeRegister, role := roleClient })),
      .handler 1 .advance, .handler 1 .advance,
      .handler 1 (.frame (some ((offer description).decoded 12345))),
      .handler 1 .advance, .handler 1 .advance, .handler 1 .advance]

/-- What is recorded before the offer is handed over. -/
def offerHistory (description : StdString) : List RelayEvent :=
  [.opened 0 (goString "12345"),
    .received 0 { id := goString "12345", type := msgTypeRegister, role := roleServer },
    .registered 0 (goString "12345") roleServer,
    .opened 1 (goString "7"),
    .received 1 { id := goString "7", type := msgTypeRegister, role := roleClient },
    .registered 1 (goString "7") roleClient,
    .received 1 ((offer description).decoded 12345),
    .lookedUp 1 (goString "12345")]

/-- An offer in valid UTF-8 is well formed. -/
theorem wellFormed_offer {description : StdString} (hvalid : Utf8.Valid description) :
    (offer description).WellFormed where
  type := Or.inl rfl
  valid member hmember := by
    rw [List.mem_singleton.mp hmember]
    exact hvalid

theorem lastReceived_offer (description : StdString) :
    Relay.LastReceived (offerHistory description) 1 ((offer description).decoded 12345) :=
  ⟨(offerHistory description).take 6, [.lookedUp 1 (goString "12345")], rfl, by simp⟩

/-- An offer that arrives as it was sent. -/
theorem agrees_iff_offer :
    ∃ t, Relay.system.run (Relay.init 0) (offerLabels (goString "v=0")) = some (t,
        offerHistory (goString "v=0") ++ [.delivered 1 0 ((offer (goString "v=0")).relayed 7 12345)]) ∧
      (offer (goString "v=0")).Agrees 7 ((offer (goString "v=0")).relayed 7 12345) := by
  have hrun : ∃ t, Relay.system.run (Relay.init 0) (offerLabels (goString "v=0")) = some (t,
      offerHistory (goString "v=0") ++
        [.delivered 1 0 ((offer (goString "v=0")).relayed 7 12345)]) := ⟨_, rfl⟩
  have hwell : (offer (goString "v=0")).WellFormed := wellFormed_offer (by decide)
  rcases hrun with ⟨t, hrun⟩
  refine ⟨t, hrun, (agrees_iff hrun hwell (by simp [offerHistory]; decide)
    ⟨_, unmarshal_message hwell 12345, lastReceived_offer _⟩).mpr ?_⟩
  intro member hmember
  rw [List.mem_singleton.mp hmember]
  decide

/-- An empty description does not arrive: the client behind the relay reads a member that
is not there. -/
theorem exists_not_agrees :
    ∃ t, Relay.system.run (Relay.init 0) (offerLabels []) =
        some (t, offerHistory [] ++ [.delivered 1 0 ((offer []).relayed 7 12345)]) ∧
      (offer []).WellFormed ∧
      Message.unmarshal ((offer []).message 12345) = some ((offer []).decoded 12345) ∧
      ¬ (offer []).Agrees 7 ((offer []).relayed 7 12345) := by
  have hrun : ∃ t, Relay.system.run (Relay.init 0) (offerLabels []) =
      some (t, offerHistory [] ++ [.delivered 1 0 ((offer []).relayed 7 12345)]) := ⟨_, rfl⟩
  have hwell : (offer []).WellFormed := wellFormed_offer (by decide)
  rcases hrun with ⟨t, hrun⟩
  refine ⟨t, hrun, hwell, unmarshal_message hwell 12345, fun hagrees => ?_⟩
  have hcomplete := (agrees_relayed_iff hwell).mp hagrees
  exact hcomplete ("description", []) (List.mem_singleton_self _) rfl

end Negotiation

end GameFramework
