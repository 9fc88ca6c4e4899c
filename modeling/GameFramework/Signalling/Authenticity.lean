import GameFramework.Signalling.Ownership

/-!
# Authenticity of relayed messages

A handler looks its target up in one step, checks roles in another and writes in a
third, while other connections register and unregister.  What it relays is
nevertheless from the owner of its id, to the owner of the target id at the time
of the lookup, of a relayable type, and never between two clients.  The sender id
in a relayed message is the sender's own, except that the JSON encoder replaces
bytes that are not UTF-8.

Main results:

- Theorem {lit}`Relay.relaying_of_reachable`: what a handler between lookup and write
  knows.
- Theorem {lit}`Relay.authentic_iff`: every delivered message is authentic, its id
  exactly when the sender's id is valid UTF-8.
-/

namespace GameFramework

namespace Relay

/-! ## What a handler knows on the way to a write -/

/-- The last message received by a handler of this id is one to relay to the target
id. -/
def Requested (h : List RelayEvent) (c : Conn) (id : GoString) (msg : Message)
    (targetID : GoString) : Prop :=
  LastReceived h c msg ∧ validateMessageType msg.type = true ∧ msg.type ≠ msgTypeRegister ∧
    targetID = if msg.id = [] then id else msg.id

/-- The last lookup of a handler found this peer, the owner of the target id at that
moment. -/
def Found (h : List RelayEvent) (c : Conn) (id : GoString) (msg : Message)
    (peer : PeerInfo) : Prop :=
  ∃ a b targetID, h = a ++ .lookedUp c targetID :: b ∧ (∀ i, .lookedUp c i ∉ b) ∧
    Requested a c id msg targetID ∧ ownerOf a targetID = some peer ∧
    (peer.role = roleClient ∨ peer.role = roleServer)

/-- The handler's statement agrees with the history. -/
def PhaseOk (pm : PeerManager) (h : List RelayEvent) (c : Conn) (hd : Handler) : Prop :=
  match hd.phase with
  | .lookup msg targetID => hd.registered = true ∧ Requested h c hd.id msg targetID
  | .roleCheck msg peer => hd.registered = true ∧ Found h c hd.id msg peer
  | .writing data target =>
      hd.registered = true ∧ ∃ msg peer, Found h c hd.id msg peer ∧ peer.conn = target ∧
        data = ({ msg with id := hd.id } : Message).marshal ∧
        ∀ role, pm.get hd.id = some ⟨c, role⟩ → role = roleServer ∨ peer.role = roleServer
  | _ => True

/-- A request stays the last one of its handler until the handler does something else. -/
theorem Requested.append {h out : List RelayEvent} {c : Conn} {id : GoString} {msg : Message}
    {targetID : GoString} (hrequested : Requested h c id msg targetID)
    (hout : ∀ e ∈ out, actor e ≠ some c) : Requested (h ++ out) c id msg targetID :=
  ⟨hrequested.1.append fun m hm => hout (.received c m) hm rfl, hrequested.2⟩

/-- What was found stays found until the next lookup. -/
theorem Found.append {h out : List RelayEvent} {c : Conn} {id : GoString} {msg : Message}
    {peer : PeerInfo} (hfound : Found h c id msg peer)
    (hout : ∀ i, .lookedUp c i ∉ out) : Found (h ++ out) c id msg peer := by
  rcases hfound with ⟨a, b, targetID, rfl, hb, hrest⟩
  refine ⟨a, b ++ out, targetID, by simp, fun i hi => ?_, hrest⟩
  rcases List.mem_append.mp hi with hi | hi
  · exact hb i hi
  · exact hout i hi

variable {t v : Relay} {h out : List RelayEvent}

/-- The roles of the registered peers are the two known ones. -/
theorem role_cases (haccepted : Accepted t h) {i : GoString} {peer : PeerInfo}
    (hget : t.manager.get i = some peer) : peer.role = roleClient ∨ peer.role = roleServer := by
  rcases haccepted i peer hget with ⟨_, _, _, _, _, _, _, hrole⟩
  exact hrole

/-- A handler's own move keeps its knowledge. -/
theorem phaseOk_move (hget : ownerOf h = t.manager.get) (haccepted : Accepted t h)
    {c : Conn} {hd : Handler} {phase : Phase} (hok : PhaseOk t.manager h c hd)
    (hmove : Move t.manager c hd phase out) :
    PhaseOk t.manager (h ++ out) c { hd with phase := phase } := by
  cases hmove with
  | dispatched msg hphase =>
      rcases hd.dispatch_cases msg with heq | ⟨heq, _⟩ | ⟨heq, hflag, hvalid, htype⟩
      · rw [heq]
        exact trivial
      · rw [heq]
        exact trivial
      · rw [heq]
        exact ⟨hflag, LastReceived.self h c msg, hvalid, htype, rfl⟩
  | found msg targetID peer hphase hfound =>
      rw [PhaseOk, hphase] at hok
      refine ⟨hok.1, h, [], targetID, rfl, by simp, hok.2, ?_, role_cases haccepted hfound⟩
      rw [hget, hfound]
  | allowed msg peer hphase hroles =>
      rw [PhaseOk, hphase] at hok
      refine ⟨hok.1, msg, peer, hok.2.append (by simp), rfl, rfl, fun role hrole => ?_⟩
      have hsender : t.manager.getRole hd.id = role := by
        rw [PeerManager.getRole, hrole]
      rcases role_cases haccepted hrole with hclient | hserver
      · -- a sender that is a client has passed the check only with a server as target
        rcases hok.2 with ⟨_, _, _, _, _, _, _, hclient' | hserver'⟩
        · exact absurd ⟨hsender.trans hclient, hclient'⟩ hroles
        · exact Or.inr hserver'
      · exact Or.inl hserver
  | _ => exact trivial

/-- A step of another connection keeps a handler's knowledge: it cannot touch the
entry of a handler that owns it. -/
theorem phaseOk_other (howned : Owned t) (hcase : StepCase t v out) {c : Conn} {hd : Handler}
    (hhandler : t.handlers c = some hd) (hok : PhaseOk t.manager h c hd)
    (hactor : ∀ e ∈ out, actor e ≠ some c) : PhaseOk v.manager (h ++ out) c hd := by
  unfold PhaseOk at hok ⊢
  split at hok
  · exact ⟨hok.1, hok.2.append hactor⟩
  · exact ⟨hok.1, hok.2.append fun i hi => hactor (.lookedUp c i) hi rfl⟩
  · rename_i data target hphase
    rcases hok with ⟨hflag, msg, peer, hfound, htarget, hdata, hroles⟩
    refine ⟨hflag, msg, peer, hfound.append fun i hi => hactor (.lookedUp c i) hi rfl, htarget,
      hdata, fun role hrole => ?_⟩
    have howns : hd.Owns := Or.inr ⟨hflag, by simp [hphase], by simp [hphase]⟩
    rcases howned.entry c hd hhandler howns with ⟨role', hrole'⟩
    rcases get_step howned hcase hrole' with hsame | ⟨_, _, hd', hhandler', hexiting, _⟩
    · rw [hsame] at hrole
      cases hrole
      exact hroles role hrole'
    · have hhd : hd' = hd := by
        rw [hhandler] at hhandler'
        exact (Option.some.inj hhandler').symm
      rw [hhd, hphase] at hexiting
      contradiction
  · trivial

/-- Every handler's statement agrees with the history, and its id with the opening
of its connection. -/
def Relaying (t : Relay) (h : List RelayEvent) : Prop :=
  (∀ c hd, t.handlers c = some hd → PhaseOk t.manager h c hd) ∧
    ∀ c id, .opened c id ∈ h ↔ ∃ hd, t.handlers c = some hd ∧ hd.id = id

/-- Every step keeps the handlers in line with what they have received and looked up. -/
theorem relaying_step (howned : Owned t) (hget : ownerOf h = t.manager.get)
    (haccepted : Accepted t h) (hrelaying : Relaying t h) (hcase : StepCase t v out) :
    Relaying v (h ++ out) := by
  constructor
  · intro c hd hhandler
    rcases hcase.other c with ⟨h', hown, hh'⟩ | ⟨hsame, hactor⟩
    · rw [hh'] at hhandler
      cases hhandler
      generalize hbefore : t.handlers c = before at hown
      generalize v.manager = pm' at hown
      cases hown with
      | moved h₀ phase out hmove =>
          exact phaseOk_move hget haccepted (hrelaying.1 c h₀ hbefore) hmove
      | _ => exact trivial
    · rw [hsame] at hhandler
      exact phaseOk_other howned hcase hhandler (hrelaying.1 c hd hhandler) hactor
  · intro c id
    rw [List.mem_append, hrelaying.2 c id]
    rcases hcase.other c with ⟨h', hown, hh'⟩ | ⟨hsame, hactor⟩
    · rw [hh']
      generalize t.handlers c = before at hown
      generalize v.manager = pm' at hown
      cases hown with
      | opened path => simp [eq_comm]
      | moved h₀ phase out hmove => cases hmove <;> simp
      | _ => simp
    · rw [hsame]
      have hnot : .opened c id ∉ out := fun hmem => hactor _ hmem rfl
      simp [hnot]

/-- So every reachable relay relays what was received and looked up. -/
theorem relaying_of_reachable {maxConns : Int} {labels : List RelayLabel}
    (hrun : system.run (init maxConns) labels = some (t, h)) :
    Owned t ∧ ownerOf h = t.manager.get ∧ Relaying t h := by
  have hinv := system.run_invariant
    (fun t h => Owned t ∧ ownerOf h = t.manager.get ∧ Pending t h ∧ Accepted t h ∧
      Relaying t h) ?_ ?_ hrun
  · exact ⟨hinv.1, hinv.2.1, hinv.2.2.2.2⟩
  · refine ⟨owned_init maxConns, rfl, ?_, ?_, ?_, ?_⟩
    · intro c hd role hhandler
      cases hhandler
    · intro i peer hget
      cases hget
    · intro c hd hhandler
      cases hhandler
    · intro c id
      simp [init]
  · intro t h label v out hbefore hstep
    rcases hbefore with ⟨howned, hget, hpending, haccepted, hrelaying⟩
    have hcase := step_cases hstep
    exact ⟨owned_step howned hcase, ownerOf_step hcase hget, pending_step hpending hcase,
      accepted_step hpending haccepted hcase,
      relaying_step howned hget haccepted hrelaying hcase⟩

/-! ## Delivered messages -/

/-- What holds of a message that the handler of {lit}`s`, with URL id {lit}`id`, hands to
{lit}`d` after a history. -/
structure Relayed (h : List RelayEvent) (s d : Conn) (data : Json) (id : GoString) : Prop where
  /-- The sender is the registered owner of its id, and one of the two is a server; the
  target was the registered owner of the target id when the sender last looked it
  up, for the last message it had received. -/
  owners : ∃ role a b targetID peer msg, ownerOf h id = some ⟨s, role⟩ ∧
    h = a ++ .lookedUp s targetID :: b ∧ (∀ i, .lookedUp s i ∉ b) ∧
    Requested a s id msg targetID ∧ ownerOf a targetID = some peer ∧ peer.conn = d ∧
    (role = roleServer ∨ peer.role = roleServer)
  /-- The type is one of the relayed ones. -/
  type : ∃ type, data.findString (goString "type") = some type ∧
    (type = msgTypeOffer ∨ type = msgTypeAnswer ∨ type = msgTypeCandidate ∨
      type = msgTypeJoin)
  /-- The id is the sender's as the encoder writes it. -/
  id_eq_coerce : data.findString (goString "id") = some (Utf8.coerce id)

/-- A relayed message whose id is exactly the sender's. -/
structure Authentic (h : List RelayEvent) (s d : Conn) (data : Json) (id : GoString) : Prop
    extends Relayed h s d data id where
  id_eq : data.findString (goString "id") = some id

/-- The types that are relayed. -/
theorem type_cases {type : GoString} (hvalid : validateMessageType type = true)
    (hregister : type ≠ msgTypeRegister) :
    type = msgTypeOffer ∨ type = msgTypeAnswer ∨ type = msgTypeCandidate ∨
      type = msgTypeJoin := by
  have hcases : type = msgTypeOffer ∨ type = msgTypeAnswer ∨ type = msgTypeCandidate ∨
      type = msgTypeRegister ∨ type = msgTypeJoin := by
    simpa [validateMessageType, or_assoc] using hvalid
  rcases hcases with h | h | h | h | h
  · exact Or.inl h
  · exact Or.inr (Or.inl h)
  · exact Or.inr (Or.inr (Or.inl h))
  · exact absurd h hregister
  · exact Or.inr (Or.inr (Or.inr h))

/-- A handler at a write relays. -/
theorem relayed_of_writing (howned : Owned t) (hget : ownerOf h = t.manager.get)
    {s d : Conn} {data : Json} {hd : Handler} (hhandler : t.handlers s = some hd)
    (hok : PhaseOk t.manager h s hd) (hphase : hd.phase = .writing data d) :
    Relayed h s d data hd.id := by
  rw [PhaseOk, hphase] at hok
  rcases hok with ⟨hflag, msg, peer, hfound, htarget, rfl, hroles⟩
  rcases hfound with ⟨a, b, targetID, hsplit, hb, hrequested, hpeer, _⟩
  have howns : hd.Owns := Or.inr ⟨hflag, by simp [hphase], by simp [hphase]⟩
  rcases howned.entry s hd hhandler howns with ⟨role, hrole⟩
  constructor
  · exact ⟨role, a, b, targetID, peer, msg, hget ▸ hrole, hsplit, hb, hrequested, hpeer, htarget,
      hroles role hrole⟩
  · refine ⟨msg.type, ?_, type_cases hrequested.2.1 hrequested.2.2.1⟩
    rw [Message.findString_type]
    exact congrArg some (coerce_of_validateMessageType hrequested.2.1)
  · exact Message.findString_id _

/-- Every delivered message comes from a handler at its write. -/
theorem relayed_of_delivered {maxConns : Int} {labels : List RelayLabel}
    {a b : List RelayEvent} {s d : Conn} {data : Json}
    (hrun : system.run (init maxConns) labels = some (t, a ++ .delivered s d data :: b)) :
    ∃ id, (∀ i, .opened s i ∈ a ↔ i = id) ∧ Relayed a s d data id := by
  rcases system.exists_step_of_mem_history hrun with
    ⟨pre, label, post, u, v, h, out₁, out₂, _, hpre, hstep, rfl⟩
  rcases relaying_of_reachable hpre with ⟨howned, hget, hrelaying⟩
  have hcase := step_cases hstep
  generalize hout : out₁ ++ .delivered s d data :: out₂ = out at hcase
  have hmem : .delivered s d data ∈ out := hout ▸ List.mem_append_right _ List.mem_cons_self
  cases hcase with
  | refused path _ _ => simp at hmem
  | shutdown closes _ _ => simp at hmem
  | own c h' out hown _ =>
      generalize hbefore : u.handlers c = before at hown
      generalize v.manager = pm' at hown
      cases hown with
      | moved hd phase out hmove =>
          cases hmove with
          | handed data' target hphase =>
              simp only [List.mem_singleton, RelayEvent.delivered.injEq] at hmem
              rcases hmem with ⟨rfl, rfl, rfl⟩
              rcases List.append_eq_singleton_iff.mp hout with ⟨rfl, _⟩ | ⟨_, hnil⟩
              case inr => contradiction
              rw [List.append_nil]
              refine ⟨hd.id, fun i => ?_,
                relayed_of_writing howned hget hbefore (hrelaying.1 s hd hbefore) hphase⟩
              rw [hrelaying.2 s i, hbefore]
              simp [eq_comm]
          | _ => simp at hmem
      | _ => simp at hmem

/-- Every message that a handler hands to a connection is relayed as the access rules
say, and it is authentic exactly when the sender's URL id is valid UTF-8. -/
theorem authentic_iff {maxConns : Int} {labels : List RelayLabel} {a b : List RelayEvent}
    {s d : Conn} {data : Json}
    (hrun : system.run (init maxConns) labels = some (t, a ++ .delivered s d data :: b)) :
    ∃ id, (∀ i, .opened s i ∈ a ↔ i = id) ∧ Relayed a s d data id ∧
      (Authentic a s d data id ↔ Utf8.Valid id) := by
  rcases relayed_of_delivered hrun with ⟨id, hopened, hrelayed⟩
  refine ⟨id, hopened, hrelayed, ?_⟩
  rw [← Utf8.coerce_eq_self_iff]
  constructor
  · intro hauthentic
    have heq := hauthentic.id_eq
    rw [hrelayed.id_eq_coerce] at heq
    exact Option.some.inj heq
  · intro hcoerce
    exact ⟨hrelayed, by rw [hrelayed.id_eq_coerce, hcoerce]⟩

/-- A client with some id registers and joins the game server. -/
def joinSteps (c : Conn) (id : GoString) : List RelayLabel :=
  [.accept c (goString "/connect/" ++ id),
    .handler c (.frame (some { id := [], type := msgTypeRegister, role := roleClient })),
    .handler c .advance, .handler c .advance,
    .handler c (.frame (some { id := goString "12345", type := msgTypeJoin })),
    .handler c .advance, .handler c .advance, .handler c .advance]

/-- The game server registers and a client joins it. -/
def joinLabels (id : GoString) : List RelayLabel :=
  serverLabels ++ joinSteps 1 id

/-- What is recorded before the join is handed over. -/
def joinHistory (id : GoString) : List RelayEvent :=
  [.opened 0 (goString "12345"),
    .received 0 { id := goString "12345", type := msgTypeRegister, role := roleServer },
    .registered 0 (goString "12345") roleServer,
    .opened 1 id,
    .received 1 { id := [], type := msgTypeRegister, role := roleClient },
    .registered 1 id roleClient,
    .received 1 { id := goString "12345", type := msgTypeJoin },
    .lookedUp 1 (goString "12345")]

/-- The relayed join. -/
def joinData (id : GoString) : Json :=
  ({ id := id, type := msgTypeJoin } : Message).marshal

/-- The join of a client with a numeric id. -/
theorem authentic_iff_join :
    ∃ t, system.run (init 0) (joinLabels (goString "7")) =
        some (t, joinHistory (goString "7") ++ [.delivered 1 0 (joinData (goString "7"))]) ∧
      Authentic (joinHistory (goString "7")) 1 0 (joinData (goString "7")) (goString "7") := by
  have hrun : ∃ t, system.run (init 0) (joinLabels (goString "7")) =
      some (t, joinHistory (goString "7") ++ [.delivered 1 0 (joinData (goString "7"))]) :=
    ⟨_, rfl⟩
  rcases hrun with ⟨t, hrun⟩
  refine ⟨t, hrun, ?_⟩
  rcases authentic_iff hrun with ⟨id, hopened, _, hiff⟩
  have hid : goString "7" = id := (hopened (goString "7")).mp (by simp [joinHistory])
  subst hid
  exact hiff.mpr (by decide)

/-- A sender whose id is the single byte FF is announced under another id. -/
theorem exists_delivered_id_ne :
    ∃ t, system.run (init 0) (joinLabels [0xFF]) =
        some (t, joinHistory [0xFF] ++ [.delivered 1 0 (joinData [0xFF])]) ∧
      .opened 1 [0xFF] ∈ joinHistory [0xFF] ∧
      (joinData [0xFF]).findString (goString "id") ≠ some [0xFF] := by
  have hrun : ∃ t, system.run (init 0) (joinLabels [0xFF]) =
      some (t, joinHistory [0xFF] ++ [.delivered 1 0 (joinData [0xFF])]) := ⟨_, rfl⟩
  rcases hrun with ⟨t, hrun⟩
  exact ⟨t, hrun, by simp [joinHistory], by decide⟩

end Relay

end GameFramework
