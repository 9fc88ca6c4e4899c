import GameFramework.Network.NetworkClient
import GameFramework.Network.NetworkServer

/-!
# Malformed signalling messages

What the two message handlers do with a JSON value of any shape, provided that peer
connections take what they are handed.  A handler turns most messages without a
readable sender or type away with a line in the log.  It does not catch the exception
of a member of the wrong type or of an id that is too large, and it reads the members
that a type needs without looking whether they are there, at a point where a new
connection has already been made.

Main results:

- Definition {lit}`Incomplete`: what a message can lack.
- Definition {lit}`Readable`: what saves a handler from an exception or a missing member.
- Theorem {lit}`readable_iff`: that it is what both ends of a handler need.
- Theorem {lit}`rejects_iff`: the messages that the handlers get over cleanly.
-/

namespace GameFramework

/-! ## Members -/

/-- The failure is a line in the log. -/
def Failure.IsLogged (failure : Failure) : Prop :=
  ∃ text, failure = .logged text

/-- The members that a handler reads for a type. -/
def neededBy (type : StdString) : List StdString :=
  if type = goString "offer" ∨ type = goString "answer" then [goString "description"]
  else if type = goString "candidate" then [goString "candidate", goString "mid"]
  else []

/-- A message without an id that reads as a number, without a type, or without a member that
its type needs. -/
def Incomplete (message : Json) : Prop :=
  (∀ s id, message.findString (goString "id") = some s → Decimal.stoull s ≠ .ok id) ∨
    message.findString (goString "type") = none ∨
    ∃ type name, message.findString (goString "type") = some type ∧ name ∈ neededBy type ∧
      message.findString name = none

/-- The id and the type are strings where they are read, the id is not too large, and a
message that the handler goes on with has the members that its type needs. -/
structure Readable (goesOn : PeerID → StdString → Prop) (message : Json) : Prop where
  id : ∀ value, message.find (goString "id") = some value →
    ∃ s, value.getString = some s ∧ Decimal.stoull s ≠ .error .outOfRange
  type : ∀ s id value, message.findString (goString "id") = some s → Decimal.stoull s = .ok id →
    message.find (goString "type") = some value → ∃ type, value.getString = some type
  members : ∀ s id type, message.findString (goString "id") = some s →
    Decimal.stoull s = .ok id → message.findString (goString "type") = some type →
    goesOn id type → ∀ name ∈ neededBy type, message.findString name ≠ none

variable {message : Json} {id : PeerID} {type : StdString}

/-! ## The two ends of a handler -/

/-- A member that cannot be read is not a line in the log. -/
theorem not_isLogged_of_getMember {name : StdString} {failure : Failure}
    (herror : getMember message name = .error failure) : ¬ failure.IsLogged := by
  rintro ⟨text, rfl⟩
  unfold getMember at herror
  split at herror
  · cases herror
  · unfold getStdString at herror
    split at herror <;> cases herror

/-- What reading the members of a type comes to: all of them are strings, or it fails without
a line in the log. -/
theorem readRemote_cases (message : Json) (type : StdString) :
    ((∃ brought, readRemote message type = .ok brought) ∧
        ∀ name ∈ neededBy type, message.findString name ≠ none) ∨
      (∃ failure, readRemote message type = .error failure ∧ ¬ failure.IsLogged) ∧
        ∃ name ∈ neededBy type, message.findString name = none := by
  have hread : ∀ name, (∃ s, getMember message name = .ok s ∧
        message.findString name = some s) ∨
      ∃ failure, getMember message name = .error failure ∧ ¬ failure.IsLogged ∧
        message.findString name = none := by
    intro name
    cases hmember : getMember message name with
    | ok s => exact Or.inl ⟨s, rfl, getMember_eq_ok_iff.mp hmember⟩
    | error failure =>
        refine Or.inr ⟨failure, rfl, not_isLogged_of_getMember hmember, ?_⟩
        refine Option.eq_none_iff_forall_ne_some.mpr fun s hs => ?_
        rw [getMember_eq_ok_iff.mpr hs] at hmember
        contradiction
  unfold readRemote neededBy
  split
  · rcases hread (goString "description") with ⟨s, hs, hfound⟩ | ⟨failure, hs, hlogged, hnone⟩
    · exact Or.inl ⟨⟨_, by rw [hs]; rfl⟩, by simp [hfound]⟩
    · exact Or.inr ⟨⟨failure, by rw [hs]; rfl, hlogged⟩, _, List.mem_cons_self, hnone⟩
  · split
    · rcases hread (goString "candidate") with ⟨s, hs, hfound⟩ | ⟨failure, hs, hlogged, hnone⟩
      · rcases hread (goString "mid") with ⟨s', hs', hfound'⟩ | ⟨failure, hs', hlogged, hnone⟩
        · exact Or.inl ⟨⟨_, by rw [hs, hs']; rfl⟩, by simp [hfound, hfound']⟩
        · exact Or.inr ⟨⟨failure, by rw [hs, hs']; rfl, hlogged⟩, goString "mid", by simp, hnone⟩
      · exact Or.inr ⟨⟨failure, by rw [hs]; rfl, hlogged⟩, _, List.mem_cons_self, hnone⟩
    · exact Or.inl ⟨⟨_, rfl⟩, by simp⟩

/-- A connection that takes everything is handed what is read. -/
theorem handOver_true (message : Json) (type : StdString) :
    handOver message type true = readRemote message type := by
  unfold handOver
  cases readRemote message type with
  | error failure => rfl
  | ok brought => cases brought <;> rfl

/-- Reading the id fails with a line in the log, unless it is no string or too large. -/
theorem readId_logged_iff :
    (∀ failure, readId message = .error failure → failure.IsLogged) ↔
      ∀ value, message.find (goString "id") = some value →
        ∃ s, value.getString = some s ∧ Decimal.stoull s ≠ .error .outOfRange := by
  unfold readId
  cases message.find (goString "id") with
  | none => simp [Failure.IsLogged]
  | some value =>
      cases hvalue : value.getString with
      | none => simp [getStdString, hvalue, bind, Except.bind, Failure.IsLogged]
      | some s =>
          simp only [getStdString, hvalue, bind, Except.bind, Option.some.injEq, forall_eq',
            exists_eq_left']
          split <;> rename_i hread <;> simp [hread, Failure.IsLogged]

/-- Reading the type fails with a line in the log, unless it is no string. -/
theorem readType_logged_iff :
    (∀ failure, readType message = .error failure → failure.IsLogged) ↔
      ∀ value, message.find (goString "type") = some value →
        ∃ type, value.getString = some type := by
  unfold readType
  cases message.find (goString "type") with
  | none => simp [Failure.IsLogged]
  | some value =>
      cases hvalue : value.getString with
      | none => simp [getStdString, hvalue, Failure.IsLogged]
      | some s => simp [getStdString, hvalue]

/-- A message is readable exactly when its header fails with a line in the log only, and the
members are there where the handler goes on. -/
theorem readable_iff {goesOn : PeerID → StdString → Prop} :
    Readable goesOn message ↔
      (∀ failure, readHeader message = .error failure → failure.IsLogged) ∧
      ∀ id type, readHeader message = .ok (id, type) → goesOn id type →
        ∀ name ∈ neededBy type, message.findString name ≠ none := by
  constructor
  · intro hreadable
    constructor
    · intro failure herror
      rcases readHeader_eq_error_iff.mp herror with hid | ⟨id, hid, htype⟩
      · exact readId_logged_iff.mpr hreadable.id failure hid
      · rcases readId_eq_ok_iff.mp hid with ⟨s, hs, hstoull⟩
        exact readType_logged_iff.mpr (fun value => hreadable.type s id value hs hstoull)
          failure htype
    · intro id type hheader
      rcases readHeader_eq_ok_iff.mp hheader with ⟨hid, htype⟩
      rcases readId_eq_ok_iff.mp hid with ⟨s, hs, hstoull⟩
      exact hreadable.members s id type hs hstoull (readType_eq_ok_iff.mp htype)
  · rintro ⟨hlogged, hmembers⟩
    refine ⟨?_, fun s id value hs hstoull => ?_, fun s id type hs hstoull htype => ?_⟩
    · exact readId_logged_iff.mp fun failure hid =>
        hlogged failure (readHeader_eq_error_iff.mpr (Or.inl hid))
    · have hid : readId message = .ok id := readId_eq_ok_iff.mpr ⟨s, hs, hstoull⟩
      exact readType_logged_iff.mp (fun failure htype =>
        hlogged failure (readHeader_eq_error_iff.mpr (Or.inr ⟨id, hid, htype⟩))) value
    · exact hmembers id type (readHeader_eq_ok_iff.mpr
        ⟨readId_eq_ok_iff.mpr ⟨s, hs, hstoull⟩, readType_eq_ok_iff.mpr htype⟩)

/-- A message with a header that lacks nothing else is not incomplete. -/
theorem not_incomplete_of_readHeader (hheader : readHeader message = .ok (id, type))
    (hmembers : ∀ name ∈ neededBy type, message.findString name ≠ none) :
    ¬ Incomplete message := by
  rcases readHeader_eq_ok_iff.mp hheader with ⟨hid, htype⟩
  rcases readId_eq_ok_iff.mp hid with ⟨s, hs, hstoull⟩
  have hfound := readType_eq_ok_iff.mp htype
  rintro (hnone | hnone | ⟨type', name, htype', hname, hnone⟩)
  · exact hnone s id hs hstoull
  · rw [hfound] at hnone
    contradiction
  · rw [hfound] at htype'
    cases htype'
    exact hmembers name hname hnone

/-- A handler that fails as the header does, goes on or logs that it does not, and then fails
as the members do, gets over exactly the readable messages cleanly. -/
theorem clean_iff_readable {goesOn : PeerID → StdString → Prop} {failed : Failure → Prop}
    {unchanged : Prop}
    (hheader : ∀ failure, readHeader message = .error failure →
      (∀ f, failed f ↔ f = failure) ∧ unchanged)
    (hstops : ∀ id type, readHeader message = .ok (id, type) → ¬ goesOn id type →
      (∀ f, failed f → f.IsLogged) ∧ unchanged)
    (hgoesOn : ∀ id type, readHeader message = .ok (id, type) → goesOn id type →
      ∀ f, failed f ↔ readRemote message type = .error f) :
    ((∀ f, failed f → f.IsLogged) ∧ (Incomplete message → unchanged)) ↔
      Readable goesOn message := by
  rw [readable_iff]
  constructor
  · rintro ⟨hclean, _⟩
    constructor
    · intro failure herror
      exact hclean failure (((hheader failure herror).1 failure).mpr rfl)
    · intro id type hok hgoes
      rcases readRemote_cases message type with ⟨_, hmembers⟩ | ⟨⟨failure, herror, hnot⟩, _⟩
      · exact hmembers
      · exact absurd (hclean failure ((hgoesOn id type hok hgoes failure).mpr herror)) hnot
  · rintro ⟨hlogged, hmembers⟩
    cases hread : readHeader message with
    | error failure =>
        rcases hheader failure hread with ⟨hfailed, hunchanged⟩
        exact ⟨fun f hf => (hfailed f).mp hf ▸ hlogged failure hread, fun _ => hunchanged⟩
    | ok header =>
        rcases header with ⟨id, type⟩
        by_cases hgoes : goesOn id type
        · have hall := hmembers id type hread hgoes
          refine ⟨fun f hf => ?_, fun hincomplete =>
            absurd hincomplete (not_incomplete_of_readHeader hread hall)⟩
          have herror := (hgoesOn id type hread hgoes f).mp hf
          rcases readRemote_cases message type with ⟨⟨_, hok⟩, _⟩ | ⟨_, name, hname, hnone⟩
          · rw [hok] at herror
            contradiction
          · exact absurd hnone (hall name hname)
        · rcases hstops id type hread hgoes with ⟨hclean, hunchanged⟩
          exact ⟨hclean, fun _ => hunchanged⟩

/-! ## The handler of the server -/

namespace NetworkServer

variable {t : NetworkServer} {sender : Conn} {failure : Failure}

/-- The handler goes on with a message of this sender and type. -/
def GoesOn (t : NetworkServer) (id : PeerID) (type : StdString) : Prop :=
  t.clients id ≠ none ∨ type = goString "offer" ∨ type = goString "join"

/-- The handler returns, and an incomplete message leaves the map as it was. -/
def Rejects (t : NetworkServer) (sender : Conn) (message : Json) : Prop :=
  (∀ failure, .failed failure ∈ (t.handleSignallingMessage sender message true).2 →
      failure.IsLogged) ∧
    (Incomplete message →
      (t.handleSignallingMessage sender message true).1.clients = t.clients)

theorem failed_mem_finish_iff {outcome : Except Failure (Option Remote)} :
    .failed failure ∈ (t.finish sender id outcome).2 ↔ outcome = .error failure := by
  unfold finish
  split <;> simp [fail, eq_comm]

/-- A message without a header is refused before anything else. -/
theorem handle_of_error (hheader : readHeader message = .error failure) :
    t.handleSignallingMessage sender message true = t.fail failure := by
  rw [handleSignallingMessage, hheader]

/-- A message that the handler does not go on with. -/
theorem handle_of_not_goesOn (hheader : readHeader message = .ok (id, type))
    (hnot : ¬ t.GoesOn id type) :
    t.handleSignallingMessage sender message true = t.fail (noConnection id type) := by
  rw [GoesOn, not_or, not_not] at hnot
  rw [handleSignallingMessage, hheader]
  simp only [hnot.1, if_neg hnot.2]

/-- Going on fails as reading the members does. -/
theorem failed_mem_of_goesOn (hheader : readHeader message = .ok (id, type))
    (hgoesOn : t.GoesOn id type) :
    .failed failure ∈ (t.handleSignallingMessage sender message true).2 ↔
      readRemote message type = .error failure := by
  rw [handleSignallingMessage, hheader]
  dsimp only
  rw [handOver_true]
  cases hentry : t.clients id with
  | some pc =>
      simp only
      exact failed_mem_finish_iff
  | none =>
      have htype : type = goString "offer" ∨ type = goString "join" :=
        hgoesOn.resolve_left (not_not.mpr hentry)
      simp only [if_pos htype, clients_createClientConnection_self, List.mem_cons, reduceCtorEq,
        false_or]
      exact failed_mem_finish_iff

theorem rejects_iff_readable : t.Rejects sender message ↔ Readable t.GoesOn message := by
  refine clean_iff_readable (fun failure hheader => ?_) (fun id type hheader hnot => ?_)
    fun id type hheader hgoesOn f => failed_mem_of_goesOn hheader hgoesOn
  · rw [handle_of_error hheader]
    exact ⟨fun f => by simp [fail], rfl⟩
  · rw [handle_of_not_goesOn hheader hnot]
    refine ⟨fun f hf => ?_, rfl⟩
    rw [fail, List.mem_singleton, NetworkServerEvent.failed.injEq] at hf
    exact ⟨_, hf⟩

end NetworkServer

/-! ## The handler of the client -/

namespace NetworkClient

variable {u : NetworkClient} {failure : Failure}

/-- The handler goes on with a message of this type, whoever sent it. -/
def GoesOn (u : NetworkClient) (_ : PeerID) (type : StdString) : Prop :=
  type ≠ goString "join" ∧ (u.peerConnection ≠ none ∨ type = goString "offer")

/-- The handler returns, and an incomplete message leaves the connection as it was. -/
def Rejects (u : NetworkClient) (message : Json) : Prop :=
  (∀ failure, .failed failure ∈ (u.handleSignallingMessage message true).2 →
      failure.IsLogged) ∧
    (Incomplete message →
      (u.handleSignallingMessage message true).1.peerConnection = u.peerConnection)

theorem failed_mem_finish_iff {outcome : Except Failure (Option Remote)} :
    .failed failure ∈ (u.finish id outcome).2 ↔ outcome = .error failure := by
  unfold finish
  split <;> simp [fail, eq_comm]

/-- Going on fails as reading the members does. -/
theorem failed_mem_of_goesOn (hheader : readHeader message = .ok (id, type))
    (hgoesOn : u.GoesOn id type) :
    .failed failure ∈ (u.handleSignallingMessage message true).2 ↔
      readRemote message type = .error failure := by
  rw [handleSignallingMessage, hheader]
  dsimp only
  rw [if_neg hgoesOn.1, handOver_true]
  cases hconnection : u.peerConnection with
  | some pc =>
      simp only
      exact failed_mem_finish_iff
  | none =>
      have htype : type = goString "offer" := hgoesOn.2.resolve_left (not_not.mpr hconnection)
      simp only [if_pos htype, List.mem_cons, reduceCtorEq, false_or]
      exact failed_mem_finish_iff

/-- A message that the handler does not go on with is logged. -/
theorem exists_fail_of_not_goesOn (hheader : readHeader message = .ok (id, type))
    (hnot : ¬ u.GoesOn id type) :
    ∃ text, u.handleSignallingMessage message true = u.fail (.logged text) := by
  rw [handleSignallingMessage, hheader]
  dsimp only
  split
  · exact ⟨_, rfl⟩
  · rename_i hjoin
    rw [GoesOn, not_and, not_or, not_not] at hnot
    rcases hnot hjoin with ⟨hnone, hoffer⟩
    simp only [hnone, if_neg hoffer]
    exact ⟨_, rfl⟩

theorem rejects_iff_readable : u.Rejects message ↔ Readable u.GoesOn message := by
  refine clean_iff_readable (fun failure hheader => ?_) (fun id type hheader hnot => ?_)
    fun id type hheader hgoesOn f => failed_mem_of_goesOn hheader hgoesOn
  · rw [handleSignallingMessage, hheader]
    exact ⟨fun f => by simp [fail], rfl⟩
  · rcases exists_fail_of_not_goesOn hheader hnot with ⟨text, hfail⟩
    rw [hfail]
    refine ⟨fun f hf => ?_, rfl⟩
    rw [fail, List.mem_singleton, NetworkClientEvent.failed.injEq] at hf
    exact ⟨_, hf⟩

end NetworkClient

/-! ## Both handlers -/

/-- For every JSON value and in every state: a handler returns, and leaves its connections
alone when the message is incomplete, exactly when the message is readable for it. -/
theorem rejects_iff (message : Json) :
    (∀ (t : NetworkServer) (sender : Conn),
        t.Rejects sender message ↔ Readable t.GoesOn message) ∧
      ∀ u : NetworkClient, u.Rejects message ↔ Readable u.GoesOn message :=
  ⟨fun _ _ => NetworkServer.rejects_iff_readable, fun _ => NetworkClient.rejects_iff_readable⟩

/-- An offer without a description. -/
def bareOffer : Json :=
  .obj [(goString "id", .str (goString "7")), (goString "type", .str (goString "offer"))]

/-- The server reads a member that is not there, after it has created an entry. -/
theorem exists_not_rejects :
    ∃ t h, NetworkServer.system.run NetworkServer.init
        [.start, .startSignallingWebsocket true] = some (t, h) ∧
      ¬ t.Rejects 0 bareOffer ∧
      (t.handleSignallingMessage 0 bareOffer true).2 =
        [.created 0 7, .handled 0 7, .failed .undefined] := by
  have hrun : NetworkServer.system.run NetworkServer.init
    [.start, .startSignallingWebsocket true] = some (_, _) := rfl
  refine ⟨_, _, hrun, fun hrejects => ?_, rfl⟩
  have hfailed : NetworkServerEvent.failed .undefined ∈
      [.created 0 7, .handled 0 7, NetworkServerEvent.failed .undefined] := by
    simp
  rcases hrejects.1 .undefined hfailed with ⟨text, hlogged⟩
  contradiction

end GameFramework
