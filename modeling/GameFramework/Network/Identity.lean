import GameFramework.Network.NetworkServer
import GameFramework.Signalling.Authenticity

/-!
# Peer identity

The signalling server tells peers apart by strings, the game server by 64-bit
numbers that it reads from these strings.  This module composes the two: the messages
of a run of the network server are ones that the signalling server has delivered.
The identity of a peer survives the way from string to number and back if
its id is canonical, that is the numeral of the number that it reads as, or reads as no
number at all.

Main results:

- Theorem {lit}`canonical_toString`: the ids that the game itself uses are canonical.
- Theorem {lit}`NetworkServer.findString_id_eq_iff`: an entry's messages are addressed to
  the peer that created it exactly when that peer's id is canonical.
- Theorem {lit}`NetworkServer.peerIdentity_of_canonical`: with canonical ids no two peers
  share an entry, and entries answer their peers.
-/

namespace GameFramework

/-- The id reads as no number, or as the number whose numeral it is. -/
def Canonical (i : GoString) : Prop :=
  ∀ id, Decimal.stoull (Utf8.coerce i) = .ok id → i = Decimal.toString id

/-- The id that a game server or a client chooses for itself is canonical. -/
theorem canonical_toString (id : PeerID) : Canonical (Decimal.toString id) := by
  intro id' hread
  rw [coerce_toString, Decimal.stoull_toString] at hread
  cases hread
  rfl

/-- White space in front and text behind are read over. -/
example : ¬ Canonical (goString " 1x") := fun h => absurd (h 1 rfl) (by decide)

namespace Relay

/-- A connection is opened under one id. -/
theorem opened_inj {maxConns : Int} {labels : List RelayLabel} {t : Relay}
    {h : List RelayEvent} {c : Conn} {i j : GoString}
    (hrun : system.run (init maxConns) labels = some (t, h)) (hi : .opened c i ∈ h)
    (hj : .opened c j ∈ h) : i = j := by
  have hrelaying := (relaying_of_reachable hrun).2.2
  rcases (hrelaying.2 c i).mp hi with ⟨hd, hhandler, rfl⟩
  rcases (hrelaying.2 c j).mp hj with ⟨hd', hhandler', rfl⟩
  rw [hhandler] at hhandler'
  rw [Option.some.inj hhandler']

/-- A delivered message carries the id of its sender, as the encoder writes it. -/
theorem findString_id_of_delivered {maxConns : Int} {labels : List RelayLabel} {t : Relay}
    {h : List RelayEvent} {s d : Conn} {data : Json} {i : GoString}
    (hrun : system.run (init maxConns) labels = some (t, h)) (hdelivered : .delivered s d data ∈ h)
    (hopened : .opened s i ∈ h) :
    data.findString (goString "id") = some (Utf8.coerce i) := by
  rcases List.append_of_mem hdelivered with ⟨a, b, rfl⟩
  rcases relayed_of_delivered hrun with ⟨id, hid, hrelayed⟩
  have hbefore : .opened s id ∈ a := (hid id).mpr rfl
  rw [opened_inj hrun hopened (List.mem_append_left _ hbefore)]
  exact hrelayed.id_eq_coerce

end Relay

namespace NetworkServer

/-- The messages of a run of the network server are delivered by the signalling server, in
any order. -/
def Fed (h : List RelayEvent) (labels : List NetworkServerLabel) : Prop :=
  ∀ s data taken, .message s data taken ∈ labels → ∃ d, .delivered s d data ∈ h

/-- The senders of the messages have canonical ids. -/
def CanonicalSenders (h : List RelayEvent) (labels : List NetworkServerLabel) : Prop :=
  ∀ s data taken i, .message s data taken ∈ labels → .opened s i ∈ h → Canonical i

/-- The signalling server and the network server agree about identities. -/
structure PeerIdentity (h : List RelayEvent) (out : List NetworkServerEvent) : Prop where
  /-- Messages of connections with distinct ids are handled on distinct entries. -/
  separate : ∀ s₁ s₂ i₁ i₂ key, .opened s₁ i₁ ∈ h → .opened s₂ i₂ ∈ h → i₁ ≠ i₂ →
    .handled s₁ key ∈ out → .handled s₂ key ∉ out
  /-- What an entry sends is addressed to the id that created it. -/
  addressed : ∀ s i key data, .created s key ∈ out → .opened s i ∈ h → .sent key data ∈ out →
    data.findString (goString "id") = some i

section Composition

variable {maxConns : Int} {relayLabels : List RelayLabel} {r : Relay} {h : List RelayEvent}
  {labels : List NetworkServerLabel} {t : NetworkServer} {out : List NetworkServerEvent}
  {s : Conn} {i : GoString} {key : PeerID} {e : NetworkServerEvent}

/-- The key of an entry is what the sender id of its messages reads as. -/
theorem stoull_eq_of_senderKey
    (hrelay : Relay.system.run (Relay.init maxConns) relayLabels = some (r, h))
    (hrun : system.run init labels = some (t, out)) (hfed : Fed h labels)
    (hopened : .opened s i ∈ h) (he : e ∈ out) (hkey : senderKey e = some (s, key)) :
    ∃ data taken, .message s data taken ∈ labels ∧
      Decimal.stoull (Utf8.coerce i) = .ok key := by
  rcases exists_message_of_senderKey hrun he hkey with ⟨data, taken, hlabel, hread⟩
  rcases hfed s data taken hlabel with ⟨d, hdelivered⟩
  have hid := Relay.findString_id_of_delivered hrelay hdelivered hopened
  rcases readId_eq_ok_iff.mp hread with ⟨text, htext, hstoull⟩
  rw [hid] at htext
  cases htext
  exact ⟨data, taken, hlabel, hstoull⟩

/-- The messages of an entry are addressed to the peer whose message created it exactly
when the id of that peer is canonical. -/
theorem findString_id_eq_iff
    (hrelay : Relay.system.run (Relay.init maxConns) relayLabels = some (r, h))
    (hrun : system.run init labels = some (t, out)) (hfed : Fed h labels) {data : Json}
    (hcreated : .created s key ∈ out) (hopened : .opened s i ∈ h) (hsent : .sent key data ∈ out) :
    data.findString (goString "id") = some i ↔ Canonical i := by
  rcases stoull_eq_of_senderKey hrelay hrun hfed hopened hcreated rfl with ⟨_, _, _, hread⟩
  rw [findString_id_of_sent hrun hsent]
  constructor
  · intro heq id hid
    rw [hread] at hid
    cases hid
    exact (Option.some.inj heq).symm
  · intro hcanonical
    rw [hcanonical key hread]

/-- If every message of a run comes from a peer with a canonical id, identities are
preserved. -/
theorem peerIdentity_of_canonical
    (hrelay : Relay.system.run (Relay.init maxConns) relayLabels = some (r, h))
    (hrun : system.run init labels = some (t, out)) (hfed : Fed h labels)
    (hsenders : CanonicalSenders h labels) : PeerIdentity h out := by
  constructor
  · intro s₁ s₂ i₁ i₂ key hopened₁ hopened₂ hne hhandled₁ hhandled₂
    rcases stoull_eq_of_senderKey hrelay hrun hfed hopened₁ hhandled₁ rfl with
      ⟨data₁, taken₁, hlabel₁, hread₁⟩
    rcases stoull_eq_of_senderKey hrelay hrun hfed hopened₂ hhandled₂ rfl with
      ⟨data₂, taken₂, hlabel₂, hread₂⟩
    apply hne
    calc
      i₁ = Decimal.toString key := hsenders s₁ data₁ taken₁ i₁ hlabel₁ hopened₁ key hread₁
      _ = i₂ := (hsenders s₂ data₂ taken₂ i₂ hlabel₂ hopened₂ key hread₂).symm
  · intro s i key data hcreated hopened hsent
    rcases stoull_eq_of_senderKey hrelay hrun hfed hopened hcreated rfl with
      ⟨data', taken, hlabel, _⟩
    exact (findString_id_eq_iff hrelay hrun hfed hcreated hopened hsent).mpr
      (hsenders s data' taken i hlabel hopened)

end Composition

/-- The network server connects, handles a join and offers. -/
def joinedLabels (id : GoString) (key : PeerID) : List NetworkServerLabel :=
  [.start, .startSignallingWebsocket true, .message 1 (Relay.joinData id) true,
    .negotiate key (.localDescription (goString "offer") (goString "v=0"))]

theorem peerIdentity_of_canonical_join :
    ∃ r h t out,
      Relay.system.run (Relay.init 0) (Relay.joinLabels (goString "7")) = some (r, h) ∧
      system.run init (joinedLabels (goString "7") 7) = some (t, out) ∧
      .handled 1 7 ∈ out ∧ PeerIdentity h out := by
  have hrelay : ∃ r, Relay.system.run (Relay.init 0) (Relay.joinLabels (goString "7")) =
      some (r, Relay.joinHistory (goString "7") ++
        [.delivered 1 0 (Relay.joinData (goString "7"))]) := ⟨_, rfl⟩
  have hrun : ∃ t, system.run init (joinedLabels (goString "7") 7) = some (t,
      [.registered (registerMsg 12345), .created 1 7, .handled 1 7,
        .sent 7 (Negotiation.message 7 (.localDescription (goString "offer") (goString "v=0")))]) :=
    ⟨_, rfl⟩
  rcases hrelay with ⟨r, hrelay⟩
  rcases hrun with ⟨t, hrun⟩
  refine ⟨r, _, t, _, hrelay, hrun, by simp, peerIdentity_of_canonical hrelay hrun ?_ ?_⟩
  · intro s data taken hlabel
    simp only [joinedLabels, List.mem_cons, NetworkServerLabel.message.injEq, reduceCtorEq,
      false_or, or_false, List.not_mem_nil] at hlabel
    rcases hlabel with ⟨rfl, rfl, _⟩
    exact ⟨0, by simp⟩
  · intro s data taken i hlabel hopened
    simp only [joinedLabels, List.mem_cons, NetworkServerLabel.message.injEq, reduceCtorEq,
      false_or, or_false, List.not_mem_nil] at hlabel
    rcases hlabel with ⟨rfl, rfl, _⟩
    have hi : i = goString "7" := by
      simpa [Relay.joinHistory, Relay.joinData] using hopened
    have hnumeral : goString "7" = Decimal.toString 7 := by decide
    rw [hi, hnumeral]
    exact canonical_toString 7

/-- The clients {lit}`1` and {lit}`01` join one game server. -/
def aliasedLabels : List RelayLabel :=
  Relay.joinLabels (goString "1") ++ .handler 1 (.wrote .ok) :: Relay.joinSteps 2 (goString "01")

/-- Both clients are handled on entry 1, whose offers go to the first. -/
theorem exists_not_peerIdentity :
    ∃ r h t out, Relay.system.run (Relay.init 0) aliasedLabels = some (r, h) ∧
      system.run init (joinedLabels (goString "1") 1 ++
        [.message 2 (Relay.joinData (goString "01")) true]) = some (t, out) ∧
      .delivered 1 0 (Relay.joinData (goString "1")) ∈ h ∧
      .delivered 2 0 (Relay.joinData (goString "01")) ∈ h ∧ ¬ PeerIdentity h out := by
  have hrelay : ∃ r, Relay.system.run (Relay.init 0) aliasedLabels = some (r,
      Relay.joinHistory (goString "1") ++ [.delivered 1 0 (Relay.joinData (goString "1")),
        .opened 2 (goString "01"),
        .received 2 { id := [], type := msgTypeRegister, role := roleClient },
        .registered 2 (goString "01") roleClient,
        .received 2 { id := goString "12345", type := msgTypeJoin },
        .lookedUp 2 (goString "12345"),
        .delivered 2 0 (Relay.joinData (goString "01"))]) := ⟨_, rfl⟩
  have hrun : ∃ t, system.run init (joinedLabels (goString "1") 1 ++
      [.message 2 (Relay.joinData (goString "01")) true]) = some (t,
      [.registered (registerMsg 12345), .created 1 1, .handled 1 1,
        .sent 1 (Negotiation.message 1 (.localDescription (goString "offer") (goString "v=0"))),
        .handled 2 1]) := ⟨_, rfl⟩
  rcases hrelay with ⟨r, hrelay⟩
  rcases hrun with ⟨t, hrun⟩
  refine ⟨r, _, t, _, hrelay, hrun, by simp, by simp, fun hidentity => ?_⟩
  exact hidentity.separate 1 2 (goString "1") (goString "01") 1 (by simp [Relay.joinHistory])
    (by simp) (by decide) (by simp) (by simp)

end NetworkServer

end GameFramework
